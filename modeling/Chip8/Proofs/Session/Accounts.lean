import Chip8.Proofs.Halting
import Chip8.Proofs.Session.Steps

/-!
# Chip8.Proofs.Session.Accounts — what a run notes while it runs

An account (`Account`) tells what a session has done on its way: the events it has noted, the steps
of its processor that they stand for, and how the events led from one stage of the routine of a run
to another.  Accounts add up, so that there is one for each part of a session and in the end one for
the whole run up to its last picture (`runFrom_over`).
-/

namespace Chip8

/-! ## Events -/

namespace Event

/-- Whether a step succeeded, for a step. -/
def outcome? : Event → Option Bool
  | .step succeeded => some succeeded
  | _ => none

/-- The text of a line that was printed. -/
def line? : Event → Option String
  | .line text => some text
  | _ => none

@[simp] theorem outcome?_step (succeeded : Bool) :
    outcome? (.step succeeded) = some succeeded := rfl

@[simp] theorem outcome?_line (text : String) : outcome? (.line text) = none := rfl

@[simp] theorem line?_step (succeeded : Bool) : line? (.step succeeded) = none := rfl

@[simp] theorem line?_line (text : String) : line? (.line text) = some text := rfl

end Event

/-- Where a run is in its routine. -/
inductive Stage where
  /-- Anything but a picture may follow. -/
  | free
  /-- The host has been asked and does not want to quit: a picture is due. -/
  | asked
  /-- The user wants to quit: only the last picture follows. -/
  | quit
  /-- A step has failed: the complaint follows. -/
  | failed
  /-- The complaint has been printed: only the last picture follows. -/
  | told
  /-- The last picture has been shown. -/
  | closed

namespace Stage

/-- The stage after an event; none if the event is out of place. -/
def next : Stage → Event → Option Stage
  | .free, .poll true => some .quit
  | .free, .poll false => some .asked
  | .free, .refresh true _ => none
  | .free, .refresh false _ => some .closed
  | .free, .step false => some .failed
  | .free, _ => some .free
  | .asked, .refresh true _ => some .free
  | .failed, .line _ => some .told
  | .quit, .refresh false _ | .told, .refresh false _ => some .closed
  | _, _ => none

/-- Events, in their order, lead from one stage to another. -/
def Takes (p : Stage) (events : List Event) (q : Stage) : Prop := events.foldlM next p = some q

variable {p q r : Stage} {e : Event} {events events' : List Event}

@[simp] theorem takes_nil : Takes p [] q ↔ p = q := Option.some_inj

@[simp] theorem takes_cons :
    Takes p (e :: events) q ↔ ∃ p', p.next e = some p' ∧ Takes p' events q := by
  unfold Takes
  rw [List.foldlM_cons]
  exact Option.bind_eq_some_iff

theorem takes_append :
    Takes p (events ++ events') r ↔ ∃ q, Takes p events q ∧ Takes q events' r := by
  unfold Takes
  rw [List.foldlM_append]
  exact Option.bind_eq_some_iff

end Stage

/-- The fault that the readings come to in the end. -/
def Readings.fault : Readings → ClockFault
  | .ended fault | .failed fault _ => fault
  | .next _ rest => (rest ()).fault

/-- What is printed on account of a step: its trace and its complaint. -/
def Step.lines {ρ : Type} (a : Step ρ) : List String :=
  a.line.toList ++ (a.error.map CpuError.message).toList

/-! ## Accounts -/

namespace Session

variable {ρ : Type} {s t u : Session ρ} {p q r : Stage} {steps steps' : List (Step ρ)}
  {events events' : List Event}

/-- From `s` to `t` a session has noted these events, which stand for these steps, and has counted
the steps that succeeded; the events lead from stage `p` to stage `q`. -/
structure Account (s : Session ρ) (p : Stage) (steps : List (Step ρ)) (events : List Event)
    (t : Session ρ) (q : Stage) : Prop where
  journal : t.journal = events.reverse ++ s.journal
  stages : p.Takes events q
  ops : t.ops = s.ops + steps.countP (·.error.isNone)
  outcomes : events.filterMap Event.outcome? = steps.map (·.error.isNone)
  lines : events.filterMap Event.line? = steps.flatMap Step.lines

/-- There is an account of the way from `s` to `t`. -/
def Goes (s : Session ρ) (p : Stage) (steps : List (Step ρ)) (t : Session ρ) (q : Stage) : Prop :=
  ∃ events, Account s p steps events t q

theorem Account.trans (h : Account s p steps events t q) (h' : Account t q steps' events' u r) :
    Account s p (steps ++ steps') (events ++ events') u r where
  journal := by rw [h'.journal, h.journal, List.reverse_append, List.append_assoc]
  stages := Stage.takes_append.mpr ⟨q, h.stages, h'.stages⟩
  ops := by rw [h'.ops, h.ops, List.countP_append, Nat.add_assoc]
  outcomes := by rw [List.filterMap_append, h.outcomes, h'.outcomes, List.map_append]
  lines := by rw [List.filterMap_append, h.lines, h'.lines, List.flatMap_append]

theorem Goes.trans (h : Goes s p steps t q) (h' : Goes t q steps' u r) :
    Goes s p (steps ++ steps') u r := by
  obtain ⟨events, h⟩ := h
  obtain ⟨events', h'⟩ := h'
  exact ⟨events ++ events', h.trans h'⟩

theorem Goes.refl (s : Session ρ) (p : Stage) : Goes s p [] s p := ⟨[], rfl, rfl, rfl, rfl, rfl⟩

/-- One event that is neither a step nor a line. -/
theorem Goes.event {e : Event} (hj : t.journal = e :: s.journal) (ho : t.ops = s.ops)
    (hp : p.next e = some q) (hs : e.outcome? = none) (hl : e.line? = none) : Goes s p [] t q := by
  refine ⟨[e], hj, Stage.takes_cons.mpr ⟨q, hp, Stage.takes_nil.mpr rfl⟩, ho, ?_, ?_⟩
  · rw [List.filterMap_cons_none hs]
    rfl
  · rw [List.filterMap_cons_none hl]
    rfl

/-! ## Parts of a session -/

theorem goes_reportIfDue (s : Session ρ) (now : Seconds) :
    Goes s .free [] (s.reportIfDue now) .free := by
  unfold reportIfDue
  split_ifs
  · exact ⟨[.report _ _, .title _], rfl, rfl, rfl, rfl, rfl⟩
  · exact .refl s .free

theorem goes_poll (s : Session ρ) :
    Goes s .free [] s.poll.1 (if s.poll.2 then .quit else .asked) := by
  cases hq : s.poll.2 with
  | true => exact .event (e := .poll s.poll.2) rfl rfl (by rw [hq]; rfl) rfl rfl
  | false => exact .event (e := .poll s.poll.2) rfl rfl (by rw [hq]; rfl) rfl rfl

theorem goes_display (s : Session ρ) (now : Seconds) : Goes s .asked [] (s.display now) .free :=
  .event (e := .refresh true s.cpu.machine.screen) rfl rfl rfl rfl rfl

theorem goes_catchUp {now : Seconds} (h : s.catchUp now = some t) : Goes s .free [] t .free :=
  catchUp_preserves (P := fun u => Goes s .free [] u .free)
    (fun hs => hs.trans (.event (e := .tick) rfl rfl rfl rfl rfl)) h (.refl s .free)

theorem goes_attend (s : Session ρ) (now : Seconds) :
    Goes s .free [] (s.attend now).1 (if (s.attend now).2 then .quit else .free) := by
  have hreport := s.goes_reportIfDue now
  unfold attend
  generalize s.reportIfDue now = r at hreport ⊢
  simp only
  by_cases hdue : r.nextDisplay ≤ now
  · have hpoll := hreport.trans r.goes_poll
    rw [if_pos hdue]
    rcases hp : r.poll with ⟨t, _ | _⟩
    · rw [hp] at hpoll
      exact hpoll.trans (t.goes_display now)
    · rw [hp] at hpoll
      exact hpoll
  · rw [if_neg hdue]
    exact hreport

theorem goes_service {now : Seconds} {quit : Bool} (h : s.service now = some (t, quit)) :
    Goes s .free [] t (if quit then .quit else .free) := by
  have hattend := s.goes_attend now
  cases serviced h with
  | quit ha =>
    rw [ha] at hattend
    exact hattend
  | done ha hc =>
    rw [ha] at hattend
    exact hattend.trans (goes_catchUp hc)

variable [ByteSource ρ]

/-- A step, and what is noted after it. -/
theorem goes_step (told : List Event) (hj : t.journal = told.reverse ++ s.stepCpu.1.journal)
    (hp : Stage.free.Takes (.step s.cpu.step.error.isNone :: told) q)
    (ho : t.ops = s.ops + if s.cpu.step.error.isNone then 1 else 0)
    (hs : told.filterMap Event.outcome? = [])
    (hl : told.filterMap Event.line? = (s.cpu.step.error.map CpuError.message).toList) :
    Goes s .free [s.cpu.step] t q := by
  have hops : t.ops = s.ops + [s.cpu.step].countP (·.error.isNone) := by
    rw [ho, List.countP_singleton]
  rw [stepCpu_eq] at hj
  cases hline : s.cpu.step.line with
  | none =>
    rw [hline] at hj
    refine ⟨.step s.cpu.step.error.isNone :: told, ?_, hp, hops, ?_, ?_⟩
    · simp [hj]
    · simp [hs]
    · simp [List.filterMap_cons, hl, Step.lines, hline]
  | some line =>
    rw [hline] at hj
    refine ⟨.line line :: .step s.cpu.step.error.isNone :: told, ?_, ?_, hops, ?_, ?_⟩
    · simp [hj]
    · exact Stage.takes_cons.mpr ⟨.free, rfl, hp⟩
    · simp [List.filterMap_cons, hs]
    · simp [List.filterMap_cons, hl, Step.lines, hline]

theorem goes_count (s : Session ρ) (h : s.cpu.step.error = none) :
    Goes s .free [s.cpu.step] s.stepCpu.1.count .free := by
  refine goes_step [] rfl ?_ ?_ rfl ?_
  · rw [h]
    rfl
  · rw [h, count, stepCpu_eq]
    rfl
  · rw [h]
    rfl

theorem goes_complain (s : Session ρ) {e : CpuError} (h : s.cpu.step.error = some e) :
    Goes s .free [s.cpu.step] (s.stepCpu.1.note (.line e.message)) .told := by
  refine goes_step [.line e.message] rfl ?_ ?_ rfl ?_
  · rw [h]
    rfl
  · rw [h, note, stepCpu_eq]
    rfl
  · rw [h]
    rfl

/-! ## Runs -/

/-- How the loop of a run from `s` is over, with these steps, in `t`, before its last picture. -/
inductive Over (maxOps : Option Int) (s : Session ρ) :
    List (Step ρ) → Ending → Session ρ → Prop where
  | quit {steps : List (Step ρ)} {t : Session ρ} (h : Goes s .free steps t .quit)
      (hd : ∀ a ∈ steps, a.error = none) : Over maxOps s steps .stopped t
  | full {steps : List (Step ρ)} {t : Session ρ} (h : Goes s .free steps t .free)
      (hd : ∀ a ∈ steps, a.error = none) (hl : t.limitReached maxOps = true) :
      Over maxOps s steps .stopped t
  | halted {steps : List (Step ρ)} {a : Step ρ} {e : CpuError} {t : Session ρ}
      (h : Goes s .free (steps ++ [a]) t .told) (hd : ∀ b ∈ steps, b.error = none)
      (he : a.error = some e) (hb : ∀ fault, e ≠ .bare fault) :
      Over maxOps s (steps ++ [a]) .halted t
  | lost {steps : List (Step ρ)} {t : Session ρ} {fault : ClockFault}
      (h : Goes s .free steps t .free) (hd : ∀ a ∈ steps, a.error = none) :
      Over maxOps s steps (.clockFailed fault) t

/-- What one reading leads to, with these steps. -/
inductive Led (maxOps : Option Int) (s : Session ρ) : List (Step ρ) → Advance ρ → Prop where
  | more {steps : List (Step ρ)} {phase : Phase} {t : Session ρ} (h : Goes s .free steps t .free)
      (hd : ∀ a ∈ steps, a.error = none) : Led maxOps s steps (.more phase t)
  | finished {steps : List (Step ρ)} {ending : Ending} {t : Session ρ}
      (h : Over maxOps s steps ending t) (hc : ∀ fault, ending ≠ .clockFailed fault) :
      Led maxOps s steps (.over ending t)

variable {maxOps : Option Int} {now : Seconds} {phase : Phase} {ending : Ending} {a : Advance ρ}

omit [ByteSource ρ] in
theorem Over.of_goes (hs : Goes s .free steps t .free) (hdone : ∀ a ∈ steps, a.error = none)
    (h : Over maxOps t steps' ending u) : Over maxOps s (steps ++ steps') ending u := by
  have happend {more : List (Step ρ)} (hd : ∀ a ∈ more, a.error = none) :
      ∀ a ∈ steps ++ more, a.error = none := List.forall_mem_append.mpr ⟨hdone, hd⟩
  cases h with
  | quit h hd => exact .quit (hs.trans h) (happend hd)
  | full h hd hl => exact .full (hs.trans h) (happend hd) hl
  | lost h hd => exact .lost (hs.trans h) (happend hd)
  | halted h hd he hb =>
    have hgoes := hs.trans h
    rw [← List.append_assoc] at hgoes ⊢
    exact .halted hgoes (happend hd) he hb

omit [ByteSource ρ] in
theorem Led.of_goes (hs : Goes s .free [] t .free) (h : Led maxOps t steps a) :
    Led maxOps s steps a := by
  cases h with
  | more h hd => exact .more (hs.trans h) hd
  | finished h hc => exact .finished (h.of_goes hs (List.forall_mem_nil _)) hc

omit [ByteSource ρ] in
theorem led_toNext (h : Goes s .free steps t .free) (hd : ∀ a ∈ steps, a.error = none) :
    Led maxOps s steps (t.toNext maxOps) := by
  unfold toNext
  split_ifs with hl
  · exact .finished (.full h hd hl) nofun
  · exact .more h hd

theorem Instructed.led (h : Instructed maxOps now s a) (hr : s.cpu.Reachable) :
    Led maxOps s [s.cpu.step] a := by
  cases h with
  | failed he => exact absurd he (Cpu.step_not_bare hr.bounded _)
  | halted he hb =>
    have hover : Over maxOps s ([] ++ [s.cpu.step]) .halted _ :=
      .halted (s.goes_complain he) (List.forall_mem_nil _) he hb
    exact .finished hover nofun
  | next he hi => exact led_toNext (s.goes_count he) (List.forall_mem_singleton.mpr he)
  | wait he hi => exact .more (s.goes_count he) (List.forall_mem_singleton.mpr he)

theorem Fed.led (h : Fed maxOps now s phase steps a) (hr : s.cpu.Reachable) :
    Led maxOps s steps a := by
  cases h with
  | opened => exact led_toNext ⟨[], rfl, rfl, rfl, rfl, rfl⟩ (List.forall_mem_nil _)
  | quit hp hs => exact .finished (.quit (goes_service hs) (List.forall_mem_nil _)) nofun
  | stepped hs =>
    have hafter := (service_moves hs).preserves reachable_of_move hr
    exact .of_goes (goes_service hs) ((instructed _ maxOps now).led hafter)
  | waited hlt hs => exact .more (goes_service hs) (List.forall_mem_nil _)
  | resumed hle => exact led_toNext (.refl s .free) (List.forall_mem_nil _)

omit [ByteSource ρ] in
/-- The loop is over when a reading fails. -/
theorem over_loseClock (s : Session ρ) (hp : phase ≠ .opening) (fault : ClockFault) :
    ∃ t, Over maxOps s [] (.clockFailed fault) t ∧ s.loseClock phase = t.refresh false :=
  ⟨s, .lost (.refl s .free) (List.forall_mem_nil _), if_neg hp⟩

/-- **The account of a run** that is in its loop, or whose first reading leads there, and that comes
to an end.  A fault of the clock at which the run ends is the first that there is. -/
theorem runFrom_over {readings : Readings} {f : Finished ρ} (hr : s.cpu.Reachable)
    (hp : phase ≠ .opening ∨ ∃ now rest, readings = .next now rest)
    (h : s.runFrom maxOps phase readings = some f) :
    (∃ t, Over maxOps s (s.stepsFrom maxOps phase readings) f.ending t ∧
        f.session = t.refresh false) ∧
      ∀ fault, f.ending = .clockFailed fault → fault = readings.fault := by
  induction readings generalizing s phase with
  | ended fault =>
    cases h
    exact ⟨s.over_loseClock (hp.resolve_right nofun) fault,
      fun _ hfault => (Ending.clockFailed.inj hfault).symm⟩
  | failed fault rest =>
    cases h
    exact ⟨s.over_loseClock (hp.resolve_right nofun) fault,
      fun _ hfault => (Ending.clockFailed.inj hfault).symm⟩
  | next now rest ih =>
    have hread : Goes s .free [] (s.note (.reading now)) .free :=
      .event (e := .reading now) rfl rfl rfl rfl rfl
    rw [runFrom] at h
    rw [stepsFrom]
    rcases hf : s.feed maxOps phase now with _ | ⟨phase', t⟩ | ⟨ending, t⟩ <;> rw [hf] at h
    · cases h
    -- all steps so far have succeeded, or the run would be over
    · have hled := Led.of_goes hread ((fed hf).led hr)
      have hafter := (feed_moves hf).preserves reachable_of_move hr
      obtain ⟨⟨u, hover, hlast⟩, hfault⟩ := ih () hafter (Or.inl (feed_inLoop hf)) h
      cases hled with
      | more hgoes hdone => exact ⟨⟨u, hover.of_goes hgoes hdone, hlast⟩, hfault⟩
    · have hled := Led.of_goes hread ((fed hf).led hr)
      cases h
      cases hled with
      | finished hover hc =>
        exact ⟨⟨t, by rwa [List.append_nil], rfl⟩, fun fault hfault => absurd hfault (hc fault)⟩

end Session

end Chip8
