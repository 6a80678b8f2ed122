import Chip8.Proofs.Session.Steps
import Mathlib.Data.List.Chain

/-!
# Chip8.Proofs.Session.Pacing — the clock speed is never exceeded

A run calls on the clock, on the service of its session and on its processor.  `callsFrom` runs
along with `runFrom` and collects these calls.  They follow a routine (`Routine`): an instruction is
carried out right after a reading of the clock and the service at it, and then every reading before
the deadline is served, up to the first at or after it, which ends the wait.  The deadline is one
interval after the reading before the instruction, so two instructions are never nearer to each
other than the interval, if the clock does not go back.  Only the order of the readings counts.
-/

namespace Chip8

/-- What a run calls on: the clock, the service of its session, and the processor. -/
inductive HostCall where
  /-- The clock, for the time of the first step of the timers. -/
  | start (now : Seconds)
  /-- The clock, in the loop. -/
  | read (now : Seconds)
  /-- The service at a time, which answers whether the user wants to quit, or never ends. -/
  | serve (now : Seconds) (quit : Option Bool)
  | step (succeeded : Bool)
  deriving DecidableEq

/-- The times that a clock reads, as far as it reads any. -/
def Readings.times : Readings → List Seconds
  | .ended _ => []
  | .failed _ rest => (rest ()).times
  | .next now rest => now :: (rest ()).times

namespace HostCall

/-- The time that the clock read. -/
def time? : HostCall → Option Seconds
  | .start now | .read now => some now
  | .serve _ _ | .step _ => none

def isStep : HostCall → Bool
  | .step _ => true
  | _ => false

/-- The readings of the clock at which instructions were carried out. -/
def tops : List HostCall → List Seconds
  | .read now :: .serve _ _ :: .step _ :: calls => now :: tops calls
  | _ :: calls => tops calls
  | [] => []

/-- All of them were read. -/
theorem tops_subset (calls : List HostCall) : tops calls ⊆ calls.filterMap time? := by
  fun_induction tops calls with
  | case1 now _ _ _ calls ih => exact List.cons_subset_cons now ih
  | case2 c calls hno ih =>
    intro now hnow
    rw [List.filterMap_cons]
    cases c.time? with
    | none => exact ih hnow
    | some now' => exact .tail now' (ih hnow)
  | case3 => exact List.Subset.refl []

end HostCall

open HostCall (tops)

/-- The deadline after some calls that were made from a phase on: one interval after the reading of
the last instruction; without one, that of the phase. -/
def deadline? (interval : Seconds) (phase : Phase) (calls : List HostCall) : Option Seconds :=
  match (tops calls).getLast? with
  | some now => some (now + interval)
  | none =>
    match phase with
    | .waiting deadline => some deadline
    | _ => none

/-! ## The routine -/

/-- From a phase on, a run with an interval makes these calls and comes to this end, if it comes to
an end. -/
inductive Routine (interval : Seconds) : Phase → List HostCall → Option Ending → Prop where
  | full : Routine interval .ready [] (some .stopped)
  | lost (phase : Phase) (fault : ClockFault) :
      Routine interval phase [] (some (.clockFailed fault))
  | start (now : Seconds) {calls : List HostCall} {ending : Option Ending}
      (h : Routine interval .ready calls ending) :
      Routine interval .opening (.start now :: calls) ending
  | quit (now : Seconds) :
      Routine interval .ready [.read now, .serve now (some true)] (some .stopped)
  | stick (now : Seconds) : Routine interval .ready [.read now, .serve now none] none
  | fail (now : Seconds) {ending : Ending} (he : ending ≠ .stopped) :
      Routine interval .ready [.read now, .serve now (some false), .step false] (some ending)
  | step (now : Seconds) {calls : List HostCall} {ending : Option Ending}
      (h : Routine interval (.waiting (now + interval)) calls ending) :
      Routine interval .ready (.read now :: .serve now (some false) :: .step true :: calls) ending
  | wait {deadline now : Seconds} {calls : List HostCall} {ending : Option Ending}
      (hlt : now < deadline) (h : Routine interval (.waiting deadline) calls ending) :
      Routine interval (.waiting deadline) (.read now :: .serve now (some false) :: calls) ending
  | leave {deadline now : Seconds} (hlt : now < deadline) :
      Routine interval (.waiting deadline) [.read now, .serve now (some true)] (some .stopped)
  | stay {deadline now : Seconds} (hlt : now < deadline) :
      Routine interval (.waiting deadline) [.read now, .serve now none] none
  | resume {deadline now : Seconds} {calls : List HostCall} {ending : Option Ending}
      (hle : deadline ≤ now) (h : Routine interval .ready calls ending) :
      Routine interval (.waiting deadline) (.read now :: calls) ending

namespace Routine

variable {interval now w : Seconds} {phase : Phase} {calls before after : List HostCall}
  {ending : Option Ending} {quit : Option Bool} {succeeded : Bool}

/-- A routine starts with a reading of the clock. -/
theorem time?_ne_none {c : HostCall} (h : Routine interval phase (c :: calls) ending) :
    c.time? ≠ none := by
  cases h <;> exact Option.some_ne_none _

/-- Neither what is served while the run waits nor the reading that ends the wait belongs to an
instruction. -/
theorem tops_waiting (h : Routine interval phase calls ending) (hp : before <+: calls) :
    (∀ quit, tops (.read now :: .serve now quit :: before) = tops before) ∧
      tops (.read now :: before) = tops before := by
  obtain ⟨after, rfl⟩ := hp
  cases before with
  | nil => exact ⟨fun _ => rfl, rfl⟩
  | cons c before =>
    -- what follows starts with a reading of its own, so no instruction follows the service
    have hc := h.time?_ne_none
    cases c with
    | start now => exact ⟨fun _ => rfl, rfl⟩
    | read now => exact ⟨fun _ => rfl, rfl⟩
    | serve now quit => exact absurd rfl hc
    | step succeeded => exact absurd rfl hc

theorem tops_wait (h : Routine interval phase calls ending) (hp : before <+: calls) :
    tops (.read now :: .serve now quit :: before) = tops before := (tops_waiting h hp).1 quit

theorem tops_resume (h : Routine interval phase calls ending) (hp : before <+: calls) :
    tops (.read now :: before) = tops before := (tops_waiting h hp).2

/-- Each step has its reading. -/
theorem topped (h : Routine interval phase calls ending) :
    (tops calls).length = calls.countP HostCall.isStep := by
  induction h with
  | full => rfl
  | lost phase fault => rfl
  | start now h ih => exact ih
  | quit now => rfl
  | stick now => rfl
  | fail now he => rfl
  | step now h ih => simp [tops, ih, HostCall.isStep, List.countP_cons]
  | wait hlt h ih =>
    rw [tops_wait h List.prefix_rfl]
    exact ih
  | leave hlt => rfl
  | stay hlt => rfl
  | resume hle h ih =>
    rw [tops_resume h List.prefix_rfl]
    exact ih

theorem deadline?_step :
    deadline? interval .ready (.read now :: .serve now quit :: .step succeeded :: calls) =
      deadline? interval (.waiting (now + interval)) calls := by
  unfold deadline?
  rw [tops, List.getLast?_cons]
  cases (tops calls).getLast? with
  | none => rfl
  | some r => rfl

theorem deadline?_wait {deadline : Seconds} (h : Routine interval phase calls ending)
    (hp : before <+: calls) :
    deadline? interval (.waiting deadline) (.read now :: .serve now quit :: before) =
      deadline? interval (.waiting deadline) before := by
  unfold deadline?
  rw [tops_wait h hp]

theorem deadline?_resume {deadline due : Seconds} (h : Routine interval .ready calls ending)
    (hp : before <+: calls) (hdue : deadline? interval .ready before = some due) :
    deadline? interval (.waiting deadline) (.read now :: before) = some due := by
  unfold deadline? at hdue ⊢
  rw [tops_resume h hp]
  cases hlast : (tops before).getLast? with
  | none => rw [hlast] at hdue; cases hdue
  | some r => rwa [hlast] at hdue

/-- Every reading in the loop is served at once, but for the one that ends a wait, at or after the
deadline. -/
theorem served (h : Routine interval phase calls ending)
    (hs : calls = before ++ .read w :: after) :
    (∃ quit rest, after = .serve w quit :: rest) ∨
      ∃ deadline, deadline? interval phase before = some deadline ∧ deadline ≤ w := by
  -- what comes before the reading is taken off call by call
  have hskip {c : HostCall} {before calls : List HostCall} (hc : c ≠ .read w)
      (hs : c :: calls = before ++ .read w :: after) :
      ∃ before', before = c :: before' ∧ calls = before' ++ .read w :: after := by
    rcases List.cons_eq_append_iff.mp hs with ⟨-, hs⟩ | ⟨before', hb, hs⟩
    · exact absurd (List.cons.inj hs).1.symm hc
    · exact ⟨before', hb, hs⟩
  have hnil {before : List HostCall} (hs : [] = before ++ .read w :: after) : False := by
    simp at hs
  -- a reading and a service with which the routine is over
  have honly {before : List HostCall} {now : Seconds} {quit : Option Bool}
      (hs : [.read now, .serve now quit] = before ++ .read w :: after) :
      ∃ quit rest, after = .serve w quit :: rest := by
    rcases List.cons_eq_append_iff.mp hs with ⟨-, hs₁⟩ | ⟨_, -, hs₁⟩
    · cases hs₁
      exact ⟨quit, _, rfl⟩
    · obtain ⟨_, -, hs₂⟩ := hskip HostCall.noConfusion hs₁
      exact (hnil hs₂).elim
  -- the reading is the first of the routine's next calls, or it belongs to the rest of the routine
  induction h generalizing before with
  | full => exact (hnil hs).elim
  | lost phase fault => exact (hnil hs).elim
  | start now h ih =>
    obtain ⟨before₁, rfl, hs₁⟩ := hskip HostCall.noConfusion hs
    have hserved := ih hs₁
    exact hserved
  | quit now => exact Or.inl (honly hs)
  | stick now => exact Or.inl (honly hs)
  | fail now he =>
    rcases List.cons_eq_append_iff.mp hs with ⟨-, hs₁⟩ | ⟨_, -, hs₁⟩
    · cases hs₁
      exact Or.inl ⟨_, _, rfl⟩
    · obtain ⟨_, -, hs₂⟩ := hskip HostCall.noConfusion hs₁
      obtain ⟨_, -, hs₃⟩ := hskip HostCall.noConfusion hs₂
      exact (hnil hs₃).elim
  | step now h ih =>
    rcases List.cons_eq_append_iff.mp hs with ⟨-, hs₁⟩ | ⟨before₁, rfl, hs₁⟩
    · cases hs₁
      exact Or.inl ⟨_, _, rfl⟩
    · obtain ⟨before₂, rfl, hs₂⟩ := hskip HostCall.noConfusion hs₁
      obtain ⟨before₃, rfl, hs₃⟩ := hskip HostCall.noConfusion hs₂
      rw [deadline?_step]
      exact ih hs₃
  | wait hlt h ih =>
    rcases List.cons_eq_append_iff.mp hs with ⟨-, hs₁⟩ | ⟨before₁, rfl, hs₁⟩
    · cases hs₁
      exact Or.inl ⟨_, _, rfl⟩
    · obtain ⟨before₂, rfl, hs₂⟩ := hskip HostCall.noConfusion hs₁
      rw [deadline?_wait h ⟨_, hs₂.symm⟩]
      exact ih hs₂
  | leave hlt => exact Or.inl (honly hs)
  | stay hlt => exact Or.inl (honly hs)
  | @resume deadline now calls ending hle h ih =>
    -- only this reading is not served: it is the one at or after the deadline
    rcases List.cons_eq_append_iff.mp hs with ⟨rfl, hs₁⟩ | ⟨before₁, rfl, hs₁⟩
    · cases hs₁
      exact Or.inr ⟨deadline, rfl, hle⟩
    · refine (ih hs₁).imp_right fun ⟨due, hdue, hle⟩ => ⟨due, ?_, hle⟩
      exact deadline?_resume h ⟨_, hs₁.symm⟩ hdue

/-- While the clock does not go back, instructions keep their distance, and the first after a wait
comes no earlier than its deadline. -/
theorem spaced (h : Routine interval phase calls ending)
    (hclock : (calls.filterMap HostCall.time?).Pairwise (· ≤ ·)) :
    (tops calls).IsChain (fun r r' => r + interval ≤ r') ∧
      ∀ deadline, phase = .waiting deadline → ∀ r ∈ (tops calls).head?, deadline ≤ r := by
  induction h with
  | full => exact ⟨.nil, nofun⟩
  | lost phase fault => exact ⟨.nil, nofun⟩
  | start now h ih => exact ⟨(ih (List.pairwise_cons.mp hclock).2).1, nofun⟩
  | quit now => exact ⟨.nil, nofun⟩
  | stick now => exact ⟨.nil, nofun⟩
  | fail now he => exact ⟨.singleton now, nofun⟩
  | step now h ih =>
    -- the wait for the deadline of this instruction keeps the next one away from it
    obtain ⟨hchain, hfirst⟩ := ih (List.pairwise_cons.mp hclock).2
    exact ⟨List.isChain_cons.mpr ⟨hfirst _ rfl, hchain⟩, nofun⟩
  | @wait deadline now calls ending hlt h ih =>
    have hafter := ih (List.pairwise_cons.mp hclock).2
    rwa [tops_wait h List.prefix_rfl]
  | leave hlt => exact ⟨.nil, fun _ _ => nofun⟩
  | stay hlt => exact ⟨.nil, fun _ _ => nofun⟩
  | @resume deadline now calls ending hle h ih =>
    obtain ⟨hlater, hclock'⟩ := List.pairwise_cons.mp hclock
    obtain ⟨hchain, -⟩ := ih hclock'
    rw [tops_resume h List.prefix_rfl]
    -- any instruction from here on is read after the reading that ended the wait
    refine ⟨hchain, ?_⟩
    rintro _ ⟨⟩ r hr
    have hread : r ∈ calls.filterMap HostCall.time? :=
      HostCall.tops_subset calls (List.mem_of_head? hr)
    exact Int.le_trans hle (hlater r hread)

theorem deadline?_waiting_ne_none (deadline : Seconds) (calls : List HostCall) :
    deadline? interval (.waiting deadline) calls ≠ none := by
  unfold deadline?
  cases (tops calls).getLast? with
  | none => exact Option.some_ne_none _
  | some r => exact Option.some_ne_none _

/-- Who stops before the first instruction has called on nothing, unless the user wants to quit. -/
theorem eq_nil_of_stopped (h : Routine interval .ready calls (some .stopped))
    (hquit : ∀ now, .serve now (some true) ∉ calls) (hd : deadline? interval .ready calls = none) :
    calls = [] := by
  cases h with
  | full => rfl
  | quit now => exact absurd (.tail _ (.head _)) (hquit now)
  | fail now he => exact absurd rfl he
  | step now h =>
    rw [deadline?_step] at hd
    exact absurd hd (deadline?_waiting_ne_none _ _)

/-- A run that stops although nobody wants to quit has waited for the end of its last
instruction. -/
theorem stopped (h : Routine interval phase calls (some .stopped))
    (hquit : ∀ now, .serve now (some true) ∉ calls) {deadline : Seconds}
    (hd : deadline? interval phase calls = some deadline) :
    ∃ w, calls.getLast? = some (.read w) ∧ deadline ≤ w := by
  have hcons {c : HostCall} {calls : List HostCall}
      (hlast : ∃ w, calls.getLast? = some (.read w) ∧ deadline ≤ w) :
      ∃ w, (c :: calls).getLast? = some (.read w) ∧ deadline ≤ w := by
    obtain ⟨w, hw, hle⟩ := hlast
    refine ⟨w, ?_, hle⟩
    rw [List.getLast?_cons, hw]
    rfl
  have htail {c : HostCall} {calls : List HostCall}
      (hquit : ∀ now, .serve now (some true) ∉ c :: calls) :
      ∀ now, .serve now (some true) ∉ calls :=
    fun now hmem => hquit now (.tail c hmem)
  generalize hend : some Ending.stopped = ending at h
  -- the last reading is found at the end of the rest, but for a routine that is over with it
  induction h with
  | full => cases hd
  | lost phase fault => cases hend
  | start now h ih => exact hcons (ih (htail hquit) hd hend)
  | quit now => exact absurd (.tail _ (.head _)) (hquit now)
  | stick now => cases hend
  | fail now he => exact absurd (Option.some.inj hend.symm) he
  | step now h ih =>
    rw [deadline?_step] at hd
    exact hcons (hcons (hcons (ih (htail (htail (htail hquit))) hd hend)))
  | @wait due now calls ending hlt h ih =>
    rw [deadline?_wait h List.prefix_rfl] at hd
    exact hcons (hcons (ih (htail (htail hquit)) hd hend))
  | @leave due now hlt => exact absurd (.tail _ (.head _)) (hquit now)
  | stay hlt => cases hend
  | @resume due now calls ending hle h ih =>
    -- either there is another instruction, whose deadline counts, or the run stops here
    cases hready : deadline? interval .ready calls with
    | some later =>
      rw [deadline?_resume h List.prefix_rfl hready] at hd
      exact hcons (ih (htail hquit) (hready.trans hd) hend)
    | none =>
      subst hend
      obtain rfl := eq_nil_of_stopped h (htail hquit) hready
      cases hd
      exact ⟨now, rfl, hle⟩

end Routine

/-! ## Runs -/

/-- What a run goes on to call on from where a reading has led, if it has led anywhere, and how it
ends, if it does. -/
def Advance.Rest {ρ : Type} (interval : Seconds) (calls : List HostCall) (ending : Option Ending) :
    Option (Advance ρ) → Prop
  | none => calls = [] ∧ ending = none
  | some (.more phase _) => Routine interval phase calls ending
  | some (.over ending' _) => calls = [] ∧ ending = some ending'

namespace Session

variable {ρ : Type} [ByteSource ρ]

/-- What a reading makes a run call on. -/
def callsAt (s : Session ρ) (phase : Phase) (now : Seconds) : List HostCall :=
  match phase with
  | .opening => [.start now]
  | .ready =>
    match (s.note (.reading now)).service now with
    | none => [.read now, .serve now none]
    | some (_, true) => [.read now, .serve now (some true)]
    | some (s, false) => [.read now, .serve now (some false), .step s.cpu.step.error.isNone]
  | .waiting deadline =>
    if now < deadline then
      [.read now, .serve now (((s.note (.reading now)).service now).map (·.2))]
    else [.read now]

/-- What `runFrom` calls on, in order. -/
def callsFrom (s : Session ρ) (maxOps : Option Int) (phase : Phase) : Readings → List HostCall
  | .ended _ | .failed _ _ => []
  | .next now rest =>
    s.callsAt phase now ++
      match s.feed maxOps phase now with
      | none => []
      | some (.more phase s) => callsFrom s maxOps phase (rest ())
      | some (.over _ _) => []

/-- What a run calls on, in order. -/
def callsOf (s : Session ρ) (maxOps : Option Int) (readings : Readings) : List HostCall :=
  s.callsFrom maxOps .opening readings

/-- Making these calls, with these answers, takes a session from `s` to `t`.  Nothing is called on
after a service that never ends. -/
inductive Makes : Session ρ → List HostCall → Session ρ → Prop where
  | done (s : Session ρ) : Makes s [] s
  | start {s t : Session ρ} {now : Seconds} {calls : List HostCall}
      (h : Makes { s.note (.reading now) with nextTick := now } calls t) :
      Makes s (.start now :: calls) t
  | read {s t : Session ρ} {now : Seconds} {calls : List HostCall}
      (h : Makes (s.note (.reading now)) calls t) : Makes s (.read now :: calls) t
  | serve {s t u : Session ρ} {now : Seconds} {quit : Bool} {calls : List HostCall}
      (hs : s.service now = some (u, quit)) (h : Makes u calls t) :
      Makes s (.serve now (some quit) :: calls) t
  | stick {s : Session ρ} {now : Seconds} (hs : s.service now = none) :
      Makes s [.serve now none] s
  | step {s t : Session ρ} {calls : List HostCall} (he : s.cpu.step.error = none)
      (h : Makes s.stepCpu.1.count calls t) : Makes s (.step true :: calls) t
  | halt {s t : Session ρ} {calls : List HostCall} {e : CpuError}
      (he : s.cpu.step.error = some e) (hb : ∀ fault, e ≠ .bare fault)
      (h : Makes (s.stepCpu.1.note (.line e.message)) calls t) : Makes s (.step false :: calls) t
  | fail {s t : Session ρ} {calls : List HostCall} {fault : Fault}
      (he : s.cpu.step.error = some (.bare fault)) (h : Makes s.stepCpu.1 calls t) :
      Makes s (.step false :: calls) t

/-! ### One reading -/

variable {s t : Session ρ} {maxOps : Option Int} {phase : Phase} {now interval : Seconds}
  {calls more : List HostCall} {a : Advance ρ} {b : Option (Advance ρ)} {ending : Option Ending}

/-- How a reading that has been noted takes a run on from a phase: what it calls on, and where it
leads, if it leads anywhere. -/
inductive Turned (maxOps : Option Int) (now : Seconds) (s : Session ρ) :
    Phase → List HostCall → Option (Advance ρ) → Prop where
  | start :
      Turned maxOps now s .opening [.start now] (some ({ s with nextTick := now }.toNext maxOps))
  | quit {t : Session ρ} (hs : s.service now = some (t, true)) :
      Turned maxOps now s .ready [.read now, .serve now (some true)] (some (.over .stopped t))
  | stick (hs : s.service now = none) :
      Turned maxOps now s .ready [.read now, .serve now none] none
  | step {t : Session ρ} (hs : s.service now = some (t, false)) :
      Turned maxOps now s .ready
        [.read now, .serve now (some false), .step t.cpu.step.error.isNone]
        (some (t.instruct maxOps now))
  | wait {deadline : Seconds} {t : Session ρ} (hlt : now < deadline)
      (hs : s.service now = some (t, false)) :
      Turned maxOps now s (.waiting deadline) [.read now, .serve now (some false)]
        (some (.more (.waiting deadline) t))
  | leave {deadline : Seconds} {t : Session ρ} (hlt : now < deadline)
      (hs : s.service now = some (t, true)) :
      Turned maxOps now s (.waiting deadline) [.read now, .serve now (some true)]
        (some (.over .stopped t))
  | stay {deadline : Seconds} (hlt : now < deadline) (hs : s.service now = none) :
      Turned maxOps now s (.waiting deadline) [.read now, .serve now none] none
  | resume {deadline : Seconds} (hle : deadline ≤ now) :
      Turned maxOps now s (.waiting deadline) [.read now] (some (s.toNext maxOps))

theorem turned (s : Session ρ) (maxOps : Option Int) (phase : Phase) (now : Seconds) :
    Turned maxOps now (s.note (.reading now)) phase (s.callsAt phase now)
      (s.feed maxOps phase now) := by
  unfold feed callsAt
  generalize s.note (.reading now) = s
  cases phase with
  | opening => exact .start
  | ready =>
    simp only
    rcases hs : s.service now with _ | ⟨t, _ | _⟩
    · exact .stick hs
    · exact .step hs
    · exact .quit hs
  | waiting deadline =>
    -- before the deadline the reading is served, and after it the wait is over unserved
    simp only
    split_ifs with hlt
    · rcases hs : s.service now with _ | ⟨t, _ | _⟩
      · exact .stay hlt hs
      · exact .wait hlt hs
      · exact .leave hlt hs
    · exact .resume (Int.not_lt.mp hlt)

theorem Instructed.makes (h : Instructed maxOps now s a) (hmore : Makes a.session more t) :
    Makes s (.step s.cpu.step.error.isNone :: more) t := by
  cases h with
  | failed he =>
    rw [he]
    exact .fail he hmore
  | halted he hb =>
    rw [he]
    exact .halt he hb hmore
  | next he hi =>
    rw [toNext_session] at hmore
    rw [he]
    exact .step he hmore
  | wait he hi =>
    rw [he]
    exact .step he hmore

theorem Turned.makes (h : Turned maxOps now (s.note (.reading now)) phase calls b)
    (hb : b = some a) (hmore : Makes a.session more t) : Makes s (calls ++ more) t := by
  cases h with
  | start =>
    cases hb
    rw [toNext_session] at hmore
    exact .start hmore
  | quit hs =>
    cases hb
    exact .read (.serve hs hmore)
  | stick hs => cases hb
  | step hs =>
    cases hb
    exact .read (.serve hs ((instructed _ maxOps now).makes hmore))
  | wait hlt hs =>
    cases hb
    exact .read (.serve hs hmore)
  | leave hlt hs =>
    cases hb
    exact .read (.serve hs hmore)
  | stay hlt hs => cases hb
  | resume hle =>
    cases hb
    rw [toNext_session] at hmore
    exact .read hmore

theorem Turned.makes_of_stuck (h : Turned maxOps now (s.note (.reading now)) phase calls b)
    (hb : b = none) : Makes s calls (s.note (.reading now)) := by
  cases h with
  | stick hs => exact .read (.stick hs)
  | stay hlt hs => exact .read (.stick hs)
  | _ => cases hb

theorem Turned.times (h : Turned maxOps now s phase calls b) :
    calls.filterMap HostCall.time? = [now] := by
  cases h <;> rfl

theorem interval_of_move (hm : Move s t) : t.interval = s.interval := by
  cases hm with
  | report now =>
    unfold reportIfDue
    split_ifs
    · rfl
    · rfl
  | step => rw [stepCpu_eq]
  | _ => rfl

theorem interval_moves (hm : Moves s t) : t.interval = s.interval :=
  hm.preserves (P := fun u => u.interval = s.interval)
    (fun hm hs => (interval_of_move hm).trans hs) rfl

open Advance (Rest)

omit [ByteSource ρ] in
theorem toNext_rest (h : Rest interval more ending (some (s.toNext maxOps))) :
    Routine interval .ready more ending := by
  unfold toNext at h
  split_ifs at h
  · obtain ⟨rfl, rfl⟩ := h
    exact .full
  · exact h

theorem Instructed.routine (h : Instructed maxOps now s a) (hi : s.interval = some interval)
    (hrest : Rest interval more ending (some a)) :
    Routine interval .ready
      (.read now :: .serve now (some false) :: .step s.cpu.step.error.isNone :: more) ending := by
  -- a run with an interval that goes on waits first
  cases h with
  | failed he =>
    obtain ⟨rfl, rfl⟩ := hrest
    rw [he]
    exact .fail now nofun
  | halted he hb =>
    obtain ⟨rfl, rfl⟩ := hrest
    rw [he]
    exact .fail now nofun
  | next he hnone => cases hi.symm.trans hnone
  | wait he hsome =>
    obtain rfl := Option.some.inj (hi.symm.trans hsome)
    rw [he]
    exact .step now hrest

theorem Turned.routine (h : Turned maxOps now s phase calls b) (hi : s.interval = some interval)
    (hrest : Rest interval more ending b) : Routine interval phase (calls ++ more) ending := by
  cases h with
  | start => exact .start now (toNext_rest hrest)
  | quit hs =>
    obtain ⟨rfl, rfl⟩ := hrest
    exact .quit now
  | stick hs =>
    obtain ⟨rfl, rfl⟩ := hrest
    exact .stick now
  | @step t hs =>
    -- the service before the step has left the interval as it was
    have hinterval := interval_moves (service_moves hs)
    exact (instructed t maxOps now).routine (hinterval.trans hi) hrest
  | wait hlt hs => exact .wait hlt hrest
  | leave hlt hs =>
    obtain ⟨rfl, rfl⟩ := hrest
    exact .leave hlt
  | stay hlt hs =>
    obtain ⟨rfl, rfl⟩ := hrest
    exact .stay hlt
  | resume hle => exact .resume hle (toNext_rest hrest)

/-! ### Whole runs -/

theorem routine_runFrom (hi : s.interval = some interval) (phase : Phase) (readings : Readings) :
    Routine interval phase (s.callsFrom maxOps phase readings)
      ((s.runFrom maxOps phase readings).map (·.ending)) := by
  induction readings generalizing s phase with
  | ended fault => exact .lost phase fault
  | failed fault rest => exact .lost phase fault
  | next now rest ih =>
    have hturn := s.turned maxOps phase now
    rw [callsFrom, runFrom]
    rcases hf : s.feed maxOps phase now with _ | ⟨phase', t⟩ | ⟨ending, t⟩ <;> rw [hf] at hturn
    · exact hturn.routine hi ⟨rfl, rfl⟩
    -- the interval stays as it is, so the rest of the run has a routine by induction
    · have hinterval := interval_moves (feed_moves hf)
      exact hturn.routine hi (ih () (hinterval.trans hi) phase')
    · exact hturn.routine hi ⟨rfl, rfl⟩

/-- The readings that a run takes are the first ones of its clock. -/
theorem times_callsFrom (s : Session ρ) (maxOps : Option Int) (phase : Phase)
    (readings : Readings) :
    (s.callsFrom maxOps phase readings).filterMap HostCall.time? <+: readings.times := by
  induction readings generalizing s phase with
  | ended fault => exact List.nil_prefix
  | failed fault rest => exact List.nil_prefix
  | next now rest ih =>
    rw [callsFrom, Readings.times, List.filterMap_append, (s.turned maxOps phase now).times]
    refine List.cons_prefix_cons.mpr ⟨rfl, ?_⟩
    rcases s.feed maxOps phase now with _ | ⟨phase', t⟩ | ⟨ending, t⟩
    · exact List.nil_prefix
    · exact ih () t phase'
    · exact List.nil_prefix

/-- The calls of a run that is in its loop, or whose first reading leads there, and a last picture,
if the run comes to an end, are all that it does. -/
theorem makes_callsFrom (s : Session ρ) (maxOps : Option Int) (phase : Phase)
    (readings : Readings) (h : phase ≠ .opening ∨ ∃ now rest, readings = .next now rest) :
    ∃ t, Makes s (s.callsFrom maxOps phase readings) t ∧
      ∀ f, s.runFrom maxOps phase readings = some f → f.session = t.refresh false := by
  have hlost {s : Session ρ} {phase : Phase} (hp : phase ≠ .opening) :
      s.loseClock phase = s.refresh false := if_neg hp
  induction readings generalizing s phase with
  | ended fault =>
    refine ⟨s, .done s, fun f hf => ?_⟩
    rw [← Option.some.inj hf, hlost (h.resolve_right nofun)]
  | failed fault rest =>
    refine ⟨s, .done s, fun f hf => ?_⟩
    rw [← Option.some.inj hf, hlost (h.resolve_right nofun)]
  | next now rest ih =>
    have hturn := s.turned maxOps phase now
    rw [callsFrom, runFrom]
    rcases hf : s.feed maxOps phase now with _ | ⟨phase', t⟩ | ⟨ending, t⟩
    -- a service that never ends is the last call, and there is no answer
    · rw [List.append_nil]
      exact ⟨_, hturn.makes_of_stuck hf, fun f hnone => absurd hnone.symm (Option.some_ne_none f)⟩
    · obtain ⟨u, hu, hlast⟩ := ih () t phase' (Or.inl (feed_inLoop hf))
      exact ⟨u, hturn.makes hf hu, hlast⟩
    · refine ⟨t, hturn.makes hf (.done t), fun f hsome => ?_⟩
      rw [← Option.some.inj hsome]

/-- How a run with an interval between instructions keeps to it, by its calls and its end, if it
comes to an end. -/
structure Paced (interval : Seconds) (readings : Readings) (calls : List HostCall)
    (ending : Option Ending) : Prop where
  /-- The readings that it takes are the first ones of its clock. -/
  taken : calls.filterMap HostCall.time? <+: readings.times
  /-- Every instruction has a reading at which it was carried out. -/
  topped : (tops calls).length = calls.countP HostCall.isStep
  /-- As long as the readings taken do not go back, those of two instructions in a row are an
  interval apart. -/
  spaced : (calls.filterMap HostCall.time?).Pairwise (· ≤ ·) →
    (tops calls).IsChain fun r r' => r + interval ≤ r'
  /-- A reading in the loop is served before anything else is done, unless it ends the wait after
  the instruction at `r`. -/
  served : ∀ before w after, calls = before ++ .read w :: after →
    (∃ quit rest, after = .serve w quit :: rest) ∨
      ∃ r, (tops before).getLast? = some r ∧ r + interval ≤ w
  /-- A run that stops although nobody wants to quit stops at a reading that ends the wait after
  its last instruction. -/
  stopped : ending = some .stopped → (∀ now, .serve now (some true) ∉ calls) →
    ∀ r, (tops calls).getLast? = some r →
      ∃ w, calls.getLast? = some (.read w) ∧ r + interval ≤ w

omit [ByteSource ρ] in
theorem deadline?_opening (interval : Seconds) (calls : List HostCall) :
    deadline? interval .opening calls = (tops calls).getLast?.map (· + interval) := by
  unfold deadline?
  cases (tops calls).getLast? with
  | none => rfl
  | some r => rfl

/-- **The clock speed is never exceeded.**  Take any session with an interval between instructions,
and run it, with any program, user and clock.  What the run calls on accounts for all that it does
but for the last picture (`Makes`).  Two instructions in a row are carried out at readings that are
an interval apart, and a run that stops without a wish to quit has waited for the end of the last
interval.  All readings before that are served at once, so no interval is so long that it holds up
the timers, the picture or the keys (`Paced`).  The run need not come to an end for this. -/
theorem run_paced (hi : s.interval = some interval) (maxOps : Option Int) (readings : Readings) :
    Paced interval readings (s.callsOf maxOps readings)
        ((s.run maxOps readings).map (·.ending)) ∧
      ∀ now rest, readings = .next now rest →
        ∃ t, Makes s (s.callsOf maxOps readings) t ∧
          ∀ f, s.run maxOps readings = some f → f.session = t.refresh false := by
  have hroutine : Routine interval .opening (s.callsOf maxOps readings)
      ((s.run maxOps readings).map (·.ending)) := routine_runFrom hi .opening readings
  refine ⟨⟨s.times_callsFrom maxOps .opening readings, hroutine.topped,
    fun hclock => (hroutine.spaced hclock).1, ?_, ?_⟩, ?_⟩
  · intro before w after hs
    refine (hroutine.served hs).imp_right fun ⟨deadline, hd, hle⟩ => ?_
    rw [deadline?_opening] at hd
    obtain ⟨r, hr, rfl⟩ := Option.map_eq_some_iff.mp hd
    exact ⟨r, hr, hle⟩
  · intro hstop hquit r hr
    rw [hstop] at hroutine
    refine hroutine.stopped hquit ?_
    rw [deadline?_opening, hr]
    rfl
  · intro now rest hfirst
    exact s.makes_callsFrom maxOps .opening readings (Or.inr ⟨now, rest, hfirst⟩)

/-! ### A given run -/

theorem callsFrom_of_more {next : Phase} (h : s.feed maxOps phase now = some (.more next t))
    (rest : Unit → Readings) :
    s.callsFrom maxOps phase (.next now rest) =
      s.callsAt phase now ++ t.callsFrom maxOps next (rest ()) := by
  rw [callsFrom, h]

theorem callsFrom_of_over {e : Ending} (h : s.feed maxOps phase now = some (.over e t))
    (rest : Unit → Readings) :
    s.callsFrom maxOps phase (.next now rest) = s.callsAt phase now := by
  rw [callsFrom, h]
  exact List.append_nil _

theorem Serves.callsAt_ready {n : Nat} (h : s.Serves now n) :
    s.callsAt .ready now = [.read now, .serve now (some false),
      .step (s.served now n).cpu.step.error.isNone] := by
  rw [callsAt]
  simp only [h.service]

theorem Serves.callsAt_waiting {n : Nat} (h : s.Serves now n) {deadline : Seconds}
    (hlt : now < deadline) :
    s.callsAt (.waiting deadline) now = [.read now, .serve now (some false)] := by
  rw [callsAt, if_pos hlt, h.service]
  rfl

theorem callsAt_resuming {deadline : Seconds} (hle : ¬ now < deadline) :
    s.callsAt (.waiting deadline) now = [.read now] := if_neg hle

/-- Two milliseconds, the interval of five hundred instructions a second. -/
def twoMillis : Seconds := ⟨0x3f60624dd2f1a9fc⟩

/-- A session with an empty memory and that interval between instructions. -/
def slow : Session CyclicBytes where
  cpu := Cpu.create (.powerOn .wrap) (.ofList []) false
  renderer := .headless none
  input := ⟨⟨[]⟩, [], 0⟩
  interval := some twoMillis
  ops := 0
  nextTick := .zero
  nextDisplay := .zero
  nextReport := .zero
  framesSince := 0
  opsSince := 0
  journal := []

/-- A clock that reads zero twice, and then 1, 2, 2.5 and 5 milliseconds. -/
def slowReadings : Readings :=
  .next .zero fun _ => .next .zero fun _ => .next (.ofNanos 1000000) fun _ =>
    .next (.ofNanos 2000000) fun _ => .next (.ofNanos 2500000) fun _ =>
      .next (.ofNanos 5000000) fun _ => .ended (.usedUp 6)

/-- The session after its first instruction. -/
def slowAfterOne : Session CyclicBytes := (slow.opened .zero).turn .zero 1

/-- The session after a reading that is served while it waits, and one that ends the wait. -/
def slowAfterWait : Session CyclicBytes :=
  (slowAfterOne.served (.ofNanos 1000000) 0).note (.reading (.ofNanos 2000000))

/-- A run of two instructions serves the reading before the first deadline, carries out the second
instruction after it, and stops at the reading that ends the second wait. -/
theorem run_paced_two_instructions :
    Seconds.instructionInterval? 500 = slow.interval ∧
      slow.callsOf (some 2) slowReadings =
        [.start .zero, .read .zero, .serve .zero (some false), .step true,
          .read (.ofNanos 1000000), .serve (.ofNanos 1000000) (some false),
          .read (.ofNanos 2000000),
          .read (.ofNanos 2500000), .serve (.ofNanos 2500000) (some false), .step true,
          .read (.ofNanos 5000000)] ∧
      Paced twoMillis slowReadings (slow.callsOf (some 2) slowReadings) (some .stopped) ∧
      .zero + twoMillis ≤ Seconds.ofNanos 2500000 := by
  obtain ⟨hone, hdone, hwait, htwo, hdone', hkept, hroom, hfull⟩ :
      (slow.opened .zero).Serves .zero 1 ∧
      ((slow.opened .zero).served .zero 1).cpu.step.error = none ∧
      slowAfterOne.Serves (.ofNanos 1000000) 0 ∧
      slowAfterWait.Serves (.ofNanos 2500000) 0 ∧
      (slowAfterWait.served (.ofNanos 2500000) 0).cpu.step.error = none ∧
      (slowAfterWait.served (.ofNanos 2500000) 0).interval = some twoMillis ∧
      (slowAfterOne.served (.ofNanos 1000000) 0).limitReached (some 2) = false ∧
      (slowAfterWait.turn (.ofNanos 2500000) 0).limitReached (some 2) = true := by
    decide +kernel
  obtain ⟨hlt, hdue, hdue', hclock, hspeed⟩ : Seconds.ofNanos 1000000 < .zero + twoMillis ∧
      ¬ Seconds.ofNanos 2000000 < .zero + twoMillis ∧
      ¬ Seconds.ofNanos 5000000 < .ofNanos 2500000 + twoMillis ∧
      [Seconds.zero, .zero, .ofNanos 1000000, .ofNanos 2000000, .ofNanos 2500000,
        .ofNanos 5000000].Pairwise (· ≤ ·) ∧
      Seconds.instructionInterval? 500 = some twoMillis := by
    decide +kernel
  -- where the readings lead, one after another
  have hopening : slow.feed (some 2) .opening .zero = some (.more .ready (slow.opened .zero)) :=
    feed_opening rfl
  have hready : (slow.opened .zero).feed (some 2) .ready .zero =
      some (.more (.waiting (.zero + twoMillis)) slowAfterOne) := hone.feed_waits hdone rfl
  have hwaiting : slowAfterOne.feed (some 2) (.waiting (.zero + twoMillis)) (.ofNanos 1000000) =
      some (.more (.waiting (.zero + twoMillis)) (slowAfterOne.served (.ofNanos 1000000) 0)) :=
    hwait.feed_waiting hlt
  have hresuming : (slowAfterOne.served (.ofNanos 1000000) 0).feed (some 2)
      (.waiting (.zero + twoMillis)) (.ofNanos 2000000) = some (.more .ready slowAfterWait) := by
    rw [feed_resuming hdue, hroom, if_neg Bool.false_ne_true, slowAfterWait]
  have hready' : slowAfterWait.feed (some 2) .ready (.ofNanos 2500000) =
      some (.more (.waiting (.ofNanos 2500000 + twoMillis))
        (slowAfterWait.turn (.ofNanos 2500000) 0)) := htwo.feed_waits hdone' hkept
  have hresuming' : (slowAfterWait.turn (.ofNanos 2500000) 0).feed (some 2)
      (.waiting (.ofNanos 2500000 + twoMillis)) (.ofNanos 5000000) =
      some (.over .stopped
        ((slowAfterWait.turn (.ofNanos 2500000) 0).note (.reading (.ofNanos 5000000)))) := by
    rw [feed_resuming hdue', if_pos hfull]
  have hcalls : slow.callsOf (some 2) slowReadings =
        [.start .zero, .read .zero, .serve .zero (some false), .step true,
          .read (.ofNanos 1000000), .serve (.ofNanos 1000000) (some false),
          .read (.ofNanos 2000000),
          .read (.ofNanos 2500000), .serve (.ofNanos 2500000) (some false), .step true,
          .read (.ofNanos 5000000)] := by
    rw [callsOf, slowReadings, callsFrom_of_more hopening, callsFrom_of_more hready,
      callsFrom_of_more hwaiting, callsFrom_of_more hresuming, callsFrom_of_more hready',
      callsFrom_of_over hresuming', hone.callsAt_ready, hwait.callsAt_waiting hlt,
      callsAt_resuming hdue, htwo.callsAt_ready, callsAt_resuming hdue', hdone, hdone']
    rfl
  have hend : (slow.run (some 2) slowReadings).map (·.ending) = some .stopped := by
    rw [run, slowReadings, runFrom_of_more hopening, runFrom_of_more hready,
      runFrom_of_more hwaiting, runFrom_of_more hresuming, runFrom_of_more hready',
      runFrom_of_over hresuming']
    rfl
  obtain ⟨hpaced, -⟩ := run_paced (s := slow) rfl (some 2) slowReadings
  rw [hend] at hpaced
  refine ⟨hspeed, hcalls, hpaced, ?_⟩
  have hspaced := hpaced.spaced
  rw [hcalls] at hspaced
  exact (List.isChain_cons_cons.mp (hspaced hclock)).1

end Session

end Chip8
