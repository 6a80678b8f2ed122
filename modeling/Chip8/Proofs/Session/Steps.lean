import Chip8.Proofs.Session.Moves

/-!
# Chip8.Proofs.Session.Steps — the steps that a run makes

A run hands over the session it ends with, not the steps of the processor that it made on the way.
`stepsFrom` runs along with `runFrom` and collects them; `stepsOver` does so over a history of
commands.  The ways in which one reading can take a run on, and a step can end, are listed once, in
`Fed` and `Instructed`; what is proved about runs goes by these cases.

Whether a service comes to an end is not found out by computing it.  For a given session it is found
out by counting the steps of the timers that are overdue (`Serves`), which is a matter of deciding.
-/

namespace Chip8

/-- A clock that stands still for two readings and then fails. -/
def Readings.stillAt (now : Seconds) : Readings :=
  .next now fun _ => .next now fun _ => .ended (.usedUp 2)

namespace Session

variable {ρ : Type}

/-! ## One reading -/

variable [ByteSource ρ]

/-- How carrying out an instruction at `now` goes, and where it leads. -/
inductive Instructed (maxOps : Option Int) (now : Seconds) (s : Session ρ) : Advance ρ → Prop where
  | failed {fault : Fault} (he : s.cpu.step.error = some (.bare fault)) :
      Instructed maxOps now s (.over (.failed fault) s.stepCpu.1)
  | halted {e : CpuError} (he : s.cpu.step.error = some e) (hb : ∀ fault, e ≠ .bare fault) :
      Instructed maxOps now s (.over .halted (s.stepCpu.1.note (.line e.message)))
  | next (he : s.cpu.step.error = none) (hi : s.interval = none) :
      Instructed maxOps now s (s.stepCpu.1.count.toNext maxOps)
  | wait {interval : Seconds} (he : s.cpu.step.error = none) (hi : s.interval = some interval) :
      Instructed maxOps now s (.more (.waiting (now + interval)) s.stepCpu.1.count)

/-- A step changes the processor and the journal, where it is noted after its trace. -/
theorem stepCpu_eq (s : Session ρ) :
    s.stepCpu =
      ({ s with
          cpu := s.cpu.step.cpu
          journal := .step s.cpu.step.error.isNone ::
            ((s.cpu.step.line.map Event.line).toList ++ s.journal) }, s.cpu.step.error) := by
  unfold stepCpu
  simp only
  cases s.cpu.step.line with
  | none => rfl
  | some line => rfl

theorem instructed (s : Session ρ) (maxOps : Option Int) (now : Seconds) :
    Instructed maxOps now s (s.instruct maxOps now) := by
  have hinterval : s.stepCpu.1.interval = s.interval := by rw [stepCpu_eq]
  have herror : s.stepCpu.2 = s.cpu.step.error := by rw [stepCpu_eq]
  have hfailed := @Instructed.failed _ _ maxOps now s
  have hhalted := @Instructed.halted _ _ maxOps now s
  have hnext := @Instructed.next _ _ maxOps now s
  have hwait := @Instructed.wait _ _ maxOps now s
  unfold instruct
  rcases hs : s.stepCpu with ⟨t, _ | e⟩
  · rw [hs] at herror hinterval hnext hwait
    simp only
    rw [hinterval]
    cases hi : s.interval with
    | none => exact hnext herror.symm hi
    | some interval => exact hwait herror.symm hi
  · rw [hs] at herror hfailed hhalted
    cases e with
    | bare fault => exact hfailed herror.symm
    | halted halt => exact hhalted herror.symm nofun
    | refused halt => exact hhalted herror.symm nofun

/-- The step that a reading makes a run take. -/
def stepsAt (s : Session ρ) (phase : Phase) (now : Seconds) : List (Step ρ) :=
  match phase with
  | .ready =>
    match (s.note (.reading now)).service now with
    | none => []
    | some (_, true) => []
    | some (s, false) => [s.cpu.step]
  | _ => []

/-- How a reading that has been noted takes a run on from a phase, if it does: with which steps, and
where it leads. -/
inductive Fed (maxOps : Option Int) (now : Seconds) (s : Session ρ) :
    Phase → List (Step ρ) → Advance ρ → Prop where
  | opened : Fed maxOps now s .opening [] ({ s with nextTick := now }.toNext maxOps)
  | quit {phase : Phase} {t : Session ρ} (hp : phase ≠ .opening)
      (hs : s.service now = some (t, true)) : Fed maxOps now s phase [] (.over .stopped t)
  | stepped {t : Session ρ} (hs : s.service now = some (t, false)) :
      Fed maxOps now s .ready [t.cpu.step] (t.instruct maxOps now)
  | waited {deadline : Seconds} {t : Session ρ} (hlt : now < deadline)
      (hs : s.service now = some (t, false)) :
      Fed maxOps now s (.waiting deadline) [] (.more (.waiting deadline) t)
  | resumed {deadline : Seconds} (hle : ¬ now < deadline) :
      Fed maxOps now s (.waiting deadline) [] (s.toNext maxOps)

variable {s t : Session ρ} {maxOps : Option Int} {phase : Phase} {now : Seconds} {a : Advance ρ}

theorem fed (h : s.feed maxOps phase now = some a) :
    Fed maxOps now (s.note (.reading now)) phase (s.stepsAt phase now) a := by
  unfold feed at h
  unfold stepsAt
  generalize s.note (.reading now) = s at h ⊢
  cases phase with
  | opening =>
    cases h
    exact .opened
  | ready =>
    simp only at h ⊢
    rcases hs : s.service now with _ | ⟨t, _ | _⟩ <;> rw [hs] at h <;> cases h
    · exact .stepped hs
    · exact .quit Phase.noConfusion hs
  | waiting deadline =>
    simp only at h ⊢
    split_ifs at h with hlt
    · rcases hs : s.service now with _ | ⟨t, _ | _⟩ <;> rw [hs] at h <;> cases h
      · exact .waited hlt hs
      · exact .quit Phase.noConfusion hs
    · cases h
      exact .resumed hlt

/-- A reading at which the service never ends makes a run take no step. -/
theorem stepsAt_of_stuck (h : s.feed maxOps phase now = none) : s.stepsAt phase now = [] := by
  unfold feed at h
  unfold stepsAt
  cases phase with
  | ready =>
    simp only at h ⊢
    rcases hs : (s.note (.reading now)).service now with _ | ⟨t, _ | _⟩
    · rfl
    · rw [hs] at h
      cases h
    · rfl
  | opening => rfl
  | waiting deadline => rfl

/-! ## Runs and histories -/

/-- The steps that `runFrom` makes, in order. -/
def stepsFrom (s : Session ρ) (maxOps : Option Int) (phase : Phase) : Readings → List (Step ρ)
  | .ended _ | .failed _ _ => []
  | .next now rest =>
    s.stepsAt phase now ++
      match s.feed maxOps phase now with
      | none => []
      | some (.more phase s) => stepsFrom s maxOps phase (rest ())
      | some (.over _ _) => []

/-- The steps that a command makes, in order. -/
def stepsOf (s : Session ρ) : Command → List (Step ρ)
  | .act .step => [s.cpu.step]
  | .run maxOps readings => s.stepsFrom maxOps .opening readings
  | _ => []

/-- The steps that a history of commands makes, in order.  A command that never ends makes its steps
and is the last. -/
def stepsOver (s : Session ρ) : List Command → List (Step ρ)
  | [] => []
  | command :: commands =>
    s.stepsOf command ++
      match s.obey command with
      | none => []
      | some t => t.stepsOver commands

theorem stepsOver_cons {command : Command} (h : s.obey command = some t) (commands : List Command) :
    s.stepsOver (command :: commands) = s.stepsOf command ++ t.stepsOver commands := by
  rw [stepsOver, h]

theorem stepsOver_singleton (s : Session ρ) (command : Command) :
    s.stepsOver [command] = s.stepsOf command := by
  rw [stepsOver]
  cases s.obey command with
  | none => exact List.append_nil _
  | some t => exact List.append_nil _

/-! ## Given sessions -/

/-- The session after the first reading of a run. -/
def opened (s : Session ρ) (now : Seconds) : Session ρ :=
  { s.note (.reading now) with nextTick := now }

/-- When a reading is served, the user does not quit, and `n` steps of the timers are overdue. -/
def Serves (s : Session ρ) (now : Seconds) (n : Nat) : Prop :=
  ((s.note (.reading now)).attend now).2 = false ∧
    Overdue ((s.note (.reading now)).attend now).1.nextTick now n

omit [ByteSource ρ] in
instance (s : Session ρ) (now : Seconds) (n : Nat) : Decidable (s.Serves now n) :=
  inferInstanceAs (Decidable (_ ∧ _))

/-- The session after a reading that has been served with `n` steps of the timers. -/
def served (s : Session ρ) (now : Seconds) (n : Nat) : Session ρ :=
  tick^[n] ((s.note (.reading now)).attend now).1

/-- The session after that and an instruction that succeeds. -/
def turn (s : Session ρ) (now : Seconds) (n : Nat) : Session ρ := (s.served now n).stepCpu.1.count

variable {n : Nat}

omit [ByteSource ρ] in
theorem Serves.service (h : s.Serves now n) :
    (s.note (.reading now)).service now = some (s.served now n, false) :=
  service_of_overdue h.1 h.2

theorem runFrom_of_more {next : Phase} (h : s.feed maxOps phase now = some (.more next t))
    (rest : Unit → Readings) :
    s.runFrom maxOps phase (.next now rest) = t.runFrom maxOps next (rest ()) := by
  rw [runFrom, h]

theorem runFrom_of_over {ending : Ending} (h : s.feed maxOps phase now = some (.over ending t))
    (rest : Unit → Readings) :
    s.runFrom maxOps phase (.next now rest) = some ⟨t.refresh false, ending, rest ()⟩ := by
  rw [runFrom, h]

/-- The first reading makes an instruction ready. -/
theorem feed_opening (hl : s.limitReached maxOps = false) :
    s.feed maxOps .opening now = some (.more .ready (s.opened now)) := by
  have hl' : (s.opened now).limitReached maxOps = false := hl
  show some ((s.opened now).toNext maxOps) = _
  rw [toNext, if_neg (Bool.eq_false_iff.mp hl')]

theorem Serves.stepsAt (h : s.Serves now n) :
    s.stepsAt .ready now = [(s.served now n).cpu.step] := by
  rw [Session.stepsAt]
  simp only [h.service]

theorem Serves.feed_ready (h : s.Serves now n) :
    s.feed maxOps .ready now = some ((s.served now n).instruct maxOps now) := by
  rw [feed]
  simp only [h.service]

theorem Serves.feed_waiting (h : s.Serves now n) {deadline : Seconds} (hlt : now < deadline) :
    s.feed maxOps (.waiting deadline) now =
      some (.more (.waiting deadline) (s.served now n)) := by
  rw [feed]
  simp only [if_pos hlt, h.service]

theorem feed_resuming {deadline : Seconds} (hle : ¬ now < deadline) :
    s.feed maxOps (.waiting deadline) now =
      some (if s.limitReached maxOps then .over .stopped (s.note (.reading now))
        else .more .ready (s.note (.reading now))) := by
  rw [feed]
  simp only [if_neg hle]
  rfl

/-- Where a step that succeeds leads. -/
theorem instruct_of_done (he : s.cpu.step.error = none) :
    s.instruct maxOps now =
      match s.interval with
      | none => s.stepCpu.1.count.toNext maxOps
      | some interval => .more (.waiting (now + interval)) s.stepCpu.1.count := by
  have hinstructed := s.instructed maxOps now
  generalize s.instruct maxOps now = a at hinstructed ⊢
  cases hinstructed with
  | failed hf => cases he.symm.trans hf
  | halted hf hb => cases he.symm.trans hf
  | next _ hi => rw [hi]
  | wait _ hi => rw [hi]

/-- A run by a clock that stands still makes one step, if its second reading can be served. -/
theorem stepsFrom_stillAt (maxOps : Option Int) (hl : s.limitReached maxOps = false)
    (h : (s.opened now).Serves now n) :
    s.stepsFrom maxOps .opening (.stillAt now) = [((s.opened now).served now n).cpu.step] := by
  rw [Readings.stillAt, stepsFrom, feed_opening hl]
  simp only [stepsFrom, h.stepsAt]
  rcases (s.opened now).feed maxOps .ready now with _ | ⟨phase, t⟩ | ⟨ending, t⟩
  · rfl
  · rfl
  · rfl

/-- When a reading is served with `n` steps of the timers, an instruction succeeds, and the session
waits an interval for the next. -/
theorem Serves.feed_waits (h : s.Serves now n) {interval : Seconds}
    (he : (s.served now n).cpu.step.error = none)
    (hi : (s.served now n).interval = some interval) :
    s.feed maxOps .ready now = some (.more (.waiting (now + interval)) (s.turn now n)) := by
  rw [h.feed_ready, instruct_of_done he, hi]
  rfl

/-- A step that fails ends the run, which then has an answer. -/
theorem instruct_of_failing (maxOps : Option Int) (now : Seconds)
    (he : s.cpu.step.error ≠ none) :
    ∃ ending t, s.instruct maxOps now = .over ending t := by
  have hinstructed := s.instructed maxOps now
  generalize s.instruct maxOps now = a at hinstructed
  cases hinstructed with
  | failed hf => exact ⟨_, _, rfl⟩
  | halted hf hb => exact ⟨_, _, rfl⟩
  | next hdone hi => exact absurd hdone he
  | wait hdone hi => exact absurd hdone he

/-- When a reading is served with `n` steps of the timers, an instruction succeeds, and the session
does not wait for the next. -/
def Turns (s : Session ρ) (now : Seconds) (n : Nat) : Prop :=
  s.Serves now n ∧ (s.served now n).cpu.step.error = none ∧ (s.served now n).interval = none

instance (s : Session ρ) (now : Seconds) (n : Nat) : Decidable (s.Turns now n) :=
  inferInstanceAs (Decidable (_ ∧ _))

/-- Then the run is over if it may make no more instructions, and goes on to the next if it may. -/
theorem Turns.runFrom (h : s.Turns now n) (maxOps : Option Int) (rest : Unit → Readings) :
    s.runFrom maxOps .ready (.next now rest) =
      if (s.turn now n).limitReached maxOps then
        some ⟨(s.turn now n).refresh false, .stopped, rest ()⟩
      else (s.turn now n).runFrom maxOps .ready (rest ()) := by
  obtain ⟨hserves, he, hi⟩ := h
  have hfeed : s.feed maxOps .ready now = some ((s.turn now n).toNext maxOps) := by
    rw [hserves.feed_ready, instruct_of_done he, hi]
    rfl
  rw [toNext] at hfeed
  split_ifs at hfeed ⊢ with hl
  · exact runFrom_of_over hfeed rest
  · exact runFrom_of_more hfeed rest

theorem run_opening (hl : s.limitReached maxOps = false) (rest : Unit → Readings) :
    s.run maxOps (.next now rest) = (s.opened now).runFrom maxOps .ready (rest ()) := by
  rw [run, runFrom_of_more (feed_opening hl)]

end Session

end Chip8
