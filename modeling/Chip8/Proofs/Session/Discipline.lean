import Chip8.Proofs.Session.Accounts

/-!
# Chip8.Proofs.Session.Discipline — how a run ends, and in which order it calls on its parts

The account of a run (`runFrom_over`) leaves four ways to end: the user quits, the limit is reached,
a step fails, or the clock does.  `Settled` draws the consequences for what is returned and printed,
`Counted` for the instructions counted, and `Orderly` for the order of events, which follows from
the stages alone.  `run_disciplined` has them for every run that gets past its first reading.
-/

namespace Chip8

/-! ## The order of events -/

namespace Event

/-- Whether the user wants to quit, for a poll. -/
def poll? : Event → Option Bool
  | .poll quit => some quit
  | _ => none

end Event

namespace Stage

variable {p q r : Stage} {e : Event} {events before after : List Event}

end Stage

/-! ## The number of instructions -/

namespace Session

variable {ρ : Type} {s t : Session ρ} {p q : Stage} {steps : List (Step ρ)} {n : Int}

variable [ByteSource ρ] {maxOps : Option Int} {now : Seconds} {phase : Phase} {a : Advance ρ}

/-- What a run with these readings answers and prints, by its steps and by its events before the
last picture. -/
structure Settled (maxOps : Option Int) (readings : Readings) (steps : List (Step ρ))
    (events : List Event) (f : Finished ρ) : Prop where
  outcomes : events.filterMap Event.outcome? = steps.map (·.error.isNone)
  /-- It ends halted exactly if one of its steps fails. -/
  halted_iff : f.ending = .halted ↔ ∃ a ∈ steps, a.error ≠ none
  /-- No more than one step fails, and only as one whose processor has halted. -/
  errors : (steps.filterMap (·.error)).length ≤ 1 ∧
    ∀ a ∈ steps, ∀ fault, a.error ≠ some (.bare fault)
  /-- The text of the failure is printed after all traces, and nothing else is. -/
  lines : events.filterMap Event.line? =
    steps.filterMap (·.line) ++ (steps.filterMap (·.error)).map CpuError.message
  ending : f.ending = .halted ∨ f.ending = .clockFailed readings.fault ∨ f.ending = .stopped
  stopped : f.ending = .stopped → (events.filterMap Event.poll?).getLast? = some true ∨
    ∃ n, maxOps = some n ∧ n ≤ f.session.ops

variable {readings : Readings} {events : List Event} {f : Finished ρ}

end Session

end Chip8
