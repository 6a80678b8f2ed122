import Chip8.Clock
import Chip8.Session.Basic

/-!
# Chip8.Session.Run — running a program

A run is driven by clock readings.  The first sets the time of the first step of the timers.  After
it the run alternates between carrying out an instruction, at a reading at which everything due is
done first, and waiting for the next instruction to fall due, during which everything due is done at
each reading.  A run ends when the user quits, when the number of instructions is reached, when the
processor halts, or when the clock fails; a last picture is shown at the end unless the clock fails
at the very start.  A run in which a service never comes to an end has no end either, and no answer.
-/

namespace Chip8

/-- What the next clock reading is for. -/
inductive Phase where
  | opening
  | ready
  | waiting (deadline : Seconds)
  deriving DecidableEq

/-- How a run ends. -/
inductive Ending where
  /-- The user quit, or the number of instructions was reached. -/
  | stopped
  /-- The processor halted, or had halted. -/
  | halted
  /-- A fault that does not halt the processor. -/
  | failed (fault : Fault)
  | clockFailed (fault : ClockFault)
  deriving DecidableEq

/-- Where a clock reading leads. -/
inductive Advance (ρ : Type) where
  | more (phase : Phase) (session : Session ρ)
  | over (ending : Ending) (session : Session ρ)

/-- A finished run, and the clock readings that it left. -/
structure Finished (ρ : Type) where
  session : Session ρ
  ending : Ending
  readings : Readings

namespace Session

variable {ρ : Type}

/-- Whether the session has carried out as many instructions as it may. -/
def limitReached (s : Session ρ) (maxOps : Option Int) : Bool :=
  match maxOps with
  | none => false
  | some n => n ≤ s.ops

/-- On to the next instruction, if there may be one. -/
def toNext (s : Session ρ) (maxOps : Option Int) : Advance ρ :=
  if s.limitReached maxOps then .over .stopped s else .more .ready s

variable [ByteSource ρ]

/-- Steps the processor, and prints what the step traced. -/
def stepCpu (s : Session ρ) : Session ρ × Option CpuError :=
  let r := s.cpu.step
  let s :=
    match r.line with
    | none => s
    | some line => s.note (.line line)
  ({ s.note (.step r.error.isNone) with cpu := r.cpu }, r.error)

/-- Counts an instruction. -/
def count (s : Session ρ) : Session ρ :=
  { s with ops := s.ops + 1, opsSince := s.opsSince + 1 }

/-- Carries out an instruction at `now`. -/
def instruct (s : Session ρ) (maxOps : Option Int) (now : Seconds) : Advance ρ :=
  match s.stepCpu with
  | (s, some (.bare fault)) => .over (.failed fault) s
  | (s, some e) => .over .halted (s.note (.line e.message))
  | (s, none) =>
    match s.interval with
    | none => s.count.toNext maxOps
    | some interval => .more (.waiting (now + interval)) s.count

/-- Goes on by one clock reading. -/
def feed (s : Session ρ) (maxOps : Option Int) (phase : Phase) (now : Seconds) :
    Option (Advance ρ) :=
  let s := s.note (.reading now)
  match phase with
  | .opening => some ({ s with nextTick := now }.toNext maxOps)
  | .ready =>
    match s.service now with
    | none => none
    | some (s, true) => some (.over .stopped s)
    | some (s, false) => some (s.instruct maxOps now)
  | .waiting deadline =>
    if now < deadline then
      match s.service now with
      | none => none
      | some (s, true) => some (.over .stopped s)
      | some (s, false) => some (.more phase s)
    else some (s.toNext maxOps)

/-- The end of a run whose clock fails in a phase. -/
def loseClock (s : Session ρ) (phase : Phase) : Session ρ :=
  if phase = .opening then s else s.refresh false

/-- Runs on from a phase, until the run is over or a reading fails. -/
def runFrom (s : Session ρ) (maxOps : Option Int) (phase : Phase) :
    Readings → Option (Finished ρ)
  | .ended fault => some ⟨s.loseClock phase, .clockFailed fault, .ended fault⟩
  | .failed fault rest => some ⟨s.loseClock phase, .clockFailed fault, rest ()⟩
  | .next now rest =>
    match s.feed maxOps phase now with
    | none => none
    | some (.more phase s) => runFrom s maxOps phase (rest ())
    | some (.over ending s) => some ⟨s.refresh false, ending, rest ()⟩

/-- Runs the program, with at most `maxOps` instructions in the session's life. -/
def run (s : Session ρ) (maxOps : Option Int) (readings : Readings) : Option (Finished ρ) :=
  s.runFrom maxOps .opening readings

end Session

end Chip8
