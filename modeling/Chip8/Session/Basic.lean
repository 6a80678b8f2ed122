import Chip8.Cpu
import Chip8.HostInput
import Chip8.Renderer
import Chip8.Seconds

/-!
# Chip8.Session.Basic — a processor in the hands of a host

A session joins a processor to inputs and a renderer, and does what is due at a given time: the
performance report once a second, inputs and picture at 60 Hz, and the steps of the timers at 60 Hz,
of which it makes up for all that were missed.

Everything a session does is noted in its journal, the newest event first.
-/

namespace Chip8

/-- What a session does. -/
inductive Event where
  /-- The clock was read. -/
  | reading (time : Seconds)
  | resolution (width height : Int)
  | title (text : String)
  /-- A report that was due: pictures and instructions since the one before. -/
  | report (frames ops : Nat)
  | poll (quit : Bool)
  /-- The picture of a screen went to the renderer; `due` tells those shown at 60 Hz from the
  others. -/
  | refresh (due : Bool) (screen : Screen 64 32)
  /-- The timers made a step. -/
  | tick
  | step (succeeded : Bool)
  | line (text : String)
  deriving DecidableEq

/-- Why a session cannot be set up. -/
inductive SessionFault where
  | speedTooLarge
  deriving DecidableEq

namespace SessionFault

/-- The wording of a refusal. -/
def message : SessionFault → String
  | speedTooLarge => "int too large to convert to float"

end SessionFault

/-- A session.  Without an interval, instructions follow each other as fast as the host can. -/
structure Session (ρ : Type) where
  cpu : Cpu ρ
  renderer : Renderer
  input : HostInput
  interval : Option Seconds
  /-- Instructions carried out. -/
  ops : Nat
  nextTick : Seconds
  nextDisplay : Seconds
  nextReport : Seconds
  /-- Pictures since the last report. -/
  framesSince : Nat
  /-- Instructions since the last report. -/
  opsSince : Nat
  journal : List Event

namespace Session

variable {ρ : Type}

/-- Adds an event to the journal. -/
def note (s : Session ρ) (e : Event) : Session ρ := { s with journal := e :: s.journal }

/-! ## The renderer -/

/-- Shows frames and instructions per second in the title. -/
def showPerformance (s : Session ρ) (frames ops : Int) : Session ρ :=
  let title := Platform.appName ++ " - " ++ Numeral.decimal frames ++ " FPS, " ++
    Numeral.decimal ops ++ " OPS"
  { s.note (.title title) with renderer := s.renderer.setTitle title }

/-- Sends the picture to the renderer, with whether it may have changed since the last time. -/
def refresh (s : Session ρ) (due : Bool) : Session ρ :=
  let machine := s.cpu.machine
  let screen := machine.screen
  { s.note (.refresh due screen) with
    renderer := s.renderer.refresh screen.bytes screen.changed
    cpu := { s.cpu with machine := { machine with screen := { screen with changed := false } } } }

/-! ## Setting up -/

/-- The interval between instructions: none for a speed that is not positive. -/
def intervalFor (speed : Int) : Except SessionFault (Option Seconds) :=
  if speed ≤ 0 then .ok none
  else
    match Seconds.instructionInterval? speed with
    | none => .error .speedTooLarge
    | some interval => .ok (some interval)

/-- A session at a speed in instructions per second. -/
def create (cpu : Cpu ρ) (renderer : Renderer) (input : HostInput) (speed : Option Int) :
    Except SessionFault (Session ρ) :=
  match intervalFor (speed.getD Platform.defaultClockSpeed) with
  | .error fault => .error fault
  | .ok interval =>
    let s : Session ρ :=
      { cpu, input, interval
        renderer := renderer.setResolution 64 32
        ops := 0
        nextTick := .zero
        nextDisplay := .zero
        nextReport := .zero
        framesSince := 0
        opsSince := 0
        journal := [.resolution 64 32] }
    .ok (s.showPerformance 0 0)

/-! ## What is due -/

/-- Reports the performance, if that is due, and starts counting anew. -/
def reportIfDue (s : Session ρ) (now : Seconds) : Session ρ :=
  if s.nextReport ≤ now then
    let s := { s with nextReport := now.nextReport }.note (.report s.framesSince s.opsSince)
    { s.showPerformance s.framesSince s.opsSince with framesSince := 0, opsSince := 0 }
  else s

/-- Asks the host for its events.  Answers whether the user wants to quit. -/
def poll (s : Session ρ) : Session ρ × Bool :=
  let machine := s.cpu.machine
  let r := s.input.poll machine.keypad
  ({ s.note (.poll r.2.2) with
      input := r.1
      cpu := { s.cpu with machine := { machine with keypad := r.2.1 } } }, r.2.2)

/-- Shows a picture that is due and sets the time of the next. -/
def display (s : Session ρ) (now : Seconds) : Session ρ :=
  let s := { s with nextDisplay := now + Seconds.displayInterval }.refresh true
  { s with framesSince := s.framesSince + 1 }

/-- One step of the timers. -/
def tick (s : Session ρ) : Session ρ :=
  { s.note .tick with nextTick := s.nextTick + Seconds.timerInterval, cpu := s.cpu.tick }

/-- What steps of the timers lead to from `s`, each of which has fallen due by `now`. -/
inductive Ticks (now : Seconds) (s : Session ρ) : Session ρ → Prop where
  | start : Ticks now s s
  | next {u : Session ρ} (h : Ticks now s u) (hdue : u.nextTick ≤ now) : Ticks now s u.tick

instance (now : Seconds) (s : Session ρ) : Nonempty (Subtype (Ticks now s)) := ⟨⟨s, .start⟩⟩

/-- Makes steps of the timers, from `u` on, as long as one has fallen due. -/
def tickOn (now : Seconds) (s : Session ρ) (u : Subtype (Ticks now s)) : Subtype (Ticks now s) :=
  repeatM (m := Id)
    (fun u =>
      if hdue : u.val.nextTick ≤ now then .inl ⟨u.val.tick, u.property.next hdue⟩ else .inr u)
    u

/-- The steps of the timers that have fallen due.  Far from zero a double may be so large that the
interval is lost when it is added; the steps then never come to an end.  There is no answer in that
case: wherever the steps lead, another one is due. -/
def catchUp (s : Session ρ) (now : Seconds) : Option (Session ρ) :=
  let u := (tickOn now s ⟨s, .start⟩).val
  if u.nextTick ≤ now then none else some u

/-- Does what is due at `now` but for the steps of the timers.  Answers whether the user wants to
quit, in which case nothing follows the poll. -/
def attend (s : Session ρ) (now : Seconds) : Session ρ × Bool :=
  let s := s.reportIfDue now
  if s.nextDisplay ≤ now then
    match s.poll with
    | (s, true) => (s, true)
    | (s, false) => (s.display now, false)
  else (s, false)

/-- Does all that is due at `now`, the steps of the timers last.  Answers whether the user wants to
quit, in which case the timers make none. -/
def service (s : Session ρ) (now : Seconds) : Option (Session ρ × Bool) :=
  match s.attend now with
  | (s, true) => some (s, true)
  | (s, false) =>
    match s.catchUp now with
    | none => none
    | some s => some (s, false)

end Session

end Chip8
