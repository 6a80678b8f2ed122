import Chip8.CommandLine.Parse
import Chip8.CommandLine.Usage
import Chip8.Random.Twister
import Chip8.RomStore
import Chip8.Session.Run

/-!
# Chip8.Launch — from a request to a finished run

A launch powers a machine on, loads a program file, opens a renderer, connects the inputs, and runs
the session.  The entries of the request are looked at in the order in which they are needed, and an
entry that is missing is a fault at that moment.  Once a session has been set up, its renderer is
shut down however the run ends.
-/

namespace Chip8

open CommandLine (Setting)

/-- What a launch can be asked for; `none` is an entry that is missing altogether, and
`some none` a file name that is left open. -/
structure Request where
  renderer : Option (Setting String)
  edgeMode : Option (Setting String)
  filename : Option (Option String)
  debug : Option Bool
  seed : Option (Setting Int)
  scale : Option (Setting Int)
  keymap : Option (Setting String)
  clockSpeed : Option (Setting Int)
  maxOps : Option (Setting Int)

/-- What a launch finds around it. -/
structure Surroundings where
  /-- The content of the file at a path. -/
  romAt : String → Except RomFault (List UInt8)
  /-- Whether windows can be opened. -/
  canOpen : Bool
  /-- The events of the window. -/
  batches : List (List HostEvent)
  /-- The readings of the clock. -/
  readings : Readings
  /-- Seeds the random bytes when the request does not. -/
  entropy : Int

/-- The entries of a request that only a number can fill. -/
inductive NumberEntry where
  | seed
  | scale
  | clockSpeed
  | maxOps
  deriving DecidableEq

/-- Why a launch fails. -/
inductive LaunchFault where
  | missing (entry : String)
  | noWindows
  | unknownRenderer (name : String)
  | edgeMode (fault : ScreenFault)
  /-- There is no default for the file name. -/
  | noFilename
  | rom (fault : RomFault)
  | program (fault : LoadFault)
  | notANumber (entry : NumberEntry)
  | renderer (fault : RendererFault)
  | keymap (fault : KeymapFault)
  | session (fault : SessionFault)
  | running (fault : Fault)
  | clock (fault : ClockFault)
  deriving DecidableEq

namespace NumberEntry

/-- The wording of the complaint that an entry is no number. -/
def message : NumberEntry → String
  | seed =>
    "The only supported seed types are: None,\nint, float, str, bytes, and bytearray."
  | scale => "'<' not supported between instances of 'list' and 'int'"
  | clockSpeed => "'<=' not supported between instances of 'list' and 'int'"
  | maxOps => "'<' not supported between instances of 'int' and 'list'"

end NumberEntry

namespace LaunchFault

/-- The wording of a fault. -/
def message : LaunchFault → String
  | missing entry => Quoted.quote entry
  | noWindows =>
    "PyGame does not appear to be installed.  " ++
      "Use the null renderer to run without a display."
  | unknownRenderer name => "Unknown renderer '" ++ name ++ "'"
  | edgeMode fault => fault.message
  | noFilename => "expected str, bytes or os.PathLike object, not NoneType"
  | rom fault => fault.message
  | program fault => fault.message
  | notANumber entry => entry.message
  | renderer fault => fault.message
  | keymap fault => fault.message
  | session fault => fault.message
  | running fault => fault.message
  | clock fault => fault.message

end LaunchFault

/-- What a launch comes to: its result, the lines it printed, and the calls on the window, the
newest first.  The result tells whether the run ended without a halt. -/
structure Launched where
  result : Except LaunchFault Bool
  lines : List String
  calls : List WindowCall

namespace Launch

/-- The line with which the program introduces itself. -/
def banner : String := Platform.appIntro ++ Platform.appCopyright

/-! ## Entries -/

/-- An entry that must be there. -/
def entry {α : Type} (name : String) (value : Option α) : Except LaunchFault α :=
  match value with
  | none => .error (.missing name)
  | some a => .ok a

/-- A text; nothing and the empty text stand for the default. -/
def orDefault (default : String) (value : Setting String) : String :=
  match value with
  | .given text => if text = "" then default else text
  | .unset | .dropped => default

/-- A number, or nothing. -/
def number (entry : NumberEntry) (value : Setting Int) : Except LaunchFault (Option Int) :=
  match value with
  | .unset => .ok none
  | .given n => .ok (some n)
  | .dropped => .error (.notANumber entry)

/-! ## Setting up -/

/-- Whether the renderer asked for has a window. -/
def isWindowed (q : Request) (h : Surroundings) : Except LaunchFault Bool := do
  match orDefault "pygame" (← entry "renderer" q.renderer) with
  | "pygame" => if h.canOpen then .ok true else .error .noWindows
  | "null" => .ok false
  | name => .error (.unknownRenderer name)

/-- The machine with its program. -/
def machine (q : Request) (h : Surroundings) : Except LaunchFault Machine := do
  let edge := orDefault EdgeMode.linear.name (← entry "edge_mode" q.edgeMode)
  let machine ← (Machine.create edge).mapError .edgeMode
  match ← entry "filename" q.filename with
  | none => .error .noFilename
  | some filename =>
    let program ← (h.romAt filename).mapError .rom
    (machine.load program).mapError .program

/-- The processor. -/
def processor (q : Request) (h : Surroundings) (m : Machine) :
    Except LaunchFault (Cpu Twister) := do
  let traced ← entry "debug" q.debug
  let seed ← number .seed (← entry "seed" q.seed)
  return Cpu.create m (Twister.ofSeed (seed.getD h.entropy)) traced

/-- The renderer. -/
def renderer (q : Request) (windowed : Bool) : Except LaunchFault Renderer := do
  match windowed, ← entry "scale" q.scale with
  | true, scale => (Renderer.windowed (← number .scale scale)).mapError .renderer
  | false, .given scale => return Renderer.headless (some scale)
  | false, _ => return Renderer.headless none

/-- The session, with the events of the window if there is one. -/
def session (q : Request) (h : Surroundings) (windowed : Bool) (c : Cpu Twister) (r : Renderer) :
    Except LaunchFault (Session Twister) := do
  let keymap := orDefault Platform.defaultKeymap (← entry "keymap" q.keymap)
  let input ← (HostInput.create keymap (if windowed then h.batches else [])).mapError .keymap
  let speed ← number .clockSpeed (← entry "clock_speed" q.clockSpeed)
  (Session.create c r input speed).mapError .session

/-- All that precedes the renderer. -/
def powerUp (q : Request) (h : Surroundings) : Except LaunchFault (Bool × Cpu Twister) := do
  let windowed ← isWindowed q h
  let m ← machine q h
  return (windowed, ← processor q h m)

/-! ## Running -/

/-- The lines that a session printed. -/
def printed (journal : List Event) : List String :=
  journal.reverse.filterMap fun e =>
    match e with
    | .line text => some text
    | _ => none

/-- The result of a run. -/
def result : Ending → Except LaunchFault Bool
  | .stopped => .ok true
  | .halted => .ok false
  | .failed fault => .error (.running fault)
  | .clockFailed fault => .error (.clock fault)

/-- What a launch comes to after a session: its renderer is shut down. -/
def close (s : Session Twister) (result : Except LaunchFault Bool) : Launched :=
  ⟨result, banner :: printed s.journal, s.renderer.shutdown.calls⟩

/-- Runs a session and shuts its renderer down.  An instruction limit that is no number is noticed
once the clock has been read, before the first instruction. -/
def conclude (q : Request) (h : Surroundings) (s : Session Twister) : Option Launched :=
  match q.maxOps with
  | none => some (close s (.error (.missing "max_ops")))
  | some .unset => (s.run none h.readings).map fun r => close r.session (result r.ending)
  | some (.given n) => (s.run (some n) h.readings).map fun r => close r.session (result r.ending)
  | some .dropped =>
    (s.run (some 0) h.readings).map fun r =>
      close r.session
        (if r.ending = .stopped then .error (.notANumber .maxOps) else result r.ending)

/-- Sets a session up.  A failure is already what the launch comes to: a renderer that was opened
before it stays as it is. -/
def setUp (q : Request) (h : Surroundings) : Except Launched (Session Twister) :=
  match powerUp q h with
  | .error fault => .error ⟨.error fault, [banner], []⟩
  | .ok (windowed, c) =>
    match renderer q windowed with
    | .error fault => .error ⟨.error fault, [banner], []⟩
    | .ok r =>
      match session q h windowed c r with
      | .error fault => .error ⟨.error fault, [banner], r.calls⟩
      | .ok s => .ok s

/-- Launches what is asked for.  There is no answer where the run never ends. -/
def launch (q : Request) (h : Surroundings) : Option Launched :=
  match setUp q h with
  | .error launched => some launched
  | .ok s => conclude q h s

/-! ## The command line -/

/-- The request that a command line makes. -/
def requestOf (o : CommandLine.Options) : Request where
  renderer := some o.renderer
  edgeMode := some o.edgeMode
  filename := some (some o.filename)
  debug := some o.debug
  seed := some o.seed
  scale := some o.scale
  keymap := some o.keymap
  clockSpeed := some o.clockSpeed
  maxOps := some o.maxOps

/-- How the program ends. -/
inductive Outcome where
  /-- With an exit code, and possibly a complaint. -/
  | exit (code : Nat) (complaint : Option CommandLine.Complaint)
  | fault (fault : LaunchFault)
  deriving DecidableEq

/-- What the program comes to. -/
structure Report where
  outcome : Outcome
  lines : List String
  calls : List WindowCall

/-- The end of a program whose command line leads to no options: help succeeds, a complaint does
not. -/
def refuse (r : CommandLine.Refusal) : Report :=
  match r with
  | .help => ⟨.exit 0 none, CommandLine.helpLines, []⟩
  | .complaint c => ⟨.exit 2 (some c), [], []⟩

/-- What the program comes to with a launch. -/
def report (l : Launched) : Report :=
  match l.result with
  | .ok true => ⟨.exit 0 none, l.lines, l.calls⟩
  | .ok false => ⟨.exit 1 none, l.lines, l.calls⟩
  | .error fault => ⟨.fault fault, l.lines, l.calls⟩

/-- The whole program. -/
def program (args : List String) (h : Surroundings) : Option Report :=
  match CommandLine.parse args with
  | .error r => some (refuse r)
  | .ok options => (launch (requestOf options) h).map report

end Launch

end Chip8
