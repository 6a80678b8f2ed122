import Chip8.Platform
import Chip8.Screen
import Chip8.Text.IntLiteral
import Chip8.Text.Quoted

/-!
# Chip8.CommandLine.Basic — the options of the program

The options with their flags, the choices that they make, and the complaints about a command line.
-/

namespace Chip8.CommandLine

/-- The options. -/
inductive Param where
  | help
  | clockSpeed
  | renderer
  | scale
  | keymap
  | edgeMode
  | seed
  | maxOps
  | debug
  deriving DecidableEq

namespace Param

/-- All options, in the order in which they are listed. -/
def all : List Param :=
  [help, clockSpeed, renderer, scale, keymap, edgeMode, seed, maxOps, debug]

/-- The flags of an option, the short one first if there is one. -/
def flags : Param → List String
  | help => ["-h", "--help"]
  | clockSpeed => ["-c", "--clock_speed"]
  | renderer => ["-r", "--renderer"]
  | scale => ["-s", "--scale"]
  | keymap => ["-k", "--keymap"]
  | edgeMode => ["-e", "--edge_mode"]
  | seed => ["--seed"]
  | maxOps => ["--max_ops"]
  | debug => ["-d", "--debug"]

/-- The option as complaints name it. -/
def label (p : Param) : String := "/".intercalate p.flags

/-- Whether a value belongs to the option. -/
def takesValue : Param → Bool
  | help | debug => false
  | _ => true

/-- All flags, each with its option. -/
def table : List (String × Param) := all.flatMap fun p => p.flags.map (·, p)

/-- The option with exactly that flag. -/
def ofFlag? (flag : String) : Option Param := table.lookup flag

end Param

/-- What an option has been set to. -/
inductive Setting (α : Type) where
  | unset
  | given (value : α)
  /-- The option was there, but its value was `--`, which is dropped. -/
  | dropped
  deriving DecidableEq

/-- The names of the renderers. -/
def rendererNames : List String := ["pygame", "null"]

/-- What the options choose. -/
structure Choices where
  clockSpeed : Setting Int := .unset
  renderer : Setting String := .given "pygame"
  scale : Setting Int := .unset
  keymap : Setting String := .given Platform.defaultKeymap
  edgeMode : Setting String := .given EdgeMode.linear.name
  seed : Setting Int := .unset
  maxOps : Setting Int := .unset
  debug : Bool := false
  deriving DecidableEq

/-- A command line that has been understood. -/
structure Options extends Choices where
  filename : String
  deriving DecidableEq

/-! ## Complaints -/

/-- What is wrong with a command line. -/
inductive Complaint where
  | ambiguous (argument : String) (flags : List String)
  | expectedValue (param : Param)
  /-- A value was joined to a flag that takes none. -/
  | ignoredValue (param : Param) (value : String)
  | notInteger (param : Param) (value : String)
  | notAChoice (param : Param) (value : String) (choices : List String)
  | noFilename
  | unrecognized (arguments : List String)
  deriving DecidableEq

namespace Complaint

/-- The wording of a complaint. -/
def message : Complaint → String
  | ambiguous argument flags =>
    "ambiguous option: " ++ argument ++ " could match " ++ ", ".intercalate flags
  | expectedValue param => "argument " ++ param.label ++ ": expected one argument"
  | ignoredValue param value =>
    "argument " ++ param.label ++ ": ignored explicit argument " ++ Quoted.quote value
  | notInteger param value =>
    "argument " ++ param.label ++ ": invalid int value: " ++ Quoted.quote value
  | notAChoice param value choices =>
    "argument " ++ param.label ++ ": invalid choice: " ++ Quoted.quote value ++
      " (choose from " ++ ", ".intercalate (choices.map Quoted.quote) ++ ")"
  | noFilename => "the following arguments are required: filename"
  | unrecognized arguments => "unrecognized arguments: " ++ " ".intercalate arguments

end Complaint

/-- Why a command line does not lead to options. -/
inductive Refusal where
  /-- The user asked for help. -/
  | help
  | complaint (complaint : Complaint)
  deriving DecidableEq

/-! ## Making choices -/

/-- A setting of some kind from the text of its value. -/
def setting {α : Type} (read : String → Except Complaint α) (value : String) :
    Except Complaint (Setting α) :=
  if value = "--" then .ok .dropped
  else
    match read value with
    | .error c => .error c
    | .ok a => .ok (.given a)

/-- The value must be a whole number. -/
def readInt (p : Param) (value : String) : Except Complaint Int :=
  match IntLiteral.parse? value with
  | some n => .ok n
  | none => .error (.notInteger p value)

/-- The value must be among the choices. -/
def readChoice (p : Param) (choices : List String) (value : String) : Except Complaint String :=
  if value ∈ choices then .ok value else .error (.notAChoice p value choices)

namespace Choices

/-- The choices after an option with its value; an option without value is passed `""`. -/
def set (c : Choices) (p : Param) (value : String) : Except Refusal Choices :=
  let put {α : Type} (r : Except Complaint (Setting α)) (f : Setting α → Choices) :
      Except Refusal Choices :=
    match r with
    | .error complaint => .error (.complaint complaint)
    | .ok a => .ok (f a)
  match p with
  | .help => .error .help
  | .debug => .ok { c with debug := true }
  | .clockSpeed => put (setting (readInt p) value) fun a => { c with clockSpeed := a }
  | .renderer => put (setting (readChoice p rendererNames) value) fun a => { c with renderer := a }
  | .scale => put (setting (readInt p) value) fun a => { c with scale := a }
  | .keymap => put (setting .ok value) fun a => { c with keymap := a }
  | .edgeMode =>
    put (setting (readChoice p (EdgeMode.all.map EdgeMode.name)) value) fun a =>
      { c with edgeMode := a }
  | .seed => put (setting (readInt p) value) fun a => { c with seed := a }
  | .maxOps => put (setting (readInt p) value) fun a => { c with maxOps := a }

end Choices

end Chip8.CommandLine
