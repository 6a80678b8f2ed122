import Chip8.CommandLine.Basic

/-!
# Chip8.CommandLine.Token — what each argument is

Up to the first `--`, an argument that begins with a dash is a flag, unless it is the dash alone, a
negative number, or holds a space.  A long flag may be shortened as long as no other flag begins
like it, and may carry its value after an equals sign.  A short flag may carry its value, or further
short flags, right behind it.  All arguments are looked at before any of them takes effect.
-/

namespace Chip8.CommandLine

/-- An argument that has been looked at. -/
inductive Token where
  | plain (text : String)
  | separator
  /-- A flag: whether it is a short one, and what is joined to it. -/
  | flag (param : Param) (short : Bool) (joined : Option (List Char))
  | unknown (text : String)
  deriving DecidableEq

namespace Token

/-- Whether a flag is a short one. -/
def isShort (flag : List Char) : Bool :=
  match flag with
  | '-' :: '-' :: _ => false
  | _ => true

/-- Splits a text at its first equals sign. -/
def splitEquals : List Char → List Char × Option (List Char)
  | [] => ([], none)
  | c :: cs =>
    if c = '=' then ([], some cs)
    else ((c :: (splitEquals cs).1), (splitEquals cs).2)

/-- One or more decimal digits. -/
def allDigits (cs : List Char) : Bool := cs != [] && cs.all fun c => (Digit.value? c).isSome

/-- A text without the line feed at its end. -/
def dropFinalNewline (cs : List Char) : List Char :=
  if cs.getLast? = some '\n' then cs.dropLast else cs

/-- What follows the dash of a negative number: digits, with a point before some of them or not. -/
def isNumber (cs : List Char) : Bool :=
  let body := dropFinalNewline cs
  let whole := body.takeWhile fun c => (Digit.value? c).isSome
  allDigits body ||
    match body.drop whole.length with
    | '.' :: fraction => allDigits fraction
    | _ => false

/-- The flags that begin with a text. -/
def completions (start : List Char) : List (String × Param) :=
  Param.table.filter fun f => start.isPrefixOf f.1.toList

/-- The flags that a long argument may stand for. -/
def longCandidates (arg : List Char) : List (String × Token) :=
  let parts := splitEquals arg
  (completions parts.1).map fun f => (f.1, .flag f.2 (isShort f.1.toList) parts.2)

/-- The flag that a short argument begins with. -/
def shortCandidates (arg : List Char) : List (String × Token) :=
  let flag := String.ofList (arg.take 2)
  match Param.ofFlag? flag with
  | some p => [(flag, .flag p true (some (arg.drop 2)))]
  | none => []

/-- An argument that begins with a dash and is no flag. -/
def ofOther (arg : List Char) : Token :=
  if isNumber (arg.drop 1) || arg.contains ' ' then .plain (String.ofList arg)
  else .unknown (String.ofList arg)

/-- An argument that begins with a dash, but is not a flag as it stands. -/
def ofDashed (arg : List Char) : Except Complaint Token :=
  let parts := splitEquals arg
  match parts.2, Param.ofFlag? (String.ofList parts.1) with
  | some value, some p => .ok (.flag p (isShort parts.1) (some value))
  | _, _ =>
    match if isShort arg then shortCandidates arg else longCandidates arg with
    | [] => .ok (ofOther arg)
    | [(_, t)] => .ok t
    | many => .error (.ambiguous (String.ofList arg) (many.map (·.1)))

/-- Looks at an argument that is not `--`. -/
def ofArgument (arg : String) : Except Complaint Token :=
  match arg.toList with
  | '-' :: c :: cs =>
    match Param.ofFlag? arg with
    | some p => .ok (.flag p (isShort ('-' :: c :: cs)) none)
    | none => ofDashed ('-' :: c :: cs)
  | _ => .ok (.plain arg)

/-- Looks at all arguments. -/
def ofArguments : List String → Except Complaint (List Token)
  | [] => .ok []
  | arg :: args =>
    if arg = "--" then .ok (.separator :: args.map .plain)
    else
      match ofArgument arg with
      | .error c => .error c
      | .ok t =>
        match ofArguments args with
        | .error c => .error c
        | .ok ts => .ok (t :: ts)

end Token

end Chip8.CommandLine
