import Chip8.CommandLine.Token

/-!
# Chip8.CommandLine.Parse — from arguments to options

Options take effect in order, so the last value wins and a request for help before a complaint is
heeded.  The first plain argument that no option takes as its value is the file name; others are
complained about at the end, with the unknown flags.
-/

namespace Chip8.CommandLine

/-! ## Joined flags -/

/-- Flags without value that are joined in one argument, and the option with a value that may end
them, with the value if it is joined as well. -/
structure Cluster where
  flags : List Param
  last : Option (Param × Option String)
  deriving DecidableEq

namespace Cluster

/-- A short flag and what follows it in its argument. -/
def join (p : Param) (rest : List Char) : Except Complaint Cluster :=
  if p.takesValue then
    .ok ⟨[], some (p, if rest = [] then none else some (String.ofList rest))⟩
  else
    match rest with
    | [] => .ok ⟨[p], none⟩
    | c :: cs =>
      match Param.ofFlag? (String.ofList ['-', c]) with
      | none => .error (.ignoredValue p (String.ofList (c :: cs)))
      | some q =>
        match join q cs with
        | .error complaint => .error complaint
        | .ok cluster => .ok { cluster with flags := p :: cluster.flags }
termination_by structural rest

/-- A flag with the text that is joined to it. -/
def ofFlag (p : Param) (short : Bool) (joined : Option (List Char)) : Except Complaint Cluster :=
  match joined with
  | none => join p []
  | some text =>
    if p.takesValue then .ok ⟨[], some (p, some (String.ofList text))⟩
    else if short ∧ text ≠ [] then join p text
    else .error (.ignoredValue p (String.ofList text))

end Cluster

/-! ## Consuming -/

/-- What has been understood so far; `extras` are the arguments to complain about. -/
structure Progress where
  filename : Option String
  choices : Choices
  extras : List String

namespace Progress

/-- Adds an argument to complain about. -/
def extra (s : Progress) (text : String) : Progress := { s with extras := s.extras ++ [text] }

/-- Lets options without value take effect in order. -/
def setFlags (s : Progress) : List Param → Except Refusal Progress
  | [] => .ok s
  | p :: ps =>
    match s.choices.set p "" with
    | .error r => .error r
    | .ok choices => { s with choices }.setFlags ps

/-- Lets joined flags take effect, and then an option with its value. -/
def setCluster (s : Progress) (flags : List Param) (p : Param) (value : String) :
    Except Refusal Progress :=
  match s.setFlags flags with
  | .error r => .error r
  | .ok s =>
    match s.choices.set p value with
    | .error r => .error r
    | .ok choices => .ok { s with choices }

/-- Goes through the arguments. -/
def consume (s : Progress) : List Token → Except Refusal Progress
  | [] => .ok s
  | .unknown text :: ts => (s.extra text).consume ts
  | .separator :: ts =>
    match s.filename, ts with
    | none, .plain text :: ts => { s with filename := some text }.consume ts
    | _, ts => (s.extra "--").consume ts
  | .plain text :: ts =>
    match s.filename, ts with
    | none, .separator :: ts => { s with filename := some text }.consume ts
    | none, ts => { s with filename := some text }.consume ts
    | some _, ts => (s.extra text).consume ts
  | .flag p short joined :: ts =>
    match Cluster.ofFlag p short joined with
    | .error c => .error (.complaint c)
    | .ok ⟨flags, none⟩ =>
      match s.setFlags flags with
      | .error r => .error r
      | .ok s => s.consume ts
    | .ok ⟨flags, some (p, some value)⟩ =>
      match s.setCluster flags p value with
      | .error r => .error r
      | .ok s => s.consume ts
    | .ok ⟨flags, some (p, none)⟩ =>
      match ts with
      | .plain value :: ts =>
        match s.setCluster flags p value with
        | .error r => .error r
        | .ok s => s.consume ts
      | _ => .error (.complaint (.expectedValue p))

end Progress

/-- The options of a command line. -/
def parse (args : List String) : Except Refusal Options :=
  match Token.ofArguments args with
  | .error c => .error (.complaint c)
  | .ok ts =>
    match Progress.consume ⟨none, {}, []⟩ ts with
    | .error r => .error r
    | .ok s =>
      match s.filename with
      | none => .error (.complaint .noFilename)
      | some filename =>
        if s.extras = [] then .ok { s.choices with filename }
        else .error (.complaint (.unrecognized s.extras))

end Chip8.CommandLine
