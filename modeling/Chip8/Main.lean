import Chip8.Launch

/-!
# Chip8.Main — the program

Reads the program file, sets a session up and feeds it readings of the real clock.  There are no
windows here, so only the headless renderer can be chosen.
-/

namespace Chip8.Main

open Chip8

/-- The current time. -/
def now : IO Seconds := return Seconds.ofNanos (← IO.monoNanosNow)

/-- Prints the lines of a journal. -/
def printLines (journal : List Event) : IO Unit :=
  for line in Launch.printed journal do
    IO.println line

/-- Goes on with a run until it is over. -/
partial def drive (maxOps : Option Int) (phase : Phase) (s : Session Twister) : IO Ending := do
  match s.feed maxOps phase (← now) with
  | none => drive maxOps phase s
  | some (.more phase s) =>
    printLines s.journal
    drive maxOps phase { s with journal := [] }
  | some (.over ending s) =>
    printLines s.journal
    return ending

/-- What there is around the program: the file, and no windows.  The clock is read as the run goes
on, so there are no readings beforehand. -/
def surroundings (filename : String) : IO Surroundings := do
  let content : Except RomFault (List UInt8) ←
    try pure (.ok (← IO.FS.readBinFile filename).toList)
    catch _ => pure (.error (.notFound filename))
  return {
    romAt := fun _ => content
    canOpen := false
    batches := []
    readings := .ended (.usedUp 0)
    entropy := ← IO.monoNanosNow }

/-- Complains, and answers with an exit code. -/
def complain (code : UInt32) (text : String) : IO UInt32 := do
  IO.eprintln text
  return code

/-- Runs the session that a request asks for. -/
def run (q : Request) (h : Surroundings) : IO UInt32 := do
  IO.println Launch.banner
  match Launch.setUp q h with
  | .error launched =>
    match launched.result with
    | .error fault => complain 1 fault.message
    | .ok _ => return 0
  | .ok s =>
    let limit :=
      match q.maxOps with
      | some (.given n) => some n
      | _ => none
    match ← drive limit .opening s with
    | .stopped => return 0
    | _ => return 1

end Chip8.Main

/-- The command line. -/
def main (args : List String) : IO UInt32 := do
  match Chip8.CommandLine.parse args with
  | .error .help =>
    for line in Chip8.CommandLine.helpLines do
      IO.println line
    return 0
  | .error (.complaint c) =>
    for line in Chip8.CommandLine.helpLines.take 4 do
      IO.eprintln line
    Chip8.Main.complain 2 ("runchip8.py: error: " ++ c.message)
  | .ok options =>
    Chip8.Main.run (Chip8.Launch.requestOf options)
      (← Chip8.Main.surroundings options.filename)
