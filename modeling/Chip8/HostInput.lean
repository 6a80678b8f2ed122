import Chip8.Keymap

/-!
# Chip8.HostInput — what the host reports between instructions

The host reports its events in batches, one for each time it is asked; after the last batch there
is nothing more to report.  All events of a batch take effect, also those after one that asks to
quit.

A window numbers its events.  Closing it asks to quit, and so does letting the Escape key up, which
therefore reaches no key of the keypad.
-/

namespace Chip8

/-- What the host can report. -/
inductive HostEvent where
  | quit
  | keyDown (code : Int)
  | keyUp (code : Int)
  | other
  deriving DecidableEq

/-! ## Window events -/

namespace WindowEvent

/-- The number of the event that closes the window. -/
def quitKind : Int := 256

/-- The number of the event that a key goes down. -/
def keyDownKind : Int := 768

/-- The number of the event that a key comes up. -/
def keyUpKind : Int := 769

/-- The code of the Escape key. -/
def escape : Int := 27

end WindowEvent

/-- An event of the window: its number, and the code of the key if it is about a key. -/
structure WindowEvent where
  kind : Int
  code : Option Int
  coded : kind = WindowEvent.keyDownKind ∨ kind = WindowEvent.keyUpKind → code.isSome = true

namespace WindowEvent

/-- The key with that code goes down. -/
def keyDown (code : Int) : WindowEvent := ⟨keyDownKind, some code, fun _ => rfl⟩

/-- The key with that code comes up. -/
def keyUp (code : Int) : WindowEvent := ⟨keyUpKind, some code, fun _ => rfl⟩

/-- The window is closed. -/
def close : WindowEvent := ⟨quitKind, none, by decide⟩

/-- What the event means. -/
def meaning (e : WindowEvent) : HostEvent :=
  if e.kind = quitKind then .quit
  else if hdown : e.kind = keyDownKind then .keyDown (e.code.get (e.coded (.inl hdown)))
  else if hup : e.kind = keyUpKind then
    let code := e.code.get (e.coded (.inr hup))
    if code = escape then .quit else .keyUp code
  else .other

end WindowEvent

namespace HostEvent

/-! ## Effects -/

/-- The keypad after an event. -/
def apply (e : HostEvent) (k : Keymap) (p : Keypad) : Keypad :=
  match e with
  | keyDown code => k.move p code true
  | keyUp code => k.move p code false
  | quit | other => p

/-- The keypad after a batch of events. -/
def applyAll (k : Keymap) (p : Keypad) (events : List HostEvent) : Keypad :=
  events.foldl (fun p e => e.apply k p) p

/-- Whether a batch asks to quit. -/
def asksToQuit (events : List HostEvent) : Bool := events.any (· == .quit)

end HostEvent

/-- The keymap in use, the batches still to come, and how many times the host has been asked. -/
structure HostInput where
  keymap : Keymap
  batches : List (List HostEvent)
  polls : Nat

namespace HostInput

/-- Inputs with a keymap in its written form. -/
def create (keymap : String) (batches : List (List HostEvent)) : Except KeymapFault HostInput :=
  match Keymap.parse keymap with
  | .error fault => .error fault
  | .ok keymap => .ok ⟨keymap, batches, 0⟩

/-- The next batch. -/
def batch (h : HostInput) : List HostEvent := h.batches.headD []

/-- Asks the host once.  Answers with the keypad and whether the user wants to quit. -/
def poll (h : HostInput) (p : Keypad) : HostInput × Keypad × Bool :=
  ({ h with batches := h.batches.tail, polls := h.polls + 1 },
    HostEvent.applyAll h.keymap p h.batch, HostEvent.asksToQuit h.batch)

end HostInput

end Chip8
