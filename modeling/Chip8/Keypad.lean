import Chip8.Platform
import Chip8.Text.Numeral

/-!
# Chip8.Keypad — sixteen keys

Each key is down or up.  The host presses and releases keys; the processor asks for them.  A key
number outside `0` to `15` is refused.
-/

namespace Chip8

/-- One of the sixteen keys. -/
abbrev Key := Fin 16

/-- Why the keypad refuses a request. -/
inductive KeypadFault where
  | noSuchKey (key : Int)
  | wrongCount
  deriving DecidableEq

namespace KeypadFault

/-- The wording of a refused request. -/
def message : KeypadFault → String
  | noSuchKey key => "Key 0x" ++ Numeral.hex 2 key ++ " is outside the keypad range 0x0-0xf"
  | wrongCount =>
    "Keypad state must have exactly " ++ Numeral.decimal Platform.keyCount ++ " entries"

end KeypadFault

/-- Which keys are down. -/
structure Keypad where
  down : Vector Bool 16
  deriving DecidableEq

namespace Keypad

/-- No key is down. -/
def released : Keypad := ⟨Vector.replicate 16 false⟩

/-- The key with number `k`. -/
def key? (k : Int) : Except KeypadFault Key :=
  if h : 0 ≤ k ∧ k < 16 then .ok ⟨k.toNat, by omega⟩ else .error (.noSuchKey k)

/-- Moves one key. -/
def move (p : Keypad) (k : Key) (down : Bool) : Keypad := ⟨p.down.set k down⟩

/-- Puts key number `k` down. -/
def press (p : Keypad) (k : Int) : Except KeypadFault Keypad :=
  match key? k with
  | .ok k => .ok (p.move k true)
  | .error fault => .error fault

/-- Lets key number `k` up. -/
def release (p : Keypad) (k : Int) : Except KeypadFault Keypad :=
  match key? k with
  | .ok k => .ok (p.move k false)
  | .error fault => .error fault

/-- Sets all keys at once. -/
def setAll (_ : Keypad) (states : List Bool) : Except KeypadFault Keypad :=
  if h : states.length = 16 then .ok ⟨⟨states.toArray, by simpa using h⟩⟩
  else .error .wrongCount

/-- Whether key number `k` is down. -/
def isDown (p : Keypad) (k : Int) : Except KeypadFault Bool :=
  match key? k with
  | .ok k => .ok (p.down[k])
  | .error fault => .error fault

/-- The keys that are down, in ascending order. -/
def pressed (p : Keypad) : List Key := (List.finRange 16).filter fun k => p.down[k]

/-- The lowest key that is down. -/
def lowest? (p : Keypad) : Option Key := p.pressed.head?

end Keypad

end Chip8
