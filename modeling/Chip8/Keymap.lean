import Chip8.Keypad
import Chip8.Text.IntLiteral

/-!
# Chip8.Keymap — which host key stands for which key

A keymap is written as sixteen whole numbers with commas between them: the host key codes of the
keys `0` to `F`.  No code may occur twice, in whatever spelling.  The first field at fault decides
between the two complaints about fields; the number of fields comes before both.
-/

namespace Chip8

/-- Why a text is no keymap. -/
inductive KeymapFault where
  | wrongCount
  | notInteger
  | duplicate
  deriving DecidableEq

namespace KeymapFault

/-- The wording of a refusal. -/
def message : KeymapFault → String
  | wrongCount => "Incorrect number of keys defined -- 16 required.  Use commas to split numbers"
  | notInteger => "Defined keys are not all integer values"
  | duplicate => "Duplicate keys defined"

end KeymapFault

/-- Host key codes and the keys they stand for, in order of definition. -/
structure Keymap where
  entries : List (Int × Key)
  deriving DecidableEq

namespace Keymap

/-- The parts of a text between commas; always at least one. -/
def fields : List Char → List (List Char)
  | [] => [[]]
  | c :: cs =>
    if c = ',' then [] :: fields cs
    else
      match fields cs with
      | [] => [[c]]
      | field :: more => (c :: field) :: more

/-- Reads the fields in order; `before` has what came before them. -/
def readFields (before : List (Int × Key)) :
    List (List Char × Key) → Except KeymapFault (List (Int × Key))
  | [] => .ok before
  | (field, key) :: more =>
    match IntLiteral.parse? (String.ofList field) with
    | none => .error .notInteger
    | some code =>
      if before.any (·.1 = code) then .error .duplicate
      else readFields (before ++ [(code, key)]) more

/-- Reads a keymap. -/
def parse (text : String) : Except KeymapFault Keymap :=
  if (fields text.toList).length = 16 then
    match readFields [] ((fields text.toList).zip (List.finRange 16)) with
    | .error fault => .error fault
    | .ok entries => .ok ⟨entries⟩
  else .error .wrongCount

/-- The key that a host key code stands for. -/
def key? (k : Keymap) (code : Int) : Option Key := k.entries.lookup code

/-- The keypad after a host key has moved; a code without a key changes nothing. -/
def move (k : Keymap) (p : Keypad) (code : Int) (down : Bool) : Keypad :=
  match k.key? code with
  | some key => p.move key down
  | none => p

end Keymap

end Chip8
