import Chip8.Text.Numeral

/-!
# Chip8.CallStack — the addresses to which calls return

The stack is no part of the memory: programs reach it through calls and returns only.  It holds at
most `capacity` addresses; the stack pointer is the number that it holds.
-/

namespace Chip8

/-- Why a call or a return is refused. -/
inductive StackFault where
  | overflow (capacity : Int)
  | underflow
  deriving DecidableEq

namespace StackFault

/-- The wording of a refused call or return. -/
def message : StackFault → String
  | overflow capacity =>
    "Stack overflow (more than " ++ Numeral.decimal capacity ++ " nested calls)"
  | underflow => "Stack underflow (return with no active call)"

end StackFault

/-- A stack for `capacity` addresses, the most recent first. -/
structure CallStack (capacity : Int) where
  items : List Int
  deriving DecidableEq

namespace CallStack

variable {capacity : Int}

/-- No call is active. -/
def empty : CallStack capacity := ⟨[]⟩

/-- The stack pointer: how many calls are active. -/
def depth (s : CallStack capacity) : Nat := s.items.length

/-- Records one more call. -/
def push (s : CallStack capacity) (item : Int) : Except StackFault (CallStack capacity) :=
  if capacity ≤ s.items.length then .error (.overflow capacity) else .ok ⟨item :: s.items⟩

/-- Takes the most recent address off. -/
def pop (s : CallStack capacity) : Except StackFault (Int × CallStack capacity) :=
  match s.items with
  | [] => .error .underflow
  | item :: items => .ok (item, ⟨items⟩)

end CallStack

end Chip8
