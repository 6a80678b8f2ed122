import Chip8.Machine

/-!
# Chip8.StateDump — the state of a machine on a line

The line shows the registers from `VF` down to `V0`, the index register, the two timers, the
address of the instruction and its opcode.  The full dump adds a line with the call stack, oldest
address first, and a line with the keys that are down.
-/

namespace Chip8.StateDump

/-- The registers, `VF` first. -/
def registers (v : Vector UInt8 16) : String :=
  String.join (v.toList.reverse.map fun byte => Numeral.hex 2 byte.toNat)

/-- One line; `address` is that of the instruction. -/
def line (m : Machine) (address : Int) : String :=
  "V: 0x" ++ registers m.v ++ " I: 0x" ++ Numeral.hex 4 m.index ++
    " DT: 0x" ++ Numeral.hex 2 m.delay ++ " ST: 0x" ++ Numeral.hex 2 m.sound ++
    " PC: 0x" ++ Numeral.hex 3 address ++ " OP: 0x" ++ Numeral.hex 4 m.opcode

/-- The call stack, oldest address first. -/
def callStack (items : List Int) : String :=
  if items.isEmpty then " (Empty)"
  else String.join (items.reverse.map fun item => " 0x" ++ Numeral.hex 3 item)

/-- The keys that are down. -/
def keys (pressed : List Key) : String :=
  if pressed.isEmpty then " (None)"
  else String.join (pressed.map fun key => " " ++ Numeral.hex 1 key.val)

/-- Three lines. -/
def full (m : Machine) (address : Int) : String :=
  line m address ++
    "\nSP: " ++ Numeral.decimal m.stack.depth ++ " Stack:" ++ callStack m.stack.items ++
    "\nKeys:" ++ keys m.keypad.pressed

end Chip8.StateDump
