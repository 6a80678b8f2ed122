import Chip8.CallStack
import Chip8.Instruction
import Chip8.Keypad
import Chip8.Memory
import Chip8.Screen

/-!
# Chip8.Machine — all that a program can see and change

The memory, the registers, the index register, the program counter, the two timers, the opcode
being carried out, the call stack, the keypad and the screen.  A machine powers on with the font in
its memory and everything else cleared; a program is loaded whole or not at all.
-/

namespace Chip8

open Platform

/-- Why a program cannot be loaded. -/
inductive LoadFault where
  | tooLong (length : Nat)
  /-- An element of the program is not a byte. -/
  | notBytes
  /-- The memory refused. -/
  | memory (fault : MemoryFault)
  deriving DecidableEq

namespace LoadFault

/-- The wording of a refused program. -/
def message : LoadFault → String
  | tooLong length =>
    "Program is " ++ Numeral.decimal length ++ " bytes, but only " ++
      Numeral.decimal maxProgramSize ++ " bytes are available from 0x" ++
      Numeral.hex 3 startAddress
  | notBytes => "bytes must be in range(0, 256)"
  | memory fault => fault.message

end LoadFault

/-- The state of a machine. -/
structure Machine where
  ram : Memory 0x1000
  v : Vector UInt8 16
  index : Int
  pc : Int
  delay : Int
  sound : Int
  opcode : Int
  stack : CallStack 16
  keypad : Keypad
  screen : Screen 64 32

namespace Machine

/-- A memory with the font in its place. -/
def withFont (ram : Memory 0x1000) : Memory 0x1000 :=
  ⟨Cells.overwrite ram.cells fontAddress.toNat fontSet⟩

/-- The memory of a machine that has just been powered on: zeros, and the font. -/
def initialMemory : Memory 0x1000 := withFont (.blank 0x1000)

/-- A machine that has just been powered on. -/
def powerOn (edge : EdgeMode) : Machine where
  ram := initialMemory
  v := Vector.replicate 16 0
  index := 0
  pc := startAddress
  delay := 0
  sound := 0
  opcode := 0
  stack := .empty
  keypad := .released
  screen := .blank edge

/-- A machine whose edge mode has that name. -/
def create (edge : String) : Except ScreenFault Machine :=
  match EdgeMode.ofName? edge with
  | some edge => .ok (powerOn edge)
  | none => .error (.unknownEdge edge)

/-! ## Registers -/

/-- The content of register `x`. -/
def reg (m : Machine) (x : Reg) : UInt8 := m.v[x]

/-- Puts a byte into register `x`. -/
def setReg (m : Machine) (x : Reg) (byte : UInt8) : Machine := { m with v := m.v.set x byte }

theorem reg_setReg (m : Machine) (x r : Reg) (b : UInt8) :
    (m.setReg x b).reg r = if r = x then b else m.reg r := by
  have hcell : (m.setReg x b).reg r = (m.v.set x.val b)[r.val] := rfl
  rw [hcell, Vector.getElem_set]
  by_cases h : r = x
  · rw [if_pos (congrArg Fin.val h.symm), if_pos h]
  · rw [if_neg fun hval => h (Fin.ext hval.symm), if_neg h]
    rfl

/-! ## Control -/

/-- Moves the program counter past one instruction. -/
def advance (m : Machine) : Machine := { m with pc := m.pc + 2 }

/-- Moves the program counter back by one instruction. -/
def rewind (m : Machine) : Machine := { m with pc := m.pc - 2 }

/-- The opcode at the program counter: two bytes, the high one first. -/
def fetch (m : Machine) : Except MemoryFault Int :=
  match m.ram.readBlock m.pc 2 with
  | .error fault => .error fault
  | .ok bytes => .ok (bytes.foldl (fun word byte => word * 256 + byte.toNat) 0)

/-- One step down of both timers; each stops at zero. -/
def tick (m : Machine) : Machine :=
  { m with
    delay := if 0 < m.delay then m.delay - 1 else m.delay
    sound := if 0 < m.sound then m.sound - 1 else m.sound }

/-- Clears every part of the machine and puts the font back; the edge mode stays. -/
def reset (m : Machine) : Machine where
  ram := withFont m.ram.clear.1
  v := m.v.map fun _ => 0
  index := 0
  pc := startAddress
  delay := 0
  sound := 0
  opcode := 0
  stack := .empty
  keypad := .released
  screen := m.screen.clear

/-! ## Loading -/

/-- Writes a program into the memory, from the start address on. -/
def load (m : Machine) (program : List UInt8) : Except LoadFault Machine :=
  if maxProgramSize < program.length then .error (.tooLong program.length)
  else
    match m.ram.writeBlock startAddress program with
    | .error fault => .error (.memory fault)
    | .ok ram => .ok { m with ram }

/-- Loads a program given as numbers, all of which must be bytes. -/
def loadNumbers (m : Machine) (program : List Int) : Except LoadFault Machine :=
  match program.mapM Cells.byte? with
  | .error _ => .error .notBytes
  | .ok program => m.load program

end Machine

end Chip8
