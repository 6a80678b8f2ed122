/-!
# Chip8.Instruction — what an opcode asks for

An opcode is read by its hexadecimal digits.  The first one names a family.  Some families are
told apart further by the last digit or the last byte; the digits in between, and those of the
other families, are operands: the registers `x` and `y`, the digit `n`, the byte `kk` and the
address `nnn`.  Family `0` is taken whole: but for two opcodes it asks for code of the host's
own processor, and is passed over.

`decode` takes any integer, of which it reads the last four digits in two's complement; only
family `0` looks at the number as a whole.
-/

namespace Chip8

/-- One of the registers `V0` to `VF`. -/
abbrev Reg := Fin 16

namespace Reg

/-- `V0`. -/
def first : Reg := 0

/-- `VF`, which also receives the flags. -/
def flag : Reg := 15

end Reg

/-- What the processor can be asked to do. -/
inductive Instruction where
  /-- Code for the host's own processor: nothing is done. -/
  | native
  | clearScreen
  | ret
  | jump (nnn : Int)
  | call (nnn : Int)
  | skipIfByte (x : Reg) (kk : UInt8)
  | skipUnlessByte (x : Reg) (kk : UInt8)
  | skipIfEqual (x y : Reg)
  | skipUnlessEqual (x y : Reg)
  | loadByte (x : Reg) (kk : UInt8)
  | addByte (x : Reg) (kk : UInt8)
  | copy (x y : Reg)
  | or (x y : Reg)
  | and (x y : Reg)
  | xor (x y : Reg)
  | add (x y : Reg)
  | subtract (x y : Reg)
  | shiftRight (x : Reg)
  /-- Subtracts `Vx` from `Vy` into `Vx`. -/
  | subtractFrom (x y : Reg)
  | shiftLeft (x : Reg)
  | setIndex (nnn : Int)
  | jumpPlus (nnn : Int)
  | random (x : Reg) (kk : UInt8)
  | draw (x y : Reg) (n : Nat)
  | skipIfKey (x : Reg)
  | skipUnlessKey (x : Reg)
  | readDelay (x : Reg)
  | awaitKey (x : Reg)
  | setDelay (x : Reg)
  | setSound (x : Reg)
  | addIndex (x : Reg)
  | glyph (x : Reg)
  | decimal (x : Reg)
  | save (x : Reg)
  | restore (x : Reg)

/-! ## Operands -/

namespace Opcode

/-- The first of the four digits. -/
def family (op : Int) : Nat := (op / 0x1000 % 16).toNat

def x (op : Int) : Reg := ⟨(op / 0x100 % 16).toNat, by omega⟩

def y (op : Int) : Reg := ⟨(op / 0x10 % 16).toNat, by omega⟩

def n (op : Int) : Nat := (op % 16).toNat

def kk (op : Int) : Nat := (op % 0x100).toNat

def nnn (op : Int) : Int := op % 0x1000

end Opcode

/-! ## Decoding -/

namespace Instruction

/-- Family `0`, which is told apart by the whole opcode. -/
def ofSystem (op : Int) : Instruction :=
  if op = 0x00E0 then .clearScreen else if op = 0x00EE then .ret else .native

/-- Family `8`, which is told apart by the last digit. -/
def ofArithmetic (x y : Reg) : Nat → Option Instruction
  | 0x0 => some (.copy x y)
  | 0x1 => some (.or x y)
  | 0x2 => some (.and x y)
  | 0x3 => some (.xor x y)
  | 0x4 => some (.add x y)
  | 0x5 => some (.subtract x y)
  | 0x6 => some (.shiftRight x)
  | 0x7 => some (.subtractFrom x y)
  | 0xE => some (.shiftLeft x)
  | _ => none

/-- Family `E`, which is told apart by the last byte. -/
def ofKeys (x : Reg) : Nat → Option Instruction
  | 0x9E => some (.skipIfKey x)
  | 0xA1 => some (.skipUnlessKey x)
  | _ => none

/-- Family `F`, which is told apart by the last byte. -/
def ofDevices (x : Reg) : Nat → Option Instruction
  | 0x07 => some (.readDelay x)
  | 0x0A => some (.awaitKey x)
  | 0x15 => some (.setDelay x)
  | 0x18 => some (.setSound x)
  | 0x1E => some (.addIndex x)
  | 0x29 => some (.glyph x)
  | 0x33 => some (.decimal x)
  | 0x55 => some (.save x)
  | 0x65 => some (.restore x)
  | _ => none

/-- The instruction that an opcode asks for, if any. -/
def decode (op : Int) : Option Instruction :=
  let x := Opcode.x op
  let y := Opcode.y op
  let n := Opcode.n op
  let kk := UInt8.ofNat (Opcode.kk op)
  let nnn := Opcode.nnn op
  match Opcode.family op with
  | 0x0 => some (ofSystem op)
  | 0x1 => some (.jump nnn)
  | 0x2 => some (.call nnn)
  | 0x3 => some (.skipIfByte x kk)
  | 0x4 => some (.skipUnlessByte x kk)
  | 0x5 => if n = 0 then some (.skipIfEqual x y) else none
  | 0x6 => some (.loadByte x kk)
  | 0x7 => some (.addByte x kk)
  | 0x8 => ofArithmetic x y n
  | 0x9 => if n = 0 then some (.skipUnlessEqual x y) else none
  | 0xA => some (.setIndex nnn)
  | 0xB => some (.jumpPlus nnn)
  | 0xC => some (.random x kk)
  | 0xD => some (.draw x y n)
  | 0xE => ofKeys x (Opcode.kk op)
  | _ => ofDevices x (Opcode.kk op)

/-- Whether carrying out the instruction takes a random byte. -/
def isRandom : Instruction → Bool
  | random .. => true
  | _ => false

end Instruction

end Chip8
