import Chip8.Machine

/-!
# Chip8.Execution — carrying out one instruction

`Instruction.execute` changes the machine as the instruction says, or as far as the instruction
gets before something refuses it.  The program counter already points past the instruction.  An
instruction that saves or restores several cells does so one cell at a time and keeps what it has
done before the first refusal; every other refused instruction leaves the machine as it was.

Instructions that set `VF` as a flag write their result first, so the flag wins when the result
goes to `VF` as well; operands are read before anything is written.
-/

namespace Chip8

open Platform

/-- Why an instruction cannot be carried out. -/
inductive Fault where
  | memory (fault : MemoryFault)
  | stack (fault : StackFault)
  | keypad (fault : KeypadFault)
  | screen (fault : ScreenFault)
  /-- The opcode asks for nothing known. -/
  | unknownOpcode
  /-- There is no glyph for the content of the register. -/
  | noGlyph (digit : UInt8)
  /-- The delay timer holds a number that no register takes. -/
  | register (fault : CellFault)
  deriving DecidableEq

namespace Machine

/-- What an instruction leaves behind. -/
abbrev Outcome := Machine × Option Fault

/-- The instruction has been carried out. -/
abbrev done (m : Machine) : Outcome := (m, none)

/-- Passes over the next instruction if `condition` holds. -/
def skipIf (m : Machine) (condition : Prop) [Decidable condition] : Machine :=
  if condition then m.advance else m

/-- Puts a result into register `x` and then a flag into `VF`. -/
def setFlagged (m : Machine) (x : Reg) (result flag : UInt8) : Machine :=
  (m.setReg x result).setReg Reg.flag flag

/-- A flag: 1 if `condition` holds. -/
def flag (condition : Prop) [Decidable condition] : UInt8 := if condition then 1 else 0

/-! ## Sprites -/

/-- The columns of the bits that are set in a row of a sprite, the most significant being 0. -/
def spriteColumns (row : UInt8) : List Nat :=
  (List.range 8).filter fun c => row.toNat.testBit (7 - c)

/-- The points of a sprite whose rows lie at `left` and from `top` downwards. -/
def spritePoints (left top : Int) : List UInt8 → List (Int × Int)
  | [] => []
  | row :: rows =>
    (spriteColumns row).map (fun (c : Nat) => (left + c, top)) ++ spritePoints left (top + 1) rows

/-- Draws the `n` bytes at the index register as a sprite.  Its origin wraps around the screen;
the screen's edge mode decides about the rest.  `VF` tells whether a lit pixel went out. -/
def draw (m : Machine) (x y : Reg) (n : Nat) : Outcome :=
  let left := ((m.reg x).toNat : Int) % 64
  let top := ((m.reg y).toNat : Int) % 32
  match m.ram.readEach m.index n with
  | (_, some fault) => (m, some (.memory fault))
  | (rows, none) =>
    match m.screen.plot (spritePoints left top rows) with
    | (screen, _, some fault) => ({ m with screen }, some (.screen fault))
    | (screen, hit, none) => done ({ m with screen }.setReg Reg.flag (flag (hit = true)))

/-! ## Blocks of registers -/

/-- Stores bytes at the index register and after it. -/
def storeAtIndex (m : Machine) (bytes : List UInt8) : Outcome :=
  let r := m.ram.storeEach m.index bytes
  ({ m with ram := r.1 }, r.2.map .memory)

/-- Loads registers `V0` to `Vx` from the index register on. -/
def restore (m : Machine) (x : Reg) : Outcome :=
  let r := m.ram.readEach m.index (x.val + 1)
  ({ m with v := Cells.overwrite m.v 0 r.1 }, r.2.map .memory)

/-- The three decimal digits of a byte. -/
def decimalDigits (byte : UInt8) : List UInt8 := [byte / 100, byte / 10 % 10, byte % 10]

/-! ## Keys -/

/-- Passes over the next instruction if the state of the key named by register `x` is `down`. -/
def skipIfKey (m : Machine) (x : Reg) (down : Bool) : Outcome :=
  match m.keypad.isDown (m.reg x).toNat with
  | .error fault => (m, some (.keypad fault))
  | .ok isDown => done (m.skipIf (isDown = down))

end Machine

/-- Carries out an instruction; `byte` is the random byte for an instruction that takes one. -/
def Instruction.execute (i : Instruction) (byte : UInt8) (m : Machine) : Machine.Outcome :=
  match i with
  | native => m.done
  | clearScreen => { m with screen := m.screen.clear }.done
  | ret =>
    match m.stack.pop with
    | .error fault => (m, some (.stack fault))
    | .ok (pc, stack) => { m with pc, stack }.done
  | jump nnn => { m with pc := nnn }.done
  | call nnn =>
    match m.stack.push m.pc with
    | .error fault => (m, some (.stack fault))
    | .ok stack => { m with pc := nnn, stack }.done
  | skipIfByte x kk => (m.skipIf (m.reg x = kk)).done
  | skipUnlessByte x kk => (m.skipIf (¬ m.reg x = kk)).done
  | skipIfEqual x y => (m.skipIf (m.reg x = m.reg y)).done
  | skipUnlessEqual x y => (m.skipIf (¬ m.reg x = m.reg y)).done
  | loadByte x kk => (m.setReg x kk).done
  | addByte x kk => (m.setReg x (m.reg x + kk)).done
  | copy x y => (m.setReg x (m.reg y)).done
  | or x y => (m.setReg x (m.reg x ||| m.reg y)).done
  | and x y => (m.setReg x (m.reg x &&& m.reg y)).done
  | xor x y => (m.setReg x (m.reg x ^^^ m.reg y)).done
  | add x y =>
    let a := m.reg x
    let b := m.reg y
    (m.setFlagged x (a + b) (Machine.flag (255 < a.toNat + b.toNat))).done
  | subtract x y =>
    let a := m.reg x
    let b := m.reg y
    (m.setFlagged x (a - b) (Machine.flag (b.toNat < a.toNat))).done
  | shiftRight x => (m.setFlagged x (m.reg x / 2) (m.reg x % 2)).done
  | subtractFrom x y =>
    let a := m.reg x
    let b := m.reg y
    (m.setFlagged x (b - a) (Machine.flag (a.toNat < b.toNat))).done
  | shiftLeft x => (m.setFlagged x (m.reg x + m.reg x) (m.reg x / 128)).done
  | setIndex nnn => { m with index := nnn }.done
  | jumpPlus nnn => { m with pc := nnn + (m.reg Reg.first).toNat }.done
  | random x kk => (m.setReg x (byte &&& kk)).done
  | draw x y n => m.draw x y n
  | skipIfKey x => m.skipIfKey x true
  | skipUnlessKey x => m.skipIfKey x false
  | readDelay x =>
    match Cells.byte? m.delay with
    | .error fault => (m, some (.register fault))
    | .ok delay => (m.setReg x delay).done
  | awaitKey x =>
    match m.keypad.lowest? with
    | none => m.rewind.done
    | some key => (m.setReg x (UInt8.ofNat key.val)).done
  | setDelay x => { m with delay := (m.reg x).toNat }.done
  | setSound x => { m with sound := (m.reg x).toNat }.done
  | addIndex x => { m with index := (m.index + (m.reg x).toNat) % 0x10000 }.done
  | glyph x =>
    if 16 ≤ (m.reg x).toNat then (m, some (.noGlyph (m.reg x)))
    else { m with index := fontAddress + glyphSize * (m.reg x).toNat }.done
  | decimal x => m.storeAtIndex (Machine.decimalDigits (m.reg x))
  | save x => m.storeAtIndex (m.v.toList.take (x.val + 1))
  | restore x => m.restore x

end Chip8
