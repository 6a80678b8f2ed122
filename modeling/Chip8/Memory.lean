import Chip8.Cells
import Chip8.Text.Numeral

/-!
# Chip8.Memory — a bank of bytes with checked accesses

A bank of `size` bytes.  Reads and writes of one byte or of a block are refused unless they lie
inside the bank; an access never wraps around silently.  Zeroing a block is the exception: it
checks the last address of the block only, and its cells are named by signed indices, so that a
block with a negative start reaches the cells at the other end.
-/

namespace Chip8

/-- Why a memory cannot be made, or an access to it is refused. -/
inductive MemoryFault where
  /-- No signed word of 64 bits holds the number of cells. -/
  | tooLarge
  /-- There is no room for so many cells. -/
  | noRoom
  /-- The address is not one of `0` to `top`. -/
  | outside (address top : Int)
  /-- The cell itself refuses: its index names none, or the value is no byte. -/
  | cell (fault : CellFault)
  deriving DecidableEq

namespace MemoryFault

/-- The wording of a refusal. -/
def message : MemoryFault → String
  | tooLarge => CellFault.indexTooWide.message
  | noRoom => ""
  | outside address top =>
    "Memory access at 0x" ++ Numeral.hex 4 address ++ " is outside 0x000-0x" ++ Numeral.hex 3 top
  | cell fault => fault.message

end MemoryFault

/-- A bank of `size` bytes; one of negative size has no cell. -/
structure Memory (size : Int) where
  cells : Vector UInt8 size.toNat

namespace Memory

variable {size : Int}

/-- The addresses of a bank. -/
abbrev Inside (size address : Int) : Prop := 0 ≤ address ∧ address < size

/-- A bank of zeros. -/
def blank (size : Int) : Memory size := ⟨Vector.replicate size.toNat 0⟩

/-- A bank of zeros of any size, where no more than `room` bytes can be had at once. -/
def create (room size : Int) : Except MemoryFault (Memory size) :=
  if ¬ Cells.FitsWord size then .error .tooLarge
  else if room < size then .error .noRoom
  else .ok (blank size)

/-- The refusal of an address outside the bank. -/
def refusal (size address : Int) : MemoryFault := .outside address (size - 1)

/-- Answers whether an address may be accessed. -/
def check (_ : Memory size) (address : Int) : Except MemoryFault Unit :=
  if Inside size address then .ok () else .error (refusal size address)

/-! ## Single bytes -/

/-- The byte at `address`. -/
def read (m : Memory size) (address : Int) : Except MemoryFault UInt8 :=
  if h : Inside size address then
    have : address.toNat < size.toNat := by omega
    .ok m.cells[address.toNat]
  else .error (refusal size address)

/-- Puts a byte at `address`. -/
def store (m : Memory size) (address : Int) (byte : UInt8) : Except MemoryFault (Memory size) :=
  if h : Inside size address then
    have : address.toNat < size.toNat := by omega
    .ok ⟨m.cells.set address.toNat byte⟩
  else .error (refusal size address)

/-- Puts a number at `address`; the address is checked before the number. -/
def write (m : Memory size) (address value : Int) : Except MemoryFault (Memory size) :=
  match m.check address with
  | .error fault => .error fault
  | .ok () =>
    match Cells.byte? value with
    | .error fault => .error (.cell fault)
    | .ok b => m.store address b

/-! ## Blocks -/

/-- The `count` bytes from `address` on; none when `count` is not positive.  The first address is
checked, and then the last. -/
def readBlock (m : Memory size) (address count : Int) : Except MemoryFault (List UInt8) :=
  if Inside size address then
    if Inside size (address + count - 1) then
      .ok (m.cells.toArray.extract address.toNat (address + count).toNat).toList
    else .error (refusal size (address + count - 1))
  else .error (refusal size address)

/-- Puts `block` at `address` and after it.  The first address is checked, and then the last. -/
def writeBlock (m : Memory size) (address : Int) (block : List UInt8) :
    Except MemoryFault (Memory size) :=
  if Inside size address then
    if Inside size (address + block.length - 1) then
      .ok ⟨Cells.overwrite m.cells address.toNat block⟩
    else .error (refusal size (address + block.length - 1))
  else .error (refusal size address)

/-! ## One byte after another

These stop at the first address outside the bank and keep what was done before it. -/

/-- Stores bytes from `address` on, up to the first that falls outside. -/
def storeEach (m : Memory size) (address : Int) : List UInt8 → Memory size × Option MemoryFault
  | [] => (m, none)
  | b :: bytes =>
    match m.store address b with
    | .ok m => m.storeEach (address + 1) bytes
    | .error fault => (m, some fault)

/-- Reads `count` bytes from `address` on, up to the first that falls outside. -/
def readEach (m : Memory size) (address : Int) : Nat → List UInt8 × Option MemoryFault
  | 0 => ([], none)
  | count + 1 =>
    match m.read address with
    | .ok b =>
      let rest := m.readEach (address + 1) count
      (b :: rest.1, rest.2)
    | .error fault => ([], some fault)

/-! ## Zeroing -/

/-- Zeroes `count` cells from the signed index `i` on, up to the first index that names none. -/
def zeroFrom (m : Memory size) (i : Int) : Nat → Memory size × Option MemoryFault
  | 0 => (m, none)
  | count + 1 =>
    match Cells.resolve size.toNat i with
    | .ok k => zeroFrom ⟨m.cells.set k 0⟩ (i + 1) count
    | .error fault => (m, some (.cell fault))

/-- Zeroes the `count` cells from `start` on.  Only the last address is checked beforehand. -/
def zeroBlock (m : Memory size) (start count : Int) : Memory size × Option MemoryFault :=
  if Inside size (start + count - 1) then m.zeroFrom start count.toNat
  else (m, some (refusal size (start + count - 1)))

/-- Zeroes the whole bank. -/
def clear (m : Memory size) : Memory size × Option MemoryFault := m.zeroBlock 0 size

end Memory

end Chip8
