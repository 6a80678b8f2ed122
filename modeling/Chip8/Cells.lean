/-!
# Chip8.Cells — rows of cells

A cell is named by a signed index: counted from the start when it is not negative, from the end
when it is, so that `-1` names the last cell.  An index that no signed word of 64 bits holds is
refused before it is compared with the number of cells.  A cell of a row of bytes takes the numbers
`0` to `255` only; where both are wrong, the index is refused first.
-/

namespace Chip8

/-- Why a cell cannot be used. -/
inductive CellFault where
  | outOfBounds
  | indexTooWide
  | notAByte
  deriving DecidableEq

namespace CellFault

/-- The wording of a refusal. -/
def message : CellFault → String
  | outOfBounds => "index out of bounds on dimension 1"
  | indexTooWide => "cannot fit 'int' into an index-sized integer"
  | notAByte => "memoryview: invalid value for format 'B'"

end CellFault

namespace Cells

/-- An index that a signed word of 64 bits holds. -/
abbrev FitsWord (i : Int) : Prop := -0x8000000000000000 ≤ i ∧ i < 0x8000000000000000

/-- How far from the start the signed index `i` points. -/
def offset (count : Nat) (i : Int) : Int := if i < 0 then i + count else i

/-- The cell that `i` names among `count` cells. -/
def resolve (count : Nat) (i : Int) : Except CellFault (Fin count) :=
  if FitsWord i then
    if h : 0 ≤ offset count i ∧ offset count i < count then
      .ok ⟨(offset count i).toNat, by omega⟩
    else .error .outOfBounds
  else .error .indexTooWide

theorem resolve_of_bounds {n : Nat} {i : Int} (hfit : FitsWord i) (h0 : 0 ≤ i) (h : i < n) :
    resolve n i = .ok ⟨i.toNat, by omega⟩ := by
  have hoff : offset n i = i := by rw [offset, if_neg (by omega)]
  rw [resolve, if_pos hfit, dif_pos (by rw [hoff]; exact ⟨h0, h⟩)]
  simp only [hoff]

/-- The byte with that value. -/
def byte? (value : Int) : Except CellFault UInt8 :=
  if 0 ≤ value ∧ value < 256 then .ok (UInt8.ofNat value.toNat) else .error .notAByte

/-- Puts a number into the cell that `i` names. -/
def assign {n : Nat} (cells : Vector UInt8 n) (i value : Int) : Except CellFault (Vector UInt8 n) :=
  match resolve n i with
  | .error fault => .error fault
  | .ok k =>
    match byte? value with
    | .error fault => .error fault
    | .ok b => .ok (cells.set k b)

/-- Writes `bytes` over the cells from `start` on, as far as there are cells. -/
def overwrite {n : Nat} (cells : Vector UInt8 n) (start : Nat) : List UInt8 → Vector UInt8 n
  | [] => cells
  | b :: bytes => overwrite (cells.setIfInBounds start b) (start + 1) bytes

end Cells

end Chip8
