import Chip8.Proofs.Bytes

/-!
# Chip8.Proofs.Zeroing — which blocks are zeroed by the rule of the bank

The rule of the bank is that an access outside is refused, and that nothing changes then (`Ruled`).
Zeroing checks the last address of its block only, and names its cells by signed indices.  A block
that starts below zero and ends inside the bank is therefore not refused by that check: its negative
indices name cells at the far end, which are zeroed too, or they name nothing, and then the cell
itself refuses (`ZeroOutcome`).  These blocks are the only ones for which the rule fails
(`zeroBlock_ruled_iff`).
-/

namespace Chip8

namespace Memory

variable {size start count : Int} {m m' : Memory size}

/-- All cells of the block are in the bank. -/
def Contains (size start count : Int) : Prop := 0 ≤ start ∧ start + count ≤ size

/-- The block starts below zero and ends inside the bank. -/
def Straddles (size start count : Int) : Prop := start < 0 ∧ Inside size (start + count - 1)

/-- `m'` has zeros at these addresses, and is otherwise `m`. -/
structure Zeroed (cells : Int → Prop) (m m' : Memory size) : Prop where
  zero : ∀ a, cells a → m'.byteAt a = 0
  kept : ∀ a, ¬ cells a → m'.byteAt a = m.byteAt a

/-- What the rule of the bank asks for: a block in the bank is zeroed, and any other is refused as
lying outside, without effect. -/
inductive Ruled (m : Memory size) (start count : Int) : Memory size × Option MemoryFault → Prop
  | zeroed {m' : Memory size} (hin : Contains size start count)
      (hzero : Zeroed (fun a => start ≤ a ∧ a < start + count) m m') :
      Ruled m start count (m', none)
  | refused {address top : Int} (hout : ¬ Contains size start count) :
      Ruled m start count (m, some (.outside address top))

/-- What zeroing a block comes to. -/
inductive ZeroOutcome (m : Memory size) (start count : Int) :
    Memory size × Option MemoryFault → Prop
  | zeroed {m' : Memory size} (hin : Contains size start count)
      (hzero : Zeroed (fun a => start ≤ a ∧ a < start + count) m m') :
      ZeroOutcome m start count (m', none)
  | refused (hend : ¬ Inside size (start + count - 1)) :
      ZeroOutcome m start count (m, some (.outside (start + count - 1) (size - 1)))
  | wrapped {m' : Memory size} (hacross : Straddles size start count) (hstart : -size ≤ start)
      (hzero : Zeroed (fun a => a < start + count ∨ size + start ≤ a) m m') :
      ZeroOutcome m start count (m', none)
  | unnamed (hacross : Straddles size start count) (hstart : start < -size) :
      ZeroOutcome m start count
        (m, some (.cell (if Cells.FitsWord start then .outOfBounds else .indexTooWide)))

/-! ## Blocks that end inside -/

/-- Indices that all name cells: the block of the bank that they number, and the block that lies the
whole size of the bank further on, as far as the bank goes. -/
theorem zeroed_of_named (m : Memory size) {count : Nat} (hfit : Cells.FitsWord size)
    (hstart : -size ≤ start) (hend : start + count ≤ size) :
    ∃ m', m.zeroFrom start count = (m', none) ∧ Zeroed (fun a => start ≤ a ∧ a < start + count ∨
      size + start ≤ a ∧ a < size + start + count) m m' := by
  obtain ⟨hnone, hbyte⟩ := m.zeroFrom_of_named hfit hstart hend
  refine ⟨_, Prod.ext rfl hnone, ?_, ?_⟩
  · intro a ha
    rw [hbyte, if_pos ha]
  · intro a ha
    rw [hbyte, if_neg ha]

/-- Only addresses inside matter to what is zeroed. -/
theorem Zeroed.congr {cells cells' : Int → Prop} (h : Zeroed cells m m')
    (hcells : ∀ a, Inside size a → (cells a ↔ cells' a)) : Zeroed cells' m m' := by
  refine ⟨fun a ha => ?_, fun a ha => ?_⟩
  · by_cases hin : Inside size a
    · exact h.zero a ((hcells a hin).mpr ha)
    · exact m'.byteAt_of_outside hin
  · by_cases hin : Inside size a
    · exact h.kept a (fun hcell => ha ((hcells a hin).mp hcell))
    · rw [m'.byteAt_of_outside hin, m.byteAt_of_outside hin]

/-- An index that lies too far below zero names no cell, and the block ends there. -/
theorem zeroFrom_of_unnamed (m : Memory size) (hsize : 0 ≤ size) (hstart : start < -size)
    (count : Nat) : m.zeroFrom start (count + 1) =
      (m, some (.cell (if Cells.FitsWord start then .outOfBounds else .indexTooWide))) := by
  have hneg : Cells.offset size.toNat start < 0 := by
    rw [Cells.offset, if_pos (by omega)]
    omega
  have hcell : ¬ (0 ≤ Cells.offset size.toNat start ∧ Cells.offset size.toNat start < size.toNat) :=
    fun hbounds => absurd hbounds.1 (Int.not_le.mpr hneg)
  rw [zeroFrom, Cells.resolve]
  by_cases hword : Cells.FitsWord start
  · rw [if_pos hword, dif_neg hcell, if_pos hword]
  · rw [if_neg hword, if_neg hword]

theorem zeroBlock_outcome (hfit : Cells.FitsWord size) (m : Memory size) (hcount : 1 ≤ count) :
    ZeroOutcome m start count (m.zeroBlock start count) := by
  unfold zeroBlock
  by_cases hend : Inside size (start + count - 1)
  · rw [if_pos hend]
    obtain ⟨k, rfl⟩ : ∃ k : Nat, count = (k + 1 : Nat) := ⟨(count - 1).toNat, by omega⟩
    rw [Int.toNat_natCast]
    by_cases hstart : start < -size
    · rw [m.zeroFrom_of_unnamed (by omega) hstart]
      exact .unnamed ⟨by omega, hend⟩ hstart
    · have hlast : start + (k + 1 : Nat) ≤ size := by omega
      obtain ⟨m', hdone, hzero⟩ := m.zeroed_of_named hfit (by omega) hlast
      rw [hdone]
      by_cases hneg : start < 0
      · exact .wrapped ⟨hneg, hend⟩ (by omega) (hzero.congr fun a ha => by omega)
      · exact .zeroed ⟨by omega, by omega⟩ (hzero.congr fun a ha => by omega)
  · rw [if_neg hend]
    exact .refused hend

/-! ## The rule -/

theorem ZeroOutcome.ruled_iff {r : Memory size × Option MemoryFault} (hcount : 1 ≤ count)
    (h : ZeroOutcome m start count r) : Ruled m start count r ↔ ¬ Straddles size start count := by
  cases h with
  | zeroed hin hzero =>
    refine iff_of_true (.zeroed hin hzero) ?_
    rintro ⟨hneg, -⟩
    exact absurd hin.1 (Int.not_le.mpr hneg)
  | refused hend =>
    refine iff_of_true (.refused ?_) fun hacross => hend hacross.2
    rintro ⟨hstart, hlast⟩
    omega
  | wrapped hacross hstart hzero =>
    refine iff_of_false ?_ (not_not.mpr hacross)
    intro hruled
    cases hruled with
    | zeroed hin _ => exact absurd hin.1 (Int.not_le.mpr hacross.1)
  | unnamed hacross hstart =>
    refine iff_of_false ?_ (not_not.mpr hacross)
    intro hruled
    cases hruled

/-- **Zeroing and the rule of the bank.**  In a bank whose size a word holds, zeroing a block
follows the rule unless the block starts below zero and ends inside.  What becomes of such a block,
and which address any other refusal names, is told by the outcome. -/
theorem zeroBlock_ruled_iff (hfit : Cells.FitsWord size) (m : Memory size) (hcount : 1 ≤ count) :
    (Ruled m start count (m.zeroBlock start count) ↔ ¬ Straddles size start count) ∧
      ZeroOutcome m start count (m.zeroBlock start count) := by
  have houtcome : ZeroOutcome m start count (m.zeroBlock start count) :=
    zeroBlock_outcome hfit m hcount
  exact ⟨houtcome.ruled_iff hcount, houtcome⟩

/-- A bank of five cells. -/
def fiveCells : Memory 5 := ⟨#v[0xFC, 0xFD, 0xFE, 0xFF, 0x0A]⟩

/-- Two cells in the middle are zeroed by the rule. -/
theorem zeroBlock_ruled_iff_of_five :
    (Cells.FitsWord 5 ∧ (1 : Int) ≤ 2) ∧
    (Ruled fiveCells 1 2 (fiveCells.zeroBlock 1 2) ↔ ¬ Straddles 5 1 2) ∧
    ZeroOutcome fiveCells 1 2 (fiveCells.zeroBlock 1 2) ∧
    fiveCells.zeroBlock 1 2 = (⟨#v[0xFC, 0, 0, 0xFF, 0x0A]⟩, none) := by
  have hfit : Cells.FitsWord 5 := by decide
  have hcount : (1 : Int) ≤ 2 := by decide
  obtain ⟨hruled, houtcome⟩ := zeroBlock_ruled_iff hfit fiveCells hcount
  exact ⟨⟨hfit, hcount⟩, hruled, houtcome, rfl⟩

/-- A block that starts in front of the first cell is not refused: the last cell is zeroed. -/
theorem zeroBlock_wraps_around :
    fiveCells.zeroBlock (-1) 2 = (⟨#v[0, 0xFD, 0xFE, 0xFF, 0]⟩, none) ∧
      ¬ Contains 5 (-1) 2 ∧ ¬ Ruled fiveCells (-1) 2 (fiveCells.zeroBlock (-1) 2) := by
  have hdone : fiveCells.zeroBlock (-1) 2 = (⟨#v[0, 0xFD, 0xFE, 0xFF, 0]⟩, none) := rfl
  have hout : ¬ Contains 5 (-1) 2 := by
    rintro ⟨hstart, -⟩
    omega
  refine ⟨hdone, hout, ?_⟩
  rw [hdone]
  intro hruled
  cases hruled with
  | zeroed hin _ => exact hout hin

end Memory

end Chip8
