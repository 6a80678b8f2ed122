import Chip8.Execution
import Chip8.Proofs.Bytes
import Chip8.Proofs.Plotting

/-!
# Chip8.Proofs.Sprites — what drawing a sprite does

The points of a sprite are those of the bits that are set in its rows (`mem_spritePoints`).  Drawing
is refused when a row lies outside the memory, or else when a point overruns the screen
(`Overdraws`); a refused drawing leaves the machine as it was, and any other plots all the points
(`draw_cases`).
-/

namespace Chip8

namespace Machine

variable {m : Machine} {x y : Reg} {n : Nat}

/-! ## Points -/

theorem mem_spriteColumns {row : UInt8} {c : Nat} :
    c ∈ spriteColumns row ↔ c < 8 ∧ row.toNat.testBit (7 - c) = true := by
  rw [spriteColumns, List.mem_filter, List.mem_range]

theorem mem_spritePoints {left top : Int} {rows : List UInt8} {p : Int × Int} :
    p ∈ spritePoints left top rows ↔
      ∃ r c : Nat, ∃ row, rows[r]? = some row ∧ c < 8 ∧ row.toNat.testBit (7 - c) = true ∧
        p = (left + c, top + r) := by
  induction rows generalizing top with
  | nil => simp [spritePoints]
  | cons row rows ih =>
    rw [spritePoints, List.mem_append, List.mem_map, ih]
    constructor
    · rintro (⟨c, hc, rfl⟩ | ⟨r, c, row', hrow, hc, hbit, rfl⟩)
      · obtain ⟨hlt, hbit⟩ := mem_spriteColumns.mp hc
        exact ⟨0, c, row, rfl, hlt, hbit, by simp⟩
      · refine ⟨r + 1, c, row', by rw [List.getElem?_cons_succ]; exact hrow, hc, hbit, ?_⟩
        rw [Int.natCast_succ, Int.add_assoc, Int.add_comm 1]
    · rintro ⟨r, c, row', hrow, hc, hbit, rfl⟩
      cases r with
      | zero =>
        cases hrow
        exact Or.inl ⟨c, mem_spriteColumns.mpr ⟨hc, hbit⟩, by simp⟩
      | succ r =>
        rw [List.getElem?_cons_succ] at hrow
        refine Or.inr ⟨r, c, row', hrow, hc, hbit, ?_⟩
        rw [Int.natCast_succ, Int.add_assoc, Int.add_comm 1]

/-- The rows of the sprite at the index register. -/
def sprite (m : Machine) (n : Nat) : List UInt8 :=
  (List.range n).map fun r : Nat => m.ram.byteAt (m.index + r)

/-- The points of the sprite at the index register, its origin wrapped around the screen. -/
def points (m : Machine) (x y : Reg) (n : Nat) : List (Int × Int) :=
  spritePoints (((m.reg x).toNat : Int) % 64) (((m.reg y).toNat : Int) % 32) (m.sprite n)

theorem mem_points {p : Int × Int} :
    p ∈ m.points x y n ↔
      ∃ r c : Nat, r < n ∧ c < 8 ∧
        (m.ram.byteAt (m.index + r)).toNat.testBit (7 - c) = true ∧
        p = (((m.reg x).toNat : Int) % 64 + c, ((m.reg y).toNat : Int) % 32 + r) := by
  rw [points, mem_spritePoints]
  constructor
  · rintro ⟨r, c, row, hrow, hc, hbit, hp⟩
    rw [sprite, List.getElem?_map, Option.map_eq_some_iff] at hrow
    obtain ⟨k, hk, rfl⟩ := hrow
    obtain ⟨hlt, rfl⟩ := List.getElem?_eq_some_iff.mp hk
    rw [List.getElem_range] at hbit
    exact ⟨r, c, by simpa using hlt, hc, hbit, hp⟩
  · rintro ⟨r, c, hr, hc, hbit, hp⟩
    refine ⟨r, c, m.ram.byteAt (m.index + r), ?_, hc, hbit, hp⟩
    rw [sprite, List.getElem?_map, List.getElem?_range hr]
    rfl

/-- Some bit of the sprite lies past the last row of a screen that neither clips nor wraps. -/
def Overdraws (m : Machine) (x y : Reg) (n : Nat) : Prop :=
  m.screen.edge = .linear ∧
    ∃ r c : Nat, r < n ∧ c < 8 ∧ (m.ram.byteAt (m.index + r)).toNat.testBit (7 - c) = true ∧
      2048 ≤ ((m.reg y).toNat % 32 + r) * 64 + (m.reg x).toNat % 64 + c

theorem exists_overruns_iff :
    (∃ p ∈ m.points x y n, m.screen.Overruns p.1 p.2) ↔ m.Overdraws x y n := by
  constructor
  · rintro ⟨p, hp, hedge, hpast⟩
    obtain ⟨r, c, hr, hc, hbit, rfl⟩ := mem_points.mp hp
    exact ⟨hedge, r, c, hr, hc, hbit, by omega⟩
  · rintro ⟨hedge, r, c, hr, hc, hbit, hpast⟩
    exact ⟨_, mem_points.mpr ⟨r, c, hr, hc, hbit, rfl⟩, hedge, by simp only; omega⟩

/-- No bit of a sprite has a negative coordinate. -/
theorem admits_points (m : Machine) (x y : Reg) (n : Nat) :
    ∀ p ∈ m.points x y n, m.screen.Admits p.1 p.2 := by
  intro p hp
  obtain ⟨r, c, -, -, -, rfl⟩ := mem_points.mp hp
  exact Or.inr ⟨by simp only; omega, by simp only; omega⟩

/-! ## Drawing -/

/-- The rows of the sprite all lie in the memory. -/
def SpriteInside (m : Machine) (n : Nat) : Prop := n = 0 ∨ m.index + n ≤ 0x1000

theorem readEach_sprite (hi : 0 ≤ m.index) (h : m.SpriteInside n) :
    m.ram.readEach m.index n = (m.sprite n, none) := by
  refine Prod.ext ?_ ?_
  · rw [Memory.readEach_bytes _ hi, sprite]
    rcases h with rfl | h
    · simp
    · rw [Nat.min_eq_left (by omega)]
  · rw [Memory.readEach_fault _ hi]
    exact if_pos h

/-- A drawing is refused by the memory, refused by the screen, or done; the machine changes only
in the last case. -/
theorem draw_cases (hi : 0 ≤ m.index) :
    (¬ m.SpriteInside n ∧
      m.draw x y n = (m, some (.memory (Memory.refusal 0x1000 (max m.index 0x1000))))) ∨
    (m.SpriteInside n ∧ m.Overdraws x y n ∧
      ∃ px py, m.draw x y n = (m, some (.screen (.outside px py 64 32)))) ∨
    (m.SpriteInside n ∧ ¬ m.Overdraws x y n ∧
      ∃ screen hit, m.screen.plot (m.points x y n) = (screen, hit, none) ∧
        m.draw x y n = done ({ m with screen }.setReg Reg.flag (flag (hit = true)))) := by
  by_cases hin : m.SpriteInside n
  · right
    have hread := readEach_sprite hi hin
    rcases Screen.plot_cases (by unfold Screen.Fits; decide) (by decide) (by decide)
        (admits_points m x y n) with
      ⟨hover, px, py, hplot⟩ | ⟨hover, screen, hit, hplot, -⟩
    · refine Or.inl ⟨hin, exists_overruns_iff.mp hover, px, py, ?_⟩
      rw [points] at hplot
      rw [draw, hread]
      simp only [hplot]
    · have hno : ¬ m.Overdraws x y n := by
        intro hdraws
        obtain ⟨p, hp, hpast⟩ := exists_overruns_iff.mpr hdraws
        exact hover p hp hpast
      refine Or.inr ⟨hin, hno, screen, hit, hplot, ?_⟩
      rw [points] at hplot
      rw [draw, hread]
      simp only [hplot]
  · refine Or.inl ⟨hin, ?_⟩
    have hfault := (m.ram.readEach_fault hi n).trans (if_neg hin)
    rw [draw]
    split
    · rename_i fault hread
      rw [hread] at hfault
      cases hfault
      rfl
    · rename_i hread
      rw [hread] at hfault
      cases hfault

end Machine

end Chip8
