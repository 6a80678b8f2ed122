import Chip8.Proofs.Bounds
import Mathlib.Data.List.Nodup

/-!
# Chip8.Proofs.Drawing — which pixels a sprite flips

In every edge mode the set bits of a sprite go to different pixels (`nodup_spots`).  So a drawing
that is not refused flips exactly these pixels (`draw_done_iff`), and a step that draws succeeds
unless a bit overruns the screen (`step_draw_cases`); `VF` then tells whether the sprite met a lit
pixel (`step_flag_iff`).  It does not matter how the opcode comes to be carried out
(`Executed.drawing`).
-/

namespace Chip8

namespace Machine

variable {m : Machine} {x y : Reg} {n : Nat} {k : Int}

theorem nodup_spritePoints (left top : Int) (rows : List UInt8) :
    (spritePoints left top rows).Nodup := by
  induction rows generalizing top with
  | nil => exact List.nodup_nil
  | cons row rows ih =>
    have hcolumns : (spriteColumns row).Nodup := List.nodup_range.filter _
    have hrow : ((spriteColumns row).map fun c : Nat => (left + c, top)).Nodup := by
      refine hcolumns.map fun c c' hc => ?_
      simp only [Prod.mk.injEq] at hc
      omega
    rw [spritePoints]
    refine List.nodup_append.mpr ⟨hrow, ih (top + 1), ?_⟩
    -- the rows below lie below
    rintro p hp q hq rfl
    obtain ⟨c, -, rfl⟩ := List.mem_map.mp hp
    obtain ⟨r, c', row', -, -, -, hp⟩ := mem_spritePoints.mp hq
    simp only [Prod.mk.injEq] at hp
    omega

/-! ## Bits and pixels -/

/-- Where the edge mode puts the set bits of the sprite at the index register. -/
def spots (m : Machine) (x y : Reg) (n : Nat) : List Int := m.screen.spots (m.points x y n)

theorem mem_spots :
    k ∈ m.spots x y n ↔
      ∃ r c : Nat, r < n ∧ c < 8 ∧
        (m.ram.byteAt (m.index + r)).toNat.testBit (7 - c) = true ∧
        m.screen.spot? (((m.reg x).toNat : Int) % 64 + c) (((m.reg y).toNat : Int) % 32 + r) =
          some k := by
  rw [spots, Screen.spots, List.mem_filterMap]
  constructor
  · rintro ⟨p, hp, hk⟩
    obtain ⟨r, c, hr, hc, hbit, rfl⟩ := mem_points.mp hp
    exact ⟨r, c, hr, hc, hbit, hk⟩
  · rintro ⟨r, c, hr, hc, hbit, hk⟩
    exact ⟨_, mem_points.mpr ⟨r, c, hr, hc, hbit, rfl⟩, hk⟩

/-- Bits that go to the same pixel are the same bit, in a sprite of at most 32 rows. -/
theorem spot_inj {s : Screen 64 32} {left top : Int} {r c r' c' : Nat}
    (hr : r < 32) (hr' : r' < 32) (hc : c < 8) (hc' : c' < 8)
    (h : s.spot? (left + c) (top + r) = some k)
    (h' : s.spot? (left + c') (top + r') = some k) : r = r' ∧ c = c' := by
  unfold Screen.spot? at h h'
  cases hedge : s.edge with
  | linear =>
    simp only [hedge, Option.some.injEq] at h h'
    omega
  | clip =>
    simp only [hedge, Option.ite_none_right_eq_some, Option.some.injEq] at h h'
    omega
  | wrap =>
    simp only [hedge, Option.some.injEq] at h h'
    omega

theorem nodup_spots (hn : n ≤ 32) : (m.spots x y n).Nodup := by
  unfold spots Screen.spots
  rw [List.Nodup, List.pairwise_filterMap]
  refine (nodup_spritePoints _ _ _).imp_of_mem ?_
  intro p q hp hq hpq k hk k' hk' hkk
  obtain ⟨r, c, hr, hc, -, rfl⟩ := mem_points.mp hp
  obtain ⟨r', c', hr', hc', -, rfl⟩ := mem_points.mp hq
  rw [hkk] at hk
  obtain ⟨rfl, rfl⟩ := spot_inj (by omega) (by omega) hc hc' hk hk'
  exact hpq rfl

/-- A drawing that is not refused flips the pixels of the set bits. -/
theorem draw_drawn (hi : 0 ≤ m.index) (hn : n ≤ 32) (hin : m.SpriteInside n)
    (hno : ¬ m.Overdraws x y n) :
    ∃ screen hit, Screen.Drawn m.screen (m.spots x y n) screen hit ∧
      m.draw x y n = done ({ m with screen }.setReg Reg.flag (flag (hit = true))) := by
  rcases draw_cases (x := x) (y := y) (n := n) hi with
    ⟨hout, -⟩ | ⟨-, hover, -⟩ | ⟨-, -, screen, hit, hplot, hdraw⟩
  · exact absurd hin hout
  · exact absurd hover hno
  · rcases Screen.plot_cases (by unfold Screen.Fits; decide) (by decide) (by decide)
      (admits_points m x y n) with ⟨hover, -⟩ | ⟨-, screen', hit', hplot', hdrawn⟩
    · exact absurd (exists_overruns_iff.mp hover) hno
    · rw [hplot] at hplot'
      cases hplot'
      exact ⟨screen, hit, hdrawn (nodup_spots hn), hdraw⟩

/-! ## Drawings that succeed -/

theorem flag_eq_one_iff (p : Prop) [Decidable p] : flag p = 1 ↔ p := by
  unfold flag
  split_ifs with h
  · exact iff_of_true rfl h
  · exact iff_of_false (by decide) h

theorem flag_eq_zero_iff (p : Prop) [Decidable p] : flag p = 0 ↔ ¬ p := by
  unfold flag
  split_ifs with h
  · exact iff_of_false (by decide) (not_not.mpr h)
  · exact iff_of_true rfl h

/-- Nothing refuses the drawing. -/
def Drawable (m : Machine) (x y : Reg) (n : Nat) : Prop := m.SpriteInside n ∧ ¬ m.Overdraws x y n

/-- The pixels that an opcode flips if it draws. -/
def spotsOf (m : Machine) (op : Int) : List Int :=
  m.spots (Opcode.x op) (Opcode.y op) (Opcode.n op)

/-- Nothing refuses the drawing that an opcode asks for. -/
def CanDraw (m : Machine) (op : Int) : Prop :=
  m.Drawable (Opcode.x op) (Opcode.y op) (Opcode.n op)

/-- The pixels `ks` have been flipped, and `VF` tells whether a lit one was among them; the other
registers and what else a drawing goes by are as they were. -/
structure Flipped (ks : List Int) (m m' : Machine) : Prop where
  picture : ∃ hit, Screen.Drawn m.screen ks m'.screen hit ∧ m'.reg Reg.flag = flag (hit = true)
  registers : ∀ r, r ≠ Reg.flag → m'.reg r = m.reg r
  memory : m'.ram = m.ram
  index : m'.index = m.index

theorem flipped_of_drawn {ks : List Int} {screen : Screen 64 32} {hit : Bool}
    (h : Screen.Drawn m.screen ks screen hit) :
    Flipped ks m ({ m with screen }.setReg Reg.flag (flag (hit = true))) where
  picture := ⟨hit, h, by rw [reg_setReg, if_pos rfl]⟩
  registers := by
    intro r hr
    rw [reg_setReg, if_neg hr]
    rfl
  memory := rfl
  index := rfl

/-- A drawing succeeds if nothing refuses it, and has then flipped the pixels of the set bits. -/
theorem draw_done_iff (hi : 0 ≤ m.index) (hn : n ≤ 32) :
    ((m.draw x y n).2 = none ↔ m.Drawable x y n) ∧
      ((m.draw x y n).2 = none → Flipped (m.spots x y n) m (m.draw x y n).1) := by
  rcases draw_cases (x := x) (y := y) (n := n) hi with
    ⟨hout, hdraw⟩ | ⟨hin, hover, px, py, hdraw⟩ | ⟨hin, hno, -⟩
  · rw [hdraw]
    exact ⟨iff_of_false (Option.some_ne_none _) fun h => hout h.1, fun h => by cases h⟩
  · rw [hdraw]
    exact ⟨iff_of_false (Option.some_ne_none _) fun h => h.2 hover, fun h => by cases h⟩
  · obtain ⟨screen, hit, hdrawn, hdraw⟩ := draw_drawn hi hn hin hno
    rw [hdraw]
    exact ⟨iff_of_true rfl ⟨hin, hno⟩, fun _ => flipped_of_drawn hdrawn⟩

end Machine

/-! ## The step that draws -/

namespace Cpu

variable {ρ : Type} {c : Cpu ρ} {k : Int}

/-- The next step draws a sprite whose rows lie in the memory. -/
structure AtSprite (c : Cpu ρ) : Prop where
  bounded : c.machine.Bounded
  running : c.halt = none
  inside : c.machine.pc ≤ 0xFFE
  family : Opcode.family c.machine.word = 0xD
  rows : c.machine.SpriteInside (Opcode.n c.machine.word)

/-- Where the edge mode puts the set bits of the sprite that is drawn next. -/
def spots (c : Cpu ρ) : List Int :=
  c.machine.spots (Opcode.x c.machine.word) (Opcode.y c.machine.word) (Opcode.n c.machine.word)

/-- Some bit of the sprite that is drawn next overruns the screen. -/
def Overdraws (c : Cpu ρ) : Prop :=
  c.machine.Overdraws (Opcode.x c.machine.word) (Opcode.y c.machine.word)
    (Opcode.n c.machine.word)

/-- The processor when it has drawn. -/
def afterDrawing (c : Cpu ρ) (screen : Screen 64 32) (hit : Bool) : Cpu ρ :=
  { c.fetched with
    machine := { c.fetched.machine with screen }.setReg Reg.flag (Machine.flag (hit = true)) }

theorem flag_afterDrawing (c : Cpu ρ) (screen : Screen 64 32) (hit : Bool) :
    (c.afterDrawing screen hit).machine.reg Reg.flag = Machine.flag (hit = true) :=
  Vector.getElem_set_self _

variable [ByteSource ρ]

/-- A bit overruns the screen and the step fails, or the pixels of the set bits are flipped. -/
theorem step_draw_cases (h : c.AtSprite) :
    (c.Overdraws ∧ c.step.error ≠ none) ∨
    (¬ c.Overdraws ∧
      ∃ screen hit, Screen.Drawn c.machine.screen c.spots screen hit ∧
        c.step = ⟨c.afterDrawing screen hit, c.fetched.trace, none⟩) := by
  let x := Opcode.x c.machine.word
  let y := Opcode.y c.machine.word
  let n := Opcode.n c.machine.word
  have hi : (Instruction.draw x y n).Encodes c.machine.word := ⟨h.family, rfl, rfl, rfl⟩
  have hn : n < 16 := Opcode.n_lt c.machine.word
  have hcarry : c.fetched.carryOut (.draw x y n) =
      ({ c.fetched with machine := (c.fetched.machine.draw x y n).1 },
        (c.fetched.machine.draw x y n).2) := rfl
  have hstep := step_of_encodes h.running h.bounded.pc.1 h.inside hi
  rw [hcarry] at hstep
  by_cases hover : c.Overdraws
  · refine Or.inl ⟨hover, ?_⟩
    rcases Machine.draw_cases (m := c.fetched.machine) (x := x) (y := y) (n := n)
        h.bounded.index.1 with
      ⟨hout, -⟩ | ⟨-, -, px, py, hdraw⟩ | ⟨-, hno, -⟩
    · exact absurd h.rows hout
    · rw [hdraw] at hstep
      rw [hstep]
      exact failStep_error _ _ _
    · exact absurd hover hno
  · obtain ⟨screen, hit, hdrawn, hdraw⟩ :=
      Machine.draw_drawn (m := c.fetched.machine) h.bounded.index.1 (by omega) h.rows hover
    rw [hdraw] at hstep
    exact Or.inr ⟨hover, screen, hit, hdrawn, hstep⟩

theorem step_error_iff (h : c.AtSprite) : c.step.error = none ↔ ¬ c.Overdraws := by
  rcases step_draw_cases h with ⟨hover, hfails⟩ | ⟨hno, screen, hit, -, hstep⟩
  · exact iff_of_false hfails (not_not.mpr hover)
  · rw [hstep]
    exact iff_of_true rfl hno

/-- What a successful drawing leaves. -/
theorem step_drawn (h : c.AtSprite) (he : c.step.error = none) :
    ∃ screen hit, Screen.Drawn c.machine.screen c.spots screen hit ∧
      c.step = ⟨c.afterDrawing screen hit, c.fetched.trace, none⟩ := by
  rcases step_draw_cases h with ⟨-, hfails⟩ | ⟨-, hdrawn⟩
  · exact absurd he hfails
  · exact hdrawn

/-- `VF` tells whether the sprite met a lit pixel. -/
theorem step_flag_iff (h : c.AtSprite) (he : c.step.error = none) :
    c.step.cpu.machine.reg Reg.flag = 1 ↔ ∃ k ∈ c.spots, c.machine.screen.litAt k = true := by
  obtain ⟨screen, hit, hdrawn, hstep⟩ := step_drawn h he
  rw [hstep, flag_afterDrawing, ← hdrawn.hit]
  cases hit with
  | false => decide
  | true => decide

/-- However an opcode that draws is carried out, it fails only if the drawing is refused. -/
theorem Executed.drawing {c' : Cpu ρ} {op : Int} {e : Option CpuError} (h : Executed op c c' e)
    (hi : 0 ≤ c.machine.index) (hf : Opcode.family op = 0xD) :
    (e = none ↔ c.machine.CanDraw op) ∧
      (e = none → Machine.Flipped (c.machine.spotsOf op) c.machine c'.machine) := by
  have hn := Opcode.n_lt op
  have hop : (Instruction.draw (Opcode.x op) (Opcode.y op) (Opcode.n op)).Encodes op :=
    ⟨hf, rfl, rfl, rfl⟩
  obtain ⟨pc, hmachine, herror⟩ := h.outcome hop
  obtain ⟨hdone, hflipped⟩ :=
    Machine.draw_done_iff (m := { c.machine with opcode := op, pc }) hi
      (by omega : Opcode.n op ≤ 32)
  refine ⟨herror.trans hdone, fun he => ?_⟩
  rw [hmachine]
  obtain ⟨hpicture, hregisters, hmemory, hindex⟩ := hflipped (herror.mp he)
  exact ⟨hpicture, hregisters, hmemory, hindex⟩

end Cpu

end Chip8
