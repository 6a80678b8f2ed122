import Chip8.Execution
import Mathlib.Tactic.SplitIfs

/-!
# Chip8.Proofs.Timeless — what programs cannot see of the time

The host lets the timers run and takes the picture at times of its own.  `untimed` forgets what this
changes: the timers, and the mark of a changed picture.  An instruction cannot tell two machines
apart that are equal but for these, unless it reads the delay timer: it fails or succeeds on both
alike, and leaves machines that are again equal but for these (`execute_congr`).
-/

namespace Chip8

/-! ## Screens -/

namespace Screen

variable {width height : Int} {s t : Screen width height} {x y : Int} {points : List (Int × Int)}

/-- The screen with its mark down. -/
def unmarked (s : Screen width height) : Screen width height := { s with changed := false }

theorem unmarked_eq_iff : s.unmarked = t.unmarked ↔ s.edge = t.edge ∧ s.lit = t.lit := by
  obtain ⟨edge, lit, changed⟩ := s
  obtain ⟨edge', lit', changed'⟩ := t
  simp [unmarked]

/-- Two outcomes of toggling a point are the same but for the mark. -/
inductive SameToggled : Except ScreenFault (Screen width height × Option Bool) →
    Except ScreenFault (Screen width height × Option Bool) → Prop where
  | error (fault : ScreenFault) : SameToggled (.error fault) (.error fault)
  | ok {s t : Screen width height} (out : Option Bool) (h : s.unmarked = t.unmarked) :
      SameToggled (.ok (s, out)) (.ok (t, out))

theorem locate_congr (h : s.unmarked = t.unmarked) : s.locate x y = t.locate x y := by
  unfold locate
  rw [(unmarked_eq_iff.mp h).1]

theorem toggle_congr (h : s.unmarked = t.unmarked) (x y : Int) :
    SameToggled (s.toggle x y) (t.toggle x y) := by
  obtain ⟨hedge, hlit⟩ := unmarked_eq_iff.mp h
  unfold toggle
  rw [locate_congr h]
  cases t.locate x y with
  | error fault => exact .error fault
  | ok spot? =>
    cases spot? with
    | none => exact .ok none h
    | some spot =>
      simp only
      cases Cells.resolve (width * height).toNat spot with
      | error fault => exact .error _
      | ok k =>
        simp only [hlit, hedge]
        exact .ok _ rfl

theorem locateEach_congr (h : s.unmarked = t.unmarked) :
    s.locateEach points = t.locateEach points := by
  induction points with
  | nil => rfl
  | cons p points ih => rw [locateEach, locateEach, locate_congr h, ih]

/-- Two outcomes of drawing are the same but for the mark. -/
def SameDrawn (r r' : Screen width height × Bool × Option ScreenFault) : Prop :=
  r.1.unmarked = r'.1.unmarked ∧ r.2 = r'.2

theorem toggleEach_congr (h : s.unmarked = t.unmarked) :
    SameDrawn (s.toggleEach points) (t.toggleEach points) := by
  induction points generalizing s t with
  | nil => exact ⟨h, rfl⟩
  | cons p points ih =>
    have htoggle := toggle_congr h p.1 p.2
    rw [toggleEach, toggleEach]
    revert htoggle
    generalize s.toggle p.1 p.2 = r, t.toggle p.1 p.2 = r'
    rintro (fault | ⟨out, h'⟩)
    · exact ⟨h, rfl⟩
    · obtain ⟨hscreen, hrest⟩ := ih h'
      refine ⟨hscreen, ?_⟩
      simp only
      rw [hrest]

theorem plot_congr (h : s.unmarked = t.unmarked) (points : List (Int × Int)) :
    SameDrawn (s.plot points) (t.plot points) := by
  unfold plot
  rw [locateEach_congr h]
  cases t.locateEach points with
  | error fault => exact ⟨h, rfl⟩
  | ok _ => exact toggleEach_congr h

end Screen

/-! ## Machines -/

namespace Machine

variable {m m' : Machine}

/-- The machine without its timers, and with the mark of its picture down. -/
def untimed (m : Machine) : Machine :=
  { m with delay := 0, sound := 0, screen := m.screen.unmarked }

theorem pc_congr (h : m.untimed = m'.untimed) : m.pc = m'.pc := by
  have hpc : m.untimed.pc = m'.untimed.pc := by rw [h]
  exact hpc

theorem opcode_congr (h : m.untimed = m'.untimed) : m.opcode = m'.opcode := by
  have hopcode : m.untimed.opcode = m'.untimed.opcode := by rw [h]
  exact hopcode

theorem ram_congr (h : m.untimed = m'.untimed) : m.ram = m'.ram := by
  have hram : m.untimed.ram = m'.untimed.ram := by rw [h]
  exact hram

/-- Two outcomes of an instruction are the same but for what the time changes. -/
def SameOutcome (r r' : Outcome) : Prop := r.1.untimed = r'.1.untimed ∧ r.2 = r'.2

theorem skipIf_untimed (m : Machine) (p : Prop) [Decidable p] :
    (m.untimed.skipIf p).untimed = (m.skipIf p).untimed := by
  unfold skipIf
  split_ifs <;> rfl

theorem skipIfKey_untimed (m : Machine) (x : Reg) (down : Bool) :
    SameOutcome (m.untimed.skipIfKey x down) (m.skipIfKey x down) := by
  have hkeys : m.untimed.keypad.isDown (m.untimed.reg x).toNat = m.keypad.isDown (m.reg x).toNat :=
    rfl
  unfold skipIfKey
  rw [hkeys]
  cases m.keypad.isDown (m.reg x).toNat with
  | error fault => exact ⟨rfl, rfl⟩
  | ok isDown => exact ⟨skipIf_untimed m _, rfl⟩

theorem draw_untimed (m : Machine) (x y : Reg) (n : Nat) :
    SameOutcome (m.untimed.draw x y n) (m.draw x y n) := by
  have hrows : m.untimed.ram.readEach m.untimed.index n = m.ram.readEach m.index n := rfl
  have hreg : m.untimed.reg = m.reg := rfl
  unfold draw
  simp only [hrows, hreg]
  rcases m.ram.readEach m.index n with ⟨rows, _ | fault⟩
  · have hplot := Screen.plot_congr (s := m.untimed.screen) (t := m.screen) rfl
      (spritePoints (((m.reg x).toNat : Int) % 64) (((m.reg y).toNat : Int) % 32) rows)
    simp only
    revert hplot
    generalize m.untimed.screen.plot _ = r, m.screen.plot _ = r'
    obtain ⟨screen, hit, fault⟩ := r
    obtain ⟨screen', hit', fault'⟩ := r'
    rintro ⟨hscreen, hsame⟩
    obtain ⟨rfl, rfl⟩ := Prod.mk.inj hsame
    cases fault with
    | some fault => exact ⟨congrArg (fun screen => { m.untimed with screen }) hscreen, rfl⟩
    | none =>
      let after (screen : Screen 64 32) : Machine :=
        { m.untimed with screen }.setReg Reg.flag (flag (hit = true))
      exact ⟨congrArg after hscreen, rfl⟩
  · exact ⟨rfl, rfl⟩

/-- Forgetting the time before an instruction makes no difference afterwards. -/
theorem execute_untimed {i : Instruction} (hi : ∀ x, i ≠ .readDelay x) (b : UInt8) (m : Machine) :
    SameOutcome (i.execute b m.untimed) (i.execute b m) := by
  cases i
  case readDelay x => exact absurd rfl (hi x)
  case ret =>
    have hpop : m.untimed.stack.pop = m.stack.pop := rfl
    rw [Instruction.execute, Instruction.execute, hpop]
    cases m.stack.pop with
    | error fault => exact ⟨rfl, rfl⟩
    | ok r => exact ⟨rfl, rfl⟩
  case call nnn =>
    have hpush : m.untimed.stack.push m.untimed.pc = m.stack.push m.pc := rfl
    rw [Instruction.execute, Instruction.execute, hpush]
    cases m.stack.push m.pc with
    | error fault => exact ⟨rfl, rfl⟩
    | ok stack => exact ⟨rfl, rfl⟩
  case skipIfByte | skipUnlessByte | skipIfEqual | skipUnlessEqual =>
    exact ⟨skipIf_untimed m _, rfl⟩
  case skipIfKey x => exact skipIfKey_untimed m x true
  case skipUnlessKey x => exact skipIfKey_untimed m x false
  case awaitKey x =>
    have hkeys : m.untimed.keypad.lowest? = m.keypad.lowest? := rfl
    rw [Instruction.execute, Instruction.execute, hkeys]
    cases m.keypad.lowest? with
    | none => exact ⟨rfl, rfl⟩
    | some key => exact ⟨rfl, rfl⟩
  case glyph x =>
    have hreg : m.untimed.reg x = m.reg x := rfl
    unfold Instruction.execute
    simp only [hreg]
    by_cases hx : 16 ≤ (m.reg x).toNat
    · simp only [if_pos hx]
      exact ⟨rfl, rfl⟩
    · simp only [if_neg hx]
      exact ⟨rfl, rfl⟩
  case draw x y n => exact draw_untimed m x y n
  all_goals exact ⟨rfl, rfl⟩

/-- **No instruction but one sees the time.**  On machines that are equal but for the time, an
instruction that does not read the delay timer has the same outcome but for the time. -/
theorem execute_congr {i : Instruction} (hi : ∀ x, i ≠ .readDelay x) (b : UInt8)
    (h : m.untimed = m'.untimed) : SameOutcome (i.execute b m) (i.execute b m') := by
  obtain ⟨hleft, hfault⟩ := execute_untimed hi b m
  obtain ⟨hright, hfault'⟩ := execute_untimed hi b m'
  rw [h] at hleft hfault
  exact ⟨hleft.symm.trans hright, hfault.symm.trans hfault'⟩

end Machine

end Chip8
