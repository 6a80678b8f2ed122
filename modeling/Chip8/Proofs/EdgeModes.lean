import Chip8.Proofs.Drawing
import Chip8.Proofs.Reachable
import Mathlib.Data.Finset.Card
import Mathlib.Data.Finset.Range

/-!
# Chip8.Proofs.EdgeModes — where the edge modes agree

`withEdge` puts the same processor under another edge mode.  A bit that lies on the screen goes to
the same pixel in every mode (`spot_of_onscreen`), and clipping draws no others.  So clipping flips
no pixel that the other modes do not flip, and the modes differ only in what becomes of the bits
beyond the edges (`edge_modes_agree`).
-/

namespace Chip8

namespace Screen

variable {width height : Int} {s t : Screen width height} {x y k : Int} {ks : List Int} {hit : Bool}

/-- The pixels in which two screens differ. -/
def differing (s t : Screen width height) : Finset Nat :=
  (Finset.range (width * height).toNat).filter fun i : Nat => t.litAt i ≠ s.litAt i

theorem Drawn.mem_differing (h : Drawn s ks t hit) {i : Nat} :
    i ∈ s.differing t ↔ (i : Int) ∈ ks := by
  rw [differing, Finset.mem_filter, Finset.mem_range, h.pixels, and_iff_right_iff_imp]
  intro hk
  have hbounds := h.bounds hk
  omega

/-- The same picture on a screen of another edge mode. -/
def withEdge (s : Screen width height) (edge : EdgeMode) : Screen width height := { s with edge }

/-- A point on the screen goes to the same pixel in every mode. -/
theorem spot_of_onscreen (s : Screen width height) (edge : EdgeMode) (hx : 0 ≤ x ∧ x < width)
    (hy : 0 ≤ y ∧ y < height) : (s.withEdge edge).spot? x y = some (y * width + x) := by
  cases edge with
  | linear => rfl
  | clip => exact if_pos ⟨hx.2, hy.2⟩
  | wrap =>
    show some (y % height * width + x % width) = some (y * width + x)
    rw [Int.emod_eq_of_lt hx.1 hx.2, Int.emod_eq_of_lt hy.1 hy.2]

/-- Clipping draws only points on the screen. -/
theorem onscreen_of_clip (h : (s.withEdge .clip).spot? x y = some k) : x < width ∧ y < height := by
  have hclip : (if x < width ∧ y < height then some (y * width + x) else none) = some k := h
  rw [Option.ite_none_right_eq_some] at hclip
  exact hclip.1

/-- Screens that are equal but for the edge mode stay so when the same pixels are flipped. -/
theorem Drawn.eq_withEdge {u : Screen width height} {edge edge' : EdgeMode} {js : List Int}
    {hit' : Bool} (h : Drawn (s.withEdge edge) ks t hit) (h' : Drawn (s.withEdge edge') js u hit')
    (hsame : ∀ k, k ∈ ks ↔ k ∈ js) : t = u.withEdge edge ∧ hit = hit' := by
  constructor
  · refine ext_litAt h.edge (fun k => ?_) (Bool.eq_iff_iff.mpr ?_)
    · have hpixel := ((h.pixels k).trans (hsame k)).trans (h'.pixels k).symm
      change (t.litAt k ≠ s.litAt k ↔ u.litAt k ≠ s.litAt k) at hpixel
      show t.litAt k = u.litAt k
      revert hpixel
      cases t.litAt k <;> cases u.litAt k <;> cases s.litAt k <;> simp
    · have hnil : ks ≠ [] ↔ js ≠ [] := by
        simp only [ne_eq, List.eq_nil_iff_forall_not_mem, hsame]
      exact h.changed.trans ((or_congr_right hnil).trans h'.changed.symm)
  · refine Bool.eq_iff_iff.mpr (h.hit.trans (Iff.trans ?_ h'.hit.symm))
    exact exists_congr fun k => and_congr_left fun _ => hsame k

end Screen

namespace Machine

variable {m : Machine} {x y : Reg} {n : Nat} {k : Int}

/-- The same machine with a screen of another edge mode. -/
def withEdge (m : Machine) (edge : EdgeMode) : Machine :=
  { m with screen := m.screen.withEdge edge }

/-- Every set bit of the sprite lies on the screen, as seen from the wrapped origin. -/
def Onscreen (m : Machine) (x y : Reg) (n : Nat) : Prop :=
  ∀ r c : Nat, r < n → c < 8 → (m.ram.byteAt (m.index + r)).toNat.testBit (7 - c) = true →
    (m.reg x).toNat % 64 + c < 64 ∧ (m.reg y).toNat % 32 + r < 32

theorem mem_spots_withEdge (edge : EdgeMode) :
    k ∈ (m.withEdge edge).spots x y n ↔
      ∃ r c : Nat, r < n ∧ c < 8 ∧
        (m.ram.byteAt (m.index + r)).toNat.testBit (7 - c) = true ∧
        (m.screen.withEdge edge).spot? (((m.reg x).toNat : Int) % 64 + c)
          (((m.reg y).toNat : Int) % 32 + r) = some k :=
  mem_spots

theorem overdraws_linear_iff :
    (m.withEdge .linear).Overdraws x y n ↔
      ∃ r c : Nat, r < n ∧ c < 8 ∧
        (m.ram.byteAt (m.index + r)).toNat.testBit (7 - c) = true ∧
        2048 ≤ ((m.reg y).toNat % 32 + r) * 64 + (m.reg x).toNat % 64 + c :=
  and_iff_right rfl

theorem not_overdraws_withEdge {edge : EdgeMode} (h : edge ≠ .linear) :
    ¬ (m.withEdge edge).Overdraws x y n := fun hover => h hover.1

/-- Clipping draws on no pixel on which another mode does not draw. -/
theorem mem_spots_of_clip (edge : EdgeMode) (hk : k ∈ (m.withEdge .clip).spots x y n) :
    k ∈ (m.withEdge edge).spots x y n := by
  obtain ⟨r, c, hr, hc, hbit, hspot⟩ := (mem_spots_withEdge .clip).mp hk
  obtain ⟨hx, hy⟩ := Screen.onscreen_of_clip hspot
  refine (mem_spots_withEdge edge).mpr ⟨r, c, hr, hc, hbit, ?_⟩
  rw [← hspot, Screen.spot_of_onscreen _ edge ⟨by omega, hx⟩ ⟨by omega, hy⟩,
    Screen.spot_of_onscreen _ .clip ⟨by omega, hx⟩ ⟨by omega, hy⟩]

/-- On the screen all modes draw on the same pixels. -/
theorem mem_spots_of_onscreen (h : m.Onscreen x y n) (edge : EdgeMode) :
    k ∈ (m.withEdge edge).spots x y n ↔ k ∈ (m.withEdge .clip).spots x y n := by
  refine ⟨fun hk => ?_, mem_spots_of_clip edge⟩
  obtain ⟨r, c, hr, hc, hbit, hspot⟩ := (mem_spots_withEdge edge).mp hk
  obtain ⟨hx, hy⟩ := h r c hr hc hbit
  refine (mem_spots_withEdge .clip).mpr ⟨r, c, hr, hc, hbit, ?_⟩
  rw [← hspot, Screen.spot_of_onscreen _ edge ⟨by omega, by omega⟩ ⟨by omega, by omega⟩,
    Screen.spot_of_onscreen _ .clip ⟨by omega, by omega⟩ ⟨by omega, by omega⟩]

/-- On the screen no bit overruns it. -/
theorem not_overdraws_of_onscreen (h : m.Onscreen x y n) (edge : EdgeMode) :
    ¬ (m.withEdge edge).Overdraws x y n := by
  by_cases hedge : edge = .linear
  · rw [hedge, overdraws_linear_iff]
    rintro ⟨r, c, hr, hc, hbit, hpast⟩
    obtain ⟨hx, hy⟩ := h r c hr hc hbit
    omega
  · exact not_overdraws_withEdge hedge

/-- A bit that overruns the screen where nothing clips or wraps comes back in where points wrap,
on a pixel that clipping does not draw on. -/
theorem exists_wrapped_of_overdraws (hn : n ≤ 32) (h : (m.withEdge .linear).Overdraws x y n) :
    ∃ k ∈ (m.withEdge .wrap).spots x y n, k ∉ (m.withEdge .clip).spots x y n := by
  obtain ⟨r, c, hr, hc, hbit, hpast⟩ := overdraws_linear_iff.mp h
  obtain ⟨k, hk⟩ : ∃ k, (m.screen.withEdge .wrap).spot? (((m.reg x).toNat : Int) % 64 + c)
      (((m.reg y).toNat : Int) % 32 + r) = some k := ⟨_, rfl⟩
  refine ⟨k, (mem_spots_withEdge .wrap).mpr ⟨r, c, hr, hc, hbit, hk⟩, fun hclip => ?_⟩
  -- a bit that clipping draws there would be the same bit, and on the screen
  obtain ⟨r', c', hr', hc', -, hspot⟩ := (mem_spots_withEdge .clip).mp hclip
  obtain ⟨hx, hy⟩ := Screen.onscreen_of_clip hspot
  rw [Screen.spot_of_onscreen _ .clip ⟨by omega, hx⟩ ⟨by omega, hy⟩,
    ← Screen.spot_of_onscreen m.screen .wrap ⟨by omega, hx⟩ ⟨by omega, hy⟩] at hspot
  obtain ⟨rfl, rfl⟩ := spot_inj (by omega) (by omega) hc hc' hk hspot
  omega

end Machine

namespace Cpu

variable {ρ : Type} {c : Cpu ρ} {k : Int}

/-- The same processor with a screen of another edge mode. -/
def withEdge (c : Cpu ρ) (edge : EdgeMode) : Cpu ρ := { c with machine := c.machine.withEdge edge }

/-- Every bit of the sprite that is drawn next lies on the screen. -/
def Onscreen (c : Cpu ρ) : Prop :=
  c.machine.Onscreen (Opcode.x c.machine.word) (Opcode.y c.machine.word) (Opcode.n c.machine.word)

theorem AtSprite.withEdge (h : c.AtSprite) (edge : EdgeMode) : (c.withEdge edge).AtSprite := by
  refine ⟨?_, h.running, h.inside, h.family, h.rows⟩
  exact h.bounded.frame c.machine.ram c.machine.v c.machine.keypad _

variable [ByteSource ρ]

/-- The pixels that a step flips. -/
def flips (c : Cpu ρ) : Finset Nat := c.machine.screen.differing c.step.cpu.machine.screen

theorem mem_flips (h : c.AtSprite) (he : c.step.error = none) {i : Nat} :
    i ∈ c.flips ↔ (i : Int) ∈ c.spots := by
  obtain ⟨screen, hit, hdrawn, hstep⟩ := step_drawn h he
  rw [flips, hstep]
  exact hdrawn.mem_differing

theorem exists_flip (h : c.AtSprite) (he : c.step.error = none) (hk : k ∈ c.spots) :
    ∃ i ∈ c.flips, (i : Int) = k := by
  obtain ⟨screen, hit, hdrawn, -⟩ := step_drawn h he
  obtain ⟨i, rfl⟩ := Int.eq_ofNat_of_zero_le (hdrawn.bounds hk).1
  exact ⟨i, (mem_flips h he).mpr hk, rfl⟩

/-! ## Clipping against the other modes -/

theorem step_succeeds (h : c.AtSprite) {edge : EdgeMode} (hedge : edge ≠ .linear) :
    (c.withEdge edge).step.error = none :=
  (step_error_iff (h.withEdge edge)).mpr (Machine.not_overdraws_withEdge hedge)

theorem clip_step_succeeds (h : c.AtSprite) : (c.withEdge .clip).step.error = none :=
  step_succeeds h (by decide)

theorem flips_clip_subset (h : c.AtSprite) {edge : EdgeMode}
    (he : (c.withEdge edge).step.error = none) :
    (c.withEdge .clip).flips ⊆ (c.withEdge edge).flips := by
  intro i hi
  have hclip := (mem_flips (h.withEdge .clip) (clip_step_succeeds h)).mp hi
  exact (mem_flips (h.withEdge edge) he).mpr (Machine.mem_spots_of_clip edge hclip)

theorem flag_of_clip (h : c.AtSprite) {edge : EdgeMode} (he : (c.withEdge edge).step.error = none)
    (hflag : (c.withEdge .clip).step.cpu.machine.reg Reg.flag = 1) :
    (c.withEdge edge).step.cpu.machine.reg Reg.flag = 1 := by
  obtain ⟨k, hk, hlit⟩ := (step_flag_iff (h.withEdge .clip) (clip_step_succeeds h)).mp hflag
  exact (step_flag_iff (h.withEdge edge) he).mpr ⟨k, Machine.mem_spots_of_clip edge hk, hlit⟩

theorem step_of_onscreen (h : c.AtSprite) (hon : c.Onscreen) (edge : EdgeMode) :
    (c.withEdge edge).step =
      ⟨(c.withEdge .clip).step.cpu.withEdge edge, (c.withEdge .clip).step.line, none⟩ := by
  have he : (c.withEdge edge).step.error = none :=
    (step_error_iff (h.withEdge edge)).mpr (Machine.not_overdraws_of_onscreen hon edge)
  obtain ⟨screen, hit, hdrawn, hstep⟩ := step_drawn (h.withEdge edge) he
  obtain ⟨screen', hit', hdrawn', hstep'⟩ := step_drawn (h.withEdge .clip) (clip_step_succeeds h)
  obtain ⟨rfl, rfl⟩ := hdrawn.eq_withEdge hdrawn' fun k => Machine.mem_spots_of_onscreen hon edge
  rw [hstep, hstep']
  rfl

theorem card_flips_lt (h : c.AtSprite) (hfails : (c.withEdge .linear).step.error ≠ none) :
    (c.withEdge .clip).flips.card < (c.withEdge .wrap).flips.card := by
  have hwrap := step_succeeds h (show EdgeMode.wrap ≠ .linear by decide)
  have hover : (c.withEdge .linear).Overdraws := by
    by_contra hno
    exact hfails ((step_error_iff (h.withEdge .linear)).mpr hno)
  have hn := Opcode.n_lt (c.withEdge .linear).machine.word
  obtain ⟨k, hk, hnot⟩ := Machine.exists_wrapped_of_overdraws (by omega) hover
  obtain ⟨i, hi, rfl⟩ := exists_flip (h.withEdge .wrap) hwrap hk
  have hclip : i ∉ (c.withEdge .clip).flips := fun hflips =>
    hnot ((mem_flips (h.withEdge .clip) (clip_step_succeeds h)).mp hflips)
  exact Finset.card_lt_card
    ((Finset.ssubset_iff_of_subset (flips_clip_subset h hwrap)).mpr ⟨i, hi, hclip⟩)

/-- **The edge modes agree where they should.**  A processor that a host can arrive at draws a
sprite whose rows lie in the memory; let only the edge mode vary.  Clipping and wrapping succeed.
Clipping flips only pixels that wrapping flips and, if that succeeds, counting on; so it finds a lit
pixel only where they do.  If every bit lies on the screen, a step does the same in all modes, and
succeeds.  If counting on fails, clipping flips fewer pixels than wrapping. -/
theorem edge_modes_agree (hr : c.Reachable) (hh : c.halt = none) (hle : c.machine.pc ≤ 0xFFE)
    (hf : Opcode.family c.machine.word = 0xD)
    (hin : c.machine.SpriteInside (Opcode.n c.machine.word)) :
    let linear := c.withEdge .linear
    let clip := c.withEdge .clip
    let wrap := c.withEdge .wrap
    (clip.step.error = none ∧ wrap.step.error = none) ∧
      (clip.flips ⊆ wrap.flips ∧ (linear.step.error = none → clip.flips ⊆ linear.flips)) ∧
      (clip.step.cpu.machine.reg Reg.flag = 1 →
        wrap.step.cpu.machine.reg Reg.flag = 1 ∧
          (linear.step.error = none → linear.step.cpu.machine.reg Reg.flag = 1)) ∧
      (c.Onscreen → ∀ edge, (c.withEdge edge).step =
        ⟨clip.step.cpu.withEdge edge, clip.step.line, none⟩) ∧
      (linear.step.error ≠ none → clip.flips.card < wrap.flips.card) := by
  intro linear clip wrap
  have h : c.AtSprite := ⟨hr.bounded, hh, hle, hf, hin⟩
  have hwrap : wrap.step.error = none := step_succeeds h (by decide)
  refine ⟨⟨clip_step_succeeds h, hwrap⟩, ⟨flips_clip_subset h hwrap, flips_clip_subset h⟩, ?_,
    step_of_onscreen h, card_flips_lt h⟩
  exact fun hflag => ⟨flag_of_clip h hwrap hflag, fun he => flag_of_clip h he hflag⟩

/-- A processor that is about to draw two rows of a glyph in the bottom right corner, from where
they leave the screen on both sides. -/
def drawingInCorner : Cpu CyclicBytes :=
  (Cpu.create (.powerOn .linear) (.ofList []) false).actAll
    [.load [0x60, 0x3E, 0x61, 0x1F, 0xA0, 0x50, 0xD0, 0x12], .step, .step, .step]

/-- Counting on fails there, and clipping flips fewer pixels than wrapping. -/
theorem edge_modes_agree_in_corner :
    (drawingInCorner.withEdge .linear).step.error ≠ none ∧
      (drawingInCorner.withEdge .clip).step.error = none ∧
      (drawingInCorner.withEdge .wrap).step.error = none ∧
      (drawingInCorner.withEdge .clip).flips ⊆ (drawingInCorner.withEdge .wrap).flips ∧
      (drawingInCorner.withEdge .clip).flips.card <
        (drawingInCorner.withEdge .wrap).flips.card := by
  have hr : drawingInCorner.Reachable := Reachable.actAll (.powerOn _ _ _) _
  obtain ⟨hh, hpc, hword, hindex, hfails⟩ : drawingInCorner.halt = none ∧
      drawingInCorner.machine.pc = 0x206 ∧ drawingInCorner.machine.word = 0xD012 ∧
      drawingInCorner.machine.index = 0x50 ∧
      (drawingInCorner.withEdge .linear).step.error ≠ none := by
    decide +kernel
  have hle : drawingInCorner.machine.pc ≤ 0xFFE := by
    rw [hpc]
    decide
  have hf : Opcode.family drawingInCorner.machine.word = 0xD := by
    rw [hword]
    decide
  have hin : drawingInCorner.machine.SpriteInside (Opcode.n drawingInCorner.machine.word) := by
    rw [Machine.SpriteInside, hword, hindex]
    decide
  obtain ⟨⟨hclip, hwrap⟩, ⟨hsubset, -⟩, -, -, hfewer⟩ := edge_modes_agree hr hh hle hf hin
  exact ⟨hfails, hclip, hwrap, hsubset, hfewer hfails⟩

end Cpu

end Chip8
