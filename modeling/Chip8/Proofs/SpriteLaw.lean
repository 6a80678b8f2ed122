import Chip8.Proofs.Drawing
import Mathlib.Data.Set.Basic

/-!
# Chip8.Proofs.SpriteLaw — the law of drawing

`EdgeMode.pixel?` says where the bit of a sprite goes, in plain arithmetic on the numbers of columns
and rows, and `Machine.toggled` is the set of pixels to which the set bits go.  The law is that a
drawing that succeeds turns the packed colour of exactly these pixels around, that no two set bits
meet on one pixel, that `VF` tells whether any pixel of the whole screen went out, and that the mark
of a changed picture is raised by the first bit (`sprite_law`).
-/

namespace Chip8

open Platform (pixelOn pixelOff)

/-! ## Colours -/

namespace Screen

variable {width height : Int} {s t : Screen width height} {k : Nat}

/-- The packed colour of a pixel: its four bytes as one word. -/
def colour (s : Screen width height) (k : Nat) : Nat :=
  (List.range 4).foldl (fun word j => 256 * word + (s.bytes[4 * k + j]?.getD 0).toNat) 0

theorem colour_eq (s : Screen width height) (hk : k < (width * height).toNat) :
    s.colour k = if s.litAt k then pixelOn else pixelOff := by
  have hbyte := s.pictures_bytes.bytes k hk
  have hrange : List.range 4 = [0, 1, 2, 3] := rfl
  rw [colour, hrange]
  simp only [List.foldl_cons, List.foldl_nil, hbyte 0 (by decide), hbyte 1 (by decide),
    hbyte 2 (by decide), hbyte 3 (by decide)]
  cases s.litAt k <;> rfl

theorem colour_eq_iff (hk : k < (width * height).toNat) (lit : Bool) :
    s.colour k = (if lit then pixelOn else pixelOff) ↔ s.litAt k = lit := by
  rw [colour_eq s hk]
  cases s.litAt k <;> cases lit <;> simp [pixelOn, pixelOff]

theorem colour_eq_on_iff (hk : k < (width * height).toNat) :
    s.colour k = pixelOn ↔ s.litAt k = true :=
  colour_eq_iff hk true

theorem colour_eq_off_iff (hk : k < (width * height).toNat) :
    s.colour k = pixelOff ↔ s.litAt k = false :=
  colour_eq_iff hk false

/-- The pixel has gone from one colour to the other. -/
def TurnsAround (s t : Screen width height) (k : Nat) : Prop :=
  s.colour k = pixelOff ∧ t.colour k = pixelOn ∨ s.colour k = pixelOn ∧ t.colour k = pixelOff

/-- Some pixel of the screen was lit and is not any more. -/
def LosesPixel (s t : Screen width height) : Prop :=
  ∃ k < (width * height).toNat, s.colour k = pixelOn ∧ t.colour k = pixelOff

theorem turnsAround_iff (hk : k < (width * height).toNat) :
    TurnsAround s t k ↔ t.litAt k ≠ s.litAt k := by
  unfold TurnsAround
  rw [colour_eq_on_iff hk, colour_eq_on_iff hk, colour_eq_off_iff hk, colour_eq_off_iff hk]
  cases s.litAt k <;> cases t.litAt k <;> simp

/-- A hit is a pixel that went out. -/
theorem Drawn.losesPixel_iff {ks : List Int} {hit : Bool} (h : Drawn s ks t hit) :
    LosesPixel s t ↔ hit = true := by
  rw [h.hit]
  constructor
  · rintro ⟨k, hk, hon, hoff⟩
    rw [colour_eq_on_iff hk] at hon
    rw [colour_eq_off_iff hk] at hoff
    refine ⟨k, (h.pixels k).mp ?_, hon⟩
    rw [hon, hoff]
    exact Bool.false_ne_true
  · rintro ⟨j, hj, hlit⟩
    obtain ⟨h0, hlt⟩ := h.bounds hj
    obtain ⟨k, rfl⟩ := Int.eq_ofNat_of_zero_le h0
    have hk : k < (width * height).toNat := by omega
    have hout := h.litAt_eq k
    rw [hlit, decide_eq_true hj] at hout
    exact ⟨k, hk, (colour_eq_on_iff hk).mpr hlit, (colour_eq_off_iff hk).mpr hout⟩

end Screen

/-! ## Where bits go -/

/-- The pixel to which a mode sends the bit in row `r` and column `c` of a sprite with its origin in
column `left` and row `top` of a screen of 64 columns and 32 rows; none if it drops the bit. -/
def EdgeMode.pixel? (left top r c : Nat) : EdgeMode → Option Nat
  | linear => some ((top + r) * 64 + left + c)
  | clip => if left + c < 64 ∧ top + r < 32 then some ((top + r) * 64 + left + c) else none
  | wrap => some ((top + r) % 32 * 64 + (left + c) % 64)

namespace Machine

variable {m m' : Machine} {op : Int} {r c k : Nat}

/-- The bit in row `r` and column `c` of the sprite that `op` draws is set. -/
def BitSet (m : Machine) (op : Int) (r c : Nat) : Prop :=
  r < Opcode.n op ∧ c < 8 ∧ (m.ram.byteAt (m.index + r)).toNat.testBit (7 - c) = true

/-- The pixel to which the bit in row `r` and column `c` of the sprite that `op` draws goes. -/
def pixel? (m : Machine) (op : Int) (r c : Nat) : Option Nat :=
  m.screen.edge.pixel? ((m.reg (Opcode.x op)).toNat % 64) ((m.reg (Opcode.y op)).toNat % 32) r c

/-- The pixels to which the set bits of the sprite that `op` draws go. -/
def toggled (m : Machine) (op : Int) : Set Nat :=
  {k | ∃ r c, m.BitSet op r c ∧ m.pixel? op r c = some k}

theorem spot_eq_iff (m : Machine) (op : Int) (r c k : Nat) :
    m.screen.spot? (((m.reg (Opcode.x op)).toNat : Int) % 64 + c)
        (((m.reg (Opcode.y op)).toNat : Int) % 32 + r) = some (k : Int) ↔
      m.pixel? op r c = some k := by
  unfold Screen.spot? pixel? EdgeMode.pixel?
  cases m.screen.edge with
  | linear =>
    simp only [Option.some.injEq]
    omega
  | clip =>
    simp only [Option.ite_none_right_eq_some, Option.some.injEq]
    omega
  | wrap =>
    simp only [Option.some.injEq]
    omega

theorem mem_toggled_iff :
    k ∈ m.toggled op ↔ (k : Int) ∈ m.spotsOf op := by
  rw [spotsOf, mem_spots]
  constructor
  · rintro ⟨r, c, ⟨hr, hc, hbit⟩, hk⟩
    exact ⟨r, c, hr, hc, hbit, (m.spot_eq_iff op r c k).mpr hk⟩
  · rintro ⟨r, c, hr, hc, hbit, hk⟩
    exact ⟨r, c, ⟨hr, hc, hbit⟩, (m.spot_eq_iff op r c k).mp hk⟩

/-- No two set bits go to the same pixel. -/
theorem bit_of_pixel {r' c' : Nat} (h : m.BitSet op r c) (h' : m.BitSet op r' c')
    (hk : m.pixel? op r c = some k) (hk' : m.pixel? op r' c' = some k) : r = r' ∧ c = c' := by
  have hn := Opcode.n_lt op
  obtain ⟨hr, hc, -⟩ := h
  obtain ⟨hr', hc', -⟩ := h'
  exact spot_inj (by omega) (by omega) hc hc' ((m.spot_eq_iff op r c k).mpr hk)
    ((m.spot_eq_iff op r' c' k).mpr hk')

/-- What holds of some pixel that has been flipped holds of some pixel to which a set bit goes. -/
theorem Flipped.exists_toggled_iff (h : Flipped (m.spotsOf op) m m') (p : Int → Prop) :
    (∃ k ∈ m.toggled op, p k) ↔ ∃ j ∈ m.spotsOf op, p j := by
  obtain ⟨hit, hdrawn, -⟩ := h.picture
  constructor
  · rintro ⟨k, hk, hp⟩
    exact ⟨k, mem_toggled_iff.mp hk, hp⟩
  · rintro ⟨j, hj, hp⟩
    obtain ⟨k, rfl⟩ := Int.eq_ofNat_of_zero_le (hdrawn.bounds hj).1
    exact ⟨k, mem_toggled_iff.mpr hj, hp⟩

theorem Flipped.nonempty_toggled_iff (h : Flipped (m.spotsOf op) m m') :
    (m.toggled op).Nonempty ↔ m.spotsOf op ≠ [] := by
  have hsome := h.exists_toggled_iff fun _ => True
  simp only [and_true] at hsome
  rw [Set.Nonempty, hsome]
  constructor
  · rintro ⟨j, hj⟩
    exact List.ne_nil_of_mem hj
  · exact List.exists_mem_of_ne_nil _

/-! ## The law -/

/-- `m'` is what turning the pixels `T` around leaves of `m`. -/
structure Inverted (T : Set Nat) (m m' : Machine) : Prop where
  inside : ∀ k ∈ T, k < 2048
  turned : ∀ k ∈ T, m.screen.TurnsAround m'.screen k
  kept : ∀ k < 2048, k ∉ T → m'.screen.colour k = m.screen.colour k
  /-- `VF` tells whether a pixel went out. -/
  collision : m'.reg Reg.flag = 1 ∧ m.screen.LosesPixel m'.screen ∨
    m'.reg Reg.flag = 0 ∧ ¬ m.screen.LosesPixel m'.screen
  changed : m'.screen.changed = true ↔ m.screen.changed = true ∨ T.Nonempty

theorem Flipped.inverted (h : Flipped (m.spotsOf op) m m') :
    Inverted (m.toggled op) m m' := by
  obtain ⟨hit, hdrawn, hflag⟩ := h.picture
  have hinside : ∀ k ∈ m.toggled op, k < 2048 := by
    intro k hk
    have hbounds := hdrawn.bounds (mem_toggled_iff.mp hk)
    omega
  refine ⟨hinside, ?_, ?_, ?_, ?_⟩
  · intro k hk
    rw [Screen.turnsAround_iff (hinside k hk), hdrawn.pixels]
    exact mem_toggled_iff.mp hk
  · intro k hlt hk
    have hsame := hdrawn.litAt_of_not_mem (mt mem_toggled_iff.mpr hk)
    rw [Screen.colour_eq _ hlt, Screen.colour_eq _ hlt, hsame]
  · rw [hdrawn.losesPixel_iff, hflag, flag_eq_one_iff, flag_eq_zero_iff]
    simp
  · rw [hdrawn.changed, h.nonempty_toggled_iff]

end Machine

namespace Cpu

variable {ρ : Type} [ByteSource ρ] {c c' : Cpu ρ} {op : Int}

/-- **The law of drawing.**  A processor that a host can arrive at carries out an opcode that draws
a sprite, and succeeds.  Then the set bits go to different pixels of the screen, exactly these
pixels are turned around, `VF` tells whether any pixel of the screen went out, and the mark of a
changed picture is raised if there is any set bit and left as it was if there is none.  All
registers are read before the drawing, `VF` among them. -/
theorem sprite_law (hr : c.Reachable) (hf : Opcode.family op = 0xD) (h : Executed op c c' none) :
    (∀ r₁ c₁ r₂ c₂ k, c.machine.BitSet op r₁ c₁ → c.machine.BitSet op r₂ c₂ →
      c.machine.pixel? op r₁ c₁ = some k → c.machine.pixel? op r₂ c₂ = some k →
        r₁ = r₂ ∧ c₁ = c₂) ∧
      Machine.Inverted (c.machine.toggled op) c.machine c'.machine := by
  obtain ⟨-, hflipped⟩ := h.drawing hr.bounded.index.1 hf
  constructor
  · intro r₁ c₁ r₂ c₂ k h₁ h₂ hk₁ hk₂
    exact Machine.bit_of_pixel h₁ h₂ hk₁ hk₂
  · exact (hflipped rfl).inverted

/-- A processor that is about to draw two rows of a glyph over themselves, in the bottom right
corner of a screen that wraps.  The column is taken from `VF`. -/
def erasingInCorner : Cpu CyclicBytes :=
  (Cpu.create (.powerOn .wrap) (.ofList []) false).actAll
    [.load [0x6F, 0x3E, 0x61, 0x1F, 0xA0, 0x50, 0xDF, 0x12, 0x6F, 0x3E, 0xDF, 0x12],
      .step, .step, .step, .step, .step]

/-- The bit that has come round to the left edge goes out there, and `VF` tells so. -/
theorem sprite_law_erasing_in_corner :
    erasingInCorner.machine.screen.TurnsAround erasingInCorner.step.cpu.machine.screen 1984 ∧
      erasingInCorner.step.cpu.machine.reg Reg.flag = 1 := by
  have hr : erasingInCorner.Reachable := Reachable.actAll (.powerOn _ _ _) _
  obtain ⟨hop, he, hbit, hpixel, hlit⟩ : erasingInCorner.machine.fetch = .ok 0xDF12 ∧
      erasingInCorner.step.error = none ∧
      (erasingInCorner.machine.ram.byteAt (erasingInCorner.machine.index + (0 : Nat))).toNat.testBit
        (7 - 2) = true ∧
      erasingInCorner.machine.pixel? 0xDF12 0 2 = some 1984 ∧
      erasingInCorner.machine.screen.litAt 1984 = true := by
    decide +kernel
  have hmem : 1984 ∈ erasingInCorner.machine.toggled 0xDF12 :=
    ⟨0, 2, ⟨by decide, by decide, hbit⟩, hpixel⟩
  obtain ⟨-, hinverted⟩ := sprite_law hr (by decide) (.of_step hop he)
  have hturned := hinverted.turned 1984 hmem
  have hon := (Screen.colour_eq_on_iff (by decide : 1984 < (64 * 32 : Int).toNat)).mpr hlit
  refine ⟨hturned, ?_⟩
  rcases hinverted.collision with ⟨hflag, -⟩ | ⟨-, hnone⟩
  · exact hflag
  · rcases hturned with ⟨hoff, -⟩ | ⟨-, hoff⟩
    · rw [hon] at hoff
      cases hoff
    · exact absurd ⟨1984, by decide, hon, hoff⟩ hnone

end Cpu

end Chip8
