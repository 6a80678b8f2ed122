import Chip8.Screen
import Mathlib.Logic.Basic
import Mathlib.Order.Basic
import Mathlib.Tactic.ByContra
import Mathlib.Tactic.SplitIfs

/-!
# Chip8.Proofs.Plotting — where points go, and what plotting them does

`spot?` says for each edge mode where a point goes, and `Overruns` which points are refused: those
past the last row, and only where nothing clips or wraps.  Plotting refuses a list of points exactly
when one of them overruns (`plot_cases`).  Any other list is plotted; if its points go to different
pixels, these are the pixels that are flipped, and a lit one among them makes a hit (`Drawn`).  A
screen that plotting leaves unmarked is the screen it was (`Kept`).
-/

namespace Chip8

namespace Screen

variable {width height : Int} {s t u : Screen width height} {x y k : Int} {ks js : List Int}
  {points : List (Int × Int)} {hit hit' : Bool}

/-! ## Locating -/

/-- The point lies past the last row of a screen that neither clips nor wraps. -/
def Overruns (s : Screen width height) (x y : Int) : Prop :=
  s.edge = .linear ∧ width * height ≤ y * width + x

/-- The coordinates make sense: a screen that does not wrap has no negative ones. -/
def Admits (s : Screen width height) (x y : Int) : Prop := s.edge = .wrap ∨ 0 ≤ x ∧ 0 ≤ y

/-- Where the edge mode puts a point; nowhere if it drops the point. -/
def spot? (s : Screen width height) (x y : Int) : Option Int :=
  match s.edge with
  | .linear => some (y * width + x)
  | .clip => if x < width ∧ y < height then some (y * width + x) else none
  | .wrap => some (y % height * width + x % width)

theorem spot_lt (hw : 0 < width) (hx : x < width) (hy : y < height) :
    y * width + x < width * height := by
  have hrow : y * width ≤ (height - 1) * width :=
    Int.mul_le_mul_of_nonneg_right (by omega) (by omega)
  rw [Int.sub_mul, Int.one_mul, Int.mul_comm height] at hrow
  omega

theorem locate_of_overruns (h : s.Overruns x y) :
    s.locate x y = .error (.outside x y width height) := by
  obtain ⟨hedge, hpast⟩ := h
  rw [locate, hedge]
  simp only
  rw [place, if_pos hpast]

theorem locate_of_not_overruns (hw : 0 < width) (hh : 0 < height) (h : ¬ s.Overruns x y) :
    s.locate x y = .ok (s.spot? x y) := by
  unfold locate spot?
  cases hedge : s.edge with
  | linear =>
    have hplace : ¬ width * height ≤ y * width + x := fun hpast => h ⟨hedge, hpast⟩
    simp only
    rw [place, if_neg hplace]
  | clip =>
    simp only
    by_cases hout : width ≤ x ∨ height ≤ y
    · rw [if_pos hout, if_neg (by omega)]
    · have hlt := spot_lt (x := x) (y := y) hw (by omega) (by omega : y < height)
      rw [if_neg hout, if_pos (by omega), place, if_neg (by omega)]
  | wrap =>
    have hx := Int.emod_lt_of_pos x hw
    have hy := Int.emod_lt_of_pos y hh
    have hlt := spot_lt hw hx hy
    simp only
    rw [if_neg (by omega), Int.fmod_eq_emod_of_nonneg x (Int.le_of_lt hw),
      Int.fmod_eq_emod_of_nonneg y (Int.le_of_lt hh), place, if_neg (by omega)]

/-- A point that is not refused goes to a pixel of the screen, if anywhere. -/
theorem spot_bounds (hw : 0 < width) (hh : 0 < height) (ha : s.Admits x y)
    (h : ¬ s.Overruns x y) (hk : s.spot? x y = some k) : 0 ≤ k ∧ k < width * height := by
  unfold spot? at hk
  cases hedge : s.edge with
  | linear =>
    rw [hedge] at hk
    obtain ⟨hx, hy⟩ := ha.resolve_left (by rw [hedge]; exact EdgeMode.noConfusion)
    have hrow := Int.mul_nonneg hy (Int.le_of_lt hw)
    have hplace : ¬ width * height ≤ y * width + x := fun hpast => h ⟨hedge, hpast⟩
    simp only [Option.some.injEq] at hk
    omega
  | clip =>
    rw [hedge] at hk
    obtain ⟨hx, hy⟩ := ha.resolve_left (by rw [hedge]; exact EdgeMode.noConfusion)
    have hrow := Int.mul_nonneg hy (Int.le_of_lt hw)
    simp only [Option.ite_none_right_eq_some, Option.some.injEq] at hk
    have hlt := spot_lt hw hk.1.1 hk.1.2
    omega
  | wrap =>
    rw [hedge] at hk
    have hx := Int.emod_lt_of_pos x hw
    have hx0 := Int.emod_nonneg x (Int.ne_of_gt hw)
    have hlt := spot_lt hw hx (Int.emod_lt_of_pos y hh)
    have hrow := Int.mul_nonneg (Int.emod_nonneg y (Int.ne_of_gt hh)) (Int.le_of_lt hw)
    simp only [Option.some.injEq] at hk
    omega

theorem overruns_congr (h : t.edge = s.edge) : t.Overruns x y ↔ s.Overruns x y := by
  unfold Overruns
  rw [h]

theorem admits_congr (h : t.edge = s.edge) : t.Admits x y ↔ s.Admits x y := by
  unfold Admits
  rw [h]

/-! ## Pixels -/

/-- Whether a pixel is lit; beyond the screen none is. -/
def litAt (s : Screen width height) (k : Int) : Bool :=
  if h : 0 ≤ k ∧ k < width * height then
    have : k.toNat < (width * height).toNat := by omega
    s.lit[k.toNat]
  else false

theorem litAt_natCast (s : Screen width height) {i : Nat} (hi : i < (width * height).toNat) :
    s.litAt i = s.lit[i] := by
  have hin : 0 ≤ (i : Int) ∧ (i : Int) < width * height := by omega
  rw [litAt, dif_pos hin]
  rfl

theorem lit_ext (hl : ∀ k, s.litAt k = t.litAt k) : s.lit = t.lit := by
  apply Vector.ext
  intro i hi
  rw [← litAt_natCast s hi, ← litAt_natCast t hi]
  exact hl i

/-- A screen is its edge mode, its pixels and its mark. -/
theorem ext_litAt (he : s.edge = t.edge) (hl : ∀ k, s.litAt k = t.litAt k)
    (hc : s.changed = t.changed) : s = t := by
  have hlit := lit_ext hl
  cases s
  cases t
  simp only at he hlit hc
  rw [he, hlit, hc]

theorem litAt_flip (s : Screen width height) (h0 : 0 ≤ k) (hk : k < width * height)
    (changed : Bool) (j : Int) :
    have : k.toNat < (width * height).toNat := by omega
    ({ s with lit := s.lit.set k.toNat (!s.lit[k.toNat]), changed } : Screen width height).litAt j =
      if j = k then !s.litAt j else s.litAt j := by
  unfold litAt
  simp only
  by_cases hj : 0 ≤ j ∧ j < width * height
  · rw [dif_pos hj, Vector.getElem_set]
    rcases eq_or_ne j k with rfl | hne
    · rw [if_pos rfl, if_pos rfl, dif_pos hj]
    · rw [if_neg (by omega), if_neg hne, dif_pos hj]
  · rw [dif_neg hj, if_neg (by omega), dif_neg hj]

/-! ## Toggling one point -/

/-- The most pixels that a screen can have: their numbers must fit a signed word. -/
def Fits (width height : Int) : Prop := width * height ≤ 0x8000000000000000

theorem toggle_of_spot (hfit : Fits width height) (hl : s.locate x y = .ok (some k)) (h0 : 0 ≤ k)
    (hk : k < width * height) :
    have : k.toNat < (width * height).toNat := by omega
    s.toggle x y =
      .ok ({ s with lit := s.lit.set k.toNat (!s.lit[k.toNat]), changed := true },
        some s.lit[k.toNat]) := by
  have hword : Cells.FitsWord k := by unfold Fits at hfit; omega
  have hcell := Cells.resolve_of_bounds (n := (width * height).toNat) hword h0 (by omega)
  rw [toggle, hl]
  simp only [hcell]
  rfl

/-- Drawing has flipped the pixels `ks` of `s` and left `t`; a hit is a pixel that went out. -/
structure Drawn (s : Screen width height) (ks : List Int) (t : Screen width height)
    (hit : Bool) : Prop where
  edge : t.edge = s.edge
  pixels : ∀ k, t.litAt k ≠ s.litAt k ↔ k ∈ ks
  hit : hit = true ↔ ∃ k ∈ ks, s.litAt k = true
  changed : t.changed = true ↔ s.changed = true ∨ ks ≠ []

theorem Drawn.nil (s : Screen width height) : Drawn s [] s false := by
  refine ⟨rfl, fun k => ?_, ?_, ?_⟩
  · simp
  · simp
  · simp

theorem Drawn.litAt_of_not_mem (h : Drawn s ks t hit) (hk : k ∉ ks) : t.litAt k = s.litAt k :=
  not_not.mp (mt (h.pixels k).mp hk)

/-- A pixel is lit afterwards if it was lit and is kept, or was unlit and is flipped. -/
theorem Drawn.litAt_eq (h : Drawn s ks t hit) (k : Int) :
    t.litAt k = (s.litAt k ^^ decide (k ∈ ks)) := by
  by_cases hk : k ∈ ks
  · have hne := (h.pixels k).mpr hk
    rw [decide_eq_true hk, Bool.xor_true]
    exact Bool.eq_not_of_ne hne
  · rw [decide_eq_false hk, Bool.xor_false]
    exact h.litAt_of_not_mem hk

/-- Only pixels of the screen are flipped. -/
theorem Drawn.bounds (h : Drawn s ks t hit) (hk : k ∈ ks) : 0 ≤ k ∧ k < width * height := by
  by_contra hout
  have hpixel := (h.pixels k).mpr hk
  rw [litAt, litAt, dif_neg hout, dif_neg hout] at hpixel
  exact hpixel rfl

theorem Drawn.append (h : Drawn s ks t hit) (h' : Drawn t js u hit') (hd : ∀ k ∈ js, k ∉ ks) :
    Drawn s (ks ++ js) u (hit || hit') where
  edge := h'.edge.trans h.edge
  pixels k := by
    rw [List.mem_append, ← h.pixels, ← h'.pixels]
    by_cases hk : k ∈ js
    · rw [h.litAt_of_not_mem (hd k hk)]
      simp
    · rw [h'.litAt_of_not_mem hk]
      simp
  hit := by
    have hsame : (∃ k ∈ js, t.litAt k = true) ↔ ∃ k ∈ js, s.litAt k = true := by
      refine exists_congr fun k => and_congr_right fun hk => ?_
      rw [h.litAt_of_not_mem (hd k hk)]
    rw [Bool.or_eq_true, h.hit, h'.hit, hsame, ← exists_or]
    simp only [List.mem_append, or_and_right]
  changed := by
    rw [h'.changed, h.changed, or_assoc]
    refine or_congr_right ?_
    cases ks with
    | nil => simp
    | cons k ks => simp

/-- A point that is not refused flips the pixel that it goes to, if any. -/
theorem toggle_drawn (hfit : Fits width height) (hw : 0 < width) (hh : 0 < height)
    (ha : s.Admits x y) (h : ¬ s.Overruns x y) :
    ∃ t, s.toggle x y = .ok (t, (s.spot? x y).map s.litAt) ∧
      Drawn s (s.spot? x y).toList t ((s.spot? x y).map s.litAt == some true) := by
  have hl := locate_of_not_overruns hw hh h
  cases hk : s.spot? x y with
  | none =>
    rw [hk] at hl
    exact ⟨s, by rw [toggle, hl]; rfl, .nil s⟩
  | some k =>
    obtain ⟨h0, hlt⟩ := spot_bounds hw hh ha h hk
    rw [hk] at hl
    have hcell : k.toNat < (width * height).toNat := by omega
    have hlit : s.litAt k = s.lit[k.toNat] := by rw [litAt, dif_pos ⟨h0, hlt⟩]
    rw [Option.map_some, hlit]
    refine ⟨_, toggle_of_spot hfit hl h0 hlt, ?_⟩
    refine ⟨rfl, fun j => ?_, ?_, ?_⟩
    · rw [litAt_flip s h0 hlt]
      by_cases hj : j = k
      · simp [hj]
      · simp [hj]
    · simp [hlit]
    · simp

/-! ## Plotting a list of points -/

/-- Where the edge mode puts some points; dropped points are left out. -/
def spots (s : Screen width height) (points : List (Int × Int)) : List Int :=
  points.filterMap fun p => s.spot? p.1 p.2

theorem spot_congr (h : t.edge = s.edge) : t.spot? x y = s.spot? x y := by
  unfold spot?
  rw [h]

theorem spots_cons (s : Screen width height) (p : Int × Int) (points : List (Int × Int)) :
    s.spots (p :: points) = (s.spot? p.1 p.2).toList ++ s.spots points := by
  unfold spots
  rw [List.filterMap_cons]
  cases s.spot? p.1 p.2 with
  | none => rfl
  | some k => rfl

theorem spots_congr (h : t.edge = s.edge) : t.spots points = s.spots points := by
  unfold spots
  simp only [spot_congr h]

theorem locateEach_of_not_overruns (hw : 0 < width) (hh : 0 < height)
    (h : ∀ p ∈ points, ¬ s.Overruns p.1 p.2) : s.locateEach points = .ok () := by
  induction points with
  | nil => rfl
  | cons p points ih =>
    obtain ⟨hp, hrest⟩ := List.forall_mem_cons.mp h
    rw [locateEach, locate_of_not_overruns hw hh hp]
    exact ih hrest

theorem locateEach_of_overruns (hw : 0 < width) (hh : 0 < height)
    (h : ∃ p ∈ points, s.Overruns p.1 p.2) :
    ∃ x y, s.locateEach points = .error (.outside x y width height) := by
  induction points with
  | nil => simp at h
  | cons p points ih =>
    by_cases hp : s.Overruns p.1 p.2
    · exact ⟨p.1, p.2, by rw [locateEach, locate_of_overruns hp]⟩
    · obtain ⟨q, hq, hover⟩ := h
      rcases List.mem_cons.mp hq with rfl | hq
      · exact absurd hover hp
      · obtain ⟨x, y, hrest⟩ := ih ⟨q, hq, hover⟩
        refine ⟨x, y, ?_⟩
        rw [locateEach, locate_of_not_overruns hw hh hp]
        exact hrest

/-- Points that are not refused are toggled, and flip the pixels that they go to if those are
different ones. -/
theorem toggleEach_of_not_overruns (hfit : Fits width height) (hw : 0 < width) (hh : 0 < height)
    (ha : ∀ p ∈ points, s.Admits p.1 p.2) (h : ∀ p ∈ points, ¬ s.Overruns p.1 p.2) :
    ∃ t hit, s.toggleEach points = (t, hit, none) ∧
      ((s.spots points).Nodup → Drawn s (s.spots points) t hit) := by
  induction points generalizing s with
  | nil => exact ⟨s, false, rfl, fun _ => .nil s⟩
  | cons p points ih =>
    obtain ⟨hp, hrest⟩ := List.forall_mem_cons.mp h
    obtain ⟨hpa, hresta⟩ := List.forall_mem_cons.mp ha
    obtain ⟨t, htoggle, hfirst⟩ := toggle_drawn hfit hw hh hpa hp
    have hedge := hfirst.edge
    obtain ⟨u, hit, hu, hthen⟩ := ih (s := t)
      (fun q hq => (admits_congr hedge).mpr (hresta q hq))
      (fun q hq hover => hrest q hq ((overruns_congr hedge).mp hover))
    refine ⟨u, (s.spot? p.1 p.2).map s.litAt == some true || hit, ?_, fun hn => ?_⟩
    · rw [toggleEach, htoggle]
      simp only
      rw [hu]
    · rw [spots_congr hedge] at hthen
      rw [spots_cons] at hn ⊢
      obtain ⟨-, hnodup, hapart⟩ := List.nodup_append.mp hn
      exact hfirst.append (hthen hnodup) fun k hk hfirst => hapart k hfirst k hk rfl

/-- Points are plotted all or not at all, and what refuses them is one that overruns: it is found
when the points are located, before the first of them is toggled. -/
theorem plot_cases (hfit : Fits width height) (hw : 0 < width) (hh : 0 < height)
    (ha : ∀ p ∈ points, s.Admits p.1 p.2) :
    ((∃ p ∈ points, s.Overruns p.1 p.2) ∧
      ∃ x y, s.plot points = (s, false, some (.outside x y width height))) ∨
    ((∀ p ∈ points, ¬ s.Overruns p.1 p.2) ∧
      ∃ t hit, s.plot points = (t, hit, none) ∧
        ((s.spots points).Nodup → Drawn s (s.spots points) t hit)) := by
  by_cases h : ∃ p ∈ points, s.Overruns p.1 p.2
  · obtain ⟨x, y, hl⟩ := locateEach_of_overruns hw hh h
    exact Or.inl ⟨h, x, y, by rw [plot, hl]⟩
  · have hno : ∀ p ∈ points, ¬ s.Overruns p.1 p.2 := fun p hp hover => h ⟨p, hp, hover⟩
    obtain ⟨t, hit, ht, hdrawn⟩ := toggleEach_of_not_overruns hfit hw hh ha hno
    refine Or.inr ⟨hno, t, hit, ?_, hdrawn⟩
    rw [plot, locateEach_of_not_overruns hw hh hno]
    exact ht

/-! ## The mark of a changed picture -/

/-- If `t` is not marked as changed, it is `s`. -/
def Kept (s t : Screen width height) : Prop := t.changed = false → t = s

theorem Kept.refl (s : Screen width height) : Kept s s := fun _ => rfl

theorem Kept.of_eq (h : t = s) : Kept s t := fun _ => h

theorem Kept.trans (h1 : Kept s t) (h2 : Kept t u) : Kept s u := by
  intro hu
  have hut := h2 hu
  rw [hut] at hu
  exact hut.trans (h1 hu)

theorem Kept.of_changed (h : t.changed = true) : Kept s t := by
  intro ht
  rw [h] at ht
  cases ht

theorem kept_clear (s : Screen width height) : Kept s s.clear := Kept.of_changed rfl

theorem kept_of_toggle {out : Option Bool} (h : s.toggle x y = .ok (t, out)) : Kept s t := by
  unfold toggle at h
  split at h
  · cases h
  · cases h; exact Kept.refl s
  · split at h <;> cases h
    exact Kept.of_changed rfl

theorem kept_toggleEach (s : Screen width height) (points : List (Int × Int)) :
    Kept s (s.toggleEach points).1 := by
  induction points generalizing s with
  | nil => exact Kept.refl s
  | cons p points ih =>
    rw [toggleEach]
    cases hp : s.toggle p.1 p.2 with
    | error fault => exact Kept.refl s
    | ok r => exact (kept_of_toggle hp).trans (ih r.1)

theorem kept_of_plot {fault : Option ScreenFault} (h : s.plot points = (t, hit, fault)) :
    Kept s t := by
  unfold plot at h
  split at h
  · cases h
    exact Kept.refl s
  · have hkept := kept_toggleEach s points
    rwa [h] at hkept

/-! ## Packed colours -/

theorem toList_bytes (s : Screen width height) :
    s.bytes.toList =
      s.lit.toList.flatMap fun lit => List.replicate 4 (if lit then 0xFF else 0) := by
  rw [bytes, Array.toList_flatMap]
  rfl

theorem size_bytes (s : Screen width height) : s.bytes.size = 4 * (width * height).toNat := by
  rw [← Array.length_toList, toList_bytes, List.length_flatMap]
  simp [List.map_const', Nat.mul_comm]

theorem getElem?_flatMap_replicate (f : Bool → UInt8) (l : List Bool) (k : Nat) {j : Nat}
    (hj : j < 4) : (l.flatMap fun lit => List.replicate 4 (f lit))[4 * k + j]? = l[k]?.map f := by
  induction l generalizing k with
  | nil => simp
  | cons lit l ih =>
    rw [List.flatMap_cons]
    cases k with
    | zero =>
      rw [List.getElem?_append_left (by simp; omega), List.getElem?_replicate, if_pos (by omega)]
      rfl
    | succ k =>
      have hsub : 4 * (k + 1) + j - 4 = 4 * k + j := by omega
      rw [List.getElem?_append_right (by simp; omega), List.length_replicate, hsub, ih,
        List.getElem?_cons_succ]

/-- The four bytes of a pixel are all set or all clear. -/
theorem getElem?_bytes (s : Screen width height) (k : Nat) {j : Nat} (hj : j < 4) :
    s.bytes[4 * k + j]? = s.lit[k]?.map fun lit => if lit then 0xFF else 0 := by
  rw [← Array.getElem?_toList, toList_bytes, getElem?_flatMap_replicate _ _ _ hj,
    Vector.getElem?_toList]

/-- The picture shows which pixels are lit: four bytes for each, all set or all clear. -/
structure Pictures (s : Screen width height) (picture : Array UInt8) : Prop where
  size : picture.size = 4 * (width * height).toNat
  bytes : ∀ k < (width * height).toNat, ∀ j < 4,
    picture[4 * k + j]? = some (if s.litAt k then 0xFF else 0)

theorem pictures_bytes (s : Screen width height) : s.Pictures s.bytes where
  size := s.size_bytes
  bytes k hk j hj := by
    rw [getElem?_bytes s k hj, Vector.getElem?_eq_getElem hk, litAt_natCast s hk]
    rfl

end Screen

end Chip8
