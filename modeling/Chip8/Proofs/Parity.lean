import Chip8.Proofs.SpriteLaw
import Mathlib.Data.List.Induction

/-!
# Chip8.Proofs.Parity — which pixels of a screen are lit

A screen of any size is told to toggle points and to clear itself (`ScreenCall`).  After any such
calls a pixel is lit if an odd number of the points toggled since the last clearing went to it
(`litAt_obeyAll`): a call that is refused or dropped goes to no pixel, and every other call turns
around the one pixel to which its point goes, and answers which way (`Answered`).  The packed
picture, and whether it is blank, follow from the pixels (`parity_law`).
-/

namespace Chip8

open Platform (pixelOn pixelOff)

/-- What a screen can be told to do. -/
inductive ScreenCall where
  | toggle (x y : Int)
  | clear

namespace ScreenCall

/-- The points that have been toggled since the screen was last cleared, in order. -/
def sinceClear (calls : List ScreenCall) : List (Int × Int) :=
  calls.foldl
    (fun points call =>
      match call with
      | toggle x y => points ++ [(x, y)]
      | clear => [])
    []

theorem sinceClear_toggle (calls : List ScreenCall) (x y : Int) :
    sinceClear (calls ++ [toggle x y]) = sinceClear calls ++ [(x, y)] :=
  List.foldl_concat ..

theorem sinceClear_clear (calls : List ScreenCall) : sinceClear (calls ++ [clear]) = [] :=
  List.foldl_concat ..

/-- In any mode but the one that wraps, the coordinates are not negative. -/
def Sensible (edge : EdgeMode) : ScreenCall → Prop
  | toggle x y => edge = .wrap ∨ 0 ≤ x ∧ 0 ≤ y
  | clear => True

end ScreenCall

namespace Screen

open ScreenCall (sinceClear)

variable {width height : Int} {s t : Screen width height} {x y k : Int}

/-! ## Calls -/

/-- The screen after a call; a refused call leaves it as it was. -/
def obey (s : Screen width height) : ScreenCall → Screen width height
  | .toggle x y =>
    match s.toggle x y with
    | .ok (t, _) => t
    | .error _ => s
  | .clear => s.clear

/-- The screen after some calls. -/
def obeyAll (s : Screen width height) (calls : List ScreenCall) : Screen width height :=
  calls.foldl obey s

/-- How many of the points go to the pixel `k`. -/
def hits (s : Screen width height) (points : List (Int × Int)) (k : Int) : Nat :=
  (s.spots points).count k

theorem obeyAll_concat (s : Screen width height) (calls : List ScreenCall) (call : ScreenCall) :
    s.obeyAll (calls ++ [call]) = (s.obeyAll calls).obey call :=
  List.foldl_concat ..

theorem hits_concat (s : Screen width height) (points : List (Int × Int)) (x y k : Int) :
    s.hits (points ++ [(x, y)]) k = s.hits points k + if s.spot? x y = some k then 1 else 0 := by
  unfold hits spots
  rw [List.filterMap_append, List.count_append]
  cases hspot : s.spot? x y with
  | none => simp [hspot]
  | some j => simp [hspot, List.count_singleton]

theorem obey_of_refused {fault : ScreenFault} (h : s.toggle x y = .error fault) :
    s.obey (.toggle x y) = s := by
  rw [obey, h]

theorem obey_of_done {out : Option Bool} (h : s.toggle x y = .ok (t, out)) :
    s.obey (.toggle x y) = t := by
  rw [obey, h]

theorem toggle_of_overruns (h : s.Overruns x y) :
    s.toggle x y = .error (.outside x y width height) := by
  rw [toggle, locate_of_overruns h]

theorem toggle_of_dropped (hw : 0 < width) (hh : 0 < height) (hover : ¬ s.Overruns x y)
    (hnone : s.spot? x y = none) : s.toggle x y = .ok (s, none) := by
  rw [toggle, locate_of_not_overruns hw hh hover, hnone]

/-- A point that overruns the screen goes to none of its pixels. -/
theorem spot_ne_of_overruns (h : s.Overruns x y) (hk : k < width * height) :
    s.spot? x y ≠ some k := by
  obtain ⟨hedge, hpast⟩ := h
  unfold spot?
  rw [hedge]
  intro hspot
  have hsame := Option.some.inj hspot
  omega

/-- A call turns around the pixel to which its point goes, and no other. -/
theorem litAt_obey_toggle (hfit : Fits width height) (hw : 0 < width) (hh : 0 < height)
    (ha : s.Admits x y) (hk : k < width * height) :
    (s.obey (.toggle x y)).litAt k = (s.litAt k ^^ decide (s.spot? x y = some k)) := by
  by_cases hover : s.Overruns x y
  · rw [obey_of_refused (toggle_of_overruns hover), decide_eq_false (spot_ne_of_overruns hover hk),
      Bool.xor_false]
  · obtain ⟨t, htoggle, hdrawn⟩ := toggle_drawn hfit hw hh ha hover
    rw [obey_of_done htoggle, hdrawn.litAt_eq]
    simp only [Option.mem_toList]

theorem edge_obey (s : Screen width height) (call : ScreenCall) : (s.obey call).edge = s.edge := by
  cases call with
  | clear => rfl
  | toggle x y =>
    rw [obey, toggle]
    cases s.locate x y with
    | error fault => rfl
    | ok spot =>
      cases spot with
      | none => rfl
      | some spot =>
        simp only
        cases Cells.resolve (width * height).toNat spot with
        | error fault => rfl
        | ok k => rfl

theorem edge_obeyAll (s : Screen width height) (calls : List ScreenCall) :
    (s.obeyAll calls).edge = s.edge := by
  induction calls generalizing s with
  | nil => rfl
  | cons call calls ih => exact (ih (s.obey call)).trans (s.edge_obey call)

theorem litAt_unlit (edge : EdgeMode) (changed : Bool) (k : Int) :
    (⟨edge, Vector.replicate (width * height).toNat false, changed⟩ :
      Screen width height).litAt k = false := by
  unfold litAt
  split_ifs
  · simp
  · rfl

/-- **Parity.**  A pixel is lit if an odd number of points have gone to it since the screen was
last cleared. -/
theorem litAt_obeyAll (hfit : Fits width height) (hw : 0 < width) (hh : 0 < height)
    (edge : EdgeMode) (calls : List ScreenCall) (hcalls : ∀ call ∈ calls, call.Sensible edge)
    (hk : k < width * height) :
    ((blank edge : Screen width height).obeyAll calls).litAt k =
      decide ((blank edge : Screen width height).hits (sinceClear calls) k % 2 = 1) := by
  induction calls using List.reverseRecOn with
  | nil => exact litAt_unlit edge true k
  | append_singleton calls call ih =>
    obtain ⟨hbefore, hlast⟩ := List.forall_mem_append.mp hcalls
    have hcall := hlast call (List.mem_singleton.mpr rfl)
    have hedge := edge_obeyAll (blank edge : Screen width height) calls
    rw [obeyAll_concat]
    cases call with
    | clear =>
      rw [ScreenCall.sinceClear_clear]
      exact litAt_unlit _ true k
    | toggle x y =>
      have ha : ((blank edge : Screen width height).obeyAll calls).Admits x y := by
        unfold Admits
        rw [hedge]
        exact hcall
      rw [litAt_obey_toggle hfit hw hh ha hk, ih hbefore, ScreenCall.sinceClear_toggle,
        hits_concat, spot_congr hedge]
      by_cases hspot : (blank edge : Screen width height).spot? x y = some k
      · rw [decide_eq_true hspot, if_pos hspot, Bool.xor_true, ← decide_not, decide_eq_decide]
        omega
      · rw [decide_eq_false hspot, if_neg hspot, Bool.xor_false, Nat.add_zero]

/-! ## Answers -/

/-- The pixel to which a point goes has one colour before the call and another after it. -/
def Switches (s : Screen width height) (x y : Int) (before after : Nat) : Prop :=
  ∃ k : Nat, k < (width * height).toNat ∧ s.spot? x y = some (k : Int) ∧
    s.colour k = before ∧ (s.obey (.toggle x y)).colour k = after

/-- What a screen does and answers when it is told to toggle a point.  It answers whether the pixel
of the point went out; it answers nothing to a point that it drops, and refuses one past the last
row where nothing clips or wraps. -/
structure Answered (s : Screen width height) (x y : Int) : Prop where
  turned : ∀ k < (width * height).toNat,
    TurnsAround s (s.obey (.toggle x y)) k ↔ s.spot? x y = some (k : Int)
  out : (∃ t, s.toggle x y = .ok (t, some true)) ↔ s.Switches x y pixelOn pixelOff
  lit : (∃ t, s.toggle x y = .ok (t, some false)) ↔ s.Switches x y pixelOff pixelOn
  dropped : ∀ t, s.toggle x y = .ok (t, none) ↔
    s.edge = .clip ∧ (width ≤ x ∨ height ≤ y) ∧ t = s
  refused : ∀ fault, s.toggle x y = .error fault ↔
    s.edge = .linear ∧ width * height ≤ y * width + x ∧ fault = .outside x y width height
  /-- A refused call changes nothing. -/
  kept : ∀ fault, s.toggle x y = .error fault → s.obey (.toggle x y) = s

theorem spot_eq_none_iff :
    s.spot? x y = none ↔ s.edge = .clip ∧ (width ≤ x ∨ height ≤ y) := by
  unfold spot?
  cases s.edge with
  | linear => simp
  | wrap => simp
  | clip =>
    simp only [ite_eq_right_iff, reduceCtorEq, imp_false, true_and]
    omega

/-- What the answer says of the pixel to which the point goes. -/
theorem switches_iff (hfit : Fits width height) (hw : 0 < width) (hh : 0 < height)
    (ha : s.Admits x y) (hover : ¬ s.Overruns x y) (lit : Bool) :
    s.Switches x y (if lit then pixelOn else pixelOff) (if !lit then pixelOn else pixelOff) ↔
      (s.spot? x y).map s.litAt = some lit := by
  rw [Option.map_eq_some_iff]
  constructor
  · rintro ⟨k, hk, hspot, hbefore, -⟩
    exact ⟨k, hspot, (colour_eq_iff hk lit).mp hbefore⟩
  · rintro ⟨j, hspot, hlit⟩
    obtain ⟨h0, hlt⟩ := spot_bounds hw hh ha hover hspot
    obtain ⟨k, rfl⟩ := Int.eq_ofNat_of_zero_le h0
    have hk : k < (width * height).toNat := by omega
    refine ⟨k, hk, hspot, (colour_eq_iff hk lit).mpr hlit, (colour_eq_iff hk (!lit)).mpr ?_⟩
    rw [litAt_obey_toggle hfit hw hh ha hlt, decide_eq_true hspot, hlit, Bool.xor_true]

theorem turnsAround_obey_iff (hfit : Fits width height) (hw : 0 < width) (hh : 0 < height)
    (ha : s.Admits x y) {k : Nat} (hk : k < (width * height).toNat) :
    TurnsAround s (s.obey (.toggle x y)) k ↔ s.spot? x y = some (k : Int) := by
  rw [turnsAround_iff hk, litAt_obey_toggle hfit hw hh ha (by omega)]
  cases s.litAt k <;> simp

theorem answered_of_overruns (hfit : Fits width height) (hw : 0 < width) (hh : 0 < height)
    (ha : s.Admits x y) (hover : s.Overruns x y) : Answered s x y := by
  have htoggle := toggle_of_overruns hover
  have hstays : ∀ before after, ¬ s.Switches x y before after := by
    rintro before after ⟨k, hk, hspot, -⟩
    exact spot_ne_of_overruns hover (by omega) hspot
  have hnone : ∀ lit, ¬ ∃ t, s.toggle x y = .ok (t, some lit) := by
    rintro lit ⟨t, h⟩
    rw [htoggle] at h
    cases h
  obtain ⟨hedge, hpast⟩ := hover
  refine ⟨fun k hk => turnsAround_obey_iff hfit hw hh ha hk, iff_of_false (hnone _) (hstays _ _),
    iff_of_false (hnone _) (hstays _ _), ?_, ?_, fun fault => obey_of_refused⟩
  · intro t
    rw [htoggle, hedge]
    simp
  · intro fault
    rw [htoggle]
    simp only [Except.error.injEq, hedge, hpast, true_and, eq_comm]

theorem answered_of_not_overruns (hfit : Fits width height) (hw : 0 < width) (hh : 0 < height)
    (ha : s.Admits x y) (hover : ¬ s.Overruns x y) : Answered s x y := by
  obtain ⟨t, htoggle, -⟩ := toggle_drawn hfit hw hh ha hover
  have hanswer : ∀ lit : Bool, (∃ u, s.toggle x y = .ok (u, some lit)) ↔
      (s.spot? x y).map s.litAt = some lit := by
    intro lit
    rw [htoggle]
    simp
  have hswitches := switches_iff hfit hw hh ha hover
  refine ⟨fun k hk => turnsAround_obey_iff hfit hw hh ha hk,
    (hanswer true).trans (hswitches true).symm, (hanswer false).trans (hswitches false).symm,
    ?_, ?_, fun fault => obey_of_refused⟩
  · intro u
    rw [← and_assoc, ← spot_eq_none_iff]
    constructor
    · intro h
      have hnone : s.spot? x y = none := by
        rw [htoggle] at h
        simpa using congrArg Prod.snd (Except.ok.inj h)
      rw [toggle_of_dropped hw hh hover hnone] at h
      cases h
      exact ⟨hnone, rfl⟩
    · rintro ⟨hnone, rfl⟩
      exact toggle_of_dropped hw hh hover hnone
  · intro fault
    rw [htoggle]
    refine iff_of_false (fun h => by cases h) ?_
    rintro ⟨hedge, hpast, -⟩
    exact hover ⟨hedge, hpast⟩

theorem answered (hfit : Fits width height) (hw : 0 < width) (hh : 0 < height)
    (ha : s.Admits x y) : Answered s x y := by
  by_cases hover : s.Overruns x y
  · exact answered_of_overruns hfit hw hh ha hover
  · exact answered_of_not_overruns hfit hw hh ha hover

/-! ## The law -/

theorem isBlank_iff (s : Screen width height) :
    s.isBlank = true ↔ ∀ k < (width * height).toNat, s.colour k = pixelOff := by
  rw [isBlank, Vector.all_eq_true]
  refine forall₂_congr fun k hk => ?_
  rw [colour_eq_off_iff hk, litAt_natCast s hk, Bool.not_eq_true']

/-- A screen of any size is made blank, if at all. -/
theorem eq_blank_of_create {room : Int} {edge : EdgeMode}
    (h : create room edge.name width height = .ok s) : s = blank edge := by
  have hname : EdgeMode.ofName? edge.name = some edge := by cases edge <;> decide
  rw [create, hname] at h
  simp only at h
  split_ifs at h with hword hneg hroom
  cases h
  rfl

/-- The picture shows the parity of the points that have gone to each pixel since the last
clearing. -/
structure Shows (s : Screen width height) (points : List (Int × Int)) : Prop where
  colour : ∀ k < (width * height).toNat,
    s.colour k = if s.hits points k % 2 = 1 then pixelOn else pixelOff
  size : s.bytes.size = 4 * (width * height).toNat
  bytes : ∀ k < (width * height).toNat, ∀ j < 4,
    s.bytes[4 * k + j]? = some (if s.colour k = pixelOn then 0xFF else 0)
  blank : s.isBlank = true ↔ ∀ k < (width * height).toNat, s.colour k = pixelOff

/-- **The law of parity.**  A screen of any size starts blank, and is told to toggle points and to
clear itself.  After any such calls a pixel is lit exactly if an odd number of the points toggled
since the last clearing went to it, the packed picture and the test for a blank one say the same,
and any further point turns around the pixel to which it goes, and no other, or is dropped or
refused. -/
theorem parity_law {edge : EdgeMode} (hw : 1 ≤ width) (hh : 1 ≤ height) (hfit : Fits width height)
    (calls : List ScreenCall) (hcalls : ∀ call ∈ calls, call.Sensible edge) :
    (∀ (room : Int) (s : Screen width height),
        create room edge.name width height = .ok s → s = blank edge) ∧
      ((blank edge : Screen width height).obeyAll calls).edge = edge ∧
      Shows ((blank edge : Screen width height).obeyAll calls) (sinceClear calls) ∧
      ∀ x y, (ScreenCall.toggle x y).Sensible edge →
        Answered ((blank edge : Screen width height).obeyAll calls) x y := by
  have hw0 : 0 < width := by omega
  have hh0 : 0 < height := by omega
  have hedge : ((blank edge : Screen width height).obeyAll calls).edge = edge :=
    edge_obeyAll (blank edge) calls
  have hcolour : ∀ k < (width * height).toNat,
      ((blank edge : Screen width height).obeyAll calls).litAt k = decide
        (((blank edge : Screen width height).obeyAll calls).hits (sinceClear calls) k % 2 = 1) := by
    intro k hk
    have hspots : ((blank edge : Screen width height).obeyAll calls).spots (sinceClear calls) =
        (blank edge : Screen width height).spots (sinceClear calls) := spots_congr hedge
    rw [litAt_obeyAll hfit hw0 hh0 edge calls hcalls (by omega), hits, hits, hspots]
  refine ⟨fun _ _ => eq_blank_of_create, hedge, ⟨?_, size_bytes _, ?_, isBlank_iff _⟩, ?_⟩
  · intro k hk
    rw [colour_eq _ hk, hcolour k hk]
    simp only [decide_eq_true_eq]
  · intro k hk j hj
    rw [(pictures_bytes _).bytes k hk j hj]
    simp only [colour_eq_on_iff hk]
  · intro x y hxy
    have ha : ((blank edge : Screen width height).obeyAll calls).Admits x y := by
      rw [Admits, hedge]
      exact hxy
    exact answered hfit hw0 hh0 ha

/-- Calls that go past the right edge and the bottom edge of three columns and two rows. -/
def pastTheEdges : List ScreenCall :=
  [.toggle 0 1, .clear, .toggle 2 1, .toggle 3 1, .toggle 0 0, .toggle 2 2, .toggle 0 0]

/-- A screen that clips drops these points: only the corner stays lit. -/
theorem parity_law_past_the_edges :
    ((blank .clip : Screen 3 2).obeyAll pastTheEdges).colour 5 = pixelOn ∧
      ((blank .clip : Screen 3 2).obeyAll pastTheEdges).isBlank = false ∧
      ((blank .clip : Screen 3 2).obeyAll pastTheEdges).toggle 3 1 =
        .ok ((blank .clip : Screen 3 2).obeyAll pastTheEdges, none) := by
  have hfit : Fits 3 2 := by
    unfold Fits
    decide
  have hcalls : ∀ call ∈ pastTheEdges, call.Sensible .clip := by
    simp [pastTheEdges, ScreenCall.Sensible]
  obtain ⟨-, hedge, hshows, hanswers⟩ :=
    parity_law (by decide) (by decide) hfit pastTheEdges hcalls
  have hlit : ((blank .clip : Screen 3 2).obeyAll pastTheEdges).colour 5 = pixelOn :=
    hshows.colour 5 (by decide)
  refine ⟨hlit, ?_, ?_⟩
  · rw [Bool.eq_false_iff]
    intro hblank
    have hoff := hshows.blank.mp hblank 5 (by decide)
    rw [hlit] at hoff
    cases hoff
  · have hx : (ScreenCall.toggle 3 1).Sensible .clip := Or.inr ⟨by decide, by decide⟩
    exact ((hanswers 3 1 hx).dropped _).mpr ⟨hedge, Or.inl (by decide), rfl⟩

end Screen

end Chip8
