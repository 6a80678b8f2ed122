import Chip8.HostInput
import Chip8.Proofs.Literals
import Mathlib.Data.List.Forall2
import Mathlib.Data.List.Nodup
import Mathlib.Tactic.SplitIfs

/-!
# Chip8.Proofs.Keymaps — which texts are keymaps

A keymap is sixteen fields between commas, each a literal, and no two of one value.  What can be
wrong with a field is a `Flaw`: it is no literal, or it repeats the value of an earlier field.  The
reader stops at the first flaw (`readFields_cases`), so a text with the right number of fields is
refused for its `FirstFlaw` and accepted exactly if it has none (`keymap_grammar`).
-/

namespace Chip8

namespace Keymap

open IntLiteral (Denotes)

variable {fs done rest : List (List Char)} {codes : List Int} {keys : List Key}
  {before entries : List (Int × Key)} {i : Nat} {code : Int} {key : Key}
  {fault fault' : KeymapFault} {text : String}

/-! ## Fields and their values -/

theorem fields_eq_splitOn (cs : List Char) : fields cs = cs.splitOn ',' := by
  induction cs with
  | nil => rfl
  | cons c cs ih =>
    rw [fields, ih, List.splitOn, List.splitOn, List.splitOnP_cons_eq_if_modifyHead]
    simp only [beq_iff_eq]
    split_ifs with hcomma
    · rfl
    · cases hsplit : cs.splitOnP (· == ',') with
      | nil => exact absurd hsplit (List.splitOnP_ne_nil _ _)
      | cons field more => rfl

/-- The value at an index is that of the field at that index. -/
theorem getElem?_codes (hread : List.Forall₂ Denotes fs codes) (i : Nat) (code : Int) :
    codes[i]? = some code ↔ ∃ field, fs[i]? = some field ∧ Denotes field code := by
  induction hread generalizing i with
  | nil => simp
  | cons hfield hmore ih =>
    cases i with
    | zero =>
      simp only [List.getElem?_cons_zero, Option.some.injEq, exists_eq_left']
      constructor
      · rintro rfl
        exact hfield
      · intro h
        exact hfield.unique h
    | succ i =>
      simp only [List.getElem?_cons_succ]
      exact ih i

/-! ## Flaws -/

/-- What is wrong with field number `i`, seen from the fields up to it. -/
inductive Flaw (fs : List (List Char)) (i : Nat) : KeymapFault → Prop
  | notInteger {field : List Char} (hfield : fs[i]? = some field)
      (hno : ¬ ∃ code, Denotes field code) : Flaw fs i .notInteger
  | duplicate {j : Nat} {earlier field : List Char} {code : Int} (hj : j < i)
      (hearlier : fs[j]? = some earlier) (hfield : fs[i]? = some field)
      (hcode : Denotes earlier code) (hcode' : Denotes field code) : Flaw fs i .duplicate

/-- Field number `i` is the first one with a flaw. -/
structure FirstFlaw (fs : List (List Char)) (i : Nat) (fault : KeymapFault) : Prop where
  flaw : Flaw fs i fault
  first : ∀ j < i, ∀ fault, ¬ Flaw fs j fault

theorem Flaw.unique (h : Flaw fs i fault) (h' : Flaw fs i fault') : fault = fault' := by
  cases h with
  | notInteger hfield hno =>
    cases h' with
    | notInteger => rfl
    | duplicate _ _ hfield' _ hcode =>
      rw [hfield] at hfield'
      cases hfield'
      exact absurd ⟨_, hcode⟩ hno
  | duplicate _ _ hfield _ hcode =>
    cases h' with
    | notInteger hfield' hno =>
      rw [hfield] at hfield'
      cases hfield'
      exact absurd ⟨_, hcode⟩ hno
    | duplicate => rfl

theorem FirstFlaw.unique {j : Nat} (h : FirstFlaw fs i fault) (h' : FirstFlaw fs j fault') :
    fault = fault' := by
  rcases Nat.lt_trichotomy i j with hlt | rfl | hlt
  · exact absurd h.flaw (h'.first i hlt fault)
  · exact h.flaw.unique h'.flaw
  · exact absurd h'.flaw (h.first j hlt fault')

/-- The fields that follow have no part in a flaw. -/
theorem Flaw.of_append (h : Flaw (done ++ rest) i fault) (hi : i < done.length) :
    Flaw done i fault := by
  cases h with
  | notInteger hfield hno =>
    rw [List.getElem?_append_left hi] at hfield
    exact .notInteger hfield hno
  | duplicate hj hearlier hfield hcode hcode' =>
    rw [List.getElem?_append_left hi] at hfield
    rw [List.getElem?_append_left (by omega)] at hearlier
    exact .duplicate hj hearlier hfield hcode hcode'

/-- Literals of different values have no flaw. -/
theorem not_flaw (hread : List.Forall₂ Denotes fs codes) (hnodup : codes.Nodup) :
    ¬ Flaw fs i fault := by
  intro h
  cases h with
  | notInteger hfield hno =>
    have hlt : i < codes.length := by
      rw [← hread.length_eq]
      exact (List.getElem?_eq_some_iff.mp hfield).1
    obtain ⟨field, hsame, hcode⟩ :=
      (getElem?_codes hread i codes[i]).mp (List.getElem?_eq_getElem hlt)
    rw [hfield] at hsame
    cases hsame
    exact hno ⟨_, hcode⟩
  | duplicate hj hearlier hfield hcode hcode' =>
    have hat := (getElem?_codes hread _ _).mpr ⟨_, hearlier, hcode⟩
    have hat' := (getElem?_codes hread _ _).mpr ⟨_, hfield, hcode'⟩
    have hlt := (List.getElem?_eq_some_iff.mp hat).1
    have hsame := (List.getElem?_inj hlt hnodup).mp (hat.trans hat'.symm)
    omega

/-- What is wrong after fields without a flaw is the first flaw. -/
theorem firstFlaw_of_flaw (hread : List.Forall₂ Denotes done codes) (hnodup : codes.Nodup)
    (h : Flaw (done ++ rest) done.length fault) : FirstFlaw (done ++ rest) done.length fault := by
  refine ⟨h, ?_⟩
  intro j hj fault hflaw
  exact not_flaw hread hnodup (hflaw.of_append hj)

/-! ## Reading fields -/

/-- After the fields `done`, with the values `codes`, the reader goes on to the end or stops at the
first flaw. -/
theorem readFields_cases (hread : List.Forall₂ Denotes done codes) (hnodup : codes.Nodup)
    (hbefore : before.map Prod.fst = codes) (hkeys : keys.length = rest.length) :
    (∃ more, List.Forall₂ Denotes rest more ∧ (codes ++ more).Nodup ∧
      readFields before (rest.zip keys) = .ok (before ++ more.zip keys)) ∨
    (∃ i fault, FirstFlaw (done ++ rest) i fault ∧
      readFields before (rest.zip keys) = .error fault) := by
  induction rest generalizing done codes before keys with
  | nil =>
    refine Or.inl ⟨[], .nil, by rw [List.append_nil]; exact hnodup, ?_⟩
    rw [List.zip_nil_left, List.zip_nil_left, List.append_nil]
    rfl
  | cons field rest ih =>
    obtain ⟨key, keys, rfl⟩ := List.exists_cons_of_length_eq_add_one hkeys
    have hat : (done ++ field :: rest)[done.length]? = some field := by simp
    rw [List.zip_cons_cons, readFields]
    cases hparse : IntLiteral.parse? (String.ofList field) with
    | none =>
      have hno : ¬ ∃ code, Denotes field code := by
        rintro ⟨code, hcode⟩
        rw [← IntLiteral.parse_ofList_eq_some_iff, hparse] at hcode
        cases hcode
      exact Or.inr ⟨_, _, firstFlaw_of_flaw hread hnodup (.notInteger hat hno), rfl⟩
    | some code =>
      have hcode : Denotes field code := IntLiteral.parse_ofList_eq_some_iff.mp hparse
      have hany : before.any (·.1 = code) = true ↔ code ∈ codes := by
        rw [← hbefore]
        simp
      simp only [hany]
      split_ifs with hdup
      · obtain ⟨j, hj⟩ := List.mem_iff_getElem?.mp hdup
        obtain ⟨earlier, hearlier, hsame⟩ := (getElem?_codes hread j code).mp hj
        have hlt : j < done.length := (List.getElem?_eq_some_iff.mp hearlier).1
        rw [← List.getElem?_append_left hlt] at hearlier
        exact Or.inr
          ⟨_, _, firstFlaw_of_flaw hread hnodup (.duplicate hlt hearlier hat hsame hcode), rfl⟩
      · have hread' : List.Forall₂ Denotes (done ++ [field]) (codes ++ [code]) :=
          List.rel_append hread (.cons hcode .nil)
        have hnodup' : (codes ++ [code]).Nodup := by
          rw [← List.concat_eq_append]
          exact hnodup.concat hdup
        have hbefore' : (before ++ [(code, key)]).map Prod.fst = codes ++ [code] := by
          rw [List.map_append, hbefore]
          rfl
        have hmore := ih hread' hnodup' hbefore' (Nat.succ.inj hkeys)
        simp only [List.append_assoc, List.singleton_append] at hmore
        rcases hmore with ⟨more, hrest, hall, hdone⟩ | hflaw
        · exact Or.inl ⟨code :: more, .cons hcode hrest, hall, hdone⟩
        · exact Or.inr hflaw

/-- A text has the wrong number of fields, or sixteen fields of different values, or sixteen fields
and a first flaw among them. -/
theorem parse_cases (text : String) :
    ((text.toList.splitOn ',').length ≠ 16 ∧ parse text = .error .wrongCount) ∨
    ((text.toList.splitOn ',').length = 16 ∧
      ((∃ codes, List.Forall₂ Denotes (text.toList.splitOn ',') codes ∧ codes.Nodup ∧
        parse text = .ok ⟨codes.zip (List.finRange 16)⟩) ∨
      ∃ i fault, FirstFlaw (text.toList.splitOn ',') i fault ∧ parse text = .error fault)) := by
  unfold parse
  rw [fields_eq_splitOn]
  by_cases hlen : (text.toList.splitOn ',').length = 16
  · rw [if_pos hlen]
    refine Or.inr ⟨hlen, ?_⟩
    have hkeys : (List.finRange 16).length = (text.toList.splitOn ',').length := by
      rw [hlen, List.length_finRange]
    have hbefore : ([] : List (Int × Key)).map Prod.fst = [] := rfl
    rcases readFields_cases .nil List.nodup_nil hbefore hkeys with
      ⟨codes, hread, hnodup, hdone⟩ | ⟨i, fault, hflaw, hstop⟩
    · rw [hdone]
      exact Or.inl ⟨codes, hread, hnodup, rfl⟩
    · rw [hstop]
      exact Or.inr ⟨i, fault, hflaw, rfl⟩
  · rw [if_neg hlen]
    exact Or.inl ⟨hlen, rfl⟩

/-! ## Looking keys up -/

theorem lookup_eq_some_iff_mem (hnodup : (entries.map Prod.fst).Nodup) :
    entries.lookup code = some key ↔ (code, key) ∈ entries := by
  rw [List.lookup_eq_some_iff]
  constructor
  · rintro ⟨front, back, rfl, -⟩
    exact List.mem_append_right _ List.mem_cons_self
  · intro hmem
    obtain ⟨front, back, rfl⟩ := List.append_of_mem hmem
    refine ⟨front, back, rfl, ?_⟩
    intro entry hentry
    rw [List.map_append, List.map_cons, List.nodup_middle] at hnodup
    have hother : code ≠ entry.1 := by
      rintro rfl
      exact (List.nodup_cons.mp hnodup).1
        (List.mem_append_left _ (List.mem_map.mpr ⟨entry, hentry, rfl⟩))
    exact bne_iff_ne.mpr hother

/-- Each code stands for the key with the number of its field. -/
theorem key_eq_some_iff (hlen : codes.length = 16) (hnodup : codes.Nodup) (code : Int) (key : Key) :
    (⟨codes.zip (List.finRange 16)⟩ : Keymap).key? code = some key ↔
      codes[key.val]? = some code := by
  have hcodes : ((codes.zip (List.finRange 16)).map Prod.fst).Nodup := by
    rw [List.map_fst_zip (by rw [hlen, List.length_finRange])]
    exact hnodup
  rw [key?, lookup_eq_some_iff_mem hcodes, List.mem_iff_getElem?]
  simp only [List.getElem?_zip_eq_some]
  constructor
  · rintro ⟨i, hcode, hkey⟩
    obtain ⟨hlt, rfl⟩ := List.getElem?_eq_some_iff.mp hkey
    rw [List.getElem_finRange]
    exact hcode
  · intro hcode
    have hlt : key.val < (List.finRange 16).length := by
      rw [List.length_finRange]
      exact key.isLt
    refine ⟨key.val, hcode, ?_⟩
    rw [List.getElem?_eq_getElem hlt, List.getElem_finRange]
    rfl

end Keymap

/-! ## The grammar -/

namespace HostInput

open IntLiteral (Denotes)

/-- **The grammar of keymaps.**  With or without a window, a text is accepted exactly if it has
sixteen fields between commas, each of them a literal, and no two with one value.  The host key code
in field `k` then stands for the key `k`, so that each key has one code.  Any other text is refused
for the number of its fields, if that is wrong, and for its first flaw if not.  No keypad is at hand
when the text is read, so none can change. -/
theorem keymap_grammar (text : String) (batches : List (List HostEvent)) :
    ((∃ input, create text batches = .ok input) ↔
      (text.toList.splitOn ',').length = 16 ∧
        ∃ codes, List.Forall₂ Denotes (text.toList.splitOn ',') codes ∧ codes.Nodup) ∧
    (∀ input, create text batches = .ok input →
      (∀ code (key : Key), input.keymap.key? code = some key ↔
        ∃ field, (text.toList.splitOn ',')[key.val]? = some field ∧ Denotes field code) ∧
      ∀ key, ∃! code, input.keymap.key? code = some key) ∧
    ∀ fault, create text batches = .error fault ↔
      (text.toList.splitOn ',').length ≠ 16 ∧ fault = .wrongCount ∨
      (text.toList.splitOn ',').length = 16 ∧
        ∃ i, Keymap.FirstFlaw (text.toList.splitOn ',') i fault := by
  unfold create
  rcases Keymap.parse_cases text with
    ⟨hlen, hparse⟩ | ⟨hlen, ⟨codes, hread, hnodup, hparse⟩ | ⟨i, fault, hflaw, hparse⟩⟩
  · rw [hparse]
    refine ⟨iff_of_false (by rintro ⟨input, h⟩; cases h) (fun h => hlen h.1), ?_, ?_⟩
    · intro input h
      cases h
    · intro fault
      constructor
      · intro h
        cases h
        exact Or.inl ⟨hlen, rfl⟩
      · rintro (⟨-, rfl⟩ | ⟨hlen', -⟩)
        · rfl
        · exact absurd hlen' hlen
  · rw [hparse]
    have hcodes : codes.length = 16 := hread.length_eq.symm.trans hlen
    have hkey := Keymap.key_eq_some_iff hcodes hnodup
    refine ⟨iff_of_true ⟨_, rfl⟩ ⟨hlen, codes, hread, hnodup⟩, ?_, ?_⟩
    · intro input h
      cases h
      simp only [hkey]
      refine ⟨fun code key => Keymap.getElem?_codes hread key.val code, ?_⟩
      intro key
      have hlt : key.val < codes.length := by omega
      refine ⟨codes[key.val], List.getElem?_eq_getElem hlt, ?_⟩
      intro code hcode
      exact ((List.getElem?_eq_some_iff.mp hcode).2).symm
    · intro fault
      refine iff_of_false (by intro h; cases h) ?_
      rintro (⟨hlen', -⟩ | ⟨-, i, hflaw⟩)
      · exact hlen' hlen
      · exact Keymap.not_flaw hread hnodup hflaw.flaw
  · rw [hparse]
    refine ⟨iff_of_false (by rintro ⟨input, h⟩; cases h) ?_, ?_, ?_⟩
    · rintro ⟨-, codes, hread, hnodup⟩
      exact Keymap.not_flaw hread hnodup hflaw.flaw
    · intro input h
      cases h
    · intro fault'
      constructor
      · intro h
        cases h
        exact Or.inr ⟨hlen, i, hflaw⟩
      · rintro (⟨hlen', -⟩ | ⟨-, j, hflaw'⟩)
        · exact absurd hlen hlen'
        · rw [hflaw.unique hflaw']

/-- The third field is no literal, but a repetition comes before it. -/
example : Keymap.parse "1, +01,x,3,4,5,6,7,8,9,10,11,12,13,14,15" = .error .duplicate := by
  decide +kernel

end HostInput

end Chip8
