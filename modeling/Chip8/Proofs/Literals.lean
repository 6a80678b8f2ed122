import Chip8.Text.IntLiteral
import Mathlib.Data.Nat.Digits.Defs

/-!
# Chip8.Proofs.Literals — which texts are whole numbers

The grammar of whole numbers is written down apart from the reader: what a digit is
(`Digit.Denotes`), what a row of digits is (`IsRow`), how a sign changes its number (`IsSigned`),
and that blanks may stand around it (`Denotes`).  The reader reads a text exactly if the grammar
gives it a number, and then it reads that number (`parse_eq_some_iff`).
-/

namespace Chip8

/-! ## Digits -/

namespace Digit

variable {c : Char} {d : Nat}

/-- The character is the digit of value `d` in the row of ten digits of some script. -/
def Denotes (c : Char) (d : Nat) : Prop := d < 10 ∧ ∃ first ∈ zeros, c.toNat = first + d

/-- The rows of different scripts do not overlap. -/
theorem zeros_apart :
    ∀ a ∈ zeros, ∀ b ∈ zeros, a = b ∨ a + 10 ≤ b ∨ b + 10 ≤ a := by
  decide +kernel

theorem value_eq_some_iff : value? c = some d ↔ Denotes c d := by
  unfold value?
  rw [Option.map_eq_some_iff]
  constructor
  · rintro ⟨first, hfind, rfl⟩
    have hmem := List.mem_of_find?_eq_some hfind
    have hrow := List.find?_some hfind
    simp only [decide_eq_true_eq] at hrow
    exact ⟨by omega, first, hmem, by omega⟩
  · rintro ⟨hd, first, hmem, hc⟩
    have hsome : (zeros.find? fun a => a ≤ c.toNat ∧ c.toNat < a + 10).isSome := by
      rw [List.find?_isSome]
      exact ⟨first, hmem, by simp only [decide_eq_true_eq]; omega⟩
    obtain ⟨found, hfind⟩ := Option.isSome_iff_exists.mp hsome
    have hrow := List.find?_some hfind
    simp only [decide_eq_true_eq] at hrow
    -- the row that is found is the one that is known
    have happart := zeros_apart first hmem found (List.mem_of_find?_eq_some hfind)
    exact ⟨found, hfind, by omega⟩

/-- Where the rows of digits lie among the other characters of literals. -/
theorem zeros_bounds :
    ∀ first ∈ zeros, first = 0x30 ∨ 0x660 ≤ first ∧ first + 10 ≤ 0x1680 ∨
      0x1681 ≤ first ∧ first + 10 ≤ 0x2000 ∨ 0x3001 ≤ first := by
  decide

theorem Denotes.isBlank_eq_false (h : Denotes c d) : IntLiteral.isBlank c = false := by
  obtain ⟨hd, first, hmem, hc⟩ := h
  have hbounds := zeros_bounds first hmem
  simp only [IntLiteral.isBlank, Bool.or_eq_false_iff, decide_eq_false_iff_not, beq_eq_false_iff_ne]
  omega

/-- Neither a sign nor the underscore is a digit. -/
theorem Denotes.ne {mark : Char} (h : Denotes c d) (hmark : mark ∈ ['+', '-', '_']) : c ≠ mark := by
  rintro rfl
  obtain ⟨hd, first, hmem, hc⟩ := h
  have hbounds := zeros_bounds first hmem
  have hplace : c.toNat = 0x2B ∨ c.toNat = 0x2D ∨ c.toNat = 0x5F := by
    simp only [List.mem_cons, List.not_mem_nil, or_false] at hmark
    rcases hmark with rfl | rfl | rfl <;> decide
  omega

end Digit

namespace IntLiteral

variable {cs body before after : List Char} {ds : List Nat} {c : Char} {n m : Int} {text : String}

/-! ## The grammar -/

/-- A row of digits with these values; single underscores may stand between digits. -/
inductive IsRow : List Char → List Nat → Prop
  | single {c : Char} {d : Nat} (h : Digit.Denotes c d) : IsRow [c] [d]
  | next {c : Char} {d : Nat} {cs : List Char} {ds : List Nat} (h : Digit.Denotes c d)
      (more : IsRow cs ds) : IsRow (c :: cs) (d :: ds)
  | apart {c : Char} {d : Nat} {cs : List Char} {ds : List Nat} (h : Digit.Denotes c d)
      (more : IsRow cs ds) : IsRow (c :: '_' :: cs) (d :: ds)

/-- A row of digits that is not too long is the number `n` in the decimal system. -/
def IsNatural (cs : List Char) (n : Nat) : Prop :=
  ∃ ds, IsRow cs ds ∧ ds.length ≤ 4300 ∧ n = Nat.ofDigits 10 ds.reverse

/-- A number with at most one sign. -/
inductive IsSigned : List Char → Int → Prop
  | bare {cs : List Char} {n : Nat} (h : IsNatural cs n) : IsSigned cs n
  | plus {cs : List Char} {n : Nat} (h : IsNatural cs n) : IsSigned ('+' :: cs) n
  | minus {cs : List Char} {n : Nat} (h : IsNatural cs n) : IsSigned ('-' :: cs) (-n)

/-- The text is a literal that denotes `n`: a number with blanks around it. -/
def Denotes (cs : List Char) (n : Int) : Prop :=
  ∃ before body after, cs = before ++ body ++ after ∧ (∀ c ∈ before, isBlank c = true) ∧
    (∀ c ∈ after, isBlank c = true) ∧ IsSigned body n

/-! ## Rows of digits -/

theorem IsRow.exists_first (h : IsRow cs ds) :
    ∃ c more d, cs = c :: more ∧ Digit.Denotes c d := by
  cases h with
  | single h => exact ⟨_, _, _, rfl, h⟩
  | next h more => exact ⟨_, _, _, rfl, h⟩
  | apart h more => exact ⟨_, _, _, rfl, h⟩

theorem IsRow.exists_last (h : IsRow cs ds) :
    ∃ most c d, cs = most ++ [c] ∧ Digit.Denotes c d := by
  induction h with
  | single h => exact ⟨[], _, _, rfl, h⟩
  | next h more ih =>
    obtain ⟨most, c, d, rfl, hlast⟩ := ih
    exact ⟨_ :: most, c, d, rfl, hlast⟩
  | apart h more ih =>
    obtain ⟨most, c, d, rfl, hlast⟩ := ih
    exact ⟨_ :: '_' :: most, c, d, rfl, hlast⟩

theorem isRow_of_digits (h : digits? cs = some ds) : IsRow cs ds := by
  fun_induction digits? cs generalizing ds with
  | case1 => cases h
  | case2 c cs hvalue => cases h
  | case3 c d hvalue =>
    cases h
    exact .single (Digit.value_eq_some_iff.mp hvalue)
  | case4 c d hvalue cs ih =>
    obtain ⟨more, hmore, rfl⟩ := Option.map_eq_some_iff.mp h
    exact .apart (Digit.value_eq_some_iff.mp hvalue) (ih hmore)
  | case5 c d hvalue c' cs hmark ih =>
    obtain ⟨more, hmore, rfl⟩ := Option.map_eq_some_iff.mp h
    exact .next (Digit.value_eq_some_iff.mp hvalue) (ih hmore)

theorem IsRow.digits_eq (h : IsRow cs ds) : digits? cs = some ds := by
  induction h with
  | single h =>
    rw [digits?, Digit.value_eq_some_iff.mpr h]
  | next h more ih =>
    obtain ⟨c', cs', d', rfl, hfirst⟩ := more.exists_first
    have hmark : c' ≠ '_' := hfirst.ne (by decide)
    rw [digits?, Digit.value_eq_some_iff.mpr h]
    simp only [ih, Option.map_some]
  | apart h more ih =>
    rw [digits?, Digit.value_eq_some_iff.mpr h]
    simp only [ih, Option.map_some]

theorem digits_eq_some_iff : digits? cs = some ds ↔ IsRow cs ds :=
  ⟨isRow_of_digits, IsRow.digits_eq⟩

theorem natural_eq_some_iff {n : Nat} : natural? cs = some n ↔ IsNatural cs n := by
  have hvalue : ∀ ds : List Nat,
      ds.foldl (fun n d => 10 * n + d) 0 = Nat.ofDigits 10 ds.reverse := by
    intro ds
    rw [Nat.ofDigits_eq_foldr, List.foldr_reverse]
    simp only [Nat.cast_id, Nat.add_comm]
  unfold natural? IsNatural
  simp only [← digits_eq_some_iff]
  cases digits? cs with
  | none => simp
  | some ds =>
    simp only [hvalue, maxDigits, Option.some.injEq, exists_eq_left', Option.ite_none_left_eq_some]
    constructor
    · rintro ⟨hlen, rfl⟩
      exact ⟨by omega, rfl⟩
    · rintro ⟨hlen, rfl⟩
      exact ⟨by omega, rfl⟩

/-! ## Signs -/

theorem IsNatural.exists_first {n : Nat} (h : IsNatural cs n) :
    ∃ c more d, cs = c :: more ∧ Digit.Denotes c d := by
  obtain ⟨ds, hrow, -⟩ := h
  exact hrow.exists_first

theorem signed_eq_some_iff : signed? cs = some n ↔ IsSigned cs n := by
  constructor
  · intro h
    unfold signed? at h
    split at h
    · obtain ⟨m, hm, rfl⟩ := Option.map_eq_some_iff.mp h
      exact .plus (natural_eq_some_iff.mp hm)
    · obtain ⟨m, hm, rfl⟩ := Option.map_eq_some_iff.mp h
      obtain ⟨k, hk, hkm⟩ := Option.bind_eq_some_iff.mp hm
      cases hkm
      exact .minus (natural_eq_some_iff.mp hk)
    · obtain ⟨m, hm, rfl⟩ := Option.map_eq_some_iff.mp h
      exact .bare (natural_eq_some_iff.mp hm)
  · intro h
    cases h with
    | bare h =>
      obtain ⟨c, more, d, rfl, hfirst⟩ := h.exists_first
      have hplus : c ≠ '+' := hfirst.ne (by decide)
      have hminus : c ≠ '-' := hfirst.ne (by decide)
      unfold signed?
      split
      · rename_i heq
        cases heq
        exact absurd rfl hplus
      · rename_i heq
        cases heq
        exact absurd rfl hminus
      · rw [natural_eq_some_iff.mpr h]
        rfl
    | plus h =>
      rw [signed?, natural_eq_some_iff.mpr h]
      rfl
    | minus h =>
      rw [signed?, natural_eq_some_iff.mpr h]
      rfl

/-! ## Blanks -/

/-- What is cut off at the ends is blank. -/
theorem exists_trim (cs : List Char) :
    ∃ before after, cs = before ++ trim cs ++ after ∧ (∀ c ∈ before, isBlank c = true) ∧
      ∀ c ∈ after, isBlank c = true := by
  let inner := cs.dropWhile isBlank
  refine ⟨cs.takeWhile isBlank, (inner.reverse.takeWhile isBlank).reverse, ?_, ?_, ?_⟩
  · have hinner : trim cs ++ (inner.reverse.takeWhile isBlank).reverse = inner := by
      rw [trim, ← List.reverse_append, List.takeWhile_append_dropWhile, List.reverse_reverse]
    rw [List.append_assoc, hinner, List.takeWhile_append_dropWhile]
  · intro c hc
    exact List.all_eq_true.mp List.all_takeWhile c hc
  · intro c hc
    exact List.all_eq_true.mp List.all_takeWhile c (List.mem_reverse.mp hc)

/-- Blanks are cut off up to a first and a last character that are not blank. -/
theorem trim_eq {first last : Char} {more most : List Char}
    (hbefore : ∀ c ∈ before, isBlank c = true) (hafter : ∀ c ∈ after, isBlank c = true)
    (hmore : body = first :: more) (hfirst : isBlank first = false)
    (hmost : body = most ++ [last]) (hlast : isBlank last = false) :
    trim (before ++ body ++ after) = body := by
  have hfront : (before ++ body ++ after).dropWhile isBlank = body ++ after := by
    rw [List.append_assoc, List.dropWhile_append_of_pos hbefore, hmore, List.cons_append,
      List.dropWhile_cons_of_neg (by rw [hfirst]; exact Bool.false_ne_true)]
  have hback : (body ++ after).reverse.dropWhile isBlank = body.reverse := by
    rw [List.reverse_append,
      List.dropWhile_append_of_pos (fun c hc => hafter c (List.mem_reverse.mp hc)), hmost,
      List.reverse_concat, List.dropWhile_cons_of_neg (by rw [hlast]; exact Bool.false_ne_true)]
  rw [trim, hfront, hback, List.reverse_reverse]

theorem IsNatural.exists_last {n : Nat} (h : IsNatural cs n) :
    ∃ most c d, cs = most ++ [c] ∧ Digit.Denotes c d := by
  obtain ⟨ds, hrow, -⟩ := h
  exact hrow.exists_last

theorem IsSigned.exists_first (h : IsSigned cs n) :
    ∃ c more, cs = c :: more ∧ isBlank c = false := by
  cases h with
  | bare h =>
    obtain ⟨c, more, d, rfl, hc⟩ := h.exists_first
    exact ⟨c, more, rfl, hc.isBlank_eq_false⟩
  | plus h => exact ⟨_, _, rfl, by decide⟩
  | minus h => exact ⟨_, _, rfl, by decide⟩

theorem IsSigned.exists_last (h : IsSigned cs n) :
    ∃ most c, cs = most ++ [c] ∧ isBlank c = false := by
  cases h with
  | bare h =>
    obtain ⟨most, c, d, rfl, hc⟩ := h.exists_last
    exact ⟨most, c, rfl, hc.isBlank_eq_false⟩
  | plus h =>
    obtain ⟨most, c, d, rfl, hc⟩ := h.exists_last
    exact ⟨_ :: most, c, rfl, hc.isBlank_eq_false⟩
  | minus h =>
    obtain ⟨most, c, d, rfl, hc⟩ := h.exists_last
    exact ⟨_ :: most, c, rfl, hc.isBlank_eq_false⟩

/-! ## Literals -/

/-- The reader follows the grammar. -/
theorem parse_eq_some_iff : parse? text = some n ↔ Denotes text.toList n := by
  rw [parse?, signed_eq_some_iff]
  constructor
  · intro h
    obtain ⟨before, after, htext, hbefore, hafter⟩ := exists_trim text.toList
    exact ⟨before, trim text.toList, after, htext, hbefore, hafter, h⟩
  · rintro ⟨before, body, after, htext, hbefore, hafter, h⟩
    obtain ⟨first, more, hmore, hfirst⟩ := h.exists_first
    obtain ⟨most, last, hmost, hlast⟩ := h.exists_last
    rw [htext, trim_eq hbefore hafter hmore hfirst hmost hlast]
    exact h

theorem parse_ofList_eq_some_iff : parse? (String.ofList cs) = some n ↔ Denotes cs n := by
  rw [parse_eq_some_iff, String.toList_ofList]

/-- A literal denotes one number. -/
theorem Denotes.unique (hn : Denotes cs n) (hm : Denotes cs m) : n = m := by
  rw [← parse_ofList_eq_some_iff] at hn hm
  rw [hn] at hm
  exact Option.some.inj hm

end IntLiteral

end Chip8
