import Chip8.Text.Numeral
import Mathlib.Data.List.TakeWhile
import Mathlib.Tactic.SplitIfs

/-!
# Chip8.Proofs.Numerals — a numeral can be told from what follows it

A hexadecimal numeral is read back as the number it was written for, whatever its width, its sign
and its zeros (`value_hex`).  In a text it ends at the first character that no numeral has, so that
a text that starts with a numeral and goes on with such a character determines the number and the
rest (`Spells.append_inj`).
-/

namespace Chip8.Numeral

variable {c : Char} {cs xs ys s t : List Char} {width : Nat} {n n' : Int}

/-! ## The number of a numeral -/

/-- What a character of a numeral counts for; a sign counts for nothing. -/
def digitValue (c : Char) : Nat :=
  if c = '-' then 0 else if c.isDigit then c.toNat - 48 else c.toNat - 87

/-- The number of hexadecimal digits, without the sign. -/
def natValue (cs : List Char) : Nat := cs.foldl (fun n c => 16 * n + digitValue c) 0

/-- The number of a hexadecimal numeral. -/
def value (cs : List Char) : Int := if '-' ∈ cs then -natValue cs else natValue cs

theorem digitValue_digitChar : ∀ d < 16, digitValue (Nat.digitChar d) = d := by decide

theorem natValue_cons_of_zero (hc : digitValue c = 0) : natValue (c :: cs) = natValue cs := by
  simp only [natValue, List.foldl_cons, hc]

theorem natValue_zeros (k : Nat) : natValue (List.replicate k '0' ++ cs) = natValue cs := by
  induction k with
  | zero => rfl
  | succ k ih =>
    rw [List.replicate_succ, List.cons_append, natValue_cons_of_zero (by decide), ih]

theorem natValue_toDigits (k : Nat) : natValue (Nat.toDigits 16 k) = k := by
  induction k using Nat.strongRecOn with
  | ind k ih =>
    rcases Nat.lt_or_ge k 16 with hlt | hge
    · rw [Nat.toDigits_of_lt_base hlt, natValue, List.foldl_cons, List.foldl_nil,
        digitValue_digitChar k hlt]
      omega
    · have hrest := ih (k / 16) (by omega)
      rw [natValue] at hrest
      rw [Nat.toDigits_of_base_le (by decide) hge, natValue, List.foldl_append, hrest,
        List.foldl_cons, List.foldl_nil, digitValue_digitChar (k % 16) (by omega)]
      omega

theorem toList_hex (width : Nat) (n : Int) :
    (hex width n).toList = sign n ++ padding width n ++ Nat.toDigits 16 n.natAbs :=
  String.toList_ofList

/-! ## The characters of a numeral -/

/-- The characters that numerals are made of. -/
def marks : List Char :=
  ['-', '0', '1', '2', '3', '4', '5', '6', '7', '8', '9', 'a', 'b', 'c', 'd', 'e', 'f']

theorem digitChar_mem_marks : ∀ d < 16, Nat.digitChar d ∈ marks.tail := by decide

/-- A digit is a character other than the sign. -/
theorem mem_marks_tail_of_mem_toDigits {b k : Nat} (hb : 1 < b) (hle : b ≤ 16)
    (hc : c ∈ Nat.toDigits b k) : c ∈ marks.tail := by
  induction k using Nat.strongRecOn with
  | ind k ih =>
    rcases Nat.lt_or_ge k b with hlt | hge
    · rw [Nat.toDigits_of_lt_base hlt, List.mem_singleton] at hc
      subst hc
      exact digitChar_mem_marks k (by omega)
    · rw [Nat.toDigits_of_base_le hb hge, List.mem_append, List.mem_singleton] at hc
      rcases hc with hrest | rfl
      · exact ih (k / b) (Nat.div_lt_self (by omega) hb) hrest
      · have hmod := Nat.mod_lt k (by omega : b > 0)
        exact digitChar_mem_marks (k % b) (by omega)

theorem mem_marks_of_mem_sign (hc : c ∈ sign n) : c ∈ marks := by
  unfold sign at hc
  split_ifs at hc
  · rw [List.mem_singleton.mp hc]
    decide
  · cases hc

theorem mem_marks_of_mem_decimal (hc : c ∈ (decimal n).toList) : c ∈ marks := by
  rw [decimal, String.toList_ofList] at hc
  rcases List.mem_append.mp hc with hsign | hdigit
  · exact mem_marks_of_mem_sign hsign
  · exact List.mem_of_mem_tail (mem_marks_tail_of_mem_toDigits (by decide) (by decide) hdigit)

/-- The zeros and the digits of a numeral have no sign among them. -/
theorem mem_marks_tail_of_mem_digits
    (hc : c ∈ padding width n ++ Nat.toDigits 16 n.natAbs) : c ∈ marks.tail := by
  rcases List.mem_append.mp hc with hzero | hdigit
  · rw [List.eq_of_mem_replicate hzero]
    decide
  · exact mem_marks_tail_of_mem_toDigits (by decide) (by decide) hdigit

theorem mem_marks_of_mem_hex (hc : c ∈ (hex width n).toList) : c ∈ marks := by
  rw [toList_hex, List.append_assoc] at hc
  rcases List.mem_append.mp hc with hsign | hdigits
  · exact mem_marks_of_mem_sign hsign
  · exact List.mem_of_mem_tail (mem_marks_tail_of_mem_digits hdigits)

/-- A numeral is read back as the number it was written for. -/
theorem value_hex (width : Nat) (n : Int) : value (hex width n).toList = n := by
  have hdigits : '-' ∉ padding width n ++ Nat.toDigits 16 n.natAbs := fun hc =>
    absurd (mem_marks_tail_of_mem_digits hc) (by decide)
  have hnat : natValue (padding width n ++ Nat.toDigits 16 n.natAbs) = n.natAbs := by
    rw [padding, natValue_zeros, natValue_toDigits]
  rw [toList_hex, List.append_assoc, value, sign]
  split_ifs with hneg hsign hsign
  · rw [List.singleton_append, natValue_cons_of_zero (by decide), hnat]
    omega
  · exact absurd List.mem_cons_self hsign
  · exact absurd hsign hdigits
  · rw [List.nil_append, hnat]
    omega

theorem hex_ne_nil : (hex width n).toList ≠ [] := by
  have hpos := @Nat.length_toDigits_pos 16 n.natAbs
  rw [toList_hex]
  intro hnil
  rw [(List.append_eq_nil_iff.mp hnil).2] at hpos
  cases hpos

/-- A number that needs no more than the width takes up just that. -/
theorem length_hex_of_le {k : Nat} (hlen : (Nat.toDigits 16 k).length ≤ width) :
    (hex width k).toList.length = width := by
  have hsign : sign (k : Int) = [] := if_neg (by omega)
  rw [toList_hex, padding, hsign, Int.natAbs_natCast]
  simp only [List.nil_append, List.length_append, List.length_replicate, List.length_nil]
  omega

/-! ## A numeral and the text after it -/

/-- No numeral goes on into the text `s`. -/
def Ends (s : List Char) : Prop := ∀ c ∈ s.head?, c ∉ marks

theorem ends_nil : Ends [] := by
  intro c hc
  cases hc

theorem ends_cons (hc : c ∉ marks) : Ends (c :: s) := by
  intro d hd
  cases hd
  exact hc

/-- What a text has of a numeral at its start. -/
theorem takeWhile_marks (hxs : ∀ c ∈ xs, c ∈ marks) (hs : Ends s) :
    (xs ++ s).takeWhile (· ∈ marks) = xs := by
  rw [List.takeWhile_append_of_pos (by simpa using hxs)]
  cases s with
  | nil => simp
  | cons c s =>
    have hc : c ∉ marks := hs c rfl
    simp [hc]

theorem append_inj_of_marks (hxs : ∀ c ∈ xs, c ∈ marks) (hys : ∀ c ∈ ys, c ∈ marks) (hs : Ends s)
    (ht : Ends t) (h : xs ++ s = ys ++ t) : xs = ys ∧ s = t := by
  have heq : xs = ys := by rw [← takeWhile_marks hxs hs, h, takeWhile_marks hys ht]
  subst heq
  exact ⟨rfl, List.append_cancel_left h⟩

/-- The characters spell the number in hexadecimal, to whoever reads them digit by digit. -/
structure Spells (cs : List Char) (n : Int) : Prop where
  nonempty : cs ≠ []
  made : ∀ c ∈ cs, c ∈ marks
  read : value cs = n

theorem spells_hex (width : Nat) (n : Int) : Spells (hex width n).toList n :=
  ⟨hex_ne_nil, fun _ => mem_marks_of_mem_hex, value_hex width n⟩

/-- A numeral and a text that no numeral goes on into determine the number and that text. -/
theorem Spells.append_inj (hx : Spells xs n) (hy : Spells ys n') (hs : Ends s) (ht : Ends t)
    (h : xs ++ s = ys ++ t) : n = n' ∧ s = t := by
  obtain ⟨rfl, hrest⟩ := append_inj_of_marks hx.made hy.made hs ht h
  exact ⟨hx.read.symm.trans hy.read, hrest⟩

theorem decimal_append_inj (hs : Ends s) (ht : Ends t)
    (h : (decimal n).toList ++ s = (decimal n').toList ++ t) : s = t :=
  (append_inj_of_marks (fun _ => mem_marks_of_mem_decimal) (fun _ => mem_marks_of_mem_decimal) hs ht
    h).2

end Chip8.Numeral
