import Chip8.Proofs.Random.Masks
import Chip8.Proofs.Random.Stream
import Mathlib.Algebra.Field.ZMod
import Mathlib.Algebra.Polynomial.Module.AEval
import Mathlib.RingTheory.Polynomial.Basic

/-!
# Chip8.Proofs.Random.Acceptance — a byte comes after finitely many words

From every state of the twister some later word is accepted for a byte, so that drawing a byte ends
(`next_eq`).  A word is refused when its top digit is 1, and the digits of the words are linear
recurrences over two elements.  If the top digit were 1 for ever, the lowest digits would satisfy
two equations without a common factor (`modulus`, `defect`); then all digits of all words would be
0, and the top digit with them.
-/

namespace Chip8.Twister

open Polynomial Module

variable {i j : ℕ} {s u v w : UInt32} {x : ℕ → UInt32}

/-! ## Digits of words -/

/-- The digit of a word at `i`. -/
def digit (i : ℕ) (w : UInt32) : ZMod 2 := if w.toNat.testBit i then 1 else 0

theorem digit_of_le (hi : 32 ≤ i) (w : UInt32) : digit i w = 0 := by
  have hlt : w.toNat < 2 ^ i :=
    Nat.lt_of_lt_of_le w.toNat_lt (Nat.pow_le_pow_right (by decide) hi)
  rw [digit, Nat.testBit_lt_two_pow hlt]
  rfl

theorem digit_xor (i : ℕ) (v w : UInt32) : digit i (v ^^^ w) = digit i v + digit i w := by
  rw [digit, digit, digit, UInt32.toNat_xor, Nat.testBit_xor]
  cases v.toNat.testBit i <;> cases w.toNat.testBit i <;> decide

theorem digit_and (i : ℕ) (v w : UInt32) : digit i (v &&& w) = digit i v * digit i w := by
  rw [digit, digit, digit, UInt32.toNat_and, Nat.testBit_and]
  cases v.toNat.testBit i <;> cases w.toNat.testBit i <;> decide

theorem digit_shiftRight (hs : s.toNat < 32) (hj : i + s.toNat = j) (w : UInt32) :
    digit i (w >>> s) = digit j w := by
  rw [digit, digit, UInt32.toNat_shiftRight, Nat.testBit_shiftRight, Nat.mod_eq_of_lt hs,
    Nat.add_comm, hj]

theorem digit_shiftLeft (hi : i < 32) (hj : j + s.toNat = i) (w : UInt32) :
    digit i (w <<< s) = digit j w := by
  have hle : s.toNat ≤ i := by omega
  have hlt : s.toNat < 32 := Nat.lt_of_le_of_lt hle hi
  rw [digit, digit, UInt32.toNat_shiftLeft, Nat.testBit_mod_two_pow, Nat.testBit_shiftLeft,
    Nat.mod_eq_of_lt hlt, decide_eq_true hi, decide_eq_true hle, Bool.true_and, Bool.true_and,
    Nat.sub_eq_of_eq_add hj.symm]

/-- The top digit of one word before the other digits of the next. -/
def joined (v w : UInt32) : UInt32 := (v &&& 0x80000000) ||| (w &&& 0x7FFFFFFF)

theorem toNat_joined (v w : UInt32) :
    (joined v w).toNat = (v.toNat &&& 2 ^ 31) ||| (w.toNat % 2 ^ 31) := by
  rw [joined, UInt32.toNat_or, UInt32.toNat_and, UInt32.toNat_and,
    ← Nat.and_two_pow_sub_one_eq_mod]
  rfl

theorem digit_joined (hi : i < 31) (v w : UInt32) : digit i (joined v w) = digit i w := by
  rw [digit, digit, toNat_joined, Nat.testBit_or, Nat.testBit_and, Nat.testBit_mod_two_pow,
    Nat.testBit_two_pow]
  simp [hi, hi.ne']

theorem digit_joined_top (v w : UInt32) : digit 31 (joined v w) = digit 31 v := by
  rw [digit, digit, toNat_joined, Nat.testBit_or, Nat.testBit_and, Nat.testBit_mod_two_pow,
    Nat.testBit_two_pow]
  simp

/-- What an odd word adds to its follower, digit by digit. -/
theorem digit_feedback (i : ℕ) (w : UInt32) :
    digit i (if w % 2 = 1 then 0x9908B0DF else 0) = digit i 0x9908B0DF * digit 0 w := by
  have hodd : w % 2 = 1 ↔ w.toNat.testBit 0 := by
    rw [Nat.testBit_zero, ← UInt32.toNat_inj]
    simp
  by_cases hw : w % 2 = 1
  · rw [if_pos hw, digit.eq_1 0 w, if_pos (hodd.1 hw), mul_one]
  · rw [if_neg hw, digit.eq_1 0 w, if_neg (mt hodd.2 hw), mul_zero]
    simp [digit]

theorem digit_follow (i : ℕ) (u v w : UInt32) :
    digit i (follow u v w) =
      digit i w + digit (i + 1) (joined u v) + digit i 0x9908B0DF * digit 0 v := by
  have hhalf : digit i (joined u v >>> 1) = digit (i + 1) (joined u v) :=
    digit_shiftRight (by decide) rfl _
  rw [← digit_joined (by decide) u v, ← digit_feedback, ← hhalf, ← digit_xor, ← digit_xor]
  rfl

/-- The top digit of a word that is handed out. -/
theorem digit_temper (w : UInt32) :
    digit 31 (temper w) = digit 31 w + digit 27 w + digit 24 w + digit 16 w := by
  have hright (i j : ℕ) (s : UInt32) (hs : s.toNat < 32) (hj : i + s.toNat = j) (w : UInt32) :
      digit i (w ^^^ (w >>> s)) = digit i w + digit j w := by
    rw [digit_xor, digit_shiftRight hs hj]
  have hleft (i j : ℕ) (s m : UInt32) (hi : i < 32) (hj : j + s.toNat = i) (w : UInt32) :
      digit i (w ^^^ ((w <<< s) &&& m)) = digit i w + digit j w * digit i m := by
    rw [digit_xor, digit_and, digit_shiftLeft hi hj]
  -- the four scramblings, from the last to the first
  have h₄ (w : UInt32) : digit 31 (w ^^^ (w >>> 18)) = digit 31 w := by
    rw [hright 31 49 18 (by decide) rfl, digit_of_le (i := 49) (by decide), add_zero]
  have h₃ (w : UInt32) :
      digit 31 (w ^^^ ((w <<< 15) &&& 0xEFC60000)) = digit 31 w + digit 16 w := by
    rw [hleft 31 16 15 0xEFC60000 (by decide) rfl, show digit 31 0xEFC60000 = 1 by decide, mul_one]
  have h₂ (w : UInt32) :
      digit 31 (w ^^^ ((w <<< 7) &&& 0x9D2C5680)) = digit 31 w + digit 24 w := by
    rw [hleft 31 24 7 0x9D2C5680 (by decide) rfl, show digit 31 0x9D2C5680 = 1 by decide, mul_one]
  have h₂' (w : UInt32) : digit 16 (w ^^^ ((w <<< 7) &&& 0x9D2C5680)) = digit 16 w := by
    rw [hleft 16 9 7 0x9D2C5680 (by decide) rfl, show digit 16 0x9D2C5680 = 0 by decide, mul_zero,
      add_zero]
  have h₁ (i : ℕ) (hi : 21 ≤ i) (w : UInt32) : digit i (w ^^^ (w >>> 11)) = digit i w := by
    rw [hright i (i + 11) 11 (by decide) rfl, digit_of_le (Nat.add_le_add_right hi 11), add_zero]
  have h₁' (w : UInt32) : digit 16 (w ^^^ (w >>> 11)) = digit 16 w + digit 27 w :=
    hright 16 27 11 (by decide) rfl w
  rw [temper, h₄, h₃, h₂, h₂', h₁ 31 (by decide), h₁ 24 (by decide), h₁']
  ring

/-- A word is accepted for a byte when its top digit is 0. -/
theorem accepted_iff (w : UInt32) : w >>> 23 < 256 ↔ digit 31 w = 0 := by
  have hw := w.toNat_lt
  have hshift : (w >>> 23).toNat = w.toNat / 2 ^ 23 := by
    rw [UInt32.toNat_shiftRight, Nat.shiftRight_eq_div_pow]
    rfl
  rw [digit, Nat.testBit_eq_decide_div_mod_eq, UInt32.lt_iff_toNat_lt, hshift]
  simp only [Nat.reducePow, UInt32.reduceToNat, decide_eq_true_eq, ite_eq_right_iff, one_ne_zero,
    imp_false, Nat.mod_two_not_eq_one]
  omega

/-! ## Digits as recurrences -/

/-- Sequences over two elements, moved on by one place. -/
def moveOn : (ℕ → ZMod 2) →ₗ[ZMod 2] (ℕ → ZMod 2) := LinearMap.funLeft (ZMod 2) (ZMod 2) (· + 1)

/-- Sequences over two elements, with a polynomial acting on them by moving on. -/
abbrev Sequence := AEval' moveOn

/-- A function as a sequence. -/
def sequence (f : ℕ → ZMod 2) : Sequence := AEval'.of moveOn f

theorem sequence_add (f g : ℕ → ZMod 2) :
    sequence f + sequence g = sequence fun n => f n + g n := rfl

theorem X_smul_sequence (f : ℕ → ZMod 2) :
    (X : (ZMod 2)[X]) • sequence f = sequence fun n => f (n + 1) := AEval'.X_smul_of moveOn f

theorem X_pow_smul_sequence (k : ℕ) (f : ℕ → ZMod 2) :
    (X ^ k : (ZMod 2)[X]) • sequence f = sequence fun n => f (n + k) := by
  induction k generalizing f with
  | zero => rw [pow_zero, one_smul]; rfl
  | succ k ih => rw [pow_succ, mul_smul, X_smul_sequence, ih]; rfl

/-- Adds what stands 623 and 396 places on.  A word and the one 227 places before it differ in what
two neighbours far before both make alone. -/
noncomputable def gap : (ZMod 2)[X] := X ^ 623 + X ^ 396

theorem gap_eq : gap = X ^ 623 + X ^ 396 := by
  delta gap
  rfl

theorem gap_smul_sequence (f : ℕ → ZMod 2) :
    gap • sequence f = sequence fun n => f (n + 623) + f (n + 396) := by
  rw [gap_eq, add_smul, X_pow_smul_sequence, X_pow_smul_sequence, sequence_add]

/-- The digits at `i` of all words but the first, which has no word before it. -/
def digits (x : ℕ → UInt32) (i : ℕ) : Sequence := sequence fun n => digit i (x (n + 1))

/-- The powers of the gap that make the digits at `i` from the lowest ones. -/
def mask : ℕ → ℕ
  | 0 => 1
  | i + 1 => 2 * mask i ^^^ (if Nat.testBit 0x9908B0DF i then 1 else 0)

theorem two_eq_zero : (2 : (ZMod 2)[X]) = 0 := CharTwo.two_eq_zero

theorem value_mask_succ (i : ℕ) (c : Sequence) :
    value gap (mask (i + 1)) • c =
      gap • value gap (mask i) • c + digit i 0x9908B0DF • c := by
  rw [mask, value_xor two_eq_zero, value_two_mul, add_smul, mul_smul]
  congr 1
  rw [digit, show (0x9908B0DF : UInt32).toNat = 0x9908B0DF by rfl]
  split_ifs
  · rw [value_one, one_smul, one_smul]
  · rw [value_zero, zero_smul, zero_smul]

theorem add_self (c : Sequence) : c + c = 0 := by
  rw [← two_smul (ZMod 2)[X], two_eq_zero, zero_smul]

/-! ## The equation of the lowest digits -/

/-- The equation that the lowest digits satisfy if the top digit of every word handed out is 1. -/
def modulus : ℕ := 0x1C453D33

theorem modulus_eq : modulus = 1 ^^^ 2 * (mask 27 ^^^ mask 24 ^^^ mask 16) := by decide +kernel

/-- What moving on by one place amounts to then, in powers of the gap. -/
def place : ℕ := 0x95C9AB3

theorem mul_place : mul modulus 33 place (2 * mask 31) = 1 := by decide +kernel

/-- The gap and what it is when moving on is put into powers of the gap: together they are zero. -/
def defect : ℕ := power modulus place 623 ^^^ power modulus place 396 ^^^ 2

/-- The inverse of the defect modulo the modulus. -/
def cofactor : ℕ := 0xD6E5E82

theorem mul_cofactor : mul modulus 28 defect cofactor = 1 := by decide +kernel

/-! ## Words that follow each other -/

section
variable (hx : ∀ n, x (n + size) = follow (x n) (x (n + 1)) (x (n + 397)))
include hx

theorem gap_smul_digits (i : ℕ) :
    gap • digits x i = (sequence fun n => digit (i + 1) (joined (x n) (x (n + 1)))) +
      digit i 0x9908B0DF • digits x 0 := by
  rw [digits, gap_smul_sequence]
  refine congrArg sequence (funext fun n => ?_)
  show digit i (x (n + size)) + digit i (x (n + 397)) = _
  rw [hx, digit_follow, add_assoc, add_assoc, add_comm, add_assoc, add_assoc,
    CharTwo.add_self_eq_zero, add_zero]
  rfl

/-- The digits below the top are made from the lowest ones by the gap. -/
theorem digits_eq (hi : i < 31) : digits x i = value gap (mask i) • digits x 0 := by
  induction i with
  | zero => rw [mask, value_one, one_smul]
  | succ i ih =>
    have hnext : sequence (fun n => digit (i + 1) (joined (x n) (x (n + 1)))) =
        digits x (i + 1) := congrArg sequence (funext fun n => digit_joined hi _ _)
    rw [value_mask_succ, ← ih (by omega), gap_smul_digits hx, hnext, add_assoc, add_self, add_zero]

/-- The top digits come one place later than the gap has them. -/
theorem digits_top_eq : digits x 31 = (X : (ZMod 2)[X]) • value gap (mask 31) • digits x 0 := by
  have hlast : sequence (fun n => digit (30 + 1) (joined (x n) (x (n + 1)))) =
      sequence fun n => digit 31 (x n) := congrArg sequence (funext fun n => digit_joined_top _ _)
  rw [value_mask_succ, ← digits_eq hx (by decide), gap_smul_digits hx, hlast, add_assoc, add_self,
    add_zero, X_smul_sequence]
  rfl

theorem gap_smul_digits_top : gap • digits x 31 = digits x 0 := by
  have hnone : sequence (fun n => digit (31 + 1) (joined (x n) (x (n + 1)))) = 0 :=
    congrArg sequence (funext fun n => digit_of_le (by decide) _)
  rw [gap_smul_digits hx, hnone, zero_add, show digit 31 0x9908B0DF = 1 by decide, one_smul]

/-- If the top digits of the words handed out are all 1, the lowest digits satisfy an equation in
the gap alone. -/
theorem value_modulus_smul (htop : ∀ n, digit 31 (temper (x (n + 1))) = 1) :
    value gap modulus • digits x 0 = 0 := by
  have hones : digits x 31 + digits x 27 + digits x 24 + digits x 16 = sequence fun _ => 1 :=
    congrArg sequence (funext fun n => (digit_temper (x (n + 1))).symm.trans (htop n))
  calc value gap modulus • digits x 0
      = digits x 0 + gap • (digits x 27 + digits x 24 + digits x 16) := by
        rw [modulus_eq, value_xor two_eq_zero, value_one, value_two_mul, value_xor two_eq_zero,
          value_xor two_eq_zero, add_smul, one_smul, mul_smul, add_smul, add_smul,
          ← digits_eq hx (by decide), ← digits_eq hx (by decide), ← digits_eq hx (by decide)]
    _ = gap • sequence fun _ => 1 := by
        rw [← hones, ← gap_smul_digits_top hx, ← smul_add, add_assoc, add_assoc, add_assoc]
    _ = 0 := by
        rw [gap_smul_sequence]
        exact congrArg sequence (funext fun _ => CharTwo.add_self_eq_zero 1)

/-- With that equation, moving on by one place is a polynomial in the gap. -/
theorem X_smul_digits (hr : value gap modulus • digits x 0 = 0) :
    (X : (ZMod 2)[X]) • digits x 0 = value gap place • digits x 0 := by
  have hback : (X : (ZMod 2)[X]) • value gap (2 * mask 31) • digits x 0 = digits x 0 := by
    rw [value_two_mul, mul_smul, smul_comm, ← digits_top_eq hx, gap_smul_digits_top hx]
  calc (X : (ZMod 2)[X]) • digits x 0
      = X • value gap (mul modulus 33 place (2 * mask 31)) • digits x 0 := by
        rw [mul_place, value_one, one_smul]
    _ = value gap place • digits x 0 := by
        rw [value_mul_smul two_eq_zero hr _ (by decide +kernel), mul_smul, smul_comm, hback]

theorem lowest_eq_zero (hr : value gap modulus • digits x 0 = 0) : digits x 0 = 0 := by
  have hpower (n : ℕ) : value gap (power modulus place n) • digits x 0 = X ^ n • digits x 0 :=
    value_power_smul two_eq_zero hr (by decide) (X_smul_digits hx hr) n
  have hgap : value gap defect • digits x 0 = 0 := by
    rw [defect, value_xor two_eq_zero, value_xor two_eq_zero, add_smul, add_smul, hpower, hpower,
      ← add_smul, ← gap_eq, value_eq, if_neg (by decide), value_one, mul_one, zero_add, add_self]
  calc digits x 0
      = value gap (mul modulus 28 defect cofactor) • digits x 0 := by
        rw [mul_cofactor, value_one, one_smul]
    _ = value gap cofactor • value gap defect • digits x 0 := by
        rw [value_mul_smul two_eq_zero hr _ (by decide), mul_comm, mul_smul]
    _ = 0 := by rw [hgap, smul_zero]

theorem exists_digit_temper_eq_zero : ∃ n, digit 31 (temper (x (n + 1))) = 0 := by
  by_contra hnone
  have htop (n : ℕ) : digit 31 (temper (x (n + 1))) = 1 :=
    (by decide : ∀ d : ZMod 2, d ≠ 0 → d = 1) _ fun h => hnone ⟨n, h⟩
  have hlowest := lowest_eq_zero hx (value_modulus_smul hx htop)
  have hdigit {i : ℕ} (hi : i < 31) : digits x i = 0 := by
    rw [digits_eq hx hi, hlowest, smul_zero]
  have hzero : digits x 31 + digits x 27 + digits x 24 + digits x 16 = 0 := by
    rw [digits_top_eq hx, hlowest, smul_zero, smul_zero, hdigit (by decide), hdigit (by decide),
      hdigit (by decide), add_zero, add_zero, add_zero]
  have h0 : digit 31 (temper (x (0 + 1))) = 0 := by
    rw [digit_temper]
    exact congrFun hzero 0
  exact absurd (h0.symm.trans (htop 0)) (by decide)

end

/-! ## Drawing a byte -/

theorem next_of_accepted {t : Twister} (ht : t.nextWord.1 >>> 23 < 256) :
    t.next = ((t.nextWord.1 >>> 23).toUInt8, t.nextWord.2) := by
  rw [next, repeatM_eq_of_monadTail, repeatM.body, tryByte, if_pos ht]
  rfl

theorem next_of_refused {t : Twister} (ht : ¬ t.nextWord.1 >>> 23 < 256) :
    t.next = t.nextWord.2.next := by
  rw [next, repeatM_eq_of_monadTail, repeatM.body, tryByte, if_neg ht]
  rfl

theorem exists_accepted (t : Twister) : ∃ n, (t.after n).nextWord.1 >>> 23 < 256 := by
  let x (n : ℕ) : UInt32 := stream t.words (min t.used size + n)
  have hx (n : ℕ) : x (n + size) = follow (x n) (x (n + 1)) (x (n + 397)) := by
    have hnext := stream_add_size t.words (min t.used size + n)
    rw [Nat.add_assoc, Nat.add_assoc, Nat.add_assoc] at hnext
    exact hnext
  obtain ⟨n, hn⟩ := exists_digit_temper_eq_zero hx
  refine ⟨n + 1, ?_⟩
  rw [accepted_iff, nextWord_after]
  exact hn

theorem next_of_first {t : Twister} {n : ℕ}
    (hfirst : ∀ k < n, ¬ (t.after k).nextWord.1 >>> 23 < 256)
    (hn : (t.after n).nextWord.1 >>> 23 < 256) :
    t.next = (((t.after n).nextWord.1 >>> 23).toUInt8, (t.after n).nextWord.2) := by
  induction n generalizing t with
  | zero => exact next_of_accepted hn
  | succ n ih =>
    have hhead : ¬ t.nextWord.1 >>> 23 < 256 := hfirst 0 (Nat.succ_pos n)
    rw [after_succ] at hn ⊢
    rw [next_of_refused hhead]
    refine ih (fun k hk => ?_) hn
    rw [← after_succ]
    exact hfirst (k + 1) (Nat.succ_lt_succ hk)

/-- A byte is drawn from the first word that is accepted, and from every state there is one. -/
theorem next_eq (t : Twister) :
    ∃ n, (∀ k < n, ¬ (t.after k).nextWord.1 >>> 23 < 256) ∧
      (t.after n).nextWord.1 >>> 23 < 256 ∧
      t.next = (((t.after n).nextWord.1 >>> 23).toUInt8, (t.after n).nextWord.2) := by
  classical
  obtain ⟨n, hn, hfirst⟩ := Nat.findX t.exists_accepted
  exact ⟨n, hfirst, hn, next_of_first hfirst hn⟩

end Chip8.Twister
