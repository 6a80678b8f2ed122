import Chip8.Random.Twister
import Mathlib.Logic.Function.Iterate
import Mathlib.Tactic.SplitIfs

/-!
# Chip8.Proofs.Random.Stream — the words of the twister as one sequence

The generator makes all its words anew, in place and in order, whenever they are used up.  Laid one
after another its words form a sequence in which each comes from three that are 624, 623 and 227
places before it (`stream_add_size`), and drawing a word hands out the next of them
(`nextWord_after`).
-/

namespace Chip8.Twister

variable {words : Vector UInt32 size} {i k n : Nat}

/-- The word that follows three others: one 624 places after the first, 623 after the second and 227
after the third. -/
def follow (u v w : UInt32) : UInt32 :=
  let y := (u &&& 0x80000000) ||| (v &&& 0x7FFFFFFF)
  w ^^^ (y >>> 1) ^^^ (if y % 2 = 1 then 0x9908B0DF else 0)

/-! ## Making the words anew -/

/-- The words when those before `k` have been made anew. -/
def renewed (words : Vector UInt32 size) (k : Nat) : Vector UInt32 size :=
  (List.range k).foldl (fun words k => words.setIfInBounds k (twist words k)) words

theorem renewed_succ (words : Vector UInt32 size) (k : Nat) :
    renewed words (k + 1) = (renewed words k).setIfInBounds k (twist (renewed words k) k) := by
  rw [renewed, List.range_succ, List.foldl_append]
  rfl

theorem wordAt_add_size (words : Vector UInt32 size) (n : Nat) :
    wordAt words (n + size) = wordAt words n := by
  simp only [wordAt, Nat.add_mod_right]

theorem wordAt_set (hi : i < size) (w : UInt32) :
    wordAt (words.setIfInBounds k w) i = if k = i then w else wordAt words i := by
  simp only [wordAt, Nat.mod_eq_of_lt hi]
  rw [Vector.getElem_setIfInBounds]

/-- A word that is not yet due is as it was. -/
theorem wordAt_renewed_of_le (hk : k ≤ i) (hi : i < size) :
    wordAt (renewed words k) i = wordAt words i := by
  induction k with
  | zero => rfl
  | succ k ih =>
    rw [renewed_succ, wordAt_set hi, if_neg (by omega)]
    exact ih (by omega)

/-- A word that has been made anew stays as it is. -/
theorem wordAt_renewed_of_lt (hi : i < k) (hk : k ≤ size) :
    wordAt (renewed words k) i = wordAt (renew words) i := by
  have hlater (m : Nat) (hm : k + m ≤ size) :
      wordAt (renewed words (k + m)) i = wordAt (renewed words k) i := by
    induction m with
    | zero => rfl
    | succ m ih =>
      rw [← Nat.add_assoc, renewed_succ, wordAt_set (by omega), if_neg (by omega)]
      exact ih (by omega)
  rw [← hlater (size - k) (by omega), Nat.add_sub_cancel' hk]
  rfl

/-! ## The sequence -/

/-- The words of the generator one after another, those that it has first. -/
def stream (words : Vector UInt32 size) (n : Nat) : UInt32 := wordAt (renew^[n / size] words) n

theorem stream_renew (words : Vector UInt32 size) (n : Nat) :
    stream (renew words) n = stream words (n + size) := by
  rw [stream, stream, wordAt_add_size, Nat.add_div_right n (by decide),
    Function.iterate_succ_apply]

/-- While the word at `k` is made anew, the words from there on, around the circle, are the next of
the sequence. -/
theorem wordAt_renewed_add (hk : k < size) (hn : n < size) :
    wordAt (renewed words k) (k + n) = stream words (k + n) := by
  rcases Nat.lt_or_ge (k + n) size with hlt | hge
  · rw [wordAt_renewed_of_le (Nat.le_add_right k n) hlt, stream, Nat.div_eq_of_lt hlt]
    rfl
  · obtain ⟨m, hm⟩ := Nat.exists_eq_add_of_le' hge
    rw [hm, wordAt_add_size, wordAt_renewed_of_lt (by omega) (Nat.le_of_lt hk), ← stream_renew,
      stream, Nat.div_eq_of_lt (by omega)]
    rfl

theorem twist_eq (words : Vector UInt32 size) (k : Nat) :
    twist words k =
      follow (wordAt words k) (wordAt words (k + 1)) (wordAt words (k + 397)) := rfl

theorem stream_of_lt (hk : k < size) :
    stream words (k + size) = follow (stream words k) (stream words (k + 1))
      (stream words (k + 397)) := by
  have hnew : stream words (k + size) = twist (renewed words k) k := by
    rw [← stream_renew, stream, Nat.div_eq_of_lt hk, Function.iterate_zero_apply,
      ← wordAt_renewed_of_lt (Nat.lt_succ_self k) hk, renewed_succ, wordAt_set hk, if_pos rfl]
  have hhere : wordAt (renewed words k) k = stream words k :=
    wordAt_renewed_add (n := 0) hk (by decide)
  rw [hnew, twist_eq, hhere, wordAt_renewed_add hk (by decide), wordAt_renewed_add hk (by decide)]

/-- Each word of the sequence follows three before it. -/
theorem stream_add_size (words : Vector UInt32 size) (n : Nat) :
    stream words (n + size) = follow (stream words n) (stream words (n + 1))
      (stream words (n + 397)) := by
  induction n using Nat.strongRecOn generalizing words with
  | ind n ih =>
    rcases Nat.lt_or_ge n size with hlt | hge
    · exact stream_of_lt hlt
    · obtain ⟨m, rfl⟩ := Nat.exists_eq_add_of_le' hge
      have hrest := ih m (Nat.lt_add_of_pos_right (by decide)) (renew words)
      simp only [stream_renew] at hrest
      rw [Nat.add_right_comm m size 1, Nat.add_right_comm m size 397]
      exact hrest

/-! ## Drawing words -/

/-- The generator after `n` words have been drawn. -/
def after (t : Twister) (n : Nat) : Twister := (fun t => t.nextWord.2)^[n] t

theorem after_succ (t : Twister) (n : ℕ) : t.after (n + 1) = t.nextWord.2.after n :=
  Function.iterate_succ_apply _ n t

/-- The words drawn are those of the sequence, from the first that has not been used. -/
theorem nextWord_after (t : Twister) (n : Nat) :
    (t.after n).nextWord.1 = temper (stream t.words (min t.used size + n)) := by
  induction n generalizing t with
  | zero =>
    show t.nextWord.1 = temper (stream t.words (min t.used size))
    rw [nextWord]
    split_ifs with hused
    · rw [Nat.min_eq_left (Nat.le_of_lt hused), stream, Nat.div_eq_of_lt hused]
      rfl
    · rw [Nat.min_eq_right (Nat.le_of_not_lt hused)]
      rfl
  | succ n ih =>
    have hnext := ih t.nextWord.2
    rw [after_succ, hnext, nextWord]
    split_ifs with hused
    · simp only
      rw [Nat.min_eq_left hused, Nat.min_eq_left (Nat.le_of_lt hused), Nat.succ_add_eq_add_succ]
    · simp only
      rw [Nat.min_eq_right (Nat.le_of_not_lt hused), Nat.min_eq_left (by decide), stream_renew]
      congr 2
      omega

end Chip8.Twister
