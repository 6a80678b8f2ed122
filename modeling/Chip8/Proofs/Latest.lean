import Mathlib.Data.List.Induction

/-!
# Chip8.Proofs.Latest — what the last act on a place has left there

Acts follow one another, and each of them sets a place to a value or leaves the place alone.
`Latest` relates the value that the place had at first, the acts, and the value that the last of
them to set it has left.  A state that goes along with every single act goes along with all of them
(`latest_foldl`).
-/

namespace Chip8

variable {α β σ : Type} {sets : α → β → Prop} {start b c : β} {a : α} {acts more : List α}

/-- None of the acts sets the place. -/
def Untouched (sets : α → β → Prop) (acts : List α) : Prop := ∀ a ∈ acts, ∀ b, ¬ sets a b

/-- The value that the last act to set the place has left; the one at the start if no act sets
it. -/
def Latest (sets : α → β → Prop) (start : β) (acts : List α) (b : β) : Prop :=
  (∃ before a after, acts = before ++ a :: after ∧ sets a b ∧ Untouched sets after) ∨
    (Untouched sets acts ∧ b = start)

theorem untouched_nil : Untouched sets [] := by
  intro a ha
  cases ha

theorem Untouched.append (h : Untouched sets acts) (h' : Untouched sets more) :
    Untouched sets (acts ++ more) := by
  intro a ha
  rcases List.mem_append.mp ha with hacts | hmore
  · exact h a hacts
  · exact h' a hmore

namespace Latest

theorem nil_iff : Latest sets start [] b ↔ b = start := by
  simp [Latest, Untouched]

/-- An act that sets the place leaves its own value there. -/
theorem of_sets (h : sets a b) : Latest sets start [a] b :=
  Or.inl ⟨[], a, [], rfl, h, untouched_nil⟩

/-- An act that does not set the place leaves it alone. -/
theorem of_not_sets (h : ∀ b, ¬ sets a b) : Latest sets start [a] start := by
  refine Or.inr ⟨?_, rfl⟩
  intro a' ha'
  rw [List.mem_singleton.mp ha']
  exact h

theorem append (h : Latest sets start acts b) (h' : Latest sets b more c) :
    Latest sets start (acts ++ more) c := by
  rcases h' with ⟨before, a, after, rfl, hset, hafter⟩ | ⟨hmore, rfl⟩
  · exact Or.inl ⟨acts ++ before, a, after, by rw [List.append_assoc], hset, hafter⟩
  · rcases h with ⟨before, a, after, rfl, hset, hafter⟩ | ⟨hacts, rfl⟩
    · exact Or.inl ⟨before, a, after ++ more, by simp, hset, hafter.append hmore⟩
    · exact Or.inr ⟨hacts.append hmore, rfl⟩

theorem concat_iff :
    Latest sets start (acts ++ [a]) b ↔
      sets a b ∨ (∀ d, ¬ sets a d) ∧ Latest sets start acts b := by
  constructor
  · rintro (⟨before, a', after, hsplit, hset, hafter⟩ | ⟨hacts, rfl⟩)
    · rcases List.eq_nil_or_concat after with rfl | ⟨after, z, rfl⟩
      · obtain ⟨-, hlast⟩ := List.append_inj' hsplit rfl
        cases hlast
        exact Or.inl hset
      · rw [List.concat_eq_append, ← List.cons_append, ← List.append_assoc] at hsplit
        obtain ⟨hacts, hlast⟩ := List.append_inj' hsplit rfl
        cases hlast
        refine Or.inr ⟨hafter a (by simp), Or.inl ⟨before, a', after, hacts, hset, ?_⟩⟩
        intro c hc
        exact hafter c (by simp [hc])
    · refine Or.inr ⟨hacts a (by simp), Or.inr ⟨?_, rfl⟩⟩
      intro c hc
      exact hacts c (by simp [hc])
  · rintro (hset | ⟨hnone, h⟩)
    · exact Or.inl ⟨acts, a, [], rfl, hset, untouched_nil⟩
    · exact h.append (of_not_sets hnone)

/-- Where no act can set the place to two values, the acts leave one value. -/
theorem unique (hone : ∀ a b c, sets a b → sets a c → b = c) (h : Latest sets start acts b)
    (h' : Latest sets start acts c) : b = c := by
  induction acts using List.reverseRecOn with
  | nil => rw [nil_iff.mp h, nil_iff.mp h']
  | append_singleton acts a ih =>
    rcases concat_iff.mp h with hset | ⟨hnone, hlatest⟩
    · rcases concat_iff.mp h' with hset' | ⟨hnone', -⟩
      · exact hone a b c hset hset'
      · exact absurd hset (hnone' b)
    · rcases concat_iff.mp h' with hset' | ⟨-, hlatest'⟩
      · exact absurd hset' (hnone c)
      · exact ih hlatest hlatest'

end Latest

/-- A state that goes along with every single act goes along with all of them. -/
theorem latest_foldl (view : σ → β) {step : σ → α → σ}
    (hstep : ∀ s a, Latest sets (view s) [a] (view (step s a))) (s : σ) (acts : List α) :
    Latest sets (view s) acts (view (acts.foldl step s)) := by
  induction acts generalizing s with
  | nil => exact Latest.nil_iff.mpr rfl
  | cons a acts ih => exact (hstep s a).append (ih (step s a))

end Chip8
