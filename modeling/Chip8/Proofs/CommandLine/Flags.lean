import Chip8.CommandLine.Token

/-!
# Chip8.Proofs.CommandLine.Flags — how a full flag is looked at

A flag that is written out in full stands for its own option, whatever other flags begin like it
(`ofArgument_flag`).  A value may be joined to it behind an equals sign and may then be any text,
also one with an equals sign in it or with a dash in front (`ofArgument_joined`).  An argument
without a dash in front is plain (`ofArgument_plain`).
-/

namespace Chip8.CommandLine

/-- The text begins with a dash. -/
def Dashed (text : String) : Prop := text.toList.head? = some '-'

instance (text : String) : Decidable (Dashed text) :=
  inferInstanceAs (Decidable (text.toList.head? = some '-'))

theorem ne_of_not_dashed {text : String} (h : ¬ Dashed text) : text ≠ "--" := by
  rintro rfl
  exact h rfl

namespace Param

variable {p : Param} {flag text : String}

theorem mem_all (p : Param) : p ∈ all := by
  cases p <;> decide

/-- No two options share a flag. -/
theorem ofFlag_of_mem (h : flag ∈ p.flags) : ofFlag? flag = some p := by
  have hall : ∀ p ∈ all, ∀ flag ∈ p.flags, ofFlag? flag = some p := by
    decide +kernel
  exact hall p p.mem_all flag h

theorem mem_flags_of_ofFlag (h : ofFlag? flag = some p) : flag ∈ p.flags := by
  obtain ⟨before, after, htable, -⟩ := List.lookup_eq_some_iff.mp h
  have hmem : (flag, p) ∈ table := by
    rw [htable]
    exact List.mem_append_right _ List.mem_cons_self
  obtain ⟨q, -, hq⟩ := List.mem_flatMap.mp hmem
  obtain ⟨flag', hflag, heq⟩ := List.mem_map.mp hq
  cases heq
  exact hflag

/-- What all flags look like: a dash, something after it, and no equals sign. -/
theorem flag_shape (h : flag ∈ p.flags) :
    ∃ c cs, flag.toList = '-' :: c :: cs ∧ '=' ∉ flag.toList := by
  have hall : ∀ p ∈ all, ∀ flag ∈ p.flags, flag.toList.take 1 = ['-'] ∧ 2 ≤ flag.toList.length ∧
      '=' ∉ flag.toList := by
    decide +kernel
  obtain ⟨hdash, hlen, hequals⟩ := hall p p.mem_all flag h
  match hcs : flag.toList with
  | [] | [_] => simp [hcs] at hlen
  | d :: c :: cs =>
    rw [hcs] at hdash
    obtain rfl : d = '-' := by simpa using hdash
    exact ⟨c, cs, rfl, by rw [← hcs]; exact hequals⟩

/-- The text that ends the options is not one of them. -/
theorem ne_separator_of_mem (h : flag ∈ p.flags) : flag ≠ "--" := by
  have hall : ∀ p ∈ all, ∀ flag ∈ p.flags, flag ≠ "--" := by
    decide +kernel
  exact hall p p.mem_all flag h

/-- A text with an equals sign in it is no flag. -/
theorem ofFlag_of_equals (h : '=' ∈ text.toList) : ofFlag? text = none := by
  cases hflag : ofFlag? text with
  | none => rfl
  | some p =>
    obtain ⟨-, -, -, hequals⟩ := flag_shape (mem_flags_of_ofFlag hflag)
    exact absurd h hequals

end Param

namespace Token

variable {p : Param} {flag text arg : String} {args : List String} {t : Token} {ts : List Token}

theorem splitEquals_append {cs : List Char} (h : '=' ∉ cs) (value : List Char) :
    splitEquals (cs ++ '=' :: value) = (cs, some value) := by
  induction cs with
  | nil => rfl
  | cons c cs ih =>
    rw [List.mem_cons, not_or] at h
    rw [List.cons_append, splitEquals, if_neg (fun hc => h.1 hc.symm), ih h.2]

theorem ofArgument_plain (h : ¬ Dashed arg) : ofArgument arg = .ok (.plain arg) := by
  unfold ofArgument
  split
  · rename_i c cs harg
    exact absurd (by rw [Dashed, harg]; rfl) h
  · rfl

theorem ofArgument_flag (h : flag ∈ p.flags) :
    ofArgument flag = .ok (.flag p (isShort flag.toList) none) := by
  obtain ⟨c, cs, hflag, -⟩ := Param.flag_shape h
  unfold ofArgument
  rw [hflag]
  simp only
  rw [Param.ofFlag_of_mem h]

/-- A joined value is taken as it is, from the first equals sign on. -/
theorem ofArgument_joined (h : flag ∈ p.flags) (text : String) :
    ofArgument (flag ++ "=" ++ text) =
      .ok (.flag p (isShort flag.toList) (some text.toList)) := by
  obtain ⟨c, cs, hflag, hequals⟩ := Param.flag_shape h
  have hlist : (flag ++ "=" ++ text).toList = flag.toList ++ '=' :: text.toList := by
    rw [String.toList_append, String.toList_append, List.append_assoc]
    rfl
  have hnone : Param.ofFlag? (flag ++ "=" ++ text) = none := by
    apply Param.ofFlag_of_equals
    rw [hlist]
    exact List.mem_append_right _ List.mem_cons_self
  have hsplit := splitEquals_append hequals text.toList
  have hcons : flag.toList ++ '=' :: text.toList = '-' :: c :: (cs ++ '=' :: text.toList) := by
    rw [hflag]
    rfl
  rw [hcons] at hlist hsplit
  unfold ofArgument
  rw [hlist]
  simp only
  rw [hnone]
  simp only
  rw [ofDashed, hsplit, String.ofList_toList]
  simp only
  rw [Param.ofFlag_of_mem h]

/-- Arguments are looked at one by one, as long as none of them is `--`. -/
theorem ofArguments_cons (hne : arg ≠ "--") (harg : ofArgument arg = .ok t)
    (hargs : ofArguments args = .ok ts) : ofArguments (arg :: args) = .ok (t :: ts) := by
  rw [ofArguments, if_neg hne, harg]
  simp only
  rw [hargs]

end Token

end Chip8.CommandLine
