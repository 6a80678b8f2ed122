import Chip8.CommandLine.Parse
import Chip8.Proofs.CommandLine.Flags
import Chip8.Proofs.Literals

/-!
# Chip8.Proofs.CommandLine.Entries — the order of options does not matter

A command line consists of one file name and of entries, in any order.  An entry sets an option by
one of its full flags, with the value joined behind an equals sign or as the next argument, and an
option may have several.  Each entry is read by itself and takes effect on its own option only
(`Read`), so that the last entry of an option counts, wherever the file name stands
(`parse_by_last_entries`).
-/

namespace Chip8.CommandLine

/-! ## Command lines -/

/-- What an option can be set to. -/
inductive Value where
  /-- The option is there, without a value. -/
  | present
  | number (n : Int)
  | text (text : String)
  deriving DecidableEq

/-- An option, and what it is set to. -/
abbrev Entry := Param × Value

/-- The text is a value that the option takes. -/
inductive Means : Param → String → Value → Prop
  | number {p : Param} {text : String} {n : Int} (hp : p ∈ [.clockSpeed, .scale, .seed, .maxOps])
      (hnumber : IntLiteral.Denotes text.toList n) : Means p text (.number n)
  | renderer {text : String} (hchoice : text ∈ rendererNames) : Means .renderer text (.text text)
  | edgeMode {text : String} (hchoice : text ∈ EdgeMode.all.map EdgeMode.name) :
      Means .edgeMode text (.text text)
  | keymap {text : String} (hne : text ≠ "--") : Means .keymap text (.text text)

/-- The arguments are a way to write the entry. -/
inductive Spells : Entry → List String → Prop
  | alone {flag : String} (hflag : flag ∈ Param.debug.flags) : Spells (.debug, .present) [flag]
  | joined {p : Param} {flag text : String} {v : Value} (hflag : flag ∈ p.flags)
      (hvalue : Means p text v) : Spells (p, v) [flag ++ "=" ++ text]
  | apart {p : Param} {flag text : String} {v : Value} (hflag : flag ∈ p.flags)
      (hvalue : Means p text v) (hdash : ¬ Dashed text) : Spells (p, v) [flag, text]

/-- The arguments are a way to write the entries, one after another. -/
inductive SpellsAll : List Entry → List String → Prop
  | nil : SpellsAll [] []
  | cons {e : Entry} {entries : List Entry} {args args' : List String} (h : Spells e args)
      (more : SpellsAll entries args') : SpellsAll (e :: entries) (args ++ args')

/-- A command line with that file name, and entries before and after it. -/
inductive Line (name : String) : List Entry → List String → Prop
  | intro {before after : List Entry} {args args' : List String} (hname : ¬ Dashed name)
      (hbefore : SpellsAll before args) (hafter : SpellsAll after args') :
      Line name (before ++ after) (args ++ name :: args')

/-- What the last entry of the option sets it to. -/
def last? (p : Param) (entries : List Entry) : Option Value := entries.reverse.lookup p

/-- What the option is when nothing sets it. -/
def Param.default : Param → Setting Value
  | renderer => .given (.text "pygame")
  | keymap => .given (.text "120,49,50,51,113,119,101,97,115,100,122,99,52,114,102,118")
  | edgeMode => .given (.text "linear")
  | _ => .unset

namespace Setting

/-- The setting with its value changed. -/
def map {α β : Type} (f : α → β) : Setting α → Setting β
  | unset => unset
  | given a => given (f a)
  | dropped => dropped

theorem map_injective {α β : Type} {f : α → β} (hf : Function.Injective f) :
    Function.Injective (map f) := by
  intro a b h
  cases a <;> cases b <;> simp [map] at h ⊢
  exact hf h

end Setting

/-- What the choices hold for an option. -/
def Choices.at (c : Choices) : Param → Setting Value
  | .help => .unset
  | .clockSpeed => c.clockSpeed.map .number
  | .renderer => c.renderer.map .text
  | .scale => c.scale.map .number
  | .keymap => c.keymap.map .text
  | .edgeMode => c.edgeMode.map .text
  | .seed => c.seed.map .number
  | .maxOps => c.maxOps.map .number
  | .debug => if c.debug then .given .present else .unset

/-- What a command line with that file name and those entries asks for. -/
structure Understood (name : String) (entries : List Entry) (o : Options) : Prop where
  filename : o.filename = name
  debug : o.debug = true ↔ (.debug, .present) ∈ entries
  value : ∀ p, p.takesValue = true → o.at p = (last? p entries).elim p.default .given

variable {p : Param} {v : Value} {e : Entry} {entries more : List Entry} {name text : String}
  {args args' : List String} {ts ts' : List Token} {c c' c'' : Choices}

/-! ## What entries do to choices -/

/-- The choices `c'` are those of `c` with the last entry of each option put into effect. -/
def Follows (c : Choices) (entries : List Entry) (c' : Choices) : Prop :=
  ∀ p, c'.at p = (last? p entries).elim (c.at p) .given

theorem last?_append : last? p (entries ++ more) = (last? p more).or (last? p entries) := by
  rw [last?, List.reverse_append, List.lookup_append, last?, last?]

theorem mem_of_last? (h : last? p entries = some v) : (p, v) ∈ entries := by
  obtain ⟨later, earlier, hsplit, -⟩ := List.lookup_eq_some_iff.mp h
  rw [← List.mem_reverse, hsplit]
  exact List.mem_append_right _ List.mem_cons_self

theorem exists_last?_of_mem (h : (p, v) ∈ entries) : ∃ w, last? p entries = some w := by
  rw [← Option.isSome_iff_exists, last?, List.lookup_isSome_iff]
  exact ⟨(p, v), List.mem_reverse.mpr h, beq_self_eq_true p⟩

theorem Follows.append (h : Follows c entries c') (h' : Follows c' more c'') :
    Follows c (entries ++ more) c'' := by
  intro p
  rw [h' p, h p, last?_append]
  cases last? p more <;> rfl

/-- Choices are what they hold for each option. -/
theorem Choices.ext_at (h : ∀ p, c.at p = c'.at p) : c = c' := by
  have hnumber : Function.Injective Value.number := fun _ _ h => Value.number.inj h
  have htext : Function.Injective Value.text := fun _ _ h => Value.text.inj h
  have hdebug : c.debug = c'.debug := by
    have hflag := h .debug
    cases hc : c.debug <;> cases hc' : c'.debug <;> simp [Choices.at, hc, hc'] at hflag ⊢
  cases c
  cases c'
  simp only [Choices.mk.injEq]
  exact ⟨Setting.map_injective hnumber (h .clockSpeed), Setting.map_injective htext (h .renderer),
    Setting.map_injective hnumber (h .scale), Setting.map_injective htext (h .keymap),
    Setting.map_injective htext (h .edgeMode), Setting.map_injective hnumber (h .seed),
    Setting.map_injective hnumber (h .maxOps), hdebug⟩

theorem at_default (p : Param) : ({} : Choices).at p = p.default := by
  cases p <;> rfl

/-- No option takes the text that is dropped. -/
theorem Means.ne_separator (h : Means p text v) : text ≠ "--" := by
  rintro rfl
  cases h with
  | number _ hnumber => cases IntLiteral.parse_eq_some_iff.mpr hnumber
  | renderer hchoice | edgeMode hchoice =>
    revert hchoice
    decide
  | keymap hne => exact hne rfl

theorem Means.takesValue (h : Means p text v) : p.takesValue = true := by
  cases h with
  | number hp =>
    simp only [List.mem_cons, List.not_mem_nil, or_false] at hp
    rcases hp with rfl | rfl | rfl | rfl <;> rfl
  | renderer | edgeMode | keymap => rfl

/-- A value that the option takes is accepted and sets this option alone. -/
theorem set_of_means (h : Means p text v) (c : Choices) :
    ∃ c', c.set p text = .ok c' ∧ Follows c [(p, v)] c' := by
  have hgiven {α : Type} {read : String → Except Complaint α} {a : α} (hread : read text = .ok a) :
      setting read text = .ok (.given a) := by
    rw [setting, if_neg h.ne_separator, hread]
  cases h with
  | @number _ _ n hp hnumber =>
    have hread : readInt p text = .ok n := by
      rw [readInt, IntLiteral.parse_eq_some_iff.mpr hnumber]
    simp only [List.mem_cons, List.not_mem_nil, or_false] at hp
    rcases hp with rfl | rfl | rfl | rfl
    all_goals
      rw [Choices.set, hgiven hread]
      exact ⟨_, rfl, fun q => by cases q <;> rfl⟩
  | renderer hchoice | edgeMode hchoice =>
    rw [Choices.set, hgiven (if_pos hchoice)]
    exact ⟨_, rfl, fun q => by cases q <;> rfl⟩
  | keymap =>
    rw [Choices.set, hgiven rfl]
    exact ⟨_, rfl, fun q => by cases q <;> rfl⟩

/-! ## Reading entries -/

/-- Looked at, the arguments are the tokens, and these put the entries into effect. -/
structure Read (entries : List Entry) (args : List String) (ts : List Token) : Prop where
  tokens : ∀ {rest ts'}, Token.ofArguments rest = .ok ts' →
    Token.ofArguments (args ++ rest) = .ok (ts ++ ts')
  separator : Token.separator ∉ ts
  effect : ∀ (s : Progress) ts', ∃ choices, Follows s.choices entries choices ∧
    s.consume (ts ++ ts') = { s with choices }.consume ts'

theorem Read.nil : Read [] [] [] :=
  ⟨id, List.not_mem_nil, fun s _ => ⟨s.choices, fun _ => rfl, rfl⟩⟩

theorem Read.append (h : Read entries args ts) (h' : Read more args' ts') :
    Read (entries ++ more) (args ++ args') (ts ++ ts') := by
  refine ⟨?_, ?_, ?_⟩
  · intro rest tail hrest
    rw [List.append_assoc, List.append_assoc]
    exact h.tokens (h'.tokens hrest)
  · rw [List.mem_append, not_or]
    exact ⟨h.separator, h'.separator⟩
  · intro s tail
    obtain ⟨choices, hfirst, hstep⟩ := h.effect s (ts' ++ tail)
    obtain ⟨choices', hmore, hrest⟩ := h'.effect { s with choices } tail
    refine ⟨choices', hfirst.append hmore, ?_⟩
    rw [List.append_assoc, hstep, hrest]

theorem setCluster_of_set {s : Progress} (hset : s.choices.set p text = .ok c) :
    s.setCluster [] p text = .ok { s with choices := c } := by
  rw [Progress.setCluster, Progress.setFlags]
  simp only
  rw [hset]

theorem consume_joined {s : Progress} (hp : p.takesValue = true)
    (hset : s.choices.set p text = .ok c) (short : Bool) (ts : List Token) :
    s.consume (.flag p short (some text.toList) :: ts) = { s with choices := c }.consume ts := by
  have hcluster : Cluster.ofFlag p short (some text.toList) = .ok ⟨[], some (p, some text)⟩ := by
    rw [Cluster.ofFlag, if_pos hp, String.ofList_toList]
  rw [Progress.consume, hcluster]
  simp only
  rw [setCluster_of_set hset]

/-- The argument after a flag that lacks its value is the value, and not the file name. -/
theorem consume_apart {s : Progress} (hp : p.takesValue = true)
    (hset : s.choices.set p text = .ok c) (short : Bool) (ts : List Token) :
    s.consume (.flag p short none :: .plain text :: ts) = { s with choices := c }.consume ts := by
  have hcluster : Cluster.ofFlag p short none = .ok ⟨[], some (p, none)⟩ := by
    rw [Cluster.ofFlag, Cluster.join, if_pos hp, if_pos rfl]
  rw [Progress.consume, hcluster]
  simp only
  rw [setCluster_of_set hset]

theorem read_alone {flag : String} (hflag : flag ∈ Param.debug.flags) :
    Read [(.debug, .present)] [flag] [.flag .debug (Token.isShort flag.toList) none] := by
  have hne := Param.ne_separator_of_mem hflag
  refine ⟨?_, by simp, ?_⟩
  · intro rest ts' hrest
    exact Token.ofArguments_cons hne (Token.ofArgument_flag hflag) hrest
  · intro s ts'
    exact ⟨{ s.choices with debug := true }, fun q => by cases q <;> rfl, rfl⟩

theorem read_joined {flag : String} (hflag : flag ∈ p.flags) (hvalue : Means p text v) :
    Read [(p, v)] [flag ++ "=" ++ text]
      [.flag p (Token.isShort flag.toList) (some text.toList)] := by
  have hne : flag ++ "=" ++ text ≠ "--" := by
    intro heq
    have hmem : '=' ∈ (flag ++ "=" ++ text).toList := by simp
    rw [heq] at hmem
    revert hmem
    decide
  refine ⟨?_, by simp, ?_⟩
  · intro rest ts' hrest
    exact Token.ofArguments_cons hne (Token.ofArgument_joined hflag text) hrest
  · intro s ts'
    obtain ⟨choices, hset, hfollows⟩ := set_of_means hvalue s.choices
    exact ⟨choices, hfollows, consume_joined hvalue.takesValue hset _ ts'⟩

theorem read_apart {flag : String} (hflag : flag ∈ p.flags) (hvalue : Means p text v)
    (hdash : ¬ Dashed text) :
    Read [(p, v)] [flag, text] [.flag p (Token.isShort flag.toList) none, .plain text] := by
  have hne := Param.ne_separator_of_mem hflag
  refine ⟨?_, by simp, ?_⟩
  · intro rest ts' hrest
    have htext := Token.ofArgument_plain hdash
    have hmore := Token.ofArguments_cons (ne_of_not_dashed hdash) htext hrest
    exact Token.ofArguments_cons hne (Token.ofArgument_flag hflag) hmore
  · intro s ts'
    obtain ⟨choices, hset, hfollows⟩ := set_of_means hvalue s.choices
    exact ⟨choices, hfollows, consume_apart hvalue.takesValue hset _ ts'⟩

theorem Spells.read (h : Spells e args) : ∃ ts, Read [e] args ts := by
  cases h with
  | alone hflag => exact ⟨_, read_alone hflag⟩
  | joined hflag hvalue => exact ⟨_, read_joined hflag hvalue⟩
  | apart hflag hvalue hdash => exact ⟨_, read_apart hflag hvalue hdash⟩

theorem SpellsAll.read (h : SpellsAll entries args) : ∃ ts, Read entries args ts := by
  induction h with
  | nil => exact ⟨[], .nil⟩
  | cons h _ ih =>
    obtain ⟨ts, hread⟩ := h.read
    obtain ⟨ts', hmore⟩ := ih
    exact ⟨ts ++ ts', hread.append hmore⟩

/-! ## Reading a command line -/

/-- The first plain argument that no flag takes is the file name. -/
theorem consume_plain {s : Progress} (hs : s.filename = none) (hts : Token.separator ∉ ts) :
    s.consume (.plain name :: ts) = { s with filename := some name }.consume ts := by
  obtain ⟨filename, choices, extras⟩ := s
  cases hs
  -- only a separator right behind the name would be swallowed with it
  cases ts with
  | nil => rfl
  | cons t ts =>
    cases t with
    | separator => exact absurd List.mem_cons_self hts
    | plain | flag | unknown => rfl

theorem Line.exists_choices (h : Line name entries args) :
    ∃ choices, Follows {} entries choices ∧ parse args = .ok { choices with filename := name } := by
  cases h with
  | @intro before after args args' hname hbefore hafter =>
    -- entries are read in front of anything, so the name may stand between the two rows
    obtain ⟨ts, hread⟩ := hbefore.read
    obtain ⟨ts', hread'⟩ := hafter.read
    have hnil : Token.ofArguments [] = .ok [] := rfl
    have htail : Token.ofArguments args' = .ok ts' := by simpa using hread'.tokens hnil
    have hplain := Token.ofArgument_plain hname
    have htokens : Token.ofArguments (args ++ name :: args') = .ok (ts ++ .plain name :: ts') :=
      hread.tokens (Token.ofArguments_cons (ne_of_not_dashed hname) hplain htail)
    obtain ⟨choices, hfirst, hstep⟩ := hread.effect ⟨none, {}, []⟩ (.plain name :: ts')
    obtain ⟨choices', hmore, hrest⟩ := hread'.effect ⟨some name, choices, []⟩ []
    rw [List.append_nil] at hrest
    refine ⟨choices', hfirst.append hmore, ?_⟩
    rw [parse, htokens]
    simp only
    rw [hstep, consume_plain rfl hread'.separator]
    simp only
    rw [hrest]
    rfl

theorem understood_of_follows (h : Follows {} entries c) :
    Understood name entries { c with filename := name } := by
  refine ⟨rfl, ?_, ?_⟩
  · have hflag : (if c.debug then Setting.given Value.present else .unset) =
        (last? .debug entries).elim .unset .given := h .debug
    constructor
    · intro hdebug
      rw [if_pos hdebug] at hflag
      cases hlast : last? .debug entries with
      | none => rw [hlast] at hflag; cases hflag
      | some v =>
        rw [hlast] at hflag
        cases hflag
        exact mem_of_last? hlast
    · intro hmem
      obtain ⟨v, hlast⟩ := exists_last?_of_mem hmem
      rw [hlast] at hflag
      by_contra hdebug
      rw [if_neg hdebug] at hflag
      cases hflag
  · intro p _
    rw [← at_default]
    exact h p

/-- **The order of options does not matter.**  A command line with one file name and any entries is
understood: the file name is taken as it is, the debug option is on if some entry turns it on, and
every other option has the value of its last entry, or its default.  So it comes to the same as any
other command line with that file name whose last entries are the same. -/
theorem parse_by_last_entries (h : Line name entries args) :
    (∃ o, parse args = .ok o ∧ Understood name entries o) ∧
      ∀ entries' args', Line name entries' args' → (∀ p, last? p entries' = last? p entries) →
        parse args' = parse args := by
  obtain ⟨choices, hfollows, hparse⟩ := h.exists_choices
  refine ⟨⟨_, hparse, understood_of_follows hfollows⟩, ?_⟩
  intro entries' args' h' hlast
  obtain ⟨choices', hfollows', hparse'⟩ := h'.exists_choices
  have hsame : choices' = choices := by
    apply Choices.ext_at
    intro p
    rw [hfollows' p, hfollows p, hlast p]
  rw [hparse', hparse, hsame]

/-- The file name stands between the options, and the clock speed is there twice. -/
def nameBetween : List String :=
  ["-c", "5", "--keymap=a=b", "rom.ch8", "-d", "--seed=-7", "--clock_speed", " 1_0"]

/-- The file name comes first, and the debug option is there twice. -/
def nameFirst : List String :=
  ["rom.ch8", "--debug", "--clock_speed=10", "-d", "-k", "a=b", "--seed=-7"]

/-- Both have a clock speed of ten in their last entry for it. -/
theorem parse_by_last_entries_name_between :
    ∃ entries, Line "rom.ch8" entries nameBetween ∧ last? .clockSpeed entries = some (.number 10) ∧
      (∃ o, parse nameBetween = .ok o ∧ Understood "rom.ch8" entries o) ∧
      parse nameFirst = parse nameBetween := by
  have hnumber {p : Param} {text : String} {n : Int}
      (hp : p ∈ [.clockSpeed, .scale, .seed, .maxOps])
      (hparse : IntLiteral.parse? text = some n) : Means p text (.number n) :=
    .number hp (IntLiteral.parse_eq_some_iff.mp hparse)
  have hfive : Means .clockSpeed "5" (.number 5) := hnumber (by decide) (by decide +kernel)
  have hten : Means .clockSpeed "10" (.number 10) := hnumber (by decide) (by decide +kernel)
  have hten' : Means .clockSpeed " 1_0" (.number 10) := hnumber (by decide) (by decide +kernel)
  have hseven : Means .seed "-7" (.number (-7)) := hnumber (by decide) (by decide +kernel)
  have hkeymap : Means .keymap "a=b" (.text "a=b") := .keymap (by decide)
  have hseed : Spells (.seed, .number (-7)) ["--seed=-7"] :=
    .joined (by decide : "--seed" ∈ Param.seed.flags) hseven
  have hbefore : SpellsAll [(.clockSpeed, .number 5), (.keymap, .text "a=b")]
      ["-c", "5", "--keymap=a=b"] :=
    .cons (.apart (by decide : "-c" ∈ Param.clockSpeed.flags) hfive (by decide)) <|
    .cons (.joined (by decide : "--keymap" ∈ Param.keymap.flags) hkeymap) .nil
  have hafter : SpellsAll [(.debug, .present), (.seed, .number (-7)), (.clockSpeed, .number 10)]
      ["-d", "--seed=-7", "--clock_speed", " 1_0"] :=
    .cons (.alone (by decide : "-d" ∈ Param.debug.flags)) <| .cons hseed <|
    .cons (.apart (by decide : "--clock_speed" ∈ Param.clockSpeed.flags) hten' (by decide)) .nil
  have hall : SpellsAll [(.debug, .present), (.clockSpeed, .number 10), (.debug, .present),
      (.keymap, .text "a=b"), (.seed, .number (-7))]
      ["--debug", "--clock_speed=10", "-d", "-k", "a=b", "--seed=-7"] :=
    .cons (.alone (by decide : "--debug" ∈ Param.debug.flags)) <|
    .cons (.joined (by decide : "--clock_speed" ∈ Param.clockSpeed.flags) hten) <|
    .cons (.alone (by decide : "-d" ∈ Param.debug.flags)) <|
    .cons (.apart (by decide : "-k" ∈ Param.keymap.flags) hkeymap (by decide)) <|
    .cons hseed .nil
  have hname : ¬ Dashed "rom.ch8" := by decide
  have hbetween : Line "rom.ch8" _ nameBetween := .intro hname hbefore hafter
  have hfirst : Line "rom.ch8" _ nameFirst := .intro hname .nil hall
  obtain ⟨hunderstood, hsame⟩ := parse_by_last_entries hbetween
  exact ⟨_, hbetween, rfl, hunderstood, hsame _ _ hfirst fun p => by cases p <;> rfl⟩

end Chip8.CommandLine
