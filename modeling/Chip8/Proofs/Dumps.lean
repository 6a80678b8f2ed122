import Chip8.Cpu
import Chip8.Proofs.Numerals
import Mathlib.Data.List.Basic

/-!
# Chip8.Proofs.Dumps — a dump says what state it was made in

The registers are two characters each, so that their text has one length.  Every other number ends
where its field ends: a blank, a new line or the end of the text follows, and none of these is a
character of a numeral.  A listing is told from the word that stands for an empty one by the
bracket after its blank.  Read from the left, each field of two equal dumps is therefore the same
in both (`dump_unambiguous`).
-/

namespace Chip8

namespace Keypad

theorem mem_pressed {p : Keypad} {k : Key} : k ∈ p.pressed ↔ p.down.get k = true := by
  rw [pressed, List.mem_filter]
  exact ⟨And.right, fun hdown => ⟨List.mem_finRange k, hdown⟩⟩

theorem pressed_injective : Function.Injective pressed := by
  rintro ⟨down⟩ ⟨down'⟩ h
  congr 1
  apply Vector.ext
  intro k hk
  have hmem := @mem_pressed ⟨down⟩ ⟨k, hk⟩
  rw [h, mem_pressed] at hmem
  exact Bool.eq_iff_iff.mpr hmem.symm

end Keypad

namespace StateDump

open Numeral (hex decimal marks Ends ends_cons Spells spells_hex decimal_append_inj)

variable {s t xs ys : List Char} {n n' : Int} {width : Nat} {label lead word : String}
  {items items' : List Int} {m m' : Machine} {address address' : Int}

/-! ## Fields -/

theorem ends_label {c : Char} (hlabel : label.toList.head? = some c) (hc : c ∉ marks) :
    Ends (label.toList ++ s) := by
  obtain ⟨cs, hcs⟩ := List.head?_eq_some_iff.mp hlabel
  rw [hcs]
  exact ends_cons hc

/-- A number before a label that starts with a blank. -/
theorem field_inj (hx : Spells xs n) (hy : Spells ys n') (hlabel : label.toList.head? = some ' ')
    (h : xs ++ (label.toList ++ s) = ys ++ (label.toList ++ t)) : n = n' ∧ s = t := by
  have hblank : ' ' ∉ marks := by decide
  obtain ⟨hn, hrest⟩ := hx.append_inj hy (ends_label hlabel hblank) (ends_label hlabel hblank) h
  exact ⟨hn, List.append_cancel_left hrest⟩

/-! ## The registers -/

/-- The characters spell the bytes, two characters each. -/
inductive SpellsBytes : List Char → List UInt8 → Prop where
  | nil : SpellsBytes [] []
  | cons {pair cs : List Char} {b : UInt8} {bytes : List UInt8} (hlen : pair.length = 2)
      (hpair : Spells pair b.toNat) (h : SpellsBytes cs bytes) :
      SpellsBytes (pair ++ cs) (b :: bytes)

theorem SpellsBytes.append_inj {bytes bytes' : List UInt8} (hx : SpellsBytes xs bytes)
    (hy : SpellsBytes ys bytes') (hlen : bytes.length = bytes'.length) (h : xs ++ s = ys ++ t) :
    bytes = bytes' ∧ s = t := by
  induction hx generalizing ys bytes' with
  | nil =>
    cases hy with
    | nil => exact ⟨rfl, h⟩
    | cons => cases hlen
  | cons htwo hpair _ ih =>
    cases hy with
    | nil => cases hlen
    | cons htwo' hpair' hbytes' =>
      rw [List.append_assoc, List.append_assoc] at h
      obtain ⟨rfl, hrest⟩ := List.append_inj h (htwo.trans htwo'.symm)
      obtain ⟨rfl, hs⟩ := ih hbytes' (Nat.succ.inj hlen) hrest
      have hbyte := hpair.read.symm.trans hpair'.read
      rw [UInt8.toNat_inj.mp (Int.ofNat_inj.mp hbyte)]
      exact ⟨rfl, hs⟩

theorem length_hex_byte (b : UInt8) : (hex 2 b.toNat).toList.length = 2 :=
  Numeral.length_hex_of_le ((Nat.length_toDigits_le_iff (by decide) (by decide)).mpr b.toNat_lt)

theorem spellsBytes_registers (v : Vector UInt8 16) :
    SpellsBytes (registers v).toList v.toList.reverse := by
  rw [registers, String.toList_join, List.flatMap_map]
  induction v.toList.reverse with
  | nil => exact .nil
  | cons b bytes ih =>
    rw [List.flatMap_cons]
    exact .cons (length_hex_byte b) (spells_hex 2 b.toNat) ih

/-! ## Listings -/

/-- The items, each after a blank and a lead. -/
def entries (lead : String) (width : Nat) (items : List Int) : List Char :=
  items.flatMap fun n => ' ' :: (lead.toList ++ (hex width n).toList)

/-- The items; a word in brackets when there are none. -/
def listing (word lead : String) (width : Nat) (items : List Int) : List Char :=
  if items.isEmpty then ' ' :: '(' :: word.toList else entries lead width items

theorem entries_cons : entries lead width (n :: items) =
    ' ' :: (lead.toList ++ ((hex width n).toList ++ entries lead width items)) := by
  simp [entries]

/-- What follows a listing: no more of a numeral, and no further item. -/
structure Closes (s : List Char) : Prop where
  ends : Ends s
  noItem : ∀ cs, s ≠ ' ' :: cs

theorem closes_nil : Closes [] := ⟨Numeral.ends_nil, fun _ h => nomatch h⟩

theorem closes_label (hlabel : label.toList.head? = some '\n') : Closes (label.toList ++ s) := by
  refine ⟨ends_label hlabel (by decide), ?_⟩
  obtain ⟨cs, hcs⟩ := List.head?_eq_some_iff.mp hlabel
  rw [hcs]
  intro cs' h
  cases h

theorem ends_entries (hs : Closes s) : Ends (entries lead width items ++ s) := by
  cases items with
  | nil => exact hs.ends
  | cons =>
    rw [entries_cons]
    exact ends_cons (by decide)

theorem entries_append_inj (hs : Closes s) (ht : Closes t)
    (h : entries lead width items ++ s = entries lead width items' ++ t) :
    items = items' ∧ s = t := by
  induction items generalizing items' with
  | nil =>
    cases items' with
    | nil => exact ⟨rfl, h⟩
    | cons =>
      rw [entries_cons] at h
      exact absurd h (hs.noItem _)
  | cons n items ih =>
    cases items' with
    | nil =>
      rw [entries_cons] at h
      exact absurd h.symm (ht.noItem _)
    | cons n' items' =>
      simp only [entries_cons, List.cons_append, List.append_assoc, List.cons.injEq,
        true_and] at h
      obtain ⟨rfl, hrest⟩ := (spells_hex width n).append_inj (spells_hex width n')
        (ends_entries hs) (ends_entries ht) (List.append_cancel_left h)
      obtain ⟨rfl, hst⟩ := ih hrest
      exact ⟨rfl, hst⟩

/-- No item is taken for a word in brackets. -/
theorem entries_ne_word (hlead : '(' ∉ lead.toList) :
    entries lead width (n :: items) ++ s ≠ ' ' :: '(' :: t := by
  intro h
  simp only [entries_cons, List.cons_append, List.append_assoc, List.cons.injEq, true_and] at h
  rw [← List.append_assoc] at h
  have hne : lead.toList ++ (hex width n).toList ≠ [] :=
    List.append_ne_nil_of_right_ne_nil _ Numeral.hex_ne_nil
  obtain ⟨c, cs, hcs⟩ := List.exists_cons_of_ne_nil hne
  have hmem : c ∈ lead.toList ++ (hex width n).toList := by
    rw [hcs]
    exact List.mem_cons_self
  rw [hcs] at h
  cases h
  rcases List.mem_append.mp hmem with hin | hin
  · exact hlead hin
  · exact absurd (Numeral.mem_marks_of_mem_hex hin) (by decide)

theorem listing_append_inj (hlead : '(' ∉ lead.toList) (hs : Closes s) (ht : Closes t)
    (h : listing word lead width items ++ s = listing word lead width items' ++ t) :
    items = items' ∧ s = t := by
  cases items with
  | nil =>
    cases items' with
    | nil => exact ⟨rfl, List.append_cancel_left h⟩
    | cons => exact absurd h.symm (entries_ne_word hlead)
  | cons =>
    cases items' with
    | nil => exact absurd h (entries_ne_word hlead)
    | cons => exact entries_append_inj hs ht h

theorem toList_callStack (items : List Int) :
    (callStack items).toList = listing "Empty)" "0x" 3 items.reverse := by
  rw [callStack, listing, List.isEmpty_reverse]
  split_ifs
  · rfl
  · rw [String.toList_join, List.flatMap_map]
    simp only [String.toList_append]
    rfl

theorem toList_keys (pressed : List Key) :
    (keys pressed).toList = listing "None)" "" 1 (pressed.map fun k => (k.val : Int)) := by
  rw [keys, listing, List.isEmpty_map]
  split_ifs
  · rfl
  · rw [String.toList_join, List.flatMap_map, entries, List.flatMap_map]
    simp only [String.toList_append]
    rfl

/-! ## The line -/

/-- The numbers that a line shows. -/
@[ext]
structure Fields where
  registers : Vector UInt8 16
  index : Int
  delay : Int
  sound : Int
  address : Int
  opcode : Int
  deriving DecidableEq

/-- The characters of a line that shows the numbers, each after its label and the registers from the
last to the first. -/
inductive Shows : List Char → Fields → Prop where
  | line {f : Fields} {v i dt st pc op : List Char}
      (hregisters : SpellsBytes v f.registers.toList.reverse) (hindex : Spells i f.index)
      (hdelay : Spells dt f.delay) (hsound : Spells st f.sound) (haddress : Spells pc f.address)
      (hopcode : Spells op f.opcode) :
      Shows ("V: 0x".toList ++ v ++ " I: 0x".toList ++ i ++ " DT: 0x".toList ++ dt ++
        " ST: 0x".toList ++ st ++ " PC: 0x".toList ++ pc ++ " OP: 0x".toList ++ op) f

/-- A line and a text that no numeral goes on into determine what it shows and that text. -/
theorem Shows.append_inj {f g : Fields} (hx : Shows xs f) (hy : Shows ys g) (hs : Ends s)
    (ht : Ends t) (h : xs ++ s = ys ++ t) : f = g ∧ s = t := by
  obtain ⟨hv, hi, hdt, hst, hpc, hop⟩ := hx
  obtain ⟨hv', hi', hdt', hst', hpc', hop'⟩ := hy
  simp only [List.append_assoc] at h
  obtain ⟨hregisters, h⟩ := hv.append_inj hv' (by simp) (List.append_cancel_left h)
  obtain ⟨hindex, h⟩ := field_inj hi hi' rfl (List.append_cancel_left h)
  obtain ⟨hdelay, h⟩ := field_inj hdt hdt' rfl h
  obtain ⟨hsound, h⟩ := field_inj hst hst' rfl h
  obtain ⟨haddress, h⟩ := field_inj hpc hpc' rfl h
  obtain ⟨hopcode, h⟩ := hop.append_inj hop' hs ht h
  have hv := Vector.toList_inj.mp (List.reverse_inj.mp hregisters)
  exact ⟨Fields.ext hv hindex hdelay hsound haddress hopcode, h⟩

/-- What the line of a state is to show. -/
def fields (m : Machine) (address : Int) : Fields :=
  ⟨m.v, m.index, m.delay, m.sound, address, m.opcode⟩

theorem line_shows (m : Machine) (address : Int) :
    Shows (line m address).toList (fields m address) := by
  -- the equation of so long a text is slow to make, hence not `rw [line]`
  delta line
  simp only [String.toList_append]
  exact .line (spellsBytes_registers m.v) (spells_hex _ _) (spells_hex _ _) (spells_hex _ _)
    (spells_hex _ _) (spells_hex _ _)

/-- Two states of which a line says the same. -/
structure SameLine (m m' : Machine) (address address' : Int) : Prop where
  registers : m.v = m'.v
  index : m.index = m'.index
  delay : m.delay = m'.delay
  sound : m.sound = m'.sound
  address : address = address'
  opcode : m.opcode = m'.opcode

theorem line_append_inj (hs : Ends s) (ht : Ends t)
    (h : (line m address).toList ++ s = (line m' address').toList ++ t) :
    SameLine m m' address address' ∧ s = t := by
  obtain ⟨hfields, hrest⟩ := (line_shows m address).append_inj (line_shows m' address') hs ht h
  obtain ⟨hv, hindex, hdelay, hsound, haddress, hopcode⟩ := Fields.mk.inj hfields
  exact ⟨⟨hv, hindex, hdelay, hsound, haddress, hopcode⟩, hrest⟩

theorem line_eq_iff : line m address = line m' address' ↔ SameLine m m' address address' := by
  constructor
  · intro h
    have htext := congrArg (String.toList · ++ []) h
    exact (line_append_inj Numeral.ends_nil Numeral.ends_nil htext).1
  · rintro ⟨hv, hindex, hdelay, hsound, rfl, hopcode⟩
    delta line
    rw [hv, hindex, hdelay, hsound, hopcode]

theorem full_eq_iff : full m address = full m' address' ↔
    SameLine m m' address address' ∧ m.stack = m'.stack ∧ m.keypad = m'.keypad := by
  constructor
  · intro h
    have htext := congrArg String.toList h
    simp only [full, String.toList_append, List.append_assoc] at htext
    have hline : '\n' ∉ marks := by decide
    have hblank : ' ' ∉ marks := by decide
    obtain ⟨hsame, hrest⟩ :=
      line_append_inj (ends_label rfl hline) (ends_label rfl hline) htext
    have hdepth := decimal_append_inj (ends_label rfl hblank) (ends_label rfl hblank)
      (List.append_cancel_left hrest)
    have hlists := List.append_cancel_left hdepth
    rw [toList_callStack, toList_callStack] at hlists
    obtain ⟨hitems, hkeys⟩ :=
      listing_append_inj (by decide) (closes_label rfl) (closes_label rfl) hlists
    have hlast := congrArg (· ++ []) (List.append_cancel_left hkeys)
    rw [toList_keys, toList_keys] at hlast
    obtain ⟨hpressed, -⟩ := listing_append_inj (by decide) closes_nil closes_nil hlast
    refine ⟨hsame, ?_, ?_⟩
    · exact congrArg CallStack.mk (List.reverse_inj.mp hitems)
    · refine Keypad.pressed_injective (List.map_injective_iff.mpr ?_ hpressed)
      intro k k' hval
      exact Fin.ext (Int.ofNat_inj.mp hval)
  · rintro ⟨hsame, hstack, hkeypad⟩
    rw [full, full, line_eq_iff.mpr hsame, hstack, hkeypad]

end StateDump

namespace Cpu

variable {ρ σ : Type}

/-- **A dump is unambiguous.**  Two processors have the same line just in case the registers, the
index register, the timers, the address and the opcode are the same, and the same full dump just in
case the call stack and the keys are the same too. -/
theorem dump_unambiguous (c : Cpu ρ) (d : Cpu σ) :
    (c.dump = d.dump ↔ StateDump.SameLine c.machine d.machine c.address d.address) ∧
    (c.fullDump = d.fullDump ↔ StateDump.SameLine c.machine d.machine c.address d.address ∧
      c.machine.stack = d.machine.stack ∧ c.machine.keypad = d.machine.keypad) :=
  ⟨StateDump.line_eq_iff, StateDump.full_eq_iff⟩

end Cpu

end Chip8
