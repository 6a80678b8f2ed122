import Chip8.Proofs.SpriteLaw

/-!
# Chip8.Proofs.Redrawing — drawings commute, and undo themselves

What a drawing goes by are the memory, the index register, the edge mode and its two registers,
never the picture.  Drawings change none of these as long as `VF` is not one of the registers
(`DrawsAlike`), so each of them is refused or not, and flips the pixels that it flips, whatever has
been drawn before (`Executed.drawing_from`).  After a run of drawings a pixel differs from what it
was if an odd number of them flips it (`ExecutedAll.litAt_eq`).  Hence their order does not matter
(`executedAll_perm`), and a drawing that is repeated restores the picture.
-/

namespace Chip8

open Platform (pixelOn pixelOff)

/-- The opcode draws a sprite, and neither of its registers is `VF`. -/
structure Opcode.DrawsUnflagged (op : Int) : Prop where
  family : Opcode.family op = 0xD
  x_ne : Opcode.x op ≠ Reg.flag
  y_ne : Opcode.y op ≠ Reg.flag

namespace Machine

variable {m m₁ m₂ : Machine} {ks : List Int} {op k : Int} {ops ops' : List Int}

/-! ## What a drawing goes by -/

/-- The machines agree in all that a drawing goes by, if `VF` is not one of its registers. -/
structure DrawsAlike (m m₁ : Machine) : Prop where
  registers : ∀ r, r ≠ Reg.flag → m₁.reg r = m.reg r
  memory : m₁.ram = m.ram
  index : m₁.index = m.index
  edge : m₁.screen.edge = m.screen.edge

theorem DrawsAlike.refl (m : Machine) : DrawsAlike m m := ⟨fun _ _ => rfl, rfl, rfl, rfl⟩

theorem DrawsAlike.trans (h : DrawsAlike m m₁) (h₁ : DrawsAlike m₁ m₂) : DrawsAlike m m₂ where
  registers := by
    intro r hr
    rw [h₁.registers r hr, h.registers r hr]
  memory := h₁.memory.trans h.memory
  index := h₁.index.trans h.index
  edge := h₁.edge.trans h.edge

theorem DrawsAlike.spotsOf_eq (h : DrawsAlike m m₁) (hop : Opcode.DrawsUnflagged op) :
    m₁.spotsOf op = m.spotsOf op := by
  unfold spotsOf spots points sprite
  rw [h.registers _ hop.x_ne, h.registers _ hop.y_ne, h.memory, h.index,
    Screen.spots_congr h.edge]

theorem DrawsAlike.canDraw_iff (h : DrawsAlike m m₁) (hop : Opcode.DrawsUnflagged op) :
    m₁.CanDraw op ↔ m.CanDraw op := by
  unfold CanDraw Drawable SpriteInside Overdraws
  rw [h.registers _ hop.x_ne, h.registers _ hop.y_ne, h.memory, h.index, h.edge]

theorem Flipped.drawsAlike (h : Flipped ks m m₁) : DrawsAlike m m₁ := by
  obtain ⟨hit, hdrawn, -⟩ := h.picture
  exact ⟨h.registers, h.memory, h.index, hdrawn.edge⟩

theorem Flipped.litAt_eq (h : Flipped ks m m₁) (k : Int) :
    m₁.screen.litAt k = (m.screen.litAt k ^^ decide (k ∈ ks)) := by
  obtain ⟨hit, hdrawn, -⟩ := h.picture
  exact hdrawn.litAt_eq k

/-! ## Which pixels several drawings flip -/

/-- How many of the opcodes flip the pixel. -/
def flips (m : Machine) (ops : List Int) (k : Int) : Nat :=
  ops.countP fun op => decide (k ∈ m.spotsOf op)

/-- The pixel is flipped an odd number of times. -/
def flipsOddly (m : Machine) (ops : List Int) (k : Int) : Bool := decide (m.flips ops k % 2 = 1)

theorem flipsOddly_nil : m.flipsOddly [] k = false := rfl

theorem flipsOddly_cons :
    m.flipsOddly (op :: ops) k = (decide (k ∈ m.spotsOf op) ^^ m.flipsOddly ops k) := by
  unfold flipsOddly flips
  rw [List.countP_cons]
  by_cases hk : k ∈ m.spotsOf op
  · have hodd : (ops.countP (fun op => decide (k ∈ m.spotsOf op)) + 1) % 2 = 1 ↔
        ¬ ops.countP (fun op => decide (k ∈ m.spotsOf op)) % 2 = 1 := by omega
    simp only [hk, decide_true, if_true, Bool.true_xor, hodd, decide_not]
  · simp [hk]

theorem flipsOddly_perm (h : ops.Perm ops') : m.flipsOddly ops k = m.flipsOddly ops' k := by
  unfold flipsOddly flips
  rw [h.countP_eq]

/-! ## The flags of two drawings -/

theorem Flipped.flag_eq_one_iff (h : Flipped ks m m₁) :
    m₁.reg Reg.flag = 1 ↔ ∃ k ∈ ks, m.screen.litAt k = true := by
  obtain ⟨hit, hdrawn, hflag⟩ := h.picture
  rw [hflag, Machine.flag_eq_one_iff, hdrawn.hit]

theorem Flipped.flag_eq_zero_iff (h : Flipped ks m m₁) :
    m₁.reg Reg.flag = 0 ↔ ∀ k ∈ ks, m.screen.litAt k = false := by
  obtain ⟨hit, hdrawn, hflag⟩ := h.picture
  rw [hflag, Machine.flag_eq_zero_iff, hdrawn.hit]
  simp only [not_exists, not_and, Bool.not_eq_true]

/-- After a drawing the pixels that it flips are lit if they were not. -/
theorem Flipped.litAt_not (h : Flipped ks m m₁) (hk : k ∈ ks) :
    m₁.screen.litAt k = !m.screen.litAt k := by
  rw [h.litAt_eq, decide_eq_true hk, Bool.xor_true]

/-- When a drawing is repeated, what counts is what was unlit at the start. -/
theorem Flipped.second_flag_iff (h : Flipped ks m m₁) (h₁ : Flipped ks m₁ m₂) :
    m₂.reg Reg.flag = 1 ↔ ∃ k ∈ ks, m.screen.litAt k = false := by
  rw [h₁.flag_eq_one_iff]
  refine exists_congr fun k => and_congr_right fun hk => ?_
  rw [h.litAt_not hk, Bool.not_eq_true']

/-- Only a drawing that flips nothing misses twice. -/
theorem Flipped.flags_eq_zero_iff (h : Flipped ks m m₁) (h₁ : Flipped ks m₁ m₂) :
    m₁.reg Reg.flag = 0 ∧ m₂.reg Reg.flag = 0 ↔ ks = [] := by
  rw [h.flag_eq_zero_iff, h₁.flag_eq_zero_iff]
  constructor
  · rintro ⟨hunlit, hlit⟩
    apply List.eq_nil_iff_forall_not_mem.mpr
    intro k hk
    have hthen := hlit k hk
    rw [h.litAt_not hk, hunlit k hk] at hthen
    cases hthen
  · rintro rfl
    simp

/-- Some pixel to which a set bit goes has a certain colour. -/
theorem Flipped.exists_colour_iff (h : Flipped (m.spotsOf op) m m₁) (lit : Bool) :
    (∃ k ∈ m.toggled op, m.screen.colour k = if lit then pixelOn else pixelOff) ↔
      ∃ j ∈ m.spotsOf op, m.screen.litAt j = lit := by
  rw [← h.exists_toggled_iff]
  refine exists_congr fun k => and_congr_right fun hk => ?_
  have hlt : k < 2048 := h.inverted.inside k hk
  cases lit with
  | false => exact Screen.colour_eq_off_iff hlt
  | true => exact Screen.colour_eq_on_iff hlt

end Machine

namespace Cpu

variable {ρ : Type} [ByteSource ρ] {c c' c₁ c₂ ca cb cab cba caa : Cpu ρ} {m : Machine}
  {op a b : Int} {ops ops' : List Int} {e e' : Option CpuError}

/-! ## One opcode after another -/

/-- Whatever has been drawn since `m`, an opcode that draws does what it would have done there. -/
theorem Executed.drawing_from (h : Executed op c c' e) (hm : m.DrawsAlike c.machine)
    (hi : 0 ≤ m.index) (hop : Opcode.DrawsUnflagged op) :
    (e = none ↔ m.CanDraw op) ∧
      (e = none → Machine.Flipped (m.spotsOf op) c.machine c'.machine ∧
        m.DrawsAlike c'.machine) := by
  have hindex : 0 ≤ c.machine.index := by
    rw [hm.index]
    exact hi
  obtain ⟨hdone, hthen⟩ := h.drawing hindex hop.family
  rw [hm.canDraw_iff hop] at hdone
  rw [hm.spotsOf_eq hop] at hthen
  exact ⟨hdone, fun he => ⟨hthen he, hm.trans (hthen he).drawsAlike⟩⟩

/-- The opcodes are carried out one after another, and none of them fails. -/
inductive ExecutedAll : List Int → Cpu ρ → Cpu ρ → Prop where
  | nil (c : Cpu ρ) : ExecutedAll [] c c
  | cons {op : Int} {ops : List Int} {c c₁ c₂ : Cpu ρ} (h : Executed op c c₁ none)
      (hrest : ExecutedAll ops c₁ c₂) : ExecutedAll (op :: ops) c c₂

/-- After a run of drawings the pixels that an odd number of them flips are different. -/
theorem ExecutedAll.litAt_eq (h : ExecutedAll ops c c') (hm : m.DrawsAlike c.machine)
    (hi : 0 ≤ m.index) (hops : ∀ op ∈ ops, Opcode.DrawsUnflagged op) (k : Int) :
    c'.machine.screen.litAt k = (c.machine.screen.litAt k ^^ m.flipsOddly ops k) := by
  induction h with
  | nil c => rw [Machine.flipsOddly_nil, Bool.xor_false]
  | cons h _ ih =>
    obtain ⟨hop, hrest⟩ := List.forall_mem_cons.mp hops
    obtain ⟨-, hdrawn⟩ := h.drawing_from hm hi hop
    obtain ⟨hflipped, halike⟩ := hdrawn rfl
    rw [ih halike hrest, hflipped.litAt_eq, Machine.flipsOddly_cons, Bool.xor_assoc]

/-- The drawings of a run could all have been carried out at its start. -/
theorem ExecutedAll.canDraw (h : ExecutedAll ops c c') (hm : m.DrawsAlike c.machine)
    (hi : 0 ≤ m.index) (hops : ∀ op ∈ ops, Opcode.DrawsUnflagged op) :
    ∀ op ∈ ops, m.CanDraw op := by
  induction h with
  | nil c => exact List.forall_mem_nil _
  | cons h _ ih =>
    obtain ⟨hop, hrest⟩ := List.forall_mem_cons.mp hops
    obtain ⟨hdone, hdrawn⟩ := h.drawing_from hm hi hop
    obtain ⟨-, halike⟩ := hdrawn rfl
    exact List.forall_mem_cons.mpr ⟨hdone.mp rfl, ih halike hrest⟩

/-- Drawings that could all be carried out at the start can be carried out one after another. -/
theorem exists_executedAll (hm : m.DrawsAlike c.machine) (hi : 0 ≤ m.index)
    (hops : ∀ op ∈ ops, Opcode.DrawsUnflagged op) (hcan : ∀ op ∈ ops, m.CanDraw op) :
    ∃ c', ExecutedAll ops c c' := by
  induction ops generalizing c with
  | nil => exact ⟨c, .nil c⟩
  | cons op ops ih =>
    obtain ⟨hop, hrest⟩ := List.forall_mem_cons.mp hops
    obtain ⟨hcan, hcanrest⟩ := List.forall_mem_cons.mp hcan
    have hhanded : Executed op c (c.executeOpcode op).1 (c.executeOpcode op).2 := .handed
    obtain ⟨hdone, hdrawn⟩ := hhanded.drawing_from hm hi hop
    have he := hdone.mpr hcan
    obtain ⟨-, halike⟩ := hdrawn he
    obtain ⟨c', hc'⟩ := ih halike hrest hcanrest
    exact ⟨c', .cons (.of_executeOpcode he) hc'⟩

/-- The order of drawings does not matter: none of them fails in another order, and the picture is
the same in the end. -/
theorem executedAll_perm (hi : 0 ≤ c.machine.index)
    (hops : ∀ op ∈ ops, Opcode.DrawsUnflagged op) (h : ExecutedAll ops c c₁)
    (hperm : ops.Perm ops') :
    (∃ c₂, ExecutedAll ops' c c₂) ∧
      ∀ c₂, ExecutedAll ops' c c₂ → c₁.machine.screen.lit = c₂.machine.screen.lit := by
  have hsame := Machine.DrawsAlike.refl c.machine
  have hops' : ∀ op ∈ ops', Opcode.DrawsUnflagged op := by
    intro op hop
    exact hops op (hperm.mem_iff.mpr hop)
  constructor
  · apply exists_executedAll hsame hi hops'
    intro op hop
    exact h.canDraw hsame hi hops op (hperm.mem_iff.mpr hop)
  · intro c₂ h'
    apply Screen.lit_ext
    intro k
    rw [h.litAt_eq hsame hi hops, h'.litAt_eq hsame hi hops', Machine.flipsOddly_perm hperm]

/-- A drawing that is repeated leaves lit what was lit. -/
theorem executedAll_twice (hi : 0 ≤ c.machine.index) (hop : Opcode.DrawsUnflagged op)
    (h : ExecutedAll [op, op] c c') : c'.machine.screen.lit = c.machine.screen.lit := by
  have hops : ∀ o ∈ [op, op], Opcode.DrawsUnflagged o := by simp [hop]
  apply Screen.lit_ext
  intro k
  rw [h.litAt_eq (.refl c.machine) hi hops, Machine.flipsOddly_cons, Machine.flipsOddly_cons,
    Machine.flipsOddly_nil, Bool.xor_false, Bool.xor_self, Bool.xor_false]

/-! ## Two drawings -/

/-- **Drawings commute, and undo themselves.**  A processor that a host can arrive at could carry
out either of two opcodes that draw, neither of them by way of `VF`.  Then it can carry them out in
either order, to the same picture, and the first one twice, to the picture that it started with.
When it does, `VF` tells the first time whether any of the pixels was lit at the start, and the
second time whether any of them was unlit; so it is clear both times only if there are none. -/
theorem drawings_commute (hr : c.Reachable) (ha : Opcode.DrawsUnflagged a)
    (hb : Opcode.DrawsUnflagged b) (hca : Executed a c ca none) (hcb : Executed b c cb none) :
    (∀ cab e cba e', Executed b ca cab e → Executed a cb cba e' →
      e = none ∧ e' = none ∧ cab.machine.screen.lit = cba.machine.screen.lit) ∧
    ∀ caa e, Executed a ca caa e →
      e = none ∧ caa.machine.screen.lit = c.machine.screen.lit ∧
        (ca.machine.reg Reg.flag = 1 ↔
          ∃ k ∈ c.machine.toggled a, c.machine.screen.colour k = pixelOn) ∧
        (caa.machine.reg Reg.flag = 1 ↔
          ∃ k ∈ c.machine.toggled a, c.machine.screen.colour k = pixelOff) ∧
        (ca.machine.reg Reg.flag = 0 ∧ caa.machine.reg Reg.flag = 0 ↔
          c.machine.toggled a = ∅) := by
  have hi := hr.bounded.index.1
  have hsame := Machine.DrawsAlike.refl c.machine
  obtain ⟨hcana, hdrawna⟩ := hca.drawing_from hsame hi ha
  obtain ⟨hcanb, hdrawnb⟩ := hcb.drawing_from hsame hi hb
  obtain ⟨hfirst, haftera⟩ := hdrawna rfl
  obtain ⟨-, hafterb⟩ := hdrawnb rfl
  constructor
  · intro cab e cba e' hab hba
    obtain rfl := (hab.drawing_from haftera hi hb).1.mpr (hcanb.mp rfl)
    obtain rfl := (hba.drawing_from hafterb hi ha).1.mpr (hcana.mp rfl)
    have hops : ∀ op ∈ [a, b], Opcode.DrawsUnflagged op := by simp [ha, hb]
    obtain ⟨-, hpicture⟩ := executedAll_perm hi hops (.cons hca (.cons hab (.nil cab)))
      (.swap b a [])
    exact ⟨rfl, rfl, hpicture cba (.cons hcb (.cons hba (.nil cba)))⟩
  · intro caa e haa
    obtain ⟨hcan, hdrawn⟩ := haa.drawing_from haftera hi ha
    obtain rfl := hcan.mpr (hcana.mp rfl)
    obtain ⟨hagain, -⟩ := hdrawn rfl
    refine ⟨rfl, executedAll_twice hi ha (.cons hca (.cons haa (.nil caa))), ?_, ?_, ?_⟩
    · rw [hfirst.flag_eq_one_iff]
      exact (hfirst.exists_colour_iff true).symm
    · rw [hfirst.second_flag_iff hagain]
      exact (hfirst.exists_colour_iff false).symm
    · rw [hfirst.flags_eq_zero_iff hagain, ← Set.not_nonempty_iff_eq_empty,
        hfirst.nonempty_toggled_iff, not_not]

/-- A processor whose index register points to a glyph. -/
def atGlyph : Cpu CyclicBytes :=
  (Cpu.create (.powerOn .linear) (.ofList []) false).actAll
    [.load [0xA0, 0x50, 0x60, 0x02, 0x61, 0x01], .step, .step, .step]

/-- Two glyphs that overlap, in either order; and the first one twice. -/
theorem drawings_commute_at_glyph :
    ((atGlyph.executeOpcode 0xD005).1.executeOpcode 0xD105).1.machine.screen.lit =
        ((atGlyph.executeOpcode 0xD105).1.executeOpcode 0xD005).1.machine.screen.lit ∧
      ((atGlyph.executeOpcode 0xD005).1.executeOpcode 0xD005).1.machine.screen.lit =
        atGlyph.machine.screen.lit := by
  have hr : atGlyph.Reachable := Reachable.actAll (.powerOn _ _ _) _
  obtain ⟨ha, hb⟩ : (atGlyph.executeOpcode 0xD005).2 = none ∧
      (atGlyph.executeOpcode 0xD105).2 = none := by
    decide +kernel
  obtain ⟨hboth, htwice⟩ := drawings_commute hr ⟨by decide, by decide, by decide⟩
    ⟨by decide, by decide, by decide⟩ (.of_executeOpcode ha) (.of_executeOpcode hb)
  obtain ⟨-, -, hcomm⟩ := hboth _ _ _ _ .handed .handed
  obtain ⟨-, hrestored, -⟩ := htwice _ _ .handed
  exact ⟨hcomm, hrestored⟩

end Cpu

end Chip8
