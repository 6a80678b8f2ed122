import Chip8.Proofs.Arithmetic
import Chip8.Proofs.Footprints

/-!
# Chip8.Proofs.Blocks — registers kept in the memory

Registers `V0` to `Vx` are saved to the cells from the index register on, and restored from there
(`Saved`, `Restored`); a number is written down as three decimal digits (`Digits`).  All three go
through whenever the last cell lies in the memory.  Instructions none of which stores into a block
(`Sparing`) leave the block as it was, so what has been saved before them is restored after them;
and saving what has just been restored changes no cell (`save_restore`).
-/

namespace Chip8

open Opcode (family)

namespace Machine

variable {m m' : Machine} {x : Reg} {b : UInt8}

/-! ## Single instructions -/

/-- The cells from the index register on that belong to registers `V0` to `Vx`. -/
def Block (m : Machine) (x : Reg) (a : Int) : Prop := m.index ≤ a ∧ a ≤ m.index + x.val

/-- The cells of the block hold registers `V0` to `Vx`, and no other cell differs. -/
structure Saved (x : Reg) (m m' : Machine) : Prop where
  cells : ∀ r ≤ x, m'.ram.byteAt (m.index + r.val) = m.reg r
  others : ∀ a, ¬ m.Block x a → m'.ram.byteAt a = m.ram.byteAt a
  index : m'.index = m.index

/-- Registers `V0` to `Vx` have what the cells of the block hold. -/
structure Restored (x : Reg) (m m' : Machine) : Prop where
  registers : ∀ r ≤ x, m'.reg r = m.ram.byteAt (m.index + r.val)
  memory : m'.ram = m.ram
  index : m'.index = m.index

/-- The cells from `a` on hold the three decimal digits of `n`. -/
def Digits (m : Machine) (a : Int) (n : Nat) : Prop :=
  ∃ h t o : Nat, h ≤ 9 ∧ t ≤ 9 ∧ o ≤ 9 ∧
    (m.ram.byteAt a).toNat = h ∧ (m.ram.byteAt (a + 1)).toNat = t ∧
    (m.ram.byteAt (a + 2)).toNat = o ∧ 100 * h + 10 * t + o = n

theorem execute_save (hi : 0 ≤ m.index) (hfit : m.index + x.val ≤ 0xFFF) :
    ((Instruction.save x).execute b m).2 = none ∧
      Saved x m ((Instruction.save x).execute b m).1 := by
  have hlength := Instruction.savedBytes_length m x
  constructor
  · have hne : m.v.toList.take (x.val + 1) ≠ [] := List.ne_nil_of_length_eq_add_one hlength
    have hfault := Instruction.storeAtIndex_fault hi hne
    rw [hlength, if_neg (by omega)] at hfault
    exact hfault
  · refine ⟨fun r hr => ?_, fun a ha => ?_, rfl⟩
    · have hle : r.val ≤ x.val := hr
      exact byteAt_storeAtIndex hi _ (Instruction.getElem?_savedBytes m hr) (by omega)
    · apply byteAt_storeAtIndex_of_outside hi
      unfold Block at ha
      rw [hlength]
      omega

theorem execute_restore (hi : 0 ≤ m.index) (hfit : m.index + x.val ≤ 0xFFF) :
    ((Instruction.restore x).execute b m).2 = none ∧
      Restored x m ((Instruction.restore x).execute b m).1 := by
  constructor
  · have hfault := Instruction.restore_fault hi x
    rw [if_neg (by omega)] at hfault
    exact hfault
  · refine ⟨fun r hr => ?_, rfl, rfl⟩
    have hle : r.val ≤ x.val := hr
    exact (reg_restore hi x r).trans (if_pos ⟨hr, by omega⟩)

theorem execute_decimal (hi : 0 ≤ m.index) (hfit : m.index ≤ 0xFFD) :
    ((Instruction.decimal x).execute b m).2 = none ∧
      ((Instruction.decimal x).execute b m).1.index = m.index ∧
      ((Instruction.decimal x).execute b m).1.Digits m.index (m.value x) := by
  have hbyte := (m.reg x).toNat_lt
  obtain ⟨hhundreds, htens, hones⟩ := byteAt_decimalDigits hi (m.reg x)
  refine ⟨?_, rfl, ?_⟩
  · have hne : decimalDigits (m.reg x) ≠ [] := List.cons_ne_nil _ _
    have hfault := Instruction.storeAtIndex_fault hi hne
    have hlength : (decimalDigits (m.reg x)).length = 3 := rfl
    rw [hlength, if_neg (by omega)] at hfault
    exact hfault
  · refine ⟨_, _, _, ?_, ?_, ?_, hhundreds (by omega), htens (by omega), hones (by omega), ?_⟩
    · omega
    · omega
    · omega
    · show _ = (m.reg x).toNat
      omega

/-! ## Saving and restoring -/

/-- What has been saved is restored if the block is left alone in between. -/
theorem Saved.restored {m₁ m₂ m₃ : Machine} (h : Saved x m m₁)
    (hsame : ∀ a, m.Block x a → m₂.ram.byteAt a = m₁.ram.byteAt a) (hindex : m₂.index = m.index)
    (h' : Restored x m₂ m₃) : ∀ r ≤ x, m₃.reg r = m.reg r := by
  intro r hr
  have hle : r.val ≤ x.val := hr
  have hin : m.Block x (m.index + r.val) := by
    unfold Block
    omega
  rw [h'.registers r hr, hindex, hsame _ hin, h.cells r hr]

/-- What has just been restored is in the memory already. -/
theorem Restored.saved {m₁ m₂ : Machine} (h : Restored x m m₁) (h' : Saved x m₁ m₂) :
    m₂.ram = m.ram := by
  apply Memory.ext_byteAt
  intro a
  by_cases ha : m₁.Block x a
  · obtain ⟨hle, hlt⟩ := ha
    have hr : (a - m₁.index).toNat ≤ x.val := by omega
    have hx := x.isLt
    let r : Reg := ⟨(a - m₁.index).toNat, by omega⟩
    have hcell : a = m₁.index + r.val := by
      show a = m₁.index + ((a - m₁.index).toNat : Int)
      omega
    rw [hcell, h'.cells r hr, h.registers r hr, h.index]
  · rw [h'.others a ha, h.memory]

/-- The digits of a number make up the number in the registers to which they are restored. -/
theorem Digits.restored {n : Nat} (h : m.Digits m.index n) (h' : Restored 2 m m') :
    100 * m'.value 0 + 10 * m'.value 1 + m'.value 2 = n := by
  obtain ⟨hundreds, tens, ones, -, -, -, h0, h1, h2, hsum⟩ := h
  have hvalue : ∀ r ≤ (2 : Reg), m'.value r = (m.ram.byteAt (m.index + r.val)).toNat := by
    intro r hr
    exact congrArg UInt8.toNat (h'.registers r hr)
  have hfirst : m'.value 0 = hundreds := by simpa [h0] using hvalue 0 (by decide)
  have hsecond : m'.value 1 = tens := (hvalue 1 (by decide)).trans h1
  have hthird : m'.value 2 = ones := (hvalue 2 (by decide)).trans h2
  rw [hfirst, hsecond, hthird]
  exact hsum

/-! ## What other instructions do to the index register -/

/-- The index register is not negative after any instruction. -/
theorem index_nonneg_execute (hi : 0 ≤ m.index) {op : Int} {i : Instruction}
    (henc : i.Encodes op) : 0 ≤ (i.execute b m).1.index := by
  by_cases hsame : (i.execute b m).1.index = m.index
  · rw [hsame]
    exact hi
  · rcases (within_execute hi henc b).index hsame with hf | ⟨hf, hk | hk⟩
    · have hset : (Instruction.setIndex (Opcode.nnn op)).Encodes op := ⟨hf, rfl⟩
      rw [Instruction.encodes_unique henc hset]
      exact Opcode.nnn_nonneg op
    · have hadd : (Instruction.addIndex (Opcode.x op)).Encodes op := ⟨hf, hk, rfl⟩
      rw [Instruction.encodes_unique henc hadd]
      show 0 ≤ (m.index + (m.reg (Opcode.x op)).toNat) % 0x10000
      omega
    · have hglyph : (Instruction.glyph (Opcode.x op)).Encodes op := ⟨hf, hk, rfl⟩
      rw [Instruction.encodes_unique henc hglyph, Instruction.execute]
      split
      · exact hi
      · show (0 : Int) ≤ 0x50 + 5 * (m.reg (Opcode.x op)).toNat
        omega

end Machine

namespace Cpu

variable {ρ : Type} [ByteSource ρ] {c c' c₁ c₂ c₃ : Cpu ρ} {op : Int} {x : Reg}
  {e : Option CpuError}

/-! ## Single opcodes -/

theorem Executed.save (h : Executed op c c' e) (hi : 0 ≤ c.machine.index)
    (hop : (Instruction.save x).Encodes op) (hfit : c.machine.index + x.val ≤ 0xFFF) :
    e = none ∧ Machine.Saved x c.machine c'.machine := by
  obtain ⟨pc, hmachine, hdone⟩ := h.outcome hop
  obtain ⟨hnone, hcells, hothers, hindex⟩ :=
    Machine.execute_save (m := { c.machine with opcode := op, pc }) (b := (c.drawFor (.save x)).1)
      hi hfit
  rw [← hmachine] at hcells hothers hindex
  exact ⟨hdone.mpr hnone, hcells, hothers, hindex⟩

theorem Executed.restore (h : Executed op c c' e) (hi : 0 ≤ c.machine.index)
    (hop : (Instruction.restore x).Encodes op) (hfit : c.machine.index + x.val ≤ 0xFFF) :
    e = none ∧ Machine.Restored x c.machine c'.machine := by
  obtain ⟨pc, hmachine, hdone⟩ := h.outcome hop
  obtain ⟨hnone, hregisters, hmemory, hindex⟩ :=
    Machine.execute_restore (m := { c.machine with opcode := op, pc })
      (b := (c.drawFor (.restore x)).1) hi hfit
  rw [← hmachine] at hregisters hmemory hindex
  exact ⟨hdone.mpr hnone, hregisters, hmemory, hindex⟩

theorem Executed.decimal (h : Executed op c c' e) (hi : 0 ≤ c.machine.index)
    (hop : (Instruction.decimal x).Encodes op) (hfit : c.machine.index ≤ 0xFFD) :
    e = none ∧ c'.machine.index = c.machine.index ∧
      c'.machine.Digits c.machine.index (c.machine.value x) := by
  obtain ⟨pc, hmachine, hdone⟩ := h.outcome hop
  obtain ⟨hnone, hindex, hdigits⟩ :=
    Machine.execute_decimal (m := { c.machine with opcode := op, pc })
      (b := (c.drawFor (.decimal x)).1) hi hfit
  rw [← hmachine] at hindex hdigits
  exact ⟨hdone.mpr hnone, hindex, hdigits⟩

/-- What an opcode does that is carried out with success: it keeps to the table of what it may
change. -/
theorem Executed.within (h : Executed op c c' none) (hi : 0 ≤ c.machine.index) :
    c.machine.Within op c'.machine ∧ 0 ≤ c'.machine.index := by
  obtain ⟨i, hop⟩ := h.exists_encodes
  obtain ⟨pc, hmachine, -⟩ := h.outcome hop
  rw [hmachine]
  have hwithin := Machine.within_execute (m := { c.machine with opcode := op, pc }) hi hop
    (c.drawFor i).1
  exact ⟨hwithin.of_control,
    Machine.index_nonneg_execute (m := { c.machine with opcode := op, pc }) hi hop⟩

/-! ## Runs -/

/-- Opcodes are carried out from `c` on, all of them with success and none of them storing into the
block; in between timers may run and keys may move. -/
inductive Sparing (block : Int → Prop) : Cpu ρ → Cpu ρ → Prop where
  | done (c : Cpu ρ) : Sparing block c c
  | executed {op : Int} {c c₁ c₂ : Cpu ρ} (h : Executed op c c₁ none)
      (hspares : ∀ a, block a → ¬ Opcode.Stores op c.machine.index a)
      (rest : Sparing block c₁ c₂) : Sparing block c c₂
  | played {a : HostAction} {c c₂ : Cpu ρ} (hplay : a.InPlay) (hstep : a ≠ .step)
      (rest : Sparing block (c.act a) c₂) : Sparing block c c₂

/-- A run that stores nothing into a block leaves the block as it was. -/
theorem Sparing.byteAt_eq {block : Int → Prop} (h : Sparing block c c')
    (hi : 0 ≤ c.machine.index) :
    0 ≤ c'.machine.index ∧
      ∀ a, block a → c'.machine.ram.byteAt a = c.machine.ram.byteAt a := by
  induction h with
  | done c => exact ⟨hi, fun _ _ => rfl⟩
  | executed h hspares _ ih =>
    obtain ⟨hwithin, hi'⟩ := h.within hi
    obtain ⟨hend, hrest⟩ := ih hi'
    refine ⟨hend, fun a ha => (hrest a ha).trans ?_⟩
    by_contra hne
    exact hspares a ha (hwithin.memory a hne)
  | @played a c c₂ hplay hstep _ ih =>
    rcases act_of_inPlay (c := c) hplay hstep with rfl | ⟨keypad, hact⟩
    · exact ih hi
    · rw [hact] at ih
      exact ih hi

/-- **Saving and restoring undo each other.**  A processor that a host can arrive at has its index
register at a block that lies in the memory.

* It saves registers `V0` to `Vx`; then come instructions that succeed and store nothing into the
  block, whatever else they do; then the index register is at the block again and the registers are
  restored.  Neither the saving nor the restoring fails or moves the index register, and the
  registers have what they had when they were saved.
* It restores registers `V0` to `Vx` and saves them again.  Neither fails, and the memory is what
  it was.
* It writes a register down in decimal.  This does not fail, and what is in the three cells are the
  digits of the number; so `V0`, `V1` and `V2` make it up when they are restored. -/
theorem save_restore (hr : c.Reachable) :
    (∀ (x : Reg) (save restore : Int), (Instruction.save x).Encodes save →
      (Instruction.restore x).Encodes restore → c.machine.index + x.val ≤ 0xFFF →
        (∀ c₁ e, Executed save c c₁ e →
          e = none ∧ c₁.machine.index = c.machine.index ∧
            ∀ c₂ c₃ e', Sparing (c.machine.Block x) c₁ c₂ →
              c₂.machine.index = c.machine.index → Executed restore c₂ c₃ e' →
                e' = none ∧ c₃.machine.index = c.machine.index ∧
                  ∀ r ≤ x, c₃.machine.reg r = c.machine.reg r) ∧
        (∀ c₁ c₂ e e', Executed restore c c₁ e → Executed save c₁ c₂ e' →
          e = none ∧ e' = none ∧ c₂.machine.ram = c.machine.ram)) ∧
    (∀ (x : Reg) (decimal : Int), (Instruction.decimal x).Encodes decimal →
      c.machine.index ≤ 0xFFD → ∀ c₁ e, Executed decimal c c₁ e →
        e = none ∧ c₁.machine.Digits c.machine.index (c.machine.value x) ∧
          ∀ c₂ e', Executed 0xF265 c₁ c₂ e' →
            e' = none ∧ 100 * c₂.machine.value 0 + 10 * c₂.machine.value 1 + c₂.machine.value 2 =
              c.machine.value x) := by
  have hi := hr.bounded.index.1
  constructor
  · intro x save restore hsave hrestore hfit
    constructor
    · intro c₁ e h
      obtain ⟨hdone, hsaved⟩ := h.save hi hsave hfit
      refine ⟨hdone, hsaved.index, ?_⟩
      intro c₂ c₃ e' hrun hback h'
      have hi₁ : 0 ≤ c₁.machine.index := by
        rw [hsaved.index]
        exact hi
      obtain ⟨hi₂, hsame⟩ := hrun.byteAt_eq hi₁
      obtain ⟨hdone', hrestored⟩ := h'.restore hi₂ hrestore (by rw [hback]; exact hfit)
      exact ⟨hdone', hrestored.index.trans hback, hsaved.restored hsame hback hrestored⟩
    · intro c₁ c₂ e e' h h'
      obtain ⟨hdone, hrestored⟩ := h.restore hi hrestore hfit
      have hindex := hrestored.index
      obtain ⟨hdone', hsaved⟩ := h'.save (by rw [hindex]; exact hi) hsave
        (by rw [hindex]; exact hfit)
      exact ⟨hdone, hdone', hrestored.saved hsaved⟩
  · intro x decimal hdecimal hfit c₁ e h
    obtain ⟨hdone, hindex, hdigits⟩ := h.decimal hi hdecimal hfit
    refine ⟨hdone, hdigits, ?_⟩
    intro c₂ e' h'
    have hthree : (Instruction.restore 2).Encodes 0xF265 := ⟨by decide, by decide, by decide⟩
    obtain ⟨hdone', hrestored⟩ := h'.restore (by rw [hindex]; exact hi) hthree
      (by rw [hindex]; exact Int.add_le_add_right hfit 2)
    rw [← hindex] at hdigits
    exact ⟨hdone', hdigits.restored hrestored⟩

/-- A processor that is about to save `V0` and `V1` to `0x300`; then it clears `V1`, and restores
them. -/
def atSaving : Cpu CyclicBytes :=
  (create (.powerOn .linear) (.ofList []) false).actAll
    [.load [0xA3, 0x00, 0x61, 0xFE, 0xF1, 0x55, 0x61, 0x00, 0xF1, 0x65], .step, .step]

/-- `V1` is `0xFE` again; and its three digits, written down instead, make it up. -/
theorem save_restore_two_registers :
    (atSaving.step.cpu.step.cpu.act .tick).step.cpu.machine.reg 1 = 0xFE ∧
      ∃ m, m = ((atSaving.executeOpcode 0xF133).1.executeOpcode 0xF265).1.machine ∧
        100 * m.value 0 + 10 * m.value 1 + m.value 2 = 0xFE := by
  have hr : atSaving.Reachable := Reachable.actAll (.powerOn _ _ _) _
  obtain ⟨hh, hindex, hbefore, hsave, hclear, hdone⟩ : atSaving.halt = none ∧
      atSaving.machine.index = 0x300 ∧ atSaving.machine.reg 1 = 0xFE ∧
      atSaving.machine.fetch = .ok 0xF155 ∧ atSaving.step.cpu.machine.fetch = .ok 0x6100 ∧
      atSaving.step.cpu.step.error = none := by
    decide +kernel
  obtain ⟨hh', hindex', hrestore⟩ : (atSaving.step.cpu.step.cpu.act .tick).halt = none ∧
      (atSaving.step.cpu.step.cpu.act .tick).machine.index = 0x300 ∧
      (atSaving.step.cpu.step.cpu.act .tick).machine.fetch = .ok 0xF165 := by
    decide +kernel
  have hspares : ∀ a, atSaving.machine.Block 1 a →
      ¬ Opcode.Stores 0x6100 atSaving.step.cpu.machine.index a := by
    rintro a - (⟨hf, -⟩ | ⟨hf, -⟩)
    · exact absurd hf (by decide)
    · exact absurd hf (by decide)
  have hrun : Sparing (atSaving.machine.Block 1) atSaving.step.cpu
      (atSaving.step.cpu.step.cpu.act .tick) :=
    .executed (.of_step hclear hdone) hspares
      (.played (a := .tick) trivial HostAction.noConfusion (.done _))
  obtain ⟨hblock, hdecimal⟩ := save_restore hr
  obtain ⟨hsaving, -⟩ := hblock 1 0xF155 0xF165 ⟨by decide, by decide, by decide⟩
    ⟨by decide, by decide, by decide⟩ (by rw [hindex]; decide)
  obtain ⟨-, -, hthen⟩ := hsaving _ _ (.stepped hh hsave)
  obtain ⟨-, -, hback⟩ := hthen _ _ _ hrun (hindex'.trans hindex.symm) (.stepped hh' hrestore)
  obtain ⟨-, -, hdigits⟩ := hdecimal 1 0xF133 ⟨by decide, by decide, by decide⟩
    (by rw [hindex]; decide) _ _ .handed
  obtain ⟨-, hsum⟩ := hdigits _ _ .handed
  refine ⟨(hback 1 (by decide)).trans hbefore, _, rfl, hsum.trans ?_⟩
  rw [Machine.value, hbefore]
  rfl

end Cpu

end Chip8
