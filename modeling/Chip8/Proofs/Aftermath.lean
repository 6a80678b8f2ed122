import Chip8.Proofs.Halting

/-!
# Chip8.Proofs.Aftermath — what a halting step leaves

Most instructions are refused before they have changed anything.  Three go through a block of
memory cell by cell and keep what they have done when the block leaves the memory: the decimal
digits, the saving and the restoring of registers.  `Interrupted` says exactly which cells and which
registers these have written by then, and that nothing else differs.  `step_leaves` says it of a
whole step, with the record of the halt.
-/

namespace Chip8

open Opcode (family)

/-! ## Interrupted instructions -/

namespace Machine

/-- The current opcode is the one of family `F` with the low byte `kk`. -/
def Asks (m : Machine) (kk : Nat) : Prop := family m.opcode = 0xF ∧ Opcode.kk m.opcode = kk

/-- The register that the second digit of the current opcode names. -/
def operand (m : Machine) : Reg := Opcode.x m.opcode

/-- `m'` is what the current instruction of `m` leaves when it is refused. -/
structure Interrupted (m m' : Machine) : Prop where
  hundreds : m.Asks 0x33 → m.index < 0x1000 →
    (m'.ram.byteAt m.index).toNat = (m.reg m.operand).toNat / 100
  tens : m.Asks 0x33 → m.index + 1 < 0x1000 →
    (m'.ram.byteAt (m.index + 1)).toNat = (m.reg m.operand).toNat / 10 % 10
  saved : m.Asks 0x55 → ∀ r ≤ m.operand, m.index + r.val < 0x1000 →
    m'.ram.byteAt (m.index + r.val) = m.reg r
  restored : m.Asks 0x65 → ∀ r ≤ m.operand, m.index + r.val < 0x1000 →
    m'.reg r = m.ram.byteAt (m.index + r.val)
  /-- No other cell differs. -/
  memory : ∀ a, ¬ (m.Asks 0x33 ∧ m.index ≤ a ∧ a ≤ m.index + 1) →
    ¬ (m.Asks 0x55 ∧ m.index ≤ a ∧ a ≤ m.index + m.operand.val) →
    m'.ram.byteAt a = m.ram.byteAt a
  /-- No other register differs. -/
  registers : ∀ r, ¬ (m.Asks 0x65 ∧ r ≤ m.operand ∧ m.index + r.val < 0x1000) →
    m'.reg r = m.reg r
  elsewhere : m' = { m with ram := m'.ram, v := m'.v }

variable {m : Machine}

theorem Asks.unique {a b : Nat} (ha : m.Asks a) (hb : m.Asks b) : a = b :=
  ha.2.symm.trans hb.2

/-- Where the opcode asks for no block of memory, the machine is left as it was. -/
theorem interrupted_refl (h : ∀ i : Instruction, i.isBlockwise = true → ¬ i.Encodes m.opcode) :
    m.Interrupted m := by
  have hdigits : ¬ m.Asks 0x33 := fun ha => h (.decimal m.operand) rfl ⟨ha.1, ha.2, rfl⟩
  have hsave : ¬ m.Asks 0x55 := fun ha => h (.save m.operand) rfl ⟨ha.1, ha.2, rfl⟩
  have hrestore : ¬ m.Asks 0x65 := fun ha => h (.restore m.operand) rfl ⟨ha.1, ha.2, rfl⟩
  exact {
    hundreds := fun ha => absurd ha hdigits
    tens := fun ha => absurd ha hdigits
    saved := fun ha => absurd ha hsave
    restored := fun ha => absurd ha hrestore
    memory := fun _ _ _ => rfl
    registers := fun _ _ => rfl
    elsewhere := rfl }

/-- The cells of a block that lies partly in the memory. -/
theorem byteAt_storeAtIndex (hi : 0 ≤ m.index) (bytes : List UInt8) {r : Nat} {b : UInt8}
    (hb : bytes[r]? = some b) (hr : m.index + r < 0x1000) :
    (m.storeAtIndex bytes).1.ram.byteAt (m.index + r) = b := by
  have hsub : (m.index + r - m.index).toNat = r := by omega
  rw [storeAtIndex, Memory.byteAt_storeEach _ hi, if_pos (by omega), hsub, hb]
  rfl

theorem byteAt_storeAtIndex_of_outside (hi : 0 ≤ m.index) {bytes : List UInt8} {a : Int}
    (ha : ¬ (m.index ≤ a ∧ a < m.index + bytes.length ∧ a < 0x1000)) :
    (m.storeAtIndex bytes).1.ram.byteAt a = m.ram.byteAt a := by
  rw [storeAtIndex, Memory.byteAt_storeEach _ hi]
  by_cases hin : m.index ≤ a ∧ a < 0x1000
  · have hnone : bytes[(a - m.index).toNat]? = none := List.getElem?_eq_none (by omega)
    rw [if_pos hin, hnone]
    rfl
  · rw [if_neg hin]

/-- The three digits of a byte, as far as their cells lie in the memory. -/
theorem byteAt_decimalDigits (hi : 0 ≤ m.index) (b : UInt8) :
    (m.index < 0x1000 →
      ((m.storeAtIndex (decimalDigits b)).1.ram.byteAt m.index).toNat = b.toNat / 100) ∧
    (m.index + 1 < 0x1000 →
      ((m.storeAtIndex (decimalDigits b)).1.ram.byteAt (m.index + 1)).toNat =
        b.toNat / 10 % 10) ∧
    (m.index + 2 < 0x1000 →
      ((m.storeAtIndex (decimalDigits b)).1.ram.byteAt (m.index + 2)).toNat = b.toNat % 10) := by
  refine ⟨fun hr => ?_, fun hr => ?_, fun hr => ?_⟩
  · have hcell := byteAt_storeAtIndex (r := 0) hi (decimalDigits b) rfl (by omega)
    rw [Int.natCast_zero, Int.add_zero] at hcell
    rw [hcell, UInt8.toNat_div]
    rfl
  · have hcell := byteAt_storeAtIndex (r := 1) hi (decimalDigits b) rfl hr
    rw [Int.natCast_one] at hcell
    rw [hcell, UInt8.toNat_mod, UInt8.toNat_div]
    rfl
  · have hcell := byteAt_storeAtIndex (r := 2) hi (decimalDigits b) rfl hr
    exact (congrArg UInt8.toNat hcell).trans (UInt8.toNat_mod b 10)

theorem interrupted_decimal (hi : 0 ≤ m.index) (hasks : m.Asks 0x33) (hout : 0xFFF < m.index + 2) :
    m.Interrupted (m.storeAtIndex (decimalDigits (m.reg m.operand))).1 where
  hundreds := fun _ => (byteAt_decimalDigits hi (m.reg m.operand)).1
  tens := fun _ => (byteAt_decimalDigits hi (m.reg m.operand)).2.1
  saved := fun h => absurd (hasks.unique h) (by decide)
  restored := fun h => absurd (hasks.unique h) (by decide)
  memory := by
    intro a ha _
    refine byteAt_storeAtIndex_of_outside hi ?_
    rintro ⟨hle, hlt, hin⟩
    exact ha ⟨hasks, hle, by omega⟩
  registers := fun _ _ => rfl
  elsewhere := rfl

theorem interrupted_save (hi : 0 ≤ m.index) (hasks : m.Asks 0x55) :
    m.Interrupted (m.storeAtIndex (m.v.toList.take (m.operand.val + 1))).1 where
  hundreds := fun h => absurd (hasks.unique h) (by decide)
  tens := fun h => absurd (hasks.unique h) (by decide)
  saved := by
    intro _ r hr hin
    exact byteAt_storeAtIndex hi _ (Instruction.getElem?_savedBytes m hr) hin
  restored := fun h => absurd (hasks.unique h) (by decide)
  memory := by
    intro a _ ha
    refine byteAt_storeAtIndex_of_outside hi ?_
    rw [Instruction.savedBytes_length]
    rintro ⟨hle, hlt, -⟩
    exact ha ⟨hasks, hle, by omega⟩
  registers := fun _ _ => rfl
  elsewhere := rfl

/-- The registers that are loaded are those whose cells lie in the memory. -/
theorem reg_restore (hi : 0 ≤ m.index) (x r : Reg) :
    (m.restore x).1.reg r =
      if r ≤ x ∧ m.index + r.val < 0x1000 then m.ram.byteAt (m.index + r.val) else m.reg r := by
  have hreg : (m.restore x).1.reg r =
      (Cells.overwrite m.v 0 (m.ram.readEach m.index (x.val + 1)).1)[r.val] := rfl
  rw [hreg, Cells.getElem_overwrite _ _ _ _ r.isLt, if_pos (Nat.zero_le _), Nat.sub_zero,
    Memory.readEach_bytes _ hi, List.getElem?_map]
  by_cases hr : r ≤ x ∧ m.index + r.val < 0x1000
  · obtain ⟨hle, hin⟩ := hr
    have hle' : r.val ≤ x.val := hle
    rw [if_pos ⟨hle, hin⟩, List.getElem?_range (by omega)]
    rfl
  · have hout : min (x.val + 1) (0x1000 - m.index).toNat ≤ r.val := by
      rw [Fin.le_def] at hr
      omega
    rw [if_neg hr, List.getElem?_eq_none (by rw [List.length_range]; exact hout)]
    rfl

theorem interrupted_restore (hi : 0 ≤ m.index) (hasks : m.Asks 0x65) :
    m.Interrupted (m.restore m.operand).1 where
  hundreds := fun h => absurd (hasks.unique h) (by decide)
  tens := fun h => absurd (hasks.unique h) (by decide)
  saved := fun h => absurd (hasks.unique h) (by decide)
  restored := by
    intro _ r hr hin
    rw [reg_restore hi, if_pos ⟨hr, hin⟩]
  memory := fun _ _ _ => rfl
  registers := by
    intro r hr
    rw [reg_restore hi, if_neg]
    exact fun hin => hr ⟨hasks, hin⟩
  elsewhere := rfl

/-- What a refused instruction leaves of a machine. -/
theorem interrupted_of_fault {i : Instruction} {b : UInt8} {f : Fault} (hi : 0 ≤ m.index)
    (henc : i.Encodes m.opcode) (hf : (i.execute b m).2 = some f) :
    m.Interrupted (i.execute b m).1 := by
  cases hblock : i.isBlockwise with
  | false =>
    rw [Instruction.execute_of_fault hi hblock hf]
    refine interrupted_refl fun j hblock' hj => ?_
    rw [Instruction.encodes_unique hj henc, hblock] at hblock'
    cases hblock'
  | true =>
    cases i
    case decimal x =>
      obtain ⟨hfam, hkk, rfl⟩ := henc
      have hout : 0xFFF < m.index + 2 := by
        have hlength : (decimalDigits (m.reg m.operand)).length = 3 := rfl
        have hfault := Instruction.storeAtIndex_fault hi
          (List.ne_nil_of_length_eq_add_one hlength)
        rw [hlength] at hfault
        by_contra hin
        rw [if_neg (by omega)] at hfault
        cases hfault.symm.trans hf
      exact interrupted_decimal hi ⟨hfam, hkk⟩ hout
    case save x =>
      obtain ⟨hfam, hkk, rfl⟩ := henc
      exact interrupted_save hi ⟨hfam, hkk⟩
    case restore x =>
      obtain ⟨hfam, hkk, rfl⟩ := henc
      exact interrupted_restore hi ⟨hfam, hkk⟩
    all_goals cases hblock

end Machine

theorem Instruction.not_isRandom_of_fault {m : Machine} {i : Instruction} {b : UInt8} {f : Fault}
    (h : (i.execute b m).2 = some f) : i.isRandom = false := by
  cases i
  case random => cases h
  all_goals rfl

/-! ## Halting steps -/

namespace Cpu

variable {ρ : Type} {c : Cpu ρ}

/-- `d` is what a step of `c` leaves that ends with the halt `h`. -/
structure HaltedFrom (c d : Cpu ρ) (h : Halt) : Prop where
  recorded : d.halt = some h
  address : d.address = c.machine.pc ∧ h.address = c.machine.pc
  /-- The fetch failed: the opcode is still the last that was fetched. -/
  unfetched : 0xFFE < c.machine.pc → d.machine = c.machine ∧ h.opcode = c.machine.opcode
  /-- The fetch succeeded and the instruction was refused. -/
  fetched : c.machine.pc ≤ 0xFFE →
    { c.machine with opcode := c.machine.word, pc := c.machine.pc + 2 }.Interrupted d.machine ∧
      h.opcode = c.machine.word
  source : d.source = c.source
  traced : d.traced = c.traced

variable [ByteSource ρ]

theorem drawFor_of_fault {i : Instruction} {f : Fault} (h : (c.carryOut i).2 = some f) :
    (c.drawFor i).2 = c.source := by
  have hrandom : i.isRandom = false := Instruction.not_isRandom_of_fault h
  rw [drawFor, hrandom]
  rfl

/-- A step that fails in `d` leaves what the halt adds to `d`. -/
theorem haltedFrom_of_failStep {d : Cpu ρ} {line : Option String} {f : Fault} {k : HaltCause}
    {e : CpuError} (hs : c.step = d.failStep line f) (hcause : f.cause? = some k)
    (he : c.step.error = some e) (haddress : d.address = c.machine.pc)
    (hunfetched : 0xFFE < c.machine.pc → d.machine = c.machine)
    (hfetched : c.machine.pc ≤ 0xFFE → c.fetched.machine.Interrupted d.machine)
    (hsource : d.source = c.source) (htraced : d.traced = c.traced) :
    ∃ h, e = .halted h ∧ HaltedFrom c c.step.cpu h := by
  rw [failStep_of_cause _ _ hcause] at hs
  rw [hs] at he ⊢
  cases he
  refine ⟨_, rfl, rfl, ⟨haddress, haddress⟩, fun hlt => ?_, fun hle => ?_, hsource, htraced⟩
  · have hmachine := hunfetched hlt
    exact ⟨hmachine, congrArg Machine.opcode hmachine⟩
  · have hleft := hfetched hle
    exact ⟨hleft, congrArg Machine.opcode hleft.elsewhere⟩

/-- **What a halting step leaves.**  A step of a reachable processor that has not halted fails only
by halting.  The halt is recorded with the address of the instruction; the fetched opcode and the
program counter past it stay, a partly treated block of memory stays as far as it was treated, and
nothing else differs. -/
theorem step_leaves (hr : c.Reachable) (hh : c.halt = none) {e : CpuError}
    (he : c.step.error = some e) : ∃ h, e = .halted h ∧ HaltedFrom c c.step.cpu h := by
  have hb := hr.bounded
  rcases step_cases hh hb.pc.1 with
    ⟨hlt, hs⟩ | ⟨hle, hu, hs⟩ | ⟨i, f, hle, hi, hf, hs⟩ | ⟨i, hle, -, -, hs⟩
  · refine haltedFrom_of_failStep hs (k := .memory) rfl he rfl (fun _ => rfl) (fun hle => ?_)
      rfl rfl
    omega
  · have hleft : c.fetched.machine.Interrupted c.fetched.machine :=
      Machine.interrupted_refl fun j _ => Instruction.not_encodes_of_unknown hu
    refine haltedFrom_of_failStep hs (k := .opcode) rfl he rfl (fun hlt => ?_) (fun _ => hleft)
      rfl rfl
    omega
  · have haccounted := Instruction.execute_accounted (m := c.fetched.machine) hb.index.1
      hb.delay.1 hb.delay.2 (c.fetched.drawFor i).1 i
    rcases haccounted with ⟨hnone, -⟩ | ⟨f', k, hf', hcause, -⟩
    · cases hf.symm.trans hnone
    · cases hf.symm.trans hf'
      have hleft : c.fetched.machine.Interrupted (c.fetched.carryOut i).1.machine :=
        Machine.interrupted_of_fault hb.index.1 hi hf
      refine haltedFrom_of_failStep hs hcause he rfl (fun hlt => ?_) (fun _ => hleft) ?_ rfl
      · omega
      · exact drawFor_of_fault hf
  · rw [hs] at he
    cases he

/-- A processor that is about to save two registers where only one fits: it has done `60AB` and
`AFFF`, and `F155` is next. -/
def atMemoryEnd : Cpu CyclicBytes :=
  (((create (.powerOn .linear) (CyclicBytes.ofList []) false).act
    (.load [0x60, 0xAB, 0xAF, 0xFF, 0xF1, 0x55])).act .step).act .step

/-- The register that fits is saved. -/
theorem step_leaves_saved_byte :
    ∃ h, HaltedFrom atMemoryEnd atMemoryEnd.step.cpu h ∧
      atMemoryEnd.step.cpu.machine.ram.byteAt 0xFFF = 0xAB := by
  have hr : atMemoryEnd.Reachable := .act _ (.act _ (.act _ (.powerOn _ _ _)))
  obtain ⟨hfails, hh, hpc, hfam, hkk, hindex, hreg⟩ : atMemoryEnd.step.error.isSome = true ∧
      atMemoryEnd.halt = none ∧ atMemoryEnd.machine.pc ≤ 0xFFE ∧
      family atMemoryEnd.machine.word = 0xF ∧ Opcode.kk atMemoryEnd.machine.word = 0x55 ∧
      atMemoryEnd.machine.index + (0 : Reg).val = 0xFFF ∧ atMemoryEnd.machine.reg 0 = 0xAB := by
    decide +kernel
  obtain ⟨e, he⟩ := Option.isSome_iff_exists.mp hfails
  obtain ⟨h, -, hleft⟩ := step_leaves hr hh he
  obtain ⟨hmachine, -⟩ := hleft.fetched hpc
  have hsaved := hmachine.saved ⟨hfam, hkk⟩ 0 (Nat.zero_le _) (by simp only [hindex]; decide)
  simp only [hindex, Machine.reg] at hsaved hreg
  exact ⟨h, hleft, hsaved.trans hreg⟩

end Cpu

end Chip8
