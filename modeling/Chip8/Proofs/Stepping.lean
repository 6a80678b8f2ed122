import Chip8.Cpu
import Chip8.Proofs.Bytes
import Chip8.Proofs.Opcodes

/-!
# Chip8.Proofs.Stepping — what a step can do

A step of a processor that has not halted goes one of four ways, listed in `step_cases`: the fetch
fails, the opcode is unknown, the instruction is refused, or it is carried out.  The fetch succeeds
exactly up to address `0xFFE`, and then yields `word`, the two bytes at the program counter.  All
that is said about steps elsewhere starts from `step_cases`, from `step_of_fetch` where the opcode
is given, or from `step_machine` where the program counter may stand anywhere; nothing else opens
`Cpu.step`.  An opcode can also be handed to the processor; `Executed` covers both.
-/

namespace Chip8

/-! ## Fetching -/

namespace Machine

/-- The word at the program counter, its high byte first. -/
def word (m : Machine) : Int :=
  256 * (m.ram.byteAt m.pc).toNat + (m.ram.byteAt (m.pc + 1)).toNat

theorem word_nonneg (m : Machine) : 0 ≤ m.word := by
  unfold word
  omega

theorem word_le (m : Machine) : m.word ≤ 0xFFFF := by
  have hhigh := (m.ram.byteAt m.pc).toNat_lt
  have hlow := (m.ram.byteAt (m.pc + 1)).toNat_lt
  unfold word
  omega

theorem fetch_of_le {m : Machine} (h0 : 0 ≤ m.pc) (h : m.pc ≤ 0xFFE) : m.fetch = .ok m.word := by
  have hread := m.ram.readBlock_of_inside h0 (by omega : 0 < 2) (by omega)
  change m.ram.readBlock m.pc 2 = _ at hread
  rw [fetch, hread]
  simp [List.range_succ, word]
  omega

theorem fetch_of_lt {m : Machine} (h : 0xFFE < m.pc) :
    m.fetch = .error (Memory.refusal 0x1000 (max m.pc 0x1000)) := by
  rw [fetch, Memory.readBlock]
  rcases Int.lt_or_le m.pc 0x1000 with hlt | hle
  · have hmax : max m.pc 0x1000 = m.pc + 2 - 1 := by omega
    rw [if_pos (by omega), if_neg (by omega), hmax]
  · have hmax : max m.pc 0x1000 = m.pc := by omega
    rw [if_neg (by omega), hmax]

end Machine

/-! ## The four ways of a step -/

namespace Cpu

variable {ρ : Type}

/-- The processor once the word at the program counter has been fetched. -/
def fetched (c : Cpu ρ) : Cpu ρ := { c with address := c.machine.pc }.enter c.machine.word

/-- The line that a step hands out once it has fetched. -/
def trace (c : Cpu ρ) : Option String := if c.traced then some c.dump else none

variable [ByteSource ρ]

/-- The random byte for an instruction, and the source that is left. -/
def drawFor (c : Cpu ρ) (i : Instruction) : UInt8 × ρ :=
  if i.isRandom then ByteSource.next c.source else (0, c.source)

/-- Carries out an instruction. -/
def carryOut (c : Cpu ρ) (i : Instruction) : Cpu ρ × Option Fault :=
  let r := i.execute (c.drawFor i).1 c.machine
  ({ c with machine := r.1, source := (c.drawFor i).2 }, r.2)

theorem execute_of_encodes {c : Cpu ρ} {i : Instruction} (h : i.Encodes c.machine.opcode) :
    c.execute = c.carryOut i := by
  rw [execute, Instruction.decode_of_encodes h]
  rfl

theorem execute_of_unknown {c : Cpu ρ} (h : Opcode.Unknown c.machine.opcode) :
    c.execute = (c, some .unknownOpcode) := by
  rw [execute, Instruction.decode_eq_none_iff.mpr h]

omit [ByteSource ρ] in
@[simp] theorem failStep_machine (c : Cpu ρ) (line : Option String) (f : Fault) :
    (c.failStep line f).cpu.machine = c.machine := by
  unfold failStep
  split_ifs <;> rfl

omit [ByteSource ρ] in
theorem failStep_error (c : Cpu ρ) (line : Option String) (f : Fault) :
    (c.failStep line f).error ≠ none := by
  unfold failStep
  split_ifs <;> exact Option.some_ne_none _

theorem step_of_halt {c : Cpu ρ} {halt : Halt} (h : c.halt = some halt) :
    c.step = ⟨c, none, some (.refused halt)⟩ := by
  rw [step, h]

theorem halt_of_step {c : Cpu ρ} (h : c.step.error = none) : c.halt = none := by
  cases hh : c.halt with
  | none => rfl
  | some halt =>
    rw [step_of_halt hh] at h
    cases h

/-- After the fetch a step is the execution of the fetched opcode. -/
theorem step_of_fetch {c : Cpu ρ} {op : Int} (hh : c.halt = none)
    (hop : c.machine.fetch = .ok op) :
    c.step =
      match ({ c with address := c.machine.pc }.enter op).execute with
      | (c', none) => ⟨c', ({ c with address := c.machine.pc }.enter op).trace, none⟩
      | (c', some f) => c'.failStep ({ c with address := c.machine.pc }.enter op).trace f := by
  unfold step
  split
  · simp_all
  · simp only [hop]
    rfl

theorem step_of_le {c : Cpu ρ} (hh : c.halt = none) (h0 : 0 ≤ c.machine.pc)
    (h : c.machine.pc ≤ 0xFFE) :
    c.step =
      match c.fetched.execute with
      | (c', none) => ⟨c', c.fetched.trace, none⟩
      | (c', some f) => c'.failStep c.fetched.trace f :=
  step_of_fetch hh (Machine.fetch_of_le h0 h)

theorem step_of_lt {c : Cpu ρ} (hh : c.halt = none) (h : 0xFFE < c.machine.pc) :
    c.step = { c with address := c.machine.pc }.failStep none
      (.memory (Memory.refusal 0x1000 (max c.machine.pc 0x1000))) := by
  unfold step
  split
  · simp_all
  · simp only [Machine.fetch_of_lt h]

/-- After the fetch of a known opcode a step is its instruction. -/
theorem step_of_encodes {c : Cpu ρ} {i : Instruction} (hh : c.halt = none)
    (h0 : 0 ≤ c.machine.pc) (h : c.machine.pc ≤ 0xFFE) (hi : i.Encodes c.machine.word) :
    c.step =
      match c.fetched.carryOut i with
      | (c', none) => ⟨c', c.fetched.trace, none⟩
      | (c', some f) => c'.failStep c.fetched.trace f := by
  rw [step_of_le hh h0 h, execute_of_encodes (c := c.fetched) hi]

theorem step_cases {c : Cpu ρ} (hh : c.halt = none) (h0 : 0 ≤ c.machine.pc) :
    (0xFFE < c.machine.pc ∧
      c.step = { c with address := c.machine.pc }.failStep none
        (.memory (Memory.refusal 0x1000 (max c.machine.pc 0x1000)))) ∨
    (c.machine.pc ≤ 0xFFE ∧ Opcode.Unknown c.machine.word ∧
      c.step = c.fetched.failStep c.fetched.trace .unknownOpcode) ∨
    (∃ i f, c.machine.pc ≤ 0xFFE ∧ i.Encodes c.machine.word ∧ (c.fetched.carryOut i).2 = some f ∧
      c.step = (c.fetched.carryOut i).1.failStep c.fetched.trace f) ∨
    (∃ i, c.machine.pc ≤ 0xFFE ∧ i.Encodes c.machine.word ∧ (c.fetched.carryOut i).2 = none ∧
      c.step = ⟨(c.fetched.carryOut i).1, c.fetched.trace, none⟩) := by
  rcases Int.lt_or_le 0xFFE c.machine.pc with hlt | hle
  · exact Or.inl ⟨hlt, step_of_lt hh hlt⟩
  · right
    have hstep := step_of_le hh h0 hle
    cases hd : Instruction.decode c.machine.word with
    | none =>
      have hu := Instruction.decode_eq_none_iff.mp hd
      rw [execute_of_unknown (c := c.fetched) hu] at hstep
      exact Or.inl ⟨hle, hu, hstep⟩
    | some i =>
      have hi := Instruction.encodes_of_decode hd
      rw [execute_of_encodes (c := c.fetched) hi] at hstep
      cases hr : c.fetched.carryOut i with
      | mk c' fault =>
        rw [hr] at hstep
        cases fault with
        | none => exact Or.inr (Or.inr ⟨i, hle, hi, by rw [hr], by rw [hr]; exact hstep⟩)
        | some f => exact Or.inr (Or.inl ⟨i, f, hle, hi, by rw [hr], by rw [hr]; exact hstep⟩)

/-- Wherever the program counter stands, a step leaves the machine alone, or fetches, or fetches
and carries out an instruction as far as it goes. -/
theorem step_machine (c : Cpu ρ) :
    c.step.cpu.machine = c.machine ∨ ∃ op,
      c.step.cpu.machine = (c.enter op).machine ∨
        ∃ i b, c.step.cpu.machine = (Instruction.execute i b (c.enter op).machine).1 := by
  unfold step
  split
  · exact Or.inl rfl
  · simp only
    cases c.machine.fetch with
    | error fault => exact Or.inl (failStep_machine _ _ _)
    | ok op =>
      refine Or.inr ⟨op, ?_⟩
      simp only [execute]
      cases Instruction.decode ({ c with address := c.machine.pc }.enter op).machine.opcode with
      | none => exact Or.inl (failStep_machine _ _ _)
      | some i =>
        refine Or.inr ⟨i, ({ c with address := c.machine.pc }.enter op).drawFor i |>.1, ?_⟩
        simp only
        split
        · rename_i hr
          exact (congrArg (fun r => r.1.machine) hr).symm
        · rename_i hr
          rw [failStep_machine]
          exact (congrArg (fun r => r.1.machine) hr).symm

/-! ## Executions -/

section

variable {c c' : Cpu ρ} {op : Int} {i : Instruction} {e : Option CpuError}

/-- A step that fetches a known opcode carries out its instruction, and fails if that is refused. -/
theorem step_outcome (hh : c.halt = none) (hop : c.machine.fetch = .ok op) (hi : i.Encodes op) :
    let r := i.execute (c.drawFor i).1 (c.enter op).machine
    c.step.cpu.machine = r.1 ∧ (c.step.error = none ↔ r.2 = none) := by
  have hs := step_of_fetch hh hop
  have hexecute : ({ c with address := c.machine.pc }.enter op).execute =
      ({ c with address := c.machine.pc }.enter op).carryOut i := execute_of_encodes hi
  rw [hexecute] at hs
  split at hs
  · rename_i hr
    obtain ⟨rfl, hdone⟩ := Prod.mk.inj hr
    rw [hs]
    exact ⟨rfl, iff_of_true rfl hdone⟩
  · rename_i f hr
    obtain ⟨rfl, hfault⟩ := Prod.mk.inj hr
    rw [hs]
    refine ⟨failStep_machine _ _ _, iff_of_false (failStep_error _ _ _) fun hdone => ?_⟩
    cases hdone.symm.trans hfault

/-- A step that succeeds has carried out the instruction of the opcode that it fetched. -/
theorem execute_of_step (hop : c.machine.fetch = .ok op) (he : c.step.error = none)
    (hi : i.Encodes op) :
    i.execute (c.drawFor i).1 (c.enter op).machine = c.step.cpu.machine.done := by
  obtain ⟨hmachine, herror⟩ := step_outcome (halt_of_step he) hop hi
  exact Prod.ext hmachine.symm (herror.mp he)

/-- An opcode with which a step succeeds asks for some instruction. -/
theorem exists_encodes_of_step (hop : c.machine.fetch = .ok op) (he : c.step.error = none) :
    ∃ i : Instruction, i.Encodes op := by
  cases hdecode : Instruction.decode op with
  | some i => exact ⟨i, Instruction.encodes_of_decode hdecode⟩
  | none =>
    have hs := step_of_fetch (halt_of_step he) hop
    have hunknown := Instruction.decode_eq_none_iff.mp hdecode
    have hexecute : ({ c with address := c.machine.pc }.enter op).execute =
        ({ c with address := c.machine.pc }.enter op, some .unknownOpcode) :=
      execute_of_unknown hunknown
    rw [hexecute] at hs
    rw [hs] at he
    exact absurd he (failStep_error _ _ _)

/-- An opcode that is handed over has its instruction carried out where the program counter is. -/
theorem executeOpcode_outcome (hi : i.Encodes op) :
    let r := i.execute (c.drawFor i).1 { c.machine with opcode := op }
    (c.executeOpcode op).1.machine = r.1 ∧ ((c.executeOpcode op).2 = none ↔ r.2 = none) := by
  rw [executeOpcode,
    execute_of_encodes (c := { c with machine := { c.machine with opcode := op } }) hi]
  split
  · rename_i hr
    obtain ⟨rfl, hdone⟩ := Prod.mk.inj hr
    exact ⟨rfl, iff_of_true rfl hdone⟩
  · rename_i f hr
    obtain ⟨rfl, hfault⟩ := Prod.mk.inj hr
    have hrefused : (i.execute (c.drawFor i).1 { c.machine with opcode := op }).2 ≠ none := by
      intro hdone
      cases hdone.symm.trans hfault
    split_ifs
    · exact ⟨rfl, iff_of_false id hrefused⟩
    · exact ⟨rfl, iff_of_false id hrefused⟩

/-- An opcode is carried out, be it that a step fetches it or that it is handed over: this leaves
`c'` of the processor, and fails with the error if any. -/
inductive Executed (op : Int) (c : Cpu ρ) : Cpu ρ → Option CpuError → Prop where
  | stepped (hh : c.halt = none) (hop : c.machine.fetch = .ok op) :
      Executed op c c.step.cpu c.step.error
  | handed : Executed op c (c.executeOpcode op).1 (c.executeOpcode op).2

theorem Executed.of_step (hop : c.machine.fetch = .ok op) (he : c.step.error = none) :
    Executed op c c.step.cpu none := by
  have h := Executed.stepped (halt_of_step he) hop
  rwa [he] at h

theorem Executed.of_executeOpcode (he : (c.executeOpcode op).2 = none) :
    Executed op c (c.executeOpcode op).1 none := by
  have h : Executed op c (c.executeOpcode op).1 (c.executeOpcode op).2 := .handed
  rwa [he] at h

/-- An opcode that has been carried out with success asks for some instruction. -/
theorem Executed.exists_encodes (h : Executed op c c' none) : ∃ i : Instruction, i.Encodes op := by
  generalize he : none = e at h
  cases h with
  | stepped hh hop => exact exists_encodes_of_step hop he.symm
  | handed =>
    cases hdecode : Instruction.decode op with
    | some i => exact ⟨i, Instruction.encodes_of_decode hdecode⟩
    | none =>
      have hunknown := Instruction.decode_eq_none_iff.mp hdecode
      rw [executeOpcode,
        execute_of_unknown (c := { c with machine := { c.machine with opcode := op } }) hunknown]
        at he
      cases he

/-- Either way its instruction is carried out, from some program counter. -/
theorem Executed.outcome (h : Executed op c c' e) (hi : i.Encodes op) :
    ∃ pc, let r := i.execute (c.drawFor i).1 { c.machine with opcode := op, pc }
      c'.machine = r.1 ∧ (e = none ↔ r.2 = none) := by
  cases h with
  | stepped hh hop => exact ⟨c.machine.pc + 2, step_outcome hh hop hi⟩
  | handed => exact ⟨c.machine.pc, executeOpcode_outcome hi⟩

end

end Cpu

end Chip8
