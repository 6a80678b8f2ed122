import Chip8.Proofs.Bounds

/-!
# Chip8.Proofs.Halting — when a step halts

`HaltsFor` reads off a machine whether the next step halts, and for which cause: it speaks of the
word at the program counter, the registers, the stack, the memory and the edge mode, and of nothing
that a step computes.  `step_halts_iff` says that a step of a reachable processor halts exactly
then, and that it fails in no other way.
-/

namespace Chip8

open Opcode (family)

/-! ## The condition -/

namespace Machine

/-- The next step halts for the cause `k`. -/
def HaltsFor (m : Machine) : HaltCause → Prop
  | .memory =>
    0xFFE < m.pc ∨
    m.pc ≤ 0xFFE ∧
      (family m.word = 0xF ∧ Opcode.kk m.word = 0x33 ∧ 0xFFF < m.index + 2 ∨
       family m.word = 0xF ∧ Opcode.kk m.word = 0x55 ∧ 0xFFF < m.index + (Opcode.x m.word).val ∨
       family m.word = 0xF ∧ Opcode.kk m.word = 0x65 ∧ 0xFFF < m.index + (Opcode.x m.word).val ∨
       family m.word = 0xD ∧ 0 < Opcode.n m.word ∧ 0xFFF < m.index + Opcode.n m.word - 1)
  | .stack =>
    m.pc ≤ 0xFFE ∧
      (m.word = 0x00EE ∧ m.stack.depth = 0 ∨ family m.word = 0x2 ∧ m.stack.depth = 16)
  | .opcode =>
    m.pc ≤ 0xFFE ∧
      (Opcode.Unknown m.word ∨
       family m.word = 0xF ∧ Opcode.kk m.word = 0x29 ∧ 15 < (m.reg (Opcode.x m.word)).toNat)
  | .keypad =>
    m.pc ≤ 0xFFE ∧ family m.word = 0xE ∧ (Opcode.kk m.word = 0x9E ∨ Opcode.kk m.word = 0xA1) ∧
      15 < (m.reg (Opcode.x m.word)).toNat
  | .screen =>
    m.pc ≤ 0xFFE ∧ family m.word = 0xD ∧
      (Opcode.n m.word = 0 ∨ m.index + Opcode.n m.word - 1 ≤ 0xFFF) ∧
      m.Overdraws (Opcode.x m.word) (Opcode.y m.word) (Opcode.n m.word)

variable {m : Machine} {k : HaltCause}

/-- Each line of the condition is an instruction that the machine refuses. -/
theorem exists_refused_of_haltsFor (hle : m.pc ≤ 0xFFE) (h : m.HaltsFor k) :
    Opcode.Unknown m.word ∧ k = .opcode ∨ ∃ i : Instruction, i.Encodes m.word ∧ i.Refused m k := by
  cases k with
  | memory =>
    rcases h with hlt | ⟨-, ⟨hf, hk, hi⟩ | ⟨hf, hk, hi⟩ | ⟨hf, hk, hi⟩ | ⟨hf, hn, hi⟩⟩
    · omega
    · exact Or.inr ⟨.decimal _, ⟨hf, hk, rfl⟩, hi⟩
    · exact Or.inr ⟨.save _, ⟨hf, hk, rfl⟩, hi⟩
    · exact Or.inr ⟨.restore _, ⟨hf, hk, rfl⟩, hi⟩
    · refine Or.inr ⟨.draw _ _ _, ⟨hf, rfl, rfl, rfl⟩, ?_⟩
      rintro (hzero | hin)
      · omega
      · omega
  | stack =>
    rcases h with ⟨-, ⟨hop, hd⟩ | ⟨hf, hd⟩⟩
    · exact Or.inr ⟨.ret, hop, List.length_eq_zero_iff.mp hd⟩
    · exact Or.inr ⟨.call _, ⟨hf, rfl⟩, Nat.le_of_eq hd.symm⟩
  | opcode =>
    rcases h with ⟨-, hu | ⟨hf, hk, hx⟩⟩
    · exact Or.inl ⟨hu, rfl⟩
    · exact Or.inr ⟨.glyph _, ⟨hf, hk, rfl⟩, hx⟩
  | keypad =>
    obtain ⟨-, hf, hk | hk, hx⟩ := h
    · exact Or.inr ⟨.skipIfKey _, ⟨hf, hk, rfl⟩, hx⟩
    · exact Or.inr ⟨.skipUnlessKey _, ⟨hf, hk, rfl⟩, hx⟩
  | screen =>
    obtain ⟨-, hf, hin, hover⟩ := h
    refine Or.inr ⟨.draw _ _ _, ⟨hf, rfl, rfl, rfl⟩, ?_, hover⟩
    unfold SpriteInside
    omega

/-- An instruction that the machine refuses is a line of the condition. -/
theorem haltsFor_of_refused (hdepth : m.stack.items.length ≤ 16) (hle : m.pc ≤ 0xFFE)
    {i : Instruction} (hi : i.Encodes m.word) (hr : i.Refused m k) : m.HaltsFor k := by
  cases i <;> cases k <;> try exact hr.elim
  case ret.stack => exact ⟨hle, Or.inl ⟨hi, List.length_eq_zero_iff.mpr hr⟩⟩
  case call.stack => exact ⟨hle, Or.inr ⟨hi.1, Nat.le_antisymm hdepth hr⟩⟩
  case glyph.opcode =>
    obtain ⟨hf, hk, rfl⟩ := hi
    exact ⟨hle, Or.inr ⟨hf, hk, hr⟩⟩
  case skipIfKey.keypad =>
    obtain ⟨hf, hk, rfl⟩ := hi
    exact ⟨hle, hf, Or.inl hk, hr⟩
  case skipUnlessKey.keypad =>
    obtain ⟨hf, hk, rfl⟩ := hi
    exact ⟨hle, hf, Or.inr hk, hr⟩
  case decimal.memory => exact Or.inr ⟨hle, Or.inl ⟨hi.1, hi.2.1, hr⟩⟩
  case save.memory =>
    obtain ⟨hf, hk, rfl⟩ := hi
    exact Or.inr ⟨hle, Or.inr (Or.inl ⟨hf, hk, hr⟩)⟩
  case restore.memory =>
    obtain ⟨hf, hk, rfl⟩ := hi
    exact Or.inr ⟨hle, Or.inr (Or.inr (Or.inl ⟨hf, hk, hr⟩))⟩
  case draw.memory =>
    obtain ⟨hf, rfl, rfl, rfl⟩ := hi
    have hout : ¬ (Opcode.n m.word = 0 ∨ m.index + Opcode.n m.word ≤ 0x1000) := hr
    exact Or.inr ⟨hle, Or.inr (Or.inr (Or.inr ⟨hf, by omega, by omega⟩))⟩
  case draw.screen =>
    obtain ⟨hf, rfl, rfl, rfl⟩ := hi
    obtain ⟨hin, hover⟩ := hr
    have hin' : Opcode.n m.word = 0 ∨ m.index + Opcode.n m.word ≤ 0x1000 := hin
    exact ⟨hle, hf, by omega, hover⟩

/-- The condition, through the table of opcodes. -/
theorem haltsFor_iff (hdepth : m.stack.items.length ≤ 16) (hle : m.pc ≤ 0xFFE) :
    m.HaltsFor k ↔ Opcode.Unknown m.word ∧ k = .opcode ∨
      ∃ i : Instruction, i.Encodes m.word ∧ i.Refused m k := by
  constructor
  · exact exists_refused_of_haltsFor hle
  · rintro (⟨hu, rfl⟩ | ⟨i, hi, hr⟩)
    · exact ⟨hle, Or.inl hu⟩
    · exact haltsFor_of_refused hdepth hle hi hr

theorem haltsFor_iff_of_lt (hlt : 0xFFE < m.pc) : m.HaltsFor k ↔ k = .memory := by
  constructor
  · intro h
    cases k with
    | memory => rfl
    | stack => exact absurd h.1 (by omega)
    | opcode => exact absurd h.1 (by omega)
    | keypad => exact absurd h.1 (by omega)
    | screen => exact absurd h.1 (by omega)
  · rintro rfl
    exact Or.inl hlt

/-- A sprite without rows names no cause. -/
theorem not_haltsFor_of_empty_sprite (hle : m.pc ≤ 0xFFE) (hf : family m.word = 0xD)
    (hn : Opcode.n m.word = 0) : ¬ m.HaltsFor k := by
  intro h
  rcases exists_refused_of_haltsFor hle h with ⟨hu, -⟩ | ⟨i, hi, hr⟩
  · unfold Opcode.Unknown at hu
    omega
  · have hdraw : (Instruction.draw (Opcode.x m.word) (Opcode.y m.word) 0).Encodes m.word :=
      ⟨hf, rfl, rfl, hn.symm⟩
    obtain rfl := Instruction.encodes_unique hi hdraw
    cases k with
    | memory => exact hr (Or.inl rfl)
    | screen =>
      obtain ⟨-, -, r, c, hlt, -⟩ := hr
      omega
    | stack => exact hr
    | opcode => exact hr
    | keypad => exact hr

end Machine

/-! ## The step -/

/-- The step has brought about a halt for the cause `k`. -/
def Step.HaltedFor {ρ : Type} (s : Step ρ) (k : HaltCause) : Prop :=
  ∃ h, s.error = some (.halted h) ∧ h.fault.cause? = some k

namespace Cpu

variable {ρ : Type} {c : Cpu ρ} {k : HaltCause} {i : Instruction}

theorem failStep_of_cause (c : Cpu ρ) (line : Option String) {f : Fault} (h : f.cause? = some k) :
    c.failStep line f = ⟨c.stop f, line, some (.halted (c.haltFor f))⟩ := by
  rw [failStep, if_pos (Fault.halts_of_cause h)]

/-- The fetch makes no difference to what is refused. -/
theorem refused_fetched : i.Refused c.fetched.machine k ↔ i.Refused c.machine k := by
  cases i <;> cases k <;> exact Iff.rfl

variable [ByteSource ρ]

/-- A step succeeds and the condition names no cause, or it halts for the one cause that the
condition names. -/
theorem step_accounted (hb : c.machine.Bounded) (hh : c.halt = none) :
    (c.step.error = none ∧ ∀ k, ¬ c.machine.HaltsFor k) ∨
      ∃ h k, c.step.error = some (.halted h) ∧ h.fault.cause? = some k ∧
        ∀ k', c.machine.HaltsFor k' ↔ k' = k := by
  have haccounted := fun i b => Instruction.execute_accounted (m := c.fetched.machine) hb.index.1
    hb.delay.1 hb.delay.2 b i
  rcases step_cases hh hb.pc.1 with
    ⟨hlt, hs⟩ | ⟨hle, hu, hs⟩ | ⟨i, f, hle, hi, hf, hs⟩ | ⟨i, hle, hi, hf, hs⟩
  · rw [failStep_of_cause (k := .memory) _ _ rfl] at hs
    refine Or.inr ⟨_, .memory, by rw [hs], rfl, fun k' => ?_⟩
    exact Machine.haltsFor_iff_of_lt hlt
  · rw [failStep_of_cause (k := .opcode) _ _ rfl] at hs
    refine Or.inr ⟨_, .opcode, by rw [hs], rfl, fun k' => ?_⟩
    rw [Machine.haltsFor_iff hb.depth hle]
    constructor
    · rintro (⟨-, hk⟩ | ⟨i, hi, -⟩)
      · exact hk
      · exact absurd hi (Instruction.not_encodes_of_unknown hu)
    · exact fun hk => Or.inl ⟨hu, hk⟩
  · rcases haccounted i (c.fetched.drawFor i).1 with ⟨hnone, -⟩ | ⟨f', k, hf', hcause, hrefused⟩
    · cases hf.symm.trans hnone
    · cases hf.symm.trans hf'
      rw [failStep_of_cause _ _ hcause] at hs
      refine Or.inr ⟨_, k, by rw [hs], hcause, fun k' => ?_⟩
      rw [Machine.haltsFor_iff hb.depth hle, ← hrefused k', refused_fetched]
      constructor
      · rintro (⟨hu, -⟩ | ⟨j, hj, hr⟩)
        · exact absurd hi (Instruction.not_encodes_of_unknown hu)
        · rwa [Instruction.encodes_unique hi hj]
      · exact fun hr => Or.inr ⟨i, hi, hr⟩
  · rcases haccounted i (c.fetched.drawFor i).1 with ⟨-, hrefused⟩ | ⟨f', k, hf', -, -⟩
    · refine Or.inl ⟨by rw [hs], fun k' hk' => ?_⟩
      rcases (Machine.haltsFor_iff hb.depth hle).mp hk' with ⟨hu, -⟩ | ⟨j, hj, hr⟩
      · exact absurd hi (Instruction.not_encodes_of_unknown hu)
      · rw [← Instruction.encodes_unique hi hj] at hr
        exact hrefused k' (refused_fetched.mpr hr)
    · cases hf.symm.trans hf'

/-- A step never fails with a fault that goes unrecorded. -/
theorem step_not_bare (hb : c.machine.Bounded) (fault : Fault) :
    c.step.error ≠ some (.bare fault) := by
  intro hbare
  cases hh : c.halt with
  | some halt =>
    rw [step_of_halt hh] at hbare
    cases hbare
  | none =>
    rcases step_accounted hb hh with ⟨hnone, -⟩ | ⟨h, k, herror, -⟩
    · cases hbare.symm.trans hnone
    · cases hbare.symm.trans herror

/-- **When a step halts.**  A step of a reachable processor that has not halted succeeds or halts,
and it halts for exactly the causes that the condition names.  A sprite without rows never halts
it. -/
theorem step_halts_iff (hr : c.Reachable) (hh : c.halt = none) :
    (c.step.error = none ∨ ∃ k, c.step.HaltedFor k) ∧
      (∀ k, c.step.HaltedFor k ↔ c.machine.HaltsFor k) ∧
      (c.machine.pc ≤ 0xFFE → family c.machine.word = 0xD → Opcode.n c.machine.word = 0 →
        c.step.error = none) := by
  have hfull : (c.step.error = none ∨ ∃ k, c.step.HaltedFor k) ∧
      ∀ k, c.step.HaltedFor k ↔ c.machine.HaltsFor k := by
    rcases step_accounted hr.bounded hh with ⟨hnone, hno⟩ | ⟨h, k, herror, hcause, honly⟩
    · refine ⟨Or.inl hnone, fun k => iff_of_false ?_ (hno k)⟩
      rintro ⟨h, herror, -⟩
      cases hnone.symm.trans herror
    · refine ⟨Or.inr ⟨k, h, herror, hcause⟩, fun k' => ?_⟩
      rw [honly k']
      constructor
      · rintro ⟨h', herror', hcause'⟩
        cases herror.symm.trans herror'
        exact Option.some.inj (hcause'.symm.trans hcause)
      · rintro rfl
        exact ⟨h, herror, hcause⟩
  obtain ⟨htotal, hiff⟩ := hfull
  refine ⟨htotal, hiff, fun hle hf hn => ?_⟩
  rcases htotal with hnone | ⟨k, hk⟩
  · exact hnone
  · exact absurd ((hiff k).mp hk) (Machine.not_haltsFor_of_empty_sprite hle hf hn)

/-- A return with nothing to return to. -/
theorem step_halts_bare_return :
    (((create (.powerOn .linear) (CyclicBytes.ofList []) false).act
      (.load [0x00, 0xEE])).step).HaltedFor .stack := by
  have hr : ((create (.powerOn .linear) (CyclicBytes.ofList []) false).act
      (.load [0x00, 0xEE])).Reachable := .act _ (.powerOn _ _ _)
  refine ((step_halts_iff hr (by decide +kernel)).2.1 .stack).mpr ?_
  exact ⟨by decide +kernel, Or.inl ⟨by decide +kernel, by decide +kernel⟩⟩

end Cpu

end Chip8
