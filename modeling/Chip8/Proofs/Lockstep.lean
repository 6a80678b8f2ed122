import Chip8.Proofs.Aftermath
import Chip8.Proofs.Timeless
import Mathlib.Data.List.Forall2

/-!
# Chip8.Proofs.Lockstep — two processors that go through the same instructions

Two processors are in step (`InStep`) when their machines are equal but for the time, and they have
drawn the same number of bytes from sources that hand out the same bytes.  A step keeps them in step
unless it reads the delay timer, and where it halts one of them it halts the other with the same
complaint (`InStep.step`).  What a host does between two steps while no key moves is invisible to
this (`Idled`), so two processors that start in step stay in step, instruction by instruction,
however their hosts go about it (`Trail.lockstep`).
-/

namespace Chip8

/-! ## Sources of random bytes -/

namespace ByteSource

variable {ρ σ : Type} [ByteSource ρ] [ByteSource σ]

/-- The source that is left after `n` bytes. -/
def after (r : ρ) : Nat → ρ
  | 0 => r
  | n + 1 => (next (after r n)).2

/-- Two sources hand out the same bytes. -/
def SameBytes (r : ρ) (r' : σ) : Prop := ∀ n, (next (after r n)).1 = (next (after r' n)).1

end ByteSource

open ByteSource (after SameBytes)

/-! ## Complaints -/

/-- Why a step halts the processor, and at which opcode and address; none if it does not. -/
def Step.complaint? {ρ : Type} (s : Step ρ) : Option (String × Int × Int) :=
  match s.error with
  | some (.halted h) => some (h.reason, h.opcode, h.address)
  | _ => none

namespace Cpu

variable {ρ σ : Type}

theorem failStep_complaint (c : Cpu ρ) (line : Option String) (f : Fault) :
    (c.failStep line f).complaint? =
      if f.halts then some (f.reason c.machine.opcode c.address, c.machine.opcode, c.address)
      else none := by
  unfold failStep
  split_ifs <;> rfl

/-! ## In step -/

variable [ByteSource ρ] [ByteSource σ]

/-- Two processors, one with a source that was `r`, the other with one that was `r'`, are equal but
for the time, have not halted, and have drawn the same number of bytes. -/
structure InStep (r : ρ) (r' : σ) (c : Cpu ρ) (d : Cpu σ) : Prop where
  machine : c.machine.untimed = d.machine.untimed
  address : c.address = d.address
  running : c.halt = none ∧ d.halt = none
  drawn : ∃ n, c.source = after r n ∧ d.source = after r' n

variable {r : ρ} {r' : σ} {c : Cpu ρ} {d : Cpu σ}

/-- They draw the same byte for an instruction, and are left with sources that are in step. -/
theorem InStep.drawFor (h : InStep r r' c d) (hbytes : SameBytes r r') (i : Instruction) :
    (c.drawFor i).1 = (d.drawFor i).1 ∧
      ∃ n, (c.drawFor i).2 = after r n ∧ (d.drawFor i).2 = after r' n := by
  obtain ⟨n, hc, hd⟩ := h.drawn
  unfold Cpu.drawFor
  by_cases hi : i.isRandom = true
  · rw [if_pos hi, if_pos hi, hc, hd]
    exact ⟨hbytes n, n + 1, rfl, rfl⟩
  · rw [if_neg hi, if_neg hi]
    exact ⟨rfl, n, hc, hd⟩

theorem InStep.word (h : InStep r r' c d) : c.machine.word = d.machine.word := by
  unfold Machine.word
  rw [Machine.ram_congr h.machine, Machine.pc_congr h.machine]

theorem InStep.fetched (h : InStep r r' c d) : InStep r r' c.fetched d.fetched where
  machine := by
    let enter (m : Machine) : Machine := { m with opcode := c.machine.word, pc := m.pc + 2 }
    have hmachine : enter c.machine.untimed = enter d.machine.untimed := by rw [h.machine]
    unfold Cpu.fetched
    rw [← h.word]
    exact hmachine
  address := Machine.pc_congr h.machine
  running := h.running
  drawn := h.drawn

/-- Carrying out an opcode, unless it reads the delay timer, keeps two processors in step, and is
refused by both alike. -/
theorem InStep.execute (h : InStep r r' c d) (hbytes : SameBytes r r')
    (hno : ∀ x, ¬ (Instruction.readDelay x).Encodes c.machine.opcode) :
    InStep r r' c.execute.1 d.execute.1 ∧ c.execute.2 = d.execute.2 := by
  have hopcode := Machine.opcode_congr h.machine
  cases hdecode : Instruction.decode c.machine.opcode with
  | none =>
    have hu := Instruction.decode_eq_none_iff.mp hdecode
    rw [execute_of_unknown hu]
    rw [hopcode] at hu
    rw [execute_of_unknown hu]
    exact ⟨h, rfl⟩
  | some i =>
    have hi := Instruction.encodes_of_decode hdecode
    have hread : ∀ x, i ≠ .readDelay x := by
      rintro x rfl
      exact hno x hi
    obtain ⟨hbyte, hdrawn⟩ := h.drawFor hbytes i
    obtain ⟨hmachine, hfault⟩ := Machine.execute_congr hread (c.drawFor i).1 h.machine
    rw [execute_of_encodes hi]
    rw [hopcode] at hi
    rw [execute_of_encodes hi, carryOut, carryOut, ← hbyte]
    exact ⟨⟨hmachine, h.address, h.running, hdrawn⟩, hfault⟩

theorem InStep.failStep (h : InStep r r' c d) (line line' : Option String) (f : Fault) :
    (c.failStep line f).complaint? = (d.failStep line' f).complaint? := by
  rw [failStep_complaint, failStep_complaint, Machine.opcode_congr h.machine, h.address]

/-- A read of the delay timer succeeds. -/
theorem step_readDelay (hb : c.machine.Bounded) (hh : c.halt = none) (hle : c.machine.pc ≤ 0xFFE)
    {x : Reg} (hi : (Instruction.readDelay x).Encodes c.machine.word) :
    c.step.error = none ∧ c.step.cpu.machine.Asks 0x07 := by
  have hs := step_of_encodes hh hb.pc.1 hle hi
  have hbyte : Cells.byte? c.fetched.machine.delay = .ok (UInt8.ofNat c.machine.delay.toNat) :=
    Instruction.byte?_of_bounds hb.delay.1 hb.delay.2
  rw [carryOut, Instruction.execute, hbyte] at hs
  rw [hs]
  exact ⟨rfl, hi.1, hi.2.1⟩

/-- **One step of two processors in step.**  They halt alike or not at all; and if the one succeeds,
with an instruction other than a read of the delay timer, so does the other, and they are in step
again. -/
theorem InStep.step (h : InStep r r' c d) (hbytes : SameBytes r r') (hc : c.machine.Bounded)
    (hd : d.machine.Bounded) :
    c.step.complaint? = d.step.complaint? ∧
      (c.step.error = none → ¬ c.step.cpu.machine.Asks 0x07 →
        d.step.error = none ∧ InStep r r' c.step.cpu d.step.cpu) := by
  obtain ⟨hch, hdh⟩ := h.running
  have hpc := Machine.pc_congr h.machine
  rcases Int.lt_or_le 0xFFE c.machine.pc with hlt | hle
  · have haddress : InStep r r' { c with address := c.machine.pc }
        { d with address := c.machine.pc } := ⟨h.machine, rfl, h.running, h.drawn⟩
    have hstep := step_of_lt hdh (by omega)
    rw [← hpc] at hstep
    rw [step_of_lt hch hlt, hstep]
    exact ⟨haddress.failStep none none _, fun hnone => absurd hnone (failStep_error _ _ _)⟩
  · have hle' : d.machine.pc ≤ 0xFFE := by omega
    by_cases hread : ∃ x, (Instruction.readDelay x).Encodes c.machine.word
    · obtain ⟨x, hx⟩ := hread
      obtain ⟨hdone, hasks⟩ := step_readDelay hc hch hle hx
      rw [h.word] at hx
      obtain ⟨hdone', -⟩ := step_readDelay hd hdh hle' hx
      refine ⟨?_, fun _ hno => absurd hasks hno⟩
      unfold Step.complaint?
      rw [hdone, hdone']
    · obtain ⟨hafter, hfault⟩ := h.fetched.execute hbytes (not_exists.mp hread)
      rw [step_of_le hch hc.pc.1 hle, step_of_le hdh hd.pc.1 hle']
      revert hafter hfault
      rcases c.fetched.execute with ⟨c', _ | f⟩ <;> rcases d.fetched.execute with ⟨d', _ | f'⟩
      · intro hafter _
        exact ⟨rfl, fun _ _ => ⟨rfl, hafter⟩⟩
      · intro _ hfault
        cases hfault
      · intro _ hfault
        cases hfault
      · intro hafter hfault
        cases hfault
        exact ⟨hafter.failStep _ _ f, fun hnone => absurd hnone (failStep_error _ _ _)⟩

/-! ## Trails -/

/-- What a host makes of a processor between two steps, while no key moves. -/
structure Idled (c c' : Cpu ρ) : Prop where
  machine : c'.machine.untimed = c.machine.untimed
  address : c'.address = c.address
  halt : c'.halt = c.halt
  source : c'.source = c.source
  reachable : c.Reachable → c'.Reachable

theorem Idled.refl (c : Cpu ρ) : Idled c c := ⟨rfl, rfl, rfl, rfl, id⟩

theorem Idled.trans {c₁ c₂ c₃ : Cpu ρ} (h : Idled c₁ c₂) (h' : Idled c₂ c₃) : Idled c₁ c₃ :=
  ⟨h'.machine.trans h.machine, h'.address.trans h.address, h'.halt.trans h.halt,
    h'.source.trans h.source, h'.reachable ∘ h.reachable⟩

theorem idled_tick (c : Cpu ρ) : Idled c c.tick := ⟨rfl, rfl, rfl, rfl, fun h => h.act .tick⟩

theorem idled_shown (c : Cpu ρ) : Idled c c.shown := ⟨rfl, rfl, rfl, rfl, .shown⟩

theorem InStep.idled {c' : Cpu ρ} {d' : Cpu σ} (h : InStep r r' c d) (hc : Idled c c')
    (hd : Idled d d') : InStep r r' c' d' where
  machine := hc.machine.trans (h.machine.trans hd.machine.symm)
  address := hc.address.trans (h.address.trans hd.address.symm)
  running := ⟨hc.halt.trans h.running.1, hd.halt.trans h.running.2⟩
  drawn := by
    obtain ⟨n, hn, hn'⟩ := h.drawn
    exact ⟨n, hc.source.trans hn, hd.source.trans hn'⟩

/-- From `c` to `d` a processor makes these steps, in order, and idles before, between and after
them. -/
inductive Trail : Cpu ρ → List (Step ρ) → Cpu ρ → Prop where
  | idle {c d : Cpu ρ} (h : Idled c d) : Trail c [] d
  | step {c c' d : Cpu ρ} {steps : List (Step ρ)} (h : Idled c c')
      (rest : Trail c'.step.cpu steps d) : Trail c (c'.step :: steps) d

theorem Trail.of_idled {c c' d : Cpu ρ} {steps : List (Step ρ)} (h : Idled c c')
    (ht : Trail c' steps d) : Trail c steps d := by
  cases ht with
  | idle h' => exact .idle (h.trans h')
  | step h' rest => exact .step (h.trans h') rest

theorem Trail.trans {c d e : Cpu ρ} {steps steps' : List (Step ρ)} (h : Trail c steps d)
    (h' : Trail d steps' e) : Trail c (steps ++ steps') e := by
  induction h with
  | idle hidle => exact .of_idled hidle h'
  | step hidle _ ih => exact .step hidle (ih h')

/-- **Lockstep.**  Two processors that start in step stay in step through as many steps as both
make, if these succeed for one of them and do not read the delay timer; and the next step halts them
alike or not at all. -/
theorem Trail.lockstep {c' : Cpu ρ} {d' : Cpu σ} {as : List (Step ρ)} {bs : List (Step σ)} {k : Nat}
    (hc : Trail c as c') (hd : Trail d bs d') (h : InStep r r' c d) (hbytes : SameBytes r r')
    (hrc : c.Reachable) (hrd : d.Reachable) (hka : k ≤ as.length) (hkb : k ≤ bs.length)
    (hdone : ∀ a ∈ as.take k, a.error = none ∧ ¬ a.cpu.machine.Asks 0x07) :
    List.Forall₂ (fun a b => InStep r r' a.cpu b.cpu) (as.take k) (bs.take k) ∧
      ∀ a b, as[k]? = some a → bs[k]? = some b → a.complaint? = b.complaint? := by
  -- by induction on the number of steps; idling before a step does not show
  induction k generalizing c d as bs with
  | zero =>
    refine ⟨.nil, fun a b ha hb => ?_⟩
    cases hc with
    | idle _ => cases ha
    | step hidle _ =>
      cases hd with
      | idle _ => cases hb
      | step hidle' _ =>
        cases ha
        cases hb
        exact ((h.idled hidle hidle').step hbytes (hidle.reachable hrc).bounded
          (hidle'.reachable hrd).bounded).1
  | succ k ih =>
    cases hc with
    | idle _ => simp at hka
    | step hidle rest =>
      cases hd with
      | idle _ => simp at hkb
      | step hidle' rest' =>
        have hrc' := hidle.reachable hrc
        have hrd' := hidle'.reachable hrd
        obtain ⟨⟨hnone, hasks⟩, hdone'⟩ := List.forall_mem_cons.mp hdone
        obtain ⟨-, hnext⟩ := ((h.idled hidle hidle').step hbytes hrc'.bounded hrd'.bounded).2
          hnone hasks
        obtain ⟨hall, hlast⟩ := ih rest rest' hnext (hrc'.act .step) (hrd'.act .step)
          (Nat.le_of_succ_le_succ hka) (Nat.le_of_succ_le_succ hkb) hdone'
        exact ⟨.cons hnext hall, hlast⟩

end Cpu

end Chip8
