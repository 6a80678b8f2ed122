import Chip8.Proofs.Bounds
import Chip8.Proofs.Lockstep

/-!
# Chip8.Proofs.Alike — processors that no host can tell apart

Two processors are alike when their machines, their current addresses and their halts are equal and
their sources hand out the same bytes.  Whether they trace is left open, and so is where the bytes
come from.  Whatever a host asks of both, both do alike, and neither refuses what the other does not
refuse for the same reason (`Alike.act`), so they stay alike for ever (`Alike.actAll`).
-/

namespace Chip8

namespace ByteSource

variable {ρ σ : Type} [ByteSource ρ] [ByteSource σ] {r : ρ} {r' : σ}

theorem after_next (r : ρ) (n : Nat) : after (next r).2 n = after r (n + 1) := by
  induction n with
  | zero => rfl
  | succ n ih =>
    show (next (after (next r).2 n)).2 = (next (after r (n + 1))).2
    rw [ih]

theorem SameBytes.next (h : SameBytes r r') : SameBytes (next r).2 (next r').2 := by
  intro n
  rw [after_next, after_next]
  exact h (n + 1)

end ByteSource

open ByteSource (SameBytes)

/-! ## Refusals -/

/-- Why a host is refused what it asks of a processor. -/
inductive HostFault where
  | processor (e : CpuError)
  | load (fault : LoadFault)
  | keypad (fault : KeypadFault)
  | screen (fault : ScreenFault)
  deriving DecidableEq

/-- The fault with which something ended, if it did. -/
def faultOf? {ε α : Type} : Except ε α → Option ε
  | .error fault => some fault
  | .ok _ => none

namespace Cpu

variable {ρ σ : Type} [ByteSource ρ] [ByteSource σ]

/-- Why the processor refuses what a host asks; none if it does it. -/
def refusal? (c : Cpu ρ) : HostAction → Option HostFault
  | .step => c.step.error.map .processor
  | .load program => (faultOf? (c.load program)).map .load
  | .press key => (faultOf? (c.machine.keypad.press key)).map .keypad
  | .release key => (faultOf? (c.machine.keypad.release key)).map .keypad
  | .setKeys states => (faultOf? (c.machine.keypad.setAll states)).map .keypad
  | .togglePixel x y => (faultOf? (c.machine.screen.toggle x y)).map .screen
  | .tick | .reset | .clearKeys | .clearScreen => none

/-! ## Alike -/

/-- The processors differ in nothing but their tracing and the place that their bytes come from. -/
structure Alike (c : Cpu ρ) (d : Cpu σ) : Prop where
  machine : c.machine = d.machine
  address : c.address = d.address
  halt : c.halt = d.halt
  bytes : SameBytes c.source d.source

variable {c : Cpu ρ} {d : Cpu σ}

/-- The same change of both machines. -/
theorem Alike.change (h : Alike c d) (f : Machine → Machine) :
    Alike { c with machine := f c.machine } { d with machine := f d.machine } :=
  ⟨congrArg f h.machine, h.address, h.halt, h.bytes⟩

theorem Alike.withKeypad (h : Alike c d) (r : Except KeypadFault Keypad) :
    Alike (c.withKeypad r) (d.withKeypad r) := by
  unfold Cpu.withKeypad
  cases r with
  | error fault => exact h
  | ok keypad => exact h.change fun m => { m with keypad }

theorem Alike.toggling (h : Alike c d) (x y : Int) : Alike (c.toggling x y) (d.toggling x y) := by
  unfold Cpu.toggling
  rw [h.machine]
  cases d.machine.screen.toggle x y with
  | error fault => exact h
  | ok r =>
    have hchanged := h.change fun m => { m with screen := r.1 }
    rwa [h.machine] at hchanged

theorem Alike.load (h : Alike c d) (program : List UInt8) :
    Alike (c.loading program) (d.loading program) ∧
      faultOf? (c.load program) = faultOf? (d.load program) := by
  unfold loading Cpu.load
  rw [h.machine]
  cases d.machine.load program with
  | error fault => exact ⟨h, rfl⟩
  | ok machine => exact ⟨h.change fun _ => machine, rfl⟩

theorem Alike.reset (h : Alike c d) : Alike c.reset d.reset := by
  unfold Cpu.reset
  rw [h.machine]
  exact ⟨rfl, rfl, rfl, h.bytes⟩

/-! ## Steps -/

/-- They draw the same byte for an instruction and go on with the same bytes. -/
theorem Alike.drawFor (h : Alike c d) (i : Instruction) :
    (c.drawFor i).1 = (d.drawFor i).1 ∧ SameBytes (c.drawFor i).2 (d.drawFor i).2 := by
  unfold Cpu.drawFor
  cases i.isRandom with
  | true => exact ⟨h.bytes 0, h.bytes.next⟩
  | false => exact ⟨rfl, h.bytes⟩

theorem Alike.fetched (h : Alike c d) : Alike c.fetched d.fetched := by
  have hmachine : c.fetched.machine = d.fetched.machine := by
    show { c.machine with opcode := c.machine.word, pc := c.machine.pc + 2 } = _
    rw [h.machine]
    rfl
  exact ⟨hmachine, congrArg Machine.pc h.machine, h.halt, h.bytes⟩

theorem Alike.execute (h : Alike c d) :
    Alike c.execute.1 d.execute.1 ∧ c.execute.2 = d.execute.2 := by
  cases hdecode : Instruction.decode c.machine.opcode with
  | none =>
    have hu := Instruction.decode_eq_none_iff.mp hdecode
    rw [execute_of_unknown hu]
    rw [h.machine] at hu
    rw [execute_of_unknown hu]
    exact ⟨h, rfl⟩
  | some i =>
    have hi := Instruction.encodes_of_decode hdecode
    obtain ⟨hbyte, hbytes⟩ := h.drawFor i
    rw [execute_of_encodes hi]
    rw [h.machine] at hi
    rw [execute_of_encodes hi, carryOut, carryOut, hbyte, h.machine]
    exact ⟨⟨rfl, h.address, h.halt, hbytes⟩, rfl⟩

/-- The same fault halts them with the same record. -/
theorem Alike.failStep (h : Alike c d) (line line' : Option String) (f : Fault) :
    Alike (c.failStep line f).cpu (d.failStep line' f).cpu ∧
      (c.failStep line f).error = (d.failStep line' f).error := by
  have hhalt : c.haltFor f = d.haltFor f := by
    unfold haltFor report fullDump
    rw [h.machine, h.address]
  unfold Cpu.failStep
  cases f.halts with
  | true =>
    simp only [if_true, stop, hhalt]
    exact ⟨⟨h.machine, h.address, rfl, h.bytes⟩, trivial⟩
  | false => exact ⟨h, rfl⟩

theorem Alike.step (h : Alike c d) (h0 : 0 ≤ c.machine.pc) :
    Alike c.step.cpu d.step.cpu ∧ c.step.error = d.step.error := by
  have h0' : 0 ≤ d.machine.pc := by rw [← h.machine]; exact h0
  cases hh : c.halt with
  | some halt =>
    rw [step_of_halt hh, step_of_halt (h.halt.symm.trans hh)]
    exact ⟨h, rfl⟩
  | none =>
    have hh' : d.halt = none := h.halt.symm.trans hh
    rcases Int.lt_or_le 0xFFE c.machine.pc with hlt | hle
    · have hlt' : 0xFFE < d.machine.pc := by rw [← h.machine]; exact hlt
      have hstart : Alike { c with address := c.machine.pc } { d with address := d.machine.pc } :=
        ⟨h.machine, congrArg Machine.pc h.machine, h.halt, h.bytes⟩
      rw [step_of_lt hh hlt, step_of_lt hh' hlt', ← h.machine]
      rw [← h.machine] at hstart
      exact hstart.failStep none none _
    · have hle' : d.machine.pc ≤ 0xFFE := by rw [← h.machine]; exact hle
      obtain ⟨hafter, hfault⟩ := h.fetched.execute
      rw [step_of_le hh h0 hle, step_of_le hh' h0' hle']
      revert hafter hfault
      rcases c.fetched.execute with ⟨c', _ | f⟩ <;> rcases d.fetched.execute with ⟨d', _ | f'⟩
      · intro hafter _
        exact ⟨hafter, rfl⟩
      · intro _ hfault
        cases hfault
      · intro _ hfault
        cases hfault
      · intro hafter hfault
        cases hfault
        exact hafter.failStep _ _ f

/-! ## Whole histories -/

/-- Both do what a host asks alike, or refuse it for the same reason. -/
theorem Alike.act (h : Alike c d) (h0 : 0 ≤ c.machine.pc) (a : HostAction) :
    Alike (c.act a) (d.act a) ∧ c.refusal? a = d.refusal? a := by
  cases a with
  | step =>
    obtain ⟨hafter, herror⟩ := h.step h0
    exact ⟨hafter, congrArg (Option.map HostFault.processor) herror⟩
  | load program =>
    obtain ⟨hafter, hfault⟩ := h.load program
    exact ⟨hafter, congrArg (Option.map HostFault.load) hfault⟩
  | tick => exact ⟨h.change Machine.tick, rfl⟩
  | reset => exact ⟨h.reset, rfl⟩
  | press key =>
    rw [Cpu.act, Cpu.act, refusal?, refusal?, h.machine]
    exact ⟨h.withKeypad _, rfl⟩
  | release key =>
    rw [Cpu.act, Cpu.act, refusal?, refusal?, h.machine]
    exact ⟨h.withKeypad _, rfl⟩
  | setKeys states =>
    rw [Cpu.act, Cpu.act, refusal?, refusal?, h.machine]
    exact ⟨h.withKeypad _, rfl⟩
  | clearKeys => exact ⟨h.withKeypad (.ok .released), rfl⟩
  | togglePixel x y =>
    rw [refusal?, refusal?, h.machine]
    exact ⟨h.toggling x y, rfl⟩
  | clearScreen => exact ⟨h.change fun m => { m with screen := m.screen.clear }, rfl⟩

/-- They stay alike, whatever a host goes on to ask of both. -/
theorem Alike.actAll (h : Alike c d) (hr : c.Reachable) (actions : List HostAction) :
    Alike (c.actAll actions) (d.actAll actions) := by
  induction actions generalizing c d with
  | nil => exact h
  | cons a actions ih => exact ih (h.act hr.bounded.pc.1 a).1 (hr.act a)

end Cpu

end Chip8
