import Chip8.Proofs.Arithmetic
import Chip8.Proofs.Branching
import Mathlib.Order.Bounds.Basic

/-!
# Chip8.Proofs.Waiting — waiting for a key

While no key is down, the instruction that waits for one sets the program counter back to itself.
A processor that waits is therefore what it was, but for its timers, its keys and the opcode that it
has fetched (`Waited`), however often it is stepped, and however its timers run and its keys move
meanwhile.  Once keys are down, the next step takes the lowest of them and goes on (`key_wait`).
-/

namespace Chip8

namespace Keypad

/-- The keys that are down. -/
def held (p : Keypad) : Set Key := {k | p.down.get k = true}

theorem isLeast_of_lowest {p : Keypad} {k : Key} (h : p.lowest? = some k) : IsLeast p.held k := by
  obtain ⟨rest, hpressed⟩ := List.head?_eq_some_iff.mp h
  have hmem : ∀ j, j ∈ k :: rest ↔ j ∈ p.held := by
    intro j
    rw [← hpressed, pressed, List.mem_filter]
    exact and_iff_right (List.mem_finRange j)
  have hsorted : (k :: rest).Pairwise (· < ·) := by
    rw [← hpressed]
    exact (List.pairwise_lt_finRange 16).filter _
  refine ⟨(hmem k).mp List.mem_cons_self, ?_⟩
  intro j hj
  rcases List.mem_cons.mp ((hmem j).mpr hj) with rfl | hrest
  · exact Fin.le_refl _
  · exact Fin.le_of_lt (List.rel_of_pairwise_cons hsorted hrest)

theorem lowest_of_held_eq_empty {p : Keypad} (h : p.held = ∅) : p.lowest? = none := by
  apply (Instruction.lowest_eq_none_iff p).mpr
  intro k
  have hk : k ∉ p.held := by simp [h]
  simpa [held] using hk

theorem exists_lowest_of_nonempty {p : Keypad} (h : p.held.Nonempty) :
    ∃ k, p.lowest? = some k := by
  obtain ⟨j, hj⟩ := h
  cases hlowest : p.lowest? with
  | some k => exact ⟨k, rfl⟩
  | none =>
    have hup := (Instruction.lowest_eq_none_iff p).mp hlowest j
    rw [show p.down.get j = true from hj] at hup
    cases hup

end Keypad

namespace HostAction

/-- The action is a step of the timers. -/
def isTick : HostAction → Bool
  | tick => true
  | _ => false

theorem isTick_iff {a : HostAction} : a.isTick = true ↔ a = .tick := by
  cases a <;> simp [isTick]

/-- How many of the actions are steps of the timers. -/
def ticks (actions : List HostAction) : Nat := actions.countP isTick

theorem ticks_cons (a : HostAction) (actions : List HostAction) :
    ticks (a :: actions) = ticks [a] + ticks actions := by
  have hsplit : a :: actions = [a] ++ actions := rfl
  unfold ticks
  rw [hsplit, List.countP_append]

theorem ticks_of_ne_tick {a : HostAction} (h : a ≠ .tick) : ticks [a] = 0 := by
  simp [ticks, isTick_iff, h]

end HostAction

namespace Cpu

open HostAction (ticks)

variable {ρ : Type} {c d : Cpu ρ} {x : Reg} {n : Nat} {a : HostAction} {actions : List HostAction}

/-! ## One step -/

/-- The processor runs, and the next instruction waits for a key and puts it into `Vx`. -/
structure AwaitsKey (x : Reg) (c : Cpu ρ) : Prop where
  running : c.halt = none
  fetches : ∃ op, c.machine.fetch = .ok op ∧ (Instruction.awaitKey x).Encodes op

/-- `d` is what waiting leaves of `c` while the timers have made `n` steps. -/
structure Waited (n : Nat) (c d : Cpu ρ) : Prop where
  running : d.halt = none
  pc : d.machine.pc = c.machine.pc
  registers : d.machine.v = c.machine.v
  index : d.machine.index = c.machine.index
  stack : d.machine.stack = c.machine.stack
  memory : d.machine.ram = c.machine.ram
  screen : d.machine.screen = c.machine.screen
  source : d.source = c.source
  delay : d.machine.delay = max 0 (c.machine.delay - n)
  sound : d.machine.sound = max 0 (c.machine.sound - n)

theorem waited_zero (hb : c.machine.Bounded) (hh : c.halt = none) : Waited 0 c c := by
  have hdelay := hb.delay.1
  have hsound := hb.sound.1
  exact ⟨hh, rfl, rfl, rfl, rfl, rfl, rfl, rfl, by omega, by omega⟩

theorem Waited.tick (h : Waited n c d) : Waited (n + 1) c d.tick := by
  obtain ⟨hh, hpc, hregisters, hindex, hstack, hmemory, hscreen, hsource, hdelay, hsound⟩ := h
  refine ⟨hh, hpc, hregisters, hindex, hstack, hmemory, hscreen, hsource, ?_, ?_⟩
  · show (if 0 < d.machine.delay then d.machine.delay - 1 else d.machine.delay) = _
    split_ifs <;> omega
  · show (if 0 < d.machine.sound then d.machine.sound - 1 else d.machine.sound) = _
    split_ifs <;> omega

theorem Waited.withKeypad (h : Waited n c d) (keypad : Keypad) :
    Waited n c { d with machine := { d.machine with keypad } } :=
  ⟨h.running, h.pc, h.registers, h.index, h.stack, h.memory, h.screen, h.source, h.delay, h.sound⟩

theorem Waited.awaitsKey (h : Waited n c d) (hc : c.AwaitsKey x) : d.AwaitsKey x := by
  obtain ⟨op, hop, hi⟩ := hc.fetches
  refine ⟨h.running, op, ?_, hi⟩
  unfold Machine.fetch
  rw [h.memory, h.pc]
  exact hop

variable [ByteSource ρ]

/-- The instruction never fails, and draws no random byte. -/
theorem step_awaitKey (h : c.AwaitsKey x) :
    c.step.error = none ∧ c.step.cpu.halt = none ∧ c.step.cpu.source = c.source ∧
      ∃ op b, c.step.cpu.machine = ((Instruction.awaitKey x).execute b (c.enter op).machine).1 := by
  obtain ⟨op, hop, hi⟩ := h.fetches
  let f := { c with address := c.machine.pc }.enter op
  have hs := step_of_fetch h.running hop
  have hexecute : f.execute = f.carryOut (.awaitKey x) := execute_of_encodes hi
  have hdone : (f.carryOut (.awaitKey x)).2 = none := by
    rw [carryOut, Instruction.execute]
    split
    · rfl
    · rfl
  rw [hexecute] at hs
  split at hs
  · rename_i hcarried
    obtain ⟨rfl, -⟩ := Prod.mk.inj hcarried
    rw [hs]
    exact ⟨rfl, h.running, rfl, op, _, rfl⟩
  · rename_i hcarried
    rw [hcarried] at hdone
    cases hdone

/-- While no key is down a step changes nothing but the fetched opcode. -/
theorem Waited.step (h : Waited n c d) (hc : c.AwaitsKey x) (hup : d.machine.keypad.held = ∅) :
    d.step.error = none ∧ Waited n c d.step.cpu := by
  obtain ⟨hdone, hh, hsource, op, b, hmachine⟩ := step_awaitKey (h.awaitsKey hc)
  have hnone : (d.enter op).machine.keypad.lowest? = none := Keypad.lowest_of_held_eq_empty hup
  rw [Instruction.execute, hnone] at hmachine
  have hpc : (d.enter op).machine.rewind.pc = c.machine.pc := by
    show d.machine.pc + 2 - 2 = c.machine.pc
    rw [h.pc]
    omega
  refine ⟨hdone, hh, ?_, ?_, ?_, ?_, ?_, ?_, hsource.trans h.source, ?_, ?_⟩ <;> rw [hmachine]
  · exact hpc
  · exact h.registers
  · exact h.index
  · exact h.stack
  · exact h.memory
  · exact h.screen
  · exact h.delay
  · exact h.sound

/-! ## Runs -/

/-- What is played between the steps keeps the processor waiting, whatever keys it moves. -/
theorem Waited.played (h : Waited n c d) (hplay : a.InPlay) (hstep : a ≠ .step) :
    Waited (n + ticks [a]) c (d.act a) := by
  by_cases htick : a = .tick
  · rw [htick]
    exact h.tick
  · obtain ⟨keypad, hact⟩ := (act_of_inPlay (c := d) hplay hstep).resolve_left htick
    rw [hact, HostAction.ticks_of_ne_tick htick]
    exact h.withKeypad keypad

theorem Waited.playedAll (h : Waited n c d) (hplay : ∀ a ∈ actions, a.InPlay ∧ a ≠ .step) :
    Waited (n + ticks actions) c (d.actAll actions) := by
  induction actions generalizing d n with
  | nil => exact h
  | cons a actions ih =>
    obtain ⟨⟨ha, hstep⟩, hrest⟩ := List.forall_mem_cons.mp hplay
    rw [HostAction.ticks_cons, ← Nat.add_assoc]
    exact ih (h.played ha hstep) hrest

/-- No key is down at the start, nor after any of the actions. -/
def StaysReleased (c : Cpu ρ) (actions : List HostAction) : Prop :=
  ∀ before after, actions = before ++ after → (c.actAll before).machine.keypad.held = ∅

theorem StaysReleased.tail (h : StaysReleased c (a :: actions)) :
    StaysReleased (c.act a) actions := by
  intro before after hsplit
  exact h (a :: before) after (by rw [hsplit, List.cons_append])

theorem StaysReleased.left {before after : List HostAction}
    (h : StaysReleased c (before ++ after)) : StaysReleased c before := by
  intro first rest hsplit
  exact h first (rest ++ after) (by rw [hsplit, List.append_assoc])

/-- A run through which no key is down leaves the processor waiting. -/
theorem waited_actAll (h : Waited n c d) (hc : c.AwaitsKey x) (hplay : ∀ a ∈ actions, a.InPlay)
    (hup : StaysReleased d actions) : Waited (n + ticks actions) c (d.actAll actions) := by
  induction actions generalizing d n with
  | nil => exact h
  | cons a actions ih =>
    obtain ⟨ha, hrest⟩ := List.forall_mem_cons.mp hplay
    have hfirst : Waited (n + ticks [a]) c (d.act a) := by
      by_cases hstep : a = .step
      · rw [hstep]
        exact (h.step hc (hup [] _ rfl)).2
      · exact h.played ha hstep
    rw [HostAction.ticks_cons, ← Nat.add_assoc]
    exact ih hfirst hrest hup.tail

/-- With keys down the step takes the lowest of them and goes on. -/
theorem Waited.taken (h : Waited n c d) (hc : c.AwaitsKey x)
    (hdown : d.machine.keypad.held.Nonempty) :
    d.step.error = none ∧
      (∃ k, IsLeast d.machine.keypad.held k ∧ d.step.cpu.machine.value x = k.val) ∧
      d.step.cpu.machine.pc = c.machine.pc + 2 ∧
      (∀ r, r ≠ x → d.step.cpu.machine.reg r = c.machine.reg r) ∧
      d.step.cpu.machine.keypad = d.machine.keypad := by
  obtain ⟨hdone, -, -, op, b, hmachine⟩ := step_awaitKey (h.awaitsKey hc)
  obtain ⟨k, hk⟩ := Keypad.exists_lowest_of_nonempty hdown
  have hlowest : (d.enter op).machine.keypad.lowest? = some k := hk
  rw [Instruction.execute, hlowest] at hmachine
  simp only at hmachine
  refine ⟨hdone, ⟨k, Keypad.isLeast_of_lowest hk, ?_⟩, ?_, ?_, ?_⟩ <;> rw [hmachine]
  · rw [Machine.value_setReg, UInt8.toNat_ofNat_of_lt']
    exact Nat.lt_trans k.isLt (by decide)
  · exact congrArg (· + 2) h.pc
  · intro r hr
    rw [Machine.reg_setReg, if_neg hr]
    exact congrArg (·[r]) h.registers
  · rfl

/-- **Waiting for a key.**  A processor that a host can arrive at is about to wait for a key, and no
key is down.  However it is stepped, its timers run and its keys move, as long as no key is down
after any of this, all steps succeed, and it is at the same instruction with the same registers,
index register, call stack, memory, screen and source of random bytes after each; only the timers
count down.  When keys have been put down then, the next step puts the lowest of them into the
register and goes on with the next instruction; the other registers and the keys stay. -/
theorem key_wait (hr : c.Reachable) (hc : c.AwaitsKey x) (hplay : ∀ a ∈ actions, a.InPlay)
    (hup : StaysReleased c actions) :
    (∀ before after, actions = before ++ after → Waited (ticks before) c (c.actAll before)) ∧
      (∀ before after, actions = before ++ .step :: after →
        (c.actAll before).step.error = none) ∧
      ∀ moves d, (∀ a ∈ moves, a.InPlay ∧ a ≠ .step) → d = (c.actAll actions).actAll moves →
        d.machine.keypad.held.Nonempty →
          d.step.error = none ∧
            (∃ k, IsLeast d.machine.keypad.held k ∧ d.step.cpu.machine.value x = k.val) ∧
            d.step.cpu.machine.pc = c.machine.pc + 2 ∧
            (∀ r, r ≠ x → d.step.cpu.machine.reg r = c.machine.reg r) ∧
            d.step.cpu.machine.keypad = d.machine.keypad := by
  have hstart := waited_zero hr.bounded hc.running
  have hwaited : ∀ before after, actions = before ++ after →
      Waited (ticks before) c (c.actAll before) := by
    rintro before after rfl
    obtain ⟨hbefore, -⟩ := List.forall_mem_append.mp hplay
    have h := waited_actAll hstart hc hbefore hup.left
    rwa [Nat.zero_add] at h
  refine ⟨hwaited, ?_, ?_⟩
  · intro before after hsplit
    exact ((hwaited before _ hsplit).step hc (hup before _ hsplit)).1
  · rintro moves d hmoves rfl hdown
    have hwait := (hwaited actions [] (List.append_nil actions).symm).playedAll hmoves
    exact hwait.taken hc hdown

/-- A processor whose delay timer is at 3, and which is about to wait for a key for `V5`. -/
def aboutToWait : Cpu CyclicBytes :=
  (create (.powerOn .linear) (.ofList []) false).actAll
    [.load [0x60, 0x03, 0xF0, 0x15, 0xF5, 0x0A], .step, .step]

/-- It waits for two steps and one step of the timers.  Then two keys go down, the higher one
first. -/
theorem key_wait_two_keys :
    (aboutToWait.actAll [.step, .tick, .release 7, .step]).machine.delay = 2 ∧
      ∃ d, d = (aboutToWait.actAll [.step, .tick, .release 7, .step]).actAll [.press 9, .press 4] ∧
        d.step.cpu.machine.value 5 = 4 ∧ d.step.cpu.machine.pc = 0x206 := by
  have hr : aboutToWait.Reachable := Reachable.actAll (.powerOn _ _ _) _
  obtain ⟨hh, hop, hpc, hdelay⟩ : aboutToWait.halt = none ∧
      aboutToWait.machine.fetch = .ok 0xF50A ∧ aboutToWait.machine.pc = 0x204 ∧
      aboutToWait.machine.delay = 3 := by
    decide +kernel
  have hc : aboutToWait.AwaitsKey 5 := ⟨hh, 0xF50A, hop, by decide, by decide, by decide⟩
  have hreleased : ∀ n ≤ 4,
      (aboutToWait.actAll (List.take n [.step, .tick, .release 7, .step])).machine.keypad =
        .released := by
    decide +kernel
  have hempty : Keypad.released.held = ∅ := by
    have hnone : ∀ k : Key, Keypad.released.down.get k = false := by decide
    apply Set.eq_empty_of_forall_notMem
    intro k hk
    exact Bool.false_ne_true ((hnone k).symm.trans hk)
  have hup : StaysReleased aboutToWait [.step, .tick, .release 7, .step] := by
    intro before after hsplit
    have hlength := congrArg List.length hsplit
    rw [List.length_append] at hlength
    have hkeypad := hreleased before.length (by simp at hlength; omega)
    rw [hsplit, List.take_left] at hkeypad
    rw [hkeypad]
    exact hempty
  have hlowest : ((aboutToWait.actAll [.step, .tick, .release 7, .step]).actAll
      [.press 9, .press 4]).machine.keypad.lowest? = some 4 := by
    decide +kernel
  have hfour := Keypad.isLeast_of_lowest hlowest
  obtain ⟨hwaited, -, hthen⟩ := key_wait hr hc (by simp [HostAction.InPlay]) hup
  have hwait := hwaited [.step, .tick, .release 7, .step] [] rfl
  obtain ⟨-, ⟨k, hleast, hvalue⟩, hnext, -⟩ := hthen [.press 9, .press 4] _
    (by simp [HostAction.InPlay]) rfl ⟨4, hfour.1⟩
  have hk : k = 4 := Fin.le_antisymm (hleast.2 hfour.1) (hfour.2 hleast.1)
  refine ⟨?_, _, rfl, ?_, ?_⟩
  · rw [hwait.delay, hdelay]
    rfl
  · rw [hvalue, hk]
    rfl
  · rw [hnext, hpc]
    rfl

end Cpu

end Chip8
