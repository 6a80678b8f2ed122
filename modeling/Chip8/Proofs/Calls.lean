import Chip8.Proofs.Footprints

/-!
# Chip8.Proofs.Calls — calls return to where they came from

Only a call and a return change the call stack: the one puts the address after itself on it, the
other goes to the most recent address and takes it off (`step_stack_cases`).  What lies below stays,
however many calls and returns are nested, as long as the stack does not become lower than it
(`above_actAll`).  So the step that brings the stack back to the height it had before a call
is the return from that call (`call_returns`).
-/

namespace Chip8

open Opcode (family)

/-! ## Single instructions -/

namespace Machine

variable {m : Machine} {a : Int} {items : List Int}

theorem execute_call_of_full (h : 16 ≤ m.stack.items.length) (b : UInt8) (nnn : Int) :
    (Instruction.call nnn).execute b m = (m, some (.stack (.overflow 16))) := by
  rw [Instruction.execute, CallStack.push, if_pos (by omega)]

theorem execute_call_of_lt (h : m.stack.items.length < 16) (b : UInt8) (nnn : Int) :
    (Instruction.call nnn).execute b m =
      ({ m with pc := nnn, stack := ⟨m.pc :: m.stack.items⟩ }, none) := by
  rw [Instruction.execute, CallStack.push, if_neg (by omega)]

theorem execute_ret_of_nil (h : m.stack.items = []) (b : UInt8) :
    Instruction.ret.execute b m = (m, some (.stack .underflow)) := by
  rw [Instruction.execute, CallStack.pop, h]

theorem execute_ret_of_cons (h : m.stack.items = a :: items) (b : UInt8) :
    Instruction.ret.execute b m = ({ m with pc := a, stack := ⟨items⟩ }, none) := by
  rw [Instruction.execute, CallStack.pop, h]

end Machine

/-! ## One step -/

namespace Cpu

variable {ρ : Type} [ByteSource ρ] {c : Cpu ρ}

/-- The step has called: the address after the call is on the stack. -/
def Called (c : Cpu ρ) : Prop :=
  c.step.error = none ∧
    c.step.cpu.machine.stack.items = (c.machine.pc + 2) :: c.machine.stack.items

/-- The step has returned: the most recent address is off the stack, and the program counter is
there. -/
def Returned (c : Cpu ρ) : Prop :=
  c.machine.fetch = .ok 0x00EE ∧ c.step.error = none ∧
    c.machine.stack.items = c.step.cpu.machine.pc :: c.step.cpu.machine.stack.items

theorem step_call (hh : c.halt = none) (h0 : 0 ≤ c.machine.pc) (hle : c.machine.pc ≤ 0xFFE)
    (hf : family c.machine.word = 0x2) :
    c.step.cpu.machine.stack = c.machine.stack ∧ c.step.error ≠ none ∨ c.Called := by
  have hi : (Instruction.call (Opcode.nnn c.machine.word)).Encodes c.machine.word := ⟨hf, rfl⟩
  have hs := step_of_encodes hh h0 hle hi
  unfold Called
  rcases Nat.lt_or_ge c.machine.stack.items.length 16 with hlt | hfull
  · rw [carryOut, Machine.execute_call_of_lt (m := c.fetched.machine) hlt] at hs
    rw [hs]
    exact Or.inr ⟨rfl, rfl⟩
  · rw [carryOut, Machine.execute_call_of_full (m := c.fetched.machine) hfull] at hs
    rw [hs]
    exact Or.inl ⟨rfl, Option.some_ne_none _⟩

theorem step_ret (hh : c.halt = none) (h0 : 0 ≤ c.machine.pc) (hle : c.machine.pc ≤ 0xFFE)
    (hword : c.machine.word = 0x00EE) :
    c.step.cpu.machine.stack = c.machine.stack ∨ c.Returned := by
  have hi : Instruction.ret.Encodes c.machine.word := hword
  have hs := step_of_encodes hh h0 hle hi
  have hfetch := Machine.fetch_of_le h0 hle
  rw [hword] at hfetch
  unfold Returned
  cases hitems : c.machine.stack.items with
  | nil =>
    rw [carryOut, Machine.execute_ret_of_nil (m := c.fetched.machine) hitems] at hs
    rw [hs]
    exact Or.inl rfl
  | cons a items =>
    rw [carryOut, Machine.execute_ret_of_cons (m := c.fetched.machine) hitems] at hs
    rw [hs]
    exact Or.inr ⟨hfetch, rfl, rfl⟩

/-- A step leaves the call stack alone, or calls, or returns. -/
theorem step_stack_cases (hb : c.machine.Bounded) :
    c.step.cpu.machine.stack = c.machine.stack ∨ c.Called ∨ c.Returned := by
  cases hh : c.halt with
  | some halt =>
    rw [step_of_halt hh]
    exact Or.inl rfl
  | none =>
    rcases Int.lt_or_le 0xFFE c.machine.pc with hlt | hle
    · rw [step_of_lt hh hlt, failStep_machine]
      exact Or.inl rfl
    · by_cases hset : Opcode.SetsStack c.machine.word
      · rcases hset with hf | hword
        · rcases step_call hh hb.pc.1 hle hf with ⟨hsame, -⟩ | hcalled
          · exact Or.inl hsame
          · exact Or.inr (Or.inl hcalled)
        · rcases step_ret hh hb.pc.1 hle hword with hsame | hreturned
          · exact Or.inl hsame
          · exact Or.inr (Or.inr hreturned)
      · by_contra hother
        obtain ⟨hsame, -⟩ := not_or.mp hother
        exact hset ((step_within_of_le hb hh hle).1.stack hsame)

/-! ## Runs -/

/-- The call stack holds `base`, and possibly more recent addresses on top of it. -/
def Above (base : List Int) (c : Cpu ρ) : Prop := ∃ top, c.machine.stack.items = top ++ base

/-- A step after which the stack is not lower than `base` leaves `base` in its place. -/
theorem above_step {base : List Int} (hb : c.machine.Bounded) (h : c.Above base)
    (hdepth : base.length ≤ c.step.cpu.machine.stack.depth) : c.step.cpu.Above base := by
  obtain ⟨top, htop⟩ := h
  rcases step_stack_cases hb with hsame | ⟨-, hitems⟩ | ⟨-, -, hitems⟩
  · exact ⟨top, by rw [hsame, htop]⟩
  · exact ⟨(c.machine.pc + 2) :: top, by rw [hitems, htop, List.cons_append]⟩
  · cases top with
    | nil =>
      -- the return would have taken the top of `base` off
      have hlength := congrArg List.length (htop.symm.trans hitems)
      rw [List.nil_append, List.length_cons] at hlength
      unfold CallStack.depth at hdepth
      omega
    | cons a top =>
      rw [htop, List.cons_append] at hitems
      exact ⟨top, (List.cons.inj hitems).2.symm⟩

/-- What is played between the steps leaves the call stack alone. -/
theorem above_act {base : List Int} (h : c.Above base) {a : HostAction} (hplay : a.InPlay)
    (hstep : a ≠ .step) : (c.act a).Above base := by
  rcases act_of_inPlay (c := c) hplay hstep with rfl | ⟨keypad, hact⟩
  · exact h
  · rw [hact]
    exact h

/-- The stack is not lower than `height` after any step among the actions. -/
def StaysAbove (height : Nat) (c : Cpu ρ) (actions : List HostAction) : Prop :=
  ∀ before after, actions = before ++ .step :: after →
    height ≤ (c.actAll (before ++ [.step])).machine.stack.depth

theorem StaysAbove.tail {height : Nat} {a : HostAction} {actions : List HostAction}
    (h : StaysAbove height c (a :: actions)) : StaysAbove height (c.act a) actions := by
  intro before after hsplit
  exact h (a :: before) after (by rw [hsplit, List.cons_append])

/-- What the stack holds stays while the stack does not become lower than it. -/
theorem above_actAll {base : List Int} {actions : List HostAction} (hr : c.Reachable)
    (h : c.Above base) (hplay : ∀ a ∈ actions, a.InPlay)
    (hstays : StaysAbove base.length c actions) : (c.actAll actions).Above base := by
  induction actions generalizing c with
  | nil => exact h
  | cons a actions ih =>
    obtain ⟨ha, hrest⟩ := List.forall_mem_cons.mp hplay
    refine ih (hr.act a) ?_ hrest hstays.tail
    by_cases hstep : a = .step
    · subst hstep
      exact above_step hr.bounded h (hstays [] actions rfl)
    · exact above_act h ha hstep

/-- A step that brings the stack from above `a :: items` down to `items` returns to `a`. -/
theorem returned_of_depth {a : Int} {items : List Int} (hb : c.machine.Bounded)
    (h : c.Above (a :: items)) (hdepth : c.step.cpu.machine.stack.depth = items.length) :
    c.Returned ∧ c.step.cpu.machine.pc = a ∧ c.step.cpu.machine.stack.items = items := by
  obtain ⟨top, htop⟩ := h
  have hlength := congrArg List.length htop
  rw [List.length_append, List.length_cons] at hlength
  unfold CallStack.depth at hdepth
  rcases step_stack_cases hb with hsame | ⟨-, hitems⟩ | hreturned
  · rw [hsame] at hdepth
    omega
  · rw [hitems, List.length_cons] at hdepth
    omega
  · have hitems := hreturned.2.2
    rw [hitems, List.length_cons] at hlength
    have hnil : top = [] := List.length_eq_zero_iff.mp (by omega)
    rw [htop, hnil, List.nil_append] at hitems
    obtain ⟨hpc, hrest⟩ := List.cons.inj hitems
    exact ⟨hreturned, hpc.symm, hrest.symm⟩

/-- **Calls return to where they came from.**  A reachable processor carries out a call at `p`.
Steps, steps of the timers and moves of keys follow, the steps in any number and whatever they do,
and after each of them the stack is higher than it was before the call.  If the next step brings the
stack back to its height before the call, this step is a return that succeeds, the program counter
is then at `p + 2`, and the stack is what it was. -/
theorem call_returns (hr : c.Reachable) {op : Int} (hop : c.machine.fetch = .ok op)
    (hcall : family op = 0x2) (hdone : c.step.error = none) {actions : List HostAction}
    (hplay : ∀ a ∈ actions, a.InPlay)
    (hstays : StaysAbove (c.machine.stack.depth + 1) c.step.cpu actions)
    (hback : (c.step.cpu.actAll actions).step.cpu.machine.stack.depth = c.machine.stack.depth) :
    (c.step.cpu.actAll actions).machine.fetch = .ok 0x00EE ∧
      (c.step.cpu.actAll actions).step.error = none ∧
      (c.step.cpu.actAll actions).step.cpu.machine.pc = c.machine.pc + 2 ∧
      (c.step.cpu.actAll actions).step.cpu.machine.stack = c.machine.stack := by
  have hh := halt_of_step hdone
  have hfirst : c.Called := by
    rcases Int.lt_or_le 0xFFE c.machine.pc with hlt | hle
    · rw [Machine.fetch_of_lt hlt] at hop
      cases hop
    · rw [Machine.fetch_of_le hr.bounded.pc.1 hle] at hop
      cases hop
      rcases step_call hh hr.bounded.pc.1 hle hcall with ⟨-, hfails⟩ | hcalled
      · exact absurd hdone hfails
      · exact hcalled
  have hstart : c.step.cpu.Above ((c.machine.pc + 2) :: c.machine.stack.items) :=
    ⟨[], hfirst.2⟩
  have hr' : c.step.cpu.Reachable := hr.act .step
  have hend := above_actAll hr' hstart hplay hstays
  obtain ⟨⟨hret, hsucceeds, -⟩, hpc, hitems⟩ :=
    returned_of_depth (hr'.actAll actions).bounded hend hback
  exact ⟨hret, hsucceeds, hpc, congrArg CallStack.mk hitems⟩

/-- A processor about to carry out a call at `0x200`: the code at `0x204` calls on to `0x208`, and
returns at `0x206`. -/
def atNestedCalls : Cpu CyclicBytes :=
  (create (.powerOn .linear) (CyclicBytes.ofList []) false).act
    (.load [0x22, 0x04, 0x00, 0x00, 0x22, 0x08, 0x00, 0xEE, 0x00, 0xEE])

/-- The inner call and its return, a step of the timers and a key come between the outer call and
its return. -/
theorem call_returns_nested :
    (atNestedCalls.step.cpu.actAll [.step, .tick, .press 3, .step]).step.cpu.machine.pc = 0x202 ∧
      (atNestedCalls.step.cpu.actAll [.step, .tick, .press 3, .step]).step.cpu.machine.stack =
        .empty := by
  have hr : atNestedCalls.Reachable := .act _ (.powerOn _ _ _)
  obtain ⟨hop, hdone, hinner, houter, hback⟩ : atNestedCalls.machine.fetch = .ok 0x2204 ∧
      atNestedCalls.step.error = none ∧
      1 ≤ (atNestedCalls.step.cpu.actAll [.step]).machine.stack.depth ∧
      1 ≤ (atNestedCalls.step.cpu.actAll [.step, .tick, .press 3, .step]).machine.stack.depth ∧
      (atNestedCalls.step.cpu.actAll
        [.step, .tick, .press 3, .step]).step.cpu.machine.stack.depth = 0 := by
    decide +kernel
  have hstays : StaysAbove 1 atNestedCalls.step.cpu [.step, .tick, .press 3, .step] := by
    intro before after hsplit
    match before with
    | [] =>
      rw [List.nil_append]
      exact hinner
    | [_] => cases hsplit
    | [_, _] => cases hsplit
    | [_, _, _] =>
      cases hsplit
      simp only [List.cons_append, List.nil_append]
      exact houter
    | _ :: _ :: _ :: _ :: _ => simp at hsplit
  obtain ⟨-, -, hpc, hstack⟩ := call_returns hr hop (by decide) hdone
    (by simp [HostAction.InPlay]) hstays hback
  exact ⟨hpc, hstack⟩

end Cpu

end Chip8
