import Chip8.Proofs.Alike
import Chip8.Proofs.Dumps

/-!
# Chip8.Proofs.Tracing — what live tracing shows, and that it does nothing else

A line is due for a step of a processor that has not halted, once the fetch has succeeded: it shows
the registers, the index and the timers as they are before the step, the address fetched from, and
the word fetched (`Traces`).  What it shows is found by reading it (`StateDump.Shows`).  A traced
processor prints the line that is due (`traces_printed`) and an untraced one prints nothing
(`printed_of_untraced`), whatever becomes of the instruction.  Nothing but the printing depends on
the tracing, so the two stay alike through any history (`tracing_harmless`).
-/

namespace Chip8.Cpu

variable {ρ σ : Type} [ByteSource ρ] [ByteSource σ]

/-! ## Looking on -/

/-- What an onlooker sees in a history, who looks at the processor before each action. -/
def during {α : Type} (look : Cpu ρ → HostAction → α) (c : Cpu ρ) : List HostAction → List α
  | [] => []
  | a :: actions => look c a :: during look (c.act a) actions

/-- What an action prints. -/
def printed? (c : Cpu ρ) : HostAction → Option String
  | .step => c.step.line
  | _ => none

/-- The processor before each action of a history, and the action. -/
def moments (c : Cpu ρ) (actions : List HostAction) : List (Cpu ρ × HostAction) :=
  c.during Prod.mk actions

/-- What a traced processor owes its host for an action.  For a step that is not refused, and that
can fetch, this is one line; it shows the registers, the index and the timers before the step, the
address fetched from, and the word fetched.  For anything else it is nothing. -/
inductive Traces (c : Cpu ρ) : HostAction → Option String → Prop where
  | line {word : Int} {text : String} (hh : c.halt = none) (hf : c.machine.fetch = .ok word)
      (hs : StateDump.Shows text.toList ⟨c.machine.v, c.machine.index, c.machine.delay,
        c.machine.sound, c.machine.pc, word⟩) : Traces c .step (some text)
  | refused {halt : Halt} (hh : c.halt = some halt) : Traces c .step none
  | unfetched {fault : MemoryFault} (hf : c.machine.fetch = .error fault) : Traces c .step none
  | quiet {a : HostAction} (ha : a ≠ .step) : Traces c a none

theorem during_eq_map {α : Type} (look : Cpu ρ → HostAction → α) (c : Cpu ρ)
    (actions : List HostAction) :
    c.during look actions = (c.moments actions).map (Function.uncurry look) := by
  unfold moments
  induction actions generalizing c with
  | nil => rfl
  | cons a actions ih =>
    rw [during, during, List.map_cons, ih]
    rfl

theorem length_moments (c : Cpu ρ) (actions : List HostAction) :
    (c.moments actions).length = actions.length := by
  unfold moments
  induction actions generalizing c with
  | nil => rfl
  | cons a actions ih => rw [during, List.length_cons, List.length_cons, ih]

/-! ## Tracing is settled for good -/

omit [ByteSource ρ] in
@[simp] theorem failStep_traced (c : Cpu ρ) (line : Option String) (f : Fault) :
    (c.failStep line f).cpu.traced = c.traced := by
  unfold failStep
  split_ifs <;> rfl

omit [ByteSource ρ] in
@[simp] theorem failStep_line (c : Cpu ρ) (line : Option String) (f : Fault) :
    (c.failStep line f).line = line := by
  unfold failStep
  split_ifs <;> rfl

omit [ByteSource ρ] in
theorem withKeypad_traced (c : Cpu ρ) (r : Except KeypadFault Keypad) :
    (c.withKeypad r).traced = c.traced := by
  cases r <;> rfl

theorem execute_traced (c : Cpu ρ) : c.execute.1.traced = c.traced := by
  unfold execute
  split <;> rfl

theorem step_traced {c : Cpu ρ} (h0 : 0 ≤ c.machine.pc) : c.step.cpu.traced = c.traced := by
  cases hh : c.halt with
  | some halt => rw [step_of_halt hh]
  | none =>
    rcases Int.lt_or_le 0xFFE c.machine.pc with hlt | hle
    · rw [step_of_lt hh hlt, failStep_traced]
    · have hkeeps : c.fetched.execute.1.traced = c.traced := c.fetched.execute_traced
      rw [step_of_le hh h0 hle, ← hkeeps]
      rcases c.fetched.execute with ⟨c', _ | f⟩
      · rfl
      · exact failStep_traced _ _ _

theorem act_traced {c : Cpu ρ} (h0 : 0 ≤ c.machine.pc) (a : HostAction) :
    (c.act a).traced = c.traced := by
  cases a with
  | step => exact step_traced h0
  | load program =>
    rw [act, loading, load]
    cases c.machine.load program <;> rfl
  | togglePixel x y =>
    rw [act, toggling]
    cases c.machine.screen.toggle x y <;> rfl
  | press key => exact withKeypad_traced c _
  | release key => exact withKeypad_traced c _
  | setKeys states => exact withKeypad_traced c _
  | clearKeys => exact withKeypad_traced c _
  | reset => rw [act, reset]
  | tick | clearScreen => rfl

/-! ## What is printed -/

/-- A step makes its line, if it does, once it has fetched, whatever becomes of the instruction. -/
theorem step_line_of_le {c : Cpu ρ} (hh : c.halt = none) (h0 : 0 ≤ c.machine.pc)
    (hle : c.machine.pc ≤ 0xFFE) : c.step.line = c.fetched.trace := by
  rw [step_of_le hh h0 hle]
  rcases c.fetched.execute with ⟨c', _ | f⟩
  · rfl
  · exact failStep_line _ _ _

theorem traces_step {c : Cpu ρ} (h0 : 0 ≤ c.machine.pc) (hc : c.traced = true) :
    Traces c .step c.step.line := by
  cases hh : c.halt with
  | some halt =>
    rw [step_of_halt hh]
    exact .refused hh
  | none =>
    rcases Int.lt_or_le 0xFFE c.machine.pc with hlt | hle
    · rw [step_of_lt hh hlt, failStep_line]
      exact .unfetched (Machine.fetch_of_lt hlt)
    · -- the trace point stands after the fetch: the registers are old and the opcode is new
      have htrace : c.fetched.trace = some c.fetched.dump := if_pos hc
      rw [step_line_of_le hh h0 hle, htrace]
      exact .line hh (Machine.fetch_of_le h0 hle) (StateDump.line_shows _ _)

theorem step_line_of_untraced {c : Cpu ρ} (h0 : 0 ≤ c.machine.pc) (hc : c.traced = false) :
    c.step.line = none := by
  cases hh : c.halt with
  | some halt => rw [step_of_halt hh]
  | none =>
    rcases Int.lt_or_le 0xFFE c.machine.pc with hlt | hle
    · rw [step_of_lt hh hlt, failStep_line]
    · rw [step_line_of_le hh h0 hle]
      exact if_neg (Bool.eq_false_iff.mp hc)

theorem traces_printed {c : Cpu ρ} (h0 : 0 ≤ c.machine.pc) (hc : c.traced = true)
    (a : HostAction) : Traces c a (c.printed? a) := by
  cases a with
  | step => exact traces_step h0 hc
  | tick | load _ | reset | press _ | release _ | setKeys _ | clearKeys | togglePixel _ _
  | clearScreen => exact .quiet HostAction.noConfusion

theorem printed_of_untraced {c : Cpu ρ} (h0 : 0 ≤ c.machine.pc) (hc : c.traced = false)
    (a : HostAction) : c.printed? a = none := by
  cases a with
  | step => exact step_line_of_untraced h0 hc
  | _ => rfl

/-- At every moment of a history the processor is traced as in the beginning. -/
theorem traced_of_moment {c : Cpu ρ} (hb : c.machine.Bounded) {actions : List HostAction}
    {m : Cpu ρ × HostAction} (hm : m ∈ c.moments actions) :
    0 ≤ m.1.machine.pc ∧ m.1.traced = c.traced := by
  induction actions generalizing c with
  | nil => cases hm
  | cons a actions ih =>
    rcases List.mem_cons.mp hm with rfl | hm
    · exact ⟨hb.pc.1, rfl⟩
    · obtain ⟨h0, htraced⟩ := ih (bounded_act hb a) hm
      exact ⟨h0, htraced.trans (act_traced hb.pc.1 a)⟩

/-! ## Two runs -/

theorem Alike.refusals {c : Cpu ρ} {d : Cpu σ} (h : Alike c d) (hr : c.Reachable)
    (actions : List HostAction) : c.during refusal? actions = d.during refusal? actions := by
  induction actions generalizing c d with
  | nil => rfl
  | cons a actions ih =>
    obtain ⟨hafter, hrefusal⟩ := h.act hr.bounded.pc.1 a
    rw [during, during, hrefusal, ih hafter (hr.act a)]

/-- **Live tracing is faithful and harmless.**  A traced processor and an untraced one that are
alike to begin with stay alike through any history, and every action is refused to both for the same
reason or to neither.  Action by action, the traced one prints the line that is due, for steps that
succeed and steps that fail alike, and nothing where none is due; the untraced one never prints. -/
theorem tracing_harmless {c : Cpu ρ} {d : Cpu σ} (hr : c.Reachable) (h : Alike c d)
    (hc : c.traced = true) (hd : d.traced = false) (actions : List HostAction) :
    Alike (c.actAll actions) (d.actAll actions) ∧
      c.during refusal? actions = d.during refusal? actions ∧
      List.Forall₂ (Function.uncurry Traces) (c.moments actions) (c.during printed? actions) ∧
      d.during printed? actions = List.replicate actions.length none := by
  have hb : d.machine.Bounded := h.machine ▸ hr.bounded
  refine ⟨h.actAll hr actions, h.refusals hr actions, ?_, ?_⟩
  · rw [during_eq_map, List.forall₂_map_right_iff, List.forall₂_same]
    intro m hm
    obtain ⟨h0, htraced⟩ := traced_of_moment hr.bounded hm
    exact traces_printed h0 (htraced.trans hc) m.2
  · rw [during_eq_map, ← d.length_moments, List.map_eq_replicate_iff]
    intro m hm
    obtain ⟨h0, htraced⟩ := traced_of_moment hb hm
    exact printed_of_untraced h0 (htraced.trans hd) m.2

/-- A processor with a program that sets `VA`, waits for a key, and goes on to `FFFF`. -/
def atKeyWait (traced : Bool) : Cpu CyclicBytes :=
  (create (.powerOn .wrap) (.ofList [0]) traced).act
    (.load [0x6A, 0x05, 0xF0, 0x0A, 0xFF, 0xFF])

/-- The wait is stepped before and after the key goes down, and the halted processor once more. -/
def keyWaitHistory : List HostAction := [.step, .tick, .step, .press 3, .step, .step, .step]

/-- The state at the wait, which `VA` has been set before. -/
def keyWaitLine : String :=
  "V: 0x00000000000500000000000000000000 I: 0x0000 DT: 0x00 ST: 0x00 PC: 0x202 OP: 0xf00a"

/-- The numbers in it. -/
def waitFields : StateDump.Fields :=
  ⟨(Vector.replicate 16 0).set 0xA 5, 0, 0, 0, 0x202, 0xF00A⟩

/-- The processor at the wait. -/
def atWait : Cpu CyclicBytes := (atKeyWait true).actAll [.step, .tick]

/-- The wait is traced each time it is stepped, the opcode that halts is traced as well, and the
refused step is not.  The line of the wait shows that `VA` is five. -/
theorem tracing_harmless_key_wait :
    Alike ((atKeyWait true).actAll keyWaitHistory) ((atKeyWait false).actAll keyWaitHistory) ∧
      ((atKeyWait true).during printed? keyWaitHistory).map Option.isSome =
        [true, false, true, false, true, true, false] ∧
      ((atKeyWait true).during printed? keyWaitHistory)[2]? = some (some keyWaitLine) ∧
      StateDump.Shows keyWaitLine.toList waitFields ∧
      ((atKeyWait false).during printed? keyWaitHistory).map Option.isSome =
        List.replicate 7 false ∧
      ((atKeyWait false).during refusal? keyWaitHistory).map Option.isSome =
        [false, false, false, false, false, true, true] := by
  have hr : (atKeyWait true).Reachable := .act _ (.powerOn _ _ _)
  have hnew : Alike (create (.powerOn .wrap) (CyclicBytes.ofList [0]) true)
      (create (.powerOn .wrap) (CyclicBytes.ofList [0]) false) := ⟨rfl, rfl, rfl, fun _ => rfl⟩
  have h : Alike (atKeyWait true) (atKeyWait false) := (hnew.act (by decide) _).1
  obtain ⟨hlater, -, htraces, hsilent⟩ :=
    tracing_harmless hr h (by decide) (by decide) keyWaitHistory
  obtain ⟨hprinted, hwait, hrefused⟩ :
      ((atKeyWait true).during printed? keyWaitHistory).map Option.isSome =
          [true, false, true, false, true, true, false] ∧
        ((atKeyWait true).during printed? keyWaitHistory)[2]? = some (some keyWaitLine) ∧
        ((atKeyWait false).during refusal? keyWaitHistory).map Option.isSome =
          [false, false, false, false, false, true, true] := by
    decide +kernel
  obtain ⟨hfetch, hfields⟩ : atWait.machine.fetch = .ok 0xF00A ∧
      (⟨atWait.machine.v, atWait.machine.index, atWait.machine.delay, atWait.machine.sound,
        atWait.machine.pc, 0xF00A⟩ : StateDump.Fields) = waitFields := by
    decide +kernel
  -- the moment of the third action, and what is said of it
  have hmoment : Traces atWait .step (some keyWaitLine) := by
    have hlt : 2 < ((atKeyWait true).moments keyWaitHistory).length := by
      rw [length_moments]
      decide
    obtain ⟨hlt', hline⟩ := List.getElem?_eq_some_iff.mp hwait
    rw [← hline]
    exact htraces.get hlt hlt'
  cases hmoment with
  | line hh hf hs =>
    cases hfetch.symm.trans hf
    rw [hfields] at hs
    exact ⟨hlater, hprinted, hwait, hs, by rw [hsilent]; rfl, hrefused⟩

end Chip8.Cpu
