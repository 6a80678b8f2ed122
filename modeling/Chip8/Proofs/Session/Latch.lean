import Chip8.Proofs.PowerCycle
import Chip8.Proofs.Session.Accounts

/-!
# Chip8.Proofs.Session.Latch — a halt lasts until a reset

A processor that has halted refuses every step and is left by it as it was.  What else a host does
to it goes by the machine alone and does not look at the halt (`act_heedless`), and so none of it
touches the halt, the address at which it happened, or what an instruction would have touched
(`Stalled`).  A run that gets as far as a step ends at once (`run_of_halt`).  Only a reset lets the
processor go on (`halt_latched`).
-/

namespace Chip8

/-! ## The processor -/

namespace Cpu

variable {ρ : Type} {c d e : Cpu ρ} {h : Halt}

/-- `d` is `c` but for what a host changes from outside: no instruction has been carried out. -/
structure Stalled (c d : Cpu ρ) : Prop where
  halt : d.halt = c.halt
  address : d.address = c.address
  source : d.source = c.source
  machine : d.machine =
    { c.machine with
      ram := d.machine.ram, delay := d.machine.delay, sound := d.machine.sound
      keypad := d.machine.keypad, screen := d.machine.screen }

theorem Stalled.refl (c : Cpu ρ) : Stalled c c := ⟨rfl, rfl, rfl, rfl⟩

theorem Stalled.trans (h : Stalled c d) (h' : Stalled d e) : Stalled c e := by
  refine ⟨h'.halt.trans h.halt, h'.address.trans h.address, h'.source.trans h.source, ?_⟩
  have hmachine := h'.machine
  rw [h.machine] at hmachine
  exact hmachine

theorem stalled_tick (c : Cpu ρ) : Stalled c c.tick := ⟨rfl, rfl, rfl, rfl⟩

theorem stalled_shown (c : Cpu ρ) : Stalled c c.shown := ⟨rfl, rfl, rfl, rfl⟩

theorem stalled_withKeypad (c : Cpu ρ) (r : Except KeypadFault Keypad) :
    Stalled c (c.withKeypad r) := by
  unfold withKeypad
  cases r with
  | error fault => exact .refl c
  | ok keypad => exact ⟨rfl, rfl, rfl, rfl⟩

theorem stalled_toggling (c : Cpu ρ) (x y : Int) : Stalled c (c.toggling x y) := by
  unfold toggling
  cases c.machine.screen.toggle x y with
  | error fault => exact .refl c
  | ok r => exact ⟨rfl, rfl, rfl, rfl⟩

theorem stalled_loading (c : Cpu ρ) (program : List UInt8) : Stalled c (c.loading program) := by
  unfold loading load Machine.load
  by_cases hlong : Platform.maxProgramSize < program.length
  · rw [if_pos hlong]
    exact .refl c
  · rw [if_neg hlong]
    cases c.machine.ram.writeBlock Platform.startAddress program with
    | error fault => exact .refl c
    | ok ram => exact ⟨rfl, rfl, rfl, rfl⟩

theorem halt_of_failStep {line : Option String} {f : Fault}
    (he : (c.failStep line f).error = some (.halted h)) :
    (c.failStep line f).cpu.halt = some h := by
  unfold failStep at he ⊢
  split_ifs at he ⊢
  · cases he
    rfl
  · cases he

variable [ByteSource ρ]

/-- A step that halts puts the halt on record. -/
theorem halt_of_halted (hb : c.machine.Bounded) (he : c.step.error = some (.halted h)) :
    c.step.cpu.halt = some h := by
  cases hh : c.halt with
  | some halt =>
    rw [step_of_halt hh] at he
    cases he
  | none =>
    rcases step_cases hh hb.pc.1 with ⟨-, hs⟩ | ⟨-, -, hs⟩ | ⟨i, f, -, -, -, hs⟩ | ⟨i, -, -, -, hs⟩
      <;> rw [hs] at he ⊢
    · exact halt_of_failStep he
    · exact halt_of_failStep he
    · exact halt_of_failStep he
    · cases he

theorem stalled_step (hh : c.halt = some h) : Stalled c c.step.cpu := by
  rw [step_of_halt hh]
  exact .refl c

/-- Nothing but a reset gets a halted processor to go on. -/
theorem stalled_act (hh : c.halt = some h) {a : HostAction} (ha : a ≠ .reset) :
    Stalled c (c.act a) := by
  cases a with
  | step => exact stalled_step hh
  | tick => exact stalled_tick c
  | load program => exact stalled_loading c program
  | reset => exact absurd rfl ha
  | press key => exact stalled_withKeypad c _
  | release key => exact stalled_withKeypad c _
  | setKeys states => exact stalled_withKeypad c _
  | clearKeys => exact stalled_withKeypad c (.ok .released)
  | togglePixel x y => exact stalled_toggling c x y
  | clearScreen => exact ⟨rfl, rfl, rfl, rfl⟩

/-- What a host does, but for steps and resets, is the same whether or not the processor has halted,
and is refused for the same reasons. -/
theorem act_heedless (c : Cpu ρ) (halt : Option Halt) {a : HostAction} (hs : a ≠ .step)
    (hr : a ≠ .reset) :
    { c with halt }.act a = { c.act a with halt } ∧ { c with halt }.refusal? a = c.refusal? a := by
  have hkeys : ∀ r, { c with halt }.withKeypad r = { c.withKeypad r with halt } := by
    intro r
    cases r with
    | error fault => rfl
    | ok keypad => rfl
  cases a with
  | step => exact absurd rfl hs
  | reset => exact absurd rfl hr
  | tick => exact ⟨rfl, rfl⟩
  | load program =>
    simp only [act, refusal?, loading, load]
    cases c.machine.load program with
    | error fault => exact ⟨rfl, rfl⟩
    | ok machine => exact ⟨rfl, rfl⟩
  | press key => exact ⟨hkeys _, rfl⟩
  | release key => exact ⟨hkeys _, rfl⟩
  | setKeys states => exact ⟨hkeys _, rfl⟩
  | clearKeys => exact ⟨hkeys (.ok .released), rfl⟩
  | togglePixel x y =>
    refine ⟨?_, rfl⟩
    simp only [act, toggling]
    cases c.machine.screen.toggle x y with
    | error fault => rfl
    | ok r => rfl
  | clearScreen => exact ⟨rfl, rfl⟩

/-- Only a step records a halt. -/
theorem halt_actAll_of_running {actions : List HostAction} (hh : c.halt = none)
    (hs : .step ∉ actions) : (c.actAll actions).halt = none := by
  induction actions generalizing c with
  | nil => exact hh
  | cons a actions ih =>
    obtain ⟨ha, hrest⟩ := not_or.mp (mt List.mem_cons.mpr hs)
    refine ih ?_ hrest
    by_cases hr : a = .reset
    · rw [hr]
      rfl
    · obtain ⟨hsame, -⟩ := c.act_heedless none (Ne.symm ha) hr
      rw [← hh] at hsame
      rw [hsame, hh]

/-- A step is refused only if the processor has halted. -/
theorem not_refused (hr : c.Reachable) (hh : c.halt = none) :
    c.step.error ≠ some (.refused h) := by
  intro hrefused
  rcases step_accounted hr.bounded hh with ⟨hnone, -⟩ | ⟨h', k, hhalted, -⟩
  · cases hrefused.symm.trans hnone
  · cases hrefused.symm.trans hhalted

/-- The first step after a reset passes over the empty memory. -/
theorem step_reset (c : Cpu ρ) :
    c.reset.step.error = none ∧ c.reset.step.cpu.machine.pc = 0x202 := by
  have hword : c.reset.machine.word = 0 := by
    rw [reset_eq_create, create_machine, Machine.word_powerOn]
  have hpc : c.reset.machine.pc = 0x200 := rfl
  have hi : Instruction.native.Encodes c.reset.machine.word := by
    rw [hword]
    exact ⟨rfl, by decide, by decide⟩
  rw [step_of_encodes rfl (by rw [hpc]; decide) (by rw [hpc]; decide) hi]
  exact ⟨rfl, rfl⟩

end Cpu

/-! ## The session -/

namespace Session

open Cpu (Stalled)

variable {ρ : Type} [ByteSource ρ] {s t u : Session ρ} {h : Halt}

theorem stalled_of_move (hm : Move s t) (hh : s.cpu.halt = some h) : Stalled s.cpu t.cpu := by
  cases hm with
  | read now => exact .refl s.cpu
  | align now => exact .refl s.cpu
  | report now =>
    unfold reportIfDue
    split_ifs
    · exact .refl s.cpu
    · exact .refl s.cpu
  | poll => exact ⟨rfl, rfl, rfl, rfl⟩
  | display now => exact Cpu.stalled_shown s.cpu
  | tick => exact Cpu.stalled_tick s.cpu
  | step =>
    rw [stepCpu_eq]
    exact Cpu.stalled_step hh
  | count => exact .refl s.cpu
  | print text => exact .refl s.cpu
  | refresh => exact Cpu.stalled_shown s.cpu

theorem stalled_moves (hm : Moves s t) (hh : s.cpu.halt = some h) : Stalled s.cpu t.cpu := by
  refine hm.preserves (P := fun u => Stalled s.cpu u.cpu) (fun hm hs => ?_) (.refl s.cpu)
  exact hs.trans (stalled_of_move hm (hs.halt.trans hh))

theorem stalled_obeyAll {commands : List Command} (hh : s.cpu.halt = some h)
    (hno : .act .reset ∉ commands) (ht : s.obeyAll commands = some t) : Stalled s.cpu t.cpu := by
  refine obeyAll_preserves_of (P := fun u => Stalled s.cpu u.cpu) (A := (· ≠ .reset))
    (fun u a ha hs => ?_) (fun hm hs => ?_) ?_ (.refl s.cpu) ht
  · exact hs.trans (Cpu.stalled_act (hs.halt.trans hh) ha)
  · exact hs.trans (stalled_of_move hm (hs.halt.trans hh))
  · rintro a ha rfl
    exact hno ha

/-! ## The steps of a halted processor -/

/-- A step that the processor refuses because it has halted with `h`. -/
def Refused (h : Halt) (a : Step ρ) : Prop := a = ⟨a.cpu, none, some (.refused h)⟩

omit [ByteSource ρ] in
theorem error_of_refused {a : Step ρ} (ha : Refused h a) : a.error = some (.refused h) := by
  unfold Refused at ha
  rw [ha]

theorem refused_step (hh : s.cpu.halt = some h) : Refused h s.cpu.step := by
  rw [Cpu.step_of_halt hh]
  rfl

theorem Fed.refused {maxOps : Option Int} {now : Seconds} {phase : Phase} {steps : List (Step ρ)}
    {a : Advance ρ} (hf : Fed maxOps now s phase steps a) (hh : s.cpu.halt = some h) :
    ∀ a ∈ steps, Refused h a := by
  cases hf with
  | opened => exact List.forall_mem_nil _
  | quit hp hs => exact List.forall_mem_nil _
  | stepped hs =>
    have hstalled := stalled_moves (service_moves hs) hh
    exact List.forall_mem_singleton.mpr (refused_step (hstalled.halt.trans hh))
  | waited hlt hs => exact List.forall_mem_nil _
  | resumed hle => exact List.forall_mem_nil _

theorem refused_of_stepsFrom (hh : s.cpu.halt = some h) {maxOps : Option Int} {phase : Phase}
    {readings : Readings} : ∀ a ∈ s.stepsFrom maxOps phase readings, Refused h a := by
  induction readings generalizing s phase with
  | ended fault => exact List.forall_mem_nil _
  | failed fault rest => exact List.forall_mem_nil _
  | next now rest ih =>
    rw [stepsFrom]
    rcases hf : s.feed maxOps phase now with _ | ⟨phase', t⟩ | ⟨ending, t⟩
    · rw [stepsAt_of_stuck hf]
      exact List.forall_mem_nil _
    · have hafter := (stalled_moves (feed_moves hf) hh).halt.trans hh
      exact List.forall_mem_append.mpr ⟨(fed hf).refused hh, ih () hafter⟩
    · exact List.forall_mem_append.mpr ⟨(fed hf).refused hh, List.forall_mem_nil _⟩

/-- Whatever a host goes on to do but for a reset, every step is refused. -/
theorem refused_of_stepsOver {commands : List Command} (hh : s.cpu.halt = some h)
    (hno : .act .reset ∉ commands) : ∀ a ∈ s.stepsOver commands, Refused h a := by
  induction commands generalizing s with
  | nil => exact List.forall_mem_nil _
  | cons command commands ih =>
    obtain ⟨hfirst, hrest⟩ := not_or.mp (mt List.mem_cons.mpr hno)
    have hnow : ∀ a ∈ s.stepsOf command, Refused h a := by
      cases command with
      | act a =>
        cases a with
        | step => exact List.forall_mem_singleton.mpr (refused_step hh)
        | _ => exact List.forall_mem_nil _
      | refresh => exact List.forall_mem_nil _
      | service now => exact List.forall_mem_nil _
      | run maxOps readings => exact refused_of_stepsFrom hh
    rw [stepsOver]
    rcases ho : s.obey command with _ | t
    · exact List.forall_mem_append.mpr ⟨hnow, List.forall_mem_nil _⟩
    · have hobeyed : s.obeyAll [command] = some t :=
        obeyAll_cons.mpr ⟨t, ho, obeyAll_nil.mpr rfl⟩
      have hafter := (stalled_obeyAll hh (by simpa using hfirst) hobeyed).halt.trans hh
      exact List.forall_mem_append.mpr ⟨hnow, ih hafter hrest⟩

/-- A run that gets as far as a step comes to an end: the step fails. -/
theorem runFrom_returns (hh : s.cpu.halt = some h) {maxOps : Option Int} {phase : Phase}
    {readings : Readings} (hsteps : s.stepsFrom maxOps phase readings ≠ []) :
    ∃ f, s.runFrom maxOps phase readings = some f := by
  induction readings generalizing s phase with
  | ended fault => exact ⟨_, rfl⟩
  | failed fault rest => exact ⟨_, rfl⟩
  | next now rest ih =>
    rw [stepsFrom] at hsteps
    rw [runFrom]
    rcases hf : s.feed maxOps phase now with _ | ⟨phase', t⟩ | ⟨ending, t⟩
    · rw [stepsAt_of_stuck hf, hf] at hsteps
      exact absurd rfl hsteps
    · have hafter := (stalled_moves (feed_moves hf) hh).halt.trans hh
      -- a reading at which there was a step would not lead on
      have hnone : s.stepsAt phase now = [] := by
        have hfed := fed hf
        have hrefused := hfed.refused hh
        generalize s.stepsAt phase now = steps at hfed hrefused
        generalize ha : Advance.more phase' t = a at hfed
        cases hfed with
        | @stepped u hs =>
          have he := error_of_refused (List.forall_mem_singleton.mp hrefused)
          obtain ⟨ending, v, hover⟩ :=
            instruct_of_failing maxOps now (by rw [he]; exact Option.some_ne_none _)
          cases ha.trans hover
        | _ => rfl
      rw [hnone, hf] at hsteps
      exact ih () hafter hsteps
    · exact ⟨_, rfl⟩

/-- A run that gets as far as a step ends there, halted, and counts nothing. -/
theorem run_of_halt (hr : s.cpu.Reachable) (hh : s.cpu.halt = some h) (maxOps : Option Int)
    (readings : Readings) (hsteps : s.stepsOf (.run maxOps readings) ≠ []) :
    ∃ f, s.run maxOps readings = some f ∧ f.ending = .halted ∧ f.session.ops = s.ops := by
  have hrefused : ∀ a ∈ s.stepsOf (.run maxOps readings), a.error ≠ none := by
    intro a ha
    rw [error_of_refused (refused_of_stepsFrom hh a ha)]
    exact Option.some_ne_none _
  have hfirst : ∃ now rest, readings = .next now rest := by
    cases readings with
    | ended fault => exact absurd rfl hsteps
    | failed fault rest => exact absurd rfl hsteps
    | next now rest => exact ⟨now, rest, rfl⟩
  have hnone {steps : List (Step ρ)} (hd : ∀ a ∈ steps, a.error = none)
      (hr : ∀ a ∈ steps, a.error ≠ none) : steps = [] :=
    List.eq_nil_iff_forall_not_mem.mpr fun a ha => hr a ha (hd a ha)
  rw [stepsOf] at hsteps hrefused
  obtain ⟨f, hf⟩ := runFrom_returns hh hsteps
  obtain ⟨⟨t, hover, hlast⟩, -⟩ := runFrom_over hr (Or.inr hfirst) hf
  have hops : f.session.ops = t.ops := by
    rw [hlast]
    rfl
  refine ⟨f, hf, ?_⟩
  rw [hops]
  revert hover hsteps hrefused
  generalize s.stepsFrom maxOps .opening readings = steps
  generalize f.ending = ending
  intro hsteps hrefused hover
  cases hover with
  | quit hgoes hd => exact absurd (hnone hd hrefused) hsteps
  | full hgoes hd hl => exact absurd (hnone hd hrefused) hsteps
  | lost hgoes hd => exact absurd (hnone hd hrefused) hsteps
  | halted hgoes hd he hb =>
    -- no step comes before the one that fails, since that would have failed as well
    obtain ⟨events, ha⟩ := hgoes
    have hnil := hnone hd fun a ha => hrefused a (List.mem_append_left _ ha)
    have hcount := ha.ops
    rw [hnil, List.nil_append, List.countP_singleton, he] at hcount
    exact ⟨rfl, hcount⟩

/-- **A halt is a latch.**  A step has halted a processor that a host can arrive at.  At any moment
of any history without a reset, the processor still has the halt on record, and is as the halt left
it but for what a host changes from outside; another step is refused with the same halt, traces
nothing and leaves everything as it is, and so is every step in any such history, also in one that
never ends.  A run that gets as far as a step comes to an end there, halted, and counts nothing.
What else a host does has the effect that it has on a processor that runs.  After a reset the next
step succeeds; and whatever a host does instead of that step, the next one is not refused. -/
theorem halt_latched {c : Cpu ρ} (hr : c.Reachable) (he : c.step.error = some (.halted h))
    (hs : s.cpu = c.step.cpu) {commands : List Command} (hno : .act .reset ∉ commands)
    (hu : s.obeyAll commands = some u) (ht : Moves u t) :
    (t.cpu.halt = some h ∧ Stalled s.cpu t.cpu) ∧
      t.cpu.step = ⟨t.cpu, none, some (.refused h)⟩ ∧
      (∀ history, .act .reset ∉ history → ∀ a ∈ s.stepsOver history, Refused h a) ∧
      (∀ maxOps readings, t.stepsOf (.run maxOps readings) ≠ [] →
        ∃ f, t.run maxOps readings = some f ∧ f.ending = .halted ∧ f.session.ops = t.ops) ∧
      (∀ a : HostAction, a ≠ .step → a ≠ .reset →
        { t.cpu with halt := none }.act a = { t.cpu.act a with halt := none } ∧
          { t.cpu with halt := none }.refusal? a = t.cpu.refusal? a) ∧
      t.cpu.reset.step.error = none ∧
      ∀ actions, .step ∉ actions → (t.cpu.reset.actAll actions).halt = none ∧
        ∀ h', (t.cpu.reset.actAll actions).step.error ≠ some (.refused h') := by
  have hrs : s.cpu.Reachable := by
    rw [hs]
    exact hr.act .step
  have hhs : s.cpu.halt = some h := by
    rw [hs]
    exact Cpu.halt_of_halted hr.bounded he
  have hrt : t.cpu.Reachable := ht.preserves reachable_of_move (reachable_obeyAll hrs hu)
  have hcommands := stalled_obeyAll hhs hno hu
  have hstalled := hcommands.trans (stalled_moves ht (hcommands.halt.trans hhs))
  have hht : t.cpu.halt = some h := hstalled.halt.trans hhs
  refine ⟨⟨hht, hstalled⟩, Cpu.step_of_halt hht, fun history => refused_of_stepsOver hhs,
    run_of_halt hrt hht, fun a => t.cpu.act_heedless none, t.cpu.step_reset.1, ?_⟩
  intro actions hstep
  have hrunning := Cpu.halt_actAll_of_running (c := t.cpu.reset) rfl hstep
  exact ⟨hrunning, fun h' => Cpu.not_refused (t.cpu.reachable_reset.actAll actions) hrunning⟩

/-- A processor that traces and is about to return with nothing to return to. -/
def tracedBeforeReturn : Cpu CyclicBytes :=
  (Cpu.create (.powerOn .wrap) (.ofList []) true).act (.load [0x00, 0xEE])

/-- A session with it after the halt, when it has carried out seven instructions. -/
def haltedAtReturn : Session CyclicBytes where
  cpu := tracedBeforeReturn.step.cpu
  renderer := .headless none
  input := ⟨⟨[]⟩, [], 0⟩
  interval := none
  ops := 7
  nextTick := .zero
  nextDisplay := ⟨9⟩
  nextReport := ⟨9⟩
  framesSince := 0
  opsSince := 0
  journal := []

/-- A step of the timers, another program and a key do not get it to go on, and a run ends at its
first step. -/
theorem halt_latched_at_return :
    ∃ h, tracedBeforeReturn.step.error = some (.halted h) ∧
      (haltedAtReturn.cpu.actAll [.tick, .load [0x60, 0x01], .press 3]).step =
        ⟨haltedAtReturn.cpu.actAll [.tick, .load [0x60, 0x01], .press 3], none,
          some (.refused h)⟩ ∧
      ∃ f, haltedAtReturn.run (some 8) (.stillAt .zero) = some f ∧ f.ending = .halted ∧
        f.session.ops = 7 := by
  have hr : tracedBeforeReturn.Reachable := .act _ (.powerOn _ _ _)
  obtain ⟨hh, hfails⟩ : tracedBeforeReturn.halt = none ∧
      tracedBeforeReturn.step.error.isSome = true := by
    decide +kernel
  obtain ⟨h, he⟩ : ∃ h, tracedBeforeReturn.step.error = some (.halted h) := by
    rcases Cpu.step_accounted hr.bounded hh with ⟨hnone, -⟩ | ⟨h, k, hhalted, -⟩
    · rw [hnone] at hfails
      cases hfails
    · exact ⟨h, hhalted⟩
  have hcpu : haltedAtReturn.cpu = tracedBeforeReturn.step.cpu := by rw [haltedAtReturn]
  have hno : Command.act .reset ∉
      [.act .tick, .act (.load [0x60, 0x01]), .act (.press 3)] := by simp
  obtain ⟨-, hstep, -⟩ := halt_latched (s := haltedAtReturn) hr he hcpu hno rfl .refl
  obtain ⟨-, -, -, hrun, -⟩ :=
    halt_latched (s := haltedAtReturn) hr he hcpu List.not_mem_nil rfl .refl
  have hserves : (haltedAtReturn.opened .zero).Serves .zero 1 := by
    decide +kernel
  have hsteps : haltedAtReturn.stepsOf (.run (some 8) (.stillAt .zero)) ≠ [] := by
    rw [stepsOf, stepsFrom_stillAt (some 8) rfl hserves]
    exact List.cons_ne_nil _ _
  exact ⟨h, he, hstep, hrun (some 8) (.stillAt .zero) hsteps⟩

end Session

end Chip8
