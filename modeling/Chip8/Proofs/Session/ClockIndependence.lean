import Chip8.Proofs.Lockstep
import Chip8.Proofs.Session.Steps

/-!
# Chip8.Proofs.Session.ClockIndependence — the clock does not decide what a program does

While no key moves, all that a session does to its processor is to let the timers run, to take the
picture and to step.  So a history of commands is a trail of its steps (`unattended_obeyAll`), and
two histories from processors in step stay in step, whatever their clocks read and however fast
they are set to run, until a program reads the delay timer (`steps_clock_independent`).
-/

namespace Chip8

/-! ## Hosts that leave the keys alone -/

/-- No key moves in the batches still to come. -/
def HostInput.Keyless (h : HostInput) : Prop :=
  ∀ batch ∈ h.batches, ∀ e ∈ batch, e = .quit ∨ e = .other

/-- The command runs the program, or does for it what a run does between two instructions. -/
def Command.HandsOff : Command → Prop
  | .act a => a = .step ∨ a = .tick
  | .refresh | .service _ | .run _ _ => True

theorem HostEvent.applyAll_of_keyless (k : Keymap) (p : Keypad) {events : List HostEvent}
    (h : ∀ e ∈ events, e = .quit ∨ e = .other) : applyAll k p events = p := by
  induction events with
  | nil => rfl
  | cons e events ih =>
    obtain ⟨he, hrest⟩ := List.forall_mem_cons.mp h
    have hsame : e.apply k p = p := by
      rcases he with rfl | rfl <;> rfl
    have hcons : applyAll k p (e :: events) = applyAll k (e.apply k p) events := rfl
    rw [hcons, hsame]
    exact ih hrest

namespace HostInput

variable {h : HostInput}

theorem Keyless.batch (hk : h.Keyless) : ∀ e ∈ h.batch, e = .quit ∨ e = .other := by
  intro e he
  unfold HostInput.batch at he
  cases hb : h.batches with
  | nil =>
    rw [hb] at he
    cases he
  | cons batch batches =>
    rw [hb] at he
    refine hk batch ?_ e he
    rw [hb]
    exact .head _

theorem Keyless.poll (hk : h.Keyless) (p : Keypad) :
    (h.poll p).1.Keyless ∧ (h.poll p).2.1 = p :=
  ⟨fun batch hb => hk batch (List.mem_of_mem_tail hb),
    HostEvent.applyAll_of_keyless h.keymap p hk.batch⟩

end HostInput

/-! ## What a session does to its processor -/

open Cpu (Trail Idled InStep)

namespace Session

variable {ρ : Type} [ByteSource ρ] {s t u : Session ρ} {steps steps' : List (Step ρ)}

/-- If no key moves, the session gets from `s` to `t` with these steps of its processor, and no key
will move. -/
def Unattended (s : Session ρ) (steps : List (Step ρ)) (t : Session ρ) : Prop :=
  s.input.Keyless → Trail s.cpu steps t.cpu ∧ t.input.Keyless

theorem Unattended.trans (h : Unattended s steps t) (h' : Unattended t steps' u) :
    Unattended s (steps ++ steps') u := by
  intro hk
  obtain ⟨hst, hk'⟩ := h hk
  obtain ⟨htu, hk''⟩ := h' hk'
  exact ⟨hst.trans htu, hk''⟩

theorem Unattended.of_idled (h : Idled s.cpu t.cpu) (hi : t.input = s.input) :
    Unattended s [] t := by
  intro hk
  rw [hi]
  exact ⟨.idle h, hk⟩

theorem Unattended.refl (s : Session ρ) : Unattended s [] s := .of_idled (.refl _) rfl

theorem unattended_refresh (s : Session ρ) (due : Bool) : Unattended s [] (s.refresh due) :=
  .of_idled (Cpu.idled_shown s.cpu) rfl

theorem unattended_reportIfDue (s : Session ρ) (now : Seconds) :
    Unattended s [] (s.reportIfDue now) := by
  unfold reportIfDue
  split_ifs
  · exact .of_idled (.refl _) rfl
  · exact .refl s

theorem unattended_poll (s : Session ρ) : Unattended s [] s.poll.1 := by
  intro hk
  obtain ⟨hk', hkeypad⟩ := hk.poll s.cpu.machine.keypad
  have hcpu : s.poll.1.cpu = s.cpu := by
    unfold poll
    simp only [hkeypad]
  rw [hcpu]
  exact ⟨.idle (.refl _), hk'⟩

theorem unattended_service {now : Seconds} {quit : Bool} (h : s.service now = some (t, quit)) :
    Unattended s [] t :=
  service_preserves (P := Unattended s []) (fun hs => hs.trans (unattended_reportIfDue _ now))
    (fun hs => hs.trans (unattended_poll _))
    (fun hs => hs.trans (.of_idled (Cpu.idled_shown _) rfl))
    (fun hs => hs.trans (.of_idled (Cpu.idled_tick _) rfl)) h (.refl s)

theorem Instructed.unattended {maxOps : Option Int} {now : Seconds} {a : Advance ρ}
    (h : Instructed maxOps now s a) : Unattended s [s.cpu.step] a.session := by
  have hstep {t : Session ρ} (hc : t.cpu = s.cpu.step.cpu) (hi : t.input = s.input) :
      Unattended s [s.cpu.step] t := by
    intro hk
    rw [hc, hi]
    exact ⟨.step (.refl _) (.idle (.refl _)), hk⟩
  have hinput : s.stepCpu.1.input = s.input := by rw [stepCpu_eq]
  cases h with
  | failed he => exact hstep rfl hinput
  | halted he hb => exact hstep rfl hinput
  | next he hi =>
    rw [toNext_session]
    exact hstep rfl hinput
  | wait he hi => exact hstep rfl hinput

theorem Fed.unattended {maxOps : Option Int} {now : Seconds} {phase : Phase} {a : Advance ρ}
    (h : Fed maxOps now s phase steps a) : Unattended s steps a.session := by
  cases h with
  | opened =>
    rw [toNext_session]
    exact .of_idled (.refl _) rfl
  | quit hp hs => exact unattended_service hs
  | stepped hs => exact (unattended_service hs).trans (instructed _ maxOps now).unattended
  | waited hlt hs => exact unattended_service hs
  | resumed hle =>
    rw [toNext_session]
    exact .refl s

/-- A run makes its steps on the way to some session, which it ends with if it ends. -/
theorem unattended_runFrom (s : Session ρ) (maxOps : Option Int) (phase : Phase)
    (readings : Readings) :
    ∃ t, Unattended s (s.stepsFrom maxOps phase readings) t ∧
      ∀ f, s.runFrom maxOps phase readings = some f → f.session = t := by
  have hlost (s : Session ρ) (phase : Phase) : Unattended s [] (s.loseClock phase) := by
    unfold loseClock
    split_ifs
    · exact .refl s
    · exact s.unattended_refresh false
  induction readings generalizing s phase with
  | ended fault => exact ⟨_, hlost s phase, fun f hf => by rw [← Option.some.inj hf]⟩
  | failed fault rest => exact ⟨_, hlost s phase, fun f hf => by rw [← Option.some.inj hf]⟩
  | next now rest ih =>
    have hread : Unattended s [] (s.note (.reading now)) := .of_idled (.refl _) rfl
    rw [runFrom, stepsFrom]
    rcases hf : s.feed maxOps phase now with _ | ⟨phase', t⟩ | ⟨ending, t⟩
    -- a service that never ends makes no step, so the session before it will do
    · rw [stepsAt_of_stuck hf]
      exact ⟨s, .refl s, fun f hf => absurd hf.symm (Option.some_ne_none f)⟩
    · obtain ⟨u, hu, hend⟩ := ih () t phase'
      exact ⟨u, (hread.trans (fed hf).unattended).trans hu, hend⟩
    · refine ⟨_, (hread.trans (fed hf).unattended).trans (t.unattended_refresh false), ?_⟩
      exact fun f hf => by rw [← Option.some.inj hf]

/-- So does a command. -/
theorem unattended_obey (s : Session ρ) {command : Command} (hc : command.HandsOff) :
    ∃ t, Unattended s (s.stepsOf command) t ∧ ∀ u, s.obey command = some u → u = t := by
  cases command with
  | act a =>
    refine ⟨_, ?_, fun u hu => (Option.some.inj hu).symm⟩
    rcases hc with rfl | rfl
    · exact fun hk => ⟨.step (.refl _) (.idle (.refl _)), hk⟩
    · exact .of_idled (Cpu.idled_tick s.cpu) rfl
  | refresh => exact ⟨_, s.unattended_refresh false, fun u hu => (Option.some.inj hu).symm⟩
  | service now =>
    rcases hs : s.service now with _ | ⟨t, quit⟩
    · refine ⟨s, .refl s, fun u hu => ?_⟩
      rw [obey, hs] at hu
      exact absurd hu.symm (Option.some_ne_none u)
    · refine ⟨t, unattended_service hs, fun u hu => ?_⟩
      rw [obey, hs] at hu
      exact (Option.some.inj hu).symm
  | run maxOps readings =>
    obtain ⟨t, ht, hend⟩ := s.unattended_runFrom maxOps .opening readings
    refine ⟨t, ht, fun u hu => ?_⟩
    obtain ⟨f, hf, rfl⟩ := Option.map_eq_some_iff.mp hu
    exact hend f hf

theorem unattended_obeyAll (s : Session ρ) {commands : List Command}
    (hc : ∀ command ∈ commands, command.HandsOff) :
    ∃ t, Unattended s (s.stepsOver commands) t := by
  induction commands generalizing s with
  | nil => exact ⟨s, .refl s⟩
  | cons command commands ih =>
    obtain ⟨hfirst, hrest⟩ := List.forall_mem_cons.mp hc
    obtain ⟨t, ht, hend⟩ := s.unattended_obey hfirst
    rw [stepsOver]
    rcases ho : s.obey command with _ | u
    · rw [List.append_nil]
      exact ⟨t, ht⟩
    · obtain rfl := hend u ho
      obtain ⟨v, hv⟩ := ih u hrest
      exact ⟨v, ht.trans hv⟩

/-! ## Two sessions -/

variable {σ : Type} [ByteSource σ]

/-- **Clock independence.**  Take two sessions whose processors a host can arrive at, running, equal
but for their timers and the mark of a changed picture, and with sources that hand out the same
bytes; and play their programs at any speeds, by any clocks and with any polls, without moving a
key.  As far as both have got, through instructions that succeeded and did not read the delay timer,
each step has left the two processors equal but for timers and mark, and with the same number of
bytes drawn.  If the next step halts one, it halts the other, for the same reason and at the same
opcode and address. -/
theorem steps_clock_independent {s : Session ρ} {t : Session σ} (hs : s.cpu.Reachable)
    (ht : t.cpu.Reachable) (hmachine : s.cpu.machine.untimed = t.cpu.machine.untimed)
    (haddress : s.cpu.address = t.cpu.address)
    (hrunning : s.cpu.halt = none ∧ t.cpu.halt = none)
    (hbytes : ByteSource.SameBytes s.cpu.source t.cpu.source) (hks : s.input.Keyless)
    (hkt : t.input.Keyless) {commands commands' : List Command}
    (hc : ∀ command ∈ commands, command.HandsOff) (hc' : ∀ command ∈ commands', command.HandsOff)
    {k : Nat} (hk : k ≤ (s.stepsOver commands).length) (hk' : k ≤ (t.stepsOver commands').length)
    (hdone : ∀ a ∈ (s.stepsOver commands).take k,
      a.error = none ∧ ¬ a.cpu.machine.Asks 0x07) :
    List.Forall₂ (fun a b => InStep s.cpu.source t.cpu.source a.cpu b.cpu)
        ((s.stepsOver commands).take k) ((t.stepsOver commands').take k) ∧
      ∀ a b, (s.stepsOver commands)[k]? = some a → (t.stepsOver commands')[k]? = some b →
        a.complaint? = b.complaint? := by
  obtain ⟨u, hu⟩ := s.unattended_obeyAll hc
  obtain ⟨v, hv⟩ := t.unattended_obeyAll hc'
  obtain ⟨htrail, -⟩ := hu hks
  obtain ⟨htrail', -⟩ := hv hkt
  have hstart : InStep s.cpu.source t.cpu.source s.cpu t.cpu :=
    ⟨hmachine, haddress, hrunning, 0, rfl, rfl⟩
  exact htrail.lockstep htrail' hstart hbytes hs ht hk hk' hdone

/-- A processor that is about to draw a random byte for register 0. -/
def cpuBeforeDraw : Cpu CyclicBytes :=
  (Cpu.create (.powerOn .clip) (.ofList [0xAB, 0xCD]) false).act (.load [0xC0, 0xFF])

/-- A session with it, before its first report and picture, that does not wait between
instructions. -/
def fastBeforeDraw : Session CyclicBytes where
  cpu := cpuBeforeDraw
  renderer := .headless none
  input := ⟨⟨[]⟩, [[.quit, .other]], 0⟩
  interval := none
  ops := 0
  nextTick := .zero
  nextDisplay := ⟨9⟩
  nextReport := ⟨9⟩
  framesSince := 0
  opsSince := 0
  journal := []

/-- The same with an interval between instructions, after its picture has been taken. -/
def slowBeforeDraw : Session CyclicBytes :=
  { fastBeforeDraw with cpu := cpuBeforeDraw.shown, interval := some ⟨3⟩ }

/-- That session after a step of the timers. -/
def slowTicked : Session CyclicBytes := { slowBeforeDraw with cpu := slowBeforeDraw.cpu.act .tick }

/-- The first step leads to the same with an instruction limit and no interval, and with an interval
after the host has let the timers run and taken the picture. -/
theorem steps_clock_independent_first_draw :
    ∃ a b, fastBeforeDraw.stepsOver [.run (some 1) (.stillAt .zero)] = [a] ∧
      slowBeforeDraw.stepsOver [.act .tick, .refresh, .run none (.stillAt ⟨5⟩)] = [b] ∧
      InStep cpuBeforeDraw.source cpuBeforeDraw.shown.source a.cpu b.cpu := by
  have hr : cpuBeforeDraw.Reachable := .act _ (.powerOn _ _ _)
  have hk : fastBeforeDraw.input.Keyless := by
    simp [HostInput.Keyless, fastBeforeDraw]
  have hc : ∀ command ∈ [Command.run (some 1) (.stillAt .zero)], command.HandsOff := by
    simp [Command.HandsOff]
  have hc' : ∀ command ∈ [Command.act .tick, .refresh, .run none (.stillAt ⟨5⟩)],
      command.HandsOff := by
    simp [Command.HandsOff]
  obtain ⟨hrunning, hserves, hdone, hop⟩ : cpuBeforeDraw.halt = none ∧
      (fastBeforeDraw.opened .zero).Serves .zero 1 ∧
      ((fastBeforeDraw.opened .zero).served .zero 1).cpu.step.error = none ∧
      Opcode.kk ((fastBeforeDraw.opened .zero).served .zero 1).cpu.step.cpu.machine.opcode =
        0xFF := by
    decide +kernel
  have hno : ¬ ((fastBeforeDraw.opened .zero).served .zero 1).cpu.step.cpu.machine.Asks 0x07 := by
    rintro ⟨-, hkk⟩
    rw [hop] at hkk
    cases hkk
  have hfast : fastBeforeDraw.stepsOver [.run (some 1) (.stillAt .zero)] =
      [((fastBeforeDraw.opened .zero).served .zero 1).cpu.step] := by
    rw [stepsOver_singleton, stepsOf, stepsFrom_stillAt (some 1) rfl hserves]
  have hserves' : ((slowTicked.refresh false).opened ⟨5⟩).Serves ⟨5⟩ 1 := by
    decide +kernel
  have hslow : slowBeforeDraw.stepsOver [.act .tick, .refresh, .run none (.stillAt ⟨5⟩)] =
      [(((slowTicked.refresh false).opened ⟨5⟩).served ⟨5⟩ 1).cpu.step] := by
    have htick : slowBeforeDraw.obey (.act .tick) = some slowTicked := rfl
    have hrefresh : slowTicked.obey .refresh = some (slowTicked.refresh false) := rfl
    rw [stepsOver_cons htick, stepsOver_cons hrefresh, stepsOver_singleton]
    exact stepsFrom_stillAt (s := slowTicked.refresh false) none rfl hserves'
  have hshown := Cpu.idled_shown cpuBeforeDraw
  have hbytes : ByteSource.SameBytes cpuBeforeDraw.source cpuBeforeDraw.shown.source := by
    rw [hshown.source]
    exact fun _ => rfl
  obtain ⟨hall, -⟩ := steps_clock_independent (s := fastBeforeDraw) (t := slowBeforeDraw) (k := 1)
    hr hr.shown hshown.machine.symm hshown.address.symm ⟨hrunning, hshown.halt.trans hrunning⟩
    hbytes hk hk hc hc' (by simp [hfast])
    (by simp [hslow]) (by simp [hfast, hdone, hno])
  rw [hfast, hslow, List.take_succ_cons, List.take_succ_cons, List.forall₂_cons] at hall
  exact ⟨_, _, hfast, hslow, hall.1⟩

end Session

end Chip8
