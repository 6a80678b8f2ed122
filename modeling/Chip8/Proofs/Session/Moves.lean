import Chip8.Session.Run
import Chip8.Proofs.Reachable
import Chip8.Proofs.Session.Service
import Mathlib.Logic.Relation

/-!
# Chip8.Proofs.Session.Moves — a session as a sequence of moves

Whatever a session does by itself, during a service or a run, is a sequence of the ten moves of
`Move` (`service_moves`, `run_moves`).  A property that every move keeps therefore holds after any
service and any run, and with one that every action of a host keeps as well, after any sequence of
commands (`obeyAll_preserves`).  A command in which a service never ends leads to no session; what
it has led to on the way is moves from the session before it.  First use: the processor of a session
stays one that a host can arrive at.
-/

namespace Chip8

/-- The session that a clock reading leads to. -/
def Advance.session {ρ : Type} : Advance ρ → Session ρ
  | .more _ s => s
  | .over _ s => s

/-- The run goes on in its loop, if it goes on. -/
def Advance.InLoop {ρ : Type} : Advance ρ → Prop
  | .more phase _ => phase ≠ .opening
  | .over _ _ => True

/-- What a host can ask of a session and of the processor in it. -/
inductive Command where
  | act (a : HostAction)
  | refresh
  | service (now : Seconds)
  | run (maxOps : Option Int) (readings : Readings)

namespace Session

variable {ρ : Type} [ByteSource ρ]

/-- What a session does in one go. -/
inductive Move : Session ρ → Session ρ → Prop where
  | read (s : Session ρ) (now : Seconds) : Move s (s.note (.reading now))
  | align (s : Session ρ) (now : Seconds) : Move s { s with nextTick := now }
  | report (s : Session ρ) (now : Seconds) : Move s (s.reportIfDue now)
  | poll (s : Session ρ) : Move s s.poll.1
  | display (s : Session ρ) (now : Seconds) : Move s (s.display now)
  | tick (s : Session ρ) : Move s s.tick
  | step (s : Session ρ) : Move s s.stepCpu.1
  | count (s : Session ρ) : Move s s.count
  | print (s : Session ρ) (text : String) : Move s (s.note (.line text))
  | refresh (s : Session ρ) : Move s (s.refresh false)

/-- What a session does. -/
abbrev Moves : Session ρ → Session ρ → Prop := Relation.ReflTransGen Move

/-- The session after a command, if the command comes to an end. -/
def obey (s : Session ρ) : Command → Option (Session ρ)
  | .act a => some { s with cpu := s.cpu.act a }
  | .refresh => some (s.refresh false)
  | .service now => (s.service now).map (·.1)
  | .run maxOps readings => (s.run maxOps readings).map (·.session)

/-- The session after some commands, if they come to an end. -/
def obeyAll (s : Session ρ) (commands : List Command) : Option (Session ρ) := commands.foldlM obey s

theorem obeyAll_nil {s t : Session ρ} : s.obeyAll [] = some t ↔ s = t := Option.some_inj

theorem obeyAll_cons {s u : Session ρ} {command : Command} {commands : List Command} :
    s.obeyAll (command :: commands) = some u ↔
      ∃ t, s.obey command = some t ∧ t.obeyAll commands = some u := by
  unfold obeyAll
  rw [List.foldlM_cons]
  exact Option.bind_eq_some_iff

/-- Actions on the processor always come to an end. -/
theorem obeyAll_acts (s : Session ρ) (actions : List HostAction) (commands : List Command) :
    s.obeyAll (actions.map .act ++ commands) =
      { s with cpu := s.cpu.actAll actions }.obeyAll commands := by
  induction actions generalizing s with
  | nil => rfl
  | cons a actions ih => exact ih { s with cpu := s.cpu.act a }

/-! ## Everything is made of moves -/

variable {s t : Session ρ} {maxOps : Option Int} {phase : Phase} {now : Seconds} {quit : Bool}
  {a : Advance ρ}

theorem service_moves (h : s.service now = some (t, quit)) : Moves s t :=
  service_preserves (P := Moves s) (fun hs => hs.tail (.report _ now)) (fun hs => hs.tail (.poll _))
    (fun hs => hs.tail (.display _ now)) (fun hs => hs.tail (.tick _)) h .refl

omit [ByteSource ρ] in
theorem toNext_session (s : Session ρ) (maxOps : Option Int) : (s.toNext maxOps).session = s := by
  unfold toNext
  split_ifs <;> rfl

theorem instruct_moves (s : Session ρ) (maxOps : Option Int) (now : Seconds) :
    Moves s (s.instruct maxOps now).session := by
  have hstep := Move.step s
  unfold instruct
  split
  · rename_i t fault hs
    rw [hs] at hstep
    exact .single hstep
  · rename_i t e _ hs
    rw [hs] at hstep
    exact .head hstep (.single (.print t e.message))
  · rename_i t hs
    rw [hs] at hstep
    have hcount : Moves s t.count := .head hstep (.single (.count t))
    split
    · rw [toNext_session]
      exact hcount
    · exact hcount

theorem feed_moves (h : s.feed maxOps phase now = some a) : Moves s a.session := by
  refine .head (.read s now) ?_
  unfold feed at h
  generalize s.note (.reading now) = s at h ⊢
  cases phase with
  | opening =>
    cases h
    rw [toNext_session]
    exact .single (.align s now)
  | ready =>
    simp only at h
    rcases hs : s.service now with _ | ⟨t, _ | _⟩ <;> rw [hs] at h <;> cases h
    · exact (service_moves hs).trans (t.instruct_moves maxOps now)
    · exact service_moves hs
  | waiting deadline =>
    simp only at h
    split_ifs at h
    · rcases hs : s.service now with _ | ⟨t, _ | _⟩ <;> rw [hs] at h <;> cases h
      · exact service_moves hs
      · exact service_moves hs
    · cases h
      rw [toNext_session]

theorem loseClock_moves (s : Session ρ) (phase : Phase) : Moves s (s.loseClock phase) := by
  unfold loseClock
  split_ifs
  · rfl
  · exact .single (.refresh s)

theorem runFrom_moves {readings : Readings} {f : Finished ρ}
    (h : s.runFrom maxOps phase readings = some f) : Moves s f.session := by
  induction readings generalizing s phase with
  | ended fault =>
    cases h
    exact s.loseClock_moves phase
  | failed fault rest =>
    cases h
    exact s.loseClock_moves phase
  | next now rest ih =>
    rw [runFrom] at h
    rcases hf : s.feed maxOps phase now with _ | ⟨phase', t⟩ | ⟨ending, t⟩ <;> rw [hf] at h
    · cases h
    · exact (feed_moves hf).trans (ih () h)
    · cases h
      exact (feed_moves hf).tail (.refresh t)

/-- Every command that is no action leads on by moves. -/
theorem obey_moves {command : Command} (hc : ∀ a, command ≠ .act a) (h : s.obey command = some t) :
    Moves s t := by
  cases command with
  | act a => exact absurd rfl (hc a)
  | refresh =>
    cases h
    exact .single (.refresh s)
  | service now =>
    obtain ⟨⟨u, quit⟩, hs, rfl⟩ := Option.map_eq_some_iff.mp h
    exact service_moves hs
  | run maxOps readings =>
    obtain ⟨f, hf, rfl⟩ := Option.map_eq_some_iff.mp h
    exact runFrom_moves hf

/-! ## The loop of a run -/

omit [ByteSource ρ] in
theorem toNext_inLoop (s : Session ρ) (maxOps : Option Int) : (s.toNext maxOps).InLoop := by
  unfold toNext
  split_ifs
  · trivial
  · exact Phase.noConfusion

theorem instruct_inLoop (s : Session ρ) (maxOps : Option Int) (now : Seconds) :
    (s.instruct maxOps now).InLoop := by
  unfold instruct
  split
  · trivial
  · trivial
  · split
    · exact toNext_inLoop _ maxOps
    · exact Phase.noConfusion

/-- Every reading leads into the loop, also the first. -/
theorem feed_inLoop (h : s.feed maxOps phase now = some a) : a.InLoop := by
  unfold feed at h
  generalize s.note (.reading now) = s at h
  cases phase with
  | opening =>
    cases h
    exact toNext_inLoop _ maxOps
  | ready =>
    simp only at h
    rcases hs : s.service now with _ | ⟨t, _ | _⟩ <;> rw [hs] at h <;> cases h
    · exact instruct_inLoop t maxOps now
    · trivial
  | waiting deadline =>
    simp only at h
    split_ifs at h
    · rcases hs : s.service now with _ | ⟨t, _ | _⟩ <;> rw [hs] at h <;> cases h
      · exact Phase.noConfusion
      · trivial
    · cases h
      exact toNext_inLoop s maxOps

/-! ## Properties that are kept -/

variable {P : Session ρ → Prop}

theorem Moves.preserves (hmove : ∀ {s t : Session ρ}, Move s t → P s → P t) (h : Moves s t)
    (hs : P s) : P t := by
  induction h with
  | refl => exact hs
  | tail _ hm ih => exact hmove hm ih

/-- What every move keeps, a command keeps as well; only an action has to be seen to by itself. -/
theorem obey_preserves {command : Command}
    (hact : ∀ a, command = .act a → P { s with cpu := s.cpu.act a })
    (hmove : ∀ {s t : Session ρ}, Move s t → P s → P t) (hs : P s)
    (h : s.obey command = some t) : P t := by
  cases command with
  | act a =>
    cases h
    exact hact a rfl
  | refresh => exact (obey_moves (fun _ => Command.noConfusion) h).preserves hmove hs
  | service now => exact (obey_moves (fun _ => Command.noConfusion) h).preserves hmove hs
  | run maxOps readings => exact (obey_moves (fun _ => Command.noConfusion) h).preserves hmove hs

/-- Histories in which only allowed actions occur. -/
theorem obeyAll_preserves_of {A : HostAction → Prop}
    (hact : ∀ (s : Session ρ) (a : HostAction), A a → P s →
      P { s with cpu := s.cpu.act a })
    (hmove : ∀ {s t : Session ρ}, Move s t → P s → P t) {commands : List Command}
    (hc : ∀ a, .act a ∈ commands → A a) (hs : P s) (h : s.obeyAll commands = some t) : P t := by
  induction commands generalizing s with
  | nil => rwa [← obeyAll_nil.mp h]
  | cons command commands ih =>
    obtain ⟨u, hu, ht⟩ := obeyAll_cons.mp h
    refine ih (fun a ha => hc a (.tail _ ha)) (obey_preserves ?_ hmove hs hu) ht
    rintro a rfl
    exact hact s a (hc a (.head _)) hs

theorem obeyAll_preserves
    (hact : ∀ (s : Session ρ) (a : HostAction), P s → P { s with cpu := s.cpu.act a })
    (hmove : ∀ {s t : Session ρ}, Move s t → P s → P t) {commands : List Command} (hs : P s)
    (h : s.obeyAll commands = some t) : P t :=
  obeyAll_preserves_of (A := fun _ => True) (fun s a _ => hact s a) hmove (fun _ _ => trivial)
    hs h

/-! ## The processor of a session -/

/-- A host key presses or releases its key, or does nothing. -/
theorem reachable_moveKey {c : Cpu ρ} (hc : c.Reachable) (k : Keymap) (code : Int) (down : Bool) :
    (c.withKeypad (.ok (k.move c.machine.keypad code down))).Reachable := by
  unfold Keymap.move
  cases k.key? code with
  | none => exact hc
  | some key =>
    cases down with
    | true =>
      have hpress := hc.act (.press key.val)
      rwa [Cpu.act, Keypad.press_key] at hpress
    | false =>
      have hrelease := hc.act (.release key.val)
      rwa [Cpu.act, Keypad.release_key] at hrelease

theorem reachable_applyEvent {c : Cpu ρ} (hc : c.Reachable) (k : Keymap) (e : HostEvent) :
    (c.withKeypad (.ok (e.apply k c.machine.keypad))).Reachable := by
  cases e with
  | quit => exact hc
  | other => exact hc
  | keyDown code => exact reachable_moveKey hc k code true
  | keyUp code => exact reachable_moveKey hc k code false

theorem reachable_applyAll (k : Keymap) (events : List HostEvent) {c : Cpu ρ} (hc : c.Reachable) :
    (c.withKeypad (.ok (HostEvent.applyAll k c.machine.keypad events))).Reachable := by
  induction events generalizing c with
  | nil => exact hc
  | cons e events ih => exact ih (reachable_applyEvent hc k e)

/-- A session keeps its processor among those that a host can arrive at. -/
theorem reachable_of_move (h : Move s t) (hs : s.cpu.Reachable) : t.cpu.Reachable := by
  cases h with
  | read now => exact hs
  | align now => exact hs
  | report now =>
    unfold reportIfDue
    split_ifs
    · exact hs
    · exact hs
  | poll => exact reachable_applyAll s.input.keymap s.input.batch hs
  | display now => exact hs.shown
  | tick => exact hs.act .tick
  | step => exact hs.act .step
  | count => exact hs
  | print text => exact hs
  | refresh => exact hs.shown

theorem reachable_obeyAll {commands : List Command} (hs : s.cpu.Reachable)
    (h : s.obeyAll commands = some t) : t.cpu.Reachable :=
  obeyAll_preserves (P := fun s => s.cpu.Reachable) (fun _ a hs => hs.act a) reachable_of_move
    hs h

end Session

end Chip8
