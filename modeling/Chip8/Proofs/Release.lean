import Chip8.Launch
import Chip8.Proofs.Session.Steps

/-!
# Chip8.Proofs.Release — who closes the window

A window is opened with its renderer and closed when the run is over.  In between a session draws
and sets titles, but no move of it opens or closes the window (`open_of_move`), so every run that
begins leaves a window that has been closed once, however it ends (`conclude_released`).  The inputs
and the session are built in between as well, outside of what the closing covers: if one of them
cannot be built, the window that is already there stays open (`released_iff_connects`).
-/

namespace Chip8

/-! ## Open windows -/

/-- The calls, the newest first, close a window for good that was opened once. -/
def Released (calls : List WindowCall) : Prop :=
  ∃ before, calls = .quit :: before ∧ .quit ∉ before ∧ before.count .init = 1

theorem Released.closed {calls : List WindowCall} (h : Released calls) : .quit ∈ calls := by
  obtain ⟨before, rfl, -⟩ := h
  exact .head before

namespace Renderer

/-- The window, if there is one, has been opened and not been closed. -/
structure Open (r : Renderer) : Prop where
  opened : r.window ≠ none → r.calls.count .init = 1
  unclosed : .quit ∉ r.calls
  headless : r.window = none → r.calls = []

variable {r : Renderer}

theorem open_headless (scale : Option Int) : (headless scale).Open :=
  ⟨fun hsome => absurd rfl hsome, List.not_mem_nil, fun _ => rfl⟩

theorem open_windowed {scale : Option Int} (hr : windowed scale = .ok r) : r.Open := by
  unfold windowed at hr
  simp only at hr
  split_ifs at hr
  cases hr
  exact ⟨fun _ => rfl, by simp, nofun⟩

theorem call_of_window {size : Int × Int} (hw : r.window = some size) (calls : List WindowCall) :
    r.call calls = { r with calls := calls.reverse ++ r.calls } := by
  rw [call, hw]

theorem call_of_headless (hw : r.window = none) (calls : List WindowCall) : r.call calls = r := by
  rw [call, hw]

theorem Open.call (h : r.Open) {calls : List WindowCall} (hinit : .init ∉ calls)
    (hquit : .quit ∉ calls) : (r.call calls).Open := by
  cases hw : r.window with
  | none =>
    rw [call_of_headless hw]
    exact h
  | some size =>
    have hsome : r.window ≠ none := by
      rw [hw]
      exact Option.some_ne_none size
    have hzero : calls.reverse.count .init = 0 :=
      List.count_eq_zero.mpr fun hin => hinit (List.mem_reverse.mp hin)
    rw [call_of_window hw]
    refine ⟨fun _ => ?_, ?_, fun hnone => absurd hnone hsome⟩
    · rw [List.count_append, hzero, h.opened hsome]
    · rw [List.mem_append, List.mem_reverse, not_or]
      exact ⟨hquit, h.unclosed⟩

theorem Open.setTitle (h : r.Open) (title : String) : (r.setTitle title).Open := by
  have hcall : (r.call [.setCaption title]).Open := h.call (by simp) (by simp)
  exact ⟨hcall.opened, hcall.unclosed, hcall.headless⟩

theorem Open.refresh (h : r.Open) (picture : Array UInt8) (changed : Bool) :
    (r.refresh picture changed).Open := by
  have hdraws : .init ∉ r.drawing picture ∧ .quit ∉ r.drawing picture := by
    unfold drawing
    split <;> simp
  have hdrawn : (r.call (r.drawing picture)).Open := h.call hdraws.1 hdraws.2
  unfold Renderer.refresh
  split_ifs
  · exact ⟨hdrawn.opened, hdrawn.unclosed, hdrawn.headless⟩
  · exact ⟨h.opened, h.unclosed, h.headless⟩
  · exact h

/-- Shutting down closes the window that is open, and does nothing after that. -/
theorem Open.released (h : r.Open) (hopened : .init ∈ r.shutdown.calls) :
    Released r.shutdown.calls := by
  unfold shutdown at hopened ⊢
  cases hw : r.window with
  | none =>
    rw [call_of_headless hw, h.headless hw] at hopened
    cases hopened
  | some size =>
    have hsome : r.window ≠ none := by
      rw [hw]
      exact Option.some_ne_none size
    rw [call_of_window hw]
    exact ⟨r.calls, rfl, h.unclosed, h.opened hsome⟩

end Renderer

/-! ## Sessions -/

namespace Session

variable {ρ : Type} {s t : Session ρ}

theorem create_ok {cpu : Cpu ρ} {renderer : Renderer} {input : HostInput} {speed : Option Int} :
    (∃ s, create cpu renderer input speed = .ok s) ↔
      ∃ interval, intervalFor (speed.getD Platform.defaultClockSpeed) = .ok interval := by
  unfold create
  cases intervalFor (speed.getD Platform.defaultClockSpeed) <;> simp

theorem open_create {cpu : Cpu ρ} {renderer : Renderer} {input : HostInput} {speed : Option Int}
    (hs : create cpu renderer input speed = .ok s) (h : renderer.Open) : s.renderer.Open := by
  have hsized : (renderer.setResolution 64 32).Open := ⟨h.opened, h.unclosed, h.headless⟩
  unfold create at hs
  split at hs
  · cases hs
  · cases hs
    exact hsized.setTitle _

variable [ByteSource ρ]

theorem open_of_move (hm : Move s t) (h : s.renderer.Open) : t.renderer.Open := by
  cases hm with
  | report now =>
    unfold reportIfDue
    split_ifs
    · exact h.setTitle _
    · exact h
  | display now => exact h.refresh _ _
  | refresh => exact h.refresh _ _
  | step =>
    rw [stepCpu_eq]
    exact h
  | read now => exact h
  | align now => exact h
  | poll => exact h
  | tick => exact h
  | count => exact h
  | print text => exact h

end Session

/-! ## Setting up -/

namespace Launch

variable {q : Request} {h : Surroundings} {windowed : Bool} {c : Cpu Twister} {r : Renderer}

theorem bind_ok {ε α β : Type} {x : Except ε α} {f : α → Except ε β} {b : β} :
    (x >>= f) = .ok b ↔ ∃ a, x = .ok a ∧ f a = .ok b := by
  cases x with
  | error e => exact ⟨nofun, fun ⟨_, ha, _⟩ => nomatch ha⟩
  | ok a => simp [Bind.bind, Except.bind]

theorem mapError_ok {ε ε' α : Type} {x : Except ε α} {f : ε → ε'} {a : α} :
    x.mapError f = .ok a ↔ x = .ok a := by
  cases x <;> simp [Except.mapError]

theorem entry_ok {α : Type} {name : String} {value : Option α} {a : α} :
    entry name value = .ok a ↔ value = some a := by
  cases value <;> simp [entry]

/-- The inputs and the session can be built: there is a keymap that can be read, and a speed that is
a number, if it is given, and not too large for an interval. -/
def Connects (q : Request) : Prop :=
  (∃ text, q.keymap = some text ∧
    ∃ keymap, Keymap.parse (orDefault Platform.defaultKeymap text) = .ok keymap) ∧
  ∃ speed, q.clockSpeed = some speed ∧ ∃ n, number .clockSpeed speed = .ok n ∧
    ∃ interval, Session.intervalFor (n.getD Platform.defaultClockSpeed) = .ok interval

theorem hostInput_ok {keymap : String} {batches : List (List HostEvent)} :
    (∃ input, HostInput.create keymap batches = .ok input) ↔
      ∃ k, Keymap.parse keymap = .ok k := by
  unfold HostInput.create
  cases Keymap.parse keymap <;> simp

theorem session_ok {s : Session Twister} :
    session q h windowed c r = .ok s ↔
      ∃ text, q.keymap = some text ∧
        ∃ input, HostInput.create (orDefault Platform.defaultKeymap text)
            (if windowed then h.batches else []) = .ok input ∧
          ∃ speed, q.clockSpeed = some speed ∧ ∃ n, number .clockSpeed speed = .ok n ∧
            Session.create c r input n = .ok s := by
  unfold session
  simp only [bind_ok, entry_ok, mapError_ok]

theorem connects_iff (h : Surroundings) (windowed : Bool) (c : Cpu Twister) (r : Renderer) :
    Connects q ↔ ∃ s, session q h windowed c r = .ok s := by
  simp only [session_ok]
  constructor
  · rintro ⟨⟨text, htext, hkeymap⟩, speed, hspeed, n, hn, hinterval⟩
    obtain ⟨input, hinput⟩ := hostInput_ok.mpr hkeymap
    obtain ⟨s, hs⟩ := Session.create_ok.mpr hinterval
    exact ⟨s, text, htext, input, hinput, speed, hspeed, n, hn, hs⟩
  · rintro ⟨s, text, htext, input, hinput, speed, hspeed, n, hn, hs⟩
    exact ⟨⟨text, htext, hostInput_ok.mp ⟨input, hinput⟩⟩, speed, hspeed, n, hn,
      Session.create_ok.mp ⟨s, hs⟩⟩

/-- A renderer starts without a window and calls, or with calls that open its window. -/
theorem open_renderer (hr : renderer q windowed = .ok r) : r.Open := by
  obtain ⟨scale, -, hr⟩ := bind_ok.mp hr
  cases windowed with
  | true =>
    obtain ⟨width, -, hr⟩ := bind_ok.mp hr
    exact Renderer.open_windowed (mapError_ok.mp hr)
  | false =>
    cases scale with
    | given scale =>
      cases hr
      exact Renderer.open_headless _
    | unset | dropped =>
      cases hr
      exact Renderer.open_headless _

/-! ## Launching -/

/-- Whatever becomes of a run, if it comes to an end, it ends with a shutdown of what some moves
have led to. -/
theorem conclude_moves {s : Session Twister} {l : Launched} (hl : conclude q h s = some l) :
    ∃ t, Session.Moves s t ∧ l.calls = t.renderer.shutdown.calls := by
  have hrun {maxOps : Option Int} {result : Finished Twister → Except LaunchFault Bool}
      (hl : (s.run maxOps h.readings).map (fun r => close r.session (result r)) = some l) :
      ∃ t, Session.Moves s t ∧ l.calls = t.renderer.shutdown.calls := by
    obtain ⟨f, hf, rfl⟩ := Option.map_eq_some_iff.mp hl
    exact ⟨f.session, Session.runFrom_moves hf, rfl⟩
  unfold conclude at hl
  cases hq : q.maxOps with
  | none =>
    rw [hq] at hl
    cases hl
    exact ⟨s, .refl, rfl⟩
  | some limit =>
    rw [hq] at hl
    cases limit with
    | unset => exact hrun hl
    | given n => exact hrun hl
    | dropped => exact hrun hl

theorem conclude_released {s : Session Twister} {l : Launched} (hs : s.renderer.Open)
    (hl : conclude q h s = some l) (hopened : .init ∈ l.calls) : Released l.calls := by
  obtain ⟨t, hmoves, hcalls⟩ := conclude_moves hl
  have ht : t.renderer.Open :=
    hmoves.preserves (P := fun s => s.renderer.Open) Session.open_of_move hs
  rw [hcalls] at hopened ⊢
  exact ht.released hopened

/-- A launch fails before there is a renderer, or while the session is set up, or it runs. -/
theorem launch_cases {l : Launched} (hl : launch q h = some l) :
    l.calls = [] ∨ ∃ windowed c r, renderer q windowed = .ok r ∧
      ((∃ fault, session q h windowed c r = .error fault ∧
          l = ⟨.error fault, [banner], r.calls⟩) ∨
        ∃ s, session q h windowed c r = .ok s ∧ conclude q h s = some l) := by
  unfold launch setUp at hl
  generalize powerUp q h = powered at hl
  rcases powered with fault | ⟨windowed, c⟩
  · cases hl
    exact Or.inl rfl
  · simp only at hl
    cases hr : renderer q windowed with
    | error fault =>
      rw [hr] at hl
      cases hl
      exact Or.inl rfl
    | ok r =>
      rw [hr] at hl
      simp only at hl
      refine Or.inr ⟨windowed, c, r, hr, ?_⟩
      cases hs : session q h windowed c r with
      | error fault =>
        rw [hs] at hl
        cases hl
        exact Or.inl ⟨fault, rfl, rfl⟩
      | ok s =>
        rw [hs] at hl
        exact Or.inr ⟨s, rfl, hl⟩

/-- **Who closes the window.**  Once a launch that comes to an end has opened a window, it closes it
for good, whether the run ends by itself or fails, just when the inputs and the session can be
built.  Where they cannot, the launch fails and leaves the window open. -/
theorem released_iff_connects {l : Launched} (hl : launch q h = some l)
    (hopened : .init ∈ l.calls) :
    (Released l.calls ↔ Connects q) ∧
      (¬ Connects q → .quit ∉ l.calls ∧ ∃ fault, l.result = .error fault) := by
  rcases launch_cases hl with hnone | ⟨windowed, c, r, hr, ⟨fault, hs, rfl⟩ | ⟨s, hs, hc⟩⟩
  · rw [hnone] at hopened
    cases hopened
  · have hno : ¬ Connects q := by
      rw [connects_iff h windowed c r, hs]
      rintro ⟨s, ⟨⟩⟩
    have hunclosed := (open_renderer hr).unclosed
    exact ⟨⟨fun hreleased => absurd hreleased.closed hunclosed, fun hq => absurd hq hno⟩,
      fun _ => ⟨hunclosed, fault, rfl⟩⟩
  · have hyes : Connects q := (connects_iff h windowed c r).mpr ⟨s, hs⟩
    obtain ⟨text, -, input, -, speed, -, n, -, hcreate⟩ := session_ok.mp hs
    have hreleased :=
      conclude_released (Session.open_create hcreate (open_renderer hr)) hc hopened
    exact ⟨⟨fun _ => hyes, fun _ => hreleased⟩, fun hno => absurd hyes hno⟩

/-- A request for a window with that keymap. -/
def windowRequest (keymap : String) : Request where
  renderer := some (.given "pygame")
  edgeMode := some .unset
  filename := some (some "rom.ch8")
  debug := some false
  seed := some (.given 1)
  scale := some .unset
  keymap := some (.given keymap)
  clockSpeed := some (.given 0)
  maxOps := some (.given 6)

/-- A program that draws a glyph, and these readings of the clock. -/
def glyphSurroundings (readings : Readings) : Surroundings where
  romAt := fun _ => .ok [0xA0, 0x50, 0xD0, 0x05, 0x12, 0x04]
  canOpen := true
  batches := []
  readings := readings
  entropy := 0

/-- A run whose clock gives no reading fails at once, and closes its window. -/
theorem released_iff_connects_clockless :
    ∃ l, launch (windowRequest "") (glyphSurroundings (.ended (.usedUp 0))) = some l ∧
      l.result = .error (.clock (.usedUp 0)) ∧ Released l.calls := by
  obtain ⟨l, hl, hresult, hopened⟩ :
      ∃ l, launch (windowRequest "") (glyphSurroundings (.ended (.usedUp 0))) = some l ∧
        l.result = .error (.clock (.usedUp 0)) ∧ .init ∈ l.calls :=
    ⟨_, rfl, rfl, by decide +kernel⟩
  have hconnects : Connects (windowRequest "") :=
    ⟨⟨_, rfl, _, rfl⟩, _, rfl, _, rfl, _, rfl⟩
  exact ⟨l, hl, hresult, (released_iff_connects hl hopened).1.mpr hconnects⟩

/-- By the time that a keymap of nothing but commas is refused the window has been opened, and
nothing closes it. -/
theorem window_left_open :
    ∃ l, launch (windowRequest ",,,,,,,,,,,,,,,")
        (glyphSurroundings (Clock.mk 0 3000 [] 5000).readings) = some l ∧
      l.result = .error (.keymap .notInteger) ∧ .init ∈ l.calls ∧ .quit ∉ l.calls :=
  ⟨_, rfl, rfl, by decide +kernel⟩

end Launch

end Chip8
