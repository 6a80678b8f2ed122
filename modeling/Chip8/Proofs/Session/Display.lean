import Chip8.Proofs.Repainting
import Chip8.Proofs.Session.Steps
import Mathlib.Data.List.Forall2

/-!
# Chip8.Proofs.Session.Display — the picture shown is never stale

A renderer may skip a frame that is not marked as changed.  It misses nothing: such a frame always
repeats the picture of the last marked one (`NeverStale`).  The invariant behind it is `Coherent`:
as long as the mark is down, the picture shown last is the picture of the screen.  A refresh keeps
it because the picture it shows is the picture of the screen, and everything else because a pixel
that changes raises the mark (`kept_act`).  `display_coherent` draws the consequences for whole
histories of a session, and for the ends of refreshes and of runs.  What a picture shows is said
pixel by pixel (`Screen.Pictures`).
-/

namespace Chip8

/-! ## Frames -/

/-- A picture that a renderer receives, and whether it is marked as changed. -/
structure Frame where
  picture : Array UInt8
  changed : Bool

namespace Frame

/-- The marked pictures, in the order of the frames. -/
def shown (frames : List Frame) : List (Array UInt8) := (frames.filter (·.changed)).map (·.picture)

/-- The picture that was marked last, the frames being given newest first. -/
def lastShown (frames : List Frame) : Option (Array UInt8) := (shown frames).head?

/-- Every frame, of all given newest first, is marked or repeats the picture that was marked last
before it. -/
def NeverStale (frames : List Frame) : Prop :=
  ∀ later frame earlier, frames = later ++ frame :: earlier →
    frame.changed = true ∨ lastShown earlier = some frame.picture

variable {frames : List Frame} {frame : Frame}

theorem shown_cons (frame : Frame) (frames : List Frame) :
    shown (frame :: frames) = shown [frame] ++ shown frames := by
  have happend : frame :: frames = [frame] ++ frames := rfl
  rw [happend]
  simp only [shown, List.filter_append, List.map_append]

theorem neverStale_nil : NeverStale [] := by
  intro later frame earlier h
  cases later <;> cases h

theorem neverStale_cons (h : NeverStale frames)
    (hf : frame.changed = true ∨ lastShown frames = some frame.picture) :
    NeverStale (frame :: frames) := by
  intro later g earlier hsplit
  cases later with
  | nil =>
    obtain ⟨rfl, rfl⟩ := List.cons.inj hsplit
    exact hf
  | cons _ later =>
    obtain ⟨-, hrest⟩ := List.cons.inj hsplit
    exact h later g earlier hrest

/-- The newest frame, once received, is what was shown last. -/
theorem lastShown_cons (hf : frame.changed = true ∨ lastShown frames = some frame.picture) :
    lastShown (frame :: frames) = some frame.picture := by
  obtain ⟨picture, changed⟩ := frame
  cases changed with
  | true => rfl
  | false => exact hf.resolve_left Bool.false_ne_true

end Frame

/-- The frame that a renderer receives in an event. -/
def Event.frame? : Event → Option Frame
  | .refresh _ screen => some ⟨screen.bytes, screen.changed⟩
  | _ => none

/-- The screen whose picture an event brings to the renderer. -/
def Event.screen? : Event → Option (Screen 64 32)
  | .refresh _ screen => some screen
  | _ => none

/-- The frames that the renderer of a session has received, the newest first. -/
def Session.frames {ρ : Type} (s : Session ρ) : List Frame := s.journal.filterMap Event.frame?

/-- The screens that they were taken of. -/
def Session.screens {ρ : Type} (s : Session ρ) : List (Screen 64 32) :=
  s.journal.filterMap Event.screen?

/-- A frame shows the pixels of a screen, and carries its mark. -/
structure Frame.Shows (frame : Frame) (screen : Screen 64 32) : Prop where
  picture : screen.Pictures frame.picture
  changed : frame.changed = screen.changed

/-- Each frame shows the screen that it was taken of. -/
theorem Session.frames_show {ρ : Type} (s : Session ρ) :
    List.Forall₂ Frame.Shows s.frames s.screens := by
  unfold frames screens
  induction s.journal with
  | nil => exact .nil
  | cons e journal ih =>
    cases e with
    | refresh due screen => exact .cons ⟨screen.pictures_bytes, rfl⟩ ih
    | _ => exact ih

/-! ## Renderers -/

/-- The pictures that calls on a window have brought to it, the newest first: those that were
stretched, copied to the window and made visible. -/
def WindowCall.pictures : List WindowCall → List (Array UInt8)
  | .flip :: .blit :: .stretch _ _ :: .fromBuffer picture _ _ :: calls => picture :: pictures calls
  | _ :: calls => pictures calls
  | [] => []

namespace Renderer

/-- The pictures that have been drawn in the window, the newest first. -/
def drawn (r : Renderer) : List (Array UInt8) := WindowCall.pictures r.calls

/-- `r'` is `r` but for its title, as far as pictures are concerned. -/
structure SamePictures (r r' : Renderer) : Prop where
  window : r'.window = r.window
  width : r'.width = r.width
  height : r'.height = r.height
  refreshes : r'.refreshes = r.refreshes
  drawn : r'.drawn = r.drawn

theorem SamePictures.refl (r : Renderer) : r.SamePictures r := ⟨rfl, rfl, rfl, rfl, rfl⟩

theorem samePictures_setTitle (r : Renderer) (title : String) :
    r.SamePictures (r.setTitle title) := by
  obtain ⟨window, scale, old, refreshes, width, height, calls⟩ := r
  cases window with
  | none => exact ⟨rfl, rfl, rfl, rfl, rfl⟩
  | some size => exact ⟨rfl, rfl, rfl, rfl, rfl⟩

/-- A renderer with a resolution counts a marked picture, and draws it if it has a window. -/
theorem refresh_frame {r : Renderer} (hw : r.width ≠ 0) (hh : r.height ≠ 0) (frame : Frame) :
    (r.refresh frame.picture frame.changed).window = r.window ∧
      (r.refresh frame.picture frame.changed).width = r.width ∧
      (r.refresh frame.picture frame.changed).height = r.height ∧
      (r.refresh frame.picture frame.changed).refreshes =
        r.refreshes + (Frame.shown [frame]).length ∧
      (r.window ≠ none →
        (r.refresh frame.picture frame.changed).drawn = Frame.shown [frame] ++ r.drawn) := by
  obtain ⟨picture, changed⟩ := frame
  cases changed with
  | false => exact ⟨rfl, rfl, rfl, rfl, fun _ => rfl⟩
  | true =>
    unfold refresh
    rw [if_pos rfl, if_pos ⟨hw, hh⟩]
    obtain ⟨window, scale, title, refreshes, width, height, calls⟩ := r
    cases window with
    | none => exact ⟨rfl, rfl, rfl, rfl, fun h => absurd rfl h⟩
    | some size => exact ⟨rfl, rfl, rfl, rfl, fun _ => rfl⟩

end Renderer

/-! ## The invariant -/

open Screen (Kept)

namespace Session

variable {ρ : Type} {s t : Session ρ} {renderer : Renderer}

/-- The frames of a session that was made for `renderer` agree with its screen and with what its
renderer has drawn. -/
structure Coherent (renderer : Renderer) (s : Session ρ) : Prop where
  fresh : Frame.NeverStale s.frames
  synced : s.cpu.machine.screen.changed = false →
    Frame.lastShown s.frames = some s.cpu.machine.screen.bytes
  window : s.renderer.window = renderer.window
  width : s.renderer.width = 64
  height : s.renderer.height = 32
  refreshes : s.renderer.refreshes = renderer.refreshes + (Frame.shown s.frames).length
  drawn : renderer.window ≠ none →
    s.renderer.drawn = Frame.shown s.frames ++ renderer.drawn

/-- What shows no frame and keeps the screen keeps the invariant. -/
theorem Coherent.of_quiet (h : s.Coherent renderer) (hf : t.frames = s.frames)
    (hk : Kept s.cpu.machine.screen t.cpu.machine.screen)
    (hr : s.renderer.SamePictures t.renderer) : t.Coherent renderer where
  fresh := by
    rw [hf]
    exact h.fresh
  synced := by
    intro hdown
    have hsame := hk hdown
    rw [hsame] at hdown ⊢
    rw [hf]
    exact h.synced hdown
  window := hr.window.trans h.window
  width := hr.width.trans h.width
  height := hr.height.trans h.height
  refreshes := by rw [hr.refreshes, hf, h.refreshes]
  drawn := by
    intro hw
    rw [hr.drawn, hf, h.drawn hw]

/-- The frame that a refresh shows. -/
def frame (s : Session ρ) : Frame := ⟨s.cpu.machine.screen.bytes, s.cpu.machine.screen.changed⟩

theorem frames_refresh (s : Session ρ) (due : Bool) :
    (s.refresh due).frames = s.frame :: s.frames := rfl

/-- A frame is marked, or repeats what was shown last. -/
theorem Coherent.frame (h : s.Coherent renderer) :
    s.frame.changed = true ∨ Frame.lastShown s.frames = some s.frame.picture := by
  cases hc : s.cpu.machine.screen.changed with
  | true => exact Or.inl hc
  | false => exact Or.inr (h.synced hc)

theorem coherent_refresh (h : s.Coherent renderer) (due : Bool) :
    (s.refresh due).Coherent renderer := by
  have hframes := s.frames_refresh due
  have hshown : Frame.shown (s.refresh due).frames =
      Frame.shown [s.frame] ++ Frame.shown s.frames := by
    rw [hframes, Frame.shown_cons]
  have hwidth : s.renderer.width ≠ 0 := by
    rw [h.width]
    decide
  have hheight : s.renderer.height ≠ 0 := by
    rw [h.height]
    decide
  obtain ⟨hwindow, hwidth', hheight', hrefreshes, hdrawn⟩ :=
    Renderer.refresh_frame hwidth hheight s.frame
  refine ⟨?_, fun _ => ?_, hwindow.trans h.window, hwidth'.trans h.width, hheight'.trans h.height,
    hrefreshes.trans ?_, fun hw => ?_⟩
  · rw [hframes]
    exact Frame.neverStale_cons h.fresh h.frame
  · rw [hframes]
    exact Frame.lastShown_cons h.frame
  · rw [h.refreshes, hshown, List.length_append]
    omega
  · have hw' : s.renderer.window ≠ none := by
      rw [h.window]
      exact hw
    rw [hshown, List.append_assoc, ← h.drawn hw]
    exact hdrawn hw'

theorem coherent_create {cpu : Cpu ρ} {input : HostInput} {speed : Option Int}
    (hs : create cpu renderer input speed = .ok s) (hc : cpu.machine.screen.changed = true) :
    s.Coherent renderer := by
  have hsame := (renderer.setResolution 64 32).samePictures_setTitle
  unfold create at hs
  split at hs
  · cases hs
  · cases hs
    refine ⟨Frame.neverStale_nil, fun hdown => ?_, (hsame _).window, (hsame _).width,
      (hsame _).height, (hsame _).refreshes, fun _ => (hsame _).drawn⟩
    cases hc.symm.trans hdown

/-! ## Histories -/

variable [ByteSource ρ]

theorem coherent_act (h : s.Coherent renderer) (a : HostAction) :
    Coherent renderer { s with cpu := s.cpu.act a } :=
  h.of_quiet rfl (s.cpu.kept_act a) (.refl s.renderer)

theorem stepCpu_quiet (s : Session ρ) :
    s.stepCpu.1.frames = s.frames ∧ s.stepCpu.1.renderer = s.renderer := by
  unfold stepCpu
  simp only
  split
  · exact ⟨rfl, rfl⟩
  · exact ⟨rfl, rfl⟩

theorem coherent_of_move (h : s.Coherent renderer) (hm : Move s t) : t.Coherent renderer := by
  cases hm with
  | read now => exact h.of_quiet rfl (Kept.refl _) (.refl _)
  | align now => exact h.of_quiet rfl (Kept.refl _) (.refl _)
  | report now =>
    unfold reportIfDue
    split_ifs
    · exact h.of_quiet rfl (Kept.refl _) (s.renderer.samePictures_setTitle _)
    · exact h
  | poll => exact h.of_quiet rfl (Kept.refl _) (.refl _)
  | display now =>
    have hready : Coherent renderer { s with nextDisplay := now + Seconds.displayInterval } :=
      h.of_quiet rfl (Kept.refl _) (.refl _)
    exact (coherent_refresh hready true).of_quiet rfl (Kept.refl _) (.refl _)
  | tick => exact h.of_quiet rfl (Kept.refl _) (.refl _)
  | step =>
    obtain ⟨hframes, hrenderer⟩ := s.stepCpu_quiet
    refine h.of_quiet hframes s.cpu.kept_step ?_
    rw [hrenderer]
    exact .refl s.renderer
  | count => exact h.of_quiet rfl (Kept.refl _) (.refl _)
  | print text => exact h.of_quiet rfl (Kept.refl _) (.refl _)
  | refresh => exact coherent_refresh h false

theorem coherent_obeyAll (h : s.Coherent renderer) {commands : List Command}
    (ht : s.obeyAll commands = some t) : t.Coherent renderer :=
  obeyAll_preserves (P := Coherent renderer) (fun _ a hs => coherent_act hs a)
    (fun hm hs => coherent_of_move hs hm) h ht

/-- The mark is down, and what was shown last, and drawn last if there is a window, shows the pixels
of the screen. -/
structure UpToDate (s : Session ρ) : Prop where
  unchanged : s.cpu.machine.screen.changed = false
  shown : ∃ picture, Frame.lastShown s.frames = some picture ∧
    s.cpu.machine.screen.Pictures picture
  drawn : s.renderer.window ≠ none → ∃ picture, s.renderer.drawn.head? = some picture ∧
    s.cpu.machine.screen.Pictures picture

omit [ByteSource ρ] in
theorem upToDate_refresh (h : s.Coherent renderer) (due : Bool) : (s.refresh due).UpToDate := by
  have hafter := coherent_refresh h due
  have hshown := hafter.synced rfl
  have hpictures := (s.refresh due).cpu.machine.screen.pictures_bytes
  refine ⟨rfl, ⟨_, hshown, hpictures⟩, fun hw => ⟨_, ?_, hpictures⟩⟩
  rw [hafter.window] at hw
  rw [hafter.drawn hw, List.head?_append]
  unfold Frame.lastShown at hshown
  rw [hshown]
  rfl

end Session

/-! ## Ends of runs -/

namespace Session

variable {ρ : Type} [ByteSource ρ] {s t u : Session ρ} {renderer : Renderer}

/-- A run that is in its loop, or whose first reading leads there, ends with a refresh. -/
theorem runFrom_ends {maxOps : Option Int} {phase : Phase} {readings : Readings} {f : Finished ρ}
    (hp : phase ≠ .opening ∨ ∃ now rest, readings = .next now rest)
    (h : s.runFrom maxOps phase readings = some f) :
    ∃ u, Moves s u ∧ f.session = u.refresh false := by
  induction readings generalizing s phase with
  | ended fault =>
    cases h
    exact ⟨s, .refl, if_neg (hp.resolve_right nofun)⟩
  | failed fault rest =>
    cases h
    exact ⟨s, .refl, if_neg (hp.resolve_right nofun)⟩
  | next now rest ih =>
    rw [runFrom] at h
    rcases hf : s.feed maxOps phase now with _ | ⟨phase', t⟩ | ⟨ending, t⟩ <;> rw [hf] at h
    · cases h
    · obtain ⟨u, hu, hend⟩ := ih () (Or.inl (feed_inLoop hf)) h
      exact ⟨u, (feed_moves hf).trans hu, hend⟩
    · cases h
      exact ⟨t, feed_moves hf, rfl⟩

/-- **The screen is never stale.**  Make a session for a screen whose mark is up, with any renderer,
and take it at any moment of any history of commands.  Every frame that the renderer has received
shows the pixels of the screen at its time, and was marked, or repeated the picture of the last
marked one; the renderer has counted the marked frames, and drawn them if it has a window.  A
refresh at this moment, and a run from it that gets past its first reading of the clock, leave the
pixels of the screen as those shown last. -/
theorem display_coherent {cpu : Cpu ρ} {input : HostInput} {speed : Option Int}
    (hs : create cpu renderer input speed = .ok s) (hc : cpu.machine.screen.changed = true)
    {commands : List Command} (hu : s.obeyAll commands = some u) (ht : Moves u t) :
    (Frame.NeverStale t.frames ∧ List.Forall₂ Frame.Shows t.frames t.screens) ∧
      t.renderer.window = renderer.window ∧
      t.renderer.refreshes = renderer.refreshes + (Frame.shown t.frames).length ∧
      (renderer.window ≠ none → t.renderer.drawn = Frame.shown t.frames ++ renderer.drawn) ∧
      (∀ due, (t.refresh due).UpToDate) ∧
      ∀ maxOps now rest f, t.run maxOps (.next now rest) = some f → f.session.UpToDate := by
  have hcoherent : t.Coherent renderer :=
    ht.preserves (fun hm hs => coherent_of_move hs hm) (coherent_obeyAll (coherent_create hs hc) hu)
  refine ⟨⟨hcoherent.fresh, t.frames_show⟩, hcoherent.window, hcoherent.refreshes,
    hcoherent.drawn, upToDate_refresh hcoherent, ?_⟩
  intro maxOps now rest f hf
  obtain ⟨v, hv, hend⟩ := runFrom_ends (Or.inr ⟨now, rest, rfl⟩) hf
  have hv' : v.Coherent renderer := hv.preserves (fun hm hs => coherent_of_move hs hm) hcoherent
  rw [hend]
  exact upToDate_refresh hv' false

/-- The processor of a machine that draws the glyph of zero in the corner, and stays there. -/
def drawingCpu : Cpu CyclicBytes :=
  (Cpu.create (.powerOn .clip) (.ofList []) false).act
    (.load [0xA0, 0x50, 0xD0, 0x05, 0x12, 0x04])

/-- A window of the usual width, half as high. -/
def usualWindow : Renderer :=
  { Renderer.headless (some 512) with
    window := some (512, 256)
    calls := [.setMode 512 256, .setCaption Platform.appName, .init] }

/-- The title of a session that has done nothing. -/
def idleTitle : String :=
  Platform.appName ++ " - " ++ Numeral.decimal 0 ++ " FPS, " ++ Numeral.decimal 0 ++ " OPS"

/-- A session with that machine and that window, without waits between instructions. -/
def drawing : Session CyclicBytes where
  cpu := drawingCpu
  renderer := (usualWindow.setResolution 64 32).setTitle idleTitle
  input := ⟨⟨[]⟩, [], 0⟩
  interval := none
  ops := 0
  nextTick := .zero
  nextDisplay := .zero
  nextReport := .zero
  framesSince := 0
  opsSince := 0
  journal := [.title idleTitle, .resolution 64 32]

/-- A clock that reads zero twice, and then one and two intervals of the timers. -/
def drawingReadings : Readings :=
  .next .zero fun _ => .next .zero fun _ => .next .timerInterval fun _ =>
    .next (.timerInterval + .timerInterval) fun _ => .ended (.usedUp 4)

/-- The session after its first instruction. -/
def drawingOne : Session CyclicBytes := (drawing.opened .zero).turn .zero 1

/-- The session after the second, which draws. -/
def drawingTwo : Session CyclicBytes := drawingOne.turn .timerInterval 1

/-- The session after the third. -/
def drawingThree : Session CyclicBytes := drawingTwo.turn (.timerInterval + .timerInterval) 1

/-- A run of three instructions shows the empty screen, repeats it unmarked, shows the glyph that
the second instruction has drawn, and repeats that at its end.  The window has the glyph. -/
theorem display_coherent_redrawn :
    Renderer.windowed none = .ok usualWindow ∧
      create drawingCpu usualWindow ⟨⟨[]⟩, [], 0⟩ (some 0) = .ok drawing ∧
      ∃ f, drawing.run (some 3) drawingReadings = some f ∧
        f.session.frames.map (·.changed) = [false, true, false, true] ∧
        Frame.NeverStale f.session.frames ∧
        List.Forall₂ Frame.Shows f.session.frames f.session.screens ∧
        f.session.cpu.machine.screen.litAt 0 = true ∧
        f.session.UpToDate ∧
        ∃ picture, f.session.renderer.drawn.head? = some picture ∧ picture[0]? = some 0xFF := by
  obtain ⟨⟨hone, htwo, hthree⟩, ⟨hgoes, hgoes', hfull⟩, hmarks, hlit⟩ :
      ((drawing.opened .zero).Turns .zero 1 ∧ drawingOne.Turns .timerInterval 1 ∧
          drawingTwo.Turns (.timerInterval + .timerInterval) 1) ∧
        (drawingOne.limitReached (some 3) = false ∧ drawingTwo.limitReached (some 3) = false ∧
          drawingThree.limitReached (some 3) = true) ∧
        (drawingThree.refresh false).frames.map (·.changed) = [false, true, false, true] ∧
        (drawingThree.refresh false).cpu.machine.screen.litAt 0 = true := by
    decide +kernel
  have hcreate : create drawingCpu usualWindow ⟨⟨[]⟩, [], 0⟩ (some 0) = .ok drawing := rfl
  have hrun : drawing.run (some 3) drawingReadings =
      some ⟨drawingThree.refresh false, .stopped, .ended (.usedUp 4)⟩ := by
    rw [drawingReadings, run_opening rfl, hone.runFrom, ← drawingOne, hgoes,
      if_neg Bool.false_ne_true, htwo.runFrom, ← drawingTwo, hgoes', if_neg Bool.false_ne_true,
      hthree.runFrom, ← drawingThree, hfull, if_pos rfl]
  have hobeyed : drawing.obeyAll [.run (some 3) drawingReadings] =
      some (drawingThree.refresh false) := by
    refine obeyAll_cons.mpr ⟨drawingThree.refresh false, ?_, obeyAll_nil.mpr rfl⟩
    rw [obey, hrun]
    rfl
  -- the run as a part of a history, and then as the run whose end is looked at
  obtain ⟨⟨hfresh, hshow⟩, hwindow, -⟩ := display_coherent hcreate rfl hobeyed .refl
  obtain ⟨-, -, -, -, -, hends⟩ := display_coherent hcreate rfl (obeyAll_nil.mpr rfl) .refl
  have hdone : (drawingThree.refresh false).UpToDate :=
    hends (some 3) .zero _ ⟨drawingThree.refresh false, .stopped, .ended (.usedUp 4)⟩ hrun
  obtain ⟨picture, hdrawn, hpictures⟩ := hdone.drawn (ne_of_eq_of_ne hwindow nofun)
  have hbyte : picture[0]? =
      some (if (drawingThree.refresh false).cpu.machine.screen.litAt 0 then 0xFF else 0) :=
    hpictures.bytes 0 (by decide) 0 (by decide)
  rw [hlit, if_pos rfl] at hbyte
  exact ⟨rfl, hcreate, _, hrun, hmarks, hfresh, hshow, hlit, hdone, picture, hdrawn, hbyte⟩

end Session

end Chip8
