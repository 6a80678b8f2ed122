import Chip8.Proofs.Session.Steps
import Mathlib.Algebra.GroupWithZero.Nat

/-!
# Chip8.Proofs.Session.Counters — the performance counters lose nothing

A session counts its instructions twice: all of them, and those since the last report.  It counts
the pictures that fall due only since the last report.  A report hands the two counters over and
starts them anew, wherever the service is that makes it, and whether or not it goes on to a picture
or a step succeeds.  What has been reported and what is still to be reported together are therefore
all that there was (`Balanced`), and the figures of the reports are the ones that the titles show.
-/

namespace Chip8

namespace Event

/-- The pictures and the instructions of a report. -/
def report? : Event → Option (Nat × Nat)
  | .report frames ops => some (frames, ops)
  | _ => none

/-- The text of a title. -/
def title? : Event → Option String
  | .title text => some text
  | _ => none

/-- A picture that was due went to the renderer. -/
def isDisplay : Event → Bool
  | .refresh due _ => due
  | _ => false

/-- Neither a report, nor a title, nor a picture that was due. -/
def isUncounted (e : Event) : Bool := e.report?.isNone && e.title?.isNone && !e.isDisplay

end Event

/-- The title that shows these figures. -/
def performanceTitle (figures : Nat × Nat) : String :=
  Platform.appName ++ " - " ++ Numeral.decimal figures.1 ++ " FPS, " ++
    Numeral.decimal figures.2 ++ " OPS"

namespace Renderer

theorem title_refresh (r : Renderer) (picture : Array UInt8) (changed : Bool) :
    (r.refresh picture changed).title = r.title := by
  have hcall (calls : List WindowCall) : (r.call calls).title = r.title := by
    unfold call
    cases r.window with
    | none => rfl
    | some size => rfl
  unfold refresh
  split_ifs
  · exact hcall _
  · rfl
  · rfl

end Renderer

namespace Session

variable {ρ : Type} {s t u : Session ρ}

/-- The figures of all reports that a session has made, the newest first. -/
def reports (s : Session ρ) : List (Nat × Nat) := s.journal.filterMap Event.report?

/-- The titles that a session has given its renderer, the newest first. -/
def titles (s : Session ρ) : List String := s.journal.filterMap Event.title?

/-- The number of pictures that a session has shown because they were due. -/
def displays (s : Session ρ) : Nat := s.journal.countP Event.isDisplay

/-- The books of a session balance. -/
structure Balanced (s : Session ρ) : Prop where
  ops : s.ops = s.opsSince + (s.reports.map (·.2)).sum
  displays : s.displays = s.framesSince + (s.reports.map (·.1)).sum
  /-- After the title at the start, each report has brought a title with its figures. -/
  titles : s.titles = s.reports.map performanceTitle ++ [performanceTitle (0, 0)]
  /-- The renderer shows the last title. -/
  shown : s.renderer.title = s.titles.head?

/-! ## One move -/

/-- What counts nothing, and notes nothing that is counted, keeps the balance. -/
theorem Balanced.of_uncounted (h : s.Balanced) (events : List Event)
    (hj : t.journal = events ++ s.journal) (he : ∀ e ∈ events, e.isUncounted = true)
    (hops : t.ops = s.ops ∧ t.opsSince = s.opsSince) (hframes : t.framesSince = s.framesSince)
    (htitle : t.renderer.title = s.renderer.title) : t.Balanced := by
  simp only [Event.isUncounted, Bool.and_eq_true, Option.isNone_iff_eq_none, Bool.not_eq_true']
    at he
  have hreports : t.reports = s.reports := by
    have hnone : events.filterMap Event.report? = [] :=
      List.filterMap_eq_nil_iff.mpr fun e hm => (he e hm).1.1
    unfold reports
    rw [hj, List.filterMap_append, hnone, List.nil_append]
  have htitles : t.titles = s.titles := by
    have hnone : events.filterMap Event.title? = [] :=
      List.filterMap_eq_nil_iff.mpr fun e hm => (he e hm).1.2
    unfold Session.titles
    rw [hj, List.filterMap_append, hnone, List.nil_append]
  have hdisplays : t.displays = s.displays := by
    have hnone : events.countP Event.isDisplay = 0 :=
      List.countP_eq_zero.mpr fun e hm => by rw [(he e hm).2]; exact Bool.false_ne_true
    unfold Session.displays
    rw [hj, List.countP_append, hnone, Nat.zero_add]
  refine ⟨?_, ?_, ?_, ?_⟩
  · rw [hops.1, hops.2, hreports, h.ops]
  · rw [hdisplays, hframes, hreports, h.displays]
  · rw [htitles, hreports, h.titles]
  · rw [htitle, htitles, h.shown]

/-- A report hands over what has been counted since the last one. -/
theorem balanced_reportIfDue (h : s.Balanced) (now : Seconds) : (s.reportIfDue now).Balanced := by
  unfold reportIfDue
  split_ifs
  · refine ⟨?_, ?_, congrArg (performanceTitle (s.framesSince, s.opsSince) :: ·) h.titles, rfl⟩
    · show s.ops = 0 + (s.opsSince + (s.reports.map (·.2)).sum)
      rw [h.ops, Nat.zero_add]
    · show s.displays = 0 + (s.framesSince + (s.reports.map (·.1)).sum)
      rw [h.displays, Nat.zero_add]
  · exact h

theorem balanced_display (h : s.Balanced) (now : Seconds) : (s.display now).Balanced where
  ops := h.ops
  displays := by
    have hone : (s.display now).displays = s.displays + 1 := List.countP_cons_of_pos rfl
    have hframes : (s.display now).framesSince = s.framesSince + 1 := rfl
    have hreports : (s.display now).reports = s.reports := rfl
    rw [hone, hframes, hreports, h.displays]
    omega
  titles := h.titles
  shown := (Renderer.title_refresh _ _ _).trans h.shown

theorem balanced_count (h : s.Balanced) : s.count.Balanced where
  ops := by
    have hops := h.ops
    show s.ops + 1 = s.opsSince + 1 + (s.reports.map (·.2)).sum
    omega
  displays := h.displays
  titles := h.titles
  shown := h.shown

theorem balanced_create {cpu : Cpu ρ} {renderer : Renderer} {input : HostInput}
    {speed : Option Int} (hs : create cpu renderer input speed = .ok s) : s.Balanced := by
  unfold create at hs
  split at hs
  · cases hs
  · cases hs
    exact ⟨rfl, rfl, rfl, rfl⟩

variable [ByteSource ρ]

/-- A step, its trace and its outcome are counted only once it has succeeded. -/
theorem balanced_stepCpu (h : s.Balanced) : s.stepCpu.1.Balanced := by
  rw [stepCpu_eq]
  refine h.of_uncounted
    (.step s.cpu.step.error.isNone :: (s.cpu.step.line.map Event.line).toList) rfl ?_ ⟨rfl, rfl⟩
    rfl rfl
  cases s.cpu.step.line with
  | none => exact List.forall_mem_singleton.mpr rfl
  | some line => exact List.forall_mem_cons.mpr ⟨rfl, List.forall_mem_singleton.mpr rfl⟩

theorem balanced_of_move (h : s.Balanced) (hm : Move s t) : t.Balanced := by
  have hone {e : Event} (he : e.isUncounted = true) : ∀ f ∈ [e], f.isUncounted = true :=
    List.forall_mem_singleton.mpr he
  cases hm with
  | read now => exact h.of_uncounted [.reading now] rfl (hone rfl) ⟨rfl, rfl⟩ rfl rfl
  | align now => exact h.of_uncounted [] rfl (List.forall_mem_nil _) ⟨rfl, rfl⟩ rfl rfl
  | report now => exact balanced_reportIfDue h now
  | poll => exact h.of_uncounted [.poll s.poll.2] rfl (hone rfl) ⟨rfl, rfl⟩ rfl rfl
  | display now => exact balanced_display h now
  | tick => exact h.of_uncounted [.tick] rfl (hone rfl) ⟨rfl, rfl⟩ rfl rfl
  | step => exact balanced_stepCpu h
  | count => exact balanced_count h
  | print text => exact h.of_uncounted [.line text] rfl (hone rfl) ⟨rfl, rfl⟩ rfl rfl
  | refresh =>
    exact h.of_uncounted [.refresh false s.cpu.machine.screen] rfl (hone rfl) ⟨rfl, rfl⟩ rfl
      (Renderer.title_refresh _ _ _)

/-- **The counters lose nothing.**  Make a session and take it at any moment of any history of
commands, be it in the middle of a service or of a run, whatever the clock, the program and the user
do.  All instructions counted are those counted since the last report together with those that the
reports have shown, and so are all pictures shown because they were due. -/
theorem counters_balanced {cpu : Cpu ρ} {renderer : Renderer} {input : HostInput}
    {speed : Option Int} (hs : create cpu renderer input speed = .ok s) {commands : List Command}
    (hu : s.obeyAll commands = some u) (ht : Moves u t) : t.Balanced := by
  have hcommands : u.Balanced :=
    obeyAll_preserves (P := Balanced)
      (fun _ _ h => h.of_uncounted [] rfl (List.forall_mem_nil _) ⟨rfl, rfl⟩ rfl rfl)
      (fun hm h => balanced_of_move h hm) (balanced_create hs) hu
  exact ht.preserves (fun hm h => balanced_of_move h hm) hcommands

/-- An uncapped session with an empty memory, whose user quits when first asked. -/
def uncapped : Session CyclicBytes where
  cpu := Cpu.create (.powerOn .wrap) (.ofList []) false
  renderer := ((Renderer.headless none).setResolution 64 32).setTitle (performanceTitle (0, 0))
  input := ⟨⟨[]⟩, [[.quit]], 0⟩
  interval := none
  ops := 0
  nextTick := .zero
  nextDisplay := .zero
  nextReport := .zero
  framesSince := 0
  opsSince := 0
  journal := [.title (performanceTitle (0, 0)), .resolution 64 32]

/-- That session after a run of one instruction before time zero. -/
def uncappedAfterRun : Session CyclicBytes := ((uncapped.opened ⟨-1⟩).turn ⟨-1⟩ 1).refresh false

/-- A service at time zero makes a report of the instruction; the user quits in the same service. -/
theorem counters_balanced_after_report :
    create (Cpu.create (.powerOn .wrap) (.ofList []) false) (.headless none)
        ⟨⟨[]⟩, [[.quit]], 0⟩ (some 0) = .ok uncapped ∧
      ∃ u, uncapped.obeyAll [.run (some 1) (.stillAt ⟨-1⟩), .service .zero] = some u ∧
        u.reports = [(0, 1)] ∧ u.opsSince = 0 ∧ u.ops = 1 := by
  have hcreate : create (Cpu.create (.powerOn .wrap) (CyclicBytes.ofList []) false)
      (.headless none) ⟨⟨[]⟩, [[.quit]], 0⟩ (some 0) = .ok uncapped := rfl
  obtain ⟨hturns, hfull, hquits, hreports, hsince⟩ : (uncapped.opened ⟨-1⟩).Turns ⟨-1⟩ 1 ∧
      ((uncapped.opened ⟨-1⟩).turn ⟨-1⟩ 1).limitReached (some 1) = true ∧
      (uncappedAfterRun.attend .zero).2 = true ∧
      (uncappedAfterRun.attend .zero).1.reports = [(0, 1)] ∧
      (uncappedAfterRun.attend .zero).1.opsSince = 0 := by
    decide +kernel
  have hrun : uncapped.obey (.run (some 1) (.stillAt ⟨-1⟩)) = some uncappedAfterRun := by
    rw [obey, Readings.stillAt, run_opening rfl, hturns.runFrom, if_pos hfull]
    rfl
  have hservice : uncappedAfterRun.obey (.service .zero) =
      some (uncappedAfterRun.attend .zero).1 := by
    rw [obey, service_of_quits hquits, Option.map_some]
  have hobeyed : uncapped.obeyAll [.run (some 1) (.stillAt ⟨-1⟩), .service .zero] =
      some (uncappedAfterRun.attend .zero).1 := by
    refine obeyAll_cons.mpr ⟨uncappedAfterRun, hrun, ?_⟩
    exact obeyAll_cons.mpr ⟨(uncappedAfterRun.attend .zero).1, hservice, obeyAll_nil.mpr rfl⟩
  have hbalanced := counters_balanced hcreate hobeyed .refl
  refine ⟨hcreate, _, hobeyed, hreports, hsince, ?_⟩
  rw [hbalanced.ops, hsince, hreports]
  rfl

end Session

end Chip8
