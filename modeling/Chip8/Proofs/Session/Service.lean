import Chip8.Session.Basic
import Mathlib.Logic.Function.Iterate
import Mathlib.Tactic.ByContra
import Mathlib.Tactic.SplitIfs

/-!
# Chip8.Proofs.Session.Service — what a service does, and whether it ends

A service attends to the report, the host and the picture, and then the timers make the steps that
have fallen due.  Only these can go on for ever.  How many of them there are, if they end, depends
on the deadline and the time alone (`Overdue`): catching up ends just if there is such a number, and
then makes that many steps of the timers and nothing else (`catchUp_eq_some_iff`).
-/

namespace Chip8

/-! ## Deadlines -/

/-- A deadline of the timers after the interval has been added `n` times. -/
def Seconds.afterTicks (t : Seconds) (n : Nat) : Seconds := (· + Seconds.timerInterval)^[n] t

/-- The deadline `t`, moved on by one interval after another, has passed `n` times by `now`, but not
once more. -/
def Overdue (t now : Seconds) (n : Nat) : Prop :=
  (∀ k < n, t.afterTicks k ≤ now) ∧ now < t.afterTicks n

instance (t now : Seconds) (n : Nat) : Decidable (Overdue t now n) :=
  inferInstanceAs (Decidable (_ ∧ _))

theorem Seconds.not_le {t now : Seconds} : ¬ t ≤ now ↔ now < t := Int.not_le

theorem Seconds.afterTicks_afterTicks (t : Seconds) (m n : Nat) :
    (t.afterTicks m).afterTicks n = t.afterTicks (m + n) := by
  unfold afterTicks
  rw [← Function.iterate_add_apply, Nat.add_comm]

namespace Overdue

variable {t now later : Seconds} {m n : Nat}

theorem le_of_overdue (h : Overdue t now m) (h' : Overdue t now n) : m ≤ n := by
  by_contra hlt
  have hpassed := h.1 n (Nat.not_le.mp hlt)
  exact Seconds.not_le.mpr h'.2 hpassed

theorem unique (h : Overdue t now m) (h' : Overdue t now n) : m = n :=
  Nat.le_antisymm (h.le_of_overdue h') (h'.le_of_overdue h)

/-- What is overdue later is what is overdue now and what falls due in between. -/
theorem trans (hle : now ≤ later) (h : Overdue t now m) (h' : Overdue (t.afterTicks m) later n) :
    Overdue t later (m + n) := by
  constructor
  · intro k hk
    rcases Nat.lt_or_ge k m with hlt | hge
    · exact Int.le_trans (h.1 k hlt) hle
    · have hpassed := h'.1 (k - m) (by omega)
      rwa [Seconds.afterTicks_afterTicks, Nat.add_sub_cancel' hge] at hpassed
  · have hnot := h'.2
    rwa [Seconds.afterTicks_afterTicks] at hnot

theorem zero_iff : Overdue t now 0 ↔ ¬ t ≤ now := by
  rw [Seconds.not_le]
  exact ⟨And.right, fun h => ⟨fun k hk => absurd hk (Nat.not_lt_zero k), h⟩⟩

/-- One step is due, and then those that are overdue after it. -/
theorem succ_iff : Overdue t now (n + 1) ↔ t ≤ now ∧ Overdue (t + Seconds.timerInterval) now n := by
  constructor
  · intro h
    exact ⟨h.1 0 (Nat.zero_lt_succ n), fun k hk => h.1 (k + 1) (Nat.succ_lt_succ hk), h.2⟩
  · rintro ⟨hdue, h⟩
    refine ⟨fun k hk => ?_, h.2⟩
    cases k with
    | zero => exact hdue
    | succ k => exact h.1 k (Nat.lt_of_succ_lt_succ hk)

/-- A deadline that comes past `now` at all does so after a number of steps that is the first. -/
theorem exists_of_lt (h : now < t.afterTicks m) : ∃ n, Overdue t now n := by
  induction m generalizing t with
  | zero => exact ⟨0, zero_iff.mpr (Seconds.not_le.mpr h)⟩
  | succ m ih =>
    by_cases hdue : t ≤ now
    · obtain ⟨n, hover⟩ := ih (t := t + Seconds.timerInterval) h
      exact ⟨n + 1, succ_iff.mpr ⟨hdue, hover⟩⟩
    · exact ⟨0, zero_iff.mpr hdue⟩

end Overdue

namespace Session

variable {ρ : Type} {s t : Session ρ} {now : Seconds} {n : Nat} {q : Bool} {P : Session ρ → Prop}

/-! ## Catching up -/

theorem nextTick_iterate (s : Session ρ) (n : Nat) :
    (tick^[n] s).nextTick = s.nextTick.afterTicks n := by
  induction n generalizing s with
  | zero => rfl
  | succ n ih => exact ih s.tick

/-- Where the timers have got to, they have got to by a number of steps that were all due. -/
theorem Ticks.exists_iterate (h : Ticks now s t) :
    ∃ n, (∀ k < n, s.nextTick.afterTicks k ≤ now) ∧ t = tick^[n] s := by
  induction h with
  | start => exact ⟨0, fun k hk => absurd hk (Nat.not_lt_zero k), rfl⟩
  | next h hdue ih =>
    obtain ⟨n, hpassed, rfl⟩ := ih
    refine ⟨n + 1, fun k hk => ?_, (Function.iterate_succ_apply' tick n s).symm⟩
    rcases Nat.lt_or_eq_of_le (Nat.lt_succ_iff.mp hk) with hlt | rfl
    · exact hpassed k hlt
    · rwa [nextTick_iterate] at hdue

theorem tickOn_of_due {u : Subtype (Ticks now s)} (hdue : u.val.nextTick ≤ now) :
    tickOn now s u = tickOn now s ⟨u.val.tick, u.property.next hdue⟩ := by
  rw [tickOn, repeatM_eq_of_monadTail, repeatM.body, dif_pos hdue]
  rfl

theorem tickOn_of_not_due {u : Subtype (Ticks now s)} (hdue : ¬ u.val.nextTick ≤ now) :
    tickOn now s u = u := by
  rw [tickOn, repeatM_eq_of_monadTail, repeatM.body, dif_neg hdue]
  rfl

theorem tickOn_of_overdue {u : Subtype (Ticks now s)} (hover : Overdue u.val.nextTick now n) :
    (tickOn now s u).val = tick^[n] u.val := by
  induction n generalizing u with
  | zero =>
    rw [tickOn_of_not_due (Overdue.zero_iff.mp hover)]
    rfl
  | succ n ih =>
    obtain ⟨hdue, hrest⟩ := Overdue.succ_iff.mp hover
    rw [tickOn_of_due hdue, Function.iterate_succ_apply]
    exact ih hrest

/-- Catching up ends just if some number of steps is overdue, and then makes that many. -/
theorem catchUp_eq_some_iff :
    s.catchUp now = some t ↔ ∃ n, Overdue s.nextTick now n ∧ t = tick^[n] s := by
  unfold catchUp
  simp only
  constructor
  · intro h
    split_ifs at h with hdue
    cases h
    obtain ⟨n, hpassed, hn⟩ := (tickOn now s ⟨s, .start⟩).property.exists_iterate
    rw [hn, nextTick_iterate, Seconds.not_le] at hdue
    exact ⟨n, ⟨hpassed, hdue⟩, hn⟩
  · rintro ⟨n, hover, rfl⟩
    have hlater : ¬ (tick^[n] s).nextTick ≤ now := by
      rw [nextTick_iterate, Seconds.not_le]
      exact hover.2
    rw [tickOn_of_overdue hover, if_neg hlater]

/-- What a step of the timers keeps, catching up keeps. -/
theorem catchUp_preserves (htick : ∀ {s : Session ρ}, P s → P s.tick)
    (h : s.catchUp now = some t) (hs : P s) : P t := by
  obtain ⟨n, -, rfl⟩ := catchUp_eq_some_iff.mp h
  clear h
  induction n generalizing s with
  | zero => exact hs
  | succ n ih => exact ih (htick hs)

/-! ## Attending -/

/-- What a report, a poll and a picture keep, attending to what is due keeps. -/
theorem attend_preserves (hreport : ∀ {s : Session ρ}, P s → P (s.reportIfDue now))
    (hpoll : ∀ {s : Session ρ}, P s → P s.poll.1)
    (hdisplay : ∀ {s : Session ρ}, P s → P (s.display now)) (hs : P s) :
    P (s.attend now).1 := by
  have hreported := hreport hs
  unfold attend
  generalize s.reportIfDue now = r at hreported ⊢
  simp only
  split_ifs
  · have hpolled := hpoll hreported
    rcases hp : r.poll with ⟨u, _ | _⟩
    · rw [hp] at hpolled
      exact hdisplay hpolled
    · rw [hp] at hpolled
      exact hpolled
  · exact hreported

/-- A report does not ask the host. -/
theorem unseen_reportIfDue (s : Session ρ) (now : Seconds) :
    (s.reportIfDue now).nextDisplay = s.nextDisplay ∧ (s.reportIfDue now).input = s.input := by
  unfold reportIfDue
  split_ifs
  · exact ⟨rfl, rfl⟩
  · exact ⟨rfl, rfl⟩

/-- The user quits when the host is asked and its events ask for it. -/
theorem attend_quits_iff :
    (s.attend now).2 = true ↔
      s.nextDisplay ≤ now ∧ HostEvent.asksToQuit s.input.batch = true := by
  obtain ⟨hdisplay, hinput⟩ := s.unseen_reportIfDue now
  unfold attend
  rw [← hdisplay, ← hinput]
  generalize s.reportIfDue now = r
  have hasks : r.poll.2 = HostEvent.asksToQuit r.input.batch := rfl
  simp only
  split_ifs with hdue
  · rw [← hasks]
    rcases r.poll with ⟨u, _ | _⟩
    · simp [hdue]
    · simp [hdue]
  · simp [hdue]

/-- Attending without asking the host leaves the time of asking and the inputs alone. -/
theorem attend_unseen (hlater : ¬ s.nextDisplay ≤ now) :
    (s.attend now).1.nextDisplay = s.nextDisplay ∧ (s.attend now).1.input = s.input := by
  have hreported := s.unseen_reportIfDue now
  rw [attend, if_neg (by rwa [hreported.1])]
  exact hreported

/-! ## Services -/

/-- How a service goes: it ends with a wish to quit, or the timers catch up. -/
inductive Serviced (now : Seconds) (s : Session ρ) : Session ρ → Bool → Prop where
  | quit {t : Session ρ} (ha : s.attend now = (t, true)) : Serviced now s t true
  | done {r t : Session ρ} (ha : s.attend now = (r, false)) (hc : r.catchUp now = some t) :
      Serviced now s t false

theorem serviced (h : s.service now = some (t, q)) : Serviced now s t q := by
  unfold service at h
  split at h
  · rename_i u ha
    cases h
    exact .quit ha
  · rename_i r ha
    split at h
    · cases h
    · rename_i u hc
      cases h
      exact .done ha hc

theorem service_of_quits (h : (s.attend now).2 = true) :
    s.service now = some ((s.attend now).1, true) := by
  have ha : s.attend now = ((s.attend now).1, true) := Prod.ext rfl h
  rw [service, ha]

/-- The timers of a service make as many steps as are overdue once it has attended to the rest. -/
theorem service_of_overdue (h : (s.attend now).2 = false)
    (hover : Overdue (s.attend now).1.nextTick now n) :
    s.service now = some (tick^[n] (s.attend now).1, false) := by
  have ha : s.attend now = ((s.attend now).1, false) := Prod.ext rfl h
  have hc := catchUp_eq_some_iff.mpr ⟨n, hover, rfl⟩
  rw [service, ha]
  simp only [hc]

/-- What the parts of a service keep, a service keeps. -/
theorem service_preserves (hreport : ∀ {s : Session ρ}, P s → P (s.reportIfDue now))
    (hpoll : ∀ {s : Session ρ}, P s → P s.poll.1)
    (hdisplay : ∀ {s : Session ρ}, P s → P (s.display now))
    (htick : ∀ {s : Session ρ}, P s → P s.tick) (h : s.service now = some (t, q)) (hs : P s) :
    P t := by
  have hattended := attend_preserves hreport hpoll hdisplay hs
  cases serviced h with
  | quit ha => rwa [ha] at hattended
  | done ha hc =>
    rw [ha] at hattended
    exact catchUp_preserves htick hc hattended

end Session

end Chip8
