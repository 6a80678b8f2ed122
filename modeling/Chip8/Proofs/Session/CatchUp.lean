import Chip8.Proofs.Session.Steps

/-!
# Chip8.Proofs.Session.CatchUp — the timers make up for lost time

A service lets the timers make every step that has fallen due, and nothing else that it does touches
them (`service_ticks`).  How many steps are overdue depends on the deadline and the time alone, and
an earlier service only takes some of them away (`Overdue.trans`).  So services at many times leave
the timers as one service at the last of these times does (`service_batched`).  The deadline moves
on by plain additions of the interval, and nothing is said about how these round: all that is
assumed is that they bring the deadline past the last time in the end.
-/

namespace Chip8

namespace Session

variable {ρ : Type} {s t u : Session ρ} {now : Seconds} {m n : Nat}

/-! ## The steps of the timers -/

/-- From `s` to `t` the timers have made `n` steps: the interval has been added to the deadline as
often, and each timer has gone down as far as it could. -/
structure Ticked (s : Session ρ) (n : Nat) (t : Session ρ) : Prop where
  nextTick : t.nextTick = s.nextTick.afterTicks n
  delay : t.cpu.machine.delay = max (min 0 s.cpu.machine.delay) (s.cpu.machine.delay - n)
  sound : t.cpu.machine.sound = max (min 0 s.cpu.machine.sound) (s.cpu.machine.sound - n)
  noted : t.journal.count .tick = s.journal.count .tick + n

/-- The timers and the deadline have been left alone. -/
theorem Ticked.of_eq (events : List Event) (hn : t.nextTick = s.nextTick)
    (hd : t.cpu.machine.delay = s.cpu.machine.delay)
    (hs : t.cpu.machine.sound = s.cpu.machine.sound)
    (hj : t.journal = events ++ s.journal) (he : .tick ∉ events) : Ticked s 0 t := by
  refine ⟨hn, by omega, by omega, ?_⟩
  rw [hj, List.count_append, List.count_eq_zero_of_not_mem he, Nat.zero_add, Nat.add_zero]

theorem Ticked.refl (s : Session ρ) : Ticked s 0 s :=
  .of_eq [] rfl rfl rfl rfl List.not_mem_nil

theorem Ticked.trans (h : Ticked s m t) (h' : Ticked t n u) : Ticked s (m + n) u where
  nextTick := by rw [h'.nextTick, h.nextTick, Seconds.afterTicks_afterTicks]
  delay := by
    have hfirst := h.delay
    have hthen := h'.delay
    omega
  sound := by
    have hfirst := h.sound
    have hthen := h'.sound
    omega
  noted := by rw [h'.noted, h.noted, Nat.add_assoc]

theorem ticked_tick (s : Session ρ) : Ticked s 1 s.tick where
  nextTick := rfl
  delay := by
    show (if 0 < s.cpu.machine.delay then s.cpu.machine.delay - 1 else s.cpu.machine.delay) = _
    split_ifs <;> omega
  sound := by
    show (if 0 < s.cpu.machine.sound then s.cpu.machine.sound - 1 else s.cpu.machine.sound) = _
    split_ifs <;> omega
  noted := by
    show (Event.tick :: s.journal).count .tick = _
    rw [List.count_cons_self]

theorem ticked_iterate (s : Session ρ) (n : Nat) : Ticked s n (tick^[n] s) := by
  induction n with
  | zero => exact .refl s
  | succ n ih =>
    rw [Function.iterate_succ_apply']
    exact ih.trans (ticked_tick _)

theorem ticked_reportIfDue (s : Session ρ) (now : Seconds) : Ticked s 0 (s.reportIfDue now) := by
  unfold reportIfDue
  split_ifs
  · exact .of_eq [.title _, .report _ _] rfl rfl rfl rfl (by simp)
  · exact .refl s

theorem ticked_poll (s : Session ρ) : Ticked s 0 s.poll.1 :=
  .of_eq [.poll _] rfl rfl rfl rfl (by simp)

theorem ticked_display (s : Session ρ) (now : Seconds) : Ticked s 0 (s.display now) :=
  .of_eq [.refresh true _] rfl rfl rfl rfl (by simp)

/-- What comes before the catching up leaves the timers alone. -/
theorem ticked_attend (s : Session ρ) (now : Seconds) : Ticked s 0 (s.attend now).1 :=
  attend_preserves (P := Ticked s 0) (fun hs => hs.trans (ticked_reportIfDue _ now))
    (fun hs => hs.trans (ticked_poll _)) (fun hs => hs.trans (ticked_display _ now)) (.refl s)

/-! ## One service -/

/-- A service that does not end in quitting lets the timers make every step that is overdue, and
that is all it does to them. -/
theorem service_ticks (h : s.service now = some (t, false)) :
    ∃ n, Overdue s.nextTick now n ∧ Ticked s n t := by
  have hattended := s.ticked_attend now
  cases serviced h with
  | done ha hc =>
    rw [ha] at hattended
    obtain ⟨n, hover, rfl⟩ := catchUp_eq_some_iff.mp hc
    rw [hattended.nextTick] at hover
    have hticked := hattended.trans (ticked_iterate _ n)
    rw [Nat.zero_add] at hticked
    exact ⟨n, hover, hticked⟩

/-- It comes to an end if the deadline does come past `now`. -/
theorem service_of_lt (hends : now < s.nextTick.afterTicks m) (hstays : (s.attend now).2 = false) :
    ∃ t, s.service now = some (t, false) := by
  obtain ⟨n, hover⟩ := Overdue.exists_of_lt hends
  have hkept := (s.ticked_attend now).nextTick
  rw [Seconds.afterTicks, Function.iterate_zero_apply] at hkept
  rw [← hkept] at hover
  exact ⟨_, service_of_overdue hstays hover⟩

/-- A service that does not ask the host leaves the time of asking and the inputs alone. -/
theorem service_unseen (hlater : ¬ s.nextDisplay ≤ now) (h : s.service now = some (t, false)) :
    t.nextDisplay = s.nextDisplay ∧ t.input = s.input := by
  have hunseen := attend_unseen hlater
  cases serviced h with
  | @done r _ ha hc =>
    rw [ha] at hunseen
    exact catchUp_preserves
      (P := fun u => u.nextDisplay = s.nextDisplay ∧ u.input = s.input) id hc hunseen

/-! ## Several services -/

/-- Services at some times, until one of them ends in quitting, or does not end. -/
def serviceAll (s : Session ρ) : List Seconds → Option (Session ρ × Bool)
  | [] => some (s, false)
  | now :: times =>
    match s.service now with
    | none => none
    | some (t, true) => some (t, true)
    | some (t, false) => t.serviceAll times

theorem serviceAll_cons (times : List Seconds) (h : s.service now = some (t, false)) :
    s.serviceAll (now :: times) = t.serviceAll times := by
  rw [serviceAll, h]

/-- Where the user quits in none of several services, the first does not end in quitting. -/
theorem attend_stays {times : List Seconds}
    (hstays : ∀ u, s.serviceAll (now :: times) ≠ some (u, true)) : (s.attend now).2 = false := by
  rw [← Bool.not_eq_true]
  intro hquits
  refine hstays (s.attend now).1 ?_
  rw [serviceAll, service_of_quits hquits]

/-- The user quits at no time if no batch to come asks for it. -/
theorem serviceAll_stays (times : List Seconds)
    (hb : ∀ batch ∈ s.input.batches, HostEvent.asksToQuit batch = false) (u : Session ρ) :
    s.serviceAll times ≠ some (u, true) := by
  induction times generalizing s with
  | nil => exact nofun
  | cons now times ih =>
    have hhead : HostEvent.asksToQuit s.input.batch = false := by
      rw [HostInput.batch]
      cases hbatches : s.input.batches with
      | nil => rfl
      | cons batch batches => exact hb batch (by simp [hbatches])
    rw [serviceAll]
    rcases hs : s.service now with _ | ⟨t, _ | _⟩
    · exact nofun
    · refine ih (service_preserves
        (P := fun t => ∀ batch ∈ t.input.batches, HostEvent.asksToQuit batch = false) ?_
        (fun ht batch hm => ht batch (List.mem_of_mem_tail hm)) id id hs hb)
      intro t ht
      rwa [(t.unseen_reportIfDue now).2]
    · cases serviced hs with
      | quit ha =>
        have hquits : (s.attend now).2 = true := by rw [ha]
        cases hhead.symm.trans (attend_quits_iff.mp hquits).2

/-- If the deadline comes past `last`, a service at an earlier time comes to an end, and leaves a
deadline that still comes past `last`. -/
theorem service_before {last : Seconds} (hle : now ≤ last)
    (hends : last < s.nextTick.afterTicks m) (hstays : (s.attend now).2 = false) :
    ∃ t n, s.service now = some (t, false) ∧ Overdue s.nextTick now n ∧ Ticked s n t ∧
      last < t.nextTick.afterTicks (m - n) := by
  obtain ⟨t, hs⟩ := service_of_lt (Int.lt_of_le_of_lt hle hends) hstays
  obtain ⟨n, hover, hticked⟩ := service_ticks hs
  refine ⟨t, n, hs, hover, hticked, ?_⟩
  have hn : n ≤ m := by
    by_contra hlt
    have hpassed := hover.1 m (Nat.not_le.mp hlt)
    exact Seconds.not_le.mpr hends (Int.le_trans hpassed hle)
  rwa [hticked.nextTick, Seconds.afterTicks_afterTicks, Nat.add_sub_cancel' hn]

/-- Services at more and more late times, at none of which the user quits, all come to an end if the
deadline comes past the last of them.  They let the timers make the steps that are overdue at the
last of the times. -/
theorem serviceAll_ticks {times : List Seconds} {last : Seconds}
    (ho : (times ++ [last]).Pairwise (· ≤ ·)) (hends : last < s.nextTick.afterTicks m)
    (hstays : ∀ u, s.serviceAll (times ++ [last]) ≠ some (u, true)) :
    ∃ u n, s.serviceAll (times ++ [last]) = some (u, false) ∧ Overdue s.nextTick last n ∧
      Ticked s n u := by
  induction times generalizing s m with
  | nil =>
    obtain ⟨u, n, hs, hover, hticked, -⟩ :=
      service_before (Int.le_refl last.rank) hends (attend_stays hstays)
    exact ⟨u, n, serviceAll_cons [] hs, hover, hticked⟩
  | cons now times ih =>
    obtain ⟨hle, hrest⟩ := List.pairwise_cons.mp ho
    have hlast : now ≤ last := hle last (List.mem_append_right times (List.mem_singleton_self last))
    obtain ⟨t, k, hs, hover, hticked, hends'⟩ := service_before hlast hends (attend_stays hstays)
    have hall := serviceAll_cons (times ++ [last]) hs
    rw [List.cons_append, hall] at hstays ⊢
    obtain ⟨u, n, hu, hover', hticked'⟩ := ih hrest hends' hstays
    rw [hticked.nextTick] at hover'
    exact ⟨u, k + n, hu, hover.trans hlast hover', hticked.trans hticked'⟩

/-- Where the user quits in none of several services, nor does one at the last of the times end in
quitting: if it asks the host, so has one of the several, with the same answer. -/
theorem attend_stays_last {times : List Seconds} {last : Seconds}
    (ho : (times ++ [last]).Pairwise (· ≤ ·)) (hends : last < s.nextTick.afterTicks m)
    (hstays : ∀ u, s.serviceAll (times ++ [last]) ≠ some (u, true)) :
    (s.attend last).2 = false := by
  induction times generalizing s m with
  | nil => exact attend_stays hstays
  | cons now times ih =>
    obtain ⟨hle, hrest⟩ := List.pairwise_cons.mp ho
    have hlast : now ≤ last := hle last (List.mem_append_right times (List.mem_singleton_self last))
    have hnow := attend_stays hstays
    obtain ⟨t, k, hs, -, -, hends'⟩ := service_before hlast hends hnow
    rw [List.cons_append, serviceAll_cons (times ++ [last]) hs] at hstays
    have hafter := ih hrest hends' hstays
    rw [← Bool.not_eq_true, attend_quits_iff] at hnow hafter ⊢
    rintro ⟨hdue, hasks⟩
    by_cases hasked : s.nextDisplay ≤ now
    · exact hnow ⟨hasked, hasks⟩
    · obtain ⟨hd, hi⟩ := service_unseen hasked hs
      rw [hd, hi] at hafter
      exact hafter ⟨hdue, hasks⟩

/-- **Catching up does not depend on how services are batched.**  Take services at several times,
none before the one ahead of it, at none of which the user quits, and suppose that adding the
interval to the deadline brings it past the last of the times in the end.  Then all of these
services come to an end, and so does one at the last of the times, and they leave the timers and the
deadline of their next step alike.  The deadline then lies after the last time.  Both ways the
interval has been added to it the same number of times, the number that was overdue, and each timer
has gone down by that number, but not below zero. -/
theorem service_batched {times : List Seconds} {last : Seconds}
    (ho : (times ++ [last]).Pairwise (· ≤ ·)) (hends : ∃ m, last < s.nextTick.afterTicks m)
    (hstays : ∀ u, s.serviceAll (times ++ [last]) ≠ some (u, true)) :
    ∃ t u n, s.serviceAll (times ++ [last]) = some (u, false) ∧
      s.service last = some (t, false) ∧
      (t.cpu.machine.delay = u.cpu.machine.delay ∧ t.cpu.machine.sound = u.cpu.machine.sound ∧
        t.nextTick = u.nextTick) ∧
      (¬ t.nextTick ≤ last ∧ ¬ u.nextTick ≤ last) ∧
      (Overdue s.nextTick last n ∧ Ticked s n t ∧ Ticked s n u) ∧
      (0 ≤ s.cpu.machine.delay → t.cpu.machine.delay = max 0 (s.cpu.machine.delay - n)) ∧
      (0 ≤ s.cpu.machine.sound → t.cpu.machine.sound = max 0 (s.cpu.machine.sound - n)) := by
  obtain ⟨m, hends⟩ := hends
  obtain ⟨u, n, hu, hover, hmany⟩ := serviceAll_ticks ho hends hstays
  obtain ⟨t, hs⟩ := service_of_lt hends (attend_stays_last ho hends hstays)
  obtain ⟨n', hover', hone⟩ := service_ticks hs
  obtain rfl := hover'.unique hover
  have hlater : ¬ t.nextTick ≤ last := by
    rw [hone.nextTick]
    exact Seconds.not_le.mpr hover.2
  have hdeadline : t.nextTick = u.nextTick := hone.nextTick.trans hmany.nextTick.symm
  have hdelay := hone.delay
  have hsound := hone.sound
  exact ⟨t, u, n', hu, hs,
    ⟨hdelay.trans hmany.delay.symm, hsound.trans hmany.sound.symm, hdeadline⟩,
    ⟨hlater, hdeadline ▸ hlater⟩, ⟨hover, hone, hmany⟩, by omega, by omega⟩

/-- A session that was last serviced before zero seconds. -/
def laggingTimers : Session CyclicBytes where
  cpu := .create { Machine.powerOn .wrap with delay := 1, sound := 9 } (.ofList []) false
  renderer := .headless none
  input := ⟨⟨[]⟩, [], 0⟩
  interval := none
  ops := 0
  nextTick := .zero
  nextDisplay := ⟨0x4000000000000000⟩
  nextReport := ⟨0x4000000000000000⟩
  framesSince := 0
  opsSince := 0
  journal := []

/-- One service three intervals after zero makes the four steps that services at zero, after half an
interval and then make. -/
theorem service_batched_four_steps :
    ∃ t u, laggingTimers.serviceAll
          [.zero, ⟨0x3f81111111111111⟩, Seconds.zero.afterTicks 3] = some (u, false) ∧
      laggingTimers.service (Seconds.zero.afterTicks 3) = some (t, false) ∧
      t.cpu.machine.delay = 0 ∧ t.cpu.machine.sound = 5 ∧
      t.nextTick = Seconds.zero.afterTicks 4 ∧ u.nextTick = Seconds.zero.afterTicks 4 := by
  have ho : ([Seconds.zero, ⟨0x3f81111111111111⟩] ++ [Seconds.zero.afterTicks 3]).Pairwise
      (· ≤ ·) := by
    decide +kernel
  have hover : Overdue laggingTimers.nextTick (Seconds.zero.afterTicks 3) 4 := by decide +kernel
  have hstays : ∀ u, laggingTimers.serviceAll
      ([.zero, ⟨0x3f81111111111111⟩] ++ [Seconds.zero.afterTicks 3]) ≠ some (u, true) :=
    serviceAll_stays _ (List.forall_mem_nil _)
  obtain ⟨t, u, n, hu, hs, -, -, ⟨hn, hone, hmany⟩, hdelay, hsound⟩ :=
    service_batched ho ⟨4, hover.2⟩ hstays
  obtain rfl := hn.unique hover
  exact ⟨t, u, hu, hs, hdelay (by decide), hsound (by decide), hone.nextTick, hmany.nextTick⟩

end Session

end Chip8
