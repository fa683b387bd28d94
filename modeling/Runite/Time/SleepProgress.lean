import Runite.Time.SleepContract

/-!
# A sleep is woken once its deadline has passed

Its closure is queued by the next dispatch, other closures do not overtake it, and nothing but a
drop of the sleep keeps it from its callback.
-/

namespace Runite.Time.Sleeps

open Runite.Runtime

variable {s t : Sleeps} {i id now delay n : Nat} {waker : Waker} {a : SleepAction}

/-! ## What a step does to the timers -/

theorem timers_complete : (s.complete i).timers = s.timers := by
  unfold complete
  split
  · rfl
  · rfl

theorem timers_check : (s.check i waker).1.timers = s.timers := by
  unfold check
  split
  · rfl
  · dsimp only
    split
    · rfl
    · rfl

theorem timers_tick {a : TimerAction} (htick : s.tick a = some t) :
    ∃ result, s.timers.act a = some result ∧ t.timers = result.1 := by
  obtain ⟨timers, hstep, hrest⟩ := Option.bind_eq_some_iff.mp htick
  obtain ⟨result, hact, rfl⟩ := Option.map_eq_some_iff.mp hstep
  refine ⟨result, hact, ?_⟩
  dsimp only at hrest
  split at hrest
  · split at hrest
    · rw [← Option.some.inj hrest, timers_complete]
    · rw [← Option.some.inj hrest]
  · rw [← Option.some.inj hrest]

/-- A step does what one step of the timers does, or nothing to them. -/
theorem timers_step (hstep : s.step a = some t) :
    t.timers = s.timers ∨
      ∃ act result, s.timers.act act = some result ∧ t.timers = result.1 ∧
        (act = .runMacrotask → a = .timers .runMacrotask) := by
  cases a with
  | sleep duration =>
      obtain ⟨-, hs⟩ := Option.ite_none_right_eq_some.mp hstep
      rw [← Option.some.inj hs]
      exact .inl rfl
  | poll i waker now =>
      obtain ⟨r, hpoll, rfl⟩ := Option.map_eq_some_iff.mp hstep
      obtain ⟨sleep, -, hrest⟩ := Option.bind_eq_some_iff.mp hpoll
      split at hrest
      · rw [← Option.some.inj hrest]
        exact .inl rfl
      dsimp only at hrest
      split at hrest
      · obtain ⟨armed, harm, hcheck⟩ := Option.bind_eq_some_iff.mp hrest
        obtain ⟨timers, htimers, harmed⟩ := Option.bind_eq_some_iff.mp harm
        obtain ⟨result, hact, rfl⟩ := Option.map_eq_some_iff.mp htimers
        refine .inr ⟨_, result, hact, ?_, nofun⟩
        rw [← Option.some.inj hcheck, timers_check, ← Option.some.inj harmed]
      · rw [← Option.some.inj hrest, timers_check]
        exact .inl rfl
  | drop i =>
      obtain ⟨sleep, -, hrest⟩ := Option.bind_eq_some_iff.mp hstep
      dsimp only at hrest
      split at hrest
      · obtain ⟨timers, htimers, rfl⟩ := Option.map_eq_some_iff.mp hrest
        obtain ⟨result, hact, rfl⟩ := Option.map_eq_some_iff.mp htimers
        exact .inr ⟨_, result, hact, rfl, nofun⟩
      · rw [← Option.some.inj hrest]
        exact .inl rfl
  | timers a =>
      obtain ⟨-, hs⟩ := Option.ite_none_left_eq_some.mp hstep
      obtain ⟨result, hact, htimers⟩ := timers_tick hs
      exact .inr ⟨a, result, hact, htimers, fun ha => ha ▸ rfl⟩

/-! ## What a step does to the log -/

theorem log_complete : ∃ events, (s.complete i).log = events ++ s.log ∧ ∀ j, .dropped j ∉ events := by
  unfold complete
  split
  · exact ⟨[], rfl, fun j => List.not_mem_nil⟩
  · exact ⟨[_], rfl, by simp⟩

variable (s i waker) in
theorem log_check : ∃ events, (s.check i waker).1.log = events ++ s.log ∧ ∀ j, .dropped j ∉ events := by
  unfold check
  split
  · exact ⟨[.ready i], rfl, by simp⟩
  · dsimp only
    split
    · exact ⟨[.ready i], rfl, by simp⟩
    · exact ⟨[.pending i waker], rfl, by simp⟩

theorem log_step (hstep : s.step a = some t) :
    ∃ events, t.log = events ++ s.log ∧ ∀ j, .dropped j ∈ events → a = .drop j := by
  cases a with
  | sleep duration =>
      obtain ⟨-, hs⟩ := Option.ite_none_right_eq_some.mp hstep
      rw [← Option.some.inj hs]
      exact ⟨[.created s.created duration], rfl, by simp⟩
  | poll i waker now =>
      obtain ⟨r, hpoll, rfl⟩ := Option.map_eq_some_iff.mp hstep
      obtain ⟨sleep, -, hrest⟩ := Option.bind_eq_some_iff.mp hpoll
      split at hrest
      · rw [← Option.some.inj hrest]
        exact ⟨[], rfl, by simp⟩
      dsimp only at hrest
      split at hrest
      · obtain ⟨armed, harm, hcheck⟩ := Option.bind_eq_some_iff.mp hrest
        obtain ⟨timers, -, harmed⟩ := Option.bind_eq_some_iff.mp harm
        obtain ⟨events, hlog, hnone⟩ := log_check armed i waker
        rw [← Option.some.inj hcheck, hlog, ← Option.some.inj harmed]
        refine ⟨events ++ [_], (List.append_cons ..), fun j hmem => absurd hmem ?_⟩
        simp [hnone j]
      · obtain ⟨events, hlog, hnone⟩ := log_check s i waker
        rw [← Option.some.inj hrest]
        exact ⟨events, hlog, fun j hmem => absurd hmem (hnone j)⟩
  | drop i =>
      obtain ⟨sleep, -, hrest⟩ := Option.bind_eq_some_iff.mp hstep
      dsimp only at hrest
      split at hrest
      · obtain ⟨timers, -, rfl⟩ := Option.map_eq_some_iff.mp hrest
        exact ⟨[.dropped i], rfl, by simp⟩
      · rw [← Option.some.inj hrest]
        exact ⟨[.dropped i], rfl, by simp⟩
  | timers a =>
      obtain ⟨-, hs⟩ := Option.ite_none_left_eq_some.mp hstep
      obtain ⟨timers, -, hrest⟩ := Option.bind_eq_some_iff.mp hs
      dsimp only at hrest
      split at hrest
      · split at hrest
        next j _ =>
          obtain ⟨events, hlog, hnone⟩ := log_complete (s := { s with timers }) (i := j)
          rw [← Option.some.inj hrest]
          exact ⟨events, hlog, fun j hmem => absurd hmem (hnone j)⟩
        next =>
          rw [← Option.some.inj hrest]
          exact ⟨[], rfl, by simp⟩
      · rw [← Option.some.inj hrest]
        exact ⟨[], rfl, by simp⟩

/-! ## The way to the callback -/

/-- The callback has run, or its closure is among the first `n`. -/
def Near (i id n : Nat) (s : Sleeps) : Prop :=
  (∃ waker clock, .woken i waker clock ∈ s.log) ∨ .timeout id ∈ s.timers.localMacrotasks.take n

theorem Near.step (h : s.Near i id n) (hstep : s.step a = some t)
    (ha : a ≠ .timers .runMacrotask) : t.Near i id n := by
  rcases h with ⟨waker, clock, hwoken⟩ | hqueued
  · obtain ⟨events, hlog, -⟩ := log_step hstep
    exact .inl ⟨waker, clock, hlog ▸ List.mem_append_right events hwoken⟩
  · refine .inr ?_
    rcases timers_step hstep with heq | ⟨act, result, hact, heq, hrun⟩
    · rwa [heq]
    · obtain ⟨tasks, hqueue⟩ := Timers.queue_act hact fun hact => ha (hrun hact)
      rw [heq, hqueue, List.take_append]
      exact List.mem_append_left _ hqueued

theorem Near.run (h : s.Near i id n) (hinv : s.Inv)
    (harmed : .armed i id now delay ∈ s.log) (hkept : .dropped i ∉ s.log)
    (hstep : s.step (.timers .runMacrotask) = some t) : t.Near i id (n - 1) := by
  by_cases hwoken : ∃ waker clock, .woken i waker clock ∈ s.log
  · obtain ⟨waker, clock, hwoken⟩ := hwoken
    obtain ⟨events, hlog, -⟩ := log_step hstep
    exact .inl ⟨waker, clock, hlog ▸ List.mem_append_right events hwoken⟩
  have hqueued := h.resolve_left hwoken
  have hnot : ∀ waker clock, .woken i waker clock ∉ s.log :=
    fun waker clock hmem => hwoken ⟨waker, clock, hmem⟩
  obtain ⟨hlive, -, waker, -, hstate⟩ := (hinv.armed_not_woken harmed hnot).2 hkept
  obtain ⟨-, htick⟩ : ¬ s.Private .runMacrotask ∧ s.tick .runMacrotask = some t :=
    Option.ite_none_left_eq_some.mp hstep
  obtain ⟨result, hact, htimers⟩ := timers_tick htick
  obtain ⟨task, htasks, hstart⟩ := Timers.queue_run id hact
  obtain ⟨m, rfl⟩ := Nat.exists_eq_succ_of_ne_zero (n := n) (by
    rintro rfl
    exact List.not_mem_nil hqueued)
  rw [htasks, List.take_succ_cons] at hqueued
  rcases List.mem_cons.mp hqueued with heq | hrest
  · have hrunning := hstart heq.symm hlive
    have hown := hinv.armed i id now delay harmed
    refine .inl ⟨waker, result.1.now, ?_⟩
    have hcomplete : s.tick .runMacrotask = some (complete { s with timers := result.1 } i) := by
      unfold tick
      rw [show s.timers.step .runMacrotask = some result.1 by rw [Timers.step, hact]; rfl]
      simp only [Option.bind_eq_bind, Option.bind_some, hrunning, hown]
    rw [hcomplete] at htick
    obtain rfl := Option.some.inj htick
    unfold complete
    simp only [hstate]
    exact List.mem_cons_self
  · exact .inr (htimers ▸ hrest)

theorem Near.actions {actions : List SleepAction} (h : s.Near i id n) (hinv : s.Inv)
    (harmed : .armed i id now delay ∈ s.log) (hkept : .dropped i ∉ s.log)
    (hdrop : .drop i ∉ actions) (hrun : Transition.run Sleeps.step s actions = some t) :
    t.Near i id (n - actions.count (.timers .runMacrotask)) := by
  induction actions generalizing s n with
  | nil =>
      obtain rfl := Option.some.inj hrun
      exact h
  | cons a actions ih =>
      obtain ⟨hfirst, hrest⟩ := List.ne_and_not_mem_of_not_mem_cons hdrop
      obtain ⟨s', hstep, hrun'⟩ := Option.bind_eq_some_iff.mp hrun
      obtain ⟨events, hlog, hdropped⟩ := log_step hstep
      have harmed' : .armed i id now delay ∈ s'.log :=
        hlog ▸ List.mem_append_right events harmed
      have hkept' : .dropped i ∉ s'.log := by
        rw [hlog]
        intro hmem
        rcases List.mem_append.mp hmem with hnew | hold
        · exact hfirst (hdropped i hnew).symm
        · exact hkept hold
      by_cases ha : a = .timers .runMacrotask
      · subst ha
        rw [List.count_cons_self]
        have hend := ih (h.run hinv harmed hkept hstep) (hinv.step hstep) harmed' hkept' hrest hrun'
        rwa [Nat.sub_sub, Nat.add_comm] at hend
      · rw [List.count_cons_of_ne ha]
        exact ih (h.step hstep ha) (hinv.step hstep) harmed' hkept' hrest hrun'

/-- A sleep whose deadline has passed at a dispatch is woken in every run that goes on with as many
macrotasks as are queued then, whatever else happens, unless it is dropped. -/
theorem woken_of_run {generation : Nat} {u : Sleeps} {clock : Nat} {actions : List SleepAction}
    (hreach : Reachable generation s) (harmed : .armed i id now delay ∈ s.log)
    (hkept : .dropped i ∉ s.log) (hdue : saturatingAdd now delay ≤ clock)
    (hdispatch : s.step (.timers (.dispatch clock)) = some t)
    (hrun : Transition.run Sleeps.step t actions = some u) (hdrop : .drop i ∉ actions)
    (hturns : t.timers.localMacrotasks.length ≤ actions.count (.timers .runMacrotask)) :
    ∃ waker clock', .woken i waker clock' ∈ u.log := by
  have hinv := inv_of_reachable hreach
  obtain ⟨events, hlog, hdropped⟩ := log_step hdispatch
  have harmed' : .armed i id now delay ∈ t.log := hlog ▸ List.mem_append_right events harmed
  have hkept' : .dropped i ∉ t.log := by
    rw [hlog]
    intro hmem
    rcases List.mem_append.mp hmem with hnew | hold
    · exact absurd (hdropped i hnew) nofun
    · exact hkept hold
  have hnear : t.Near i id t.timers.localMacrotasks.length := by
    by_cases hwoken : ∃ waker clock', .woken i waker clock' ∈ s.log
    · obtain ⟨waker, clock', hmem⟩ := hwoken
      exact .inl ⟨waker, clock', hlog ▸ List.mem_append_right events hmem⟩
    obtain ⟨-, hwaits, -⟩ := (hinv.armed_not_woken harmed
      fun waker clock' hmem => hwoken ⟨waker, clock', hmem⟩).2 hkept
    obtain ⟨-, htick⟩ : ¬ s.Private (.dispatch clock) ∧ s.tick (.dispatch clock) = some t :=
      Option.ite_none_left_eq_some.mp hdispatch
    obtain ⟨result, hact, htimers⟩ := timers_tick htick
    obtain ⟨-, hs⟩ := Option.ite_none_right_eq_some.mp hact
    rw [← Option.some.inj hs] at htimers
    refine .inr ?_
    rw [List.take_length, htimers]
    exact hwaits.due hinv.sound hdue
  have hend := hnear.actions (hinv.step hdispatch) harmed' hkept' hdrop hrun
  rw [Nat.sub_eq_zero_of_le hturns] at hend
  exact hend.resolve_right List.not_mem_nil

/-- An interval without a period is queued again and again, and another sleep is dropped. -/
theorem woken_of_run_zero_interval :
    ∃ u : Sleeps, (∃ waker clock, .woken 0 waker clock ∈ u.log) ∧
      u.timers.localMacrotasks = [.tick 1 0] := by
  obtain ⟨s, hreach, hp⟩ := Transition.Reachable.exists_of_run Sleeps.step (fun _ _ => True)
    ({ timers := { generation := 3 } } : Sleeps)
    [.timers (.interval 0 0), .sleep 5, .sleep 2, .poll 0 4 0, .poll 1 4 0]
    (fun s : Sleeps => decide (SleepEvent.armed 0 2 0 5 ∈ s.log ∧ SleepEvent.dropped 0 ∉ s.log) &&
      (s.step (.timers (.dispatch 7))).any fun t : Sleeps =>
        decide (t.timers.localMacrotasks.length ≤ 3) &&
          (Transition.run Sleeps.step t [.timers .runMacrotask, .timers (.returns 7), .drop 1,
            .timers .runMacrotask, .timers .runMacrotask]).any fun u : Sleeps =>
              decide (u.timers.localMacrotasks = [.tick 1 0]))
    (by simp) (by decide)
  obtain ⟨hs, hstep⟩ := Bool.and_eq_true_iff.mp hp
  obtain ⟨harmed, hkept⟩ := of_decide_eq_true hs
  obtain ⟨t, hdispatch, ht⟩ := (Option.any_eq_true _ _).mp hstep
  obtain ⟨hlength, hrest⟩ := Bool.and_eq_true_iff.mp ht
  obtain ⟨u, hrun, hu⟩ := (Option.any_eq_true _ _).mp hrest
  refine ⟨u, ?_, of_decide_eq_true hu⟩
  exact woken_of_run hreach harmed hkept (by decide) hdispatch hrun (by decide)
    (of_decide_eq_true hlength)

end Runite.Time.Sleeps
