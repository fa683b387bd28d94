import Runite.Runtime.TimerContract

/-!
# Runs of the timers

The steps of a callback: it starts, it returns and the interval is scheduled again, or it panics.
With them every step keeps `Sound`, and `timer_contract_of_reachable` says what holds of every run.
-/

namespace Runite.Runtime.Timers

variable {s t : Timers} {id period scheduled now : Nat} {task : TimerTask} {rest : List TimerTask}

/-! ## A callback starts -/

theorem filter_cons_tick_of_ne {i : Nat} (hne : i ≠ id) :
    (TimerTask.tick i scheduled :: rest).filter (TimerTask.isTick id) =
      rest.filter (TimerTask.isTick id) :=
  List.filter_cons_of_neg (by simpa [TimerTask.isTick] using hne)

theorem filter_running_of_ne {i : Nat} (hne : i ≠ id) :
    (some (TimerTask.tick i scheduled)).filter (TimerTask.isTick id) = none := by
  simpa [Option.filter, TimerTask.isTick] using hne

theorem filter_running :
    (some (TimerTask.tick id scheduled)).filter (TimerTask.isTick id) =
      some (.tick id scheduled) := by
  simp [Option.filter, TimerTask.isTick]

/-- The closure of a timer that is not live does nothing. -/
theorem Sound.skip (h : s.Sound) (htasks : s.localMacrotasks = task :: rest)
    (hother : ∀ id, (s.liveIntervals id).isSome → task.isTick id = false) :
    Sound { s with localMacrotasks := rest } := by
  refine { h.dequeue htasks with interval := fun id period hlive => ?_ }
  refine (h.interval id period hlive).mono_of_eq ?_ rfl
  exact {
    heap := fun _ _ => Iff.rfl
    queue := by
      rw [htasks]
      refine (List.filter_cons_of_neg ?_).symm
      rw [hother id (Option.isSome_of_eq_some hlive)]
      exact Bool.false_ne_true
    running := rfl
    ticks := rfl
    now := Nat.le_refl _ }

theorem Sound.startTimeout (h : s.Sound) (htasks : s.localMacrotasks = .timeout id :: rest)
    (hidle : s.running = none) : (Timers.start { s with localMacrotasks := rest } (.timeout id)).Sound := by
  by_cases hlive : s.liveTimeouts id = true
  · have hskip := h.skip htasks fun _ _ => rfl
    obtain ⟨hlt, hcancelled, hstarted⟩ := h.liveTimeout id hlive
    have hdue := h.timeoutDue id (htasks ▸ List.mem_cons_self)
    have hended := (hskip.endTimeout id).record (e := .started id s.now) hlt
      ⟨hdue, hcancelled, hstarted⟩ (by
        intro id' hlive'
        refine ⟨nofun, fun clock => ?_⟩
        rintro ⟨⟩
        exact absurd ((Function.update_self id false s.liveTimeouts).symm.trans hlive') nofun)
    rw [Timers.start, if_pos hlive]
    refine { hended with running := ?_, interval := fun id' period hinterval => ?_ }
    · rintro task ⟨⟩
      exact hlt
    · refine (hskip.interval id' period hinterval).mono ?_ ?_ ?_ ?_
      · exact {
          heap := fun _ _ => Iff.rfl
          queue := rfl
          running := by
            refine Eq.trans ?_ (congrArg (Option.filter (TimerTask.isTick id')) hidle).symm
            rfl
          ticks := ticks_cons rfl
          now := Nat.le_refl _ }
      · exact fun e he => List.mem_cons_of_mem _ he
      · exact fun hmem => (List.mem_cons.mp hmem).resolve_left nofun
      · exact fun hmem => (List.mem_cons.mp hmem).resolve_left nofun
  · rw [Timers.start, if_neg hlive]
    exact h.skip htasks fun _ _ => rfl

/-- The first tick in the queue of a live interval is the next one, it is due, and there is no
other. -/
theorem Interval.front (h : s.Interval id period) (htasks : s.localMacrotasks = .tick id scheduled :: rest) :
    rest.filter (TimerTask.isTick id) = [] ∧ scheduled ≤ s.now ∧
      (∀ node ∈ s.timers.nodes, node.id ≠ id) ∧
      ∃ start, .interval id start period ∈ s.history ∧
        scheduled = tickDeadline start period (ticks id s.history + 1) := by
  obtain ⟨-, -, start, hcreated, hplace⟩ := h
  have hfront : s.localMacrotasks.filter (TimerTask.isTick id) =
      .tick id scheduled :: rest.filter (TimerTask.isTick id) := by
    rw [htasks]
    exact List.filter_cons_of_pos (by simp [TimerTask.isTick])
  cases hplace with
  | heap _ hqueue _ => exact absurd (hfront.symm.trans hqueue) (by simp)
  | running _ hqueue _ => exact absurd (hfront.symm.trans hqueue) (by simp)
  | queued hheap hqueue hdue _ =>
      obtain ⟨htick, hrest⟩ := List.cons.inj (hfront.symm.trans hqueue)
      obtain ⟨-, hscheduled⟩ := TimerTask.tick.inj htick
      exact ⟨hrest, hscheduled ▸ hdue, hheap, start, hcreated, hscheduled⟩

theorem Sound.startTick (h : s.Sound) (htasks : s.localMacrotasks = .tick id scheduled :: rest)
    (hidle : s.running = none) :
    (Timers.start { s with localMacrotasks := rest } (.tick id scheduled)).Sound := by
  cases hlive : s.liveIntervals id with
  | none =>
      rw [Timers.start, if_neg (by rw [hlive]; exact Bool.false_ne_true)]
      refine h.skip htasks fun id' hlive' => decide_eq_false ?_
      rintro rfl
      rw [hlive] at hlive'
      exact Bool.false_ne_true hlive'
  | some period =>
      have hinterval := h.interval id period hlive
      obtain ⟨hrest, hdue, hheap, start, hcreated, hscheduled⟩ := hinterval.front htasks
      obtain ⟨hcancelled, hpanicked, -⟩ := hinterval
      have hlt := h.interval_lt hlive
      have hrecorded := (h.dequeue htasks).record (e := .ticked id scheduled s.now) hlt
        ⟨hcancelled, hpanicked, hdue, start, period, hcreated, hscheduled⟩
        (fun _ _ => ⟨nofun, fun _ => nofun⟩)
      rw [Timers.start, if_pos (by rw [hlive]; rfl)]
      refine { hrecorded with running := ?_, interval := fun id' period' hlive' => ?_ }
      · rintro task ⟨⟩
        exact hlt
      · by_cases hid : id = id'
        · subst hid
          obtain rfl : period = period' := Option.some.inj (hlive.symm.trans hlive')
          refine ⟨?_, ?_, start, List.mem_cons_of_mem _ hcreated, .running hheap hrest ?_⟩
          · exact List.not_mem_cons_of_ne_of_not_mem nofun hcancelled
          · exact List.not_mem_cons_of_ne_of_not_mem nofun hpanicked
          · have hticks : ticks id (.ticked id scheduled s.now :: s.history) =
                ticks id s.history + 1 :=
              List.countP_cons_of_pos (by simp [TimerEvent.isTicked])
            rw [hticks, ← hscheduled]
            exact filter_running
        · refine (h.interval id' period' hlive').mono_of_ne ?_ rfl hid
          exact {
            heap := fun _ _ => Iff.rfl
            queue := by
              rw [htasks]
              exact (filter_cons_tick_of_ne hid).symm
            running := by
              rw [hidle]
              exact filter_running_of_ne hid
            ticks := ticks_cons_of_ne hid
            now := Nat.le_refl _ }

theorem Sound.start (h : s.Sound) (htasks : s.localMacrotasks = task :: rest)
    (hidle : s.running = none) : (Timers.start { s with localMacrotasks := rest } task).Sound := by
  cases task with
  | timeout id => exact h.startTimeout htasks hidle
  | tick id scheduled => exact h.startTick htasks hidle

/-! ## A callback ends -/

/-- The callback ends, and its timer is not scheduled. -/
theorem Sound.release (h : s.Sound) (hnow : s.now ≤ now)
    (hother : ∀ id, (s.liveIntervals id).isSome → s.running.filter (TimerTask.isTick id) = none) :
    Sound { s with running := none, now } := by
  refine { (h.setNow hnow).idle with interval := fun id period hlive => ?_ }
  refine (h.interval id period hlive).mono_of_eq ?_ rfl
  exact {
    heap := fun _ _ => Iff.rfl
    queue := rfl
    running := (hother id (Option.isSome_of_eq_some hlive)).symm
    ticks := rfl
    now := hnow }

/-- While a tick runs the interval is nowhere else, and the deadline is that of the last tick. -/
theorem Interval.last (h : s.Interval id period) (hrunning : s.running = some (.tick id scheduled)) :
    (∀ node ∈ s.timers.nodes, node.id ≠ id) ∧
      s.localMacrotasks.filter (TimerTask.isTick id) = [] ∧
      ∃ start, .interval id start period ∈ s.history ∧
        saturatingAdd scheduled period = tickDeadline start period (ticks id s.history + 1) := by
  obtain ⟨-, -, start, hcreated, hplace⟩ := h
  have hrunning' : s.running.filter (TimerTask.isTick id) = some (.tick id scheduled) := by
    rw [hrunning]
    exact filter_running
  cases hplace with
  | heap _ _ hnone => exact absurd (hrunning'.symm.trans hnone) nofun
  | queued _ _ _ hnone => exact absurd (hrunning'.symm.trans hnone) nofun
  | running hheap hqueue hlast =>
      obtain ⟨-, hscheduled⟩ := TimerTask.tick.inj (Option.some.inj (hrunning'.symm.trans hlast))
      refine ⟨hheap, hqueue, start, hcreated, ?_⟩
      rw [hscheduled]
      exact saturatingAdd_tickDeadline start period _

theorem Sound.reschedule (h : s.Sound) (hnow : s.now ≤ now)
    (hrunning : s.running = some (.tick id scheduled)) (hlive : s.liveIntervals id = some period) :
    (s.finish now (.tick id scheduled)).1.Sound := by
  have hinterval := h.interval id period hlive
  obtain ⟨hheap, hqueue, start, hcreated, hnext⟩ := hinterval.last hrunning
  obtain ⟨hcancelled, hpanicked, -⟩ := hinterval
  have hlt := h.interval_lt hlive
  have hidle := (h.setNow hnow).idle
  have hother : ∀ id', id ≠ id' → none = s.running.filter (TimerTask.isTick id') := by
    intro id' hne
    rw [hrunning]
    exact (filter_running_of_ne hne).symm
  unfold Timers.finish
  simp only [hlive]
  by_cases hlate : saturatingAdd scheduled period ≤ now
  · rw [if_pos hlate]
    have hqueued := hidle.enqueueTick (saturatingAdd scheduled period) hlt
    refine { hqueued with interval := fun id' period' hlive' => ?_ }
    by_cases hid : id = id'
    · subst hid
      obtain rfl : period = period' := Option.some.inj (hlive.symm.trans hlive')
      refine ⟨hcancelled, hpanicked, start, hcreated, .queued hheap ?_ ?_ rfl⟩
      · rw [hnext]
        exact filter_append_tick hqueue
      · exact hnext ▸ hlate
    · refine (h.interval id' period' hlive').mono_of_eq ?_ rfl
      exact {
        heap := fun _ _ => Iff.rfl
        queue := filter_append_tick_of_ne hid
        running := hother id' hid
        ticks := rfl
        now := hnow }
  · rw [if_neg hlate]
    have hinserted := hidle.insert ⟨id, saturatingAdd scheduled period, .interval⟩ hlt hheap nofun
    refine { hinserted with interval := fun id' period' hlive' => ?_ }
    by_cases hid : id = id'
    · subst hid
      obtain rfl : period = period' := Option.some.inj (hlive.symm.trans hlive')
      refine ⟨hcancelled, hpanicked, start, hcreated, .heap ?_ hqueue rfl⟩
      refine ((TimerHeap.insert_spec h.valid _ hheap).2 _).mpr (.inl ?_)
      rw [hnext]
    · refine (h.interval id' period' hlive').mono_of_eq ?_ rfl
      exact {
        heap := fun node hnode => TimerHeap.mem_insert_of_ne h.valid hheap (hnode ▸ Ne.symm hid)
        queue := rfl
        running := hother id' hid
        ticks := rfl
        now := hnow }

theorem Sound.finish (h : s.Sound) (hnow : s.now ≤ now) (hrunning : s.running = some task) :
    (s.finish now task).1.Sound := by
  cases task with
  | timeout id =>
      refine h.release hnow fun id' _ => ?_
      rw [hrunning]
      rfl
  | tick id scheduled =>
      cases hlive : s.liveIntervals id with
      | some period => exact h.reschedule hnow hrunning hlive
      | none =>
          unfold Timers.finish
          simp only [hlive]
          refine h.release hnow fun id' hlive' => ?_
          rw [hrunning]
          refine filter_running_of_ne ?_
          rintro rfl
          rw [hlive] at hlive'
          exact Bool.false_ne_true hlive'

theorem Sound.unwind (h : s.Sound) (hrunning : s.running = some task) : (s.unwind task).Sound := by
  cases task with
  | timeout id =>
      refine h.release (Nat.le_refl _) fun id' _ => ?_
      rw [hrunning]
      rfl
  | tick id scheduled =>
      obtain ⟨hvalid, hnodes, -⟩ := TimerHeap.remove_spec h.valid id
      have htaken := (h.take hvalid fun node hnode => ((hnodes node).mp hnode).1).idle
      have hrecorded := htaken.record (e := .panicked id) (h.running _ hrunning) trivial
        fun _ _ => ⟨nofun, fun _ => nofun⟩
      refine { hrecorded with interval := fun id' period hlive => ?_ }
      change Function.update s.liveIntervals id none id' = some period at hlive
      have hne : id ≠ id' := by
        rintro rfl
        exact absurd ((Function.update_self id none s.liveIntervals).symm.trans hlive) nofun
      rw [Function.update_of_ne (Ne.symm hne)] at hlive
      refine (h.interval id' period hlive).mono_of_ne ?_ rfl hne
      exact {
        heap := by
          rintro node rfl
          exact (hnodes node).trans (and_iff_left (Ne.symm hne))
        queue := rfl
        running := by
          rw [hrunning]
          exact (filter_running_of_ne hne).symm
        ticks := ticks_cons_of_ne hne
        now := Nat.le_refl _ }

/-! ## Every run -/

theorem Sound.act {a : TimerAction} {result : Timers × Bool} (h : s.Sound)
    (hact : s.act a = some result) : result.1.Sound := by
  cases a with
  | timeout now delay =>
      obtain ⟨⟨hnow, -, -⟩, hs⟩ := Option.ite_none_right_eq_some.mp hact
      rw [← Option.some.inj hs]
      exact h.timeout hnow
  | interval now delay =>
      obtain ⟨⟨hnow, hmax, -⟩, hs⟩ := Option.ite_none_right_eq_some.mp hact
      rw [← Option.some.inj hs]
      exact h.startInterval hnow hmax
  | cancel generation id =>
      obtain ⟨hid, hs⟩ := Option.ite_none_right_eq_some.mp hact
      rw [← Option.some.inj hs]
      exact h.clearTimer hid
  | dispatch now =>
      obtain ⟨⟨-, hnow, -⟩, hs⟩ := Option.ite_none_right_eq_some.mp hact
      rw [← Option.some.inj hs]
      exact h.dispatch hnow
  | runMacrotask =>
      obtain ⟨hidle, hs⟩ := Option.ite_none_right_eq_some.mp hact
      split at hs
      · exact absurd hs nofun
      · next task rest htasks =>
          rw [← Option.some.inj hs]
          exact h.start htasks hidle
  | returns now =>
      obtain ⟨⟨hnow, -⟩, hs⟩ := Option.ite_none_right_eq_some.mp hact
      obtain ⟨task, hrunning, hfinish⟩ := Option.map_eq_some_iff.mp hs
      rw [← hfinish]
      exact h.finish hnow hrunning
  | panics =>
      obtain ⟨task, hrunning, hunwind⟩ := Option.map_eq_some_iff.mp hact
      rw [← hunwind]
      exact h.unwind hrunning

theorem generation_act {a : TimerAction} {result : Timers × Bool} (hact : s.act a = some result) :
    result.1.generation = s.generation := by
  cases a with
  | timeout now delay =>
      obtain ⟨-, hs⟩ := Option.ite_none_right_eq_some.mp hact
      rw [← Option.some.inj hs]
      rfl
  | interval now delay =>
      obtain ⟨-, hs⟩ := Option.ite_none_right_eq_some.mp hact
      rw [← Option.some.inj hs]
      unfold Timers.interval
      split
      · rfl
      · rfl
  | cancel generation id =>
      obtain ⟨-, hs⟩ := Option.ite_none_right_eq_some.mp hact
      rw [← Option.some.inj hs]
      unfold Timers.clearTimer
      split
      · rfl
      · rfl
  | dispatch now =>
      obtain ⟨-, hs⟩ := Option.ite_none_right_eq_some.mp hact
      rw [← Option.some.inj hs]
      rfl
  | runMacrotask =>
      obtain ⟨-, hs⟩ := Option.ite_none_right_eq_some.mp hact
      split at hs
      · exact absurd hs nofun
      · rw [← Option.some.inj hs]
        unfold Timers.start
        split
        all_goals (split; all_goals rfl)
  | returns now =>
      obtain ⟨-, hs⟩ := Option.ite_none_right_eq_some.mp hact
      obtain ⟨task, -, hfinish⟩ := Option.map_eq_some_iff.mp hs
      rw [← hfinish]
      unfold Timers.finish
      split
      · rfl
      · split
        · rfl
        · simp only [scheduleIntervalMacrotask]
          split
          · rfl
          · rfl
  | panics =>
      obtain ⟨task, -, hunwind⟩ := Option.map_eq_some_iff.mp hact
      rw [← hunwind]
      cases task with
      | timeout id => rfl
      | tick id scheduled => rfl

theorem sound_of_reachable {generation : Nat} (hreach : Reachable generation s) :
    s.Sound ∧ s.generation = generation := by
  refine Transition.Reachable.invariant (fun s => s.Sound ∧ s.generation = generation)
    ⟨Sound.init generation, rfl⟩ ?_ hreach
  rintro s a t ⟨h, hgeneration⟩ - hstep
  obtain ⟨result, hact, rfl⟩ := Option.map_eq_some_iff.mp hstep
  exact ⟨h.act hact, (generation_act hact).trans hgeneration⟩

/-- In every run the history follows the contract, a live interval is in one place, and a handle
of another generation changes nothing. -/
theorem timer_contract_of_reachable (generation : Nat) (s : Timers)
    (hreach : Reachable generation s) :
    Contract s.history ∧
      (∀ id period, s.liveIntervals id = some period →
        ∃ start, .interval id start period ∈ s.history ∧ s.Place id start period) ∧
      (s.timers.nodes.map TimerNode.id).Nodup ∧
      ∀ generation' id, generation' ≠ generation → s.clearTimer generation' id = (s, false) := by
  obtain ⟨h, rfl⟩ := sound_of_reachable hreach
  refine ⟨h.contract, ?_, h.valid.nodup, ?_⟩
  · intro id period hlive
    obtain ⟨-, -, hplace⟩ := h.interval id period hlive
    exact hplace
  · intro generation' id hne
    exact if_pos (Ne.symm hne)

/-- A timeout is cancelled while its closure is queued, and an interval panics in its second
tick. -/
theorem timer_contract_panicked :
    ∃ s : Timers, Reachable 7 s ∧
      (s.history = [.panicked 2, .ticked 2 6 7, .cancelled 1, .ticked 2 3 5, .interval 2 0 3,
        .timeout 1 5] ∧ s.localMacrotasks = []) ∧
      Contract s.history ∧ s.clearTimer 8 1 = (s, false) := by
  obtain ⟨s, hreach, hp⟩ := Transition.Reachable.exists_of_run step (fun _ _ => True)
    ({ generation := 7 } : Timers)
    [.timeout 0 5, .interval 0 3, .dispatch 5, .runMacrotask, .cancel 7 1, .returns 7,
      .runMacrotask, .runMacrotask, .panics]
    (fun s => decide (s.history = [.panicked 2, .ticked 2 6 7, .cancelled 1, .ticked 2 3 5,
      .interval 2 0 3, .timeout 1 5] ∧ s.localMacrotasks = []))
    (by simp) (by decide)
  obtain ⟨hcontract, -, -, hstale⟩ := timer_contract_of_reachable 7 s hreach
  exact ⟨s, hreach, of_decide_eq_true hp, hcontract, hstale 8 1 (by decide)⟩

end Runite.Runtime.Timers
