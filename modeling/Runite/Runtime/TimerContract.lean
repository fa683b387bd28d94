import Runite.Runtime.Timers

/-!
# When timers fire

`Contract` says of every event in the history of the timers that the earlier events allow it,
and `Place` where a live interval is, with the deadline of its next or its running tick.
-/

namespace Runite.Runtime

/-! ## What the history allows -/

def ticks (id : Nat) (history : List TimerEvent) : Nat :=
  history.countP (TimerEvent.isTicked id)

/-- The deadline of the tick with a number. -/
def tickDeadline (start period number : Nat) : Nat :=
  min (start + number * period) durationMax

theorem saturatingAdd_tickDeadline (start period number : Nat) :
    saturatingAdd (tickDeadline start period number) period =
      tickDeadline start period (number + 1) := by
  unfold saturatingAdd tickDeadline
  rw [Nat.add_one_mul]
  omega

/-- The event follows the rules, given what happened before.  Ids are not used twice.  A timeout
fires once, at its deadline or later, and not after it was cancelled; an interval does not fire
after it was cancelled or has panicked, and the ticks are for the start plus a multiple of the
period. -/
def TimerEvent.Allowed (earlier : List TimerEvent) : TimerEvent → Prop
  | .timeout id _ | .interval id _ _ => ∀ e ∈ earlier, e.id ≠ id
  | .started id clock =>
      (∃ deadline, .timeout id deadline ∈ earlier ∧ deadline ≤ clock) ∧
        .cancelled id ∉ earlier ∧ ∀ clock', .started id clock' ∉ earlier
  | .ticked id scheduled clock =>
      .cancelled id ∉ earlier ∧ .panicked id ∉ earlier ∧ scheduled ≤ clock ∧
        ∃ start period, .interval id start period ∈ earlier ∧
          scheduled = tickDeadline start period (ticks id earlier + 1)
  | .cancelled _ | .panicked _ => True

/-- Every event is allowed by the earlier ones; the last event comes first. -/
def Contract : List TimerEvent → Prop
  | [] => True
  | e :: earlier => e.Allowed earlier ∧ Contract earlier

namespace Timers

variable {s t : Timers} {id start period : Nat}

/-! ## Where an interval is -/

/-- A live interval waits in the heap or in the queue for its next tick, or its callback runs. -/
inductive Place (s : Timers) (id start period : Nat) : Prop
  | heap
      (hheap : ⟨id, tickDeadline start period (ticks id s.history + 1), .interval⟩ ∈
        s.timers.nodes)
      (hqueue : s.localMacrotasks.filter (TimerTask.isTick id) = [])
      (hrunning : s.running.filter (TimerTask.isTick id) = none)
  | queued
      (hheap : ∀ node ∈ s.timers.nodes, node.id ≠ id)
      (hqueue : s.localMacrotasks.filter (TimerTask.isTick id) =
        [.tick id (tickDeadline start period (ticks id s.history + 1))])
      (hdue : tickDeadline start period (ticks id s.history + 1) ≤ s.now)
      (hrunning : s.running.filter (TimerTask.isTick id) = none)
  | running
      (hheap : ∀ node ∈ s.timers.nodes, node.id ≠ id)
      (hqueue : s.localMacrotasks.filter (TimerTask.isTick id) = [])
      (hrunning : s.running.filter (TimerTask.isTick id) =
        some (.tick id (tickDeadline start period (ticks id s.history))))

structure Untouched (s t : Timers) (id : Nat) : Prop where
  heap : ∀ node : TimerNode, node.id = id → (node ∈ t.timers.nodes ↔ node ∈ s.timers.nodes)
  queue : t.localMacrotasks.filter (TimerTask.isTick id) =
    s.localMacrotasks.filter (TimerTask.isTick id)
  running : t.running.filter (TimerTask.isTick id) = s.running.filter (TimerTask.isTick id)
  ticks : ticks id t.history = ticks id s.history
  now : s.now ≤ t.now

theorem Place.mono (h : s.Place id start period) (hframe : Untouched s t id) :
    t.Place id start period := by
  have hheap : (∀ node ∈ s.timers.nodes, node.id ≠ id) → ∀ node ∈ t.timers.nodes, node.id ≠ id := by
    intro hnone node hnode hid
    exact hnone node ((hframe.heap node hid).mp hnode) hid
  cases h with
  | heap hnode hqueue hrunning =>
      refine .heap ?_ (hframe.queue.trans hqueue) (hframe.running.trans hrunning)
      rw [hframe.ticks]
      exact (hframe.heap _ rfl).mpr hnode
  | queued hnone hqueue hdue hrunning =>
      refine .queued (hheap hnone) ?_ ?_ (hframe.running.trans hrunning)
      · rw [hframe.ticks]
        exact hframe.queue.trans hqueue
      · rw [hframe.ticks]
        exact Nat.le_trans hdue hframe.now
  | running hnone hqueue hrunning =>
      refine .running (hheap hnone) (hframe.queue.trans hqueue) ?_
      rw [hframe.ticks]
      exact hframe.running.trans hrunning

/-! ## The invariant -/

/-- What holds of the state, apart from the intervals. -/
structure WellFormed (s : Timers) : Prop where
  contract : Contract s.history
  valid : s.timers.Valid
  fresh : ∀ e ∈ s.history, e.id < s.nextTimerId
  queue : ∀ task ∈ s.localMacrotasks, task.id < s.nextTimerId
  running : ∀ task, s.running = some task → task.id < s.nextTimerId
  heap : ∀ node ∈ s.timers.nodes, node.id < s.nextTimerId
  heapTimeout : ∀ node ∈ s.timers.nodes, node.kind = .timeout →
    .timeout node.id node.deadline ∈ s.history
  timeoutDue : ∀ id, .timeout id ∈ s.localMacrotasks →
    ∃ deadline, .timeout id deadline ∈ s.history ∧ deadline ≤ s.now
  liveTimeout : ∀ id, s.liveTimeouts id = true → id < s.nextTimerId ∧
    .cancelled id ∉ s.history ∧ ∀ clock, .started id clock ∉ s.history

def Interval (s : Timers) (id period : Nat) : Prop :=
  .cancelled id ∉ s.history ∧ .panicked id ∉ s.history ∧
    ∃ start, .interval id start period ∈ s.history ∧ s.Place id start period

structure Sound (s : Timers) : Prop extends s.WellFormed where
  interval : ∀ id period, s.liveIntervals id = some period → s.Interval id period

theorem Sound.init (generation : Nat) : Sound { generation } where
  contract := trivial
  valid := TimerHeap.valid_empty
  fresh := by simp
  queue := by simp
  running := by simp
  heap := by simp
  heapTimeout := by simp
  timeoutDue := by simp
  liveTimeout := by simp
  interval := by simp

theorem Sound.interval_lt (h : s.Sound) (hlive : s.liveIntervals id = some period) :
    id < s.nextTimerId := by
  obtain ⟨-, -, start, hcreated, -⟩ := h.interval id period hlive
  exact h.fresh _ hcreated

/-! ## Updates of the state -/

namespace WellFormed

theorem create {e : TimerEvent} {now : Nat} (h : s.WellFormed) (hnow : s.now ≤ now)
    (hid : e.id = s.nextTimerId) (hallowed : e.Allowed s.history) :
    WellFormed { s with
      nextTimerId := s.nextTimerId + 1, now := now, history := e :: s.history } where
  contract := ⟨hallowed, h.contract⟩
  valid := h.valid
  fresh := by
    intro e' he'
    rcases List.mem_cons.mp he' with rfl | hold
    · exact Nat.lt_succ_of_le (Nat.le_of_eq hid)
    · exact Nat.lt_succ_of_lt (h.fresh e' hold)
  queue := fun task htask => Nat.lt_succ_of_lt (h.queue task htask)
  running := fun task htask => Nat.lt_succ_of_lt (h.running task htask)
  heap := fun node hnode => Nat.lt_succ_of_lt (h.heap node hnode)
  heapTimeout := fun node hnode hkind => List.mem_cons_of_mem _ (h.heapTimeout node hnode hkind)
  timeoutDue := by
    intro id htask
    obtain ⟨deadline, hcreated, hdue⟩ := h.timeoutDue id htask
    exact ⟨deadline, List.mem_cons_of_mem _ hcreated, Nat.le_trans hdue hnow⟩
  liveTimeout := by
    intro id hlive
    obtain ⟨hlt, hcancelled, hstarted⟩ := h.liveTimeout id hlive
    have hne : e.id ≠ id := by
      rw [hid]
      exact Nat.ne_of_gt hlt
    refine ⟨Nat.lt_succ_of_lt hlt, ?_, fun clock => ?_⟩
    · exact List.not_mem_cons_of_ne_of_not_mem (by rintro rfl; exact hne rfl) hcancelled
    · exact List.not_mem_cons_of_ne_of_not_mem (by rintro rfl; exact hne rfl) (hstarted clock)

theorem record {e : TimerEvent} (h : s.WellFormed) (hid : e.id < s.nextTimerId)
    (hallowed : e.Allowed s.history)
    (hlive : ∀ id, s.liveTimeouts id = true → e ≠ .cancelled id ∧ ∀ clock, e ≠ .started id clock) :
    WellFormed { s with history := e :: s.history } where
  contract := ⟨hallowed, h.contract⟩
  valid := h.valid
  fresh := by
    intro e' he'
    rcases List.mem_cons.mp he' with rfl | hold
    · exact hid
    · exact h.fresh e' hold
  queue := h.queue
  running := h.running
  heap := h.heap
  heapTimeout := fun node hnode hkind => List.mem_cons_of_mem _ (h.heapTimeout node hnode hkind)
  timeoutDue := by
    intro id htask
    obtain ⟨deadline, hcreated, hdue⟩ := h.timeoutDue id htask
    exact ⟨deadline, List.mem_cons_of_mem _ hcreated, hdue⟩
  liveTimeout := by
    intro id hid
    obtain ⟨hlt, hcancelled, hstarted⟩ := h.liveTimeout id hid
    obtain ⟨hecancelled, hestarted⟩ := hlive id hid
    exact ⟨hlt, List.not_mem_cons_of_ne_of_not_mem (Ne.symm hecancelled) hcancelled,
      fun clock => List.not_mem_cons_of_ne_of_not_mem (Ne.symm (hestarted clock)) (hstarted clock)⟩

theorem insert (h : s.WellFormed) (node : TimerNode) (hid : node.id < s.nextTimerId)
    (hnew : ∀ a ∈ s.timers.nodes, a.id ≠ node.id)
    (hkind : node.kind = .timeout → .timeout node.id node.deadline ∈ s.history) :
    WellFormed { s with timers := s.timers.insert node } := by
  obtain ⟨hvalid, hnodes⟩ := TimerHeap.insert_spec h.valid node hnew
  exact { h with
    valid := hvalid
    heap := by
      intro a ha
      rcases (hnodes a).mp ha with rfl | hold
      · exact hid
      · exact h.heap a hold
    heapTimeout := by
      intro a ha
      rcases (hnodes a).mp ha with rfl | hold
      · exact hkind
      · exact h.heapTimeout a hold }

theorem take {timers : TimerHeap} (h : s.WellFormed) (hvalid : timers.Valid)
    (hsub : ∀ node ∈ timers.nodes, node ∈ s.timers.nodes) :
    WellFormed { s with timers } :=
  { h with
    valid := hvalid
    heap := fun node hnode => h.heap node (hsub node hnode)
    heapTimeout := fun node hnode => h.heapTimeout node (hsub node hnode) }

theorem enqueue (h : s.WellFormed) (tasks : List TimerTask)
    (hid : ∀ task ∈ tasks, task.id < s.nextTimerId)
    (hdue : ∀ id, .timeout id ∈ tasks →
      ∃ deadline, .timeout id deadline ∈ s.history ∧ deadline ≤ s.now) :
    WellFormed { s with localMacrotasks := s.localMacrotasks ++ tasks } :=
  { h with
    queue := by
      intro task htask
      rcases List.mem_append.mp htask with hold | hnew
      · exact h.queue task hold
      · exact hid task hnew
    timeoutDue := by
      intro id htask
      rcases List.mem_append.mp htask with hold | hnew
      · exact h.timeoutDue id hold
      · exact hdue id hnew }

theorem enqueueTick (h : s.WellFormed) (scheduled : Nat) (hid : id < s.nextTimerId) :
    (s.scheduleIntervalMacrotask id scheduled).WellFormed := by
  refine h.enqueue _ ?_ ?_
  · intro task htask
    rw [List.mem_singleton.mp htask]
    exact hid
  · intro id' htask
    exact absurd (List.mem_singleton.mp htask) nofun

theorem dequeue {task : TimerTask} {rest : List TimerTask} (h : s.WellFormed)
    (htasks : s.localMacrotasks = task :: rest) :
    WellFormed { s with localMacrotasks := rest } :=
  { h with
    queue := fun task' htask' => h.queue task' (htasks ▸ List.mem_cons_of_mem _ htask')
    timeoutDue := fun id hid => h.timeoutDue id (htasks ▸ List.mem_cons_of_mem _ hid) }

theorem setNow {now : Nat} (h : s.WellFormed) (hnow : s.now ≤ now) :
    WellFormed { s with now } :=
  { h with
    timeoutDue := by
      intro id hid
      obtain ⟨deadline, hcreated, hdue⟩ := h.timeoutDue id hid
      exact ⟨deadline, hcreated, Nat.le_trans hdue hnow⟩ }

theorem idle (h : s.WellFormed) : WellFormed { s with running := none } :=
  { h with running := fun _ htask => nomatch htask }

theorem endTimeout (h : s.WellFormed) (id : Nat) :
    WellFormed { s with liveTimeouts := Function.update s.liveTimeouts id false } :=
  { h with
    liveTimeout := by
      intro id' hlive
      by_cases hid : id' = id
      · subst hid
        exact absurd ((Function.update_self id' false s.liveTimeouts).symm.trans hlive) nofun
      · exact h.liveTimeout id' ((Function.update_of_ne hid false s.liveTimeouts).symm.trans hlive) }

end WellFormed

/-! ## What a step leaves alone -/

theorem ticks_cons {e : TimerEvent} {history : List TimerEvent} (he : e.isTicked id = false) :
    ticks id (e :: history) = ticks id history :=
  List.countP_cons_of_neg (by rw [he]; exact Bool.false_ne_true)

theorem ticks_cons_of_ne {e : TimerEvent} {history : List TimerEvent} (hne : e.id ≠ id) :
    ticks id (e :: history) = ticks id history := by
  refine ticks_cons ?_
  cases e with
  | ticked i scheduled clock => exact decide_eq_false hne
  | _ => rfl

theorem filter_append_tick_of_ne {tasks : List TimerTask} {i scheduled : Nat} (hne : i ≠ id) :
    (tasks ++ [TimerTask.tick i scheduled]).filter (TimerTask.isTick id) =
      tasks.filter (TimerTask.isTick id) := by
  rw [List.filter_append, List.filter_cons_of_neg (by simpa [TimerTask.isTick] using hne),
    List.filter_nil, List.append_nil]

theorem filter_append_tick {tasks : List TimerTask} {scheduled : Nat}
    (hnone : tasks.filter (TimerTask.isTick id) = []) :
    (tasks ++ [TimerTask.tick id scheduled]).filter (TimerTask.isTick id) = [.tick id scheduled] := by
  rw [List.filter_append, hnone, List.filter_cons_of_pos (by simp [TimerTask.isTick]),
    List.filter_nil, List.nil_append]

theorem Interval.mono (h : s.Interval id period) (hframe : Untouched s t id)
    (hmem : ∀ e ∈ s.history, e ∈ t.history)
    (hcancelled : .cancelled id ∈ t.history → .cancelled id ∈ s.history)
    (hpanicked : .panicked id ∈ t.history → .panicked id ∈ s.history) :
    t.Interval id period := by
  obtain ⟨hncancelled, hnpanicked, start, hcreated, hplace⟩ := h
  exact ⟨fun h => hncancelled (hcancelled h), fun h => hnpanicked (hpanicked h), start,
    hmem _ hcreated, hplace.mono hframe⟩

theorem Interval.mono_of_eq (h : s.Interval id period) (hframe : Untouched s t id)
    (hhistory : t.history = s.history) : t.Interval id period :=
  h.mono hframe (fun _ he => hhistory ▸ he) (fun hmem => hhistory ▸ hmem)
    (fun hmem => hhistory ▸ hmem)

theorem Interval.mono_of_ne {e : TimerEvent} (h : s.Interval id period) (hframe : Untouched s t id)
    (hhistory : t.history = e :: s.history) (hne : e.id ≠ id) : t.Interval id period := by
  refine h.mono hframe ?_ ?_ ?_
  all_goals rw [hhistory]
  · exact fun e' he' => List.mem_cons_of_mem _ he'
  · intro hmem
    exact (List.mem_cons.mp hmem).resolve_left (by rintro rfl; exact hne rfl)
  · intro hmem
    exact (List.mem_cons.mp hmem).resolve_left (by rintro rfl; exact hne rfl)

/-! ## Creation -/

theorem Sound.timeout {now delay : Nat} (h : s.Sound) (hnow : s.now ≤ now) :
    (s.timeout now delay).Sound := by
  have hnew : ∀ a ∈ s.timers.nodes, a.id ≠ s.nextTimerId :=
    fun a ha => Nat.ne_of_lt (h.heap a ha)
  have habsent : ∀ e ∈ s.history, e.id ≠ s.nextTimerId := fun e he => Nat.ne_of_lt (h.fresh e he)
  have hcreated := h.create (e := .timeout s.nextTimerId (saturatingAdd now delay)) hnow rfl habsent
  have hinserted := hcreated.insert ⟨s.nextTimerId, saturatingAdd now delay, .timeout⟩
    (Nat.lt_succ_self _) hnew (fun _ => List.mem_cons_self)
  refine { hinserted with liveTimeout := ?_, interval := ?_ }
  · intro id hlive
    by_cases hid : id = s.nextTimerId
    · subst hid
      refine ⟨Nat.lt_succ_self _, ?_, fun clock => ?_⟩
      · intro hmem
        exact habsent _ ((List.mem_cons.mp hmem).resolve_left nofun) rfl
      · intro hmem
        exact habsent _ ((List.mem_cons.mp hmem).resolve_left nofun) rfl
    · have hold : s.liveTimeouts id = true := by
        change Function.update s.liveTimeouts s.nextTimerId true id = true at hlive
        rwa [Function.update_of_ne hid] at hlive
      exact hinserted.liveTimeout id hold
  · intro id period hlive
    have hne : s.nextTimerId ≠ id := Nat.ne_of_gt (h.interval_lt hlive)
    refine (h.interval id period hlive).mono_of_ne ?_ rfl hne
    exact {
      heap := fun node hid => TimerHeap.mem_insert_of_ne h.valid hnew (hid ▸ Ne.symm hne)
      queue := rfl
      running := rfl
      ticks := ticks_cons_of_ne hne
      now := hnow }

theorem WellFormed.unallocated (h : s.WellFormed) :
    ticks s.nextTimerId s.history = 0 ∧
      s.localMacrotasks.filter (TimerTask.isTick s.nextTimerId) = [] ∧
      s.running.filter (TimerTask.isTick s.nextTimerId) = none := by
  have htask : ∀ task : TimerTask, task.id < s.nextTimerId →
      ¬ task.isTick s.nextTimerId = true := by
    intro task hlt
    cases task with
    | timeout i => exact Bool.false_ne_true
    | tick i scheduled =>
        intro htick
        exact absurd (of_decide_eq_true htick) (Nat.ne_of_lt hlt)
  refine ⟨?_, ?_, ?_⟩
  · refine List.countP_eq_zero.mpr fun e he hticked => ?_
    cases e with
    | ticked i scheduled clock =>
        exact absurd (of_decide_eq_true hticked) (Nat.ne_of_lt (h.fresh _ he))
    | _ => exact Bool.false_ne_true hticked
  · exact List.filter_eq_nil_iff.mpr fun task hmem => htask task (h.queue task hmem)
  · refine Option.filter_eq_none_iff.mpr fun task hrunning => ?_
    exact htask task (h.running task hrunning)

theorem Sound.interval_other {now delay : Nat} (h : s.Sound) (hnow : s.now ≤ now)
    (hlive : s.liveIntervals id = some period) : (s.interval now delay).1.Interval id period := by
  have hne : s.nextTimerId ≠ id := Nat.ne_of_gt (h.interval_lt hlive)
  by_cases hdelay : delay = 0
  · rw [Timers.interval, if_pos hdelay]
    refine (h.interval id period hlive).mono_of_ne ?_ rfl hne
    exact {
      heap := fun _ _ => Iff.rfl
      queue := filter_append_tick_of_ne hne
      running := rfl
      ticks := ticks_cons_of_ne hne
      now := hnow }
  · rw [Timers.interval, if_neg hdelay]
    refine (h.interval id period hlive).mono_of_ne ?_ rfl hne
    exact {
      heap := fun node hid => TimerHeap.mem_insert_of_ne h.valid
        (fun a ha => Nat.ne_of_lt (h.heap a ha)) (hid ▸ Ne.symm hne)
      queue := rfl
      running := rfl
      ticks := ticks_cons_of_ne hne
      now := hnow }

theorem Sound.interval_new {now delay : Nat} (h : s.Sound) (hnow : now ≤ durationMax) :
    (s.interval now delay).1.Interval s.nextTimerId delay := by
  have habsent : ∀ e ∈ s.history, e.id ≠ s.nextTimerId := fun e he => Nat.ne_of_lt (h.fresh e he)
  have hnone : ∀ a ∈ s.timers.nodes, a.id ≠ s.nextTimerId :=
    fun a ha => Nat.ne_of_lt (h.heap a ha)
  obtain ⟨hticks, hqueue, hrunning⟩ := h.unallocated
  have hhistory : (s.interval now delay).1.history =
      .interval s.nextTimerId now delay :: s.history := by
    unfold Timers.interval
    split
    · rfl
    · rfl
  have hnumber : ticks s.nextTimerId (s.interval now delay).1.history = 0 := by
    rw [hhistory, ticks_cons rfl, hticks]
  refine ⟨?_, ?_, now, hhistory ▸ List.mem_cons_self, ?_⟩
  · rw [hhistory]
    intro hmem
    exact habsent _ ((List.mem_cons.mp hmem).resolve_left nofun) rfl
  · rw [hhistory]
    intro hmem
    exact habsent _ ((List.mem_cons.mp hmem).resolve_left nofun) rfl
  by_cases hdelay : delay = 0
  · have hdeadline : tickDeadline now delay (0 + 1) = now := by
      rw [tickDeadline, hdelay, Nat.mul_zero, Nat.add_zero, Nat.min_eq_left hnow]
    have hfirst : tickDeadline now delay (0 + 1) = saturatingAdd now 0 := by
      rw [hdeadline, saturatingAdd, Nat.add_zero, Nat.min_eq_left hnow]
    rw [Timers.interval, if_pos hdelay] at hnumber ⊢
    refine .queued hnone ?_ ?_ hrunning
    · rw [hnumber, hfirst]
      exact filter_append_tick hqueue
    · rw [hnumber]
      exact Nat.le_of_eq hdeadline
  · have hfirst : tickDeadline now delay (0 + 1) = saturatingAdd now delay := by
      rw [tickDeadline, saturatingAdd, Nat.one_mul]
    rw [Timers.interval, if_neg hdelay] at hnumber ⊢
    refine .heap ?_ hqueue hrunning
    rw [hnumber, hfirst]
    exact ((TimerHeap.insert_spec h.valid _ hnone).2 _).mpr (.inl rfl)

theorem Sound.startInterval {now delay : Nat} (h : s.Sound) (hnow : s.now ≤ now)
    (hmax : now ≤ durationMax) : (s.interval now delay).1.Sound := by
  have hcreated := h.create (e := .interval s.nextTimerId now delay) hnow rfl
    fun e he => Nat.ne_of_lt (h.fresh e he)
  have hwf : (s.interval now delay).1.WellFormed := by
    by_cases hdelay : delay = 0
    · rw [Timers.interval, if_pos hdelay]
      have htick := hcreated.enqueueTick (saturatingAdd now 0) (Nat.lt_succ_self s.nextTimerId)
      exact { htick with }
    · rw [Timers.interval, if_neg hdelay]
      have hinserted := hcreated.insert ⟨s.nextTimerId, saturatingAdd now delay, .interval⟩
        (Nat.lt_succ_self _) (fun a ha => Nat.ne_of_lt (h.heap a ha)) nofun
      exact { hinserted with }
  have hlives : (s.interval now delay).1.liveIntervals =
      Function.update s.liveIntervals s.nextTimerId (some delay) := by
    unfold Timers.interval
    split
    · rfl
    · rfl
  refine { hwf with interval := fun id period hlive => ?_ }
  rw [hlives] at hlive
  by_cases hid : id = s.nextTimerId
  · subst hid
    rw [Function.update_self] at hlive
    obtain rfl : delay = period := Option.some.inj hlive
    exact h.interval_new hmax
  · rw [Function.update_of_ne hid] at hlive
    exact h.interval_other hnow hlive

/-! ## Cancellation -/

theorem Sound.clearTimer {generation : Nat} (h : s.Sound)
    (hid : generation = s.generation → id < s.nextTimerId) :
    (s.clearTimer generation id).1.Sound := by
  by_cases hgeneration : s.generation ≠ generation
  · rw [Timers.clearTimer, if_pos hgeneration]
    exact h
  rw [Timers.clearTimer, if_neg hgeneration]
  have hlt : id < s.nextTimerId := hid (not_not.mp hgeneration).symm
  obtain ⟨hvalid, hnodes, -⟩ := TimerHeap.remove_spec h.valid id
  have htaken := (h.take hvalid fun node hnode => ((hnodes node).mp hnode).1).endTimeout id
  have hrecorded := htaken.record (e := .cancelled id) hlt trivial (by
    intro id' hlive
    refine ⟨?_, fun _ => nofun⟩
    rintro ⟨⟩
    exact absurd ((Function.update_self id false s.liveTimeouts).symm.trans hlive) nofun)
  refine { hrecorded with interval := fun id' period hlive => ?_ }
  change Function.update s.liveIntervals id none id' = some period at hlive
  have hne : id ≠ id' := by
    rintro rfl
    exact absurd ((Function.update_self id none s.liveIntervals).symm.trans hlive) nofun
  rw [Function.update_of_ne (Ne.symm hne)] at hlive
  refine (h.interval id' period hlive).mono_of_ne ?_ rfl hne
  exact {
    heap := by
      rintro node rfl
      exact (hnodes node).trans (and_iff_left (Ne.symm hne))
    queue := rfl
    running := rfl
    ticks := ticks_cons_of_ne hne
    now := Nat.le_refl _ }

/-! ## Dispatch -/

theorem filter_taskOf_of_absent {due : List TimerNode} (habsent : ∀ node ∈ due, node.id ≠ id) :
    (due.map taskOf).filter (TimerTask.isTick id) = [] := by
  refine List.filter_eq_nil_iff.mpr fun task htask htick => ?_
  obtain ⟨node, hnode, rfl⟩ := List.mem_map.mp htask
  unfold taskOf at htick
  split at htick
  · exact Bool.false_ne_true htick
  · exact habsent node hnode (of_decide_eq_true htick)

theorem filter_taskOf_of_mem {due : List TimerNode} {node : TimerNode}
    (hnodup : (due.map TimerNode.id).Nodup) (hmem : node ∈ due) (hkind : node.kind = .interval) :
    (due.map taskOf).filter (TimerTask.isTick node.id) = [.tick node.id node.deadline] := by
  have htask : taskOf node = .tick node.id node.deadline := by
    unfold taskOf
    rw [hkind]
  obtain ⟨before, after, rfl⟩ := List.append_of_mem hmem
  rw [List.map_append, List.map_cons, List.nodup_middle, List.nodup_cons] at hnodup
  have hother : ∀ a ∈ before ++ after, a.id ≠ node.id := by
    intro a ha hid
    refine hnodup.1 ?_
    rw [← List.map_append, ← hid]
    exact List.mem_map_of_mem ha
  rw [List.map_append, List.map_cons, List.filter_append, htask,
    List.filter_cons_of_pos (by simp [TimerTask.isTick]),
    filter_taskOf_of_absent fun a ha => hother a (List.mem_append_left _ ha),
    filter_taskOf_of_absent fun a ha => hother a (List.mem_append_right _ ha), List.nil_append]

theorem Sound.dispatch_interval {now : Nat} (h : s.Sound) (hnow : s.now ≤ now)
    (hlive : s.liveIntervals id = some period) :
    (s.dispatchExpiredTimers now).Interval id period := by
  obtain ⟨-, hkept, htaken, hnodup⟩ := TimerHeap.popDue_spec h.valid now
  obtain ⟨hcancelled, hpanicked, start, hcreated, hplace⟩ := h.interval id period hlive
  refine ⟨hcancelled, hpanicked, start, hcreated, ?_⟩
  -- an interval that is not in the heap, or not due, stays where it is
  have hstays : (∀ node ∈ (s.timers.popDue now).2, node.id ≠ id) →
      (s.dispatchExpiredTimers now).Place id start period := by
    intro habsent
    refine hplace.mono {
      heap := by
        rintro node rfl
        refine (hkept node).trans (and_iff_left_of_imp fun hnode => ?_)
        refine Nat.lt_of_not_le fun hdue => ?_
        exact habsent node ((htaken node).mpr ⟨hnode, hdue⟩) rfl
      queue := by
        refine (List.filter_append ..).trans ?_
        exact (congrArg _ (filter_taskOf_of_absent habsent)).trans (List.append_nil _)
      running := rfl
      ticks := rfl
      now := hnow }
  cases hplace with
  | heap hnode hqueue hrunning =>
      by_cases hdue : tickDeadline start period (ticks id s.history + 1) ≤ now
      · refine .queued ?_ ?_ hdue hrunning
        · intro node hmem hid
          obtain ⟨hold, hlate⟩ := (hkept node).mp hmem
          rw [h.valid.unique hold hnode hid] at hlate
          exact Nat.not_le.mpr hlate hdue
        · refine (List.filter_append ..).trans ?_
          rw [hqueue, List.nil_append]
          exact filter_taskOf_of_mem hnodup ((htaken _).mpr ⟨hnode, hdue⟩) rfl
      · refine hstays fun node hmem hid => hdue ?_
        obtain ⟨hold, hearly⟩ := (htaken node).mp hmem
        rwa [h.valid.unique hold hnode hid] at hearly
  | queued hnone _ _ _ => exact hstays fun node hmem => hnone node ((htaken node).mp hmem).1
  | running hnone _ _ => exact hstays fun node hmem => hnone node ((htaken node).mp hmem).1

theorem Sound.dispatch {now : Nat} (h : s.Sound) (hnow : s.now ≤ now) :
    (s.dispatchExpiredTimers now).Sound := by
  obtain ⟨hvalid, hkept, htaken, -⟩ := TimerHeap.popDue_spec h.valid now
  have htasks := ((h.setNow hnow).take hvalid fun node hnode => ((hkept node).mp hnode).1).enqueue
    ((s.timers.popDue now).2.map taskOf) ?_ ?_
  · exact { htasks with interval := fun id period hlive => h.dispatch_interval hnow hlive }
  · intro task htask
    obtain ⟨node, hnode, rfl⟩ := List.mem_map.mp htask
    have hlt := h.heap node ((htaken node).mp hnode).1
    unfold taskOf
    split
    · exact hlt
    · exact hlt
  · intro id htask
    obtain ⟨node, hnode, hnodetask⟩ := List.mem_map.mp htask
    obtain ⟨hold, hdue⟩ := (htaken node).mp hnode
    unfold taskOf at hnodetask
    split at hnodetask
    · obtain rfl : node.id = id := TimerTask.timeout.inj hnodetask
      exact ⟨node.deadline, h.heapTimeout node hold (by assumption), hdue⟩
    · exact absurd hnodetask nofun

end Timers

end Runite.Runtime
