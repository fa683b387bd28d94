import Runite.Runtime.TimerCallbacks

/-!
# Where a live timeout is

A timeout that has neither started nor been cancelled waits in the heap, or its closure is
queued.  Only a cancellation of the timeout and the start of its callback end it.
-/

namespace Runite.Runtime

/-! ## Ids are used once -/

def TimerEvent.isCreation : TimerEvent → Bool
  | .timeout _ _ | .interval _ _ _ => true
  | _ => false

theorem TimerEvent.Allowed.absent {earlier : List TimerEvent} {e e' : TimerEvent}
    (h : e.Allowed earlier) (he : e.isCreation = true) (he' : e' ∈ earlier) : e'.id ≠ e.id := by
  cases e with
  | timeout id deadline => exact h e' he'
  | interval id start period => exact h e' he'
  | _ => exact absurd he Bool.false_ne_true

theorem Contract.created_unique {history : List TimerEvent} {e e' : TimerEvent}
    (h : Contract history) (he : e ∈ history) (he' : e' ∈ history) (hc : e.isCreation = true)
    (hc' : e'.isCreation = true) (hid : e.id = e'.id) : e = e' := by
  induction history with
  | nil => exact absurd he List.not_mem_nil
  | cons first earlier ih =>
      obtain ⟨hallowed, hearlier⟩ := h
      rcases List.mem_cons.mp he with rfl | hold
      · rcases List.mem_cons.mp he' with rfl | hold'
        · rfl
        · exact absurd hid.symm (hallowed.absent hc hold')
      · rcases List.mem_cons.mp he' with rfl | hold'
        · exact absurd hid (hallowed.absent hc' hold)
        · exact ih hearlier hold hold'

theorem Contract.deadline_le {history : List TimerEvent} {id deadline clock : Nat}
    (h : Contract (.started id clock :: history)) (hcreated : .timeout id deadline ∈ history) :
    deadline ≤ clock := by
  obtain ⟨⟨⟨deadline', hcreated', hdue⟩, -⟩, hearlier⟩ := h
  have heq := hearlier.created_unique hcreated hcreated' rfl rfl rfl
  obtain ⟨-, rfl⟩ := TimerEvent.timeout.inj heq
  exact hdue

namespace Timers

variable {s t : Timers} {a : TimerAction} {id deadline now : Nat}

/-! ## The state of one timeout -/

/-- The timeout waits in the heap, or its closure is queued. -/
def Waits (s : Timers) (id deadline : Nat) : Prop :=
  ⟨id, deadline, .timeout⟩ ∈ s.timers.nodes ∨ .timeout id ∈ s.localMacrotasks

/-- Live timeouts wait, and the interval whose tick runs is none of them. -/
structure Placed (s : Timers) : Prop where
  waits : ∀ id, s.liveTimeouts id = true →
    ∃ deadline, .timeout id deadline ∈ s.history ∧ s.Waits id deadline
  apart : ∀ id scheduled, s.running = some (.tick id scheduled) → s.liveTimeouts id = false

theorem Placed.init (generation : Nat) : Placed { generation } where
  waits := by simp
  apart := by simp

/-- Nothing that happens to other timers moves a timeout. -/
theorem Waits.mono (h : s.Waits id deadline)
    (hheap : ∀ node ∈ s.timers.nodes, node.id = id → node ∈ t.timers.nodes)
    (hqueue : ∀ task ∈ s.localMacrotasks, task = .timeout id → task ∈ t.localMacrotasks) :
    t.Waits id deadline :=
  h.imp (fun hnode => hheap _ hnode rfl) (fun htask => hqueue _ htask rfl)

theorem Placed.mono (h : s.Placed)
    (hlive : ∀ id, t.liveTimeouts id = true → s.liveTimeouts id = true)
    (hheap : ∀ id, t.liveTimeouts id = true → ∀ node ∈ s.timers.nodes, node.id = id →
      node ∈ t.timers.nodes)
    (hqueue : ∀ id, t.liveTimeouts id = true → .timeout id ∈ s.localMacrotasks →
      .timeout id ∈ t.localMacrotasks)
    (hhistory : ∀ e ∈ s.history, e ∈ t.history)
    (hrunning : ∀ id scheduled, t.running = some (.tick id scheduled) →
      s.liveTimeouts id = false) : t.Placed where
  waits := by
    intro id hid
    obtain ⟨deadline, hcreated, hwaits⟩ := h.waits id (hlive id hid)
    refine ⟨deadline, hhistory _ hcreated, hwaits.mono (hheap id hid) ?_⟩
    rintro task htask rfl
    exact hqueue id hid htask
  apart := by
    intro id scheduled hid
    refine Bool.eq_false_iff.mpr fun hcase => ?_
    exact absurd ((hlive id hcase).symm.trans (hrunning id scheduled hid)) nofun

/-! ## Each step -/

theorem Placed.timeout {delay : Nat} (h : s.Placed) (hsound : s.Sound) :
    (s.timeout now delay).Placed := by
  have hnew : ∀ node ∈ s.timers.nodes, node.id ≠ s.nextTimerId :=
    fun node hnode => Nat.ne_of_lt (hsound.heap node hnode)
  obtain ⟨-, hnodes⟩ := TimerHeap.insert_spec hsound.valid
    ⟨s.nextTimerId, saturatingAdd now delay, .timeout⟩ hnew
  constructor
  · intro id hid
    by_cases heq : id = s.nextTimerId
    · subst heq
      exact ⟨_, List.mem_cons_self, .inl ((hnodes _).mpr (.inl rfl))⟩
    · have hold : s.liveTimeouts id = true := by
        change Function.update s.liveTimeouts s.nextTimerId true id = true at hid
        rwa [Function.update_of_ne heq] at hid
      obtain ⟨deadline, hcreated, hwaits⟩ := h.waits id hold
      refine ⟨deadline, List.mem_cons_of_mem _ hcreated, hwaits.mono ?_ fun _ htask _ => htask⟩
      exact fun node hnode _ => (hnodes node).mpr (.inr hnode)
  · intro id scheduled hid
    have hne : id ≠ s.nextTimerId := Nat.ne_of_lt (hsound.running _ hid)
    change Function.update s.liveTimeouts s.nextTimerId true id = false
    rw [Function.update_of_ne hne]
    exact h.apart id scheduled hid

theorem Placed.startInterval {delay : Nat} (h : s.Placed) (hsound : s.Sound) :
    (s.interval now delay).1.Placed := by
  have hnew : ∀ node ∈ s.timers.nodes, node.id ≠ s.nextTimerId :=
    fun node hnode => Nat.ne_of_lt (hsound.heap node hnode)
  rw [Timers.interval]
  split
  · refine h.mono (fun _ hid => hid) (fun _ _ _ hnode _ => hnode) (fun _ _ htask => ?_)
      (fun _ he => List.mem_cons_of_mem _ he) h.apart
    exact List.mem_append_left _ htask
  · obtain ⟨-, hnodes⟩ := TimerHeap.insert_spec hsound.valid
      ⟨s.nextTimerId, saturatingAdd now delay, .interval⟩ hnew
    refine h.mono (fun _ hid => hid) (fun _ _ node hnode _ => ?_) (fun _ _ htask => htask)
      (fun _ he => List.mem_cons_of_mem _ he) h.apart
    exact (hnodes node).mpr (.inr hnode)

theorem Placed.clearTimer {generation : Nat} (h : s.Placed) (hsound : s.Sound) (id : Nat) :
    (s.clearTimer generation id).1.Placed := by
  rw [Timers.clearTimer]
  split
  · exact h
  obtain ⟨-, hnodes, -⟩ := TimerHeap.remove_spec hsound.valid id
  have hlive : ∀ id', Function.update s.liveTimeouts id false id' = true →
      id' ≠ id ∧ s.liveTimeouts id' = true := by
    intro id' hid'
    by_cases heq : id' = id
    · subst heq
      exact absurd ((Function.update_self id' false s.liveTimeouts).symm.trans hid') (by simp)
    · exact ⟨heq, (Function.update_of_ne heq false s.liveTimeouts).symm.trans hid'⟩
  refine h.mono (fun id' hid' => (hlive id' hid').2) (fun id' hid' node hnode heq => ?_)
    (fun _ _ htask => htask) (fun _ he => List.mem_cons_of_mem _ he) h.apart
  exact (hnodes node).mpr ⟨hnode, heq.trans_ne (hlive id' hid').1⟩

variable (now) in
theorem Waits.dispatch (h : s.Waits id deadline) (hsound : s.Sound) :
    (s.dispatchExpiredTimers now).Waits id deadline := by
  obtain ⟨-, hkept, htaken, -⟩ := TimerHeap.popDue_spec hsound.valid now
  rcases h with hnode | htask
  · by_cases hdue : deadline ≤ now
    · refine .inr (List.mem_append_right _ (List.mem_map.mpr ⟨_, (htaken _).mpr ⟨hnode, hdue⟩, ?_⟩))
      rfl
    · exact .inl ((hkept _).mpr ⟨hnode, Nat.lt_of_not_le hdue⟩)
  · exact .inr (List.mem_append_left _ htask)

theorem Placed.dispatch (h : s.Placed) (hsound : s.Sound) :
    (s.dispatchExpiredTimers now).Placed where
  waits := by
    intro id hid
    obtain ⟨deadline, hcreated, hwaits⟩ := h.waits id hid
    exact ⟨deadline, hcreated, hwaits.dispatch now hsound⟩
  apart := h.apart

theorem Placed.startTimeout {rest : List TimerTask} (h : s.Placed)
    (htasks : s.localMacrotasks = .timeout id :: rest) :
    Placed (start { s with localMacrotasks := rest } (.timeout id)) := by
  rw [Timers.start]
  split
  next hlive =>
    have hothers : ∀ id', Function.update s.liveTimeouts id false id' = true →
        id' ≠ id ∧ s.liveTimeouts id' = true := by
      intro id' hid'
      by_cases heq : id' = id
      · subst heq
        exact absurd ((Function.update_self id' false s.liveTimeouts).symm.trans hid') (by simp)
      · exact ⟨heq, (Function.update_of_ne heq false s.liveTimeouts).symm.trans hid'⟩
    refine h.mono (fun id' hid' => (hothers id' hid').2) (fun _ _ _ hnode _ => hnode)
      (fun id' hid' htask => ?_) (fun _ he => List.mem_cons_of_mem _ he)
      (fun _ _ hrunning => absurd (Option.some.inj hrunning) (by simp))
    rw [htasks] at htask
    refine (List.mem_cons.mp htask).resolve_left fun heq => ?_
    exact (hothers id' hid').1 (TimerTask.timeout.inj heq)
  next hdead =>
    refine h.mono (fun _ hid' => hid') (fun _ _ _ hnode _ => hnode) (fun id' hid' htask => ?_)
      (fun _ he => he) h.apart
    rw [htasks] at htask
    refine (List.mem_cons.mp htask).resolve_left fun heq => ?_
    obtain rfl := TimerTask.timeout.inj heq
    exact hdead hid'

theorem Placed.not_live_of_interval {period : Nat} (h : s.Placed) (hsound : s.Sound)
    (hinterval : s.liveIntervals id = some period) : s.liveTimeouts id = false := by
  refine Bool.eq_false_iff.mpr fun hlive => ?_
  obtain ⟨deadline, hcreated, -⟩ := h.waits id hlive
  obtain ⟨-, -, start, hcreated', -⟩ := hsound.interval id period hinterval
  exact absurd (hsound.contract.created_unique hcreated hcreated' rfl rfl rfl) nofun

theorem Placed.startTick {scheduled : Nat} {rest : List TimerTask} (h : s.Placed)
    (hsound : s.Sound) (htasks : s.localMacrotasks = .tick id scheduled :: rest) :
    Placed (start { s with localMacrotasks := rest } (.tick id scheduled)) := by
  have hqueue : ∀ id', .timeout id' ∈ s.localMacrotasks → .timeout id' ∈ rest := by
    intro id' htask
    rw [htasks] at htask
    exact (List.mem_cons.mp htask).resolve_left nofun
  rw [Timers.start]
  split
  next hlive =>
    obtain ⟨period, hperiod⟩ := Option.isSome_iff_exists.mp hlive
    refine h.mono (fun _ hid' => hid') (fun _ _ _ hnode _ => hnode)
      (fun id' _ htask => hqueue id' htask) (fun _ he => List.mem_cons_of_mem _ he) ?_
    intro id' scheduled' hrunning
    obtain ⟨rfl, -⟩ := TimerTask.tick.inj (Option.some.inj hrunning)
    exact h.not_live_of_interval hsound hperiod
  next =>
    exact h.mono (fun _ hid' => hid') (fun _ _ _ hnode _ => hnode)
      (fun id' _ htask => hqueue id' htask) (fun _ he => he) h.apart

theorem Placed.finish {task : TimerTask} (h : s.Placed) (hsound : s.Sound)
    (hrunning : s.running = some task) : (s.finish now task).1.Placed := by
  have hidle : Placed { s with running := none, now } :=
    h.mono (fun _ hid => hid) (fun _ _ _ hnode _ => hnode) (fun _ _ htask => htask)
      (fun _ he => he) nofun
  cases task with
  | timeout id => exact hidle
  | tick id scheduled =>
      rw [Timers.finish]
      split
      · exact hidle
      next period hperiod =>
        dsimp only
        split
        · refine hidle.mono (fun _ hid => hid) (fun _ _ _ hnode _ => hnode)
            (fun _ _ htask => ?_) (fun _ he => he) nofun
          exact List.mem_append_left _ htask
        · obtain ⟨hheap, -⟩ := (hsound.interval id period hperiod).last hrunning
          obtain ⟨-, hnodes⟩ := TimerHeap.insert_spec hsound.valid
            ⟨id, saturatingAdd scheduled period, .interval⟩ hheap
          refine hidle.mono (fun _ hid => hid) (fun _ _ node hnode _ => ?_)
            (fun _ _ htask => htask) (fun _ he => he) nofun
          exact (hnodes node).mpr (.inr hnode)

theorem Placed.unwind {task : TimerTask} (h : s.Placed) (hsound : s.Sound)
    (hrunning : s.running = some task) : (s.unwind task).Placed := by
  cases task with
  | timeout id =>
      exact h.mono (fun _ hid => hid) (fun _ _ _ hnode _ => hnode) (fun _ _ htask => htask)
        (fun _ he => he) nofun
  | tick id scheduled =>
      obtain ⟨-, hnodes, -⟩ := TimerHeap.remove_spec hsound.valid id
      refine h.mono (fun _ hid => hid) (fun id' hid' node hnode heq => ?_)
        (fun _ _ htask => htask) (fun _ he => List.mem_cons_of_mem _ he) nofun
      refine (hnodes node).mpr ⟨hnode, heq.trans_ne ?_⟩
      rintro rfl
      exact absurd ((h.apart id' scheduled hrunning).symm.trans hid') nofun

theorem Placed.act {result : Timers × Bool} (h : s.Placed) (hsound : s.Sound)
    (hact : s.act a = some result) : result.1.Placed := by
  cases a with
  | timeout now delay =>
      obtain ⟨-, hs⟩ := Option.ite_none_right_eq_some.mp hact
      rw [← Option.some.inj hs]
      exact h.timeout hsound
  | interval now delay =>
      obtain ⟨-, hs⟩ := Option.ite_none_right_eq_some.mp hact
      rw [← Option.some.inj hs]
      exact h.startInterval hsound
  | cancel generation id =>
      obtain ⟨-, hs⟩ := Option.ite_none_right_eq_some.mp hact
      rw [← Option.some.inj hs]
      exact h.clearTimer hsound id
  | dispatch now =>
      obtain ⟨-, hs⟩ := Option.ite_none_right_eq_some.mp hact
      rw [← Option.some.inj hs]
      exact h.dispatch hsound
  | runMacrotask =>
      obtain ⟨-, hs⟩ := Option.ite_none_right_eq_some.mp hact
      split at hs
      · exact absurd hs nofun
      next task rest htasks =>
        rw [← Option.some.inj hs]
        cases task with
        | timeout id => exact h.startTimeout htasks
        | tick id scheduled => exact h.startTick hsound htasks
  | returns now =>
      obtain ⟨-, hs⟩ := Option.ite_none_right_eq_some.mp hact
      obtain ⟨task, hrunning, hfinish⟩ := Option.map_eq_some_iff.mp hs
      rw [← hfinish]
      exact h.finish hsound hrunning
  | panics =>
      obtain ⟨task, hrunning, hunwind⟩ := Option.map_eq_some_iff.mp hact
      rw [← hunwind]
      exact h.unwind hsound hrunning

/-! ## What a step keeps -/

/-- Time goes on, ids are not used twice, and what has ended stays so. -/
structure Grows (s t : Timers) : Prop where
  now : s.now ≤ t.now
  next : s.nextTimerId ≤ t.nextTimerId
  history : ∀ e ∈ s.history, e ∈ t.history
  dead : ∀ id, id < s.nextTimerId → s.liveTimeouts id = false → t.liveTimeouts id = false

theorem Grows.refl (s : Timers) : Grows s s :=
  ⟨Nat.le_refl _, Nat.le_refl _, fun _ he => he, fun _ _ hdead => hdead⟩

theorem Grows.of_ended {task : Option TimerTask} {timers : TimerHeap}
    {liveIntervals : Nat → Option Nat} {e : TimerEvent} (s : Timers) (id : Nat) :
    Grows s { s with
      timers, liveIntervals
      liveTimeouts := Function.update s.liveTimeouts id false
      running := task
      history := e :: s.history } where
  now := Nat.le_refl _
  next := Nat.le_refl _
  history := fun _ he => List.mem_cons_of_mem _ he
  dead := by
    intro id' _ hdead
    by_cases heq : id' = id
    · subst heq
      exact Function.update_self id' false s.liveTimeouts
    · exact (Function.update_of_ne heq false s.liveTimeouts).trans hdead

theorem Grows.start (task : TimerTask) : Grows s (s.start task) := by
  cases task with
  | timeout id =>
      rw [Timers.start]
      split
      · exact Grows.of_ended s id
      · exact .refl s
  | tick id scheduled =>
      rw [Timers.start]
      split
      · exact ⟨Nat.le_refl _, Nat.le_refl _, fun _ he => List.mem_cons_of_mem _ he,
          fun _ _ hdead => hdead⟩
      · exact .refl s

theorem Grows.finish {task : TimerTask} (hnow : s.now ≤ now) :
    Grows s (s.finish now task).1 := by
  have hidle : Grows s { s with running := none, now } :=
    ⟨hnow, Nat.le_refl _, fun _ he => he, fun _ _ hdead => hdead⟩
  cases task with
  | timeout id => exact hidle
  | tick id scheduled =>
      rw [Timers.finish]
      split
      · exact hidle
      · dsimp only
        split
        · exact ⟨hnow, Nat.le_refl _, fun _ he => he, fun _ _ hdead => hdead⟩
        · exact ⟨hnow, Nat.le_refl _, fun _ he => he, fun _ _ hdead => hdead⟩

theorem grows_act {result : Timers × Bool} (hact : s.act a = some result) : Grows s result.1 := by
  cases a with
  | timeout now delay =>
      obtain ⟨⟨hnow, -, -⟩, hs⟩ := Option.ite_none_right_eq_some.mp hact
      rw [← Option.some.inj hs]
      refine ⟨hnow, Nat.le_succ _, fun _ he => List.mem_cons_of_mem _ he, fun id hid hdead => ?_⟩
      exact (Function.update_of_ne (Nat.ne_of_lt hid) true s.liveTimeouts).trans hdead
  | interval now delay =>
      obtain ⟨⟨hnow, -, -⟩, hs⟩ := Option.ite_none_right_eq_some.mp hact
      rw [← Option.some.inj hs, Timers.interval]
      split
      · exact ⟨hnow, Nat.le_succ _, fun _ he => List.mem_cons_of_mem _ he, fun _ _ hdead => hdead⟩
      · exact ⟨hnow, Nat.le_succ _, fun _ he => List.mem_cons_of_mem _ he, fun _ _ hdead => hdead⟩
  | cancel generation id =>
      obtain ⟨-, hs⟩ := Option.ite_none_right_eq_some.mp hact
      rw [← Option.some.inj hs, Timers.clearTimer]
      split
      · exact .refl s
      · exact Grows.of_ended s id
  | dispatch now =>
      obtain ⟨⟨-, hnow, -⟩, hs⟩ := Option.ite_none_right_eq_some.mp hact
      rw [← Option.some.inj hs]
      exact ⟨hnow, Nat.le_refl _, fun _ he => he, fun _ _ hdead => hdead⟩
  | runMacrotask =>
      obtain ⟨-, hs⟩ := Option.ite_none_right_eq_some.mp hact
      split at hs
      · exact absurd hs (by simp)
      next task rest _ =>
        rw [← Option.some.inj hs]
        obtain ⟨hnow, hnext, hhistory, hdead⟩ :=
          Grows.start (s := { s with localMacrotasks := rest }) task
        exact ⟨hnow, hnext, hhistory, hdead⟩
  | returns now =>
      obtain ⟨⟨hnow, -⟩, hs⟩ := Option.ite_none_right_eq_some.mp hact
      obtain ⟨task, -, hfinish⟩ := Option.map_eq_some_iff.mp hs
      rw [← hfinish]
      exact .finish hnow
  | panics =>
      obtain ⟨task, -, hunwind⟩ := Option.map_eq_some_iff.mp hact
      rw [← hunwind]
      cases task with
      | timeout id =>
          exact ⟨Nat.le_refl _, Nat.le_refl _, fun _ he => he, fun _ _ hdead => hdead⟩
      | tick id scheduled =>
          exact ⟨Nat.le_refl _, Nat.le_refl _, fun _ he => List.mem_cons_of_mem _ he,
            fun _ _ hdead => hdead⟩

/-! ## How a timeout ends -/

theorem liveTimeouts_finish {task : TimerTask} :
    (s.finish now task).1.liveTimeouts = s.liveTimeouts := by
  cases task with
  | timeout id => rfl
  | tick id scheduled =>
      rw [Timers.finish]
      split
      · rfl
      · dsimp only
        split
        · rfl
        · rfl

theorem started_of_running {result : Timers × Bool} (hact : s.act .runMacrotask = some result)
    (hrunning : result.1.running = some (.timeout id)) :
    s.liveTimeouts id = true ∧ result.1.liveTimeouts id = false ∧
      result.1.history = .started id s.now :: s.history ∧ result.1.now = s.now := by
  obtain ⟨hidle, hs⟩ := Option.ite_none_right_eq_some.mp hact
  split at hs
  · exact absurd hs (by simp)
  next task rest _ =>
    obtain rfl := Option.some.inj hs
    cases task with
    | timeout id' =>
        simp only [Timers.start] at hrunning ⊢
        split at hrunning
        next hlive =>
          obtain rfl : id' = id := TimerTask.timeout.inj (Option.some.inj hrunning)
          rw [if_pos hlive]
          exact ⟨hlive, Function.update_self id' false s.liveTimeouts, rfl, rfl⟩
        next => exact absurd (hidle.symm.trans hrunning) (by simp)
    | tick id' scheduled =>
        simp only [Timers.start] at hrunning
        split at hrunning
        · exact absurd (Option.some.inj hrunning) (by simp)
        · exact absurd (hidle.symm.trans hrunning) (by simp)

/-- A live timeout goes on unless it is cancelled or its callback starts. -/
theorem live_act {result : Timers × Bool} (hact : s.act a = some result)
    (hlive : s.liveTimeouts id = true) (hcancel : a ≠ .cancel s.generation id)
    (hstart : a = .runMacrotask → result.1.running ≠ some (.timeout id)) :
    result.1.liveTimeouts id = true := by
  cases a with
  | timeout now delay =>
      obtain ⟨-, hs⟩ := Option.ite_none_right_eq_some.mp hact
      rw [← Option.some.inj hs]
      change Function.update s.liveTimeouts s.nextTimerId true id = true
      by_cases heq : id = s.nextTimerId
      · subst heq
        exact Function.update_self s.nextTimerId true s.liveTimeouts
      · exact (Function.update_of_ne heq true s.liveTimeouts).trans hlive
  | interval now delay =>
      obtain ⟨-, hs⟩ := Option.ite_none_right_eq_some.mp hact
      rw [← Option.some.inj hs, Timers.interval]
      split
      · exact hlive
      · exact hlive
  | cancel generation id' =>
      obtain ⟨-, hs⟩ := Option.ite_none_right_eq_some.mp hact
      rw [← Option.some.inj hs, Timers.clearTimer]
      split
      · exact hlive
      next hgeneration =>
        obtain rfl := not_not.mp hgeneration
        have hne : id ≠ id' := by
          rintro rfl
          exact hcancel rfl
        exact (Function.update_of_ne hne false s.liveTimeouts).trans hlive
  | dispatch now =>
      obtain ⟨-, hs⟩ := Option.ite_none_right_eq_some.mp hact
      rw [← Option.some.inj hs]
      exact hlive
  | runMacrotask =>
      obtain ⟨-, hs⟩ := Option.ite_none_right_eq_some.mp hact
      split at hs
      · exact absurd hs (by simp)
      next task rest _ =>
        obtain rfl := Option.some.inj hs
        have hne := hstart rfl
        cases task with
        | timeout id' =>
            simp only [Timers.start] at hne ⊢
            split at hne
            next hlive' =>
              rw [if_pos hlive']
              have hid : id ≠ id' := by
                rintro rfl
                exact hne rfl
              exact (Function.update_of_ne hid false s.liveTimeouts).trans hlive
            next hdead =>
              rw [if_neg hdead]
              exact hlive
        | tick id' scheduled =>
            rw [Timers.start]
            split
            · exact hlive
            · exact hlive
  | returns now =>
      obtain ⟨-, hs⟩ := Option.ite_none_right_eq_some.mp hact
      obtain ⟨task, -, hfinish⟩ := Option.map_eq_some_iff.mp hs
      rw [← hfinish, liveTimeouts_finish]
      exact hlive
  | panics =>
      obtain ⟨task, -, hunwind⟩ := Option.map_eq_some_iff.mp hact
      rw [← hunwind]
      cases task with
      | timeout id' => exact hlive
      | tick id' scheduled => exact hlive

/-! ## The queue -/

theorem localMacrotasks_start {task : TimerTask} :
    (s.start task).localMacrotasks = s.localMacrotasks := by
  cases task with
  | timeout id => exact (apply_ite Timers.localMacrotasks _ _ _).trans (ite_self _)
  | tick id scheduled => exact (apply_ite Timers.localMacrotasks _ _ _).trans (ite_self _)

/-- Closures leave the queue at its front, when they start. -/
theorem queue_act {result : Timers × Bool} (hact : s.act a = some result)
    (hrun : a ≠ .runMacrotask) :
    ∃ tasks, result.1.localMacrotasks = s.localMacrotasks ++ tasks := by
  cases a with
  | timeout now delay =>
      obtain ⟨-, hs⟩ := Option.ite_none_right_eq_some.mp hact
      rw [← Option.some.inj hs]
      exact ⟨[], (List.append_nil _).symm⟩
  | interval now delay =>
      obtain ⟨-, hs⟩ := Option.ite_none_right_eq_some.mp hact
      rw [← Option.some.inj hs, Timers.interval]
      split
      · exact ⟨_, rfl⟩
      · exact ⟨[], (List.append_nil _).symm⟩
  | cancel generation id =>
      obtain ⟨-, hs⟩ := Option.ite_none_right_eq_some.mp hact
      rw [← Option.some.inj hs, Timers.clearTimer]
      split
      · exact ⟨[], (List.append_nil _).symm⟩
      · exact ⟨[], (List.append_nil _).symm⟩
  | dispatch now =>
      obtain ⟨-, hs⟩ := Option.ite_none_right_eq_some.mp hact
      rw [← Option.some.inj hs]
      exact ⟨_, rfl⟩
  | runMacrotask => exact absurd rfl hrun
  | returns now =>
      obtain ⟨-, hs⟩ := Option.ite_none_right_eq_some.mp hact
      obtain ⟨task, -, hfinish⟩ := Option.map_eq_some_iff.mp hs
      rw [← hfinish]
      cases task with
      | timeout id => exact ⟨[], (List.append_nil _).symm⟩
      | tick id scheduled =>
          rw [Timers.finish]
          split
          · exact ⟨[], (List.append_nil _).symm⟩
          · dsimp only
            split
            · exact ⟨_, rfl⟩
            · exact ⟨[], (List.append_nil _).symm⟩
  | panics =>
      obtain ⟨task, -, hunwind⟩ := Option.map_eq_some_iff.mp hact
      rw [← hunwind]
      cases task with
      | timeout id => exact ⟨[], (List.append_nil _).symm⟩
      | tick id scheduled => exact ⟨[], (List.append_nil _).symm⟩

variable (id) in
/-- The first closure starts; one of a live timeout runs its callback. -/
theorem queue_run {result : Timers × Bool} (hact : s.act .runMacrotask = some result) :
    ∃ task, s.localMacrotasks = task :: result.1.localMacrotasks ∧
      (task = .timeout id → s.liveTimeouts id = true →
        result.1.running = some (.timeout id)) := by
  obtain ⟨-, hs⟩ := Option.ite_none_right_eq_some.mp hact
  split at hs
  · exact absurd hs nofun
  next task rest htasks =>
    obtain rfl := Option.some.inj hs
    refine ⟨task, ?_, ?_⟩
    · rw [localMacrotasks_start]
      exact htasks
    · rintro rfl hlive
      rw [Timers.start, if_pos hlive]

/-- Once a timeout is due, a dispatch queues its closure. -/
theorem Waits.due (h : s.Waits id deadline) (hsound : s.Sound) (hdue : deadline ≤ now) :
    .timeout id ∈ (s.dispatchExpiredTimers now).localMacrotasks := by
  obtain ⟨-, hkept, htaken, -⟩ := TimerHeap.popDue_spec hsound.valid now
  rcases h.dispatch now hsound with hnode | htask
  · exact absurd hdue (Nat.not_le.mpr ((hkept _).mp hnode).2)
  · exact htask

end Timers

end Runite.Runtime
