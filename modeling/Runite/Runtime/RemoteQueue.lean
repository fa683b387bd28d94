import Runite.Runtime.ThreadShared
import Runite.Lib.Transition
import Mathlib.Data.List.Nodup

/-!
# The queue of macrotasks from other threads

Any number of threads call `enqueue_macro` and `enqueue_internal_wake` while the
owner drains the queue, runs macrotasks, commits to idle and is torn down, in
every order.  `Accounted` says where the closure of each call is.
-/

namespace Runite.Runtime

/-- The closure of a call: its number, and whether it is an internal wake. -/
structure SendTask where
  id : Nat
  internal : Bool
  deriving DecidableEq, Repr

/-- An entry of `local_macrotasks`. -/
inductive MacroTask
  | remote (task : SendTask)
  | own
  deriving DecidableEq, Repr

/-- The closure from another thread that an entry is. -/
def MacroTask.remote? : MacroTask → Option SendTask
  | .remote task => some task
  | .own => none

theorem MacroTask.remote?_remote (task : SendTask) :
    (MacroTask.remote task).remote? = some task := rfl

theorem MacroTask.remote?_own : MacroTask.own.remote? = none := rfl

/-- The call leaves its closure in the queue. -/
def Enqueued.stays : Enqueued → Bool
  | .err _ => false
  | .ok | .panicked => true

theorem Enqueued.stays_err (error : QueueError) : (Enqueued.err error).stays = false := rfl

/-- A call that has returned, or panicked. -/
structure Call where
  task : SendTask
  outcome : Enqueued
  deriving DecidableEq, Repr

/-- A runtime thread and the calls from other threads.  `drained` is what
`drain_remote_tasks` took and has not put into `local_macrotasks` yet; the last
four fields are history: the calls that returned or panicked, the closures that
were left in the queue by their calls, those that were run, and those that the
teardown dropped. -/
structure RemoteQueue where
  shared : ThreadShared SendTask
  worker : Bool
  tasks : List Nat := []
  drained : List SendTask := []
  localMacrotasks : List MacroTask := []
  tornDown : Bool := false
  calls : List Call := []
  pushed : List SendTask := []
  executed : List SendTask := []
  dropped : List SendTask := []
  deriving DecidableEq

namespace RemoteQueue

inductive Action
  | enqueueMacro (notifier : List Bool)
  | enqueueInternalWake (notifier : List Bool) (spawns : Bool)
  | beginAsyncOperation
  | finishAsyncOperation
  /-- the owner spawns a task -/
  | spawn (id : Nat)
  /-- a task of the owner ends -/
  | exit (id : Nat)
  /-- the owner queues a macrotask of its own -/
  | queueTask
  /-- `drain_remote_tasks`: the queue is taken -/
  | takeRemote
  /-- `drain_remote_tasks`: what was taken is put into `local_macrotasks` -/
  | adopt
  /-- `pop_macrotask`, and the closure is run -/
  | runMacrotask
  | commitIdle
  /-- `finalize_thread`: `close`, and what is queued is dropped -/
  | close
  deriving DecidableEq, Repr

variable (s : RemoteQueue)

/-- A call with the closure `task` has come to its end. -/
def returned (task : SendTask) (result : ThreadShared SendTask × Enqueued) : RemoteQueue :=
  { s with
    shared := result.1
    calls := s.calls ++ [{ task, outcome := result.2 }]
    pushed := if result.2.stays then s.pushed ++ [task] else s.pushed }

def nextTask (internal : Bool) : SendTask :=
  { id := s.calls.length, internal }

/-- The owner is not in the middle of `drain_remote_tasks` and has not been torn down. -/
def ownerReady : Bool :=
  s.drained.isEmpty && !s.tornDown

def runMacrotask : Option RemoteQueue :=
  match s.localMacrotasks with
  | [] => none
  | .own :: rest => some { s with localMacrotasks := rest }
  | .remote task :: rest =>
      some { s with localMacrotasks := rest, executed := s.executed ++ [task] }

def commitIdle : RemoteQueue :=
  let (shared, tasks, _) := s.shared.commitIdle s.worker s.tasks
  { s with shared, tasks }

def close : RemoteQueue :=
  let (shared, remote) := s.shared.close
  { s with
    shared
    localMacrotasks := []
    tasks := []
    tornDown := true
    dropped := s.localMacrotasks.filterMap MacroTask.remote? ++ remote }

/-- One action; `none` when it is not possible. -/
def step : Action → Option RemoteQueue
  | .enqueueMacro notifier =>
      let task := s.nextTask false
      some (s.returned task (s.shared.enqueueMacro task notifier))
  | .enqueueInternalWake notifier spawns =>
      let task := s.nextTask true
      some (s.returned task (s.shared.enqueueInternalWake task notifier spawns))
  | .beginAsyncOperation =>
      some { s with shared := { s.shared with pendingOps := s.shared.pendingOps + 1 } }
  | .finishAsyncOperation =>
      if s.shared.pendingOps = 0 then none
      else some { s with shared := { s.shared with pendingOps := s.shared.pendingOps - 1 } }
  | .spawn id => if s.ownerReady then some { s with tasks := s.tasks ++ [id] } else none
  | .exit id => if s.ownerReady then some { s with tasks := s.tasks.erase id } else none
  | .queueTask =>
      if s.ownerReady then some { s with localMacrotasks := s.localMacrotasks ++ [.own] }
      else none
  | .takeRemote =>
      if s.ownerReady then
        let (shared, drained) := s.shared.takeRemote
        some { s with shared, drained }
      else none
  | .adopt => some
      { s with
        drained := []
        localMacrotasks := s.localMacrotasks ++ s.drained.map MacroTask.remote }
  | .runMacrotask => if s.ownerReady then s.runMacrotask else none
  | .commitIdle => if s.ownerReady then some s.commitIdle else none
  | .close => if s.ownerReady then some s.close else none

/-- A thread whose queue holds `capacity` user tasks. -/
def init (capacity : Nat) (worker : Bool) : RemoteQueue :=
  { shared := { capacity }, worker }

def Reachable (capacity : Nat) (worker : Bool) : RemoteQueue → Prop :=
  Transition.Reachable step (fun _ _ => True) (init capacity worker)

/-! ## What a step can do -/

inductive Stepped (s : RemoteQueue) : RemoteQueue → Prop
  | returned (internal : Bool) {result : ThreadShared SendTask × Enqueued} :
      s.shared.EnqueueCases (s.nextTask internal) (!internal) internal result →
      Stepped s (s.returned (s.nextTask internal) result)
  | pendingOps (n : Nat) : Stepped s { s with shared := { s.shared with pendingOps := n } }
  | tasks (tasks : List Nat) : Stepped s { s with tasks }
  | queueTask : Stepped s { s with localMacrotasks := s.localMacrotasks ++ [.own] }
  | takeRemote : s.drained = [] → s.tornDown = false →
      Stepped s { s with shared := s.shared.takeRemote.1, drained := s.shared.takeRemote.2 }
  | adopt : Stepped s
      { s with
        drained := []
        localMacrotasks := s.localMacrotasks ++ s.drained.map MacroTask.remote }
  | runOwn {rest : List MacroTask} : s.localMacrotasks = .own :: rest →
      Stepped s { s with localMacrotasks := rest }
  | runRemote {task : SendTask} {rest : List MacroTask} :
      s.localMacrotasks = .remote task :: rest →
      Stepped s { s with localMacrotasks := rest, executed := s.executed ++ [task] }
  | commitIdle : s.tornDown = false → Stepped s s.commitIdle
  | close : s.drained = [] → s.tornDown = false → Stepped s s.close

variable {s} {s' : RemoteQueue}

theorem ownerReady_iff : s.ownerReady = true ↔ s.drained = [] ∧ s.tornDown = false := by
  simp [ownerReady]

theorem stepped_of_runMacrotask (hrun : s.runMacrotask = some s') : Stepped s s' := by
  unfold runMacrotask at hrun
  split at hrun
  next => cases hrun
  next rest hlocal =>
    cases hrun
    exact .runOwn hlocal
  next task rest hlocal =>
    cases hrun
    exact .runRemote hlocal

theorem stepped_of_step {action : Action} (hstep : s.step action = some s') : Stepped s s' := by
  cases action with
  | enqueueMacro notifier =>
      cases hstep
      exact .returned false (ThreadShared.enqueue_cases _ true false notifier true)
  | enqueueInternalWake notifier spawns =>
      cases hstep
      exact .returned true (ThreadShared.enqueue_cases _ false true notifier spawns)
  | beginAsyncOperation =>
      cases hstep
      exact .pendingOps _
  | finishAsyncOperation =>
      obtain ⟨-, heq⟩ := Option.ite_none_left_eq_some.mp hstep
      cases heq
      exact .pendingOps _
  | adopt =>
      cases hstep
      exact .adopt
  | runMacrotask =>
      obtain ⟨-, hrun⟩ := Option.ite_none_right_eq_some.mp hstep
      exact stepped_of_runMacrotask hrun
  | spawn id =>
      obtain ⟨-, heq⟩ := Option.ite_none_right_eq_some.mp hstep
      cases heq
      exact .tasks _
  | exit id =>
      obtain ⟨-, heq⟩ := Option.ite_none_right_eq_some.mp hstep
      cases heq
      exact .tasks _
  | queueTask =>
      obtain ⟨-, heq⟩ := Option.ite_none_right_eq_some.mp hstep
      cases heq
      exact .queueTask
  | takeRemote =>
      obtain ⟨hready, heq⟩ := Option.ite_none_right_eq_some.mp hstep
      cases heq
      obtain ⟨hdrained, hlive⟩ := ownerReady_iff.mp hready
      exact .takeRemote hdrained hlive
  | commitIdle =>
      obtain ⟨hready, heq⟩ := Option.ite_none_right_eq_some.mp hstep
      cases heq
      exact .commitIdle (ownerReady_iff.mp hready).2
  | close =>
      obtain ⟨hready, heq⟩ := Option.ite_none_right_eq_some.mp hstep
      cases heq
      obtain ⟨hdrained, hlive⟩ := ownerReady_iff.mp hready
      exact .close hdrained hlive

/-! ## Where the closures are -/

/-- The closures that are waiting to be run, in the order in which they will be. -/
def waiting (s : RemoteQueue) : List SendTask :=
  s.localMacrotasks.filterMap MacroTask.remote? ++ s.drained ++ s.shared.remoteMacrotasks

/-- Every closure that a call left in the queue was run, waits, or was dropped by
the teardown; the three follow each other in the order of the calls. -/
structure Accounted (s : RemoteQueue) : Prop where
  pushed_eq : s.pushed = s.executed ++ s.waiting ++ s.dropped
  dropped_nil : s.tornDown = false → s.dropped = []
  tornDown : s.tornDown = true → s.shared.closed = true ∧ s.waiting = []
  pushed_calls : s.pushed = (s.calls.filter fun c => c.outcome.stays).map (·.task)
  ids : s.calls.map (·.task.id) = List.range s.calls.length

/-- What the two kinds of entries are allowed. -/
structure Bounded (capacity : Nat) (s : RemoteQueue) : Prop where
  capacity_eq : s.shared.capacity = capacity
  users : (s.shared.remoteMacrotasks.filter fun task => !task.internal).length ≤ capacity
  wakes : ∀ c ∈ s.calls, c.task.internal = true → c.outcome ≠ .err .full

theorem Accounted.init (capacity : Nat) (worker : Bool) : (init capacity worker).Accounted := by
  constructor <;> simp [RemoteQueue.init, waiting]

theorem Accounted.returned (h : s.Accounted) {internal enforceCapacity durable : Bool}
    {result : ThreadShared SendTask × Enqueued}
    (hcases : s.shared.EnqueueCases (s.nextTask internal) enforceCapacity durable result) :
    (s.returned (s.nextTask internal) result).Accounted := by
  obtain ⟨hpushed, hdropped, htorn, hcalls, hids⟩ := h
  have hids' : ((s.returned (s.nextTask internal) result).calls.map (·.task.id)) =
      List.range (s.returned (s.nextTask internal) result).calls.length := by
    simp [RemoteQueue.returned, nextTask, hids, List.range_succ]
  have hcalls' : (s.returned (s.nextTask internal) result).pushed =
      ((s.returned (s.nextTask internal) result).calls.filter fun c => c.outcome.stays).map
        (·.task) := by
    cases hstays : result.2.stays <;> simp [RemoteQueue.returned, hstays, hcalls]
  refine ⟨?_, hdropped, ?_, hcalls', hids'⟩
  · cases hcases with
    | closed hclosed => exact hpushed
    | full hopen _ hsame =>
        simpa [waiting, RemoteQueue.returned, hsame.remoteMacrotasks, Enqueued.stays_err] using hpushed
    | @accepted shared outcome hopen hroom hstays hsame =>
        have hstays : outcome.stays = true := by rcases hstays with rfl | rfl <;> rfl
        have hup : s.tornDown = false := by
          cases htornDown : s.tornDown with
          | false => rfl
          | true => simpa [hopen] using htorn htornDown
        simp [waiting, RemoteQueue.returned, hsame.remoteMacrotasks, hstays, hpushed,
          hdropped hup]
  · intro htornDown
    obtain ⟨hclosed, hwaiting⟩ := htorn htornDown
    cases hcases with
    | closed => exact ⟨hclosed, hwaiting⟩
    | full hopen => simp [hclosed] at hopen
    | accepted hopen => simp [hclosed] at hopen

theorem Accounted.stepped (h : s.Accounted) (hstep : Stepped s s') : s'.Accounted := by
  cases hstep with
  | returned internal hcases => exact h.returned hcases
  | pendingOps n => exact ⟨h.pushed_eq, h.dropped_nil, h.tornDown, h.pushed_calls, h.ids⟩
  | tasks tasks => exact ⟨h.pushed_eq, h.dropped_nil, h.tornDown, h.pushed_calls, h.ids⟩
  | queueTask =>
      refine ⟨?_, h.dropped_nil, ?_, h.pushed_calls, h.ids⟩
      · simpa [waiting, List.filterMap_cons, MacroTask.remote?_own] using h.pushed_eq
      · simpa [waiting, List.filterMap_cons, MacroTask.remote?_own] using h.tornDown
  | takeRemote hdrained hlive =>
      refine ⟨?_, h.dropped_nil, by simp [hlive], h.pushed_calls, h.ids⟩
      simpa [waiting, ThreadShared.takeRemote, hdrained] using h.pushed_eq
  | adopt =>
      have hwaiting : (s.localMacrotasks ++ s.drained.map MacroTask.remote).filterMap
          MacroTask.remote? = s.localMacrotasks.filterMap MacroTask.remote? ++ s.drained := by
        simp [List.filterMap_map, Function.comp_def, MacroTask.remote?_remote]
      refine ⟨?_, h.dropped_nil, ?_, h.pushed_calls, h.ids⟩
      · simpa [waiting, hwaiting] using h.pushed_eq
      · simpa only [waiting, hwaiting, List.append_nil] using h.tornDown
  | runOwn hlocal =>
      refine ⟨?_, h.dropped_nil, ?_, h.pushed_calls, h.ids⟩
      · simpa [waiting, hlocal, List.filterMap_cons, MacroTask.remote?_own] using h.pushed_eq
      · simpa [waiting, hlocal, List.filterMap_cons, MacroTask.remote?_own] using h.tornDown
  | runRemote hlocal =>
      refine ⟨?_, h.dropped_nil, fun htornDown => ?_, h.pushed_calls, h.ids⟩
      · simpa [waiting, hlocal, MacroTask.remote?_remote] using h.pushed_eq
      · simpa [waiting, hlocal, MacroTask.remote?_remote] using (h.tornDown htornDown).2
  | commitIdle hlive =>
      refine ⟨?_, h.dropped_nil, by simp [RemoteQueue.commitIdle, hlive], h.pushed_calls, h.ids⟩
      rcases ThreadShared.commitIdle_cases (s := s.shared) s.worker s.tasks with heq | heq <;>
        simpa [waiting, RemoteQueue.commitIdle, heq] using h.pushed_eq
  | close hdrained hlive =>
      refine ⟨?_, by simp [RemoteQueue.close],
        by simp [RemoteQueue.close, ThreadShared.close, waiting, hdrained],
        h.pushed_calls, h.ids⟩
      simpa [waiting, RemoteQueue.close, ThreadShared.close, hdrained, h.dropped_nil hlive]
        using h.pushed_eq

/-! ## Capacity -/

theorem Bounded.init (capacity : Nat) (worker : Bool) :
    Bounded capacity (init capacity worker) := by
  constructor <;> simp [RemoteQueue.init]

/-- A user task is accepted into a queue that has room for it, whatever is in the
queue; an internal wake is not counted. -/
theorem Bounded.returned {capacity : Nat} (h : s.Bounded capacity) {internal : Bool}
    {result : ThreadShared SendTask × Enqueued}
    (hcases : s.shared.EnqueueCases (s.nextTask internal) (!internal) internal result) :
    (s.returned (s.nextTask internal) result).Bounded capacity := by
  obtain ⟨hcapacity, husers, hwakes⟩ := h
  refine ⟨?_, ?_, ?_⟩
  · cases hcases with
    | closed => exact hcapacity
    | full _ _ hsame => exact hsame.capacity.trans hcapacity
    | accepted _ _ _ hsame => exact hsame.capacity.trans hcapacity
  · cases hcases with
    | closed => exact husers
    | full _ _ hsame => simpa [RemoteQueue.returned, hsame.remoteMacrotasks] using husers
    | accepted _ hroom _ hsame =>
        simp only [RemoteQueue.returned, hsame.remoteMacrotasks, List.filter_append,
          List.length_append]
        cases internal with
        | true => simpa [nextTask] using husers
        | false =>
            have hroom := hroom rfl
            have hle := List.length_filter_le (fun task : SendTask => !task.internal)
              s.shared.remoteMacrotasks
            have hone : ([s.nextTask false].filter fun task => !task.internal).length = 1 := rfl
            omega
  · intro c hmem hinternal
    rcases List.mem_append.mp hmem with hold | hnew
    · exact hwakes c hold hinternal
    · obtain rfl := List.mem_singleton.mp hnew
      obtain rfl : internal = true := hinternal
      cases hcases with
      | closed => simp
      | full _ hkind => simp at hkind
      | accepted _ _ houtcome => rcases houtcome with rfl | rfl <;> simp

theorem Bounded.stepped {capacity : Nat} (h : s.Bounded capacity) (hstep : Stepped s s') :
    s'.Bounded capacity := by
  cases hstep with
  | returned internal hcases => exact h.returned hcases
  | takeRemote => exact ⟨h.capacity_eq, by simp [ThreadShared.takeRemote], h.wakes⟩
  | commitIdle =>
      unfold RemoteQueue.commitIdle
      rcases ThreadShared.commitIdle_cases (s := s.shared) s.worker s.tasks with heq | heq <;>
        exact ⟨by simpa [heq] using h.capacity_eq, by simpa [heq] using h.users, h.wakes⟩
  | close => exact ⟨h.capacity_eq, by simp [RemoteQueue.close, ThreadShared.close], h.wakes⟩
  | _ => exact ⟨h.capacity_eq, h.users, h.wakes⟩

/-! ## After the close -/

/-- A closed thread stays closed, and the calls that a step adds are refused. -/
theorem Stepped.closed (hstep : Stepped s s') (hclosed : s.shared.closed = true) :
    s'.shared.closed = true ∧
      ∃ later, s'.calls = s.calls ++ later ∧ ∀ c ∈ later, c.outcome = .err .closed := by
  cases hstep with
  | returned internal hcases =>
      cases hcases with
      | closed =>
          refine ⟨hclosed, _, rfl, ?_⟩
          intro c hmem
          obtain rfl := List.mem_singleton.mp hmem
          rfl
      | full hopen => simp [hclosed] at hopen
      | accepted hopen => simp [hclosed] at hopen
  | commitIdle =>
      refine ⟨?_, [], by simp [RemoteQueue.commitIdle]⟩
      rcases ThreadShared.commitIdle_cases (s := s.shared) s.worker s.tasks with heq | heq <;>
        simp [RemoteQueue.commitIdle, heq, hclosed]
  | close => exact ⟨rfl, [], by simp [RemoteQueue.close]⟩
  | _ => exact ⟨hclosed, [], by simp⟩

theorem closed_of_run {actions : List Action} (hclosed : s.shared.closed = true)
    (hrun : Transition.run step s actions = some s') : s'.shared.closed = true ∧
      ∃ later, s'.calls = s.calls ++ later ∧ ∀ c ∈ later, c.outcome = .err .closed := by
  induction actions generalizing s with
  | nil =>
      obtain rfl : s = s' := by simpa [Transition.run] using hrun
      exact ⟨hclosed, [], by simp⟩
  | cons action actions ih =>
      obtain ⟨t, ht, hrest⟩ := Option.bind_eq_some_iff.mp hrun
      obtain ⟨htclosed, first, hfirst, hrefused⟩ := (stepped_of_step ht).closed hclosed
      obtain ⟨hs', later, hlater, hrefused'⟩ := ih htclosed hrest
      refine ⟨hs', first ++ later, by rw [hlater, hfirst, List.append_assoc], ?_⟩
      intro c hmem
      rcases List.mem_append.mp hmem with hc | hc
      · exact hrefused c hc
      · exact hrefused' c hc

/-! ## Every accepted closure is run -/

theorem run_localMacrotasks (hdrained : s.drained = []) (hlive : s.tornDown = false) :
    ∃ s', Transition.run step s (List.replicate s.localMacrotasks.length .runMacrotask) = some s' ∧
      s'.executed = s.executed ++ s.localMacrotasks.filterMap MacroTask.remote? := by
  generalize hlocal : s.localMacrotasks = entries
  induction entries generalizing s with
  | nil => exact ⟨s, rfl, by simp⟩
  | cons entry entries ih =>
      have hready : s.ownerReady = true := ownerReady_iff.mpr ⟨hdrained, hlive⟩
      cases entry with
      | own =>
          obtain ⟨s', hrun, hexecuted⟩ := ih (s := { s with localMacrotasks := entries })
            hdrained hlive rfl
          refine ⟨s', ?_, by simpa [List.filterMap_cons, MacroTask.remote?_own] using hexecuted⟩
          simp only [List.length_cons, List.replicate_succ, Transition.run]
          simpa [step, hready, runMacrotask, hlocal] using hrun
      | remote task =>
          obtain ⟨s', hrun, hexecuted⟩ := ih
            (s := { s with localMacrotasks := entries, executed := s.executed ++ [task] })
            hdrained hlive rfl
          refine ⟨s', ?_, by simpa [MacroTask.remote?_remote] using hexecuted⟩
          simp only [List.length_cons, List.replicate_succ, Transition.run]
          simpa [step, hready, runMacrotask, hlocal] using hrun

/-- While the thread is not torn down, the owner's next turns run every closure
that was accepted so far. -/
theorem Accounted.run_waiting (h : s.Accounted) (hlive : s.tornDown = false) :
    ∃ n s', Transition.run step s
      ([.adopt, .takeRemote, .adopt] ++ List.replicate n .runMacrotask) = some s' ∧
      s'.executed = s.pushed := by
  let t : RemoteQueue := { s with
    shared := s.shared.takeRemote.1
    localMacrotasks := (s.localMacrotasks ++ s.drained.map MacroTask.remote) ++
      s.shared.remoteMacrotasks.map MacroTask.remote
    drained := [] }
  obtain ⟨s', hrun, hexecuted⟩ := run_localMacrotasks (s := t) rfl hlive
  refine ⟨t.localMacrotasks.length, s', ?_, ?_⟩
  · simpa [Transition.run, step, ownerReady, hlive, ThreadShared.takeRemote, t] using hrun
  · rw [hexecuted, h.pushed_eq, h.dropped_nil hlive]
    simp [t, waiting, List.filterMap_map, Function.comp_def, MacroTask.remote?_remote]

/-! ## The queue is transactional -/

/-- The calls that left their closures in the queue did so in the order of their
numbers. -/
theorem Accounted.pushed_pairwise (h : s.Accounted) : s.pushed.Pairwise (·.id < ·.id) := by
  have hcalls : s.calls.Pairwise (·.task.id < ·.task.id) := by
    have hrange : (s.calls.map (·.task.id)).Pairwise (· < ·) := by
      rw [h.ids]
      exact List.pairwise_lt_range
    exact List.pairwise_map.mp hrange
  rw [h.pushed_calls]
  exact List.pairwise_map.mpr (hcalls.filter _)

/-- Calls are told apart by the numbers of their closures. -/
theorem Accounted.eq_of_task_eq (h : s.Accounted) {c d : Call} (hc : c ∈ s.calls)
    (hd : d ∈ s.calls) (heq : c.task = d.task) : c = d := by
  have hnodup : (s.calls.map (·.task.id)).Nodup := by
    rw [h.ids]
    exact List.nodup_range
  exact List.inj_on_of_nodup_map hnodup hc hd (congrArg SendTask.id heq)

/-- In every interleaving: the closures of the calls that returned `Ok` are run
once and in the order of the calls, wait to be run, or are dropped by the
teardown, and the owner's next turns run those that wait; an error leaves the
queue as it was, and the closure is never run; the user tasks in the queue never
exceed its capacity, and no internal wake is refused for it; once the thread is
closed, every call returns `Closed`; and a worker closes with an empty queue. -/
theorem transactional_of_reachable {capacity : Nat} {worker : Bool}
    (hreach : s.Reachable capacity worker) :
    (∀ c ∈ s.calls, c.outcome = .ok → c.task ∈ s.pushed) ∧
    s.pushed = s.executed ++ s.waiting ++ s.dropped ∧ s.pushed.Pairwise (·.id < ·.id) ∧
    (s.tornDown = false → s.dropped = [] ∧ ∃ n s', Transition.run step s
      ([.adopt, .takeRemote, .adopt] ++ List.replicate n .runMacrotask) = some s' ∧
      s'.executed = s.pushed) ∧
    (s.tornDown = true → s.waiting = []) ∧
    (∀ c ∈ s.calls, ∀ error, c.outcome = .err error → c.task ∉ s.executed) ∧
    (∀ task enforceCapacity durable notifier spawns error,
      (s.shared.enqueue task enforceCapacity durable notifier spawns).2 = .err error →
      (s.shared.enqueue task enforceCapacity durable notifier spawns).1.remoteMacrotasks =
        s.shared.remoteMacrotasks) ∧
    (s.shared.remoteMacrotasks.filter fun task => !task.internal).length ≤ capacity ∧
    (∀ c ∈ s.calls, c.task.internal = true → c.outcome ≠ .err .full) ∧
    (s.shared.closed = true → ∀ actions s', Transition.run step s actions = some s' →
      ∃ later, s'.calls = s.calls ++ later ∧ ∀ c ∈ later, c.outcome = .err .closed) ∧
    ((s.shared.commitIdle s.worker s.tasks).2.2 = .workerClosed →
      s.shared.remoteMacrotasks = []) := by
  have hinv : s.Accounted ∧ s.Bounded capacity := by
    refine Transition.Reachable.invariant (fun s => s.Accounted ∧ s.Bounded capacity)
      ⟨.init capacity worker, .init capacity worker⟩ ?_ hreach
    intro s action s' ⟨haccounted, hbounded⟩ _ hstep
    exact ⟨haccounted.stepped (stepped_of_step hstep), hbounded.stepped (stepped_of_step hstep)⟩
  obtain ⟨haccounted, hbounded⟩ := hinv
  refine ⟨?_, haccounted.pushed_eq, haccounted.pushed_pairwise, ?_, ?_, ?_, ?_,
    hbounded.users, hbounded.wakes, ?_, ?_⟩
  · intro c hmem hok
    rw [haccounted.pushed_calls]
    exact List.mem_map_of_mem (List.mem_filter.mpr ⟨hmem, by simp [hok, Enqueued.stays]⟩)
  · intro hlive
    exact ⟨haccounted.dropped_nil hlive, haccounted.run_waiting hlive⟩
  · intro htornDown
    exact (haccounted.tornDown htornDown).2
  · intro c hmem error herr hexecuted
    have hpushed : c.task ∈ s.pushed := by
      rw [haccounted.pushed_eq]
      simp [hexecuted]
    rw [haccounted.pushed_calls] at hpushed
    obtain ⟨d, hd, htask⟩ := List.mem_map.mp hpushed
    obtain ⟨hdmem, hstays⟩ := List.mem_filter.mp hd
    obtain rfl := haccounted.eq_of_task_eq hdmem hmem htask
    simp [herr, Enqueued.stays_err] at hstays
  · intro task enforceCapacity durable notifier spawns error herr
    have hcases := ThreadShared.enqueue_cases (s := s.shared) task enforceCapacity durable
      notifier spawns
    generalize s.shared.enqueue task enforceCapacity durable notifier spawns = result at *
    cases hcases with
    | closed => rfl
    | full _ _ hsame => exact hsame.remoteMacrotasks
    | accepted _ _ houtcome => rcases houtcome with rfl | rfl <;> simp at herr
  · intro hclosed actions s' hrun
    exact (closed_of_run hclosed hrun).2
  · intro houtcome
    have hcommitted : (s.shared.commitIdle s.worker s.tasks).2.2 ≠ .retry := by
      simp [houtcome]
    exact (ThreadShared.commitIdle_committed hcommitted).1

/-- A user task and a wake whose notification fails are queued, a second user task
is refused, the owner runs what was accepted, and is torn down. -/
theorem transactional_two_accepted :
    ∃ s : RemoteQueue, s.Reachable 2 true ∧ s.calls.length = 4 ∧
      s.executed = [{ id := 0, internal := false }, { id := 1, internal := true }] ∧
      s.pushed = s.executed ++ s.waiting ++ s.dropped ∧ s.waiting = [] := by
  obtain ⟨s, hreach, hs⟩ := Transition.Reachable.exists_of_run step (fun _ _ => True)
    (init 2 true) [.enqueueMacro [false, true], .enqueueInternalWake [false, false] true,
      .enqueueMacro [true], .takeRemote, .adopt, .runMacrotask, .runMacrotask, .commitIdle,
      .close, .enqueueInternalWake [true] true]
    (fun s => s.tornDown ∧ s.calls.length = 4 ∧
      s.executed = [{ id := 0, internal := false }, { id := 1, internal := true }])
    (by simp) (by decide)
  obtain ⟨htornDown, hcalls, hexecuted⟩ := of_decide_eq_true hs
  obtain ⟨-, hpushed, -, -, hwaiting, -⟩ := transactional_of_reachable hreach
  exact ⟨s, hreach, hcalls, hexecuted, hpushed, hwaiting htornDown⟩

end RemoteQueue

end Runite.Runtime
