import Runite.Lib.Transition

/-!
# Spawned tasks

`platform::runtime_shared::future_task`, with what `queue_future`, `drain_microtasks`,
`commit_idle` and `finalize_thread` do to the tasks of a runtime thread.  A task is known by
its position in the list of all tasks that were ever spawned.  The code of the program runs
between the steps, on the same thread: inside a poll, from a waker that is woken or from a
destructor.
-/

namespace Runite.Runtime

inductive TaskState
  | running
  | finished
  | aborted
  | cancelled
  | panicked
  deriving DecidableEq, Repr

inductive JoinError
  | aborted
  | cancelled
  | panicked
  deriving DecidableEq, Repr

/-- `FutureTask` with its `TaskShared` and `JoinState`.  `future` says whether the future is in
its slot, `registered` whether the task is in `ThreadState::tasks`; `α` are the outputs and `ω`
the wakers of join handles.  `output` is history: what `complete` stored. -/
structure FutureTask (α ω : Type) where
  state : TaskState := .running
  future : Bool := true
  queued : Bool := false
  registered : Bool := true
  joinWaker : Option ω := none
  result : Option α := none
  output : Option α := none
  deriving DecidableEq, Repr

/-- A closure in `local_microtasks`: the poll of a task, or anything else. -/
inductive Microtask
  | poll (id : Nat)
  | callback
  deriving DecidableEq, Repr

def Microtask.isPoll : Microtask → Bool
  | poll _ => true
  | callback => false

inductive Control
  | idle
  /-- the future of a task is being polled -/
  | polling (id : Nat)
  /-- `complete` was called in the poll, which has not returned -/
  | completed (id : Nat)
  /-- `finalize_thread`, up to the end of `cancel_all_registered_tasks` -/
  | tearingDown
  | tornDown
  deriving DecidableEq, Repr

def Control.tearing : Control → Bool
  | tearingDown | tornDown => true
  | _ => false

/-- The tasks of a runtime thread.  The last two fields are history: the wakers of join handles
that were woken, and whether `ready_tasks` was decremented at zero. -/
structure Tasks (α ω : Type) where
  tasks : List (FutureTask α ω) := []
  localMicrotasks : List Microtask := []
  readyTasks : Nat := 0
  inEventLoop : Bool := false
  control : Control := .idle
  woken : List ω := []
  underflowed : Bool := false
  deriving DecidableEq, Repr

inductive Answer (α : Type)
  | unit
  /-- the future of the task is polled -/
  | polled (id : Nat)
  /-- `JoinState::poll` -/
  | pending
  | ready (output : α)
  | failed (error : JoinError)
  | panics
  deriving DecidableEq, Repr

namespace FutureTask

variable {α ω : Type} (t : FutureTask α ω)

/-- `mark_terminal`, which gives back the waker of the join handle -/
def markTerminal (terminal : TaskState) : FutureTask α ω × List ω :=
  if t.state = .running then
    ({ t with state := terminal, joinWaker := none }, t.joinWaker.toList)
  else (t, [])

/-- `cancel_tasks_for_shutdown` for a task that was in the registry -/
def cancel : FutureTask α ω :=
  if !t.registered then t
  else if t.state = .running then
    { t with
      state := .cancelled
      joinWaker := none
      queued := false
      future := false
      registered := false }
  else { t with registered := false }

/-- `cancel_tasks_for_shutdown` changes the state of the task. -/
def cancels : Bool := t.registered && t.state = .running

end FutureTask

namespace Tasks

variable {α ω : Type} (s : Tasks α ω)

/-- `ready_tasks.fetch_sub(1)`, `n` times -/
def release (n : Nat) : Tasks α ω :=
  { s with readyTasks := s.readyTasks - n, underflowed := s.underflowed || s.readyTasks < n }

def schedule (id : Nat) (t : FutureTask α ω) : Tasks α ω :=
  if t.queued then s
  else { s with
    tasks := s.tasks.set id { t with queued := true }
    readyTasks := s.readyTasks + 1
    localMicrotasks := s.localMicrotasks ++ [.poll id] }

/-- `schedule_task_by_id` -/
def scheduleById (id : Nat) : Tasks α ω :=
  match s.tasks[id]? with
  | some t => if t.registered then s.schedule id t else s
  | none => s

def queueFuture : Tasks α ω :=
  let t : FutureTask α ω := {}
  { s with tasks := s.tasks ++ [t] }.schedule s.tasks.length t

def abort (id : Nat) (t : FutureTask α ω) : Tasks α ω :=
  if t.state = .running then
    let (t, wakers) := t.markTerminal .aborted
    { s with
      tasks := s.tasks.set id { t with future := false, registered := false }
      woken := s.woken ++ wakers }
  else s

/-- `FutureTask::poll` up to the poll of the future -/
def poll (id : Nat) (t : FutureTask α ω) : Tasks α ω × Answer α :=
  let s := { s with tasks := s.tasks.set id { t with queued := false, future := false } }.release 1
  if t.future then ({ s with control := .polling id }, .polled id) else (s, .unit)

/-- `drain_microtasks`: the next closure runs, or starts to run -/
def runMicrotask : Option (Tasks α ω × Answer α) :=
  match s.localMicrotasks with
  | [] => none
  | .callback :: rest => some ({ s with localMicrotasks := rest }, .unit)
  | .poll id :: rest => s.tasks[id]?.map ({ s with localMicrotasks := rest }.poll id)

/-- `JoinState::complete`, called by the future that `queue_future` has made -/
def complete (id : Nat) (t : FutureTask α ω) (value : α) : Tasks α ω :=
  if t.state = .running then
    { s with
      tasks := s.tasks.set id { t with
        result := some value
        output := some value
        state := .finished
        joinWaker := none }
      woken := s.woken ++ t.joinWaker.toList
      control := .completed id }
  else { s with control := .completed id }

/-- `FutureTask::poll` when the future is not ready -/
def pollPending (id : Nat) (t : FutureTask α ω) : Tasks α ω :=
  if t.state = .aborted then { s with control := .idle }
  else { s with tasks := s.tasks.set id { t with future := true }, control := .idle }

/-- `FutureTask::poll` when the future is ready -/
def pollReady (id : Nat) (t : FutureTask α ω) : Tasks α ω :=
  { s with tasks := s.tasks.set id { t with registered := false }, control := .idle }

/-- `FutureTask::poll` when the future panics -/
def pollPanics (id : Nat) (t : FutureTask α ω) : Tasks α ω :=
  let (t, wakers) := t.markTerminal .panicked
  { s with
    tasks := s.tasks.set id { t with registered := false }
    woken := s.woken ++ wakers
    control := .idle }

/-- `JoinState::poll` -/
def pollJoin (id : Nat) (t : FutureTask α ω) (waker : ω) : Tasks α ω × Answer α :=
  match t.state with
  | .finished =>
      match t.result with
      | some output => ({ s with tasks := s.tasks.set id { t with result := none } }, .ready output)
      | none => (s, .panics)
  | .aborted => (s, .failed .aborted)
  | .cancelled => (s, .failed .cancelled)
  | .panicked => (s, .failed .panicked)
  | .running =>
      ({ s with tasks := s.tasks.set id { t with joinWaker := some waker } }, .pending)

/-- The registry is taken and `cancel_tasks_for_shutdown` is called with its tasks. -/
def cancelTasks : Tasks α ω :=
  { s.release (s.tasks.countP fun t => t.cancels && t.queued) with
    tasks := s.tasks.map FutureTask.cancel
    woken := s.woken ++ (s.tasks.filter FutureTask.cancels).flatMap fun t => t.joinWaker.toList }

inductive Action (α ω : Type)
  /-- what the code of the program does -/
  | queueFuture
  | wake (id : Nat)
  | abort (id : Nat)
  | pollJoin (id : Nat) (waker : ω)
  | queueMicrotask
  /-- one of the event loops begins, or returns -/
  | enter
  | leave
  | runMicrotask
  /-- how the poll of a future goes on -/
  | complete (value : α)
  | pending
  | ready
  | panic
  /-- `commit_idle`, after `has_ready_work` has found no microtask -/
  | commitIdle
  /-- `finalize_thread` -/
  | tearDown
  /-- a round of `cancel_all_registered_tasks` -/
  | cancelAll

variable {s}

/-- The step of the poll that the thread is in. -/
def inPoll (s : Tasks α ω) (id : Nat) (f : FutureTask α ω → Tasks α ω) :
    Option (Tasks α ω × Answer α) :=
  s.tasks[id]?.map fun t => (f t, .unit)

def act (s : Tasks α ω) : Action α ω → Option (Tasks α ω × Answer α)
  | .queueFuture => if s.control = .tornDown then none else some (s.queueFuture, .unit)
  | .wake id => if s.control = .tornDown then none else some (s.scheduleById id, .unit)
  | .abort id => s.tasks[id]?.map fun t => (s.abort id t, .unit)
  | .pollJoin id waker => s.tasks[id]?.map (s.pollJoin id · waker)
  | .queueMicrotask =>
      if s.control = .tornDown then none
      else some ({ s with localMicrotasks := s.localMicrotasks ++ [.callback] }, .unit)
  | .enter =>
      if s.control = .idle ∧ s.inEventLoop = false then
        some ({ s with inEventLoop := true }, .unit)
      else none
  | .leave =>
      if s.control = .idle ∧ s.inEventLoop = true then
        some ({ s with inEventLoop := false }, .unit)
      else none
  | .runMicrotask =>
      if s.control = .idle ∧ s.inEventLoop = true then s.runMicrotask else none
  | .complete value =>
      match s.control with
      | .polling id => s.inPoll id (s.complete id · value)
      | _ => none
  | .pending =>
      match s.control with
      | .polling id => s.inPoll id (s.pollPending id)
      | _ => none
  | .ready =>
      match s.control with
      | .completed id => s.inPoll id (s.pollReady id)
      | _ => none
  | .panic =>
      match s.control with
      | .polling id | .completed id => s.inPoll id (s.pollPanics id)
      | _ => none
  | .commitIdle =>
      if s.control = .idle ∧ s.inEventLoop = true ∧ s.localMicrotasks = [] then
        some (s.cancelTasks, .unit)
      else none
  | .tearDown =>
      if s.control = .idle ∧ s.inEventLoop = false then
        some ({ s with control := .tearingDown }, .unit)
      else none
  | .cancelAll =>
      if s.control = .tearingDown then
        if s.tasks.any FutureTask.registered then some (s.cancelTasks, .unit)
        else some ({ s with control := .tornDown }, .unit)
      else none

def step (s : Tasks α ω) (a : Action α ω) : Option (Tasks α ω) :=
  (s.act a).map Prod.fst

def Reachable (s : Tasks α ω) : Prop :=
  Transition.Reachable step (fun _ _ => True) {} s

end Tasks

end Runite.Runtime
