import Runite.Runtime.ThreadShared
import Runite.Lib.Transition

/-!
# The event loop and the threads around it

`scheduler::run` step by step: each critical section of the queue's lock and
each load of `pending_ops` is a step of its own, and `commit_idle` keeps the
lock over several.  Between the steps, other threads complete operations, wake
tasks and queue macrotasks.
-/

namespace Runite.Runtime

/-- A closure in one of the owner's queues: the wake of an operation, by the
operation's number, or anything else. -/
inductive Work
  | wake (op : Nat)
  | other
  deriving DecidableEq, Repr

inductive WakeClass
  | microtask
  | macrotask
  deriving DecidableEq, Repr

/-- How far an operation is.  `begin_async_operation` has been called, and
`finish_async_operation` is called with the step to `finished`. -/
inductive OpPhase
  /-- nobody has exchanged `finished` -/
  | pending
  /-- `finish` is about to store the result -/
  | storing
  /-- the result is stored, and `finish` is about to queue the wake -/
  | queueing
  /-- `queue_wake` unwound, and `finish` with it -/
  | unwound
  /-- `finish`, or the drop of the future, is about to call `finish_async_operation` -/
  | finishing
  | finished
  deriving DecidableEq, Repr

/-- An operation.  `onOwner` says whether the thread that finishes it is the
owner; `stored` is history: whether its result was stored. -/
structure Operation where
  wakeClass : WakeClass
  interested : Bool := true
  phase : OpPhase := .pending
  onOwner : Bool := false
  stored : Bool := false
  deriving DecidableEq, Repr

/-- Which of the three `drain_all` of a turn it is. -/
inductive Round
  | first
  | second
  | third
  deriving DecidableEq, Repr

/-- Where the owner is in `run`. -/
inductive OwnerPhase
  /-- not in the event loop -/
  | outside
  | drainDriver (round : Round)
  | takeRemote (round : Round)
  /-- `drain_remote_tasks` has released the lock -/
  | adopt (round : Round) (drained : List Work)
  | drainWorkers (round : Round)
  | drainMicrotasks
  | microtask
  | popMacrotask
  | macrotask
  /-- `has_ready_work`: the local queues -/
  | readyLocal (round : Round)
  /-- `has_ready_work`: the queue of the other threads -/
  | readyRemote (round : Round)
  /-- `busy`: timers and children -/
  | busy
  /-- `busy`: `has_live_async_operations` -/
  | busyOps
  | parked
  /-- `commit_idle`: the lock and the queue -/
  | commitQueue
  /-- `commit_idle`: `has_live_async_operations`, under the lock -/
  | commitOps
  /-- `commit_idle`: the rest, under the lock -/
  | commitTasks
  | cancelTasks
  | tornDown
  deriving DecidableEq, Repr

/-- The owner runs code that may do anything on its own thread: callbacks,
tasks, destructors, or the program around the event loop. -/
def OwnerPhase.runsCode : OwnerPhase → Bool
  | .outside | .drainDriver _ | .microtask | .macrotask | .cancelTasks => true
  | _ => false

/-- The owner holds the lock of the queue between two steps. -/
def OwnerPhase.holdsLock : OwnerPhase → Bool
  | .commitOps | .commitTasks => true
  | _ => false

/-- The owner's thread.  `children` says of each child whether it has finished.
The last two fields are history: what was put into the local queues, and what
`commit_idle` reported other than `Retry`. -/
structure RunLoop where
  shared : ThreadShared Work
  worker : Bool
  localMicrotasks : List Work := []
  localMacrotasks : List Work := []
  timers : Nat := 0
  children : List Bool := []
  tasks : List Nat := []
  ops : List Operation := []
  phase : OwnerPhase := .outside
  delivered : List Work := []
  reports : List (ThreadShared.IdleCommit Nat) := []
  deriving DecidableEq

namespace RunLoop

inductive Effect
  | queueMicrotask
  | queueTask
  /-- `begin_async_operation`, which is called on the owner's thread -/
  | beginAsyncOperation (wakeClass : WakeClass)
  | spawn (id : Nat)
  | exit (id : Nat)
  | setTimer
  | clearTimer
  | spawnWorker
  deriving DecidableEq, Repr

/-- What the other event loops (`run_until_stalled`, `run_ready_tasks`, `block_on`)
do to the queues while the owner is not in `run`. -/
inductive Pump
  | drainRemote
  | popMicrotask
  | popMacrotask
  deriving DecidableEq, Repr

inductive Action
  /-- `run` is called -/
  | enter
  | pump (pump : Pump)
  /-- the owner's next step in `run` -/
  | turn
  | effect (effect : Effect)
  /-- `finish`: the exchange of `finished`, and the load of `interested` -/
  | finish (op : Nat) (onOwner : Bool)
  /-- the finish of the operation goes on -/
  | proceed (op : Nat) (notifier : List Bool) (spawns : Bool)
  /-- the future is dropped: the exchange of `interested` -/
  | drop (op : Nat)
  /-- an operation ends without a wake: the exchange of `finished` in the drop -/
  | release (op : Nat) (onOwner : Bool)
  /-- another thread wakes a task -/
  | remoteWake (notifier : List Bool) (spawns : Bool)
  /-- another thread queues a macrotask -/
  | remoteTask (notifier : List Bool)
  | childFinishes (child : Nat)
  /-- `finalize_thread` -/
  | tearDown
  deriving DecidableEq, Repr

variable (s : RunLoop)

/-! ## The owner -/

def nextTurn : RunLoop := { s with phase := .drainDriver .first }

/-- `drain_completed_workers` -/
def drainWorkers : RunLoop :=
  { s with
    children := s.children.filter (!·)
    localMacrotasks := s.localMacrotasks ++ (s.children.filter id).map fun _ => Work.other }

/-- `commit_idle` reports. -/
def report : RunLoop :=
  let (shared, tasks, outcome) := s.shared.commit s.worker s.tasks
  { s with
    shared
    tasks
    reports := s.reports ++ [outcome]
    phase := match outcome with
      | .cancelTasks _ => .cancelTasks
      | _ => .outside }

/-- The owner's next step in `run`. -/
def turn : Option RunLoop :=
  match s.phase with
  | .outside | .tornDown => none
  | .drainDriver round => some { s with phase := .takeRemote round }
  | .takeRemote round =>
      let (shared, drained) := s.shared.takeRemote
      some { s with shared, phase := .adopt round drained }
  | .adopt round drained => some
      { s with
        localMacrotasks := s.localMacrotasks ++ drained
        delivered := s.delivered ++ drained
        phase := .drainWorkers round }
  | .drainWorkers round => some
      { s.drainWorkers with
        phase := match round with
          | .first => .drainMicrotasks
          | _ => .readyLocal round }
  | .drainMicrotasks =>
      match s.localMicrotasks with
      | [] => some { s with phase := .popMacrotask }
      | _ :: rest => some { s with localMicrotasks := rest, phase := .microtask }
  | .microtask => some { s with phase := .drainMicrotasks }
  | .popMacrotask =>
      match s.localMacrotasks with
      | [] => some { s with phase := .drainDriver .second }
      | _ :: rest => some { s with localMacrotasks := rest, phase := .macrotask }
  | .macrotask => some s.nextTurn
  | .readyLocal round =>
      if s.localMicrotasks.isEmpty && s.localMacrotasks.isEmpty then
        some { s with phase := .readyRemote round }
      else some s.nextTurn
  | .readyRemote round =>
      if s.shared.remoteMacrotasks.isEmpty then
        some { s with
          phase := match round with
            | .third => .busy
            | _ => .drainDriver .third }
      else some s.nextTurn
  | .busy =>
      if s.timers = 0 ∧ s.children = [] then some { s with phase := .busyOps }
      else some { s with phase := .parked }
  | .busyOps =>
      if s.shared.pendingOps = 0 then some { s with phase := .commitQueue }
      else some { s with phase := .parked }
  | .parked => some s.nextTurn
  | .commitQueue =>
      if s.shared.remoteMacrotasks.isEmpty then some { s with phase := .commitOps }
      else some s.nextTurn
  | .commitOps =>
      if s.shared.pendingOps = 0 then some { s with phase := .commitTasks }
      else some s.nextTurn
  | .commitTasks => some s.report
  | .cancelTasks => some s.nextTurn

def effect : Effect → RunLoop
  | .queueMicrotask => { s with localMicrotasks := s.localMicrotasks ++ [.other] }
  | .queueTask => { s with localMacrotasks := s.localMacrotasks ++ [.other] }
  | .beginAsyncOperation wakeClass =>
      { s with
        shared := { s.shared with pendingOps := s.shared.pendingOps + 1 }
        ops := s.ops ++ [{ wakeClass }] }
  | .spawn id => { s with tasks := s.tasks ++ [id] }
  | .exit id => { s with tasks := s.tasks.erase id }
  | .setTimer => { s with timers := s.timers + 1 }
  | .clearTimer => { s with timers := s.timers - 1 }
  | .spawnWorker => { s with children := s.children ++ [false] }

def pump : Pump → RunLoop
  | .drainRemote =>
      { s with
        shared := s.shared.takeRemote.1
        localMacrotasks := s.localMacrotasks ++ s.shared.takeRemote.2
        delivered := s.delivered ++ s.shared.takeRemote.2 }
  | .popMicrotask => { s with localMicrotasks := s.localMicrotasks.tail }
  | .popMacrotask => { s with localMacrotasks := s.localMacrotasks.tail }

/-! ## Operations -/

/-- The thread that finishes the operation can take a step. -/
def mayStep (onOwner : Bool) : Bool :=
  !onOwner || s.phase.runsCode

/-- The wake goes into one of the owner's own queues. -/
def queueLocally (i : Nat) (wakeClass : WakeClass) : RunLoop :=
  match wakeClass with
  | .microtask =>
      { s with
        localMicrotasks := s.localMicrotasks ++ [.wake i]
        delivered := s.delivered ++ [.wake i] }
  | .macrotask =>
      { s with
        localMacrotasks := s.localMacrotasks ++ [.wake i]
        delivered := s.delivered ++ [.wake i] }

def setOp (i : Nat) (op : Operation) : RunLoop := { s with ops := s.ops.set i op }

/-- The finish of an operation after the exchange. -/
def proceed (i : Nat) (op : Operation) (notifier : List Bool) (spawns : Bool) :
    Option RunLoop :=
  match op.phase with
  | .pending | .unwound | .finished => none
  | .storing => some (s.setOp i { op with phase := .queueing, stored := true })
  | .queueing =>
      if op.onOwner then
        some ((s.queueLocally i op.wakeClass).setOp i { op with phase := .finishing })
      else if s.phase.holdsLock then none
      else
        let (shared, outcome) := s.shared.enqueueInternalWake (.wake i) notifier spawns
        some ({ s with shared }.setOp i { op with
          phase := match outcome with
            | .panicked => .unwound
            | _ => .finishing })
  | .finishing =>
      some ({ s with shared := { s.shared with pendingOps := s.shared.pendingOps - 1 } }.setOp i
        { op with phase := .finished })

/-- One action; `none` when it is not possible. -/
def step : Action → Option RunLoop
  | .enter =>
      if s.phase = .outside ∧ s.shared.closed = false then some s.nextTurn else none
  | .pump pump => if s.phase = .outside then some (s.pump pump) else none
  | .turn => s.turn
  | .effect effect => if s.phase.runsCode then some (s.effect effect) else none
  | .finish i onOwner =>
      match s.ops[i]? with
      | none => none
      | some op =>
          if op.phase = .pending ∧ s.mayStep onOwner = true then
            some (s.setOp i { op with
              onOwner, phase := if op.interested then .storing else .finishing })
          else none
  | .proceed i notifier spawns =>
      match s.ops[i]? with
      | none => none
      | some op => if s.mayStep op.onOwner then s.proceed i op notifier spawns else none
  | .drop i =>
      match s.ops[i]? with
      | none => none
      | some op => some (s.setOp i { op with interested := false })
  | .release i onOwner =>
      match s.ops[i]? with
      | none => none
      | some op =>
          if op.phase = .pending ∧ s.mayStep onOwner = true then
            some (s.setOp i { op with onOwner, phase := .finishing })
          else none
  | .remoteWake notifier spawns =>
      if s.phase.holdsLock then none
      else some { s with shared := (s.shared.enqueueInternalWake .other notifier spawns).1 }
  | .remoteTask notifier =>
      if s.phase.holdsLock then none
      else some { s with shared := (s.shared.enqueueMacro .other notifier).1 }
  | .childFinishes child => some { s with children := s.children.set child true }
  | .tearDown =>
      if s.phase = .outside then
        some { s with
          shared := s.shared.close.1
          localMicrotasks := []
          localMacrotasks := []
          phase := .tornDown }
      else none

def init (capacity : Nat) (worker : Bool) : RunLoop :=
  { shared := { capacity }, worker }

def Reachable (capacity : Nat) (worker : Bool) : RunLoop → Prop :=
  Transition.Reachable step (fun _ _ => True) (init capacity worker)

/-! ## What a step can do -/

variable {s} {s' : RunLoop}

/-- The ways through `proceed`. -/
inductive Proceeded (s : RunLoop) (i : Nat) (op : Operation) : RunLoop → Prop
  | stores : op.phase = .storing →
      Proceeded s i op (s.setOp i { op with phase := .queueing, stored := true })
  | queuesLocally : op.phase = .queueing → op.onOwner = true →
      Proceeded s i op
        ((s.queueLocally i op.wakeClass).setOp i { op with phase := .finishing })
  | queues (notifier : List Bool) (spawns : Bool) {phase : OpPhase} :
      op.phase = .queueing → s.phase.holdsLock = false →
      phase = .unwound ∨ phase = .finishing →
      Proceeded s i op
        ({ s with shared := (s.shared.enqueueInternalWake (.wake i) notifier spawns).1 }.setOp i
          { op with phase })
  | finishes : op.phase = .finishing →
      Proceeded s i op
        ({ s with shared := { s.shared with pendingOps := s.shared.pendingOps - 1 } }.setOp i
          { op with phase := .finished })

theorem proceeded_of_proceed {i : Nat} {op : Operation} {notifier : List Bool} {spawns : Bool}
    (hproceed : s.proceed i op notifier spawns = some s') : Proceeded s i op s' := by
  unfold proceed at hproceed
  split at hproceed
  next => cases hproceed
  next => cases hproceed
  next => cases hproceed
  next hphase =>
    cases hproceed
    exact .stores hphase
  next hphase =>
    split at hproceed
    next howner =>
      cases hproceed
      exact .queuesLocally hphase howner
    next =>
      obtain ⟨hlock, heq⟩ := Option.ite_none_left_eq_some.mp hproceed
      cases heq
      refine .queues notifier spawns hphase (by simpa using hlock) ?_
      split
      · exact .inl rfl
      · exact .inr rfl
  next hphase =>
    cases hproceed
    exact .finishes hphase

inductive Stepped (s : RunLoop) : RunLoop → Prop
  | enter : s.phase = .outside → s.shared.closed = false → Stepped s s.nextTurn
  | pump (pump : Pump) : s.phase = .outside → Stepped s (s.pump pump)
  | turn {s' : RunLoop} : s.turn = some s' → Stepped s s'
  | effect (effect : Effect) : s.phase.runsCode = true → Stepped s (s.effect effect)
  | finish {i : Nat} {op : Operation} (onOwner : Bool) {phase : OpPhase} :
      s.ops[i]? = some op → op.phase = .pending → phase = .storing ∨ phase = .finishing →
      Stepped s (s.setOp i { op with onOwner, phase })
  | proceed {i : Nat} {op : Operation} {s' : RunLoop} : s.ops[i]? = some op →
      s.mayStep op.onOwner = true → Proceeded s i op s' → Stepped s s'
  | drop {i : Nat} {op : Operation} : s.ops[i]? = some op →
      Stepped s (s.setOp i { op with interested := false })
  | remoteWake (notifier : List Bool) (spawns : Bool) : s.phase.holdsLock = false →
      Stepped s { s with shared := (s.shared.enqueueInternalWake .other notifier spawns).1 }
  | remoteTask (notifier : List Bool) : s.phase.holdsLock = false →
      Stepped s { s with shared := (s.shared.enqueueMacro .other notifier).1 }
  | childFinishes (child : Nat) : Stepped s { s with children := s.children.set child true }
  | tearDown : s.phase = .outside → Stepped s
      { s with
        shared := s.shared.close.1
        localMicrotasks := []
        localMacrotasks := []
        phase := .tornDown }

theorem stepped_of_step {action : Action} (hstep : s.step action = some s') : Stepped s s' := by
  cases action with
  | enter =>
      obtain ⟨⟨hphase, hopen⟩, heq⟩ := Option.ite_none_right_eq_some.mp hstep
      cases heq
      exact .enter hphase hopen
  | pump pump =>
      obtain ⟨hphase, heq⟩ := Option.ite_none_right_eq_some.mp hstep
      cases heq
      exact .pump pump hphase
  | turn => exact .turn hstep
  | effect effect =>
      obtain ⟨hruns, heq⟩ := Option.ite_none_right_eq_some.mp hstep
      cases heq
      exact .effect effect hruns
  | finish i onOwner =>
      simp only [step] at hstep
      split at hstep
      next => cases hstep
      next op hop =>
        obtain ⟨⟨hpending, -⟩, heq⟩ := Option.ite_none_right_eq_some.mp hstep
        cases heq
        refine .finish onOwner hop hpending ?_
        split
        · exact .inl rfl
        · exact .inr rfl
  | proceed i notifier spawns =>
      simp only [step] at hstep
      split at hstep
      next => cases hstep
      next op hop =>
        obtain ⟨hmay, hproceed⟩ := Option.ite_none_right_eq_some.mp hstep
        exact .proceed hop hmay (proceeded_of_proceed hproceed)
  | drop i =>
      simp only [step] at hstep
      split at hstep
      next => cases hstep
      next op hop =>
        cases hstep
        exact .drop hop
  | release i onOwner =>
      simp only [step] at hstep
      split at hstep
      next => cases hstep
      next op hop =>
        obtain ⟨⟨hpending, -⟩, heq⟩ := Option.ite_none_right_eq_some.mp hstep
        cases heq
        exact .finish onOwner hop hpending (.inr rfl)
  | remoteWake notifier spawns =>
      obtain ⟨hlock, heq⟩ := Option.ite_none_left_eq_some.mp hstep
      cases heq
      exact .remoteWake notifier spawns (by simpa using hlock)
  | remoteTask notifier =>
      obtain ⟨hlock, heq⟩ := Option.ite_none_left_eq_some.mp hstep
      cases heq
      exact .remoteTask notifier (by simpa using hlock)
  | childFinishes child =>
      cases hstep
      exact .childFinishes child
  | tearDown =>
      obtain ⟨hphase, heq⟩ := Option.ite_none_right_eq_some.mp hstep
      cases heq
      exact .tearDown hphase

end RunLoop

end Runite.Runtime
