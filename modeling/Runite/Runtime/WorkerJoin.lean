import Runite.Lib.Transition
import Runite.Lib.Table
import Mathlib.Logic.Function.Basic

/-!
# Joining a worker

`WorkerCompletion` and the futures of `WorkerHandle::join`, with the worker thread
that records its outcome, the reaper that publishes it, and any number of joiners on
any threads.  A section under the lock is one step; between two sections the others
go on.
-/

namespace Runite.Runtime

inductive WorkerJoinError
  | setupPanicked
  | runtimePanicked
  deriving DecidableEq, Repr

/-- `Result<(), WorkerJoinError>`. -/
abbrev WorkerOutcome := Except WorkerJoinError Unit

/-- What a poll of a join future has answered; the last is the panic of an `expect`. -/
inductive JoinAnswer
  | pending
  | ready (outcome : WorkerOutcome)
  | panics

/-- Where a `WorkerJoin` is in a call. -/
inductive JoinerPhase (ω : Type)
  | idle
  /-- in `poll`, before the lock -/
  | polling (waker : ω)
  /-- in `drop`, before `remove_waiter` -/
  | removing
  /-- in `liveness.clear()`, at the end of a poll or of `drop` -/
  | clearing (dropping : Bool)
  | dropped

/-- `WorkerJoin`.  `waiterActive` names the liveness token by the id that it was made
with, and `current` is the thread of the call.  The last two fields are history: the
answer of the last poll and the waker of the last one that was pending. -/
structure WorkerJoin (ω : Type) where
  waiterId : Option Nat := none
  waiterActive : Option Nat := none
  liveness : List Nat := []
  phase : JoinerPhase ω := .idle
  current : Option Nat := none
  answer : Option JoinAnswer := none
  waker : Option ω := none

/-- The reaper: joins the thread, wakes the waiters that it has taken one after the
other, and notifies the parent. -/
inductive ReaperPhase (ω : Type)
  | joining
  | waking (rest : List (Nat × ω))
  | done

/-- `WorkerCompletion`, its joiners and the threads they are polled on.  `pendingOps`
counts the operations that join futures hold on a thread, and `wakerPanics` the panics of
wakers that were reported.  The last fields are history: the wakers that were woken with
the ids of their waiters, the threads notified, and the operations begun and finished, by
joiner and thread. -/
structure WorkerCompletion (ω : Type) where
  parent : Nat := 0
  finished : Bool := false
  workerOutcome : Option WorkerOutcome := none
  outcome : Option WorkerOutcome := none
  nextWaiterId : Nat := 1
  waiters : List (Nat × ω) := []
  active : Nat → Bool := fun _ => false
  joiners : List (WorkerJoin ω) := []
  reaper : ReaperPhase ω := .joining
  pendingOps : Nat → Nat := fun _ => 0
  wakerPanics : Nat := 0
  woken : List (Nat × ω) := []
  notified : List Nat := []
  begun : List (Nat × Nat) := []
  ended : List (Nat × Nat) := []

namespace WorkerCompletion

variable {ω : Type} (s : WorkerCompletion ω)

/-! ## The map of waiters -/

/-- `BTreeMap::remove`. -/
def removeWaiter (id : Nat) (waiters : List (Nat × ω)) : List (Nat × ω) :=
  waiters.filter fun entry => entry.1 ≠ id

/-- `BTreeMap::insert`. -/
def insertWaiter (id : Nat) (waker : ω) (waiters : List (Nat × ω)) : List (Nat × ω) :=
  let others := removeWaiter id waiters
  others.takeWhile (·.1 < id) ++ (id, waker) :: others.dropWhile (·.1 < id)

/-- The token of a waiter, if there is one, is set to false. -/
def deactivate (token : Option Nat) (active : Nat → Bool) : Nat → Bool :=
  match token with
  | some token => Function.update active token false
  | none => active

/-- `remove_waiter`, if there is an id. -/
def removeIfSome (id : Option Nat) (waiters : List (Nat × ω)) : List (Nat × ω) :=
  match id with
  | some id => removeWaiter id waiters
  | none => waiters

/-! ## Steps -/

def recordWorkerOutcome (outcome : WorkerOutcome) : WorkerCompletion ω :=
  { s with workerOutcome := some outcome }

/-- `publish_after_join`, up to the end of the section. -/
def publishAfterJoin (threadPanicked : Bool) : WorkerCompletion ω :=
  let outcome : WorkerOutcome :=
    if threadPanicked then .error .runtimePanicked
    else s.workerOutcome.getD (.error .runtimePanicked)
  { s with
    workerOutcome := if threadPanicked then s.workerOutcome else none
    outcome := some outcome
    finished := true
    waiters := []
    reaper := .waking s.waiters }

/-- One turn of `wake_worker_joiners`, and the notification after the last.  Where the
waker panics, the panic is caught and reported, and the turn ends as any other; its
payload has a destructor that does not panic. -/
def wakeNext (panics : Bool) : Option (WorkerCompletion ω) :=
  match s.reaper with
  | .waking ((id, waker) :: rest) =>
      if s.active id then
        some { s with
          active := Function.update s.active id false
          woken := s.woken ++ [(id, waker)]
          wakerPanics := s.wakerPanics + panics.toNat
          reaper := .waking rest }
      else some { s with reaper := .waking rest }
  | .waking [] => some { s with reaper := .done, notified := s.notified ++ [s.parent] }
  | _ => none

/-- `begin_async_operation`, for the join future. -/
def beginAsyncOperation (joiner thread : Nat) : WorkerCompletion ω :=
  { s with
    pendingOps := Function.update s.pendingOps thread (s.pendingOps thread + 1)
    begun := s.begun ++ [(joiner, thread)] }

def finishAsyncOperation (joiner thread : Nat) (current : Option Nat) : WorkerCompletion ω :=
  { s with
    pendingOps := Function.update s.pendingOps thread (s.pendingOps thread - 1)
    ended := s.ended ++ [(joiner, thread)]
    notified := if current = some thread then s.notified else s.notified ++ [thread] }

def setJoiner (joiner : Nat) (j : WorkerJoin ω) : WorkerCompletion ω :=
  { s with joiners := s.joiners.set joiner j }

/-- `WorkerJoin::poll` up to the lock. -/
def poll (joiner : Nat) (j : WorkerJoin ω) (current : Option Nat) (waker : ω) :
    WorkerCompletion ω :=
  match current with
  | some thread =>
      if thread ∈ j.liveness then s.setJoiner joiner { j with current, phase := .polling waker }
      else
        (s.beginAsyncOperation joiner thread).setJoiner joiner
          { j with current, phase := .polling waker, liveness := j.liveness ++ [thread] }
  | none => s.setJoiner joiner { j with current, phase := .polling waker }

def pollJoin (joiner : Nat) (j : WorkerJoin ω) (waker : ω) : WorkerCompletion ω :=
  match s.outcome with
  | some outcome =>
      { s with
        active := deactivate j.waiterActive s.active
        waiters := removeIfSome j.waiterId s.waiters }.setJoiner joiner
        { j with
          waiterActive := none
          waiterId := none
          phase := .clearing false
          answer := some (.ready outcome)
          waker := none }
  | none =>
      match j.waiterId with
      | none =>
          let id := s.nextWaiterId
          { s with
            nextWaiterId := id + 1
            active := Function.update s.active id true
            waiters := insertWaiter id waker s.waiters }.setJoiner joiner
            { j with
              waiterId := some id
              waiterActive := some id
              phase := .idle
              answer := some .pending
              waker := some waker }
      | some id =>
          match j.waiterActive with
          | none => s.setJoiner joiner { j with phase := .idle, answer := some .panics }
          | some _ =>
              { s with waiters := insertWaiter id waker s.waiters }.setJoiner joiner
                { j with phase := .idle, answer := some .pending, waker := some waker }

/-- `Drop` of a `WorkerJoin`, up to `remove_waiter`. -/
def drop (joiner : Nat) (j : WorkerJoin ω) (current : Option Nat) : WorkerCompletion ω :=
  { s with active := deactivate j.waiterActive s.active }.setJoiner joiner
    { j with current, waiterActive := none, phase := .removing }

/-- `remove_waiter`, in `drop`. -/
def remove (joiner : Nat) (j : WorkerJoin ω) : WorkerCompletion ω :=
  { s with waiters := removeIfSome j.waiterId s.waiters }.setJoiner joiner
    { j with waiterId := none, phase := .clearing true }

/-- One turn of `liveness.clear()`. -/
def clearNext (joiner : Nat) (j : WorkerJoin ω) (dropping : Bool) : WorkerCompletion ω :=
  match j.liveness with
  | thread :: rest =>
      (s.finishAsyncOperation joiner thread j.current).setJoiner joiner { j with liveness := rest }
  | [] => s.setJoiner joiner { j with phase := if dropping then .dropped else .idle }

inductive Action (ω : Type)
  /-- `WorkerHandle::join` -/
  | join
  | poll (joiner : Nat) (current : Option Nat) (waker : ω)
  | drop (joiner : Nat) (current : Option Nat)
  /-- the next section of the call that the joiner is in -/
  | joinerStep (joiner : Nat)
  | record (outcome : WorkerOutcome)
  /-- the thread has exited, and its reaper joins it -/
  | publish (threadPanicked : Bool)
  | wakeNext (panics : Bool)

variable {s}

/-- The next section of the call that the joiner is in. -/
def joinerStep (s : WorkerCompletion ω) (joiner : Nat) (j : WorkerJoin ω) :
    Option (WorkerCompletion ω) :=
  match j.phase with
  | .polling waker => some (s.pollJoin joiner j waker)
  | .removing => some (s.remove joiner j)
  | .clearing dropping => some (s.clearNext joiner j dropping)
  | .idle | .dropped => none

def step (s : WorkerCompletion ω) : Action ω → Option (WorkerCompletion ω)
  | .join => some { s with joiners := s.joiners ++ [{}] }
  | .poll joiner current waker =>
      s.joiners[joiner]?.bind fun j =>
        match j.phase with
        | .idle => some (s.poll joiner j current waker)
        | _ => none
  | .drop joiner current =>
      s.joiners[joiner]?.bind fun j =>
        match j.phase with
        | .idle => some (s.drop joiner j current)
        | _ => none
  | .joinerStep joiner => s.joiners[joiner]?.bind (s.joinerStep joiner ·)
  | .record outcome =>
      match s.reaper, s.workerOutcome with
      | .joining, none => some (s.recordWorkerOutcome outcome)
      | _, _ => none
  | .publish threadPanicked =>
      match s.reaper with
      | .joining => some (s.publishAfterJoin threadPanicked)
      | _ => none
  | .wakeNext panics => s.wakeNext panics

/-- The states of every run of a worker's joiners. -/
def Reachable (s : WorkerCompletion ω) : Prop :=
  ∃ parent, Transition.Reachable step (fun _ _ => True) { parent } s

end WorkerCompletion

end Runite.Runtime
