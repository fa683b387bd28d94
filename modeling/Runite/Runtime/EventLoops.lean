import Runite.Lib.Stuttering
import Runite.Lib.Chronicle
import Runite.Task

/-!
# The four event loops

`run`, `run_until_stalled`, `run_ready_tasks` and `block_on` on a thread whose
closures queue microtasks and macrotasks.  Nothing outside the thread happens: the
driver has no event, no child exits, and there are no timers, tasks or operations, so
of a `drain_all` only the queue of the other threads is left, and that is empty.

`next` is the order in which the closures are to run; each loop takes its steps.
The firewall around a closure drops the payload of a panic where nothing catches the
panic of a destructor: that panic leaves the loop.
-/

namespace Runite.Runtime

inductive QueueKind
  | microtask
  | macrotask
  deriving DecidableEq, Repr

/-- What a closure does when it runs: it changes the state of the program, queues
closures in this order, and may wake the waker of `block_on` and panic.  Where it
panics the effects are those of the closure and of the destructor of the payload. -/
structure Effects (κ σ : Type) where
  state : σ
  queued : List (QueueKind × κ) := []
  wakes : Bool := false
  panic : Option Payload := none

/-- The panic of the closure is followed by one of its payload's destructor. -/
def Effects.unwinds {κ σ : Type} (effects : Effects κ σ) : Bool :=
  (effects.panic.bind Payload.drop).isSome

/-- The closures of a program, over the state that they share. -/
abbrev Program (κ σ : Type) := κ → σ → Effects κ σ

/-- History: a closure was queued, or was started. -/
inductive Event (κ : Type)
  | queued (kind : QueueKind) (task : κ)
  | started (kind : QueueKind) (task : κ)
  deriving DecidableEq, Repr

/-- The queues of a thread with the state of the program.  `errors` counts the
panics that the firewall has reported; `unwinding` is set when a panic leaves the
firewall. -/
structure LoopThread (κ σ : Type) where
  state : σ
  localMicrotasks : List κ := []
  localMacrotasks : List κ := []
  remoteMacrotasks : List κ := []
  errors : Nat := 0
  unwinding : Bool := false
  events : List (Event κ) := []

namespace LoopThread

variable {κ σ : Type} (t : LoopThread κ σ)

/-- `queue_microtask` and `queue_task`. -/
def queue (kind : QueueKind) (task : κ) : LoopThread κ σ :=
  match kind with
  | .microtask =>
      { t with
        localMicrotasks := t.localMicrotasks ++ [task]
        events := t.events ++ [.queued .microtask task] }
  | .macrotask =>
      { t with
        localMacrotasks := t.localMacrotasks ++ [task]
        events := t.events ++ [.queued .macrotask task] }

def queueAll (tasks : List (QueueKind × κ)) : LoopThread κ σ :=
  tasks.foldl (fun t (kind, task) => t.queue kind task) t

/-- A thread that has queued these closures before it enters a loop. -/
def start (state : σ) (tasks : List (QueueKind × κ)) : LoopThread κ σ :=
  queueAll { state } tasks

/-- `run_guarded`: a panic is reported and goes no further.  Its payload is dropped
after that, outside of the catch. -/
def runGuarded (effects : Effects κ σ) (kind : QueueKind) (task : κ) : LoopThread κ σ :=
  let started : LoopThread κ σ :=
    { t with state := effects.state, events := t.events ++ [.started kind task] }
  let t := started.queueAll effects.queued
  match effects.panic with
  | none => t
  | some payload => { t with errors := t.errors + 1, unwinding := payload.drop.isSome }

def popMicrotask : Option (κ × LoopThread κ σ) :=
  match t.localMicrotasks with
  | task :: rest => some (task, { t with localMicrotasks := rest })
  | [] => none

def popMacrotask : Option (κ × LoopThread κ σ) :=
  match t.localMacrotasks with
  | task :: rest => some (task, { t with localMacrotasks := rest })
  | [] => none

def drainRemoteTasks : LoopThread κ σ :=
  { t with
    localMacrotasks := t.localMacrotasks ++ t.remoteMacrotasks
    remoteMacrotasks := [] }

def drainAll : LoopThread κ σ := t.drainRemoteTasks

def hasReadyWork : Bool :=
  !t.localMicrotasks.isEmpty || !t.localMacrotasks.isEmpty || !t.remoteMacrotasks.isEmpty

/-- The closure that is to run next: a microtask if there is one.  The thread is the
one without it. -/
def front : Option (QueueKind × κ × LoopThread κ σ) :=
  match t.popMicrotask with
  | some (task, t) => some (.microtask, task, t)
  | none => t.popMacrotask.map fun (task, t) => (.macrotask, task, t)

/-- The front closure runs, unless a panic has left the loop. -/
def next (p : Program κ σ) : Option (LoopThread κ σ) :=
  if t.unwinding then none
  else t.front.map fun (kind, task, t) => t.runGuarded (p task t.state) kind task

end LoopThread

/-- The future of a `block_on`, over its own state and that of the program: whether a
poll is ready. -/
abbrev BlockOnFuture (φ σ : Type) := φ → σ → φ × Bool

inductive TurnPhase
  /-- `block_on`: the poll of the future -/
  | poll
  | drainFirst
  | drainMicrotasks
  | popMacrotask
  | drainSecond
  | readySecond
  | drainThird
  | readyThird
  /-- `busy` and `commit_idle` -/
  | commit
  /-- `block_on`: waits for an event from outside -/
  | parked
  | returned
  /-- a panic has left the loop -/
  | unwound
  deriving DecidableEq, Repr

inductive EventLoop
  | run
  | runUntilStalled
  | runReadyTasks
  | blockOn
  deriving DecidableEq, Repr

/-- A thread in one of the loops; `woken` and the future are those of `block_on`. -/
structure LoopState (κ σ φ : Type) where
  thread : LoopThread κ σ
  phase : TurnPhase
  woken : Bool := true
  future : φ

namespace LoopState

variable {κ σ φ : Type} (p : Program κ σ) (poll : BlockOnFuture φ σ) (l : LoopState κ σ φ)

/-- A closure runs, with its wake of the waker, and the loop goes on if it returns
from the firewall. -/
def execute (kind : QueueKind) (task : κ) (t : LoopThread κ σ) (phase : TurnPhase) :
    LoopState κ σ φ :=
  let effects := p task t.state
  let thread := t.runGuarded effects kind task
  { l with
    thread
    phase := if thread.unwinding then .unwound else phase
    woken := l.woken || effects.wakes }

/-- `drain_microtasks`, which all loops call: one microtask, or its end. -/
def drainMicrotasks : LoopState κ σ φ :=
  match l.thread.popMicrotask with
  | some (task, t) => l.execute p .microtask task t .drainMicrotasks
  | none => { l with phase := .popMacrotask }

/-- A step of `run`. -/
def stepRun : Option (LoopState κ σ φ) :=
  match l.phase with
  | .drainFirst => some { l with thread := l.thread.drainAll, phase := .drainMicrotasks }
  | .drainMicrotasks => some (l.drainMicrotasks p)
  | .popMacrotask =>
      match l.thread.popMacrotask with
      | some (task, t) => some (l.execute p .macrotask task t .drainFirst)
      | none => some { l with phase := .drainSecond }
  | .drainSecond => some { l with thread := l.thread.drainAll, phase := .readySecond }
  | .readySecond =>
      if l.thread.hasReadyWork then some { l with phase := .drainFirst }
      else some { l with phase := .drainThird }
  | .drainThird => some { l with thread := l.thread.drainAll, phase := .readyThird }
  | .readyThird =>
      if l.thread.hasReadyWork then some { l with phase := .drainFirst }
      else some { l with phase := .commit }
  | .commit =>
      if l.thread.remoteMacrotasks.isEmpty then some { l with phase := .returned }
      else some { l with phase := .drainFirst }
  | _ => none

/-- A step of `run_until_stalled`. -/
def stepRunUntilStalled : Option (LoopState κ σ φ) :=
  match l.phase with
  | .drainFirst => some { l with thread := l.thread.drainAll, phase := .drainMicrotasks }
  | .drainMicrotasks => some (l.drainMicrotasks p)
  | .popMacrotask =>
      match l.thread.popMacrotask with
      | some (task, t) => some (l.execute p .macrotask task t .drainFirst)
      | none => some { l with phase := .drainSecond }
  | .drainSecond => some { l with thread := l.thread.drainAll, phase := .readySecond }
  | .readySecond =>
      if l.thread.hasReadyWork then some { l with phase := .drainFirst }
      else some { l with phase := .returned }
  | _ => none

/-- A step of `run_ready_tasks`, which leaves the driver alone. -/
def stepRunReadyTasks : Option (LoopState κ σ φ) :=
  match l.phase with
  | .drainFirst => some { l with thread := l.thread.drainRemoteTasks, phase := .drainMicrotasks }
  | .drainMicrotasks => some (l.drainMicrotasks p)
  | .popMacrotask =>
      match l.thread.popMacrotask with
      | some (task, t) => some (l.execute p .macrotask task t .drainFirst)
      | none => some { l with phase := .drainSecond }
  | .drainSecond => some { l with thread := l.thread.drainRemoteTasks, phase := .readySecond }
  | .readySecond =>
      if l.thread.hasReadyWork then some { l with phase := .drainFirst }
      else some { l with phase := .returned }
  | _ => none

/-- A step of `block_on`. -/
def stepBlockOn : Option (LoopState κ σ φ) :=
  match l.phase with
  | .poll =>
      if l.woken then
        match poll l.future l.thread.state with
        | (future, true) => some { l with woken := false, future, phase := .returned }
        | (future, false) => some { l with woken := false, future, phase := .drainFirst }
      else some { l with phase := .drainFirst }
  | .drainFirst => some { l with thread := l.thread.drainAll, phase := .drainMicrotasks }
  | .drainMicrotasks => some (l.drainMicrotasks p)
  | .popMacrotask =>
      match l.thread.popMacrotask with
      | some (task, t) => some (l.execute p .macrotask task t .poll)
      | none => some { l with phase := .drainSecond }
  | .drainSecond => some { l with thread := l.thread.drainAll, phase := .readySecond }
  | .readySecond =>
      if l.woken || l.thread.hasReadyWork then some { l with phase := .poll }
      else some { l with phase := .parked }
  | _ => none

end LoopState

namespace EventLoop

variable {κ σ φ : Type}

def step (p : Program κ σ) (poll : BlockOnFuture φ σ) :
    EventLoop → LoopState κ σ φ → Option (LoopState κ σ φ)
  | .run, l => l.stepRun p
  | .runUntilStalled, l => l.stepRunUntilStalled p
  | .runReadyTasks, l => l.stepRunReadyTasks p
  | .blockOn, l => l.stepBlockOn p poll

def first : EventLoop → TurnPhase
  | .blockOn => .poll
  | .run | .runUntilStalled | .runReadyTasks => .drainFirst

def enter (e : EventLoop) (thread : LoopThread κ σ) (future : φ) : LoopState κ σ φ :=
  { thread, phase := e.first, future }

end EventLoop

end Runite.Runtime
