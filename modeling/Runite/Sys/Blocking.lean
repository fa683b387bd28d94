import Runite.Io.Operation
import Runite.Lib.Transition

/-!
# The blocking pool and the operations that await its jobs

`sys::blocking`, `offload` of `sys::linux::net` and of `stdio`, and
`task::spawn_blocking`.  A call of `finish` and the drop of a future are single
steps here.

The destructor of the payload of a panic, or of a value that nobody takes, may
itself panic.
-/

namespace Runite.Sys

open Runite.Io

/-! ## Jobs -/

/-- What a job returns; `drop` is the panic that dropping it raises. -/
structure Value where
  id : Nat
  drop : Option Payload := none
  deriving DecidableEq, Repr

inductive JobEnd
  | value (value : Value)
  | panic (payload : Payload)
  deriving DecidableEq, Repr

inductive Offloader
  /-- `offload` of `sys::linux::net` -/
  | net
  /-- `offload` of `stdio` -/
  | stdio
  /-- `task::spawn_blocking`, through `spawn_blocking_owned` -/
  | task
  deriving DecidableEq, Repr

/-- What the awaiting future resolves with. -/
inductive Outcome
  | value (value : Value)
  | error (error : IoError)
  /-- `JoinError::Panicked` -/
  | panicked
  /-- `JoinError::Cancelled` -/
  | cancelled
  deriving DecidableEq, Repr

inductive Stage
  | queued
  /-- a worker runs the job's work -/
  | working
  /-- the work has ended, and a worker is about to complete the job -/
  | completing
  /-- the closure is gone -/
  | ended
  | refused
  deriving DecidableEq, Repr

/-- An operation that awaits a job.  `completed` says whether `finished` was
exchanged, where the operation has a completion.  The last four fields are
history: what the future was given, whether the work was run, and the calls of
`begin_async_operation` and `finish_async_operation`. -/
structure Offload where
  offloader : Offloader
  job : JobEnd
  stage : Stage := .queued
  alive : Bool := true
  completed : Bool := false
  outcomes : List Outcome := []
  ran : Bool := false
  begun : Nat
  finished : Nat := 0
  deriving DecidableEq, Repr

namespace Offload

variable (op : Offload)

/-- `finish_async_operation` -/
def finishAsync : Offload := { op with finished := op.finished + 1 }

/-- `handle.complete(result)`, with the panic of a result that nobody takes:
it is dropped when `finish` returns. -/
def complete (outcome : Outcome) (drop : Option Payload) : Offload × Option Payload :=
  if op.completed then (op, drop)
  else ({ op with completed := true, outcomes := op.outcomes ++ [outcome] }.finishAsync, none)

/-- `sender.send(result)` of the oneshot channel. -/
def send (outcome : Outcome) (drop : Option Payload) : Offload × Option Payload :=
  if op.alive then ({ op with outcomes := op.outcomes ++ [outcome] }, none) else (op, drop)

/-- The sender is dropped without a result. -/
def closeSender : Offload :=
  if op.alive then { op with outcomes := op.outcomes ++ [.cancelled] } else op

/-- "blocking standard I/O task panicked" -/
def stdioPanicked : IoError := { kind := .other 0, message := "blocking standard I/O task panicked" }

/-- The rest of the closure once the work has ended, and the panic that it
leaves to `worker_loop`. -/
def runToEnd : Offload × Option Payload :=
  match op.offloader, op.job with
  -- `handle_for_task.complete(task())`
  | .net, .value v => op.complete (.value v) v.drop
  | .net, .panic p => (op, some p)
  -- `complete(outcome)`, then `liveness.finish()`, then the panic is resumed
  | .stdio, .value v =>
      let (op, panic) := op.complete (.value v) v.drop
      (op.finishAsync, panic)
  | .stdio, .panic p =>
      match p.drop with
      | none =>
          let (op, panic) := op.complete (.error stdioPanicked) none
          (op.finishAsync, panic)
      | some panic => (op.finishAsync, some panic)
  | .task, .value v =>
      let (op, panic) := op.send (.value v) v.drop
      (op.finishAsync, panic)
  | .task, .panic p =>
      match p.drop with
      | none =>
          let (op, panic) := op.send .panicked none
          (op.finishAsync, panic)
      | some panic => (op.closeSender.finishAsync, some panic)

/-- The pool refuses the job: its liveness is released when the closure is
dropped, and the caller completes the operation with the refusal. -/
def refuse (error : IoError) : Offload :=
  let op := { op with stage := .refused }
  match op.offloader with
  | .net => (op.complete (.error error) none).1
  | .stdio => (op.finishAsync.complete (.error error) none).1
  | .task => { op with outcomes := op.outcomes ++ [Outcome.error error] }.finishAsync

/-- The closure is dropped without having been run. -/
def abandon : Offload :=
  let op := { op with stage := .ended }
  match op.offloader with
  | .net => op
  | .stdio => op.finishAsync
  | .task => op.finishAsync.closeSender

/-- The future is dropped.  A completion without a cancel callback finishes the
operation. -/
def dropFuture : Offload :=
  let op := { op with alive := false }
  match op.offloader with
  | .task => op
  | _ => if op.completed then op else { op with completed := true }.finishAsync

end Offload

/-- The calls of `begin_async_operation`: for the completion, and for the
liveness of an owned job. -/
def Offloader.begins : Offloader → Nat
  | .net => 1
  | .stdio => 2
  | .task => 1

/-! ## The pool -/

def queueCapacity : Nat := 1024

def queueFull : IoError :=
  { kind := .wouldBlock, message := "runite blocking worker queue is full" }

def poolStopped : IoError :=
  { kind := .brokenPipe, message := "runite blocking worker pool has stopped" }

inductive Worker
  | idle
  | busy (op : Nat)
  /-- a panic unwound out of `worker_loop` -/
  | dead
  deriving DecidableEq, Repr

/-- The pool and the operations that await its jobs.  `createError` is the error with
which the pool could not be created; it has no workers then. -/
structure Pool where
  workers : List Worker
  createError : Option IoError := none
  queue : List Nat := []
  ops : List Offload := []
  deriving DecidableEq

namespace Pool

inductive Action
  /-- an operation begins and submits its job -/
  | submit (offloader : Offloader) (job : JobEnd)
  /-- a worker receives a job -/
  | receive (worker : Nat)
  /-- the work of a worker's job ends -/
  | work (worker : Nat)
  /-- the worker runs the rest of the closure -/
  | complete (worker : Nat)
  | dropFuture (op : Nat)
  deriving DecidableEq, Repr

variable (s : Pool)

/-- `pool()?.spawn(task)` -/
def spawn : Option IoError :=
  match s.createError with
  | some error => some error
  | none =>
      if s.workers.all (· = .dead) then some poolStopped
      else if queueCapacity ≤ s.queue.length then some queueFull
      else none

def submit (offloader : Offloader) (job : JobEnd) : Pool :=
  let op : Offload := { offloader, job, begun := offloader.begins }
  match s.spawn with
  | some error => { s with ops := s.ops ++ [op.refuse error] }
  | none => { s with ops := s.ops ++ [op], queue := s.queue ++ [s.ops.length] }

def setWorker (w : Nat) (worker : Worker) : Pool :=
  { s with workers := s.workers.set w worker }

def setOp (i : Nat) (op : Offload) : Pool := { s with ops := s.ops.set i op }

/-- The operation whose job the worker has. -/
def jobOf (w : Nat) : Option (Nat × Offload) :=
  match s.workers[w]? with
  | some (.busy i) => (s.ops[i]?).map fun op => (i, op)
  | _ => none

/-- The catch in `worker_loop`: the payload is dropped outside of it. -/
def afterJob : Option Payload → Worker
  | none => .idle
  | some payload => if payload.drop.isSome then .dead else .idle

/-- When the last worker is dead, the receiver is dropped with the jobs in the queue. -/
def dropReceiver : Pool :=
  if s.workers.all (· = .dead) then
    { s with
      queue := []
      ops := s.ops.map fun op => if op.stage = .queued then op.abandon else op }
  else s

/-- One action; `none` when it is not possible. -/
def step : Action → Option Pool
  | .submit offloader job => some (s.submit offloader job)
  | .receive w =>
      match s.workers[w]?, s.queue with
      | some .idle, i :: rest =>
          (s.ops[i]?).map fun op =>
            ({ s with queue := rest }.setWorker w (.busy i)).setOp i
              { op with stage := .working, ran := true }
      | _, _ => none
  | .work w =>
      match s.jobOf w with
      | none => none
      | some (i, op) =>
          if op.stage = .working then some (s.setOp i { op with stage := .completing }) else none
  | .complete w =>
      match s.jobOf w with
      | none => none
      | some (i, op) =>
          if op.stage = .completing then
            let (op, panic) := op.runToEnd
            some ((s.setOp i { op with stage := .ended }).setWorker w (afterJob panic)).dropReceiver
          else none
  | .dropFuture i =>
      match s.ops[i]? with
      | none => none
      | some op => if op.alive then some (s.setOp i op.dropFuture) else none

/-- A pool with `workers + 1` threads, or one that could not be created. -/
def init : Except IoError Nat → Pool
  | .ok workers => { workers := List.replicate (workers + 1) .idle }
  | .error error => { workers := [], createError := some error }

/-! ## What a step can do -/

inductive Stepped (s : Pool) : Action → Pool → Prop
  | refused (offloader : Offloader) (job : JobEnd) {error : IoError} : s.spawn = some error →
      Stepped s (.submit offloader job)
        { s with ops := s.ops ++ [Offload.refuse { offloader, job, begun := offloader.begins } error] }
  | accepted (offloader : Offloader) (job : JobEnd) : s.spawn = none →
      Stepped s (.submit offloader job)
        { s with
          ops := s.ops ++ [{ offloader, job, begun := offloader.begins }]
          queue := s.queue ++ [s.ops.length] }
  | receive {w i : Nat} {rest : List Nat} {op : Offload} : s.workers[w]? = some .idle →
      s.queue = i :: rest → s.ops[i]? = some op →
      Stepped s (.receive w)
        (({ s with queue := rest }.setWorker w (.busy i)).setOp i
          { op with stage := .working, ran := true })
  | work {w i : Nat} {op : Offload} : s.workers[w]? = some (.busy i) → s.ops[i]? = some op →
      op.stage = .working → Stepped s (.work w) (s.setOp i { op with stage := .completing })
  | complete {w i : Nat} {op : Offload} : s.workers[w]? = some (.busy i) →
      s.ops[i]? = some op → op.stage = .completing →
      Stepped s (.complete w)
        ((s.setOp i { op.runToEnd.1 with stage := .ended }).setWorker w
          (afterJob op.runToEnd.2)).dropReceiver
  | dropFuture {i : Nat} {op : Offload} : s.ops[i]? = some op → op.alive = true →
      Stepped s (.dropFuture i) (s.setOp i op.dropFuture)

variable {s} {s' : Pool}

theorem jobOf_eq_some {w i : Nat} {op : Offload} :
    s.jobOf w = some (i, op) ↔ s.workers[w]? = some (.busy i) ∧ s.ops[i]? = some op := by
  unfold jobOf
  split
  next j hworker =>
    simp only [hworker, Option.map_eq_some_iff, Prod.mk.injEq, Option.some.injEq,
      Worker.busy.injEq]
    constructor
    · rintro ⟨op', hop, rfl, rfl⟩
      exact ⟨rfl, hop⟩
    · rintro ⟨rfl, hop⟩
      exact ⟨op, hop, rfl, rfl⟩
  next hworker =>
    constructor
    · intro h
      cases h
    · rintro ⟨hbusy, -⟩
      exact absurd hbusy (hworker i)

theorem stepped_of_step {action : Action} (hstep : s.step action = some s') :
    Stepped s action s' := by
  cases action with
  | submit offloader job =>
      cases hstep
      unfold submit
      cases hspawn : s.spawn with
      | none => exact .accepted offloader job hspawn
      | some error => exact .refused offloader job hspawn
  | receive w =>
      simp only [step] at hstep
      split at hstep
      next i rest hidle hqueue =>
        obtain ⟨op, hop, heq⟩ := Option.map_eq_some_iff.mp hstep
        cases heq
        exact .receive hidle hqueue hop
      next => cases hstep
  | work w =>
      simp only [step] at hstep
      split at hstep
      next => cases hstep
      next i op hjob =>
        obtain ⟨hbusy, hop⟩ := jobOf_eq_some.mp hjob
        obtain ⟨hstage, heq⟩ := Option.ite_none_right_eq_some.mp hstep
        cases heq
        exact .work hbusy hop hstage
  | complete w =>
      simp only [step] at hstep
      split at hstep
      next => cases hstep
      next i op hjob =>
        obtain ⟨hbusy, hop⟩ := jobOf_eq_some.mp hjob
        obtain ⟨hstage, heq⟩ := Option.ite_none_right_eq_some.mp hstep
        cases heq
        exact .complete hbusy hop hstage
  | dropFuture i =>
      simp only [step] at hstep
      split at hstep
      next => cases hstep
      next op hop =>
        obtain ⟨halive, heq⟩ := Option.ite_none_right_eq_some.mp hstep
        cases heq
        exact .dropFuture hop halive

end Pool

end Runite.Sys
