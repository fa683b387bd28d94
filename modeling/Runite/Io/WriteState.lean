import Runite.Io.Operation
import Mathlib.Logic.Function.Basic
import Mathlib.Tactic.Simps.Basic

/-!
# The state of a writable resource

`io::pending::WriteState`, method by method, together with the registry of
live tracked writes (`LIVE_WRITE_OPERATIONS`) and the log of the wakes that
its methods perform.

Every started operation is a `Submission` with its own number and the bytes
the factory was called with.  Results carry the submission they come from, so
that a statement can say whose result a caller got; the methods never look at
it.
-/

namespace Runite.Io

/-! ## Data -/

/-- One call of a `start` factory: its number and the bytes it was given. -/
structure Submission where
  id : Nat
  data : List UInt8
  deriving DecidableEq, Repr

/-- The `io::Result<usize>` of an operation, and the operation. -/
structure Completion where
  source : Submission
  result : Except IoError Nat
  deriving DecidableEq

/-- An `io::Error` of an operation, and the operation. -/
structure Failure where
  source : Submission
  error : IoError
  deriving DecidableEq

/-- What a call returns once it is ready, and the operation it reports on. -/
structure Reply (τ : Type) where
  result : Except IoError τ
  source : Option Submission := none
  deriving DecidableEq

def Completion.reply (c : Completion) : Reply Nat := ⟨c.result, some c.source⟩

def Failure.reply {τ : Type} (f : Failure) : Reply τ := ⟨.error f.error, some f.source⟩

inductive WriteKind
  | operation (generation : Generation)
  | buffered
  deriving DecidableEq

/-- The operation of a raw `poll_write`. -/
def WriteKind.isUntracked : WriteKind → Bool
  | .operation g => !isTrackedWrite g
  | .buffered => false

/-- `PendingWrite`.  The identity is "`Some` only for untracked generations;
tracked writes are already unique". -/
structure PendingWrite where
  kind : WriteKind
  identity : Option WriteIdentity
  submission : Submission
  operation : PendingOperation Nat
  identity_isSome : identity.isSome = kind.isUntracked
  deriving DecidableEq

/-- The write has been polled and is still pending. -/
@[simps]
def PendingWrite.await (p : PendingWrite) (waker : Waker) : PendingWrite :=
  { p with operation := p.operation.await waker }

/-- The write has completed and waits to be polled. -/
@[simps]
def PendingWrite.resolve (p : PendingWrite) (result : Except IoError Nat) : PendingWrite :=
  { p with operation := { outcome := some result } }

structure QueuedWrite where
  generation : Generation
  waker : Waker
  deriving DecidableEq, Repr

/-- `WriteState`.  `live` is the registry of tracked generations, with the
cancellation wakers of each; `woken` logs the wakes; `issued`, `started` and
`finished` are the history: the generations ever handed out, the operations
started and the results that polls took out of them. -/
structure WriteState where
  operation : Option PendingWrite := none
  queue : List QueuedWrite := []
  completed : Generation → Option Completion := fun _ => none
  untrackedCompleted : Option (WriteIdentity × Completion) := none
  barrierWaiters : List Waker := []
  bufferedError : Option Failure := none
  shutdown : DirectionShutdown := {}
  live : Generation → Option (List Waker) := fun _ => none
  woken : List Waker := []
  issued : List Generation := []
  started : List (WriteKind × Submission) := []
  finished : List (WriteKind × Completion) := []

namespace WriteState

variable (s : WriteState)

/-! ## The registry of tracked writes -/

def isLiveWrite (generation : Generation) : Bool :=
  !isTrackedWrite generation || (s.live generation).isSome

/-- The registry after `register_write_cancellation_waker`. -/
def registeredCancellation (generation : Generation) (waker : Waker) :
    Generation → Option (List Waker) :=
  if isTrackedWrite generation then
    match s.live generation with
    | none => s.live
    | some waiters => Function.update s.live generation (some (register waiters waker))
  else s.live

/-- `register_write_cancellation_waker`. -/
@[simps]
def registerCancellation (generation : Generation) (waker : Waker) : WriteState :=
  { s with live := s.registeredCancellation generation waker }

@[simps]
def issue (generation : Generation) : WriteState :=
  { s with
    live := Function.update s.live generation (some [])
    issued := s.issued ++ [generation] }

/-- `WriteOperation::new`.  The counter hands out each generation once, so a
new token has a tracked generation that was never issued before. -/
def newToken (generation : Generation) : Option WriteState :=
  if isTrackedWrite generation ∧ generation ∉ s.issued then some (s.issue generation) else none

/-- Remove a registry entry and wake its waiters. -/
@[simps]
def retire (generation : Generation) (waiters : List Waker) : WriteState :=
  { s with
    live := Function.update s.live generation none
    woken := s.woken ++ waiters }

/-- `Drop for WriteOperation`. -/
def dropToken (generation : Generation) : Option WriteState :=
  (s.live generation).map (s.retire generation)

/-! ## Helpers of the methods -/

/-- `Waker::wake_by_ref`. -/
@[simps]
def wake (waker : Waker) : WriteState := { s with woken := s.woken ++ [waker] }

@[simps]
def wakeReadyWaiters : WriteState :=
  { s with
    woken := s.woken ++ (s.queue.head?.map (·.waker)).toList ++ s.barrierWaiters
    barrierWaiters := [] }

def cleanupCancelled : WriteState :=
  let cleaned := { s with
    completed := fun g => if s.isLiveWrite g then s.completed g else none
    queue := s.queue.filter fun q => s.isLiveWrite q.generation }
  if cleaned.queue.length ≠ s.queue.length then cleaned.wakeReadyWaiters else cleaned

/-- The operation in flight is this generation's. -/
def inFlight (generation : Generation) : Bool :=
  s.operation.any fun p => p.kind = .operation generation

/-- Replace the waker of a queued generation. -/
def setWaker (generation : Generation) (waker : Waker) (q : QueuedWrite) : QueuedWrite :=
  if q.generation = generation then { q with waker := waker } else q

/-- The queue after `enqueue_tracked`. -/
def enqueuedTracked (generation : Generation) (waker : Waker) : List QueuedWrite :=
  if !isTrackedWrite generation || !s.isLiveWrite generation then s.queue
  else if s.inFlight generation || (s.completed generation).isSome then s.queue
  else if s.queue.any (·.generation = generation) then
    s.queue.map (setWaker generation waker)
  else s.queue ++ [⟨generation, waker⟩]

@[simps]
def enqueueTracked (generation : Generation) (waker : Waker) : WriteState :=
  { s with queue := s.enqueuedTracked generation waker }

/-- `completed.remove`. -/
@[simps]
def removeCompleted (generation : Generation) : WriteState :=
  { s with completed := Function.update s.completed generation none }

/-- `untracked_completed.take`. -/
@[simps]
def takeUntrackedCompleted : WriteState := { s with untrackedCompleted := none }

/-- `buffered_error.take`. -/
@[simps]
def takeBufferedError : WriteState := { s with bufferedError := none }

/-- The retained untracked completion that `take_untracked_completion` claims. -/
def untrackedCompletion (generation : Generation) (buf : Buf) : Option Completion :=
  if isTrackedWrite generation then none
  else
    match s.untrackedCompleted with
    | some (retained, completion) =>
        if retained = WriteIdentity.of buf then some completion else none
    | none => none

/-- The retained untracked failure that `take_untracked_error` takes. -/
def untrackedError : Option Failure :=
  match s.untrackedCompleted with
  | some (_, ⟨source, .error error⟩) => some ⟨source, error⟩
  | _ => none

def retainCompletion (kind : WriteKind) (identity : Option WriteIdentity) (c : Completion) :
    WriteState :=
  match kind with
  | .operation g =>
      if isTrackedWrite g && s.isLiveWrite g then
        { s with completed := Function.update s.completed g (some c) }
      else
        match identity with
        | some identity => { s with untrackedCompleted := some (identity, c) }
        | none => s
  | .buffered =>
      match c.result with
      | .error error => { s with bufferedError := some ⟨c.source, error⟩ }
      | .ok _ => s

/-- `poll_pending` on an operation that has finished: the slot is emptied and
the waiters of the operation are woken. -/
@[simps]
def finish (p : PendingWrite) (waker : Waker) (result : Except IoError Nat) : WriteState :=
  { s with
    operation := none
    woken := s.woken ++ register p.operation.waiters waker
    finished := s.finished ++ [(p.kind, ⟨p.submission, result⟩)] }

/-- `poll_pending` on an operation that is still pending. -/
@[simps]
def await (p : PendingWrite) (waker : Waker) : WriteState :=
  { s with operation := some (p.await waker) }

/-- `poll_pending`, for the operation `p` in the slot: both callers found one. -/
def pollPending (p : PendingWrite) (waker : Waker) : WriteState × Poll Completion :=
  match p.operation.outcome with
  | some result => (s.finish p waker result, .ready ⟨p.submission, result⟩)
  | none => (s.await p waker, .pending)

/-! ## `poll_write` -/

/-- The submission of the next call of a factory. -/
def submission (buf : Buf) : Submission := ⟨s.started.length, buf.bytes⟩

/-- The operation that `poll_write` puts in the slot. -/
@[simps]
def newWrite (generation : Generation) (buf : Buf) (start : Option (Except IoError Nat)) :
    PendingWrite where
  kind := .operation generation
  identity := if isTrackedWrite generation then none else some (.of buf)
  submission := s.submission buf
  operation := { outcome := start }
  identity_isSome := by
    unfold WriteKind.isUntracked
    split <;> simp_all

/-- Take the front entry off the queue, if there is one, and start the operation. -/
@[simps]
def begin (generation : Generation) (buf : Buf) (start : Option (Except IoError Nat)) :
    WriteState :=
  { s with
    queue := s.queue.tail
    operation := some (s.newWrite generation buf start)
    started := s.started ++ [(.operation generation, s.submission buf)] }

/-- The error of a write that comes after a shutdown request. -/
def shutDownError : IoError := { kind := .brokenPipe, message := "write direction is shut down" }

/-- The error of a poll with the generation of a dropped token. -/
def cancelledError : IoError :=
  { kind := .interrupted, message := "write operation was cancelled" }

/-- The operation in flight belongs to a call with this generation and buffer. -/
def isOwn (p : PendingWrite) (generation : Generation) (buf : Buf) : Bool :=
  p.kind = .operation generation && p.identity.all (· = WriteIdentity.of buf)

/-- The `loop` of `poll_write`.  `start` is the factory, given by the outcome
its future already has, until it is called.  The result is `none` when `fuel`
runs out or when the factory is needed a second time. -/
def pollWriteLoop : Nat → WriteState → Waker → Generation → Buf →
    Option (Option (Except IoError Nat)) → Option (WriteState × Poll (Reply Nat))
  | 0, _, _, _, _, _ => none
  | fuel + 1, s, waker, generation, buf, start =>
      match s.operation with
      | some p =>
          match s.pollPending p waker with
          | (s, .pending) => some (s, .pending)
          | (s, .ready completion) =>
              let s := s.wakeReadyWaiters
              if isOwn p generation buf then some (s, .ready completion.reply)
              else
                let s := s.retainCompletion p.kind p.identity completion
                match s.bufferedError with
                | some failure =>
                    some (s.takeBufferedError, .ready failure.reply)
                | none => pollWriteLoop fuel s waker generation buf start
      | none =>
          let s := s.cleanupCancelled
          match s.completed generation with
          | some completion => some (s.removeCompleted generation, .ready completion.reply)
          | none =>
              match s.queue with
              | front :: _ =>
                  if front.generation ≠ generation then
                    some ((s.wake front.waker).registerCancellation front.generation waker,
                      .pending)
                  else
                    start.bind fun outcome =>
                      pollWriteLoop fuel (s.begin generation buf outcome) waker generation buf
                        none
              | [] =>
                  if isTrackedWrite generation && !s.isLiveWrite generation then
                    some (s, .ready ⟨.error cancelledError, none⟩)
                  else
                    start.bind fun outcome =>
                      pollWriteLoop fuel (s.begin generation buf outcome) waker generation buf
                        none

/-- `known`: the generation has an operation in flight or queued. -/
def known (generation : Generation) : Bool :=
  s.inFlight generation || s.queue.any (·.generation = generation)

/-- `poll_write`.  The loop goes round at most three times: it takes the result
of an operation it does not own, starts its own, and polls that. -/
def pollWrite (waker : Waker) (generation : Generation) (buf : Buf)
    (start : Option (Except IoError Nat)) : Option (WriteState × Poll (Reply Nat)) :=
  if buf.bytes = [] then some (s, .ready ⟨.ok 0, none⟩)
  else
    let s := s.cleanupCancelled
    match s.completed generation with
    | some completion => some (s.removeCompleted generation, .ready completion.reply)
    | none =>
        match s.untrackedCompletion generation buf with
        | some completion =>
            some (s.takeUntrackedCompleted, .ready completion.reply)
        | none =>
            if s.shutdown.requested && !s.known generation then
              some (s, .ready ⟨.error shutDownError, none⟩)
            else
              pollWriteLoop 3 (s.enqueueTracked generation waker) waker generation buf
                (some start)

/-! ## `poll_drain` and the calls that begin with it -/

/-- `barrier_waiters.register`. -/
@[simps]
def registerBarrier (waker : Waker) : WriteState :=
  { s with barrierWaiters := register s.barrierWaiters waker }

/-- The `loop` of `poll_drain`; `none` when `fuel` runs out. -/
def pollDrainLoop : Nat → WriteState → Waker → Option (WriteState × Poll Unit)
  | 0, _, _ => none
  | fuel + 1, s, waker =>
      let s := s.cleanupCancelled
      match s.operation with
      | some p =>
          match s.pollPending p waker with
          | (s, .ready completion) =>
              pollDrainLoop fuel
                (s.retainCompletion p.kind p.identity completion).wakeReadyWaiters waker
          | (s, .pending) => some (s, .pending)
      | none =>
          match s.queue with
          | front :: _ =>
              some ((((s.registerBarrier waker).registerCancellation front.generation
                waker).wake front.waker), .pending)
          | [] => some (s, .ready ())

/-- `poll_drain`.  The loop goes round at most twice. -/
def pollDrain (waker : Waker) : Option (WriteState × Poll Unit) := pollDrainLoop 2 s waker

def pollFlush (waker : Waker) : Option (WriteState × Poll (Reply Unit)) :=
  (s.pollDrain waker).map fun
    | (s, .pending) => (s, .pending)
    | (s, .ready ()) =>
        match s.bufferedError with
        | some failure => (s.takeBufferedError, .ready failure.reply)
        | none =>
            match s.untrackedError with
            | some failure => (s.takeUntrackedCompleted, .ready failure.reply)
            | none => (s, .ready ⟨.ok (), none⟩)

/-- `shutdown.request`. -/
@[simps]
def requestShutdown : WriteState :=
  { s with shutdown := s.shutdown.request }

/-- The end of `poll_shutdown`, after the drain. -/
@[simps]
def driveShutdown (waker : Waker) (start : Option (Except IoError Unit)) :
    WriteState :=
  { s with
    shutdown := (s.shutdown.poll waker start).1
    woken := s.woken ++ (s.shutdown.poll waker start).2.1 }

def pollShutdown (waker : Waker) (start : Option (Except IoError Unit)) :
    Option (WriteState × Poll (Reply Unit)) :=
  (s.requestShutdown.pollDrain waker).map fun
    | (s, .pending) => (s, .pending)
    | (s, .ready ()) =>
        match s.bufferedError with
        | some failure => (s.takeBufferedError, .ready failure.reply)
        | none =>
            (s.driveShutdown waker start,
              (s.shutdown.poll waker start).2.2.map fun result => ⟨result, none⟩)

/-- `start(buf.to_vec())` of `poll_buffered_write`. -/
@[simps]
def submitBuffered (buf : Buf) : WriteState :=
  { s with started := s.started ++ [(.buffered, s.submission buf)] }

/-- The operation of `poll_buffered_write`. -/
@[simps]
def newBuffered (buf : Buf) (start : Option (Except IoError Nat)) : PendingWrite where
  kind := .buffered
  identity := none
  submission := s.submission buf
  operation := { outcome := start }
  identity_isSome := rfl

/-- The end of `poll_buffered_write`, after the drain: start the operation,
poll it once outside the slot and keep it only if it is pending. -/
def beginBuffered (waker : Waker) (buf : Buf) (start : Option (Except IoError Nat)) :
    WriteState × Poll (Reply Nat) :=
  match (s.submitBuffered buf).pollPending (s.newBuffered buf start) waker with
  | (s, .ready ⟨_, .ok _⟩) => (s, .ready ⟨.ok buf.bytes.length, none⟩)
  | (s, .ready ⟨source, .error error⟩) => (s, .ready (Failure.reply ⟨source, error⟩))
  | (s, .pending) => (s, .ready ⟨.ok buf.bytes.length, none⟩)

def pollBufferedWrite (waker : Waker) (buf : Buf) (start : Option (Except IoError Nat)) :
    Option (WriteState × Poll (Reply Nat)) :=
  if buf.bytes = [] then some (s, .ready ⟨.ok 0, none⟩)
  else if s.shutdown.requested then some (s, .ready ⟨.error shutDownError, none⟩)
  else
    (s.pollDrain waker).map fun
      | (s, .pending) => (s, .pending)
      | (s, .ready ()) =>
          match s.bufferedError with
          | some failure => (s.takeBufferedError, .ready failure.reply)
          | none => s.beginBuffered waker buf start

/-! ## Completions -/

/-- The future of the operation `p` completes, and its broadcast waker wakes
everyone who polled it. -/
@[simps]
def resolve (p : PendingWrite) (result : Except IoError Nat) : WriteState :=
  { s with
    operation := some (p.resolve result)
    woken := s.woken ++ p.operation.waiters }

def complete (result : Except IoError Nat) : Option WriteState :=
  match s.operation with
  | none => none
  | some p =>
      match p.operation.outcome with
      | some _ => none
      | none => some (s.resolve p result)

/-- The future of the shutdown completes. -/
@[simps]
def resolveShutdown (operation : PendingOperation Unit) (result : Except IoError Unit) :
    WriteState :=
  { s with
    shutdown := { s.shutdown with operation := some { outcome := some result } }
    woken := s.woken ++ operation.waiters }

def completeShutdown (result : Except IoError Unit) : Option WriteState :=
  match s.shutdown.operation with
  | none => none
  | some operation =>
      match operation.outcome with
      | some _ => none
      | none => some (s.resolveShutdown operation result)

end WriteState

end Runite.Io
