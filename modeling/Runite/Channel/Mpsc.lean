import Mathlib.Data.List.Basic
import Mathlib.Logic.Function.Basic
import Mathlib.Tactic.Simps.Basic

/-!
# The state of an mpsc channel

`channel::mpsc::State` and its methods.  A method runs inside one critical
section of the channel's mutex and never wakes anyone there: it collects
`PendingCompletion`s, which its caller fires after the mutex is released.

Completion handles are numbers: the handle of a sender's completion is the
index of its `send` future, and the receiver numbers its own completions.
-/

namespace Runite.Channel.Mpsc

variable {α : Type}

inductive TrySendError (α : Type)
  | full (value : α)
  | closed (value : α)
  deriving DecidableEq, Repr

inductive TryRecvError
  | empty
  | disconnected
  deriving DecidableEq, Repr

structure SendWaiter (α : Type) where
  id : Nat
  value : α
  handle : Nat
  deriving DecidableEq, Repr

/-- `PendingCompletion`: "a wakeup deferred until the channel mutex has been
released". -/
inductive PendingCompletion (α : Type)
  | recvReady (handle : Nat)
  | sendOk (handle : Nat)
  | sendErr (handle : Nat) (value : α)
  deriving DecidableEq, Repr

/-- `State`.  `next_waiter_id` wraps at the width of a `usize`; here it does
not, which is the same for the first 2^64 waiters of a channel. -/
structure State (α : Type) where
  queue : List α := []
  capacity : Option Nat
  senderCount : Nat := 1
  receiverClosed : Bool := false
  recvWaiter : Option Nat := none
  sendWaiters : List (SendWaiter α) := []
  nextWaiterId : Nat := 1
  deriving DecidableEq, Repr

namespace State

variable (s : State α)

/-- `capacity.is_none_or(|capacity| queue.len() < capacity)`. -/
def hasCapacity : Bool :=
  match s.capacity with
  | none => true
  | some capacity => s.queue.length < capacity

/-! ## Helpers -/

/-- `recv_waiter.take()`. -/
@[simps]
def takeRecvWaiter : State α := { s with recvWaiter := none }

/-- What `wake_receiver` collects. -/
def recvCompletion : List (PendingCompletion α) :=
  s.recvWaiter.toList.map .recvReady

def wakeReceiver : State α × List (PendingCompletion α) := (s.takeRecvWaiter, s.recvCompletion)

/-- `queue.push_back`. -/
@[simps]
def push (value : α) : State α := { s with queue := s.queue ++ [value] }

/-- What `fail_pending_senders` collects. -/
def sendErrors : List (PendingCompletion α) :=
  s.sendWaiters.map fun waiter => .sendErr waiter.handle waiter.value

/-- `send_waiters` after `fail_pending_senders`. -/
@[simps]
def clearWaiters : State α := { s with sendWaiters := [] }

def failPendingSenders : State α × List (PendingCompletion α) := (s.clearWaiters, s.sendErrors)

/-! ## The methods -/

def trySendNow (value : α) :
    State α × List (PendingCompletion α) × Except (TrySendError α) Unit :=
  if s.receiverClosed then (s, [], .error (.closed value))
  else if !s.hasCapacity then (s, [], .error (.full value))
  else
    let (s, completions) := (s.push value).wakeReceiver
    (s, completions, .ok ())

/-- `allocate_send_waiter_id` and `publish_send_waiter`, one after the other. -/
@[simps]
def publishSendWaiter (value : α) (handle : Nat) : State α :=
  { s with
    sendWaiters := s.sendWaiters ++ [⟨s.nextWaiterId, value, handle⟩]
    nextWaiterId := s.nextWaiterId + 1 }

/-- `remove_send_waiter`: the state, and the waiter that was removed. -/
def removeSendWaiter (waiterId : Nat) : State α × Option (SendWaiter α) :=
  ({ s with sendWaiters := s.sendWaiters.eraseP (·.id = waiterId) },
    s.sendWaiters.find? (·.id = waiterId))

/-- The `loop` of `pump_senders`, over the waiters that are left. -/
def pumpLoop : State α → List (SendWaiter α) → State α × List (PendingCompletion α)
  | s, [] => (s.clearWaiters, [])
  | s, waiter :: waiters =>
      if s.receiverClosed then
        ({ s with sendWaiters := waiter :: waiters } : State α).failPendingSenders
      else if !s.hasCapacity then ({ s with sendWaiters := waiter :: waiters }, [])
      else
        let (s, ready) := (s.push waiter.value).wakeReceiver
        let (s, completions) := pumpLoop s waiters
        (s, ready ++ .sendOk waiter.handle :: completions)

def pumpSenders : State α × List (PendingCompletion α) :=
  let (s, completions) := pumpLoop s s.sendWaiters
  if s.queue = [] ∧ s.senderCount = 0 then
    let (s, ready) := s.wakeReceiver
    (s, completions ++ ready)
  else (s, completions)

def closeReceiver : State α × List (PendingCompletion α) :=
  let (s, errors) := ({ s with receiverClosed := true } : State α).failPendingSenders
  let (s, ready) := s.wakeReceiver
  (s, errors ++ ready)

/-- `drop_sender`, of a channel whose count is not zero. -/
def dropSender : State α × List (PendingCompletion α) :=
  let s := { s with senderCount := s.senderCount - 1 }
  if s.senderCount = 0 ∧ s.queue = [] then s.wakeReceiver else (s, [])

/-- The critical section of `try_recv`, and the first one of `poll_recv`. -/
def recvSection : State α × List (PendingCompletion α) × Except TryRecvError α :=
  match s.queue with
  | value :: queue =>
      let (s, completions) := ({ s with queue } : State α).pumpSenders
      (s, completions, .ok value)
  | [] =>
      if s.senderCount = 0 ∨ s.receiverClosed then (s, [], .error .disconnected)
      else (s, [], .error .empty)

/-! ## What a critical section can do -/

variable {s}

/-- The ways through `try_send_now`. -/
inductive TriedSend (s : State α) (value : α) :
    State α → List (PendingCompletion α) → Except (TrySendError α) Unit → Prop
  | closed : s.receiverClosed = true → TriedSend s value s [] (.error (.closed value))
  | full : s.receiverClosed = false → s.hasCapacity = false →
      TriedSend s value s [] (.error (.full value))
  | ok : s.receiverClosed = false → s.hasCapacity = true →
      TriedSend s value (s.push value).takeRecvWaiter s.recvCompletion (.ok ())

theorem triedSend (s : State α) (value : α) : TriedSend s value (s.trySendNow value).1
    (s.trySendNow value).2.1 (s.trySendNow value).2.2 := by
  unfold trySendNow
  by_cases hclosed : s.receiverClosed = true
  · simpa [hclosed] using .closed hclosed
  · replace hclosed : s.receiverClosed = false := by simpa using hclosed
    by_cases hcapacity : s.hasCapacity = true
    · simpa [hclosed, hcapacity] using .ok hclosed hcapacity
    · replace hcapacity : s.hasCapacity = false := by simpa using hcapacity
      simpa [hclosed, hcapacity] using .full hclosed hcapacity

/-- The waiters `moved` are promoted to the queue, and `rest` is left. -/
@[simps]
def promote (s : State α) (moved rest : List (SendWaiter α)) : State α :=
  { s with
    queue := s.queue ++ moved.map (·.value)
    sendWaiters := rest
    recvWaiter := if moved = [] then s.recvWaiter else none }

/-- What `pump_senders` collects for the waiters it promotes. -/
def promotions (s : State α) (moved : List (SendWaiter α)) : List (PendingCompletion α) :=
  (if moved = [] then [] else s.recvCompletion) ++ moved.map fun waiter => .sendOk waiter.handle

/-- An open channel promotes waiters from the front while there is room. -/
theorem exists_promote (s : State α) (waiters : List (SendWaiter α))
    (hopen : s.receiverClosed = false) : ∃ moved rest, waiters = moved ++ rest ∧
      pumpLoop s waiters = (s.promote moved rest, s.promotions moved) ∧
      (rest ≠ [] → (s.promote moved rest).hasCapacity = false) ∧
      (moved ≠ [] → ∀ c, s.capacity = some c → s.queue.length + moved.length ≤ c) := by
  induction waiters generalizing s with
  | nil => exact ⟨[], [], by simp [pumpLoop, promote, promotions, clearWaiters]⟩
  | cons waiter waiters ih =>
      unfold pumpLoop
      by_cases hcapacity : s.hasCapacity = true
      · obtain ⟨moved, rest, hsplit, hloop, hrest, hroom⟩ :=
          ih (s.push waiter.value).takeRecvWaiter hopen
        refine ⟨waiter :: moved, rest, by simp [hsplit], ?_, ?_, ?_⟩
        · simp only [hopen, hcapacity, wakeReceiver, hloop]
          simp [promote, promotions, recvCompletion]
        · simpa [hasCapacity] using hrest
        · intro _ c hc
          by_cases hmoved : moved = []
          · simp only [hasCapacity, hc, decide_eq_true_eq] at hcapacity
            simp [hmoved]
            omega
          · have hlen := hroom hmoved c hc
            simp only [takeRecvWaiter_queue, push_queue, List.length_append, List.length_cons,
              List.length_nil] at hlen ⊢
            omega
      · replace hcapacity : s.hasCapacity = false := by simpa using hcapacity
        refine ⟨[], waiter :: waiters, rfl, ?_, ?_, by simp⟩
        · simp [hopen, hcapacity, promote, promotions]
        · intro _
          simpa [hasCapacity] using hcapacity

end State

end Runite.Channel.Mpsc
