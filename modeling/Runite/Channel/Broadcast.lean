import Runite.Channel.MpscSystem
import Runite.Lib.SwapRemove

/-!
# Broadcast channels

`channel::broadcast`: senders push into a bounded ring, and every receiver reads it from a
position of its own.  A receiver that waits is sent the outcome for its position with its
completion.

Sequence numbers are natural numbers, for fewer than 2^64 messages.  An `expect` that fails
sets `panicked`.
-/

namespace Runite.Channel.Broadcast

open Mpsc (Cell)
open SwapRemove

variable {α : Type}

/-! ## The ring -/

structure Slot (α : Type) where
  seq : Nat
  value : α
  deriving DecidableEq, Repr

/-- `RecvWaiter`.  Completion handles are numbers. -/
structure RecvWaiter where
  id : Nat
  nextSeq : Nat
  handle : Nat
  deriving DecidableEq, Repr

inductive RecvOutcome (α : Type)
  | value (value : α) (nextSeq : Nat)
  | lagged (skipped nextSeq : Nat)
  | closed
  deriving DecidableEq, Repr

/-- `State`.  `next_seq` and `next_waiter_id` do not wrap, which is the same for the
first 2^64 values and waiters of a channel. -/
structure State (α : Type) where
  buffer : List (Slot α) := []
  capacity : Nat
  nextSeq : Nat := 0
  senderCount : Nat := 1
  receiverCount : Nat := 1
  recvWaiters : List RecvWaiter := []
  nextWaiterId : Nat := 1
  deriving DecidableEq, Repr

namespace State

variable (s : State α)

def oldestSeq : Nat := s.buffer.head?.elim s.nextSeq Slot.seq

/-- `recv_outcome` finds no slot where one should be. -/
def recvPanics (nextSeq : Nat) : Bool :=
  s.oldestSeq ≤ nextSeq && nextSeq < s.nextSeq && s.buffer[nextSeq - s.oldestSeq]?.isNone

def recvOutcome (nextSeq : Nat) : Option (RecvOutcome α) :=
  if nextSeq < s.oldestSeq then some (.lagged (s.oldestSeq - nextSeq) s.oldestSeq)
  else if nextSeq < s.nextSeq then
    s.buffer[nextSeq - s.oldestSeq]?.map fun slot => .value slot.value (slot.seq + 1)
  else if s.senderCount = 0 then some .closed
  else none

def pushValue (value : α) : State α :=
  { s with
    buffer := (if s.buffer.length = s.capacity then s.buffer.tail else s.buffer) ++
      [{ seq := s.nextSeq, value }]
    nextSeq := s.nextSeq + 1 }

def enqueueWaiter (nextSeq handle : Nat) : State α :=
  { s with
    recvWaiters := s.recvWaiters ++ [{ id := s.nextWaiterId, nextSeq, handle }]
    nextWaiterId := s.nextWaiterId + 1 }

def removeWaiter (waiterId : Nat) : State α :=
  match s.recvWaiters.findIdx? (·.id == waiterId) with
  | some index => { s with recvWaiters := swapRemove s.recvWaiters index }
  | none => s

/-- The waiters that `wake_ready_receivers` takes out, with their outcomes, and the others. -/
def readyReceivers : List (RecvWaiter × RecvOutcome α) × List RecvWaiter :=
  takeReady (fun w => s.recvOutcome w.nextSeq) s.recvWaiters

/-- `wake_ready_receivers`: the completions that it collects. -/
def wakes : List (Nat × RecvOutcome α) :=
  s.readyReceivers.1.map fun p => (p.1.handle, p.2)

def wakeReadyReceivers : State α := { s with recvWaiters := s.readyReceivers.2 }

/-- `wake_ready_receivers` looks at every waiter. -/
def wakePanics : Bool := s.recvWaiters.any fun w => s.recvPanics w.nextSeq

end State

/-! ## The channel and its users -/

/-- A `CompletionFuture` of a receiver; the cancel callback of a published one knows the
waiter. -/
structure Wait where
  handle : Nat
  waiterId : Option Nat
  deriving DecidableEq, Repr

inductive ReceiverPhase
  | live
  /-- its count was given back, and its fields are to be dropped -/
  | dropping
  /-- its wait is dropped, and the cancel callback has yet to take the lock -/
  | cancelling (handle waiterId : Nat)
  | dropped
  deriving DecidableEq, Repr

/-- What `recv` has returned. -/
inductive Delivery (α : Type)
  | value (value : α)
  | lagged (skipped : Nat)
  deriving DecidableEq, Repr

/-- `Receiver`.  The rest is history: the position it has subscribed at, and what `recv`
has returned since, in order. -/
structure Receiver (α : Type) where
  nextSeq : Nat
  wait : Option Wait := none
  phase : ReceiverPhase := .live
  start : Nat
  got : List (Delivery α) := []
  deriving DecidableEq, Repr

/-- A channel with its users.  `senders` is the number of `Sender`s alive, `firing` are
completions that were collected and are to be fired, and `sent` is history: the messages
that were pushed. -/
structure System (α : Type) where
  state : State α
  senders : Nat := 1
  receivers : List (Receiver α) := [{ nextSeq := 0, start := 0 }]
  cells : Nat → Cell (RecvOutcome α) := fun _ => {}
  nextCell : Nat := 0
  firing : List (Nat × RecvOutcome α) := []
  panicked : Bool := false
  sent : List α := []

/-- `channel`, which checks the capacity. -/
def System.channel (capacity : Nat) : Option (System α) :=
  if 0 < capacity then some { state := { capacity } } else none

/-- One critical section, or one step outside of the lock. -/
inductive Action (α : Type)
  | send (value : α)
  | fire (index : Nat)
  | cloneSender
  | dropSender
  | subscribe
  | resubscribe (index : Nat)
  | dropReceiver (index : Nat)
  /-- `wait` is dropped -/
  | release (index : Nat)
  /-- the cancel callback of a dropped `wait` -/
  | cancelWait (index : Nat)
  /-- a turn of `poll_recv`: it polls `wait`, or it registers -/
  | pollRecv (index : Nat)
  deriving DecidableEq, Repr

inductive Reply (α : Type)
  | none
  | sent (result : Except α Nat)
  | received (delivery : Delivery α)
  | closed
  deriving DecidableEq, Repr

namespace System

variable (s : System α)

/-! ## Senders -/

/-- The critical section of `send`. -/
def send (value : α) : System α × Reply α :=
  if s.state.receiverCount = 0 then (s, .sent (.error value))
  else
    ({ s with
        state := (s.state.pushValue value).wakeReadyReceivers
        firing := s.firing ++ (s.state.pushValue value).wakes
        panicked := s.panicked || (s.state.pushValue value).wakePanics
        sent := s.sent ++ [value] }, .sent (.ok s.state.receiverCount))

def fire (index : Nat) : Option (System α) :=
  s.firing[index]?.map fun (handle, outcome) =>
    { s with
      cells := Function.update s.cells handle ((s.cells handle).complete outcome)
      firing := s.firing.eraseIdx index }

/-- The state without one of its senders. -/
def lessSender : State α := { s.state with senderCount := s.state.senderCount - 1 }

def dropSender : System α :=
  -- `checked_sub(1).expect("sender count underflow: ...")`
  if s.state.senderCount = 0 then { s with panicked := true }
  else if s.lessSender.senderCount = 0 then
    { s with
      state := s.lessSender.wakeReadyReceivers
      senders := s.senders - 1
      firing := s.firing ++ s.lessSender.wakes
      panicked := s.panicked || s.lessSender.wakePanics }
  else { s with state := s.lessSender, senders := s.senders - 1 }

/-! ## Receivers -/

/-- `subscribe` and `resubscribe`. -/
def subscribe : System α :=
  { s with
    state := { s.state with receiverCount := s.state.receiverCount + 1 }
    receivers := s.receivers ++ [{ nextSeq := s.state.nextSeq, start := s.state.nextSeq }] }

def setReceiver (index : Nat) (receiver : Receiver α) : System α :=
  { s with receivers := s.receivers.set index receiver }

/-- The critical section of the drop of a receiver. -/
def dropReceiver (index : Nat) (receiver : Receiver α) : System α :=
  -- `checked_sub(1).expect("receiver count underflow: ...")`
  if s.state.receiverCount = 0 then { s with panicked := true }
  else
    { s.setReceiver index { receiver with phase := .dropping } with
      state := { s.state with receiverCount := s.state.receiverCount - 1 } }

/-- Where the drop of `wait` leads: there is a cancel callback to run when the waiter was
published and is not finished. -/
def releasePhase (wait : Wait) : ReceiverPhase :=
  match (s.cells wait.handle).finished, wait.waiterId with
  | false, some waiterId => .cancelling wait.handle waiterId
  | _, _ => .dropped

/-- The drop of `wait`, up to its cancel callback. -/
def release (index : Nat) (receiver : Receiver α) : System α :=
  match receiver.wait with
  | none => s.setReceiver index { receiver with phase := .dropped }
  | some wait =>
      { s.setReceiver index { receiver with wait := none, phase := s.releasePhase wait } with
        cells := Function.update s.cells wait.handle (s.cells wait.handle).abandon }

def cancelWait (index : Nat) (receiver : Receiver α) (handle waiterId : Nat) : System α :=
  { s.setReceiver index { receiver with phase := .dropped } with
    state := s.state.removeWaiter waiterId
    cells := Function.update s.cells handle (s.cells handle).cancel }

/-- `apply_outcome`, with what `poll_recv` returns. -/
def applyOutcome (receiver : Receiver α) : RecvOutcome α → Receiver α × Reply α
  | .value value nextSeq =>
      ({ receiver with nextSeq, wait := none, got := receiver.got ++ [.value value] },
        .received (.value value))
  | .lagged skipped nextSeq =>
      ({ receiver with nextSeq, wait := none, got := receiver.got ++ [.lagged skipped] },
        .received (.lagged skipped))
  | .closed => ({ receiver with wait := none }, .closed)

/-- `poll_recv` polls `wait`. -/
def pollWait (index : Nat) (receiver : Receiver α) (wait : Wait) : System α × Reply α :=
  match (s.cells wait.handle).result with
  | none => (s, .none)
  | some outcome =>
      ({ s.setReceiver index (applyOutcome receiver outcome).1 with
          cells := Function.update s.cells wait.handle (s.cells wait.handle).abandon },
        (applyOutcome receiver outcome).2)

/-- The critical section of `poll_recv`.  A completion that was not published is completed
right away. -/
def register (index : Nat) (receiver : Receiver α) : System α :=
  if s.state.recvPanics receiver.nextSeq then { s with panicked := true }
  else
    match s.state.recvOutcome receiver.nextSeq with
    | some outcome =>
        { s.setReceiver index { receiver with wait := some ⟨s.nextCell, none⟩ } with
          cells := Function.update s.cells s.nextCell (({} : Cell _).complete outcome)
          nextCell := s.nextCell + 1 }
    | none =>
        { s.setReceiver index
            { receiver with wait := some ⟨s.nextCell, some s.state.nextWaiterId⟩ } with
          state := s.state.enqueueWaiter receiver.nextSeq s.nextCell
          cells := Function.update s.cells s.nextCell {}
          nextCell := s.nextCell + 1 }

/-- A turn of `poll_recv`. -/
def pollRecv (index : Nat) (receiver : Receiver α) : System α × Reply α :=
  match receiver.wait with
  | some wait => s.pollWait index receiver wait
  | none => (s.register index receiver, .none)

/-! ## Steps -/

/-- An action of a receiver in the given phase. -/
def withReceiver (index : Nat) (phase : ReceiverPhase)
    (f : Receiver α → System α × Reply α) : Option (System α × Reply α) :=
  match s.receivers[index]? with
  | none => none
  | some receiver => if receiver.phase = phase then some (f receiver) else none

/-- One action and what it makes a call return; `none` when it is not possible. -/
def act : Action α → Option (System α × Reply α)
  | .send value => if 0 < s.senders then some (s.send value) else none
  | .fire index => (s.fire index).map (·, .none)
  | .cloneSender =>
      if 0 < s.senders then
        some ({ s with
          state := { s.state with senderCount := s.state.senderCount + 1 }
          senders := s.senders + 1 }, .none)
      else none
  | .dropSender => if 0 < s.senders then some (s.dropSender, .none) else none
  | .subscribe => if 0 < s.senders then some (s.subscribe, .none) else none
  | .resubscribe index => s.withReceiver index .live fun _ => (s.subscribe, .none)
  | .dropReceiver index =>
      s.withReceiver index .live fun receiver => (s.dropReceiver index receiver, .none)
  | .release index =>
      s.withReceiver index .dropping fun receiver => (s.release index receiver, .none)
  | .cancelWait index =>
      match s.receivers[index]? with
      | none => none
      | some receiver =>
          match receiver.phase with
          | .cancelling handle waiterId => some (s.cancelWait index receiver handle waiterId, .none)
          | _ => none
  | .pollRecv index => s.withReceiver index .live fun receiver => s.pollRecv index receiver

def step (s : System α) (a : Action α) : Option (System α) := (s.act a).map Prod.fst

def Reachable (capacity : Nat) (s : System α) : Prop :=
  ∃ s₀, channel capacity = some s₀ ∧ Transition.Reachable step (fun _ _ => True) s₀ s

end System

end Runite.Channel.Broadcast
