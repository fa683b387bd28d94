import Runite.Channel.MpscSystem
import Runite.Lib.SwapRemove

/-!
# Watch channels

`channel::watch`: any number of senders that replace one value, and receivers that wait for
a version newer than the one they have seen.

An update is several steps of its sender: the version goes up under the value lock, the
waiters are collected under the lock of the book, the version is read once more, and the
completions are fired.  Versions are natural numbers, for fewer than 2^64 updates.
-/

namespace Runite.Channel.Watch

open Mpsc (Cell)
open SwapRemove

variable {α : Type}

/-! ## The book -/

inductive RecvError
  | closed
  deriving DecidableEq, Repr

/-- `WatchWaiter`.  Completion handles are numbers. -/
structure Waiter where
  id : Nat
  version : Nat
  handle : Nat
  deriving DecidableEq, Repr

/-- `Book`.  `next_waiter_id` does not wrap, which is the same for the first 2^64
waiters of a channel. -/
structure Book where
  senderCount : Nat := 1
  receiverCount : Nat := 1
  waiters : List Waiter := []
  nextWaiterId : Nat := 1
  deriving DecidableEq, Repr

namespace Book

variable (b : Book)

/-- `allocate_waiter_id` and `publish_waiter`. -/
def publishWaiter (version handle : Nat) : Book :=
  { b with
    waiters := b.waiters ++ [{ id := b.nextWaiterId, version, handle }]
    nextWaiterId := b.nextWaiterId + 1 }

def removeWaiter (waiterId : Nat) : Book :=
  match b.waiters.findIdx? (·.id == waiterId) with
  | some index => { b with waiters := swapRemove b.waiters index }
  | none => b

/-- The waiters that are woken for a version. -/
def behind (currentVersion : Nat) (w : Waiter) : Option Unit :=
  if w.version < currentVersion then some () else none

/-- `wake_changed`: the book, and the handles that are to be completed. -/
def wakeChanged (currentVersion : Nat) : Book × List Nat :=
  let (ready, waiters) := takeReady (behind currentVersion) b.waiters
  ({ b with waiters }, ready.map fun p => p.1.handle)

/-- `close_sender`, without its check. -/
def closeSender : Book × List Nat :=
  if b.senderCount - 1 = 0 then
    ({ b with senderCount := b.senderCount - 1, waiters := [] }, b.waiters.map Waiter.handle)
  else ({ b with senderCount := b.senderCount - 1 }, [])

end Book

/-! ## The channel and its users -/

/-- A `CompletionFuture` of a receiver; the cancel callback of a published one knows the
waiter. -/
structure Wait where
  handle : Nat
  waiterId : Option Nat
  deriving DecidableEq, Repr

inductive ReceiverPhase
  | live
  /-- its count was given back, and its fields are to be dropped -/
  | dropping
  /-- its wait is dropped, and the cancel callback has yet to take the lock -/
  | cancelling (handle waiterId : Nat)
  | dropped
  deriving DecidableEq, Repr

structure Receiver where
  version : Nat
  wait : Option Wait := none
  phase : ReceiverPhase := .live
  deriving DecidableEq, Repr

/-- A channel with its users.  `senders` is the number of `Sender`s alive.  Of the updates
that have raised the version, `waking` are those that have yet to collect waiters, and
`loading` has the handles that the others have collected, while they have yet to read the
version; `firing` are completions that are to be fired. -/
structure System (α : Type) where
  value : α
  version : Nat := 0
  book : Book := {}
  senders : Nat := 1
  receivers : List Receiver := [{ version := 0 }]
  cells : Nat → Cell (Except RecvError Nat) := fun _ => {}
  nextCell : Nat := 0
  waking : List Nat := []
  loading : List (List Nat) := []
  firing : List (Nat × Except RecvError Nat) := []
  panicked : Bool := false

/-- One critical section, or one step outside of the locks.  The value that a closure leaves
in the slot is given. -/
inductive Action (α : Type)
  | send (value : α)
  | sendModify (value : α)
  | sendIfModified (value : α) (modified : Bool)
  /-- an update collects waiters -/
  | wake (index : Nat)
  /-- an update reads the version, in `complete_changed` -/
  | load (index : Nat)
  | fire (index : Nat)
  | cloneSender
  | dropSender
  | subscribe
  | cloneReceiver (index : Nat)
  | dropReceiver (index : Nat)
  /-- `wait` is dropped -/
  | release (index : Nat)
  /-- the cancel callback of a dropped `wait` -/
  | cancelWait (index : Nat)
  /-- a turn of `poll_changed`: it polls `wait`, or it publishes a waiter -/
  | pollChanged (index : Nat)
  | borrowAndUpdate (index : Nat)

inductive Reply (α : Type)
  | none
  | sent (result : Except α Unit)
  | changed (result : Except RecvError Unit)
  deriving DecidableEq

namespace System

variable (s : System α)

/-! ## Senders -/

/-- The version goes up under the value lock; the caller is to collect waiters. -/
def bump (value : α) : System α :=
  { s with value, version := s.version + 1, waking := s.waking ++ [s.version + 1] }

/-- `send`, while it has both locks. -/
def send (value : α) : System α × Reply α :=
  if s.book.receiverCount = 0 then (s, .sent (.error value))
  else (s.bump value, .sent (.ok ()))

/-- `send_if_modified`, while it has the value lock.  The closure has the slot, whatever it
returns. -/
def sendIfModified (value : α) (modified : Bool) : System α :=
  if modified then s.bump value else { s with value }

/-- `wake_changed` of an update. -/
def wake (index : Nat) : Option (System α) :=
  s.waking[index]?.map fun version =>
    { s with
      book := (s.book.wakeChanged version).1
      waking := s.waking.eraseIdx index
      loading := s.loading ++ [(s.book.wakeChanged version).2] }

/-- `complete_changed` reads the version. -/
def load (index : Nat) : Option (System α) :=
  s.loading[index]?.map fun handles =>
    { s with
      loading := s.loading.eraseIdx index
      firing := s.firing ++ handles.map (·, .ok s.version) }

def fire (index : Nat) : Option (System α) :=
  s.firing[index]?.map fun (handle, result) =>
    { s with
      cells := Function.update s.cells handle ((s.cells handle).complete result)
      firing := s.firing.eraseIdx index }

def dropSender : System α :=
  -- `checked_sub(1).expect("sender count underflow: ...")`
  if s.book.senderCount = 0 then { s with panicked := true }
  else
    { s with
      book := s.book.closeSender.1
      senders := s.senders - 1
      firing := s.firing ++ s.book.closeSender.2.map (·, .error .closed) }

/-! ## Receivers -/

def addReceiver (version : Nat) : System α :=
  { s with
    book := { s.book with receiverCount := s.book.receiverCount + 1 }
    receivers := s.receivers ++ [{ version }] }

def setReceiver (index : Nat) (receiver : Receiver) : System α :=
  { s with receivers := s.receivers.set index receiver }

/-- The critical section of the drop of a receiver. -/
def dropReceiver (index : Nat) (receiver : Receiver) : System α :=
  -- `checked_sub(1).expect("receiver count underflow: ...")`
  if s.book.receiverCount = 0 then { s with panicked := true }
  else
    { s.setReceiver index { receiver with phase := .dropping } with
      book := { s.book with receiverCount := s.book.receiverCount - 1 } }

/-- The drop of `wait`, up to its cancel callback: there is one to run when the waiter was
published and is not finished. -/
def release (index : Nat) (receiver : Receiver) : System α :=
  match receiver.wait with
  | none => s.setReceiver index { receiver with phase := .dropped }
  | some wait =>
      let phase : ReceiverPhase :=
        match (s.cells wait.handle).finished, wait.waiterId with
        | false, some waiterId => .cancelling wait.handle waiterId
        | _, _ => .dropped
      { s.setReceiver index { receiver with wait := none, phase } with
        cells := Function.update s.cells wait.handle (s.cells wait.handle).abandon }

def cancelWait (index : Nat) (receiver : Receiver) (handle waiterId : Nat) : System α :=
  { s.setReceiver index { receiver with phase := .dropped } with
    book := s.book.removeWaiter waiterId
    cells := Function.update s.cells handle (s.cells handle).cancel }

/-- `poll_changed` polls `wait`. -/
def pollWait (index : Nat) (receiver : Receiver) (wait : Wait) : System α × Reply α :=
  match (s.cells wait.handle).result with
  | none => (s, .none)
  | some result =>
      let s := { s with
        cells := Function.update s.cells wait.handle (s.cells wait.handle).abandon }
      match result with
      | .ok version =>
          if receiver.version < version then
            (s.setReceiver index { receiver with version, wait := none }, .changed (.ok ()))
          else (s.setReceiver index { receiver with wait := none }, .none)
      | .error error =>
          (s.setReceiver index { receiver with wait := none }, .changed (.error error))

/-- The critical section of `poll_changed`.  A completion that was not published is completed
right away. -/
def register (index : Nat) (receiver : Receiver) : System α :=
  if receiver.version < s.version then
    { s.setReceiver index { receiver with wait := some ⟨s.nextCell, none⟩ } with
      cells := Function.update s.cells s.nextCell (({} : Cell _).complete (.ok s.version))
      nextCell := s.nextCell + 1 }
  else if s.book.senderCount = 0 then
    { s.setReceiver index { receiver with wait := some ⟨s.nextCell, none⟩ } with
      cells := Function.update s.cells s.nextCell (({} : Cell _).complete (.error .closed))
      nextCell := s.nextCell + 1 }
  else
    { s.setReceiver index
        { receiver with wait := some ⟨s.nextCell, some s.book.nextWaiterId⟩ } with
      book := s.book.publishWaiter receiver.version s.nextCell
      cells := Function.update s.cells s.nextCell {}
      nextCell := s.nextCell + 1 }

/-- A turn of `poll_changed`. -/
def pollChanged (index : Nat) (receiver : Receiver) : System α × Reply α :=
  match receiver.wait with
  | some wait => s.pollWait index receiver wait
  | none => (s.register index receiver, .none)

/-! ## Steps -/

/-- An action of a receiver in the given phase. -/
def withReceiver (index : Nat) (phase : ReceiverPhase)
    (f : Receiver → System α × Reply α) : Option (System α × Reply α) :=
  match s.receivers[index]? with
  | none => none
  | some receiver => if receiver.phase = phase then some (f receiver) else none

/-- One action and what it makes a call return; `none` when it is not possible.  A call
borrows its sender, so the last one is not dropped while an update is going on. -/
def act : Action α → Option (System α × Reply α)
  | .send value => if 0 < s.senders then some (s.send value) else none
  | .sendModify value => if 0 < s.senders then some (s.bump value, .none) else none
  | .sendIfModified value modified =>
      if 0 < s.senders then some (s.sendIfModified value modified, .none) else none
  | .wake index => (s.wake index).map (·, .none)
  | .load index => (s.load index).map (·, .none)
  | .fire index => (s.fire index).map (·, .none)
  | .cloneSender =>
      if 0 < s.senders then
        some ({ s with
          book := { s.book with senderCount := s.book.senderCount + 1 }
          senders := s.senders + 1 }, .none)
      else none
  | .dropSender =>
      if 1 < s.senders ∨ s.senders = 1 ∧ s.waking = [] ∧ s.loading = [] then
        some (s.dropSender, .none)
      else none
  | .subscribe => if 0 < s.senders then some (s.addReceiver s.version, .none) else none
  | .cloneReceiver index =>
      s.withReceiver index .live fun receiver => (s.addReceiver receiver.version, .none)
  | .dropReceiver index =>
      s.withReceiver index .live fun receiver => (s.dropReceiver index receiver, .none)
  | .release index =>
      s.withReceiver index .dropping fun receiver => (s.release index receiver, .none)
  | .cancelWait index =>
      match s.receivers[index]? with
      | none => none
      | some receiver =>
          match receiver.phase with
          | .cancelling handle waiterId => some (s.cancelWait index receiver handle waiterId, .none)
          | _ => none
  | .pollChanged index => s.withReceiver index .live fun receiver => s.pollChanged index receiver
  | .borrowAndUpdate index =>
      s.withReceiver index .live fun receiver =>
        (s.setReceiver index { receiver with version := s.version }, .none)

def step (s : System α) (a : Action α) : Option (System α) := (s.act a).map Prod.fst

def Reachable (value : α) : System α → Prop :=
  Transition.Reachable step (fun _ _ => True) { value }

end System

end Runite.Channel.Watch
