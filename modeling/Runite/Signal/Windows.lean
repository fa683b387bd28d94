import Mathlib.Logic.Function.Basic
import Runite.Lib.Transition
import Runite.Task

/-!
# Windows console events

`signal::windows`: Windows calls the handler on threads of its own; the handler notifies the
streams in the registry, and a stream is woken by a closure on its owning thread.

An action is one access of one thread to what the threads share.  A stream is `!Send`: its polls,
its drop and the closures that wake it run on one thread.  A closure that a thread has accepted
waits in `queue` until the thread runs it, or drops it when it closes.
-/

namespace Runite.Signal.Windows

open Function

/-- Who has set `wake_scheduled` of a stream. -/
inductive Holder
  /-- a handler that has not called `queue_internal_wake` -/
  | handler (i : Nat)
  /-- a handler whose wake was refused -/
  | refused (i : Nat)
  /-- the closure was accepted, and has not begun -/
  | queued
  /-- the closure has begun -/
  | running
  deriving DecidableEq, Repr

/-- A `CtrlC` or `CtrlBreak` with its `StreamState`.  The last fields are history: who has set
`wake_scheduled`, the generation when a closure cleared it last, and the waker of the last poll
if that has returned `Pending` and was not woken since. -/
structure Stream where
  event : Nat := 0
  thread : Nat := 0
  generation : Nat := 0
  wakeScheduled : Bool := false
  active : Bool := false
  waker : Option Waker := none
  lastSeen : Nat := 0
  holder : Option Holder := none
  served : Nat := 0
  awaiting : Option Waker := none
  deriving DecidableEq

def Stream.isUnseen (s : Stream) : Bool := s.generation != s.lastSeen

/-- `recv` finds that the generation has changed. -/
def Stream.see (s : Stream) : Stream := { s with lastSeen := s.generation, awaiting := none }

/-- Where `notify` is: before this access. -/
inductive Notify
  | loadActive
  | loadClosed
  | bump
  | swap
  | queue
  | reset
  | reloadActive
  | reloadClosed
  deriving DecidableEq, Repr

/-- A call of `ctrl_handler`.  In `notify`, `generation` is what the call has stored. -/
inductive Handler
  /-- before it takes the listeners out of the registry -/
  | called (event : Nat)
  | dispatching (left : List Nat) (handled : Bool)
  | notifying (next : Notify) (id generation : Nat) (left : List Nat) (handled : Bool)
  | returned (handled : Bool)
  deriving DecidableEq

/-- Where a runtime thread is: before this access. -/
inductive Control
  | idle
  /-- `recv` -/
  | storeWaker (id : Nat) (waker : Waker)
  | lookAgain (id : Nat) (waker : Waker)
  /-- the closure that `notify` queued -/
  | clear (id : Nat)
  | loadActive (id : Nat)
  | wake (id : Nat)
  /-- `unregister` -/
  | forgetWaker (id : Nat)
  | lockToUnregister (id : Nat)
  | unregister (id : Nat)
  | uninstall
  /-- `new_stream` -/
  | lockToRegister (event : Nat)
  | install (event : Nat)
  | publish (event : Nat)
  deriving DecidableEq

/-- The thread has the lock of the handler's lifecycle. -/
def Control.locked : Control → Bool
  | unregister _ | uninstall | install _ | publish _ => true
  | _ => false

structure Thread where
  closed : Bool := false
  queue : List Nat := []
  control : Control := .idle
  deriving DecidableEq

/-- `notify` has returned true: for the stream `id`, in the call `handler`, which has stored the
generation. -/
structure Report where
  handler : Nat
  id : Nat
  generation : Nat
  deriving DecidableEq, Repr

/-- `lifecycle` is free if no thread has it.  The last fields are history: the wakers that were
woken, what the handlers have reported as handled, and whether the handler could not be removed
the last time. -/
structure Console where
  streams : Nat → Stream := fun _ => {}
  nextStream : Nat := 0
  listeners : List Nat := []
  lifecycle : Option Nat := none
  installed : Bool := false
  threads : Nat → Thread := fun _ => {}
  handlers : Nat → Option Handler := fun _ => none
  nextHandler : Nat := 0
  woken : List (Nat × Waker) := []
  reported : List Report := []
  uninstallFailed : Bool := false

namespace Console

variable (c : Console)

def setStream (id : Nat) (s : Stream) : Console := { c with streams := update c.streams id s }

def setHandler (i : Nat) (h : Handler) : Console :=
  { c with handlers := update c.handlers i (some h) }

def setThread (t : Nat) (thread : Thread) : Console :=
  { c with threads := update c.threads t thread }

def setControl (t : Nat) (control : Control) : Console :=
  c.setThread t { c.threads t with control }

/-- A thread that is not closed accepts a closure. -/
def enqueue (t id : Nat) : Console :=
  c.setThread t { c.threads t with queue := (c.threads t).queue ++ [id] }

variable {c} {id id' t t' i i' : Nat} {s : Stream} {thread : Thread} {h : Handler}

@[simp] theorem streams_setStream_self : (c.setStream id s).streams id = s := update_self ..

@[simp] theorem streams_setStream_of_ne (hne : id' ≠ id) :
    (c.setStream id s).streams id' = c.streams id' := update_of_ne hne ..

@[simp] theorem threads_setStream : (c.setStream id s).threads = c.threads := rfl

@[simp] theorem handlers_setStream : (c.setStream id s).handlers = c.handlers := rfl

@[simp] theorem handlers_setHandler_self : (c.setHandler i h).handlers i = some h := update_self ..

@[simp] theorem handlers_setHandler_of_ne (hne : i' ≠ i) :
    (c.setHandler i h).handlers i' = c.handlers i' := update_of_ne hne ..

@[simp] theorem streams_setHandler : (c.setHandler i h).streams = c.streams := rfl

@[simp] theorem threads_setHandler : (c.setHandler i h).threads = c.threads := rfl

@[simp] theorem threads_setThread_self : (c.setThread t thread).threads t = thread := update_self ..

@[simp] theorem threads_setThread_of_ne (hne : t' ≠ t) :
    (c.setThread t thread).threads t' = c.threads t' := update_of_ne hne ..

@[simp] theorem streams_setThread : (c.setThread t thread).streams = c.streams := rfl

@[simp] theorem handlers_setThread : (c.setThread t thread).handlers = c.handlers := rfl

theorem control_setControl (t t' : Nat) (control : Control) :
    ((c.setControl t control).threads t').control =
      if t' = t then control else (c.threads t').control := by
  split
  next heq => simp [setControl, heq]
  next hne => simp [setControl, hne]

variable (c)

def isClosed (id : Nat) : Bool := (c.threads (c.streams id).thread).closed

/-! ## The handler -/

/-- `StreamState::notify`, one access of it -/
def notify (i : Nat) (next : Notify) (id generation : Nat) (left : List Nat) (handled : Bool) :
    Console :=
  let s := c.streams id
  match next with
  | .loadActive =>
      c.setHandler i (if s.active then .notifying .loadClosed id generation left handled
        else .dispatching left handled)
  | .loadClosed =>
      c.setHandler i (if c.isClosed id then .dispatching left handled
        else .notifying .bump id generation left handled)
  | .bump =>
      (c.setStream id { s with generation := s.generation + 1 }).setHandler i
        (.notifying .swap id (s.generation + 1) left handled)
  | .swap =>
      if s.wakeScheduled then
        c.setHandler i (.notifying .reloadActive id generation left handled)
      else
        (c.setStream id { s with wakeScheduled := true, holder := some (.handler i) }).setHandler i
          (.notifying .queue id generation left handled)
  | .queue =>
      if c.isClosed id then
        (c.setStream id { s with holder := some (.refused i) }).setHandler i
          (.notifying .reset id generation left handled)
      else
        ((c.setStream id { s with holder := some .queued }).enqueue s.thread id).setHandler i
          (.notifying .reloadActive id generation left handled)
  | .reset =>
      (c.setStream id { s with wakeScheduled := false, holder := none }).setHandler i
        (.dispatching left handled)
  | .reloadActive =>
      c.setHandler i (if s.active then .notifying .reloadClosed id generation left handled
        else .dispatching left handled)
  | .reloadClosed =>
      if c.isClosed id then c.setHandler i (.dispatching left handled)
      else
        { c with reported := ⟨i, id, generation⟩ :: c.reported }.setHandler i
          (.dispatching left true)

/-- `ctrl_handler_inner`, one access of it -/
def ctrlHandler (i : Nat) : Handler → Option Console
  | .called event =>
      some (c.setHandler i (.dispatching
        (c.listeners.filter fun id => (c.streams id).event = event) false))
  | .dispatching [] handled => some (c.setHandler i (.returned handled))
  | .dispatching (id :: left) handled =>
      some (c.setHandler i (.notifying .loadActive id 0 left handled))
  | .notifying next id generation left handled =>
      some (c.notify i next id generation left handled)
  | .returned _ => none

/-! ## The threads -/

/-- One access of a thread; `ok` says whether `SetConsoleCtrlHandler` succeeds. -/
def threadStep (t : Nat) (ok : Bool) : Option Console :=
  match (c.threads t).control with
  | .idle => none
  | .storeWaker id waker =>
      some ((c.setStream id { c.streams id with waker := some waker }).setControl t
        (.lookAgain id waker))
  | .lookAgain id waker =>
      let s := c.streams id
      some ((c.setStream id (if s.isUnseen then { s.see with waker := none }
        else { s with awaiting := some waker })).setControl t .idle)
  | .clear id =>
      let s := c.streams id
      some ((c.setStream id { s with
        wakeScheduled := false, holder := none, served := s.generation }).setControl t
          (.loadActive id))
  | .loadActive id => some (c.setControl t (if (c.streams id).active then .wake id else .idle))
  | .wake id =>
      let s := c.streams id
      some ({ c.setStream id { s with waker := none, awaiting := none } with
        woken := c.woken ++ (s.waker.toList.map fun waker => (id, waker)) }.setControl t .idle)
  | .forgetWaker id =>
      some ((c.setStream id { c.streams id with waker := none, awaiting := none }).setControl t
        (.lockToUnregister id))
  | .lockToUnregister id =>
      if c.lifecycle = none then
        some ({ c with lifecycle := some t }.setControl t (.unregister id))
      else none
  | .unregister id =>
      let listeners := c.listeners.filter fun id' => id' ≠ id
      if listeners = [] then some ({ c with listeners }.setControl t .uninstall)
      else some ({ c with listeners, lifecycle := none }.setControl t .idle)
  | .uninstall =>
      let c := { c with lifecycle := none }.setControl t .idle
      if c.installed then some { c with installed := !ok, uninstallFailed := !ok } else some c
  | .lockToRegister event =>
      if c.lifecycle = none then
        some ({ c with lifecycle := some t }.setControl t (.install event))
      else none
  | .install event =>
      if c.installed then some (c.setControl t (.publish event))
      else if ok then some ({ c with installed := true }.setControl t (.publish event))
      else some ({ c with lifecycle := none }.setControl t .idle)
  | .publish event =>
      let id := c.nextStream
      some ({ c.setStream id { event, thread := t, active := true } with
        nextStream := id + 1
        listeners := c.listeners ++ [id]
        lifecycle := none }.setControl t .idle)

/-- `recv` up to its first look at the generation -/
def poll (id : Nat) (waker : Waker) : Console :=
  let s := c.streams id
  if s.isUnseen then c.setStream id s.see
  else (c.setStream id { s with awaiting := none }).setControl s.thread (.storeWaker id waker)

/-- `unregister` up to the store of `active` -/
def drop (id : Nat) : Console :=
  let s := c.streams id
  (c.setStream id { s with active := false }).setControl s.thread (.forgetWaker id)

end Console

/-! ## Runs -/

inductive Action
  /-- Windows calls the handler -/
  | call (event : Nat)
  | handler (i : Nat)
  | thread (t : Nat) (ok : Bool)
  /-- a thread begins `new_stream`, `recv`, the drop of a stream or the next closure -/
  | newStream (t event : Nat)
  | poll (id : Nat) (waker : Waker)
  | drop (id : Nat)
  | run (t : Nat)
  | close (t : Nat)
  deriving DecidableEq

namespace Console

/-- The thread of the stream may begin a call for it. -/
def Ready (c : Console) (id : Nat) : Prop :=
  (c.streams id).active = true ∧ (c.threads (c.streams id).thread).control = .idle

instance (c : Console) : DecidablePred c.Ready := fun _ => instDecidableAnd

def step (c : Console) : Action → Option Console
  | .call event =>
      if c.installed then
        some { c.setHandler c.nextHandler (.called event) with nextHandler := c.nextHandler + 1 }
      else none
  | .handler i => (c.handlers i).bind (c.ctrlHandler i)
  | .thread t ok => c.threadStep t ok
  | .newStream t event =>
      if (c.threads t).control = .idle then some (c.setControl t (.lockToRegister event)) else none
  | .poll id waker => if c.Ready id then some (c.poll id waker) else none
  | .drop id => if c.Ready id then some (c.drop id) else none
  | .run t =>
      let thread := c.threads t
      match thread.queue with
      | [] => none
      | id :: queue =>
          if thread.control = .idle ∧ thread.closed = false then
            some ((c.setStream id { c.streams id with holder := some .running }).setThread t
              { thread with queue, control := .clear id })
          else none
  | .close t =>
      let thread := c.threads t
      if thread.control = .idle then
        some (c.setThread t { thread with closed := true, queue := [] })
      else none

def Reachable (c : Console) : Prop := Transition.Reachable step (fun _ _ => True) {} c

end Console

end Runite.Signal.Windows
