import Mathlib.Logic.Function.Basic
import Runite.Task
import Runite.Lib.RoundRobin

/-!
# Unix signals

`signal::unix`: a signal handler that marks a kind as pending and writes to the
wake descriptor, a reader thread that drains the descriptor and schedules a
closure on every runtime thread with a registration, and the streams that these
closures notify.

An action is a step of one thread: each of the two steps of the handler, each
access of the reader to what it shares, each of the two steps of a scheduled
closure, and a call of a runtime thread.  A `Signal` is `!Send`: its polls, its
drop and the closures that notify it run on one thread, so a call is one action.

Objects behind an `Arc` have an address.  They live while somebody has them: a
registration is kept by its streams, by the closures, and by the reader while it
schedules.

A runtime can be shut down between two turns of its event loop.  Nothing is queued on it from
then on, and the closures that are queued are dropped; its thread gets a fresh runtime when it
uses one again.
-/

namespace Runite.Signal

open Function

inductive SignalKind
  | interrupt
  | terminate
  | hangup
  | quit
  | user1
  | user2
  | windowChange
  deriving DecidableEq, Repr

namespace SignalKind

/-- The kinds in the order of `SignalKind::index`. -/
def all : List SignalKind :=
  [.interrupt, .terminate, .hangup, .quit, .user1, .user2, .windowChange]

theorem mem_all (kind : SignalKind) : kind ∈ all := by
  cases kind <;> decide

end SignalKind

/-! ## Streams -/

/-- A `Signal` with its `SignalState`.  The last fields are history: whether a delivery came that
the stream has not yielded an event for, and the waker of the last poll if that returned `Pending`
and no notification came since. -/
structure Stream where
  kind : SignalKind := .interrupt
  registration : Nat := 0
  /-- the `Signals` that the stream belongs to -/
  group : Option Nat := none
  generation : Nat := 0
  waker : Option Waker := none
  lastSeen : Nat := 0
  /-- the `Signal` was not dropped -/
  live : Bool := false
  owed : Bool := false
  awaiting : Option Waker := none
  deriving DecidableEq, Repr

namespace Stream

def isUnseen (s : Stream) : Bool := s.generation != s.lastSeen

/-- `Poll::Ready` of `poll_recv`. -/
def yield (s : Stream) : Stream :=
  { s with lastSeen := s.generation, owed := false, awaiting := none }

/-- `Signal::poll_recv`, and whether it is ready. -/
def pollRecv (s : Stream) (waker : Waker) : Stream × Bool :=
  if s.isUnseen then (s.yield, true)
  else
    let s := { s with waker := some waker }
    if s.isUnseen then ({ s.yield with waker := none }, true)
    else ({ s with awaiting := some waker }, false)

/-- `SignalState::notify`, and the waker that it wakes. -/
def notify (s : Stream) : Stream × Option Waker :=
  ({ s with generation := s.generation + 1, waker := none, awaiting := none }, s.waker)

end Stream

/-- `Signals`.  The last fields are history: how many events of other kinds were returned since the
kind at an index has been unseen, and the waker of the last poll if that returned `Pending`. -/
structure Group where
  streams : List (SignalKind × Nat) := []
  next : Nat := 0
  passed : Nat → Nat := fun _ => 0
  awaiting : Option Waker := none

/-! ## The shared state -/

/-- `ThreadHandle`: a thread, and the runtimes that it had before this one. -/
structure ThreadHandle where
  thread : Nat := 0
  runtime : Nat := 0
  deriving DecidableEq, Repr

/-- `ThreadRegistration`; the slots hold weak references. -/
structure ThreadRegistration where
  thread : ThreadHandle := {}
  slots : SignalKind → List Nat := fun _ => []
  wakeScheduled : SignalKind → Bool := fun _ => false

/-- A closure that `schedule_notify` queued. -/
abbrev Closure := Nat × SignalKind

/-- A handler that has stored the flag and has not written yet.  `waiting` is history: the streams
that were registered when it began and that have not yielded an event since. -/
structure Delivery where
  kind : SignalKind
  waiting : List Nat
  deriving DecidableEq, Repr

/-- Where the reader is.  `kinds` are those that `dispatch_pending` has not come to. -/
inductive Reader
  /-- in `poll` -/
  | polling
  /-- in `drain_wake_fd`, before a read -/
  | draining
  | dispatching (kinds : List SignalKind)
  /-- in `broadcast`, before dead registrations are removed -/
  | retaining (kind : SignalKind) (kinds : List SignalKind)
  /-- in `broadcast`, while it upgrades the registrations `left` -/
  | collecting (kind : SignalKind) (left held : List Nat) (kinds : List SignalKind)
  /-- in `broadcast`, before `schedule_notify` of the registrations `held` -/
  | scheduling (kind : SignalKind) (held : List Nat) (kinds : List SignalKind)
  /-- in `schedule_notify`, before `queue_internal_wake` -/
  | queueing (kind : SignalKind) (registration : Nat) (held : List Nat) (kinds : List SignalKind)
  /-- in `schedule_notify`, after `queue_internal_wake` was refused -/
  | refused (kind : SignalKind) (registration : Nat) (held : List Nat) (kinds : List SignalKind)
  deriving DecidableEq, Repr

namespace Reader

/-- The reader has the registration behind an `Arc`. -/
def holds (r : Nat) : Reader → Bool
  | .collecting _ _ held _ | .scheduling _ held _ => held.contains r
  | .queueing _ registration held _ | .refused _ registration held _ =>
      registration == r || held.contains r
  | .polling | .draining | .dispatching _ | .retaining _ _ => false

end Reader

/-- The state of the process.  `current` is the thread-local `THREAD_REGISTRATION`, `runtime` the
runtimes that a thread had before its own, `closed` those of them that are closed, with its own
one or without, and `woken` the log of the wakers that were woken, with their streams. -/
structure World where
  installed : SignalKind → Bool := fun _ => false
  pending : SignalKind → Bool := fun _ => false
  /-- what there is to read from the wake descriptor -/
  wake : Nat := 0
  handlers : List Delivery := []
  reader : Reader := .polling
  registrations : List Nat := []
  current : Nat → Option Nat := fun _ => none
  runtime : Nat → Nat := fun _ => 0
  closed : Nat → Nat := fun _ => 0
  threads : Nat → ThreadRegistration := fun _ => {}
  nextRegistration : Nat := 0
  streams : Nat → Stream := fun _ => {}
  nextStream : Nat := 0
  groups : Nat → Option Group := fun _ => none
  nextGroup : Nat := 0
  queued : List Closure := []
  running : List Closure := []
  woken : List (Nat × Waker) := []

namespace World

variable (w : World)

/-- `Weak::upgrade` of a registration succeeds. -/
def isAlive (r : Nat) : Bool :=
  (List.range w.nextStream).any (fun id => (w.streams id).live && (w.streams id).registration == r)
    || (w.queued ++ w.running).any (fun closure => closure.1 == r) || w.reader.holds r

def isClosed (thread : ThreadHandle) : Bool := decide (thread.runtime < w.closed thread.thread)

/-! ## The handler -/

/-- The first step of `handle_signal`. -/
def storePending (kind : SignalKind) : World :=
  { w with
    pending := update w.pending kind true
    handlers := w.handlers ++
      [⟨kind, (List.range w.nextStream).filter fun id =>
        (w.streams id).live && (w.streams id).kind == kind⟩] }

/-- The second step of `handle_signal`.  A descriptor that is full is not written to, and stays
readable. -/
def writeWake (delivery : Delivery) (full : Bool) : World :=
  { w with
    wake := if full then w.wake else w.wake + 1
    handlers := w.handlers.erase delivery
    streams := fun id =>
      if delivery.waiting.contains id then { w.streams id with owed := true } else w.streams id }

/-! ## The reader -/

/-- The next step of the reader.  `left` is what a read leaves: nothing of an eventfd, and what did
not fit into the buffer of a pipe. -/
def readerStep (left : Nat) : Option World :=
  match w.reader with
  | .polling => if 0 < w.wake then some { w with reader := .draining } else none
  | .draining =>
      if 0 < w.wake then
        if left < w.wake then
          some { w with wake := left, reader := .dispatching SignalKind.all }
        else none
      else some { w with reader := .polling }
  | .dispatching [] => some { w with reader := .draining }
  | .dispatching (kind :: kinds) =>
      if w.pending kind then
        some { w with pending := update w.pending kind false, reader := .retaining kind kinds }
      else some { w with reader := .dispatching kinds }
  | .retaining kind kinds =>
      let registrations := w.registrations.filter fun r =>
        w.isAlive r && !w.isClosed (w.threads r).thread
      some { w with registrations, reader := .collecting kind registrations [] kinds }
  | .collecting kind [] held kinds => some { w with reader := .scheduling kind held kinds }
  | .collecting kind (r :: left) held kinds =>
      some { w with
        reader := .collecting kind left (if w.isAlive r then held ++ [r] else held) kinds }
  | .scheduling _ [] kinds => some { w with reader := .dispatching kinds }
  | .scheduling kind (r :: held) kinds =>
      if (w.threads r).wakeScheduled kind then some { w with reader := .scheduling kind held kinds }
      else
        some { w with
          threads := update w.threads r
            { w.threads r with wakeScheduled := update (w.threads r).wakeScheduled kind true }
          reader := .queueing kind r held kinds }
  | .queueing kind r held kinds =>
      if w.isClosed (w.threads r).thread then some { w with reader := .refused kind r held kinds }
      else some { w with queued := w.queued ++ [(r, kind)], reader := .scheduling kind held kinds }
  | .refused kind r held kinds =>
      some { w with
        threads := update w.threads r
          { w.threads r with wakeScheduled := update (w.threads r).wakeScheduled kind false }
        reader := .scheduling kind held kinds }

/-! ## The closures -/

/-- The first step of a closure: another one may be scheduled from here on. -/
def beginClosure (closure : Closure) : World :=
  let registration := w.threads closure.1
  { w with
    threads := update w.threads closure.1
      { registration with
        wakeScheduled := update registration.wakeScheduled closure.2 false }
    queued := w.queued.erase closure
    running := w.running ++ [closure] }

/-- `SignalState::notify` of the stream at an address. -/
def notifyStream (id : Nat) : World :=
  let (stream, waker) := (w.streams id).notify
  { w with
    streams := update w.streams id stream
    woken := w.woken ++ (waker.map (id, ·)).toList }

def notify (r : Nat) (kind : SignalKind) : World :=
  let streams := ((w.threads r).slots kind).filter fun id => (w.streams id).live
  let w := streams.foldl notifyStream w
  { w with
    threads := update w.threads r
      { w.threads r with slots := update (w.threads r).slots kind streams } }

def endClosure (closure : Closure) : World :=
  { w.notify closure.1 closure.2 with running := w.running.erase closure }

/-! ## The end of a runtime -/

def close (thread : Nat) : World :=
  { w with closed := update w.closed thread (w.closed thread + 1) }

/-- A closure that was queued on a closed runtime is dropped. -/
def dropClosure (closure : Closure) : World := { w with queued := w.queued.erase closure }

/-- The thread uses a runtime again, after its last one was torn down. -/
def install (thread : Nat) : World :=
  { w with runtime := update w.runtime thread (w.closed thread) }

/-! ## The calls of a runtime thread -/

/-- `thread_registration` on the runtime thread `thread`.  A registration of a closed runtime is
handed out again while something keeps it. -/
def threadRegistration (thread : Nat) : World × Nat :=
  match w.current thread with
  | some r => if w.isAlive r then (w, r) else fresh
  | none => fresh
where
  fresh : World × Nat :=
    ({ w with
      registrations := w.registrations ++ [w.nextRegistration]
      current := update w.current thread (some w.nextRegistration)
      threads := update w.threads w.nextRegistration { thread := ⟨thread, w.runtime thread⟩ }
      nextRegistration := w.nextRegistration + 1 }, w.nextRegistration)

/-- `add_signal` for a new stream, and its address. -/
def addSignal (r : Nat) (kind : SignalKind) (group : Option Nat) : World × Nat :=
  let id := w.nextStream
  ({ w with
    streams := update w.streams id { kind, registration := r, group, live := true }
    nextStream := id + 1
    threads := update w.threads r
      { w.threads r with
        slots := update (w.threads r).slots kind ((w.threads r).slots kind ++ [id]) } }, id)

/-- `signal`, for a kind whose handler can be installed. -/
def signal (thread : Nat) (kind : SignalKind) (group : Option Nat) : World × Nat :=
  let w := { w with installed := update w.installed kind true }
  let (w, r) := w.threadRegistration thread
  w.addSignal r kind group

/-- The loop of `signals`. -/
def signalsLoop (thread group : Nat) :
    World → List SignalKind → List (SignalKind × Nat) → World × List (SignalKind × Nat)
  | w, [], streams => (w, streams)
  | w, kind :: kinds, streams =>
      if streams.any fun existing => existing.1 == kind then
        signalsLoop thread group w kinds streams
      else
        let (w, id) := w.signal thread kind (some group)
        signalsLoop thread group w kinds (streams ++ [(kind, id)])

/-- `signals`, which fails for no kinds. -/
def signals (thread : Nat) (kinds : List SignalKind) : Option World :=
  if kinds.isEmpty then none
  else
    let group := w.nextGroup
    let (w, streams) := signalsLoop thread group { w with nextGroup := group + 1 } kinds []
    some { w with groups := update w.groups group (some { streams }) }

/-- `Drop for Signal`. -/
def dropSignal (id : Nat) : World :=
  { w with streams := update w.streams id { w.streams id with live := false } }

/-- The stream yields an event: the deliveries so far are over for it. -/
def settle (id : Nat) : World :=
  { w with handlers := w.handlers.map fun d => { d with waiting := d.waiting.filter (· ≠ id) } }

/-- `Signal::poll_recv` of the stream at an address. -/
def pollSignal (id : Nat) (waker : Waker) : World × Bool :=
  let (stream, ready) := (w.streams id).pollRecv waker
  let w := { w with streams := update w.streams id stream }
  (if ready then w.settle id else w, ready)

/-- The loop of `Signals::poll_recv` over the indices that are left, and the one that is ready. -/
def pollLoop (streams : List (SignalKind × Nat)) (waker : Waker) :
    World → List Nat → World × Option Nat
  | w, [] => (w, none)
  | w, index :: indices =>
      match streams[index]? with
      | none => (w, none)
      | some (_, id) =>
          let (w, ready) := w.pollSignal id waker
          if ready then (w, some index) else pollLoop streams waker w indices

/-- The kind at `index` has not been returned since it was notified. -/
def isUnseenAt (streams : List (SignalKind × Nat)) (index : Nat) : Bool :=
  (streams[index]?).any fun stream => (w.streams stream.2).isUnseen

/-- `Signals::poll_recv`. -/
def pollGroup (g : Nat) (group : Group) (waker : Waker) : World :=
  let count := group.streams.length
  match pollLoop group.streams waker w (RoundRobin.order count group.next) with
  | (w, none) => { w with groups := update w.groups g (some { group with awaiting := some waker }) }
  | (w, some index) =>
      { w with groups := update w.groups g (some
        { group with
          next := (index + 1) % count
          passed := fun j => if w.isUnseenAt group.streams j then group.passed j + 1 else 0
          awaiting := none }) }

inductive Action
  /-- a signal arrives: `handle_signal` stores the flag -/
  | storePending (kind : SignalKind)
  /-- `handle_signal` writes to the descriptor, unless that is full -/
  | writeWake (delivery : Delivery) (full : Bool)
  | reader (left : Nat)
  | beginClosure (closure : Closure)
  | endClosure (closure : Closure)
  | close (thread : Nat)
  | dropClosure (closure : Closure)
  | install (thread : Nat)
  | signal (thread : Nat) (kind : SignalKind)
  | signals (thread : Nat) (kinds : List SignalKind)
  | dropSignal (id : Nat)
  | dropSignals (g : Nat)
  | poll (id : Nat) (waker : Waker)
  | pollGroup (g : Nat) (waker : Waker)
  deriving DecidableEq, Repr

/-- The streams of a `Signals` are dropped one after the other. -/
def dropGroup (g : Nat) (group : Group) : World :=
  let w := group.streams.foldl (fun w stream => w.dropSignal stream.2) w
  { w with groups := update w.groups g none }

def step (w : World) : Action → Option World
  | .storePending kind => if w.installed kind then some (w.storePending kind) else none
  | .writeWake delivery full =>
      if delivery ∈ w.handlers ∧ (full = true → 0 < w.wake) then some (w.writeWake delivery full)
      else none
  | .reader left => w.readerStep left
  | .beginClosure closure =>
      if closure ∈ w.queued ∧ w.isClosed (w.threads closure.1).thread = false then
        some (w.beginClosure closure)
      else none
  | .endClosure closure => if closure ∈ w.running then some (w.endClosure closure) else none
  | .close thread =>
      -- no turn of the loop is running
      if w.closed thread = w.runtime thread ∧
          ∀ closure ∈ w.running, (w.threads closure.1).thread.thread ≠ thread then
        some (w.close thread)
      else none
  | .dropClosure closure =>
      if closure ∈ w.queued ∧ w.isClosed (w.threads closure.1).thread = true then
        some (w.dropClosure closure)
      else none
  | .install thread =>
      if w.runtime thread < w.closed thread ∧
          ∀ closure ∈ w.queued, (w.threads closure.1).thread.thread ≠ thread then
        some (w.install thread)
      else none
  | .signal thread kind => some (w.signal thread kind none).1
  | .signals thread kinds => w.signals thread kinds
  | .dropSignal id =>
      if (w.streams id).live ∧ (w.streams id).group = none then some (w.dropSignal id) else none
  | .dropSignals g => (w.groups g).map (w.dropGroup g)
  | .poll id waker =>
      if (w.streams id).live ∧ (w.streams id).group = none then some (w.pollSignal id waker).1
      else none
  | .pollGroup g waker => (w.groups g).map fun group => w.pollGroup g group waker

end World

end Runite.Signal
