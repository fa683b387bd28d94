import Mathlib.Algebra.Group.Nat.Defs
import Runite.Lib.Transition
import Runite.Runtime.TimerHeap

/-!
# Timeouts and intervals

`timeout`, `interval`, `clear_timer`, `schedule_interval_macrotask` and
`dispatch_expired_timers` of `platform::runtime_shared::scheduler`, for the timers of one
generation of a runtime thread.  A timer is in the heap, then a closure in the macrotask queue,
then a callback that runs, and callbacks create and cancel timers like any other code of the
program.
-/

namespace Runite.Runtime

/-- `Duration::MAX`, in nanoseconds -/
def durationMax : Nat := (2 ^ 64 - 1) * 1000000000 + 999999999

/-- `checked_add(..).unwrap_or(Duration::MAX)` -/
def saturatingAdd (a b : Nat) : Nat := min (a + b) durationMax

/-- A closure in `local_macrotasks`: the callback of a timeout, or a tick of an interval with
the deadline it is scheduled for. -/
inductive TimerTask
  | timeout (id : Nat)
  | tick (id : Nat) (scheduled : Nat)
  deriving DecidableEq, Repr

def TimerTask.id : TimerTask → Nat
  | timeout id | tick id _ => id

def TimerTask.isTick (id : Nat) : TimerTask → Bool
  | timeout _ => false
  | tick i _ => i = id

/-- What happened to a timer, with the clock where a callback starts. -/
inductive TimerEvent
  | timeout (id deadline : Nat)
  | interval (id start period : Nat)
  | cancelled (id : Nat)
  | started (id clock : Nat)
  | ticked (id scheduled clock : Nat)
  | panicked (id : Nat)
  deriving DecidableEq, Repr

def TimerEvent.id : TimerEvent → Nat
  | timeout id _ | interval id _ _ | cancelled id | started id _ | ticked id _ _ | panicked id => id

def TimerEvent.isTicked (id : Nat) : TimerEvent → Bool
  | ticked i _ _ => i = id
  | _ => false

/-- `ThreadState`, as far as timers are concerned.  `liveIntervals` gives the period of an
interval.  `now` is the last reading of the clock; `history` has the last event first. -/
structure Timers where
  generation : Nat
  nextTimerId : Nat := 1
  timers : TimerHeap := {}
  liveTimeouts : Nat → Bool := fun _ => false
  liveIntervals : Nat → Option Nat := fun _ => none
  localMacrotasks : List TimerTask := []
  running : Option TimerTask := none
  now : Nat := 0
  history : List TimerEvent := []

inductive TimerAction
  | timeout (now delay : Nat)
  | interval (now delay : Nat)
  /-- `cancel_timeout` or `cancel_interval`, with the handle's generation and id -/
  | cancel (generation id : Nat)
  | dispatch (now : Nat)
  /-- the first closure is taken out of the macrotasks -/
  | runMacrotask
  /-- the callback returns, or panics -/
  | returns (now : Nat)
  | panics
  deriving DecidableEq, Repr

namespace Timers

variable (s : Timers)

def scheduleIntervalMacrotask (id scheduled : Nat) : Timers :=
  { s with localMacrotasks := s.localMacrotasks ++ [.tick id scheduled] }

/-- `timeout`; `rearm_thread_timer` follows. -/
def timeout (now delay : Nat) : Timers :=
  let id := s.nextTimerId
  let deadline := saturatingAdd now delay
  { s with
    nextTimerId := id + 1
    timers := s.timers.insert { id, deadline, kind := .timeout }
    liveTimeouts := Function.update s.liveTimeouts id true
    now
    history := .timeout id deadline :: s.history }

/-- `interval`, and whether `rearm_thread_timer` follows -/
def interval (now delay : Nat) : Timers × Bool :=
  let id := s.nextTimerId
  let s := { s with
    nextTimerId := id + 1
    liveIntervals := Function.update s.liveIntervals id (some delay)
    now
    history := .interval id now delay :: s.history }
  if delay = 0 then (s.scheduleIntervalMacrotask id (saturatingAdd now 0), false)
  else
    ({ s with timers := s.timers.insert { id, deadline := saturatingAdd now delay, kind := .interval } },
      true)

/-- `clear_timer`, and whether `rearm_thread_timer_installed` follows -/
def clearTimer (generation id : Nat) : Timers × Bool :=
  if s.generation ≠ generation then (s, false)
  else
    let (timers, timer) := s.timers.remove id
    ({ s with
      timers
      liveTimeouts := Function.update s.liveTimeouts id false
      liveIntervals := Function.update s.liveIntervals id none
      history := .cancelled id :: s.history }, timer.isSome)

/-- The closure that `dispatch_expired_timers` queues for a timer. -/
def taskOf (node : TimerNode) : TimerTask :=
  match node.kind with
  | .timeout => .timeout node.id
  | .interval => .tick node.id node.deadline

/-- `dispatch_expired_timers`; `rearm_thread_timer_installed` follows. -/
def dispatchExpiredTimers (now : Nat) : Timers :=
  let (timers, due) := s.timers.popDue now
  { s with timers, now, localMacrotasks := s.localMacrotasks ++ due.map taskOf }

/-- A closure starts: the callback runs if the timer is still live. -/
def start : TimerTask → Timers
  | .timeout id =>
      if s.liveTimeouts id then
        { s with
          liveTimeouts := Function.update s.liveTimeouts id false
          running := some (.timeout id)
          history := .started id s.now :: s.history }
      else s
  | .tick id scheduled =>
      if (s.liveIntervals id).isSome then
        { s with
          running := some (.tick id scheduled)
          history := .ticked id scheduled s.now :: s.history }
      else s

/-- A callback returns, and whether `rearm_thread_timer_installed` follows -/
def finish (now : Nat) : TimerTask → Timers × Bool
  | .timeout _ => ({ s with running := none, now }, false)
  | .tick id scheduled =>
      match s.liveIntervals id with
      | none => ({ s with running := none, now }, false)
      | some period =>
          let s := { s with running := none, now }
          let nextDeadline := saturatingAdd scheduled period
          if nextDeadline ≤ now then (s.scheduleIntervalMacrotask id nextDeadline, false)
          else
            ({ s with timers := s.timers.insert { id, deadline := nextDeadline, kind := .interval } },
              true)

/-- A callback panics.  The panicking interval is removed, and the timer of the driver is left
as it is. -/
def unwind : TimerTask → Timers
  | .timeout _ => { s with running := none }
  | .tick id _ =>
      { s with
        running := none
        timers := (s.timers.remove id).1
        liveIntervals := Function.update s.liveIntervals id none
        history := .panicked id :: s.history }

/-- A step, and whether the timer of the driver is rearmed at its end.  The clock does not go
back, and its readings and the delays are durations; the handles of this generation are those
that `timeout` and `interval` have returned. -/
def act : TimerAction → Option (Timers × Bool)
  | .timeout now delay =>
      if s.now ≤ now ∧ now ≤ durationMax ∧ delay ≤ durationMax then
        some (s.timeout now delay, true)
      else none
  | .interval now delay =>
      if s.now ≤ now ∧ now ≤ durationMax ∧ delay ≤ durationMax then some (s.interval now delay)
      else none
  | .cancel generation id =>
      if generation = s.generation → id < s.nextTimerId then some (s.clearTimer generation id)
      else none
  | .dispatch now =>
      if s.running = none ∧ s.now ≤ now ∧ now ≤ durationMax then
        some (s.dispatchExpiredTimers now, true)
      else none
  | .runMacrotask =>
      if s.running = none then
        match s.localMacrotasks with
        | [] => none
        | task :: rest => some ({ s with localMacrotasks := rest }.start task, false)
      else none
  | .returns now =>
      if s.now ≤ now ∧ now ≤ durationMax then s.running.map (s.finish now) else none
  | .panics => s.running.map fun task => (s.unwind task, false)

def step (a : TimerAction) : Option Timers := (s.act a).map Prod.fst

/-- The states of every run of a generation of timers. -/
def Reachable (generation : Nat) (s : Timers) : Prop :=
  Transition.Reachable step (fun _ _ => True) { generation } s

end Timers

end Runite.Runtime
