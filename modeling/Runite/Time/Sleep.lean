import Runite.Runtime.TimeoutPlace
import Runite.Task

/-!
# Sleeps

`time::Sleep`: a timeout that the first poll creates, and a state that its callback shares with
the future.  The system has every sleep of one generation of a runtime thread, beside whatever
else the program does with timers.
-/

namespace Runite.Time

open Runite.Runtime

structure SleepState where
  ready : Bool := false
  waker : Option Waker := none
  deriving DecidableEq

structure TimeoutHandle where
  id : Nat
  generation : Nat
  deriving DecidableEq

/-- `Sleep`; its state is named by the sleep. -/
structure Sleep where
  delay : Option Nat
  state : Option Nat := none
  handle : Option TimeoutHandle := none
  completed : Bool := false
  deriving DecidableEq

/-- What happened to a sleep, with the clock where it matters. -/
inductive SleepEvent
  | created (sleep delay : Nat)
  /-- the first poll creates the timeout with this id -/
  | armed (sleep id now delay : Nat)
  | pending (sleep : Nat) (waker : Waker)
  | woken (sleep : Nat) (waker : Waker) (clock : Nat)
  | ready (sleep : Nat)
  | dropped (sleep : Nat)
  deriving DecidableEq

def SleepEvent.sleep : SleepEvent → Nat
  | created i _ | armed i _ _ _ | pending i _ | woken i _ _ | ready i | dropped i => i

/-- The sleeps, by the order of their creation, their states, and for a timeout the sleep that
its callback completes.  `log` has the last event first. -/
structure Sleeps where
  timers : Timers
  created : Nat := 0
  sleeps : Nat → Option Sleep := fun _ => none
  states : Nat → SleepState := fun _ => {}
  callbacks : Nat → Option Nat := fun _ => none
  log : List SleepEvent := []

inductive SleepAction
  | sleep (duration : Nat)
  | poll (i : Nat) (waker : Waker) (now : Nat)
  | drop (i : Nat)
  /-- the event loop, and the other timers of the program -/
  | timers (a : TimerAction)
  deriving DecidableEq

namespace Sleeps

variable (s : Sleeps)

def sleep (duration : Nat) : Sleeps :=
  { s with
    created := s.created + 1
    sleeps := Function.update s.sleeps s.created (some { delay := some duration })
    log := .created s.created duration :: s.log }

/-- `SleepState::complete`; a wake is recorded with the clock. -/
def complete (i : Nat) : Sleeps :=
  match (s.states i).waker with
  | none => { s with states := Function.update s.states i { ready := true } }
  | some waker =>
      { s with
        states := Function.update s.states i { ready := true }
        log := .woken i waker s.timers.now :: s.log }

/-- The first poll: `set_timeout`, with a callback that completes the sleep's state. -/
def arm (i : Nat) (sleep : Sleep) (now : Nat) : Option Sleeps := do
  let delay := sleep.delay.getD 0
  let id := s.timers.nextTimerId
  let timers ← s.timers.step (.timeout now delay)
  some { s with
    timers
    sleeps := Function.update s.sleeps i (some { sleep with
      delay := none, state := some i, handle := some ⟨id, s.timers.generation⟩ })
    states := Function.update s.states i {}
    callbacks := Function.update s.callbacks id (some i)
    log := .armed i id now delay :: s.log }

def finish (i : Nat) : Sleeps :=
  { s with
    sleeps := Function.update s.sleeps i ((s.sleeps i).map fun sleep =>
      { sleep with completed := true, state := none, handle := none })
    log := .ready i :: s.log }

/-- The rest of a poll.  Nothing runs between the store of the waker and the second look. -/
def check (i : Nat) (waker : Waker) : Sleeps × Poll Unit :=
  if (s.states i).ready then (s.finish i, .ready ())
  else
    let s := { s with
      states := Function.update s.states i { s.states i with waker := some waker } }
    if (s.states i).ready then (s.finish i, .ready ())
    else ({ s with log := .pending i waker :: s.log }, .pending)

/-- `Sleep::poll`; the clock is read by the first one. -/
def poll (i : Nat) (waker : Waker) (now : Nat) : Option (Sleeps × Poll Unit) := do
  let sleep ← s.sleeps i
  if sleep.completed then some (s, .ready ())
  else
    let s ← if sleep.state.isNone then s.arm i sleep now else some s
    some (s.check i waker)

def drop (i : Nat) : Option Sleeps := do
  let sleep ← s.sleeps i
  let s := { s with sleeps := Function.update s.sleeps i none, log := .dropped i :: s.log }
  match sleep.completed, sleep.handle with
  | false, some handle =>
      (s.timers.step (.cancel handle.generation handle.id)).map fun timers => { s with timers }
  | _, _ => some s

/-- The handle of a sleep's timeout is private to it. -/
def Private : TimerAction → Prop
  | .cancel generation id => generation = s.timers.generation ∧ s.callbacks id ≠ none
  | _ => False

instance : DecidablePred s.Private := fun a => by
  cases a with
  | cancel generation id =>
      exact inferInstanceAs
        (Decidable (generation = s.timers.generation ∧ s.callbacks id ≠ none))
  | _ => exact inferInstanceAs (Decidable False)

/-- A step of the timers; a callback that it starts may be that of a sleep. -/
def tick (a : TimerAction) : Option Sleeps := do
  let timers ← s.timers.step a
  let s := { s with timers }
  match a, timers.running with
  | .runMacrotask, some (.timeout id) =>
      match s.callbacks id with
      | some i => some (s.complete i)
      | none => some s
  | _, _ => some s

def step : SleepAction → Option Sleeps
  | .sleep duration => if duration ≤ durationMax then some (s.sleep duration) else none
  | .poll i waker now => (s.poll i waker now).map Prod.fst
  | .drop i => s.drop i
  | .timers a => if s.Private a then none else s.tick a

/-- The states of every run of the sleeps of a generation. -/
def Reachable (generation : Nat) (s : Sleeps) : Prop :=
  Transition.Reachable step (fun _ _ => True) { timers := { generation } } s

end Sleeps

end Runite.Time
