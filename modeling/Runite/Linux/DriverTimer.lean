import Runite.Linux.Token
import Runite.Runtime.TimerCallbacks

/-!
# The timer of the Linux driver

A driver has one timeout in the kernel for the whole timer heap.  `DriverTimer` is what
`platform::linux::driver` keeps of it: `rearm_timer`, `drain_timer` and what `process_cqe` does
with the completion of a timeout.  `TimerSystem` is a runtime thread: its timers, the driver's
timer, the entries that are staged for the ring, and the timeouts that the kernel has.
-/

namespace Runite.Linux

open Runite.Runtime (Timers TimerAction)

structure DriverTimer where
  activeTimerToken : Option Token := none
  activeTimerDeadline : Option Nat := none
  pendingTimers : Nat := 0
  deriving DecidableEq, Repr

/-- What `submit_timeout` and `submit_timeout_remove` stage. -/
inductive TimerSqe
  | timeout (token : Token) (deadline : Nat)
  | timeoutRemove (tokenToRemove completion : Token)
  deriving DecidableEq, Repr

namespace DriverTimer

variable (d : DriverTimer)

/-- `rearm_timer`, with the next token and the entries that are staged -/
def rearmTimer (nextToken : Nat) (deadline : Option Nat) : DriverTimer × Nat × List TimerSqe :=
  if d.activeTimerDeadline = deadline then (d, nextToken, [])
  else
    match d.activeTimerToken, deadline with
    | some active, some deadline =>
        let token := ⟨.timer, nextToken + 1⟩
        ({ d with activeTimerToken := some token, activeTimerDeadline := some deadline },
          nextToken + 2,
          [.timeoutRemove active ⟨.timerRemove, nextToken⟩, .timeout token deadline])
    | some active, none =>
        ({ d with activeTimerToken := none, activeTimerDeadline := none }, nextToken + 1,
          [.timeoutRemove active ⟨.timerRemove, nextToken⟩])
    | none, some deadline =>
        let token := ⟨.timer, nextToken⟩
        ({ d with activeTimerToken := some token, activeTimerDeadline := some deadline },
          nextToken + 1, [.timeout token deadline])
    | none, none => ({ d with activeTimerDeadline := none }, nextToken, [])

def drainTimer : DriverTimer := { d with pendingTimers := 0 }

/-- `process_cqe` of a timeout, and whether the result is `-ETIME` -/
def processTimer (token : Token) (expired : Bool) : DriverTimer :=
  let d :=
    if d.activeTimerToken = some token then
      { d with activeTimerToken := none, activeTimerDeadline := none }
    else d
  if expired then { d with pendingTimers := min (d.pendingTimers + 1) (2 ^ 64 - 1) } else d

end DriverTimer

/-- A runtime thread.  `kernel` has the timeouts whose completions are not delivered, and
`removed` the targets of the removes that the kernel was given. -/
structure TimerSystem where
  scheduler : Timers
  driver : DriverTimer := {}
  nextToken : Nat := 1
  staged : List TimerSqe := []
  kernel : List (Token × Nat) := []
  removed : List Token := []

inductive TimerSystemAction
  | scheduler (action : TimerAction)
  /-- an operation takes a token -/
  | nextToken
  /-- the ring accepts the first entry that is staged -/
  | submit
  /-- the completion of a timeout is delivered, with `-ETIME`, or with `-ECANCELED` -/
  | expired (token : Token)
  | cancelled (token : Token)
  deriving DecidableEq, Repr

namespace TimerSystem

variable (s : TimerSystem)

def rearmThreadTimer : TimerSystem :=
  let (driver, nextToken, sqes) :=
    s.driver.rearmTimer s.nextToken s.scheduler.timers.peekDeadline
  { s with driver, nextToken, staged := s.staged ++ sqes }

/-- `poll` reports timers as ready. -/
def timerReady : Bool := s.driver.pendingTimers ≠ 0

/-- `drain_driver_events` drains the expirations before it dispatches, and dispatches only if
there are some. -/
def beforeAction : TimerAction → Option TimerSystem
  | .dispatch _ => if s.timerReady then some { s with driver := s.driver.drainTimer } else none
  | _ => some s

/-- The kernel is given an entry of the ring. -/
def accept : TimerSqe → TimerSystem
  | .timeout token deadline => { s with kernel := s.kernel ++ [(token, deadline)] }
  | .timeoutRemove token _ => { s with removed := s.removed ++ [token] }

/-- The only completion of a timeout is delivered. -/
def deliver (token : Token) (expired : Bool) : TimerSystem :=
  { s with
    driver := s.driver.processTimer token expired
    kernel := s.kernel.filter fun timeout => timeout.1 ≠ token }

/-- A timeout is completed once, and with `-ECANCELED` only if it was removed. -/
def step : TimerSystemAction → Option TimerSystem
  | .scheduler action =>
      (s.beforeAction action).bind fun s =>
        (s.scheduler.act action).map fun (scheduler, rearm) =>
          let s := { s with scheduler }
          if rearm then s.rearmThreadTimer else s
  | .nextToken => some { s with nextToken := s.nextToken + 1 }
  | .submit =>
      match s.staged with
      | [] => none
      | sqe :: staged => some ({ s with staged }.accept sqe)
  | .expired token => if token ∈ s.kernel.map Prod.fst then some (s.deliver token true) else none
  | .cancelled token =>
      if token ∈ s.kernel.map Prod.fst ∧ token ∈ s.removed then some (s.deliver token false)
      else none

def Reachable (generation : Nat) (s : TimerSystem) : Prop :=
  Transition.Reachable step (fun _ _ => True) { scheduler := { generation } } s

end TimerSystem

end Runite.Linux
