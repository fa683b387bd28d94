import Runite.Lib.Transition
import Runite.Macos.Waiters

/-!
# The kqueue driver

The readiness waiters and the process waiters of a driver, its wake pipe and its timer, with
the kernel's answers as parameters of the calls.  The kernel deletes a one-shot registration
when it delivers its event, and the registrations of a descriptor when that is closed.
-/

namespace Runite.Macos

inductive FdInterest
  | readable
  | writable
  deriving DecidableEq, Repr

structure FdKey where
  fd : Int
  interest : FdInterest
  deriving DecidableEq, Repr

/-- `EVFILT_READ`, `EVFILT_WRITE`, `EVFILT_PROC` and the others. -/
inductive Filter
  | read
  | write
  | proc
  | other (code : Int)
  deriving DecidableEq, Repr

/-- A `kevent` that the kernel delivers, with the flags that are looked at. -/
structure Kevent where
  ident : Int
  filter : Filter
  evError : Bool := false
  evEof : Bool := false
  fflags : Int := 0
  data : Int := 0
  deriving DecidableEq, Repr

def asI32 (n : Int) : Int := n.bmod (2 ^ 32)

def eintr : Int := 4

def eagain : Int := 35

/-- The sum, or `u64::MAX`. -/
def saturatingAdd (a b : Nat) : Nat := min (a + b) (2 ^ 64 - 1)

def interestFromFilter : Filter → Option FdInterest
  | .read => some .readable
  | .write => some .writable
  | .proc | .other _ => none

def eventResult (event : Kevent) : IoResult :=
  if event.evError ∧ event.data ≠ 0 then .error (asI32 event.data) else .ok ()

def fdEventResult (event : Kevent) (interest : FdInterest) : IoResult :=
  match eventResult event with
  | .error errno => .error errno
  | .ok () =>
      if interest = .writable ∧ event.evEof ∧ event.fflags ≠ 0 then .error (asI32 event.fflags)
      else .ok ()

/-- The loop of `drain_wake_pipe` over what `read` answers.  After the answers that are given
the pipe is empty. -/
def drainLoop (wakes : Nat) : List (Except Int Nat) → Except Int Nat
  | [] => .ok wakes
  | .ok 0 :: _ => .ok wakes
  | .ok (n + 1) :: reads => drainLoop (saturatingAdd wakes (n + 1)) reads
  | .error errno :: reads =>
      if errno = eagain then .ok wakes
      else if errno = eintr then drainLoop wakes reads
      else .error errno

def drainWakePipe (reads : List (Except Int Nat)) : Except Int Nat :=
  (drainLoop 0 reads).map (max · 1)

structure ReadyEvents where
  wake : Bool := false
  timer : Bool := false
  io : Bool := false
  deriving DecidableEq, Repr

structure Driver where
  wakeReadFd : Int
  timerDeadline : Option Nat := none
  pendingWakes : Nat := 0
  pendingTimers : Nat := 0
  ioCompleted : Bool := false
  fds : Waiters FdKey := {}
  processes : Waiters Int := {}
  /-- The completions whose future is gone. -/
  uninterested : List Nat := []

/-- An event of a batch, with what `read` answers when it is of the wake pipe. -/
abbrev Delivery := Kevent × List (Except Int Nat)

structure Dispatch where
  driver : Driver
  ready : ReadyEvents := {}
  drainError : Option Int := none

def Dispatch.event (s : Dispatch) : Delivery → Dispatch
  | (event, reads) =>
      let d := s.driver
      if event.filter = .read ∧ asI32 event.ident = d.wakeReadFd then
        let s := { s with ready := { s.ready with wake := true } }
        match drainWakePipe reads with
        | .ok wakes =>
            { s with driver := { d with pendingWakes := saturatingAdd d.pendingWakes wakes } }
        | .error errno => { s with drainError := s.drainError.or (some errno) }
      else
        match interestFromFilter event.filter with
        | some interest =>
            let fds := d.fds.complete ⟨asI32 event.ident, interest⟩ (fdEventResult event interest)
            { s with
              ready := { s.ready with io := true }
              driver := { d with ioCompleted := true, fds } }
        | none =>
            if event.filter = .proc then
              let processes := d.processes.complete (asI32 event.ident) (eventResult event)
              { s with
                ready := { s.ready with io := true }
                driver := { d with ioCompleted := true, processes } }
            else
              s

/-- The key of an event of a descriptor, and what its waiters are told. -/
def fdDelivery (wakeReadFd : Int) (delivery : Delivery) : Option (FdKey × IoResult) :=
  if delivery.1.filter = .read ∧ asI32 delivery.1.ident = wakeReadFd then none
  else
    (interestFromFilter delivery.1.filter).map fun interest =>
      (⟨asI32 delivery.1.ident, interest⟩, fdEventResult delivery.1 interest)

/-- The process of an event, and what its waiters are told. -/
def processDelivery (delivery : Delivery) : Option (Int × IoResult) :=
  if delivery.1.filter = .proc then some (asI32 delivery.1.ident, eventResult delivery.1) else none

namespace Driver

variable (d : Driver)

def interested (completion : Nat) : Bool := !d.uninterested.contains completion

/-- The one-shot registrations of a batch are gone from the kernel. -/
def dequeue (batch : List Delivery) : Driver :=
  { d with
    fds := d.fds.dequeue ((batch.filterMap (fdDelivery d.wakeReadFd)).map Prod.fst)
    processes := d.processes.dequeue ((batch.filterMap processDelivery).map Prod.fst) }

/-- The end of `process`: the timer. -/
def checkTimer (ready : ReadyEvents) (sawAny : Bool) (now : Except Int Nat) :
    Driver × Except Int (Option ReadyEvents) :=
  let answer (ready : ReadyEvents) (sawAny : Bool) := if sawAny then some ready else none
  match d.timerDeadline with
  | none => (d, .ok (answer ready sawAny))
  | some deadline =>
      match now with
      | .error errno => (d, .error errno)
      | .ok now =>
          if deadline ≤ now then
            ({ d with
                timerDeadline := none
                pendingTimers := saturatingAdd d.pendingTimers 1 },
              .ok (answer { ready with timer := true } true))
          else
            (d, .ok (answer ready sawAny))

/-- `process`, with the answers of `kevent` and of the clock. -/
def process (polled : Except Int (List Delivery)) (now : Except Int Nat) :
    Driver × Except Int (Option ReadyEvents) :=
  match polled with
  | .error errno => if errno ≠ eintr then (d, .error errno) else d.checkTimer {} false now
  | .ok batch =>
      let s := batch.foldl Dispatch.event { driver := d.dequeue batch }
      match s.drainError with
      | some errno => (s.driver, .error errno)
      | none => s.driver.checkTimer s.ready (!batch.isEmpty) now

def poll (polled : Except Int (List Delivery)) (now : Except Int Nat) :
    Driver × Except Int (Option ReadyEvents) :=
  let pending : ReadyEvents :=
    { wake := 0 < d.pendingWakes, timer := 0 < d.pendingTimers, io := d.ioCompleted }
  let d := { d with ioCompleted := false }
  if pending.wake || pending.timer || pending.io then (d, .ok (some pending))
  else
    let (d, ready) := d.process polled now
    ({ d with ioCompleted := false }, ready)

/-- `wait`: the first reading of the clock is for the timeout. -/
def wait (start : Except Int Nat) (polled : Except Int (List Delivery)) (now : Except Int Nat) :
    Driver × Except Int Unit :=
  match start with
  | .error errno => (d, .error errno)
  | .ok _ =>
      let (d, ready) := d.process polled now
      (d, ready.map fun _ => ())

def rearmTimer (deadline : Option Nat) : Driver := { d with timerDeadline := deadline }

def drainWake : Driver × Option Nat :=
  ({ d with pendingWakes := 0 }, if d.pendingWakes = 0 then none else some d.pendingWakes)

def drainTimer : Driver × Option Nat :=
  ({ d with pendingTimers := 0 }, if d.pendingTimers = 0 then none else some d.pendingTimers)

def registerFdReadiness (fd : Int) (interest : FdInterest) (completion : Nat)
    (answer : IoResult) : Driver × Registration :=
  let (fds, outcome) := d.fds.register d.interested ⟨fd, interest⟩ completion answer
  ({ d with fds }, outcome)

def cancelFdReadiness (token : Nat) (answer : IoResult) : Driver :=
  { d with fds := d.fds.cancel token answer }

def registerProcessExit (pid : Int) (completion : Nat) (answer : IoResult) :
    Driver × Registration :=
  let (processes, outcome) := d.processes.register d.interested pid completion answer
  ({ d with processes }, outcome)

def cancelProcessExit (token : Nat) (answer : IoResult) : Driver :=
  { d with processes := d.processes.cancel token answer }

/-- A future is gone, and its completion has no use any more. -/
def loseInterest (completion : Nat) : Driver :=
  { d with uninterested := completion :: d.uninterested }

/-- A descriptor is closed: its registrations are gone from the kernel. -/
def closeFd (fd : Int) : Driver :=
  { d with fds := { d.fds with registered := d.fds.registered.filter fun key => key.fd ≠ fd } }

end Driver

/-! ## The system -/

/-- A call of the driver with what the kernel answers, or what happens around it. -/
inductive Action
  | registerFdReadiness (fd : Int) (interest : FdInterest) (completion : Nat) (answer : IoResult)
  | cancelFdReadiness (token : Nat) (answer : IoResult)
  | registerProcessExit (pid : Int) (completion : Nat) (answer : IoResult)
  | cancelProcessExit (token : Nat) (answer : IoResult)
  | poll (polled : Except Int (List Delivery)) (now : Except Int Nat)
  | wait (start : Except Int Nat) (polled : Except Int (List Delivery)) (now : Except Int Nat)
  | rearmTimer (deadline : Option Nat)
  | drainWake
  | drainTimer
  | loseInterest (completion : Nat)
  | closeFd (fd : Int)

def step (d : Driver) : Action → Option Driver
  | .registerFdReadiness fd interest completion answer =>
      some (d.registerFdReadiness fd interest completion answer).1
  | .cancelFdReadiness token answer => some (d.cancelFdReadiness token answer)
  | .registerProcessExit pid completion answer =>
      some (d.registerProcessExit pid completion answer).1
  | .cancelProcessExit token answer => some (d.cancelProcessExit token answer)
  | .poll polled now => some (d.poll polled now).1
  | .wait start polled now => some (d.wait start polled now).1
  | .rearmTimer deadline => some (d.rearmTimer deadline)
  | .drainWake => some d.drainWake.1
  | .drainTimer => some d.drainTimer.1
  | .loseInterest completion => some (d.loseInterest completion)
  | .closeFd fd => some (d.closeFd fd)

/-- The read end of the wake pipe is the driver's own, and a descriptor stays open while a
future waits for it. -/
def Allowed (d : Driver) : Action → Prop
  | .registerFdReadiness fd _ _ _ => fd ≠ d.wakeReadFd
  | .closeFd fd =>
      ∀ w ∈ d.fds.get ⟨fd, .readable⟩ ++ d.fds.get ⟨fd, .writable⟩,
        d.interested w.completion = false
  | _ => True

instance (d : Driver) (a : Action) : Decidable (Allowed d a) := by
  unfold Allowed
  split <;> infer_instance

/-- The states of a driver whose wake pipe is read at `wakeReadFd`. -/
def Reachable (wakeReadFd : Int) (d : Driver) : Prop :=
  Transition.Reachable step Allowed { wakeReadFd } d

end Runite.Macos
