import Runite.Lib.Transition
import Runite.Linux.DriverTimer
import Runite.Linux.Uring

/-!
# The Linux driver

`Driver` of `platform::linux::driver` over its ring: operations with and without a linked
timeout, their cancellation, the timer, `poll`, `wait` and `quiesce_operations`.  Submission is
deferred to the next `poll` or `wait`, or immediate.  What the kernel does during a call is given
with the call: the results of `io_uring_enter` and the completions that it posts.
-/

namespace Runite.Linux

/-- The `user_data` of an entry: the token of a wake by another thread, or a token of this driver. -/
inductive UserData
  | wake
  | token (token : Token)
  deriving DecidableEq, Repr

abbrev Cqe := IoUringCqe UserData

structure ReadyEvents where
  timer : Bool := false
  wake : Bool := false
  io : Bool := false
  deriving DecidableEq, Repr

inductive DriverError
  | shuttingDown
  | unsupported (opcode : Opcode)
  | staging
  | submit (error : SubmitError)
  | timedOut
  deriving DecidableEq, Repr

/-- A call of `submit_pending`: the results of `io_uring_enter` in it, and the completions that
the kernel posts until the call returns. -/
structure Round where
  results : List (Except Nat Nat) := []
  posted : List Cqe := []

/-- The driver.  `completions` has the tokens whose callbacks are registered.  `wakeFcntl` gives
the results of `fcntl` for the polls of the eventfd, and `eventfd` is its counter.  The last four
fields are the history: the completions that the kernel has posted, the failures that were
returned by `submit_pending`, the callbacks that were invoked, and what the calls that submit an
operation have returned. -/
structure Driver where
  ring : IoUring UserData
  supports : Opcode → Bool := fun _ => true
  deferSubmissions : Bool := true
  eventfdWakeActive : Bool := false
  eventfd : Nat := 0
  wakeFd : Int := 0
  wakeFcntl : Nat → Option Nat := fun _ => none
  wakePolls : Nat := 0
  shuttingDown : Bool := false
  nextToken : Nat := 1
  timer : DriverTimer := {}
  pendingWakes : Nat := 0
  ioCompleted : Bool := false
  completions : List Token := []
  pendingCancelTokens : List (Token × Token) := []
  posted : List Cqe := []
  failed : List Cqe := []
  invoked : List (Token × Int) := []
  returned : List (Token × Bool) := []

namespace Driver

variable (d : Driver)

/-! ## The kernel -/

/-- How many entries with a `user_data` the kernel has accepted. -/
def acceptedCount (userData : UserData) : Nat :=
  d.ring.accepted.countP fun sqe => sqe.any fun sqe => sqe.userData = userData

def postedCount (userData : UserData) : Nat :=
  d.posted.countP fun cqe => cqe.userData = userData

/-- The kernel posts one completion for an entry that it has accepted; a wake comes from the ring
of another thread. -/
def post (cqe : Cqe) : Option Driver :=
  if cqe.userData = .wake ∨ d.postedCount cqe.userData < d.acceptedCount cqe.userData then
    (d.ring.post cqe).map fun ring => { d with ring, posted := d.posted ++ [cqe] }
  else none

def postAll : Driver → List Cqe → Option Driver
  | d, [] => some d
  | d, cqe :: cqes => (d.post cqe).bind fun d => postAll d cqes

/-! ## Completions -/

def etime : Int := 62

/-- The poll of the eventfd is staged again, if its descriptor can be duplicated. -/
def rearmWake : Driver :=
  { d with
    ring := (d.ring.pushSqe { opcode := .pollAdd, fd := d.wakeFd, userData := .wake }
      (d.wakeFcntl d.wakePolls)).getD d.ring
    wakePolls := d.wakePolls + 1
    eventfd := 0 }

/-- `process_cqe` of a wake -/
def processWake (ready : ReadyEvents) (res : Int) : Driver × ReadyEvents :=
  let wakes := if d.eventfdWakeActive then d.eventfd else (max res 1).toNat
  let d := if d.eventfdWakeActive then d.rearmWake else d
  ({ d with pendingWakes := min (d.pendingWakes + wakes) (2 ^ 64 - 1) },
    { ready with wake := ready.wake || wakes ≠ 0 })

/-- `process_cqe` of an operation: its callback is taken out of the table and invoked. -/
def processOperation (ready : ReadyEvents) (token : Token) (res : Int) : Driver × ReadyEvents :=
  if token ∈ d.completions then
    ({ d with
      completions := d.completions.erase token
      ioCompleted := true
      invoked := d.invoked ++ [(token, res)] },
      { ready with io := true })
  else (d, ready)

def processCqe (ready : ReadyEvents) (cqe : Cqe) : Driver × ReadyEvents :=
  match cqe.userData with
  | .wake => d.processWake ready cqe.res
  | .token token =>
      match token.kind with
      | .timer =>
          ({ d with timer := d.timer.processTimer token (cqe.res = -etime) },
            { ready with timer := ready.timer || cqe.res = -etime })
      | .operation => d.processOperation ready token cqe.res
      | .operationCancel =>
          ({ d with
            pendingCancelTokens := d.pendingCancelTokens.filter fun entry => entry.1 ≠ token },
            ready)
      | .timerRemove | .notifySend | .linkedTimeout => (d, ready)

def processAll : Driver → ReadyEvents → List Cqe → Driver × ReadyEvents
  | d, ready, [] => (d, ready)
  | d, ready, cqe :: cqes =>
      let processed := d.processCqe ready cqe
      processAll processed.1 processed.2 cqes

/-- `drain_completions` with `process_cqe`, and whether there were completions -/
def drain (ready : ReadyEvents) : Driver × ReadyEvents × Bool :=
  let drained := d.ring.drainCompletions.2
  let processed := processAll { d with ring := d.ring.drainCompletions.1 } ready drained
  (processed.1, processed.2, !drained.isEmpty)

/-! ## Submission -/

def failuresOf : Except SubmitError (SubmitOutcome UserData) → List Cqe
  | .ok outcome => outcome.failures
  | .error _ => []

/-- How a pass of the loop of `flush_submissions` ends. -/
inductive Pass
  | again (d : Driver) (ready : ReadyEvents) (sawAny : Bool) (transientRetries : Nat)
  | done (d : Driver) (ready : ReadyEvents) (result : Except DriverError Bool)

/-- What follows a submission that is to be repeated. -/
def passRetry (waitForCqe : Bool) (ready : ReadyEvents) (sawAny : Bool) (transientRetries : Nat) :
    Pass :=
  let drained := d.drain ready
  let sawAny := sawAny || drained.2.2
  if waitForCqe && drained.2.2 then .done drained.1 drained.2.1 (.ok true)
  else if !waitForCqe && !drained.2.2 && transientRetries + 1 ≥ 2 then
    .done drained.1 drained.2.1 (.ok sawAny)
  else .again drained.1 drained.2.1 sawAny (transientRetries + 1)

/-- What follows any other submission.  `hadPending` and `combinedWait` are from before it. -/
def passSubmitted (waitForCqe hadPending combinedWait : Bool) (ready : ReadyEvents) (sawAny : Bool)
    (transientRetries : Nat) (submitted : Nat) : Option Nat → Pass
  | some errno =>
      .done { d with timer := { d.timer with activeTimerDeadline := none } } ready
        (.error (.submit (.enter errno)))
  | none =>
      if d.ring.hasPendingSubmissions then
        if submitted = 0 then .done d ready (.ok sawAny)
        else .again d ready sawAny transientRetries
      else if waitForCqe && hadPending && !combinedWait && !sawAny then
        .again d ready sawAny transientRetries
      else .done d ready (.ok sawAny)

/-- A pass after `submit_pending` has returned: its failures are processed first. -/
def passOutcome (waitForCqe hadPending combinedWait : Bool) (ready : ReadyEvents) (sawAny : Bool)
    (transientRetries : Nat) : Except SubmitError (SubmitOutcome UserData) → Pass
  | .error error => .done d ready (.error (.submit error))
  | .ok outcome =>
      let sawAny := sawAny || !outcome.failures.isEmpty
      let processed := processAll d ready outcome.failures
      if outcome.retry then
        processed.1.passRetry waitForCqe processed.2 sawAny transientRetries
      else
        processed.1.passSubmitted waitForCqe hadPending combinedWait processed.2 sawAny
          transientRetries outcome.submitted outcome.error

/-- A pass of the loop of `flush_submissions` -/
def flushPass (waitForCqe : Bool) (ready : ReadyEvents) (sawAny : Bool) (transientRetries : Nat)
    (round : Round) : Option Pass :=
  let hadPending := d.ring.hasPendingSubmissions
  let combinedWait := waitForCqe && hadPending && d.ring.submitAll
  (d.ring.submitPending waitForCqe round.results).bind fun submission =>
    ({ d with
      ring := submission.1
      failed := d.failed ++ failuresOf submission.2.1 }.postAll round.posted).map fun d : Driver =>
        d.passOutcome waitForCqe hadPending combinedWait ready sawAny transientRetries
          submission.2.1

/-- The loop of `flush_submissions`.  It gives `none` if it does not end within the rounds. -/
def flushLoop (waitForCqe : Bool) :
    Driver → ReadyEvents → Bool → Nat → List Round →
      Option (Driver × ReadyEvents × Except DriverError Bool)
  | _, _, _, _, [] => none
  | d, ready, sawAny, transientRetries, round :: rounds =>
      (d.flushPass waitForCqe ready sawAny transientRetries round).bind fun
        | .again d ready sawAny transientRetries =>
            flushLoop waitForCqe d ready sawAny transientRetries rounds
        | .done d ready result => some (d, ready, result)

def flushSubmissions (waitForCqe : Bool) (ready : ReadyEvents) (rounds : List Round) :
    Option (Driver × ReadyEvents × Except DriverError Bool) :=
  flushLoop waitForCqe d ready false 0 rounds

def flushIfImmediate (rounds : List Round) : Option (Driver × Except DriverError Unit) :=
  if d.deferSubmissions then some (d, .ok ())
  else
    (d.flushSubmissions false {} rounds).map fun (d, _, result) => (d, result.map fun _ => ())

/-! ## Calls -/

/-- The end of a call that submits an operation, with what it returns. -/
def finishSubmit (token : Token) (rounds : List Round) :
    Option (Driver × Except DriverError Token) :=
  (d.flushIfImmediate rounds).map fun (d, result) =>
    match result with
    | .ok () => ({ d with returned := d.returned ++ [(token, true)] }, .ok token)
    | .error error => ({ d with returned := d.returned ++ [(token, false)] }, .error error)

def submitOperation (opcode : Opcode) (fd : Int) (duplicated : Option Nat) (rounds : List Round) :
    Option (Driver × Except DriverError Token) :=
  if d.shuttingDown then some (d, .error .shuttingDown)
  else if d.supports opcode = false then some (d, .error (.unsupported opcode))
  else
    let token : Token := ⟨.operation, d.nextToken⟩
    let d := { d with nextToken := d.nextToken + 1, completions := d.completions ++ [token] }
    match d.ring.pushSqe { opcode, fd, userData := .token token } duplicated with
    | none =>
        some ({ d with
          completions := d.completions.erase token
          returned := d.returned ++ [(token, false)] }, .error .staging)
    | some ring => { d with ring }.finishSubmit token rounds

def submitOperationWithLinkedTimeout (opcode : Opcode) (fd : Int) (duplicated : Option Nat)
    (rounds : List Round) : Option (Driver × Except DriverError Token) :=
  if d.shuttingDown then some (d, .error .shuttingDown)
  else if d.supports opcode = false then some (d, .error (.unsupported opcode))
  else
    let mainToken : Token := ⟨.operation, d.nextToken⟩
    let timeoutToken : Token := ⟨.linkedTimeout, d.nextToken + 1⟩
    let d := { d with nextToken := d.nextToken + 2, completions := d.completions ++ [mainToken] }
    match d.ring.submitLinkedWithTimeout (.token mainToken) opcode fd (.token timeoutToken)
        duplicated with
    | none =>
        some ({ d with
          completions := d.completions.erase mainToken
          returned := d.returned ++ [(mainToken, false)] }, .error .staging)
    | some ring => { d with ring }.finishSubmit mainToken rounds

/-- `stage_cancel_operation`; the entry has no descriptor that could fail to be duplicated. -/
def stageCancelOperation (token : Token) : Driver × Except DriverError Unit :=
  let cancelToken : Token := ⟨.operationCancel, d.nextToken⟩
  let d := { d with nextToken := d.nextToken + 1 }
  match d.ring.pushSqe { opcode := .asyncCancel, userData := .token cancelToken } none with
  | some ring =>
      ({ d with ring, pendingCancelTokens := d.pendingCancelTokens ++ [(cancelToken, token)] },
        .ok ())
  | none => (d, .error .staging)

def cancelOperation (token : Token) (rounds : List Round) :
    Option (Driver × Except DriverError Unit) :=
  match d.stageCancelOperation token with
  | (d, .error error) => some (d, .error error)
  | (d, .ok ()) => d.flushIfImmediate rounds

/-- The entries of `rearm_timer` are staged. -/
def stageTimerSqes : IoUring UserData → List TimerSqe → Option (IoUring UserData)
  | ring, [] => some ring
  | ring, .timeout token _ :: sqes =>
      (ring.pushSqe { opcode := .timeout, userData := .token token } none).bind fun ring =>
        stageTimerSqes ring sqes
  | ring, .timeoutRemove _ completion :: sqes =>
      (ring.pushSqe { opcode := .timeoutRemove, userData := .token completion } none).bind fun ring =>
        stageTimerSqes ring sqes

def rearmTimer (deadline : Option Nat) (rounds : List Round) :
    Option (Driver × Except DriverError Unit) :=
  let (timer, nextToken, sqes) := d.timer.rearmTimer d.nextToken deadline
  match stageTimerSqes d.ring sqes with
  | none => some (d, .error .staging)
  | some ring =>
      let d' := { d with ring, timer, nextToken }
      -- an unchanged deadline is not even flushed
      if d.timer.activeTimerDeadline = deadline then some (d', .ok ())
      else d'.flushIfImmediate rounds

def poll (rounds : List Round) : Option (Driver × Except DriverError (Option ReadyEvents)) :=
  let ready : ReadyEvents :=
    { timer := d.timer.pendingTimers ≠ 0, wake := d.pendingWakes ≠ 0, io := d.ioCompleted }
  let hadDurableReady := ready.timer || ready.wake || ready.io
  (d.flushSubmissions false ready rounds).map fun (d, ready, result) =>
    match result with
    | .error error => (d, .error error)
    | .ok sawSubmission =>
        let drained := d.drain ready
        ({ drained.1 with ioCompleted := false },
          .ok (if hadDurableReady || sawSubmission || drained.2.2 then some drained.2.1 else none))

def wait (rounds : List Round) : Option (Driver × Except DriverError Unit) :=
  (d.flushSubmissions true {} rounds).map fun (d, _, result) => (d, result.map fun _ => ())

def drainTimer : Driver := { d with timer := d.timer.drainTimer }

def drainWake : Driver := { d with pendingWakes := 0 }

/-- The cancellations that `quiesce_operations` stages -/
def stageCancels : Driver → List Token → Driver × Except DriverError Unit
  | d, [] => (d, .ok ())
  | d, token :: tokens =>
      if d.pendingCancelTokens.any fun entry => entry.2 = token then stageCancels d tokens
      else
        match d.stageCancelOperation token with
        | (d, .error error) => (d, .error error)
        | (d, .ok ()) => stageCancels d tokens

/-- The loop of `quiesce_operations`: the rounds of each flush, and whether the deadline has
passed after it. -/
def quiesceLoop : Driver → List (List Round × Bool) → Option (Driver × Except DriverError Unit)
  | _, [] => none
  | d, (rounds, late) :: turns =>
      (d.flushSubmissions false {} rounds).bind fun (d, ready, result) =>
        match result with
        | .error error => some (d, .error error)
        | .ok _ =>
            let d := (d.drain ready).1
            if d.completions = [] then some (d, .ok ())
            else if late then some (d, .error .timedOut)
            else quiesceLoop d turns

/-- `quiesce_operations`, with the order in which the table gives its keys -/
def quiesceOperations (keys : List Token) (turns : List (List Round × Bool)) :
    Option (Driver × Except DriverError Unit) :=
  if d.completions = [] then some (d, .ok ())
  else
    match d.stageCancels keys with
    | (d, .error error) => some (d, .error error)
    | (d, .ok ()) => quiesceLoop d turns

end Driver

/-! ## Runs -/

inductive DriverAction
  | submitOperation (opcode : Opcode) (fd : Int) (duplicated : Option Nat) (rounds : List Round)
  | submitOperationWithLinkedTimeout (opcode : Opcode) (fd : Int) (duplicated : Option Nat)
      (rounds : List Round)
  | cancelOperation (token : Token) (rounds : List Round)
  | rearmTimer (deadline : Option Nat) (rounds : List Round)
  | poll (rounds : List Round)
  | wait (rounds : List Round)
  | drainTimer
  | drainWake
  /-- the kernel posts a completion between calls -/
  | post (cqe : Cqe)
  /-- another thread writes to the eventfd -/
  | notify
  /-- the driver is dropped -/
  | shutdown (keys : List Token) (turns : List (List Round × Bool))

namespace Driver

def step (d : Driver) : DriverAction → Option Driver
  | .submitOperation opcode fd duplicated rounds =>
      (d.submitOperation opcode fd duplicated rounds).map Prod.fst
  | .submitOperationWithLinkedTimeout opcode fd duplicated rounds =>
      (d.submitOperationWithLinkedTimeout opcode fd duplicated rounds).map Prod.fst
  | .cancelOperation token rounds => (d.cancelOperation token rounds).map Prod.fst
  | .rearmTimer deadline rounds => (d.rearmTimer deadline rounds).map Prod.fst
  | .poll rounds => (d.poll rounds).map Prod.fst
  | .wait rounds => (d.wait rounds).map Prod.fst
  | .drainTimer => some d.drainTimer
  | .drainWake => some d.drainWake
  | .post cqe => d.post cqe
  | .notify => some { d with eventfd := d.eventfd + 1 }
  | .shutdown keys turns =>
      if keys.Perm d.completions then
        ({ d with shuttingDown := true }.quiesceOperations keys turns).map Prod.fst
      else none

end Driver

end Runite.Linux
