import Runite.Io.Operation

/-!
# Reading a directory

`fs::ReadDirShared`: a producer that pulls the entries of a directory iterator
on the blocking pool, batch by batch, and a consumer that polls for them.  The
functions of `Queue` are the lock sections of the source; between them a thread
calls the iterator, the scheduler, or a waker.

The iterator and the scheduler belong to the environment: what `open`, `next`
and `schedule` answer is part of the action.
-/

namespace Runite.Fs.ReadDir

open Runite.Io

variable {α : Type}

/-! ## The shared state -/

/-- `ReadDirSource`. -/
inductive Source
  | «open»
  | entries
  deriving DecidableEq

/-- A stored waker.  The serial number tells the polls apart that stored it. -/
structure Parked where
  serial : Nat
  waker : Waker
  deriving DecidableEq

/-- `ReadDirQueue`. -/
structure Queue (α : Type) where
  source : Option Source := some .open
  entries : List (Except IoError α) := []
  terminalError : Option IoError := none
  waker : Option Parked := none
  batchActive : Bool := false
  refillRequested : Bool := false
  done : Bool := false
  cancelled : Bool := false
  deriving DecidableEq

/-- What a pass of the loop of `poll_next` finds. -/
inductive Pass (α : Type)
  /-- an entry, and whether a refill is due -/
  | entry (entry : Except IoError α) (refill : Bool)
  | error (error : IoError)
  | finished
  /-- nothing yet: the waker has been stored -/
  | parked
  deriving DecidableEq

/-- What a lock section of the producer finds. -/
inductive Section (β : Type)
  /-- the scan is over -/
  | stop
  | go (value : β)
  deriving DecidableEq

namespace Queue

variable (q : Queue α)

/-- The lock section of `poll_next`. -/
def pollNext (capacity : Nat) (parked : Parked) : Queue α × Pass α :=
  match q.entries with
  | entry :: entries =>
      ({ q with entries },
        .entry entry (!q.done && entries.length ≤ capacity / 2))
  | [] =>
      match q.terminalError with
      | some error => ({ q with terminalError := none }, .error error)
      | none => if q.done then (q, .finished) else ({ q with waker := some parked }, .parked)

/-- The lock section of `complete`. -/
def complete (error : Option IoError) : Queue α × Option Parked :=
  if q.done then (q, none)
  else
    let finished := { q with
      done := true, batchActive := false, refillRequested := false, source := none }
    if q.cancelled then (finished, none)
    else ({ finished with terminalError := error, waker := none }, q.waker)

/-- The lock section of `cancel`, which leaves nothing of what was there. -/
def cancel (_ : Queue α) : Queue α :=
  { source := none, entries := [], terminalError := none, waker := none,
    batchActive := false, refillRequested := false, done := true, cancelled := true }

/-- The lock section of `request_batch`, and whether it goes on to `submit_batch`. -/
def requestBatch : Queue α × Bool :=
  if q.done || q.cancelled then (q, false)
  else if q.batchActive then ({ q with refillRequested := true }, false)
  else if q.source.isNone then (q, false)
  else ({ q with batchActive := true, refillRequested := false }, true)

def deferFailedRefill (error : IoError) : Queue α × Bool :=
  if error.kind ≠ .wouldBlock then (q, false)
  else if q.done || q.cancelled || q.entries.isEmpty then (q, false)
  else ({ q with batchActive := false, refillRequested := true }, true)

/-- The first lock section of `run_batch_inner`. -/
def takeSource : Queue α × Section (Option Source) :=
  if q.done || q.cancelled then ({ q with batchActive := false }, .stop)
  else ({ q with source := none }, .go q.source)

/-- The lock section before the iterator is asked; whether there is room. -/
def checkRoom (capacity : Nat) : Queue α × Section Bool :=
  if q.done || q.cancelled then ({ q with batchActive := false }, .stop)
  else (q, .go (q.entries.length < capacity))

/-- The lock section that takes an entry of the iterator, with the waker to wake. -/
def push (entry : Except IoError α) : Queue α × Section (Option Parked) :=
  if q.done || q.cancelled then ({ q with batchActive := false }, .stop)
  else ({ q with entries := q.entries ++ [entry], waker := none }, .go q.waker)

/-- The lock section of `finish_batch`, and whether it goes on to `submit_batch`. -/
def finishBatch (capacity : Nat) : Queue α × Bool :=
  if q.done || q.cancelled then ({ q with batchActive := false }, false)
  else
    let restored := { q with source := some .entries, batchActive := false }
    if q.refillRequested && q.entries.length < capacity then
      ({ restored with batchActive := true, refillRequested := false }, true)
    else (restored, false)

end Queue

/-! ## The threads -/

/-- Where a thread is in `request_batch`, `submit_batch` or `complete`. -/
inductive Routine
  /-- before the lock section of `request_batch` -/
  | request
  /-- before the call of the scheduler -/
  | submit
  /-- the scheduler refused; before `defer_failed_refill` -/
  | defer (error : IoError)
  /-- before the lock section of `complete` -/
  | complete (error : Option IoError)
  /-- before `complete` wakes the waker it took -/
  | wake (parked : Option Parked)
  /-- before `release_pending` -/
  | release
  deriving DecidableEq

/-- Where a batch is in `run_batch`; a batch that has returned is gone.  `left` is the number of
turns of the loop that are left. -/
inductive Batch (α : Type)
  /-- on the pool, or before its first lock section -/
  | queued
  /-- in `open` -/
  | opening
  /-- before `check_room` -/
  | checking (left : Nat)
  /-- in `next` of the iterator -/
  | pulling (left : Nat)
  /-- has an entry -/
  | pushing (entry : Except IoError α) (left : Nat)
  /-- before it wakes the waker it took -/
  | waking (parked : Option Parked) (left : Nat)
  /-- before the lock section of `finish_batch` -/
  | finishing
  /-- in `submit_batch` of `finish_batch` -/
  | submitting (routine : Routine)
  /-- in `complete` -/
  | completing (routine : Routine)
  deriving DecidableEq

inductive Consumer (α : Type)
  /-- in `request_batch` of `read_dir_channel` -/
  | creating (routine : Routine)
  /-- between polls; the serial number of the waker if the last one returned `Pending` -/
  | idle (pending : Option Nat)
  /-- at the top of the loop of `poll_next` -/
  | polling (waker : Waker)
  /-- has taken an entry out, and requests a refill before it returns it -/
  | refilling (entry : Except IoError α) (routine : Routine)
  /-- has stored its waker, and requests a batch -/
  | awaiting (waker : Waker) (serial : Nat) (routine : Routine)
  /-- before the lock section of `cancel` -/
  | cancelling
  /-- before `release_pending` of `cancel` -/
  | releasing
  | dropped
  deriving DecidableEq

inductive Answer (α : Type)
  | entry (entry : Except IoError α)
  /-- the error that ends the scan -/
  | error (error : IoError)
  /-- `Ok(None)` -/
  | finished
  deriving DecidableEq

/-- The shared state and its threads.  `pending` is the liveness token and `released` the number
of times it was given back.  The last fields are history: the entries that the iterator gave,
whether it came to its end, what polls returned, the wakers that were woken, and the number of
wakers that were stored. -/
structure World (α : Type) where
  queue : Queue α := {}
  pending : Bool := true
  released : Nat := 0
  jobs : List (Batch α) := []
  consumer : Consumer α := .creating .request
  pulled : List (Except IoError α) := []
  exhausted : Bool := false
  answers : List (Answer α) := []
  woken : List Nat := []
  serial : Nat := 0
  deriving DecidableEq

/-- What the environment answers to a batch. -/
inductive Event (α : Type)
  /-- nothing but the shared state is looked at -/
  | turn
  | opened (result : Except IoError Unit)
  | next (item : Option (Except IoError α))
  /-- the scheduler accepts, or refuses with this error -/
  | scheduled (refused : Option IoError)
  | panics
  deriving DecidableEq

/-- The error of a batch that finds no iterator. -/
def lostError : IoError := { kind := .other 0, message := "read_dir producer lost its iterator state" }

def panicError : IoError := { kind := .other 0, message := "read_dir producer batch panicked" }

namespace World

variable (w : World α)

def releasePending : World α :=
  if w.pending then { w with pending := false, released := w.released + 1 } else w

def wake (parked : Option Parked) : World α :=
  { w with woken := w.woken ++ (parked.map Parked.serial).toList }

/-- The next step of a thread within `request_batch`, `submit_batch` or `complete`: where it goes,
or what it returns.  `refused` is what the scheduler answers if it is asked. -/
def perform (refused : Option IoError) : Routine → World α × (Routine ⊕ Bool)
  | .request =>
      let (queue, submit) := w.queue.requestBatch
      ({ w with queue }, if submit then .inl .submit else .inr true)
  | .submit =>
      match refused with
      | none => ({ w with jobs := w.jobs ++ [.queued] }, .inr true)
      | some error => (w, .inl (.defer error))
  | .defer error =>
      let (queue, deferred) := w.queue.deferFailedRefill error
      ({ w with queue }, if deferred then .inr false else .inl (.complete (some error)))
  | .complete error =>
      let (queue, parked) := w.queue.complete error
      ({ w with queue }, .inl (.wake parked))
  | .wake parked => (w.wake parked, .inl .release)
  | .release => (w.releasePending, .inr false)

def answer (answer : Answer α) : World α :=
  { w with answers := w.answers ++ [answer], consumer := .idle none }

def advance (capacity : Nat) (refused : Option IoError) : Option (World α) :=
  match w.consumer with
  | .creating routine =>
      some (match w.perform refused routine with
        | (w, .inl routine) => { w with consumer := .creating routine }
        | (w, .inr true) => { w with consumer := .idle none }
        | (w, .inr false) => { w with consumer := .cancelling })
  | .polling waker =>
      some (match w.queue.pollNext capacity ⟨w.serial, waker⟩ with
        | (queue, .entry entry true) => { w with queue, consumer := .refilling entry .request }
        | (queue, .entry entry false) => { w with queue }.answer (.entry entry)
        | (queue, .error error) => { w with queue }.answer (.error error)
        | (queue, .finished) => { w with queue }.answer .finished
        | (queue, .parked) =>
            { w with
              queue
              serial := w.serial + 1
              consumer := .awaiting waker w.serial .request })
  | .refilling entry routine =>
      some (match w.perform refused routine with
        | (w, .inl routine) => { w with consumer := .refilling entry routine }
        | (w, .inr _) => w.answer (.entry entry))
  | .awaiting waker serial routine =>
      some (match w.perform refused routine with
        | (w, .inl routine) => { w with consumer := .awaiting waker serial routine }
        | (w, .inr true) => { w with consumer := .idle (some serial) }
        | (w, .inr false) => { w with consumer := .polling waker })
  | .cancelling => some { w with queue := w.queue.cancel, consumer := .releasing }
  | .releasing => some { w.releasePending with consumer := .dropped }
  | .idle _ | .dropped => none

def setJob (index : Nat) (job : Batch α) : World α := { w with jobs := w.jobs.set index job }

def endJob (index : Nat) : World α := { w with jobs := w.jobs.eraseIdx index }

/-- The next step of the batch `job`, at `index`. -/
def runBatch (capacity index : Nat) : Batch α → Event α → Option (World α)
  | .queued, .turn =>
      some (match w.queue.takeSource with
        | (queue, .stop) => { w with queue }.endJob index
        | (queue, .go none) =>
            { w with queue }.setJob index (.completing (.complete (some lostError)))
        | (queue, .go (some .open)) => { w with queue }.setJob index .opening
        | (queue, .go (some .entries)) => { w with queue }.setJob index (.checking capacity))
  | .opening, .opened (.ok ()) => some (w.setJob index (.checking capacity))
  | .opening, .opened (.error error) =>
      some (w.setJob index (.completing (.complete (some error))))
  -- the guard of a batch that panics in `open` or in the iterator
  | .opening, .panics | .pulling _, .panics =>
      some (w.setJob index (.completing (.complete (some panicError))))
  | .checking 0, .turn => some (w.setJob index .finishing)
  | .checking (left + 1), .turn =>
      some (match w.queue.checkRoom capacity with
        | (queue, .stop) => { w with queue }.endJob index
        | (queue, .go true) => { w with queue }.setJob index (.pulling left)
        | (queue, .go false) => { w with queue }.setJob index .finishing)
  | .pulling _, .next none =>
      some ({ w with exhausted := true }.setJob index (.completing (.complete none)))
  | .pulling left, .next (some entry) =>
      some ({ w with pulled := w.pulled ++ [entry] }.setJob index (.pushing entry left))
  | .pushing entry left, .turn =>
      some (match w.queue.push entry with
        | (queue, .stop) => { w with queue }.endJob index
        | (queue, .go parked) => { w with queue }.setJob index (.waking parked left))
  | .waking parked left, .turn => some ((w.wake parked).setJob index (.checking left))
  | .finishing, .turn =>
      some (match w.queue.finishBatch capacity with
        | (queue, true) => { w with queue }.setJob index (.submitting .submit)
        | (queue, false) => { w with queue }.endJob index)
  | .submitting routine, .scheduled refused =>
      some (match w.perform refused routine with
        | (w, .inl routine) => w.setJob index (.submitting routine)
        | (w, .inr _) => w.endJob index)
  | .completing routine, .turn =>
      some (match w.perform none routine with
        | (w, .inl routine) => w.setJob index (.completing routine)
        | (w, .inr _) => w.endJob index)
  | _, _ => none

inductive Action (α : Type)
  /-- `poll_next` is called -/
  | poll (waker : Waker)
  /-- the consumer goes on; what the scheduler answers if it is asked -/
  | consumer (refused : Option IoError)
  /-- the consumer is dropped -/
  | drop
  | batch (index : Nat) (event : Event α)
  deriving DecidableEq

def step (capacity : Nat) (w : World α) : Action α → Option (World α)
  | .poll waker =>
      match w.consumer with
      | .idle _ => some { w with consumer := .polling waker }
      | _ => none
  | .consumer refused => w.advance capacity refused
  | .drop =>
      match w.consumer with
      | .idle _ => some { w with consumer := .cancelling }
      | _ => none
  | .batch index event => w.jobs[index]?.bind fun job => w.runBatch capacity index job event

end World

end Runite.Fs.ReadDir
