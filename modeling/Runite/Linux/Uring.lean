import Runite.Lib.RingBuffer

/-!
# Submission to io_uring

`IoUring` of `platform::linux::uring`: batches of submission queue entries are staged in
`pending`, `submit_pending` publishes as many whole batches as the ring has room for and enters
the kernel, and `drain_completions` takes what the kernel has posted.  The memory of both rings
is modelled with its positions and masks; `accepted` and `published` are the kernel's side of it.
-/

namespace Runite.Linux

/-! ## Entries -/

inductive Opcode
  | nop | fsync | pollAdd | sendmsg | recvmsg | timeout | linkTimeout | timeoutRemove | accept
  | asyncCancel | connect | openat | close | statx | read | write | send | recv | shutdown
  | renameat | unlinkat | mkdirat | msgRing | socket | ftruncate | bind | listen
  | other (code : Nat)
  deriving DecidableEq, Repr

/-- The opcodes whose `fd` is a descriptor. -/
def Opcode.usesDescriptor : Opcode → Bool
  | fsync | pollAdd | sendmsg | recvmsg | accept | connect | openat | statx | read | write | send
  | recv | shutdown | renameat | unlinkat | mkdirat | msgRing | ftruncate | bind | listen => true
  | _ => false

/-- An entry, as far as the runtime looks at it; `link` is the flag `IOSQE_IO_LINK`. -/
structure IoUringSqe (τ : Type) where
  opcode : Opcode
  fd : Int := -1
  link : Bool := false
  userData : τ
  deriving DecidableEq, Repr

structure IoUringCqe (τ : Type) where
  userData : τ
  res : Int
  deriving DecidableEq, Repr

structure OwnedSqe (τ : Type) where
  sqe : IoUringSqe τ
  fd : Option Nat
  fdUntilCompletion : Bool
  deriving DecidableEq, Repr

abbrev SubmissionBatch (τ : Type) := List (OwnedSqe τ)

variable {τ : Type}

/-- `prepare_sqe` with `duplicate_sqe_fd`; `duplicated` is what `fcntl` returns. -/
def prepareSqe (sqe : IoUringSqe τ) (duplicated : Option Nat) : Option (OwnedSqe τ) :=
  if sqe.opcode.usesDescriptor = false ∨ sqe.fd < 0 then
    some { sqe, fd := none, fdUntilCompletion := false }
  else
    duplicated.map fun fd =>
      { sqe := { sqe with fd := Int.ofNat fd }
        fd := some fd
        fdUntilCompletion := sqe.opcode ≠ .msgRing }

/-! ## The ring -/

def eintr : Nat := 4
def eagain : Nat := 11
def ebusy : Nat := 16

structure SubmitOutcome (τ : Type) where
  submitted : Nat := 0
  failures : List (IoUringCqe τ) := []
  error : Option Nat := none
  retry : Bool := false

/-- The errors that `submit_pending` returns. -/
inductive SubmitError
  | poisoned
  | publishedPrefix
  | batchExceedsCapacity
  | invalidCount (submitted published : Nat)
  | splitBatch
  | enter (errno : Nat)
  deriving DecidableEq, Repr

/-- A ring with `2 ^ bits` submission and `2 ^ cqBits` completion entries.  `accepted` is what the
kernel has consumed, and `published` what it was given at each `io_uring_enter`. -/
structure IoUring (τ : Type) where
  bits : Nat
  cqBits : Nat
  submitAll : Bool
  deferTaskrun : Bool
  sqHead : Nat := 0
  sqTail : Nat := 0
  sqes : Nat → Option (IoUringSqe τ) := fun _ => none
  sqArray : Nat → Nat := fun _ => 0
  cqHead : Nat := 0
  cqTail : Nat := 0
  cqes : Nat → Option (IoUringCqe τ) := fun _ => none
  pending : List (SubmissionBatch τ) := []
  inflightFds : τ → List Nat := fun _ => []
  submissionPoisoned : Bool := false
  accepted : List (Option (IoUringSqe τ)) := []
  published : List (List (Option (IoUringSqe τ))) := []

namespace IoUring

variable (r : IoUring τ)

def pushSqe (sqe : IoUringSqe τ) (duplicated : Option Nat) : Option (IoUring τ) :=
  (prepareSqe sqe duplicated).map fun owned => { r with pending := r.pending ++ [[owned]] }

def submitLinkedWithTimeout (mainToken : τ) (opcode : Opcode) (fd : Int) (timeoutToken : τ)
    (duplicated : Option Nat) : Option (IoUring τ) :=
  (prepareSqe { opcode, fd, link := true, userData := mainToken } duplicated).bind fun main =>
    (prepareSqe { opcode := .linkTimeout, userData := timeoutToken } none).map fun timeout =>
      { r with pending := r.pending ++ [[main, timeout]] }

def hasPendingSubmissions : Bool := !r.pending.isEmpty

/-! ### The kernel -/

/-- The first entries of the submission queue, as the kernel finds them. -/
def window (n : Nat) : List (Option (IoUringSqe τ)) :=
  (List.range n).map fun i => r.sqes (r.sqArray (RingBuffer.slot r.bits (r.sqHead + i)))

/-- The kernel does not stop after an entry that is linked to the next one. -/
def linked : Option (IoUringSqe τ) → Bool
  | some sqe => sqe.link
  | none => false

/-- `io_uring_enter` with its result.  The kernel consumes what it reports, at most what it is
given, and does not split a linked pair; on an error it consumes nothing. -/
def enter (toSubmit : Nat) (result : Except Nat Nat) : Option (IoUring τ) :=
  let window := r.window toSubmit
  match result with
  | .ok submitted =>
      if submitted ≤ toSubmit ∧ ((window.take submitted).getLast?.any linked) = false then
        some { r with
          sqHead := (r.sqHead + submitted) % 2 ^ 32
          accepted := r.accepted ++ window.take submitted
          published := r.published ++ [window] }
      else none
  | .error _ => some { r with published := r.published ++ [window] }

/-- The kernel posts a completion, where there is room. -/
def post (cqe : IoUringCqe τ) : Option (IoUring τ) :=
  if RingBuffer.distance r.cqHead r.cqTail < 2 ^ r.cqBits then
    some { r with
      cqes := RingBuffer.write r.cqBits r.cqTail [some cqe] r.cqes
      cqTail := (r.cqTail + 1) % 2 ^ 32 }
  else none

/-! ### Submission -/

/-- The number of batches that are published, and of their entries; `none` if a batch is larger
than the ring. -/
def selectBatches (entries available : Nat) :
    Nat → Nat → List (SubmissionBatch τ) → Option (Nat × Nat)
  | batchCount, sqeCount, [] => some (batchCount, sqeCount)
  | batchCount, sqeCount, batch :: rest =>
      if batch.length > entries then none
      else if sqeCount + batch.length > available then some (batchCount, sqeCount)
      else selectBatches entries available (batchCount + 1) (sqeCount + batch.length) rest

/-- The entries are written from `sq_tail` on, and the tail moves behind them. -/
def publish (batchCount toPublish : Nat) : IoUring τ :=
  let owned := (r.pending.take batchCount).flatten
  { r with
    sqes := RingBuffer.write r.bits r.sqTail (owned.map fun o => some o.sqe) r.sqes
    sqArray := RingBuffer.write r.bits r.sqTail
      ((List.range owned.length).map fun i => RingBuffer.slot r.bits (r.sqTail + i)) r.sqArray
    sqTail := (r.sqTail + toPublish) % 2 ^ 32 }

/-- The number of batches that were accepted, and whether one was split. -/
def acceptedBatches (submitted : Nat) : Nat → Nat → List (SubmissionBatch τ) → Nat × Bool
  | accepted, _, [] => (accepted, false)
  | accepted, boundary, batch :: rest =>
      let next := boundary + batch.length
      if submitted ≥ next then acceptedBatches submitted (accepted + 1) next rest
      else (accepted, submitted > boundary)

/-- The descriptor of an accepted entry is kept for its completion. -/
def retain [DecidableEq τ] (fds : τ → List Nat) (owned : OwnedSqe τ) : τ → List Nat :=
  match owned.fdUntilCompletion, owned.fd with
  | true, some fd =>
      Function.update fds owned.sqe.userData (fds owned.sqe.userData ++ [fd])
  | _, _ => fds

/-- `submit_pending` after `io_uring_enter` has reported a count -/
def accept [DecidableEq τ] (head batchCount toPublish submitted : Nat) :
    IoUring τ × Except SubmitError (SubmitOutcome τ) :=
  if submitted > toPublish then
    ({ r with sqTail := head, submissionPoisoned := true },
      .error (.invalidCount submitted toPublish))
  else
    let r := { r with
      sqTail := if submitted ≠ toPublish then (head + submitted) % 2 ^ 32 else r.sqTail }
    match acceptedBatches submitted 0 0 (r.pending.take batchCount) with
    | (_, true) => ({ r with submissionPoisoned := true }, .error .splitBatch)
    | (accepted, false) =>
        ({ r with
          pending := r.pending.drop accepted
          inflightFds := (r.pending.take accepted).flatten.foldl retain r.inflightFds },
          .ok { submitted })

/-- The loop of `submit_pending` around `io_uring_enter`, with the results of the calls.  It
gives back the results that are not used, and `none` if there are not enough. -/
def enterLoop [DecidableEq τ] (head batchCount toPublish : Nat) :
    IoUring τ → List (Except Nat Nat) →
      Option (IoUring τ × Except SubmitError (SubmitOutcome τ) × List (Except Nat Nat))
  | _, [] => none
  | r, result :: rest =>
      (r.enter toPublish result).bind fun r =>
        match result with
        | .ok submitted =>
            let (r, outcome) := r.accept head batchCount toPublish submitted
            some (r, outcome, rest)
        | .error errno =>
            if errno = eintr then enterLoop head batchCount toPublish r rest
            else if errno = ebusy ∨ errno = eagain then
              some ({ r with sqTail := head }, .ok { error := some errno, retry := true }, rest)
            else
              some ({ r with sqTail := head, pending := [] },
                .ok {
                  failures := r.pending.flatten.map fun o => ⟨o.sqe.userData, -errno⟩
                  error := some errno },
                rest)

def enterWithoutSubmission :
    IoUring τ → List (Except Nat Nat) →
      Option (IoUring τ × Except SubmitError (SubmitOutcome τ) × List (Except Nat Nat))
  | _, [] => none
  | r, result :: rest =>
      (r.enter 0 result).bind fun r =>
        match result with
        | .ok _ => some (r, .ok {}, rest)
        | .error errno =>
            if errno = eintr then enterWithoutSubmission r rest
            else if errno = ebusy ∨ errno = eagain then
              some (r, .ok { error := some errno, retry := true }, rest)
            else some (r, .error (.enter errno), rest)

def submitPending [DecidableEq τ] (waitForCqe : Bool) (results : List (Except Nat Nat)) :
    Option (IoUring τ × Except SubmitError (SubmitOutcome τ) × List (Except Nat Nat)) :=
  if r.submissionPoisoned then some (r, .error .poisoned, results)
  else
    let alreadyPublished := RingBuffer.distance r.sqHead r.sqTail
    if alreadyPublished ≠ 0 then some (r, .error .publishedPrefix, results)
    else
      let entries := 2 ^ r.bits
      match selectBatches entries (entries - alreadyPublished) 0 0 r.pending with
      | none => some (r, .error .batchExceedsCapacity, results)
      | some (batchCount, toPublish) =>
          if toPublish = 0 then
            if waitForCqe = false ∧ r.deferTaskrun = false then some (r, .ok {}, results)
            else r.enterWithoutSubmission results
          else enterLoop r.sqHead batchCount toPublish (r.publish batchCount toPublish) results

/-! ### Completion -/

/-- `drain_completions`, with the completions that it takes -/
def drainCompletions [DecidableEq τ] : IoUring τ × List (IoUringCqe τ) :=
  let drained := (RingBuffer.read r.cqBits r.cqes r.cqHead
    (RingBuffer.distance r.cqHead r.cqTail)).filterMap id
  ({ r with
    cqHead := r.cqTail
    inflightFds := drained.foldl (fun fds cqe => Function.update fds cqe.userData []) r.inflightFds },
    drained)

end IoUring

end Runite.Linux
