import Runite.Task
import Mathlib.Data.List.Basic

/-!
# Pending operations

The parts of `io::pending` that reads, writes and shutdowns share: errors,
waiter sets, operations in flight, generations of writes, and the shutdown of
one direction.

A future that was handed to the kernel is known by its `outcome`: `none` while
it is pending, and the result it will return once it is not.  Futures that
completed stay where they are until someone polls them.
-/

namespace Runite.Io

/-! ## Errors -/

/-- The kinds of `io::ErrorKind` that the crate itself produces, and the rest. -/
inductive ErrorKind
  | brokenPipe
  | interrupted
  | invalidData
  | invalidInput
  | unexpectedEof
  | wouldBlock
  | writeZero
  | other (code : Nat)
  deriving DecidableEq, Repr

/-- `io::Error`, through its accessors. -/
structure IoError where
  kind : ErrorKind
  rawOsError : Option Int := none
  message : String
  deriving DecidableEq, Repr

structure SharedIoError where
  kind : ErrorKind
  rawOsError : Option Int
  message : String
  deriving DecidableEq, Repr

def SharedIoError.new (error : IoError) : SharedIoError :=
  ⟨error.kind, error.rawOsError, error.message⟩

/-- `SharedIoError::to_error`.  An error with an OS code is rebuilt from the
code alone, which decodes to the kind and the message it had. -/
def SharedIoError.toError (error : SharedIoError) : IoError :=
  match error.rawOsError with
  | none => ⟨error.kind, none, error.message⟩
  | some code => ⟨error.kind, some code, error.message⟩

@[simp]
theorem SharedIoError.toError_new (error : IoError) : (new error).toError = error := by
  obtain ⟨kind, rawOsError, message⟩ := error
  cases rawOsError <;> rfl

/-! ## Waiter sets and operations in flight -/

def register (waiters : List Waker) (waker : Waker) : List Waker :=
  if waker ∈ waiters then waiters else waiters ++ [waker]

@[simp]
theorem mem_register {waiters : List Waker} {waker other : Waker} :
    other ∈ register waiters waker ↔ other ∈ waiters ∨ other = waker := by
  unfold register
  split
  · constructor
    · exact Or.inl
    · rintro (h | rfl) <;> assumption
  · simp

/-- `PendingOperation<T>`: a future and the wakers of its broadcast waker. -/
structure PendingOperation (τ : Type) where
  outcome : Option (Except IoError τ)
  waiters : List Waker := []
  deriving DecidableEq

/-- The future has been polled with the broadcast waker and is still pending. -/
def PendingOperation.await {τ : Type} (operation : PendingOperation τ) (waker : Waker) :
    PendingOperation τ :=
  { operation with waiters := register operation.waiters waker }

/-! ## Generations -/

/-- The number that identifies a logical write. -/
abbrev Generation := UInt64

def trackedWriteBit : Generation := (1 : UInt64) <<< 63

def isTrackedWrite (generation : Generation) : Bool :=
  generation &&& trackedWriteBit != 0

/-- A `&[u8]`: where it starts, and what it holds now. -/
structure Buf where
  address : Nat
  bytes : List UInt8
  deriving DecidableEq, Repr

structure WriteIdentity where
  address : Nat
  len : Nat
  deriving DecidableEq, Repr

def WriteIdentity.of (buf : Buf) : WriteIdentity :=
  ⟨buf.address, buf.bytes.length⟩

/-! ## Shutdown of one direction -/

/-- `DirectionShutdown`.  `starts` counts the calls of the `start` factory. -/
structure DirectionShutdown where
  requested : Bool := false
  operation : Option (PendingOperation Unit) := none
  result : Option (Except SharedIoError Unit) := none
  starts : Nat := 0
  deriving DecidableEq

def DirectionShutdown.request (d : DirectionShutdown) : DirectionShutdown :=
  { d with requested := true }

/-- What a poll answers once the result is stored. -/
def shutdownReply (result : Except SharedIoError Unit) : Except IoError Unit :=
  match result with
  | .ok () => .ok ()
  | .error error => .error error.toError

def storeShutdown (result : Except IoError Unit) : Except SharedIoError Unit :=
  match result with
  | .ok () => .ok ()
  | .error error => .error (.new error)

/-- `DirectionShutdown::poll`, with the wakers it wakes.  `start` is the outcome
that the future of the factory already has. -/
def DirectionShutdown.poll (d : DirectionShutdown) (waker : Waker)
    (start : Option (Except IoError Unit)) :
    DirectionShutdown × List Waker × Poll (Except IoError Unit) :=
  let d := d.request
  match d.result with
  | some result => (d, [], .ready (shutdownReply result))
  | none =>
      let d :=
        match d.operation with
        | some _ => d
        | none => { d with operation := some { outcome := start }, starts := d.starts + 1 }
      match d.operation with
      -- `expect("pending shutdown operation must exist")`: excluded by the line above
      | none => (d, [], .pending)
      | some operation =>
          match operation.outcome with
          | none => ({ d with operation := some (operation.await waker) }, [], .pending)
          | some result =>
              ({ d with operation := none, result := some (storeShutdown result) },
                register operation.waiters waker,
                .ready (shutdownReply (storeShutdown result)))

end Runite.Io
