import Runite.Io.ReadState
import Runite.Lib.Terminator
import Mathlib.Data.List.TakeDrop

/-!
# The process-wide reader of standard input

`stdio::stdin_reader`: the state that the reader thread and every `Stdin` handle
share, the methods of `Shared`, and `ReadFuture`.  Each method takes the lock
once, so each is one atomic step.

The condition variables are not here: a thread that waits on one looks at the
state again when it likes, which is what it does after a spurious wake.
-/

namespace Runite.Stdio

open Runite.Io Terminator

def bufferCapacity : Nat := 64 * 1024

/-- `READ_CHUNK_BYTES` of the reader thread. -/
def readerChunkBytes : Nat := 8 * 1024

/-- The byte `b'\n'`. -/
def newline : UInt8 := 10

/-- `ErrorSnapshot`, which has the fields of `SharedIoError` and rebuilds the error
in the same way. -/
abbrev ErrorSnapshot := SharedIoError

structure Waiter where
  id : Nat
  waker : Option Waker
  deriving DecidableEq, Repr

inductive Terminal
  | running
  | eof
  | error (snapshot : ErrorSnapshot)
  | shutdown
  deriving DecidableEq, Repr

def Terminal.isRunning (terminal : Terminal) : Bool := terminal = .running

inductive ThreadOutcome
  | eof
  | error (snapshot : ErrorSnapshot)
  | shutdown
  deriving DecidableEq, Repr

/-- The terminal state that an outcome of the thread leads to. -/
def ThreadOutcome.terminal : ThreadOutcome → Terminal
  | .eof => .eof
  | .error snapshot => .error snapshot
  | .shutdown => .shutdown

/-- `State`, with the wakes that the methods perform. -/
structure State where
  buffer : List UInt8 := []
  waiters : List Waiter := []
  terminal : Terminal := .running
  shutdownRequested : Bool := false
  threadExited : Bool := false
  readRequested : Bool := false
  ioActive : Bool := false
  readerWaiting : Bool := false
  handoffs : Nat := 0
  woken : List Waker := []
  deriving DecidableEq, Repr

namespace State

variable (s : State)

/-- `take_waiter_wakers`, and the wakers that it takes are woken. -/
def wakeWaiters : State :=
  { s with
    waiters := s.waiters.map fun waiter => { waiter with waker := none }
    woken := s.woken ++ s.waiters.filterMap Waiter.waker }

def swapRemove (waiters : List Waiter) (index : Nat) : List Waiter :=
  match waiters.getLast? with
  | none => waiters
  | some last => (waiters.set index last).dropLast

def removeWaiter (waiterId : Nat) : State :=
  match s.waiters.findIdx? (fun waiter => waiter.id == waiterId) with
  | none => s
  | some index => { s with waiters := swapRemove s.waiters index }

/-- The waiter `waiterId` waits with the waker `candidate`, in the place it has or in
a new one. -/
def registerWaiter (waiterId : Nat) (candidate : Waker) : State :=
  match s.waiters.findIdx? (fun waiter => waiter.id == waiterId) with
  | none => { s with waiters := s.waiters ++ [{ id := waiterId, waker := some candidate }] }
  | some index =>
      { s with waiters := s.waiters.set index { id := waiterId, waker := some candidate } }

/-- `read_capacity` of a `Shared` with this capacity, one turn of its loop: the number of bytes
that the thread may read, `none` when it is to stop, and `pending` when it waits for
`space_available`. -/
def readCapacityOf (capacity : Nat) : State × Poll (Option Nat) :=
  if s.shutdownRequested || !s.terminal.isRunning then
    ({ s with ioActive := false, readerWaiting := false }, .ready none)
  else if s.handoffs = 0 ∧ s.readRequested ∧ s.buffer.length < capacity then
    ({ s with readRequested := false, ioActive := true, readerWaiting := false },
      .ready (some (min readerChunkBytes (capacity - s.buffer.length))))
  else ({ s with ioActive := false, readerWaiting := true }, .pending)

/-- The reader of the process has a buffer of `BUFFER_CAPACITY` bytes. -/
def readCapacity : State × Poll (Option Nat) := s.readCapacityOf bufferCapacity

def append (bytes : List UInt8) : State × Bool :=
  let s := { s with ioActive := false }
  if s.shutdownRequested || !s.terminal.isRunning then (s, false)
  else (State.wakeWaiters { s with buffer := s.buffer ++ bytes }, true)

def abandon (waiterId : Nat) : State :=
  let s := s.removeWaiter waiterId
  { s with readRequested := s.readRequested && !s.waiters.isEmpty }

def requestShutdown : State :=
  wakeWaiters { s with
    shutdownRequested := true
    readRequested := false
    terminal := if s.terminal.isRunning then .shutdown else s.terminal }

def finish (outcome : ThreadOutcome) : State :=
  wakeWaiters { s with
    terminal := if s.terminal.isRunning then outcome.terminal else s.terminal
    ioActive := false
    readerWaiting := false
    readRequested := false
    threadExited := true }

def readInterrupted : State :=
  { s with
    ioActive := false
    readRequested := !s.waiters.isEmpty && s.buffer.isEmpty }

/-- `begin_handoff`, up to the wait for a read in progress, with the error of a console
that cannot be handed over. -/
def beginHandoff (rejectActive : Bool) : State × Except IoError Unit :=
  if rejectActive && s.ioActive then
    (s, .error { kind := .wouldBlock
                 message := "cannot inherit Windows console stdin while a parent read is active" })
  else ({ s with handoffs := s.handoffs + 1 }, .ok ())

/-- `begin_handoff`, when the wait for a read in progress runs out of time. -/
def handoffTimeout : State × Except IoError Unit :=
  ({ s with handoffs := s.handoffs - 1 },
    .error { kind := .wouldBlock
             message := "timed out waiting for the stdin reader to release the terminal for a child" })

def endHandoff : State :=
  { s with
    handoffs := s.handoffs - 1
    readRequested :=
      s.readRequested ||
        (s.handoffs - 1 = 0 && !s.waiters.isEmpty && s.buffer.isEmpty) }

/-! ## What the methods leave alone -/

@[simp]
theorem wakeWaiters_buffer : s.wakeWaiters.buffer = s.buffer := rfl

@[simp]
theorem removeWaiter_buffer (waiterId : Nat) : (s.removeWaiter waiterId).buffer = s.buffer := by
  unfold removeWaiter
  split <;> rfl

@[simp]
theorem registerWaiter_buffer (waiterId : Nat) (candidate : Waker) :
    (s.registerWaiter waiterId candidate).buffer = s.buffer := by
  unfold registerWaiter
  split <;> rfl

@[simp]
theorem readCapacity_buffer : s.readCapacity.1.buffer = s.buffer := by
  unfold readCapacity readCapacityOf
  split
  · rfl
  · split <;> rfl

@[simp]
theorem abandon_buffer (waiterId : Nat) : (s.abandon waiterId).buffer = s.buffer :=
  s.removeWaiter_buffer waiterId

@[simp]
theorem requestShutdown_buffer : s.requestShutdown.buffer = s.buffer := rfl

@[simp]
theorem finish_buffer (outcome : ThreadOutcome) : (s.finish outcome).buffer = s.buffer := rfl

@[simp]
theorem readInterrupted_buffer : s.readInterrupted.buffer = s.buffer := rfl

@[simp]
theorem beginHandoff_buffer (rejectActive : Bool) :
    (s.beginHandoff rejectActive).1.buffer = s.buffer := by
  unfold beginHandoff
  split <;> rfl

@[simp]
theorem handoffTimeout_buffer : s.handoffTimeout.1.buffer = s.buffer := rfl

@[simp]
theorem endHandoff_buffer : s.endHandoff.buffer = s.buffer := rfl

/-- A chunk that is accepted goes to the end of the buffer, and one that is refused
changes nothing in it. -/
theorem append_buffer (bytes : List UInt8) :
    (s.append bytes).1.buffer = s.buffer ++ if (s.append bytes).2 then bytes else [] := by
  unfold append
  by_cases hstop : s.shutdownRequested || !s.terminal.isRunning
  · simp only [if_pos hstop, Bool.false_eq_true, ↓reduceIte, List.append_nil]
  · simp only [if_neg hstop, ↓reduceIte, wakeWaiters_buffer]

end State

/-! ## One read -/

/-- `ReadFuture`; it is gone once it has completed, so `done` is not here. -/
structure ReadFuture where
  waiterId : Nat
  capacity : Nat
  stopAtNewline : Bool
  deriving DecidableEq, Repr

namespace ReadFuture

variable (f : ReadFuture) (s : State)

/-- The number of bytes that a read takes out of `buffer`. -/
def count (buffer : List UInt8) : Nat :=
  if f.stopAtNewline then
    match (buffer.take f.capacity).findIdx? (· == newline) with
    | some index => index + 1
    | none => min f.capacity buffer.length
  else min f.capacity buffer.length

/-- The error of a read after the reader was shut down. -/
def shutdownError : IoError := { kind := .interrupted, message := "stdin reader shut down" }

/-- `poll`.  `candidate` is the waker of the operation that the future belongs to. -/
def poll (candidate : Waker) : State × Poll (Except IoError (List UInt8)) :=
  if f.capacity = 0 then (s, .ready (.ok []))
  else if !s.buffer.isEmpty then
    let read := f.count s.buffer
    let bytes := s.buffer.take read
    let s := State.removeWaiter { s with buffer := s.buffer.drop read } f.waiterId
    (if !s.buffer.isEmpty || !s.terminal.isRunning then s.wakeWaiters else s, .ready (.ok bytes))
  else
    match s.terminal with
    | .running =>
        let s := s.registerWaiter f.waiterId candidate
        (if s.ioActive then s else { s with readRequested := true }, .pending)
    | .eof => (s.removeWaiter f.waiterId, .ready (.ok []))
    | .error snapshot => (s.removeWaiter f.waiterId, .ready (.error snapshot.toError))
    | .shutdown => (s.removeWaiter f.waiterId, .ready (.error shutdownError))

/-! ## What a read takes -/

/-- A poll takes the first `count` bytes, and nothing else. -/
theorem poll_takes (candidate : Waker) :
    received (f.poll s candidate).2 = s.buffer.take (f.count s.buffer) ∧
      (f.poll s candidate).1.buffer = s.buffer.drop (f.count s.buffer) := by
  unfold poll
  by_cases hcapacity : f.capacity = 0
  · have hcount : f.count s.buffer = 0 := by simp [count, hcapacity]
    simp [hcapacity, hcount]
  · by_cases hempty : s.buffer.isEmpty
    · have hnil : s.buffer = [] := List.isEmpty_iff.mp hempty
      cases hterminal : s.terminal with
      | running =>
          simp only [hcapacity, hempty, Bool.not_true, Bool.false_eq_true, ↓reduceIte,
            received_pending]
          split <;> simp [hnil]
      | eof => simp [hcapacity, hnil]
      | error snapshot => simp [hcapacity, hnil]
      | shutdown => simp [hcapacity, hnil]
    · simp only [hcapacity, hempty, Bool.not_false, ↓reduceIte, received_ok, true_and]
      split <;> simp

/-- Nothing follows the newline that a bounded read stops at. -/
theorem terminated_of_stop (hstop : f.stopAtNewline) (buffer : List UInt8) :
    Terminated newline (buffer.take (f.count buffer)) := by
  unfold count
  rw [if_pos hstop]
  cases hfind : (buffer.take f.capacity).findIdx? (· == newline) with
  | none =>
      apply Terminated.of_notMem
      intro hmem
      have hmem : newline ∈ buffer.take f.capacity :=
        List.take_subset_take_left _ (Nat.min_le_left _ _) hmem
      simpa using List.findIdx?_eq_none_iff.mp hfind newline hmem
  | some index =>
      have hlt : index < (buffer.take f.capacity).length :=
        (List.findIdx?_eq_some_iff_getElem.mp hfind).1
      have hle : index + 1 ≤ f.capacity := by
        rw [List.length_take] at hlt
        omega
      have h := terminated_take_of_findIdx? hfind
      rwa [List.take_take, Nat.min_eq_left hle] at h

theorem take_count_of_not_stop (hstop : f.stopAtNewline = false) (buffer : List UInt8) :
    buffer.take (f.count buffer) = buffer.take f.capacity := by
  unfold count
  rw [if_neg (by simp [hstop]), List.take_eq_take_iff]
  omega

end ReadFuture

end Runite.Stdio
