import Runite.Stdio.StdinReader
import Runite.Io.ReadState

/-!
# Handles of standard input

`stdio::Stdin` over the process-wide reader, and the process that any number of
handles, the reader thread and the spawns of children make up together.

A handle keeps bytes in two places: the line that `next_line` has not completed, and
the bytes of a read that did not fit its caller's buffer.  An operation that its
caller has abandoned stays in the `ReadState` with the future it was started with.
-/

namespace Runite.Stdio

open Runite.Io

/-- `READ_CHUNK_BYTES` of a handle. -/
def readChunkBytes : Nat := 1024

/-- `Stdin`.  `future` is the future of the operation in `readState`. -/
structure Stdin where
  readState : ReadState := {}
  future : Option ReadFuture := none
  buffer : List UInt8 := []
  waiterId : Nat

/-- The error of `next_line`: one of `poll_buffered`, or the `InvalidData` that
carries the bytes that are not UTF-8. -/
inductive LineError
  | io (error : IoError)
  | invalidData (bytes : List UInt8)
  deriving DecidableEq, Repr

def decodeLine (bytes : List UInt8) : Except LineError String :=
  match String.fromUTF8? ⟨bytes.toArray⟩ with
  | some line => .ok line
  | none => .error (.invalidData bytes)

/-- How a turn of the loop of `next_line` ends. -/
inductive LineTurn
  /-- `next_line` returns what `decode_line` makes of the bytes -/
  | line (bytes : List UInt8)
  /-- `next_line` returns `Ok(None)` -/
  | endOfInput
  | failed (error : IoError)
  | again
  | pending
  deriving DecidableEq, Repr

/-- The bytes that the caller gets, as a line or with the error that rejects them. -/
def LineTurn.handed : LineTurn → List UInt8
  | .line bytes => bytes
  | .endOfInput | .failed _ | .again | .pending => []

namespace Stdin

variable (stdin : Stdin) (state : State)

/-- The bytes that the handle holds privately, in the order it will hand them out. -/
def held : List UInt8 := stdin.buffer ++ stdin.readState.rest

/-- The future of the operation in flight, or the one that the factory makes. -/
def currentFuture (capacity : Nat) (stopAtNewline : Bool) : ReadFuture :=
  stdin.future.getD { waiterId := stdin.waiterId, capacity, stopAtNewline }

/-- `read_state.poll_slice`, with the factory of `poll_buffered`.  The future is polled
with the waker that the operation gives to it; a handle has one at a time, named by
its `waiterId`. -/
def pollSlice (waker : Waker) (capacity : Nat) (stopAtNewline : Bool) :
    Stdin × State × Poll (Except IoError (List UInt8)) :=
  -- `poll_slice` returns before it comes to the operation
  if stdin.readState.shutdown.requested || stdin.readState.overflow.isSome then
    let (readState, result) := stdin.readState.pollSlice waker capacity none
    ({ stdin with readState }, state, result)
  else
    let future := stdin.currentFuture capacity stopAtNewline
    let (state, outcome) := future.poll state stdin.waiterId
    match outcome with
    | .pending =>
        let (readState, result) := (stdin.readState.resolve none).pollSlice waker capacity none
        ({ stdin with readState, future := some future }, state, result)
    | .ready outcome =>
        let (readState, result) :=
          (stdin.readState.resolve (some outcome)).pollSlice waker capacity none
        ({ stdin with readState, future := none }, state, result)

def pollBuffered (waker : Waker) (capacity : Nat) (stopAtNewline : Bool) :
    Stdin × State × Poll (Except IoError (List UInt8)) :=
  if capacity = 0 then (stdin, state, .ready (.ok []))
  else if !stopAtNewline && !stdin.buffer.isEmpty then
    -- `drain_line_buffer`
    let read := min capacity stdin.buffer.length
    ({ stdin with buffer := stdin.buffer.drop read }, state,
      .ready (.ok (stdin.buffer.take read)))
  else stdin.pollSlice state waker capacity stopAtNewline

/-- `next_line`, one turn of its loop.  Polling a `next_line` that waits is a turn too:
what lies before the place where it waits, the search for a newline, finds nothing. -/
def nextLine (waker : Waker) : Stdin × State × LineTurn :=
  match stdin.buffer.findIdx? (· == newline) with
  | some index =>
      ({ stdin with buffer := stdin.buffer.drop (index + 1) }, state,
        .line (stdin.buffer.take (index + 1)))
  | none =>
      let (stdin, state, result) := stdin.pollBuffered state waker readChunkBytes true
      match result with
      | .pending => (stdin, state, .pending)
      | .ready (.error error) => (stdin, state, .failed error)
      | .ready (.ok bytes) =>
          if bytes.isEmpty then
            if stdin.buffer.isEmpty then (stdin, state, .endOfInput)
            else ({ stdin with buffer := [] }, state, .line stdin.buffer)
          else ({ stdin with buffer := stdin.buffer ++ bytes }, state, .again)

end Stdin

/-! ## The process -/

/-- A handle and what it has handed out.  `looping` says that a `next_line` is between
two turns of its loop. -/
structure Handle where
  stdin : Stdin
  looping : Bool := false
  dropped : Bool := false
  handedOut : List UInt8 := []

/-- A line that `next_line` has returned, with what the handle held at that moment. -/
structure LineReturn where
  handle : Nat
  bytes : List UInt8
  line : Except LineError String
  held : List UInt8

inductive ReaderThread
  | idle
  /-- between `read_capacity` and what comes of the read -/
  | reading (capacity : Nat)
  /-- `read_loop` has returned -/
  | stopping (outcome : ThreadOutcome)
  | exited
  deriving DecidableEq, Repr

/-- The last three fields are history: the bytes that the reader thread has put into
the process-wide buffer, those that each handle has removed from it, and the lines that
were returned. -/
structure Process where
  state : State := {}
  thread : ReaderThread := .idle
  handles : List Handle := []
  appended : List UInt8 := []
  removed : List (Nat × List UInt8) := []
  lines : List LineReturn := []

namespace Process

inductive Action
  | readCapacity
  /-- the wait for input is interrupted, or the read is no longer needed -/
  | readInterrupted
  /-- the read has returned `bytes` -/
  | append (bytes : List UInt8)
  /-- `read_loop` returns from the read -/
  | stop (outcome : ThreadOutcome)
  | finish
  | requestShutdown
  | beginHandoff (rejectActive : Bool)
  | handoffTimeout
  | endHandoff
  /-- `stdin()` -/
  | «open»
  /-- a poll of a `read` with a buffer of `capacity` bytes -/
  | read (handle : Nat) (waker : Waker) (capacity : Nat)
  | nextLine (handle : Nat) (waker : Waker)
  | drop (handle : Nat)
  deriving DecidableEq, Repr

variable (s : Process)

/-- The bytes that a handle has removed from the process-wide buffer. -/
def removedBy (handle : Nat) : List UInt8 :=
  (s.removed.filter (·.1 == handle)).flatMap Prod.snd

def polled (index : Nat) (handle : Handle) (stdin : Stdin) (state : State) (handed : List UInt8)
    (looping : Bool) : Process :=
  { s with
    state
    handles := s.handles.set index
      { handle with stdin, looping, handedOut := handle.handedOut ++ handed }
    removed := s.removed ++
      [(index, s.state.buffer.take (s.state.buffer.length - state.buffer.length))] }

/-- `next_line` returns a line. -/
def returned (index : Nat) (stdin : Stdin) (bytes : List UInt8) : Process :=
  { s with
    lines := s.lines ++
      [{ handle := index, bytes, line := decodeLine bytes, held := stdin.held }] }

def read (index : Nat) (handle : Handle) (waker : Waker) (capacity : Nat) : Process :=
  let (stdin, state, result) := handle.stdin.pollBuffered s.state waker capacity false
  s.polled index handle stdin state (received result) false

def nextLine (index : Nat) (handle : Handle) (waker : Waker) : Process :=
  let (stdin, state, turn) := handle.stdin.nextLine s.state waker
  let s := s.polled index handle stdin state turn.handed (turn = .again)
  match turn with
  | .line bytes => s.returned index stdin bytes
  | .endOfInput | .failed _ | .again | .pending => s

/-- One action; `none` when it is not possible. -/
def step : Action → Option Process
  | .readCapacity =>
      match s.thread with
      | .idle =>
          let (state, capacity) := s.state.readCapacity
          match capacity with
          | .pending => some { s with state }
          | .ready none => some { s with state, thread := .stopping .shutdown }
          | .ready (some capacity) => some { s with state, thread := .reading capacity }
      | _ => none
  | .readInterrupted =>
      match s.thread with
      | .reading _ => some { s with state := s.state.readInterrupted, thread := .idle }
      | _ => none
  | .append bytes =>
      match s.thread with
      | .reading capacity =>
          if 0 < bytes.length ∧ bytes.length ≤ capacity then
            let (state, appended) := s.state.append bytes
            some { s with
              state
              thread := if appended then .idle else .stopping .shutdown
              appended := s.appended ++ if appended then bytes else [] }
          else none
      | _ => none
  | .stop outcome =>
      match s.thread with
      | .reading _ => some { s with thread := .stopping outcome }
      | _ => none
  | .finish =>
      match s.thread with
      | .stopping outcome => some { s with state := s.state.finish outcome, thread := .exited }
      | _ => none
  | .requestShutdown => some { s with state := s.state.requestShutdown }
  | .beginHandoff rejectActive => some { s with state := (s.state.beginHandoff rejectActive).1 }
  | .handoffTimeout =>
      if 0 < s.state.handoffs then some { s with state := s.state.handoffTimeout.1 } else none
  | .endHandoff =>
      if 0 < s.state.handoffs then some { s with state := s.state.endHandoff } else none
  | .open =>
      some { s with handles := s.handles ++ [{ stdin := { waiterId := s.handles.length + 1 } }] }
  | .read index waker capacity =>
      match s.handles[index]? with
      | some handle =>
          if handle.dropped || handle.looping then none
          else some (s.read index handle waker capacity)
      | none => none
  | .nextLine index waker =>
      match s.handles[index]? with
      | some handle => if handle.dropped then none else some (s.nextLine index handle waker)
      | none => none
  | .drop index =>
      match s.handles[index]? with
      | some handle =>
          if handle.dropped || handle.looping then none
          else
            some { s with
              state := s.state.abandon handle.stdin.waiterId
              handles := s.handles.set index { handle with dropped := true } }
      | none => none

end Process

end Runite.Stdio
