import Runite.Io.WriteRuns

/-!
# Hyper's writes on a stream

`HyperWrite for TcpStream`: a buffer is accepted as soon as the stream's `WriteState` is
drained, and its bytes go out later, by as many sends as it takes.

The future of `send_all_future` runs when the operation of the write state is polled.
Between two polls the kernel may complete the send that it waits for.
-/

namespace Runite.Net

open Runite.Io

/-! ## `send_all_future` -/

/-- A future of `send_all_future` that was polled and is pending: it waits for the send
of the bytes from `written` on.  `sent` is the result of that send once the kernel has
completed it. -/
structure SendAll where
  data : List UInt8
  written : Nat
  sent : Option (Except IoError Nat) := none

def writeZeroError : IoError :=
  { kind := .writeZero, message := "failed to write buffered Hyper data" }

/-- A send of `len` bytes sends no more than that. -/
def limit (len : Nat) (answer : Except IoError Nat) : Except IoError Nat :=
  answer.map (min len)

/-- How far a poll of the future comes, and what the kernel has sent in it. -/
structure Advance where
  written : Nat
  wire : List UInt8 := []
  outcome : Option (Except IoError Nat)

/-- The loop, from its head.  `answers` are the results of the sends that are ready at
their first poll. -/
def sendLoop (data : List UInt8) : List (Except IoError Nat) → Nat → Advance
  | answers, written =>
      if written < data.length then
        match answers with
        | [] => { written, outcome := none }
        | answer :: answers =>
            match limit (data.length - written) answer with
            | .error error => { written, outcome := some (.error error) }
            | .ok 0 => { written, outcome := some (.error writeZeroError) }
            | .ok (count + 1) =>
                let rest := sendLoop data answers (written + (count + 1))
                { rest with wire := (data.drop written).take (count + 1) ++ rest.wire }
      else { written, outcome := some (.ok written) }

def sendAllFuture (data : List UInt8) (answers : List (Except IoError Nat)) : Advance :=
  sendLoop data answers 0

def SendAll.poll (f : SendAll) (answers : List (Except IoError Nat)) : Advance :=
  match f.sent with
  | none => { written := f.written, outcome := none }
  | some (.error error) => { written := f.written, outcome := some (.error error) }
  | some (.ok 0) => { written := f.written, outcome := some (.error writeZeroError) }
  | some (.ok (count + 1)) => sendLoop f.data answers (f.written + (count + 1))

/-- The kernel completes the send that the future waits for. -/
def SendAll.complete (f : SendAll) (answer : Except IoError Nat) : SendAll × List UInt8 :=
  match limit (f.data.length - f.written) answer with
  | .error error => ({ f with sent := some (.error error) }, [])
  | .ok count => ({ f with sent := some (.ok count) }, (f.data.drop f.written).take count)

/-! ## The stream -/

inductive HyperCall
  | pollWrite (buf : Buf)
  | pollFlush
  | pollShutdown
  deriving DecidableEq

/-- History: a call, its answer, and what it did: whether its `poll_drain` came to its
end, what the future in flight gave, the buffer that was handed to `send_all_future`,
and what is in flight after it. -/
structure HyperRecord where
  call : HyperCall
  answer : WriteState.Answer
  drained : Bool
  settled : Option Completion
  submitted : Option Submission
  flight : Option Submission

/-- The write side of a stream.  `sendAll` is the future of the operation in flight, and
`wire` is what the kernel has sent. -/
structure HyperStream where
  writeState : WriteState := {}
  sendAll : Option SendAll := none
  wire : List UInt8 := []
  log : List HyperRecord := []

namespace HyperStream

variable (h : HyperStream)

/-- The future of the operation in flight is polled, with its result if it is ready. -/
def pollOperation (answers : List (Except IoError Nat)) : HyperStream × Option Completion :=
  match h.sendAll, h.writeState.operation with
  | some f, some p =>
      let advance := f.poll answers
      let wire := h.wire ++ advance.wire
      match advance.outcome with
      | none =>
          ({ h with wire, sendAll := some { data := f.data, written := advance.written } }, none)
      | some result =>
          ({ h with
              wire
              sendAll := none
              writeState := (h.writeState.complete result).getD h.writeState },
            some ⟨p.submission, result⟩)
  | _, _ => (h, none)

/-- A `poll_drain` in this state is ready. -/
def drains (s : WriteState) (waker : Waker) : Bool :=
  match s.pollDrain waker with
  | some (_, .ready ()) => true
  | _ => false

/-- The factory's argument, if `poll_buffered_write` called it. -/
def submittedBetween (before after : WriteState) : Option Submission :=
  (after.started.drop before.started.length).head?.map Prod.snd

/-- `poll_buffered_write` after the poll of the future in flight. -/
def bufferedWrite (waker : Waker) (buf : Buf) (answers : List (Except IoError Nat))
    (settled : Option Completion) (drained : Bool) : Option HyperStream :=
  let first := sendAllFuture buf.bytes answers
  (h.writeState.pollBufferedWrite waker buf first.outcome).map fun (s, reply) =>
    let submitted := submittedBetween h.writeState s
    { writeState := s
      sendAll :=
        if submitted.isSome then
          if first.outcome.isNone then some { data := buf.bytes, written := first.written } else none
        else h.sendAll
      wire := if submitted.isSome then h.wire ++ first.wire else h.wire
      log := h.log ++ [{
        call := .pollWrite buf
        answer := .write reply
        drained
        settled
        submitted
        flight := s.operation.map (·.submission) }] }

/-- `poll_write`.  `polled` and `answers` are the results of the sends that the future in
flight and the new one find ready. -/
def pollWrite (waker : Waker) (buf : Buf) (polled answers : List (Except IoError Nat)) :
    Option HyperStream :=
  -- `poll_buffered_write` polls the future in flight unless it returns before
  if buf.bytes.isEmpty || h.writeState.shutdown.requested then
    h.bufferedWrite waker buf answers none false
  else
    let (h, settled) := h.pollOperation polled
    h.bufferedWrite waker buf answers settled (drains h.writeState waker)

def pollFlush (waker : Waker) (polled : List (Except IoError Nat)) : Option HyperStream :=
  let (h, settled) := h.pollOperation polled
  (h.writeState.pollFlush waker).map fun (s, reply) =>
    { h with
      writeState := s
      log := h.log ++ [{
        call := .pollFlush
        answer := .unit reply
        drained := drains h.writeState waker
        settled
        submitted := none
        flight := s.operation.map (·.submission) }] }

/-- `poll_shutdown`; `start` is what the shutdown gives at its first poll. -/
def pollShutdown (waker : Waker) (polled : List (Except IoError Nat))
    (start : Option (Except IoError Unit)) : Option HyperStream :=
  let (h, settled) := h.pollOperation polled
  (h.writeState.pollShutdown waker start).map fun (s, reply) =>
    { h with
      writeState := s
      log := h.log ++ [{
        call := .pollShutdown
        answer := .unit reply
        drained := drains h.writeState.requestShutdown waker
        settled
        submitted := none
        flight := s.operation.map (·.submission) }] }

/-- A call of Hyper, or something that the kernel does meanwhile. -/
inductive Act
  | pollWrite (waker : Waker) (buf : Buf) (polled answers : List (Except IoError Nat))
  | pollFlush (waker : Waker) (polled : List (Except IoError Nat))
  | pollShutdown (waker : Waker) (polled : List (Except IoError Nat))
      (start : Option (Except IoError Unit))
  | completeSend (answer : Except IoError Nat)
  | completeShutdown (result : Except IoError Unit)

/-- The kernel completes the send in flight. -/
def completeSend (answer : Except IoError Nat) : Option HyperStream :=
  match h.sendAll with
  | some f =>
      match f.sent with
      | some _ => none
      | none =>
          let (f, wire) := f.complete answer
          some { h with sendAll := some f, wire := h.wire ++ wire }
  | none => none

def step : Act → Option HyperStream
  | .pollWrite waker buf polled answers => h.pollWrite waker buf polled answers
  | .pollFlush waker polled => h.pollFlush waker polled
  | .pollShutdown waker polled start => h.pollShutdown waker polled start
  | .completeSend answer => h.completeSend answer
  | .completeShutdown result =>
      (h.writeState.completeShutdown result).map fun s => { h with writeState := s }

end HyperStream

end Runite.Net
