import Runite.Io.WriteRuns

/-!
# The writers built on a `WriteState`

Sockets, child pipes and standard streams share `WriteState` and differ in how
they close: a socket drains and shuts its write direction down, a child pipe
drains and drops its descriptor, a standard stream flushes.

`Finishes` runs one of these calls to completion: the call is polled again and
again while the operations that are outstanding complete with given results.
The future of `flush` or `close` borrows the writer exclusively, so nothing
else is called meanwhile; tokens of queued writes can only be dropped.
-/

namespace Runite.Io

open WriteState

/-! ## The writers -/

/-- The types that own a `WriteState` and implement `AsyncWrite`. -/
inductive WriterKind
  | tcpStream
  | tcpOwnedWriteHalf
  | unixStream
  | unixOwnedWriteHalf
  | childStdin
  | stdout
  | stderr
  deriving DecidableEq, Repr

/-- The writers whose `poll_close` is `poll_tcp_shutdown` or `poll_unix_shutdown`. -/
def WriterKind.isSocket : WriterKind → Bool
  | .tcpStream | .tcpOwnedWriteHalf | .unixStream | .unixOwnedWriteHalf => true
  | .childStdin | .stdout | .stderr => false

/-- A writer.  `pipeClosed` is `Pipe::fd.is_none()` of a `ChildStdin`. -/
structure Writer where
  kind : WriterKind
  state : WriteState := {}
  pipeClosed : Bool := false

namespace Writer

variable (w : Writer)

/-- The error of `Pipe::raw_fd` after a close. -/
def pipeClosedError : IoError := { kind := .brokenPipe, message := "pipe is closed" }

def pollWriteOperation (waker : Waker) (buf : Buf) (generation : Generation)
    (start : Option (Except IoError Nat)) : Option (Writer × Poll (Reply Nat)) :=
  if buf.bytes = [] then some (w, .ready ⟨.ok 0, none⟩)
  else if w.pipeClosed then some (w, .ready ⟨.error pipeClosedError, none⟩)
  else
    (w.state.pollWrite waker generation buf start).map fun (state, poll) =>
      ({ w with state }, poll)

def pollFlush (waker : Waker) : Option (Writer × Poll (Reply Unit)) :=
  (w.state.pollFlush waker).map fun (state, poll) => ({ w with state }, poll)

/-- `poll_shutdown` of the write direction of a socket. -/
def pollShutdown (waker : Waker) (start : Option (Except IoError Unit)) :
    Option (Writer × Poll (Reply Unit)) :=
  (w.state.pollShutdown waker start).map fun (state, poll) => ({ w with state }, poll)

/-- `poll_close`.  `start` is the outcome that the future of the socket's
`shutdown` has when it is first polled. -/
def pollClose (waker : Waker) (start : Option (Except IoError Unit)) :
    Option (Writer × Poll (Reply Unit)) :=
  match w.kind with
  | .tcpStream | .tcpOwnedWriteHalf | .unixStream | .unixOwnedWriteHalf =>
      w.pollShutdown waker start
  | .childStdin =>
      (w.state.pollDrain waker).map fun
        | (state, .pending) => ({ w with state }, .pending)
        | (state, .ready ()) =>
            ({ w with state, pipeClosed := true }, .ready ⟨.ok (), none⟩)
  -- "the process stream itself is never closed"
  | .stdout | .stderr => w.pollFlush waker

/-! ## Runs of a writer -/

/-- A call on a writer, or an event of its environment. -/
inductive Call
  | pollWrite (waker : Waker) (generation : Generation) (buf : Buf)
      (start : Option (Except IoError Nat))
  /-- the `hyper` integration of the sockets -/
  | pollBufferedWrite (waker : Waker) (buf : Buf) (start : Option (Except IoError Nat))
  | pollFlush (waker : Waker)
  | pollClose (waker : Waker) (start : Option (Except IoError Unit))
  | newToken (generation : Generation)
  | dropToken (generation : Generation)
  | complete (result : Except IoError Nat)
  | completeShutdown (result : Except IoError Unit)
  deriving DecidableEq

/-- The writer that a call or an event leaves. -/
def step : Call → Option Writer
  | .pollWrite waker generation buf start =>
      (w.pollWriteOperation waker buf generation start).map Prod.fst
  | .pollBufferedWrite waker buf start =>
      if w.kind.isSocket then
        (w.state.pollBufferedWrite waker buf start).map fun (state, _) => { w with state }
      else none
  | .pollFlush waker => (w.pollFlush waker).map Prod.fst
  | .pollClose waker start => (w.pollClose waker start).map Prod.fst
  | .newToken generation => (w.state.newToken generation).map fun state => { w with state }
  | .dropToken generation => (w.state.dropToken generation).map fun state => { w with state }
  | .complete result => (w.state.complete result).map fun state => { w with state }
  | .completeShutdown result =>
      (w.state.completeShutdown result).map fun state => { w with state }

/-- The states of every run of a writer of this kind. -/
def Reachable (kind : WriterKind) : Writer → Prop :=
  Transition.Reachable step (fun _ _ => True) { kind }

/-! ## Running a call to completion -/

/-- The results with which outstanding operations complete: the write that is
in flight, and the shutdown of the socket. -/
structure Results where
  write : Except IoError Nat
  shutdown : Except IoError Unit

/-- Something completes, or a token is dropped, between two polls. -/
inductive Event (results : Results) (w : Writer) : Writer → Prop
  | complete {state : WriteState} : w.state.complete results.write = some state →
      Event results w { w with state }
  | completeShutdown {state : WriteState} :
      w.state.completeShutdown results.shutdown = some state → Event results w { w with state }
  | dropToken {g : Generation} {state : WriteState} : w.state.dropToken g = some state →
      Event results w { w with state }

/-- The future of a new shutdown is pending or ready when it is first polled. -/
def Results.Starts (results : Results) (start : Option (Except IoError Unit)) : Prop :=
  start = none ∨ start = some results.shutdown

/-- `poll`, run to completion, answers `reply`. -/
inductive Finishes (results : Results)
    (poll : Writer → Waker → Option (Except IoError Unit) →
      Option (Writer × Poll (Reply Unit))) : Writer → Reply Unit → Prop
  | ready {w w' : Writer} {waker : Waker} {start : Option (Except IoError Unit)}
      {reply : Reply Unit} : results.Starts start →
      poll w waker start = some (w', .ready reply) → Finishes results poll w reply
  | pending {w w' : Writer} {waker : Waker} {start : Option (Except IoError Unit)}
      {reply : Reply Unit} : results.Starts start →
      poll w waker start = some (w', .pending) → Finishes results poll w' reply →
      Finishes results poll w reply
  | event {w w' : Writer} {reply : Reply Unit} : Event results w w' →
      Finishes results poll w' reply → Finishes results poll w reply

/-- `poll_flush`, run to completion. -/
abbrev Flushes (results : Results) : Writer → Reply Unit → Prop :=
  Finishes results fun w waker _ => w.pollFlush waker

/-- `poll_close`, run to completion. -/
abbrev Closes (results : Results) : Writer → Reply Unit → Prop :=
  Finishes results pollClose

/-- Where `poll_flush` ends in an error, `poll_close` does not end in `Ok(())`. -/
def CloseIsStrict (results : Results) (w : Writer) : Prop :=
  ∀ flush close error, Flushes results w flush → Closes results w close →
    flush.result = .error error → close.result ≠ .ok ()

end Writer

end Runite.Io
