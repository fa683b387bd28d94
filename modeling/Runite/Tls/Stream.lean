import Runite.Io.Operation
import Runite.Lib.Program

/-!
# A TLS session over a transport

`tls::TlsStream`, function by function, over any `Connection` of rustls and any
transport.  Both are black boxes: a type of states and the calls that the stream
makes.

`ready` is `ready!(..)?`.  The loops have fuel, and a call that runs out of it is cut
short where it is, so that a statement about every call is one about every moment of
a call that does not end, too.
-/

namespace Runite.Tls

open Runite.Io Program

/-! ## The black boxes -/

/-- `rustls::Connection`, through the calls that the stream makes.  `read_tls` takes a
part of the ciphertext it is given and says how much, `write_vectored` a part of the
plaintext; neither takes anything when it fails. -/
structure Rustls where
  Connection : Type
  isHandshaking : Connection → Bool
  wantsWrite : Connection → Bool
  /-- the records that `write_tls` appends to the vector -/
  writeTls : Connection → Connection × List UInt8
  readTls : Connection → List UInt8 → Connection × Except IoError Nat
  /-- with the text of a `rustls::Error` -/
  processNewPackets : Connection → Connection × Except String Unit
  /-- `reader().fill_buf()`; the stream does not look at the chunk -/
  fillBuf : Connection → Connection × Except IoError Unit
  /-- `reader().read` into a buffer of the given length -/
  read : Connection → Nat → Connection × Except IoError (List UInt8)
  /-- `writer().write_vectored` -/
  writeVectored : Connection → List (List UInt8) → Connection × Except IoError Nat
  sendCloseNotify : Connection → Connection
  readTls_le : ∀ conn source taken,
    (readTls conn source).2 = .ok taken → taken ≤ source.length
  writeVectored_le : ∀ conn bufs accepted,
    (writeVectored conn bufs).2 = .ok accepted → accepted ≤ bufs.flatten.length

/-- A type that is `AsyncRead + AsyncWrite + Unpin`.  A read returns the bytes it has put
into a buffer of the given length.  `Event` is what can happen to the transport between
the polls. -/
structure Transport where
  Io : Type
  Event : Type
  occur : Io → Event → Option Io
  pollRead : Io → Waker → Nat → Io × Poll (Except IoError (List UInt8))
  pollWrite : Io → Waker → Buf → Io × Poll (Except IoError Nat)
  pollFlush : Io → Waker → Io × Poll (Except IoError Unit)
  pollClose : Io → Waker → Io × Poll (Except IoError Unit)

/-- A `poll_write` of the transport and its answer. -/
structure TransportWrite where
  slice : Buf
  answer : Poll (Except IoError Nat)
  deriving DecidableEq

/-- The bytes that the transport reported accepted. -/
def TransportWrite.accepted (w : TransportWrite) : List UInt8 :=
  match w.answer with
  | .ready (.ok written) => w.slice.bytes.take written
  | .ready (.error _) => []
  | .pending => []

/-- The count that the transport reported is one that it can have accepted. -/
def TransportWrite.honest (w : TransportWrite) : Bool :=
  match w.answer with
  | .ready (.ok written) => 1 ≤ written && written ≤ w.slice.bytes.length
  | .ready (.error _) => true
  | .pending => true

/-! ## The stream -/

def ciphertextChunk : Nat := 16 * 1024

/-- `TlsStream<S>`.  `place n` is where the allocator has the vector `outgoing` once it is
filled for the `n`-th time.  The last six fields are history: the number of times that
`outgoing` was filled, the records taken out of rustls, the polls of the transport's
`poll_write`, the plaintext handed to rustls, the ciphertext read from the transport, and
the ciphertext handed to rustls. -/
structure TlsStream (R : Rustls) (T : Transport) where
  io : T.Io
  conn : R.Connection
  incoming : List UInt8 := List.replicate ciphertextChunk 0
  incomingStart : Nat := 0
  incomingEnd : Nat := 0
  outgoing : List UInt8 := []
  outgoingStart : Nat := 0
  transportEof : Bool := false
  closeNotifySent : Bool := false
  place : Nat → Nat
  stagings : Nat := 0
  records : List UInt8 := []
  writes : List TransportWrite := []
  plaintext : List UInt8 := []
  received : List UInt8 := []
  ingested : List UInt8 := []

namespace TlsStream

variable {R : Rustls} {T : Transport} {α β γ : Type}

def withIo (s : TlsStream R T) (io : T.Io) : TlsStream R T := { s with io }

def staged (s : TlsStream R T) : Nat := s.outgoing.length - s.outgoingStart

/-- `&self.outgoing[self.outgoing_start..]`. -/
def slice (s : TlsStream R T) : Buf where
  address := s.place s.stagings + s.outgoingStart
  bytes := s.outgoing.drop s.outgoingStart

/-- `incoming[incoming_start..incoming_end]`. -/
def buffered (s : TlsStream R T) : List UInt8 :=
  (s.incoming.take s.incomingEnd).drop s.incomingStart

/-- `ready!(..)?`: `early` returns from the function. -/
def ready (m : Program (TlsStream R T) (Poll (Except IoError α)))
    (early : Poll (Except IoError β) → γ) (next : α → Program (TlsStream R T) γ) :
    Program (TlsStream R T) γ := do
  match ← m with
  | .pending => pure (early .pending)
  | .ready (.error error) => pure (early (.ready (.error error)))
  | .ready (.ok a) => next a

/-! ### Sending -/

/-- The `while` loop of `stage_records`, one turn: `write_tls`, when rustls wants it. -/
def takeRecords (s : TlsStream R T) : TlsStream R T × Option (Option Unit) :=
  if R.wantsWrite s.conn then
    let (conn, bytes) := R.writeTls s.conn
    ({ s with conn, outgoing := s.outgoing ++ bytes, records := s.records ++ bytes }, some none)
  else (s, some (some ()))

/-- `outgoing.clear()`. -/
def clearOutgoing (s : TlsStream R T) : TlsStream R T :=
  { s with outgoing := [], outgoingStart := 0, stagings := s.stagings + 1 }

def stageRecords (fuel : Nat) : Program (TlsStream R T) Unit := do
  let s ← inspect
  if s.outgoingStart < s.outgoing.length then pure ()
  else
    update clearOutgoing
    loop takeRecords fuel

/-- The transport has answered a `poll_write` of the staged records. -/
def wrote (s : TlsStream R T) (io : T.Io) (answer : Poll (Except IoError Nat)) : TlsStream R T :=
  { s with io, writes := s.writes ++ [{ slice := s.slice, answer }] }

/-- `poll_write` of the transport with the staged records. -/
def transportWrite (waker : Waker) (s : TlsStream R T) :
    TlsStream R T × Option (Poll (Except IoError Nat)) :=
  let (io, answer) := T.pollWrite s.io waker s.slice
  (s.wrote io answer, some answer)

/-- `self.outgoing_start += written`. -/
def advance (written : Nat) (s : TlsStream R T) : TlsStream R T :=
  { s with outgoingStart := s.outgoingStart + written }

def acceptedNoneError : IoError :=
  { kind := .writeZero, message := "the transport accepted none of a TLS record" }

def acceptedTooMuchError : IoError :=
  { kind := .other 0
    message := "the transport reported writing more of a TLS record than it was given" }

/-- `poll_send`, one turn of its loop. -/
def sendTurn (fuel : Nat) (waker : Waker) :
    Program (TlsStream R T) (Option (Poll (Except IoError Unit))) := do
  stageRecords fuel
  let s ← inspect
  if s.staged = 0 then pure (some (.ready (.ok ())))
  else
    ready (transportWrite waker) some fun written =>
      if written = 0 then pure (some (.ready (.error acceptedNoneError)))
      else if s.staged < written then pure (some (.ready (.error acceptedTooMuchError)))
      else do
        update (advance written)
        pure none

def pollSend (fuel : Nat) (waker : Waker) :
    Program (TlsStream R T) (Poll (Except IoError Unit)) :=
  loop (sendTurn fuel waker) fuel

/-! ### Receiving -/

/-- `poll_read` of the transport into `incoming`. -/
def transportRead (waker : Waker) (s : TlsStream R T) :
    TlsStream R T × Option (Poll (Except IoError (List UInt8))) :=
  let (io, answer) := T.pollRead s.io waker s.incoming.length
  (s.withIo io, some answer)

/-- The bytes of a read are in `incoming`. -/
def filled (bytes : List UInt8) (s : TlsStream R T) : TlsStream R T :=
  { s with
    incoming := bytes ++ s.incoming.drop bytes.length
    incomingStart := 0
    incomingEnd := bytes.length
    transportEof := s.transportEof || bytes.isEmpty
    received := s.received ++ bytes }

def pollRefill (waker : Waker) : Program (TlsStream R T) (Poll (Except IoError Unit)) :=
  ready (transportRead waker) id fun bytes => do
    update (filled bytes)
    pure (.ready (.ok ()))

/-- `read_tls(&mut io::empty())`. -/
def readEmpty (s : TlsStream R T) : TlsStream R T × Option (Except IoError Nat) :=
  let (conn, result) := R.readTls s.conn []
  ({ s with conn }, some result)

/-- `read_tls(&mut source)`, and `incoming_start` goes on by what it has taken. -/
def readBuffered (s : TlsStream R T) : TlsStream R T × Option (Except IoError Nat) :=
  match R.readTls s.conn s.buffered with
  | (conn, .error error) => ({ s with conn }, some (.error error))
  | (conn, .ok taken) =>
      ({ s with
          conn
          incomingStart := s.incomingStart + taken
          ingested := s.ingested ++ s.buffered.take taken }, some (.ok taken))

def processNewPackets (s : TlsStream R T) : TlsStream R T × Option (Except String Unit) :=
  let (conn, result) := R.processNewPackets s.conn
  ({ s with conn }, some result)

/-- `incoming_start = 0; incoming_end = 0`. -/
def resetIncoming (s : TlsStream R T) : TlsStream R T :=
  { s with incomingStart := 0, incomingEnd := 0 }

/-- `poll_ingest`, one turn of its loop. -/
def ingestTurn (fuel : Nat) (waker : Waker) :
    Program (TlsStream R T) (Option (Poll (Except IoError Bool))) := do
  let s ← inspect
  if s.incomingStart = s.incomingEnd then
    update resetIncoming
    if s.transportEof then
      match ← readEmpty with
      | .error error => pure (some (.ready (.error error)))
      | .ok _ => pure (some (.ready (.ok true)))
    else ready (pollRefill waker) some fun _ => pure none
  else
    match ← readBuffered with
    | .error error => pure (some (.ready (.error error)))
    | .ok taken =>
        if taken = 0 then pure (some (.ready (.ok false)))
        else
          match ← processNewPackets with
          | .error message =>
              let _ ← pollSend fuel waker
              pure (some (.ready (.error { kind := .invalidData, message })))
          | .ok () => pure (some (.ready (.ok true)))

def pollIngest (fuel : Nat) (waker : Waker) :
    Program (TlsStream R T) (Poll (Except IoError Bool)) :=
  loop (ingestTurn fuel waker) fuel

/-! ### The handshake -/

def closedInHandshakeError : IoError :=
  { kind := .unexpectedEof, message := "the transport closed during the TLS handshake" }

def endedInHandshakeError : IoError :=
  { kind := .unexpectedEof, message := "the peer closed the TLS session during the handshake" }

/-- The `while` loop of `poll_handshake`, one turn.  The loop ends with `none` when the
handshake is over, and with what the function returns otherwise. -/
def handshakeTurn (fuel : Nat) (waker : Waker) :
    Program (TlsStream R T) (Option (Option (Poll (Except IoError Unit)))) := do
  let s ← inspect
  if !R.isHandshaking s.conn then pure (some none)
  else
    ready (pollSend fuel waker) (some ∘ some) fun _ => do
      let s ← inspect
      if !R.isHandshaking s.conn then pure (some none)
      else if s.transportEof then pure (some (some (.ready (.error closedInHandshakeError))))
      else
        ready (pollIngest fuel waker) (some ∘ some) fun more =>
          if more then pure none
          else pure (some (some (.ready (.error endedInHandshakeError))))

def pollHandshake (fuel : Nat) (waker : Waker) :
    Program (TlsStream R T) (Poll (Except IoError Unit)) := do
  match ← loop (handshakeTurn fuel waker) fuel with
  | some early => pure early
  | none => pollSend fuel waker

/-- `if self.conn.is_handshaking() { ready!(self.poll_handshake(cx))?; }` -/
def afterHandshake (fuel : Nat) (waker : Waker)
    (next : Program (TlsStream R T) (Poll (Except IoError α))) :
    Program (TlsStream R T) (Poll (Except IoError α)) := do
  let s ← inspect
  if R.isHandshaking s.conn then ready (pollHandshake fuel waker) id fun _ => next
  else next

/-! ### Reading -/

def fillBuf (s : TlsStream R T) : TlsStream R T × Option (Except IoError Unit) :=
  let (conn, result) := R.fillBuf s.conn
  ({ s with conn }, some result)

/-- `reader().read(buf)`. -/
def readPlaintext (capacity : Nat) (s : TlsStream R T) :
    TlsStream R T × Option (Except IoError (List UInt8)) :=
  let (conn, result) := R.read s.conn capacity
  ({ s with conn }, some result)

/-- `poll_fill`, one turn of its loop. -/
def fillTurn (fuel : Nat) (waker : Waker) :
    Program (TlsStream R T) (Option (Poll (Except IoError Unit))) := do
  match ← fillBuf with
  | .ok () => pure (some (.ready (.ok ())))
  | .error error =>
      if error.kind = .wouldBlock then
        ready (pollIngest fuel waker) some fun more => do
          if more then
            let _ ← pollSend fuel waker
            pure none
          else pure (some (.ready (.ok ())))
      else pure (some (.ready (.error error)))

def pollFill (fuel : Nat) (waker : Waker) :
    Program (TlsStream R T) (Poll (Except IoError Unit)) :=
  afterHandshake fuel waker (loop (fillTurn fuel waker) fuel)

/-- `poll_read_plaintext`, which is `poll_read`. -/
def pollRead (fuel : Nat) (waker : Waker) (capacity : Nat) :
    Program (TlsStream R T) (Poll (Except IoError (List UInt8))) :=
  if capacity = 0 then pure (.ready (.ok []))
  else
    ready (pollFill fuel waker) id fun _ => do
      let result ← readPlaintext capacity
      pure (.ready result)

/-! ### Writing -/

def sessionClosedError : IoError :=
  { kind := .brokenPipe, message := "the TLS session has been closed" }

def noPlaintextError : IoError :=
  { kind := .writeZero, message := "rustls accepted no plaintext" }

/-- `writer().write_vectored(bufs)`. -/
def handPlaintext (bufs : List (List UInt8)) (s : TlsStream R T) :
    TlsStream R T × Option (Except IoError Nat) :=
  match R.writeVectored s.conn bufs with
  | (conn, .error error) => ({ s with conn }, some (.error error))
  | (conn, .ok accepted) =>
      ({ s with conn, plaintext := s.plaintext ++ bufs.flatten.take accepted },
        some (.ok accepted))

/-- The end of `poll_write_plaintext`: the staged records go first. -/
def sendPlaintext (fuel : Nat) (waker : Waker) (bufs : List (List UInt8)) :
    Program (TlsStream R T) (Poll (Except IoError Nat)) :=
  ready (pollSend fuel waker) id fun _ => do
    match ← handPlaintext bufs with
    | .error error => pure (.ready (.error error))
    | .ok accepted =>
        if accepted = 0 then pure (.ready (.error noPlaintextError))
        else
          let _ ← pollSend fuel waker
          pure (.ready (.ok accepted))

/-- `poll_write_plaintext`, which is `poll_write_vectored`. -/
def pollWriteVectored (fuel : Nat) (waker : Waker) (bufs : List (List UInt8)) :
    Program (TlsStream R T) (Poll (Except IoError Nat)) := do
  if bufs.all List.isEmpty then pure (.ready (.ok 0))
  else
    let s ← inspect
    if s.closeNotifySent then pure (.ready (.error sessionClosedError))
    else afterHandshake fuel waker (sendPlaintext fuel waker bufs)

def pollWrite (fuel : Nat) (waker : Waker) (buf : List UInt8) :
    Program (TlsStream R T) (Poll (Except IoError Nat)) :=
  pollWriteVectored fuel waker [buf]

/-- `poll_flush` of the transport. -/
def transportFlush (waker : Waker) (s : TlsStream R T) :
    TlsStream R T × Option (Poll (Except IoError Unit)) :=
  let (io, answer) := T.pollFlush s.io waker
  (s.withIo io, some answer)

/-- `poll_close` of the transport. -/
def transportClose (waker : Waker) (s : TlsStream R T) :
    TlsStream R T × Option (Poll (Except IoError Unit)) :=
  let (io, answer) := T.pollClose s.io waker
  (s.withIo io, some answer)

def pollFlush (fuel : Nat) (waker : Waker) :
    Program (TlsStream R T) (Poll (Except IoError Unit)) :=
  ready (pollSend fuel waker) id fun _ => transportFlush waker

/-- The alert of `poll_close`, which is queued once. -/
def closeNotify (s : TlsStream R T) : TlsStream R T :=
  if s.closeNotifySent then s
  else
    { s with
      conn := if R.isHandshaking s.conn then s.conn else R.sendCloseNotify s.conn
      closeNotifySent := true }

def pollClose (fuel : Nat) (waker : Waker) :
    Program (TlsStream R T) (Poll (Except IoError Unit)) := do
  update closeNotify
  ready (pollSend fuel waker) id fun _ => transportClose waker

end TlsStream

end Runite.Tls
