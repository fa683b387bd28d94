import Runite.Tls.Records
import Runite.Io.SoleWriter

/-!
# A TLS session over a socket

A transport whose writes go through a `WriteState`, as those of `TcpStream` do: a
`poll_write` of the stream is raw, with generation 0, and known by its slice.  The
stream keeps polling with the slice of the operation that is in flight, so what the
socket has accepted is what the stream was told.
-/

namespace Runite.Tls

open Runite.Io Program Transition

/-! ## The socket -/

/-- What a socket gets from the kernel: the outcome that the future of a write has when it
is first polled, the answers to the polls of a read, and the outcome that the future of a
shutdown has when it is first polled. -/
structure Kernel where
  write : Submission → Option (Except IoError Nat)
  read : Nat → Poll (Except IoError (List UInt8))
  shutdown : Option (Except IoError Unit)
  write_admits : ∀ submission result, write submission = some result →
    Admits submission.data.length result

/-- The write direction of a socket, and the number of times a read was polled. -/
structure Socket where
  state : WriteState := {}
  reads : Nat := 0

inductive SocketEvent
  /-- the write in flight completes -/
  | complete (result : Except IoError Nat)
  | completeShutdown (result : Except IoError Unit)

namespace Socket

variable (k : Kernel) (io : Socket)

def withState (state : WriteState) : Socket := { io with state }

def occur : SocketEvent → Option Socket
  | .complete result =>
      if ∀ p ∈ io.state.operation, Admits p.submission.data.length result then
        (io.state.complete result).map io.withState
      else none
  | .completeShutdown result => (io.state.completeShutdown result).map io.withState

/-- The state and the answer of a call on the `WriteState`; each of them returns. -/
def answered {α : Type} : Option (WriteState × Poll (Reply α)) →
    Socket × Poll (Except IoError α)
  | some (state, poll) => (io.withState state, poll.map Reply.result)
  | none => (io, .pending)

/-- `poll_write_operation` with the generation 0. -/
def pollWrite (waker : Waker) (slice : Buf) : Socket × Poll (Except IoError Nat) :=
  io.answered (io.state.pollWrite waker 0 slice (k.write (io.state.submission slice)))

def pollFlush (waker : Waker) : Socket × Poll (Except IoError Unit) :=
  io.answered (io.state.pollFlush waker)

/-- `poll_tcp_shutdown`. -/
def pollClose (waker : Waker) : Socket × Poll (Except IoError Unit) :=
  io.answered (io.state.pollShutdown waker k.shutdown)

end Socket

@[reducible]
def Kernel.socket (k : Kernel) : Transport where
  Io := Socket
  Event := SocketEvent
  occur := Socket.occur
  pollRead io _ _ := ({ io with reads := io.reads + 1 }, k.read io.reads)
  pollWrite := Socket.pollWrite k
  pollFlush := Socket.pollFlush
  pollClose := Socket.pollClose k

namespace TlsStream

variable {R : Rustls} {k : Kernel} {s : TlsStream R k.socket} {fuel : Nat} {waker : Waker}

/-! ## The stream and its socket -/

/-- What the socket holds, as far as the stream is concerned: the operation in flight, if
there is one, is for the slice that the stream polls with. -/
structure OverSocket (s : TlsStream R k.socket) : Prop where
  alone : s.io.state.Alone 0
  slot : s.io.state.Slot 0 s.slice
  staged : s.io.state.operation = none ∨ s.outgoingStart < s.outgoing.length
  sent : s.io.state.sent = s.writes.flatMap TransportWrite.accepted

/-- The stream is in step with rustls and with its socket. -/
structure Linked (s : TlsStream R k.socket) : Prop where
  honest : Honest s.writes
  inStep : InStep s
  overSocket : OverSocket s

theorem Linked.apart (h : Linked s) (conn : R.Connection) (closeNotifySent : Bool) :
    Linked { s with conn, closeNotifySent } where
  honest := h.honest
  inStep := Kept.apart (fun _ => h.inStep) _ conn closeNotifySent h.honest
  overSocket := ⟨h.overSocket.alone, h.overSocket.slot, h.overSocket.staged, h.overSocket.sent⟩

/-! ## Sending -/

/-- The staging buffer is being filled, and the socket is idle. -/
structure FillingOverSocket (s : TlsStream R k.socket) : Prop where
  honest : Honest s.writes
  filling : Filling s
  alone : s.io.state.Alone 0
  idle : s.io.state.operation = none
  sent : s.io.state.sent = s.writes.flatMap TransportWrite.accepted

theorem FillingOverSocket.linked (h : FillingOverSocket s) : Linked s :=
  ⟨h.honest, (h.filling h.honest).1, h.alone, .inl h.idle, .inl h.idle, h.sent⟩

theorem takeRecords_fillingOverSocket :
    Preserves FillingOverSocket (takeRecords (R := R) (T := k.socket)) := by
  intro s hs
  have hfilling := takeRecords_filling s hs.filling
  unfold takeRecords at hfilling ⊢
  split
  next hwants =>
    rw [if_pos hwants] at hfilling
    exact ⟨hs.honest, hfilling, hs.alone, hs.idle, hs.sent⟩
  next => exact hs

theorem stageRecords_linked : Preserves Linked (stageRecords (R := R) (T := k.socket) fuel) := by
  apply Triple.inspected
  intro s hs
  split
  · rintro _ rfl
    exact hs
  next hend =>
    refine Triple.updated (P := FillingOverSocket) ?_ ?_
    · exact (takeRecords_fillingOverSocket.loop fuel).consequence (fun _ h => h)
        fun _ _ h => h.linked
    · rintro _ rfl
      exact ⟨hs.honest, clearOutgoing_filling (fun _ => hs.inStep) hend, hs.overSocket.alone,
        hs.overSocket.staged.resolve_right hend, hs.overSocket.sent⟩

theorem honest_wrote (h : Honest s.writes) (io : Socket) {answer : Poll (Except IoError Nat)}
    (hlast : TransportWrite.honest { slice := s.slice, answer }) :
    Honest (s.wrote io answer).writes := by
  intro w hw
  obtain hold | hnew := List.mem_append.mp hw
  · exact h w hold
  · rw [List.mem_singleton.mp hnew]
    exact hlast

/-- What a poll of the socket with the staged records answers, and what the socket has
accepted meanwhile. -/
theorem pollWrite_told (h : Linked s) (hstaged : s.staged ≠ 0) (waker : Waker) :
    ∃ state poll, k.socket.pollWrite s.io waker s.slice =
        (Socket.withState s.io state, poll.map Reply.result) ∧
      state.Alone 0 ∧ WriteState.Told s.io.state state 0 s.slice poll := by
  have hbytes : s.slice.bytes ≠ [] := by
    intro hempty
    have hlength : s.slice.bytes.length = s.staged := by simp [slice, staged]
    rw [hempty] at hlength
    exact hstaged hlength.symm
  obtain ⟨state, poll, hpoll, -⟩ := WriteState.exists_pollWrite s.io.state waker 0 s.slice
    (k.write (s.io.state.submission s.slice))
  obtain ⟨halone, htold⟩ := WriteState.told_of_pollWrite h.overSocket.alone h.overSocket.slot
    hbytes (k.write_admits (s.io.state.submission s.slice)) hpoll
  refine ⟨state, poll, ?_, halone, htold⟩
  change Socket.answered s.io _ = _
  rw [hpoll]
  rfl

/-- An answer that accepts nothing leaves the stream linked. -/
theorem Linked.refused (h : Linked s) (hstaged : s.staged ≠ 0) {state : WriteState}
    {answer : Poll (Except IoError Nat)} (hanswer : ∀ written, answer ≠ .ready (.ok written))
    (halone : state.Alone 0) (hslot : state.Slot 0 s.slice)
    (hsent : state.sent = s.io.state.sent) : Linked (s.wrote (Socket.withState s.io state) answer) := by
  have hnone : TransportWrite.accepted { slice := s.slice, answer } = [] := by
    rcases answer with (error | written) | _
    · rfl
    · exact absurd rfl (hanswer written)
    · rfl
  have hhonest : TransportWrite.honest { slice := s.slice, answer } := by
    rcases answer with (error | written) | _
    · rfl
    · exact absurd rfl (hanswer written)
    · rfl
  have hlt : s.outgoingStart < s.outgoing.length := by
    unfold staged at hstaged
    omega
  refine ⟨honest_wrote h.honest _ hhonest, h.inStep.refused hstaged _ hanswer, halone, hslot,
    .inr hlt, ?_⟩
  change state.sent = (s.writes ++ [_]).flatMap TransportWrite.accepted
  rw [List.flatMap_append, List.flatMap_singleton, hnone, List.append_nil, hsent,
    h.overSocket.sent]

/-- What the socket has accepted leaves the staging buffer. -/
theorem Linked.accepted (h : Linked s) {state : WriteState} {written : Nat}
    (hcount : 1 ≤ written ∧ written ≤ s.slice.bytes.length) (halone : state.Alone 0)
    (hop : state.operation = none)
    (hsent : state.sent = s.io.state.sent ++ s.slice.bytes.take written) :
    Linked (advance written (s.wrote (Socket.withState s.io state) (.ready (.ok written)))) := by
  have hhonest : TransportWrite.honest { slice := s.slice, answer := .ready (.ok written) } := by
    simpa [TransportWrite.honest] using hcount
  refine ⟨honest_wrote h.honest (Socket.withState s.io state) hhonest, h.inStep.accepted _ written,
    halone, .inl hop, .inl hop, ?_⟩
  change state.sent = (s.writes ++ [_]).flatMap TransportWrite.accepted
  rw [List.flatMap_append, List.flatMap_singleton, hsent, h.overSocket.sent]
  rfl

theorem sendTurn_linked : Preserves Linked (sendTurn (R := R) (T := k.socket) fuel waker) := by
  apply Preserves.bind stageRecords_linked
  intro _
  apply Triple.inspected
  intro s hs
  split
  · rintro _ rfl
    exact hs
  next hstaged =>
    obtain ⟨state, poll, hpoll, halone, htold⟩ := pollWrite_told hs hstaged waker
    have hwrote : Triple (· = s) (transportWrite waker) fun result s' =>
        result = some (poll.map Reply.result) ∧
          s' = s.wrote (Socket.withState s.io state) (poll.map Reply.result) := by
      rintro _ rfl
      unfold transportWrite
      rw [hpoll]
      exact ⟨rfl, rfl⟩
    rcases poll with ⟨error | written, source⟩ | _
    · refine ready_triple hwrote ?_ ?_ ?_ (by simp)
      · rintro written _ ⟨hanswer, -⟩
        cases hanswer
      · rintro _ ⟨hanswer, -⟩
        cases hanswer
      · rintro _ _ ⟨-, rfl⟩
        exact hs.refused hstaged (by simp [Poll.map]) halone htold.1 htold.2
    · obtain ⟨hop, hsent, hpos, hle⟩ := htold
      refine ready_triple hwrote ?_ ?_ ?_ (by simp)
      · rintro written' _ ⟨hanswer, rfl⟩
        cases hanswer
        have hlength : s.slice.bytes.length = s.staged := by simp [slice, staged]
        rw [if_neg (by omega), if_neg (by omega)]
        exact hs.accepted ⟨hpos, hle⟩ halone hop hsent
      · rintro _ ⟨hanswer, -⟩
        cases hanswer
      · rintro _ _ ⟨hanswer, -⟩
        cases hanswer
    · refine ready_triple hwrote ?_ ?_ ?_ (by simp)
      · rintro written _ ⟨hanswer, -⟩
        cases hanswer
      · rintro _ ⟨-, rfl⟩
        exact hs.refused hstaged (by simp [Poll.map]) halone (.inr (.inl htold.1)) htold.2
      · rintro _ _ ⟨hanswer, -⟩
        cases hanswer

/-! ## Every call -/

/-- The socket has changed only in what does not concern the slice in flight. -/
theorem Linked.idle (h : Linked s) {state : WriteState} (halone : state.Alone 0)
    (hop : state.operation = none) (hsent : state.sent = s.io.state.sent) :
    Linked (s.withIo (Socket.withState s.io state)) :=
  ⟨h.honest, Kept.apart (fun _ => h.inStep) _ _ _ h.honest, halone, .inl hop, .inl hop,
    hsent.trans h.overSocket.sent⟩

theorem Linked.operation_eq_none (h : Linked s) (hstaged : s.staged = 0) :
    s.io.state.operation = none := by
  refine h.overSocket.staged.resolve_right ?_
  unfold staged at hstaged
  omega

theorem Linked.occur (h : Linked s) {event : SocketEvent} {io : Socket}
    (hoccur : Socket.occur s.io event = some io) : Linked (s.withIo io) := by
  have hinStep := Kept.apart (fun _ => h.inStep) io s.conn s.closeNotifySent h.honest
  obtain ⟨halone, hslot, hstaged, hsent⟩ := h.overSocket
  cases event with
  | complete result =>
      simp only [Socket.occur] at hoccur
      split at hoccur
      next hadmits =>
        obtain ⟨state, hstate, rfl⟩ := Option.map_eq_some_iff.mp hoccur
        obtain ⟨halone', hbusy, -, hoccupied, hsame⟩ := halone.of_complete hslot hadmits hstate
        exact ⟨h.honest, hinStep, halone', .inr (.inl hoccupied),
          .inr (hstaged.resolve_left hbusy), hsame.trans hsent⟩
      next => cases hoccur
  | completeShutdown result =>
      obtain ⟨state, hstate, rfl⟩ := Option.map_eq_some_iff.mp hoccur
      obtain ⟨halone', hop, hsame⟩ := halone.of_completeShutdown hstate
      exact ⟨h.honest, hinStep, halone', hslot.of_operation_eq hop,
        hstaged.imp_left hop.trans, hsame.trans hsent⟩

/-- A read concerns neither what is sent nor the write direction of the socket. -/
theorem pollRefill_overSocket (hs : OverSocket s) : OverSocket (pollRefill waker s).1 := by
  have hrefill : Preserves OverSocket (pollRefill (R := R) (T := k.socket) waker) := by
    refine ready_preserves ?_ ?_
    · exact fun s hs => ⟨hs.alone, hs.slot, hs.staged, hs.sent⟩
    · exact fun _ s hs => ⟨hs.alone, hs.slot, hs.staged, hs.sent⟩
  exact hrefill s hs

theorem pollRefill_writes (s : TlsStream R k.socket) :
    (pollRefill waker s).1.writes = s.writes := by
  have hrefill : Preserves (fun s' => s'.writes = s.writes)
      (pollRefill (R := R) (T := k.socket) waker) := by
    refine ready_preserves ?_ ?_
    · exact fun s hs => hs
    · exact fun _ s hs => hs
  exact hrefill s rfl

theorem stable_linked : Stable (Linked (R := R) (k := k)) where
  send _ _ := sendTurn_linked
  conn _ conn hs := hs.apart conn _
  reset s hempty hs :=
    ⟨hs.honest, stable_kept.reset s hempty (fun _ => hs.inStep) hs.honest,
      hs.overSocket.alone, hs.overSocket.slot, hs.overSocket.staged, hs.overSocket.sent⟩
  refill waker s hempty hs := by
    have hhonest : Honest (pollRefill waker s).1.writes := by
      rw [pollRefill_writes]
      exact hs.honest
    exact ⟨hhonest, stable_kept.refill waker s hempty (fun _ => hs.inStep) hhonest,
      pollRefill_overSocket hs.overSocket⟩
  readBuffered s hs := by
    have hinStep := hs.inStep.readBuffered
    unfold TlsStream.readBuffered at hinStep ⊢
    split at hinStep <;>
      exact ⟨hs.honest, hinStep, hs.overSocket.alone, hs.overSocket.slot, hs.overSocket.staged,
        hs.overSocket.sent⟩
  notify _ conn hs := hs.apart conn true
  flush waker s hstaged hs := by
    obtain ⟨state, poll, hpoll, -⟩ := WriteState.exists_pollFlush s.io.state waker
    obtain ⟨halone, hop, hsent⟩ :=
      hs.overSocket.alone.of_pollFlush (hs.operation_eq_none hstaged) hpoll
    have hflush : (transportFlush waker s).1 = s.withIo (Socket.withState s.io state) := by
      change s.withIo (Socket.answered s.io (s.io.state.pollFlush waker)).1 = _
      rw [hpoll]
      rfl
    rw [hflush]
    exact hs.idle halone hop hsent
  close waker s hstaged hs := by
    obtain ⟨state, poll, hpoll, -⟩ := WriteState.exists_pollShutdown s.io.state waker k.shutdown
    obtain ⟨halone, hop, hsent⟩ :=
      hs.overSocket.alone.of_pollShutdown (hs.operation_eq_none hstaged) hpoll
    have hclose : (transportClose waker s).1 = s.withIo (Socket.withState s.io state) := by
      change s.withIo (Socket.answered s.io (s.io.state.pollShutdown waker k.shutdown)).1 = _
      rw [hpoll]
      rfl
    rw [hclose]
    exact hs.idle halone hop hsent
  occur _ _ _ hoccur hs := hs.occur hoccur

theorem handPlaintext_linked (bufs : List (List UInt8)) :
    Preserves (Linked (R := R) (k := k)) (handPlaintext bufs) := by
  intro s hs
  have hkept := handPlaintext_kept bufs s fun _ => hs.inStep
  unfold handPlaintext at hkept ⊢
  split at hkept <;>
    exact ⟨hs.honest, hkept hs.honest, hs.overSocket.alone, hs.overSocket.slot,
      hs.overSocket.staged, hs.overSocket.sent⟩

/-- A stream over a socket is linked to it, whatever is called. -/
theorem linked_of_reachable {conn : R.Connection} {place : Nat → Nat} {s : Session R k.socket}
    {ok : Session R k.socket → Session.Action k.socket → Prop}
    (h : Reachable Session.step ok (Session.new ({} : Socket) conn place) s) : Linked s.stream := by
  refine Session.keeps_of_reachable stable_linked handPlaintext_linked ?_ h
  refine ⟨by simp [Honest, Session.new], ⟨rfl, rfl, List.isChain_nil, by simp [Session.new]⟩, ?_⟩
  exact ⟨⟨rfl, fun _ => rfl, by simp [Session.new], rfl, rfl⟩, .inl rfl, .inl rfl, rfl⟩

end TlsStream

end Runite.Tls
