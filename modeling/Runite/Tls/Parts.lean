import Runite.Tls.Socket

/-!
# Taking a TLS stream apart

`TlsStream::into_parts` over a socket, and a caller that resumes the session as
`TlsParts` says: it writes the staged ciphertext until all of it is reported written,
and then what the connection produces, each by raw polls or by `write_all`.

The staged bytes may be in flight already.  `drain` moves them to the front of their
vector, where the socket does not recognise them, and a tracked write is another one by
its generation; `Resumable` leaves out the streams that are taken apart in such a state.
-/

namespace Runite.Tls

open Runite.Io Program Transition WriteState

/-- `TlsParts<S>`.  A vector is known by its place and its bytes. -/
structure TlsParts (R : Rustls) (T : Transport) where
  io : T.Io
  connection : R.Connection
  bufferedCiphertext : List UInt8
  stagedCiphertext : Buf

/-- `into_parts`: `drain(..outgoing_start)` moves what is left to the front of the vector. -/
def TlsStream.intoParts {R : Rustls} {T : Transport} (s : TlsStream R T) : TlsParts R T where
  io := s.io
  connection := s.conn
  bufferedCiphertext := s.buffered
  stagedCiphertext := { address := s.place s.stagings, bytes := s.outgoing.drop s.outgoingStart }

/-! ## The caller -/

/-- How a buffer is written: by raw polls, or by a `write_all` with its token. -/
inductive Method
  | raw
  | writeAll (generation : Generation)
  deriving DecidableEq

namespace Method

def generation : Method → Generation
  | .raw => 0
  | .writeAll generation => generation

/-- `write_all` makes a token. -/
def start (state : WriteState) : Method → Option WriteState
  | .raw => some state
  | .writeAll generation => state.newToken generation

/-- `write_all` has returned, and its token is dropped. -/
def finish (state : WriteState) : Method → Option WriteState
  | .raw => some state
  | .writeAll generation => state.dropToken generation

end Method

/-- A resumed session: the socket, the buffer that is being written, and how much of it was
reported written.  `failed` says that a `write_all` has returned an error; `records` is
history: the bytes of all records that were taken out of the connection. -/
structure Resumption where
  state : WriteState
  method : Method
  buf : Buf
  written : Nat := 0
  failed : Bool := false
  records : List UInt8

/-- The caller begins with the staged ciphertext. -/
def TlsStream.resume {R : Rustls} {k : Kernel} (s : TlsStream R k.socket) (method : Method) :
    Option Resumption :=
  (method.start s.intoParts.io.state).map fun state =>
    { state, method, buf := s.intoParts.stagedCiphertext, records := s.records }

namespace Resumption

inductive Action
  /-- a poll; `start` is the outcome of the future of a new write when it is first polled -/
  | poll (waker : Waker) (start : Option (Except IoError Nat))
  | complete (result : Except IoError Nat)
  | completeShutdown (result : Except IoError Unit)
  /-- the connection has produced more, which is written in this way -/
  | produce (buf : Buf) (method : Method)
  deriving DecidableEq

variable (r : Resumption)

/-- `&buf[written..]`. -/
def slice : Buf where
  address := r.buf.address + r.written
  bytes := r.buf.bytes.drop r.written

def answered (state : WriteState) : Poll (Reply Nat) → Resumption
  | .pending => { r with state }
  | .ready ⟨.ok written, _⟩ => { r with state, written := r.written + written }
  | .ready ⟨.error _, _⟩ => { r with state, failed := r.method ≠ .raw }

/-- One action; `none` when it is not possible. -/
def step : Action → Option Resumption
  | .poll waker start =>
      if !r.failed ∧ r.slice.bytes ≠ [] ∧
          ∀ result ∈ start, Admits r.slice.bytes.length result then
        (r.state.pollWrite waker r.method.generation r.slice start).map fun (state, poll) =>
          r.answered state poll
      else none
  | .complete result =>
      if ∀ p ∈ r.state.operation, Admits p.submission.data.length result then
        (r.state.complete result).map fun state => { r with state }
      else none
  | .completeShutdown result =>
      (r.state.completeShutdown result).map fun state => { r with state }
  | .produce buf method =>
      if r.slice.bytes = [] then
        (r.method.finish r.state).bind fun state =>
          (method.start state).map fun state =>
            { state, method, buf, records := r.records ++ buf.bytes }
      else none

end Resumption

/-! ## When nothing is written twice -/

/-- The socket holds no operation of the stream, or one that has failed; or the staged
bytes are where they were, and the caller polls as the stream did. -/
def TlsStream.Resumable {R : Rustls} {k : Kernel} (s : TlsStream R k.socket)
    (method : Method) : Prop :=
  s.io.state.operation = none ∨ s.io.state.Failed ∨ method = .raw ∧ s.outgoingStart = 0

theorem alone_of_start {state state' : WriteState} {g : Generation} {method : Method}
    (h : state.Alone g) (hstart : method.start state = some state') :
    state'.Alone method.generation ∧ state'.operation = state.operation ∧
      state'.sent = state.sent := by
  cases method with
  | raw =>
      cases hstart
      exact ⟨⟨h.queue, h.completed, h.retained, h.buffered, rfl⟩, rfl, rfl⟩
  | writeAll generation =>
      simp only [Method.start, newToken] at hstart
      split at hstart
      · cases hstart
        refine ⟨⟨h.queue, h.completed, h.retained, h.buffered, ?_⟩, rfl, rfl⟩
        simp [isLiveWrite, Method.generation]
      · cases hstart

theorem alone_of_finish {state state' : WriteState} {g : Generation} {method : Method}
    (h : state.Alone g) (hfinish : method.finish state = some state') :
    state'.Alone 0 ∧ state'.operation = state.operation ∧ state'.sent = state.sent := by
  cases method with
  | raw =>
      cases hfinish
      exact ⟨⟨h.queue, h.completed, h.retained, h.buffered, rfl⟩, rfl, rfl⟩
  | writeAll generation =>
      obtain ⟨waiters, -, rfl⟩ := Option.map_eq_some_iff.mp hfinish
      exact ⟨⟨h.queue, h.completed, h.retained, h.buffered, rfl⟩, rfl, rfl⟩

namespace Resumption

variable {r r' : Resumption} {a : Action}

/-- What the socket has accepted and what is left to write are the records, and the
operation in flight is for what is left. -/
structure Exact (r : Resumption) : Prop where
  alone : r.state.Alone r.method.generation
  slot : r.state.Slot r.method.generation r.slice
  left : r.state.operation = none ∨ r.state.Failed ∨ r.slice.bytes ≠ []
  sent : r.state.sent ++ r.slice.bytes = r.records

theorem Exact.answered (h : Exact r) (hleft : r.slice.bytes ≠ []) {state : WriteState}
    {poll : Poll (Reply Nat)} (halone : state.Alone r.method.generation)
    (htold : Told r.state state r.method.generation r.slice poll) :
    Exact (r.answered state poll) := by
  rcases poll with ⟨error | written, source⟩ | _
  · obtain ⟨hslot, hsent⟩ := htold
    exact ⟨halone, hslot, .inr (.inr hleft), (congrArg (· ++ r.slice.bytes) hsent).trans h.sent⟩
  · obtain ⟨hop, hsent, -, -⟩ := htold
    refine ⟨halone, .inl hop, .inl hop, ?_⟩
    have hsplit : r.slice.bytes.take written ++ r.buf.bytes.drop (r.written + written) =
        r.slice.bytes := by
      rw [← List.drop_drop]
      exact List.take_append_drop written r.slice.bytes
    calc
      _ = r.state.sent ++ (r.slice.bytes.take written ++
            r.buf.bytes.drop (r.written + written)) := by
          rw [← List.append_assoc, ← hsent]
          rfl
      _ = r.records := by rw [hsplit, h.sent]
  · obtain ⟨hoccupied, hsent⟩ := htold
    exact ⟨halone, .inr (.inl hoccupied), .inr (.inr hleft),
      (congrArg (· ++ r.slice.bytes) hsent).trans h.sent⟩

/-- The next buffer is begun when the socket holds nothing of the one before. -/
theorem Exact.produced (h : Exact r) (hdone : r.slice.bytes = []) {state₁ state : WriteState}
    {buf : Buf} {method : Method} (hfinish : r.method.finish r.state = some state₁)
    (hstart : method.start state₁ = some state) :
    Exact { state, method, buf, records := r.records ++ buf.bytes } := by
  obtain ⟨halone₁, hop₁, hsent₁⟩ := alone_of_finish h.alone hfinish
  obtain ⟨halone, hop, hsent⟩ := alone_of_start halone₁ hstart
  have hop' : state.operation = r.state.operation := hop.trans hop₁
  have hfree : state.operation = none ∨ state.Failed := by
    obtain hidle | hfailed | hleft := h.left
    · exact .inl (hop'.trans hidle)
    · exact .inr (hfailed.of_operation_eq hop')
    · exact absurd hdone hleft
  refine ⟨halone, hfree.imp_right .inr, hfree.imp_right .inl, ?_⟩
  have hrecords := h.sent
  rw [hdone, List.append_nil] at hrecords
  change state.sent ++ buf.bytes = r.records ++ buf.bytes
  rw [hsent, hsent₁, hrecords]

theorem Exact.step (h : Exact r) (hstep : r.step a = some r') : Exact r' := by
  cases a with
  | poll waker start =>
      simp only [Resumption.step] at hstep
      split at hstep
      next hpolls =>
        obtain ⟨⟨state, poll⟩, hpoll, rfl⟩ := Option.map_eq_some_iff.mp hstep
        obtain ⟨halone, htold⟩ := told_of_pollWrite h.alone h.slot hpolls.2.1 hpolls.2.2 hpoll
        exact h.answered hpolls.2.1 halone htold
      next => cases hstep
  | complete result =>
      simp only [Resumption.step] at hstep
      split at hstep
      next hadmits =>
        obtain ⟨state, hcomplete, rfl⟩ := Option.map_eq_some_iff.mp hstep
        obtain ⟨halone, hbusy, hpending, hoccupied, hsent⟩ :=
          h.alone.of_complete h.slot hadmits hcomplete
        have hleft : r.slice.bytes ≠ [] := (h.left.resolve_left hbusy).resolve_left hpending
        exact ⟨halone, .inr (.inl hoccupied), .inr (.inr hleft),
          (congrArg (· ++ r.slice.bytes) hsent).trans h.sent⟩
      next => cases hstep
  | completeShutdown result =>
      obtain ⟨state, hcomplete, rfl⟩ := Option.map_eq_some_iff.mp hstep
      obtain ⟨halone, hop, hsent⟩ := h.alone.of_completeShutdown hcomplete
      refine ⟨halone, h.slot.of_operation_eq hop, ?_,
        (congrArg (· ++ r.slice.bytes) hsent).trans h.sent⟩
      obtain hidle | hfailed | hleft := h.left
      · exact .inl (hop.trans hidle)
      · exact .inr (.inl (hfailed.of_operation_eq hop))
      · exact .inr (.inr hleft)
  | produce buf method =>
      simp only [Resumption.step] at hstep
      split at hstep
      next hdone =>
        obtain ⟨state₁, hfinish, hrest⟩ := Option.bind_eq_some_iff.mp hstep
        obtain ⟨state, hstart, rfl⟩ := Option.map_eq_some_iff.mp hrest
        exact h.produced hdone hfinish hstart
      next => cases hstep

end Resumption

/-- A stream that is taken apart while it is resumable is resumed exactly. -/
theorem TlsStream.Linked.resume {R : Rustls} {k : Kernel} {s : TlsStream R k.socket}
    {method : Method} {r : Resumption} (h : Linked s) (hresumable : s.Resumable method)
    (hresume : s.resume method = some r) : r.Exact := by
  obtain ⟨state, hstart, rfl⟩ := Option.map_eq_some_iff.mp hresume
  obtain ⟨halone, hop, hsent⟩ := alone_of_start h.overSocket.alone hstart
  have hrecords : state.sent ++ s.slice.bytes = s.records := by
    rw [hsent]
    exact (congrArg (· ++ s.slice.bytes) h.overSocket.sent).trans h.inStep.sent
  obtain hidle | hfailed | ⟨rfl, hstartZero⟩ := hresumable
  · have hidle' : state.operation = none := hop.trans hidle
    exact ⟨halone, .inl hidle', .inl hidle', hrecords⟩
  · have hfailed' : state.Failed := hfailed.of_operation_eq hop
    exact ⟨halone, .inr (.inr hfailed'), .inr (.inl hfailed'), hrecords⟩
  · -- the staged bytes are still where the operation in flight has them
    have hslice : s.slice = s.intoParts.stagedCiphertext := by
      simp [slice, intoParts, hstartZero]
    refine ⟨halone, ?_, ?_, hrecords⟩
    · change state.Slot 0 s.intoParts.stagedCiphertext
      rw [← hslice]
      exact h.overSocket.slot.of_operation_eq hop
    · refine h.overSocket.staged.imp hop.trans fun hlt => .inr ?_
      change s.slice.bytes ≠ []
      exact List.ne_nil_of_length_pos (by simp [slice]; omega)

/-- A stream over a socket that is taken apart while it is resumable: in every state of the
resumed session, what the socket has accepted and what is left to write of the buffer at
hand are the bytes of all records, in order.  So the socket has accepted each of them once
when all is reported written. -/
theorem resumed_of_reachable {R : Rustls} (k : Kernel) (conn : R.Connection)
    (place : Nat → Nat) (s : Session R k.socket) (method : Method) (r₀ r : Resumption)
    (hreach : Reachable Session.step (fun _ _ => True) (.new ({} : Socket) conn place) s)
    (hresumable : s.stream.Resumable method) (hresume : s.stream.resume method = some r₀)
    (hrun : Reachable Resumption.step (fun _ _ => True) r₀ r) :
    r.state.sent ++ r.slice.bytes = r.records := by
  have hlinked : s.stream.Linked := TlsStream.linked_of_reachable hreach
  have hexact : r.Exact := by
    refine hrun.invariant Resumption.Exact (hlinked.resume hresumable hresume) ?_
    exact fun r a r' h _ hstep => h.step hstep
  exact hexact.sent

/-! ### A stream that is taken apart in the middle of a record -/

/-- The first write is a short one, and the others wait. -/
def shortFirst : Kernel where
  write submission :=
    if submission.id = 0 ∧ 3 ≤ submission.data.length then some (.ok 3) else none
  read _ := .pending
  shutdown := none
  write_admits := by
    intro submission result hresult
    split at hresult
    next hshort =>
      cases hresult
      exact ⟨by omega, hshort.2⟩
    next => cases hresult

/-- An established session over an idle socket. -/
def fresh : Session queueing shortFirst.socket :=
  .new ({} : Socket) (show List (List UInt8) from []) fun n => 4096 * n

/-- A resumed session that was replayed from a stream, with a property of its last state
that was evaluated there. -/
theorem exists_resumed (s : TlsStream queueing shortFirst.socket) (method : Method)
    (actions : List Resumption.Action) (p : Resumption → Bool)
    (hrun : ((s.resume method).bind (run Resumption.step · actions)).map p = some true) :
    ∃ r₀ r, s.resume method = some r₀ ∧
      Reachable Resumption.step (fun _ _ => True) r₀ r ∧ p r = true := by
  obtain ⟨r, hr, hp⟩ := Option.map_eq_some_iff.mp hrun
  obtain ⟨r₀, hresume, hactions⟩ := Option.bind_eq_some_iff.mp hr
  exact ⟨r₀, r, hresume, Reachable.init.of_run (by simp) hactions, hp⟩

/-- The write of the rest of a record has failed, and the stream was told: `write_all`
takes the rest up. -/
theorem resumed_shortFirst :
    ∃ s r₀ r, Reachable Session.step (fun _ _ => True) fresh s ∧
      s.stream.Resumable (.writeAll trackedWriteBit) ∧
      s.stream.resume (.writeAll trackedWriteBit) = some r₀ ∧
      Reachable Resumption.step (fun _ _ => True) r₀ r ∧
      r.slice.bytes = [] ∧ r.records = [23, 3, 3, 0, 2, 7, 8] ∧
      r.state.sent ++ r.slice.bytes = r.records := by
  let resumed (s : Session queueing shortFirst.socket) : Option Bool :=
    ((s.stream.resume (.writeAll trackedWriteBit)).bind
      (run Resumption.step · [.poll 1 (some (.ok 4))])).map
        fun r => decide (r.slice.bytes = [] ∧ r.records = [23, 3, 3, 0, 2, 7, 8])
  obtain ⟨s, hreach, hp⟩ := Reachable.exists_of_run Session.step (fun _ _ => True) fresh
    [.pollWrite 9 1 [7, 8], .occur (.complete (.error { kind := .other 1, message := "" })),
      .pollFlush 9 1]
    (fun s => s.stream.io.state.operation.isNone && resumed s == some true) (by simp) (by decide)
  obtain ⟨hidle, hresumed⟩ := Bool.and_eq_true_iff.mp hp
  obtain ⟨r₀, r, hresume, hrun, hr⟩ := exists_resumed _ _ _ _ (beq_iff_eq.mp hresumed)
  obtain ⟨hdone, hrecords⟩ := of_decide_eq_true hr
  have hresumable : s.stream.Resumable (.writeAll trackedWriteBit) :=
    .inl (Option.isNone_iff_eq_none.mp hidle)
  exact ⟨s, r₀, r, hreach, hresumable, hresume, hrun, hdone, hrecords,
    resumed_of_reachable _ _ _ s _ r₀ r hreach hresumable hresume hrun⟩

/-- The rest of a record is in flight when the stream is taken apart: the caller writes it
by raw polls until all of it is reported written, and the socket has accepted it twice. -/
theorem staged_sent_twice :
    ∃ s r₀ r, Reachable Session.step (fun _ _ => True) fresh s ∧
      s.stream.resume .raw = some r₀ ∧ Reachable Resumption.step (fun _ _ => True) r₀ r ∧
      r.slice.bytes = [] ∧ r.records = [23, 3, 3, 0, 2, 7, 8] ∧
      r.state.sent = [23, 3, 3, 0, 2, 7, 8, 0, 2, 7, 8] := by
  let resumed (s : Session queueing shortFirst.socket) : Option Bool :=
    ((s.stream.resume .raw).bind
      (run Resumption.step · [.complete (.ok 4), .poll 1 (some (.ok 4))])).map
        fun r => decide (r.slice.bytes = [] ∧ r.records = [23, 3, 3, 0, 2, 7, 8] ∧
          r.state.sent = [23, 3, 3, 0, 2, 7, 8, 0, 2, 7, 8])
  obtain ⟨s, hreach, hp⟩ := Reachable.exists_of_run Session.step (fun _ _ => True) fresh
    [.pollWrite 9 1 [7, 8]] (fun s => resumed s == some true) (by simp) (by decide)
  obtain ⟨r₀, r, hresume, hrun, hr⟩ := exists_resumed _ _ _ _ (beq_iff_eq.mp hp)
  exact ⟨s, r₀, r, hreach, hresume, hrun, of_decide_eq_true hr⟩

end Runite.Tls
