import Runite.Io.CloseErrors
import Runite.Io.ReadIntegrity
import Runite.Io.WriteOrder

/-!
# Shutting down both directions of a stream

`poll_tcp_stream_shutdown` of `net` and `poll_unix_stream_shutdown` of
`net::unix`, which are the same function.  A call polls the shutdowns of the two
directions side by side until both are ready in one poll.  The result of a
direction's shutdown is stored and comes back in every later poll; the error of
a write that was accepted earlier comes back once.
-/

namespace Runite.Io

/-- The shutdown of the direction has failed. -/
def DirectionShutdown.Failed (d : DirectionShutdown) : Prop :=
  ∃ error, d.result = some (.error error)

/-- A poll will find the shutdown pending; `start` is the outcome that the
future of the factory would have. -/
def DirectionShutdown.pends (d : DirectionShutdown) (start : Option (Except IoError Unit)) :
    Bool :=
  match d.result, d.operation with
  | some _, _ => false
  | none, some operation => operation.outcome.isNone
  | none, none => start.isNone

/-- The pending shutdown of the read direction completes. -/
def ReadState.completeShutdown (s : ReadState) (result : Except IoError Unit) :
    Option ReadState :=
  match s.shutdown.operation with
  | none => none
  | some operation =>
      match operation.outcome with
      | some _ => none
      | none =>
          some { s with
            shutdown := { s.shutdown with operation := some { outcome := some result } }
            woken := s.woken ++ operation.waiters }

/-- A drain will find nothing that it has to wait for. -/
def WriteState.drains (s : WriteState) : Bool :=
  s.operation.all (·.operation.outcome.isSome) && s.queue.all (!s.isLiveWrite ·.generation)

/-- A drain will be ready, and find the error of a buffered write. -/
def WriteState.bufferedFails (s : WriteState) : Bool :=
  s.drains && (s.bufferedFailure (.ok 0)).isSome

/-- A poll of a shutdown that is ready with an error. -/
def isError : Poll (Except IoError Unit) → Bool
  | .ready (.error _) => true
  | .ready (.ok _) => false
  | .pending => false

/-! ## Stored results -/

/-- A failure that is stored stays, and every later poll answers with it. -/
theorem DirectionShutdown.Failed.poll {d : DirectionShutdown} (h : d.Failed) (waker : Waker)
    (start : Option (Except IoError Unit)) :
    (d.poll waker start).1.Failed ∧ isError (d.poll waker start).2.2 = true := by
  obtain ⟨error, hresult⟩ := h
  rw [Line.shutdownPoll_of_some waker start hresult]
  exact ⟨⟨error, hresult⟩, rfl⟩

theorem DirectionShutdown.failed_of_isError {d : DirectionShutdown} {waker : Waker}
    {start : Option (Except IoError Unit)} (h : isError (d.poll waker start).2.2 = true) :
    (d.poll waker start).1.Failed := by
  have herror : ∀ result, isError (.ready (shutdownReply result)) = true →
      ∃ error, result = .error error := by
    rintro (error | ⟨⟩) hreply
    · exact ⟨error, rfl⟩
    · cases hreply
  cases hresult : d.result with
  | some result =>
      rw [Line.shutdownPoll_of_some waker start hresult] at h ⊢
      obtain ⟨error, rfl⟩ := herror result h
      exact ⟨error, hresult⟩
  | none =>
      obtain ⟨-, -, ⟨-, -, hpending⟩ | ⟨result, hstored, hready⟩⟩ :=
        Line.shutdownPoll_of_none waker start hresult
      · rw [hpending] at h
        cases h
      · rw [hready] at h
        obtain ⟨error, rfl⟩ := herror result h
        exact ⟨error, hstored⟩

theorem DirectionShutdown.pends_of_pending {d : DirectionShutdown} {waker : Waker}
    {start : Option (Except IoError Unit)} (h : (d.poll waker start).2.2 = .pending) :
    d.pends start = true := by
  unfold DirectionShutdown.poll at h
  unfold pends
  cases hresult : d.result with
  | some result => simp [request, hresult] at h
  | none =>
      cases hop : d.operation with
      | none => cases start <;> simp_all [request]
      | some operation => cases houtcome : operation.outcome <;> simp_all [request]

namespace WriteState

variable {s s' : WriteState} {waker : Waker}

theorem Drained.drains (h : Drained waker s s' (.ready ())) : s.drains = true := by
  have hdead : s.queue.filter (fun q => s.isLiveWrite q.generation) = [] →
      s.queue.all (!s.isLiveWrite ·.generation) = true := by
    simp
  unfold WriteState.drains
  cases h with
  | handsOver hop houtcome hbarrier =>
      cases hbarrier with
      | empty hqueue => simpa [hop, houtcome] using hqueue
  | idle hop hbarrier =>
      cases hbarrier with
      | empty hqueue => simpa [hop] using hqueue

/-- A poll of the shutdown answers with an error when it has stored it, or when
it takes the error of a buffered write. -/
theorem ShutDown.failed {start : Option (Except IoError Unit)} {poll : Poll (Reply Unit)}
    (h : ShutDown waker start s s' poll) (herror : isError (poll.map (·.result)) = true) :
    s'.shutdown.Failed ∨ s.bufferedFails = true := by
  cases h with
  | awaits => cases herror
  | @reports t failure hdrained hfailure =>
      have hbuffered := (hdrained.errors_of_ready (.ok 0)).2
      refine Or.inr (Bool.and_eq_true_iff.mpr ⟨hdrained.drains, ?_⟩)
      have : s.bufferedFailure (.ok 0) = some failure := hbuffered.symm.trans hfailure
      simp [this]
  | @drives t hdrained =>
      have hshutdown : isError (t.shutdown.poll waker start).2.2 = true := by
        cases hpoll : (t.shutdown.poll waker start).2.2 with
        | pending => simp [hpoll, Poll.map, isError] at herror
        | ready result => simpa [hpoll, Poll.map] using herror
      exact Or.inl (DirectionShutdown.failed_of_isError hshutdown)

/-- After a stored failure, a poll of the shutdown is pending or answers with an
error. -/
theorem ShutDown.of_failed {start : Option (Except IoError Unit)} {poll : Poll (Reply Unit)}
    (h : ShutDown waker start s s' poll) (hfailed : s.shutdown.Failed) :
    s'.shutdown.Failed ∧ (poll = .pending ∨ isError (poll.map (·.result)) = true) := by
  have hrequest : s.requestShutdown.shutdown.Failed := hfailed
  cases h with
  | awaits hdrained =>
      rw [← Line.drained_shutdown hdrained] at hrequest
      exact ⟨hrequest, Or.inl rfl⟩
  | reports hdrained =>
      rw [← Line.drained_shutdown hdrained] at hrequest
      exact ⟨hrequest, Or.inr rfl⟩
  | @drives t hdrained =>
      rw [← Line.drained_shutdown hdrained] at hrequest
      obtain ⟨hkept, herror⟩ := hrequest.poll waker start
      refine ⟨hkept, Or.inr ?_⟩
      cases hpoll : (t.shutdown.poll waker start).2.2 with
      | pending => simp [hpoll, isError] at herror
      | ready result => simpa [hpoll, Poll.map] using herror

/-- Nothing that happens to the write side takes a stored failure away. -/
theorem failed_of_step {call : Call} (hfailed : s.shutdown.Failed)
    (h : s.step call = some s') : s'.shutdown.Failed := by
  obtain ⟨⟨t, answer⟩, hcall, rfl⟩ := Option.map_eq_some_iff.mp h
  have hdrain : ∀ {t t' : WriteState} {waker : Waker} {poll : Poll Unit},
      Drained waker s t poll → t'.shutdown = t.shutdown → t'.shutdown.Failed := by
    intro t t' waker poll hdrained heq
    rwa [heq, Line.drained_shutdown hdrained]
  cases called_of_call hcall with
  | pollWrite hwritten =>
      rw [← Line.written_shutdown hwritten] at hfailed
      exact hfailed
  | pollBufferedWrite hwritten =>
      cases hwritten with
      | empty => exact hfailed
      | refused => exact hfailed
      | awaits _ _ hdrained => exact hdrain hdrained rfl
      | reports _ _ hdrained => exact hdrain hdrained rfl
      | accepts _ _ hdrained => exact hdrain hdrained rfl
      | answers _ _ hdrained => exact hdrain hdrained rfl
  | pollFlush hflushed =>
      cases hflushed with
      | awaits hdrained => exact hdrain hdrained rfl
      | reports hdrained => exact hdrain hdrained rfl
      | reportsUntracked hdrained => exact hdrain hdrained rfl
      | flushed hdrained => exact hdrain hdrained rfl
  | pollDrain hdrained => exact hdrain hdrained rfl
  | pollShutdown hshutDown => exact (hshutDown.of_failed hfailed).1
  | newToken => exact hfailed
  | dropToken => exact hfailed
  | complete => exact hfailed
  | completeShutdown => exact hfailed

end WriteState

end Runite.Io

namespace Runite.Net

open Io Transition

/-! ## The call -/

inductive Shutdown
  | read
  | write
  | both
  deriving DecidableEq

/-- The `ReadState` and the `WriteState` of a `TcpStream` or a `UnixStream`. -/
structure Stream where
  readState : ReadState := {}
  writeState : WriteState := {}

namespace Stream

variable (s : Stream)

/-- `poll_tcp_shutdown` and `poll_unix_shutdown`. -/
def pollWriteShutdown (waker : Waker) (start : Option (Except IoError Unit)) :
    Option (Stream × Poll (Except IoError Unit)) :=
  (s.writeState.pollShutdown waker start).map fun (writeState, poll) =>
    ({ s with writeState }, poll.map (·.result))

def pollReadShutdown (waker : Waker) (start : Option (Except IoError Unit)) :
    Stream × Poll (Except IoError Unit) :=
  let (readState, poll) := s.readState.pollShutdown waker start
  ({ s with readState }, poll)

/-- The answer of `Shutdown::Both`, from the answers of the two directions. -/
def joined : Poll (Except IoError Unit) → Poll (Except IoError Unit) →
    Poll (Except IoError Unit)
  | .ready (.error error), .ready _ => .ready (.error error)
  | .ready (.ok ()), .ready (.error error) => .ready (.error error)
  | .ready (.ok ()), .ready (.ok ()) => .ready (.ok ())
  | .ready _, .pending => .pending
  | .pending, _ => .pending

/-- Both directions are polled, the read direction first. -/
def pollDirections (waker : Waker) (read write : Option (Except IoError Unit)) :
    Option (Stream × Poll (Except IoError Unit) × Poll (Except IoError Unit)) :=
  let (s, readPoll) := s.pollReadShutdown waker read
  (s.pollWriteShutdown waker write).map fun (s, writePoll) => (s, readPoll, writePoll)

/-- `poll_tcp_stream_shutdown` and `poll_unix_stream_shutdown`.  `read` and
`write` are the outcomes that the futures of the two factories already have. -/
def pollStreamShutdown (waker : Waker) (how : Shutdown)
    (read write : Option (Except IoError Unit)) :
    Option (Stream × Poll (Except IoError Unit)) :=
  match how with
  | .read => some (s.pollReadShutdown waker read)
  | .write => s.pollWriteShutdown waker write
  | .both =>
      (s.pollDirections waker read write).map fun (s, readPoll, writePoll) =>
        (s, joined readPoll writePoll)

end Stream

/-- A call of `shutdown(Both)`: what its polls of the directions answered, and
its own answer. -/
structure BothCall where
  stream : Stream
  polls : List (Poll (Except IoError Unit) × Poll (Except IoError Unit)) := []
  answer : Option (Except IoError Unit) := none

/-- A poll of the call, or anything else that happens to the two states: a call
on the write side, a read or a shutdown of the read side, a completion. -/
inductive Action
  | poll (waker : Waker) (read write : Option (Except IoError Unit))
  | callWrite (call : WriteState.Call)
  | pollRead (waker : Waker) (capacity : Nat) (start : Option (Except IoError (List UInt8)))
  | pollReadShutdown (waker : Waker) (start : Option (Except IoError Unit))
  | completeRead (result : Except IoError (List UInt8))
  | completeReadShutdown (result : Except IoError Unit)

namespace BothCall

/-- `Poll::Ready`. -/
def answerOf : Poll (Except IoError Unit) → Option (Except IoError Unit)
  | .ready result => some result
  | .pending => none

/-- The read side changes, and nothing else. -/
def setRead (c : BothCall) (readState : ReadState) : BothCall :=
  { c with stream := { c.stream with readState } }

def step (c : BothCall) : Action → Option BothCall
  | .poll waker read write =>
      if c.answer.isSome then none
      else
        (c.stream.pollDirections waker read write).map fun (stream, readPoll, writePoll) =>
          { stream
            polls := c.polls ++ [(readPoll, writePoll)]
            answer := answerOf (Stream.joined readPoll writePoll) }
  | .callWrite call =>
      (c.stream.writeState.step call).map fun writeState =>
        { c with stream := { c.stream with writeState } }
  | .pollRead waker capacity start =>
      some (c.setRead (c.stream.readState.pollSlice waker capacity start).1)
  | .pollReadShutdown waker start =>
      some { c with stream := (c.stream.pollReadShutdown waker start).1 }
  | .completeRead result => (c.stream.readState.complete result).map c.setRead
  | .completeReadShutdown result => (c.stream.readState.completeShutdown result).map c.setRead

/-- A poll does not find the error of a buffered write while the read
direction is still pending. -/
def KeepsErrors (c : BothCall) : Action → Prop
  | .poll _ read _ =>
      c.stream.readState.shutdown.pends read = true → c.stream.writeState.bufferedFails = false
  | _ => True

instance (c : BothCall) (a : Action) : Decidable (c.KeepsErrors a) := by
  unfold KeepsErrors
  split <;> infer_instance

/-! ## What a call answers -/

/-- One of the two directions has answered with an error. -/
def Erred (polls : List (Poll (Except IoError Unit) × Poll (Except IoError Unit))) : Prop :=
  ∃ p ∈ polls, isError p.1 = true ∨ isError p.2 = true

/-- The call has answered only once both directions were ready, and with an
error if one of them ever answered with one; until then such an error is stored. -/
structure Faithful (c : BothCall) : Prop where
  joined : ∀ result, c.answer = some result →
    ∃ read write, c.polls.getLast? = some (.ready read, .ready write)
  reported : ∀ result, c.answer = some result → Erred c.polls → ∃ error, result = .error error
  stored : c.answer = none → Erred c.polls →
    c.stream.readState.shutdown.Failed ∨ c.stream.writeState.shutdown.Failed

variable {c c' : BothCall}

theorem Faithful.start (s : Stream) : Faithful { stream := s } where
  joined := by simp
  reported := by simp
  stored := by simp [Erred]

theorem Faithful.of_stored (h : Faithful c) (hpolls : c'.polls = c.polls)
    (hanswer : c'.answer = c.answer)
    (hread : c.stream.readState.shutdown.Failed → c'.stream.readState.shutdown.Failed)
    (hwrite : c.stream.writeState.shutdown.Failed → c'.stream.writeState.shutdown.Failed) :
    Faithful c' where
  joined := by
    rw [hpolls, hanswer]
    exact h.joined
  reported := by
    rw [hpolls, hanswer]
    exact h.reported
  stored := by
    rw [hpolls, hanswer]
    exact fun hnone herred => (h.stored hnone herred).imp hread hwrite

/-- The answer of `Shutdown::Both`: both are ready, and an error of either is one. -/
theorem ready_of_joined {read write : Poll (Except IoError Unit)} {result : Except IoError Unit}
    (h : answerOf (Stream.joined read write) = some result) :
    (∃ a b, read = .ready a ∧ write = .ready b) ∧
      (isError read = true ∨ isError write = true → ∃ error, result = .error error) := by
  rcases read with (error | ⟨⟩) | _ <;> rcases write with (error' | ⟨⟩) | _ <;> cases h <;>
    simp [isError]

theorem pending_of_joined {read write : Poll (Except IoError Unit)}
    (h : answerOf (Stream.joined read write) = none) : read = .pending ∨ write = .pending := by
  rcases read with (error | ⟨⟩) | _ <;> rcases write with (error' | ⟨⟩) | _ <;> cases h <;> simp

/-- What a poll of both directions does to the stream. -/
theorem of_pollDirections {s s' : Stream} {waker : Waker} {read write : Option (Except IoError Unit)}
    {readPoll writePoll : Poll (Except IoError Unit)}
    (h : s.pollDirections waker read write = some (s', readPoll, writePoll)) :
    s'.readState.shutdown = (s.readState.shutdown.poll waker read).1 ∧
      readPoll = (s.readState.shutdown.poll waker read).2.2 ∧
      ∃ poll, WriteState.ShutDown waker write s.writeState s'.writeState poll ∧
        writePoll = poll.map (·.result) := by
  obtain ⟨⟨t, poll⟩, ht, heq⟩ := Option.map_eq_some_iff.mp h
  cases heq
  obtain ⟨⟨writeState, poll⟩, hwrite, heq⟩ := Option.map_eq_some_iff.mp ht
  cases heq
  exact ⟨rfl, rfl, poll, WriteState.shutDown_of_pollShutdown hwrite, rfl⟩

/-- A poll of the call: an error that was stored comes back in this poll, and a
new one is stored, or this poll is the last. -/
theorem Faithful.poll {waker : Waker} {read write : Option (Except IoError Unit)}
    (h : Faithful c) (hnone : c.answer = none) (hkeeps : c.KeepsErrors (.poll waker read write))
    {s : Stream} {readPoll writePoll : Poll (Except IoError Unit)}
    (hpoll : c.stream.pollDirections waker read write = some (s, readPoll, writePoll)) :
    Faithful
      { stream := s
        polls := c.polls ++ [(readPoll, writePoll)]
        answer := answerOf (Stream.joined readPoll writePoll) } := by
  obtain ⟨hread, rfl, poll, hshutDown, rfl⟩ := of_pollDirections hpoll
  -- an earlier error is in one of the stored results
  have hearlier : Erred c.polls →
      (s.readState.shutdown.Failed ∧
          isError (c.stream.readState.shutdown.poll waker read).2.2 = true) ∨
        s.writeState.shutdown.Failed ∧ (poll = .pending ∨ isError (poll.map (·.result)) = true) := by
    intro herred
    rcases h.stored hnone herred with hfailed | hfailed
    · rw [hread]
      exact Or.inl (hfailed.poll waker read)
    · exact Or.inr (hshutDown.of_failed hfailed)
  have hsplit : Erred (c.polls ++ [((c.stream.readState.shutdown.poll waker read).2.2,
      poll.map (·.result))]) → Erred c.polls ∨
        isError (c.stream.readState.shutdown.poll waker read).2.2 = true ∨
        isError (poll.map (·.result)) = true := by
    rintro ⟨p, hp, herror⟩
    rcases List.mem_append.mp hp with hp | hp
    · exact Or.inl ⟨p, hp, herror⟩
    · obtain rfl := List.mem_singleton.mp hp
      exact Or.inr herror
  constructor
  · intro result hanswer
    obtain ⟨⟨a, b, ha, hb⟩, -⟩ := ready_of_joined hanswer
    exact ⟨a, b, by rw [ha, hb, List.getLast?_concat]⟩
  · intro result hanswer herred
    obtain ⟨⟨a, b, ha, hb⟩, herror⟩ := ready_of_joined hanswer
    refine herror ?_
    rcases hsplit herred with herred | herror
    · rcases hearlier herred with ⟨-, herror⟩ | ⟨-, hpending | herror⟩
      · exact Or.inl herror
      · rw [hpending] at hb
        cases hb
      · exact Or.inr herror
    · exact herror
  · intro hanswer herred
    rcases hsplit herred with herred | herror | herror
    · exact (hearlier herred).imp And.left And.left
    · refine Or.inl ?_
      show s.readState.shutdown.Failed
      rw [hread]
      exact DirectionShutdown.failed_of_isError herror
    · rcases hshutDown.failed herror with hfailed | hbuffered
      · exact Or.inr hfailed
      · -- the read direction is ready, so this poll answers
        rcases pending_of_joined hanswer with hpending | hpending
        · have hkept := hkeeps (DirectionShutdown.pends_of_pending hpending)
          rw [hbuffered] at hkept
          cases hkept
        · rw [hpending] at herror
          cases herror

theorem Faithful.step {a : Action} (h : Faithful c) (hkeeps : c.KeepsErrors a)
    (hs : c.step a = some c') : Faithful c' := by
  cases a with
  | poll waker read write =>
      obtain ⟨hnone, hs⟩ := Option.ite_none_left_eq_some.mp hs
      obtain ⟨⟨s, readPoll, writePoll⟩, hpoll, rfl⟩ := Option.map_eq_some_iff.mp hs
      exact h.poll (by simpa using hnone) hkeeps hpoll
  | callWrite call =>
      obtain ⟨writeState, hwrite, rfl⟩ := Option.map_eq_some_iff.mp hs
      exact h.of_stored rfl rfl id fun hfailed => WriteState.failed_of_step hfailed hwrite
  | pollRead waker capacity start =>
      obtain rfl := Option.some.inj hs
      refine h.of_stored rfl rfl (fun hfailed => ?_) id
      show (c.stream.readState.pollWith waker capacity start).1.shutdown.Failed
      rwa [ReadStream.shutdown_pollWith]
  | pollReadShutdown waker start =>
      obtain rfl := Option.some.inj hs
      exact h.of_stored rfl rfl (fun hfailed => (hfailed.poll waker start).1) id
  | completeRead result =>
      obtain ⟨readState, hread, rfl⟩ := Option.map_eq_some_iff.mp hs
      refine h.of_stored rfl rfl (fun hfailed => ?_) id
      show readState.shutdown.Failed
      rwa [ReadStream.shutdown_complete hread]
  | completeReadShutdown result =>
      obtain ⟨readState, hread, rfl⟩ := Option.map_eq_some_iff.mp hs
      refine h.of_stored rfl rfl (fun hfailed => ?_) id
      show readState.shutdown.Failed
      unfold ReadState.completeShutdown at hread
      split at hread
      · cases hread
      split at hread
      · cases hread
      obtain rfl := Option.some.inj hread
      exact hfailed

/-- In every run none of whose polls takes the error of a buffered write while
the read direction is pending, `shutdown(Both)` answers when both directions
are ready, and with an error if a poll of a direction ever answered with one. -/
theorem faithful_of_reachable {s : Stream}
    (h : Reachable BothCall.step KeepsErrors { stream := s } c) {result : Except IoError Unit}
    (hanswer : c.answer = some result) :
    (∃ read write, c.polls.getLast? = some (.ready read, .ready write)) ∧
      ((∃ p ∈ c.polls, isError p.1 = true ∨ isError p.2 = true) →
        ∃ error, result = .error error) := by
  have hfaithful : Faithful c := h.invariant Faithful (.start s) fun _ _ _ h hkeeps hs =>
    h.step hkeeps hs
  exact ⟨hfaithful.joined result hanswer, hfaithful.reported result hanswer⟩

theorem buffered_isUntracked :
    (none : Option WriteIdentity).isSome = WriteKind.buffered.isUntracked :=
  rfl

def bufferedWrite : WriteState :=
  { operation := some
      { kind := .buffered
        identity := none
        submission := ⟨0, [1, 2]⟩
        operation := { outcome := none }
        identity_isSome := buffered_isUntracked } }

/-- `EPIPE`. -/
def brokenPipe : IoError := { kind := .brokenPipe, rawOsError := some 32, message := "Broken pipe" }

/-- The read direction is shut down before the buffered write fails. -/
theorem faithful_readFirst : ∃ c : BothCall,
    (∃ result, c.answer = some result ∧ ∃ error, result = .error error) ∧ c.polls.length = 2 := by
  obtain ⟨c, hreach, hc⟩ := Reachable.exists_of_guarded BothCall.step KeepsErrors
    { stream := { writeState := bufferedWrite } }
    [.poll 1 none none, .completeReadShutdown (.ok ()), .callWrite (.complete (.error brokenPipe)),
      .poll 1 none none]
    (fun c => c.polls.length = 2 ∧ c.answer = some (.error brokenPipe) ∧
      c.polls.any fun p => isError p.1 || isError p.2) (by decide +kernel)
  obtain ⟨hlength, hanswer, hany⟩ := of_decide_eq_true hc
  refine ⟨c, ⟨_, hanswer, (faithful_of_reachable hreach hanswer).2 ?_⟩, hlength⟩
  simpa using hany

/-- The buffered write fails before the read direction is shut down: its error
is taken by a poll that stays pending, and the call answers `Ok`. -/
theorem not_faithful_writeFirst : ∃ c, Reachable BothCall.step (fun _ _ => True)
      { stream := { writeState := bufferedWrite } } c ∧ c.answer = some (.ok ()) ∧
      ∃ p ∈ c.polls, p.2 = .ready (.error brokenPipe) := by
  obtain ⟨c, hreach, hc⟩ := Reachable.exists_of_run BothCall.step (fun _ _ => True)
    { stream := { writeState := bufferedWrite } }
    [.callWrite (.complete (.error brokenPipe)), .poll 1 none none,
      .completeReadShutdown (.ok ()), .poll 1 none (some (.ok ()))]
    (fun c => c.answer = some (.ok ()) ∧
      c.polls.any fun p => p.2 = .ready (.error brokenPipe)) (by simp) (by decide +kernel)
  obtain ⟨hanswer, hany⟩ := of_decide_eq_true hc
  exact ⟨c, hreach, hanswer, by simpa using hany⟩

end BothCall

end Runite.Net
