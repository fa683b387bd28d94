import Runite.Io.Writers
import Mathlib.Logic.Relation

/-!
# What a close reports

A failure waits for a flush in one of two places: `buffered_error`, and the
retained completion of a raw write.  The operation in flight leaves its error
in one of them.  `untrackedFailure`, `bufferedFailure` and `shutdownOutcome`
read off a state what a drain is going to find there and how the shutdown of
the socket ends.  None of the three changes while a call is run to completion,
so each decides the answer.
-/

namespace Runite.Io

namespace WriteState

variable {s s' : WriteState} {waker : Waker} {write : Except IoError Nat}
  {shutdown : Except IoError Unit}

/-! ## What a drain will find -/

/-- The error that a drain leaves retained for a raw write, when the operation
in flight completes with `write`. -/
def untrackedFailure (s : WriteState) (write : Except IoError Nat) : Option Failure :=
  match s.operation with
  | none => s.untrackedError
  | some p =>
      match p.identity, p.operation.outcome.getD write with
      | none, _ => s.untrackedError
      | some _, .ok _ => none
      | some _, .error error => some ⟨p.submission, error⟩

/-- The error that a drain leaves in `buffered_error`. -/
def bufferedFailure (s : WriteState) (write : Except IoError Nat) : Option Failure :=
  match s.operation with
  | none => s.bufferedError
  | some p =>
      match p.kind, p.operation.outcome.getD write with
      | .buffered, .error error => some ⟨p.submission, error⟩
      | _, _ => s.bufferedError

/-- How the shutdown of the direction ends, when a shutdown that is pending or
not yet started completes with `shutdown`. -/
def shutdownOutcome (s : WriteState) (shutdown : Except IoError Unit) : Except IoError Unit :=
  match s.shutdown.result, s.shutdown.operation with
  | some result, _ => shutdownReply result
  | none, some operation => operation.outcome.getD shutdown
  | none, none => shutdown

theorem untrackedFailure_of_idle (hidle : s.operation = none) :
    s.untrackedFailure write = s.untrackedError := by
  simp [untrackedFailure, hidle]

theorem bufferedFailure_of_idle (hidle : s.operation = none) :
    s.bufferedFailure write = s.bufferedError := by
  simp [bufferedFailure, hidle]

/-- Two states in which a drain finds the same. -/
structure SameFailures (results : Writer.Results) (s s' : WriteState) : Prop where
  untracked : s'.untrackedFailure results.write = s.untrackedFailure results.write
  buffered : s'.bufferedFailure results.write = s.bufferedFailure results.write
  shutdown : s'.shutdownOutcome results.shutdown = s.shutdownOutcome results.shutdown

namespace SameFailures

variable {results : Writer.Results} {t : WriteState}

theorem trans (h : SameFailures results s t) (h' : SameFailures results t s') :
    SameFailures results s s' where
  untracked := h'.untracked.trans h.untracked
  buffered := h'.buffered.trans h.buffered
  shutdown := h'.shutdown.trans h.shutdown

/-- Only the fields that the three definitions read matter. -/
theorem of_eq (hop : t.operation = s.operation)
    (huntracked : t.untrackedCompleted = s.untrackedCompleted)
    (hbuffered : t.bufferedError = s.bufferedError) (hshutdown : t.shutdown = s.shutdown) :
    SameFailures results s t := by
  constructor
  · simp [untrackedFailure, untrackedError, hop, huntracked]
  · simp [bufferedFailure, hop, hbuffered]
  · simp [shutdownOutcome, hshutdown]

theorem cleanupCancelled : SameFailures results s s.cleanupCancelled := by
  apply of_eq <;> simp

theorem requestShutdown : SameFailures results s s.requestShutdown := by
  constructor <;> rfl

theorem await {p : PendingWrite} (hop : s.operation = some p) :
    SameFailures results s (s.await p waker) := by
  constructor
  · simp [untrackedFailure, untrackedError, hop, PendingOperation.await]
  · simp [bufferedFailure, hop, PendingOperation.await]
  · rfl

theorem resolve {p : PendingWrite} (hop : s.operation = some p)
    (houtcome : p.operation.outcome = none) :
    SameFailures results s (s.resolve p results.write) := by
  constructor
  · simp [untrackedFailure, untrackedError, hop, houtcome]
  · simp [bufferedFailure, hop, houtcome]
  · rfl

/-- The result of the operation in flight goes where the definitions say. -/
theorem handOver {p : PendingWrite} {result : Except IoError Nat} (hop : s.operation = some p)
    (houtcome : p.operation.outcome = some result) :
    SameFailures results s (s.handOver p waker result) := by
  constructor
  · rw [untrackedFailure_of_idle (by simp)]
    unfold untrackedError untrackedFailure
    rw [handOver_untrackedCompleted]
    cases hidentity : p.identity with
    | none => simp [hop, hidentity, untrackedError]
    | some identity => cases result <;> simp [hop, hidentity, houtcome]
  · rw [bufferedFailure_of_idle (by simp), handOver_bufferedError]
    cases hkind : p.kind <;> cases result <;> simp [bufferedFailure, hop, hkind, houtcome]
  · simp [shutdownOutcome]

theorem resolveShutdown {operation : PendingOperation Unit}
    (hop : s.shutdown.operation = some operation) (houtcome : operation.outcome = none) :
    SameFailures results s (s.resolveShutdown operation results.shutdown) := by
  constructor
  · rfl
  · rfl
  · cases hresult : s.shutdown.result <;> simp [shutdownOutcome, hop, houtcome, hresult]

end SameFailures

theorem Barrier.sameFailures {results : Writer.Results} {poll : Poll Unit}
    (h : Barrier waker s s' poll) : SameFailures results s s' := by
  cases h with
  | blocked _ => apply SameFailures.of_eq <;> rfl
  | empty _ => apply SameFailures.of_eq <;> rfl

/-- A poll of the drain changes nothing of what is to be reported. -/
theorem Drained.sameFailures {results : Writer.Results} {poll : Poll Unit}
    (h : Drained waker s s' poll) : SameFailures results s s' := by
  cases h with
  | awaits hop _ => exact SameFailures.cleanupCancelled.trans (.await (by simpa using hop))
  | handsOver hop houtcome hbarrier =>
      exact SameFailures.cleanupCancelled.trans
        ((SameFailures.handOver (by simpa using hop) houtcome).trans hbarrier.sameFailures)
  | idle _ hbarrier => exact SameFailures.cleanupCancelled.trans hbarrier.sameFailures

/-- What a finished drain leaves behind, for given results. -/
theorem Drained.errors_of_ready (h : Drained waker s s' (.ready ()))
    (write : Except IoError Nat) : s'.untrackedError = s.untrackedFailure write ∧
      s'.bufferedError = s.bufferedFailure write := by
  have hsame : SameFailures ⟨write, .ok ()⟩ s s' := h.sameFailures
  have hidle := h.idle_of_ready.1
  constructor
  · rw [← untrackedFailure_of_idle hidle]
    exact hsame.untracked
  · rw [← bufferedFailure_of_idle hidle]
    exact hsame.buffered

/-! ## The shutdown of the direction -/

@[simp]
theorem shutdownReply_storeShutdown (result : Except IoError Unit) :
    shutdownReply (storeShutdown result) = result := by
  cases result <;> simp [storeShutdown, shutdownReply]

/-- A poll of the shutdown either waits or answers with the outcome. -/
theorem driveShutdown_cases {results : Writer.Results} {start : Option (Except IoError Unit)}
    (hstart : results.Starts start) :
    ((s.shutdown.poll waker start).2.2 = .pending ∧
      SameFailures results s (s.driveShutdown waker start)) ∨
    (s.shutdown.poll waker start).2.2 = .ready (s.shutdownOutcome results.shutdown) := by
  unfold shutdownOutcome
  cases hresult : s.shutdown.result with
  | some result =>
      right
      simp [DirectionShutdown.poll, DirectionShutdown.request, hresult]
  | none =>
      cases hop : s.shutdown.operation with
      | some operation =>
          cases houtcome : operation.outcome with
          | some result =>
              right
              simp [DirectionShutdown.poll, DirectionShutdown.request, hresult, hop, houtcome]
          | none =>
              left
              refine ⟨?_, rfl, rfl, ?_⟩
              · simp [DirectionShutdown.poll, DirectionShutdown.request, hresult, hop, houtcome]
              · simp [shutdownOutcome, DirectionShutdown.poll, DirectionShutdown.request,
                  hresult, hop, houtcome, PendingOperation.await]
      | none =>
          rcases hstart with rfl | rfl
          · left
            refine ⟨?_, rfl, rfl, ?_⟩
            · simp [DirectionShutdown.poll, DirectionShutdown.request, hresult, hop]
            · simp [shutdownOutcome, DirectionShutdown.poll, DirectionShutdown.request,
                hresult, hop, PendingOperation.await]
          · right
            simp [DirectionShutdown.poll, DirectionShutdown.request, hresult, hop]

end WriteState

namespace Writer

open WriteState

variable {results : Results} {w w' : Writer} {reply : Reply Unit}

/-! ## Answers of the calls -/

theorem Event.sameFailures (h : Event results w w') :
    SameFailures results w.state w'.state ∧ w'.kind = w.kind := by
  cases h with
  | complete hstate =>
      obtain ⟨p, hop, houtcome, rfl⟩ := resolve_of_complete hstate
      exact ⟨.resolve hop houtcome, rfl⟩
  | completeShutdown hstate =>
      obtain ⟨operation, hop, houtcome, rfl⟩ := resolveShutdown_of_completeShutdown hstate
      exact ⟨.resolveShutdown hop houtcome, rfl⟩
  | dropToken hstate =>
      obtain ⟨waiters, hlive, rfl⟩ := Option.map_eq_some_iff.mp hstate
      exact ⟨.of_eq rfl rfl rfl rfl, rfl⟩

/-- What a flush answers: the buffered error first, then the retained one. -/
def flushAnswer (results : Results) (w : Writer) : Except IoError Unit :=
  match w.state.bufferedFailure results.write, w.state.untrackedFailure results.write with
  | some failure, _ => .error failure.error
  | none, some failure => .error failure.error
  | none, none => .ok ()

def closeAnswer (results : Results) (w : Writer) : Except IoError Unit :=
  match w.kind with
  | .tcpStream | .tcpOwnedWriteHalf | .unixStream | .unixOwnedWriteHalf =>
      match w.state.bufferedFailure results.write with
      | some failure => .error failure.error
      | none => w.state.shutdownOutcome results.shutdown
  | .childStdin => .ok ()
  | .stdout | .stderr => w.flushAnswer results

theorem flushAnswer_eq (hsame : SameFailures results w.state w'.state) :
    w'.flushAnswer results = w.flushAnswer results := by
  unfold flushAnswer
  rw [hsame.untracked, hsame.buffered]

theorem closeAnswer_eq (hsame : SameFailures results w.state w'.state)
    (hkind : w'.kind = w.kind) : w'.closeAnswer results = w.closeAnswer results := by
  unfold closeAnswer
  rw [hkind, hsame.buffered, hsame.shutdown, flushAnswer_eq hsame]

/-- A poll waits and changes nothing of the answer, or gives it. -/
def Answers (results : Results) (answer : Writer → Except IoError Unit) (w w' : Writer)
    (poll : Poll (Reply Unit)) : Prop :=
  (poll = .pending ∧ SameFailures results w.state w'.state ∧ w'.kind = w.kind) ∨
    ∃ reply, poll = .ready reply ∧ reply.result = answer w

theorem answers_of_pollFlush {waker : Waker} {poll : Poll (Reply Unit)}
    (h : w.pollFlush waker = some (w', poll)) :
    Answers results (flushAnswer results) w w' poll := by
  obtain ⟨⟨state, poll'⟩, hflush, heq⟩ := Option.map_eq_some_iff.mp h
  cases heq
  cases flushed_of_pollFlush hflush with
  | awaits hdrained => exact Or.inl ⟨rfl, hdrained.sameFailures, rfl⟩
  | reports hdrained hbuffered =>
      right
      refine ⟨_, rfl, ?_⟩
      simp [flushAnswer, ← (hdrained.errors_of_ready results.write).2, hbuffered, Failure.reply]
  | reportsUntracked hdrained hbuffered huntracked =>
      right
      refine ⟨_, rfl, ?_⟩
      simp [flushAnswer, ← (hdrained.errors_of_ready results.write).1,
        ← (hdrained.errors_of_ready results.write).2, hbuffered, huntracked, Failure.reply]
  | flushed hdrained hbuffered huntracked =>
      right
      refine ⟨_, rfl, ?_⟩
      simp [flushAnswer, ← (hdrained.errors_of_ready results.write).1,
        ← (hdrained.errors_of_ready results.write).2, hbuffered, huntracked]

theorem answers_of_pollShutdown {waker : Waker} {start : Option (Except IoError Unit)}
    {poll : Poll (Reply Unit)} (hkind : w.kind.isSocket = true) (hstart : results.Starts start)
    (h : w.pollShutdown waker start = some (w', poll)) :
    Answers results (closeAnswer results) w w' poll := by
  obtain ⟨⟨state, poll'⟩, hshutdown, heq⟩ := Option.map_eq_some_iff.mp h
  cases heq
  have hanswer : w.closeAnswer results =
      match w.state.bufferedFailure results.write with
      | some failure => .error failure.error
      | none => w.state.shutdownOutcome results.shutdown := by
    unfold closeAnswer
    cases hwriter : w.kind <;> simp_all [WriterKind.isSocket]
  have hrequest : SameFailures results w.state w.state.requestShutdown := .requestShutdown
  cases shutDown_of_pollShutdown hshutdown with
  | awaits hdrained => exact Or.inl ⟨rfl, hrequest.trans hdrained.sameFailures, rfl⟩
  | reports hdrained hbuffered =>
      right
      refine ⟨_, rfl, ?_⟩
      have hfailure := (hdrained.errors_of_ready results.write).2
      rw [hbuffered, hrequest.buffered] at hfailure
      simp [hanswer, ← hfailure, Failure.reply]
  | drives hdrained hbuffered =>
      have hfailure := (hdrained.errors_of_ready results.write).2
      rw [hbuffered, hrequest.buffered] at hfailure
      have hsame := hrequest.trans hdrained.sameFailures
      rcases driveShutdown_cases hstart with ⟨hpending, hdrive⟩ | hready
      · left
        exact ⟨by rw [hpending]; rfl, hsame.trans hdrive, rfl⟩
      · right
        refine ⟨_, by rw [hready]; rfl, ?_⟩
        simp [hanswer, ← hfailure, hsame.shutdown]

theorem answers_of_pollClose {waker : Waker} {start : Option (Except IoError Unit)}
    {poll : Poll (Reply Unit)} (hstart : results.Starts start)
    (h : w.pollClose waker start = some (w', poll)) :
    Answers results (closeAnswer results) w w' poll := by
  unfold pollClose at h
  split at h
  case h_5 hkind =>
    obtain ⟨⟨state, drain⟩, hdrain, heq⟩ := Option.map_eq_some_iff.mp h
    have hdrained := drained_of_pollDrain hdrain
    cases drain with
    | pending =>
        cases heq
        exact Or.inl ⟨rfl, hdrained.sameFailures, rfl⟩
    | ready value =>
        cases heq
        exact Or.inr ⟨_, rfl, by simp [closeAnswer, hkind]⟩
  case h_6 hkind =>
    rcases answers_of_pollFlush h with hpending | ⟨reply, hready, hresult⟩
    · exact Or.inl hpending
    · exact Or.inr ⟨reply, hready, by simpa [closeAnswer, hkind] using hresult⟩
  case h_7 hkind =>
    rcases answers_of_pollFlush h with hpending | ⟨reply, hready, hresult⟩
    · exact Or.inl hpending
    · exact Or.inr ⟨reply, hready, by simpa [closeAnswer, hkind] using hresult⟩
  all_goals
    rename_i hkind
    exact answers_of_pollShutdown (by simp [hkind, WriterKind.isSocket]) hstart h

/-- Run to completion, a call gives the answer that it has in every state on
the way. -/
theorem Finishes.result_eq
    {poll : Writer → Waker → Option (Except IoError Unit) → Option (Writer × Poll (Reply Unit))}
    {answer : Writer → Except IoError Unit}
    (hanswer : ∀ w w' : Writer, SameFailures results w.state w'.state → w'.kind = w.kind →
      answer w' = answer w)
    (hpoll : ∀ w waker start w' p, results.Starts start → poll w waker start = some (w', p) →
      Answers results answer w w' p)
    (h : Finishes results poll w reply) : reply.result = answer w := by
  induction h with
  | ready hstart hready =>
      rcases hpoll _ _ _ _ _ hstart hready with ⟨hpending, -⟩ | ⟨reply', heq, hresult⟩
      · cases hpending
      · cases heq
        exact hresult
  | pending hstart hpending _ ih =>
      rcases hpoll _ _ _ _ _ hstart hpending with ⟨-, hsame, hkind⟩ | ⟨reply', heq, -⟩
      · rw [ih, hanswer _ _ hsame hkind]
      · cases heq
  | event hevent _ ih =>
      obtain ⟨hsame, hkind⟩ := hevent.sameFailures
      rw [ih, hanswer _ _ hsame hkind]

theorem Flushes.result_eq (h : Flushes results w reply) :
    reply.result = w.flushAnswer results :=
  Finishes.result_eq (fun _ _ hsame _ => flushAnswer_eq hsame)
    (fun _ _ _ _ _ _ hpoll => answers_of_pollFlush hpoll) h

theorem Closes.result_eq (h : Closes results w reply) :
    reply.result = w.closeAnswer results :=
  Finishes.result_eq (fun _ _ hsame hkind => closeAnswer_eq hsame hkind)
    (fun _ _ _ _ _ hstart hpoll => answers_of_pollClose hstart hpoll) h

/-! ## Every call can be run to completion -/

/-- Nothing is left for a drain to wait for. -/
structure Settled (s : WriteState) : Prop where
  operation : ∀ p, s.operation = some p → p.operation.outcome ≠ none
  queue : ∀ q ∈ s.queue, s.isLiveWrite q.generation = false
  shutdown : ∀ operation, s.shutdown.operation = some operation → operation.outcome ≠ none

theorem Settled.ready {s s' : WriteState} {waker : Waker} {poll : Poll Unit} (hs : Settled s)
    (h : Drained waker s s' poll) : poll = .ready () := by
  have hempty : s.queue.filter (fun q => s.isLiveWrite q.generation) = [] := by
    rw [List.filter_eq_nil_iff]
    intro q hq
    simp [hs.queue q hq]
  cases h with
  | awaits hsome houtcome => exact absurd houtcome (hs.operation _ hsome)
  | handsOver _ _ hbarrier =>
      cases hbarrier with
      | blocked hcons =>
          rw [handOver_queue, cleanupCancelled_queue, hempty] at hcons
          cases hcons
      | empty => rfl
  | idle _ hbarrier =>
      cases hbarrier with
      | blocked hcons =>
          rw [cleanupCancelled_queue, hempty] at hcons
          cases hcons
      | empty => rfl

theorem exists_ready_of_poll (d : DirectionShutdown) (waker : Waker)
    (result : Except IoError Unit)
    (hop : ∀ operation, d.operation = some operation → operation.outcome ≠ none) :
    ∃ answer, (d.poll waker (some result)).2.2 = .ready answer := by
  unfold DirectionShutdown.poll DirectionShutdown.request
  cases hresult : d.result with
  | some stored => exact ⟨shutdownReply stored, rfl⟩
  | none =>
      cases hoperation : d.operation with
      | none => exact ⟨shutdownReply (storeShutdown result), rfl⟩
      | some operation =>
          cases houtcome : operation.outcome with
          | none => exact absurd houtcome (hop operation hoperation)
          | some outcome => exact ⟨shutdownReply (storeShutdown outcome), by simp [houtcome]⟩

theorem exists_ready_of_pollFlush (h : Settled w.state) (waker : Waker) :
    ∃ w' reply, w.pollFlush waker = some (w', .ready reply) := by
  obtain ⟨state, poll, hpoll, hflushed⟩ := exists_pollFlush w.state waker
  unfold pollFlush
  rw [hpoll]
  cases hflushed with
  | awaits hdrained => cases h.ready hdrained
  | reports => exact ⟨_, _, rfl⟩
  | reportsUntracked => exact ⟨_, _, rfl⟩
  | flushed => exact ⟨_, _, rfl⟩

theorem Settled.requestShutdown {s : WriteState} (h : Settled s) : Settled s.requestShutdown :=
  ⟨h.operation, h.queue, h.shutdown⟩

theorem exists_ready_of_pollShutdown (h : Settled w.state) (waker : Waker)
    (result : Except IoError Unit) :
    ∃ w' reply, w.pollShutdown waker (some result) = some (w', .ready reply) := by
  obtain ⟨state, poll, hpoll, hshutDown⟩ := exists_pollShutdown w.state waker (some result)
  unfold pollShutdown
  rw [hpoll]
  cases hshutDown with
  | awaits hdrained => cases h.requestShutdown.ready hdrained
  | reports => exact ⟨_, _, rfl⟩
  | @drives t hdrained =>
      have hshutdown : t.shutdown = w.state.shutdown.request := by
        rcases hdrained with _ | ⟨_, _, hbarrier⟩ | ⟨_, hbarrier⟩
        · cases hbarrier
          simp
        · cases hbarrier
          simp
      obtain ⟨answer, hanswer⟩ := exists_ready_of_poll t.shutdown waker result (by
        rw [hshutdown]
        exact h.shutdown)
      rw [hanswer]
      exact ⟨_, _, rfl⟩

theorem exists_ready_of_pollClose (h : Settled w.state) (waker : Waker)
    (result : Except IoError Unit) :
    ∃ w' reply, w.pollClose waker (some result) = some (w', .ready reply) := by
  unfold pollClose
  cases w.kind with
  | childStdin =>
      obtain ⟨state, poll, hpoll, hdrained⟩ := exists_pollDrain w.state waker
      cases h.ready hdrained
      rw [hpoll]
      exact ⟨_, _, rfl⟩
  | stdout => exact exists_ready_of_pollFlush h waker
  | stderr => exact exists_ready_of_pollFlush h waker
  | tcpStream => exact exists_ready_of_pollShutdown h waker result
  | tcpOwnedWriteHalf => exact exists_ready_of_pollShutdown h waker result
  | unixStream => exact exists_ready_of_pollShutdown h waker result
  | unixOwnedWriteHalf => exact exists_ready_of_pollShutdown h waker result

theorem Finishes.of_events
    {poll : Writer → Waker → Option (Except IoError Unit) → Option (Writer × Poll (Reply Unit))}
    (hevents : Relation.ReflTransGen (Event results) w w')
    (h : Finishes results poll w' reply) : Finishes results poll w reply := by
  induction hevents using Relation.ReflTransGen.head_induction_on with
  | refl => exact h
  | head hevent _ ih => exact .event hevent ih

theorem exists_dropped (results : Results) (generations : List Generation) (w : Writer) :
    ∃ live woken, Relation.ReflTransGen (Event results) w
      { w with state := { w.state with live, woken } } ∧
      (∀ g ∈ generations, live g = none) ∧ (∀ g, w.state.live g = none → live g = none) := by
  induction generations generalizing w with
  | nil => exact ⟨w.state.live, w.state.woken, .refl, by simp, fun g hg => hg⟩
  | cons g rest ih =>
      cases hlive : w.state.live g with
      | none =>
          obtain ⟨live, woken, hevents, hrest, hkept⟩ := ih w
          refine ⟨live, woken, hevents, ?_, hkept⟩
          intro g' hg'
          rcases List.mem_cons.mp hg' with rfl | hmem
          · exact hkept g' hlive
          · exact hrest g' hmem
      | some waiters =>
          have hevent : Event results w { w with state := w.state.retire g waiters } :=
            .dropToken (g := g) (by simp [dropToken, hlive])
          obtain ⟨live, woken, hevents, hrest, hkept⟩ :=
            ih { w with state := w.state.retire g waiters }
          refine ⟨live, woken, .head hevent hevents, ?_, ?_⟩
          · intro g' hg'
            rcases List.mem_cons.mp hg' with rfl | hmem
            · exact hkept g' (by simp)
            · exact hrest g' hmem
          · intro g' hg'
            apply hkept
            by_cases hg : g' = g <;> simp [hg, hg']

theorem exists_completed (results : Results) (w : Writer) :
    ∃ operation woken, Relation.ReflTransGen (Event results) w
      { w with state := { w.state with operation, woken } } ∧
      ∀ p, operation = some p → p.operation.outcome ≠ none := by
  cases hop : w.state.operation with
  | none => exact ⟨none, w.state.woken, by rw [← hop], by simp⟩
  | some p =>
      cases houtcome : p.operation.outcome with
      | some result =>
          refine ⟨some p, w.state.woken, by rw [← hop], ?_⟩
          rintro p' ⟨⟩
          simp [houtcome]
      | none =>
          have hevent : Event results w { w with state := w.state.resolve p results.write } :=
            .complete (by simp [WriteState.complete, hop, houtcome])
          refine ⟨some (p.resolve results.write), w.state.woken ++ p.operation.waiters,
            .single hevent, ?_⟩
          rintro p' ⟨⟩
          simp

theorem exists_completedShutdown (results : Results) (w : Writer) :
    ∃ operation woken, Relation.ReflTransGen (Event results) w
      { w with state := { w.state with
        shutdown := { w.state.shutdown with operation }, woken } } ∧
      ∀ p : PendingOperation Unit, operation = some p → p.outcome ≠ none := by
  cases hop : w.state.shutdown.operation with
  | none => exact ⟨none, w.state.woken, by rw [← hop], by simp⟩
  | some operation =>
      cases houtcome : operation.outcome with
      | some result =>
          refine ⟨some operation, w.state.woken, by rw [← hop], ?_⟩
          rintro p' ⟨⟩
          simp [houtcome]
      | none =>
          have hevent : Event results w
              { w with state := w.state.resolveShutdown operation results.shutdown } :=
            .completeShutdown (by simp [WriteState.completeShutdown, hop, houtcome])
          refine ⟨some { outcome := some results.shutdown },
            w.state.woken ++ operation.waiters, .single hevent, ?_⟩
          rintro p' ⟨⟩
          simp

theorem exists_settled (results : Results) (h : w.state.Valid) :
    ∃ w', Relation.ReflTransGen (Event results) w w' ∧ Settled w'.state := by
  obtain ⟨live, woken, hdropped, hlive, -⟩ :=
    exists_dropped results (w.state.queue.map (·.generation)) w
  obtain ⟨operation, woken', hcompleted, hoperation⟩ := exists_completed results
    { w with state := { w.state with live, woken } }
  obtain ⟨shutdown, woken'', hshut, hshutdown⟩ := exists_completedShutdown results
    { w with state := { w.state with live, operation, woken := woken' } }
  refine ⟨_, (hdropped.trans hcompleted).trans hshut, hoperation, ?_, hshutdown⟩
  intro q hq
  have hnone : live q.generation = none := hlive _ (List.mem_map.mpr ⟨q, hq, rfl⟩)
  simp [isLiveWrite, h.queue_tracked q hq, hnone]

theorem exists_flushes (results : Results) (h : w.state.Valid) :
    ∃ reply, Flushes results w reply := by
  obtain ⟨w', hevents, hsettled⟩ := exists_settled results h
  obtain ⟨w'', reply, hpoll⟩ := exists_ready_of_pollFlush hsettled 0
  exact ⟨reply, .of_events hevents (.ready (Or.inl rfl) hpoll)⟩

theorem exists_closes (results : Results) (h : w.state.Valid) :
    ∃ reply, Closes results w reply := by
  obtain ⟨w', hevents, hsettled⟩ := exists_settled results h
  obtain ⟨w'', reply, hpoll⟩ := exists_ready_of_pollClose hsettled 0 results.shutdown
  exact ⟨reply, .of_events hevents (.ready (Or.inr rfl) hpoll)⟩

/-! ## Reachable writers -/

theorem called_of_pollFlush {waker : Waker} {poll : Poll (Reply Unit)}
    (h : w.pollFlush waker = some (w', poll)) :
    ∃ call answer, WriteState.Called w.state call w'.state answer := by
  obtain ⟨⟨state, poll'⟩, hstate, heq⟩ := Option.map_eq_some_iff.mp h
  cases heq
  exact ⟨_, _, .pollFlush (flushed_of_pollFlush hstate)⟩

theorem called_of_pollClose {waker : Waker} {start : Option (Except IoError Unit)}
    {poll : Poll (Reply Unit)} (h : w.pollClose waker start = some (w', poll)) :
    ∃ call answer, WriteState.Called w.state call w'.state answer := by
  unfold pollClose at h
  split at h
  case h_5 =>
    obtain ⟨⟨state, drain⟩, hstate, heq⟩ := Option.map_eq_some_iff.mp h
    have hdrained := drained_of_pollDrain hstate
    cases drain <;> cases heq <;> exact ⟨_, _, .pollDrain hdrained⟩
  case h_6 => exact called_of_pollFlush h
  case h_7 => exact called_of_pollFlush h
  all_goals
    obtain ⟨⟨state, poll'⟩, hstate, heq⟩ := Option.map_eq_some_iff.mp h
    cases heq
    exact ⟨_, _, .pollShutdown (shutDown_of_pollShutdown hstate)⟩

/-- A step of a writer is a call on its state, or leaves the state alone. -/
theorem called_of_step {c : Call} (h : w.step c = some w') :
    w'.state = w.state ∨ ∃ call answer, WriteState.Called w.state call w'.state answer := by
  cases c with
  | pollWrite waker generation buf start =>
      obtain ⟨⟨t, poll⟩, hpoll, rfl⟩ := Option.map_eq_some_iff.mp h
      unfold pollWriteOperation at hpoll
      split at hpoll
      next =>
        cases hpoll
        exact Or.inl rfl
      next =>
        split at hpoll
        next =>
          cases hpoll
          exact Or.inl rfl
        next =>
          obtain ⟨⟨state, poll⟩, hstate, heq⟩ := Option.map_eq_some_iff.mp hpoll
          cases heq
          exact Or.inr ⟨_, _, .pollWrite (written_of_pollWrite hstate)⟩
  | pollBufferedWrite waker buf start =>
      simp only [step] at h
      split at h
      next =>
        obtain ⟨⟨state, poll⟩, hstate, rfl⟩ := Option.map_eq_some_iff.mp h
        exact Or.inr ⟨_, _, .pollBufferedWrite (bufferedWritten_of_pollBufferedWrite hstate)⟩
      next => cases h
  | pollFlush waker =>
      obtain ⟨⟨t, poll⟩, hpoll, rfl⟩ := Option.map_eq_some_iff.mp h
      exact Or.inr (called_of_pollFlush hpoll)
  | pollClose waker start =>
      obtain ⟨⟨t, poll⟩, hpoll, rfl⟩ := Option.map_eq_some_iff.mp h
      exact Or.inr (called_of_pollClose hpoll)
  | newToken generation =>
      obtain ⟨state, hstate, rfl⟩ := Option.map_eq_some_iff.mp h
      exact Or.inr ⟨.newToken generation, .event, called_of_call (by simp [call, hstate])⟩
  | dropToken generation =>
      obtain ⟨state, hstate, rfl⟩ := Option.map_eq_some_iff.mp h
      exact Or.inr ⟨.dropToken generation, .event, called_of_call (by simp [call, hstate])⟩
  | complete result =>
      obtain ⟨state, hstate, rfl⟩ := Option.map_eq_some_iff.mp h
      exact Or.inr ⟨.complete result, .event, called_of_call (by simp [call, hstate])⟩
  | completeShutdown result =>
      obtain ⟨state, hstate, rfl⟩ := Option.map_eq_some_iff.mp h
      exact Or.inr ⟨.completeShutdown result, .event, called_of_call (by simp [call, hstate])⟩

theorem valid_of_reachable {kind : WriterKind} (h : Reachable kind w) : w.state.Valid := by
  refine Transition.Reachable.invariant (fun w => w.state.Valid) Valid.init ?_ h
  intro w c w' hvalid _ hstep
  rcases called_of_step hstep with heq | ⟨call, answer, hcalled⟩
  · exact heq ▸ hvalid
  · exact hvalid.called hcalled

/-! ## When a close is as strict as a flush -/

/-- The close of this writer passes on what a flush would report: a socket
loses the retained error of a raw write unless something else fails its
shutdown, a child pipe loses every error, a standard stream none. -/
def ReportsAtClose (results : Results) (w : Writer) : Prop :=
  match w.kind with
  | .tcpStream | .tcpOwnedWriteHalf | .unixStream | .unixOwnedWriteHalf =>
      w.state.untrackedFailure results.write = none ∨
        w.state.bufferedFailure results.write ≠ none ∨
        w.state.shutdownOutcome results.shutdown ≠ .ok ()
  | .childStdin =>
      w.state.untrackedFailure results.write = none ∧
        w.state.bufferedFailure results.write = none
  | .stdout | .stderr => True

theorem reportsAtClose_iff : w.ReportsAtClose results ↔
    ∀ error, w.flushAnswer results = .error error → w.closeAnswer results ≠ .ok () := by
  unfold ReportsAtClose flushAnswer closeAnswer flushAnswer
  cases w.kind <;> cases w.state.bufferedFailure results.write <;>
    cases w.state.untrackedFailure results.write <;> simp

/-- Both calls end, so it is their answers that count. -/
theorem closeIsStrict_iff_answers (hvalid : w.state.Valid) : CloseIsStrict results w ↔
    ∀ error, w.flushAnswer results = .error error → w.closeAnswer results ≠ .ok () := by
  constructor
  · intro hstrict error hflush
    obtain ⟨flush, hflushes⟩ := exists_flushes results hvalid
    obtain ⟨close, hcloses⟩ := exists_closes results hvalid
    rw [← hcloses.result_eq]
    exact hstrict flush close error hflushes hcloses (hflushes.result_eq.trans hflush)
  · intro hanswers flush close error hflushes hcloses herror
    rw [hcloses.result_eq]
    exact hanswers error (hflushes.result_eq.symm.trans herror)

/-- In a reachable state, a close reports at least as much as a flush exactly
when `ReportsAtClose` holds. -/
theorem closeIsStrict_iff {kind : WriterKind} (results : Results) (h : Reachable kind w) :
    CloseIsStrict results w ↔ w.ReportsAtClose results := by
  rw [closeIsStrict_iff_answers (valid_of_reachable h), reportsAtClose_iff]

/-- A writer with one raw write that was abandoned while it was pending. -/
def abandoned (kind : WriterKind) : Writer :=
  (({ kind } : Writer).step (.pollWrite 0 0 ⟨0, [1]⟩ none)).getD { kind }

theorem reachable_abandoned (kind : WriterKind) : Reachable kind (abandoned kind) :=
  .next (a := .pollWrite 0 0 ⟨0, [1]⟩ none) .init trivial rfl

/-- The abandoned write fails, and the shutdown of the socket succeeds. -/
def writeFails : Results :=
  { write := .error { kind := .other 32, rawOsError := some 32, message := "Broken pipe" }
    shutdown := .ok () }

theorem closeIsStrict_iff_abandoned : Reachable .stdout (abandoned .stdout) ∧
    (CloseIsStrict writeFails (abandoned .stdout) ↔
      (abandoned .stdout).ReportsAtClose writeFails) :=
  ⟨reachable_abandoned .stdout, closeIsStrict_iff writeFails (reachable_abandoned .stdout)⟩

/-- The flush of a writer reports the error of the abandoned write. -/
theorem flushAnswer_abandoned (kind : WriterKind) :
    (abandoned kind).flushAnswer writeFails =
      .error { kind := .other 32, rawOsError := some 32, message := "Broken pipe" } := by
  rfl

/-- The close of a child pipe, or of a socket, answers `Ok(())`. -/
theorem not_closeIsStrict :
    (Reachable .childStdin (abandoned .childStdin) ∧
      ¬ CloseIsStrict writeFails (abandoned .childStdin)) ∧
    (Reachable .tcpStream (abandoned .tcpStream) ∧
      ¬ CloseIsStrict writeFails (abandoned .tcpStream)) := by
  have hlost : ∀ kind, (abandoned kind).closeAnswer writeFails = .ok () →
      ¬ CloseIsStrict writeFails (abandoned kind) := by
    intro kind hclose hstrict
    rw [closeIsStrict_iff_answers (valid_of_reachable (reachable_abandoned kind))] at hstrict
    exact hstrict _ (flushAnswer_abandoned kind) hclose
  exact ⟨⟨reachable_abandoned _, hlost _ rfl⟩, reachable_abandoned _, hlost _ rfl⟩

end Writer

end Runite.Io
