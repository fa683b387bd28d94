import Runite.Io.WriteCases
import Runite.Lib.Transition
import Mathlib.Data.List.Nodup

/-!
# Runs of a writable resource

`call` is one call on a `WriteState`, or one event of its environment: a token
is created or dropped, an operation completes.  `Valid` is what holds in every
state of every run: it ties the results that are kept or in flight to the
history of what was started and what finished.
-/

namespace Runite.Io.WriteState

/-- A call on the resource, or an event of its environment.  A `start` is the
outcome that the future of the factory has when it is first polled. -/
inductive Call
  | pollWrite (waker : Waker) (generation : Generation) (buf : Buf)
      (start : Option (Except IoError Nat))
  | pollBufferedWrite (waker : Waker) (buf : Buf) (start : Option (Except IoError Nat))
  | pollFlush (waker : Waker)
  | pollDrain (waker : Waker)
  | pollShutdown (waker : Waker) (start : Option (Except IoError Unit))
  | newToken (generation : Generation)
  | dropToken (generation : Generation)
  | complete (result : Except IoError Nat)
  | completeShutdown (result : Except IoError Unit)
  deriving DecidableEq

inductive Answer
  | write (poll : Poll (Reply Nat))
  | unit (poll : Poll (Reply Unit))
  | drain (poll : Poll Unit)
  | event
  deriving DecidableEq

def call (s : WriteState) : Call → Option (WriteState × Answer)
  | .pollWrite waker generation buf start =>
      (s.pollWrite waker generation buf start).map (Prod.map id .write)
  | .pollBufferedWrite waker buf start =>
      (s.pollBufferedWrite waker buf start).map (Prod.map id .write)
  | .pollFlush waker => (s.pollFlush waker).map (Prod.map id .unit)
  | .pollDrain waker => (s.pollDrain waker).map (Prod.map id .drain)
  | .pollShutdown waker start => (s.pollShutdown waker start).map (Prod.map id .unit)
  | .newToken generation => (s.newToken generation).map (·, .event)
  | .dropToken generation => (s.dropToken generation).map (·, .event)
  | .complete result => (s.complete result).map (·, .event)
  | .completeShutdown result => (s.completeShutdown result).map (·, .event)

def step (s : WriteState) (c : Call) : Option WriteState := (s.call c).map Prod.fst

variable {s s' : WriteState} {waker : Waker} {generation g : Generation} {buf : Buf}
  {start : Option (Except IoError Nat)} {p : PendingWrite} {result : Except IoError Nat}

inductive Called (s : WriteState) : Call → WriteState → Answer → Prop
  | pollWrite {waker : Waker} {generation : Generation} {buf : Buf}
      {start : Option (Except IoError Nat)} {s' : WriteState} {poll : Poll (Reply Nat)} :
      Written waker generation buf start s s' poll →
      Called s (.pollWrite waker generation buf start) s' (.write poll)
  | pollBufferedWrite {waker : Waker} {buf : Buf} {start : Option (Except IoError Nat)}
      {s' : WriteState} {poll : Poll (Reply Nat)} :
      BufferedWritten waker buf start s s' poll →
      Called s (.pollBufferedWrite waker buf start) s' (.write poll)
  | pollFlush {waker : Waker} {s' : WriteState} {poll : Poll (Reply Unit)} :
      Flushed waker s s' poll → Called s (.pollFlush waker) s' (.unit poll)
  | pollDrain {waker : Waker} {s' : WriteState} {poll : Poll Unit} :
      Drained waker s s' poll → Called s (.pollDrain waker) s' (.drain poll)
  | pollShutdown {waker : Waker} {start : Option (Except IoError Unit)} {s' : WriteState}
      {poll : Poll (Reply Unit)} : ShutDown waker start s s' poll →
      Called s (.pollShutdown waker start) s' (.unit poll)
  | newToken {g : Generation} : isTrackedWrite g = true → g ∉ s.issued →
      Called s (.newToken g) (s.issue g) .event
  | dropToken {g : Generation} {waiters : List Waker} : s.live g = some waiters →
      Called s (.dropToken g) (s.retire g waiters) .event
  | complete {p : PendingWrite} {result : Except IoError Nat} : s.operation = some p →
      p.operation.outcome = none → Called s (.complete result) (s.resolve p result) .event
  | completeShutdown {operation : PendingOperation Unit} {result : Except IoError Unit} :
      s.shutdown.operation = some operation → operation.outcome = none →
      Called s (.completeShutdown result) (s.resolveShutdown operation result) .event

theorem resolve_of_complete (h : s.complete result = some s') :
    ∃ p, s.operation = some p ∧ p.operation.outcome = none ∧ s' = s.resolve p result := by
  unfold WriteState.complete at h
  split at h
  next => cases h
  next p hop =>
    split at h
    next => cases h
    next houtcome =>
      cases h
      exact ⟨p, hop, houtcome, rfl⟩

theorem resolveShutdown_of_completeShutdown {result : Except IoError Unit}
    (h : s.completeShutdown result = some s') :
    ∃ operation, s.shutdown.operation = some operation ∧ operation.outcome = none ∧
      s' = s.resolveShutdown operation result := by
  unfold WriteState.completeShutdown at h
  split at h
  next => cases h
  next operation hop =>
    split at h
    next => cases h
    next houtcome =>
      cases h
      exact ⟨operation, hop, houtcome, rfl⟩

theorem called_of_call {c : Call} {answer : Answer} (h : s.call c = some (s', answer)) :
    Called s c s' answer := by
  cases c with
  | pollWrite waker generation buf start =>
      obtain ⟨⟨t, poll⟩, ht, heq⟩ := Option.map_eq_some_iff.mp h
      cases heq
      exact .pollWrite (written_of_pollWrite ht)
  | pollBufferedWrite waker buf start =>
      obtain ⟨⟨t, poll⟩, ht, heq⟩ := Option.map_eq_some_iff.mp h
      cases heq
      exact .pollBufferedWrite (bufferedWritten_of_pollBufferedWrite ht)
  | pollFlush waker =>
      obtain ⟨⟨t, poll⟩, ht, heq⟩ := Option.map_eq_some_iff.mp h
      cases heq
      exact .pollFlush (flushed_of_pollFlush ht)
  | pollDrain waker =>
      obtain ⟨⟨t, poll⟩, ht, heq⟩ := Option.map_eq_some_iff.mp h
      cases heq
      exact .pollDrain (drained_of_pollDrain ht)
  | pollShutdown waker start =>
      obtain ⟨⟨t, poll⟩, ht, heq⟩ := Option.map_eq_some_iff.mp h
      cases heq
      exact .pollShutdown (shutDown_of_pollShutdown ht)
  | newToken g =>
      obtain ⟨t, ht, heq⟩ := Option.map_eq_some_iff.mp h
      unfold WriteState.newToken at ht
      split at ht
      next hg =>
        cases ht
        cases heq
        exact .newToken hg.1 hg.2
      next => cases ht
  | dropToken g =>
      obtain ⟨t, ht, heq⟩ := Option.map_eq_some_iff.mp h
      obtain ⟨waiters, hlive, rfl⟩ := Option.map_eq_some_iff.mp ht
      cases heq
      exact .dropToken hlive
  | complete result =>
      obtain ⟨t, ht, heq⟩ := Option.map_eq_some_iff.mp h
      obtain ⟨p, hop, houtcome, rfl⟩ := resolve_of_complete ht
      cases heq
      exact .complete hop houtcome
  | completeShutdown result =>
      obtain ⟨t, ht, heq⟩ := Option.map_eq_some_iff.mp h
      obtain ⟨operation, hop, houtcome, rfl⟩ := resolveShutdown_of_completeShutdown ht
      cases heq
      exact .completeShutdown hop houtcome

/-! ## The invariant -/

/-- The history, and what the slots of the state say about it. -/
structure Valid (s : WriteState) : Prop where
  /-- every operation that was started has finished or is the one in flight -/
  history : s.started = s.finished.map (fun f => (f.1, f.2.source)) ++
    s.operation.toList.map fun p => (p.kind, p.submission)
  ids : s.started.map (·.2.id) = List.range s.started.length
  completed_finished : ∀ g c, s.completed g = some c → (.operation g, c) ∈ s.finished
  completed_tracked : ∀ g c, s.completed g = some c → isTrackedWrite g = true
  untracked_finished : ∀ i c, s.untrackedCompleted = some (i, c) →
    ∃ g, isTrackedWrite g = false ∧ (.operation g, c) ∈ s.finished
  buffered_finished : ∀ f, s.bufferedError = some f →
    (.buffered, ⟨f.source, .error f.error⟩) ∈ s.finished
  queue_tracked : ∀ q ∈ s.queue, isTrackedWrite q.generation = true
  inFlight_completed : ∀ p g, s.operation = some p → p.kind = .operation g →
    s.completed g = none
  buffered_clear : ∀ p, s.operation = some p → p.kind = .buffered → s.bufferedError = none

namespace Valid

theorem congr {t : WriteState} (h : s.Valid) (hop : t.operation = s.operation)
    (hqueue : t.queue = s.queue) (hcompleted : t.completed = s.completed)
    (huntracked : t.untrackedCompleted = s.untrackedCompleted)
    (hbuffered : t.bufferedError = s.bufferedError) (hstarted : t.started = s.started)
    (hfinished : t.finished = s.finished) : t.Valid := by
  obtain ⟨h₁, h₂, h₃, h₄, h₅, h₆, h₇, h₈, h₉⟩ := h
  constructor <;> simpa only [hop, hqueue, hcompleted, huntracked, hbuffered, hstarted, hfinished]

theorem started_of_finished (h : s.Valid) {kind : WriteKind} {c : Completion}
    (hc : (kind, c) ∈ s.finished) : (kind, c.source) ∈ s.started := by
  rw [h.history]
  exact List.mem_append_left _ (List.mem_map.mpr ⟨_, hc, rfl⟩)

theorem init : ({} : WriteState).Valid := by
  constructor <;> simp

theorem cleanupCancelled (h : s.Valid) : s.cleanupCancelled.Valid where
  history := by simpa using h.history
  ids := by simpa using h.ids
  completed_finished := by
    intro g c hc
    rw [cleanupCancelled_completed] at hc
    split at hc
    · simpa using h.completed_finished g c hc
    · cases hc
  completed_tracked := by
    intro g c hc
    rw [cleanupCancelled_completed] at hc
    split at hc
    · exact h.completed_tracked g c hc
    · cases hc
  untracked_finished := by simpa using h.untracked_finished
  buffered_finished := by simpa using h.buffered_finished
  queue_tracked := by
    intro q hq
    rw [cleanupCancelled_queue] at hq
    exact h.queue_tracked q (List.mem_of_mem_filter hq)
  inFlight_completed := by
    intro p g hp hkind
    simp [cleanupCancelled_completed, h.inFlight_completed p g (by simpa using hp) hkind]
  buffered_clear := by simpa using h.buffered_clear

theorem enqueueTracked (h : s.Valid) : (s.enqueueTracked generation waker).Valid where
  history := h.history
  ids := h.ids
  completed_finished := h.completed_finished
  completed_tracked := h.completed_tracked
  untracked_finished := h.untracked_finished
  buffered_finished := h.buffered_finished
  queue_tracked := by
    intro q hq
    rcases mem_enqueuedTracked hq with ⟨-, htracked, -⟩ | hq
    · exact htracked
    · exact h.queue_tracked q hq
  inFlight_completed := h.inFlight_completed
  buffered_clear := h.buffered_clear

theorem await (h : s.Valid) (hop : s.operation = some p) : (s.await p waker).Valid where
  history := by simpa [hop] using h.history
  ids := h.ids
  completed_finished := h.completed_finished
  completed_tracked := h.completed_tracked
  untracked_finished := h.untracked_finished
  buffered_finished := h.buffered_finished
  queue_tracked := h.queue_tracked
  inFlight_completed := by
    intro p' g hp' hkind
    obtain rfl : p.await waker = p' := by simpa using hp'
    exact h.inFlight_completed p g hop hkind
  buffered_clear := by
    intro p' hp' hkind
    obtain rfl : p.await waker = p' := by simpa using hp'
    exact h.buffered_clear p hop hkind

theorem finish (h : s.Valid) (hop : s.operation = some p) : (s.finish p waker result).Valid where
  history := by simpa [hop] using h.history
  ids := h.ids
  completed_finished := by
    intro g c hc
    exact List.mem_append_left _ (h.completed_finished g c hc)
  completed_tracked := h.completed_tracked
  untracked_finished := by
    intro i c hc
    obtain ⟨g, huntracked, hmem⟩ := h.untracked_finished i c hc
    exact ⟨g, huntracked, List.mem_append_left _ hmem⟩
  buffered_finished := by
    intro f hf
    exact List.mem_append_left _ (h.buffered_finished f hf)
  queue_tracked := h.queue_tracked
  inFlight_completed := by simp
  buffered_clear := by simp

theorem wakeReadyWaiters (h : s.Valid) : s.wakeReadyWaiters.Valid := by
  apply h.congr <;> rfl

theorem handOver (h : s.Valid) (hop : s.operation = some p) :
    (s.handOver p waker result).Valid := by
  have hfinish : (s.finish p waker result).Valid := h.finish hop
  have hlast : (p.kind, ⟨p.submission, result⟩) ∈ (s.handOver p waker result).finished := by
    simp
  constructor
  · simpa using hfinish.history
  · simpa using h.ids
  · intro g c hc
    rw [handOver_completed] at hc
    split at hc
    next hkept =>
      obtain rfl : ⟨p.submission, result⟩ = c := by simpa using hc
      exact hkept.1 ▸ hlast
    next => simpa using hfinish.completed_finished g c hc
  · intro g c hc
    rw [handOver_completed] at hc
    split at hc
    next hkept => exact hkept.2.1
    next => exact h.completed_tracked g c hc
  · intro i c hc
    rw [handOver_untrackedCompleted] at hc
    cases hidentity : p.identity with
    | some identity =>
        obtain ⟨-, rfl⟩ : identity = i ∧ ⟨p.submission, result⟩ = c := by
          simpa [hidentity] using hc
        have huntracked : p.kind.isUntracked = true := by
          rw [← p.identity_isSome, hidentity]
          rfl
        cases hkind : p.kind with
        | operation g =>
            refine ⟨g, by simpa [hkind, WriteKind.isUntracked] using huntracked, ?_⟩
            exact hkind ▸ hlast
        | buffered => simp [hkind, WriteKind.isUntracked] at huntracked
    | none => simpa using hfinish.untracked_finished i c (by simpa [hidentity] using hc)
  · intro f hf
    rw [handOver_bufferedError] at hf
    split at hf
    next error hkind =>
      obtain rfl : ⟨p.submission, error⟩ = f := by simpa using hf
      exact hkind ▸ hlast
    next => simpa using hfinish.buffered_finished f hf
  · simpa using h.queue_tracked
  · simp
  · simp

theorem removeCompleted (h : s.Valid) : (s.removeCompleted generation).Valid where
  history := h.history
  ids := h.ids
  completed_finished := by
    intro g c hc
    by_cases hg : g = generation
    · simp [hg] at hc
    · exact h.completed_finished g c (by simpa [hg] using hc)
  completed_tracked := by
    intro g c hc
    by_cases hg : g = generation
    · simp [hg] at hc
    · exact h.completed_tracked g c (by simpa [hg] using hc)
  untracked_finished := h.untracked_finished
  buffered_finished := h.buffered_finished
  queue_tracked := h.queue_tracked
  inFlight_completed := by
    intro p g hp hkind
    by_cases hg : g = generation
    · simp [hg]
    · simpa [hg] using h.inFlight_completed p g hp hkind
  buffered_clear := h.buffered_clear

theorem takeUntrackedCompleted (h : s.Valid) : s.takeUntrackedCompleted.Valid :=
  ⟨h.history, h.ids, h.completed_finished, h.completed_tracked, by simp, h.buffered_finished,
    h.queue_tracked, h.inFlight_completed, h.buffered_clear⟩

theorem takeBufferedError (h : s.Valid) : s.takeBufferedError.Valid :=
  ⟨h.history, h.ids, h.completed_finished, h.completed_tracked, h.untracked_finished, by simp,
    h.queue_tracked, h.inFlight_completed, by simp⟩

theorem ids_append (h : s.Valid) (kind : WriteKind) :
    (s.started ++ [(kind, s.submission buf)]).map (·.2.id) =
      List.range (s.started ++ [(kind, s.submission buf)]).length := by
  rw [List.map_append, h.ids, List.length_append, List.length_singleton, List.range_succ]
  rfl

theorem begin (h : s.Valid) (hidle : s.operation = none)
    (hcompleted : s.completed generation = none) : (s.begin generation buf start).Valid where
  history := by
    have hhistory := h.history
    simp only [hidle, Option.toList_none, List.map_nil, List.append_nil] at hhistory
    simp [hhistory]
  ids := h.ids_append _
  completed_finished := h.completed_finished
  completed_tracked := h.completed_tracked
  untracked_finished := h.untracked_finished
  buffered_finished := h.buffered_finished
  queue_tracked := by
    intro q hq
    exact h.queue_tracked q (List.mem_of_mem_tail hq)
  inFlight_completed := by
    intro p g hp hkind
    obtain rfl : s.newWrite generation buf start = p := by simpa using hp
    obtain rfl : generation = g := by simpa using hkind
    exact hcompleted
  buffered_clear := by
    intro p hp hkind
    obtain rfl : s.newWrite generation buf start = p := by simpa using hp
    simp at hkind

/-! ## Every call keeps the invariant -/

theorem turn {poll : Poll (Reply Nat)} (h : s.Valid) (hidle : s.operation = none)
    (hturn : Turn waker generation buf start s s' poll) : s'.Valid := by
  cases hturn with
  | completed hc => exact h.removeCompleted
  | blocked hc hqueue hfront => apply h.congr <;> rfl
  | cancelled hc hqueue hlive => exact h
  | awaits hc hmay hstart => exact (h.begin hidle hc).await rfl
  | answers hc hmay hstart => exact ((h.begin hidle hc).finish rfl).wakeReadyWaiters

theorem driven {poll : Poll (Reply Nat)} (h : s.Valid)
    (hdriven : Driven waker generation buf start s s' poll) : s'.Valid := by
  cases hdriven with
  | awaits hop houtcome => exact h.await hop
  | delivers hop houtcome hown => exact (h.finish hop).wakeReadyWaiters
  | reports hop houtcome hown herror => exact (h.handOver hop).takeBufferedError
  | handsOver hop houtcome hown herror hturn => exact (h.handOver hop).turn (by simp) hturn
  | idle hop hturn => exact h.turn hop hturn

theorem written {poll : Poll (Reply Nat)} (h : s.Valid)
    (hwritten : Written waker generation buf start s s' poll) : s'.Valid := by
  have hclean := h.cleanupCancelled
  cases hwritten with
  | empty => exact h
  | completed hbuf hc => exact hclean.removeCompleted
  | untracked hbuf hc hretained => exact hclean.takeUntrackedCompleted
  | refused => exact hclean
  | driven hbuf hc hretained hknown hdriven => exact hclean.enqueueTracked.driven hdriven

theorem barrier {poll : Poll Unit} (h : s.Valid) (hbarrier : Barrier waker s s' poll) :
    s'.Valid := by
  cases hbarrier with
  | blocked hqueue => apply h.congr <;> rfl
  | empty => exact h

theorem drained {poll : Poll Unit} (h : s.Valid) (hdrained : Drained waker s s' poll) :
    s'.Valid := by
  have hclean := h.cleanupCancelled
  cases hdrained with
  | awaits hop houtcome => exact hclean.await (by simpa using hop)
  | handsOver hop houtcome hbarrier => exact (hclean.handOver (by simpa using hop)).barrier hbarrier
  | idle hop hbarrier => exact hclean.barrier hbarrier

theorem flushed {poll : Poll (Reply Unit)} (h : s.Valid) (hflushed : Flushed waker s s' poll) :
    s'.Valid := by
  cases hflushed with
  | awaits hdrained => exact h.drained hdrained
  | reports hdrained => exact (h.drained hdrained).takeBufferedError
  | reportsUntracked hdrained => exact (h.drained hdrained).takeUntrackedCompleted
  | flushed hdrained => exact h.drained hdrained

theorem shutDown {start : Option (Except IoError Unit)} {poll : Poll (Reply Unit)} (h : s.Valid)
    (hshutDown : ShutDown waker start s s' poll) : s'.Valid := by
  have hrequest : s.requestShutdown.Valid := by apply h.congr <;> rfl
  cases hshutDown with
  | awaits hdrained => exact hrequest.drained hdrained
  | reports hdrained => exact (hrequest.drained hdrained).takeBufferedError
  | drives hdrained => apply (hrequest.drained hdrained).congr <;> rfl

/-- A buffered write in flight finds no error of an earlier one. -/
theorem acceptBuffered (h : s.Valid) (hidle : s.operation = none)
    (herror : s.bufferedError = none) (buf : Buf) (start : Option (Except IoError Nat)) :
    WriteState.Valid
      { s.submitBuffered buf with operation := some (s.newBuffered buf start) } where
  history := by
    have hhistory := h.history
    simp only [hidle, Option.toList_none, List.map_nil, List.append_nil] at hhistory
    simp [hhistory]
  ids := h.ids_append _
  completed_finished := h.completed_finished
  completed_tracked := h.completed_tracked
  untracked_finished := h.untracked_finished
  buffered_finished := h.buffered_finished
  queue_tracked := h.queue_tracked
  inFlight_completed := by
    intro p g hp hkind
    obtain rfl : s.newBuffered buf start = p := by simpa using hp
    simp at hkind
  buffered_clear := fun _ _ _ => herror

theorem bufferedWritten {poll : Poll (Reply Nat)} (h : s.Valid)
    (hwritten : BufferedWritten waker buf start s s' poll) : s'.Valid := by
  cases hwritten with
  | empty => exact h
  | refused => exact h
  | awaits _ _ hdrained => exact h.drained hdrained
  | reports _ _ hdrained => exact (h.drained hdrained).takeBufferedError
  | accepts _ _ hdrained herror _ =>
      have haccept :=
        (h.drained hdrained).acceptBuffered hdrained.idle_of_ready.1 herror buf start
      exact haccept.await rfl
  | answers _ _ hdrained herror _ =>
      have haccept :=
        (h.drained hdrained).acceptBuffered hdrained.idle_of_ready.1 herror buf start
      exact haccept.finish rfl

theorem resolve (h : s.Valid) (hop : s.operation = some p) : (s.resolve p result).Valid where
  history := by simpa [hop] using h.history
  ids := h.ids
  completed_finished := h.completed_finished
  completed_tracked := h.completed_tracked
  untracked_finished := h.untracked_finished
  buffered_finished := h.buffered_finished
  queue_tracked := h.queue_tracked
  inFlight_completed := by
    intro p' g hp' hkind
    obtain rfl : p.resolve result = p' := by simpa using hp'
    exact h.inFlight_completed p g hop hkind
  buffered_clear := by
    intro p' hp' hkind
    obtain rfl : p.resolve result = p' := by simpa using hp'
    exact h.buffered_clear p hop hkind

theorem called {c : Call} {answer : Answer} (h : s.Valid) (hcalled : Called s c s' answer) :
    s'.Valid := by
  cases hcalled with
  | pollWrite hwritten => exact h.written hwritten
  | pollBufferedWrite hwritten => exact h.bufferedWritten hwritten
  | pollFlush hflushed => exact h.flushed hflushed
  | pollDrain hdrained => exact h.drained hdrained
  | pollShutdown hshutDown => exact h.shutDown hshutDown
  | newToken => apply h.congr <;> rfl
  | dropToken => apply h.congr <;> rfl
  | complete hop => exact h.resolve hop
  | completeShutdown => apply h.congr <;> rfl

end Valid

theorem valid_of_reachable {ok : WriteState → Call → Prop}
    (h : Transition.Reachable step ok {} s) : s.Valid := by
  refine h.invariant Valid .init ?_
  intro s c s' hvalid _ hstep
  obtain ⟨⟨t, answer⟩, hcall, rfl⟩ := Option.map_eq_some_iff.mp hstep
  exact hvalid.called (called_of_call hcall)

/-! ## Tokens -/

/-- The calls that poll create and drop no token, and queue only live
generations. -/
structure SameTokens (s s' : WriteState) : Prop where
  issued : s'.issued = s.issued
  live : ∀ g, (s'.live g).isSome = (s.live g).isSome
  queue : ∀ q' ∈ s'.queue, (∃ q ∈ s.queue, q.generation = q'.generation) ∨
    (s.live q'.generation).isSome = true

namespace SameTokens

theorem refl (s : WriteState) : SameTokens s s :=
  ⟨rfl, fun _ => rfl, fun q hq => Or.inl ⟨q, hq, rfl⟩⟩

theorem trans {t : WriteState} (h₁ : SameTokens s t) (h₂ : SameTokens t s') :
    SameTokens s s' where
  issued := h₂.issued.trans h₁.issued
  live := fun g => (h₂.live g).trans (h₁.live g)
  queue := by
    intro q' hq'
    rcases h₂.queue q' hq' with ⟨q, hq, hgeneration⟩ | hlive
    · rw [← hgeneration]
      exact h₁.queue q hq
    · exact Or.inr (h₁.live _ ▸ hlive)

/-- Nothing that concerns tokens changed, except that queue entries may have left. -/
theorem of_eq {t : WriteState} (hissued : t.issued = s.issued) (hlive : t.live = s.live)
    (hqueue : ∀ q ∈ t.queue, q ∈ s.queue) : SameTokens s t :=
  ⟨hissued, fun g => by rw [hlive], fun q hq => Or.inl ⟨q, hqueue q hq, rfl⟩⟩

theorem cleanupCancelled (s : WriteState) : SameTokens s s.cleanupCancelled := by
  refine of_eq (by simp) (by simp) ?_
  intro q hq
  rw [cleanupCancelled_queue] at hq
  exact List.mem_of_mem_filter hq

theorem enqueueTracked (s : WriteState) (generation : Generation) (waker : Waker) :
    SameTokens s (s.enqueueTracked generation waker) := by
  refine ⟨rfl, fun _ => rfl, ?_⟩
  intro q hq
  rcases mem_enqueuedTracked hq with ⟨hlive, htracked, -⟩ | hq
  · right
    simpa [isLiveWrite, htracked] using hlive
  · exact Or.inl ⟨q, hq, rfl⟩

theorem handOver (s : WriteState) (p : PendingWrite) (waker : Waker)
    (result : Except IoError Nat) : SameTokens s (s.handOver p waker result) :=
  of_eq (by simp) (by simp) (by simp)

theorem registerCancellation (s : WriteState) (generation : Generation) (waker : Waker) :
    SameTokens s (s.registerCancellation generation waker) := by
  refine ⟨rfl, ?_, fun q hq => Or.inl ⟨q, hq, rfl⟩⟩
  intro g
  unfold WriteState.registerCancellation registeredCancellation
  by_cases hg : g = generation
  · subst hg
    cases hlive : s.live g <;> by_cases htracked : isTrackedWrite g = true <;>
      simp [htracked, hlive]
  · cases s.live generation <;> by_cases htracked : isTrackedWrite generation = true <;>
      simp [htracked, hg]

theorem turn {poll : Poll (Reply Nat)} (hturn : Turn waker generation buf start s s' poll) :
    SameTokens s s' := by
  cases hturn with
  | completed => exact of_eq rfl rfl fun q hq => hq
  | @blocked front =>
      have hwake : SameTokens s (s.wake front.waker) := of_eq rfl rfl fun q hq => hq
      exact hwake.trans (registerCancellation _ _ _)
  | cancelled => exact refl s
  | awaits => exact of_eq rfl rfl fun q hq => List.mem_of_mem_tail hq
  | answers => exact of_eq rfl rfl fun q hq => List.mem_of_mem_tail hq

theorem driven {poll : Poll (Reply Nat)}
    (hdriven : Driven waker generation buf start s s' poll) : SameTokens s s' := by
  cases hdriven with
  | awaits => exact of_eq rfl rfl fun q hq => hq
  | delivers => exact of_eq rfl rfl fun q hq => hq
  | reports => exact (handOver s _ _ _).trans (of_eq rfl rfl fun q hq => hq)
  | handsOver _ _ _ _ hturn => exact (handOver s _ _ _).trans (turn hturn)
  | idle _ hturn => exact turn hturn

theorem written {poll : Poll (Reply Nat)}
    (hwritten : Written waker generation buf start s s' poll) : SameTokens s s' := by
  have hclean := cleanupCancelled s
  cases hwritten with
  | empty => exact refl s
  | completed => exact hclean.trans (of_eq rfl rfl fun q hq => hq)
  | untracked => exact hclean.trans (of_eq rfl rfl fun q hq => hq)
  | refused => exact hclean
  | driven _ _ _ _ hdriven =>
      exact (hclean.trans (enqueueTracked _ _ _)).trans (driven hdriven)

theorem barrier {poll : Poll Unit} (hbarrier : Barrier waker s s' poll) : SameTokens s s' := by
  cases hbarrier with
  | blocked =>
      have hbarrier : SameTokens s (s.registerBarrier waker) := of_eq rfl rfl fun q hq => hq
      exact (hbarrier.trans (registerCancellation _ _ _)).trans (of_eq rfl rfl fun q hq => hq)
  | empty => exact refl s

theorem drained {poll : Poll Unit} (hdrained : Drained waker s s' poll) : SameTokens s s' := by
  have hclean := cleanupCancelled s
  cases hdrained with
  | awaits => exact hclean.trans (of_eq rfl rfl fun q hq => hq)
  | handsOver _ _ hbarrier => exact (hclean.trans (handOver _ _ _ _)).trans (barrier hbarrier)
  | idle _ hbarrier => exact hclean.trans (barrier hbarrier)

theorem flushed {poll : Poll (Reply Unit)} (hflushed : Flushed waker s s' poll) :
    SameTokens s s' := by
  cases hflushed with
  | awaits hdrained => exact drained hdrained
  | reports hdrained => exact (drained hdrained).trans (of_eq rfl rfl fun q hq => hq)
  | reportsUntracked hdrained => exact (drained hdrained).trans (of_eq rfl rfl fun q hq => hq)
  | flushed hdrained => exact drained hdrained

theorem shutDown {start : Option (Except IoError Unit)} {poll : Poll (Reply Unit)}
    (hshutDown : ShutDown waker start s s' poll) : SameTokens s s' := by
  have hrequest : SameTokens s s.requestShutdown := of_eq rfl rfl fun q hq => hq
  cases hshutDown with
  | awaits hdrained => exact hrequest.trans (drained hdrained)
  | reports hdrained =>
      exact (hrequest.trans (drained hdrained)).trans (of_eq rfl rfl fun q hq => hq)
  | drives hdrained =>
      exact (hrequest.trans (drained hdrained)).trans (of_eq rfl rfl fun q hq => hq)

theorem bufferedWritten {poll : Poll (Reply Nat)}
    (hwritten : BufferedWritten waker buf start s s' poll) : SameTokens s s' := by
  cases hwritten with
  | empty => exact refl s
  | refused => exact refl s
  | awaits _ _ hdrained => exact drained hdrained
  | reports _ _ hdrained => exact (drained hdrained).trans (of_eq rfl rfl fun q hq => hq)
  | accepts _ _ hdrained => exact (drained hdrained).trans (of_eq rfl rfl fun q hq => hq)
  | answers _ _ hdrained => exact (drained hdrained).trans (of_eq rfl rfl fun q hq => hq)

end SameTokens

/-- Whatever is live or queued was issued. -/
structure Enrolled (s : WriteState) : Prop where
  live_issued : ∀ g, (s.live g).isSome = true → g ∈ s.issued
  queue_issued : ∀ q ∈ s.queue, q.generation ∈ s.issued

theorem Enrolled.of_sameTokens (h : s.Enrolled) (hsame : SameTokens s s') : s'.Enrolled where
  live_issued := by
    intro g hg
    rw [hsame.issued]
    exact h.live_issued g (hsame.live g ▸ hg)
  queue_issued := by
    intro q' hq'
    rw [hsame.issued]
    rcases hsame.queue q' hq' with ⟨q, hq, hgeneration⟩ | hlive
    · exact hgeneration ▸ h.queue_issued q hq
    · exact h.live_issued _ hlive

theorem Enrolled.called {c : Call} {answer : Answer} (h : s.Enrolled)
    (hcalled : Called s c s' answer) : s'.Enrolled := by
  cases hcalled with
  | pollWrite hwritten => exact h.of_sameTokens (.written hwritten)
  | pollBufferedWrite hwritten => exact h.of_sameTokens (.bufferedWritten hwritten)
  | pollFlush hflushed => exact h.of_sameTokens (.flushed hflushed)
  | pollDrain hdrained => exact h.of_sameTokens (.drained hdrained)
  | pollShutdown hshutDown => exact h.of_sameTokens (.shutDown hshutDown)
  | @newToken g =>
      refine ⟨?_, fun q hq => List.mem_append_left _ (h.queue_issued q hq)⟩
      intro g' hg'
      by_cases hg : g' = g
      · simp [hg]
      · exact List.mem_append_left _ (h.live_issued g' (by simpa [hg] using hg'))
  | @dropToken g =>
      refine ⟨?_, h.queue_issued⟩
      intro g' hg'
      by_cases hg : g' = g
      · simp [hg] at hg'
      · exact h.live_issued g' (by simpa [hg] using hg')
  | complete => exact ⟨h.live_issued, h.queue_issued⟩
  | completeShutdown => exact ⟨h.live_issued, h.queue_issued⟩

end Runite.Io.WriteState
