import Runite.Io.WriteState
import Mathlib.Tactic.Common

/-!
# What one call on a writable resource can do

The loops of `poll_write` and `poll_drain` are unrolled once and for all.
`Written` and `Drained` list the ways through a call, each with the state it
leaves and the answer it gives; `written_of_pollWrite` and
`drained_of_pollDrain` say that there are no others, and `exists_pollWrite`
and `exists_pollDrain` that the loops end.
-/

namespace Runite.Io.WriteState

variable {s s' : WriteState} {waker : Waker} {generation g : Generation} {buf : Buf}
  {start : Option (Except IoError Nat)}

/-! ## Frame lemmas -/

@[simp]
theorem isLiveWrite_of_live_eq {t : WriteState} (h : t.live = s.live) :
    t.isLiveWrite g = s.isLiveWrite g := by
  simp [isLiveWrite, h]

section Cleanup

variable (s)

@[simp] theorem cleanupCancelled_operation : s.cleanupCancelled.operation = s.operation := by
  unfold cleanupCancelled; dsimp only; split <;> rfl

@[simp] theorem cleanupCancelled_queue :
    s.cleanupCancelled.queue = s.queue.filter fun q => s.isLiveWrite q.generation := by
  unfold cleanupCancelled; dsimp only; split <;> rfl

theorem cleanupCancelled_completed (g : Generation) :
    s.cleanupCancelled.completed g = if s.isLiveWrite g then s.completed g else none := by
  unfold cleanupCancelled; dsimp only; split <;> rfl

@[simp] theorem cleanupCancelled_untrackedCompleted :
    s.cleanupCancelled.untrackedCompleted = s.untrackedCompleted := by
  unfold cleanupCancelled; dsimp only; split <;> rfl

@[simp] theorem cleanupCancelled_bufferedError :
    s.cleanupCancelled.bufferedError = s.bufferedError := by
  unfold cleanupCancelled; dsimp only; split <;> rfl

@[simp] theorem cleanupCancelled_shutdown : s.cleanupCancelled.shutdown = s.shutdown := by
  unfold cleanupCancelled; dsimp only; split <;> rfl

@[simp] theorem cleanupCancelled_live : s.cleanupCancelled.live = s.live := by
  unfold cleanupCancelled; dsimp only; split <;> rfl

@[simp] theorem cleanupCancelled_issued : s.cleanupCancelled.issued = s.issued := by
  unfold cleanupCancelled; dsimp only; split <;> rfl

@[simp] theorem cleanupCancelled_started : s.cleanupCancelled.started = s.started := by
  unfold cleanupCancelled; dsimp only; split <;> rfl

@[simp] theorem cleanupCancelled_finished : s.cleanupCancelled.finished = s.finished := by
  unfold cleanupCancelled; dsimp only; split <;> rfl

end Cleanup

section Retain

variable (s) (kind : WriteKind) (identity : Option WriteIdentity) (c : Completion)

/-- `retain_completion` only touches the three places a result can be kept in. -/
theorem retainCompletion_eq : s.retainCompletion kind identity c = { s with
    completed := (s.retainCompletion kind identity c).completed
    untrackedCompleted := (s.retainCompletion kind identity c).untrackedCompleted
    bufferedError := (s.retainCompletion kind identity c).bufferedError } := by
  unfold retainCompletion
  repeat' split
  all_goals rfl

theorem retainCompletion_completed (g : Generation) :
    (s.retainCompletion kind identity c).completed g =
      if kind = .operation g ∧ isTrackedWrite g ∧ s.isLiveWrite g then some c
      else s.completed g := by
  unfold retainCompletion
  cases kind with
  | operation g' =>
      by_cases hg : g = g'
      · subst hg
        by_cases hkept : isTrackedWrite g = true ∧ s.isLiveWrite g = true
        · simp [hkept]
        · cases identity <;> simp [hkept]
      · have hg' : g' ≠ g := Ne.symm hg
        by_cases hkept : isTrackedWrite g' = true ∧ s.isLiveWrite g' = true
        · simp [hkept, hg, hg']
        · cases identity <;> simp [hkept, hg']
  | buffered =>
      cases hresult : c.result <;> simp

end Retain

/-! ## Taking the result of someone else's operation -/

/-- A call finds that the operation in flight, which it does not own, has
finished: it wakes the waiters and keeps the result for its owner. -/
def handOver (s : WriteState) (p : PendingWrite) (waker : Waker) (result : Except IoError Nat) :
    WriteState :=
  (s.finish p waker result).wakeReadyWaiters.retainCompletion p.kind p.identity
    ⟨p.submission, result⟩

section HandOver

variable (s) (p : PendingWrite) (waker : Waker) (result : Except IoError Nat)

@[simp] theorem handOver_operation : (s.handOver p waker result).operation = none := by
  rw [handOver, retainCompletion_eq]; rfl

@[simp] theorem handOver_queue : (s.handOver p waker result).queue = s.queue := by
  rw [handOver, retainCompletion_eq]; rfl

@[simp] theorem handOver_shutdown : (s.handOver p waker result).shutdown = s.shutdown := by
  rw [handOver, retainCompletion_eq]; rfl

@[simp] theorem handOver_live : (s.handOver p waker result).live = s.live := by
  rw [handOver, retainCompletion_eq]; rfl

@[simp] theorem handOver_issued : (s.handOver p waker result).issued = s.issued := by
  rw [handOver, retainCompletion_eq]; rfl

@[simp] theorem handOver_started : (s.handOver p waker result).started = s.started := by
  rw [handOver, retainCompletion_eq]; rfl

@[simp] theorem handOver_finished : (s.handOver p waker result).finished =
    s.finished ++ [(p.kind, ⟨p.submission, result⟩)] := by
  rw [handOver, retainCompletion_eq]; rfl

@[simp] theorem handOver_woken : (s.handOver p waker result).woken =
    s.woken ++ register p.operation.waiters waker ++ (s.queue.head?.map (·.waker)).toList ++
      s.barrierWaiters := by
  rw [handOver, retainCompletion_eq]; rfl

@[simp] theorem handOver_completed (g : Generation) :
    (s.handOver p waker result).completed g =
      if p.kind = .operation g ∧ isTrackedWrite g ∧ s.isLiveWrite g then
        some ⟨p.submission, result⟩
      else s.completed g :=
  retainCompletion_completed ..

/-- The retained untracked completion is replaced exactly by the result of
another untracked operation. -/
theorem handOver_untrackedCompleted : (s.handOver p waker result).untrackedCompleted =
    match p.identity with
    | some identity => some (identity, ⟨p.submission, result⟩)
    | none => s.untrackedCompleted := by
  have hidentity := p.identity_isSome
  unfold handOver retainCompletion
  cases hkind : p.kind with
  | operation g =>
      cases htracked : isTrackedWrite g <;> cases hid : p.identity <;>
        simp_all [WriteKind.isUntracked]
      split <;> rfl
  | buffered =>
      cases hid : p.identity <;> cases result <;> simp_all [WriteKind.isUntracked]

theorem handOver_bufferedError : (s.handOver p waker result).bufferedError =
    match p.kind, result with
    | .buffered, .error error => some ⟨p.submission, error⟩
    | _, _ => s.bufferedError := by
  unfold handOver retainCompletion
  cases p.kind with
  | operation g =>
      cases p.identity <;> cases hkept : isTrackedWrite g && s.isLiveWrite g <;>
        simp_all [isLiveWrite]
      all_goals split <;> rfl
  | buffered => cases result <;> rfl

/-- `poll_drain` keeps the result before it wakes the waiters, `poll_write`
after: it makes no difference. -/
theorem retainCompletion_wakeReadyWaiters :
    ((s.finish p waker result).retainCompletion p.kind p.identity
      ⟨p.submission, result⟩).wakeReadyWaiters = s.handOver p waker result := by
  unfold handOver retainCompletion
  repeat' split
  all_goals first | rfl | simp_all [isLiveWrite]

end HandOver

/-! ## Only the first clean-up of a call has an effect -/

/-- Nothing is left of dropped generations. -/
structure Clean (s : WriteState) : Prop where
  queue_live : ∀ q ∈ s.queue, s.isLiveWrite q.generation
  completed_live : ∀ g c, s.completed g = some c → s.isLiveWrite g

theorem clean_cleanupCancelled (s : WriteState) : s.cleanupCancelled.Clean := by
  constructor
  · intro q hq
    simp_all [isLiveWrite]
  · intro g c hc
    by_contra hdead
    rw [isLiveWrite_of_live_eq (cleanupCancelled_live s)] at hdead
    simp [cleanupCancelled_completed, hdead] at hc

theorem Clean.cleanupCancelled_eq (h : s.Clean) : s.cleanupCancelled = s := by
  have hqueue : s.queue.filter (fun q => s.isLiveWrite q.generation) = s.queue :=
    List.filter_eq_self.mpr h.queue_live
  have hcompleted : (fun g => if s.isLiveWrite g then s.completed g else none) = s.completed := by
    funext g
    cases hg : s.completed g with
    | none => simp
    | some c => simp [h.completed_live g c hg]
  unfold cleanupCancelled
  rw [hqueue, hcompleted]
  simp

theorem mem_enqueuedTracked {q : QueuedWrite} (hq : q ∈ s.enqueuedTracked generation waker) :
    s.isLiveWrite q.generation ∧ isTrackedWrite q.generation ∧
      q = ⟨generation, waker⟩ ∨ q ∈ s.queue := by
  unfold enqueuedTracked at hq
  split at hq
  · exact Or.inr hq
  next hlive =>
    replace hlive : isTrackedWrite generation = true ∧ s.isLiveWrite generation = true := by
      simpa using hlive
    split at hq
    · exact Or.inr hq
    split at hq
    · obtain ⟨q', hq', rfl⟩ := List.mem_map.mp hq
      unfold setWaker
      split
      next hg => exact Or.inl ⟨by simp [hg, hlive], by simp [hg, hlive], by simp [← hg]⟩
      next => exact Or.inr hq'
    · rcases List.mem_append.mp hq with hq | hq
      · exact Or.inr hq
      · obtain rfl : q = ⟨generation, waker⟩ := by simpa using hq
        exact Or.inl ⟨hlive.2, hlive.1, rfl⟩

theorem Clean.enqueueTracked (h : s.Clean) : (s.enqueueTracked generation waker).Clean where
  queue_live := by
    intro q hq
    rcases mem_enqueuedTracked hq with ⟨hlive, -⟩ | hq
    · exact hlive
    · exact h.queue_live q hq
  completed_live := h.completed_live

theorem Clean.handOver (h : s.Clean) (p : PendingWrite) (waker : Waker)
    (result : Except IoError Nat) : (s.handOver p waker result).Clean where
  queue_live := by
    intro q hq
    rw [isLiveWrite_of_live_eq (handOver_live ..)]
    exact h.queue_live q (by simpa using hq)
  completed_live := by
    intro g c hc
    rw [isLiveWrite_of_live_eq (handOver_live ..)]
    rw [handOver_completed] at hc
    split at hc
    next hkept => exact hkept.2.2
    next => exact h.completed_live g c hc

/-! ## The ways through `poll_write` -/

/-- The front of the queue, if there is one, is this generation; a dropped
generation does not start. -/
def MayBegin (s : WriteState) (generation : Generation) : Prop :=
  match s.queue with
  | front :: _ => front.generation = generation
  | [] => s.isLiveWrite generation

/-- With nothing in flight: the ways through the rest of the loop. -/
inductive Turn (waker : Waker) (generation : Generation) (buf : Buf)
    (start : Option (Except IoError Nat)) (s : WriteState) :
    WriteState → Poll (Reply Nat) → Prop
  /-- the result was kept for this generation -/
  | completed {c : Completion} : s.completed generation = some c →
      Turn waker generation buf start s (s.removeCompleted generation) (.ready c.reply)
  /-- an earlier generation is at the front of the queue -/
  | blocked {front : QueuedWrite} {rest : List QueuedWrite} :
      s.completed generation = none → s.queue = front :: rest → front.generation ≠ generation →
      Turn waker generation buf start s
        ((s.wake front.waker).registerCancellation front.generation waker) .pending
  /-- the token of this generation was dropped -/
  | cancelled : s.completed generation = none → s.queue = [] →
      s.isLiveWrite generation = false →
      Turn waker generation buf start s s (.ready ⟨.error cancelledError, none⟩)
  /-- a new operation, still pending after its first poll -/
  | awaits : s.completed generation = none → s.MayBegin generation → start = none →
      Turn waker generation buf start s
        ((s.begin generation buf none).await (s.newWrite generation buf none) waker) .pending
  /-- a new operation, ready at its first poll -/
  | answers {result : Except IoError Nat} : s.completed generation = none →
      s.MayBegin generation → start = some result →
      Turn waker generation buf start s
        ((s.begin generation buf start).finish (s.newWrite generation buf start) waker
          result).wakeReadyWaiters
        (.ready (Completion.reply ⟨s.submission buf, result⟩))

/-- The ways through the loop of `poll_write`. -/
inductive Driven (waker : Waker) (generation : Generation) (buf : Buf)
    (start : Option (Except IoError Nat)) (s : WriteState) :
    WriteState → Poll (Reply Nat) → Prop
  /-- an operation is in flight and pending -/
  | awaits {p : PendingWrite} : s.operation = some p → p.operation.outcome = none →
      Driven waker generation buf start s (s.await p waker) .pending
  /-- the operation in flight is the caller's, and has finished -/
  | delivers {p : PendingWrite} {result : Except IoError Nat} : s.operation = some p →
      p.operation.outcome = some result → isOwn p generation buf = true →
      Driven waker generation buf start s (s.finish p waker result).wakeReadyWaiters
        (.ready (Completion.reply ⟨p.submission, result⟩))
  /-- the operation in flight has finished and left a buffered error -/
  | reports {p : PendingWrite} {result : Except IoError Nat} {failure : Failure} :
      s.operation = some p → p.operation.outcome = some result →
      isOwn p generation buf = false →
      (s.handOver p waker result).bufferedError = some failure →
      Driven waker generation buf start s
        (s.handOver p waker result).takeBufferedError (.ready failure.reply)
  /-- the operation in flight has finished, and its result is kept -/
  | handsOver {p : PendingWrite} {result : Except IoError Nat} {s' : WriteState}
      {poll : Poll (Reply Nat)} : s.operation = some p → p.operation.outcome = some result →
      isOwn p generation buf = false → (s.handOver p waker result).bufferedError = none →
      Turn waker generation buf start (s.handOver p waker result) s' poll →
      Driven waker generation buf start s s' poll
  /-- nothing is in flight -/
  | idle {s' : WriteState} {poll : Poll (Reply Nat)} : s.operation = none →
      Turn waker generation buf start s s' poll → Driven waker generation buf start s s' poll

/-- The ways through `poll_write`. -/
inductive Written (waker : Waker) (generation : Generation) (buf : Buf)
    (start : Option (Except IoError Nat)) (s : WriteState) :
    WriteState → Poll (Reply Nat) → Prop
  | empty : buf.bytes = [] → Written waker generation buf start s s (.ready ⟨.ok 0, none⟩)
  /-- the result was kept for this generation -/
  | completed {c : Completion} : buf.bytes ≠ [] →
      s.cleanupCancelled.completed generation = some c →
      Written waker generation buf start s (s.cleanupCancelled.removeCompleted generation)
        (.ready c.reply)
  /-- the result was kept for this buffer -/
  | untracked {c : Completion} : buf.bytes ≠ [] →
      s.cleanupCancelled.completed generation = none →
      s.untrackedCompletion generation buf = some c →
      Written waker generation buf start s s.cleanupCancelled.takeUntrackedCompleted
        (.ready c.reply)
  /-- the direction is shut down -/
  | refused : buf.bytes ≠ [] → s.cleanupCancelled.completed generation = none →
      s.untrackedCompletion generation buf = none → s.shutdown.requested = true →
      s.cleanupCancelled.known generation = false →
      Written waker generation buf start s s.cleanupCancelled
        (.ready ⟨.error shutDownError, none⟩)
  /-- the call takes part in driving the operations -/
  | driven {s' : WriteState} {poll : Poll (Reply Nat)} : buf.bytes ≠ [] →
      s.cleanupCancelled.completed generation = none →
      s.untrackedCompletion generation buf = none →
      (s.shutdown.requested = true → s.cleanupCancelled.known generation = true) →
      Driven waker generation buf start (s.cleanupCancelled.enqueueTracked generation waker)
        s' poll →
      Written waker generation buf start s s' poll

@[simp]
theorem isOwn_newWrite (s : WriteState) :
    isOwn (s.newWrite generation buf start) generation buf = true := by
  unfold isOwn
  by_cases htracked : isTrackedWrite generation = true <;> simp [htracked]

/-- Calling the factory takes one more round, which polls the new operation. -/
theorem pollWriteLoop_begin (fuel : Nat) (s : WriteState) :
    pollWriteLoop (fuel + 1) (s.begin generation buf start) waker generation buf none =
      some (match start with
        | none => ((s.begin generation buf none).await (s.newWrite generation buf none) waker,
            .pending)
        | some result => (((s.begin generation buf start).finish
            (s.newWrite generation buf start) waker result).wakeReadyWaiters,
            .ready (Completion.reply ⟨s.submission buf, result⟩))) := by
  unfold pollWriteLoop
  cases start with
  | none => simp [pollPending]
  | some result => simp [pollPending]

theorem exists_turn (fuel : Nat) (hclean : s.Clean) (hidle : s.operation = none) :
    ∃ s' poll, pollWriteLoop (fuel + 2) s waker generation buf (some start) = some (s', poll) ∧
      Turn waker generation buf start s s' poll := by
  -- both ways to call the factory end alike
  have hbegin : s.completed generation = none → s.MayBegin generation →
      ∃ s' poll, pollWriteLoop (fuel + 1) (s.begin generation buf start) waker generation buf
        none = some (s', poll) ∧ Turn waker generation buf start s s' poll := by
    intro hcompleted hmay
    rw [pollWriteLoop_begin]
    cases hstart : start with
    | none => exact ⟨_, _, rfl, .awaits hcompleted hmay rfl⟩
    | some result => exact ⟨_, _, rfl, .answers hcompleted hmay rfl⟩
  unfold pollWriteLoop
  simp only [hidle, hclean.cleanupCancelled_eq, Option.bind_some]
  cases hcompleted : s.completed generation with
  | some c => exact ⟨_, _, rfl, .completed hcompleted⟩
  | none =>
      cases hqueue : s.queue with
      | nil =>
          by_cases hlive : s.isLiveWrite generation = true
          · have hmay : s.MayBegin generation := by simpa [MayBegin, hqueue] using hlive
            simpa [hlive] using hbegin hcompleted hmay
          · have htracked : isTrackedWrite generation = true := by
              by_contra htracked
              simp [isLiveWrite, htracked] at hlive
            refine ⟨s, .ready ⟨.error cancelledError, none⟩, ?_, ?_⟩
            · simp [hlive, htracked]
            · exact .cancelled hcompleted hqueue (by simpa using hlive)
      | cons front rest =>
          by_cases hfront : front.generation = generation
          · have hmay : s.MayBegin generation := by simpa [MayBegin, hqueue] using hfront
            simpa [hfront] using hbegin hcompleted hmay
          · refine ⟨_, _, ?_, .blocked hcompleted hqueue hfront⟩
            simp [hfront]

theorem exists_driven (hclean : s.Clean) :
    ∃ s' poll, pollWriteLoop 3 s waker generation buf (some start) = some (s', poll) ∧
      Driven waker generation buf start s s' poll := by
  cases hop : s.operation with
  | none =>
      obtain ⟨s', poll, hloop, hturn⟩ := exists_turn 1 hclean hop
      exact ⟨s', poll, hloop, .idle hop hturn⟩
  | some p =>
      unfold pollWriteLoop
      simp only [hop, pollPending]
      cases houtcome : p.operation.outcome with
      | none => exact ⟨_, _, rfl, .awaits hop houtcome⟩
      | some result =>
          cases hown : isOwn p generation buf with
          | true => exact ⟨_, _, by simp, .delivers hop houtcome hown⟩
          | false =>
              cases herror : (s.handOver p waker result).bufferedError with
              | some failure =>
                  refine ⟨_, _, ?_, .reports hop houtcome hown herror⟩
                  rw [handOver] at herror
                  simp [herror, handOver]
              | none =>
                  obtain ⟨s', poll, hloop, hturn⟩ :=
                    exists_turn 0 (hclean.handOver p waker result) (by simp)
                  refine ⟨s', poll, ?_, .handsOver hop houtcome hown herror hturn⟩
                  rw [handOver] at herror hloop
                  simp [herror, hloop]

/-- `poll_write` returns, in one of the ways of `Written`. -/
theorem exists_pollWrite (s : WriteState) (waker : Waker) (generation : Generation) (buf : Buf)
    (start : Option (Except IoError Nat)) :
    ∃ s' poll, s.pollWrite waker generation buf start = some (s', poll) ∧
      Written waker generation buf start s s' poll := by
  unfold pollWrite
  by_cases hbuf : buf.bytes = []
  · exact ⟨_, _, by simp [hbuf], .empty hbuf⟩
  have huntracked : s.cleanupCancelled.untrackedCompletion generation buf =
      s.untrackedCompletion generation buf := by
    simp [untrackedCompletion]
  simp only [hbuf, if_false, huntracked]
  cases hcompleted : s.cleanupCancelled.completed generation with
  | some c => exact ⟨_, _, rfl, .completed hbuf hcompleted⟩
  | none =>
      cases hretained : s.untrackedCompletion generation buf with
      | some c => exact ⟨_, _, rfl, .untracked hbuf hcompleted hretained⟩
      | none =>
          by_cases hrefused :
              (s.shutdown.requested && !s.cleanupCancelled.known generation) = true
          · obtain ⟨hrequested, hunknown⟩ :
                s.shutdown.requested = true ∧ s.cleanupCancelled.known generation = false := by
              simpa using hrefused
            refine ⟨_, _, ?_, .refused hbuf hcompleted hretained hrequested hunknown⟩
            simp [hrequested, hunknown]
          · obtain ⟨s', poll, hloop, hdriven⟩ := exists_driven
              ((clean_cleanupCancelled s).enqueueTracked)
            refine ⟨s', poll, by simpa [hrefused] using hloop, ?_⟩
            refine .driven hbuf hcompleted hretained ?_ hdriven
            simpa using hrefused

theorem written_of_pollWrite {poll : Poll (Reply Nat)}
    (h : s.pollWrite waker generation buf start = some (s', poll)) :
    Written waker generation buf start s s' poll := by
  obtain ⟨t, poll', ht, hwritten⟩ := exists_pollWrite s waker generation buf start
  obtain ⟨rfl, rfl⟩ : t = s' ∧ poll' = poll := by simpa [ht] using h
  exact hwritten

/-! ## The ways through `poll_drain` -/

/-- With nothing in flight: the end of `poll_drain`. -/
inductive Barrier (waker : Waker) (s : WriteState) : WriteState → Poll Unit → Prop
  /-- a queued generation has to start first -/
  | blocked {front : QueuedWrite} {rest : List QueuedWrite} : s.queue = front :: rest →
      Barrier waker s
        (((s.registerBarrier waker).registerCancellation front.generation waker).wake
          front.waker) .pending
  | empty : s.queue = [] → Barrier waker s s (.ready ())

/-- The ways through `poll_drain`. -/
inductive Drained (waker : Waker) (s : WriteState) : WriteState → Poll Unit → Prop
  /-- an operation is in flight and pending -/
  | awaits {p : PendingWrite} : s.operation = some p → p.operation.outcome = none →
      Drained waker s (s.cleanupCancelled.await p waker) .pending
  /-- the operation in flight has finished, and its result is kept -/
  | handsOver {p : PendingWrite} {result : Except IoError Nat} {s' : WriteState}
      {poll : Poll Unit} : s.operation = some p → p.operation.outcome = some result →
      Barrier waker (s.cleanupCancelled.handOver p waker result) s' poll →
      Drained waker s s' poll
  /-- nothing is in flight -/
  | idle {s' : WriteState} {poll : Poll Unit} : s.operation = none →
      Barrier waker s.cleanupCancelled s' poll → Drained waker s s' poll

theorem exists_barrier (fuel : Nat) (waker : Waker) (hclean : s.Clean) (hidle : s.operation = none) :
    ∃ s' poll, pollDrainLoop (fuel + 1) s waker = some (s', poll) ∧
      Barrier waker s s' poll := by
  unfold pollDrainLoop
  simp only [hclean.cleanupCancelled_eq, hidle]
  cases hqueue : s.queue with
  | nil => exact ⟨_, _, rfl, .empty hqueue⟩
  | cons front rest => exact ⟨_, _, rfl, .blocked hqueue⟩

/-- `poll_drain` returns, in one of the ways of `Drained`. -/
theorem exists_pollDrain (s : WriteState) (waker : Waker) :
    ∃ s' poll, s.pollDrain waker = some (s', poll) ∧ Drained waker s s' poll := by
  have hclean := clean_cleanupCancelled s
  cases hop : s.operation with
  | none =>
      obtain ⟨s', poll, hloop, hbarrier⟩ :=
        exists_barrier 1 waker hclean (by simpa using hop)
      refine ⟨s', poll, ?_, .idle hop hbarrier⟩
      unfold pollDrainLoop at hloop
      unfold pollDrain pollDrainLoop
      rwa [hclean.cleanupCancelled_eq] at hloop
  | some p =>
      unfold pollDrain pollDrainLoop
      simp only [cleanupCancelled_operation, hop, pollPending]
      cases houtcome : p.operation.outcome with
      | none => exact ⟨_, _, rfl, .awaits hop houtcome⟩
      | some result =>
          obtain ⟨s', poll, hloop, hbarrier⟩ :=
            exists_barrier 0 waker (hclean.handOver p waker result) (by simp)
          refine ⟨s', poll, ?_, .handsOver hop houtcome hbarrier⟩
          simpa [retainCompletion_wakeReadyWaiters] using hloop

theorem drained_of_pollDrain {poll : Poll Unit} (h : s.pollDrain waker = some (s', poll)) :
    Drained waker s s' poll := by
  obtain ⟨t, poll', ht, hdrained⟩ := exists_pollDrain s waker
  obtain ⟨rfl, rfl⟩ : t = s' ∧ poll' = poll := by simpa [ht] using h
  exact hdrained

/-- A drain that is ready leaves nothing in flight and nothing queued. -/
theorem Drained.idle_of_ready (h : Drained waker s s' (.ready ())) :
    s'.operation = none ∧ s'.queue = [] := by
  cases h with
  | handsOver hop houtcome hbarrier =>
      cases hbarrier with
      | empty hqueue => exact ⟨by simp, hqueue⟩
  | idle hop hbarrier =>
      cases hbarrier with
      | empty hqueue => exact ⟨by simpa using hop, hqueue⟩

theorem Drained.operation_ne_none {poll : Poll Unit} (h : Drained waker s s' poll)
    (hop : s'.operation ≠ none) : s.operation ≠ none := by
  cases h with
  | awaits hsome => simp [hsome]
  | handsOver hsome => simp [hsome]
  | idle hnone hbarrier =>
      cases hbarrier with
      | blocked => simp [hnone] at hop
      | empty => simp [hnone] at hop

/-! ## The calls that begin with a drain -/

/-- The ways through `poll_flush`. -/
inductive Flushed (waker : Waker) (s : WriteState) : WriteState → Poll (Reply Unit) → Prop
  | awaits {t : WriteState} : Drained waker s t .pending → Flushed waker s t .pending
  | reports {t : WriteState} {failure : Failure} : Drained waker s t (.ready ()) →
      t.bufferedError = some failure →
      Flushed waker s t.takeBufferedError (.ready failure.reply)
  | reportsUntracked {t : WriteState} {failure : Failure} : Drained waker s t (.ready ()) →
      t.bufferedError = none → t.untrackedError = some failure →
      Flushed waker s t.takeUntrackedCompleted (.ready failure.reply)
  | flushed {t : WriteState} : Drained waker s t (.ready ()) → t.bufferedError = none →
      t.untrackedError = none → Flushed waker s t (.ready ⟨.ok (), none⟩)

theorem exists_pollFlush (s : WriteState) (waker : Waker) :
    ∃ s' poll, s.pollFlush waker = some (s', poll) ∧ Flushed waker s s' poll := by
  obtain ⟨t, drain, ht, hdrained⟩ := exists_pollDrain s waker
  unfold pollFlush
  rw [ht]
  cases drain with
  | pending => exact ⟨_, _, rfl, .awaits hdrained⟩
  | ready value =>
      cases herror : t.bufferedError with
      | some failure => exact ⟨_, _, by simp [herror], .reports hdrained herror⟩
      | none =>
          cases hretained : t.untrackedError with
          | some failure =>
              exact ⟨_, _, by simp [herror, hretained],
                .reportsUntracked hdrained herror hretained⟩
          | none => exact ⟨_, _, by simp [herror, hretained], .flushed hdrained herror hretained⟩

theorem flushed_of_pollFlush {poll : Poll (Reply Unit)}
    (h : s.pollFlush waker = some (s', poll)) : Flushed waker s s' poll := by
  obtain ⟨t, poll', ht, hflushed⟩ := exists_pollFlush s waker
  obtain ⟨rfl, rfl⟩ : t = s' ∧ poll' = poll := by simpa [ht] using h
  exact hflushed

theorem Flushed.operation_ne_none {poll : Poll (Reply Unit)} (h : Flushed waker s s' poll)
    (hop : s'.operation ≠ none) : s.operation ≠ none := by
  cases h with
  | awaits hdrained => exact hdrained.operation_ne_none hop
  | reports hdrained => exact hdrained.operation_ne_none hop
  | reportsUntracked hdrained => exact hdrained.operation_ne_none hop
  | flushed hdrained => exact hdrained.operation_ne_none hop

/-- The ways through `poll_shutdown`. -/
inductive ShutDown (waker : Waker) (start : Option (Except IoError Unit)) (s : WriteState) :
    WriteState → Poll (Reply Unit) → Prop
  | awaits {t : WriteState} : Drained waker s.requestShutdown t .pending →
      ShutDown waker start s t .pending
  | reports {t : WriteState} {failure : Failure} :
      Drained waker s.requestShutdown t (.ready ()) → t.bufferedError = some failure →
      ShutDown waker start s t.takeBufferedError (.ready failure.reply)
  | drives {t : WriteState} : Drained waker s.requestShutdown t (.ready ()) →
      t.bufferedError = none →
      ShutDown waker start s (t.driveShutdown waker start)
        ((t.shutdown.poll waker start).2.2.map fun result => ⟨result, none⟩)

theorem exists_pollShutdown (s : WriteState) (waker : Waker)
    (start : Option (Except IoError Unit)) :
    ∃ s' poll, s.pollShutdown waker start = some (s', poll) ∧
      ShutDown waker start s s' poll := by
  obtain ⟨t, drain, ht, hdrained⟩ := exists_pollDrain s.requestShutdown waker
  unfold pollShutdown
  rw [ht]
  cases drain with
  | pending => exact ⟨_, _, rfl, .awaits hdrained⟩
  | ready value =>
      cases herror : t.bufferedError with
      | some failure => exact ⟨_, _, by simp [herror], .reports hdrained herror⟩
      | none => exact ⟨_, _, by simp [herror], .drives hdrained herror⟩

theorem shutDown_of_pollShutdown {start : Option (Except IoError Unit)}
    {poll : Poll (Reply Unit)} (h : s.pollShutdown waker start = some (s', poll)) :
    ShutDown waker start s s' poll := by
  obtain ⟨t, poll', ht, hshutDown⟩ := exists_pollShutdown s waker start
  obtain ⟨rfl, rfl⟩ : t = s' ∧ poll' = poll := by simpa [ht] using h
  exact hshutDown

/-- The ways through `poll_buffered_write`. -/
inductive BufferedWritten (waker : Waker) (buf : Buf) (start : Option (Except IoError Nat))
    (s : WriteState) : WriteState → Poll (Reply Nat) → Prop
  | empty : buf.bytes = [] → BufferedWritten waker buf start s s (.ready ⟨.ok 0, none⟩)
  | refused : buf.bytes ≠ [] → s.shutdown.requested = true →
      BufferedWritten waker buf start s s (.ready ⟨.error shutDownError, none⟩)
  | awaits {t : WriteState} : buf.bytes ≠ [] → s.shutdown.requested = false →
      Drained waker s t .pending → BufferedWritten waker buf start s t .pending
  | reports {t : WriteState} {failure : Failure} : buf.bytes ≠ [] →
      s.shutdown.requested = false → Drained waker s t (.ready ()) →
      t.bufferedError = some failure →
      BufferedWritten waker buf start s t.takeBufferedError (.ready failure.reply)
  /-- the operation is pending after its first poll, and is kept -/
  | accepts {t : WriteState} : buf.bytes ≠ [] → s.shutdown.requested = false →
      Drained waker s t (.ready ()) → t.bufferedError = none → start = none →
      BufferedWritten waker buf start s
        ((t.submitBuffered buf).await (t.newBuffered buf start) waker)
        (.ready ⟨.ok buf.bytes.length, none⟩)
  /-- the operation is ready at its first poll -/
  | answers {t : WriteState} {result : Except IoError Nat} : buf.bytes ≠ [] →
      s.shutdown.requested = false → Drained waker s t (.ready ()) →
      t.bufferedError = none → start = some result →
      BufferedWritten waker buf start s
        ((t.submitBuffered buf).finish (t.newBuffered buf start) waker result)
        (.ready (match result with
          | .ok _ => ⟨.ok buf.bytes.length, none⟩
          | .error error => Failure.reply ⟨t.submission buf, error⟩))

theorem exists_pollBufferedWrite (s : WriteState) (waker : Waker) (buf : Buf)
    (start : Option (Except IoError Nat)) :
    ∃ s' poll, s.pollBufferedWrite waker buf start = some (s', poll) ∧
      BufferedWritten waker buf start s s' poll := by
  unfold pollBufferedWrite
  by_cases hbuf : buf.bytes = []
  · exact ⟨_, _, by simp [hbuf], .empty hbuf⟩
  by_cases hrequested : s.shutdown.requested = true
  · exact ⟨_, _, by simp [hbuf, hrequested], .refused hbuf hrequested⟩
  obtain ⟨t, drain, ht, hdrained⟩ := exists_pollDrain s waker
  simp only [hbuf, if_false, hrequested, ht]
  replace hrequested : s.shutdown.requested = false := by simpa using hrequested
  cases drain with
  | pending => exact ⟨_, _, rfl, .awaits hbuf hrequested hdrained⟩
  | ready value =>
      cases herror : t.bufferedError with
      | some failure =>
          exact ⟨_, _, by simp [herror], .reports hbuf hrequested hdrained herror⟩
      | none =>
          cases hstart : start with
          | none =>
              refine ⟨_, _, ?_, .accepts hbuf hrequested hdrained herror rfl⟩
              simp [herror, beginBuffered, pollPending]
          | some result =>
              refine ⟨_, _, ?_, .answers hbuf hrequested hdrained herror rfl⟩
              cases result <;> simp [herror, beginBuffered, pollPending]

theorem bufferedWritten_of_pollBufferedWrite {poll : Poll (Reply Nat)}
    (h : s.pollBufferedWrite waker buf start = some (s', poll)) :
    BufferedWritten waker buf start s s' poll := by
  obtain ⟨t, poll', ht, hwritten⟩ := exists_pollBufferedWrite s waker buf start
  obtain ⟨rfl, rfl⟩ : t = s' ∧ poll' = poll := by simpa [ht] using h
  exact hwritten

/-! ## What a call starts -/

theorem Turn.started {poll : Poll (Reply Nat)}
    (hturn : Turn waker generation buf start s s' poll) : s'.started = s.started ∨
      s'.started = s.started ++ [(.operation generation, s.submission buf)] := by
  cases hturn with
  | completed => exact Or.inl rfl
  | blocked => exact Or.inl rfl
  | cancelled => exact Or.inl rfl
  | awaits => exact Or.inr rfl
  | answers => exact Or.inr rfl

theorem Driven.started {poll : Poll (Reply Nat)}
    (hdriven : Driven waker generation buf start s s' poll) : s'.started = s.started ∨
      s'.started = s.started ++ [(.operation generation, s.submission buf)] := by
  cases hdriven with
  | awaits => exact Or.inl rfl
  | delivers => exact Or.inl rfl
  | reports => exact Or.inl (by simp)
  | handsOver _ _ _ _ hturn => simpa [submission] using hturn.started
  | idle _ hturn => exact hturn.started

/-- `poll_write` starts at most one operation, for its caller. -/
theorem Written.started {poll : Poll (Reply Nat)}
    (hwritten : Written waker generation buf start s s' poll) : s'.started = s.started ∨
      s'.started = s.started ++ [(.operation generation, s.submission buf)] := by
  cases hwritten with
  | empty => exact Or.inl rfl
  | completed => exact Or.inl (by simp)
  | untracked => exact Or.inl (by simp)
  | refused => exact Or.inl (by simp)
  | driven _ _ _ _ hdriven => simpa [submission] using hdriven.started

theorem Drained.started {poll : Poll Unit} (hdrained : Drained waker s s' poll) :
    s'.started = s.started := by
  cases hdrained with
  | awaits => simp
  | handsOver _ _ hbarrier => cases hbarrier <;> simp
  | idle _ hbarrier => cases hbarrier <;> simp

theorem Flushed.started {poll : Poll (Reply Unit)} (hflushed : Flushed waker s s' poll) :
    s'.started = s.started := by
  cases hflushed with
  | awaits hdrained => exact hdrained.started
  | reports hdrained => exact hdrained.started
  | reportsUntracked hdrained => exact hdrained.started
  | flushed hdrained => exact hdrained.started

end Runite.Io.WriteState
