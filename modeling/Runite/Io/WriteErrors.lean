import Runite.Io.WriteCredit

/-!
# No write failure is lost

A `Ledger` is a writable resource with the failures that its callers were
told about.  A failure that a poll took out of an operation is `Kept` until it
is reported: for a live tracked generation in the map of completions, for a
raw write in the retained completion, for a buffered write in the buffered
error.

Three steps of the code lose one, and `Swallows` describes them: the token of
a generation is dropped while a failure is kept for it; a call takes the
failure of a generation whose token is gone; a call takes the result of a raw
write while the failure of another is retained.
-/

namespace Runite.Io

open Transition

/-! ## Failures in results and replies -/

/-- The result of an operation that failed. -/
def Failure.completion (f : Failure) : Completion := ⟨f.source, .error f.error⟩

def Completion.failure (c : Completion) : Option Failure :=
  match c.result with
  | .error error => some ⟨c.source, error⟩
  | .ok _ => none

/-- The failure of an operation that a reply tells the caller about. -/
def Reply.failure {τ : Type} (r : Reply τ) : Option Failure :=
  match r.result, r.source with
  | .error error, some source => some ⟨source, error⟩
  | _, _ => none

@[simp]
theorem Failure.failure_reply {τ : Type} (f : Failure) : (f.reply : Reply τ).failure = some f :=
  rfl

@[simp]
theorem Completion.failure_reply (c : Completion) : c.reply.failure = c.failure := by
  obtain ⟨source, _ | _⟩ := c <;> rfl

@[simp]
theorem Failure.failure_completion (f : Failure) : f.completion.failure = some f := rfl

/-- The failure that an answer tells the caller about. -/
def failureOf {τ : Type} : Poll (Reply τ) → List Failure
  | .ready reply => reply.failure.toList
  | .pending => []

namespace WriteState

/-- The failure that a call tells its caller about. -/
def Answer.failure : Answer → List Failure
  | .write poll => failureOf poll
  | .unit poll => failureOf poll
  | .drain _ => []
  | .event => []

variable {s s' : WriteState} {waker : Waker} {generation g : Generation} {buf : Buf}
  {start : Option (Except IoError Nat)} {p : PendingWrite} {result : Except IoError Nat}
  {reported : List Failure}

/-! ## Accounting for failures -/

/-- The failure is kept for whoever has to hear of it. -/
def Kept (s : WriteState) (kind : WriteKind) (f : Failure) : Prop :=
  match kind with
  | .operation g =>
      if isTrackedWrite g then s.completed g = some f.completion ∧ s.isLiveWrite g = true
      else ∃ identity, s.untrackedCompleted = some (identity, f.completion)
  | .buffered => s.bufferedError = some f

theorem kept_tracked {f : Failure} (htracked : isTrackedWrite g = true) :
    s.Kept (.operation g) f ↔
      s.completed g = some f.completion ∧ s.isLiveWrite g = true := by
  simp [Kept, htracked]

theorem kept_untracked {f : Failure} (htracked : ¬ isTrackedWrite g = true) :
    s.Kept (.operation g) f ↔
      ∃ identity, s.untrackedCompleted = some (identity, f.completion) := by
  simp [Kept, htracked]

@[simp]
theorem kept_buffered {f : Failure} : s.Kept .buffered f ↔ s.bufferedError = some f := Iff.rfl

/-- Every failure that was taken out of an operation is reported or kept. -/
def Accounted (s : WriteState) (reported : List Failure) : Prop :=
  ∀ kind f, (kind, f.completion) ∈ s.finished → f ∈ reported ∨ s.Kept kind f

/-- The call would take the result of the operation `p` in flight without
owning it. -/
def TakesOver (s : WriteState) (p : PendingWrite) : Call → Bool
  | .pollWrite _ generation buf _ =>
      buf.bytes ≠ [] && (s.cleanupCancelled.completed generation).isNone &&
        (s.untrackedCompletion generation buf).isNone &&
        !(s.shutdown.requested && !s.cleanupCancelled.known generation) &&
        !isOwn p generation buf
  | .pollBufferedWrite _ buf _ => buf.bytes ≠ [] && !s.shutdown.requested
  | .pollFlush _ => true
  | .pollDrain _ => true
  | .pollShutdown _ _ => true
  | _ => false

/-- Keeping this result loses a failure: its own, because its generation is
gone, or the one of another raw write that it displaces. -/
def Displaces (s : WriteState) (p : PendingWrite) (result : Except IoError Nat) : Prop :=
  ((∃ error, result = .error error) ∧
    ∃ g, p.kind = .operation g ∧ isTrackedWrite g = true ∧ s.isLiveWrite g = false) ∨
  (p.kind.isUntracked = true ∧ ∃ identity f,
    s.untrackedCompleted = some (identity, Failure.completion f))

def Swallows (s : WriteState) (c : Call) : Prop :=
  (∃ g f, c = .dropToken g ∧ s.completed g = some (Failure.completion f)) ∨
  (∃ p result, s.operation = some p ∧ p.operation.outcome = some result ∧
    s.TakesOver p c = true ∧ s.Displaces p result)

/-- Registering a waker does not change which generations are live. -/
theorem isLiveWrite_registerCancellation (s : WriteState) (generation : Generation)
    (waker : Waker) (g : Generation) :
    (s.registerCancellation generation waker).isLiveWrite g = s.isLiveWrite g := by
  unfold isLiveWrite
  rw [(SameTokens.registerCancellation s generation waker).live g]

theorem untrackedCompleted_of_completion {c : Completion}
    (h : s.untrackedCompletion generation buf = some c) :
    ∃ identity, s.untrackedCompleted = some (identity, c) := by
  unfold untrackedCompletion at h
  split at h
  · cases h
  split at h
  next identity c' hretained =>
    split at h
    · cases h
      exact ⟨identity, hretained⟩
    · cases h
  next => cases h

theorem untrackedCompleted_of_error {f : Failure} (h : s.untrackedError = some f) :
    ∃ identity, s.untrackedCompleted = some (identity, f.completion) := by
  unfold untrackedError at h
  split at h
  next identity source error hretained =>
    cases h
    exact ⟨identity, hretained⟩
  next => cases h

namespace Accounted

theorem congr {t : WriteState} (h : s.Accounted reported) (hfinished : t.finished = s.finished)
    (hcompleted : t.completed = s.completed)
    (huntracked : t.untrackedCompleted = s.untrackedCompleted)
    (hbuffered : t.bufferedError = s.bufferedError)
    (hlive : ∀ g, t.isLiveWrite g = s.isLiveWrite g) : t.Accounted reported := by
  intro kind f hf
  rw [hfinished] at hf
  refine (h kind f hf).imp_right ?_
  unfold Kept
  rw [hcompleted, huntracked, hbuffered]
  cases kind <;> simp only [hlive] <;> exact id

theorem init : ({} : WriteState).Accounted [] := by
  intro kind f hf
  cases hf

theorem cleanupCancelled (h : s.Accounted reported) : s.cleanupCancelled.Accounted reported := by
  intro kind f hf
  rw [cleanupCancelled_finished] at hf
  refine (h kind f hf).imp_right ?_
  intro hkept
  cases kind with
  | operation g =>
      by_cases htracked : isTrackedWrite g = true
      · rw [kept_tracked htracked] at hkept ⊢
        rw [isLiveWrite_of_live_eq (cleanupCancelled_live s)]
        simpa [cleanupCancelled_completed, hkept.2] using hkept.1
      · rw [kept_untracked htracked] at hkept ⊢
        simpa using hkept
  | buffered => simpa using hkept

theorem enqueueTracked (h : s.Accounted reported) :
    (s.enqueueTracked generation waker).Accounted reported :=
  h.congr rfl rfl rfl rfl fun _ => rfl

theorem finish (h : s.Accounted reported) : (s.finish p waker result).Accounted
    (reported ++ (Completion.failure ⟨p.submission, result⟩).toList) := by
  intro kind f hf
  rcases List.mem_append.mp hf with hf | hf
  · exact (h kind f hf).imp_left (List.mem_append_left _)
  · left
    obtain ⟨-, heq⟩ : kind = p.kind ∧ f.completion = ⟨p.submission, result⟩ := by
      simpa using hf
    rw [← heq]
    simp

theorem wakeReadyWaiters (h : s.Accounted reported) : s.wakeReadyWaiters.Accounted reported :=
  h.congr rfl rfl rfl rfl fun _ => rfl

/-- Someone else takes the result of the operation: an earlier failure stays
where it was. -/
theorem kept_handOver {kind : WriteKind} {f : Failure} (hvalid : s.Valid)
    (hop : s.operation = some p) (hdisplaces : ¬ s.Displaces p result) (hkept : s.Kept kind f) :
    (s.handOver p waker result).Kept kind f := by
  cases kind with
  | operation g =>
      by_cases htracked : isTrackedWrite g = true
      · rw [kept_tracked htracked] at hkept ⊢
        rw [isLiveWrite_of_live_eq (handOver_live ..), handOver_completed, if_neg]
        · exact hkept
        · rintro ⟨hkind, -⟩
          simp [hvalid.inFlight_completed p g hop hkind] at hkept
      · rw [kept_untracked htracked] at hkept ⊢
        obtain ⟨identity, hretained⟩ := hkept
        refine ⟨identity, ?_⟩
        rw [handOver_untrackedCompleted]
        cases hidentity : p.identity with
        | none => exact hretained
        | some _ =>
            have huntracked : p.kind.isUntracked = true := by
              rw [← p.identity_isSome, hidentity]
              rfl
            exact absurd (Or.inr ⟨huntracked, identity, f, hretained⟩) hdisplaces
  | buffered =>
      rw [kept_buffered] at hkept ⊢
      rw [handOver_bufferedError]
      split
      next _ hkind => simp [hvalid.buffered_clear p hop hkind] at hkept
      next => exact hkept

/-- Someone else takes the result of the operation: its failure is kept. -/
theorem kept_of_handOver {error : IoError} (hdisplaces : ¬ s.Displaces p (.error error)) :
    (s.handOver p waker (.error error)).Kept p.kind ⟨p.submission, error⟩ := by
  cases hkind : p.kind with
  | operation g =>
      by_cases htracked : isTrackedWrite g = true
      · have hlive : s.isLiveWrite g = true := by
          by_contra hlive
          exact hdisplaces
            (Or.inl ⟨⟨error, rfl⟩, g, hkind, htracked, by simpa using hlive⟩)
        rw [kept_tracked htracked, isLiveWrite_of_live_eq (handOver_live ..)]
        simp [hkind, htracked, hlive, Failure.completion]
      · have hidentity : p.identity.isSome = true := by
          rw [p.identity_isSome, hkind]
          simpa [WriteKind.isUntracked] using htracked
        obtain ⟨identity, hidentity⟩ := Option.isSome_iff_exists.mp hidentity
        rw [kept_untracked htracked]
        exact ⟨identity, by simp [handOver_untrackedCompleted, hidentity, Failure.completion]⟩
  | buffered => simp [handOver_bufferedError, hkind]

theorem handOver (h : s.Accounted reported) (hvalid : s.Valid) (hop : s.operation = some p)
    (hdisplaces : ¬ s.Displaces p result) :
    (s.handOver p waker result).Accounted reported := by
  intro kind f hf
  simp only [handOver_finished, List.mem_append, List.mem_singleton, Prod.mk.injEq] at hf
  rcases hf with hf | ⟨rfl, hcompletion⟩
  · exact (h kind f hf).imp_right (kept_handOver hvalid hop hdisplaces)
  · obtain ⟨source, error⟩ := f
    obtain ⟨rfl, rfl⟩ : source = p.submission ∧ .error error = result := by
      simpa [Failure.completion] using hcompletion
    exact Or.inr (kept_of_handOver hdisplaces)

theorem removeCompleted {c : Completion} (h : s.Accounted reported)
    (hc : s.completed generation = some c) :
    (s.removeCompleted generation).Accounted (reported ++ c.failure.toList) := by
  intro kind f hf
  rcases h kind f hf with hreported | hkept
  · exact Or.inl (List.mem_append_left _ hreported)
  cases kind with
  | operation g =>
      by_cases htracked : isTrackedWrite g = true
      · rw [kept_tracked htracked] at hkept
        by_cases hg : g = generation
        · left
          subst hg
          obtain rfl : c = f.completion := by simpa [hc] using hkept.1
          simp
        · right
          rw [kept_tracked htracked]
          exact ⟨by simpa [hg] using hkept.1, hkept.2⟩
      · right
        rw [kept_untracked htracked] at hkept ⊢
        exact hkept
  | buffered => exact Or.inr hkept

theorem takeUntrackedCompleted {identity : WriteIdentity} {c : Completion}
    (h : s.Accounted reported) (hc : s.untrackedCompleted = some (identity, c)) :
    s.takeUntrackedCompleted.Accounted (reported ++ c.failure.toList) := by
  intro kind f hf
  rcases h kind f hf with hreported | hkept
  · exact Or.inl (List.mem_append_left _ hreported)
  cases kind with
  | operation g =>
      by_cases htracked : isTrackedWrite g = true
      · right
        rw [kept_tracked htracked] at hkept ⊢
        exact hkept
      · left
        rw [kept_untracked htracked] at hkept
        obtain ⟨identity', hretained⟩ := hkept
        obtain ⟨-, rfl⟩ : identity = identity' ∧ c = f.completion := by
          simpa [hc] using hretained
        simp
  | buffered => exact Or.inr hkept

theorem takeBufferedError {failure : Failure} (h : s.Accounted reported)
    (hfailure : s.bufferedError = some failure) :
    s.takeBufferedError.Accounted (reported ++ [failure]) := by
  intro kind f hf
  rcases h kind f hf with hreported | hkept
  · exact Or.inl (List.mem_append_left _ hreported)
  cases kind with
  | operation g => exact Or.inr hkept
  | buffered =>
      left
      obtain rfl : failure = f := by simpa [hfailure] using hkept
      simp

theorem issue (h : s.Accounted reported) : (s.issue g).Accounted reported := by
  intro kind f hf
  refine (h kind f hf).imp_right ?_
  intro hkept
  cases kind with
  | operation g' =>
      by_cases htracked : isTrackedWrite g' = true
      · rw [kept_tracked htracked] at hkept ⊢
        refine ⟨hkept.1, ?_⟩
        by_cases hg : g' = g
        · simp [isLiveWrite, hg]
        · simpa [isLiveWrite, hg] using hkept.2
      · rw [kept_untracked htracked] at hkept ⊢
        exact hkept
  | buffered => exact hkept

/-- Dropping a token loses nothing if no failure is kept for its generation. -/
theorem retire {waiters : List Waker} (h : s.Accounted reported)
    (hclear : ∀ f, s.completed g ≠ some (Failure.completion f)) :
    (s.retire g waiters).Accounted reported := by
  intro kind f hf
  refine (h kind f hf).imp_right ?_
  intro hkept
  cases kind with
  | operation g' =>
      by_cases htracked : isTrackedWrite g' = true
      · rw [kept_tracked htracked] at hkept ⊢
        have hg : g' ≠ g := by
          rintro rfl
          exact hclear f hkept.1
        exact ⟨hkept.1, by simpa [isLiveWrite, hg] using hkept.2⟩
      · rw [kept_untracked htracked] at hkept ⊢
        exact hkept
  | buffered => exact hkept

/-! ## Every call that does not swallow keeps the accounts -/

theorem turn {poll : Poll (Reply Nat)} (h : s.Accounted reported)
    (hturn : Turn waker generation buf start s s' poll) :
    s'.Accounted (reported ++ failureOf poll) := by
  cases hturn with
  | completed hc => simpa [failureOf] using h.removeCompleted hc
  | blocked =>
      simp only [failureOf, List.append_nil]
      exact h.congr rfl rfl rfl rfl (isLiveWrite_registerCancellation _ _ _)
  | cancelled => simpa [failureOf, Reply.failure] using h
  | awaits =>
      simp only [failureOf, List.append_nil]
      exact h.congr rfl rfl rfl rfl fun _ => rfl
  | answers =>
      have hbegin : (s.begin generation buf start).Accounted reported :=
        h.congr rfl rfl rfl rfl fun _ => rfl
      simp only [failureOf, Completion.failure_reply]
      exact hbegin.finish.wakeReadyWaiters

theorem driven {poll : Poll (Reply Nat)} (h : s.Accounted reported) (hvalid : s.Valid)
    (hdisplaces : ∀ p result, s.operation = some p → p.operation.outcome = some result →
      isOwn p generation buf = false → ¬ s.Displaces p result)
    (hdriven : Driven waker generation buf start s s' poll) :
    s'.Accounted (reported ++ failureOf poll) := by
  cases hdriven with
  | awaits =>
      simp only [failureOf, List.append_nil]
      exact h.congr rfl rfl rfl rfl fun _ => rfl
  | delivers hop houtcome hown => simpa [failureOf] using h.finish.wakeReadyWaiters
  | @reports p result failure hop houtcome hown herror =>
      have hover : (s.handOver p waker result).Accounted reported :=
        h.handOver hvalid hop (hdisplaces _ _ hop houtcome hown)
      simpa [failureOf] using hover.takeBufferedError herror
  | handsOver hop houtcome hown herror hturn =>
      exact (h.handOver hvalid hop (hdisplaces _ _ hop houtcome hown)).turn hturn
  | idle hop hturn => exact h.turn hturn

/-- Only the registry and the retained completion decide whether a result
displaces a failure. -/
theorem displaces_congr {t : WriteState} (hlive : t.live = s.live)
    (huntracked : t.untrackedCompleted = s.untrackedCompleted) :
    t.Displaces p result ↔ s.Displaces p result := by
  unfold Displaces
  simp only [huntracked, isLiveWrite_of_live_eq hlive]

theorem written {poll : Poll (Reply Nat)} (h : s.Accounted reported) (hvalid : s.Valid)
    (hswallows : ¬ s.Swallows (.pollWrite waker generation buf start))
    (hwritten : Written waker generation buf start s s' poll) :
    s'.Accounted (reported ++ failureOf poll) := by
  have hclean := h.cleanupCancelled
  cases hwritten with
  | empty => simpa [failureOf, Reply.failure] using h
  | completed _ hc => simpa [failureOf] using hclean.removeCompleted hc
  | untracked _ _ hretained =>
      obtain ⟨identity, hretained⟩ := untrackedCompleted_of_completion hretained
      simpa [failureOf] using hclean.takeUntrackedCompleted (by simpa using hretained)
  | refused => simpa [failureOf, Reply.failure] using hclean
  | driven hbuf hc hretained hknown hdriven =>
      refine hclean.enqueueTracked.driven hvalid.cleanupCancelled.enqueueTracked ?_ hdriven
      intro p result hop houtcome hown hdisplaces
      have hknown' : s.shutdown.requested = false ∨
          s.cleanupCancelled.known generation = true := by
        cases hrequested : s.shutdown.requested
        · exact Or.inl rfl
        · exact Or.inr (hknown hrequested)
      have hlive : (s.cleanupCancelled.enqueueTracked generation waker).live = s.live :=
        cleanupCancelled_live s
      refine hswallows (Or.inr ⟨p, result, by simpa using hop, houtcome, ?_, ?_⟩)
      · simpa [TakesOver, hbuf, hc, hretained, hown] using hknown'
      · exact (displaces_congr hlive (by simp)).mp hdisplaces

theorem barrier {poll : Poll Unit} (h : s.Accounted reported)
    (hbarrier : Barrier waker s s' poll) : s'.Accounted reported := by
  cases hbarrier with
  | blocked => exact h.congr rfl rfl rfl rfl (isLiveWrite_registerCancellation _ _ _)
  | empty => exact h

theorem drained {poll : Poll Unit} (h : s.Accounted reported) (hvalid : s.Valid)
    (hdisplaces : ∀ p result, s.operation = some p → p.operation.outcome = some result →
      ¬ s.Displaces p result)
    (hdrained : Drained waker s s' poll) : s'.Accounted reported := by
  have hclean := h.cleanupCancelled
  cases hdrained with
  | awaits => exact hclean.congr rfl rfl rfl rfl fun _ => rfl
  | handsOver hop houtcome hbarrier =>
      refine Accounted.barrier ?_ hbarrier
      refine hclean.handOver hvalid.cleanupCancelled (by simpa using hop) ?_
      rw [displaces_congr (cleanupCancelled_live s) (cleanupCancelled_untrackedCompleted s)]
      exact hdisplaces _ _ hop houtcome
  | idle hop hbarrier => exact hclean.barrier hbarrier

theorem flushed {poll : Poll (Reply Unit)} (h : s.Accounted reported) (hvalid : s.Valid)
    (hswallows : ¬ s.Swallows (.pollFlush waker)) (hflushed : Flushed waker s s' poll) :
    s'.Accounted (reported ++ failureOf poll) := by
  have hdrain : ∀ t drain, Drained waker s t drain → t.Accounted reported := by
    intro t drain
    apply h.drained hvalid
    intro p result hop houtcome hdisplaces
    exact hswallows (Or.inr ⟨p, result, hop, houtcome, rfl, hdisplaces⟩)
  cases hflushed with
  | awaits hdrained => simpa [failureOf] using hdrain _ _ hdrained
  | reports hdrained herror =>
      simpa [failureOf] using (hdrain _ _ hdrained).takeBufferedError herror
  | reportsUntracked hdrained herror hretained =>
      obtain ⟨identity, hretained⟩ := untrackedCompleted_of_error hretained
      simpa [failureOf] using (hdrain _ _ hdrained).takeUntrackedCompleted hretained
  | flushed hdrained => simpa [failureOf, Reply.failure] using hdrain _ _ hdrained

theorem shutDown {start : Option (Except IoError Unit)} {poll : Poll (Reply Unit)}
    (h : s.Accounted reported) (hvalid : s.Valid)
    (hswallows : ¬ s.Swallows (.pollShutdown waker start))
    (hshutDown : ShutDown waker start s s' poll) : s'.Accounted (reported ++ failureOf poll) := by
  have hrequest : s.requestShutdown.Accounted reported := h.congr rfl rfl rfl rfl fun _ => rfl
  have hvalid' : s.requestShutdown.Valid := by apply hvalid.congr <;> rfl
  have hdrain : ∀ t drain, Drained waker s.requestShutdown t drain → t.Accounted reported := by
    intro t drain
    apply hrequest.drained hvalid'
    intro p result hop houtcome hdisplaces
    exact hswallows (Or.inr ⟨p, result, hop, houtcome, rfl, hdisplaces⟩)
  cases hshutDown with
  | awaits hdrained => simpa [failureOf] using hdrain _ _ hdrained
  | reports hdrained herror =>
      simpa [failureOf] using (hdrain _ _ hdrained).takeBufferedError herror
  | @drives t hdrained herror =>
      have hnone : failureOf ((t.shutdown.poll waker start).2.2.map fun result =>
          (⟨result, none⟩ : Reply Unit)) = [] := by
        cases (t.shutdown.poll waker start).2.2 with
        | pending => rfl
        | ready result => cases result <;> rfl
      rw [hnone, List.append_nil]
      exact (hdrain _ _ hdrained).congr rfl rfl rfl rfl fun _ => rfl

theorem bufferedWritten {poll : Poll (Reply Nat)} (h : s.Accounted reported) (hvalid : s.Valid)
    (hswallows : ¬ s.Swallows (.pollBufferedWrite waker buf start))
    (hwritten : BufferedWritten waker buf start s s' poll) :
    s'.Accounted (reported ++ failureOf poll) := by
  have hdrain : buf.bytes ≠ [] → s.shutdown.requested = false →
      ∀ t drain, Drained waker s t drain → t.Accounted reported := by
    intro hbuf hrequested t drain
    apply h.drained hvalid
    intro p result hop houtcome hdisplaces
    refine hswallows (Or.inr ⟨p, result, hop, houtcome, ?_, hdisplaces⟩)
    simp [TakesOver, hbuf, hrequested]
  cases hwritten with
  | empty => simpa [failureOf, Reply.failure] using h
  | refused => simpa [failureOf, Reply.failure] using h
  | awaits hbuf hrequested hdrained =>
      simpa [failureOf] using hdrain hbuf hrequested _ _ hdrained
  | reports hbuf hrequested hdrained herror =>
      simpa [failureOf] using (hdrain hbuf hrequested _ _ hdrained).takeBufferedError herror
  | accepts hbuf hrequested hdrained =>
      have hdrain := hdrain hbuf hrequested _ _ hdrained
      simp only [failureOf, Reply.failure, Option.toList_none, List.append_nil]
      exact hdrain.congr rfl rfl rfl rfl fun _ => rfl
  | @answers t result hbuf hrequested hdrained =>
      have hsubmit : (t.submitBuffered buf).Accounted reported :=
        (hdrain hbuf hrequested _ _ hdrained).congr rfl rfl rfl rfl fun _ => rfl
      have hfinish : ((t.submitBuffered buf).finish (t.newBuffered buf start) waker
          result).Accounted (reported ++ (Completion.failure ⟨t.submission buf, result⟩).toList) :=
        hsubmit.finish
      cases result with
      | ok n => simpa [failureOf, Reply.failure, Completion.failure] using hfinish
      | error error => simpa [failureOf, Completion.failure] using hfinish

theorem called {c : Call} {answer : Answer} (h : s.Accounted reported) (hvalid : s.Valid)
    (hswallows : ¬ s.Swallows c) (hcalled : Called s c s' answer) :
    s'.Accounted (reported ++ answer.failure) := by
  cases hcalled with
  | pollWrite hwritten => exact h.written hvalid hswallows hwritten
  | pollBufferedWrite hwritten => exact h.bufferedWritten hvalid hswallows hwritten
  | pollFlush hflushed => exact h.flushed hvalid hswallows hflushed
  | pollDrain hdrained =>
      simp only [Answer.failure, List.append_nil]
      refine h.drained hvalid ?_ hdrained
      intro p result hop houtcome hdisplaces
      exact hswallows (Or.inr ⟨p, result, hop, houtcome, rfl, hdisplaces⟩)
  | pollShutdown hshutDown => exact h.shutDown hvalid hswallows hshutDown
  | newToken htracked hfresh =>
      simp only [Answer.failure, List.append_nil]
      exact h.issue
  | @dropToken g waiters hlive =>
      simp only [Answer.failure, List.append_nil]
      refine h.retire ?_
      intro f hf
      exact hswallows (Or.inl ⟨g, f, rfl, hf⟩)
  | complete =>
      simp only [Answer.failure, List.append_nil]
      exact h.congr rfl rfl rfl rfl fun _ => rfl
  | completeShutdown =>
      simp only [Answer.failure, List.append_nil]
      exact h.congr rfl rfl rfl rfl fun _ => rfl

end Accounted

end WriteState

/-! ## Runs with the failures that were reported -/

/-- A writable resource and the failures its callers were told about. -/
structure Ledger where
  state : WriteState := {}
  reported : List Failure := []

namespace Ledger

open WriteState

/-- One call, with the failure that its answer reports. -/
def step (l : Ledger) (c : Call) : Option Ledger :=
  (l.state.call c).map fun (state, answer) => ⟨state, l.reported ++ answer.failure⟩

variable {l : Ledger}

theorem accounted_of_reachable
    (h : Reachable step (fun l c => ¬ l.state.Swallows c) {} l) :
    l.state.Valid ∧ l.state.Accounted l.reported := by
  refine h.invariant (fun l => l.state.Valid ∧ l.state.Accounted l.reported)
    ⟨.init, .init⟩ ?_
  rintro l c l' ⟨hvalid, haccounted⟩ hok hstep
  obtain ⟨⟨s', answer⟩, hcall, rfl⟩ := Option.map_eq_some_iff.mp hstep
  have hcalled := called_of_call hcall
  exact ⟨hvalid.called hcalled, haccounted.called hvalid hok hcalled⟩

/-- A flush that succeeds has nothing in flight, and every failure it was not
told about is kept for a live owner. -/
theorem flush_accounted {s s' : WriteState} {waker : Waker} {reported : List Failure}
    (haccounted : s'.Accounted reported)
    (hflushed : Flushed waker s s' (.ready ⟨.ok (), none⟩)) :
    s'.operation = none ∧ ∀ kind f, (kind, Failure.completion f) ∈ s'.finished →
      f ∈ reported ∨ ∃ g, kind = .operation g ∧ s'.isLiveWrite g = true ∧
        s'.completed g = some f.completion := by
  cases hflushed with
  | flushed hdrained herror hretained =>
      refine ⟨hdrained.idle_of_ready.1, ?_⟩
      intro kind f hf
      refine (haccounted kind f hf).imp_right ?_
      intro hkept
      cases kind with
      | operation g =>
          by_cases htracked : isTrackedWrite g = true
          · rw [kept_tracked htracked] at hkept
            exact ⟨g, rfl, hkept.2, hkept.1⟩
          · rw [kept_untracked htracked] at hkept
            obtain ⟨identity, hslot⟩ := hkept
            simp [untrackedError, hslot, Failure.completion] at hretained
      | buffered => simp [herror] at hkept

/-- Every failure that a poll took out of an operation was returned to a
caller or is kept for one; the owner's next call returns what is kept for it;
and a flush succeeds only when whatever was not returned is kept for an owner
that is still alive. -/
structure NoneSwallowed (l : Ledger) : Prop where
  accounted : l.state.Accounted l.reported
  owner_told : ∀ g f waker buf start s' poll, l.state.completed g = some (Failure.completion f) →
    l.state.isLiveWrite g = true → buf.bytes ≠ [] →
    l.state.pollWrite waker g buf start = some (s', poll) → poll = .ready f.reply
  flush_told : ∀ waker s', ¬ l.state.Swallows (.pollFlush waker) →
    l.state.pollFlush waker = some (s', .ready ⟨.ok (), none⟩) →
    s'.operation = none ∧ ∀ kind f, (kind, Failure.completion f) ∈ s'.finished →
      f ∈ l.reported ∨ ∃ g, kind = .operation g ∧ s'.isLiveWrite g = true ∧
        s'.completed g = some f.completion

/-- In every run none of whose calls swallows a failure, no failure is lost. -/
theorem noneSwallowed_of_reachable
    (h : Reachable step (fun l c => ¬ l.state.Swallows c) {} l) : l.NoneSwallowed := by
  obtain ⟨hvalid, haccounted⟩ := accounted_of_reachable h
  refine ⟨haccounted, ?_, ?_⟩
  · intro g f waker buf start s' poll hc hlive hbuf hcall
    have hclaimed : l.state.claimed g buf = some f.completion := by
      simp [claimed, cleanupCancelled_completed, hlive, hc]
    exact reply_of_claimed hbuf hclaimed (written_of_pollWrite hcall)
  · intro waker s' hswallows hcall
    have hflushed := flushed_of_pollFlush hcall
    have hafter := haccounted.flushed hvalid hswallows hflushed
    simp only [failureOf, Reply.failure, Option.toList_none, List.append_nil] at hafter
    exact flush_accounted hafter hflushed

/-- A failure of a raw write that nobody has polled for yet. -/
theorem noneSwallowed_failedWrite : ∃ l : Ledger, l.NoneSwallowed ∧
    l.state.started = [(.operation 0, ⟨0, [1, 2]⟩)] ∧ l.reported = [] :=
  ⟨_, noneSwallowed_of_reachable (.next (a := .complete (.error shutDownError))
    (.next (a := .pollWrite 1 0 ⟨100, [1, 2]⟩ none) .init (by simp [Swallows]) rfl)
    (by simp [Swallows, TakesOver]) rfl), rfl, rfl⟩

def noSpace : IoError :=
  { kind := .other 28, rawOsError := some 28, message := "No space left on device" }

/-- A tracked write whose token is dropped while its operation is in flight. -/
def droppedOwner : List Call :=
  [.newToken (trackedWriteBit ||| 1), .pollWrite 1 (trackedWriteBit ||| 1) ⟨100, [1, 2]⟩ none,
    .dropToken (trackedWriteBit ||| 1), .complete (.error noSpace)]

/-- The failure of an operation whose token was dropped is discarded: the flush
that takes it returns `Ok`, and nobody is left to be told. -/
theorem dropped_owner_swallows_failure : ∃ l s',
    Reachable step (fun _ _ => True) {} l ∧
      l.state.pollFlush 2 = some (s', .ready ⟨.ok (), none⟩) ∧
      ∃ kind f, (kind, Failure.completion f) ∈ s'.finished ∧ f ∉ l.reported ∧
        ¬ s'.Kept kind f := by
  obtain ⟨l, hreach, hl⟩ := Reachable.exists_of_run step (fun _ _ => True) {} droppedOwner
    (fun l => l.reported = [] ∧ (l.state.pollFlush 2).any fun p =>
      p.2 = .ready ⟨.ok (), none⟩ ∧
        p.1.finished = [(.operation (trackedWriteBit ||| 1), ⟨⟨0, [1, 2]⟩, .error noSpace⟩)] ∧
        p.1.completed (trackedWriteBit ||| 1) = none) (by simp) (by decide +kernel)
  obtain ⟨hreported, hflush⟩ := of_decide_eq_true hl
  obtain ⟨⟨s', poll⟩, hcall, hanswer⟩ := Option.any_eq_true _ _ |>.mp hflush
  have hpoll : poll = .ready ⟨.ok (), none⟩ ∧
      s'.finished = [(.operation (trackedWriteBit ||| 1), ⟨⟨0, [1, 2]⟩, .error noSpace⟩)] ∧
      s'.completed (trackedWriteBit ||| 1) = none := of_decide_eq_true hanswer
  obtain ⟨rfl, hfinished, hcompleted⟩ := hpoll
  refine ⟨l, s', hreach, hcall, .operation (trackedWriteBit ||| 1), ⟨⟨0, [1, 2]⟩, noSpace⟩,
    ?_, by simp [hreported], ?_⟩
  · simp [hfinished, Failure.completion]
  · rw [kept_tracked (by decide)]
    simp [hcompleted]

end Ledger

end Runite.Io
