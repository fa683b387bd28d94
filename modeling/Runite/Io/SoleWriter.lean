import Runite.Io.WriteRuns

/-!
# A writable resource with one writer

One caller polls `poll_write` with one generation and the slice that it has left to
write, and nothing else is queued or kept for anyone.  A result then goes to the caller
whose bytes it counts: `sent`, what the resource has accepted, grows by what the caller
is told.

The slot may hold an operation that the caller has not started, as long as that one has
failed.
-/

namespace Runite.Io

/-- The bytes of a submission that the resource has accepted. -/
def Completion.delivered (c : Completion) : List UInt8 :=
  match c.result with
  | .ok written => c.source.data.take written
  | .error _ => []

/-- A result that a write of `len` bytes can have. -/
def Admits (len : Nat) : Except IoError Nat → Prop
  | .ok written => 1 ≤ written ∧ written ≤ len
  | .error _ => True

instance (len : Nat) (result : Except IoError Nat) : Decidable (Admits len result) :=
  match result with
  | .ok written => inferInstanceAs (Decidable (1 ≤ written ∧ written ≤ len))
  | .error _ => inferInstanceAs (Decidable True)

namespace WriteState

/-- Everything that the resource has accepted, in order. -/
def sent (s : WriteState) : List UInt8 :=
  s.finished.flatMap fun f => f.2.delivered

/-- Nothing is queued, and no result is kept but a failure. -/
structure Alone (s : WriteState) (g : Generation) : Prop where
  queue : s.queue = []
  completed : ∀ g', s.completed g' = none
  retained : ∀ i c, s.untrackedCompleted = some (i, c) → ∃ error, c.result = .error error
  buffered : s.bufferedError = none
  live : s.isLiveWrite g

/-- The operation in flight is the caller's, for the slice it polls with. -/
def Occupied (s : WriteState) (g : Generation) (buf : Buf) : Prop :=
  ∃ p, s.operation = some p ∧ isOwn p g buf ∧ p.submission.data = buf.bytes ∧
    ∀ result, p.operation.outcome = some result → Admits buf.bytes.length result

/-- The slot holds an operation of a raw call that has failed. -/
def Failed (s : WriteState) : Prop :=
  ∃ p error, s.operation = some p ∧ p.kind.isUntracked ∧
    p.operation.outcome = some (.error error)

/-- What a sole writer may find in the slot. -/
def Slot (s : WriteState) (g : Generation) (buf : Buf) : Prop :=
  s.operation = none ∨ s.Occupied g buf ∨ s.Failed

/-- What a poll tells the caller, and what the resource has accepted meanwhile. -/
def Told (s s' : WriteState) (g : Generation) (buf : Buf) (poll : Poll (Reply Nat)) : Prop :=
  match poll with
  | .pending => s'.Occupied g buf ∧ s'.sent = s.sent
  | .ready ⟨.error _, _⟩ => s'.Slot g buf ∧ s'.sent = s.sent
  | .ready ⟨.ok written, _⟩ =>
      s'.operation = none ∧ s'.sent = s.sent ++ buf.bytes.take written ∧
        1 ≤ written ∧ written ≤ buf.bytes.length

variable {s s' t : WriteState} {waker : Waker} {g : Generation} {buf : Buf}
  {start : Option (Except IoError Nat)} {p : PendingWrite} {result : Except IoError Nat}
  {poll : Poll (Reply Nat)}

theorem sent_of_finished_eq (h : s'.finished = s.finished) : s'.sent = s.sent := by
  unfold sent
  rw [h]

theorem sent_append {kind : WriteKind} {c : Completion}
    (h : s'.finished = s.finished ++ [(kind, c)]) : s'.sent = s.sent ++ c.delivered := by
  unfold sent
  rw [h, List.flatMap_append, List.flatMap_singleton]

/-- The result of an operation for `buf` is told as it is. -/
theorem told_of_result {source : Submission} (hop : s'.operation = none)
    (hsent : s'.sent = s.sent ++ Completion.delivered ⟨source, result⟩)
    (hdata : source.data = buf.bytes) (hadmits : Admits buf.bytes.length result) :
    Told s s' g buf (.ready (Completion.reply ⟨source, result⟩)) := by
  cases result with
  | error error => exact ⟨.inl hop, by simpa [Completion.delivered] using hsent⟩
  | ok written => exact ⟨hop, by rw [hsent, ← hdata]; rfl, hadmits⟩

theorem Told.of_sent_eq (h : Told t s' g buf poll) (hsent : t.sent = s.sent) :
    Told s s' g buf poll := by
  unfold Told at h ⊢
  rwa [hsent] at h

/-- The queue that a sole writer comes to its turn with: its own entry, if it is tracked. -/
def OwnQueue (s : WriteState) (g : Generation) : Prop :=
  s.queue.tail = [] ∧ ∀ front ∈ s.queue.head?, front.generation = g

theorem told_of_turn (hqueue : s.OwnQueue g) (hcompleted : ∀ g', s.completed g' = none)
    (hretained : ∀ i c, s.untrackedCompleted = some (i, c) → ∃ error, c.result = .error error)
    (hbuffered : s.bufferedError = none) (hlive : s.isLiveWrite g)
    (hstart : ∀ result, start = some result → Admits buf.bytes.length result)
    (h : Turn waker g buf start s s' poll) : Alone s' g ∧ Told s s' g buf poll := by
  cases h with
  | completed hc => rw [hcompleted g] at hc; cases hc
  | blocked _ hcons hfront => exact absurd (hqueue.2 _ (by simp [hcons])) hfront
  | cancelled _ _ hdead => rw [hlive] at hdead; cases hdead
  | awaits =>
      refine ⟨⟨hqueue.1, hcompleted, hretained, hbuffered, hlive⟩, ⟨_, rfl, ?_, rfl, ?_⟩, rfl⟩
      · change isOwn (s.newWrite g buf none) g buf = true
        exact isOwn_newWrite s
      · simp [PendingOperation.await]
  | answers _ _ heq =>
      refine ⟨⟨hqueue.1, hcompleted, hretained, hbuffered, hlive⟩, ?_⟩
      exact told_of_result rfl (sent_append rfl) rfl (hstart _ heq)

theorem ownQueue_enqueueTracked (hqueue : s.queue = []) :
    (s.enqueueTracked g waker).OwnQueue g := by
  unfold OwnQueue
  rw [enqueueTracked_queue, enqueuedTracked]
  split
  · simp [hqueue]
  · split
    · simp [hqueue]
    · simp [hqueue]

theorem enqueuedTracked_of_inFlight (hqueue : s.queue = []) (hop : s.operation = some p)
    (hown : isOwn p g buf) : s.enqueuedTracked g waker = [] := by
  have hflight : s.inFlight g = true := by
    have hkind : p.kind = .operation g := by
      unfold isOwn at hown
      simp at hown
      exact hown.1
    simp [inFlight, hop, hkind]
  unfold enqueuedTracked
  simp [hqueue, hflight]

theorem Alone.cleanupCancelled (h : Alone s g) : Alone s.cleanupCancelled g where
  queue := by simp [h.queue]
  completed g' := by simp [cleanupCancelled_completed, h.completed g']
  retained := by simpa using h.retained
  buffered := by simpa using h.buffered
  live := by
    rw [isLiveWrite_of_live_eq (cleanupCancelled_live s)]
    exact h.live

theorem Failed.of_operation_eq (h : s.Failed) (hop : s'.operation = s.operation) :
    s'.Failed := by
  unfold Failed at h ⊢
  rwa [hop]

theorem Slot.of_operation_eq (h : s.Slot g buf) (hop : s'.operation = s.operation) :
    s'.Slot g buf := by
  unfold Slot Occupied Failed at h ⊢
  rwa [hop]

theorem Slot.kind_eq (h : s.Slot g buf) (hop : s.operation = some p) :
    ∃ g', p.kind = .operation g' := by
  obtain hnone | ⟨p', hop', hown, -, -⟩ | ⟨p', error, hop', huntracked, -⟩ := h
  · cases hnone.symm.trans hop
  · obtain rfl : p' = p := Option.some.inj (hop'.symm.trans hop)
    unfold isOwn at hown
    simp at hown
    exact ⟨g, hown.1⟩
  · obtain rfl : p' = p := Option.some.inj (hop'.symm.trans hop)
    cases hkind : p'.kind with
    | operation g' => exact ⟨g', rfl⟩
    | buffered => simp [hkind, WriteKind.isUntracked] at huntracked

/-- A raw operation that is handed over leaves nothing for a generation. -/
theorem handOver_none (hcompleted : ∀ g', s.completed g' = none) (huntracked : p.kind.isUntracked)
    (g' : Generation) : (s.handOver p waker result).completed g' = none := by
  rw [handOver_completed, hcompleted g', ite_eq_right_iff]
  rintro ⟨hkind, htracked, -⟩
  simp [hkind, WriteKind.isUntracked, htracked] at huntracked

/-- A raw operation that has failed is kept as a failure. -/
theorem handOver_retained {error : IoError} (huntracked : p.kind.isUntracked) (i : WriteIdentity)
    (c : Completion)
    (h : (s.handOver p waker (.error error)).untrackedCompleted = some (i, c)) :
    ∃ error, c.result = .error error := by
  rw [← p.identity_isSome, Option.isSome_iff_exists] at huntracked
  obtain ⟨identity, hidentity⟩ := huntracked
  rw [handOver_untrackedCompleted, hidentity] at h
  cases h
  exact ⟨error, rfl⟩

/-- A sole writer whose slot is in order is told what the resource has accepted. -/
theorem told_of_driven (halone : Alone s g) (hslot : s.Slot g buf)
    (hstart : ∀ result, start = some result → Admits buf.bytes.length result)
    (h : Driven waker g buf start (s.enqueueTracked g waker) s' poll) :
    Alone s' g ∧ Told s s' g buf poll := by
  obtain ⟨hqueue, hcompleted, hretained, hbuffered, hlive⟩ := halone
  cases h with
  | @awaits p hop houtcome =>
      obtain hnone | ⟨p', hop', hown, hdata, -⟩ | ⟨p', error, hop', -, herror⟩ := hslot
      · cases hnone.symm.trans hop
      · obtain rfl : p' = p := Option.some.inj (hop'.symm.trans hop)
        refine ⟨⟨enqueuedTracked_of_inFlight hqueue hop hown, hcompleted, hretained, hbuffered,
          hlive⟩, ⟨_, rfl, hown, hdata, ?_⟩, rfl⟩
        simp [PendingOperation.await, houtcome]
      · obtain rfl : p' = p := Option.some.inj (hop'.symm.trans hop)
        cases houtcome.symm.trans herror
  | @delivers p result hop houtcome hown =>
      have halone' : Alone (((s.enqueueTracked g waker).finish p waker result).wakeReadyWaiters)
          g := ⟨enqueuedTracked_of_inFlight hqueue hop hown, hcompleted, hretained, hbuffered, hlive⟩
      obtain hnone | ⟨p', hop', -, hdata, hadmits⟩ | ⟨p', error, hop', -, herror⟩ := hslot
      · cases hnone.symm.trans hop
      · obtain rfl : p' = p := Option.some.inj (hop'.symm.trans hop)
        exact ⟨halone', told_of_result rfl (sent_append rfl) hdata (hadmits _ houtcome)⟩
      · obtain rfl : p' = p := Option.some.inj (hop'.symm.trans hop)
        obtain rfl : Except.error error = result := Option.some.inj (herror.symm.trans houtcome)
        refine ⟨halone', .inl rfl, ?_⟩
        rw [sent_append (s := s) rfl]
        simp [Completion.delivered]
  | @reports p result failure hop houtcome hown herror =>
      -- only a buffered write leaves an error behind, and there is none
      obtain ⟨g', hkind⟩ := hslot.kind_eq hop
      rw [handOver_bufferedError, hkind] at herror
      cases hbuffered.symm.trans herror
  | @handsOver p result s' poll hop houtcome hown hclear hturn =>
      obtain hnone | ⟨p', hop', hown', -, -⟩ | ⟨p', error, hop', huntracked, herror⟩ := hslot
      · cases hnone.symm.trans hop
      · obtain rfl : p' = p := Option.some.inj (hop'.symm.trans hop)
        cases hown'.symm.trans hown
      · obtain rfl : p' = p := Option.some.inj (hop'.symm.trans hop)
        obtain rfl : Except.error error = result := Option.some.inj (herror.symm.trans houtcome)
        have hown : ((s.enqueueTracked g waker).handOver p' waker (.error error)).OwnQueue g := by
          unfold OwnQueue
          rw [handOver_queue]
          exact ownQueue_enqueueTracked hqueue
        obtain ⟨halone, htold⟩ := told_of_turn hown (handOver_none hcompleted huntracked)
          (handOver_retained huntracked) hclear
          ((isLiveWrite_of_live_eq (handOver_live ..)).trans hlive) hstart hturn
        refine ⟨halone, htold.of_sent_eq ?_⟩
        rw [sent_append (handOver_finished ..)]
        simp [Completion.delivered, sent]
  | idle hop hturn =>
      obtain ⟨halone, htold⟩ := told_of_turn (ownQueue_enqueueTracked hqueue) hcompleted hretained
        hbuffered hlive hstart hturn
      exact ⟨halone, htold.of_sent_eq rfl⟩

/-- `poll_write` of a sole writer with bytes left to write. -/
theorem told_of_pollWrite (halone : Alone s g) (hslot : s.Slot g buf) (hbuf : buf.bytes ≠ [])
    (hstart : ∀ result, start = some result → Admits buf.bytes.length result)
    (h : s.pollWrite waker g buf start = some (s', poll)) :
    Alone s' g ∧ Told s s' g buf poll := by
  have hclean := halone.cleanupCancelled
  have hsent : s.cleanupCancelled.sent = s.sent := sent_of_finished_eq (by simp)
  cases written_of_pollWrite h with
  | empty hempty => exact absurd hempty hbuf
  | completed _ hc =>
      rw [hclean.completed g] at hc
      cases hc
  | @untracked c _ _ hc =>
      -- what is kept for a raw call is a failure
      obtain ⟨error, herror⟩ : ∃ error, c.result = .error error := by
        unfold untrackedCompletion at hc
        split at hc
        · cases hc
        · split at hc
          next retained completion hretained =>
            split at hc
            · cases hc
              exact halone.retained _ _ hretained
            · cases hc
          next => cases hc
      refine ⟨⟨hclean.queue, hclean.completed, by simp, hclean.buffered, hclean.live⟩, ?_⟩
      unfold Completion.reply
      rw [herror]
      exact ⟨hslot.of_operation_eq (by simp), hsent⟩
  | refused =>
      exact ⟨hclean, hslot.of_operation_eq (by simp), hsent⟩
  | driven _ _ _ _ hdriven =>
      obtain ⟨halone', htold⟩ :=
        told_of_driven hclean (hslot.of_operation_eq (by simp)) hstart hdriven
      exact ⟨halone', htold.of_sent_eq hsent⟩

theorem Alone.of_complete (halone : Alone s g) (hslot : s.Slot g buf)
    (hadmits : ∀ p ∈ s.operation, Admits p.submission.data.length result)
    (h : s.complete result = some s') :
    Alone s' g ∧ s.operation ≠ none ∧ ¬ s.Failed ∧ s'.Occupied g buf ∧ s'.sent = s.sent := by
  obtain ⟨p, hop, houtcome, rfl⟩ := resolve_of_complete h
  have hpending : ¬ s.Failed := by
    rintro ⟨p', error, hop', -, herror⟩
    obtain rfl : p' = p := Option.some.inj (hop'.symm.trans hop)
    cases houtcome.symm.trans herror
  obtain hnone | ⟨p', hop', hown, hdata, -⟩ | hfailed := hslot
  · cases hnone.symm.trans hop
  · obtain rfl : p' = p := Option.some.inj (hop'.symm.trans hop)
    refine ⟨⟨halone.queue, halone.completed, halone.retained, halone.buffered, halone.live⟩,
      by simp [hop], hpending, ⟨_, rfl, hown, hdata, ?_⟩, rfl⟩
    rintro _ ⟨⟩
    rw [← hdata]
    exact hadmits p' hop
  · exact absurd hfailed hpending

theorem Alone.of_completeShutdown {shutdown : Except IoError Unit} (halone : Alone s g)
    (h : s.completeShutdown shutdown = some s') :
    Alone s' g ∧ s'.operation = s.operation ∧ s'.sent = s.sent := by
  obtain ⟨operation, -, -, rfl⟩ := resolveShutdown_of_completeShutdown h
  exact ⟨⟨halone.queue, halone.completed, halone.retained, halone.buffered, halone.live⟩, rfl,
    rfl⟩

/-! ## Flushing and shutting down an idle resource -/

theorem Alone.of_barrier {poll : Poll Unit} (halone : Alone s g) (hop : s.operation = none)
    (h : Barrier waker s s' poll) :
    Alone s' g ∧ s'.operation = none ∧ s'.sent = s.sent ∧ poll = .ready () := by
  cases h with
  | blocked hcons =>
      rw [halone.queue] at hcons
      cases hcons
  | empty => exact ⟨halone, hop, rfl, rfl⟩

theorem Alone.of_drained {poll : Poll Unit} (halone : Alone s g) (hop : s.operation = none)
    (h : Drained waker s s' poll) :
    Alone s' g ∧ s'.operation = none ∧ s'.sent = s.sent := by
  cases h with
  | awaits hop' => cases hop.symm.trans hop'
  | handsOver hop' => cases hop.symm.trans hop'
  | idle _ hbarrier =>
      obtain ⟨halone', hop', hsent, -⟩ :=
        halone.cleanupCancelled.of_barrier (by simpa using hop) hbarrier
      exact ⟨halone', hop', hsent.trans (sent_of_finished_eq (by simp))⟩

theorem Alone.of_pollFlush {poll : Poll (Reply Unit)} (halone : Alone s g)
    (hop : s.operation = none) (h : s.pollFlush waker = some (s', poll)) :
    Alone s' g ∧ s'.operation = none ∧ s'.sent = s.sent := by
  cases flushed_of_pollFlush h with
  | awaits hdrained => exact halone.of_drained hop hdrained
  | reports hdrained hfailure =>
      obtain ⟨halone', -, -⟩ := halone.of_drained hop hdrained
      cases halone'.buffered.symm.trans hfailure
  | reportsUntracked hdrained =>
      obtain ⟨halone', hop', hsent⟩ := halone.of_drained hop hdrained
      exact ⟨⟨halone'.queue, halone'.completed, by simp, halone'.buffered, halone'.live⟩, hop',
        hsent⟩
  | flushed hdrained => exact halone.of_drained hop hdrained

theorem Alone.of_pollShutdown {shutdown : Option (Except IoError Unit)}
    {poll : Poll (Reply Unit)} (halone : Alone s g) (hop : s.operation = none)
    (h : s.pollShutdown waker shutdown = some (s', poll)) :
    Alone s' g ∧ s'.operation = none ∧ s'.sent = s.sent := by
  have hrequest : Alone s.requestShutdown g :=
    ⟨halone.queue, halone.completed, halone.retained, halone.buffered, halone.live⟩
  cases shutDown_of_pollShutdown h with
  | awaits hdrained => exact hrequest.of_drained hop hdrained
  | reports hdrained hfailure =>
      obtain ⟨halone', -, -⟩ := hrequest.of_drained hop hdrained
      cases halone'.buffered.symm.trans hfailure
  | drives hdrained =>
      obtain ⟨halone', hop', hsent⟩ := hrequest.of_drained hop hdrained
      exact ⟨⟨halone'.queue, halone'.completed, halone'.retained, halone'.buffered,
        halone'.live⟩, hop', hsent⟩

end WriteState

end Runite.Io
