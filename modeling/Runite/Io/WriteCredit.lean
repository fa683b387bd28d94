import Runite.Io.WriteRuns

/-!
# Whose result a write gets

`poll_write` attributes a finished operation to a call by the generation, and
for raw calls by the address and the length of the buffer.  `claimed` is the
result it attributes; a call that claims nothing can only return the result of
an operation it starts itself.
-/

namespace Runite.Io.WriteState

open Transition

variable {s s' : WriteState} {waker : Waker} {generation : Generation} {buf : Buf}
  {start : Option (Except IoError Nat)} {poll : Poll (Reply Nat)}

/-- The result of the operation in flight, if it has finished and passes for
an operation of this call. -/
def ownResult (s : WriteState) (generation : Generation) (buf : Buf) : Option Completion :=
  match s.operation with
  | some p =>
      if isOwn p generation buf then p.operation.outcome.map (⟨p.submission, ·⟩) else none
  | none => none

/-- The result that is attributed to a raw call: the one kept for its address
and length, or the one of the operation in flight. -/
def identified (s : WriteState) (generation : Generation) (buf : Buf) : Option Completion :=
  (s.untrackedCompletion generation buf).or (s.ownResult generation buf)

/-- The result that is attributed to a call: one kept for its generation, or
one found by its buffer. -/
def claimed (s : WriteState) (generation : Generation) (buf : Buf) : Option Completion :=
  (s.cleanupCancelled.completed generation).or (s.identified generation buf)

/-! ## Claimed results are returned -/

/-- An operation of a tracked generation belongs to every call with it. -/
theorem isOwn_of_tracked {p : PendingWrite} (hkind : p.kind = .operation generation)
    (htracked : isTrackedWrite generation = true) : isOwn p generation buf = true := by
  have hidentity : p.identity = none := by
    have h := p.identity_isSome
    rw [hkind] at h
    simpa [WriteKind.isUntracked, htracked] using h
  simp [isOwn, hkind, hidentity]

/-- Keeping a result that is not the caller's gives the caller none. -/
theorem handOver_completed_of_not_own {p : PendingWrite} {result : Except IoError Nat}
    (hown : isOwn p generation buf = false) :
    (s.handOver p waker result).completed generation = s.completed generation := by
  rw [handOver_completed, if_neg]
  rintro ⟨hkind, htracked, -⟩
  simp [isOwn_of_tracked hkind htracked] at hown

theorem ownResult_of_some {p : PendingWrite} (hop : s.operation = some p) :
    s.ownResult generation buf =
      if isOwn p generation buf then p.operation.outcome.map (⟨p.submission, ·⟩) else none := by
  simp [ownResult, hop]

theorem reply_of_ownResult {c : Completion} (hc : s.ownResult generation buf = some c)
    (hdriven : Driven waker generation buf start s s' poll) : poll = .ready c.reply := by
  cases hdriven with
  | awaits hop houtcome => simp [ownResult_of_some hop, houtcome] at hc
  | delivers hop houtcome hown =>
      simp only [ownResult_of_some hop, houtcome, hown, if_true, Option.map_some,
        Option.some.injEq] at hc
      rw [hc]
  | reports hop houtcome hown => simp [ownResult_of_some hop, hown] at hc
  | handsOver hop houtcome hown => simp [ownResult_of_some hop, hown] at hc
  | idle hop => simp [ownResult, hop] at hc

theorem reply_of_claimed {c : Completion} (hbuf : buf.bytes ≠ [])
    (hc : s.claimed generation buf = some c)
    (hwritten : Written waker generation buf start s s' poll) : poll = .ready c.reply := by
  unfold claimed identified at hc
  cases hwritten with
  | empty hempty => exact absurd hempty hbuf
  | completed _ hcompleted =>
      rw [hcompleted] at hc
      cases hc
      rfl
  | untracked _ hcompleted hretained =>
      rw [hcompleted, hretained] at hc
      cases hc
      rfl
  | refused _ hcompleted hretained _ hunknown =>
      -- a call whose operation is in flight is known, and not refused
      exfalso
      rw [hcompleted, hretained] at hc
      unfold ownResult at hc
      split at hc
      next p hop =>
        have hkind : p.kind = .operation generation := by
          by_contra hkind
          simp [isOwn, hkind] at hc
        simp [known, inFlight, hop, hkind] at hunknown
      next => simp at hc
  | driven _ hcompleted hretained _ hdriven =>
      rw [hcompleted, hretained] at hc
      refine reply_of_ownResult ?_ hdriven
      simpa [ownResult] using hc

/-- The result that is there for a tracked generation: one that was kept, or
the one of the operation in flight. -/
def resultOf (s : WriteState) (generation : Generation) : Option Completion :=
  (s.completed generation).or
    (match s.operation with
    | some p =>
        if p.kind = .operation generation then p.operation.outcome.map (⟨p.submission, ·⟩)
        else none
    | none => none)

/-- A call with a live tracked generation claims what is there for it, whatever
its buffer holds. -/
theorem claimed_of_live (htracked : isTrackedWrite generation = true)
    (hlive : (s.live generation).isSome = true) :
    s.claimed generation buf = s.resultOf generation := by
  have hcompleted : s.cleanupCancelled.completed generation = s.completed generation := by
    simp [cleanupCancelled_completed, isLiveWrite, hlive]
  have huntracked : s.untrackedCompletion generation buf = none := by
    simp [untrackedCompletion, htracked]
  unfold claimed identified resultOf
  rw [hcompleted, huntracked, Option.none_or]
  congr 1
  unfold ownResult
  cases s.operation with
  | none => rfl
  | some p =>
      by_cases hkind : p.kind = .operation generation
      · simp [hkind, isOwn_of_tracked hkind htracked]
      · simp [hkind, isOwn]

/-! ## A call that claims nothing returns what it started -/

section Fresh

variable {n : Nat} {source : Option Submission}

theorem fresh_of_turn (hcompleted : s.completed generation = none)
    (hpoll : poll = .ready ⟨.ok n, source⟩)
    (hturn : Turn waker generation buf start s s' poll) : source = some (s.submission buf) := by
  cases hturn with
  | completed hc => simp [hcompleted] at hc
  | blocked => cases hpoll
  | cancelled => cases hpoll
  | awaits => cases hpoll
  | answers => simp_all [Completion.reply]

theorem fresh_of_driven (hcompleted : s.completed generation = none)
    (hown : s.ownResult generation buf = none) (hpoll : poll = .ready ⟨.ok n, source⟩)
    (hdriven : Driven waker generation buf start s s' poll) :
    source = some (s.submission buf) := by
  cases hdriven with
  | awaits => cases hpoll
  | delivers hop houtcome hmine => simp [ownResult_of_some hop, houtcome, hmine] at hown
  | reports => cases hpoll
  | handsOver hop houtcome hmine herror hturn =>
      have hfresh := fresh_of_turn (by rwa [handOver_completed_of_not_own hmine]) hpoll hturn
      simpa [submission] using hfresh
  | idle hop hturn => exact fresh_of_turn hcompleted hpoll hturn

theorem fresh_of_not_claimed (hbuf : buf.bytes ≠ []) (hc : s.claimed generation buf = none)
    (hpoll : poll = .ready ⟨.ok n, source⟩)
    (hwritten : Written waker generation buf start s s' poll) :
    source = some (s.submission buf) := by
  simp only [claimed, identified, Option.or_eq_none_iff] at hc
  obtain ⟨hcompleted, hretained, hown⟩ := hc
  cases hwritten with
  | empty hempty => exact absurd hempty hbuf
  | completed _ hcompleted' =>
      rw [hcompleted] at hcompleted'
      cases hcompleted'
  | untracked _ _ hretained' => simp [hretained] at hretained'
  | refused => cases hpoll
  | driven _ _ _ _ hdriven =>
      have hfresh := fresh_of_driven (s := s.cleanupCancelled.enqueueTracked generation waker)
        hcompleted (by simpa [ownResult] using hown) hpoll hdriven
      simpa [submission] using hfresh

end Fresh

/-! ## Counts come from the history -/

section Recorded

variable {n : Nat} {source : Option Submission}

/-- The count of an operation that finished. -/
def Recorded (s : WriteState) (n : Nat) (source : Option Submission) : Prop :=
  ∃ kind sub, source = some sub ∧ (kind, sub) ∈ s.started ∧ (kind, ⟨sub, .ok n⟩) ∈ s.finished

theorem Valid.recorded (h : s.Valid) {kind : WriteKind} {c : Completion}
    (hc : (kind, c) ∈ s.finished) (hreply : c.reply = ⟨.ok n, source⟩) :
    s.Recorded n source := by
  obtain ⟨sub, result⟩ := c
  simp only [Completion.reply, Reply.mk.injEq] at hreply
  obtain ⟨rfl, rfl⟩ := hreply
  exact ⟨kind, sub, rfl, h.started_of_finished hc, hc⟩

theorem recorded_of_turn (h : s.Valid) (hidle : s.operation = none)
    (hpoll : poll = .ready ⟨.ok n, source⟩)
    (hturn : Turn waker generation buf start s s' poll) : s'.Recorded n source := by
  have hvalid := h.turn hidle hturn
  cases hturn with
  | completed hc =>
      exact hvalid.recorded (h.completed_finished _ _ hc) (by simpa using hpoll)
  | blocked => cases hpoll
  | cancelled => cases hpoll
  | awaits => cases hpoll
  | answers =>
      exact hvalid.recorded (List.mem_append_right _ (List.mem_singleton_self _))
        (by simpa using hpoll)

theorem recorded_of_driven (h : s.Valid) (hpoll : poll = .ready ⟨.ok n, source⟩)
    (hdriven : Driven waker generation buf start s s' poll) : s'.Recorded n source := by
  have hvalid := h.driven hdriven
  cases hdriven with
  | awaits => cases hpoll
  | delivers hop houtcome hmine =>
      exact hvalid.recorded (List.mem_append_right _ (List.mem_singleton_self _))
        (by simpa using hpoll)
  | reports => cases hpoll
  | handsOver hop houtcome hmine herror hturn =>
      exact recorded_of_turn (h.handOver hop) (by simp) hpoll hturn
  | idle hop hturn => exact recorded_of_turn h hop hpoll hturn

theorem recorded_of_written (h : s.Valid) (hbuf : buf.bytes ≠ [])
    (hpoll : poll = .ready ⟨.ok n, source⟩)
    (hwritten : Written waker generation buf start s s' poll) : s'.Recorded n source := by
  have hvalid := h.written hwritten
  cases hwritten with
  | empty hempty => exact absurd hempty hbuf
  | completed _ hc =>
      exact hvalid.recorded (h.cleanupCancelled.completed_finished _ _ hc)
        (by simpa using hpoll)
  | untracked _ _ hretained =>
      unfold untrackedCompletion at hretained
      split at hretained
      · cases hretained
      split at hretained
      next retained c huntracked =>
        split at hretained
        next =>
          cases hretained
          obtain ⟨g, -, hmem⟩ := h.untracked_finished _ _ huntracked
          exact hvalid.recorded (by simpa using hmem) (by simpa using hpoll)
        next => cases hretained
      next => cases hretained
  | refused => cases hpoll
  | driven _ _ _ _ hdriven =>
      exact recorded_of_driven h.cleanupCancelled.enqueueTracked hpoll hdriven

end Recorded

/-! ## Counts of at most the submitted length -/

/-- A result is not a count beyond this length. -/
def atMost (length : Nat) : Option (Except IoError Nat) → Bool
  | some (.ok n) => n ≤ length
  | _ => true

/-- No operation completes with a count beyond what it was given. -/
def HonestCall (s : WriteState) : Call → Bool
  | .pollWrite _ _ buf start => atMost buf.bytes.length start
  | .pollBufferedWrite _ buf start => atMost buf.bytes.length start
  | .complete result => s.operation.all fun p => atMost p.submission.data.length (some result)
  | _ => true

/-- No operation has finished, or will be found finished, with a count beyond
what it was given. -/
structure Measured (s : WriteState) : Prop where
  finished : ∀ f ∈ s.finished, atMost f.2.source.data.length (some f.2.result) = true
  outcome : ∀ p, s.operation = some p → atMost p.submission.data.length p.operation.outcome = true

namespace Measured

variable {t : WriteState} {p : PendingWrite} {result : Except IoError Nat}

theorem congr (h : s.Measured) (hop : t.operation = s.operation)
    (hfinished : t.finished = s.finished) : t.Measured :=
  ⟨hfinished ▸ h.finished, hop ▸ h.outcome⟩

theorem append (h : s.Measured) (hop : s.operation = some p)
    (houtcome : p.operation.outcome = some result) (hop' : t.operation = none)
    (hfinished : t.finished = s.finished ++ [(p.kind, ⟨p.submission, result⟩)]) :
    t.Measured := by
  refine ⟨?_, by simp [hop']⟩
  intro f hf
  rw [hfinished] at hf
  rcases List.mem_append.mp hf with hf | hf
  · exact h.finished f hf
  · obtain rfl : f = (p.kind, ⟨p.submission, result⟩) := by simpa using hf
    exact houtcome ▸ h.outcome p hop

theorem replace {p' : PendingWrite} (h : s.Measured) (hop : t.operation = some p')
    (hfinished : t.finished = s.finished)
    (houtcome : atMost p'.submission.data.length p'.operation.outcome = true) : t.Measured := by
  refine ⟨hfinished ▸ h.finished, ?_⟩
  intro p hp
  obtain rfl : p' = p := by simpa [hop] using hp
  exact houtcome

theorem await (h : s.Measured) (hop : s.operation = some p) : (s.await p waker).Measured :=
  h.replace rfl rfl (h.outcome p hop)

theorem turn (h : s.Measured) (hstart : atMost buf.bytes.length start = true)
    (hturn : Turn waker generation buf start s s' poll) : s'.Measured := by
  have hbegin : (s.begin generation buf start).Measured := h.replace rfl rfl hstart
  cases hturn with
  | completed => exact h.congr rfl rfl
  | blocked => exact h.congr rfl rfl
  | cancelled => exact h
  | awaits => exact h.replace rfl rfl rfl
  | answers _ _ hsome => exact hbegin.append rfl hsome rfl rfl

theorem driven (h : s.Measured) (hstart : atMost buf.bytes.length start = true)
    (hdriven : Driven waker generation buf start s s' poll) : s'.Measured := by
  cases hdriven with
  | awaits hop => exact h.await hop
  | delivers hop houtcome => exact h.append hop houtcome rfl rfl
  | reports hop houtcome => exact h.append hop houtcome (by simp) (by simp)
  | handsOver hop houtcome _ _ hturn =>
      exact (h.append hop houtcome (by simp) (by simp)).turn hstart hturn
  | idle _ hturn => exact h.turn hstart hturn

theorem cleanup (h : s.Measured) : s.cleanupCancelled.Measured := h.congr (by simp) (by simp)

theorem written (h : s.Measured) (hstart : atMost buf.bytes.length start = true)
    (hwritten : Written waker generation buf start s s' poll) : s'.Measured := by
  cases hwritten with
  | empty => exact h
  | completed => exact h.cleanup.congr rfl rfl
  | untracked => exact h.cleanup.congr rfl rfl
  | refused => exact h.cleanup
  | driven _ _ _ _ hdriven =>
      have henqueued : (s.cleanupCancelled.enqueueTracked generation waker).Measured :=
        h.cleanup.congr rfl rfl
      exact henqueued.driven hstart hdriven

theorem drained {poll : Poll Unit} (h : s.Measured) (hdrained : Drained waker s s' poll) :
    s'.Measured := by
  have hbarrier : ∀ {t t' : WriteState} {poll : Poll Unit}, t.Measured →
      Barrier waker t t' poll → t'.Measured := by
    intro t t' poll ht hbarrier
    cases hbarrier with
    | blocked => exact ht.congr rfl rfl
    | empty => exact ht
  cases hdrained with
  | awaits hop => exact h.cleanup.await (by simpa using hop)
  | handsOver hop houtcome hbarrier' =>
      refine hbarrier (h.append hop houtcome (by simp) (by simp)) hbarrier'
  | idle _ hbarrier' => exact hbarrier h.cleanup hbarrier'

theorem called {c : Call} {answer : Answer} (h : s.Measured) (hhonest : s.HonestCall c = true)
    (hcalled : Called s c s' answer) : s'.Measured := by
  cases hcalled with
  | pollWrite hwritten => exact h.written hhonest hwritten
  | pollBufferedWrite hwritten =>
      cases hwritten with
      | empty => exact h
      | refused => exact h
      | awaits _ _ hdrained => exact h.drained hdrained
      | reports _ _ hdrained => exact (h.drained hdrained).congr rfl rfl
      | accepts _ _ hdrained => exact (h.drained hdrained).replace rfl rfl hhonest
      | @answers t result _ _ hdrained _ hsome =>
          have hnew : ({ t with operation := some (t.newBuffered _ _) } : WriteState).Measured :=
            (h.drained hdrained).replace rfl rfl hhonest
          exact hnew.append rfl hsome rfl rfl
  | pollFlush hflushed =>
      cases hflushed with
      | awaits hdrained => exact h.drained hdrained
      | reports hdrained => exact (h.drained hdrained).congr rfl rfl
      | reportsUntracked hdrained => exact (h.drained hdrained).congr rfl rfl
      | flushed hdrained => exact h.drained hdrained
  | pollDrain hdrained => exact h.drained hdrained
  | pollShutdown hshutDown =>
      have hrequest : s.requestShutdown.Measured := h.congr rfl rfl
      cases hshutDown with
      | awaits hdrained => exact hrequest.drained hdrained
      | reports hdrained => exact (hrequest.drained hdrained).congr rfl rfl
      | drives hdrained => exact (hrequest.drained hdrained).congr rfl rfl
  | newToken => exact h.congr rfl rfl
  | dropToken => exact h.congr rfl rfl
  | complete hop =>
      refine h.replace rfl rfl ?_
      simpa [HonestCall, hop] using hhonest
  | completeShutdown => exact h.congr rfl rfl

end Measured

/-! ## Raw writes -/

/-- A count is only reported for an operation that was started with the bytes
that the buffer holds now. -/
def Credited (s : WriteState) (buf : Buf) (poll : Poll (Reply Nat)) : Prop :=
  ∀ n source, poll = .ready ⟨.ok n, source⟩ →
    ∃ kind sub, source = some sub ∧ (kind, sub) ∈ s.started ∧
      (kind, ⟨sub, .ok n⟩) ∈ s.finished ∧ sub.data = buf.bytes ∧
      (n ≤ sub.data.length → n ≤ buf.bytes.length)

/-- In every run, a call with a non-empty buffer credits its count to its own
bytes exactly when the result attributed to it, if it is a count, is the one
of an operation started with those bytes. -/
theorem credited_iff_claimed (h : s.Valid) (hbuf : buf.bytes ≠ [])
    (hwritten : Written waker generation buf start s s' poll) :
    s'.Credited buf poll ↔
      ∀ sub n, s.claimed generation buf = some ⟨sub, .ok n⟩ → sub.data = buf.bytes := by
  constructor
  · intro hcredited sub n hc
    have hpoll := reply_of_claimed hbuf hc hwritten
    obtain ⟨kind, sub', hsub, -, -, hdata, -⟩ := hcredited n (some sub) hpoll
    obtain rfl : sub = sub' := by simpa using hsub
    exact hdata
  · intro hclaimed n source hpoll
    obtain ⟨kind, sub, hsource, hstarted, hfinished⟩ :=
      recorded_of_written h hbuf hpoll hwritten
    have hdata : sub.data = buf.bytes := by
      cases hc : s.claimed generation buf with
      | none =>
          have hfresh := fresh_of_not_claimed hbuf hc hpoll hwritten
          obtain rfl : sub = s.submission buf := by simpa [hsource] using hfresh
          rfl
      | some c =>
          have hreply := reply_of_claimed hbuf hc hwritten
          rw [hpoll] at hreply
          obtain ⟨csub, cresult⟩ := c
          simp only [Completion.reply, Poll.ready.injEq, Reply.mk.injEq, hsource,
            Option.some.injEq] at hreply
          obtain ⟨rfl, rfl⟩ := hreply
          exact hclaimed _ _ hc
    exact ⟨kind, sub, hsource, hstarted, hfinished, hdata, fun hn => hdata ▸ hn⟩

/-- In every run, a raw write credits its count to the bytes it was given
exactly when the address and the length of its buffer do not lead it to a
count for other bytes. -/
theorem raw_write_credited_iff (hreach : Reachable step (fun _ _ => True) {} s)
    (huntracked : isTrackedWrite generation = false) (hbuf : buf.bytes ≠ [])
    (hcall : s.pollWrite waker generation buf start = some (s', poll)) :
    s'.Credited buf poll ↔
      ∀ sub n, s.identified generation buf = some ⟨sub, .ok n⟩ → sub.data = buf.bytes := by
  have hvalid := valid_of_reachable hreach
  have hcompleted : s.cleanupCancelled.completed generation = none := by
    cases hc : s.cleanupCancelled.completed generation with
    | none => rfl
    | some c =>
        have htracked := hvalid.cleanupCancelled.completed_tracked _ _ hc
        simp [huntracked] at htracked
  rw [credited_iff_claimed hvalid hbuf (written_of_pollWrite hcall)]
  simp only [claimed, hcompleted, Option.none_or]

/-- The run of the second buffer at the address of an abandoned one. -/
def reusedAddress : List Call :=
  [.pollWrite 1 0 ⟨100, [1, 2]⟩ none, .complete (.ok 2)]

/-- A raw write that is abandoned after `Pending` is credited to the next raw
write at the same address with the same length, whatever the buffer holds. -/
theorem reused_address_takes_credit : ∃ s s' poll,
    Reachable step (fun _ _ => True) {} s ∧ isTrackedWrite 0 = false ∧
      s.pollWrite 1 0 ⟨100, [3, 4]⟩ none = some (s', poll) ∧
      ¬ s'.Credited ⟨100, [3, 4]⟩ poll := by
  obtain ⟨s, hreach, hs⟩ := Reachable.exists_of_run step (fun _ _ => True) {} reusedAddress
    (fun s => (s.pollWrite 1 0 ⟨100, [3, 4]⟩ none).map Prod.snd =
      some (.ready ⟨.ok 2, some ⟨0, [1, 2]⟩⟩)) (by simp) (by decide)
  obtain ⟨⟨s', poll⟩, hcall, hpoll⟩ := Option.map_eq_some_iff.mp (of_decide_eq_true hs)
  refine ⟨s, s', poll, hreach, by decide, hcall, ?_⟩
  intro hcredited
  obtain ⟨kind, sub, hsub, -, -, hdata, -⟩ := hcredited 2 _ hpoll
  obtain rfl : ⟨0, [1, 2]⟩ = sub := by simpa using hsub
  simp at hdata

/-- A raw write whose buffer has not changed since it was submitted. -/
theorem raw_write_credited_repoll : ∃ s s' poll,
    Reachable step (fun _ _ => True) {} s ∧
      s.pollWrite 1 0 ⟨100, [1, 2]⟩ none = some (s', poll) ∧
      poll = .ready ⟨.ok 2, some ⟨0, [1, 2]⟩⟩ ∧ s'.Credited ⟨100, [1, 2]⟩ poll := by
  obtain ⟨s, hreach, hs⟩ := Reachable.exists_of_run step (fun _ _ => True) {} reusedAddress
    (fun s => (s.pollWrite 1 0 ⟨100, [1, 2]⟩ none).map Prod.snd =
        some (.ready ⟨.ok 2, some ⟨0, [1, 2]⟩⟩) ∧
      s.identified 0 ⟨100, [1, 2]⟩ = some ⟨⟨0, [1, 2]⟩, .ok 2⟩) (by simp) (by decide)
  obtain ⟨hpoll, hidentified⟩ := of_decide_eq_true hs
  obtain ⟨⟨s', poll⟩, hcall, hpoll⟩ := Option.map_eq_some_iff.mp hpoll
  refine ⟨s, s', poll, hreach, hcall, hpoll, ?_⟩
  refine (raw_write_credited_iff hreach (by decide) (by simp) hcall).mpr ?_
  intro sub n hsub
  obtain ⟨rfl, -⟩ : ⟨0, [1, 2]⟩ = sub ∧ _ := by simpa [hidentified] using hsub
  rfl

end Runite.Io.WriteState
