import Runite.Io.WriteHistory

/-!
# The order of tracked writes

Whatever a call does to the queue, the slot and the kept results, the invariant
of `WriteHistory` is kept: operations start in the order of their tickets, one
at a time, and every result goes back to the write that started it.
-/

namespace Runite.Io

open Transition WriteState

namespace Line

variable {s s' t : WriteState} {h : History} {waker : Waker} {g : Generation} {buf : Buf}
  {start : Option (Except IoError Nat)} {p : PendingWrite} {result : Except IoError Nat}
  {l l' : Line}

/-! ## One poll of a write -/

structure Ordered (s : WriteState) (h : History) : Prop where
  valid : s.Valid
  enrolled : s.Enrolled
  plain : Plain s
  queued : Queued s h
  fated : Fated s h

/-- A live generation with a ticket is queued, unless its operation is in
flight or its result is kept. -/
theorem queued_of_ticket (hqueued : Queued s h) (hfated : Fated s h) {t : Nat}
    (hticket : h.ticket g = some t) (hlive : (s.live g).isSome = true)
    (hop : ∀ p, s.operation = some p → p.kind ≠ .operation g) (hcompleted : s.completed g = none) :
    ∃ q ∈ s.queue, q.generation = g := by
  have halive : s.live g ≠ none := Option.isSome_iff_ne_none.mp hlive
  rcases hqueued.arrival t g (hqueued.ticket_arrival g t hticket) with
    ⟨x, hx, rfl⟩ | hdead | ⟨q, hq, hgeneration, -⟩ | ⟨m, -, -, hne⟩
  · -- it was started, and there is nowhere its result could be
    exfalso
    obtain rfl : x.generation = g := by
      have harrival := hqueued.starts_arrival x hx
      rw [hqueued.ticket_arrival g _ hticket] at harrival
      simpa using harrival.symm
    rcases hfated.start_fate x hx with ⟨r, hr, hrt⟩ | hdead | ⟨p, hp, hkind, -⟩ | ⟨c, hc, -⟩
    · exact hfated.ticket_fresh _ _ hticket r hr hrt
    · exact halive hdead
    · exact hop p hp hkind
    · simp [hcompleted] at hc
  · exact absurd hdead halive
  · exact ⟨q, hq, hgeneration⟩
  · exact absurd hticket hne

/-- Renewing a waker does not change the queue's generations. -/
theorem Queued.setWaker (hqueued : Queued s h) :
    Queued { s with queue := s.queue.map (WriteState.setWaker g waker) } h := by
  have hgeneration : ∀ q, (WriteState.setWaker g waker q).generation = q.generation := by
    intro q
    unfold WriteState.setWaker
    split <;> rfl
  constructor
  · exact hqueued.ticket_arrival
  · exact hqueued.arrival_issued
  · intro q' hq'
    obtain ⟨q, hq, rfl⟩ := List.mem_map.mp hq'
    rw [hgeneration]
    exact hqueued.queue_ticket q hq
  · refine List.pairwise_map.mpr (hqueued.queue_sorted.imp ?_)
    intro q q' hlt
    rwa [hgeneration, hgeneration]
  · intro t g' hg'
    refine (hqueued.arrival t g' hg').imp_right (Or.imp_right (Or.imp_left ?_))
    rintro ⟨q, hq, hq', ht⟩
    exact ⟨_, List.mem_map_of_mem hq, (hgeneration q).trans hq', ht⟩
  · exact hqueued.starts_sorted
  · exact hqueued.starts_arrival
  · intro m hm
    obtain ⟨hlength, hstarts, hbound⟩ := hqueued.shutdown_bound m hm
    refine ⟨hlength, hstarts, ?_⟩
    intro q' hq' t
    obtain ⟨q, hq, rfl⟩ := List.mem_map.mp hq'
    rw [hgeneration]
    exact hbound q hq t

/-- A poll gives its generation a ticket and a place in the queue. -/
theorem Queued.enqueueTracked (hqueued : Queued s h) (hfated : Fated s h)
    (htracked : isTrackedWrite g = true) (hlive : (s.live g).isSome = true)
    (hissued : g ∈ s.issued) (hcompleted : s.completed g = none)
    (hopen : h.ticket g = none → h.shutdownAt = none) :
    Queued (s.enqueueTracked g waker) (h.arrive g) := by
  have hisLive : s.isLiveWrite g = true := by simp [isLiveWrite, hlive]
  by_cases hflight : s.inFlight g = true
  · -- its operation is in flight
    obtain ⟨p, hp, hkind⟩ : ∃ p, s.operation = some p ∧ p.kind = .operation g := by
      obtain ⟨p, hp, hkind⟩ := (Option.any_eq_true _ _).mp hflight
      exact ⟨p, hp, by simpa using hkind⟩
    obtain ⟨x, -, -, -, hticket⟩ := hfated.operation_start p g hp hkind
    rw [History.arrive_of_some hticket]
    have hqueue : s.enqueuedTracked g waker = s.queue := by
      simp [enqueuedTracked, htracked, hisLive, hflight]
    exact hqueued.congr hqueue (fun _ => id) rfl
  by_cases hany : s.queue.any (·.generation = g) = true
  · -- it is queued
    obtain ⟨q, hq, hgeneration⟩ : ∃ q ∈ s.queue, q.generation = g := by simpa using hany
    obtain ⟨t, ht, -⟩ := hqueued.queue_ticket q hq
    rw [hgeneration] at ht
    rw [History.arrive_of_some ht]
    have hqueue : s.enqueuedTracked g waker = s.queue.map (WriteState.setWaker g waker) := by
      simp [enqueuedTracked, htracked, hisLive, hflight, hcompleted, hany]
    exact hqueued.setWaker.congr hqueue (fun _ => id) rfl
  · -- it comes for the first time since its last answer
    have hnot : ∀ q ∈ s.queue, q.generation ≠ g := by simpa using hany
    have hop : ∀ p, s.operation = some p → p.kind ≠ .operation g := by
      intro p hp hkind
      simp [inFlight, hp, hkind] at hflight
    have hticket : h.ticket g = none := by
      cases hticket : h.ticket g with
      | none => rfl
      | some t =>
          obtain ⟨q, hq, hgeneration⟩ :=
            queued_of_ticket hqueued hfated hticket hlive hop hcompleted
          exact absurd hgeneration (hnot q hq)
    have hqueue : s.enqueuedTracked g waker = s.queue ++ [⟨g, waker⟩] := by
      simp [enqueuedTracked, htracked, hisLive, hflight, hcompleted, hany]
    exact (hqueued.arrive_append hticket hissued (hopen hticket) hnot).congr hqueue
      (fun _ => id) rfl

def submissions (s s' : WriteState) : List Submission :=
  (s'.started.drop s.started.length).map Prod.snd

theorem submissions_of_eq (hstarted : s'.started = s.started) : submissions s s' = [] := by
  simp [submissions, hstarted]

theorem Ordered.turn {poll : Poll (Reply Nat)} {ticket : Nat} (hordered : Ordered s h)
    (hidle : s.operation = none) (hcompleted : s.completed g = none)
    (htracked : isTrackedWrite g = true) (hlive : (s.live g).isSome = true)
    (hticket : h.ticket g = some ticket) (hturn : Turn waker g buf start s s' poll) :
    Ordered s' (h.settle g (submissions s s') poll) := by
  have hvalid := hordered.valid.turn hidle hturn
  have henrolled := hordered.enrolled.of_sameTokens (.turn hturn)
  -- the generation is at the front of the queue if it may start
  have hqueued : s.MayBegin g →
      Queued (s.begin g buf start) (h.note g [s.submission buf]) := by
    intro hmay
    obtain ⟨q, hq, -⟩ := queued_of_ticket hordered.queued hordered.fated hticket hlive
      (by simp [hidle]) hcompleted
    cases hqueue : s.queue with
    | nil => simp [hqueue] at hq
    | cons front rest =>
        exact hordered.queued.begin hqueue (by simpa [MayBegin, hqueue] using hmay) _
  have hfated : Fated (s.begin g buf start) (h.note g [s.submission buf]) :=
    hordered.fated.begin hidle hticket
  cases hturn with
  | completed hc => simp [hcompleted] at hc
  | @blocked front rest =>
      have hsubs : submissions s ((s.wake front.waker).registerCancellation front.generation
          waker) = [] := submissions_of_eq rfl
      rw [hsubs]
      simp only [History.settle, History.note_nil]
      have hsame := SameTokens.registerCancellation (s.wake front.waker) front.generation waker
      have hdead : ∀ g, s.live g = none →
          ((s.wake front.waker).registerCancellation front.generation waker).live g = none := by
        intro g hg
        have h := hsame.live g
        simpa [hg] using h
      exact ⟨hvalid, henrolled, ⟨hordered.plain.operation_tracked, hordered.plain.bufferedError⟩,
        hordered.queued.congr rfl hdead rfl, hordered.fated.congr rfl rfl hdead rfl rfl⟩
  | cancelled _ _ hdead => simp [isLiveWrite, hlive] at hdead
  | awaits _ hmay hstart =>
      have hsubs : submissions s ((s.begin g buf none).await (s.newWrite g buf none) waker) =
          [s.submission buf] := by
        simp [submissions]
      subst hstart
      rw [hsubs]
      refine ⟨hvalid, henrolled, ?_, ?_, ?_⟩
      · refine ⟨?_, hordered.plain.bufferedError⟩
        intro p hp
        obtain rfl : (s.newWrite g buf none).await waker = p := by simpa using hp
        exact ⟨g, rfl, htracked⟩
      · exact (hqueued hmay).congr rfl (fun _ => id) rfl
      · exact hfated.congr rfl rfl (fun _ => id) rfl rfl
  | @answers result _ hmay hstart =>
      have hsubs : submissions s ((s.begin g buf start).finish (s.newWrite g buf start) waker
          result).wakeReadyWaiters = [s.submission buf] := by
        simp [submissions]
      rw [hsubs]
      obtain ⟨x, hx, hxg, hxsub, hxticket⟩ := hfated.operation_start _ g rfl rfl
      refine ⟨hvalid, henrolled, ⟨by simp, hordered.plain.bufferedError⟩, ?_, ?_⟩
      · refine ((hqueued hmay).answer ?_).congr rfl (fun _ => id) rfl
        exact (hqueued hmay).not_queued_of_start hx hxticket
      · have hbegin : (s.begin g buf start).Valid := hordered.valid.begin hidle hcompleted
        have hkept : s.completed = Function.update s.completed g none := by
          rw [← hcompleted, Function.update_eq_self]
        refine hfated.answer (hqueued hmay) hbegin hx hxg hxticket (by simp) ?_ hkept rfl rfl
          (fun f hf => List.mem_append_left _ hf) (congrArg some hxsub.symm) ?_
        · intro p hp hkind
          obtain rfl : s.newWrite g buf start = p := by simpa using hp
          exact absurd rfl hkind
        · simp [Completion.reply, hxsub]

/-- Only what is submitted between two states matters. -/
theorem submissions_congr (hstarted : t.started = s.started) :
    submissions t s' = submissions s s' := by
  simp [submissions, hstarted]

theorem Plain.handOver (hplain : Plain s) (hop : s.operation = some p) :
    Plain (s.handOver p waker result) where
  operation_tracked := by simp
  bufferedError := by
    obtain ⟨g, hkind, -⟩ := hplain.operation_tracked p hop
    rw [handOver_bufferedError, hkind]
    exact hplain.bufferedError

theorem Ordered.handOver (hordered : Ordered s h) (hop : s.operation = some p) :
    Ordered (s.handOver p waker result) h where
  valid := hordered.valid.handOver hop
  enrolled := hordered.enrolled.of_sameTokens (.handOver s p waker result)
  plain := hordered.plain.handOver hop
  queued := hordered.queued.congr (by simp) (by simp) (by simp)
  fated := hordered.fated.handOver hordered.valid hordered.plain hop

theorem Ordered.cleanup (hordered : Ordered s h) : Ordered s.cleanupCancelled h where
  valid := hordered.valid.cleanupCancelled
  enrolled := hordered.enrolled.of_sameTokens (.cleanupCancelled s)
  plain := ⟨by simpa using hordered.plain.operation_tracked,
    by simpa using hordered.plain.bufferedError⟩
  queued := hordered.queued.cleanup
  fated := hordered.fated.cleanup hordered.valid

theorem Ordered.await (hordered : Ordered s h) (hop : s.operation = some p) :
    Ordered (s.await p waker) h where
  valid := hordered.valid.await hop
  enrolled := ⟨hordered.enrolled.live_issued, hordered.enrolled.queue_issued⟩
  plain := by
    refine ⟨?_, hordered.plain.bufferedError⟩
    intro p' hp'
    obtain rfl : p.await waker = p' := by simpa using hp'
    exact hordered.plain.operation_tracked p hop
  queued := hordered.queued.congr rfl (fun _ => id) rfl
  fated := hordered.fated.congr (by simp [hop]) rfl (fun _ => id) rfl rfl

/-- The owner of the operation in flight takes its result. -/
theorem Ordered.deliver (hordered : Ordered s h) (hop : s.operation = some p)
    (hkind : p.kind = .operation g) :
    Ordered (s.finish p waker result).wakeReadyWaiters
      (h.answer g (Completion.reply ⟨p.submission, result⟩)) := by
  obtain ⟨x, hx, hxg, hxsub, hxticket⟩ := hordered.fated.operation_start p g hop hkind
  have hkept : s.completed = Function.update s.completed g none := by
    rw [← hordered.valid.inFlight_completed p g hop hkind, Function.update_eq_self]
  refine ⟨(hordered.valid.finish hop).wakeReadyWaiters,
    ⟨hordered.enrolled.live_issued, hordered.enrolled.queue_issued⟩,
    ⟨by simp, hordered.plain.bufferedError⟩, ?_, ?_⟩
  · exact (hordered.queued.answer (hordered.queued.not_queued_of_start hx hxticket)).congr rfl
      (fun _ => id) rfl
  · refine hordered.fated.answer hordered.queued hordered.valid hx hxg hxticket (by simp) ?_ hkept
      rfl rfl (fun f hf => List.mem_append_left _ hf) (congrArg some hxsub.symm) ?_
    · intro p' hp' hne
      obtain rfl : p = p' := by simpa [hop] using hp'
      exact absurd hkind hne
    · simp [Completion.reply, hxsub, hkind]

theorem Ordered.take {c : Completion} (hordered : Ordered s h) (hc : s.completed g = some c) :
    Ordered (s.removeCompleted g) (h.answer g c.reply) := by
  obtain ⟨x, hx, hxg, hxsub, hxticket⟩ := hordered.fated.completed_start g c hc
  refine ⟨hordered.valid.removeCompleted,
    ⟨hordered.enrolled.live_issued, hordered.enrolled.queue_issued⟩,
    ⟨hordered.plain.operation_tracked, hordered.plain.bufferedError⟩, ?_, ?_⟩
  · exact (hordered.queued.answer (hordered.queued.not_queued_of_start hx hxticket)).congr rfl
      (fun _ => id) rfl
  · have hnot : ∀ p, s.operation = some p → p.kind ≠ .operation g := by
      intro p hp hkind
      simp [hordered.valid.inFlight_completed p g hp hkind] at hc
    refine hordered.fated.answer hordered.queued hordered.valid hx hxg hxticket
      (fun p hp => ⟨hp, hnot p hp⟩) (fun p hp _ => hp) rfl rfl rfl (fun f hf => hf)
      (congrArg some hxsub.symm) ?_
    rw [hxsub]
    exact hordered.valid.completed_finished g c hc

theorem Ordered.driven {poll : Poll (Reply Nat)} {ticket : Nat} (hordered : Ordered s h)
    (hcompleted : s.completed g = none) (htracked : isTrackedWrite g = true)
    (hlive : (s.live g).isSome = true) (hticket : h.ticket g = some ticket)
    (hdriven : Driven waker g buf start s s' poll) :
    Ordered s' (h.settle g (submissions s s') poll) := by
  cases hdriven with
  | @awaits p hop =>
      have hsubs : submissions s (s.await p waker) = [] := submissions_of_eq rfl
      rw [hsubs, History.settle, History.note_nil]
      exact hordered.await hop
  | @delivers p result hop houtcome hown =>
      have hsubs : submissions s (s.finish p waker result).wakeReadyWaiters = [] :=
        submissions_of_eq rfl
      rw [hsubs, History.settle, History.note_nil]
      have hkind : p.kind = .operation g := by
        simp only [isOwn, Bool.and_eq_true, decide_eq_true_eq] at hown
        exact hown.1
      exact hordered.deliver hop hkind
  | reports hop houtcome hown herror =>
      simp [(hordered.plain.handOver hop).bufferedError] at herror
  | @handsOver p result _ _ hop houtcome hown herror hturn =>
      have hstarted : (s.handOver p waker result).started = s.started := by simp
      rw [← submissions_congr hstarted]
      refine (hordered.handOver hop).turn (by simp) ?_ htracked (by simpa using hlive) hticket hturn
      rwa [handOver_completed_of_not_own hown]
  | idle hop hturn => exact hordered.turn hop hcompleted htracked hlive hticket hturn

/-- A poll of a live tracked generation with something to write. -/
theorem Ordered.written {poll : Poll (Reply Nat)} (hordered : Ordered s h)
    (hrequested : s.shutdown.requested = h.shutdownAt.isSome) (hbuf : buf.bytes ≠ [])
    (htracked : isTrackedWrite g = true) (hlive : (s.live g).isSome = true)
    (hwritten : Written waker g buf start s s' poll) :
    Ordered s' ((h.arrive g).settle g (submissions s s') poll) := by
  have hclean := hordered.cleanup
  have hlive' : (s.cleanupCancelled.live g).isSome = true := by simpa using hlive
  have hissued : g ∈ s.cleanupCancelled.issued := hclean.enrolled.live_issued g hlive'
  cases hwritten with
  | empty hempty => exact absurd hempty hbuf
  | completed _ hc =>
      obtain ⟨x, -, -, -, hticket⟩ := hclean.fated.completed_start g _ hc
      have hsubs : submissions s (s.cleanupCancelled.removeCompleted g) = [] :=
        submissions_of_eq (by simp)
      rw [hsubs, History.settle, History.note_nil, History.arrive_of_some hticket]
      exact hclean.take hc
  | untracked _ _ hretained => simp [untrackedCompletion, htracked] at hretained
  | refused _ hc _ hrequest hunknown =>
      have hsubs : submissions s s.cleanupCancelled = [] := submissions_of_eq (by simp)
      rw [hsubs, History.settle, History.note_nil]
      obtain ⟨m, hm⟩ := Option.isSome_iff_exists.mp (hrequested ▸ hrequest)
      -- a write that was polled before would be in flight or queued
      have hticket : h.ticket g = none := by
        cases hticket : h.ticket g with
        | none => rfl
        | some t =>
            simp only [known, Bool.or_eq_false_iff] at hunknown
            have hnot : ∀ p, s.cleanupCancelled.operation = some p → p.kind ≠ .operation g := by
              intro p hp hkind
              have hflight := hunknown.1
              simp only [inFlight, hp, Option.any_some, hkind, decide_true] at hflight
              cases hflight
            obtain ⟨q, hq, hgeneration⟩ := queued_of_ticket hclean.queued hclean.fated hticket
              hlive' hnot hc
            have hany := List.any_eq_false.mp hunknown.2 q hq
            simp [hgeneration] at hany
      exact ⟨hclean.valid, hclean.enrolled, hclean.plain, hclean.queued.refuse hticket hissued hm,
        hclean.fated.refuse hclean.queued hticket hm⟩
  | driven _ hc _ hknown hdriven =>
      have hstarted : (s.cleanupCancelled.enqueueTracked g waker).started = s.started := by simp
      rw [← submissions_congr hstarted]
      have hopen : h.ticket g = none → h.shutdownAt = none := by
        intro hticket
        cases hm : h.shutdownAt with
        | none => rfl
        | some m =>
            have hknown := hknown (by simp [hrequested, hm])
            simp only [known, Bool.or_eq_true] at hknown
            rcases hknown with hflight | hany
            · obtain ⟨p, hp, hkind⟩ := (Option.any_eq_true _ _).mp hflight
              obtain ⟨x, -, -, -, hx⟩ := hclean.fated.operation_start p g hp (by simpa using hkind)
              simp [hticket] at hx
            · obtain ⟨q, hq, hgeneration⟩ := List.any_eq_true.mp hany
              obtain rfl : q.generation = g := by simpa using hgeneration
              obtain ⟨t, ht, -⟩ := hclean.queued.queue_ticket q hq
              simp [hticket] at ht
      obtain ⟨ticket, hticket⟩ : ∃ ticket, (h.arrive g).ticket g = some ticket := by
        cases hticket : h.ticket g with
        | some t => exact ⟨t, by rw [History.arrive_of_some hticket, hticket]⟩
        | none => exact ⟨h.arrivals.length, by simp [History.arrive_of_none hticket]⟩
      have henqueued : Ordered (s.cleanupCancelled.enqueueTracked g waker) (h.arrive g) :=
        ⟨hclean.valid.enqueueTracked,
          hclean.enrolled.of_sameTokens (.enqueueTracked _ g waker),
          ⟨hclean.plain.operation_tracked, hclean.plain.bufferedError⟩,
          hclean.queued.enqueueTracked hclean.fated htracked hlive' hissued hc hopen,
          hclean.fated.arrive.congr rfl rfl (fun _ => id) rfl rfl⟩
      exact henqueued.driven hc htracked hlive' hticket hdriven

/-! ## The other calls -/

theorem Ordered.barrier {poll : Poll Unit} (hordered : Ordered s h)
    (hbarrier : Barrier waker s s' poll) : Ordered s' h := by
  have hsame := SameTokens.barrier hbarrier
  have hdead : ∀ g, s.live g = none → s'.live g = none := by
    intro g hg
    simpa [hg] using hsame.live g
  cases hbarrier with
  | blocked =>
      exact ⟨hordered.valid.congr rfl rfl rfl rfl rfl rfl rfl,
        hordered.enrolled.of_sameTokens hsame,
        ⟨hordered.plain.operation_tracked, hordered.plain.bufferedError⟩,
        hordered.queued.congr rfl hdead rfl, hordered.fated.congr rfl rfl hdead rfl rfl⟩
  | empty => exact hordered

theorem Ordered.drained {poll : Poll Unit} (hordered : Ordered s h)
    (hdrained : Drained waker s s' poll) : Ordered s' h := by
  cases hdrained with
  | awaits hop => exact hordered.cleanup.await (by simpa using hop)
  | handsOver hop _ hbarrier =>
      exact (hordered.cleanup.handOver (by simpa using hop)).barrier hbarrier
  | idle _ hbarrier => exact hordered.cleanup.barrier hbarrier

theorem Ordered.flushed {poll : Poll (Reply Unit)} (hordered : Ordered s h)
    (hflushed : Flushed waker s s' poll) : Ordered s' h := by
  cases hflushed with
  | awaits hdrained => exact hordered.drained hdrained
  | reports hdrained herror =>
      simp [(hordered.drained hdrained).plain.bufferedError] at herror
  | @reportsUntracked t failure hdrained =>
      have ht := hordered.drained hdrained
      exact ⟨ht.valid.takeUntrackedCompleted,
        ⟨ht.enrolled.live_issued, ht.enrolled.queue_issued⟩,
        ⟨ht.plain.operation_tracked, ht.plain.bufferedError⟩,
        ht.queued.congr rfl (fun _ => id) rfl, ht.fated.congr rfl rfl (fun _ => id) rfl rfl⟩
  | flushed hdrained => exact hordered.drained hdrained

theorem Ordered.issue (hordered : Ordered s h) (hfresh : g ∉ s.issued)
    (htracked : isTrackedWrite g = true) : Ordered (s.issue g) h where
  valid := hordered.valid.congr rfl rfl rfl rfl rfl rfl rfl
  enrolled := hordered.enrolled.called (.newToken htracked hfresh)
  plain := ⟨hordered.plain.operation_tracked, hordered.plain.bufferedError⟩
  queued := hordered.queued.issue hfresh
  fated := hordered.fated.issue hordered.queued hfresh

theorem Ordered.retire {waiters : List Waker} (hordered : Ordered s h)
    (hlive : s.live g = some waiters) : Ordered (s.retire g waiters) h := by
  have hdead : ∀ g', s.live g' = none → (s.retire g waiters).live g' = none := by
    intro g' hg'
    by_cases hg : g' = g
    · simp [hg]
    · simpa [hg] using hg'
  exact ⟨hordered.valid.congr rfl rfl rfl rfl rfl rfl rfl,
    hordered.enrolled.called (.dropToken hlive),
    ⟨hordered.plain.operation_tracked, hordered.plain.bufferedError⟩,
    hordered.queued.congr rfl hdead rfl, hordered.fated.congr rfl rfl hdead rfl rfl⟩

theorem Ordered.resolve (hordered : Ordered s h) (hop : s.operation = some p) :
    Ordered (s.resolve p result) h where
  valid := hordered.valid.resolve hop
  enrolled := ⟨hordered.enrolled.live_issued, hordered.enrolled.queue_issued⟩
  plain := by
    refine ⟨?_, hordered.plain.bufferedError⟩
    intro p' hp'
    obtain rfl : p.resolve result = p' := by simpa using hp'
    exact hordered.plain.operation_tracked p hop
  queued := hordered.queued.congr rfl (fun _ => id) rfl
  fated := hordered.fated.congr (by simp [hop]) rfl (fun _ => id) rfl rfl

theorem Ordered.of_shutdown {d : DirectionShutdown} {woken : List Waker}
    (hordered : Ordered s h) : Ordered { s with shutdown := d, woken := woken } h where
  valid := hordered.valid.congr rfl rfl rfl rfl rfl rfl rfl
  enrolled := ⟨hordered.enrolled.live_issued, hordered.enrolled.queue_issued⟩
  plain := ⟨hordered.plain.operation_tracked, hordered.plain.bufferedError⟩
  queued := hordered.queued.congr rfl (fun _ => id) rfl
  fated := hordered.fated.congr rfl rfl (fun _ => id) rfl rfl

/-- A reply to a poll of the shutdown is not seen by the writes. -/
theorem Ordered.pollShutdown {poll : Poll (Reply Unit)} (hordered : Ordered s h) :
    Ordered s (h.pollShutdown poll) := by
  cases poll with
  | pending => exact hordered
  | ready reply =>
      obtain ⟨hvalid, henrolled, hplain, ⟨h₁, h₂, h₃, h₄, h₅, h₆, h₇, h₈⟩,
        ⟨f₁, f₂, f₃, f₄, f₅, f₆, f₇⟩⟩ := hordered
      exact ⟨hvalid, henrolled, hplain, ⟨h₁, h₂, h₃, h₄, h₅, h₆, h₇, h₈⟩,
        ⟨f₁, f₂, f₃, f₄, f₅, f₆, f₇⟩⟩

theorem Ordered.requestShutdown (hordered : Ordered s h) :
    Ordered s.requestShutdown h.requestShutdown where
  valid := hordered.valid.congr rfl rfl rfl rfl rfl rfl rfl
  enrolled := ⟨hordered.enrolled.live_issued, hordered.enrolled.queue_issued⟩
  plain := ⟨hordered.plain.operation_tracked, hordered.plain.bufferedError⟩
  queued := hordered.queued.requestShutdown
  fated := hordered.fated.requestShutdown

theorem Ordered.shutDown {poll : Poll (Reply Unit)} {start : Option (Except IoError Unit)}
    (hordered : Ordered s h) (hshutDown : ShutDown waker start s s' poll) :
    Ordered s' (h.requestShutdown.pollShutdown poll) := by
  have hrequest := hordered.requestShutdown
  cases hshutDown with
  | awaits hdrained => exact (hrequest.drained hdrained).pollShutdown
  | reports hdrained herror =>
      simp [(hrequest.drained hdrained).plain.bufferedError] at herror
  | drives hdrained => exact (hrequest.drained hdrained).of_shutdown.pollShutdown

/-! ## The shutdown -/

theorem written_shutdown {poll : Poll (Reply Nat)}
    (hwritten : Written waker g buf start s s' poll) : s'.shutdown = s.shutdown := by
  have hturn : ∀ {t t' : WriteState} {poll : Poll (Reply Nat)},
      Turn waker g buf start t t' poll → t'.shutdown = t.shutdown := by
    intro t t' poll hturn
    cases hturn <;> rfl
  cases hwritten with
  | empty => rfl
  | completed => simp
  | untracked => simp
  | refused => simp
  | driven _ _ _ _ hdriven =>
      cases hdriven with
      | awaits => simp
      | delivers => simp
      | reports => simp
      | handsOver _ _ _ _ h => simpa using hturn h
      | idle _ h => simpa using hturn h

theorem drained_shutdown {poll : Poll Unit} (hdrained : Drained waker s s' poll) :
    s'.shutdown = s.shutdown := by
  have hbarrier : ∀ {t t' : WriteState} {poll : Poll Unit},
      Barrier waker t t' poll → t'.shutdown = t.shutdown := by
    intro t t' poll hbarrier
    cases hbarrier <;> rfl
  cases hdrained with
  | awaits => simp
  | handsOver _ _ h => simpa using hbarrier h
  | idle _ h => simpa using hbarrier h

/-- A drain with nothing in flight and nothing queued only cleans up. -/
theorem drained_of_idle {poll : Poll Unit} (hidle : s.operation = none) (hqueue : s.queue = [])
    (hdrained : Drained waker s s' poll) : s' = s.cleanupCancelled ∧ poll = .ready () := by
  cases hdrained with
  | awaits hop => simp [hidle] at hop
  | handsOver hop => simp [hidle] at hop
  | idle _ hbarrier =>
      cases hbarrier with
      | blocked h => simp [hqueue] at h
      | empty => exact ⟨rfl, rfl⟩

/-- After the shutdown has started, a write has nothing to start and nothing to
wait for. -/
theorem written_of_idle {poll : Poll (Reply Nat)} (hidle : s.operation = none)
    (hqueue : s.queue = []) (hrequested : s.shutdown.requested = true)
    (hwritten : Written waker g buf start s s' poll) : s'.operation = none ∧ s'.queue = [] := by
  cases hwritten with
  | empty => exact ⟨hidle, hqueue⟩
  | completed => simp [hidle, hqueue]
  | untracked => simp [hidle, hqueue]
  | refused => simp [hidle, hqueue]
  | driven _ _ _ hknown =>
      have hknown := hknown hrequested
      simp [known, inFlight, hidle, hqueue] at hknown

/-- One poll of `DirectionShutdown`, before it has a result. -/
theorem shutdownPoll_of_none {d : DirectionShutdown} (waker : Waker)
    (start : Option (Except IoError Unit)) (hresult : d.result = none) :
    (d.poll waker start).1.starts = d.starts + (if d.operation.isSome then 0 else 1) ∧
      (d.poll waker start).1.requested = true ∧
      (((d.poll waker start).1.operation.isSome = true ∧
          (d.poll waker start).1.result = none ∧ (d.poll waker start).2.2 = .pending) ∨
        ∃ result, (d.poll waker start).1.result = some result ∧
          (d.poll waker start).2.2 = .ready (shutdownReply result)) := by
  unfold DirectionShutdown.poll DirectionShutdown.request
  cases hop : d.operation with
  | none => cases start <;> simp [hresult]
  | some operation => cases houtcome : operation.outcome <;> simp [hresult, houtcome]

/-- One poll of `DirectionShutdown`, once it has a result. -/
theorem shutdownPoll_of_some {d : DirectionShutdown} {result : Except SharedIoError Unit}
    (waker : Waker) (start : Option (Except IoError Unit)) (hresult : d.result = some result) :
    d.poll waker start = (d.request, [], .ready (shutdownReply result)) := by
  simp [DirectionShutdown.poll, DirectionShutdown.request, hresult]

namespace Closing

theorem congr {h' : History} (hclosing : Closing s h) (hshutdown : t.shutdown = s.shutdown)
    (hidle : s.shutdown.requested = true → s.operation = none → s.queue = [] →
      t.operation = none ∧ t.queue = [])
    (hat : h'.shutdownAt = h.shutdownAt) (hreplies : h'.shutdownReplies = h.shutdownReplies) :
    Closing t h' where
  requested := by rw [hshutdown, hat, hclosing.requested]
  phase := by
    rw [hshutdown]
    refine hclosing.phase.imp_right ?_
    rintro ⟨hstarts, hrequested, hop, hqueue, hrest⟩
    obtain ⟨hop', hqueue'⟩ := hidle hrequested hop hqueue
    exact ⟨hstarts, hrequested, hop', hqueue', hrest⟩
  replies := by
    rw [hshutdown, hreplies]
    exact hclosing.replies

theorem keep (hclosing : Closing s h) (hshutdown : t.shutdown = s.shutdown)
    (hop : t.operation = s.operation) (hqueue : t.queue = s.queue) : Closing t h :=
  hclosing.congr hshutdown (fun _ h₁ h₂ => ⟨hop.trans h₁, hqueue.trans h₂⟩) rfl rfl

theorem drained {poll : Poll Unit} (hclosing : Closing s h)
    (hdrained : Drained waker s s' poll) : Closing s' h := by
  refine hclosing.congr (drained_shutdown hdrained) ?_ rfl rfl
  intro _ hop hqueue
  obtain ⟨rfl, -⟩ := drained_of_idle hop hqueue hdrained
  simp [hop, hqueue]

theorem flushed {poll : Poll (Reply Unit)} (hclosing : Closing s h)
    (hflushed : Flushed waker s s' poll) : Closing s' h := by
  cases hflushed with
  | awaits hdrained => exact hclosing.drained hdrained
  | reports hdrained => exact (hclosing.drained hdrained).keep rfl rfl rfl
  | reportsUntracked hdrained => exact (hclosing.drained hdrained).keep rfl rfl rfl
  | flushed hdrained => exact hclosing.drained hdrained

theorem written {poll : Poll (Reply Nat)} (hclosing : Closing s h)
    (hwritten : Written waker g buf start s s' poll) : Closing s' h :=
  hclosing.congr (written_shutdown hwritten)
    (fun hrequested hop hqueue => written_of_idle hop hqueue hrequested hwritten) rfl rfl

theorem requestShutdown (hclosing : Closing s h) :
    Closing s.requestShutdown h.requestShutdown where
  requested := rfl
  phase := by
    refine hclosing.phase.imp_right ?_
    rintro ⟨hstarts, -, hrest⟩
    exact ⟨hstarts, rfl, hrest⟩
  replies := hclosing.replies

/-- With everything drained, the shutdown is started or polled on. -/
theorem driveShutdown {start : Option (Except IoError Unit)} (hclosing : Closing s h)
    (hop : s.operation = none) (hqueue : s.queue = []) (hrequested : s.shutdown.requested = true) :
    Closing (s.driveShutdown waker start)
      (h.pollShutdown ((s.shutdown.poll waker start).2.2.map fun result => ⟨result, none⟩)) := by
  have hat : h.shutdownAt.isSome = true := hclosing.requested ▸ hrequested
  have hkept : ∀ poll, (h.pollShutdown poll).shutdownAt = h.shutdownAt := by
    intro poll
    cases poll <;> rfl
  cases hresult : s.shutdown.result with
  | some result =>
      -- the stored result is returned once more
      have hpoll := shutdownPoll_of_some waker start hresult
      have hstarted : s.shutdown.starts = 1 := by
        rcases hclosing.phase with ⟨-, -, hnone⟩ | ⟨hstarts, -⟩
        · simp [hresult] at hnone
        · exact hstarts
      constructor
      · rw [hkept, hat]
        simp [hpoll, DirectionShutdown.request]
      · exact Or.inr ⟨by simpa [hpoll, DirectionShutdown.request] using hstarted,
          by simp [hpoll, DirectionShutdown.request], hop, hqueue,
          Or.inr (by simp [hpoll, DirectionShutdown.request, hresult])⟩
      · intro r hr
        refine ⟨result, by simp [hpoll, DirectionShutdown.request, hresult], ?_⟩
        rw [hpoll] at hr
        rcases List.mem_append.mp hr with hr | hr
        · obtain ⟨result', hresult', rfl⟩ := hclosing.replies r hr
          rw [hresult] at hresult'
          cases hresult'
          rfl
        · simpa using hr
  | none =>
      obtain ⟨hstarts, hrequested', hpoll⟩ := shutdownPoll_of_none waker start hresult
      have hnever : h.shutdownReplies = [] := by
        refine List.eq_nil_iff_forall_not_mem.mpr ?_
        intro r hr
        obtain ⟨result, hsome, -⟩ := hclosing.replies r hr
        simp [hresult] at hsome
      have hstarted : (s.shutdown.poll waker start).1.starts = 1 := by
        rw [hstarts]
        rcases hclosing.phase with ⟨hzero, hnone, -⟩ | ⟨hone, -, -, -, hsome | hsome⟩
        · simp [hzero, hnone]
        · simp [hone, hsome]
        · simp [hresult] at hsome
      rcases hpoll with ⟨hpending, hnone, hpoll⟩ | ⟨result, hstored, hpoll⟩
      · constructor
        · rw [hkept, hat]
          exact hrequested'
        · exact Or.inr ⟨hstarted, hrequested', hop, hqueue, Or.inl hpending⟩
        · intro r hr
          rw [hpoll] at hr
          simp [Poll.map, History.pollShutdown, hnever] at hr
      · constructor
        · rw [hkept, hat]
          exact hrequested'
        · exact Or.inr ⟨hstarted, hrequested', hop, hqueue, Or.inr (by simp [hstored])⟩
        · intro r hr
          rw [hpoll] at hr
          refine ⟨result, hstored, ?_⟩
          simpa [Poll.map, History.pollShutdown, hnever] using hr

theorem shutDown {poll : Poll (Reply Unit)} {start : Option (Except IoError Unit)}
    (hclosing : Closing s h) (hordered : Ordered s h)
    (hshutDown : ShutDown waker start s s' poll) :
    Closing s' (h.requestShutdown.pollShutdown poll) := by
  have hrequest := hclosing.requestShutdown
  cases hshutDown with
  | awaits hdrained => exact hrequest.drained hdrained
  | reports hdrained herror =>
      simp [(hordered.requestShutdown.drained hdrained).plain.bufferedError] at herror
  | drives hdrained =>
      obtain ⟨hop, hqueue⟩ := hdrained.idle_of_ready
      exact (hrequest.drained hdrained).driveShutdown hop hqueue
        (by rw [drained_shutdown hdrained]; rfl)

theorem resolveShutdown {operation : PendingOperation Unit} {result : Except IoError Unit}
    (hclosing : Closing s h) (hop : s.shutdown.operation = some operation) :
    Closing (s.resolveShutdown operation result) h where
  requested := hclosing.requested
  phase := by
    rcases hclosing.phase with ⟨-, hnone, -⟩ | ⟨hstarts, hrequested, hidle, hqueue, -⟩
    · simp [hop] at hnone
    · exact Or.inr ⟨hstarts, hrequested, hidle, hqueue, Or.inl rfl⟩
  replies := hclosing.replies

end Closing

/-! ## Runs -/

structure Orderly (l : Line) : Prop where
  ordered : Ordered l.state l.history
  closing : Closing l.state l.history

theorem Orderly.init : Orderly {} := by
  refine ⟨⟨.init, ⟨by simp, by simp⟩, ⟨by simp, rfl⟩, ?_, ?_⟩, ?_⟩ <;> constructor <;> simp

theorem Orderly.step {c : Call} (horderly : Orderly l) (hstep : l.step c = some l') :
    Orderly l' := by
  obtain ⟨hordered, hclosing⟩ := horderly
  cases c with
  | pollWrite waker g buf start =>
      simp only [Line.step] at hstep
      split at hstep
      next hg =>
        obtain ⟨⟨s', poll⟩, hs', rfl⟩ := Option.map_eq_some_iff.mp hstep
        have hwritten := written_of_pollWrite hs'
        dsimp only
        split
        next hbuf =>
          cases hwritten with
          | empty => exact ⟨hordered, hclosing⟩
          | _ => contradiction
        next hbuf =>
          obtain ⟨hat, hreplies⟩ := History.settle_arrive_shutdown l.history g
            (submissions l.state s') poll
          exact ⟨hordered.written hclosing.requested hbuf hg.1 hg.2 hwritten,
            (hclosing.written hwritten).congr rfl (fun _ h₁ h₂ => ⟨h₁, h₂⟩) hat hreplies⟩
      next => cases hstep
  | pollBufferedWrite => cases hstep
  | pollFlush waker =>
      obtain ⟨⟨s', poll⟩, hs', rfl⟩ := Option.map_eq_some_iff.mp hstep
      exact ⟨hordered.flushed (flushed_of_pollFlush hs'),
        hclosing.flushed (flushed_of_pollFlush hs')⟩
  | pollDrain waker =>
      obtain ⟨⟨s', poll⟩, hs', rfl⟩ := Option.map_eq_some_iff.mp hstep
      exact ⟨hordered.drained (drained_of_pollDrain hs'),
        hclosing.drained (drained_of_pollDrain hs')⟩
  | pollShutdown waker start =>
      obtain ⟨⟨s', poll⟩, hs', rfl⟩ := Option.map_eq_some_iff.mp hstep
      exact ⟨hordered.shutDown (shutDown_of_pollShutdown hs'),
        hclosing.shutDown hordered (shutDown_of_pollShutdown hs')⟩
  | newToken g =>
      obtain ⟨s', hs', rfl⟩ := Option.map_eq_some_iff.mp hstep
      unfold newToken at hs'
      split at hs'
      next hg =>
        cases hs'
        exact ⟨hordered.issue hg.2 hg.1, hclosing.keep rfl rfl rfl⟩
      next => cases hs'
  | dropToken g =>
      obtain ⟨s', hs', rfl⟩ := Option.map_eq_some_iff.mp hstep
      obtain ⟨waiters, hlive, rfl⟩ := Option.map_eq_some_iff.mp hs'
      exact ⟨hordered.retire hlive, hclosing.keep rfl rfl rfl⟩
  | complete result =>
      obtain ⟨s', hs', rfl⟩ := Option.map_eq_some_iff.mp hstep
      obtain ⟨p, hop, -, rfl⟩ := resolve_of_complete hs'
      refine ⟨hordered.resolve hop, hclosing.congr rfl ?_ rfl rfl⟩
      intro _ hidle
      simp [hop] at hidle
  | completeShutdown result =>
      obtain ⟨s', hs', rfl⟩ := Option.map_eq_some_iff.mp hstep
      obtain ⟨operation, hop, -, rfl⟩ := resolveShutdown_of_completeShutdown hs'
      exact ⟨hordered.of_shutdown, hclosing.resolveShutdown hop⟩

theorem orderly_of_reachable (hreach : Reachable Line.step (fun _ _ => True) {} l) :
    Orderly l :=
  hreach.invariant Orderly .init fun _ _ _ horderly _ hstep => horderly.step hstep

/-! ## First in, first out, and exactly once -/

/-- What the invariant says of the callers, in every state of every run. -/
structure InOrder (l : Line) : Prop where
  /-- everything that was started has finished, but for the operation in flight -/
  one_in_flight : l.state.started = l.state.finished.map (fun f => (f.1, f.2.source)) ++
    l.state.operation.toList.map fun p => (p.kind, p.submission)
  /-- the factories were called for the logical writes, and by their owners -/
  started : l.state.started = l.history.starts.map fun x => (.operation x.generation, x.submission)
  start_owner : ∀ x ∈ l.history.starts, l.history.arrivals[x.ticket]? = some x.generation
  /-- once for each logical write, in the order of their first polls -/
  start_order : l.history.starts.Pairwise fun x y => x.ticket < y.ticket
  /-- only dropped generations are passed over -/
  passed_over : ∀ x ∈ l.history.starts, ∀ t < x.ticket, (∃ y ∈ l.history.starts, y.ticket = t) ∨
    ∃ g, l.history.arrivals[t]? = some g ∧ l.state.live g = none
  /-- a logical write of a live generation was started, waits in the queue, or
  came after the shutdown request -/
  not_lost : ∀ t g, l.history.arrivals[t]? = some g → (l.state.live g).isSome = true →
    (∃ x ∈ l.history.starts, x.ticket = t) ∨
    (∃ q ∈ l.state.queue, q.generation = g ∧ l.history.ticket g = some t) ∨
    ∃ m, l.history.shutdownAt = some m ∧ m ≤ t
  /-- the front of the queue starts at its next poll -/
  front_starts : ∀ q rest, l.state.queue = q :: rest → l.state.operation = none →
    (l.state.live q.generation).isSome = true → ∀ waker buf start, buf.bytes ≠ [] →
    ∃ s' poll, l.state.pollWrite waker q.generation buf start = some (s', poll) ∧
      s'.started = l.state.started ++ [(.operation q.generation, l.state.submission buf)]
  /-- no logical write is answered twice -/
  returned_once : (l.history.returns.map (·.ticket)).Nodup
  /-- an answer is the result of the operation of the same logical write, or it
  refuses a write that came after the shutdown request -/
  returned_own : ∀ r ∈ l.history.returns, l.history.arrivals[r.ticket]? = some r.generation ∧
    ((∃ x ∈ l.history.starts, x.ticket = r.ticket ∧ r.reply.source = some x.submission ∧
      (.operation r.generation, ⟨x.submission, r.reply.result⟩) ∈ l.state.finished) ∨
    (r.reply = ⟨.error shutDownError, none⟩ ∧
      ∃ m, l.history.shutdownAt = some m ∧ m ≤ r.ticket))
  /-- the result of a live generation was returned, is not there yet, or is
  returned at the generation's next poll -/
  delivered : ∀ x ∈ l.history.starts, (l.state.live x.generation).isSome = true →
    (∃ r ∈ l.history.returns, r.ticket = x.ticket) ∨
    (∃ p, l.state.operation = some p ∧ p.submission = x.submission ∧
      p.operation.outcome = none) ∨
    ∃ result, ∀ waker buf start, buf.bytes ≠ [] →
      ∃ s', l.state.pollWrite waker x.generation buf start =
        some (s', .ready ⟨result, some x.submission⟩)
  shutdown_once : l.state.shutdown.starts ≤ 1
  /-- the shutdown starts after every write before it has finished or was dropped -/
  shutdown_last : l.state.shutdown.starts = 1 → ∃ m, l.history.shutdownAt = some m ∧
    ∀ t g, t < m → l.history.arrivals[t]? = some g →
      (∃ x ∈ l.history.starts, x.ticket = t ∧
        ∃ result, (.operation g, ⟨x.submission, result⟩) ∈ l.state.finished) ∨
      l.state.live g = none
  /-- no write that came after the shutdown request is started -/
  shutdown_refuses : ∀ m, l.history.shutdownAt = some m → ∀ x ∈ l.history.starts, x.ticket < m
  /-- every answered poll of the shutdown got the stored result, and every
  later one gets it -/
  shutdown_replies : ∀ r ∈ l.history.shutdownReplies, ∃ result,
    l.state.shutdown.result = some result ∧ r = ⟨shutdownReply result, none⟩
  shutdown_repeats : ∀ result, l.state.shutdown.result = some result → ∀ waker start,
    ∃ s', l.state.pollShutdown waker start = some (s', .ready ⟨shutdownReply result, none⟩)

theorem Queued.passed_over (hqueued : Queued s h) {x : Start} (hx : x ∈ h.starts) {t : Nat}
    (ht : t < x.ticket) : (∃ y ∈ h.starts, y.ticket = t) ∨
      ∃ g, h.arrivals[t]? = some g ∧ s.live g = none := by
  obtain ⟨g, hg⟩ : ∃ g, h.arrivals[t]? = some g :=
    ⟨_, List.getElem?_eq_getElem (Nat.lt_trans ht (hqueued.start_lt hx))⟩
  rcases hqueued.arrival t g hg with hy | hdead | ⟨q, hq, rfl, hticket⟩ | ⟨m, hm, hle, -⟩
  · exact Or.inl hy
  · exact Or.inr ⟨g, hg, hdead⟩
  · -- a queued write has a later ticket than everything that was started
    obtain ⟨t', ht', hlt⟩ := hqueued.queue_ticket q hq
    obtain rfl : t = t' := by simpa [hticket] using ht'
    exact absurd (hlt x hx) (Nat.lt_asymm ht)
  · exact absurd ((hqueued.shutdown_bound m hm).2.1 x hx)
      (Nat.not_lt.mpr (Nat.le_trans hle (Nat.le_of_lt ht)))

theorem Ordered.completed_of_queued (hordered : Ordered s h) {q : QueuedWrite}
    (hq : q ∈ s.queue) : s.completed q.generation = none := by
  cases hc : s.completed q.generation with
  | none => rfl
  | some c =>
      obtain ⟨x, hx, -, -, hticket⟩ := hordered.fated.completed_start _ c hc
      exact absurd rfl (hordered.queued.not_queued_of_start hx hticket q hq)

theorem Ordered.front_starts {q : QueuedWrite} {rest : List QueuedWrite}
    (hordered : Ordered s h) (hqueue : s.queue = q :: rest) (hidle : s.operation = none)
    (hlive : (s.live q.generation).isSome = true) (hbuf : buf.bytes ≠ [])
    {poll : Poll (Reply Nat)} (hwritten : Written waker q.generation buf start s s' poll) :
    s'.started = s.started ++ [(.operation q.generation, s.submission buf)] := by
  have hq : q ∈ s.queue := by simp [hqueue]
  have htracked := hordered.valid.queue_tracked q hq
  have hisLive : s.isLiveWrite q.generation = true := by simp [isLiveWrite, hlive]
  have hclean : s.cleanupCancelled.queue =
      q :: rest.filter fun q => s.isLiveWrite q.generation := by
    simp [hqueue, hisLive]
  cases hwritten with
  | empty hempty => exact absurd hempty hbuf
  | completed _ hc =>
      simp [cleanupCancelled_completed, hordered.completed_of_queued hq] at hc
  | untracked _ _ hretained => simp [untrackedCompletion, htracked] at hretained
  | refused _ _ _ _ hunknown =>
      rw [known, hclean, List.any_cons] at hunknown
      simp at hunknown
  | driven _ hc _ _ hdriven =>
      have hfront : (s.cleanupCancelled.enqueueTracked q.generation waker).queue.head?.map
          (·.generation) = some q.generation := by
        have hlive' : s.cleanupCancelled.isLiveWrite q.generation = true := by
          simpa [isLiveWrite] using hisLive
        have hmoved : s.cleanupCancelled.enqueuedTracked q.generation waker =
            s.cleanupCancelled.queue.map (setWaker q.generation waker) := by
          unfold enqueuedTracked
          rw [hclean]
          simp [htracked, hlive', inFlight, hidle, hc]
        rw [enqueueTracked_queue, hmoved, hclean]
        simp [setWaker]
      cases hdriven with
      | awaits hop => simp [hidle] at hop
      | delivers hop => simp [hidle] at hop
      | reports hop => simp [hidle] at hop
      | handsOver hop => simp [hidle] at hop
      | idle _ hturn =>
          cases hturn with
          | completed hcompleted =>
              rw [enqueueTracked_completed, hc] at hcompleted
              cases hcompleted
          | blocked _ hblocked hne =>
              rw [hblocked] at hfront
              exact absurd (by simpa using hfront) hne
          | cancelled _ hempty =>
              rw [hempty] at hfront
              cases hfront
          | awaits => simp [submission]
          | answers => simp [submission]

/-- A result that is there is returned by the owner's next poll. -/
theorem Ordered.delivered (hordered : Ordered s h) {x : Start} (hx : x ∈ h.starts)
    (hlive : (s.live x.generation).isSome = true) :
    (∃ r ∈ h.returns, r.ticket = x.ticket) ∨
    (∃ p, s.operation = some p ∧ p.submission = x.submission ∧ p.operation.outcome = none) ∨
    ∃ result, ∀ buf, buf.bytes ≠ [] →
      s.claimed x.generation buf = some ⟨x.submission, result⟩ := by
  have hisLive : s.isLiveWrite x.generation = true := by simp [isLiveWrite, hlive]
  rcases hordered.fated.start_fate x hx with
    hr | hdead | ⟨p, hop, hkind, hsub⟩ | ⟨⟨sub, result⟩, hc, rfl⟩
  · exact Or.inl hr
  · simp [hdead] at hlive
  · cases houtcome : p.operation.outcome with
    | none => exact Or.inr (Or.inl ⟨p, hop, hsub, houtcome⟩)
    | some result =>
        obtain ⟨g, hkind', htracked⟩ := hordered.plain.operation_tracked p hop
        obtain rfl : x.generation = g := by simpa [hkind] using hkind'
        refine Or.inr (Or.inr ⟨result, fun buf _ => ?_⟩)
        have hcompleted := hordered.valid.inFlight_completed p _ hop hkind
        simp [claimed, identified, untrackedCompletion, htracked, cleanupCancelled_completed,
          hcompleted, ownResult_of_some hop, isOwn_of_tracked hkind htracked, houtcome, hsub]
  · refine Or.inr (Or.inr ⟨result, fun buf _ => ?_⟩)
    simp [claimed, cleanupCancelled_completed, hisLive, hc]

/-- Once the shutdown has started, everything before it is settled. -/
theorem Ordered.shutdown_last {m : Nat} (hordered : Ordered s h) (hidle : s.operation = none)
    (hqueue : s.queue = []) (hm : h.shutdownAt = some m) {t : Nat} (ht : t < m)
    (hg : h.arrivals[t]? = some g) :
    (∃ x ∈ h.starts, x.ticket = t ∧
      ∃ result, (.operation g, ⟨x.submission, result⟩) ∈ s.finished) ∨ s.live g = none := by
  rcases hordered.queued.arrival t g hg with ⟨x, hx, rfl⟩ | hdead | ⟨q, hq, -⟩ | ⟨m', hm', hle, -⟩
  · obtain rfl : x.generation = g := by
      simpa [hordered.queued.starts_arrival x hx] using hg
    have hstarted : (.operation x.generation, x.submission) ∈ s.started := by
      rw [hordered.fated.started]
      exact List.mem_map.mpr ⟨x, hx, rfl⟩
    rw [hordered.valid.history, hidle] at hstarted
    obtain ⟨⟨kind, sub, result⟩, hf, heq⟩ : ∃ f ∈ s.finished, (f.1, f.2.source) =
        (.operation x.generation, x.submission) := by simpa using hstarted
    cases heq
    exact Or.inl ⟨x, hx, rfl, result, hf⟩
  · exact Or.inr hdead
  · simp [hqueue] at hq
  · obtain rfl : m = m' := by simpa [hm] using hm'
    exact absurd ht (Nat.not_lt.mpr hle)

/-- A stored result of the shutdown is returned by every poll. -/
theorem Orderly.shutdown_repeats (horderly : Orderly l) {result : Except SharedIoError Unit}
    (hresult : l.state.shutdown.result = some result) (waker : Waker)
    (start : Option (Except IoError Unit)) :
    ∃ s', l.state.pollShutdown waker start = some (s', .ready ⟨shutdownReply result, none⟩) := by
  obtain ⟨hop, hqueue⟩ : l.state.operation = none ∧ l.state.queue = [] := by
    rcases horderly.closing.phase with ⟨-, -, hnone⟩ | ⟨-, -, hop, hqueue, -⟩
    · simp [hresult] at hnone
    · exact ⟨hop, hqueue⟩
  obtain ⟨s', poll, hs', hshutDown⟩ := exists_pollShutdown l.state waker start
  refine ⟨s', hs'.trans ?_⟩
  cases hshutDown with
  | awaits hdrained =>
      have hidle : l.state.requestShutdown.operation = none := hop
      cases (drained_of_idle hidle hqueue hdrained).2
  | reports hdrained herror =>
      simp [(horderly.ordered.requestShutdown.drained hdrained).plain.bufferedError] at herror
  | @drives t hdrained =>
      have ht : t.shutdown.result = some result := by
        rw [drained_shutdown hdrained]
        exact hresult
      rw [shutdownPoll_of_some waker start ht]
      rfl

/-- In every run of tracked writes, with any interleaving of polls, drops,
flushes, shutdowns and completions. -/
theorem inOrder_of_reachable (hreach : Reachable Line.step (fun _ _ => True) {} l) :
    InOrder l := by
  have horderly := orderly_of_reachable hreach
  have hordered := horderly.ordered
  have hclosing := horderly.closing
  exact {
    one_in_flight := hordered.valid.history
    started := hordered.fated.started
    start_owner := hordered.queued.starts_arrival
    start_order := hordered.queued.starts_sorted
    passed_over := fun x hx t ht => hordered.queued.passed_over hx ht
    not_lost := by
      intro t g hg hlive
      rcases hordered.queued.arrival t g hg with hx | hdead | hq | ⟨m, hm, hle, -⟩
      · exact Or.inl hx
      · simp [hdead] at hlive
      · exact Or.inr (Or.inl hq)
      · exact Or.inr (Or.inr ⟨m, hm, hle⟩)
    front_starts := by
      intro q rest hqueue hidle hlive waker buf start hbuf
      obtain ⟨s', poll, hs', hwritten⟩ := exists_pollWrite l.state waker q.generation buf start
      exact ⟨s', poll, hs', hordered.front_starts hqueue hidle hlive hbuf hwritten⟩
    returned_once := hordered.fated.returns_nodup
    returned_own := hordered.fated.returned
    delivered := by
      intro x hx hlive
      refine (hordered.delivered hx hlive).imp_right (Or.imp_right ?_)
      rintro ⟨result, hclaimed⟩
      refine ⟨result, fun waker buf start hbuf => ?_⟩
      obtain ⟨s', poll, hs', hwritten⟩ := exists_pollWrite l.state waker x.generation buf start
      obtain rfl := reply_of_claimed hbuf (hclaimed buf hbuf) hwritten
      exact ⟨s', hs'⟩
    shutdown_once := by
      rcases hclosing.phase with ⟨hzero, -⟩ | ⟨hone, -⟩ <;> omega
    shutdown_last := by
      intro hstarts
      rcases hclosing.phase with ⟨hzero, -⟩ | ⟨-, hrequested, hidle, hqueue, -⟩
      · omega
      · obtain ⟨m, hm⟩ := Option.isSome_iff_exists.mp (hclosing.requested ▸ hrequested)
        exact ⟨m, hm, fun t g ht hg => hordered.shutdown_last hidle hqueue hm ht hg⟩
    shutdown_refuses := fun m hm => (hordered.queued.shutdown_bound m hm).2.1
    shutdown_replies := hclosing.replies
    shutdown_repeats := fun result hresult => horderly.shutdown_repeats hresult }

/-- Two writers, the second of which is dropped while its operation is in
flight, and a shutdown. -/
def twoWriters : List Call :=
  [.newToken (trackedWriteBit + 1), .newToken (trackedWriteBit + 2),
    .pollWrite 1 (trackedWriteBit + 1) ⟨100, [1, 2]⟩ none,
    .pollWrite 2 (trackedWriteBit + 2) ⟨200, [3]⟩ none, .complete (.ok 2),
    .pollWrite 2 (trackedWriteBit + 2) ⟨200, [3]⟩ none, .pollShutdown 3 none,
    .pollWrite 1 (trackedWriteBit + 1) ⟨100, [1, 2]⟩ none, .dropToken (trackedWriteBit + 2),
    .complete (.ok 1), .pollShutdown 3 (some (.ok ())),
    .pollWrite 1 (trackedWriteBit + 1) ⟨100, [5]⟩ none]

theorem inOrder_twoWriters : ∃ l, Reachable Line.step (fun _ _ => True) {} l ∧
    l.history.starts.map (·.ticket) = [0, 1] ∧
    l.history.returns.map (fun r => (r.ticket, r.reply)) =
      [(0, ⟨.ok 2, some ⟨0, [1, 2]⟩⟩), (2, ⟨.error shutDownError, none⟩)] ∧
    l.history.shutdownAt = some 2 ∧ l.state.shutdown.starts = 1 ∧ InOrder l := by
  obtain ⟨l, hreach, hl⟩ := Reachable.exists_of_run Line.step (fun _ _ => True) {} twoWriters
    (fun l => l.history.starts.map (·.ticket) = [0, 1] ∧
      l.history.returns.map (fun r => (r.ticket, r.reply)) =
        [(0, ⟨.ok 2, some ⟨0, [1, 2]⟩⟩), (2, ⟨.error shutDownError, none⟩)] ∧
      l.history.shutdownAt = some 2 ∧ l.state.shutdown.starts = 1) (by simp) (by decide +kernel)
  obtain ⟨hstarts, hreturns, hat, hshutdown⟩ := of_decide_eq_true hl
  exact ⟨l, hreach, hstarts, hreturns, hat, hshutdown, inOrder_of_reachable hreach⟩

end Line

end Runite.Io
