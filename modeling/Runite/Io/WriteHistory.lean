import Runite.Io.WriteCredit

/-!
# The history of tracked writes

`Line` is a writable resource that only tracked writes use, with the history of
their logical writes.  A logical write of a generation begins with the first
poll since the generation's last answer, and takes the next ticket there; it
ends when a poll is answered.

The order of the queue is the order of the tickets, so operations start in the
order of their tickets, and a ticket is only passed over when its token was
dropped.
-/

namespace Runite.Io

open Transition WriteState

/-- The start of an operation, for a logical write. -/
structure Start where
  ticket : Nat
  generation : Generation
  submission : Submission
  deriving DecidableEq

structure Return where
  ticket : Nat
  generation : Generation
  reply : Reply Nat
  deriving DecidableEq

/-- The logical writes so far.  The generation of a ticket is the entry of
`arrivals` at that position; `shutdownAt` is the first ticket after the
shutdown was requested. -/
structure History where
  arrivals : List Generation := []
  ticket : Generation → Option Nat := fun _ => none
  starts : List Start := []
  returns : List Return := []
  shutdownAt : Option Nat := none
  shutdownReplies : List (Reply Unit) := []

namespace History

/-- A poll: the generation has a ticket, or takes the next one. -/
def arrive (h : History) (g : Generation) : History :=
  match h.ticket g with
  | some _ => h
  | none =>
      { h with
        arrivals := h.arrivals ++ [g]
        ticket := Function.update h.ticket g (some h.arrivals.length) }

theorem arrive_of_none {h : History} {g : Generation} (hticket : h.ticket g = none) :
    h.arrive g = { h with
      arrivals := h.arrivals ++ [g]
      ticket := Function.update h.ticket g (some h.arrivals.length) } := by
  simp [arrive, hticket]

theorem arrive_of_some {h : History} {g : Generation} {t : Nat} (hticket : h.ticket g = some t) :
    h.arrive g = h := by
  simp [arrive, hticket]

/-- A generation keeps its ticket when another one takes the next. -/
theorem ticket_arrive_of_some {h : History} {g g' : Generation} {t : Nat}
    (ht : h.ticket g' = some t) : (h.arrive g).ticket g' = some t := by
  unfold arrive
  split
  next => exact ht
  next hticket =>
    have hne : g' ≠ g := by
      rintro rfl
      simp [hticket] at ht
    simpa [hne] using ht

def note (h : History) (g : Generation) (submissions : List Submission) : History :=
  { h with starts := h.starts ++ submissions.map fun sub => ⟨(h.ticket g).getD 0, g, sub⟩ }

def answer (h : History) (g : Generation) (reply : Reply Nat) : History :=
  { h with
    returns := h.returns ++ [⟨(h.ticket g).getD 0, g, reply⟩]
    ticket := Function.update h.ticket g none }

/-- What a poll started and what it answered. -/
def settle (h : History) (g : Generation) (submissions : List Submission) :
    Poll (Reply Nat) → History
  | .pending => h.note g submissions
  | .ready reply => (h.note g submissions).answer g reply

/-- A poll that takes a ticket and is answered at once. -/
theorem answer_arrive {h : History} {g : Generation} (hticket : h.ticket g = none)
    (reply : Reply Nat) :
    (h.arrive g).answer g reply = { h with
      arrivals := h.arrivals ++ [g]
      returns := h.returns ++ [⟨h.arrivals.length, g, reply⟩] } := by
  rw [arrive_of_none hticket]
  simp only [answer, Function.update_self, Function.update_idem, Option.getD_some]
  rw [← hticket, Function.update_eq_self]

theorem nodup_returns_concat {returns : List Return} {r : Return}
    (hnodup : (returns.map (·.ticket)).Nodup) (hr : ∀ r' ∈ returns, r'.ticket ≠ r.ticket) :
    ((returns ++ [r]).map (·.ticket)).Nodup := by
  rw [List.map_append]
  refine List.nodup_append.mpr ⟨hnodup, List.nodup_singleton _, ?_⟩
  intro t ht t' ht'
  obtain ⟨r', hr', rfl⟩ := List.mem_map.mp ht
  obtain rfl : t' = r.ticket := by simpa using ht'
  exact hr r' hr'

@[simp]
theorem note_nil (h : History) (g : Generation) : h.note g [] = h := by
  simp [note]

/-- A write does not change what is known of the shutdown. -/
theorem settle_arrive_shutdown (h : History) (g : Generation) (submissions : List Submission)
    (poll : Poll (Reply Nat)) :
    ((h.arrive g).settle g submissions poll).shutdownAt = h.shutdownAt ∧
      ((h.arrive g).settle g submissions poll).shutdownReplies = h.shutdownReplies := by
  unfold arrive
  split <;> cases poll <;> exact ⟨rfl, rfl⟩

/-- The shutdown is requested, by this poll or by an earlier one. -/
def requestShutdown (h : History) : History :=
  { h with shutdownAt := some (h.shutdownAt.getD h.arrivals.length) }

/-- A poll of the shutdown is answered, or has to wait. -/
def pollShutdown (h : History) : Poll (Reply Unit) → History
  | .pending => h
  | .ready reply => { h with shutdownReplies := h.shutdownReplies ++ [reply] }

end History

/-- A writable resource and the logical writes of its tracked generations. -/
structure Line where
  state : WriteState := {}
  history : History := {}

namespace Line

/-- One call: polls of live tracked generations, drains, flushes, shutdowns,
tokens and completions.  A poll with an empty buffer is no logical write. -/
def step (l : Line) : Call → Option Line
  | .pollWrite waker g buf start =>
      if isTrackedWrite g ∧ (l.state.live g).isSome then
        (l.state.pollWrite waker g buf start).map fun (s', poll) =>
          if buf.bytes = [] then { l with state := s' }
          else
            ⟨s', (l.history.arrive g).settle g
              ((s'.started.drop l.state.started.length).map Prod.snd) poll⟩
      else none
  | .pollBufferedWrite _ _ _ => none
  | .pollFlush waker => (l.state.pollFlush waker).map fun (s', _) => { l with state := s' }
  | .pollDrain waker => (l.state.pollDrain waker).map fun (s', _) => { l with state := s' }
  | .pollShutdown waker start =>
      (l.state.pollShutdown waker start).map fun (s', poll) =>
        ⟨s', l.history.requestShutdown.pollShutdown poll⟩
  | .newToken g => (l.state.newToken g).map fun s' => { l with state := s' }
  | .dropToken g => (l.state.dropToken g).map fun s' => { l with state := s' }
  | .complete result => (l.state.complete result).map fun s' => { l with state := s' }
  | .completeShutdown result =>
      (l.state.completeShutdown result).map fun s' => { l with state := s' }

/-! ## The invariant, in parts -/

structure Queued (s : WriteState) (h : History) : Prop where
  ticket_arrival : ∀ g t, h.ticket g = some t → h.arrivals[t]? = some g
  arrival_issued : ∀ g ∈ h.arrivals, g ∈ s.issued
  queue_ticket : ∀ q ∈ s.queue, ∃ t, h.ticket q.generation = some t ∧
    ∀ x ∈ h.starts, x.ticket < t
  queue_sorted : s.queue.Pairwise fun q q' => ∀ t t', h.ticket q.generation = some t →
    h.ticket q'.generation = some t' → t < t'
  arrival : ∀ t g, h.arrivals[t]? = some g → (∃ x ∈ h.starts, x.ticket = t) ∨
    s.live g = none ∨ (∃ q ∈ s.queue, q.generation = g ∧ h.ticket g = some t) ∨
    ∃ m, h.shutdownAt = some m ∧ m ≤ t ∧ h.ticket g ≠ some t
  starts_sorted : h.starts.Pairwise fun x y => x.ticket < y.ticket
  starts_arrival : ∀ x ∈ h.starts, h.arrivals[x.ticket]? = some x.generation
  shutdown_bound : ∀ m, h.shutdownAt = some m → m ≤ h.arrivals.length ∧
    (∀ x ∈ h.starts, x.ticket < m) ∧
    ∀ q ∈ s.queue, ∀ t, h.ticket q.generation = some t → t < m

/-- What became of the operations that were started. -/
structure Fated (s : WriteState) (h : History) : Prop where
  operation_start : ∀ p g, s.operation = some p → p.kind = .operation g →
    ∃ x ∈ h.starts, x.generation = g ∧ x.submission = p.submission ∧
      h.ticket g = some x.ticket
  completed_start : ∀ g c, s.completed g = some c →
    ∃ x ∈ h.starts, x.generation = g ∧ x.submission = c.source ∧ h.ticket g = some x.ticket
  start_fate : ∀ x ∈ h.starts, (∃ r ∈ h.returns, r.ticket = x.ticket) ∨
    s.live x.generation = none ∨
    (∃ p, s.operation = some p ∧ p.kind = .operation x.generation ∧
      p.submission = x.submission) ∨
    ∃ c, s.completed x.generation = some c ∧ c.source = x.submission
  started : s.started = h.starts.map fun x => (.operation x.generation, x.submission)
  ticket_fresh : ∀ g t, h.ticket g = some t → ∀ r ∈ h.returns, r.ticket ≠ t
  returns_nodup : (h.returns.map (·.ticket)).Nodup
  returned : ∀ r ∈ h.returns, h.arrivals[r.ticket]? = some r.generation ∧
    ((∃ x ∈ h.starts, x.ticket = r.ticket ∧ r.reply.source = some x.submission ∧
      (.operation r.generation, ⟨x.submission, r.reply.result⟩) ∈ s.finished) ∨
    (r.reply = ⟨.error shutDownError, none⟩ ∧ ∃ m, h.shutdownAt = some m ∧ m ≤ r.ticket))

/-- Only tracked writes use the resource. -/
structure Plain (s : WriteState) : Prop where
  operation_tracked : ∀ p, s.operation = some p →
    ∃ g, p.kind = .operation g ∧ isTrackedWrite g = true
  bufferedError : s.bufferedError = none

/-- The shutdown comes after everything else. -/
structure Closing (s : WriteState) (h : History) : Prop where
  requested : s.shutdown.requested = h.shutdownAt.isSome
  phase : (s.shutdown.starts = 0 ∧ s.shutdown.operation = none ∧ s.shutdown.result = none) ∨
    (s.shutdown.starts = 1 ∧ s.shutdown.requested = true ∧ s.operation = none ∧ s.queue = [] ∧
      (s.shutdown.operation.isSome = true ∨ s.shutdown.result.isSome = true))
  replies : ∀ r ∈ h.shutdownReplies, ∃ result, s.shutdown.result = some result ∧
    r = ⟨shutdownReply result, none⟩

variable {s s' t : WriteState} {h : History} {waker : Waker} {g : Generation} {buf : Buf}
  {start : Option (Except IoError Nat)} {p : PendingWrite} {result : Except IoError Nat}
  {l l' : Line}

/-! ## Tickets -/

theorem getElem?_concat_eq_some {α : Type*} {l : List α} {a b : α} {n : Nat} :
    (l ++ [a])[n]? = some b ↔ l[n]? = some b ∨ n = l.length ∧ a = b := by
  rw [List.getElem?_append]
  split
  next hlt => simp [Nat.ne_of_lt hlt]
  next hge =>
    rw [List.getElem?_eq_none (Nat.le_of_not_lt hge)]
    by_cases hn : n = l.length
    · simp [hn]
    · have hpos : n - l.length ≠ 0 := by omega
      simp [hn, hpos]

namespace Queued

theorem congr (hqueued : Queued s h) (hqueue : t.queue = s.queue)
    (hlive : ∀ g, s.live g = none → t.live g = none) (hissued : t.issued = s.issued) :
    Queued t h where
  ticket_arrival := hqueued.ticket_arrival
  arrival_issued := hissued ▸ hqueued.arrival_issued
  queue_ticket := hqueue ▸ hqueued.queue_ticket
  queue_sorted := hqueue ▸ hqueued.queue_sorted
  arrival := by
    intro t' g' hg'
    rw [hqueue]
    exact (hqueued.arrival t' g' hg').imp_right (Or.imp_left (hlive g'))
  starts_sorted := hqueued.starts_sorted
  starts_arrival := hqueued.starts_arrival
  shutdown_bound := hqueue ▸ hqueued.shutdown_bound

theorem cleanup (hqueued : Queued s h) : Queued s.cleanupCancelled h := by
  have hmem : ∀ q ∈ s.cleanupCancelled.queue, q ∈ s.queue := by
    intro q hq
    rw [cleanupCancelled_queue] at hq
    exact List.mem_of_mem_filter hq
  constructor
  · exact hqueued.ticket_arrival
  · simpa using hqueued.arrival_issued
  · exact fun q hq => hqueued.queue_ticket q (hmem q hq)
  · rw [cleanupCancelled_queue]
    exact hqueued.queue_sorted.sublist List.filter_sublist
  · intro t g hg
    rw [cleanupCancelled_live, cleanupCancelled_queue]
    rcases hqueued.arrival t g hg with hx | hdead | ⟨q, hq, rfl, hticket⟩ | hm
    · exact Or.inl hx
    · exact Or.inr (Or.inl hdead)
    · -- a queued write stays, or its token is gone
      by_cases hlive : s.isLiveWrite q.generation = true
      · exact Or.inr (Or.inr (Or.inl ⟨q, List.mem_filter.mpr ⟨hq, hlive⟩, rfl, hticket⟩))
      · have hdead : s.live q.generation = none := by
          simp only [isLiveWrite, Bool.or_eq_true, not_or] at hlive
          simpa using hlive.2
        exact Or.inr (Or.inl hdead)
    · exact Or.inr (Or.inr (Or.inr hm))
  · exact hqueued.starts_sorted
  · exact hqueued.starts_arrival
  · intro m hm
    obtain ⟨hlength, hstarts, hqueue⟩ := hqueued.shutdown_bound m hm
    exact ⟨hlength, hstarts, fun q hq => hqueue q (hmem q hq)⟩

theorem ticket_lt (hqueued : Queued s h) {t : Nat} (ht : h.ticket g = some t) :
    t < h.arrivals.length :=
  (List.getElem?_eq_some_iff.mp (hqueued.ticket_arrival g t ht)).1

theorem start_lt (hqueued : Queued s h) {x : Start} (hx : x ∈ h.starts) :
    x.ticket < h.arrivals.length :=
  (List.getElem?_eq_some_iff.mp (hqueued.starts_arrival x hx)).1

/-- A generation whose ticket was started is not queued. -/
theorem not_queued_of_start (hqueued : Queued s h) {x : Start} (hx : x ∈ h.starts)
    (hticket : h.ticket g = some x.ticket) : ∀ q ∈ s.queue, q.generation ≠ g := by
  rintro q hq rfl
  obtain ⟨t, ht, hlt⟩ := hqueued.queue_ticket q hq
  obtain rfl : x.ticket = t := by simpa [hticket] using ht
  exact Nat.lt_irrefl _ (hlt x hx)

theorem answer (hqueued : Queued s h) {reply : Reply Nat}
    (hqueue : ∀ q ∈ s.queue, q.generation ≠ g) : Queued s (h.answer g reply) := by
  have hother : ∀ q ∈ s.queue, (h.answer g reply).ticket q.generation = h.ticket q.generation := by
    intro q hq
    simp [History.answer, hqueue q hq]
  constructor
  · intro g' t ht
    by_cases hg : g' = g
    · simp [History.answer, hg] at ht
    · exact hqueued.ticket_arrival g' t (by simpa [History.answer, hg] using ht)
  · exact hqueued.arrival_issued
  · intro q hq
    rw [hother q hq]
    exact hqueued.queue_ticket q hq
  · refine hqueued.queue_sorted.imp_of_mem ?_
    intro q q' hq hq' hlt t t'
    rw [hother q hq, hother q' hq']
    exact hlt t t'
  · intro t g' hg'
    rcases hqueued.arrival t g' hg' with hx | hdead | ⟨q, hq, rfl, hticket⟩ | ⟨m, hm, hle, hne⟩
    · exact Or.inl hx
    · exact Or.inr (Or.inl hdead)
    · exact Or.inr (Or.inr (Or.inl ⟨q, hq, rfl, by rw [hother q hq, hticket]⟩))
    · refine Or.inr (Or.inr (Or.inr ⟨m, hm, hle, ?_⟩))
      by_cases hg : g' = g
      · simp [History.answer, hg]
      · simpa [History.answer, hg] using hne
  · exact hqueued.starts_sorted
  · exact hqueued.starts_arrival
  · intro m hm
    obtain ⟨hlength, hstarts, hbound⟩ := hqueued.shutdown_bound m hm
    refine ⟨hlength, hstarts, ?_⟩
    intro q hq t
    rw [hother q hq]
    exact hbound q hq t

/-- A generation without a ticket takes the next one and queues. -/
theorem arrive_append (hqueued : Queued s h) (hticket : h.ticket g = none)
    (hissued : g ∈ s.issued) (hopen : h.shutdownAt = none)
    (hqueue : ∀ q ∈ s.queue, q.generation ≠ g) :
    Queued { s with queue := s.queue ++ [⟨g, waker⟩] } (h.arrive g) := by
  have harrive := History.arrive_of_none hticket
  have hother : ∀ q ∈ s.queue, (h.arrive g).ticket q.generation = h.ticket q.generation := by
    intro q hq
    simp [harrive, hqueue q hq]
  have hself : (h.arrive g).ticket g = some h.arrivals.length := by simp [harrive]
  have hstarts : (h.arrive g).starts = h.starts := by simp [harrive]
  have harrivals : (h.arrive g).arrivals = h.arrivals ++ [g] := by simp [harrive]
  constructor
  · intro g' t ht
    rw [harrivals, getElem?_concat_eq_some]
    by_cases hg : g' = g
    · subst hg
      obtain rfl : h.arrivals.length = t := by simpa [hself] using ht
      exact Or.inr ⟨rfl, rfl⟩
    · exact Or.inl (hqueued.ticket_arrival g' t (by simpa [harrive, hg] using ht))
  · intro g' hg'
    rw [harrivals] at hg'
    rcases List.mem_append.mp hg' with hg' | hg'
    · exact hqueued.arrival_issued g' hg'
    · exact List.mem_singleton.mp hg' ▸ hissued
  · intro q hq
    rw [hstarts]
    rcases List.mem_append.mp hq with hq | hq
    · rw [hother q hq]
      exact hqueued.queue_ticket q hq
    · obtain rfl : q = ⟨g, waker⟩ := by simpa using hq
      exact ⟨_, hself, fun x hx => hqueued.start_lt hx⟩
  · refine List.pairwise_append.mpr ⟨?_, List.pairwise_singleton _ _, ?_⟩
    · refine hqueued.queue_sorted.imp_of_mem ?_
      intro q q' hq hq' hlt t t'
      rw [hother q hq, hother q' hq']
      exact hlt t t'
    · intro q hq q' hq' t t' ht ht'
      obtain rfl : q' = ⟨g, waker⟩ := by simpa using hq'
      obtain rfl : h.arrivals.length = t' := by simpa [hself] using ht'
      exact hqueued.ticket_lt (by rwa [hother q hq] at ht)
  · intro t g' hg'
    rw [harrivals, getElem?_concat_eq_some] at hg'
    rw [hstarts]
    rcases hg' with hg' | ⟨rfl, rfl⟩
    · rcases hqueued.arrival t g' hg' with hx | hdead | ⟨q, hq, rfl, hq'⟩ | ⟨m, hm, -⟩
      · exact Or.inl hx
      · exact Or.inr (Or.inl hdead)
      · exact Or.inr (Or.inr (Or.inl ⟨q, List.mem_append_left _ hq, rfl,
          History.ticket_arrive_of_some hq'⟩))
      · simp [hopen] at hm
    · exact Or.inr (Or.inr (Or.inl ⟨⟨g, waker⟩, by simp, rfl, hself⟩))
  · rw [hstarts]
    exact hqueued.starts_sorted
  · intro x hx
    rw [hstarts] at hx
    rw [harrivals, getElem?_concat_eq_some]
    exact Or.inl (hqueued.starts_arrival x hx)
  · intro m hm
    simp [harrive, hopen] at hm

/-- A generation without a ticket polls after the shutdown request. -/
theorem refuse (hqueued : Queued s h) {reply : Reply Nat} {m : Nat} (hticket : h.ticket g = none)
    (hissued : g ∈ s.issued) (hm : h.shutdownAt = some m) :
    Queued s ((h.arrive g).answer g reply) := by
  rw [History.answer_arrive hticket]
  constructor
  · intro g' t ht
    exact getElem?_concat_eq_some.mpr (Or.inl (hqueued.ticket_arrival g' t ht))
  · intro g' hg'
    rcases List.mem_append.mp hg' with hg' | hg'
    · exact hqueued.arrival_issued g' hg'
    · exact List.mem_singleton.mp hg' ▸ hissued
  · exact hqueued.queue_ticket
  · exact hqueued.queue_sorted
  · intro t g' hg'
    rcases getElem?_concat_eq_some.mp hg' with hg' | ⟨rfl, rfl⟩
    · exact hqueued.arrival t g' hg'
    · refine Or.inr (Or.inr (Or.inr ⟨m, hm, (hqueued.shutdown_bound m hm).1, ?_⟩))
      simp [hticket]
  · exact hqueued.starts_sorted
  · intro x hx
    exact getElem?_concat_eq_some.mpr (Or.inl (hqueued.starts_arrival x hx))
  · intro m' hm'
    obtain ⟨hlength, hrest⟩ := hqueued.shutdown_bound m' hm'
    exact ⟨by simpa using Nat.le_succ_of_le hlength, hrest⟩

theorem begin (hqueued : Queued s h) {front : QueuedWrite} {rest : List QueuedWrite}
    (hqueue : s.queue = front :: rest) (hfront : front.generation = g) (sub : Submission) :
    Queued (s.begin g buf start) (h.note g [sub]) := by
  obtain ⟨t, ht, hlt⟩ := hqueued.queue_ticket front (by simp [hqueue])
  rw [hfront] at ht
  have hsorted := hqueued.queue_sorted
  rw [hqueue, List.pairwise_cons] at hsorted
  have hstarts : (h.note g [sub]).starts = h.starts ++ [⟨t, g, sub⟩] := by
    simp [History.note, ht]
  have hrest : (s.begin g buf start).queue = rest := by simp [hqueue]
  have hmem : ∀ q ∈ rest, q ∈ s.queue := fun q hq => by simp [hqueue, hq]
  have hlast : ∀ x ∈ (h.note g [sub]).starts, x ∈ h.starts ∨ x = ⟨t, g, sub⟩ := by
    simp [hstarts]
  constructor
  · exact hqueued.ticket_arrival
  · exact hqueued.arrival_issued
  · intro q hq
    rw [hrest] at hq
    obtain ⟨t', ht', hlt'⟩ := hqueued.queue_ticket q (hmem q hq)
    refine ⟨t', ht', ?_⟩
    intro x hx
    rcases hlast x hx with hx | rfl
    · exact hlt' x hx
    · exact hsorted.1 q hq t t' (hfront ▸ ht) ht'
  · rw [hrest]
    exact hsorted.2
  · intro t' g' hg'
    rw [hrest]
    rcases hqueued.arrival t' g' hg' with ⟨x, hx, hxt⟩ | hdead | ⟨q, hq, rfl, hq'⟩ | hm
    · exact Or.inl ⟨x, by simp [hstarts, hx], hxt⟩
    · exact Or.inr (Or.inl hdead)
    · rw [hqueue] at hq
      rcases List.mem_cons.mp hq with rfl | hq
      · obtain rfl : t = t' := by simpa [hfront, ht] using hq'
        exact Or.inl ⟨⟨t, g, sub⟩, by simp [hstarts], rfl⟩
      · exact Or.inr (Or.inr (Or.inl ⟨q, hq, rfl, hq'⟩))
    · exact Or.inr (Or.inr (Or.inr hm))
  · rw [hstarts]
    refine List.pairwise_append.mpr ⟨hqueued.starts_sorted, List.pairwise_singleton _ _, ?_⟩
    intro x hx y hy
    obtain rfl : y = ⟨t, g, sub⟩ := by simpa using hy
    exact hlt x hx
  · intro x hx
    rcases hlast x hx with hx | rfl
    · exact hqueued.starts_arrival x hx
    · exact hqueued.ticket_arrival g t ht
  · intro m hm
    obtain ⟨hlength, hbefore, hbound⟩ := hqueued.shutdown_bound m hm
    refine ⟨hlength, ?_, fun q hq => hbound q (hmem q (hrest ▸ hq))⟩
    intro x hx
    rcases hlast x hx with hx | rfl
    · exact hbefore x hx
    · exact hbound front (by simp [hqueue]) t (hfront ▸ ht)

theorem issue (hqueued : Queued s h) (hfresh : g ∉ s.issued) : Queued (s.issue g) h where
  ticket_arrival := hqueued.ticket_arrival
  arrival_issued := fun g' hg' => List.mem_append_left _ (hqueued.arrival_issued g' hg')
  queue_ticket := hqueued.queue_ticket
  queue_sorted := hqueued.queue_sorted
  arrival := by
    intro t g' hg'
    have hne : g' ≠ g := by
      rintro rfl
      exact hfresh (hqueued.arrival_issued g' (List.mem_of_getElem? hg'))
    simpa [hne] using hqueued.arrival t g' hg'
  starts_sorted := hqueued.starts_sorted
  starts_arrival := hqueued.starts_arrival
  shutdown_bound := hqueued.shutdown_bound

theorem requestShutdown (hqueued : Queued s h) : Queued s.requestShutdown h.requestShutdown where
  ticket_arrival := hqueued.ticket_arrival
  arrival_issued := hqueued.arrival_issued
  queue_ticket := hqueued.queue_ticket
  queue_sorted := hqueued.queue_sorted
  arrival := by
    intro t g' hg'
    refine (hqueued.arrival t g' hg').imp_right (Or.imp_right (Or.imp_right ?_))
    rintro ⟨m, hm, hle, hne⟩
    exact ⟨m, by simp [History.requestShutdown, hm], hle, hne⟩
  starts_sorted := hqueued.starts_sorted
  starts_arrival := hqueued.starts_arrival
  shutdown_bound := by
    intro m hm
    cases hold : h.shutdownAt with
    | some m' =>
        obtain rfl : m' = m := by simpa [History.requestShutdown, hold] using hm
        exact hqueued.shutdown_bound m' hold
    | none =>
        obtain rfl : h.arrivals.length = m := by simpa [History.requestShutdown, hold] using hm
        exact ⟨Nat.le_refl _, fun x hx => hqueued.start_lt hx, fun q _ t ht => hqueued.ticket_lt ht⟩

end Queued

/-! ## The operations that were started -/

namespace Fated

/-- The operation in flight stays, up to who waits for it and whether it has finished. -/
theorem congr (hfated : Fated s h)
    (hop : t.operation.map (fun p => (p.kind, p.submission)) =
      s.operation.map fun p => (p.kind, p.submission))
    (hcompleted : t.completed = s.completed)
    (hlive : ∀ g, s.live g = none → t.live g = none) (hstarted : t.started = s.started)
    (hfinished : t.finished = s.finished) : Fated t h := by
  have hback : ∀ p, t.operation = some p →
      ∃ p', s.operation = some p' ∧ p'.kind = p.kind ∧ p'.submission = p.submission := by
    intro p hp
    rw [hp] at hop
    obtain ⟨p', hp', heq⟩ := Option.map_eq_some_iff.mp hop.symm
    exact ⟨p', hp', (Prod.mk.inj heq).1, (Prod.mk.inj heq).2⟩
  have hforth : ∀ p, s.operation = some p →
      ∃ p', t.operation = some p' ∧ p'.kind = p.kind ∧ p'.submission = p.submission := by
    intro p hp
    rw [hp] at hop
    obtain ⟨p', hp', heq⟩ := Option.map_eq_some_iff.mp hop
    exact ⟨p', hp', (Prod.mk.inj heq).1, (Prod.mk.inj heq).2⟩
  constructor
  · intro p g hp hkind
    obtain ⟨p', hp', hkind', hsub'⟩ := hback p hp
    rw [← hsub']
    exact hfated.operation_start p' g hp' (hkind'.trans hkind)
  · rw [hcompleted]
    exact hfated.completed_start
  · intro x hx
    rw [hcompleted]
    rcases hfated.start_fate x hx with hr | hdead | ⟨p, hp, hkind, hsub⟩ | hc
    · exact Or.inl hr
    · exact Or.inr (Or.inl (hlive _ hdead))
    · obtain ⟨p', hp', hkind', hsub'⟩ := hforth p hp
      exact Or.inr (Or.inr (Or.inl ⟨p', hp', hkind'.trans hkind, hsub'.trans hsub⟩))
    · exact Or.inr (Or.inr (Or.inr hc))
  · exact hstarted.trans hfated.started
  · exact hfated.ticket_fresh
  · exact hfated.returns_nodup
  · rw [hfinished]
    exact hfated.returned

theorem cleanup (hfated : Fated s h) (hvalid : s.Valid) : Fated s.cleanupCancelled h where
  operation_start := by simpa using hfated.operation_start
  completed_start := by
    intro g c hc
    rw [cleanupCancelled_completed] at hc
    split at hc
    · exact hfated.completed_start g c hc
    · cases hc
  start_fate := by
    intro x hx
    rw [cleanupCancelled_operation, cleanupCancelled_live, cleanupCancelled_completed]
    rcases hfated.start_fate x hx with hr | hdead | hop | ⟨c, hc, hsource⟩
    · exact Or.inl hr
    · exact Or.inr (Or.inl hdead)
    · exact Or.inr (Or.inr (Or.inl hop))
    · -- a kept result stays, or its token is gone
      by_cases hlive : s.isLiveWrite x.generation = true
      · exact Or.inr (Or.inr (Or.inr ⟨c, by simp [hlive, hc], hsource⟩))
      · have htracked := hvalid.completed_tracked _ _ hc
        exact Or.inr (Or.inl (by simpa [isLiveWrite, htracked] using hlive))
  started := by simpa using hfated.started
  ticket_fresh := hfated.ticket_fresh
  returns_nodup := hfated.returns_nodup
  returned := by simpa using hfated.returned

theorem return_lt (hfated : Fated s h) {r : Return} (hr : r ∈ h.returns) :
    r.ticket < h.arrivals.length :=
  (List.getElem?_eq_some_iff.mp (hfated.returned r hr).1).1

theorem start_of_submission (hfated : Fated s h) (hvalid : s.Valid) {x y : Start}
    (hx : x ∈ h.starts) (hy : y ∈ h.starts) (hsub : x.submission = y.submission) : x = y := by
  have hnodup : (h.starts.map (·.submission.id)).Nodup := by
    have hids := hvalid.ids
    rw [hfated.started, List.map_map] at hids
    have hrange := List.nodup_range (n := (h.starts.map fun x =>
      (WriteKind.operation x.generation, x.submission)).length)
    rw [← hids] at hrange
    exact hrange
  exact List.inj_on_of_nodup_map hnodup hx hy (congrArg (·.id) hsub)

/-- A generation that takes a new ticket has nothing in flight and nothing kept. -/
theorem arrive (hfated : Fated s h) : Fated s (h.arrive g) := by
  cases hticket : h.ticket g with
  | some t => rwa [History.arrive_of_some hticket]
  | none =>
      have harrive := History.arrive_of_none hticket
      constructor
      · intro p g' hp hkind
        obtain ⟨x, hx, hgeneration, hsub, ht⟩ := hfated.operation_start p g' hp hkind
        exact ⟨x, by simpa [harrive] using hx, hgeneration, hsub,
          History.ticket_arrive_of_some ht⟩
      · intro g' c hc
        obtain ⟨x, hx, hgeneration, hsub, ht⟩ := hfated.completed_start g' c hc
        exact ⟨x, by simpa [harrive] using hx, hgeneration, hsub,
          History.ticket_arrive_of_some ht⟩
      · simpa [harrive] using hfated.start_fate
      · simpa [harrive] using hfated.started
      · intro g' t ht r hr
        have hr' : r ∈ h.returns := by simpa [harrive] using hr
        by_cases hg : g' = g
        · obtain rfl : h.arrivals.length = t := by simpa [harrive, hg] using ht
          exact Nat.ne_of_lt (hfated.return_lt hr')
        · exact hfated.ticket_fresh g' t (by simpa [harrive, hg] using ht) r hr'
      · simpa [harrive] using hfated.returns_nodup
      · intro r hr
        have hr' : r ∈ h.returns := by simpa [harrive] using hr
        obtain ⟨harrival, hrest⟩ := hfated.returned r hr'
        refine ⟨?_, by simpa [harrive] using hrest⟩
        simp only [harrive, getElem?_concat_eq_some]
        exact Or.inl harrival

/-- A generation is answered, with the result of the operation of its ticket. -/
theorem answer (hfated : Fated s h) (hqueued : Queued s h) (hvalid : s.Valid) {x : Start}
    {reply : Reply Nat} (hx : x ∈ h.starts) (hxg : x.generation = g)
    (hticket : h.ticket g = some x.ticket)
    (hop : ∀ p, t.operation = some p → s.operation = some p ∧ p.kind ≠ .operation g)
    (hkept : ∀ p, s.operation = some p → p.kind ≠ .operation g → t.operation = some p)
    (hcompleted : t.completed = Function.update s.completed g none)
    (hlive : t.live = s.live) (hstarted : t.started = s.started)
    (hfinished : ∀ f ∈ s.finished, f ∈ t.finished) (hsource : reply.source = some x.submission)
    (hmem : (.operation g, ⟨x.submission, reply.result⟩) ∈ t.finished) :
    Fated t (h.answer g reply) := by
  have hreturns : (h.answer g reply).returns = h.returns ++ [⟨x.ticket, g, reply⟩] := by
    simp [History.answer, hticket]
  have hold : ∀ r ∈ h.returns, r ∈ (h.answer g reply).returns := by
    intro r hr
    simp [hreturns, hr]
  have hnew : (⟨x.ticket, g, reply⟩ : Return) ∈ (h.answer g reply).returns := by
    simp [hreturns]
  have hother : ∀ g', g' ≠ g → (h.answer g reply).ticket g' = h.ticket g' := by
    intro g' hg'
    simp [History.answer, hg']
  -- a start of this generation with the submission of its ticket is `x`
  have hsame : ∀ y ∈ h.starts, ∀ z ∈ h.starts, z.submission = y.submission →
      h.ticket g = some z.ticket → y.ticket = x.ticket := by
    intro y hy z hz hsub hz'
    obtain rfl := hfated.start_of_submission hvalid hz hy hsub
    simpa [hticket] using hz'.symm
  constructor
  · intro p g' hp hkind
    obtain ⟨hp', hne⟩ := hop p hp
    have hg' : g' ≠ g := by
      rintro rfl
      exact hne hkind
    rw [hother g' hg']
    exact hfated.operation_start p g' hp' hkind
  · intro g' c hc
    have hg' : g' ≠ g := by
      rintro rfl
      simp [hcompleted] at hc
    rw [hother g' hg']
    exact hfated.completed_start g' c (by simpa [hcompleted, hg'] using hc)
  · intro y hy
    rw [hlive]
    rcases hfated.start_fate y hy with ⟨r, hr, hrt⟩ | hdead | ⟨p, hp, hkind, hsub⟩ | ⟨c, hc, hsub⟩
    · exact Or.inl ⟨r, hold r hr, hrt⟩
    · exact Or.inr (Or.inl hdead)
    · by_cases hg' : y.generation = g
      · obtain ⟨z, hz, -, hzsub, hz'⟩ := hfated.operation_start p g hp (hg' ▸ hkind)
        exact Or.inl ⟨_, hnew, (hsame y hy z hz (hzsub.trans hsub) hz').symm⟩
      · have hne : p.kind ≠ .operation g := by simpa [hkind] using hg'
        exact Or.inr (Or.inr (Or.inl ⟨p, hkept p hp hne, hkind, hsub⟩))
    · by_cases hg' : y.generation = g
      · obtain ⟨z, hz, -, hzsub, hz'⟩ := hfated.completed_start g c (hg' ▸ hc)
        exact Or.inl ⟨_, hnew, (hsame y hy z hz (hzsub.trans hsub) hz').symm⟩
      · exact Or.inr (Or.inr (Or.inr ⟨c, by simpa [hcompleted, hg'] using hc, hsub⟩))
  · exact hstarted.trans hfated.started
  · intro g' t' ht' r hr
    have hg' : g' ≠ g := by
      rintro rfl
      simp [History.answer] at ht'
    rw [hother g' hg'] at ht'
    rw [hreturns] at hr
    rcases List.mem_append.mp hr with hr | hr
    · exact hfated.ticket_fresh g' t' ht' r hr
    · obtain rfl : r = ⟨x.ticket, g, reply⟩ := by simpa using hr
      rintro rfl
      have hg := hqueued.ticket_arrival g' _ ht'
      rw [hqueued.ticket_arrival g _ hticket] at hg
      exact hg' (by simpa using hg.symm)
  · rw [hreturns]
    exact History.nodup_returns_concat hfated.returns_nodup (hfated.ticket_fresh g _ hticket)
  · intro r hr
    rw [hreturns] at hr
    rcases List.mem_append.mp hr with hr | hr
    · obtain ⟨harrival, hrest⟩ := hfated.returned r hr
      refine ⟨harrival, hrest.imp_left ?_⟩
      rintro ⟨y, hy, hyt, hysource, hymem⟩
      exact ⟨y, hy, hyt, hysource, hfinished _ hymem⟩
    · obtain rfl : r = ⟨x.ticket, g, reply⟩ := by simpa using hr
      exact ⟨hqueued.ticket_arrival g _ hticket, Or.inl ⟨x, hx, rfl, hsource, hmem⟩⟩

/-- A new ticket after the shutdown request is refused. -/
theorem refuse (hfated : Fated s h) (hqueued : Queued s h) {m : Nat}
    (hticket : h.ticket g = none) (hm : h.shutdownAt = some m) :
    Fated s ((h.arrive g).answer g ⟨.error shutDownError, none⟩) := by
  rw [History.answer_arrive hticket]
  constructor
  · exact hfated.operation_start
  · exact hfated.completed_start
  · intro x hx
    refine (hfated.start_fate x hx).imp_left ?_
    rintro ⟨r, hr, hrt⟩
    exact ⟨r, List.mem_append_left _ hr, hrt⟩
  · exact hfated.started
  · intro g' t' ht' r hr
    rcases List.mem_append.mp hr with hr | hr
    · exact hfated.ticket_fresh g' t' ht' r hr
    · obtain rfl := List.mem_singleton.mp hr
      exact Nat.ne_of_gt (hqueued.ticket_lt ht')
  · exact History.nodup_returns_concat hfated.returns_nodup
      fun r hr => Nat.ne_of_lt (hfated.return_lt hr)
  · intro r hr
    rcases List.mem_append.mp hr with hr | hr
    · obtain ⟨harrival, hrest⟩ := hfated.returned r hr
      exact ⟨getElem?_concat_eq_some.mpr (Or.inl harrival), hrest⟩
    · obtain rfl := List.mem_singleton.mp hr
      exact ⟨getElem?_concat_eq_some.mpr (Or.inr ⟨rfl, rfl⟩),
        Or.inr ⟨rfl, m, hm, (hqueued.shutdown_bound m hm).1⟩⟩

/-- The result of the operation in flight is kept, or its token is gone. -/
theorem handOver (hfated : Fated s h) (hvalid : s.Valid) (hplain : Plain s)
    (hop : s.operation = some p) : Fated (s.handOver p waker result) h := by
  obtain ⟨g₀, hkind, htracked⟩ := hplain.operation_tracked p hop
  constructor
  · simp
  · intro g c hc
    rw [handOver_completed] at hc
    split at hc
    next hkept =>
      obtain rfl : ⟨p.submission, result⟩ = c := by simpa using hc
      exact hfated.operation_start p g hop hkept.1
    next => exact hfated.completed_start g c hc
  · intro x hx
    rw [handOver_live]
    rcases hfated.start_fate x hx with hr | hdead | ⟨p', hp', hkind', hsub⟩ | ⟨c, hc, hsub⟩
    · exact Or.inl hr
    · exact Or.inr (Or.inl hdead)
    · obtain rfl : p = p' := by simpa [hop] using hp'
      obtain rfl : g₀ = x.generation := by simpa [hkind] using hkind'
      by_cases hlive : s.isLiveWrite x.generation = true
      · refine Or.inr (Or.inr (Or.inr ⟨⟨p.submission, result⟩, ?_, hsub⟩))
        simp [hkind, htracked, hlive]
      · exact Or.inr (Or.inl (by simpa [isLiveWrite, htracked] using hlive))
    · by_cases hkept : p.kind = .operation x.generation ∧ isTrackedWrite x.generation = true ∧
          s.isLiveWrite x.generation = true
      · simp [hvalid.inFlight_completed p _ hop hkept.1] at hc
      · refine Or.inr (Or.inr (Or.inr ⟨c, ?_, hsub⟩))
        rw [handOver_completed, if_neg hkept]
        exact hc
  · simpa using hfated.started
  · exact hfated.ticket_fresh
  · exact hfated.returns_nodup
  · intro r hr
    obtain ⟨harrival, hrest⟩ := hfated.returned r hr
    refine ⟨harrival, hrest.imp_left ?_⟩
    rintro ⟨y, hy, hyt, hysource, hymem⟩
    exact ⟨y, hy, hyt, hysource, by simp [hymem]⟩

theorem begin (hfated : Fated s h) (hidle : s.operation = none) {t : Nat}
    (hticket : h.ticket g = some t) :
    Fated (s.begin g buf start) (h.note g [s.submission buf]) := by
  have hstarts : (h.note g [s.submission buf]).starts =
      h.starts ++ [⟨t, g, s.submission buf⟩] := by
    simp [History.note, hticket]
  have hold : ∀ x ∈ h.starts, x ∈ (h.note g [s.submission buf]).starts := by
    intro x hx
    simp [hstarts, hx]
  constructor
  · intro p g' hp hkind
    obtain rfl : s.newWrite g buf start = p := by simpa using hp
    obtain rfl : g = g' := by simpa using hkind
    exact ⟨⟨t, g, s.submission buf⟩, by simp [hstarts], rfl, rfl, hticket⟩
  · intro g' c hc
    obtain ⟨x, hx, hrest⟩ := hfated.completed_start g' c hc
    exact ⟨x, hold x hx, hrest⟩
  · intro x hx
    rw [hstarts] at hx
    rcases List.mem_append.mp hx with hx | hx
    · rcases hfated.start_fate x hx with hr | hdead | ⟨p, hp, -⟩ | hc
      · exact Or.inl hr
      · exact Or.inr (Or.inl hdead)
      · simp [hidle] at hp
      · exact Or.inr (Or.inr (Or.inr hc))
    · obtain rfl : x = ⟨t, g, s.submission buf⟩ := by simpa using hx
      exact Or.inr (Or.inr (Or.inl ⟨_, rfl, rfl, rfl⟩))
  · simp [hstarts, hfated.started]
  · exact hfated.ticket_fresh
  · exact hfated.returns_nodup
  · intro r hr
    obtain ⟨harrival, hrest⟩ := hfated.returned r hr
    refine ⟨harrival, hrest.imp_left ?_⟩
    rintro ⟨y, hy, hrest⟩
    exact ⟨y, hold y hy, hrest⟩

theorem issue (hfated : Fated s h) (hqueued : Queued s h) (hfresh : g ∉ s.issued) :
    Fated (s.issue g) h where
  operation_start := hfated.operation_start
  completed_start := hfated.completed_start
  start_fate := by
    intro x hx
    have hne : x.generation ≠ g := by
      rintro rfl
      exact hfresh (hqueued.arrival_issued _ (List.mem_of_getElem? (hqueued.starts_arrival x hx)))
    simpa [hne] using hfated.start_fate x hx
  started := hfated.started
  ticket_fresh := hfated.ticket_fresh
  returns_nodup := hfated.returns_nodup
  returned := hfated.returned

theorem requestShutdown (hfated : Fated s h) : Fated s.requestShutdown h.requestShutdown where
  operation_start := hfated.operation_start
  completed_start := hfated.completed_start
  start_fate := hfated.start_fate
  started := hfated.started
  ticket_fresh := hfated.ticket_fresh
  returns_nodup := hfated.returns_nodup
  returned := by
    intro r hr
    obtain ⟨harrival, hrest⟩ := hfated.returned r hr
    refine ⟨harrival, hrest.imp_right ?_⟩
    rintro ⟨hreply, m, hm, hle⟩
    exact ⟨hreply, m, by simp [History.requestShutdown, hm], hle⟩

end Fated

end Line

end Runite.Io
