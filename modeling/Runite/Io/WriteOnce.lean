import Runite.Io.WriteErrors

/-!
# Raw writers that poll the same buffer until it is written

`Callers` is a writable resource with the raw callers that wait on it.  A
caller keeps to the contract of `poll_write`: it polls its own unchanged buffer
until it gets an answer, and no two callers that wait have the same buffer.

The code keeps one completion for all of them.  A caller is submitted exactly
once as long as that completion is not displaced by another one and no flush
takes the failure that a caller still waits for.
-/

namespace Runite.Io

open Transition WriteState

/-- A raw caller: its generation, its buffer, and the submissions that the
factories it passed have made. -/
structure Caller where
  generation : Generation
  buf : Buf
  submissions : List Submission := []
  deriving DecidableEq

/-- A writable resource, the callers that wait, by their buffers, and the
callers that were answered. -/
structure Callers where
  state : WriteState := {}
  waiting : WriteIdentity → Option Caller := fun _ => none
  answered : List (Caller × Reply Nat) := []

namespace Callers

/-- The caller of a poll, with the submissions of that poll. -/
def caller (σ : Callers) (generation : Generation) (buf : Buf) (s' : WriteState) : Caller :=
  let c := (σ.waiting (.of buf)).getD { generation := generation, buf := buf }
  { c with submissions := c.submissions ++
      (s'.started.drop σ.state.started.length).map Prod.snd }

/-- A poll of `poll_write`: the caller waits, or has its answer and leaves. -/
def pollWrite (σ : Callers) (waker : Waker) (generation : Generation) (buf : Buf)
    (start : Option (Except IoError Nat)) : Option Callers :=
  (σ.state.pollWrite waker generation buf start).map fun
    | (s', .pending) =>
        { σ with
          state := s'
          waiting := Function.update σ.waiting (.of buf) (some (σ.caller generation buf s')) }
    | (s', .ready reply) =>
        { state := s'
          waiting := Function.update σ.waiting (.of buf) none
          answered := σ.answered ++ [(σ.caller generation buf s', reply)] }

/-- Raw polls, flushes, drains and completions. -/
def step (σ : Callers) : Call → Option Callers
  | .pollWrite waker generation buf start => σ.pollWrite waker generation buf start
  | .pollFlush waker => (σ.state.pollFlush waker).map fun (s', _) => { σ with state := s' }
  | .pollDrain waker => (σ.state.pollDrain waker).map fun (s', _) => { σ with state := s' }
  | .complete result => (σ.state.complete result).map fun s' => { σ with state := s' }
  | _ => none

/-- The callers keep to their contract: a poll is a raw one with a non-empty
buffer, and a caller that already waits for this buffer is the one that polls. -/
def Contract (σ : Callers) : Call → Prop
  | .pollWrite _ generation buf _ =>
      isTrackedWrite generation = false ∧ buf.bytes ≠ [] ∧
        ∀ c ∈ σ.waiting (.of buf), c.generation = generation ∧ c.buf = buf
  | _ => True

instance (σ : Callers) : DecidablePred σ.Contract
  | .pollWrite _ _ _ _ => inferInstanceAs (Decidable (_ ∧ _ ∧ _))
  | .pollBufferedWrite _ _ _ => instDecidableTrue
  | .pollFlush _ => instDecidableTrue
  | .pollDrain _ => instDecidableTrue
  | .pollShutdown _ _ => instDecidableTrue
  | .newToken _ => instDecidableTrue
  | .dropToken _ => instDecidableTrue
  | .complete _ => instDecidableTrue
  | .completeShutdown _ => instDecidableTrue

/-- The call is a `poll_flush`. -/
def isFlush : Call → Bool
  | .pollFlush _ => true
  | _ => false

/-- The call takes a finished result that it does not own while another one is
still retained, or it is a flush that finds a failure. -/
def Loses (s : WriteState) (call : Call) : Bool :=
  match s.operation with
  | some p =>
      match p.operation.outcome with
      | some (.ok _) => s.TakesOver p call && s.untrackedCompleted.isSome
      | some (.error _) =>
          s.TakesOver p call && s.untrackedCompleted.isSome || isFlush call
      | none => false
  | none => isFlush call && s.untrackedError.isSome

theorem not_takesOver_of_not_loses {s : WriteState} {call : Call} {p : PendingWrite}
    {result : Except IoError Nat} (h : Loses s call = false) (hop : s.operation = some p)
    (houtcome : p.operation.outcome = some result) (htakes : s.TakesOver p call = true) :
    s.untrackedCompleted = none := by
  cases result <;> simp_all [Loses]

/-! ## The invariant -/

structure Raw (s : WriteState) : Prop where
  completed : ∀ g, s.completed g = none
  queue : s.queue = []
  requested : s.shutdown.requested = false
  bufferedError : s.bufferedError = none

/-- The operation in flight and the retained completion belong to waiting
callers that submitted once, and every other waiting caller did not submit. -/
structure Linked (s : WriteState) (waiting : WriteIdentity → Option Caller) : Prop where
  waiting_key : ∀ i c, waiting i = some c → i = .of c.buf
  operation_waits : ∀ p, s.operation = some p → ∃ c, waiting (.of c.buf) = some c ∧
    p.kind = .operation c.generation ∧ p.identity = some (.of c.buf) ∧
    c.submissions = [p.submission] ∧ p.submission.data = c.buf.bytes
  retained_waits : ∀ i d, s.untrackedCompleted = some (i, d) → ∃ c, waiting i = some c ∧
    c.submissions = [d.source] ∧ d.source.data = c.buf.bytes ∧
    (.operation c.generation, d) ∈ s.finished
  apart : ∀ p i d, s.operation = some p → s.untrackedCompleted = some (i, d) →
    p.identity ≠ some i
  submitted : ∀ i c, waiting i = some c → c.submissions = [] ∨
    (∃ p, s.operation = some p ∧ p.identity = some i) ∨
    ∃ d, s.untrackedCompleted = some (i, d)

/-- The caller was submitted once and got the result of that submission. -/
def Once (s : WriteState) (c : Caller) (reply : Reply Nat) : Prop :=
  ∃ sub, c.submissions = [sub] ∧ sub.data = c.buf.bytes ∧ reply.source = some sub ∧
    (.operation c.generation, ⟨sub, reply.result⟩) ∈ s.finished

structure Orderly (σ : Callers) : Prop where
  raw : Raw σ.state
  linked : Linked σ.state σ.waiting
  once : ∀ c reply, (c, reply) ∈ σ.answered → Once σ.state c reply

variable {s s' : WriteState} {waiting : WriteIdentity → Option Caller} {waker : Waker}
  {generation : Generation} {buf : Buf} {start : Option (Except IoError Nat)}
  {p : PendingWrite} {result : Except IoError Nat} {σ σ' : Callers}

namespace Raw

theorem clean (h : Raw s) : s.Clean where
  queue_live := by simp [h.queue]
  completed_live := by simp [h.completed]

theorem congr {t : WriteState} (h : Raw s) (hcompleted : t.completed = s.completed)
    (hqueue : t.queue = s.queue) (hshutdown : t.shutdown = s.shutdown)
    (herror : t.bufferedError = s.bufferedError) : Raw t := by
  obtain ⟨h₁, h₂, h₃, h₄⟩ := h
  constructor <;> simpa only [hcompleted, hqueue, hshutdown, herror]

/-- A raw operation leaves its result in the retained completion only. -/
theorem handOver (h : Raw s) {g : Generation} (hkind : p.kind = .operation g)
    (huntracked : isTrackedWrite g = false) : Raw (s.handOver p waker result) where
  completed := by
    intro g'
    rw [handOver_completed, if_neg, h.completed]
    rintro ⟨hkind', htracked, -⟩
    obtain rfl : g = g' := by simpa [hkind] using hkind'
    simp [huntracked] at htracked
  queue := by simp [h.queue]
  requested := by simp [h.requested]
  bufferedError := by simp [handOver_bufferedError, hkind, h.bufferedError]

theorem begin (h : Raw s) : Raw (s.begin generation buf start) :=
  ⟨h.completed, by simp [h.queue], h.requested, h.bufferedError⟩

end Raw

namespace Linked

theorem replace {t : WriteState} {p' : PendingWrite} (h : Linked s waiting)
    (hop : s.operation = some p) (hop' : t.operation = some p') (hkind : p'.kind = p.kind)
    (hidentity : p'.identity = p.identity) (hsubmission : p'.submission = p.submission)
    (huntracked : t.untrackedCompleted = s.untrackedCompleted)
    (hfinished : t.finished = s.finished) : Linked t waiting where
  waiting_key := h.waiting_key
  operation_waits := by
    intro q hq
    obtain rfl : p' = q := by simpa [hop'] using hq
    rw [hkind, hidentity, hsubmission]
    exact h.operation_waits p hop
  retained_waits := by
    rw [huntracked, hfinished]
    exact h.retained_waits
  apart := by
    intro q i d hq hd
    obtain rfl : p' = q := by simpa [hop'] using hq
    rw [hidentity]
    exact h.apart p i d hop (huntracked ▸ hd)
  submitted := by
    intro i c hc
    rw [huntracked]
    refine (h.submitted i c hc).imp_right (Or.imp_left ?_)
    rintro ⟨q, hq, hi⟩
    obtain rfl : p = q := by simpa [hop] using hq
    exact ⟨p', hop', hidentity ▸ hi⟩

/-- The result of the operation in flight is retained for its caller. -/
theorem handOver (h : Linked s waiting) (hop : s.operation = some p)
    (hslot : s.untrackedCompleted = none) : Linked (s.handOver p waker result) waiting := by
  obtain ⟨c, hc, hkind, hidentity, hsubmissions, hdata⟩ := h.operation_waits p hop
  have hretained : (s.handOver p waker result).untrackedCompleted =
      some (.of c.buf, ⟨p.submission, result⟩) := by
    simp [handOver_untrackedCompleted, hidentity]
  constructor
  · exact h.waiting_key
  · simp
  · intro i d hd
    obtain ⟨rfl, rfl⟩ : .of c.buf = i ∧ ⟨p.submission, result⟩ = d := by
      simpa [hretained] using hd
    exact ⟨c, hc, hsubmissions, hdata, by simp [hkind]⟩
  · simp
  · intro i c' hc'
    rcases h.submitted i c' hc' with hnone | ⟨q, hq, hi⟩ | ⟨d, hd⟩
    · exact Or.inl hnone
    · obtain rfl : p = q := by simpa [hop] using hq
      obtain rfl : .of c.buf = i := by simpa [hidentity] using hi
      exact Or.inr (Or.inr ⟨_, hretained⟩)
    · simp [hslot] at hd

/-- A caller that waits after `i` left is another one, and waited before. -/
theorem of_update_none {i j : WriteIdentity} {c : Caller}
    (hc : Function.update waiting i none j = some c) : j ≠ i ∧ waiting j = some c := by
  by_cases hj : j = i
  · simp [hj] at hc
  · exact ⟨hj, by simpa [hj] using hc⟩

/-- A caller whose submission is neither in flight nor retained leaves. -/
theorem leave {t : WriteState} {i : WriteIdentity} (h : Linked s waiting)
    (hidle : s.operation = none) (hslot : ∀ d, s.untrackedCompleted ≠ some (i, d))
    (hidle' : t.operation = none) (huntracked : t.untrackedCompleted = s.untrackedCompleted)
    (hfinished : ∀ f ∈ s.finished, f ∈ t.finished) :
    Linked t (Function.update waiting i none) where
  waiting_key := fun j c hc => h.waiting_key j c (of_update_none hc).2
  operation_waits := by simp [hidle']
  retained_waits := by
    intro j d hd
    rw [huntracked] at hd
    have hj : j ≠ i := by
      rintro rfl
      exact hslot d hd
    obtain ⟨c, hc, hsubmissions, hdata, hmem⟩ := h.retained_waits j d hd
    exact ⟨c, by simpa [hj] using hc, hsubmissions, hdata, hfinished _ hmem⟩
  apart := by simp [hidle']
  submitted := by
    intro j c hc
    rcases h.submitted j c (of_update_none hc).2 with hnone | ⟨q, hq, -⟩ | ⟨d, hd⟩
    · exact Or.inl hnone
    · simp [hidle] at hq
    · exact Or.inr (Or.inr ⟨d, huntracked ▸ hd⟩)

/-- The owner of the operation in flight takes its result and leaves. -/
theorem finish {i : WriteIdentity} (h : Linked s waiting) (hop : s.operation = some p)
    (hi : p.identity = some i) :
    Linked (s.finish p waker result).wakeReadyWaiters (Function.update waiting i none) where
  waiting_key := fun j c hc => h.waiting_key j c (of_update_none hc).2
  operation_waits := by simp
  retained_waits := by
    intro j d hd
    have hj : j ≠ i := by
      rintro rfl
      exact h.apart p j d hop hd hi
    obtain ⟨c, hc, hsubmissions, hdata, hmem⟩ := h.retained_waits j d hd
    exact ⟨c, by simpa [hj] using hc, hsubmissions, hdata, List.mem_append_left _ hmem⟩
  apart := by simp
  submitted := by
    intro j c hc
    obtain ⟨hj, hc⟩ := of_update_none hc
    rcases h.submitted j c hc with hnone | ⟨q, hq, hqi⟩ | hd
    · exact Or.inl hnone
    · obtain rfl : p = q := by simpa [hop] using hq
      exact absurd (by simpa [hi] using hqi.symm) hj
    · exact Or.inr (Or.inr hd)

/-- The owner of the retained completion takes it and leaves. -/
theorem takeUntrackedCompleted {i : WriteIdentity} {d : Completion} (h : Linked s waiting)
    (hd : s.untrackedCompleted = some (i, d)) :
    Linked s.takeUntrackedCompleted (Function.update waiting i none) where
  waiting_key := fun j c hc => h.waiting_key j c (of_update_none hc).2
  operation_waits := by
    intro p hop
    obtain ⟨c, hc, hkind, hidentity, hrest⟩ := h.operation_waits p hop
    have hne : WriteIdentity.of c.buf ≠ i := by
      rintro rfl
      exact h.apart p _ d hop hd hidentity
    exact ⟨c, by simpa [hne] using hc, hkind, hidentity, hrest⟩
  retained_waits := by simp
  apart := by simp
  submitted := by
    intro j c hc
    obtain ⟨hj, hc⟩ := of_update_none hc
    rcases h.submitted j c hc with hnone | hop | ⟨d', hd'⟩
    · exact Or.inl hnone
    · exact Or.inr (Or.inl hop)
    · obtain ⟨rfl, -⟩ : i = j ∧ d = d' := by simpa [hd] using hd'
      exact absurd rfl hj

/-- A caller waits, as it did before or for the first time. -/
theorem keep (h : Linked s waiting) {c : Caller}
    (hc : waiting (.of c.buf) = some c ∨ waiting (.of c.buf) = none ∧ c.submissions = []) :
    Linked s (Function.update waiting (.of c.buf) (some c)) := by
  rcases hc with hc | ⟨hc, hnone⟩
  · rwa [← hc, Function.update_eq_self]
  · have hold : ∀ j c', waiting j = some c' →
        Function.update waiting (.of c.buf) (some c) j = some c' := by
      intro j c' hc'
      have hj : j ≠ .of c.buf := by
        rintro rfl
        simp [hc] at hc'
      simpa [hj] using hc'
    constructor
    · intro j c' hc'
      by_cases hj : j = .of c.buf
      · obtain rfl : c = c' := by simpa [hj] using hc'
        exact hj
      · exact h.waiting_key j c' (by simpa [hj] using hc')
    · intro p hop
      obtain ⟨c', hc', hrest⟩ := h.operation_waits p hop
      exact ⟨c', hold _ _ hc', hrest⟩
    · intro i d hd
      obtain ⟨c', hc', hrest⟩ := h.retained_waits i d hd
      exact ⟨c', hold _ _ hc', hrest⟩
    · exact h.apart
    · intro j c' hc'
      by_cases hj : j = .of c.buf
      · obtain rfl : c = c' := by simpa [hj] using hc'
        exact Or.inl hnone
      · exact h.submitted j c' (by simpa [hj] using hc')

/-- A caller that was not submitted starts its operation. -/
theorem begin (h : Linked s waiting) (hidle : s.operation = none)
    (hslot : ∀ d, s.untrackedCompleted ≠ some (.of buf, d))
    (huntracked : isTrackedWrite generation = false) :
    Linked (s.begin generation buf start) (Function.update waiting (.of buf)
      (some ⟨generation, buf, [s.submission buf]⟩)) where
  waiting_key := by
    intro j c hc
    by_cases hj : j = .of buf
    · obtain rfl : ⟨generation, buf, [s.submission buf]⟩ = c := by simpa [hj] using hc
      exact hj
    · exact h.waiting_key j c (by simpa [hj] using hc)
  operation_waits := by
    intro p hop
    obtain rfl : s.newWrite generation buf start = p := by simpa using hop
    exact ⟨⟨generation, buf, [s.submission buf]⟩, by simp, by simp, by simp [huntracked],
      by simp, rfl⟩
  retained_waits := by
    intro j d hd
    have hj : j ≠ .of buf := by
      rintro rfl
      exact hslot d hd
    obtain ⟨c, hc, hrest⟩ := h.retained_waits j d hd
    exact ⟨c, by simpa [hj] using hc, hrest⟩
  apart := by
    intro p i d hop hd
    obtain rfl : s.newWrite generation buf start = p := by simpa using hop
    rintro hi
    obtain rfl : .of buf = i := by simpa [huntracked] using hi
    exact hslot d hd
  submitted := by
    intro j c hc
    by_cases hj : j = .of buf
    · exact Or.inr (Or.inl ⟨_, rfl, by simp [huntracked, hj]⟩)
    · rcases h.submitted j c (by simpa [hj] using hc) with hnone | ⟨q, hq, -⟩ | hd
      · exact Or.inl hnone
      · simp [hidle] at hq
      · exact Or.inr (Or.inr hd)

end Linked

/-! ## One poll -/

/-- The submissions that a caller has made before a poll. -/
def earlier (σ : Callers) (buf : Buf) : List Submission :=
  ((σ.waiting (.of buf)).map Caller.submissions).getD []

theorem caller_eq (hcontract : σ.Contract (.pollWrite waker generation buf start)) :
    σ.caller generation buf s' =
      ⟨generation, buf, σ.earlier buf ++ (s'.started.drop σ.state.started.length).map Prod.snd⟩ := by
  obtain ⟨-, -, hsame⟩ := hcontract
  unfold caller earlier
  cases hc : σ.waiting (.of buf) with
  | none => rfl
  | some c =>
      obtain ⟨hgeneration, hbuf⟩ := hsame c hc
      simp [hgeneration, hbuf]

/-- A poll that starts nothing leaves its caller as it was. -/
theorem caller_of_started_eq (hcontract : σ.Contract (.pollWrite waker generation buf start))
    (s' : WriteState) (hstarted : s'.started = σ.state.started) :
    σ.caller generation buf s' = ⟨generation, buf, σ.earlier buf⟩ := by
  rw [caller_eq hcontract, hstarted]
  simp

/-- A caller that already submitted finds its operation in flight or its
completion retained. -/
theorem earlier_eq_nil (h : Orderly σ)
    (hop : ∀ p, σ.state.operation = some p → p.identity ≠ some (.of buf))
    (hslot : ∀ d, σ.state.untrackedCompleted ≠ some (.of buf, d)) : σ.earlier buf = [] := by
  unfold earlier
  cases hc : σ.waiting (.of buf) with
  | none => rfl
  | some c =>
      rcases h.linked.submitted _ c hc with hnone | ⟨p, hp, hi⟩ | ⟨d, hd⟩
      · simpa using hnone
      · exact absurd hi (hop p hp)
      · exact absurd hd (hslot d)

/-- The operation that passes for the caller's is the caller's. -/
theorem own_iff (h : Orderly σ)
    (hcontract : σ.Contract (.pollWrite waker generation buf start))
    (hop : σ.state.operation = some p) :
    isOwn p generation buf = true ↔ p.identity = some (.of buf) := by
  obtain ⟨c, hc, hkind, hidentity, -⟩ := h.linked.operation_waits p hop
  constructor
  · intro hown
    simpa [isOwn, hidentity] using (Bool.and_eq_true_iff.mp hown).2
  · intro hi
    have hkey : WriteIdentity.of c.buf = .of buf := by simpa [hidentity] using hi
    obtain ⟨hgeneration, -⟩ := hcontract.2.2 c (hkey ▸ hc)
    simp [isOwn, hkind, hgeneration, hi]

/-- The caller of the operation in flight, or of the retained completion. -/
theorem earlier_of_waiting {c : Caller}
    (hcontract : σ.Contract (.pollWrite waker generation buf start))
    (hc : σ.waiting (.of buf) = some c) :
    c = ⟨generation, buf, σ.earlier buf⟩ := by
  obtain ⟨hgeneration, hbuf⟩ := hcontract.2.2 c hc
  obtain ⟨generation', buf', submissions⟩ := c
  simp_all [earlier]

theorem keep_caller (h : Linked s σ.waiting)
    (hcontract : σ.Contract (.pollWrite waker generation buf start)) :
    Linked s (Function.update σ.waiting (.of buf) (some ⟨generation, buf, σ.earlier buf⟩)) := by
  apply h.keep (c := ⟨generation, buf, σ.earlier buf⟩)
  cases hc : σ.waiting (.of buf) with
  | none => exact Or.inr ⟨rfl, by simp [earlier, hc]⟩
  | some c => exact Or.inl (congrArg some (earlier_of_waiting hcontract hc))

theorem Once.mono {c : Caller} {reply : Reply Nat} (h : Once s c reply)
    (hfinished : ∀ f ∈ s.finished, f ∈ s'.finished) : Once s' c reply := by
  obtain ⟨sub, hsubmissions, hdata, hsource, hmem⟩ := h
  exact ⟨sub, hsubmissions, hdata, hsource, hfinished _ hmem⟩

/-- What becomes of the caller: it waits, or was answered and leaves. -/
def Settled (σ : Callers) (generation : Generation) (buf : Buf) (s' : WriteState) :
    Poll (Reply Nat) → Prop
  | .pending => Linked s' (Function.update σ.waiting (.of buf)
      (some (σ.caller generation buf s')))
  | .ready reply => Linked s' (Function.update σ.waiting (.of buf) none) ∧
      Once s' (σ.caller generation buf s') reply

theorem settled_of_turn {poll : Poll (Reply Nat)} (hraw : Raw s) (hlinked : Linked s σ.waiting)
    (hidle : s.operation = none) (hstarted : s.started = σ.state.started)
    (hslot : ∀ d, s.untrackedCompleted ≠ some (.of buf, d))
    (hcontract : σ.Contract (.pollWrite waker generation buf start))
    (hnil : σ.earlier buf = [])
    (hturn : Turn waker generation buf start s s' poll) :
    Raw s' ∧ (∀ f ∈ s.finished, f ∈ s'.finished) ∧ σ.Settled generation buf s' poll := by
  have hbegin : Raw (s.begin generation buf start) := hraw.begin
  have hcaller : ∀ s', s'.started = s.started ++ [(.operation generation, s.submission buf)] →
      σ.caller generation buf s' = ⟨generation, buf, [s.submission buf]⟩ := by
    intro s' hs'
    rw [caller_eq hcontract, hs', hstarted, hnil]
    simp
  cases hturn with
  | completed hc => simp [hraw.completed] at hc
  | blocked hc hqueue => simp [hraw.queue] at hqueue
  | cancelled hc hqueue hlive => simp [isLiveWrite, hcontract.1] at hlive
  | awaits hc hmay hstart =>
      refine ⟨hbegin.congr rfl rfl rfl rfl, fun f hf => hf, ?_⟩
      have hstarts : Linked (s.begin generation buf none) _ :=
        hlinked.begin hidle hslot hcontract.1
      unfold Settled
      rw [hcaller _ rfl]
      exact hstarts.replace rfl rfl rfl rfl rfl rfl rfl
  | answers hc hmay hstart =>
      refine ⟨hbegin.congr rfl rfl rfl rfl, fun f hf => List.mem_append_left _ hf, ?_, ?_⟩
      · exact hlinked.leave hidle hslot rfl rfl fun f hf => List.mem_append_left _ hf
      · rw [hcaller _ rfl]
        exact ⟨s.submission buf, rfl, rfl, rfl, by simp [Completion.reply]⟩

theorem untracked_of_operation (h : Orderly σ) (hop : σ.state.operation = some p) :
    ∃ g, p.kind = .operation g ∧ isTrackedWrite g = false := by
  obtain ⟨c, -, hkind, hidentity, -⟩ := h.linked.operation_waits p hop
  refine ⟨c.generation, hkind, ?_⟩
  have huntracked := p.identity_isSome
  rw [hidentity, hkind] at huntracked
  simpa [WriteKind.isUntracked] using huntracked.symm

theorem settled_of_driven {poll : Poll (Reply Nat)} (h : Orderly σ)
    (hcontract : σ.Contract (.pollWrite waker generation buf start))
    (hretained : ∀ d, σ.state.untrackedCompleted ≠ some (.of buf, d))
    (hloses : ∀ p result, σ.state.operation = some p → p.operation.outcome = some result →
      isOwn p generation buf = false → σ.state.untrackedCompleted = none)
    (hdriven : Driven waker generation buf start σ.state s' poll) :
    Raw s' ∧ (∀ f ∈ σ.state.finished, f ∈ s'.finished) ∧ σ.Settled generation buf s' poll := by
  cases hdriven with
  | @awaits p hop houtcome =>
      refine ⟨h.raw.congr rfl rfl rfl rfl, fun f hf => hf, ?_⟩
      unfold Settled
      rw [caller_of_started_eq hcontract (σ.state.await p waker) rfl]
      exact keep_caller (h.linked.replace hop rfl rfl rfl rfl rfl rfl) hcontract
  | @delivers p result hop houtcome hown =>
      refine ⟨h.raw.congr rfl rfl rfl rfl, fun f hf => List.mem_append_left _ hf, ?_⟩
      have hi := (own_iff h hcontract hop).mp hown
      obtain ⟨c, hc, hkind, hidentity, hsubmissions, hdata⟩ := h.linked.operation_waits p hop
      have hkey : WriteIdentity.of c.buf = .of buf := by simpa [hidentity] using hi
      have hcaller := earlier_of_waiting hcontract (hkey ▸ hc)
      refine ⟨h.linked.finish hop hi, ?_⟩
      rw [caller_of_started_eq hcontract (σ.state.finish p waker result).wakeReadyWaiters rfl,
        ← hcaller]
      exact ⟨p.submission, hsubmissions, hdata, rfl, by simp [hkind, Completion.reply]⟩
  | reports hop houtcome hown herror =>
      obtain ⟨g, hkind, -⟩ := untracked_of_operation h hop
      simp [handOver_bufferedError, hkind, h.raw.bufferedError] at herror
  | @handsOver p result _ _ hop houtcome hown herror hturn =>
      obtain ⟨g, hkind, huntracked⟩ := untracked_of_operation h hop
      have hslot := hloses p result hop houtcome hown
      have hi : p.identity ≠ some (.of buf) := by
        intro hi
        simp [(own_iff h hcontract hop).mpr hi] at hown
      have hnil : σ.earlier buf = [] := by
        apply earlier_eq_nil h _ hretained
        intro q hq
        obtain rfl : p = q := by simpa [hop] using hq
        exact hi
      have hover : Linked (σ.state.handOver p waker result) σ.waiting :=
        h.linked.handOver hop hslot
      have hother : ∀ d, (σ.state.handOver p waker result).untrackedCompleted ≠
          some (.of buf, d) := by
        intro d hd
        rw [handOver_untrackedCompleted] at hd
        cases hidentity : p.identity with
        | none => simp [hidentity, hslot] at hd
        | some j =>
            have hj : j = .of buf := by
              simp only [hidentity, Option.some.injEq, Prod.mk.injEq] at hd
              exact hd.1
            exact hi (hj ▸ hidentity)
      obtain ⟨hraw, hfinished, hsettled⟩ := settled_of_turn (h.raw.handOver hkind huntracked)
        hover (by simp) (by simp) hother hcontract hnil hturn
      exact ⟨hraw, fun f hf => hfinished f (by simp [hf]), hsettled⟩
  | idle hop hturn =>
      have hnil : σ.earlier buf = [] :=
        earlier_eq_nil h (by simp [hop]) hretained
      exact settled_of_turn h.raw h.linked hop rfl hretained hcontract hnil hturn

theorem enqueueTracked_of_untracked (huntracked : isTrackedWrite generation = false) :
    s.enqueueTracked generation waker = s := by
  simp [enqueueTracked, enqueuedTracked, huntracked]

/-- The retained completion that a raw call claims is one for its buffer. -/
theorem untrackedCompleted_of_raw {d : Completion} (huntracked : isTrackedWrite generation = false)
    (hd : s.untrackedCompletion generation buf = some d) :
    s.untrackedCompleted = some (.of buf, d) := by
  obtain ⟨i, hslot⟩ := untrackedCompleted_of_completion hd
  simp only [untrackedCompletion, huntracked, hslot] at hd
  by_cases hi : i = .of buf
  · rwa [← hi]
  · simp [hi] at hd

theorem untrackedCompletion_eq_none (huntracked : isTrackedWrite generation = false)
    (h : s.untrackedCompletion generation buf = none) (d : Completion) :
    s.untrackedCompleted ≠ some (.of buf, d) := by
  intro hd
  simp [untrackedCompletion, huntracked, hd] at h

theorem settled_of_written {poll : Poll (Reply Nat)} (h : Orderly σ)
    (hcontract : σ.Contract (.pollWrite waker generation buf start))
    (hloses : Loses σ.state (.pollWrite waker generation buf start) = false)
    (hwritten : Written waker generation buf start σ.state s' poll) :
    Raw s' ∧ (∀ f ∈ σ.state.finished, f ∈ s'.finished) ∧ σ.Settled generation buf s' poll := by
  have huntracked := hcontract.1
  have hbuf := hcontract.2.1
  have hclean := h.raw.clean.cleanupCancelled_eq
  cases hwritten with
  | empty hempty => exact absurd hempty hbuf
  | completed _ hc => simp [hclean, h.raw.completed] at hc
  | @untracked d _ _ hd =>
      rw [hclean]
      have hd := untrackedCompleted_of_raw huntracked hd
      refine ⟨h.raw.congr rfl rfl rfl rfl, fun f hf => hf, ?_⟩
      obtain ⟨c, hc, hsubmissions, hdata, hmem⟩ := h.linked.retained_waits _ d hd
      refine ⟨h.linked.takeUntrackedCompleted hd, ?_⟩
      rw [caller_of_started_eq hcontract σ.state.takeUntrackedCompleted rfl,
        ← earlier_of_waiting hcontract hc]
      exact ⟨d.source, hsubmissions, hdata, rfl, hmem⟩
  | refused _ _ _ hrequested => simp [h.raw.requested] at hrequested
  | driven _ hc hretained hknown hdriven =>
      rw [hclean, enqueueTracked_of_untracked huntracked] at hdriven
      refine settled_of_driven h hcontract (untrackedCompletion_eq_none huntracked hretained) ?_
        hdriven
      intro p result hop houtcome hown
      apply not_takesOver_of_not_loses hloses hop houtcome
      simp [TakesOver, hbuf, hc, hretained, h.raw.requested, hown]

theorem Orderly.pollWrite (h : Orderly σ)
    (hcontract : σ.Contract (.pollWrite waker generation buf start))
    (hloses : Loses σ.state (.pollWrite waker generation buf start) = false)
    (hstep : σ.pollWrite waker generation buf start = some σ') : Orderly σ' := by
  obtain ⟨⟨s', poll⟩, hcall, heq⟩ := Option.map_eq_some_iff.mp hstep
  obtain ⟨hraw, hfinished, hsettled⟩ :=
    settled_of_written h hcontract hloses (written_of_pollWrite hcall)
  have honce : ∀ c reply, (c, reply) ∈ σ.answered → Once s' c reply := by
    intro c reply hc
    exact (h.once c reply hc).mono hfinished
  cases poll with
  | pending =>
      subst heq
      exact ⟨hraw, hsettled, honce⟩
  | ready reply =>
      subst heq
      refine ⟨hraw, hsettled.1, ?_⟩
      intro c reply' hc
      rcases List.mem_append.mp hc with hc | hc
      · exact honce c reply' hc
      · obtain ⟨rfl, rfl⟩ : c = σ.caller generation buf s' ∧ reply' = reply := by
          simpa using hc
        exact hsettled.2

/-! ## Flushes, drains and completions -/

theorem Orderly.of_state (h : Orderly σ) (hraw : Raw s') (hlinked : Linked s' σ.waiting)
    (hfinished : ∀ f ∈ σ.state.finished, f ∈ s'.finished) :
    Orderly { σ with state := s' } :=
  ⟨hraw, hlinked, fun c reply hc => (h.once c reply hc).mono hfinished⟩

/-- A drain leaves the callers alone, and does not touch a retained
completion other than to fill it. -/
theorem Orderly.drained {poll : Poll Unit} (h : Orderly σ)
    (hslot : ∀ p result, σ.state.operation = some p → p.operation.outcome = some result →
      σ.state.untrackedCompleted = none)
    (hdrained : Drained waker σ.state s' poll) : Orderly { σ with state := s' } := by
  have hclean := h.raw.clean.cleanupCancelled_eq
  cases hdrained with
  | awaits hop houtcome =>
      rw [hclean]
      exact h.of_state (h.raw.congr rfl rfl rfl rfl)
        (h.linked.replace hop rfl rfl rfl rfl rfl rfl) fun f hf => hf
  | @handsOver p result _ _ hop houtcome hbarrier =>
      rw [hclean] at hbarrier
      obtain ⟨g, hkind, huntracked⟩ := untracked_of_operation h hop
      cases hbarrier with
      | blocked hqueue => simp [h.raw.queue] at hqueue
      | empty =>
          exact h.of_state (h.raw.handOver hkind huntracked)
            (h.linked.handOver hop (hslot p result hop houtcome)) fun f hf => by simp [hf]
  | idle hop hbarrier =>
      rw [hclean] at hbarrier
      cases hbarrier with
      | blocked hqueue => simp [h.raw.queue] at hqueue
      | empty => exact h

/-- A flush that finds a failure is one that `Loses` names. -/
theorem untrackedError_of_drained (h : Orderly σ)
    (hloses : Loses σ.state (.pollFlush waker) = false)
    (hdrained : Drained waker σ.state s' (.ready ())) : s'.untrackedError = none := by
  have hclean := h.raw.clean.cleanupCancelled_eq
  cases hdrained with
  | @handsOver p result _ _ hop houtcome hbarrier =>
      cases hbarrier with
      | empty =>
          obtain ⟨c, -, -, hidentity, -⟩ := h.linked.operation_waits p hop
          cases result with
          | ok n => simp [untrackedError, handOver_untrackedCompleted, hidentity]
          | error error => simp [Loses, hop, houtcome, isFlush] at hloses
  | idle hop hbarrier =>
      rw [hclean] at hbarrier
      cases hbarrier with
      | empty => simpa [Loses, hop, isFlush] using hloses

theorem Orderly.flushed {poll : Poll (Reply Unit)} (h : Orderly σ)
    (hloses : Loses σ.state (.pollFlush waker) = false)
    (hflushed : Flushed waker σ.state s' poll) : Orderly { σ with state := s' } := by
  have hdrain : ∀ t drain, Drained waker σ.state t drain → Orderly { σ with state := t } := by
    intro t drain
    apply h.drained
    intro p result hop houtcome
    exact not_takesOver_of_not_loses hloses hop houtcome rfl
  cases hflushed with
  | awaits hdrained => exact hdrain _ _ hdrained
  | reports hdrained herror =>
      rw [(hdrain _ _ hdrained).raw.bufferedError] at herror
      cases herror
  | reportsUntracked hdrained herror hretained =>
      simp [untrackedError_of_drained h hloses hdrained] at hretained
  | flushed hdrained => exact hdrain _ _ hdrained

theorem Orderly.step {call : Call} (h : Orderly σ) (hcontract : σ.Contract call)
    (hloses : Loses σ.state call = false) (hstep : σ.step call = some σ') : Orderly σ' := by
  cases call with
  | pollWrite waker generation buf start => exact h.pollWrite hcontract hloses hstep
  | pollFlush waker =>
      obtain ⟨⟨s', poll⟩, hcall, rfl⟩ := Option.map_eq_some_iff.mp hstep
      exact h.flushed hloses (flushed_of_pollFlush hcall)
  | pollDrain waker =>
      obtain ⟨⟨s', poll⟩, hcall, rfl⟩ := Option.map_eq_some_iff.mp hstep
      refine h.drained ?_ (drained_of_pollDrain hcall)
      intro p result hop houtcome
      exact not_takesOver_of_not_loses hloses hop houtcome rfl
  | complete result =>
      obtain ⟨s', hcall, rfl⟩ := Option.map_eq_some_iff.mp hstep
      obtain ⟨p, hop, -, rfl⟩ := resolve_of_complete hcall
      exact h.of_state (h.raw.congr rfl rfl rfl rfl)
        (h.linked.replace hop rfl rfl rfl rfl rfl rfl) fun f hf => hf
  | _ => cases hstep

theorem Orderly.init : Orderly {} := by
  refine ⟨?_, ?_, ?_⟩
  · constructor <;> simp
  · constructor <;> simp
  · simp

theorem orderly_of_reachable
    (h : Reachable step (fun σ call => σ.Contract call ∧ Loses σ.state call = false) {} σ) :
    Orderly σ := by
  refine h.invariant Orderly .init ?_
  rintro σ call σ' horderly ⟨hcontract, hloses⟩ hstep
  exact horderly.step hcontract hloses hstep

/-! ## The next poll of a caller that waits -/

/-- The callers that wait are raw ones with something to write. -/
def Contracted (σ : Callers) : Prop :=
  ∀ i c, σ.waiting i = some c → isTrackedWrite c.generation = false ∧ c.buf.bytes ≠ []

theorem Contracted.step {call : Call} (h : Contracted σ) (hcontract : σ.Contract call)
    (hstep : σ.step call = some σ') : Contracted σ' := by
  cases call with
  | pollWrite waker generation buf start =>
      obtain ⟨⟨s', poll⟩, hcall, heq⟩ := Option.map_eq_some_iff.mp hstep
      cases poll with
      | pending =>
          subst heq
          intro i c hc
          by_cases hi : i = .of buf
          · obtain rfl : σ.caller generation buf s' = c := by simpa [hi] using hc
            rw [caller_eq hcontract]
            exact ⟨hcontract.1, hcontract.2.1⟩
          · exact h i c (by simpa [hi] using hc)
      | ready reply =>
          subst heq
          exact fun i c hc => h i c (Linked.of_update_none hc).2
  | pollFlush waker =>
      obtain ⟨⟨s', poll⟩, hcall, rfl⟩ := Option.map_eq_some_iff.mp hstep
      exact h
  | pollDrain waker =>
      obtain ⟨⟨s', poll⟩, hcall, rfl⟩ := Option.map_eq_some_iff.mp hstep
      exact h
  | complete result =>
      obtain ⟨s', hcall, rfl⟩ := Option.map_eq_some_iff.mp hstep
      exact h
  | _ => cases hstep

theorem contracted_of_reachable
    (h : Reachable step (fun σ call => σ.Contract call ∧ Loses σ.state call = false) {} σ) :
    Contracted σ := by
  refine h.invariant Contracted (by simp [Contracted]) ?_
  rintro σ call σ' hcontracted ⟨hcontract, -⟩ hstep
  exact hcontracted.step hcontract hstep

/-- A raw call that finds nothing in flight starts its operation. -/
theorem started_of_turn {poll : Poll (Reply Nat)} (hraw : Raw s)
    (huntracked : isTrackedWrite generation = false)
    (hturn : Turn waker generation buf start s s' poll) :
    s'.started = s.started ++ [(.operation generation, s.submission buf)] := by
  cases hturn with
  | completed hc => simp [hraw.completed] at hc
  | blocked hc hqueue => simp [hraw.queue] at hqueue
  | cancelled hc hqueue hlive => simp [isLiveWrite, huntracked] at hlive
  | awaits => rfl
  | answers => rfl

/-- A poll of a caller has to wait for the operation in flight, returns the
result of the caller's one submission, or makes that submission. -/
def Advances (σ : Callers) (c : Caller) (s' : WriteState) (poll : Poll (Reply Nat)) : Prop :=
  (∃ p, σ.state.operation = some p ∧ p.operation.outcome = none ∧ poll = .pending) ∨
    (∃ sub result, c.submissions = [sub] ∧ poll = .ready ⟨result, some sub⟩) ∨
    c.submissions = [] ∧ s'.started =
      σ.state.started ++ [(.operation c.generation, σ.state.submission c.buf)]

/-- The next poll of a caller that waits returns, and advances it. -/
def Served (σ : Callers) (c : Caller) : Prop :=
  ∀ waker start, ∃ s' poll, σ.state.pollWrite waker c.generation c.buf start = some (s', poll) ∧
    σ.Advances c s' poll

theorem advances_of_driven {poll : Poll (Reply Nat)} {c : Caller} (h : Orderly σ)
    (hcontract : σ.Contract (.pollWrite waker c.generation c.buf start))
    (hc : σ.waiting (.of c.buf) = some c)
    (hretained : ∀ d, σ.state.untrackedCompleted ≠ some (.of c.buf, d))
    (hdriven : Driven waker c.generation c.buf start σ.state s' poll) :
    σ.Advances c s' poll := by
  have hearlier : σ.earlier c.buf = c.submissions := by simp [earlier, hc]
  cases hdriven with
  | @awaits p hop houtcome => exact Or.inl ⟨p, hop, houtcome, rfl⟩
  | @delivers p result hop houtcome hown =>
      have hi := (own_iff h hcontract hop).mp hown
      obtain ⟨c', hc', -, hidentity, hsubmissions, -⟩ := h.linked.operation_waits p hop
      have hkey : WriteIdentity.of c'.buf = .of c.buf := by simpa [hidentity] using hi
      obtain rfl : c = c' := by simpa [hkey, hc] using hc'
      exact Or.inr (Or.inl ⟨p.submission, result, hsubmissions, rfl⟩)
  | reports hop houtcome hown herror =>
      obtain ⟨g, hkind, -⟩ := untracked_of_operation h hop
      simp [handOver_bufferedError, hkind, h.raw.bufferedError] at herror
  | @handsOver p result _ _ hop houtcome hown herror hturn =>
      obtain ⟨g, hkind, huntracked⟩ := untracked_of_operation h hop
      have hnil : σ.earlier c.buf = [] := by
        apply earlier_eq_nil h _ hretained
        intro q hq hi
        obtain rfl : p = q := by simpa [hop] using hq
        simp [(own_iff h hcontract hop).mpr hi] at hown
      have hstarted := started_of_turn (h.raw.handOver hkind huntracked) hcontract.1 hturn
      exact Or.inr (Or.inr ⟨hearlier ▸ hnil, by simpa [submission] using hstarted⟩)
  | idle hop hturn =>
      have hnil : σ.earlier c.buf = [] := earlier_eq_nil h (by simp [hop]) hretained
      exact Or.inr (Or.inr ⟨hearlier ▸ hnil, started_of_turn h.raw hcontract.1 hturn⟩)

theorem Orderly.served {i : WriteIdentity} {c : Caller} (h : Orderly σ)
    (hcontracted : Contracted σ) (hc : σ.waiting i = some c) : σ.Served c := by
  obtain rfl := h.linked.waiting_key i c hc
  obtain ⟨huntracked, hbuf⟩ := hcontracted _ c hc
  intro waker start
  have hcontract : σ.Contract (.pollWrite waker c.generation c.buf start) := by
    refine ⟨huntracked, hbuf, ?_⟩
    intro c' hc'
    obtain rfl : c = c' := by simpa [hc] using hc'
    exact ⟨rfl, rfl⟩
  obtain ⟨s', poll, hcall, hwritten⟩ := exists_pollWrite σ.state waker c.generation c.buf start
  refine ⟨s', poll, hcall, ?_⟩
  have hclean := h.raw.clean.cleanupCancelled_eq
  cases hwritten with
  | empty hempty => exact absurd hempty hbuf
  | completed _ hcompleted => simp [hclean, h.raw.completed] at hcompleted
  | @untracked d _ _ hd =>
      have hd := untrackedCompleted_of_raw huntracked hd
      obtain ⟨c', hc', hsubmissions, -⟩ := h.linked.retained_waits _ d hd
      obtain rfl : c = c' := by simpa [hc] using hc'
      exact Or.inr (Or.inl ⟨d.source, d.result, hsubmissions, rfl⟩)
  | refused _ _ _ hrequested => simp [h.raw.requested] at hrequested
  | driven _ _ hretained _ hdriven =>
      rw [hclean, enqueueTracked_of_untracked huntracked] at hdriven
      exact advances_of_driven h hcontract hc (untrackedCompletion_eq_none huntracked hretained)
        hdriven

/-! ## Exactly once -/

/-- In every run of callers that keep to their contract, in which no completion
is displaced and no flush takes a failure, every caller that was answered was
submitted exactly once, with its own bytes, and got the result of that
submission; a caller that waits was submitted at most once, and its next poll
answers it or submits it unless an operation is still pending. -/
theorem submitted_once_of_reachable
    (h : Reachable step (fun σ call => σ.Contract call ∧ Loses σ.state call = false) {} σ) :
    (∀ c reply, (c, reply) ∈ σ.answered → Once σ.state c reply) ∧
      ∀ i c, σ.waiting i = some c → c.submissions.length ≤ 1 ∧ σ.Served c := by
  have horderly := orderly_of_reachable h
  refine ⟨horderly.once, ?_⟩
  intro i c hc
  refine ⟨?_, horderly.served (contracted_of_reachable h) hc⟩
  rcases horderly.linked.submitted i c hc with hnone | ⟨p, hop, hi⟩ | ⟨d, hd⟩
  · simp [hnone]
  · obtain ⟨c', hc', -, hidentity, hsubmissions, -⟩ := horderly.linked.operation_waits p hop
    obtain rfl : .of c'.buf = i := by simpa [hidentity] using hi
    obtain rfl : c = c' := by simpa [hc] using hc'
    simp [hsubmissions]
  · obtain ⟨c', hc', hsubmissions, -⟩ := horderly.linked.retained_waits i d hd
    obtain rfl : c = c' := by simpa [hc] using hc'
    simp [hsubmissions]

def twoCallers : List Call :=
  [.pollWrite 1 0 ⟨100, [1, 2]⟩ none, .complete (.ok 2), .pollWrite 2 0 ⟨200, [3]⟩ none,
    .pollWrite 1 0 ⟨100, [1, 2]⟩ none, .complete (.ok 1), .pollWrite 2 0 ⟨200, [3]⟩ none]

/-- Both are answered, each after one submission. -/
theorem submitted_once_twoCallers : ∃ σ : Callers,
    (∀ c reply, (c, reply) ∈ σ.answered → Once σ.state c reply) ∧
      σ.answered.map (fun a => (a.1.buf, a.2.result)) =
        [(⟨100, [1, 2]⟩, .ok 2), (⟨200, [3]⟩, .ok 1)] := by
  obtain ⟨σ, hreach, hσ⟩ := Reachable.exists_of_guarded step
    (fun σ call => σ.Contract call ∧ Loses σ.state call = false) {} twoCallers
    (fun σ => σ.answered.map (fun a => (a.1.buf, a.2.result)) =
      [(⟨100, [1, 2]⟩, .ok 2), (⟨200, [3]⟩, .ok 1)]) (by decide)
  exact ⟨σ, (submitted_once_of_reachable hreach).1, of_decide_eq_true hσ⟩

/-- The completion of the first caller is retained when the second one starts,
and displaced when a flush takes the completion of the second. -/
def displacedCompletion : List Call :=
  [.pollWrite 1 0 ⟨100, [1, 2]⟩ none, .complete (.ok 2), .pollWrite 2 0 ⟨200, [3]⟩ none,
    .complete (.ok 1), .pollFlush 3, .pollWrite 1 0 ⟨100, [1, 2]⟩ none, .complete (.ok 2),
    .pollWrite 1 0 ⟨100, [1, 2]⟩ none]

/-- A caller whose completion was displaced is submitted a second time. -/
theorem displaced_caller_submits_twice : ∃ σ c reply,
    Reachable step (fun σ call => σ.Contract call) {} σ ∧ (c, reply) ∈ σ.answered ∧
      c.submissions.length = 2 ∧ ¬ Once σ.state c reply := by
  obtain ⟨σ, hreach, hσ⟩ := Reachable.exists_of_guarded step
    (fun σ call => σ.Contract call) {} displacedCompletion
    (fun σ => σ.answered.any fun a => a.1.submissions.length = 2) (by decide)
  obtain ⟨⟨c, reply⟩, hmem, hc⟩ := List.any_eq_true.mp hσ
  have hlength : c.submissions.length = 2 := of_decide_eq_true hc
  refine ⟨σ, c, reply, hreach, hmem, hlength, ?_⟩
  rintro ⟨sub, hsubmissions, -⟩
  simp [hsubmissions] at hlength

end Callers

end Runite.Io
