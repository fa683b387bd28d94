import Runite.Lib.Chronicle
import Runite.Io.WriteErrors
import Runite.Net.HyperStream

/-!
# The calls of Hyper

`CallAllowed` says what a call may do after those before it.  `Sound` is what holds
between two calls, and within a call after the poll of the future in flight: the slot is
as `settled` says, and while no send has failed, what was sent and what the future has
left to send are the buffers that were accepted.
-/

namespace Runite.Net

open Runite.Io

/-! ## The bytes of `send_all_future` -/

section Bytes

variable {data : List UInt8} {answers : List (Except IoError Nat)} {written : Nat}

theorem sendLoop_wire (data : List UInt8) (answers : List (Except IoError Nat)) (written : Nat) :
    (sendLoop data answers written).wire ++ data.drop (sendLoop data answers written).written =
      data.drop written := by
  induction answers generalizing written with
  | nil =>
      unfold sendLoop
      split <;> rfl
  | cons answer answers ih =>
      unfold sendLoop
      split
      next =>
        dsimp only
        split
        next => rfl
        next => rfl
        next count _ =>
          dsimp only
          rw [List.append_assoc, ih, ← List.drop_drop, List.take_append_drop]
      next => rfl

theorem sendLoop_ok {n : Nat} (h : (sendLoop data answers written).outcome = some (.ok n)) :
    data.drop (sendLoop data answers written).written = [] := by
  induction answers generalizing written with
  | nil =>
      unfold sendLoop at h ⊢
      split at h
      next => cases h
      next hge =>
        rw [if_neg hge]
        exact List.drop_eq_nil_of_le (Nat.le_of_not_lt hge)
  | cons answer answers ih =>
      unfold sendLoop at h ⊢
      split at h
      next hlt =>
        rw [if_pos hlt]
        dsimp only at h ⊢
        split at h
        next => cases h
        next => cases h
        next hcount => exact ih h
      next hge =>
        rw [if_neg hge]
        exact List.drop_eq_nil_of_le (Nat.le_of_not_lt hge)

def SendAll.unsent (f : SendAll) : List UInt8 :=
  match f.sent with
  | some (.ok count) => f.data.drop (f.written + count)
  | _ => f.data.drop f.written

theorem SendAll.poll_wire (f : SendAll) (answers : List (Except IoError Nat)) :
    (f.poll answers).wire ++ f.data.drop (f.poll answers).written = f.unsent := by
  unfold SendAll.poll SendAll.unsent
  split
  next hsent => simp [hsent]
  next hsent => simp [hsent]
  next hsent => simp [hsent]
  next count hsent =>
    rw [hsent]
    exact sendLoop_wire ..

theorem SendAll.poll_ok {f : SendAll} {n : Nat} (h : (f.poll answers).outcome = some (.ok n)) :
    (f.poll answers).wire = f.unsent := by
  rw [← f.poll_wire answers]
  suffices hdrop : f.data.drop (f.poll answers).written = [] by rw [hdrop, List.append_nil]
  unfold SendAll.poll at h ⊢
  split at h
  · cases h
  · cases h
  · cases h
  next hsent => exact sendLoop_ok h

/-- What the kernel sends when it completes a send is taken from what is left. -/
theorem SendAll.complete_wire (f : SendAll) (answer : Except IoError Nat) (hsent : f.sent = none) :
    (f.complete answer).2 ++ (f.complete answer).1.unsent = f.unsent := by
  unfold SendAll.complete SendAll.unsent
  rw [hsent]
  dsimp only
  split
  next => rfl
  next count _ =>
    dsimp only
    rw [← List.drop_drop, List.take_append_drop]

end Bytes

/-! ## The write state of Hyper's calls -/

section Drain

variable {s t : WriteState} {waker : Waker} {poll : Poll Unit}

/-- Nothing is there but an operation of a buffered write. -/
structure Quiet (s : WriteState) : Prop where
  queue : s.queue = []
  completed : ∀ g, s.completed g = none
  untracked : s.untrackedCompleted = none
  buffered : ∀ p, s.operation = some p → p.kind = .buffered

theorem barrier_of_empty (h : s.queue = []) (hbarrier : WriteState.Barrier waker s t poll) :
    t = s ∧ poll = .ready () := by
  cases hbarrier with
  | blocked hqueue => exact nomatch h.symm.trans hqueue
  | empty => exact ⟨rfl, rfl⟩

/-- What a drain finds in the slot, and what it leaves. -/
inductive DrainEnd (waker : Waker) (s t : WriteState) : Poll Unit → Prop
  | idle : s.operation = none → t.operation = none → t.bufferedError = none →
      DrainEnd waker s t (.ready ())
  | awaits {p : PendingWrite} : s.operation = some p → p.operation.outcome = none →
      t.operation = some (p.await waker) → t.bufferedError = none → DrainEnd waker s t .pending
  | settles {p : PendingWrite} {result : Except IoError Nat} : s.operation = some p →
      p.operation.outcome = some result → t.operation = none →
      t.bufferedError = Completion.failure ⟨p.submission, result⟩ → DrainEnd waker s t (.ready ())

theorem Quiet.drained (h : Quiet s) (herror : s.bufferedError = none)
    (hdrained : WriteState.Drained waker s t poll) :
    Quiet t ∧ t.started = s.started ∧ t.shutdown = s.shutdown ∧ DrainEnd waker s t poll := by
  have hqueue : s.cleanupCancelled.queue = [] := by simp [h.queue]
  have hcompleted (g : Generation) : s.cleanupCancelled.completed g = none := by
    rw [WriteState.cleanupCancelled_completed, h.completed g, ite_self]
  cases hdrained with
  | awaits hop houtcome =>
      rename_i p
      refine ⟨⟨hqueue, hcompleted, by simp [h.untracked], ?_⟩, by simp, by simp,
        .awaits hop houtcome rfl (by simp [herror])⟩
      intro q hq
      cases hq
      exact h.buffered p hop
  | handsOver hop houtcome hbarrier =>
      rename_i p result
      obtain ⟨rfl, rfl⟩ := barrier_of_empty (by simp [h.queue]) hbarrier
      have hkind := h.buffered p hop
      refine ⟨⟨by simp [h.queue], ?_, ?_, by simp⟩, by simp, by simp,
        .settles hop houtcome (by simp) ?_⟩
      · intro g
        rw [WriteState.handOver_completed, hkind, if_neg (by simp), hcompleted]
      · have hidentity := p.identity_isSome
        rw [hkind, WriteKind.isUntracked, Option.isSome_eq_false_iff, Option.isNone_iff_eq_none]
          at hidentity
        rw [WriteState.handOver_untrackedCompleted, hidentity]
        simp [h.untracked]
      · rw [WriteState.handOver_bufferedError, hkind]
        cases result with
        | error error => rfl
        | ok n => simp [herror, Completion.failure]
  | idle hop hbarrier =>
      obtain ⟨rfl, rfl⟩ := barrier_of_empty hqueue hbarrier
      refine ⟨⟨hqueue, hcompleted, by simp [h.untracked], by simp [hop]⟩, by simp, by simp,
        .idle hop (by simp [hop]) (by simp [herror])⟩

theorem drains_eq (hdrained : s.pollDrain waker = some (t, poll)) :
    HyperStream.drains s waker = true ↔ poll = .ready () := by
  unfold HyperStream.drains
  rw [hdrained]
  cases poll with
  | ready value => simp
  | pending => simp

/-- Whether a drain is ready, as its ways through have it. -/
theorem Quiet.drains_iff (h : Quiet s) (herror : s.bufferedError = none)
    (hdrained : WriteState.Drained waker s t poll) :
    HyperStream.drains s waker = true ↔ poll = .ready () := by
  obtain ⟨t', poll', hpoll, hdrained'⟩ := WriteState.exists_pollDrain s waker
  rw [drains_eq hpoll]
  obtain ⟨-, -, -, hend⟩ := h.drained herror hdrained
  obtain ⟨-, -, -, hend'⟩ := h.drained herror hdrained'
  cases hend <;> cases hend' <;> simp_all

end Drain

/-! ## The log -/

namespace HyperRecord

/-- The buffer that Hyper was told is written. -/
def accepted (r : HyperRecord) : Option (List UInt8) :=
  match r.answer with
  | .write (.ready ⟨.ok _, _⟩) => r.submitted.map (·.data)
  | _ => none

end HyperRecord

/-- What is in flight after these calls. -/
def inFlight (log : List HyperRecord) : Option Submission := log.getLast?.bind (·.flight)

/-- The buffers that were accepted, in order. -/
def accepted (log : List HyperRecord) : List (List UInt8) := log.filterMap (·.accepted)

/-- A call has reported the failure of a send. -/
def Failed (log : List HyperRecord) : Prop := ∃ r ∈ log, r.answer.failure ≠ []

/-- What a call may do after those before it. -/
structure CallAllowed (before : List HyperRecord) (r : HyperRecord) : Prop where
  whole : ∀ buf n source, r.call = .pollWrite buf → r.answer = .write (.ready ⟨.ok n, source⟩) →
    n = buf.bytes.length
  accepts : ∀ buf n source, r.call = .pollWrite buf → buf.bytes ≠ [] →
    r.answer = .write (.ready ⟨.ok n, source⟩) → ∃ id, r.submitted = some ⟨id, buf.bytes⟩
  /-- a call that is pending has taken nothing of its buffer -/
  takesNothing : r.answer = .write .pending → r.submitted = none
  fresh : ∀ sub, r.submitted = some sub → ∀ q ∈ before, q.submitted ≠ some sub
  waits : r.drained = false → r.settled = none ∧ r.submitted = none ∧ r.flight = inFlight before
  settles : r.drained = true → r.settled.map (·.source) = inFlight before
  keeps : r.drained = true → ∀ sub, r.flight = some sub → r.submitted = some sub
  /-- the failure of what was in flight, and of nothing that was submitted before -/
  reports : ∀ f : Failure, r.submitted ≠ some f.source →
    (f ∈ r.answer.failure ↔ r.settled = some f.completion)

namespace HyperStream

/-- What the future in flight has left to send. -/
def unsent (h : HyperStream) : List UInt8 := h.sendAll.elim [] (·.unsent)

/-- The slot and the future in it; `settled` is what the future has given in this call. -/
inductive Slot (h : HyperStream) : Option Completion → Prop
  | idle : h.writeState.operation = none → h.sendAll = none → Slot h none
  | pending {p : PendingWrite} {f : SendAll} : h.writeState.operation = some p →
      p.operation.outcome = none → h.sendAll = some f → f.data = p.submission.data → Slot h none
  | settled {p : PendingWrite} {result : Except IoError Nat} : h.writeState.operation = some p →
      p.operation.outcome = some result → h.sendAll = none → Slot h (some ⟨p.submission, result⟩)

/-- The stream between two calls, and within a call after the poll of the future. -/
structure Sound (h : HyperStream) (settled : Option Completion) : Prop where
  quiet : Quiet h.writeState
  noError : h.writeState.bufferedError = none
  slot : h.Slot settled
  flight : inFlight h.log = h.writeState.operation.map (·.submission)
  submitted : ∀ r ∈ h.log, ∀ sub, r.submitted = some sub → sub.id < h.writeState.started.length
  chronicle : Chronicle CallAllowed h.log
  last : ∀ p, h.writeState.operation = some p →
    (accepted h.log).getLast? = some p.submission.data
  bytes : ¬ Failed h.log → settled.bind (·.failure) = none →
    (accepted h.log).flatten = h.wire ++ h.unsent

variable {h h' : HyperStream} {settled : Option Completion} {answers : List (Except IoError Nat)}

theorem sound_init : Sound {} none where
  quiet := ⟨rfl, fun _ => rfl, rfl, by simp⟩
  noError := rfl
  slot := .idle rfl rfl
  flight := rfl
  submitted := by simp
  chronicle := .nil
  last := by simp
  bytes _ _ := rfl

theorem pollOperation_idle (hop : h.writeState.operation = none) :
    h.pollOperation answers = (h, none) := by
  unfold pollOperation
  rw [hop]
  split
  next => contradiction
  next => rfl

theorem Sound.pollOperation (hs : h.Sound none) (hpoll : h.pollOperation answers = (h', settled)) :
    h'.Sound settled ∧ h'.log = h.log ∧ h'.writeState.shutdown = h.writeState.shutdown ∧
      h'.writeState.started = h.writeState.started := by
  cases hs.slot with
  | idle hop hsend =>
      rw [pollOperation_idle hop] at hpoll
      cases hpoll
      exact ⟨hs, rfl, rfl, rfl⟩
  | pending hop houtcome hsend hdata =>
      rename_i p f
      have hbytes := f.poll_wire answers
      unfold HyperStream.pollOperation at hpoll
      rw [hop, hsend] at hpoll
      dsimp only at hpoll
      cases hadvance : (f.poll answers).outcome with
      | none =>
          rw [hadvance] at hpoll
          cases hpoll
          refine ⟨⟨hs.quiet, hs.noError, .pending hop houtcome rfl hdata, hs.flight, hs.submitted,
            hs.chronicle, hs.last, fun hfailed _ => ?_⟩, rfl, rfl, rfl⟩
          rw [hs.bytes hfailed rfl, unsent, hsend]
          show _ = (h.wire ++ _) ++ f.data.drop _
          rw [List.append_assoc, hbytes]
          rfl
      | some result =>
          rw [hadvance] at hpoll
          have hcomplete : h.writeState.complete result = some (h.writeState.resolve p result) := by
            unfold WriteState.complete
            rw [hop]
            dsimp only
            rw [houtcome]
          dsimp only at hpoll
          rw [hcomplete] at hpoll
          cases hpoll
          refine ⟨⟨⟨hs.quiet.queue, hs.quiet.completed, hs.quiet.untracked, ?_⟩, hs.noError,
            Slot.settled (p := p.resolve result) rfl rfl rfl, ?_, hs.submitted, hs.chronicle, ?_, fun hfailed hok => ?_⟩, rfl,
            rfl, rfl⟩
          · intro q hq
            cases hq
            exact hs.quiet.buffered p hop
          · rw [hs.flight, hop]
            rfl
          · intro q hq
            cases hq
            exact hs.last p hop
          · cases result with
            | error error => cases hok
            | ok n =>
                rw [hs.bytes hfailed rfl, unsent, hsend]
                show _ = (h.wire ++ _) ++ []
                rw [List.append_nil, SendAll.poll_ok hadvance]
                rfl

/-! ## What a call does after the poll of the future -/

theorem failure_eq_some_iff {c : Completion} {f : Failure} : c.failure = some f ↔ c = f.completion := by
  obtain ⟨source, result⟩ := c
  obtain ⟨source', error⟩ := f
  cases result <;> simp [Completion.failure, Failure.completion]

theorem mem_failures_iff {f : Failure} :
    f ∈ (settled.bind (·.failure)).toList ↔ settled = some f.completion := by
  cases settled with
  | none => simp
  | some c => simp [failure_eq_some_iff]

theorem accepted_append (log : List HyperRecord) (r : HyperRecord) :
    accepted (log ++ [r]) = accepted log ++ r.accepted.toList := by
  unfold accepted
  rw [List.filterMap_append]
  cases hr : r.accepted <;> simp [hr]

theorem not_failed_append {log : List HyperRecord} {r : HyperRecord} :
    ¬ Failed (log ++ [r]) ↔ ¬ Failed log ∧ r.answer.failure = [] := by
  unfold Failed
  simp only [List.mem_append, List.mem_singleton, or_and_right, exists_or, exists_eq_left, not_or,
    not_not]

theorem inFlight_append (log : List HyperRecord) (r : HyperRecord) :
    inFlight (log ++ [r]) = r.flight := by
  simp [inFlight]

theorem Sound.drained {t : WriteState} {waker : Waker} {poll : Poll Unit} (hs : h.Sound settled)
    (hdrained : WriteState.Drained waker h.writeState t poll) :
    Quiet t ∧ t.started = h.writeState.started ∧ t.shutdown = h.writeState.shutdown ∧
      (drains h.writeState waker = true ↔ poll = .ready ()) ∧
      ((poll = .pending ∧ settled = none ∧ t.bufferedError = none ∧
          ∃ p, h.writeState.operation = some p ∧ p.operation.outcome = none ∧
            t.operation = some (p.await waker)) ∨
        (poll = .ready () ∧ h.sendAll = none ∧ t.operation = none ∧
          t.bufferedError = settled.bind (·.failure) ∧
          settled.map (·.source) = inFlight h.log)) := by
  obtain ⟨hquiet, hstarted, hshutdown, hend⟩ := hs.quiet.drained hs.noError hdrained
  refine ⟨hquiet, hstarted, hshutdown, hs.quiet.drains_iff hs.noError hdrained, ?_⟩
  have hflight := hs.flight
  cases hend with
  | idle hop hop' herror =>
      cases hs.slot with
      | idle hop₁ hsend =>
          rw [hop] at hflight
          exact .inr ⟨rfl, hsend, hop', herror, hflight.symm⟩
      | pending hop₁ => exact nomatch hop.symm.trans hop₁
      | settled hop₁ => exact nomatch hop.symm.trans hop₁
  | awaits hop houtcome hop' herror =>
      cases hs.slot with
      | idle hop₁ => exact nomatch hop₁.symm.trans hop
      | pending => exact .inl ⟨rfl, rfl, herror, _, hop, houtcome, hop'⟩
      | settled hop₁ houtcome₁ =>
          obtain rfl := Option.some.inj (hop.symm.trans hop₁)
          exact nomatch houtcome.symm.trans houtcome₁
  | settles hop houtcome hop' herror =>
      cases hs.slot with
      | idle hop₁ => exact nomatch hop₁.symm.trans hop
      | pending hop₁ houtcome₁ =>
          obtain rfl := Option.some.inj (hop.symm.trans hop₁)
          exact nomatch houtcome₁.symm.trans houtcome
      | settled hop₁ houtcome₁ hsend =>
          obtain rfl := Option.some.inj (hop.symm.trans hop₁)
          obtain rfl := Option.some.inj (houtcome.symm.trans houtcome₁)
          rw [hop] at hflight
          exact .inr ⟨rfl, hsend, hop', herror, hflight.symm⟩

/-- The same operation is in the slot, as far as it has come. -/
def SameSlot (s t : WriteState) : Prop :=
  s.operation = none ∧ t.operation = none ∨
    ∃ p q, s.operation = some p ∧ t.operation = some q ∧ q.submission = p.submission ∧
      q.operation.outcome = p.operation.outcome

theorem SameSlot.of_eq {s t : WriteState} (h : t.operation = s.operation) : SameSlot s t := by
  cases hop : s.operation with
  | none => exact .inl ⟨hop, h.trans hop⟩
  | some p => exact .inr ⟨p, p, hop, h.trans hop, rfl, rfl⟩

theorem SameSlot.submission_eq {s t : WriteState} (h : SameSlot s t) :
    t.operation.map (·.submission) = s.operation.map (·.submission) := by
  obtain ⟨hs, ht⟩ | ⟨p, q, hs, ht, hsubmission, -⟩ := h
  · rw [hs, ht]
  · rw [hs, ht, Option.map_some, Option.map_some, hsubmission]

theorem SameSlot.slot {s t : WriteState} (hsame : SameSlot s t) {sendAll : Option SendAll}
    {wire wire' : List UInt8} {log log' : List HyperRecord}
    (h : Slot { writeState := s, sendAll, wire, log } none) :
    Slot { writeState := t, sendAll, wire := wire', log := log' } none := by
  obtain ⟨hs, ht⟩ | ⟨p, q, hs, ht, hsubmission, houtcome⟩ := hsame
  · cases h with
    | idle _ hsend => exact .idle ht hsend
    | pending hop => exact nomatch hs.symm.trans hop
  · cases h with
    | idle hop => exact nomatch hop.symm.trans hs
    | pending hop hnone hsend hdata =>
        obtain rfl := Option.some.inj (hs.symm.trans hop)
        exact .pending ht (houtcome.trans hnone) hsend (hdata.trans (by rw [hsubmission]))

theorem Sound.waits {t : WriteState} {r : HyperRecord} (hs : h.Sound none) (hquiet : Quiet t)
    (herror : t.bufferedError = none) (hstarted : t.started = h.writeState.started)
    (hsame : SameSlot h.writeState t)
    (hdrained : r.drained = false) (hsettled : r.settled = none) (hsubmitted : r.submitted = none)
    (hflight : r.flight = t.operation.map (·.submission)) (hfailure : r.answer.failure = [])
    (hempty : ∀ buf n source, r.call = .pollWrite buf →
      r.answer = .write (.ready ⟨.ok n, source⟩) → buf.bytes = [] ∧ n = 0) :
    Sound { h with writeState := t, log := h.log ++ [r] } none := by
  have hsubmission := hsame.submission_eq
  have haccepted : r.accepted = none := by
    unfold HyperRecord.accepted
    rw [hsubmitted]
    split <;> rfl
  refine ⟨hquiet, herror, hsame.slot hs.slot, ?_, ?_, hs.chronicle.snoc ?_, ?_, ?_⟩
  · rw [inFlight_append, hflight]
  · intro q hq sub hsub
    rw [show t.started = _ from hstarted]
    rcases List.mem_append.mp hq with hq | hq
    · exact hs.submitted q hq sub hsub
    · rw [List.mem_singleton.mp hq, hsubmitted] at hsub
      cases hsub
  · refine ⟨?_, ?_, fun _ => hsubmitted, ?_, fun _ => ⟨hsettled, hsubmitted, ?_⟩, ?_, ?_, ?_⟩
    · intro buf n source hcall hanswer
      obtain ⟨hnil, rfl⟩ := hempty buf n source hcall hanswer
      rw [hnil]
      rfl
    · intro buf n source hcall hbuf hanswer
      exact absurd (hempty buf n source hcall hanswer).1 hbuf
    · intro sub hsub
      exact nomatch hsubmitted.symm.trans hsub
    · rw [hflight, hsubmission, hs.flight]
    · intro htrue
      exact nomatch hdrained.symm.trans htrue
    · intro htrue
      exact nomatch hdrained.symm.trans htrue
    · intro f _
      rw [hfailure, hsettled]
      simp
  · intro q hq
    rw [accepted_append, haccepted, Option.toList_none, List.append_nil]
    rw [show t.operation = some q from hq] at hsubmission
    obtain ⟨p, hp, heq⟩ := Option.map_eq_some_iff.mp hsubmission.symm
    rw [hs.last p hp, heq]
  · intro hfailed _
    rw [accepted_append, haccepted, Option.toList_none, List.append_nil]
    exact hs.bytes (not_failed_append.mp hfailed).1 rfl

/-- A call whose drain comes to its end, and that submits nothing. -/
theorem Sound.ends {t : WriteState} {r : HyperRecord} (hs : h.Sound settled)
    (hsend : h.sendAll = none) (hsettles : settled.map (·.source) = inFlight h.log)
    (hquiet : Quiet t) (herror : t.bufferedError = none) (hop : t.operation = none)
    (hstarted : t.started = h.writeState.started) (hdrained : r.drained = true)
    (hsettled : r.settled = settled) (hsubmitted : r.submitted = none) (hflight : r.flight = none)
    (hfailure : r.answer.failure = (settled.bind (·.failure)).toList)
    (hnotOk : ∀ n source, r.answer ≠ .write (.ready ⟨.ok n, source⟩)) :
    Sound { h with writeState := t, log := h.log ++ [r] } none := by
  have haccepted : r.accepted = none := by
    unfold HyperRecord.accepted
    rw [hsubmitted]
    split <;> rfl
  refine ⟨hquiet, herror, .idle hop hsend, ?_, ?_, hs.chronicle.snoc ?_, ?_, ?_⟩
  · rw [inFlight_append, hflight, hop]
    rfl
  · intro q hq sub hsub
    rw [show t.started = _ from hstarted]
    rcases List.mem_append.mp hq with hq | hq
    · exact hs.submitted q hq sub hsub
    · rw [List.mem_singleton.mp hq, hsubmitted] at hsub
      cases hsub
  · refine ⟨?_, ?_, fun _ => hsubmitted, ?_, ?_, ?_, ?_, ?_⟩
    · intro buf n source _ hanswer
      exact absurd hanswer (hnotOk n source)
    · intro buf n source _ _ hanswer
      exact absurd hanswer (hnotOk n source)
    · intro sub hsub
      exact nomatch hsubmitted.symm.trans hsub
    · intro hfalse
      exact nomatch hdrained.symm.trans hfalse
    · intro _
      rw [hsettled, hsettles]
    · intro _ sub hsub
      exact nomatch hflight.symm.trans hsub
    · intro f _
      rw [hfailure, hsettled, mem_failures_iff]
  · intro q hq
    exact nomatch hop.symm.trans hq
  · intro hfailed _
    obtain ⟨hfailed, hnone⟩ := not_failed_append.mp hfailed
    rw [hfailure, Option.toList_eq_nil_iff] at hnone
    rw [accepted_append, haccepted, Option.toList_none, List.append_nil]
    exact hs.bytes hfailed hnone

/-- The state after a call that submits its buffer. -/
def afterSubmit (h : HyperStream) (s : WriteState) (buf : Buf) (first : Advance) (r : HyperRecord) :
    HyperStream where
  writeState := s
  sendAll :=
    if first.outcome.isNone then some { data := buf.bytes, written := first.written } else none
  wire := h.wire ++ first.wire
  log := h.log ++ [r]

/-- A call whose drain comes to its end, and that submits its buffer: the buffer is
accepted unless its future fails at once. -/
theorem Sound.submits {s : WriteState} {r : HyperRecord} {buf : Buf} {sub : Submission}
    (hs : h.Sound settled) (hsend : h.sendAll = none)
    (hsettles : settled.map (·.source) = inFlight h.log)
    (hclean : settled.bind (·.failure) = none)
    (hsub : sub = ⟨h.writeState.started.length, buf.bytes⟩) (hquiet : Quiet s)
    (herror : s.bufferedError = none)
    (hstarted : s.started = h.writeState.started ++ [(.buffered, sub)])
    (hcall : r.call = .pollWrite buf) (hdrained : r.drained = true) (hsettled : r.settled = settled)
    (hsubmitted : r.submitted = some sub)
    (hflight : r.flight = s.operation.map (·.submission))
    (hslot : (sendAllFuture buf.bytes answers).outcome = none ∧
        (∃ p, s.operation = some p ∧ p.submission = sub ∧ p.operation.outcome = none) ∨
      (sendAllFuture buf.bytes answers).outcome ≠ none ∧ s.operation = none)
    (hanswer : (∃ error, (sendAllFuture buf.bytes answers).outcome = some (.error error) ∧
        r.answer = .write (.ready (Failure.reply ⟨sub, error⟩))) ∨
      (∀ error, (sendAllFuture buf.bytes answers).outcome ≠ some (.error error)) ∧
        r.answer = .write (.ready ⟨.ok buf.bytes.length, none⟩)) :
    Sound (h.afterSubmit s buf (sendAllFuture buf.bytes answers) r) none := by
  have hwire := sendLoop_wire buf.bytes answers 0
  have hunsent : h.unsent = [] := by rw [unsent, hsend]; rfl
  refine ⟨hquiet, herror, ?_, ?_, ?_, hs.chronicle.snoc ?_, ?_, ?_⟩
  · obtain ⟨hnone, p, hop, hp, houtcome⟩ | ⟨hsome, hop⟩ := hslot
    · exact .pending hop houtcome (if_pos (by rw [hnone]; rfl)) (by rw [hp, hsub])
    · exact .idle hop (if_neg (by simpa using hsome))
  · exact (inFlight_append ..).trans hflight
  · intro q hq sub' hsub'
    show _ < s.started.length
    rw [hstarted, List.length_append]
    rcases List.mem_append.mp hq with hq | hq
    · exact Nat.lt_of_lt_of_le (hs.submitted q hq sub' hsub') (Nat.le_add_right ..)
    · rw [List.mem_singleton.mp hq, hsubmitted] at hsub'
      cases hsub'
      rw [hsub]
      exact Nat.lt_succ_self _
  · refine ⟨?_, ?_, ?_, ?_, ?_, ?_, ?_, ?_⟩
    · intro buf' n source hcall' hok
      obtain rfl := HyperCall.pollWrite.inj (hcall.symm.trans hcall')
      obtain ⟨error, -, hfails⟩ | ⟨-, hgood⟩ := hanswer
      · exact nomatch hfails.symm.trans hok
      · cases hgood.symm.trans hok
        rfl
    · intro buf' n source hcall' _ _
      obtain rfl := HyperCall.pollWrite.inj (hcall.symm.trans hcall')
      exact ⟨_, hsub ▸ hsubmitted⟩
    · intro hpending
      obtain ⟨error, -, hfails⟩ | ⟨-, hgood⟩ := hanswer
      · exact nomatch hfails.symm.trans hpending
      · exact nomatch hgood.symm.trans hpending
    · intro sub' hsub' q hq hq'
      obtain rfl := Option.some.inj (hsubmitted.symm.trans hsub')
      have hlt := hs.submitted q hq _ hq'
      rw [hsub] at hlt
      exact Nat.lt_irrefl _ hlt
    · intro hfalse
      exact nomatch hdrained.symm.trans hfalse
    · intro _
      rw [hsettled, hsettles]
    · intro _ sub' hsub'
      rw [hflight] at hsub'
      obtain ⟨p, hp, rfl⟩ := Option.map_eq_some_iff.mp hsub'
      obtain ⟨-, p', hop, hp', -⟩ | ⟨-, hop⟩ := hslot
      · obtain rfl := Option.some.inj (hp.symm.trans hop)
        rw [hsubmitted, hp']
      · exact nomatch hop.symm.trans hp
    · intro f hne
      have hnot : ¬ settled = some f.completion := by
        rintro rfl
        cases hclean
      rw [hsettled, iff_false_right hnot]
      obtain ⟨error, -, hfails⟩ | ⟨-, hgood⟩ := hanswer
      · rw [hfails]
        show f ∉ [(⟨sub, error⟩ : Failure)]
        rw [List.mem_singleton]
        rintro rfl
        exact hne hsubmitted
      · rw [hgood]
        exact List.not_mem_nil
  · intro q hq
    obtain ⟨hnone, p, hop, hp, -⟩ | ⟨-, hop⟩ := hslot
    · obtain rfl := Option.some.inj (hop.symm.trans hq)
      obtain ⟨error, hfails, -⟩ | ⟨-, hgood⟩ := hanswer
      · exact nomatch hnone.symm.trans hfails
      · have haccepted : r.accepted = some sub.data := by
          rw [HyperRecord.accepted, hgood, hsubmitted]
          rfl
        show (accepted (h.log ++ [r])).getLast? = _
        rw [accepted_append, haccepted, hp]
        simp
    · exact nomatch hop.symm.trans hq
  · intro hfailed _
    obtain ⟨hfailed, hnone⟩ := not_failed_append.mp hfailed
    obtain ⟨error, -, hfails⟩ | ⟨hok, hgood⟩ := hanswer
    · rw [hfails] at hnone
      cases hnone
    · have haccepted : r.accepted = some buf.bytes := by
        rw [HyperRecord.accepted, hgood, hsubmitted, hsub]
        rfl
      show (accepted (h.log ++ [r])).flatten = (h.wire ++ _) ++ _
      rw [accepted_append, haccepted, List.flatten_append, hs.bytes hfailed hclean, hunsent,
        List.append_nil, List.append_assoc]
      congr 1
      rw [Option.toList_some, List.flatten_singleton]
      unfold unsent afterSubmit
      dsimp only
      cases houtcome : (sendAllFuture buf.bytes answers).outcome with
      | none => exact hwire.symm
      | some result =>
          cases result with
          | error error => exact absurd houtcome (hok error)
          | ok n =>
              rw [show (sendLoop buf.bytes answers 0).written = _ from rfl, sendLoop_ok houtcome,
                List.append_nil] at hwire
              exact hwire.symm.trans (List.append_nil _).symm

/-! ## The calls -/

section Calls

variable {waker : Waker} {polled : List (Except IoError Nat)} {buf : Buf}

theorem Sound.pending {t : WriteState} {r : HyperRecord} (hs : h.Sound settled)
    (hdrained : WriteState.Drained waker h.writeState t .pending)
    (hr : r.drained = drains h.writeState waker) (hsettled : r.settled = settled)
    (hsubmitted : r.submitted = none) (hflight : r.flight = t.operation.map (·.submission))
    (hfailure : r.answer.failure = [])
    (hnotOk : ∀ n source, r.answer ≠ .write (.ready ⟨.ok n, source⟩)) :
    Sound { h with writeState := t, log := h.log ++ [r] } none := by
  obtain ⟨hquiet, hstarted, -, hdrains, hend⟩ := hs.drained hdrained
  obtain ⟨-, rfl, herror, p, hop, houtcome, hop'⟩ | ⟨hready, -⟩ := hend
  · refine hs.waits hquiet herror hstarted (.inr ⟨p, _, hop, hop', rfl, rfl⟩) ?_ hsettled hsubmitted
      hflight hfailure (fun _ n source _ hok => absurd hok (hnotOk n source))
    rw [hr, Bool.eq_false_iff]
    exact fun hready => nomatch hdrains.mp hready
  · cases hready

theorem Sound.pollFlush (hs : h.Sound none) (hcall : h.pollFlush waker polled = some h') :
    h'.Sound none := by
  unfold HyperStream.pollFlush at hcall
  rcases hpoll : h.pollOperation polled with ⟨h₁, settled⟩
  rw [hpoll] at hcall
  obtain ⟨hs₁, -⟩ := hs.pollOperation hpoll
  obtain ⟨⟨s, reply⟩, hflush, rfl⟩ := Option.map_eq_some_iff.mp hcall
  cases WriteState.flushed_of_pollFlush hflush with
  | awaits hdrained => exact hs₁.pending hdrained rfl rfl rfl rfl rfl (by simp)
  | reports hdrained herror =>
      rename_i t failure
      obtain ⟨hquiet, hstarted, -, hdrains, ⟨hpending, -⟩ | ⟨-, hsend, hop, herror', hsettles⟩⟩ :=
        hs₁.drained hdrained
      · cases hpending
      · refine hs₁.ends hsend hsettles ⟨hquiet.queue, hquiet.completed, hquiet.untracked,
          hquiet.buffered⟩ rfl hop hstarted (hdrains.mpr rfl) rfl rfl ?_ ?_ (by simp [Failure.reply])
        · exact congrArg (Option.map _) hop
        · rw [← herror', herror]
          rfl
  | reportsUntracked hdrained _ huntracked =>
      obtain ⟨hquiet, -⟩ := hs₁.drained hdrained
      rw [WriteState.untrackedError, hquiet.untracked] at huntracked
      cases huntracked
  | flushed hdrained herror =>
      obtain ⟨hquiet, hstarted, -, hdrains, ⟨hpending, -⟩ | ⟨-, hsend, hop, herror', hsettles⟩⟩ :=
        hs₁.drained hdrained
      · cases hpending
      · refine hs₁.ends hsend hsettles hquiet herror hop hstarted (hdrains.mpr rfl) rfl rfl ?_ ?_
          (by simp)
        · exact congrArg (Option.map _) hop
        · rw [← herror', herror]
          rfl

theorem Sound.requestShutdown (hs : h.Sound settled) :
    Sound { h with writeState := h.writeState.requestShutdown } settled := by
  refine ⟨⟨hs.quiet.queue, hs.quiet.completed, hs.quiet.untracked, hs.quiet.buffered⟩, hs.noError,
    ?_, hs.flight, hs.submitted, hs.chronicle, hs.last, hs.bytes⟩
  cases hs.slot with
  | idle hop hsend => exact .idle hop hsend
  | pending hop houtcome hsend hdata => exact .pending hop houtcome hsend hdata
  | settled hop houtcome hsend => exact .settled hop houtcome hsend

theorem Sound.pollShutdown {start : Option (Except IoError Unit)} (hs : h.Sound none)
    (hcall : h.pollShutdown waker polled start = some h') : h'.Sound none := by
  unfold HyperStream.pollShutdown at hcall
  rcases hpoll : h.pollOperation polled with ⟨h₁, settled⟩
  rw [hpoll] at hcall
  obtain ⟨hs₁, -⟩ := hs.pollOperation hpoll
  have hs₂ := hs₁.requestShutdown
  obtain ⟨⟨s, reply⟩, hshutdown, rfl⟩ := Option.map_eq_some_iff.mp hcall
  cases WriteState.shutDown_of_pollShutdown hshutdown with
  | awaits hdrained => exact hs₂.pending hdrained rfl rfl rfl rfl rfl nofun
  | reports hdrained herror =>
      obtain ⟨hquiet, hstarted, -, hdrains, ⟨hpending, -⟩ | ⟨-, hsend, hop, herror', hsettles⟩⟩ :=
        hs₂.drained hdrained
      · cases hpending
      · refine hs₂.ends hsend hsettles ⟨hquiet.queue, hquiet.completed, hquiet.untracked,
          hquiet.buffered⟩ rfl hop hstarted (hdrains.mpr rfl) rfl rfl ?_ ?_ nofun
        · exact congrArg (Option.map _) hop
        · rw [← herror', herror]
          rfl
  | drives hdrained herror =>
      rename_i t
      obtain ⟨hquiet, hstarted, -, hdrains, ⟨hpending, -⟩ | ⟨-, hsend, hop, herror', hsettles⟩⟩ :=
        hs₂.drained hdrained
      · cases hpending
      · refine hs₂.ends hsend hsettles ⟨hquiet.queue, hquiet.completed, hquiet.untracked,
          hquiet.buffered⟩ herror hop hstarted (hdrains.mpr rfl) rfl rfl ?_ ?_ nofun
        · exact congrArg (Option.map _) hop
        · -- the error of the shutdown itself is no failure of a send
          rw [← herror', herror]
          show failureOf _ = []
          rcases (t.shutdown.poll waker start).2.2 with (error | value) | _ <;> rfl

theorem submittedBetween_self {s t : WriteState} (h : t.started = s.started) :
    submittedBetween s t = none := by
  unfold submittedBetween
  rw [h, List.drop_length]
  rfl

theorem submittedBetween_append {s t : WriteState} {kind : WriteKind} {sub : Submission}
    (h : t.started = s.started ++ [(kind, sub)]) : submittedBetween s t = some sub := by
  unfold submittedBetween
  rw [h, List.drop_left]
  rfl

theorem Sound.bufferedWrite {answers : List (Except IoError Nat)} (hs : h.Sound settled)
    (hbuf : buf.bytes ≠ []) (hopen : h.writeState.shutdown.requested = false)
    (hcall : h.bufferedWrite waker buf answers settled (drains h.writeState waker) = some h') :
    h'.Sound none := by
  obtain ⟨⟨s, reply⟩, hwrite, rfl⟩ := Option.map_eq_some_iff.mp hcall
  cases WriteState.bufferedWritten_of_pollBufferedWrite hwrite with
  | empty hempty => exact absurd hempty hbuf
  | refused _ hrequested => cases hopen.symm.trans hrequested
  | awaits _ _ hdrained =>
      have hnothing := submittedBetween_self (hs.drained hdrained).2.1
      dsimp only
      rw [hnothing]
      exact hs.pending hdrained rfl rfl rfl rfl rfl (by simp)
  | reports _ _ hdrained herror =>
      rename_i t failure _ _
      obtain ⟨hquiet, hstarted, -, hdrains, ⟨hpending, -⟩ | ⟨-, hsend, hop, herror', hsettles⟩⟩ :=
        hs.drained hdrained
      · cases hpending
      · have hnothing := submittedBetween_self (t := t.takeBufferedError) hstarted
        dsimp only
        rw [hnothing]
        refine hs.ends hsend hsettles ⟨hquiet.queue, hquiet.completed, hquiet.untracked,
          hquiet.buffered⟩ rfl hop hstarted (hdrains.mpr rfl) rfl rfl ?_ ?_ (by simp [Failure.reply])
        · exact congrArg (Option.map _) hop
        · rw [← herror', herror]
          rfl
  | accepts _ _ hdrained herror hstart =>
      rename_i t _ _
      obtain ⟨hquiet, hstarted, -, hdrains, ⟨hpending, -⟩ | ⟨-, hsend, hop, herror', hsettles⟩⟩ :=
        hs.drained hdrained
      · cases hpending
      · have hsub : t.submission buf = ⟨h.writeState.started.length, buf.bytes⟩ := by
          rw [WriteState.submission, hstarted]
        have hnew : ((t.submitBuffered buf).await (t.newBuffered buf
            (sendAllFuture buf.bytes answers).outcome) waker).started =
            h.writeState.started ++ [(.buffered, t.submission buf)] := by
          rw [← hstarted]
          rfl
        dsimp only
        rw [submittedBetween_append hnew, Option.isSome_some, if_pos rfl, if_pos rfl]
        refine hs.submits hsend hsettles (herror'.symm.trans herror) hsub
          ⟨hquiet.queue, hquiet.completed, hquiet.untracked, ?_⟩ herror hnew rfl (hdrains.mpr rfl) rfl
          rfl rfl (.inl ⟨hstart, _, rfl, rfl, hstart⟩) (.inr ⟨?_, rfl⟩)
        · intro q hq
          cases hq
          rfl
        · intro error herror
          cases hstart.symm.trans herror
  | answers _ _ hdrained herror hstart =>
      rename_i t result _ _
      obtain ⟨hquiet, hstarted, -, hdrains, ⟨hpending, -⟩ | ⟨-, hsend, hop, herror', hsettles⟩⟩ :=
        hs.drained hdrained
      · cases hpending
      · have hsub : t.submission buf = ⟨h.writeState.started.length, buf.bytes⟩ := by
          rw [WriteState.submission, hstarted]
        have hnew : ((t.submitBuffered buf).finish (t.newBuffered buf
            (sendAllFuture buf.bytes answers).outcome) waker result).started =
            h.writeState.started ++ [(.buffered, t.submission buf)] := by
          rw [← hstarted]
          rfl
        dsimp only
        rw [submittedBetween_append hnew, Option.isSome_some, if_pos rfl, if_pos rfl]
        refine hs.submits hsend hsettles (herror'.symm.trans herror) hsub
          ⟨hquiet.queue, hquiet.completed, hquiet.untracked, by simp⟩ herror hnew rfl (hdrains.mpr rfl)
          rfl rfl rfl (.inr ⟨?_, rfl⟩) ?_
        · rw [hstart]
          simp
        · cases result with
          | error error => exact .inl ⟨error, hstart, rfl⟩
          | ok n =>
              refine .inr ⟨fun error herror => ?_, rfl⟩
              cases hstart.symm.trans herror

theorem Sound.pollWrite {answers : List (Except IoError Nat)} (hs : h.Sound none)
    (hcall : h.pollWrite waker buf polled answers = some h') : h'.Sound none := by
  unfold HyperStream.pollWrite at hcall
  by_cases hearly : (buf.bytes.isEmpty || h.writeState.shutdown.requested) = true
  · rw [if_pos hearly] at hcall
    obtain ⟨⟨s, reply⟩, hwrite, rfl⟩ := Option.map_eq_some_iff.mp hcall
    cases WriteState.bufferedWritten_of_pollBufferedWrite hwrite with
    | empty hempty =>
        dsimp only
        rw [submittedBetween_self rfl]
        refine hs.waits hs.quiet hs.noError rfl (.of_eq rfl) rfl rfl rfl rfl rfl ?_
        intro buf' n source hcall hok
        cases hcall
        cases hok
        exact ⟨hempty, rfl⟩
    | refused hbuf =>
        dsimp only
        rw [submittedBetween_self rfl]
        exact hs.waits hs.quiet hs.noError rfl (.of_eq rfl) rfl rfl rfl rfl rfl
          (fun _ _ _ _ hok => nomatch hok)
    | awaits hbuf hopen => simp [hbuf, hopen] at hearly
    | reports hbuf hopen => simp [hbuf, hopen] at hearly
    | accepts hbuf hopen => simp [hbuf, hopen] at hearly
    | answers hbuf hopen => simp [hbuf, hopen] at hearly
  · rw [if_neg hearly] at hcall
    rcases hpoll : h.pollOperation polled with ⟨h₁, settled⟩
    rw [hpoll] at hcall
    obtain ⟨hs₁, -, hshutdown, -⟩ := hs.pollOperation hpoll
    simp only [Bool.or_eq_true, List.isEmpty_iff, not_or, Bool.not_eq_true] at hearly
    exact hs₁.bufferedWrite hearly.1 (hshutdown ▸ hearly.2) hcall

end Calls

/-! ## The kernel -/

theorem Sound.completeSend {answer : Except IoError Nat} (hs : h.Sound none)
    (hstep : h.completeSend answer = some h') : h'.Sound none := by
  unfold HyperStream.completeSend at hstep
  cases hs.slot with
  | idle hop hsend =>
      rw [hsend] at hstep
      cases hstep
  | pending hop houtcome hsend hdata =>
      rename_i p f
      rw [hsend] at hstep
      dsimp only at hstep
      cases hsent : f.sent with
      | some result =>
          rw [hsent] at hstep
          cases hstep
      | none =>
          rw [hsent] at hstep
          cases hstep
          have hcomplete : (f.complete answer).1.data = f.data := by
            unfold SendAll.complete
            split <;> rfl
          refine ⟨hs.quiet, hs.noError, .pending hop houtcome rfl (hcomplete.trans hdata), hs.flight,
            hs.submitted, hs.chronicle, hs.last, fun hfailed _ => ?_⟩
          rw [hs.bytes hfailed rfl, unsent, hsend]
          show _ = (h.wire ++ _) ++ (f.complete answer).1.unsent
          rw [List.append_assoc, f.complete_wire answer hsent]
          rfl

theorem Sound.completeShutdown {s : WriteState} {result : Except IoError Unit} (hs : h.Sound none)
    (hstep : h.writeState.completeShutdown result = some s) :
    Sound { h with writeState := s } none := by
  obtain ⟨operation, -, -, rfl⟩ := WriteState.resolveShutdown_of_completeShutdown hstep
  refine ⟨⟨hs.quiet.queue, hs.quiet.completed, hs.quiet.untracked, hs.quiet.buffered⟩, hs.noError,
    ?_, hs.flight, hs.submitted, hs.chronicle, hs.last, hs.bytes⟩
  have hsame : SameSlot h.writeState (h.writeState.resolveShutdown operation result) := .of_eq rfl
  exact hsame.slot hs.slot

open Transition

theorem sound_of_reachable (hreach : Reachable HyperStream.step (fun _ _ => True) {} h) :
    h.Sound none := by
  refine hreach.invariant (Sound · none) sound_init ?_
  intro h act h' hs _ hstep
  cases act with
  | pollWrite waker buf polled answers => exact hs.pollWrite hstep
  | pollFlush waker polled => exact hs.pollFlush hstep
  | pollShutdown waker polled start => exact hs.pollShutdown hstep
  | completeSend answer => exact hs.completeSend hstep
  | completeShutdown result =>
      obtain ⟨s, hs', rfl⟩ := Option.map_eq_some_iff.mp hstep
      exact hs.completeShutdown hs'

end HyperStream

end Runite.Net
