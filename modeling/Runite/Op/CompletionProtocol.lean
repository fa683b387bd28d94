import Runite.Op.Completion
import Mathlib.Tactic.Common

/-!
# The completion protocol

Three invariants of every interleaving.  `Counted`: whoever exchanges
`finished` calls `finish_async_operation`, once.  `Kept`: at most one result is
stored, and it is in the slot, in the hands of a poll or returned.  `Wakeful`:
while the result waits in the slot, a wake is on its way, or the waker that was
stored last has been woken, or a poll is about to look again.
-/

namespace Runite.Op.Completion

variable {α : Type} {s s' : Completion α}

/-! ## Who finishes the operation -/

/-- The one who exchanged `finished` finishes the operation. -/
structure Counted (s : Completion α) : Prop where
  finished_iff : s.finished = true ↔ s.winner ≠ none ∨ s.dropWon = true
  exclusive : s.dropWon = true → s.winner = none
  winner : ∀ w, s.winner = some w → s.asyncFinished = if w.phase = .done then 1 else 0
  dropped : s.dropWon = true → s.future = .finishAsync ∧ s.asyncFinished = 0 ∨
    s.future = .dropped ∧ s.asyncFinished = 1
  unfinished : s.finished = false → s.asyncFinished = 0
  dropping : s.future = .finishAsync → s.dropWon = true
  called : s.finishCalls ≠ 0 → s.finished = true
  callback : s.cancelLeaves = false → s.cancel ≠ some false
  running : s.cancelLeaves = false → s.future ≠ .runCancel false
  answered : s.cancelLeaves = false → s.future = .dropped → s.finished = true

theorem Counted.init : ({} : Completion α).Counted := by
  constructor <;> simp

theorem Counted.dropWon_eq_false (h : s.Counted)
    (hfuture : s.future ≠ .finishAsync ∧ s.future ≠ .dropped) : s.dropWon = false := by
  by_contra hwon
  obtain ⟨hfinishAsync, -⟩ | ⟨hdropped, -⟩ := h.dropped (by simpa using hwon)
  · exact hfuture.1 hfinishAsync
  · exact hfuture.2 hdropped

/-- The winner goes on to a step that is not its last one. -/
theorem Counted.goesOn {w : Winner α} (h : s.Counted) (phase : FinishPhase)
    (hw : s.winner = some w) (hdone : w.phase ≠ .done) (hphase : phase ≠ .done) :
    (s.setWinner w phase).Counted :=
  { h with
    finished_iff := by simp [h.finished_iff, hw]
    exclusive := by
      intro hwon
      cases hw.symm.trans (h.exclusive hwon)
    winner := by
      rintro _ ⟨⟩
      have hasync := h.winner w hw
      rw [if_neg hdone] at hasync
      simpa [hphase] using hasync }

/-- The future goes on, and neither ends nor finishes the operation. -/
theorem Counted.moves (h : s.Counted) (future : FuturePhase α)
    (hfuture : s.future ≠ .finishAsync ∧ s.future ≠ .dropped)
    (hfuture' : future ≠ .finishAsync ∧ future ≠ .dropped ∧ future ≠ .runCancel false) :
    Counted { s with future } :=
  { h with
    dropped := by simp [h.dropWon_eq_false hfuture]
    dropping := fun hfinishAsync => absurd hfinishAsync hfuture'.1
    running := fun _ => hfuture'.2.2
    answered := fun _ hdropped => absurd hdropped hfuture'.2.1 }

/-- The drop of the future ends, and the operation is finished unless a callback has left
that to it. -/
theorem Counted.drops (h : s.Counted)
    (hfuture : s.future ≠ .finishAsync ∧ s.future ≠ .dropped)
    (hanswered : s.cancelLeaves = false → s.finished = true) :
    Counted { s with future := .dropped } :=
  { h with
    dropped := by simp [h.dropWon_eq_false hfuture]
    dropping := by simp
    running := by simp
    answered := fun hleaves _ => hanswered hleaves }

theorem Counted.wins {value : Option α} {onOwner : Bool} (h : s.Counted)
    (hfinished : s.finished = false) : Counted { s with
      finished := true, winner := some { value, onOwner }, finishCalls := s.finishCalls + 1 } := by
  have hdropWon : s.dropWon = false := by
    by_contra hwon
    have hfinished' := h.finished_iff.mpr (.inr (by simpa using hwon))
    cases hfinished.symm.trans hfinished'
  exact {
    h with
    finished_iff := by simp
    exclusive := by simp [hdropWon]
    winner := by
      rintro _ ⟨⟩
      exact h.unfinished hfinished
    unfinished := by simp
    called := by simp
    answered := by simp }

theorem Counted.stepped (h : s.Counted) (hstep : Stepped s s') : s'.Counted := by
  cases hstep with
  | setCancel finishes hfuture =>
      exact {
        h with
        callback := by simp
        running := by simp [hfuture]
        answered := by simp [hfuture] }
  | publish hfuture => exact h.moves .idle (by simp [hfuture]) (by simp)
  | finishLost hfinished => exact { h with called := fun _ => hfinished }
  | finishWon value onOwner hfinished => exact h.wins hfinished
  | loadInterested hw hphase => exact h.goesOn .storeResult hw (by simp [hphase]) (by simp)
  | loadUninterested hw hphase => exact h.goesOn .takeCancel hw (by simp [hphase]) (by simp)
  | storeResult hw hphase => exact { h.goesOn .swapWakeQueued hw (by simp [hphase]) (by simp) with }
  | alreadyQueued hw hphase => exact h.goesOn .takeCancel hw (by simp [hphase]) (by simp)
  | swapWakeQueued hw hphase => exact { h.goesOn .enqueueWake hw (by simp [hphase]) (by simp) with }
  | enqueueWake hw hphase => exact { h.goesOn .takeCancel hw (by simp [hphase]) (by simp) with }
  | enqueueRefused hw hphase => exact { h.goesOn .takeCancel hw (by simp [hphase]) (by simp) with }
  | takeCancel hw hphase =>
      exact { h.goesOn .finishAsync hw (by simp [hphase]) (by simp) with callback := by simp }
  | @finishAsync w hw hphase =>
      exact {
        h with
        finished_iff := by simp [h.finished_iff, hw]
        exclusive := by
          intro hwon
          cases hw.symm.trans (h.exclusive hwon)
        winner := by
          rintro _ ⟨⟩
          have hasync := h.winner w hw
          simpa [hphase] using hasync
        dropped := by
          intro hwon
          cases hw.symm.trans (h.exclusive hwon)
        unfinished := by
          intro hfinished
          have hfinished' := h.finished_iff.mpr (.inl (by simp [hw]))
          cases hfinished.symm.trans hfinished' }
  | startWake => exact { h with }
  | clearQueued => exact { h with }
  | takeWaker => exact { h with }
  | pollReady => exact { h with }
  | pollPending waker hfuture =>
      exact h.moves (.storeWaker waker) (by simp [hfuture]) (by simp)
  | storeWaker hfuture =>
      exact { h.moves .secondTake (by simp [hfuture]) (by simp) with }
  | secondTakeReady hfuture =>
      exact { h.moves (.clearWaker _) (by simp [hfuture]) (by simp) with }
  | secondTakePending hfuture =>
      exact h.moves .idle (by simp [hfuture]) (by simp)
  | clearWaker hfuture =>
      exact { h.moves .idle (by simp [hfuture]) (by simp) with }
  | drop hfuture =>
      exact { h.moves .dropResult (by simp [hfuture]) (by simp) with }
  | dropResult hfuture =>
      exact { h.moves .dropWaker (by simp [hfuture]) (by simp) with }
  | dropWaker hfuture =>
      exact { h.moves .loadFinished (by simp [hfuture]) (by simp) with }
  | loadFinished hfuture hfinished =>
      exact h.drops (by simp [hfuture]) fun _ => hfinished
  | loadUnfinished hfuture =>
      exact h.moves .takeCancel (by simp [hfuture]) (by simp)
  | @takeCallback finishes hfuture hcancel =>
      -- a callback that leaves `finish` to the operation was given to `set_cancel`
      have hwon := h.dropWon_eq_false (by simp [hfuture])
      exact {
        h with
        dropped := by simp [hwon]
        dropping := by simp
        callback := by simp
        running := by
          rintro hleaves ⟨⟩
          exact h.callback hleaves hcancel
        answered := by simp }
  | takeNoCallback hfuture =>
      exact h.moves .swapFinished (by simp [hfuture]) (by simp)
  | callbackLost hfuture hfinished =>
      exact {
        h.drops (by simp [hfuture]) fun _ => hfinished with
        called := fun _ => hfinished }
  | callbackWon hfuture hfinished =>
      exact (h.wins hfinished).drops (by simp [hfuture]) fun _ => rfl
  | callbackLeaves hfuture =>
      refine h.drops (by simp [hfuture]) ?_
      exact fun hleaves => absurd hfuture (h.running hleaves)
  | swapFinishedLost hfuture hfinished =>
      exact h.drops (by simp [hfuture]) fun _ => hfinished
  | swapFinishedWon hfuture hfinished =>
      have hwinner : s.winner = none := by
        by_contra hwinner
        have hfinished' := h.finished_iff.mpr (.inl hwinner)
        cases hfinished.symm.trans hfinished'
      exact {
        h with
        finished_iff := by simp
        exclusive := fun _ => hwinner
        dropped := fun _ => .inl ⟨rfl, h.unfinished hfinished⟩
        unfinished := by simp
        dropping := by simp
        called := by simp
        running := by simp
        answered := by simp }
  | dropFinishAsync hfuture =>
      have hwon : s.dropWon = true := h.dropping hfuture
      have hfinished : s.finished = true := h.finished_iff.mpr (.inr hwon)
      have hasync : s.asyncFinished = 0 := by
        obtain ⟨-, hasync⟩ | ⟨hdropped, -⟩ := h.dropped hwon
        · exact hasync
        · cases hfuture.symm.trans hdropped
      exact {
        h with
        winner := by
          intro w hw
          cases hw.symm.trans (h.exclusive hwon)
        dropped := fun _ => .inr ⟨rfl, by simp [hasync]⟩
        unfinished := by simp [hfinished]
        dropping := by simp
        running := by simp
        answered := fun _ _ => hfinished }
  | closeOwner => exact { h with }

/-! ## Where the result is -/

def Alive (s : Completion α) : Prop :=
  match s.future with
  | .unpublished | .idle | .storeWaker _ | .secondTake | .clearWaker _ => True
  | _ => False

/-- At most one result is stored; it waits in the slot, is in the hands of a
poll, or was returned, unless the future was dropped. -/
structure Kept (s : Completion α) : Prop where
  interested_iff : s.interested = true ↔ s.Alive
  stored : s.stores = [] ∨ ∃ w, s.winner = some w ∧ s.stores = [w.value] ∧
    w.phase ≠ .loadInterested ∧ w.phase ≠ .storeResult
  result : ∀ v, s.result = some v → s.stores = [some v] ∧ s.observed = [] ∧
    ∀ u, s.future ≠ .clearWaker u
  clearing : ∀ v, s.future = .clearWaker v → s.stores = [some v] ∧ s.observed = []
  observed : s.observed = [] ∨ ∃ v, s.observed = [v] ∧ s.stores = [some v]
  waiting : ∀ v, s.stores = [some v] → s.interested = true →
    s.result = some v ∨ s.future = .clearWaker v ∨ s.observed = [v]

theorem Kept.init : ({} : Completion α).Kept := by
  constructor <;> simp [Alive]

/-- The winner goes on; what it has stored stays stored. -/
theorem Kept.goesOn {w : Winner α} (h : s.Kept) (phase : FinishPhase) (hw : s.winner = some w)
    (hphase : w.phase ≠ .loadInterested → w.phase ≠ .storeResult →
      phase ≠ .loadInterested ∧ phase ≠ .storeResult) : (s.setWinner w phase).Kept :=
  { h with
    stored := by
      obtain hnone | ⟨w', hw', hstores, hload, hstore⟩ := h.stored
      · exact .inl hnone
      · obtain rfl : w = w' := Option.some.inj (hw.symm.trans hw')
        exact .inr ⟨_, rfl, hstores, hphase hload hstore⟩ }

theorem Kept.moves (h : s.Kept) (future : FuturePhase α) (halive : Alive { s with future } ↔ s.Alive)
    (hclear : ∀ v, s.future ≠ .clearWaker v) (hclear' : ∀ v, future ≠ .clearWaker v) :
    Kept { s with future } :=
  { h with
    interested_iff := h.interested_iff.trans halive.symm
    result := fun v hv => ⟨(h.result v hv).1, (h.result v hv).2.1, hclear'⟩
    clearing := fun v hv => absurd hv (hclear' v)
    waiting := by
      intro v hstores hinterested
      obtain hresult | hfuture | hobserved := h.waiting v hstores hinterested
      · exact .inl hresult
      · exact absurd hfuture (hclear v)
      · exact .inr (.inr hobserved) }

theorem Kept.wins {value : Option α} {onOwner : Bool} {calls : Nat} (h : s.Kept)
    (hcounted : s.Counted) (hfinished : s.finished = false) : Kept { s with
      finished := true, winner := some { value, onOwner }, finishCalls := calls } :=
  { h with
    stored := by
      obtain hnone | ⟨w, hw, -⟩ := h.stored
      · exact .inl hnone
      · have hfinished' := hcounted.finished_iff.mpr (.inl (by simp [hw]))
        cases hfinished.symm.trans hfinished' }

theorem Kept.storeResult {w : Winner α} (h : s.Kept) (hw : s.winner = some w)
    (hphase : w.phase = .storeResult) : Kept { s.setWinner w .swapWakeQueued with
      result := w.value, stores := s.stores ++ [w.value], woken := [] } := by
  have hstores : s.stores = [] := by
    obtain hnone | ⟨w', hw', -, -, hstore⟩ := h.stored
    · exact hnone
    · obtain rfl : w = w' := Option.some.inj (hw.symm.trans hw')
      exact absurd hphase hstore
  have hobserved : s.observed = [] := by
    obtain hnone | ⟨v, -, hone⟩ := h.observed
    · exact hnone
    · cases hstores.symm.trans hone
  have hclear (v : α) : s.future ≠ .clearWaker v := by
    intro hfuture
    cases hstores.symm.trans (h.clearing v hfuture).1
  exact {
    h with
    stored := .inr ⟨_, rfl, by simp [hstores], by simp, by simp⟩
    result := fun v hv => ⟨by simpa [hstores] using hv, hobserved, hclear⟩
    clearing := fun v hv => absurd hv (hclear v)
    observed := .inl hobserved
    waiting := by
      intro v hv _
      exact .inl (by simpa [hstores] using hv) }

theorem Kept.stepped (h : s.Kept) (hcounted : s.Counted) (hstep : Stepped s s') : s'.Kept := by
  cases hstep with
  | setCancel => exact { h with }
  | publish hfuture => exact h.moves .idle (by simp [Alive, hfuture]) (by simp [hfuture]) (by simp)
  | finishLost => exact { h with }
  | finishWon value onOwner hfinished => exact h.wins hcounted hfinished
  | loadInterested hw hphase => exact h.goesOn .storeResult hw (by simp [hphase])
  | loadUninterested hw hphase => exact h.goesOn .takeCancel hw (by simp)
  | storeResult hw hphase => exact h.storeResult hw hphase
  | alreadyQueued hw hphase => exact h.goesOn .takeCancel hw (by simp)
  | swapWakeQueued hw hphase => exact { h.goesOn .enqueueWake hw (by simp) with }
  | enqueueWake hw hphase => exact { h.goesOn .takeCancel hw (by simp) with }
  | enqueueRefused hw hphase => exact { h.goesOn .takeCancel hw (by simp) with }
  | takeCancel hw hphase => exact { h.goesOn .finishAsync hw (by simp) with }
  | finishAsync hw hphase => exact { h.goesOn .done hw (by simp) with }
  | startWake => exact { h with }
  | clearQueued => exact { h with }
  | takeWaker => exact { h with }
  | @pollReady value hfuture hresult =>
      obtain ⟨hstores, hobserved, -⟩ := h.result value hresult
      exact {
        h with
        result := by simp
        clearing := by simp [hfuture]
        observed := .inr ⟨value, by simp [hobserved], hstores⟩
        waiting := by
          intro v hv _
          cases hstores.symm.trans hv
          exact .inr (.inr (by simp [hobserved])) }
  | pollPending waker hfuture =>
      exact h.moves (.storeWaker waker) (by simp [Alive, hfuture]) (by simp [hfuture]) (by simp)
  | storeWaker hfuture =>
      exact { h.moves .secondTake (by simp [Alive, hfuture]) (by simp [hfuture]) (by simp) with }
  | @secondTakeReady value hfuture hresult =>
      obtain ⟨hstores, hobserved, -⟩ := h.result value hresult
      exact {
        h with
        interested_iff := h.interested_iff.trans (by simp [Alive, hfuture])
        result := by simp
        clearing := by
          rintro v ⟨⟩
          exact ⟨hstores, hobserved⟩
        waiting := by
          intro v hv _
          cases hstores.symm.trans hv
          exact .inr (.inl rfl) }
  | secondTakePending hfuture =>
      exact h.moves .idle (by simp [Alive, hfuture]) (by simp [hfuture]) (by simp)
  | @clearWaker value hfuture =>
      obtain ⟨hstores, hobserved⟩ := h.clearing value hfuture
      exact {
        h with
        interested_iff := h.interested_iff.trans (by simp [Alive, hfuture])
        result := fun v hv => absurd hfuture ((h.result v hv).2.2 value)
        clearing := by simp
        observed := .inr ⟨value, by simp [hobserved], hstores⟩
        waiting := by
          intro v hv _
          cases hstores.symm.trans hv
          exact .inr (.inr (by simp [hobserved])) }
  | drop hfuture =>
      exact {
        h with
        interested_iff := by simp [Alive]
        result := fun v hv => ⟨(h.result v hv).1, (h.result v hv).2.1, by simp⟩
        clearing := by simp
        waiting := by simp }
  | dropResult hfuture =>
      -- the result is dropped with the future, which is no longer interested
      have hdead : ¬ s.interested = true := by
        rw [h.interested_iff]
        simp [Alive, hfuture]
      exact {
        h with
        interested_iff := h.interested_iff.trans (by simp [Alive, hfuture])
        result := by simp
        clearing := by simp
        waiting := fun v _ hinterested => absurd hinterested hdead }
  | dropWaker hfuture =>
      exact { h.moves .loadFinished (by simp [Alive, hfuture]) (by simp [hfuture]) (by simp) with }
  | loadFinished hfuture =>
      exact h.moves .dropped (by simp [Alive, hfuture]) (by simp [hfuture]) (by simp)
  | loadUnfinished hfuture =>
      exact h.moves .takeCancel (by simp [Alive, hfuture]) (by simp [hfuture]) (by simp)
  | @takeCallback finishes hfuture =>
      exact { h.moves (.runCancel finishes) (by simp [Alive, hfuture]) (by simp [hfuture])
        (by simp) with }
  | takeNoCallback hfuture =>
      exact h.moves .swapFinished (by simp [Alive, hfuture]) (by simp [hfuture]) (by simp)
  | callbackLost hfuture =>
      exact { h.moves .dropped (by simp [Alive, hfuture]) (by simp [hfuture]) (by simp) with }
  | callbackWon hfuture hfinished =>
      exact (h.wins hcounted hfinished).moves .dropped (by simp [Alive, hfuture])
        (by simp [hfuture]) (by simp)
  | callbackLeaves hfuture =>
      exact h.moves .dropped (by simp [Alive, hfuture]) (by simp [hfuture]) (by simp)
  | swapFinishedLost hfuture =>
      exact h.moves .dropped (by simp [Alive, hfuture]) (by simp [hfuture]) (by simp)
  | swapFinishedWon hfuture =>
      exact { h.moves .finishAsync (by simp [Alive, hfuture]) (by simp [hfuture]) (by simp) with }
  | dropFinishAsync hfuture =>
      exact { h.moves .dropped (by simp [Alive, hfuture]) (by simp [hfuture]) (by simp) with }
  | closeOwner => exact { h with }

/-! ## Who is woken -/

/-- The winner, if there is one, has not come to queue the wake. -/
def BeforeWake (s : Completion α) : Prop :=
  ∀ w, s.winner = some w →
    w.phase = .loadInterested ∨ w.phase = .storeResult ∨ w.phase = .swapWakeQueued

/-- A wake is on its way: the winner is about to queue it, it is in the queue, or
the owner's thread runs it. -/
def WakeComing (s : Completion α) : Prop :=
  (∃ w, s.winner = some w ∧ (w.phase = .swapWakeQueued ∨ w.phase = .enqueueWake)) ∨
    s.queuedWakes ≠ 0 ∨ s.runner ≠ .idle

/-- The waker that was stored last has been woken since the result was stored. -/
def LastWoken (s : Completion α) : Prop :=
  ∀ w, s.lastWaker = some w → w ∈ s.woken

structure Wakeful (s : Completion α) : Prop where
  before : s.BeforeWake →
    s.wakeQueued = false ∧ s.queuedWakes = 0 ∧ s.runner = .idle ∧ s.woken = []
  enqueueing : ∀ w, s.winner = some w → w.phase = .enqueueWake →
    s.queuedWakes = 0 ∧ s.runner = .idle
  slot : s.interested = true → s.observed = [] → (∀ v, s.future ≠ .clearWaker v) →
    s.waker = s.lastWaker ∨ s.LastWoken
  late : ∀ v, s.result = some v → s.interested = true → s.ownerClosed = false →
    s.WakeComing ∨ s.future = .secondTake ∨ s.LastWoken

theorem Wakeful.init : ({} : Completion α).Wakeful := by
  constructor <;> simp

/-- The winner goes on between steps that do not concern the wake. -/
theorem Wakeful.goesOn {w : Winner α} (h : s.Wakeful) (phase : FinishPhase)
    (hw : s.winner = some w) (hswap : w.phase ≠ .swapWakeQueued)
    (henqueue : w.phase ≠ .enqueueWake)
    (hphase : phase = .storeResult ∧ w.phase = .loadInterested ∨
      phase = .takeCancel ∨ phase = .finishAsync ∨ phase = .done) :
    (s.setWinner w phase).Wakeful :=
  { h with
    before := by
      intro hbefore
      have hearly := hbefore _ rfl
      obtain ⟨-, hload⟩ | rfl | rfl | rfl := hphase
      · refine h.before fun w' hw' => ?_
        obtain rfl : w = w' := Option.some.inj (hw.symm.trans hw')
        exact .inl hload
      all_goals simp at hearly
    enqueueing := by
      rintro _ ⟨⟩ henqueue'
      obtain ⟨rfl, -⟩ | rfl | rfl | rfl := hphase
      all_goals cases henqueue'
    late := by
      intro v hresult hinterested hopen
      refine (h.late v hresult hinterested hopen).imp_left fun hcoming => ?_
      obtain ⟨w', hw', hwinner⟩ | hrest := hcoming
      · obtain rfl : w = w' := Option.some.inj (hw.symm.trans hw')
        exact absurd hwinner (not_or.mpr ⟨hswap, henqueue⟩)
      · exact .inr hrest }

/-- The future goes on, and it was not about to look for the result. -/
theorem Wakeful.moves (h : s.Wakeful) (future : FuturePhase α)
    (hclear : ∀ v, s.future ≠ .clearWaker v) (hsecond : s.future ≠ .secondTake) :
    Wakeful { s with future } :=
  { h with
    slot := fun hinterested hobserved _ => h.slot hinterested hobserved hclear
    late := by
      intro v hresult hinterested hopen
      obtain hcoming | hfuture | hwoken := h.late v hresult hinterested hopen
      · exact .inl hcoming
      · exact absurd hfuture hsecond
      · exact .inr (.inr hwoken) }

theorem Wakeful.wins {value : Option α} {onOwner : Bool} {calls : Nat} (h : s.Wakeful)
    (hcounted : s.Counted) (hfinished : s.finished = false) : Wakeful { s with
      finished := true, winner := some { value, onOwner }, finishCalls := calls } := by
  have hwinner : s.winner = none := by
    by_contra hwinner
    have hfinished' := hcounted.finished_iff.mpr (.inl hwinner)
    cases hfinished.symm.trans hfinished'
  exact {
    h with
    before := fun _ => h.before (by simp [BeforeWake, hwinner])
    enqueueing := by simp
    late := by
      intro v hresult hinterested hopen
      refine (h.late v hresult hinterested hopen).imp_left fun hcoming => ?_
      obtain ⟨w, hw, -⟩ | hrest := hcoming
      · cases hwinner.symm.trans hw
      · exact .inr hrest }

/-- No wake is there before the winner has come to queue it. -/
theorem Wakeful.untouched {w : Winner α} (h : s.Wakeful) (hw : s.winner = some w)
    (hphase : w.phase = .loadInterested ∨ w.phase = .storeResult ∨ w.phase = .swapWakeQueued) :
    s.wakeQueued = false ∧ s.queuedWakes = 0 ∧ s.runner = .idle ∧ s.woken = [] := by
  refine h.before fun w' hw' => ?_
  obtain rfl : w = w' := Option.some.inj (hw.symm.trans hw')
  exact hphase

/-- While a wake is in the queue or runs, the winner is past the point where it queues one. -/
theorem Wakeful.past (h : s.Wakeful) (hwake : s.queuedWakes ≠ 0 ∨ s.runner ≠ .idle) :
    ¬ s.BeforeWake ∧ ∀ w, s.winner = some w → w.phase ≠ .enqueueWake := by
  constructor
  · intro hbefore
    obtain ⟨-, hwakes, hrunner, -⟩ := h.before hbefore
    exact hwake.elim (absurd hwakes) (absurd hrunner)
  · intro w hw hphase
    obtain ⟨hwakes, hrunner⟩ := h.enqueueing w hw hphase
    exact hwake.elim (absurd hwakes) (absurd hrunner)

/-- The owner's thread takes the waker out and wakes it. -/
theorem Wakeful.takeWaker (h : s.Wakeful) (hkept : s.Kept) (hrunner : s.runner = .takeWaker) :
    Wakeful { s with waker := none, woken := s.woken ++ s.waker.toList, runner := .idle } := by
  obtain ⟨hpast, hphase⟩ := h.past (.inr (by simp [hrunner]))
  have hlast (hslot : s.waker = s.lastWaker ∨ s.LastWoken) (w : Waker)
      (hw : s.lastWaker = some w) : w ∈ s.woken ++ s.waker.toList := by
    obtain heq | hwoken := hslot
    · simp [heq, hw]
    · exact List.mem_append_left _ (hwoken w hw)
  exact {
    h with
    before := fun hbefore => absurd hbefore hpast
    enqueueing := fun w hw hphase' => absurd hphase' (hphase w hw)
    slot := fun hinterested hobserved hclear =>
      .inr (hlast (h.slot hinterested hobserved hclear))
    late := by
      intro v hresult hinterested hopen
      obtain ⟨-, hobserved, hclear⟩ := hkept.result v hresult
      exact .inr (.inr (hlast (h.slot hinterested hobserved hclear))) }

theorem Wakeful.stepped (h : s.Wakeful) (hcounted : s.Counted) (hkept : s.Kept)
    (hstep : Stepped s s') : s'.Wakeful := by
  cases hstep with
  | setCancel => exact { h with }
  | publish hfuture => exact h.moves .idle (by simp [hfuture]) (by simp [hfuture])
  | finishLost => exact { h with }
  | finishWon value onOwner hfinished => exact h.wins hcounted hfinished
  | loadInterested hw hphase =>
      exact h.goesOn .storeResult hw (by simp [hphase]) (by simp [hphase]) (by simp [hphase])
  | loadUninterested hw hphase =>
      exact h.goesOn .takeCancel hw (by simp [hphase]) (by simp [hphase]) (by simp)
  | storeResult hw hphase =>
      -- no wake has run before this one, so the slot holds the waker stored last
      obtain ⟨hqueued, hwakes, hrunner, hwoken⟩ := h.untouched hw (.inr (.inl hphase))
      exact {
        h with
        before := fun _ => ⟨hqueued, hwakes, hrunner, rfl⟩
        enqueueing := by simp
        slot := by simpa [LastWoken, hwoken] using h.slot
        late := fun _ _ _ _ => .inl (.inl ⟨_, rfl, .inl rfl⟩) }
  | alreadyQueued hw hphase hqueued =>
      -- only the winner sets `wake_queued`
      obtain ⟨hunqueued, -⟩ := h.untouched hw (.inr (.inr hphase))
      cases hqueued.symm.trans hunqueued
  | swapWakeQueued hw hphase =>
      obtain ⟨-, hwakes, hrunner, -⟩ := h.untouched hw (.inr (.inr hphase))
      exact {
        h with
        before := fun hbefore => by simpa using hbefore _ rfl
        enqueueing := fun _ _ _ => ⟨hwakes, hrunner⟩
        late := fun _ _ _ _ => .inl (.inl ⟨_, rfl, .inr rfl⟩) }
  | enqueueWake hw hphase =>
      exact {
        h with
        before := fun hbefore => by simpa using hbefore _ rfl
        enqueueing := by simp
        late := fun _ _ _ _ => .inl (.inr (.inl (by simp))) }
  | enqueueRefused hw hphase hclosed =>
      exact {
        h with
        before := fun hbefore => by simpa using hbefore _ rfl
        enqueueing := by simp
        late := by simp [hclosed] }
  | takeCancel hw hphase =>
      exact { h.goesOn .finishAsync hw (by simp [hphase]) (by simp [hphase]) (by simp) with }
  | finishAsync hw hphase =>
      exact { h.goesOn .done hw (by simp [hphase]) (by simp [hphase]) (by simp) with }
  | startWake hrunner hopen hwakes =>
      obtain ⟨hpast, hphase⟩ := h.past (.inl hwakes)
      exact {
        h with
        before := fun hbefore => absurd hbefore hpast
        enqueueing := fun w hw hphase' => absurd hphase' (hphase w hw)
        late := fun _ _ _ _ => .inl (.inr (.inr (by simp))) }
  | clearQueued hrunner =>
      obtain ⟨hpast, hphase⟩ := h.past (.inr (by simp [hrunner]))
      exact {
        h with
        before := fun hbefore => absurd hbefore hpast
        enqueueing := fun w hw hphase' => absurd hphase' (hphase w hw)
        late := fun _ _ _ _ => .inl (.inr (.inr (by simp))) }
  | takeWaker hrunner => exact h.takeWaker hkept hrunner
  | pollReady => exact { h with slot := by simp, late := by simp }
  | pollPending waker hfuture =>
      exact h.moves (.storeWaker waker) (by simp [hfuture]) (by simp [hfuture])
  | storeWaker =>
      exact { h with slot := fun _ _ _ => .inl rfl, late := fun _ _ _ _ => .inr (.inl rfl) }
  | secondTakeReady => exact { h with slot := by simp, late := by simp }
  | secondTakePending hfuture hresult =>
      exact {
        h with
        slot := fun hinterested hobserved _ => h.slot hinterested hobserved (by simp [hfuture])
        late := by simp [hresult] }
  | clearWaker hfuture =>
      -- the result is taken, and nobody waits any longer
      exact {
        h with
        slot := by simp
        late := fun v hresult => absurd hfuture ((hkept.result v hresult).2.2 _) }
  | drop => exact { h with slot := by simp, late := by simp }
  | dropResult hfuture =>
      exact {
        h with
        slot := fun hinterested hobserved _ => h.slot hinterested hobserved (by simp [hfuture])
        late := by simp }
  | dropWaker hfuture =>
      have hdead : ¬ s.interested = true := by
        rw [hkept.interested_iff]
        simp [Alive, hfuture]
      exact {
        h with
        slot := fun hinterested => absurd hinterested hdead
        late := fun _ _ hinterested => absurd hinterested hdead }
  | loadFinished hfuture => exact h.moves .dropped (by simp [hfuture]) (by simp [hfuture])
  | loadUnfinished hfuture => exact h.moves .takeCancel (by simp [hfuture]) (by simp [hfuture])
  | @takeCallback finishes hfuture =>
      exact { h.moves (.runCancel finishes) (by simp [hfuture]) (by simp [hfuture]) with }
  | takeNoCallback hfuture => exact h.moves .swapFinished (by simp [hfuture]) (by simp [hfuture])
  | callbackLost hfuture => exact { h.moves .dropped (by simp [hfuture]) (by simp [hfuture]) with }
  | callbackWon hfuture hfinished =>
      exact (h.wins hcounted hfinished).moves .dropped (by simp [hfuture]) (by simp [hfuture])
  | callbackLeaves hfuture => exact h.moves .dropped (by simp [hfuture]) (by simp [hfuture])
  | swapFinishedLost hfuture => exact h.moves .dropped (by simp [hfuture]) (by simp [hfuture])
  | swapFinishedWon hfuture =>
      exact { h.moves .finishAsync (by simp [hfuture]) (by simp [hfuture]) with }
  | dropFinishAsync hfuture =>
      exact { h.moves .dropped (by simp [hfuture]) (by simp [hfuture]) with }
  | closeOwner hrunner =>
      exact {
        h with
        before := fun hbefore =>
          ⟨(h.before hbefore).1, rfl, hrunner, (h.before hbefore).2.2.2⟩
        enqueueing := fun w hw hphase => ⟨rfl, hrunner⟩
        late := by simp }

theorem invariants_of_reachable (hreach : s.Reachable) : s.Counted ∧ s.Kept ∧ s.Wakeful := by
  refine Transition.Reachable.invariant (fun s => s.Counted ∧ s.Kept ∧ s.Wakeful)
    ⟨.init, .init, .init⟩ ?_ hreach
  intro s action s' ⟨hcounted, hkept, hwakeful⟩ _ hstep
  have hstepped := stepped_of_step hstep
  exact ⟨hcounted.stepped hstepped, hkept.stepped hcounted hstepped,
    hwakeful.stepped hcounted hkept hstepped⟩

end Runite.Op.Completion
