import Runite.Op.CompletionProtocol

/-!
# Where the completion protocol ends

The steps left to the calls that have begun are bounded, and what the protocol
promises can be read off a state in which none is left.
-/

namespace Runite.Op

variable {α : Type}

/-! ## Calls that have begun come to their end -/

/-- A step of a call that has begun, or of a wake in the queue. -/
def Action.Internal : Action α → Prop
  | .winner | .runWake | .future => True
  | _ => False

/-- A bound on the steps left to the winner, the wake it queues included. -/
def FinishPhase.work : FinishPhase → Nat
  | .loadInterested => 10
  | .storeResult => 9
  | .swapWakeQueued => 8
  | .enqueueWake => 7
  | .takeCancel => 2
  | .finishAsync => 1
  | .done => 0

def RunnerPhase.work : RunnerPhase → Nat
  | .idle => 0
  | .clearQueued => 2
  | .takeWaker => 1

/-- A bound on the steps left to a poll or a drop, with those of the `finish`
that the cancel callback may call. -/
def FuturePhase.work : FuturePhase α → Nat
  | .unpublished | .idle | .dropped => 0
  | .storeWaker _ => 3
  | .secondTake => 2
  | .clearWaker _ => 1
  | .dropResult => 15
  | .dropWaker => 14
  | .loadFinished => 13
  | .takeCancel => 12
  | .runCancel _ => 11
  | .swapFinished => 2
  | .finishAsync => 1

namespace Completion

variable {s s' : Completion α}

/-- A bound on the steps left to the calls that have begun. -/
def work (s : Completion α) : Nat :=
  (s.winner.elim 0 fun w => w.phase.work) + s.future.work + 4 * s.queuedWakes + s.runner.work

theorem work_winnerStep {w : Winner α} (hw : s.winner = some w)
    (hstep : s.winnerStep w = some s') : s'.work < s.work := by
  unfold winnerStep at hstep
  unfold work
  rw [hw]
  split at hstep
  next hphase =>
    cases hstep
    split <;> simp [hphase, FinishPhase.work]
  next hphase =>
    cases hstep
    simp [hphase, FinishPhase.work]
  next hphase =>
    split at hstep <;> cases hstep <;> simp [hphase, FinishPhase.work]
  next hphase =>
    split at hstep <;> cases hstep
    · simp only [setWinner, Option.elim_some, hphase, FinishPhase.work]
      omega
    · simp [hphase, FinishPhase.work]
  next hphase =>
    cases hstep
    simp [hphase, FinishPhase.work]
  next hphase =>
    cases hstep
    simp [hphase, FinishPhase.work]
  next hphase => cases hstep

theorem work_runWake (hstep : s.runWake = some s') : s'.work < s.work := by
  unfold runWake at hstep
  unfold work
  split at hstep
  next hrunner =>
    obtain ⟨hopen, heq⟩ := Option.ite_none_left_eq_some.mp hstep
    cases heq
    have hqueued : s.queuedWakes ≠ 0 := fun h => hopen (.inr h)
    simp only [hrunner, RunnerPhase.work]
    omega
  next hrunner =>
    cases hstep
    simp [hrunner, RunnerPhase.work]
  next hrunner =>
    cases hstep
    simp [hrunner, RunnerPhase.work]

theorem work_finish (value : Option α) (onOwner : Bool) :
    (s.finish value onOwner).work ≤ s.work + 10 := by
  unfold finish work
  split
  · simp
  · simp only [Option.elim_some, FinishPhase.work]
    omega

theorem work_futureStep (hstep : s.futureStep = some s') : s'.work < s.work := by
  unfold futureStep at hstep
  split at hstep
  case h_9 hfuture =>
    cases hstep
    cases hfinished : s.finished <;> simp [work, hfuture, FuturePhase.work]
  case h_11 finishes hfuture =>
    cases finishes with
    | false =>
        cases hstep
        simp [work, hfuture, FuturePhase.work]
    | true =>
        cases hstep
        have hfinish := work_finish (s := { s with future := .dropped }) none true
        simp only [work, hfuture, FuturePhase.work] at hfinish ⊢
        simp only [if_true]
        omega
  all_goals first
    | cases hstep
    | (split at hstep <;> cases hstep)
  all_goals simp_all [work, FuturePhase.work]

theorem work_lt_of_internal {action : Action α} (hinternal : action.Internal)
    (hstep : s.step action = some s') : s'.work < s.work := by
  cases action with
  | winner =>
      obtain ⟨w, hw, hwin⟩ := Option.bind_eq_some_iff.mp hstep
      exact work_winnerStep hw hwin
  | runWake => exact work_runWake hstep
  | future => exact work_futureStep hstep
  | _ => exact hinternal.elim

/-- A run of internal steps is no longer than the work left. -/
theorem length_le_work {actions : List (Action α)} (hinternal : ∀ a ∈ actions, a.Internal)
    (hrun : Transition.run step s actions = some s') : actions.length ≤ s.work := by
  induction actions generalizing s with
  | nil => simp
  | cons a actions ih =>
      obtain ⟨t, ht, hrest⟩ := Option.bind_eq_some_iff.mp hrun
      have hlt := work_lt_of_internal (hinternal a (by simp)) ht
      have hle := ih (fun b hb => hinternal b (by simp [hb])) hrest
      simp only [List.length_cons]
      omega

/-! ## Settled states -/

/-- Every call that has begun has returned, and every wake in the queue has run. -/
def Settled (s : Completion α) : Prop :=
  s.step .winner = none ∧ s.step .runWake = none ∧ s.step .future = none

instance [DecidableEq α] (s : Completion α) : Decidable s.Settled :=
  inferInstanceAs (Decidable (_ ∧ _ ∧ _))

theorem Settled.phase_eq_done (h : s.Settled) {w : Winner α} (hw : s.winner = some w) :
    w.phase = .done := by
  have hnone : s.winnerStep w = none := by simpa [step, hw] using h.1
  unfold winnerStep at hnone
  cases hphase : w.phase <;> simp [hphase] at hnone ⊢
  all_goals grind

theorem Settled.runner_eq_idle (h : s.Settled) : s.runner = .idle := by
  have hnone : s.runWake = none := h.2.1
  unfold runWake at hnone
  cases hrunner : s.runner <;> simp [hrunner] at hnone ⊢

theorem Settled.queuedWakes_eq_zero (h : s.Settled) (hopen : s.ownerClosed = false) :
    s.queuedWakes = 0 := by
  have hnone : s.runWake = none := h.2.1
  simpa [runWake, h.runner_eq_idle, hopen] using hnone

theorem Settled.not_wakeComing (h : s.Settled) (hopen : s.ownerClosed = false) :
    ¬ s.WakeComing := by
  rintro (⟨w, hw, hphase⟩ | hqueued | hrunner)
  · simp [h.phase_eq_done hw] at hphase
  · exact hqueued (h.queuedWakes_eq_zero hopen)
  · exact hrunner h.runner_eq_idle

theorem Settled.future_eq (h : s.Settled) :
    s.future = .unpublished ∨ s.future = .idle ∨ s.future = .dropped := by
  have hnone : s.futureStep = none := h.2.2
  unfold futureStep at hnone
  cases hfuture : s.future <;> simp [hfuture] at hnone ⊢
  all_goals grind

/-! ## The protocol -/

theorem Counted.asyncFinished_le_one (h : s.Counted) : s.asyncFinished ≤ 1 := by
  have hwinner := h.winner
  have hdropped := h.dropped
  have hunfinished := h.unfinished
  have hiff := h.finished_iff
  cases hw : s.winner with
  | some w =>
      rw [hwinner w hw]
      split <;> omega
  | none =>
      cases hfinished : s.finished with
      | false => simp [hunfinished hfinished]
      | true =>
          have hwon : s.dropWon = true := by simpa [hw] using hiff.mp hfinished
          rcases hdropped hwon with ⟨-, hzero⟩ | ⟨-, hone⟩ <;> omega

/-- Whoever exchanged `finished` has finished the operation by the time it returned. -/
theorem Settled.asyncFinished_eq_one (h : s.Settled) (hcounted : s.Counted)
    (hfinished : s.finished = true) : s.asyncFinished = 1 := by
  rcases hcounted.finished_iff.mp hfinished with hwinner | hwon
  · obtain ⟨w, hw⟩ := Option.ne_none_iff_exists'.mp hwinner
    simp [hcounted.winner w hw, h.phase_eq_done hw]
  · rcases hcounted.dropped hwon with ⟨hfuture, -⟩ | ⟨-, hone⟩
    · simpa [hfuture] using h.future_eq
    · exact hone

theorem Settled.observed_or_woken (h : s.Settled) (hkept : s.Kept) (hwakeful : s.Wakeful)
    {v : α} (hstored : s.stores = [some v]) (hinterested : s.interested = true)
    (hopen : s.ownerClosed = false) : s.observed = [v] ∨ s.result = some v ∧ s.LastWoken := by
  rcases hkept.waiting v hstored hinterested with hresult | hclearing | hobserved
  · rcases hwakeful.late v hresult hinterested hopen with hcoming | hsecond | hwoken
    · exact absurd hcoming (h.not_wakeComing hopen)
    · simpa [hsecond] using h.future_eq
    · exact .inr ⟨hresult, hwoken⟩
  · simpa [hclearing] using h.future_eq
  · exact .inl hobserved

/-- In every interleaving, the operation is finished at most once, and once when
every call that has begun has returned and one of them was a `finish`, or a drop
of the future whose cancel callback, if any, calls `finish`; at most one result is
stored, and it is returned by at most one poll; and unless the future is dropped or
its owner's thread closed, a poll has returned the result, or the result waits
and the waker stored last was woken after the store. -/
theorem completion_of_reachable (hreach : s.Reachable) :
    s.asyncFinished ≤ 1 ∧
    (s.Settled → s.finishCalls ≠ 0 ∨ s.future = .dropped ∧ s.cancelLeaves = false →
      s.asyncFinished = 1) ∧
    s.stores.length ≤ 1 ∧ s.observed.length ≤ 1 ∧ (∀ v ∈ s.observed, some v ∈ s.stores) ∧
    (∀ v, some v ∈ s.stores → s.Settled → s.interested = true → s.ownerClosed = false →
      s.observed = [v] ∨ s.result = some v ∧ s.LastWoken) ∧
    (∀ actions s', (∀ a ∈ actions, a.Internal) → Transition.run step s actions = some s' →
      actions.length ≤ s.work) := by
  obtain ⟨hcounted, hkept, hwakeful⟩ := invariants_of_reachable hreach
  have hstores : s.stores = [] ∨ ∃ v, s.stores = [v] := by
    rcases hkept.stored with hnil | ⟨w, -, hone, -⟩
    · exact .inl hnil
    · exact .inr ⟨w.value, hone⟩
  refine ⟨hcounted.asyncFinished_le_one, ?_, ?_, ?_, ?_, ?_, ?_⟩
  · rintro hsettled (hcalls | ⟨hdropped, hleaves⟩)
    · exact hsettled.asyncFinished_eq_one hcounted (hcounted.called hcalls)
    · exact hsettled.asyncFinished_eq_one hcounted (hcounted.answered hleaves hdropped)
  · rcases hstores with hnil | ⟨v, hone⟩
    · simp [hnil]
    · simp [hone]
  · rcases hkept.observed with hnil | ⟨v, hone, -⟩
    · simp [hnil]
    · simp [hone]
  · rcases hkept.observed with hnil | ⟨v, hone, hstored⟩
    · simp [hnil]
    · simp [hone, hstored]
  · intro v hmem hsettled hinterested hopen
    rcases hstores with hnil | ⟨u, hone⟩
    · simp [hnil] at hmem
    · obtain rfl : some v = u := by simpa [hone] using hmem
      exact hsettled.observed_or_woken hkept hwakeful hone hinterested hopen
  · intro actions s' hinternal hrun
    exact length_le_work hinternal hrun

/-- A poll stores its waker, another thread completes the operation, and the
owner's thread runs the wake. -/
def completedRemotely : List (Action Nat) :=
  [.publish, .poll 1, .future, .future, .finish (some 7) false] ++
    List.replicate 6 .winner ++ List.replicate 3 .runWake

theorem completion_completedRemotely :
    ∃ s : Completion Nat, s.Reachable ∧ s.asyncFinished = 1 ∧
      (s.observed = [7] ∨ s.result = some 7 ∧ s.LastWoken) := by
  obtain ⟨s, hreach, hs⟩ := Transition.Reachable.exists_of_run step (fun _ _ => True)
    ({} : Completion Nat) completedRemotely
    (fun s => s.Settled ∧ s.finishCalls = 1 ∧ s.stores = [some 7] ∧ s.interested = true ∧
      s.ownerClosed = false) (by simp) (by decide)
  obtain ⟨hsettled, hcalls, hstores, hinterested, hopen⟩ := of_decide_eq_true hs
  obtain ⟨-, hone, -, -, -, hwake, -⟩ := completion_of_reachable hreach
  exact ⟨s, hreach, hone hsettled (.inl (by simp [hcalls])),
    hwake 7 (by simp [hstores]) hsettled hinterested hopen⟩

/-- A poll has stored its waker, the future is interested, and another thread is
about to store the result. -/
def storing : Completion Nat :=
  { finished := true, waker := some 1, lastWaker := some 1, future := .idle, finishCalls := 1
    winner := some { value := some 7, onOwner := false, phase := .storeResult } }

theorem storing_reachable : storing.Reachable := by
  obtain ⟨s, hreach, hs⟩ := Transition.Reachable.exists_of_run step (fun _ _ => True)
    ({} : Completion Nat)
    [.publish, .poll 1, .future, .future, .finish (some 7) false, .winner]
    (fun s => s = storing) (by simp) (by decide)
  rwa [of_decide_eq_true hs] at hreach

/-- What the protocol does not promise.  A future that is dropped after the result
was stored takes its waker along, and nobody is woken when the owner's thread is
closed before the wake is queued; a callback that leaves `finish` to an operation
that never calls it leaves the operation unfinished. -/
theorem unwoken_and_unfinished :
    (∃ s, Transition.run step storing ([.winner, .drop] ++ List.replicate 3 .future ++
        List.replicate 4 .winner ++ List.replicate 3 .runWake) = some s ∧
      storing.Reachable ∧ storing.interested = true ∧
      s.Settled ∧ s.stores = [some 7] ∧ s.observed = [] ∧ s.lastWaker = some 1 ∧ s.woken = []) ∧
    (∃ s, Transition.run step storing ([.winner, .closeOwner] ++ List.replicate 4 .winner) =
        some s ∧
      s.Settled ∧ s.stores = [some 7] ∧ s.observed = [] ∧ s.lastWaker = some 1 ∧ s.woken = []) ∧
    (∃ s : Completion Nat, s.Reachable ∧ s.Settled ∧ s.future = .dropped ∧
      s.asyncFinished = 0) := by
  refine ⟨⟨_, rfl, storing_reachable, rfl, by decide, rfl, rfl, rfl, rfl⟩,
    ⟨_, rfl, by decide, rfl, rfl, rfl, rfl⟩, ?_⟩
  obtain ⟨s, hreach, hs⟩ := Transition.Reachable.exists_of_run step (fun _ _ => True)
    ({} : Completion Nat) ([.setCancel false, .publish, .drop] ++ List.replicate 5 .future)
    (fun s => s.Settled ∧ s.future = .dropped ∧ s.asyncFinished = 0) (by simp) (by decide)
  exact ⟨s, hreach, of_decide_eq_true hs⟩

end Completion

end Runite.Op
