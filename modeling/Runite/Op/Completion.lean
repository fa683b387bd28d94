import Runite.Task
import Runite.Lib.Transition
import Mathlib.Tactic.Simps.Basic

/-!
# The completion of an asynchronous operation

`op::completion`: a `CompletionFuture` and the clones of its
`CompletionHandle`, step by atomic step.  Each access to an atomic flag and
each critical section of one of the mutexes is a step of its own.

Only one call of `finish` gets past the exchange of `finished`; every other one
returns there.  So a call is the exchange, and the rest of the call that won is
kept in `winner`.
-/

namespace Runite.Op

variable {α : Type}

/-! ## Parties -/

/-- The next atomic step of the `finish` that won. -/
inductive FinishPhase
  | loadInterested
  | storeResult
  | swapWakeQueued
  | enqueueWake
  | takeCancel
  | finishAsync
  | done
  deriving DecidableEq, Repr

/-- The `finish` that won: its value, and whether it runs on the owner's thread
(`owner.is_current()`). -/
structure Winner (α : Type) where
  value : Option α
  onOwner : Bool
  phase : FinishPhase := .loadInterested
  deriving DecidableEq, Repr

/-- The next atomic step of the future's owner. -/
inductive FuturePhase (α : Type)
  /-- the future has not been handed out -/
  | unpublished
  | idle
  /-- `poll` with a waker, after it found no result -/
  | storeWaker (waker : Waker)
  | secondTake
  /-- `poll` has the result and drops the waker it stored -/
  | clearWaker (value : α)
  | dropResult
  | dropWaker
  | loadFinished
  | takeCancel
  /-- `cancel()`; the callback calls `finish(None)` itself or leaves it to the operation -/
  | runCancel (finishes : Bool)
  | swapFinished
  | finishAsync
  | dropped
  deriving DecidableEq, Repr

/-- The next atomic step of a wake that the owner's thread runs. -/
inductive RunnerPhase
  | idle
  | clearQueued
  | takeWaker
  deriving DecidableEq, Repr

/-- `CompletionState` and the parties that share it.  `cancel` says whether the
callback calls `finish(None)` itself; `queuedWakes` counts the wakes in the
queues of the owner's thread, which may be closed.  The rest is history:
`finishCalls` counts the calls of `finish`, `asyncFinished` those of
`finish_async_operation`; `cancelLeaves` says whether some `set_cancel` was given
a callback that leaves `finish` to the operation, and `dropWon` whether the drop of
the future exchanged `finished`; `stores` are the values put into `result`,
`observed` those that polls returned; `lastWaker` is the last waker a poll stored,
`woken` the wakers woken since the last store of a result. -/
structure Completion (α : Type) where
  interested : Bool := true
  finished : Bool := false
  wakeQueued : Bool := false
  result : Option α := none
  waker : Option Waker := none
  cancel : Option Bool := none
  ownerClosed : Bool := false
  queuedWakes : Nat := 0
  runner : RunnerPhase := .idle
  winner : Option (Winner α) := none
  future : FuturePhase α := .unpublished
  finishCalls : Nat := 0
  asyncFinished : Nat := 0
  cancelLeaves : Bool := false
  dropWon : Bool := false
  stores : List (Option α) := []
  observed : List α := []
  lastWaker : Option Waker := none
  woken : List Waker := []
  deriving DecidableEq

inductive Action (α : Type)
  /-- `set_cancel`, before the future is published -/
  | setCancel (finishes : Bool)
  | publish
  /-- `finish` or `complete`: the exchange of `finished` -/
  | finish (value : Option α) (onOwner : Bool)
  /-- the `finish` that won goes on -/
  | winner
  /-- the owner's thread takes a wake from its queue, or goes on with one -/
  | runWake
  /-- `poll`: the first look at the result -/
  | poll (waker : Waker)
  /-- `drop`: the exchange of `interested` -/
  | drop
  /-- the poll or the drop in progress goes on -/
  | future
  /-- the owner's thread is closed, with what is in its queue -/
  | closeOwner
  deriving DecidableEq, Repr

namespace Completion

variable (s : Completion α)

/-! ## Steps -/

/-- The exchange at the start of `finish`. -/
def finish (value : Option α) (onOwner : Bool) : Completion α :=
  if s.finished then { s with finishCalls := s.finishCalls + 1 }
  else
    { s with
      finished := true
      winner := some { value, onOwner }
      finishCalls := s.finishCalls + 1 }

/-- The winner arrives at its next step. -/
@[simps]
def setWinner (w : Winner α) (phase : FinishPhase) : Completion α :=
  { s with winner := some { w with phase } }

/-- The rest of `finish`, with `queue_wake`. -/
def winnerStep (w : Winner α) : Option (Completion α) :=
  match w.phase with
  | .loadInterested =>
      some (s.setWinner w (if s.interested then .storeResult else .takeCancel))
  | .storeResult =>
      some { s.setWinner w .swapWakeQueued with
        result := w.value, stores := s.stores ++ [w.value], woken := [] }
  | .swapWakeQueued =>
      if s.wakeQueued then some (s.setWinner w .takeCancel)
      else some { s.setWinner w .enqueueWake with wakeQueued := true }
  | .enqueueWake =>
      -- "the only failure is a closed owner thread"
      if w.onOwner || !s.ownerClosed then
        some { s.setWinner w .takeCancel with queuedWakes := s.queuedWakes + 1 }
      else some { s.setWinner w .takeCancel with wakeQueued := false }
  | .takeCancel => some { s.setWinner w .finishAsync with cancel := none }
  | .finishAsync => some { s.setWinner w .done with asyncFinished := s.asyncFinished + 1 }
  | .done => none

/-- The wake that `queue_wake` queued. -/
def runWake : Option (Completion α) :=
  match s.runner with
  | .idle =>
      if s.ownerClosed ∨ s.queuedWakes = 0 then none
      else some { s with queuedWakes := s.queuedWakes - 1, runner := .clearQueued }
  | .clearQueued => some { s with wakeQueued := false, runner := .takeWaker }
  | .takeWaker =>
      some { s with waker := none, woken := s.woken ++ s.waker.toList, runner := .idle }

def poll (waker : Waker) : Completion α :=
  match s.result with
  | some value => { s with result := none, observed := s.observed ++ [value] }
  | none => { s with future := .storeWaker waker }

/-- The rest of `poll` and of `drop`. -/
def futureStep : Option (Completion α) :=
  match s.future with
  | .unpublished | .idle | .dropped => none
  | .storeWaker waker =>
      some { s with waker := some waker, lastWaker := some waker, future := .secondTake }
  | .secondTake =>
      match s.result with
      | some value => some { s with result := none, future := .clearWaker value }
      | none => some { s with future := .idle }
  | .clearWaker value =>
      some { s with waker := none, observed := s.observed ++ [value], future := .idle }
  | .dropResult => some { s with result := none, future := .dropWaker }
  | .dropWaker => some { s with waker := none, future := .loadFinished }
  | .loadFinished =>
      some { s with future := if s.finished then .dropped else .takeCancel }
  | .takeCancel =>
      match s.cancel with
      | some finishes => some { s with cancel := none, future := .runCancel finishes }
      | none => some { s with future := .swapFinished }
  | .runCancel finishes =>
      let s := { s with future := .dropped }
      some (if finishes then s.finish none true else s)
  | .swapFinished =>
      if s.finished then some { s with future := .dropped }
      else some { s with finished := true, dropWon := true, future := .finishAsync }
  | .finishAsync =>
      some { s with asyncFinished := s.asyncFinished + 1, future := .dropped }

/-- One action; `none` when it is not possible. -/
def step : Action α → Option (Completion α)
  | .setCancel finishes =>
      match s.future with
      | .unpublished => some
          { s with cancel := some finishes, cancelLeaves := s.cancelLeaves || !finishes }
      | _ => none
  | .publish =>
      match s.future with
      | .unpublished => some { s with future := .idle }
      | _ => none
  | .finish value onOwner => some (s.finish value onOwner)
  | .winner => s.winner.bind s.winnerStep
  | .runWake => s.runWake
  | .poll waker =>
      match s.future with
      | .idle => some (s.poll waker)
      | _ => none
  | .drop =>
      match s.future with
      | .idle => some { s with interested := false, future := .dropResult }
      | _ => none
  | .future => s.futureStep
  | .closeOwner =>
      if s.runner = .idle then some { s with ownerClosed := true, queuedWakes := 0 } else none

/-- The states of every interleaving.  `completion` has called
`begin_async_operation` once. -/
def Reachable : Completion α → Prop :=
  Transition.Reachable step (fun _ _ => True) {}

/-! ## What a step can do -/

inductive Stepped (s : Completion α) : Completion α → Prop
  | setCancel (finishes : Bool) : s.future = .unpublished →
      Stepped s { s with cancel := some finishes, cancelLeaves := s.cancelLeaves || !finishes }
  | publish : s.future = .unpublished → Stepped s { s with future := .idle }
  | finishLost : s.finished = true → Stepped s { s with finishCalls := s.finishCalls + 1 }
  | finishWon (value : Option α) (onOwner : Bool) : s.finished = false → Stepped s { s with
      finished := true, winner := some { value, onOwner }, finishCalls := s.finishCalls + 1 }
  | loadInterested {w : Winner α} : s.winner = some w → w.phase = .loadInterested →
      s.interested = true → Stepped s (s.setWinner w .storeResult)
  | loadUninterested {w : Winner α} : s.winner = some w → w.phase = .loadInterested →
      s.interested = false → Stepped s (s.setWinner w .takeCancel)
  | storeResult {w : Winner α} : s.winner = some w → w.phase = .storeResult →
      Stepped s { s.setWinner w .swapWakeQueued with
        result := w.value, stores := s.stores ++ [w.value], woken := [] }
  | alreadyQueued {w : Winner α} : s.winner = some w → w.phase = .swapWakeQueued →
      s.wakeQueued = true → Stepped s (s.setWinner w .takeCancel)
  | swapWakeQueued {w : Winner α} : s.winner = some w → w.phase = .swapWakeQueued →
      s.wakeQueued = false → Stepped s { s.setWinner w .enqueueWake with wakeQueued := true }
  | enqueueWake {w : Winner α} : s.winner = some w → w.phase = .enqueueWake →
      Stepped s { s.setWinner w .takeCancel with queuedWakes := s.queuedWakes + 1 }
  | enqueueRefused {w : Winner α} : s.winner = some w → w.phase = .enqueueWake →
      s.ownerClosed = true → Stepped s { s.setWinner w .takeCancel with wakeQueued := false }
  | takeCancel {w : Winner α} : s.winner = some w → w.phase = .takeCancel →
      Stepped s { s.setWinner w .finishAsync with cancel := none }
  | finishAsync {w : Winner α} : s.winner = some w → w.phase = .finishAsync →
      Stepped s { s.setWinner w .done with asyncFinished := s.asyncFinished + 1 }
  | startWake : s.runner = .idle → s.ownerClosed = false → s.queuedWakes ≠ 0 →
      Stepped s { s with queuedWakes := s.queuedWakes - 1, runner := .clearQueued }
  | clearQueued : s.runner = .clearQueued →
      Stepped s { s with wakeQueued := false, runner := .takeWaker }
  | takeWaker : s.runner = .takeWaker → Stepped s
      { s with waker := none, woken := s.woken ++ s.waker.toList, runner := .idle }
  | pollReady {value : α} : s.future = .idle → s.result = some value →
      Stepped s { s with result := none, observed := s.observed ++ [value] }
  | pollPending (waker : Waker) : s.future = .idle → s.result = none →
      Stepped s { s with future := .storeWaker waker }
  | storeWaker {waker : Waker} : s.future = .storeWaker waker → Stepped s
      { s with waker := some waker, lastWaker := some waker, future := .secondTake }
  | secondTakeReady {value : α} : s.future = .secondTake → s.result = some value →
      Stepped s { s with result := none, future := .clearWaker value }
  | secondTakePending : s.future = .secondTake → s.result = none →
      Stepped s { s with future := .idle }
  | clearWaker {value : α} : s.future = .clearWaker value → Stepped s
      { s with waker := none, observed := s.observed ++ [value], future := .idle }
  | drop : s.future = .idle → Stepped s { s with interested := false, future := .dropResult }
  | dropResult : s.future = .dropResult →
      Stepped s { s with result := none, future := .dropWaker }
  | dropWaker : s.future = .dropWaker →
      Stepped s { s with waker := none, future := .loadFinished }
  | loadFinished : s.future = .loadFinished → s.finished = true →
      Stepped s { s with future := .dropped }
  | loadUnfinished : s.future = .loadFinished → s.finished = false →
      Stepped s { s with future := .takeCancel }
  | takeCallback {finishes : Bool} : s.future = .takeCancel → s.cancel = some finishes →
      Stepped s { s with cancel := none, future := .runCancel finishes }
  | takeNoCallback : s.future = .takeCancel → s.cancel = none →
      Stepped s { s with future := .swapFinished }
  | callbackLost : s.future = .runCancel true → s.finished = true →
      Stepped s { s with future := .dropped, finishCalls := s.finishCalls + 1 }
  | callbackWon : s.future = .runCancel true → s.finished = false → Stepped s { s with
      future := .dropped, finished := true
      winner := some { value := none, onOwner := true }, finishCalls := s.finishCalls + 1 }
  | callbackLeaves : s.future = .runCancel false → Stepped s { s with future := .dropped }
  | swapFinishedLost : s.future = .swapFinished → s.finished = true →
      Stepped s { s with future := .dropped }
  | swapFinishedWon : s.future = .swapFinished → s.finished = false →
      Stepped s { s with finished := true, dropWon := true, future := .finishAsync }
  | dropFinishAsync : s.future = .finishAsync → Stepped s
      { s with asyncFinished := s.asyncFinished + 1, future := .dropped }
  | closeOwner : s.runner = .idle → Stepped s { s with ownerClosed := true, queuedWakes := 0 }

variable {s} {s' : Completion α}

theorem stepped_of_winnerStep {w : Winner α} (hw : s.winner = some w)
    (hstep : s.winnerStep w = some s') : Stepped s s' := by
  unfold winnerStep at hstep
  cases hphase : w.phase with
  | loadInterested =>
      cases hinterested : s.interested <;> simp only [hphase, hinterested] at hstep <;>
        cases hstep
      · exact .loadUninterested hw hphase hinterested
      · exact .loadInterested hw hphase hinterested
  | storeResult =>
      simp only [hphase] at hstep
      cases hstep
      exact .storeResult hw hphase
  | swapWakeQueued =>
      cases hqueued : s.wakeQueued <;> simp only [hphase, hqueued] at hstep <;> cases hstep
      · exact .swapWakeQueued hw hphase hqueued
      · exact .alreadyQueued hw hphase hqueued
  | enqueueWake =>
      simp only [hphase] at hstep
      split at hstep
      next =>
        cases hstep
        exact .enqueueWake hw hphase
      next hclosed =>
        cases hstep
        exact .enqueueRefused hw hphase (by simp_all)
  | takeCancel =>
      simp only [hphase] at hstep
      cases hstep
      exact .takeCancel hw hphase
  | finishAsync =>
      simp only [hphase] at hstep
      cases hstep
      exact .finishAsync hw hphase
  | done =>
      simp only [hphase] at hstep
      cases hstep

theorem stepped_of_runWake (hstep : s.runWake = some s') : Stepped s s' := by
  unfold runWake at hstep
  cases hrunner : s.runner with
  | idle =>
      simp only [hrunner] at hstep
      obtain ⟨hopen, heq⟩ := Option.ite_none_left_eq_some.mp hstep
      cases heq
      exact .startWake hrunner (by simp_all) (by simp_all)
  | clearQueued =>
      simp only [hrunner] at hstep
      cases hstep
      exact .clearQueued hrunner
  | takeWaker =>
      simp only [hrunner] at hstep
      cases hstep
      exact .takeWaker hrunner

theorem stepped_of_futureStep (hstep : s.futureStep = some s') : Stepped s s' := by
  unfold futureStep at hstep
  split at hstep
  next => cases hstep
  next => cases hstep
  next => cases hstep
  next waker hfuture =>
    cases hstep
    exact .storeWaker hfuture
  next hfuture =>
    split at hstep
    next value hresult =>
      cases hstep
      exact .secondTakeReady hfuture hresult
    next hresult =>
      cases hstep
      exact .secondTakePending hfuture hresult
  next value hfuture =>
    cases hstep
    exact .clearWaker hfuture
  next hfuture =>
    cases hstep
    exact .dropResult hfuture
  next hfuture =>
    cases hstep
    exact .dropWaker hfuture
  next hfuture =>
    by_cases hfinished : s.finished = true
    · rw [if_pos hfinished] at hstep
      cases hstep
      exact .loadFinished hfuture hfinished
    · rw [if_neg hfinished] at hstep
      cases hstep
      exact .loadUnfinished hfuture (by simpa using hfinished)
  next hfuture =>
    split at hstep
    next finishes hcancel =>
      cases hstep
      exact .takeCallback hfuture hcancel
    next hcancel =>
      cases hstep
      exact .takeNoCallback hfuture hcancel
  next finishes hfuture =>
    cases finishes with
    | false =>
        cases hstep
        exact .callbackLeaves hfuture
    | true =>
        simp only [finish, if_true] at hstep
        split at hstep
        next hfinished =>
          cases hstep
          exact .callbackLost hfuture hfinished
        next hfinished =>
          cases hstep
          exact .callbackWon hfuture (by simpa using hfinished)
  next hfuture =>
    split at hstep
    next hfinished =>
      cases hstep
      exact .swapFinishedLost hfuture hfinished
    next hfinished =>
      cases hstep
      exact .swapFinishedWon hfuture (by simpa using hfinished)
  next hfuture =>
    cases hstep
    exact .dropFinishAsync hfuture

theorem stepped_of_step {action : Action α} (hstep : s.step action = some s') :
    Stepped s s' := by
  cases action with
  | setCancel finishes =>
      simp only [step] at hstep
      split at hstep
      next hfuture =>
        cases hstep
        exact .setCancel finishes hfuture
      next => cases hstep
  | publish =>
      simp only [step] at hstep
      split at hstep
      next hfuture =>
        cases hstep
        exact .publish hfuture
      next => cases hstep
  | finish value onOwner =>
      simp only [step, finish] at hstep
      split at hstep
      next hfinished =>
        cases hstep
        exact .finishLost hfinished
      next hfinished =>
        cases hstep
        exact .finishWon value onOwner (by simpa using hfinished)
  | winner =>
      obtain ⟨w, hw, hwin⟩ := Option.bind_eq_some_iff.mp hstep
      exact stepped_of_winnerStep hw hwin
  | runWake => exact stepped_of_runWake hstep
  | poll waker =>
      simp only [step] at hstep
      split at hstep
      next hfuture =>
        unfold poll at hstep
        split at hstep
        next value hresult =>
          cases hstep
          exact .pollReady hfuture hresult
        next hresult =>
          cases hstep
          exact .pollPending waker hfuture hresult
      next => cases hstep
  | drop =>
      simp only [step] at hstep
      split at hstep
      next hfuture =>
        cases hstep
        exact .drop hfuture
      next => cases hstep
  | future => exact stepped_of_futureStep hstep
  | closeOwner =>
      obtain ⟨hrunner, heq⟩ := Option.ite_none_right_eq_some.mp hstep
      cases heq
      exact .closeOwner hrunner

end Completion

end Runite.Op
