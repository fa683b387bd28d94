import Runite.Runtime.FutureTask
import Runite.Lib.SwapRemove

/-!
# Sets of tasks

`task::JoinSet` over the tasks of its runtime thread.  The set alone owns the join
handles of its tasks.  A `join_next` borrows the set until it is dropped, and
`abort_all` until it returns; the code that runs in between, from a destructor or a
waker, takes other steps of the thread.
-/

namespace Runite.Runtime

inductive JoinSetPhase
  | owned
  /-- in `abort_all`, with the handles that are left; called by `drop` or not -/
  | aborting (rest : List Nat) (dropping : Bool)
  | dropped
  deriving DecidableEq, Repr

/-- What a poll of `join_next` answers; the first is `Ready(Some)`, with the task. -/
inductive JoinNext (α : Type)
  | next (id : Nat) (outcome : Except JoinError α)
  | empty
  | pending
  | panics

/-- A `JoinSet` and the thread that runs its tasks.  `waiting` is the waker of the
`join_next` whose last poll was pending, with the number of wakers that had been
woken by then.  The last four fields are history: the tasks that were spawned, those
that were detached, those that were in the set when it was dropped, and the outcomes
that were returned. -/
structure JoinSet (α ω : Type) where
  thread : Tasks α ω := {}
  handles : List Nat := []
  phase : JoinSetPhase := .owned
  waiting : Option (ω × Nat) := none
  spawned : List Nat := []
  detached : List Nat := []
  dropped : List Nat := []
  returned : List (Nat × Except JoinError α) := []

namespace JoinSet

variable {α ω : Type}

/-- The loop of `join_next` over the handles from `index` on. -/
def scan (waker : ω) : Nat → Tasks α ω → List Nat → Option (Tasks α ω × Nat × JoinNext α)
  | index, thread, [] => some (thread, index, .pending)
  | index, thread, id :: rest =>
      match thread.act (.pollJoin id waker) with
      | some (thread, .ready value) => some (thread, index, .next id (.ok value))
      | some (thread, .failed error) => some (thread, index, .next id (.error error))
      | some (thread, .pending) => scan waker (index + 1) thread rest
      | some (thread, .panics) => some (thread, index, .panics)
      | _ => none

/-- A poll of `join_next`. -/
def pollNext (s : JoinSet α ω) (waker : ω) : Option (JoinSet α ω × JoinNext α) :=
  if s.handles = [] then some ({ s with waiting := none }, .empty)
  else
    (scan waker 0 s.thread s.handles).map fun (thread, index, answer) =>
      match answer with
      | .next id outcome =>
          ({ s with
              thread
              handles := SwapRemove.swapRemove s.handles index
              waiting := none
              returned := s.returned ++ [(id, outcome)] }, .next id outcome)
      | .pending =>
          ({ s with thread, waiting := some (waker, thread.woken.length) }, .pending)
      | answer => ({ s with thread, waiting := none }, answer)

inductive Action (α ω : Type)
  /-- what the thread does besides -/
  | thread (a : Tasks.Action α ω)
  | spawn
  | pollNext (waker : ω)
  /-- the `join_next` is dropped -/
  | abandon
  | abortAll
  | abortNext
  | detachAll
  | drop

/-- The handles of the set's tasks are private to it. -/
def Private (s : JoinSet α ω) : Tasks.Action α ω → Prop
  | .pollJoin id _ => id ∉ s.spawned
  | _ => True

instance (s : JoinSet α ω) (a : Tasks.Action α ω) : Decidable (s.Private a) := by
  unfold Private
  split <;> infer_instance

def Free (s : JoinSet α ω) : Prop := s.phase = .owned ∧ s.waiting.isNone = true

instance (s : JoinSet α ω) : Decidable s.Free := inferInstanceAs (Decidable (_ ∧ _))

def step (s : JoinSet α ω) : Action α ω → Option (JoinSet α ω)
  | .thread a => if s.Private a then (s.thread.step a).map ({ s with thread := · }) else none
  | .spawn =>
      if s.Free then
        (s.thread.step .queueFuture).map fun thread =>
          { s with
            thread
            handles := s.handles ++ [s.thread.tasks.length]
            spawned := s.spawned ++ [s.thread.tasks.length] }
      else none
  | .pollNext waker => if s.phase = .owned then (s.pollNext waker).map Prod.fst else none
  | .abandon => if s.phase = .owned then some { s with waiting := none } else none
  | .abortAll => if s.Free then some { s with phase := .aborting s.handles false } else none
  | .drop => if s.Free then some { s with phase := .aborting s.handles true } else none
  | .abortNext =>
      match s.phase with
      | .aborting (id :: rest) dropping =>
          (s.thread.step (.abort id)).map fun thread =>
            { s with thread, phase := .aborting rest dropping }
      | .aborting [] false => some { s with phase := .owned }
      | .aborting [] true =>
          some { s with phase := .dropped, handles := [], dropped := s.dropped ++ s.handles }
      | _ => none
  | .detachAll =>
      if s.Free then some { s with handles := [], detached := s.detached ++ s.handles } else none

/-- The states of every run of a thread with a set. -/
def Reachable (s : JoinSet α ω) : Prop :=
  Transition.Reachable step (fun _ _ => True) {} s

end JoinSet

end Runite.Runtime
