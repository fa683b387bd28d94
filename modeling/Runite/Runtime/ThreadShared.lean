import Mathlib.Data.List.Basic
import Mathlib.Tactic.Common

/-!
# What other threads see of a runtime thread

`platform::runtime_shared::state::ThreadShared` and `scheduler::commit_idle`:
the queue of macrotasks from other threads, its lock, and the notification of
the owner.  Every function here is one critical section of the queue's lock.
The closures in the queue are values of an arbitrary type.
-/

namespace Runite.Runtime

variable {τ ι : Type}

inductive QueueError
  | closed
  | full
  deriving DecidableEq, Repr

/-- How a call ends: it returns, or it panics because the thread for the retried
notification cannot be started. -/
inductive Enqueued
  | ok
  | err (error : QueueError)
  | panicked
  deriving DecidableEq, Repr

def notifyAttempts : Nat := 2

/-- `notify_with_retry`; `notifier` are the results of the next calls of
`notifier.notify()`. -/
def notifyWithRetry (notifier : List Bool) : Bool :=
  (notifier.take notifyAttempts).any id

structure ThreadShared (τ : Type) where
  capacity : Nat
  remoteMacrotasks : List τ := []
  warnedFull : Bool := false
  remoteTasksRejected : Nat := 0
  pendingOps : Nat := 0
  closed : Bool := false
  notificationRequested : Nat := 0
  notificationDelivered : Nat := 0
  notificationRetryRunning : Bool := false
  deriving DecidableEq, Repr

namespace ThreadShared

variable (s : ThreadShared τ)

def hasPendingNotification : Bool :=
  s.notificationDelivered < s.notificationRequested

/-- `start_notification_retry`, and whether it returns; `spawns` says whether the
thread can be started. -/
def startNotificationRetry (spawns : Bool) : ThreadShared τ × Bool :=
  if s.closed || !s.hasPendingNotification || s.notificationRetryRunning then (s, true)
  else if spawns then ({ s with notificationRetryRunning := true }, true)
  else (s, false)

/-- `request_notification`, and whether it returns. -/
def requestNotification (notifier : List Bool) (spawns : Bool) : ThreadShared τ × Bool :=
  if s.closed then (s, true)
  else
    let generation := s.notificationRequested + 1
    let s := { s with notificationRequested := generation }
    if notifyWithRetry notifier then
      let s := { s with notificationDelivered := max s.notificationDelivered generation }
      if s.hasPendingNotification then s.startNotificationRetry spawns else (s, true)
    else s.startNotificationRetry spawns

def enqueue (task : τ) (enforceCapacity durableNotification : Bool) (notifier : List Bool)
    (spawns : Bool) : ThreadShared τ × Enqueued :=
  if s.closed then (s, .err .closed)
  else if enforceCapacity && s.capacity ≤ s.remoteMacrotasks.length then
    ({ s with warnedFull := true, remoteTasksRejected := s.remoteTasksRejected + 1 }, .err .full)
  else
    let s := { s with remoteMacrotasks := s.remoteMacrotasks ++ [task] }
    if durableNotification then
      match s.requestNotification notifier spawns with
      | (s, true) => (s, .ok)
      | (s, false) => (s, .panicked)
    else if notifyWithRetry notifier then (s, .ok)
    else ({ s with remoteMacrotasks := s.remoteMacrotasks.dropLast }, .err .full)

def enqueueMacro (task : τ) (notifier : List Bool) : ThreadShared τ × Enqueued :=
  s.enqueue task true false notifier true

def enqueueInternalWake (task : τ) (notifier : List Bool) (spawns : Bool) :
    ThreadShared τ × Enqueued :=
  s.enqueue task false true notifier spawns

/-- The critical section of `drain_remote_tasks`. -/
def takeRemote : ThreadShared τ × List τ :=
  ({ s with remoteMacrotasks := [] }, s.remoteMacrotasks)

def close : ThreadShared τ × List τ :=
  ({ s with
      closed := true
      notificationDelivered := s.notificationRequested
      remoteMacrotasks := [] }, s.remoteMacrotasks)

/-- `IdleCommit`; `ι` are the tasks that are to be cancelled. -/
inductive IdleCommit (ι : Type)
  | retry
  | cancelTasks (tasks : List ι)
  | mainIdle
  | workerClosed
  deriving DecidableEq, Repr

/-- `commit_idle` once it has found no reason to retry; `worker` says whether the
thread has a `worker_completion`. -/
def commit (worker : Bool) (tasks : List ι) : ThreadShared τ × List ι × IdleCommit ι :=
  if !tasks.isEmpty then (s, [], .cancelTasks tasks)
  else if worker then ({ s with closed := true }, [], .workerClosed)
  else (s, [], .mainIdle)

/-- `commit_idle`, with the tasks that stay registered. -/
def commitIdle (worker : Bool) (tasks : List ι) : ThreadShared τ × List ι × IdleCommit ι :=
  if !s.remoteMacrotasks.isEmpty || s.pendingOps != 0 then (s, tasks, .retry)
  else s.commit worker tasks

/-! ## What a call can do -/

/-- The two states differ in the notification and in statistics only. -/
structure SameQueue (s s' : ThreadShared τ) : Prop where
  capacity : s'.capacity = s.capacity
  remoteMacrotasks : s'.remoteMacrotasks = s.remoteMacrotasks
  pendingOps : s'.pendingOps = s.pendingOps
  closed : s'.closed = s.closed

variable {s}

theorem SameQueue.refl : SameQueue s s := ⟨rfl, rfl, rfl, rfl⟩

theorem startNotificationRetry_sameQueue (spawns : Bool) :
    SameQueue s (s.startNotificationRetry spawns).1 := by
  unfold startNotificationRetry
  split
  · exact .refl
  · split <;> exact ⟨rfl, rfl, rfl, rfl⟩

theorem requestNotification_sameQueue (notifier : List Bool) (spawns : Bool) :
    SameQueue s (s.requestNotification notifier spawns).1 := by
  unfold requestNotification
  simp only
  split
  · exact .refl
  · split
    · split
      · obtain ⟨h₁, h₂, h₃, h₄⟩ := startNotificationRetry_sameQueue
          (s := { s with
            notificationRequested := s.notificationRequested + 1
            notificationDelivered :=
              max s.notificationDelivered (s.notificationRequested + 1) }) spawns
        exact ⟨h₁, h₂, h₃, h₄⟩
      · exact ⟨rfl, rfl, rfl, rfl⟩
    · obtain ⟨h₁, h₂, h₃, h₄⟩ := startNotificationRetry_sameQueue
        (s := { s with notificationRequested := s.notificationRequested + 1 }) spawns
      exact ⟨h₁, h₂, h₃, h₄⟩

/-- The ways through `enqueue`. -/
inductive EnqueueCases (s : ThreadShared τ) (task : τ) (enforceCapacity durable : Bool) :
    ThreadShared τ × Enqueued → Prop
  | closed : s.closed = true →
      EnqueueCases s task enforceCapacity durable (s, .err .closed)
  | full {s' : ThreadShared τ} : s.closed = false → enforceCapacity = true ∨ durable = false →
      SameQueue s s' → EnqueueCases s task enforceCapacity durable (s', .err .full)
  | accepted {s' : ThreadShared τ} {outcome : Enqueued} : s.closed = false →
      (enforceCapacity = true → s.remoteMacrotasks.length < s.capacity) →
      outcome = .ok ∨ outcome = .panicked →
      SameQueue { s with remoteMacrotasks := s.remoteMacrotasks ++ [task] } s' →
      EnqueueCases s task enforceCapacity durable (s', outcome)

theorem enqueue_cases (task : τ) (enforceCapacity durable : Bool) (notifier : List Bool)
    (spawns : Bool) : EnqueueCases s task enforceCapacity durable
      (s.enqueue task enforceCapacity durable notifier spawns) := by
  unfold enqueue
  split
  next hclosed => exact .closed hclosed
  next hopen =>
    have hopen : s.closed = false := by simpa using hopen
    split
    next hfull => exact .full hopen (.inl (by simp_all)) ⟨rfl, rfl, rfl, rfl⟩
    next hroom =>
      have hroom : enforceCapacity = true → s.remoteMacrotasks.length < s.capacity := by
        intro henforce
        simpa [henforce] using hroom
      cases durable with
      | true =>
          have hsame := requestNotification_sameQueue
            (s := { s with remoteMacrotasks := s.remoteMacrotasks ++ [task] }) notifier spawns
          simp only [if_true]
          split
          next s' heq =>
            rw [heq] at hsame
            exact .accepted hopen hroom (.inl rfl) hsame
          next s' heq =>
            rw [heq] at hsame
            exact .accepted hopen hroom (.inr rfl) hsame
      | false =>
          simp only [Bool.false_eq_true, if_false]
          split
          · exact .accepted hopen hroom (.inl rfl) .refl
          · exact .full hopen (.inr rfl) ⟨rfl, by simp, rfl, rfl⟩

theorem enqueue_closed (task : τ) (enforceCapacity durable : Bool) (notifier : List Bool)
    (spawns : Bool) :
    (s.enqueue task enforceCapacity durable notifier spawns).1.closed = s.closed := by
  have hcases := enqueue_cases (s := s) task enforceCapacity durable notifier spawns
  generalize s.enqueue task enforceCapacity durable notifier spawns = result at hcases
  cases hcases with
  | closed => rfl
  | full _ _ hsame => exact hsame.closed
  | accepted _ _ _ hsame => exact hsame.closed

theorem enqueue_pendingOps (task : τ) (enforceCapacity durable : Bool) (notifier : List Bool)
    (spawns : Bool) :
    (s.enqueue task enforceCapacity durable notifier spawns).1.pendingOps = s.pendingOps := by
  have hcases := enqueue_cases (s := s) task enforceCapacity durable notifier spawns
  generalize s.enqueue task enforceCapacity durable notifier spawns = result at hcases
  cases hcases with
  | closed => rfl
  | full _ _ hsame => exact hsame.pendingOps
  | accepted _ _ _ hsame => exact hsame.pendingOps

theorem subset_enqueue (task : τ) (enforceCapacity durable : Bool) (notifier : List Bool)
    (spawns : Bool) : s.remoteMacrotasks ⊆
      (s.enqueue task enforceCapacity durable notifier spawns).1.remoteMacrotasks := by
  have hcases := enqueue_cases (s := s) task enforceCapacity durable notifier spawns
  generalize s.enqueue task enforceCapacity durable notifier spawns = result at hcases
  cases hcases with
  | closed => exact List.Subset.refl _
  | full _ _ hsame => simp [hsame.remoteMacrotasks]
  | accepted _ _ _ hsame => simp [hsame.remoteMacrotasks]

/-- An internal wake is refused by a closed thread only. -/
theorem mem_enqueueInternalWake (task : τ) (notifier : List Bool) (spawns : Bool)
    (hopen : s.closed = false) :
    task ∈ (s.enqueueInternalWake task notifier spawns).1.remoteMacrotasks := by
  have hcases := enqueue_cases (s := s) task false true notifier spawns
  change EnqueueCases s task false true (s.enqueueInternalWake task notifier spawns) at hcases
  generalize s.enqueueInternalWake task notifier spawns = result at hcases
  cases hcases with
  | closed hclosed => simp [hopen] at hclosed
  | full _ hkind => simp at hkind
  | accepted _ _ _ hsame => simp [hsame.remoteMacrotasks]

/-- `commit_idle` commits to an outcome only with an empty queue and no operation
pending. -/
theorem commitIdle_committed {worker : Bool} {tasks : List ι}
    (h : (s.commitIdle worker tasks).2.2 ≠ .retry) :
    s.remoteMacrotasks = [] ∧ s.pendingOps = 0 := by
  unfold commitIdle at h
  split at h
  next => exact absurd rfl h
  next hidle => simpa using hidle

theorem commit_cases (worker : Bool) (tasks : List ι) :
    s.commit worker tasks = (s, [], .cancelTasks tasks) ∨
    s.commit worker tasks = ({ s with closed := true }, [], .workerClosed) ∨
    s.commit worker tasks = (s, [], .mainIdle) := by
  unfold commit
  split
  · exact .inl rfl
  · split
    · exact .inr (.inl rfl)
    · exact .inr (.inr rfl)

theorem commitIdle_cases (worker : Bool) (tasks : List ι) :
    (s.commitIdle worker tasks).1 = s ∨
      (s.commitIdle worker tasks).1 = { s with closed := true } := by
  unfold commitIdle
  split
  · exact .inl rfl
  · rcases s.commit_cases worker tasks with heq | heq | heq <;> simp [heq]

end ThreadShared

end Runite.Runtime
