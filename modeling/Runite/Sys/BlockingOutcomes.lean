import Runite.Sys.Blocking
import Runite.Lib.Table
import Mathlib.Data.List.Nodup
import Mathlib.Tactic.Common

/-!
# Offloaded operations resolve

`Resolved` says what awaiting a job on the blocking pool promises.  It is kept by
every step but one: the rest of a job's closure, when the job of the network
offload panics under a future that still waits, when the callback of the standard
streams drops a payload that panics, and when `worker_loop` drops one.
-/

namespace Runite.Sys

open Runite.Io

/-- The closure has not come to its end. -/
def Stage.unended : Stage → Bool
  | .queued | .working | .completing => true
  | .ended | .refused => false

namespace Offload

/-- The rest of the closure does what it should: the outcome is delivered, and the
panic that is left to the worker, if any, can be dropped. -/
def settles (op : Offload) : Bool :=
  match op.offloader, op.job with
  | .net, .panic p => !op.alive && p.drop.isNone
  | .stdio, .panic p => p.drop.isNone || !op.alive && (p.drop.bind Payload.drop).isNone
  | .task, .panic p => (p.drop.bind Payload.drop).isNone
  | _, .value v => op.alive || (v.drop.bind Payload.drop).isNone

/-- The calls of `finish_async_operation` before the closure ends: the drop of the
future makes one. -/
def early (op : Offload) : Nat :=
  match op.offloader with
  | .task => 0
  | _ => (!op.alive).toNat

structure Accounted (op : Offload) : Prop where
  begun_eq : op.begun = op.offloader.begins
  unended : op.stage.unended = true → op.outcomes = [] ∧ op.finished = op.early ∧
    (op.offloader ≠ .task → op.completed = !op.alive)
  ended : op.stage.unended = false → op.finished = op.begun ∧ op.outcomes.length ≤ 1 ∧
    (op.offloader ≠ .task → op.completed = true)
  delivered : op.stage = .ended → op.alive = true → op.outcomes.length = 1
  refused : op.stage = .refused → op.ran = false ∧ ∃ error, op.outcomes = [.error error]

variable {op : Offload}

theorem Accounted.submitted (offloader : Offloader) (job : JobEnd) :
    Accounted { offloader, job, begun := offloader.begins } := by
  constructor <;> cases offloader <;> simp [Stage.unended, early]

theorem Accounted.refuse (offloader : Offloader) (job : JobEnd) (error : IoError) :
    Accounted (Offload.refuse { offloader, job, begun := offloader.begins } error) := by
  constructor <;> cases offloader <;>
    simp [Offload.refuse, complete, finishAsync, Stage.unended, Offloader.begins]

theorem Accounted.goOn (h : op.Accounted) {stage : Stage} {ran : Bool}
    (hstage : op.stage.unended = true) (hnext : stage.unended = true) :
    Accounted { op with stage, ran } := by
  refine ⟨h.begun_eq, fun _ => h.unended hstage, by simp [hnext], ?_, ?_⟩
  · rintro rfl
    simp [Stage.unended] at hnext
  · rintro rfl
    simp [Stage.unended] at hnext

theorem Accounted.dropFuture (h : op.Accounted) (halive : op.alive = true) :
    op.dropFuture.Accounted := by
  obtain ⟨hbegun, hunended, hended, hdelivered, hrefused⟩ := h
  cases hoffloader : op.offloader with
  | task =>
      refine ⟨?_, ?_, ?_, ?_, ?_⟩ <;>
        simp_all [Offload.dropFuture, early]
  | _ =>
      cases hstage : op.stage.unended with
      | true =>
          obtain ⟨houtcomes, hfinished, hcompleted⟩ := hunended hstage
          have hcompleted : op.completed = false := by simp_all
          refine ⟨?_, ?_, ?_, ?_, ?_⟩ <;>
            simp_all [Offload.dropFuture, early, finishAsync]
      | false =>
          obtain ⟨hfinished, hlength, hcompleted⟩ := hended hstage
          have hcompleted : op.completed = true := by simp_all
          refine ⟨?_, ?_, ?_, ?_, ?_⟩ <;>
            simp_all [Offload.dropFuture, early]

theorem dropFuture_stage : op.dropFuture.stage = op.stage := by
  unfold Offload.dropFuture
  simp only
  split
  · rfl
  · split <;> rfl

theorem dropFuture_outcomes : op.dropFuture.outcomes = op.outcomes := by
  unfold Offload.dropFuture
  simp only
  split
  · rfl
  · split <;> rfl

/-- The closure of a job that settles ends with one outcome for a future that is
alive, and with every call of `begin_async_operation` matched. -/
theorem Accounted.runToEnd (h : op.Accounted) (hstage : op.stage = .completing)
    (hsettles : op.settles = true) :
    Accounted { op.runToEnd.1 with stage := .ended } := by
  obtain ⟨hbegun, hunended, -, -, -⟩ := h
  obtain ⟨houtcomes, hfinished, hcompleted⟩ := hunended (by simp [hstage, Stage.unended])
  cases hoffloader : op.offloader with
  | net =>
      have hcompleted : op.completed = !op.alive := hcompleted (by simp [hoffloader])
      cases hjob : op.job with
      | value v =>
          cases halive : op.alive <;> constructor <;>
            simp_all [Offload.runToEnd, complete, finishAsync, early, Stage.unended,
              Offloader.begins]
      | panic p =>
          have hdropped : op.alive = false := by simp_all [settles]
          constructor <;>
            simp_all [Offload.runToEnd, early, Stage.unended, Offloader.begins]
  | stdio =>
      have hcompleted : op.completed = !op.alive := hcompleted (by simp [hoffloader])
      cases hjob : op.job with
      | value v =>
          cases halive : op.alive <;> constructor <;>
            simp_all [Offload.runToEnd, complete, finishAsync, early, Stage.unended,
              Offloader.begins]
      | panic p =>
          cases p with
          | plain =>
              cases halive : op.alive <;> constructor <;>
                simp_all [Offload.runToEnd, complete, finishAsync, early, Stage.unended,
                  Offloader.begins, Payload.drop]
          | bomb next =>
              have hdropped : op.alive = false := by simp_all [settles, Payload.drop]
              constructor <;>
                simp_all [Offload.runToEnd, finishAsync, early, Stage.unended,
                  Offloader.begins, Payload.drop]
  | task =>
      cases hjob : op.job with
      | value v =>
          cases halive : op.alive <;> constructor <;>
            simp_all [Offload.runToEnd, send, finishAsync, early, Stage.unended,
              Offloader.begins]
      | panic p =>
          cases p with
          | plain =>
              cases halive : op.alive <;> constructor <;>
                simp_all [Offload.runToEnd, send, finishAsync, early, Stage.unended,
                  Offloader.begins, Payload.drop]
          | bomb next =>
              cases halive : op.alive <;> constructor <;>
                simp_all [Offload.runToEnd, closeSender, finishAsync, early, Stage.unended,
                  Offloader.begins, Payload.drop]

/-- What a job that settles leaves to the worker can be dropped. -/
theorem Accounted.afterJob_runToEnd (h : op.Accounted) (hstage : op.stage = .completing)
    (hsettles : op.settles = true) : Pool.afterJob op.runToEnd.2 = .idle := by
  obtain ⟨-, -, hcompleted⟩ := h.unended (by simp [hstage, Stage.unended])
  cases hoffloader : op.offloader with
  | net =>
      have hcompleted : op.completed = !op.alive := hcompleted (by simp [hoffloader])
      cases hjob : op.job with
      | value v =>
          cases halive : op.alive <;> cases hdrop : v.drop <;>
            simp_all [Offload.runToEnd, complete, settles, Pool.afterJob]
      | panic p => simp_all [Offload.runToEnd, settles, Pool.afterJob]
  | stdio =>
      have hcompleted : op.completed = !op.alive := hcompleted (by simp [hoffloader])
      cases hjob : op.job with
      | value v =>
          cases halive : op.alive <;> cases hdrop : v.drop <;>
            simp_all [Offload.runToEnd, complete, settles, Pool.afterJob]
      | panic p =>
          cases halive : op.alive <;> cases hdrop : p.drop <;>
            simp_all [Offload.runToEnd, complete, settles, Pool.afterJob]
  | task =>
      cases hjob : op.job with
      | value v =>
          cases halive : op.alive <;> cases hdrop : v.drop <;>
            simp_all [Offload.runToEnd, send, settles, Pool.afterJob]
      | panic p =>
          cases halive : op.alive <;> cases hdrop : p.drop <;>
            simp_all [Offload.runToEnd, send, settles, Pool.afterJob]

/-- A job that does not settle kills its worker, or leaves its future without an
outcome. -/
theorem Accounted.not_settles (h : op.Accounted) (hstage : op.stage = .completing)
    (hsettles : op.settles = false) : Pool.afterJob op.runToEnd.2 = .dead ∨
      op.runToEnd.1.alive = true ∧ op.runToEnd.1.outcomes = [] := by
  obtain ⟨houtcomes, -, hcompleted⟩ := h.unended (by simp [hstage, Stage.unended])
  cases hoffloader : op.offloader with
  | net =>
      have hcompleted : op.completed = !op.alive := hcompleted (by simp [hoffloader])
      cases hjob : op.job with
      | value v =>
          cases halive : op.alive <;> cases hdrop : v.drop <;>
            simp_all [Offload.runToEnd, complete, settles, Pool.afterJob, Option.isSome_iff_ne_none]
      | panic p =>
          cases halive : op.alive <;> cases hdrop : p.drop <;>
            simp_all [Offload.runToEnd, settles, Pool.afterJob]
  | stdio =>
      have hcompleted : op.completed = !op.alive := hcompleted (by simp [hoffloader])
      cases hjob : op.job with
      | value v =>
          cases halive : op.alive <;> cases hdrop : v.drop <;>
            simp_all [Offload.runToEnd, complete, finishAsync, settles, Pool.afterJob,
              Option.isSome_iff_ne_none]
      | panic p =>
          cases halive : op.alive <;> cases hdrop : p.drop <;>
            simp_all [Offload.runToEnd, finishAsync, settles, Pool.afterJob,
              Option.isSome_iff_ne_none]
  | task =>
      cases hjob : op.job with
      | value v =>
          cases halive : op.alive <;> cases hdrop : v.drop <;>
            simp_all [Offload.runToEnd, send, settles, Pool.afterJob, Option.isSome_iff_ne_none]
      | panic p =>
          cases halive : op.alive <;> cases hdrop : p.drop <;>
            simp_all [Offload.runToEnd, settles, Pool.afterJob, Option.isSome_iff_ne_none]

end Offload

namespace Pool

/-! ## The books of the pool -/

/-- The pool refuses a job with one of these. -/
def IsRefusal (s : Pool) (error : IoError) : Prop :=
  error = queueFull ∨ error = poolStopped ∨ s.createError = some error

/-- What holds of the operations and the workers. -/
structure Kept (s : Pool) : Prop where
  accounted : ∀ (i : Nat) (op : Offload), s.ops[i]? = some op → op.Accounted
  refused : ∀ (i : Nat) (op : Offload), s.ops[i]? = some op → op.stage = .refused →
    ∃ error, s.IsRefusal error ∧ op.outcomes = [.error error]
  survive : ∀ worker ∈ s.workers, worker ≠ .dead

/-- The queue, the workers and the operations agree on who has which job. -/
structure Wired (s : Pool) : Prop where
  nodup : s.queue.Nodup
  queued : ∀ i, i ∈ s.queue ↔ ∃ op, s.ops[i]? = some op ∧ op.stage = .queued
  held : ∀ (i : Nat) (op : Offload), s.ops[i]? = some op →
    op.stage = .working ∨ op.stage = .completing → ∃ w : Nat, s.workers[w]? = some (.busy i)
  busy : ∀ (w i : Nat), s.workers[w]? = some (.busy i) →
    ∃ op, s.ops[i]? = some op ∧ (op.stage = .working ∨ op.stage = .completing)
  unique : ∀ (w w' i : Nat), s.workers[w]? = some (.busy i) →
    s.workers[w']? = some (.busy i) → w = w'
  staffed : s.queue ≠ [] → s.workers ≠ []

variable {s s' : Pool}

theorem spawn_eq_some {error : IoError} (hspawn : s.spawn = some error) : s.IsRefusal error := by
  unfold spawn at hspawn
  split at hspawn
  next e hcreate => exact .inr (.inr (hcreate.trans hspawn))
  next =>
    split at hspawn
    · exact .inr (.inl (Option.some.inj hspawn).symm)
    · obtain ⟨-, heq⟩ := Option.ite_none_right_eq_some.mp hspawn
      exact .inl (Option.some.inj heq).symm

theorem workers_of_spawn (hspawn : s.spawn = none) : s.workers ≠ [] := by
  intro hnil
  simp [spawn, hnil] at hspawn
  split at hspawn <;> simp at hspawn

/-! ## Each step keeps the books -/

/-- The condition under which a step does what it should. -/
def Settles (s : Pool) : Action → Prop
  | .complete w => ∀ i op, s.jobOf w = some (i, op) → op.settles = true
  | _ => True

theorem Kept.setOp (h : s.Kept) {i : Nat} {op op' : Offload} (hop : s.ops[i]? = some op)
    (haccounted : op'.Accounted) (hrefused : op'.stage = .refused →
      ∃ error, s.IsRefusal error ∧ op'.outcomes = [.error error]) : (s.setOp i op').Kept := by
  refine ⟨?_, ?_, h.survive⟩
  · intro j other hother
    rcases (Table.getElem?_set_eq_some hop).mp hother with ⟨-, rfl⟩ | ⟨-, hold⟩
    · exact haccounted
    · exact h.accounted j other hold
  · intro j other hother hstage
    rcases (Table.getElem?_set_eq_some hop).mp hother with ⟨-, rfl⟩ | ⟨-, hold⟩
    · exact hrefused hstage
    · exact h.refused j other hold hstage

theorem Kept.setWorker (h : s.Kept) (w : Nat) {worker : Worker} (hworker : worker ≠ .dead) :
    (s.setWorker w worker).Kept := by
  refine ⟨h.accounted, h.refused, ?_⟩
  intro other hmem
  rcases List.mem_or_eq_of_mem_set hmem with hold | rfl
  · exact h.survive other hold
  · exact hworker

theorem dropReceiver_eq_self {w : Nat} {worker : Worker} (hworker : s.workers[w]? = some worker)
    (hlive : worker ≠ .dead) : s.dropReceiver = s := by
  unfold dropReceiver
  rw [if_neg]
  intro hall
  have hmem := List.all_eq_true.mp hall worker (List.mem_of_getElem? hworker)
  exact hlive (of_decide_eq_true hmem)

/-- The end of a job that settles leaves the worker idle and the pool as it is. -/
theorem complete_eq (haccounted : ∀ (i : Nat) (op : Offload), s.ops[i]? = some op → op.Accounted)
    {w i : Nat} {op : Offload} (hbusy : s.workers[w]? = some (.busy i))
    (hop : s.ops[i]? = some op) (hstage : op.stage = .completing) (hsettles : op.settles = true) :
    ((s.setOp i { op.runToEnd.1 with stage := .ended }).setWorker w
      (afterJob op.runToEnd.2)).dropReceiver =
    (s.setOp i { op.runToEnd.1 with stage := .ended }).setWorker w .idle := by
  rw [(haccounted i op hop).afterJob_runToEnd hstage hsettles]
  exact dropReceiver_eq_self (Table.getElem?_set_self hbusy) (by simp)

theorem Kept.stepped (h : s.Kept) (hwired : s.Wired) {action : Action} (hsettles : s.Settles action)
    (hstep : Stepped s action s') : s'.Kept := by
  cases hstep with
  | @refused offloader job error hspawn =>
      refine ⟨?_, ?_, h.survive⟩
      · intro i op hop
        rcases Table.getElem?_concat_eq_some.mp hop with hold | ⟨-, rfl⟩
        · exact h.accounted i op hold
        · exact .refuse offloader job error
      · intro i op hop hstage
        rcases Table.getElem?_concat_eq_some.mp hop with hold | ⟨-, rfl⟩
        · exact h.refused i op hold hstage
        · refine ⟨error, spawn_eq_some hspawn, ?_⟩
          cases offloader <;> rfl
  | accepted offloader job hspawn =>
      refine ⟨?_, ?_, h.survive⟩
      · intro i op hop
        rcases Table.getElem?_concat_eq_some.mp hop with hold | ⟨-, rfl⟩
        · exact h.accounted i op hold
        · exact .submitted offloader job
      · intro i op hop hstage
        rcases Table.getElem?_concat_eq_some.mp hop with hold | ⟨-, rfl⟩
        · exact h.refused i op hold hstage
        · cases hstage
  | @receive w i rest op hidle hqueue hop =>
      obtain ⟨op', hop', hstage⟩ := (hwired.queued i).mp (by simp [hqueue])
      obtain rfl : op = op' := Option.some.inj (hop.symm.trans hop')
      have hrest : ({ s with queue := rest } : Pool).Kept := ⟨h.accounted, h.refused, h.survive⟩
      refine (hrest.setWorker w (by simp)).setOp hop ?_ (by simp)
      exact (h.accounted i op hop).goOn (by simp [hstage, Stage.unended]) rfl
  | @work w i op hbusy hop hstage =>
      refine h.setOp hop ((h.accounted i op hop).goOn (by simp [hstage, Stage.unended]) rfl) ?_
      simp
  | @complete w i op hbusy hop hstage =>
      have hjob := hsettles i op (jobOf_eq_some.mpr ⟨hbusy, hop⟩)
      rw [complete_eq h.accounted hbusy hop hstage hjob]
      exact (h.setOp hop ((h.accounted i op hop).runToEnd hstage hjob) (by simp)).setWorker w
        (by simp)
  | @dropFuture i op hop halive =>
      refine h.setOp hop ((h.accounted i op hop).dropFuture halive) ?_
      rw [Offload.dropFuture_stage, Offload.dropFuture_outcomes]
      exact h.refused i op hop

/-! ## Each step keeps the wiring -/

/-- An operation changes and stays with whoever has its job. -/
theorem Wired.setOp (h : s.Wired) {i : Nat} {op op' : Offload} (hop : s.ops[i]? = some op)
    (hqueued : op'.stage = .queued ↔ op.stage = .queued)
    (hworking : op'.stage = .working ∨ op'.stage = .completing ↔
      op.stage = .working ∨ op.stage = .completing) : (s.setOp i op').Wired := by
  refine ⟨h.nodup, ?_, ?_, ?_, h.unique, h.staffed⟩
  · intro j
    refine (h.queued j).trans ?_
    constructor
    · rintro ⟨other, hother, hstage⟩
      by_cases heq : j = i
      · subst heq
        obtain rfl : op = other := Option.some.inj (hop.symm.trans hother)
        exact ⟨op', Table.getElem?_set_self hop, hqueued.mpr hstage⟩
      · exact ⟨other, (Table.getElem?_set_eq_some hop).mpr (.inr ⟨heq, hother⟩), hstage⟩
    · rintro ⟨other, hother, hstage⟩
      rcases (Table.getElem?_set_eq_some hop).mp hother with ⟨rfl, rfl⟩ | ⟨-, hold⟩
      · exact ⟨op, hop, hqueued.mp hstage⟩
      · exact ⟨other, hold, hstage⟩
  · intro j other hother hstage
    rcases (Table.getElem?_set_eq_some hop).mp hother with ⟨rfl, rfl⟩ | ⟨-, hold⟩
    · exact h.held j op hop (hworking.mp hstage)
    · exact h.held j other hold hstage
  · intro w j hbusy
    obtain ⟨other, hother, hstage⟩ := h.busy w j hbusy
    by_cases heq : j = i
    · subst heq
      obtain rfl : op = other := Option.some.inj (hop.symm.trans hother)
      exact ⟨op', Table.getElem?_set_self hop, hworking.mpr hstage⟩
    · exact ⟨other, (Table.getElem?_set_eq_some hop).mpr (.inr ⟨heq, hother⟩), hstage⟩

/-- An idle worker takes the job at the head of the queue. -/
theorem Wired.receive (h : s.Wired) {w i : Nat} {rest : List Nat} {op : Offload}
    (hidle : s.workers[w]? = some .idle) (hqueue : s.queue = i :: rest)
    (hop : s.ops[i]? = some op) :
    (({ s with queue := rest }.setWorker w (.busy i)).setOp i
      { op with stage := .working, ran := true }).Wired := by
  have hnodup := h.nodup
  rw [hqueue, List.nodup_cons] at hnodup
  obtain ⟨op', hop', hstage⟩ := (h.queued i).mp (by simp [hqueue])
  obtain rfl : op = op' := Option.some.inj (hop.symm.trans hop')
  have hfree : ∀ v : Nat, s.workers[v]? ≠ some (.busy i) := by
    intro v hv
    obtain ⟨other, hother, hbusy⟩ := h.busy v i hv
    obtain rfl : op = other := Option.some.inj (hop.symm.trans hother)
    simp [hstage] at hbusy
  refine ⟨hnodup.2, ?_, ?_, ?_, ?_, ?_⟩
  · intro j
    constructor
    · intro (hmem : j ∈ rest)
      obtain ⟨other, hother, hqueued⟩ := (h.queued j).mp (by simp [hqueue, hmem])
      have hne : j ≠ i := by
        rintro rfl
        exact hnodup.1 hmem
      exact ⟨other, (Table.getElem?_set_eq_some hop).mpr (.inr ⟨hne, hother⟩), hqueued⟩
    · rintro ⟨other, hother, hqueued⟩
      rcases (Table.getElem?_set_eq_some hop).mp hother with ⟨-, rfl⟩ | ⟨hne, hold⟩
      · cases hqueued
      · have hmem := (h.queued j).mpr ⟨other, hold, hqueued⟩
        rw [hqueue, List.mem_cons] at hmem
        exact hmem.resolve_left hne
  · intro j other hother hworking
    rcases (Table.getElem?_set_eq_some hop).mp hother with ⟨rfl, -⟩ | ⟨-, hold⟩
    · exact ⟨w, Table.getElem?_set_self hidle⟩
    · obtain ⟨v, hv⟩ := h.held j other hold hworking
      have hne : v ≠ w := by
        rintro rfl
        simp [hidle] at hv
      exact ⟨v, (Table.getElem?_set_eq_some hidle).mpr (.inr ⟨hne, hv⟩)⟩
  · intro v j hv
    rcases (Table.getElem?_set_eq_some hidle).mp hv with ⟨-, heq⟩ | ⟨-, hold⟩
    · cases heq
      exact ⟨_, Table.getElem?_set_self hop, .inl rfl⟩
    · have hne : j ≠ i := by
        rintro rfl
        exact hfree v hold
      obtain ⟨other, hother, hworking⟩ := h.busy v j hold
      exact ⟨other, (Table.getElem?_set_eq_some hop).mpr (.inr ⟨hne, hother⟩), hworking⟩
  · intro v v' j hv hv'
    rcases (Table.getElem?_set_eq_some hidle).mp hv with ⟨rfl, heq⟩ | ⟨-, hold⟩
    · rcases (Table.getElem?_set_eq_some hidle).mp hv' with ⟨rfl, -⟩ | ⟨-, hold'⟩
      · rfl
      · cases heq
        exact absurd hold' (hfree v')
    · rcases (Table.getElem?_set_eq_some hidle).mp hv' with ⟨rfl, heq⟩ | ⟨-, hold'⟩
      · cases heq
        exact absurd hold (hfree v)
      · exact h.unique v v' j hold hold'
  · intro _ (hnil : s.workers.set w (.busy i) = [])
    have hworkers : s.workers = [] := by simpa using hnil
    simp [hworkers] at hidle

theorem Wired.complete (h : s.Wired) {w i : Nat} {op op' : Offload}
    (hbusy : s.workers[w]? = some (.busy i)) (hop : s.ops[i]? = some op)
    (hstage : op.stage = .completing) (hended : op'.stage = .ended) :
    ((s.setOp i op').setWorker w .idle).Wired := by
  refine ⟨h.nodup, ?_, ?_, ?_, ?_, ?_⟩
  · intro j
    refine (h.queued j).trans ?_
    constructor
    · rintro ⟨other, hother, hqueued⟩
      have hne : j ≠ i := by
        rintro rfl
        obtain rfl : op = other := Option.some.inj (hop.symm.trans hother)
        simp [hstage] at hqueued
      exact ⟨other, (Table.getElem?_set_eq_some hop).mpr (.inr ⟨hne, hother⟩), hqueued⟩
    · rintro ⟨other, hother, hqueued⟩
      rcases (Table.getElem?_set_eq_some hop).mp hother with ⟨-, rfl⟩ | ⟨-, hold⟩
      · simp [hended] at hqueued
      · exact ⟨other, hold, hqueued⟩
  · intro j other hother hworking
    rcases (Table.getElem?_set_eq_some hop).mp hother with ⟨-, rfl⟩ | ⟨hne, hold⟩
    · simp [hended] at hworking
    · obtain ⟨v, hv⟩ := h.held j other hold hworking
      have hvw : v ≠ w := by
        rintro rfl
        rw [hbusy] at hv
        cases hv
        exact hne rfl
      exact ⟨v, (Table.getElem?_set_eq_some hbusy).mpr (.inr ⟨hvw, hv⟩)⟩
  · intro v j hv
    rcases (Table.getElem?_set_eq_some hbusy).mp hv with ⟨-, heq⟩ | ⟨hvw, hold⟩
    · cases heq
    · have hne : j ≠ i := by
        rintro rfl
        exact hvw (h.unique v w j hold hbusy)
      obtain ⟨other, hother, hworking⟩ := h.busy v j hold
      exact ⟨other, (Table.getElem?_set_eq_some hop).mpr (.inr ⟨hne, hother⟩), hworking⟩
  · intro v v' j hv hv'
    rcases (Table.getElem?_set_eq_some hbusy).mp hv with ⟨-, heq⟩ | ⟨-, hold⟩
    · cases heq
    · rcases (Table.getElem?_set_eq_some hbusy).mp hv' with ⟨-, heq⟩ | ⟨-, hold'⟩
      · cases heq
      · exact h.unique v v' j hold hold'
  · intro _ (hnil : s.workers.set w .idle = [])
    have hworkers : s.workers = [] := by simpa using hnil
    simp [hworkers] at hbusy

theorem Wired.refused (h : s.Wired) {op : Offload} (hstage : op.stage = .refused) :
    ({ s with ops := s.ops ++ [op] } : Pool).Wired := by
  refine ⟨h.nodup, ?_, ?_, ?_, h.unique, h.staffed⟩
  · intro j
    refine (h.queued j).trans ?_
    constructor
    · rintro ⟨other, hother, hqueued⟩
      exact ⟨other, Table.getElem?_concat_eq_some.mpr (.inl hother), hqueued⟩
    · rintro ⟨other, hother, hqueued⟩
      rcases Table.getElem?_concat_eq_some.mp hother with hold | ⟨-, rfl⟩
      · exact ⟨other, hold, hqueued⟩
      · simp [hstage] at hqueued
  · intro j other hother hworking
    rcases Table.getElem?_concat_eq_some.mp hother with hold | ⟨-, rfl⟩
    · exact h.held j other hold hworking
    · simp [hstage] at hworking
  · intro w j hbusy
    obtain ⟨other, hother, hworking⟩ := h.busy w j hbusy
    exact ⟨other, Table.getElem?_concat_eq_some.mpr (.inl hother), hworking⟩

/-- An operation is added with its job at the end of the queue. -/
theorem Wired.accepted (h : s.Wired) {op : Offload} (hstage : op.stage = .queued)
    (hworkers : s.workers ≠ []) :
    ({ s with ops := s.ops ++ [op], queue := s.queue ++ [s.ops.length] } : Pool).Wired := by
  have hnew : s.ops.length ∉ s.queue := by
    intro hmem
    obtain ⟨other, hother, -⟩ := (h.queued _).mp hmem
    simp at hother
  refine ⟨?_, ?_, ?_, ?_, h.unique, fun _ => hworkers⟩
  · simpa using h.nodup.concat hnew
  · intro j
    rw [List.mem_append, List.mem_singleton, h.queued]
    constructor
    · rintro (⟨other, hother, hqueued⟩ | rfl)
      · exact ⟨other, Table.getElem?_concat_eq_some.mpr (.inl hother), hqueued⟩
      · exact ⟨op, Table.getElem?_concat_eq_some.mpr (.inr ⟨rfl, rfl⟩), hstage⟩
    · rintro ⟨other, hother, hqueued⟩
      rcases Table.getElem?_concat_eq_some.mp hother with hold | ⟨rfl, -⟩
      · exact .inl ⟨other, hold, hqueued⟩
      · exact .inr rfl
  · intro j other hother hworking
    rcases Table.getElem?_concat_eq_some.mp hother with hold | ⟨-, rfl⟩
    · exact h.held j other hold hworking
    · simp [hstage] at hworking
  · intro w j hbusy
    obtain ⟨other, hother, hworking⟩ := h.busy w j hbusy
    exact ⟨other, Table.getElem?_concat_eq_some.mpr (.inl hother), hworking⟩

theorem Wired.stepped (h : s.Wired) (hkept : s.Kept) {action : Action}
    (hsettles : s.Settles action) (hstep : Stepped s action s') : s'.Wired := by
  cases hstep with
  | refused offloader job hspawn =>
      refine h.refused ?_
      cases offloader <;> rfl
  | accepted offloader job hspawn => exact h.accepted rfl (workers_of_spawn hspawn)
  | receive hidle hqueue hop => exact h.receive hidle hqueue hop
  | work hbusy hop hstage => exact h.setOp hop (by simp [hstage]) (by simp [hstage])
  | @complete w i op hbusy hop hstage =>
      have hjob := hsettles i op (jobOf_eq_some.mpr ⟨hbusy, hop⟩)
      rw [complete_eq hkept.accounted hbusy hop hstage hjob]
      exact h.complete hbusy hop hstage rfl
  | dropFuture hop halive =>
      exact h.setOp hop (by rw [Offload.dropFuture_stage]) (by rw [Offload.dropFuture_stage])

/-! ## What awaiting a job promises -/

/-- The states of every run whose steps all settle. -/
def Reachable (created : Except IoError Nat) : Pool → Prop :=
  Transition.Reachable step Settles (init created)

/-- What awaiting a job promises: no outcome before the job has ended and at most one
after it; one outcome for a future that is alive when the job ends; as many calls
of `finish_async_operation` as of `begin_async_operation`; a refused job is not run,
and its future resolves with the refusal; and no worker dies. -/
structure Resolved (s : Pool) : Prop where
  pending : ∀ op ∈ s.ops, op.stage.unended = true → op.outcomes = [] ∧ op.finished ≤ op.begun
  matched : ∀ op ∈ s.ops, op.stage.unended = false → op.finished = op.begun
  delivered : ∀ op ∈ s.ops, op.outcomes.length ≤ 1 ∧
    (op.stage = .ended → op.alive = true → op.outcomes.length = 1)
  refused : ∀ op ∈ s.ops, op.stage = .refused →
    op.ran = false ∧ ∃ error, s.IsRefusal error ∧ op.outcomes = [.error error]
  survive : ∀ worker ∈ s.workers, worker ≠ .dead

theorem Kept.init (created : Except IoError Nat) : (init created).Kept := by
  cases created with
  | ok workers =>
      refine ⟨by simp [Pool.init], by simp [Pool.init], ?_⟩
      intro worker hmem
      simp [List.eq_of_mem_replicate hmem]
  | error error => exact ⟨by simp [Pool.init], by simp [Pool.init], by simp [Pool.init]⟩

theorem Wired.init (created : Except IoError Nat) : (init created).Wired := by
  cases created with
  | ok workers =>
      have hidle : ∀ w i : Nat, (List.replicate (workers + 1) Worker.idle)[w]? ≠ some (.busy i) := by
        intro w i
        rw [List.getElem?_replicate]
        split <;> simp
      exact ⟨by simp [Pool.init], by simp [Pool.init], by simp [Pool.init],
        fun w i h => absurd h (hidle w i), fun w _ i h => absurd h (hidle w i),
        by simp [Pool.init]⟩
  | error error => constructor <;> simp [Pool.init]

theorem kept_of_reachable {created : Except IoError Nat} (hreach : s.Reachable created) :
    s.Kept ∧ s.Wired := by
  refine Transition.Reachable.invariant (fun s => s.Kept ∧ s.Wired)
    ⟨.init created, .init created⟩ ?_ hreach
  intro s action s' ⟨hkept, hwired⟩ hsettles hstep
  have hstepped := stepped_of_step hstep
  exact ⟨hkept.stepped hwired hsettles hstepped, hwired.stepped hkept hsettles hstepped⟩

theorem Kept.resolved (h : s.Kept) : s.Resolved := by
  have haccounted : ∀ op ∈ s.ops, op.Accounted := by
    intro op hmem
    obtain ⟨i, hop⟩ := List.mem_iff_getElem?.mp hmem
    exact h.accounted i op hop
  refine ⟨?_, ?_, ?_, ?_, h.survive⟩
  · intro op hmem hstage
    obtain ⟨houtcomes, hfinished, -⟩ := (haccounted op hmem).unended hstage
    refine ⟨houtcomes, ?_⟩
    rw [hfinished, (haccounted op hmem).begun_eq]
    cases hoffloader : op.offloader <;> cases halive : op.alive <;>
      simp [Offload.early, Offloader.begins, hoffloader, halive]
  · intro op hmem hstage
    exact ((haccounted op hmem).ended hstage).1
  · intro op hmem
    refine ⟨?_, (haccounted op hmem).delivered⟩
    cases hstage : op.stage.unended with
    | true => simp [((haccounted op hmem).unended hstage).1]
    | false => exact ((haccounted op hmem).ended hstage).2.1
  · intro op hmem hstage
    obtain ⟨i, hop⟩ := List.mem_iff_getElem?.mp hmem
    exact ⟨((haccounted op hmem).refused hstage).1, h.refused i op hop hstage⟩

end Pool

end Runite.Sys
