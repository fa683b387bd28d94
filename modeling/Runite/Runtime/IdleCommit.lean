import Runite.Runtime.RunLoop
import Runite.Lib.Counting
import Mathlib.Data.List.Basic
import Mathlib.Tactic.Common

/-!
# Committing to idle

Two invariants of every interleaving.  `Probed`: what the owner has read since
its last look at a queue or a counter is still true where it matters.
`Delivered`: `pending_ops` counts the operations that are not finished, and the
wake of an operation whose result is stored is on its way until it is in one of
the owner's own queues.
-/

namespace Runite.Runtime

/-- The owner has found its own queues empty and has run no code since. -/
def OwnerPhase.quiet : OwnerPhase → Bool
  | .readyRemote _ | .busy | .busyOps | .commitQueue | .commitOps | .commitTasks => true
  | _ => false

/-- The owner is in `run`. -/
def OwnerPhase.inLoop : OwnerPhase → Bool
  | .outside | .tornDown => false
  | _ => true

/-- `finish_async_operation` has not been called. -/
def Operation.unfinished (op : Operation) : Bool :=
  decide (op.phase ≠ .finished)

namespace RunLoop

variable {s s' : RunLoop}

/-! ## What the owner has read -/

structure Probed (s : RunLoop) : Prop where
  quiet : s.phase.quiet = true → s.localMicrotasks = [] ∧ s.localMacrotasks = []
  queue : s.phase.holdsLock = true → s.shared.remoteMacrotasks = []
  ops : s.phase = .commitTasks → s.shared.pendingOps = 0
  closed : s.phase.inLoop = true → s.shared.closed = false

theorem Probed.init (capacity : Nat) (worker : Bool) : (init capacity worker).Probed := by
  constructor <;> simp [RunLoop.init, OwnerPhase.quiet, OwnerPhase.holdsLock, OwnerPhase.inLoop]

/-- Nothing that another thread may do is seen by the owner, but that operations
are finished and, where it does not hold the lock, that the queue changes. -/
theorem Probed.frame (h : s.Probed) (hphase : s'.phase = s.phase)
    (hmicro : s.phase.quiet = true → s'.localMicrotasks = s.localMicrotasks)
    (hmacrotasks : s.phase.quiet = true → s'.localMacrotasks = s.localMacrotasks)
    (hqueue : s.phase.holdsLock = true →
      s'.shared.remoteMacrotasks = s.shared.remoteMacrotasks)
    (hops : s.phase = .commitTasks → s'.shared.pendingOps ≤ s.shared.pendingOps)
    (hclosed : s'.shared.closed = s.shared.closed) : s'.Probed := by
  constructor
  · intro hquiet
    rw [hphase] at hquiet
    rw [hmicro hquiet, hmacrotasks hquiet]
    exact h.quiet hquiet
  · intro hlock
    rw [hphase] at hlock
    rw [hqueue hlock]
    exact h.queue hlock
  · intro hcommit
    rw [hphase] at hcommit
    have hzero := h.ops hcommit
    have hle := hops hcommit
    omega
  · intro hloop
    rw [hphase] at hloop
    rw [hclosed]
    exact h.closed hloop

theorem not_quiet_of_runsCode {phase : OwnerPhase} (hruns : phase.runsCode = true) :
    phase.quiet = false ∧ phase.holdsLock = false ∧ phase ≠ .commitTasks := by
  cases phase <;> simp_all [OwnerPhase.runsCode, OwnerPhase.quiet, OwnerPhase.holdsLock]

/-- Code on the owner's thread may change anything but whether the thread is closed. -/
theorem Probed.of_runsCode (h : s.Probed) (hruns : s.phase.runsCode = true)
    (hphase : s'.phase = s.phase) (hclosed : s'.shared.closed = s.shared.closed) :
    s'.Probed := by
  obtain ⟨hquiet, hlock, hcommit⟩ := not_quiet_of_runsCode hruns
  exact h.frame hphase (by simp [hquiet]) (by simp [hquiet]) (by simp [hlock])
    (by simp [hcommit]) hclosed

theorem Probed.of_ignorant (hquiet : s.phase.quiet = false) (hlock : s.phase.holdsLock = false)
    (hclosed : s.phase.inLoop = true → s.shared.closed = false) : s.Probed := by
  refine ⟨by simp [hquiet], by simp [hlock], ?_, hclosed⟩
  intro hcommit
  simp [hcommit, OwnerPhase.holdsLock] at hlock

theorem inLoop_of_turn (hturn : s.turn = some s') : s.phase.inLoop = true := by
  unfold RunLoop.turn at hturn
  cases hphase : s.phase <;> simp_all [OwnerPhase.inLoop]

theorem Probed.turn (h : s.Probed) (hturn : s.turn = some s') : s'.Probed := by
  have hclosed := h.closed (inLoop_of_turn hturn)
  unfold RunLoop.turn at hturn
  cases hphase : s.phase with
  | outside => simp [hphase] at hturn
  | tornDown => simp [hphase] at hturn
  | readyLocal round =>
      simp only [hphase] at hturn
      split at hturn
      next hempty =>
        cases hturn
        exact ⟨fun _ => by simpa using hempty, by simp [OwnerPhase.holdsLock], by simp,
          fun _ => hclosed⟩
      next =>
        cases hturn
        exact .of_ignorant rfl rfl fun _ => hclosed
  | readyRemote round =>
      have hquiet := h.quiet (by simp [hphase, OwnerPhase.quiet])
      simp only [hphase] at hturn
      split at hturn
      next hempty =>
        cases hturn
        cases round with
        | third => exact ⟨fun _ => hquiet, by simp [OwnerPhase.holdsLock], by simp,
            fun _ => hclosed⟩
        | _ => exact .of_ignorant rfl rfl fun _ => hclosed
      next =>
        cases hturn
        exact .of_ignorant rfl rfl fun _ => hclosed
  | busy =>
      have hquiet := h.quiet (by simp [hphase, OwnerPhase.quiet])
      simp only [hphase] at hturn
      split at hturn
      next =>
        cases hturn
        exact ⟨fun _ => hquiet, by simp [OwnerPhase.holdsLock], by simp, fun _ => hclosed⟩
      next =>
        cases hturn
        exact .of_ignorant rfl rfl fun _ => hclosed
  | busyOps =>
      have hquiet := h.quiet (by simp [hphase, OwnerPhase.quiet])
      simp only [hphase] at hturn
      split at hturn
      next =>
        cases hturn
        exact ⟨fun _ => hquiet, by simp [OwnerPhase.holdsLock], by simp, fun _ => hclosed⟩
      next =>
        cases hturn
        exact .of_ignorant rfl rfl fun _ => hclosed
  | commitQueue =>
      have hquiet := h.quiet (by simp [hphase, OwnerPhase.quiet])
      simp only [hphase] at hturn
      split at hturn
      next hempty =>
        cases hturn
        exact ⟨fun _ => hquiet, fun _ => by simpa using hempty, by simp, fun _ => hclosed⟩
      next =>
        cases hturn
        exact .of_ignorant rfl rfl fun _ => hclosed
  | commitOps =>
      have hquiet := h.quiet (by simp [hphase, OwnerPhase.quiet])
      have hqueue := h.queue (by simp [hphase, OwnerPhase.holdsLock])
      simp only [hphase] at hturn
      split at hturn
      next hzero =>
        cases hturn
        exact ⟨fun _ => hquiet, fun _ => hqueue, fun _ => hzero, fun _ => hclosed⟩
      next =>
        cases hturn
        exact .of_ignorant rfl rfl fun _ => hclosed
  | commitTasks =>
      simp only [hphase] at hturn
      cases hturn
      unfold report
      rcases s.shared.commit_cases s.worker s.tasks with heq | heq | heq <;> rw [heq]
      · exact .of_ignorant rfl rfl fun _ => hclosed
      · exact .of_ignorant rfl rfl (by simp [OwnerPhase.inLoop])
      · exact .of_ignorant rfl rfl (by simp [OwnerPhase.inLoop])
  | drainWorkers round =>
      simp only [hphase] at hturn
      cases hturn
      cases round <;> exact .of_ignorant rfl rfl fun _ => hclosed
  | drainMicrotasks =>
      simp only [hphase] at hturn
      split at hturn <;> cases hturn <;> exact .of_ignorant rfl rfl fun _ => hclosed
  | popMacrotask =>
      simp only [hphase] at hturn
      split at hturn <;> cases hturn <;> exact .of_ignorant rfl rfl fun _ => hclosed
  | _ =>
      simp only [hphase] at hturn
      cases hturn
      exact .of_ignorant rfl rfl fun _ => hclosed

theorem Probed.proceeded (h : s.Probed) {i : Nat} {op : Operation}
    (hmay : s.mayStep op.onOwner = true) (hproceed : Proceeded s i op s') : s'.Probed := by
  cases hproceed with
  | stores =>
      exact h.frame rfl (fun _ => rfl) (fun _ => rfl) (fun _ => rfl)
        (fun _ => Nat.le_refl _) rfl
  | queuesLocally _ howner =>
      have hruns : s.phase.runsCode = true := by simpa [mayStep, howner] using hmay
      cases hclass : op.wakeClass <;> exact h.of_runsCode hruns rfl rfl
  | queues notifier spawns _ hlock =>
      refine h.frame rfl (fun _ => rfl) (fun _ => rfl) ?_ (fun _ => ?_) ?_
      · intro hheld
        simp [hlock] at hheld
      · exact Nat.le_of_eq (ThreadShared.enqueue_pendingOps _ _ _ notifier spawns)
      · exact ThreadShared.enqueue_closed _ _ _ notifier spawns
  | finishes =>
      exact h.frame rfl (fun _ => rfl) (fun _ => rfl) (fun _ => rfl)
        (fun _ => Nat.sub_le _ _) rfl

/-- A change of an operation is not seen by the owner. -/
theorem Probed.setOp (h : s.Probed) (i : Nat) (op : Operation) : (s.setOp i op).Probed :=
  h.frame rfl (fun _ => rfl) (fun _ => rfl) (fun _ => rfl) (fun _ => Nat.le_refl _) rfl

theorem effect_phase (effect : Effect) : (s.effect effect).phase = s.phase := by
  cases effect <;> rfl

theorem effect_closed (effect : Effect) : (s.effect effect).shared.closed = s.shared.closed := by
  cases effect <;> rfl

theorem Probed.stepped (h : s.Probed) (hstep : Stepped s s') : s'.Probed := by
  cases hstep with
  | enter hphase hopen => exact .of_ignorant rfl rfl fun _ => hopen
  | pump pump hphase =>
      have hruns : s.phase.runsCode = true := by simp [hphase, OwnerPhase.runsCode]
      cases pump <;> exact h.of_runsCode hruns rfl rfl
  | turn hturn => exact h.turn hturn
  | effect effect hruns => exact h.of_runsCode hruns (effect_phase effect) (effect_closed effect)
  | finish onOwner hop => exact h.setOp _ _
  | proceed hop hmay hproceed => exact h.proceeded hmay hproceed
  | drop hop => exact h.setOp _ _
  | remoteWake notifier spawns hlock =>
      exact h.frame rfl (fun _ => rfl) (fun _ => rfl) (by simp [hlock])
        (fun _ => Nat.le_of_eq (ThreadShared.enqueue_pendingOps _ _ _ notifier spawns))
        (ThreadShared.enqueue_closed _ _ _ notifier spawns)
  | remoteTask notifier hlock =>
      exact h.frame rfl (fun _ => rfl) (fun _ => rfl) (by simp [hlock])
        (fun _ => Nat.le_of_eq (ThreadShared.enqueue_pendingOps _ _ _ notifier _))
        (ThreadShared.enqueue_closed _ _ _ notifier _)
  | childFinishes child =>
      exact h.frame rfl (fun _ => rfl) (fun _ => rfl) (fun _ => rfl) (fun _ => Nat.le_refl _) rfl
  | tearDown hphase => exact .of_ignorant rfl rfl (by simp [OwnerPhase.inLoop])

/-! ## Where the wakes are -/

/-- What `drain_remote_tasks` has in hand. -/
def inHand (s : RunLoop) : List Work :=
  match s.phase with
  | .adopt _ drained => drained
  | _ => []

/-- The closures on their way to the owner's own queues, and those that came there. -/
def onTheWay (s : RunLoop) : List Work :=
  s.shared.remoteMacrotasks ++ s.inHand ++ s.delivered

theorem mem_onTheWay {w : Work} :
    w ∈ s.onTheWay ↔ w ∈ s.shared.remoteMacrotasks ∨ w ∈ s.inHand ∨ w ∈ s.delivered := by
  simp [onTheWay]

theorem onTheWay_subset
    (hremote : s.shared.remoteMacrotasks ⊆ s'.shared.remoteMacrotasks)
    (hphase : s'.phase = s.phase) (hdelivered : s.delivered ⊆ s'.delivered) :
    s.onTheWay ⊆ s'.onTheWay := by
  intro w hw
  rw [mem_onTheWay] at hw ⊢
  have hinHand : s'.inHand = s.inHand := by simp [inHand, hphase]
  rw [hinHand]
  rcases hw with hw | hw | hw
  · exact .inl (hremote hw)
  · exact .inr (.inl hw)
  · exact .inr (.inr (hdelivered hw))

/-- `pending_ops` counts the operations that are not finished, and the wake of a
stored result is on its way once it was queued. -/
structure Delivered (s : RunLoop) : Prop where
  count : s.shared.pendingOps = s.ops.countP Operation.unfinished
  unstored : ∀ (i : Nat) (op : Operation), s.ops[i]? = some op →
    op.phase = .pending ∨ op.phase = .storing → op.stored = false
  wake : s.shared.closed = false → ∀ (i : Nat) (op : Operation), s.ops[i]? = some op →
    op.stored = true → op.phase ≠ .queueing → .wake i ∈ s.onTheWay

theorem Delivered.init (capacity : Nat) (worker : Bool) : (init capacity worker).Delivered := by
  constructor <;> simp [RunLoop.init]

/-- A step that leaves the operations alone loses no wake of an open thread. -/
theorem Delivered.frame (h : s.Delivered) (hops : s'.ops = s.ops)
    (hpending : s'.shared.pendingOps = s.shared.pendingOps)
    (hclosed : s'.shared.closed = false → s.shared.closed = false)
    (hway : s'.shared.closed = false → s.onTheWay ⊆ s'.onTheWay) : s'.Delivered := by
  refine ⟨?_, ?_, ?_⟩
  · rw [hops, hpending]
    exact h.count
  · rw [hops]
    exact h.unstored
  · intro hopen i op hop hstored hphase
    rw [hops] at hop
    exact hway hopen (h.wake (hclosed hopen) i op hop hstored hphase)

/-- A step of the owner that touches neither the queue nor what is in hand. -/
theorem Delivered.same (h : s.Delivered) (hops : s'.ops = s.ops) (hshared : s'.shared = s.shared)
    (hinHand : s'.inHand = s.inHand) (hdelivered : s'.delivered = s.delivered) :
    s'.Delivered := by
  refine h.frame hops (by rw [hshared]) (by rw [hshared]; exact id) fun _ => ?_
  intro w hw
  rwa [onTheWay, hshared, hinHand, hdelivered]

theorem Delivered.set (h : s.Delivered) {i : Nat} {op op' : Operation}
    (hop : s.ops[i]? = some op) (hops : s'.ops = s.ops.set i op')
    (hcount : s'.shared.pendingOps + op.unfinished.toNat =
      s.shared.pendingOps + op'.unfinished.toNat)
    (hunstored : op'.phase = .pending ∨ op'.phase = .storing → op'.stored = false)
    (hclosed : s'.shared.closed = s.shared.closed) (hway : s.onTheWay ⊆ s'.onTheWay)
    (hwake : s.shared.closed = false → op'.stored = true → op'.phase ≠ .queueing →
      .wake i ∈ s'.onTheWay) : s'.Delivered := by
  have hlt : i < s.ops.length := (List.getElem?_eq_some_iff.mp hop).1
  refine ⟨?_, ?_, ?_⟩
  · have hset := Counting.countP_set_add Operation.unfinished op' hop
    have hold := h.count
    rw [hops]
    omega
  · intro j other hother hphase
    rw [hops, List.getElem?_set] at hother
    split at hother
    next =>
      obtain rfl : op' = other := by simpa [hlt] using hother
      exact hunstored hphase
    next => exact h.unstored j other hother hphase
  · intro hopen j other hother hstored hphase
    rw [hops, List.getElem?_set] at hother
    rw [hclosed] at hopen
    split at hother
    next heq =>
      obtain rfl : op' = other := by simpa [hlt] using hother
      exact heq ▸ hwake hopen hstored hphase
    next => exact hway (h.wake hopen j other hother hstored hphase)

theorem Delivered.proceeded (h : s.Delivered) {i : Nat} {op : Operation}
    (hop : s.ops[i]? = some op) (hproceed : Proceeded s i op s') : s'.Delivered := by
  cases hproceed with
  | stores hphase =>
      exact h.set hop rfl (by simp [setOp, Operation.unfinished, hphase]) (by simp) rfl (List.Subset.refl _)
        (by simp)
  | queuesLocally hphase howner =>
      cases hclass : op.wakeClass with
      | microtask =>
          refine h.set hop rfl (by simp [setOp, queueLocally, Operation.unfinished, hphase])
            (by simp) rfl (onTheWay_subset (List.Subset.refl _) rfl ?_) ?_
          · exact List.subset_append_left _ _
          · simp [onTheWay, setOp, queueLocally]
      | macrotask =>
          refine h.set hop rfl (by simp [setOp, queueLocally, Operation.unfinished, hphase])
            (by simp) rfl (onTheWay_subset (List.Subset.refl _) rfl ?_) ?_
          · exact List.subset_append_left _ _
          · simp [onTheWay, setOp, queueLocally]
  | @queues notifier spawns phase hphase hlock hnext =>
      have hpending : (s.shared.enqueueInternalWake (.wake i) notifier spawns).1.pendingOps =
          s.shared.pendingOps := ThreadShared.enqueue_pendingOps _ _ _ notifier spawns
      refine h.set hop rfl ?_ ?_ (ThreadShared.enqueue_closed _ _ _ notifier spawns)
        (onTheWay_subset (ThreadShared.subset_enqueue _ _ _ notifier spawns) rfl
          (List.Subset.refl _)) ?_
      · rcases hnext with rfl | rfl <;> simp [setOp, Operation.unfinished, hphase, hpending]
      · rcases hnext with rfl | rfl <;> simp
      · intro hopen _ _
        exact mem_onTheWay.mpr
          (.inl (ThreadShared.mem_enqueueInternalWake (.wake i) notifier spawns hopen))
  | finishes hphase =>
      have hpos : 0 < s.shared.pendingOps := by
        rw [h.count]
        exact List.countP_pos_iff.mpr
          ⟨op, List.mem_of_getElem? hop, by simp [Operation.unfinished, hphase]⟩
      refine h.set hop rfl ?_ (by simp) rfl (List.Subset.refl _) ?_
      · simp only [setOp, Operation.unfinished, hphase]
        simp
        omega
      · intro hopen hstored _
        exact h.wake hopen i op hop hstored (by simp [hphase])

/-- The owner takes what is in the queue and puts it into its own. -/
theorem Delivered.turn (h : s.Delivered) (hturn : s.turn = some s') : s'.Delivered := by
  unfold RunLoop.turn at hturn
  cases hphase : s.phase with
  | outside => simp [hphase] at hturn
  | tornDown => simp [hphase] at hturn
  | takeRemote round =>
      simp only [hphase] at hturn
      cases hturn
      refine h.frame rfl rfl id fun _ => ?_
      intro w hw
      simpa [onTheWay, inHand, hphase, ThreadShared.takeRemote] using hw
  | adopt round drained =>
      simp only [hphase] at hturn
      cases hturn
      refine h.frame rfl rfl id fun _ => ?_
      intro w hw
      have hw : w ∈ s.shared.remoteMacrotasks ∨ w ∈ drained ∨ w ∈ s.delivered := by
        simpa [onTheWay, inHand, hphase] using hw
      simp only [onTheWay, inHand, List.mem_append, List.not_mem_nil]
      tauto
  | commitTasks =>
      simp only [hphase] at hturn
      cases hturn
      unfold report
      rcases s.shared.commit_cases s.worker s.tasks with heq | heq | heq <;> rw [heq]
      · exact h.same rfl rfl (by simp [inHand, hphase]) rfl
      · exact h.frame rfl rfl (by simp) (by simp)
      · exact h.same rfl rfl (by simp [inHand, hphase]) rfl
  | drainWorkers round =>
      simp only [hphase] at hturn
      cases hturn
      cases round <;> exact h.same rfl rfl (by simp [inHand, hphase]) rfl
  | readyRemote round =>
      simp only [hphase] at hturn
      split at hturn <;> cases hturn <;> cases round <;>
        exact h.same rfl rfl (by simp [inHand, nextTurn, hphase]) rfl
  | drainMicrotasks =>
      simp only [hphase] at hturn
      split at hturn <;> cases hturn <;> exact h.same rfl rfl (by simp [inHand, hphase]) rfl
  | popMacrotask =>
      simp only [hphase] at hturn
      split at hturn <;> cases hturn <;> exact h.same rfl rfl (by simp [inHand, hphase]) rfl
  | readyLocal round =>
      simp only [hphase] at hturn
      split at hturn <;> cases hturn <;>
        exact h.same rfl rfl (by simp [inHand, nextTurn, hphase]) rfl
  | busy =>
      simp only [hphase] at hturn
      split at hturn <;> cases hturn <;> exact h.same rfl rfl (by simp [inHand, hphase]) rfl
  | busyOps =>
      simp only [hphase] at hturn
      split at hturn <;> cases hturn <;> exact h.same rfl rfl (by simp [inHand, hphase]) rfl
  | commitQueue =>
      simp only [hphase] at hturn
      split at hturn <;> cases hturn <;>
        exact h.same rfl rfl (by simp [inHand, nextTurn, hphase]) rfl
  | commitOps =>
      simp only [hphase] at hturn
      split at hturn <;> cases hturn <;>
        exact h.same rfl rfl (by simp [inHand, nextTurn, hphase]) rfl
  | _ =>
      simp only [hphase] at hturn
      cases hturn
      exact h.same rfl rfl (by simp [inHand, nextTurn, hphase]) rfl

theorem getElem?_begin {ops : List Operation} {i : Nat} {op new : Operation}
    (hop : (ops ++ [new])[i]? = some op) : ops[i]? = some op ∨ op = new := by
  rw [List.getElem?_append] at hop
  split at hop
  · exact .inl hop
  · rw [List.getElem?_singleton] at hop
    obtain ⟨-, heq⟩ := Option.ite_none_right_eq_some.mp hop
    exact .inr (Option.some.inj heq).symm

theorem Delivered.effect (h : s.Delivered) (effect : Effect) : (s.effect effect).Delivered := by
  cases effect with
  | beginAsyncOperation wakeClass =>
      refine ⟨?_, ?_, ?_⟩
      · simp [RunLoop.effect, h.count, Operation.unfinished]
      · intro i op hop hphase
        rcases getElem?_begin hop with hold | rfl
        · exact h.unstored i op hold hphase
        · rfl
      · intro hopen i op hop hstored hphase
        rcases getElem?_begin hop with hold | rfl
        · exact h.wake hopen i op hold hstored hphase
        · cases hstored
  | _ => exact h.same rfl rfl rfl rfl

theorem Delivered.stepped (h : s.Delivered) (hstep : Stepped s s') : s'.Delivered := by
  cases hstep with
  | enter hphase hopen => exact h.same rfl rfl (by simp [inHand, nextTurn, hphase]) rfl
  | pump pump hphase =>
      cases pump with
      | drainRemote =>
          refine h.frame rfl rfl id fun _ => ?_
          intro w hw
          rw [mem_onTheWay] at hw ⊢
          simp only [RunLoop.pump, ThreadShared.takeRemote, inHand, hphase, List.mem_append] at hw ⊢
          tauto
      | popMicrotask => exact h.same rfl rfl rfl rfl
      | popMacrotask => exact h.same rfl rfl rfl rfl
  | turn hturn => exact h.turn hturn
  | effect effect => exact h.effect effect
  | @finish i op onOwner phase hop hpending hnext =>
      have hstored := h.unstored i op hop (.inl hpending)
      refine h.set hop rfl ?_ (fun _ => hstored) rfl (List.Subset.refl _) ?_
      · rcases hnext with rfl | rfl <;> simp [setOp, Operation.unfinished, hpending]
      · simp [hstored]
  | proceed hop _ hproceed => exact h.proceeded hop hproceed
  | @drop i op hop =>
      refine h.set hop rfl ?_ (h.unstored i op hop) rfl (List.Subset.refl _) ?_
      · simp [setOp, Operation.unfinished]
      · intro hopen
        exact h.wake hopen i op hop
  | remoteWake notifier spawns =>
      refine h.frame rfl (ThreadShared.enqueue_pendingOps _ _ _ notifier spawns) ?_ fun _ =>
        onTheWay_subset (ThreadShared.subset_enqueue _ _ _ notifier spawns) rfl
          (List.Subset.refl _)
      intro hopen
      rwa [← ThreadShared.enqueue_closed]
  | remoteTask notifier =>
      refine h.frame rfl (ThreadShared.enqueue_pendingOps _ _ _ notifier _) ?_ fun _ =>
        onTheWay_subset (ThreadShared.subset_enqueue _ _ _ notifier _) rfl (List.Subset.refl _)
      intro hopen
      rwa [← ThreadShared.enqueue_closed]
  | childFinishes child => exact h.same rfl rfl rfl rfl
  | tearDown hphase =>
      refine h.frame rfl rfl ?_ ?_ <;>
        intro hopen <;> cases hopen

/-! ## The commit -/

theorem reports_of_turn (hturn : s.turn = some s') :
    s.phase = .commitTasks ∧ s' = s.report ∨ s'.reports = s.reports := by
  unfold RunLoop.turn at hturn
  cases hphase : s.phase with
  | commitTasks =>
      simp only [hphase] at hturn
      cases hturn
      exact .inl ⟨rfl, rfl⟩
  | outside => simp [hphase] at hturn
  | tornDown => simp [hphase] at hturn
  | _ =>
      right
      simp only [hphase] at hturn
      first
        | (cases hturn; rfl)
        | (split at hturn <;> cases hturn <;> rfl)

theorem Stepped.reports (hstep : Stepped s s') :
    s.phase = .commitTasks ∧ s' = s.report ∨ s'.reports = s.reports := by
  cases hstep with
  | pump pump => cases pump <;> exact .inr rfl
  | turn hturn => exact reports_of_turn hturn
  | effect effect => cases effect <;> exact .inr rfl
  | @proceed i op _ _ _ hproceed =>
      right
      cases hproceed with
      | queuesLocally => cases hclass : op.wakeClass <;> rfl
      | _ => rfl
  | _ => exact .inr rfl

/-- In every interleaving of the event loop with threads that complete operations,
wake tasks and queue macrotasks: when `commit_idle` reports an outcome other than
`Retry`, every operation is finished, no microtask or macrotask is ready, and the
wake of every operation whose result was stored has come to the owner's own
queues. -/
theorem idle_commit_of_reachable {capacity : Nat} {worker : Bool}
    (hreach : s.Reachable capacity worker) {action : Action}
    (hstep : s.step action = some s') (hreport : s'.reports ≠ s.reports) :
    (∃ outcome, s'.reports = s.reports ++ [outcome] ∧ outcome ≠ .retry) ∧
    s'.shared.pendingOps = 0 ∧ (∀ op ∈ s'.ops, op.phase = .finished) ∧
    s'.localMicrotasks = [] ∧ s'.localMacrotasks = [] ∧ s'.shared.remoteMacrotasks = [] ∧
    (∀ (i : Nat) (op : Operation), s'.ops[i]? = some op → op.stored = true →
      .wake i ∈ s'.delivered) := by
  have hinv : s.Probed ∧ s.Delivered := by
    refine Transition.Reachable.invariant (fun s => s.Probed ∧ s.Delivered)
      ⟨.init capacity worker, .init capacity worker⟩ ?_ hreach
    intro s action s' ⟨hprobed, hdelivered⟩ _ hstep
    exact ⟨hprobed.stepped (stepped_of_step hstep), hdelivered.stepped (stepped_of_step hstep)⟩
  obtain ⟨hprobed, hdelivered⟩ := hinv
  rcases (stepped_of_step hstep).reports with ⟨hphase, rfl⟩ | hsame
  · obtain ⟨hmicro, hmacrotasks⟩ := hprobed.quiet (by simp [hphase, OwnerPhase.quiet])
    have hqueue := hprobed.queue (by simp [hphase, OwnerPhase.holdsLock])
    have hzero := hprobed.ops hphase
    have hopen := hprobed.closed (by simp [hphase, OwnerPhase.inLoop])
    have hfinished : ∀ op ∈ s.ops, op.phase = .finished := by
      have hcount := hdelivered.count
      rw [hzero, eq_comm, List.countP_eq_zero] at hcount
      intro op hmem
      simpa [Operation.unfinished] using hcount op hmem
    have hwakes : ∀ (i : Nat) (op : Operation), s.ops[i]? = some op → op.stored = true →
        .wake i ∈ s.delivered := by
      intro i op hop hstored
      have hmem := hfinished op (List.mem_of_getElem? hop)
      have hway := hdelivered.wake hopen i op hop hstored (by simp [hmem])
      simpa [onTheWay, inHand, hphase, hqueue] using hway
    unfold report
    rcases s.shared.commit_cases s.worker s.tasks with heq | heq | heq <;> rw [heq]
    · exact ⟨⟨_, rfl, by simp⟩, hzero, hfinished, hmicro, hmacrotasks, hqueue, hwakes⟩
    · exact ⟨⟨_, rfl, by simp⟩, hzero, hfinished, hmicro, hmacrotasks, hqueue, hwakes⟩
    · exact ⟨⟨_, rfl, by simp⟩, hzero, hfinished, hmicro, hmacrotasks, hqueue, hwakes⟩
  · exact absurd hsame hreport

/-- Another thread completes an operation after the owner found its queues empty;
the owner retries, runs the wake, and is about to commit. -/
def completedWhileCommitting : List Action :=
  [.enter, .effect (.beginAsyncOperation .macrotask)] ++ List.replicate 18 .turn ++
    [.finish 0 false, .proceed 0 [] true, .proceed 0 [true] true, .proceed 0 [] true] ++
    List.replicate 32 .turn

theorem idle_commit_completedWhileCommitting :
    ∃ s s' : RunLoop, s.Reachable 1 true ∧ s.step .turn = some s' ∧
      s'.reports = s.reports ++ [.workerClosed] ∧ s'.shared.pendingOps = 0 ∧
      .wake 0 ∈ s'.delivered := by
  obtain ⟨s, hreach, hs⟩ := Transition.Reachable.exists_of_run step (fun _ _ => True)
    (init 1 true) completedWhileCommitting
    (fun s => s.phase = .commitTasks ∧ s.worker ∧ s.tasks = [] ∧
      s.ops = [{ wakeClass := .macrotask, phase := .finished, stored := true }])
    (by simp) (by decide +kernel)
  obtain ⟨hphase, hworker, htasks, hops⟩ := of_decide_eq_true hs
  have hcommit : s.shared.commit s.worker s.tasks =
      ({ s.shared with closed := true }, [], .workerClosed) := by
    simp [ThreadShared.commit, hworker, htasks]
  have hstep : s.step .turn = some s.report := by simp [step, turn, hphase]
  have hreports : s.report.reports = s.reports ++ [.workerClosed] := by
    simp [report, hcommit]
  obtain ⟨-, hzero, -, -, -, -, hwakes⟩ :=
    idle_commit_of_reachable hreach hstep (by simp [hreports])
  have hop : s.report.ops[0]? =
      some { wakeClass := .macrotask, phase := .finished, stored := true } := by
    simp [report, hops]
  exact ⟨s, s.report, hreach, hstep, hreports, hzero, hwakes 0 _ hop rfl⟩

end RunLoop

end Runite.Runtime
