import Mathlib.Data.List.TakeWhile
import Runite.Sync.RwLockProgress
import Runite.Lib.WaitQueue

/-!
# Accounting and order of the reader-writer lock

The slots of the lock are exactly owned, as long as no future is polled after
it returned its guard: `Accounted` and `Owned` bound them from both sides.

For the order of admission a run is audited.  Waiters are numbered in the order
in which they enter the queue; a step notes the waiters it admitted, in the
order of the queue, and those it took out of the queue without admitting them.
Every call has one of four effects on the queue, from which the order and the
batch of admitted waiters follow: the call that gives back the last slot admits
whoever the order of the queue lets run, and no other call admits anybody.
-/

namespace Runite.Sync.RwLock

open Function

/-! ## Exact accounts -/

/-- The selected futures of a kind that have not returned their guard. -/
def World.selectedFutures (w : World) (kind : WaiterKind) : Nat :=
  w.futures.countP fun f => decide (f.kind = kind) && f.isSelected w.lock && !f.acquired

section Balanced

variable {w : World} {kind : WaiterKind}

/-- An owed future is a selected one that was not acquired. -/
theorem Balanced.owners_eq (h : Balanced w) (kind : WaiterKind) :
    w.owners kind = w.guards kind + w.selectedFutures kind := by
  rw [World.owners, World.selectedFutures]
  congr 1
  apply List.countP_congr
  intro f hf
  have hdel : f.cell.any w.lock.cells = true → f.delivered = f.acquired := by
    intro hcell
    cases hacq : f.acquired with
    | false =>
        cases hd : f.delivered with
        | false => rfl
        | true => simp [h.accounted.linked.delivered f hf hd] at hacq
    | true =>
        cases hc : f.cell with
        | none => simp [hc] at hcell
        | some c => exact (h.owned.settled f hf hacq c hc).2
  rw [isSelected_eq, Future.owed]
  cases hcell : f.cell.any w.lock.cells with
  | false => simp
  | true => rw [hdel hcell]

/-- The slots that are out are those of the guards and of the selected futures. -/
theorem Balanced.slots_eq (h : Balanced w) (kind : WaiterKind) :
    w.lock.slots kind = w.guards kind + w.selectedFutures kind := by
  rw [← h.owners_eq]
  exact Nat.le_antisymm (h.owned.backed kind) (h.accounted.covered kind)

end Balanced

/-! ## Whom a release admits -/

/-- The waiters that a free lock admits: the writer at the front of the queue,
or all the readers there. -/
def front : List Waiter → List Waiter
  | [] => []
  | q :: rest =>
      match q.kind with
      | .write => [q]
      | .read => (q :: rest).takeWhile (·.kind = .read)

def Lock.isFree (l : Lock) : Bool := !l.writer && l.readers == 0

/-- The kind of the slot that a call gives back. -/
def World.gives (w : World) : Op → Option WaiterKind
  | .dropReadGuard => some .read
  | .dropWriteGuard => some .write
  | .dropFuture f => if f.isSelected w.lock && !f.acquired then some f.kind else none
  | _ => none

/-- The live guards and the selected futures that have not returned theirs. -/
def World.holders (w : World) : Nat :=
  w.readGuards + w.selectedFutures .read + (w.writeGuards + w.selectedFutures .write)

/-- The waiters that a call has to admit: the one that gives back the last slot
those at the front of the queue, any other call nobody. -/
def World.admits (w : World) (op : Op) : List Waiter :=
  if (w.gives op).isSome && w.holders == 1 then front w.lock.waiters else []

theorem admits_of_gives {w : World} {op : Op} {kind : WaiterKind} (h : w.gives op = some kind) :
    w.admits op = if w.holders == 1 then front w.lock.waiters else [] := by
  rw [World.admits, h, Option.isSome_some, Bool.true_and]

theorem admits_eq_nil {w : World} {op : Op} (h : w.gives op = none) : w.admits op = [] := by
  rw [World.admits, h, Option.isSome_none, Bool.false_and, if_neg Bool.false_ne_true]

/-! ## What a call does to the queue -/

/-- `l'` is `l` after a batch of front waiters was admitted and woken: nobody, a
writer, or all readers at the front. -/
structure Lock.Admission (l l' : Lock) (batch : List Waiter) : Prop where
  waiters : l.waiters = batch ++ l'.waiters
  cells : ∀ c, l'.cells c = (l.cells c || decide (c ∈ batch.map Waiter.selected))
  nextWaiterId : l'.nextWaiterId = l.nextWaiterId
  woken : l'.woken = l.woken ++ batch.map Waiter.waker
  shape : batch = [] ∨ (∃ q, batch = [q] ∧ q.kind = .write) ∨
    (∀ q ∈ batch, q.kind = .read) ∧ ∀ q rest, l'.waiters = q :: rest → q.kind = .write

/-- What identifies a queue entry; its waker does not. -/
def Waiter.key (q : Waiter) : Nat × WaiterKind × CellId := (q.id, q.kind, q.selected)

/-- The effects a call can have on the queue, with the batch it admits. -/
inductive Lock.Effect (l l' : Lock) : List Waiter → Prop
  | same (hkeys : l'.waiters.map Waiter.key = l.waiters.map Waiter.key)
      (hcells : l'.cells = l.cells) (hnext : l'.nextWaiterId = l.nextWaiterId)
      (hwoken : l'.woken = l.woken) : Effect l l' []
  | entered (q : Waiter) (hid : q.id = l.nextWaiterId) (hwaiters : l'.waiters = l.waiters ++ [q])
      (hcells : ∀ p ∈ l.waiters, l'.cells p.selected = l.cells p.selected)
      (hfresh : l'.cells q.selected = false) (hnext : l'.nextWaiterId = l.nextWaiterId + 1)
      (hwoken : l'.woken = l.woken) : Effect l l' []
  | cancelled (q : Waiter) (hq : q ∈ l.waiters)
      (hwaiters : l'.waiters = l.waiters.eraseP (·.id = q.id))
      (hcells : l'.cells = l.cells) (hnext : l'.nextWaiterId = l.nextWaiterId)
      (hwoken : l'.woken = l.woken) : Effect l l' []
  | admitted (batch : List Waiter) (h : l.Admission l' batch) : Effect l l' batch

section Effect

variable {l : Lock} {w : World} {kind : WaiterKind}

theorem Lock.Admission.refl (l : Lock) : l.Admission l [] where
  waiters := rfl
  cells := by simp
  nextWaiterId := rfl
  woken := by simp
  shape := .inl rfl

@[simp] theorem select_nextWaiterId (l : Lock) (q : Waiter) (rest : List Waiter) :
    (l.select q rest).nextWaiterId = l.nextWaiterId := by
  simp [Lock.select]

@[simp] theorem acquire_woken (l : Lock) (kind : WaiterKind) :
    (l.acquire kind).woken = l.woken := by cases kind <;> rfl

theorem select_woken (l : Lock) (q : Waiter) (rest : List Waiter) :
    (l.select q rest).woken = l.woken ++ [q.waker] := by
  simp [Lock.select]

theorem select_cells (l : Lock) (q : Waiter) (rest : List Waiter) (c : CellId) :
    (l.select q rest).cells c = (l.cells c || decide (c = q.selected)) := by
  by_cases hc : c = q.selected
  · simp [Lock.select, hc]
  · simp [Lock.select, hc]

/-- The loop over the front readers admits and wakes exactly those. -/
theorem admitReaders_batch (waiters : List Waiter) (l : Lock) (hw : l.waiters = waiters) :
    waiters = waiters.takeWhile (·.kind = .read) ++ (admitReaders waiters l).waiters ∧
      (∀ c, (admitReaders waiters l).cells c = (l.cells c ||
        decide (c ∈ (waiters.takeWhile (·.kind = .read)).map Waiter.selected))) ∧
      (admitReaders waiters l).nextWaiterId = l.nextWaiterId ∧
      (admitReaders waiters l).woken =
        l.woken ++ (waiters.takeWhile (·.kind = .read)).map Waiter.waker := by
  induction waiters generalizing l with
  | nil => simp [admitReaders, hw]
  | cons q rest ih =>
      cases hkind : q.kind with
      | write => simp [admitReaders_write hkind, hkind, hw]
      | read =>
          rw [admitReaders_read hkind, List.takeWhile_cons_of_pos (by simpa using hkind)]
          obtain ⟨hwaiters, hcells, hnext, hwoken⟩ := ih (l.select q rest) rfl
          refine ⟨?_, fun c => ?_, ?_, ?_⟩
          · rw [List.cons_append, ← hwaiters]
          · rw [hcells, select_cells, Bool.or_assoc]
            simp
          · rw [hnext, select_nextWaiterId]
          · rw [hwoken, select_woken, List.map_cons, List.append_assoc, List.singleton_append]

theorem Lock.Admission.of_isFree (hfree : l.isFree = true) :
    l.Admission l.releaseToNextWaiters (front l.waiters) := by
  obtain ⟨hwriter, hreaders⟩ : l.writer = false ∧ l.readers = 0 := by
    simpa [Lock.isFree] using hfree
  rw [Lock.releaseToNextWaiters, if_neg (by simp [hwriter, hreaders])]
  split
  next hnil =>
    rw [hnil]
    exact .refl l
  next q rest hwaiters =>
    cases hkind : q.kind with
    | write =>
        rw [hwaiters, front, hkind]
        exact ⟨hwaiters, fun c => by rw [select_cells]; simp, select_nextWaiterId l q rest,
          select_woken l q rest, .inr (.inl ⟨q, rfl, hkind⟩)⟩
    | read =>
        obtain ⟨hbatch, hcells, hnext, hwoken⟩ := admitReaders_batch l.waiters l rfl
        obtain ⟨-, -, -, hfront⟩ := admitReaders_spec l.waiters l rfl
        have heq : front l.waiters = l.waiters.takeWhile (·.kind = .read) := by
          rw [hwaiters, front, hkind]
        rw [heq]
        exact ⟨hbatch, hcells, hnext, hwoken, .inr (.inr
          ⟨fun p hp => by simpa using List.mem_takeWhile_imp hp, hfront⟩)⟩

theorem releaseToNextWaiters_of_not_isFree (hheld : l.isFree = false) :
    l.releaseToNextWaiters = l := by
  rw [Lock.releaseToNextWaiters, if_pos]
  cases hwriter : l.writer with
  | true => rfl
  | false => simpa [Lock.isFree, hwriter, Nat.pos_iff_ne_zero] using hheld

theorem Lock.Effect.release (l : Lock) (kind : WaiterKind) :
    l.Effect (l.release kind)
      (if (l.giveBack kind).isFree then front l.waiters else []) := by
  have hwaiters : (l.giveBack kind).waiters = l.waiters := by cases kind <;> rfl
  have hadm : (l.giveBack kind).Admission (l.release kind)
      (if (l.giveBack kind).isFree then front l.waiters else []) := by
    rw [release_eq]
    cases hfree : (l.giveBack kind).isFree with
    | true => simpa [hwaiters] using Lock.Admission.of_isFree hfree
    | false => simpa [releaseToNextWaiters_of_not_isFree hfree] using Lock.Admission.refl _
  refine .admitted _ ?_
  cases kind <;> exact ⟨hadm.waiters, hadm.cells, hadm.nextWaiterId, hadm.woken, hadm.shape⟩

theorem Lock.Effect.acquire (l : Lock) (kind : WaiterKind) : l.Effect (l.acquire kind) [] :=
  .same (by simp) (by simp) (by simp) (by simp)

theorem Lock.Effect.refl (l : Lock) : l.Effect l [] := .same rfl rfl rfl rfl

/-- Giving back a slot frees the lock when it was the only one out. -/
theorem Balanced.isFree_giveBack (h : Balanced w)
    (hpos : 0 < w.guards kind + w.selectedFutures kind) :
    (w.lock.giveBack kind).isFree = (w.holders == 1) := by
  have hread : w.lock.readers = w.readGuards + w.selectedFutures .read := h.slots_eq .read
  have hwrite : w.lock.writer.toNat = w.writeGuards + w.selectedFutures .write :=
    h.slots_eq .write
  rw [World.holders, ← hread, ← hwrite]
  cases kind with
  | write =>
      have hwriter : w.lock.writer = true := by
        cases hw : w.lock.writer with
        | true => rfl
        | false =>
            simp only [World.guards, ← hwrite, hw] at hpos
            exact absurd hpos (Nat.lt_irrefl 0)
      simp [Lock.giveBack, Lock.isFree, hwriter, h.accounted.exclusive hwriter]
  | read =>
      have hreaders : 0 < w.lock.readers := hread ▸ hpos
      have hwriter : w.lock.writer = false := by
        cases hw : w.lock.writer with
        | false => rfl
        | true => exact absurd (h.accounted.exclusive hw) (Nat.ne_of_gt hreaders)
      rw [Lock.isFree, Lock.giveBack, hwriter, Bool.eq_iff_iff]
      simp only [usizePred, Nat.ne_of_gt hreaders, if_false, Bool.not_false, Bool.true_and,
        beq_iff_eq, Bool.toNat_false]
      omega

theorem Balanced.effect_release (h : Balanced w)
    (hpos : 0 < w.guards kind + w.selectedFutures kind) :
    w.lock.Effect (w.lock.release kind)
      (if w.holders == 1 then front w.lock.waiters else []) :=
  h.isFree_giveBack hpos ▸ .release w.lock kind

theorem selectedFutures_pos {f : Future} (hf : f ∈ w.futures)
    (hsel : f.isSelected w.lock = true) (hacq : f.acquired = false) :
    0 < w.selectedFutures f.kind :=
  List.countP_pos_iff.mpr ⟨f, hf, by simp [hsel, hacq]⟩

/-- Every call has one of the effects, and admits the waiters it has to. -/
theorem step_effect {w' : World} {op : Op} (h : Balanced w) (hstep : step w op = some w') :
    w.lock.Effect w'.lock (w.admits op) := by
  have htry : ∀ kind, w.lock.Effect (w.tryAcquire kind).lock [] := by
    intro kind
    rw [World.tryAcquire]
    split
    · simpa using Lock.Effect.acquire w.lock kind
    · exact .refl _
  have hguard : ∀ kind, 0 < w.guards kind → w.lock.Effect (w.dropGuard kind).lock
      (if w.holders == 1 then front w.lock.waiters else []) := by
    intro kind hpos
    simpa [World.dropGuard] using h.effect_release (Nat.add_pos_left hpos _)
  cases op with
  | tryRead => exact Option.some.inj hstep ▸ htry .read
  | tryWrite => exact Option.some.inj hstep ▸ htry .write
  | read => exact Option.some.inj hstep ▸ .refl _
  | write => exact Option.some.inj hstep ▸ .refl _
  | poll f waker =>
      rw [admits_eq_nil rfl]
      obtain ⟨hf, hw'⟩ := Option.ite_none_right_eq_some.mp hstep
      obtain rfl := Option.some.inj hw'
      obtain ⟨-, heq⟩ | ⟨-, -, heq⟩ | ⟨-, -, heq⟩ | ⟨id, c, -, -, heq⟩ := w.poll_cases f waker
      · simpa [heq] using Lock.Effect.refl w.lock
      · simpa [heq] using Lock.Effect.acquire w.lock f.kind
      · rw [heq]
        refine .entered ⟨w.lock.nextWaiterId, f.kind, w.lock.nextCell, waker⟩ rfl rfl
          (fun q hq => ?_) (by simp [Lock.enqueue]) rfl rfl
        have hne := Nat.ne_of_lt (h.accounted.linked.queueBound q hq)
        simp [Lock.enqueue, hne]
      · rw [heq]
        exact .same (setWaker_map_selected id waker w.lock.waiters) rfl rfl rfl
  | dropFuture f =>
      obtain ⟨hf, hw'⟩ := Option.ite_none_right_eq_some.mp hstep
      obtain rfl := Option.some.inj hw'
      obtain ⟨hnone, heq⟩ | ⟨id, c, hw, hacq, heq⟩ | ⟨id, c, hw, hacq, hc, heq⟩ |
        ⟨id, c, hw, -, hc, heq⟩ := w.dropFuture_cases f
      · rw [heq, admits_eq_nil (by simp [World.gives, Future.isSelected, hnone])]
        exact .refl _
      · rw [heq, admits_eq_nil (by simp [World.gives, hacq])]
        exact .refl _
      · have hsel : f.isSelected w.lock = true := by simp [Future.isSelected, hw, hc]
        have hgives : w.gives (.dropFuture f) = some f.kind := by simp [World.gives, hsel, hacq]
        rw [heq, admits_of_gives hgives]
        exact h.effect_release (Nat.add_pos_right _ (selectedFutures_pos hf hsel hacq))
      · rw [heq, admits_eq_nil (by simp [World.gives, Future.isSelected, hw, hc])]
        by_cases hq : ∃ q ∈ w.lock.waiters, q.id = id
        · obtain ⟨q, hq, rfl⟩ := hq
          exact .cancelled q hq rfl rfl rfl rfl
        · have hgone : w.lock.waiters.eraseP (·.id = id) = w.lock.waiters :=
            List.eraseP_of_forall_not fun q hmem => by simpa using fun hid => hq ⟨q, hmem, hid⟩
          exact .same (by rw [Lock.removeWaiter, hgone]) rfl rfl rfl
  | dropReadGuard =>
      obtain ⟨hpos, hw'⟩ := Option.ite_none_right_eq_some.mp hstep
      rw [admits_of_gives rfl]
      exact Option.some.inj hw' ▸ hguard .read hpos
  | dropWriteGuard =>
      obtain ⟨hpos, hw'⟩ := Option.ite_none_right_eq_some.mp hstep
      rw [admits_of_gives rfl]
      exact Option.some.inj hw' ▸ hguard .write hpos

end Effect

/-! ## Audited runs -/

/-- The waiters that a call admitted, in the order of the queue. -/
def World.admittedBy (w w' : World) : List Waiter :=
  w.lock.waiters.filter fun q => w'.lock.cells q.selected

/-- The waiters that a call took out of the queue without admitting them. -/
def World.cancelledBy (w w' : World) : List Waiter :=
  w.lock.waiters.filter fun q => !w'.lock.cells q.selected && q.id ∉ w'.lock.waiters.map Waiter.id

/-- A program with the numbers of the waiters that were admitted and cancelled
so far, in that order. -/
structure Audit where
  world : World := {}
  admitted : List Nat := []
  cancelled : List Nat := []

/-- One call of a program, noting what it does to the queue. -/
def Audit.step (a : Audit) (op : Op) : Option Audit :=
  (RwLock.step a.world op).map fun w' =>
    { world := w'
      admitted := a.admitted ++ (a.world.admittedBy w').map Waiter.id
      cancelled := a.cancelled ++ (a.world.cancelledBy w').map Waiter.id }

section Batch

variable {w w' : World}

/-- Without a change to the cells of the queue nobody is admitted. -/
theorem admittedBy_eq_nil (w' : World) (h : Linked w.lock w.futures)
    (hcells : ∀ q ∈ w.lock.waiters, w'.lock.cells q.selected = w.lock.cells q.selected) :
    w.admittedBy w' = [] := by
  refine List.filter_eq_nil_iff.mpr fun q hq => ?_
  rw [hcells q hq, h.unselected q hq]
  simp

theorem cancelledBy_eq_nil
    (hids : ∀ q ∈ w.lock.waiters, w'.lock.cells q.selected = true ∨
      q.id ∈ w'.lock.waiters.map Waiter.id) : w.cancelledBy w' = [] := by
  refine List.filter_eq_nil_iff.mpr fun q hq => ?_
  rcases hids q hq with hcell | hid
  · simp [hcell]
  · simp [List.mem_map.mp hid]

/-- The waiters with a set cell are those of the batch. -/
theorem admittedBy_eq_batch {batch : List Waiter} (h : Linked w.lock w.futures)
    (hadm : w.lock.Admission w'.lock batch) : w.admittedBy w' = batch := by
  have hdistinct := h.distinct
  rw [hadm.waiters, List.map_append, List.nodup_append] at hdistinct
  have hunselected : ∀ q ∈ batch ++ w'.lock.waiters, w.lock.cells q.selected = false :=
    fun q hq => h.unselected q (hadm.waiters ▸ hq)
  rw [World.admittedBy, hadm.waiters, List.filter_append, List.filter_eq_self.mpr,
    List.filter_eq_nil_iff.mpr, List.append_nil]
  · intro q hq
    have hnot : q.selected ∉ batch.map Waiter.selected := fun hmem =>
      hdistinct.2.2 _ hmem _ (List.mem_map_of_mem hq) rfl
    rw [hadm.cells, hunselected q (List.mem_append_right _ hq)]
    simpa using hnot
  · intro q hq
    rw [hadm.cells]
    simp [List.mem_map_of_mem hq]

theorem ids_nodup (h : Balanced w) : (w.lock.waiters.map Waiter.id).Nodup := by
  have hmap : w.lock.waiters.map Waiter.id = w.lock.waiters.map Waiter.selected :=
    List.map_congr_left fun q hq => h.owned.id_eq hq
  exact hmap ▸ h.accounted.linked.distinct

/-- A waiter that was taken out alone is the cancelled one. -/
theorem cancelledBy_eq_singleton {q : Waiter} (h : Balanced w) (hq : q ∈ w.lock.waiters)
    (hids : w'.lock.waiters.map Waiter.id = (w.lock.waiters.map Waiter.id).erase q.id)
    (hcells : w'.lock.cells = w.lock.cells) : (w.cancelledBy w').map Waiter.id = [q.id] := by
  have hfilter : w.cancelledBy w' = w.lock.waiters.filter (·.id = q.id) := by
    refine List.filter_congr fun p hp => ?_
    have hid := List.mem_map_of_mem (f := Waiter.id) hp
    have hiff : p.id ∈ (w.lock.waiters.map Waiter.id).erase q.id ↔ p.id ≠ q.id := by
      rw [(ids_nodup h).mem_erase_iff, and_iff_left hid]
    rw [hids, hcells, h.accounted.linked.unselected p hp]
    simp only [hiff]
    simp
  have hmap : (w.lock.waiters.filter (·.id = q.id)).map Waiter.id =
      (w.lock.waiters.map Waiter.id).filter (· = q.id) := by
    rw [List.filter_map]
    rfl
  have hone := List.count_eq_one_of_mem (ids_nodup h) (List.mem_map_of_mem hq)
  rw [hfilter, hmap, List.filter_eq, hone, List.replicate_one]

end Batch

/-- The waiters that were admitted, followed by those still queued, are all
that ever queued, in the order in which they did, without the cancelled ones. -/
structure Audit.Fifo (a : Audit) : Prop where
  order : a.admitted ++ a.world.lock.waiters.map Waiter.id =
    (List.range a.world.lock.nextWaiterId).filter fun i => i ∉ a.cancelled
  bound : ∀ i ∈ a.cancelled, i < a.world.lock.nextWaiterId

theorem Audit.Fifo.step {a : Audit} {w' : World} {batch : List Waiter} (h : a.Fifo)
    (hbalanced : Balanced a.world) (heffect : a.world.lock.Effect w'.lock batch) :
    Audit.Fifo
      { world := w'
        admitted := a.admitted ++ (a.world.admittedBy w').map Waiter.id
        cancelled := a.cancelled ++ (a.world.cancelledBy w').map Waiter.id } := by
  have hlinked := hbalanced.accounted.linked
  cases heffect with
  | same hkeys hcells hnext hwoken =>
      have hids : w'.lock.waiters.map Waiter.id = a.world.lock.waiters.map Waiter.id := by
        have hmap := congrArg (List.map Prod.fst) hkeys
        rw [List.map_map, List.map_map] at hmap
        exact hmap
      have hadmitted := admittedBy_eq_nil w' hlinked (by simp [hcells])
      have hcancelled : a.world.cancelledBy w' = [] :=
        cancelledBy_eq_nil fun q hq => .inr (hids ▸ List.mem_map_of_mem hq)
      refine ⟨?_, ?_⟩
      · simpa only [hadmitted, hcancelled, List.map_nil, List.append_nil, hids, hnext] using h.order
      · simpa only [hcancelled, List.map_nil, List.append_nil, hnext] using h.bound
  | entered q hid hwaiters hcells hfresh hnext hwoken =>
      have hids : w'.lock.waiters.map Waiter.id =
          a.world.lock.waiters.map Waiter.id ++ [a.world.lock.nextWaiterId] := by
        rw [hwaiters, List.map_append, List.map_singleton, hid]
      have hadmitted := admittedBy_eq_nil w' hlinked hcells
      have hcancelled : a.world.cancelledBy w' = [] :=
        cancelledBy_eq_nil fun p hp =>
          .inr (hids ▸ List.mem_append_left _ (List.mem_map_of_mem hp))
      refine ⟨?_, ?_⟩
      · simp only [hadmitted, hcancelled, List.map_nil, List.append_nil, hids, hnext]
        exact WaitQueue.order_enter h.order h.bound
      · simp only [hcancelled, List.map_nil, List.append_nil, hnext]
        exact fun i hi => Nat.lt_succ_of_lt (h.bound i hi)
  | cancelled q hq hwaiters hcells hnext hwoken =>
      have hids : w'.lock.waiters.map Waiter.id =
          (a.world.lock.waiters.map Waiter.id).erase q.id := by
        rw [hwaiters, Counting.map_eraseP_key]
      have hid : q.id ∈ a.world.lock.waiters.map Waiter.id := List.mem_map_of_mem hq
      have hadmitted := admittedBy_eq_nil w' hlinked (by simp [hcells])
      have hcancelled := cancelledBy_eq_singleton hbalanced hq hids hcells
      refine ⟨?_, ?_⟩
      · simp only [hadmitted, hcancelled, List.map_nil, List.append_nil, hids, hnext]
        exact WaitQueue.order_leave h.order hid
      · simp only [hcancelled, hnext]
        intro i hi
        rcases List.mem_append.mp hi with hi | hi
        · exact h.bound i hi
        · have hmem := List.mem_append_right a.admitted hid
          rw [h.order, List.mem_filter, List.mem_range] at hmem
          exact List.mem_singleton.mp hi ▸ hmem.1
  | admitted _ hadm =>
      have hadmitted := admittedBy_eq_batch hlinked hadm
      have hcancelled : a.world.cancelledBy w' = [] := by
        refine cancelledBy_eq_nil fun q hq => ?_
        rw [hadm.waiters] at hq
        rcases List.mem_append.mp hq with hq | hq
        · rw [hadm.cells]
          simp [List.mem_map_of_mem hq]
        · exact .inr (List.mem_map_of_mem hq)
      refine ⟨?_, ?_⟩
      · have horder := h.order
        rw [hadm.waiters, List.map_append, ← List.append_assoc] at horder
        simpa only [hadmitted, hcancelled, List.map_nil, List.append_nil, hadm.nextWaiterId]
          using horder
      · simpa only [hcancelled, List.map_nil, List.append_nil, hadm.nextWaiterId] using h.bound

theorem waiters_eq_nil_of_available {l : Lock} {kind : WaiterKind}
    (hav : l.available kind = true) : l.waiters = [] := by
  cases kind <;> simp_all [Lock.available]

open Transition

/-- What the calls of a program admit in one step: nobody, a writer from the
front of the queue, or all readers at the front. -/
def World.Batch (w w' : World) : Prop :=
  w.admittedBy w' = [] ∨
  (∃ q, w.admittedBy w' = [q] ∧ q.kind = .write ∧ w.lock.waiters = q :: w'.lock.waiters) ∨
  ((∀ q ∈ w.admittedBy w', q.kind = .read) ∧
    w.lock.waiters = w.admittedBy w' ++ w'.lock.waiters ∧
    ∀ q rest, w'.lock.waiters = q :: rest → q.kind = .write)

/-- The waiters whose cell a call set are those of its batch. -/
theorem admittedBy_eq_of_effect {w w' : World} {batch : List Waiter} (h : Linked w.lock w.futures)
    (heffect : w.lock.Effect w'.lock batch) : w.admittedBy w' = batch := by
  cases heffect with
  | same hkeys hcells hnext hwoken => exact admittedBy_eq_nil _ h (by simp [hcells])
  | entered q hid hwaiters hcells hfresh hnext hwoken => exact admittedBy_eq_nil _ h hcells
  | cancelled q hq hwaiters hcells hnext hwoken => exact admittedBy_eq_nil _ h (by simp [hcells])
  | admitted _ hadm => exact admittedBy_eq_batch h hadm

theorem woken_of_effect {l l' : Lock} {batch : List Waiter} (heffect : l.Effect l' batch) :
    l'.woken = l.woken ++ batch.map Waiter.waker := by
  cases heffect with
  | same hkeys hcells hnext hwoken => simpa using hwoken
  | entered q hid hwaiters hcells hfresh hnext hwoken => simpa using hwoken
  | cancelled q hq hwaiters hcells hnext hwoken => simpa using hwoken
  | admitted _ hadm => exact hadm.woken

theorem batch_of_effect {w w' : World} {batch : List Waiter} (h : Linked w.lock w.futures)
    (heffect : w.lock.Effect w'.lock batch) : w.Batch w' := by
  rw [World.Batch, admittedBy_eq_of_effect h heffect]
  cases heffect with
  | same hkeys hcells hnext hwoken => exact .inl rfl
  | entered q hid hwaiters hcells hfresh hnext hwoken => exact .inl rfl
  | cancelled q hq hwaiters hcells hnext hwoken => exact .inl rfl
  | admitted _ hadm =>
      rcases hadm.shape with hnil | ⟨q, rfl, hkind⟩ | ⟨hread, hfront⟩
      · exact .inl hnil
      · exact .inr (.inl ⟨q, rfl, hkind, hadm.waiters⟩)
      · exact .inr (.inr ⟨hread, hadm.waiters, hfront⟩)

/-! ## A free lock has no queue -/

def Lock.Held (l : Lock) : Prop := l.waiters ≠ [] → l.writer = true ∨ 0 < l.readers

theorem Lock.Held.acquire {l : Lock} {kind : WaiterKind} (hav : l.available kind = true) :
    (l.acquire kind).Held := fun hne =>
  absurd (by simpa using waiters_eq_nil_of_available hav) hne

theorem Lock.Held.release (l : Lock) (kind : WaiterKind) : (l.release kind).Held := by
  rw [release_eq]
  exact held_releaseToNextWaiters _

theorem Lock.Held.enqueue {l : Lock} {kind : WaiterKind} (h : l.Held)
    (hav : l.available kind = false) (waker : Waker) : (l.enqueue kind waker).Held := by
  intro _
  change l.writer = true ∨ 0 < l.readers
  cases hw : l.waiters with
  | nil =>
      cases hwriter : l.writer with
      | true => exact .inl rfl
      | false => cases kind <;> simp_all [Lock.available, Nat.pos_iff_ne_zero]
  | cons q rest => exact h (by simp [hw])

theorem Lock.Held.step {w w' : World} {op : Op} (h : w.lock.Held)
    (hstep : RwLock.step w op = some w') : w'.lock.Held := by
  have htry : ∀ kind, (w.tryAcquire kind).lock.Held := by
    intro kind
    rw [World.tryAcquire]
    split_ifs with hav
    · simpa using Lock.Held.acquire hav
    · exact h
  have hguard : ∀ kind, (w.dropGuard kind).lock.Held := by
    intro kind
    simpa [World.dropGuard] using Lock.Held.release w.lock kind
  cases op with
  | tryRead => exact Option.some.inj hstep ▸ htry .read
  | tryWrite => exact Option.some.inj hstep ▸ htry .write
  | read => exact Option.some.inj hstep ▸ h
  | write => exact Option.some.inj hstep ▸ h
  | poll f waker =>
      obtain ⟨hf, hw'⟩ := Option.ite_none_right_eq_some.mp hstep
      obtain rfl := Option.some.inj hw'
      obtain ⟨-, heq⟩ | ⟨-, hav, heq⟩ | ⟨-, hav, heq⟩ | ⟨id, c, -, -, heq⟩ := w.poll_cases f waker
      · simpa [heq] using h
      · simpa [heq] using Lock.Held.acquire hav
      · exact heq ▸ h.enqueue hav waker
      · rw [heq]
        exact fun hne => h fun hnil => hne (by simp [hnil, setWaker])
  | dropFuture f =>
      obtain ⟨hf, hw'⟩ := Option.ite_none_right_eq_some.mp hstep
      obtain rfl := Option.some.inj hw'
      obtain ⟨-, heq⟩ | ⟨id, c, -, -, heq⟩ | ⟨id, c, -, -, -, heq⟩ | ⟨id, c, -, -, -, heq⟩ :=
        w.dropFuture_cases f
      · exact heq ▸ h
      · exact heq ▸ h
      · exact heq ▸ .release w.lock f.kind
      · rw [heq]
        exact fun hne => h fun hnil => hne (by simp [Lock.removeWaiter, hnil])
  | dropReadGuard =>
      obtain ⟨-, hw'⟩ := Option.ite_none_right_eq_some.mp hstep
      exact Option.some.inj hw' ▸ hguard .read
  | dropWriteGuard =>
      obtain ⟨-, hw'⟩ := Option.ite_none_right_eq_some.mp hstep
      exact Option.some.inj hw' ▸ hguard .write

/-- Every program using a lock that polls no future after it returned a guard:
the reader count is the number of read guards and selected read futures, the
writer flag that of write guards and selected write futures, and the two are
never out together; waiters are admitted in the order in which they queued,
without the cancelled ones; the call that gives back the last slot admits and
wakes the writer or all the readers at the front, and no other call admits
anybody, so that nobody is queued on a free lock; and the fast paths of
`try_read`, `try_write` and of a first poll are open only when nothing is
queued. -/
theorem accounts_of_reachable {a : Audit}
    (hreach : Reachable Audit.step (fun a op => PollsPending a.world op) {} a) :
    a.world.lock.readers = a.world.readGuards + a.world.selectedFutures .read ∧
    a.world.lock.writer.toNat = a.world.writeGuards + a.world.selectedFutures .write ∧
    (a.world.lock.writer = true → a.world.lock.readers = 0) ∧
    a.admitted ++ a.world.lock.waiters.map Waiter.id =
      (List.range a.world.lock.nextWaiterId).filter (fun i => i ∉ a.cancelled) ∧
    (∀ op w', PollsPending a.world op → step a.world op = some w' → a.world.Batch w') ∧
    (∀ op w', PollsPending a.world op → step a.world op = some w' →
      a.world.admittedBy w' = a.world.admits op ∧
      w'.lock.woken = a.world.lock.woken ++ (a.world.admittedBy w').map Waiter.waker) ∧
    (a.world.lock.waiters ≠ [] → a.world.lock.writer = true ∨ 0 < a.world.lock.readers) ∧
    (∀ kind, (a.world.tryAcquire kind).guards kind ≠ a.world.guards kind →
      a.world.lock.waiters = []) ∧
    (∀ (f : Future) (waker : Waker), f.waiter = none → (f.poll a.world.lock waker).2.2 = true →
      a.world.lock.waiters = []) := by
  have hinv : Balanced a.world ∧ a.Fifo ∧ a.world.lock.Held := by
    refine hreach.invariant (fun a => Balanced a.world ∧ a.Fifo ∧ a.world.lock.Held)
      ⟨balanced_init, ⟨rfl, by simp⟩, fun hne => absurd rfl hne⟩ ?_
    rintro a op a' ⟨hbalanced, hfifo, hheld⟩ hop hs
    obtain ⟨w', hw', rfl⟩ := Option.map_eq_some_iff.mp hs
    exact ⟨hbalanced.step hop hw', hfifo.step hbalanced (step_effect hbalanced hw'),
      hheld.step hw'⟩
  obtain ⟨hbalanced, hfifo, hheld⟩ := hinv
  have hlinked := hbalanced.accounted.linked
  refine ⟨hbalanced.slots_eq .read, hbalanced.slots_eq .write, hbalanced.accounted.exclusive,
    hfifo.order, fun op w' _ hs => batch_of_effect hlinked (step_effect hbalanced hs),
    fun op w' _ hs => ?_, hheld, fun kind hgrant => ?_, fun f waker hnone hready => ?_⟩
  · have heffect := step_effect hbalanced hs
    have hadmitted := admittedBy_eq_of_effect hlinked heffect
    exact ⟨hadmitted, hadmitted ▸ woken_of_effect heffect⟩
  · by_cases hav : a.world.lock.available kind = true
    · exact waiters_eq_nil_of_available hav
    · exact absurd (by rw [World.tryAcquire, if_neg hav]) hgrant
  · have hsel : f.isSelected a.world.lock = false := by simp [Future.isSelected, hnone]
    by_cases hav : a.world.lock.available f.kind = true
    · exact waiters_eq_nil_of_available hav
    · simp [Future.poll, hsel, hnone, hav] at hready

/-- Two readers and a writer queue behind a write guard, and the second reader
is cancelled: the release admits the first reader. -/
theorem accounts_after_cancelled :
    ∃ a, Reachable Audit.step (fun a op => PollsPending a.world op) {} a ∧
      a.cancelled = [1] ∧ a.world.lock.readers = a.world.readGuards + a.world.selectedFutures .read ∧
      a.admitted ++ a.world.lock.waiters.map Waiter.id = [0, 2] := by
  obtain ⟨a, hreach, ha⟩ := Reachable.exists_of_run Audit.step
    (fun a op => PollsPending a.world op) {}
    [.tryWrite, .read, .poll { kind := .read } 7, .read, .poll { kind := .read } 8, .write,
      .poll { kind := .write } 9, .dropFuture { kind := .read, waiter := some (1, 1) },
      .dropWriteGuard]
    (fun a => a.world.lock.nextWaiterId == 3 && a.cancelled == [1])
    (by simp [PollsPending]) (by decide)
  simp only [Bool.and_eq_true, beq_iff_eq] at ha
  obtain ⟨hreaders, -, -, horder, -⟩ := accounts_of_reachable hreach
  refine ⟨a, hreach, ha.2, hreaders, ?_⟩
  rw [horder, ha.1, ha.2]
  decide

end Runite.Sync.RwLock
