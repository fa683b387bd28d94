import Runite.Sync.RwLock
import Runite.Lib.Counting
import Mathlib.Tactic.Common

/-!
# Exclusion of the reader-writer lock

Every slot the lock has handed out is owned by a live guard or by a selected
future that has not returned its guard yet.  `Accounted w extra` states that
the owners of each kind, and `extra` further ones, are covered by the slots of
that kind, and that reader and writer slots are never out together.  Each
method of the lock moves `extra` by one, and a call of a program returns it to
zero as long as no future returns the guard of its slot twice.
-/

namespace Runite.Sync.RwLock

open Function

/-- The slots of a kind that the lock has handed out. -/
def Lock.slots (l : Lock) : WaiterKind → Nat
  | .read => l.readers
  | .write => l.writer.toNat

/-- The cell that a future shares with its queue entry. -/
def Future.cell (f : Future) : Option CellId := f.waiter.map Prod.snd

/-- The future was selected for a slot of this kind and has not returned the
guard of it. -/
def Future.owed (cells : CellId → Bool) (kind : WaiterKind) (f : Future) : Bool :=
  decide (f.kind = kind) && f.cell.any cells && !f.delivered

/-- The owners of slots of a kind: live guards and owed futures. -/
def World.owners (w : World) (kind : WaiterKind) : Nat :=
  w.guards kind + w.futures.countP (Future.owed w.lock.cells kind)

def one (kind : WaiterKind) (k : WaiterKind) : Nat := if k = kind then 1 else 0

/-- How queue entries and futures share their cells. -/
structure Linked (l : Lock) (fs : List Future) : Prop where
  unselected : ∀ q ∈ l.waiters, l.cells q.selected = false
  distinct : (l.waiters.map Waiter.selected).Nodup
  unshared : (fs.filterMap Future.cell).Nodup
  kinds : ∀ q ∈ l.waiters, ∀ f ∈ fs, f.cell = some q.selected → f.kind = q.kind
  queueBound : ∀ q ∈ l.waiters, q.selected < l.nextCell
  futureBound : ∀ f ∈ fs, ∀ c, f.cell = some c → c < l.nextCell
  delivered : ∀ f ∈ fs, f.delivered = true → f.acquired = true

/-- The slots cover the owners and `extra` more, and reader and writer slots
exclude each other. -/
structure Accounted (w : World) (extra : WaiterKind → Nat) : Prop where
  linked : Linked w.lock w.futures
  covered : ∀ kind, w.owners kind + extra kind ≤ w.lock.slots kind
  exclusive : w.lock.writer = true → w.lock.readers = 0
  noUnderflow : w.lock.underflow = false

/-- A slot of this kind may be handed out. -/
def Lock.Admits (l : Lock) (kind : WaiterKind) : Prop :=
  l.writer = false ∧ (kind = .write → l.readers = 0)

theorem isSelected_eq (f : Future) (l : Lock) : f.isSelected l = f.cell.any l.cells := by
  simp [Future.isSelected, Future.cell, Option.any_map]

theorem admits_of_available {l : Lock} {kind : WaiterKind} (h : l.available kind = true) :
    l.Admits kind := by
  cases kind <;> simp_all [Lock.available, Lock.Admits]

/-! ## Links -/

section Linked

variable {l : Lock} {fs : List Future}

@[simp] theorem acquire_waiters (l : Lock) (kind : WaiterKind) :
    (l.acquire kind).waiters = l.waiters := by cases kind <;> rfl

@[simp] theorem acquire_cells (l : Lock) (kind : WaiterKind) :
    (l.acquire kind).cells = l.cells := by cases kind <;> rfl

@[simp] theorem acquire_nextCell (l : Lock) (kind : WaiterKind) :
    (l.acquire kind).nextCell = l.nextCell := by cases kind <;> rfl

@[simp] theorem acquire_underflow (l : Lock) (kind : WaiterKind) :
    (l.acquire kind).underflow = l.underflow := by cases kind <;> rfl

/-- Links depend on the queue, the cells and the futures only. -/
theorem Linked.of_eq {l' : Lock} (h : Linked l fs) (hw : l'.waiters = l.waiters)
    (hc : l'.cells = l.cells) (hn : l'.nextCell = l.nextCell) : Linked l' fs := by
  constructor
  · rw [hw, hc]; exact h.unselected
  · rw [hw]; exact h.distinct
  · exact h.unshared
  · rw [hw]; exact h.kinds
  · rw [hw, hn]; exact h.queueBound
  · rw [hn]; exact h.futureBound
  · exact h.delivered

theorem Linked.of_sublist {l' : Lock} (h : Linked l fs) (hw : l'.waiters.Sublist l.waiters)
    (hc : l'.cells = l.cells) (hn : l'.nextCell = l.nextCell) : Linked l' fs where
  unselected q hq := by rw [hc]; exact h.unselected q (hw.subset hq)
  distinct := h.distinct.sublist (hw.map _)
  unshared := h.unshared
  kinds q hq := h.kinds q (hw.subset hq)
  queueBound q hq := by rw [hn]; exact h.queueBound q (hw.subset hq)
  futureBound := by rw [hn]; exact h.futureBound
  delivered := h.delivered

theorem Linked.of_futures_sublist {fs' : List Future} (h : Linked l fs) (hfs : fs'.Sublist fs) :
    Linked l fs' where
  unselected := h.unselected
  distinct := h.distinct
  unshared := h.unshared.sublist (hfs.filterMap _)
  kinds q hq f hf := h.kinds q hq f (hfs.subset hf)
  queueBound := h.queueBound
  futureBound f hf := h.futureBound f (hfs.subset hf)
  delivered f hf := h.delivered f (hfs.subset hf)

/-- Exchanging a future for one with the same cell and kind keeps the links. -/
theorem Linked.replace {f f' : Future} (h : Linked l fs) (hf : f ∈ fs) (hcell : f'.cell = f.cell)
    (hkind : f'.kind = f.kind) (hdel : f'.delivered = true → f'.acquired = true) :
    Linked l (f' :: fs.erase f) := by
  have hmem : ∀ g ∈ f' :: fs.erase f, g = f' ∨ g ∈ fs := by
    intro g hg
    rcases List.mem_cons.mp hg with rfl | hg
    · exact .inl rfl
    · exact .inr (List.mem_of_mem_erase hg)
  have hperm : (fs.filterMap Future.cell).Perm ((f' :: fs.erase f).filterMap Future.cell) := by
    have hfs := (List.perm_cons_erase hf).filterMap Future.cell
    simpa only [List.filterMap_cons, hcell] using hfs
  refine ⟨h.unselected, h.distinct, hperm.nodup_iff.mp h.unshared, ?_, h.queueBound, ?_, ?_⟩
  · intro q hq g hg hgc
    rcases hmem g hg with rfl | hg
    · rw [hkind]
      exact h.kinds q hq f hf (hcell ▸ hgc)
    · exact h.kinds q hq g hg hgc
  · intro g hg c hgc
    rcases hmem g hg with rfl | hg
    · exact h.futureBound f hf c (hcell ▸ hgc)
    · exact h.futureBound g hg c hgc
  · intro g hg
    rcases hmem g hg with rfl | hg
    · exact hdel
    · exact h.delivered g hg

theorem Linked.create (h : Linked l fs) (kind : WaiterKind) :
    Linked l ({ kind := kind } :: fs) where
  unselected := h.unselected
  distinct := h.distinct
  unshared := by simpa [List.filterMap_cons, Future.cell] using h.unshared
  kinds q hq f hf hc := by
    rcases List.mem_cons.mp hf with rfl | hf
    · simp [Future.cell] at hc
    · exact h.kinds q hq f hf hc
  queueBound := h.queueBound
  futureBound f hf c hc := by
    rcases List.mem_cons.mp hf with rfl | hf
    · simp [Future.cell] at hc
    · exact h.futureBound f hf c hc
  delivered f hf hd := by
    rcases List.mem_cons.mp hf with rfl | hf
    · simp at hd
    · exact h.delivered f hf hd

/-- The new waiter of a future that had none gets a cell of its own. -/
theorem Linked.enqueue {f : Future} {waker : Waker} (h : Linked l fs) (hf : f ∈ fs) :
    Linked (l.enqueue f.kind waker)
      ({ f with waiter := some (l.nextWaiterId, l.nextCell) } :: fs.erase f) := by
  have hold : ∀ g ∈ fs.erase f, g ∈ fs := fun g hg => List.mem_of_mem_erase hg
  have hq : ∀ q ∈ l.waiters, q.selected ≠ l.nextCell := fun q hq => Nat.ne_of_lt (h.queueBound q hq)
  constructor
  · intro q hq'
    rcases List.mem_append.mp hq' with hq' | hq'
    · simpa [Lock.enqueue, hq q hq'] using h.unselected q hq'
    · obtain rfl := List.mem_singleton.mp hq'
      simp [Lock.enqueue]
  · simp only [Lock.enqueue, List.map_append, List.map_cons, List.map_nil]
    refine List.nodup_append.mpr ⟨h.distinct, by simp, ?_⟩
    intro a ha b hb
    obtain ⟨q, hq', rfl⟩ := List.mem_map.mp ha
    obtain rfl := List.mem_singleton.mp hb
    exact hq q hq'
  · change (l.nextCell :: (fs.erase f).filterMap Future.cell).Nodup
    rw [List.nodup_cons]
    refine ⟨?_, h.unshared.sublist (List.erase_sublist.filterMap _)⟩
    rintro hmem
    obtain ⟨g, hg, hc⟩ := List.mem_filterMap.mp hmem
    exact Nat.ne_of_lt (h.futureBound g (hold g hg) _ hc) rfl
  · intro q hq' g hg hc
    rcases List.mem_append.mp hq' with hq' | hq' <;> rcases List.mem_cons.mp hg with rfl | hg
    · exact absurd (by simpa [Future.cell] using hc.symm) (hq q hq')
    · exact h.kinds q hq' g (hold g hg) hc
    · obtain rfl := List.mem_singleton.mp hq'
      rfl
    · obtain rfl := List.mem_singleton.mp hq'
      exact absurd rfl (Nat.ne_of_lt (h.futureBound g (hold g hg) _ hc))
  · intro q hq'
    rcases List.mem_append.mp hq' with hq' | hq'
    · exact Nat.lt_succ_of_lt (h.queueBound q hq')
    · obtain rfl := List.mem_singleton.mp hq'
      exact Nat.lt_succ_self _
  · intro g hg c hc
    rcases List.mem_cons.mp hg with rfl | hg
    · obtain rfl : l.nextCell = c := by simpa [Future.cell] using hc
      exact Nat.lt_succ_self _
    · exact Nat.lt_succ_of_lt (h.futureBound g (hold g hg) c hc)
  · intro g hg hd
    rcases List.mem_cons.mp hg with rfl | hg
    · exact h.delivered f hf hd
    · exact h.delivered g (hold g hg) hd

/-- Selecting the front waiter leaves the other waiters unselected. -/
theorem Linked.select {q : Waiter} {rest : List Waiter} (h : Linked l fs)
    (hw : l.waiters = q :: rest) : Linked (l.select q rest) fs := by
  have hrest : rest.Sublist l.waiters := hw ▸ List.sublist_cons_self q rest
  have hne : ∀ q' ∈ rest, q'.selected ≠ q.selected := by
    have hdistinct := h.distinct
    rw [hw, List.map_cons, List.nodup_cons] at hdistinct
    intro q' hq' heq
    exact hdistinct.1 (heq ▸ List.mem_map_of_mem hq')
  refine ⟨?_, h.distinct.sublist (hrest.map _), h.unshared, ?_, ?_, ?_, h.delivered⟩
  · intro q' hq'
    simpa [Lock.select, hne q' hq'] using h.unselected q' (hrest.subset hq')
  · exact fun q' hq' => h.kinds q' (hrest.subset hq')
  · intro q' hq'
    simpa [Lock.select] using h.queueBound q' (hrest.subset hq')
  · intro f hf c hc
    simpa [Lock.select] using h.futureBound f hf c hc

theorem setWaker_map_selected (id : Nat) (waker : Waker) (waiters : List Waiter) :
    (setWaker id waker waiters).map (fun q => (q.id, q.kind, q.selected)) =
      waiters.map (fun q => (q.id, q.kind, q.selected)) := by
  induction waiters with
  | nil => rfl
  | cons q waiters ih =>
      rw [setWaker]
      split_ifs
      · rfl
      · simp [ih]

/-- A waiter with a new waker is a queued waiter in all other respects. -/
theorem mem_setWaker {id : Nat} {waker : Waker} {waiters : List Waiter} {q : Waiter}
    (hq : q ∈ setWaker id waker waiters) :
    ∃ q' ∈ waiters, q'.id = q.id ∧ q'.kind = q.kind ∧ q'.selected = q.selected := by
  have hmem : (q.id, q.kind, q.selected) ∈
      waiters.map (fun q => (q.id, q.kind, q.selected)) := by
    rw [← setWaker_map_selected id waker]
    exact List.mem_map_of_mem hq
  obtain ⟨q', hq', heq⟩ := List.mem_map.mp hmem
  simp only [Prod.mk.injEq] at heq
  exact ⟨q', hq', heq⟩

theorem Linked.setWaker (h : Linked l fs) (id : Nat) (waker : Waker) :
    Linked { l with waiters := setWaker id waker l.waiters } fs := by
  refine ⟨?_, ?_, h.unshared, ?_, ?_, h.futureBound, h.delivered⟩
  · intro q hq
    obtain ⟨q', hq', -, -, hsel⟩ := mem_setWaker hq
    exact hsel ▸ h.unselected q' hq'
  · have hmap := congrArg (List.map fun t : Nat × WaiterKind × CellId => t.2.2)
      (setWaker_map_selected id waker l.waiters)
    simp only [List.map_map] at hmap
    exact hmap ▸ h.distinct
  · intro q hq f hf hc
    obtain ⟨q', hq', -, hkind, hsel⟩ := mem_setWaker hq
    exact hkind ▸ h.kinds q' hq' f hf (hsel ▸ hc)
  · intro q hq
    obtain ⟨q', hq', -, -, hsel⟩ := mem_setWaker hq
    exact hsel ▸ h.queueBound q' hq'

end Linked

/-! ## Slots -/

section Slots

variable {w : World} {extra : WaiterKind → Nat} {kind : WaiterKind}

theorem slots_acquire {l : Lock} (h : l.Admits kind) (k : WaiterKind) :
    (l.acquire kind).slots k = l.slots k + one kind k := by
  cases kind <;> cases k <;> simp_all [Lock.acquire, Lock.slots, one, Lock.Admits]

theorem exclusive_acquire {l : Lock} (h : l.Admits kind)
    (hw : (l.acquire kind).writer = true) : (l.acquire kind).readers = 0 := by
  cases kind <;> simp_all [Lock.acquire, Lock.Admits]

/-- Handing out an admissible slot leaves it to be owned. -/
theorem Accounted.acquire (h : Accounted w (fun _ => 0)) (hadm : w.lock.Admits kind) :
    Accounted { w with lock := w.lock.acquire kind } (one kind) where
  linked := h.linked.of_eq (by simp) (by simp) (by simp)
  covered k := by
    have hk := h.covered k
    simp only [World.owners, World.guards, acquire_cells, slots_acquire hadm] at hk ⊢
    omega
  exclusive := exclusive_acquire hadm
  noUnderflow := by simpa using h.noUnderflow

theorem Accounted.addGuard (h : Accounted w (one kind)) :
    Accounted (w.addGuard kind) (fun _ => 0) := by
  refine ⟨by simpa using h.linked, fun k => ?_, by simpa using h.exclusive,
    by simpa using h.noUnderflow⟩
  have hk := h.covered k
  have hguards : (w.addGuard kind).guards k = w.guards k + one kind k := by
    cases kind <;> cases k <;> rfl
  simp only [World.owners, World.addGuard_lock, World.addGuard_futures, hguards] at hk ⊢
  omega

theorem World.removeGuard_guards (hpos : 0 < w.guards kind) (k : WaiterKind) :
    (w.removeGuard kind).guards k + one kind k = w.guards k := by
  cases kind <;> cases k <;> simp_all [World.removeGuard, World.guards, one]
  · omega
  · omega

theorem Accounted.removeGuard (h : Accounted w (fun _ => 0)) (hpos : 0 < w.guards kind) :
    Accounted (w.removeGuard kind) (one kind) := by
  refine ⟨by simpa using h.linked, fun k => ?_, by simpa using h.exclusive,
    by simpa using h.noUnderflow⟩
  have hk := h.covered k
  have hguards := World.removeGuard_guards hpos k
  simp only [World.owners, World.removeGuard_lock, World.removeGuard_futures] at hk ⊢
  omega

/-- The future waits for the slot behind `cell`. -/
def Future.claims (cell : CellId) (kind : WaiterKind) (f : Future) : Bool :=
  decide (f.kind = kind) && decide (f.cell = some cell) && !f.delivered

/-- Setting a cell makes its future owed, and no other. -/
theorem countP_owed_update {l : Lock} {c : CellId} (fs : List Future)
    (hc : l.cells c = false) (k : WaiterKind) :
    fs.countP (Future.owed (update l.cells c true) k) =
      fs.countP (Future.owed l.cells k) + fs.countP (Future.claims c k) := by
  apply Counting.countP_eq_add_of_disjoint
  · intro f _
    cases hf : f.cell with
    | none => simp [Future.owed, Future.claims, hf]
    | some d =>
        by_cases hd : d = c
        · subst hd
          simp [Future.owed, Future.claims, hf, hc]
        · simp [Future.owed, Future.claims, hf, hd]
  · intro f _ howed
    cases hf : f.cell with
    | none => simp [Future.claims, hf]
    | some d =>
        by_cases hd : d = c
        · subst hd
          simp [Future.owed, hf, hc] at howed
        · simp [Future.claims, hf, hd]

/-- At most one future waits for a queued waiter's slot, and it has its kind. -/
theorem countP_claims_le {l : Lock} {fs : List Future} (h : Linked l fs) {q : Waiter}
    (hq : q ∈ l.waiters) (k : WaiterKind) :
    fs.countP (Future.claims q.selected k) ≤ one q.kind k := by
  by_cases hk : k = q.kind
  · simp only [one, hk, if_true]
    refine Counting.countP_le_one_of_key h.unshared (c := q.selected) ?_
    intro f _ hf
    simp only [Future.claims, Bool.and_eq_true, decide_eq_true_eq] at hf
    exact hf.1.2
  · simp only [one, hk, if_false, Nat.le_zero, List.countP_eq_zero]
    intro f hf hclaims
    simp only [Future.claims, Bool.and_eq_true, decide_eq_true_eq] at hclaims
    exact hk (hclaims.1.1.symm.trans (h.kinds q hq f hf hclaims.1.2))

theorem Accounted.select {q : Waiter} {rest : List Waiter} (h : Accounted w (fun _ => 0))
    (hw : w.lock.waiters = q :: rest) (hadm : w.lock.Admits q.kind) :
    Accounted { w with lock := w.lock.select q rest } (fun _ => 0) where
  linked := h.linked.select hw
  covered k := by
    have hq : q ∈ w.lock.waiters := by simp [hw]
    have hk := (h.acquire hadm).covered k
    have hclaims := countP_claims_le h.linked hq k
    have howed := countP_owed_update w.futures (h.linked.unselected q hq) k
    have hslots : (w.lock.select q rest).slots k = (w.lock.acquire q.kind).slots k := by
      cases k <;> rfl
    rw [hslots]
    simp only [World.owners, World.guards, Lock.select, acquire_cells] at hk ⊢
    omega
  exclusive := exclusive_acquire hadm
  noUnderflow := by simpa [Lock.select] using h.noUnderflow

/-- The loop over the front readers, which runs while no writer is admitted. -/
theorem Accounted.admitReaders {waiters : List Waiter} (h : Accounted w (fun _ => 0))
    (hw : w.lock.waiters = waiters) (hwriter : w.lock.writer = false) :
    Accounted { w with lock := admitReaders waiters w.lock } (fun _ => 0) := by
  induction waiters generalizing w with
  | nil => exact h
  | cons q rest ih =>
      rw [RwLock.admitReaders]
      cases hkind : q.kind with
      | write => exact h
      | read =>
          have hsel := h.select hw ⟨hwriter, by simp [hkind]⟩
          exact ih hsel rfl (by simpa [Lock.select, Lock.acquire, hkind] using hwriter)

theorem Accounted.releaseToNextWaiters (h : Accounted w (fun _ => 0)) :
    Accounted { w with lock := w.lock.releaseToNextWaiters } (fun _ => 0) := by
  rw [Lock.releaseToNextWaiters]
  split_ifs with hheld
  · exact h
  · simp only [Bool.or_eq_true, decide_eq_true_eq, not_or, Bool.not_eq_true, Nat.not_lt,
      Nat.le_zero] at hheld
    split
    · exact h
    next q rest hwaiters =>
      cases hkind : q.kind with
      | write => exact h.select hwaiters ⟨hheld.1, fun _ => hheld.2⟩
      | read => exact h.admitReaders rfl hheld.1

/-- The lock with one slot less, before any waiter is admitted. -/
def Lock.giveBack (l : Lock) : WaiterKind → Lock
  | .read => { l with
      readers := usizePred l.readers
      underflow := l.underflow || l.readers == 0 }
  | .write => { l with writer := false }

/-- `release_reader` skips the admission only where it would do nothing. -/
theorem release_eq (l : Lock) (kind : WaiterKind) :
    l.release kind = (l.giveBack kind).releaseToNextWaiters := by
  cases kind with
  | write => rfl
  | read =>
      simp only [Lock.release, Lock.releaseReader, Lock.giveBack]
      split_ifs with hzero
      · rfl
      · rw [Lock.releaseToNextWaiters, if_pos]
        simp [Nat.pos_of_ne_zero hzero]

theorem giveBack_slots (h : Accounted w (one kind)) (k : WaiterKind) :
    (w.lock.giveBack kind).slots k + one kind k = w.lock.slots k := by
  have hslot := h.covered kind
  cases kind with
  | read =>
      have hpos : w.lock.readers ≠ 0 := by
        simp only [one, Lock.slots, if_true] at hslot
        omega
      cases k
      · simp only [Lock.giveBack, Lock.slots, usizePred, if_neg hpos, one, if_true]
        omega
      · simp [Lock.giveBack, Lock.slots, one]
  | write =>
      have hwriter : w.lock.writer = true := by
        cases hw : w.lock.writer with
        | true => rfl
        | false => simp [one, Lock.slots, hw] at hslot
      cases k <;> simp [Lock.giveBack, Lock.slots, one, hwriter]

theorem Accounted.giveBack (h : Accounted w (one kind)) :
    Accounted { w with lock := w.lock.giveBack kind } (fun _ => 0) := by
  have hslot := h.covered kind
  refine ⟨h.linked.of_eq (by cases kind <;> rfl) (by cases kind <;> rfl)
    (by cases kind <;> rfl), fun k => ?_, ?_, ?_⟩
  · have hk := h.covered k
    have hgive := giveBack_slots h k
    have hcells : (w.lock.giveBack kind).cells = w.lock.cells := by cases kind <;> rfl
    simp only [World.owners, World.guards, hcells] at hk ⊢
    omega
  · cases kind with
    | write => simp [Lock.giveBack]
    | read =>
        intro hwriter
        simp only [one, Lock.slots, if_true, h.exclusive hwriter] at hslot
        omega
  · cases kind with
    | write => exact h.noUnderflow
    | read =>
        have hpos : w.lock.readers ≠ 0 := by
          simp only [one, Lock.slots, if_true] at hslot
          omega
        simp [Lock.giveBack, h.noUnderflow, hpos]

theorem Accounted.release (h : Accounted w (one kind)) :
    Accounted { w with lock := w.lock.release kind } (fun _ => 0) := by
  rw [release_eq]
  exact h.giveBack.releaseToNextWaiters

/-- Exchanging a future for one that owes its slot no more frees that slot. -/
theorem Accounted.replace {f : Future} (h : Accounted w extra) (hf : f ∈ w.futures)
    (f' : Future) (extra' : WaiterKind → Nat) (hcell : f'.cell = f.cell) (hkind : f'.kind = f.kind)
    (hdel : f'.delivered = true → f'.acquired = true)
    (howed : ∀ k, (f'.owed w.lock.cells k).toNat + extra' k ≤
      (f.owed w.lock.cells k).toNat + extra k) :
    Accounted { w with futures := f' :: w.futures.erase f } extra' where
  linked := h.linked.replace hf hcell hkind hdel
  covered k := by
    have hk := h.covered k
    have hcount := Counting.countP_replace_add (Future.owed w.lock.cells k) f' hf
    have hle := howed k
    simp only [World.owners, World.guards] at hk ⊢
    omega
  exclusive := h.exclusive
  noUnderflow := h.noUnderflow

/-- Forgetting a future leaves the slot it owed, if any. -/
theorem Accounted.erase {f : Future} (h : Accounted w extra) (hf : f ∈ w.futures)
    (extra' : WaiterKind → Nat)
    (howed : ∀ k, extra' k ≤ (f.owed w.lock.cells k).toNat + extra k) :
    Accounted { w with futures := w.futures.erase f } extra' where
  linked := h.linked.of_futures_sublist List.erase_sublist
  covered k := by
    have hk := h.covered k
    have hcount := Counting.countP_erase_add (Future.owed w.lock.cells k) hf
    have hle := howed k
    simp only [World.owners, World.guards] at hk ⊢
    omega
  exclusive := h.exclusive
  noUnderflow := h.noUnderflow

theorem owed_of_isSelected {f : Future} {l : Lock} (hsel : f.isSelected l = true)
    (hd : f.delivered = false) (k : WaiterKind) : f.owed l.cells k = decide (f.kind = k) := by
  rw [isSelected_eq] at hsel
  simp [Future.owed, hsel, hd]

theorem toNat_decide_eq_one (k : WaiterKind) : (decide (kind = k)).toNat = one kind k := by
  by_cases h : kind = k
  · simp [one, h]
  · simp [one, h, Ne.symm h]

/-- Allocating a cell does not change what the other futures owe. -/
theorem Linked.countP_owed_fresh {l : Lock} {fs : List Future} (h : Linked l fs) (f : Future)
    (k : WaiterKind) :
    (fs.erase f).countP (Future.owed (update l.cells l.nextCell false) k) =
      (fs.erase f).countP (Future.owed l.cells k) := by
  apply List.countP_congr
  intro g hg
  cases hc : g.cell with
  | none => simp [Future.owed, hc]
  | some c =>
      have hlt := h.futureBound g (List.mem_of_mem_erase hg) c hc
      simp [Future.owed, hc, Nat.ne_of_lt hlt]

theorem Accounted.enqueue {f : Future} (h : Accounted w (fun _ => 0)) (hf : f ∈ w.futures)
    (waker : Waker) :
    Accounted { w with
      lock := w.lock.enqueue f.kind waker
      futures := { f with waiter := some (w.lock.nextWaiterId, w.lock.nextCell) } ::
        w.futures.erase f } (fun _ => 0) where
  linked := h.linked.enqueue hf
  covered k := by
    have hk := (h.erase hf (fun _ => 0) (fun _ => Nat.zero_le _)).covered k
    have hcount := h.linked.countP_owed_fresh f k
    simp only [World.owners, World.guards, Lock.enqueue, List.countP_cons, hcount] at hk ⊢
    simp only [Future.owed, Future.cell, Option.map_some, Option.any_some, update_self,
      Bool.and_false, Bool.false_and, Bool.false_eq_true, if_false] at hk ⊢
    simpa [Lock.slots] using hk
  exclusive := h.exclusive
  noUnderflow := h.noUnderflow

theorem Accounted.setWaker (h : Accounted w (fun _ => 0)) (id : Nat) (waker : Waker) :
    Accounted { w with lock := { w.lock with waiters := setWaker id waker w.lock.waiters } }
      (fun _ => 0) where
  linked := h.linked.setWaker id waker
  covered := h.covered
  exclusive := h.exclusive
  noUnderflow := h.noUnderflow

/-- A poll hands out at most the slot it takes or was selected for. -/
theorem Accounted.poll {f : Future} (h : Accounted w (fun _ => 0)) (hf : f ∈ w.futures)
    (hd : f.delivered = false) (waker : Waker) :
    Accounted (w.poll f waker) (fun _ => 0) := by
  obtain ⟨hsel, heq⟩ | ⟨hnone, hav, heq⟩ | ⟨-, -, heq⟩ | ⟨id, c, -, -, heq⟩ :=
    w.poll_cases f waker
  · have hsettled := h.replace hf { f with acquired := true, delivered := true } (one f.kind)
      rfl rfl (by simp) (by
        intro k
        rw [owed_of_isSelected hsel hd, toNat_decide_eq_one]
        simp [Future.owed])
    exact heq ▸ hsettled.addGuard
  · have hacq := h.acquire (admits_of_available hav)
    have hkept := hacq.replace hf { f with acquired := true } (one f.kind)
      rfl rfl (by simp) (by
        intro k
        simp [Future.owed, Future.cell, hnone])
    exact heq ▸ hkept.addGuard
  · exact heq ▸ h.enqueue hf waker
  · have hkept := (h.setWaker id waker).replace hf f (fun _ => 0) rfl rfl
      (h.linked.delivered f hf) (fun _ => Nat.le_refl _)
    exact heq ▸ hkept

theorem owed_of_cell {f : Future} {l : Lock} {id : Nat} {c : CellId} {fs : List Future}
    (h : Linked l fs) (hf : f ∈ fs) (hw : f.waiter = some (id, c)) (hacq : f.acquired = false)
    (hc : l.cells c = true) (k : WaiterKind) : (f.owed l.cells k).toNat = one f.kind k := by
  have hd : f.delivered = false := by
    cases hd : f.delivered with
    | false => rfl
    | true => simp [h.delivered f hf hd] at hacq
  have hsel : f.isSelected l = true := by simp [Future.isSelected, hw, hc]
  rw [owed_of_isSelected hsel hd, toNat_decide_eq_one]

theorem Accounted.dropFuture {f : Future} (h : Accounted w (fun _ => 0)) (hf : f ∈ w.futures) :
    Accounted (w.dropFuture f) (fun _ => 0) := by
  have hgone := h.erase hf (fun _ => 0) (fun _ => Nat.zero_le _)
  obtain ⟨-, heq⟩ | ⟨id, c, -, -, heq⟩ | ⟨id, c, hw, hacq, hc, heq⟩ | ⟨id, c, -, -, -, heq⟩ :=
    w.dropFuture_cases f
  · exact heq ▸ hgone
  · exact heq ▸ hgone
  · have hfreed := h.erase hf (one f.kind)
      (fun k => by simp [owed_of_cell h.linked hf hw hacq hc])
    exact heq ▸ hfreed.release
  · rw [heq]
    exact ⟨hgone.linked.of_sublist List.eraseP_sublist rfl rfl, hgone.covered,
      hgone.exclusive, hgone.noUnderflow⟩

theorem Accounted.dropGuard (h : Accounted w (fun _ => 0)) (hpos : 0 < w.guards kind) :
    Accounted (w.dropGuard kind) (fun _ => 0) := by
  have hrelease := (h.removeGuard hpos).release
  cases kind <;> exact hrelease

theorem Accounted.tryAcquire (h : Accounted w (fun _ => 0)) :
    Accounted (w.tryAcquire kind) (fun _ => 0) := by
  rw [World.tryAcquire]
  split_ifs with hav
  · exact (h.acquire (admits_of_available hav)).addGuard
  · exact h

theorem Accounted.create (h : Accounted w (fun _ => 0)) :
    Accounted (w.create kind) (fun _ => 0) where
  linked := h.linked.create kind
  covered k := by
    have hk := h.covered k
    simpa [World.owners, World.guards, World.create, List.countP_cons, Future.owed,
      Future.cell] using hk
  exclusive := h.exclusive
  noUnderflow := h.noUnderflow

end Slots

/-! ## Runs -/

/-- The call does not poll a future that already returned the guard of the
slot it was selected for. -/
def NotDelivered (_ : World) : Op → Prop
  | .poll f _ => f.delivered = false
  | _ => True

/-- No two write guards, no write guard beside a read guard, and no decrement
of the reader count at zero. -/
def World.Exclusive (w : World) : Prop :=
  w.writeGuards ≤ 1 ∧ (w.writeGuards = 1 → w.readGuards = 0) ∧ w.lock.underflow = false

theorem accounted_init : Accounted {} (fun _ => 0) where
  linked := by constructor <;> simp
  covered k := by cases k <;> simp [World.owners, World.guards, Lock.slots]
  exclusive := by simp
  noUnderflow := rfl

theorem Accounted.step {w w' : World} {op : Op} (h : Accounted w (fun _ => 0))
    (hop : NotDelivered w op) (hstep : step w op = some w') : Accounted w' (fun _ => 0) := by
  cases op with
  | tryRead => exact Option.some.inj hstep ▸ h.tryAcquire
  | tryWrite => exact Option.some.inj hstep ▸ h.tryAcquire
  | read => exact Option.some.inj hstep ▸ h.create
  | write => exact Option.some.inj hstep ▸ h.create
  | poll f waker =>
      obtain ⟨hf, hw'⟩ := Option.ite_none_right_eq_some.mp hstep
      exact Option.some.inj hw' ▸ h.poll hf hop waker
  | dropFuture f =>
      obtain ⟨hf, hw'⟩ := Option.ite_none_right_eq_some.mp hstep
      exact Option.some.inj hw' ▸ h.dropFuture hf
  | dropReadGuard =>
      obtain ⟨hpos, hw'⟩ := Option.ite_none_right_eq_some.mp hstep
      exact Option.some.inj hw' ▸ h.dropGuard hpos
  | dropWriteGuard =>
      obtain ⟨hpos, hw'⟩ := Option.ite_none_right_eq_some.mp hstep
      exact Option.some.inj hw' ▸ h.dropGuard hpos

theorem Accounted.toExclusive {w : World} (h : Accounted w (fun _ => 0)) : w.Exclusive := by
  have hread := h.covered .read
  have hwrite := h.covered .write
  have hle := Bool.toNat_le w.lock.writer
  simp only [World.owners, World.guards, Lock.slots] at hread hwrite
  refine ⟨by omega, fun hone => ?_, h.noUnderflow⟩
  have hwriter : w.lock.writer = true := by
    cases hb : w.lock.writer with
    | false => simp only [hb, Bool.toNat_false] at hwrite; omega
    | true => rfl
  have hreaders := h.exclusive hwriter
  omega

/-- In every run that never polls a future again after it returned the guard of
the slot it was selected for, writers exclude each other and readers. -/
theorem exclusive_of_reachable {w : World}
    (hreach : Transition.Reachable step NotDelivered {} w) : w.Exclusive := by
  have hacc := hreach.invariant (Accounted · (fun _ => 0)) accounted_init
    fun _ _ _ h hop hstep => h.step hop hstep
  exact hacc.toExclusive

/-- The first future to queue, as its polls leave it. -/
def firstWaiter (kind : WaiterKind) (done : Bool) : Future :=
  { kind := kind, waiter := some (0, 0), acquired := done, delivered := done }

/-- A writer that queues behind a write guard and is handed the lock. -/
def handOff : List Op :=
  [.tryWrite, .write, .poll { kind := .write } 7, .dropWriteGuard,
    .poll (firstWaiter .write false) 7]

theorem exclusive_handOff :
    ∃ w, Transition.Reachable step NotDelivered {} w ∧ w.writeGuards = 1 ∧ w.Exclusive := by
  obtain ⟨w, hreach, hw⟩ := Transition.Reachable.exists_of_run step NotDelivered {} handOff
    (fun w => w.writeGuards == 1) (by simp [handOff, NotDelivered, firstWaiter]) (by decide)
  exact ⟨w, hreach, by simpa using hw, exclusive_of_reachable hreach⟩

/-- Polling the selected future once more returns a second write guard while
the first one is alive. -/
theorem repoll_breaks_exclusion :
    ∃ w, Transition.Reachable step (fun _ _ => True) {} w ∧ ¬w.Exclusive := by
  obtain ⟨w, hreach, hw⟩ := Transition.Reachable.exists_of_run step (fun _ _ => True) {}
    (handOff ++ [.poll (firstWaiter .write true) 7])
    (fun w => w.writeGuards == 2) (by simp) (by decide)
  refine ⟨w, hreach, fun hex => ?_⟩
  have htwo : w.writeGuards = 2 := by simpa using hw
  have hone := hex.1
  omega

end Runite.Sync.RwLock
