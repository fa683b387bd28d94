import Runite.Sync.RwLockExclusion

/-!
# Admission of the reader-writer lock

Which waiter may still be queued after a call.  `Lock.Served` is the rule on
the lock alone: a queued waiter implies that slots are out, and a reader at
the front implies that the writer slot is.  `Owned` is the converse of
`Accounted` for programs that poll no future after it returned a guard: every
slot that is out belongs to a live guard or to a selected future, so that the
flags of the lock speak about real holders.

The rule has one gap: cancelling the writer at the front of the queue does not
admit the readers behind it.
-/

namespace Runite.Sync.RwLock

open Function

/-! ## The rule on the lock -/

/-- No queued waiter is one that the queue order lets run. -/
structure Lock.Served (l : Lock) : Prop where
  held : l.waiters ≠ [] → l.writer = true ∨ 0 < l.readers
  front : ∀ q rest, l.waiters = q :: rest → q.kind = .read → l.writer = true

theorem admitReaders_read {q : Waiter} (hq : q.kind = .read) (rest : List Waiter) (l : Lock) :
    admitReaders (q :: rest) l = admitReaders rest (l.select q rest) := by
  simp [admitReaders, hq]

theorem admitReaders_write {q : Waiter} (hq : q.kind = .write) (rest : List Waiter) (l : Lock) :
    admitReaders (q :: rest) l = l := by
  simp [admitReaders, hq]

/-- The loop over the front readers leaves the writer flag alone, stops at a
writer, and admits at least the reader it starts with. -/
theorem admitReaders_spec (waiters : List Waiter) (l : Lock) (hw : l.waiters = waiters) :
    (admitReaders waiters l).writer = l.writer ∧
      l.readers ≤ (admitReaders waiters l).readers ∧
      (∀ q rest, waiters = q :: rest → q.kind = .read →
        l.readers < (admitReaders waiters l).readers) ∧
      ∀ q rest, (admitReaders waiters l).waiters = q :: rest → q.kind = .write := by
  induction waiters generalizing l with
  | nil => simp [admitReaders, hw]
  | cons q rest ih =>
      cases hkind : q.kind with
      | write =>
          rw [admitReaders_write hkind]
          refine ⟨rfl, Nat.le_refl _, ?_, ?_⟩
          · rintro q' rest' heq hread
            obtain ⟨rfl, rfl⟩ := List.cons.inj heq
            simp [hkind] at hread
          · rintro q' rest' heq
            obtain ⟨rfl, rfl⟩ := List.cons.inj (hw.symm.trans heq)
            exact hkind
      | read =>
          rw [admitReaders_read hkind]
          obtain ⟨hwriter, hle, -, hfront⟩ := ih (l.select q rest) rfl
          have hsucc : (l.select q rest).readers = l.readers + 1 := by
            simp [Lock.select, Lock.acquire, hkind]
          refine ⟨?_, by omega, fun _ _ _ _ => by omega, hfront⟩
          rw [hwriter]
          simp [Lock.select, Lock.acquire, hkind]

/-- After a release only a lock that is held has a queue. -/
theorem held_releaseToNextWaiters (l : Lock) : l.releaseToNextWaiters.waiters ≠ [] →
    l.releaseToNextWaiters.writer = true ∨ 0 < l.releaseToNextWaiters.readers := by
  rw [Lock.releaseToNextWaiters]
  split_ifs with hheld
  · exact fun _ => by simpa using hheld
  · split
    next hnil => exact fun hne => absurd hnil hne
    next q rest hwaiters =>
      intro _
      cases hkind : q.kind with
      | write => exact .inl (by simp [Lock.select, Lock.acquire, hkind])
      | read =>
          obtain ⟨-, -, hlt, -⟩ := admitReaders_spec l.waiters l rfl
          exact .inr (Nat.lt_of_le_of_lt (Nat.zero_le _) (hlt q rest hwaiters hkind))

/-- After a release the rule holds, whatever the queue was. -/
theorem Lock.Served.releaseToNextWaiters {l : Lock}
    (h : l.writer = true ∨ 0 < l.readers → l.Served) : l.releaseToNextWaiters.Served := by
  refine ⟨held_releaseToNextWaiters l, ?_⟩
  rw [Lock.releaseToNextWaiters]
  split_ifs with hheld
  · exact (h (by simpa using hheld)).front
  · split
    next hnil => exact fun q rest heq => by simp [hnil] at heq
    next q rest hwaiters =>
      intro q' rest' heq hread
      cases hkind : q.kind with
      | write => simp [Lock.select, Lock.acquire, hkind]
      | read =>
          obtain ⟨-, -, -, hfront⟩ := admitReaders_spec l.waiters l rfl
          simp only [hkind] at heq
          have hwrite := hfront q' rest' heq
          simp [hread] at hwrite

theorem Lock.Served.release {w : World} {kind : WaiterKind} (h : w.lock.Served)
    (hacc : Accounted w (one kind)) : (w.lock.release kind).Served := by
  rw [release_eq]
  apply Lock.Served.releaseToNextWaiters
  intro hheld
  have hgive := giveBack_slots hacc kind
  cases kind with
  | write =>
      -- The writer slot was out, so no reader slot is.
      have hwriter : w.lock.writer = true := by
        cases hw : w.lock.writer with
        | true => rfl
        | false => simp [Lock.slots, one, hw] at hgive
      simp [Lock.giveBack, hacc.exclusive hwriter] at hheld
  | read =>
      refine ⟨fun _ => hheld, fun q rest hw hread => ?_⟩
      exact h.front q rest hw hread

theorem Lock.Served.acquire {l : Lock} {kind : WaiterKind} (hav : l.available kind = true) :
    (l.acquire kind).Served := by
  have hnil : l.waiters = [] := by cases kind <;> simp_all [Lock.available]
  exact ⟨fun hne => absurd (by simpa using hnil) hne, fun q rest heq => by simp [hnil] at heq⟩

/-- A waiter only queues when its kind is not available. -/
theorem Lock.Served.enqueue {l : Lock} {kind : WaiterKind} (h : l.Served)
    (hav : l.available kind = false) (waker : Waker) : (l.enqueue kind waker).Served := by
  rcases hw : l.waiters with _ | ⟨q, rest⟩
  · have hheld : l.writer = true ∨ (kind = .write ∧ 0 < l.readers) := by
      cases hwriter : l.writer with
      | true => exact .inl rfl
      | false => cases kind <;> simp_all [Lock.available, Nat.pos_iff_ne_zero]
    refine ⟨fun _ => hheld.imp id And.right, fun q' rest' heq hread => ?_⟩
    obtain ⟨rfl, -⟩ : _ = q' ∧ _ := by simpa [Lock.enqueue, hw] using heq
    rcases hheld with hwriter | ⟨rfl, -⟩
    · exact hwriter
    · simp at hread
  · refine ⟨fun _ => h.held (by simp [hw]), fun q' rest' heq hread => ?_⟩
    obtain ⟨rfl, -⟩ : q = q' ∧ _ := by simpa [Lock.enqueue, hw] using heq
    exact h.front q rest hw hread

theorem Lock.Served.setWaker {l : Lock} (h : l.Served) (id : Nat) (waker : Waker) :
    Lock.Served { l with waiters := setWaker id waker l.waiters } := by
  rcases hw : l.waiters with _ | ⟨q, rest⟩
  · exact ⟨fun hne => absurd rfl hne, fun q' rest' heq => by simp [RwLock.setWaker] at heq⟩
  · refine ⟨fun _ => h.held (by simp [hw]), fun q' rest' heq hread => ?_⟩
    apply h.front q rest hw
    simp only [RwLock.setWaker] at heq
    split_ifs at heq
    · obtain ⟨rfl, -⟩ := List.cons.inj heq
      exact hread
    · obtain ⟨rfl, -⟩ := List.cons.inj heq
      exact hread

/-- Removing a waiter keeps the rule unless it uncovers a reader while no
writer is admitted. -/
theorem Lock.Served.removeWaiter {l : Lock} {id : Nat} (h : l.Served)
    (hsafe : l.writer = false → ∀ q r rest, l.waiters = q :: r :: rest → q.id = id →
      q.kind = .write → r.kind ≠ .read) : (l.removeWaiter id).Served := by
  refine ⟨fun hne => h.held fun hnil => hne ?_, fun q' rest' heq hread => ?_⟩
  · simp [Lock.removeWaiter, hnil]
  · by_contra hwriter
    have hwriter' : l.writer = false := Bool.eq_false_iff.mpr hwriter
    rcases hw : l.waiters with _ | ⟨q, rest⟩
    · simp [Lock.removeWaiter, hw] at heq
    · have hq : q.kind = .write := by
        cases hkind : q.kind with
        | write => rfl
        | read => exact absurd (h.front q rest hw hkind) hwriter
      by_cases hid : q.id = id
      · have hrest : rest = q' :: rest' := by simpa [Lock.removeWaiter, hw, hid] using heq
        exact hsafe hwriter' q q' rest' (hrest ▸ hw) hid hq hread
      · obtain ⟨rfl, -⟩ : q = q' ∧ _ := by simpa [Lock.removeWaiter, hw, hid] using heq
        simp [hq] at hread

/-! ## Every slot has an owner -/

/-- The slots that are out are owned, up to `extra` ones, and every queue entry
belongs to a future that is still waiting. -/
structure Owned (w : World) (extra : WaiterKind → Nat) : Prop where
  backed : ∀ kind, w.lock.slots kind ≤ w.owners kind + extra kind
  owner : ∀ q ∈ w.lock.waiters, ∃ f ∈ w.futures,
    f.waiter = some (q.id, q.selected) ∧ f.kind = q.kind ∧ f.acquired = false
  counters : w.lock.nextWaiterId = w.lock.nextCell
  ids : ∀ f ∈ w.futures, ∀ id c, f.waiter = some (id, c) → id = c
  settled : ∀ f ∈ w.futures, f.acquired = true → ∀ c, f.cell = some c →
    w.lock.cells c = true ∧ f.delivered = true

section Owned

variable {w : World} {extra : WaiterKind → Nat} {kind : WaiterKind}

@[simp] theorem acquire_nextWaiterId (l : Lock) (kind : WaiterKind) :
    (l.acquire kind).nextWaiterId = l.nextWaiterId := by cases kind <;> rfl

theorem Owned.acquire (h : Owned w (fun _ => 0)) (hadm : w.lock.Admits kind) :
    Owned { w with lock := w.lock.acquire kind } (one kind) where
  backed k := by
    have hk := h.backed k
    simp only [World.owners, World.guards, acquire_cells, slots_acquire hadm] at hk ⊢
    omega
  owner := by simpa using h.owner
  counters := by simpa using h.counters
  ids := h.ids
  settled := by simpa using h.settled

theorem Owned.addGuard (h : Owned w (one kind)) : Owned (w.addGuard kind) (fun _ => 0) := by
  refine ⟨fun k => ?_, by simpa using h.owner, by simpa using h.counters,
    by simpa using h.ids, by simpa using h.settled⟩
  have hk := h.backed k
  have hguards : (w.addGuard kind).guards k = w.guards k + one kind k := by
    cases kind <;> cases k <;> rfl
  simp only [World.owners, World.addGuard_lock, World.addGuard_futures, hguards] at hk ⊢
  omega

theorem Owned.removeGuard (h : Owned w (fun _ => 0)) (hpos : 0 < w.guards kind) :
    Owned (w.removeGuard kind) (one kind) := by
  refine ⟨fun k => ?_, by simpa using h.owner, by simpa using h.counters,
    by simpa using h.ids, by simpa using h.settled⟩
  have hk := h.backed k
  have hguards := World.removeGuard_guards hpos k
  simp only [World.owners, World.removeGuard_lock, World.removeGuard_futures] at hk ⊢
  omega

/-- The future behind a selected waiter comes to owe the slot. -/
theorem Owned.select {q : Waiter} {rest : List Waiter} (h : Owned w (fun _ => 0))
    (hlinked : Linked w.lock w.futures) (hw : w.lock.waiters = q :: rest)
    (hadm : w.lock.Admits q.kind) :
    Owned { w with lock := w.lock.select q rest } (fun _ => 0) where
  backed k := by
    have hq : q ∈ w.lock.waiters := by simp [hw]
    obtain ⟨f, hf, hwaiter, hkind, hacq⟩ := h.owner q hq
    have hk := (h.acquire hadm).backed k
    have howed := countP_owed_update w.futures (hlinked.unselected q hq) k
    have hclaims : one q.kind k ≤ w.futures.countP (Future.claims q.selected k) := by
      by_cases hqk : k = q.kind
      · have hdel : f.delivered = false := by
          cases hd : f.delivered with
          | false => rfl
          | true => simp [hlinked.delivered f hf hd] at hacq
        have hclaim : f.claims q.selected k = true := by
          simp [Future.claims, Future.cell, hwaiter, hkind, hqk, hdel]
        simpa [one, hqk] using List.countP_pos_iff.mpr ⟨f, hf, hclaim⟩
      · simp [one, hqk]
    have hslots : (w.lock.select q rest).slots k = (w.lock.acquire q.kind).slots k := by
      cases k <;> rfl
    rw [hslots]
    simp only [World.owners, World.guards, Lock.select, acquire_cells] at hk ⊢
    omega
  owner q' hq' := h.owner q' (hw ▸ List.mem_cons_of_mem q hq')
  counters := by simpa [Lock.select] using h.counters
  ids := h.ids
  settled f hf hacq c hc := by
    obtain ⟨hcell, hdel⟩ := h.settled f hf hacq c hc
    refine ⟨?_, hdel⟩
    by_cases hsame : c = q.selected
    · simp [Lock.select, hsame]
    · simpa [Lock.select, hsame] using hcell

theorem Owned.admitReaders {waiters : List Waiter} (h : Owned w (fun _ => 0))
    (hacc : Accounted w (fun _ => 0)) (hw : w.lock.waiters = waiters)
    (hwriter : w.lock.writer = false) :
    Owned { w with lock := admitReaders waiters w.lock } (fun _ => 0) := by
  induction waiters generalizing w with
  | nil => exact h
  | cons q rest ih =>
      cases hkind : q.kind with
      | write => rw [admitReaders_write hkind]; exact h
      | read =>
          rw [admitReaders_read hkind]
          have hadm : w.lock.Admits q.kind := ⟨hwriter, by simp [hkind]⟩
          exact ih (h.select hacc.linked hw hadm) (hacc.select hw hadm) rfl
            (by simpa [Lock.select, Lock.acquire, hkind] using hwriter)

theorem Owned.releaseToNextWaiters (h : Owned w (fun _ => 0))
    (hacc : Accounted w (fun _ => 0)) :
    Owned { w with lock := w.lock.releaseToNextWaiters } (fun _ => 0) := by
  rw [Lock.releaseToNextWaiters]
  split_ifs with hheld
  · exact h
  · simp only [Bool.or_eq_true, decide_eq_true_eq, not_or, Bool.not_eq_true, Nat.not_lt,
      Nat.le_zero] at hheld
    split
    · exact h
    next q rest hwaiters =>
      cases hkind : q.kind with
      | write => exact h.select hacc.linked hwaiters ⟨hheld.1, fun _ => hheld.2⟩
      | read => exact h.admitReaders hacc rfl hheld.1

theorem Owned.release (h : Owned w (one kind)) (hacc : Accounted w (one kind)) :
    Owned { w with lock := w.lock.release kind } (fun _ => 0) := by
  have hgiven : Owned { w with lock := w.lock.giveBack kind } (fun _ => 0) := by
    refine ⟨fun k => ?_, ?_, ?_, h.ids, ?_⟩
    · have hk := h.backed k
      have hgive := giveBack_slots hacc k
      have hcells : (w.lock.giveBack kind).cells = w.lock.cells := by cases kind <;> rfl
      simp only [World.owners, World.guards, hcells] at hk ⊢
      omega
    · cases kind <;> exact h.owner
    · cases kind <;> exact h.counters
    · cases kind <;> exact h.settled
  rw [release_eq]
  exact hgiven.releaseToNextWaiters hacc.giveBack

theorem Owned.replace {f : Future} (h : Owned w extra) (hf : f ∈ w.futures) (f' : Future)
    (extra' : WaiterKind → Nat) (hwaiter : f'.waiter = f.waiter) (hkind : f'.kind = f.kind)
    (hacq : ∀ q ∈ w.lock.waiters, f.cell = some q.selected → f'.acquired = f.acquired)
    (hsettled : f'.acquired = true → ∀ c, f.cell = some c →
      w.lock.cells c = true ∧ f'.delivered = true)
    (howed : ∀ k, (f.owed w.lock.cells k).toNat + extra k ≤
      (f'.owed w.lock.cells k).toNat + extra' k) :
    Owned { w with futures := f' :: w.futures.erase f } extra' where
  backed k := by
    have hk := h.backed k
    have hcount := Counting.countP_replace_add (Future.owed w.lock.cells k) f' hf
    have hle := howed k
    simp only [World.owners, World.guards] at hk ⊢
    omega
  owner q hq := by
    obtain ⟨g, hg, hgw, hgk, hga⟩ := h.owner q hq
    by_cases hfg : g = f
    · subst hfg
      have hcell : g.cell = some q.selected := by simp [Future.cell, hgw]
      exact ⟨f', by simp, hwaiter.trans hgw, hkind.trans hgk, (hacq q hq hcell).trans hga⟩
    · exact ⟨g, List.mem_cons_of_mem f' ((List.mem_erase_of_ne hfg).mpr hg), hgw, hgk, hga⟩
  counters := h.counters
  ids g hg := by
    rcases List.mem_cons.mp hg with rfl | hg
    · rw [hwaiter]
      exact h.ids f hf
    · exact h.ids g (List.mem_of_mem_erase hg)
  settled g hg hga c hc := by
    rcases List.mem_cons.mp hg with rfl | hg
    · exact hsettled hga c (by simpa [Future.cell, hwaiter] using hc)
    · exact h.settled g (List.mem_of_mem_erase hg) hga c hc

/-- Forgetting a future that no queue entry belongs to. -/
theorem Owned.erase {f : Future} (h : Owned w extra) (hf : f ∈ w.futures)
    (extra' : WaiterKind → Nat)
    (hgone : ∀ q ∈ w.lock.waiters, f.waiter ≠ some (q.id, q.selected))
    (howed : ∀ k, (f.owed w.lock.cells k).toNat + extra k ≤ extra' k) :
    Owned { w with futures := w.futures.erase f } extra' where
  backed k := by
    have hk := h.backed k
    have hcount := Counting.countP_erase_add (Future.owed w.lock.cells k) hf
    have hle := howed k
    simp only [World.owners, World.guards] at hk ⊢
    omega
  owner q hq := by
    obtain ⟨g, hg, hgw, hrest⟩ := h.owner q hq
    have hfg : g ≠ f := fun heq => hgone q hq (heq ▸ hgw)
    exact ⟨g, (List.mem_erase_of_ne hfg).mpr hg, hgw, hrest⟩
  counters := h.counters
  ids g hg := h.ids g (List.mem_of_mem_erase hg)
  settled g hg := h.settled g (List.mem_of_mem_erase hg)

theorem Owned.removeWaiter (h : Owned w extra) (id : Nat) :
    Owned { w with lock := w.lock.removeWaiter id } extra where
  backed := h.backed
  owner q hq := h.owner q (List.mem_of_mem_eraseP hq)
  counters := h.counters
  ids := h.ids
  settled := h.settled

theorem Owned.id_eq (h : Owned w extra) {q : Waiter} (hq : q ∈ w.lock.waiters) :
    q.id = q.selected := by
  obtain ⟨f, hf, hfw, -⟩ := h.owner q hq
  exact h.ids f hf _ _ hfw

theorem Owned.enqueue {f : Future} (h : Owned w (fun _ => 0)) (hacc : Accounted w (fun _ => 0))
    (hf : f ∈ w.futures) (hnone : f.waiter = none) (hfresh : f.acquired = false)
    (waker : Waker) :
    Owned { w with
      lock := w.lock.enqueue f.kind waker
      futures := { f with waiter := some (w.lock.nextWaiterId, w.lock.nextCell) } ::
        w.futures.erase f } (fun _ => 0) where
  backed k := by
    have hk := h.backed k
    have hcount := Counting.countP_erase_add (Future.owed w.lock.cells k) hf
    have hsame := hacc.linked.countP_owed_fresh f k
    have hf0 : f.owed w.lock.cells k = false := by simp [Future.owed, Future.cell, hnone]
    have hslots : (w.lock.enqueue f.kind waker).slots k = w.lock.slots k := by cases k <;> rfl
    rw [hslots]
    simp only [World.owners, World.guards, Lock.enqueue, List.countP_cons, hsame, hf0,
      Bool.toNat_false] at hk hcount ⊢
    omega
  owner q hq := by
    rcases List.mem_append.mp hq with hq | hq
    · obtain ⟨g, hg, hgw, hrest⟩ := h.owner q hq
      have hfg : g ≠ f := by
        rintro rfl
        simp [hnone] at hgw
      exact ⟨g, List.mem_cons_of_mem _ ((List.mem_erase_of_ne hfg).mpr hg), hgw, hrest⟩
    · obtain rfl := List.mem_singleton.mp hq
      exact ⟨_, List.mem_cons_self, rfl, rfl, hfresh⟩
  counters := by simpa [Lock.enqueue] using h.counters
  ids g hg id c hgw := by
    rcases List.mem_cons.mp hg with rfl | hg
    · obtain ⟨rfl, rfl⟩ : w.lock.nextWaiterId = id ∧ w.lock.nextCell = c := by simpa using hgw
      exact h.counters
    · exact h.ids g (List.mem_of_mem_erase hg) id c hgw
  settled g hg hga c hc := by
    rcases List.mem_cons.mp hg with rfl | hg
    · simp [hfresh] at hga
    · have hold := List.mem_of_mem_erase hg
      have hlt := hacc.linked.futureBound g hold c hc
      obtain ⟨hcell, hdel⟩ := h.settled g hold hga c hc
      refine ⟨?_, hdel⟩
      simpa [Lock.enqueue, Nat.ne_of_lt hlt] using hcell

end Owned

/-! ## Runs -/

/-- The calls of programs that do not poll a future after `Poll::Ready`. -/
def PollsPending (_ : World) : Op → Prop
  | .poll f _ => f.acquired = false
  | _ => True

/-- The invariant of programs that poll no future after it returned a guard:
the slots are exactly owned. -/
structure Balanced (w : World) : Prop where
  accounted : Accounted w (fun _ => 0)
  owned : Owned w (fun _ => 0)

section Balanced

variable {w : World} {kind : WaiterKind}

theorem balanced_init : Balanced {} where
  accounted := accounted_init
  owned := by
    refine ⟨fun k => ?_, by simp, rfl, by simp, by simp⟩
    cases k <;> simp [Lock.slots]

theorem Balanced.tryAcquire (h : Balanced w) : Balanced (w.tryAcquire kind) := by
  refine ⟨h.accounted.tryAcquire, ?_⟩
  rw [World.tryAcquire]
  split_ifs with hav
  · exact (h.owned.acquire (admits_of_available hav)).addGuard
  · exact h.owned

theorem Balanced.create (h : Balanced w) : Balanced (w.create kind) := by
  refine ⟨h.accounted.create, ⟨?_, ?_, h.owned.counters, ?_, ?_⟩⟩
  · intro k
    simpa [World.owners, World.guards, World.create, List.countP_cons, Future.owed,
      Future.cell] using h.owned.backed k
  · intro q hq
    obtain ⟨f, hf, hrest⟩ := h.owned.owner q hq
    exact ⟨f, List.mem_cons_of_mem _ hf, hrest⟩
  · intro f hf id c hw
    rcases List.mem_cons.mp hf with rfl | hf
    · simp at hw
    · exact h.owned.ids f hf id c hw
  · intro f hf hacq c hc
    rcases List.mem_cons.mp hf with rfl | hf
    · simp at hacq
    · exact h.owned.settled f hf hacq c hc

theorem Owned.poll {f : Future} (h : Owned w (fun _ => 0)) (hacc : Accounted w (fun _ => 0))
    (hf : f ∈ w.futures) (hfresh : f.acquired = false) (waker : Waker) :
    Owned (w.poll f waker) (fun _ => 0) := by
  obtain ⟨hsel, heq⟩ | ⟨hnone, hav, heq⟩ | ⟨hnone, -, heq⟩ | ⟨id, c, -, -, heq⟩ :=
    w.poll_cases f waker
  · have hcell : f.cell.any w.lock.cells = true := isSelected_eq f w.lock ▸ hsel
    have hdel : f.delivered = false := by
      cases hd : f.delivered with
      | false => rfl
      | true => simp [hacc.linked.delivered f hf hd] at hfresh
    have hsettled := h.replace hf { f with acquired := true, delivered := true } (one f.kind)
      rfl rfl (by
        intro q hq hc
        simp [hc, hacc.linked.unselected q hq] at hcell) (by
        intro _ c hc
        exact ⟨by simpa [hc] using hcell, rfl⟩) (by
        intro k
        rw [owed_of_isSelected hsel hdel, toNat_decide_eq_one]
        simp)
    exact heq ▸ hsettled.addGuard
  · have hkept := (h.acquire (admits_of_available hav)).replace hf { f with acquired := true }
      (one f.kind) rfl rfl (by simp [Future.cell, hnone]) (by simp [Future.cell, hnone])
      (by simp [Future.owed, Future.cell, hnone])
    exact heq ▸ hkept.addGuard
  · exact heq ▸ h.enqueue hacc hf hnone hfresh waker
  · have hwaker : Owned { w with lock := { w.lock with
        waiters := setWaker id waker w.lock.waiters } } (fun _ => 0) := by
      refine ⟨h.backed, fun q hq => ?_, h.counters, h.ids, h.settled⟩
      obtain ⟨q', hq', hid, hkind, hsel⟩ := mem_setWaker hq
      rw [← hid, ← hkind, ← hsel]
      exact h.owner q' hq'
    have hkept := hwaker.replace hf f (fun _ => 0) rfl rfl (fun _ _ _ => rfl)
      (fun hacq => by simp [hfresh] at hacq) (fun _ => Nat.le_refl _)
    exact heq ▸ hkept

theorem Owned.dropFuture {f : Future} (h : Owned w (fun _ => 0))
    (hacc : Accounted w (fun _ => 0)) (hf : f ∈ w.futures) :
    Owned (w.dropFuture f) (fun _ => 0) := by
  obtain ⟨hnone, heq⟩ | ⟨id, c, hw, hacq, heq⟩ | ⟨id, c, hw, hacq, hc, heq⟩ |
    ⟨id, c, hw, hacq, hc, heq⟩ := w.dropFuture_cases f
  · exact heq ▸ h.erase hf _ (by simp [hnone]) (by simp [Future.owed, Future.cell, hnone])
  · -- The guard was returned, so the future neither waits nor owes a slot.
    obtain ⟨hset, hdel⟩ := h.settled f hf hacq c (by simp [Future.cell, hw])
    refine heq ▸ h.erase hf _ (fun q hq hfw => ?_) (by simp [Future.owed, hdel])
    obtain ⟨-, rfl⟩ : id = q.id ∧ c = q.selected := by simpa [hw] using hfw
    simp [hacc.linked.unselected q hq] at hset
  · have howed := owed_of_cell hacc.linked hf hw hacq hc
    have hgone := h.erase hf (one f.kind) (by
      intro q hq hfw
      obtain ⟨-, rfl⟩ : id = q.id ∧ c = q.selected := by simpa [hw] using hfw
      simp [hacc.linked.unselected q hq] at hc) (fun k => by simp [howed k])
    exact heq ▸ hgone.release (hacc.erase hf (one f.kind) fun k => by simp [howed k])
  · -- The queue entry goes with the future.
    have hids : (w.lock.waiters.map Waiter.id).Nodup := by
      have hmap : w.lock.waiters.map Waiter.id = w.lock.waiters.map Waiter.selected :=
        List.map_congr_left fun q hq => h.id_eq hq
      exact hmap ▸ hacc.linked.distinct
    refine heq ▸ (h.removeWaiter id).erase hf _ (fun q hq hfw => ?_)
      (fun k => by simp [Future.owed, Future.cell, hw, Lock.removeWaiter, hc])
    obtain ⟨rfl, -⟩ : id = q.id ∧ c = q.selected := by simpa [hw] using hfw
    exact Counting.key_ne_of_mem_eraseP hids hq rfl

theorem Balanced.dropGuard (h : Balanced w) (hpos : 0 < w.guards kind) :
    Balanced (w.dropGuard kind) := by
  refine ⟨h.accounted.dropGuard hpos, ?_⟩
  have hrelease := (h.owned.removeGuard hpos).release (h.accounted.removeGuard hpos)
  cases kind <;> exact hrelease

theorem Balanced.step {w' : World} {op : Op} (h : Balanced w) (hop : PollsPending w op)
    (hstep : step w op = some w') : Balanced w' := by
  cases op with
  | tryRead => exact Option.some.inj hstep ▸ h.tryAcquire
  | tryWrite => exact Option.some.inj hstep ▸ h.tryAcquire
  | read => exact Option.some.inj hstep ▸ h.create
  | write => exact Option.some.inj hstep ▸ h.create
  | poll f waker =>
      obtain ⟨hf, hw'⟩ := Option.ite_none_right_eq_some.mp hstep
      change f.acquired = false at hop
      have hdel : f.delivered = false := by
        cases hd : f.delivered with
        | false => rfl
        | true => simp [h.accounted.linked.delivered f hf hd] at hop
      exact Option.some.inj hw' ▸
        ⟨h.accounted.poll hf hdel waker, h.owned.poll h.accounted hf hop waker⟩
  | dropFuture f =>
      obtain ⟨hf, hw'⟩ := Option.ite_none_right_eq_some.mp hstep
      exact Option.some.inj hw' ▸ ⟨h.accounted.dropFuture hf, h.owned.dropFuture h.accounted hf⟩
  | dropReadGuard =>
      obtain ⟨hpos, hw'⟩ := Option.ite_none_right_eq_some.mp hstep
      exact Option.some.inj hw' ▸ h.dropGuard hpos
  | dropWriteGuard =>
      obtain ⟨hpos, hw'⟩ := Option.ite_none_right_eq_some.mp hstep
      exact Option.some.inj hw' ▸ h.dropGuard hpos

end Balanced

/-- The rule of admission on top of the accounts. -/
structure Orderly (w : World) : Prop where
  accounted : Accounted w (fun _ => 0)
  owned : Owned w (fun _ => 0)
  served : w.lock.Served

/-- Dropping `f` cancels the writer at the front of the queue while no writer
is admitted and a reader is next in line. -/
def World.Uncovers (w : World) (f : Future) : Prop :=
  f.acquired = false ∧ ∃ id c q r rest, f.waiter = some (id, c) ∧ w.lock.cells c = false ∧
    w.lock.writer = false ∧ w.lock.waiters = q :: r :: rest ∧ q.id = id ∧
    q.kind = .write ∧ r.kind = .read

/-- A call of a program that polls no future after it returned a guard and,
besides, does not cancel a writer in front of readers that could run. -/
def KeepsReadersServed (w : World) (op : Op) : Prop :=
  PollsPending w op ∧ ∀ f, op = .dropFuture f → ¬w.Uncovers f

section Orderly

variable {w : World} {kind : WaiterKind}

theorem Orderly.balanced (h : Orderly w) : Balanced w := ⟨h.accounted, h.owned⟩

theorem Lock.Served.tryAcquire (h : w.lock.Served) : (w.tryAcquire kind).lock.Served := by
  rw [World.tryAcquire]
  split_ifs with hav
  · simpa using Lock.Served.acquire hav
  · exact h

theorem Lock.Served.poll (h : w.lock.Served) (f : Future) (waker : Waker) :
    (w.poll f waker).lock.Served := by
  obtain ⟨-, heq⟩ | ⟨-, hav, heq⟩ | ⟨-, hav, heq⟩ | ⟨id, c, -, -, heq⟩ := w.poll_cases f waker
  · simpa [heq] using h
  · simpa [heq] using Lock.Served.acquire hav
  · simpa [heq] using h.enqueue hav waker
  · simpa [heq] using h.setWaker id waker

theorem Lock.Served.dropFuture {f : Future} (h : w.lock.Served)
    (hacc : Accounted w (fun _ => 0)) (hf : f ∈ w.futures) (hcovers : ¬w.Uncovers f) :
    (w.dropFuture f).lock.Served := by
  obtain ⟨-, heq⟩ | ⟨id, c, -, -, heq⟩ | ⟨id, c, hw, hacq, hc, heq⟩ |
    ⟨id, c, hw, hacq, hc, heq⟩ := w.dropFuture_cases f
  · exact heq ▸ h
  · exact heq ▸ h
  · have hgone := hacc.erase hf (one f.kind)
      (fun k => by simp [owed_of_cell hacc.linked hf hw hacq hc])
    rw [heq]
    exact Lock.Served.release (w := { w with futures := w.futures.erase f }) h hgone
  · rw [heq]
    refine h.removeWaiter fun hwriter q r rest hwaiters hid hq hr => ?_
    exact hcovers ⟨hacq, id, c, q, r, rest, hw, hc, hwriter, hwaiters, hid, hq, hr⟩

theorem Lock.Served.dropGuard (h : w.lock.Served) (hacc : Accounted w (fun _ => 0))
    (hpos : 0 < w.guards kind) : (w.dropGuard kind).lock.Served := by
  have hserved : (w.removeGuard kind).lock.Served := by simpa using h
  have hrelease := hserved.release (hacc.removeGuard hpos)
  cases kind <;> exact hrelease

theorem Lock.Served.step {w' : World} {op : Op} (h : w.lock.Served)
    (hacc : Accounted w (fun _ => 0)) (hop : KeepsReadersServed w op)
    (hstep : step w op = some w') : w'.lock.Served := by
  cases op with
  | tryRead => exact Option.some.inj hstep ▸ h.tryAcquire
  | tryWrite => exact Option.some.inj hstep ▸ h.tryAcquire
  | read => exact Option.some.inj hstep ▸ h
  | write => exact Option.some.inj hstep ▸ h
  | poll f waker =>
      obtain ⟨-, hw'⟩ := Option.ite_none_right_eq_some.mp hstep
      exact Option.some.inj hw' ▸ h.poll f waker
  | dropFuture f =>
      obtain ⟨hf, hw'⟩ := Option.ite_none_right_eq_some.mp hstep
      exact Option.some.inj hw' ▸ h.dropFuture hacc hf (hop.2 f rfl)
  | dropReadGuard =>
      obtain ⟨hpos, hw'⟩ := Option.ite_none_right_eq_some.mp hstep
      exact Option.some.inj hw' ▸ h.dropGuard hacc hpos
  | dropWriteGuard =>
      obtain ⟨hpos, hw'⟩ := Option.ite_none_right_eq_some.mp hstep
      exact Option.some.inj hw' ▸ h.dropGuard hacc hpos

theorem Orderly.step {w' : World} {op : Op} (h : Orderly w) (hop : KeepsReadersServed w op)
    (hstep : step w op = some w') : Orderly w' := by
  have hbalanced := h.balanced.step hop.1 hstep
  exact ⟨hbalanced.accounted, hbalanced.owned, h.served.step h.accounted hop hstep⟩

theorem orderly_init : Orderly {} :=
  ⟨balanced_init.accounted, balanced_init.owned, ⟨by simp, by simp⟩⟩

/-- A slot of this kind is held by a live guard, or by a future that was
selected for it and has not been polled since. -/
def World.Holds (w : World) (kind : WaiterKind) : Prop :=
  0 < w.guards kind ∨
    ∃ f ∈ w.futures, f.kind = kind ∧ f.isSelected w.lock = true ∧ f.acquired = false

theorem Orderly.holds (h : Orderly w) (hslots : 0 < w.lock.slots kind) : w.Holds kind := by
  have hback := h.owned.backed kind
  rcases Nat.eq_zero_or_pos (w.guards kind) with hzero | hpos
  · have hcount : 0 < w.futures.countP (Future.owed w.lock.cells kind) := by
      simp only [World.owners] at hback
      omega
    obtain ⟨f, hf, howed⟩ := List.countP_pos_iff.mp hcount
    simp only [Future.owed, Bool.and_eq_true, decide_eq_true_eq, Bool.not_eq_true'] at howed
    obtain ⟨⟨hkind, hcell⟩, hdel⟩ := howed
    refine .inr ⟨f, hf, hkind, isSelected_eq f w.lock ▸ hcell, ?_⟩
    cases hacq : f.acquired with
    | false => rfl
    | true =>
        cases hc : f.cell with
        | none => simp [hc] at hcell
        | some c => simp [(h.owned.settled f hf hacq c hc).2] at hdel
  · exact .inl hpos

/-- A reader at the front of the queue waits for a writer, and a writer at the
front waits for a writer or a reader. -/
def World.NoneStranded (w : World) : Prop :=
  ∀ q rest, w.lock.waiters = q :: rest →
    (q.kind = .read → w.Holds .write) ∧ (q.kind = .write → w.Holds .write ∨ w.Holds .read)

theorem Orderly.noneStranded (h : Orderly w) : w.NoneStranded := by
  intro q rest hw
  refine ⟨fun hread => h.holds ?_, fun _ => ?_⟩
  · simp [Lock.slots, h.served.front q rest hw hread]
  · rcases h.served.held (by simp [hw]) with hwriter | hpos
    · exact .inl (h.holds (by simp [Lock.slots, hwriter]))
    · exact .inr (h.holds hpos)

end Orderly

/-- In every run that never cancels the writer at the front of the queue ahead
of readers that could join the current ones, no waiter that may run stays
queued. -/
theorem noneStranded_of_reachable {w : World}
    (hreach : Transition.Reachable step KeepsReadersServed {} w) : w.NoneStranded := by
  have horderly := hreach.invariant Orderly orderly_init fun _ _ _ h hop hstep => h.step hop hstep
  exact horderly.noneStranded

/-- A writer and then a reader queue behind a read guard. -/
def queueWriterThenReader : List Op :=
  [.tryRead, .write, .poll { kind := .write } 7, .read, .poll { kind := .read } 8]

theorem noneStranded_queueWriterThenReader :
    ∃ w, Transition.Reachable step KeepsReadersServed {} w ∧ w.lock.waiters.length = 2 ∧
      w.NoneStranded := by
  obtain ⟨w, hreach, hw⟩ := Transition.Reachable.exists_of_run step KeepsReadersServed {}
    queueWriterThenReader (fun w => w.lock.waiters.length == 2)
    (by simp [queueWriterThenReader, KeepsReadersServed, PollsPending]) (by decide)
  exact ⟨w, hreach, by simpa using hw, noneStranded_of_reachable hreach⟩

/-- Cancelling that writer leaves the reader at the front of the queue of a
lock that only a reader holds. -/
theorem cancelled_writer_strands_reader :
    ∃ w, Transition.Reachable step PollsPending {} w ∧ ¬w.NoneStranded := by
  obtain ⟨w, hreach, hw⟩ := Transition.Reachable.exists_of_run step PollsPending {}
    (queueWriterThenReader ++ [.dropFuture (firstWaiter .write false)])
    (fun w => w.lock.waiters.map Waiter.kind == [.read] && w.writeGuards == 0 &&
      w.futures.all (·.kind == .read))
    (by simp [queueWriterThenReader, PollsPending]) (by decide)
  refine ⟨w, hreach, fun hnone => ?_⟩
  simp only [Bool.and_eq_true, beq_iff_eq, List.all_eq_true] at hw
  obtain ⟨⟨hkinds, hguards⟩, hreaders⟩ := hw
  obtain ⟨q, hwaiters, hq⟩ := List.map_eq_singleton_iff.mp hkinds
  rcases (hnone q [] hwaiters).1 hq with hpos | ⟨f, hf, hkind, -⟩
  · simp [World.guards, hguards] at hpos
  · simp [hreaders f hf] at hkind

end Runite.Sync.RwLock
