import Runite.Lib.Counting
import Runite.Lib.Table
import Mathlib.Data.List.Range
import Mathlib.Logic.Function.Basic
import Mathlib.Tactic.Common

/-!
# Queues of waiters

A first-in first-out queue of waiters.  A waiter gets a number when it enters
the queue, so numbers are in the order of entry, and a cell that it shares with
the party that waits.  Whoever takes a waiter out of the queue writes the
waiter's cell; the party learns of it there, at a time of its own.  The number
is all a party keeps: its ticket.

`Consistent q tickets` relates a queue to the tickets of all parties.  Its
field `fifo` is the order of the queue: the waiters that were selected, followed
by those still queued, are all that ever entered, in the order of entry, without
those that left on their own.
-/

structure Waiter (ω : Type*) where
  id : Nat
  waker : ω
  deriving DecidableEq, Repr

/-- A queue whose cells hold a `σ`, `default` until the waiter is selected.
`woken`, `selected` and `removed` are histories: the wakers that were woken, the
waiters that were selected and those that were taken out unselected. -/
structure WaitQueue (σ ω : Type*) [Inhabited σ] where
  waiters : List (Waiter ω) := []
  nextId : Nat := 0
  cells : Nat → σ := fun _ => default
  woken : List ω := []
  selected : List Nat := []
  removed : List Nat := []

namespace WaitQueue

open Function

variable {σ ω : Type*} [Inhabited σ]

def ids (q : WaitQueue σ ω) : List Nat := q.waiters.map Waiter.id

/-- A new waiter, with a fresh cell, at the back. -/
def enqueue (q : WaitQueue σ ω) (waker : ω) : WaitQueue σ ω :=
  { q with
    waiters := q.waiters ++ [⟨q.nextId, waker⟩]
    nextId := q.nextId + 1
    cells := update q.cells q.nextId default }

/-- Replace the waker of the first entry with this number. -/
def replaceWaker (id : Nat) (waker : ω) : List (Waiter ω) → List (Waiter ω)
  | [] => []
  | w :: waiters =>
      if w.id = id then { w with waker := waker } :: waiters
      else w :: replaceWaker id waker waiters

/-- Wait: a party without a ticket enters the queue, another renews its waker. -/
def await (q : WaitQueue σ ω) (ticket : Option Nat) (waker : ω) :
    WaitQueue σ ω × Option Nat :=
  match ticket with
  | some id => ({ q with waiters := replaceWaker id waker q.waiters }, some id)
  | none => (q.enqueue waker, some q.nextId)

/-- Take the first entry with this number out of the queue. -/
def remove (q : WaitQueue σ ω) (id : Nat) : WaitQueue σ ω :=
  if id ∈ q.ids then
    { q with waiters := q.waiters.eraseP (·.id = id), removed := q.removed ++ [id] }
  else q

/-- Take out the front waiter, write its cell and wake it. -/
def popFront (q : WaitQueue σ ω) (value : σ) : Option (WaitQueue σ ω) :=
  match q.waiters with
  | [] => none
  | w :: waiters =>
      some { q with
        waiters := waiters
        cells := update q.cells w.id value
        woken := q.woken ++ [w.waker]
        selected := q.selected ++ [w.id] }

/-- Take out every waiter, write their cells and then wake them, in order. -/
def popAll (q : WaitQueue σ ω) (value : σ) : WaitQueue σ ω :=
  { q with
    waiters := []
    cells := q.waiters.foldl (fun cells w => update cells w.id value) q.cells
    woken := q.woken ++ q.waiters.map Waiter.waker
    selected := q.selected ++ q.ids }

/-- What the cell behind a ticket holds is selected by `p`. -/
def holds (q : WaitQueue σ ω) (p : σ → Bool) (ticket : Option Nat) : Bool :=
  ticket.any fun id => p (q.cells id)

/-- How the queue, the cells and the tickets of all parties fit together. -/
structure Consistent (q : WaitQueue σ ω) (tickets : List (Option Nat)) : Prop where
  fifo : q.selected ++ q.ids = (List.range q.nextId).filter fun id => id ∉ q.removed
  removedBound : ∀ id ∈ q.removed, id < q.nextId
  unselected : ∀ id ∈ q.ids, q.cells id = default
  unshared : ∀ id, tickets.count (some id) ≤ 1
  issued : ∀ id, some id ∈ tickets → id < q.nextId
  owned : ∀ id ∈ q.ids, some id ∈ tickets
  queued : ∀ id, some id ∈ tickets → q.cells id = default → id ∈ q.ids

/-! ## Tickets -/

section Tickets

variable {tickets : List (Option Nat)} {k : Nat} {old new : Option Nat}

theorem count_set (hk : tickets[k]? = some old) (new : Option Nat) (id : Nat) :
    (tickets.set k new).count (some id) + (if old = some id then 1 else 0) =
      tickets.count (some id) + (if new = some id then 1 else 0) := by
  have hcount := Counting.countP_set_add (· == some id) new hk
  have hite : ∀ t : Option Nat, (t == some id).toNat = if t = some id then 1 else 0 := by
    intro t
    by_cases ht : t = some id
    · simp [ht]
    · simp [ht, beq_false_of_ne ht]
  rwa [hite, hite] at hcount

/-- A ticket that nobody else has is gone once it is given up. -/
theorem mem_set_iff (hunshared : ∀ id, tickets.count (some id) ≤ 1)
    (hk : tickets[k]? = some old) (id : Nat) :
    some id ∈ tickets.set k new ↔ new = some id ∨ old ≠ some id ∧ some id ∈ tickets := by
  have hcount := count_set hk new id
  have hone := hunshared id
  have hpos : old = some id → 0 < tickets.count (some id) := fun h =>
    List.count_pos_iff.mpr (h ▸ List.mem_of_getElem? hk)
  rw [← List.count_pos_iff, ← List.count_pos_iff]
  by_cases hnew : new = some id
  · rw [if_pos hnew] at hcount
    refine iff_of_true ?_ (.inl hnew)
    split at hcount
    next hold =>
      have := hpos hold
      omega
    next => omega
  · rw [if_neg hnew] at hcount
    rw [or_iff_right hnew]
    split at hcount
    next hold => exact iff_of_false (by omega) fun h => h.1 hold
    next hold =>
      rw [and_iff_right hold]
      omega

theorem unshared_set (hunshared : ∀ id, tickets.count (some id) ≤ 1)
    (hk : tickets[k]? = some old) (hnew : new = none ∨ new = old ∨ new ∉ tickets) (id : Nat) :
    (tickets.set k new).count (some id) ≤ 1 := by
  have hcount := count_set hk new id
  have hone := hunshared id
  by_cases hid : new = some id
  · subst hid
    rcases hnew with h | rfl | hfresh
    · cases h
    · omega
    · have hzero : tickets.count (some id) = 0 := List.count_eq_zero.mpr hfresh
      rw [if_pos rfl] at hcount
      omega
  · rw [if_neg hid] at hcount
    omega

end Tickets

/-! ## Order of entry -/

section Order

variable {past queue removed : List Nat} {n id : Nat}

theorem order_enter (h : past ++ queue = (List.range n).filter fun i => i ∉ removed)
    (hremoved : ∀ i ∈ removed, i < n) :
    past ++ (queue ++ [n]) = (List.range (n + 1)).filter fun i => i ∉ removed := by
  have hnew : n ∉ removed := fun hr => Nat.lt_irrefl _ (hremoved _ hr)
  have hfilter : ([n].filter fun i => i ∉ removed) = [n] := by simp [hnew]
  rw [List.range_succ, List.filter_append, hfilter, ← h, List.append_assoc]

theorem order_leave (h : past ++ queue = (List.range n).filter fun i => i ∉ removed)
    (hid : id ∈ queue) :
    past ++ queue.erase id = (List.range n).filter fun i => i ∉ removed ++ [id] := by
  have hnodup : (past ++ queue).Nodup := h ▸ List.nodup_range.filter _
  have hpast : id ∉ past := fun hs => (List.nodup_append.mp hnodup).2.2 id hs id hid rfl
  calc past ++ queue.erase id
      = (past ++ queue).erase id := by rw [List.erase_append_right _ hpast]
    _ = (past ++ queue).filter (· ≠ id) := by
        rw [hnodup.erase_eq_filter]
        exact List.filter_congr fun i _ => by by_cases hi : i = id <;> simp [hi]
    _ = (List.range n).filter fun i => i ∉ removed ++ [id] := by
        rw [h, List.filter_filter]
        exact List.filter_congr fun i _ => by simp [and_comm]

end Order

/-! ## Operations keep the queue consistent -/

section Operations

variable {q : WaitQueue σ ω} {tickets : List (Option Nat)} {k : Nat} {id : Nat}

@[simp] theorem isEmpty_waiters (q : WaitQueue σ ω) : q.waiters.isEmpty = true ↔ q.ids = [] := by
  simp [ids]

@[simp] theorem ids_enqueue (q : WaitQueue σ ω) (waker : ω) :
    (q.enqueue waker).ids = q.ids ++ [q.nextId] := by
  simp [ids, enqueue]

theorem map_id_replaceWaker (id : Nat) (waker : ω) (waiters : List (Waiter ω)) :
    (replaceWaker id waker waiters).map Waiter.id = waiters.map Waiter.id := by
  induction waiters with
  | nil => rfl
  | cons w waiters ih =>
      rw [replaceWaker]
      split
      · rfl
      · simp [ih]

theorem nodup_history (h : q.Consistent tickets) : (q.selected ++ q.ids).Nodup :=
  h.fifo ▸ List.nodup_range.filter _

theorem mem_history_iff (h : q.Consistent tickets) :
    id ∈ q.selected ++ q.ids ↔ id < q.nextId ∧ id ∉ q.removed := by
  rw [h.fifo]
  simp

theorem lt_of_mem_ids (h : q.Consistent tickets) (hid : id ∈ q.ids) : id < q.nextId :=
  ((mem_history_iff h).mp (List.mem_append_right _ hid)).1

theorem Consistent.init : ({} : WaitQueue σ ω).Consistent [] where
  fifo := rfl
  removedBound := by simp
  unselected := by simp [ids]
  unshared := by simp
  issued := by simp
  owned := by simp [ids]
  queued := by simp

theorem Consistent.join (h : q.Consistent tickets) : q.Consistent (tickets ++ [none]) where
  fifo := h.fifo
  removedBound := h.removedBound
  unselected := h.unselected
  unshared id := by simpa using h.unshared id
  issued id hid := h.issued id (by simpa using hid)
  owned id hid := by simpa using h.owned id hid
  queued id hid := h.queued id (by simpa using hid)

/-- A party gives up a ticket that is no longer queued. -/
theorem Consistent.leave (h : q.Consistent tickets) {old : Option Nat}
    (hk : tickets[k]? = some old) (hold : ∀ id, old = some id → id ∉ q.ids) :
    q.Consistent (tickets.set k none) where
  fifo := h.fifo
  removedBound := h.removedBound
  unselected := h.unselected
  unshared := unshared_set h.unshared hk (.inl rfl)
  issued id hid := by
    rw [mem_set_iff h.unshared hk] at hid
    obtain hnone | ⟨-, hmem⟩ := hid
    · cases hnone
    · exact h.issued id hmem
  owned id hid := by
    rw [mem_set_iff h.unshared hk]
    exact .inr ⟨fun heq => hold id heq hid, h.owned id hid⟩
  queued id hid hcell := by
    rw [mem_set_iff h.unshared hk] at hid
    obtain hnone | ⟨-, hmem⟩ := hid
    · cases hnone
    · exact h.queued id hmem hcell

theorem Consistent.enqueue (h : q.Consistent tickets) (waker : ω)
    (hk : tickets[k]? = some none) :
    (q.enqueue waker).Consistent (tickets.set k (some q.nextId)) := by
  have hfresh : some q.nextId ∉ tickets := fun hmem => Nat.lt_irrefl _ (h.issued _ hmem)
  have hmem : ∀ id, some id ∈ tickets.set k (some q.nextId) ↔
      q.nextId = id ∨ some id ∈ tickets := by
    intro id
    rw [mem_set_iff h.unshared hk]
    simp
  refine ⟨?_, ?_, ?_, unshared_set h.unshared hk (.inr (.inr hfresh)), ?_, ?_, ?_⟩
  · rw [ids_enqueue]
    exact order_enter h.fifo h.removedBound
  · intro id hid
    exact Nat.lt_succ_of_lt (h.removedBound id hid)
  · intro id hid
    rw [ids_enqueue, List.mem_append, List.mem_singleton] at hid
    rcases hid with hid | rfl
    · have hne : id ≠ q.nextId := Nat.ne_of_lt (lt_of_mem_ids h hid)
      simpa [WaitQueue.enqueue, hne] using h.unselected id hid
    · simp [WaitQueue.enqueue]
  · intro id hid
    rcases (hmem id).mp hid with rfl | hid
    · exact Nat.lt_succ_self _
    · exact Nat.lt_succ_of_lt (h.issued id hid)
  · intro id hid
    rw [ids_enqueue, List.mem_append, List.mem_singleton] at hid
    rcases hid with hid | rfl
    · exact (hmem id).mpr (.inr (h.owned id hid))
    · exact (hmem _).mpr (.inl rfl)
  · intro id hid hcell
    rw [ids_enqueue, List.mem_append, List.mem_singleton]
    rcases (hmem id).mp hid with rfl | hid
    · exact .inr rfl
    · have hne : id ≠ q.nextId := Nat.ne_of_lt (h.issued id hid)
      exact .inl (h.queued id hid (by simpa [WaitQueue.enqueue, hne] using hcell))

theorem Consistent.await {ticket : Option Nat} (h : q.Consistent tickets) (waker : ω)
    (hk : tickets[k]? = some ticket) :
    (q.await ticket waker).1.Consistent (tickets.set k (q.await ticket waker).2) := by
  cases ticket with
  | none => exact h.enqueue waker hk
  | some id =>
      have hids : (q.await (some id) waker).1.ids = q.ids := map_id_replaceWaker id waker _
      have hset : tickets.set k (q.await (some id) waker).2 = tickets := Table.set_eq_self hk
      rw [hset]
      constructor
      · rw [hids]; exact h.fifo
      · exact h.removedBound
      · rw [hids]; exact h.unselected
      · exact h.unshared
      · exact h.issued
      · rw [hids]; exact h.owned
      · rw [hids]; exact h.queued

@[simp] theorem remove_nextId (q : WaitQueue σ ω) (id : Nat) :
    (q.remove id).nextId = q.nextId := by
  rw [WaitQueue.remove]; split <;> rfl

@[simp] theorem remove_cells (q : WaitQueue σ ω) (id : Nat) :
    (q.remove id).cells = q.cells := by
  rw [WaitQueue.remove]; split <;> rfl

@[simp] theorem remove_selected (q : WaitQueue σ ω) (id : Nat) :
    (q.remove id).selected = q.selected := by
  rw [WaitQueue.remove]; split <;> rfl

theorem remove_removed (hid : id ∈ q.ids) : (q.remove id).removed = q.removed ++ [id] := by
  rw [WaitQueue.remove, if_pos hid]

theorem remove_ids (hid : id ∈ q.ids) : (q.remove id).ids = q.ids.erase id := by
  have hids : (q.remove id).ids = (q.waiters.eraseP (·.id = id)).map Waiter.id := by
    rw [WaitQueue.remove, if_pos hid, ids]
  rw [hids, Counting.map_eraseP_key, ids]

theorem Consistent.remove (h : q.Consistent tickets) (hk : tickets[k]? = some (some id))
    (hid : id ∈ q.ids) : (q.remove id).Consistent (tickets.set k none) := by
  have hnodup : q.ids.Nodup := (nodup_history h).of_append_right
  have hne : ∀ i, i ∈ (q.remove id).ids ↔ i ≠ id ∧ i ∈ q.ids := by
    intro i
    rw [remove_ids hid, hnodup.mem_erase_iff]
  refine ⟨?_, ?_, ?_, unshared_set h.unshared hk (.inl rfl), ?_, ?_, ?_⟩
  · rw [remove_selected, remove_ids hid, remove_nextId, remove_removed hid]
    exact order_leave h.fifo hid
  · intro i hi
    rw [remove_removed hid, List.mem_append, List.mem_singleton] at hi
    rw [remove_nextId]
    rcases hi with hi | rfl
    · exact h.removedBound i hi
    · exact lt_of_mem_ids h hid
  · intro i hi
    rw [remove_cells]
    exact h.unselected i ((hne i).mp hi).2
  · intro i hi
    rw [mem_set_iff h.unshared hk] at hi
    rw [remove_nextId]
    obtain hnone | ⟨-, hmem⟩ := hi
    · cases hnone
    · exact h.issued i hmem
  · intro i hi
    obtain ⟨hi, hmem⟩ := (hne i).mp hi
    rw [mem_set_iff h.unshared hk]
    exact .inr ⟨fun he => hi (Option.some.inj he).symm, h.owned i hmem⟩
  · intro i hi hcell
    rw [mem_set_iff h.unshared hk] at hi
    rw [remove_cells] at hcell
    obtain hnone | ⟨hi, hmem⟩ := hi
    · cases hnone
    · exact (hne i).mpr ⟨fun he => hi (he ▸ rfl), h.queued i hmem hcell⟩

/-- `q'` is `q` after its front waiter `id` was selected. -/
structure Popped (q q' : WaitQueue σ ω) (value : σ) (id : Nat) : Prop where
  ids : q.ids = id :: q'.ids
  cells : q'.cells = update q.cells id value
  selected : q'.selected = q.selected ++ [id]
  nextId : q'.nextId = q.nextId
  removed : q'.removed = q.removed

theorem exists_popped {q' : WaitQueue σ ω} {value : σ} (hpop : q.popFront value = some q') :
    ∃ id, Popped q q' value id := by
  rw [popFront] at hpop
  split at hpop
  next => cases hpop
  next w waiters hw =>
    obtain rfl := Option.some.inj hpop
    exact ⟨w.id, by rw [ids, hw]; rfl, rfl, rfl, rfl, rfl⟩

theorem popFront_eq_none {value : σ} (hpop : q.popFront value = none) : q.ids = [] := by
  rw [popFront] at hpop
  split at hpop
  next hw => rw [ids, hw, List.map_nil]
  next => cases hpop

theorem Consistent.popped {q' : WaitQueue σ ω} {value : σ} (h : q.Consistent tickets)
    (hvalue : value ≠ default) (hpop : Popped q q' value id) : q'.Consistent tickets := by
  have hmem : ∀ i ∈ q'.ids, i ∈ q.ids := fun i hi => hpop.ids ▸ List.mem_cons_of_mem _ hi
  have hnodup : (id :: q'.ids).Nodup := hpop.ids ▸ (nodup_history h).of_append_right
  refine ⟨?_, ?_, ?_, h.unshared, ?_, ?_, ?_⟩
  · rw [hpop.selected, hpop.nextId, hpop.removed, ← h.fifo, hpop.ids, List.append_assoc,
      List.singleton_append]
  · rw [hpop.removed, hpop.nextId]
    exact h.removedBound
  · intro i hi
    have hne : i ≠ id := fun he => (List.nodup_cons.mp hnodup).1 (he ▸ hi)
    rw [hpop.cells, update_of_ne hne]
    exact h.unselected i (hmem i hi)
  · rw [hpop.nextId]
    exact h.issued
  · exact fun i hi => h.owned i (hmem i hi)
  · intro i hi hcell
    rw [hpop.cells] at hcell
    by_cases he : i = id
    · rw [he, update_self] at hcell
      exact absurd hcell hvalue
    · rw [update_of_ne he] at hcell
      have hqueued := h.queued i hi hcell
      rw [hpop.ids] at hqueued
      exact (List.mem_cons.mp hqueued).resolve_left he

omit [Inhabited σ] in
theorem foldl_update (waiters : List (Waiter ω)) (cells : Nat → σ) (value : σ) (id : Nat) :
    waiters.foldl (fun cells w => update cells w.id value) cells id =
      if id ∈ waiters.map Waiter.id then value else cells id := by
  induction waiters generalizing cells with
  | nil => simp
  | cons w waiters ih =>
      rw [List.foldl_cons, ih]
      by_cases hid : id = w.id
      · subst hid
        simp
      · simp [hid]

theorem popAll_cells (q : WaitQueue σ ω) (value : σ) (id : Nat) :
    (q.popAll value).cells id = if id ∈ q.ids then value else q.cells id :=
  foldl_update q.waiters q.cells value id

theorem Consistent.popAll {value : σ} (h : q.Consistent tickets) (hvalue : value ≠ default) :
    (q.popAll value).Consistent tickets := by
  have hids : (q.popAll value).ids = [] := rfl
  refine ⟨?_, h.removedBound, ?_, h.unshared, h.issued, ?_, ?_⟩
  · rw [hids, List.append_nil]
    exact h.fifo
  · simp [hids]
  · simp [hids]
  · intro id hid hcell
    rw [popAll_cells] at hcell
    split at hcell
    next => exact absurd hcell hvalue
    next hnot => exact absurd (h.queued id hid hcell) hnot

end Operations

/-! ## Parties that were selected -/

section Holders

variable {q q' : WaitQueue σ ω} {tickets : List (Option Nat)} {k : Nat} {id : Nat}
  {p : σ → Bool} {value : σ}

/-- The parties whose cells hold a value selected by `p`. -/
def holders (q : WaitQueue σ ω) (p : σ → Bool) (tickets : List (Option Nat)) : Nat :=
  tickets.countP (q.holds p)

@[simp] theorem holds_none (q : WaitQueue σ ω) (p : σ → Bool) : q.holds p none = false := rfl

@[simp] theorem holds_some (q : WaitQueue σ ω) (p : σ → Bool) (id : Nat) :
    q.holds p (some id) = p (q.cells id) := rfl

@[simp] theorem holders_join (q : WaitQueue σ ω) (p : σ → Bool) (tickets : List (Option Nat)) :
    q.holders p (tickets ++ [none]) = q.holders p tickets := by
  simp [holders]

/-- A party that gives up its ticket takes what its cell holds with it. -/
theorem holders_leave {old : Option Nat} (hk : tickets[k]? = some old) :
    q.holders p (tickets.set k none) + (q.holds p old).toNat = q.holders p tickets := by
  have hcount := Counting.countP_set_add (q.holds p) none hk
  simpa [holders] using hcount

theorem holders_congr (hcells : ∀ id, some id ∈ tickets → q'.cells id = q.cells id) :
    q'.holders p tickets = q.holders p tickets := by
  apply List.countP_congr
  intro t ht
  cases t with
  | none => rfl
  | some id => rw [holds_some, holds_some, hcells id ht]

/-- Selecting a waiter adds its party to the holders of the value. -/
theorem holders_popped (h : q.Consistent tickets) (hdefault : p default = false)
    (hpop : Popped q q' value id) :
    q'.holders p tickets = q.holders p tickets + (p value).toNat := by
  have hid : id ∈ q.ids := hpop.ids ▸ List.mem_cons_self
  have hcell := h.unselected id hid
  have hone : tickets.count (some id) = 1 := by
    have hpos := List.count_pos_iff.mpr (h.owned id hid)
    have hle := h.unshared id
    omega
  cases hp : p value with
  | false =>
      apply List.countP_congr
      intro t _
      cases t with
      | none => rfl
      | some i =>
          rw [holds_some, holds_some, hpop.cells]
          by_cases hi : i = id
          · rw [hi, update_self, hcell, hp, hdefault]
          · rw [update_of_ne hi]
  | true =>
      rw [Bool.toNat_true, ← hone]
      apply Counting.countP_eq_add_of_disjoint
      · intro t _
        cases t with
        | none => rfl
        | some i =>
            rw [holds_some, holds_some, hpop.cells]
            by_cases hi : i = id
            · simp [hi, hp]
            · simp [hi]
      · intro t _ ht
        cases t with
        | none => rfl
        | some i =>
            by_cases hi : i = id
            · rw [hi, holds_some, hcell, hdefault] at ht
              cases ht
            · simp [hi]

/-- Writing all queued cells makes no new holders of other values. -/
theorem holders_popAll (h : q.Consistent tickets) (hdefault : p default = false)
    (hvalue : p value = false) : (q.popAll value).holders p tickets = q.holders p tickets := by
  apply List.countP_congr
  intro t _
  cases t with
  | none => rfl
  | some i =>
      rw [holds_some, holds_some, popAll_cells]
      split
      next hi => rw [hvalue, h.unselected i hi, hdefault]
      next => rfl

/-- A party whose waiter is still queued holds nothing, and leaves with nothing. -/
theorem holders_remove (hdefault : p default = false) (hk : tickets[k]? = some (some id))
    (hcell : q.cells id = default) :
    (q.remove id).holders p (tickets.set k none) = q.holders p tickets := by
  have hleave := holders_leave (q := q) (p := p) hk
  have hcells : (q.remove id).holders p (tickets.set k none) =
      q.holders p (tickets.set k none) :=
    holders_congr fun j _ => by rw [remove_cells]
  rw [holds_some, hcell, hdefault] at hleave
  rw [hcells]
  exact hleave

/-- Waiting changes no cell of a ticket that was out before. -/
theorem await_cells {ticket : Option Nat} (waker : ω) (hid : id < q.nextId) :
    (q.await ticket waker).1.cells id = q.cells id := by
  cases ticket with
  | none => exact update_of_ne (Nat.ne_of_lt hid) _ _
  | some i => rfl

/-- The new ticket of a party that waits holds nothing that it did not hold before. -/
theorem holds_await (ticket : Option Nat) (waker : ω) (hdefault : p default = false) :
    (q.await ticket waker).1.holds p (q.await ticket waker).2 = q.holds p ticket := by
  cases ticket with
  | none => simp [WaitQueue.await, WaitQueue.enqueue, hdefault]
  | some id => rfl

theorem holders_await {ticket : Option Nat} (h : q.Consistent tickets) (waker : ω)
    (hdefault : p default = false) (hk : tickets[k]? = some ticket) :
    (q.await ticket waker).1.holders p (tickets.set k (q.await ticket waker).2) =
      q.holders p tickets := by
  have hcount := Counting.countP_set_add ((q.await ticket waker).1.holds p)
    (q.await ticket waker).2 hk
  have hold : (q.await ticket waker).1.holds p ticket = q.holds p ticket := by
    cases ticket with
    | none => rfl
    | some id => rfl
  have hcongr : (q.await ticket waker).1.holders p tickets = q.holders p tickets :=
    holders_congr fun id hid => await_cells waker (h.issued id hid)
  rw [holds_await ticket waker hdefault, hold] at hcount
  rw [holders] at hcongr ⊢
  omega

/-- The tickets of the parties whose cells hold a value selected by `p`. -/
def held (q : WaitQueue σ ω) (p : σ → Bool) (tickets : List (Option Nat)) : List Nat :=
  tickets.filterMap fun t => t.filter fun id => p (q.cells id)

theorem length_held (q : WaitQueue σ ω) (p : σ → Bool) (tickets : List (Option Nat)) :
    (q.held p tickets).length = q.holders p tickets := by
  rw [held, holders, List.length_filterMap_eq_countP]
  apply List.countP_congr
  intro t _
  cases t with
  | none => rfl
  | some id => simp [Option.isSome_filter]

theorem mem_held : id ∈ q.held p tickets ↔ some id ∈ tickets ∧ p (q.cells id) = true := by
  simp [held, Option.filter_eq_some_iff]

/-- While there is at most one holder, its number is all there is to know. -/
theorem held_eq_singleton (hone : q.holders p tickets ≤ 1) (hid : some id ∈ tickets)
    (hcell : p (q.cells id) = true) : q.held p tickets = [id] := by
  have hmem := mem_held.mpr ⟨hid, hcell⟩
  have hlength := length_held q p tickets
  have hpos := List.length_pos_of_mem hmem
  obtain ⟨i, hi⟩ := List.length_eq_one_iff.mp (show (q.held p tickets).length = 1 by omega)
  rw [hi] at hmem ⊢
  rw [List.mem_singleton.mp hmem]

theorem held_eq_of_keep {tickets' : List (Option Nat)} (hone : q.holders p tickets ≤ 1)
    (hcount : q'.holders p tickets' = q.holders p tickets)
    (hkeep : ∀ id, some id ∈ tickets → p (q.cells id) = true →
      some id ∈ tickets' ∧ p (q'.cells id) = true) :
    q'.held p tickets' = q.held p tickets := by
  cases hheld : q.held p tickets with
  | nil =>
      have hlength := length_held q p tickets
      rw [hheld, List.length_nil] at hlength
      exact List.eq_nil_of_length_eq_zero (by rw [length_held, hcount, ← hlength])
  | cons id ids =>
      obtain ⟨hid, hcell⟩ := mem_held.mp (hheld ▸ List.mem_cons_self : id ∈ q.held p tickets)
      obtain ⟨hid', hcell'⟩ := hkeep id hid hcell
      rw [held_eq_singleton (hcount ▸ hone) hid' hcell', ← hheld, held_eq_singleton hone hid hcell]

theorem held_eq_nil (hnone : q.holders p tickets = 0) : q.held p tickets = [] :=
  List.eq_nil_of_length_eq_zero (by rw [length_held, hnone])

end Holders

end WaitQueue
