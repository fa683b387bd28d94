import Runite.Task
import Runite.Lib.Transition
import Runite.Lib.HandOff

/-!
# The mutex

`sync::Mutex`, the future behind `lock` and the guard.  The lock is handed over
directly: a release with waiters queued keeps the flag set and selects the
front waiter, which owns the lock from then on although it has no guard yet.

`World` is a mutex with everything safe code can hold on to it, and `step` is
one call.  The waiters it counts are numbered in the order in which they
entered the queue.
-/

namespace Runite.Sync.Mutex

/-- `Mutex<T>` without its value.  The ids of its waiters do not wrap, which is the same
for the first 2^64 of them. -/
structure Lock where
  locked : Bool := false
  queue : WaitQueue Bool Waker := {}

/-- `Mutex::try_lock`; `true` is a new guard. -/
def Lock.tryLock (m : Lock) : Lock × Bool :=
  if m.locked || !m.queue.waiters.isEmpty then (m, false)
  else ({ m with locked := true }, true)

def Lock.releaseToNextWaiter (m : Lock) : Lock :=
  match m.queue.popFront true with
  | some queue => { locked := true, queue := queue }
  | none => { m with locked := false }

structure LockFuture where
  waiter : Option Nat := none
  acquired : Bool := false
  deriving DecidableEq, Repr

/-- `LockFuture::poll`; `true` is `Poll::Ready` with a new guard. -/
def LockFuture.poll (f : LockFuture) (m : Lock) (waker : Waker) : Lock × LockFuture × Bool :=
  if m.queue.holds id f.waiter then (m, { f with acquired := true }, true)
  else if f.waiter.isNone && !m.locked && m.queue.waiters.isEmpty then
    ({ m with locked := true }, { f with acquired := true }, true)
  else
    let (queue, waiter) := m.queue.await f.waiter waker
    ({ m with queue := queue }, { f with waiter := waiter }, false)

/-- `Drop for LockFuture`. -/
def LockFuture.drop (f : LockFuture) (m : Lock) : Lock :=
  match f.waiter with
  | none => m
  | some id =>
      if f.acquired then m
      else if m.queue.cells id then m.releaseToNextWaiter
      else { m with queue := m.queue.remove id }

/-- The future of the `async fn lock`.  It drops its `LockFuture` when it
returns the guard, and panics without an effect when it is polled again. -/
inductive Call
  | active (f : LockFuture)
  | returned
  | dropped
  deriving DecidableEq, Repr

/-- The waiter of a future that did not return yet. -/
def Call.ticket : Call → Option Nat
  | .active f => f.waiter
  | .returned => none
  | .dropped => none

/-- A mutex, the futures of `lock` by order of creation and the live guards.
`acquired` and `abandoned` are the waiters that returned a guard and those that
were dropped after they had been selected. -/
structure World where
  mutex : Lock := {}
  calls : List Call := []
  guards : Nat := 0
  acquired : List Nat := []
  abandoned : List Nat := []

inductive Op
  | tryLock
  | lock
  | poll (call : Nat) (waker : Waker)
  | dropCall (call : Nat)
  | dropGuard
  deriving DecidableEq, Repr

/-- `try_lock`, keeping the guard it may return. -/
def World.tryLock (w : World) : World :=
  let (mutex, locked) := w.mutex.tryLock
  { w with mutex := mutex, guards := w.guards + locked.toNat }

/-- Poll the future `call`, which holds `f`. -/
def World.poll (w : World) (call : Nat) (f : LockFuture) (waker : Waker) : World :=
  let (mutex, f', ready) := f.poll w.mutex waker
  if ready then
    { w with
      mutex := f'.drop mutex
      calls := w.calls.set call .returned
      guards := w.guards + 1
      acquired := w.acquired ++ f.waiter.toList }
  else { w with mutex := mutex, calls := w.calls.set call (.active f') }

/-- Drop the future `call`, which holds `f`. -/
def World.dropCall (w : World) (call : Nat) (f : LockFuture) : World :=
  { w with
    mutex := f.drop w.mutex
    calls := w.calls.set call .dropped
    abandoned := w.abandoned ++ (f.waiter.filter w.mutex.queue.cells).toList }

/-- One call of a program; `none` when it has no such future or guard. -/
def step (w : World) : Op → Option World
  | .tryLock => some w.tryLock
  | .lock => some { w with calls := w.calls ++ [.active {}] }
  | .poll call waker =>
      match w.calls[call]? with
      | some (.active f) => some (w.poll call f waker)
      | some .returned => some w
      | some .dropped => none
      | none => none
  | .dropCall call =>
      match w.calls[call]? with
      | some (.active f) => some (w.dropCall call f)
      | some .returned => some { w with calls := w.calls.set call .dropped }
      | some .dropped => none
      | none => none
  | .dropGuard =>
      if 0 < w.guards then
        some { w with mutex := w.mutex.releaseToNextWaiter, guards := w.guards - 1 }
      else none

def World.tickets (w : World) : List (Option Nat) := w.calls.map Call.ticket

/-- The waiters that were selected and whose futures have not returned the
guard yet. -/
def World.selected (w : World) : List Nat := w.mutex.queue.held id w.tickets

/-! ## Ownership -/

/-- The lock is the only slot: free, or owned by one of `out` parties or by the
future that was selected. -/
abbrev Owned (m : Lock) (tickets : List (Option Nat)) (out : Nat) : Prop :=
  m.queue.Slots tickets out (!m.locked).toNat 1

section Owned

variable {m : Lock} {tickets : List (Option Nat)} {out : Nat}

/-- A release starts the next ownership, if there is a waiter. -/
theorem Owned.releaseToNextWaiter (h : Owned m tickets (out + 1)) :
    Owned m.releaseToNextWaiter tickets out := by
  have hlocked : (!m.locked).toNat = 0 := by
    have hbalance := h.balance
    omega
  rw [Owned, hlocked] at h
  rw [Lock.releaseToNextWaiter]
  split
  next queue hpop =>
    obtain ⟨i, hpop⟩ := WaitQueue.exists_popped hpop
    exact h.handOver hpop
  next hpop => exact h.giveBack (WaitQueue.popFront_eq_none hpop)

theorem Owned.acquire (h : Owned m tickets out) (hlocked : m.locked = false) :
    Owned { m with locked := true } tickets (out + 1) := by
  rw [Owned, hlocked] at h
  exact h.take

theorem Owned.holders_le (h : Owned m tickets out) : m.queue.holders id tickets + out ≤ 1 := by
  have hbalance := h.balance
  omega

end Owned

/-! ## Order -/

/-- The waiters that acquired the lock, and the one that was selected for it,
are those that were ever selected and not abandoned, in the order of selection. -/
structure Ordered (q : WaitQueue Bool Waker) (tickets : List (Option Nat))
    (acquired abandoned : List Nat) : Prop where
  order : acquired ++ q.held id tickets = q.selected.filter fun i => i ∉ abandoned
  past : ∀ i ∈ abandoned, i ∈ q.selected

section Ordered

variable {m : Lock} {tickets : List (Option Nat)} {out k : Nat} {acquired abandoned : List Nat}

theorem Ordered.releaseToNextWaiter (h : Ordered m.queue tickets acquired abandoned)
    (howned : Owned m tickets (out + 1)) :
    Ordered m.releaseToNextWaiter.queue tickets acquired abandoned := by
  have hnext := howned.releaseToNextWaiter.holders_le
  have hnone : m.queue.holders id tickets = 0 := by
    have hle := howned.holders_le
    omega
  rw [Lock.releaseToNextWaiter] at hnext ⊢
  split at hnext
  next queue hpop =>
    obtain ⟨i, hpop⟩ := WaitQueue.exists_popped hpop
    have hid : i ∈ m.queue.ids := hpop.ids ▸ List.mem_cons_self
    have hheld : queue.held id tickets = [i] :=
      WaitQueue.held_eq_singleton (Nat.le_of_add_right_le hnext) (howned.queue.owned i hid)
        (by simp [hpop.cells])
    -- The new waiter was queued until now, so it was not abandoned before.
    have hfresh : i ∉ abandoned := fun hmem =>
      (List.nodup_append.mp (WaitQueue.nodup_history howned.queue)).2.2 i (h.past i hmem) i hid rfl
    refine ⟨?_, fun j hj => hpop.selected ▸ List.mem_append_left _ (h.past j hj)⟩
    have horder := h.order
    rw [WaitQueue.held_eq_nil hnone, List.append_nil] at horder
    rw [hheld, hpop.selected, List.filter_append, ← horder]
    simp [hfresh]
  next => exact h

/-- A change of the queue that keeps the selected waiter. -/
theorem Ordered.of_keep {q' : WaitQueue Bool Waker} {tickets' : List (Option Nat)}
    (h : Ordered m.queue tickets acquired abandoned) (howned : Owned m tickets out)
    (hselected : q'.selected = m.queue.selected)
    (hcount : q'.holders id tickets' = m.queue.holders id tickets)
    (hkeep : ∀ i, some i ∈ tickets → m.queue.cells i = true →
      some i ∈ tickets' ∧ q'.cells i = true) :
    Ordered q' tickets' acquired abandoned := by
  refine ⟨?_, fun i hi => hselected ▸ h.past i hi⟩
  rw [WaitQueue.held_eq_of_keep (Nat.le_of_add_right_le howned.holders_le) hcount hkeep, hselected]
  exact h.order

theorem Ordered.acquire {i : Nat} (h : Ordered m.queue tickets acquired abandoned)
    (howned : Owned m tickets out) (hk : tickets[k]? = some (some i))
    (hcell : m.queue.cells i = true) :
    Ordered m.queue (tickets.set k none) (acquired ++ [i]) abandoned := by
  refine ⟨?_, h.past⟩
  have hle := howned.holders_le
  have hleave := WaitQueue.holders_leave (q := m.queue) (p := id) hk
  rw [WaitQueue.holds_some, hcell] at hleave
  simp only [id, Bool.toNat_true] at hleave
  have hheld : m.queue.held id tickets = [i] :=
    WaitQueue.held_eq_singleton (by omega) (List.mem_of_getElem? hk) hcell
  rw [WaitQueue.held_eq_nil (by omega), List.append_nil, ← h.order, hheld]

/-- The selected waiter is dropped before it returned its guard. -/
theorem Ordered.abandon {i : Nat} (h : Ordered m.queue tickets acquired abandoned)
    (howned : Owned m tickets out) (hk : tickets[k]? = some (some i))
    (hcell : m.queue.cells i = true) :
    Ordered m.queue (tickets.set k none) acquired (abandoned ++ [i]) := by
  have hle := howned.holders_le
  have hleave := WaitQueue.holders_leave (q := m.queue) (p := id) hk
  rw [WaitQueue.holds_some, hcell] at hleave
  simp only [id, Bool.toNat_true] at hleave
  have hheld : m.queue.held id tickets = [i] :=
    WaitQueue.held_eq_singleton (by omega) (List.mem_of_getElem? hk) hcell
  have horder := h.order
  rw [hheld] at horder
  have hnodup : (acquired ++ [i]).Nodup := by
    rw [horder]
    exact (WaitQueue.nodup_history howned.queue).of_append_left.filter _
  have hfresh : i ∉ acquired := fun hi =>
    (List.nodup_append.mp hnodup).2.2 i hi i (List.mem_singleton_self i) rfl
  have hselected : i ∈ m.queue.selected := by
    have hmem : i ∈ m.queue.selected.filter fun j => j ∉ abandoned := by
      rw [← horder]
      simp
    exact List.mem_of_mem_filter hmem
  constructor
  · calc acquired ++ m.queue.held id (tickets.set k none)
        = acquired := by rw [WaitQueue.held_eq_nil (by omega), List.append_nil]
      _ = (acquired ++ [i]).filter (· ≠ i) := by
          rw [List.filter_append, List.filter_eq_self.mpr]
          · simp
          · intro j hj
            simpa using fun he : j = i => hfresh (he ▸ hj)
      _ = m.queue.selected.filter fun j => j ∉ abandoned ++ [i] := by
          rw [horder, List.filter_filter]
          exact List.filter_congr fun j _ => by simp [and_comm]
  · intro j hj
    rcases List.mem_append.mp hj with hj | hj
    · exact h.past j hj
    · exact List.mem_singleton.mp hj ▸ hselected

end Ordered

/-! ## Runs -/

structure Sound (w : World) : Prop where
  owned : Owned w.mutex w.tickets w.guards
  ordered : Ordered w.mutex.queue w.tickets w.acquired w.abandoned
  fresh : ∀ f, Call.active f ∈ w.calls → f.acquired = false

section Sound

variable {w : World} {call : Nat} {f : LockFuture}

theorem Sound.init : Sound {} where
  owned := .init 1
  ordered := ⟨rfl, by simp⟩
  fresh := by simp

theorem tickets_set (w : World) (call : Nat) (c : Call) :
    (w.calls.set call c).map Call.ticket = w.tickets.set call c.ticket :=
  List.map_set

theorem tickets_set_none {c : Call} (hk : w.tickets[call]? = some none) (hc : c.ticket = none) :
    (w.calls.set call c).map Call.ticket = w.tickets := by
  rw [tickets_set, hc]
  exact Table.set_eq_self hk

theorem fresh_set {calls : List Call} {c : Call} (call : Nat)
    (hcalls : ∀ f, .active f ∈ calls → f.acquired = false)
    (hc : ∀ f, c = .active f → f.acquired = false) :
    ∀ f, .active f ∈ calls.set call c → f.acquired = false := by
  intro f hf
  rcases List.mem_or_eq_of_mem_set hf with hf | hf
  · exact hcalls f hf
  · exact hc f hf.symm

theorem Sound.tryLock (h : Sound w) : Sound w.tryLock := by
  cases hbusy : w.mutex.locked || !w.mutex.queue.waiters.isEmpty with
  | true =>
      have heq : w.tryLock = w := by simp [World.tryLock, Lock.tryLock, hbusy]
      rw [heq]
      exact h
  | false =>
      have heq : w.tryLock =
          { w with mutex := { w.mutex with locked := true }, guards := w.guards + 1 } := by
        simp [World.tryLock, Lock.tryLock, hbusy]
      rw [Bool.or_eq_false_iff] at hbusy
      rw [heq]
      exact ⟨h.owned.acquire hbusy.1, h.ordered, h.fresh⟩

theorem Sound.lock (h : Sound w) : Sound { w with calls := w.calls ++ [.active {}] } := by
  have htickets : (w.calls ++ [Call.active {}]).map Call.ticket = w.tickets ++ [none] := by
    simp [World.tickets, Call.ticket]
  refine ⟨?_, ?_, ?_⟩
  · rw [World.tickets, htickets]
    exact h.owned.join
  · rw [World.tickets, htickets]
    exact h.ordered.of_keep h.owned rfl (WaitQueue.holders_join _ _ _)
      fun i hi hcell => ⟨List.mem_append_left _ hi, hcell⟩
  · intro f hf
    rcases List.mem_append.mp hf with hf | hf
    · exact h.fresh f hf
    · obtain rfl : f = {} := by simpa using hf
      rfl

/-- The three outcomes of a poll: the selected waiter returns its guard, the
fast path is taken, or the future waits. -/
theorem World.poll_cases (w : World) (call : Nat) (f : LockFuture) (waker : Waker) :
    (∃ i, f.waiter = some i ∧ w.mutex.queue.cells i = true ∧ w.poll call f waker =
      { w with
        calls := w.calls.set call .returned
        guards := w.guards + 1
        acquired := w.acquired ++ [i] }) ∨
    (f.waiter = none ∧ w.mutex.locked = false ∧ w.mutex.queue.ids = [] ∧
      w.poll call f waker =
        { w with
          mutex := { w.mutex with locked := true }
          calls := w.calls.set call .returned
          guards := w.guards + 1 }) ∨
    (w.mutex.queue.holds id f.waiter = false ∧
      (f.waiter = none → w.mutex.locked = true ∨ w.mutex.queue.ids ≠ []) ∧
      w.poll call f waker =
        { w with
          mutex := { w.mutex with queue := (w.mutex.queue.await f.waiter waker).1 }
          calls := w.calls.set call
            (.active { f with waiter := (w.mutex.queue.await f.waiter waker).2 }) }) := by
  cases hsel : w.mutex.queue.holds id f.waiter with
  | true =>
      obtain ⟨i, hi, hcell⟩ : ∃ i, f.waiter = some i ∧ w.mutex.queue.cells i = true := by
        cases hw : f.waiter with
        | none => simp [hw] at hsel
        | some i => exact ⟨i, rfl, by simpa [hw] using hsel⟩
      refine .inl ⟨i, hi, hcell, ?_⟩
      simp [World.poll, LockFuture.poll, LockFuture.drop, hi, hcell]
  | false =>
      cases hfast : f.waiter.isNone && !w.mutex.locked && w.mutex.queue.waiters.isEmpty with
      | true =>
          simp only [Bool.and_eq_true, Option.isNone_iff_eq_none, Bool.not_eq_true',
            WaitQueue.isEmpty_waiters] at hfast
          obtain ⟨⟨hw, hlocked⟩, hids⟩ := hfast
          have hempty := (WaitQueue.isEmpty_waiters _).mpr hids
          refine .inr (.inl ⟨hw, hlocked, hids, ?_⟩)
          simp [World.poll, LockFuture.poll, LockFuture.drop, hw, hlocked, hempty]
      | false =>
          refine .inr (.inr ⟨rfl, fun hw => ?_, ?_⟩)
          · rw [hw, Option.isNone_none, Bool.true_and, Bool.and_eq_false_iff] at hfast
            exact hfast.imp (by simp) (by simp [WaitQueue.ids])
          · simp [World.poll, LockFuture.poll, hsel, hfast]

theorem Sound.poll (h : Sound w) (hcall : w.calls[call]? = some (.active f)) (waker : Waker) :
    Sound (w.poll call f waker) := by
  have hk : w.tickets[call]? = some f.waiter :=
    Table.getElem?_map_eq_some.mpr ⟨_, hcall, rfl⟩
  have hmem := List.mem_of_getElem? hcall
  have hreturned := fresh_set (c := .returned) call h.fresh (by simp)
  rcases w.poll_cases call f waker with ⟨i, hi, hcell, heq⟩ | ⟨hw, hlocked, -, heq⟩ |
    ⟨hsel, hwait, heq⟩
  · rw [heq]
    rw [hi] at hk
    refine ⟨?_, ?_, hreturned⟩
    · rw [World.tickets, tickets_set]
      exact h.owned.collect hk hcell
    · rw [World.tickets, tickets_set]
      exact h.ordered.acquire h.owned hk hcell
  · rw [heq]
    rw [hw] at hk
    refine ⟨?_, ?_, hreturned⟩
    · rw [World.tickets, tickets_set_none hk rfl]
      exact Owned.acquire h.owned hlocked
    · rw [World.tickets, tickets_set_none hk rfl]
      exact h.ordered
  · rw [heq]
    have hfree : (!w.mutex.locked).toNat = 0 :=
      h.owned.free_eq_zero_of_wait hk hsel fun hw => (hwait hw).imp (by simp +contextual) id
    refine ⟨?_, ?_, ?_⟩
    · have howned := h.owned
      rw [Owned, hfree] at howned
      rw [World.tickets, tickets_set, Owned, hfree]
      exact howned.await hk waker
    · rw [World.tickets, tickets_set]
      exact h.ordered.of_keep h.owned (by cases f.waiter <;> rfl)
        (WaitQueue.holders_await h.owned.queue waker rfl hk)
        fun i hi hcell => h.owned.await_keep hk hsel waker hi hcell
    · exact fresh_set call h.fresh (by rintro g ⟨⟩; exact h.fresh f hmem)

/-- The three outcomes of dropping a future that did not return: it never
waited, it passes on the lock it was selected for, or it leaves the queue. -/
theorem World.dropCall_cases (w : World) (call : Nat) (f : LockFuture)
    (hacquired : f.acquired = false) :
    (f.waiter = none ∧ w.dropCall call f = { w with calls := w.calls.set call .dropped }) ∨
    (∃ i, f.waiter = some i ∧ w.mutex.queue.cells i = true ∧ w.dropCall call f =
      { w with
        mutex := w.mutex.releaseToNextWaiter
        calls := w.calls.set call .dropped
        abandoned := w.abandoned ++ [i] }) ∨
    (∃ i, f.waiter = some i ∧ w.mutex.queue.cells i = false ∧ w.dropCall call f =
      { w with
        mutex := { w.mutex with queue := w.mutex.queue.remove i }
        calls := w.calls.set call .dropped }) := by
  cases hw : f.waiter with
  | none => exact .inl ⟨rfl, by simp [World.dropCall, LockFuture.drop, hw]⟩
  | some i =>
      cases hcell : w.mutex.queue.cells i with
      | true =>
          refine .inr (.inl ⟨i, rfl, hcell, ?_⟩)
          simp [World.dropCall, LockFuture.drop, hw, hacquired, hcell]
      | false =>
          refine .inr (.inr ⟨i, rfl, hcell, ?_⟩)
          simp [World.dropCall, LockFuture.drop, hw, hacquired, hcell]

theorem Sound.dropCall (h : Sound w) (hcall : w.calls[call]? = some (.active f)) :
    Sound (w.dropCall call f) := by
  have hk : w.tickets[call]? = some f.waiter :=
    Table.getElem?_map_eq_some.mpr ⟨_, hcall, rfl⟩
  have hdropped := fresh_set (c := .dropped) call h.fresh (by simp)
  rcases w.dropCall_cases call f (h.fresh f (List.mem_of_getElem? hcall)) with
    ⟨hw, heq⟩ | ⟨i, hw, hcell, heq⟩ | ⟨i, hw, hcell, heq⟩
  · rw [hw] at hk
    rw [heq]
    refine ⟨?_, ?_, hdropped⟩
    · rw [World.tickets, tickets_set_none hk rfl]
      exact h.owned
    · rw [World.tickets, tickets_set_none hk rfl]
      exact h.ordered
  · rw [hw] at hk
    rw [heq]
    have hcollect := h.owned.collect hk hcell
    refine ⟨?_, ?_, hdropped⟩
    · rw [World.tickets, tickets_set]
      exact Owned.releaseToNextWaiter hcollect
    · rw [World.tickets, tickets_set]
      exact (h.ordered.abandon h.owned hk hcell).releaseToNextWaiter hcollect
  · rw [hw] at hk
    rw [heq]
    have hcancel := h.owned.cancel hk hcell
    refine ⟨?_, ?_, hdropped⟩
    · rw [World.tickets, tickets_set]
      exact hcancel
    · rw [World.tickets, tickets_set]
      refine h.ordered.of_keep h.owned (WaitQueue.remove_selected _ _) ?_
        fun j hj hset => h.owned.cancel_keep hk hcell hj hset
      have hbalance := h.owned.balance
      have hcancelled := hcancel.balance
      change (w.mutex.queue.remove i).holders id (w.tickets.set call none) = _
      omega

theorem Sound.dropReturned (h : Sound w) (hcall : w.calls[call]? = some .returned) :
    Sound { w with calls := w.calls.set call .dropped } := by
  have hk : w.tickets[call]? = some none := Table.getElem?_map_eq_some.mpr ⟨_, hcall, rfl⟩
  refine ⟨?_, ?_, fresh_set call h.fresh (by simp)⟩
  · rw [World.tickets, tickets_set_none hk rfl]
    exact h.owned
  · rw [World.tickets, tickets_set_none hk rfl]
    exact h.ordered

theorem Sound.dropGuard (h : Sound w) (hpos : 0 < w.guards) :
    Sound { w with mutex := w.mutex.releaseToNextWaiter, guards := w.guards - 1 } := by
  have howned : Owned w.mutex w.tickets (w.guards - 1 + 1) := by
    rw [Nat.sub_add_cancel hpos]
    exact h.owned
  exact ⟨howned.releaseToNextWaiter, h.ordered.releaseToNextWaiter howned, h.fresh⟩

theorem Sound.step {w' : World} {op : Op} (h : Sound w) (hs : step w op = some w') : Sound w' := by
  cases op with
  | tryLock =>
      obtain rfl := Option.some.inj hs
      exact h.tryLock
  | lock =>
      obtain rfl := Option.some.inj hs
      exact h.lock
  | poll call waker =>
      simp only [Mutex.step] at hs
      split at hs
      next f hcall =>
        obtain rfl := Option.some.inj hs
        exact h.poll hcall waker
      next =>
        obtain rfl := Option.some.inj hs
        exact h
      next => cases hs
      next => cases hs
  | dropCall call =>
      simp only [Mutex.step] at hs
      split at hs
      next f hcall =>
        obtain rfl := Option.some.inj hs
        exact h.dropCall hcall
      next hcall =>
        obtain rfl := Option.some.inj hs
        exact h.dropReturned hcall
      next => cases hs
      next => cases hs
  | dropGuard =>
      obtain ⟨hpos, hs⟩ := Option.ite_none_right_eq_some.mp hs
      obtain rfl := Option.some.inj hs
      exact h.dropGuard hpos

theorem Sound.acquired_eq (h : Sound w) :
    w.acquired ++ w.selected ++ w.mutex.queue.ids =
      (List.range w.mutex.queue.nextId).filter
        (fun i => i ∉ w.mutex.queue.removed ∧ i ∉ w.abandoned) := by
  have hnodup := WaitQueue.nodup_history h.owned.queue
  have hqueued : w.mutex.queue.ids.filter (fun i => i ∉ w.abandoned) = w.mutex.queue.ids := by
    refine List.filter_eq_self.mpr fun i hi => decide_eq_true fun hmem => ?_
    exact (List.nodup_append.mp hnodup).2.2 i (h.ordered.past i hmem) i hi rfl
  calc w.acquired ++ w.selected ++ w.mutex.queue.ids
      = (w.mutex.queue.selected ++ w.mutex.queue.ids).filter fun i => i ∉ w.abandoned := by
        rw [World.selected, h.ordered.order, List.filter_append, hqueued]
    _ = ((List.range w.mutex.queue.nextId).filter fun i => i ∉ w.mutex.queue.removed).filter
          fun i => i ∉ w.abandoned := by rw [h.owned.queue.fifo]
    _ = _ := by
        rw [List.filter_filter]
        exact List.filter_congr fun i _ => by simp [and_comm]

end Sound

open Transition

/-- Every program using a mutex: there is at most one guard, the flag is set
for exactly one owner, a guard or a selected future, and always while a waiter
is queued; the waiters that acquired the lock, the one that is selected and
those still queued are all that ever queued, in the order in which they did,
without those whose futures were dropped first; and `try_lock` returns a guard
only when nothing is queued. -/
theorem handoff_of_reachable {w : World} (hreach : Reachable step (fun _ _ => True) {} w) :
    w.guards ≤ 1 ∧
    (w.mutex.locked = true ↔
      w.guards = 1 ∧ w.selected = [] ∨ w.guards = 0 ∧ ∃ i, w.selected = [i]) ∧
    (w.mutex.locked = false → w.guards = 0 ∧ w.selected = []) ∧
    (w.mutex.queue.waiters ≠ [] → w.mutex.locked = true) ∧
    w.acquired ++ w.selected ++ w.mutex.queue.ids =
      (List.range w.mutex.queue.nextId).filter
        (fun i => i ∉ w.mutex.queue.removed ∧ i ∉ w.abandoned) ∧
    (w.mutex.tryLock.2 = true → w.mutex.queue.waiters = []) := by
  have h : Sound w := hreach.invariant Sound Sound.init fun _ _ _ h _ hs => h.step hs
  have hbalance := h.owned.balance
  have hlength : w.selected.length = w.mutex.queue.holders id w.tickets :=
    WaitQueue.length_held _ _ _
  refine ⟨by omega, ?_, ?_, ?_, h.acquired_eq, ?_⟩
  · cases hlocked : w.mutex.locked with
    | false =>
        rw [hlocked, Bool.not_false, Bool.toNat_true] at hbalance
        refine iff_of_false (by simp) ?_
        rintro (⟨hone, -⟩ | ⟨-, i, hi⟩)
        · omega
        · rw [hi, List.length_singleton] at hlength
          omega
    | true =>
        rw [hlocked, Bool.not_true, Bool.toNat_false] at hbalance
        refine iff_of_true rfl ?_
        by_cases hguards : w.guards = 1
        · exact .inl ⟨hguards, List.eq_nil_of_length_eq_zero (by omega)⟩
        · exact .inr ⟨by omega, List.length_eq_one_iff.mp (by omega)⟩
  · intro hlocked
    rw [hlocked, Bool.not_false, Bool.toNat_true] at hbalance
    exact ⟨by omega, List.eq_nil_of_length_eq_zero (by omega)⟩
  · intro hne
    have hfree := h.owned.free_eq_zero (by simpa [WaitQueue.ids] using hne)
    simpa using hfree
  · intro hlock
    by_contra hne
    rw [Lock.tryLock, if_pos (by simp [hne])] at hlock
    cases hlock

/-- Two futures queue behind a guard, the first one is selected and dropped, and
the second one gets the lock. -/
theorem handoff_after_abandoned :
    ∃ w, Reachable step (fun _ _ => True) {} w ∧ w.mutex.queue.nextId = 2 ∧
      w.abandoned = [0] ∧ w.guards ≤ 1 ∧
      w.acquired ++ w.selected ++ w.mutex.queue.ids = [1] := by
  obtain ⟨w, hreach, hw⟩ := Reachable.exists_of_run step (fun _ _ => True) {}
    [.tryLock, .lock, .lock, .poll 0 7, .poll 1 8, .dropGuard, .dropCall 0, .poll 1 8]
    (fun w => w.mutex.queue.nextId == 2 && w.abandoned == [0] && w.mutex.queue.removed == [])
    (by simp) (by decide)
  obtain ⟨hguards, -, -, -, horder, -⟩ := handoff_of_reachable hreach
  simp only [Bool.and_eq_true, beq_iff_eq] at hw
  obtain ⟨⟨hnext, habandoned⟩, hremoved⟩ := hw
  refine ⟨w, hreach, hnext, habandoned, hguards, ?_⟩
  rw [horder, hnext, habandoned, hremoved]
  decide

end Runite.Sync.Mutex
