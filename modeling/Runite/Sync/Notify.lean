import Runite.Task
import Runite.Lib.Transition
import Runite.Lib.WaitQueue

/-!
# Notifications

`sync::Notify` and the future behind `notified`.  A call of `notify_one` selects
the oldest waiter or stores the permit; `notify_waiters` selects all waiters and
stores nothing.  A future that was selected by `notify_one` and is dropped
before it completes calls `notify_one` again, on behalf of the first call.

Calls of `notify_one` made by a program are numbered.  A selection and the
stored permit remember the calls they come from, which the source does not, so
that each call can be followed to the future that it completes.
-/

namespace Runite.Sync.Notify

/-- `Selection`; `one` remembers the call of `notify_one`. -/
inductive Selection
  | pending
  | one (notification : Nat)
  | waiters
  deriving DecidableEq, Repr, Inhabited

/-- `Notify`; `stored` remembers the calls that the permit stands for.  The ids of its
waiters do not wrap, which is the same for the first 2^64 of them. -/
structure State where
  permit : Bool := false
  stored : List Nat := []
  queue : WaitQueue Selection Waker := {}

/-- `Notify::notify_one`, on behalf of the call `notification`. -/
def State.notifyOne (n : State) (notification : Nat) : State :=
  match n.queue.popFront (.one notification) with
  | some queue => { n with queue := queue }
  | none => { n with permit := true, stored := n.stored ++ [notification] }

def State.notifyWaiters (n : State) : State :=
  { n with queue := n.queue.popAll .waiters }

structure Notified where
  waiter : Option Nat := none
  done : Bool := false
  deriving DecidableEq, Repr

/-- The waiter was selected by either call. -/
def Selection.isSelected (s : Selection) : Bool := s != .pending

/-- The calls of `notify_one` that a selection stands for. -/
def Selection.notifications : Selection → List Nat
  | .pending => []
  | .one notification => [notification]
  | .waiters => []

/-- `Notified::poll`.  `Poll::Ready` comes with the calls of `notify_one` that
the future consumed, which the source does not return. -/
def Notified.poll (f : Notified) (n : State) (waker : Waker) :
    State × Notified × Poll (List Nat) :=
  if n.queue.holds Selection.isSelected f.waiter then
    (n, { f with done := true },
      .ready ((f.waiter.map fun id => (n.queue.cells id).notifications).getD []))
  else if f.waiter.isNone && n.permit then
    ({ n with permit := false, stored := [] }, { f with done := true }, .ready n.stored)
  else
    let (queue, waiter) := n.queue.await f.waiter waker
    ({ n with queue := queue }, { f with waiter := waiter }, .pending)

/-- `Drop for Notified`. -/
def Notified.drop (f : Notified) (n : State) : State :=
  if f.done then n
  else
    match f.waiter with
    | none => n
    | some id =>
        match n.queue.cells id with
        | .pending => { n with queue := n.queue.remove id }
        | .one notification => n.notifyOne notification
        | .waiters => n

/-- The future of the `async fn notified`.  It drops its `Notified` when it
returns, and panics without an effect when it is polled again.  A future that
returned remembers the calls of `notify_one` that it consumed. -/
inductive Call
  | active (f : Notified)
  | returned (consumed : List Nat)
  | dropped (consumed : List Nat)
  deriving DecidableEq, Repr

/-- The waiter of a future that did not return yet. -/
def Call.ticket : Call → Option Nat
  | .active f => f.waiter
  | .returned _ => none
  | .dropped _ => none

/-- The calls of `notify_one` that completed this future. -/
def Call.consumed : Call → List Nat
  | .active _ => []
  | .returned consumed => consumed
  | .dropped consumed => consumed

/-- A `Notify`, the futures of `notified` by order of creation, the number of
calls of `notify_one`, and the waiters that were queued at calls of
`notify_waiters`. -/
structure World where
  notify : State := {}
  calls : List Call := []
  notifications : Nat := 0
  broadcast : List Nat := []

inductive Op
  | notifyOne
  | notifyWaiters
  | notified
  | poll (call : Nat) (waker : Waker)
  | dropCall (call : Nat)
  deriving DecidableEq, Repr

/-- `notify_one`, as a new call. -/
def World.notifyOne (w : World) : World :=
  { w with
    notify := w.notify.notifyOne w.notifications
    notifications := w.notifications + 1 }

def World.notifyWaiters (w : World) : World :=
  { w with
    notify := w.notify.notifyWaiters
    broadcast := w.broadcast ++ w.notify.queue.ids }

/-- Poll the future `call`, which holds `f`. -/
def World.poll (w : World) (call : Nat) (f : Notified) (waker : Waker) : World :=
  match f.poll w.notify waker with
  | (notify, f', .ready consumed) =>
      { w with notify := f'.drop notify, calls := w.calls.set call (.returned consumed) }
  | (notify, f', .pending) =>
      { w with notify := notify, calls := w.calls.set call (.active f') }

/-- Drop the future `call`, which holds `f`. -/
def World.dropCall (w : World) (call : Nat) (f : Notified) : World :=
  { w with notify := f.drop w.notify, calls := w.calls.set call (.dropped []) }

/-- One call of a program; `none` when it has no such future. -/
def step (w : World) : Op → Option World
  | .notifyOne => some w.notifyOne
  | .notifyWaiters => some w.notifyWaiters
  | .notified => some { w with calls := w.calls ++ [.active {}] }
  | .poll call waker =>
      match w.calls[call]? with
      | some (.active f) => some (w.poll call f waker)
      | some (.returned _) => some w
      | some (.dropped _) => none
      | none => none
  | .dropCall call =>
      match w.calls[call]? with
      | some (.active f) => some (w.dropCall call f)
      | some (.returned consumed) => some { w with calls := w.calls.set call (.dropped consumed) }
      | some (.dropped _) => none
      | none => none

def World.tickets (w : World) : List (Option Nat) := w.calls.map Call.ticket

/-- The live futures that were selected on behalf of a call of `notify_one` and
have not completed yet. -/
def World.holders (w : World) (notification : Nat) : Nat :=
  w.notify.queue.holders (· == .one notification) w.tickets

/-- How often a call of `notify_one` completed a future. -/
def World.consumed (w : World) (notification : Nat) : Nat :=
  (w.calls.flatMap Call.consumed).count notification

/-! ## Every notification is somewhere -/

/-- Each call `t` of `notify_one` that was made, `total t` times, is stored as
the permit, held by a selected future, or one of `out t` others; and a permit is
stored only while nobody waits. -/
structure Delivered (n : State) (tickets : List (Option Nat)) (out total : Nat → Nat) : Prop where
  queue : n.queue.Consistent tickets
  permit : n.permit = true → n.queue.ids = []
  stored : n.permit = true ↔ n.stored ≠ []
  balance : ∀ t, n.stored.count t + n.queue.holders (· == .one t) tickets + out t = total t

section Delivered

variable {n : State} {tickets : List (Option Nat)} {out total : Nat → Nat} {k i : Nat}
  {ticket : Option Nat}

theorem toNat_beq_one (s : Selection) (t : Nat) :
    (s == .one t).toNat = s.notifications.count t := by
  cases s with
  | pending => rfl
  | one notification =>
      by_cases heq : notification = t
      · simp [Selection.notifications, heq]
      · simp [Selection.notifications, heq]
  | waiters => rfl

/-- A notification goes to the oldest waiter, or to the permit. -/
theorem Delivered.notifyOne {notification : Nat}
    (h : Delivered n tickets (fun t => out t + [notification].count t) total) :
    Delivered (n.notifyOne notification) tickets out total := by
  rw [State.notifyOne]
  split
  next queue hpop =>
    obtain ⟨i, hpop⟩ := WaitQueue.exists_popped hpop
    have hselected : Selection.one notification ≠ default := nofun
    refine ⟨h.queue.popped hselected hpop, fun hpermit => ?_, h.stored, fun t => ?_⟩
    · have hnil := h.permit hpermit
      rw [hpop.ids] at hnil
      cases hnil
    · have hcount := WaitQueue.holders_popped (p := (· == .one t)) h.queue rfl hpop
      have hbalance := h.balance t
      have hone := toNat_beq_one (.one notification) t
      simp only [Selection.notifications] at hone
      simp only at hbalance hcount ⊢
      omega
  next hpop =>
    refine ⟨h.queue, fun _ => WaitQueue.popFront_eq_none hpop, by simp, fun t => ?_⟩
    have hbalance := h.balance t
    simp only [List.count_append] at hbalance ⊢
    omega

theorem Delivered.notifyWaiters (h : Delivered n tickets out total) :
    Delivered n.notifyWaiters tickets out total := by
  refine ⟨h.queue.popAll nofun, fun _ => rfl, h.stored, fun t => ?_⟩
  rw [State.notifyWaiters, WaitQueue.holders_popAll h.queue rfl rfl]
  exact h.balance t

theorem Delivered.join (h : Delivered n tickets out total) :
    Delivered n (tickets ++ [none]) out total := by
  refine ⟨h.queue.join, h.permit, h.stored, fun t => ?_⟩
  rw [WaitQueue.holders_join]
  exact h.balance t

/-- A selected future leaves, and its notification is out. -/
theorem Delivered.collect (h : Delivered n tickets out total) (hk : tickets[k]? = some (some i))
    (hsel : n.queue.cells i ≠ .pending) :
    Delivered n (tickets.set k none) (fun t => out t + (n.queue.cells i).notifications.count t)
      total := by
  refine ⟨h.queue.leave hk ?_, h.permit, h.stored, fun t => ?_⟩
  · rintro j ⟨⟩ hmem
    exact hsel (h.queue.unselected i hmem)
  · have hbalance := h.balance t
    have hleave := WaitQueue.holders_leave (q := n.queue) (p := (· == .one t)) hk
    rw [WaitQueue.holds_some, toNat_beq_one] at hleave
    omega

theorem Delivered.takePermit (h : Delivered n tickets out total) :
    Delivered { n with permit := false, stored := [] } tickets
      (fun t => out t + n.stored.count t) total := by
  refine ⟨h.queue, by simp, by simp, fun t => ?_⟩
  have hbalance := h.balance t
  simp only [List.count_nil]
  omega

theorem Delivered.cancel (h : Delivered n tickets out total) (hk : tickets[k]? = some (some i))
    (hcell : n.queue.cells i = .pending) :
    Delivered { n with queue := n.queue.remove i } (tickets.set k none) out total := by
  have hid := h.queue.queued i (List.mem_of_getElem? hk) hcell
  refine ⟨h.queue.remove hk hid, fun hpermit => ?_, h.stored, fun t => ?_⟩
  · rw [h.permit hpermit] at hid
    cases hid
  · rw [WaitQueue.holders_remove rfl hk hcell]
    exact h.balance t

theorem Delivered.await (h : Delivered n tickets out total) (hk : tickets[k]? = some ticket)
    (hpermit : n.permit = false) (waker : Waker) :
    Delivered { n with queue := (n.queue.await ticket waker).1 }
      (tickets.set k (n.queue.await ticket waker).2) out total := by
  refine ⟨h.queue.await waker hk, fun htrue => ?_, h.stored, fun t => ?_⟩
  · rw [hpermit] at htrue
    cases htrue
  · rw [WaitQueue.holders_await h.queue waker rfl hk]
    exact h.balance t

end Delivered

/-! ## Broadcasts -/

/-- The waiters selected by `notify_waiters` are those in `broadcast`. -/
structure Broadcast (q : WaitQueue Selection Waker) (broadcast : List Nat) : Prop where
  cells : ∀ i, q.cells i = .waiters ↔ i ∈ broadcast
  bound : ∀ i ∈ broadcast, i < q.nextId

section Broadcast

variable {n : State} {broadcast : List Nat}

theorem Broadcast.notifyOne (h : Broadcast n.queue broadcast) (notification : Nat)
    (hcells : ∀ i ∈ n.queue.ids, n.queue.cells i = .pending) :
    Broadcast (n.notifyOne notification).queue broadcast := by
  rw [State.notifyOne]
  split
  next queue hpop =>
    obtain ⟨i, hpop⟩ := WaitQueue.exists_popped hpop
    have hcell := hcells i (hpop.ids ▸ List.mem_cons_self)
    refine ⟨fun j => ?_, fun j hj => hpop.nextId ▸ h.bound j hj⟩
    rw [hpop.cells, ← h.cells]
    by_cases hj : j = i
    · simp [hj, hcell]
    · simp [hj]
  next => exact h

theorem Broadcast.notifyWaiters (h : Broadcast n.queue broadcast)
    (hbound : ∀ i ∈ n.queue.ids, i < n.queue.nextId) :
    Broadcast n.notifyWaiters.queue (broadcast ++ n.queue.ids) := by
  constructor
  · intro i
    rw [State.notifyWaiters, WaitQueue.popAll_cells, List.mem_append, ← h.cells]
    split
    next hi => simp [hi]
    next hi => simp [hi]
  · intro i hi
    rcases List.mem_append.mp hi with hi | hi
    · exact h.bound i hi
    · exact hbound i hi

theorem Broadcast.await (h : Broadcast n.queue broadcast) (ticket : Option Nat) (waker : Waker) :
    Broadcast (n.queue.await ticket waker).1 broadcast := by
  cases ticket with
  | some i => exact ⟨h.cells, h.bound⟩
  | none =>
      refine ⟨fun i => ?_, fun i hi => Nat.lt_succ_of_lt (h.bound i hi)⟩
      simp only [WaitQueue.await, WaitQueue.enqueue]
      by_cases hi : i = n.queue.nextId
      · rw [hi, Function.update_self]
        exact iff_of_false (by rintro ⟨⟩) fun hmem => Nat.lt_irrefl _ (h.bound _ hmem)
      · rw [Function.update_of_ne hi]
        exact h.cells i

theorem Broadcast.remove (h : Broadcast n.queue broadcast) (i : Nat) :
    Broadcast (n.queue.remove i) broadcast := by
  refine ⟨fun j => ?_, fun j hj => ?_⟩
  · rw [WaitQueue.remove_cells]
    exact h.cells j
  · rw [WaitQueue.remove_nextId]
    exact h.bound j hj

end Broadcast

/-! ## Runs -/

structure Sound (w : World) : Prop where
  delivered : Delivered w.notify w.tickets w.consumed fun t => if t < w.notifications then 1 else 0
  broadcast : Broadcast w.notify.queue w.broadcast
  fresh : ∀ f, Call.active f ∈ w.calls → f.done = false

section Sound

variable {w : World} {call : Nat} {f : Notified}

theorem Sound.init : Sound {} where
  delivered := ⟨.init, by simp, by simp, by simp [World.consumed, WaitQueue.holders, World.tickets]⟩
  broadcast := ⟨fun i => iff_of_false nofun (by simp), by simp⟩
  fresh := by simp

theorem tickets_set (w : World) (call : Nat) (c : Call) :
    (w.calls.set call c).map Call.ticket = w.tickets.set call c.ticket :=
  List.map_set

theorem fresh_set {calls : List Call} {c : Call} (call : Nat)
    (hcalls : ∀ f, .active f ∈ calls → f.done = false)
    (hc : ∀ f, c = .active f → f.done = false) :
    ∀ f, .active f ∈ calls.set call c → f.done = false := by
  intro f hf
  rcases List.mem_or_eq_of_mem_set hf with hf | hf
  · exact hcalls f hf
  · exact hc f hf.symm

theorem consumed_set {c : Call} (c' : Call) (hcall : w.calls[call]? = some c) (t : Nat) :
    ((w.calls.set call c').flatMap Call.consumed).count t + c.consumed.count t =
      w.consumed t + c'.consumed.count t :=
  Counting.count_flatMap_set Call.consumed t c' hcall

/-- Putting the notifications that are out into the log of a call. -/
theorem Delivered.note {n : State} {tickets : List (Option Nat)} {total : Nat → Nat} {c : Call}
    (hcall : w.calls[call]? = some (.active f))
    (h : Delivered n tickets (fun t => w.consumed t + c.consumed.count t) total) :
    Delivered n tickets (fun t => ((w.calls.set call c).flatMap Call.consumed).count t) total := by
  refine ⟨h.queue, h.permit, h.stored, fun t => ?_⟩
  have hset := consumed_set c hcall t
  have hnone : (Call.active f).consumed.count t = 0 := rfl
  have hbalance := h.balance t
  omega

theorem calls_succ (n t : Nat) :
    (if t < n + 1 then 1 else 0) = (if t < n then 1 else 0) + [n].count t := by
  rcases Nat.lt_trichotomy t n with hlt | rfl | hgt
  · simp [hlt, Nat.lt_succ_of_lt hlt, Nat.ne_of_gt hlt]
  · simp
  · simp [Nat.not_lt_of_gt hgt, Nat.ne_of_lt hgt, Nat.not_lt.mpr (Nat.succ_le_of_lt hgt)]

theorem Sound.notifyOne (h : Sound w) : Sound w.notifyOne where
  delivered := by
    refine Delivered.notifyOne ⟨h.delivered.queue, h.delivered.permit, h.delivered.stored,
      fun t => ?_⟩
    rw [World.notifyOne, calls_succ, ← h.delivered.balance t, ← Nat.add_assoc]
    rfl
  broadcast := h.broadcast.notifyOne _ h.delivered.queue.unselected
  fresh := h.fresh

theorem Sound.notifyWaiters (h : Sound w) : Sound w.notifyWaiters where
  delivered := h.delivered.notifyWaiters
  broadcast := h.broadcast.notifyWaiters fun _ hi => WaitQueue.lt_of_mem_ids h.delivered.queue hi
  fresh := h.fresh

theorem Sound.notified (h : Sound w) : Sound { w with calls := w.calls ++ [.active {}] } := by
  have htickets : (w.calls ++ [Call.active {}]).map Call.ticket = w.tickets ++ [none] := by
    simp [World.tickets, Call.ticket]
  have hconsumed : ∀ t, ((w.calls ++ [Call.active {}]).flatMap Call.consumed).count t =
      w.consumed t := by
    simp [World.consumed, Call.consumed]
  refine ⟨?_, h.broadcast, ?_⟩
  · have hjoin := h.delivered.join
    rw [World.tickets, htickets]
    refine ⟨hjoin.queue, hjoin.permit, hjoin.stored, fun t => ?_⟩
    rw [World.consumed, hconsumed]
    exact hjoin.balance t
  · intro f hf
    rcases List.mem_append.mp hf with hf | hf
    · exact h.fresh f hf
    · obtain rfl : f = {} := by simpa using hf
      rfl

/-- The three outcomes of a poll: the selected future completes, the permit is
taken, or the future waits. -/
theorem Notified.poll_cases (f : Notified) (n : State) (waker : Waker) :
    (∃ i, f.waiter = some i ∧ n.queue.cells i ≠ .pending ∧ f.poll n waker =
      (n, { f with done := true }, .ready (n.queue.cells i).notifications)) ∨
    (f.waiter = none ∧ n.permit = true ∧ f.poll n waker =
      ({ n with permit := false, stored := [] }, { f with done := true }, .ready n.stored)) ∨
    ((∀ i, f.waiter = some i → n.queue.cells i = .pending) ∧
      (f.waiter = none → n.permit = false) ∧ f.poll n waker =
        ({ n with queue := (n.queue.await f.waiter waker).1 },
          { f with waiter := (n.queue.await f.waiter waker).2 }, .pending)) := by
  cases hw : f.waiter with
  | none =>
      cases hpermit : n.permit with
      | true => exact .inr (.inl ⟨rfl, rfl, by simp [Notified.poll, hw, hpermit]⟩)
      | false =>
          exact .inr (.inr ⟨by simp, fun _ => rfl, by simp [Notified.poll, hw, hpermit]⟩)
  | some i =>
      by_cases hsel : n.queue.cells i = .pending
      · refine .inr (.inr ⟨by rintro j ⟨⟩; exact hsel, by simp, ?_⟩)
        simp [Notified.poll, hw, Selection.isSelected, hsel]
      · refine .inl ⟨i, rfl, hsel, ?_⟩
        simp [Notified.poll, hw, Selection.isSelected, hsel]

theorem Sound.poll (h : Sound w) (hcall : w.calls[call]? = some (.active f)) (waker : Waker) :
    Sound (w.poll call f waker) := by
  have hk : w.tickets[call]? = some f.waiter :=
    Table.getElem?_map_eq_some.mpr ⟨_, hcall, rfl⟩
  have hmem := List.mem_of_getElem? hcall
  rw [World.poll]
  rcases f.poll_cases w.notify waker with ⟨i, hi, hsel, heq⟩ | ⟨hw, -, heq⟩ | ⟨hsel, hwait, heq⟩
  · rw [hi] at hk
    rw [heq]
    refine ⟨?_, h.broadcast, fresh_set call h.fresh (by simp)⟩
    rw [World.tickets, tickets_set]
    exact (h.delivered.collect hk hsel).note hcall
  · rw [hw] at hk
    rw [heq]
    refine ⟨?_, h.broadcast, fresh_set call h.fresh (by simp)⟩
    rw [World.tickets, tickets_set]
    have hset : w.tickets.set call none = w.tickets := Table.set_eq_self hk
    exact (hset.symm ▸ h.delivered.takePermit).note hcall
  · rw [heq]
    have hpermit : w.notify.permit = false := by
      cases hw : f.waiter with
      | none => exact hwait hw
      | some i =>
          rw [hw] at hk
          have hid := h.delivered.queue.queued i (List.mem_of_getElem? hk) (hsel i hw)
          by_contra htrue
          rw [h.delivered.permit (by simpa using htrue)] at hid
          cases hid
    refine ⟨?_, h.broadcast.await _ waker,
      fresh_set call h.fresh (by rintro g ⟨⟩; exact h.fresh f hmem)⟩
    rw [World.tickets, tickets_set]
    exact (h.delivered.await hk hpermit waker).note hcall

/-- The four outcomes of dropping a future that did not return: it never
waited, it leaves the queue, it passes its notification on, or it was selected
by a broadcast. -/
theorem Notified.drop_cases (n : State) (hdone : f.done = false) :
    (f.waiter = none ∧ f.drop n = n) ∨
    (∃ i, f.waiter = some i ∧ n.queue.cells i = .pending ∧
      f.drop n = { n with queue := n.queue.remove i }) ∨
    (∃ i notification, f.waiter = some i ∧ n.queue.cells i = .one notification ∧
      f.drop n = n.notifyOne notification) ∨
    (∃ i, f.waiter = some i ∧ n.queue.cells i = .waiters ∧ f.drop n = n) := by
  cases hw : f.waiter with
  | none => exact .inl ⟨rfl, by simp [Notified.drop, hdone, hw]⟩
  | some i =>
      cases hcell : n.queue.cells i with
      | pending =>
          exact .inr (.inl ⟨i, rfl, hcell, by simp [Notified.drop, hdone, hw, hcell]⟩)
      | one notification =>
          exact .inr (.inr (.inl
            ⟨i, notification, rfl, hcell, by simp [Notified.drop, hdone, hw, hcell]⟩))
      | waiters =>
          exact .inr (.inr (.inr ⟨i, rfl, hcell, by simp [Notified.drop, hdone, hw, hcell]⟩))

theorem Sound.dropCall (h : Sound w) (hcall : w.calls[call]? = some (.active f)) :
    Sound (w.dropCall call f) := by
  have hk : w.tickets[call]? = some f.waiter :=
    Table.getElem?_map_eq_some.mpr ⟨_, hcall, rfl⟩
  have hdropped := fresh_set (c := .dropped []) call h.fresh (by simp)
  rw [World.dropCall]
  suffices hsuff : Delivered (f.drop w.notify) (w.tickets.set call none) w.consumed
      (fun t => if t < w.notifications then 1 else 0) ∧
      Broadcast (f.drop w.notify).queue w.broadcast by
    refine ⟨?_, hsuff.2, hdropped⟩
    rw [World.tickets, tickets_set]
    exact Delivered.note hcall hsuff.1
  rcases f.drop_cases w.notify (h.fresh f (List.mem_of_getElem? hcall)) with
    ⟨hw, heq⟩ | ⟨i, hw, hcell, heq⟩ | ⟨i, notification, hw, hcell, heq⟩ | ⟨i, hw, hcell, heq⟩
  · rw [hw] at hk
    rw [heq, Table.set_eq_self hk]
    exact ⟨h.delivered, h.broadcast⟩
  · rw [hw] at hk
    rw [heq]
    exact ⟨h.delivered.cancel hk hcell, h.broadcast.remove i⟩
  · rw [hw] at hk
    rw [heq]
    have hcollect := h.delivered.collect hk (by simp [hcell])
    rw [hcell] at hcollect
    exact ⟨hcollect.notifyOne, h.broadcast.notifyOne _ h.delivered.queue.unselected⟩
  · rw [hw] at hk
    rw [heq]
    have hcollect := h.delivered.collect hk (by simp [hcell])
    rw [hcell] at hcollect
    exact ⟨hcollect, h.broadcast⟩

theorem Sound.dropReturned {consumed : List Nat} (h : Sound w)
    (hcall : w.calls[call]? = some (.returned consumed)) :
    Sound { w with calls := w.calls.set call (.dropped consumed) } := by
  have hk : w.tickets[call]? = some none := Table.getElem?_map_eq_some.mpr ⟨_, hcall, rfl⟩
  have hset : w.tickets.set call none = w.tickets := Table.set_eq_self hk
  refine ⟨?_, h.broadcast, fresh_set call h.fresh (by simp)⟩
  rw [World.tickets, tickets_set]
  refine ⟨hset.symm ▸ h.delivered.queue, h.delivered.permit, h.delivered.stored, fun t => ?_⟩
  have hcount := consumed_set (.dropped consumed) hcall t
  have hbalance := h.delivered.balance t
  rw [Call.ticket, hset]
  simp only [Call.consumed] at hcount
  simp only [World.consumed] at hbalance hcount ⊢
  omega

theorem Sound.step {w' : World} {op : Op} (h : Sound w) (hs : step w op = some w') : Sound w' := by
  cases op with
  | notifyOne =>
      obtain rfl := Option.some.inj hs
      exact h.notifyOne
  | notifyWaiters =>
      obtain rfl := Option.some.inj hs
      exact h.notifyWaiters
  | notified =>
      obtain rfl := Option.some.inj hs
      exact h.notified
  | poll call waker =>
      simp only [Notify.step] at hs
      split at hs
      next f hcall =>
        obtain rfl := Option.some.inj hs
        exact h.poll hcall waker
      next =>
        obtain rfl := Option.some.inj hs
        exact h
      next => cases hs
      next => cases hs
  | dropCall call =>
      simp only [Notify.step] at hs
      split at hs
      next f hcall =>
        obtain rfl := Option.some.inj hs
        exact h.dropCall hcall
      next consumed hcall =>
        obtain rfl := Option.some.inj hs
        exact h.dropReturned hcall
      next => cases hs
      next => cases hs

end Sound

/-! ## What the calls do -/

section Calls

variable {w : World} {call : Nat} {f : Notified}

theorem Notified.poll_some {n : State} {i : Nat} (hw : f.waiter = some i) (waker : Waker) :
    (f.poll n waker).2.2 =
      if n.queue.cells i = .pending then .pending
      else .ready (n.queue.cells i).notifications := by
  rcases f.poll_cases n waker with ⟨j, hj, hsel, heq⟩ | ⟨hnone, -, -⟩ | ⟨hsel, -, heq⟩
  · obtain rfl : j = i := Option.some.inj (hj.symm.trans hw)
    rw [heq, if_neg hsel]
  · rw [hw] at hnone
    cases hnone
  · rw [heq, if_pos (hsel i hw)]

theorem Notified.poll_none {n : State} (hw : f.waiter = none) (waker : Waker) :
    (f.poll n waker).2.2 = if n.permit then .ready n.stored else .pending := by
  rcases f.poll_cases n waker with ⟨i, hi, -, -⟩ | ⟨-, hpermit, heq⟩ | ⟨-, hpermit, heq⟩
  · rw [hw] at hi
    cases hi
  · rw [heq, if_pos hpermit]
  · rw [heq, hpermit hw]
    rfl

/-- A call of `notify_one` is exactly one of stored, held and consumed. -/
theorem Sound.notification_cases (h : Sound w) {t : Nat} (ht : t < w.notifications) :
    (w.notify.permit = true ∧ t ∈ w.notify.stored ∧ w.holders t = 0 ∧ w.consumed t = 0) ∨
    (t ∉ w.notify.stored ∧ w.holders t = 1 ∧ w.consumed t = 0) ∨
    (t ∉ w.notify.stored ∧ w.holders t = 0 ∧ w.consumed t = 1) := by
  have hbalance := h.delivered.balance t
  rw [if_pos ht] at hbalance
  change w.notify.stored.count t + w.holders t + w.consumed t = 1 at hbalance
  by_cases hstored : t ∈ w.notify.stored
  · have hpos := List.count_pos_iff.mpr hstored
    exact .inl ⟨h.delivered.stored.mpr (List.ne_nil_of_mem hstored), hstored, by omega, by omega⟩
  · have hzero := List.count_eq_zero.mpr hstored
    by_cases hholds : w.holders t = 0
    · exact .inr (.inr ⟨hstored, hholds, by omega⟩)
    · exact .inr (.inl ⟨hstored, by omega, by omega⟩)

/-- A selected future that is dropped passes its notification on. -/
theorem Sound.forwards {i t : Nat} (h : Sound w) (hcall : w.calls[call]? = some (.active f))
    (hw : f.waiter = some i) (hcell : w.notify.queue.cells i = .one t) :
    (∃ j, w.notify.queue.ids = j :: (w.dropCall call f).notify.queue.ids ∧
      (w.dropCall call f).notify.queue.cells j = .one t ∧
      (w.dropCall call f).notify.permit = w.notify.permit) ∨
    (w.notify.queue.ids = [] ∧ (w.dropCall call f).notify.queue.ids = [] ∧
      (w.dropCall call f).notify.permit = true ∧ t ∈ (w.dropCall call f).notify.stored) := by
  have hdone := h.fresh f (List.mem_of_getElem? hcall)
  have hdrop : f.drop w.notify = w.notify.notifyOne t := by
    simp [Notified.drop, hdone, hw, hcell]
  rw [World.dropCall, hdrop, State.notifyOne]
  split
  next queue hpop =>
    obtain ⟨j, hpop⟩ := WaitQueue.exists_popped hpop
    exact .inl ⟨j, hpop.ids, by simp [hpop.cells], rfl⟩
  next hpop =>
    have hids := WaitQueue.popFront_eq_none hpop
    exact .inr ⟨hids, hids, rfl, by simp⟩

/-- A broadcast completes the futures that are queued, and changes nothing for
the others. -/
theorem poll_notifyWaiters (w : World) (f : Notified) (waker : Waker) :
    (f.poll w.notifyWaiters.notify waker).2.2 =
      if ∃ i ∈ w.notify.queue.ids, f.waiter = some i then .ready []
      else (f.poll w.notify waker).2.2 := by
  cases hw : f.waiter with
  | none =>
      rw [if_neg (by simp), Notified.poll_none hw, Notified.poll_none hw]
      rfl
  | some i =>
      have hcells : w.notifyWaiters.notify.queue.cells i =
          if i ∈ w.notify.queue.ids then .waiters else w.notify.queue.cells i :=
        WaitQueue.popAll_cells w.notify.queue .waiters i
      rw [Notified.poll_some hw, Notified.poll_some hw, hcells]
      by_cases hi : i ∈ w.notify.queue.ids
      · rw [if_pos hi, if_neg nofun, if_pos ⟨i, hi, rfl⟩]
        rfl
      · rw [if_neg hi, if_neg (c := ∃ j ∈ w.notify.queue.ids, some i = some j)]
        rintro ⟨j, hj, ⟨⟩⟩
        exact hi hj

end Calls

open Transition

/-- Every program using a `Notify`: a stored permit implies that nobody is
queued; each call of `notify_one` is stored as the permit, held by one selected
live future, or was consumed by one future that completed, and only one of
these; a selected future that is dropped passes its notification to the oldest
waiter or to the permit; and a call of `notify_waiters` completes the futures
that are queued, changes nothing for the others and leaves the permit as it was,
its futures staying completed until they are polled. -/
theorem notifications_of_reachable {w : World} (hreach : Reachable step (fun _ _ => True) {} w) :
    (w.notify.permit = true → w.notify.queue.waiters = []) ∧
    (∀ t < w.notifications,
      (w.notify.permit = true ∧ t ∈ w.notify.stored ∧ w.holders t = 0 ∧ w.consumed t = 0) ∨
      (t ∉ w.notify.stored ∧ w.holders t = 1 ∧ w.consumed t = 0) ∨
      (t ∉ w.notify.stored ∧ w.holders t = 0 ∧ w.consumed t = 1)) ∧
    (∀ call f i t, w.calls[call]? = some (.active f) → f.waiter = some i →
      w.notify.queue.cells i = .one t →
      (∃ j, w.notify.queue.ids = j :: (w.dropCall call f).notify.queue.ids ∧
        (w.dropCall call f).notify.queue.cells j = .one t ∧
        (w.dropCall call f).notify.permit = w.notify.permit) ∨
      (w.notify.queue.ids = [] ∧ (w.dropCall call f).notify.queue.ids = [] ∧
        (w.dropCall call f).notify.permit = true ∧ t ∈ (w.dropCall call f).notify.stored)) ∧
    (w.notifyWaiters.notify.permit = w.notify.permit ∧
      w.notifyWaiters.notify.stored = w.notify.stored ∧
      ∀ (call : Nat) (f : Notified) (waker : Waker), w.calls[call]? = some (.active f) →
        (f.poll w.notifyWaiters.notify waker).2.2 =
          if ∃ i ∈ w.notify.queue.ids, f.waiter = some i then .ready []
          else (f.poll w.notify waker).2.2) ∧
    (∀ (call : Nat) (f : Notified) (i : Nat) (waker : Waker),
      w.calls[call]? = some (.active f) → f.waiter = some i → i ∈ w.broadcast →
      (f.poll w.notify waker).2.2 = .ready []) := by
  have h : Sound w := hreach.invariant Sound Sound.init fun _ _ _ h _ hs => h.step hs
  refine ⟨fun hpermit => ?_, fun t ht => h.notification_cases ht,
    fun call f i t hcall hw hcell => h.forwards hcall hw hcell,
    ⟨rfl, rfl, fun _ f waker _ => poll_notifyWaiters w f waker⟩, ?_⟩
  · simpa [WaitQueue.ids] using h.delivered.permit hpermit
  · intro call f i waker hcall hw hi
    rw [Notified.poll_some hw, (h.broadcast.cells i).mpr hi, if_neg (by simp)]
    rfl

/-- Two futures wait, the first one is selected and dropped: the notification
completes the second one. -/
theorem notification_forwarded :
    ∃ w, Reachable step (fun _ _ => True) {} w ∧ w.notifications = 1 ∧ w.consumed 0 = 1 ∧
      w.holders 0 = 0 ∧ 0 ∉ w.notify.stored := by
  obtain ⟨w, hreach, hw⟩ := Reachable.exists_of_run step (fun _ _ => True) {}
    [.notified, .notified, .poll 0 7, .poll 1 8, .notifyOne, .dropCall 0, .poll 1 8]
    (fun w => w.notifications == 1 && w.consumed 0 == 1) (by simp) (by decide)
  simp only [Bool.and_eq_true, beq_iff_eq] at hw
  obtain ⟨-, hcases, -⟩ := notifications_of_reachable hreach
  refine ⟨w, hreach, hw.1, hw.2, ?_⟩
  rcases hcases 0 (by omega) with ⟨-, -, -, hzero⟩ | ⟨-, -, hzero⟩ | ⟨hstored, hholds, -⟩
  · omega
  · omega
  · exact ⟨hholds, hstored⟩

end Runite.Sync.Notify
