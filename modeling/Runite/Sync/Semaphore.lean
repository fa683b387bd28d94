import Mathlib.Algebra.Group.Nat.Defs
import Runite.Task
import Runite.Lib.Transition
import Runite.Lib.HandOff

/-!
# The semaphore

`sync::Semaphore`, the future behind `acquire` and the permit.  A permit that
is dropped while waiters are queued goes directly to the front waiter; the
counter counts only the permits nobody owns.

`World` is a semaphore with everything safe code can hold on to it, and `step`
is one call.  Waiters are numbered in the order in which they entered the queue.
-/

namespace Runite.Sync.Semaphore

/-- `usize + 1` of a build without overflow checks. -/
def usizeSucc (n : Nat) : Nat := (n + 1) % 2 ^ 64

/-- `Semaphore`.  The ids of its waiters do not wrap, which is the same for the first
2^64 of them. -/
structure Counter where
  permits : Nat
  queue : WaitQueue Bool Waker := {}

/-- `Semaphore::try_acquire`; `true` is a new permit. -/
def Counter.tryAcquire (m : Counter) : Counter × Bool :=
  if !m.queue.waiters.isEmpty then (m, false)
  else if m.permits = 0 then (m, false)
  else ({ m with permits := m.permits - 1 }, true)

def Counter.releaseToNextWaiter (m : Counter) : Counter :=
  match m.queue.popFront true with
  | some queue => { m with queue := queue }
  | none => { m with permits := usizeSucc m.permits }

structure AcquireFuture where
  waiter : Option Nat := none
  acquired : Bool := false
  deriving DecidableEq, Repr

/-- `AcquireFuture::poll`; `true` is `Poll::Ready` with a new permit. -/
def AcquireFuture.poll (f : AcquireFuture) (m : Counter) (waker : Waker) :
    Counter × AcquireFuture × Bool :=
  if m.queue.holds id f.waiter then (m, { f with acquired := true }, true)
  else if f.waiter.isNone && m.queue.waiters.isEmpty && 0 < m.permits then
    ({ m with permits := m.permits - 1 }, { f with acquired := true }, true)
  else
    let (queue, waiter) := m.queue.await f.waiter waker
    ({ m with queue := queue }, { f with waiter := waiter }, false)

/-- `Drop for AcquireFuture`. -/
def AcquireFuture.drop (f : AcquireFuture) (m : Counter) : Counter :=
  match f.waiter with
  | none => m
  | some id =>
      if f.acquired then m
      else if m.queue.cells id then m.releaseToNextWaiter
      else { m with queue := m.queue.remove id }

/-- The future of the `async fn acquire`.  It drops its `AcquireFuture` when it
returns the permit, and panics without an effect when it is polled again. -/
inductive Call
  | active (f : AcquireFuture)
  | returned
  | dropped
  deriving DecidableEq, Repr

/-- The waiter of a future that did not return yet. -/
def Call.ticket : Call → Option Nat
  | .active f => f.waiter
  | .returned => none
  | .dropped => none

/-- A semaphore, the futures of `acquire` by order of creation and the live
permits. -/
structure World where
  semaphore : Counter
  calls : List Call := []
  permits : Nat := 0

def World.new (permits : UInt64) : World := { semaphore := { permits := permits.toNat } }

inductive Op
  | tryAcquire
  | acquire
  | poll (call : Nat) (waker : Waker)
  | dropCall (call : Nat)
  | dropPermit
  deriving DecidableEq, Repr

/-- `try_acquire`, keeping the permit it may return. -/
def World.tryAcquire (w : World) : World :=
  let (semaphore, acquired) := w.semaphore.tryAcquire
  { w with semaphore := semaphore, permits := w.permits + acquired.toNat }

/-- Poll the future `call`, which holds `f`. -/
def World.poll (w : World) (call : Nat) (f : AcquireFuture) (waker : Waker) : World :=
  let (semaphore, f', ready) := f.poll w.semaphore waker
  if ready then
    { w with
      semaphore := f'.drop semaphore
      calls := w.calls.set call .returned
      permits := w.permits + 1 }
  else { w with semaphore := semaphore, calls := w.calls.set call (.active f') }

/-- Drop the future `call`, which holds `f`. -/
def World.dropCall (w : World) (call : Nat) (f : AcquireFuture) : World :=
  { w with semaphore := f.drop w.semaphore, calls := w.calls.set call .dropped }

/-- One call of a program; `none` when it has no such future or permit. -/
def step (w : World) : Op → Option World
  | .tryAcquire => some w.tryAcquire
  | .acquire => some { w with calls := w.calls ++ [.active {}] }
  | .poll call waker =>
      match w.calls[call]? with
      | some (.active f) => some (w.poll call f waker)
      | some .returned => some w
      | some .dropped => none
      | none => none
  | .dropCall call =>
      match w.calls[call]? with
      | some (.active f) => some (w.dropCall call f)
      | some .returned => some { w with calls := w.calls.set call .dropped }
      | some .dropped => none
      | none => none
  | .dropPermit =>
      if 0 < w.permits then
        some { w with semaphore := w.semaphore.releaseToNextWaiter, permits := w.permits - 1 }
      else none

def World.tickets (w : World) : List (Option Nat) := w.calls.map Call.ticket

/-- The waiters that were selected and whose futures have not returned the
permit yet. -/
def World.selected (w : World) : List Nat := w.semaphore.queue.held id w.tickets

/-! ## Conservation -/

/-- The permits are the slots: those the counter counts are free. -/
abbrev Conserved (m : Counter) (tickets : List (Option Nat)) (out total : Nat) : Prop :=
  m.queue.Slots tickets out m.permits total

section Conserved

variable {m : Counter} {tickets : List (Option Nat)} {out total : Nat}

/-- A permit that is given back goes to a waiter, or to the counter, which has
room for it. -/
theorem Conserved.releaseToNextWaiter (h : Conserved m tickets (out + 1) total)
    (htotal : total < 2 ^ 64) : Conserved m.releaseToNextWaiter tickets out total := by
  rw [Counter.releaseToNextWaiter]
  split
  next queue hpop =>
    obtain ⟨i, hpop⟩ := WaitQueue.exists_popped hpop
    exact h.handOver hpop
  next hpop =>
    have hroom : usizeSucc m.permits = m.permits + 1 := by
      have hbalance := h.balance
      exact Nat.mod_eq_of_lt (by omega)
    rw [Conserved, hroom]
    exact h.giveBack (WaitQueue.popFront_eq_none hpop)

theorem Conserved.acquire (h : Conserved m tickets out total) (hpos : 0 < m.permits) :
    Conserved { m with permits := m.permits - 1 } tickets (out + 1) total := by
  rw [Conserved, ← Nat.sub_add_cancel hpos] at h
  exact h.take

end Conserved

/-! ## Runs -/

structure Sound (total : Nat) (w : World) : Prop where
  conserved : Conserved w.semaphore w.tickets w.permits total
  fresh : ∀ f, Call.active f ∈ w.calls → f.acquired = false

section Sound

variable {w : World} {call total : Nat} {f : AcquireFuture}

theorem Sound.new (permits : UInt64) : Sound permits.toNat (World.new permits) where
  conserved := .init _
  fresh := by simp [World.new]

theorem tickets_set (w : World) (call : Nat) (c : Call) :
    (w.calls.set call c).map Call.ticket = w.tickets.set call c.ticket :=
  List.map_set

theorem tickets_set_none {c : Call} (hk : w.tickets[call]? = some none) (hc : c.ticket = none) :
    (w.calls.set call c).map Call.ticket = w.tickets := by
  rw [tickets_set, hc]
  exact Table.set_eq_self hk

theorem fresh_set {calls : List Call} {c : Call} (call : Nat)
    (hcalls : ∀ f, .active f ∈ calls → f.acquired = false)
    (hc : ∀ f, c = .active f → f.acquired = false) :
    ∀ f, .active f ∈ calls.set call c → f.acquired = false := by
  intro f hf
  rcases List.mem_or_eq_of_mem_set hf with hf | hf
  · exact hcalls f hf
  · exact hc f hf.symm

theorem Sound.tryAcquire (h : Sound total w) : Sound total w.tryAcquire := by
  by_cases hfree : w.semaphore.queue.waiters.isEmpty = true ∧ 0 < w.semaphore.permits
  · have heq : w.tryAcquire =
        { w with
          semaphore := { w.semaphore with permits := w.semaphore.permits - 1 }
          permits := w.permits + 1 } := by
      simp [World.tryAcquire, Counter.tryAcquire, hfree.1, Nat.ne_of_gt hfree.2]
    rw [heq]
    exact ⟨h.conserved.acquire hfree.2, h.fresh⟩
  · have heq : w.tryAcquire = w := by
      simp only [not_and, Nat.not_lt, Nat.le_zero] at hfree
      by_cases hempty : w.semaphore.queue.waiters.isEmpty = true
      · simp [World.tryAcquire, Counter.tryAcquire, hempty, hfree hempty]
      · simp [World.tryAcquire, Counter.tryAcquire, hempty]
    rw [heq]
    exact h

theorem Sound.acquire (h : Sound total w) :
    Sound total { w with calls := w.calls ++ [.active {}] } := by
  have htickets : (w.calls ++ [Call.active {}]).map Call.ticket = w.tickets ++ [none] := by
    simp [World.tickets, Call.ticket]
  constructor
  · rw [World.tickets, htickets]
    exact h.conserved.join
  · intro f hf
    rcases List.mem_append.mp hf with hf | hf
    · exact h.fresh f hf
    · obtain rfl : f = {} := by simpa using hf
      rfl

/-- The three outcomes of a poll: the selected waiter returns its permit, the
fast path is taken, or the future waits. -/
theorem World.poll_cases (w : World) (call : Nat) (f : AcquireFuture) (waker : Waker) :
    (∃ i, f.waiter = some i ∧ w.semaphore.queue.cells i = true ∧ w.poll call f waker =
      { w with calls := w.calls.set call .returned, permits := w.permits + 1 }) ∨
    (f.waiter = none ∧ 0 < w.semaphore.permits ∧ w.semaphore.queue.ids = [] ∧
      w.poll call f waker =
        { w with
          semaphore := { w.semaphore with permits := w.semaphore.permits - 1 }
          calls := w.calls.set call .returned
          permits := w.permits + 1 }) ∨
    (w.semaphore.queue.holds id f.waiter = false ∧
      (f.waiter = none → w.semaphore.permits = 0 ∨ w.semaphore.queue.ids ≠ []) ∧
      w.poll call f waker =
        { w with
          semaphore :=
            { w.semaphore with queue := (w.semaphore.queue.await f.waiter waker).1 }
          calls := w.calls.set call
            (.active { f with waiter := (w.semaphore.queue.await f.waiter waker).2 }) }) := by
  cases hsel : w.semaphore.queue.holds id f.waiter with
  | true =>
      obtain ⟨i, hi, hcell⟩ : ∃ i, f.waiter = some i ∧ w.semaphore.queue.cells i = true := by
        cases hw : f.waiter with
        | none => simp [hw] at hsel
        | some i => exact ⟨i, rfl, by simpa [hw] using hsel⟩
      refine .inl ⟨i, hi, hcell, ?_⟩
      simp [World.poll, AcquireFuture.poll, AcquireFuture.drop, hi, hcell]
  | false =>
      cases hfast : f.waiter.isNone && w.semaphore.queue.waiters.isEmpty &&
          decide (0 < w.semaphore.permits) with
      | true =>
          simp only [Bool.and_eq_true, Option.isNone_iff_eq_none, WaitQueue.isEmpty_waiters,
            decide_eq_true_eq] at hfast
          obtain ⟨⟨hw, hids⟩, hpos⟩ := hfast
          have hempty := (WaitQueue.isEmpty_waiters _).mpr hids
          refine .inr (.inl ⟨hw, hpos, hids, ?_⟩)
          simp [World.poll, AcquireFuture.poll, AcquireFuture.drop, hw, hpos, hempty]
      | false =>
          refine .inr (.inr ⟨rfl, fun hw => ?_, ?_⟩)
          · rw [hw, Option.isNone_none, Bool.true_and, Bool.and_eq_false_iff] at hfast
            exact hfast.symm.imp (by simp) (by simp [WaitQueue.ids])
          · simp [World.poll, AcquireFuture.poll, hsel, hfast]

theorem Sound.poll (h : Sound total w) (hcall : w.calls[call]? = some (.active f))
    (waker : Waker) : Sound total (w.poll call f waker) := by
  have hk : w.tickets[call]? = some f.waiter :=
    Table.getElem?_map_eq_some.mpr ⟨_, hcall, rfl⟩
  have hmem := List.mem_of_getElem? hcall
  have hreturned := fresh_set (c := .returned) call h.fresh (by simp)
  rcases w.poll_cases call f waker with ⟨i, hi, hcell, heq⟩ | ⟨hw, hpos, -, heq⟩ |
    ⟨hsel, hwait, heq⟩
  · rw [hi] at hk
    rw [heq]
    refine ⟨?_, hreturned⟩
    rw [World.tickets, tickets_set]
    exact h.conserved.collect hk hcell
  · rw [hw] at hk
    rw [heq]
    refine ⟨?_, hreturned⟩
    rw [World.tickets, tickets_set_none hk rfl]
    exact h.conserved.acquire hpos
  · rw [heq]
    have hnone : w.semaphore.permits = 0 := h.conserved.free_eq_zero_of_wait hk hsel hwait
    refine ⟨?_, fresh_set call h.fresh (by rintro g ⟨⟩; exact h.fresh f hmem)⟩
    have hconserved := h.conserved
    rw [Conserved, hnone] at hconserved
    rw [World.tickets, tickets_set, Conserved, hnone]
    exact hconserved.await hk waker

theorem Sound.dropCall (h : Sound total w) (htotal : total < 2 ^ 64)
    (hcall : w.calls[call]? = some (.active f)) : Sound total (w.dropCall call f) := by
  have hk : w.tickets[call]? = some f.waiter :=
    Table.getElem?_map_eq_some.mpr ⟨_, hcall, rfl⟩
  have hacquired := h.fresh f (List.mem_of_getElem? hcall)
  refine ⟨?_, fresh_set call h.fresh (by simp)⟩
  rw [World.dropCall, World.tickets, tickets_set]
  cases hw : f.waiter with
  | none =>
      rw [hw] at hk
      simp only [AcquireFuture.drop, hw]
      exact h.conserved.leave hk
  | some i =>
      rw [hw] at hk
      cases hcell : w.semaphore.queue.cells i with
      | true =>
          simp only [AcquireFuture.drop, hw, hacquired, hcell]
          exact Conserved.releaseToNextWaiter (h.conserved.collect hk hcell) htotal
      | false =>
          simp only [AcquireFuture.drop, hw, hacquired, hcell]
          exact h.conserved.cancel hk hcell

theorem Sound.dropReturned (h : Sound total w) (hcall : w.calls[call]? = some .returned) :
    Sound total { w with calls := w.calls.set call .dropped } := by
  have hk : w.tickets[call]? = some none := Table.getElem?_map_eq_some.mpr ⟨_, hcall, rfl⟩
  refine ⟨?_, fresh_set call h.fresh (by simp)⟩
  rw [World.tickets, tickets_set_none hk rfl]
  exact h.conserved

theorem Sound.dropPermit (h : Sound total w) (htotal : total < 2 ^ 64) (hpos : 0 < w.permits) :
    Sound total
      { w with semaphore := w.semaphore.releaseToNextWaiter, permits := w.permits - 1 } := by
  have hconserved : Conserved w.semaphore w.tickets (w.permits - 1 + 1) total := by
    rw [Nat.sub_add_cancel hpos]
    exact h.conserved
  exact ⟨hconserved.releaseToNextWaiter htotal, h.fresh⟩

theorem Sound.step {w' : World} {op : Op} (h : Sound total w) (htotal : total < 2 ^ 64)
    (hs : step w op = some w') : Sound total w' := by
  cases op with
  | tryAcquire =>
      obtain rfl := Option.some.inj hs
      exact h.tryAcquire
  | acquire =>
      obtain rfl := Option.some.inj hs
      exact h.acquire
  | poll call waker =>
      simp only [Semaphore.step] at hs
      split at hs
      next f hcall =>
        obtain rfl := Option.some.inj hs
        exact h.poll hcall waker
      next =>
        obtain rfl := Option.some.inj hs
        exact h
      next => cases hs
      next => cases hs
  | dropCall call =>
      simp only [Semaphore.step] at hs
      split at hs
      next f hcall =>
        obtain rfl := Option.some.inj hs
        exact h.dropCall htotal hcall
      next hcall =>
        obtain rfl := Option.some.inj hs
        exact h.dropReturned hcall
      next => cases hs
      next => cases hs
  | dropPermit =>
      obtain ⟨hpos, hs⟩ := Option.ite_none_right_eq_some.mp hs
      obtain rfl := Option.some.inj hs
      exact h.dropPermit htotal hpos

end Sound

open Transition

/-- Every program using a semaphore of `n` permits: the available permits, the
live ones and the selected futures that have not returned theirs make `n`, so a
release of a permit has room for it in the counter; no permit is available while
a waiter is queued; permits are granted to the waiters in the order in which
they queued, skipping those whose futures were dropped first; and `try_acquire`
returns a permit only when nothing is queued. -/
theorem permits_of_reachable (n : UInt64) {w : World}
    (hreach : Reachable step (fun _ _ => True) (World.new n) w) :
    w.semaphore.permits + w.permits + w.selected.length = n.toNat ∧
    (0 < w.permits + w.selected.length → usizeSucc w.semaphore.permits = w.semaphore.permits + 1) ∧
    (0 < w.semaphore.permits → w.semaphore.queue.waiters = []) ∧
    w.semaphore.queue.selected ++ w.semaphore.queue.ids =
      (List.range w.semaphore.queue.nextId).filter (fun i => i ∉ w.semaphore.queue.removed) ∧
    (w.semaphore.tryAcquire.2 = true → w.semaphore.queue.waiters = []) := by
  have htotal : n.toNat < 2 ^ 64 := n.toNat_lt
  have h : Sound n.toNat w :=
    hreach.invariant (Sound n.toNat) (Sound.new n) fun _ _ _ h _ hs => h.step htotal hs
  have hlength : w.selected.length = w.semaphore.queue.holders id w.tickets :=
    WaitQueue.length_held _ _ _
  have hbalance := h.conserved.balance
  refine ⟨by omega, ?_, ?_, h.conserved.queue.fifo, ?_⟩
  · intro hout
    exact Nat.mod_eq_of_lt (by omega)
  · intro hpos
    simpa [WaitQueue.ids] using h.conserved.waiting hpos
  · intro hacquire
    by_contra hne
    rw [Counter.tryAcquire, if_pos (by simp [hne])] at hacquire
    cases hacquire

/-- One permit is out when two futures queue for it; the first one is dropped,
and the permit goes to the second one. -/
theorem permits_after_cancelled :
    ∃ w, Reachable step (fun _ _ => True) (World.new 1) w ∧ w.semaphore.queue.removed = [0] ∧
      w.semaphore.permits + w.permits + w.selected.length = 1 ∧
      w.semaphore.queue.selected ++ w.semaphore.queue.ids = [1] := by
  obtain ⟨w, hreach, hw⟩ := Reachable.exists_of_run step (fun _ _ => True) (World.new 1)
    [.tryAcquire, .acquire, .acquire, .poll 0 7, .poll 1 8, .dropCall 0, .dropPermit]
    (fun w => w.semaphore.queue.nextId == 2 && w.semaphore.queue.removed == [0])
    (by simp) (by decide)
  obtain ⟨hpermits, -, -, horder, -⟩ := permits_of_reachable 1 hreach
  simp only [Bool.and_eq_true, beq_iff_eq] at hw
  refine ⟨w, hreach, hw.2, hpermits, ?_⟩
  rw [horder, hw.1, hw.2]
  decide

end Runite.Sync.Semaphore
