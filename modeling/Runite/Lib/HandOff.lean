import Runite.Lib.WaitQueue

/-!
# Slots handed over through a queue

A fixed number of slots, some of them free and the others out.  A slot that is
given back goes directly to the front waiter of a queue, whose cell is set, and
is free only when nobody waits.  So a slot is free, held by a party that took it,
or held by a party whose waiter was selected, and no slot is free while a waiter
is queued.
-/

namespace WaitQueue

variable {ω : Type*} {q q' : WaitQueue Bool ω} {tickets : List (Option Nat)}
  {out free total k i : Nat} {ticket : Option Nat}

/-- Of `total` slots `free` are free, `out` are taken and the others belong to
the parties that were selected. -/
structure Slots (q : WaitQueue Bool ω) (tickets : List (Option Nat)) (out free total : Nat) :
    Prop where
  queue : q.Consistent tickets
  balance : free + out + q.holders id tickets = total
  waiting : 0 < free → q.ids = []

theorem Slots.init (total : Nat) : Slots ({} : WaitQueue Bool ω) [] 0 total total :=
  ⟨.init, by simp [holders], fun _ => rfl⟩

theorem Slots.free_eq_zero (h : Slots q tickets out free total) (hne : q.ids ≠ []) : free = 0 := by
  by_contra hfree
  exact hne (h.waiting (Nat.pos_of_ne_zero hfree))

theorem Slots.take (h : Slots q tickets out (free + 1) total) :
    Slots q tickets (out + 1) free total := by
  refine ⟨h.queue, ?_, fun _ => h.waiting (Nat.succ_pos free)⟩
  have hbalance := h.balance
  omega

theorem Slots.handOver (h : Slots q tickets (out + 1) free total) (hpop : Popped q q' true i) :
    Slots q' tickets out free total := by
  have hcount := holders_popped (p := id) h.queue rfl hpop
  refine ⟨h.queue.popped (by decide) hpop, ?_, fun hfree => ?_⟩
  · have hbalance := h.balance
    simp only [id, Bool.toNat_true] at hcount
    omega
  · have hnil := h.waiting hfree
    rw [hpop.ids] at hnil
    cases hnil

theorem Slots.giveBack (h : Slots q tickets (out + 1) free total) (hids : q.ids = []) :
    Slots q tickets out (free + 1) total := by
  refine ⟨h.queue, ?_, fun _ => hids⟩
  have hbalance := h.balance
  omega

theorem Slots.join (h : Slots q tickets out free total) :
    Slots q (tickets ++ [none]) out free total :=
  ⟨h.queue.join, by rw [holders_join]; exact h.balance, h.waiting⟩

theorem Slots.leave (h : Slots q tickets out free total) (hk : tickets[k]? = some none) :
    Slots q (tickets.set k none) out free total :=
  (Table.set_eq_self hk).symm ▸ h

theorem Slots.collect (h : Slots q tickets out free total) (hk : tickets[k]? = some (some i))
    (hcell : q.cells i = true) : Slots q (tickets.set k none) (out + 1) free total := by
  refine ⟨h.queue.leave hk ?_, ?_, h.waiting⟩
  · rintro j ⟨⟩ hmem
    have hnot := h.queue.unselected i hmem
    rw [hcell] at hnot
    cases hnot
  · have hbalance := h.balance
    have hleave := holders_leave (q := q) (p := id) hk
    rw [holds_some, hcell] at hleave
    simp only [id, Bool.toNat_true] at hleave
    omega

theorem Slots.cancel (h : Slots q tickets out free total) (hk : tickets[k]? = some (some i))
    (hcell : q.cells i = false) : Slots (q.remove i) (tickets.set k none) out free total := by
  have hid := h.queue.queued i (List.mem_of_getElem? hk) hcell
  refine ⟨h.queue.remove hk hid, ?_, fun hfree => ?_⟩
  · rw [holders_remove rfl hk hcell]
    exact h.balance
  · rw [h.waiting hfree] at hid
    cases hid

theorem Slots.await (h : Slots q tickets out 0 total) (hk : tickets[k]? = some ticket)
    (waker : ω) :
    Slots (q.await ticket waker).1 (tickets.set k (q.await ticket waker).2) out 0 total := by
  refine ⟨h.queue.await waker hk, ?_, fun hfree => absurd hfree (Nat.lt_irrefl 0)⟩
  rw [holders_await h.queue waker rfl hk]
  exact h.balance

/-- Who neither holds a slot nor finds one that it may take has none to take. -/
theorem Slots.free_eq_zero_of_wait (h : Slots q tickets out free total)
    (hk : tickets[k]? = some ticket) (hsel : q.holds id ticket = false)
    (hwait : ticket = none → free = 0 ∨ q.ids ≠ []) : free = 0 := by
  cases ticket with
  | none => exact (hwait rfl).elim id h.free_eq_zero
  | some i =>
      have hid := h.queue.queued i (List.mem_of_getElem? hk) (by simpa using hsel)
      exact h.free_eq_zero (List.ne_nil_of_mem hid)

/-- A selected party stays selected while another one waits. -/
theorem Slots.await_keep (h : Slots q tickets out free total) (hk : tickets[k]? = some ticket)
    (hsel : q.holds id ticket = false) (waker : ω) (hi : some i ∈ tickets)
    (hcell : q.cells i = true) :
    some i ∈ tickets.set k (q.await ticket waker).2 ∧
      (q.await ticket waker).1.cells i = true := by
  constructor
  · rw [mem_set_iff h.queue.unshared hk]
    refine .inr ⟨fun heq => ?_, hi⟩
    rw [heq, holds_some, id, hcell] at hsel
    cases hsel
  · rw [await_cells waker (h.queue.issued i hi)]
    exact hcell

/-- A selected party stays selected while a queued one leaves. -/
theorem Slots.cancel_keep {j : Nat} (h : Slots q tickets out free total)
    (hk : tickets[k]? = some (some i)) (hcell : q.cells i = false) (hj : some j ∈ tickets)
    (hset : q.cells j = true) :
    some j ∈ tickets.set k none ∧ (q.remove i).cells j = true := by
  rw [mem_set_iff h.queue.unshared hk, remove_cells]
  refine ⟨.inr ⟨fun heq => ?_, hj⟩, hset⟩
  rw [Option.some.inj heq, hset] at hcell
  cases hcell

end WaitQueue
