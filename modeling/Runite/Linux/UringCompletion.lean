import Runite.Linux.UringSubmission

/-!
# The completion queue

What the kernel has posted and `drain_completions` has not taken is a queue: `drain_completions`
takes all of it, in the order of posting, whatever the positions have wrapped to.
-/

namespace Runite.Linux.IoUring

variable {τ : Type} {r r' : IoUring τ} {queue : List (IoUringCqe τ)} {cqe : IoUringCqe τ}

/-- The completion queue holds the completions. -/
structure Queued (r : IoUring τ) (queue : List (IoUringCqe τ)) : Prop where
  bits : r.cqBits ≤ 31
  head : r.cqHead < 2 ^ 32
  tail : r.cqTail = (r.cqHead + queue.length) % 2 ^ 32
  length : queue.length ≤ 2 ^ r.cqBits
  cells : RingBuffer.read r.cqBits r.cqes r.cqHead queue.length = queue.map some

theorem Queued.frame (h : r.Queued queue) (hframe : Frame r r') : r'.Queued queue where
  bits := le_of_eq_of_le hframe.cqBits h.bits
  head := by rw [hframe.cqHead]; exact h.head
  tail := by rw [hframe.cqHead, hframe.cqTail]; exact h.tail
  length := by rw [hframe.cqBits]; exact h.length
  cells := by rw [hframe.cqBits, hframe.cqes, hframe.cqHead]; exact h.cells

theorem Queued.distance (h : r.Queued queue) :
    RingBuffer.distance r.cqHead r.cqTail = queue.length := by
  have hlength : queue.length < 2 ^ 32 :=
    Nat.lt_of_le_of_lt h.length (Nat.pow_lt_pow_right Nat.one_lt_two (Nat.lt_succ_of_le h.bits))
  have hhead := h.head
  rw [RingBuffer.distance, h.tail]
  omega

theorem Queued.post (h : r.Queued queue) (hpost : r.post cqe = some r') :
    r'.Queued (queue ++ [cqe]) := by
  obtain ⟨hroom, hr'⟩ := Option.ite_none_right_eq_some.mp hpost
  rw [h.distance] at hroom
  obtain rfl := Option.some.inj hr'
  have hslot : RingBuffer.slot r.cqBits r.cqTail =
      RingBuffer.slot r.cqBits (r.cqHead + queue.length) := by
    rw [h.tail, RingBuffer.slot, RingBuffer.slot, Nat.mod_mod]
  have hread := RingBuffer.read_write (Nat.le_succ_of_le h.bits) r.cqes [some cqe] r.cqHead
    queue.length hroom
  rw [h.cells, RingBuffer.write, ← hslot] at hread
  refine ⟨h.bits, h.head, ?_, ?_, ?_⟩
  · dsimp only
    rw [h.tail, List.length_append, List.length_singleton, Nat.mod_add_mod, Nat.add_assoc]
  · rw [List.length_append]
    exact hroom
  · rw [List.length_append, List.map_append]
    exact hread

theorem Queued.drain [DecidableEq τ] (h : r.Queued queue) :
    r.drainCompletions.2 = queue ∧ r.drainCompletions.1.Queued [] := by
  refine ⟨?_, h.bits, ?_, ?_, Nat.zero_le _, rfl⟩
  · unfold drainCompletions
    rw [h.distance, h.cells, List.filterMap_map]
    exact List.filterMap_some
  · change r.cqTail < 2 ^ 32
    rw [h.tail]
    exact Nat.mod_lt _ (by decide)
  · change r.cqTail = (r.cqTail + 0) % 2 ^ 32
    rw [Nat.add_zero, h.tail, Nat.mod_mod]

end Runite.Linux.IoUring
