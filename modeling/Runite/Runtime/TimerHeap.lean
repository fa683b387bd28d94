import Mathlib.Data.Prod.Lex
import Runite.Lib.IndexedHeapSpec

/-!
# The timer heap

`platform::runtime_shared::timer`: an indexed heap of timers, by their ids and in the order of
`(deadline, id)`.  Durations are in nanoseconds.
-/

namespace Runite.Runtime

/-- `TimerKind`, without the callback -/
inductive TimerKind
  | timeout
  | interval
  deriving DecidableEq, Repr

structure TimerNode where
  id : Nat
  deadline : Nat
  kind : TimerKind
  deriving DecidableEq, Repr

/-- The key that `less` compares. -/
def TimerNode.key (node : TimerNode) : Nat ×ₗ Nat := toLex (node.deadline, node.id)

abbrev TimerHeap := IndexedHeap TimerNode Nat

namespace TimerHeap

variable (h : TimerHeap)

def isEmpty : Bool := h.nodes.isEmpty

def peekDeadline : Option Nat := h.nodes.head?.map TimerNode.deadline

def insert (node : TimerNode) : TimerHeap := IndexedHeap.insert TimerNode.id TimerNode.key h node

def remove (id : Nat) : TimerHeap × Option TimerNode :=
  IndexedHeap.remove TimerNode.id TimerNode.key h id

def popDue (now : Nat) : TimerHeap × List TimerNode :=
  IndexedHeap.popWhile TimerNode.id TimerNode.key (fun node => node.deadline ≤ now)
    h.nodes.length h

/-- The positions are right, and the timers are in the order of `(deadline, id)`. -/
def Valid : Prop := IndexedHeap.Valid TimerNode.id TimerNode.key h

variable {h} {node a : TimerNode} {id now : Nat}

theorem valid_empty : TimerHeap.Valid ({} : IndexedHeap TimerNode Nat) where
  indexed := by simp [IndexedHeap.Indexed]
  ordered := by
    intro i _
    exact le_of_le_of_eq le_top (IndexedHeap.keyAt_of_le (Nat.zero_le i)).symm

theorem Valid.unique {b : TimerNode} (hvalid : h.Valid) (ha : a ∈ h.nodes) (hb : b ∈ h.nodes)
    (hid : a.id = b.id) : a = b :=
  IndexedHeap.Valid.eq_of_ident hvalid ha hb hid

theorem Valid.nodup (hvalid : h.Valid) : (h.nodes.map TimerNode.id).Nodup :=
  IndexedHeap.Valid.nodup hvalid

theorem insert_spec (hvalid : h.Valid) (node : TimerNode) (hfresh : ∀ a ∈ h.nodes, a.id ≠ node.id) :
    (h.insert node).Valid ∧ ∀ a, a ∈ (h.insert node).nodes ↔ a = node ∨ a ∈ h.nodes :=
  IndexedHeap.insert_spec hvalid hfresh

theorem mem_insert_of_ne (hvalid : h.Valid) (hfresh : ∀ a ∈ h.nodes, a.id ≠ node.id)
    (hne : a.id ≠ node.id) : a ∈ (h.insert node).nodes ↔ a ∈ h.nodes := by
  obtain ⟨-, hnodes⟩ := insert_spec hvalid node hfresh
  refine (hnodes a).trans (or_iff_right ?_)
  rintro rfl
  exact hne rfl

theorem remove_spec (hvalid : h.Valid) (id : Nat) :
    (h.remove id).1.Valid ∧
      (∀ a, a ∈ (h.remove id).1.nodes ↔ a ∈ h.nodes ∧ a.id ≠ id) ∧
      ∀ a, (h.remove id).2 = some a ↔ a ∈ h.nodes ∧ a.id = id := by
  obtain ⟨hresult, hnodes, hfound, -⟩ := IndexedHeap.remove_spec hvalid id
  exact ⟨hresult, hnodes, hfound⟩

theorem remove_of_absent (hvalid : h.Valid) (habsent : ∀ a ∈ h.nodes, a.id ≠ id) :
    h.remove id = (h, none) := by
  have hnone : h.positions id = none :=
    IndexedHeap.Valid.positions_eq_none_iff hvalid |>.mpr habsent
  unfold remove IndexedHeap.remove
  rw [hnone]

theorem key_le {b : TimerNode} (hle : a.key ≤ b.key) : a.deadline ≤ b.deadline := by
  rcases (Prod.Lex.toLex_le_toLex).mp hle with hlt | ⟨heq, -⟩
  · exact Nat.le_of_lt hlt
  · exact Nat.le_of_eq heq

theorem popDue_spec (hvalid : h.Valid) (now : Nat) :
    (h.popDue now).1.Valid ∧
      (∀ a, a ∈ (h.popDue now).1.nodes ↔ a ∈ h.nodes ∧ now < a.deadline) ∧
      (∀ a, a ∈ (h.popDue now).2 ↔ a ∈ h.nodes ∧ a.deadline ≤ now) ∧
      ((h.popDue now).2.map TimerNode.id).Nodup := by
  have hdue : ∀ a b : TimerNode, a.key ≤ b.key → decide (b.deadline ≤ now) = true →
      decide (a.deadline ≤ now) = true := by
    intro a b hle hb
    exact decide_eq_true (Nat.le_trans (key_le hle) (of_decide_eq_true hb))
  obtain ⟨hresult, hkept, htaken, hnodup, -⟩ :=
    IndexedHeap.popWhile_spec hvalid hdue (Nat.le_refl _)
  refine ⟨hresult, fun a => (hkept a).trans ?_, fun a => (htaken a).trans ?_, hnodup⟩
  · rw [decide_eq_false_iff_not, Nat.not_le]
  · rw [decide_eq_true_iff]

theorem key_ne {b : TimerNode} (hid : a.id ≠ b.id) : a.key ≠ b.key :=
  fun heq => hid (congrArg (fun key => (ofLex key).2) heq)

/-- What is due comes in the order of `(deadline, id)`. -/
theorem popDue_sorted (hvalid : h.Valid) (now : Nat) :
    (h.popDue now).2.Pairwise fun a b => a.key < b.key := by
  have hdue : ∀ a b : TimerNode, a.key ≤ b.key → decide (b.deadline ≤ now) = true →
      decide (a.deadline ≤ now) = true := by
    intro a b hle hb
    exact decide_eq_true (Nat.le_trans (key_le hle) (of_decide_eq_true hb))
  obtain ⟨-, -, -, hnodup, hsorted⟩ := IndexedHeap.popWhile_spec hvalid hdue (Nat.le_refl _)
  have hids := List.pairwise_map.mp hnodup
  exact (hsorted.and hids).imp fun hab => lt_of_le_of_ne hab.1 (key_ne hab.2)

theorem peekDeadline_eq_none_iff : h.peekDeadline = none ↔ h.nodes = [] := by
  unfold peekDeadline
  rw [Option.map_eq_none_iff, List.head?_eq_none_iff]

theorem peekDeadline_eq_some {deadline : Nat} (hvalid : h.Valid)
    (hpeek : h.peekDeadline = some deadline) :
    (∃ a ∈ h.nodes, a.deadline = deadline) ∧ ∀ a ∈ h.nodes, deadline ≤ a.deadline := by
  obtain ⟨first, hhead, rfl⟩ := Option.map_eq_some_iff.mp hpeek
  refine ⟨⟨first, List.mem_of_mem_head? hhead, rfl⟩, fun a ha => ?_⟩
  exact key_le (IndexedHeap.Valid.head_le hvalid hhead ha)

end TimerHeap

end Runite.Runtime
