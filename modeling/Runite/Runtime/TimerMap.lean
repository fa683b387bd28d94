import Mathlib.Data.List.Sort
import Runite.Runtime.TimerHeap

/-!
# The timer heap as an ordered map

What the timer heap is for: a finite map from ids to timers that is read in the
order of `(deadline, id)`.  The map is a list in that order.  A run of the heap and
a run of the map give the same answers, and hold the same timers.
-/

namespace Runite.Runtime

inductive TimerOp
  | insert (node : TimerNode)
  | remove (id : Nat)
  | popDue (now : Nat)
  | peekDeadline
  deriving DecidableEq, Repr

inductive TimerAnswer
  | inserted
  | removed (node : Option TimerNode)
  | due (nodes : List TimerNode)
  | deadline (deadline : Option Nat)
  deriving DecidableEq, Repr

/-- `TimerHeap`, one operation after the other. -/
def TimerHeap.step (h : TimerHeap) : TimerOp → TimerHeap × TimerAnswer
  | .insert node => (h.insert node, .inserted)
  | .remove id => ((h.remove id).1, .removed (h.remove id).2)
  | .popDue now => ((h.popDue now).1, .due (h.popDue now).2)
  | .peekDeadline => (h, .deadline h.peekDeadline)

/-- A finite map from ids to timers, in the order of `(deadline, id)`. -/
structure TimerMap where
  nodes : List TimerNode := []
  sorted : nodes.Pairwise fun a b => a.key < b.key := by exact .nil
  distinct : ∀ a ∈ nodes, ∀ b ∈ nodes, a.id = b.id → a = b := by simp

namespace TimerMap

variable (m : TimerMap)

/-- The timers that `p` accepts. -/
def filter (p : TimerNode → Bool) : TimerMap where
  nodes := m.nodes.filter p
  sorted := m.sorted.filter p
  distinct a ha b hb := m.distinct a (List.mem_filter.mp ha).1 b (List.mem_filter.mp hb).1

def lookup (id : Nat) : Option TimerNode := m.nodes.find? fun node => node.id == id

def contains (id : Nat) : Bool := m.nodes.any fun node => node.id == id

/-- A timer takes its place in the order, and the place of the timer of the same id. -/
def insert (node : TimerNode) : TimerMap where
  nodes := (m.nodes.filter fun a => a.id ≠ node.id ∧ a.key < node.key) ++
    node :: m.nodes.filter fun a => a.id ≠ node.id ∧ node.key < a.key
  sorted := by
    rw [List.pairwise_append, List.pairwise_cons]
    refine ⟨m.sorted.filter _, ⟨?_, m.sorted.filter _⟩, ?_⟩
    · intro a ha
      exact (of_decide_eq_true (List.mem_filter.mp ha).2).2
    · intro a ha b hb
      have hlow := (of_decide_eq_true (List.mem_filter.mp ha).2).2
      rcases List.mem_cons.mp hb with rfl | hb
      · exact hlow
      · exact hlow.trans (of_decide_eq_true (List.mem_filter.mp hb).2).2
  distinct := by
    have hother : ∀ a, a ∈ (m.nodes.filter fun a => a.id ≠ node.id ∧ a.key < node.key) ++
        node :: m.nodes.filter (fun a => a.id ≠ node.id ∧ node.key < a.key) →
        a = node ∨ a ∈ m.nodes ∧ a.id ≠ node.id := by
      intro a ha
      simp only [List.mem_append, List.mem_cons, List.mem_filter, decide_eq_true_eq] at ha
      rcases ha with ⟨ha, hne, -⟩ | rfl | ⟨ha, hne, -⟩
      · exact Or.inr ⟨ha, hne⟩
      · exact Or.inl rfl
      · exact Or.inr ⟨ha, hne⟩
    intro a ha b hb hid
    rcases hother a ha with rfl | ⟨ha, hne⟩ <;> rcases hother b hb with rfl | ⟨hb, hne'⟩
    · rfl
    · exact absurd hid.symm hne'
    · exact absurd hid hne
    · exact m.distinct a ha b hb hid

def step : TimerOp → TimerMap × TimerAnswer
  | .insert node => (m.insert node, .inserted)
  | .remove id => (m.filter fun node => node.id ≠ id, .removed (m.lookup id))
  | .popDue now =>
      (m.filter fun node => now < node.deadline,
        .due (m.filter fun node => node.deadline ≤ now).nodes)
  | .peekDeadline => (m, .deadline (m.nodes.head?.map TimerNode.deadline))

/-- A timer is inserted under an id that is not there. -/
def permits : TimerOp → Bool
  | .insert node => !m.contains node.id
  | .remove _ | .popDue _ | .peekDeadline => true

/-- Every operation of the list is permitted when it comes. -/
def permitsAll : TimerMap → List TimerOp → Bool
  | _, [] => true
  | m, op :: ops => m.permits op && permitsAll (m.step op).1 ops

end TimerMap

/-- The operations of the list, and what they return. -/
def runTimers {σ : Type} (step : σ → TimerOp → σ × TimerAnswer) :
    σ → List TimerOp → σ × List TimerAnswer
  | s, [] => (s, [])
  | s, op :: ops =>
      let (s, answer) := step s op
      let (s, answers) := runTimers step s ops
      (s, answer :: answers)

/-- The heap is in order, and holds what the map holds. -/
structure Refines (h : TimerHeap) (m : TimerMap) : Prop where
  valid : h.Valid
  mem : ∀ a, a ∈ h.nodes ↔ a ∈ m.nodes

namespace Refines

variable {h : TimerHeap} {m : TimerMap}

theorem contains_iff {id : Nat} : m.contains id = true ↔ ∃ a ∈ m.nodes, a.id = id := by
  simp [TimerMap.contains]

theorem lookup_eq_some_iff {id : Nat} {a : TimerNode} :
    m.lookup id = some a ↔ a ∈ m.nodes ∧ a.id = id := by
  constructor
  · intro hfind
    exact ⟨List.mem_of_find?_eq_some hfind, by simpa using List.find?_some hfind⟩
  · rintro ⟨ha, rfl⟩
    cases hfind : m.lookup a.id with
    | none =>
        have hnone := List.find?_eq_none.mp hfind a ha
        simp at hnone
    | some b =>
        have hb := List.mem_of_find?_eq_some hfind
        have hid : b.id = a.id := by simpa using List.find?_some hfind
        rw [m.distinct b hb a ha hid]

/-- Lists in the order of the keys are equal if they have the same timers. -/
theorem sorted_ext {xs ys : List TimerNode} (hxs : xs.Pairwise fun a b => a.key < b.key)
    (hys : ys.Pairwise fun a b => a.key < b.key) (hmem : ∀ a, a ∈ xs ↔ a ∈ ys) : xs = ys := by
  have : Std.Antisymm fun a b : TimerNode => a.key < b.key :=
    ⟨fun _ _ hab hba => absurd hba (lt_asymm hab)⟩
  have : Std.Irrefl fun a b : TimerNode => a.key < b.key := ⟨fun _ => lt_irrefl _⟩
  exact hxs.eq_of_mem_iff hys hmem

theorem insert {node : TimerNode} (hrefines : Refines h m) (hfresh : m.contains node.id = false) :
    Refines (h.insert node) (m.insert node) := by
  have hne : ∀ a ∈ m.nodes, a.id ≠ node.id := by
    intro a ha heq
    have hcontains := contains_iff.mpr ⟨a, ha, heq⟩
    simp [hfresh] at hcontains
  obtain ⟨hvalid, hmem⟩ := TimerHeap.insert_spec hrefines.valid node
    fun a ha => hne a ((hrefines.mem a).mp ha)
  refine ⟨hvalid, fun a => (hmem a).trans ?_⟩
  rw [hrefines.mem]
  simp only [TimerMap.insert, List.mem_append, List.mem_cons, List.mem_filter, decide_eq_true_eq]
  constructor
  · rintro (rfl | ha)
    · exact Or.inr (Or.inl rfl)
    · -- timers of different ids have different keys
      rcases lt_or_gt_of_ne (TimerHeap.key_ne (hne a ha)) with hlt | hgt
      · exact Or.inl ⟨ha, hne a ha, hlt⟩
      · exact Or.inr (Or.inr ⟨ha, hne a ha, hgt⟩)
  · rintro (⟨ha, -⟩ | rfl | ⟨ha, -⟩)
    · exact Or.inr ha
    · exact Or.inl rfl
    · exact Or.inr ha

theorem remove (hrefines : Refines h m) (id : Nat) :
    Refines (h.remove id).1 (m.filter fun node => node.id ≠ id) ∧
      (h.remove id).2 = m.lookup id := by
  obtain ⟨hvalid, hmem, hfound⟩ := TimerHeap.remove_spec hrefines.valid id
  refine ⟨⟨hvalid, fun a => (hmem a).trans ?_⟩, Option.ext fun a => ?_⟩
  · rw [hrefines.mem]
    simp [TimerMap.filter]
  · rw [hfound, hrefines.mem, lookup_eq_some_iff]

theorem popDue (hrefines : Refines h m) (now : Nat) :
    Refines (h.popDue now).1 (m.filter fun node => now < node.deadline) ∧
      (h.popDue now).2 = (m.filter fun node => node.deadline ≤ now).nodes := by
  obtain ⟨hvalid, hkept, htaken, -⟩ := TimerHeap.popDue_spec hrefines.valid now
  have hsorted := TimerHeap.popDue_sorted hrefines.valid now
  refine ⟨⟨hvalid, fun a => (hkept a).trans ?_⟩, ?_⟩
  · rw [hrefines.mem]
    simp [TimerMap.filter]
  · have hsame : ∀ a, a ∈ (h.popDue now).2 ↔
        a ∈ (m.filter fun node => node.deadline ≤ now).nodes := by
      intro a
      rw [htaken, hrefines.mem]
      simp [TimerMap.filter]
    exact sorted_ext hsorted (m.filter _).sorted hsame

theorem peekDeadline (hrefines : Refines h m) :
    h.peekDeadline = m.nodes.head?.map TimerNode.deadline := by
  cases hpeek : h.peekDeadline with
  | none =>
      have hnil : m.nodes = [] := by
        rw [List.eq_nil_iff_forall_not_mem]
        intro a ha
        have hmem := (hrefines.mem a).mpr ha
        rw [TimerHeap.peekDeadline_eq_none_iff.mp hpeek] at hmem
        cases hmem
      rw [hnil]
      rfl
  | some deadline =>
      obtain ⟨⟨a, ha, rfl⟩, hleast⟩ := TimerHeap.peekDeadline_eq_some hrefines.valid hpeek
      have hmem := (hrefines.mem a).mp ha
      cases hnodes : m.nodes with
      | nil => simp [hnodes] at hmem
      | cons first rest =>
          have hfirst : first ∈ h.nodes := (hrefines.mem first).mpr (by simp [hnodes])
          have hsorted := m.sorted
          rw [hnodes] at hmem hsorted
          have hle : first.deadline ≤ a.deadline := by
            rcases List.mem_cons.mp hmem with rfl | hrest
            · exact Nat.le_refl _
            · exact TimerHeap.key_le (le_of_lt ((List.pairwise_cons.mp hsorted).1 a hrest))
          simp [Nat.le_antisymm (hleast first hfirst) hle]

/-- An operation of the heap is the operation of the map. -/
theorem step {op : TimerOp} (hrefines : Refines h m) (hpermits : m.permits op = true) :
    Refines (h.step op).1 (m.step op).1 ∧ (h.step op).2 = (m.step op).2 := by
  cases op with
  | insert node => exact ⟨hrefines.insert (by simpa [TimerMap.permits] using hpermits), rfl⟩
  | remove id =>
      obtain ⟨hresult, hanswer⟩ := hrefines.remove id
      exact ⟨hresult, congrArg TimerAnswer.removed hanswer⟩
  | popDue now =>
      obtain ⟨hresult, hanswer⟩ := hrefines.popDue now
      exact ⟨hresult, congrArg TimerAnswer.due hanswer⟩
  | peekDeadline => exact ⟨hrefines, congrArg TimerAnswer.deadline hrefines.peekDeadline⟩

theorem run {ops : List TimerOp} (hrefines : Refines h m) (hpermits : m.permitsAll ops = true) :
    Refines (runTimers TimerHeap.step h ops).1 (runTimers TimerMap.step m ops).1 ∧
      (runTimers TimerHeap.step h ops).2 = (runTimers TimerMap.step m ops).2 := by
  induction ops generalizing h m with
  | nil => exact ⟨hrefines, rfl⟩
  | cons op ops ih =>
      obtain ⟨hop, hops⟩ := (Bool.and_eq_true _ _).mp hpermits
      obtain ⟨hnext, hanswer⟩ := hrefines.step hop
      obtain ⟨hresult, hanswers⟩ := ih hnext hops
      exact ⟨hresult, congrArg₂ List.cons hanswer hanswers⟩

end Refines

/-- Along every permitted run, the heap gives the answers of the map, its positions are the inverse
of its nodes, its nodes are in heap order, and it holds the timers of the map. -/
theorem timerHeap_refines_timerMap (ops : List TimerOp)
    (hpermits : ({} : TimerMap).permitsAll ops = true) :
    (runTimers TimerHeap.step {} ops).2 = (runTimers TimerMap.step {} ops).2 ∧
      (∀ a, a ∈ (runTimers TimerHeap.step {} ops).1.nodes ↔
        a ∈ (runTimers TimerMap.step {} ops).1.nodes) ∧
      (∀ id i, (runTimers TimerHeap.step {} ops).1.positions id = some i ↔
        (runTimers TimerHeap.step {} ops).1.nodes[i]?.map TimerNode.id = some id) ∧
      ∀ i a b, 0 < i → (runTimers TimerHeap.step {} ops).1.nodes[i]? = some b →
        (runTimers TimerHeap.step {} ops).1.nodes[(i - 1) / 2]? = some a → a.key ≤ b.key := by
  have hrefines : Refines {} {} := ⟨TimerHeap.valid_empty, fun _ => Iff.rfl⟩
  obtain ⟨hresult, hanswers⟩ := hrefines.run hpermits
  refine ⟨hanswers, hresult.mem, hresult.valid.indexed, ?_⟩
  intro i a b hi hb ha
  have hle := hresult.valid.ordered i hi
  rw [IndexedHeap.keyAt_of_some hb, IndexedHeap.keyAt_of_some (i := IndexedHeap.parent i) ha] at hle
  exact WithTop.coe_le_coe.mp hle

/-- Three timers, one of them removed from the middle, and two due. -/
theorem timerHeap_refines_timerMap_after_removal :
    ({} : TimerMap).permitsAll
        [.insert ⟨0, 5, .timeout⟩, .insert ⟨1, 3, .interval⟩, .insert ⟨2, 3, .timeout⟩,
          .insert ⟨3, 9, .timeout⟩, .remove 0, .popDue 4, .peekDeadline] = true ∧
      (runTimers TimerHeap.step {}
        [.insert ⟨0, 5, .timeout⟩, .insert ⟨1, 3, .interval⟩, .insert ⟨2, 3, .timeout⟩,
          .insert ⟨3, 9, .timeout⟩, .remove 0, .popDue 4, .peekDeadline]).2 =
        [.inserted, .inserted, .inserted, .inserted, .removed (some ⟨0, 5, .timeout⟩),
          .due [⟨1, 3, .interval⟩, ⟨2, 3, .timeout⟩], .deadline (some 9)] := by
  have hpermits : ({} : TimerMap).permitsAll
      [.insert ⟨0, 5, .timeout⟩, .insert ⟨1, 3, .interval⟩, .insert ⟨2, 3, .timeout⟩,
        .insert ⟨3, 9, .timeout⟩, .remove 0, .popDue 4, .peekDeadline] = true := by
    decide
  exact ⟨hpermits, (timerHeap_refines_timerMap _ hpermits).1.trans (by decide)⟩

end Runite.Runtime
