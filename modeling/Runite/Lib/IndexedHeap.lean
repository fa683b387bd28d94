import Mathlib.Order.WithBot
import Mathlib.Logic.Equiv.Basic
import Runite.Lib.Table

/-!
# Binary heaps with an index

A binary min-heap in a list, with the position of every node under its identity, so that any
node can be taken out.  `Indexed` says that the positions are the inverse of the list, and
`Ordered` that no node is before its parent.  The order is studied on the keys alone: `keyAt`
reads the key at a position, and past the end there is a key after all others, so that a child
that does not exist needs no case of its own.
-/

/-- The nodes of a heap, and where each of them is. -/
structure IndexedHeap (α ι : Type*) where
  nodes : List α := []
  positions : ι → Option Nat := fun _ => none

namespace IndexedHeap

variable {α ι κ : Type*}

def parent (index : Nat) : Nat := (index - 1) / 2

theorem parent_lt {index : Nat} (h : 0 < index) : parent index < index := by
  unfold parent
  omega

theorem parent_eq_iff {i j : Nat} (h : 0 < i) :
    parent i = j ↔ i = 2 * j + 1 ∨ i = 2 * j + 2 := by
  unfold parent
  omega

/-! ## The order of keys -/

theorem swap_apply_other {k : Nat → κ} {i j x : Nat} (hi : x ≠ i) (hj : x ≠ j) :
    (k ∘ Equiv.swap i j) x = k x :=
  congrArg k (Equiv.swap_apply_of_ne_of_ne hi hj)

theorem swap_apply_first {k : Nat → κ} (i j : Nat) : (k ∘ Equiv.swap i j) i = k j :=
  congrArg k (Equiv.swap_apply_left i j)

theorem swap_apply_second {k : Nat → κ} (i j : Nat) : (k ∘ Equiv.swap i j) j = k i :=
  congrArg k (Equiv.swap_apply_right i j)

section Keys

variable [LinearOrder κ] {k : Nat → κ} {i j : Nat}

/-- No key is before the key of its parent. -/
def Ordered (k : Nat → κ) : Prop :=
  ∀ i, 0 < i → k (parent i) ≤ k i

/-- The key at `index` may be before its parent; everything else is in order, also when that
key is left out. -/
structure UpOrdered (k : Nat → κ) (index : Nat) : Prop where
  others : ∀ i, 0 < i → i ≠ index → k (parent i) ≤ k i
  across : ∀ i, 0 < i → parent i = index → 0 < index → k (parent index) ≤ k i

/-- The key at `index` may be after its children; everything else is in order, also when that
key is left out. -/
structure DownOrdered (k : Nat → κ) (index : Nat) : Prop where
  others : ∀ i, 0 < i → parent i ≠ index → k (parent i) ≤ k i
  across : ∀ i, 0 < i → parent i = index → 0 < index → k (parent index) ≤ k i

theorem UpOrdered.ordered (h : UpOrdered k i) (hstop : 0 < i → k (parent i) ≤ k i) :
    Ordered k := by
  intro j hj
  by_cases heq : j = i
  · subst heq
    exact hstop hj
  · exact h.others j hj heq

theorem DownOrdered.ordered (h : DownOrdered k i) (hleft : k i ≤ k (2 * i + 1))
    (hright : k i ≤ k (2 * i + 2)) : Ordered k := by
  intro j hj
  by_cases heq : parent j = i
  · rw [heq]
    rcases (parent_eq_iff hj).mp heq with rfl | rfl
    · exact hleft
    · exact hright
  · exact h.others j hj heq

/-- A key that is before its parent changes places with it. -/
theorem UpOrdered.swap (h : UpOrdered k i) (hpos : 0 < i) (hless : k i < k (parent i)) :
    UpOrdered (k ∘ Equiv.swap i (parent i)) (parent i) := by
  have hlt := parent_lt hpos
  constructor
  · intro j hj hne
    by_cases hji : j = i
    · subst hji
      rw [swap_apply_first, swap_apply_second]
      exact le_of_lt hless
    · rw [swap_apply_other hji hne]
      by_cases hchild : parent j = i
      · rw [hchild, swap_apply_first]
        exact h.across j hj hchild hpos
      · by_cases hsibling : parent j = parent i
        · rw [hsibling, swap_apply_second]
          exact le_of_lt (lt_of_lt_of_le hless (hsibling ▸ h.others j hj hji))
        · rw [swap_apply_other hchild hsibling]
          exact h.others j hj hji
  · intro j hj hchild hparent
    have hgrand := parent_lt hparent
    have hup : k (parent (parent i)) ≤ k (parent i) := h.others _ hparent (by omega)
    rw [swap_apply_other (x := parent (parent i)) (by omega) (by omega)]
    by_cases hji : j = i
    · subst hji
      rw [swap_apply_first]
      exact hup
    · have hjp : j ≠ parent i := by
        have hjlt := parent_lt hj
        omega
      rw [swap_apply_other hji hjp]
      exact le_trans hup (hchild ▸ h.others j hj hji)

/-- A key that is after one of its children changes places with the first of them. -/
theorem DownOrdered.swap (h : DownOrdered k i) (hpos : 0 < j) (hj : parent j = i)
    (hless : k j < k i) (hfirst : ∀ c, 0 < c → parent c = i → k j ≤ k c) :
    DownOrdered (k ∘ Equiv.swap i j) j := by
  have hij : i < j := hj ▸ parent_lt hpos
  constructor
  · intro c hc hne
    have hclt := parent_lt hc
    by_cases hcj : c = j
    · subst hcj
      rw [swap_apply_second, hj, swap_apply_first]
      exact le_of_lt hless
    · by_cases hci : c = i
      · subst hci
        rw [swap_apply_first, swap_apply_other (by omega) (by omega)]
        exact h.across j hpos hj hc
      · rw [swap_apply_other hci hcj]
        by_cases hsibling : parent c = i
        · rw [hsibling, swap_apply_first]
          exact hfirst c hc hsibling
        · rw [swap_apply_other hsibling hne]
          exact h.others c hc hsibling
  · intro c hc hchild _
    have hclt := parent_lt hc
    rw [hj, swap_apply_first, swap_apply_other (by omega) (by omega)]
    have hle := h.others c hc (by omega)
    rwa [hchild] at hle

theorem Ordered.first_le (h : Ordered k) (i : Nat) : k 0 ≤ k i := by
  induction i using Nat.strong_induction_on with
  | _ i ih =>
      rcases Nat.eq_zero_or_pos i with rfl | hpos
      · exact le_refl _
      · exact le_trans (ih (parent i) (parent_lt hpos)) (h i hpos)

end Keys

/-! ## The operations -/

section Operations

variable [DecidableEq ι] [LinearOrder κ] (ident : α → ι) (key : α → κ) (h : IndexedHeap α ι)

/-- Whether the first of two nodes is before the second. -/
def less (lhs rhs : Nat) : Bool :=
  match h.nodes[lhs]?, h.nodes[rhs]? with
  | some a, some b => key a < key b
  | _, _ => false

def swap (lhs rhs : Nat) : IndexedHeap α ι :=
  match h.nodes[lhs]?, h.nodes[rhs]? with
  | some a, some b =>
      { nodes := (h.nodes.set lhs b).set rhs a
        positions := Function.update (Function.update h.positions (ident b) (some lhs))
          (ident a) (some rhs) }
  | _, _ => h

/-- The loop ends at the latest when `fuel` reaches the root. -/
def siftUp : Nat → IndexedHeap α ι → Nat → IndexedHeap α ι
  | 0, h, _ => h
  | fuel + 1, h, index =>
      if 0 < index ∧ h.less key index (parent index) then
        siftUp fuel (h.swap ident index (parent index)) (parent index)
      else h

/-- The first of a node and its children. -/
def smallest (index : Nat) : Nat :=
  let left := index * 2 + 1
  let right := left + 1
  let smallest := if left < h.nodes.length ∧ h.less key left index then left else index
  if right < h.nodes.length ∧ h.less key right smallest then right else smallest

/-- The loop ends at the latest when `fuel` reaches the end of the list. -/
def siftDown : Nat → IndexedHeap α ι → Nat → IndexedHeap α ι
  | 0, h, _ => h
  | fuel + 1, h, index =>
      if h.smallest key index = index then h
      else siftDown fuel (h.swap ident index (h.smallest key index)) (h.smallest key index)

def fix (index : Nat) : IndexedHeap α ι :=
  if 0 < index ∧ h.less key index (parent index) then siftUp ident key index h index
  else siftDown ident key h.nodes.length h index

def insert (node : α) : IndexedHeap α ι :=
  siftUp ident key h.nodes.length
    { nodes := h.nodes ++ [node]
      positions := Function.update h.positions (ident node) (some h.nodes.length) }
    h.nodes.length

/-- The node is taken out, and the last one takes its place. -/
def remove (id : ι) : IndexedHeap α ι × Option α :=
  match h.positions id, h.nodes.getLast? with
  | some index, some last =>
      let nodes := h.nodes.dropLast
      let positions := Function.update h.positions id none
      if index = nodes.length then ({ nodes, positions }, some last)
      else
        (fix ident key
          { nodes := nodes.set index last
            positions := Function.update positions (ident last) (some index) } index,
          nodes[index]?)
  | _, _ => (h, none)

def popMin : IndexedHeap α ι × Option α :=
  match h.nodes.head? with
  | some node => h.remove ident key (ident node)
  | none => (h, none)

/-- The nodes that are due, from the first one on; `fuel` is the number of nodes. -/
def popWhile (due : α → Bool) : Nat → IndexedHeap α ι → IndexedHeap α ι × List α
  | 0, h => (h, [])
  | fuel + 1, h =>
      if h.nodes.head?.any due then
        match h.popMin ident key with
        | (h, some node) =>
            let (h, rest) := popWhile due fuel h
            (h, node :: rest)
        | (h, none) => (h, [])
      else (h, [])

end Operations

/-! ## What a heap holds -/

section Spec

variable {ident : α → ι} {key : α → κ} {h h' : IndexedHeap α ι} {i j : Nat} {a : α}

/-- The positions are the inverse of the list. -/
def Indexed (ident : α → ι) (h : IndexedHeap α ι) : Prop :=
  ∀ id i, h.positions id = some i ↔ h.nodes[i]?.map ident = some id

/-- The key at a position, and a key after all others where there is no node. -/
def keyAt (key : α → κ) (h : IndexedHeap α ι) (i : Nat) : WithTop κ :=
  h.nodes[i]?.elim ⊤ fun a => (key a : WithTop κ)

structure Same (h h' : IndexedHeap α ι) : Prop where
  length : h'.nodes.length = h.nodes.length
  mem : ∀ a, a ∈ h'.nodes ↔ a ∈ h.nodes

theorem Same.refl (h : IndexedHeap α ι) : Same h h := ⟨rfl, fun _ => Iff.rfl⟩

theorem Same.trans {h'' : IndexedHeap α ι} (hfirst : Same h h') (hsecond : Same h' h'') :
    Same h h'' :=
  ⟨hsecond.length.trans hfirst.length, fun a => (hsecond.mem a).trans (hfirst.mem a)⟩

theorem keyAt_of_some (hi : h.nodes[i]? = some a) : h.keyAt key i = key a := by
  unfold keyAt
  rw [hi]
  rfl

theorem keyAt_of_le (hi : h.nodes.length ≤ i) : h.keyAt key i = ⊤ := by
  unfold keyAt
  rw [List.getElem?_eq_none hi]
  rfl

theorem Indexed.positions_eq (hindexed : h.Indexed ident) (hi : h.nodes[i]? = some a) :
    h.positions (ident a) = some i :=
  (hindexed _ _).mpr (by rw [hi]; rfl)

/-! ## Swapping -/

variable [DecidableEq ι]

theorem getElem?_swap (hi : i < h.nodes.length) (hj : j < h.nodes.length) (x : Nat) :
    (h.swap ident i j).nodes[x]? = h.nodes[Equiv.swap i j x]? := by
  have hia := List.getElem?_eq_getElem hi
  have hjb := List.getElem?_eq_getElem hj
  unfold swap
  rw [hia, hjb]
  simp only [List.getElem?_set, List.length_set]
  by_cases hxj : j = x
  · subst hxj
    simp [hj, hia]
  · by_cases hxi : i = x
    · subst hxi
      simp [hxj, hi, hjb]
    · rw [Equiv.swap_apply_of_ne_of_ne (Ne.symm hxi) (Ne.symm hxj)]
      simp [hxi, hxj]

theorem length_swap : (h.swap ident i j).nodes.length = h.nodes.length := by
  unfold swap
  split
  · simp
  · rfl

theorem same_swap (hi : i < h.nodes.length) (hj : j < h.nodes.length) :
    Same h (h.swap ident i j) := by
  refine ⟨length_swap, fun a => ?_⟩
  rw [List.mem_iff_getElem?, List.mem_iff_getElem?]
  constructor
  · rintro ⟨x, hx⟩
    rw [getElem?_swap hi hj] at hx
    exact ⟨_, hx⟩
  · rintro ⟨x, hx⟩
    refine ⟨Equiv.swap i j x, ?_⟩
    rw [getElem?_swap hi hj, Equiv.swap_apply_self]
    exact hx

theorem keyAt_swap (hi : i < h.nodes.length) (hj : j < h.nodes.length) :
    (h.swap ident i j).keyAt key = h.keyAt key ∘ Equiv.swap i j := by
  funext x
  unfold keyAt
  rw [getElem?_swap hi hj]
  rfl

theorem Indexed.swap (hindexed : h.Indexed ident) (hi : i < h.nodes.length)
    (hj : j < h.nodes.length) : (h.swap ident i j).Indexed ident := by
  intro id x
  rw [getElem?_swap hi hj, ← hindexed]
  have hia := List.getElem?_eq_getElem hi
  have hjb := List.getElem?_eq_getElem hj
  have hpa := hindexed.positions_eq hia
  have hpb := hindexed.positions_eq hjb
  unfold IndexedHeap.swap
  rw [hia, hjb]
  simp only
  by_cases ha : id = ident h.nodes[i]
  · rw [ha, Function.update_self, hpa, Option.some_inj, Option.some_inj]
    constructor
    · rintro rfl
      exact (Equiv.swap_apply_right i j).symm
    · intro heq
      rw [← Equiv.swap_apply_self i j x, ← heq, Equiv.swap_apply_left]
  · rw [Function.update_of_ne ha]
    by_cases hb : id = ident h.nodes[j]
    · rw [hb, Function.update_self, hpb, Option.some_inj, Option.some_inj]
      constructor
      · rintro rfl
        exact (Equiv.swap_apply_left i j).symm
      · intro heq
        rw [← Equiv.swap_apply_self i j x, ← heq, Equiv.swap_apply_right]
    · rw [Function.update_of_ne hb]
      -- The identity is at neither place.
      have hnot : ∀ y, h.positions id = some y → y ≠ i ∧ y ≠ j := by
        intro y hy
        have hmap := (hindexed id y).mp hy
        constructor
        · rintro rfl
          rw [hia] at hmap
          exact ha (Option.some.inj hmap).symm
        · rintro rfl
          rw [hjb] at hmap
          exact hb (Option.some.inj hmap).symm
      constructor
      · intro hx
        obtain ⟨hxi, hxj⟩ := hnot x hx
        rwa [Equiv.swap_apply_of_ne_of_ne hxi hxj]
      · intro hx
        obtain ⟨hxi, hxj⟩ := hnot _ hx
        have hfix : Equiv.swap i j x = x := by
          rw [← Equiv.swap_apply_of_ne_of_ne hxi hxj, Equiv.swap_apply_self]
        rwa [hfix] at hx

end Spec

end IndexedHeap
