import Mathlib.Data.List.Nodup
import Runite.Lib.IndexedHeap

/-!
# What the operations of an indexed heap do

A valid heap is a finite map of its nodes by their identities.  `insert` adds a node, `remove`
takes out the node with an identity and no other, the first node has the least key, and
`popWhile` takes out the nodes that are due in the order of their keys.
-/

namespace IndexedHeap

variable {α ι κ : Type*} [LinearOrder κ] {ident : α → ι} {key : α → κ} {h h' : IndexedHeap α ι}
  {i j index : Nat} {node a : α}

/-- The positions are right, and the nodes are in order. -/
structure Valid (ident : α → ι) (key : α → κ) (h : IndexedHeap α ι) : Prop where
  indexed : h.Indexed ident
  ordered : Ordered (h.keyAt key)

theorem less_iff (hi : i < h.nodes.length) (hj : j < h.nodes.length) :
    h.less key i j = true ↔ h.keyAt key i < h.keyAt key j := by
  have hia := List.getElem?_eq_getElem hi
  have hjb := List.getElem?_eq_getElem hj
  unfold less
  rw [keyAt_of_some hia, keyAt_of_some hjb, hia, hjb]
  simp

/-! ## Identities -/

theorem Valid.positions_eq_none_iff (hvalid : h.Valid ident key) {id : ι} :
    h.positions id = none ↔ ∀ a ∈ h.nodes, ident a ≠ id := by
  constructor
  · rintro hnone a ha rfl
    obtain ⟨i, hi⟩ := List.getElem?_of_mem ha
    cases hnone.symm.trans (hvalid.indexed.positions_eq hi)
  · intro hne
    by_contra hsome
    obtain ⟨i, hi⟩ := Option.ne_none_iff_exists'.mp hsome
    obtain ⟨a, ha, hid⟩ := Option.map_eq_some_iff.mp ((hvalid.indexed id i).mp hi)
    exact hne a (List.mem_of_getElem? ha) hid

theorem Valid.eq_of_ident (hvalid : h.Valid ident key) {b : α} (ha : a ∈ h.nodes)
    (hb : b ∈ h.nodes) (heq : ident a = ident b) : a = b := by
  obtain ⟨i, hi⟩ := List.getElem?_of_mem ha
  obtain ⟨j, hj⟩ := List.getElem?_of_mem hb
  have hpi := hvalid.indexed.positions_eq hi
  rw [heq, hvalid.indexed.positions_eq hj] at hpi
  obtain rfl := Option.some.inj hpi
  exact Option.some.inj (hi.symm.trans hj)

theorem Valid.nodup (hvalid : h.Valid ident key) : (h.nodes.map ident).Nodup := by
  refine List.nodup_iff_getElem?_ne_getElem?.mpr fun i j hij hj heq => ?_
  rw [List.length_map] at hj
  rw [List.getElem?_map, List.getElem?_map, List.getElem?_eq_getElem hj] at heq
  have hpi := (hvalid.indexed _ i).mpr heq
  rw [hvalid.indexed.positions_eq (List.getElem?_eq_getElem hj)] at hpi
  exact Nat.ne_of_gt hij (Option.some.inj hpi)

theorem Valid.head_le (hvalid : h.Valid ident key) (hhead : h.nodes.head? = some node)
    (ha : a ∈ h.nodes) : key node ≤ key a := by
  obtain ⟨i, hi⟩ := List.getElem?_of_mem ha
  have hle := hvalid.ordered.first_le i
  rw [keyAt_of_some (by rw [← List.head?_eq_getElem?]; exact hhead), keyAt_of_some hi] at hle
  exact WithTop.coe_le_coe.mp hle

/-! ## Sifting -/

/-- A child is taken if it exists and is before the best so far. -/
theorem less_child_iff (hi : index < h.nodes.length) :
    (i < h.nodes.length ∧ h.less key i index = true) ↔ h.keyAt key i < h.keyAt key index := by
  constructor
  · rintro ⟨hlt, hless⟩
    exact (less_iff hlt hi).mp hless
  · intro hlt
    have hin : i < h.nodes.length := by
      by_contra hge
      rw [keyAt_of_le (Nat.not_lt.mp hge)] at hlt
      exact not_top_lt hlt
    exact ⟨hin, (less_iff hin hi).mpr hlt⟩

theorem better_spec {best better : Nat} (key : α → κ) (child : Nat) (hbest : best < h.nodes.length)
    (hbetter : better =
      if child < h.nodes.length ∧ h.less key child best = true then child else best) :
    better < h.nodes.length ∧ h.keyAt key better ≤ h.keyAt key best ∧
      h.keyAt key better ≤ h.keyAt key child ∧
      (better = best ∨ better = child ∧ h.keyAt key child < h.keyAt key best) := by
  subst hbetter
  split
  next hcond =>
    have hlt := (less_child_iff hbest).mp hcond
    exact ⟨hcond.1, le_of_lt hlt, le_refl _, Or.inr ⟨rfl, hlt⟩⟩
  next hcond =>
    rw [less_child_iff hbest, not_lt] at hcond
    exact ⟨hbest, le_refl _, hcond, Or.inl rfl⟩

theorem smallest_le (key : α → κ) (hlt : index < h.nodes.length) :
    h.keyAt key (h.smallest key index) ≤ h.keyAt key (2 * index + 1) ∧
      h.keyAt key (h.smallest key index) ≤ h.keyAt key (2 * index + 2) := by
  obtain ⟨hfirst, -, hleft, -⟩ := better_spec key (index * 2 + 1) hlt rfl
  obtain ⟨-, hbest, hright, -⟩ := better_spec key (index * 2 + 1 + 1) hfirst rfl
  rw [Nat.mul_comm 2 index]
  exact ⟨le_trans hbest hleft, hright⟩

theorem smallest_child (hlt : index < h.nodes.length) (hne : h.smallest key index ≠ index) :
    h.smallest key index < h.nodes.length ∧ parent (h.smallest key index) = index ∧
      index < h.smallest key index ∧
      h.keyAt key (h.smallest key index) < h.keyAt key index := by
  obtain ⟨hfirst, -, -, hleft⟩ := better_spec key (index * 2 + 1) hlt rfl
  obtain ⟨hsecond, -, -, hright⟩ :=
    better_spec key (index * 2 + 1 + 1) hfirst rfl
  have hle : h.keyAt key
      (if index * 2 + 1 < h.nodes.length ∧ h.less key (index * 2 + 1) index = true then
        index * 2 + 1 else index) ≤ h.keyAt key index :=
    (better_spec key _ hlt rfl).2.1
  unfold smallest at hne ⊢
  simp only at hne ⊢
  refine ⟨hsecond, ?_⟩
  rcases hright with heq | ⟨heq, hless⟩
  · rw [heq] at hne ⊢
    rcases hleft with heq | ⟨heq, hless⟩
    · exact absurd heq hne
    · rw [heq]
      exact ⟨by unfold parent; omega, by omega, hless⟩
  · rw [heq]
    exact ⟨by unfold parent; omega, by omega, lt_of_lt_of_le hless hle⟩

variable [DecidableEq ι]

theorem siftUp_spec {fuel : Nat} (key : α → κ) (hindexed : h.Indexed ident) (hlt : index < h.nodes.length)
    (hordered : UpOrdered (h.keyAt key) index) (hfuel : index ≤ fuel) :
    (siftUp ident key fuel h index).Valid ident key ∧ Same h (siftUp ident key fuel h index) := by
  induction fuel generalizing h index with
  | zero =>
      obtain rfl : index = 0 := Nat.le_zero.mp hfuel
      exact ⟨⟨hindexed, hordered.ordered fun hpos => absurd hpos (Nat.lt_irrefl 0)⟩, .refl h⟩
  | succ fuel ih =>
      unfold siftUp
      split
      next hcond =>
        obtain ⟨hpos, hless⟩ := hcond
        have hparent := parent_lt hpos
        have hplt : parent index < h.nodes.length := Nat.lt_trans hparent hlt
        obtain ⟨hvalid, hsame⟩ := ih (hindexed.swap hlt hplt) (by rw [length_swap]; exact hplt)
          (by
            rw [keyAt_swap hlt hplt]
            exact hordered.swap hpos ((less_iff hlt hplt).mp hless))
          (by omega)
        exact ⟨hvalid, (same_swap hlt hplt).trans hsame⟩
      next hcond =>
        refine ⟨⟨hindexed, hordered.ordered fun hpos => ?_⟩, .refl h⟩
        have hplt : parent index < h.nodes.length := Nat.lt_trans (parent_lt hpos) hlt
        exact not_lt.mp fun hless => hcond ⟨hpos, (less_iff hlt hplt).mpr hless⟩

theorem siftDown_spec {fuel : Nat} (hindexed : h.Indexed ident) (hlt : index < h.nodes.length)
    (hordered : DownOrdered (h.keyAt key) index) (hfuel : h.nodes.length ≤ index + fuel) :
    (siftDown ident key fuel h index).Valid ident key ∧
      Same h (siftDown ident key fuel h index) := by
  induction fuel generalizing h index with
  | zero => omega
  | succ fuel ih =>
      obtain ⟨hleft, hright⟩ := smallest_le key hlt
      unfold siftDown
      split
      next hstop =>
        rw [hstop] at hleft hright
        exact ⟨⟨hindexed, hordered.ordered hleft hright⟩, .refl h⟩
      next hne =>
        obtain ⟨hslt, hparent, hgt, hless⟩ := smallest_child hlt hne
        have hfirst : ∀ c, 0 < c → parent c = index →
            h.keyAt key (h.smallest key index) ≤ h.keyAt key c := by
          intro c hc hchild
          rcases (parent_eq_iff hc).mp hchild with rfl | rfl
          · exact hleft
          · exact hright
        obtain ⟨hvalid, hsame⟩ := ih (hindexed.swap hlt hslt) (by rw [length_swap]; exact hslt)
          (by
            rw [keyAt_swap hlt hslt]
            exact hordered.swap (by omega) hparent hless hfirst)
          (by rw [length_swap]; omega)
        exact ⟨hvalid, (same_swap hlt hslt).trans hsame⟩

/-- Any key at `index` is brought to its place when everything else is in order. -/
theorem fix_spec (key : α → κ) (hindexed : h.Indexed ident) (hlt : index < h.nodes.length)
    (hothers : ∀ i, 0 < i → i ≠ index → parent i ≠ index →
      h.keyAt key (parent i) ≤ h.keyAt key i)
    (hacross : ∀ i, 0 < i → parent i = index → 0 < index →
      h.keyAt key (parent index) ≤ h.keyAt key i) :
    (h.fix ident key index).Valid ident key ∧ Same h (h.fix ident key index) := by
  unfold fix
  split
  next hcond =>
    obtain ⟨hpos, hless⟩ := hcond
    have hplt : parent index < h.nodes.length := Nat.lt_trans (parent_lt hpos) hlt
    have hbefore := (less_iff hlt hplt).mp hless
    refine siftUp_spec key hindexed hlt ⟨?_, hacross⟩ (Nat.le_refl index)
    intro i hi hne
    by_cases hchild : parent i = index
    · rw [hchild]
      exact le_of_lt (lt_of_lt_of_le hbefore (hacross i hi hchild hpos))
    · exact hothers i hi hne hchild
  next hcond =>
    refine siftDown_spec hindexed hlt ⟨?_, hacross⟩ (by omega)
    intro i hi hchild
    by_cases heq : i = index
    · subst heq
      have hplt : parent i < h.nodes.length := Nat.lt_trans (parent_lt hi) hlt
      exact not_lt.mp fun hless => hcond ⟨hi, (less_iff hlt hplt).mpr hless⟩
    · exact hothers i hi heq hchild

/-! ## Insertion -/

theorem insert_spec (hvalid : h.Valid ident key) (hfresh : ∀ a ∈ h.nodes, ident a ≠ ident node) :
    (h.insert ident key node).Valid ident key ∧
      ∀ a, a ∈ (h.insert ident key node).nodes ↔ a = node ∨ a ∈ h.nodes := by
  have hnone := hvalid.positions_eq_none_iff.mpr hfresh
  have hindexed : Indexed ident
      { nodes := h.nodes ++ [node]
        positions := Function.update h.positions (ident node) (some h.nodes.length) } := by
    intro id i
    simp only [Option.map_eq_some_iff, Table.getElem?_concat_eq_some]
    by_cases hid : id = ident node
    · rw [hid, Function.update_self, Option.some_inj]
      constructor
      · rintro rfl
        exact ⟨node, Or.inr ⟨rfl, rfl⟩, rfl⟩
      · rintro ⟨a, hold | ⟨rfl, -⟩, ha⟩
        · exact absurd ha (hfresh a (List.mem_of_getElem? hold))
        · rfl
    · rw [Function.update_of_ne hid, hvalid.indexed, Option.map_eq_some_iff]
      constructor
      · rintro ⟨a, hi, ha⟩
        exact ⟨a, Or.inl hi, ha⟩
      · rintro ⟨a, hold | ⟨-, rfl⟩, ha⟩
        · exact ⟨a, hold, ha⟩
        · exact absurd ha.symm hid
  have hkey : ∀ i, i ≠ h.nodes.length → keyAt key
      ({ nodes := h.nodes ++ [node]
         positions := Function.update h.positions (ident node) (some h.nodes.length) } :
        IndexedHeap α ι) i = h.keyAt key i := by
    intro i hi
    unfold keyAt
    rcases Nat.lt_or_gt_of_ne hi with hlt | hgt
    · rw [List.getElem?_append_left hlt]
    · rw [List.getElem?_eq_none (Nat.le_of_lt hgt), List.getElem?_eq_none]
      simp only [List.length_append, List.length_singleton]
      omega
  have hlength : (h.nodes ++ [node]).length = h.nodes.length + 1 := by simp
  obtain ⟨hresult, hsame⟩ := siftUp_spec key hindexed
    (by show h.nodes.length < (h.nodes ++ [node]).length; omega)
    (by
      constructor
      · intro i hi hne
        rw [hkey i hne]
        rcases Nat.lt_or_gt_of_ne hne with hlt | hgt
        · rw [hkey _ (by have := parent_lt hi; omega)]
          exact hvalid.ordered i hi
        · rw [keyAt_of_le (Nat.le_of_lt hgt)]
          exact le_top
      · intro i hi hchild _
        have hgt := parent_lt hi
        rw [hkey i (by omega), keyAt_of_le (h := h) (i := i) (by omega)]
        exact le_top)
    (Nat.le_refl _)
  refine ⟨hresult, fun a => (hsame.mem a).trans ?_⟩
  show a ∈ h.nodes ++ [node] ↔ _
  rw [List.mem_append, List.mem_singleton]
  exact or_comm

/-! ## Removal -/

theorem removeLast_spec {init : List α} {last : α} (hvalid : h.Valid ident key)
    (hnodes : h.nodes = init ++ [last]) :
    Valid ident key
      { nodes := init, positions := Function.update h.positions (ident last) none } := by
  have hlast : h.nodes[init.length]? = some last := by simp [hnodes]
  have hposition := hvalid.indexed.positions_eq hlast
  have hget : ∀ (i : Nat) a, init[i]? = some a → h.nodes[i]? = some a := by
    intro i a hi
    rw [hnodes, Table.getElem?_concat_eq_some]
    exact Or.inl hi
  constructor
  · intro id i
    simp only [Option.map_eq_some_iff]
    by_cases hid : id = ident last
    · rw [hid, Function.update_self]
      constructor
      · exact nofun
      · rintro ⟨a, hi, ha⟩
        have hpi := hvalid.indexed.positions_eq (hget i a hi)
        rw [ha, hposition] at hpi
        obtain rfl := Option.some.inj hpi
        exact absurd (List.getElem?_eq_some_iff.mp hi).1 (Nat.lt_irrefl _)
    · rw [Function.update_of_ne hid, hvalid.indexed, Option.map_eq_some_iff]
      constructor
      · rintro ⟨a, hi, ha⟩
        rw [hnodes, Table.getElem?_concat_eq_some] at hi
        rcases hi with hi | ⟨-, rfl⟩
        · exact ⟨a, hi, ha⟩
        · exact absurd ha.symm hid
      · rintro ⟨a, hi, ha⟩
        exact ⟨a, hget i a hi, ha⟩
  · intro i hi
    by_cases hlt : i < init.length
    · have hle := hvalid.ordered i hi
      have hplt : parent i < init.length := Nat.lt_trans (parent_lt hi) hlt
      rw [keyAt_of_some (hget i _ (List.getElem?_eq_getElem hlt)),
        keyAt_of_some (hget _ _ (List.getElem?_eq_getElem hplt))] at hle
      rw [keyAt_of_some (i := i) (List.getElem?_eq_getElem hlt),
        keyAt_of_some (i := parent i) (List.getElem?_eq_getElem hplt)]
      exact hle
    · rw [keyAt_of_le (i := i) (Nat.not_lt.mp hlt)]
      exact le_top

/-- Another node is taken out, and the last one takes its place. -/
theorem removeInner_spec {init : List α} {last removed : α} (hvalid : h.Valid ident key)
    (hnodes : h.nodes = init ++ [last]) (hremoved : init[index]? = some removed) :
    Valid ident key
      (fix ident key
        { nodes := init.set index last
          positions := Function.update (Function.update h.positions (ident removed) none)
            (ident last) (some index) } index) ∧
      (fix ident key
        { nodes := init.set index last
          positions := Function.update (Function.update h.positions (ident removed) none)
            (ident last) (some index) } index).nodes.length = init.length ∧
      ∀ a, a ∈ (fix ident key
        { nodes := init.set index last
          positions := Function.update (Function.update h.positions (ident removed) none)
            (ident last) (some index) } index).nodes ↔ a ∈ h.nodes ∧ ident a ≠ ident removed := by
  have hlt : index < init.length := (List.getElem?_eq_some_iff.mp hremoved).1
  have hget : ∀ (i : Nat) a, init[i]? = some a → h.nodes[i]? = some a := by
    intro i a hi
    rw [hnodes, Table.getElem?_concat_eq_some]
    exact Or.inl hi
  have hlast : h.nodes[init.length]? = some last := by simp [hnodes]
  have hpl := hvalid.indexed.positions_eq hlast
  have hpr := hvalid.indexed.positions_eq (hget _ _ hremoved)
  have hids : ident last ≠ ident removed := by
    intro heq
    rw [heq, hpr] at hpl
    exact absurd (Option.some.inj hpl) (Nat.ne_of_lt hlt)
  have hother : ∀ (i : Nat) a, i ≠ index → init[i]? = some a →
      ident a ≠ ident removed ∧ ident a ≠ ident last := by
    intro i a hne hi
    have hpi := hvalid.indexed.positions_eq (hget i a hi)
    constructor
    · intro heq
      rw [heq, hpr] at hpi
      exact hne (Option.some.inj hpi).symm
    · intro heq
      rw [heq, hpl] at hpi
      have hilt := (List.getElem?_eq_some_iff.mp hi).1
      exact absurd (Option.some.inj hpi) (Nat.ne_of_gt hilt)
  have hindexed : Indexed ident
      { nodes := init.set index last
        positions := Function.update (Function.update h.positions (ident removed) none)
          (ident last) (some index) } := by
    intro id i
    simp only [Option.map_eq_some_iff, Table.getElem?_set_eq_some hremoved]
    by_cases hidl : id = ident last
    · rw [hidl, Function.update_self, Option.some_inj]
      constructor
      · rintro rfl
        exact ⟨last, Or.inl ⟨rfl, rfl⟩, rfl⟩
      · rintro ⟨a, ⟨rfl, -⟩ | ⟨hne, hi⟩, ha⟩
        · rfl
        · exact absurd ha (hother i a hne hi).2
    · rw [Function.update_of_ne hidl]
      by_cases hidr : id = ident removed
      · rw [hidr, Function.update_self]
        constructor
        · exact nofun
        · rintro ⟨a, ⟨-, rfl⟩ | ⟨hne, hi⟩, ha⟩
          · exact absurd ha hids
          · exact absurd ha (hother i a hne hi).1
      · rw [Function.update_of_ne hidr, hvalid.indexed, Option.map_eq_some_iff]
        constructor
        · rintro ⟨a, hi, ha⟩
          rw [hnodes, Table.getElem?_concat_eq_some] at hi
          rcases hi with hi | ⟨-, rfl⟩
          · refine ⟨a, Or.inr ⟨?_, hi⟩, ha⟩
            rintro rfl
            obtain rfl := Option.some.inj (hremoved.symm.trans hi)
            exact hidr ha.symm
          · exact absurd ha.symm hidl
        · rintro ⟨a, ⟨-, rfl⟩ | ⟨-, hi⟩, ha⟩
          · exact absurd ha.symm hidl
          · exact ⟨a, hget i a hi, ha⟩
  -- Away from `index` the keys are those of the old heap, or past the end.
  have hkey : ∀ i, i ≠ index → keyAt key
      ({ nodes := init.set index last
         positions := Function.update (Function.update h.positions (ident removed) none)
          (ident last) (some index) } : IndexedHeap α ι) i =
        if i < init.length then h.keyAt key i else ⊤ := by
    intro i hne
    split
    next hi =>
      have hgi := List.getElem?_eq_getElem hi
      rw [keyAt_of_some (hget i _ hgi)]
      exact keyAt_of_some ((Table.getElem?_set_eq_some hremoved).mpr (Or.inr ⟨hne, hgi⟩))
    next hi => exact keyAt_of_le (by rw [List.length_set]; exact Nat.not_lt.mp hi)
  obtain ⟨hresult, hsame⟩ := fix_spec key hindexed (by rw [List.length_set]; exact hlt)
    (by
      intro i hi hne hchild
      have hplt := parent_lt hi
      rw [hkey i hne, hkey _ hchild]
      by_cases hin : i < init.length
      · rw [if_pos hin, if_pos (Nat.lt_trans hplt hin)]
        exact hvalid.ordered i hi
      · rw [if_neg hin]
        exact le_top)
    (by
      intro i hi hchild hpos
      have hplt := parent_lt hi
      have hpi := parent_lt hpos
      rw [hkey i (by omega), hkey _ (by omega), if_pos (Nat.lt_trans hpi hlt)]
      split
      next =>
        exact le_trans (hvalid.ordered index hpos) (hchild ▸ hvalid.ordered i hi)
      next => exact le_top)
  refine ⟨hresult, hsame.length.trans (List.length_set ..), fun a => (hsame.mem a).trans ?_⟩
  show a ∈ init.set index last ↔ _
  rw [hnodes, List.mem_append, List.mem_singleton]
  constructor
  · intro ha
    obtain ⟨i, hi⟩ := List.getElem?_of_mem ha
    rcases (Table.getElem?_set_eq_some hremoved).mp hi with ⟨-, rfl⟩ | ⟨hne, hold⟩
    · exact ⟨Or.inr rfl, hids⟩
    · exact ⟨Or.inl (List.mem_of_getElem? hold), (hother i a hne hold).1⟩
  · rintro ⟨hold | rfl, hne⟩
    · obtain ⟨i, hi⟩ := List.getElem?_of_mem hold
      have hii : i ≠ index := by
        rintro rfl
        obtain rfl := Option.some.inj (hremoved.symm.trans hi)
        exact hne rfl
      exact List.mem_of_getElem? ((Table.getElem?_set_eq_some hremoved).mpr (Or.inr ⟨hii, hi⟩))
    · exact List.mem_of_getElem? (Table.getElem?_set_self hremoved)

theorem remove_spec (hvalid : h.Valid ident key) (id : ι) :
    (h.remove ident key id).1.Valid ident key ∧
      (∀ a, a ∈ (h.remove ident key id).1.nodes ↔ a ∈ h.nodes ∧ ident a ≠ id) ∧
      (∀ a, (h.remove ident key id).2 = some a ↔ a ∈ h.nodes ∧ ident a = id) ∧
      (h.positions id ≠ none →
        (h.remove ident key id).1.nodes.length + 1 = h.nodes.length) := by
  unfold remove
  cases hposition : h.positions id with
  | none =>
      have hnone := hvalid.positions_eq_none_iff.mp hposition
      refine ⟨hvalid, ?_, ?_, fun hsome => absurd rfl hsome⟩
      · intro a
        exact ⟨fun ha => ⟨ha, hnone a ha⟩, And.left⟩
      · intro a
        exact ⟨nofun, fun ha => absurd ha.2 (hnone a ha.1)⟩
  | some index =>
      obtain ⟨removed, hremoved, rfl⟩ :=
        Option.map_eq_some_iff.mp ((hvalid.indexed id index).mp hposition)
      have hmem := List.mem_of_getElem? hremoved
      have hfound : ∀ a, removed = a ↔ a ∈ h.nodes ∧ ident a = ident removed := by
        intro a
        constructor
        · rintro rfl
          exact ⟨hmem, rfl⟩
        · rintro ⟨ha, heq⟩
          exact hvalid.eq_of_ident hmem ha heq.symm
      rcases List.eq_nil_or_concat h.nodes with hnil | ⟨init, last, hnodes⟩
      · rw [hnil] at hmem
        cases hmem
      rw [List.concat_eq_append] at hnodes
      have hgetLast : h.nodes.getLast? = some last := by rw [hnodes]; simp
      have hdrop : h.nodes.dropLast = init := by rw [hnodes]; simp
      have hlength : h.nodes.length = init.length + 1 := by rw [hnodes]; simp
      rw [hgetLast, hdrop]
      simp only
      split
      next heq =>
        subst heq
        obtain rfl : last = removed := by
          rw [hnodes] at hremoved
          simpa using hremoved
        refine ⟨removeLast_spec hvalid hnodes, ?_, ?_, fun _ => hlength.symm⟩
        · intro a
          rw [hnodes, List.mem_append, List.mem_singleton]
          constructor
          · intro ha
            refine ⟨Or.inl ha, fun heq => ?_⟩
            obtain ⟨i, hi⟩ := List.getElem?_of_mem ha
            have hlt := (List.getElem?_eq_some_iff.mp hi).1
            have hpi := hvalid.indexed.positions_eq
              (show h.nodes[i]? = some a by
                rw [hnodes]
                exact Table.getElem?_concat_eq_some.mpr (Or.inl hi))
            rw [heq, hposition] at hpi
            exact absurd (Option.some.inj hpi) (Nat.ne_of_gt hlt)
          · rintro ⟨ha | rfl, hne⟩
            · exact ha
            · exact absurd rfl hne
        · intro a
          rw [Option.some_inj]
          exact hfound a
      next hne =>
        have hinit : init[index]? = some removed := by
          rw [hnodes, Table.getElem?_concat_eq_some] at hremoved
          exact hremoved.resolve_right fun hcontra => hne hcontra.1
        obtain ⟨hresult, hsize, hnodes'⟩ := removeInner_spec hvalid hnodes hinit
        refine ⟨hresult, hnodes', ?_, fun _ => by rw [hsize]; exact hlength.symm⟩
        intro a
        rw [hinit, Option.some_inj]
        exact hfound a

/-! ## The first node -/

theorem popMin_spec (hvalid : h.Valid ident key) (hhead : h.nodes.head? = some node) :
    (h.popMin ident key).2 = some node ∧ (h.popMin ident key).1.Valid ident key ∧
      (h.popMin ident key).1.nodes.length + 1 = h.nodes.length ∧
      ∀ a, a ∈ (h.popMin ident key).1.nodes ↔ a ∈ h.nodes ∧ ident a ≠ ident node := by
  have hmem := List.mem_of_mem_head? hhead
  unfold popMin
  rw [hhead]
  obtain ⟨hresult, hnodes, hfound, hlength⟩ := remove_spec hvalid (ident node)
  refine ⟨(hfound node).mpr ⟨hmem, rfl⟩, hresult, hlength ?_, hnodes⟩
  intro hnone
  exact hvalid.positions_eq_none_iff.mp hnone node hmem rfl

/-- The nodes that are due are taken out in the order of their keys, provided that a node before
one that is due is due as well. -/
theorem popWhile_spec {due : α → Bool} {fuel : Nat} (hvalid : h.Valid ident key)
    (hdue : ∀ a b, key a ≤ key b → due b = true → due a = true)
    (hfuel : h.nodes.length ≤ fuel) :
    (popWhile ident key due fuel h).1.Valid ident key ∧
      (∀ a, a ∈ (popWhile ident key due fuel h).1.nodes ↔ a ∈ h.nodes ∧ due a = false) ∧
      (∀ a, a ∈ (popWhile ident key due fuel h).2 ↔ a ∈ h.nodes ∧ due a = true) ∧
      ((popWhile ident key due fuel h).2.map ident).Nodup ∧
      (popWhile ident key due fuel h).2.Pairwise fun a b => key a ≤ key b := by
  induction fuel generalizing h with
  | zero =>
      have hnil : h.nodes = [] := List.length_eq_zero_iff.mp (Nat.le_zero.mp hfuel)
      refine ⟨hvalid, ?_, ?_, List.nodup_nil, List.Pairwise.nil⟩
      · intro a
        simp [popWhile, hnil]
      · intro a
        simp [popWhile, hnil]
  | succ fuel ih =>
      unfold popWhile
      cases hhead : h.nodes.head? with
      | none =>
          have hnil : h.nodes = [] := List.head?_eq_none_iff.mp hhead
          refine ⟨hvalid, ?_, ?_, List.nodup_nil, List.Pairwise.nil⟩
          · intro a
            simp [hnil]
          · intro a
            simp [hnil]
      | some node =>
          have hmem := List.mem_of_mem_head? hhead
          simp only [Option.any_some]
          cases hfirst : due node with
          | false =>
              -- No node is due if the first one is not.
              have hlate : ∀ a ∈ h.nodes, due a = false := by
                intro a ha
                cases hda : due a with
                | false => rfl
                | true =>
                    cases hfirst.symm.trans (hdue node a (hvalid.head_le hhead ha) hda)
              refine ⟨hvalid, ?_, ?_, List.nodup_nil, List.Pairwise.nil⟩
              · intro a
                exact ⟨fun ha => ⟨ha, hlate a ha⟩, And.left⟩
              · intro a
                constructor
                · exact nofun
                · intro ha
                  cases (hlate a ha.1).symm.trans ha.2
          | true =>
              obtain ⟨hfound, hresult, hlength, hnodes⟩ := popMin_spec hvalid hhead
              obtain ⟨hvalid', hkept, htaken, hnodup, hsorted⟩ := ih hresult (by omega)
              simp only [if_true]
              rw [show h.popMin ident key = ((h.popMin ident key).1, some node) from
                Prod.ext rfl hfound]
              refine ⟨hvalid', ?_, ?_, ?_, ?_⟩
              · intro a
                rw [hkept, hnodes]
                constructor
                · rintro ⟨⟨ha, -⟩, hlate⟩
                  exact ⟨ha, hlate⟩
                · rintro ⟨ha, hlate⟩
                  refine ⟨⟨ha, fun heq => ?_⟩, hlate⟩
                  obtain rfl := hvalid.eq_of_ident ha hmem heq
                  cases hfirst.symm.trans hlate
              · intro a
                rw [List.mem_cons, htaken, hnodes]
                constructor
                · rintro (rfl | ⟨⟨ha, -⟩, hda⟩)
                  · exact ⟨hmem, hfirst⟩
                  · exact ⟨ha, hda⟩
                · rintro ⟨ha, hda⟩
                  by_cases heq : ident a = ident node
                  · exact Or.inl (hvalid.eq_of_ident ha hmem heq)
                  · exact Or.inr ⟨⟨ha, heq⟩, hda⟩
              · rw [List.map_cons, List.nodup_cons]
                refine ⟨fun hin => ?_, hnodup⟩
                obtain ⟨a, ha, heq⟩ := List.mem_map.mp hin
                exact ((hnodes a).mp ((htaken a).mp ha).1).2 heq
              · rw [List.pairwise_cons]
                refine ⟨fun a ha => ?_, hsorted⟩
                exact hvalid.head_le hhead ((hnodes a).mp ((htaken a).mp ha).1).1

end IndexedHeap
