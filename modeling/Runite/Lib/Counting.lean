import Mathlib.Data.List.Count
import Mathlib.Data.List.Nodup

/-!
# Counting the elements of a list

How `List.countP` changes when one element is exchanged for another, when a
predicate grows by a disjoint one, and why a predicate that fixes a unique key
counts at most one element and is gone once that element is erased.  The last
section counts what the elements of a list hold, when one of them is replaced
or taken out.
-/

namespace Counting

variable {α κ : Type*}

theorem countP_erase_add [DecidableEq α] (p : α → Bool) {x : α} {xs : List α} (hx : x ∈ xs) :
    (xs.erase x).countP p + (p x).toNat = xs.countP p := by
  rw [(List.perm_cons_erase hx).countP_eq p, List.countP_cons]
  cases p x <;> simp

/-- Exchanging a member `x` for `y` moves its contribution to the count. -/
theorem countP_replace_add [DecidableEq α] (p : α → Bool) {x : α} (y : α) {xs : List α}
    (hx : x ∈ xs) :
    (y :: xs.erase x).countP p + (p x).toNat = xs.countP p + (p y).toNat := by
  have hcount := countP_erase_add p hx
  rw [List.countP_cons]
  cases p y <;> simp <;> omega

theorem countP_eq_add_of_disjoint {p q r : α → Bool} {xs : List α}
    (hor : ∀ x ∈ xs, q x = (p x || r x)) (hdisj : ∀ x ∈ xs, p x = true → r x = false) :
    xs.countP q = xs.countP p + xs.countP r := by
  induction xs with
  | nil => rfl
  | cons x xs ih =>
      have hrest := ih (fun y hy => hor y (by simp [hy])) (fun y hy => hdisj y (by simp [hy]))
      have hx := hor x (by simp)
      have hd := hdisj x (by simp)
      simp only [List.countP_cons, hrest, hx]
      cases hp : p x
      · cases r x <;> (simp; try omega)
      · simp [hd hp]
        omega

/-- A predicate that pins down a key holds of at most one element when keys
do not repeat. -/
theorem countP_le_one_of_key {key : α → Option κ} {r : α → Bool} {c : κ} {xs : List α}
    (hnodup : (xs.filterMap key).Nodup) (hkey : ∀ x ∈ xs, r x = true → key x = some c) :
    xs.countP r ≤ 1 := by
  induction xs with
  | nil => simp
  | cons x xs ih =>
      have hkey' : ∀ y ∈ xs, r y = true → key y = some c := fun y hy => hkey y (by simp [hy])
      rw [List.countP_cons]
      cases hr : r x with
      | false =>
          have hrest : (xs.filterMap key).Nodup :=
            hnodup.sublist ((List.sublist_cons_self x xs).filterMap key)
          simpa using ih hrest hkey'
      | true =>
          -- Every other element with the property would repeat the key of `x`.
          have hx := hkey x (by simp) hr
          rw [List.filterMap_cons_some hx, List.nodup_cons] at hnodup
          have hnone : xs.countP r = 0 := by
            rw [List.countP_eq_zero]
            intro y hy hry
            exact hnodup.1 (List.mem_filterMap.mpr ⟨y, hy, hkey' y hy hry⟩)
          simp [hnone]

theorem key_ne_of_mem_eraseP [DecidableEq κ] {key : α → κ} {k : κ} {x : α} {xs : List α}
    (hnodup : (xs.map key).Nodup) (hx : x ∈ xs.eraseP (fun y => key y = k)) : key x ≠ k := by
  induction xs with
  | nil => simp at hx
  | cons y xs ih =>
      rw [List.map_cons, List.nodup_cons] at hnodup
      by_cases hy : key y = k
      · have hmem : x ∈ xs := by simpa [hy] using hx
        rintro rfl
        exact hnodup.1 (hy ▸ List.mem_map_of_mem hmem)
      · have hmem : x = y ∨ x ∈ xs.eraseP (fun y => key y = k) := by simpa [hy] using hx
        rcases hmem with rfl | hmem
        · exact hy
        · exact ih hnodup.2 hmem

theorem map_eraseP_key [DecidableEq κ] (key : α → κ) (k : κ) (xs : List α) :
    (xs.eraseP fun x => key x = k).map key = (xs.map key).erase k := by
  induction xs with
  | nil => rfl
  | cons x xs ih =>
      by_cases hx : key x = k
      · simp [hx]
      · simp [hx, ih]

/-- Replacing the element at an index exchanges its contribution. -/
theorem countP_set_add (p : α → Bool) {xs : List α} {i : Nat} {x : α} (y : α)
    (hx : xs[i]? = some x) :
    (xs.set i y).countP p + (p x).toNat = xs.countP p + (p y).toNat := by
  induction xs generalizing i with
  | nil => simp at hx
  | cons z xs ih =>
      cases i with
      | zero =>
          obtain rfl : z = x := by simpa using hx
          cases hz : p z <;> cases hy : p y <;>
            simp only [List.set_cons_zero, List.countP_cons, hz, hy] <;> simp
      | succ i =>
          have hrest := ih (i := i) (by simpa using hx)
          simp only [List.set_cons_succ, List.countP_cons]
          omega

/-! ## What the elements hold -/

section Holdings

variable {β : Type*} [DecidableEq β] (f : α → List β) (v : β)

/-- Replacing the element at an index exchanges what it holds. -/
theorem count_flatMap_set {xs : List α} {i : Nat} {x : α} (y : α) (hx : xs[i]? = some x) :
    ((xs.set i y).flatMap f).count v + (f x).count v =
      (xs.flatMap f).count v + (f y).count v := by
  induction xs generalizing i with
  | nil => simp at hx
  | cons z xs ih =>
      cases i with
      | zero =>
          obtain rfl : z = x := by simpa using hx
          simp only [List.set_cons_zero, List.flatMap_cons, List.count_append]
          omega
      | succ i =>
          have hrest := ih (i := i) (by simpa using hx)
          simp only [List.set_cons_succ, List.flatMap_cons, List.count_append]
          omega

/-- Taking out the element at an index takes out what it holds. -/
theorem count_flatMap_eraseIdx {xs : List α} {i : Nat} {x : α} (hx : xs[i]? = some x) :
    ((xs.eraseIdx i).flatMap f).count v + (f x).count v = (xs.flatMap f).count v := by
  induction xs generalizing i with
  | nil => simp at hx
  | cons z xs ih =>
      cases i with
      | zero =>
          obtain rfl : z = x := by simpa using hx
          simp only [List.eraseIdx_cons_zero, List.flatMap_cons, List.count_append]
          omega
      | succ i =>
          have hrest := ih (i := i) (by simpa using hx)
          simp only [List.eraseIdx_cons_succ, List.flatMap_cons, List.count_append]
          omega

/-- The element that `eraseP` takes out is the one that `find?` finds. -/
theorem count_map_eraseP (g : α → β) (p : α → Bool) (xs : List α) :
    ((xs.eraseP p).map g).count v + ((xs.find? p).toList.map g).count v =
      (xs.map g).count v := by
  induction xs with
  | nil => simp
  | cons x xs ih =>
      cases hp : p x with
      | true =>
          simp only [List.eraseP_cons_of_pos hp, List.find?_cons_of_pos hp, List.map_cons,
            Option.toList_some, List.map_nil, List.count_cons, List.count_nil]
          omega
      | false =>
          have hneg : ¬ p x = true := by simp [hp]
          simp only [List.eraseP_cons_of_neg hneg, List.find?_cons_of_neg hneg, List.map_cons,
            List.count_cons]
          omega

end Holdings

/-- Taking the elements key by key takes each of them once. -/
theorem flatMap_filter_key_perm [DecidableEq κ] (key : α → κ) (xs : List α) {keys : List κ}
    (hnodup : keys.Nodup) :
    (keys.flatMap fun k => xs.filter fun x => key x = k).Perm (xs.filter fun x => key x ∈ keys) := by
  induction keys with
  | nil => simp
  | cons k keys ih =>
      obtain ⟨hk, hnodup⟩ := List.nodup_cons.mp hnodup
      have hsplit := List.filter_append_perm (fun x => decide (key x = k))
        (xs.filter fun x => key x ∈ k :: keys)
      have hhead : ((xs.filter fun x => key x ∈ k :: keys).filter fun x => key x = k) =
          xs.filter fun x => key x = k := by
        rw [List.filter_filter]
        exact List.filter_congr fun x _ => by by_cases hx : key x = k <;> simp [hx]
      have htail : ((xs.filter fun x => key x ∈ k :: keys).filter fun x => !decide (key x = k)) =
          xs.filter fun x => key x ∈ keys := by
        rw [List.filter_filter]
        refine List.filter_congr fun x _ => ?_
        by_cases hx : key x = k
        · simp [hx, hk]
        · simp [hx]
      rw [hhead, htail] at hsplit
      rw [List.flatMap_cons]
      exact ((ih hnodup).append_left _).trans hsplit

end Counting
