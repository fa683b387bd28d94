import Mathlib.Data.List.Perm.Basic

/-!
# Taking elements out of a vector

`swapRemove` puts the last element in the place of the one that is taken out.  `takeReady`
is the loop that takes out, with it, every element for which there is something to hand
out: afterwards none of these is left, and nothing else is gone.
-/

namespace SwapRemove

open scoped List

variable {α β : Type*}

/-- The last element takes the place of the one at the index. -/
def swapRemove (xs : List α) (index : Nat) : List α :=
  match xs.getLast? with
  | none => []
  | some last => (xs.set index last).dropLast

theorem swapRemove_perm {xs : List α} {index : Nat} {x : α} (hx : xs[index]? = some x) :
    x :: swapRemove xs index ~ xs := by
  obtain rfl | ⟨ys, last, rfl⟩ := xs.eq_nil_or_concat'
  · simp at hx
  · obtain ⟨hlt, hget⟩ := List.getElem?_eq_some_iff.mp hx
    have hremoved : swapRemove (ys ++ [last]) index = ((ys ++ [last]).set index last).dropLast := by
      simp [swapRemove]
    rw [hremoved]
    by_cases hlast : index = ys.length
    · subst hlast
      obtain rfl : last = x := by simpa using hget
      simpa using (List.perm_append_singleton last ys).symm
    · have hindex : index < ys.length := by
        simp only [List.length_append, List.length_singleton] at hlt
        omega
      have hx' : ys[index] = x := by simpa [List.getElem_append_left hindex] using hget
      rw [List.set_append_left _ _ hindex, List.dropLast_concat, ← hx']
      -- both sides are the other elements, with this one and the last
      calc
        ys[index] :: ys.set index last ~ ys[index] :: last :: ys.eraseIdx index :=
          (List.set_perm_cons_eraseIdx hindex last).cons _
        _ ~ last :: ys[index] :: ys.eraseIdx index := List.Perm.swap ..
        _ ~ last :: ys := (List.getElem_cons_eraseIdx_perm hindex).cons _
        _ ~ ys ++ [last] := (List.perm_append_singleton last ys).symm

/-- The loop over the indices: an element that `f` gives something for is taken out, and the
index stays.  Returns what was taken out, in that order, and what is left. -/
def takeReadyFrom (f : α → Option β) : Nat → Nat → List α → List (α × β) × List α
  | 0, _, xs => ([], xs)
  | fuel + 1, index, xs =>
      match xs[index]? with
      | none => ([], xs)
      | some x =>
          match f x with
          | none => takeReadyFrom f fuel (index + 1) xs
          | some b =>
              let (ready, rest) := takeReadyFrom f fuel index (swapRemove xs index)
              ((x, b) :: ready, rest)

/-- Every turn of the loop takes an element out or goes past it. -/
def takeReady (f : α → Option β) (xs : List α) : List (α × β) × List α :=
  takeReadyFrom f xs.length 0 xs

theorem length_swapRemove {xs : List α} {index : Nat} {x : α} (hx : xs[index]? = some x) :
    (swapRemove xs index).length + 1 = xs.length := by
  simpa using (swapRemove_perm hx).length_eq

theorem getElem?_swapRemove {xs : List α} {index i : Nat} {x y : α} (hx : xs[index]? = some x)
    (hi : i < index) (hy : (swapRemove xs index)[i]? = some y) : xs[i]? = some y := by
  obtain rfl | ⟨ys, last, rfl⟩ := xs.eq_nil_or_concat'
  · simp at hx
  · have hlt := (List.getElem?_eq_some_iff.mp hx).1
    simp only [List.length_append, List.length_singleton] at hlt
    have hremoved : swapRemove (ys ++ [last]) index = ((ys ++ [last]).set index last).dropLast := by
      simp [swapRemove]
    rw [hremoved, List.getElem?_dropLast, List.getElem?_set_ne (by omega)] at hy
    exact (Option.ite_none_right_eq_some.mp hy).2

theorem takeReadyFrom_spec (f : α → Option β) (fuel index : Nat) (xs : List α)
    (hfuel : xs.length ≤ index + fuel)
    (hpassed : ∀ i x, i < index → xs[i]? = some x → f x = none) :
    (takeReadyFrom f fuel index xs).1.map Prod.fst ++ (takeReadyFrom f fuel index xs).2 ~ xs ∧
      (∀ p ∈ (takeReadyFrom f fuel index xs).1, f p.1 = some p.2) ∧
      ∀ x ∈ (takeReadyFrom f fuel index xs).2, f x = none := by
  induction fuel generalizing index xs with
  | zero =>
      refine ⟨by simp [takeReadyFrom], by simp [takeReadyFrom], ?_⟩
      intro x hx
      obtain ⟨i, hi⟩ := List.getElem?_of_mem hx
      have hlt : i < xs.length := (List.getElem?_eq_some_iff.mp hi).1
      exact hpassed i x (by omega) hi
  | succ fuel ih =>
      unfold takeReadyFrom
      split
      next hend =>
        refine ⟨by simp, by simp, ?_⟩
        intro x hx
        obtain ⟨i, hi⟩ := List.getElem?_of_mem hx
        have hlt : i < xs.length := (List.getElem?_eq_some_iff.mp hi).1
        have hge : xs.length ≤ index := List.getElem?_eq_none_iff.mp hend
        exact hpassed i x (by omega) hi
      next x hx =>
        split
        next hnone =>
          refine ih (index + 1) xs (by omega) ?_
          intro i y hi hy
          obtain hi | rfl : i < index ∨ i = index := by omega
          · exact hpassed i y hi hy
          · obtain rfl : x = y := Option.some.inj (hx.symm.trans hy)
            exact hnone
        next b hsome =>
          have hlength := length_swapRemove hx
          obtain ⟨hperm, hready, hrest⟩ := ih index (swapRemove xs index) (by omega)
            fun i y hi hy => hpassed i y hi (getElem?_swapRemove hx hi hy)
          refine ⟨?_, ?_, hrest⟩
          · exact (hperm.cons x).trans (swapRemove_perm hx)
          · intro p hp
            obtain rfl | hp := List.mem_cons.mp hp
            · exact hsome
            · exact hready p hp

/-- What was taken out and what is left are the elements of the vector, and what is left is
not ready. -/
theorem takeReady_spec (f : α → Option β) (xs : List α) :
    (takeReady f xs).1.map Prod.fst ++ (takeReady f xs).2 ~ xs ∧
      (∀ p ∈ (takeReady f xs).1, f p.1 = some p.2) ∧ ∀ x ∈ (takeReady f xs).2, f x = none :=
  takeReadyFrom_spec f xs.length 0 xs (by omega) (by omega)

theorem mem_of_mem_takeReady_rest {f : α → Option β} {xs : List α} {x : α}
    (hx : x ∈ (takeReady f xs).2) : x ∈ xs :=
  (takeReady_spec f xs).1.subset (List.mem_append_right _ hx)

theorem mem_of_mem_takeReady {f : α → Option β} {xs : List α} {x : α} {b : β}
    (hx : (x, b) ∈ (takeReady f xs).1) : x ∈ xs ∧ f x = some b :=
  ⟨(takeReady_spec f xs).1.subset (List.mem_append_left _ (List.mem_map_of_mem hx)),
    (takeReady_spec f xs).2.1 _ hx⟩

/-- Removing the element at an index takes nothing else out. -/
theorem mem_of_mem_swapRemove {xs : List α} {index : Nat} {x y : α} (hx : xs[index]? = some x)
    (hy : y ∈ swapRemove xs index) : y ∈ xs :=
  (swapRemove_perm hx).subset (List.mem_cons_of_mem x hy)

end SwapRemove
