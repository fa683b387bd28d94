import Mathlib.Data.List.Perm.Basic

/-!
# Tables

A list read by index as a table whose rows are added at the end and replaced in
place.  What is in a row afterwards is what was written there, or what was there
before.
-/

namespace Table

variable {α : Type*} {xs : List α} {x y z : α} {i j : Nat}

theorem getElem?_concat_eq_some :
    (xs ++ [x])[i]? = some y ↔ xs[i]? = some y ∨ i = xs.length ∧ y = x := by
  rw [List.getElem?_append]
  split
  next hlt =>
    constructor
    · exact .inl
    · rintro (h | ⟨rfl, -⟩)
      · exact h
      · omega
  next hge =>
    have hnone : xs[i]? = none := List.getElem?_eq_none (by omega)
    rw [List.getElem?_singleton, hnone]
    constructor
    · intro h
      obtain ⟨hi, heq⟩ := Option.ite_none_right_eq_some.mp h
      exact .inr ⟨by omega, (Option.some.inj heq).symm⟩
    · rintro (h | ⟨rfl, rfl⟩)
      · cases h
      · simp

theorem getElem?_set_eq_some (hx : xs[i]? = some x) :
    (xs.set i y)[j]? = some z ↔ j = i ∧ z = y ∨ j ≠ i ∧ xs[j]? = some z := by
  have hlt : i < xs.length := (List.getElem?_eq_some_iff.mp hx).1
  rw [List.getElem?_set]
  by_cases heq : i = j
  · subst heq
    rw [if_pos rfl, if_pos hlt]
    constructor
    · intro h
      exact .inl ⟨rfl, (Option.some.inj h).symm⟩
    · rintro (⟨-, rfl⟩ | ⟨hne, -⟩)
      · rfl
      · exact absurd rfl hne
  · rw [if_neg heq]
    constructor
    · exact fun h => .inr ⟨fun hji => heq hji.symm, h⟩
    · rintro (⟨rfl, -⟩ | ⟨-, h⟩)
      · exact absurd rfl heq
      · exact h

theorem getElem?_set_self (hx : xs[i]? = some x) : (xs.set i y)[i]? = some y :=
  (getElem?_set_eq_some hx).mpr (.inl ⟨rfl, rfl⟩)

theorem getElem?_map_eq_some {β : Type*} {f : α → β} {b : β} :
    (xs.map f)[i]? = some b ↔ ∃ a, xs[i]? = some a ∧ f a = b := by
  rw [List.getElem?_map, Option.map_eq_some_iff]

theorem set_eq_self (hx : xs[i]? = some x) : xs.set i x = xs := by
  apply List.ext_getElem?
  intro j
  by_cases heq : j = i
  · rw [heq, getElem?_set_self hx, hx]
  · exact List.getElem?_set_ne (Ne.symm heq)

/-- What `f` picks from a table, before and after a row is replaced. -/
theorem exists_filterMap_set {β : Type*} (f : α → Option β) (hx : xs[i]? = some x) (y : α) :
    ∃ rest, (xs.filterMap f).Perm ((f x).toList ++ rest) ∧
      ((xs.set i y).filterMap f).Perm ((f y).toList ++ rest) := by
  have hcons : ∀ (z : α) (zs : List α), (z :: zs).filterMap f = (f z).toList ++ zs.filterMap f := by
    intro z zs
    cases hz : f z <;> simp [hz]
  obtain ⟨hlt, hget⟩ := List.getElem?_eq_some_iff.mp hx
  refine ⟨(xs.eraseIdx i).filterMap f, ?_, ?_⟩
  · rw [← hcons, ← hget]
    exact (List.getElem_cons_eraseIdx_perm hlt).symm.filterMap f
  · rw [← hcons]
    exact (List.set_perm_cons_eraseIdx hlt y).filterMap f

end Table
