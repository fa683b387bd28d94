import Mathlib.Data.List.Induction

/-!
# Chronicles

A list of entries, in order, each of which is allowed by those before it.
-/

variable {α : Type*} {ok : List α → α → Prop} {xs pre post : List α} {a : α}

/-- Every entry is allowed by the entries before it. -/
inductive Chronicle (ok : List α → α → Prop) : List α → Prop
  | nil : Chronicle ok []
  | snoc {xs : List α} {a : α} : Chronicle ok xs → ok xs a → Chronicle ok (xs ++ [a])

namespace Chronicle

theorem of_snoc (h : Chronicle ok (xs ++ [a])) : Chronicle ok xs ∧ ok xs a := by
  generalize hys : xs ++ [a] = ys at h
  cases h with
  | nil => exact absurd hys (by simp)
  | snoc h hok =>
      obtain ⟨rfl, rfl⟩ := List.append_singleton_inj.mp hys
      exact ⟨h, hok⟩

theorem of_append (h : Chronicle ok (pre ++ post)) : Chronicle ok pre := by
  induction post using List.reverseRecOn with
  | nil => rwa [List.append_nil] at h
  | append_singleton post a ih =>
      rw [← List.append_assoc] at h
      exact ih h.of_snoc.1

theorem allowed (h : Chronicle ok (pre ++ a :: post)) : ok pre a := by
  rw [← List.singleton_append, ← List.append_assoc] at h
  exact h.of_append.of_snoc.2

theorem allowed_take {n : Nat} (h : Chronicle ok xs) (ha : xs[n]? = some a) : ok (xs.take n) a := by
  obtain ⟨hn, rfl⟩ := List.getElem?_eq_some_iff.mp ha
  have hsplit := List.take_append_drop n xs
  rw [List.drop_eq_getElem_cons hn] at hsplit
  rw [← hsplit] at h
  exact h.allowed

/-- What holds at some time, and every allowed entry keeps, holds from then on. -/
theorem forever (P : List α → Prop) (hkeep : ∀ xs a, P xs → ok xs a → P (xs ++ [a]))
    (h : Chronicle ok (pre ++ post)) (hpre : P pre) : P (pre ++ post) := by
  induction post using List.reverseRecOn with
  | nil => rwa [List.append_nil]
  | append_singleton post a ih =>
      rw [← List.append_assoc] at h ⊢
      exact hkeep _ _ (ih h.of_snoc.1) h.of_snoc.2

end Chronicle
