import Mathlib.Data.List.Rotate

/-!
# Sweeps with an early end

A sweep visits the items of a list in order, over a state, until a visit has a result.
-/

namespace Sweep

variable {ι S R : Type*} {visit : ι → S → Option R × S} {xs ys : List ι} {s s' : S} {r : R}

def sweep (visit : ι → S → Option R × S) : List ι → S → Option R × S
  | [], s => (none, s)
  | x :: xs, s =>
      match visit x s with
      | (some r, s) => (some r, s)
      | (none, s) => sweep visit xs s

theorem sweep_cons_of_some {x : ι} (hvisit : visit x s = (some r, s')) :
    sweep visit (x :: xs) s = (some r, s') := by
  rw [sweep, hvisit]

theorem sweep_cons_of_none {x : ι} (hvisit : visit x s = (none, s')) :
    sweep visit (x :: xs) s = sweep visit xs s' := by
  rw [sweep, hvisit]

theorem sweep_append (xs ys : List ι) (s : S) :
    sweep visit (xs ++ ys) s =
      match sweep visit xs s with
      | (some r, s) => (some r, s)
      | (none, s) => sweep visit ys s := by
  induction xs generalizing s with
  | nil => rfl
  | cons x xs ih =>
      rw [List.cons_append, sweep, sweep]
      obtain ⟨_ | r, s'⟩ := visit x s
      · exact ih s'
      · rfl

/-- Visits that are guarded leave the items out that do not pass. -/
theorem sweep_guarded (p : ι → Bool) (xs : List ι) (s : S) :
    sweep (fun x s => if p x then visit x s else (none, s)) xs s =
      sweep visit (xs.filter p) s := by
  induction xs generalizing s with
  | nil => rfl
  | cons x xs ih =>
      by_cases hx : p x = true
      · rw [List.filter_cons_of_pos hx, sweep, sweep, if_pos hx]
        obtain ⟨_ | r, s'⟩ := visit x s
        · exact ih s'
        · rfl
      · rw [List.filter_cons_of_neg hx, sweep, if_neg hx]
        exact ih s

/-! ## Rotations -/

variable {α : Type*}

theorem filter_le_zipIdx (xs : List α) (offset start : Nat) :
    ((xs.zipIdx offset).filter (fun x => start ≤ x.2)).map Prod.snd =
      (List.range' offset xs.length).drop (start - offset) := by
  induction xs generalizing offset with
  | nil => simp
  | cons x xs ih =>
      rw [List.zipIdx_cons, List.length_cons, List.range'_succ]
      by_cases hstart : start ≤ offset
      · rw [List.filter_cons_of_pos (by simpa using hstart), List.map_cons, ih,
          show start - offset = 0 by omega, show start - (offset + 1) = 0 by omega]
        rfl
      · rw [List.filter_cons_of_neg (by simpa using hstart), ih,
          show start - offset = start - (offset + 1) + 1 by omega, List.drop_succ_cons]

theorem filter_lt_zipIdx (xs : List α) (offset start : Nat) :
    ((xs.zipIdx offset).filter (fun x => x.2 < start)).map Prod.snd =
      (List.range' offset xs.length).take (start - offset) := by
  induction xs generalizing offset with
  | nil => simp
  | cons x xs ih =>
      rw [List.zipIdx_cons, List.length_cons, List.range'_succ]
      by_cases hstart : offset < start
      · rw [List.filter_cons_of_pos (by simpa using hstart), List.map_cons, ih,
          show start - offset = start - (offset + 1) + 1 by omega, List.take_succ_cons]
      · rw [List.filter_cons_of_neg (by simpa using hstart), ih,
          show start - offset = 0 by omega, show start - (offset + 1) = 0 by omega]
        rfl

/-- The items from `start` on and then those before it are the items rotated. -/
theorem map_snd_passes {xs : List α} {start : Nat} (hstart : start ≤ xs.length) :
    (xs.zipIdx.filter (fun x => start ≤ x.2) ++ xs.zipIdx.filter (fun x => x.2 < start)).map
        Prod.snd = (List.range xs.length).rotate start := by
  rw [List.map_append, filter_le_zipIdx, filter_lt_zipIdx, ← List.range_eq_range', Nat.sub_zero,
    List.rotate_eq_drop_append_take (by rwa [List.length_range])]

end Sweep
