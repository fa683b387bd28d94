import Mathlib.Data.List.Basic
import Mathlib.Data.List.Nodup

/-!
# Rotating scans

A scan over `n` positions that begins at `start`, wraps around, and stops at the
first position that `p` accepts; the next scan begins after it.  A position is
served after fewer than `n` others: what it was passed over, with its distance
from the start, stays below `n`.
-/

namespace RoundRobin

variable {n start i j passed : Nat} {p : Nat → Bool}

/-- The positions in the order of the scan. -/
def order (n start : Nat) : List Nat := (List.range n).map fun offset => (start + offset) % n

/-- How far the scan goes to come to `j`. -/
def distance (n start j : Nat) : Nat := if start ≤ j then j - start else j + n - start

theorem distance_lt (hj : j < n) (hstart : start < n) : distance n start j < n := by
  unfold distance
  split <;> omega

theorem add_distance_mod (hj : j < n) (hstart : start < n) :
    (start + distance n start j) % n = j := by
  unfold distance
  split
  next hle => rw [Nat.add_sub_cancel' hle, Nat.mod_eq_of_lt hj]
  next hlt =>
    rw [show start + (j + n - start) = j + n by omega, Nat.add_mod_right, Nat.mod_eq_of_lt hj]

theorem distance_add_mod {offset : Nat} (hoffset : offset < n) (hstart : start < n) :
    distance n start ((start + offset) % n) = offset := by
  unfold distance
  by_cases hwrap : start + offset < n
  · rw [Nat.mod_eq_of_lt hwrap, if_pos (Nat.le_add_right _ _)]
    omega
  · have hmod : (start + offset) % n = start + offset - n := by
      rw [Nat.mod_eq_sub_mod (by omega), Nat.mod_eq_of_lt (by omega)]
    rw [hmod, if_neg (by omega)]
    omega

theorem existsUnique_add_mod (hj : j < n) (c k : Nat) :
    ∃! m, (k ≤ m ∧ m < k + n) ∧ (c + m) % n = j := by
  have hstart : (c + k) % n < n := Nat.mod_lt _ (by omega)
  have hmod (offset : Nat) : (c + (k + offset)) % n = ((c + k) % n + offset) % n := by
    rw [Nat.mod_add_mod, Nat.add_assoc]
  refine ⟨k + distance n ((c + k) % n) j, ⟨⟨Nat.le_add_right .., ?_⟩, ?_⟩, ?_⟩
  · exact Nat.add_lt_add_left (distance_lt hj hstart) k
  · show (c + (k + _)) % n = j
    rw [hmod, add_distance_mod hj hstart]
  · rintro m ⟨⟨hle, hlt⟩, hm⟩
    obtain ⟨offset, rfl⟩ := Nat.exists_eq_add_of_le hle
    rw [hmod] at hm
    rw [← hm, distance_add_mod (by omega) hstart]

theorem mem_order (hstart : start < n) : j ∈ order n start ↔ j < n := by
  constructor
  · intro hj
    obtain ⟨offset, -, rfl⟩ := List.mem_map.mp hj
    exact Nat.mod_lt _ (by omega)
  · intro hj
    exact List.mem_map.mpr
      ⟨distance n start j, List.mem_range.mpr (distance_lt hj hstart), add_distance_mod hj hstart⟩

theorem distance_le_of_find? (hstart : start < n) (hfind : (order n start).find? p = some i)
    (hj : j < n) (hp : p j = true) : distance n start i ≤ distance n start j := by
  obtain ⟨-, k, hk, hget, hbefore⟩ := List.find?_eq_some_iff_getElem.mp hfind
  rw [order, List.length_map, List.length_range] at hk
  have hi : (start + k) % n = i := by simpa [order] using hget
  rw [← hi, distance_add_mod hk hstart]
  by_contra hlt
  have hnot := hbefore (distance n start j) (by omega)
  simp only [order, List.getElem_map, List.getElem_range] at hnot
  rw [add_distance_mod hj hstart, hp] at hnot
  cases hnot

/-- The next scan begins after `i`, so it comes to `j` sooner. -/
theorem distance_succ (hi : i < n) (hj : j < n) (hstart : start < n)
    (hlt : distance n start i < distance n start j) :
    distance n ((i + 1) % n) j + distance n start i + 1 = distance n start j := by
  have hmod : (i + 1) % n = if i + 1 < n then i + 1 else 0 := by
    split
    next h => exact Nat.mod_eq_of_lt h
    next h => rw [show i + 1 = n by omega, Nat.mod_self]
  rw [hmod]
  unfold distance at hlt ⊢
  split_ifs at hlt ⊢ <;> omega

/-- A position that was passed over is closer to the start of the next scan. -/
theorem passed_succ (hstart : start < n) (hfind : (order n start).find? p = some i) (hj : j < n)
    (hp : p j = true) (hne : i ≠ j) (hpassed : passed + distance n start j < n) :
    passed + 1 + distance n ((i + 1) % n) j < n := by
  have hi : i < n := (mem_order hstart).mp (List.mem_of_find?_eq_some hfind)
  have hle := distance_le_of_find? hstart hfind hj hp
  have hlt : distance n start i < distance n start j := by
    refine Nat.lt_of_le_of_ne hle fun heq => hne ?_
    rw [← add_distance_mod hi hstart, heq, add_distance_mod hj hstart]
  have hnext := distance_succ hi hj hstart hlt
  omega

end RoundRobin
