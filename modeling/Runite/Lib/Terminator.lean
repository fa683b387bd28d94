import Mathlib.Data.List.Basic

/-!
# Terminated records

A stream of records, each closed by a terminator.  A piece of it is `Terminated`
when nothing follows a terminator: it ends one record at most, at its last
element.
-/

namespace Terminator

variable {α : Type*} {e : α} {xs ys : List α} {n : Nat}

/-- Nothing in `xs` follows the terminator `e`. -/
def Terminated (e : α) (xs : List α) : Prop :=
  e ∉ xs.dropLast

instance [DecidableEq α] : Decidable (Terminated e xs) :=
  inferInstanceAs (Decidable (e ∉ xs.dropLast))

theorem Terminated.nil : Terminated e ([] : List α) :=
  List.not_mem_nil

theorem Terminated.of_notMem (h : e ∉ xs) : Terminated e xs :=
  fun hmem => h (List.dropLast_subset xs hmem)

theorem terminated_append_iff :
    Terminated e (xs ++ ys) ↔ Terminated e xs ∧ Terminated e ys ∧ (e ∈ xs → ys = []) := by
  unfold Terminated
  by_cases hys : ys = []
  · simp [hys]
  · rw [List.dropLast_append_of_ne_nil hys, List.mem_append, not_or]
    constructor
    · rintro ⟨hxs, hys'⟩
      exact ⟨fun h => hxs (List.dropLast_subset xs h), hys', fun h => absurd h hxs⟩
    · rintro ⟨-, hys', hempty⟩
      exact ⟨fun h => hys (hempty h), hys'⟩

theorem Terminated.drop (h : Terminated e xs) (n : Nat) : Terminated e (xs.drop n) := by
  rw [← List.take_append_drop n xs, terminated_append_iff] at h
  exact h.2.1

variable [BEq α] [LawfulBEq α]

theorem eq_append_cons_of_findIdx? (h : xs.findIdx? (· == e) = some n) :
    xs = xs.take n ++ e :: xs.drop (n + 1) ∧ e ∉ xs.take n := by
  obtain ⟨hlt, heq, hbefore⟩ := List.findIdx?_eq_some_iff_getElem.mp h
  constructor
  · conv_lhs => rw [← List.take_append_drop n xs, List.drop_eq_getElem_cons hlt, eq_of_beq heq]
  · rw [List.mem_take_iff_getElem]
    rintro ⟨i, hi, rfl⟩
    exact hbefore i (by omega) (by simp)

theorem notMem_of_findIdx? (h : xs.findIdx? (· == e) = none) : e ∉ xs := by
  intro hmem
  have := List.findIdx?_eq_none_iff.mp h e hmem
  simp at this

/-- A piece that is cut behind the first terminator is terminated. -/
theorem terminated_take_of_findIdx? (h : xs.findIdx? (· == e) = some n) :
    Terminated e (xs.take (n + 1)) := by
  obtain ⟨hlt, -, hbefore⟩ := List.findIdx?_eq_some_iff_getElem.mp h
  unfold Terminated
  rw [List.take_add_one, List.getElem?_eq_getElem hlt, Option.toList_some,
    List.dropLast_concat, List.mem_take_iff_getElem]
  rintro ⟨i, hi, heq⟩
  exact hbefore i (by omega) (by simp [heq])

/-- The first terminator of a terminated piece is its last element. -/
theorem Terminated.drop_of_findIdx? (h : Terminated e xs)
    (hfind : xs.findIdx? (· == e) = some n) : xs.drop (n + 1) = [] := by
  obtain ⟨hlt, heq, -⟩ := List.findIdx?_eq_some_iff_getElem.mp hfind
  rw [← List.take_append_drop (n + 1) xs, terminated_append_iff] at h
  apply h.2.2
  rw [List.mem_take_iff_getElem]
  exact ⟨n, by omega, eq_of_beq heq⟩

/-! ## Records and pieces -/

/-- The records of a stream: what stands between its terminators.  What follows
the last terminator is a record when it is not empty. -/
def records (e : α) (xs : List α) : List (List α) :=
  match (xs.splitOn e).getLast? with
  | some [] => (xs.splitOn e).dropLast
  | _ => xs.splitOn e

/-- The stream cut behind each terminator. -/
def pieces (e : α) : List α → List (List α)
  | [] => []
  | x :: xs =>
      if x == e then [x] :: pieces e xs
      else
        match pieces e xs with
        | [] => [[x]]
        | piece :: rest => (x :: piece) :: rest

omit [LawfulBEq α] in
@[simp]
theorem records_nil (e : α) : records e [] = [] := rfl

omit [LawfulBEq α] in
@[simp]
theorem pieces_nil (e : α) : pieces e [] = [] := rfl

omit [LawfulBEq α] in
theorem splitOn_ne_nil (e : α) (xs : List α) : xs.splitOn e ≠ [] := by
  rw [List.splitOn_eq_splitOnP]
  exact List.splitOnP_ne_nil _ _

theorem records_of_notMem (h : e ∉ xs) (hxs : xs ≠ []) : records e xs = [xs] := by
  have hsplit : xs.splitOn e = [xs] := by
    rw [List.splitOn_eq_splitOnP]
    refine List.splitOnP_eq_singleton fun x hx => ?_
    simp only [beq_eq_false_iff_ne]
    rintro rfl
    exact h hx
  unfold records
  rw [hsplit]
  cases xs with
  | nil => exact absurd rfl hxs
  | cons x xs => rfl

/-- The first record of a stream ends at its first terminator. -/
theorem records_append_cons (h : e ∉ xs) (ys : List α) :
    records e (xs ++ e :: ys) = xs :: records e ys := by
  have hsplit : (xs ++ e :: ys).splitOn e = xs :: ys.splitOn e := by
    rw [List.splitOn_eq_splitOnP, List.splitOn_eq_splitOnP]
    refine List.splitOnP_append_cons_of_forall_mem (fun x hx => ?_) e (by simp) ys
    simp only [beq_eq_false_iff_ne]
    rintro rfl
    exact h hx
  have hne := splitOn_ne_nil e ys
  unfold records
  rw [hsplit, List.getLast?_cons_of_ne_nil hne, List.dropLast_cons_of_ne_nil hne]
  split <;> rfl

theorem pieces_of_notMem (h : e ∉ xs) (hxs : xs ≠ []) : pieces e xs = [xs] := by
  induction xs with
  | nil => exact absurd rfl hxs
  | cons x xs ih =>
      have hx : (x == e) = false := by
        simp only [beq_eq_false_iff_ne]
        rintro rfl
        exact h List.mem_cons_self
      cases xs with
      | nil => simp [pieces, hx]
      | cons y ys =>
          have hpieces := ih (fun hmem => h (List.mem_cons_of_mem x hmem)) (by simp)
          rw [pieces, hpieces]
          simp [hx]

theorem pieces_append_cons (h : e ∉ xs) (ys : List α) :
    pieces e (xs ++ e :: ys) = (xs ++ [e]) :: pieces e ys := by
  induction xs with
  | nil => simp [pieces]
  | cons x xs ih =>
      have hx : (x == e) = false := by
        simp only [beq_eq_false_iff_ne]
        rintro rfl
        exact h List.mem_cons_self
      have hpieces := ih fun hmem => h (List.mem_cons_of_mem x hmem)
      rw [List.cons_append, pieces, hpieces]
      simp [hx]

/-- Records, and the same records with their terminators, which the last one may lack. -/
inductive Closed (e : α) : List (List α) → List (List α) → Prop
  | nil : Closed e [] []
  | last (record : List α) : Closed e [record] [record]
  | cons (record : List α) {records pieces : List (List α)} :
      Closed e records pieces → Closed e (record :: records) ((record ++ [e]) :: pieces)

theorem closed_records_pieces (e : α) (xs : List α) : Closed e (records e xs) (pieces e xs) := by
  induction hn : xs.length using Nat.strongRecOn generalizing xs with
  | ind n ih =>
      by_cases hmem : e ∈ xs
      · obtain ⟨as, bs, rfl, has⟩ := List.eq_append_cons_of_mem hmem
        rw [records_append_cons has, pieces_append_cons has]
        refine .cons as (ih bs.length ?_ bs rfl)
        simp only [List.length_append, List.length_cons] at hn
        omega
      · by_cases hxs : xs = []
        · subst hxs
          exact .nil
        · rw [records_of_notMem hmem hxs, pieces_of_notMem hmem hxs]
          exact .last xs

end Terminator
