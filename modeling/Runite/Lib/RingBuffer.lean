import Mathlib.Data.Nat.Bitwise
import Mathlib.Data.Nat.ModEq
import Mathlib.Logic.Function.Basic

/-!
# Ring buffers

A memory of `2 ^ bits` slots between one writer and one reader.  Positions run freely and wrap
at `2 ^ 32`, and the slot of a position is its low bits.  `read` gives the entries from a
position on, and `read_write` says that entries which fit behind those that were not read are
read after them, in the order they were written.
-/

namespace RingBuffer

variable {α : Type*} {bits head i j n : Nat} {cells : Nat → α}

/-- `position & mask` -/
def slot (bits position : Nat) : Nat := position % 2 ^ 32 &&& (2 ^ bits - 1)

/-- `tail.wrapping_sub(head)` -/
def distance (head tail : Nat) : Nat := (tail + 2 ^ 32 - head) % 2 ^ 32

def write (bits : Nat) : Nat → List α → (Nat → α) → Nat → α
  | _, [], cells => cells
  | tail, x :: xs, cells => write bits (tail + 1) xs (Function.update cells (slot bits tail) x)

def read (bits : Nat) (cells : Nat → α) (head n : Nat) : List α :=
  (List.range n).map fun i => cells (slot bits (head + i))

theorem slot_eq (hbits : bits ≤ 32) (position : Nat) : slot bits position = position % 2 ^ bits := by
  unfold slot
  rw [Nat.and_two_pow_sub_one_eq_mod, Nat.mod_mod_of_dvd _ (Nat.pow_dvd_pow 2 hbits)]

/-- Positions that are less than the size apart have different slots. -/
theorem slot_ne (hbits : bits ≤ 32) (hij : i < j) (hj : j < i + 2 ^ bits) :
    slot bits i ≠ slot bits j := by
  rw [slot_eq hbits, slot_eq hbits]
  intro heq
  have hdvd : 2 ^ bits ∣ j - i := (Nat.modEq_iff_dvd' (Nat.le_of_lt hij)).mp heq
  have hle : 2 ^ bits ≤ j - i := Nat.le_of_dvd (by omega) hdvd
  omega

theorem read_succ (n : Nat) :
    read bits cells head (n + 1) = read bits cells head n ++ [cells (slot bits (head + n))] := by
  simp [read, List.range_succ]

theorem read_write (hbits : bits ≤ 32) (cells : Nat → α) (xs : List α) (head n : Nat)
    (hfits : n + xs.length ≤ 2 ^ bits) :
    read bits (write bits (head + n) xs cells) head (n + xs.length) =
      read bits cells head n ++ xs := by
  induction xs generalizing n cells with
  | nil => exact (List.append_nil _).symm
  | cons x xs ih =>
      rw [List.length_cons] at hfits ⊢
      have hstep : read bits (Function.update cells (slot bits (head + n)) x) head (n + 1) =
          read bits cells head n ++ [x] := by
        rw [read_succ, Function.update_self]
        refine congrArg (· ++ [x]) (List.map_congr_left fun i hi => ?_)
        have hlt := List.mem_range.mp hi
        exact Function.update_of_ne (slot_ne hbits (by omega) (by omega)) _ _
      have hrest := ih (Function.update cells (slot bits (head + n)) x) (n + 1) (by omega)
      rw [hstep, List.append_assoc, List.singleton_append] at hrest
      rw [write, Nat.add_comm xs.length 1, ← Nat.add_assoc]
      exact hrest

end RingBuffer
