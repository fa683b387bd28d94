import Mathlib.Algebra.GroupWithZero.Nat
import Runite.Lib.Transition
import Mathlib.Logic.Function.Basic

/-!
# A sequential cursor

The cursor of a file as its users see it: reads hand out the bytes from the
position on, writes and seeks happen at the position.  A device with a cursor
of its own may fetch bytes before anyone takes them; then its cursor is ahead
of the position, until the bytes are delivered or its cursor is set back.

`Follows log offset ahead` says that the log of a device is a history of the
sequential cursor, with the device's cursor at `offset` and the bytes `ahead`
fetched and not yet delivered.
-/

namespace SequentialCursor

open Transition (run)

variable {β : Type*}

/-! ## Histories -/

/-- What happens to a device, in the order in which it happens.  The offsets are those of the
device's own cursor. -/
inductive Effect (β : Type*)
  /-- the device read these bytes -/
  | fetched (offset : Nat) (bytes : List β)
  /-- a reader got these bytes -/
  | delivered (bytes : List β)
  /-- the device's cursor was set back -/
  | rewound (count : Nat)
  /-- the device wrote -/
  | wrote (offset count : Nat)
  /-- the device's cursor was set -/
  | sought (offset target : Nat)
  deriving DecidableEq

/-- The position that users see, and what the file held where the device last looked. -/
structure Cursor (β : Type*) where
  position : Nat := 0
  view : Nat → Option β := fun _ => none

/-- The file is seen to hold these bytes from there on. -/
def Shows (view : Nat → Option β) : Nat → List β → Prop
  | _, [] => True
  | offset, byte :: bytes => view offset = some byte ∧ Shows view (offset + 1) bytes

instance decidableShows [DecidableEq β] (view : Nat → Option β) :
    ∀ offset bytes, Decidable (Shows view offset bytes)
  | _, [] => inferInstanceAs (Decidable True)
  | offset, _ :: bytes =>
      haveI : Decidable (Shows view (offset + 1) bytes) := decidableShows view (offset + 1) bytes
      inferInstanceAs (Decidable (_ ∧ _))

def overlay (view : Nat → Option β) : Nat → List β → Nat → Option β
  | _, [] => view
  | offset, byte :: bytes =>
      Function.update (overlay view (offset + 1) bytes) offset (some byte)

/-- The sequential cursor: what an effect does to the position, if it may happen there. -/
def Cursor.apply [DecidableEq β] (c : Cursor β) : Effect β → Option (Cursor β)
  | .fetched offset bytes => some { c with view := overlay c.view offset bytes }
  | .delivered bytes =>
      if Shows c.view c.position bytes then
        some { c with position := c.position + bytes.length }
      else none
  | .rewound _ => some c
  | .wrote offset count =>
      if offset = c.position then some { c with position := c.position + count } else none
  | .sought offset target =>
      if offset = c.position then some { c with position := target } else none

namespace Effect

/-- The number of bytes that the device read. -/
def fetchedCount : Effect β → Nat
  | .fetched _ bytes => bytes.length
  | _ => 0

/-- The number of bytes that a reader got. -/
def deliveredCount : Effect β → Nat
  | .delivered bytes => bytes.length
  | _ => 0

/-- The number of bytes that the device's cursor was set back. -/
def rewoundCount : Effect β → Nat
  | .rewound count => count
  | _ => 0

end Effect

/-- The log is a history of the sequential cursor.  The device's cursor is ahead of the
position by the bytes that nobody got, and every byte that was fetched was delivered, or the
cursor was set back for it, or it is still there to be delivered. -/
structure Follows [DecidableEq β] (log : List (Effect β)) (offset : Nat) (ahead : List β) :
    Prop where
  replays : ∃ c, run Cursor.apply {} log = some c ∧ offset = c.position + ahead.length ∧
    Shows c.view c.position ahead
  balance : (log.map Effect.fetchedCount).sum =
    (log.map Effect.deliveredCount).sum + (log.map Effect.rewoundCount).sum + ahead.length

/-! ## What the file is seen to hold -/

theorem shows_append {view : Nat → Option β} {offset : Nat} {bytes more : List β} :
    Shows view offset (bytes ++ more) ↔
      Shows view offset bytes ∧ Shows view (offset + bytes.length) more := by
  induction bytes generalizing offset with
  | nil => simp [Shows]
  | cons byte bytes ih =>
      have hlength : offset + (byte :: bytes).length = offset + 1 + bytes.length := by
        rw [List.length_cons]
        omega
      rw [List.cons_append, Shows, Shows, ih, hlength, and_assoc]

theorem shows_update {view : Nat → Option β} {offset other : Nat} {bytes : List β}
    (value : Option β) (hlt : other < offset) :
    Shows (Function.update view other value) offset bytes ↔ Shows view offset bytes := by
  induction bytes generalizing offset with
  | nil => exact Iff.rfl
  | cons byte bytes ih =>
      rw [Shows, Shows, ih (Nat.lt_succ_of_lt hlt), Function.update_of_ne (Nat.ne_of_gt hlt)]

/-- The bytes are seen where the device just read them. -/
theorem shows_overlay (view : Nat → Option β) (offset : Nat) (bytes : List β) :
    Shows (overlay view offset bytes) offset bytes := by
  induction bytes generalizing offset with
  | nil => trivial
  | cons byte bytes ih =>
      rw [Shows, overlay, shows_update _ (Nat.lt_succ_self offset)]
      exact ⟨Function.update_self .., ih (offset + 1)⟩

/-! ## Histories grow -/

section

variable [DecidableEq β] {log : List (Effect β)} {offset : Nat} {ahead : List β}

theorem run_concat (effect : Effect β) (c₀ : Cursor β) :
    run Cursor.apply c₀ (log ++ [effect]) =
      (run Cursor.apply c₀ log).bind fun c => c.apply effect := by
  induction log generalizing c₀ with
  | nil => simp [run]
  | cons first log ih =>
      rw [List.cons_append, run, run, Option.bind_assoc]
      exact congrArg _ (funext ih)

omit [DecidableEq β] in
theorem sum_concat (count : Effect β → Nat) (effect : Effect β) :
    ((log ++ [effect]).map count).sum = (log.map count).sum + count effect := by
  rw [List.map_append, List.sum_append, List.map_singleton, List.sum_singleton]

theorem Follows.init : Follows ([] : List (Effect β)) 0 [] :=
  ⟨⟨{}, rfl, rfl, trivial⟩, rfl⟩

/-- The device reads from its cursor on, with nothing left over. -/
theorem Follows.fetch (h : Follows log offset []) (bytes : List β) :
    Follows (log ++ [.fetched offset bytes]) (offset + bytes.length) bytes := by
  obtain ⟨c, hrun, hoffset, -⟩ := h.replays
  have hposition : offset = c.position := hoffset
  refine ⟨⟨{ c with view := overlay c.view offset bytes }, ?_, ?_, ?_⟩, ?_⟩
  · rw [run_concat, hrun]
    rfl
  · rw [hposition]
  · rw [← hposition]
    exact shows_overlay c.view offset bytes
  · have hbalance := h.balance
    simp only [sum_concat, Effect.fetchedCount, Effect.deliveredCount, Effect.rewoundCount,
      List.length_nil] at hbalance ⊢
    omega

/-- A reader gets the first of the bytes that were left over. -/
theorem Follows.deliver {bytes rest : List β} (h : Follows log offset (bytes ++ rest)) :
    Follows (log ++ [.delivered bytes]) offset rest := by
  obtain ⟨c, hrun, hoffset, hshows⟩ := h.replays
  obtain ⟨hbytes, hrest⟩ := shows_append.mp hshows
  rw [List.length_append] at hoffset
  refine ⟨⟨{ c with position := c.position + bytes.length }, ?_, ?_, hrest⟩, ?_⟩
  · rw [run_concat, hrun]
    exact if_pos hbytes
  · show offset = c.position + bytes.length + rest.length
    omega
  · have hbalance := h.balance
    simp only [sum_concat, Effect.fetchedCount, Effect.deliveredCount, Effect.rewoundCount,
      List.length_append] at hbalance ⊢
    omega

/-- The device's cursor is not behind what was left over. -/
theorem Follows.length_le (h : Follows log offset ahead) : ahead.length ≤ offset := by
  obtain ⟨c, -, hoffset, -⟩ := h.replays
  omega

/-- The device's cursor is set back by what was left over. -/
theorem Follows.rewind (h : Follows log offset ahead) :
    Follows (log ++ [.rewound ahead.length]) (offset - ahead.length) [] := by
  obtain ⟨c, hrun, hoffset, -⟩ := h.replays
  refine ⟨⟨c, ?_, ?_, trivial⟩, ?_⟩
  · rw [run_concat, hrun]
    rfl
  · rw [List.length_nil]
    omega
  · have hbalance := h.balance
    simp only [sum_concat, Effect.fetchedCount, Effect.deliveredCount, Effect.rewoundCount,
      List.length_nil] at hbalance ⊢
    omega

/-- The device writes at its cursor, with nothing left over. -/
theorem Follows.write (h : Follows log offset []) (count : Nat) :
    Follows (log ++ [.wrote offset count]) (offset + count) [] := by
  obtain ⟨c, hrun, hoffset, -⟩ := h.replays
  have hposition : offset = c.position := hoffset
  refine ⟨⟨{ c with position := c.position + count }, ?_, ?_, trivial⟩, ?_⟩
  · rw [run_concat, hrun]
    exact if_pos hposition
  · rw [hposition, List.length_nil, Nat.add_zero]
  · have hbalance := h.balance
    simp only [sum_concat, Effect.fetchedCount, Effect.deliveredCount,
      Effect.rewoundCount] at hbalance ⊢
    omega

/-- The device's cursor is set, with nothing left over. -/
theorem Follows.seek (h : Follows log offset []) (target : Nat) :
    Follows (log ++ [.sought offset target]) target [] := by
  obtain ⟨c, hrun, hoffset, -⟩ := h.replays
  have hposition : offset = c.position := hoffset
  refine ⟨⟨{ c with position := target }, ?_, rfl, trivial⟩, ?_⟩
  · rw [run_concat, hrun]
    exact if_pos hposition
  · have hbalance := h.balance
    simp only [sum_concat, Effect.fetchedCount, Effect.deliveredCount,
      Effect.rewoundCount] at hbalance ⊢
    omega

end

end SequentialCursor
