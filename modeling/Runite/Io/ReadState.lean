import Mathlib.Algebra.Group.Nat.Defs
import Runite.Io.Operation
import Mathlib.Tactic.Simps.Basic

/-!
# The state of a readable resource

`io::pending::ReadState`, method by method, with the log of the wakes that its
methods perform.  A read hands the bytes it got to `put`; here it returns them,
and its count is their number.
-/

namespace Runite.Io

/-- `usize::MAX + 1`. -/
def usizeLimit : Nat := 2 ^ 64

/-- `ReadOverflow`: bytes of a completed read that were not handed out yet. -/
structure ReadOverflow where
  data : List UInt8
  pos : Nat
  pos_le : pos ≤ data.length
  deriving DecidableEq

namespace ReadOverflow

def remaining (o : ReadOverflow) : Nat := o.data.length - o.pos

def front (o : ReadOverflow) (max : Nat) : List UInt8 :=
  (o.data.drop o.pos).take (min max o.remaining)

@[simps]
def advance (o : ReadOverflow) (len : Nat) : ReadOverflow where
  data := o.data
  pos := o.pos + min len o.remaining
  pos_le := by
    have h := o.pos_le
    unfold remaining
    omega

def isDrained (o : ReadOverflow) : Bool := o.pos = o.data.length

/-- The bytes that were not handed out yet. -/
def rest (o : ReadOverflow) : List UInt8 := o.data.drop o.pos

/-- What is handed out and what stays are what there was. -/
theorem front_append_rest_advance (o : ReadOverflow) (len : Nat) :
    o.front len ++ (o.advance len).rest = o.rest := by
  unfold front rest
  rw [advance_data, advance_pos, ← List.drop_drop, List.take_append_drop]

theorem rest_of_isDrained {o : ReadOverflow} (h : o.isDrained) : o.rest = [] := by
  have hpos : o.pos = o.data.length := by simpa [isDrained] using h
  unfold rest
  rw [hpos, List.drop_length]

end ReadOverflow

/-- The bytes that a poll of a read returns. -/
def received : Poll (Except IoError (List UInt8)) → List UInt8
  | .ready (.ok bytes) => bytes
  | .ready (.error _) => []
  | .pending => []

@[simp]
theorem received_ok (bytes : List UInt8) : received (.ready (.ok bytes)) = bytes := rfl

@[simp]
theorem received_error (error : IoError) : received (.ready (.error error)) = [] := rfl

@[simp]
theorem received_pending : received .pending = [] := rfl

/-- `ReadState`, with the wakes it performed.  `started` are the calls of the `start`
factory, by the capacity that each was made with. -/
structure ReadState where
  operation : Option (PendingOperation (List UInt8)) := none
  overflow : Option ReadOverflow := none
  shutdown : DirectionShutdown := {}
  woken : List Waker := []
  started : List Nat := []

namespace ReadState

variable (s : ReadState)

/-- The operation has been polled and is still pending. -/
@[simps]
def await (operation : PendingOperation (List UInt8)) (waker : Waker) : ReadState :=
  { s with operation := some (operation.await waker) }

/-- The operation has been polled and is ready: its waiters are woken. -/
@[simps]
def finish (operation : PendingOperation (List UInt8)) (waker : Waker) : ReadState :=
  { s with
    operation := none
    woken := s.woken ++ register operation.waiters waker }

/-- The factory is called when no operation is in flight. -/
@[simps]
def begin (capacity : Nat) : ReadState :=
  { s with started := s.started ++ if s.operation.isNone then [capacity] else [] }

/-- The operation of `poll_with`: the one in flight, or a new one. -/
def currentOperation (start : Option (Except IoError (List UInt8))) :
    PendingOperation (List UInt8) :=
  s.operation.getD { outcome := start }

/-- `poll_with`.  The bytes are those that `put` is called with; `start` is the
outcome that the future of the factory already has. -/
def pollWith (waker : Waker) (capacity : Nat) (start : Option (Except IoError (List UInt8))) :
    ReadState × Poll (Except IoError (List UInt8)) :=
  if capacity = 0 then (s, .ready (.ok []))
  else if s.shutdown.requested then (s, .ready (.ok []))
  else
    match s.overflow with
    | some overflow =>
        let len := min capacity overflow.remaining
        let rest := overflow.advance len
        ({ s with overflow := if rest.isDrained then none else some rest },
          .ready (.ok (overflow.front len)))
    | none =>
        let operation := s.currentOperation start
        let s := s.begin capacity
        match operation.outcome with
        | none => (s.await operation waker, .pending)
        | some (.error error) => (s.finish operation waker, .ready (.error error))
        | some (.ok data) =>
            let s := s.finish operation waker
            let len := min capacity data.length
            if h : len < data.length then
              ({ s with overflow := some ⟨data, len, Nat.le_of_lt h⟩ }, .ready (.ok (data.take len)))
            else (s, .ready (.ok (data.take len)))

def pollSlice (waker : Waker) (capacity : Nat) (start : Option (Except IoError (List UInt8))) :
    ReadState × Poll (Except IoError (List UInt8)) :=
  s.pollWith waker capacity start

/-- The number of bytes that were read and not handed out. -/
def retained : Nat := (s.overflow.map ReadOverflow.remaining).getD 0

/-- The bytes that were read and not handed out. -/
def rest : List UInt8 :=
  (s.overflow.map ReadOverflow.rest).getD []

/-- A poll that does not come to the operation hands out from the front of the rest. -/
theorem received_pollSlice_of_not_polled
    (h : s.shutdown.requested || s.overflow.isSome) (waker : Waker) (capacity : Nat)
    (start : Option (Except IoError (List UInt8))) :
    received (s.pollSlice waker capacity start).2 ++ (s.pollSlice waker capacity start).1.rest =
      s.rest := by
  unfold pollSlice pollWith
  by_cases hcapacity : capacity = 0
  · simp [hcapacity]
  by_cases hshutdown : s.shutdown.requested
  · simp [hcapacity, hshutdown]
  cases hoverflow : s.overflow with
  | none => simp [hshutdown, hoverflow] at h
  | some overflow =>
      have hsplit := overflow.front_append_rest_advance (min capacity overflow.remaining)
      simp only [hcapacity, hshutdown, Bool.false_eq_true, ↓reduceIte, received_ok, rest,
        hoverflow, Option.map_some, Option.getD_some]
      split
      next hdrained =>
        rw [ReadOverflow.rest_of_isDrained hdrained] at hsplit
        simpa using hsplit
      next => simpa using hsplit

/-- The operation has been polled: its future has this outcome now. -/
@[simps]
def resolve (outcome : Option (Except IoError (List UInt8))) : ReadState :=
  { s with operation := some { (s.currentOperation none) with outcome } }

/-- A poll of a read that has completed hands out the front of its bytes and keeps the
others. -/
theorem received_pollSlice_resolve (hshutdown : s.shutdown.requested = false)
    (hoverflow : s.overflow = none) {capacity : Nat} (hcapacity : capacity ≠ 0) (waker : Waker)
    (data : List UInt8) (start : Option (Except IoError (List UInt8))) :
    received ((s.resolve (some (.ok data))).pollSlice waker capacity start).2 ++
      ((s.resolve (some (.ok data))).pollSlice waker capacity start).1.rest = data := by
  simp only [pollSlice, pollWith, hcapacity, ↓reduceIte, resolve_shutdown, hshutdown,
    Bool.false_eq_true, resolve_overflow, hoverflow, currentOperation, resolve_operation,
    Option.getD_some]
  split
  next hlt => simp [rest, ReadOverflow.rest]
  next hge =>
    have hle : data.length ≤ capacity := by omega
    simp [rest, hoverflow, hle]

/-- A poll of a read that failed, or that has not completed, hands out nothing. -/
theorem received_pollSlice_resolve_of_not_ok (hoverflow : s.overflow = none)
    {outcome : Option (Except IoError (List UInt8))} (hok : ∀ data, outcome ≠ some (.ok data))
    (waker : Waker) (capacity : Nat) (start : Option (Except IoError (List UInt8))) :
    received ((s.resolve outcome).pollSlice waker capacity start).2 ++
      ((s.resolve outcome).pollSlice waker capacity start).1.rest = [] := by
  have hrest : (s.resolve outcome).rest = [] := by simp [rest, hoverflow]
  unfold pollSlice pollWith
  split
  · exact hrest
  split
  · exact hrest
  rcases outcome with _ | error | data
  · simp [hoverflow, currentOperation, rest]
  · simp [hoverflow, currentOperation, rest]
  · exact absurd rfl (hok data)

/-- `overflow.take`. -/
@[simps]
def takeOverflow : ReadState := { s with overflow := none }

/-- The error of a rewind that does not fit in a `usize`. -/
def rewindError : IoError := { kind := .invalidData, message := "read rewind exceeds usize" }

def pollReconcile (waker : Waker) : ReadState × Poll (Except IoError Nat) :=
  let rewind := s.retained
  let s := s.takeOverflow
  match s.operation with
  | none => (s, .ready (.ok rewind))
  | some operation =>
      match operation.outcome with
      | none => (s.await operation waker, .pending)
      | some (.error _) => (s.finish operation waker, .ready (.ok rewind))
      | some (.ok data) =>
          if rewind + data.length < usizeLimit then
            (s.finish operation waker, .ready (.ok (rewind + data.length)))
          -- `?` returns before the operation is taken out
          else
            ({ s.finish operation waker with operation := some { outcome := some (.ok data) } },
              .ready (.error rewindError))

/-- The number of bytes that were read ahead of what the callers got, once the
read in flight, if there is one, has completed. -/
def readAhead : Option Nat :=
  match s.operation with
  | none => some s.retained
  | some operation =>
      match operation.outcome with
      | none => none
      | some (.error _) => some s.retained
      | some (.ok data) =>
          if s.retained + data.length < usizeLimit then some (s.retained + data.length)
          else none

theorem pollReconcile_ready_iff (waker : Waker) (bytes : Nat) :
    (s.pollReconcile waker).2 = .ready (.ok bytes) ↔ s.readAhead = some bytes := by
  unfold pollReconcile readAhead
  cases hop : s.operation with
  | none => simp [hop]
  | some operation =>
      rcases houtcome : operation.outcome with _ | error | data
      · simp [hop, houtcome]
      · simp [hop, houtcome]
      · by_cases hfits : s.retained + data.length < usizeLimit <;> simp [hop, houtcome, hfits]

def pollShutdown (waker : Waker) (start : Option (Except IoError Unit)) :
    ReadState × Poll (Except IoError Unit) :=
  ({ s with
     operation := none
     overflow := none
     shutdown := (s.shutdown.poll waker start).1
     woken := s.woken ++ (s.shutdown.poll waker start).2.1 },
    (s.shutdown.poll waker start).2.2)

/-- The future of the read in flight completes. -/
def complete (result : Except IoError (List UInt8)) : Option ReadState :=
  match s.operation with
  | none => none
  | some operation =>
      match operation.outcome with
      | some _ => none
      | none =>
          some { s with
            operation := some { outcome := some result }
            woken := s.woken ++ operation.waiters }

end ReadState

end Runite.Io
