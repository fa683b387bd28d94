import Mathlib.Data.List.Basic

/-!
# Tasks, as the futures of the crate see them

`std::task::Poll`, and wakers.  A waker is an identity: two wakers are equal
exactly when one `will_wake` the other.  Waking runs no code of the object
that wakes, so it is recorded in a log, in the order of the wakes.

A panic carries a payload, and the destructor of a payload may itself panic.
-/

namespace Runite

inductive Poll (α : Type*)
  | ready (value : α)
  | pending
  deriving DecidableEq, Repr

def Poll.map {α β : Type*} (f : α → β) : Poll α → Poll β
  | .ready value => .ready (f value)
  | .pending => .pending

/-- The identity of a `std::task::Waker`. -/
abbrev Waker := Nat

/-- The payload of a panic: dropping it may panic with another payload. -/
inductive Payload
  | plain
  | bomb (next : Payload)
  deriving DecidableEq, Repr

/-- The panic that dropping the payload raises. -/
def Payload.drop : Payload → Option Payload
  | .plain => none
  | .bomb next => some next

end Runite
