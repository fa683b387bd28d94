import Mathlib.Algebra.GroupWithZero.Nat
import Runite.Task
import Runite.Lib.Transition
import Mathlib.Logic.Function.Basic
import Mathlib.Tactic.Simps.Basic

/-!
# Cancellation tokens

`sync::CancellationToken`.  A `TokenState` lives as long as there are handles
for it, and knows its children by weak references only; a reference is the
number of the state.  `strong` counts the handles, and `parent` records the
token it was derived from, which no method looks at.
-/

namespace Runite.Sync

structure TokenState where
  cancelled : Bool := false
  wakers : List (Nat × Waker) := []
  nextWaiter : Nat := 0
  children : List Nat := []
  strong : Nat := 0
  parent : Option Nat := none
  deriving DecidableEq

/-- A state that `collect_cancellation` has been through. -/
@[simps]
def TokenState.cancel (s : TokenState) : TokenState :=
  { s with cancelled := true, wakers := [], children := [] }

/-- The `TokenState`s of a program, in the order of their creation. -/
structure Tokens where
  state : Nat → TokenState := fun _ => {}
  count : Nat := 0

namespace Tokens

variable (σ : Tokens)

/-- There is a handle: `Weak::upgrade` succeeds. -/
def alive (t : Nat) : Bool := 0 < (σ.state t).strong

@[simps]
def set (t : Nat) (s : TokenState) : Tokens :=
  { σ with state := Function.update σ.state t s }

@[simps]
def push (s : TokenState) : Tokens where
  state := Function.update σ.state σ.count s
  count := σ.count + 1

def new : Tokens := σ.push { strong := 1 }

/-- `Clone for CancellationToken`. -/
def clone (t : Nat) : Tokens :=
  σ.set t { σ.state t with strong := (σ.state t).strong + 1 }

def drop (t : Nat) : Tokens :=
  σ.set t { σ.state t with strong := (σ.state t).strong - 1 }

/-- The children after `child_token` has made room; `full` says that the vector
has no capacity left. -/
def prunedChildren (t : Nat) (full : Bool) : List Nat :=
  if full then (σ.state t).children.filter σ.alive else (σ.state t).children

def childToken (t : Nat) (full : Bool) : Tokens :=
  if (σ.state t).cancelled then σ.push { cancelled := true, strong := 1, parent := some t }
  else
    (σ.set t { σ.state t with children := σ.prunedChildren t full ++ [σ.count] }).push
      { strong := 1, parent := some t }

/-! ## Cancelling -/

/-- The loop of `collect_cancellation`, with the top of the stack first; `none`
when `fuel` runs out. -/
def collectCancellation : Nat → Tokens → List Nat → List Waker → Option (Tokens × List Waker)
  | _, σ, [], wakers => some (σ, wakers)
  | 0, _, _ :: _, _ => none
  | fuel + 1, σ, t :: pending, wakers =>
      let s := σ.state t
      if s.cancelled then collectCancellation fuel σ pending wakers
      else
        collectCancellation fuel (σ.set t s.cancel) ((s.children.filter σ.alive).reverse ++ pending)
          (wakers ++ s.wakers.map Prod.snd)

def slots : Nat := ((List.range σ.count).map fun t => (σ.state t).children.length).sum

/-- `cancel`, with the wakers it wakes.  Every state is pushed for a slot it is
in, and a slot is emptied before it is used again. -/
def cancel (t : Nat) : Option (Tokens × List Waker) :=
  collectCancellation (σ.slots + 1) σ [t] []

/-! ## Waiting -/

/-- One poll of `cancelled`, by a future that has this registration. -/
def pollCancelled (t : Nat) (waiter : Option Nat) (waker : Waker) :
    Tokens × Option Nat × Poll Unit :=
  let s := σ.state t
  if s.cancelled then (σ, waiter, .ready ())
  else
    match waiter with
    | none =>
        (σ.set t { s with
          wakers := s.wakers ++ [(s.nextWaiter, waker)]
          nextWaiter := s.nextWaiter + 1 }, some s.nextWaiter, .pending)
    | some waiter =>
        (σ.set t { s with
          wakers := s.wakers.modify (s.wakers.findIdx (·.1 = waiter)) fun (slot, _) =>
            (slot, waker) }, some waiter, .pending)

def swapRemove {α : Type} (xs : List α) (index : Nat) : List α :=
  match xs.getLast? with
  | some last => (xs.set index last).dropLast
  | none => xs

/-- `Drop for Registration`. -/
def dropRegistration (t : Nat) (waiter : Option Nat) : Tokens :=
  match waiter with
  | none => σ
  | some waiter =>
      let s := σ.state t
      match s.wakers.findIdx? (·.1 = waiter) with
      | some index => σ.set t { s with wakers := swapRemove s.wakers index }
      | none => σ

/-! ## Runs -/

inductive Action
  | new
  | clone (t : Nat)
  | drop (t : Nat)
  | childToken (t : Nat) (full : Bool)
  | cancel (t : Nat)
  | pollCancelled (t : Nat) (waiter : Option Nat) (waker : Waker)
  | dropRegistration (t : Nat) (waiter : Option Nat)

def step : Action → Option Tokens
  | .new => some σ.new
  | .clone t => if σ.alive t then some (σ.clone t) else none
  | .drop t => if σ.alive t then some (σ.drop t) else none
  | .childToken t full => if σ.alive t then some (σ.childToken t full) else none
  | .cancel t => if σ.alive t then (σ.cancel t).map Prod.fst else none
  | .pollCancelled t waiter waker =>
      if σ.alive t then some (σ.pollCancelled t waiter waker).1 else none
  | .dropRegistration t waiter =>
      if σ.alive t then some (σ.dropRegistration t waiter) else none

end Tokens

end Runite.Sync
