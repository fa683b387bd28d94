import Runite.Lib.Sweep
import Runite.Macros.Select

/-!
# The future that `select!` generates

A poll goes over the branches from a start index, which moves on by one with each poll
unless the `select!` is `biased`.  The generated code has the rotation unrolled: one
pass over all branches for those at or after the start, and another for those before.

What a branch future does when it is polled is up to the environment.
-/

namespace Runite.Macros

/-! ## The input -/

/-- A branch; `condition` is the value of its precondition, if it has one. -/
structure SelectBranch where
  pattern : Pat
  condition : Option Bool := none

/-- The parser insists on a branch or an `else`. -/
structure SelectInput where
  biased : Bool
  branches : List SelectBranch
  hasFallback : Bool
  parsed : branches ≠ [] ∨ hasFallback = true

/-- What the generated code has of a branch: its guard, the two shapes that its output
is checked with, and the pattern of its handler. -/
structure GeneratedBranch where
  guard : Bool
  resolution : Pat
  structural : Pat
  pattern : Pat

def generateBranch (branch : SelectBranch) : Except String GeneratedBranch := do
  let resolution ← preparePattern .resolution branch.pattern
  let structural ← preparePattern .structural branch.pattern
  pure { guard := branch.condition.getD true, resolution, structural, pattern := branch.pattern }

def generateSelect (input : SelectInput) : Except String (List GeneratedBranch) :=
  input.branches.mapM generateBranch

namespace SelectInput

variable (input : SelectInput)

def fixedStart : Bool := input.biased || input.branches.length == 1

end SelectInput

/-! ## A poll -/

/-- `__RuniteSelectWinner`. -/
inductive SelectWinner
  | arm (index : Nat) (output : Val)
  | disabled

/-- History: a branch future was polled. -/
structure BranchPoll (ω : Type) where
  index : Nat
  context : ω
  answer : Option Val

/-- What the branch futures do: the poll of one of them, over their common state. -/
abbrev BranchFutures (σ ω : Type) := Nat → ω → σ → σ × Option Val

/-- What the closure of `poll_fn` owns, with the polls of the current turn. -/
structure SelectState (σ ω : Type) where
  futures : σ
  enabled : List Bool
  next : Nat
  polls : List (BranchPoll ω) := []

/-- History: a poll of the generated future.  Without a result it was pending. -/
structure SelectRound (ω : Type) where
  start : Nat
  waker : ω
  polls : List (BranchPoll ω)
  result : Option SelectWinner

section Code

variable {σ ω : Type} (env : String → Option Constant) (poll : BranchFutures σ ω)
  (input : SelectInput) (branches : List GeneratedBranch) (context : ω)

/-- The block of a branch that is in range. -/
def pollEnabled (x : GeneratedBranch × Nat) (s : SelectState σ ω) :
    Option SelectWinner × SelectState σ ω :=
  let (branch, index) := x
  if s.enabled.getD index false then
    let (futures, answer) := poll index context s.futures
    let s := { s with futures, polls := s.polls ++ [{ index, context, answer }] }
    match answer with
    | some output =>
        match pollSelectBranch env branch.resolution branch.structural output with
        | .winner output => (some (.arm index output), s)
        | .disabled => (none, { s with enabled := s.enabled.set index false })
    | none => (none, s)
  else (none, s)

def pollPass (inRange : Nat → Bool) (s : SelectState σ ω) : Option SelectWinner × SelectState σ ω :=
  Sweep.sweep (fun x s => if inRange x.2 then pollEnabled env poll context x s else (none, s))
    branches.zipIdx s

def selectStart (s : SelectState σ ω) : Nat × SelectState σ ω :=
  if input.fixedStart then (0, s)
  else (s.next, { s with next := (s.next + 1) % branches.length })

/-- The closure of `poll_fn`, from `start`. -/
def pollFrom (start : Nat) (s : SelectState σ ω) : Option SelectWinner × SelectState σ ω :=
  match pollPass env poll branches context (fun index => start ≤ index) s with
  | (some winner, s) => (some winner, s)
  | (none, s) =>
      match pollPass env poll branches context (fun index => index < start) s with
      | (some winner, s) => (some winner, s)
      | (none, s) => if s.enabled.all (!·) then (some .disabled, s) else (none, s)

/-- The polls of the generated future, until one is ready. -/
def rounds : List ω → SelectState σ ω → List (SelectRound ω)
  | [], _ => []
  | waker :: wakers, s =>
      let (start, s) := selectStart input branches s
      let (result, s) := pollFrom env poll branches waker start { s with polls := [] }
      let round := { start, waker, polls := s.polls, result }
      if result.isSome then [round] else round :: rounds wakers s

end Code

/-! ## The expression -/

inductive SelectOutcome
  | handler (index : Nat) (output : Val)
  /-- "select! winner no longer matched its checked branch pattern" -/
  | unreachable
  | fallback
  | panicked (message : String)

def SelectInput.fallbackHandler (input : SelectInput) : SelectOutcome :=
  if input.hasFallback then .fallback
  else .panicked "runite::select!: all branches are disabled"

/-- The `match` on the winner. -/
def conclude (env : String → Option Constant) (input : SelectInput) : SelectWinner → SelectOutcome
  | .arm index output =>
      match input.branches[index]?.map (handle env ·.pattern output) with
      | some .handler => .handler index output
      | some .unreachable | none => .unreachable
  | .disabled => input.fallbackHandler

/-- A run of the expression, which may still be pending. -/
structure SelectRun (ω : Type) where
  rounds : List (SelectRound ω)
  outcome : Option SelectOutcome

/-- The code of `generate_select`; `counter` is what the `fetch_add` on the static of
this `select!` returns. -/
def runSelect {σ ω : Type} (env : String → Option Constant) (poll : BranchFutures σ ω)
    (input : SelectInput) (branches : List GeneratedBranch) (counter : Nat) (futures : σ)
    (wakers : List ω) : SelectRun ω :=
  if input.branches.isEmpty then { rounds := [], outcome := some .fallback }
  else
    let rounds := rounds env poll input branches wakers
      { futures, enabled := branches.map (·.guard), next := counter % branches.length }
    { rounds, outcome := (rounds.getLast?.bind (·.result)).map (conclude env input) }

end Runite.Macros
