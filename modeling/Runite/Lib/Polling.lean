import Mathlib.Data.List.Basic
import Runite.Lib.Transition

/-!
# Polling again and again

A computation that is polled: `poll s = some (s', some item)` yields an item,
`some (s', none)` is pending, and `none` does not return at all.  A computation
that owes some items `Pays` when each poll brings it closer to having yielded
them all, and from then on yields `stop`.
-/

namespace Polling

variable {σ α : Type*} {poll : σ → Option (σ × Option α)}

/-- What `count` polls yield. -/
def collect (poll : σ → Option (σ × Option α)) : Nat → σ → Option (List α)
  | 0, _ => some []
  | count + 1, s =>
      match poll s with
      | some (s, some item) => (collect poll count s).map (item :: ·)
      | some (s, none) => collect poll count s
      | none => none

/-- A state that owes `items` yields them one by one, with `size` coming down at
every poll, and ends with `stop`, for ever. -/
structure Pays (poll : σ → Option (σ × Option α)) (Owes : σ → List α → Prop) (size : σ → Nat)
    (Done : σ → Prop) (stop : α) : Prop where
  owes : ∀ s items, Owes s items → ∃ s' p, poll s = some (s', p) ∧
    ((p = none ∧ Owes s' items ∧ size s' < size s) ∨
      (∃ item rest, p = some item ∧ items = item :: rest ∧ Owes s' rest ∧ size s' < size s) ∨
      (p = some stop ∧ items = [] ∧ Done s'))
  done : ∀ s, Done s → ∃ s', poll s = some (s', some stop) ∧ Done s'

variable {Owes : σ → List α → Prop} {size : σ → Nat} {Done : σ → Prop} {stop : α}

theorem Pays.collect_of_done (h : Pays poll Owes size Done stop) {s : σ} (hdone : Done s)
    (count : Nat) : collect poll count s = some (List.replicate count stop) := by
  induction count generalizing s with
  | zero => rfl
  | succ count ih =>
      obtain ⟨s', hpoll, hdone'⟩ := h.done s hdone
      simp only [collect, hpoll, ih hdone', List.replicate_succ, Option.map_some]

/-- What is owed is yielded within finitely many polls, and then only `stop`. -/
theorem Pays.exists_collect (h : Pays poll Owes size Done stop) {s : σ} {items : List α}
    (howes : Owes s items) : ∃ count, ∀ more,
      collect poll (count + more) s = some (items ++ List.replicate more stop) := by
  induction hn : size s using Nat.strongRecOn generalizing s items with
  | ind n ih =>
      obtain ⟨s', p, hpoll, ⟨rfl, howes', hlt⟩ | ⟨item, rest, rfl, rfl, howes', hlt⟩ |
        ⟨rfl, rfl, hdone⟩⟩ := h.owes s items howes
      · obtain ⟨count, hcount⟩ := ih (size s') (by omega) howes' rfl
        refine ⟨count + 1, fun more => ?_⟩
        rw [Nat.add_right_comm, collect]
        simp only [hpoll, hcount more]
      · obtain ⟨count, hcount⟩ := ih (size s') (by omega) howes' rfl
        refine ⟨count + 1, fun more => ?_⟩
        rw [Nat.add_right_comm, collect]
        simp only [hpoll, hcount more, Option.map_some, List.cons_append]
      · refine ⟨0, fun more => ?_⟩
        cases more with
        | zero => rfl
        | succ more =>
            rw [Nat.zero_add, collect]
            simp only [hpoll, h.collect_of_done hdone, Option.map_some, List.nil_append,
              List.replicate_succ]

/-! ## Computations that return once -/

/-- A computation, and what it has returned: it is not polled again after that. -/
structure Driven (σ α : Type*) where
  state : σ
  output : Option α := none

namespace Driven

variable {ι : Type*} {turn : ι → σ → Option (σ × Option α)}

/-- One poll; `input` is what the environment decides. -/
def step (turn : ι → σ → Option (σ × Option α)) (d : Driven σ α) (input : ι) :
    Option (Driven σ α) :=
  match d.output with
  | some _ => none
  | none => (turn input d.state).map fun (state, output) => { state, output }

/-- What holds after a poll: `Inv` while it is pending, and `Returned` of what it
returns. -/
def Outcome (Inv : σ → Prop) (Returned : σ → α → Prop) : σ × Option α → Prop
  | (s, none) => Inv s
  | (s, some a) => Returned s a

/-- What every poll keeps holds until the computation returns, and what it then
establishes holds of the output. -/
theorem invariant {Inv : σ → Prop} {Returned : σ → α → Prop}
    (hturn : ∀ input s r, Inv s → turn input s = some r → Outcome Inv Returned r) {s₀ : σ}
    (hinit : Inv s₀) {d : Driven σ α}
    (hreach : Transition.Reachable (step turn) (fun _ _ => True) { state := s₀ } d) :
    Outcome Inv Returned (d.state, d.output) := by
  refine hreach.invariant (fun d : Driven σ α => Outcome Inv Returned (d.state, d.output)) ?_ ?_
  · exact hinit
  · rintro ⟨s, output⟩ input d' hinv - hstep
    cases output with
    | some a => cases hstep
    | none =>
        obtain ⟨r, hr, rfl⟩ := Option.map_eq_some_iff.mp hstep
        exact hturn input s r hinv hr

/-- A computation whose pending polls bring it closer to its end returns. -/
theorem exists_output (turn : ι → σ → Option (σ × Option α)) (Inv : σ → Prop)
    (Returned : σ → α → Prop) (size : σ → Nat)
    (hturn : ∀ s, Inv s → ∃ input r, turn input s = some r ∧
      Outcome (fun s' => Inv s' ∧ size s' < size s) Returned r) {s : σ} (hinit : Inv s) :
    ∃ d a, Transition.Reachable (step turn) (fun _ _ => True) { state := s } d ∧
      d.output = some a ∧ Returned d.state a := by
  induction hn : size s using Nat.strongRecOn generalizing s with
  | ind n ih =>
      obtain ⟨input, ⟨s', output⟩, hs, houtcome⟩ := hturn s hinit
      have hstep : step turn { state := s } input = some { state := s', output } :=
        congrArg (Option.map _) hs
      cases output with
      | some a => exact ⟨_, a, .next .init trivial hstep, rfl, houtcome⟩
      | none =>
          obtain ⟨hinv, hlt⟩ := houtcome
          obtain ⟨d, a, hreach, ha⟩ := ih (size s') (hn ▸ hlt) hinv rfl
          exact ⟨d, a, hreach.head trivial hstep, ha⟩

end Driven

end Polling
