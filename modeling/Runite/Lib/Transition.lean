import Mathlib.Order.Basic

/-!
# Guarded reachability

A system is a partial step function: `step s a = some s'` performs the action
`a`, and `none` says that `a` is not possible in `s`.  `Reachable step ok s₀`
collects the states of every run from `s₀` whose steps all meet the guard
`ok`.  A safety theorem is an invariant of that set; a counterexample is a
concrete list of actions replayed by `run`.
-/

namespace Transition

variable {σ α : Type*} {step : σ → α → Option σ} {ok : σ → α → Prop} {s₀ s s' : σ}

/-- The states of every run from `s₀` whose steps all meet `ok`. -/
inductive Reachable (step : σ → α → Option σ) (ok : σ → α → Prop) (s₀ : σ) : σ → Prop
  | init : Reachable step ok s₀ s₀
  | next {s s' : σ} {a : α} : Reachable step ok s₀ s → ok s a → step s a = some s' →
      Reachable step ok s₀ s'

/-- Replay a list of actions, stopping with `none` at the first impossible one. -/
def run (step : σ → α → Option σ) : σ → List α → Option σ
  | s, [] => some s
  | s, a :: actions => (step s a).bind (run step · actions)

/-- An invariant of the initial state that every guarded step preserves holds
in every reachable state. -/
theorem Reachable.invariant (inv : σ → Prop) (hinit : inv s₀)
    (hstep : ∀ s a s', inv s → ok s a → step s a = some s' → inv s')
    (hreach : Reachable step ok s₀ s) : inv s := by
  induction hreach with
  | init => exact hinit
  | next _ hok hs ih => exact hstep _ _ _ ih hok hs

theorem Reachable.mono {ok' : σ → α → Prop} (himp : ∀ s a, ok s a → ok' s a)
    (hreach : Reachable step ok s₀ s) : Reachable step ok' s₀ s := by
  induction hreach with
  | init => exact .init
  | next _ hok hs ih => exact .next ih (himp _ _ hok) hs

theorem Reachable.head {a : α} {t : σ} (hok : ok s₀ a) (hs : step s₀ a = some t)
    (hreach : Reachable step ok t s) : Reachable step ok s₀ s := by
  induction hreach with
  | init => exact .next .init hok hs
  | next _ hok' hs' ih => exact ih.next hok' hs'

/-- A replayed list of actions is a run, provided that each action meets the
guard in every state. -/
theorem Reachable.of_run {actions : List α} (hreach : Reachable step ok s₀ s)
    (hok : ∀ a ∈ actions, ∀ s, ok s a) (hrun : run step s actions = some s') :
    Reachable step ok s₀ s' := by
  induction actions generalizing s with
  | nil =>
      obtain rfl : s = s' := by simpa [run] using hrun
      exact hreach
  | cons a actions ih =>
      obtain ⟨t, ht, hrest⟩ := Option.bind_eq_some_iff.mp hrun
      exact ih (hreach.next (hok a (by simp) s) ht)
        (fun b hb => hok b (by simp [hb])) hrest

/-- The state a replayed list of actions ends in, with a property of it that
was evaluated there. -/
theorem Reachable.exists_of_run (step : σ → α → Option σ) (ok : σ → α → Prop) (s₀ : σ)
    (actions : List α) (p : σ → Bool)
    (hok : ∀ a ∈ actions, ∀ s, ok s a) (hrun : (run step s₀ actions).map p = some true) :
    ∃ s, Reachable step ok s₀ s ∧ p s = true := by
  obtain ⟨s, hs, hp⟩ := Option.map_eq_some_iff.mp hrun
  exact ⟨s, Reachable.init.of_run hok hs, hp⟩

/-- Replay a list of actions, stopping also at the first one that breaks the guard. -/
def guarded (step : σ → α → Option σ) (ok : σ → α → Prop) [∀ s a, Decidable (ok s a)] (s : σ)
    (a : α) : Option σ :=
  if ok s a then step s a else none

/-- A replayed list of guarded actions is a run, with a property of its last
state that was evaluated there. -/
theorem Reachable.exists_of_guarded (step : σ → α → Option σ) (ok : σ → α → Prop)
    [∀ s a, Decidable (ok s a)] (s₀ : σ) (actions : List α) (p : σ → Bool)
    (hrun : (run (guarded step ok) s₀ actions).map p = some true) :
    ∃ s, Reachable step ok s₀ s ∧ p s = true := by
  obtain ⟨s, hreach, hp⟩ := Reachable.exists_of_run (guarded step ok) (fun _ _ => True) s₀
    actions p (by simp) hrun
  refine ⟨s, ?_, hp⟩
  clear hp hrun
  induction hreach with
  | init => exact .init
  | next _ _ hs ih =>
      unfold guarded at hs
      split at hs
      next hok => exact ih.next hok hs
      next => cases hs

end Transition
