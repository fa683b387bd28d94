import Mathlib.Logic.Relation

/-!
# Deterministic machines that implement another one

A machine takes the steps of an abstract machine one by one, with steps of its own in
between that change nothing of the abstract state and come to an end.  Then it goes
through the same states in the same order, and stops exactly where the other stops.
-/

namespace Stuttering

variable {σ τ : Type*} {step : σ → Option σ} {next : τ → Option τ} {abs : σ → τ}
  {inv : σ → Prop} {rank : σ → Nat} {s s' : σ} {t t' : τ}

/-- `n` steps. -/
def iterate (step : σ → Option σ) : Nat → σ → Option σ
  | 0, s => some s
  | n + 1, s => (step s).bind (iterate step n)

theorem iterate_add (n m : Nat) (s : σ) :
    iterate step (n + m) s = (iterate step n s).bind (iterate step m) := by
  induction n generalizing s with
  | zero => rw [Nat.zero_add, iterate, Option.bind_some]
  | succ n ih =>
      rw [Nat.succ_add, iterate, iterate, Option.bind_assoc]
      congr 1
      funext s'
      exact ih s'

/-- Every step on `inv` takes the step of the abstract machine, or none and a lower
rank; a stop is one of the abstract machine. -/
structure Implements (step : σ → Option σ) (next : τ → Option τ) (abs : σ → τ) (inv : σ → Prop)
    (rank : σ → Nat) : Prop where
  keeps : ∀ s s', inv s → step s = some s' → inv s'
  takes : ∀ s s', inv s → step s = some s' →
    next (abs s) = some (abs s') ∨ abs s' = abs s ∧ rank s' < rank s
  stops : ∀ s, inv s → step s = none → next (abs s) = none

namespace Implements

variable (h : Implements step next abs inv rank)

include h

theorem keeps_iterate {k : Nat} (hs : inv s) (hrun : iterate step k s = some s') : inv s' := by
  induction k generalizing s with
  | zero =>
      cases hrun
      exact hs
  | succ k ih =>
      obtain ⟨u, hu, hrest⟩ := Option.bind_eq_some_iff.mp hrun
      exact ih (h.keeps s u hs hu) hrest

/-- The abstract state is one that the abstract machine goes through. -/
theorem sound {k : Nat} (hs : inv s) (hrun : iterate step k s = some s') :
    ∃ n, iterate next n (abs s) = some (abs s') := by
  induction k generalizing s with
  | zero =>
      cases hrun
      exact ⟨0, rfl⟩
  | succ k ih =>
      obtain ⟨u, hu, hrest⟩ := Option.bind_eq_some_iff.mp hrun
      obtain ⟨n, hn⟩ := ih (h.keeps s u hs hu) hrest
      obtain hnext | ⟨hsame, -⟩ := h.takes s u hs hu
      · exact ⟨n + 1, by rw [iterate, hnext, Option.bind_some, hn]⟩
      · exact ⟨n, hsame ▸ hn⟩

/-- From here the machine takes the next abstract step. -/
theorem exists_next (hs : inv s) (hnext : next (abs s) = some t) :
    ∃ k s', iterate step k s = some s' ∧ abs s' = t := by
  induction hrank : rank s using Nat.strongRecOn generalizing s with
  | ind r ih =>
      cases hstep : step s with
      | none => exact nomatch (h.stops s hs hstep).symm.trans hnext
      | some u =>
          obtain htaken | ⟨hsame, hlt⟩ := h.takes s u hs hstep
          · refine ⟨1, u, ?_, Option.some.inj (htaken.symm.trans hnext)⟩
            rw [iterate, hstep]
            rfl
          · obtain ⟨k, s', hrun, habs⟩ :=
              ih (rank u) (hrank ▸ hlt) (h.keeps s u hs hstep) (hsame ▸ hnext) rfl
            exact ⟨k + 1, s', by rw [iterate, hstep, Option.bind_some, hrun], habs⟩

/-- The machine goes through every state that the abstract machine goes through. -/
theorem complete {n : Nat} (hs : inv s) (hrun : iterate next n (abs s) = some t) :
    ∃ k s', iterate step k s = some s' ∧ abs s' = t := by
  induction n generalizing s with
  | zero =>
      cases hrun
      exact ⟨0, s, rfl, rfl⟩
  | succ n ih =>
      obtain ⟨u, hu, hrest⟩ := Option.bind_eq_some_iff.mp hrun
      obtain ⟨k, s', hk, rfl⟩ := h.exists_next hs hu
      obtain ⟨m, s'', hm, habs⟩ := ih (h.keeps_iterate hs hk) hrest
      exact ⟨k + m, s'', by rw [iterate_add, hk, Option.bind_some, hm], habs⟩

/-- Where the abstract machine has stopped, the machine stops. -/
theorem exists_stop (hs : inv s) (hnext : next (abs s) = none) :
    ∃ k s', iterate step k s = some s' ∧ abs s' = abs s ∧ step s' = none := by
  induction hrank : rank s using Nat.strongRecOn generalizing s with
  | ind r ih =>
      cases hstep : step s with
      | none => exact ⟨0, s, rfl, rfl, hstep⟩
      | some u =>
          obtain htaken | ⟨hsame, hlt⟩ := h.takes s u hs hstep
          · exact nomatch hnext.symm.trans htaken
          · obtain ⟨k, s', hrun, habs, hstop⟩ :=
              ih (rank u) (hrank ▸ hlt) (h.keeps s u hs hstep) (hsame ▸ hnext) rfl
            exact ⟨k + 1, s', by rw [iterate, hstep, Option.bind_some, hrun], habs.trans hsame,
              hstop⟩

/-- The machine stops in the state in which the abstract machine stops. -/
theorem terminates {n : Nat} (hs : inv s) (hrun : iterate next n (abs s) = some t)
    (hnext : next t = none) :
    ∃ k s', iterate step k s = some s' ∧ abs s' = t ∧ step s' = none := by
  obtain ⟨k, s', hk, rfl⟩ := h.complete hs hrun
  obtain ⟨m, s'', hm, habs, hstop⟩ := h.exists_stop (h.keeps_iterate hs hk) hnext
  exact ⟨k + m, s'', by rw [iterate_add, hk, Option.bind_some, hm], habs, hstop⟩

end Implements

theorem stop_unique {n m : Nat} (hn : iterate next n t = some t') {u : τ}
    (hm : iterate next m t = some u) (ht' : next t' = none) (hu : next u = none) : t' = u := by
  induction n generalizing t m with
  | zero =>
      cases hn
      cases m with
      | zero => exact Option.some.inj hm
      | succ m =>
          rw [iterate, ht'] at hm
          cases hm
  | succ n ih =>
      obtain ⟨v, hv, hrest⟩ := Option.bind_eq_some_iff.mp hn
      cases m with
      | zero =>
          cases hm
          exact nomatch hu.symm.trans hv
      | succ m =>
          rw [iterate, hv] at hm
          exact ih hrest hm

end Stuttering
