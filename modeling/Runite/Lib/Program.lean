import Mathlib.Tactic.Common

/-!
# Programs with loops

A `Program` runs from a state to a state and returns a value, unless it is cut
short: a loop has fuel, and a program that runs out of it stops where it is.  What
holds of every run, however far it gets, is a `Triple` whose postcondition also
speaks of the runs that were cut short.
-/

universe u

/-- Where a program leaves the state, and what it returns; `none` when it was cut
short. -/
def Program (σ α : Type u) : Type u :=
  σ → σ × Option α

namespace Program

variable {σ α β : Type u}

instance : Monad (Program σ) where
  pure a := fun s => (s, some a)
  bind m f := fun s =>
    match m s with
    | (s, none) => (s, none)
    | (s, some a) => f a s

def inspect : Program σ σ := fun s => (s, some s)

def update (f : σ → σ) : Program σ PUnit := fun s => (f s, some ⟨⟩)

/-- Run `body` again and again until it returns a value. -/
def loop (body : Program σ (Option α)) : Nat → Program σ α
  | 0 => fun s => (s, none)
  | fuel + 1 => do
      match ← body with
      | some a => pure a
      | none => loop body fuel

/-! ## Triples -/

/-- From a state with `P`, the program comes to a state with `Q` for what it returns. -/
def Triple (P : σ → Prop) (m : Program σ α) (Q : Option α → σ → Prop) : Prop :=
  ∀ s, P s → Q (m s).2 (m s).1

variable {P P' I : σ → Prop} {Q Q' : Option α → σ → Prop} {R : Option β → σ → Prop}
  {m : Program σ α} {f : α → Program σ β}

theorem Triple.consequence (h : Triple P m Q) (hP : ∀ s, P' s → P s)
    (hQ : ∀ a s, Q a s → Q' a s) : Triple P' m Q' :=
  fun s hs => hQ _ _ (h s (hP s hs))

theorem Triple.bind (hm : Triple P m Q) (hf : ∀ a, Triple (Q (some a)) (f a) R)
    (hcut : ∀ s, Q none s → R none s) : Triple P (m >>= f) R := by
  intro s hs
  have h := hm s hs
  rcases hrun : m s with ⟨s', _ | a⟩
  · rw [hrun] at h
    simpa [Bind.bind, hrun] using hcut s' h
  · rw [hrun] at h
    simpa [Bind.bind, hrun] using hf a s' h

theorem Triple.inspected {f : σ → Program σ β} (h : ∀ s, P s → Triple (· = s) (f s) R) :
    Triple P (inspect >>= f) R :=
  fun s hs => h s hs s rfl

theorem Triple.updated {f : σ → σ} {m : Program σ β} (h : Triple P m R)
    (hf : ∀ s, P' s → P (f s)) : Triple P' (update f >>= fun _ => m) R :=
  fun s hs => h (f s) (hf s hs)

/-! ## Invariants -/

/-- The program keeps `I`, however far it runs. -/
def Preserves (I : σ → Prop) (m : Program σ α) : Prop :=
  Triple I m fun _ => I

theorem Preserves.return (a : α) : Preserves I (pure a) :=
  fun _ hs => hs

theorem Preserves.bind (hm : Preserves I m) (hf : ∀ a, Preserves I (f a)) :
    Preserves I (m >>= f) :=
  Triple.bind hm hf fun _ hs => hs

theorem Preserves.inspected {f : σ → Program σ β} (h : ∀ s, Preserves I (f s)) :
    Preserves I (inspect >>= f) :=
  fun s hs => h s s hs

theorem Preserves.update {f : σ → σ} (h : ∀ s, I s → I (f s)) : Preserves I (Program.update f) :=
  h

theorem Preserves.loop {body : Program σ (Option α)} (h : Preserves I body) (fuel : Nat) :
    Preserves I (loop body fuel) := by
  induction fuel with
  | zero => exact fun _ hs => hs
  | succ fuel ih =>
      apply Preserves.bind h
      intro result
      cases result with
      | none => exact ih
      | some a => exact .return a

theorem Triple.loop {body : Program σ (Option α)} (h : Preserves I body)
    (hend : Triple I body fun result s => ∀ a, result = some (some a) → Q (some a) s)
    (hcut : ∀ s, I s → Q none s) (fuel : Nat) : Triple I (Program.loop body fuel) Q := by
  induction fuel with
  | zero => exact fun s hs => hcut s hs
  | succ fuel ih =>
      have hbody : Triple I body fun result s =>
          I s ∧ ∀ a, result = some (some a) → Q (some a) s :=
        fun s hs => ⟨h s hs, hend s hs⟩
      refine Triple.bind hbody ?_ fun s hs => hcut s hs.1
      intro result
      cases result with
      | none => exact fun s hs => ih s hs.1
      | some a => exact fun s hs => hs.2 a rfl

end Program
