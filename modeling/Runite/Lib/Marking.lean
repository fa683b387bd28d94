import Mathlib.Tactic.Common

/-!
# Marking what a worklist reaches

`Reached next opened start` is what a worklist that begins with `start` marks,
when it marks every open element it takes out and goes on with the elements
that are next to it.  The two rules say what is left to mark after one round.
-/

namespace Marking

variable {α : Type*} {next next' : α → α → Prop} {opened opened' start rest : α → Prop} {a b x : α}

/-- The open elements that can be reached from `start` through open elements. -/
inductive Reached (next : α → α → Prop) (opened start : α → Prop) : α → Prop
  | start {a : α} : start a → opened a → Reached next opened start a
  | next {a b : α} : Reached next opened start a → next a b → opened b →
      Reached next opened start b

theorem Reached.isOpen (h : Reached next opened start a) : opened a := by
  cases h <;> assumption

theorem not_reached_of_empty (hstart : ∀ a, ¬ start a) : ¬ Reached next opened start b := by
  intro h
  induction h with
  | start ha => exact hstart _ ha
  | next _ _ _ ih => exact ih

/-- Taking out an element that is not open changes nothing. -/
theorem reached_skip (hx : ¬ opened x) :
    Reached next opened (fun a => a = x ∨ rest a) a ↔ Reached next opened rest a := by
  constructor
  · intro h
    induction h with
    | start hstart hopened =>
        rcases hstart with rfl | hrest
        · exact absurd hopened hx
        · exact .start hrest hopened
    | next _ hnext hopened ih => exact .next ih hnext hopened
  · intro h
    induction h with
    | start hrest hopened => exact .start (Or.inr hrest) hopened
    | next _ hnext hopened ih => exact .next ih hnext hopened

/-- Taking out an open element marks it, and puts what is next to it on the
list.  It is not open any more, so what is next to it no longer matters. -/
theorem reached_mark (hx : opened x) (hopened : ∀ a, opened' a ↔ opened a ∧ a ≠ x)
    (hnext : ∀ a b, a ≠ x → (next' a b ↔ next a b)) :
    Reached next opened (fun a => a = x ∨ rest a) b ↔
      b = x ∨ Reached next' opened' (fun a => next x a ∨ rest a) b := by
  constructor
  · intro h
    induction h with
    | @start b hstart hb =>
        by_cases heq : b = x
        · exact Or.inl heq
        · exact Or.inr (.start (Or.inr (hstart.resolve_left heq)) ((hopened b).mpr ⟨hb, heq⟩))
    | @next a b _ hab hb ih =>
        by_cases heq : b = x
        · exact Or.inl heq
        · have hb' := (hopened b).mpr ⟨hb, heq⟩
          rcases ih with rfl | ha
          · exact Or.inr (.start (Or.inl hab) hb')
          · have hne : a ≠ x := ((hopened a).mp ha.isOpen).2
            exact Or.inr (.next ha ((hnext a b hne).mpr hab) hb')
  · rintro (rfl | h)
    · exact .start (Or.inl rfl) hx
    · induction h with
      | @start b hstart hb =>
          have hb' := ((hopened b).mp hb).1
          rcases hstart with hxb | hrest
          · exact .next (.start (Or.inl rfl) hx) hxb hb'
          · exact .start (Or.inr hrest) hb'
      | @next a b ha hab hb ih =>
          have hne : a ≠ x := ((hopened a).mp ha.isOpen).2
          exact .next ih ((hnext a b hne).mp hab) ((hopened b).mp hb).1

end Marking
