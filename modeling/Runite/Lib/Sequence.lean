import Mathlib.Data.List.Forall2

/-!
# Sequences with a gap

`Fits gap fits ps vs`: every entry of `ps` fits the entry of `vs` in its
place, where an entry that is a gap stands for as many entries of `vs` as it
takes for the rest to come out even.  Where an entry comes to stand depends on
the gaps only, so `Fits` can be changed entry by entry.
-/

namespace Sequence

variable {α α' β : Type*} {gap : α → Bool} {gap' : α' → Bool} {fits fits₁ fits₂ : α → β → Prop}
  {fits' : α' → β → Prop} {ps : List α} {vs : List β}

def Fits (gap : α → Bool) (fits : α → β → Prop) : List α → List β → Prop
  | [], vs => vs = []
  | p :: ps, vs =>
      if gap p then Fits gap fits ps (vs.drop (vs.length - ps.length))
      else ∃ w ws, vs = w :: ws ∧ fits p w ∧ Fits gap fits ps ws

theorem fits_cons_of_gap {p : α} (hp : gap p = true) :
    Fits gap fits (p :: ps) vs ↔ Fits gap fits ps (vs.drop (vs.length - ps.length)) := by
  rw [Fits, if_pos hp]

theorem fits_cons_of_not_gap {p : α} (hp : ¬ gap p = true) :
    Fits gap fits (p :: ps) vs ↔ ∃ w ws, vs = w :: ws ∧ fits p w ∧ Fits gap fits ps ws := by
  rw [Fits, if_neg hp]

theorem Fits.mono (himp : ∀ p ∈ ps, ∀ v, fits₁ p v → fits₂ p v) (h : Fits gap fits₁ ps vs) :
    Fits gap fits₂ ps vs := by
  induction ps generalizing vs with
  | nil => exact h
  | cons p ps ih =>
      have himp' : ∀ q ∈ ps, ∀ v, fits₁ q v → fits₂ q v :=
        fun q hq => himp q (List.mem_cons_of_mem p hq)
      by_cases hp : gap p = true
      · rw [fits_cons_of_gap hp] at h ⊢
        exact ih himp' h
      · rw [fits_cons_of_not_gap hp] at h ⊢
        obtain ⟨w, ws, hvs, hw, hws⟩ := h
        exact ⟨w, ws, hvs, himp p List.mem_cons_self w hw, ih himp' hws⟩

theorem Fits.and (h₁ : Fits gap fits₁ ps vs) (h₂ : Fits gap fits₂ ps vs) :
    Fits gap (fun p v => fits₁ p v ∧ fits₂ p v) ps vs := by
  induction ps generalizing vs with
  | nil => exact h₁
  | cons p ps ih =>
      by_cases hp : gap p = true
      · rw [fits_cons_of_gap hp] at h₁ h₂ ⊢
        exact ih h₁ h₂
      · rw [fits_cons_of_not_gap hp] at h₁ h₂ ⊢
        obtain ⟨w, ws, rfl, hw₁, hws₁⟩ := h₁
        obtain ⟨w', ws', heq, hw₂, hws₂⟩ := h₂
        cases heq
        exact ⟨w, ws, rfl, ⟨hw₁, hw₂⟩, ih hws₁ hws₂⟩

/-- Entries may be replaced by entries that fit the same. -/
theorem fits_congr {qs : List α'}
    (h : List.Forall₂ (fun p q => gap p = gap' q ∧ ∀ v, fits p v ↔ fits' q v) ps qs) :
    Fits gap fits ps vs ↔ Fits gap' fits' qs vs := by
  induction h generalizing vs with
  | nil => exact Iff.rfl
  | @cons p q ps qs hpq hrest ih =>
      obtain ⟨hgap, hfits⟩ := hpq
      by_cases hp : gap p = true
      · rw [fits_cons_of_gap hp, fits_cons_of_gap (hgap ▸ hp), hrest.length_eq]
        exact ih
      · rw [fits_cons_of_not_gap hp, fits_cons_of_not_gap (hgap ▸ hp)]
        simp only [hfits, ih]

/-- Entries that fit in one of several ways can be chosen once and for all. -/
theorem fits_exists_iff {choice : α → α → Prop}
    (hgap : ∀ p ∈ ps, ∀ q, choice p q → gap q = gap p)
    (hchoice : ∀ p ∈ ps, gap p = true → ∃ q, choice p q) :
    Fits gap (fun p v => ∃ q, choice p q ∧ fits q v) ps vs ↔
      ∃ qs, List.Forall₂ choice ps qs ∧ Fits gap fits qs vs := by
  induction ps generalizing vs with
  | nil =>
      constructor
      · exact fun h => ⟨[], .nil, h⟩
      · rintro ⟨qs, hqs, h⟩
        cases hqs
        exact h
  | cons p ps ih =>
      replace ih : ∀ {vs : List β}, Fits gap (fun p v => ∃ q, choice p q ∧ fits q v) ps vs ↔
          ∃ qs, List.Forall₂ choice ps qs ∧ Fits gap fits qs vs :=
        ih (fun q hq => hgap q (List.mem_cons_of_mem p hq))
          (fun q hq => hchoice q (List.mem_cons_of_mem p hq))
      by_cases hp : gap p = true
      · rw [fits_cons_of_gap hp, ih]
        constructor
        · rintro ⟨qs, hqs, h⟩
          obtain ⟨q, hq⟩ := hchoice p List.mem_cons_self hp
          refine ⟨q :: qs, .cons hq hqs, ?_⟩
          rw [fits_cons_of_gap ((hgap p List.mem_cons_self q hq).trans hp), ← hqs.length_eq]
          exact h
        · rintro ⟨_, hqs, h⟩
          cases hqs with
          | @cons _ q _ qs hq hqs =>
              rw [fits_cons_of_gap ((hgap p List.mem_cons_self q hq).trans hp),
                ← hqs.length_eq] at h
              exact ⟨qs, hqs, h⟩
      · rw [fits_cons_of_not_gap hp]
        constructor
        · rintro ⟨w, ws, rfl, ⟨q, hq, hw⟩, hws⟩
          obtain ⟨qs, hqs, h⟩ := ih.mp hws
          refine ⟨q :: qs, .cons hq hqs, ?_⟩
          rw [fits_cons_of_not_gap ((hgap p List.mem_cons_self q hq) ▸ hp)]
          exact ⟨w, ws, rfl, hw, h⟩
        · rintro ⟨_, hqs, h⟩
          cases hqs with
          | @cons _ q _ qs hq hqs =>
              rw [fits_cons_of_not_gap ((hgap p List.mem_cons_self q hq) ▸ hp)] at h
              obtain ⟨w, ws, rfl, hw, hws⟩ := h
              exact ⟨w, ws, rfl, ⟨q, hq, hw⟩, ih.mpr ⟨qs, hqs, hws⟩⟩

theorem exists_mem_congr {fit : α → Prop} {fit' : α' → Prop} {qs : List α'}
    (h : List.Forall₂ (fun p q => fit p ↔ fit' q) ps qs) :
    (∃ p ∈ ps, fit p) ↔ ∃ q ∈ qs, fit' q := by
  induction h with
  | nil => simp
  | cons hpq _ ih => simp [hpq, ih]

theorem forall_mem_congr {fit : α → Prop} {fit' : α' → Prop} {qs : List α'}
    (h : List.Forall₂ (fun p q => fit p ↔ fit' q) ps qs) :
    (∀ p ∈ ps, fit p) ↔ ∀ q ∈ qs, fit' q := by
  induction h with
  | nil => simp
  | cons hpq _ ih => simp [hpq, ih]

/-- The choice of `fits_exists_iff`, for entries that have no place. -/
theorem forall_exists_iff {choice : α → α → Prop} {fit : α → Prop} :
    (∀ p ∈ ps, ∃ q, choice p q ∧ fit q) ↔
      ∃ qs, List.Forall₂ choice ps qs ∧ ∀ q ∈ qs, fit q := by
  constructor
  · intro h
    induction ps with
    | nil => exact ⟨[], .nil, by simp⟩
    | cons p ps ih =>
        obtain ⟨q, hq, hfit⟩ := h p List.mem_cons_self
        obtain ⟨qs, hqs, hrest⟩ := ih fun q hq => h q (List.mem_cons_of_mem p hq)
        exact ⟨q :: qs, .cons hq hqs, by simpa [hfit] using hrest⟩
  · rintro ⟨qs, hqs, h⟩
    induction hqs with
    | nil => simp
    | @cons p q ps qs hq _ ih =>
        rintro p' hp'
        rcases List.mem_cons.mp hp' with rfl | hp'
        · exact ⟨q, hq, h q List.mem_cons_self⟩
        · exact ih (fun q' hq' => h q' (List.mem_cons_of_mem q hq')) p' hp'

end Sequence
