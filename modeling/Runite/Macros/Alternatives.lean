import Runite.Macros.Pattern
import Mathlib.Data.List.Sections

/-!
# The alternatives of a pattern

`alternatives` writes out the or-patterns of a pattern: each of its elements
has one case in the place of every or-pattern that is not inside an explicit
reference.  A pattern matches what one of its alternatives matches, also with
parts left out; and for a single alternative, what is left out of one match is
checked by the other.
-/

namespace Runite.Macros

mutual

/-- The pattern, with one case for each or-pattern outside of references. -/
def alternatives : Pat → List Pat
  | .ident name byRef mutability none => [.ident name byRef mutability none]
  | .ident name byRef mutability (some pat) =>
      (alternatives pat).map fun alt => .ident name byRef mutability (some alt)
  | .atom atom => [.atom atom]
  | .or cases => (alternativesAll cases).flatten.map (.wrap .paren)
  | .wrap wrapper pat => (alternatives pat).map (.wrap wrapper)
  | .reference mutability pat => [.reference mutability pat]
  | .elems shape elems => (alternativesAll elems).sections.map (.elems shape)
  | .struct path fields => (alternativesFields fields).sections.map (.struct path)
  | .foreign foreign => [.foreign foreign]

def alternativesAll : List Pat → List (List Pat)
  | [] => []
  | pat :: pats => alternatives pat :: alternativesAll pats

def alternativesFields : List FieldPat → List (List FieldPat)
  | [] => []
  | .mk member colonToken pat :: fields =>
      (alternatives pat).map (.mk member colonToken) :: alternativesFields fields

end

attribute [local simp] alternatives

variable {env : String → Option Constant} {skipReferences skipNames : Bool} {pat alt : Pat}
  {pats alts : List Pat} {fields : List FieldPat} {v : Val}

theorem alternativesAll_eq : alternativesAll pats = pats.map alternatives := by
  induction pats with
  | nil => rfl
  | cons pat pats ih => rw [alternativesAll, ih, List.map_cons]

def fieldAlternatives (field : FieldPat) : List FieldPat :=
  match field with
  | .mk member colonToken pat => (alternatives pat).map (.mk member colonToken)

theorem alternativesFields_eq : alternativesFields fields = fields.map fieldAlternatives := by
  induction fields with
  | nil => rfl
  | cons field fields ih =>
      obtain ⟨member, colonToken, pat⟩ := field
      rw [alternativesFields, ih, List.map_cons, fieldAlternatives]

theorem mem_fieldAlternatives {field field' : FieldPat} (h : field' ∈ fieldAlternatives field) :
    field'.member = field.member ∧ field'.pat ∈ alternatives field.pat := by
  obtain ⟨member, colonToken, pat⟩ := field
  obtain ⟨alt, halt, rfl⟩ := List.mem_map.mp h
  exact ⟨rfl, halt⟩

theorem mem_sections_map {α : Type} {f : α → List α} {xs ys : List α} :
    ys ∈ (xs.map f).sections ↔ List.Forall₂ (fun x y => y ∈ f x) xs ys := by
  rw [List.mem_sections, List.forall₂_map_right_iff]
  exact ⟨fun h => h.flip, fun h => h.flip⟩

theorem mem_alternatives_elems {shape : Shape} :
    alt ∈ alternatives (.elems shape pats) ↔
      ∃ alts, List.Forall₂ (fun pat alt => alt ∈ alternatives pat) pats alts ∧
        alt = .elems shape alts := by
  simp only [alternatives, alternativesAll_eq, List.mem_map, mem_sections_map, eq_comm]

theorem mem_alternatives_struct {path : String} :
    alt ∈ alternatives (.struct path fields) ↔
      ∃ fields', List.Forall₂ (fun field field' => field' ∈ fieldAlternatives field) fields
        fields' ∧ alt = .struct path fields' := by
  simp only [alternatives, alternativesFields_eq, List.mem_map, mem_sections_map, eq_comm]

theorem mem_alternatives_or :
    alt ∈ alternatives (.or pats) ↔
      ∃ pat ∈ pats, ∃ inner ∈ alternatives pat, alt = .wrap .paren inner := by
  simp only [alternatives, alternativesAll_eq, List.mem_map, List.mem_flatten]
  constructor
  · rintro ⟨inner, ⟨_, ⟨pat, hpat, rfl⟩, hinner⟩, rfl⟩
    exact ⟨pat, hpat, inner, hinner, rfl⟩
  · rintro ⟨pat, hpat, inner, hinner, rfl⟩
    exact ⟨inner, ⟨_, ⟨pat, hpat, rfl⟩, hinner⟩, rfl⟩

/-- An alternative is a rest pattern if the pattern is. -/
theorem isRest_of_alternative (h : alt ∈ alternatives pat) : alt.isRest = pat.isRest := by
  induction pat using Pat.induction generalizing alt with
  | ident name byRef mutability =>
      obtain rfl : alt = _ := by simpa using h
      rfl
  | binding name byRef mutability pat ih =>
      rw [alternatives] at h
      obtain ⟨inner, hinner, rfl⟩ := List.mem_map.mp h
      rw [Pat.isRest, Pat.isRest, ih hinner]
  | atom atom =>
      obtain rfl : alt = _ := by simpa using h
      rfl
  | or cases _ =>
      obtain ⟨_, _, inner, _, rfl⟩ := mem_alternatives_or.mp h
      rfl
  | wrap wrapper pat _ =>
      rw [alternatives] at h
      obtain ⟨inner, _, rfl⟩ := List.mem_map.mp h
      rfl
  | reference mutability pat _ =>
      obtain rfl : alt = _ := by simpa using h
      rfl
  | elems shape elems _ =>
      obtain ⟨alts, _, rfl⟩ := mem_alternatives_elems.mp h
      rfl
  | struct path fields _ =>
      obtain ⟨fields', _, rfl⟩ := mem_alternatives_struct.mp h
      rfl
  | foreign f =>
      obtain rfl : alt = _ := by simpa using h
      rfl

theorem exists_alternative_of_isRest (h : pat.isRest = true) : ∃ alt, alt ∈ alternatives pat := by
  induction pat using Pat.induction with
  | binding name byRef mutability pat ih =>
      obtain ⟨alt, halt⟩ := ih h
      exact ⟨_, by rw [alternatives]; exact List.mem_map_of_mem halt⟩
  | atom atom => exact ⟨.atom atom, by simp⟩
  | _ => cases h

/-- A pattern matches what one of its alternatives matches. -/
theorem matchesWith_iff_alternative :
    matchesWith env skipReferences skipNames pat v = true ↔
      ∃ alt ∈ alternatives pat, matchesWith env skipReferences skipNames alt v = true := by
  induction pat using Pat.induction generalizing v with
  | ident name byRef mutability => simp
  | binding name byRef mutability pat ih => simp [matchesWith, ih]
  | atom atom => simp
  | or cases ih =>
      simp only [mem_alternatives_or, matchesWith, matchesAny_iff]
      constructor
      · rintro ⟨pat, hpat, hmatch⟩
        obtain ⟨alt, halt, hmatch⟩ := (ih pat hpat).mp hmatch
        exact ⟨_, ⟨pat, hpat, alt, halt, rfl⟩, by rwa [matchesWith]⟩
      · rintro ⟨_, ⟨pat, hpat, alt, halt, rfl⟩, hmatch⟩
        rw [matchesWith] at hmatch
        exact ⟨pat, hpat, (ih pat hpat).mpr ⟨alt, halt, hmatch⟩⟩
  | wrap wrapper pat ih => simp [matchesWith, ih]
  | reference mutability pat _ => simp
  | elems shape elems ih =>
      have hchoose : ∀ vs, Sequence.Fits Pat.isRest
          (fun pat v => matchesWith env skipReferences skipNames pat v = true) elems vs ↔
          ∃ alts, List.Forall₂ (fun pat alt => alt ∈ alternatives pat) elems alts ∧
            Sequence.Fits Pat.isRest
              (fun pat v => matchesWith env skipReferences skipNames pat v = true) alts vs := by
        intro vs
        rw [← Sequence.fits_exists_iff (fun pat _ alt halt => isRest_of_alternative halt)
          (fun pat _ hrest => exists_alternative_of_isRest hrest)]
        constructor
        · exact Sequence.Fits.mono fun pat hpat v => (ih pat hpat).mp
        · exact Sequence.Fits.mono fun pat hpat v => (ih pat hpat).mpr
      rw [matchesElems_iff]
      constructor
      · rintro ⟨vs, hparts, hfits⟩
        obtain ⟨alts, halts, hfits⟩ := (hchoose vs).mp hfits
        exact ⟨_, mem_alternatives_elems.mpr ⟨alts, halts, rfl⟩,
          matchesElems_iff.mpr ⟨vs, hparts, hfits⟩⟩
      · rintro ⟨_, hmem, hmatch⟩
        obtain ⟨alts, halts, rfl⟩ := mem_alternatives_elems.mp hmem
        obtain ⟨vs, hparts, hfits⟩ := matchesElems_iff.mp hmatch
        exact ⟨vs, hparts, (hchoose vs).mpr ⟨alts, halts, hfits⟩⟩
  | struct path fields ih =>
      have hchoose : (∀ field ∈ fields, fieldMatches env skipReferences skipNames path v field) ↔
          ∃ fields', List.Forall₂ (fun field field' => field' ∈ fieldAlternatives field) fields
            fields' ∧ ∀ field ∈ fields', fieldMatches env skipReferences skipNames path v field := by
        rw [← Sequence.forall_exists_iff]
        refine forall₂_congr fun field hfield => ?_
        constructor
        · rintro ⟨w, hw, hmatch⟩
          obtain ⟨alt, halt, halternative⟩ := (ih field hfield).mp hmatch
          obtain ⟨member, colonToken, pat⟩ := field
          exact ⟨.mk member colonToken alt, List.mem_map_of_mem halt, w, hw, halternative⟩
        · rintro ⟨field', hmem, w, hw, hmatch⟩
          obtain ⟨hmember, halt⟩ := mem_fieldAlternatives hmem
          exact ⟨w, hmember ▸ hw, (ih field hfield).mpr ⟨_, halt, hmatch⟩⟩
      rw [matchesStruct_iff, hchoose]
      constructor
      · rintro ⟨hrecord, fields', hfields', hmatch⟩
        exact ⟨_, mem_alternatives_struct.mpr ⟨fields', hfields', rfl⟩,
          matchesStruct_iff.mpr ⟨hrecord, hmatch⟩⟩
      · rintro ⟨_, hmem, hmatch⟩
        obtain ⟨fields', hfields', rfl⟩ := mem_alternatives_struct.mp hmem
        obtain ⟨hrecord, hmatch⟩ := matchesStruct_iff.mp hmatch
        exact ⟨hrecord, fields', hfields', hmatch⟩
  | foreign f => simp

theorem matchesWith_of_accepts (h : accepts env pat v = true) :
    matchesWith env skipReferences skipNames pat v = true := by
  rw [accepts] at h
  induction pat using Pat.induction generalizing v with
  | ident name byRef mutability =>
      simp only [matchesWith, Bool.or_eq_true] at h ⊢
      rcases h with ((hbyRef | hmutability) | hskip) | haccepts
      · exact Or.inl (Or.inl (Or.inl hbyRef))
      · exact Or.inl (Or.inl (Or.inr hmutability))
      · cases hskip
      · exact Or.inr haccepts
  | binding name byRef mutability pat ih =>
      rw [matchesWith] at h ⊢
      exact ih h
  | atom atom => exact h
  | or cases ih =>
      rw [matchesWith, matchesAny_iff] at h ⊢
      obtain ⟨pat, hpat, h⟩ := h
      exact ⟨pat, hpat, ih pat hpat h⟩
  | wrap wrapper pat ih =>
      rw [matchesWith] at h ⊢
      exact ih h
  | reference mutability pat _ =>
      simp only [matchesWith, Bool.or_eq_true, Bool.false_or] at h ⊢
      exact Or.inr h
  | elems shape elems ih =>
      rw [matchesElems_iff] at h ⊢
      obtain ⟨vs, hparts, hfits⟩ := h
      exact ⟨vs, hparts, hfits.mono fun pat hpat v => ih pat hpat⟩
  | struct path fields ih =>
      rw [matchesStruct_iff] at h ⊢
      refine ⟨h.1, fun field hfield => ?_⟩
      obtain ⟨w, hw, hmatch⟩ := h.2 field hfield
      exact ⟨w, hw, ih field hfield hmatch⟩
  | foreign f => exact h

theorem forall_mem_of_forall₂ {α β : Type} {r : α → β → Prop} {p : β → Prop} {xs : List α}
    {ys : List β} (h : List.Forall₂ r xs ys) (hp : ∀ x ∈ xs, ∀ y, r x y → p y) :
    ∀ y ∈ ys, p y := by
  induction h with
  | nil => simp
  | @cons x y xs ys hxy _ ih =>
      rw [List.forall_mem_cons] at hp ⊢
      exact ⟨hp.1 y hxy, ih hp.2⟩

/-- A single alternative accepts what it matches without its references and also
without its names. -/
theorem accepts_of_alternative (halt : alt ∈ alternatives pat)
    (hreferences : matchesWith env true false alt v = true)
    (hnames : matchesWith env false true alt v = true) : accepts env alt v = true := by
  rw [accepts]
  induction pat using Pat.induction generalizing alt v with
  | ident name byRef mutability =>
      obtain rfl : alt = _ := by simpa using halt
      exact hreferences
  | binding name byRef mutability pat ih =>
      rw [alternatives] at halt
      obtain ⟨inner, hinner, rfl⟩ := List.mem_map.mp halt
      rw [matchesWith] at hreferences hnames ⊢
      exact ih hinner hreferences hnames
  | atom atom =>
      obtain rfl : alt = _ := by simpa using halt
      exact hreferences
  | or cases ih =>
      obtain ⟨pat, hpat, inner, hinner, rfl⟩ := mem_alternatives_or.mp halt
      rw [matchesWith] at hreferences hnames ⊢
      exact ih pat hpat hinner hreferences hnames
  | wrap wrapper pat ih =>
      rw [alternatives] at halt
      obtain ⟨inner, hinner, rfl⟩ := List.mem_map.mp halt
      rw [matchesWith] at hreferences hnames ⊢
      exact ih hinner hreferences hnames
  | reference mutability pat _ =>
      obtain rfl : alt = _ := by simpa using halt
      exact hnames
  | elems shape elems ih =>
      obtain ⟨alts, halts, rfl⟩ := mem_alternatives_elems.mp halt
      rw [matchesElems_iff] at hreferences hnames ⊢
      obtain ⟨vs, hparts, hreferences⟩ := hreferences
      obtain ⟨vs', hparts', hnames⟩ := hnames
      obtain rfl : vs = vs' := by simpa [hparts] using hparts'
      have halts' : ∀ alt ∈ alts, ∀ v, matchesWith env true false alt v = true →
          matchesWith env false true alt v = true → matchesWith env false false alt v = true :=
        forall_mem_of_forall₂ halts fun pat hpat alt halt v => ih pat hpat halt
      refine ⟨vs, hparts, (hreferences.and hnames).mono fun alt hmem v hboth => ?_⟩
      exact halts' alt hmem v hboth.1 hboth.2
  | struct path fields ih =>
      obtain ⟨fields', hfields', rfl⟩ := mem_alternatives_struct.mp halt
      rw [matchesStruct_iff] at hreferences hnames ⊢
      have halts' : ∀ field' ∈ fields', ∀ v, matchesWith env true false field'.pat v = true →
          matchesWith env false true field'.pat v = true →
          matchesWith env false false field'.pat v = true :=
        forall_mem_of_forall₂ hfields' fun field hfield field' hmem v =>
          ih field hfield (mem_fieldAlternatives hmem).2
      refine ⟨hreferences.1, fun field' hmem => ?_⟩
      obtain ⟨w, hw, hreferences⟩ := hreferences.2 field' hmem
      obtain ⟨w', hw', hnames⟩ := hnames.2 field' hmem
      obtain rfl : w = w' := by simpa [hw] using hw'
      exact ⟨w, hw, halts' field' hmem w hreferences hnames⟩
  | foreign f =>
      obtain rfl : alt = _ := by simpa using halt
      exact hreferences

end Runite.Macros
