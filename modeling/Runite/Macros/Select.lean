import Runite.Macros.Alternatives

/-!
# The pattern checks of `select!`

`select!` decides on a branch before it moves the output into the handler, by
two matches that bind nothing: the resolution shape of the pattern, where
explicit references are blanked, and its structural shape, where bare names
outside of references are.  The handler then matches the pattern itself.

A value can pass the two checks with different alternatives of an or-pattern.
`Mixed` is what goes wrong then, and nothing else does.
-/

namespace Runite.Macros

/-! ## `prepare_pattern` -/

inductive PatternPurpose
  | resolution
  | structural
  deriving DecidableEq

/-- The error for patterns that `select!` does not look into. -/
def foreignError : String := "pattern macros are not supported in runite::select!"

mutual

def preparePatternInner (purpose : PatternPurpose) (withinReference : Bool) :
    Pat → Except String Pat
  | .ident _ _ _ (some subpat) => preparePatternInner purpose withinReference subpat
  | .ident name byRef mutability none =>
      if !byRef && !mutability && (purpose = .resolution || withinReference) then
        .ok (.ident name byRef mutability none)
      else .ok (.atom .wild)
  | .reference mutability pat =>
      if purpose = .resolution then .ok (.atom .wild)
      else (preparePatternInner purpose true pat).map (.reference mutability)
  | .foreign _ => .error foreignError
  | .or cases => (prepareAll purpose withinReference cases).map .or
  | .wrap wrapper pat => (preparePatternInner purpose withinReference pat).map (.wrap wrapper)
  | .elems shape elems => (prepareAll purpose withinReference elems).map (.elems shape)
  | .struct path fields => (prepareFields purpose withinReference fields).map (.struct path)
  | .atom atom => .ok (.atom atom)

/-- The loop over the parts of a pattern. -/
def prepareAll (purpose : PatternPurpose) (withinReference : Bool) :
    List Pat → Except String (List Pat)
  | [] => .ok []
  | pat :: pats => do
      let pat ← preparePatternInner purpose withinReference pat
      let pats ← prepareAll purpose withinReference pats
      pure (pat :: pats)

/-- The loop over the fields of a pattern.  A shorthand is written out. -/
def prepareFields (purpose : PatternPurpose) (withinReference : Bool) :
    List FieldPat → Except String (List FieldPat)
  | [] => .ok []
  | .mk member _ pat :: fields => do
      let pat ← preparePatternInner purpose withinReference pat
      let fields ← prepareFields purpose withinReference fields
      pure (.mk member true pat :: fields)

end

def preparePattern (purpose : PatternPurpose) (pat : Pat) : Except String Pat :=
  preparePatternInner purpose false pat

/-! ## The generated code -/

/-- What the code of `poll_select_branch` does with an output. -/
inductive Selected
  | winner (output : Val)
  | disabled

/-- What the code of `handlers` does with a winner. -/
inductive Handled
  | handler
  /-- "select! winner no longer matched its checked branch pattern" -/
  | unreachable
  deriving DecidableEq

section Code

variable (env : String → Option Constant)

/-- `poll_select_branch`, for a future that is ready. -/
def pollSelectBranch (resolution structural : Pat) (output : Val) : Selected :=
  let resolved := accepts env resolution output
  let matched := resolved && accepts env structural output
  if matched then .winner output else .disabled

/-- The arm of a winner in `handlers`. -/
def handle (pat : Pat) (output : Val) : Handled :=
  if accepts env pat output then .handler else .unreachable

end Code

/-! ## What the shapes check -/

variable {env : String → Option Constant} {purpose : PatternPurpose} {withinReference : Bool}
  {pat shape alt : Pat} {v : Val} {skipReferences skipNames : Bool}

theorem bind_eq_ok {α β : Type} {x : Except String α} {f : α → Except String β} {b : β}
    (h : (x >>= f) = .ok b) : ∃ a, x = .ok a ∧ f a = .ok b := by
  cases x with
  | error e => cases h
  | ok a => exact ⟨a, rfl, h⟩

theorem map_eq_ok {α β : Type} {x : Except String α} {f : α → β} {b : β}
    (h : x.map f = .ok b) : ∃ a, x = .ok a ∧ f a = b := by
  cases x with
  | error e => cases h
  | ok a => exact ⟨a, rfl, by simpa [Except.map] using h⟩

theorem forall₂_of_prepareAll {pats shapes : List Pat}
    (h : prepareAll purpose withinReference pats = .ok shapes) :
    List.Forall₂ (fun pat shape => preparePatternInner purpose withinReference pat = .ok shape)
      pats shapes := by
  induction pats generalizing shapes with
  | nil =>
      cases h
      exact .nil
  | cons pat pats ih =>
      obtain ⟨shape, hshape, h⟩ := bind_eq_ok h
      obtain ⟨rest, hrest, h⟩ := bind_eq_ok h
      cases h
      exact .cons hshape (ih hrest)

theorem forall₂_of_prepareFields {fields shapes : List FieldPat}
    (h : prepareFields purpose withinReference fields = .ok shapes) :
    List.Forall₂ (fun field shape => shape.member = field.member ∧
      preparePatternInner purpose withinReference field.pat = .ok shape.pat) fields shapes := by
  induction fields generalizing shapes with
  | nil =>
      cases h
      exact .nil
  | cons field fields ih =>
      obtain ⟨member, colonToken, pat⟩ := field
      obtain ⟨shape, hshape, h⟩ := bind_eq_ok h
      obtain ⟨rest, hrest, h⟩ := bind_eq_ok h
      cases h
      exact .cons ⟨rfl, hshape⟩ (ih hrest)

/-- A shape accepts what the pattern accepts with the blanked parts left out. -/
def Blanks (env : String → Option Constant) (purpose : PatternPurpose) (withinReference : Bool)
    (pat shape : Pat) : Prop :=
  pat.isRest = shape.isRest ∧ ∀ v, accepts env shape v =
    matchesWith env (purpose = .resolution) (purpose = .structural && !withinReference) pat v

theorem blanks_of_prepare (hwithin : purpose = .resolution → withinReference = false)
    (hshape : preparePatternInner purpose withinReference pat = .ok shape) :
    Blanks env purpose withinReference pat shape := by
  induction pat using Pat.induction generalizing withinReference shape with
  | ident name byRef mutability =>
      rw [preparePatternInner] at hshape
      split at hshape
      next hbare =>
        cases hshape
        refine ⟨rfl, fun v => ?_⟩
        cases purpose <;> simp_all [accepts, matchesWith]
      next hbare =>
        cases hshape
        refine ⟨rfl, fun v => ?_⟩
        cases byRef <;> cases mutability <;> cases purpose <;>
          simp_all [accepts, matchesWith, Atom.accepts]
  | binding name byRef mutability pat ih =>
      rw [preparePatternInner] at hshape
      obtain ⟨hrest, haccepts⟩ := ih hwithin hshape
      exact ⟨by rw [Pat.isRest, hrest], fun v => by rw [haccepts, matchesWith]⟩
  | atom atom =>
      cases hshape
      exact ⟨rfl, fun v => by simp [accepts, matchesWith]⟩
  | or cases ih =>
      obtain ⟨shapes, hshapes, rfl⟩ := map_eq_ok hshape
      refine ⟨rfl, fun v => Bool.eq_iff_iff.mpr ?_⟩
      simp only [accepts, matchesWith, matchesAny_iff]
      refine (Sequence.exists_mem_congr ?_).symm
      refine ((List.forall₂_and_left _ _).mpr ⟨ih, forall₂_of_prepareAll hshapes⟩).imp ?_
      rintro pat shape ⟨ih, hshape⟩
      rw [← (ih hwithin hshape).2 v]
      rfl
  | wrap wrapper pat ih =>
      obtain ⟨shape, hinner, rfl⟩ := map_eq_ok hshape
      obtain ⟨-, haccepts⟩ := ih hwithin hinner
      refine ⟨rfl, fun v => ?_⟩
      simpa [accepts, matchesWith] using haccepts v
  | reference mutability pat ih =>
      rw [preparePatternInner] at hshape
      split at hshape
      next hpurpose =>
        cases hshape
        exact ⟨rfl, fun v => by simp [accepts, matchesWith, Atom.accepts, hpurpose]⟩
      next hpurpose =>
        obtain ⟨shape, hinner, rfl⟩ := map_eq_ok hshape
        obtain ⟨-, haccepts⟩ := ih (fun h => absurd h hpurpose) hinner
        refine ⟨rfl, fun v => ?_⟩
        simp only [accepts, matchesWith, hpurpose, decide_false, Bool.false_or]
        cases v with
        | ref w => simpa [accepts, hpurpose] using haccepts w
        | _ => rfl
  | elems kind elems ih =>
      obtain ⟨shapes, hshapes, rfl⟩ := map_eq_ok hshape
      refine ⟨rfl, fun v => Bool.eq_iff_iff.mpr ?_⟩
      rw [accepts, matchesElems_iff, matchesElems_iff]
      refine exists_congr fun vs => and_congr_right fun _ => (Sequence.fits_congr ?_).symm
      refine ((List.forall₂_and_left _ _).mpr ⟨ih, forall₂_of_prepareAll hshapes⟩).imp ?_
      rintro pat shape ⟨ih, hshape⟩
      obtain ⟨hrest, haccepts⟩ := ih hwithin hshape
      exact ⟨hrest, fun v => by rw [← haccepts v, accepts]⟩
  | struct path fields ih =>
      obtain ⟨shapes, hshapes, rfl⟩ := map_eq_ok hshape
      refine ⟨rfl, fun v => Bool.eq_iff_iff.mpr ?_⟩
      rw [accepts, matchesStruct_iff, matchesStruct_iff]
      refine and_congr_right fun _ => (Sequence.forall_mem_congr ?_).symm
      refine ((List.forall₂_and_left _ _).mpr ⟨ih, forall₂_of_prepareFields hshapes⟩).imp ?_
      rintro field shape ⟨ih, hmember, hshape⟩
      unfold fieldMatches
      rw [hmember]
      refine exists_congr fun w => and_congr_right fun _ => ?_
      rw [← (ih hwithin hshape).2 w, accepts]
  | foreign f => cases hshape

/-! ## The branch that is taken -/

/-- The two checks of a branch are the match of its pattern: the branch is taken
for the outputs that match, and the handler always gets one that does. -/
structure Faithful (env : String → Option Constant) (pat resolution structural : Pat)
    (output : Val) : Prop where
  checked : (accepts env resolution output = true ∧ accepts env structural output = true) ↔
    accepts env pat output = true
  taken : pollSelectBranch env resolution structural output = .winner output ↔
    accepts env pat output = true
  handled : pollSelectBranch env resolution structural output = .winner output →
    handle env pat output = .handler

/-- The value is made up of two alternatives of the pattern: it matches one of
them up to the explicit references, another one up to the bare names, and none
of them throughout. -/
def Mixed (env : String → Option Constant) (pat : Pat) (v : Val) : Prop :=
  (∃ alt ∈ alternatives pat, matchesWith env true false alt v = true) ∧
    (∃ alt ∈ alternatives pat, matchesWith env false true alt v = true) ∧
    ∀ alt ∈ alternatives pat, accepts env alt v = false

/-- A pattern with a single alternative, such as one without or-patterns, has no
mixed values. -/
theorem not_mixed_of_alternatives_eq (h : alternatives pat = [alt]) : ¬ Mixed env pat v := by
  rintro ⟨⟨alt₁, hmem₁, hreferences⟩, ⟨alt₂, hmem₂, hnames⟩, hnone⟩
  rw [h, List.mem_singleton] at hmem₁ hmem₂
  subst hmem₁ hmem₂
  have hmem : alt₂ ∈ alternatives pat := by simp [h]
  have haccepts := accepts_of_alternative hmem hreferences hnames
  simp [hnone alt₂ hmem] at haccepts

theorem taken_iff {resolution structural : Pat} : pollSelectBranch env resolution structural v =
    .winner v ↔ accepts env resolution v = true ∧ accepts env structural v = true := by
  unfold pollSelectBranch
  dsimp only
  rw [← Bool.and_eq_true]
  split <;> simp_all

theorem checked_iff_not_mixed {resolution structural : Pat}
    (hresolution : preparePattern .resolution pat = .ok resolution)
    (hstructural : preparePattern .structural pat = .ok structural) :
    (accepts env resolution v = true ∧ accepts env structural v = true ↔
      accepts env pat v = true) ↔ ¬ Mixed env pat v := by
  have hshape₁ : accepts env resolution v = matchesWith env true false pat v :=
    (blanks_of_prepare (fun _ => rfl) hresolution).2 v
  have hshape₂ : accepts env structural v = matchesWith env false true pat v :=
    (blanks_of_prepare (fun h => by cases h) hstructural).2 v
  have hpat : accepts env pat v = true ↔ ∃ alt ∈ alternatives pat, accepts env alt v = true :=
    matchesWith_iff_alternative
  rw [hshape₁, hshape₂, matchesWith_iff_alternative, matchesWith_iff_alternative, hpat]
  constructor
  · rintro hiff ⟨hreferences, hnames, hnone⟩
    obtain ⟨alt, halt, haccepts⟩ := hiff.mp ⟨hreferences, hnames⟩
    simp [hnone alt halt] at haccepts
  · intro hmixed
    constructor
    · rintro ⟨hreferences, hnames⟩
      by_contra hnone
      refine hmixed ⟨hreferences, hnames, fun alt halt => ?_⟩
      by_contra haccepts
      exact hnone ⟨alt, halt, by simpa using haccepts⟩
    · rintro ⟨alt, halt, haccepts⟩
      exact ⟨⟨alt, halt, matchesWith_of_accepts haccepts⟩,
        ⟨alt, halt, matchesWith_of_accepts haccepts⟩⟩

/-- For every pattern that is accepted and every output, the branch does what
its pattern says exactly when the output is not mixed. -/
theorem select_branch_faithful_iff {resolution structural : Pat}
    (hresolution : preparePattern .resolution pat = .ok resolution)
    (hstructural : preparePattern .structural pat = .ok structural) :
    Faithful env pat resolution structural v ↔ ¬ Mixed env pat v := by
  rw [← checked_iff_not_mixed hresolution hstructural]
  constructor
  · exact fun hfaithful => hfaithful.checked
  · intro hiff
    refine ⟨hiff, taken_iff.trans hiff, fun hwinner => ?_⟩
    simp [handle, hiff.mp (taken_iff.mp hwinner)]

theorem taken_of_accepts {resolution structural : Pat}
    (hresolution : preparePattern .resolution pat = .ok resolution)
    (hstructural : preparePattern .structural pat = .ok structural)
    (haccepts : accepts env pat v = true) :
    pollSelectBranch env resolution structural v = .winner v := by
  refine taken_iff.mpr ⟨?_, ?_⟩
  · rw [(blanks_of_prepare (fun _ => rfl) hresolution).2 v]
    exact matchesWith_of_accepts haccepts
  · rw [(blanks_of_prepare (fun h => by cases h) hstructural).2 v]
    exact matchesWith_of_accepts haccepts

/-- Two unit variants `A` and `B`. -/
def twoUnits (name : String) : Option Constant :=
  if name = "A" ∨ name = "B" then some (.unit name) else none

/-- `(A, &1) | (B, &2)`. -/
def crossed : Pat :=
  .or [.elems .tuple [.ident "A" false false none, .reference false (.atom (.lit (.int 1)))],
    .elems .tuple [.ident "B" false false none, .reference false (.atom (.lit (.int 2)))]]

/-- `(name, &n)`. -/
def pair (name : String) (n : Int) : Val :=
  .elems .tuple [.elems (.tupleStruct name) [], .ref (.scalar (.int n))]

/-- The output `(A, &2)` passes both checks of `(A, &1) | (B, &2)`, and the
handler panics. -/
theorem crossed_reaches_unreachable : ∃ resolution structural,
    preparePattern .resolution crossed = .ok resolution ∧
      preparePattern .structural crossed = .ok structural ∧
      pollSelectBranch twoUnits resolution structural (pair "A" 2) = .winner (pair "A" 2) ∧
      handle twoUnits crossed (pair "A" 2) = .unreachable ∧
      ¬ Faithful twoUnits crossed resolution structural (pair "A" 2) := by
  refine ⟨_, _, rfl, rfl, taken_iff.mpr (by decide), by decide, ?_⟩
  intro hfaithful
  have haccepts := hfaithful.checked.mp (by decide)
  revert haccepts
  decide

theorem select_branch_faithful_crossed : ∃ resolution structural,
    preparePattern .resolution crossed = .ok resolution ∧
      preparePattern .structural crossed = .ok structural ∧
      pollSelectBranch twoUnits resolution structural (pair "A" 1) = .winner (pair "A" 1) ∧
      Faithful twoUnits crossed resolution structural (pair "A" 1) := by
  refine ⟨_, _, rfl, rfl, taken_iff.mpr (by decide),
    (select_branch_faithful_iff rfl rfl).mpr ?_⟩
  rintro ⟨-, -, hnone⟩
  have haccepts : accepts twoUnits crossed (pair "A" 1) = true := by decide
  obtain ⟨alt, halt, haccepts⟩ := matchesWith_iff_alternative.mp haccepts
  have hfalse := hnone alt halt
  rw [accepts, haccepts] at hfalse
  cases hfalse

end Runite.Macros
