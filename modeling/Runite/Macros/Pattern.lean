import Runite.Lib.Sequence

/-!
# Rust patterns

The patterns that `select!` gets from `syn`, the values they are matched with,
and what it means to match.  A pattern that is not a reference, a binding, a
wildcard or a constant sees through references.

`matchesWith` is the match with two parts of the pattern left out on demand:
its explicit references, and its bare names outside of them.
-/

namespace Runite.Macros

/-! ## Values -/

inductive Scalar
  | int (n : Int)
  | char (c : Char)
  | bool (b : Bool)
  | str (s : String)
  deriving DecidableEq

def Scalar.le : Scalar → Scalar → Bool
  | .int m, .int n => m ≤ n
  | .char c, .char d => c ≤ d
  | _, _ => false

/-- What has its parts in places.  A `tupleStruct` is also a variant of an enum,
and has no parts if it is a unit. -/
inductive Shape
  | slice
  | tuple
  | tupleStruct (path : String)
  deriving DecidableEq

inductive Val
  | scalar (s : Scalar)
  | ref (v : Val)
  | elems (shape : Shape) (vs : List Val)
  | record (path : String) (members : List String) (vs : List Val)

namespace Val

def peel : Val → Val
  | ref v => v.peel
  | v => v

mutual

/-- The structural equality of constants. -/
def same : Val → Val → Bool
  | scalar s, scalar s' => s = s'
  | ref v, ref v' => same v v'
  | elems shape vs, elems shape' vs' => shape = shape' && sameAll vs vs'
  | record path members vs, record path' members' vs' =>
      path = path' && members = members' && sameAll vs vs'
  | _, _ => false

def sameAll : List Val → List Val → Bool
  | [], [] => true
  | v :: vs, v' :: vs' => same v v' && sameAll vs vs'
  | _, _ => false

end

def parts (shape : Shape) (v : Val) : Option (List Val) :=
  match v.peel with
  | elems shape' vs => if shape = shape' then some vs else none
  | _ => none

/-- A field of a struct, or of a variant of an enum, of this name. -/
def field (path member : String) (v : Val) : Option Val :=
  match v.peel with
  | record path' members vs => if path = path' then (members.zip vs).lookup member else none
  | _ => none

/-- A struct, or a variant of an enum, of this name. -/
def isRecord (path : String) (v : Val) : Bool :=
  match v.peel with
  | record path' _ _ => path = path'
  | _ => false

end Val

/-! ## Patterns -/

/-- A literal has the type of the value it stands for; that of a string is a
reference. -/
def Scalar.val : Scalar → Val
  | .str s => .ref (.scalar (.str s))
  | s => .scalar s

/-- A literal sees through references unless it is one. -/
def Scalar.accepts (s : Scalar) (v : Val) : Bool :=
  match s with
  | .str _ => v.same s.val
  | _ => v.peel.same s.val

/-- What a name in a pattern can stand for: a constant, or a unit struct or
variant. -/
inductive Constant
  | const (value : Val)
  | unit (path : String)

/-- A constant is compared as it is, a unit sees through references. -/
def Constant.accepts : Constant → Val → Bool
  | const value, v => v.same value
  | unit path, v => v.peel.same (.elems (.tupleStruct path) [])

/-- The patterns without parts: `syn::Pat::Lit`, `Path`, `Range`, `Rest` and
`Wild`. -/
inductive Atom
  | lit (scalar : Scalar)
  | path (name : String)
  | range (start limit : Option Scalar) (inclusive : Bool)
  | rest
  | wild

def inRange (start limit : Option Scalar) (inclusive : Bool) (v : Val) : Bool :=
  match v.peel with
  | .scalar s =>
      start.all (·.le s) && limit.all fun l => if inclusive then s.le l else s.le l && s ≠ l
  | _ => false

/-- Does the value match?  `env` says what the names stand for. -/
def Atom.accepts (env : String → Option Constant) : Atom → Val → Bool
  | lit scalar, v => scalar.accepts v
  | path name, v => (env name).any (·.accepts v)
  | range start limit inclusive, v => inRange start limit inclusive v
  | rest, _ => true
  | wild, _ => true

/-- `Pat::Paren` and `Pat::Type`, which mean the pattern inside. -/
inductive Wrapper
  | paren
  | type
  deriving DecidableEq

/-- `Pat::Macro` and `Pat::Verbatim`. -/
inductive Foreign
  | macroCall
  | verbatim
  deriving DecidableEq

mutual

/-- `syn::Pat`.  `elems` is `Slice`, `Tuple` or `TupleStruct`. -/
inductive Pat
  | ident (name : String) (byRef mutability : Bool) (subpat : Option Pat)
  | atom (atom : Atom)
  | or (cases : List Pat)
  | wrap (wrapper : Wrapper) (pat : Pat)
  | reference (mutability : Bool) (pat : Pat)
  | elems (shape : Shape) (elems : List Pat)
  | struct (path : String) (fields : List FieldPat)
  | foreign (foreign : Foreign)

/-- `syn::FieldPat`; without a `colonToken` it is a shorthand. -/
inductive FieldPat
  | mk (member : String) (colonToken : Bool) (pat : Pat)

end

def FieldPat.member : FieldPat → String
  | mk member _ _ => member

def FieldPat.pat : FieldPat → Pat
  | mk _ _ pat => pat

/-- `..`, or a binding of it. -/
def Pat.isRest : Pat → Bool
  | .atom .rest => true
  | .ident _ _ _ (some pat) => pat.isRest
  | _ => false

section Matching

variable (env : String → Option Constant)

mutual

/-- Does the value match the pattern?  With `skipReferences`, explicit reference
patterns match everything; with `skipNames`, so do bare identifiers outside of
them. -/
def matchesWith (skipReferences skipNames : Bool) : Pat → Val → Bool
  | .ident _ _ _ (some pat), v => matchesWith skipReferences skipNames pat v
  -- a bare name is a binding unless it stands for something
  | .ident name byRef mutability none, v =>
      byRef || mutability || skipNames || (env name).all (·.accepts v)
  | .atom atom, v => atom.accepts env v
  | .or cases, v => matchesAny skipReferences skipNames cases v
  | .wrap _ pat, v => matchesWith skipReferences skipNames pat v
  | .reference _ pat, v =>
      skipReferences ||
        match v with
        | .ref v => matchesWith false false pat v
        | _ => false
  | .elems shape elems, v =>
      match v.parts shape with
      | some vs => matchesSeq skipReferences skipNames elems vs
      | none => false
  | .struct path fields, v =>
      v.isRecord path && matchesFields skipReferences skipNames fields path v
  -- `select!` does not accept these, and nothing is known about them
  | .foreign _, _ => false

def matchesAny (skipReferences skipNames : Bool) : List Pat → Val → Bool
  | [], _ => false
  | pat :: pats, v =>
      matchesWith skipReferences skipNames pat v || matchesAny skipReferences skipNames pats v

/-- The elements match in their places; `..` takes what the others leave. -/
def matchesSeq (skipReferences skipNames : Bool) : List Pat → List Val → Bool
  | [], vs => vs.isEmpty
  | pat :: pats, vs =>
      if pat.isRest then
        matchesSeq skipReferences skipNames pats (vs.drop (vs.length - pats.length))
      else
        match vs with
        | [] => false
        | v :: vs =>
            matchesWith skipReferences skipNames pat v && matchesSeq skipReferences skipNames pats vs

def matchesFields (skipReferences skipNames : Bool) : List FieldPat → String → Val → Bool
  | [], _, _ => true
  | .mk member _ pat :: fields, path, v =>
      (match v.field path member with
        | some w => matchesWith skipReferences skipNames pat w
        | none => false) && matchesFields skipReferences skipNames fields path v

end

def accepts (pat : Pat) (v : Val) : Bool := matchesWith env false false pat v

/-! ## Lists of patterns -/

variable {env} {skipReferences skipNames : Bool} {pats : List Pat} {v : Val}

theorem matchesAny_iff : matchesAny env skipReferences skipNames pats v = true ↔
    ∃ pat ∈ pats, matchesWith env skipReferences skipNames pat v = true := by
  induction pats with
  | nil => simp [matchesAny]
  | cons pat pats ih => simp [matchesAny, ih]

theorem matchesSeq_iff {vs : List Val} :
    matchesSeq env skipReferences skipNames pats vs = true ↔
      Sequence.Fits Pat.isRest
        (fun pat v => matchesWith env skipReferences skipNames pat v = true) pats vs := by
  induction pats generalizing vs with
  | nil => simp [matchesSeq, Sequence.Fits]
  | cons pat pats ih =>
      by_cases hrest : pat.isRest = true
      · rw [Sequence.fits_cons_of_gap hrest, ← ih]
        simp [matchesSeq, hrest]
      · rw [Sequence.fits_cons_of_not_gap hrest]
        cases vs with
        | nil => simp [matchesSeq, hrest]
        | cons v vs => simp [matchesSeq, hrest, ih]

theorem matchesElems_iff {shape : Shape} :
    matchesWith env skipReferences skipNames (.elems shape pats) v = true ↔
      ∃ vs, v.parts shape = some vs ∧ Sequence.Fits Pat.isRest
        (fun pat v => matchesWith env skipReferences skipNames pat v = true) pats vs := by
  simp only [matchesWith, ← matchesSeq_iff]
  cases v.parts shape <;> simp

/-- A field pattern matches the field of its name. -/
def fieldMatches (env : String → Option Constant) (skipReferences skipNames : Bool)
    (path : String) (v : Val) (field : FieldPat) : Prop :=
  ∃ w, v.field path field.member = some w ∧
    matchesWith env skipReferences skipNames field.pat w = true

theorem matchesStruct_iff {path : String} {fields : List FieldPat} :
    matchesWith env skipReferences skipNames (.struct path fields) v = true ↔
      v.isRecord path = true ∧
        ∀ field ∈ fields, fieldMatches env skipReferences skipNames path v field := by
  simp only [matchesWith, Bool.and_eq_true]
  refine and_congr_right fun _ => ?_
  induction fields with
  | nil => simp [matchesFields]
  | cons field fields ih =>
      obtain ⟨member, colonToken, pat⟩ := field
      simp only [matchesFields, Bool.and_eq_true, ih, List.forall_mem_cons, fieldMatches,
        FieldPat.member, FieldPat.pat]
      cases v.field path member <;> simp

end Matching

/-! ## Induction -/

section Induction

set_option linter.unusedSectionVars false

variable {motive : Pat → Prop}
  (ident : ∀ name byRef mutability, motive (.ident name byRef mutability none))
  (binding : ∀ name byRef mutability pat, motive pat →
    motive (.ident name byRef mutability (some pat)))
  (atom : ∀ atom, motive (.atom atom))
  (or : ∀ cases, (∀ pat ∈ cases, motive pat) → motive (.or cases))
  (wrap : ∀ wrapper pat, motive pat → motive (.wrap wrapper pat))
  (reference : ∀ mutability pat, motive pat → motive (.reference mutability pat))
  (elems : ∀ shape elems, (∀ pat ∈ elems, motive pat) → motive (.elems shape elems))
  (struct : ∀ path fields, (∀ field ∈ fields, motive field.pat) → motive (.struct path fields))
  (foreign : ∀ foreign, motive (.foreign foreign))

include ident binding atom or wrap reference elems struct foreign

mutual

/-- Induction over a pattern, with the elements of a list as its parts. -/
theorem Pat.induction : (pat : Pat) → motive pat
  | .ident name byRef mutability none => ident name byRef mutability
  | .ident name byRef mutability (some pat) =>
      binding name byRef mutability pat (Pat.induction pat)
  | .atom a => atom a
  | .or cases => or cases (inductionList cases)
  | .wrap wrapper pat => wrap wrapper pat (Pat.induction pat)
  | .reference mutability pat => reference mutability pat (Pat.induction pat)
  | .elems shape pats => elems shape pats (inductionList pats)
  | .struct path fields => struct path fields (inductionFields fields)
  | .foreign f => foreign f

theorem inductionList : (pats : List Pat) → ∀ pat ∈ pats, motive pat
  | [] => by simp
  | pat :: pats => by
      rw [List.forall_mem_cons]
      exact ⟨Pat.induction pat, inductionList pats⟩

theorem inductionFields : (fields : List FieldPat) → ∀ field ∈ fields, motive field.pat
  | [] => by simp
  | .mk member colonToken pat :: fields => by
      rw [List.forall_mem_cons]
      exact ⟨Pat.induction pat, inductionFields fields⟩

end

end Induction

end Runite.Macros
