import Mathlib.Data.Nat.Bitwise

/-!
# Completion tokens

The `user_data` of what the Linux driver submits: the kind of the completion in the high eight
bits, and a sequence number below.  `make_token` and `decode_token_kind` of
`platform::linux::driver`.
-/

namespace Runite.Linux

inductive CompletionKind
  | timer
  | timerRemove
  | notifySend
  | operation
  | operationCancel
  | linkedTimeout
  deriving DecidableEq, Repr

def CompletionKind.toU64 : CompletionKind → Nat
  | timer => 1
  | timerRemove => 2
  | notifySend => 3
  | operation => 4
  | operationCancel => 5
  | linkedTimeout => 6

structure Token where
  kind : CompletionKind
  seq : Nat
  deriving DecidableEq, Repr

def tokenKindShift : Nat := 56

def tokenKindMask : Nat := 0xff <<< tokenKindShift

def wakeTargetToken : Nat := 1

/-- `make_token` -/
def Token.toU64 (token : Token) : Nat :=
  token.kind.toU64 <<< tokenKindShift ||| token.seq % 2 ^ tokenKindShift

def decodeTokenKind (token : Nat) : Option CompletionKind :=
  match (token &&& tokenKindMask) >>> tokenKindShift with
  | 1 => some .timer
  | 2 => some .timerRemove
  | 3 => some .notifySend
  | 4 => some .operation
  | 5 => some .operationCancel
  | 6 => some .linkedTimeout
  | _ => none

variable {a b : Token}

theorem Token.toU64_eq (token : Token) :
    token.toU64 = token.kind.toU64 * 2 ^ tokenKindShift + token.seq % 2 ^ tokenKindShift := by
  unfold Token.toU64
  rw [← Nat.shiftLeft_add_eq_or_of_lt (Nat.mod_lt _ (by decide)), Nat.shiftLeft_eq]

/-- Below `2 ^ 56` tokens are told apart by their `user_data`. -/
theorem Token.toU64_inj (ha : a.seq < 2 ^ tokenKindShift) (hb : b.seq < 2 ^ tokenKindShift)
    (heq : a.toU64 = b.toU64) : a = b := by
  rw [toU64_eq, toU64_eq, Nat.mod_eq_of_lt ha, Nat.mod_eq_of_lt hb] at heq
  unfold tokenKindShift at ha hb heq
  have hseq : a.seq = b.seq := by omega
  have hcode : a.kind.toU64 = b.kind.toU64 := by omega
  have hkind : a.kind = b.kind := by
    cases hka : a.kind <;> cases hkb : b.kind <;> simp_all [CompletionKind.toU64]
  obtain ⟨kind, seq⟩ := a
  obtain ⟨kind', seq'⟩ := b
  simp_all

theorem Token.toU64_ne_wake (token : Token) : token.toU64 ≠ wakeTargetToken := by
  rw [toU64_eq]
  have hpos : 1 ≤ token.kind.toU64 := by cases token.kind <;> decide
  unfold wakeTargetToken tokenKindShift
  omega

theorem decodeTokenKind_toU64 (token : Token) : decodeTokenKind token.toU64 = some token.kind := by
  have hcode : (token.toU64 &&& tokenKindMask) >>> tokenKindShift = token.kind.toU64 := by
    rw [Nat.shiftRight_and_distrib, Token.toU64_eq]
    unfold tokenKindMask tokenKindShift
    rw [Nat.shiftLeft_shiftRight, Nat.shiftRight_eq_div_pow]
    have hdiv : (token.kind.toU64 * 2 ^ 56 + token.seq % 2 ^ 56) / 2 ^ 56 = token.kind.toU64 := by
      omega
    rw [hdiv]
    cases token.kind <;> decide
  unfold decodeTokenKind
  rw [hcode]
  cases token.kind <;> rfl

end Runite.Linux
