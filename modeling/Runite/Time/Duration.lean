import Mathlib.Algebra.Group.Nat.Defs
import Mathlib.Algebra.Group.Int.Defs
import Mathlib.Data.Int.Init
import Mathlib.Tactic.Common

/-!
# Durations and instants

`std::time::Duration` and `std::time::Instant`, with exact arithmetic in
nanoseconds.  An `Instant` counts from a platform's own origin; on each of them the
first and the last one are as far apart as a `Duration` reaches.
-/

namespace Runite.Time

def nanosPerSec : Nat := 10 ^ 9

structure Duration where
  secs : UInt64
  nanos : Nat
  nanos_lt : nanos < nanosPerSec
  deriving DecidableEq

/-- Where the nanoseconds of a `Duration` end. -/
def durationLimit : Nat := 2 ^ 64 * nanosPerSec

namespace Duration

def asNanos (d : Duration) : Nat := d.secs.toNat * nanosPerSec + d.nanos

theorem asNanos_lt (d : Duration) : d.asNanos < durationLimit := by
  have hsecs := d.secs.toNat_lt
  have hnanos := d.nanos_lt
  unfold asNanos durationLimit nanosPerSec at *
  omega

/-- The duration of so many nanoseconds. -/
def ofNanos (n : Nat) : Duration where
  secs := UInt64.ofNat (n / nanosPerSec)
  nanos := n % nanosPerSec
  nanos_lt := Nat.mod_lt n (by decide)

theorem asNanos_ofNanos {n : Nat} (h : n < durationLimit) : (ofNanos n).asNanos = n := by
  have hsecs : n / nanosPerSec < 2 ^ 64 := Nat.div_lt_of_lt_mul (by rwa [Nat.mul_comm])
  show (UInt64.ofNat (n / nanosPerSec)).toNat * nanosPerSec + n % nanosPerSec = n
  rw [UInt64.toNat_ofNat', Nat.mod_eq_of_lt hsecs, Nat.mul_comm, Nat.div_add_mod]

def max : Duration := ⟨UInt64.ofNat (2 ^ 64 - 1), nanosPerSec - 1, by decide⟩

theorem asNanos_max : max.asNanos = durationLimit - 1 := by decide

def zero : Duration := ⟨0, 0, by decide⟩

def isZero (d : Duration) : Bool := d.secs = 0 && d.nanos = 0

theorem isZero_iff {d : Duration} : d.isZero = true ↔ d.asNanos = 0 := by
  obtain ⟨secs, nanos, hnanos⟩ := d
  rw [isZero, Bool.and_eq_true, decide_eq_true_eq, decide_eq_true_eq, asNanos]
  unfold nanosPerSec
  dsimp only
  constructor
  · rintro ⟨rfl, rfl⟩
    simp
  · intro h
    exact ⟨UInt64.toNat_inj.mp (show secs.toNat = 0 by omega), by omega⟩

def checkedAdd (d e : Duration) : Option Duration :=
  if d.asNanos + e.asNanos < durationLimit then some (ofNanos (d.asNanos + e.asNanos)) else none

def saturatingSub (d e : Duration) : Duration := ofNanos (d.asNanos - e.asNanos)

theorem asNanos_saturatingSub (d e : Duration) :
    (d.saturatingSub e).asNanos = d.asNanos - e.asNanos := by
  have := d.asNanos_lt
  exact asNanos_ofNanos (by omega)

def checkedMul (d : Duration) (count : Nat) : Option Duration :=
  if d.asNanos * count < durationLimit then some (ofNanos (d.asNanos * count)) else none

theorem exists_checkedMul {d : Duration} {count : Nat} (h : d.asNanos * count < durationLimit) :
    ∃ e, d.checkedMul count = some e := by
  rw [checkedMul, if_pos h]
  exact ⟨_, rfl⟩

theorem asNanos_of_checkedMul {d e : Duration} {count : Nat} (h : d.checkedMul count = some e) :
    e.asNanos = d.asNanos * count := by
  unfold checkedMul at h
  split at h
  next hlt =>
    cases h
    exact asNanos_ofNanos hlt
  next => cases h

end Duration

/-- `Instant`, as nanoseconds from an origin before which there are `-least`. -/
structure Instant (least : Int) where
  nanos : Int
  least_le : least ≤ nanos
  lt_limit : nanos < least + durationLimit
  deriving DecidableEq

/-- The instant is one that the clock can show. -/
def Representable (least nanos : Int) : Prop := nanos < least + durationLimit

instance (least nanos : Int) : Decidable (Representable least nanos) :=
  inferInstanceAs (Decidable (_ < _))

namespace Instant

variable {least : Int}

def checkedAdd (t : Instant least) (d : Duration) : Option (Instant least) :=
  if h : Representable least (t.nanos + d.asNanos) then
    some
      { nanos := t.nanos + d.asNanos
        least_le := by
          have := t.least_le
          omega
        lt_limit := h }
  else none

def saturatingDurationSince (t earlier : Instant least) : Duration :=
  .ofNanos (t.nanos - earlier.nanos).toNat

theorem asNanos_saturatingDurationSince (t earlier : Instant least) :
    (t.saturatingDurationSince earlier).asNanos = (t.nanos - earlier.nanos).toNat := by
  refine Duration.asNanos_ofNanos ?_
  have hlt := t.lt_limit
  have hle := earlier.least_le
  have hpos : 0 < durationLimit := by decide
  omega

theorem nanos_of_checkedAdd {t u : Instant least} {d : Duration} (h : t.checkedAdd d = some u) :
    u.nanos = t.nanos + d.asNanos := by
  unfold checkedAdd at h
  split at h
  · cases h
    rfl
  · cases h

theorem exists_checkedAdd {t : Instant least} {d : Duration}
    (h : Representable least (t.nanos + d.asNanos)) : ∃ u, t.checkedAdd d = some u := by
  rw [checkedAdd, dif_pos h]
  exact ⟨_, rfl⟩

theorem checkedAdd_eq_none {t : Instant least} {d : Duration} :
    t.checkedAdd d = none ↔ ¬ Representable least (t.nanos + d.asNanos) := by
  unfold checkedAdd
  split
  next h => simp [h]
  next h => simp [h]

end Instant

end Runite.Time
