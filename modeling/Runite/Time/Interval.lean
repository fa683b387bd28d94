import Runite.Time.Duration
import Runite.Task
import Mathlib.Tactic.Ring

/-!
# Interval deadlines

`time::Interval`: a poll of a tick, and the deadline that comes after it.  A sum
that the clock cannot show is replaced by one of its terms, so a schedule advances
exactly as long as the sums that its mode names can be shown.
-/

namespace Runite.Time

variable {least : Int}

inductive MissedTickBehavior
  | burst
  | delay
  | skip
  deriving DecidableEq

def addInstant (t : Instant least) (d : Duration) : Instant least := (t.checkedAdd d).getD t

/-- `u32::MAX`. -/
def u32Max : Nat := 2 ^ 32 - 1

theorem u32Max_pos : 0 < u32Max := by decide

/-- The `while` of `first_deadline_after`, with the periods that remain, in at most
as many passes as it is given; `none` where the source falls back. -/
def addPeriods (period : Duration) : Nat → Nat → Instant least → Option (Instant least)
  | 0, _, next => some next
  | passes + 1, remaining, next =>
      if 0 < remaining then do
        let chunk := min remaining u32Max
        let delta ← period.checkedMul chunk
        let deadline ← next.checkedAdd delta
        addPeriods period passes (remaining - chunk) deadline
      else some next

def firstDeadlineAfter (scheduled observed : Instant least) (period : Duration) : Instant least :=
  let elapsed := observed.saturatingDurationSince scheduled
  let periods := elapsed.asNanos / period.asNanos + 1
  (addPeriods period periods periods scheduled).getD (addInstant observed period)

def nextDeadline (scheduled observed : Instant least) (period : Duration) :
    MissedTickBehavior → Instant least
  | .burst => addInstant scheduled period
  | .delay =>
      if (addInstant scheduled period).nanos ≤ observed.nanos then addInstant observed period
      else addInstant scheduled period
  | .skip =>
      if (addInstant scheduled period).nanos ≤ observed.nanos then
        firstDeadlineAfter scheduled observed period
      else addInstant scheduled period

/-! ## Ticks -/

/-- `Interval`; of its sleep only the delay is kept. -/
structure Interval (least : Int) where
  period : Duration
  nextTick : Instant least
  firstTick : Bool := true
  sleep : Option Duration := none
  missedTickBehavior : MissedTickBehavior := .burst

/-- `interval`, called at `now`. -/
def interval (now : Instant least) (period : Duration) : Interval least :=
  { period, nextTick := now }

/-- What a poll of a tick gets from outside: two readings of the clock, and whether
the sleep has elapsed. -/
structure TickReadings (least : Int) where
  now : Instant least
  observed : Instant least
  elapsed : Bool

/-- `Tick::poll`. -/
def Interval.pollTick (i : Interval least) (r : TickReadings least) :
    Interval least × Poll (Instant least) :=
  if i.firstTick then
    ({ i with firstTick := false, nextTick := addInstant i.nextTick i.period }, .ready i.nextTick)
  else if i.period.isZero then
    if r.elapsed then ({ i with sleep := none }, .ready r.observed)
    else ({ i with sleep := some (i.sleep.getD .zero) }, .pending)
  else
    let scheduled := i.nextTick
    let delay := scheduled.saturatingDurationSince r.now
    if r.now.nanos < scheduled.nanos && !r.elapsed then
      ({ i with sleep := some (i.sleep.getD delay) }, .pending)
    else
      ({ i with
          sleep := none
          nextTick := nextDeadline scheduled r.observed i.period i.missedTickBehavior },
        .ready scheduled)

/-- The ticks that polls with these readings yield. -/
def Interval.ticks (i : Interval least) : List (TickReadings least) → List (Instant least)
  | [] => []
  | r :: readings =>
      match (i.pollTick r).2 with
      | .ready tick => tick :: (i.pollTick r).1.ticks readings
      | .pending => (i.pollTick r).1.ticks readings

/-! ## Sums that the clock can show -/

variable {scheduled observed next : Instant least} {period : Duration}

theorem nanos_addInstant (h : Representable least (scheduled.nanos + period.asNanos)) :
    (addInstant scheduled period).nanos = scheduled.nanos + period.asNanos := by
  obtain ⟨u, hu⟩ := Instant.exists_checkedAdd h
  rw [addInstant, hu]
  exact Instant.nanos_of_checkedAdd hu

theorem addInstant_eq_self (h : ¬ Representable least (scheduled.nanos + period.asNanos)) :
    addInstant scheduled period = scheduled := by
  rw [addInstant, Instant.checkedAdd_eq_none.mpr h]
  rfl

theorem nanos_addPeriods {passes remaining : Nat} (hpasses : remaining ≤ passes)
    (h : addPeriods period passes remaining scheduled = some next) :
    next.nanos = scheduled.nanos + remaining * period.asNanos := by
  induction passes generalizing remaining scheduled with
  | zero =>
      obtain rfl : remaining = 0 := by omega
      obtain rfl : scheduled = next := Option.some.inj h
      simp
  | succ passes ih =>
      rw [addPeriods] at h
      by_cases hpos : 0 < remaining
      · rw [if_pos hpos, Option.bind_eq_bind, Option.bind_eq_some_iff] at h
        obtain ⟨delta, hdelta, h⟩ := h
        rw [Option.bind_eq_bind, Option.bind_eq_some_iff] at h
        obtain ⟨deadline, hdeadline, h⟩ := h
        have hchunk : min remaining u32Max ≤ remaining := Nat.min_le_left ..
        have hrest : remaining - min remaining u32Max ≤ passes := by
          have hmax := u32Max_pos
          omega
        rw [ih hrest h, Instant.nanos_of_checkedAdd hdeadline,
          Duration.asNanos_of_checkedMul hdelta, Nat.cast_sub hchunk]
        push_cast
        ring
      · rw [if_neg hpos] at h
        obtain rfl : scheduled = next := Option.some.inj h
        obtain rfl : remaining = 0 := by omega
        simp

/-- Nothing overflows on the way to a sum that the clock can show. -/
theorem exists_addPeriods {passes remaining : Nat}
    (h : Representable least (scheduled.nanos + remaining * period.asNanos)) :
    ∃ next, addPeriods period passes remaining scheduled = some next := by
  induction passes generalizing remaining scheduled with
  | zero => exact ⟨scheduled, rfl⟩
  | succ passes ih =>
      rw [addPeriods]
      by_cases hpos : 0 < remaining
      · rw [if_pos hpos]
        have hchunk : min remaining u32Max ≤ remaining := Nat.min_le_left ..
        generalize min remaining u32Max = chunk at hchunk ⊢
        obtain ⟨rest, rfl⟩ := Nat.exists_eq_add_of_le hchunk
        have hsplit : ((chunk + rest : Nat) : Int) * period.asNanos =
            ((period.asNanos * chunk : Nat) : Int) + ((rest * period.asNanos : Nat) : Int) := by
          push_cast
          ring
        rw [Representable, hsplit] at h
        obtain ⟨delta, hdelta⟩ : ∃ delta, period.checkedMul chunk = some delta := by
          refine Duration.exists_checkedMul ?_
          have hleast := scheduled.least_le
          omega
        have hnanos := Duration.asNanos_of_checkedMul hdelta
        obtain ⟨deadline, hdeadline⟩ : ∃ deadline, scheduled.checkedAdd delta = some deadline := by
          refine Instant.exists_checkedAdd ?_
          rw [Representable, hnanos]
          omega
        have hnext := Instant.nanos_of_checkedAdd hdeadline
        have hrest : Representable least
            (deadline.nanos + (chunk + rest - chunk : Nat) * period.asNanos) := by
          rw [Representable, hnext, hnanos, Nat.add_sub_cancel_left]
          push_cast at h ⊢
          omega
        obtain ⟨next, hnext⟩ := ih hrest
        refine ⟨next, ?_⟩
        show (period.checkedMul chunk).bind _ = _
        rw [hdelta, Option.bind_some, hdeadline]
        exact hnext
      · rw [if_neg hpos]
        exact ⟨scheduled, rfl⟩

/-! ## Skipped ticks -/

/-- `k` is the first period from `scheduled` on that ends after `observed`. -/
structure FirstAfter (scheduled observed period : Int) (k : Nat) : Prop where
  pos : 1 ≤ k
  after : observed < scheduled + k * period
  least : ∀ j : Nat, 1 ≤ j → observed < scheduled + j * period → k ≤ j

theorem firstAfter_div {late period : Nat} {scheduled observed : Int} (hperiod : 0 < period)
    (hlate : observed = scheduled + late) :
    FirstAfter scheduled observed period (late / period + 1) where
  pos := Nat.le_add_left ..
  after := by
    have hlt : late < (late / period + 1) * period :=
      Nat.lt_mul_of_div_lt (Nat.lt_succ_self _) hperiod
    rw [hlate]
    have := Int.ofNat_lt.mpr hlt
    push_cast at this ⊢
    omega
  least j _ hafter := by
    refine Nat.succ_le_of_lt (Nat.div_lt_of_lt_mul ?_)
    rw [hlate] at hafter
    have hlt : (late : Int) < j * period := by omega
    rw [Nat.mul_comm]
    exact_mod_cast hlt

theorem FirstAfter.unique {scheduled observed period : Int} {k j : Nat}
    (hk : FirstAfter scheduled observed period k) (hj : FirstAfter scheduled observed period j) :
    k = j :=
  Nat.le_antisymm (hk.least j hj.pos hj.after) (hj.least k hk.pos hk.after)

theorem firstAfter_one {scheduled observed period : Int} (h : observed < scheduled + period) :
    FirstAfter scheduled observed period 1 where
  pos := Nat.le_refl _
  after := by omega
  least _ hj _ := hj

theorem late_eq (hobserved : scheduled.nanos ≤ observed.nanos) :
    observed.nanos = scheduled.nanos + (observed.saturatingDurationSince scheduled).asNanos := by
  rw [Instant.asNanos_saturatingDurationSince]
  omega

theorem nanos_firstDeadlineAfter {k : Nat} (hperiod : 0 < period.asNanos)
    (hobserved : scheduled.nanos ≤ observed.nanos)
    (hk : FirstAfter scheduled.nanos observed.nanos period.asNanos k)
    (hshown : Representable least (scheduled.nanos + k * period.asNanos)) :
    (firstDeadlineAfter scheduled observed period).nanos = scheduled.nanos + k * period.asNanos := by
  obtain rfl := hk.unique (firstAfter_div hperiod (late_eq hobserved))
  obtain ⟨next, hnext⟩ := exists_addPeriods hshown
  rw [firstDeadlineAfter, hnext]
  exact nanos_addPeriods (Nat.le_refl _) hnext

/-- Where the first grid instant after `observed` cannot be shown, neither can the
sum that stands in for it. -/
theorem firstDeadlineAfter_eq_observed {k : Nat} (hperiod : 0 < period.asNanos)
    (hobserved : scheduled.nanos ≤ observed.nanos)
    (hk : FirstAfter scheduled.nanos observed.nanos period.asNanos k)
    (hshown : ¬ Representable least (scheduled.nanos + k * period.asNanos)) :
    firstDeadlineAfter scheduled observed period = addInstant observed period := by
  obtain rfl := hk.unique (firstAfter_div hperiod (late_eq hobserved))
  rw [firstDeadlineAfter]
  cases h : addPeriods period _ _ scheduled with
  | none => rfl
  | some next =>
      refine absurd ?_ hshown
      rw [← nanos_addPeriods (Nat.le_refl _) h]
      exact next.lt_limit

/-! ## What a deadline is for -/

def Missed (scheduled observed : Instant least) (period : Duration) : Prop :=
  scheduled.nanos + period.asNanos ≤ observed.nanos

instance (scheduled observed : Instant least) (period : Duration) :
    Decidable (Missed scheduled observed period) :=
  inferInstanceAs (Decidable (_ ≤ _))

/-- The deadline after a tick that was scheduled for one instant and observed at
another: later than the tick, and where its mode puts it. -/
structure Advances (behavior : MissedTickBehavior) (scheduled observed : Instant least)
    (period : Duration) (next : Instant least) : Prop where
  later : scheduled.nanos < next.nanos
  spaced : Representable least (scheduled.nanos + period.asNanos) →
    scheduled.nanos + period.asNanos ≤ next.nanos
  skip : behavior = .skip → ∀ k,
    FirstAfter scheduled.nanos observed.nanos period.asNanos k →
    Representable least (scheduled.nanos + k * period.asNanos) →
    next.nanos = scheduled.nanos + k * period.asNanos
  delay : behavior = .delay → next.nanos =
    if Missed scheduled observed period then observed.nanos + period.asNanos
    else scheduled.nanos + period.asNanos

/-- The clock can show what the mode needs it to show: the next instant of the grid,
or for `Delay` the sum that it names.  `Skip` also advances when it is late. -/
def Shown (behavior : MissedTickBehavior) (scheduled observed : Instant least)
    (period : Duration) : Prop :=
  match behavior with
  | .burst => Representable least (scheduled.nanos + period.asNanos)
  | .delay =>
      Representable least
        ((if Missed scheduled observed period then observed.nanos else scheduled.nanos) +
          period.asNanos)
  | .skip =>
      Representable least (scheduled.nanos + period.asNanos) ∨ scheduled.nanos < observed.nanos

variable (observed) in
/-- A sum that cannot be shown is after everything that was observed. -/
theorem not_missed (h : ¬ Representable least (scheduled.nanos + period.asNanos)) :
    ¬ Missed scheduled observed period := by
  have hlimit := observed.lt_limit
  unfold Representable Missed at *
  omega

/-- What `add_instant` answers, with a representable sum and without. -/
theorem addInstant_cases (t : Instant least) (d : Duration) :
    Representable least (t.nanos + d.asNanos) ∧ (addInstant t d).nanos = t.nanos + d.asNanos ∨
      ¬ Representable least (t.nanos + d.asNanos) ∧ addInstant t d = t := by
  by_cases h : Representable least (t.nanos + d.asNanos)
  · exact .inl ⟨h, nanos_addInstant h⟩
  · exact .inr ⟨h, addInstant_eq_self h⟩

theorem le_addInstant (t : Instant least) (d : Duration) : t.nanos ≤ (addInstant t d).nanos := by
  obtain ⟨-, h⟩ | ⟨-, h⟩ := addInstant_cases t d
  · omega
  · rw [h]

variable {behavior : MissedTickBehavior}

theorem advances_burst (hperiod : 0 < period.asNanos) :
    Advances .burst scheduled observed period (nextDeadline scheduled observed period .burst) ↔
      Shown .burst scheduled observed period := by
  show Advances .burst scheduled observed period (addInstant scheduled period) ↔
    Representable least (scheduled.nanos + period.asNanos)
  obtain ⟨hshown, h⟩ | ⟨hshown, h⟩ := addInstant_cases scheduled period
  · refine ⟨fun _ => hshown, fun _ => ?_⟩
    exact
      { later := by omega
        spaced := fun _ => h.ge
        skip := nofun
        delay := nofun }
  · refine ⟨fun hadvances => ?_, fun h => absurd h hshown⟩
    have hlater := hadvances.later
    rw [h] at hlater
    omega

theorem advances_delay (hperiod : 0 < period.asNanos) (hobserved : scheduled.nanos ≤ observed.nanos) :
    Advances .delay scheduled observed period (nextDeadline scheduled observed period .delay) ↔
      Shown .delay scheduled observed period := by
  rw [nextDeadline, Shown]
  obtain ⟨hshown, h⟩ | ⟨hshown, h⟩ := addInstant_cases scheduled period
  · by_cases hmissed : Missed scheduled observed period
    · have hle : scheduled.nanos + period.asNanos ≤ observed.nanos := hmissed
      rw [h, if_pos hle, if_pos hmissed]
      obtain ⟨hshown, hlate⟩ | ⟨hshown, hlate⟩ := addInstant_cases observed period
      · refine ⟨fun _ => hshown, fun _ => ?_⟩
        exact
          { later := by omega
            spaced := fun _ => by omega
            skip := nofun
            delay := fun _ => by rw [hlate, if_pos hmissed] }
      · refine ⟨fun hadvances => ?_, fun h => absurd h hshown⟩
        have hdelay := hadvances.delay rfl
        rw [hlate, if_pos hmissed] at hdelay
        omega
    · have hnot : ¬ scheduled.nanos + period.asNanos ≤ observed.nanos := hmissed
      rw [h, if_neg hnot, if_neg hmissed]
      refine ⟨fun _ => hshown, fun _ => ?_⟩
      exact
        { later := by omega
          spaced := fun _ => h.ge
          skip := nofun
          delay := fun _ => by rw [h, if_neg hmissed] }
  · have hmissed := not_missed observed hshown
    rw [h, if_pos hobserved, if_neg hmissed]
    refine ⟨fun hadvances => ?_, fun h => absurd h hshown⟩
    have hdelay := hadvances.delay rfl
    rw [if_neg hmissed] at hdelay
    rw [Representable, ← hdelay]
    exact (addInstant observed period).lt_limit

theorem advances_firstDeadlineAfter (hperiod : 0 < period.asNanos)
    (hobserved : scheduled.nanos ≤ observed.nanos) (hlater : scheduled.nanos < observed.nanos)
    (hspaced : Representable least (scheduled.nanos + period.asNanos) →
      Missed scheduled observed period) :
    Advances .skip scheduled observed period (firstDeadlineAfter scheduled observed period) := by
  have hfirst := firstAfter_div hperiod (late_eq hobserved)
  generalize _ / period.asNanos + 1 = k at hfirst
  have hafter : observed.nanos ≤ (firstDeadlineAfter scheduled observed period).nanos := by
    by_cases hshown : Representable least (scheduled.nanos + k * period.asNanos)
    · rw [nanos_firstDeadlineAfter hperiod hobserved hfirst hshown]
      exact hfirst.after.le
    · rw [firstDeadlineAfter_eq_observed hperiod hobserved hfirst hshown]
      exact le_addInstant ..
  exact
    { later := by omega
      spaced := fun h => Int.le_trans (hspaced h) hafter
      skip := fun _ j hj hshown => nanos_firstDeadlineAfter hperiod hobserved hj hshown
      delay := nofun }

theorem advances_skip (hperiod : 0 < period.asNanos) (hobserved : scheduled.nanos ≤ observed.nanos) :
    Advances .skip scheduled observed period (nextDeadline scheduled observed period .skip) ↔
      Shown .skip scheduled observed period := by
  rw [nextDeadline, Shown]
  obtain ⟨hshown, h⟩ | ⟨hshown, h⟩ := addInstant_cases scheduled period
  · refine ⟨fun _ => .inl hshown, fun _ => ?_⟩
    by_cases hmissed : Missed scheduled observed period
    · have hle : scheduled.nanos + period.asNanos ≤ observed.nanos := hmissed
      rw [h, if_pos hle]
      have hlater : scheduled.nanos < observed.nanos := by omega
      exact advances_firstDeadlineAfter hperiod hobserved hlater fun _ => hmissed
    · have hnot : ¬ scheduled.nanos + period.asNanos ≤ observed.nanos := hmissed
      rw [h, if_neg hnot]
      exact
        { later := by omega
          spaced := fun _ => h.ge
          skip := fun _ k hk _ => by
            rw [hk.unique (firstAfter_one (by omega)), h]
            simp
          delay := nofun }
  · rw [h, if_pos hobserved]
    constructor
    · intro hadvances
      refine .inr (Int.lt_of_not_ge fun hsame => ?_)
      have hlater := hadvances.later
      have hone : FirstAfter scheduled.nanos observed.nanos period.asNanos 1 :=
        firstAfter_one (by omega)
      rw [firstDeadlineAfter_eq_observed hperiod hobserved hone (by simpa using hshown)] at hlater
      obtain ⟨hobs, -⟩ | ⟨-, h⟩ := addInstant_cases observed period
      · unfold Representable at hobs hshown
        omega
      · rw [h] at hlater
        omega
    · rintro (h | hlater)
      · exact absurd h hshown
      · exact advances_firstDeadlineAfter hperiod hobserved hlater fun h => absurd h hshown

/-- The deadline after a tick advances exactly when the clock can show what the mode
needs of it. -/
theorem nextDeadline_advances_iff (hperiod : 0 < period.asNanos)
    (hobserved : scheduled.nanos ≤ observed.nanos) :
    Advances behavior scheduled observed period (nextDeadline scheduled observed period behavior) ↔
      Shown behavior scheduled observed period := by
  cases behavior with
  | burst => exact advances_burst hperiod
  | delay => exact advances_delay hperiod hobserved
  | skip => exact advances_skip hperiod hobserved

/-! ## The deadlines of an interval -/

namespace Interval

/-- How the deadline after the next tick is found.  The first tick does not look at the mode. -/
def behaviorOfTick (i : Interval least) : MissedTickBehavior :=
  if i.firstTick then .burst else i.missedTickBehavior

/-- A poll that yields a tick yields the deadline, and sets the next one by the tick
and the reading after it. -/
theorem pollTick_ready {i : Interval least} {r : TickReadings least} {tick : Instant least}
    (hperiod : 0 < i.period.asNanos) (h : (i.pollTick r).2 = .ready tick) :
    tick = i.nextTick ∧ (i.pollTick r).1.firstTick = false ∧
      (i.pollTick r).1.period = i.period ∧
      (i.pollTick r).1.nextTick = nextDeadline tick r.observed i.period i.behaviorOfTick := by
  have hzero : i.period.isZero = false := by
    rw [Bool.eq_false_iff, ne_eq, Duration.isZero_iff]
    omega
  rw [pollTick, hzero] at h ⊢
  rw [behaviorOfTick]
  cases hfirst : i.firstTick with
  | true =>
      rw [hfirst] at h
      obtain rfl : i.nextTick = tick := Poll.ready.inj h
      exact ⟨rfl, rfl, rfl, rfl⟩
  | false =>
      rw [hfirst] at h
      simp only [Bool.false_eq_true, if_false] at h ⊢
      split at h
      · cases h
      next hdue =>
        obtain rfl : i.nextTick = tick := Poll.ready.inj h
        rw [if_neg hdue]
        exact ⟨rfl, rfl, rfl, rfl⟩

theorem pollTick_first_late {i : Interval least} {r : TickReadings least}
    (hfirst : i.firstTick = true) (hmissed : Missed i.nextTick r.observed i.period) :
    (i.pollTick r).1.nextTick.nanos ≤ r.observed.nanos := by
  have hnext : (i.pollTick r).1.nextTick = addInstant i.nextTick i.period := by
    rw [pollTick, if_pos hfirst]
  rw [hnext]
  unfold Missed at hmissed
  obtain ⟨-, h⟩ | ⟨-, h⟩ := addInstant_cases i.nextTick i.period <;> rw [h] <;> omega

/-- A poll that yields nothing leaves the schedule as it was. -/
theorem pollTick_pending {i : Interval least} {r : TickReadings least}
    (hperiod : 0 < i.period.asNanos) (h : (i.pollTick r).2 = .pending) :
    (i.pollTick r).1.period = i.period ∧ (i.pollTick r).1.nextTick = i.nextTick := by
  have hzero : i.period.isZero = false := by
    rw [Bool.eq_false_iff, ne_eq, Duration.isZero_iff]
    omega
  rw [pollTick, hzero] at h ⊢
  cases hfirst : i.firstTick with
  | true =>
      rw [hfirst] at h
      cases h
  | false =>
      rw [hfirst] at h
      simp only [Bool.false_eq_true, if_false] at h ⊢
      split at h
      next hearly =>
        rw [if_pos hearly]
        exact ⟨rfl, rfl⟩
      · cases h

theorem advances_iff_of_ready {i : Interval least} {r : TickReadings least} {tick : Instant least}
    (hperiod : 0 < i.period.asNanos) (h : (i.pollTick r).2 = .ready tick)
    (hobserved : tick.nanos ≤ r.observed.nanos) :
    Advances i.behaviorOfTick tick r.observed i.period (i.pollTick r).1.nextTick ↔
      Shown i.behaviorOfTick tick r.observed i.period := by
  rw [(pollTick_ready hperiod h).2.2.2]
  exact nextDeadline_advances_iff hperiod hobserved

/-- The clock shows what each tick of these polls needs. -/
def AllShown (i : Interval least) : List (TickReadings least) → Prop
  | [] => True
  | r :: readings =>
      (∀ tick, (i.pollTick r).2 = .ready tick → tick.nanos ≤ r.observed.nanos ∧
        Shown i.behaviorOfTick tick r.observed i.period) ∧
      (i.pollTick r).1.AllShown readings

theorem nextTick_le_of_mem_ticks {i : Interval least} {readings : List (TickReadings least)}
    (hperiod : 0 < i.period.asNanos) (hshown : i.AllShown readings) :
    ∀ tick ∈ i.ticks readings, i.nextTick.nanos ≤ tick.nanos := by
  induction readings generalizing i with
  | nil => simp [ticks]
  | cons r readings ih =>
      intro tick htick
      rw [ticks] at htick
      cases hpoll : (i.pollTick r).2 with
      | pending =>
          rw [hpoll] at htick
          obtain ⟨hsame, hnext⟩ := pollTick_pending hperiod hpoll
          rw [← hnext]
          exact ih (hsame ▸ hperiod) hshown.2 tick htick
      | ready first =>
          rw [hpoll] at htick
          obtain ⟨rfl, -, hsame, -⟩ := pollTick_ready hperiod hpoll
          obtain ⟨hobserved, hneeds⟩ := hshown.1 _ hpoll
          have hlater := ((advances_iff_of_ready hperiod hpoll hobserved).mpr hneeds).later
          obtain rfl | htick := List.mem_cons.mp htick
          · exact Int.le_refl _
          · have := ih (hsame ▸ hperiod) hshown.2 tick htick
            omega

theorem ticks_increase {i : Interval least} {readings : List (TickReadings least)}
    (hperiod : 0 < i.period.asNanos) (hshown : i.AllShown readings) :
    (i.ticks readings).Pairwise fun a b => a.nanos < b.nanos := by
  induction readings generalizing i with
  | nil => exact .nil
  | cons r readings ih =>
      rw [ticks]
      cases hpoll : (i.pollTick r).2 with
      | pending =>
          obtain ⟨hsame, -⟩ := pollTick_pending hperiod hpoll
          exact ih (hsame ▸ hperiod) hshown.2
      | ready first =>
          obtain ⟨rfl, -, hsame, -⟩ := pollTick_ready hperiod hpoll
          obtain ⟨hobserved, hneeds⟩ := hshown.1 _ hpoll
          have hlater := ((advances_iff_of_ready hperiod hpoll hobserved).mpr hneeds).later
          refine .cons (fun tick htick => ?_) (ih (hsame ▸ hperiod) hshown.2)
          exact Int.lt_of_lt_of_le hlater
            (nextTick_le_of_mem_ticks (hsame ▸ hperiod) hshown.2 tick htick)

/-- The deadline after a tick advances exactly when the clock can show what the mode
needs of it.  Where it can at every tick, no two ticks come at one instant.  A first tick
that comes a period late, or later, is followed by one that is due already, whatever the
mode. -/
theorem pollTick_advances_iff {i : Interval least} {r : TickReadings least} {tick : Instant least}
    (hperiod : 0 < i.period.asNanos) (h : (i.pollTick r).2 = .ready tick)
    (hobserved : tick.nanos ≤ r.observed.nanos) :
    (Advances i.behaviorOfTick tick r.observed i.period (i.pollTick r).1.nextTick ↔
      Shown i.behaviorOfTick tick r.observed i.period) ∧
    (∀ readings, i.AllShown readings →
      (i.ticks readings).Pairwise fun a b => a.nanos < b.nanos) ∧
    (i.firstTick = true → Missed tick r.observed i.period →
      (i.pollTick r).1.nextTick.nanos ≤ r.observed.nanos) := by
  refine ⟨advances_iff_of_ready hperiod h hobserved, fun _ => ticks_increase hperiod,
    fun hfirst hmissed => ?_⟩
  obtain ⟨rfl, -⟩ := pollTick_ready hperiod h
  exact pollTick_first_late hfirst hmissed

/-- Three periods late on a grid of twenty milliseconds, observed on the grid. -/
theorem pollTick_advances_late :
    let i : Interval 0 :=
      { period := .ofNanos 20000000
        nextTick := ⟨100000000, by decide, by decide⟩
        firstTick := false
        missedTickBehavior := .skip }
    let r : TickReadings 0 :=
      ⟨⟨150000000, by decide, by decide⟩, ⟨160000000, by decide, by decide⟩, false⟩
    Advances .skip i.nextTick r.observed i.period (i.pollTick r).1.nextTick := by
  intro i r
  have hready : (i.pollTick r).2 = .ready i.nextTick := rfl
  have hperiod : 0 < i.period.asNanos := by decide
  have hobserved : i.nextTick.nanos ≤ r.observed.nanos := by decide
  exact (pollTick_advances_iff hperiod hready hobserved).1.mpr (.inl (by decide))

/-- An interval in `Burst` whose next sum cannot be shown yields its deadline at every
poll from then on. -/
theorem ticks_stuck {i : Interval least} {readings : List (TickReadings least)}
    (hperiod : 0 < i.period.asNanos) (hburst : i.missedTickBehavior = .burst)
    (hshown : ¬ Representable least (i.nextTick.nanos + i.period.asNanos))
    (hdue : ∀ r ∈ readings, i.nextTick.nanos ≤ r.now.nanos) :
    i.ticks readings = List.replicate readings.length i.nextTick := by
  induction readings generalizing i with
  | nil => rfl
  | cons r readings ih =>
      have hzero : i.period.isZero = false := by
        rw [Bool.eq_false_iff, ne_eq, Duration.isZero_iff]
        omega
      have hnow := hdue r List.mem_cons_self
      have hpoll : (i.pollTick r).2 = .ready i.nextTick ∧
          (i.pollTick r).1.nextTick = i.nextTick ∧ (i.pollTick r).1.period = i.period ∧
          (i.pollTick r).1.missedTickBehavior = .burst := by
        rw [pollTick, hzero, hburst]
        have hlate : ¬ (r.now.nanos < i.nextTick.nanos) := by omega
        cases i.firstTick <;> simp [hlate, nextDeadline, addInstant_eq_self hshown]
      obtain ⟨hready, hnext, hsame, hmode⟩ := hpoll
      rw [ticks, hready]
      have hrest := ih (i := (i.pollTick r).1) (hsame ▸ hperiod) hmode
        (by rwa [hnext, hsame]) fun s hs => by
          rw [hnext]
          exact hdue s (List.mem_cons_of_mem r hs)
      rw [hnext] at hrest
      rw [List.length_cons, List.replicate_succ, ← hrest]

/-- Thirty hours after boot, a clock that counts signed 64-bit seconds: every poll at the instant
of the first tick yields it again. -/
theorem interval_max_ticks_without_end :
    let i : Interval (-(2 ^ 63 * 10 ^ 9)) :=
      interval ⟨10 ^ 14, by decide, by decide⟩ Duration.max
    let r : TickReadings _ := ⟨i.nextTick, i.nextTick, true⟩
    0 < i.period.asNanos ∧ (i.pollTick r).2 = .ready i.nextTick ∧
      ¬ Advances i.behaviorOfTick i.nextTick r.observed i.period (i.pollTick r).1.nextTick ∧
      ∀ n, i.ticks (List.replicate n r) = List.replicate n i.nextTick := by
  intro i r
  have hperiod : 0 < i.period.asNanos := by decide
  refine ⟨hperiod, by decide, fun h => absurd h.later (by decide), fun n => ?_⟩
  have hdue : ∀ reading ∈ List.replicate n r, i.nextTick.nanos ≤ reading.now.nanos := by
    intro reading hreading
    exact Int.le_of_eq (congrArg (·.now.nanos) (List.eq_of_mem_replicate hreading)).symm
  have hstuck := ticks_stuck hperiod rfl (by decide) hdue
  rwa [List.length_replicate] at hstuck

end Interval

end Runite.Time
