import Runite.Time.Duration

/-!
# Kernel timeouts

The way of a requested duration to the kernel: `deadline_from_now`, the sleeps of
the hyper timer, the timeouts of sockets, and the `timespec` that the io_uring and
kqueue backends hand over.  The last step narrows an unsigned count of seconds to a
signed one, so everything that is asked reaches the kernel exactly when it ends
within `2 ^ 63` seconds.
-/

namespace Runite.Time

variable {least : Int}

/-! ## Data -/

/-- `KernelTimespec` and `libc::timespec`. -/
structure KernelTimespec where
  tvSec : Int64
  tvNsec : Int64
  deriving DecidableEq

def KernelTimespec.nanos (t : KernelTimespec) : Int := t.tvSec.toInt * nanosPerSec + t.tvNsec.toInt

/-- A reading of `CLOCK_MONOTONIC`. -/
structure ClockReading where
  tvSec : Int64
  tvNsec : Nat
  tvSec_nonneg : 0 ≤ tvSec.toInt
  tvNsec_lt : tvNsec < nanosPerSec

def timespecLimit : Nat := 2 ^ 63 * nanosPerSec

/-- The largest time that a `timespec` denotes. -/
def largestTimespec : Nat := timespecLimit - 1

/-! ## Conversions -/

def ClockReading.monotonicNow (c : ClockReading) : Duration :=
  ⟨c.tvSec.toUInt64, c.tvNsec, c.tvNsec_lt⟩

/-- `deadline_from_now`, with the reading of the clock. -/
def deadlineFromNow (now delay : Duration) : Duration := (now.checkedAdd delay).getD Duration.max

def durationToKernelTimespec (duration : Duration) : KernelTimespec where
  tvSec := duration.secs.toInt64
  tvNsec := Int64.ofNat duration.nanos

def timeoutToTimespec (timeout : Option Duration) : Option KernelTimespec :=
  timeout.map fun value => ⟨value.secs.toInt64, Int64.ofNat value.nanos⟩

/-! ## Requests -/

inductive Backend
  | linux
  | macos
  deriving DecidableEq

/-- What a duration is asked for: a timer of the runtime (`sleep`, `timeout`,
`set_timeout`), a timeout of a socket, or a sleep of hyper's timer. -/
inductive RequestKind
  | timer
  | socket
  | hyper
  deriving DecidableEq

/-- What the clocks show on the way: `Instant::now()` when hyper asks for the sleep
and when it is first polled, the clock of the deadline, and that of the wait. -/
structure Readings (least : Int) where
  asked : Instant least
  polled : Instant least
  now : ClockReading
  waited : ClockReading

inductive Outcome
  | panicked
  | elapsed
  /-- `none` waits without a limit. -/
  | armed (timespec : Option KernelTimespec)
  deriving DecidableEq

/-- The kernel timeout of a timer that is set for `delay`: the io_uring backend hands
over the deadline itself, kqueue what is left of it at the wait. -/
def setTimeout (backend : Backend) (r : Readings least) (delay : Duration) : Outcome :=
  let deadline := deadlineFromNow r.now.monotonicNow delay
  match backend with
  | .linux => .armed (some (durationToKernelTimespec deadline))
  | .macos =>
      .armed (timeoutToTimespec ((some deadline).map (·.saturatingSub r.waited.monotonicNow)))

def validateTimeout (timeout : Duration) : Bool := !timeout.isZero

def validateOptionalTimeout (timeout : Option Duration) : Bool := timeout.all validateTimeout

/-- An operation on a socket with a timeout: a linked timeout of io_uring, or the
runtime's timer. -/
def socketTimeout (backend : Backend) (r : Readings least) (timeout : Duration) : Outcome :=
  match backend with
  | .linux => .armed (some (durationToKernelTimespec timeout))
  | .macos => setTimeout .macos r timeout

/-- `RuniteTimer::sleep` and the first `RuniteSleep::poll`. -/
def hyperSleep (backend : Backend) (r : Readings least) (duration : Duration) : Outcome :=
  match r.asked.checkedAdd duration with
  | none => .panicked
  | some deadline =>
      let remaining := deadline.saturatingDurationSince r.polled
      if remaining.isZero then .elapsed else setTimeout backend r remaining

def kernelTimeout (backend : Backend) (kind : RequestKind) (r : Readings least)
    (duration : Duration) : Outcome :=
  match kind with
  | .timer => setTimeout backend r duration
  | .socket => socketTimeout backend r duration
  | .hyper => hyperSleep backend r duration

/-! ## The time that is asked for -/

/-- The nanoseconds that are still to pass when the runtime's timer is set. -/
def delayOf (kind : RequestKind) (r : Readings least) (duration : Duration) : Nat :=
  match kind with
  | .hyper => (r.asked.nanos + duration.asNanos - r.polled.nanos).toNat
  | .timer | .socket => duration.asNanos

/-- The time that the kernel is to be given, in exact nanoseconds: a point of the
clock for a timer of io_uring, else a span. -/
def requested (backend : Backend) (kind : RequestKind) (r : Readings least)
    (duration : Duration) : Nat :=
  match backend, kind with
  | .linux, .socket => duration.asNanos
  | .linux, .timer | .linux, .hyper => r.now.monotonicNow.asNanos + delayOf kind r duration
  | .macos, _ =>
      r.now.monotonicNow.asNanos + delayOf kind r duration - r.waited.monotonicNow.asNanos

/-- The timeout is built, well formed, denotes the requested time or else the largest
one there is, and is not before that of a shorter request. -/
structure Faithful (backend : Backend) (kind : RequestKind) (r : Readings least)
    (duration : Duration) (t : KernelTimespec) : Prop where
  sec_nonneg : 0 ≤ t.tvSec.toInt
  nsec_nonneg : 0 ≤ t.tvNsec.toInt
  nsec_lt : t.tvNsec.toInt < nanosPerSec
  exact_or_largest : t.nanos = (min (requested backend kind r duration) largestTimespec : Nat)
  monotone : ∀ shorter : Duration, shorter.asNanos ≤ duration.asNanos → ∀ t',
    kernelTimeout backend kind r shorter = .armed (some t') → t'.nanos ≤ t.nanos

/-- What a request is to come to; one that has elapsed has nothing left to wait for. -/
def Outcome.Honours (backend : Backend) (kind : RequestKind) (r : Readings least)
    (duration : Duration) : Outcome → Prop
  | .panicked => False
  | .elapsed => delayOf kind r duration = 0
  | .armed none => False
  | .armed (some t) => Faithful backend kind r duration t

/-- The request ends within the seconds that the kernel can count, and for hyper at
an instant that the clock can show. -/
def Fits (backend : Backend) (kind : RequestKind) (r : Readings least) (duration : Duration) :
    Prop :=
  match kind with
  | .timer | .socket => requested backend kind r duration < timespecLimit
  | .hyper =>
      Representable least (r.asked.nanos + duration.asNanos) ∧
        (0 < delayOf .hyper r duration → requested backend .hyper r duration < timespecLimit)

/-! ## What the conversion denotes -/

theorem lt_timespecLimit {d : Duration} : d.asNanos < timespecLimit ↔ d.secs.toNat < 2 ^ 63 := by
  have hnanos := d.nanos_lt
  unfold Duration.asNanos timespecLimit nanosPerSec at *
  omega

theorem toInt_secs (d : Duration) :
    d.secs.toInt64.toInt = if d.secs.toNat < 2 ^ 63 then (d.secs.toNat : Int)
      else (d.secs.toNat : Int) - 2 ^ 64 := by
  have hvalue : d.secs.toInt64.toInt = d.secs.toBitVec.toInt := rfl
  have hnat : d.secs.toBitVec.toNat = d.secs.toNat := rfl
  rw [hvalue, BitVec.toInt_eq_toNat_cond, hnat]
  split <;> split <;> omega

/-- The seconds of the kernel are negative from the limit on. -/
theorem tvSec_nonneg_iff {d : Duration} :
    0 ≤ (durationToKernelTimespec d).tvSec.toInt ↔ d.asNanos < timespecLimit := by
  have hsecs := d.secs.toNat_lt
  rw [lt_timespecLimit]
  show 0 ≤ d.secs.toInt64.toInt ↔ _
  rw [toInt_secs]
  split <;> omega

theorem toInt_tvNsec (d : Duration) : (durationToKernelTimespec d).tvNsec.toInt = d.nanos := by
  have hnanos := d.nanos_lt
  unfold nanosPerSec at hnanos
  exact Int64.toInt_ofNat_of_lt (by omega)

theorem nanos_durationToKernelTimespec {d : Duration} (h : d.asNanos < timespecLimit) :
    (durationToKernelTimespec d).nanos = d.asNanos := by
  rw [KernelTimespec.nanos, toInt_tvNsec]
  show d.secs.toInt64.toInt * nanosPerSec + d.nanos = _
  rw [toInt_secs, if_pos (lt_timespecLimit.mp h), Duration.asNanos]
  push_cast
  rfl

/-! ## What is converted -/

/-- The duration is the time that was asked for, or both are past what the kernel
can count. -/
def StandsFor (d : Duration) (asked : Nat) : Prop :=
  d.asNanos = asked ∨ timespecLimit ≤ d.asNanos ∧ timespecLimit ≤ asked

theorem ClockReading.asNanos_lt (c : ClockReading) : c.monotonicNow.asNanos < timespecLimit := by
  rw [lt_timespecLimit]
  show c.tvSec.toUInt64.toNat < 2 ^ 63
  have hnonneg := c.tvSec_nonneg
  have hbits : c.tvSec.toInt = c.tvSec.toUInt64.toBitVec.toInt := rfl
  have hnat : c.tvSec.toUInt64.toBitVec.toNat = c.tvSec.toUInt64.toNat := rfl
  rw [hbits, BitVec.toInt_eq_toNat_cond, hnat] at hnonneg
  have hlt := c.tvSec.toUInt64.toNat_lt
  split at hnonneg <;> omega

theorem asNanos_deadlineFromNow (now delay : Duration) :
    (deadlineFromNow now delay).asNanos = min (now.asNanos + delay.asNanos) (durationLimit - 1) := by
  rw [deadlineFromNow, Duration.checkedAdd]
  split
  next h =>
    rw [Option.getD_some, Duration.asNanos_ofNanos h]
    omega
  next h =>
    rw [Option.getD_none, Duration.asNanos_max]
    omega

theorem setTimeout_standsFor (backend : Backend) (r : Readings least) (delay : Duration) :
    ∃ d, setTimeout backend r delay = .armed (some (durationToKernelTimespec d)) ∧
      StandsFor d (requested backend .timer r delay) := by
  have htwice : durationLimit = 2 * timespecLimit := by decide
  have hpos : 0 < timespecLimit := by decide
  have hdeadline := asNanos_deadlineFromNow r.now.monotonicNow delay
  cases backend with
  | linux =>
      refine ⟨deadlineFromNow r.now.monotonicNow delay, rfl, ?_⟩
      rw [StandsFor, requested, delayOf]
      omega
  | macos =>
      have hwaited := r.waited.asNanos_lt
      refine ⟨(deadlineFromNow r.now.monotonicNow delay).saturatingSub r.waited.monotonicNow,
        rfl, ?_⟩
      rw [StandsFor, requested, delayOf, Duration.asNanos_saturatingSub]
      omega

theorem kernelTimeout_cases (backend : Backend) (kind : RequestKind) (r : Readings least)
    (duration : Duration) :
    kind = .hyper ∧ ¬ Representable least (r.asked.nanos + duration.asNanos) ∧
        kernelTimeout backend kind r duration = .panicked ∨
      kind = .hyper ∧ Representable least (r.asked.nanos + duration.asNanos) ∧
        delayOf kind r duration = 0 ∧ kernelTimeout backend kind r duration = .elapsed ∨
      (kind = .hyper → Representable least (r.asked.nanos + duration.asNanos) ∧
          0 < delayOf kind r duration) ∧
        ∃ d, kernelTimeout backend kind r duration = .armed (some (durationToKernelTimespec d)) ∧
          StandsFor d (requested backend kind r duration) := by
  cases kind with
  | timer => exact .inr (.inr ⟨nofun, setTimeout_standsFor backend r duration⟩)
  | socket =>
      cases backend with
      | linux => exact .inr (.inr ⟨nofun, duration, rfl, .inl rfl⟩)
      | macos => exact .inr (.inr ⟨nofun, setTimeout_standsFor .macos r duration⟩)
  | hyper =>
      rw [kernelTimeout, hyperSleep]
      cases hadd : r.asked.checkedAdd duration with
      | none => exact .inl ⟨rfl, Instant.checkedAdd_eq_none.mp hadd, rfl⟩
      | some deadline =>
          have hnanos := Instant.nanos_of_checkedAdd hadd
          have hshown : Representable least (r.asked.nanos + duration.asNanos) := by
            rw [← hnanos]
            exact deadline.lt_limit
          have hdelay := Instant.asNanos_saturatingDurationSince deadline r.polled
          rw [hnanos] at hdelay
          dsimp only
          cases hzero : (deadline.saturatingDurationSince r.polled).isZero with
          | true =>
              rw [Duration.isZero_iff, hdelay] at hzero
              exact .inr (.inl ⟨rfl, hshown, hzero, rfl⟩)
          | false =>
              rw [Bool.eq_false_iff, ne_eq, Duration.isZero_iff, hdelay] at hzero
              obtain ⟨d, hd, hstands⟩ :=
                setTimeout_standsFor backend r (deadline.saturatingDurationSince r.polled)
              refine .inr (.inr ⟨fun _ => ⟨hshown, Nat.pos_of_ne_zero hzero⟩, d, hd, ?_⟩)
              cases backend <;> simpa only [requested, delayOf, hdelay] using hstands

theorem requested_mono {backend : Backend} {kind : RequestKind} {r : Readings least}
    {shorter duration : Duration} (h : shorter.asNanos ≤ duration.asNanos) :
    requested backend kind r shorter ≤ requested backend kind r duration := by
  have hdelay : delayOf kind r shorter ≤ delayOf kind r duration := by
    cases kind <;> simp only [delayOf] <;> omega
  cases backend <;> cases kind <;> simp only [requested] <;> omega

/-! ## Requests that fit -/

variable {backend : Backend} {kind : RequestKind} {r : Readings least} {duration : Duration}

/-- What stands for a time within the limit is converted exactly. -/
theorem StandsFor.nanos {d : Duration} {asked : Nat} (h : StandsFor d asked)
    (hasked : asked < timespecLimit) : (durationToKernelTimespec d).nanos = asked := by
  have heq : d.asNanos = asked := by
    unfold StandsFor at h
    omega
  rw [nanos_durationToKernelTimespec (by omega), heq]

theorem faithful_iff {d : Duration} (hstands : StandsFor d (requested backend kind r duration)) :
    Faithful backend kind r duration (durationToKernelTimespec d) ↔
      requested backend kind r duration < timespecLimit := by
  constructor
  · intro hfaithful
    have hsec := tvSec_nonneg_iff.mp hfaithful.sec_nonneg
    unfold StandsFor at hstands
    omega
  · intro hasked
    have hlimit : d.asNanos < timespecLimit := by
      unfold StandsFor at hstands
      omega
    have hnanos := hstands.nanos hasked
    exact
      { sec_nonneg := tvSec_nonneg_iff.mpr hlimit
        nsec_nonneg := by
          rw [toInt_tvNsec]
          omega
        nsec_lt := by
          rw [toInt_tvNsec]
          exact_mod_cast d.nanos_lt
        exact_or_largest := by
          rw [hnanos, largestTimespec]
          omega
        monotone := fun shorter hshorter t' ht' => by
          have hmono : requested backend kind r shorter ≤ requested backend kind r duration :=
            requested_mono hshorter
          obtain ⟨-, -, h⟩ | ⟨-, -, -, h⟩ | ⟨-, d', h, hstands'⟩ :=
            kernelTimeout_cases backend kind r shorter
          · cases h.symm.trans ht'
          · cases h.symm.trans ht'
          · obtain rfl : durationToKernelTimespec d' = t' := by
              rw [h] at ht'
              cases ht'
              rfl
            rw [hstands'.nanos (by omega), hnanos]
            exact_mod_cast hmono }

/-- A request is honoured exactly when it fits. -/
theorem kernelTimeout_honours_iff :
    (kernelTimeout backend kind r duration).Honours backend kind r duration ↔
      Fits backend kind r duration := by
  obtain ⟨rfl, hshown, h⟩ | ⟨rfl, hshown, hdelay, h⟩ | ⟨hhyper, d, h, hstands⟩ :=
    kernelTimeout_cases backend kind r duration
  · rw [h]
    exact ⟨nofun, fun hfits => hshown hfits.1⟩
  · rw [h]
    exact ⟨fun _ => ⟨hshown, fun hpos => by omega⟩, fun _ => hdelay⟩
  · rw [h]
    show Faithful backend kind r duration (durationToKernelTimespec d) ↔ _
    rw [faithful_iff hstands]
    cases kind with
    | timer => exact Iff.rfl
    | socket => exact Iff.rfl
    | hyper =>
        obtain ⟨hshown, hpos⟩ := hhyper rfl
        exact ⟨fun hasked => ⟨hshown, fun _ => hasked⟩, fun hfits => hfits.2 hpos⟩

theorem nanosPerSec_pos : 0 < nanosPerSec := by decide

/-- Thirty hours after boot, on clocks that count signed 64-bit seconds. -/
def hours : Readings (-(2 ^ 63 * 10 ^ 9)) :=
  let now : ClockReading := ⟨100000, 0, by decide, nanosPerSec_pos⟩
  ⟨⟨10 ^ 14, by decide, by decide⟩, ⟨10 ^ 14, by decide, by decide⟩, now, now⟩

/-- `Duration::MAX` is narrowed to a second before the origin of the clock, or
panics. -/
theorem max_not_honoured :
    kernelTimeout .linux .timer hours .max = .armed (some ⟨-1, 999999999⟩) ∧
      kernelTimeout .linux .socket hours .max = .armed (some ⟨-1, 999999999⟩) ∧
      kernelTimeout .linux .hyper hours .max = .panicked ∧
      ¬ (kernelTimeout .linux .timer hours .max).Honours .linux .timer hours .max ∧
      ¬ (kernelTimeout .linux .socket hours .max).Honours .linux .socket hours .max ∧
      ¬ (kernelTimeout .linux .hyper hours .max).Honours .linux .hyper hours .max := by
  refine ⟨by decide, by decide, by decide, fun h => ?_, fun h => ?_, fun h => h⟩
  · exact absurd h.sec_nonneg (by decide)
  · exact absurd h.sec_nonneg (by decide)

end Runite.Time
