import Runite.Time.Sleep

/-!
# What a sleep promises

A sleep is woken once, by its last waker and not before its deadline; a poll says that it is
ready from then on, and not before; a sleep that is dropped is not woken.  `Phase` has what the
state knows of one sleep, and each step moves one sleep from phase to phase.
-/

namespace Runite.Time

open Runite.Runtime

/-- The waker of the last poll that said pending. -/
def lastWaker (i : Nat) (log : List SleepEvent) : Option Waker :=
  log.findSome? fun
    | .pending j waker => if j = i then some waker else none
    | _ => none

/-- The event follows the rules, given what happened before. -/
def SleepEvent.Allowed (earlier : List SleepEvent) : SleepEvent → Prop
  | .created i _ => ∀ e ∈ earlier, e.sleep ≠ i
  | .armed i _ _ delay =>
      .created i delay ∈ earlier ∧ .dropped i ∉ earlier ∧
        ∀ id now delay', .armed i id now delay' ∉ earlier
  | .pending i _ =>
      (∃ id now delay, .armed i id now delay ∈ earlier) ∧ .dropped i ∉ earlier ∧
        ∀ waker clock, .woken i waker clock ∉ earlier
  | .woken i waker clock =>
      (∃ id now delay, .armed i id now delay ∈ earlier ∧ saturatingAdd now delay ≤ clock) ∧
        lastWaker i earlier = some waker ∧ .dropped i ∉ earlier ∧
        ∀ waker' clock', .woken i waker' clock' ∉ earlier
  | .ready i =>
      (∃ waker clock, .woken i waker clock ∈ earlier) ∧ .dropped i ∉ earlier ∧
        .ready i ∉ earlier
  | .dropped i => .dropped i ∉ earlier

def SleepContract : List SleepEvent → Prop
  | [] => True
  | e :: earlier => e.Allowed earlier ∧ SleepContract earlier

theorem SleepContract.armed_unique {log : List SleepEvent} {i id id' now now' delay delay' : Nat}
    (h : SleepContract log) (harmed : .armed i id now delay ∈ log)
    (harmed' : .armed i id' now' delay' ∈ log) : id = id' ∧ now = now' ∧ delay = delay' := by
  induction log with
  | nil => exact absurd harmed List.not_mem_nil
  | cons e earlier ih =>
      obtain ⟨hallowed, hearlier⟩ := h
      rcases List.mem_cons.mp harmed with rfl | hold
      · rcases List.mem_cons.mp harmed' with heq | hold'
        · obtain ⟨-, rfl, rfl, rfl⟩ := SleepEvent.armed.inj heq
          exact ⟨rfl, rfl, rfl⟩
        · exact absurd hold' (hallowed.2.2 _ _ _)
      · rcases List.mem_cons.mp harmed' with rfl | hold'
        · exact absurd hold (hallowed.2.2 _ _ _)
        · exact ih hearlier hold hold'

theorem lastWaker_cons_of_ne {i : Nat} {e : SleepEvent} {log : List SleepEvent}
    (hne : e.sleep ≠ i) : lastWaker i (e :: log) = lastWaker i log := by
  unfold lastWaker
  rw [List.findSome?_cons]
  cases e with
  | pending j waker => simp [show j ≠ i from hne]
  | _ => rfl

theorem lastWaker_pending {i : Nat} {waker : Waker} {log : List SleepEvent} :
    lastWaker i (.pending i waker :: log) = some waker := by
  simp [lastWaker]

namespace Sleeps

variable {s t : Sleeps} {i j id now delay : Nat} {waker : Waker} {e : SleepEvent}

/-! ## The phases of a sleep -/

inductive Phase (s : Sleeps) (i : Nat) : Prop
  | absent
      (hcreated : ¬ i < s.created)
      (hsleep : s.sleeps i = none)
      (hlog : ∀ e ∈ s.log, e.sleep ≠ i)
      (hcallback : ∀ id, s.callbacks id ≠ some i)
  | fresh (delay : Nat)
      (hcreated : i < s.created)
      (hsleep : s.sleeps i = some { delay := some delay })
      (hdelay : .created i delay ∈ s.log)
      (hlog : ∀ e ∈ s.log, e.sleep = i → e = .created i delay)
      (hcallback : ∀ id, s.callbacks id ≠ some i)
  | waiting (id now delay : Nat) (waker : Waker)
      (hcreated : i < s.created)
      (hsleep : s.sleeps i = some ⟨none, some i, some ⟨id, s.timers.generation⟩, false⟩)
      (harmed : .armed i id now delay ∈ s.log)
      (hlast : lastWaker i s.log = some waker)
      (hlog : ∀ e ∈ s.log, e.sleep = i →
        e ≠ .dropped i ∧ e ≠ .ready i ∧ ∀ waker clock, e ≠ .woken i waker clock)
      (hstate : s.states i = ⟨false, some waker⟩)
      (hcallback : ∀ id', s.callbacks id' = some i ↔ id' = id)
      (htimeout : .timeout id (saturatingAdd now delay) ∈ s.timers.history)
      (hlive : s.timers.liveTimeouts id = true)
  | woken (id clock : Nat) (waker : Waker)
      (hcreated : i < s.created)
      (hsleep : s.sleeps i = some ⟨none, some i, some ⟨id, s.timers.generation⟩, false⟩)
      (hwoken : .woken i waker clock ∈ s.log)
      (hlog : ∀ e ∈ s.log, e.sleep = i → e ≠ .dropped i ∧ e ≠ .ready i)
      (hstate : s.states i = ⟨true, none⟩)
      (hown : s.callbacks id = some i)
      (hcallback : ∀ id', s.callbacks id' = some i → s.timers.liveTimeouts id' = false)
  | completed (clock : Nat) (waker : Waker)
      (hcreated : i < s.created)
      (hsleep : s.sleeps i = some ⟨none, none, none, true⟩)
      (hwoken : .woken i waker clock ∈ s.log)
      (hlog : ∀ e ∈ s.log, e.sleep = i → e ≠ .dropped i)
      (hcallback : ∀ id', s.callbacks id' = some i → s.timers.liveTimeouts id' = false)
  | dropped
      (hcreated : i < s.created)
      (hsleep : s.sleeps i = none)
      (hdropped : .dropped i ∈ s.log)
      (hcallback : ∀ id', s.callbacks id' = some i → s.timers.liveTimeouts id' = false)

structure Untouched (s t : Sleeps) (i : Nat) : Prop where
  created : i < t.created ↔ i < s.created
  sleep : t.sleeps i = s.sleeps i
  state : t.states i = s.states i
  log : ∃ events, t.log = events ++ s.log ∧ ∀ e ∈ events, e.sleep ≠ i
  callback : ∀ id, t.callbacks id = some i ↔ s.callbacks id = some i
  grows : Timers.Grows s.timers t.timers
  generation : t.timers.generation = s.timers.generation
  live : ∀ id, s.callbacks id = some i → s.timers.liveTimeouts id = true →
    t.timers.liveTimeouts id = true

theorem Untouched.mem_log (h : Untouched s t i) (he : e ∈ s.log) : e ∈ t.log := by
  obtain ⟨events, heq, -⟩ := h.log
  rw [heq]
  exact List.mem_append_right events he

theorem Untouched.of_mem_log (h : Untouched s t i) (he : e ∈ t.log) (hi : e.sleep = i) :
    e ∈ s.log := by
  obtain ⟨events, heq, hne⟩ := h.log
  rw [heq] at he
  exact (List.mem_append.mp he).resolve_left fun hnew => hne e hnew hi

theorem Untouched.lastWaker (h : Untouched s t i) : lastWaker i t.log = lastWaker i s.log := by
  obtain ⟨events, heq, hne⟩ := h.log
  rw [heq]
  clear heq
  induction events with
  | nil => rfl
  | cons e events ih =>
      rw [List.cons_append, lastWaker_cons_of_ne (hne e List.mem_cons_self)]
      exact ih fun e' he' => hne e' (List.mem_cons_of_mem e he')

/-- The callbacks are of timeouts that exist. -/
def Registered (s : Sleeps) : Prop :=
  ∀ id i, s.callbacks id = some i → id < s.timers.nextTimerId

theorem Phase.mono (h : s.Phase i) (hregistered : s.Registered) (hframe : Untouched s t i) :
    t.Phase i := by
  have hdead : (∀ id, s.callbacks id = some i → s.timers.liveTimeouts id = false) →
      ∀ id, t.callbacks id = some i → t.timers.liveTimeouts id = false := by
    intro hdead id hid
    have hold := (hframe.callback id).mp hid
    exact hframe.grows.dead id (hregistered id i hold) (hdead id hold)
  cases h with
  | absent hcreated hsleep hlog hcallback =>
      exact .absent (mt hframe.created.mp hcreated) (hframe.sleep.trans hsleep)
        (fun e he hi => hlog e (hframe.of_mem_log he hi) hi)
        (fun id hid => hcallback id ((hframe.callback id).mp hid))
  | fresh delay hcreated hsleep hdelay hlog hcallback =>
      exact .fresh delay (hframe.created.mpr hcreated) (hframe.sleep.trans hsleep)
        (hframe.mem_log hdelay) (fun e he hi => hlog e (hframe.of_mem_log he hi) hi)
        (fun id hid => hcallback id ((hframe.callback id).mp hid))
  | waiting id now delay waker hcreated hsleep harmed hlast hlog hstate hcallback htimeout hlive =>
      refine .waiting id now delay waker (hframe.created.mpr hcreated) ?_ (hframe.mem_log harmed)
        (hframe.lastWaker.trans hlast) (fun e he hi => hlog e (hframe.of_mem_log he hi) hi)
        (hframe.state.trans hstate) (fun id' => (hframe.callback id').trans (hcallback id'))
        (hframe.grows.history _ htimeout) (hframe.live id ((hcallback id).mpr rfl) hlive)
      rw [hframe.sleep, hframe.generation]
      exact hsleep
  | woken id clock waker hcreated hsleep hwoken hlog hstate hown hcallback =>
      refine .woken id clock waker (hframe.created.mpr hcreated) ?_ (hframe.mem_log hwoken)
        (fun e he hi => hlog e (hframe.of_mem_log he hi) hi) (hframe.state.trans hstate)
        ((hframe.callback id).mpr hown) (hdead hcallback)
      rw [hframe.sleep, hframe.generation]
      exact hsleep
  | completed clock waker hcreated hsleep hwoken hlog hcallback =>
      exact .completed clock waker (hframe.created.mpr hcreated) (hframe.sleep.trans hsleep)
        (hframe.mem_log hwoken) (fun e he hi => hlog e (hframe.of_mem_log he hi) hi)
        (hdead hcallback)
  | dropped hcreated hsleep hdropped hcallback =>
      exact .dropped (hframe.created.mpr hcreated) (hframe.sleep.trans hsleep)
        (hframe.mem_log hdropped) (hdead hcallback)

/-! ## The invariant -/

structure Inv (s : Sleeps) : Prop where
  sound : s.timers.Sound
  placed : s.timers.Placed
  contract : SleepContract s.log
  phase : ∀ i, s.Phase i
  registered : s.Registered
  armed : ∀ i id now delay, .armed i id now delay ∈ s.log → s.callbacks id = some i

theorem Inv.init (generation : Nat) : Inv { timers := { generation } } where
  sound := .init generation
  placed := .init generation
  contract := trivial
  phase := fun i => .absent (Nat.not_lt_zero i) rfl (by simp) (by simp)
  registered := by simp [Registered]
  armed := by simp

theorem Inv.of_phase (h : s.Inv) (i : Nat) (hothers : ∀ j, j ≠ i → Untouched s t j)
    (hphase : t.Phase i) (hsound : t.timers.Sound) (hplaced : t.timers.Placed)
    (hcontract : SleepContract t.log) (hregistered : t.Registered)
    (harmed : ∀ i id now delay, .armed i id now delay ∈ t.log → t.callbacks id = some i) :
    t.Inv where
  sound := hsound
  placed := hplaced
  contract := hcontract
  phase := by
    intro j
    by_cases hj : j = i
    · exact hj ▸ hphase
    · exact (h.phase j).mono h.registered (hothers j hj)
  registered := hregistered
  armed := harmed

theorem Inv.of_local (h : s.Inv) (i : Nat)
    (hothers : ∀ j, j ≠ i → Untouched s t j) (hphase : t.Phase i) (htimers : t.timers = s.timers)
    (hcallbacks : t.callbacks = s.callbacks) (hlog : t.log = e :: s.log)
    (hallowed : e.Allowed s.log) (harmed : ∀ i id now delay, e ≠ .armed i id now delay) : t.Inv := by
  refine h.of_phase i hothers hphase (htimers ▸ h.sound) (htimers ▸ h.placed) ?_ ?_ ?_
  · rw [hlog]
    exact ⟨hallowed, h.contract⟩
  · intro id i hid
    rw [hcallbacks] at hid
    rw [htimers]
    exact h.registered id i hid
  · intro i id now delay hmem
    rw [hlog] at hmem
    rw [hcallbacks]
    exact h.armed i id now delay ((List.mem_cons.mp hmem).resolve_left (harmed i id now delay).symm)

/-! ## Creation -/

theorem Inv.sleep (h : s.Inv) (duration : Nat) : (s.sleep duration).Inv := by
  cases h.phase s.created with
  | absent hcreated hsleep hlog hcallback =>
      refine h.of_local s.created (fun j hj => ?_) ?_ rfl rfl rfl hlog nofun
      · exact {
          created := by
            refine ⟨fun hlt => ?_, Nat.lt_succ_of_lt⟩
            exact Nat.lt_of_le_of_ne (Nat.le_of_lt_succ hlt) hj
          sleep := Function.update_of_ne hj _ _
          state := rfl
          log := ⟨[_], rfl, fun e he => List.mem_singleton.mp he ▸ Ne.symm hj⟩
          callback := fun _ => Iff.rfl
          grows := .refl _
          generation := rfl
          live := fun _ _ hlive => hlive }
      · refine .fresh duration (Nat.lt_succ_self _) (Function.update_self _ _ _)
          List.mem_cons_self (fun e he hi => ?_) hcallback
        exact (List.mem_cons.mp he).resolve_right fun hold => hlog e hold hi
  | fresh _ hcreated => exact absurd hcreated (Nat.lt_irrefl _)
  | waiting _ _ _ _ hcreated => exact absurd hcreated (Nat.lt_irrefl _)
  | woken _ _ _ hcreated => exact absurd hcreated (Nat.lt_irrefl _)
  | completed _ _ hcreated => exact absurd hcreated (Nat.lt_irrefl _)
  | dropped hcreated => exact absurd hcreated (Nat.lt_irrefl _)

/-! ## Polls -/

/-- The other sleeps, where only the sleep and its state change. -/
theorem Untouched.of_update (sleep : Option Sleep) (state : SleepState) (events : List SleepEvent)
    (hevents : ∀ e ∈ events, e.sleep = i) (hj : j ≠ i) :
    Untouched s { s with
      sleeps := Function.update s.sleeps i sleep
      states := Function.update s.states i state
      log := events ++ s.log } j where
  created := Iff.rfl
  sleep := Function.update_of_ne hj _ _
  state := Function.update_of_ne hj _ _
  log := ⟨events, rfl, fun e he => (hevents e he).trans_ne (Ne.symm hj)⟩
  callback := fun _ => Iff.rfl
  grows := .refl _
  generation := rfl
  live := fun _ _ hlive => hlive

theorem check_of_not_ready (hready : (s.states i).ready = false) :
    s.check i waker =
      ({ s with
        states := Function.update s.states i ⟨false, some waker⟩
        log := .pending i waker :: s.log }, .pending) := by
  unfold check
  rw [if_neg (by simp [hready])]
  dsimp only
  rw [hready, if_neg (by rw [Function.update_self]; exact Bool.false_ne_true)]

theorem check_of_ready (hready : (s.states i).ready = true) :
    s.check i waker = (s.finish i, .ready ()) := by
  unfold check
  rw [if_pos hready]

theorem poll_of_completed (hsleep : s.sleeps i = some ⟨none, none, none, true⟩) :
    s.poll i waker now = some (s, .ready ()) := by
  simp [poll, hsleep]

theorem poll_of_armed {handle : Option TimeoutHandle}
    (hsleep : s.sleeps i = some ⟨none, some i, handle, false⟩) :
    s.poll i waker now = some (s.check i waker) := by
  simp [poll, hsleep]

theorem poll_of_fresh {r : Sleeps × Poll Unit} (hsleep : s.sleeps i = some { delay := some delay })
    (hpoll : s.poll i waker now = some r) :
    s.timers.step (.timeout now delay) = some (s.timers.timeout now delay) ∧
      r = ({ s with
        timers := s.timers.timeout now delay
        sleeps := Function.update s.sleeps i
          (some ⟨none, some i, some ⟨s.timers.nextTimerId, s.timers.generation⟩, false⟩)
        states := Function.update s.states i ⟨false, some waker⟩
        callbacks := Function.update s.callbacks s.timers.nextTimerId (some i)
        log := .pending i waker :: .armed i s.timers.nextTimerId now delay :: s.log }, .pending) := by
  unfold poll at hpoll
  rw [hsleep] at hpoll
  change (s.arm i { delay := some delay } now).bind (fun s => some (s.check i waker)) = some r at hpoll
  obtain ⟨armed, harm, hcheck⟩ := Option.bind_eq_some_iff.mp hpoll
  obtain ⟨timers, hstep, harmed⟩ := Option.bind_eq_some_iff.mp harm
  have htimers : timers = s.timers.timeout now delay := by
    obtain ⟨result, hact, rfl⟩ := Option.map_eq_some_iff.mp hstep
    obtain ⟨-, hs⟩ := Option.ite_none_right_eq_some.mp hact
    exact (congrArg Prod.fst (Option.some.inj hs)).symm
  subst htimers
  refine ⟨hstep, ?_⟩
  rw [← Option.some.inj hcheck, ← Option.some.inj harmed, check_of_not_ready]
  · dsimp only
    rw [Function.update_idem]
    rfl
  · exact congrArg SleepState.ready (Function.update_self i {} s.states)

theorem Inv.check (h : s.Inv) {handle : Option TimeoutHandle}
    (hsleep : s.sleeps i = some ⟨none, some i, handle, false⟩) : (s.check i waker).1.Inv := by
  cases h.phase i with
  | absent _ hnone => exact absurd (hsleep.symm.trans hnone) nofun
  | fresh _ _ hfresh => exact absurd (Option.some.inj (hsleep.symm.trans hfresh)) nofun
  | completed _ _ _ hdone => exact absurd (Option.some.inj (hsleep.symm.trans hdone)) nofun
  | dropped _ hnone => exact absurd (hsleep.symm.trans hnone) nofun
  | waiting id now delay last hcreated hsleep harmed hlast hlog hstate hcallback htimeout hlive =>
      rw [check_of_not_ready (by rw [hstate])]
      refine h.of_local i (fun j hj => ?_) ?_ rfl rfl rfl ?_ nofun
      · have hframe := Untouched.of_update (s := s) (s.sleeps i) ⟨false, some waker⟩
          [.pending i waker] (by simp [SleepEvent.sleep]) hj
        rwa [Function.update_eq_self] at hframe
      · refine .waiting id now delay waker hcreated hsleep (List.mem_cons_of_mem _ harmed)
          lastWaker_pending (fun e he hi => ?_) (Function.update_self _ _ _) hcallback htimeout hlive
        rcases List.mem_cons.mp he with rfl | hold
        · exact ⟨nofun, nofun, nofun⟩
        · exact hlog e hold hi
      · exact ⟨⟨id, now, delay, harmed⟩, fun hmem => (hlog _ hmem rfl).1 rfl,
          fun waker' clock hmem => (hlog _ hmem rfl).2.2 waker' clock rfl⟩
  | woken id clock last hcreated hsleep hwoken hlog hstate hown hcallback =>
      rw [check_of_ready (by rw [hstate])]
      refine h.of_local i (fun j hj => ?_) ?_ rfl rfl rfl ?_ nofun
      · have hframe := Untouched.of_update (s := s) ((s.sleeps i).map fun sleep =>
          { sleep with completed := true, state := none, handle := none }) (s.states i)
          [.ready i] (by simp [SleepEvent.sleep]) hj
        rwa [Function.update_eq_self] at hframe
      · refine .completed clock last hcreated ?_ (List.mem_cons_of_mem _ hwoken) (fun e he hi => ?_)
          hcallback
        · refine (Function.update_self _ _ _).trans ?_
          rw [hsleep]
          rfl
        · rcases List.mem_cons.mp he with rfl | hold
          · exact nofun
          · exact (hlog e hold hi).1
      · exact ⟨⟨last, clock, hwoken⟩, fun hmem => (hlog _ hmem rfl).1 rfl,
          fun hmem => (hlog _ hmem rfl).2 rfl⟩

theorem Inv.poll_fresh {r : Sleeps × Poll Unit} (h : s.Inv)
    (hsleep : s.sleeps i = some { delay := some delay })
    (hpoll : s.poll i waker now = some r) : r.1.Inv := by
  obtain ⟨hstep, rfl⟩ := poll_of_fresh hsleep hpoll
  obtain ⟨result, hact, htimers⟩ := Option.map_eq_some_iff.mp hstep
  have hnew : ∀ j, s.callbacks s.timers.nextTimerId ≠ some j :=
    fun j hj => Nat.lt_irrefl _ (h.registered _ j hj)
  cases h.phase i with
  | absent _ hnone => exact absurd (hsleep.symm.trans hnone) nofun
  | completed _ _ _ hdone => exact absurd (Option.some.inj (hsleep.symm.trans hdone)) nofun
  | dropped _ hnone => exact absurd (hsleep.symm.trans hnone) nofun
  | waiting _ _ _ _ _ hother => exact absurd (Option.some.inj (hsleep.symm.trans hother)) nofun
  | woken _ _ _ _ hother => exact absurd (Option.some.inj (hsleep.symm.trans hother)) nofun
  | fresh delay' hcreated hsleep' hdelay hlog hcallback =>
      obtain rfl : delay = delay' := by
        simpa using hsleep.symm.trans hsleep'
      have harmed : ∀ id now delay', .armed i id now delay' ∉ s.log :=
        fun id now delay' hmem => absurd (hlog _ hmem rfl) nofun
      refine h.of_phase i (fun j hj => ?_) ?_ (htimers ▸ h.sound.act hact)
        (htimers ▸ h.placed.act h.sound hact) ?_ ?_ ?_
      · exact {
          created := Iff.rfl
          sleep := Function.update_of_ne hj _ _
          state := Function.update_of_ne hj _ _
          log := ⟨[_, _], rfl, by simp [SleepEvent.sleep, Ne.symm hj]⟩
          callback := by
            intro id
            by_cases hid : id = s.timers.nextTimerId
            · subst hid
              dsimp only
              rw [Function.update_self]
              refine iff_of_false ?_ (hnew j)
              exact fun heq => hj (Option.some.inj heq).symm
            · dsimp only
              rw [Function.update_of_ne hid]
          grows := htimers ▸ Timers.grows_act hact
          generation := rfl
          live := by
            intro id hid hlive
            exact (Function.update_of_ne (Nat.ne_of_lt (h.registered id j hid)) _ _).trans hlive }
      · refine .waiting s.timers.nextTimerId now delay waker hcreated (Function.update_self _ _ _)
          (List.mem_cons_of_mem _ List.mem_cons_self) lastWaker_pending (fun e he hi => ?_)
          (Function.update_self _ _ _) (fun id => ?_) List.mem_cons_self (Function.update_self _ _ _)
        · rcases List.mem_cons.mp he with rfl | hrest
          · exact ⟨nofun, nofun, nofun⟩
          rcases List.mem_cons.mp hrest with rfl | hold
          · exact ⟨nofun, nofun, nofun⟩
          · rw [hlog e hold hi]
            exact ⟨nofun, nofun, nofun⟩
        · by_cases hid : id = s.timers.nextTimerId
          · subst hid
            exact iff_of_true (Function.update_self _ _ _) rfl
          · dsimp only
            rw [Function.update_of_ne hid]
            exact iff_of_false (hcallback id) hid
      · have hnotdropped : .dropped i ∉ s.log := fun hmem => absurd (hlog _ hmem rfl) nofun
        refine ⟨⟨⟨_, _, _, List.mem_cons_self⟩, ?_, fun waker clock hmem => ?_⟩,
          ⟨hdelay, hnotdropped, harmed⟩, h.contract⟩
        · exact List.not_mem_cons_of_ne_of_not_mem nofun hnotdropped
        · have hold := (List.mem_cons.mp hmem).resolve_left nofun
          exact absurd (hlog _ hold rfl) nofun
      · intro id j hid
        by_cases heq : id = s.timers.nextTimerId
        · subst heq
          exact Nat.lt_succ_self _
        · dsimp only at hid
          rw [Function.update_of_ne heq] at hid
          exact Nat.lt_succ_of_lt (h.registered id j hid)
      · intro j id now' delay' hmem
        have hrest := (List.mem_cons.mp hmem).resolve_left nofun
        rcases List.mem_cons.mp hrest with heq | hold
        · obtain ⟨rfl, rfl, -, -⟩ := SleepEvent.armed.inj heq
          exact Function.update_self _ _ _
        · have hid := h.armed j id now' delay' hold
          refine (Function.update_of_ne ?_ _ _).trans hid
          exact Nat.ne_of_lt (h.registered id j hid)

theorem Inv.poll {r : Sleeps × Poll Unit} (h : s.Inv) (hpoll : s.poll i waker now = some r) :
    r.1.Inv := by
  cases h.phase i with
  | absent _ hnone =>
      rw [Sleeps.poll, hnone] at hpoll
      exact absurd hpoll nofun
  | fresh _ _ hfresh => exact h.poll_fresh hfresh hpoll
  | waiting _ _ _ _ _ hsleep =>
      rw [poll_of_armed hsleep] at hpoll
      rw [← Option.some.inj hpoll]
      exact h.check hsleep
  | woken _ _ _ _ hsleep =>
      rw [poll_of_armed hsleep] at hpoll
      rw [← Option.some.inj hpoll]
      exact h.check hsleep
  | completed _ _ _ hsleep =>
      rw [poll_of_completed hsleep] at hpoll
      rw [← Option.some.inj hpoll]
      exact h
  | dropped _ hnone =>
      rw [Sleeps.poll, hnone] at hpoll
      exact absurd hpoll nofun

/-! ## Drops -/

/-- The sleep is forgotten, and its timeout is not live. -/
theorem Inv.forget (h : s.Inv) (hcreated : i < s.created) (hnotdropped : .dropped i ∉ s.log)
    (hdead : ∀ id, s.callbacks id = some i → s.timers.liveTimeouts id = false) :
    Inv { s with
      sleeps := Function.update s.sleeps i none
      log := .dropped i :: s.log } := by
  refine h.of_local i (fun j hj => ?_) ?_ rfl rfl rfl hnotdropped nofun
  · have hframe := Untouched.of_update (s := s) none (s.states i) [.dropped i]
      (by simp [SleepEvent.sleep]) hj
    rwa [Function.update_eq_self] at hframe
  · exact .dropped hcreated (Function.update_self _ _ _) List.mem_cons_self hdead

theorem Inv.cancel {timers : Timers} (h : s.Inv) (hcreated : i < s.created)
    (hnotdropped : .dropped i ∉ s.log) (hown : s.callbacks id = some i)
    (hcallback : ∀ id', s.callbacks id' = some i → id' = id ∨ s.timers.liveTimeouts id' = false)
    (hstep : s.timers.step (.cancel s.timers.generation id) = some timers) :
    Inv { s with
      timers
      sleeps := Function.update s.sleeps i none
      log := .dropped i :: s.log } := by
  obtain ⟨result, hact, rfl⟩ := Option.map_eq_some_iff.mp hstep
  have hgrows := Timers.grows_act hact
  have hended : result.1.liveTimeouts id = false := by
    obtain ⟨-, hs⟩ := Option.ite_none_right_eq_some.mp hact
    rw [← Option.some.inj hs, Timers.clearTimer, if_neg (not_not.mpr rfl)]
    exact Function.update_self _ _ _
  refine h.of_phase i (fun j hj => ?_) ?_ (h.sound.act hact) (h.placed.act h.sound hact)
    ⟨hnotdropped, h.contract⟩ (fun id' j hid' => ?_) (fun j id' now delay hmem => ?_)
  · exact {
      created := Iff.rfl
      sleep := Function.update_of_ne hj _ _
      state := rfl
      log := ⟨[_], rfl, fun e he => List.mem_singleton.mp he ▸ Ne.symm hj⟩
      callback := fun _ => Iff.rfl
      grows := hgrows
      generation := Timers.generation_act hact
      live := by
        intro id' hid' hlive
        refine Timers.live_act hact hlive ?_ (by simp)
        intro heq
        obtain ⟨-, rfl⟩ := TimerAction.cancel.inj heq
        exact hj (Option.some.inj (hid'.symm.trans hown)) }
  · refine .dropped hcreated (Function.update_self _ _ _) List.mem_cons_self fun id' hid' => ?_
    rcases hcallback id' hid' with rfl | hdead
    · exact hended
    · exact hgrows.dead id' (h.registered id' i hid') hdead
  · exact Nat.lt_of_lt_of_le (h.registered id' j hid') hgrows.next
  · exact h.armed j id' now delay ((List.mem_cons.mp hmem).resolve_left (by simp))

theorem Inv.drop (h : s.Inv) (hdrop : s.drop i = some t) : t.Inv := by
  unfold Sleeps.drop at hdrop
  cases h.phase i with
  | absent _ hnone =>
      rw [hnone] at hdrop
      exact absurd hdrop nofun
  | dropped _ hnone =>
      rw [hnone] at hdrop
      exact absurd hdrop nofun
  | fresh delay hcreated hsleep hdelay hlog hcallback =>
      rw [hsleep] at hdrop
      obtain rfl := Option.some.inj hdrop
      exact h.forget hcreated (fun hmem => absurd (hlog _ hmem rfl) nofun)
        fun id hid => absurd hid (hcallback id)
  | waiting id now delay waker hcreated hsleep harmed hlast hlog hstate hcallback =>
      rw [hsleep] at hdrop
      obtain ⟨timers, hstep, rfl⟩ := Option.map_eq_some_iff.mp hdrop
      exact h.cancel hcreated (fun hmem => (hlog _ hmem rfl).1 rfl) ((hcallback id).mpr rfl)
        (fun id' hid' => .inl ((hcallback id').mp hid')) hstep
  | woken id clock waker hcreated hsleep hwoken hlog hstate hown hcallback =>
      rw [hsleep] at hdrop
      obtain ⟨timers, hstep, rfl⟩ := Option.map_eq_some_iff.mp hdrop
      exact h.cancel hcreated (fun hmem => (hlog _ hmem rfl).1 rfl) hown
        (fun id' hid' => .inr (hcallback id' hid')) hstep
  | completed clock waker hcreated hsleep hwoken hlog hcallback =>
      rw [hsleep] at hdrop
      obtain rfl := Option.some.inj hdrop
      exact h.forget hcreated (fun hmem => hlog _ hmem rfl rfl) hcallback

/-! ## The timers -/

theorem Inv.advance {a : TimerAction} {result : Timers × Bool} (h : s.Inv)
    (hprivate : ¬ s.Private a) (hact : s.timers.act a = some result)
    (hstart : ∀ id i, a = .runMacrotask → result.1.running = some (.timeout id) →
      s.callbacks id ≠ some i) : Inv { s with timers := result.1 } := by
  have hgrows := Timers.grows_act hact
  exact {
    sound := h.sound.act hact
    placed := h.placed.act h.sound hact
    contract := h.contract
    phase := by
      intro i
      refine (h.phase i).mono h.registered {
        created := Iff.rfl
        sleep := rfl
        state := rfl
        log := ⟨[], rfl, nofun⟩
        callback := fun _ => Iff.rfl
        grows := hgrows
        generation := Timers.generation_act hact
        live := ?_ }
      intro id hid hlive
      refine Timers.live_act hact hlive ?_ fun hrun hrunning => hstart id i hrun hrunning hid
      rintro rfl
      exact hprivate ⟨rfl, Option.ne_none_iff_exists'.mpr ⟨i, hid⟩⟩
    registered := fun id i hid => Nat.lt_of_lt_of_le (h.registered id i hid) hgrows.next
    armed := h.armed }

theorem Inv.waiting_of_live (h : s.Inv) (hown : s.callbacks id = some i)
    (hlive : s.timers.liveTimeouts id = true) :
    ∃ now delay waker, i < s.created ∧
      s.sleeps i = some ⟨none, some i, some ⟨id, s.timers.generation⟩, false⟩ ∧
      .armed i id now delay ∈ s.log ∧ lastWaker i s.log = some waker ∧
      (∀ e ∈ s.log, e.sleep = i →
        e ≠ .dropped i ∧ e ≠ .ready i ∧ ∀ waker clock, e ≠ .woken i waker clock) ∧
      s.states i = ⟨false, some waker⟩ ∧ (∀ id', s.callbacks id' = some i ↔ id' = id) ∧
      .timeout id (saturatingAdd now delay) ∈ s.timers.history := by
  cases h.phase i with
  | absent _ _ _ hcallback => exact absurd hown (hcallback id)
  | fresh _ _ _ _ _ hcallback => exact absurd hown (hcallback id)
  | woken _ _ _ _ _ _ _ _ _ hcallback => exact absurd (hlive.symm.trans (hcallback id hown)) nofun
  | completed _ _ _ _ _ _ hcallback =>
      exact absurd (hlive.symm.trans (hcallback id hown)) nofun
  | dropped _ _ _ hcallback => exact absurd (hlive.symm.trans (hcallback id hown)) nofun
  | waiting id' now delay waker hcreated hsleep harmed hlast hlog hstate hcallback htimeout _ =>
      obtain rfl := (hcallback id).mp hown
      exact ⟨now, delay, waker, hcreated, hsleep, harmed, hlast, hlog, hstate, hcallback, htimeout⟩

/-- The callback of a sleep starts, and wakes its last waker. -/
theorem Inv.start {result : Timers × Bool} (h : s.Inv)
    (hact : s.timers.act .runMacrotask = some result)
    (hrunning : result.1.running = some (.timeout id)) (hown : s.callbacks id = some i) :
    (complete { s with timers := result.1 } i).Inv := by
  have hgrows := Timers.grows_act hact
  obtain ⟨hlive, hdead, hhistory, hclock⟩ := Timers.started_of_running hact hrunning
  have hsound := h.sound.act hact
  obtain ⟨now, delay, waker, hcreated, hsleep, harmed, hlast, hlog, hstate, hcallback, htimeout⟩ :=
    h.waiting_of_live hown hlive
  have hdue : saturatingAdd now delay ≤ result.1.now := by
    rw [hclock]
    refine Contract.deadline_le ?_ htimeout
    rw [← hhistory]
    exact hsound.contract
  unfold complete
  simp only [hstate]
  refine h.of_phase i (fun j hj => ?_) ?_ hsound (h.placed.act h.sound hact) ?_ ?_ ?_
  · exact {
      created := Iff.rfl
      sleep := rfl
      state := Function.update_of_ne hj _ _
      log := ⟨[_], rfl, fun e he => List.mem_singleton.mp he ▸ Ne.symm hj⟩
      callback := fun _ => Iff.rfl
      grows := hgrows
      generation := Timers.generation_act hact
      live := by
        intro id' hid' hlive'
        refine Timers.live_act hact hlive' nofun fun _ hrunning' => ?_
        rw [hrunning] at hrunning'
        obtain rfl := TimerTask.timeout.inj (Option.some.inj hrunning')
        exact hj (Option.some.inj (hid'.symm.trans hown)) }
  · refine .woken id result.1.now waker hcreated ?_ List.mem_cons_self (fun e he hi => ?_)
      (Function.update_self _ _ _) hown (fun id' hid' => ?_)
    · dsimp only
      rw [Timers.generation_act hact]
      exact hsleep
    · rcases List.mem_cons.mp he with rfl | hold
      · exact ⟨nofun, nofun⟩
      · exact ⟨(hlog e hold hi).1, (hlog e hold hi).2.1⟩
    · obtain rfl := (hcallback id').mp hid'
      exact hdead
  · exact ⟨⟨⟨id, now, delay, harmed, hdue⟩, hlast, fun hmem => (hlog _ hmem rfl).1 rfl,
      fun waker' clock' hmem => (hlog _ hmem rfl).2.2 waker' clock' rfl⟩, h.contract⟩
  · exact fun id' j hid' => Nat.lt_of_lt_of_le (h.registered id' j hid') hgrows.next
  · intro j id' now' delay' hmem
    exact h.armed j id' now' delay' ((List.mem_cons.mp hmem).resolve_left nofun)

theorem Inv.tick {a : TimerAction} (h : s.Inv) (hprivate : ¬ s.Private a)
    (htick : s.tick a = some t) : t.Inv := by
  obtain ⟨timers, hstep, hrest⟩ := Option.bind_eq_some_iff.mp htick
  obtain ⟨result, hact, rfl⟩ := Option.map_eq_some_iff.mp hstep
  dsimp only at hrest
  split at hrest
  next id hrunning =>
    split at hrest
    next i hown =>
      obtain rfl := Option.some.inj hrest
      exact h.start hact hrunning hown
    next hnone =>
      obtain rfl := Option.some.inj hrest
      refine h.advance hprivate hact fun id' i _ hrunning' => ?_
      rw [hrunning] at hrunning'
      obtain rfl := TimerTask.timeout.inj (Option.some.inj hrunning')
      rw [hnone]
      exact nofun
  next hother =>
    obtain rfl := Option.some.inj hrest
    exact h.advance hprivate hact fun id _ hrun hrunning => (hother id hrun hrunning).elim

/-! ## Every run -/

theorem Inv.step {a : SleepAction} (h : s.Inv) (hstep : s.step a = some t) : t.Inv := by
  cases a with
  | sleep duration =>
      obtain ⟨-, hs⟩ := Option.ite_none_right_eq_some.mp hstep
      rw [← Option.some.inj hs]
      exact h.sleep duration
  | poll i waker now =>
      obtain ⟨r, hpoll, rfl⟩ := Option.map_eq_some_iff.mp hstep
      exact h.poll hpoll
  | drop i => exact h.drop hstep
  | timers a =>
      obtain ⟨hprivate, hs⟩ := Option.ite_none_left_eq_some.mp hstep
      exact h.tick hprivate hs

theorem inv_of_reachable {generation : Nat} (hreach : Reachable generation s) : s.Inv :=
  Transition.Reachable.invariant Inv (.init generation) (fun _ _ _ h _ hstep => h.step hstep) hreach

/-- A poll says that the sleep is ready exactly if its callback has run. -/
theorem Inv.poll_ready_iff {r : Sleeps × Poll Unit} (h : s.Inv)
    (hpoll : s.poll i waker now = some r) :
    r.2 = .ready () ↔ ∃ waker' clock, .woken i waker' clock ∈ s.log := by
  cases h.phase i with
  | absent _ hnone =>
      rw [Sleeps.poll, hnone] at hpoll
      exact absurd hpoll nofun
  | dropped _ hnone =>
      rw [Sleeps.poll, hnone] at hpoll
      exact absurd hpoll nofun
  | fresh delay _ hsleep _ hlog =>
      obtain ⟨-, rfl⟩ := poll_of_fresh hsleep hpoll
      refine iff_of_false nofun ?_
      rintro ⟨waker', clock, hmem⟩
      exact absurd (hlog _ hmem rfl) nofun
  | waiting _ _ _ _ _ hsleep _ _ hlog hstate =>
      rw [poll_of_armed hsleep, check_of_not_ready (by rw [hstate])] at hpoll
      obtain rfl := Option.some.inj hpoll
      refine iff_of_false nofun ?_
      rintro ⟨waker', clock, hmem⟩
      exact (hlog _ hmem rfl).2.2 waker' clock rfl
  | woken _ clock last _ hsleep hwoken _ hstate =>
      rw [poll_of_armed hsleep, check_of_ready (by rw [hstate])] at hpoll
      obtain rfl := Option.some.inj hpoll
      exact iff_of_true rfl ⟨last, clock, hwoken⟩
  | completed clock last _ hsleep hwoken =>
      rw [poll_of_completed hsleep] at hpoll
      obtain rfl := Option.some.inj hpoll
      exact iff_of_true rfl ⟨last, clock, hwoken⟩

/-- A sleep that was polled and not woken waits with its last waker, and once it is dropped its
timeout is not live. -/
theorem Inv.armed_not_woken (h : s.Inv) (harmed : .armed i id now delay ∈ s.log)
    (hnot : ∀ waker clock, .woken i waker clock ∉ s.log) :
    (.dropped i ∈ s.log → s.timers.liveTimeouts id = false) ∧
      (.dropped i ∉ s.log → s.timers.liveTimeouts id = true ∧
        s.timers.Waits id (saturatingAdd now delay) ∧
        ∃ waker, lastWaker i s.log = some waker ∧ s.states i = ⟨false, some waker⟩) := by
  have hown := h.armed i id now delay harmed
  cases h.phase i with
  | absent _ _ hlog => exact absurd rfl (hlog _ harmed)
  | fresh _ _ _ _ hlog => exact absurd (hlog _ harmed rfl) nofun
  | woken _ clock waker _ _ hwoken => exact absurd hwoken (hnot waker clock)
  | completed clock waker _ _ hwoken => exact absurd hwoken (hnot waker clock)
  | dropped _ _ hdropped hcallback =>
      exact ⟨fun _ => hcallback id hown, fun hmem => absurd hdropped hmem⟩
  | waiting id' now' delay' waker _ _ harmed' hlast hlog hstate hcallback htimeout hlive =>
      refine ⟨fun hmem => absurd rfl (hlog _ hmem rfl).1, fun _ => ?_⟩
      obtain rfl := (hcallback id).mp hown
      obtain ⟨-, rfl, rfl⟩ := h.contract.armed_unique harmed' harmed
      refine ⟨hlive, ?_, waker, hlast, hstate⟩
      obtain ⟨deadline, hcreated, hwaits⟩ := h.placed.waits id hlive
      have heq := h.sound.contract.created_unique htimeout hcreated rfl rfl rfl
      obtain ⟨-, rfl⟩ := TimerEvent.timeout.inj heq
      exact hwaits

/-- A poll wakes no sleep. -/
theorem Inv.not_woken_of_poll {j clock now : Nat} {waker' : Waker} {r : Sleeps × Poll Unit}
    (h : s.Inv) (hpoll : s.poll j waker' now = some r) :
    r.1.log ≠ .woken i waker clock :: s.log := by
  intro hwoken
  cases h.phase j with
  | absent _ hnone =>
      rw [Sleeps.poll, hnone] at hpoll
      cases hpoll
  | dropped _ hnone =>
      rw [Sleeps.poll, hnone] at hpoll
      cases hpoll
  | fresh delay _ hsleep =>
      obtain ⟨-, rfl⟩ := poll_of_fresh hsleep hpoll
      cases (List.cons.inj hwoken).1
  | waiting _ _ _ _ _ hsleep _ _ _ hstate =>
      rw [poll_of_armed hsleep, check_of_not_ready (by rw [hstate])] at hpoll
      obtain rfl := Option.some.inj hpoll
      cases (List.cons.inj hwoken).1
  | woken _ _ _ _ hsleep _ _ hstate =>
      rw [poll_of_armed hsleep, check_of_ready (by rw [hstate])] at hpoll
      obtain rfl := Option.some.inj hpoll
      cases (List.cons.inj hwoken).1
  | completed _ _ _ hsleep =>
      rw [poll_of_completed hsleep] at hpoll
      obtain rfl := Option.some.inj hpoll
      exact (List.cons_ne_self _ _).symm hwoken

theorem Inv.woken_by_tick {a : TimerAction} {clock : Nat} (h : s.Inv) (htick : s.tick a = some t)
    (hwoken : t.log = .woken i waker clock :: s.log) :
    ∃ id now delay, .armed i id now delay ∈ s.log ∧ t.timers.running = some (.timeout id) := by
  have hne : s.log ≠ .woken i waker clock :: s.log := (List.cons_ne_self _ _).symm
  obtain ⟨timers, htimers, hrest⟩ := Option.bind_eq_some_iff.mp htick
  obtain ⟨result, hact, rfl⟩ := Option.map_eq_some_iff.mp htimers
  dsimp only at hrest
  split at hrest
  next id hrunning =>
    split at hrest
    next j hown =>
      obtain ⟨hlive, -⟩ := Timers.started_of_running hact hrunning
      obtain ⟨now, delay, waker', -, -, harmed, -, -, hstate, -⟩ := h.waiting_of_live hown hlive
      obtain rfl := Option.some.inj hrest
      simp only [complete, hstate] at hwoken ⊢
      obtain ⟨rfl, -, -⟩ := SleepEvent.woken.inj (List.cons.inj hwoken).1
      exact ⟨id, now, delay, harmed, hrunning⟩
    next =>
      obtain rfl := Option.some.inj hrest
      exact absurd hwoken hne
  next =>
    obtain rfl := Option.some.inj hrest
    exact absurd hwoken hne

/-- What wakes a sleep is the callback of the timeout which its first poll created. -/
theorem Inv.woken_by {a : SleepAction} {clock : Nat} (h : s.Inv) (hstep : s.step a = some t)
    (hwoken : t.log = .woken i waker clock :: s.log) :
    ∃ id now delay, .armed i id now delay ∈ s.log ∧ t.timers.running = some (.timeout id) := by
  cases a with
  | sleep duration =>
      obtain ⟨-, hs⟩ := Option.ite_none_right_eq_some.mp hstep
      rw [← Option.some.inj hs] at hwoken
      cases (List.cons.inj hwoken).1
  | poll j waker' now =>
      obtain ⟨r, hpoll, rfl⟩ := Option.map_eq_some_iff.mp hstep
      exact absurd hwoken (h.not_woken_of_poll hpoll)
  | drop j =>
      obtain ⟨sleep, -, hdrop⟩ := Option.bind_eq_some_iff.mp hstep
      dsimp only at hdrop
      split at hdrop
      next =>
        obtain ⟨timers, -, rfl⟩ := Option.map_eq_some_iff.mp hdrop
        cases (List.cons.inj hwoken).1
      next =>
        obtain rfl := Option.some.inj hdrop
        cases (List.cons.inj hwoken).1
  | timers a =>
      obtain ⟨-, htick⟩ := Option.ite_none_left_eq_some.mp hstep
      exact h.woken_by_tick htick hwoken

/-- In every run the log follows the contract; what wakes a sleep is the callback of its own
timeout; a poll says ready exactly if that callback has run; a sleep that was polled, and neither
woken nor dropped, waits for its deadline with the waker of its last poll. -/
theorem sleep_contract_of_reachable {generation : Nat} (hreach : Reachable generation s) :
    SleepContract s.log ∧
      (∀ a t i waker clock, s.step a = some t → t.log = .woken i waker clock :: s.log →
        ∃ id now delay, .armed i id now delay ∈ s.log ∧
          t.timers.running = some (.timeout id)) ∧
      (∀ i waker now r, s.poll i waker now = some r →
        (r.2 = .ready () ↔ ∃ waker' clock, .woken i waker' clock ∈ s.log)) ∧
      ∀ i id now delay, .armed i id now delay ∈ s.log →
        (∀ waker clock, .woken i waker clock ∉ s.log) →
        (.dropped i ∈ s.log → s.timers.liveTimeouts id = false) ∧
          (.dropped i ∉ s.log → s.timers.liveTimeouts id = true ∧
            s.timers.Waits id (saturatingAdd now delay) ∧
            ∃ waker, lastWaker i s.log = some waker ∧ s.states i = ⟨false, some waker⟩) := by
  have h := inv_of_reachable hreach
  exact ⟨h.contract, fun _ _ _ _ _ hstep hwoken => h.woken_by hstep hwoken,
    fun _ _ _ _ hpoll => h.poll_ready_iff hpoll,
    fun _ _ _ _ harmed hnot => h.armed_not_woken harmed hnot⟩

/-- The second of three sleeps is dropped, and another timeout is cancelled. -/
theorem sleep_contract_two_of_three :
    ∃ s : Sleeps, Reachable 3 s ∧
      (s.log = [.woken 2 8 9, .ready 0, .woken 0 7 5, .dropped 1, .pending 2 8, .pending 0 7,
        .pending 2 6, .armed 2 4 1 8, .pending 1 5, .armed 1 3 1 2, .pending 0 5, .armed 0 1 0 5,
        .created 2 8, .created 1 2, .created 0 5] ∧ s.timers.localMacrotasks = []) ∧
      SleepContract s.log := by
  obtain ⟨s, hreach, hp⟩ := Transition.Reachable.exists_of_run step (fun _ _ => True)
    ({ timers := { generation := 3 } } : Sleeps)
    [.sleep 5, .sleep 2, .sleep 8, .poll 0 5 0, .timers (.timeout 0 5), .poll 1 5 1, .poll 2 6 1,
      .poll 0 7 0, .poll 2 8 0, .drop 1, .timers (.cancel 3 2), .timers (.dispatch 5),
      .timers .runMacrotask, .poll 0 1 0, .timers (.returns 6), .poll 0 1 0, .timers (.dispatch 9),
      .timers .runMacrotask]
    (fun s => decide (s.log = [.woken 2 8 9, .ready 0, .woken 0 7 5, .dropped 1, .pending 2 8,
      .pending 0 7, .pending 2 6, .armed 2 4 1 8, .pending 1 5, .armed 1 3 1 2, .pending 0 5,
      .armed 0 1 0 5, .created 2 8, .created 1 2, .created 0 5] ∧ s.timers.localMacrotasks = []))
    (by simp) (by decide)
  obtain ⟨hcontract, -⟩ := sleep_contract_of_reachable hreach
  exact ⟨s, hreach, of_decide_eq_true hp, hcontract⟩

end Sleeps

end Runite.Time
