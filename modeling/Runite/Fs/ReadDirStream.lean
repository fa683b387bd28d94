import Runite.Fs.ReadDirOrder
import Runite.Lib.Transition

/-!
# What the consumer of a directory gets

A consumer that waits is going to be woken, a poll returns after a bounded number of
steps, and the liveness token is given back once.  With the order of the entries,
this is what the consumer of a directory relies on.
-/

namespace Runite.Fs.ReadDir

open Runite.Io Transition

variable {α : Type}

/-- The waker that the consumer stored and waits for. -/
def Consumer.waits : Consumer α → Option Nat
  | .idle pending => pending
  | .awaiting _ serial _ => some serial
  | _ => none

theorem Consumer.waits_of_resume {c : Consumer α} {r : Routine} {n : Nat}
    (h : c.routine = some r) {out : Routine ⊕ Bool} (hn : (c.resume out).waits = some n) :
    c.waits = some n := by
  cases c <;> simp only [routine, reduceCtorEq] at h <;> rcases out with _ | _ | _ <;>
    first | exact hn | cases hn

theorem Batch.covers_checking {left : Nat} (h : 0 < left) :
    (.checking left : Batch α).covers = true := by
  cases left with
  | zero => cases h
  | succ left => rfl

namespace World

variable {w w' : World α} {capacity : Nat}

/-! ## Waking the consumer -/

/-- The waker `n` was woken, or a thread is going to come to it. -/
def Reaches (w : World α) (n : Nat) : Prop :=
  n ∈ w.woken ∨ w.queue.waker ≠ none ∨ (∃ job ∈ w.jobs, job.wakes = some n) ∨
    w.consumer.wakes = some n

/-- A consumer that waits is going to be woken. -/
structure Waking (w : World α) : Prop where
  stored : ∀ p, w.queue.waker = some p →
    w.queue.done = false ∧ w.queue.entries = [] ∧ p.serial + 1 = w.serial
  waiting : ∀ n, w.consumer.waits = some n → n + 1 = w.serial ∧ w.Reaches n
  asked : ∀ n, w.consumer = .idle (some n) → w.queue.waker ≠ none →
    ∃ job ∈ w.jobs, w.queue.refillRequested = true ∨ job.covers = true

theorem Waking.init : Waking ({} : World α) where
  stored := nofun
  waiting := by simp [Consumer.waits]
  asked := nofun

theorem Waking.serial_eq (h : Waking w) {n : Nat} (hn : n + 1 = w.serial) {p : Parked}
    (hp : w.queue.waker = some p) : p.serial = n := by
  have hserial := (h.stored p hp).2.2
  omega

/-- What a thread in `request_batch`, `submit_batch` or `complete` does about a waker. -/
theorem Performed.waker {refused : Option IoError} {r : Routine} {out : Routine ⊕ Bool}
    (hp : Performed refused w r w' out) :
    w'.queue.waker = w.queue.waker ∨
      w'.queue.waker = none ∧ out = .inl (.wake w.queue.waker) := by
  cases hp with
  | completes => exact Or.inr ⟨rfl, rfl⟩
  | releases => rw [releasePending_eq]; exact Or.inl rfl
  | _ => exact Or.inl rfl

theorem Performed.woken {refused : Option IoError} {r : Routine} {out : Routine ⊕ Bool}
    (hp : Performed refused w r w' out) : w'.woken = w.woken ++ r.wakes.toList := by
  cases hp with
  | wakes => rfl
  | releases => rw [releasePending_eq]; exact (List.append_nil _).symm
  | _ => exact (List.append_nil _).symm

theorem Performed.entries {refused : Option IoError} {r : Routine} {out : Routine ⊕ Bool}
    (hp : Performed refused w r w' out) : w'.queue.entries = w.queue.entries := by
  cases hp with
  | releases => rw [releasePending_eq]
  | _ => rfl

theorem Performed.serial {refused : Option IoError} {r : Routine} {out : Routine ⊕ Bool}
    (hp : Performed refused w r w' out) : w'.serial = w.serial := by
  cases hp with
  | releases => rw [releasePending_eq]
  | _ => rfl

theorem Performed.done {refused : Option IoError} {r : Routine} {out : Routine ⊕ Bool}
    (hp : Performed refused w r w' out) :
    w'.queue.done = w.queue.done ∨ w'.queue.done = true ∧ ∃ parked, out = .inl (.wake parked) := by
  cases hp with
  | completes => exact Or.inr ⟨rfl, _, rfl⟩
  | drains => exact Or.inr ⟨rfl, _, rfl⟩
  | releases => rw [releasePending_eq]; exact Or.inl rfl
  | _ => exact Or.inl rfl

theorem Waking.performed {refused : Option IoError} {r : Routine} {out : Routine ⊕ Bool}
    (h : Waking w) (hp : Performed refused w r w' out)
    (hstopped : w.queue.cancelled = true → w.queue.done = true) :
    (∀ p, w'.queue.waker = some p →
      w'.queue.done = false ∧ w'.queue.entries = [] ∧ p.serial + 1 = w'.serial) ∧
    ∀ n, n + 1 = w.serial → n ∈ w.woken ∨ w.queue.waker ≠ none ∨ r.wakes = some n →
      n ∈ w'.woken ∨ w'.queue.waker ≠ none ∨ out.getLeft?.bind Routine.wakes = some n := by
  constructor
  · intro p hwaker
    rw [hp.entries, hp.serial]
    have hold : w.queue.waker = some p := by
      rcases hp.waker with hsame | ⟨hnone, -⟩
      · rw [← hsame, hwaker]
      · rw [hnone] at hwaker
        cases hwaker
    obtain ⟨hdone, hentries, hserial⟩ := h.stored p hold
    refine ⟨?_, hentries, hserial⟩
    cases hp with
    | completes => cases hwaker
    | drains _ hcancelled =>
        rw [hstopped hcancelled] at hdone
        cases hdone
    | releases => rw [releasePending_eq]; exact hdone
    | _ => exact hdone
  · rintro n hn (hwoken | hwaker | hwakes)
    · exact Or.inl (by rw [hp.woken]; exact List.mem_append_left _ hwoken)
    · rcases hp.waker with hsame | ⟨-, rfl⟩
      · exact Or.inr (Or.inl (by rw [hsame]; exact hwaker))
      · obtain ⟨p, hparked⟩ := Option.ne_none_iff_exists'.mp hwaker
        have hserial := h.serial_eq hn hparked
        exact Or.inr (Or.inr (by simp [hparked, Routine.wakes, hserial]))
    · exact Or.inl (by rw [hp.woken, hwakes]; simp)

theorem Waking.requests {refused : Option IoError} {r : Routine} {out : Routine ⊕ Bool}
    {w₁ : World α} (h : Waking w) (hc : Control w) (hr : w.consumer.routine = some r)
    (hp : Performed refused w r w₁ out) (hqueue : w'.queue = w₁.queue) (hjobs : w'.jobs = w₁.jobs)
    (hserial : w'.serial = w₁.serial) (hwoken : w'.woken = w₁.woken)
    (hconsumer : w'.consumer = w.consumer.resume out) : Waking w' := by
  obtain ⟨hstored, hreached⟩ := h.performed hp hc.stopped
  have hwakes : w.consumer.wakes = r.wakes := by rw [Consumer.wakes, hr]; rfl
  have hwakes' : w'.consumer.wakes = out.getLeft?.bind Routine.wakes := by
    rw [Consumer.wakes, hconsumer, Consumer.routine_resume hr]
  refine ⟨by simpa only [hqueue, hserial] using hstored, ?_, ?_⟩
  · intro n hn
    rw [hconsumer] at hn
    obtain ⟨hnext, hreaches⟩ := h.waiting n (Consumer.waits_of_resume hr hn)
    refine ⟨by rw [hserial, hp.serial, hnext], ?_⟩
    have hsplit : (∃ job ∈ w.jobs, job.wakes = some n) ∨
        (n ∈ w.woken ∨ w.queue.waker ≠ none ∨ r.wakes = some n) := by
      rw [← hwakes]
      rcases hreaches with h₁ | h₁ | h₁ | h₁
      exacts [Or.inr (Or.inl h₁), Or.inr (Or.inr (Or.inl h₁)), Or.inl h₁, Or.inr (Or.inr (Or.inr h₁))]
    rw [Reaches, hwoken, hqueue, hjobs, hwakes']
    rcases hsplit with ⟨job, hjob, hjobWakes⟩ | hself
    · obtain ⟨jobs, hmore⟩ := hp.jobs
      rw [hmore]
      exact Or.inr (Or.inr (Or.inl ⟨job, List.mem_append_left _ hjob, hjobWakes⟩))
    · rcases hreached n hnext hself with h₁ | h₁ | h₁
      exacts [Or.inl h₁, Or.inr (Or.inl h₁), Or.inr (Or.inr (Or.inr h₁))]
  · intro n hidle hwaker
    rw [hconsumer] at hidle
    rw [hqueue] at hwaker ⊢
    rw [hjobs]
    obtain rfl : out = .inr true := by
      cases hcase : w.consumer <;> rw [hcase] at hidle hr <;> cases hr <;>
        rcases out with _ | _ | _ <;> first | rfl | cases hidle
    cases hp with
    | ended hover =>
        obtain ⟨p, hp⟩ := Option.ne_none_iff_exists'.mp hwaker
        have hdone := (h.stored p hp).1
        rw [hover.elim id hc.stopped] at hdone
        cases hdone
    | asks hdone _ hactive =>
        have hnot : w.consumer.holds = false := Consumer.holds_of_routine hr
        rcases (hc.active hdone).mp hactive with hne | hholds
        · obtain ⟨job, hjob⟩ := List.exists_mem_of_ne_nil _ hne
          exact ⟨job, hjob, Or.inl rfl⟩
        · simp [hnot] at hholds
    | lost hdone _ hactive hsource =>
        obtain ⟨job, hjob, -⟩ := hc.source hdone hsource
        have hactive' := (hc.active hdone).mpr (Or.inl (List.ne_nil_of_mem hjob))
        simp [hactive] at hactive'
    | submits => exact ⟨.queued, by simp, Or.inr rfl⟩

theorem Waking.polled {waker : Waker} (h : Waking w) (hp : Polled capacity waker w w') :
    Waking w' := by
  -- no waker is stored where there are entries or the scan is over
  have hnone : w.queue.entries ≠ [] ∨ w.queue.done = true → w.queue.waker = none := by
    intro hor
    by_contra hne
    obtain ⟨p, hp⟩ := Option.ne_none_iff_exists'.mp hne
    obtain ⟨hdone, hentries, -⟩ := h.stored p hp
    rcases hor with hor | hor
    · exact hor hentries
    · simp [hdone] at hor
  cases hp with
  | refills hentries =>
      have hwaker := hnone (Or.inl (by simp [hentries]))
      exact ⟨by simp [hwaker], by simp [Consumer.waits], by simp⟩
  | entry hentries =>
      have hwaker := hnone (Or.inl (by simp [hentries]))
      exact ⟨by simp [answer, hwaker], by simp [answer, Consumer.waits], by simp [answer]⟩
  | error => exact ⟨h.stored, by simp [answer, Consumer.waits], by simp [answer]⟩
  | finished => exact ⟨h.stored, by simp [answer, Consumer.waits], by simp [answer]⟩
  | parks hentries _ hdone =>
      refine ⟨?_, ?_, by simp⟩
      · intro p hp
        obtain rfl := Option.some.inj hp
        exact ⟨hdone, hentries, rfl⟩
      · intro n hn
        obtain rfl := Option.some.inj hn
        exact ⟨rfl, Or.inr (Or.inl (by simp))⟩

theorem Waking.batch {job : Batch α} (next : Option (Batch α)) (h : Waking w)
    (hjobs : w.jobs = [job]) (hjobs' : w'.jobs = next.toList)
    (hconsumer : w'.consumer = w.consumer) (hserial : w'.serial = w.serial)
    (hstored : ∀ p, w'.queue.waker = some p →
      w'.queue.done = false ∧ w'.queue.entries = [] ∧ p.serial + 1 = w'.serial)
    (hreached : ∀ n, n + 1 = w.serial →
      n ∈ w.woken ∨ w.queue.waker ≠ none ∨ job.wakes = some n →
      n ∈ w'.woken ∨ w'.queue.waker ≠ none ∨ ∃ b ∈ next, b.wakes = some n)
    (hasked : w'.queue.waker ≠ none → w.queue.waker ≠ none ∧
      (w.queue.refillRequested = true ∨ job.covers = true →
        ∃ b ∈ next, w'.queue.refillRequested = true ∨ b.covers = true)) : Waking w' := by
  refine ⟨hstored, ?_, ?_⟩
  · intro n hn
    rw [hconsumer] at hn
    obtain ⟨hnext, hreaches⟩ := h.waiting n hn
    refine ⟨by rw [hserial, hnext], ?_⟩
    have hsplit : w.consumer.wakes = some n ∨
        (n ∈ w.woken ∨ w.queue.waker ≠ none ∨ job.wakes = some n) := by
      rcases hreaches with h₁ | h₁ | ⟨b, hb, h₁⟩ | h₁
      · exact Or.inr (Or.inl h₁)
      · exact Or.inr (Or.inr (Or.inl h₁))
      · rw [hjobs, List.mem_singleton] at hb
        exact Or.inr (Or.inr (Or.inr (hb ▸ h₁)))
      · exact Or.inl h₁
    rw [Reaches, hjobs', hconsumer]
    rcases hsplit with h₁ | h₁
    · exact Or.inr (Or.inr (Or.inr h₁))
    · rcases hreached n hnext h₁ with h₂ | h₂ | h₂
      exacts [Or.inl h₂, Or.inr (Or.inl h₂), Or.inr (Or.inr (Or.inl (by simpa using h₂)))]
  · intro n hidle hwaker
    rw [hconsumer] at hidle
    obtain ⟨hold, hcovered⟩ := hasked hwaker
    obtain ⟨b, hb, hb'⟩ := h.asked n hidle hold
    rw [hjobs, List.mem_singleton] at hb
    obtain rfl := hb
    rw [hjobs']
    simpa using hcovered hb'

/-- The batch goes on within `submit_batch` or `complete`. -/
theorem Waking.routine {refused : Option IoError} {r : Routine} {out : Routine ⊕ Bool}
    {wrap : Routine → Batch α} {w₁ : World α} (h : Waking w) (hc : Control w)
    (hwrap : wrap = .submitting ∨ wrap = .completing) (hjobs : w.jobs = [wrap r])
    (hp : Performed refused w r w₁ out) : Waking (w₁.settle 0 (out.getLeft?.map wrap)) := by
  obtain ⟨hstored, hreached⟩ := h.performed hp hc.stopped
  have hwakes : ∀ r, (wrap r).wakes = r.wakes := by rcases hwrap with rfl | rfl <;> exact fun _ => rfl
  have hcovers : ∀ r, (wrap r).covers = true := by rcases hwrap with rfl | rfl <;> exact fun _ => rfl
  have hplaced := hc.placed (wrap r) (by simp [hjobs])
  have hrequest : r ≠ .request := by
    rintro rfl
    rcases hwrap with rfl | rfl <;> cases hplaced
  have hold : w₁.queue.waker ≠ none → w.queue.waker ≠ none := by
    intro hwaker
    rcases hp.waker with hsame | ⟨hnone, -⟩
    · rwa [← hsame]
    · exact absurd hnone hwaker
  rcases out with r' | b
  · have hjobs₁ : w₁.jobs = [wrap r] := by
      cases hp <;> exact hjobs
    refine h.batch (some (wrap r')) hjobs (by simp [World.settle, setJob, hjobs₁]) hp.consumer
      hp.serial hstored ?_ ?_
    · intro n hn hor
      rw [hwakes] at hor
      refine (hreached n hn hor).imp_right (Or.imp_right fun hnext => ?_)
      exact ⟨wrap r', rfl, by rw [hwakes]; simpa using hnext⟩
    · exact fun hwaker => ⟨hold hwaker, fun _ => ⟨wrap r', rfl, Or.inr (hcovers r')⟩⟩
  · -- the batch returns, with another one on the pool or with no waker left
    have hreached' : ∀ next : Option (Batch α), ∀ n, n + 1 = w.serial →
        n ∈ w.woken ∨ w.queue.waker ≠ none ∨ (wrap r).wakes = some n →
        n ∈ w₁.woken ∨ w₁.queue.waker ≠ none ∨ ∃ b ∈ next, b.wakes = some n := by
      intro next n hn hor
      rw [hwakes] at hor
      exact (hreached n hn hor).imp_right (Or.imp_right (by simp))
    by_cases hqueued : w₁.jobs = w.jobs ++ [.queued]
    · refine h.batch (some .queued) hjobs ?_ hp.consumer hp.serial hstored (hreached' _) ?_
      · simp [World.settle, endJob, hqueued, hjobs]
      · exact fun hwaker => ⟨hold hwaker, fun _ => ⟨.queued, rfl, Or.inr rfl⟩⟩
    · have hjobs₁ : w₁.jobs = [wrap r] := by
        cases hp with
        | submits => exact absurd rfl hqueued
        | releases => rw [releasePending_eq]; exact hjobs
        | _ => exact hjobs
      refine h.batch none hjobs ?_ hp.consumer hp.serial hstored (hreached' _) ?_
      · simp [World.settle, endJob, hjobs₁]
      · intro hwaker
        obtain ⟨p, hparked⟩ := Option.ne_none_iff_exists'.mp (hold hwaker)
        obtain ⟨hdone, hentries, -⟩ := h.stored p hparked
        have htail := hc.working hdone (wrap r) (by simp [hjobs])
        cases hp with
        | ended => exact absurd rfl hrequest
        | asks => exact absurd rfl hrequest
        | lost => exact absurd rfl hrequest
        | submits => exact absurd rfl hqueued
        | defers _ _ hne => exact absurd hentries hne
        | releases => rcases hwrap with rfl | rfl <;> cases htail

theorem Waking.runs {job : Batch α} {next : Option (Batch α)} {w₁ : World α}
    (hcapacity : 0 < capacity) (h : Waking w) (hc : Control w) (hjobs : w.jobs = [job])
    (hr : Ran capacity w job w₁ next) : Waking (w₁.settle 0 next) := by
  -- the stored waker stays, and the batch wakes none
  have hquiet : ∀ {w₁ : World α} {next : Batch α}, w₁.jobs = w.jobs → w₁.consumer = w.consumer →
      w₁.serial = w.serial → w₁.woken = w.woken → w₁.queue.waker = w.queue.waker →
      w₁.queue.done = w.queue.done → w₁.queue.entries = w.queue.entries → job.wakes = none →
      (w.queue.entries = [] → w.queue.refillRequested = true ∨ job.covers = true →
        w₁.queue.refillRequested = true ∨ next.covers = true) →
      Waking (w₁.settle 0 (some next)) := by
    intro w₁ next h₁ h₂ h₃ h₄ h₅ h₆ h₇ hwakes hcovered
    refine h.batch (some next) hjobs (by simp [World.settle, setJob, h₁, hjobs]) h₂ h₃ ?_ ?_ ?_
    · simpa only [World.settle, setJob, h₃, h₅, h₆, h₇] using h.stored
    · rintro n - hor
      simp only [hwakes, reduceCtorEq, or_false] at hor
      simp only [World.settle, setJob, h₄, h₅]
      exact hor.imp_right Or.inl
    · intro hwaker
      simp only [World.settle, setJob, h₅] at hwaker
      obtain ⟨p, hparked⟩ := Option.ne_none_iff_exists'.mp hwaker
      exact ⟨hwaker, fun hor => ⟨next, rfl, hcovered (h.stored p hparked).2.1 hor⟩⟩
  cases hr with
  | stops hover _ hwakes =>
      have hdone : w.queue.done = true := hover.elim id hc.stopped
      have hnone : w.queue.waker = none := by
        by_contra hne
        obtain ⟨p, hparked⟩ := Option.ne_none_iff_exists'.mp hne
        simpa [hdone] using (h.stored p hparked).1
      refine h.batch none hjobs (by simp [World.settle, endJob, hjobs]) rfl rfl ?_ ?_ ?_
      · exact fun p hp => by simp [World.settle, endJob, hnone] at hp
      · exact fun n _ hor => Or.inl (by simpa [World.settle, endJob, hnone, hwakes] using hor)
      · exact fun hwaker => absurd hnone hwaker
  | lost => exact hquiet rfl rfl rfl rfl rfl rfl rfl rfl fun _ _ => Or.inr rfl
  | opens => exact hquiet rfl rfl rfl rfl rfl rfl rfl rfl fun _ _ => Or.inr rfl
  | resumes => exact hquiet rfl rfl rfl rfl rfl rfl rfl rfl fun _ _ => Or.inr (Batch.covers_checking hcapacity)
  | opened => exact hquiet rfl rfl rfl rfl rfl rfl rfl rfl fun _ _ => Or.inr (Batch.covers_checking hcapacity)
  | fails _ _ _ hwakes => exact hquiet rfl rfl rfl rfl rfl rfl rfl hwakes fun _ _ => Or.inr rfl
  | last =>
      exact hquiet rfl rfl rfl rfl rfl rfl rfl rfl fun _ hor => hor.imp_right (by simp [Batch.covers])
  | full _ _ hfull =>
      exact hquiet rfl rfl rfl rfl rfl rfl rfl rfl fun hentries _ => by
        simp [hentries] at hfull
        omega
  | room => exact hquiet rfl rfl rfl rfl rfl rfl rfl rfl fun _ _ => Or.inr rfl
  | exhausts => exact hquiet rfl rfl rfl rfl rfl rfl rfl rfl fun _ _ => Or.inr rfl
  | pulls => exact hquiet rfl rfl rfl rfl rfl rfl rfl rfl fun _ _ => Or.inr rfl
  | @pushes item left hdone hcancelled =>
      refine h.batch (some (.waking w.queue.waker left)) hjobs
        (by simp [World.settle, setJob, hjobs]) rfl rfl (by simp [World.settle, setJob]) ?_
        (fun hwaker => absurd rfl hwaker)
      rintro n hn (hor | hor | hor)
      · exact Or.inl hor
      · obtain ⟨p, hparked⟩ := Option.ne_none_iff_exists'.mp hor
        have hserial := h.serial_eq hn hparked
        exact Or.inr (Or.inr ⟨_, rfl, by simp [Batch.wakes, hparked, hserial]⟩)
      · cases hor
  | @wakes parked left =>
      refine h.batch (some (.checking left)) hjobs (by simp [World.settle, setJob, wake, hjobs])
        rfl rfl h.stored ?_ ?_
      · rintro n - (hor | hor | hor)
        · exact Or.inl (List.mem_append_left _ hor)
        · exact Or.inr (Or.inl hor)
        · exact Or.inl (List.mem_append_right _ (by simpa [Batch.wakes] using hor))
      · intro hwaker
        exact ⟨hwaker, fun hor => ⟨_, rfl, hor.imp_right (by simp [Batch.covers])⟩⟩
  | restarts => exact hquiet rfl rfl rfl rfl rfl rfl rfl rfl fun _ _ => Or.inr rfl
  | rests hdone _ hrest =>
      refine h.batch none hjobs (by simp [World.settle, endJob, hjobs]) rfl rfl h.stored ?_ ?_
      · rintro n - (hor | hor | hor)
        · exact Or.inl hor
        · exact Or.inr (Or.inl hor)
        · cases hor
      · intro hwaker
        obtain ⟨p, hparked⟩ := Option.ne_none_iff_exists'.mp hwaker
        have hentries := (h.stored p hparked).2.1
        refine ⟨hwaker, ?_⟩
        rintro (hrefill | hcovers)
        · have hfull := hrest hrefill
          simp [hentries] at hfull
          omega
        · cases hcovers
  | submitting hp => exact h.routine hc (Or.inl rfl) hjobs hp
  | completing hp => exact h.routine hc (Or.inr rfl) hjobs hp

theorem Waking.step (hcapacity : 0 < capacity) (h : Waking w) (hc : Control w)
    (hs : Stepped capacity w w') : Waking w' := by
  cases hs with
  | polls => exact ⟨h.stored, nofun, nofun⟩
  | drops => exact ⟨h.stored, nofun, nofun⟩
  | advances hadvanced =>
      cases hadvanced with
      | requests hr hp => exact h.requests hc hr hp rfl rfl rfl rfl rfl
      | polls _ hpolled => exact h.polled hpolled
      | cancels => exact ⟨nofun, nofun, nofun⟩
      | releases =>
          rw [releasePending_eq]
          exact ⟨h.stored, nofun, nofun⟩
  | runs hjob hran =>
      obtain ⟨hjobs, rfl, -⟩ := hc.eq_singleton hjob
      exact h.runs hcapacity hc hjobs hran

/-! ## The liveness token -/

/-- The token is given back once, when the scan is over. -/
structure Held (w : World α) : Prop where
  released : w.released = (!w.pending).toNat
  pending : w.queue.done = false → w.pending = true
  handed : w.queue.done = true → w.pending = true →
    (∃ job ∈ w.jobs, job.isTail = true) ∨ w.consumer.isTail = true ∨ w.consumer = .releasing
  gone : w.consumer = .dropped → w.pending = false

theorem Held.init : Held ({} : World α) := ⟨rfl, fun _ => rfl, nofun, nofun⟩

theorem Held.gives (h : Held w) (hreleased : w'.released = w.released + w.pending.toNat)
    (hpending : w'.pending = false) (hdone : w'.queue.done = true) : Held w' where
  released := by
    rw [hreleased, hpending, h.released]
    cases w.pending <;> rfl
  pending hnot := by simp [hdone] at hnot
  handed _ hheld := by simp [hpending] at hheld
  gone _ := hpending

theorem Held.keeps (h : Held w) (hreleased : w'.released = w.released)
    (hpending : w'.pending = w.pending) (hdone : w'.queue.done = false → w.queue.done = false)
    (hhanded : w'.queue.done = true → (w.queue.done = true →
        (∃ job ∈ w.jobs, job.isTail = true) ∨ w.consumer.isTail = true ∨
          w.consumer = .releasing) →
      (∃ job ∈ w'.jobs, job.isTail = true) ∨ w'.consumer.isTail = true ∨ w'.consumer = .releasing)
    (hgone : w'.consumer = .dropped → w.consumer = .dropped) : Held w' where
  released := by rw [hreleased, hpending, h.released]
  pending hnot := by rw [hpending, h.pending (hdone hnot)]
  handed hover hheld := by
    rw [hpending] at hheld
    exact hhanded hover fun hover' => h.handed hover' hheld
  gone hdropped := by rw [hpending, h.gone (hgone hdropped)]

theorem Held.requests {refused : Option IoError} {r : Routine} {out : Routine ⊕ Bool}
    {w₁ : World α} (h : Held w) (hc : Control w) (hr : w.consumer.routine = some r)
    (hp : Performed refused w r w₁ out) (hdone : w'.queue.done = w₁.queue.done)
    (hjobs : w'.jobs = w₁.jobs) (hpending : w'.pending = w₁.pending)
    (hreleased : w'.released = w₁.released) (hconsumer : w'.consumer = w.consumer.resume out) :
    Held w' := by
  have htail := Consumer.isTail_of_routine hr
  have htail' := Consumer.isTail_of_routine (Consumer.routine_resume hr out)
  rw [← hconsumer] at htail'
  have hnot : w.consumer ≠ .releasing := by
    intro hreleasing
    rw [hreleasing] at hr
    cases hr
  have hgone : w'.consumer ≠ .dropped := by
    rw [hconsumer]
    cases hcase : w.consumer <;> rw [hcase] at hr <;> cases hr <;> rcases out with _ | _ | _ <;> nofun
  -- a step before the lock section of `complete`, or one after it
  have hkeeps : w₁.released = w.released → w₁.pending = w.pending →
      w₁.queue.done = w.queue.done → (r.isTail = true → w'.consumer.isTail = true) → Held w' := by
    intro h₁ h₂ h₃ h₄
    refine h.keeps (hreleased.trans h₁) (hpending.trans h₂) (by simp [hdone, h₃]) ?_
      (fun hdropped => absurd hdropped hgone)
    intro hover hhanded
    rw [hdone, h₃] at hover
    obtain ⟨jobs, hmore⟩ := hp.jobs
    rcases hhanded hover with ⟨job, hjob, hjobTail⟩ | hself | hreleasing
    · exact Or.inl ⟨job, by rw [hjobs, hmore]; exact List.mem_append_left _ hjob, hjobTail⟩
    · exact Or.inr (Or.inl (h₄ (by simpa [htail] using hself)))
    · exact absurd hreleasing hnot
  cases hp with
  | ended => exact hkeeps rfl rfl rfl nofun
  | asks => exact hkeeps rfl rfl rfl nofun
  | lost => exact hkeeps rfl rfl rfl nofun
  | activates => exact hkeeps rfl rfl rfl nofun
  | submits => exact hkeeps rfl rfl rfl nofun
  | refuses => exact hkeeps rfl rfl rfl nofun
  | defers => exact hkeeps rfl rfl rfl nofun
  | gives => exact hkeeps rfl rfl rfl nofun
  | skips => exact hkeeps rfl rfl rfl nofun
  | wakes => exact hkeeps rfl rfl rfl (fun _ => htail')
  | completes =>
      refine h.keeps hreleased hpending (by simp [hdone]) (fun _ _ => Or.inr (Or.inl htail'))
        (fun hdropped => absurd hdropped hgone)
  | drains =>
      refine h.keeps hreleased hpending (by simp [hdone]) (fun _ _ => Or.inr (Or.inl htail'))
        (fun hdropped => absurd hdropped hgone)
  | releases =>
      rw [releasePending_eq] at hreleased hpending hdone
      exact h.gives hreleased hpending (hdone.trans (hc.tail htail))

/-- The batch goes on within `submit_batch` or `complete`. -/
theorem Held.routine {refused : Option IoError} {r : Routine} {out : Routine ⊕ Bool}
    {wrap : Routine → Batch α} {w₁ : World α} (h : Held w) (hc : Control w)
    (hwrap : wrap = .submitting ∨ wrap = .completing) (hjobs : w.jobs = [wrap r])
    (hp : Performed refused w r w₁ out) (hdone : w'.queue.done = w₁.queue.done)
    (hjobs' : ∀ r', out = .inl r' → w'.jobs = [wrap r']) (hpending : w'.pending = w₁.pending)
    (hreleased : w'.released = w₁.released) (hconsumer : w'.consumer = w₁.consumer) : Held w' := by
  have htail : ∀ r, (wrap r).isTail = r.isTail := by rcases hwrap with rfl | rfl <;> exact fun _ => rfl
  rw [hp.consumer] at hconsumer
  have hkeeps : w₁.released = w.released → w₁.pending = w.pending →
      w₁.queue.done = w.queue.done → (r.isTail = true → ∃ job ∈ w'.jobs, job.isTail = true) →
      Held w' := by
    intro h₁ h₂ h₃ h₄
    refine h.keeps (hreleased.trans h₁) (hpending.trans h₂) (by simp [hdone, h₃]) ?_
      (by simp [hconsumer])
    intro hover hhanded
    rw [hdone, h₃] at hover
    rw [hconsumer]
    refine (hhanded hover).imp_left ?_
    rintro ⟨job, hjob, hjobTail⟩
    rw [hjobs, List.mem_singleton] at hjob
    rw [hjob, htail] at hjobTail
    exact h₄ hjobTail
  cases hp with
  | ended => exact hkeeps rfl rfl rfl nofun
  | asks => exact hkeeps rfl rfl rfl nofun
  | lost => exact hkeeps rfl rfl rfl nofun
  | activates => exact hkeeps rfl rfl rfl nofun
  | submits => exact hkeeps rfl rfl rfl nofun
  | refuses => exact hkeeps rfl rfl rfl nofun
  | defers => exact hkeeps rfl rfl rfl nofun
  | gives => exact hkeeps rfl rfl rfl nofun
  | skips => exact hkeeps rfl rfl rfl nofun
  | wakes => exact hkeeps rfl rfl rfl fun _ => by simp [hjobs' _ rfl, htail, Routine.isTail]
  | completes =>
      refine h.keeps hreleased hpending (by simp [hdone]) ?_ (by simp [hconsumer])
      exact fun _ _ => Or.inl (by simp [hjobs' _ rfl, htail, Routine.isTail])
  | drains =>
      refine h.keeps hreleased hpending (by simp [hdone]) ?_ (by simp [hconsumer])
      exact fun _ _ => Or.inl (by simp [hjobs' _ rfl, htail, Routine.isTail])
  | releases =>
      rw [releasePending_eq] at hreleased hpending hdone
      refine h.gives hreleased hpending (hdone.trans ?_)
      show w.queue.done = true
      by_contra hnot
      have hworking := hc.working (Bool.not_eq_true _ ▸ hnot) (wrap .release) (by simp [hjobs])
      simp [htail, Routine.isTail] at hworking

theorem Held.runs {job : Batch α} {next : Option (Batch α)} {w₁ : World α} (h : Held w)
    (hc : Control w) (hjobs : w.jobs = [job]) (hr : Ran capacity w job w₁ next) :
    Held (w₁.settle 0 next) := by
  have hroutine : ∀ {refused : Option IoError} {r : Routine} {out : Routine ⊕ Bool}
      {wrap : Routine → Batch α} {w₁ : World α}, wrap = .submitting ∨ wrap = .completing →
      w.jobs = [wrap r] → Performed refused w r w₁ out →
      Held (w₁.settle 0 (out.getLeft?.map wrap)) := by
    intro refused r out wrap w₁ hwrap hjobs hp
    refine h.routine hc hwrap hjobs hp ?_ ?_ ?_ ?_ ?_
    · cases out <;> rfl
    · rintro r' rfl
      have hsame : w₁.jobs = w.jobs := by cases hp <;> rfl
      simp [World.settle, setJob, hsame, hjobs]
    · cases out <;> rfl
    · cases out <;> rfl
    · cases out <;> rfl
  have hquiet : ∀ {w' : World α}, w'.released = w.released → w'.pending = w.pending →
      w'.queue.done = w.queue.done → w'.consumer = w.consumer → job.isTail = false → Held w' := by
    intro w' h₁ h₂ h₃ h₄ htail
    refine h.keeps h₁ h₂ (by simp [h₃]) ?_ (by simp [h₄])
    intro hover hhanded
    rw [h₃] at hover
    rw [h₄]
    refine Or.inr ((hhanded hover).resolve_left ?_)
    simp [hjobs, htail]
  cases hr with
  | stops _ htail => exact hquiet rfl rfl rfl rfl htail
  | fails htail => exact hquiet rfl rfl rfl rfl htail
  | submitting hp => exact hroutine (Or.inl rfl) hjobs hp
  | completing hp => exact hroutine (Or.inr rfl) hjobs hp
  | _ => exact hquiet rfl rfl rfl rfl rfl

theorem Held.step (h : Held w) (hc : Control w) (hs : Stepped capacity w w') : Held w' := by
  have hmoves : ∀ {w' : World α}, w'.released = w.released → w'.pending = w.pending →
      w'.queue.done = w.queue.done → w'.jobs = w.jobs → w'.consumer ≠ .dropped →
      w.consumer.isTail = false → w.consumer ≠ .releasing → Held w' := by
    intro w' h₁ h₂ h₃ h₄ hgone htail hnot
    refine h.keeps h₁ h₂ (by simp [h₃]) ?_ (fun hdropped => absurd hdropped hgone)
    intro hover hhanded
    rw [h₄]
    rcases hhanded (h₃ ▸ hover) with hjob | hself | hreleasing
    · exact Or.inl hjob
    · simp [htail] at hself
    · exact absurd hreleasing hnot
  cases hs with
  | polls hidle => exact hmoves rfl rfl rfl rfl nofun (by rw [hidle]; rfl) (by simp [hidle])
  | drops hidle => exact hmoves rfl rfl rfl rfl nofun (by rw [hidle]; rfl) (by simp [hidle])
  | advances hadvanced =>
      cases hadvanced with
      | requests hr hp => exact h.requests hc hr hp rfl rfl rfl rfl rfl
      | polls hpolling hpolled =>
          cases hpolled <;>
            exact hmoves rfl rfl rfl rfl nofun (by rw [hpolling]; rfl) (by simp [hpolling])
      | cancels =>
          exact h.keeps rfl rfl nofun (fun _ _ => Or.inr (Or.inr rfl)) nofun
      | releases hreleasing =>
          rw [releasePending_eq]
          refine h.gives rfl rfl (hc.stopped ?_)
          rw [hc.cancelled, hreleasing]
          rfl
  | runs hjob hran =>
      obtain ⟨hjobs, rfl, -⟩ := hc.eq_singleton hjob
      exact h.runs hc hjobs hran

/-! ## The length of a call -/

/-- The most steps that the consumer has left in its call. -/
def callRank (w : World α) : Nat :=
  match w.consumer with
  | .creating routine => routine.rank + 3
  -- a pass that finds something returns; one that parks may come back once
  | .polling _ => if w.queue.entries.isEmpty && !w.queue.done then 20 else 8
  | .refilling _ routine => routine.rank
  | .awaiting _ _ routine => routine.rank + 10
  | .cancelling => 2
  | .releasing => 1
  | .idle _ | .dropped => 0

theorem Performed.rank_lt {refused : Option IoError} {r r' : Routine}
    (hp : Performed refused w r w' (.inl r')) : r'.rank < r.rank := by
  cases hp <;> simp [Routine.rank]

theorem callRank_polling {waker : Waker} (hconsumer : w.consumer = .polling waker)
    (hfound : w.queue.entries ≠ [] ∨ w.queue.done = true) : w.callRank = 8 := by
  rw [callRank, hconsumer]
  rcases hfound with hfound | hfound <;> simp [hfound]

theorem eight_le_callRank {waker : Waker} (hconsumer : w.consumer = .polling waker) :
    8 ≤ w.callRank := by
  simp only [callRank, hconsumer]
  split <;> omega

theorem callRank_requests {refused : Option IoError} {r : Routine} {out : Routine ⊕ Bool}
    {w₁ : World α} (hc : Control w) (hr : w.consumer.routine = some r)
    (hp : Performed refused w r w₁ out) (hqueue : w'.queue = w₁.queue)
    (hconsumer : w'.consumer = w.consumer.resume out) : w'.callRank < w.callRank := by
  have hpos : 0 < r.rank := by cases r <;> simp [Routine.rank]
  have hlt : ∀ r', out = .inl r' → r'.rank < r.rank := by
    rintro r' rfl
    exact hp.rank_lt
  cases hcase : w.consumer with
  | creating r₀ =>
      rw [hcase] at hr hconsumer
      obtain rfl := Option.some.inj hr
      rcases out with r' | _ | _ <;> simp only [Consumer.resume] at hconsumer <;>
        simp only [callRank, hconsumer, hcase]
      · have hr' := hlt r' rfl
        omega
      · omega
      · omega
  | refilling item r₀ =>
      rw [hcase] at hr hconsumer
      obtain rfl := Option.some.inj hr
      rcases out with r' | _ | _ <;> simp only [Consumer.resume] at hconsumer <;>
        simp only [callRank, hconsumer, hcase]
      · exact hlt r' rfl
      · exact hpos
      · exact hpos
  | awaiting waker serial r₀ =>
      have htail := Consumer.isTail_of_routine hr
      rw [hcase] at hr hconsumer
      obtain rfl := Option.some.inj hr
      rcases out with r' | _ | _ <;> simp only [Consumer.resume] at hconsumer
      · have hr' := hlt r' rfl
        simp only [callRank, hconsumer, hcase]
        omega
      · -- the request failed: there is an entry, or the scan is over
        have hfound : w'.queue.entries ≠ [] ∨ w'.queue.done = true := by
          rw [hqueue]
          cases hp with
          | defers _ _ hentries => exact Or.inl hentries
          | releases =>
              rw [releasePending_eq]
              exact Or.inr (hc.tail htail)
        rw [callRank_polling hconsumer hfound, callRank, hcase]
        dsimp only
        omega
      · simp only [callRank, hconsumer, hcase]
        omega
  | _ => rw [hcase] at hr; cases hr

/-- A step of the consumer brings it closer to the end of its call. -/
theorem callRank_advanced {refused : Option IoError} (hc : Control w)
    (hs : Advanced capacity refused w w') : w'.callRank < w.callRank := by
  cases hs with
  | requests hr hp => exact callRank_requests hc hr hp rfl rfl
  | polls hpolling hpolled =>
      have height := eight_le_callRank hpolling
      cases hpolled with
      | refills => exact Nat.lt_of_lt_of_le (by decide : 6 < 8) height
      | entry => exact Nat.lt_of_lt_of_le (by decide : 0 < 8) height
      | error => exact Nat.lt_of_lt_of_le (by decide : 0 < 8) height
      | finished => exact Nat.lt_of_lt_of_le (by decide : 0 < 8) height
      | parks hentries _ hdone =>
          simp [callRank, hpolling, hentries, hdone, Routine.rank]
  | cancels hcancelling => simp [callRank, hcancelling]
  | releases hreleasing => simp [callRank, hreleasing]

theorem Ran.found {job : Batch α} {next : Option (Batch α)} {w₁ : World α}
    (hr : Ran capacity w job w₁ next) (h : w.queue.entries ≠ [] ∨ w.queue.done = true) :
    w₁.queue.entries ≠ [] ∨ w₁.queue.done = true := by
  have hperformed : ∀ {refused : Option IoError} {r : Routine} {out : Routine ⊕ Bool}
      {w₁ : World α}, Performed refused w r w₁ out →
      w₁.queue.entries ≠ [] ∨ w₁.queue.done = true := by
    intro refused r out w₁ hp
    rw [hp.entries]
    rcases hp.done with hsame | ⟨hdone, -⟩
    · rwa [hsame]
    · exact Or.inr hdone
  cases hr with
  | pushes => exact Or.inl (by simp)
  | submitting hp => exact hperformed hp
  | completing hp => exact hperformed hp
  | _ => exact h

theorem Ran.consumer {job : Batch α} {next : Option (Batch α)} {w₁ : World α}
    (hr : Ran capacity w job w₁ next) : w₁.consumer = w.consumer := by
  cases hr with
  | submitting hp => exact hp.consumer
  | completing hp => exact hp.consumer
  | _ => rfl

theorem callRank_runs {job : Batch α} {next : Option (Batch α)} {w₁ : World α} (index : Nat)
    (hr : Ran capacity w job w₁ next) : (w₁.settle index next).callRank ≤ w.callRank := by
  have hsame : (w₁.settle index next).callRank = w₁.callRank := by cases next <;> rfl
  rw [hsame]
  cases hcase : w.consumer with
  | polling waker =>
      have hcase' := hr.consumer.trans hcase
      by_cases hfound : w.queue.entries ≠ [] ∨ w.queue.done = true
      · exact Nat.le_of_eq ((callRank_polling hcase' (hr.found hfound)).trans
          (callRank_polling hcase hfound).symm)
      · have htwenty : w.callRank = 20 := by
          simp only [not_or, not_not, Bool.not_eq_true] at hfound
          simp [callRank, hcase, hfound]
        rw [htwenty, callRank, hcase']
        dsimp only
        split <;> omega
  | _ => simp [callRank, hr.consumer, hcase]

def Action.isConsumer : Action α → Bool
  | .consumer _ => true
  | _ => false

def Action.isWithin : Action α → Bool
  | .poll _ | .drop => false
  | .consumer _ | .batch _ _ => true

/-- Along a run, the consumer takes no more steps than its call has left. -/
theorem countP_add_callRank_le {actions : List (Action α)} (hc : Control w)
    (hwithin : ∀ a ∈ actions, a.isWithin = true)
    (hrun : run (step capacity) w actions = some w') :
    actions.countP Action.isConsumer + w'.callRank ≤ w.callRank := by
  induction actions generalizing w with
  | nil =>
      obtain rfl : w = w' := by simpa [run] using hrun
      simp
  | cons a actions ih =>
      obtain ⟨t, ht, hrest⟩ := Option.bind_eq_some_iff.mp hrun
      have hnext := ih (hc.step (stepped_of_step ht)) (fun b hb => hwithin b (by simp [hb])) hrest
      cases a with
      | poll waker => simpa [Action.isWithin] using hwithin (.poll waker) (by simp)
      | drop => simpa [Action.isWithin] using hwithin .drop (by simp)
      | consumer refused =>
          have hlt := callRank_advanced hc (advanced_of_advance ht)
          simp only [List.countP_cons, Action.isConsumer, if_true]
          omega
      | batch index event =>
          obtain ⟨job, hjob, hbatch⟩ := Option.bind_eq_some_iff.mp ht
          obtain ⟨w₁, next, hran, rfl⟩ := ran_of_runBatch hbatch
          have hle := callRank_runs index hran
          simp only [List.countP_cons, Action.isConsumer, Bool.false_eq_true, if_false]
          omega

theorem callRank_le (w : World α) : w.callRank ≤ 20 := by
  have hrank : ∀ r : Routine, r.rank ≤ 6 := by
    intro r
    cases r <;> simp [Routine.rank]
  unfold callRank
  split
  next r _ => have hr := hrank r; omega
  next => split <;> omega
  next r _ => have hr := hrank r; omega
  next r _ => have hr := hrank r; omega
  all_goals omega

/-! ## The stream -/

/-- What the consumer of a directory relies on. -/
structure Stream (capacity : Nat) (w : World α) : Prop where
  /-- polls return entries first, and then at most one error and the end, again and again -/
  answers : ∃ (error : Option IoError) (count : Nat), w.answers =
    w.yielded.map .entry ++ ((error.map .error).toList ++ List.replicate count .finished)
  /-- nothing is lost, doubled or reordered on its way -/
  order : w.queue.cancelled = false →
    w.yielded ++ w.consumer.inHand ++ w.queue.entries ++ w.jobs.flatMap Batch.inHand = w.pulled
  cut : w.yielded <+: w.pulled
  /-- a scan that was reported as over gave all, up to its end or to the error reported -/
  whole : w.endings ≠ [] → w.queue.cancelled = false →
    w.yielded = w.pulled ∧ (w.exhausted = true ∨ ∃ error, .error error ∈ w.answers)
  bounded : w.queue.entries.length ≤ capacity
  /-- where the last poll returned `Pending`, its waker was woken, or there is a batch that is
  going to wake it, or one that is going to come to it in the queue -/
  pending : ∀ n, w.consumer = .idle (some n) →
    n ∈ w.woken ∨ ∃ job ∈ w.jobs, job.wakes = some n ∨
      w.queue.waker.map Parked.serial = some n ∧
        (w.queue.refillRequested = true ∨ job.covers = true)
  /-- within a call the consumer can always go on, whatever the scheduler answers -/
  progress : (∀ p, w.consumer ≠ .idle p) → w.consumer ≠ .dropped →
    ∀ refused, (step capacity w (.consumer refused)).isSome = true
  /-- and it returns after at most twenty steps of its own -/
  returns : ∀ actions w', (∀ a ∈ actions, a.isWithin = true) →
    run (step capacity) w actions = some w' → actions.countP Action.isConsumer ≤ 20
  /-- the token is given back at most once, and not before the scan is over -/
  token : w.released = (!w.pending).toNat ∧ (w.queue.done = false → w.pending = true)
  /-- the token was given back once the thread that ended the scan has left, and once the consumer
  is gone -/
  released : w.queue.done = true → (∀ job ∈ w.jobs, job.isTail = false) →
    w.consumer.isTail = false → w.consumer ≠ .releasing → w.released = 1
  dropped : w.consumer = .dropped → w.released = 1

theorem pending_of_waking (h : Waking w) {n : Nat} (hidle : w.consumer = .idle (some n)) :
    n ∈ w.woken ∨ ∃ job ∈ w.jobs, job.wakes = some n ∨
      w.queue.waker.map Parked.serial = some n ∧
        (w.queue.refillRequested = true ∨ job.covers = true) := by
  obtain ⟨hn, hreaches⟩ := h.waiting n (by rw [hidle]; rfl)
  rcases hreaches with hwoken | hwaker | ⟨job, hjob, hwakes⟩ | hself
  · exact Or.inl hwoken
  · obtain ⟨job, hjob, hcovered⟩ := h.asked n hidle hwaker
    obtain ⟨p, hparked⟩ := Option.ne_none_iff_exists'.mp hwaker
    have hserial := h.serial_eq hn hparked
    exact Or.inr ⟨job, hjob, Or.inr ⟨by simp [hparked, hserial], hcovered⟩⟩
  · exact Or.inr ⟨job, hjob, Or.inl hwakes⟩
  · rw [hidle] at hself
    cases hself

theorem whole_of_ordered (h : Ordered capacity w) (hc : Control w) (hne : w.endings ≠ [])
    (hcancelled : w.queue.cancelled = false) :
    w.yielded = w.pulled ∧ (w.exhausted = true ∨ ∃ error, .error error ∈ w.answers) := by
  obtain ⟨hdone, hentries, hterminal, hhand⟩ := h.ended hne
  constructor
  · have horder := h.order hcancelled
    have hjobs : w.jobs.flatMap Batch.inHand = [] := by
      rw [List.flatMap_eq_nil_iff]
      intro job hjob
      have htail := hc.ended hdone hcancelled job hjob
      cases job <;> first | rfl | cases htail
    rwa [hhand, hentries, hjobs, List.append_nil, List.append_nil, List.append_nil] at horder
  · rcases h.reason hdone hcancelled with hexhausted | hsome | ⟨error, herror⟩
    · exact Or.inl hexhausted
    · exact absurd hterminal hsome
    · exact Or.inr ⟨error, List.mem_of_mem_filter herror⟩

theorem isSome_advance {refused : Option IoError} (hidle : ∀ p, w.consumer ≠ .idle p)
    (hdropped : w.consumer ≠ .dropped) : (w.advance capacity refused).isSome = true := by
  unfold advance
  split
  next => rfl
  next => rfl
  next => rfl
  next => rfl
  next => rfl
  next => rfl
  next h => exact absurd h (hidle _)
  next h => exact absurd h hdropped

theorem stream_of_reachable (hcapacity : 0 < capacity)
    (hreach : Reachable (step capacity) (fun _ _ => True) ({} : World α) w) :
    Stream capacity w := by
  obtain ⟨hc, ho, hw, hh⟩ : Control w ∧ Ordered capacity w ∧ Waking w ∧ Held w := by
    refine hreach.invariant (fun w => Control w ∧ Ordered capacity w ∧ Waking w ∧ Held w)
      ⟨.init, .init, .init, .init⟩ ?_
    rintro w a w' ⟨hc, ho, hw, hh⟩ - hs
    have hs := stepped_of_step hs
    exact ⟨hc.step hs, ho.step hc hs, hw.step hcapacity hc hs, hh.step hc hs⟩
  exact {
    answers := by
      obtain ⟨error, count, hending⟩ := ho.ending
      exact ⟨error, count, hending ▸ ho.answers⟩
    order := ho.order
    cut := by
      cases hcancelled : w.queue.cancelled with
      | true => exact ho.cut hcancelled
      | false =>
          have horder := ho.order hcancelled
          rw [List.append_assoc, List.append_assoc] at horder
          exact ⟨_, horder⟩
    whole := whole_of_ordered ho hc
    bounded := ho.bounded
    pending := fun n hidle => pending_of_waking hw hidle
    progress := fun hidle hdropped refused => isSome_advance hidle hdropped
    returns := fun actions w' hwithin hrun => by
      have hle := countP_add_callRank_le hc hwithin hrun
      have htwenty := w.callRank_le
      omega
    token := ⟨hh.released, hh.pending⟩
    released := fun hdone hjobs hself hnot => by
      have hpending : w.pending = false := by
        by_contra hheld
        rcases hh.handed hdone (Bool.not_eq_false _ ▸ hheld) with ⟨job, hjob, htail⟩ | htail | hreleasing
        · simp [hjobs job hjob] at htail
        · simp [hself] at htail
        · exact hnot hreleasing
      rw [hh.released, hpending]
      rfl
    dropped := fun hgone => by
      rw [hh.released, hh.gone hgone]
      rfl }

/-- A poll that waits, an entry, and the end of the scan. -/
theorem stream_after_end :
    ∃ w, Reachable (step 2) (fun _ _ => True) ({} : World Nat) w ∧
      decide (w.answers = [.entry (.ok 7), .finished] ∧ w.woken = [0] ∧ w.released = 1) = true ∧
        Stream 2 w := by
  obtain ⟨w, hreach, hw⟩ := Reachable.exists_of_run (step 2) (fun _ _ => True) ({} : World Nat)
    [.consumer none, .consumer none, .poll 0, .consumer none, .consumer none,
      .batch 0 .turn, .batch 0 (.opened (.ok ())), .batch 0 .turn, .batch 0 (.next (some (.ok 7))),
      .batch 0 .turn, .batch 0 .turn,
      .poll 1, .consumer none, .consumer none,
      .batch 0 .turn, .batch 0 (.next none), .batch 0 .turn, .batch 0 .turn, .batch 0 .turn,
      .poll 2, .consumer none]
    (fun w => decide (w.answers = [.entry (.ok 7), .finished] ∧ w.woken = [0] ∧ w.released = 1))
    (by simp) (by decide +kernel)
  exact ⟨w, hreach, hw, stream_of_reachable (by decide) hreach⟩

end World

end Runite.Fs.ReadDir
