import Runite.Fs.ReadDirCases

/-!
# Where the batch of a directory is

While the scan goes on, the batch is in one place: requested by the consumer, on
the pool, or running.  When the scan is over, no batch is left that would go on.
-/

namespace Runite.Fs.ReadDir

open Runite.Io

variable {α : Type}

namespace World

variable {w w' : World α} {capacity : Nat}

/-- The batch is in one place while the scan goes on. -/
structure Control (w : World α) : Prop where
  single : w.jobs.length + w.consumer.holds.toNat ≤ 1
  holding : w.consumer.holds = true → w.queue.done = false
  active : w.queue.done = false →
    (w.queue.batchActive = true ↔ w.jobs ≠ [] ∨ w.consumer.holds = true)
  source : w.queue.done = false → w.queue.source = none → ∃ job ∈ w.jobs, job.hasIterator = true
  working : w.queue.done = false → ∀ job ∈ w.jobs, job.isTail = false
  ended : w.queue.done = true → w.queue.cancelled = false → ∀ job ∈ w.jobs, job.isTail = true
  placed : ∀ job ∈ w.jobs, job.placed = true
  tail : w.consumer.isTail = true → w.queue.done = true
  cancelled : w.queue.cancelled = w.consumer.isCancelled
  stopped : w.queue.cancelled = true → w.queue.done = true

theorem Control.init : Control ({} : World α) := by
  constructor <;> simp [Consumer.holds, Consumer.isTail, Consumer.routine, Consumer.isCancelled,
    Routine.holds, Routine.isTail]

theorem Control.eq_singleton {index : Nat} {job : Batch α} (h : Control w)
    (hjob : w.jobs[index]? = some job) :
    w.jobs = [job] ∧ index = 0 ∧ w.consumer.holds = false := by
  obtain ⟨hlt, hget⟩ := List.getElem?_eq_some_iff.mp hjob
  have hsingle := h.single
  have hlength : w.jobs.length = 1 := by omega
  obtain ⟨only, honly⟩ := List.length_eq_one_iff.mp hlength
  have hindex : index = 0 := by omega
  subst hindex
  rw [honly] at hjob
  obtain rfl : only = job := by simpa using hjob
  refine ⟨honly, rfl, ?_⟩
  cases hholds : w.consumer.holds with
  | false => rfl
  | true =>
      rw [hholds, hlength] at hsingle
      simp at hsingle

theorem Control.congr (h : Control w) (hdone : w'.queue.done = w.queue.done)
    (hcancelled : w'.queue.cancelled = w.queue.cancelled)
    (hactive : w'.queue.batchActive = w.queue.batchActive)
    (hsource : w'.queue.source = w.queue.source) (hjobs : w'.jobs = w.jobs)
    (hholds : w'.consumer.holds = w.consumer.holds)
    (htail : w'.consumer.isTail = true → w.queue.done = true)
    (hisCancelled : w'.consumer.isCancelled = w.consumer.isCancelled) : Control w' where
  single := by simpa only [hjobs, hholds] using h.single
  holding := by simpa only [hdone, hholds] using h.holding
  active := by simpa only [hdone, hactive, hjobs, hholds] using h.active
  source := by simpa only [hdone, hsource, hjobs] using h.source
  working := by simpa only [hdone, hjobs] using h.working
  ended := by simpa only [hdone, hcancelled, hjobs] using h.ended
  placed := by simpa only [hjobs] using h.placed
  tail := by simpa only [hdone] using htail
  cancelled := by simpa only [hcancelled, hisCancelled] using h.cancelled
  stopped := by simpa only [hcancelled, hdone] using h.stopped

theorem Control.jobs_eq_nil (h : Control w) (hholds : w.consumer.holds = true) : w.jobs = [] := by
  have hsingle := h.single
  rw [hholds] at hsingle
  exact List.eq_nil_of_length_eq_zero (by simpa using hsingle)

theorem Control.consumer {refused : Option IoError} {r : Routine} {out : Routine ⊕ Bool}
    {c : Consumer α} (h : Control w) (hr : w.consumer.routine = some r)
    (hp : Performed refused w r w' out) (hc : c.routine = out.getLeft?)
    (hisCancelled : c.isCancelled = w.consumer.isCancelled) :
    Control { w' with consumer := c } := by
  have hholds := Consumer.holds_of_routine hr
  have htail := Consumer.isTail_of_routine hr
  have hholds' := Consumer.holds_of_routine hc
  have htail' := Consumer.isTail_of_routine hc
  have hquiet : ∀ {w'' : World α}, w''.queue.done = w.queue.done →
      w''.queue.cancelled = w.queue.cancelled → w''.queue.batchActive = w.queue.batchActive →
      w''.queue.source = w.queue.source → w''.jobs = w.jobs → c.holds = w.consumer.holds →
      (c.isTail = true → w.queue.done = true) → Control { w'' with consumer := c } :=
    fun h₁ h₂ h₃ h₄ h₅ h₆ h₇ => h.congr h₁ h₂ h₃ h₄ h₅ h₆ h₇ hisCancelled
  cases hp with
  | ended => exact hquiet rfl rfl rfl rfl rfl (hholds'.trans hholds.symm) (by simp [htail'])
  | asks => exact hquiet rfl rfl rfl rfl rfl (hholds'.trans hholds.symm) (by simp [htail'])
  | lost => exact hquiet rfl rfl rfl rfl rfl (hholds'.trans hholds.symm) (by simp [htail'])
  | refuses =>
      exact hquiet rfl rfl rfl rfl rfl (hholds'.trans hholds.symm) (by simp [htail', Routine.isTail])
  | gives =>
      exact hquiet rfl rfl rfl rfl rfl (hholds'.trans hholds.symm) (by simp [htail', Routine.isTail])
  | wakes =>
      exact hquiet rfl rfl rfl rfl rfl (hholds'.trans hholds.symm) (fun _ => h.tail htail)
  | releases =>
      refine hquiet ?_ ?_ ?_ ?_ ?_ (hholds'.trans hholds.symm) (fun _ => h.tail htail) <;>
        simp [releasePending, apply_ite]
  | activates hdone hcancelled hactive hsource =>
      have hjobs : w.jobs = [] := by
        by_contra hne
        rw [(h.active hdone).mpr (Or.inl hne)] at hactive
        cases hactive
      exact {
        single := by simp [hjobs, hholds', Routine.holds]
        holding := fun _ => hdone
        active := fun _ => by simp [hholds', Routine.holds]
        source := fun _ hnone => absurd hnone hsource
        working := by simp [hjobs]
        ended := by simp [hjobs]
        placed := by simp [hjobs]
        tail := by simp [htail', Routine.isTail]
        cancelled := h.cancelled.trans hisCancelled.symm
        stopped := h.stopped }
  | submits =>
      have hjobs := h.jobs_eq_nil hholds
      have hdone := h.holding hholds
      exact {
        single := by simp [hjobs, hholds']
        holding := fun _ => hdone
        active := fun _ => by simp [(h.active hdone).mpr (Or.inr hholds)]
        source := fun _ hnone => by simpa [hjobs] using h.source hdone hnone
        working := by simp [hjobs, Batch.isTail]
        ended := fun hover => absurd hover (by simp [hdone])
        placed := by simp [hjobs, Batch.placed]
        tail := by simp [htail']
        cancelled := h.cancelled.trans hisCancelled.symm
        stopped := h.stopped }
  | defers hdone =>
      have hjobs := h.jobs_eq_nil hholds
      exact {
        single := by simp [hjobs, hholds']
        holding := fun _ => hdone
        active := fun _ => by simp [hjobs, hholds']
        source := fun _ hnone => h.source hdone hnone
        working := by simp [hjobs]
        ended := by simp [hjobs]
        placed := by simp [hjobs]
        tail := by simp [htail']
        cancelled := h.cancelled.trans hisCancelled.symm
        stopped := h.stopped }
  | completes =>
      have hjobs := h.jobs_eq_nil hholds
      exact {
        single := by simp [hjobs, hholds', Routine.holds]
        holding := by simp [hholds', Routine.holds]
        active := nofun
        source := nofun
        working := nofun
        ended := by simp [hjobs]
        placed := by simp [hjobs]
        tail := fun _ => rfl
        cancelled := h.cancelled.trans hisCancelled.symm
        stopped := fun _ => rfl }
  | skips hover =>
      have hdone := h.holding hholds
      rw [hdone] at hover
      cases hover
  | drains hdone hcancelled =>
      rw [h.stopped hcancelled] at hdone
      cases hdone

theorem Control.goes {job : Batch α} (next : Batch α) (h : Control w) (hjobs : w.jobs = [job])
    (hconsumer : w'.consumer = w.consumer) (hcancelled : w'.queue.cancelled = w.queue.cancelled)
    (hdone : w'.queue.done = w.queue.done) (hjobs' : w'.jobs = [next])
    (hactive : w.queue.done = false → w'.queue.batchActive = true)
    (hsource : w.queue.done = false → w'.queue.source = none → next.hasIterator = true)
    (htail : next.isTail = job.isTail ∨ w.queue.done = true ∧ next.isTail = true)
    (hplaced : next.placed = true) : Control w' where
  single := by simpa [hjobs', hjobs, hconsumer] using h.single
  holding := by simpa only [hdone, hconsumer] using h.holding
  active hnot := by simp [hjobs', hactive (hdone.symm.trans hnot)]
  source hnot hnone := by simpa [hjobs'] using hsource (hdone.symm.trans hnot) hnone
  working hnot := by
    rw [hdone] at hnot
    rcases htail with htail | ⟨hover, -⟩
    · simpa [hjobs', htail] using h.working hnot job (by simp [hjobs])
    · simp [hnot] at hover
  ended hover hnot := by
    rw [hdone] at hover
    rcases htail with htail | ⟨-, htail⟩
    · simpa [hjobs', htail] using h.ended hover (hcancelled ▸ hnot) job (by simp [hjobs])
    · simpa [hjobs'] using htail
  placed := by simpa [hjobs'] using hplaced
  tail := by simpa only [hdone, hconsumer] using h.tail
  cancelled := by simpa only [hcancelled, hconsumer] using h.cancelled
  stopped := by simpa only [hcancelled, hdone] using h.stopped

theorem Control.goesAway {job : Batch α} (h : Control w) (hjobs : w.jobs = [job])
    (hconsumer : w'.consumer = w.consumer) (hcancelled : w'.queue.cancelled = w.queue.cancelled)
    (hdone : w'.queue.done = w.queue.done) (hjobs' : w'.jobs = [])
    (hactive : w.queue.done = false → w'.queue.batchActive = false)
    (hsource : w.queue.done = false → w'.queue.source ≠ none) : Control w' where
  single := by simp [hjobs', Bool.toNat_le]
  holding := by simpa only [hdone, hconsumer] using h.holding
  active hnot := by
    have hsingle := h.single
    have hholds : w.consumer.holds = false := by
      cases hholds : w.consumer.holds with
      | false => rfl
      | true => simp [hjobs, hholds] at hsingle
    simp [hjobs', hconsumer, hholds, hactive (hdone.symm.trans hnot)]
  source hnot hnone := absurd hnone (hsource (hdone.symm.trans hnot))
  working _ := by simp [hjobs']
  ended _ _ := by simp [hjobs']
  placed := by simp [hjobs']
  tail := by simpa only [hdone, hconsumer] using h.tail
  cancelled := by simpa only [hcancelled, hconsumer] using h.cancelled
  stopped := by simpa only [hcancelled, hdone] using h.stopped

/-- The batch goes on within `submit_batch` or `complete`. -/
theorem Control.routine {refused : Option IoError} {r : Routine} {out : Routine ⊕ Bool}
    {wrap : Routine → Batch α} {w₁ : World α} (h : Control w)
    (hwrap : wrap = .submitting ∨ wrap = .completing) (hjobs : w.jobs = [wrap r])
    (hp : Performed refused w r w₁ out) : Control (w₁.settle 0 (out.getLeft?.map wrap)) := by
  have htail : ∀ r, (wrap r).isTail = r.isTail := by rcases hwrap with rfl | rfl <;> exact fun _ => rfl
  have hplaced := h.placed (wrap r) (by simp [hjobs])
  have hactive : w.queue.done = false → w.queue.batchActive = true :=
    fun hdone => (h.active hdone).mpr (Or.inl (by simp [hjobs]))
  have hsource : ∀ r', w.queue.done = false → w.queue.source = none →
      (wrap r').hasIterator = true := by
    intro r' hdone hnone
    have hiterator := h.source hdone hnone
    rcases hwrap with rfl | rfl
    · simp [hjobs, Batch.hasIterator] at hiterator
    · rfl
  have hover : r.isTail = true → w.queue.done = true := by
    intro hr
    cases hdone : w.queue.done with
    | true => rfl
    | false =>
        have hnot := h.working hdone (wrap r) (by simp [hjobs])
        simp [htail, hr] at hnot
  cases hp with
  | ended => rcases hwrap with rfl | rfl <;> simp [Batch.placed] at hplaced
  | asks => rcases hwrap with rfl | rfl <;> simp [Batch.placed] at hplaced
  | lost => rcases hwrap with rfl | rfl <;> simp [Batch.placed] at hplaced
  | activates => rcases hwrap with rfl | rfl <;> simp [Batch.placed] at hplaced
  | submits =>
      obtain rfl : wrap = .submitting := hwrap.resolve_right fun hcompleting => by
        simp [hcompleting, Batch.placed] at hplaced
      refine h.goes .queued hjobs rfl rfl rfl ?_ hactive ?_ (Or.inl rfl) rfl
      · simp [settle, endJob, hjobs]
      · intro hdone hnone
        simpa [hjobs, Batch.hasIterator] using h.source hdone hnone
  | @refuses error =>
      refine h.goes (wrap (.defer error)) hjobs rfl rfl rfl ?_ hactive (hsource _)
        (Or.inl (by simp [htail, Routine.isTail])) ?_
      · simp [settle, setJob, hjobs]
      · rcases hwrap with rfl | rfl <;> simp_all [Batch.placed]
  | defers hdone hcancelled =>
      obtain rfl : wrap = .submitting := hwrap.resolve_right fun hcompleting => by
        simp [hcompleting, Batch.placed] at hplaced
      refine h.goesAway hjobs rfl rfl rfl ?_ (fun _ => rfl) ?_
      · simp [settle, endJob, hjobs]
      · intro _ hnone
        simpa [hjobs, Batch.hasIterator] using h.source hdone hnone
  | @gives error =>
      refine h.goes (wrap (.complete (some error))) hjobs rfl rfl rfl ?_ hactive (hsource _)
        (Or.inl (by simp [htail, Routine.isTail])) ?_
      · simp [settle, setJob, hjobs]
      · rcases hwrap with rfl | rfl <;> simp_all [Batch.placed]
  | completes hdone hcancelled =>
      exact {
        single := by simpa [settle, setJob, hjobs] using h.single
        holding := fun hholds => by
          have hsingle := h.single
          have hholds : w.consumer.holds = true := hholds
          simp [hjobs, hholds] at hsingle
        active := nofun
        source := nofun
        working := nofun
        ended := fun _ _ => by simp [settle, setJob, hjobs, htail, Routine.isTail]
        placed := by rcases hwrap with rfl | rfl <;> simp [settle, setJob, hjobs, Batch.placed]
        tail := fun _ => rfl
        cancelled := h.cancelled
        stopped := fun _ => rfl }
  | skips hdone =>
      refine h.goes (wrap (.wake none)) hjobs rfl rfl rfl ?_ hactive (hsource _)
        (Or.inr ⟨hdone, ?_⟩) ?_
      · simp [settle, setJob, hjobs]
      · simp [htail, Routine.isTail]
      · rcases hwrap with rfl | rfl <;> simp [Batch.placed]
  | drains hdone hcancelled =>
      rw [h.stopped hcancelled] at hdone
      cases hdone
  | wakes =>
      refine h.goes (wrap .release) hjobs rfl rfl rfl ?_ hactive (hsource _)
        (Or.inl (by simp [htail, Routine.isTail])) ?_
      · simp [settle, setJob, wake, hjobs]
      · rcases hwrap with rfl | rfl <;> simp [Batch.placed]
  | releases =>
      have hdone := hover rfl
      refine h.goesAway hjobs ?_ ?_ ?_ ?_ ?_ ?_
      · simp [settle, endJob, releasePending, apply_ite]
      · simp [settle, endJob, releasePending, apply_ite]
      · simp [settle, endJob, releasePending, apply_ite]
      · simp [settle, endJob, releasePending, apply_ite, hjobs]
      · simp [hdone]
      · simp [hdone]

theorem Control.runs {job : Batch α} {next : Option (Batch α)} {w₁ : World α} (h : Control w)
    (hjobs : w.jobs = [job]) (hr : Ran capacity w job w₁ next) : Control (w₁.settle 0 next) := by
  have hactive : w.queue.done = false → w.queue.batchActive = true :=
    fun hdone => (h.active hdone).mpr (Or.inl (by simp [hjobs]))
  -- the batch keeps the iterator
  have hgoes : ∀ {w₁ : World α} {next : Batch α}, w₁.consumer = w.consumer →
      w₁.queue.cancelled = w.queue.cancelled → w₁.queue.done = w.queue.done → w₁.jobs = w.jobs →
      w₁.queue.batchActive = w.queue.batchActive → next.hasIterator = true →
      next.isTail = job.isTail → next.placed = true → Control (w₁.settle 0 (some next)) := by
    intro w₁ next hconsumer hcancelled hdone hjobs' hactive' hiterator htail hplaced
    refine h.goes next hjobs hconsumer hcancelled hdone ?_ ?_ (fun _ _ => hiterator) (Or.inl htail)
      hplaced
    · simp [settle, setJob, hjobs', hjobs]
    · exact fun hnot => hactive'.trans (hactive hnot)
  cases hr with
  | stops hover htail _ =>
      have hdone : w.queue.done = true := hover.elim id h.stopped
      refine h.goesAway hjobs rfl rfl rfl ?_ (fun _ => rfl) ?_
      · simp [settle, endJob, hjobs]
      · simp [hdone]
  | lost hdone _ hsource =>
      have hiterator := h.source hdone hsource
      simp [hjobs, Batch.hasIterator] at hiterator
  | opens => exact hgoes rfl rfl rfl rfl rfl rfl rfl rfl
  | resumes => exact hgoes rfl rfl rfl rfl rfl rfl rfl rfl
  | opened => exact hgoes rfl rfl rfl rfl rfl rfl rfl rfl
  | fails htail => exact hgoes rfl rfl rfl rfl rfl rfl htail.symm rfl
  | last => exact hgoes rfl rfl rfl rfl rfl rfl rfl rfl
  | full => exact hgoes rfl rfl rfl rfl rfl rfl rfl rfl
  | room => exact hgoes rfl rfl rfl rfl rfl rfl rfl rfl
  | exhausts => exact hgoes rfl rfl rfl rfl rfl rfl rfl rfl
  | pulls => exact hgoes rfl rfl rfl rfl rfl rfl rfl rfl
  | pushes => exact hgoes rfl rfl rfl rfl rfl rfl rfl rfl
  | wakes => exact hgoes rfl rfl rfl rfl rfl rfl rfl rfl
  | restarts =>
      exact h.goes (.submitting .submit) hjobs rfl rfl rfl (by simp [settle, setJob, hjobs]) (fun _ => rfl) nofun
        (Or.inl rfl) rfl
  | rests =>
      exact h.goesAway hjobs rfl rfl rfl (by simp [settle, endJob, hjobs]) (fun _ => rfl) nofun
  | submitting hp => exact h.routine (Or.inl rfl) hjobs hp
  | completing hp => exact h.routine (Or.inr rfl) hjobs hp

theorem Control.step (h : Control w) (hs : Stepped capacity w w') : Control w' := by
  cases hs with
  | polls hidle =>
      refine h.congr rfl rfl rfl rfl rfl ?_ nofun ?_ <;> rw [hidle] <;> rfl
  | drops hidle =>
      refine h.congr rfl rfl rfl rfl rfl ?_ nofun ?_ <;> rw [hidle] <;> rfl
  | advances hadvanced =>
      cases hadvanced with
      | requests hr hp =>
          have h' := h.consumer hr hp (Consumer.routine_resume hr _) (Consumer.isCancelled_resume hr _)
          exact h'.congr rfl rfl rfl rfl rfl rfl h'.tail rfl
      | polls hpolling hpolled =>
          cases hpolled <;> refine h.congr rfl rfl rfl rfl rfl ?_ nofun ?_ <;> rw [hpolling] <;> rfl
      | cancels hcancelling =>
          exact {
            single := by
              have hsingle := h.single
              rw [hcancelling] at hsingle
              exact hsingle
            holding := nofun
            active := nofun
            source := nofun
            working := nofun
            ended := nofun
            placed := h.placed
            tail := nofun
            cancelled := rfl
            stopped := fun _ => rfl }
      | releases hreleasing =>
          refine h.congr ?_ ?_ ?_ ?_ ?_ ?_ nofun ?_ <;>
            simp [releasePending, apply_ite, hreleasing, Consumer.isCancelled, Consumer.holds,
              Consumer.routine]
  | runs hjob hran =>
      obtain ⟨hjobs, rfl, -⟩ := h.eq_singleton hjob
      exact h.runs hjobs hran

end World

end Runite.Fs.ReadDir
