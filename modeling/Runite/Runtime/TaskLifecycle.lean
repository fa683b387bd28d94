import Runite.Runtime.FutureTask
import Runite.Lib.Counting
import Runite.Lib.Table

/-!
# The life of a task

`Fits` relates the fields of one task to what its thread is doing, and `Sound` adds the queue
of poll closures and their number.  Every step of a thread keeps both.
-/

namespace Runite.Runtime

variable {α ω : Type}

/-! ## One task -/

/-- The fields of the task at `id` agree with each other and with what the thread does. -/
structure FutureTask.Fits (control : Control) (id : Nat) (t : FutureTask α ω) : Prop where
  registered_iff : t.registered = true ↔
    t.state = .running ∨ t.state = .finished ∧ control = .completed id
  future_iff : t.future = true ↔ t.state = .running ∧ control ≠ .polling id
  polling : control = .polling id → t.state = .running ∨ t.state = .aborted
  completed : control = .completed id → t.state ≠ .running
  finished_iff : t.state = .finished ↔ t.output.isSome = true
  result : t.result = none ∨ t.result = t.output

namespace FutureTask.Fits

variable {control control' : Control} {id : Nat} {t : FutureTask α ω}

/-- The thread does something that is not about this task. -/
theorem elsewhere (h : t.Fits control id) (hpolling : control ≠ .polling id)
    (hcompleted : control ≠ .completed id) (hpolling' : control' ≠ .polling id)
    (hcompleted' : control' ≠ .completed id) : t.Fits control' id where
  registered_iff := by
    rw [h.registered_iff]
    simp [hcompleted, hcompleted']
  future_iff := by
    rw [h.future_iff]
    simp [hpolling, hpolling']
  polling := fun hc => absurd hc hpolling'
  completed := fun hc => absurd hc hcompleted'
  finished_iff := h.finished_iff
  result := h.result

/-- A task that has ended, and has no part in what the thread does. -/
theorem ended (h : t.Fits control id) {state : TaskState} {queued : Bool}
    {joinWaker : Option ω} (hrunning : t.state = .running) (hstate : state ≠ .running)
    (hfinished : state ≠ .finished) (hpolling : control = .polling id → state = .aborted) :
    Fits control id { t with
      state, queued, joinWaker, future := false, registered := false } where
  registered_iff := by simp [hstate, hfinished]
  future_iff := by simp [hstate]
  polling := fun hc => Or.inr (hpolling hc)
  completed := fun _ => hstate
  finished_iff := by
    have hnone := h.finished_iff
    rw [hrunning] at hnone
    have hout : ¬ t.output.isSome = true := fun hsome => by cases hnone.mpr hsome
    simp [hfinished, hout]
  result := h.result

end FutureTask.Fits

namespace Tasks

variable {s s' : Tasks α ω} {id : Nat} {t : FutureTask α ω}

/-! ## The invariant -/

structure Sound (s : Tasks α ω) : Prop where
  fits : ∀ (i : Nat) (t : FutureTask α ω), s.tasks[i]? = some t → t.Fits s.control i
  present : ∀ i, s.control = .polling i ∨ s.control = .completed i → i < s.tasks.length
  queued : s.control.tearing = false → ∀ (i : Nat) (t : FutureTask α ω), s.tasks[i]? = some t →
    s.localMicrotasks.count (.poll i) = t.queued.toNat
  closures : ∀ i, .poll i ∈ s.localMicrotasks → i < s.tasks.length
  ready : s.readyTasks = s.tasks.countP FutureTask.queued
  readyClosures : s.control.tearing = false →
    s.readyTasks = s.localMicrotasks.countP Microtask.isPoll
  unharmed : s.underflowed = false

theorem Sound.init : ({} : Tasks α ω).Sound where
  fits := by simp
  present := by simp
  queued := by simp
  closures := by simp
  ready := rfl
  readyClosures := fun _ => rfl
  unharmed := rfl

/-- One task changes, but not whether it is queued, and the thread goes on. -/
theorem Sound.updates (h : s.Sound) (hid : s.tasks[id]? = some t) {t' : FutureTask α ω}
    {control : Control} {woken : List ω} (hqueued : t'.queued = t.queued)
    (htearing : control.tearing = s.control.tearing) (hfits : t'.Fits control id)
    (hpresent : ∀ i, control = .polling i ∨ control = .completed i → i < s.tasks.length)
    (hothers : ∀ i (u : FutureTask α ω), i ≠ id → u.Fits s.control i → u.Fits control i) :
    Sound { s with tasks := s.tasks.set id t', control, woken } where
  fits := by
    intro i u hu
    rcases (Table.getElem?_set_eq_some hid).mp hu with ⟨rfl, rfl⟩ | ⟨hne, hold⟩
    · exact hfits
    · exact hothers i u hne (h.fits i u hold)
  present := by
    intro i hi
    rw [List.length_set]
    exact hpresent i hi
  queued := by
    intro hnot i u hu
    rw [htearing] at hnot
    rcases (Table.getElem?_set_eq_some hid).mp hu with ⟨rfl, rfl⟩ | ⟨hne, hold⟩
    · rw [hqueued]
      exact h.queued hnot i t hid
    · exact h.queued hnot i u hold
  closures := by
    intro i hi
    rw [List.length_set]
    exact h.closures i hi
  ready := by
    have hcount := Counting.countP_set_add FutureTask.queued t' hid
    rw [hqueued] at hcount
    have hready := h.ready
    show s.readyTasks = (s.tasks.set id t').countP FutureTask.queued
    omega
  readyClosures := by
    intro hnot
    rw [htearing] at hnot
    exact h.readyClosures hnot
  unharmed := h.unharmed

/-- One task changes while the thread stays where it is. -/
theorem Sound.sets (h : s.Sound) (hid : s.tasks[id]? = some t) {t' : FutureTask α ω}
    {woken : List ω} (hqueued : t'.queued = t.queued) (hfits : t'.Fits s.control id) :
    Sound { s with tasks := s.tasks.set id t', woken } :=
  h.updates hid hqueued rfl hfits h.present fun _ _ _ hu => hu

/-- The thread is in the poll of the task, and stays there or ends it. -/
theorem Sound.inPoll (h : s.Sound) (hid : s.tasks[id]? = some t) (t' : FutureTask α ω)
    {control : Control} (woken : List ω)
    (hcontrol : s.control = .polling id ∨ s.control = .completed id)
    (hcontrol' : control = .idle ∨ control = .completed id)
    (hqueued : t'.queued = t.queued) (hfits : t'.Fits control id) :
    Sound { s with tasks := s.tasks.set id t', control, woken } := by
  refine h.updates hid hqueued ?_ hfits ?_ ?_
  · rcases hcontrol with hc | hc <;> rcases hcontrol' with rfl | rfl <;> rw [hc] <;> rfl
  · intro i hi
    rcases hcontrol' with rfl | rfl
    · simp at hi
    · have heq : id = i := by simpa using hi
      exact heq ▸ (List.getElem?_eq_some_iff.mp hid).1
  · intro i u hne hu
    refine hu.elsewhere ?_ ?_ ?_ ?_
    · rcases hcontrol with hc | hc <;> simp [hc, Ne.symm hne]
    · rcases hcontrol with hc | hc <;> simp [hc, Ne.symm hne]
    · rcases hcontrol' with rfl | rfl <;> simp
    · rcases hcontrol' with rfl | rfl <;> simp [Ne.symm hne]

/-! ## The steps -/

theorem Sound.schedule (h : s.Sound) (hid : s.tasks[id]? = some t) : (s.schedule id t).Sound := by
  unfold Tasks.schedule
  split
  next => exact h
  next hidle =>
    have hqueued : t.queued = false := by simpa using hidle
    have hfits := h.fits id t hid
    exact {
      fits := by
        intro i u hu
        rcases (Table.getElem?_set_eq_some hid).mp hu with ⟨rfl, rfl⟩ | ⟨-, hold⟩
        · exact { hfits with }
        · exact h.fits i u hold
      present := by
        intro i hi
        rw [List.length_set]
        exact h.present i hi
      queued := by
        intro hnot i u hu
        rw [List.count_append]
        rcases (Table.getElem?_set_eq_some hid).mp hu with ⟨rfl, rfl⟩ | ⟨hne, hold⟩
        · rw [h.queued hnot i t hid, hqueued]
          simp
        · rw [h.queued hnot i u hold, List.count_singleton]
          simp [Ne.symm hne]
      closures := by
        intro i hi
        rw [List.length_set]
        rcases List.mem_append.mp hi with hold | hnew
        · exact h.closures i hold
        · obtain rfl : i = id := by simpa using hnew
          exact (List.getElem?_eq_some_iff.mp hid).1
      ready := by
        have hcount := Counting.countP_set_add FutureTask.queued { t with queued := true } hid
        have hready := h.ready
        simp only [hqueued, Bool.toNat_true, Bool.toNat_false] at hcount
        show s.readyTasks + 1 = (s.tasks.set id { t with queued := true }).countP FutureTask.queued
        omega
      readyClosures := by
        intro hnot
        rw [List.countP_append, ← h.readyClosures hnot]
        rfl
      unharmed := h.unharmed }

theorem Sound.scheduleById (h : s.Sound) (id : Nat) : (s.scheduleById id).Sound := by
  unfold Tasks.scheduleById
  split
  next t hid =>
    split
    · exact h.schedule hid
    · exact h
  next => exact h

theorem Sound.queueFuture (h : s.Sound) : s.queueFuture.Sound := by
  have hfresh : ∀ i, s.control = .polling i ∨ s.control = .completed i → i ≠ s.tasks.length :=
    fun i hi => Nat.ne_of_lt (h.present i hi)
  have hspawned : Sound { s with tasks := s.tasks ++ [({} : FutureTask α ω)] } := {
    fits := by
      intro i u hu
      rcases Table.getElem?_concat_eq_some.mp hu with hold | ⟨rfl, rfl⟩
      · exact h.fits i u hold
      · exact {
          registered_iff := by simp
          future_iff := by simpa using fun hc => hfresh _ (Or.inl hc) rfl
          polling := by simp
          completed := fun hc => absurd rfl (hfresh _ (Or.inr hc))
          finished_iff := by simp
          result := Or.inl rfl }
    present := by
      intro i hi
      have hlt := h.present i hi
      simp only [List.length_append, List.length_singleton]
      omega
    queued := by
      intro hnot i u hu
      rcases Table.getElem?_concat_eq_some.mp hu with hold | ⟨rfl, rfl⟩
      · exact h.queued hnot i u hold
      · refine List.count_eq_zero.mpr fun hmem => ?_
        exact Nat.lt_irrefl _ (h.closures _ hmem)
    closures := by
      intro i hi
      have hlt := h.closures i hi
      simp only [List.length_append, List.length_singleton]
      omega
    ready := by
      rw [List.countP_append, ← h.ready]
      rfl
    readyClosures := h.readyClosures
    unharmed := h.unharmed }
  exact hspawned.schedule (Table.getElem?_concat_eq_some.mpr (Or.inr ⟨rfl, rfl⟩))

theorem Sound.abort (h : s.Sound) (hid : s.tasks[id]? = some t) : (s.abort id t).Sound := by
  unfold Tasks.abort FutureTask.markTerminal
  split
  next hrunning =>
    exact h.sets hid rfl ((h.fits id t hid).ended hrunning nofun nofun fun _ => rfl)
  next => exact h

/-- The closure of a task that is queued is taken out, and nobody polls yet. -/
theorem Sound.takes {rest : List Microtask} (h : s.Sound)
    (hclosures : s.localMicrotasks = .poll id :: rest) (hid : s.tasks[id]? = some t)
    (hcontrol : s.control = .idle) {control : Control}
    (hcontrol' : control = .idle ∨ control = .polling id)
    (hfits : FutureTask.Fits control id { t with queued := false, future := false }) :
    Sound { ({ s with
      localMicrotasks := rest
      tasks := s.tasks.set id { t with queued := false, future := false } }.release 1) with
        control } := by
  have hnot : s.control.tearing = false := by rw [hcontrol]; rfl
  have hlt : id < s.tasks.length := (List.getElem?_eq_some_iff.mp hid).1
  have hone := h.queued hnot id t hid
  rw [hclosures, List.count_cons_self] at hone
  have hqueued : t.queued = true := by
    cases hq : t.queued with
    | true => rfl
    | false =>
        rw [hq] at hone
        cases hone
  have hcount := Counting.countP_set_add FutureTask.queued { t with queued := false, future := false } hid
  have hready := h.ready
  have hclosed := h.readyClosures hnot
  rw [hclosures, List.countP_cons_of_pos (by rfl)] at hclosed
  simp only [hqueued, Bool.toNat_true, Bool.toNat_false] at hcount hone
  exact {
    fits := by
      intro i u hu
      rcases (Table.getElem?_set_eq_some hid).mp hu with ⟨rfl, rfl⟩ | ⟨hne, hold⟩
      · exact hfits
      · refine (h.fits i u hold).elsewhere ?_ ?_ ?_ ?_
        · simp [hcontrol]
        · simp [hcontrol]
        · rcases hcontrol' with rfl | rfl <;> simp [Ne.symm hne]
        · rcases hcontrol' with rfl | rfl <;> simp
    present := by
      intro i hi
      show i < (s.tasks.set id { t with queued := false, future := false }).length
      rw [List.length_set]
      rcases hcontrol' with rfl | rfl
      · simp at hi
      · have heq : id = i := by simpa using hi
        exact heq ▸ hlt
    queued := by
      intro _ i u hu
      rcases (Table.getElem?_set_eq_some hid).mp hu with ⟨rfl, rfl⟩ | ⟨hne, hold⟩
      · show rest.count (.poll i) = 0
        omega
      · have hother := h.queued hnot i u hold
        rw [hclosures, List.count_cons_of_ne (by simpa using Ne.symm hne)] at hother
        exact hother
    closures := by
      intro i hi
      show i < (s.tasks.set id { t with queued := false, future := false }).length
      rw [List.length_set]
      exact h.closures i (by rw [hclosures]; exact List.mem_cons_of_mem _ hi)
    ready := by
      show s.readyTasks - 1 = (s.tasks.set id { t with queued := false, future := false }).countP _
      omega
    readyClosures := by
      intro _
      show s.readyTasks - 1 = rest.countP Microtask.isPoll
      omega
    unharmed := by
      show (s.underflowed || decide (s.readyTasks < 1)) = false
      rw [h.unharmed]
      simpa using by omega }

theorem Sound.poll {rest : List Microtask} (h : s.Sound)
    (hclosures : s.localMicrotasks = .poll id :: rest) (hid : s.tasks[id]? = some t)
    (hcontrol : s.control = .idle) :
    (({ s with localMicrotasks := rest } : Tasks α ω).poll id t).1.Sound := by
  have hfits := h.fits id t hid
  unfold Tasks.poll
  simp only []
  split
  next hfuture =>
    have hrunning := (hfits.future_iff.mp hfuture).1
    refine h.takes hclosures hid hcontrol (Or.inr rfl) ?_
    exact {
      registered_iff := by
        rw [hfits.registered_iff]
        simp [hrunning]
      future_iff := by simp
      polling := by simp [hrunning]
      completed := by simp
      finished_iff := hfits.finished_iff
      result := hfits.result }
  next hfuture =>
    have hgone : t.future = false := by simpa using hfuture
    refine h.takes hclosures hid hcontrol (Or.inl hcontrol) { hfits with future_iff := ?_ }
    rw [← hfits.future_iff, hgone]

theorem Sound.runMicrotask {answer : Answer α} (h : s.Sound) (hcontrol : s.control = .idle)
    (hrun : s.runMicrotask = some (s', answer)) : s'.Sound := by
  unfold Tasks.runMicrotask at hrun
  split at hrun
  next => cases hrun
  next rest hclosures =>
    have hs : { s with localMicrotasks := rest } = s' := congrArg Prod.fst (Option.some.inj hrun)
    rw [← hs]
    exact {
      h with
      queued := by
        intro hnot i u hu
        have hcount := h.queued hnot i u hu
        rwa [hclosures, List.count_cons_of_ne (by simp)] at hcount
      closures := fun i hi => h.closures i (by rw [hclosures]; exact List.mem_cons_of_mem _ hi)
      readyClosures := by
        intro hnot
        have hcount := h.readyClosures hnot
        rwa [hclosures, List.countP_cons_of_neg (by simp [Microtask.isPoll])] at hcount }
  next id rest hclosures =>
    obtain ⟨t, hid, heq⟩ := Option.map_eq_some_iff.mp hrun
    have hs : (({ s with localMicrotasks := rest } : Tasks α ω).poll id t).1 = s' :=
      congrArg Prod.fst heq
    rw [← hs]
    exact h.poll hclosures hid hcontrol

theorem Sound.complete (h : s.Sound) (hid : s.tasks[id]? = some t)
    (hcontrol : s.control = .polling id) (value : α) : (s.complete id t value).Sound := by
  have hfits := h.fits id t hid
  have hfuture : t.future = false := by
    have hiff := hfits.future_iff
    simpa [hcontrol] using hiff
  unfold Tasks.complete
  split
  next hrunning =>
    refine h.inPoll hid _ _ (Or.inl hcontrol) (Or.inr rfl) rfl ?_
    exact {
      registered_iff := by simpa using hfits.registered_iff.mpr (Or.inl hrunning)
      future_iff := by simp [hfuture]
      polling := by simp
      completed := by simp
      finished_iff := by simp
      result := Or.inr rfl }
  next hended =>
    have haborted : t.state = .aborted := (hfits.polling hcontrol).resolve_left hended
    have hs := h.inPoll hid t s.woken (Or.inl hcontrol)
      (Or.inr rfl : Control.completed id = .idle ∨ _) rfl
      { hfits with
        registered_iff := by simp [hfits.registered_iff, haborted]
        future_iff := by simp [hfits.future_iff, haborted]
        polling := by simp
        completed := fun _ => hended }
    rwa [Table.set_eq_self hid] at hs

theorem Sound.pollPending (h : s.Sound) (hid : s.tasks[id]? = some t)
    (hcontrol : s.control = .polling id) : (s.pollPending id t).Sound := by
  have hfits := h.fits id t hid
  unfold Tasks.pollPending
  split
  next haborted =>
    have hs := h.inPoll hid t s.woken (Or.inl hcontrol)
      (Or.inl rfl : Control.idle = .idle ∨ _) rfl
      { hfits with
        registered_iff := by simp [hfits.registered_iff, haborted]
        future_iff := by simp [hfits.future_iff, haborted]
        polling := by simp
        completed := by simp }
    rwa [Table.set_eq_self hid] at hs
  next hrunning =>
    have hstate : t.state = .running := (hfits.polling hcontrol).resolve_right hrunning
    refine h.inPoll hid _ _ (Or.inl hcontrol) (Or.inl rfl) rfl ?_
    exact {
      hfits with
      registered_iff := by simp [hfits.registered_iff, hstate]
      future_iff := by simp [hstate]
      polling := by simp
      completed := by simp }

theorem FutureTask.Fits.deregisters {control : Control} (hfits : t.Fits control id)
    (hended : t.state ≠ .running) :
    FutureTask.Fits .idle id { t with registered := false } :=
  { hfits with
    registered_iff := by simp [hended]
    future_iff := by simp [hfits.future_iff, hended]
    polling := by simp
    completed := by simp }

theorem Sound.pollReady (h : s.Sound) (hid : s.tasks[id]? = some t)
    (hcontrol : s.control = .completed id) : (s.pollReady id t).Sound := by
  have hfits := h.fits id t hid
  exact h.inPoll hid _ _ (Or.inr hcontrol) (Or.inl rfl) rfl
    (FutureTask.Fits.deregisters hfits (hfits.completed hcontrol))

theorem Sound.pollPanics (h : s.Sound) (hid : s.tasks[id]? = some t)
    (hcontrol : s.control = .polling id ∨ s.control = .completed id) :
    (s.pollPanics id t).Sound := by
  have hfits := h.fits id t hid
  unfold Tasks.pollPanics FutureTask.markTerminal
  by_cases hrunning : t.state = .running
  · have hpolling : s.control = .polling id :=
      hcontrol.resolve_right fun hc => hfits.completed hc hrunning
    have hfuture : t.future = false := by
      have hiff := hfits.future_iff
      simpa [hpolling] using hiff
    have hout : t.output.isSome = false := by
      have hiff := hfits.finished_iff
      rw [hrunning] at hiff
      simpa using hiff
    simp only [hrunning, if_true]
    refine h.inPoll hid _ _ hcontrol (Or.inl rfl) rfl ?_
    exact {
      registered_iff := by simp
      future_iff := by simp [hfuture]
      polling := by simp
      completed := by simp
      finished_iff := by simp [hout]
      result := hfits.result }
  · simp only [hrunning, if_false]
    exact h.inPoll hid _ _ hcontrol (Or.inl rfl) rfl (FutureTask.Fits.deregisters hfits hrunning)

theorem Sound.pollJoin (h : s.Sound) (hid : s.tasks[id]? = some t) (waker : ω) :
    (s.pollJoin id t waker).1.Sound := by
  have hfits := h.fits id t hid
  unfold Tasks.pollJoin
  split
  next =>
    split
    next => exact h.sets hid rfl { hfits with result := Or.inl rfl }
    next => exact h
  next => exact h
  next => exact h
  next => exact h
  next => exact h.sets hid rfl { hfits with }

/-! ## Shutdown -/

theorem cancel_queued (t : FutureTask α ω) : t.cancel.queued = (!t.cancels && t.queued) := by
  unfold FutureTask.cancel FutureTask.cancels
  by_cases hregistered : t.registered = true
  · by_cases hrunning : t.state = .running
    · simp [hregistered, hrunning]
    · simp [hregistered, hrunning]
  · simp [hregistered]

theorem countP_queued_cancel (xs : List (FutureTask α ω)) :
    xs.countP FutureTask.queued =
      (xs.map FutureTask.cancel).countP FutureTask.queued +
        xs.countP fun t => t.cancels && t.queued := by
  rw [List.countP_map]
  refine Counting.countP_eq_add_of_disjoint ?_ ?_
  · intro t _
    rw [Function.comp_apply, cancel_queued]
    cases t.cancels <;> simp
  · intro t _ hq
    rw [Function.comp_apply, cancel_queued] at hq
    cases hcancels : t.cancels with
    | false => rfl
    | true =>
        rw [hcancels] at hq
        cases hq

theorem FutureTask.Fits.cancel {control : Control} (hfits : t.Fits control id)
    (hpolling : control ≠ .polling id) (hcompleted : control ≠ .completed id) :
    t.cancel.Fits control id := by
  unfold FutureTask.cancel
  split
  next => exact hfits
  next =>
    split
    next hrunning => exact hfits.ended hrunning nofun nofun fun hc => absurd hc hpolling
    next hended =>
      exact {
        hfits with
        registered_iff := by simp [hended, hcompleted] }

theorem Sound.cancelTasks (h : s.Sound)
    (hcontrol : s.control = .idle ∧ s.localMicrotasks = [] ∨ s.control = .tearingDown) :
    s.cancelTasks.Sound := by
  have hcount := countP_queued_cancel s.tasks
  have hready := h.ready
  have hlength : s.cancelTasks.tasks.length = s.tasks.length := List.length_map _
  have hnot : ∀ i, s.control ≠ .polling i ∧ s.control ≠ .completed i := by
    intro i
    rcases hcontrol with ⟨hc, -⟩ | hc <;> simp [hc]
  -- Out of teardown no task is queued, because no closure is.
  have hnone : s.control.tearing = false → s.localMicrotasks = [] := by
    intro htearing
    rcases hcontrol with ⟨-, hempty⟩ | hc
    · exact hempty
    · rw [hc] at htearing
      cases htearing
  exact {
    fits := by
      intro i u hu
      obtain ⟨t, ht, rfl⟩ := Table.getElem?_map_eq_some.mp hu
      exact FutureTask.Fits.cancel (h.fits i t ht) (hnot i).1 (hnot i).2
    present := by
      intro i hi
      rw [hlength]
      exact h.present i hi
    queued := by
      intro htearing i u hu
      obtain ⟨t, ht, rfl⟩ := Table.getElem?_map_eq_some.mp hu
      have hempty := hnone htearing
      have hq := h.queued htearing i t ht
      show s.localMicrotasks.count (.poll i) = _
      rw [cancel_queued]
      rw [hempty] at hq ⊢
      cases hqueued : t.queued with
      | false => simp
      | true =>
          rw [hqueued] at hq
          cases hq
    closures := by
      intro i hi
      rw [hlength]
      exact h.closures i hi
    ready := by
      show s.readyTasks - _ = (s.tasks.map FutureTask.cancel).countP FutureTask.queued
      omega
    readyClosures := by
      intro htearing
      have hclosures := h.readyClosures htearing
      rw [hnone htearing] at hclosures
      show s.readyTasks - _ = s.localMicrotasks.countP Microtask.isPoll
      rw [hnone htearing, hclosures]
      exact Nat.zero_sub _
    unharmed := by
      show (s.underflowed || decide (s.readyTasks < _)) = false
      rw [h.unharmed]
      simpa using by omega }

/-! ## Every step -/

theorem eq_of_inPoll {f : FutureTask α ω → Tasks α ω} {answer : Answer α}
    (h : s.inPoll id f = some (s', answer)) : ∃ t, s.tasks[id]? = some t ∧ f t = s' := by
  obtain ⟨t, hid, heq⟩ := Option.map_eq_some_iff.mp h
  exact ⟨t, hid, congrArg Prod.fst heq⟩

theorem act_complete {value : α} {answer : Answer α}
    (hact : s.act (.complete value) = some (s', answer)) :
    ∃ id t, s.control = .polling id ∧ s.tasks[id]? = some t ∧ s.complete id t value = s' := by
  simp only [Tasks.act] at hact
  split at hact
  next id hcontrol =>
    obtain ⟨t, hid, heq⟩ := eq_of_inPoll hact
    exact ⟨id, t, hcontrol, hid, heq⟩
  next => cases hact

theorem act_pending {answer : Answer α} (hact : s.act .pending = some (s', answer)) :
    ∃ id t, s.control = .polling id ∧ s.tasks[id]? = some t ∧ s.pollPending id t = s' := by
  simp only [Tasks.act] at hact
  split at hact
  next id hcontrol =>
    obtain ⟨t, hid, heq⟩ := eq_of_inPoll hact
    exact ⟨id, t, hcontrol, hid, heq⟩
  next => cases hact

theorem act_ready {answer : Answer α} (hact : s.act .ready = some (s', answer)) :
    ∃ id t, s.control = .completed id ∧ s.tasks[id]? = some t ∧ s.pollReady id t = s' := by
  simp only [Tasks.act] at hact
  split at hact
  next id hcontrol =>
    obtain ⟨t, hid, heq⟩ := eq_of_inPoll hact
    exact ⟨id, t, hcontrol, hid, heq⟩
  next => cases hact

theorem act_panic {answer : Answer α} (hact : s.act .panic = some (s', answer)) :
    ∃ id t, (s.control = .polling id ∨ s.control = .completed id) ∧ s.tasks[id]? = some t ∧
      s.pollPanics id t = s' := by
  simp only [Tasks.act] at hact
  split at hact
  next id hcontrol =>
    obtain ⟨t, hid, heq⟩ := eq_of_inPoll hact
    exact ⟨id, t, Or.inl hcontrol, hid, heq⟩
  next id hcontrol =>
    obtain ⟨t, hid, heq⟩ := eq_of_inPoll hact
    exact ⟨id, t, Or.inr hcontrol, hid, heq⟩
  next => cases hact

theorem Sound.act {a : Action α ω} {answer : Answer α} (h : s.Sound)
    (hact : s.act a = some (s', answer)) : s'.Sound := by
  cases a with
  | queueFuture =>
      obtain ⟨-, heq⟩ := Option.ite_none_left_eq_some.mp hact
      cases heq
      exact h.queueFuture
  | wake id =>
      obtain ⟨-, heq⟩ := Option.ite_none_left_eq_some.mp hact
      cases heq
      exact h.scheduleById id
  | abort id =>
      obtain ⟨t, hid, heq⟩ := Option.map_eq_some_iff.mp hact
      cases heq
      exact h.abort hid
  | pollJoin id waker =>
      obtain ⟨t, hid, heq⟩ := Option.map_eq_some_iff.mp hact
      have hs : (s.pollJoin id t waker).1 = s' := congrArg Prod.fst heq
      rw [← hs]
      exact h.pollJoin hid waker
  | queueMicrotask =>
      obtain ⟨-, heq⟩ := Option.ite_none_left_eq_some.mp hact
      cases heq
      exact {
        h with
        queued := by
          intro hnot i t ht
          rw [List.count_append, h.queued hnot i t ht]
          simp
        closures := fun i hi => h.closures i (by simpa using hi)
        readyClosures := by
          intro hnot
          rw [List.countP_append, ← h.readyClosures hnot]
          rfl }
  | enter | leave =>
      obtain ⟨-, heq⟩ := Option.ite_none_right_eq_some.mp hact
      cases heq
      exact { h with }
  | runMicrotask =>
      obtain ⟨⟨hcontrol, -⟩, heq⟩ := Option.ite_none_right_eq_some.mp hact
      exact h.runMicrotask hcontrol heq
  | complete value =>
      obtain ⟨id, t, hcontrol, hid, rfl⟩ := act_complete hact
      exact h.complete hid hcontrol value
  | pending =>
      obtain ⟨id, t, hcontrol, hid, rfl⟩ := act_pending hact
      exact h.pollPending hid hcontrol
  | ready =>
      obtain ⟨id, t, hcontrol, hid, rfl⟩ := act_ready hact
      exact h.pollReady hid hcontrol
  | panic =>
      obtain ⟨id, t, hcontrol, hid, rfl⟩ := act_panic hact
      exact h.pollPanics hid hcontrol
  | commitIdle =>
      obtain ⟨⟨hcontrol, -, hempty⟩, heq⟩ := Option.ite_none_right_eq_some.mp hact
      cases heq
      exact h.cancelTasks (Or.inl ⟨hcontrol, hempty⟩)
  | tearDown =>
      obtain ⟨⟨hcontrol, -⟩, heq⟩ := Option.ite_none_right_eq_some.mp hact
      cases heq
      exact {
        h with
        fits := fun i t ht => (h.fits i t ht).elsewhere (by simp [hcontrol]) (by simp [hcontrol])
          (by simp) (by simp)
        present := by simp
        queued := nofun
        readyClosures := nofun }
  | cancelAll =>
      obtain ⟨hcontrol, heq⟩ := Option.ite_none_right_eq_some.mp hact
      split at heq
      next =>
        cases heq
        exact h.cancelTasks (Or.inr hcontrol)
      next =>
        cases heq
        exact {
          h with
          fits := fun i t ht => (h.fits i t ht).elsewhere (by simp [hcontrol])
            (by simp [hcontrol]) (by simp) (by simp)
          present := by simp
          queued := nofun
          readyClosures := nofun }

theorem sound_of_reachable (hreach : s.Reachable) : s.Sound := by
  refine hreach.invariant Sound .init ?_
  intro s a s' h _ hstep
  obtain ⟨⟨t, answer⟩, hact, rfl⟩ := Option.map_eq_some_iff.mp hstep
  exact h.act hact

end Tasks

end Runite.Runtime
