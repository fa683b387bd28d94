import Runite.Runtime.TaskLifecycle

/-!
# The outcome of a task

What a step leaves of a task, and what is observed of it: no step changes the state of a task
that has ended, its future is not polled any more, and its join handle answers with the
outcome.
-/

namespace Runite.Runtime

variable {α ω : Type}

/-- A poll of the join handle of the task may answer this. -/
def FutureTask.Observed (t : FutureTask α ω) : Answer α → Prop
  | .pending => t.state = .running
  | .ready output => t.state = .finished ∧ t.output = some output
  | .failed .aborted => t.state = .aborted
  | .failed .cancelled => t.state = .cancelled
  | .failed .panicked => t.state = .panicked
  | .panics => t.state = .finished ∧ t.result = none
  | _ => False

namespace Tasks

variable {s s' : Tasks α ω} {id : Nat} {t : FutureTask α ω}

/-! ## What a step leaves of a task -/

/-- A task that has ended has the same state afterwards, and a queued task that goes on is
queued, unless it is the one that is polled.  A task finishes with a result, which only its
join handle takes. -/
structure Follows (a : Action α ω) (answer : Answer α) (id : Nat) (t t' : FutureTask α ω) :
    Prop where
  state : t.state ≠ .running → t'.state = t.state
  queued : t'.state = .running → t.queued = true → t'.queued = true ∨ answer = .polled id
  finished : t.state ≠ .finished → t'.state = .finished → t'.result ≠ none
  result : t.result ≠ none → t'.result = none →
    ∃ waker output, a = .pollJoin id waker ∧ answer = .ready output

theorem Follows.of_eq {a : Action α ω} {answer : Answer α} {t' : FutureTask α ω}
    (hstate : t'.state = t.state) (hresult : t'.result = t.result)
    (hqueued : t'.state = .running → t.queued = true → t'.queued = true ∨ answer = .polled id) :
    Follows a answer id t t' where
  state _ := hstate
  queued := hqueued
  finished hnot hfinished := absurd (hstate.symm.trans hfinished) hnot
  result hsome hnone := absurd (hresult.symm.trans hnone) hsome

theorem Follows.refl (a : Action α ω) (answer : Answer α) (id : Nat) (t : FutureTask α ω) :
    Follows a answer id t t :=
  .of_eq rfl rfl fun _ => Or.inl

/-- The tasks of `s` after a step that led to `s'`. -/
def Followed (a : Action α ω) (answer : Answer α) (s s' : Tasks α ω) : Prop :=
  ∀ (i : Nat) (t : FutureTask α ω), s.tasks[i]? = some t →
    ∃ t', s'.tasks[i]? = some t' ∧ Follows a answer i t t'

theorem Followed.of_eq {a : Action α ω} {answer : Answer α} (heq : s'.tasks = s.tasks) :
    Followed a answer s s' :=
  fun i t ht => ⟨t, by rw [heq]; exact ht, .refl a answer i t⟩

theorem Followed.of_set {a : Action α ω} {answer : Answer α} {t' : FutureTask α ω} (hid : s.tasks[id]? = some t)
    (heq : s'.tasks = s.tasks.set id t') (hfollows : Follows a answer id t t') :
    Followed a answer s s' := by
  intro i u hu
  by_cases hi : i = id
  · subst hi
    obtain rfl : t = u := Option.some.inj (hid.symm.trans hu)
    exact ⟨t', by rw [heq]; exact Table.getElem?_set_self hid, hfollows⟩
  · refine ⟨u, ?_, .refl a answer i u⟩
    rw [heq]
    exact (Table.getElem?_set_eq_some hid).mpr (Or.inr ⟨hi, hu⟩)

theorem followed_schedule {a : Action α ω} {answer : Answer α} (hid : s.tasks[id]? = some t) :
    Followed a answer s (s.schedule id t) := by
  unfold Tasks.schedule
  split
  · exact .of_eq rfl
  · exact .of_set hid rfl (.of_eq rfl rfl fun _ _ => Or.inl rfl)

theorem followed_scheduleById {a : Action α ω} {answer : Answer α} (s : Tasks α ω) (id : Nat) :
    Followed a answer s (s.scheduleById id) := by
  unfold Tasks.scheduleById
  split
  next t hid =>
    split
    · exact followed_schedule hid
    · exact .of_eq rfl
  next => exact .of_eq rfl

theorem followed_queueFuture {a : Action α ω} {answer : Answer α} (s : Tasks α ω) :
    Followed a answer s s.queueFuture := by
  intro i t ht
  have happend : (s.tasks ++ [({} : FutureTask α ω)])[i]? = some t :=
    Table.getElem?_concat_eq_some.mpr (Or.inl ht)
  have hnew : (s.tasks ++ [({} : FutureTask α ω)])[s.tasks.length]? = some {} :=
    Table.getElem?_concat_eq_some.mpr (Or.inr ⟨rfl, rfl⟩)
  exact followed_schedule (s := { s with tasks := s.tasks ++ [{}] }) hnew i t happend

theorem followed_cancelTasks {a : Action α ω} {answer : Answer α} (s : Tasks α ω) :
    Followed a answer s s.cancelTasks := by
  intro i t ht
  have hstate : t.state ≠ .running → t.cancel.state = t.state := by
    intro hended
    unfold FutureTask.cancel
    simp only [hended, if_false]
    split <;> rfl
  have hresult : t.cancel.result = t.result := by
    unfold FutureTask.cancel
    split
    · rfl
    · split <;> rfl
  refine ⟨t.cancel, Table.getElem?_map_eq_some.mpr ⟨t, ht, rfl⟩, hstate, ?_, ?_, ?_⟩
  · intro hrunning hqueued
    refine Or.inl ?_
    rw [cancel_queued, hqueued]
    unfold FutureTask.cancel at hrunning
    cases hcancels : t.cancels with
    | false => rfl
    | true =>
        obtain ⟨hregistered, hstate'⟩ : t.registered = true ∧ t.state = .running := by
          simpa [FutureTask.cancels] using hcancels
        simp [hregistered, hstate'] at hrunning
  · intro hnot hfinished
    by_cases hrunning : t.state = .running
    · unfold FutureTask.cancel at hfinished
      split at hfinished
      next => exact absurd hfinished hnot
      next => simp at hfinished
    · exact absurd ((hstate hrunning).symm.trans hfinished) hnot
  · intro hsome hnone
    exact absurd (hresult.symm.trans hnone) hsome

theorem followed_pollJoin {id : Nat} {t : FutureTask α ω} {waker : ω} {answer : Answer α}
    (hid : s.tasks[id]? = some t) (heq : s.pollJoin id t waker = (s', answer)) :
    Followed (.pollJoin id waker) answer s s' := by
  have hs : (s.pollJoin id t waker).1 = s' := congrArg Prod.fst heq
  rw [← hs]
  unfold Tasks.pollJoin at heq ⊢
  split
  next hstate =>
    split
    next output hsome =>
      simp only [hstate, hsome] at heq
      cases heq
      refine .of_set hid rfl ⟨fun _ => rfl, fun _ => Or.inl, ?_, ?_⟩
      · exact fun hnot => absurd hstate hnot
      · exact fun _ _ => ⟨waker, output, rfl, rfl⟩
    next => exact .of_eq rfl
  next => exact .of_eq rfl
  next => exact .of_eq rfl
  next => exact .of_eq rfl
  next => exact .of_set hid rfl (.of_eq rfl rfl fun _ => Or.inl)

theorem Sound.followed_runMicrotask {answer : Answer α} (h : s.Sound)
    (hcontrol : s.control = .idle) (heq : s.runMicrotask = some (s', answer)) :
    Followed .runMicrotask answer s s' := by
  unfold Tasks.runMicrotask at heq
  split at heq
  next => cases heq
  next =>
    cases heq
    exact .of_eq rfl
  next id rest hclosures =>
    obtain ⟨t, hid, hpoll⟩ := Option.map_eq_some_iff.mp heq
    unfold Tasks.poll at hpoll
    simp only [] at hpoll
    split at hpoll
    next =>
      cases hpoll
      exact .of_set hid rfl (.of_eq rfl rfl fun _ _ => Or.inr rfl)
    next hgone =>
      -- Without its future and out of a poll the task has ended.
      cases hpoll
      refine .of_set hid rfl (.of_eq rfl rfl fun hrunning => absurd ?_ hgone)
      exact (h.fits id t hid).future_iff.mpr ⟨hrunning, by simp [hcontrol]⟩

theorem Sound.followed {a : Action α ω} {answer : Answer α} (h : s.Sound)
    (hact : s.act a = some (s', answer)) : Followed a answer s s' := by
  cases a with
  | queueFuture =>
      obtain ⟨-, heq⟩ := Option.ite_none_left_eq_some.mp hact
      cases heq
      exact followed_queueFuture s
  | wake id =>
      obtain ⟨-, heq⟩ := Option.ite_none_left_eq_some.mp hact
      cases heq
      exact followed_scheduleById s id
  | abort id =>
      obtain ⟨t, hid, heq⟩ := Option.map_eq_some_iff.mp hact
      cases heq
      unfold Tasks.abort FutureTask.markTerminal
      split
      next hrunning =>
        refine .of_set hid rfl ⟨fun hended => absurd hrunning hended, by simp, by simp, ?_⟩
        exact fun hsome hnone => absurd hnone hsome
      next => exact .of_eq rfl
  | pollJoin id waker =>
      obtain ⟨t, hid, heq⟩ := Option.map_eq_some_iff.mp hact
      exact followed_pollJoin hid heq
  | queueMicrotask =>
      obtain ⟨-, heq⟩ := Option.ite_none_left_eq_some.mp hact
      cases heq
      exact .of_eq rfl
  | enter | leave | tearDown =>
      obtain ⟨-, heq⟩ := Option.ite_none_right_eq_some.mp hact
      cases heq
      exact .of_eq rfl
  | runMicrotask =>
      obtain ⟨⟨hcontrol, -⟩, heq⟩ := Option.ite_none_right_eq_some.mp hact
      exact h.followed_runMicrotask hcontrol heq
  | complete value =>
      obtain ⟨id, t, hcontrol, hid, rfl⟩ := act_complete hact
      unfold Tasks.complete
      split
      next hrunning =>
        exact .of_set hid rfl ⟨fun hended => absurd hrunning hended, by simp, by simp, by simp⟩
      next => exact .of_eq rfl
  | pending =>
      obtain ⟨id, t, hcontrol, hid, rfl⟩ := act_pending hact
      unfold Tasks.pollPending
      split
      · exact .of_eq rfl
      · exact .of_set hid rfl (.of_eq rfl rfl fun _ => Or.inl)
  | ready =>
      obtain ⟨id, t, hcontrol, hid, rfl⟩ := act_ready hact
      exact .of_set hid rfl (.of_eq rfl rfl fun _ => Or.inl)
  | panic =>
      obtain ⟨id, t, hcontrol, hid, rfl⟩ := act_panic hact
      unfold Tasks.pollPanics FutureTask.markTerminal
      by_cases hrunning : t.state = .running
      · simp only [hrunning, if_true]
        refine .of_set hid rfl ⟨fun hended => absurd hrunning hended, by simp, by simp, ?_⟩
        exact fun hsome hnone => absurd hnone hsome
      · simp only [hrunning, if_false]
        exact .of_set hid rfl (.of_eq rfl rfl fun _ => Or.inl)
  | commitIdle =>
      obtain ⟨-, heq⟩ := Option.ite_none_right_eq_some.mp hact
      cases heq
      exact followed_cancelTasks s
  | cancelAll =>
      obtain ⟨-, heq⟩ := Option.ite_none_right_eq_some.mp hact
      split at heq
      next =>
        cases heq
        exact followed_cancelTasks s
      next =>
        cases heq
        exact .of_eq rfl

/-- Every run goes on from a sound state, and keeps the state of a task that has ended. -/
theorem Sound.run (h : s.Sound) (hrun : Transition.Reachable step (fun _ _ => True) s s') :
    s'.Sound ∧ ∀ (i : Nat) (t : FutureTask α ω), s.tasks[i]? = some t → t.state ≠ .running →
      ∃ t' : FutureTask α ω, s'.tasks[i]? = some t' ∧ t'.state = t.state := by
  induction hrun with
  | init => exact ⟨h, fun i t ht _ => ⟨t, ht, rfl⟩⟩
  | next _ _ hstep ih =>
      obtain ⟨⟨u, answer⟩, hact, rfl⟩ := Option.map_eq_some_iff.mp hstep
      refine ⟨ih.1.act hact, ?_⟩
      intro i t ht hended
      obtain ⟨t', ht', hstate⟩ := ih.2 i t ht hended
      obtain ⟨t'', ht'', hfollows⟩ := ih.1.followed hact i t' ht'
      exact ⟨t'', ht'', (hfollows.state (hstate ▸ hended)).trans hstate⟩

/-- The step is no poll of the task's join handle that answers with its output. -/
def Unread (id : Nat) (s : Tasks α ω) (a : Action α ω) : Prop :=
  ∀ waker output s', a = .pollJoin id waker → s.act a ≠ some (s', .ready output)

/-- As long as its join handle has not answered with its output, a finished task has it. -/
theorem Sound.unread (h : s.Sound) (hid : s.tasks[id]? = some t) (hrunning : t.state = .running)
    (hrun : Transition.Reachable step (Unread id) s s') :
    s'.Sound ∧ ∃ t', s'.tasks[id]? = some t' ∧ (t'.state = .finished → t'.result ≠ none) := by
  induction hrun with
  | init => exact ⟨h, t, hid, by simp [hrunning]⟩
  | @next s' _ a _ hunread hstep ih =>
      obtain ⟨⟨u, answer⟩, hact, rfl⟩ := Option.map_eq_some_iff.mp hstep
      obtain ⟨hsound, t', ht', hresult⟩ := ih
      obtain ⟨t'', ht'', hfollows⟩ := hsound.followed hact id t' ht'
      refine ⟨hsound.act hact, t'', ht'', fun hfinished hnone => ?_⟩
      by_cases hbefore : t'.state = .finished
      · obtain ⟨waker, output, ha, rfl⟩ := hfollows.result (hresult hbefore) hnone
        exact hunread waker output u ha hact
      · exact hfollows.finished hbefore hfinished hnone

/-! ## What is observed -/

theorem Sound.observed {waker : ω} {answer : Answer α} (h : s.Sound)
    (hact : s.act (.pollJoin id waker) = some (s', answer)) :
    ∃ t, s.tasks[id]? = some t ∧ t.Observed answer := by
  obtain ⟨t, hid, heq⟩ := Option.map_eq_some_iff.mp hact
  refine ⟨t, hid, ?_⟩
  have hresult := (h.fits id t hid).result
  unfold Tasks.pollJoin at heq
  split at heq
  next hstate =>
    split at heq
    next output hsome =>
      cases heq
      refine ⟨hstate, ?_⟩
      rw [hsome] at hresult
      exact (hresult.resolve_left nofun).symm
    next hnone =>
      cases heq
      exact ⟨hstate, hnone⟩
  next hstate =>
    cases heq
    exact hstate
  next hstate =>
    cases heq
    exact hstate
  next hstate =>
    cases heq
    exact hstate
  next hstate =>
    cases heq
    exact hstate

theorem Sound.polled_running {answer : Answer α} (h : s.Sound)
    (hact : s.act .runMicrotask = some (s', answer)) (hpolled : answer = .polled id) :
    ∃ t, s.tasks[id]? = some t ∧ t.state = .running := by
  obtain ⟨-, heq⟩ := Option.ite_none_right_eq_some.mp hact
  unfold Tasks.runMicrotask at heq
  split at heq
  next => cases heq
  next =>
    cases heq
    cases hpolled
  next i rest hclosures =>
    obtain ⟨t, hid, hpoll⟩ := Option.map_eq_some_iff.mp heq
    unfold Tasks.poll at hpoll
    simp only [] at hpoll
    split at hpoll
    next hfuture =>
      cases hpoll
      cases hpolled
      exact ⟨t, hid, ((h.fits id t hid).future_iff.mp hfuture).1⟩
    next =>
      cases hpoll
      cases hpolled

/-- In every run: the state of a task that has ended never changes; only the future of a
running task is polled; a join handle answers with the outcome of its task, and panics only
after it has answered with the output; a task is in the registry as long as it is running, and
after its completion until that poll returns; and before the teardown a task is marked as
queued exactly if one closure in the queue polls it, and `ready_tasks` is the number of these
closures.  It is never decremented at zero. -/
theorem lifecycle_of_reachable (s : Tasks α ω) (hreach : s.Reachable) :
    (∀ s', Transition.Reachable step (fun _ _ => True) s s' →
      ∀ (i : Nat) (t : FutureTask α ω), s.tasks[i]? = some t → t.state ≠ .running →
        ∃ t' : FutureTask α ω, s'.tasks[i]? = some t' ∧ t'.state = t.state) ∧
      (∀ s' id, s.act .runMicrotask = some (s', .polled id) →
        ∃ t, s.tasks[id]? = some t ∧ t.state = .running) ∧
      (∀ id waker s' answer, s.act (.pollJoin id waker) = some (s', answer) →
        ∃ t, s.tasks[id]? = some t ∧ t.Observed answer) ∧
      (∀ (id : Nat) (t : FutureTask α ω), s.tasks[id]? = some t → t.state = .running →
        ∀ s', Transition.Reachable step (Unread id) s s' →
          ∀ waker u answer, s'.act (.pollJoin id waker) = some (u, answer) → answer ≠ .panics) ∧
      (∀ (i : Nat) (t : FutureTask α ω), s.tasks[i]? = some t →
        (t.registered = true ↔
          t.state = .running ∨ t.state = .finished ∧ s.control = .completed i)) ∧
      (s.control.tearing = false →
        (∀ (i : Nat) (t : FutureTask α ω), s.tasks[i]? = some t →
          s.localMicrotasks.count (.poll i) = t.queued.toNat) ∧
        s.readyTasks = s.localMicrotasks.countP Microtask.isPoll) ∧
      s.underflowed = false := by
  have h := sound_of_reachable hreach
  refine ⟨?_, ?_, ?_, ?_, ?_, ?_, h.unharmed⟩
  · intro s' hrun
    exact (h.run hrun).2
  · intro s' id hact
    exact h.polled_running hact rfl
  · intro id waker s' answer hact
    exact h.observed hact
  · rintro id t hid hrunning s' hrun waker u _ hact rfl
    obtain ⟨hsound, t', ht', hresult⟩ := h.unread hid hrunning hrun
    obtain ⟨t'', ht'', hfinished, hnone⟩ := hsound.observed hact
    obtain rfl : t' = t'' := Option.some.inj (ht'.symm.trans ht'')
    exact hresult hfinished hnone
  · intro i t ht
    exact (h.fits i t ht).registered_iff
  · intro hnot
    exact ⟨h.queued hnot, h.readyClosures hnot⟩

/-- A task wakes itself and aborts itself while it is polled, and its second closure is still
in the queue, behind the one of another task. -/
theorem lifecycle_aborted_in_poll :
    ∃ s : Tasks Nat Nat, s.Reachable ∧
      (s.control.tearing = false ∧ s.tasks.map FutureTask.state = [.aborted, .running] ∧
        s.localMicrotasks = [.poll 1, .poll 0]) ∧
      s.readyTasks = 2 ∧ s.underflowed = false := by
  obtain ⟨s, hreach, hp⟩ := Transition.Reachable.exists_of_run step (fun _ _ => True)
    ({} : Tasks Nat Nat)
    [.queueFuture, .queueFuture, .enter, .runMicrotask, .wake 0, .abort 0, .pending]
    (fun s => decide (s.control.tearing = false ∧
      s.tasks.map FutureTask.state = [.aborted, .running] ∧
      s.localMicrotasks = [.poll 1, .poll 0]))
    (by simp) (by decide)
  have hstate := of_decide_eq_true hp
  obtain ⟨-, -, -, -, -, hqueue, hharm⟩ := lifecycle_of_reachable s hreach
  refine ⟨s, hreach, hstate, ?_, hharm⟩
  rw [(hqueue hstate.1).2, hstate.2.2]
  rfl

/-- The waker of a join handle runs while its task has finished and is still registered. -/
theorem registered_after_completion :
    ∃ s : Tasks Nat Nat, s.Reachable ∧ s.woken = [5] ∧
      ∃ t, s.tasks[0]? = some t ∧ t.state = .finished ∧ t.registered = true := by
  obtain ⟨s, hreach, hp⟩ := Transition.Reachable.exists_of_run step (fun _ _ => True)
    ({} : Tasks Nat Nat)
    [.queueFuture, .pollJoin 0 5, .enter, .runMicrotask, .complete 7]
    (fun s => decide (s.woken = [5] ∧ s.tasks = [{
      state := .finished, future := false, result := some 7, output := some 7 }]))
    (by simp) (by decide)
  obtain ⟨hwoken, htasks⟩ := of_decide_eq_true hp
  exact ⟨s, hreach, hwoken, _, by rw [htasks]; rfl, rfl, rfl⟩

end Tasks

end Runite.Runtime
