import Runite.Runtime.TaskLifecycle

/-!
# What a step makes of a task

Every step leaves a task as its join handle sees it, or ends it and wakes the waker
of the handle, or polls the handle.
-/

namespace Runite.Runtime.Tasks

variable {α ω : Type} {s s' : Tasks α ω} {id : Nat} {t : FutureTask α ω} {a : Action α ω}

/-- The task at `i` before and after the step, with the wakers that were woken. -/
inductive Evolves (a : Action α ω) (i : Nat) (wakers : List ω) (t t' : FutureTask α ω) : Prop
  | keeps (state : t'.state = t.state) (result : t'.result = t.result)
      (output : t'.output = t.output) (joinWaker : t'.joinWaker = t.joinWaker)
  | ends (running : t.state = .running) (ended : t'.state ≠ .running)
      (woken : ∀ w, t.joinWaker = some w → w ∈ wakers)
      (result : t'.state = .finished → t'.result.isSome = true)
  | joins (w : ω) (action : a = .pollJoin i w) (state : t'.state = t.state)
      (output : t'.output = t.output)

/-- All tasks of `s` after a step that led to `s'`. -/
structure Evolved (a : Action α ω) (s s' : Tasks α ω) (wakers : List ω) : Prop where
  woken : s'.woken = s.woken ++ wakers
  tasks : ∀ (i : Nat) (t : FutureTask α ω), s.tasks[i]? = some t →
    ∃ t', s'.tasks[i]? = some t' ∧ Evolves a i wakers t t'

theorem Evolves.refl (i : Nat) (wakers : List ω) (t : FutureTask α ω) : Evolves a i wakers t t :=
  .keeps rfl rfl rfl rfl

theorem Evolved.of_eq (htasks : s'.tasks = s.tasks) (hwoken : s'.woken = s.woken) :
    Evolved a s s' [] where
  woken := by rw [hwoken, List.append_nil]
  tasks i t ht := ⟨t, by rw [htasks]; exact ht, .refl i [] t⟩

theorem Evolved.of_set {t' : FutureTask α ω} {wakers : List ω} (hid : s.tasks[id]? = some t)
    (htasks : s'.tasks = s.tasks.set id t') (hwoken : s'.woken = s.woken ++ wakers)
    (hevolves : Evolves a id wakers t t') : Evolved a s s' wakers where
  woken := hwoken
  tasks i u hu := by
    by_cases hi : i = id
    · subst hi
      obtain rfl : t = u := Option.some.inj (hid.symm.trans hu)
      exact ⟨t', by rw [htasks]; exact Table.getElem?_set_self hid, hevolves⟩
    · refine ⟨u, ?_, .refl i wakers u⟩
      rw [htasks]
      exact (Table.getElem?_set_eq_some hid).mpr (.inr ⟨hi, hu⟩)

theorem evolved_schedule (hid : s.tasks[id]? = some t) : Evolved a s (s.schedule id t) [] := by
  unfold Tasks.schedule
  split
  · exact .of_eq rfl rfl
  · exact .of_set hid rfl (List.append_nil _).symm (.keeps rfl rfl rfl rfl)

theorem evolved_queueFuture (s : Tasks α ω) : Evolved a s s.queueFuture [] := by
  have hnew : (s.tasks ++ [({} : FutureTask α ω)])[s.tasks.length]? = some {} :=
    Table.getElem?_concat_eq_some.mpr (.inr ⟨rfl, rfl⟩)
  have hevolved := evolved_schedule (a := a) (s := { s with tasks := s.tasks ++ [{}] }) hnew
  exact
    { woken := hevolved.woken
      tasks := fun i t ht => hevolved.tasks i t (Table.getElem?_concat_eq_some.mpr (.inl ht)) }

theorem evolved_scheduleById (s : Tasks α ω) (id : Nat) :
    Evolved a s (s.scheduleById id) [] := by
  unfold Tasks.scheduleById
  split
  next t hid =>
    split
    · exact evolved_schedule hid
    · exact .of_eq rfl rfl
  next => exact .of_eq rfl rfl

theorem evolved_abort (hid : s.tasks[id]? = some t) :
    ∃ wakers, Evolved a s (s.abort id t) wakers := by
  unfold Tasks.abort FutureTask.markTerminal
  split
  next hrunning =>
    refine ⟨_, .of_set hid rfl rfl (.ends hrunning nofun ?_ nofun)⟩
    intro w hw
    simp [hw]
  next => exact ⟨[], .of_eq rfl rfl⟩

theorem evolved_pollJoin (hid : s.tasks[id]? = some t) (waker : ω) :
    Evolved (.pollJoin id waker) s (s.pollJoin id t waker).1 [] := by
  unfold Tasks.pollJoin
  split
  · split
    · exact .of_set hid rfl (List.append_nil _).symm (.joins waker rfl rfl rfl)
    · exact .of_eq rfl rfl
  · exact .of_eq rfl rfl
  · exact .of_eq rfl rfl
  · exact .of_eq rfl rfl
  · exact .of_set hid rfl (List.append_nil _).symm (.joins waker rfl rfl rfl)

theorem evolved_poll (hid : s.tasks[id]? = some t) : Evolved a s (s.poll id t).1 [] := by
  unfold Tasks.poll
  dsimp only
  split
  · exact .of_set hid rfl (List.append_nil _).symm (.keeps rfl rfl rfl rfl)
  · exact .of_set hid rfl (List.append_nil _).symm (.keeps rfl rfl rfl rfl)

theorem evolved_cancelTasks (s : Tasks α ω) : ∃ wakers, Evolved a s s.cancelTasks wakers := by
  refine ⟨_, rfl, ?_⟩
  intro i t ht
  refine ⟨t.cancel, Table.getElem?_map_eq_some.mpr ⟨t, ht, rfl⟩, ?_⟩
  by_cases hcancels : t.cancels = true
  · obtain ⟨hregistered, hstate⟩ : t.registered = true ∧ t.state = .running := by
      simpa [FutureTask.cancels] using hcancels
    have hcancel : t.cancel = { t with
        state := .cancelled
        joinWaker := none
        queued := false
        future := false
        registered := false } := by
      unfold FutureTask.cancel
      simp [hregistered, hstate]
    rw [hcancel]
    refine .ends hstate nofun ?_ nofun
    intro w hw
    refine List.mem_flatMap.mpr ⟨t, List.mem_filter.mpr ⟨List.mem_of_getElem? ht, hcancels⟩, ?_⟩
    simp [hw]
  · have hcancel : t.cancel = t ∨ t.cancel = { t with registered := false } := by
      unfold FutureTask.cancel
      unfold FutureTask.cancels at hcancels
      split
      · exact .inl rfl
      next hregistered =>
        split
        next hstate => simp_all
        next => exact .inr rfl
    obtain h | h := hcancel
    · rw [h]
      exact .refl i _ t
    · rw [h]
      exact .keeps rfl rfl rfl rfl

theorem exists_evolved {answer : Answer α} (hact : s.act a = some (s', answer)) :
    ∃ wakers, Evolved a s s' wakers := by
  cases a with
  | queueFuture =>
      obtain ⟨-, heq⟩ := Option.ite_none_left_eq_some.mp hact
      cases heq
      exact ⟨[], evolved_queueFuture s⟩
  | wake id =>
      obtain ⟨-, heq⟩ := Option.ite_none_left_eq_some.mp hact
      cases heq
      exact ⟨[], evolved_scheduleById s id⟩
  | abort id =>
      obtain ⟨t, hid, heq⟩ := Option.map_eq_some_iff.mp hact
      cases heq
      exact evolved_abort hid
  | pollJoin id waker =>
      obtain ⟨t, hid, heq⟩ := Option.map_eq_some_iff.mp hact
      have hs : (s.pollJoin id t waker).1 = s' := congrArg Prod.fst heq
      exact ⟨[], hs ▸ evolved_pollJoin hid waker⟩
  | queueMicrotask =>
      obtain ⟨-, heq⟩ := Option.ite_none_left_eq_some.mp hact
      cases heq
      exact ⟨[], .of_eq rfl rfl⟩
  | enter | leave | tearDown =>
      obtain ⟨-, heq⟩ := Option.ite_none_right_eq_some.mp hact
      cases heq
      exact ⟨[], .of_eq rfl rfl⟩
  | runMicrotask =>
      obtain ⟨-, heq⟩ := Option.ite_none_right_eq_some.mp hact
      unfold Tasks.runMicrotask at heq
      split at heq
      next => cases heq
      next =>
        cases heq
        exact ⟨[], .of_eq rfl rfl⟩
      next id rest hclosures =>
        obtain ⟨t, hid, hpoll⟩ := Option.map_eq_some_iff.mp heq
        have hs : ({ s with localMicrotasks := rest }.poll id t).1 = s' := congrArg Prod.fst hpoll
        have hevolved := evolved_poll (a := .runMicrotask) (s := { s with localMicrotasks := rest }) hid
        rw [hs] at hevolved
        exact ⟨[], hevolved.woken, hevolved.tasks⟩
  | complete value =>
      obtain ⟨id, t, -, hid, rfl⟩ := act_complete hact
      unfold Tasks.complete
      split
      next hrunning =>
        refine ⟨_, .of_set hid rfl rfl (.ends hrunning nofun ?_ fun _ => rfl)⟩
        intro w hw
        simp [hw]
      next => exact ⟨[], .of_eq rfl rfl⟩
  | pending =>
      obtain ⟨id, t, -, hid, rfl⟩ := act_pending hact
      unfold Tasks.pollPending
      split
      · exact ⟨[], .of_eq rfl rfl⟩
      · exact ⟨[], .of_set hid rfl (List.append_nil _).symm (.keeps rfl rfl rfl rfl)⟩
  | ready =>
      obtain ⟨id, t, -, hid, rfl⟩ := act_ready hact
      exact ⟨[], .of_set hid rfl (List.append_nil _).symm (.keeps rfl rfl rfl rfl)⟩
  | panic =>
      obtain ⟨id, t, -, hid, rfl⟩ := act_panic hact
      unfold Tasks.pollPanics FutureTask.markTerminal
      by_cases hrunning : t.state = .running
      · simp only [hrunning, if_true]
        refine ⟨_, .of_set hid rfl rfl (.ends hrunning nofun ?_ nofun)⟩
        intro w hw
        simp [hw]
      · simp only [hrunning, if_false]
        exact ⟨[], .of_set hid rfl rfl (.keeps rfl rfl rfl rfl)⟩
  | commitIdle =>
      obtain ⟨-, heq⟩ := Option.ite_none_right_eq_some.mp hact
      cases heq
      exact evolved_cancelTasks s
  | cancelAll =>
      obtain ⟨-, heq⟩ := Option.ite_none_right_eq_some.mp hact
      split at heq
      next =>
        cases heq
        exact evolved_cancelTasks s
      next =>
        cases heq
        exact ⟨[], .of_eq rfl rfl⟩

end Runite.Runtime.Tasks
