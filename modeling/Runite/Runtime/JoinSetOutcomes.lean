import Runite.Runtime.JoinSet
import Runite.Runtime.TaskSteps

/-!
# The outcomes of a set

Every task of a set is in one place: its handle is in the set, or was detached or
dropped, or its outcome was returned.  The output of a task whose handle is in the
set has not been taken, so a poll of `join_next` finds an outcome if there is one,
and else leaves its waker with every task.
-/

namespace Runite.Runtime

variable {α ω : Type}

def FutureTask.EndedWith (t : FutureTask α ω) : Except JoinError α → Prop
  | .ok value => t.state = .finished ∧ t.output = some value
  | .error .aborted => t.state = .aborted
  | .error .cancelled => t.state = .cancelled
  | .error .panicked => t.state = .panicked

theorem FutureTask.EndedWith.ended {t : FutureTask α ω} {outcome : Except JoinError α}
    (h : t.EndedWith outcome) : t.state ≠ .running := by
  intro hrunning
  cases outcome with
  | ok value => exact nomatch hrunning.symm.trans h.1
  | error error => cases error <;> exact nomatch hrunning.symm.trans h

namespace Tasks

variable {s s' : Tasks α ω} {a : Action α ω} {wakers : List ω} {id : Nat}

def Ended (s : Tasks α ω) (id : Nat) : Prop :=
  ∃ t : FutureTask α ω, s.tasks[id]? = some t ∧ t.state ≠ .running

theorem Evolves.endedWith {i : Nat} {t t' : FutureTask α ω} {outcome : Except JoinError α}
    (h : Evolves a i wakers t t') (hended : t.EndedWith outcome) : t'.EndedWith outcome := by
  have hsame : t'.state = t.state ∧ t'.output = t.output := by
    cases h with
    | keeps state _ output _ => exact ⟨state, output⟩
    | joins _ _ state output => exact ⟨state, output⟩
    | ends running _ _ _ => exact absurd running hended.ended
  unfold FutureTask.EndedWith at *
  rw [hsame.1, hsame.2]
  exact hended

theorem Evolves.ended {i : Nat} {t t' : FutureTask α ω} (h : Evolves a i wakers t t')
    (hended : t.state ≠ .running) : t'.state ≠ .running := by
  cases h with
  | keeps state _ _ _ => rwa [state]
  | ends _ ended _ _ => exact ended
  | joins _ _ state _ => rwa [state]

theorem Evolved.ended (h : Evolved a s s' wakers) (hended : s.Ended id) : s'.Ended id := by
  obtain ⟨t, ht, hstate⟩ := hended
  obtain ⟨t', ht', hevolves⟩ := h.tasks id t ht
  exact ⟨t', ht', hevolves.ended hstate⟩

theorem Evolved.lt_length (h : Evolved a s s' wakers) (hid : id < s.tasks.length) :
    id < s'.tasks.length := by
  obtain ⟨t', ht', -⟩ := h.tasks id _ (List.getElem?_eq_getElem hid)
  exact (List.getElem?_eq_some_iff.mp ht').1

/-- A poll of a join handle whose output is still there. -/
theorem pollJoin_cases {t : FutureTask α ω} (hsound : s.Sound) (hid : s.tasks[id]? = some t)
    (hfull : t.state = .finished → t.result.isSome = true) (waker : ω) :
    (t.state = .running ∧
      s.act (.pollJoin id waker) =
        some ({ s with tasks := s.tasks.set id { t with joinWaker := some waker } }, .pending)) ∨
    (∃ value, t.EndedWith (.ok value) ∧
      s.act (.pollJoin id waker) =
        some ({ s with tasks := s.tasks.set id { t with result := none } }, .ready value)) ∨
    ∃ error, t.EndedWith (.error error) ∧
      s.act (.pollJoin id waker) = some (s, .failed error) := by
  have hact : s.act (.pollJoin id waker) = some (s.pollJoin id t waker) := by
    rw [Tasks.act, hid]
    rfl
  rw [hact, Tasks.pollJoin]
  cases hstate : t.state with
  | running => exact .inl ⟨rfl, rfl⟩
  | finished =>
      obtain ⟨value, hvalue⟩ := Option.isSome_iff_exists.mp (hfull hstate)
      have hresult := (hsound.fits id t hid).result
      rw [hvalue] at hresult ⊢
      exact .inr (.inl ⟨value, ⟨hstate, (hresult.resolve_left (by simp)).symm⟩, rfl⟩)
  | aborted => exact .inr (.inr ⟨.aborted, hstate, rfl⟩)
  | cancelled => exact .inr (.inr ⟨.cancelled, hstate, rfl⟩)
  | panicked => exact .inr (.inr ⟨.panicked, hstate, rfl⟩)

theorem tasks_queueFuture (s : Tasks α ω) :
    s.queueFuture.tasks = s.tasks ++ [{ queued := true }] := by
  unfold Tasks.queueFuture Tasks.schedule
  simp

theorem ended_abort {t : FutureTask α ω} (hid : s.tasks[id]? = some t) : (s.abort id t).Ended id := by
  unfold Tasks.abort FutureTask.markTerminal
  split
  · exact ⟨_, Table.getElem?_set_self hid, nofun⟩
  next hended => exact ⟨t, hid, hended⟩

end Tasks

namespace JoinSet

open scoped List

variable {s s' : JoinSet α ω} {thread thread' : Tasks α ω} {waker : ω}

/-! ## The loop over the handles -/

/-- The output of every finished task of the list is still there. -/
def Full (thread : Tasks α ω) (ids : List Nat) : Prop :=
  ∀ id ∈ ids, ∀ t : FutureTask α ω, thread.tasks[id]? = some t → t.state = .finished →
    t.result.isSome = true

/-- What the loop leaves of the tasks; of the one whose outcome it found, the output
is taken. -/
structure Scanned (thread thread' : Tasks α ω) (ids : List Nat) (answer : JoinNext α) : Prop where
  sound : thread'.Sound
  woken : thread'.woken = thread.woken
  others : ∀ i, i ∉ ids → thread'.tasks[i]? = thread.tasks[i]?
  tasks : ∀ (i : Nat) (t : FutureTask α ω), thread.tasks[i]? = some t →
    ∃ t' : FutureTask α ω, thread'.tasks[i]? = some t' ∧ t'.state = t.state ∧
      t'.output = t.output ∧ ((∀ outcome, answer ≠ .next i outcome) → t'.result = t.result)

variable (waker) in
/-- The loop ends with an outcome, or has left its waker with every task. -/
theorem scan_spec {ids : List Nat} (index : Nat) (hsound : thread.Sound)
    (hids : ∀ id ∈ ids, id < thread.tasks.length) (hnodup : ids.Nodup) (hfull : Full thread ids) :
    ∃ thread' index' answer, scan waker index thread ids = some (thread', index', answer) ∧
      Scanned thread thread' ids answer ∧
      ((answer = .pending ∧ ∀ id ∈ ids, ∃ t : FutureTask α ω, thread'.tasks[id]? = some t ∧
          t.state = .running ∧ t.joinWaker = some waker) ∨
        ∃ k id outcome t, answer = .next id outcome ∧ index' = index + k ∧ ids[k]? = some id ∧
          thread.tasks[id]? = some t ∧ t.EndedWith outcome) := by
  induction ids generalizing index thread with
  | nil =>
      refine ⟨thread, index, .pending, rfl, ⟨hsound, rfl, fun _ _ => rfl, ?_⟩, .inl ⟨rfl, nofun⟩⟩
      exact fun i t ht => ⟨t, ht, rfl, rfl, fun _ => rfl⟩
  | cons id rest ih =>
      obtain ⟨hnotin, hnodup⟩ := List.nodup_cons.mp hnodup
      obtain ⟨t, hid⟩ : ∃ t, thread.tasks[id]? = some t :=
        ⟨_, List.getElem?_eq_getElem (hids id List.mem_cons_self)⟩
      have hsame := fun u (hu : thread.tasks[id]? = some u) => Option.some.inj (hid.symm.trans hu)
      obtain ⟨hrunning, hact⟩ | ⟨value, hended, hact⟩ | ⟨error, hended, hact⟩ :=
        Tasks.pollJoin_cases hsound hid (hfull id List.mem_cons_self t hid) waker
      · -- pending: the loop goes on with the waker stored
        have hget := fun i (hi : i ≠ id) =>
          List.getElem?_set_ne (l := thread.tasks) (a := { t with joinWaker := some waker })
            (Ne.symm hi)
        obtain ⟨thread', index', answer, hscan, hscanned, hcases⟩ :=
          ih (index + 1) (hsound.act hact)
            (fun i hi => by
              rw [List.length_set]
              exact hids i (List.mem_cons_of_mem id hi))
            hnodup
            (fun i hi u hu hfinished => by
              have hne : i ≠ id := fun h => hnotin (h ▸ hi)
              rw [hget i hne] at hu
              exact hfull i (List.mem_cons_of_mem id hi) u hu hfinished)
        refine ⟨thread', index', answer, by rw [scan, hact]; exact hscan, ?_, ?_⟩
        · refine ⟨hscanned.sound, hscanned.woken, fun i hi => ?_, fun i u hu => ?_⟩
          · rw [hscanned.others i fun h => hi (List.mem_cons_of_mem id h)]
            exact hget i fun h => hi (h ▸ List.mem_cons_self)
          · by_cases hi : i = id
            · subst hi
              obtain rfl := hsame u hu
              obtain ⟨t', ht', hstate, houtput, hresult⟩ :=
                hscanned.tasks i _ (Table.getElem?_set_self hid)
              exact ⟨t', ht', hstate, houtput, hresult⟩
            · exact hscanned.tasks i u (by rwa [hget i hi])
        · obtain ⟨rfl, hall⟩ | ⟨k, i, outcome, u, rfl, rfl, hk, hu, hended⟩ := hcases
          · refine .inl ⟨rfl, fun i hi => ?_⟩
            obtain rfl | hi := List.mem_cons.mp hi
            · exact ⟨_, (hscanned.others i hnotin).trans (Table.getElem?_set_self hid),
                hrunning, rfl⟩
            · exact hall i hi
          · have hne : i ≠ id := fun h => hnotin (h ▸ List.mem_of_getElem? hk)
            rw [hget i hne] at hu
            exact .inr ⟨k + 1, i, outcome, u, rfl, by omega, hk, hu, hended⟩
      · have hget := fun i (hi : i ≠ id) =>
          List.getElem?_set_ne (l := thread.tasks) (a := { t with result := none }) (Ne.symm hi)
        refine ⟨_, index, .next id (.ok value), by rw [scan, hact], ?_,
          .inr ⟨0, id, .ok value, t, rfl, rfl, rfl, hid, hended⟩⟩
        refine ⟨hsound.act hact, rfl, fun i hi => hget i fun h => hi (h ▸ List.mem_cons_self),
          fun i u hu => ?_⟩
        by_cases hi : i = id
        · subst hi
          obtain rfl := hsame u hu
          exact ⟨_, Table.getElem?_set_self hu, rfl, rfl, fun h => absurd rfl (h _)⟩
        · exact ⟨u, by rw [← hu]; exact hget i hi, rfl, rfl, fun _ => rfl⟩
      · refine ⟨thread, index, .next id (.error error), by rw [scan, hact],
          ⟨hsound, rfl, fun _ _ => rfl, fun i u hu => ⟨u, hu, rfl, rfl, fun _ => rfl⟩⟩,
          .inr ⟨0, id, .error error, t, rfl, rfl, rfl, hid, hended⟩⟩

/-! ## The invariant -/

/-- What holds of a set and its tasks between the steps. -/
structure Accounted (s : JoinSet α ω) : Prop where
  sound : s.thread.Sound
  spawned_lt : ∀ id ∈ s.spawned, id < s.thread.tasks.length
  nodup : s.spawned.Nodup
  parts : s.handles ++ s.detached ++ s.dropped ++ s.returned.map Prod.fst ~ s.spawned
  full : Full s.thread s.handles
  outcomes : ∀ id outcome, (id, outcome) ∈ s.returned →
    ∃ t : FutureTask α ω, s.thread.tasks[id]? = some t ∧ t.EndedWith outcome
  waiting : ∀ w n, s.waiting = some (w, n) → n ≤ s.thread.woken.length ∧
    ∀ id ∈ s.handles, ∀ t : FutureTask α ω, s.thread.tasks[id]? = some t →
      (t.state = .running ∧ t.joinWaker = some w) ∨ w ∈ s.thread.woken.drop n
  aborting : ∀ rest dropping, s.phase = .aborting rest dropping → s.waiting = none ∧
    ∃ done, s.handles = done ++ rest ∧ ∀ id ∈ done, s.thread.Ended id
  dropped : ∀ id ∈ s.dropped, s.thread.Ended id
  gone : s.phase = .dropped → s.handles = []

theorem Accounted.init : ({} : JoinSet α ω).Accounted where
  sound := .init
  spawned_lt := nofun
  nodup := .nil
  parts := .refl []
  full := nofun
  outcomes := nofun
  waiting := nofun
  aborting := nofun
  dropped := nofun
  gone := nofun

namespace Accounted

theorem handles_spawned (h : s.Accounted) {id : Nat} (hid : id ∈ s.handles) : id ∈ s.spawned := by
  refine h.parts.subset ?_
  simp [hid]

theorem handles_lt (h : s.Accounted) {id : Nat} (hid : id ∈ s.handles) :
    id < s.thread.tasks.length :=
  h.spawned_lt id (h.handles_spawned hid)

theorem all_nodup (h : s.Accounted) :
    (s.handles ++ s.detached ++ s.dropped ++ s.returned.map Prod.fst).Nodup :=
  h.parts.nodup_iff.mpr h.nodup

theorem handles_nodup (h : s.Accounted) : s.handles.Nodup := by
  have hnodup := h.all_nodup
  rw [List.append_assoc, List.append_assoc] at hnodup
  exact (List.nodup_append.mp hnodup).1

/-- The thread takes a step that polls no handle of the set. -/
theorem threadStep {a : Tasks.Action α ω} (h : s.Accounted) (hprivate : s.Private a)
    (hstep : s.thread.step a = some thread') : Accounted { s with thread := thread' } := by
  obtain ⟨⟨t', answer⟩, hact, rfl⟩ := Option.map_eq_some_iff.mp hstep
  obtain ⟨wakers, hevolved⟩ := Tasks.exists_evolved hact
  have hnot : ∀ id ∈ s.handles, ∀ w, a ≠ .pollJoin id w := by
    rintro id hid w rfl
    exact hprivate (h.handles_spawned hid)
  -- the task of a handle, before the step and after it
  have hback : ∀ id ∈ s.handles, ∀ u : FutureTask α ω, t'.tasks[id]? = some u →
      ∃ t, s.thread.tasks[id]? = some t ∧ Tasks.Evolves a id wakers t u := by
    intro id hid u hu
    have hold := List.getElem?_eq_getElem (h.handles_lt hid)
    obtain ⟨u', hu', hevolves⟩ := hevolved.tasks id _ hold
    obtain rfl : u = u' := Option.some.inj (hu.symm.trans hu')
    exact ⟨_, hold, hevolves⟩
  exact
    { sound := h.sound.act hact
      spawned_lt := fun id hid => hevolved.lt_length (h.spawned_lt id hid)
      nodup := h.nodup
      parts := h.parts
      full := by
        intro id hid u hu hfinished
        obtain ⟨t, ht, hevolves⟩ := hback id hid u hu
        cases hevolves with
        | keeps state result _ _ =>
            rw [result]
            exact h.full id hid t ht (state ▸ hfinished)
        | ends _ _ _ result => exact result hfinished
        | joins w action _ _ => exact absurd action (hnot id hid w)
      outcomes := by
        intro id outcome hmem
        obtain ⟨t, ht, hended⟩ := h.outcomes id outcome hmem
        obtain ⟨u, hu, hevolves⟩ := hevolved.tasks id t ht
        exact ⟨u, hu, hevolves.endedWith hended⟩
      waiting := by
        intro w n hwaiting
        obtain ⟨hn, hall⟩ := h.waiting w n hwaiting
        show n ≤ t'.woken.length ∧ ∀ id ∈ s.handles, ∀ u : FutureTask α ω, t'.tasks[id]? = some u →
          (u.state = .running ∧ u.joinWaker = some w) ∨ w ∈ t'.woken.drop n
        rw [hevolved.woken, List.drop_append_of_le_length hn]
        refine ⟨by rw [List.length_append]; omega, fun id hid u hu => ?_⟩
        obtain ⟨t, ht, hevolves⟩ := hback id hid u hu
        obtain ⟨hrunning, hwaker⟩ | hwoken := hall id hid t ht
        · cases hevolves with
          | keeps state _ _ joinWaker => exact .inl ⟨state.trans hrunning, joinWaker.trans hwaker⟩
          | ends _ _ woken _ => exact .inr (List.mem_append_right _ (woken w hwaker))
          | joins w action _ _ => exact absurd action (hnot id hid w)
        · exact .inr (List.mem_append_left _ hwoken)
      aborting := by
        intro rest dropping hphase
        obtain ⟨hwaiting, done, hdone, hended⟩ := h.aborting rest dropping hphase
        exact ⟨hwaiting, done, hdone, fun id hid => hevolved.ended (hended id hid)⟩
      dropped := fun id hid => hevolved.ended (h.dropped id hid)
      gone := h.gone }

theorem spawn (h : s.Accounted) (hfree : s.Free)
    (hstep : s.thread.step .queueFuture = some thread') :
    Accounted { s with
      thread := thread'
      handles := s.handles ++ [s.thread.tasks.length]
      spawned := s.spawned ++ [s.thread.tasks.length] } := by
  have hthread := h.threadStep (a := .queueFuture) trivial hstep
  obtain ⟨⟨t', answer⟩, hact, rfl⟩ := Option.map_eq_some_iff.mp hstep
  obtain ⟨-, heq⟩ := Option.ite_none_left_eq_some.mp hact
  have htasks : t'.tasks = s.thread.tasks ++ [{ queued := true }] := by
    cases heq
    exact Tasks.tasks_queueFuture s.thread
  have hnew : s.thread.tasks.length ∉ s.spawned := fun hmem =>
    Nat.lt_irrefl _ (h.spawned_lt _ hmem)
  have hwaiting : s.waiting = none := Option.isNone_iff_eq_none.mp hfree.2
  exact
    { hthread with
      spawned_lt := by
        intro id hid
        obtain hid | hid := List.mem_append.mp hid
        · exact hthread.spawned_lt id hid
        · rw [List.mem_singleton.mp hid, htasks, List.length_append]
          exact Nat.lt_succ_self _
      nodup := List.nodup_append.mpr ⟨h.nodup, List.nodup_singleton _, by
        rintro a ha b hb rfl
        exact hnew (List.mem_singleton.mp hb ▸ ha)⟩
      parts := by
        refine .trans ?_ (h.parts.append_right [s.thread.tasks.length])
        simp only [List.append_assoc]
        exact (List.perm_append_comm.trans (by simp)).append_left s.handles
      full := by
        intro id hid t ht hfinished
        obtain hid | hid := List.mem_append.mp hid
        · exact hthread.full id hid t ht hfinished
        · obtain rfl := List.mem_singleton.mp hid
          change t'.tasks[_]? = some t at ht
          rw [htasks, List.getElem?_concat_length] at ht
          cases ht
          cases hfinished
      waiting := fun w n hsome => nomatch hwaiting.symm.trans hsome
      aborting := fun rest dropping hphase => nomatch hfree.1.symm.trans hphase
      gone := fun hphase => nomatch hfree.1.symm.trans hphase }

theorem pollNext_cases (h : s.Accounted) (waker : ω) :
    (s.handles = [] ∧ s.pollNext waker = some ({ s with waiting := none }, .empty)) ∨
    (∃ t', s.handles ≠ [] ∧ Scanned s.thread t' s.handles .pending ∧
      (∀ id ∈ s.handles, ∃ t : FutureTask α ω, t'.tasks[id]? = some t ∧ t.state = .running ∧
        t.joinWaker = some waker) ∧
      s.pollNext waker =
        some ({ s with thread := t', waiting := some (waker, t'.woken.length) }, .pending)) ∨
    ∃ t' k id outcome t, s.handles[k]? = some id ∧ s.thread.tasks[id]? = some t ∧
      t.EndedWith outcome ∧ Scanned s.thread t' s.handles (.next id outcome) ∧
      s.pollNext waker =
        some ({ s with
          thread := t'
          handles := SwapRemove.swapRemove s.handles k
          waiting := none
          returned := s.returned ++ [(id, outcome)] }, .next id outcome) := by
  by_cases hempty : s.handles = []
  · exact .inl ⟨hempty, by rw [JoinSet.pollNext, if_pos hempty]⟩
  · obtain ⟨t', index, answer, hscan, hscanned, hcases⟩ := scan_spec waker 0 h.sound
      (fun _ => h.handles_lt) h.handles_nodup h.full
    rw [JoinSet.pollNext, if_neg hempty, hscan]
    obtain ⟨rfl, hall⟩ | ⟨k, id, outcome, t, rfl, rfl, hk, ht, hended⟩ := hcases
    · exact .inr (.inl ⟨t', hempty, hscanned, hall, rfl⟩)
    · refine .inr (.inr ⟨t', k, id, outcome, t, hk, ht, hended, hscanned, ?_⟩)
      rw [Nat.zero_add]
      rfl

/-- After the loop: its answer is the only output that was taken. -/
theorem scanned {t' : Tasks α ω} {ids : List Nat} {answer : JoinNext α} (h : s.Accounted)
    (hscanned : Scanned s.thread t' s.handles answer) (hsub : ids.Sublist s.handles)
    (hanswer : ∀ id ∈ ids, ∀ outcome, answer ≠ .next id outcome) :
    t'.Sound ∧ (∀ id ∈ s.spawned, id < t'.tasks.length) ∧ Full t' ids ∧
      (∀ (id : Nat) outcome (t : FutureTask α ω), s.thread.tasks[id]? = some t → t.EndedWith outcome →
        ∃ u : FutureTask α ω, t'.tasks[id]? = some u ∧ u.EndedWith outcome) ∧
      ∀ id, s.thread.Ended id → t'.Ended id := by
  refine ⟨hscanned.sound, fun id hid => ?_, fun id hid u hu hfinished => ?_,
    fun id outcome t ht hended => ?_, fun id ⟨t, ht, hended⟩ => ?_⟩
  · obtain ⟨u, hu, -⟩ := hscanned.tasks id _ (List.getElem?_eq_getElem (h.spawned_lt id hid))
    exact (List.getElem?_eq_some_iff.mp hu).1
  · have hmem := hsub.subset hid
    have hold := List.getElem?_eq_getElem (h.handles_lt hmem)
    obtain ⟨u', hu', hstate, -, hresult⟩ := hscanned.tasks id _ hold
    obtain rfl : u = u' := Option.some.inj (hu.symm.trans hu')
    rw [hresult (hanswer id hid)]
    exact h.full id hmem _ hold (hstate ▸ hfinished)
  · obtain ⟨u, hu, hstate, houtput, -⟩ := hscanned.tasks id t ht
    refine ⟨u, hu, ?_⟩
    unfold FutureTask.EndedWith at *
    rwa [hstate, houtput]
  · obtain ⟨u, hu, hstate, -⟩ := hscanned.tasks id t ht
    exact ⟨u, hu, by rwa [hstate]⟩

theorem pollNext (h : s.Accounted) {waker : ω} {answer : JoinNext α} (hphase : s.phase = .owned)
    (hpoll : s.pollNext waker = some (s', answer)) : s'.Accounted := by
  obtain ⟨-, heq⟩ | ⟨t', -, hscan, hall, heq⟩ | ⟨t', k, id, outcome, t, hk, ht, hended, hscan, heq⟩ :=
    h.pollNext_cases waker
  · cases hpoll.symm.trans heq
    exact { h with
      waiting := nofun
      aborting := fun _ _ h => nomatch hphase.symm.trans h }
  · cases hpoll.symm.trans heq
    obtain ⟨hsound, hlt, hfull, houtcomes, hstays⟩ :=
      h.scanned hscan (List.Sublist.refl _) fun _ _ _ => nofun
    exact
      { sound := hsound
        spawned_lt := hlt
        nodup := h.nodup
        parts := h.parts
        full := hfull
        outcomes := fun id outcome hmem => by
          obtain ⟨t, ht, hended⟩ := h.outcomes id outcome hmem
          exact houtcomes id outcome t ht hended
        waiting := fun w n hwaiting => by
          cases hwaiting
          refine ⟨Nat.le_refl _, fun id hid u hu => .inl ?_⟩
          obtain ⟨u', hu', hrunning⟩ := hall id hid
          obtain rfl : u = u' := Option.some.inj (hu.symm.trans hu')
          exact hrunning
        aborting := fun _ _ h => nomatch hphase.symm.trans h
        dropped := fun id hid => hstays id (h.dropped id hid)
        gone := fun h => nomatch hphase.symm.trans h }
  · cases hpoll.symm.trans heq
    have hperm := SwapRemove.swapRemove_perm hk
    have hnotin : id ∉ SwapRemove.swapRemove s.handles k :=
      (List.nodup_cons.mp (hperm.nodup_iff.mpr h.handles_nodup)).1
    obtain ⟨hsound, hlt, -, houtcomes, hstays⟩ :=
      h.scanned hscan (List.nil_sublist s.handles) nofun
    exact
      { sound := hsound
        spawned_lt := hlt
        nodup := h.nodup
        parts := by
          refine .trans ?_ h.parts
          refine .trans ?_ (((hperm.append_right s.detached).append_right s.dropped).append_right _)
          simp only [List.map_append, List.map_cons, List.map_nil, ← List.append_assoc]
          exact List.perm_append_singleton ..
        full := fun i hi u hu hfinished => by
          have hmem : i ∈ s.handles := hperm.subset (List.mem_cons_of_mem id hi)
          have hold := List.getElem?_eq_getElem (h.handles_lt hmem)
          obtain ⟨u', hu', hstate, -, hresult⟩ := hscan.tasks i _ hold
          obtain rfl : u = u' := Option.some.inj (hu.symm.trans hu')
          rw [hresult fun _ heq => hnotin (by cases heq; exact hi)]
          exact h.full i hmem _ hold (hstate ▸ hfinished)
        outcomes := fun i o hmem => by
          obtain hmem | hmem := List.mem_append.mp hmem
          · obtain ⟨u, hu, hended⟩ := h.outcomes i o hmem
            exact houtcomes i o u hu hended
          · cases List.mem_singleton.mp hmem
            exact houtcomes id outcome t ht hended
        waiting := nofun
        aborting := fun _ _ h => nomatch hphase.symm.trans h
        dropped := fun id hid => hstays id (h.dropped id hid)
        gone := fun h => nomatch hphase.symm.trans h }

theorem abortNext (h : s.Accounted) (hstep : s.step .abortNext = some s') : s'.Accounted := by
  rw [JoinSet.step] at hstep
  split at hstep
  next id rest dropping hphase =>
    obtain ⟨t', habort, rfl⟩ := Option.map_eq_some_iff.mp hstep
    obtain ⟨hwaiting, done, hdone, hended⟩ := h.aborting _ _ hphase
    have hthread := h.threadStep (a := .abort id) trivial habort
    obtain ⟨⟨t', answer⟩, hact, rfl⟩ := Option.map_eq_some_iff.mp habort
    obtain ⟨t, ht, heq⟩ := Option.map_eq_some_iff.mp hact
    obtain ⟨wakers, hevolved⟩ := Tasks.exists_evolved hact
    exact
      { hthread with
        aborting := fun rest' dropping' hphase' => by
          cases hphase'
          refine ⟨hwaiting, done ++ [id], by rw [hdone, List.append_assoc]; rfl, fun i hi => ?_⟩
          obtain hi | hi := List.mem_append.mp hi
          · exact hevolved.ended (hended i hi)
          · cases List.mem_singleton.mp hi
            cases heq
            exact Tasks.ended_abort ht
        gone := nofun }
  next hphase =>
    cases hstep
    exact { h with
      aborting := nofun
      gone := nofun }
  next hphase =>
    cases hstep
    obtain ⟨hwaiting, done, hdone, hended⟩ := h.aborting _ _ hphase
    exact
      { h with
        parts := by
          refine .trans (List.perm_iff_count.mpr fun id => ?_) h.parts
          simp only [List.nil_append, List.count_append]
          omega
        full := nofun
        waiting := fun w n hsome => nomatch hwaiting.symm.trans hsome
        aborting := nofun
        dropped := fun id hid => by
          obtain hid | hid := List.mem_append.mp hid
          · exact h.dropped id hid
          · rw [hdone, List.append_nil] at hid
            exact hended id hid
        gone := fun _ => rfl }
  next => cases hstep

theorem step {a : Action α ω} (h : s.Accounted) (hstep : s.step a = some s') : s'.Accounted := by
  cases a with
  | thread a =>
      obtain ⟨hprivate, heq⟩ := Option.ite_none_right_eq_some.mp hstep
      obtain ⟨t', hthread, rfl⟩ := Option.map_eq_some_iff.mp heq
      exact h.threadStep hprivate hthread
  | spawn =>
      obtain ⟨hfree, heq⟩ := Option.ite_none_right_eq_some.mp hstep
      obtain ⟨t', hthread, rfl⟩ := Option.map_eq_some_iff.mp heq
      exact h.spawn hfree hthread
  | pollNext waker =>
      obtain ⟨hphase, heq⟩ := Option.ite_none_right_eq_some.mp hstep
      obtain ⟨⟨t', answer⟩, hpoll, rfl⟩ := Option.map_eq_some_iff.mp heq
      exact h.pollNext hphase hpoll
  | abandon =>
      obtain ⟨hphase, heq⟩ := Option.ite_none_right_eq_some.mp hstep
      cases heq
      exact { h with
        waiting := nofun
        aborting := fun _ _ h => nomatch hphase.symm.trans h }
  | abortAll | drop =>
      obtain ⟨hfree, heq⟩ := Option.ite_none_right_eq_some.mp hstep
      cases heq
      exact { h with
        aborting := fun rest dropping hphase => by
          cases hphase
          exact ⟨Option.isNone_iff_eq_none.mp hfree.2, [], rfl, nofun⟩
        gone := nofun }
  | abortNext => exact h.abortNext hstep
  | detachAll =>
      obtain ⟨hfree, heq⟩ := Option.ite_none_right_eq_some.mp hstep
      cases heq
      have hwaiting : s.waiting = none := Option.isNone_iff_eq_none.mp hfree.2
      exact { h with
        parts := by
          refine .trans (List.perm_iff_count.mpr fun id => ?_) h.parts
          simp only [List.nil_append, List.count_append]
          omega
        full := nofun
        waiting := fun w n hsome => nomatch hwaiting.symm.trans hsome
        aborting := fun _ _ hphase => nomatch hfree.1.symm.trans hphase
        gone := fun _ => rfl }

/-- When every task of the set has ended, as many polls of `join_next` return all that
is left. -/
theorem drains (h : s.Accounted) (waker : ω) (hphase : s.phase = .owned)
    (hended : ∀ id ∈ s.handles, s.thread.Ended id) :
    ∃ s', Transition.run JoinSet.step s (List.replicate s.handles.length (.pollNext waker)) =
        some s' ∧ s'.handles = [] ∧
      s.handles ++ s.returned.map Prod.fst ~ s'.returned.map Prod.fst := by
  generalize hlength : s.handles.length = n
  induction n generalizing s with
  | zero =>
      have hempty := List.length_eq_zero_iff.mp hlength
      exact ⟨s, rfl, hempty, by rw [hempty, List.nil_append]⟩
  | succ n ih =>
      obtain ⟨hempty, -⟩ | ⟨t', hne, hscan, hall, -⟩ |
        ⟨t', k, id, outcome, t, hk, -, -, hscan, heq⟩ := h.pollNext_cases waker
      · rw [hempty] at hlength
        cases hlength
      · obtain ⟨id, hid⟩ := List.exists_mem_of_ne_nil _ hne
        obtain ⟨t, ht, hnot⟩ := hended id hid
        obtain ⟨u, hu, hrunning, -⟩ := hall id hid
        obtain ⟨u', hu', hstate, -⟩ := hscan.tasks id t ht
        obtain rfl : u = u' := Option.some.inj (hu.symm.trans hu')
        exact absurd (hstate.symm.trans hrunning) hnot
      · have hperm := SwapRemove.swapRemove_perm hk
        have hrest : ∀ i ∈ SwapRemove.swapRemove s.handles k, t'.Ended i := by
          intro i hi
          obtain ⟨u, hu, hnot⟩ := hended i (hperm.subset (List.mem_cons_of_mem id hi))
          obtain ⟨u', hu', hstate, -⟩ := hscan.tasks i u hu
          exact ⟨u', hu', by rwa [hstate]⟩
        have hrestLength : (SwapRemove.swapRemove s.handles k).length = n := by
          have := SwapRemove.length_swapRemove hk
          omega
        obtain ⟨s', hrun, hdone, hreturned⟩ :=
          ih (h.pollNext hphase heq) hphase hrest hrestLength
        refine ⟨s', ?_, hdone, ?_⟩
        · rw [List.replicate_succ, Transition.run, JoinSet.step, if_pos hphase, heq]
          exact hrun
        refine .trans (List.perm_iff_count.mpr fun i => ?_) hreturned
        have hcount := hperm.count_eq i
        simp only [List.count_append, List.map_append, List.map_cons, List.map_nil,
          List.count_cons, List.count_nil] at hcount ⊢
        omega

end Accounted

theorem accounted_of_reachable (hreach : s.Reachable) : s.Accounted :=
  hreach.invariant Accounted .init fun _ _ _ h _ hstep => h.step hstep

/-- In every run: an outcome that was returned is that of its task, and no task's was
returned twice; every task that was spawned is in the set, or was detached, dropped or
returned.  A poll of `join_next` never panics: it is empty exactly if no task is in
the set, returns an outcome and takes its task out if one has ended, and is else
pending; then the tasks hold its waker, until one has ended and woken it.  When all
have ended, one poll for each returns them all.  In `abort_all` and `drop` every task
that is running is aborted, and when the set is dropped none that was in it is. -/
theorem joinSet_returns_once_of_reachable (s : JoinSet α ω) (hreach : s.Reachable) :
    (s.returned.map Prod.fst).Nodup ∧
      (∀ id outcome, (id, outcome) ∈ s.returned →
        id ∈ s.spawned ∧ ∃ t : FutureTask α ω, s.thread.tasks[id]? = some t ∧
          t.EndedWith outcome) ∧
      (s.spawned.Nodup ∧
        s.handles ++ s.detached ++ s.dropped ++ s.returned.map Prod.fst ~ s.spawned) ∧
      (∀ waker, s.phase = .owned → ∃ s' answer, s.pollNext waker = some (s', answer) ∧
        ((answer = .empty ∧ s.handles = []) ∨
          (answer = .pending ∧ s.handles ≠ [] ∧ s'.handles = s.handles ∧
            s'.returned = s.returned ∧ ∀ id ∈ s.handles, ¬ s.thread.Ended id) ∨
          ∃ id outcome, answer = .next id outcome ∧ s.thread.Ended id ∧
            id :: s'.handles ~ s.handles ∧ s'.returned = s.returned ++ [(id, outcome)])) ∧
      (∀ w n, s.waiting = some (w, n) → w ∈ s.thread.woken.drop n ∨
        ∀ id ∈ s.handles, ∃ t : FutureTask α ω, s.thread.tasks[id]? = some t ∧
          t.state = .running ∧ t.joinWaker = some w) ∧
      (∀ waker, s.phase = .owned → (∀ id ∈ s.handles, s.thread.Ended id) →
        ∃ s', Transition.run step s (List.replicate s.handles.length (.pollNext waker)) = some s' ∧
          s'.handles = [] ∧ s.handles ++ s.returned.map Prod.fst ~ s'.returned.map Prod.fst) ∧
      (∀ id rest dropping t, s.phase = .aborting (id :: rest) dropping →
        s.thread.tasks[id]? = some t → ∃ s', s.step .abortNext = some s' ∧
          ∃ t' : FutureTask α ω, s'.thread.tasks[id]? = some t' ∧
            t'.state = if t.state = .running then .aborted else t.state) ∧
      (s.phase = .dropped → ∀ id ∈ s.spawned, id ∉ s.returned.map Prod.fst → id ∉ s.detached →
        s.thread.Ended id) := by
  have h := accounted_of_reachable hreach
  refine ⟨?_, ?_, ⟨h.nodup, h.parts⟩, ?_, ?_, ?_, ?_, ?_⟩
  · exact (List.nodup_append.mp h.all_nodup).2.1
  · intro id outcome hmem
    exact ⟨h.parts.subset (List.mem_append_right _ (List.mem_map_of_mem hmem)),
      h.outcomes id outcome hmem⟩
  · intro waker hphase
    obtain ⟨hempty, heq⟩ | ⟨t', hne, hscan, hall, heq⟩ |
      ⟨t', k, id, outcome, t, hk, ht, hended, hscan, heq⟩ := h.pollNext_cases waker
    · exact ⟨_, _, heq, .inl ⟨rfl, hempty⟩⟩
    · refine ⟨_, _, heq, .inr (.inl ⟨rfl, hne, rfl, rfl, ?_⟩)⟩
      rintro id hid ⟨t, ht, hnot⟩
      obtain ⟨u, hu, hrunning, -⟩ := hall id hid
      obtain ⟨u', hu', hstate, -⟩ := hscan.tasks id t ht
      obtain rfl : u = u' := Option.some.inj (hu.symm.trans hu')
      exact hnot (hstate.symm.trans hrunning)
    · exact ⟨_, _, heq, .inr (.inr ⟨id, outcome, rfl, ⟨t, ht, hended.ended⟩,
        SwapRemove.swapRemove_perm hk, rfl⟩)⟩
  · intro w n hwaiting
    obtain ⟨-, hall⟩ := h.waiting w n hwaiting
    by_cases hwoken : w ∈ s.thread.woken.drop n
    · exact .inl hwoken
    · refine .inr fun id hid => ?_
      have ht := List.getElem?_eq_getElem (h.handles_lt hid)
      exact ⟨_, ht, (hall id hid _ ht).resolve_right hwoken⟩
  · exact fun waker hphase => h.drains waker hphase
  · intro id rest dropping t hphase ht
    refine ⟨_, by rw [step, hphase]; simp only [Tasks.step, Tasks.act, ht]; rfl, ?_⟩
    show ∃ t', (s.thread.abort id t).tasks[id]? = some t' ∧ _
    unfold Tasks.abort FutureTask.markTerminal
    split
    · exact ⟨_, Table.getElem?_set_self ht, rfl⟩
    · exact ⟨t, ht, rfl⟩
  · intro hphase id hid hreturned hdetached
    have hmem := h.parts.symm.subset hid
    rw [h.gone hphase, List.nil_append] at hmem
    obtain hmem | hmem := List.mem_append.mp hmem
    · obtain hmem | hmem := List.mem_append.mp hmem
      · exact absurd hmem hdetached
      · exact h.dropped id hmem
    · exact absurd hmem hreturned

/-- Two tasks: one is returned after a `join_next` was pending, and the set is dropped
with the other one. -/
theorem joinSet_returned_and_dropped :
    ∃ s : JoinSet Nat Nat, s.Reachable ∧ s.returned.map Prod.fst = [0] ∧ s.spawned = [0, 1] ∧
      s.thread.woken = [7, 7] ∧ s.phase = .dropped ∧ s.thread.Ended 1 := by
  obtain ⟨s, hreach, hp⟩ := Transition.Reachable.exists_of_run step (fun _ _ => True)
    ({} : JoinSet Nat Nat)
    [.thread .enter, .spawn, .spawn, .pollNext 7, .thread .runMicrotask, .thread (.complete 5),
      .thread .ready, .pollNext 8, .drop, .abortNext, .abortNext]
    (fun s => decide (s.returned.map Prod.fst = [0] ∧ s.spawned = [0, 1] ∧ s.thread.woken = [7, 7] ∧
      s.phase = .dropped ∧ s.detached = []))
    (by simp) (by decide)
  obtain ⟨hreturned, hspawned, hwoken, hphase, hdetached⟩ := of_decide_eq_true hp
  obtain ⟨-, -, -, -, -, -, -, hdropped⟩ := joinSet_returns_once_of_reachable s hreach
  refine ⟨s, hreach, hreturned, hspawned, hwoken, hphase, hdropped hphase 1 ?_ ?_ ?_⟩
  · simp [hspawned]
  · simp [hreturned]
  · simp [hdetached]

end JoinSet

end Runite.Runtime
