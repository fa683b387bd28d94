import Runite.Linux.DriverTimer

/-!
# The driver's timer covers the timer heap

A step of the scheduler that can change the first deadline rearms the driver's timer.  The
timeout with the active token is never the target of a remove, so that its only completion is
the one that says that it expired.
-/

namespace Runite.Runtime.Timers

variable {s t : Timers} {id scheduled now : Nat} {task : TimerTask}

/-! ## Steps that do not rearm -/

theorem timers_start : (s.start task).timers = s.timers := by
  cases task with
  | timeout id => exact (apply_ite Timers.timers _ _ _).trans (ite_self _)
  | tick id scheduled => exact (apply_ite Timers.timers _ _ _).trans (ite_self _)

/-- If a tick runs after a closure has started, then it is that closure, and the interval is
live. -/
theorem running_start (hidle : s.running = none)
    (hrunning : (s.start task).running = some (.tick id scheduled)) :
    task = .tick id scheduled ∧ (s.liveIntervals id).isSome := by
  cases task with
  | timeout id' =>
      rw [Timers.start] at hrunning
      split at hrunning
      · exact absurd (Option.some.inj hrunning) (by simp)
      · exact absurd (hidle.symm.trans hrunning) (by simp)
  | tick id' scheduled' =>
      rw [Timers.start] at hrunning
      split at hrunning
      next hlive =>
        obtain ⟨rfl, rfl⟩ := TimerTask.tick.inj (Option.some.inj hrunning)
        exact ⟨rfl, hlive⟩
      next => exact absurd (hidle.symm.trans hrunning) (by simp)

theorem running_finish : (s.finish now task).1.running = none := by
  unfold Timers.finish
  split
  · rfl
  · split
    · rfl
    · dsimp only
      split
      · rfl
      · rfl

/-- The interval whose tick runs is not in the heap, also after it was cancelled. -/
def Apart (s : Timers) : Prop :=
  ∀ id scheduled, s.running = some (.tick id scheduled) → ∀ node ∈ s.timers.nodes, node.id ≠ id

theorem timers_finish (hrearm : (s.finish now task).2 = false) :
    (s.finish now task).1.timers = s.timers := by
  unfold Timers.finish at hrearm ⊢
  split
  · rfl
  · split
    · rfl
    · dsimp only at hrearm ⊢
      split
      · rfl
      next hlate =>
        simp_all

theorem Apart.insert (node : TimerNode) (h : s.Apart) (hvalid : s.timers.Valid)
    (hfresh : ∀ a ∈ s.timers.nodes, a.id ≠ node.id)
    (hrunning : ∀ task, s.running = some task → task.id ≠ node.id) :
    Apart { s with timers := s.timers.insert node } := by
  intro id scheduled hid a ha
  rcases ((TimerHeap.insert_spec hvalid node hfresh).2 a).mp ha with rfl | hold
  · exact Ne.symm (hrunning _ hid)
  · exact h id scheduled hid a hold

theorem Apart.act {a : TimerAction} {result : Timers × Bool} (h : s.Apart) (hsound : s.Sound)
    (hact : s.act a = some result) : result.1.Apart := by
  have hfresh : ∀ a ∈ s.timers.nodes, a.id ≠ s.nextTimerId :=
    fun a ha => Nat.ne_of_lt (hsound.heap a ha)
  have hrunning : ∀ task, s.running = some task → task.id ≠ s.nextTimerId :=
    fun task htask => Nat.ne_of_lt (hsound.running task htask)
  cases a with
  | timeout now delay =>
      obtain ⟨-, hs⟩ := Option.ite_none_right_eq_some.mp hact
      rw [← Option.some.inj hs]
      exact Apart.insert ⟨s.nextTimerId, _, .timeout⟩ h hsound.valid hfresh hrunning
  | interval now delay =>
      obtain ⟨-, hs⟩ := Option.ite_none_right_eq_some.mp hact
      rw [← Option.some.inj hs, Timers.interval]
      split
      · exact h
      · exact Apart.insert ⟨s.nextTimerId, _, .interval⟩ h hsound.valid hfresh hrunning
  | cancel generation id =>
      obtain ⟨-, hs⟩ := Option.ite_none_right_eq_some.mp hact
      rw [← Option.some.inj hs, Timers.clearTimer]
      split
      · exact h
      · intro id' scheduled hid node hnode
        exact h id' scheduled hid node (((TimerHeap.remove_spec hsound.valid id).2.1 node).mp hnode).1
  | dispatch now =>
      obtain ⟨⟨hidle, -⟩, hs⟩ := Option.ite_none_right_eq_some.mp hact
      rw [← Option.some.inj hs]
      intro id scheduled hid
      exact absurd (hidle.symm.trans hid) (by simp)
  | runMacrotask =>
      obtain ⟨hidle, hs⟩ := Option.ite_none_right_eq_some.mp hact
      split at hs
      · exact absurd hs (by simp)
      next task rest htasks =>
        rw [← Option.some.inj hs]
        intro id scheduled hid
        obtain ⟨rfl, hlive⟩ := running_start (s := { s with localMacrotasks := rest }) hidle hid
        obtain ⟨period, hperiod⟩ := Option.isSome_iff_exists.mp hlive
        obtain ⟨-, -, hheap, -⟩ := (hsound.interval id period hperiod).front htasks
        rw [timers_start]
        exact hheap
  | returns now =>
      obtain ⟨-, hs⟩ := Option.ite_none_right_eq_some.mp hact
      obtain ⟨task, -, hfinish⟩ := Option.map_eq_some_iff.mp hs
      rw [← hfinish]
      intro id scheduled hid
      exact absurd (running_finish.symm.trans hid) (by simp)
  | panics =>
      obtain ⟨task, -, hunwind⟩ := Option.map_eq_some_iff.mp hact
      rw [← hunwind]
      intro id scheduled hid
      cases task with
      | timeout id' => exact absurd hid (by simp [Timers.unwind])
      | tick id' scheduled' => exact absurd hid (by simp [Timers.unwind])

/-- A step after which the driver's timer is not rearmed leaves the heap as it is. -/
theorem timers_act {a : TimerAction} {result : Timers × Bool} (hsound : s.Sound)
    (hapart : s.Apart) (hact : s.act a = some result) (hrearm : result.2 = false) :
    result.1.timers = s.timers := by
  cases a with
  | timeout now delay =>
      obtain ⟨-, hs⟩ := Option.ite_none_right_eq_some.mp hact
      obtain rfl := Option.some.inj hs
      exact absurd hrearm (by simp)
  | interval now delay =>
      obtain ⟨-, hs⟩ := Option.ite_none_right_eq_some.mp hact
      obtain rfl := Option.some.inj hs
      by_cases hdelay : delay = 0
      · rw [Timers.interval, if_pos hdelay]
        rfl
      · rw [Timers.interval, if_neg hdelay] at hrearm
        exact absurd hrearm (by simp)
  | cancel generation id =>
      obtain ⟨-, hs⟩ := Option.ite_none_right_eq_some.mp hact
      obtain rfl := Option.some.inj hs
      by_cases hgeneration : s.generation ≠ generation
      · rw [Timers.clearTimer, if_pos hgeneration]
      · rw [Timers.clearTimer, if_neg hgeneration] at hrearm ⊢
        have habsent : ∀ a ∈ s.timers.nodes, a.id ≠ id := by
          intro a ha hid
          have hfound := ((TimerHeap.remove_spec hsound.valid id).2.2 a).mpr ⟨ha, hid⟩
          have hnone : (s.timers.remove id).2.isSome = false := hrearm
          rw [hfound] at hnone
          exact absurd hnone (by simp)
        exact congrArg Prod.fst (TimerHeap.remove_of_absent hsound.valid habsent)
  | dispatch now =>
      obtain ⟨-, hs⟩ := Option.ite_none_right_eq_some.mp hact
      obtain rfl := Option.some.inj hs
      exact absurd hrearm (by simp)
  | runMacrotask =>
      obtain ⟨-, hs⟩ := Option.ite_none_right_eq_some.mp hact
      split at hs
      · exact absurd hs (by simp)
      · obtain rfl := Option.some.inj hs
        exact timers_start
  | returns now =>
      obtain ⟨-, hs⟩ := Option.ite_none_right_eq_some.mp hact
      obtain ⟨task, -, rfl⟩ := Option.map_eq_some_iff.mp hs
      exact timers_finish hrearm
  | panics =>
      obtain ⟨task, hrunning, rfl⟩ := Option.map_eq_some_iff.mp hact
      cases task with
      | timeout id => rfl
      | tick id scheduled =>
          have habsent := hapart id scheduled hrunning
          exact congrArg Prod.fst (TimerHeap.remove_of_absent hsound.valid habsent)

end Runite.Runtime.Timers

namespace Runite.Linux.TimerSystem

open Runite.Runtime (Timers TimerAction TimerHeap)

variable {s t : TimerSystem} {token : Token}

/-! ## The active timeout -/

/-- The timeout is staged or in the kernel, and nothing removes it. -/
structure Armed (s : TimerSystem) (token : Token) (deadline : Nat) : Prop where
  present : .timeout token deadline ∈ s.staged ∨ (token, deadline) ∈ s.kernel
  staged : ∀ completion, .timeoutRemove token completion ∉ s.staged
  removed : token ∉ s.removed

/-- The active token stands for an armed timeout, and tokens are not used twice. -/
structure Tracked (s : TimerSystem) : Prop where
  freshStaged : ∀ target completion, .timeoutRemove target completion ∈ s.staged →
    target.seq < s.nextToken
  freshRemoved : ∀ target ∈ s.removed, target.seq < s.nextToken
  freshActive : ∀ token, s.driver.activeTimerToken = some token → token.seq < s.nextToken
  armed : ∀ token, s.driver.activeTimerToken = some token →
    ∃ deadline, s.driver.activeTimerDeadline = some deadline ∧ s.Armed token deadline
  idle : s.driver.activeTimerToken = none → s.driver.activeTimerDeadline = none

/-- A new timeout is staged behind the remove of the last one. -/
theorem Tracked.arm {seq deadline : Nat} (h : s.Tracked) (removes : List TimerSqe)
    (hseq : s.nextToken ≤ seq)
    (hremoves : ∀ sqe ∈ removes, ∃ target completion, sqe = .timeoutRemove target completion ∧
      target.seq < s.nextToken) :
    Tracked { s with
      driver := { s.driver with
        activeTimerToken := some ⟨.timer, seq⟩, activeTimerDeadline := some deadline }
      nextToken := seq + 1
      staged := s.staged ++ (removes ++ [.timeout ⟨.timer, seq⟩ deadline]) } := by
  have hstaged : ∀ target completion,
      .timeoutRemove target completion ∈ s.staged ++ (removes ++ [.timeout ⟨.timer, seq⟩ deadline]) →
        target.seq < s.nextToken := by
    intro target completion hmem
    rcases List.mem_append.mp hmem with hold | hnew
    · exact h.freshStaged target completion hold
    · rcases List.mem_append.mp hnew with hremove | htimeout
      · obtain ⟨target', completion', heq, hlt⟩ := hremoves _ hremove
        obtain ⟨rfl, -⟩ := TimerSqe.timeoutRemove.inj heq
        exact hlt
      · exact absurd (List.mem_singleton.mp htimeout) nofun
  exact {
    freshStaged := fun target completion hmem =>
      Nat.lt_succ_of_le (Nat.le_trans (Nat.le_of_lt (hstaged target completion hmem)) hseq)
    freshRemoved := fun target hmem =>
      Nat.lt_succ_of_le (Nat.le_trans (Nat.le_of_lt (h.freshRemoved target hmem)) hseq)
    freshActive := by
      rintro token ⟨⟩
      exact Nat.lt_succ_self seq
    armed := by
      rintro token ⟨⟩
      refine ⟨deadline, rfl, ?_, ?_, ?_⟩
      · refine .inl (List.mem_append_right _ (List.mem_append_right _ ?_))
        exact List.mem_singleton_self _
      · intro completion hmem
        exact Nat.not_lt.mpr hseq (hstaged _ completion hmem)
      · intro hmem
        exact Nat.not_lt.mpr hseq (h.freshRemoved _ hmem)
    idle := nofun }

/-- `rearm_thread_timer` arms the timer for the first deadline. -/
theorem Tracked.rearm (h : s.Tracked) :
    s.rearmThreadTimer.Tracked ∧
      s.rearmThreadTimer.driver.activeTimerDeadline = s.scheduler.timers.peekDeadline := by
  unfold rearmThreadTimer DriverTimer.rearmTimer
  by_cases hsame : s.driver.activeTimerDeadline = s.scheduler.timers.peekDeadline
  · rw [if_pos hsame]
    refine ⟨?_, hsame⟩
    dsimp only
    rw [List.append_nil]
    exact h
  rw [if_neg hsame]
  cases hactive : s.driver.activeTimerToken with
  | some active =>
      cases hpeek : s.scheduler.timers.peekDeadline with
      | some deadline =>
          refine ⟨?_, rfl⟩
          refine h.arm [.timeoutRemove active ⟨.timerRemove, s.nextToken⟩]
            (Nat.le_succ _) fun sqe hsqe => ?_
          exact ⟨active, _, List.mem_singleton.mp hsqe, h.freshActive active hactive⟩
      | none =>
          refine ⟨?_, rfl⟩
          exact {
            freshStaged := by
              intro target completion hmem
              rcases List.mem_append.mp hmem with hold | hnew
              · exact Nat.lt_succ_of_lt (h.freshStaged target completion hold)
              · obtain ⟨rfl, -⟩ := TimerSqe.timeoutRemove.inj (List.mem_singleton.mp hnew)
                exact Nat.lt_succ_of_lt (h.freshActive target hactive)
            freshRemoved := fun target hmem => Nat.lt_succ_of_lt (h.freshRemoved target hmem)
            freshActive := nofun
            armed := nofun
            idle := fun _ => rfl }
  | none =>
      cases hpeek : s.scheduler.timers.peekDeadline with
      | some deadline => exact ⟨h.arm [] (Nat.le_refl _) nofun, rfl⟩
      | none => exact absurd ((h.idle hactive).trans hpeek.symm) hsame

/-! ## Submission and completion -/

theorem Tracked.submit {sqe : TimerSqe} {staged : List TimerSqe} (h : s.Tracked)
    (hstaged : s.staged = sqe :: staged) : (accept { s with staged } sqe).Tracked := by
  have hsub : ∀ a ∈ staged, a ∈ s.staged := fun a ha => hstaged ▸ List.mem_cons_of_mem _ ha
  cases sqe with
  | timeout token deadline =>
      exact {
        freshStaged := fun target completion hmem => h.freshStaged target completion (hsub _ hmem)
        freshRemoved := h.freshRemoved
        freshActive := h.freshActive
        armed := by
          intro active hactive
          obtain ⟨deadline', hdeadline, harmed⟩ := h.armed active hactive
          refine ⟨deadline', hdeadline, ?_, fun c hmem => harmed.staged c (hsub _ hmem),
            harmed.removed⟩
          rcases harmed.present with hmem | hkernel
          · rw [hstaged] at hmem
            rcases List.mem_cons.mp hmem with heq | hrest
            · obtain ⟨rfl, rfl⟩ := TimerSqe.timeout.inj heq
              exact .inr (List.mem_append_right _ (List.mem_singleton_self _))
            · exact .inl hrest
          · exact .inr (List.mem_append_left _ hkernel)
        idle := h.idle }
  | timeoutRemove target completion =>
      have hmem : .timeoutRemove target completion ∈ s.staged := hstaged ▸ List.mem_cons_self
      exact {
        freshStaged := fun target completion hmem => h.freshStaged target completion (hsub _ hmem)
        freshRemoved := by
          intro target' htarget'
          rcases List.mem_append.mp htarget' with hold | hnew
          · exact h.freshRemoved target' hold
          · rw [List.mem_singleton.mp hnew]
            exact h.freshStaged target completion hmem
        freshActive := h.freshActive
        armed := by
          intro active hactive
          obtain ⟨deadline', hdeadline, harmed⟩ := h.armed active hactive
          refine ⟨deadline', hdeadline, ?_, fun c hmem => harmed.staged c (hsub _ hmem), ?_⟩
          · rcases harmed.present with hpresent | hkernel
            · rw [hstaged] at hpresent
              exact .inl ((List.mem_cons.mp hpresent).resolve_left nofun)
            · exact .inr hkernel
          · intro hremoved
            rcases List.mem_append.mp hremoved with hold | hnew
            · exact harmed.removed hold
            · rw [List.mem_singleton.mp hnew] at harmed
              exact harmed.staged completion hmem
        idle := h.idle }

/-- The completion of another timeout leaves the active one alone. -/
theorem Tracked.deliver {expired : Bool} (h : s.Tracked) : (s.deliver token expired).Tracked := by
  have hdriver : (s.driver.processTimer token expired).activeTimerToken =
      if s.driver.activeTimerToken = some token then none else s.driver.activeTimerToken := by
    unfold DriverTimer.processTimer
    split <;> cases expired <;> rfl
  have hdeadline : (s.driver.processTimer token expired).activeTimerDeadline =
      if s.driver.activeTimerToken = some token then none else s.driver.activeTimerDeadline := by
    unfold DriverTimer.processTimer
    split <;> cases expired <;> rfl
  by_cases hactive : s.driver.activeTimerToken = some token
  · rw [if_pos hactive] at hdriver hdeadline
    exact {
      freshStaged := h.freshStaged
      freshRemoved := h.freshRemoved
      freshActive := fun active htoken => absurd (hdriver.symm.trans htoken) nofun
      armed := fun active htoken => absurd (hdriver.symm.trans htoken) nofun
      idle := fun _ => hdeadline }
  · rw [if_neg hactive] at hdriver hdeadline
    exact {
      freshStaged := h.freshStaged
      freshRemoved := h.freshRemoved
      freshActive := fun active htoken => h.freshActive active (hdriver.symm.trans htoken)
      armed := by
        intro active htoken
        have hold := hdriver.symm.trans htoken
        obtain ⟨deadline, hactiveDeadline, harmed⟩ := h.armed active hold
        refine ⟨deadline, hdeadline.trans hactiveDeadline, ?_, harmed.staged, harmed.removed⟩
        refine harmed.present.imp_right fun hkernel => List.mem_filter.mpr ⟨hkernel, ?_⟩
        refine decide_eq_true ?_
        rintro rfl
        exact hactive hold
      idle := fun htoken => hdeadline.trans (h.idle (hdriver.symm.trans htoken)) }

/-! ## Every run -/

structure Covered (s : TimerSystem) : Prop extends s.Tracked where
  sound : s.scheduler.Sound
  apart : s.scheduler.Apart
  covers : s.driver.activeTimerDeadline = s.scheduler.timers.peekDeadline ∨
    0 < s.driver.pendingTimers

theorem Covered.init (generation : Nat) : Covered { scheduler := { generation } } where
  freshStaged := by simp
  freshRemoved := by simp
  freshActive := by simp
  armed := by simp
  idle := fun _ => rfl
  sound := Timers.Sound.init generation
  apart := fun _ _ hrunning => absurd hrunning nofun
  covers := .inl rfl

theorem Covered.scheduler {a : TimerAction} (h : s.Covered)
    (hstep : s.step (.scheduler a) = some t) : t.Covered := by
  obtain ⟨u, hbefore, hu⟩ := Option.bind_eq_some_iff.mp hstep
  obtain ⟨⟨scheduler, rearm⟩, hact, rfl⟩ := Option.map_eq_some_iff.mp hu
  -- expirations are drained only where the driver's timer is rearmed at the end
  have hu : u.Tracked ∧ u.scheduler = s.scheduler ∧ (rearm = false → u.driver = s.driver) := by
    unfold beforeAction at hbefore
    split at hbefore
    next now =>
      obtain ⟨-, hdrained⟩ := Option.ite_none_right_eq_some.mp hbefore
      obtain rfl := Option.some.inj hdrained
      obtain ⟨-, hs⟩ := Option.ite_none_right_eq_some.mp hact
      refine ⟨{ h with armed := ?_ }, rfl, ?_⟩
      · intro token htoken
        obtain ⟨deadline, hdeadline, harmed⟩ := h.armed token htoken
        exact ⟨deadline, hdeadline, { harmed with }⟩
      · rintro rfl
        exact absurd (congrArg Prod.snd (Option.some.inj hs)) nofun
    next =>
      obtain rfl := Option.some.inj hbefore
      exact ⟨h.toTracked, rfl, fun _ => rfl⟩
  obtain ⟨htracked, hscheduler, hdriver⟩ := hu
  rw [hscheduler] at hact
  have hsound := h.sound.act hact
  have hapart := h.apart.act h.sound hact
  have htracked' : Tracked { u with scheduler } := { htracked with
    armed := by
      intro token htoken
      obtain ⟨deadline, hdeadline, harmed⟩ := htracked.armed token htoken
      exact ⟨deadline, hdeadline, { harmed with }⟩ }
  cases rearm with
  | true =>
      obtain ⟨hrearmed, hdeadline⟩ := htracked'.rearm
      exact { hrearmed with sound := hsound, apart := hapart, covers := .inl hdeadline }
  | false =>
      refine { htracked' with sound := hsound, apart := hapart, covers := ?_ }
      have htimers : scheduler.timers = s.scheduler.timers :=
        Timers.timers_act h.sound h.apart hact rfl
      have hcovers := h.covers
      rw [← htimers, ← hdriver rfl] at hcovers
      exact hcovers

theorem Covered.step {a : TimerSystemAction} (h : s.Covered) (hstep : s.step a = some t) :
    t.Covered := by
  cases a with
  | scheduler a => exact h.scheduler hstep
  | nextToken =>
      obtain rfl := Option.some.inj hstep
      exact { h with
        freshStaged := fun target completion hmem =>
          Nat.lt_succ_of_lt (h.freshStaged target completion hmem)
        freshRemoved := fun target hmem => Nat.lt_succ_of_lt (h.freshRemoved target hmem)
        freshActive := fun active hactive => Nat.lt_succ_of_lt (h.freshActive active hactive)
        armed := by
          intro active hactive
          obtain ⟨deadline, hdeadline, harmed⟩ := h.armed active hactive
          exact ⟨deadline, hdeadline, { harmed with }⟩ }
  | submit =>
      rw [TimerSystem.step] at hstep
      split at hstep
      · exact absurd hstep nofun
      next sqe staged hstaged =>
        obtain rfl := Option.some.inj hstep
        have htracked := h.toTracked.submit hstaged
        cases sqe with
        | timeout token deadline =>
            exact { htracked with sound := h.sound, apart := h.apart, covers := h.covers }
        | timeoutRemove target completion =>
            exact { htracked with sound := h.sound, apart := h.apart, covers := h.covers }
  | expired token =>
      obtain ⟨-, hs⟩ := Option.ite_none_right_eq_some.mp hstep
      obtain rfl := Option.some.inj hs
      refine { h.toTracked.deliver with sound := h.sound, apart := h.apart, covers := .inr ?_ }
      exact Nat.lt_min.mpr ⟨Nat.succ_pos _, by decide⟩
  | cancelled token =>
      obtain ⟨⟨-, hremoved⟩, hs⟩ := Option.ite_none_right_eq_some.mp hstep
      obtain rfl := Option.some.inj hs
      refine { h.toTracked.deliver with sound := h.sound, apart := h.apart, covers := ?_ }
      have hother : s.driver.activeTimerToken ≠ some token := by
        intro hactive
        obtain ⟨deadline, -, harmed⟩ := h.armed token hactive
        exact harmed.removed hremoved
      have hsame : s.driver.processTimer token false = s.driver := if_neg hother
      have hcovers := h.covers
      rw [← hsame] at hcovers
      exact hcovers

theorem covered_of_reachable {generation : Nat} (hreach : Reachable generation s) : s.Covered :=
  Transition.Reachable.invariant Covered (Covered.init generation)
    (fun _ _ _ h _ hstep => h.step hstep) hreach

/-- In every run the heap is empty, or the active timeout is armed for its least deadline, or an
expiration is pending, which makes the next poll dispatch. -/
theorem timer_covered_of_reachable (generation : Nat) (s : TimerSystem)
    (hreach : Reachable generation s) :
    s.scheduler.timers.nodes = [] ∨
      (∃ token deadline, s.driver.activeTimerToken = some token ∧
        s.driver.activeTimerDeadline = some deadline ∧
        (∃ node ∈ s.scheduler.timers.nodes, node.deadline = deadline) ∧
        (∀ node ∈ s.scheduler.timers.nodes, deadline ≤ node.deadline) ∧
        s.Armed token deadline) ∨
      (s.timerReady = true ∧
        ∀ now, s.scheduler.running = none → s.scheduler.now ≤ now → now ≤ Runtime.durationMax →
          (s.step (.scheduler (.dispatch now))).isSome) := by
  have h := covered_of_reachable hreach
  rcases h.covers with hcovers | hpending
  · cases hpeek : s.scheduler.timers.peekDeadline with
    | none => exact .inl (TimerHeap.peekDeadline_eq_none_iff.mp hpeek)
    | some deadline =>
        have hdeadline := hcovers.trans hpeek
        obtain ⟨hmem, hleast⟩ := TimerHeap.peekDeadline_eq_some h.sound.valid hpeek
        obtain ⟨token, htoken⟩ : ∃ token, s.driver.activeTimerToken = some token := by
          refine Option.ne_none_iff_exists'.mp fun hnone => ?_
          exact absurd (hdeadline.symm.trans (h.idle hnone)) nofun
        obtain ⟨deadline', hdeadline', harmed⟩ := h.armed token htoken
        obtain rfl := Option.some.inj (hdeadline'.symm.trans hdeadline)
        exact .inr (.inl ⟨token, deadline', htoken, hdeadline, hmem, hleast, harmed⟩)
  · have hready : s.timerReady = true := decide_eq_true (Nat.ne_of_gt hpending)
    refine .inr (.inr ⟨hready, fun now hidle hnow hmax => ?_⟩)
    simp [TimerSystem.step, beforeAction, hready, Timers.act, hidle, hnow, hmax]

/-- A timeout is replaced by an earlier one, which is cancelled; the first timeout expires late,
after its remove was accepted, while the third is active. -/
theorem timer_covered_after_late_expiration :
    ∃ s : TimerSystem, Reachable 1 s ∧
      (s.driver = ⟨some ⟨.timer, 5⟩, some 9, 1⟩ ∧
        s.removed = [⟨.timer, 1⟩] ∧ s.kernel = [(⟨.timer, 3⟩, 4)] ∧
        s.staged = [.timeoutRemove ⟨.timer, 3⟩ ⟨.timerRemove, 4⟩, .timeout ⟨.timer, 5⟩ 9]) ∧
      (s.scheduler.timers.nodes = [] ∨
        (∃ token deadline, s.driver.activeTimerToken = some token ∧
          s.driver.activeTimerDeadline = some deadline ∧
          (∃ node ∈ s.scheduler.timers.nodes, node.deadline = deadline) ∧
          (∀ node ∈ s.scheduler.timers.nodes, deadline ≤ node.deadline) ∧
          s.Armed token deadline) ∨
        (s.timerReady = true ∧
          ∀ now, s.scheduler.running = none → s.scheduler.now ≤ now → now ≤ Runtime.durationMax →
            (s.step (.scheduler (.dispatch now))).isSome)) := by
  obtain ⟨s, hreach, hp⟩ := Transition.Reachable.exists_of_run step (fun _ _ => True)
    ({ scheduler := { generation := 1 } } : TimerSystem)
    [.scheduler (.timeout 0 9), .submit, .scheduler (.timeout 0 4), .submit, .submit,
      .scheduler (.cancel 1 2), .expired ⟨.timer, 1⟩]
    (fun s => decide (s.driver = ⟨some ⟨.timer, 5⟩, some 9, 1⟩ ∧
        s.removed = [⟨.timer, 1⟩] ∧ s.kernel = [(⟨.timer, 3⟩, 4)] ∧
        s.staged = [.timeoutRemove ⟨.timer, 3⟩ ⟨.timerRemove, 4⟩, .timeout ⟨.timer, 5⟩ 9]))
    (by simp) (by decide)
  exact ⟨s, hreach, of_decide_eq_true hp, timer_covered_of_reachable 1 s hreach⟩

end Runite.Linux.TimerSystem
