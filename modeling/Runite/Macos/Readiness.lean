import Runite.Macos.Driver

/-!
# Registrations match waiters

In every reachable state a key with an interested waiter has a registration in the kernel.
What an operation does to the waiters is that of `Waiters`; a batch does for every key what
its first event there says, whatever happens to the wake pipe on the way.
-/

namespace Runite.Macos

/-- The event is of the descriptor and the interest. -/
def Kevent.isOf (event : Kevent) (key : FdKey) : Bool :=
  interestFromFilter event.filter = some key.interest ∧ asI32 event.ident = key.fd

/-- The event is the exit of the process. -/
def Kevent.isExitOf (event : Kevent) (pid : Int) : Bool :=
  event.filter = .proc ∧ asI32 event.ident = pid

/-- What the waiters of a key are told by a batch: the result of its first event there. -/
def fdResult (batch : List Delivery) (key : FdKey) : Option IoResult :=
  (batch.find? (·.1.isOf key)).map fun delivery => fdEventResult delivery.1 key.interest

/-- What the waiters of a process are told by a batch. -/
def processResult (batch : List Delivery) (pid : Int) : Option IoResult :=
  (batch.find? (·.1.isExitOf pid)).map fun delivery => eventResult delivery.1

/-- The error of an event of the wake pipe. -/
def drainErrorOf (wakeReadFd : Int) (delivery : Delivery) : Option Int :=
  if delivery.1.filter = .read ∧ asI32 delivery.1.ident = wakeReadFd then
    match drainWakePipe delivery.2 with
    | .ok _ => none
    | .error errno => some errno
  else none

/-! ## The loop over a batch -/

theorem Dispatch.event_spec (s : Dispatch) (delivery : Delivery) :
    (s.event delivery).driver.fds =
        s.driver.fds.completeAll (fdDelivery s.driver.wakeReadFd delivery).toList ∧
      (s.event delivery).driver.processes =
        s.driver.processes.completeAll (processDelivery delivery).toList ∧
      (s.event delivery).drainError =
        s.drainError.or (drainErrorOf s.driver.wakeReadFd delivery) ∧
      (s.event delivery).driver.wakeReadFd = s.driver.wakeReadFd ∧
      (s.event delivery).driver.uninterested = s.driver.uninterested := by
  obtain ⟨event, reads⟩ := delivery
  unfold Dispatch.event fdDelivery drainErrorOf processDelivery
  by_cases hwake : event.filter = .read ∧ asI32 event.ident = s.driver.wakeReadFd
  · obtain ⟨hread, hident⟩ := hwake
    simp only [hread, hident, and_self, if_true, reduceCtorEq, if_false]
    cases drainWakePipe reads with
    | ok wakes => exact ⟨rfl, rfl, (Option.or_none).symm, rfl, rfl⟩
    | error errno => exact ⟨rfl, rfl, rfl, rfl, rfl⟩
  · simp only [if_neg hwake, Option.or_none]
    cases hfilter : event.filter <;> exact ⟨rfl, rfl, rfl, rfl, rfl⟩

theorem foldl_event_spec (batch : List Delivery) (s : Dispatch) :
    (batch.foldl Dispatch.event s).driver.fds =
        s.driver.fds.completeAll (batch.filterMap (fdDelivery s.driver.wakeReadFd)) ∧
      (batch.foldl Dispatch.event s).driver.processes =
        s.driver.processes.completeAll (batch.filterMap processDelivery) ∧
      (batch.foldl Dispatch.event s).drainError =
        s.drainError.or (batch.findSome? (drainErrorOf s.driver.wakeReadFd)) ∧
      (batch.foldl Dispatch.event s).driver.wakeReadFd = s.driver.wakeReadFd ∧
      (batch.foldl Dispatch.event s).driver.uninterested = s.driver.uninterested := by
  induction batch generalizing s with
  | nil => exact ⟨rfl, rfl, (Option.or_none).symm, rfl, rfl⟩
  | cons delivery batch ih =>
      obtain ⟨hfds, hprocesses, herror, hwake, huninterested⟩ := s.event_spec delivery
      obtain ⟨hfds', hprocesses', herror', hwake', huninterested'⟩ := ih (s.event delivery)
      refine ⟨?_, ?_, ?_, hwake'.trans hwake, huninterested'.trans huninterested⟩
      · rw [List.foldl_cons, hfds', hfds, hwake, List.filterMap_cons]
        cases fdDelivery s.driver.wakeReadFd delivery <;> rfl
      · rw [List.foldl_cons, hprocesses', hprocesses, List.filterMap_cons]
        cases processDelivery delivery <;> rfl
      · rw [List.foldl_cons, herror', herror, hwake, Option.or_assoc, List.findSome?_cons]
        cases drainErrorOf s.driver.wakeReadFd delivery <;> rfl

theorem checkTimer_spec (d : Driver) (ready : ReadyEvents) (sawAny : Bool)
    (now : Except Int Nat) :
    ∃ deadline timers, (d.checkTimer ready sawAny now).1 =
      { d with timerDeadline := deadline, pendingTimers := timers } := by
  unfold Driver.checkTimer
  repeat' split
  all_goals exact ⟨_, _, rfl⟩

/-- The deliveries of what `kevent` answers. -/
def batchOf : Except Int (List Delivery) → List Delivery
  | .ok batch => batch
  | .error _ => []

/-- `process` delivers its batch, and leaves the rest to the timer and the wake counter. -/
theorem process_spec (d : Driver) (polled : Except Int (List Delivery)) (now : Except Int Nat) :
    (d.process polled now).1.fds =
        d.fds.deliver ((batchOf polled).filterMap (fdDelivery d.wakeReadFd)) ∧
      (d.process polled now).1.processes =
        d.processes.deliver ((batchOf polled).filterMap processDelivery) ∧
      (d.process polled now).1.wakeReadFd = d.wakeReadFd ∧
      (d.process polled now).1.uninterested = d.uninterested ∧
      ∀ errno, (batchOf polled).findSome? (drainErrorOf d.wakeReadFd) = some errno →
        (d.process polled now).2 = .error errno := by
  cases polled with
  | error errno =>
      have hsame : ∃ deadline timers, (d.process (.error errno) now).1 =
          { d with timerDeadline := deadline, pendingTimers := timers } := by
        unfold Driver.process
        dsimp only
        split
        · exact ⟨_, _, rfl⟩
        · exact checkTimer_spec d {} false now
      obtain ⟨deadline, timers, hsame⟩ := hsame
      rw [hsame]
      exact ⟨d.fds.deliver_nil.symm, d.processes.deliver_nil.symm, rfl, rfl, nofun⟩
  | ok batch =>
      obtain ⟨hfds, hprocesses, herror, hwake, huninterested⟩ :=
        foldl_event_spec batch { driver := d.dequeue batch }
      unfold Driver.process batchOf
      dsimp only
      rw [Option.none_or] at herror
      change _ = batch.findSome? (drainErrorOf d.wakeReadFd) at herror
      rw [herror]
      cases hfirst : batch.findSome? (drainErrorOf d.wakeReadFd) with
      | some errno =>
          exact ⟨hfds, hprocesses, hwake, huninterested, fun _ h => congrArg _ (Option.some.inj h)⟩
      | none =>
          dsimp only
          obtain ⟨deadline, timers, htimer⟩ := checkTimer_spec
            (batch.foldl Dispatch.event { driver := d.dequeue batch }).driver
            (batch.foldl Dispatch.event { driver := d.dequeue batch }).ready (!batch.isEmpty) now
          rw [htimer]
          exact ⟨hfds, hprocesses, hwake, huninterested, nofun⟩

/-- An event of a key, and not of the wake pipe, is a delivery to that key. -/
theorem fdDelivery_of_isOf {wakeReadFd : Int} {delivery : Delivery} {key : FdKey}
    (hne : key.fd ≠ wakeReadFd) (hof : delivery.1.isOf key = true) :
    fdDelivery wakeReadFd delivery = some (key, fdEventResult delivery.1 key.interest) := by
  obtain ⟨hinterest, hident⟩ := of_decide_eq_true hof
  unfold fdDelivery
  rw [if_neg fun h => hne (hident.symm.trans h.2), hinterest, hident]
  rfl

theorem isOf_of_fdDelivery {wakeReadFd : Int} {delivery : Delivery} {p : FdKey × IoResult}
    (hp : fdDelivery wakeReadFd delivery = some p) : delivery.1.isOf p.1 = true := by
  unfold fdDelivery at hp
  by_cases hwake : delivery.1.filter = .read ∧ asI32 delivery.1.ident = wakeReadFd
  · rw [if_pos hwake] at hp
    exact nomatch hp
  · rw [if_neg hwake] at hp
    obtain ⟨interest, hinterest, rfl⟩ := Option.map_eq_some_iff.mp hp
    exact decide_eq_true ⟨hinterest, rfl⟩

/-- Under a key of another descriptor than the wake pipe the deliveries are those of the
events. -/
theorem lookup_fdDelivery {wakeReadFd : Int} (batch : List Delivery) {key : FdKey}
    (hne : key.fd ≠ wakeReadFd) :
    (batch.filterMap (fdDelivery wakeReadFd)).lookup key = fdResult batch key := by
  induction batch with
  | nil => rfl
  | cons delivery batch ih =>
      unfold fdResult at ih ⊢
      rw [List.find?_cons]
      cases hof : delivery.1.isOf key with
      | true =>
          rw [List.filterMap_cons_some (fdDelivery_of_isOf hne hof), List.lookup_cons_self]
          rfl
      | false =>
          dsimp only
          rw [← ih]
          cases hdelivery : fdDelivery wakeReadFd delivery with
          | none => rw [List.filterMap_cons_none hdelivery]
          | some p =>
              have hkey : key ≠ p.1 := by
                rintro rfl
                exact Bool.false_ne_true (hof.symm.trans (isOf_of_fdDelivery hdelivery))
              rw [List.filterMap_cons_some hdelivery, List.lookup_cons,
                beq_eq_false_iff_ne.mpr hkey]

theorem lookup_processDelivery (batch : List Delivery) (pid : Int) :
    (batch.filterMap processDelivery).lookup pid = processResult batch pid := by
  induction batch with
  | nil => rfl
  | cons delivery batch ih =>
      unfold processResult at ih ⊢
      rw [List.find?_cons]
      by_cases hproc : delivery.1.filter = .proc
      · have hdelivery : processDelivery delivery =
            some (asI32 delivery.1.ident, eventResult delivery.1) := if_pos hproc
        rw [List.filterMap_cons_some hdelivery, List.lookup_cons]
        by_cases hident : asI32 delivery.1.ident = pid
        · have hexit : delivery.1.isExitOf pid = true := decide_eq_true ⟨hproc, hident⟩
          rw [beq_iff_eq.mpr hident.symm, hexit]
          rfl
        · have hexit : delivery.1.isExitOf pid = false := decide_eq_false fun h => hident h.2
          rw [beq_eq_false_iff_ne.mpr (Ne.symm hident), hexit, ih]
      · have hexit : delivery.1.isExitOf pid = false := decide_eq_false fun h => hproc h.1
        have hdelivery : processDelivery delivery = none := if_neg hproc
        rw [List.filterMap_cons_none hdelivery, hexit, ih]

/-! ## Every reachable state -/

structure Sound (d : Driver) : Prop where
  fds : d.fds.Distinct
  processes : d.processes.Distinct
  fdsCovered : d.fds.Covered d.interested
  processesCovered : d.processes.Covered d.interested
  /-- The wake pipe has no waiters. -/
  wakeFree : ∀ key, key.fd = d.wakeReadFd → d.fds.get key = [] ∧ key ∉ d.fds.registered

variable {d : Driver}

theorem Sound.delivers (h : Sound d) (polled : Except Int (List Delivery))
    (now : Except Int Nat) :
    d.fds.Delivers (fdResult (batchOf polled)) (d.process polled now).1.fds ∧
      d.processes.Delivers (processResult (batchOf polled)) (d.process polled now).1.processes := by
  obtain ⟨hfds, hprocesses, -⟩ := process_spec d polled now
  have hdelivered := (Waiters.deliver_spec h.fds
    ((batchOf polled).filterMap (fdDelivery d.wakeReadFd))).2
  have hprocess := (Waiters.deliver_spec h.processes
    ((batchOf polled).filterMap processDelivery)).2
  rw [funext (lookup_processDelivery (batchOf polled)), ← hprocesses] at hprocess
  rw [← hfds] at hdelivered
  refine ⟨?_, hprocess⟩
  -- a key of the wake pipe has nothing that a batch could touch
  have hresult : ∀ key, key.fd ≠ d.wakeReadFd →
      ((batchOf polled).filterMap (fdDelivery d.wakeReadFd)).lookup key =
        fdResult (batchOf polled) key := fun key => lookup_fdDelivery _
  exact
    { get := fun key => by
        rw [hdelivered.get]
        by_cases hkey : key.fd = d.wakeReadFd
        · rw [(h.wakeFree key hkey).1, ite_self, ite_self]
        · rw [hresult key hkey]
      completed := by
        obtain ⟨new, hcompleted, hnodup, hnew⟩ := hdelivered.completed
        refine ⟨new, hcompleted, hnodup, fun c => (hnew c).trans ?_⟩
        by_cases hkey : c.key.fd = d.wakeReadFd
        · rw [(h.wakeFree c.key hkey).1]
          exact ⟨fun hc => (nomatch hc.1), fun hc => (nomatch hc.1)⟩
        · rw [hresult c.key hkey]
      registered := fun key => by
        rw [hdelivered.registered]
        by_cases hkey : key.fd = d.wakeReadFd
        · have hnot := (h.wakeFree key hkey).2
          exact ⟨fun hc => absurd hc.1 hnot, fun hc => absurd hc.1 hnot⟩
        · rw [hresult key hkey]
      nextToken := hdelivered.nextToken }

theorem Sound.congr {d' : Driver} (h : Sound d) (hfds : d'.fds = d.fds)
    (hprocesses : d'.processes = d.processes) (huninterested : d'.uninterested = d.uninterested)
    (hwake : d'.wakeReadFd = d.wakeReadFd) : Sound d' := by
  have hinterested : d'.interested = d.interested := by
    unfold Driver.interested
    rw [huninterested]
  exact
    { fds := hfds ▸ h.fds
      processes := hprocesses ▸ h.processes
      fdsCovered := hfds ▸ hinterested ▸ h.fdsCovered
      processesCovered := hprocesses ▸ hinterested ▸ h.processesCovered
      wakeFree := fun key hkey => hfds ▸ h.wakeFree key (hkey.trans hwake) }

theorem Sound.process (h : Sound d) (polled : Except Int (List Delivery))
    (now : Except Int Nat) : Sound (d.process polled now).1 := by
  obtain ⟨hfds, hprocesses, hwake, huninterested, -⟩ := process_spec d polled now
  obtain ⟨hdelivers, hexits⟩ := h.delivers polled now
  have hinterested : (d.process polled now).1.interested = d.interested := by
    unfold Driver.interested
    rw [huninterested]
  exact
    { fds := hfds ▸ (Waiters.deliver_spec h.fds _).1
      processes := hprocesses ▸ (Waiters.deliver_spec h.processes _).1
      fdsCovered := hinterested ▸ h.fdsCovered.deliver hdelivers
      processesCovered := hinterested ▸ h.processesCovered.deliver hexits
      wakeFree := fun key hkey => by
        obtain ⟨hnone, hfree⟩ := h.wakeFree key (hkey.trans hwake)
        refine ⟨?_, fun hmem => hfree ((hdelivers.registered key).mp hmem).1⟩
        rw [hdelivers.get, hnone, ite_self] }

theorem Sound.registerFdReadiness (h : Sound d) {fd : Int} (hfd : fd ≠ d.wakeReadFd)
    (interest : FdInterest) (completion : Nat) (answer : IoResult) :
    Sound (d.registerFdReadiness fd interest completion answer).1 := by
  have hregisters := Waiters.register_spec d.fds d.interested ⟨fd, interest⟩ completion answer
  exact
    { fds := h.fds.register hregisters
      processes := h.processes
      fdsCovered := h.fdsCovered.register hregisters
      processesCovered := h.processesCovered
      wakeFree := fun key hkey => by
        have hne : key ≠ ⟨fd, interest⟩ := by
          rintro rfl
          exact hfd hkey
        obtain ⟨hnone, hfree⟩ := h.wakeFree key hkey
        refine ⟨?_, fun hmem => ?_⟩
        · exact (hregisters.get key).trans ((if_neg hne).trans hnone)
        · rcases (hregisters.registered key).mp hmem with hmem | ⟨heq, -⟩
          · exact hfree hmem
          · exact hne heq }

theorem Sound.registerProcessExit (h : Sound d) (pid : Int) (completion : Nat)
    (answer : IoResult) : Sound (d.registerProcessExit pid completion answer).1 := by
  have hregisters := Waiters.register_spec d.processes d.interested pid completion answer
  exact
    { fds := h.fds
      processes := h.processes.register hregisters
      fdsCovered := h.fdsCovered
      processesCovered := h.processesCovered.register hregisters
      wakeFree := h.wakeFree }

theorem Sound.cancelFdReadiness (h : Sound d) (token : Nat) (answer : IoResult) :
    Sound (d.cancelFdReadiness token answer) := by
  have hcancels := Waiters.cancel_spec h.fds token answer
  exact
    { fds := h.fds.cancel token answer
      processes := h.processes
      fdsCovered := h.fdsCovered.cancel hcancels
      processesCovered := h.processesCovered
      wakeFree := fun key hkey => by
        obtain ⟨hnone, hfree⟩ := h.wakeFree key hkey
        refine ⟨?_, fun hmem => hfree (Waiters.registered_cancel_subset _ _ _ hmem)⟩
        exact (hcancels.get key).trans (by rw [hnone, List.filter_nil]) }

theorem Sound.cancelProcessExit (h : Sound d) (token : Nat) (answer : IoResult) :
    Sound (d.cancelProcessExit token answer) where
  fds := h.fds
  processes := h.processes.cancel token answer
  fdsCovered := h.fdsCovered
  processesCovered := h.processesCovered.cancel (Waiters.cancel_spec h.processes token answer)
  wakeFree := h.wakeFree

theorem Sound.loseInterest (h : Sound d) (completion : Nat) : Sound (d.loseInterest completion) := by
  have himp : ∀ c, (d.loseInterest completion).interested c = true → d.interested c = true := by
    intro c hc
    simp only [Driver.interested, Driver.loseInterest, List.contains_cons, Bool.not_or,
      Bool.and_eq_true] at hc
    exact hc.2
  exact
    { fds := h.fds
      processes := h.processes
      fdsCovered := h.fdsCovered.mono himp
      processesCovered := h.processesCovered.mono himp
      wakeFree := h.wakeFree }

theorem Sound.closeFd (h : Sound d) {fd : Int} (hallowed : Allowed d (.closeFd fd)) :
    Sound (d.closeFd fd) where
  fds := h.fds.shrink (fun _ => List.Sublist.refl _) rfl rfl
  processes := h.processes
  fdsCovered key w hw hinterested := by
    refine Finset.mem_filter.mpr ⟨h.fdsCovered key w hw hinterested, ?_⟩
    rintro rfl
    obtain ⟨fd, interest⟩ := key
    have hgone : d.interested w.completion = false := by
      refine hallowed w (List.mem_append.mpr ?_)
      cases interest with
      | readable => exact Or.inl hw
      | writable => exact Or.inr hw
    exact Bool.false_ne_true (hgone.symm.trans hinterested)
  processesCovered := h.processesCovered
  wakeFree key hkey :=
    ⟨(h.wakeFree key hkey).1, fun hmem => (h.wakeFree key hkey).2 (Finset.mem_filter.mp hmem).1⟩

theorem Sound.poll (h : Sound d) (polled : Except Int (List Delivery)) (now : Except Int Nat) :
    Sound (d.poll polled now).1 := by
  unfold Driver.poll
  dsimp only
  split
  · exact h.congr rfl rfl rfl rfl
  · have hquiet : Sound { d with ioCompleted := false } := h.congr rfl rfl rfl rfl
    exact (hquiet.process polled now).congr rfl rfl rfl rfl

theorem Sound.wait (h : Sound d) (start : Except Int Nat) (polled : Except Int (List Delivery))
    (now : Except Int Nat) : Sound (d.wait start polled now).1 := by
  cases start with
  | error errno => exact h
  | ok _ => exact h.process polled now

theorem Sound.of_reachable {wakeReadFd : Int} (h : Reachable wakeReadFd d) : Sound d := by
  refine Transition.Reachable.invariant Sound ?_ (fun d a d' hd hallowed hstep => ?_) h
  · have hempty : ∀ (κ : Type) [DecidableEq κ], ({} : Waiters κ).Distinct := by
      intro κ _
      exact ⟨by simp [Waiters.get], by simp [Waiters.get], by simp [Waiters.get], by simp, by simp,
        by simp⟩
    exact
      { fds := hempty FdKey
        processes := hempty Int
        fdsCovered := by simp [Waiters.Covered, Waiters.get]
        processesCovered := by simp [Waiters.Covered, Waiters.get]
        wakeFree := by simp [Waiters.get] }
  · cases a with
    | registerFdReadiness fd interest completion answer =>
        cases hstep
        exact hd.registerFdReadiness hallowed interest completion answer
    | cancelFdReadiness token answer =>
        cases hstep
        exact hd.cancelFdReadiness token answer
    | registerProcessExit pid completion answer =>
        cases hstep
        exact hd.registerProcessExit pid completion answer
    | cancelProcessExit token answer =>
        cases hstep
        exact hd.cancelProcessExit token answer
    | poll polled now =>
        cases hstep
        exact hd.poll polled now
    | wait start polled now =>
        cases hstep
        exact hd.wait start polled now
    | rearmTimer deadline =>
        cases hstep
        exact hd.congr rfl rfl rfl rfl
    | drainWake =>
        cases hstep
        exact hd.congr rfl rfl rfl rfl
    | drainTimer =>
        cases hstep
        exact hd.congr rfl rfl rfl rfl
    | loseInterest completion =>
        cases hstep
        exact hd.loseInterest completion
    | closeFd fd =>
        cases hstep
        exact hd.closeFd hallowed

/-- Registrations match waiters.  A batch completes every waiter of the keys of its events
once, by the first event there, and no other, also when the wake pipe fails. -/
theorem registrations_match_waiters {wakeReadFd : Int} (h : Reachable wakeReadFd d) :
    (d.fds.Covered d.interested ∧ d.processes.Covered d.interested) ∧
      (d.fds.Distinct ∧ d.processes.Distinct) ∧
      (∀ batch now,
        d.fds.Delivers (fdResult batch) (d.process (.ok batch) now).1.fds ∧
          d.processes.Delivers (processResult batch) (d.process (.ok batch) now).1.processes ∧
          ∀ errno, batch.findSome? (drainErrorOf d.wakeReadFd) = some errno →
            (d.process (.ok batch) now).2 = .error errno) ∧
      (∀ token answer,
        d.fds.Cancels token (d.cancelFdReadiness token answer).fds ∧
          d.processes.Cancels token (d.cancelProcessExit token answer).processes) ∧
      (∀ fd interest completion answer,
        d.fds.Registers d.interested ⟨fd, interest⟩ completion
          (d.registerFdReadiness fd interest completion answer).2
          (d.registerFdReadiness fd interest completion answer).1.fds) ∧
      ∀ pid completion answer,
        d.processes.Registers d.interested pid completion
          (d.registerProcessExit pid completion answer).2
          (d.registerProcessExit pid completion answer).1.processes := by
  have hsound := Sound.of_reachable h
  refine ⟨⟨hsound.fdsCovered, hsound.processesCovered⟩, ⟨hsound.fds, hsound.processes⟩,
    fun batch now => ?_, fun token answer => ⟨?_, ?_⟩, fun fd interest completion answer => ?_,
    fun pid completion answer => ?_⟩
  · obtain ⟨hfds, hprocesses⟩ := hsound.delivers (.ok batch) now
    obtain ⟨-, -, -, -, herror⟩ := process_spec d (.ok batch) now
    exact ⟨hfds, hprocesses, herror⟩
  · exact Waiters.cancel_spec hsound.fds token answer
  · exact Waiters.cancel_spec hsound.processes token answer
  · exact Waiters.register_spec d.fds d.interested ⟨fd, interest⟩ completion answer
  · exact Waiters.register_spec d.processes d.interested pid completion answer

/-- Two readers of one descriptor, one writer whose registration fails, and a child; the
second reader goes away, and a batch brings the descriptor, an error of the wake pipe and the
child. -/
def brokenPipeRun : List Action :=
  [.registerFdReadiness 5 .readable 0 (.ok ()), .registerFdReadiness 5 .readable 1 (.ok ()),
    .registerFdReadiness 6 .writable 2 (.error 9), .registerProcessExit 77 3 (.ok ()),
    .loseInterest 1, .cancelFdReadiness 2 (.ok ()),
    .poll (.ok [({ ident := 5, filter := .read }, []), ({ ident := 3, filter := .read }, [.error 5]),
      ({ ident := 77, filter := .proc }, [])]) (.ok 0)]

theorem registrations_match_waiters_brokenPipeRun :
    ∃ d, Reachable 3 d ∧ d.fds.completed.map (·.waiter.completion) = [0] ∧
      d.processes.completed.map (·.waiter.completion) = [3] ∧ d.pendingWakes = 0 ∧
      d.fds.Covered d.interested := by
  obtain ⟨d, hreach, hd⟩ := Transition.Reachable.exists_of_guarded step Allowed
    { wakeReadFd := 3 } brokenPipeRun
    (fun d : Driver => d.fds.completed.map (·.waiter.completion) == [0] &&
      d.processes.completed.map (·.waiter.completion) == [3] && d.pendingWakes == 0)
    (by decide)
  simp only [Bool.and_eq_true, beq_iff_eq] at hd
  exact ⟨d, hreach, hd.1.1, hd.1.2, hd.2, (registrations_match_waiters hreach).1.1⟩

end Runite.Macos
