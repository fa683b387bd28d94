import Runite.Runtime.TaskOutcome

/-!
# Waking a task from any thread

`TaskWaker::wake` of `platform::runtime_shared::future_task`, one access to `scheduled` at a
time, over the tasks of the owner.  A wake on the owner's thread schedules the task, and a wake
on another thread queues a closure that does so.  While `scheduled` is set, exactly one wake or
closure is going to clear it and to schedule the task afterwards.
-/

namespace Runite.Runtime

/-- A wake on another thread, after it has set `scheduled`. -/
inductive WakePhase
  /-- about to call `queue_internal_wake` -/
  | enqueue (id : Nat)
  /-- the owner is closed, and `scheduled` is about to be cleared -/
  | reset (id : Nat)
  | returned
  deriving DecidableEq, Repr

def WakePhase.holds (id : Nat) : WakePhase → Bool
  | enqueue i | reset i => i = id
  | returned => false

/-- What the owner is about to do in `wake`, after it has set `scheduled`, or in a closure that
another thread has queued. -/
inductive WakeCall
  /-- `scheduled.store(false)` -/
  | store (id : Nat)
  /-- `schedule_task_by_id` -/
  | schedule (id : Nat)
  deriving DecidableEq, Repr

def WakeCall.id : WakeCall → Nat
  | store id | schedule id => id

def WakeCall.holds (id : Nat) : WakeCall → Bool
  | store i => i = id
  | schedule _ => false

/-- The owner with its tasks, the closures that wake them, and the wakes on other threads.
`remote` are the closures in `remote_macrotasks` and `macrotasks` those that
`drain_remote_tasks` has adopted, by the task they are for.  `unserved` is history: whether a
task was woken after its last poll began. -/
structure Wakes (α ω : Type) where
  owner : Tasks α ω := {}
  scheduled : Nat → Bool := fun _ => false
  remote : List Nat := []
  macrotasks : List Nat := []
  foreign : List WakePhase := []
  call : Option WakeCall := none
  closed : Bool := false
  unserved : Nat → Bool := fun _ => false

inductive WakeAction (α ω : Type)
  /-- another thread wakes a task: `scheduled.swap(true)` -/
  | foreignWake (id : Nat)
  /-- the wake on another thread goes on -/
  | foreignStep (index : Nat)
  /-- the owner wakes a task: `scheduled.swap(true)` -/
  | ownerWake (id : Nat)
  /-- the wake, or the closure, goes on -/
  | callStep
  /-- `drain_remote_tasks` -/
  | drain
  /-- the first closure is taken out of the macrotasks -/
  | runClosure
  /-- anything else that the owner does with its tasks -/
  | owner (action : Tasks.Action α ω)
  /-- `close`, or the store of `closed` in `commit_idle` -/
  | close

namespace Wakes

variable {α ω : Type} (s : Wakes α ω)

def setScheduled (id : Nat) (scheduled : Bool) : Wakes α ω :=
  { s with scheduled := Function.update s.scheduled id scheduled }

/-- The next step of a wake on another thread.  The closure is in the queue also when the
notification of the owner panics. -/
def foreignStep (index : Nat) : WakePhase → Option (Wakes α ω)
  | .enqueue id =>
      if s.closed then some { s with foreign := s.foreign.set index (.reset id) }
      else some { s with
        remote := s.remote ++ [id]
        foreign := s.foreign.set index .returned }
  | .reset id =>
      some { s.setScheduled id false with foreign := s.foreign.set index .returned }
  | .returned => none

def callStep : WakeCall → Wakes α ω
  | .store id => { s.setScheduled id false with call := some (.schedule id) }
  | .schedule id => { s with owner := s.owner.scheduleById id, call := none }

/-- A poll of the task begins, so it is not unserved any more. -/
def served : Answer α → Nat → Bool
  | .polled id => Function.update s.unserved id false
  | _ => s.unserved

/-- The owner's own steps.  `finalize_thread` closes the queue before anything else. -/
def ownerStep (action : Tasks.Action α ω) : Option (Wakes α ω) :=
  (s.owner.act action).map fun (owner, answer) =>
    { s with
      owner
      unserved := s.served answer
      closed := s.closed || owner.control.tearing
      remote := if owner.control.tearing then [] else s.remote }

def step : WakeAction α ω → Option (Wakes α ω)
  | .foreignWake id =>
      if id < s.owner.tasks.length then
        let s := { s with unserved := Function.update s.unserved id true }
        if s.scheduled id then some s
        else some { s.setScheduled id true with foreign := s.foreign ++ [.enqueue id] }
      else none
  | .foreignStep index => s.foreign[index]?.bind (s.foreignStep index)
  | .ownerWake id =>
      if id < s.owner.tasks.length ∧ s.call = none ∧ s.owner.control ≠ .tornDown then
        let s := { s with unserved := Function.update s.unserved id true }
        if s.scheduled id then some s
        else some { s.setScheduled id true with call := some (.store id) }
      else none
  | .callStep => s.call.map s.callStep
  | .drain =>
      if s.call = none ∧ s.owner.control = .idle ∧ s.owner.inEventLoop = true then
        some { s with macrotasks := s.macrotasks ++ s.remote, remote := [] }
      else none
  | .runClosure =>
      if s.call = none ∧ s.owner.control = .idle ∧ s.owner.inEventLoop = true then
        match s.macrotasks with
        | [] => none
        | id :: rest => some { s with macrotasks := rest, call := some (.store id) }
      else none
  | .owner (.wake _) => none
  | .owner action => if s.call = none then s.ownerStep action else none
  | .close => some { s with closed := true, remote := [] }

def Reachable (s : Wakes α ω) : Prop :=
  Transition.Reachable step (fun _ _ => True) {} s

/-! ## Who has the flag -/

variable {s} {s' : Wakes α ω} {id : Nat}

/-- How many are going to clear `scheduled`. -/
def holders (s : Wakes α ω) (id : Nat) : Nat :=
  s.remote.count id + s.macrotasks.count id + s.foreign.countP (WakePhase.holds id) +
    (s.call.any (WakeCall.holds id)).toNat

/-- A poll of the task is going to begin. -/
def Pending (s : Wakes α ω) (id : Nat) (t : FutureTask α ω) : Prop :=
  t.queued = true ∨ id ∈ s.remote ∨ id ∈ s.macrotasks ∨ .enqueue id ∈ s.foreign ∨
    ∃ call, s.call = some call ∧ call.id = id

structure Served (s : Wakes α ω) : Prop where
  sound : s.owner.Sound
  held : ∀ id, s.holders id ≤ (s.scheduled id).toNat
  holding : s.closed = false → ∀ id, s.holders id = (s.scheduled id).toNat
  resets : s.closed = false → ∀ id, .reset id ∉ s.foreign
  known : ∀ id, s.unserved id = true → id < s.owner.tasks.length
  torn : s.closed = false → s.owner.control.tearing = false
  pending : s.closed = false → ∀ (id : Nat) (t : FutureTask α ω), s.owner.tasks[id]? = some t →
    t.state = .running → s.unserved id = true → s.Pending id t

theorem Served.init : ({} : Wakes α ω).Served where
  sound := .init
  held := fun _ => Nat.le_refl 0
  holding := fun _ _ => rfl
  resets := by simp
  known := by simp
  torn := fun _ => rfl
  pending := by simp

/-- Whoever is going to clear the flag schedules the task afterwards. -/
theorem Served.pending_of_scheduled (h : s.Served) (hopen : s.closed = false)
    (hscheduled : s.scheduled id = true) (t : FutureTask α ω) : s.Pending id t := by
  have hone := h.holding hopen id
  rw [hscheduled, Bool.toNat_true] at hone
  unfold holders at hone
  by_cases hremote : id ∈ s.remote
  · exact Or.inr (Or.inl hremote)
  by_cases hmacrotask : id ∈ s.macrotasks
  · exact Or.inr (Or.inr (Or.inl hmacrotask))
  rw [List.count_eq_zero.mpr hremote, List.count_eq_zero.mpr hmacrotask] at hone
  by_cases hforeign : s.foreign.countP (WakePhase.holds id) = 0
  · rw [hforeign] at hone
    have hcall : s.call.any (WakeCall.holds id) = true := by
      cases hany : s.call.any (WakeCall.holds id) with
      | true => rfl
      | false =>
          rw [hany] at hone
          cases hone
    obtain ⟨call, hsome, hholds⟩ := (Option.any_eq_true _ _).mp hcall
    refine Or.inr (Or.inr (Or.inr (Or.inr ⟨call, hsome, ?_⟩)))
    cases call with
    | store i => exact of_decide_eq_true hholds
    | schedule i => cases hholds
  · obtain ⟨phase, hphase, hholds⟩ := List.countP_pos_iff.mp (Nat.pos_of_ne_zero hforeign)
    refine Or.inr (Or.inr (Or.inr (Or.inl ?_)))
    cases phase with
    | enqueue i =>
        obtain rfl : i = id := by simpa [WakePhase.holds] using hholds
        exact hphase
    | reset i => exact absurd hphase (h.resets hopen i)
    | returned => cases hholds

def Balanced (s s' : Wakes α ω) : Prop :=
  ∀ id, s'.holders id + (s.scheduled id).toNat = s.holders id + (s'.scheduled id).toNat

theorem Served.held_of_balanced (h : s.Served) (hbalanced : Balanced s s') (id : Nat) :
    s'.holders id ≤ (s'.scheduled id).toNat := by
  have hold := h.held id
  have heq := hbalanced id
  omega

theorem Served.holding_of_balanced (h : s.Served) (hbalanced : Balanced s s')
    (hopen : s.closed = false) (id : Nat) : s'.holders id = (s'.scheduled id).toNat := by
  have hold := h.holding hopen id
  have heq := hbalanced id
  omega

/-- The flag is set as long as somebody is going to clear it. -/
theorem Served.scheduled_of_pos (h : s.Served) (hpos : 0 < s.holders id) :
    s.scheduled id = true := by
  have hle := h.held id
  cases hscheduled : s.scheduled id with
  | true => rfl
  | false =>
      rw [hscheduled, Bool.toNat_false] at hle
      omega

/-! ## Wakes -/

/-- A wake marks its task, and somebody has or gets the flag. -/
theorem Served.wakes (h : s.Served) (hlt : id < s.owner.tasks.length)
    {foreign : List WakePhase} {call : Option WakeCall} {scheduled : Nat → Bool}
    (hbalanced : Balanced s { s with foreign, call, scheduled })
    (hscheduled : scheduled id = true)
    (hresets : s.closed = false → ∀ i, .reset i ∉ foreign)
    (hforeign : ∀ phase ∈ s.foreign, phase ∈ foreign)
    (hcall : ∀ c, s.call = some c → call = some c) :
    Served { s with
      foreign
      call
      scheduled
      unserved := Function.update s.unserved id true } := by
  have hmoved : Served { s with foreign, call, scheduled } :=
    { h with
      held := h.held_of_balanced hbalanced
      holding := h.holding_of_balanced hbalanced
      resets := hresets
      pending := by
        intro hopen i t ht hrunning hunserved
        rcases h.pending hopen i t ht hrunning hunserved with
          hq | hr | hm | hf | ⟨c, hc, hid⟩
        · exact Or.inl hq
        · exact Or.inr (Or.inl hr)
        · exact Or.inr (Or.inr (Or.inl hm))
        · exact Or.inr (Or.inr (Or.inr (Or.inl (hforeign _ hf))))
        · exact Or.inr (Or.inr (Or.inr (Or.inr ⟨c, hcall c hc, hid⟩))) }
  exact {
    hmoved with
    known := by
      intro i hi
      by_cases heq : i = id
      · exact heq ▸ hlt
      · exact h.known i (by simpa [Function.update_of_ne heq] using hi)
    pending := by
      intro hopen i t ht hrunning hunserved
      by_cases heq : i = id
      · subst heq
        exact hmoved.pending_of_scheduled hopen hscheduled t
      · exact hmoved.pending hopen i t ht hrunning
          (by simpa [Function.update_of_ne heq] using hunserved) }

theorem Served.foreignWake (h : s.Served)
    (hstep : s.step (.foreignWake id) = some s') : s'.Served := by
  obtain ⟨hlt, heq⟩ := Option.ite_none_right_eq_some.mp hstep
  simp only [] at heq
  split at heq
  next hscheduled =>
    obtain rfl := Option.some.inj heq
    exact h.wakes hlt (fun _ => rfl) hscheduled h.resets (fun _ hmem => hmem) (fun _ hc => hc)
  next hfree =>
    have hfree : s.scheduled id = false := by simpa using hfree
    obtain rfl := Option.some.inj heq
    refine h.wakes hlt ?_ (Function.update_self ..) ?_ ?_ (fun _ hc => hc)
    · intro i
      simp only [holders, setScheduled, List.countP_append, List.countP_singleton,
        WakePhase.holds]
      by_cases hi : i = id
      · subst hi
        simp [hfree]
        omega
      · simp [Function.update_of_ne hi, Ne.symm hi]
    · intro hopen i hi
      have hold : .reset i ∈ s.foreign := by simpa using hi
      exact h.resets hopen i hold
    · intro phase hphase
      exact List.mem_append_left _ hphase

theorem Served.ownerWake (h : s.Served)
    (hstep : s.step (.ownerWake id) = some s') : s'.Served := by
  obtain ⟨⟨hlt, hcall, -⟩, heq⟩ := Option.ite_none_right_eq_some.mp hstep
  simp only [] at heq
  split at heq
  next hscheduled =>
    obtain rfl := Option.some.inj heq
    exact h.wakes hlt (fun _ => rfl) hscheduled h.resets (fun _ hmem => hmem) (fun _ hc => hc)
  next hfree =>
    have hfree : s.scheduled id = false := by simpa using hfree
    obtain rfl := Option.some.inj heq
    refine h.wakes hlt ?_ (Function.update_self ..) h.resets (fun _ hmem => hmem) ?_
    · intro i
      simp only [holders, setScheduled, hcall, Option.any_none, Option.any_some, WakeCall.holds]
      by_cases hi : i = id
      · subst hi
        simp [hfree]
      · simp [Function.update_of_ne hi, Ne.symm hi]
    · intro c hc
      cases hcall.symm.trans hc

/-! ## What follows a wake -/

theorem holders_foreign (s : Wakes α ω) {index : Nat} {phase : WakePhase} (phase' : WakePhase)
    (hphase : s.foreign[index]? = some phase) (i : Nat) :
    (s.foreign.set index phase').countP (WakePhase.holds i) + (phase.holds i).toNat =
      s.foreign.countP (WakePhase.holds i) + (phase'.holds i).toNat :=
  Counting.countP_set_add (WakePhase.holds i) phase' hphase

theorem Served.foreignStep {index : Nat} (h : s.Served)
    (hstep : s.step (.foreignStep index) = some s') : s'.Served := by
  obtain ⟨phase, hphase, heq⟩ := Option.bind_eq_some_iff.mp hstep
  have hmem := List.mem_of_getElem? hphase
  cases phase with
  | enqueue id =>
      unfold Wakes.foreignStep at heq
      simp only [] at heq
      split at heq
      next hclosed =>
        obtain rfl := Option.some.inj heq
        have hbalanced : Balanced s
            { s with foreign := s.foreign.set index (.reset id) } := by
          intro i
          have hcount := holders_foreign s (.reset id) hphase i
          simp only [WakePhase.holds] at hcount
          simp only [holders]
          omega
        have hnot : s.closed ≠ false := by simp [hclosed]
        exact {
          h with
          held := h.held_of_balanced hbalanced
          holding := fun hopen => absurd hopen hnot
          resets := fun hopen => absurd hopen hnot
          pending := fun hopen => absurd hopen hnot }
      next hopen =>
        have hopen : s.closed = false := by simpa using hopen
        obtain rfl := Option.some.inj heq
        have hbalanced : Balanced s
            { s with remote := s.remote ++ [id], foreign := s.foreign.set index .returned } := by
          intro i
          have hcount := holders_foreign s .returned hphase i
          simp only [WakePhase.holds, Bool.toNat_false] at hcount
          simp only [holders, List.count_append, List.count_singleton]
          by_cases hi : id = i
          · simp only [hi, decide_true, Bool.toNat_true, beq_self_eq_true, if_true] at hcount ⊢
            omega
          · simp only [hi, decide_false, Bool.toNat_false, beq_iff_eq, if_false] at hcount ⊢
            omega
        exact {
          h with
          held := h.held_of_balanced hbalanced
          holding := h.holding_of_balanced hbalanced
          resets := by
            intro _ i hi
            rcases List.mem_or_eq_of_mem_set hi with hold | hnew
            · exact h.resets hopen i hold
            · cases hnew
          pending := by
            intro _ i t ht hrunning hunserved
            rcases h.pending hopen i t ht hrunning hunserved with hq | hr | hm | hf | hcall
            · exact Or.inl hq
            · exact Or.inr (Or.inl (List.mem_append_left _ hr))
            · exact Or.inr (Or.inr (Or.inl hm))
            · -- The closure of the wake that moved is in the queue now.
              by_cases hi : i = id
              · exact Or.inr (Or.inl (by simp [hi]))
              · obtain ⟨j, hj⟩ := List.getElem?_of_mem hf
                have hne : j ≠ index := by
                  rintro rfl
                  rw [hphase] at hj
                  cases hj
                  exact hi rfl
                have hset := (Table.getElem?_set_eq_some (y := .returned) hphase).mpr
                  (Or.inr ⟨hne, hj⟩)
                exact Or.inr (Or.inr (Or.inr (Or.inl (List.mem_of_getElem? hset))))
            · exact Or.inr (Or.inr (Or.inr (Or.inr hcall))) }
  | reset id =>
      obtain rfl := Option.some.inj heq
      have hnot : s.closed ≠ false := fun hopen => h.resets hopen id hmem
      have hscheduled : s.scheduled id = true := by
        refine h.scheduled_of_pos ?_
        have hpos : 0 < s.foreign.countP (WakePhase.holds id) :=
          List.countP_pos_iff.mpr ⟨_, hmem, by simp [WakePhase.holds]⟩
        unfold holders
        omega
      have hbalanced : Balanced s
          { s.setScheduled id false with foreign := s.foreign.set index .returned } := by
        intro i
        have hcount := holders_foreign s .returned hphase i
        simp only [WakePhase.holds, Bool.toNat_false] at hcount
        simp only [holders, setScheduled]
        by_cases hi : id = i
        · subst hi
          simp only [decide_true, Bool.toNat_true] at hcount
          simp only [hscheduled, Function.update_self, Bool.toNat_true, Bool.toNat_false]
          omega
        · simp only [hi, decide_false, Bool.toNat_false] at hcount
          rw [Function.update_of_ne (Ne.symm hi)]
          omega
      exact {
        h with
        held := h.held_of_balanced hbalanced
        holding := fun hopen => absurd hopen hnot
        resets := fun hopen => absurd hopen hnot
        pending := fun hopen => absurd hopen hnot }
  | returned => cases heq

/-! ## The owner -/

/-- What is left of a task that was woken and goes on after a step of the owner. -/
theorem Served.follows {a : Tasks.Action α ω} {answer : Answer α} {owner : Tasks α ω}
    {t' : FutureTask α ω} (h : s.Served)
    (hfollowed : Tasks.Followed a answer s.owner owner) (ht' : owner.tasks[id]? = some t')
    (hrunning : t'.state = .running) (hunserved : s.served answer id = true) :
    s.unserved id = true ∧ ∃ t, s.owner.tasks[id]? = some t ∧ t.state = .running ∧
      (t.queued = true → t'.queued = true) := by
  have hnot : answer ≠ .polled id := by
    rintro rfl
    simp [served] at hunserved
  have hold : s.unserved id = true := by
    unfold served at hunserved
    split at hunserved
    next i =>
      have hne : id ≠ i := fun heq => hnot (by rw [heq])
      rwa [Function.update_of_ne hne] at hunserved
    next => exact hunserved
  have hlt := h.known id hold
  have ht := List.getElem?_eq_getElem hlt
  obtain ⟨u, hu, hfollows⟩ := hfollowed id _ ht
  obtain rfl : u = t' := Option.some.inj (hu.symm.trans ht')
  refine ⟨hold, _, ht, ?_, ?_⟩
  · by_contra hended
    exact hended ((hfollows.state hended).symm.trans hrunning)
  · intro hqueued
    exact (hfollows.queued hrunning hqueued).resolve_right hnot

theorem length_of_followed {a : Tasks.Action α ω} {answer : Answer α} {owner owner' : Tasks α ω}
    (hfollowed : Tasks.Followed a answer owner owner') :
    owner.tasks.length ≤ owner'.tasks.length := by
  by_contra hlt
  have hlast : owner'.tasks.length < owner.tasks.length := by omega
  obtain ⟨t, ht, -⟩ := hfollowed _ _ (List.getElem?_eq_getElem hlast)
  exact Nat.lt_irrefl _ (List.getElem?_eq_some_iff.mp ht).1

theorem queued_scheduleById {owner : Tasks α ω} {t : FutureTask α ω} (h : owner.Sound)
    (ht : (owner.scheduleById id).tasks[id]? = some t) (hrunning : t.state = .running) :
    t.queued = true := by
  unfold Tasks.scheduleById at ht
  split at ht
  next u hu =>
    split at ht
    next =>
      unfold Tasks.schedule at ht
      split at ht
      next hqueued =>
        obtain rfl := Option.some.inj (hu.symm.trans ht)
        exact hqueued
      next =>
        rw [Table.getElem?_set_self hu] at ht
        cases ht
        rfl
    next hmissing =>
      obtain rfl := Option.some.inj (hu.symm.trans ht)
      exact absurd ((h.fits id u hu).registered_iff.mpr (Or.inl hrunning)) hmissing
  next hnone =>
    rw [hnone] at ht
    cases ht

theorem Served.callStep (h : s.Served) (hstep : s.step .callStep = some s') : s'.Served := by
  obtain ⟨call, hcall, rfl⟩ := Option.map_eq_some_iff.mp hstep
  cases call with
  | store id =>
      have hscheduled : s.scheduled id = true := by
        refine h.scheduled_of_pos ?_
        simp [holders, hcall, WakeCall.holds]
      have hbalanced : Balanced s (s.callStep (.store id)) := by
        intro i
        simp only [holders, Wakes.callStep, setScheduled, hcall, Option.any_some, WakeCall.holds]
        by_cases hi : i = id
        · subst hi
          simp [hscheduled]
        · simp [Function.update_of_ne hi, Ne.symm hi]
      exact {
        h with
        held := h.held_of_balanced hbalanced
        holding := h.holding_of_balanced hbalanced
        pending := by
          intro hopen i t ht hrunning hunserved
          rcases h.pending hopen i t ht hrunning hunserved with
            hq | hr | hm | hf | ⟨c, hc, hid⟩
          · exact Or.inl hq
          · exact Or.inr (Or.inl hr)
          · exact Or.inr (Or.inr (Or.inl hm))
          · exact Or.inr (Or.inr (Or.inr (Or.inl hf)))
          · cases hcall.symm.trans hc
            exact Or.inr (Or.inr (Or.inr (Or.inr ⟨_, rfl, hid⟩))) }
  | schedule id =>
      have hbalanced : Balanced s (s.callStep (.schedule id)) := by
        intro i
        simp [holders, Wakes.callStep, hcall, WakeCall.holds]
      have hfollowed : Tasks.Followed (.wake id) (.unit : Answer α) s.owner
          (s.owner.scheduleById id) := Tasks.followed_scheduleById s.owner id
      have hcontrol : (s.owner.scheduleById id).control = s.owner.control := by
        unfold Tasks.scheduleById Tasks.schedule
        split
        · split
          · split <;> rfl
          · rfl
        · rfl
      exact {
        h with
        sound := h.sound.scheduleById id
        held := h.held_of_balanced hbalanced
        holding := h.holding_of_balanced hbalanced
        known := fun i hi => Nat.lt_of_lt_of_le (h.known i hi) (length_of_followed hfollowed)
        torn := by
          intro hopen
          show (s.owner.scheduleById id).control.tearing = false
          rw [hcontrol]
          exact h.torn hopen
        pending := by
          intro hopen i t' ht' hrunning' hunserved
          obtain ⟨-, t, ht, hrunning, hqueued⟩ := h.follows hfollowed ht' hrunning' hunserved
          rcases h.pending hopen i t ht hrunning hunserved with
            hq | hr | hm | hf | ⟨c, hc, hid⟩
          · exact Or.inl (hqueued hq)
          · exact Or.inr (Or.inl hr)
          · exact Or.inr (Or.inr (Or.inl hm))
          · exact Or.inr (Or.inr (Or.inr (Or.inl hf)))
          · cases hcall.symm.trans hc
            obtain rfl : id = i := hid
            exact Or.inl (queued_scheduleById h.sound ht' hrunning') }

theorem Served.ownerStep {a : Tasks.Action α ω} (h : s.Served)
    (hstep : s.ownerStep a = some s') : s'.Served := by
  obtain ⟨⟨owner, answer⟩, hact, rfl⟩ := Option.map_eq_some_iff.mp hstep
  have hfollowed := h.sound.followed hact
  have hknown : ∀ i, s.served answer i = true → i < owner.tasks.length := by
    intro i hi
    refine Nat.lt_of_lt_of_le (h.known i ?_) (length_of_followed hfollowed)
    unfold served at hi
    split at hi
    next j =>
      by_cases heq : i = j
      · simp [heq] at hi
      · rwa [Function.update_of_ne heq] at hi
    next => exact hi
  cases htearing : owner.control.tearing with
  | true =>
      have hnot : (s.closed || owner.control.tearing) ≠ false := by simp [htearing]
      exact {
        sound := h.sound.act hact
        held := by
          intro i
          have hle := h.held i
          unfold holders at hle ⊢
          simp only [htearing, if_true, List.count_nil]
          omega
        holding := fun hopen => absurd hopen hnot
        resets := fun hopen => absurd hopen hnot
        known := hknown
        torn := fun hopen => absurd hopen hnot
        pending := fun hopen => absurd hopen hnot }
  | false =>
      simp only [htearing, Bool.or_false, Bool.false_eq_true, if_false]
      exact {
        h with
        sound := h.sound.act hact
        known := hknown
        torn := fun _ => htearing
        pending := by
          intro hopen i t' ht' hrunning' hunserved
          obtain ⟨hold, t, ht, hrunning, hqueued⟩ := h.follows hfollowed ht' hrunning' hunserved
          exact (h.pending hopen i t ht hrunning hold).imp_left hqueued }

theorem Served.drain (h : s.Served) (hstep : s.step .drain = some s') : s'.Served := by
  obtain ⟨-, heq⟩ := Option.ite_none_right_eq_some.mp hstep
  obtain rfl := Option.some.inj heq
  have hbalanced : Balanced s { s with macrotasks := s.macrotasks ++ s.remote, remote := [] } := by
    intro i
    simp only [holders, List.count_append, List.count_nil]
    omega
  exact {
    h with
    held := h.held_of_balanced hbalanced
    holding := h.holding_of_balanced hbalanced
    pending := by
      intro hopen i t ht hrunning hunserved
      rcases h.pending hopen i t ht hrunning hunserved with hq | hr | hm | hrest
      · exact Or.inl hq
      · exact Or.inr (Or.inr (Or.inl (List.mem_append_right _ hr)))
      · exact Or.inr (Or.inr (Or.inl (List.mem_append_left _ hm)))
      · exact Or.inr (Or.inr (Or.inr hrest)) }

theorem Served.runClosure (h : s.Served) (hstep : s.step .runClosure = some s') : s'.Served := by
  obtain ⟨⟨hcall, -⟩, heq⟩ := Option.ite_none_right_eq_some.mp hstep
  split at heq
  next => cases heq
  next id rest hmacrotasks =>
    obtain rfl := Option.some.inj heq
    have hbalanced : Balanced s { s with macrotasks := rest, call := some (.store id) } := by
      intro i
      simp only [holders, hmacrotasks, hcall, List.count_cons, Option.any_none, Option.any_some,
        WakeCall.holds]
      by_cases hi : id = i
      · simp [hi]
        omega
      · simp [hi]
    exact {
      h with
      held := h.held_of_balanced hbalanced
      holding := h.holding_of_balanced hbalanced
      pending := by
        intro hopen i t ht hrunning hunserved
        rcases h.pending hopen i t ht hrunning hunserved with hq | hr | hm | hf | ⟨c, hc, -⟩
        · exact Or.inl hq
        · exact Or.inr (Or.inl hr)
        · rw [hmacrotasks] at hm
          rcases List.mem_cons.mp hm with rfl | hrest
          · exact Or.inr (Or.inr (Or.inr (Or.inr ⟨_, rfl, rfl⟩)))
          · exact Or.inr (Or.inr (Or.inl hrest))
        · exact Or.inr (Or.inr (Or.inr (Or.inl hf)))
        · cases hcall.symm.trans hc }

/-! ## Every interleaving -/

theorem Served.step {a : WakeAction α ω} (h : s.Served) (hstep : s.step a = some s') :
    s'.Served := by
  cases a with
  | foreignWake id => exact h.foreignWake hstep
  | foreignStep index => exact h.foreignStep hstep
  | ownerWake id => exact h.ownerWake hstep
  | callStep => exact h.callStep hstep
  | drain => exact h.drain hstep
  | runClosure => exact h.runClosure hstep
  | owner action =>
      cases action with
      | wake id => cases hstep
      | _ => exact h.ownerStep (Option.ite_none_right_eq_some.mp hstep).2
  | close =>
      obtain rfl := Option.some.inj hstep
      exact {
        h with
        held := by
          intro i
          have hle := h.held i
          unfold holders at hle ⊢
          simp only [List.count_nil]
          omega
        holding := nofun
        resets := nofun
        torn := nofun
        pending := nofun }

theorem served_of_reachable (hreach : s.Reachable) : s.Served :=
  hreach.invariant Served .init fun _ _ _ h _ hstep => h.step hstep

/-- In every interleaving: a running task that was woken after its last poll began, and whose
owner is not closed, has a poll in the microtask queue, a closure in the remote queue or among
the macrotasks, or a wake or closure that is about to queue or to schedule it; the poll in the
microtask queue does poll the future; and the remote queue has at most one closure of a task. -/
theorem wakes_served_of_reachable (s : Wakes α ω) (hreach : s.Reachable) :
    (s.closed = false → ∀ (id : Nat) (t : FutureTask α ω), s.owner.tasks[id]? = some t →
      t.state = .running → s.unserved id = true →
        .poll id ∈ s.owner.localMicrotasks ∨ id ∈ s.remote ∨ id ∈ s.macrotasks ∨
          .enqueue id ∈ s.foreign ∨ ∃ call, s.call = some call ∧ call.id = id) ∧
      (∀ (id : Nat) (t : FutureTask α ω) rest, s.owner.tasks[id]? = some t →
        t.state = .running → s.owner.localMicrotasks = .poll id :: rest →
        s.owner.control = .idle → s.owner.inEventLoop = true →
          ∃ owner, s.owner.act .runMicrotask = some (owner, .polled id)) ∧
      ∀ id, s.remote.count id ≤ 1 := by
  have h := served_of_reachable hreach
  refine ⟨?_, ?_, ?_⟩
  · intro hopen id t ht hrunning hunserved
    refine (h.pending hopen id t ht hrunning hunserved).imp_left fun hqueued => ?_
    have hcount := h.sound.queued (h.torn hopen) id t ht
    rw [hqueued] at hcount
    exact List.count_pos_iff.mp (by rw [hcount]; exact Nat.one_pos)
  · intro id t rest ht hrunning hclosures hcontrol hloop
    have hfuture : t.future = true :=
      (h.sound.fits id t ht).future_iff.mpr ⟨hrunning, by simp [hcontrol]⟩
    refine ⟨(({ s.owner with localMicrotasks := rest } : Tasks α ω).poll id t).1, ?_⟩
    simp [Tasks.act, Tasks.runMicrotask, Tasks.poll, hcontrol, hloop, hclosures, ht, hfuture]
  · intro id
    have hle := h.held id
    have hone := Bool.toNat_le (s.scheduled id)
    unfold holders at hle
    omega

/-- Two threads wake a task while it is being polled; the second wake is folded into the first,
whose closure is still in the remote queue when the poll ends. -/
theorem wakes_served_in_poll :
    ∃ s : Wakes Nat Nat, s.Reachable ∧
      (s.closed = false ∧ s.unserved 0 = true ∧ s.owner.tasks = [{}] ∧ s.remote = [0]) ∧
      s.remote.count 0 ≤ 1 ∧
      (.poll 0 ∈ s.owner.localMicrotasks ∨ 0 ∈ s.remote ∨ 0 ∈ s.macrotasks ∨
        .enqueue 0 ∈ s.foreign ∨ ∃ call, s.call = some call ∧ call.id = 0) := by
  obtain ⟨s, hreach, hp⟩ := Transition.Reachable.exists_of_run step (fun _ _ => True)
    ({} : Wakes Nat Nat)
    [.owner .queueFuture, .owner .enter, .owner .runMicrotask, .foreignWake 0, .foreignWake 0,
      .foreignStep 0, .owner .pending]
    (fun s => decide (s.closed = false ∧ s.unserved 0 = true ∧ s.owner.tasks = [{}] ∧
      s.remote = [0]))
    (by simp) (by decide)
  have hstate := of_decide_eq_true hp
  obtain ⟨hpending, -, hone⟩ := wakes_served_of_reachable s hreach
  refine ⟨s, hreach, hstate, hone 0, ?_⟩
  exact hpending hstate.1 0 {} (by rw [hstate.2.2.1]; rfl) rfl hstate.2.1

end Wakes

end Runite.Runtime
