import Runite.Runtime.ThreadShared
import Runite.Lib.Counting
import Runite.Lib.Table
import Runite.Lib.Transition

/-!
# Durable notification of a runtime thread

`request_notification`, `start_notification_retry`, `notification_retry_loop` and `close` of
`platform::runtime_shared::state::ThreadShared`, one atomic access at a time.  Any number of
threads request notifications, and every call of the notifier may fail.  A generation is
delivered when a notification has succeeded after it was requested, and while one is not
delivered, somebody is about to look at it again.
-/

namespace Runite.Runtime

/-! ## The phases of the functions -/

/-- What a thread in `request_notification` does next.  The phases from `retryLoadClosed` on
are in `start_notification_retry`. -/
inductive RequestPhase
  | loadClosed
  | fetchAdd
  | notify (generation attempt : Nat)
  | fetchMax (generation : Nat)
  | loadDelivered
  | loadRequested (delivered : Nat)
  | retryLoadClosed
  | retryLoadDelivered
  | retryLoadRequested (delivered : Nat)
  | swapRunning
  | spawn
  | storeNotRunning
  | returned
  | panicked
  deriving DecidableEq, Repr

/-- What a thread in `notification_retry_loop` does next.  The phases from `recheckClosed` on
come after the flag was given back. -/
inductive LoopPhase
  | loadClosed
  | loadDelivered
  | loadRequested (delivered : Nat)
  | loadGeneration
  | notify (generation attempt : Nat)
  | fetchMax (generation : Nat)
  | storeNotRunning
  | recheckClosed
  | recheckDelivered
  | recheckRequested (delivered : Nat)
  | exchange
  | exited
  deriving DecidableEq, Repr

/-- What the owner does next in `close`; it holds the lock of the queue, so there is one call
at a time. -/
inductive ClosePhase
  | idle
  | loadRequested
  | storeDelivered (requested : Nat)
  deriving DecidableEq, Repr

/-- What happened: a generation was requested, or a call of the notifier succeeded. -/
inductive NotifyEvent
  | issued (generation : Nat)
  | notified
  deriving DecidableEq, Repr

/-- A notification succeeded after the generation was requested; the last event comes first. -/
def NotifiedAfter (generation : Nat) : List NotifyEvent → Prop
  | [] => False
  | .notified :: earlier => .issued generation ∈ earlier ∨ NotifiedAfter generation earlier
  | .issued _ :: earlier => NotifiedAfter generation earlier

instance NotifiedAfter.decide (generation : Nat) :
    (events : List NotifyEvent) → Decidable (NotifiedAfter generation events)
  | [] => inferInstanceAs (Decidable False)
  | .notified :: earlier =>
      have := NotifiedAfter.decide generation earlier
      inferInstanceAs (Decidable (.issued generation ∈ earlier ∨ NotifiedAfter generation earlier))
  | .issued _ :: earlier => NotifiedAfter.decide generation earlier

namespace RequestPhase

/-- The generation is requested, and the call has not ended. -/
def inside : RequestPhase → Bool
  | loadClosed | fetchAdd | returned | panicked => false
  | _ => true

/-- The thread has set `notification_retry_running` and has not passed it on. -/
def holds : RequestPhase → Bool
  | spawn | storeNotRunning => true
  | _ => false

end RequestPhase

namespace LoopPhase

/-- The loop is active: it has `notification_retry_running`. -/
def holds : LoopPhase → Bool
  | recheckClosed | recheckDelivered | recheckRequested _ | exchange | exited => false
  | _ => true

/-- Unless the target is closed, the loop loads `notification_requested` before it ends. -/
def examines (retryRunning : Bool) : LoopPhase → Bool
  | exited => false
  | exchange => !retryRunning
  | _ => true

end LoopPhase

/-! ## The steps -/

structure Notifications where
  requested : Nat := 0
  delivered : Nat := 0
  retryRunning : Bool := false
  closed : Bool := false
  requesters : List RequestPhase := []
  loops : List LoopPhase := []
  closing : ClosePhase := .idle
  events : List NotifyEvent := []
  spawnFailed : Bool := false
  deriving DecidableEq, Repr

inductive NotifyAction
  | request
  | requester (index : Nat) (outcome : Bool)
  | loop (index : Nat) (outcome : Bool)
  | commitClosed
  | close
  deriving DecidableEq, Repr

namespace Notifications

variable (s : Notifications)

def setRequester (index : Nat) (phase : RequestPhase) : Notifications :=
  { s with requesters := s.requesters.set index phase }

def setLoop (index : Nat) (phase : LoopPhase) : Notifications :=
  { s with loops := s.loops.set index phase }

/-- The outcome of a call of the notifier is recorded. -/
def notifies (outcome : Bool) : Notifications :=
  if outcome then { s with events := .notified :: s.events } else s

/-- The next step of a thread in `request_notification`; `outcome` is how a call of the
notifier or the start of a thread ends. -/
def requestStep (index : Nat) (outcome : Bool) : RequestPhase → Option Notifications
  | .loadClosed => some (s.setRequester index (if s.closed then .returned else .fetchAdd))
  | .fetchAdd =>
      some ({ s with
        requested := s.requested + 1
        events := .issued (s.requested + 1) :: s.events }.setRequester index
          (.notify (s.requested + 1) 0))
  | .notify generation attempt =>
      some ((s.notifies outcome).setRequester index
        (if outcome then .fetchMax generation
        else if attempt + 1 < notifyAttempts then .notify generation (attempt + 1)
        else .retryLoadClosed))
  | .fetchMax generation =>
      some ({ s with delivered := max s.delivered generation }.setRequester index .loadDelivered)
  | .loadDelivered => some (s.setRequester index (.loadRequested s.delivered))
  | .loadRequested delivered =>
      some (s.setRequester index
        (if delivered < s.requested then .retryLoadClosed else .returned))
  | .retryLoadClosed =>
      some (s.setRequester index (if s.closed then .returned else .retryLoadDelivered))
  | .retryLoadDelivered => some (s.setRequester index (.retryLoadRequested s.delivered))
  | .retryLoadRequested delivered =>
      some (s.setRequester index (if delivered < s.requested then .swapRunning else .returned))
  | .swapRunning =>
      some ({ s with retryRunning := true }.setRequester index
        (if s.retryRunning then .returned else .spawn))
  | .spawn =>
      if outcome then
        some ({ s with loops := s.loops ++ [LoopPhase.loadClosed] }.setRequester index .returned)
      else some (s.setRequester index .storeNotRunning)
  | .storeNotRunning =>
      some ({ s with retryRunning := false, spawnFailed := true }.setRequester index .panicked)
  | .returned | .panicked => none

/-- The next step of a thread in `notification_retry_loop`. -/
def loopStep (index : Nat) (outcome : Bool) : LoopPhase → Option Notifications
  | .loadClosed => some (s.setLoop index (if s.closed then .storeNotRunning else .loadDelivered))
  | .loadDelivered => some (s.setLoop index (.loadRequested s.delivered))
  | .loadRequested delivered =>
      some (s.setLoop index
        (if delivered < s.requested then .loadGeneration else .storeNotRunning))
  | .loadGeneration => some (s.setLoop index (.notify s.requested 0))
  | .notify generation attempt =>
      some ((s.notifies outcome).setLoop index
        (if outcome then .fetchMax generation
        else if attempt + 1 < notifyAttempts then .notify generation (attempt + 1)
        else .loadClosed))
  | .fetchMax generation =>
      some ({ s with delivered := max s.delivered generation }.setLoop index .loadClosed)
  | .storeNotRunning => some ({ s with retryRunning := false }.setLoop index .recheckClosed)
  | .recheckClosed => some (s.setLoop index (if s.closed then .exited else .recheckDelivered))
  | .recheckDelivered => some (s.setLoop index (.recheckRequested s.delivered))
  | .recheckRequested delivered =>
      some (s.setLoop index (if delivered < s.requested then .exchange else .exited))
  | .exchange =>
      some ({ s with retryRunning := true }.setLoop index
        (if s.retryRunning then .exited else .loadClosed))
  | .exited => none

/-- The next step of `close`. -/
def closeStep : ClosePhase → Notifications
  | .idle => { s with closed := true, closing := .loadRequested }
  | .loadRequested => { s with closing := .storeDelivered s.requested }
  | .storeDelivered requested => { s with delivered := requested, closing := .idle }

/-- `commitClosed` is the store of `closed` in `commit_idle`. -/
def step : NotifyAction → Option Notifications
  | .request => some { s with requesters := s.requesters ++ [.loadClosed] }
  | .requester index outcome => s.requesters[index]?.bind (s.requestStep index outcome)
  | .loop index outcome => s.loops[index]?.bind (s.loopStep index outcome)
  | .commitClosed => some { s with closed := true }
  | .close => some (s.closeStep s.closing)

def Reachable (s : Notifications) : Prop :=
  Transition.Reachable step (fun _ _ => True) {} s

end Notifications

/-! ## What the phases know -/

/-- A notification succeeded after each of the generations was requested. -/
def Covered (events : List NotifyEvent) (generation : Nat) : Prop :=
  ∀ g, 0 < g → g ≤ generation → NotifiedAfter g events

/-- What a thread has read of the counters while the target was open. -/
def RequestPhase.Knows (s : Notifications) : RequestPhase → Prop
  | .notify generation _ => generation ≤ s.requested
  | .fetchMax generation => generation ≤ s.requested ∧ Covered s.events generation
  | .loadRequested delivered | .retryLoadRequested delivered =>
      s.closed = false → delivered ≤ s.delivered
  | _ => True

def LoopPhase.Knows (s : Notifications) : LoopPhase → Prop
  | .notify generation _ => generation ≤ s.requested
  | .fetchMax generation => generation ≤ s.requested ∧ Covered s.events generation
  | .loadRequested delivered | .recheckRequested delivered =>
      s.closed = false → delivered ≤ s.delivered
  | _ => True

/-- The counters grow while the target is open. -/
structure Grows (s t : Notifications) : Prop where
  requested : s.requested ≤ t.requested
  events : ∀ g, NotifiedAfter g s.events → NotifiedAfter g t.events
  closed : t.closed = false → s.closed = false
  delivered : t.closed = false → s.delivered ≤ t.delivered

theorem Grows.refl (s : Notifications) : Grows s s :=
  ⟨Nat.le_refl _, fun _ => id, id, fun _ => Nat.le_refl _⟩

section Grows

variable {s t : Notifications}

theorem Grows.covered {generation : Nat} (hgrows : Grows s t)
    (h : Covered s.events generation) : Covered t.events generation :=
  fun g hpos hle => hgrows.events g (h g hpos hle)

theorem RequestPhase.Knows.mono {phase : RequestPhase} (hgrows : Grows s t)
    (h : phase.Knows s) : phase.Knows t := by
  cases phase with
  | notify generation attempt => exact Nat.le_trans h hgrows.requested
  | fetchMax generation => exact ⟨Nat.le_trans h.1 hgrows.requested, hgrows.covered h.2⟩
  | loadRequested delivered | retryLoadRequested delivered =>
      exact fun hopen => Nat.le_trans (h (hgrows.closed hopen)) (hgrows.delivered hopen)
  | _ => trivial

theorem LoopPhase.Knows.mono {phase : LoopPhase} (hgrows : Grows s t)
    (h : phase.Knows s) : phase.Knows t := by
  cases phase with
  | notify generation attempt => exact Nat.le_trans h hgrows.requested
  | fetchMax generation => exact ⟨Nat.le_trans h.1 hgrows.requested, hgrows.covered h.2⟩
  | loadRequested delivered | recheckRequested delivered =>
      exact fun hopen => Nat.le_trans (h (hgrows.closed hopen)) (hgrows.delivered hopen)
  | _ => trivial

end Grows

namespace Notifications

variable {s s' t : Notifications} {index : Nat} {outcome : Bool}

/-- What the counters say, and whether the target was closed. -/
structure Counters (s : Notifications) : Prop where
  issued : ∀ g, 0 < g → g ≤ s.requested → .issued g ∈ s.events
  delivered_le : s.closed = false → s.delivered ≤ s.requested
  covered : s.closed = false → Covered s.events s.delivered
  closing : s.closing ≠ .idle → s.closed = true

/-- Somebody will look at a generation that is not delivered. -/
def Watched (s : Notifications) : Prop :=
  s.closed = false → s.spawnFailed = false → s.delivered < s.requested →
    (∃ p ∈ s.requesters, p.inside = true) ∨ ∃ p ∈ s.loops, p.examines s.retryRunning = true

/-- One thread has the flag while it is set. -/
def Claimed (s : Notifications) : Prop :=
  s.requesters.countP RequestPhase.holds + s.loops.countP LoopPhase.holds = s.retryRunning.toNat

structure Durable (s : Notifications) : Prop where
  counters : s.Counters
  requesters : ∀ p ∈ s.requesters, p.Knows s
  loops : ∀ p ∈ s.loops, p.Knows s
  claimed : s.Claimed
  watched : s.Watched

theorem Durable.init : ({} : Notifications).Durable where
  counters :=
    { issued := fun g hpos hle => absurd hle (Nat.not_le.mpr hpos)
      delivered_le := fun _ => Nat.le_refl 0
      covered := fun _ g hpos hle => absurd hle (Nat.not_le.mpr hpos)
      closing := fun hclosing => absurd rfl hclosing }
  requesters := by simp
  loops := by simp
  claimed := rfl
  watched := by simp [Watched]

/-! ## The counters -/

theorem Counters.issues (h : s.Counters) :
    Counters { s with
      requested := s.requested + 1
      events := .issued (s.requested + 1) :: s.events } where
  issued := by
    intro g hpos hle
    rcases Nat.lt_or_eq_of_le hle with hlt | rfl
    · exact List.mem_cons_of_mem _ (h.issued g hpos (Nat.le_of_lt_succ hlt))
    · exact List.mem_cons_self
  delivered_le := fun hopen => Nat.le_succ_of_le (h.delivered_le hopen)
  covered := h.covered
  closing := h.closing

theorem grows_notifies (s : Notifications) (outcome : Bool) : Grows s (s.notifies outcome) := by
  cases outcome with
  | false => exact Grows.refl s
  | true => exact ⟨Nat.le_refl _, fun _ => Or.inr, id, fun _ => Nat.le_refl _⟩

theorem Counters.notifies (h : s.Counters) (outcome : Bool) : (s.notifies outcome).Counters := by
  cases outcome with
  | false => exact h
  | true =>
      exact {
        issued := fun g hpos hle => List.mem_cons_of_mem _ (h.issued g hpos hle)
        delivered_le := h.delivered_le
        covered := fun hopen => (grows_notifies s true).covered (h.covered hopen)
        closing := h.closing }

/-- A notification covers what was requested before it. -/
theorem Counters.covered_notifies (h : s.Counters) {generation : Nat}
    (hle : generation ≤ s.requested) : Covered (s.notifies true).events generation :=
  fun g hpos hg => Or.inl (h.issued g hpos (Nat.le_trans hg hle))

theorem Counters.delivers (h : s.Counters) {generation : Nat} (hle : generation ≤ s.requested)
    (hcovered : Covered s.events generation) :
    Counters { s with delivered := max s.delivered generation } where
  issued := h.issued
  delivered_le := fun hopen => Nat.max_le.mpr ⟨h.delivered_le hopen, hle⟩
  covered := by
    intro hopen g hpos hg
    rcases Nat.le_total s.delivered generation with hmax | hmax
    · exact hcovered g hpos (by rwa [Nat.max_eq_right hmax] at hg)
    · exact h.covered hopen g hpos (by rwa [Nat.max_eq_left hmax] at hg)
  closing := h.closing

/-! ## One thread moves -/

/-- Whoever has the flag will look at every generation. -/
theorem Claimed.watched (h : s.Claimed) (hrunning : s.retryRunning = true) : s.Watched := by
  intro _ _ _
  have hcount : 0 < s.requesters.countP RequestPhase.holds + s.loops.countP LoopPhase.holds := by
    rw [h, hrunning]
    decide
  rcases Nat.add_pos_iff_pos_or_pos.mp hcount with hpos | hpos
  · obtain ⟨p, hp, hholds⟩ := List.countP_pos_iff.mp hpos
    refine Or.inl ⟨p, hp, ?_⟩
    cases p <;> first | rfl | cases hholds
  · obtain ⟨p, hp, hholds⟩ := List.countP_pos_iff.mp hpos
    refine Or.inr ⟨p, hp, ?_⟩
    cases p <;> first | rfl | cases hholds

theorem Claimed.running_of_pos (h : s.Claimed)
    (hpos : 0 < s.requesters.countP RequestPhase.holds + s.loops.countP LoopPhase.holds) :
    s.retryRunning = true := by
  cases hrunning : s.retryRunning with
  | true => rfl
  | false =>
      rw [h, hrunning] at hpos
      cases hpos

theorem Watched.of_delivered (hle : s.closed = false → s.requested ≤ s.delivered) : s.Watched :=
  fun hopen _ hlt => absurd (hle hopen) (Nat.not_le.mpr hlt)

/-- A requester whose generation is not requested yet is not needed. -/
theorem Watched.setRequester {p q : RequestPhase} (h : s.Watched)
    (hp : s.requesters[index]? = some p) (houtside : p.inside = false) :
    (s.setRequester index q).Watched := by
  intro hopen hspawn hlt
  rcases h hopen hspawn hlt with ⟨r, hr, hinside⟩ | hloop
  · obtain ⟨j, hj⟩ := List.getElem?_of_mem hr
    have hne : j ≠ index := by
      rintro rfl
      rw [hj] at hp
      obtain rfl := Option.some.inj hp
      rw [houtside] at hinside
      cases hinside
    have hset : (s.requesters.set index q)[j]? = some r :=
      (Table.getElem?_set_eq_some hp).mpr (Or.inr ⟨hne, hj⟩)
    exact Or.inl ⟨r, List.mem_of_getElem? hset, hinside⟩
  · exact Or.inr hloop

/-- A requester goes on to the phase `q`, in the shared state of `t`. -/
theorem Durable.requesterMoves {p q : RequestPhase} (h : s.Durable)
    (hp : s.requesters[index]? = some p) (hrequesters : t.requesters = s.requesters)
    (hloops : t.loops = s.loops) (hcounters : t.Counters) (hgrows : Grows s t)
    (hknows : q.Knows t)
    (hclaimed : q.holds.toNat + s.retryRunning.toNat = p.holds.toNat + t.retryRunning.toNat)
    (hwatched : q.inside = true ∨ t.retryRunning = true ∨ (t.setRequester index q).Watched) :
    (t.setRequester index q).Durable := by
  have hcount : (t.setRequester index q).Claimed := by
    have hset := Counting.countP_set_add RequestPhase.holds q hp
    have hold := h.claimed
    unfold Claimed at hold ⊢
    show (t.requesters.set index q).countP _ + t.loops.countP _ = t.retryRunning.toNat
    rw [hrequesters, hloops]
    omega
  refine ⟨{ hcounters with }, ?_, ?_, hcount, ?_⟩
  · intro r hr
    have hmem : r ∈ t.requesters.set index q := hr
    rw [hrequesters] at hmem
    rcases List.mem_or_eq_of_mem_set hmem with hold | rfl
    · exact (h.requesters r hold).mono (t := t.setRequester index q) { hgrows with }
    · exact hknows.mono (t := t.setRequester index r) { Grows.refl t with }
  · intro r hr
    have hmem : r ∈ t.loops := hr
    rw [hloops] at hmem
    exact (h.loops r hmem).mono (t := t.setRequester index q) { hgrows with }
  · rcases hwatched with hinside | hrunning | hwatched
    · intro _ _ _
      have hlt : index < t.requesters.length := by
        rw [hrequesters]
        exact (List.getElem?_eq_some_iff.mp hp).1
      exact Or.inl ⟨q, List.mem_set hlt q, hinside⟩
    · exact hcount.watched hrunning
    · exact hwatched

/-- A retry loop goes on to the phase `q`, in the shared state of `t`. -/
theorem Durable.loopMoves {p q : LoopPhase} (h : s.Durable)
    (hp : s.loops[index]? = some p) (hrequesters : t.requesters = s.requesters)
    (hloops : t.loops = s.loops) (hcounters : t.Counters) (hgrows : Grows s t)
    (hknows : q.Knows t)
    (hclaimed : q.holds.toNat + s.retryRunning.toNat = p.holds.toNat + t.retryRunning.toNat)
    (hwatched : q.examines t.retryRunning = true ∨ t.retryRunning = true ∨
      (t.setLoop index q).Watched) :
    (t.setLoop index q).Durable := by
  have hcount : (t.setLoop index q).Claimed := by
    have hset := Counting.countP_set_add LoopPhase.holds q hp
    have hold := h.claimed
    unfold Claimed at hold ⊢
    show t.requesters.countP _ + (t.loops.set index q).countP _ = t.retryRunning.toNat
    rw [hrequesters, hloops]
    omega
  refine ⟨{ hcounters with }, ?_, ?_, hcount, ?_⟩
  · intro r hr
    have hmem : r ∈ t.requesters := hr
    rw [hrequesters] at hmem
    exact (h.requesters r hmem).mono (t := t.setLoop index q) { hgrows with }
  · intro r hr
    have hmem : r ∈ t.loops.set index q := hr
    rw [hloops] at hmem
    rcases List.mem_or_eq_of_mem_set hmem with hold | rfl
    · exact (h.loops r hold).mono (t := t.setLoop index q) { hgrows with }
    · exact hknows.mono (t := t.setLoop index r) { Grows.refl t with }
  · rcases hwatched with hexamines | hrunning | hwatched
    · intro _ _ _
      have hlt : index < t.loops.length := by
        rw [hloops]
        exact (List.getElem?_eq_some_iff.mp hp).1
      exact Or.inr ⟨q, List.mem_set hlt q, hexamines⟩
    · exact hcount.watched hrunning
    · exact hwatched

theorem Durable.requesterReads {p q : RequestPhase} (h : s.Durable)
    (hp : s.requesters[index]? = some p) (hknows : q.Knows s) (hholds : q.holds = p.holds)
    (hwatched : q.inside = true ∨ (s.setRequester index q).Watched) :
    (s.setRequester index q).Durable :=
  h.requesterMoves hp rfl rfl h.counters (Grows.refl s) hknows (by rw [hholds])
    (hwatched.imp_right Or.inr)

theorem Durable.loopReads {p q : LoopPhase} (h : s.Durable)
    (hp : s.loops[index]? = some p) (hknows : q.Knows s) (hholds : q.holds = p.holds)
    (hwatched : q.examines s.retryRunning = true ∨ (s.setLoop index q).Watched) :
    (s.setLoop index q).Durable :=
  h.loopMoves hp rfl rfl h.counters (Grows.refl s) hknows (by rw [hholds])
    (hwatched.imp_right Or.inr)

/-! ## Every interleaving -/

theorem Durable.spawns (h : s.Durable) (hp : s.requesters[index]? = some .spawn) :
    ({ s with loops := s.loops ++ [LoopPhase.loadClosed] }.setRequester index .returned).Durable := by
  have hcount : ({ s with loops := s.loops ++ [LoopPhase.loadClosed] }.setRequester index
      .returned).Claimed := by
    have hset := Counting.countP_set_add RequestPhase.holds .returned hp
    have hold := h.claimed
    unfold Claimed at hold ⊢
    simp only [setRequester, List.countP_append] at hset ⊢
    simp only [RequestPhase.holds, Bool.toNat_true, Bool.toNat_false] at hset
    simp only [List.countP_singleton, LoopPhase.holds, if_true]
    omega
  refine ⟨{ h.counters with }, ?_, ?_, hcount, ?_⟩
  · intro r hr
    rcases List.mem_or_eq_of_mem_set hr with hold | rfl
    · exact (h.requesters r hold).mono { Grows.refl s with }
    · trivial
  · intro r hr
    rcases List.mem_append.mp hr with hold | hnew
    · exact (h.loops r hold).mono { Grows.refl s with }
    · obtain rfl := List.mem_singleton.mp hnew
      trivial
  · intro _ _ _
    exact Or.inr ⟨.loadClosed, List.mem_append_right _ List.mem_cons_self, rfl⟩

theorem Durable.requestStep {p : RequestPhase} (h : s.Durable)
    (hp : s.requesters[index]? = some p) (hstep : s.requestStep index outcome p = some s') :
    s'.Durable := by
  have hknown := h.requesters p (List.mem_of_getElem? hp)
  cases p with
  | loadClosed =>
      obtain rfl := Option.some.inj hstep
      split
      · exact h.requesterReads hp trivial rfl (Or.inr (h.watched.setRequester hp rfl))
      · exact h.requesterReads hp trivial rfl (Or.inr (h.watched.setRequester hp rfl))
  | fetchAdd =>
      obtain rfl := Option.some.inj hstep
      exact h.requesterMoves hp rfl rfl h.counters.issues
        ⟨Nat.le_succ _, fun _ => id, id, fun _ => Nat.le_refl _⟩ (Nat.le_refl (s.requested + 1))
        rfl (Or.inl rfl)
  | notify generation attempt =>
      obtain rfl := Option.some.inj hstep
      cases outcome with
      | true =>
          exact h.requesterMoves hp rfl rfl (h.counters.notifies true) (grows_notifies s true)
            ⟨hknown, h.counters.covered_notifies hknown⟩ rfl (Or.inl rfl)
      | false =>
          simp only [Bool.false_eq_true, if_false]
          split
          · exact h.requesterReads hp hknown rfl (Or.inl rfl)
          · exact h.requesterReads hp trivial rfl (Or.inl rfl)
  | fetchMax generation =>
      obtain rfl := Option.some.inj hstep
      exact h.requesterMoves hp rfl rfl (h.counters.delivers hknown.1 hknown.2)
        ⟨Nat.le_refl _, fun _ => id, id, fun _ => Nat.le_max_left _ _⟩ trivial rfl (Or.inl rfl)
  | loadDelivered =>
      obtain rfl := Option.some.inj hstep
      exact h.requesterReads hp (fun _ => Nat.le_refl _) rfl (Or.inl rfl)
  | loadRequested delivered =>
      obtain rfl := Option.some.inj hstep
      split
      next => exact h.requesterReads hp trivial rfl (Or.inl rfl)
      next hge =>
        refine h.requesterReads hp trivial rfl (Or.inr (.of_delivered fun hopen => ?_))
        exact Nat.le_trans (Nat.not_lt.mp hge) (hknown hopen)
  | retryLoadClosed =>
      obtain rfl := Option.some.inj hstep
      split
      next hclosed =>
        refine h.requesterReads hp trivial rfl (Or.inr (.of_delivered fun hopen => ?_))
        exact absurd (hclosed.symm.trans hopen) (by decide)
      next => exact h.requesterReads hp trivial rfl (Or.inl rfl)
  | retryLoadDelivered =>
      obtain rfl := Option.some.inj hstep
      exact h.requesterReads hp (fun _ => Nat.le_refl _) rfl (Or.inl rfl)
  | retryLoadRequested delivered =>
      obtain rfl := Option.some.inj hstep
      split
      next => exact h.requesterReads hp trivial rfl (Or.inl rfl)
      next hge =>
        refine h.requesterReads hp trivial rfl (Or.inr (.of_delivered fun hopen => ?_))
        exact Nat.le_trans (Nat.not_lt.mp hge) (hknown hopen)
  | swapRunning =>
      obtain rfl := Option.some.inj hstep
      split
      next hrunning =>
        exact h.requesterMoves hp rfl rfl { h.counters with } { Grows.refl s with } trivial
          (by rw [hrunning]; rfl) (Or.inr (Or.inl rfl))
      next hfree =>
        exact h.requesterMoves hp rfl rfl { h.counters with } { Grows.refl s with } trivial
          (by rw [Bool.eq_false_iff.mpr hfree]; rfl) (Or.inl rfl)
  | spawn =>
      cases outcome with
      | true =>
          obtain rfl := Option.some.inj hstep
          exact h.spawns hp
      | false =>
          obtain rfl := Option.some.inj hstep
          exact h.requesterReads hp trivial rfl (Or.inl rfl)
  | storeNotRunning =>
      obtain rfl := Option.some.inj hstep
      have hrunning : s.retryRunning = true := h.claimed.running_of_pos
        (Nat.add_pos_left (List.countP_pos_iff.mpr ⟨_, List.mem_of_getElem? hp, rfl⟩) _)
      exact h.requesterMoves hp rfl rfl { h.counters with } { Grows.refl s with } trivial
        (by rw [hrunning]; rfl) (Or.inr (Or.inr fun _ hspawn _ => nomatch hspawn))
  | returned => cases hstep
  | panicked => cases hstep

theorem Durable.loopStep {p : LoopPhase} (h : s.Durable)
    (hp : s.loops[index]? = some p) (hstep : s.loopStep index outcome p = some s') :
    s'.Durable := by
  have hknown := h.loops p (List.mem_of_getElem? hp)
  cases p with
  | loadClosed =>
      obtain rfl := Option.some.inj hstep
      split
      · exact h.loopReads hp trivial rfl (Or.inl rfl)
      · exact h.loopReads hp trivial rfl (Or.inl rfl)
  | loadDelivered =>
      obtain rfl := Option.some.inj hstep
      exact h.loopReads hp (fun _ => Nat.le_refl _) rfl (Or.inl rfl)
  | loadRequested delivered =>
      obtain rfl := Option.some.inj hstep
      split
      · exact h.loopReads hp trivial rfl (Or.inl rfl)
      · exact h.loopReads hp trivial rfl (Or.inl rfl)
  | loadGeneration =>
      obtain rfl := Option.some.inj hstep
      exact h.loopReads hp (Nat.le_refl s.requested) rfl (Or.inl rfl)
  | notify generation attempt =>
      obtain rfl := Option.some.inj hstep
      cases outcome with
      | true =>
          exact h.loopMoves hp rfl rfl (h.counters.notifies true) (grows_notifies s true)
            ⟨hknown, h.counters.covered_notifies hknown⟩ rfl (Or.inl rfl)
      | false =>
          simp only [Bool.false_eq_true, if_false]
          split
          · exact h.loopReads hp hknown rfl (Or.inl rfl)
          · exact h.loopReads hp trivial rfl (Or.inl rfl)
  | fetchMax generation =>
      obtain rfl := Option.some.inj hstep
      exact h.loopMoves hp rfl rfl (h.counters.delivers hknown.1 hknown.2)
        ⟨Nat.le_refl _, fun _ => id, id, fun _ => Nat.le_max_left _ _⟩ trivial rfl (Or.inl rfl)
  | storeNotRunning =>
      obtain rfl := Option.some.inj hstep
      have hrunning : s.retryRunning = true := h.claimed.running_of_pos
        (Nat.add_pos_right _ (List.countP_pos_iff.mpr ⟨_, List.mem_of_getElem? hp, rfl⟩))
      exact h.loopMoves hp rfl rfl { h.counters with } { Grows.refl s with } trivial
        (by rw [hrunning]; rfl) (Or.inl rfl)
  | recheckClosed =>
      obtain rfl := Option.some.inj hstep
      split
      next hclosed =>
        refine h.loopReads hp trivial rfl (Or.inr (.of_delivered fun hopen => ?_))
        exact absurd (hclosed.symm.trans hopen) (by decide)
      next => exact h.loopReads hp trivial rfl (Or.inl rfl)
  | recheckDelivered =>
      obtain rfl := Option.some.inj hstep
      exact h.loopReads hp (fun _ => Nat.le_refl _) rfl (Or.inl rfl)
  | recheckRequested delivered =>
      obtain rfl := Option.some.inj hstep
      split
      next =>
        -- The flag is free for the exchange, or whoever has it looks at the generations.
        refine h.loopMoves hp rfl rfl h.counters (Grows.refl s) trivial rfl ?_
        cases hrunning : s.retryRunning with
        | true => exact Or.inr (Or.inl rfl)
        | false => exact Or.inl rfl
      next hge =>
        refine h.loopReads hp trivial rfl (Or.inr (.of_delivered fun hopen => ?_))
        exact Nat.le_trans (Nat.not_lt.mp hge) (hknown hopen)
  | exchange =>
      obtain rfl := Option.some.inj hstep
      split
      next hrunning =>
        exact h.loopMoves hp rfl rfl { h.counters with } { Grows.refl s with } trivial
          (by rw [hrunning]; rfl) (Or.inr (Or.inl rfl))
      next hfree =>
        exact h.loopMoves hp rfl rfl { h.counters with } { Grows.refl s with } trivial
          (by rw [Bool.eq_false_iff.mpr hfree]; rfl) (Or.inl rfl)
  | exited => cases hstep

/-- Nothing is known of the counters of a closed target. -/
theorem Durable.closes (h : s.Durable) {closed : Bool} (hclosed : closed = true) (delivered : Nat)
    (closing : ClosePhase) : Durable { s with closed, delivered, closing } := by
  subst hclosed
  have hgrows : Grows s { s with closed := true, delivered, closing } :=
    ⟨Nat.le_refl _, fun _ => id, nofun, nofun⟩
  exact {
    counters :=
      { h.counters with
        delivered_le := nofun
        covered := nofun
        closing := fun _ => rfl }
    requesters := fun p hp => (h.requesters p hp).mono hgrows
    loops := fun p hp => (h.loops p hp).mono hgrows
    claimed := h.claimed
    watched := nofun }

theorem Durable.closeStep (h : s.Durable) : (s.closeStep s.closing).Durable := by
  cases hclosing : s.closing with
  | idle => exact h.closes rfl s.delivered .loadRequested
  | loadRequested =>
      have hclosed : s.closed = true := h.counters.closing (by simp [hclosing])
      exact h.closes hclosed s.delivered (.storeDelivered s.requested)
  | storeDelivered requested =>
      have hclosed : s.closed = true := h.counters.closing (by simp [hclosing])
      exact h.closes hclosed requested .idle

theorem Durable.step {a : NotifyAction} (h : s.Durable) (hstep : s.step a = some s') :
    s'.Durable := by
  cases a with
  | request =>
      obtain rfl := Option.some.inj hstep
      refine ⟨{ h.counters with }, ?_, ?_, ?_, ?_⟩
      · intro p hp
        rcases List.mem_append.mp hp with hold | hnew
        · exact (h.requesters p hold).mono { Grows.refl s with }
        · obtain rfl := List.mem_singleton.mp hnew
          trivial
      · exact fun p hp => (h.loops p hp).mono { Grows.refl s with }
      · have hold := h.claimed
        unfold Claimed at hold ⊢
        simpa [RequestPhase.holds] using hold
      · intro hopen hspawn hlt
        rcases h.watched hopen hspawn hlt with ⟨p, hp, hinside⟩ | hloop
        · exact Or.inl ⟨p, List.mem_append_left _ hp, hinside⟩
        · exact Or.inr hloop
  | requester index outcome =>
      obtain ⟨p, hp, hp'⟩ := Option.bind_eq_some_iff.mp hstep
      exact h.requestStep hp hp'
  | loop index outcome =>
      obtain ⟨p, hp, hp'⟩ := Option.bind_eq_some_iff.mp hstep
      exact h.loopStep hp hp'
  | commitClosed =>
      obtain rfl := Option.some.inj hstep
      exact h.closes rfl s.delivered s.closing
  | close =>
      obtain rfl := Option.some.inj hstep
      exact h.closeStep

theorem durable_of_reachable (hreach : s.Reachable) : s.Durable :=
  hreach.invariant Durable .init fun _ _ _ h _ hstep => h.step hstep

/-- A loop that is going to look at the generations does not end before the load of
`notification_requested` that follows its release of the flag. -/
theorem examines_of_loopStep {p : LoopPhase} (hopen : s.closed = false)
    (hp : s.loops[index]? = some p) (hexamines : p.examines s.retryRunning = true)
    (hstep : s.step (.loop index outcome) = some s') :
    (∃ delivered, p = .recheckRequested delivered) ∨
      ∃ q, s'.loops[index]? = some q ∧ q.examines s'.retryRunning = true := by
  have heq : s.loopStep index outcome p = some s' := by
    rw [step, hp] at hstep
    exact hstep
  cases p with
  | recheckRequested delivered => exact Or.inl ⟨delivered, rfl⟩
  | exited => cases hexamines
  | exchange =>
      have hfree : s.retryRunning = false := by simpa [LoopPhase.examines] using hexamines
      obtain rfl := Option.some.inj heq
      exact Or.inr ⟨_, Table.getElem?_set_self hp, by rw [hfree]; rfl⟩
  | recheckClosed | loadClosed =>
      obtain rfl := Option.some.inj heq
      exact Or.inr ⟨_, Table.getElem?_set_self hp, by rw [hopen]; rfl⟩
  | notify generation attempt =>
      obtain rfl := Option.some.inj heq
      have hp' : (s.notifies outcome).loops[index]? = some (.notify generation attempt) := by
        cases outcome <;> exact hp
      refine Or.inr ⟨_, Table.getElem?_set_self hp', ?_⟩
      split
      · rfl
      · split <;> rfl
  | loadRequested delivered =>
      obtain rfl := Option.some.inj heq
      refine Or.inr ⟨_, Table.getElem?_set_self hp, ?_⟩
      split <;> rfl
  | loadDelivered | loadGeneration | fetchMax generation | storeNotRunning | recheckDelivered =>
      obtain rfl := Option.some.inj heq
      exact Or.inr ⟨_, Table.getElem?_set_self hp, rfl⟩

/-! ## A thread that cannot be started -/

/-- A requester panics exactly when it notes that no thread was started. -/
theorem requestStep_panicked {p : RequestPhase} (hstep : s.requestStep index outcome p = some s') :
    ∃ q, s'.requesters = s.requesters.set index q ∧
      (q = .panicked ∧ s'.spawnFailed = true ∨
        q ≠ .panicked ∧ s'.spawnFailed = s.spawnFailed) := by
  cases p with
  | notify generation attempt =>
      cases outcome with
      | true =>
          obtain rfl := Option.some.inj hstep
          exact ⟨_, rfl, Or.inr ⟨by simp, rfl⟩⟩
      | false =>
          obtain rfl := Option.some.inj hstep
          refine ⟨_, rfl, Or.inr ⟨?_, rfl⟩⟩
          simp only [Bool.false_eq_true, if_false]
          split <;> simp
  | spawn =>
      cases outcome with
      | true =>
          obtain rfl := Option.some.inj hstep
          exact ⟨_, rfl, Or.inr ⟨by simp, rfl⟩⟩
      | false =>
          obtain rfl := Option.some.inj hstep
          exact ⟨_, rfl, Or.inr ⟨by simp, rfl⟩⟩
  | storeNotRunning =>
      obtain rfl := Option.some.inj hstep
      exact ⟨_, rfl, Or.inl ⟨rfl, rfl⟩⟩
  | loadClosed | loadRequested delivered | retryLoadClosed | retryLoadRequested delivered
  | swapRunning =>
      obtain rfl := Option.some.inj hstep
      refine ⟨_, rfl, Or.inr ⟨?_, rfl⟩⟩
      split <;> simp
  | fetchAdd | fetchMax generation | loadDelivered | retryLoadDelivered =>
      obtain rfl := Option.some.inj hstep
      exact ⟨_, rfl, Or.inr ⟨by simp, rfl⟩⟩
  | returned | panicked => cases hstep

theorem loopStep_frame {p : LoopPhase} (hstep : s.loopStep index outcome p = some s') :
    s'.requesters = s.requesters ∧ s'.spawnFailed = s.spawnFailed := by
  cases p with
  | exited => cases hstep
  | notify generation attempt =>
      obtain rfl := Option.some.inj hstep
      cases outcome <;> exact ⟨rfl, rfl⟩
  | _ =>
      obtain rfl := Option.some.inj hstep
      exact ⟨rfl, rfl⟩

theorem panicked_mem_set {xs : List RequestPhase} {p q : RequestPhase} (hp : xs[index]? = some p)
    (hne : p ≠ .panicked) :
    .panicked ∈ xs.set index q ↔ q = .panicked ∨ .panicked ∈ xs := by
  constructor
  · intro hmem
    exact (List.mem_or_eq_of_mem_set hmem).symm.imp_left Eq.symm
  · rintro (rfl | hmem)
    · exact List.mem_of_getElem? (Table.getElem?_set_self hp)
    · obtain ⟨i, hi⟩ := List.getElem?_of_mem hmem
      refine List.mem_of_getElem? ((Table.getElem?_set_eq_some hp).mpr (Or.inr ⟨?_, hi⟩))
      rintro rfl
      exact hne (Option.some.inj (hp.symm.trans hi))

theorem panicked_of_reachable (hreach : s.Reachable) :
    .panicked ∈ s.requesters ↔ s.spawnFailed = true := by
  refine hreach.invariant (fun s => .panicked ∈ s.requesters ↔ s.spawnFailed = true) (by simp) ?_
  intro s a s' h _ hstep
  cases a with
  | request =>
      obtain rfl := Option.some.inj hstep
      simpa using h
  | requester index outcome =>
      obtain ⟨p, hp, hp'⟩ := Option.bind_eq_some_iff.mp hstep
      have hne : p ≠ .panicked := by
        rintro rfl
        cases hp'
      obtain ⟨q, hrequesters, ⟨rfl, hfailed⟩ | ⟨hq, hfailed⟩⟩ := requestStep_panicked hp'
      · simp [hrequesters, panicked_mem_set hp hne, hfailed]
      · simp [hrequesters, panicked_mem_set hp hne, hq, hfailed, h]
  | loop index outcome =>
      obtain ⟨p, -, hp'⟩ := Option.bind_eq_some_iff.mp hstep
      obtain ⟨hrequesters, hfailed⟩ := loopStep_frame hp'
      rw [hrequesters, hfailed]
      exact h
  | commitClosed =>
      obtain rfl := Option.some.inj hstep
      exact h
  | close =>
      obtain rfl := Option.some.inj hstep
      cases hclosing : s.closing <;> exact h

/-- In every interleaving, and however the calls of the notifier end: while the target is not
closed, a notification has succeeded after each generation up to `notification_delivered` was
requested; a later one that is requested has a requester inside its call or a retry loop that
will look at it, unless a retry thread could not be started; and at most one retry loop is
active.  Whoever cannot start a thread panics, and leaves the flag to the next request: while
it is set, somebody has it. -/
theorem durable_notification_of_reachable (s : Notifications) (hreach : s.Reachable) :
    (s.closed = false →
      ∀ g, 0 < g → g ≤ s.delivered → NotifiedAfter g s.events) ∧
      (s.closed = false → s.spawnFailed = false → ∀ g, s.delivered < g → g ≤ s.requested →
        (∃ p ∈ s.requesters, p.inside = true) ∨
          ∃ p ∈ s.loops, p.examines s.retryRunning = true) ∧
      (∀ index outcome p s', s.closed = false → s.loops[index]? = some p →
        p.examines s.retryRunning = true → s.step (.loop index outcome) = some s' →
          (∃ delivered, p = .recheckRequested delivered) ∨
            ∃ q, s'.loops[index]? = some q ∧ q.examines s'.retryRunning = true) ∧
      s.loops.countP LoopPhase.holds ≤ 1 ∧
      (.panicked ∈ s.requesters ↔ s.spawnFailed = true) ∧
      (s.retryRunning = true →
        (∃ p ∈ s.requesters, p.holds = true) ∨ ∃ p ∈ s.loops, p.holds = true) := by
  have h := durable_of_reachable hreach
  refine ⟨h.counters.covered, ?_, ?_, ?_, panicked_of_reachable hreach, ?_⟩
  · intro hopen hspawn g hlt hle
    exact h.watched hopen hspawn (Nat.lt_of_lt_of_le hlt hle)
  · intro index outcome p s' hopen hp hexamines hstep
    exact examines_of_loopStep hopen hp hexamines hstep
  · have hclaimed := h.claimed
    have hle := Bool.toNat_le s.retryRunning
    unfold Claimed at hclaimed
    omega
  · intro hrunning
    have hclaimed := h.claimed
    rw [Claimed, hrunning] at hclaimed
    rcases Nat.eq_zero_or_pos (s.requesters.countP RequestPhase.holds) with hnone | hpos
    · exact Or.inr (List.countP_pos_iff.mp (by simp [hnone] at hclaimed; omega))
    · exact Or.inl (List.countP_pos_iff.mp hpos)

/-- A request fails twice and leaves its generation to a retry loop; the loop is between its
load of the generation and the notification when a second request succeeds. -/
theorem durable_notification_retried :
    ∃ s : Notifications, s.Reachable ∧
      (s.closed = false ∧ s.delivered = 2 ∧ s.loops = [.notify 1 0]) ∧
      NotifiedAfter 1 s.events ∧ s.loops.countP LoopPhase.holds ≤ 1 := by
  obtain ⟨s, hreach, hp⟩ := Transition.Reachable.exists_of_run step (fun _ _ => True) {}
    ([.request] ++ List.replicate 8 (.requester 0 false) ++ [.requester 0 true] ++
      List.replicate 4 (.loop 0 false) ++ [.request] ++ List.replicate 4 (.requester 1 true))
    (fun s => decide (s.closed = false ∧ s.delivered = 2 ∧ s.loops = [.notify 1 0]))
    (by simp) (by decide)
  have hstate := of_decide_eq_true hp
  obtain ⟨hdelivered, -, -, hone, -⟩ := durable_notification_of_reachable s hreach
  exact ⟨s, hreach, hstate, hdelivered hstate.1 1 (by decide) (by rw [hstate.2.1]; decide), hone⟩

/-- `close` counts the requests as delivered that no notification has followed.  And when no
thread can be started, the request panics and leaves its generation to nobody. -/
theorem delivered_by_close :
    (∃ s : Notifications, s.Reachable ∧ 1 ≤ s.delivered ∧ ¬ NotifiedAfter 1 s.events) ∧
      ∃ s : Notifications, s.Reachable ∧ s.closed = false ∧ s.delivered < s.requested ∧
        s.requesters = [.panicked] ∧ s.loops = [] := by
  constructor
  · obtain ⟨s, hreach, hp⟩ := Transition.Reachable.exists_of_run step (fun _ _ => True) {}
      [.request, .requester 0 true, .requester 0 true, .close, .close, .close]
      (fun s => decide (1 ≤ s.delivered ∧ ¬ NotifiedAfter 1 s.events)) (by simp) (by decide)
    exact ⟨s, hreach, of_decide_eq_true hp⟩
  · obtain ⟨s, hreach, hp⟩ := Transition.Reachable.exists_of_run step (fun _ _ => True) {}
      (.request :: List.replicate 10 (.requester 0 false))
      (fun s => decide (s.closed = false ∧ s.delivered < s.requested ∧
        s.requesters = [.panicked] ∧ s.loops = [])) (by simp) (by decide)
    exact ⟨s, hreach, of_decide_eq_true hp⟩

end Notifications

end Runite.Runtime
