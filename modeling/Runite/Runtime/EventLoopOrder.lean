import Runite.Runtime.EventLoops

/-!
# The order of the closures

The closures of each kind are started in the order in which they were queued, and a
macrotask only when no microtask is left.  Every loop starts them in this one order,
and stops when the queues are empty, or when the panic of a payload's destructor leaves
the firewall.
-/

namespace Runite.Runtime

variable {κ σ φ : Type}

/-! ## What was queued and started -/

namespace Event

/-- The closures of the kind that were queued, in order. -/
def queuedOf (kind : QueueKind) : List (Event κ) → List κ
  | [] => []
  | .queued k task :: rest => if k = kind then task :: queuedOf kind rest else queuedOf kind rest
  | .started _ _ :: rest => queuedOf kind rest

/-- The closures of the kind that were started, in order. -/
def startedOf (kind : QueueKind) : List (Event κ) → List κ
  | [] => []
  | .started k task :: rest => if k = kind then task :: startedOf kind rest else startedOf kind rest
  | .queued _ _ :: rest => startedOf kind rest

/-- The closures that were queued and have not been started. -/
def waiting (kind : QueueKind) (events : List (Event κ)) : List κ :=
  (queuedOf kind events).drop (startedOf kind events).length

/-- A closure is started when it is the first of its kind that waits, a macrotask only
when no microtask waits. -/
def Allowed (before : List (Event κ)) : Event κ → Prop
  | .queued _ _ => True
  | .started kind task =>
      (waiting kind before).head? = some task ∧ (kind = .macrotask → waiting .microtask before = [])

variable {kind k : QueueKind} {task : κ} {events : List (Event κ)}

theorem queuedOf_append (kind : QueueKind) (xs ys : List (Event κ)) :
    queuedOf kind (xs ++ ys) = queuedOf kind xs ++ queuedOf kind ys := by
  induction xs with
  | nil => rfl
  | cons x xs ih =>
      cases x with
      | started k task => exact ih
      | queued k task =>
          rw [List.cons_append, queuedOf, queuedOf, ih]
          split <;> rfl

theorem startedOf_append (kind : QueueKind) (xs ys : List (Event κ)) :
    startedOf kind (xs ++ ys) = startedOf kind xs ++ startedOf kind ys := by
  induction xs with
  | nil => rfl
  | cons x xs ih =>
      cases x with
      | queued k task => exact ih
      | started k task =>
          rw [List.cons_append, startedOf, startedOf, ih]
          split <;> rfl

/-- The closures of a kind are started in the order in which they were queued. -/
theorem startedOf_isPrefix (kind : QueueKind) (h : Chronicle Allowed events) :
    startedOf kind events <+: queuedOf kind events := by
  induction h with
  | nil => exact List.prefix_rfl
  | snoc h hok ih =>
      rename_i events event
      rw [startedOf_append, queuedOf_append]
      cases event with
      | queued k task =>
          show startedOf kind events ++ [] <+: _
          rw [List.append_nil]
          exact ih.trans (List.prefix_append ..)
      | started k task =>
          by_cases hk : k = kind
          · subst hk
            obtain ⟨rest, hrest⟩ := ih
            have hhead := hok.1
            rw [waiting, ← hrest, List.drop_left] at hhead
            obtain ⟨tail, rfl⟩ := List.head?_eq_some_iff.mp hhead
            refine ⟨tail, ?_⟩
            simp [startedOf, queuedOf, ← hrest]
          · simpa [startedOf, queuedOf, hk] using ih

theorem startedOf_append_waiting (kind : QueueKind) (h : Chronicle Allowed events) :
    startedOf kind events ++ waiting kind events = queuedOf kind events := by
  obtain ⟨rest, hrest⟩ := startedOf_isPrefix kind h
  rw [waiting, ← hrest, List.drop_left]

theorem waiting_queued (h : Chronicle Allowed events) :
    waiting kind (events ++ [.queued k task]) =
      waiting kind events ++ if k = kind then [task] else [] := by
  have hle := (startedOf_isPrefix kind h).length_le
  unfold waiting
  rw [startedOf_append, queuedOf_append]
  show List.drop (startedOf kind events ++ []).length _ = _
  rw [List.append_nil, List.drop_append_of_le_length hle]
  rfl

theorem waiting_started :
    waiting kind (events ++ [.started k task]) =
      if k = kind then (waiting kind events).tail else waiting kind events := by
  unfold waiting
  rw [startedOf_append, queuedOf_append]
  show List.drop _ (queuedOf kind events ++ []) = _
  rw [List.append_nil, startedOf]
  split
  · rw [List.length_append, List.tail_drop]
    rfl
  · rw [startedOf, List.append_nil]

end Event

/-! ## The queues of the thread -/

namespace LoopThread

open Event

variable {t t' : LoopThread κ σ} {kind : QueueKind} {task : κ}

/-- The queues hold what waits, and every closure was started in its turn. -/
structure Recorded (t : LoopThread κ σ) : Prop where
  events : Chronicle Allowed t.events
  microtasks : t.localMicrotasks = waiting .microtask t.events
  macrotasks : t.localMacrotasks = waiting .macrotask t.events
  remote : t.remoteMacrotasks = []

def Idle (t : LoopThread κ σ) : Prop := t.localMicrotasks = [] ∧ t.localMacrotasks = []

theorem Recorded.queue (h : t.Recorded) (kind : QueueKind) (task : κ) :
    (t.queue kind task).Recorded := by
  cases kind with
  | microtask =>
      refine ⟨.snoc h.events trivial, ?_, ?_, h.remote⟩
      · show t.localMicrotasks ++ [task] = _
        rw [h.microtasks, LoopThread.queue, waiting_queued h.events]
        rfl
      · show t.localMacrotasks = _
        rw [h.macrotasks, LoopThread.queue, waiting_queued h.events]
        exact (List.append_nil _).symm
  | macrotask =>
      refine ⟨.snoc h.events trivial, ?_, ?_, h.remote⟩
      · show t.localMicrotasks = _
        rw [h.microtasks, LoopThread.queue, waiting_queued h.events]
        exact (List.append_nil _).symm
      · show t.localMacrotasks ++ [task] = _
        rw [h.macrotasks, LoopThread.queue, waiting_queued h.events]
        rfl

theorem Recorded.queueAll (h : t.Recorded) (tasks : List (QueueKind × κ)) :
    (t.queueAll tasks).Recorded := by
  induction tasks generalizing t with
  | nil => exact h
  | cons task tasks ih => exact ih (h.queue task.1 task.2)

theorem Recorded.start (state : σ) (tasks : List (QueueKind × κ)) :
    (start state tasks).Recorded :=
  Recorded.queueAll ⟨.nil, rfl, rfl, rfl⟩ tasks

theorem Recorded.runGuarded (t : LoopThread κ σ) (effects : Effects κ σ)
    (h : Recorded { t with events := t.events ++ [.started kind task] }) :
    (t.runGuarded effects kind task).Recorded := by
  have hstarted : Recorded { t with
      state := effects.state, events := t.events ++ [.started kind task] } :=
    ⟨h.events, h.microtasks, h.macrotasks, h.remote⟩
  have hqueued := hstarted.queueAll effects.queued
  unfold LoopThread.runGuarded
  dsimp only
  split
  · exact hqueued
  · exact ⟨hqueued.events, hqueued.microtasks, hqueued.macrotasks, hqueued.remote⟩

theorem next_eq_some {p : Program κ σ} (hnext : t.next p = some t') :
    t.unwinding = false ∧ ∃ front, t.front = some front ∧
      front.2.2.runGuarded (p front.2.1 front.2.2.state) front.1 front.2.1 = t' := by
  unfold LoopThread.next at hnext
  split at hnext
  · cases hnext
  next hrunning => exact ⟨Bool.eq_false_iff.mpr hrunning, Option.map_eq_some_iff.mp hnext⟩

theorem Recorded.next {p : Program κ σ} (h : t.Recorded) (hnext : t.next p = some t') :
    t'.Recorded := by
  obtain ⟨-, ⟨kind, task, u⟩, hfront, rfl⟩ := next_eq_some hnext
  unfold LoopThread.front popMicrotask popMacrotask at hfront
  cases hmicro : t.localMicrotasks with
  | cons task rest =>
      rw [hmicro] at hfront
      cases hfront
      have hwaiting : waiting .microtask t.events = task :: rest := h.microtasks.symm.trans hmicro
      refine .runGuarded { t with localMicrotasks := rest } _
        ⟨.snoc h.events ⟨?_, nofun⟩, ?_, ?_, h.remote⟩
      · rw [hwaiting]
        rfl
      · show rest = _
        rw [waiting_started, if_pos rfl, hwaiting]
        rfl
      · show t.localMacrotasks = _
        rw [waiting_started, if_neg nofun]
        exact h.macrotasks
  | nil =>
      rw [hmicro] at hfront
      cases hlater : t.localMacrotasks with
      | nil =>
          rw [hlater] at hfront
          cases hfront
      | cons task rest =>
          rw [hlater] at hfront
          cases hfront
          have hwaiting : waiting .macrotask t.events = task :: rest := h.macrotasks.symm.trans hlater
          have hempty : waiting .microtask t.events = [] := h.microtasks.symm.trans hmicro
          refine .runGuarded { t with localMicrotasks := [], localMacrotasks := rest } _
            ⟨.snoc h.events ⟨?_, fun _ => hempty⟩, ?_, ?_, h.remote⟩
          · rw [hwaiting]
            rfl
          · show [] = _
            rw [waiting_started, if_neg nofun, hempty]
          · show rest = _
            rw [waiting_started, if_pos rfl, hwaiting]
            rfl

theorem Recorded.iterate {p : Program κ σ} {n : Nat} (h : t.Recorded)
    (hrun : Stuttering.iterate (LoopThread.next · p) n t = some t') : t'.Recorded := by
  induction n generalizing t with
  | zero =>
      cases hrun
      exact h
  | succ n ih =>
      obtain ⟨u, hu, hrest⟩ := Option.bind_eq_some_iff.mp hrun
      exact ih (h.next hu) hrest

/-- For each kind, what was started and then what is still queued is what was queued. -/
theorem Recorded.started_append (h : t.Recorded) :
    startedOf .microtask t.events ++ t.localMicrotasks = queuedOf .microtask t.events ∧
      startedOf .macrotask t.events ++ t.localMacrotasks = queuedOf .macrotask t.events := by
  rw [h.microtasks, h.macrotasks]
  exact ⟨startedOf_append_waiting _ h.events, startedOf_append_waiting _ h.events⟩

theorem front_eq_none_iff : t.front = none ↔ t.Idle := by
  unfold LoopThread.front popMicrotask popMacrotask Idle
  cases t.localMicrotasks with
  | cons task rest => simp
  | nil => cases t.localMacrotasks <;> simp

theorem next_eq_none_iff {p : Program κ σ} :
    t.next p = none ↔ t.unwinding = true ∨ t.Idle := by
  unfold LoopThread.next
  cases t.unwinding with
  | true => simp
  | false => simp [front_eq_none_iff]

theorem unwinding_queueAll (t : LoopThread κ σ) (tasks : List (QueueKind × κ)) :
    (t.queueAll tasks).unwinding = t.unwinding := by
  induction tasks generalizing t with
  | nil => rfl
  | cons task tasks ih =>
      refine (ih (t.queue task.1 task.2)).trans ?_
      unfold LoopThread.queue
      split <;> rfl

theorem unwinding_front (hfront : t.front = some (kind, task, t')) :
    t'.unwinding = t.unwinding := by
  unfold LoopThread.front popMicrotask popMacrotask at hfront
  cases hmicro : t.localMicrotasks with
  | cons task rest =>
      rw [hmicro] at hfront
      cases hfront
      rfl
  | nil =>
      rw [hmicro] at hfront
      cases hlater : t.localMacrotasks with
      | nil =>
          rw [hlater] at hfront
          cases hfront
      | cons task rest =>
          rw [hlater] at hfront
          cases hfront
          rfl

/-- A panic leaves the firewall from the drop of a payload only. -/
theorem unwinding_runGuarded (effects : Effects κ σ) (kind : QueueKind) (task : κ)
    (hrunning : t.unwinding = false) : (t.runGuarded effects kind task).unwinding = effects.unwinds := by
  unfold LoopThread.runGuarded Effects.unwinds
  dsimp only
  cases effects.panic with
  | none => exact (unwinding_queueAll ..).trans hrunning
  | some payload => rfl

theorem idle_queueAll (t : LoopThread κ σ) (tasks : List (QueueKind × κ)) :
    (t.queueAll tasks).Idle ↔ t.Idle ∧ tasks = [] := by
  induction tasks generalizing t with
  | nil => exact (and_iff_left rfl).symm
  | cons task tasks ih =>
      have hqueued : ¬ (t.queue task.1 task.2).Idle := by
        unfold LoopThread.queue Idle
        split <;> simp
      refine (ih (t.queue task.1 task.2)).trans ?_
      simp [hqueued]

theorem idle_runGuarded (t : LoopThread κ σ) (effects : Effects κ σ) (kind : QueueKind)
    (task : κ) : (t.runGuarded effects kind task).Idle ↔ t.Idle ∧ effects.queued = [] := by
  refine Iff.trans ?_ (idle_queueAll { t with
    state := effects.state, events := t.events ++ [.started kind task] } effects.queued)
  unfold LoopThread.runGuarded
  dsimp only
  split <;> rfl

theorem drainRemoteTasks_eq (h : t.remoteMacrotasks = []) : t.drainRemoteTasks = t := by
  unfold drainRemoteTasks
  rw [h, List.append_nil]
  cases t
  cases h
  rfl

theorem hasReadyWork_of_idle (hidle : t.Idle) (hremote : t.remoteMacrotasks = []) :
    t.hasReadyWork = false := by
  rw [hasReadyWork, hidle.1, hidle.2, hremote]
  rfl

end LoopThread

/-! ## The loops -/

namespace TurnPhase

/-- The loop has found both queues empty. -/
def late : TurnPhase → Bool
  | .drainSecond | .readySecond | .drainThird | .readyThird | .commit | .parked | .returned => true
  | .poll | .drainFirst | .drainMicrotasks | .popMacrotask | .unwound => false

/-- How far it is to the end of the turn, at most. -/
def distance : TurnPhase → Nat
  | .poll => 10
  | .drainFirst => 9
  | .drainMicrotasks => 8
  | .popMacrotask => 7
  | .drainSecond => 6
  | .readySecond => 5
  | .drainThird => 4
  | .readyThird => 3
  | .commit => 2
  | .parked | .returned | .unwound => 0

end TurnPhase

namespace LoopState

open LoopThread

variable {l l' : LoopState κ σ φ} {p : Program κ σ} {poll : BlockOnFuture φ σ}

/-- What the place in the turn says of the queues. -/
structure Phased (l : LoopState κ σ φ) : Prop where
  remote : l.thread.remoteMacrotasks = []
  checkpoint : l.phase = .popMacrotask → l.thread.localMicrotasks = []
  idle : l.phase.late = true → l.thread.Idle
  unwound : l.phase = .unwound ↔ l.thread.unwinding = true

/-- A wake is used up by the poll that it leads to. -/
def rank (l : LoopState κ σ φ) : Nat :=
  if l.woken then 20 + if l.phase = .poll then 0 else l.phase.distance else l.phase.distance

/-- One step of a loop: a closure runs in its turn, or the loop goes on in its turn. -/
def Advances (p : Program κ σ) (l l' : LoopState κ σ φ) : Prop :=
  l'.Phased ∧ (l.thread.next p = some l'.thread ∨ l'.thread = l.thread ∧ l'.rank < l.rank)

theorem remote_queueAll (t : LoopThread κ σ) (tasks : List (QueueKind × κ)) :
    (t.queueAll tasks).remoteMacrotasks = t.remoteMacrotasks := by
  induction tasks generalizing t with
  | nil => rfl
  | cons task tasks ih =>
      refine (ih (t.queue task.1 task.2)).trans ?_
      unfold LoopThread.queue
      split <;> rfl

theorem remote_runGuarded (t : LoopThread κ σ) (effects : Effects κ σ) (kind : QueueKind) (task : κ) :
    (t.runGuarded effects kind task).remoteMacrotasks = t.remoteMacrotasks := by
  unfold LoopThread.runGuarded
  dsimp only
  split <;> exact remote_queueAll ..

theorem Phased.running (h : l.Phased) (hphase : l.phase ≠ .unwound) :
    l.thread.unwinding = false :=
  Bool.eq_false_iff.mpr fun hunwinding => hphase (h.unwound.mpr hunwinding)

/-- The loop goes on to another place, where the queues are as that place says. -/
theorem Phased.goesOn (h : l.Phased) (hrunning : l.phase ≠ .unwound) {phase : TurnPhase}
    {woken : Bool} {future : φ} (hphase : phase ≠ .unwound)
    (hcheckpoint : phase = .popMacrotask → l.thread.localMicrotasks = [])
    (hidle : phase.late = true → l.thread.Idle)
    (hrank : LoopState.rank { l with phase, woken, future } < l.rank) :
    Advances p l { l with phase, woken, future } := by
  have hunwound : phase = .unwound ↔ l.thread.unwinding = true := by
    simp [hphase, h.running hrunning]
  exact ⟨⟨h.remote, hcheckpoint, hidle, hunwound⟩, .inr ⟨rfl, hrank⟩⟩

/-- A closure has run, and the loop is where nothing is said of the queues, or unwound. -/
theorem Phased.executed {kind : QueueKind} {task : κ} {t : LoopThread κ σ} (h : l.Phased)
    (hrunning : l.phase ≠ .unwound) (phase : TurnPhase) (hphase : phase ≠ .unwound)
    (hpop : phase ≠ .popMacrotask) (hlate : phase.late = false)
    (hremote : t.remoteMacrotasks = []) (hfront : l.thread.front = some (kind, task, t)) :
    Advances p l (l.execute p kind task t phase) := by
  have hplace : (l.execute p kind task t phase).phase = .unwound ∨
      (l.execute p kind task t phase).phase = phase := by
    unfold LoopState.execute
    dsimp only
    split
    · exact .inl rfl
    · exact .inr rfl
  refine ⟨⟨(remote_runGuarded ..).trans hremote, fun hcheck => ?_, fun hidle => ?_, ?_⟩, .inl ?_⟩
  · rcases hplace with heq | heq
    · cases heq.symm.trans hcheck
    · exact absurd (heq.symm.trans hcheck) hpop
  · rcases hplace with heq | heq
    · rw [heq] at hidle
      cases hidle
    · rw [heq, hlate] at hidle
      cases hidle
  · unfold LoopState.execute
    dsimp only
    split
    next hunwinding => simp [hunwinding]
    next hunwinding => simp [hunwinding, hphase]
  · unfold LoopThread.next
    rw [h.running hrunning, if_neg Bool.false_ne_true, hfront]
    rfl

theorem Phased.drainMicrotasks (h : l.Phased) (hphase : l.phase = .drainMicrotasks) :
    Advances p l (l.drainMicrotasks p) := by
  unfold LoopState.drainMicrotasks popMicrotask
  cases hmicro : l.thread.localMicrotasks with
  | cons task rest =>
      refine h.executed (by simp [hphase]) .drainMicrotasks (by simp) (by simp) rfl ?_ ?_
      · exact h.remote
      · rw [LoopThread.front, popMicrotask, hmicro]
  | nil =>
      refine h.goesOn (by simp [hphase]) (by simp) (fun _ => hmicro) nofun ?_
      simp only [rank, hphase, reduceCtorEq, if_false, TurnPhase.distance]
      split <;> decide

/-- A macrotask is popped when no microtask is left, and then runs in its turn. -/
theorem Phased.popMacrotask (h : l.Phased) (hphase : l.phase = .popMacrotask) {task : κ}
    {t : LoopThread κ σ} (hsome : l.thread.popMacrotask = some (task, t)) (phase : TurnPhase)
    (hunwound : phase ≠ .unwound) (hpop : phase ≠ .popMacrotask) (hlate : phase.late = false) :
    Advances p l (l.execute p .macrotask task t phase) := by
  have hmicro := h.checkpoint hphase
  have hremote : t.remoteMacrotasks = [] := by
    unfold LoopThread.popMacrotask at hsome
    split at hsome
    next =>
      cases hsome
      exact h.remote
    next => cases hsome
  refine h.executed (by simp [hphase]) phase hunwound hpop hlate hremote ?_
  rw [LoopThread.front, popMicrotask, hmicro]
  dsimp only
  rw [hsome]
  rfl

theorem Phased.idle_of_popMacrotask (h : l.Phased) (hphase : l.phase = .popMacrotask)
    (hnone : l.thread.popMacrotask = none) : l.thread.Idle := by
  refine ⟨h.checkpoint hphase, ?_⟩
  unfold LoopThread.popMacrotask at hnone
  split at hnone
  · cases hnone
  next hempty => exact hempty

theorem Phased.ready (h : l.Phased) (hlate : l.phase.late = true) :
    l.thread.hasReadyWork = false :=
  hasReadyWork_of_idle (h.idle hlate) h.remote

theorem Phased.drain (h : l.Phased) : l.thread.drainRemoteTasks = l.thread :=
  drainRemoteTasks_eq h.remote

theorem Phased.turn (h : l.Phased) (phase : TurnPhase) (hphase : phase ≠ .poll)
    (hunwound : phase ≠ .unwound)
    (hcheckpoint : phase = .popMacrotask → l.thread.localMicrotasks = [])
    (hidle : phase.late = true → l.thread.Idle) (hlt : phase.distance < l.phase.distance)
    (hpoll : l.phase ≠ .poll) : Advances p l { l with phase } := by
  have hrunning : l.phase ≠ .unwound := fun heq =>
    Nat.not_lt_zero phase.distance (by rwa [heq] at hlt)
  refine h.goesOn hrunning hunwound hcheckpoint hidle ?_
  simp only [rank, if_neg hphase, if_neg hpoll]
  split <;> omega

theorem Phased.advances_stepRun (h : l.Phased) (hstep : l.stepRun p = some l') :
    Advances p l l' := by
  unfold stepRun drainAll at hstep
  rw [h.drain] at hstep
  cases hphase : l.phase <;> simp only [hphase] at hstep
  case drainMicrotasks =>
    cases hstep
    exact h.drainMicrotasks hphase
  case popMacrotask =>
    split at hstep
    next hpop =>
      cases hstep
      exact h.popMacrotask hphase hpop _ nofun nofun rfl
    next hnone =>
      cases hstep
      refine h.turn .drainSecond nofun nofun nofun (fun _ => h.idle_of_popMacrotask hphase hnone) ?_ ?_
        <;> rw [hphase] <;> decide
  case drainFirst =>
    cases hstep
    refine h.turn .drainMicrotasks nofun nofun nofun nofun ?_ ?_ <;> rw [hphase] <;> decide
  case poll | parked | returned | unwound => cases hstep
  case commit =>
    rw [h.remote] at hstep
    cases hstep
    refine h.turn .returned nofun nofun nofun (fun _ => h.idle ?_) ?_ ?_ <;> rw [hphase] <;> decide
  case readySecond | readyThird =>
    rw [h.ready (by rw [hphase]; rfl)] at hstep
    cases hstep
    refine h.turn _ nofun nofun nofun (fun _ => h.idle ?_) ?_ ?_ <;> rw [hphase] <;> decide
  case drainSecond | drainThird =>
    cases hstep
    refine h.turn _ nofun nofun nofun (fun _ => h.idle ?_) ?_ ?_ <;> rw [hphase] <;> decide

theorem Phased.advances_stepRunUntilStalled (h : l.Phased)
    (hstep : l.stepRunUntilStalled p = some l') : Advances p l l' := by
  unfold stepRunUntilStalled drainAll at hstep
  rw [h.drain] at hstep
  cases hphase : l.phase <;> simp only [hphase] at hstep
  case drainMicrotasks =>
    cases hstep
    exact h.drainMicrotasks hphase
  case popMacrotask =>
    split at hstep
    next hpop =>
      cases hstep
      exact h.popMacrotask hphase hpop _ nofun nofun rfl
    next hnone =>
      cases hstep
      refine h.turn .drainSecond nofun nofun nofun (fun _ => h.idle_of_popMacrotask hphase hnone) ?_ ?_
        <;> rw [hphase] <;> decide
  case drainFirst =>
    cases hstep
    refine h.turn .drainMicrotasks nofun nofun nofun nofun ?_ ?_ <;> rw [hphase] <;> decide
  case readySecond =>
    rw [h.ready (by rw [hphase]; rfl)] at hstep
    cases hstep
    refine h.turn _ nofun nofun nofun (fun _ => h.idle ?_) ?_ ?_ <;> rw [hphase] <;> decide
  case drainSecond =>
    cases hstep
    refine h.turn _ nofun nofun nofun (fun _ => h.idle ?_) ?_ ?_ <;> rw [hphase] <;> decide
  all_goals cases hstep

/-- `run_ready_tasks` takes its turns as `run_until_stalled` does, when the driver has
nothing. -/
theorem stepRunReadyTasks_eq (l : LoopState κ σ φ) :
    l.stepRunReadyTasks p = l.stepRunUntilStalled p := rfl

/-- A poll that is ready is one that finds the queues empty. -/
theorem Phased.advances_stepBlockOn (h : l.Phased)
    (hpending : l.phase = .poll → l.woken = true →
      (poll l.future l.thread.state).2 = true → l.thread.Idle)
    (hstep : l.stepBlockOn p poll = some l') : Advances p l l' := by
  unfold stepBlockOn drainAll at hstep
  rw [h.drain] at hstep
  cases hphase : l.phase <;> simp only [hphase] at hstep
  case poll =>
    by_cases hwoken : l.woken = true
    · rw [if_pos hwoken] at hstep
      split at hstep
      next hready =>
        cases hstep
        have hidle := hpending hphase hwoken (by rw [hready])
        refine h.goesOn (by simp [hphase]) nofun nofun (fun _ => hidle) ?_
        simp [rank, hphase, hwoken, TurnPhase.distance]
      next =>
        cases hstep
        refine h.goesOn (by simp [hphase]) nofun nofun nofun ?_
        simp [rank, hphase, hwoken, TurnPhase.distance]
    · rw [if_neg hwoken] at hstep
      cases hstep
      refine h.goesOn (by simp [hphase]) nofun nofun nofun ?_
      simp [rank, hphase, hwoken, TurnPhase.distance]
  case drainMicrotasks =>
    cases hstep
    exact h.drainMicrotasks hphase
  case popMacrotask =>
    split at hstep
    next hpop =>
      cases hstep
      exact h.popMacrotask hphase hpop _ nofun nofun rfl
    next hnone =>
      cases hstep
      refine h.turn .drainSecond nofun nofun nofun (fun _ => h.idle_of_popMacrotask hphase hnone) ?_ ?_
        <;> rw [hphase] <;> decide
  case drainFirst =>
    cases hstep
    refine h.turn .drainMicrotasks nofun nofun nofun nofun ?_ ?_ <;> rw [hphase] <;> decide
  case readySecond =>
    have hidle := h.idle (by rw [hphase]; rfl)
    rw [h.ready (by rw [hphase]; rfl), Bool.or_false] at hstep
    by_cases hwoken : l.woken = true
    · rw [if_pos hwoken] at hstep
      cases hstep
      refine h.goesOn (by simp [hphase]) nofun nofun nofun ?_
      simp [rank, hphase, hwoken, TurnPhase.distance]
    · rw [if_neg hwoken] at hstep
      cases hstep
      refine h.turn _ nofun nofun nofun (fun _ => hidle) ?_ ?_ <;> rw [hphase] <;> decide
  case drainSecond =>
    cases hstep
    refine h.turn _ nofun nofun nofun (fun _ => h.idle ?_) ?_ ?_ <;> rw [hphase] <;> decide
  all_goals cases hstep

end LoopState

/-! ## Whole runs -/

namespace EventLoop

open LoopThread Event Stuttering

variable {e e' : EventLoop} {p : Program κ σ} {poll : BlockOnFuture φ σ}
  {begin l l' : LoopState κ σ φ}

/-- Every poll of the future that is ready finds the queues empty. -/
def PendingUntilIdle (p : Program κ σ) (poll : BlockOnFuture φ σ) (begin : LoopState κ σ φ) : Prop :=
  ∀ k l, iterate (blockOn.step p poll) k begin = some l → l.phase = .poll → l.woken = true →
    (poll l.future l.thread.state).2 = true → l.thread.Idle

structure Running (e : EventLoop) (p : Program κ σ) (poll : BlockOnFuture φ σ)
    (begin l : LoopState κ σ φ) : Prop where
  phased : l.Phased
  polls : l.phase = .poll → e = .blockOn
  reached : ∃ k, iterate (e.step p poll) k begin = some l

theorem polls_step (hstep : e.step p poll l = some l') (hpoll : l'.phase = .poll) :
    e = .blockOn := by
  cases e with
  | blockOn => rfl
  | run =>
      unfold EventLoop.step LoopState.stepRun LoopState.drainMicrotasks at hstep
      grind [LoopState.execute]
  | runUntilStalled =>
      unfold EventLoop.step LoopState.stepRunUntilStalled LoopState.drainMicrotasks at hstep
      grind [LoopState.execute]
  | runReadyTasks =>
      unfold EventLoop.step LoopState.stepRunReadyTasks LoopState.drainMicrotasks at hstep
      grind [LoopState.execute]

theorem Running.advances (h : Running e p poll begin l)
    (hpending : e = .blockOn → PendingUntilIdle p poll begin)
    (hstep : e.step p poll l = some l') : LoopState.Advances p l l' := by
  cases e with
  | run => exact h.phased.advances_stepRun hstep
  | runUntilStalled => exact h.phased.advances_stepRunUntilStalled hstep
  | runReadyTasks =>
      change l.stepRunReadyTasks p = some l' at hstep
      rw [LoopState.stepRunReadyTasks_eq] at hstep
      exact h.phased.advances_stepRunUntilStalled hstep
  | blockOn =>
      obtain ⟨k, hk⟩ := h.reached
      exact h.phased.advances_stepBlockOn (hpending rfl k l hk) hstep

/-- A loop ends only where it has found the queues empty, or by unwinding. -/
theorem Running.stopped (h : Running e p poll begin l) (hstop : e.step p poll l = none) :
    l.thread.unwinding = true ∨ l.thread.Idle := by
  by_cases hunwound : l.phase = .unwound
  · exact .inl (h.phased.unwound.mp hunwound)
  refine .inr (h.phased.idle ?_)
  have hpolls := h.polls
  cases e with
  | blockOn =>
      change l.stepBlockOn p poll = none at hstop
      cases hphase : l.phase <;> simp only [LoopState.stepBlockOn, hphase] at hstop <;>
        grind [TurnPhase.late]
  | run =>
      change l.stepRun p = none at hstop
      cases hphase : l.phase <;> simp only [LoopState.stepRun, hphase] at hstop <;>
        grind [TurnPhase.late]
  | runUntilStalled =>
      change l.stepRunUntilStalled p = none at hstop
      cases hphase : l.phase <;> simp only [LoopState.stepRunUntilStalled, hphase] at hstop <;>
        grind [TurnPhase.late]
  | runReadyTasks =>
      change l.stepRunReadyTasks p = none at hstop
      cases hphase : l.phase <;> simp only [LoopState.stepRunReadyTasks, hphase] at hstop <;>
        grind [TurnPhase.late]

theorem implements_next (hpending : e = .blockOn → PendingUntilIdle p poll begin) :
    Implements (e.step p poll) (LoopThread.next · p) LoopState.thread (Running e p poll begin)
      LoopState.rank where
  keeps l l' h hstep := by
    refine ⟨(h.advances hpending hstep).1, polls_step hstep, ?_⟩
    obtain ⟨k, hk⟩ := h.reached
    refine ⟨k + 1, ?_⟩
    rw [iterate_add, hk, Option.bind_some, iterate, hstep]
    rfl
  takes l l' h hstep := (h.advances hpending hstep).2
  stops l h hstop := next_eq_none_iff.mpr (h.stopped hstop)

theorem Running.enter (e : EventLoop) (p : Program κ σ) (poll : BlockOnFuture φ σ) (state : σ)
    (tasks : List (QueueKind × κ)) (future : φ) :
    Running e p poll (e.enter (start state tasks) future) (e.enter (start state tasks) future) := by
  refine ⟨⟨(Recorded.start state tasks).remote, ?_, ?_, ?_⟩, ?_, 0, rfl⟩
  · cases e <;> nofun
  · cases e <;> nofun
  · have hrunning : (start state tasks).unwinding = false := unwinding_queueAll ..
    cases e <;> simp [EventLoop.enter, EventLoop.first, hrunning]
  · intro hpoll
    cases e with
    | blockOn => rfl
    | run | runUntilStalled | runReadyTasks => cases hpoll

/-- Each closure is started in its turn, a macrotask only when no microtask is queued;
and of any two loops each starts what the other starts, in the same order, and stops
where the other stops. -/
structure Agree (p : Program κ σ) (poll : BlockOnFuture φ σ) (state : σ)
    (tasks : List (QueueKind × κ)) (future : φ) : Prop where
  ordered : ∀ (e : EventLoop) k l,
    iterate (e.step p poll) k (e.enter (start state tasks) future) = some l →
      Chronicle Allowed l.thread.events ∧
      startedOf .microtask l.thread.events ++ l.thread.localMicrotasks =
        queuedOf .microtask l.thread.events ∧
      startedOf .macrotask l.thread.events ++ l.thread.localMacrotasks =
        queuedOf .macrotask l.thread.events
  together : ∀ (e e' : EventLoop) k l,
    iterate (e.step p poll) k (e.enter (start state tasks) future) = some l →
      ∃ k' l', iterate (e'.step p poll) k' (e'.enter (start state tasks) future) = some l' ∧
        l'.thread = l.thread ∧ (e.step p poll l = none → e'.step p poll l' = none)
  ends : ∀ (e e' : EventLoop) k k' l l',
    iterate (e.step p poll) k (e.enter (start state tasks) future) = some l →
    iterate (e'.step p poll) k' (e'.enter (start state tasks) future) = some l' →
      e.step p poll l = none → e'.step p poll l' = none → l'.thread = l.thread

/-- A loop stops only when both queues are empty. -/
def StopsEmpty (p : Program κ σ) (poll : BlockOnFuture φ σ) (state : σ)
    (tasks : List (QueueKind × κ)) (future : φ) : Prop :=
  ∀ (e : EventLoop) k l,
    iterate (e.step p poll) k (e.enter (start state tasks) future) = some l →
      e.step p poll l = none → l.thread.Idle

/-- A closure whose payload panics when it is dropped has its turn only as the last
one that is queued, and queues none itself. -/
def Contained (p : Program κ σ) (state : σ) (tasks : List (QueueKind × κ)) : Prop :=
  ∀ n t, iterate (LoopThread.next · p) n (start state tasks) = some t →
    ∀ kind task rest, t.front = some (kind, task, rest) →
      (p task rest.state).unwinds = true → rest.Idle ∧ (p task rest.state).queued = []

/-- Where every such closure is the last, the queues are empty when its panic leaves. -/
theorem Contained.idle_of_unwinding {state : σ} {tasks : List (QueueKind × κ)}
    (h : Contained p state tasks) {n : Nat} {t : LoopThread κ σ}
    (hrun : iterate (LoopThread.next · p) n (start state tasks) = some t)
    (hunwinding : t.unwinding = true) : t.Idle := by
  cases n with
  | zero =>
      cases hrun
      rw [start, unwinding_queueAll] at hunwinding
      cases hunwinding
  | succ n =>
      rw [iterate_add] at hrun
      obtain ⟨u, hu, hlast⟩ := Option.bind_eq_some_iff.mp hrun
      have hnext : u.next p = some t := by simpa [iterate] using hlast
      obtain ⟨hrunning, ⟨kind, task, rest⟩, hfront, rfl⟩ := next_eq_some hnext
      rw [unwinding_runGuarded _ _ _ ((unwinding_front hfront).trans hrunning)] at hunwinding
      exact (idle_runGuarded ..).mpr (h n u hu kind task rest hfront hunwinding)

/-- Where a loop stops only with empty queues, each such closure is the last. -/
theorem StopsEmpty.contained {state : σ} {tasks : List (QueueKind × κ)} {future : φ}
    (h : StopsEmpty p poll state tasks future)
    (himp : Implements (run.step p poll) (LoopThread.next · p) LoopState.thread
      (Running run p poll (run.enter (start state tasks) future)) LoopState.rank) :
    Contained p state tasks := by
  have henter := Running.enter run p poll state tasks future
  intro n t hrun kind task rest hfront hunwinds
  cases hrunning : t.unwinding with
  | true =>
      -- the run has ended before, so nothing is queued
      obtain ⟨k, l, hk, rfl, hstop⟩ :=
        himp.terminates henter hrun (next_eq_none_iff.mpr (.inl hrunning))
      cases (front_eq_none_iff.mpr (h run k l hk hstop)).symm.trans hfront
  | false =>
      have hnext : t.next p = some (rest.runGuarded (p task rest.state) kind task) := by
        rw [LoopThread.next, hrunning, if_neg Bool.false_ne_true, hfront]
        rfl
      have hunwinding := unwinding_runGuarded (p task rest.state) kind task
        ((unwinding_front hfront).trans hrunning)
      have hlast : iterate (LoopThread.next · p) (n + 1) (start state tasks) =
          some (rest.runGuarded (p task rest.state) kind task) := by
        rw [iterate_add, hrun, Option.bind_some, iterate, hnext]
        rfl
      obtain ⟨k, l, hk, hl, hstop⟩ := himp.terminates henter hlast
        (next_eq_none_iff.mpr (.inl (hunwinding.trans hunwinds)))
      exact (idle_runGuarded ..).mp (hl ▸ h run k l hk hstop)

/-- The loops agree for every program, also where a panic leaves them; they stop only
when both queues are empty exactly if a closure whose payload panics when it is dropped
has its turn only as the last one. -/
theorem event_loops_agree (p : Program κ σ) (poll : BlockOnFuture φ σ) (state : σ)
    (tasks : List (QueueKind × κ)) (future : φ)
    (hfuture : PendingUntilIdle p poll (blockOn.enter (start state tasks) future)) :
    Agree p poll state tasks future ∧
      (Agree p poll state tasks future ∧ StopsEmpty p poll state tasks future ↔
        Contained p state tasks) := by
  have himp (e : EventLoop) : Implements (e.step p poll) (LoopThread.next · p) LoopState.thread
      (Running e p poll (e.enter (start state tasks) future)) LoopState.rank :=
    implements_next (fun he => he ▸ hfuture)
  have henter (e : EventLoop) := Running.enter e p poll state tasks future
  have hagree : Agree p poll state tasks future := by
    refine ⟨fun e k l hrun => ?_, fun e e' k l hrun => ?_, fun e e' k k' l l' hrun hrun' => ?_⟩
    · obtain ⟨n, hn⟩ := (himp e).sound (henter e) hrun
      have hrecorded := (Recorded.start state tasks).iterate hn
      exact ⟨hrecorded.events, hrecorded.started_append⟩
    · obtain ⟨n, hn⟩ := (himp e).sound (henter e) hrun
      by_cases hstop : e.step p poll l = none
      · have hended := (himp e).stops _ ((himp e).keeps_iterate (henter e) hrun) hstop
        obtain ⟨k', l', hk', habs, hstop'⟩ := (himp e').terminates (henter e') hn hended
        exact ⟨k', l', hk', habs, fun _ => hstop'⟩
      · obtain ⟨k', l', hk', habs⟩ := (himp e').complete (henter e') hn
        exact ⟨k', l', hk', habs, fun h => absurd h hstop⟩
    · intro hstop hstop'
      obtain ⟨n, hn⟩ := (himp e).sound (henter e) hrun
      obtain ⟨n', hn'⟩ := (himp e').sound (henter e') hrun'
      exact stop_unique hn' hn
        ((himp e').stops _ ((himp e').keeps_iterate (henter e') hrun') hstop')
        ((himp e).stops _ ((himp e).keeps_iterate (henter e) hrun) hstop)
  refine ⟨hagree, fun h => h.2.contained (himp run), fun h => ⟨hagree, fun e k l hrun hstop => ?_⟩⟩
  obtain ⟨n, hn⟩ := (himp e).sound (henter e) hrun
  obtain hunwinding | hidle := ((himp e).keeps_iterate (henter e) hrun).stopped hstop
  · exact h.idle_of_unwinding hn hunwinding
  · exact hidle

/-- The first closure queues a macrotask and a microtask and panics, the second queues
another macrotask; the state counts the closures that were run. -/
def relay : Program Nat Nat
  | 0, n => { state := n + 1, queued := [(.macrotask, 2), (.microtask, 1)], panic := some .plain }
  | 1, n => { state := n + 1, queued := [(.macrotask, 3)], wakes := true }
  | _, n => { state := n + 1, wakes := true }

theorem relay_contained (state : Nat) (tasks : List (QueueKind × Nat)) :
    Contained relay state tasks := by
  intro n t hrun kind task rest hfront hunwinds
  unfold relay at hunwinds
  split at hunwinds <;> cases hunwinds

/-- A future that is ready when five closures were run. -/
def fifth : BlockOnFuture Unit Nat := fun _ n => ((), n == 5)

theorem fifth_pendingUntilIdle :
    PendingUntilIdle relay fifth
      (blockOn.enter (start 0 [(.macrotask, 4), (.microtask, 0)]) ()) := by
  have hchecked : ∀ k < 40, (iterate (blockOn.step relay fifth) k
      (blockOn.enter (start 0 [(.macrotask, 4), (.microtask, 0)]) ())).all (fun l =>
        !(fifth l.future l.thread.state).2 ||
          l.thread.localMicrotasks.isEmpty && l.thread.localMacrotasks.isEmpty) = true := by
    decide
  have hended : iterate (blockOn.step relay fifth) 40
      (blockOn.enter (start 0 [(.macrotask, 4), (.microtask, 0)]) ()) = none := rfl
  intro k l hrun hphase hwoken hready
  by_cases hk : k < 40
  · have hl := hchecked k hk
    rw [hrun] at hl
    simpa [hready, Idle] using hl
  · obtain ⟨m, rfl⟩ := Nat.exists_eq_add_of_le (Nat.le_of_not_lt hk)
    rw [iterate_add, hended] at hrun
    cases hrun

/-- `block_on` of that future starts what `run` starts, and in this order. -/
theorem event_loops_agree_relay :
    ∃ k l, iterate (blockOn.step relay fifth) k
        (blockOn.enter (start 0 [(.macrotask, 4), (.microtask, 0)]) ()) = some l ∧
      startedOf .microtask l.thread.events = [0, 1] ∧
      startedOf .macrotask l.thread.events = [4, 2, 3] ∧ l.thread.errors = 1 ∧
      blockOn.step relay fifth l = none ∧ l.thread.Idle := by
  have hran : (iterate (run.step relay fifth) 19
      (run.enter (start 0 [(.macrotask, 4), (.microtask, 0)]) ())).any (fun l =>
        startedOf .microtask l.thread.events == [0, 1] &&
          startedOf .macrotask l.thread.events == [4, 2, 3] && l.thread.errors == 1 &&
          (run.step relay fifth l).isNone) = true := by
    decide
  obtain ⟨l, hl, hends⟩ := (Option.any_eq_true _ _).mp hran
  simp only [Bool.and_eq_true, beq_iff_eq, Option.isNone_iff_eq_none] at hends
  obtain ⟨⟨⟨hmicro, hlater⟩, herrors⟩, hended⟩ := hends
  have hagree := event_loops_agree relay fifth 0 [(.macrotask, 4), (.microtask, 0)] ()
    fifth_pendingUntilIdle
  obtain ⟨k, l', hrun, hthread, hstop⟩ := hagree.1.together .run .blockOn 19 l hl
  have hidle := (hagree.2.mpr (relay_contained _ _)).2 .blockOn k l' hrun (hstop hended)
  refine ⟨k, l', hrun, ?_, ?_, ?_, hstop hended, hidle⟩
  · rw [hthread, hmicro]
  · rw [hthread, hlater]
  · rw [hthread, herrors]

/-- The first closure panics with a payload that panics when it is dropped. -/
def bomb : Program Nat Unit
  | 0, _ => { state := (), panic := some (.bomb .plain) }
  | _, _ => { state := () }

def never : BlockOnFuture Unit Unit := fun _ _ => ((), false)

/-- The panic of the first microtask leaves `run` while a microtask and a macrotask are
queued. -/
theorem bomb_unwinds_run :
    PendingUntilIdle bomb never (blockOn.enter
      (start () [(.microtask, 0), (.microtask, 1), (.macrotask, 2)]) ()) ∧
    (∃ k l, iterate (run.step bomb never) k (run.enter
        (start () [(.microtask, 0), (.microtask, 1), (.macrotask, 2)]) ()) = some l ∧
      run.step bomb never l = none ∧ l.phase = .unwound ∧
      l.thread.localMicrotasks = [1] ∧ l.thread.localMacrotasks = [2]) ∧
    ¬ StopsEmpty bomb never () [(.microtask, 0), (.microtask, 1), (.macrotask, 2)] () := by
  refine ⟨fun k l hrun hphase hwoken hready => ?_, ⟨2, _, rfl, rfl, rfl, rfl, rfl⟩, fun h => ?_⟩
  · cases hready
  · exact absurd (h run 2 _ rfl rfl).1 (by decide)

end EventLoop

end Runite.Runtime
