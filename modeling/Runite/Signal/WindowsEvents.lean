import Runite.Signal.WindowsReports

/-!
# Streams that wait

A stream that waits for an event that has happened is about to be woken: `wake_scheduled` is set,
or a handler is about to set it, or the closure is about to take the waker.
-/

namespace Runite.Signal.Windows

open Function

/-- The closure that is about to wake the stream. -/
def Control.waking : Control → Option Nat
  | .loadActive id | .wake id => some id
  | _ => none

/-- The stream that `recv` is at. -/
def Control.polled : Control → Option Nat
  | .storeWaker id _ | .lookAgain id _ => some id
  | _ => none

namespace Console

variable {c c' : Console} {i t id : Nat}

def Coming (c : Console) (id : Nat) : Prop :=
  (c.streams id).wakeScheduled = true ∨
    (∃ i generation left handled,
      c.handlers i = some (.notifying .swap id generation left handled)) ∨
    (c.threads (c.streams id).thread).control.waking = some id

structure Deliveries (c : Console) : Prop where
  stored : ∀ id waker, (c.streams id).awaiting = some waker → (c.streams id).waker = some waker
  looking : ∀ t id waker, (c.threads t).control = .lookAgain id waker →
    (c.streams id).waker = some waker
  storing : ∀ t id waker, (c.threads t).control = .storeWaker id waker →
    (c.streams id).awaiting = none
  covered : ∀ id waker, (c.streams id).awaiting = some waker → (c.streams id).isUnseen = true →
    (c.streams id).active = true → c.isClosed id = false → c.Coming id

theorem Deliveries.init : Deliveries {} where
  stored := nofun
  looking := nofun
  storing := nofun
  covered := nofun

theorem Deliveries.setStream {s : Stream} (h : Deliveries c)
    (hthread : s.thread = (c.streams id).thread)
    (hstored : ∀ waker, s.awaiting = some waker → s.waker = some waker)
    (hlooking : ∀ t waker, (c.threads t).control = .lookAgain id waker → s.waker = some waker)
    (hstoring : ∀ t waker, (c.threads t).control = .storeWaker id waker → s.awaiting = none)
    (hcovered : ∀ waker, s.awaiting = some waker → s.isUnseen = true → s.active = true →
      c.isClosed id = false → (c.setStream id s).Coming id) : Deliveries (c.setStream id s) := by
  have hne : ∀ {id'}, id' ≠ id → (c.setStream id s).streams id' = c.streams id' :=
    streams_setStream_of_ne
  constructor
  · intro id' waker hawaiting
    by_cases heq : id' = id
    · subst heq
      rw [streams_setStream_self] at hawaiting ⊢
      exact hstored waker hawaiting
    · rw [hne heq] at hawaiting ⊢
      exact h.stored id' waker hawaiting
  · intro t id' waker hcontrol
    by_cases heq : id' = id
    · subst heq
      rw [streams_setStream_self]
      exact hlooking t waker hcontrol
    · rw [hne heq]
      exact h.looking t id' waker hcontrol
  · intro t id' waker hcontrol
    by_cases heq : id' = id
    · subst heq
      rw [streams_setStream_self]
      exact hstoring t waker hcontrol
    · rw [hne heq]
      exact h.storing t id' waker hcontrol
  · intro id' waker hawaiting hunseen hactive hopen
    by_cases heq : id' = id
    · subst heq
      rw [streams_setStream_self] at hawaiting hunseen hactive
      have hsame : (c.setStream id' s).isClosed id' = c.isClosed id' := by
        simp [isClosed, hthread]
      exact hcovered waker hawaiting hunseen hactive (hsame ▸ hopen)
    · have hsame : (c.setStream id s).isClosed id' = c.isClosed id' := by
        simp [isClosed, heq]
      rw [hne heq] at hawaiting hunseen hactive
      unfold Coming
      rw [hne heq]
      exact h.covered id' waker hawaiting hunseen hactive (hsame ▸ hopen)

theorem Deliveries.setStream_of_eq {s : Stream} (h : Deliveries c)
    (hthread : s.thread = (c.streams id).thread) (hwaker : s.waker = (c.streams id).waker)
    (hawaiting : s.awaiting = (c.streams id).awaiting)
    (hcovered : s.active = true → c.isClosed id = false → s.awaiting ≠ none → s.isUnseen = true →
      (c.setStream id s).Coming id) : Deliveries (c.setStream id s) := by
  refine h.setStream hthread ?_ ?_ ?_ ?_
  · intro waker hset
    exact hwaker.trans (h.stored id waker (hawaiting ▸ hset))
  · exact fun t waker hcontrol => hwaker.trans (h.looking t id waker hcontrol)
  · exact fun t waker hcontrol => hawaiting.trans (h.storing t id waker hcontrol)
  · exact fun waker hset hunseen hactive hopen => hcovered hactive hopen (hset ▸ nofun) hunseen

theorem Deliveries.setStream_of_none {s : Stream} (h : Deliveries c)
    (hthread : s.thread = (c.streams id).thread) (hawaiting : s.awaiting = none)
    (hlooking : ∀ t waker, (c.threads t).control = .lookAgain id waker → s.waker = some waker) :
    Deliveries (c.setStream id s) :=
  h.setStream hthread (fun _ hset => absurd (hawaiting.symm.trans hset) nofun) hlooking
    (fun _ _ _ => hawaiting) fun _ hset => absurd (hawaiting.symm.trans hset) nofun

theorem Deliveries.setHandler {new : Handler} (h : Deliveries c)
    (hold : ∀ id generation left handled,
      c.handlers i = some (.notifying .swap id generation left handled) →
        (c.streams id).wakeScheduled = true) : Deliveries (c.setHandler i new) :=
  { h with
    covered := by
      intro id waker hawaiting hunseen hactive hopen
      rcases h.covered id waker hawaiting hunseen hactive hopen with hflag | hswap | hwaking
      · exact .inl hflag
      · obtain ⟨i', generation, left, handled, hi'⟩ := hswap
        by_cases heq : i' = i
        · subst heq
          exact .inl (hold id generation left handled hi')
        · exact .inr (.inl ⟨i', generation, left, handled,
            (handlers_setHandler_of_ne heq).trans hi'⟩)
      · exact .inr (.inr hwaking) }

theorem Deliveries.setThread {thread : Thread} (h : Deliveries c)
    (hclosed : (c.threads t).closed = true → thread.closed = true)
    (hlooking : ∀ id waker, thread.control = .lookAgain id waker →
      (c.streams id).waker = some waker)
    (hstoring : ∀ id waker, thread.control = .storeWaker id waker →
      (c.streams id).awaiting = none)
    (hwaking : ∀ id, (c.threads t).control.waking = some id →
      (c.streams id).awaiting = none ∨ (c.streams id).active = false ∨
        thread.control.waking = some id) : Deliveries (c.setThread t thread) := by
  constructor
  · exact h.stored
  · intro t' id waker hcontrol
    by_cases heq : t' = t
    · subst heq
      rw [threads_setThread_self] at hcontrol
      exact hlooking id waker hcontrol
    · rw [threads_setThread_of_ne heq] at hcontrol
      exact h.looking t' id waker hcontrol
  · intro t' id waker hcontrol
    by_cases heq : t' = t
    · subst heq
      rw [threads_setThread_self] at hcontrol
      exact hstoring id waker hcontrol
    · rw [threads_setThread_of_ne heq] at hcontrol
      exact h.storing t' id waker hcontrol
  · intro id waker hawaiting hunseen hactive hopen
    have hopen' : c.isClosed id = false := by
      refine Bool.eq_false_iff.mpr fun hold => Bool.eq_false_iff.mp hopen ?_
      exact closed_setThread hclosed _ hold
    rcases h.covered id waker hawaiting hunseen hactive hopen' with hflag | hswap | hold
    · exact .inl hflag
    · exact .inr (.inl hswap)
    · refine .inr (.inr ?_)
      rw [streams_setThread] at hawaiting hactive ⊢
      by_cases heq : (c.streams id).thread = t
      · rw [heq] at hold
        rw [heq, threads_setThread_self]
        rcases hwaking id hold with hnone | hfalse | hnew
        · exact absurd (hnone.symm.trans hawaiting) nofun
        · exact absurd (hfalse.symm.trans hactive) nofun
        · exact hnew
      · rw [threads_setThread_of_ne heq]
        exact hold

/-- The thread goes on, and neither looks for an event nor wakes a stream that waits. -/
theorem Deliveries.goOn {old control : Control} (h : Deliveries c)
    (hcontrol : (c.threads t).control = old)
    (hlooking : ∀ id waker, control = .lookAgain id waker → (c.streams id).waker = some waker)
    (hstoring : ∀ id waker, control = .storeWaker id waker → (c.streams id).awaiting = none)
    (hwaking : ∀ id, old.waking = some id →
      (c.streams id).awaiting = none ∨ (c.streams id).active = false ∨ control.waking = some id) :
    Deliveries (c.setControl t control) := by
  subst hcontrol
  exact h.setThread (fun hclosed => hclosed) hlooking hstoring hwaking

/-- The thread is not in `recv`, and has not begun to wake a stream. -/
theorem Deliveries.moveOn {old control : Control} (h : Deliveries c)
    (hcontrol : (c.threads t).control = old) (hold : old.waking = none)
    (hnew : control.polled = none) : Deliveries (c.setControl t control) := by
  refine h.goOn hcontrol ?_ ?_ ?_
  · intro id waker heq
    rw [heq] at hnew
    simp [Control.polled] at hnew
  · intro id waker heq
    rw [heq] at hnew
    simp [Control.polled] at hnew
  · intro id hwaking
    rw [hold] at hwaking
    cases hwaking

theorem Deliveries.publish {event : Nat} (h : Deliveries c) (hknown : Known c) :
    Deliveries { c.setStream c.nextStream { event, thread := t, active := true } with
      nextStream := c.nextStream + 1
      listeners := c.listeners ++ [c.nextStream]
      lifecycle := none } := by
  have hlt : ∀ {id}, id < c.nextStream → (c.setStream c.nextStream
      { event, thread := t, active := true }).streams id = c.streams id :=
    fun hlt => streams_setStream_of_ne (Nat.ne_of_lt hlt)
  -- the new stream is the only one that differs, and nobody waits for it
  have hold : ∀ id, ((c.setStream c.nextStream { event, thread := t, active := true }).streams
      id).awaiting ≠ none → id < c.nextStream := by
    intro id hne
    refine Nat.lt_of_not_le fun hle => hne ?_
    by_cases heq : id = c.nextStream
    · subst heq
      simp
    · rw [streams_setStream_of_ne heq, hknown.streams id hle]
  constructor
  · intro id waker hawaiting
    have hsame := hlt (hold id (hawaiting ▸ nofun))
    exact (congrArg Stream.waker hsame).trans
      (h.stored id waker ((congrArg Stream.awaiting hsame).symm.trans hawaiting))
  · intro t' id waker hcontrol
    have hsame := hlt (hknown.controls t' id (congrArg Control.stream hcontrol))
    exact (congrArg Stream.waker hsame).trans (h.looking t' id waker hcontrol)
  · intro t' id waker hcontrol
    have hsame := hlt (hknown.controls t' id (congrArg Control.stream hcontrol))
    exact (congrArg Stream.awaiting hsame).trans (h.storing t' id waker hcontrol)
  · intro id waker hawaiting hunseen hactive hopen
    have hsame := hlt (hold id (hawaiting ▸ nofun))
    dsimp only [isClosed] at hawaiting hunseen hactive hopen
    rw [hsame] at hawaiting hunseen hactive hopen
    unfold Coming
    dsimp only
    rw [hsame]
    exact h.covered id waker hawaiting hunseen hactive hopen

/-! ## Steps -/

theorem Deliveries.notify {next : Notify} {generation : Nat} {left : List Nat} {handled : Bool}
    (h : Deliveries c) (hwakes : Wakes c)
    (hi : c.handlers i = some (.notifying next id generation left handled)) :
    Deliveries (c.notify i next id generation left handled) := by
  have hnot : next ≠ .swap → ∀ id' generation' left' handled',
      c.handlers i = some (.notifying .swap id' generation' left' handled') →
        (c.streams id').wakeScheduled = true := by
    intro hne id' generation' left' handled' hi'
    have heq := Option.some.inj (hi.symm.trans hi')
    exact absurd (Handler.notifying.inj heq).1 hne
  have hholder : ∀ {held}, (Handler.notifying next id generation left handled).holder i =
      some held → (c.handlers i).bind (Handler.holder i) = some held := by
    intro held heq
    rw [hi]
    exact heq
  have hflag : ∀ {holder}, (Handler.notifying next id generation left handled).holder i =
      some (id, holder) → (c.streams id).wakeScheduled = true := by
    intro holder heq
    rw [hwakes.flag, hwakes.handler i id _ (hholder heq)]
    rfl
  unfold Console.notify
  cases next with
  | loadActive =>
      dsimp only
      split
      · exact h.setHandler (hnot nofun)
      · exact h.setHandler (hnot nofun)
  | loadClosed =>
      dsimp only
      split
      · exact h.setHandler (hnot nofun)
      · exact h.setHandler (hnot nofun)
  | bump =>
      -- the handler is about to set the flag before the generation is seen to change
      have hset : Deliveries (c.setHandler i
          (.notifying .swap id ((c.streams id).generation + 1) left handled)) :=
        h.setHandler (hnot nofun)
      refine Deliveries.setStream_of_eq hset rfl rfl rfl fun _ _ _ _ => ?_
      exact .inr (.inl ⟨i, _, left, handled, handlers_setHandler_self⟩)
  | swap =>
      dsimp only
      split
      next hflag =>
        refine h.setHandler fun id' _ _ _ hi' => ?_
        have heq := Option.some.inj (hi.symm.trans hi')
        exact (Handler.notifying.inj heq).2.1 ▸ hflag
      next =>
        have hset : Deliveries (c.setStream id { c.streams id with
            wakeScheduled := true, holder := some (.handler i) }) :=
          h.setStream_of_eq rfl rfl rfl fun _ _ _ _ => .inl (by simp)
        refine hset.setHandler fun id' _ _ _ hi' => ?_
        have heq := Option.some.inj (hi.symm.trans hi')
        rw [← (Handler.notifying.inj heq).2.1, streams_setStream_self]
  | queue =>
      dsimp only
      have hset : ∀ holder, Deliveries (c.setStream id { c.streams id with holder }) := by
        intro holder
        refine h.setStream_of_eq rfl rfl rfl fun _ _ _ _ => .inl ?_
        rw [streams_setStream_self]
        exact hflag rfl
      split
      next => exact (hset _).setHandler fun _ _ _ _ hi' => absurd (hi.symm.trans hi') nofun
      next =>
        have hqueued : Deliveries ((c.setStream id { c.streams id with
            holder := some .queued }).enqueue (c.streams id).thread id) := by
          refine (hset _).setThread (fun hclosed => hclosed) ?_ ?_ fun _ hwaking => ?_
          · exact fun id' waker hcontrol => (hset _).looking _ id' waker hcontrol
          · exact fun id' waker hcontrol => (hset _).storing _ id' waker hcontrol
          · exact .inr (.inr hwaking)
        exact hqueued.setHandler fun _ _ _ _ hi' => absurd (hi.symm.trans hi') nofun
  | reset =>
      obtain ⟨-, hclosed⟩ := hwakes.held id _ (hwakes.handler i id _ (hholder rfl))
      have hset : Deliveries (c.setStream id { c.streams id with
          wakeScheduled := false, holder := none }) :=
        h.setStream_of_eq rfl rfl rfl fun _ hopen => absurd (hopen.symm.trans hclosed) nofun
      exact hset.setHandler fun _ _ _ _ hi' => absurd (hi.symm.trans hi') nofun
  | reloadActive =>
      dsimp only
      split
      · exact h.setHandler (hnot nofun)
      · exact h.setHandler (hnot nofun)
  | reloadClosed =>
      dsimp only
      split
      · exact h.setHandler (hnot nofun)
      · exact Deliveries.setHandler { h with } (hnot nofun)

theorem Deliveries.ctrlHandler {h' : Handler} (h : Deliveries c) (hwakes : Wakes c)
    (hi : c.handlers i = some h') (hs : c.ctrlHandler i h' = some c') : Deliveries c' := by
  cases h' with
  | called event =>
      obtain rfl := Option.some.inj hs
      exact h.setHandler fun _ _ _ _ hi' => absurd (hi.symm.trans hi') nofun
  | dispatching left handled =>
      cases left with
      | nil =>
          obtain rfl := Option.some.inj hs
          exact h.setHandler fun _ _ _ _ hi' => absurd (hi.symm.trans hi') nofun
      | cons id left =>
          obtain rfl := Option.some.inj hs
          exact h.setHandler fun _ _ _ _ hi' => absurd (hi.symm.trans hi') nofun
  | notifying next id generation left handled =>
      obtain rfl := Option.some.inj hs
      exact h.notify hwakes hi
  | returned handled => exact absurd hs nofun

/-- A thread that is at a stream of its own is the only one that looks at it. -/
theorem Wakes.looking_eq {old : Control} {t' : Nat} {waker : Waker} (hwakes : Wakes c)
    (hcontrol : (c.threads t).control = old) (hold : old.stream = some id)
    (hlooking : (c.threads t').control = .lookAgain id waker) : old = .lookAgain id waker := by
  have hthread := hwakes.own t id (by rw [hcontrol, hold])
  have heq := (hwakes.own t' id (by rw [hlooking]; rfl)).symm.trans hthread
  rw [← hcontrol, ← heq, hlooking]

theorem Deliveries.access (h : Deliveries c) (hknown : Known c) (hwakes : Wakes c)
    (hs : Access c t c') : Deliveries c' := by
  cases hs with
  | @storeWaker id waker hcontrol =>
      have hset : Deliveries (c.setStream id { c.streams id with waker := some waker }) := by
        refine h.setStream_of_none rfl (h.storing t id waker hcontrol) fun t' waker' hlooking => ?_
        exact absurd (hwakes.looking_eq hcontrol rfl hlooking) (by simp)
      refine hset.goOn hcontrol (fun id' waker' heq => ?_) (by simp) (by simp [Control.waking])
      obtain ⟨rfl, rfl⟩ := Control.lookAgain.inj heq
      exact congrArg Stream.waker streams_setStream_self
  | @see id waker hcontrol _ =>
      -- no thread is at `lookAgain` of this stream once this one has moved on
      have hgo : Deliveries (c.setControl t .idle) := h.moveOn hcontrol rfl rfl
      refine Deliveries.setStream_of_none hgo rfl rfl fun t' waker' hlooking => ?_
      by_cases heq : t' = t
      · subst heq
        exact absurd ((congrArg Thread.control threads_setThread_self).symm.trans hlooking) (by simp)
      · have hlooking' : (c.threads t').control = .lookAgain id waker' := by
          simpa [Console.setControl, heq] using hlooking
        refine absurd ?_ heq
        exact (hwakes.own t' id (by rw [hlooking']; rfl)).symm.trans
          (hwakes.own t id (by rw [hcontrol]; rfl))
  | @pend id waker hcontrol hseen =>
      have hstored := h.looking t id waker hcontrol
      have hset : Deliveries (c.setStream id { c.streams id with awaiting := some waker }) := by
        refine h.setStream rfl ?_ ?_ ?_ ?_
        · rintro waker' ⟨⟩
          exact hstored
        · exact fun t' waker' => h.looking t' id waker'
        · intro t' waker' hstoring
          have hthread := hwakes.own t id (by rw [hcontrol]; rfl)
          have heq := (hwakes.own t' id (by rw [hstoring]; rfl)).symm.trans hthread
          rw [heq, hcontrol] at hstoring
          exact absurd hstoring (by simp)
        · exact fun _ _ hunseen => absurd (hseen.symm.trans hunseen) (by simp)
      exact hset.moveOn hcontrol rfl rfl
  | @clear id hcontrol =>
      have hthread := hwakes.own t id (by rw [hcontrol]; rfl)
      have hgo : Deliveries (c.setControl t (.loadActive id)) := h.moveOn hcontrol rfl rfl
      refine Deliveries.setStream_of_eq hgo rfl rfl rfl fun _ _ _ _ => .inr (.inr ?_)
      simp [Console.setControl, Control.waking, hthread]
  | @active id hcontrol _ =>
      exact h.goOn hcontrol (by simp) (by simp) fun _ hwaking => .inr (.inr hwaking)
  | @inactive id hcontrol hactive =>
      refine h.goOn hcontrol (by simp) (by simp) fun id' hwaking => .inr (.inl ?_)
      exact Option.some.inj hwaking ▸ hactive
  | @wake id hcontrol =>
      have hset : Deliveries (c.setStream id { c.streams id with
          waker := none, awaiting := none }) := by
        refine h.setStream_of_none rfl rfl fun t' waker' hlooking => ?_
        exact absurd (hwakes.looking_eq hcontrol rfl hlooking) (by simp)
      refine Deliveries.goOn { hset with } hcontrol (by simp) (by simp) fun id' hwaking => .inl ?_
      obtain rfl := Option.some.inj hwaking
      exact congrArg Stream.awaiting streams_setStream_self
  | @forgetWaker id hcontrol =>
      have hset : Deliveries (c.setStream id { c.streams id with
          waker := none, awaiting := none }) := by
        refine h.setStream_of_none rfl rfl fun t' waker' hlooking => ?_
        exact absurd (hwakes.looking_eq hcontrol rfl hlooking) (by simp)
      exact hset.moveOn hcontrol rfl rfl
  | lockToUnregister hcontrol _ => exact Deliveries.moveOn { h with } hcontrol rfl rfl
  | unregisterLast hcontrol _ => exact Deliveries.moveOn { h with } hcontrol rfl rfl
  | unregister hcontrol _ => exact Deliveries.moveOn { h with } hcontrol rfl rfl
  | uninstall hcontrol _ => exact Deliveries.moveOn { h with } hcontrol rfl rfl
  | uninstalled hcontrol _ => exact Deliveries.moveOn { h with } hcontrol rfl rfl
  | lockToRegister hcontrol _ => exact Deliveries.moveOn { h with } hcontrol rfl rfl
  | installed hcontrol _ => exact h.moveOn hcontrol rfl rfl
  | install hcontrol _ => exact Deliveries.moveOn { h with } hcontrol rfl rfl
  | refuse hcontrol _ => exact Deliveries.moveOn { h with } hcontrol rfl rfl
  | publish hcontrol => exact (h.publish hknown).moveOn hcontrol rfl rfl

theorem Deliveries.step {a : Action} (h : Deliveries c) (hknown : Known c) (hwakes : Wakes c)
    (hs : c.step a = some c') : Deliveries c' := by
  -- a thread that is idle is at no stream, so no thread looks at a stream of its
  have hnobody : ∀ {id}, c.Ready id → ∀ t waker, (c.threads t).control ≠ .lookAgain id waker := by
    rintro id ⟨-, hidle⟩ t waker hlooking
    rw [hwakes.own t id (by rw [hlooking]; rfl), hlooking] at hidle
    exact absurd hidle nofun
  cases a with
  | call event =>
      obtain ⟨-, hs⟩ := Option.ite_none_right_eq_some.mp hs
      obtain rfl := Option.some.inj hs
      have hset : Deliveries (c.setHandler c.nextHandler (.called event)) := by
        refine h.setHandler fun _ _ _ _ hi => ?_
        rw [hknown.handlers _ (Nat.le_refl _)] at hi
        exact absurd hi nofun
      exact { hset with }
  | handler i =>
      obtain ⟨h', hi, hs⟩ := Option.bind_eq_some_iff.mp hs
      exact h.ctrlHandler hwakes hi hs
  | thread t ok => exact h.access hknown hwakes (access_of_threadStep hs)
  | newStream t event =>
      obtain ⟨hidle, hs⟩ := Option.ite_none_right_eq_some.mp hs
      obtain rfl := Option.some.inj hs
      exact h.moveOn hidle rfl rfl
  | poll id waker =>
      obtain ⟨hready, hs⟩ := Option.ite_none_right_eq_some.mp hs
      obtain rfl := Option.some.inj hs
      have hset : ∀ s : Stream, s.thread = (c.streams id).thread → s.awaiting = none →
          Deliveries (c.setStream id s) := by
        intro s hthread hawaiting
        refine h.setStream_of_none hthread hawaiting fun t waker' hlooking => ?_
        exact absurd hlooking (hnobody hready t waker')
      unfold Console.poll
      dsimp only
      split
      · exact hset (c.streams id).see rfl rfl
      · refine (hset { c.streams id with awaiting := none } rfl rfl).goOn hready.2 nofun
          (fun id' waker' heq => ?_) nofun
        rw [← (Control.storeWaker.inj heq).1]
        exact congrArg Stream.awaiting streams_setStream_self
  | drop id =>
      obtain ⟨hready, hs⟩ := Option.ite_none_right_eq_some.mp hs
      obtain rfl := Option.some.inj hs
      have hset : Deliveries (c.setStream id { c.streams id with active := false }) :=
        h.setStream_of_eq rfl rfl rfl fun hactive => absurd hactive nofun
      exact hset.moveOn hready.2 rfl rfl
  | run t =>
      unfold Console.step at hs
      dsimp only at hs
      split at hs
      next => exact absurd hs nofun
      next id queue hqueue =>
        obtain ⟨⟨hidle, -⟩, hs⟩ := Option.ite_none_right_eq_some.mp hs
        obtain rfl := Option.some.inj hs
        have hflag : (c.streams id).wakeScheduled = true := by
          rw [hwakes.flag, (hwakes.queued t id (hqueue ▸ List.mem_cons_self)).1]
          rfl
        have hset : Deliveries (c.setStream id { c.streams id with holder := some .running }) :=
          h.setStream_of_eq rfl rfl rfl fun _ _ _ _ => .inl (by rwa [streams_setStream_self])
        exact hset.setThread (fun hclosed => hclosed) nofun nofun
          fun _ hwaking => absurd ((congrArg Control.waking hidle).symm.trans hwaking) nofun
  | close t =>
      obtain ⟨hidle, hs⟩ := Option.ite_none_right_eq_some.mp hs
      obtain rfl := Option.some.inj hs
      exact h.setThread (fun _ => rfl) (fun id' waker' => h.looking t id' waker')
        (fun id' waker' => h.storing t id' waker') fun _ hwaking => .inr (.inr hwaking)

end Console

end Runite.Signal.Windows
