import Runite.Signal.WindowsWakes

/-!
# What a handler reports as handled

A handler that reports an event as handled has stored a new generation, and a closure begins
after that, unless the thread of the stream closes.
-/

namespace Runite.Signal.Windows

open Function

namespace Console

variable {c c' : Console} {i t id generation : Nat}

/-- The generation was stored, and a closure has begun since, or the flag is set, or the thread
is closed. -/
structure Justified (c : Console) (id generation : Nat) : Prop where
  stored : generation ≤ (c.streams id).generation
  wake : generation ≤ (c.streams id).served ∨ (c.streams id).wakeScheduled = true ∨
    c.isClosed id = true

/-- What a handler in `notify` knows of the generation that it has stored. -/
def Stored (c : Console) : Handler → Prop
  | .notifying .swap id generation _ _ | .notifying .queue id generation _ _ =>
      generation ≤ (c.streams id).generation
  | .notifying .reloadActive id generation _ _ | .notifying .reloadClosed id generation _ _ =>
      c.Justified id generation
  | _ => True

/-- What a step does to a stream, as far as reports go. -/
structure Onward (c c' : Console) (id : Nat) : Prop where
  generation : (c.streams id).generation ≤ (c'.streams id).generation
  served : (c.streams id).served ≤ (c'.streams id).served
  flag : (c.streams id).wakeScheduled = true → (c'.streams id).wakeScheduled = true ∨
    (c.streams id).generation ≤ (c'.streams id).served ∨ c'.isClosed id = true
  closed : c.isClosed id = true → c'.isClosed id = true

theorem Onward.of_eq (hstreams : c'.streams = c.streams) (hthreads : c'.threads = c.threads)
    (id : Nat) : Onward c c' id := by
  have hclosed : c'.isClosed id = c.isClosed id := by
    unfold isClosed
    rw [hstreams, hthreads]
  have hid := congrFun hstreams id
  constructor
  · exact Nat.le_of_eq (congrArg Stream.generation hid).symm
  · exact Nat.le_of_eq (congrArg Stream.served hid).symm
  · exact fun hflag => .inl ((congrArg Stream.wakeScheduled hid).trans hflag)
  · exact hclosed.trans

theorem Justified.onward (h : c.Justified id generation) (honward : Onward c c' id) :
    c'.Justified id generation where
  stored := Nat.le_trans h.stored honward.generation
  wake := by
    rcases h.wake with hserved | hflag | hclosed
    · exact .inl (Nat.le_trans hserved honward.served)
    · rcases honward.flag hflag with hnew | hserved | hclosed
      · exact .inr (.inl hnew)
      · exact .inl (Nat.le_trans h.stored hserved)
      · exact .inr (.inr hclosed)
    · exact .inr (.inr (honward.closed hclosed))

theorem Stored.onward {h' : Handler} (h : c.Stored h')
    (honward : ∀ id ∈ h'.streams, Onward c c' id) : c'.Stored h' := by
  unfold Stored at h ⊢
  split
  next => exact Nat.le_trans h (honward _ List.mem_cons_self).generation
  next => exact Nat.le_trans h (honward _ List.mem_cons_self).generation
  next => exact Justified.onward h (honward _ List.mem_cons_self)
  next => exact Justified.onward h (honward _ List.mem_cons_self)
  next => trivial

structure Reports (c : Console) : Prop where
  served : ∀ id, (c.streams id).served ≤ (c.streams id).generation
  handlers : ∀ i h, c.handlers i = some h → c.Stored h
  reported : ∀ report ∈ c.reported, c.Justified report.id report.generation

theorem Reports.init : Reports {} where
  served := fun _ => Nat.le_refl _
  handlers := nofun
  reported := nofun

/-- A step that leaves the handlers and the reports alone. -/
theorem Reports.onward (h : Reports c) (hknown : Known c)
    (hserved : ∀ id, (c'.streams id).served ≤ (c'.streams id).generation)
    (honward : ∀ id, id < c.nextStream → Onward c c' id) (hhandlers : c'.handlers = c.handlers)
    (hreported : c'.reported = c.reported) : Reports c' where
  served := hserved
  handlers := by
    intro i h' hi
    rw [hhandlers] at hi
    exact (h.handlers i h' hi).onward fun id hid => honward id (hknown.dispatched i h' hi id hid)
  reported := by
    rw [hreported]
    intro report hreport
    exact (h.reported report hreport).onward (honward _ (hknown.reported report hreport))

theorem Reports.setHandler {new : Handler} (h : Reports c) (hnew : c.Stored new) :
    Reports (c.setHandler i new) := by
  have honward : ∀ id, Onward c (c.setHandler i new) id := fun id =>
    .of_eq (by rfl) (by rfl) id
  constructor
  · exact h.served
  · intro i' h' hi'
    by_cases heq : i' = i
    · subst heq
      rw [handlers_setHandler_self] at hi'
      obtain rfl := Option.some.inj hi'
      exact hnew.onward fun id _ => honward id
    · rw [handlers_setHandler_of_ne heq] at hi'
      exact (h.handlers i' h' hi').onward fun id _ => honward id
  · exact fun report hreport => (h.reported report hreport).onward (honward _)

theorem onward_setStream {s : Stream} (hthread : s.thread = (c.streams id).thread)
    (hgeneration : (c.streams id).generation ≤ s.generation)
    (hserved : (c.streams id).served ≤ s.served)
    (hflag : (c.streams id).wakeScheduled = true → s.wakeScheduled = true ∨
      (c.streams id).generation ≤ s.served ∨ c.isClosed id = true) (id' : Nat) :
    Onward c (c.setStream id s) id' := by
  by_cases heq : id' = id
  · subst heq
    have hclosed : (c.setStream id' s).isClosed id' = c.isClosed id' := by
      simp [isClosed, hthread]
    constructor
    · rwa [streams_setStream_self]
    · rwa [streams_setStream_self]
    · rw [streams_setStream_self, hclosed]
      exact hflag
    · exact hclosed.trans
  · have hclosed : (c.setStream id s).isClosed id' = c.isClosed id' := by
      simp [isClosed, heq]
    constructor
    · exact Nat.le_of_eq (congrArg Stream.generation (streams_setStream_of_ne heq)).symm
    · exact Nat.le_of_eq (congrArg Stream.served (streams_setStream_of_ne heq)).symm
    · rw [streams_setStream_of_ne heq]
      exact .inl
    · exact hclosed.trans

theorem Reports.setStream {s : Stream} (h : Reports c) (hknown : Known c)
    (hthread : s.thread = (c.streams id).thread)
    (hgeneration : (c.streams id).generation ≤ s.generation)
    (hserved : (c.streams id).served ≤ s.served ∧ s.served ≤ s.generation)
    (hflag : (c.streams id).wakeScheduled = true → s.wakeScheduled = true ∨
      (c.streams id).generation ≤ s.served ∨ c.isClosed id = true) :
    Reports (c.setStream id s) := by
  refine h.onward hknown (fun id' => ?_)
    (fun id' _ => onward_setStream hthread hgeneration hserved.1 hflag id') rfl rfl
  by_cases heq : id' = id
  · subst heq
    rw [streams_setStream_self]
    exact hserved.2
  · rw [streams_setStream_of_ne heq]
    exact h.served id'

theorem Reports.setThreads (h : Reports c) (hknown : Known c) (hstreams : c'.streams = c.streams)
    (hclosed : ∀ t, (c.threads t).closed = true → (c'.threads t).closed = true)
    (hhandlers : c'.handlers = c.handlers) (hreported : c'.reported = c.reported) :
    Reports c' := by
  refine h.onward hknown ?_ (fun id _ => ?_) hhandlers hreported
  · rw [hstreams]
    exact h.served
  · have hid := congrFun hstreams id
    constructor
    · exact Nat.le_of_eq (congrArg Stream.generation hid).symm
    · exact Nat.le_of_eq (congrArg Stream.served hid).symm
    · exact fun hflag => .inl ((congrArg Stream.wakeScheduled hid).trans hflag)
    · unfold isClosed
      rw [hstreams]
      exact hclosed _

theorem closed_setThread {thread : Thread}
    (hclosed : (c.threads t).closed = true → thread.closed = true) (t' : Nat)
    (hold : (c.threads t').closed = true) : ((c.setThread t thread).threads t').closed = true := by
  by_cases heq : t' = t
  · subst heq
    simpa using hclosed hold
  · simpa [heq] using hold

theorem closed_setControl {control : Control} :
    ∀ t', (c.threads t').closed = true → ((c.setControl t control).threads t').closed = true :=
  closed_setThread fun hclosed => hclosed

theorem Reports.setControl {control : Control} (h : Reports c) (hknown : Known c) :
    Reports (c.setControl t control) :=
  h.setThreads hknown rfl closed_setControl rfl rfl

theorem Reports.publish {event : Nat} (h : Reports c) (hknown : Known c) :
    Reports { c.setStream c.nextStream { event, thread := t, active := true } with
      nextStream := c.nextStream + 1
      listeners := c.listeners ++ [c.nextStream]
      lifecycle := none } := by
  have hne : ∀ {id}, id ≠ c.nextStream → (c.setStream c.nextStream
      { event, thread := t, active := true }).streams id = c.streams id :=
    fun hne => streams_setStream_of_ne hne
  refine h.onward hknown (fun id => ?_) (fun id hlt => ?_) rfl rfl
  · by_cases heq : id = c.nextStream
    · subst heq
      simp
    · rw [show _ = _ from hne heq]
      exact h.served id
  · have hsame := hne (Nat.ne_of_lt hlt)
    constructor
    · exact Nat.le_of_eq (congrArg Stream.generation hsame).symm
    · exact Nat.le_of_eq (congrArg Stream.served hsame).symm
    · exact fun hflag => .inl ((congrArg Stream.wakeScheduled hsame).trans hflag)
    · exact (congrArg (fun s : Stream => (c.threads s.thread).closed) hsame).trans

/-! ## Steps -/

theorem Reports.notify {next : Notify} {left : List Nat} {handled : Bool} (h : Reports c)
    (hknown : Known c) (hwakes : Wakes c)
    (hi : c.handlers i = some (.notifying next id generation left handled)) :
    Reports (c.notify i next id generation left handled) := by
  have hat := h.handlers i _ hi
  have hholder : ∀ {held}, (Handler.notifying next id generation left handled).holder i =
      some held → (c.handlers i).bind (Handler.holder i) = some held := by
    intro held heq
    rw [hi]
    exact heq
  unfold Console.notify
  cases next with
  | loadActive =>
      dsimp only
      split
      · exact h.setHandler trivial
      · exact h.setHandler trivial
  | loadClosed =>
      dsimp only
      split
      · exact h.setHandler trivial
      · exact h.setHandler trivial
  | bump =>
      have hset : Reports (c.setStream id { c.streams id with
          generation := (c.streams id).generation + 1 }) :=
        h.setStream hknown rfl (Nat.le_succ _)
          ⟨Nat.le_refl _, Nat.le_succ_of_le (h.served id)⟩ .inl
      refine hset.setHandler ?_
      exact Nat.le_of_eq (by simp)
  | swap =>
      dsimp only
      split
      next hset => exact h.setHandler ⟨hat, .inr (.inl hset)⟩
      next =>
        have hset : Reports (c.setStream id { c.streams id with
            wakeScheduled := true, holder := some (.handler i) }) :=
          h.setStream hknown rfl (Nat.le_refl _) ⟨Nat.le_refl _, h.served id⟩ fun _ => .inl rfl
        refine hset.setHandler ?_
        exact Nat.le_trans hat (Nat.le_of_eq (by simp))
  | queue =>
      dsimp only
      have hflag : (c.streams id).wakeScheduled = true := by
        rw [hwakes.flag, hwakes.handler i id _ (hholder rfl)]
        rfl
      split
      next hclosed =>
        have hset : Reports (c.setStream id { c.streams id with holder := some (.refused i) }) :=
          h.setStream hknown rfl (Nat.le_refl _) ⟨Nat.le_refl _, h.served id⟩ .inl
        exact hset.setHandler trivial
      next =>
        have hset : Reports (c.setStream id { c.streams id with holder := some .queued }) :=
          h.setStream hknown rfl (Nat.le_refl _) ⟨Nat.le_refl _, h.served id⟩ .inl
        have hqueued : Reports ((c.setStream id { c.streams id with
            holder := some .queued }).enqueue (c.streams id).thread id) :=
          hset.setThreads (hknown.setStream (hknown.dispatched i _ hi id List.mem_cons_self)) rfl
            (closed_setThread fun hclosed => hclosed) rfl rfl
        refine hqueued.setHandler ⟨?_, .inr (.inl ?_)⟩
        · exact Nat.le_trans hat (Nat.le_of_eq (by simp [Console.enqueue]))
        · simpa [Console.enqueue] using hflag
  | reset =>
      obtain ⟨-, hclosed⟩ := hwakes.held id _ (hwakes.handler i id _ (hholder rfl))
      have hset : Reports (c.setStream id { c.streams id with
          wakeScheduled := false, holder := none }) :=
        h.setStream hknown rfl (Nat.le_refl _) ⟨Nat.le_refl _, h.served id⟩
          fun _ => .inr (.inr hclosed)
      exact hset.setHandler trivial
  | reloadActive =>
      dsimp only
      split
      · exact h.setHandler hat
      · exact h.setHandler trivial
  | reloadClosed =>
      dsimp only
      split
      · exact h.setHandler trivial
      · have honward : ∀ id', Onward c { c with reported := ⟨i, id, generation⟩ :: c.reported } id' :=
          fun id' => .of_eq (by rfl) (by rfl) id'
        have hreport : Reports { c with reported := ⟨i, id, generation⟩ :: c.reported } :=
          { served := h.served
            handlers := fun i h' hi => (h.handlers i h' hi).onward fun id' _ => honward id'
            reported := by
              intro report hreport
              rcases List.mem_cons.mp hreport with rfl | hold
              · exact Justified.onward hat (honward id)
              · exact (h.reported report hold).onward (honward _) }
        exact hreport.setHandler trivial

theorem Reports.ctrlHandler {h' : Handler} (h : Reports c) (hknown : Known c) (hwakes : Wakes c)
    (hi : c.handlers i = some h') (hs : c.ctrlHandler i h' = some c') : Reports c' := by
  cases h' with
  | called event =>
      obtain rfl := Option.some.inj hs
      exact h.setHandler trivial
  | dispatching left handled =>
      cases left with
      | nil =>
          obtain rfl := Option.some.inj hs
          exact h.setHandler trivial
      | cons id left =>
          obtain rfl := Option.some.inj hs
          exact h.setHandler trivial
  | notifying next id generation left handled =>
      obtain rfl := Option.some.inj hs
      exact h.notify hknown hwakes hi
  | returned handled => exact absurd hs nofun

theorem Reports.access (h : Reports c) (hknown : Known c) (hs : Access c t c') : Reports c' := by
  have hat : ∀ {id}, (c.threads t).control.stream = some id → id < c.nextStream :=
    hknown.controls t _
  cases hs with
  | @storeWaker id waker hcontrol =>
      have hset : Reports (c.setStream id { c.streams id with waker := some waker }) :=
        h.setStream hknown rfl (Nat.le_refl _) ⟨Nat.le_refl _, h.served id⟩ .inl
      exact hset.setControl (hknown.setStream (hat (by rw [hcontrol]; rfl)))
  | @see id waker hcontrol _ =>
      have hset : Reports (c.setStream id { (c.streams id).see with waker := none }) :=
        h.setStream hknown rfl (Nat.le_refl _) ⟨Nat.le_refl _, h.served id⟩ .inl
      exact hset.setControl (hknown.setStream (hat (by rw [hcontrol]; rfl)))
  | @pend id waker hcontrol _ =>
      have hset : Reports (c.setStream id { c.streams id with awaiting := some waker }) :=
        h.setStream hknown rfl (Nat.le_refl _) ⟨Nat.le_refl _, h.served id⟩ .inl
      exact hset.setControl (hknown.setStream (hat (by rw [hcontrol]; rfl)))
  | @clear id hcontrol =>
      -- the closure begins after all generations that were stored so far
      have hset : Reports (c.setStream id { c.streams id with
          wakeScheduled := false, holder := none, served := (c.streams id).generation }) :=
        h.setStream hknown rfl (Nat.le_refl _) ⟨h.served id, Nat.le_refl _⟩
          fun _ => .inr (.inl (Nat.le_refl _))
      exact hset.setControl (hknown.setStream (hat (by rw [hcontrol]; rfl)))
  | active hcontrol _ => exact h.setControl hknown
  | inactive hcontrol _ => exact h.setControl hknown
  | @wake id hcontrol =>
      have hset : Reports (c.setStream id { c.streams id with waker := none, awaiting := none }) :=
        h.setStream hknown rfl (Nat.le_refl _) ⟨Nat.le_refl _, h.served id⟩ .inl
      exact hset.setThreads (hknown.setStream (hat (by rw [hcontrol]; rfl))) rfl closed_setControl
        rfl rfl
  | @forgetWaker id hcontrol =>
      have hset : Reports (c.setStream id { c.streams id with waker := none, awaiting := none }) :=
        h.setStream hknown rfl (Nat.le_refl _) ⟨Nat.le_refl _, h.served id⟩ .inl
      exact hset.setControl (hknown.setStream (hat (by rw [hcontrol]; rfl)))
  | lockToUnregister _ _ => exact h.setThreads hknown rfl closed_setControl rfl rfl
  | unregisterLast _ _ => exact h.setThreads hknown rfl closed_setControl rfl rfl
  | unregister _ _ => exact h.setThreads hknown rfl closed_setControl rfl rfl
  | uninstall _ _ => exact h.setThreads hknown rfl closed_setControl rfl rfl
  | uninstalled _ _ => exact h.setThreads hknown rfl closed_setControl rfl rfl
  | lockToRegister _ _ => exact h.setThreads hknown rfl closed_setControl rfl rfl
  | installed _ _ => exact h.setControl hknown
  | install _ _ => exact h.setThreads hknown rfl closed_setControl rfl rfl
  | refuse _ _ => exact h.setThreads hknown rfl closed_setControl rfl rfl
  | publish _ => exact (h.publish hknown).setControl hknown.publish

theorem Reports.step {a : Action} (h : Reports c) (hknown : Known c) (hwakes : Wakes c)
    (hs : c.step a = some c') : Reports c' := by
  cases a with
  | call event =>
      obtain ⟨-, hs⟩ := Option.ite_none_right_eq_some.mp hs
      obtain rfl := Option.some.inj hs
      have hnext : Reports { c with nextHandler := c.nextHandler + 1 } :=
        h.setThreads hknown rfl (fun _ hclosed => hclosed) rfl rfl
      exact hnext.setHandler trivial
  | handler i =>
      obtain ⟨h', hi, hs⟩ := Option.bind_eq_some_iff.mp hs
      exact h.ctrlHandler hknown hwakes hi hs
  | thread t ok => exact h.access hknown (access_of_threadStep hs)
  | newStream t event =>
      obtain ⟨-, hs⟩ := Option.ite_none_right_eq_some.mp hs
      obtain rfl := Option.some.inj hs
      exact h.setControl hknown
  | poll id waker =>
      obtain ⟨hready, hs⟩ := Option.ite_none_right_eq_some.mp hs
      obtain rfl := Option.some.inj hs
      have hlt := hknown.lt_of_ready hready
      unfold Console.poll
      dsimp only
      split
      · exact h.setStream hknown rfl (Nat.le_refl _) ⟨Nat.le_refl _, h.served id⟩ .inl
      · have hset : Reports (c.setStream id { c.streams id with awaiting := none }) :=
          h.setStream hknown rfl (Nat.le_refl _) ⟨Nat.le_refl _, h.served id⟩ .inl
        exact hset.setControl (hknown.setStream hlt)
  | drop id =>
      obtain ⟨hready, hs⟩ := Option.ite_none_right_eq_some.mp hs
      obtain rfl := Option.some.inj hs
      have hset : Reports (c.setStream id { c.streams id with active := false }) :=
        h.setStream hknown rfl (Nat.le_refl _) ⟨Nat.le_refl _, h.served id⟩ .inl
      exact hset.setControl (hknown.setStream (hknown.lt_of_ready hready))
  | run t =>
      unfold Console.step at hs
      dsimp only at hs
      split at hs
      next => exact absurd hs nofun
      next id queue hqueue =>
        obtain ⟨-, hs⟩ := Option.ite_none_right_eq_some.mp hs
        obtain rfl := Option.some.inj hs
        have hset : Reports (c.setStream id { c.streams id with holder := some .running }) :=
          h.setStream hknown rfl (Nat.le_refl _) ⟨Nat.le_refl _, h.served id⟩ .inl
        have hlt := hknown.lt_of_queued hwakes (hqueue ▸ List.mem_cons_self)
        exact hset.setThreads (hknown.setStream hlt) rfl (closed_setThread fun hclosed => hclosed)
          rfl rfl
  | close t =>
      obtain ⟨-, hs⟩ := Option.ite_none_right_eq_some.mp hs
      obtain rfl := Option.some.inj hs
      exact h.setThreads hknown rfl (closed_setThread fun _ => rfl) rfl rfl

end Console

end Runite.Signal.Windows
