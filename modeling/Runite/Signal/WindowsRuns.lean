import Runite.Signal.WindowsEvents

/-!
# The console handler over a run

`new_stream` and `unregister` install and remove the handler under the lock of its lifecycle, and
never while a thread is in the registry; a handler answers that an event was handled if `notify`
has returned true for a stream.
-/

namespace Runite.Signal.Windows

open Function

def Handler.handled : Handler → Bool
  | .called _ => false
  | .dispatching _ handled | .notifying _ _ _ _ handled | .returned handled => handled

theorem Control.stream_of_dropped {control : Control} {id : Nat} (h : control.dropped = some id) :
    control.stream = some id := by
  cases control <;> first | exact h | exact absurd h nofun

namespace Console

variable {c c' : Console} {i t id : Nat}

/-! ## Answers -/

/-- A call answers true after a report of its own. -/
def Answers (c : Console) : Prop :=
  ∀ i, (c.handlers i).any Handler.handled = c.reported.any fun report => report.handler = i

theorem Answers.init : Answers {} := fun _ => rfl

theorem Answers.of_eq (h : Answers c) (hhandlers : c'.handlers = c.handlers)
    (hreported : c'.reported = c.reported) : Answers c' := by
  intro i
  rw [hhandlers, hreported]
  exact h i

theorem Answers.setHandler {new : Handler} (h : Answers c)
    (hnew : new.handled = (c.handlers i).any Handler.handled) : Answers (c.setHandler i new) := by
  intro i'
  refine Eq.trans ?_ (h i')
  by_cases heq : i' = i
  · subst heq
    rw [handlers_setHandler_self]
    exact hnew
  · rw [handlers_setHandler_of_ne heq]

theorem Answers.report {new : Handler} {generation : Nat} (h : Answers c)
    (hnew : new.handled = true) :
    Answers ({ c with reported := ⟨i, id, generation⟩ :: c.reported }.setHandler i new) := by
  intro i'
  change Option.any Handler.handled (update c.handlers i (some new) i') =
    List.any (_ :: c.reported) fun report => report.handler = i'
  by_cases heq : i' = i
  · subst heq
    simp [hnew]
  · have hne : i ≠ i' := fun h => heq h.symm
    simpa [heq, hne] using h i'

theorem Answers.notify {next : Notify} {generation : Nat} {left : List Nat} {handled : Bool}
    (h : Answers c) (hi : c.handlers i = some (.notifying next id generation left handled)) :
    Answers (c.notify i next id generation left handled) := by
  have hat : handled = (c.handlers i).any Handler.handled := by
    rw [hi]
    rfl
  have hset : ∀ s : Stream, Answers (c.setStream id s) := fun _ => h.of_eq rfl rfl
  unfold Console.notify
  cases next with
  | loadActive =>
      dsimp only
      split
      · exact h.setHandler hat
      · exact h.setHandler hat
  | loadClosed =>
      dsimp only
      split
      · exact h.setHandler hat
      · exact h.setHandler hat
  | bump => exact (hset _).setHandler hat
  | swap =>
      dsimp only
      split
      · exact h.setHandler hat
      · exact (hset _).setHandler hat
  | queue =>
      dsimp only
      split
      · exact (hset _).setHandler hat
      · have hqueued : Answers ((c.setStream id { c.streams id with
            holder := some .queued }).enqueue (c.streams id).thread id) := h.of_eq rfl rfl
        exact hqueued.setHandler hat
  | reset => exact (hset _).setHandler hat
  | reloadActive =>
      dsimp only
      split
      · exact h.setHandler hat
      · exact h.setHandler hat
  | reloadClosed =>
      dsimp only
      split
      · exact h.setHandler hat
      · exact h.report rfl

theorem Answers.access (h : Answers c) (hs : Access c t c') : Answers c' := by
  cases hs <;> exact h.of_eq rfl rfl

theorem Answers.step {a : Action} (h : Answers c) (hknown : Known c) (hs : c.step a = some c') :
    Answers c' := by
  cases a with
  | call event =>
      obtain ⟨-, hs⟩ := Option.ite_none_right_eq_some.mp hs
      obtain rfl := Option.some.inj hs
      have hset : Answers (c.setHandler c.nextHandler (.called event)) := by
        refine h.setHandler ?_
        rw [hknown.handlers _ (Nat.le_refl _)]
        rfl
      exact hset.of_eq rfl rfl
  | handler i =>
      obtain ⟨h', hi, hs⟩ := Option.bind_eq_some_iff.mp hs
      have hat : h'.handled = (c.handlers i).any Handler.handled := by
        rw [hi]
        rfl
      cases h' with
      | called event =>
          obtain rfl := Option.some.inj hs
          exact h.setHandler hat
      | dispatching left handled =>
          cases left with
          | nil =>
              obtain rfl := Option.some.inj hs
              exact h.setHandler hat
          | cons id left =>
              obtain rfl := Option.some.inj hs
              exact h.setHandler hat
      | notifying next id generation left handled =>
          obtain rfl := Option.some.inj hs
          exact h.notify hi
      | returned handled => exact absurd hs nofun
  | thread t ok => exact h.access (access_of_threadStep hs)
  | newStream t event =>
      obtain ⟨-, hs⟩ := Option.ite_none_right_eq_some.mp hs
      obtain rfl := Option.some.inj hs
      exact h.of_eq rfl rfl
  | poll id waker =>
      obtain ⟨-, hs⟩ := Option.ite_none_right_eq_some.mp hs
      obtain rfl := Option.some.inj hs
      unfold Console.poll
      dsimp only
      split
      · exact h.of_eq rfl rfl
      · exact h.of_eq rfl rfl
  | drop id =>
      obtain ⟨-, hs⟩ := Option.ite_none_right_eq_some.mp hs
      obtain rfl := Option.some.inj hs
      exact h.of_eq rfl rfl
  | run t =>
      unfold Console.step at hs
      dsimp only at hs
      split at hs
      next => exact absurd hs nofun
      next =>
        obtain ⟨-, hs⟩ := Option.ite_none_right_eq_some.mp hs
        obtain rfl := Option.some.inj hs
        exact h.of_eq rfl rfl
  | close t =>
      obtain ⟨-, hs⟩ := Option.ite_none_right_eq_some.mp hs
      obtain rfl := Option.some.inj hs
      exact h.of_eq rfl rfl

/-! ## The lifecycle -/

structure Lifecycle (c : Console) : Prop where
  locked : ∀ t, (c.threads t).control.locked = true ↔ c.lifecycle = some t
  installed : c.listeners ≠ [] → c.installed = true
  publishing : ∀ t event, (c.threads t).control = .publish event → c.installed = true
  uninstalling : ∀ t, (c.threads t).control = .uninstall → c.listeners = []
  removed : c.lifecycle = none → c.listeners = [] → c.installed = true → c.uninstallFailed = true
  listed : ∀ id, (c.streams id).active = true → id ∈ c.listeners
  live : ∀ id ∈ c.listeners, (c.streams id).active = true ∨
    (c.threads (c.streams id).thread).control.dropped = some id
  dropping : ∀ t id, (c.threads t).control.dropped = some id → (c.streams id).active = false
  nodup : c.listeners.Nodup

theorem Lifecycle.init : Lifecycle {} where
  locked := fun _ => iff_of_false nofun nofun
  installed := fun hne => absurd rfl hne
  publishing := nofun
  uninstalling := fun _ _ => rfl
  removed := nofun
  listed := nofun
  live := nofun
  dropping := nofun
  nodup := List.nodup_nil

theorem Lifecycle.of_eq (h : Lifecycle c) (hlisteners : c'.listeners = c.listeners)
    (hlifecycle : c'.lifecycle = c.lifecycle) (hinstalled : c'.installed = c.installed)
    (hfailed : c'.uninstallFailed = c.uninstallFailed)
    (hactive : ∀ id, (c'.streams id).active = (c.streams id).active)
    (hthread : ∀ id, (c'.streams id).thread = (c.streams id).thread)
    (hcontrol : ∀ t, (c'.threads t).control = (c.threads t).control) : Lifecycle c' where
  locked := fun t => by rw [hcontrol, hlifecycle]; exact h.locked t
  installed := by rw [hlisteners, hinstalled]; exact h.installed
  publishing := fun t event => by rw [hcontrol, hinstalled]; exact h.publishing t event
  uninstalling := fun t => by rw [hcontrol, hlisteners]; exact h.uninstalling t
  removed := by rw [hlifecycle, hlisteners, hinstalled, hfailed]; exact h.removed
  listed := fun id => by rw [hactive, hlisteners]; exact h.listed id
  live := fun id => by rw [hlisteners, hactive, hthread, hcontrol]; exact h.live id
  dropping := fun t id => by rw [hcontrol, hactive]; exact h.dropping t id
  nodup := by rw [hlisteners]; exact h.nodup

/-- What the thread drops is not in the registry if it stops to drop it. -/
structure Leaves (c : Console) (old new : Control) : Prop where
  publishing : ∀ event, new = .publish event → c.installed = true
  uninstalling : new = .uninstall → c.listeners = []
  dropping : ∀ id, new.dropped = some id → (c.streams id).active = false
  left : ∀ id ∈ c.listeners, old.dropped = some id → new.dropped = some id

theorem Lifecycle.setControl {lifecycle : Option Nat} {old new : Control} (h : Lifecycle c)
    (hold : (c.threads t).control = old) (hleaves : Leaves c old new)
    (hlocked : ∀ t', (if t' = t then new else (c.threads t').control).locked = true ↔
      lifecycle = some t')
    (hremoved : lifecycle = none → c.listeners = [] → c.installed = true →
      c.uninstallFailed = true) :
    Lifecycle ({ c with lifecycle }.setControl t new) := by
  have hcontrol : ∀ t', (({ c with lifecycle }.setControl t new).threads t').control =
      if t' = t then new else (c.threads t').control := fun t' => control_setControl t t' new
  constructor
  · intro t'
    rw [hcontrol]
    exact hlocked t'
  · exact h.installed
  · intro t' event hpublish
    rw [hcontrol] at hpublish
    split at hpublish
    · exact hleaves.publishing event hpublish
    · exact h.publishing t' event hpublish
  · intro t' huninstall
    rw [hcontrol] at huninstall
    split at huninstall
    · exact hleaves.uninstalling huninstall
    · exact h.uninstalling t' huninstall
  · exact hremoved
  · exact h.listed
  · intro id hid
    rcases h.live id hid with hactive | hdropped
    · exact .inl hactive
    · refine .inr ((congrArg Control.dropped (hcontrol _)).trans ?_)
      split
      next heq =>
        refine hleaves.left id hid ?_
        rw [← hold, ← heq]
        exact hdropped
      next => exact hdropped
  · intro t' id hdropped
    rw [hcontrol] at hdropped
    split at hdropped
    · exact hleaves.dropping id hdropped
    · exact h.dropping t' id hdropped
  · exact h.nodup

/-- The thread goes on, and neither takes the lock nor gives it back. -/
theorem Lifecycle.goOn {old new : Control} (h : Lifecycle c) (hold : (c.threads t).control = old)
    (hleaves : Leaves c old new) (hlocked : new.locked = old.locked) :
    Lifecycle (c.setControl t new) := by
  refine h.setControl hold hleaves (fun t' => ?_) h.removed
  rw [← h.locked t']
  split
  next heq => rw [hlocked, ← hold, heq]
  next => exact Iff.rfl

theorem Lifecycle.lock {old new : Control} (h : Lifecycle c) (hold : (c.threads t).control = old)
    (hleaves : Leaves c old new) (hfree : c.lifecycle = none) (hnew : new.locked = true) :
    Lifecycle ({ c with lifecycle := some t }.setControl t new) := by
  refine h.setControl hold hleaves (fun t' => ?_) nofun
  split
  next heq => exact iff_of_true hnew (congrArg some heq.symm)
  next hne =>
    refine iff_of_false (fun hlocked => ?_) fun heq => hne (Option.some.inj heq).symm
    exact absurd (hfree.symm.trans ((h.locked t').mp hlocked)) nofun

theorem Lifecycle.unlock {old new : Control} (h : Lifecycle c) (hold : (c.threads t).control = old)
    (hlocked : old.locked = true) (hleaves : Leaves c old new) (hnew : new.locked = false)
    (hremoved : c.listeners = [] → c.installed = true → c.uninstallFailed = true) :
    Lifecycle ({ c with lifecycle := none }.setControl t new) := by
  have hmine : c.lifecycle = some t := (h.locked t).mp (hold ▸ hlocked)
  refine h.setControl hold hleaves (fun t' => ?_) fun _ => hremoved
  refine iff_of_false ?_ nofun
  split
  · exact Bool.eq_false_iff.mp hnew
  next hne =>
    intro hother
    exact hne (Option.some.inj (hmine.symm.trans ((h.locked t').mp hother))).symm

theorem Lifecycle.unique {t' : Nat} (h : Lifecycle c)
    (hlocked : (c.threads t).control.locked = true)
    (hlocked' : (c.threads t').control.locked = true) : t' = t := by
  have hmine := (h.locked t).mp hlocked
  have hother := (h.locked t').mp hlocked'
  exact Option.some.inj (hother.symm.trans hmine)

/-- While a thread has the lock for something else, no thread removes the handler. -/
theorem Lifecycle.not_uninstalling {old : Control} (h : Lifecycle c)
    (hcontrol : (c.threads t).control = old) (hlocked : old.locked = true)
    (hne : old ≠ .uninstall) (t' : Nat) : (c.threads t').control ≠ .uninstall := by
  intro huninstall
  have heq : t' = t := h.unique (by rwa [hcontrol]) (by rw [huninstall]; rfl)
  rw [heq, hcontrol] at huninstall
  exact hne huninstall

theorem Lifecycle.remove (h : Lifecycle c) (hcontrol : (c.threads t).control = .unregister id) :
    Lifecycle { c with listeners := c.listeners.filter fun id' => id' ≠ id } := by
  have hmine : c.lifecycle = some t := (h.locked t).mp (by rw [hcontrol]; rfl)
  have hsub : ∀ {id'}, id' ∈ c.listeners.filter (fun id' => id' ≠ id) → id' ∈ c.listeners :=
    fun hid' => List.mem_of_mem_filter hid'
  exact { h with
    installed := fun hne => h.installed fun hnil => hne (by rw [hnil]; rfl)
    uninstalling := fun t' huninstall =>
      absurd huninstall (h.not_uninstalling hcontrol rfl nofun t')
    removed := fun hnone => absurd (hmine.symm.trans hnone) nofun
    listed := by
      intro id' hactive
      refine List.mem_filter.mpr ⟨h.listed id' hactive, decide_eq_true ?_⟩
      rintro rfl
      have hinactive := h.dropping t _ (congrArg Control.dropped hcontrol)
      exact absurd (hinactive.symm.trans hactive) nofun
    live := fun id' hid' => h.live id' (hsub hid')
    nodup := h.nodup.filter _ }

theorem Lifecycle.publish {event : Nat} (h : Lifecycle c) (hknown : Known c)
    (hcontrol : (c.threads t).control = .publish event) :
    Lifecycle { c.setStream c.nextStream { event, thread := t, active := true } with
      nextStream := c.nextStream + 1
      listeners := c.listeners ++ [c.nextStream] } := by
  have hmine : c.lifecycle = some t := (h.locked t).mp (by rw [hcontrol]; rfl)
  have hold : ∀ {id}, id ∈ c.listeners → (c.setStream c.nextStream
      { event, thread := t, active := true }).streams id = c.streams id :=
    fun hid => streams_setStream_of_ne (Nat.ne_of_lt (hknown.listeners _ hid))
  exact { h with
    installed := fun _ => h.publishing t event hcontrol
    uninstalling := fun t' huninstall =>
      absurd huninstall (h.not_uninstalling hcontrol rfl nofun t')
    removed := fun hnone => absurd (hmine.symm.trans hnone) nofun
    listed := by
      intro id hactive
      by_cases heq : id = c.nextStream
      · exact List.mem_append.mpr (.inr (List.mem_singleton.mpr heq))
      · have hactive' : (c.streams id).active = true := by
          rwa [show _ = _ from streams_setStream_of_ne heq] at hactive
        exact List.mem_append.mpr (.inl (h.listed id hactive'))
    live := by
      intro id hid
      rcases List.mem_append.mp hid with hmem | hnew
      · rw [show _ = _ from hold hmem]
        exact h.live id hmem
      · rw [List.mem_singleton.mp hnew]
        exact .inl (congrArg Stream.active streams_setStream_self)
    dropping := by
      intro t' id hdropped
      have hlt := hknown.controls t' id (Control.stream_of_dropped hdropped)
      rw [show _ = _ from streams_setStream_of_ne (Nat.ne_of_lt hlt)]
      exact h.dropping t' id hdropped
    nodup := by
      refine List.nodup_append.mpr ⟨h.nodup, by simp, ?_⟩
      intro id hid id' hid' heq
      have hlt := hknown.listeners id hid
      rw [heq, List.mem_singleton.mp hid'] at hlt
      exact Nat.lt_irrefl _ hlt }

/-! ## Steps -/

theorem Leaves.of_plain {old new : Control} (hold : old.dropped = none) (hnew : new.dropped = none)
    (hpublish : ∀ event, new ≠ .publish event) (huninstall : new ≠ .uninstall) :
    Leaves c old new where
  publishing := fun event heq => absurd heq (hpublish event)
  uninstalling := fun heq => absurd heq huninstall
  dropping := fun _ heq => absurd (hnew.symm.trans heq) nofun
  left := fun _ _ heq => absurd (hold.symm.trans heq) nofun

theorem Leaves.of_dropped {old new : Control} (hold : old.dropped = some id)
    (hnew : new.dropped = some id) (hinactive : (c.streams id).active = false)
    (hpublish : ∀ event, new ≠ .publish event) (huninstall : new ≠ .uninstall) :
    Leaves c old new where
  publishing := fun event heq => absurd heq (hpublish event)
  uninstalling := fun heq => absurd heq huninstall
  dropping := by
    intro id' heq
    rw [← Option.some.inj (hnew.symm.trans heq)]
    exact hinactive
  left := fun id' _ heq => by rw [hnew, ← hold, heq]

theorem Lifecycle.setStream {s : Stream} (h : Lifecycle c)
    (hactive : s.active = (c.streams id).active) (hthread : s.thread = (c.streams id).thread) :
    Lifecycle (c.setStream id s) :=
  h.of_eq rfl rfl rfl rfl (apply_update_of_eq Stream.active hactive)
    (apply_update_of_eq Stream.thread hthread) fun _ => rfl

theorem Lifecycle.setHandler {new : Handler} (h : Lifecycle c) : Lifecycle (c.setHandler i new) :=
  h.of_eq rfl rfl rfl rfl (fun _ => rfl) (fun _ => rfl) fun _ => rfl

theorem Lifecycle.notify {next : Notify} {generation : Nat} {left : List Nat} {handled : Bool}
    (h : Lifecycle c) : Lifecycle (c.notify i next id generation left handled) := by
  have hset : ∀ s : Stream, s.active = (c.streams id).active → s.thread = (c.streams id).thread →
      Lifecycle (c.setStream id s) := fun _ => h.setStream
  unfold Console.notify
  cases next with
  | loadActive => exact h.setHandler
  | loadClosed => exact h.setHandler
  | bump =>
      exact (hset { c.streams id with
        generation := (c.streams id).generation + 1 } rfl rfl).setHandler
  | swap =>
      dsimp only
      split
      · exact h.setHandler
      · exact (hset { c.streams id with
          wakeScheduled := true, holder := some (.handler i) } rfl rfl).setHandler
  | queue =>
      dsimp only
      split
      · exact (hset { c.streams id with holder := some (.refused i) } rfl rfl).setHandler
      · have hqueued := hset { c.streams id with holder := some .queued } rfl rfl
        have hsame : Lifecycle ((c.setStream id { c.streams id with
            holder := some .queued }).enqueue (c.streams id).thread id) :=
          hqueued.of_eq rfl rfl rfl rfl (fun _ => rfl) (fun _ => rfl)
            (apply_update_of_eq Thread.control rfl)
        exact hsame.setHandler
  | reset =>
      exact (hset { c.streams id with wakeScheduled := false, holder := none } rfl rfl).setHandler
  | reloadActive => exact h.setHandler
  | reloadClosed =>
      dsimp only
      split
      · exact h.setHandler
      · exact h.of_eq rfl rfl rfl rfl (fun _ => rfl) (fun _ => rfl) fun _ => rfl

theorem Lifecycle.access (h : Lifecycle c) (hknown : Known c) (hs : Access c t c') :
    Lifecycle c' := by
  cases hs with
  | @storeWaker id waker hcontrol =>
      have hset : Lifecycle (c.setStream id { c.streams id with waker := some waker }) :=
        h.setStream rfl rfl
      exact hset.goOn hcontrol (.of_plain rfl rfl nofun nofun) rfl
  | @see id waker hcontrol _ =>
      have hset : Lifecycle (c.setStream id { (c.streams id).see with waker := none }) :=
        h.setStream rfl rfl
      exact hset.goOn hcontrol (.of_plain rfl rfl nofun nofun) rfl
  | @pend id waker hcontrol _ =>
      have hset : Lifecycle (c.setStream id { c.streams id with awaiting := some waker }) :=
        h.setStream rfl rfl
      exact hset.goOn hcontrol (.of_plain rfl rfl nofun nofun) rfl
  | @clear id hcontrol =>
      have hset : Lifecycle (c.setStream id { c.streams id with
          wakeScheduled := false, holder := none, served := (c.streams id).generation }) :=
        h.setStream rfl rfl
      exact hset.goOn hcontrol (.of_plain rfl rfl nofun nofun) rfl
  | active hcontrol _ => exact h.goOn hcontrol (.of_plain rfl rfl nofun nofun) rfl
  | inactive hcontrol _ => exact h.goOn hcontrol (.of_plain rfl rfl nofun nofun) rfl
  | @wake id hcontrol =>
      have hset : Lifecycle (c.setStream id { c.streams id with
          waker := none, awaiting := none }) := h.setStream rfl rfl
      have hwoken : Lifecycle ((c.setStream id { c.streams id with
          waker := none, awaiting := none }).setControl t .idle) :=
        hset.goOn hcontrol (.of_plain rfl rfl nofun nofun) rfl
      exact hwoken.of_eq rfl rfl rfl rfl (fun _ => rfl) (fun _ => rfl) fun _ => rfl
  | @forgetWaker id hcontrol =>
      have hinactive := h.dropping t id (congrArg Control.dropped hcontrol)
      have hset : Lifecycle (c.setStream id { c.streams id with
          waker := none, awaiting := none }) := h.setStream rfl rfl
      refine hset.goOn hcontrol (.of_dropped rfl rfl ?_ nofun nofun) rfl
      rwa [streams_setStream_self]
  | @lockToUnregister id hcontrol hfree =>
      have hinactive := h.dropping t id (congrArg Control.dropped hcontrol)
      exact h.lock hcontrol (.of_dropped rfl rfl hinactive nofun nofun) hfree rfl
  | @unregisterLast id hcontrol hlast =>
      have hremove := h.remove hcontrol
      rw [hlast] at hremove
      exact hremove.goOn hcontrol
        { publishing := nofun, uninstalling := fun _ => rfl, dropping := nofun, left := nofun } rfl
  | @unregister id hcontrol hrest =>
      have hremove := h.remove hcontrol
      refine hremove.unlock hcontrol rfl ⟨nofun, nofun, nofun, fun id' hid' heq => ?_⟩ rfl
        fun hnil => absurd hnil hrest
      have hne := of_decide_eq_true (List.mem_filter.mp hid').2
      exact absurd (Option.some.inj heq).symm hne
  | @uninstall ok hcontrol _ =>
      have hnil := h.uninstalling t hcontrol
      have hmine : c.lifecycle = some t := (h.locked t).mp (by rw [hcontrol]; rfl)
      have hset : Lifecycle { c with installed := !ok, uninstallFailed := !ok } :=
        { h with
          installed := fun hne => absurd hnil hne
          publishing := by
            intro t' event hpublish
            have heq : t' = t := h.unique (by rw [hcontrol]; rfl) (by rw [hpublish]; rfl)
            rw [heq, hcontrol] at hpublish
            exact absurd hpublish nofun
          removed := fun hnone => absurd (hmine.symm.trans hnone) nofun }
      exact hset.unlock hcontrol rfl (.of_plain rfl rfl nofun nofun) rfl fun _ hinstalled => hinstalled
  | uninstalled hcontrol hinstalled =>
      refine h.unlock hcontrol rfl (.of_plain rfl rfl nofun nofun) rfl fun _ hnew => ?_
      exact absurd (hinstalled.symm.trans hnew) nofun
  | lockToRegister hcontrol hfree =>
      exact h.lock hcontrol (.of_plain rfl rfl nofun nofun) hfree rfl
  | installed hcontrol hinstalled =>
      exact h.goOn hcontrol ⟨fun _ _ => hinstalled, nofun, nofun, nofun⟩ rfl
  | install hcontrol _ =>
      have hmine : c.lifecycle = some t := (h.locked t).mp (by rw [hcontrol]; rfl)
      have hset : Lifecycle { c with installed := true } :=
        { h with
          installed := fun _ => rfl
          publishing := fun _ _ _ => rfl
          removed := fun hnone => absurd (hmine.symm.trans hnone) nofun }
      exact hset.goOn hcontrol ⟨fun _ _ => rfl, nofun, nofun, nofun⟩ rfl
  | refuse hcontrol hinstalled =>
      refine h.unlock hcontrol rfl (.of_plain rfl rfl nofun nofun) rfl fun _ hnew => ?_
      exact absurd (hinstalled.symm.trans hnew) nofun
  | publish hcontrol =>
      refine (h.publish hknown hcontrol).unlock hcontrol rfl (.of_plain rfl rfl nofun nofun) rfl ?_
      exact fun hnil => absurd hnil (List.append_ne_nil_of_right_ne_nil _ nofun)

/-- The stream is no longer live, and its thread goes on to unregister it. -/
theorem Lifecycle.drop (h : Lifecycle c) (hready : c.Ready id) : Lifecycle (c.drop id) := by
  have hcontrol : ∀ t', ((c.drop id).threads t').control =
      if t' = (c.streams id).thread then .forgetWaker id else (c.threads t').control :=
    fun t' => control_setControl _ t' _
  have hthread : ∀ id', ((c.drop id).streams id').thread = (c.streams id').thread :=
    apply_update_of_eq Stream.thread rfl
  have hne : ∀ {id'}, id' ≠ id → (c.drop id).streams id' = c.streams id' :=
    fun hne => update_of_ne hne ..
  have hself : ((c.drop id).streams id).active = false := by
    have hset : (c.drop id).streams id = { c.streams id with active := false } := update_self ..
    rw [hset]
  constructor
  · intro t'
    rw [hcontrol]
    refine Iff.trans ?_ (h.locked t')
    split
    next heq =>
      rw [heq, hready.2]
      exact Iff.rfl
    next => exact Iff.rfl
  · exact h.installed
  · intro t' event hpublish
    rw [hcontrol] at hpublish
    split at hpublish
    · cases hpublish
    · exact h.publishing t' event hpublish
  · intro t' huninstall
    rw [hcontrol] at huninstall
    split at huninstall
    · cases huninstall
    · exact h.uninstalling t' huninstall
  · exact h.removed
  · intro id' hactive
    by_cases heq : id' = id
    · subst heq
      exact absurd (hself.symm.trans hactive) Bool.false_ne_true
    · rw [hne heq] at hactive
      exact h.listed id' hactive
  · intro id' hid'
    rw [hthread, hcontrol]
    by_cases heq : id' = id
    · subst heq
      rw [if_pos rfl]
      exact .inr rfl
    · rw [hne heq]
      rcases h.live id' hid' with hactive | hdropped
      · exact .inl hactive
      · split
        next hsame =>
          rw [hsame, hready.2] at hdropped
          simp [Control.dropped] at hdropped
        next => exact .inr hdropped
  · intro t' id' hdropped
    rw [hcontrol] at hdropped
    by_cases heq : id' = id
    · subst heq
      exact hself
    · rw [hne heq]
      split at hdropped
      · exact absurd (Option.some.inj hdropped).symm heq
      · exact h.dropping t' id' hdropped
  · exact h.nodup

theorem Lifecycle.step {a : Action} (h : Lifecycle c) (hknown : Known c)
    (hs : c.step a = some c') : Lifecycle c' := by
  cases a with
  | call event =>
      obtain ⟨-, hs⟩ := Option.ite_none_right_eq_some.mp hs
      obtain rfl := Option.some.inj hs
      exact h.of_eq rfl rfl rfl rfl (fun _ => rfl) (fun _ => rfl) fun _ => rfl
  | handler i =>
      obtain ⟨h', -, hs⟩ := Option.bind_eq_some_iff.mp hs
      cases h' with
      | called event =>
          obtain rfl := Option.some.inj hs
          exact h.setHandler
      | dispatching left handled =>
          cases left with
          | nil =>
              obtain rfl := Option.some.inj hs
              exact h.setHandler
          | cons id left =>
              obtain rfl := Option.some.inj hs
              exact h.setHandler
      | notifying next id generation left handled =>
          obtain rfl := Option.some.inj hs
          exact h.notify
      | returned handled => simp [Console.ctrlHandler] at hs
  | thread t ok => exact h.access hknown (access_of_threadStep hs)
  | newStream t event =>
      obtain ⟨hidle, hs⟩ := Option.ite_none_right_eq_some.mp hs
      obtain rfl := Option.some.inj hs
      exact h.goOn hidle (.of_plain rfl rfl (by simp) (by simp)) rfl
  | poll id waker =>
      obtain ⟨hready, hs⟩ := Option.ite_none_right_eq_some.mp hs
      obtain rfl := Option.some.inj hs
      unfold Console.poll
      dsimp only
      split
      · exact h.setStream rfl rfl
      · have hset : Lifecycle (c.setStream id { c.streams id with awaiting := none }) :=
          h.setStream rfl rfl
        exact hset.goOn hready.2 (.of_plain rfl rfl (by simp) (by simp)) rfl
  | drop id =>
      obtain ⟨hready, hs⟩ := Option.ite_none_right_eq_some.mp hs
      obtain rfl := Option.some.inj hs
      exact h.drop hready
  | run t =>
      unfold Console.step at hs
      dsimp only at hs
      split at hs
      next => cases hs
      next id queue _ =>
        obtain ⟨⟨hidle, -⟩, hs⟩ := Option.ite_none_right_eq_some.mp hs
        obtain rfl := Option.some.inj hs
        have hset : Lifecycle (c.setStream id { c.streams id with holder := some .running }) :=
          h.setStream rfl rfl
        have hgo : Lifecycle ((c.setStream id { c.streams id with
            holder := some .running }).setControl t (.clear id)) :=
          hset.goOn hidle (.of_plain rfl rfl (by simp) (by simp)) rfl
        refine hgo.of_eq rfl rfl rfl rfl (fun _ => rfl) (fun _ => rfl) fun t' => ?_
        rw [control_setControl]
        split
        next heq => rw [heq, threads_setThread_self]
        next hne => rw [threads_setThread_of_ne hne]
  | close t =>
      obtain ⟨-, hs⟩ := Option.ite_none_right_eq_some.mp hs
      obtain rfl := Option.some.inj hs
      exact h.of_eq rfl rfl rfl rfl (fun _ => rfl) (fun _ => rfl)
        (apply_update_of_eq Thread.control rfl)

/-! ## Every run -/

structure Sound (c : Console) : Prop where
  known : Known c
  wakes : Wakes c
  reports : Reports c
  deliveries : Deliveries c
  answers : Answers c
  lifecycle : Lifecycle c

theorem Sound.step {a : Action} (h : Sound c) (hs : c.step a = some c') : Sound c' where
  known := h.known.step h.wakes hs
  wakes := h.wakes.step h.known hs
  reports := h.reports.step h.known h.wakes hs
  deliveries := h.deliveries.step h.known h.wakes hs
  answers := h.answers.step h.known hs
  lifecycle := h.lifecycle.step h.known hs

theorem sound_of_reachable (hreach : c.Reachable) : Sound c :=
  Transition.Reachable.invariant Sound ⟨.init, .init, .init, .init, .init, .init⟩
    (fun _ _ _ h _ hs => h.step hs) hreach

/-- The calls of the handler have returned, and the threads have nothing to do. -/
structure Quiet (c : Console) : Prop where
  handlers : ∀ i h, c.handlers i = some h → ∃ handled, h = .returned handled
  idle : ∀ t, (c.threads t).control = .idle
  queue : ∀ t, (c.threads t).queue = []

/-- Nobody has a flag in a quiet console, but for the closures that closed threads have dropped. -/
theorem Sound.flag_of_quiet (h : Sound c) (hquiet : Quiet c) (hopen : c.isClosed id = false) :
    (c.streams id).wakeScheduled = false := by
  refine Bool.eq_false_iff.mpr fun hflag => ?_
  have hnone : ∀ i, (c.handlers i).bind (Handler.holder i) = none := by
    intro i
    refine Option.bind_eq_none_iff.mpr fun h' hi => ?_
    obtain ⟨handled, rfl⟩ := hquiet.handlers i h' hi
    rfl
  obtain ⟨holder, hholder⟩ := Option.isSome_iff_exists.mp ((h.wakes.flag id).symm.trans hflag)
  have hheld := h.wakes.held id holder hholder
  cases holder with
  | handler i => exact absurd ((hnone i).symm.trans hheld) (by simp)
  | refused i => exact absurd ((hnone i).symm.trans hheld.1) (by simp)
  | queued =>
      rcases hheld with hclosed | hmem
      · exact absurd (hopen.symm.trans hclosed) Bool.false_ne_true
      · rw [hquiet.queue] at hmem
        exact absurd hmem List.not_mem_nil
  | running => exact absurd ((hquiet.idle _).symm.trans hheld) (by simp)

/-- A stream that waits has stored its waker, and a wake is on its way once an event has come.  A
call of the handler answers that an event was handled exactly if it has reported it for a stream,
and then a closure begins after the event, unless the thread of the stream closes.  A closure that
wakes a stream which waits wakes its last waker.  When all calls have returned and the threads are
idle, every stream that waits has seen all events, and the closures have begun for all reports. -/
theorem events_of_reachable (hreach : c.Reachable) :
    (∀ id waker, (c.streams id).awaiting = some waker → (c.streams id).waker = some waker ∧
      ((c.streams id).isUnseen = true → (c.streams id).active = true → c.isClosed id = false →
        c.Coming id)) ∧
      (∀ id, (c.streams id).wakeScheduled = true → ∃ holder, c.Held id holder) ∧
      (∀ t, (c.threads t).queue.Nodup) ∧
      (∀ i handled, c.handlers i = some (.returned handled) →
        (handled = true ↔ ∃ report ∈ c.reported, report.handler = i)) ∧
      (∀ report ∈ c.reported, c.Justified report.id report.generation) ∧
      (∀ t ok id waker c', (c.threads t).control = .wake id →
        (c.streams id).awaiting = some waker → c.step (.thread t ok) = some c' →
        c'.woken = c.woken ++ [(id, waker)] ∧ (c'.streams id).awaiting = none) ∧
      (c.Quiet →
        (∀ id, (c.streams id).awaiting ≠ none → (c.streams id).active = true →
          c.isClosed id = false → (c.streams id).generation = (c.streams id).lastSeen) ∧
        ∀ report ∈ c.reported, c.isClosed report.id = false →
          report.generation ≤ (c.streams report.id).served) := by
  have h := sound_of_reachable hreach
  refine ⟨?_, ?_, h.wakes.nodup, ?_, h.reports.reported, ?_, fun hquiet => ⟨?_, ?_⟩⟩
  · intro id waker hawaiting
    exact ⟨h.deliveries.stored id waker hawaiting, h.deliveries.covered id waker hawaiting⟩
  · intro id hflag
    obtain ⟨holder, hholder⟩ := Option.isSome_iff_exists.mp ((h.wakes.flag id).symm.trans hflag)
    exact ⟨holder, h.wakes.held id holder hholder⟩
  · intro i handled hi
    have hanswer := h.answers i
    rw [hi] at hanswer
    have heq : handled = c.reported.any fun report => report.handler = i := hanswer
    rw [heq, List.any_eq_true]
    simp only [decide_eq_true_eq]
  · intro t ok id waker c' hcontrol hawaiting hstep
    have hstored := h.deliveries.stored id waker hawaiting
    simp only [Console.step, Console.threadStep, hcontrol, Option.some.injEq] at hstep
    subst hstep
    simp [Console.setControl, Console.setThread, Console.setStream, hstored, update]
  · intro id hne hactive hopen
    obtain ⟨waker, hawaiting⟩ := Option.ne_none_iff_exists'.mp hne
    by_contra hunseen
    have hcoming := h.deliveries.covered id waker hawaiting (bne_iff_ne.mpr hunseen) hactive hopen
    rcases hcoming with hflag | hswap | hwaking
    · exact absurd ((h.flag_of_quiet hquiet hopen).symm.trans hflag) Bool.false_ne_true
    · obtain ⟨i, generation, left, handled, hi⟩ := hswap
      obtain ⟨handled', heq⟩ := hquiet.handlers i _ hi
      cases heq
    · rw [hquiet.idle] at hwaking
      simp [Control.waking] at hwaking
  · intro report hreport hopen
    rcases (h.reports.reported report hreport).wake with hserved | hflag | hclosed
    · exact hserved
    · exact absurd ((h.flag_of_quiet hquiet hopen).symm.trans hflag) Bool.false_ne_true
    · exact absurd (hopen.symm.trans hclosed) Bool.false_ne_true

/-- A thread has the lock of the lifecycle exactly while it registers or unregisters a stream.
The handler is installed while a stream is in the registry, and before one is published; the
registry has every live stream once, and besides those only streams that are being dropped.
Once the lock is free again and no stream is left, the handler is removed, unless Windows has
refused to remove it. -/
theorem registry_of_reachable (hreach : c.Reachable) :
    (∀ t, (c.threads t).control.locked = true ↔ c.lifecycle = some t) ∧
      (c.listeners ≠ [] → c.installed = true) ∧
      (∀ t event, (c.threads t).control = .publish event → c.installed = true) ∧
      c.listeners.Nodup ∧
      (∀ id, (c.streams id).active = true → id ∈ c.listeners) ∧
      (∀ id ∈ c.listeners, (c.streams id).active = true ∨
        (c.threads (c.streams id).thread).control.dropped = some id) ∧
      (c.lifecycle = none → c.listeners = [] → c.installed = true → c.uninstallFailed = true) := by
  have h := (sound_of_reachable hreach).lifecycle
  exact ⟨h.locked, h.installed, h.publishing, h.nodup, h.listed, h.live, h.removed⟩

/-- Two events for a stream that waits: the second finds the flag set, one closure wakes the
stream, and both are handled. -/
theorem events_of_reachable_coalesced :
    ∃ c : Console, c.Reachable ∧ c.woken.length = 1 ∧
      (∃ report ∈ c.reported, report.handler = 0) ∧ ∃ report ∈ c.reported, report.handler = 1 := by
  obtain ⟨c, hreach, hc⟩ := Transition.Reachable.exists_of_run step (fun _ _ => True) {}
    ([.newStream 0 0, .thread 0 true, .thread 0 true, .thread 0 true, .poll 0 5,
      .thread 0 true, .thread 0 true, .call 0, .call 0] ++
      List.replicate 6 (.handler 0) ++ List.replicate 9 (.handler 1) ++
      List.replicate 4 (.handler 0) ++ [.run 0, .thread 0 true, .thread 0 true, .thread 0 true])
    (fun c => c.handlers 0 = some (.returned true) ∧ c.handlers 1 = some (.returned true) ∧
      c.woken.length = 1) (fun _ _ _ => trivial) (by decide +kernel)
  obtain ⟨hfirst, hsecond, hwoken⟩ := of_decide_eq_true hc
  obtain ⟨-, -, -, hanswer, -⟩ := events_of_reachable hreach
  exact ⟨c, hreach, hwoken, (hanswer 0 true hfirst).mp rfl, (hanswer 1 true hsecond).mp rfl⟩

/-- The last stream is dropped, and the handler is removed. -/
theorem registry_of_reachable_removed :
    ∃ c : Console, c.Reachable ∧ c.installed = false ∧ ∀ id, (c.streams id).active = false := by
  obtain ⟨c, hreach, hc⟩ := Transition.Reachable.exists_of_run step (fun _ _ => True) {}
    [.newStream 0 0, .thread 0 true, .thread 0 true, .thread 0 true, .drop 0, .thread 0 true,
      .thread 0 true, .thread 0 true, .thread 0 true]
    (fun c => c.listeners = [] ∧ c.lifecycle = none ∧ c.uninstallFailed = false)
    (fun _ _ _ => trivial) (by decide +kernel)
  obtain ⟨hnil, hfree, hremoved⟩ := of_decide_eq_true hc
  obtain ⟨-, -, -, -, hlisted, -, huninstalled⟩ := registry_of_reachable hreach
  refine ⟨c, hreach, Bool.eq_false_iff.mpr fun hinstalled => ?_, fun id =>
    Bool.eq_false_iff.mpr fun hactive => ?_⟩
  · exact absurd (hremoved.symm.trans (huninstalled hfree hnil hinstalled)) Bool.false_ne_true
  · exact absurd (hnil ▸ hlisted id hactive) List.not_mem_nil

end Console

end Runite.Signal.Windows
