import Runite.Signal.Windows

/-!
# Who wakes a stream

`wake_scheduled` of a stream is set by one handler at a time, and is handed on: from the handler
to the closure that it queues, and from the closure back to nobody when it begins.
-/

namespace Runite.Signal.Windows

open Function

/-- The handler has set `wake_scheduled` of the stream, and has neither queued the closure nor
taken the flag back. -/
def Handler.holder (i : Nat) : Handler → Option (Nat × Holder)
  | .notifying .queue id _ _ _ => some (id, .handler i)
  | .notifying .reset id _ _ _ => some (id, .refused i)
  | _ => none

/-- The streams that the handler has behind an `Arc`. -/
def Handler.streams : Handler → List Nat
  | .dispatching left _ => left
  | .notifying _ id _ left _ => id :: left
  | .called _ | .returned _ => []

def Control.stream : Control → Option Nat
  | .storeWaker id _ | .lookAgain id _ | .clear id | .loadActive id | .wake id | .forgetWaker id
  | .lockToUnregister id | .unregister id => some id
  | _ => none

def Control.dropped : Control → Option Nat
  | .forgetWaker id | .lockToUnregister id | .unregister id => some id
  | _ => none

theorem apply_update_of_eq {β γ : Type} (f : β → γ) {g : Nat → β} {i : Nat} {v : β}
    (h : f v = f (g i)) (j : Nat) : f (update g i v j) = f (g j) := by
  by_cases heq : j = i
  · rw [heq, update_self, h]
  · rw [update_of_ne heq]

namespace Console

variable {c c' : Console} {i t id : Nat}

inductive Access (c : Console) (t : Nat) : Console → Prop
  | storeWaker {id : Nat} {waker : Waker} (hcontrol : (c.threads t).control = .storeWaker id waker) :
      Access c t ((c.setStream id { c.streams id with waker := some waker }).setControl t
        (.lookAgain id waker))
  | see {id : Nat} {waker : Waker} (hcontrol : (c.threads t).control = .lookAgain id waker)
      (hunseen : (c.streams id).isUnseen = true) :
      Access c t ((c.setStream id { (c.streams id).see with waker := none }).setControl t .idle)
  | pend {id : Nat} {waker : Waker} (hcontrol : (c.threads t).control = .lookAgain id waker)
      (hseen : (c.streams id).isUnseen = false) :
      Access c t ((c.setStream id { c.streams id with awaiting := some waker }).setControl t .idle)
  | clear {id : Nat} (hcontrol : (c.threads t).control = .clear id) :
      Access c t ((c.setStream id { c.streams id with
        wakeScheduled := false, holder := none
        served := (c.streams id).generation }).setControl t (.loadActive id))
  | active {id : Nat} (hcontrol : (c.threads t).control = .loadActive id)
      (hactive : (c.streams id).active = true) : Access c t (c.setControl t (.wake id))
  | inactive {id : Nat} (hcontrol : (c.threads t).control = .loadActive id)
      (hactive : (c.streams id).active = false) : Access c t (c.setControl t .idle)
  | wake {id : Nat} (hcontrol : (c.threads t).control = .wake id) :
      Access c t ({ c.setStream id { c.streams id with waker := none, awaiting := none } with
        woken := c.woken ++ ((c.streams id).waker.toList.map fun waker => (id, waker))
        }.setControl t .idle)
  | forgetWaker {id : Nat} (hcontrol : (c.threads t).control = .forgetWaker id) :
      Access c t ((c.setStream id { c.streams id with waker := none, awaiting := none }).setControl
        t (.lockToUnregister id))
  | lockToUnregister {id : Nat} (hcontrol : (c.threads t).control = .lockToUnregister id)
      (hfree : c.lifecycle = none) :
      Access c t ({ c with lifecycle := some t }.setControl t (.unregister id))
  | unregisterLast {id : Nat} (hcontrol : (c.threads t).control = .unregister id)
      (hlast : c.listeners.filter (fun id' => id' ≠ id) = []) :
      Access c t ({ c with listeners := [] }.setControl t .uninstall)
  | unregister {id : Nat} (hcontrol : (c.threads t).control = .unregister id)
      (hrest : c.listeners.filter (fun id' => id' ≠ id) ≠ []) :
      Access c t ({ c with
        listeners := c.listeners.filter fun id' => id' ≠ id
        lifecycle := none }.setControl t .idle)
  | uninstall {ok : Bool} (hcontrol : (c.threads t).control = .uninstall)
      (hinstalled : c.installed = true) :
      Access c t ({ c with
        lifecycle := none, installed := !ok, uninstallFailed := !ok }.setControl t .idle)
  | uninstalled (hcontrol : (c.threads t).control = .uninstall) (hinstalled : c.installed = false) :
      Access c t ({ c with lifecycle := none }.setControl t .idle)
  | lockToRegister {event : Nat} (hcontrol : (c.threads t).control = .lockToRegister event)
      (hfree : c.lifecycle = none) :
      Access c t ({ c with lifecycle := some t }.setControl t (.install event))
  | installed {event : Nat} (hcontrol : (c.threads t).control = .install event)
      (hinstalled : c.installed = true) : Access c t (c.setControl t (.publish event))
  | install {event : Nat} (hcontrol : (c.threads t).control = .install event)
      (hinstalled : c.installed = false) :
      Access c t ({ c with installed := true }.setControl t (.publish event))
  | refuse {event : Nat} (hcontrol : (c.threads t).control = .install event)
      (hinstalled : c.installed = false) :
      Access c t ({ c with lifecycle := none }.setControl t .idle)
  | publish {event : Nat} (hcontrol : (c.threads t).control = .publish event) :
      Access c t ({ c.setStream c.nextStream { event, thread := t, active := true } with
        nextStream := c.nextStream + 1
        listeners := c.listeners ++ [c.nextStream]
        lifecycle := none }.setControl t .idle)

theorem access_of_threadStep {ok : Bool} (hs : c.threadStep t ok = some c') : Access c t c' := by
  unfold Console.threadStep at hs
  split at hs
  next => exact absurd hs nofun
  next hcontrol =>
    obtain rfl := Option.some.inj hs
    exact .storeWaker hcontrol
  next hcontrol =>
    obtain rfl := Option.some.inj hs
    dsimp only
    split
    next hunseen => exact .see hcontrol hunseen
    next hseen => exact .pend hcontrol (Bool.eq_false_iff.mpr hseen)
  next hcontrol =>
    obtain rfl := Option.some.inj hs
    exact .clear hcontrol
  next hcontrol =>
    obtain rfl := Option.some.inj hs
    split
    next hactive => exact .active hcontrol hactive
    next hactive => exact .inactive hcontrol (Bool.eq_false_iff.mpr hactive)
  next hcontrol =>
    obtain rfl := Option.some.inj hs
    exact .wake hcontrol
  next hcontrol =>
    obtain rfl := Option.some.inj hs
    exact .forgetWaker hcontrol
  next hcontrol =>
    obtain ⟨hfree, hs⟩ := Option.ite_none_right_eq_some.mp hs
    obtain rfl := Option.some.inj hs
    exact .lockToUnregister hcontrol hfree
  next hcontrol =>
    dsimp only at hs
    split at hs
    next hlast =>
      obtain rfl := Option.some.inj hs
      rw [hlast]
      exact .unregisterLast hcontrol hlast
    next hrest =>
      obtain rfl := Option.some.inj hs
      exact .unregister hcontrol hrest
  next hcontrol =>
    dsimp only at hs
    split at hs
    next hinstalled =>
      obtain rfl := Option.some.inj hs
      exact .uninstall hcontrol hinstalled
    next hinstalled =>
      obtain rfl := Option.some.inj hs
      exact .uninstalled hcontrol (Bool.eq_false_iff.mpr hinstalled)
  next hcontrol =>
    obtain ⟨hfree, hs⟩ := Option.ite_none_right_eq_some.mp hs
    obtain rfl := Option.some.inj hs
    exact .lockToRegister hcontrol hfree
  next hcontrol =>
    split at hs
    next hinstalled =>
      obtain rfl := Option.some.inj hs
      exact .installed hcontrol hinstalled
    next hinstalled =>
      have hfree := Bool.eq_false_iff.mpr hinstalled
      split at hs
      · obtain rfl := Option.some.inj hs
        exact .install hcontrol hfree
      · obtain rfl := Option.some.inj hs
        exact .refuse hcontrol hfree
  next hcontrol =>
    obtain rfl := Option.some.inj hs
    exact .publish hcontrol

/-! ## Names -/

structure Known (c : Console) : Prop where
  streams : ∀ id, c.nextStream ≤ id → c.streams id = {}
  handlers : ∀ i, c.nextHandler ≤ i → c.handlers i = none
  listeners : ∀ id ∈ c.listeners, id < c.nextStream
  dispatched : ∀ i h, c.handlers i = some h → ∀ id ∈ h.streams, id < c.nextStream
  controls : ∀ t id, (c.threads t).control.stream = some id → id < c.nextStream
  reported : ∀ report ∈ c.reported, report.id < c.nextStream

theorem Known.init : Known {} where
  streams := fun _ _ => rfl
  handlers := fun _ _ => rfl
  listeners := nofun
  dispatched := nofun
  controls := nofun
  reported := nofun

theorem Known.lt (h : Known c) (hne : c.streams id ≠ {}) : id < c.nextStream :=
  Nat.lt_of_not_le fun hle => hne (h.streams id hle)

theorem Known.setStream {s : Stream} (h : Known c) (hid : id < c.nextStream) :
    Known (c.setStream id s) :=
  { h with
    streams := by
      intro id' hle
      have hne : id' ≠ id := fun heq => Nat.not_le.mpr hid (heq ▸ hle)
      exact (update_of_ne hne ..).trans (h.streams id' hle) }

theorem Known.setHandler {new : Handler} (h : Known c) (hi : i < c.nextHandler)
    (hnew : ∀ id ∈ new.streams, id < c.nextStream) : Known (c.setHandler i new) :=
  { h with
    handlers := by
      intro i' hle
      have hne : i' ≠ i := fun heq => Nat.not_le.mpr hi (heq ▸ hle)
      exact (update_of_ne hne ..).trans (h.handlers i' hle)
    dispatched := by
      intro i' h' hh'
      dsimp only [Console.setHandler] at hh'
      by_cases heq : i' = i
      · subst heq
        rw [update_self] at hh'
        rw [← Option.some.inj hh']
        exact hnew
      · rw [update_of_ne heq] at hh'
        exact h.dispatched i' h' hh' }

theorem Known.setThread {thread : Thread} (h : Known c)
    (hcontrol : ∀ id, thread.control.stream = some id → id < c.nextStream) :
    Known (c.setThread t thread) :=
  { h with
    controls := by
      intro t' id hid
      dsimp only [Console.setThread] at hid
      by_cases heq : t' = t
      · subst heq
        rw [update_self] at hid
        exact hcontrol id hid
      · rw [update_of_ne heq] at hid
        exact h.controls t' id hid }

theorem Known.handler_lt {h' : Handler} (h : Known c) (hi : c.handlers i = some h') :
    i < c.nextHandler := by
  refine Nat.lt_of_not_le fun hle => ?_
  rw [h.handlers i hle] at hi
  exact absurd hi nofun

theorem Known.notify {next : Notify} {generation : Nat} {left : List Nat} {handled : Bool}
    (h : Known c) (hi : c.handlers i = some (.notifying next id generation left handled)) :
    Known (c.notify i next id generation left handled) := by
  have hlt := h.handler_lt hi
  have hids : ∀ id' ∈ id :: left, id' < c.nextStream := h.dispatched i _ hi
  have hleft : ∀ id' ∈ left, id' < c.nextStream := fun id' hmem =>
    hids id' (List.mem_cons_of_mem _ hmem)
  have hid := hids id List.mem_cons_self
  cases next with
  | loadActive =>
      unfold Console.notify
      dsimp only
      split
      · exact h.setHandler hlt hids
      · exact h.setHandler hlt hleft
  | loadClosed =>
      unfold Console.notify
      dsimp only
      split
      · exact h.setHandler hlt hleft
      · exact h.setHandler hlt hids
  | bump => exact (h.setStream hid).setHandler hlt hids
  | swap =>
      unfold Console.notify
      dsimp only
      split
      · exact h.setHandler hlt hids
      · exact (h.setStream hid).setHandler hlt hids
  | queue =>
      unfold Console.notify
      dsimp only
      split
      · exact (h.setStream hid).setHandler hlt hids
      · refine Known.setHandler (Known.setThread (h.setStream hid) fun id' hid' => ?_) hlt hids
        exact h.controls _ id' hid'
  | reset => exact (h.setStream hid).setHandler hlt hleft
  | reloadActive =>
      unfold Console.notify
      dsimp only
      split
      · exact h.setHandler hlt hids
      · exact h.setHandler hlt hleft
  | reloadClosed =>
      unfold Console.notify
      dsimp only
      split
      · exact h.setHandler hlt hleft
      · have hreported : Known { c with reported := ⟨i, id, generation⟩ :: c.reported } :=
          { h with
            reported := by
              intro report hreport
              rcases List.mem_cons.mp hreport with heq | hold
              · rw [heq]
                exact hid
              · exact h.reported report hold }
        exact hreported.setHandler hlt hleft

theorem Known.ctrlHandler {h' : Handler} (h : Known c) (hi : c.handlers i = some h')
    (hs : c.ctrlHandler i h' = some c') : Known c' := by
  have hlt := h.handler_lt hi
  have hids := h.dispatched i h' hi
  cases h' with
  | called event =>
      obtain rfl := Option.some.inj hs
      exact h.setHandler hlt fun id hid => h.listeners id (List.mem_of_mem_filter hid)
  | dispatching left handled =>
      cases left with
      | nil =>
          obtain rfl := Option.some.inj hs
          exact h.setHandler hlt nofun
      | cons id left =>
          obtain rfl := Option.some.inj hs
          exact h.setHandler hlt hids
  | notifying next id generation left handled =>
      obtain rfl := Option.some.inj hs
      exact h.notify hi
  | returned handled => exact absurd hs nofun

theorem Known.setControl {control : Control} (h : Known c)
    (hcontrol : ∀ id, control.stream = some id → id < c.nextStream) :
    Known (c.setControl t control) :=
  h.setThread hcontrol

theorem Known.publish {event : Nat} (h : Known c) :
    Known { c.setStream c.nextStream { event, thread := t, active := true } with
      nextStream := c.nextStream + 1
      listeners := c.listeners ++ [c.nextStream]
      lifecycle := none } where
  streams := by
    intro id hle
    exact (update_of_ne (Nat.ne_of_gt hle) ..).trans (h.streams id (Nat.le_of_succ_le hle))
  handlers := h.handlers
  listeners := by
    intro id hid
    rcases List.mem_append.mp hid with hold | hnew
    · exact Nat.lt_succ_of_lt (h.listeners id hold)
    · rw [List.mem_singleton.mp hnew]
      exact Nat.lt_succ_self _
  dispatched := fun i h' hi id hid => Nat.lt_succ_of_lt (h.dispatched i h' hi id hid)
  controls := fun t id hid => Nat.lt_succ_of_lt (h.controls t id hid)
  reported := fun report hreport => Nat.lt_succ_of_lt (h.reported report hreport)

theorem Known.access (h : Known c) (hs : Access c t c') : Known c' := by
  have hat : ∀ {id}, (c.threads t).control.stream = some id → id < c.nextStream := h.controls t _
  cases hs with
  | storeWaker hcontrol =>
      have hid := hat (by rw [hcontrol]; rfl)
      exact (h.setStream hid).setControl fun id' heq => Option.some.inj heq ▸ hid
  | see hcontrol _ => exact (h.setStream (hat (by rw [hcontrol]; rfl))).setControl nofun
  | pend hcontrol _ => exact (h.setStream (hat (by rw [hcontrol]; rfl))).setControl nofun
  | clear hcontrol =>
      have hid := hat (by rw [hcontrol]; rfl)
      exact (h.setStream hid).setControl fun id' heq => Option.some.inj heq ▸ hid
  | active hcontrol _ =>
      have hid := hat (by rw [hcontrol]; rfl)
      exact h.setControl fun id' heq => Option.some.inj heq ▸ hid
  | inactive _ _ => exact h.setControl nofun
  | @wake id hcontrol =>
      have hset := h.setStream (hat (by rw [hcontrol]; rfl))
        (s := { c.streams id with waker := none, awaiting := none })
      exact Known.setControl { hset with } nofun
  | forgetWaker hcontrol =>
      have hid := hat (by rw [hcontrol]; rfl)
      exact (h.setStream hid).setControl fun id' heq => Option.some.inj heq ▸ hid
  | lockToUnregister hcontrol _ =>
      have hid := hat (by rw [hcontrol]; rfl)
      exact Known.setControl { h with } fun id' heq => Option.some.inj heq ▸ hid
  | unregisterLast _ hlast => exact Known.setControl { h with listeners := nofun } nofun
  | @unregister id _ _ =>
      have hlisteners : ∀ id' ∈ c.listeners.filter fun id' => id' ≠ id, id' < c.nextStream :=
        fun id' hid' => h.listeners id' (List.mem_of_mem_filter hid')
      exact Known.setControl { h with listeners := hlisteners } nofun
  | uninstall _ _ => exact Known.setControl { h with } nofun
  | uninstalled _ _ => exact Known.setControl { h with } nofun
  | lockToRegister _ _ => exact Known.setControl { h with } nofun
  | installed _ _ => exact h.setControl nofun
  | install _ _ => exact Known.setControl { h with } nofun
  | refuse _ _ => exact Known.setControl { h with } nofun
  | publish _ => exact Known.setControl h.publish nofun

/-! ## The flag -/

def Held (c : Console) (id : Nat) : Holder → Prop
  | .handler i => (c.handlers i).bind (Handler.holder i) = some (id, .handler i)
  | .refused i =>
      (c.handlers i).bind (Handler.holder i) = some (id, .refused i) ∧ c.isClosed id = true
  | .queued => c.isClosed id = true ∨ id ∈ (c.threads (c.streams id).thread).queue
  | .running => (c.threads (c.streams id).thread).control = .clear id

theorem Held.mono {holder : Holder} (h : c.Held id holder)
    (hthread : (c'.streams id).thread = (c.streams id).thread)
    (hclosed : ∀ t, (c.threads t).closed = true → (c'.threads t).closed = true)
    (hhandlers : ∀ i holder, (c.handlers i).bind (Handler.holder i) = some (id, holder) →
      (c'.handlers i).bind (Handler.holder i) = some (id, holder))
    (hqueue : ∀ t, id ∈ (c.threads t).queue →
      (c'.threads t).closed = true ∨ id ∈ (c'.threads t).queue)
    (hcontrol : ∀ t, (c.threads t).control = .clear id → (c'.threads t).control = .clear id) :
    c'.Held id holder := by
  have hclosed' : c.isClosed id = true → c'.isClosed id = true := by
    unfold isClosed
    rw [hthread]
    exact hclosed _
  cases holder with
  | handler i => exact hhandlers i _ h
  | refused i => exact ⟨hhandlers i _ h.1, hclosed' h.2⟩
  | queued =>
      rcases h with hold | hmem
      · exact .inl (hclosed' hold)
      · have hnew := hqueue _ hmem
        rw [← hthread] at hnew
        exact hnew
  | running =>
      have hnew := hcontrol _ h
      rwa [← hthread] at hnew

structure Wakes (c : Console) : Prop where
  flag : ∀ id, (c.streams id).wakeScheduled = (c.streams id).holder.isSome
  held : ∀ id holder, (c.streams id).holder = some holder → c.Held id holder
  handler : ∀ i id holder, (c.handlers i).bind (Handler.holder i) = some (id, holder) →
    (c.streams id).holder = some holder
  queued : ∀ t id, id ∈ (c.threads t).queue →
    (c.streams id).holder = some .queued ∧ (c.streams id).thread = t
  nodup : ∀ t, (c.threads t).queue.Nodup
  running : ∀ t id, (c.threads t).control = .clear id → (c.streams id).holder = some .running
  own : ∀ t id, (c.threads t).control.stream = some id → (c.streams id).thread = t

theorem Wakes.init : Wakes {} where
  flag := fun _ => rfl
  held := nofun
  handler := nofun
  queued := nofun
  nodup := fun _ => List.nodup_nil
  running := nofun
  own := nofun

/-- Nobody has the flag of the stream: neither a handler nor a queue nor a closure. -/
theorem Wakes.free (h : Wakes c) (hfree : (c.streams id).wakeScheduled = false) :
    (c.streams id).holder = none := by
  rw [h.flag] at hfree
  exact Option.not_isSome_iff_eq_none.mp (Bool.eq_false_iff.mp hfree)

theorem Wakes.setStream {s : Stream} (h : Wakes c)
    (hflag : s.wakeScheduled = (c.streams id).wakeScheduled)
    (hholder : s.holder = (c.streams id).holder) (hthread : s.thread = (c.streams id).thread) :
    Wakes (c.setStream id s) := by
  have hflags := apply_update_of_eq Stream.wakeScheduled hflag
  have hholders := apply_update_of_eq Stream.holder hholder
  have hthreads := apply_update_of_eq Stream.thread hthread
  exact {
    flag := fun id' => (hflags id').trans ((h.flag id').trans (congrArg _ (hholders id')).symm)
    held := by
      intro id' holder hholder'
      have hheld := h.held id' holder ((hholders id').symm.trans hholder')
      exact hheld.mono (hthreads id') (fun _ hold => hold) (fun _ _ hold => hold) (fun _ => .inr)
        fun _ hold => hold
    handler := fun i id' holder hi => (hholders id').trans (h.handler i id' holder hi)
    queued := by
      intro t id' hid'
      obtain ⟨hqueued, hown⟩ := h.queued t id' hid'
      exact ⟨(hholders id').trans hqueued, (hthreads id').trans hown⟩
    nodup := h.nodup
    running := fun t id' hid' => (hholders id').trans (h.running t id' hid')
    own := fun t id' hid' => (hthreads id').trans (h.own t id' hid') }

theorem Wakes.setHandler {new : Handler} (h : Wakes c)
    (hold : (c.handlers i).bind (Handler.holder i) = none) (hnew : new.holder i = none) :
    Wakes (c.setHandler i new) := by
  have hsame : ∀ i', ((c.setHandler i new).handlers i').bind (Handler.holder i') =
      (c.handlers i').bind (Handler.holder i') := by
    intro i'
    unfold Console.setHandler
    dsimp only
    by_cases heq : i' = i
    · rw [heq, update_self, hold]
      exact hnew
    · rw [update_of_ne heq]
  exact { h with
    held := by
      intro id holder hholder
      have hheld := h.held id holder hholder
      exact hheld.mono rfl (fun _ hold => hold) (fun i' _ => (hsame i').trans) (fun _ => .inr)
        fun _ hold => hold
    handler := fun i' id holder hi => h.handler i' id holder ((hsame i').symm.trans hi) }

theorem Wakes.setControl {control : Control} (h : Wakes c)
    (hold : ∀ id, (c.threads t).control ≠ .clear id) (hnew : ∀ id, control ≠ .clear id)
    (hown : ∀ id, control.stream = some id → (c.streams id).thread = t) :
    Wakes (c.setControl t control) := by
  have hcontrol : ∀ t', ((c.setControl t control).threads t').control =
      if t' = t then control else (c.threads t').control :=
    fun t' => control_setControl t t' control
  have hqueue : ∀ t', ((c.setControl t control).threads t').queue = (c.threads t').queue :=
    apply_update_of_eq Thread.queue rfl
  have hclosed : ∀ t', ((c.setControl t control).threads t').closed = (c.threads t').closed :=
    apply_update_of_eq Thread.closed rfl
  exact { h with
    held := by
      intro id holder hholder
      have hheld := h.held id holder hholder
      refine hheld.mono rfl (fun t' => (hclosed t').trans) (fun _ _ hold => hold)
        (fun t' hmem => .inr ((hqueue t').symm ▸ hmem)) fun t' hclear => (hcontrol t').trans ?_
      split
      next heq => exact absurd (heq ▸ hclear) (hold id)
      next => exact hclear
    queued := fun t' id hid => h.queued t' id (hqueue t' ▸ hid)
    nodup := fun t' => hqueue t' ▸ h.nodup t'
    running := by
      intro t' id hid
      rw [hcontrol] at hid
      split at hid
      · exact absurd hid (hnew id)
      · exact h.running t' id hid
    own := by
      intro t' id hid
      rw [hcontrol] at hid
      split at hid
      next heq => exact (hown id hid).trans heq.symm
      next => exact h.own t' id hid }

theorem Wakes.setHolder {s : Stream} (h : Wakes c) (hstreams : c'.streams = update c.streams id s)
    (hflag : s.wakeScheduled = s.holder.isSome) (hthread : s.thread = (c.streams id).thread)
    (hheld : ∀ holder, s.holder = some holder → c'.Held id holder)
    (hothers : ∀ id' holder, id' ≠ id → c.Held id' holder → c'.Held id' holder)
    (hhandler : ∀ i id' holder, (c'.handlers i).bind (Handler.holder i) = some (id', holder) →
      (c.handlers i).bind (Handler.holder i) = some (id', holder) ∧ id' ≠ id ∨
        id' = id ∧ s.holder = some holder)
    (hqueue : ∀ t id', id' ∈ (c'.threads t).queue → id' ∈ (c.threads t).queue ∧ id' ≠ id ∨
      id' = id ∧ s.holder = some .queued ∧ s.thread = t)
    (hnodup : ∀ t, (c'.threads t).queue.Nodup)
    (hcontrol : ∀ t id', (c'.threads t).control = .clear id' →
      (c.threads t).control = .clear id' ∧ id' ≠ id ∨ id' = id ∧ s.holder = some .running)
    (hown : ∀ t id', (c'.threads t).control.stream = some id' → (c.streams id').thread = t) :
    Wakes c' := by
  have hthreads : ∀ id', (c'.streams id').thread = (c.streams id').thread := by
    rw [hstreams]
    exact apply_update_of_eq Stream.thread hthread
  have hself : c'.streams id = s := by rw [hstreams, update_self]
  have hne : ∀ id', id' ≠ id → c'.streams id' = c.streams id' := by
    intro id' hid'
    rw [hstreams, update_of_ne hid']
  constructor
  · rw [hstreams]
    refine (forall_update_iff c.streams fun _ s => s.wakeScheduled = s.holder.isSome).mpr ?_
    exact ⟨hflag, fun id' _ => h.flag id'⟩
  · intro id' holder hholder
    by_cases heq : id' = id
    · subst heq
      exact hheld holder (hself ▸ hholder)
    · exact hothers id' holder heq (h.held id' holder (hne id' heq ▸ hholder))
  · intro i id' holder hi
    rcases hhandler i id' holder hi with ⟨hold, heq⟩ | ⟨rfl, hnew⟩
    · rw [hne id' heq]
      exact h.handler i id' holder hold
    · rw [hself]
      exact hnew
  · intro t id' hid'
    rcases hqueue t id' hid' with ⟨hold, heq⟩ | ⟨rfl, hnew⟩
    · rw [hne id' heq]
      exact h.queued t id' hold
    · rw [hself]
      exact hnew
  · exact hnodup
  · intro t id' hid'
    rcases hcontrol t id' hid' with ⟨hold, heq⟩ | ⟨rfl, hnew⟩
    · rw [hne id' heq]
      exact h.running t id' hold
    · rw [hself]
      exact hnew
  · exact fun t id' hid' => (hthreads id').trans (hown t id' hid')

/-- What a handler is set to, and what that does to the other handlers. -/
theorem handlers_update {handlers : Nat → Option Handler} {new : Handler} {i' : Nat}
    {held : Nat × Holder}
    (h : ((update handlers i (some new)) i').bind (Handler.holder i') = some held) :
    i' = i ∧ new.holder i = some held ∨
      i' ≠ i ∧ (handlers i').bind (Handler.holder i') = some held := by
  by_cases heq : i' = i
  · subst heq
    rw [update_self] at h
    exact .inl ⟨rfl, h⟩
  · rw [update_of_ne heq] at h
    exact .inr ⟨heq, h⟩

theorem holder_eq {h' : Handler} {held : Nat × Holder} (h : h'.holder i = some held) :
    held.2 = .handler i ∨ held.2 = .refused i := by
  unfold Handler.holder at h
  split at h
  · exact .inl (congrArg Prod.snd (Option.some.inj h)).symm
  · exact .inr (congrArg Prod.snd (Option.some.inj h)).symm
  · exact absurd h nofun

/-- A handler has the flag neither as a closure nor as a queued one. -/
theorem Wakes.ne_of_handler {id' : Nat} {holder : Holder} (h : Wakes c)
    (hi : (c.handlers i).bind (Handler.holder i) = some (id', holder))
    (hholder : (c.streams id).holder = some .queued ∨ (c.streams id).holder = some .running) :
    id' ≠ id := by
  rintro rfl
  obtain ⟨h', -, hh'⟩ := Option.bind_eq_some_iff.mp hi
  have hold := h.handler i _ holder hi
  rcases (holder_eq hh' : holder = .handler i ∨ holder = .refused i) with rfl | rfl
  · rcases hholder with hnew | hnew
    · exact absurd (hold.symm.trans hnew) nofun
    · exact absurd (hold.symm.trans hnew) nofun
  · rcases hholder with hnew | hnew
    · exact absurd (hold.symm.trans hnew) nofun
    · exact absurd (hold.symm.trans hnew) nofun

theorem Wakes.handler_unique {i' : Nat} {holder holder' : Holder} (h : Wakes c)
    (hi : (c.handlers i).bind (Handler.holder i) = some (id, holder))
    (hi' : (c.handlers i').bind (Handler.holder i') = some (id, holder')) : i' = i := by
  obtain ⟨h', -, hh'⟩ := Option.bind_eq_some_iff.mp hi
  obtain ⟨h'', -, hh''⟩ := Option.bind_eq_some_iff.mp hi'
  have heq : holder = holder' :=
    Option.some.inj ((h.handler i id holder hi).symm.trans (h.handler i' id holder' hi'))
  have hb : holder = .handler i' ∨ holder = .refused i' := heq ▸ holder_eq hh''
  rcases (holder_eq hh' : holder = .handler i ∨ holder = .refused i) with rfl | rfl
  · exact (Holder.handler.inj (hb.resolve_right nofun)).symm
  · exact (Holder.refused.inj (hb.resolve_left nofun)).symm

theorem Wakes.ne_of_queued {id' : Nat} (h : Wakes c) (hid' : id' ∈ (c.threads t).queue)
    (hne : (c.streams id).holder ≠ some .queued) : id' ≠ id := by
  rintro rfl
  exact hne (h.queued t id' hid').1

theorem Wakes.ne_of_running {id' : Nat} (h : Wakes c) (hid' : (c.threads t).control = .clear id')
    (hne : (c.streams id).holder ≠ some .running) : id' ≠ id := by
  rintro rfl
  exact hne (h.running t id' hid')

theorem Wakes.take {generation : Nat} {left : List Nat} {handled : Bool} (h : Wakes c)
    (hfree : (c.streams id).wakeScheduled = false)
    (hold : (c.handlers i).bind (Handler.holder i) = none) :
    Wakes ((c.setStream id { c.streams id with
      wakeScheduled := true, holder := some (.handler i) }).setHandler i
        (.notifying .queue id generation left handled)) := by
  have hnone := h.free hfree
  have hbind : ∀ i' id' holder, (c.handlers i').bind (Handler.holder i') = some (id', holder) →
      i' ≠ i ∧ id' ≠ id := by
    intro i' id' holder hi'
    constructor
    · rintro rfl
      exact absurd (hold.symm.trans hi') nofun
    · rintro rfl
      exact absurd (hnone.symm.trans (h.handler i' _ holder hi')) nofun
  refine h.setHolder rfl rfl rfl ?_ ?_ ?_ ?_ h.nodup ?_ h.own
  · rintro holder ⟨⟩
    exact (congrArg (Option.bind · (Handler.holder i)) (update_self i _ c.handlers) :)
  · intro id' holder hid' hheld
    refine hheld.mono ?_ (fun _ hold => hold) (fun i' holder' hi' => ?_) (fun _ => .inr)
      fun _ hold => hold
    · exact congrArg Stream.thread (update_of_ne hid' ..)
    · refine Eq.trans ?_ hi'
      exact congrArg (Option.bind · (Handler.holder i')) (update_of_ne (hbind i' id' _ hi').1 ..)
  · intro i' id' holder hi'
    rcases handlers_update hi' with ⟨rfl, heq⟩ | ⟨-, hold'⟩
    · obtain ⟨rfl, rfl⟩ := Prod.mk.inj (Option.some.inj heq)
      exact .inr ⟨rfl, rfl⟩
    · exact .inl ⟨hold', (hbind i' id' holder hold').2⟩
  · exact fun t id' hid' => .inl ⟨hid', h.ne_of_queued hid' (hnone ▸ nofun)⟩
  · exact fun t id' hid' => .inl ⟨hid', h.ne_of_running hid' (hnone ▸ nofun)⟩

/-- The other streams keep their holders when a handler goes on that has the flag of `id`. -/
theorem Wakes.held_of_ne {id' : Nat} {holder held : Holder} {s : Stream} {new : Handler}
    (hi : (c.handlers i).bind (Handler.holder i) = some (id, holder)) (hne : id' ≠ id)
    (hheld : c.Held id' held) : ((c.setStream id s).setHandler i new).Held id' held := by
  refine hheld.mono ?_ (fun _ hold => hold) (fun i' held' hi' => ?_) (fun _ => .inr)
    fun _ hold => hold
  · exact congrArg Stream.thread (update_of_ne hne ..)
  · refine Eq.trans ?_ hi'
    refine congrArg (Option.bind · (Handler.holder i')) (update_of_ne ?_ ..)
    rintro rfl
    exact hne (congrArg Prod.fst (Option.some.inj (hi'.symm.trans hi)))

theorem Wakes.handler_of_ne {i' id' : Nat} {holder holder' : Holder} (h : Wakes c)
    (hi : (c.handlers i).bind (Handler.holder i) = some (id, holder)) (hne : i' ≠ i)
    (hi' : (c.handlers i').bind (Handler.holder i') = some (id', holder')) : id' ≠ id := by
  rintro rfl
  exact hne (h.handler_unique hi hi')

theorem Wakes.refuse {generation : Nat} {left : List Nat} {handled : Bool} (h : Wakes c)
    (hi : (c.handlers i).bind (Handler.holder i) = some (id, .handler i))
    (hclosed : c.isClosed id = true) :
    Wakes ((c.setStream id { c.streams id with holder := some (.refused i) }).setHandler i
      (.notifying .reset id generation left handled)) := by
  have hholder := h.handler i id _ hi
  have hself : (c.setStream id { c.streams id with holder := some (.refused i) }).isClosed id =
      c.isClosed id := by
    unfold isClosed Console.setStream
    dsimp only
    rw [update_self]
  refine h.setHolder rfl ?_ rfl ?_ (fun _ _ => held_of_ne hi) ?_ ?_ h.nodup ?_ h.own
  · exact ((h.flag id).trans (congrArg Option.isSome hholder) :)
  · rintro holder ⟨⟩
    refine ⟨?_, hself.trans hclosed⟩
    exact (congrArg (Option.bind · (Handler.holder i)) (update_self i _ c.handlers) :)
  · intro i' id' holder hi'
    rcases handlers_update hi' with ⟨rfl, heq⟩ | ⟨hne, hold'⟩
    · obtain ⟨rfl, rfl⟩ := Prod.mk.inj (Option.some.inj heq)
      exact .inr ⟨rfl, rfl⟩
    · exact .inl ⟨hold', h.handler_of_ne hi hne hold'⟩
  · exact fun t id' hid' => .inl ⟨hid', h.ne_of_queued hid' (hholder ▸ nofun)⟩
  · exact fun t id' hid' => .inl ⟨hid', h.ne_of_running hid' (hholder ▸ nofun)⟩

theorem Wakes.release {left : List Nat} {handled : Bool} (h : Wakes c)
    (hi : (c.handlers i).bind (Handler.holder i) = some (id, .refused i)) :
    Wakes ((c.setStream id { c.streams id with
      wakeScheduled := false, holder := none }).setHandler i (.dispatching left handled)) := by
  have hholder := h.handler i id _ hi
  refine h.setHolder rfl rfl rfl nofun (fun _ _ => held_of_ne hi) ?_ ?_ h.nodup ?_ h.own
  · intro i' id' holder hi'
    rcases handlers_update hi' with ⟨rfl, heq⟩ | ⟨hne, hold'⟩
    · exact absurd heq nofun
    · exact .inl ⟨hold', h.handler_of_ne hi hne hold'⟩
  · exact fun t id' hid' => .inl ⟨hid', h.ne_of_queued hid' (hholder ▸ nofun)⟩
  · exact fun t id' hid' => .inl ⟨hid', h.ne_of_running hid' (hholder ▸ nofun)⟩

theorem queue_enqueue (t t' id : Nat) : ((c.enqueue t id).threads t').queue =
    (c.threads t').queue ++ if t' = t then [id] else [] := by
  unfold Console.enqueue Console.setThread
  dsimp only
  split
  next heq => rw [heq, update_self]
  next hne => rw [update_of_ne hne, List.append_nil]

theorem mem_enqueue {id' t' : Nat} : id' ∈ ((c.enqueue t id).threads t').queue ↔
    id' ∈ (c.threads t').queue ∨ t' = t ∧ id' = id := by
  rw [queue_enqueue, List.mem_append]
  refine or_congr_right ?_
  split
  next heq => rw [List.mem_singleton, and_iff_right heq]
  next hne => exact iff_of_false List.not_mem_nil fun hand => hne hand.1

theorem Wakes.accept {generation : Nat} {left : List Nat} {handled : Bool} (h : Wakes c)
    (hi : (c.handlers i).bind (Handler.holder i) = some (id, .handler i)) :
    Wakes (((c.setStream id { c.streams id with holder := some .queued }).enqueue
      (c.streams id).thread id).setHandler i
        (.notifying .reloadActive id generation left handled)) := by
  have hholder := h.handler i id _ hi
  have hfresh : ∀ t', id ∉ (c.threads t').queue := by
    intro t' hmem
    exact h.ne_of_queued hmem (hholder ▸ nofun) rfl
  have hcontrol : ∀ t', ((c.enqueue (c.streams id).thread id).threads t').control =
      (c.threads t').control := apply_update_of_eq Thread.control rfl
  have hclosed : ∀ t', ((c.enqueue (c.streams id).thread id).threads t').closed =
      (c.threads t').closed := apply_update_of_eq Thread.closed rfl
  refine h.setHolder rfl ?_ rfl ?_ ?_ ?_ ?_ ?_ ?_ ?_
  · exact ((h.flag id).trans (congrArg Option.isSome hholder) :)
  · rintro holder ⟨⟩
    exact .inr (mem_enqueue.mpr (.inr ⟨by simp [Console.enqueue], rfl⟩))
  · intro id' holder hne hheld
    exact (held_of_ne hi hne hheld).mono rfl (fun t' => (hclosed t').trans)
      (fun _ _ hold => hold) (fun t' hmem => .inr (mem_enqueue.mpr (.inl hmem)))
      fun t' => (hcontrol t').trans
  · intro i' id' holder hi'
    rcases handlers_update hi' with ⟨rfl, heq⟩ | ⟨hne, hold'⟩
    · exact absurd heq nofun
    · exact .inl ⟨hold', h.handler_of_ne hi hne hold'⟩
  · intro t' id' hid'
    rcases mem_enqueue.mp hid' with hold | ⟨ht', rfl⟩
    · exact .inl ⟨hold, h.ne_of_queued hold (hholder ▸ nofun)⟩
    · exact .inr ⟨rfl, rfl, ht'.symm⟩
  · intro t'
    refine (queue_enqueue ..).symm ▸ List.nodup_append.mpr ⟨h.nodup t', ?_, ?_⟩
    · split
      · exact List.nodup_cons.mpr ⟨List.not_mem_nil, List.nodup_nil⟩
      · exact List.nodup_nil
    · intro id' hid' id'' hid'' heq
      split at hid''
      · rw [heq, List.mem_singleton.mp hid''] at hid'
        exact hfresh t' hid'
      · exact absurd hid'' List.not_mem_nil
  · intro t' id' hid'
    have hold := (hcontrol t').symm.trans hid'
    exact .inl ⟨hold, h.ne_of_running hold (hholder ▸ nofun)⟩
  · exact fun t' id' hid' => h.own t' id' ((congrArg Control.stream (hcontrol t')).symm.trans hid')

theorem Wakes.start {queue : List Nat} (h : Wakes c) (hqueue : (c.threads t).queue = id :: queue)
    (hidle : (c.threads t).control = .idle) :
    Wakes ((c.setStream id { c.streams id with holder := some .running }).setThread t
      { c.threads t with queue, control := .clear id }) := by
  obtain ⟨hholder, hthread⟩ := h.queued t id (hqueue ▸ List.mem_cons_self)
  have hnodup : (id :: queue).Nodup := hqueue ▸ h.nodup t
  refine h.setHolder rfl ?_ rfl ?_ ?_ ?_ ?_ ?_ ?_ ?_
  · exact ((h.flag id).trans (congrArg Option.isSome hholder) :)
  · rintro holder ⟨⟩
    simp [Held, hthread]
  · intro id' holder hid' hheld
    refine hheld.mono (by simp [hid']) (fun t' hclosed => ?_) (fun _ _ hold => hold)
      (fun t' hmem => .inr ?_) fun t' hclear => ?_
    · by_cases ht' : t' = t
      · subst ht'
        simpa using hclosed
      · simpa [ht'] using hclosed
    · by_cases ht' : t' = t
      · subst ht'
        rw [hqueue] at hmem
        simpa using (List.mem_cons.mp hmem).resolve_left hid'
      · simpa [ht'] using hmem
    · have ht' : t' ≠ t := by
        rintro rfl
        exact absurd (hidle.symm.trans hclear) nofun
      simpa [ht'] using hclear
  · exact fun i id' holder hi => .inl ⟨hi, h.ne_of_handler hi (.inl hholder)⟩
  · intro t' id' hid'
    by_cases ht' : t' = t
    · subst ht'
      have hmem : id' ∈ queue := by simpa using hid'
      refine .inl ⟨hqueue ▸ List.mem_cons_of_mem _ hmem, ?_⟩
      rintro rfl
      exact (List.nodup_cons.mp hnodup).1 hmem
    · have hmem : id' ∈ (c.threads t').queue := by simpa [ht'] using hid'
      refine .inl ⟨hmem, ?_⟩
      rintro rfl
      exact ht' ((h.queued t' _ hmem).2.symm.trans hthread)
  · intro t'
    by_cases ht' : t' = t
    · subst ht'
      simpa using (List.nodup_cons.mp hnodup).2
    · simpa [ht'] using h.nodup t'
  · intro t' id' hid'
    by_cases ht' : t' = t
    · subst ht'
      have heq : id = id' := by simpa using hid'
      exact .inr ⟨heq.symm, rfl⟩
    · have hold : (c.threads t').control = .clear id' := by simpa [ht'] using hid'
      exact .inl ⟨hold, h.ne_of_running hold (hholder ▸ nofun)⟩
  · intro t' id' hid'
    by_cases ht' : t' = t
    · subst ht'
      have heq : id = id' := by simpa [Control.stream] using hid'
      exact heq ▸ hthread
    · exact h.own t' id' (by simpa [ht'] using hid')

theorem Wakes.clear (h : Wakes c) (hcontrol : (c.threads t).control = .clear id) :
    Wakes ((c.setStream id { c.streams id with
      wakeScheduled := false, holder := none
      served := (c.streams id).generation }).setControl t (.loadActive id)) := by
  have hholder := h.running t id hcontrol
  have hthread := h.own t id (by rw [hcontrol]; rfl)
  have hqueue : ∀ t', ((c.setControl t (.loadActive id)).threads t').queue =
      (c.threads t').queue := apply_update_of_eq Thread.queue rfl
  have hclosed : ∀ t', ((c.setControl t (.loadActive id)).threads t').closed =
      (c.threads t').closed := apply_update_of_eq Thread.closed rfl
  refine h.setHolder rfl rfl rfl (by simp) ?_ ?_ ?_ (fun t' => ?_) ?_ ?_
  · intro id' holder hid' hheld
    refine hheld.mono (by simp [Console.setControl, hid']) (fun t' => (hclosed t').trans)
      (fun _ _ hold => hold) (fun t' hmem => .inr ((hqueue t').symm ▸ hmem)) fun t' hclear => ?_
    have ht' : t' ≠ t := by
      rintro rfl
      exact hid' (Control.clear.inj (hclear.symm.trans hcontrol))
    simpa [Console.setControl, ht'] using hclear
  · exact fun i id' holder hi => .inl ⟨hi, h.ne_of_handler hi (.inr hholder)⟩
  · intro t' id' hid'
    have hmem : id' ∈ (c.threads t').queue := hqueue t' ▸ hid'
    exact .inl ⟨hmem, h.ne_of_queued hmem (by simp [hholder])⟩
  · exact (hqueue t').symm ▸ h.nodup t'
  · intro t' id' hid'
    by_cases ht' : t' = t
    · subst ht'
      simp [Console.setControl] at hid'
    · have hold : (c.threads t').control = .clear id' := by
        simpa [Console.setControl, ht'] using hid'
      refine .inl ⟨hold, ?_⟩
      rintro rfl
      exact ht' ((h.own t' _ (by rw [hold]; rfl)).symm.trans hthread)
  · intro t' id' hid'
    by_cases ht' : t' = t
    · subst ht'
      have heq : id = id' := by simpa [Console.setControl, Control.stream] using hid'
      exact heq ▸ hthread
    · exact h.own t' id' (by simpa [Console.setControl, ht'] using hid')

theorem Wakes.close (h : Wakes c) (hidle : (c.threads t).control = .idle) :
    Wakes (c.setThread t { c.threads t with closed := true, queue := [] }) := by
  have hcontrol : ∀ t', ((c.setThread t { c.threads t with
      closed := true, queue := [] }).threads t').control = (c.threads t').control :=
    apply_update_of_eq Thread.control rfl
  have hqueue : ∀ t' id', id' ∈ ((c.setThread t { c.threads t with
      closed := true, queue := [] }).threads t').queue → id' ∈ (c.threads t').queue := by
    intro t' id' hid'
    by_cases ht' : t' = t
    · subst ht'
      simp at hid'
    · simpa [ht'] using hid'
  exact { h with
    held := by
      intro id holder hholder
      refine (h.held id holder hholder).mono rfl (fun t' hclosed => ?_) (fun _ _ hold => hold)
        (fun t' hmem => ?_) fun t' => (hcontrol t').trans
      · by_cases ht' : t' = t
        · subst ht'
          simp
        · simpa [ht'] using hclosed
      · by_cases ht' : t' = t
        · subst ht'
          simp
        · exact .inr (by simpa [ht'] using hmem)
    queued := fun t' id' hid' => h.queued t' id' (hqueue t' id' hid')
    nodup := by
      intro t'
      by_cases ht' : t' = t
      · subst ht'
        simp
      · simpa [ht'] using h.nodup t'
    running := fun t' id' hid' => h.running t' id' ((hcontrol t').symm.trans hid')
    own := fun t' id' hid' =>
      h.own t' id' ((congrArg Control.stream (hcontrol t')).symm.trans hid') }

/-- The new stream has no holder, and nobody has named it before. -/
theorem Wakes.publish {event : Nat} (h : Wakes c) (hknown : Known c) :
    Wakes { c.setStream c.nextStream { event, thread := t, active := true } with
      nextStream := c.nextStream + 1
      listeners := c.listeners ++ [c.nextStream]
      lifecycle := none } := by
  have hnone : (c.streams c.nextStream).holder = none := by
    rw [hknown.streams _ (Nat.le_refl _)]
  have hold : ∀ {id holder}, (c.streams id).holder = some holder → id ≠ c.nextStream := by
    rintro id holder hholder rfl
    exact absurd (hnone.symm.trans hholder) nofun
  have hne : ∀ {id}, id ≠ c.nextStream → (c.setStream c.nextStream
      { event, thread := t, active := true }).streams id = c.streams id :=
    fun hne => streams_setStream_of_ne hne
  constructor
  · intro id
    by_cases heq : id = c.nextStream
    · subst heq
      simp
    · rw [show _ = _ from hne heq]
      exact h.flag id
  · intro id holder hholder
    have heq : id ≠ c.nextStream := by
      rintro rfl
      exact absurd ((congrArg Stream.holder streams_setStream_self).symm.trans hholder) nofun
    have hheld := h.held id holder ((congrArg Stream.holder (hne heq)).symm.trans hholder)
    exact hheld.mono (congrArg Stream.thread (hne heq)) (fun _ hold => hold) (fun _ _ hold => hold)
      (fun _ => .inr) fun _ hold => hold
  · intro i id holder hi
    have hholder := h.handler i id holder hi
    exact (congrArg Stream.holder (hne (hold hholder))).trans hholder
  · intro t' id hid
    obtain ⟨hholder, hthread⟩ := h.queued t' id hid
    rw [show _ = _ from hne (hold hholder)]
    exact ⟨hholder, hthread⟩
  · exact h.nodup
  · intro t' id hid
    have hholder := h.running t' id hid
    exact (congrArg Stream.holder (hne (hold hholder))).trans hholder
  · intro t' id hid
    have hlt := hknown.controls t' id hid
    exact (congrArg Stream.thread (hne (Nat.ne_of_lt hlt))).trans (h.own t' id hid)

/-- The thread goes on with the same stream, or with none. -/
theorem Wakes.goOn {old control : Control} (h : Wakes c) (hcontrol : (c.threads t).control = old)
    (hold : ∀ id, old ≠ .clear id) (hnew : ∀ id, control ≠ .clear id)
    (hstream : ∀ id, control.stream = some id → old.stream = some id) :
    Wakes (c.setControl t control) := by
  subst hcontrol
  exact h.setControl hold hnew fun id hid => h.own t id (hstream id hid)

theorem Wakes.access (h : Wakes c) (hknown : Known c) (hs : Access c t c') : Wakes c' := by
  cases hs with
  | @storeWaker id waker hcontrol =>
      have hset : Wakes (c.setStream id { c.streams id with waker := some waker }) :=
        h.setStream rfl rfl rfl
      exact hset.goOn hcontrol nofun nofun fun _ hid => hid
  | @see id waker hcontrol _ =>
      have hset : Wakes (c.setStream id { (c.streams id).see with waker := none }) :=
        h.setStream rfl rfl rfl
      exact hset.goOn hcontrol nofun nofun nofun
  | @pend id waker hcontrol _ =>
      have hset : Wakes (c.setStream id { c.streams id with awaiting := some waker }) :=
        h.setStream rfl rfl rfl
      exact hset.goOn hcontrol nofun nofun nofun
  | clear hcontrol => exact h.clear hcontrol
  | active hcontrol _ => exact h.goOn hcontrol nofun nofun fun _ hid => hid
  | inactive hcontrol _ => exact h.goOn hcontrol nofun nofun nofun
  | @wake id hcontrol =>
      have hset : Wakes (c.setStream id { c.streams id with waker := none, awaiting := none }) :=
        h.setStream rfl rfl rfl
      exact Wakes.goOn { hset with } hcontrol nofun nofun nofun
  | @forgetWaker id hcontrol =>
      have hset : Wakes (c.setStream id { c.streams id with waker := none, awaiting := none }) :=
        h.setStream rfl rfl rfl
      exact hset.goOn hcontrol nofun nofun fun _ hid => hid
  | lockToUnregister hcontrol _ =>
      exact Wakes.goOn { h with } hcontrol nofun nofun fun _ hid => hid
  | unregisterLast hcontrol _ => exact Wakes.goOn { h with } hcontrol nofun nofun nofun
  | unregister hcontrol _ => exact Wakes.goOn { h with } hcontrol nofun nofun nofun
  | uninstall hcontrol _ => exact Wakes.goOn { h with } hcontrol nofun nofun nofun
  | uninstalled hcontrol _ => exact Wakes.goOn { h with } hcontrol nofun nofun nofun
  | lockToRegister hcontrol _ => exact Wakes.goOn { h with } hcontrol nofun nofun nofun
  | installed hcontrol _ => exact h.goOn hcontrol nofun nofun nofun
  | install hcontrol _ => exact Wakes.goOn { h with } hcontrol nofun nofun nofun
  | refuse hcontrol _ => exact Wakes.goOn { h with } hcontrol nofun nofun nofun
  | publish hcontrol => exact (h.publish hknown).goOn hcontrol nofun nofun nofun

theorem Wakes.notify {next : Notify} {generation : Nat} {left : List Nat} {handled : Bool}
    (h : Wakes c) (hi : c.handlers i = some (.notifying next id generation left handled)) :
    Wakes (c.notify i next id generation left handled) := by
  have hat : (c.handlers i).bind (Handler.holder i) =
      (Handler.notifying next id generation left handled).holder i := by
    rw [hi]
    rfl
  unfold Console.notify
  cases next with
  | loadActive =>
      dsimp only
      split
      · exact h.setHandler hat rfl
      · exact h.setHandler hat rfl
  | loadClosed =>
      dsimp only
      split
      · exact h.setHandler hat rfl
      · exact h.setHandler hat rfl
  | bump =>
      have hset : Wakes (c.setStream id { c.streams id with
          generation := (c.streams id).generation + 1 }) := h.setStream rfl rfl rfl
      exact hset.setHandler hat rfl
  | swap =>
      dsimp only
      split
      next => exact h.setHandler hat rfl
      next hfree => exact h.take (Bool.eq_false_iff.mpr hfree) hat
  | queue =>
      dsimp only
      split
      next hclosed => exact h.refuse hat hclosed
      next => exact h.accept hat
  | reset => exact h.release hat
  | reloadActive =>
      dsimp only
      split
      · exact h.setHandler hat rfl
      · exact h.setHandler hat rfl
  | reloadClosed =>
      dsimp only
      split
      · exact h.setHandler hat rfl
      · exact Wakes.setHandler { h with } hat rfl

theorem Wakes.ctrlHandler {h' : Handler} (h : Wakes c) (hi : c.handlers i = some h')
    (hs : c.ctrlHandler i h' = some c') : Wakes c' := by
  have hat : (c.handlers i).bind (Handler.holder i) = h'.holder i := by
    rw [hi]
    rfl
  cases h' with
  | called event =>
      obtain rfl := Option.some.inj hs
      exact h.setHandler hat rfl
  | dispatching left handled =>
      cases left with
      | nil =>
          obtain rfl := Option.some.inj hs
          exact h.setHandler hat rfl
      | cons id left =>
          obtain rfl := Option.some.inj hs
          exact h.setHandler hat rfl
  | notifying next id generation left handled =>
      obtain rfl := Option.some.inj hs
      exact h.notify hi
  | returned handled => exact absurd hs nofun

/-! ## Steps -/

theorem Known.lt_of_ready (h : Known c) (hready : c.Ready id) : id < c.nextStream := by
  refine h.lt fun heq => ?_
  have hactive := hready.1
  rw [heq] at hactive
  exact absurd hactive nofun

theorem Known.lt_of_queued (h : Known c) (hwakes : Wakes c) (hid : id ∈ (c.threads t).queue) :
    id < c.nextStream := by
  refine h.lt fun heq => ?_
  have hholder := (hwakes.queued t id hid).1
  rw [heq] at hholder
  exact absurd hholder nofun

theorem Known.poll {waker : Waker} (h : Known c) (hready : c.Ready id) :
    Known (c.poll id waker) := by
  have hlt := h.lt_of_ready hready
  unfold Console.poll
  dsimp only
  split
  · exact h.setStream hlt
  · exact (h.setStream hlt).setControl fun id' heq => Option.some.inj heq ▸ hlt

theorem Known.drop (h : Known c) (hready : c.Ready id) : Known (c.drop id) := by
  have hlt := h.lt_of_ready hready
  exact (h.setStream hlt).setControl fun id' heq => Option.some.inj heq ▸ hlt

theorem Known.step {a : Action} (h : Known c) (hwakes : Wakes c) (hs : c.step a = some c') :
    Known c' := by
  cases a with
  | call event =>
      obtain ⟨-, hs⟩ := Option.ite_none_right_eq_some.mp hs
      obtain rfl := Option.some.inj hs
      have hnext : Known { c with nextHandler := c.nextHandler + 1 } :=
        { h with handlers := fun i hi => h.handlers i (Nat.le_of_succ_le hi) }
      exact hnext.setHandler (Nat.lt_succ_self _) nofun
  | handler i =>
      obtain ⟨h', hi, hs⟩ := Option.bind_eq_some_iff.mp hs
      exact h.ctrlHandler hi hs
  | thread t ok => exact h.access (access_of_threadStep hs)
  | newStream t event =>
      obtain ⟨-, hs⟩ := Option.ite_none_right_eq_some.mp hs
      obtain rfl := Option.some.inj hs
      exact h.setControl nofun
  | poll id waker =>
      obtain ⟨hready, hs⟩ := Option.ite_none_right_eq_some.mp hs
      obtain rfl := Option.some.inj hs
      exact h.poll hready
  | drop id =>
      obtain ⟨hready, hs⟩ := Option.ite_none_right_eq_some.mp hs
      obtain rfl := Option.some.inj hs
      exact h.drop hready
  | run t =>
      unfold Console.step at hs
      dsimp only at hs
      split at hs
      next => exact absurd hs nofun
      next id queue hqueue =>
        obtain ⟨-, hs⟩ := Option.ite_none_right_eq_some.mp hs
        obtain rfl := Option.some.inj hs
        have hlt := h.lt_of_queued hwakes (hqueue ▸ List.mem_cons_self)
        exact (h.setStream hlt).setThread fun id' heq => Option.some.inj heq ▸ hlt
  | close t =>
      obtain ⟨-, hs⟩ := Option.ite_none_right_eq_some.mp hs
      obtain rfl := Option.some.inj hs
      exact h.setThread (h.controls t)

theorem Wakes.step {a : Action} (h : Wakes c) (hknown : Known c) (hs : c.step a = some c') :
    Wakes c' := by
  cases a with
  | call event =>
      obtain ⟨-, hs⟩ := Option.ite_none_right_eq_some.mp hs
      obtain rfl := Option.some.inj hs
      have hnone := congrArg (Option.bind · (Handler.holder c.nextHandler))
        (hknown.handlers _ (Nat.le_refl _))
      have hset : Wakes (c.setHandler c.nextHandler (.called event)) := h.setHandler hnone rfl
      exact { hset with }
  | handler i =>
      obtain ⟨h', hi, hs⟩ := Option.bind_eq_some_iff.mp hs
      exact h.ctrlHandler hi hs
  | thread t ok => exact h.access hknown (access_of_threadStep hs)
  | newStream t event =>
      obtain ⟨hidle, hs⟩ := Option.ite_none_right_eq_some.mp hs
      obtain rfl := Option.some.inj hs
      exact h.goOn hidle nofun nofun nofun
  | poll id waker =>
      obtain ⟨⟨-, hidle⟩, hs⟩ := Option.ite_none_right_eq_some.mp hs
      obtain rfl := Option.some.inj hs
      unfold Console.poll
      dsimp only
      split
      · exact h.setStream rfl rfl rfl
      · have hset : Wakes (c.setStream id { c.streams id with awaiting := none }) :=
          h.setStream rfl rfl rfl
        refine hset.setControl (hidle ▸ nofun) nofun fun id' heq => ?_
        rw [← Option.some.inj heq, streams_setStream_self]
  | drop id =>
      obtain ⟨⟨-, hidle⟩, hs⟩ := Option.ite_none_right_eq_some.mp hs
      obtain rfl := Option.some.inj hs
      have hset : Wakes (c.setStream id { c.streams id with active := false }) :=
        h.setStream rfl rfl rfl
      refine hset.setControl (hidle ▸ nofun) nofun fun id' heq => ?_
      rw [← Option.some.inj heq, streams_setStream_self]
  | run t =>
      unfold Console.step at hs
      dsimp only at hs
      split at hs
      next => exact absurd hs nofun
      next id queue hqueue =>
        obtain ⟨⟨hidle, -⟩, hs⟩ := Option.ite_none_right_eq_some.mp hs
        obtain rfl := Option.some.inj hs
        exact h.start hqueue hidle
  | close t =>
      obtain ⟨hidle, hs⟩ := Option.ite_none_right_eq_some.mp hs
      obtain rfl := Option.some.inj hs
      exact h.close hidle

end Console

end Runite.Signal.Windows
