import Runite.Signal.Registry

/-!
# The registrations across calls and closures

Every step other than the reader's keeps the registry as well.
-/

namespace Runite.Signal

open Function

namespace Stream

variable {s s' s'' : Stream}

/-- The stream was notified some number of times. -/
structure Notified (s s' : Stream) : Prop where
  kind : s'.kind = s.kind
  registration : s'.registration = s.registration
  group : s'.group = s.group
  live : s'.live = s.live
  owed : s'.owed = s.owed
  lastSeen : s'.lastSeen = s.lastSeen
  change : s' = s ∨ s.generation < s'.generation ∧ s'.waker = none ∧ s'.awaiting = none

theorem Notified.refl (s : Stream) : Notified s s := ⟨rfl, rfl, rfl, rfl, rfl, rfl, .inl rfl⟩

theorem notified_notify (s : Stream) : Notified s s.notify.1 :=
  ⟨rfl, rfl, rfl, rfl, rfl, rfl, .inr ⟨Nat.lt_succ_self _, rfl, rfl⟩⟩

theorem Notified.generation_le (h : Notified s s') : s.generation ≤ s'.generation := by
  rcases h.change with rfl | ⟨hlt, -⟩
  · exact Nat.le_refl _
  · exact Nat.le_of_lt hlt

theorem Notified.trans (h : Notified s s') (h' : Notified s' s'') : Notified s s'' where
  kind := h'.kind.trans h.kind
  registration := h'.registration.trans h.registration
  group := h'.group.trans h.group
  live := h'.live.trans h.live
  owed := h'.owed.trans h.owed
  lastSeen := h'.lastSeen.trans h.lastSeen
  change := by
    rcases h'.change with rfl | ⟨hlt, hwaker, hawaiting⟩
    · exact h.change
    · exact .inr ⟨Nat.lt_of_le_of_lt h.generation_le hlt, hwaker, hawaiting⟩

theorem pollRecv_keeps (s : Stream) (waker : Waker) :
    (s.pollRecv waker).1.kind = s.kind ∧ (s.pollRecv waker).1.registration = s.registration ∧
      (s.pollRecv waker).1.live = s.live ∧ (s.pollRecv waker).1.group = s.group := by
  unfold pollRecv
  split
  · exact ⟨rfl, rfl, rfl, rfl⟩
  · dsimp only
    split
    · exact ⟨rfl, rfl, rfl, rfl⟩
    · exact ⟨rfl, rfl, rfl, rfl⟩

end Stream

namespace World

variable {w w' : World} {id r : Nat} {kind : SignalKind}

/-! ## Slots -/

theorem thread_setSlot (r : Nat) (kind : SignalKind) (ids : List Nat) (r' : Nat) :
    (update w.threads r { w.threads r with
      slots := update (w.threads r).slots kind ids } r').thread = (w.threads r').thread := by
  by_cases heq : r' = r
  · subst heq
    rw [update_self]
  · rw [update_of_ne heq]

theorem wakeScheduled_setSlot (r : Nat) (kind : SignalKind) (ids : List Nat) (r' : Nat) :
    (update w.threads r { w.threads r with
      slots := update (w.threads r).slots kind ids } r').wakeScheduled =
      (w.threads r').wakeScheduled := by
  by_cases heq : r' = r
  · subst heq
    rw [update_self]
  · rw [update_of_ne heq]

theorem slots_setSlot (r : Nat) (kind : SignalKind) (ids : List Nat) (r' : Nat)
    (kind' : SignalKind) :
    (update w.threads r { w.threads r with
      slots := update (w.threads r).slots kind ids } r').slots kind' =
      if r' = r ∧ kind' = kind then ids else (w.threads r').slots kind' := by
  by_cases heq : r' = r
  · subst heq
    rw [update_self]
    simp [update_apply]
  · rw [update_of_ne heq, if_neg (fun hand => heq hand.1)]

/-! ## Notifications -/

theorem notified_notifyStream (w : World) (id id' : Nat) :
    Stream.Notified (w.streams id') ((w.notifyStream id).streams id') := by
  by_cases heq : id' = id
  · subst heq
    rw [show (w.notifyStream id').streams id' = (w.streams id').notify.1 from update_self ..]
    exact Stream.notified_notify _
  · rw [show (w.notifyStream id).streams id' = w.streams id' from update_of_ne heq ..]
    exact .refl _

/-- The streams of a slot are notified, and nothing else changes. -/
theorem notifyStreams_spec (ids : List Nat) (w : World) :
    ∃ streams woken, ids.foldl notifyStream w = { w with streams, woken := w.woken ++ woken } ∧
      (∀ id, Stream.Notified (w.streams id) (streams id)) ∧
      ∀ id ∈ ids, (w.streams id).generation < (streams id).generation ∧
        ∀ waker, (w.streams id).waker = some waker → (id, waker) ∈ woken := by
  induction ids generalizing w with
  | nil => exact ⟨w.streams, [], by simp, fun _ => .refl _, nofun⟩
  | cons id ids ih =>
      obtain ⟨streams, woken, heq, hnotified, hmem⟩ := ih (w.notifyStream id)
      refine ⟨streams, ((w.streams id).waker.map (id, ·)).toList ++ woken, ?_, ?_, ?_⟩
      · rw [List.foldl_cons, heq, ← List.append_assoc]
        rfl
      · exact fun id' => (notified_notifyStream w id id').trans (hnotified id')
      · intro id' hid'
        rcases List.mem_cons.mp hid' with rfl | hrest
        · have hself : (w.notifyStream id').streams id' = (w.streams id').notify.1 :=
            update_self ..
          have hle := (hnotified id').generation_le
          rw [hself] at hle
          refine ⟨hle, fun waker hwaker => List.mem_append_left _ ?_⟩
          simp [hwaker]
        · obtain ⟨hlt, hwoken⟩ := hmem id' hrest
          have hfirst := notified_notifyStream w id id'
          refine ⟨Nat.lt_of_le_of_lt hfirst.generation_le hlt, fun waker hwaker => ?_⟩
          rcases hfirst.change with heq' | ⟨-, -, -⟩
          · exact List.mem_append_right _ (hwoken waker (by rw [heq', hwaker]))
          · by_cases hne : id' = id
            · subst hne
              refine List.mem_append_left _ ?_
              simp [hwaker]
            · have hsame : (w.notifyStream id).streams id' = w.streams id' :=
                update_of_ne hne ..
              exact List.mem_append_right _ (hwoken waker (by rw [hsame, hwaker]))

/-- `ThreadRegistration::notify` notifies the streams of a slot that are live, and forgets the
others. -/
theorem notify_spec (w : World) (r : Nat) (kind : SignalKind) :
    ∃ streams woken, w.notify r kind = { w with
        streams
        woken := w.woken ++ woken
        threads := update w.threads r { w.threads r with
          slots := update (w.threads r).slots kind
            (((w.threads r).slots kind).filter fun id => (w.streams id).live) } } ∧
      (∀ id, Stream.Notified (w.streams id) (streams id)) ∧
      ∀ id ∈ (w.threads r).slots kind, (w.streams id).live = true →
        (w.streams id).generation < (streams id).generation ∧
          ∀ waker, (w.streams id).waker = some waker → (id, waker) ∈ woken := by
  obtain ⟨streams, woken, heq, hnotified, hmem⟩ := notifyStreams_spec
    (((w.threads r).slots kind).filter fun id => (w.streams id).live) w
  refine ⟨streams, woken, ?_, hnotified, ?_⟩
  · unfold notify
    dsimp only
    rw [heq]
  · exact fun id hid hlive => hmem id (List.mem_filter.mpr ⟨hid, hlive⟩)

/-! ## Closures -/

theorem Registry.beginClosure {closure : Closure} (h : Registry w) (hqueued : closure ∈ w.queued) :
    Registry (w.beginClosure closure) := by
  obtain ⟨r, kind⟩ := closure
  have hcount : 0 < w.queued.count (r, kind) := List.count_pos_iff.mpr hqueued
  have hflag := (h.scheduled r kind).1
  have hbool : ((w.threads r).wakeScheduled kind).toNat ≤ 1 := Bool.toNat_le _
  have hmem : ∀ c, c ∈ w.queued.erase (r, kind) → c ∈ w.queued := fun c => List.mem_of_mem_erase
  refine h.congr (fun r' hr' => ?_) (fun _ hr _ _ => hr) rfl rfl rfl
    (thread_setScheduled r kind false) ?_ ?_
  · refine isAlive_of_kept hr' rfl rfl (fun r' kind' hclosure => ?_)
      fun _ hholds => isAlive_of_holds hholds
    rcases hclosure with hold | hrunning
    · exact isAlive_of_closure (Or.inl (hmem _ hold))
    · rcases List.mem_append.mp hrunning with hold | hnew
      · exact isAlive_of_closure (Or.inr hold)
      · obtain ⟨rfl, rfl⟩ := Prod.mk.inj (List.mem_singleton.mp hnew)
        exact isAlive_of_closure (Or.inl hqueued)
  · intro id hlive
    refine ⟨(h.slots id hlive).1, ?_⟩
    have hslot := (h.slots id hlive).2
    rw [← slots_setScheduled r kind false] at hslot
    exact hslot
  · intro r' kind'
    refine (h.scheduled r' kind').shift (isClosed_eq rfl (thread_setScheduled r kind false r')) ?_
    have hset := scheduled_setScheduled (w := w) r kind false r' kind'
    unfold World.beginClosure
    dsimp only
    rw [hset]
    by_cases heq : r' = r ∧ kind' = kind
    · obtain ⟨rfl, rfl⟩ := heq
      rw [if_pos ⟨rfl, rfl⟩, List.count_erase_self, Bool.toNat_false]
      omega
    · rw [if_neg heq, List.count_erase_of_ne]
      rintro ⟨⟩
      exact heq ⟨rfl, rfl⟩

theorem Registry.endClosure {closure : Closure} (h : Registry w) :
    Registry (w.endClosure closure) := by
  obtain ⟨r, kind⟩ := closure
  obtain ⟨streams, woken, heq, hnotified, -⟩ := notify_spec w r kind
  unfold World.endClosure
  dsimp only
  rw [heq]
  refine h.congr (fun r' hr' => ?_) (fun _ hr _ _ => hr) rfl rfl rfl (thread_setSlot r kind _) ?_ ?_
  · rcases isAlive_iff.mp hr' with ⟨id, hid, hlive, hr⟩ | ⟨kind', hclosure⟩ | hreader
    · rw [(hnotified id).live] at hlive
      rw [(hnotified id).registration] at hr
      exact isAlive_iff.mpr (Or.inl ⟨id, hid, hlive, hr⟩)
    · exact isAlive_of_closure (hclosure.imp_right List.mem_of_mem_erase)
    · exact isAlive_of_holds hreader
  · intro id hlive
    rw [(hnotified id).live] at hlive
    obtain ⟨hlt, hslot⟩ := h.slots id hlive
    refine ⟨hlt, ?_⟩
    rw [(hnotified id).registration, (hnotified id).kind, slots_setSlot]
    split
    next hsame =>
      rw [hsame.1, hsame.2] at hslot
      exact List.mem_filter.mpr ⟨hslot, hlive⟩
    next => exact hslot
  · intro r' kind'
    refine (h.scheduled r' kind').shift (isClosed_eq rfl (thread_setSlot r kind _ r')) ?_
    rw [wakeScheduled_setSlot]

/-! ## Calls -/

variable {thread : Nat} {group : Option Nat}

/-- Who keeps a registration after a stream was added. -/
theorem isAlive_addSignal {r' : Nat} (hr' : (w.addSignal r kind group).1.isAlive r' = true) :
    r' = r ∨ w.isAlive r' = true := by
  rcases isAlive_iff.mp hr' with ⟨id, hid, hlive, hreg⟩ | hother
  · by_cases hnew : id = w.nextStream
    · subst hnew
      dsimp only [World.addSignal] at hreg
      rw [update_self] at hreg
      exact .inl hreg.symm
    · dsimp only [World.addSignal] at hid hlive hreg
      rw [update_of_ne hnew] at hlive hreg
      refine .inr (isAlive_iff.mpr (Or.inl ⟨id, ?_, hlive, hreg⟩))
      exact Nat.lt_of_le_of_ne (Nat.le_of_lt_succ hid) hnew
  · exact .inr (isAlive_iff.mpr (Or.inr hother))

variable (w r kind group) in
theorem thread_addSignal (r' : Nat) :
    ((w.addSignal r kind group).1.threads r').thread = (w.threads r').thread :=
  thread_setSlot r kind _ r'

/-- A new stream keeps its registration, which the reader finds. -/
theorem Registry.addSignal (h : Registry w) (hlt : r < w.nextRegistration)
    (hcurrent : w.current (w.threads r).thread.thread = some r)
    (hmem : w.isClosed (w.threads r).thread = false → r ∈ w.registrations) :
    Registry (w.addSignal r kind group).1 where
  alive := by
    intro r' hr'
    rw [thread_addSignal]
    rcases isAlive_addSignal hr' with rfl | halive
    · exact ⟨hlt, hcurrent⟩
    · exact h.alive r' halive
  listed := by
    intro r' hr' hopen
    rw [thread_addSignal] at hopen
    rcases isAlive_addSignal hr' with rfl | halive
    · exact hmem hopen
    · exact h.listed r' halive hopen
  slots := by
    intro id hlive
    by_cases hnew : id = w.nextStream
    · subst hnew
      refine ⟨Nat.lt_succ_self _, ?_⟩
      dsimp only [World.addSignal]
      rw [update_self, slots_setSlot, if_pos ⟨rfl, rfl⟩]
      exact List.mem_append_right _ (List.mem_singleton_self _)
    · dsimp only [World.addSignal] at hlive ⊢
      rw [update_of_ne hnew] at hlive ⊢
      obtain ⟨hid, hslot⟩ := h.slots id hlive
      refine ⟨Nat.lt_succ_of_lt hid, ?_⟩
      rw [slots_setSlot]
      split
      next hsame =>
        rw [hsame.1, hsame.2] at hslot
        exact List.mem_append_left _ hslot
      next => exact hslot
  scheduled := by
    intro r' kind'
    refine (h.scheduled r' kind').shift (isClosed_eq rfl (thread_addSignal w r kind group r')) ?_
    exact congrArg (fun flags => _ + Bool.toNat (flags kind')) (wakeScheduled_setSlot r kind _ r').symm

/-- A thread without a registration that is alive gets a new one. -/
theorem Registry.fresh (h : Registry w)
    (hnone : ∀ r, w.isAlive r = true → w.current thread ≠ some r) :
    Registry (threadRegistration.fresh w thread).1 := by
  have hne : ∀ r, w.isAlive r = true → r ≠ w.nextRegistration :=
    fun r hr => Nat.ne_of_lt (h.alive r hr).1
  have hthreads : ∀ r, w.isAlive r = true →
      (threadRegistration.fresh w thread).1.threads r = w.threads r :=
    fun r hr => update_of_ne (hne r hr) ..
  constructor
  · intro r hr
    have hold : w.isAlive r = true := isAlive_iff.mpr (isAlive_iff.mp hr)
    obtain ⟨hlt, hcurrent⟩ := h.alive r hold
    refine ⟨Nat.lt_succ_of_lt hlt, ?_⟩
    rw [hthreads r hold]
    refine (update_of_ne ?_ ..).trans hcurrent
    rintro heq
    rw [heq] at hcurrent
    exact hnone r hold hcurrent
  · intro r hr hopen
    have hold : w.isAlive r = true := isAlive_iff.mpr (isAlive_iff.mp hr)
    rw [hthreads r hold] at hopen
    exact List.mem_append_left _ (h.listed r hold hopen)
  · intro id hlive
    obtain ⟨hid, hslot⟩ := h.slots id hlive
    refine ⟨hid, ?_⟩
    have halive : w.isAlive (w.streams id).registration = true := h.isAlive_of_live hlive
    rw [show (threadRegistration.fresh w thread).1.threads
      ((threadRegistration.fresh w thread).1.streams id).registration =
        w.threads (w.streams id).registration from hthreads _ halive]
    exact hslot
  · intro r kind
    by_cases heq : r = w.nextRegistration
    · subst heq
      have habsent : ¬ w.isAlive w.nextRegistration = true := fun hr => hne _ hr rfl
      have hqueued : w.queued.count (w.nextRegistration, kind) = 0 :=
        List.count_eq_zero.mpr fun hmem => habsent (isAlive_of_closure (Or.inl hmem))
      have hreader : w.reader.queues w.nextRegistration kind = false :=
        Bool.eq_false_iff.mpr fun hq => habsent (isAlive_of_holds (Reader.holds_of_queues hq))
      have hflag : ((threadRegistration.fresh w thread).1.threads w.nextRegistration).wakeScheduled
          kind = false := by simp [threadRegistration.fresh]
      have hsum : w.queued.count (w.nextRegistration, kind) +
          (w.reader.queues w.nextRegistration kind).toNat = Bool.toNat false := by
        rw [hqueued, hreader]
        rfl
      have heq := hsum.trans (congrArg Bool.toNat hflag.symm)
      exact ⟨Nat.le_of_eq heq, fun _ => heq⟩
    · have hsame : (threadRegistration.fresh w thread).1.threads r = w.threads r :=
        update_of_ne heq ..
      refine (h.scheduled r kind).shift (isClosed_eq rfl (congrArg _ hsame)) ?_
      rw [hsame]
      rfl

theorem Registry.threadRegistration (h : Registry w) (thread : Nat) :
    Registry (w.threadRegistration thread).1 ∧
      (w.threadRegistration thread).2 < (w.threadRegistration thread).1.nextRegistration ∧
      (w.threadRegistration thread).1.current
        (((w.threadRegistration thread).1.threads (w.threadRegistration thread).2).thread.thread) =
          some (w.threadRegistration thread).2 ∧
      ((w.threadRegistration thread).1.isClosed
          ((w.threadRegistration thread).1.threads (w.threadRegistration thread).2).thread = false →
        (w.threadRegistration thread).2 ∈ (w.threadRegistration thread).1.registrations) := by
  have hfresh (hnone : ∀ r, w.isAlive r = true → w.current thread ≠ some r) :
      let next := threadRegistration.fresh w thread
      Registry next.1 ∧ next.2 < next.1.nextRegistration ∧
        next.1.current (next.1.threads next.2).thread.thread = some next.2 ∧
        (next.1.isClosed (next.1.threads next.2).thread = false →
          next.2 ∈ next.1.registrations) := by
    refine ⟨h.fresh hnone, Nat.lt_succ_self _, ?_, fun _ =>
      List.mem_append_right _ (List.mem_singleton_self _)⟩
    simp [threadRegistration.fresh]
  unfold World.threadRegistration
  cases hcurrent : w.current thread with
  | none => exact hfresh (by simp [hcurrent])
  | some r =>
      dsimp only
      by_cases halive : w.isAlive r = true
      · rw [if_pos halive]
        obtain ⟨hlt, hthread⟩ := h.alive r halive
        exact ⟨h, hlt, hthread, h.listed r halive⟩
      · rw [if_neg halive]
        refine hfresh fun r' hr' heq => halive ?_
        rw [hcurrent] at heq
        rw [Option.some.inj heq]
        exact hr'

theorem Registry.signal (h : Registry w) : Registry (w.signal thread kind group).1 := by
  have hinstalled : Registry { w with installed := update w.installed kind true } :=
    h.of_streams rfl rfl rfl rfl rfl rfl rfl rfl rfl fun _ hlive => ⟨hlive, rfl, rfl⟩
  obtain ⟨hregistry, hlt, hcurrent, hmem⟩ := hinstalled.threadRegistration thread
  exact hregistry.addSignal hlt hcurrent hmem

theorem Registry.setStreams {streams : Nat → Stream} {handlers : List Delivery} (h : Registry w)
    (hstreams : ∀ id, (streams id).live = true → (w.streams id).live = true ∧
      (streams id).registration = (w.streams id).registration ∧
      (streams id).kind = (w.streams id).kind) : Registry { w with streams, handlers } :=
  h.of_streams rfl rfl rfl rfl rfl rfl rfl rfl rfl hstreams

theorem Registry.dropSignal (h : Registry w) : Registry (w.dropSignal id) := by
  refine h.setStreams fun id' hlive => ?_
  by_cases heq : id' = id
  · subst heq
    rw [update_self] at hlive
    exact absurd hlive Bool.false_ne_true
  · rw [update_of_ne heq] at hlive ⊢
    exact ⟨hlive, rfl, rfl⟩

theorem pollSignal_fst {waker : Waker} :
    (w.pollSignal id waker).1 = { w with
      streams := update w.streams id ((w.streams id).pollRecv waker).1
      handlers := if ((w.streams id).pollRecv waker).2 then
        w.handlers.map fun d => { d with waiting := d.waiting.filter (· ≠ id) } else w.handlers } := by
  unfold pollSignal
  dsimp only
  split
  · rfl
  · rfl

theorem Registry.pollSignal {waker : Waker} (h : Registry w) :
    Registry (w.pollSignal id waker).1 := by
  rw [pollSignal_fst]
  refine h.setStreams fun id' hlive => ?_
  by_cases heq : id' = id
  · subst heq
    obtain ⟨hkind, hregistration, hlive', -⟩ := (w.streams id').pollRecv_keeps waker
    rw [update_self] at hlive ⊢
    exact ⟨hlive' ▸ hlive, hregistration, hkind⟩
  · rw [update_of_ne heq] at hlive ⊢
    exact ⟨hlive, rfl, rfl⟩

end World

end Runite.Signal
