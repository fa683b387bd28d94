import Runite.Signal.DeliverySteps

/-!
# Every run of the signals

The loops of the calls repeat the steps of the streams; a `Signals` comes to each of its kinds
after fewer events of others than it has kinds.
-/

namespace Runite.Signal

open Function Transition

namespace World

variable {w w' : World} {id g : Nat} {kind : SignalKind} {waker : Waker}

structure Sound (w : World) : Prop where
  registry : Registry w
  deliveries : Deliveries w

theorem Sound.init : Sound {} := ⟨.init, .init⟩

/-- The state of the `Signals` does not matter to the streams. -/
theorem Sound.setGroups (h : Sound w) (groups : Nat → Option Group) (nextGroup : Nat) :
    Sound { w with groups, nextGroup } where
  registry := h.registry.of_streams rfl rfl rfl rfl rfl rfl rfl rfl rfl fun _ hlive => ⟨hlive, rfl, rfl⟩
  deliveries := h.deliveries.mono rfl rfl rfl (fun _ hnow => hnow) (fun _ _ hheard => hheard) fun _ _ hcovered => hcovered

/-! ## The loops -/

theorem Sound.threadRegistration {thread : Nat} (h : Sound w) :
    Deliveries (w.threadRegistration thread).1 := by
  have hfresh : Deliveries (threadRegistration.fresh w thread).1 := by
    refine h.deliveries.mono rfl rfl rfl (fun id hnow => ⟨hnow.1, ?_⟩) (fun _ _ hheard => hheard)
      fun _ _ hcovered => hcovered
    have halive := h.registry.isAlive_of_live hnow.1
    have hne : (w.streams id).registration ≠ w.nextRegistration :=
      Nat.ne_of_lt (h.registry.alive _ halive).1
    have hsame : (threadRegistration.fresh w thread).1.threads (w.streams id).registration =
        w.threads (w.streams id).registration := update_of_ne hne ..
    rw [← hsame]
    exact hnow.2
  unfold World.threadRegistration
  split
  · split
    · exact h.deliveries
    · exact hfresh
  · exact hfresh

theorem Sound.signal {thread : Nat} {group : Option Nat} (h : Sound w) :
    Sound (w.signal thread kind group).1 where
  registry := h.registry.signal
  deliveries := by
    have hinstalled : Sound { w with installed := update w.installed kind true } :=
      ⟨h.registry.of_streams rfl rfl rfl rfl rfl rfl rfl rfl rfl fun _ hlive => ⟨hlive, rfl, rfl⟩,
        h.deliveries.mono rfl rfl rfl (fun _ hnow => hnow) (fun _ _ hheard => hheard) fun _ _ hcovered => hcovered⟩
    exact hinstalled.threadRegistration.addSignal

theorem groups_signal {thread : Nat} {group : Option Nat} :
    (w.signal thread kind group).1.groups = w.groups := by
  unfold World.signal World.threadRegistration
  dsimp only
  split
  · split
    · rfl
    · rfl
  · rfl

theorem signalsLoop_spec (thread g : Nat) (kinds : List SignalKind) (w : World)
    (streams : List (SignalKind × Nat)) (h : Sound w) :
    Sound (signalsLoop thread g w kinds streams).1 ∧
      (signalsLoop thread g w kinds streams).1.groups = w.groups ∧
      (kinds ≠ [] ∨ streams ≠ [] → (signalsLoop thread g w kinds streams).2 ≠ []) := by
  induction kinds generalizing w streams with
  | nil => exact ⟨h, rfl, fun hne => hne.resolve_left fun hne => hne rfl⟩
  | cons kind kinds ih =>
      rw [signalsLoop]
      split
      next hany =>
        obtain ⟨hsound, hgroups, hne⟩ := ih w streams h
        refine ⟨hsound, hgroups, fun _ => hne (.inr ?_)⟩
        rintro rfl
        exact Bool.false_ne_true hany
      next =>
        obtain ⟨hsound, hgroups, hne⟩ := ih (w.signal thread kind (some g)).1
          (streams ++ [(kind, (w.signal thread kind (some g)).2)]) h.signal
        exact ⟨hsound, hgroups.trans groups_signal, fun _ => hne (.inr (by simp))⟩

theorem Sound.pollSignal (h : Sound w) : Sound (w.pollSignal id waker).1 :=
  ⟨h.registry.pollSignal, h.deliveries.pollSignal⟩

variable (waker) in
theorem pollSignal_of_seen (hseen : (w.streams id).isUnseen = false) :
    (w.pollSignal id waker).2 = false ∧
      ∀ id', ((w.pollSignal id waker).1.streams id').isUnseen = (w.streams id').isUnseen := by
  constructor
  · simp [World.pollSignal, Stream.pollRecv_of_seen hseen]
  · intro id'
    rw [pollSignal_fst, Stream.pollRecv_of_seen hseen]
    by_cases hid : id' = id
    · subst hid
      dsimp only
      rw [update_self]
      rfl
    · dsimp only
      rw [update_of_ne hid]

variable (waker) in
theorem pollSignal_of_unseen (hunseen : (w.streams id).isUnseen = true) :
    (w.pollSignal id waker).2 = true ∧
      ((w.pollSignal id waker).1.streams id).isUnseen = false ∧
      ∀ id', ((w.pollSignal id waker).1.streams id').isUnseen = true →
        (w.streams id').isUnseen = true := by
  refine ⟨?_, ?_, fun id' hid' => ?_⟩
  · simp [World.pollSignal, Stream.pollRecv_of_unseen hunseen]
  · rw [pollSignal_fst, Stream.pollRecv_of_unseen hunseen]
    dsimp only
    rw [update_self]
    simp [Stream.isUnseen, Stream.yield]
  · by_cases heq : id' = id
    · rw [heq]
      exact hunseen
    · rw [pollSignal_fst, Stream.pollRecv_of_unseen hunseen] at hid'
      dsimp only at hid'
      rwa [update_of_ne heq] at hid'

theorem groups_pollSignal : (w.pollSignal id waker).1.groups = w.groups := by
  rw [pollSignal_fst]

variable (waker) in
theorem pollLoop_spec {streams : List (SignalKind × Nat)} (indices : List Nat) (w : World)
    (h : Sound w) (hindices : ∀ i ∈ indices, i < streams.length) :
    Sound (pollLoop streams waker w indices).1 ∧
      (pollLoop streams waker w indices).1.groups = w.groups ∧
      (pollLoop streams waker w indices).2 = indices.find? (w.isUnseenAt streams) ∧
      ∀ i, (pollLoop streams waker w indices).2 = some i →
        (pollLoop streams waker w indices).1.isUnseenAt streams i = false ∧
        ∀ j, (pollLoop streams waker w indices).1.isUnseenAt streams j = true →
          w.isUnseenAt streams j = true := by
  induction indices generalizing w with
  | nil => exact ⟨h, rfl, rfl, nofun⟩
  | cons index indices ih =>
      have hlt := hindices index List.mem_cons_self
      obtain ⟨stream, hstream⟩ : ∃ stream, streams[index]? = some stream :=
        ⟨_, List.getElem?_eq_getElem hlt⟩
      obtain ⟨kind, id⟩ := stream
      have hat : w.isUnseenAt streams index = (w.streams id).isUnseen := by
        rw [isUnseenAt, hstream, Option.any_some]
      rw [pollLoop, hstream, List.find?_cons, hat]
      dsimp only
      cases hunseen : (w.streams id).isUnseen with
      | true =>
          obtain ⟨hready, hseen, hbefore⟩ := pollSignal_of_unseen waker hunseen
          rw [if_pos hready]
          refine ⟨h.pollSignal, groups_pollSignal, rfl, ?_⟩
          rintro i ⟨⟩
          refine ⟨?_, fun j hj => ?_⟩
          · rw [isUnseenAt, hstream, Option.any_some]
            exact hseen
          · obtain ⟨stream, hstream', hunseen'⟩ := (Option.any_eq_true _ _).mp hj
            exact (Option.any_eq_true _ _).mpr ⟨stream, hstream', hbefore _ hunseen'⟩
      | false =>
          obtain ⟨hready, hsame⟩ := pollSignal_of_seen waker hunseen
          have hsameAt : ∀ j, (w.pollSignal id waker).1.isUnseenAt streams j =
              w.isUnseenAt streams j := by
            intro j
            unfold isUnseenAt
            exact congrArg (Option.any · streams[j]?) (funext fun stream => hsame stream.2)
          rw [if_neg (by rw [hready]; exact Bool.false_ne_true)]
          obtain ⟨hsound, hgroups, hfind, hrest⟩ := ih (w.pollSignal id waker).1 h.pollSignal
            fun i hi => hindices i (List.mem_cons_of_mem _ hi)
          refine ⟨hsound, hgroups.trans groups_pollSignal, hfind.trans ?_, fun i hi => ?_⟩
          · rw [funext hsameAt]
          · obtain ⟨hseen, hbefore⟩ := hrest i hi
            exact ⟨hseen, fun j hj => hsameAt j ▸ hbefore j hj⟩

end World

/-! ## Fairness -/

/-- A kind that was passed over is as much closer to the start of the next poll. -/
structure Group.Fair (group : Group) : Prop where
  next : group.next < group.streams.length
  passed : ∀ j, j < group.streams.length →
    group.passed j + RoundRobin.distance group.streams.length group.next j < group.streams.length

theorem Group.fair_init {streams : List (SignalKind × Nat)} (hne : streams ≠ []) :
    Group.Fair { streams } := by
  have hpos : 0 < streams.length := List.length_pos_iff.mpr hne
  exact ⟨hpos, fun j hj => (Nat.zero_add _).symm ▸ RoundRobin.distance_lt hj hpos⟩

namespace World

variable {w w' : World} {id g : Nat} {group : Group} {kind : SignalKind} {waker : Waker}

/-- Every `Signals` is fair. -/
def Fair (w : World) : Prop := ∀ g group, w.groups g = some group → group.Fair

theorem Fair.update (h : Fair w) {w' : World} (hgroups : w'.groups = w.groups)
    (hfair : group.Fair) : Fair { w' with groups := Function.update w'.groups g (some group) } := by
  intro g' group' hg'
  by_cases heq : g' = g
  · subst heq
    dsimp only at hg'
    rw [update_self] at hg'
    exact Option.some.inj hg' ▸ hfair
  · dsimp only at hg'
    rw [update_of_ne heq, hgroups] at hg'
    exact h g' group' hg'

variable (waker) in
theorem pollGroup_spec (h : Sound w) (hfair : Fair w) (hg : w.groups g = some group) :
    Sound (w.pollGroup g group waker) ∧ Fair (w.pollGroup g group waker) := by
  obtain ⟨hnext, hpassed⟩ := hfair g group hg
  have hmem := fun i => RoundRobin.mem_order (j := i) hnext
  obtain ⟨hsound, hgroups, hfind, hrest⟩ := pollLoop_spec waker
    (RoundRobin.order group.streams.length group.next) w h fun i hi => (hmem i).mp hi
  unfold pollGroup
  dsimp only
  generalize pollLoop group.streams waker w (RoundRobin.order group.streams.length group.next) = r
    at hsound hgroups hfind hrest ⊢
  obtain ⟨w', _ | index⟩ := r
  · exact ⟨hsound.setGroups _ _, hfair.update hgroups ⟨hnext, hpassed⟩⟩
  · refine ⟨hsound.setGroups _ _, hfair.update hgroups ⟨?_, fun j hj => ?_⟩⟩
    · exact Nat.mod_lt _ (Nat.lt_of_le_of_lt (Nat.zero_le _) hnext)
    · obtain ⟨hseen, hbefore⟩ := hrest index rfl
      dsimp only
      split
      next hunseen =>
        refine RoundRobin.passed_succ hnext hfind.symm hj (hbefore j hunseen) ?_ (hpassed j hj)
        rintro rfl
        exact Bool.false_ne_true (hseen.symm.trans hunseen)
      next =>
        rw [Nat.zero_add]
        exact RoundRobin.distance_lt hj (Nat.mod_lt _ (Nat.lt_of_le_of_lt (Nat.zero_le _) hnext))

theorem dropGroup_spec (g : Nat) (group : Group) (h : Sound w) (hfair : Fair w) :
    Sound (w.dropGroup g group) ∧ Fair (w.dropGroup g group) := by
  have hloop : ∀ (streams : List (SignalKind × Nat)) (w : World), Sound w →
      Sound (streams.foldl (fun w stream => w.dropSignal stream.2) w) ∧
        (streams.foldl (fun w stream => w.dropSignal stream.2) w).groups = w.groups := by
    intro streams
    induction streams with
    | nil => exact fun w h => ⟨h, rfl⟩
    | cons stream streams ih =>
        intro w h
        exact ih (w.dropSignal stream.2) ⟨h.registry.dropSignal, h.deliveries.dropSignal⟩
  obtain ⟨hsound, hgroups⟩ := hloop group.streams w h
  unfold dropGroup
  refine ⟨hsound.setGroups _ _, fun g' group' hg' => ?_⟩
  dsimp only at hg'
  rw [hgroups] at hg'
  by_cases heq : g' = g
  · subst heq
    rw [update_self] at hg'
    exact absurd hg' nofun
  · rw [update_of_ne heq] at hg'
    exact hfair g' group' hg'

/-! ## Every run -/

structure Inv (w : World) : Prop extends Sound w where
  fair : Fair w

theorem Inv.of_sound (h : Inv w) (hsound : Sound w') (hgroups : w'.groups = w.groups) : Inv w' :=
  ⟨hsound, fun g group hg => h.fair g group (hgroups ▸ hg)⟩

theorem Inv.signals {thread : Nat} {kinds : List SignalKind} (h : Inv w)
    (hs : w.signals thread kinds = some w') : Inv w' := by
  obtain ⟨hkinds, hs⟩ := Option.ite_none_left_eq_some.mp hs
  obtain rfl := Option.some.inj hs
  have hsound : Sound { w with nextGroup := w.nextGroup + 1 } :=
    h.toSound.setGroups w.groups _
  obtain ⟨hloop, hgroups, hne⟩ := signalsLoop_spec thread w.nextGroup kinds
    { w with nextGroup := w.nextGroup + 1 } [] hsound
  refine ⟨hloop.setGroups _ _, h.fair.update hgroups (Group.fair_init (hne (.inl ?_)))⟩
  rintro rfl
  exact hkinds rfl

theorem groups_readerStep {left : Nat} (hs : w.readerStep left = some w') : w'.groups = w.groups := by
  cases read_of_readerStep hs <;> rfl

theorem groups_endClosure {closure : Closure} : (w.endClosure closure).groups = w.groups := by
  obtain ⟨streams, woken, heq, -⟩ := notify_spec w closure.1 closure.2
  unfold World.endClosure
  rw [heq]

theorem Inv.step {a : Action} (h : Inv w) (hs : w.step a = some w') : Inv w' := by
  obtain ⟨hregistry, hdeliveries⟩ := h.toSound
  cases a with
  | storePending kind =>
      obtain ⟨-, hs⟩ := Option.ite_none_right_eq_some.mp hs
      obtain rfl := Option.some.inj hs
      refine h.of_sound ⟨?_, hdeliveries.storePending kind⟩ rfl
      exact hregistry.of_streams rfl rfl rfl rfl rfl rfl rfl rfl rfl fun _ hlive => ⟨hlive, rfl, rfl⟩
  | writeWake delivery full =>
      obtain ⟨⟨hmem, hfull⟩, hs⟩ := Option.ite_none_right_eq_some.mp hs
      obtain rfl := Option.some.inj hs
      refine h.of_sound ⟨?_, hdeliveries.writeWake hmem hfull⟩ rfl
      refine hregistry.of_streams rfl rfl rfl rfl rfl rfl rfl rfl rfl fun id hlive => ?_
      dsimp only [World.writeWake] at hlive ⊢
      by_cases hid : delivery.waiting.contains id = true
      · rw [if_pos hid] at hlive ⊢
        exact ⟨hlive, rfl, rfl⟩
      · rw [if_neg hid] at hlive ⊢
        exact ⟨hlive, rfl, rfl⟩
  | reader left =>
      have hread := read_of_readerStep hs
      exact h.of_sound ⟨hregistry.read hread, hdeliveries.read hregistry hread⟩ (groups_readerStep hs)
  | beginClosure closure =>
      obtain ⟨⟨hmem, -⟩, hs⟩ := Option.ite_none_right_eq_some.mp hs
      obtain rfl := Option.some.inj hs
      exact h.of_sound ⟨hregistry.beginClosure hmem, hdeliveries.beginClosure⟩ rfl
  | close thread =>
      obtain ⟨-, hs⟩ := Option.ite_none_right_eq_some.mp hs
      obtain rfl := Option.some.inj hs
      exact h.of_sound ⟨hregistry.close thread, hdeliveries.close thread⟩ rfl
  | dropClosure closure =>
      obtain ⟨⟨-, hclosed⟩, hs⟩ := Option.ite_none_right_eq_some.mp hs
      obtain rfl := Option.some.inj hs
      exact h.of_sound ⟨hregistry.dropClosure hclosed, hdeliveries.dropClosure hclosed⟩ rfl
  | install thread =>
      obtain ⟨-, hs⟩ := Option.ite_none_right_eq_some.mp hs
      obtain rfl := Option.some.inj hs
      exact h.of_sound ⟨hregistry.install thread, hdeliveries.install thread⟩ rfl
  | endClosure closure =>
      obtain ⟨-, hs⟩ := Option.ite_none_right_eq_some.mp hs
      obtain rfl := Option.some.inj hs
      exact h.of_sound ⟨hregistry.endClosure, hdeliveries.endClosure hregistry⟩ groups_endClosure
  | signal thread kind =>
      obtain rfl := Option.some.inj hs
      exact h.of_sound h.toSound.signal groups_signal
  | signals thread kinds => exact h.signals hs
  | dropSignal id =>
      obtain ⟨-, hs⟩ := Option.ite_none_right_eq_some.mp hs
      obtain rfl := Option.some.inj hs
      exact h.of_sound ⟨hregistry.dropSignal, hdeliveries.dropSignal⟩ rfl
  | dropSignals g =>
      obtain ⟨group, -, rfl⟩ := Option.map_eq_some_iff.mp hs
      obtain ⟨hsound, hfair⟩ := dropGroup_spec g group h.toSound h.fair
      exact ⟨hsound, hfair⟩
  | poll id waker =>
      obtain ⟨-, hs⟩ := Option.ite_none_right_eq_some.mp hs
      obtain rfl := Option.some.inj hs
      exact h.of_sound h.toSound.pollSignal groups_pollSignal
  | pollGroup g waker =>
      obtain ⟨group, hg, rfl⟩ := Option.map_eq_some_iff.mp hs
      obtain ⟨hsound, hfair⟩ := pollGroup_spec waker h.toSound h.fair hg
      exact ⟨hsound, hfair⟩

theorem inv_of_reachable (hreach : Reachable step (fun _ _ => True) {} w) : Inv w :=
  hreach.invariant Inv ⟨.init, nofun⟩ fun _ _ _ h _ hs => h.step hs

/-- At most one closure is queued for a thread and a kind. -/
theorem Registry.closure_unique (h : Registry w) :
    w.queued.Nodup ∧ ∀ c ∈ w.queued, ∀ c' ∈ w.queued,
      (w.threads c.1).thread.thread = (w.threads c'.1).thread.thread → c.2 = c'.2 → c = c' := by
  constructor
  · refine List.nodup_iff_count_le_one.mpr fun c => ?_
    have hbool : ((w.threads c.1).wakeScheduled c.2).toNat ≤ 1 := Bool.toNat_le _
    exact Nat.le_trans (Nat.le_add_right _ _) (Nat.le_trans (h.scheduled c.1 c.2).1 hbool)
  · intro c hc c' hc' hthread hkind
    refine Prod.ext (h.eq_of_thread_eq ?_ ?_ hthread) hkind
    · exact isAlive_of_closure (Or.inl hc)
    · exact isAlive_of_closure (Or.inl hc')

/-- The waker of a poll that returned `Pending` is the one that the next closure wakes. -/
theorem Inv.wakes (h : Inv w) (hlive : (w.streams id).live = true)
    (hawaiting : (w.streams id).awaiting = some waker) :
    ∃ woken, (w.endClosure ((w.streams id).registration, (w.streams id).kind)).woken =
      w.woken ++ woken ∧ (id, waker) ∈ woken := by
  obtain ⟨streams, woken, heq, -, hmem⟩ :=
    notify_spec w (w.streams id).registration (w.streams id).kind
  obtain ⟨-, hwoken⟩ := hmem id (h.registry.slots id hlive).2 hlive
  refine ⟨woken, ?_, hwoken waker ?_⟩
  · unfold endClosure
    rw [heq]
  · rw [(h.deliveries.consistent id).waker, hawaiting]

/-- In every run a stream that a delivery is owed to is unseen, or a closure for it is queued or
runs, or the reader is at its registration or comes to its pending kind, while the runtime of its
registration is open; a thread has at most one closure of a kind in its queue; the next closure
wakes the last waker; and a kind of a `Signals` is passed over less often than there are kinds. -/
theorem no_signal_lost_of_reachable (hreach : Reachable step (fun _ _ => True) {} w) :
    (∀ id, w.Listens id → (w.streams id).owed = true → w.Covered id) ∧
      (w.queued.Nodup ∧ ∀ c ∈ w.queued, ∀ c' ∈ w.queued,
        (w.threads c.1).thread.thread = (w.threads c'.1).thread.thread → c.2 = c'.2 → c = c') ∧
      (∀ id waker, (w.streams id).live = true → (w.streams id).awaiting = some waker →
        ∃ woken, (w.endClosure ((w.streams id).registration, (w.streams id).kind)).woken =
          w.woken ++ woken ∧ (id, waker) ∈ woken) ∧
      ∀ g group, w.groups g = some group → ∀ j, j < group.streams.length →
        group.passed j < group.streams.length := by
  have h := inv_of_reachable hreach
  refine ⟨h.deliveries.owed, h.registry.closure_unique, fun _ _ hlive hawaiting =>
    h.wakes hlive hawaiting, fun g group hg j hj => ?_⟩
  exact Nat.lt_of_le_of_lt (Nat.le_add_right _ _) ((h.fair g group hg).passed j hj)

/-- A signal arrives while the reader dispatches an older one, after it has passed the kind.  A
runtime that was shut down is passed over. -/
theorem no_signal_lost_while_dispatching :
    ∃ w : World, Reachable step (fun _ _ => True) {} w ∧
      ((w.streams 0).owed = true ∧ w.queued = [(0, .user1)] ∧ w.pending .interrupt = true) ∧
      w.Covered 0 := by
  obtain ⟨w, hreach, hp⟩ := Reachable.exists_of_run step (fun _ _ => True) ({} : World)
    [.signals 1 [.interrupt, .user1, .interrupt], .signal 2 .user1, .close 2, .pollGroup 0 5,
      .storePending .user1, .writeWake ⟨.user1, [1, 2]⟩ false, .reader 0, .reader 0, .reader 0,
      .reader 0, .reader 0, .reader 0, .reader 0, .storePending .interrupt, .reader 0, .reader 0,
      .reader 0, .reader 0, .writeWake ⟨.interrupt, [0]⟩ false, .reader 0]
    (fun w => decide ((w.streams 0).live = true ∧
      w.isClosed (w.threads (w.streams 0).registration).thread = false ∧
      (w.streams 0).owed = true ∧ w.queued = [(0, .user1)] ∧ w.pending .interrupt = true))
    (by simp) (by decide)
  obtain ⟨hlive, hopen, howed, hqueued, hpending⟩ := of_decide_eq_true hp
  obtain ⟨hcovered, -⟩ := no_signal_lost_of_reachable hreach
  exact ⟨w, hreach, ⟨howed, hqueued, hpending⟩, hcovered 0 ⟨hlive, hopen⟩ howed⟩

end World

end Runite.Signal
