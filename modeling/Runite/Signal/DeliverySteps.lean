import Runite.Signal.Deliveries

/-!
# Deliveries, step by step

From the handler over the reader and the closures to the streams.
-/

namespace Runite.Signal.World

open Function

variable {w w' : World} {id : Nat} {kind : SignalKind}

/-! ## The handler -/

theorem pending_mono (kind : SignalKind) {kind' : SignalKind} (h : w.pending kind' = true) :
    update w.pending kind true kind' = true := by
  by_cases heq : kind' = kind
  · subst heq
    exact update_self ..
  · rw [update_of_ne heq]
    exact h

theorem Deliveries.storePending (h : Deliveries w) (kind : SignalKind) :
    Deliveries (w.storePending kind) where
  consistent := h.consistent
  waiting := by
    intro d hd id hid
    rcases List.mem_append.mp hd with hold | hnew
    · obtain ⟨hlt, hwaiting⟩ := h.waiting d hold id hid
      refine ⟨hlt, fun hlive => ?_⟩
      obtain ⟨hkind, hheard⟩ := hwaiting hlive
      exact ⟨hkind, hheard.imp_left (pending_mono kind)⟩
    · rw [List.mem_singleton.mp hnew] at hid ⊢
      obtain ⟨hrange, hcond⟩ := List.mem_filter.mp hid
      obtain ⟨-, hkind⟩ := Bool.and_eq_true_iff.mp hcond
      refine ⟨List.mem_range.mp hrange, fun _ => ⟨eq_of_beq hkind, .inl ?_⟩⟩
      rw [show ((w.storePending kind).streams id).kind = kind from eq_of_beq hkind]
      exact update_self ..
  owed := by
    intro id hlive howed
    refine (h.owed id hlive howed).imp_left fun hpending => ?_
    exact ⟨pending_mono kind hpending.1, hpending.2⟩

/-- Once the handler has written, the reader sees the flag. -/
theorem Deliveries.writeWake {d : Delivery} {full : Bool} (h : Deliveries w) (hd : d ∈ w.handlers)
    (hfull : full = true → 0 < w.wake) : Deliveries (w.writeWake d full) := by
  have hwake : 0 < (w.writeWake d full).wake := by
    unfold World.writeWake
    cases full with
    | true => exact hfull rfl
    | false => exact Nat.succ_pos _
  have hstream : ∀ id, ∃ owed, (w.writeWake d full).streams id = { w.streams id with owed } ∧
      (owed = true → (w.streams id).owed = true ∨ id ∈ d.waiting) := by
    intro id
    by_cases hid : id ∈ d.waiting
    · exact ⟨true, if_pos (by simpa using hid), fun _ => .inr hid⟩
    · exact ⟨(w.streams id).owed, if_neg (by simpa using hid), .inl⟩
  have hlistens : ∀ id, (w.writeWake d full).Listens id → w.Listens id := by
    intro id hnow
    obtain ⟨owed, heq, -⟩ := hstream id
    exact hnow.congr rfl (fun _ => rfl) (by rw [heq]) (by rw [heq])
  have hhandled : ∀ id, w.Handled id → (w.writeWake d full).Handled id := by
    intro id hid
    obtain ⟨owed, heq, -⟩ := hstream id
    unfold Handled
    rw [heq]
    exact hid
  constructor
  · intro id
    obtain ⟨owed, heq, -⟩ := hstream id
    rw [heq]
    obtain ⟨hle, hwaker, hseen⟩ := h.consistent id
    exact ⟨hle, hwaker, hseen⟩
  · intro d' hd' id hid
    obtain ⟨hlt, hwaiting⟩ := h.waiting d' (List.mem_of_mem_erase hd') id hid
    refine ⟨hlt, fun hnow => ?_⟩
    obtain ⟨hkind, hheard⟩ := hwaiting (hlistens id hnow)
    obtain ⟨owed, heq, -⟩ := hstream id
    rw [heq]
    refine ⟨hkind, ?_⟩
    unfold Heard
    rw [heq]
    exact hheard.imp_right (hhandled id)
  · intro id hnow howed
    obtain ⟨owed, heq, hwhy⟩ := hstream id
    rw [heq] at howed
    have hheard : w.Heard id := by
      rcases hwhy howed with hold | hmem
      · exact (h.owed id (hlistens id hnow) hold).heard
      · exact ((h.waiting d hd id hmem).2 (hlistens id hnow)).2
    unfold Covered
    rw [heq]
    exact hheard.imp (fun hpending => ⟨hpending, .inl hwake⟩) (hhandled id)

/-! ## The reader -/

theorem Deliveries.moves (h : Deliveries w) (hstreams : w'.streams = w.streams)
    (hnext : w'.nextStream = w.nextStream) (hhandlers : w'.handlers = w.handlers)
    (hpending : w'.pending = w.pending) (hrunning : w'.running = w.running)
    (hclosed : w'.closed = w.closed) (hthread : ∀ r, (w'.threads r).thread = (w.threads r).thread)
    (hqueued : ∀ closure ∈ w.queued, closure ∈ w'.queued)
    (hserves : ∀ id, w.Listens id →
      w.reader.serves (w.streams id).registration (w.streams id).kind →
        w'.reader.serves (w.streams id).registration (w.streams id).kind ∨
          ((w.streams id).registration, (w.streams id).kind) ∈ w'.queued)
    (hcomes : ∀ kind, w.pending kind = true → 0 < w.wake ∨ w.reader.comes kind →
      0 < w'.wake ∨ w'.reader.comes kind) : Deliveries w' := by
  have hlistens : ∀ id, w'.Listens id → w.Listens id := fun id hnow =>
    hnow.congr hclosed hthread (by rw [hstreams]) (by rw [hstreams])
  have hhandled : ∀ id, w'.Listens id → w.Handled id → w'.Handled id := by
    intro id hnow hid
    unfold Handled at hid ⊢
    rw [hstreams, hrunning]
    rcases hid with hreader | hclosure | hrest
    · exact (hserves id (hlistens id hnow) hreader).imp_right Or.inl
    · exact .inr (.inl (hqueued _ hclosure))
    · exact .inr (.inr hrest)
  refine h.mono hstreams hnext hhandlers hlistens (fun id hnow hheard => ?_)
    (fun id hnow hcovered => ?_)
  · unfold Heard
    rw [hpending, hstreams]
    exact hheard.imp_right (hhandled id hnow)
  · unfold Covered
    rw [hpending, hstreams]
    refine hcovered.imp (fun hpending => ?_) (hhandled id hnow)
    exact ⟨hpending.1, hcomes _ hpending.1 hpending.2⟩

/-- The streams of the kind are served from here on, and the flags of the others stay. -/
theorem Deliveries.takes {kind : SignalKind} {kinds : List SignalKind} (h : Deliveries w)
    (hreader : w.reader = .dispatching (kind :: kinds)) :
    Deliveries { w with
      pending := update w.pending kind false, reader := .retaining kind kinds } := by
  have hserved : ∀ {id}, (w.streams id).kind = kind → Handled { w with
      pending := update w.pending kind false, reader := .retaining kind kinds } id :=
    fun heq => .inl heq.symm
  have hhandled : ∀ {id}, w.Handled id → Handled { w with
      pending := update w.pending kind false, reader := .retaining kind kinds } id := by
    intro id hid
    refine hid.imp_left fun hserves => ?_
    rw [hreader] at hserves
    exact hserves.elim
  refine h.mono rfl rfl rfl (fun _ hnow => hnow) (fun id _ hheard => ?_)
    (fun id _ hcovered => ?_)
  · by_cases heq : (w.streams id).kind = kind
    · exact .inr (hserved heq)
    · exact hheard.imp ((update_of_ne heq ..).trans ·) hhandled
  · by_cases heq : (w.streams id).kind = kind
    · exact .inr (hserved heq)
    · refine hcovered.imp (fun hpending => ⟨(update_of_ne heq ..).trans hpending.1, ?_⟩) hhandled
      refine hpending.2.imp_right fun hcomes => ?_
      rw [hreader] at hcomes
      exact (List.mem_cons.mp hcomes).resolve_left heq

theorem Deliveries.read (h : Deliveries w) (hregistry : Registry w) (hr : Read w w') :
    Deliveries w' := by
  have hsame : ∀ closure ∈ w.queued, closure ∈ w.queued := fun _ hmem => hmem
  have hthread : ∀ r, (w.threads r).thread = (w.threads r).thread := fun _ => rfl
  cases hr with
  | wakes hreader hwake =>
      refine h.moves rfl rfl rfl rfl rfl rfl hthread hsame (fun id _ hid => ?_) (fun _ _ _ => .inl hwake)
      rw [hreader] at hid
      exact hid.elim
  | reads hreader =>
      refine h.moves rfl rfl rfl rfl rfl rfl hthread hsame (fun id _ hid => ?_) fun kind _ _ =>
        .inr (SignalKind.mem_all kind)
      rw [hreader] at hid
      exact hid.elim
  | sleeps hreader hwake =>
      refine h.moves rfl rfl rfl rfl rfl rfl hthread hsame (fun id _ hid => ?_) fun kind _ hor => ?_
      · rw [hreader] at hid
        exact hid.elim
      · rw [hreader, hwake] at hor
        exact hor.elim (fun hlt => absurd hlt (Nat.lt_irrefl _)) False.elim
  | dispatched hreader =>
      refine h.moves rfl rfl rfl rfl rfl rfl hthread hsame (fun id _ hid => ?_) fun kind _ hor => ?_
      · rw [hreader] at hid
        exact hid.elim
      · rw [hreader] at hor
        exact hor.imp_right fun hmem => absurd hmem List.not_mem_nil
  | passes hreader hflag =>
      refine h.moves rfl rfl rfl rfl rfl rfl hthread hsame (fun id _ hid => ?_) fun kind hpending hor => ?_
      · rw [hreader] at hid
        exact hid.elim
      · rw [hreader] at hor
        refine hor.imp_right fun hmem => (List.mem_cons.mp hmem).resolve_left ?_
        rintro rfl
        exact Bool.false_ne_true (hflag.symm.trans hpending)
  | takes hreader => exact h.takes hreader
  | retains hreader =>
      refine h.moves rfl rfl rfl rfl rfl rfl hthread hsame (fun id hlistens hid => ?_) fun kind _ hor => ?_
      · rw [hreader] at hid
        have halive := hregistry.isAlive_of_live hlistens.1
        refine .inl ⟨hid, .inl (List.mem_filter.mpr ⟨?_, ?_⟩)⟩
        · exact hregistry.listed _ halive hlistens.2
        · rw [halive, hlistens.2]
          rfl
      · rwa [hreader] at hor
  | upgrades hreader halive =>
      refine h.moves rfl rfl rfl rfl rfl rfl hthread hsame (fun id hlistens hid => ?_) fun kind _ hor => ?_
      · rw [hreader] at hid
        obtain ⟨hkind, hmem⟩ := hid
        refine .inl ⟨hkind, ?_⟩
        rcases hmem with hleft | hheld
        · rcases List.mem_cons.mp hleft with heq | hrest
          · exact .inr (List.mem_append_right _ (List.mem_singleton.mpr heq))
          · exact .inl hrest
        · exact .inr (List.mem_append_left _ hheld)
      · rwa [hreader] at hor
  | skips hreader hdead =>
      refine h.moves rfl rfl rfl rfl rfl rfl hthread hsame (fun id hlistens hid => ?_) fun kind _ hor => ?_
      · rw [hreader] at hid
        obtain ⟨hkind, hmem⟩ := hid
        refine .inl ⟨hkind, hmem.imp_left fun hleft => (List.mem_cons.mp hleft).resolve_left ?_⟩
        intro heq
        have halive := hregistry.isAlive_of_live hlistens.1
        rw [heq, hdead] at halive
        exact Bool.false_ne_true halive
      · rwa [hreader] at hor
  | collected hreader =>
      refine h.moves rfl rfl rfl rfl rfl rfl hthread hsame (fun id hlistens hid => ?_) fun kind _ hor => ?_
      · rw [hreader] at hid
        exact .inl ⟨hid.1, hid.2.resolve_left List.not_mem_nil⟩
      · rwa [hreader] at hor
  | scheduled hreader =>
      refine h.moves rfl rfl rfl rfl rfl rfl hthread hsame (fun id hlistens hid => ?_) fun kind _ hor => ?_
      · rw [hreader] at hid
        exact absurd hid.2 List.not_mem_nil
      · rwa [hreader] at hor
  | @coalesces kind r held kinds hreader hflag =>
      refine h.moves rfl rfl rfl rfl rfl rfl hthread hsame (fun id hlistens hid => ?_) fun kind _ hor => ?_
      · rw [hreader] at hid
        obtain ⟨rfl, hmem⟩ := hid
        rcases List.mem_cons.mp hmem with heq | hrest
        · have hcount := (hregistry.scheduled r (w.streams id).kind).2 (heq ▸ hlistens.2)
          rw [hflag, hreader] at hcount
          refine .inr (List.count_pos_iff.mp ?_)
          rw [heq]
          simp only [Reader.queues, Bool.toNat_false, Bool.toNat_true, Nat.add_zero] at hcount
          exact hcount ▸ Nat.one_pos
        · exact .inl ⟨rfl, hrest⟩
      · rwa [hreader] at hor
  | @marks kind r held kinds hreader hflag =>
      refine h.moves rfl rfl rfl rfl rfl rfl (thread_setScheduled r kind true) hsame
        (fun id hlistens hid => ?_) fun kind _ hor => ?_
      · rw [hreader] at hid
        obtain ⟨rfl, hmem⟩ := hid
        exact .inl ⟨rfl, (List.mem_cons.mp hmem).imp_left Eq.symm⟩
      · rwa [hreader] at hor
  | queues hreader =>
      refine h.moves rfl rfl rfl rfl rfl rfl hthread (fun _ hmem => List.mem_append_left _ hmem)
        (fun id hlistens hid => ?_) fun kind _ hor => ?_
      · rw [hreader] at hid
        obtain ⟨rfl, heq | hmem⟩ := hid
        · exact .inr (List.mem_append_right _ (List.mem_singleton.mpr (by rw [heq])))
        · exact .inl ⟨rfl, hmem⟩
      · rwa [hreader] at hor
  | refuses hreader hclosed =>
      refine h.moves rfl rfl rfl rfl rfl rfl hthread hsame (fun id hlistens hid => ?_)
        fun kind _ hor => ?_
      · rw [hreader] at hid
        obtain ⟨hkind, heq | hmem⟩ := hid
        · rw [heq] at hclosed
          exact absurd (hlistens.2.symm.trans hclosed) Bool.false_ne_true
        · exact .inl ⟨hkind, hmem⟩
      · rwa [hreader] at hor
  | @clears kind r held kinds hreader =>
      refine h.moves rfl rfl rfl rfl rfl rfl (thread_setScheduled r kind false) hsame
        (fun id hlistens hid => ?_) fun kind _ hor => ?_
      · rw [hreader] at hid
        exact .inl hid
      · rwa [hreader] at hor

/-! ## The end of a runtime -/

theorem Deliveries.close (h : Deliveries w) (thread : Nat) : Deliveries (w.close thread) :=
  h.mono rfl rfl rfl (fun _ hnow => ⟨hnow.1, isClosed_of_close hnow.2⟩) (fun _ _ hheard => hheard)
    fun _ _ hcovered => hcovered

theorem Deliveries.dropClosure {closure : Closure} (h : Deliveries w)
    (hclosed : w.isClosed (w.threads closure.1).thread = true) :
    Deliveries (w.dropClosure closure) := by
  have hhandled : ∀ id, (w.dropClosure closure).Listens id → w.Handled id →
      (w.dropClosure closure).Handled id := by
    intro id hnow hid
    refine hid.imp_right (Or.imp_left fun hmem => (List.mem_erase_of_ne ?_).mpr hmem)
    intro heq
    rw [← heq] at hclosed
    exact Bool.false_ne_true (hnow.2.symm.trans hclosed)
  exact h.mono rfl rfl rfl (fun _ hnow => hnow)
    (fun id hnow hheard => hheard.imp_right (hhandled id hnow))
    fun id hnow hcovered => hcovered.imp_right (hhandled id hnow)

theorem Deliveries.install (h : Deliveries w) (thread : Nat) : Deliveries (w.install thread) :=
  h.mono rfl rfl rfl (fun _ hnow => hnow) (fun _ _ hheard => hheard) fun _ _ hcovered => hcovered

/-! ## The closures -/

theorem Deliveries.beginClosure {closure : Closure} (h : Deliveries w) :
    Deliveries (w.beginClosure closure) := by
  have hhandled : ∀ id, w.Handled id → (w.beginClosure closure).Handled id := by
    intro id hid
    refine hid.imp_right fun hrest => ?_
    by_cases heq : ((w.streams id).registration, (w.streams id).kind) = closure
    · exact .inr (.inl (List.mem_append_right _ (List.mem_singleton.mpr heq)))
    · refine hrest.imp (fun hmem => (List.mem_erase_of_ne heq).mpr hmem) (Or.imp_left fun hmem => ?_)
      exact List.mem_append_left _ hmem
  exact h.mono rfl rfl rfl
    (fun _ hnow => hnow.congr rfl (thread_setScheduled closure.1 closure.2 false) rfl rfl)
    (fun id _ hheard => hheard.imp_right (hhandled id))
    (fun id _ hcovered => hcovered.imp_right (hhandled id))

/-- The streams of the slot are unseen after the closure. -/
theorem Deliveries.endClosure {closure : Closure} (h : Deliveries w) (hregistry : Registry w) :
    Deliveries (w.endClosure closure) := by
  obtain ⟨r, kind⟩ := closure
  obtain ⟨streams, woken, heq, hnotified, hmem⟩ := notify_spec w r kind
  unfold World.endClosure
  dsimp only
  rw [heq]
  refine h.of_streams rfl rfl rfl (Nat.le_refl _)
    (fun id => (h.consistent id).notified (hnotified id))
    (fun d hd => ⟨d, hd, rfl, fun _ hid => hid⟩) (fun id hnow => .inr ?_)
  have hlistens : w.Listens id := hnow.congr rfl (thread_setSlot r kind _) (hnotified id).live
    (hnotified id).registration
  have hold := hlistens.1
  refine ⟨hlistens, (hnotified id).kind, fun howed => (hnotified id).owed ▸ howed, fun hid => ?_⟩
  by_cases hsame : (w.streams id).registration = r ∧ (w.streams id).kind = kind
  · have hslot := (hregistry.slots id hold).2
    rw [hsame.1, hsame.2] at hslot
    refine .inr (.inr (.inr ?_))
    exact (h.consistent id).isUnseen_of_lt (hnotified id) (hmem id hslot hold).1
  · unfold Handled
    dsimp only
    rw [(hnotified id).registration, (hnotified id).kind]
    refine hid.imp_right (Or.imp_right (Or.imp (fun hrunning => ?_) ?_))
    · refine (List.mem_erase_of_ne ?_).mpr hrunning
      exact fun hpair => hsame (Prod.mk.inj hpair)
    · exact (h.consistent id).isUnseen_notified (hnotified id)

/-! ## The streams -/

theorem Deliveries.addSignal {r : Nat} {group : Option Nat} (h : Deliveries w) :
    Deliveries (w.addSignal r kind group).1 := by
  have hne : ∀ id, id ≠ w.nextStream →
      (w.addSignal r kind group).1.streams id = w.streams id := fun id hid => update_of_ne hid ..
  have hself : (w.addSignal r kind group).1.streams w.nextStream =
      { kind, registration := r, group, live := true } := update_self ..
  refine h.of_streams rfl rfl rfl (Nat.le_succ _) (fun id => ?_)
    (fun d hd => ⟨d, hd, rfl, fun _ hid => hid⟩) (fun id hnow => ?_)
  · by_cases hid : id = w.nextStream
    · subst hid
      rw [hself]
      exact ⟨Nat.le_refl _, rfl, nofun⟩
    · rw [hne id hid]
      exact h.consistent id
  · by_cases hid : id = w.nextStream
    · subst hid
      refine .inl ⟨by rw [hself], fun d hd hmem => ?_⟩
      exact Nat.lt_irrefl _ (h.waiting d hd _ hmem).1
    · have hlistens : w.Listens id := hnow.congr rfl (thread_addSignal w r kind group)
        (by rw [hne id hid]) (by rw [hne id hid])
      refine .inr ⟨hlistens, by rw [hne id hid], by rw [hne id hid]; exact fun howed => howed,
        fun hhandled => ?_⟩
      unfold Handled
      rw [hne id hid]
      exact hhandled

theorem Deliveries.dropSignal (h : Deliveries w) : Deliveries (w.dropSignal id) := by
  have hne : ∀ id', id' ≠ id → (w.dropSignal id).streams id' = w.streams id' :=
    fun id' hid' => update_of_ne hid' ..
  have hself : (w.dropSignal id).streams id = { w.streams id with live := false } := update_self ..
  refine h.of_streams rfl rfl rfl (Nat.le_refl _) (fun id' => ?_)
    (fun d hd => ⟨d, hd, rfl, fun _ hid => hid⟩) (fun id' hnow => ?_)
  · by_cases hid : id' = id
    · subst hid
      rw [hself]
      obtain ⟨hle, hwaker, hseen⟩ := h.consistent id'
      exact ⟨hle, hwaker, hseen⟩
    · rw [hne id' hid]
      exact h.consistent id'
  · by_cases hid : id' = id
    · subst hid
      have hlive := hnow.1
      rw [hself] at hlive
      exact absurd hlive Bool.false_ne_true
    · have hlistens : w.Listens id' :=
        hnow.congr rfl (fun _ => rfl) (by rw [hne id' hid]) (by rw [hne id' hid])
      refine .inr ⟨hlistens, by rw [hne id' hid], by rw [hne id' hid]; exact fun howed => howed,
        fun hhandled => ?_⟩
      unfold Handled
      rw [hne id' hid]
      exact hhandled

theorem Deliveries.pollSignal {waker : Waker} (h : Deliveries w) :
    Deliveries (w.pollSignal id waker).1 := by
  rw [pollSignal_fst]
  have hconsistent : ∀ id', (update w.streams id ((w.streams id).pollRecv waker).1 id').Consistent := by
    intro id'
    by_cases hid : id' = id
    · subst hid
      rw [update_self]
      exact (h.consistent id').pollRecv
    · rw [update_of_ne hid]
      exact h.consistent id'
  cases hunseen : (w.streams id).isUnseen with
  | true =>
      rw [Stream.pollRecv_of_unseen hunseen] at hconsistent ⊢
      refine h.of_streams rfl rfl rfl (Nat.le_refl _) hconsistent ?_ (fun id' hnow => ?_)
      · intro d' hd'
        obtain ⟨d, hd, rfl⟩ := List.mem_map.mp hd'
        exact ⟨d, hd, rfl, fun _ hid => List.mem_of_mem_filter hid⟩
      · by_cases hid : id' = id
        · subst hid
          refine .inl ⟨?_, fun d' hd' hmem => ?_⟩
          · dsimp only
            rw [update_self]
            rfl
          · obtain ⟨d, hd, rfl⟩ := List.mem_map.mp hd'
            simpa using (List.mem_filter.mp hmem).2
        · have hlistens : w.Listens id' := hnow.congr rfl (fun _ => rfl)
            (by dsimp only; rw [update_of_ne hid]) (by dsimp only; rw [update_of_ne hid])
          dsimp only
          rw [update_of_ne hid]
          refine .inr ⟨hlistens, rfl, fun howed => howed, fun hhandled => ?_⟩
          unfold Handled
          dsimp only
          rw [update_of_ne hid]
          exact hhandled
  | false =>
      rw [Stream.pollRecv_of_seen hunseen] at hconsistent ⊢
      refine h.of_streams rfl rfl rfl (Nat.le_refl _) hconsistent
        (fun d hd => ⟨d, hd, rfl, fun _ hid => hid⟩) (fun id' hnow => .inr ?_)
      by_cases hid : id' = id
      · subst hid
        have hlistens : w.Listens id' := hnow.congr rfl (fun _ => rfl)
          (by dsimp only; rw [update_self]) (by dsimp only; rw [update_self])
        dsimp only
        rw [update_self]
        refine ⟨hlistens, rfl, fun howed => howed, fun hhandled => ?_⟩
        unfold Handled
        dsimp only
        rw [update_self]
        exact hhandled
      · have hlistens : w.Listens id' := hnow.congr rfl (fun _ => rfl)
          (by dsimp only; rw [update_of_ne hid]) (by dsimp only; rw [update_of_ne hid])
        dsimp only
        rw [update_of_ne hid]
        refine ⟨hlistens, rfl, fun howed => howed, fun hhandled => ?_⟩
        unfold Handled
        dsimp only
        rw [update_of_ne hid]
        exact hhandled

end Runite.Signal.World
