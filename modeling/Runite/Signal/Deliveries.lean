import Runite.Signal.RegistryCalls

/-!
# No delivery is lost

A stream that a delivery is owed to is unseen, or is on the way to be notified: its kind is
pending and the reader comes to it, or the reader is at its registration, or a closure is queued
or runs.  It is so while the runtime of its thread is open.  `Heard` is what holds of a delivery whose handler has not yet written to the descriptor.
-/

namespace Runite.Signal

open Function

/-! ## Streams -/

namespace Stream

variable {s s' : Stream} {waker : Waker}

/-- The stream has seen what it saw, and keeps the waker of a poll that returned `Pending`. -/
structure Consistent (s : Stream) : Prop where
  lastSeen_le : s.lastSeen ≤ s.generation
  waker : s.waker = s.awaiting
  seen : ∀ waker, s.awaiting = some waker → s.generation = s.lastSeen

theorem isUnseen_iff : s.isUnseen = true ↔ s.generation ≠ s.lastSeen := by
  simp [isUnseen]

theorem Consistent.isUnseen_of_lt (h : s.Consistent) (hn : Notified s s')
    (hlt : s.generation < s'.generation) : s'.isUnseen = true := by
  rw [isUnseen_iff, hn.lastSeen]
  exact Nat.ne_of_gt (Nat.lt_of_le_of_lt h.lastSeen_le hlt)

theorem Consistent.isUnseen_notified (h : s.Consistent) (hn : Notified s s')
    (hunseen : s.isUnseen = true) : s'.isUnseen = true := by
  rcases hn.change with rfl | ⟨hlt, -⟩
  · exact hunseen
  · exact h.isUnseen_of_lt hn hlt

theorem Consistent.notified (h : s.Consistent) (hn : Notified s s') : s'.Consistent := by
  rcases hn.change with rfl | ⟨hlt, hwaker, hawaiting⟩
  · exact h
  · refine ⟨?_, hwaker.trans hawaiting.symm, fun waker hsome => ?_⟩
    · rw [hn.lastSeen]
      exact Nat.le_trans h.lastSeen_le (Nat.le_of_lt hlt)
    · rw [hawaiting] at hsome
      exact absurd hsome nofun

/-- A poll of an unseen stream yields, and any other stores the waker. -/
theorem pollRecv_of_unseen (hunseen : s.isUnseen = true) : s.pollRecv waker = (s.yield, true) := by
  rw [pollRecv, if_pos hunseen]

theorem pollRecv_of_seen (hseen : s.isUnseen = false) :
    s.pollRecv waker =
      ({ s with waker := some waker, awaiting := some waker }, false) := by
  unfold pollRecv
  rw [if_neg (by simp [hseen])]
  dsimp only
  rw [if_neg]
  exact fun hunseen => Bool.false_ne_true (hseen.symm.trans hunseen)

theorem Consistent.pollRecv (h : s.Consistent) : (s.pollRecv waker).1.Consistent := by
  cases hunseen : s.isUnseen with
  | true =>
      rw [pollRecv_of_unseen hunseen]
      refine ⟨Nat.le_refl _, ?_, nofun⟩
      cases hawaiting : s.awaiting with
      | none => exact h.waker.trans hawaiting
      | some waker => exact absurd (h.seen waker hawaiting) (isUnseen_iff.mp hunseen)
  | false =>
      rw [pollRecv_of_seen hunseen]
      refine ⟨h.lastSeen_le, rfl, fun _ _ => ?_⟩
      exact not_not.mp fun hne => Bool.false_ne_true (hunseen.symm.trans (isUnseen_iff.mpr hne))

end Stream

namespace Reader

/-- The reader is at the registration, and has not scheduled its closure. -/
def serves (r : Nat) (kind : SignalKind) : Reader → Prop
  | .retaining kind' _ => kind' = kind
  | .collecting kind' left held _ => kind' = kind ∧ (r ∈ left ∨ r ∈ held)
  | .scheduling kind' held _ => kind' = kind ∧ r ∈ held
  | .queueing kind' r' held _ => kind' = kind ∧ (r' = r ∨ r ∈ held)
  | .refused kind' _ held _ => kind' = kind ∧ r ∈ held
  | .polling | .draining | .dispatching _ => False

/-- `dispatch_pending` is still to come to the kind. -/
def comes (kind : SignalKind) : Reader → Prop
  | .dispatching kinds | .retaining _ kinds | .collecting _ _ _ kinds | .scheduling _ _ kinds
  | .queueing _ _ _ kinds | .refused _ _ _ kinds => kind ∈ kinds
  | .polling | .draining => False

end Reader

namespace World

variable {w w' : World} {id : Nat} {kind : SignalKind}

/-- The stream was not dropped, and the runtime that its registration is of is open. -/
def Listens (w : World) (id : Nat) : Prop :=
  (w.streams id).live = true ∧
    w.isClosed (w.threads (w.streams id).registration).thread = false

theorem Listens.congr (h : w'.Listens id) (hclosed : w'.closed = w.closed)
    (hthread : ∀ r, (w'.threads r).thread = (w.threads r).thread)
    (hlive : (w'.streams id).live = (w.streams id).live)
    (hregistration : (w'.streams id).registration = (w.streams id).registration) :
    w.Listens id := by
  obtain ⟨hlive', hopen⟩ := h
  refine ⟨hlive ▸ hlive', ?_⟩
  rw [← hregistration, ← isClosed_eq hclosed (hthread _)]
  exact hopen

/-- The stream is unseen, or about to be notified. -/
def Handled (w : World) (id : Nat) : Prop :=
  w.reader.serves (w.streams id).registration (w.streams id).kind ∨
    ((w.streams id).registration, (w.streams id).kind) ∈ w.queued ∨
    ((w.streams id).registration, (w.streams id).kind) ∈ w.running ∨
    (w.streams id).isUnseen = true

/-- The flag of the kind is set, and the handler may not have written yet. -/
def Heard (w : World) (id : Nat) : Prop :=
  w.pending (w.streams id).kind = true ∨ w.Handled id

/-- The flag of the kind is set, and the reader will see it. -/
def Covered (w : World) (id : Nat) : Prop :=
  w.pending (w.streams id).kind = true ∧ (0 < w.wake ∨ w.reader.comes (w.streams id).kind) ∨
    w.Handled id

theorem Covered.heard (h : w.Covered id) : w.Heard id := h.imp_left And.left

structure Deliveries (w : World) : Prop where
  consistent : ∀ id, (w.streams id).Consistent
  waiting : ∀ d ∈ w.handlers, ∀ id ∈ d.waiting, id < w.nextStream ∧
    (w.Listens id → (w.streams id).kind = d.kind ∧ w.Heard id)
  owed : ∀ id, w.Listens id → (w.streams id).owed = true → w.Covered id

theorem Deliveries.init : Deliveries {} where
  consistent _ := ⟨Nat.le_refl _, rfl, nofun⟩
  waiting := nofun
  owed := nofun

/-- A step of the handler's flag, the reader or a closure. -/
theorem Deliveries.mono (h : Deliveries w) (hstreams : w'.streams = w.streams)
    (hnext : w'.nextStream = w.nextStream) (hhandlers : w'.handlers = w.handlers)
    (hlistens : ∀ id, w'.Listens id → w.Listens id)
    (hheard : ∀ id, w'.Listens id → w.Heard id → w'.Heard id)
    (hcovered : ∀ id, w'.Listens id → w.Covered id → w'.Covered id) :
    Deliveries w' where
  consistent := hstreams ▸ h.consistent
  waiting := by
    intro d hd id hid
    rw [hhandlers] at hd
    rw [hstreams, hnext]
    obtain ⟨hlt, hwaiting⟩ := h.waiting d hd id hid
    refine ⟨hlt, fun hnow => ?_⟩
    obtain ⟨hkind, hheardBefore⟩ := hwaiting (hlistens id hnow)
    exact ⟨hkind, hheard id hnow hheardBefore⟩
  owed := by
    intro id hnow howed
    rw [hstreams] at howed
    exact hcovered id hnow (h.owed id (hlistens id hnow) howed)

def Clear (w : World) (id : Nat) : Prop :=
  (w.streams id).owed = false ∧ ∀ d ∈ w.handlers, id ∉ d.waiting

/-- A step of the streams.  Nothing is owed to one that is new or yields, and others are no less
handled than before. -/
theorem Deliveries.of_streams (h : Deliveries w) (hpending : w'.pending = w.pending)
    (hwake : w'.wake = w.wake) (hreader : w'.reader = w.reader)
    (hnext : w.nextStream ≤ w'.nextStream)
    (hconsistent : ∀ id, (w'.streams id).Consistent)
    (hhandlers : ∀ d' ∈ w'.handlers, ∃ d ∈ w.handlers, d'.kind = d.kind ∧
      ∀ id ∈ d'.waiting, id ∈ d.waiting)
    (hstream : ∀ id, w'.Listens id → w'.Clear id ∨
      w.Listens id ∧ (w'.streams id).kind = (w.streams id).kind ∧
        ((w'.streams id).owed = true → (w.streams id).owed = true) ∧
        (w.Handled id → w'.Handled id)) : Deliveries w' where
  consistent := hconsistent
  waiting := by
    intro d' hd' id hid
    obtain ⟨d, hd, hkind, hsub⟩ := hhandlers d' hd'
    obtain ⟨hlt, hwaiting⟩ := h.waiting d hd id (hsub id hid)
    refine ⟨Nat.lt_of_lt_of_le hlt hnext, fun hlistens => ?_⟩
    rcases hstream id hlistens with hclear | ⟨hold, hkind', -, hhandled⟩
    · exact absurd hid (hclear.2 d' hd')
    · obtain ⟨hkindd, hheard⟩ := hwaiting hold
      refine ⟨(hkind'.trans hkindd).trans hkind.symm, ?_⟩
      unfold Heard
      rw [hpending, hkind']
      exact hheard.imp_right hhandled
  owed := by
    intro id hlistens howed
    rcases hstream id hlistens with hclear | ⟨hold, hkind, howed', hhandled⟩
    · exact absurd (howed.symm.trans hclear.1) nofun
    · unfold Covered
      rw [hpending, hwake, hreader, hkind]
      exact (h.owed id hold (howed' howed)).imp_right hhandled

end World

end Runite.Signal
