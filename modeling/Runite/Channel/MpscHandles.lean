import Runite.Channel.MpscWaiters
import Runite.Lib.Counting
import Mathlib.Data.List.Nodup
import Mathlib.Data.List.Perm.Basic

/-!
# Who waits for which completion

`Handles` relates `send` futures, queued waiters and collected completions: a
completion is promised to a future at most once, by a queued waiter or by a
completion that was not fired yet, and a promised future is waiting or was
given up.  In particular a value that is lost with a dropped future is the
value which that future was called with.
-/

namespace Runite.Channel.Mpsc

variable {α : Type}

/-- The waiter that the cancel callback of a future would remove. -/
def SendPhase.waiterId : SendPhase → Option Nat
  | .waiting waiterId => waiterId
  | .cancelling waiterId => some waiterId
  | _ => none

def SendPhase.isDropped : SendPhase → Bool
  | .cancelling _ | .dropped => true
  | _ => false

/-- The future that a completion is for. -/
def PendingCompletion.sendHandle : PendingCompletion α → Option Nat
  | .recvReady _ => none
  | .sendOk handle => some handle
  | .sendErr handle _ => some handle

namespace State

variable {s s' : State α} {capacity : Option Nat} {value : α}
  {completions : List (PendingCompletion α)}

/-- A critical section turns waiters into completions and adds no waiter. -/
structure Keeps (s s' : State α) (completions : List (PendingCompletion α)) : Prop where
  handles : (s'.sendWaiters.map (·.handle) ++ completions.filterMap (·.sendHandle)).Perm
    (s.sendWaiters.map (·.handle))
  waiters : ∀ w ∈ s'.sendWaiters, w ∈ s.sendWaiters
  errors : ∀ h v, .sendErr h v ∈ completions → ∃ w ∈ s.sendWaiters, w.handle = h ∧ w.value = v
  nextWaiterId : s'.nextWaiterId = s.nextWaiterId

theorem Keeps.refl (s : State α) : Keeps s s [] where
  handles := by simp
  waiters := fun _ hw => hw
  errors := by simp
  nextWaiterId := rfl

theorem Keeps.of_recvCompletion (hwaiters : s'.sendWaiters = s.sendWaiters)
    (hnext : s'.nextWaiterId = s.nextWaiterId) : Keeps s s' s.recvCompletion where
  handles := by
    cases hwaiter : s.recvWaiter <;>
      simp [recvCompletion, hwaiter, hwaiters, PendingCompletion.sendHandle]
  waiters := by simp [hwaiters]
  errors := by simp [recvCompletion]
  nextWaiterId := hnext

theorem filterMap_sendOk (waiters : List (SendWaiter α)) :
    (waiters.map fun w => (.sendOk w.handle : PendingCompletion α)).filterMap (·.sendHandle) =
      waiters.map (·.handle) := by
  simp [List.filterMap_map, PendingCompletion.sendHandle]

theorem filterMap_sendErrors (s : State α) :
    s.sendErrors.filterMap (·.sendHandle) = s.sendWaiters.map (·.handle) := by
  simp [sendErrors, List.filterMap_map, PendingCompletion.sendHandle]

theorem keeps_recvSection (h : Sound capacity s) :
    Keeps s s.recvSection.1 s.recvSection.2.1 := by
  cases hqueue : s.queue with
  | nil =>
      unfold recvSection
      simp only [hqueue]
      split <;> exact .refl s
  | cons value queue =>
      obtain ⟨moved, rest, hsplit, hsection, -⟩ := h.exists_recvSection hqueue
      rw [hsection]
      refine ⟨?_, ?_, by simp, rfl⟩
      · rw [filterMap_sendOk, promote_sendWaiters, hsplit, List.map_append]
        exact List.perm_append_comm
      · intro w hw
        rw [hsplit]
        exact List.mem_append_right _ hw

theorem keeps_closeReceiver (s : State α) : Keeps s s.closeReceiver.1 s.closeReceiver.2 where
  handles := by
    have hready : s.recvCompletion.filterMap (·.sendHandle) = [] := by
      cases hwaiter : s.recvWaiter <;>
        simp [recvCompletion, hwaiter, PendingCompletion.sendHandle]
    change (([] : List Nat) ++ (s.sendErrors ++ s.recvCompletion).filterMap (·.sendHandle)).Perm
      (s.sendWaiters.map (·.handle))
    rw [List.filterMap_append, hready, filterMap_sendErrors]
    simp
  waiters := by simp [closeReceiver, failPendingSenders, wakeReceiver]
  errors := by
    intro h v hmem
    change .sendErr h v ∈ s.sendErrors ++ s.recvCompletion at hmem
    simpa [sendErrors, recvCompletion] using hmem
  nextWaiterId := rfl

theorem keeps_dropSender (s : State α) : Keeps s s.dropSender.1 s.dropSender.2 := by
  unfold dropSender
  dsimp only
  split
  next => exact .of_recvCompletion rfl rfl
  next => exact ⟨by simp, fun _ hw => hw, by simp, rfl⟩

end State

namespace System

open State

variable {s s' : System α} {capacity : Option Nat} {index : Nat} {send : SendFuture α}

/-- The futures whose completion is promised: by a queued waiter, or by a
completion that was collected and not fired. -/
def pendingHandles (s : System α) : List Nat :=
  s.state.sendWaiters.map (·.handle) ++ s.firing.filterMap (·.sendHandle)

/-- A future that is waiting for a promise, or was given up. -/
def Promised (f : SendFuture α) : Prop :=
  f.phase.isDropped = true ∨
    (∃ id, f.phase = .waiting (some id)) ∧ f.cell.finished = false ∧ f.cell.interested = true

/-- What a `send` future says about its value. -/
structure Fine (f : SendFuture α) : Prop where
  fresh : f.phase = .unpolled ∨ f.phase = .retrying → f.cell = {}
  result : f.cell.result ≠ none → f.cell.finished = true
  value : ∀ v, f.cell.result = some (.error v) → f.value = v

structure Handles (s : System α) : Prop where
  nodup : s.pendingHandles.Nodup
  pending : ∀ h ∈ s.pendingHandles, ∃ f, s.sends[h]? = some f ∧ Promised f
  waiter : ∀ w ∈ s.state.sendWaiters, ∃ f, s.sends[w.handle]? = some f ∧ f.value = w.value ∧
    f.phase.waiterId = some w.id
  error : ∀ h v, .sendErr h v ∈ s.firing → ∃ f, s.sends[h]? = some f ∧ f.value = v
  ids : ∀ (i j : Nat) (f g : SendFuture α) (id : Nat), s.sends[i]? = some f →
    s.sends[j]? = some g → f.phase.waiterId = some id → g.phase.waiterId = some id → i = j
  idBound : ∀ (i : Nat) (f : SendFuture α) (id : Nat), s.sends[i]? = some f →
    f.phase.waiterId = some id → id < s.state.nextWaiterId
  fine : ∀ f ∈ s.sends, Fine f
  cancelled : ∀ h v, (h, v) ∈ s.cancelled → ∃ f, s.sends[h]? = some f ∧ f.value = v ∧
    f.phase.isDropped = true

theorem getElem?_setSend (hsend : s.sends[index]? = some send) (f : SendFuture α) (i : Nat) :
    (s.setSend index f).sends[i]? = if i = index then some f else s.sends[i]? := by
  have hlt : index < s.sends.length := (List.getElem?_eq_some_iff.mp hsend).1
  by_cases hi : i = index
  · subst hi
    simp [hlt]
  · simp [hi, Ne.symm hi]

/-- A critical section moves promises from the waiters to the completions. -/
theorem pendingHandles_leave {state : State α} {completions : List (PendingCompletion α)}
    (hkeeps : Keeps s.state state completions) :
    (s.leave state completions).pendingHandles.Perm s.pendingHandles := by
  unfold pendingHandles
  rw [leave_firing, leave_state, List.filterMap_append, ← List.append_assoc]
  -- the new completions come from the waiters that are gone
  calc
    _ = state.sendWaiters.map (·.handle) ++ (s.firing.filterMap (·.sendHandle) ++
        completions.filterMap (·.sendHandle)) := List.append_assoc ..
    List.Perm _ (state.sendWaiters.map (·.handle) ++ (completions.filterMap (·.sendHandle) ++
        s.firing.filterMap (·.sendHandle))) := List.perm_append_comm.append_left _
    _ = state.sendWaiters.map (·.handle) ++ completions.filterMap (·.sendHandle) ++
        s.firing.filterMap (·.sendHandle) := (List.append_assoc ..).symm
    List.Perm _ _ := hkeeps.handles.append_right _

theorem pendingHandles_publish (s : System α) (value : α) (index : Nat) :
    (s.publish value index).pendingHandles.Perm (index :: s.pendingHandles) := by
  simp only [pendingHandles, publish_state_sendWaiters, List.map_append, List.map_cons,
    List.map_nil, publish_firing, List.append_assoc, List.singleton_append]
  exact List.perm_middle

/-- What a completion that is taken out of the bag was for. -/
theorem pendingHandles_eraseFiring {completion : PendingCompletion α}
    (hget : s.firing[index]? = some completion) : s.pendingHandles.Perm
      (completion.sendHandle.toList ++
        ({ s with firing := s.firing.eraseIdx index } : System α).pendingHandles) := by
  obtain ⟨hlt, rfl⟩ := List.getElem?_eq_some_iff.mp hget
  have hperm := (List.getElem_cons_eraseIdx_perm hlt).filterMap (·.sendHandle)
  cases hhandle : s.firing[index].sendHandle with
  | none =>
      rw [List.filterMap_cons_none hhandle] at hperm
      exact hperm.symm.append_left _
  | some handle =>
      rw [List.filterMap_cons_some hhandle] at hperm
      exact (hperm.symm.append_left _).trans List.perm_middle

namespace Handles

theorem congr (h : Handles s) (hstate : s'.state.sendWaiters = s.state.sendWaiters)
    (hnext : s'.state.nextWaiterId = s.state.nextWaiterId) (hfiring : s'.firing = s.firing)
    (hsends : s'.sends = s.sends) (hcancelled : s'.cancelled = s.cancelled) : Handles s' := by
  have hpending : s'.pendingHandles = s.pendingHandles := by
    rw [pendingHandles, hstate, hfiring, pendingHandles]
  constructor
  · exact hpending ▸ h.nodup
  · rw [hpending, hsends]
    exact h.pending
  · rw [hstate, hsends]
    exact h.waiter
  · rw [hfiring, hsends]
    exact h.error
  · rw [hsends]
    exact h.ids
  · rw [hsends, hnext]
    exact h.idBound
  · rw [hsends]
    exact h.fine
  · rw [hcancelled, hsends]
    exact h.cancelled

theorem leave (h : Handles s) {state : State α} {completions : List (PendingCompletion α)}
    (hkeeps : Keeps s.state state completions) : Handles (s.leave state completions) := by
  have hperm := pendingHandles_leave hkeeps
  constructor
  · exact hperm.nodup_iff.mpr h.nodup
  · intro handle hmem
    exact h.pending handle (hperm.mem_iff.mp hmem)
  · intro w hw
    exact h.waiter w (hkeeps.waiters w hw)
  · intro handle v hmem
    rcases List.mem_append.mp hmem with hmem | hmem
    · exact h.error handle v hmem
    · obtain ⟨w, hw, rfl, rfl⟩ := hkeeps.errors handle v hmem
      obtain ⟨f, hf, hvalue, -⟩ := h.waiter w hw
      exact ⟨f, hf, hvalue⟩
  · exact h.ids
  · intro i f id hf hid
    rw [leave_state, hkeeps.nextWaiterId]
    exact h.idBound i f id hf hid
  · exact h.fine
  · exact h.cancelled

theorem set (h : Handles s) (hsend : s.sends[index]? = some send) {f : SendFuture α}
    (hvalue : f.value = send.value) (hfine : Fine f)
    (hpending : index ∈ s.pendingHandles → Promised f)
    (hwaiter : ∀ w ∈ s.state.sendWaiters, w.handle = index →
      f.phase.waiterId = send.phase.waiterId)
    (hid : f.phase.waiterId = none ∨ f.phase.waiterId = send.phase.waiterId)
    (hdropped : send.phase.isDropped = true → f.phase.isDropped = true) :
    Handles (s.setSend index f) where
  nodup := h.nodup
  pending := by
    intro handle hmem
    rw [getElem?_setSend hsend]
    by_cases hhandle : handle = index
    · exact ⟨f, by simp [hhandle], hpending (hhandle ▸ hmem)⟩
    · simpa [hhandle] using h.pending handle hmem
  waiter := by
    intro w hw
    rw [getElem?_setSend hsend]
    by_cases hhandle : w.handle = index
    · obtain ⟨g, hg, hgvalue, hgid⟩ := h.waiter w hw
      obtain rfl : send = g := by simpa [hhandle, hsend] using hg
      exact ⟨f, by simp [hhandle], hvalue.trans hgvalue, (hwaiter w hw hhandle).trans hgid⟩
    · simpa [hhandle] using h.waiter w hw
  error := by
    intro handle v hmem
    rw [getElem?_setSend hsend]
    by_cases hhandle : handle = index
    · obtain ⟨g, hg, hgvalue⟩ := h.error handle v hmem
      obtain rfl : send = g := by simpa [hhandle, hsend] using hg
      exact ⟨f, by simp [hhandle], hvalue.trans hgvalue⟩
    · simpa [hhandle] using h.error handle v hmem
  ids := by
    -- an identifier of the new future is one of the old future
    have hback : ∀ (i : Nat) (g : SendFuture α) (id : Nat), (s.setSend index f).sends[i]? = some g →
        g.phase.waiterId = some id →
        ∃ g' : SendFuture α, s.sends[i]? = some g' ∧ g'.phase.waiterId = some id := by
      intro i g id hg hgid
      rw [getElem?_setSend hsend] at hg
      by_cases hi : i = index
      · obtain rfl : f = g := by simpa [hi] using hg
        refine ⟨send, hi ▸ hsend, ?_⟩
        rcases hid with hnone | heq
        · simp [hnone] at hgid
        · exact heq ▸ hgid
      · exact ⟨g, by simpa [hi] using hg, hgid⟩
    intro i j g g' id hg hg' hgid hgid'
    obtain ⟨f₁, hf₁, hid₁⟩ := hback i g id hg hgid
    obtain ⟨f₂, hf₂, hid₂⟩ := hback j g' id hg' hgid'
    exact h.ids i j f₁ f₂ id hf₁ hf₂ hid₁ hid₂
  idBound := by
    intro i g id hg hgid
    rw [getElem?_setSend hsend] at hg
    by_cases hi : i = index
    · obtain rfl : f = g := by simpa [hi] using hg
      rcases hid with hnone | heq
      · simp [hnone] at hgid
      · exact h.idBound index send id hsend (heq ▸ hgid)
    · exact h.idBound i g id (by simpa [hi] using hg) hgid
  fine := by
    intro g hg
    rcases List.mem_or_eq_of_mem_set hg with hg | rfl
    · exact h.fine g hg
    · exact hfine
  cancelled := by
    intro handle v hmem
    rw [getElem?_setSend hsend]
    by_cases hhandle : handle = index
    · obtain ⟨g, hg, hgvalue, hgdropped⟩ := h.cancelled handle v hmem
      obtain rfl : send = g := by simpa [hhandle, hsend] using hg
      exact ⟨f, by simp [hhandle], hvalue.trans hgvalue, hdropped hgdropped⟩
    · simpa [hhandle] using h.cancelled handle v hmem

/-- Nothing is promised to a future that neither waits nor was given up. -/
theorem notMem_of_not_promised (h : Handles s) (hsend : s.sends[index]? = some send)
    (hnot : ¬ Promised send) : index ∉ s.pendingHandles := by
  intro hmem
  obtain ⟨f, hf, hpromised⟩ := h.pending index hmem
  obtain rfl : send = f := by simpa [hsend] using hf
  exact hnot hpromised

theorem ne_of_notMem (hnot : index ∉ s.pendingHandles) {w : SendWaiter α}
    (hw : w ∈ s.state.sendWaiters) : w.handle ≠ index := by
  rintro rfl
  exact hnot (List.mem_append_left _ (List.mem_map_of_mem hw))

/-- A future to which nothing is promised moves on, without a waiter. -/
theorem setUnpromised (h : Handles s) (hsend : s.sends[index]? = some send)
    (hnot : ¬ Promised send) {f : SendFuture α} (hvalue : f.value = send.value)
    (hfine : Fine f) (hid : f.phase.waiterId = none) : Handles (s.setSend index f) := by
  have hindex := h.notMem_of_not_promised hsend hnot
  refine h.set hsend hvalue hfine (fun hmem => absurd hmem hindex) ?_ (Or.inl hid) ?_
  · intro w hw hhandle
    exact absurd hhandle (ne_of_notMem hindex hw)
  · intro hdropped
    exact absurd (Or.inl hdropped) hnot

theorem not_promised_of_phase (hphase : send.phase = .unpolled ∨ send.phase = .retrying) :
    ¬ Promised send := by
  rintro (hdropped | ⟨⟨id, hid⟩, -⟩)
  · rcases hphase with hphase | hphase <;> simp [hphase, SendPhase.isDropped] at hdropped
  · rcases hphase with hphase | hphase <;> simp [hphase] at hid

/-! ### Steps of a sender -/

theorem sendNow (h : Handles s) (value : α) : Handles (s.sendNow value) := by
  have hleave : Handles
      (s.leave (s.state.push value).takeRecvWaiter s.state.recvCompletion) :=
    h.leave (.of_recvCompletion rfl rfl)
  exact hleave.congr rfl rfl rfl rfl rfl

theorem giveBack (h : Handles s) (value : α) : Handles (s.giveBack value) :=
  h.congr rfl rfl rfl rfl rfl

theorem newSend (h : Handles s) (value : α) :
    Handles { s with sends := s.sends ++ [{ value }] } := by
  -- the old futures stay where they are, and the new one has no waiter
  have hold : ∀ (i : Nat) (f : SendFuture α), s.sends[i]? = some f →
      (s.sends ++ [({ value } : SendFuture α)])[i]? = some f := by
    intro i f hf
    rw [List.getElem?_append_left (List.getElem?_eq_some_iff.mp hf).1]
    exact hf
  have hback : ∀ (i : Nat) (f : SendFuture α) (id : Nat),
      (s.sends ++ [({ value } : SendFuture α)])[i]? = some f → f.phase.waiterId = some id →
      s.sends[i]? = some f := by
    intro i f id hf hid
    rw [List.getElem?_append] at hf
    split at hf
    next => exact hf
    next =>
      obtain ⟨-, rfl⟩ : i - s.sends.length = 0 ∧ ({ value } : SendFuture α) = f := by
        simpa [List.getElem?_singleton] using hf
      simp [SendPhase.waiterId] at hid
  constructor
  · exact h.nodup
  · intro handle hmem
    obtain ⟨f, hf, hpromised⟩ := h.pending handle hmem
    exact ⟨f, hold _ f hf, hpromised⟩
  · intro w hw
    obtain ⟨f, hf, hrest⟩ := h.waiter w hw
    exact ⟨f, hold _ f hf, hrest⟩
  · intro handle v hmem
    obtain ⟨f, hf, hvalue⟩ := h.error handle v hmem
    exact ⟨f, hold _ f hf, hvalue⟩
  · intro i j f g id hf hg hfid hgid
    exact h.ids i j f g id (hback i f id hf hfid) (hback j g id hg hgid) hfid hgid
  · intro i f id hf hfid
    exact h.idBound i f id (hback i f id hf hfid) hfid
  · intro f hf
    rcases List.mem_append.mp hf with hf | hf
    · exact h.fine f hf
    · obtain rfl : f = { value } := by simpa using hf
      exact ⟨fun _ => rfl, by simp, by simp⟩
  · intro handle v hmem
    obtain ⟨f, hf, hrest⟩ := h.cancelled handle v hmem
    exact ⟨f, hold _ f hf, hrest⟩

/-- A future that has not been polled, or is being polled for the first time,
moves on without a waiter. -/
theorem setFirst (h : Handles s) (hsend : s.sends[index]? = some send)
    (hphase : send.phase = .unpolled ∨ send.phase = .retrying) {phase : SendPhase}
    (hid : phase.waiterId = none) : Handles (s.setSend index { send with phase }) := by
  have hfine := h.fine send (List.mem_of_getElem? hsend)
  exact h.setUnpromised hsend (not_promised_of_phase hphase) rfl
    ⟨fun _ => hfine.fresh hphase, hfine.result, hfine.value⟩ hid

/-- The completion of a first poll is completed before it was published. -/
theorem setCompleted (h : Handles s) (hsend : s.sends[index]? = some send)
    (hphase : send.phase = .retrying) {result : Except α Unit}
    (hresult : result = .ok () ∨ result = .error send.value) :
    Handles (s.setSend index
      { send with phase := .waiting none, cell := send.cell.complete result }) := by
  have hfine := h.fine send (List.mem_of_getElem? hsend)
  have hcell : send.cell = {} := hfine.fresh (Or.inr hphase)
  refine h.setUnpromised hsend (not_promised_of_phase (Or.inr hphase)) rfl ⟨?_, ?_, ?_⟩ rfl
  · simp
  · simp [hcell, Cell.complete]
  · intro v hv
    rcases hresult with rfl | rfl <;> simp [hcell, Cell.complete] at hv
    exact hv

theorem publish (h : Handles s) (hsend : s.sends[index]? = some send)
    (hphase : send.phase = .retrying) :
    Handles ((s.publish send.value index).setSend index
      { send with phase := .waiting (some s.state.nextWaiterId) }) := by
  have hfine := h.fine send (List.mem_of_getElem? hsend)
  have hcell : send.cell = {} := hfine.fresh (Or.inr hphase)
  have hindex : index ∉ s.pendingHandles :=
    h.notMem_of_not_promised hsend (not_promised_of_phase (Or.inr hphase))
  have hget : ∀ i : Nat, ((s.publish send.value index).setSend index
      { send with phase := .waiting (some s.state.nextWaiterId) }).sends[i]? =
      if i = index then some { send with phase := .waiting (some s.state.nextWaiterId) }
      else s.sends[i]? :=
    fun i => getElem?_setSend hsend _ i
  have hpending := s.pendingHandles_publish send.value index
  constructor
  · exact hpending.nodup_iff.mpr (List.nodup_cons.mpr ⟨hindex, h.nodup⟩)
  · intro handle hmem
    rw [hget]
    rcases List.mem_cons.mp (hpending.mem_iff.mp hmem) with rfl | hold
    · refine ⟨_, if_pos rfl, Or.inr ⟨⟨_, rfl⟩, ?_, ?_⟩⟩ <;> simp [hcell]
    · have hne : handle ≠ index := by
        rintro rfl
        exact hindex hold
      simpa [hne] using h.pending handle hold
  · intro w hw
    rw [hget]
    rcases List.mem_append.mp hw with hw | hw
    · simpa [ne_of_notMem hindex hw] using h.waiter w hw
    · obtain rfl : w = ⟨s.state.nextWaiterId, send.value, index⟩ := by simpa using hw
      exact ⟨_, if_pos rfl, rfl, rfl⟩
  · intro handle v hmem
    rw [hget]
    replace hmem : .sendErr handle v ∈ s.firing := by simpa using hmem
    have hne : handle ≠ index := by
      rintro rfl
      exact hindex (List.mem_append_right _ (List.mem_filterMap.mpr ⟨_, hmem, rfl⟩))
    simpa [hne] using h.error handle v hmem
  · intro i j f g id hf hg hfid hgid
    rw [hget] at hf hg
    -- the new identifier is larger than the old ones
    have hlarger : ∀ (k : Nat) (f' : SendFuture α), s.sends[k]? = some f' →
        f'.phase.waiterId ≠ some s.state.nextWaiterId := by
      intro k f' hf' hid
      exact Nat.lt_irrefl _ (h.idBound k f' _ hf' hid)
    by_cases hi : i = index <;> by_cases hj : j = index
    · rw [hi, hj]
    · rw [if_pos hi] at hf
      rw [if_neg hj] at hg
      cases hf
      exact absurd (hgid.trans hfid.symm) (hlarger j g hg)
    · rw [if_neg hi] at hf
      rw [if_pos hj] at hg
      cases hg
      exact absurd (hfid.trans hgid.symm) (hlarger i f hf)
    · rw [if_neg hi] at hf
      rw [if_neg hj] at hg
      exact h.ids i j f g id hf hg hfid hgid
  · intro i f id hf hfid
    rw [hget] at hf
    by_cases hi : i = index
    · rw [if_pos hi] at hf
      cases hf
      cases hfid
      exact Nat.lt_succ_self _
    · rw [if_neg hi] at hf
      exact Nat.lt_succ_of_lt (h.idBound i f id hf hfid)
  · intro f hf
    rcases List.mem_or_eq_of_mem_set hf with hf | rfl
    · exact h.fine f hf
    · exact ⟨by simp, hfine.result, hfine.value⟩
  · intro handle v hmem
    rw [hget]
    by_cases hhandle : handle = index
    · obtain ⟨g, hg, -, hgdropped⟩ := h.cancelled handle v hmem
      obtain rfl : send = g := by simpa [hhandle, hsend] using hg
      simp [hphase, SendPhase.isDropped] at hgdropped
    · simpa [hhandle] using h.cancelled handle v hmem

theorem pollCompletion (h : Handles s) (hsend : s.sends[index]? = some send)
    {waiterId : Option Nat} (hphase : send.phase = .waiting waiterId) :
    Handles (s.pollCompletion index send) := by
  have hfine := h.fine send (List.mem_of_getElem? hsend)
  -- a future with a result has been completed, so nothing is promised to it
  have hset : send.cell.result ≠ none →
      Handles (s.setSend index { send with phase := .done, cell := send.cell.abandon }) := by
    intro hresult
    have hnot : ¬ Promised send := by
      rintro (hdropped | ⟨-, hunfinished, -⟩)
      · simp [hphase, SendPhase.isDropped] at hdropped
      · simp [hfine.result hresult] at hunfinished
    exact setUnpromised (f := { send with phase := .done, cell := send.cell.abandon }) h hsend
      hnot rfl ⟨by simp, by simp [Cell.abandon], by simp [Cell.abandon]⟩ rfl
  unfold System.pollCompletion
  split
  next => exact h
  next hresult => exact hset (by simp [hresult])
  next hresult => exact (hset (by simp [hresult])).congr rfl rfl rfl rfl rfl

theorem lose (h : Handles s) {lost : List (Nat × α)}
    (hlost : ∀ i v, (i, v) ∈ lost → ∃ f, s.sends[i]? = some f ∧ f.value = v ∧
      f.phase.isDropped = true) :
    Handles { s with cancelled := s.cancelled ++ lost } where
  nodup := h.nodup
  pending := h.pending
  waiter := h.waiter
  error := h.error
  ids := h.ids
  idBound := h.idBound
  fine := h.fine
  cancelled := by
    intro i v hmem
    rcases List.mem_append.mp hmem with hmem | hmem
    · exact h.cancelled i v hmem
    · exact hlost i v hmem

theorem mem_lostResult {i : Nat} {v : α} (hmem : (i, v) ∈ lostResult index send) :
    i = index ∧ send.cell.result = some (.error v) := by
  unfold lostResult at hmem
  split at hmem
  next value hresult =>
    obtain ⟨rfl, rfl⟩ : i = index ∧ v = value := by simpa using hmem
    exact ⟨rfl, hresult⟩
  next => cases hmem

theorem abandonWait_spec (send : SendFuture α) (waiterId : Option Nat) :
    (abandonWait send waiterId).value = send.value ∧
      (abandonWait send waiterId).phase.isDropped = true ∧
      (abandonWait send waiterId).cell.result = none ∧
      ((abandonWait send waiterId).phase.waiterId = none ∨
        (abandonWait send waiterId).phase.waiterId = waiterId) := by
  cases waiterId with
  | none =>
      refine ⟨rfl, rfl, ?_, Or.inl rfl⟩
      simp only [abandonWait, Cell.cancel]
      split <;> rfl
  | some waiterId =>
      cases hfinished : send.cell.finished <;>
        simp [abandonWait, hfinished, SendPhase.isDropped, Cell.abandon, SendPhase.waiterId]

theorem dropWaiting (h : Handles s) (hsend : s.sends[index]? = some send)
    {waiterId : Option Nat} (hphase : send.phase = .waiting waiterId) :
    Handles (s.dropWaiting index send waiterId) := by
  have hfine := h.fine send (List.mem_of_getElem? hsend)
  obtain ⟨hvalue, hdropped, hresult, hid⟩ := abandonWait_spec send waiterId
  have hset : Handles (s.setSend index (abandonWait send waiterId)) := by
    refine h.set hsend hvalue ?_ (fun _ => Or.inl hdropped) ?_ ?_ (fun _ => hdropped)
    · refine ⟨?_, by simp [hresult], by simp [hresult]⟩
      rintro (hphase' | hphase') <;> simp [hphase', SendPhase.isDropped] at hdropped
    · -- the future of a queued waiter is not finished
      intro w hw hhandle
      obtain ⟨g, hg, -, hwid⟩ := h.waiter w hw
      obtain rfl : send = g := by simpa [hhandle, hsend] using hg
      obtain ⟨g, hg, hpromised⟩ := h.pending w.handle
        (List.mem_append_left _ (List.mem_map_of_mem hw))
      obtain rfl : send = g := by simpa [hhandle, hsend] using hg
      obtain rfl : waiterId = some w.id := by simpa [hphase, SendPhase.waiterId] using hwid
      rcases hpromised with hgone | ⟨-, hunfinished, -⟩
      · simp [hphase, SendPhase.isDropped] at hgone
      · rw [hwid]
        simp [abandonWait, hunfinished, SendPhase.waiterId]
    · rw [hphase]
      exact hid
  refine hset.lose ?_
  intro i v hmem
  obtain ⟨rfl, hlost⟩ := mem_lostResult hmem
  exact ⟨_, List.getElem?_set_self (List.getElem?_eq_some_iff.mp hsend).1,
    hvalue.trans (hfine.value v hlost), hdropped⟩

/-- The waiter that a cancel callback removes is the one of its own future. -/
theorem handle_of_find (h : Handles s) (hsend : s.sends[index]? = some send) {waiterId : Nat}
    (hphase : send.phase = .cancelling waiterId) {w : SendWaiter α}
    (hfind : s.state.sendWaiters.find? (·.id = waiterId) = some w) :
    w.handle = index ∧ w.value = send.value := by
  have hw : w ∈ s.state.sendWaiters := List.mem_of_find?_eq_some hfind
  have hid : w.id = waiterId := by simpa using List.find?_some hfind
  obtain ⟨f, hf, hvalue, hfid⟩ := h.waiter w hw
  have hindex : w.handle = index := by
    refine h.ids w.handle index f send w.id hf hsend hfid ?_
    rw [hphase, hid]
    rfl
  obtain rfl : send = f := by simpa [hindex, hsend] using hf
  exact ⟨hindex, hvalue.symm⟩

theorem nodup_ids (h : Handles s) : (s.state.sendWaiters.map (·.id)).Nodup := by
  have hhandles : (s.state.sendWaiters.map (·.handle)).Nodup :=
    h.nodup.sublist (List.sublist_append_left ..)
  rw [List.Nodup, List.pairwise_map] at hhandles ⊢
  refine hhandles.imp_of_mem ?_
  intro w w' hw hw' hne hid
  obtain ⟨f, hf, -, hfid⟩ := h.waiter w hw
  obtain ⟨f', hf', -, hfid'⟩ := h.waiter w' hw'
  exact hne (h.ids _ _ f f' w.id hf hf' hfid (hid ▸ hfid'))

theorem cancelSend (h : Handles s) (hsend : s.sends[index]? = some send) {waiterId : Nat}
    (hphase : send.phase = .cancelling waiterId) :
    Handles (s.cancelSend index send waiterId) := by
  have hfine := h.fine send (List.mem_of_getElem? hsend)
  -- the waiter goes, then the future is settled, then the value is lost
  have hsub : (s.state.sendWaiters.eraseP (·.id = waiterId)).Sublist s.state.sendWaiters :=
    List.eraseP_sublist
  have hremove : Handles { s with state := (s.state.removeSendWaiter waiterId).1 } := by
    have hpending : List.Sublist
        ({ s with state := (s.state.removeSendWaiter waiterId).1 } : System α).pendingHandles
        s.pendingHandles := (hsub.map _).append_right _
    exact ⟨h.nodup.sublist hpending, fun handle hmem => h.pending handle (hpending.subset hmem),
      fun w hw => h.waiter w (hsub.subset hw), h.error, h.ids, h.idBound, h.fine, h.cancelled⟩
  have hset : Handles (({ s with state := (s.state.removeSendWaiter waiterId).1 } :
      System α).setSend index { send with phase := .dropped, cell := send.cell.cancel }) := by
    refine hremove.set hsend rfl ⟨by simp, ?_, ?_⟩ (fun _ => Or.inl rfl) ?_ (Or.inl rfl)
      fun _ => rfl
    · unfold Cell.cancel
      split
      next hfinished => exact fun _ => hfinished
      next => exact fun _ => rfl
    · unfold Cell.cancel
      split <;> exact hfine.value
    · -- no waiter of this future is left
      intro w hw hhandle
      obtain ⟨f, hf, -, hid⟩ := h.waiter w (hsub.subset hw)
      obtain rfl : send = f := by simpa [hhandle, hsend] using hf
      have hwid : w.id = waiterId := by
        simpa [hphase, SendPhase.waiterId, eq_comm] using hid
      exact absurd hwid (Counting.key_ne_of_mem_eraseP h.nodup_ids hw)
  refine hset.lose ?_
  intro i v hmem
  obtain ⟨w, hw, heq⟩ := List.mem_map.mp hmem
  cases heq
  have hfind : s.state.sendWaiters.find? (·.id = waiterId) = some w := by
    simpa [removeSendWaiter] using hw
  exact ⟨_, List.getElem?_set_self (List.getElem?_eq_some_iff.mp hsend).1,
    (h.handle_of_find hsend hphase hfind).2.symm, rfl⟩

/-! ### Completions -/

theorem eraseFiring (h : Handles s) (index : Nat) :
    Handles { s with firing := s.firing.eraseIdx index } := by
  have hsub := List.eraseIdx_sublist s.firing index
  have hpending : List.Sublist
      ({ s with firing := s.firing.eraseIdx index } : System α).pendingHandles
      s.pendingHandles := (hsub.filterMap _).append_left _
  exact ⟨h.nodup.sublist hpending, fun handle hmem => h.pending handle (hpending.subset hmem),
    h.waiter, fun handle v hmem => h.error handle v (hsub.subset hmem), h.ids, h.idBound,
    h.fine, h.cancelled⟩

theorem notMem_eraseFiring (h : Handles s) {completion : PendingCompletion α} {handle : Nat}
    (hget : s.firing[index]? = some completion) (hhandle : completion.sendHandle = some handle) :
    handle ∉ ({ s with firing := s.firing.eraseIdx index } : System α).pendingHandles := by
  have hpending := pendingHandles_eraseFiring hget
  rw [hhandle] at hpending
  exact (List.nodup_cons.mp (hpending.nodup_iff.mp h.nodup)).1

/-- A future to which nothing is promised any more is completed. -/
theorem complete (h : Handles s) (hsend : s.sends[index]? = some send)
    (hnot : index ∉ s.pendingHandles) {result : Except α Unit}
    (hphase : ¬ (send.phase = .unpolled ∨ send.phase = .retrying))
    (hvalue : ∀ v, result = .error v → send.value = v) :
    Handles (s.setSend index { send with cell := send.cell.complete result }) := by
  have hfine := h.fine send (List.mem_of_getElem? hsend)
  refine h.set hsend rfl ⟨fun hfirst => absurd hfirst hphase, ?_, ?_⟩
    (fun hmem => absurd hmem hnot) (fun _ _ _ => rfl) (Or.inr rfl) id
  · unfold Cell.complete
    split
    next hfinished => exact fun _ => hfinished
    next => split <;> exact fun _ => rfl
  · intro v hv
    unfold Cell.complete at hv
    split at hv
    next => exact hfine.value v hv
    next =>
      split at hv
      next => exact hvalue v (by simpa using hv)
      next => exact hfine.value v hv

/-- What is fired was promised, and its future is waiting or was given up. -/
theorem promised_of_firing (h : Handles s) {completion : PendingCompletion α} {handle : Nat}
    (hget : s.firing[index]? = some completion) (hhandle : completion.sendHandle = some handle) :
    ∃ f, s.sends[handle]? = some f ∧ Promised f :=
  h.pending handle (List.mem_append_right _
    (List.mem_filterMap.mpr ⟨completion, List.mem_of_getElem? hget, hhandle⟩))

theorem fire (h : Handles s) {completion : PendingCompletion α}
    (hget : s.firing[index]? = some completion) :
    Handles (({ s with firing := s.firing.eraseIdx index } : System α).fireOne completion) := by
  have herase := h.eraseFiring index
  cases completion with
  | recvReady handle => exact herase.congr rfl rfl rfl rfl rfl
  | sendOk handle =>
      obtain ⟨f, hf, hpromised⟩ := h.promised_of_firing hget rfl
      have hnot := h.notMem_eraseFiring hget rfl
      simp only [fireOne, hf]
      exact herase.complete hf hnot (fun hfirst => not_promised_of_phase hfirst hpromised)
        (by simp)
  | sendErr handle value =>
      obtain ⟨f, hf, hpromised⟩ := h.promised_of_firing hget rfl
      have hnot := h.notMem_eraseFiring hget rfl
      obtain ⟨f', hf', hvalue⟩ := h.error handle value (List.mem_of_getElem? hget)
      obtain rfl : f = f' := by simpa [hf] using hf'
      simp only [fireOne, hf]
      have hcomplete : Handles (({ s with firing := s.firing.eraseIdx index } :
          System α).setSend handle { f with cell := f.cell.complete (.error value) }) := by
        refine herase.complete hf hnot (fun hfirst => not_promised_of_phase hfirst hpromised) ?_
        rintro v ⟨⟩
        exact hvalue
      refine hcomplete.lose ?_
      intro i v hmem
      split at hmem
      next hgone =>
        obtain ⟨rfl, rfl⟩ : i = handle ∧ v = value := by simpa using hmem
        refine ⟨_, List.getElem?_set_self (List.getElem?_eq_some_iff.mp hf).1, hvalue, ?_⟩
        rcases hpromised with hdropped | ⟨-, hunfinished, hinterested⟩
        · exact hdropped
        · simp [hunfinished, hinterested] at hgone
      next => cases hmem

/-! ### Steps -/

theorem init (capacity : Option Nat) : Handles (System.new capacity : System α) := by
  constructor <;> simp [System.new, pendingHandles]

theorem recvSection (h : Handles s) (hwaiting : Waiting capacity s) :
    Handles (s.leave s.state.recvSection.1 s.state.recvSection.2.1) :=
  h.leave (keeps_recvSection hwaiting.sound)

theorem stepped (h : Handles s) (hwaiting : Waiting capacity s) {action : Action α}
    (hstep : Stepped s action s') : Handles s' := by
  cases hstep with
  | trySend => exact h.sendNow _
  | trySendRefused => exact h.giveBack _
  | newSend => exact h.newSend _
  | beginSend hsend hphase => exact (h.sendNow _).setFirst hsend (Or.inl hphase) rfl
  | beginSendClosed hsend hphase => exact (h.giveBack _).setFirst hsend (Or.inl hphase) rfl
  | beginSendFull hsend hphase => exact h.setFirst hsend (Or.inl hphase) rfl
  | pollCompletion hsend hphase => exact h.pollCompletion hsend hphase
  | retrySend hsend hphase => exact (h.sendNow _).setCompleted hsend hphase (Or.inl rfl)
  | retrySendClosed hsend hphase =>
      exact (h.setCompleted hsend hphase (Or.inr rfl)).congr rfl rfl rfl rfl rfl
  | retrySendFull hsend hphase => exact h.publish hsend hphase
  | dropUnpolled hsend hphase => exact h.setFirst hsend (Or.inl hphase) rfl
  | dropWaiting hsend hphase => exact h.dropWaiting hsend hphase
  | cancelSend hsend hphase => exact h.cancelSend hsend hphase
  | cloneSender => exact h.congr rfl rfl rfl rfl rfl
  | underflow => exact h.congr rfl rfl rfl rfl rfl
  | dropSender => exact (h.leave (keeps_dropSender s.state)).congr rfl rfl rfl rfl rfl
  | fire hget => exact h.fire hget
  | pollRecv =>
      unfold System.pollRecv
      split
      · exact h.congr rfl rfl rfl rfl rfl
      · split
        · exact h
        · exact h.congr rfl rfl rfl rfl rfl
  | receive =>
      have hsection := h.recvSection hwaiting
      unfold System.receive
      split <;> rename_i heq <;> rw [heq] at hsection <;> exact hsection.congr rfl rfl rfl rfl rfl
  | register =>
      unfold System.register
      dsimp only
      split
      · exact h.congr rfl rfl rfl rfl rfl
      · split
        · exact h.congr rfl rfl rfl rfl rfl
        · exact h.congr rfl rfl rfl rfl rfl
  | tryRecv =>
      have hsection := h.recvSection hwaiting
      unfold System.tryRecv
      split <;> rename_i heq <;> rw [heq] at hsection <;> exact hsection.congr rfl rfl rfl rfl rfl
  | release =>
      unfold System.release
      split
      · exact h.congr rfl rfl rfl rfl rfl
      · exact h.congr rfl rfl rfl rfl rfl
  | cancelRecv => exact h.congr rfl rfl rfl rfl rfl
  | close => exact h.leave (keeps_closeReceiver s.state)
  | dropReceiver => exact (h.leave (keeps_closeReceiver s.state)).congr rfl rfl rfl rfl rfl
  | free => exact h.congr rfl rfl rfl rfl rfl

end Handles

theorem handles_of_reachable (h : Reachable capacity s) : Handles s := by
  have hboth : Waiting capacity s ∧ Handles s := by
    refine Transition.Reachable.invariant (fun s => Waiting capacity s ∧ Handles s)
      ⟨.init capacity, .init capacity⟩ ?_ h
    rintro s action s' ⟨hwaiting, hhandles⟩ - hstep
    have hstepped := stepped_of_step hstep
    exact ⟨hwaiting.stepped hstepped, hhandles.stepped hwaiting hstepped⟩
  exact hboth.2

end System

end Runite.Channel.Mpsc
