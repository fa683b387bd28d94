import Runite.Channel.MpscHandles

/-!
# Nobody waits for nothing

A parked future is registered with the channel, or its completion was collected
under the mutex and is still to be fired, or its completion has a result: for a
`send` future in `SendersParked`, for the future in `stream_wait` in
`ReceiverParked`.  So no waiter is taken off its list without its completion.
-/

namespace Runite.Channel.Mpsc

variable {α : Type}

namespace State

variable {s s' : State α} {capacity : Option Nat}

/-- A critical section that takes out the receiver's waiter collects its completion. -/
def Collects (s s' : State α) (completions : List (PendingCompletion α)) : Prop :=
  ∀ h, s.recvWaiter = some h → s'.recvWaiter = some h ∨ .recvReady h ∈ completions

theorem Collects.of_eq {completions : List (PendingCompletion α)}
    (h : s'.recvWaiter = s.recvWaiter) : Collects s s' completions := by
  intro handle hwaiter
  exact Or.inl (h.trans hwaiter)

theorem Collects.of_recvCompletion {completions : List (PendingCompletion α)}
    (h : ∀ c ∈ s.recvCompletion, c ∈ completions) : Collects s s' completions := by
  intro handle hwaiter
  exact Or.inr (h _ (by simp [recvCompletion, hwaiter]))

theorem collects_recvSection (h : Sound capacity s) :
    Collects s s.recvSection.1 s.recvSection.2.1 := by
  cases hqueue : s.queue with
  | nil =>
      unfold recvSection
      simp only [hqueue]
      split <;> exact .of_eq rfl
  | cons value queue =>
      -- a receiver does not wait at a channel with a value
      intro handle hwaiter
      rw [h.recvWaiter_of_queue (by simp [hqueue])] at hwaiter
      cases hwaiter

theorem collects_closeReceiver (s : State α) :
    Collects s s.closeReceiver.1 s.closeReceiver.2 :=
  .of_recvCompletion fun _ hc => List.mem_append_right _ hc

theorem collects_dropSender (s : State α) : Collects s s.dropSender.1 s.dropSender.2 := by
  unfold dropSender
  dsimp only
  split
  next => exact .of_recvCompletion fun _ hc => hc
  next => exact .of_eq rfl

end State

namespace System

open State

variable {s s' : System α} {capacity : Option Nat} {index : Nat} {send : SendFuture α}

/-! ## Senders -/

/-- A waiting `send` future has a result, or the promise of one. -/
def SendersParked (s : System α) : Prop :=
  ∀ (i : Nat) (f : SendFuture α) (waiterId : Option Nat), s.sends[i]? = some f →
    f.phase = .waiting waiterId →
    f.cell.Awaited ∧ (f.cell.result ≠ none ∨ i ∈ s.pendingHandles)

namespace SendersParked

theorem congr (h : SendersParked s) (hsends : s'.sends = s.sends)
    (hpending : ∀ i ∈ s.pendingHandles, i ∈ s'.pendingHandles) : SendersParked s' := by
  intro i f waiterId hf hphase
  rw [hsends] at hf
  obtain ⟨hawaited, hrest⟩ := h i f waiterId hf hphase
  exact ⟨hawaited, hrest.imp_right (hpending i)⟩

theorem leave (h : SendersParked s) {state : State α}
    {completions : List (PendingCompletion α)} (hkeeps : Keeps s.state state completions) :
    SendersParked (s.leave state completions) :=
  h.congr rfl fun _ hmem => (pendingHandles_leave hkeeps).mem_iff.mpr hmem

/-- A future moves on, and the promises to the others stay. -/
theorem set (h : SendersParked s) (hsend : s'.sends[index]? = some send) {f : SendFuture α}
    (hsends : s'.sends = s.sends)
    (hpending : ∀ i ∈ s.pendingHandles, i ≠ index → i ∈ s'.pendingHandles)
    (hparked : ∀ waiterId, f.phase = .waiting waiterId →
      f.cell.Awaited ∧ (f.cell.result ≠ none ∨ index ∈ s'.pendingHandles)) :
    SendersParked (s'.setSend index f) := by
  intro i g waiterId hg hphase
  rw [getElem?_setSend hsend] at hg
  by_cases hi : i = index
  · subst hi
    obtain rfl : f = g := by simpa using hg
    exact hparked waiterId hphase
  · obtain ⟨hawaited, hrest⟩ := h i g waiterId (by simpa [hi, hsends] using hg) hphase
    exact ⟨hawaited, hrest.imp_right fun hmem => hpending i hmem hi⟩

theorem setIdle (h : SendersParked s) (hsend : s.sends[index]? = some send) {f : SendFuture α}
    (hphase : ∀ waiterId, f.phase ≠ .waiting waiterId) : SendersParked (s.setSend index f) :=
  h.set hsend rfl (fun _ hmem _ => hmem) fun waiterId hwaiting =>
    absurd hwaiting (hphase waiterId)

theorem sendNow (h : SendersParked s) (value : α) : SendersParked (s.sendNow value) := by
  have hleave : SendersParked
      (s.leave (s.state.push value).takeRecvWaiter s.state.recvCompletion) :=
    h.leave (.of_recvCompletion rfl rfl)
  exact hleave.congr rfl fun _ hmem => hmem

theorem giveBack (h : SendersParked s) (value : α) : SendersParked (s.giveBack value) :=
  h.congr rfl fun _ hmem => hmem

theorem newSend (h : SendersParked s) (value : α) :
    SendersParked { s with sends := s.sends ++ [{ value }] } := by
  intro i f waiterId hf hphase
  rw [List.getElem?_append] at hf
  split at hf
  next => exact h i f waiterId hf hphase
  next =>
    obtain ⟨-, rfl⟩ : i - s.sends.length = 0 ∧ ({ value } : SendFuture α) = f := by
      simpa [List.getElem?_singleton] using hf
    cases hphase

/-- A first poll that is answered at once completes its own completion. -/
theorem setCompleted (h : SendersParked s) (hhandles : Handles s)
    (hsend : s.sends[index]? = some send) (hphase : send.phase = .retrying)
    (result : Except α Unit) : SendersParked (s.setSend index
      { send with phase := .waiting none, cell := send.cell.complete result }) := by
  have hcell : send.cell = {} :=
    (hhandles.fine send (List.mem_of_getElem? hsend)).fresh (Or.inr hphase)
  refine h.set hsend rfl (fun _ hmem _ => hmem) fun _ _ => ?_
  rw [hcell]
  exact ⟨Cell.Awaited.new.complete result,
    Or.inl (Cell.Awaited.new.result_complete_ne_none result)⟩

theorem publish (h : SendersParked s) (hhandles : Handles s)
    (hsend : s.sends[index]? = some send) (hphase : send.phase = .retrying) :
    SendersParked ((s.publish send.value index).setSend index
      { send with phase := .waiting (some s.state.nextWaiterId) }) := by
  have hcell : send.cell = {} :=
    (hhandles.fine send (List.mem_of_getElem? hsend)).fresh (Or.inr hphase)
  have hpending := s.pendingHandles_publish send.value index
  refine h.set (by simpa using hsend) rfl ?_ fun _ _ => ⟨?_, ?_⟩
  · intro i hmem _
    exact hpending.mem_iff.mpr (List.mem_cons_of_mem _ hmem)
  · rw [hcell]
    exact .new
  · exact Or.inr (hpending.mem_iff.mpr List.mem_cons_self)

theorem pollCompletion (h : SendersParked s) (hsend : s.sends[index]? = some send) :
    SendersParked (s.pollCompletion index send) := by
  unfold System.pollCompletion
  split
  next => exact h
  next => exact h.setIdle hsend (by simp)
  next => exact (h.setIdle hsend (by simp)).congr rfl fun _ hmem => hmem

theorem dropWaiting (h : SendersParked s) (hsend : s.sends[index]? = some send)
    (waiterId : Option Nat) : SendersParked (s.dropWaiting index send waiterId) := by
  have hphase : ∀ id, (abandonWait send waiterId).phase ≠ .waiting id := by
    intro id hwaiting
    have hdropped := (Handles.abandonWait_spec send waiterId).2.1
    simp [hwaiting, SendPhase.isDropped] at hdropped
  exact (h.setIdle hsend hphase).congr rfl fun _ hmem => hmem

/-- A cancel callback removes the waiter of its own future only. -/
theorem cancelSend (h : SendersParked s) (hhandles : Handles s)
    (hsend : s.sends[index]? = some send) {waiterId : Nat}
    (hphase : send.phase = .cancelling waiterId) :
    SendersParked (s.cancelSend index send waiterId) := by
  let removed : System α := { s with state := (s.state.removeSendWaiter waiterId).1 }
  have hpending : ∀ i ∈ s.pendingHandles, i ≠ index → i ∈ removed.pendingHandles := by
    intro i hmem hi
    rcases List.mem_append.mp hmem with hwaiter | hfiring
    · obtain ⟨w, hw, rfl⟩ := List.mem_map.mp hwaiter
      have hid : w.id ≠ waiterId := by
        intro hid
        obtain ⟨f, hf, -, hfid⟩ := hhandles.waiter w hw
        refine hi (hhandles.ids w.handle index f send waiterId hf hsend (hid ▸ hfid) ?_)
        rw [hphase]
        rfl
      exact List.mem_append_left _
        (List.mem_map_of_mem ((List.mem_eraseP_of_neg (by simpa using hid)).mpr hw))
    · exact List.mem_append_right _ hfiring
  have hremoved : removed.sends[index]? = some send := hsend
  have hset : SendersParked (removed.setSend index
      { send with phase := .dropped, cell := send.cell.cancel }) :=
    h.set hremoved rfl hpending (by simp)
  exact hset.congr rfl fun _ hmem => hmem

/-- A completion that is fired was promised to the future it completes. -/
theorem fire (h : SendersParked s) (hhandles : Handles s) {completion : PendingCompletion α}
    (hget : s.firing[index]? = some completion) : SendersParked
      (({ s with firing := s.firing.eraseIdx index } : System α).fireOne completion) := by
  let taken : System α := { s with firing := s.firing.eraseIdx index }
  have hpending : s.pendingHandles.Perm (completion.sendHandle.toList ++ taken.pendingHandles) :=
    pendingHandles_eraseFiring hget
  -- the future of the completion is completed, and the other promises stay
  have hcomplete : ∀ (handle : Nat) (f : SendFuture α) (result : Except α Unit),
      completion.sendHandle = some handle → s.sends[handle]? = some f →
      SendersParked (taken.setSend handle { f with cell := f.cell.complete result }) := by
    intro handle f result hhandle hf
    have htaken : taken.sends[handle]? = some f := hf
    refine h.set htaken rfl ?_ ?_
    · intro i hmem hi
      rw [hpending.mem_iff, hhandle] at hmem
      exact (List.mem_cons.mp hmem).resolve_left hi
    · intro waiterId hwaiting
      obtain ⟨hawaited, -⟩ := h handle f waiterId hf hwaiting
      exact ⟨hawaited.complete result, Or.inl (hawaited.result_complete_ne_none result)⟩
  cases completion with
  | recvReady handle => exact h.congr rfl fun i hmem => hpending.mem_iff.mp hmem
  | sendOk handle =>
      obtain ⟨f, hf, -⟩ := hhandles.promised_of_firing hget rfl
      simp only [fireOne, hf]
      exact hcomplete handle f _ rfl hf
  | sendErr handle value =>
      obtain ⟨f, hf, -⟩ := hhandles.promised_of_firing hget rfl
      simp only [fireOne, hf]
      exact (hcomplete handle f _ rfl hf).congr rfl fun _ hmem => hmem

theorem recvSection (h : SendersParked s) (hwaiting : Waiting capacity s) :
    SendersParked (s.leave s.state.recvSection.1 s.state.recvSection.2.1) :=
  h.leave (keeps_recvSection hwaiting.sound)

theorem stepped (h : SendersParked s) (hwaiting : Waiting capacity s) (hhandles : Handles s)
    {action : Action α} (hstep : Stepped s action s') : SendersParked s' := by
  cases hstep with
  | trySend => exact h.sendNow _
  | trySendRefused => exact h.giveBack _
  | newSend => exact h.newSend _
  | beginSend hsend => exact (h.sendNow _).setIdle hsend (by simp)
  | beginSendClosed hsend => exact (h.giveBack _).setIdle hsend (by simp)
  | beginSendFull hsend => exact h.setIdle hsend (by simp)
  | pollCompletion hsend => exact h.pollCompletion hsend
  | retrySend hsend hphase =>
      exact (h.sendNow _).setCompleted (hhandles.sendNow _) hsend hphase _
  | retrySendClosed hsend hphase =>
      exact (h.setCompleted hhandles hsend hphase _).congr rfl fun _ hmem => hmem
  | retrySendFull hsend hphase => exact h.publish hhandles hsend hphase
  | dropUnpolled hsend => exact h.setIdle hsend (by simp)
  | dropWaiting hsend => exact h.dropWaiting hsend _
  | cancelSend hsend hphase => exact h.cancelSend hhandles hsend hphase
  | cloneSender => exact h.congr rfl fun _ hmem => hmem
  | underflow => exact h.congr rfl fun _ hmem => hmem
  | dropSender => exact (h.leave (keeps_dropSender s.state)).congr rfl fun _ hmem => hmem
  | fire hget => exact h.fire hhandles hget
  | pollRecv =>
      unfold System.pollRecv
      split
      · exact h.congr rfl fun _ hmem => hmem
      · split
        · exact h
        · exact h.congr rfl fun _ hmem => hmem
  | receive =>
      have hsection := h.recvSection hwaiting
      unfold System.receive
      split <;> rename_i heq <;> rw [heq] at hsection <;>
        exact hsection.congr rfl fun _ hmem => hmem
  | register =>
      unfold System.register
      dsimp only
      split
      · exact h.congr rfl fun _ hmem => hmem
      · split
        · exact h.congr rfl fun _ hmem => hmem
        · exact h.congr rfl fun _ hmem => hmem
  | tryRecv =>
      have hsection := h.recvSection hwaiting
      unfold System.tryRecv
      split <;> rename_i heq <;> rw [heq] at hsection <;>
        exact hsection.congr rfl fun _ hmem => hmem
  | release =>
      unfold System.release
      split <;> exact h.congr rfl fun _ hmem => hmem
  | cancelRecv => exact h.congr rfl fun _ hmem => hmem
  | close => exact h.leave (keeps_closeReceiver s.state)
  | dropReceiver =>
      exact (h.leave (keeps_closeReceiver s.state)).congr rfl fun _ hmem => hmem
  | free => exact h.congr rfl fun _ hmem => hmem

end SendersParked

/-! ## The receiver -/

/-- The future in `stream_wait` has a result, or it is registered, or its
completion is to be fired.  None is there while another one is being dropped. -/
structure ReceiverParked (s : System α) : Prop where
  parked : ∀ h, s.streamWait = some h → (s.recvCells h).Awaited ∧
    ((s.recvCells h).result ≠ none ∨ s.state.recvWaiter = some h ∨ .recvReady h ∈ s.firing)
  cancelling : ∀ h, s.recvPhase = .cancelling h → s.streamWait = none

namespace ReceiverParked

theorem congr (h : ReceiverParked s) (hwait : s'.streamWait = s.streamWait)
    (hcells : s'.recvCells = s.recvCells) (hphase : s'.recvPhase = s.recvPhase)
    (hwaiter : s'.state.recvWaiter = s.state.recvWaiter) (hfiring : s'.firing = s.firing) :
    ReceiverParked s' where
  parked := by
    rw [hwait, hcells, hwaiter, hfiring]
    exact h.parked
  cancelling := by
    rw [hwait, hphase]
    exact h.cancelling

theorem leave (h : ReceiverParked s) {state : State α}
    {completions : List (PendingCompletion α)}
    (hcollects : Collects s.state state completions) :
    ReceiverParked (s.leave state completions) where
  parked := by
    intro handle hwait
    obtain ⟨hawaited, hresult | hwaiter | hfiring⟩ := h.parked handle hwait
    · exact ⟨hawaited, Or.inl hresult⟩
    · refine ⟨hawaited, Or.inr ?_⟩
      exact (hcollects handle hwaiter).imp_right (List.mem_append_right _)
    · exact ⟨hawaited, Or.inr (Or.inr (List.mem_append_left _ hfiring))⟩
  cancelling := h.cancelling

theorem move (h : ReceiverParked s) (phase : RecvPhase)
    (hphase : ∀ handle, phase ≠ .cancelling handle) :
    ReceiverParked { s with recvPhase := phase } where
  parked := h.parked
  cancelling := fun handle hcancelling => absurd hcancelling (hphase handle)

theorem of_streamWait (h : s.streamWait = none) : ReceiverParked s where
  parked := by simp [h]
  cancelling := fun _ _ => h

theorem fire (h : ReceiverParked s) {completion : PendingCompletion α}
    (hget : s.firing[index]? = some completion) : ReceiverParked
      (({ s with firing := s.firing.eraseIdx index } : System α).fireOne completion) := by
  obtain ⟨hlt, hcompletion⟩ := List.getElem?_eq_some_iff.mp hget
  -- what is fired is no longer in the bag, everything else is
  have hbag : ∀ handle, .recvReady handle ∈ s.firing → completion ≠ .recvReady handle →
      .recvReady handle ∈ s.firing.eraseIdx index := by
    intro handle hmem hne
    have hperm := (List.getElem_cons_eraseIdx_perm hlt).mem_iff.mpr hmem
    rw [hcompletion] at hperm
    exact (List.mem_cons.mp hperm).resolve_left (Ne.symm hne)
  have herase : (∀ handle, completion ≠ .recvReady handle) →
      ReceiverParked { s with firing := s.firing.eraseIdx index } := by
    intro hne
    refine ⟨fun handle hwait => ?_, h.cancelling⟩
    obtain ⟨hawaited, hrest⟩ := h.parked handle hwait
    exact ⟨hawaited, hrest.imp_right (Or.imp_right fun hmem => hbag handle hmem (hne handle))⟩
  cases completion with
  | recvReady fired =>
      refine ⟨fun handle hwait => ?_, h.cancelling⟩
      obtain ⟨hawaited, hrest⟩ := h.parked handle hwait
      by_cases hfired : handle = fired
      · subst hfired
        simp only [fireOne, Function.update_self]
        exact ⟨hawaited.complete (), Or.inl (hawaited.result_complete_ne_none ())⟩
      · simp only [fireOne, Function.update_of_ne hfired]
        exact ⟨hawaited, hrest.imp_right (Or.imp_right fun hmem =>
          hbag handle hmem (by simpa using Ne.symm hfired))⟩
  | sendOk handle =>
      have h' := herase (by simp)
      simp only [fireOne]
      split
      next => exact h'
      next => exact h'.congr rfl rfl rfl rfl rfl
  | sendErr handle value =>
      have h' := herase (by simp)
      simp only [fireOne]
      split
      next => exact h'
      next => exact h'.congr rfl rfl rfl rfl rfl

theorem pollRecv (h : ReceiverParked s) : ReceiverParked s.pollRecv := by
  unfold System.pollRecv
  split
  next hwait => exact of_streamWait hwait
  next =>
    split
    next => exact h
    next => exact of_streamWait rfl

theorem tryRecv (h : ReceiverParked s) (hsound : s.state.Sound capacity) :
    ReceiverParked s.tryRecv := by
  have hsection := h.leave (collects_recvSection hsound)
  unfold System.tryRecv
  split <;> rename_i heq <;> rw [heq] at hsection
  · exact (hsection.move .releasing (by simp)).congr rfl rfl rfl rfl rfl
  · exact hsection.move _ (by simp)
  · exact hsection

theorem receive (hwait : s.streamWait = none) : ReceiverParked s.receive := by
  unfold System.receive
  split <;> exact of_streamWait hwait

/-- A future that is published is completed at once, or registered. -/
theorem register (hwait : s.streamWait = none) : ReceiverParked s.register := by
  unfold System.register
  dsimp only
  split
  next =>
    refine ⟨?_, by simp⟩
    rintro handle ⟨⟩
    simp only [setRecvCell_recvCells, Function.update_self]
    exact ⟨Cell.Awaited.new.complete (), Or.inl (Cell.Awaited.new.result_complete_ne_none ())⟩
  next =>
    split
    next => exact of_streamWait hwait
    next =>
      refine ⟨?_, by simp⟩
      rintro handle ⟨⟩
      refine ⟨?_, Or.inr (Or.inl rfl)⟩
      simp only [setRecvCell_recvCells, Function.update_self]
      exact .new

theorem release (s : System α) : ReceiverParked s.release := by
  unfold System.release
  split
  next hwait => exact of_streamWait hwait
  next => exact of_streamWait rfl

theorem stepped (h : ReceiverParked s) (hwaiting : Waiting capacity s) {action : Action α}
    (hstep : Stepped s action s') : ReceiverParked s' := by
  have hsendNow : ∀ value, ReceiverParked (s.sendNow value) := by
    intro value
    have hleave : ReceiverParked
        (s.leave (s.state.push value).takeRecvWaiter s.state.recvCompletion) :=
      h.leave (.of_recvCompletion fun _ hc => hc)
    exact hleave.congr rfl rfl rfl rfl rfl
  cases hstep with
  | trySend => exact hsendNow _
  | trySendRefused => exact h.congr rfl rfl rfl rfl rfl
  | newSend => exact h.congr rfl rfl rfl rfl rfl
  | beginSend => exact (hsendNow _).congr rfl rfl rfl rfl rfl
  | beginSendClosed => exact h.congr rfl rfl rfl rfl rfl
  | beginSendFull => exact h.congr rfl rfl rfl rfl rfl
  | pollCompletion =>
      unfold System.pollCompletion
      split
      next => exact h
      next => exact h.congr rfl rfl rfl rfl rfl
      next => exact h.congr rfl rfl rfl rfl rfl
  | retrySend => exact (hsendNow _).congr rfl rfl rfl rfl rfl
  | retrySendClosed => exact h.congr rfl rfl rfl rfl rfl
  | retrySendFull => exact h.congr rfl rfl rfl rfl (List.append_nil _)
  | dropUnpolled => exact h.congr rfl rfl rfl rfl rfl
  | dropWaiting => exact h.congr rfl rfl rfl rfl rfl
  | cancelSend => exact h.congr rfl rfl rfl rfl rfl
  | cloneSender => exact h.congr rfl rfl rfl rfl rfl
  | underflow => exact h.congr rfl rfl rfl rfl rfl
  | dropSender => exact (h.leave (collects_dropSender s.state)).congr rfl rfl rfl rfl rfl
  | fire hget => exact h.fire hget
  | pollRecv => exact h.pollRecv
  | receive hphase => exact receive (hwaiting.slot.empty (Or.inl hphase))
  | register hphase => exact register (hwaiting.slot.empty (Or.inr hphase))
  | tryRecv => exact h.tryRecv hwaiting.sound
  | release => exact release s
  | cancelRecv hphase => exact of_streamWait (h.cancelling _ hphase)
  | close => exact h.leave (collects_closeReceiver s.state)
  | dropReceiver =>
      have hclosed : ReceiverParked s.close := h.leave (collects_closeReceiver s.state)
      exact (hclosed.move .releasing (by simp)).congr rfl rfl rfl rfl rfl
  | free => exact h.congr rfl rfl rfl rfl rfl

end ReceiverParked

/-! ## Runs -/

theorem parked_of_reachable (h : Reachable capacity s) :
    SendersParked s ∧ ReceiverParked s := by
  have hall : (Waiting capacity s ∧ Handles s) ∧ SendersParked s ∧ ReceiverParked s := by
    refine Transition.Reachable.invariant
      (fun s => (Waiting capacity s ∧ Handles s) ∧ SendersParked s ∧ ReceiverParked s)
      ⟨⟨.init capacity, .init capacity⟩, ?_, .of_streamWait rfl⟩ ?_ h
    · intro i f waiterId hf
      simp [System.new] at hf
    · rintro s action s' ⟨⟨hwaiting, hhandles⟩, hsenders, hreceiver⟩ - hstep
      have hstepped := stepped_of_step hstep
      exact ⟨⟨hwaiting.stepped hstepped, hhandles.stepped hwaiting hstepped⟩,
        hsenders.stepped hwaiting hhandles hstepped, hreceiver.stepped hwaiting hstepped⟩
  exact hall.2

/-- In every reachable state: senders wait only at a bounded channel that is
exactly full and open, the receiver waits only at an empty, open channel with a
live sender, no assertion has failed, and whoever is parked has a result, or is
registered, or its completion was collected and is to be fired. -/
theorem waiters_of_reachable (h : Reachable capacity s) :
    (s.state.sendWaiters ≠ [] → (∃ c, capacity = some c ∧ s.state.queue.length = c) ∧
      s.state.receiverClosed = false) ∧
    (s.state.recvWaiter ≠ none → s.state.queue = [] ∧ s.state.receiverClosed = false ∧
      0 < s.senders) ∧
    s.panicked = false ∧
    (∀ i f waiterId, s.sends[i]? = some f → f.phase = .waiting waiterId →
      f.cell.result ≠ none ∨ i ∈ s.pendingHandles) ∧
    ∀ h, s.streamWait = some h → (s.recvCells h).result ≠ none ∨
      s.state.recvWaiter = some h ∨ .recvReady h ∈ s.firing := by
  have hwaiting := waiting_of_reachable h
  obtain ⟨hsenders, hreceiver⟩ := parked_of_reachable h
  refine ⟨fun hwaiters => ?_, fun hwaiter => ?_, hwaiting.panicked,
    fun i f waiterId hf hphase => (hsenders i f waiterId hf hphase).2,
    fun handle hwait => (hreceiver.parked handle hwait).2⟩
  · obtain ⟨hfull, hopen⟩ := hwaiting.sound.sending hwaiters
    exact ⟨hwaiting.sound.length_eq hfull, hopen⟩
  · obtain ⟨hqueue, hopen, hsenders⟩ := hwaiting.sound.receiving hwaiter
    exact ⟨hqueue, hopen, hwaiting.senders ▸ hsenders⟩

/-- A sender waits at a channel of capacity one, and the receiver is in
`poll_recv` at another, empty one. -/
theorem waiters_full_and_empty :
    (∃ s : System Nat, (Reachable (some 1) s ∧ s.state.sendWaiters ≠ []) ∧
      s.state.queue.length = 1) ∧
    ∃ s : System Nat, (Reachable none s ∧ s.state.recvWaiter ≠ none) ∧ 0 < s.senders := by
  constructor
  · obtain ⟨s, hreach, hwaits⟩ := Transition.Reachable.exists_of_run step (fun _ _ => True)
      (System.new (some 1)) [.trySend 7, .newSend 8, .pollSend 0, .retrySend 0]
      (fun s => !s.state.sendWaiters.isEmpty) (by simp) rfl
    have hne : s.state.sendWaiters ≠ [] := by simpa using hwaits
    obtain ⟨⟨⟨c, hc, hlength⟩, -⟩, -⟩ := (waiters_of_reachable hreach).imp_left (· hne)
    cases hc
    exact ⟨s, ⟨hreach, hne⟩, hlength⟩
  · obtain ⟨s, hreach, hwaits⟩ := Transition.Reachable.exists_of_run step (fun _ _ => True)
      (System.new none : System Nat) [.pollRecv, .receive, .register]
      (fun s => s.state.recvWaiter.isSome) (by simp) rfl
    have hne : s.state.recvWaiter ≠ none := by
      intro hnone
      simp [hnone] at hwaits
    exact ⟨s, ⟨hreach, hne⟩, ((waiters_of_reachable hreach).2.1 hne).2.2⟩

end System

end Runite.Channel.Mpsc
