import Runite.Channel.MpscHandles

/-!
# Exactly once, in order

Two more invariants of a channel: every value that was handed in is in exactly
one place, and what was delivered, followed by the queue and by the values of
the waiters, keeps the order in which values were accepted.
-/

namespace Runite.Channel.Mpsc

variable {α : Type}

/-- The value in a completion that was not fired. -/
def PendingCompletion.errors : PendingCompletion α → List α
  | .sendErr _ value => [value]
  | _ => []

/-- The value in a result that was not polled. -/
def SendFuture.errors (f : SendFuture α) : List α :=
  match f.cell.result with
  | some (.error value) => [value]
  | _ => []

namespace System

open State

variable {s s' : System α} {capacity : Option Nat} {index : Nat} {send : SendFuture α}

/-- The values in errors: on their way to a `send` future, or returned. -/
def inErrors (s : System α) : List α :=
  s.firing.flatMap PendingCompletion.errors ++ s.sends.flatMap SendFuture.errors ++ s.returned

/-- The values that were dropped: with a cancelled `send` future, or with the
channel after its receiver. -/
def dropped (s : System α) : List α := s.cancelled.map Prod.snd ++ s.freed

def places (s : System α) : List α :=
  s.state.queue ++ s.state.sendWaiters.map (·.value) ++ s.delivered ++ s.inErrors ++ s.dropped

theorem errors_recvCompletion (s : State α) :
    s.recvCompletion.flatMap PendingCompletion.errors = [] := by
  cases hwaiter : s.recvWaiter <;> simp [recvCompletion, hwaiter, PendingCompletion.errors]

theorem errors_sendOk (waiters : List (SendWaiter α)) :
    (waiters.map fun w => (.sendOk w.handle : PendingCompletion α)).flatMap
      PendingCompletion.errors = [] := by
  simp [PendingCompletion.errors]

theorem errors_sendErrors (s : State α) :
    s.sendErrors.flatMap PendingCompletion.errors = s.sendWaiters.map (·.value) := by
  rw [sendErrors, List.flatMap_map, List.map_eq_flatMap]
  rfl

theorem errors_of_result_eq_none {f : SendFuture α} (h : f.cell.result = none) :
    f.errors = [] := by
  simp [SendFuture.errors, h]

theorem map_lostResult (index : Nat) (send : SendFuture α) :
    (lostResult index send).map Prod.snd = send.errors := by
  unfold lostResult SendFuture.errors
  cases send.cell.result with
  | none => rfl
  | some result => cases result <;> rfl

theorem errors_cancel (send : SendFuture α) (phase : SendPhase) :
    ({ send with phase, cell := send.cell.cancel } : SendFuture α).errors = send.errors := by
  unfold SendFuture.errors Cell.cancel
  cases send.cell.finished <;> rfl

theorem errors_complete_ok {f : SendFuture α}
    (hfine : f.cell.result ≠ none → f.cell.finished = true) :
    ({ f with cell := f.cell.complete (.ok ()) } : SendFuture α).errors = f.errors := by
  unfold SendFuture.errors Cell.complete
  cases hfinished : f.cell.finished with
  | true => rfl
  | false =>
      have hnone : f.cell.result = none := by
        by_contra hsome
        simp [hfine hsome] at hfinished
      cases f.cell.interested <;> simp [hnone]

section Counts

variable [DecidableEq α]

/-- How often a value occurs in the places. -/
def tally (s : System α) (v : α) : Nat :=
  s.state.queue.count v + (s.state.sendWaiters.map (·.value)).count v + s.delivered.count v +
    (s.firing.flatMap PendingCompletion.errors).count v + (s.sends.flatMap SendFuture.errors).count v +
    s.returned.count v + (s.cancelled.map Prod.snd).count v + s.freed.count v

theorem count_places (s : System α) (v : α) : s.places.count v = s.tally v := by
  simp only [places, inErrors, dropped, tally, List.count_append]
  omega

/-- Every value is in as many places as it was handed in. -/
def Accounted (s : System α) : Prop := ∀ v, s.handedIn.count v = s.tally v

namespace Accounted

theorem init (capacity : Option Nat) : Accounted (System.new capacity : System α) := by
  intro v
  simp [System.new, tally]

/-! ### Steps of a sender -/

theorem sendNow (h : Accounted s) (value : α) : Accounted (s.sendNow value) := by
  intro v
  have hv := h v
  simp only [tally, sendNow_state_queue, sendNow_state_sendWaiters, sendNow_delivered,
    sendNow_firing, sendNow_sends, sendNow_returned, sendNow_cancelled, sendNow_freed,
    sendNow_handedIn, List.flatMap_append, List.count_append, errors_recvCompletion,
    List.count_nil] at hv ⊢
  omega

theorem giveBack (h : Accounted s) (value : α) : Accounted (s.giveBack value) := by
  intro v
  have hv := h v
  simp only [tally, giveBack_state, giveBack_delivered, giveBack_firing, giveBack_sends,
    giveBack_returned, giveBack_cancelled, giveBack_freed, giveBack_handedIn,
    List.count_append] at hv ⊢
  omega

theorem publish (h : Accounted s) (value : α) (index : Nat) :
    Accounted (s.publish value index) := by
  intro v
  have hv := h v
  simp only [tally, publish_state_queue, publish_state_sendWaiters, publish_delivered,
    publish_firing, publish_sends, publish_returned, publish_cancelled, publish_freed,
    publish_handedIn, List.map_append, List.map_cons, List.map_nil, List.count_append] at hv ⊢
  omega

/-- Replacing a future exchanges the value in its result. -/
theorem tally_setSend (hsend : s.sends[index]? = some send) (f : SendFuture α) (v : α) :
    (s.setSend index f).tally v + send.errors.count v = s.tally v + f.errors.count v := by
  have hcount := Counting.count_flatMap_set SendFuture.errors v f hsend
  simp only [tally, setSend_state, setSend_delivered, setSend_firing, setSend_sends,
    setSend_returned, setSend_cancelled, setSend_freed]
  omega

theorem setSend (h : Accounted s) (hsend : s.sends[index]? = some send) {f : SendFuture α}
    (hf : f.errors = send.errors) : Accounted (s.setSend index f) := by
  intro v
  have hv := h v
  have hset := tally_setSend hsend f v
  rw [hf] at hset
  simp only [setSend_handedIn]
  omega

theorem setCompleted (h : Accounted s) (hsend : s.sends[index]? = some send)
    (hcell : send.cell = {}) : Accounted { s.setSend index
      { send with phase := .waiting none, cell := send.cell.complete (.error send.value) } with
      handedIn := s.handedIn ++ [send.value] } := by
  intro v
  have hv := h v
  have hset := tally_setSend hsend
    { send with phase := .waiting none, cell := send.cell.complete (.error send.value) } v
  have hold : send.errors = [] := by simp [SendFuture.errors, hcell]
  have hnew : ({ send with
      phase := .waiting none, cell := send.cell.complete (.error send.value) } :
      SendFuture α).errors = [send.value] := by
    simp [SendFuture.errors, hcell, Cell.complete]
  rw [hold, hnew] at hset
  simp only [tally, List.count_append, List.count_nil] at hv hset ⊢
  omega

theorem pollCompletion (h : Accounted s) (hsend : s.sends[index]? = some send) :
    Accounted (s.pollCompletion index send) := by
  have hnew : ({ send with phase := .done, cell := send.cell.abandon } :
      SendFuture α).errors = [] := by
    simp [SendFuture.errors, Cell.abandon]
  unfold System.pollCompletion
  split
  next => exact h
  next hresult =>
    exact h.setSend hsend (hnew.trans (by simp [SendFuture.errors, hresult]))
  next value hresult =>
    intro v
    have hv := h v
    have hset := tally_setSend hsend { send with phase := .done, cell := send.cell.abandon } v
    have hold : send.errors = [value] := by simp [SendFuture.errors, hresult]
    rw [hold, hnew] at hset
    simp only [tally, setSend_handedIn, setSend_state, setSend_delivered, setSend_firing,
      setSend_sends, setSend_returned, setSend_cancelled, setSend_freed, List.count_append,
      List.count_nil] at hv hset ⊢
    omega

theorem dropWaiting (h : Accounted s) (hsend : s.sends[index]? = some send)
    (waiterId : Option Nat) : Accounted (s.dropWaiting index send waiterId) := by
  intro v
  have hv := h v
  have hset := tally_setSend hsend (abandonWait send waiterId) v
  have hnew : (abandonWait send waiterId).errors = [] :=
    errors_of_result_eq_none (Handles.abandonWait_spec send waiterId).2.2.1
  rw [hnew] at hset
  simp only [System.dropWaiting, tally, setSend_handedIn, setSend_state, setSend_delivered,
    setSend_firing, setSend_sends, setSend_returned, setSend_cancelled, setSend_freed,
    List.map_append, map_lostResult, List.count_append, List.count_nil] at hv hset ⊢
  omega

theorem cancelSend (h : Accounted s) (hsend : s.sends[index]? = some send) (waiterId : Nat) :
    Accounted (s.cancelSend index send waiterId) := by
  intro v
  have hv := h v
  have hset := tally_setSend hsend { send with phase := .dropped, cell := send.cell.cancel } v
  have hwaiter := Counting.count_map_eraseP v (·.value) (fun w => w.id = waiterId)
    s.state.sendWaiters
  have hlost : ∀ found : Option (SendWaiter α),
      ((found.toList.map fun w => (index, w.value)).map Prod.snd) =
        found.toList.map (·.value) := by
    intro found
    cases found <;> rfl
  rw [errors_cancel] at hset
  simp only [System.cancelSend, removeSendWaiter, tally, setSend_handedIn, setSend_state,
    setSend_delivered, setSend_firing, setSend_sends, setSend_returned, setSend_cancelled,
    setSend_freed, List.map_append, hlost, List.count_append] at hv hset ⊢
  omega

/-! ### Completions and the receiver -/

/-- A fired error ends in the result of its future, or is lost with it. -/
theorem errors_complete_error {f : SendFuture α} (index : Nat) (value : α)
    (hfine : f.cell.result ≠ none → f.cell.finished = true) (v : α) :
    ({ f with cell := f.cell.complete (.error value) } : SendFuture α).errors.count v +
      ((if f.cell.finished || !f.cell.interested then [(index, value)] else []).map
        Prod.snd).count v = f.errors.count v + [value].count v := by
  unfold SendFuture.errors Cell.complete
  cases hfinished : f.cell.finished with
  | true => simp
  | false =>
      have hnone : f.cell.result = none := by
        by_contra hsome
        simp [hfine hsome] at hfinished
      cases f.cell.interested <;> simp [hnone]

theorem fire (h : Accounted s) (hhandles : Handles s) {completion : PendingCompletion α}
    (hget : s.firing[index]? = some completion) :
    Accounted (({ s with firing := s.firing.eraseIdx index } : System α).fireOne
      completion) := by
  intro v
  have hv := h v
  have herase := Counting.count_flatMap_eraseIdx PendingCompletion.errors v hget
  cases completion with
  | recvReady handle =>
      simp only [PendingCompletion.errors, List.count_nil, Nat.add_zero] at herase
      simp only [fireOne, tally, herase] at hv ⊢
      exact hv
  | sendOk handle =>
      obtain ⟨f, hf, -⟩ := hhandles.promised_of_firing hget rfl
      have hfine := (hhandles.fine f (List.mem_of_getElem? hf)).result
      have hset := tally_setSend hf { f with cell := f.cell.complete (.ok ()) } v
      rw [errors_complete_ok hfine] at hset
      simp only [PendingCompletion.errors, List.count_nil, Nat.add_zero] at herase
      simp only [fireOne, hf, tally, setSend_handedIn, setSend_state, setSend_delivered,
        setSend_firing, setSend_sends, setSend_returned, setSend_cancelled,
        setSend_freed] at hv hset ⊢
      omega
  | sendErr handle value =>
      obtain ⟨f, hf, -⟩ := hhandles.promised_of_firing hget rfl
      have hfine := (hhandles.fine f (List.mem_of_getElem? hf)).result
      have hset := tally_setSend hf { f with cell := f.cell.complete (.error value) } v
      have herror := errors_complete_error handle value hfine v
      simp only [PendingCompletion.errors] at herase
      simp only [fireOne, hf, tally, setSend_handedIn, setSend_state, setSend_delivered,
        setSend_firing, setSend_sends, setSend_returned, setSend_cancelled, setSend_freed,
        List.map_append, List.count_append] at hv hset ⊢
      omega

/-- The messages and the errors that a critical section leaves are those it found. -/
theorem leave (h : Accounted s) {state : State α} {completions : List (PendingCompletion α)}
    (hmoved : ∀ v, state.queue.count v + (state.sendWaiters.map (·.value)).count v +
      (completions.flatMap PendingCompletion.errors).count v =
      s.state.queue.count v + (s.state.sendWaiters.map (·.value)).count v) :
    Accounted (s.leave state completions) := by
  intro v
  have hv := h v
  have hmove := hmoved v
  simp only [tally, leave_handedIn, leave_state, leave_delivered, leave_firing, leave_sends,
    leave_returned, leave_cancelled, leave_freed, List.flatMap_append, List.count_append] at hv ⊢
  omega

theorem close (h : Accounted s) : Accounted s.close := by
  refine h.leave fun v => ?_
  change s.state.queue.count v + ([] : List α).count v +
    ((s.state.sendErrors ++ s.state.recvCompletion).flatMap PendingCompletion.errors).count v = _
  rw [List.flatMap_append, errors_sendErrors, errors_recvCompletion]
  simp

theorem dropSender (h : Accounted s) :
    Accounted (s.leave s.state.dropSender.1 s.state.dropSender.2) := by
  refine h.leave fun v => ?_
  unfold State.dropSender
  dsimp only
  split
  · change s.state.queue.count v + (s.state.sendWaiters.map (·.value)).count v +
      (s.state.recvCompletion.flatMap PendingCompletion.errors).count v = _
    rw [errors_recvCompletion]
    simp
  · simp

/-- A message goes from the front of the queue to the receiver, and waiters
follow it into the queue. -/
theorem recvSection (h : Accounted s) (hsound : s.state.Sound capacity) :
    Accounted { s.leave s.state.recvSection.1 s.state.recvSection.2.1 with
      delivered := s.delivered ++ s.state.recvSection.2.2.toOption.toList } := by
  intro v
  have hv := h v
  cases hqueue : s.state.queue with
  | nil =>
      have hsame : s.state.recvSection.1 = s.state ∧ s.state.recvSection.2.1 = [] ∧
          s.state.recvSection.2.2.toOption = none := by
        unfold State.recvSection
        simp only [hqueue]
        split <;> exact ⟨rfl, rfl, rfl⟩
      simpa [hsame, tally] using hv
  | cons value queue =>
      obtain ⟨moved, rest, hsplit, hsection, -⟩ := hsound.exists_recvSection hqueue
      rw [hsection]
      simp only [tally, hqueue, hsplit, leave_handedIn, leave_state, leave_firing,
        leave_sends, leave_returned, leave_cancelled, leave_freed, promote_queue,
        promote_sendWaiters, List.map_append, List.flatMap_append, errors_sendOk, List.count_append,
        List.count_cons, List.count_nil, Except.toOption,
        Option.toList_some] at hv ⊢
      omega

theorem congr (h : Accounted s) (htally : ∀ v, s'.tally v = s.tally v)
    (hhanded : s'.handedIn = s.handedIn) : Accounted s' := by
  intro v
  rw [htally, hhanded]
  exact h v

theorem receive (h : Accounted s) (hsound : s.state.Sound capacity) : Accounted s.receive := by
  have hsection := h.recvSection hsound
  unfold System.receive
  split <;> rename_i heq <;> rw [heq] at hsection <;>
    exact hsection.congr (fun v => by simp [tally, Except.toOption]) rfl

theorem tryRecv (h : Accounted s) (hsound : s.state.Sound capacity) : Accounted s.tryRecv := by
  have hsection := h.recvSection hsound
  unfold System.tryRecv
  split <;> rename_i heq <;> rw [heq] at hsection <;>
    exact hsection.congr (fun v => by simp [tally, Except.toOption]) rfl

theorem stepped (h : Accounted s) (hwaiting : Waiting capacity s) (hhandles : Handles s)
    {action : Action α} (hstep : Stepped s action s') : Accounted s' := by
  cases hstep with
  | trySend => exact h.sendNow _
  | trySendRefused => exact h.giveBack _
  | newSend => exact h.congr (fun v => by simp [tally, SendFuture.errors]) rfl
  | beginSend hsend => exact (h.sendNow _).setSend hsend rfl
  | beginSendClosed hsend => exact (h.giveBack _).setSend hsend rfl
  | beginSendFull hsend => exact h.setSend hsend rfl
  | pollCompletion hsend => exact h.pollCompletion hsend
  | retrySend hsend hphase =>
      have hcell := (hhandles.fine _ (List.mem_of_getElem? hsend)).fresh (Or.inr hphase)
      exact (h.sendNow _).setSend hsend (by simp [SendFuture.errors, hcell, Cell.complete])
  | retrySendClosed hsend hphase =>
      have hcell := (hhandles.fine _ (List.mem_of_getElem? hsend)).fresh (Or.inr hphase)
      exact h.setCompleted hsend hcell
  | retrySendFull hsend => exact (h.publish _ _).setSend hsend rfl
  | dropUnpolled hsend => exact h.setSend hsend rfl
  | dropWaiting hsend => exact h.dropWaiting hsend _
  | cancelSend hsend => exact h.cancelSend hsend _
  | cloneSender => exact h.congr (fun _ => rfl) rfl
  | underflow => exact h.congr (fun _ => rfl) rfl
  | dropSender => exact h.dropSender.congr (fun _ => rfl) rfl
  | fire hget => exact h.fire hhandles hget
  | pollRecv =>
      unfold System.pollRecv
      split
      · exact h.congr (fun _ => rfl) rfl
      · split
        · exact h
        · exact h.congr (fun _ => rfl) rfl
  | receive => exact h.receive hwaiting.sound
  | register =>
      unfold System.register
      dsimp only
      split
      · exact h.congr (fun _ => rfl) rfl
      · split
        · exact h.congr (fun _ => rfl) rfl
        · exact h.congr (fun _ => rfl) rfl
  | tryRecv => exact h.tryRecv hwaiting.sound
  | release =>
      unfold System.release
      split
      · exact h.congr (fun _ => rfl) rfl
      · exact h.congr (fun _ => rfl) rfl
  | cancelRecv => exact h.congr (fun _ => rfl) rfl
  | close => exact h.close
  | dropReceiver => exact h.close.congr (fun _ => rfl) rfl
  | free =>
      refine h.congr (fun v => ?_) rfl
      simp only [tally, List.count_append, List.count_nil]
      omega

end Accounted

end Counts

/-! ## Order -/

/-- What was delivered, then the queue, then the waiters. -/
def line (s : System α) : List α :=
  s.delivered ++ s.state.queue ++ s.state.sendWaiters.map (·.value)

/-- Values stay in the order in which they were accepted. -/
def Ordered (s : System α) : Prop := s.line.Sublist s.accepted

namespace Ordered

theorem of_line_eq (h : Ordered s) (hline : s'.line = s.line)
    (haccepted : s'.accepted = s.accepted) : Ordered s' := by
  rw [Ordered, hline, haccepted]
  exact h

/-- Values leave the line, and the others keep their order. -/
theorem of_sublist (h : Ordered s) (hline : s'.line.Sublist s.line)
    (haccepted : s'.accepted = s.accepted) : Ordered s' := by
  rw [Ordered, haccepted]
  exact hline.trans h

theorem of_append (h : Ordered s) {value : α} (hline : s'.line = s.line ++ [value])
    (haccepted : s'.accepted = s.accepted ++ [value]) : Ordered s' := by
  rw [Ordered, hline, haccepted]
  exact List.Sublist.append h (List.Sublist.refl _)

theorem init (capacity : Option Nat) : Ordered (System.new capacity : System α) :=
  List.nil_sublist _

/-- With room in the queue there is no waiter to overtake. -/
theorem sendNow (h : Ordered s) (hsound : s.state.Sound capacity)
    (hroom : s.state.hasCapacity = true) (value : α) : Ordered (s.sendNow value) := by
  have hwaiters : s.state.sendWaiters = [] := by
    by_contra hne
    simp [(hsound.sending hne).1] at hroom
  exact h.of_append (by simp [line, hwaiters]) rfl

theorem publish (h : Ordered s) (value : α) (index : Nat) : Ordered (s.publish value index) :=
  h.of_append (by simp [line]) rfl

theorem close (h : Ordered s) : Ordered s.close := by
  refine h.of_sublist ?_ rfl
  change (s.delivered ++ s.state.queue ++ []).Sublist s.line
  rw [List.append_nil]
  exact List.sublist_append_left ..

theorem recvSection (h : Ordered s) (hsound : s.state.Sound capacity) :
    Ordered { s.leave s.state.recvSection.1 s.state.recvSection.2.1 with
      delivered := s.delivered ++ s.state.recvSection.2.2.toOption.toList } := by
  cases hqueue : s.state.queue with
  | nil =>
      have hsame : s.state.recvSection.1 = s.state ∧
          s.state.recvSection.2.2.toOption = none := by
        unfold State.recvSection
        simp only [hqueue]
        split <;> exact ⟨rfl, rfl⟩
      exact h.of_line_eq (by simp [line, hsame]) rfl
  | cons value queue =>
      obtain ⟨moved, rest, hsplit, hsection, -⟩ := hsound.exists_recvSection hqueue
      rw [hsection]
      exact h.of_line_eq (by simp [line, hqueue, hsplit, Except.toOption]) rfl

theorem receive (h : Ordered s) (hsound : s.state.Sound capacity) : Ordered s.receive := by
  have hsection := h.recvSection hsound
  unfold System.receive
  split <;> rename_i heq <;> rw [heq] at hsection <;>
    exact hsection.of_line_eq (by simp [line, Except.toOption]) rfl

theorem tryRecv (h : Ordered s) (hsound : s.state.Sound capacity) : Ordered s.tryRecv := by
  have hsection := h.recvSection hsound
  unfold System.tryRecv
  split <;> rename_i heq <;> rw [heq] at hsection <;>
    exact hsection.of_line_eq (by simp [line, Except.toOption]) rfl

theorem cancelSend (h : Ordered s) (index : Nat) (send : SendFuture α) (waiterId : Nat) :
    Ordered (s.cancelSend index send waiterId) := by
  refine h.of_sublist ?_ rfl
  exact (List.eraseP_sublist.map _).append_left _

theorem dropSender (h : Ordered s) :
    Ordered (s.leave s.state.dropSender.1 s.state.dropSender.2) := by
  have hsame : s.state.dropSender.1.queue = s.state.queue ∧
      s.state.dropSender.1.sendWaiters = s.state.sendWaiters := by
    unfold State.dropSender
    dsimp only
    split <;> exact ⟨rfl, rfl⟩
  exact h.of_line_eq (by simp [line, hsame]) rfl

theorem fireOne (h : Ordered s) (completion : PendingCompletion α) :
    Ordered (s.fireOne completion) := by
  cases completion with
  | recvReady handle => exact h.of_line_eq rfl rfl
  | sendOk handle =>
      unfold System.fireOne
      dsimp only
      split
      · exact h
      · exact h.of_line_eq rfl rfl
  | sendErr handle value =>
      unfold System.fireOne
      dsimp only
      split
      · exact h
      · exact h.of_line_eq rfl rfl

theorem stepped (h : Ordered s) (hwaiting : Waiting capacity s) {action : Action α}
    (hstep : Stepped s action s') : Ordered s' := by
  have hsound := hwaiting.sound
  cases hstep with
  | trySend hroom => exact h.sendNow hsound hroom _
  | trySendRefused => exact h.of_line_eq rfl rfl
  | newSend => exact h.of_line_eq rfl rfl
  | beginSend _ _ hroom => exact (h.sendNow hsound hroom _).of_line_eq rfl rfl
  | beginSendClosed => exact h.of_line_eq rfl rfl
  | beginSendFull => exact h.of_line_eq rfl rfl
  | pollCompletion =>
      unfold System.pollCompletion
      split
      · exact h
      · exact h.of_line_eq rfl rfl
      · exact h.of_line_eq rfl rfl
  | retrySend _ _ hroom => exact (h.sendNow hsound hroom _).of_line_eq rfl rfl
  | retrySendClosed => exact h.of_line_eq rfl rfl
  | retrySendFull => exact (h.publish _ _).of_line_eq rfl rfl
  | dropUnpolled => exact h.of_line_eq rfl rfl
  | dropWaiting => exact h.of_line_eq rfl rfl
  | cancelSend => exact h.cancelSend _ _ _
  | cloneSender => exact h.of_line_eq rfl rfl
  | underflow => exact h.of_line_eq rfl rfl
  | dropSender => exact h.dropSender.of_line_eq rfl rfl
  | @fire index completion =>
      have herase : Ordered { s with firing := s.firing.eraseIdx index } := h.of_line_eq rfl rfl
      exact herase.fireOne completion
  | pollRecv =>
      unfold System.pollRecv
      split
      · exact h.of_line_eq rfl rfl
      · split
        · exact h
        · exact h.of_line_eq rfl rfl
  | receive => exact h.receive hsound
  | register =>
      unfold System.register
      dsimp only
      split
      · exact h.of_line_eq rfl rfl
      · split
        · exact h.of_line_eq rfl rfl
        · exact h.of_line_eq rfl rfl
  | tryRecv => exact h.tryRecv hsound
  | release =>
      unfold System.release
      split
      · exact h.of_line_eq rfl rfl
      · exact h.of_line_eq rfl rfl
  | cancelRecv => exact h.of_line_eq rfl rfl
  | close => exact h.close
  | dropReceiver => exact h.close.of_line_eq rfl rfl
  | free =>
      refine h.of_sublist ?_ rfl
      simp only [line, List.append_nil, List.append_assoc]
      exact (List.sublist_append_right ..).append_left _

end Ordered

/-! ## Freed with the channel -/

/-- Messages are freed only after the receiver is gone, and it stays gone. -/
theorem freed_of_stepped {action : Action α} (hstep : Stepped s action s') :
    (s'.freed = s.freed ∨ s.receiverDropped = true) ∧
      (s.receiverDropped = true → s'.receiverDropped = true) := by
  cases hstep with
  | pollCompletion =>
      unfold pollCompletion
      split <;> exact ⟨Or.inl rfl, id⟩
  | @fire index completion =>
      cases completion with
      | recvReady => exact ⟨Or.inl rfl, id⟩
      | sendOk =>
          unfold fireOne
          dsimp only
          split <;> exact ⟨Or.inl rfl, id⟩
      | sendErr =>
          unfold fireOne
          dsimp only
          split <;> exact ⟨Or.inl rfl, id⟩
  | pollRecv =>
      unfold pollRecv
      split
      · exact ⟨Or.inl rfl, id⟩
      · split <;> exact ⟨Or.inl rfl, id⟩
  | receive =>
      unfold receive
      split <;> exact ⟨Or.inl rfl, id⟩
  | register =>
      unfold register
      dsimp only
      split
      · exact ⟨Or.inl rfl, id⟩
      · split <;> exact ⟨Or.inl rfl, id⟩
  | tryRecv =>
      unfold tryRecv
      split <;> exact ⟨Or.inl rfl, id⟩
  | release =>
      unfold release
      split <;> exact ⟨Or.inl rfl, id⟩
  | dropReceiver => exact ⟨Or.inl rfl, fun _ => rfl⟩
  | free hdropped => exact ⟨Or.inr hdropped, id⟩
  | _ => exact ⟨Or.inl rfl, id⟩

theorem receiverDropped_of_freed (h : Reachable capacity s) (hfreed : s.freed ≠ []) :
    s.receiverDropped = true := by
  refine Transition.Reachable.invariant
    (fun s => s.freed ≠ [] → s.receiverDropped = true) (by simp [System.new]) ?_ h hfreed
  intro s action s' ih _ hstep hne
  obtain ⟨hfreed, hkept⟩ := freed_of_stepped (stepped_of_step hstep)
  rcases hfreed with heq | hdropped
  · exact hkept (ih (heq ▸ hne))
  · exact hkept hdropped

/-! ## Delivery -/

theorem ordered_of_reachable (h : Reachable capacity s) : Ordered s := by
  have hboth : Waiting capacity s ∧ Ordered s := by
    refine Transition.Reachable.invariant (fun s => Waiting capacity s ∧ Ordered s)
      ⟨.init capacity, .init capacity⟩ ?_ h
    rintro s action s' ⟨hwaiting, hordered⟩ - hstep
    have hstepped := stepped_of_step hstep
    exact ⟨hwaiting.stepped hstepped, hordered.stepped hwaiting hstepped⟩
  exact hboth.2

theorem accounted_of_reachable [DecidableEq α] (h : Reachable capacity s) : Accounted s := by
  have hall : Waiting capacity s ∧ Handles s ∧ Accounted s := by
    refine Transition.Reachable.invariant
      (fun s => Waiting capacity s ∧ Handles s ∧ Accounted s)
      ⟨.init capacity, .init capacity, .init capacity⟩ ?_ h
    rintro s action s' ⟨hwaiting, hhandles, haccounted⟩ - hstep
    have hstepped := stepped_of_step hstep
    exact ⟨hwaiting.stepped hstepped, hhandles.stepped hwaiting hstepped,
      haccounted.stepped hwaiting hhandles hstepped⟩
  exact hall.2.2

/-- In every reachable state every value that was handed in is in exactly one
place: the queue, a waiter, with the receiver, in an error, or dropped, which
happens to the value of a `send` future that was dropped and to values left
behind by the receiver.  An error carries the value of its own send.  Values are
delivered in the order in which they were accepted, a `try_send` does not
overtake a waiter, and the queue does not grow beyond the capacity. -/
theorem delivery_of_reachable (h : Reachable capacity s) :
    s.handedIn.Perm (s.state.queue ++ s.state.sendWaiters.map (·.value) ++ s.delivered ++
      s.inErrors ++ s.dropped) ∧
    (∀ i v, (i, v) ∈ s.cancelled → ∃ f, s.sends[i]? = some f ∧ f.value = v ∧
      f.phase.isDropped = true) ∧
    (s.freed ≠ [] → s.receiverDropped = true) ∧
    ((∀ f ∈ s.sends, ∀ v, f.cell.result = some (.error v) → f.value = v) ∧
      ∀ value error, (s.state.trySendNow value).2.2 = .error error →
        error = .full value ∨ error = .closed value) ∧
    (s.delivered ++ s.state.queue ++ s.state.sendWaiters.map (·.value)).Sublist s.accepted ∧
    (s.state.sendWaiters ≠ [] →
      ∀ value, (s.state.trySendNow value).2.2 = .error (.full value)) ∧
    ∀ c, capacity = some c → s.state.queue.length ≤ c := by
  classical
  have hwaiting := waiting_of_reachable h
  have haccounted := accounted_of_reachable h
  have hhandles := handles_of_reachable h
  refine ⟨?_, hhandles.cancelled, receiverDropped_of_freed h,
    ⟨fun f hf => (hhandles.fine f hf).value, ?_⟩, ordered_of_reachable h, ?_,
    hwaiting.sound.bound⟩
  · rw [List.perm_iff_count]
    intro v
    rw [haccounted v, ← count_places]
    rfl
  · intro value error herror
    have htried := s.state.triedSend value
    generalize s.state.trySendNow value = tried at htried herror
    obtain ⟨state, completions, result⟩ := tried
    cases htried with
    | closed =>
        cases herror
        exact Or.inr rfl
    | full =>
        cases herror
        exact Or.inl rfl
    | ok => cases herror
  · intro hwaiters value
    obtain ⟨hfull, hopen⟩ := hwaiting.sound.sending hwaiters
    simp [trySendNow, hfull, hopen]

/-- Three values on a channel of capacity one: one is delivered, one is in the
queue, one waits behind it. -/
theorem delivery_one_each : ∃ s : System Nat, Reachable (some 1) s ∧ s.delivered = [7] ∧
    s.state.queue = [8] ∧ s.state.sendWaiters.map (·.value) = [9] ∧
    s.handedIn.Perm [8, 9, 7] := by
  obtain ⟨s, hreach, heq⟩ := Transition.Reachable.exists_of_run step (fun _ _ => True)
    (System.new (some 1)) [.trySend 7, .newSend 8, .pollSend 0, .retrySend 0, .newSend 9,
      .pollSend 1, .retrySend 1, .tryRecv]
    (fun s => s.delivered = [7] ∧ s.state.queue = [8] ∧
      s.state.sendWaiters.map (·.value) = [9] ∧ s.inErrors = [] ∧ s.dropped = [])
    (by simp) (by decide)
  obtain ⟨hdelivered, hqueue, hwaiters, herrors, hdropped⟩ := of_decide_eq_true heq
  refine ⟨s, hreach, hdelivered, hqueue, hwaiters, ?_⟩
  have hplaces := (delivery_of_reachable hreach).1
  rw [hdelivered, hqueue, hwaiters, herrors, hdropped] at hplaces
  exact hplaces

end System

end Runite.Channel.Mpsc
