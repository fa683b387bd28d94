import Runite.Channel.MpscSystem

/-!
# Nobody waits in vain

Two invariants.  `State.Sound` is about the shared state alone and holds
whenever the mutex is free: senders wait only at a full and open channel, the
receiver waits only at an empty and open one with a sender.  `Slot` ties the
receiver's waiter to the future in `stream_wait`, so that a second one is never
registered.
-/

namespace Runite.Channel.Mpsc

variable {α : Type}

namespace State

variable {s : State α} {capacity : Option Nat} {value : α}

/-- What holds whenever nobody is in a critical section. -/
structure Sound (capacity : Option Nat) (s : State α) : Prop where
  capacity_eq : s.capacity = capacity
  bound : ∀ c, capacity = some c → s.queue.length ≤ c
  sending : s.sendWaiters ≠ [] → s.hasCapacity = false ∧ s.receiverClosed = false
  receiving : s.recvWaiter ≠ none →
    s.queue = [] ∧ s.receiverClosed = false ∧ 0 < s.senderCount

namespace Sound

theorem init (capacity : Option Nat) : Sound capacity ({ capacity } : State α) := by
  constructor <;> simp

/-- Without capacity, the channel is bounded and exactly full. -/
theorem length_eq (h : Sound capacity s) (hfull : s.hasCapacity = false) :
    ∃ c, capacity = some c ∧ s.queue.length = c := by
  have hcapacity := h.capacity_eq
  unfold hasCapacity at hfull
  cases hc : s.capacity with
  | none => simp [hc] at hfull
  | some c =>
      have hle := h.bound c (hcapacity ▸ hc)
      simp only [hc, decide_eq_false_iff_not] at hfull
      exact ⟨c, hcapacity ▸ hc, by omega⟩

theorem recvWaiter_of_queue (h : Sound capacity s) (hqueue : s.queue ≠ []) :
    s.recvWaiter = none := by
  by_contra hwaiter
  exact hqueue (h.receiving hwaiter).1

theorem takeRecvWaiter (h : Sound capacity s) : Sound capacity s.takeRecvWaiter where
  capacity_eq := h.capacity_eq
  bound := h.bound
  sending := h.sending
  receiving := by simp

theorem push (h : Sound capacity s) (hroom : s.hasCapacity = true) :
    Sound capacity (s.push value).takeRecvWaiter where
  capacity_eq := h.capacity_eq
  bound := by
    intro c hc
    simp only [hasCapacity, h.capacity_eq, hc, decide_eq_true_eq] at hroom
    simp
    omega
  sending := by
    intro hwaiters
    simp [(h.sending hwaiters).1] at hroom
  receiving := by simp

theorem publish (h : Sound capacity s) (hopen : s.receiverClosed = false)
    (hfull : s.hasCapacity = false) (handle : Nat) :
    Sound capacity (s.publishSendWaiter value handle) where
  capacity_eq := h.capacity_eq
  bound := h.bound
  sending := fun _ => ⟨hfull, hopen⟩
  receiving := h.receiving

theorem remove (h : Sound capacity s) (waiterId : Nat) :
    Sound capacity (s.removeSendWaiter waiterId).1 where
  capacity_eq := h.capacity_eq
  bound := h.bound
  sending := by
    intro hwaiters
    refine h.sending fun hnil => hwaiters ?_
    simp [removeSendWaiter, hnil]
  receiving := h.receiving

theorem closeReceiver (h : Sound capacity s) : Sound capacity s.closeReceiver.1 where
  capacity_eq := h.capacity_eq
  bound := h.bound
  sending := by simp [State.closeReceiver, failPendingSenders, wakeReceiver]
  receiving := by simp [State.closeReceiver, failPendingSenders, wakeReceiver]

theorem dropSender (h : Sound capacity s) : Sound capacity s.dropSender.1 := by
  unfold State.dropSender
  dsimp only
  split
  next => exact ⟨h.capacity_eq, h.bound, h.sending, by simp [wakeReceiver]⟩
  next hkept =>
    refine ⟨h.capacity_eq, h.bound, h.sending, fun hwaiter => ?_⟩
    obtain ⟨hqueue, hopen, -⟩ := h.receiving hwaiter
    refine ⟨hqueue, hopen, ?_⟩
    simp only [hqueue, and_true] at hkept
    exact Nat.pos_of_ne_zero hkept

theorem register (h : Sound capacity s) (handle : Nat) (hqueue : s.queue = [])
    (hopen : s.receiverClosed = false) (hsenders : s.senderCount ≠ 0) :
    Sound capacity { s with recvWaiter := some handle } where
  capacity_eq := h.capacity_eq
  bound := h.bound
  sending := h.sending
  receiving := fun _ => ⟨hqueue, hopen, Nat.pos_of_ne_zero hsenders⟩

/-- With a message in the queue, `pump_senders` promotes waiters and nobody
waits to receive. -/
theorem exists_recvSection (h : Sound capacity s) {queue : List α}
    (hqueue : s.queue = value :: queue) : ∃ moved rest, s.sendWaiters = moved ++ rest ∧
      s.recvSection = (({ s with queue } : State α).promote moved rest,
        moved.map fun waiter => .sendOk waiter.handle, .ok value) ∧
      Sound capacity (({ s with queue } : State α).promote moved rest) := by
  have hnone : s.recvWaiter = none := h.recvWaiter_of_queue (by simp [hqueue])
  have hlen : ∀ c, capacity = some c → queue.length + 1 ≤ c := by
    intro c hc
    simpa [hqueue] using h.bound c hc
  by_cases hclosed : s.receiverClosed = true
  · -- nobody waits at a closed channel
    have hwaiters : s.sendWaiters = [] := by
      by_contra hne
      simp [(h.sending hne).2] at hclosed
    refine ⟨[], [], by simp [hwaiters], ?_, ?_⟩
    · simp [recvSection, hqueue, pumpSenders, hwaiters, pumpLoop, clearWaiters, promote, hnone,
        wakeReceiver, recvCompletion, State.takeRecvWaiter]
    · refine ⟨h.capacity_eq, fun c hc => ?_, by simp, by simp [hnone]⟩
      simp
      have := hlen c hc
      omega
  · obtain ⟨moved, rest, hsplit, hloop, hrest, hroom⟩ :=
      exists_promote ({ s with queue } : State α) s.sendWaiters (by simpa using hclosed)
    refine ⟨moved, rest, hsplit, ?_, ?_⟩
    · simp only [recvSection, hqueue, pumpSenders, hloop]
      split <;> simp [promote, promotions, recvCompletion, hnone, wakeReceiver,
        State.takeRecvWaiter]
    · refine ⟨h.capacity_eq, fun c hc => ?_, fun hne => ⟨hrest hne, by simpa using hclosed⟩,
        by simp [hnone]⟩
      have hc' : s.capacity = some c := h.capacity_eq.trans hc
      by_cases hmoved : moved = []
      · have := hlen c hc
        simp [hmoved]
        omega
      · simpa using hroom hmoved c hc'

theorem recvSection (h : Sound capacity s) : Sound capacity s.recvSection.1 := by
  cases hqueue : s.queue with
  | nil =>
      unfold State.recvSection
      simp only [hqueue]
      split <;> exact h
  | cons value queue =>
      obtain ⟨moved, rest, -, hsection, hsound⟩ := h.exists_recvSection hqueue
      rwa [hsection]

end Sound

/-! ## The receiver's waiter -/

/-- A critical section leaves the receiver's waiter alone, or takes it out and
collects its completion. -/
def Wakes (s s' : State α) (completions : List (PendingCompletion α)) : Prop :=
  (s'.recvWaiter = s.recvWaiter ∧ ∀ h, .recvReady h ∉ completions) ∨
    (s'.recvWaiter = none ∧ ∀ h, .recvReady h ∈ completions → s.recvWaiter = some h)

theorem Wakes.of_eq {s s' : State α} (h : s'.recvWaiter = s.recvWaiter) : Wakes s s' [] :=
  Or.inl ⟨h, by simp⟩

theorem mem_recvCompletion {handle : Nat} (h : .recvReady handle ∈ s.recvCompletion) :
    s.recvWaiter = some handle := by
  cases hwaiter : s.recvWaiter with
  | none => simp [recvCompletion, hwaiter] at h
  | some other =>
      simp only [recvCompletion, hwaiter, Option.toList_some, List.map_cons, List.map_nil,
        List.mem_singleton, PendingCompletion.recvReady.injEq] at h
      rw [h]

theorem wakes_recvSection (h : Sound capacity s) :
    Wakes s s.recvSection.1 s.recvSection.2.1 := by
  cases hqueue : s.queue with
  | nil =>
      unfold recvSection
      simp only [hqueue]
      split <;> exact .of_eq rfl
  | cons value queue =>
      obtain ⟨moved, rest, -, hsection, -⟩ := h.exists_recvSection hqueue
      rw [hsection]
      left
      simp [h.recvWaiter_of_queue, hqueue]

theorem frame_recvSection (h : Sound capacity s) :
    s.recvSection.1.senderCount = s.senderCount ∧
      s.recvSection.1.receiverClosed = s.receiverClosed := by
  cases hqueue : s.queue with
  | nil =>
      unfold recvSection
      simp only [hqueue]
      split <;> exact ⟨rfl, rfl⟩
  | cons value queue =>
      obtain ⟨moved, rest, -, hsection, -⟩ := h.exists_recvSection hqueue
      rw [hsection]
      exact ⟨rfl, rfl⟩

theorem wakes_closeReceiver (s : State α) : Wakes s s.closeReceiver.1 s.closeReceiver.2 := by
  right
  refine ⟨rfl, fun handle hmem => ?_⟩
  simp only [closeReceiver, failPendingSenders, wakeReceiver, List.mem_append, sendErrors,
    List.mem_map, reduceCtorEq, and_false, exists_false, false_or] at hmem
  exact mem_recvCompletion hmem

theorem wakes_dropSender (s : State α) : Wakes s s.dropSender.1 s.dropSender.2 := by
  unfold dropSender
  dsimp only
  split
  next => exact Or.inr ⟨rfl, fun handle hmem => mem_recvCompletion hmem⟩
  next => exact .of_eq rfl

end State

namespace System

open State

variable {s s' : System α} {capacity : Option Nat}

/-- The receiver's waiter is that of the future in `stream_wait`, or of the one
that is being dropped, and its completion has not been fired. -/
structure Slot (s : System α) : Prop where
  waiter : ∀ h, s.state.recvWaiter = some h → (s.recvCells h).finished = false ∧
    h < s.nextRecvCell ∧
    (s.streamWait = some h ∧ (s.recvPhase = .idle ∨ s.recvPhase = .releasing) ∨
      s.recvPhase = .cancelling h)
  firing : ∀ h, .recvReady h ∈ s.firing → s.state.recvWaiter ≠ some h ∧ h < s.nextRecvCell
  result : ∀ h, (s.recvCells h).result ≠ none → (s.recvCells h).finished = true
  empty : s.recvPhase = .receiving ∨ s.recvPhase = .registering → s.streamWait = none

namespace Slot

theorem congr (h : Slot s) (hwaiter : s'.state.recvWaiter = s.state.recvWaiter)
    (hcells : s'.recvCells = s.recvCells) (hnext : s'.nextRecvCell = s.nextRecvCell)
    (hwait : s'.streamWait = s.streamWait) (hphase : s'.recvPhase = s.recvPhase)
    (hfiring : ∀ c ∈ s'.firing, c ∈ s.firing) : Slot s' where
  waiter := by
    rw [hwaiter, hcells, hnext, hwait, hphase]
    exact h.waiter
  firing := by
    intro handle hmem
    rw [hwaiter, hnext]
    exact h.firing handle (hfiring _ hmem)
  result := by
    rw [hcells]
    exact h.result
  empty := by
    rw [hwait, hphase]
    exact h.empty

theorem leave (h : Slot s) {state : State α} {completions : List (PendingCompletion α)}
    (hwakes : Wakes s.state state completions) : Slot (s.leave state completions) where
  waiter := by
    intro handle hwaiter
    rcases hwakes with ⟨heq, -⟩ | ⟨hnone, -⟩
    · exact h.waiter handle (heq ▸ hwaiter)
    · simp [hnone] at hwaiter
  firing := by
    intro handle hmem
    rcases List.mem_append.mp hmem with hmem | hmem
    · obtain ⟨hne, hlt⟩ := h.firing handle hmem
      rcases hwakes with ⟨heq, -⟩ | ⟨hnone, -⟩
      · exact ⟨by simpa [heq] using hne, hlt⟩
      · exact ⟨by simp [hnone], hlt⟩
    · rcases hwakes with ⟨-, hnone⟩ | ⟨hnone, hold⟩
      · exact absurd hmem (hnone handle)
      · exact ⟨by simp [hnone], (h.waiter handle (hold handle hmem)).2.1⟩
  result := h.result
  empty := h.empty

/-- Without a future in `stream_wait`, and with none being dropped, nobody waits. -/
theorem recvWaiter_eq_none (h : Slot s) (hwait : s.streamWait = none)
    (hphase : ∀ handle, s.recvPhase ≠ .cancelling handle) : s.state.recvWaiter = none := by
  cases hwaiter : s.state.recvWaiter with
  | none => rfl
  | some handle =>
      rcases (h.waiter handle hwaiter).2.2 with ⟨hsome, -⟩ | hcancelling
      · simp [hwait] at hsome
      · exact absurd hcancelling (hphase handle)

theorem move (h : Slot s) (phase : RecvPhase) (hwaiter : s.state.recvWaiter = none)
    (hempty : phase = .receiving ∨ phase = .registering → s.streamWait = none) :
    Slot { s with recvPhase := phase } where
  waiter := by simp [hwaiter]
  firing := h.firing
  result := h.result
  empty := hempty

end Slot

/-! ## Steps -/

structure Waiting (capacity : Option Nat) (s : System α) : Prop where
  sound : s.state.Sound capacity
  slot : Slot s
  senders : s.state.senderCount = s.senders
  panicked : s.panicked = false
  closed : s.receiverDropped = true → s.state.receiverClosed = true

namespace Waiting

theorem congr (h : Waiting capacity s) (hstate : s'.state = s.state)
    (hcells : s'.recvCells = s.recvCells) (hnext : s'.nextRecvCell = s.nextRecvCell)
    (hwait : s'.streamWait = s.streamWait) (hphase : s'.recvPhase = s.recvPhase)
    (hfiring : ∀ c ∈ s'.firing, c ∈ s.firing) (hsenders : s'.senders = s.senders)
    (hpanicked : s'.panicked = s.panicked) (hdropped : s'.receiverDropped = s.receiverDropped) :
    Waiting capacity s' where
  sound := by
    rw [hstate]
    exact h.sound
  slot := h.slot.congr (by rw [hstate]) hcells hnext hwait hphase hfiring
  senders := by
    rw [hstate, hsenders]
    exact h.senders
  panicked := hpanicked.trans h.panicked
  closed := by
    rw [hstate, hdropped]
    exact h.closed

theorem leave (h : Waiting capacity s) {state : State α}
    {completions : List (PendingCompletion α)} (hsound : state.Sound capacity)
    (hwakes : Wakes s.state state completions)
    (hcount : state.senderCount = s.state.senderCount)
    (hclosed : s.state.receiverClosed = true → state.receiverClosed = true) :
    Waiting capacity (s.leave state completions) where
  sound := hsound
  slot := h.slot.leave hwakes
  senders := hcount.trans h.senders
  panicked := h.panicked
  closed := hclosed ∘ h.closed

theorem sendNow (h : Waiting capacity s) {value : α} (hroom : s.state.hasCapacity = true) :
    Waiting capacity (s.sendNow value) := by
  have hleave : Waiting capacity
      (s.leave (s.state.push value).takeRecvWaiter s.state.recvCompletion) :=
    h.leave (h.sound.push hroom) (Or.inr ⟨rfl, fun _ hmem => mem_recvCompletion hmem⟩) rfl id
  exact hleave.congr rfl rfl rfl rfl rfl (fun _ hmem => hmem) rfl rfl rfl

theorem publish (h : Waiting capacity s) {value : α} {index : Nat}
    (hopen : s.state.receiverClosed = false) (hfull : s.state.hasCapacity = false) :
    Waiting capacity (s.publish value index) := by
  have hleave : Waiting capacity (s.leave (s.state.publishSendWaiter value index) []) :=
    h.leave (h.sound.publish hopen hfull index) (.of_eq rfl) rfl id
  exact hleave.congr rfl rfl rfl rfl rfl (fun _ hmem => hmem) rfl rfl rfl

theorem setSend (h : Waiting capacity s) (index : Nat) (send : SendFuture α) :
    Waiting capacity (s.setSend index send) :=
  h.congr rfl rfl rfl rfl rfl (fun _ hmem => hmem) rfl rfl rfl

theorem giveBack (h : Waiting capacity s) (value : α) : Waiting capacity (s.giveBack value) :=
  h.congr rfl rfl rfl rfl rfl (fun _ hmem => hmem) rfl rfl rfl

theorem pollCompletion (h : Waiting capacity s) (index : Nat) (send : SendFuture α) :
    Waiting capacity (s.pollCompletion index send) := by
  unfold System.pollCompletion
  split
  · exact h
  · exact h.congr rfl rfl rfl rfl rfl (fun _ hmem => hmem) rfl rfl rfl
  · exact h.congr rfl rfl rfl rfl rfl (fun _ hmem => hmem) rfl rfl rfl

theorem cancelSend (h : Waiting capacity s) (index : Nat) (send : SendFuture α)
    (waiterId : Nat) : Waiting capacity (s.cancelSend index send waiterId) where
  sound := h.sound.remove waiterId
  slot := h.slot.congr rfl rfl rfl rfl rfl fun _ hmem => hmem
  senders := h.senders
  panicked := h.panicked
  closed := h.closed

/-- A fired completion finishes its cell, which nobody waits for any more. -/
theorem fireRecvReady (h : Waiting capacity s) {handle : Nat}
    (hne : s.state.recvWaiter ≠ some handle) :
    Waiting capacity (s.fireOne (.recvReady handle)) where
  sound := h.sound
  slot := by
    refine ⟨?_, h.slot.firing, ?_, h.slot.empty⟩
    · intro other hwaiter
      have hother : other ≠ handle := by
        rintro rfl
        exact hne hwaiter
      simpa [fireOne, hother] using h.slot.waiter other hwaiter
    · intro other hresult
      by_cases hother : other = handle
      · subst hother
        simp only [fireOne, Function.update_self, Cell.complete] at hresult ⊢
        split <;> simp_all
        split <;> rfl
      · simp only [fireOne, ne_eq, hother, not_false_eq_true, Function.update_of_ne] at hresult ⊢
        exact h.slot.result other hresult
  senders := h.senders
  panicked := h.panicked
  closed := h.closed

theorem fire (h : Waiting capacity s) {index : Nat} {completion : PendingCompletion α}
    (hget : s.firing[index]? = some completion) : Waiting capacity
      (({ s with firing := s.firing.eraseIdx index } : System α).fireOne completion) := by
  have hmem : completion ∈ s.firing := List.mem_of_getElem? hget
  have herase : Waiting capacity { s with firing := s.firing.eraseIdx index } :=
    h.congr rfl rfl rfl rfl rfl (fun _ hmem => List.mem_of_mem_eraseIdx hmem) rfl rfl rfl
  cases completion with
  | recvReady handle =>
      exact herase.fireRecvReady (h.slot.firing handle hmem).1
  | sendOk handle =>
      unfold fireOne
      dsimp only
      split
      · exact herase
      · exact herase.congr rfl rfl rfl rfl rfl (fun _ hmem => hmem) rfl rfl rfl
  | sendErr handle value =>
      unfold fireOne
      dsimp only
      split
      · exact herase
      · exact herase.congr rfl rfl rfl rfl rfl (fun _ hmem => hmem) rfl rfl rfl

theorem move (h : Waiting capacity s) (phase : RecvPhase) (hwaiter : s.state.recvWaiter = none)
    (hempty : phase = .receiving ∨ phase = .registering → s.streamWait = none) :
    Waiting capacity { s with recvPhase := phase } where
  sound := h.sound
  slot := h.slot.move phase hwaiter hempty
  senders := h.senders
  panicked := h.panicked
  closed := h.closed

/-- The future in `stream_wait` is given up; its cell keeps `finished`. -/
theorem abandon (h : Waiting capacity s) {handle : Nat} (phase : RecvPhase)
    (hwait : s.streamWait = some handle)
    (hidle : s.recvPhase = .idle ∨ s.recvPhase = .releasing)
    (hphase : (s.recvCells handle).finished = true ∨ phase = .cancelling handle) :
    Waiting capacity { s.setRecvCell handle (s.recvCells handle).abandon with
      streamWait := none, recvPhase := phase } where
  sound := h.sound
  slot := by
    have hcells : ∀ other, (Function.update s.recvCells handle
        (s.recvCells handle).abandon other).finished = (s.recvCells other).finished := by
      intro other
      by_cases hother : other = handle
      · subst hother
        simp [Cell.abandon]
      · simp [hother]
    refine ⟨?_, h.slot.firing, ?_, fun _ => rfl⟩
    · intro other hwaiter
      obtain ⟨hunfinished, hlt, hslot⟩ := h.slot.waiter other hwaiter
      obtain rfl : other = handle := by
        rcases hslot with ⟨hsome, -⟩ | hcancelling
        · simpa [hwait] using hsome.symm
        · rcases hidle with hidle | hidle <;> simp [hcancelling] at hidle
      refine ⟨(hcells other).trans hunfinished, hlt, Or.inr ?_⟩
      rcases hphase with hfinished | hphase
      · simp [hunfinished] at hfinished
      · exact hphase
    · intro other hresult
      simp only [setRecvCell_recvCells, hcells] at hresult ⊢
      by_cases hother : other = handle
      · subst hother
        simp [Cell.abandon] at hresult
      · exact h.slot.result other (by simpa [hother] using hresult)
  senders := h.senders
  panicked := h.panicked
  closed := h.closed

theorem pollRecv (h : Waiting capacity s) (hphase : s.recvPhase = .idle) :
    Waiting capacity s.pollRecv := by
  unfold System.pollRecv
  split
  next hwait =>
    exact h.move _ (h.slot.recvWaiter_eq_none hwait (by simp [hphase])) fun _ => hwait
  next handle hwait =>
    split
    next => exact h
    next hresult =>
      have hfinished := h.slot.result handle (by simp [hresult])
      exact h.abandon _ hwait (Or.inl hphase) (Or.inl hfinished)

theorem recvSection (h : Waiting capacity s) : Waiting capacity
    (s.leave s.state.recvSection.1 s.state.recvSection.2.1) :=
  h.leave h.sound.recvSection (wakes_recvSection h.sound)
    (frame_recvSection h.sound).1 (frame_recvSection h.sound).2.trans

theorem Wakes.eq_none {state state' : State α} {completions : List (PendingCompletion α)}
    (h : Wakes state state' completions) (hnone : state.recvWaiter = none) :
    state'.recvWaiter = none := by
  rcases h with ⟨heq, -⟩ | ⟨hnone', -⟩
  · exact heq.trans hnone
  · exact hnone'

theorem receive (h : Waiting capacity s) (hphase : s.recvPhase = .receiving) :
    Waiting capacity s.receive := by
  have hsection := h.recvSection
  have hwait : s.streamWait = none := h.slot.empty (Or.inl hphase)
  have hnone := Wakes.eq_none (wakes_recvSection h.sound)
    (h.slot.recvWaiter_eq_none hwait (by simp [hphase]))
  unfold System.receive
  generalize s.state.recvSection = received at hsection hnone
  obtain ⟨state, completions, result⟩ := received
  rcases result with error | value
  · cases error with
    | empty => exact hsection.move _ hnone fun _ => hwait
    | disconnected => exact hsection.move _ hnone fun _ => hwait
  · exact (hsection.move .idle hnone fun _ => hwait).congr rfl rfl rfl rfl rfl
      (fun _ hmem => hmem) rfl rfl rfl

theorem releasing (h : Waiting capacity s) (hphase : s.recvPhase = .idle) :
    Waiting capacity { s with recvPhase := .releasing } where
  sound := h.sound
  slot := by
    refine ⟨?_, h.slot.firing, h.slot.result, by simp⟩
    intro handle hwaiter
    obtain ⟨hunfinished, hlt, ⟨hwait, -⟩ | hcancelling⟩ := h.slot.waiter handle hwaiter
    · exact ⟨hunfinished, hlt, Or.inl ⟨hwait, Or.inr rfl⟩⟩
    · simp [hphase] at hcancelling
  senders := h.senders
  panicked := h.panicked
  closed := h.closed

theorem tryRecv (h : Waiting capacity s) (hphase : s.recvPhase = .idle) :
    Waiting capacity s.tryRecv := by
  have hsection := h.recvSection
  unfold System.tryRecv
  generalize s.state.recvSection = received at hsection
  obtain ⟨state, completions, result⟩ := received
  rcases result with error | value
  · cases error with
    | empty => exact hsection
    | disconnected => exact hsection.releasing hphase
  · exact (hsection.releasing hphase).congr rfl rfl rfl rfl rfl (fun _ hmem => hmem) rfl rfl rfl

theorem release (h : Waiting capacity s) (hphase : s.recvPhase = .releasing) :
    Waiting capacity s.release := by
  unfold System.release
  split
  next hwait =>
    exact h.move _ (h.slot.recvWaiter_eq_none hwait (by simp [hphase])) fun _ => hwait
  next handle hwait =>
    refine h.abandon _ hwait (Or.inr hphase) ?_
    cases hfinished : (s.recvCells handle).finished <;> simp

/-- The assertion of `poll_recv` holds: nobody waits when it is reached. -/
theorem register (h : Waiting capacity s) (hphase : s.recvPhase = .registering) :
    Waiting capacity s.register := by
  have hwait : s.streamWait = none := h.slot.empty (Or.inr hphase)
  have hnone := h.slot.recvWaiter_eq_none hwait (by simp [hphase])
  have hfiring : ∀ handle, .recvReady handle ∈ s.firing → handle < s.nextRecvCell :=
    fun handle hmem => (h.slot.firing handle hmem).2
  unfold System.register
  dsimp only
  split
  next =>
    refine ⟨h.sound, ⟨by simp [hnone], ?_, ?_, by simp⟩, h.senders, h.panicked, h.closed⟩
    · intro handle hmem
      refine ⟨by simp [hnone], ?_⟩
      exact Nat.lt_succ_of_lt (hfiring handle hmem)
    · intro handle hresult
      by_cases hhandle : handle = s.nextRecvCell
      · simp [hhandle, Cell.complete]
      · simpa [hhandle] using h.slot.result handle (by simpa [hhandle] using hresult)
  next hwaits =>
    obtain ⟨hqueue, hopen, hsenders⟩ :
        s.state.queue = [] ∧ s.state.receiverClosed = false ∧ s.state.senderCount ≠ 0 := by
      simpa using hwaits
    simp only [hnone, Option.isSome_none, Bool.false_eq_true, if_false]
    refine ⟨h.sound.register _ hqueue hopen hsenders, ⟨?_, ?_, ?_, by simp⟩, h.senders,
      h.panicked, h.closed⟩
    · rintro handle ⟨⟩
      exact ⟨by simp, by simp, by simp⟩
    · intro handle hmem
      have hlt := hfiring handle hmem
      refine ⟨?_, Nat.lt_succ_of_lt hlt⟩
      simp
      omega
    · intro handle hresult
      by_cases hhandle : handle = s.nextRecvCell
      · simp [hhandle] at hresult
      · simpa [hhandle] using h.slot.result handle (by simpa [hhandle] using hresult)

theorem cancelRecv (h : Waiting capacity s) (handle : Nat) :
    Waiting capacity (s.cancelRecv handle) where
  sound := h.sound.takeRecvWaiter
  slot := by
    refine ⟨by simp [System.cancelRecv], ?_, ?_, by simp [System.cancelRecv]⟩
    · intro other hmem
      exact ⟨by simp [System.cancelRecv], (h.slot.firing other hmem).2⟩
    · intro other hresult
      by_cases hother : other = handle
      · subst hother
        have hold := h.slot.result other
        simp only [System.cancelRecv, setRecvCell_recvCells, Function.update_self,
          Cell.cancel] at hresult ⊢
        split <;> simp_all
      · simp only [System.cancelRecv, setRecvCell_recvCells, ne_eq, hother, not_false_eq_true,
          Function.update_of_ne] at hresult ⊢
        exact h.slot.result other hresult
  senders := h.senders
  panicked := h.panicked
  closed := h.closed

theorem close (h : Waiting capacity s) : Waiting capacity s.close :=
  h.leave h.sound.closeReceiver (wakes_closeReceiver s.state) rfl fun _ => rfl

theorem dropReceiver (h : Waiting capacity s) (hphase : s.recvPhase = .idle) :
    Waiting capacity s.dropReceiver := by
  have hclose := h.close.releasing hphase
  exact ⟨hclose.sound, hclose.slot.congr rfl rfl rfl rfl rfl fun _ hmem => hmem,
    hclose.senders, hclose.panicked, fun _ => rfl⟩

theorem dropSender (h : Waiting capacity s) :
    Waiting capacity { s.leave s.state.dropSender.1 s.state.dropSender.2 with
      senders := s.senders - 1 } where
  sound := h.sound.dropSender
  slot := (h.slot.leave (wakes_dropSender s.state)).congr rfl rfl rfl rfl rfl
    fun _ hmem => hmem
  senders := by
    have hcount : s.state.dropSender.1.senderCount = s.state.senderCount - 1 := by
      unfold State.dropSender
      dsimp only
      split <;> rfl
    simp [hcount, h.senders]
  panicked := h.panicked
  closed := by
    intro hdropped
    have hclosed : s.state.dropSender.1.receiverClosed = s.state.receiverClosed := by
      unfold State.dropSender
      dsimp only
      split <;> rfl
    exact hclosed.trans (h.closed hdropped)

theorem cloneSender (h : Waiting capacity s) : Waiting capacity { s with
    state := { s.state with senderCount := s.state.senderCount + 1 }
    senders := s.senders + 1 } where
  sound := by
    refine ⟨h.sound.capacity_eq, h.sound.bound, h.sound.sending, fun hwaiter => ?_⟩
    obtain ⟨hqueue, hopen, -⟩ := h.sound.receiving hwaiter
    exact ⟨hqueue, hopen, Nat.succ_pos _⟩
  slot := h.slot.congr rfl rfl rfl rfl rfl fun _ hmem => hmem
  senders := by simp [h.senders]
  panicked := h.panicked
  closed := h.closed

/-- The messages of a channel whose receiver is gone are freed. -/
theorem free (h : Waiting capacity s) (hclosed : s.state.receiverClosed = true) :
    Waiting capacity { s with
      state := { s.state with queue := [] }, freed := s.freed ++ s.state.queue } where
  sound := by
    refine ⟨h.sound.capacity_eq, by simp, fun hwaiters => ?_, fun hwaiter => ?_⟩
    · simp [(h.sound.sending hwaiters).2] at hclosed
    · simp [(h.sound.receiving hwaiter).2.1] at hclosed
  slot := h.slot.congr rfl rfl rfl rfl rfl fun _ hmem => hmem
  senders := h.senders
  panicked := h.panicked
  closed := h.closed

theorem init (capacity : Option Nat) : Waiting capacity (System.new capacity : System α) where
  sound := .init capacity
  slot := by constructor <;> simp [System.new]
  senders := rfl
  panicked := rfl
  closed := by simp [System.new]

theorem stepped (h : Waiting capacity s) {action : Action α} (hstep : Stepped s action s') :
    Waiting capacity s' := by
  cases hstep with
  | trySend hroom => exact h.sendNow hroom
  | trySendRefused => exact h.giveBack _
  | newSend => exact h.congr rfl rfl rfl rfl rfl (fun _ hmem => hmem) rfl rfl rfl
  | beginSend _ _ hroom => exact (h.sendNow hroom).setSend _ _
  | beginSendClosed => exact (h.giveBack _).setSend _ _
  | beginSendFull => exact h.setSend _ _
  | pollCompletion => exact h.pollCompletion _ _
  | retrySend _ _ hroom => exact (h.sendNow hroom).setSend _ _
  | retrySendClosed => exact h.congr rfl rfl rfl rfl rfl (fun _ hmem => hmem) rfl rfl rfl
  | retrySendFull _ _ hopen hfull => exact (h.publish hopen hfull).setSend _ _
  | dropUnpolled => exact h.setSend _ _
  | dropWaiting => exact h.congr rfl rfl rfl rfl rfl (fun _ hmem => hmem) rfl rfl rfl
  | cancelSend => exact h.cancelSend _ _ _
  | cloneSender => exact h.cloneSender
  | underflow hsenders hcount =>
      rw [h.senders] at hcount
      omega
  | dropSender => exact h.dropSender
  | fire hget => exact h.fire hget
  | pollRecv hphase => exact h.pollRecv hphase
  | receive hphase => exact h.receive hphase
  | register hphase => exact h.register hphase
  | tryRecv hphase => exact h.tryRecv hphase
  | release hphase => exact h.release hphase
  | cancelRecv => exact h.cancelRecv _
  | close => exact h.close
  | dropReceiver hphase => exact h.dropReceiver hphase
  | free hdropped => exact h.free (h.closed hdropped)

end Waiting

theorem waiting_of_reachable (h : Reachable capacity s) : Waiting capacity s :=
  Transition.Reachable.invariant (Waiting capacity) (.init capacity)
    (fun _ _ _ hwaiting _ hstep => hwaiting.stepped (stepped_of_step hstep)) h

end System

end Runite.Channel.Mpsc
