import Runite.Channel.Mpsc
import Runite.Lib.Transition

/-!
# A channel and everyone who uses it

The senders, their `send` futures, the receiver and the completions that were
collected under the mutex and not fired yet.  An `Action` is one critical
section, or one step that needs no lock: a completion is fired, the future of
a completion is polled or dropped.  Calls with several critical sections are
several actions, and anything may come between two of them.
-/

namespace Runite.Channel.Mpsc

variable {α : Type}

/-! ## Parties -/

/-- The completion that a future waits for: `op::completion::CompletionState`,
without wakers. -/
structure Cell (τ : Type) where
  interested : Bool := true
  finished : Bool := false
  result : Option τ := none
  deriving DecidableEq, Repr

/-- `CompletionHandle::finish(Some(value))`. -/
def Cell.complete {τ : Type} (c : Cell τ) (value : τ) : Cell τ :=
  if c.finished then c
  else if c.interested then { c with finished := true, result := some value }
  else { c with finished := true }

theorem Cell.result_complete {τ : Type} {c : Cell τ} {result value : τ}
    (h : (c.complete result).result = some value) : c.result = some value ∨ result = value := by
  unfold Cell.complete at h
  split at h
  · exact .inl h
  · split at h
    · exact .inr (Option.some.inj h)
    · exact .inl h

/-- A completion that somebody waits for keeps what it is finished with. -/
structure Cell.Awaited {τ : Type} (c : Cell τ) : Prop where
  interested : c.interested = true
  result : c.finished = true → c.result ≠ none

namespace Cell.Awaited

variable {τ : Type} {c : Cell τ}

theorem new : Awaited ({} : Cell τ) := ⟨rfl, by simp⟩

theorem complete (h : Awaited c) (value : τ) : Awaited (c.complete value) := by
  unfold Cell.complete
  split
  next => exact h
  next => exact ⟨by simp [h.interested], by simp [h.interested]⟩

theorem result_complete_ne_none (h : Awaited c) (value : τ) :
    (c.complete value).result ≠ none := by
  unfold Cell.complete
  split
  next hfinished => exact h.result hfinished
  next => simp [h.interested]

end Cell.Awaited

/-- `CompletionHandle::finish(None)`. -/
def Cell.cancel {τ : Type} (c : Cell τ) : Cell τ :=
  if c.finished then c else { c with finished := true }

/-- The start of the drop of a `CompletionFuture`. -/
def Cell.abandon {τ : Type} (c : Cell τ) : Cell τ := { c with interested := false, result := none }

/-- Where a `send` future stands. -/
inductive SendPhase
  /-- not polled yet: the value is in the future -/
  | unpolled
  /-- between the two critical sections of its first poll: the value is in the call -/
  | retrying
  /-- it waits for its completion; the callback that `set_cancel` stored knows the waiter -/
  | waiting (waiterId : Option Nat)
  /-- dropped while it waited, before the cancel callback takes the lock -/
  | cancelling (waiterId : Nat)
  /-- it returned -/
  | done
  /-- it was dropped -/
  | dropped
  deriving DecidableEq, Repr

/-- A future of `Sender::send`.  `value` is the value it was called with. -/
structure SendFuture (α : Type) where
  value : α
  phase : SendPhase := .unpolled
  cell : Cell (Except α Unit) := {}
  deriving DecidableEq

inductive RecvPhase
  | idle
  /-- in `poll_recv`, before its first critical section -/
  | receiving
  /-- in `poll_recv`, between its critical sections -/
  | registering
  /-- about to drop the future in `stream_wait` -/
  | releasing
  /-- dropping it, before the cancel callback takes the lock -/
  | cancelling (handle : Nat)
  deriving DecidableEq, Repr

/-- A channel with its users.  `senders` is the number of `Sender`s alive;
`recvCells` are the completions of the receiver, of which `nextRecvCell` were
created; `firing` holds what was collected and not fired; `panicked` is set
when an assertion fails.  The rest is history: the values handed in, in the
order of the critical sections that took them; the values accepted, that is
pushed or enqueued with a waiter, in that order; the values the receiver got;
the values in errors that calls and futures returned; the values that a
dropped future lost, with the future; the values freed with the channel. -/
structure System (α : Type) where
  state : State α
  senders : Nat := 1
  sends : List (SendFuture α) := []
  receiverDropped : Bool := false
  recvPhase : RecvPhase := .idle
  streamWait : Option Nat := none
  recvCells : Nat → Cell Unit := fun _ => {}
  nextRecvCell : Nat := 0
  firing : List (PendingCompletion α) := []
  panicked : Bool := false
  handedIn : List α := []
  accepted : List α := []
  delivered : List α := []
  returned : List α := []
  cancelled : List (Nat × α) := []
  freed : List α := []

/-- `channel` and `unbounded_channel`. -/
def System.new (capacity : Option Nat) : System α := { state := { capacity } }

/-- One critical section, or one step outside of the lock. -/
inductive Action (α : Type)
  /-- `Sender::try_send`, or `UnboundedSender::send` -/
  | trySend (value : α)
  /-- `Sender::send`: the future is created -/
  | newSend (value : α)
  /-- a poll of a `send` future: the first critical section, or a poll of its completion -/
  | pollSend (index : Nat)
  /-- the second critical section of the first poll -/
  | retrySend (index : Nat)
  | dropSend (index : Nat)
  /-- the cancel callback of a dropped `send` future -/
  | cancelSend (index : Nat)
  | cloneSender
  | dropSender
  /-- one of the collected completions is fired -/
  | fire (index : Nat)
  /-- `recv` or `poll_next` polls the completion in `stream_wait` -/
  | pollRecv
  /-- the first critical section of `poll_recv` -/
  | receive
  /-- the second critical section of `poll_recv` -/
  | register
  | tryRecv
  /-- `stream_wait` is dropped -/
  | release
  /-- the cancel callback of a dropped `stream_wait` -/
  | cancelRecv
  | close
  | dropReceiver
  /-- the last owner of the shared state is gone -/
  | free
  deriving DecidableEq, Repr

namespace System

variable (s : System α)

/-! ## Senders -/

/-- Replace a `send` future. -/
@[simps]
def setSend (index : Nat) (send : SendFuture α) : System α :=
  { s with sends := s.sends.set index send }

@[simps]
def leave (state : State α) (completions : List (PendingCompletion α)) : System α :=
  { s with state, firing := s.firing ++ completions }

@[simps]
def accept (value : α) : System α :=
  { s with handedIn := s.handedIn ++ [value], accepted := s.accepted ++ [value] }

/-- A value is handed in and returned at once. -/
@[simps]
def giveBack (value : α) : System α :=
  { s with handedIn := s.handedIn ++ [value], returned := s.returned ++ [value] }

/-- `Sender::try_send`, `UnboundedSender::send`. -/
def trySend (value : α) : System α :=
  match s.state.trySendNow value with
  | (state, completions, .ok ()) => (s.leave state completions).accept value
  | (state, completions, .error _) => (s.leave state completions).giveBack value

/-- The first critical section of the first poll of a `send` future. -/
def beginSend (index : Nat) (send : SendFuture α) : System α :=
  match s.state.trySendNow send.value with
  | (state, completions, .ok ()) =>
      ((s.leave state completions).accept send.value).setSend index { send with phase := .done }
  | (state, completions, .error (.closed value)) =>
      ((s.leave state completions).giveBack value).setSend index { send with phase := .done }
  | (state, completions, .error (.full _)) =>
      (s.leave state completions).setSend index { send with phase := .retrying }

/-- The second critical section.  A completion that was not published is
completed right away. -/
def retrySend (index : Nat) (send : SendFuture α) : System α :=
  match s.state.trySendNow send.value with
  | (state, completions, .ok ()) =>
      ((s.leave state completions).accept send.value).setSend index
        { send with phase := .waiting none, cell := send.cell.complete (.ok ()) }
  | (state, completions, .error (.closed value)) =>
      { (s.leave state completions).setSend index
          { send with phase := .waiting none, cell := send.cell.complete (.error value) } with
        handedIn := s.handedIn ++ [value] }
  | (state, completions, .error (.full value)) =>
      ((s.leave (state.publishSendWaiter value index) completions).accept value).setSend index
        { send with phase := .waiting (some state.nextWaiterId) }

/-- A `send` future polls its completion. -/
def pollCompletion (index : Nat) (send : SendFuture α) : System α :=
  match send.cell.result with
  | none => s
  | some (.ok ()) => s.setSend index { send with phase := .done, cell := send.cell.abandon }
  | some (.error value) =>
      { s.setSend index { send with phase := .done, cell := send.cell.abandon } with
        returned := s.returned ++ [value] }

/-- The values that a dropped completion loses. -/
def lostResult (index : Nat) (send : SendFuture α) : List (Nat × α) :=
  match send.cell.result with
  | some (.error value) => [(index, value)]
  | _ => []

/-- The drop of the completion of a waiting future, up to its cancel callback:
there is one to run when the waiter was published and is not finished. -/
def abandonWait (send : SendFuture α) : Option Nat → SendFuture α
  | none => { send with phase := .dropped, cell := send.cell.abandon.cancel }
  | some waiterId =>
      if send.cell.finished then { send with phase := .dropped, cell := send.cell.abandon }
      else { send with phase := .cancelling waiterId, cell := send.cell.abandon }

/-- A waiting `send` future is dropped. -/
def dropWaiting (index : Nat) (send : SendFuture α) (waiterId : Option Nat) : System α :=
  { s.setSend index (abandonWait send waiterId) with
    cancelled := s.cancelled ++ lostResult index send }

/-- The cancel callback of a `send` future. -/
def cancelSend (index : Nat) (send : SendFuture α) (waiterId : Nat) : System α :=
  let (state, waiter) := s.state.removeSendWaiter waiterId
  { s.setSend index { send with phase := .dropped, cell := send.cell.cancel } with
    state
    cancelled := s.cancelled ++ waiter.toList.map fun waiter => (index, waiter.value) }

/-! ## Completions -/

/-- `fire_completions`, for one completion. -/
def fireOne : PendingCompletion α → System α
  | .recvReady handle =>
      { s with recvCells :=
          Function.update s.recvCells handle ((s.recvCells handle).complete ()) }
  | .sendOk handle =>
      match s.sends[handle]? with
      | none => s
      | some send => s.setSend handle { send with cell := send.cell.complete (.ok ()) }
  | .sendErr handle value =>
      match s.sends[handle]? with
      | none => s
      | some send =>
          { s.setSend handle { send with cell := send.cell.complete (.error value) } with
            cancelled := s.cancelled ++
              if send.cell.finished || !send.cell.interested then [(handle, value)] else [] }

/-- Take a completion out of the bag and fire it. -/
def fire (index : Nat) : Option (System α) :=
  s.firing[index]?.map ({ s with firing := s.firing.eraseIdx index } : System α).fireOne

/-! ## The receiver -/

/-- Replace a completion of the receiver. -/
@[simps]
def setRecvCell (handle : Nat) (cell : Cell Unit) : System α :=
  { s with recvCells := Function.update s.recvCells handle cell }

/-- `recv` and `poll_next` at the head of their loop. -/
def pollRecv : System α :=
  match s.streamWait with
  | none => { s with recvPhase := .receiving }
  | some handle =>
      match (s.recvCells handle).result with
      | none => s
      | some () =>
          { s.setRecvCell handle (s.recvCells handle).abandon with
            streamWait := none, recvPhase := .receiving }

/-- The first critical section of `poll_recv`. -/
def receive : System α :=
  match s.state.recvSection with
  | (state, completions, .ok value) =>
      { s.leave state completions with
        recvPhase := .idle, delivered := s.delivered ++ [value] }
  | (state, completions, .error .disconnected) =>
      { s.leave state completions with recvPhase := .idle }
  | (state, completions, .error .empty) =>
      { s.leave state completions with recvPhase := .registering }

/-- The second critical section of `poll_recv`, with its assertion: "only one
mpsc receive operation may wait at a time". -/
def register : System α :=
  let s := { s with nextRecvCell := s.nextRecvCell + 1, recvPhase := .idle }
  let handle := s.nextRecvCell - 1
  if s.state.queue ≠ [] ∨ s.state.receiverClosed ∨ s.state.senderCount = 0 then
    { s.setRecvCell handle (({} : Cell Unit).complete ()) with streamWait := some handle }
  else if s.state.recvWaiter.isSome then { s with panicked := true }
  else
    { s.setRecvCell handle {} with
      state := { s.state with recvWaiter := some handle }, streamWait := some handle }

/-- The critical section of `try_recv`. -/
def tryRecv : System α :=
  match s.state.recvSection with
  | (state, completions, .ok value) =>
      { s.leave state completions with
        recvPhase := .releasing, delivered := s.delivered ++ [value] }
  | (state, completions, .error .disconnected) =>
      { s.leave state completions with recvPhase := .releasing }
  | (state, completions, .error .empty) => s.leave state completions

/-- `stream_wait.take()`, with the start of the drop of its future. -/
def release : System α :=
  match s.streamWait with
  | none => { s with recvPhase := .idle }
  | some handle =>
      { s.setRecvCell handle (s.recvCells handle).abandon with
        streamWait := none
        recvPhase := if (s.recvCells handle).finished then .idle else .cancelling handle }

/-- The cancel callback of `poll_recv`. -/
def cancelRecv (handle : Nat) : System α :=
  { s.setRecvCell handle (s.recvCells handle).cancel with
    state := s.state.takeRecvWaiter, recvPhase := .idle }

def close : System α := s.leave s.state.closeReceiver.1 s.state.closeReceiver.2

/-- The critical section of the drop of the receiver. -/
def dropReceiver : System α := { s.close with receiverDropped := true, recvPhase := .releasing }

/-! ## Steps -/

/-- One action; `none` when it is not possible. -/
def step : Action α → Option (System α)
  | .trySend value => if 0 < s.senders then some (s.trySend value) else none
  | .newSend value =>
      if 0 < s.senders then some { s with sends := s.sends ++ [{ value }] } else none
  | .pollSend index =>
      match s.sends[index]? with
      | none => none
      | some send =>
          match send.phase with
          | .unpolled => some (s.beginSend index send)
          | .waiting _ => some (s.pollCompletion index send)
          | _ => none
  | .retrySend index =>
      match s.sends[index]? with
      | none => none
      | some send => if send.phase = .retrying then some (s.retrySend index send) else none
  | .dropSend index =>
      match s.sends[index]? with
      | none => none
      | some send =>
          match send.phase with
          | .unpolled => some (s.setSend index { send with phase := .dropped })
          | .waiting waiterId => some (s.dropWaiting index send waiterId)
          | _ => none
  | .cancelSend index =>
      match s.sends[index]? with
      | none => none
      | some send =>
          match send.phase with
          | .cancelling waiterId => some (s.cancelSend index send waiterId)
          | _ => none
  | .cloneSender =>
      if 0 < s.senders then
        some { s with
          state := { s.state with senderCount := s.state.senderCount + 1 }
          senders := s.senders + 1 }
      else none
  | .dropSender =>
      if 0 < s.senders then
        -- `checked_sub(1).expect("sender count underflow: ...")`
        if s.state.senderCount = 0 then some { s with panicked := true }
        else
          some { s.leave s.state.dropSender.1 s.state.dropSender.2 with
            senders := s.senders - 1 }
      else none
  | .fire index => s.fire index
  | .pollRecv =>
      if s.recvPhase = .idle ∧ s.receiverDropped = false then some s.pollRecv else none
  | .receive => if s.recvPhase = .receiving then some s.receive else none
  | .register => if s.recvPhase = .registering then some s.register else none
  | .tryRecv =>
      if s.recvPhase = .idle ∧ s.receiverDropped = false then some s.tryRecv else none
  | .release => if s.recvPhase = .releasing then some s.release else none
  | .cancelRecv =>
      match s.recvPhase with
      | .cancelling handle => some (s.cancelRecv handle)
      | _ => none
  | .close => if s.recvPhase = .idle ∧ s.receiverDropped = false then some s.close else none
  | .dropReceiver =>
      if s.recvPhase = .idle ∧ s.receiverDropped = false then some s.dropReceiver else none
  | .free =>
      if s.receiverDropped ∧ s.senders = 0 then
        some { s with state := { s.state with queue := [] }, freed := s.freed ++ s.state.queue }
      else none

def Reachable (capacity : Option Nat) : System α → Prop :=
  Transition.Reachable step (fun _ _ => True) (System.new capacity)

/-! ## What a step can do -/

/-- `try_send_now` pushes a value. -/
@[simps!]
def sendNow (value : α) : System α :=
  (s.leave (s.state.push value).takeRecvWaiter s.state.recvCompletion).accept value

@[simps!]
def publish (value : α) (index : Nat) : System α :=
  (s.leave (s.state.publishSendWaiter value index) []).accept value

inductive Stepped (s : System α) : Action α → System α → Prop
  | trySend {value : α} : s.state.hasCapacity = true → Stepped s (.trySend value) (s.sendNow value)
  | trySendRefused {value : α} : Stepped s (.trySend value) (s.giveBack value)
  | newSend {value : α} : Stepped s (.newSend value) { s with sends := s.sends ++ [{ value }] }
  | beginSend {index : Nat} {send : SendFuture α} : s.sends[index]? = some send →
      send.phase = .unpolled → s.state.hasCapacity = true → Stepped s (.pollSend index)
        ((s.sendNow send.value).setSend index { send with phase := .done })
  | beginSendClosed {index : Nat} {send : SendFuture α} : s.sends[index]? = some send →
      send.phase = .unpolled → Stepped s (.pollSend index)
        ((s.giveBack send.value).setSend index { send with phase := .done })
  | beginSendFull {index : Nat} {send : SendFuture α} : s.sends[index]? = some send →
      send.phase = .unpolled →
      Stepped s (.pollSend index) (s.setSend index { send with phase := .retrying })
  | pollCompletion {index : Nat} {send : SendFuture α} {waiterId : Option Nat} :
      s.sends[index]? = some send → send.phase = .waiting waiterId →
      Stepped s (.pollSend index) (s.pollCompletion index send)
  | retrySend {index : Nat} {send : SendFuture α} : s.sends[index]? = some send →
      send.phase = .retrying → s.state.hasCapacity = true → Stepped s (.retrySend index)
        ((s.sendNow send.value).setSend index
          { send with phase := .waiting none, cell := send.cell.complete (.ok ()) })
  | retrySendClosed {index : Nat} {send : SendFuture α} : s.sends[index]? = some send →
      send.phase = .retrying → Stepped s (.retrySend index)
        { s.setSend index
          { send with phase := .waiting none, cell := send.cell.complete (.error send.value) } with
          handedIn := s.handedIn ++ [send.value] }
  | retrySendFull {index : Nat} {send : SendFuture α} : s.sends[index]? = some send →
      send.phase = .retrying → s.state.receiverClosed = false → s.state.hasCapacity = false →
      Stepped s (.retrySend index) ((s.publish send.value index).setSend index
        { send with phase := .waiting (some s.state.nextWaiterId) })
  | dropUnpolled {index : Nat} {send : SendFuture α} : s.sends[index]? = some send →
      send.phase = .unpolled →
      Stepped s (.dropSend index) (s.setSend index { send with phase := .dropped })
  | dropWaiting {index : Nat} {send : SendFuture α} {waiterId : Option Nat} :
      s.sends[index]? = some send → send.phase = .waiting waiterId →
      Stepped s (.dropSend index) (s.dropWaiting index send waiterId)
  | cancelSend {index : Nat} {send : SendFuture α} {waiterId : Nat} :
      s.sends[index]? = some send → send.phase = .cancelling waiterId →
      Stepped s (.cancelSend index) (s.cancelSend index send waiterId)
  | cloneSender : Stepped s .cloneSender { s with
      state := { s.state with senderCount := s.state.senderCount + 1 }
      senders := s.senders + 1 }
  | underflow : 0 < s.senders → s.state.senderCount = 0 →
      Stepped s .dropSender { s with panicked := true }
  | dropSender : 0 < s.senders → Stepped s .dropSender
      { s.leave s.state.dropSender.1 s.state.dropSender.2 with senders := s.senders - 1 }
  | fire {index : Nat} {completion : PendingCompletion α} :
      s.firing[index]? = some completion → Stepped s (.fire index)
        (({ s with firing := s.firing.eraseIdx index } : System α).fireOne completion)
  | pollRecv : s.recvPhase = .idle → Stepped s .pollRecv s.pollRecv
  | receive : s.recvPhase = .receiving → Stepped s .receive s.receive
  | register : s.recvPhase = .registering → Stepped s .register s.register
  | tryRecv : s.recvPhase = .idle → Stepped s .tryRecv s.tryRecv
  | release : s.recvPhase = .releasing → Stepped s .release s.release
  | cancelRecv {handle : Nat} : s.recvPhase = .cancelling handle →
      Stepped s .cancelRecv (s.cancelRecv handle)
  | close : Stepped s .close s.close
  | dropReceiver : s.recvPhase = .idle → Stepped s .dropReceiver s.dropReceiver
  | free : s.receiverDropped = true → Stepped s .free
      { s with state := { s.state with queue := [] }, freed := s.freed ++ s.state.queue }

variable {s}

@[simp]
theorem leave_self : s.leave s.state [] = s := by
  simp [leave]

theorem stepped_trySend (s : System α) (value : α) :
    Stepped s (.trySend value) (s.trySend value) := by
  have htried := s.state.triedSend value
  unfold trySend
  generalize s.state.trySendNow value = tried at htried
  obtain ⟨state, completions, result⟩ := tried
  cases htried with
  | closed => simpa using .trySendRefused
  | full => simpa using .trySendRefused
  | ok _ hroom => exact .trySend hroom

theorem stepped_beginSend {index : Nat} {send : SendFuture α}
    (hsend : s.sends[index]? = some send) (hphase : send.phase = .unpolled) :
    Stepped s (.pollSend index) (s.beginSend index send) := by
  have htried := s.state.triedSend send.value
  unfold beginSend
  generalize s.state.trySendNow send.value = tried at htried
  obtain ⟨state, completions, result⟩ := tried
  cases htried with
  | closed => simpa using .beginSendClosed hsend hphase
  | full => simpa using .beginSendFull hsend hphase
  | ok _ hroom => exact .beginSend hsend hphase hroom

theorem stepped_retrySend {index : Nat} {send : SendFuture α}
    (hsend : s.sends[index]? = some send) (hphase : send.phase = .retrying) :
    Stepped s (.retrySend index) (s.retrySend index send) := by
  have htried := s.state.triedSend send.value
  unfold retrySend
  generalize s.state.trySendNow send.value = tried at htried
  obtain ⟨state, completions, result⟩ := tried
  cases htried with
  | closed => simpa using .retrySendClosed hsend hphase
  | full hopen hfull => exact .retrySendFull hsend hphase hopen hfull
  | ok _ hroom => exact .retrySend hsend hphase hroom

theorem stepped_of_step {s' : System α} {action : Action α} (hstep : s.step action = some s') :
    Stepped s action s' := by
  cases action with
  | trySend value =>
      obtain ⟨-, heq⟩ := Option.ite_none_right_eq_some.mp hstep
      cases heq
      exact stepped_trySend s value
  | newSend value =>
      obtain ⟨-, heq⟩ := Option.ite_none_right_eq_some.mp hstep
      cases heq
      exact .newSend
  | pollSend index =>
      simp only [step] at hstep
      split at hstep
      next => cases hstep
      next send hsend =>
        split at hstep
        next hphase =>
          cases hstep
          exact stepped_beginSend hsend hphase
        next hphase =>
          cases hstep
          exact .pollCompletion hsend hphase
        next => cases hstep
  | retrySend index =>
      simp only [step] at hstep
      split at hstep
      next => cases hstep
      next send hsend =>
        obtain ⟨hphase, heq⟩ := Option.ite_none_right_eq_some.mp hstep
        cases heq
        exact stepped_retrySend hsend hphase
  | dropSend index =>
      simp only [step] at hstep
      split at hstep
      next => cases hstep
      next send hsend =>
        split at hstep
        next hphase =>
          cases hstep
          exact .dropUnpolled hsend hphase
        next hphase =>
          cases hstep
          exact .dropWaiting hsend hphase
        next => cases hstep
  | cancelSend index =>
      simp only [step] at hstep
      split at hstep
      next => cases hstep
      next send hsend =>
        split at hstep
        next hphase =>
          cases hstep
          exact .cancelSend hsend hphase
        next => cases hstep
  | cloneSender =>
      obtain ⟨-, heq⟩ := Option.ite_none_right_eq_some.mp hstep
      cases heq
      exact .cloneSender
  | dropSender =>
      obtain ⟨hsenders, heq⟩ := Option.ite_none_right_eq_some.mp hstep
      split at heq
      next hcount =>
        cases heq
        exact .underflow hsenders hcount
      next =>
        cases heq
        exact .dropSender hsenders
  | fire index =>
      obtain ⟨completion, hget, rfl⟩ := Option.map_eq_some_iff.mp hstep
      exact .fire hget
  | pollRecv =>
      obtain ⟨⟨hphase, -⟩, heq⟩ := Option.ite_none_right_eq_some.mp hstep
      cases heq
      exact .pollRecv hphase
  | receive =>
      obtain ⟨hphase, heq⟩ := Option.ite_none_right_eq_some.mp hstep
      cases heq
      exact .receive hphase
  | register =>
      obtain ⟨hphase, heq⟩ := Option.ite_none_right_eq_some.mp hstep
      cases heq
      exact .register hphase
  | tryRecv =>
      obtain ⟨⟨hphase, -⟩, heq⟩ := Option.ite_none_right_eq_some.mp hstep
      cases heq
      exact .tryRecv hphase
  | release =>
      obtain ⟨hphase, heq⟩ := Option.ite_none_right_eq_some.mp hstep
      cases heq
      exact .release hphase
  | cancelRecv =>
      simp only [step] at hstep
      split at hstep
      next hphase =>
        cases hstep
        exact .cancelRecv hphase
      next => cases hstep
  | close =>
      obtain ⟨-, heq⟩ := Option.ite_none_right_eq_some.mp hstep
      cases heq
      exact .close
  | dropReceiver =>
      obtain ⟨⟨hphase, -⟩, heq⟩ := Option.ite_none_right_eq_some.mp hstep
      cases heq
      exact .dropReceiver hphase
  | free =>
      obtain ⟨⟨hdropped, -⟩, heq⟩ := Option.ite_none_right_eq_some.mp hstep
      cases heq
      exact .free hdropped

end System

end Runite.Channel.Mpsc
