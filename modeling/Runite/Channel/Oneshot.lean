import Runite.Channel.MpscSystem

/-!
# Oneshot channels

`channel::oneshot`: a sender that sends or is dropped, and a receiver that is
polled, tried, closed and dropped, on any threads.  An action is one critical
section, or one step outside of the lock.

The completion that the receiver waits for is only a signal: the value stays in
the state until a receive takes it.
-/

namespace Runite.Channel.Oneshot

open Mpsc (Cell)

variable {α : Type}

/-! ## The channel -/

/-- `State`.  Completion handles are numbers. -/
structure State (α : Type) where
  value : Option α := none
  senderAlive : Bool := true
  receiverClosed : Bool := false
  waiter : Option Nat := none
  deriving DecidableEq, Repr

namespace State

variable (s : State α)

/-- The channel can never yield another value. -/
def closed : Bool := s.receiverClosed || !s.senderAlive

/-- `waiter.take()`. -/
@[simps]
def takeWaiter : State α := { s with waiter := none }

end State

inductive RecvPhase
  | idle
  /-- in `poll_recv`, before its first critical section -/
  | receiving
  /-- in `poll_recv`, between its critical sections -/
  | registering
  /-- about to drop the future in `wait` -/
  | releasing
  /-- dropping it, before the cancel callback takes the lock -/
  | cancelling (handle : Nat)
  deriving DecidableEq, Repr

/-- A channel with its two owners.  `firing` are the completions that were taken
under the lock and not completed yet; `panicked` is set when an assertion fails.
The rest is history: the value handed to `send`, the value it accepted, the value
that the receiver got, and the value in the error of `send`. -/
structure System (α : Type) where
  state : State α := {}
  senderGone : Bool := false
  receiverDropped : Bool := false
  recvPhase : RecvPhase := .idle
  consumed : Bool := false
  wait : Option Nat := none
  cells : Nat → Cell Unit := fun _ => {}
  nextCell : Nat := 0
  firing : List Nat := []
  panicked : Bool := false
  handedIn : List α := []
  accepted : List α := []
  delivered : List α := []
  returned : List α := []

/-- One critical section, or one step outside of the lock. -/
inductive Action (α : Type)
  | send (value : α)
  | dropSender
  /-- a completion that was taken is completed -/
  | fire (index : Nat)
  /-- a poll of `recv`: the poll of the completion in `wait` -/
  | pollRecv
  /-- the first critical section of `poll_recv` -/
  | receive
  /-- the second critical section of `poll_recv` -/
  | register
  | tryRecv
  /-- `wait` is dropped -/
  | release
  /-- the cancel callback of a dropped `wait` -/
  | cancelRecv
  | close
  | dropReceiver
  deriving DecidableEq, Repr

/-- `TryRecvError`; the only error of `recv` is `closed`. -/
inductive TryRecvError
  | empty
  | closed
  deriving DecidableEq, Repr

inductive Reply (α : Type)
  | none
  | sent (result : Except α Unit)
  | received (result : Except TryRecvError α)
  deriving DecidableEq, Repr

namespace System

variable (s : System α)

/-! ## Steps -/

/-- The critical section of `send`.  The waiter that it takes is completed before
`send` returns. -/
def send (value : α) : System α × Reply α :=
  if s.state.receiverClosed then
    ({ s with
        state := { s.state with senderAlive := false }
        senderGone := true
        handedIn := s.handedIn ++ [value]
        returned := s.returned ++ [value] }, .sent (.error value))
  else
    ({ s with
        state := { s.state.takeWaiter with value := some value, senderAlive := false }
        senderGone := true
        firing := s.firing ++ s.state.waiter.toList
        handedIn := s.handedIn ++ [value]
        accepted := s.accepted ++ [value] }, .sent (.ok ()))

/-- The critical section of the drop of a sender that has not sent. -/
def dropSender : System α :=
  if !s.state.senderAlive then { s with senderGone := true }
  else if s.state.value.isNone then
    { s with
      state := { s.state.takeWaiter with senderAlive := false }
      senderGone := true
      firing := s.firing ++ s.state.waiter.toList }
  else { s with state := { s.state with senderAlive := false }, senderGone := true }

/-- `waiter.complete(())`. -/
def fire (index : Nat) : Option (System α) :=
  s.firing[index]?.map fun handle =>
    { s with
      cells := Function.update s.cells handle ((s.cells handle).complete ())
      firing := s.firing.eraseIdx index }

/-- `poll_recv`, before its first critical section. -/
def pollRecv : System α × Reply α :=
  if s.consumed then (s, .received (.error .closed))
  else
    match s.wait with
    | none => ({ s with recvPhase := .receiving }, .none)
    | some handle =>
        match (s.cells handle).result with
        | none => (s, .none)
        | some () =>
            ({ s with
                cells := Function.update s.cells handle (s.cells handle).abandon
                wait := none
                recvPhase := .receiving }, .none)

/-- The first critical section of `poll_recv`. -/
def receive : System α × Reply α :=
  match s.state.value with
  | some value =>
      ({ s with
          state := { s.state with value := none }
          consumed := true
          recvPhase := .idle
          delivered := s.delivered ++ [value] }, .received (.ok value))
  | none =>
      if s.state.closed then
        ({ s with consumed := true, recvPhase := .idle }, .received (.error .closed))
      else ({ s with recvPhase := .registering }, .none)

/-- The second critical section of `poll_recv`, with its assertion: "only one
oneshot receive operation may wait at a time".  A completion that was not published
is completed right away. -/
def register : System α :=
  if s.state.value.isSome || s.state.closed then
    { s with
      cells := Function.update s.cells s.nextCell (({} : Cell Unit).complete ())
      nextCell := s.nextCell + 1
      wait := some s.nextCell
      recvPhase := .idle }
  else if s.state.waiter.isSome then { s with panicked := true, recvPhase := .idle }
  else
    { s with
      state := { s.state with waiter := some s.nextCell }
      cells := Function.update s.cells s.nextCell {}
      nextCell := s.nextCell + 1
      wait := some s.nextCell
      recvPhase := .idle }

/-- `try_recv`, up to the drop of `wait`. -/
def tryRecv : System α × Reply α :=
  if s.consumed then (s, .received (.error .closed))
  else
    match s.state.value with
    | some value =>
        ({ s with
            state := { s.state with value := none }
            consumed := true
            recvPhase := .releasing
            delivered := s.delivered ++ [value] }, .received (.ok value))
    | none =>
        if s.state.closed then
          ({ s with consumed := true, recvPhase := .releasing }, .received (.error .closed))
        else (s, .received (.error .empty))

/-- `wait.take()`, with the start of the drop of its future. -/
def release : System α :=
  match s.wait with
  | none => { s with recvPhase := .idle }
  | some handle =>
      { s with
        cells := Function.update s.cells handle (s.cells handle).abandon
        wait := none
        recvPhase := if (s.cells handle).finished then .idle else .cancelling handle }

/-- The cancel callback of `poll_recv`. -/
def cancelRecv (handle : Nat) : System α :=
  { s with
    state := s.state.takeWaiter
    cells := Function.update s.cells handle (s.cells handle).cancel
    recvPhase := .idle }

/-- The critical section of `close`. -/
def close : System α :=
  { s with
    state := { s.state.takeWaiter with receiverClosed := true }
    firing := s.firing ++ s.state.waiter.toList }

/-- The critical section of the drop of the receiver; its fields are dropped next. -/
def dropReceiver : System α :=
  { s with
    state := { s.state.takeWaiter with receiverClosed := true }
    receiverDropped := true
    recvPhase := .releasing }

def free : Bool := s.recvPhase = .idle && !s.receiverDropped

/-- One action and what it makes a call return; `none` when it is not possible. -/
def act : Action α → Option (System α × Reply α)
  | .send value => if s.senderGone then none else some (s.send value)
  | .dropSender => if s.senderGone then none else some (s.dropSender, .none)
  | .fire index => (s.fire index).map (·, .none)
  | .pollRecv => if s.free then some s.pollRecv else none
  | .receive => if s.recvPhase = .receiving then some s.receive else none
  | .register => if s.recvPhase = .registering then some (s.register, .none) else none
  | .tryRecv => if s.free then some s.tryRecv else none
  | .release => if s.recvPhase = .releasing then some (s.release, .none) else none
  | .cancelRecv =>
      match s.recvPhase with
      | .cancelling handle => some (s.cancelRecv handle, .none)
      | _ => none
  | .close => if s.free then some (s.close, .none) else none
  | .dropReceiver => if s.free then some (s.dropReceiver, .none) else none

def step (s : System α) (a : Action α) : Option (System α) := (s.act a).map Prod.fst

def Reachable : System α → Prop :=
  Transition.Reachable step (fun _ _ => True) {}

/-! ## Who has the value -/

/-- The value is in one place, and the receiver waits only while there can be one. -/
structure Sound (s : System α) : Prop where
  handed : s.delivered ++ s.returned ++ s.state.value.toList = s.handedIn
  took : s.accepted ++ s.returned = s.handedIn
  once : s.handedIn.length ≤ 1
  alive : s.state.senderAlive = !s.senderGone
  unsent : s.senderGone = false → s.handedIn = []
  consumed : s.consumed = true → s.state.value = none ∧ s.state.closed = true
  calling : ∀ handle, s.wait = some handle → s.recvPhase = .idle ∨ s.recvPhase = .releasing
  signalled : ∀ handle, s.wait = some handle → s.receiverDropped = false →
    s.cells handle = ({} : Cell Unit).complete () ∨
      s.cells handle = {} ∧ (handle ∈ s.firing ∨ s.state.waiter = some handle)
  fresh : ∀ handle ∈ s.firing, handle < s.nextCell
  unpanicked : s.panicked = false

/-- A registered waiter is the one of the completion that the receiver waits for. -/
structure Waiting (s : System α) (handle : Nat) : Prop where
  empty : s.state.value = none
  isOpen : s.state.closed = false
  wait : s.wait = some handle
  phase : s.recvPhase = .idle
  cell : s.cells handle = {}
  unfired : handle ∉ s.firing
  issued : handle < s.nextCell

def Orderly (s : System α) : Prop :=
  s.Sound ∧ ∀ handle, s.state.waiter = some handle → s.Waiting handle

variable {s} {s' : System α}

theorem Orderly.init : Orderly ({} : System α) := by
  refine ⟨?_, by simp⟩
  constructor <;> simp

theorem Sound.value_eq_none (h : s.Sound) (hgone : s.senderGone = false) :
    s.state.value = none := by
  have hhanded := h.handed
  rw [h.unsent hgone] at hhanded
  have hnil := (List.append_eq_nil_iff.mp hhanded).2
  simpa using hnil

/-- A section that takes the waiter leaves its completion to be fired. -/
theorem Sound.taken (h : s.Sound) {handle : Nat} (hwait : s.wait = some handle)
    (hdropped : s.receiverDropped = false) :
    s.cells handle = ({} : Cell Unit).complete () ∨
      s.cells handle = {} ∧ handle ∈ s.firing ++ s.state.waiter.toList := by
  obtain hdone | ⟨hcell, hfiring | hwaiter⟩ := h.signalled handle hwait hdropped
  · exact .inl hdone
  · exact .inr ⟨hcell, List.mem_append_left _ hfiring⟩
  · exact .inr ⟨hcell, List.mem_append_right _ (by simp [hwaiter])⟩

theorem Orderly.fresh_taken (h : s.Orderly) :
    ∀ handle ∈ s.firing ++ s.state.waiter.toList, handle < s.nextCell := by
  intro handle hmem
  obtain hfiring | hwaiter := List.mem_append.mp hmem
  · exact h.1.fresh handle hfiring
  · exact (h.2 handle (by simpa using hwaiter)).issued

/-! ### The sender -/

theorem Orderly.send (h : s.Orderly) (hgone : s.senderGone = false) (value : α) :
    (s.send value).1.Orderly := by
  have hsound := h.1
  have hnone : s.state.value = none := hsound.value_eq_none hgone
  have hhandedIn : s.handedIn = [] := hsound.unsent hgone
  obtain ⟨hbefore, hreturned⟩ := List.append_eq_nil_iff.mp (hsound.took.trans hhandedIn)
  have hdelivered : s.delivered = [] := by
    have hhanded := hsound.handed
    rw [hhandedIn, List.append_assoc] at hhanded
    exact (List.append_eq_nil_iff.mp hhanded).1
  unfold System.send
  split
  next hclosed =>
    refine ⟨{
      hsound with
      handed := by simp [hnone, hhandedIn, hdelivered, hreturned]
      took := by simp [hbefore, hhandedIn, hreturned]
      once := by simp [hhandedIn]
      alive := rfl
      unsent := by simp
      consumed := fun _ => ⟨hnone, by simp [State.closed]⟩ }, ?_⟩
    intro handle hwaiter
    have hopen := (h.2 handle hwaiter).isOpen
    simp [State.closed, hclosed] at hopen
  next hopen =>
    -- nothing was consumed, since the channel was open
    have hunconsumed : ¬ s.consumed = true := by
      intro hconsumed
      have hclosed := (hsound.consumed hconsumed).2
      simp [State.closed, hsound.alive, hgone] at hclosed
      exact hopen hclosed
    exact ⟨{
      hsound with
      handed := by simp [hhandedIn, hdelivered, hreturned]
      took := by simp [hbefore, hhandedIn, hreturned]
      once := by simp [hhandedIn]
      alive := rfl
      unsent := by simp
      consumed := fun hconsumed => absurd hconsumed hunconsumed
      signalled := fun handle hwait hdropped =>
        (hsound.taken hwait hdropped).imp_right fun hcell => ⟨hcell.1, .inl hcell.2⟩
      fresh := h.fresh_taken }, by simp⟩

theorem Orderly.dropSender (h : s.Orderly) (hgone : s.senderGone = false) :
    s.dropSender.Orderly := by
  have hsound := h.1
  have hnone : s.state.value = none := hsound.value_eq_none hgone
  have halive : s.state.senderAlive = true := by simp [hsound.alive, hgone]
  unfold System.dropSender
  rw [if_neg (by simp [halive]), if_pos (by simp [hnone])]
  exact ⟨{
    hsound with
    alive := rfl
    unsent := by simp
    consumed := fun _ => ⟨hnone, by simp [State.closed]⟩
    signalled := fun handle hwait hdropped =>
      (hsound.taken hwait hdropped).imp_right fun hcell => ⟨hcell.1, .inl hcell.2⟩
    fresh := h.fresh_taken }, by simp⟩

theorem Orderly.fire (h : s.Orderly) {index : Nat} (hfire : s.fire index = some s') :
    s'.Orderly := by
  obtain ⟨fired, hfired, rfl⟩ := Option.map_eq_some_iff.mp hfire
  have hsublist : (s.firing.eraseIdx index).Sublist s.firing := List.eraseIdx_sublist ..
  refine ⟨{
    h.1 with
    signalled := ?_
    fresh := fun handle hmem => h.1.fresh handle (hsublist.subset hmem) }, ?_⟩
  · intro handle hwait hdropped
    by_cases heq : handle = fired
    · subst heq
      refine .inl ?_
      obtain hcell | ⟨hcell, -⟩ := h.1.signalled handle hwait hdropped
      · simp [hcell, Cell.complete]
      · simp [hcell]
    · simp only [Function.update_of_ne heq]
      refine (h.1.signalled handle hwait hdropped).imp_right fun hrest => ⟨hrest.1, ?_⟩
      refine hrest.2.imp_left fun hmem => ?_
      obtain ⟨i, hi⟩ := List.getElem?_of_mem hmem
      refine List.mem_eraseIdx_iff_getElem?.mpr ⟨i, ?_, hi⟩
      rintro rfl
      exact heq (Option.some.inj (hi.symm.trans hfired))
  · intro handle hwaiter
    have hwaiting := h.2 handle hwaiter
    have hne : handle ≠ fired := by
      rintro rfl
      exact hwaiting.unfired (List.mem_of_getElem? hfired)
    exact {
      hwaiting with
      cell := by simp only [Function.update_of_ne hne, hwaiting.cell]
      unfired := fun hmem => hwaiting.unfired (hsublist.subset hmem) }

/-! ### The receiver -/

theorem Orderly.waiter_eq_none (h : s.Orderly) (hwait : s.wait = none) :
    s.state.waiter = none := by
  by_contra hwaiter
  obtain ⟨handle, hhandle⟩ := Option.ne_none_iff_exists'.mp hwaiter
  cases hwait.symm.trans (h.2 handle hhandle).wait

/-- The receiver goes on to a phase in which nothing waits. -/
theorem Orderly.enter (h : s.Orderly) (phase : RecvPhase) (hwait : s.wait = none) :
    Orderly { s with recvPhase := phase } :=
  ⟨{ h.1 with calling := by simp [hwait] }, by simp [h.waiter_eq_none hwait]⟩

theorem Orderly.pollRecv (h : s.Orderly) : s.pollRecv.1.Orderly := by
  unfold System.pollRecv
  split
  · exact h
  · split
    next hwait => exact h.enter .receiving hwait
    next handle hwait =>
      split
      · exact h
      next hresult =>
        refine ⟨{ h.1 with calling := by simp, signalled := by simp }, ?_⟩
        intro handle' hwaiter
        -- the completion has its result, so it is not registered any more
        have hwaiting := h.2 handle' hwaiter
        obtain rfl : handle = handle' := Option.some.inj (hwait.symm.trans hwaiting.wait)
        simp [hwaiting.cell] at hresult

theorem Orderly.deliver (h : s.Orderly) {value : α} (hvalue : s.state.value = some value)
    (phase : RecvPhase) (hphase : phase = .idle ∨ phase = .releasing) : Orderly { s with
      state := { s.state with value := none }
      consumed := true
      recvPhase := phase
      delivered := s.delivered ++ [value] } := by
  have hsound := h.1
  -- the value was sent, so nothing was returned
  have hgone : s.senderGone = true := by
    by_contra hsender
    cases (hsound.value_eq_none (by simpa using hsender)).symm.trans hvalue
  have hhanded := hsound.handed
  have honce := hsound.once
  rw [hvalue] at hhanded
  rw [← hhanded] at honce
  simp only [List.length_append, Option.toList_some, List.length_singleton] at honce
  have hdelivered : s.delivered = [] := List.length_eq_zero_iff.mp (by omega)
  have hreturned : s.returned = [] := List.length_eq_zero_iff.mp (by omega)
  refine ⟨{
    hsound with
    handed := by simpa [hdelivered, hreturned] using hhanded
    consumed := fun _ => ⟨rfl, by simp [State.closed, hsound.alive, hgone]⟩
    calling := fun _ _ => hphase }, ?_⟩
  intro handle hwaiter
  cases hvalue.symm.trans (h.2 handle hwaiter).empty

theorem Orderly.conclude (h : s.Orderly) (hnone : s.state.value = none)
    (hclosed : s.state.closed = true) (phase : RecvPhase)
    (hphase : phase = .idle ∨ phase = .releasing) :
    Orderly { s with consumed := true, recvPhase := phase } := by
  refine ⟨{ h.1 with consumed := fun _ => ⟨hnone, hclosed⟩, calling := fun _ _ => hphase }, ?_⟩
  intro handle hwaiter
  cases hclosed.symm.trans (h.2 handle hwaiter).isOpen

theorem Orderly.receive (h : s.Orderly) (hphase : s.recvPhase = .receiving) :
    s.receive.1.Orderly := by
  have hwait : s.wait = none := by
    by_contra hwait
    obtain ⟨handle, hhandle⟩ := Option.ne_none_iff_exists'.mp hwait
    simpa [hphase] using h.1.calling handle hhandle
  unfold System.receive
  split
  next value hvalue => exact h.deliver hvalue .idle (.inl rfl)
  next hnone =>
    split
    next hclosed => exact h.conclude hnone hclosed .idle (.inl rfl)
    next => exact h.enter .registering hwait

theorem Orderly.tryRecv (h : s.Orderly) : s.tryRecv.1.Orderly := by
  unfold System.tryRecv
  split
  · exact h
  · split
    next value hvalue => exact h.deliver hvalue .releasing (.inr rfl)
    next hnone =>
      split
      next hclosed => exact h.conclude hnone hclosed .releasing (.inr rfl)
      next => exact h

theorem Orderly.register (h : s.Orderly) (hphase : s.recvPhase = .registering) :
    s.register.Orderly := by
  have hwait : s.wait = none := by
    by_contra hwait
    obtain ⟨handle, hhandle⟩ := Option.ne_none_iff_exists'.mp hwait
    simpa [hphase] using h.1.calling handle hhandle
  have hwaiter : s.state.waiter = none := h.waiter_eq_none hwait
  have hfresh : ∀ handle ∈ s.firing, handle < s.nextCell + 1 :=
    fun handle hmem => Nat.lt_succ_of_lt (h.1.fresh handle hmem)
  unfold System.register
  split
  next =>
    refine ⟨{
      h.1 with
      calling := fun _ _ => .inl rfl
      signalled := ?_
      fresh := hfresh }, by simp [hwaiter]⟩
    rintro _ ⟨⟩ -
    exact .inl (by simp)
  next hvacant =>
    simp only [Bool.or_eq_true, not_or, Bool.not_eq_true] at hvacant
    rw [if_neg (by simp [hwaiter])]
    refine ⟨{
      h.1 with
      consumed := h.1.consumed
      calling := fun _ _ => .inl rfl
      signalled := ?_
      fresh := hfresh }, ?_⟩
    · rintro _ ⟨⟩ -
      exact .inr ⟨by simp, .inr rfl⟩
    · rintro _ ⟨⟩
      exact {
        empty := by simpa using hvacant.1
        isOpen := hvacant.2
        wait := rfl
        phase := rfl
        cell := by simp
        unfired := fun hmem => Nat.lt_irrefl _ (h.1.fresh _ hmem)
        issued := Nat.lt_succ_self _ }

theorem Orderly.release (h : s.Orderly) (hphase : s.recvPhase = .releasing) :
    s.release.Orderly := by
  have hwaiter : s.state.waiter = none := by
    by_contra hwaiter
    obtain ⟨handle, hhandle⟩ := Option.ne_none_iff_exists'.mp hwaiter
    cases hphase.symm.trans (h.2 handle hhandle).phase
  unfold System.release
  split
  next hwait => exact h.enter .idle hwait
  next =>
    exact ⟨{ h.1 with calling := by simp, signalled := by simp }, by simp [hwaiter]⟩

theorem Orderly.cancelRecv (h : s.Orderly) {handle : Nat}
    (hphase : s.recvPhase = .cancelling handle) : (s.cancelRecv handle).Orderly := by
  have hwait : s.wait = none := by
    by_contra hwait
    obtain ⟨other, hother⟩ := Option.ne_none_iff_exists'.mp hwait
    simpa [hphase] using h.1.calling other hother
  refine ⟨{
    h.1 with
    calling := by simp [System.cancelRecv, hwait]
    signalled := by simp [System.cancelRecv, hwait] }, by simp [System.cancelRecv]⟩

theorem Orderly.close (h : s.Orderly) : s.close.Orderly :=
  ⟨{ h.1 with
      consumed := fun hconsumed => ⟨(h.1.consumed hconsumed).1, by simp [System.close, State.closed]⟩
      signalled := fun handle hwait hdropped =>
        (h.1.taken hwait hdropped).imp_right fun hcell => ⟨hcell.1, .inl hcell.2⟩
      fresh := h.fresh_taken }, by simp [System.close]⟩

theorem Orderly.dropReceiver (h : s.Orderly) : s.dropReceiver.Orderly :=
  ⟨{ h.1 with
      consumed := fun hconsumed =>
        ⟨(h.1.consumed hconsumed).1, by simp [System.dropReceiver, State.closed]⟩
      calling := fun _ _ => .inr rfl
      signalled := by simp [System.dropReceiver] }, by simp [System.dropReceiver]⟩

theorem Orderly.act (h : s.Orderly) {a : Action α} {reply : Reply α}
    (hact : s.act a = some (s', reply)) : s'.Orderly := by
  cases a with
  | send value =>
      obtain ⟨hgone, heq⟩ := Option.ite_none_left_eq_some.mp hact
      have hs : (s.send value).1 = s' := congrArg Prod.fst (Option.some.inj heq)
      rw [← hs]
      exact h.send (by simpa using hgone) value
  | dropSender =>
      obtain ⟨hgone, heq⟩ := Option.ite_none_left_eq_some.mp hact
      cases heq
      exact h.dropSender (by simpa using hgone)
  | fire index =>
      obtain ⟨_, hfire, heq⟩ := Option.map_eq_some_iff.mp hact
      cases heq
      exact h.fire hfire
  | pollRecv =>
      obtain ⟨-, heq⟩ := Option.ite_none_right_eq_some.mp hact
      have hs : s.pollRecv.1 = s' := congrArg Prod.fst (Option.some.inj heq)
      rw [← hs]
      exact h.pollRecv
  | receive =>
      obtain ⟨hphase, heq⟩ := Option.ite_none_right_eq_some.mp hact
      have hs : s.receive.1 = s' := congrArg Prod.fst (Option.some.inj heq)
      rw [← hs]
      exact h.receive hphase
  | register =>
      obtain ⟨hphase, heq⟩ := Option.ite_none_right_eq_some.mp hact
      cases heq
      exact h.register hphase
  | tryRecv =>
      obtain ⟨-, heq⟩ := Option.ite_none_right_eq_some.mp hact
      have hs : s.tryRecv.1 = s' := congrArg Prod.fst (Option.some.inj heq)
      rw [← hs]
      exact h.tryRecv
  | release =>
      obtain ⟨hphase, heq⟩ := Option.ite_none_right_eq_some.mp hact
      cases heq
      exact h.release hphase
  | cancelRecv =>
      simp only [System.act] at hact
      split at hact
      next handle hphase =>
        cases hact
        exact h.cancelRecv hphase
      next => cases hact
  | close =>
      obtain ⟨-, heq⟩ := Option.ite_none_right_eq_some.mp hact
      cases heq
      exact h.close
  | dropReceiver =>
      obtain ⟨-, heq⟩ := Option.ite_none_right_eq_some.mp hact
      cases heq
      exact h.dropReceiver

theorem orderly_of_reachable (hreach : s.Reachable) : s.Orderly := by
  refine Transition.Reachable.invariant Orderly .init ?_ hreach
  intro s a s' h _ hstep
  obtain ⟨⟨s', reply⟩, hact, rfl⟩ := Option.map_eq_some_iff.mp hstep
  exact h.act hact

/-! ## What the receiver is told -/

/-- What was accepted was delivered, or it is in the state. -/
theorem Sound.accepted_eq (h : s.Sound) :
    s.accepted = s.delivered ++ s.state.value.toList := by
  have hhanded := h.handed
  have honce := h.once
  rw [← h.took] at hhanded honce
  rcases hreturned : s.returned with _ | ⟨value, rest⟩
  · simpa [hreturned] using hhanded.symm
  · -- a value that was returned is the only one
    rw [hreturned] at hhanded honce
    have haccepted : s.accepted = [] := List.length_eq_zero_iff.mp (by simp at honce; omega)
    rw [haccepted] at hhanded
    have hlength := congrArg List.length hhanded
    simp only [List.length_append, List.nil_append] at hlength
    have hdelivered : s.delivered = [] := List.length_eq_zero_iff.mp (by omega)
    have hvalue : s.state.value.toList = [] := List.length_eq_zero_iff.mp (by omega)
    rw [haccepted, hdelivered, hvalue]
    rfl

theorem Sound.closed_of_received (h : s.Sound) {a : Action α}
    (hact : s.act a = some (s', .received (.error .closed))) : s.state.value = none := by
  cases a with
  | send value =>
      obtain ⟨-, heq⟩ := Option.ite_none_left_eq_some.mp hact
      unfold System.send at heq
      split at heq <;> cases heq
  | fire index =>
      obtain ⟨_, -, heq⟩ := Option.map_eq_some_iff.mp hact
      cases heq
  | pollRecv =>
      obtain ⟨-, heq⟩ := Option.ite_none_right_eq_some.mp hact
      unfold System.pollRecv at heq
      split at heq
      next hconsumed => exact (h.consumed hconsumed).1
      next =>
        split at heq
        · cases heq
        · split at heq <;> cases heq
  | receive =>
      obtain ⟨-, heq⟩ := Option.ite_none_right_eq_some.mp hact
      unfold System.receive at heq
      split at heq
      next => cases heq
      next hnone => exact hnone
  | tryRecv =>
      obtain ⟨-, heq⟩ := Option.ite_none_right_eq_some.mp hact
      unfold System.tryRecv at heq
      split at heq
      next hconsumed => exact (h.consumed hconsumed).1
      next =>
        split at heq
        next => cases heq
        next hnone => exact hnone
  | cancelRecv =>
      simp only [System.act] at hact
      split at hact <;> cases hact
  | dropSender =>
      obtain ⟨-, heq⟩ := Option.ite_none_left_eq_some.mp hact
      cases heq
  | register | release | close | dropReceiver =>
      obtain ⟨-, heq⟩ := Option.ite_none_right_eq_some.mp hact
      cases heq

/-- `recv` gets a stored value, when it is polled with a completion that is complete. -/
theorem receive_pollRecv {value : α} (hvalue : s.state.value = some value)
    (hconsumed : s.consumed = false)
    (hready : ∀ handle, s.wait = some handle → (s.cells handle).result = some ()) :
    s.pollRecv.1.receive.2 = .received (.ok value) := by
  unfold System.pollRecv
  rw [if_neg (by simp [hconsumed])]
  split
  next => simp [System.receive, hvalue]
  next handle hwait =>
    simp only [hready handle hwait]
    simp [System.receive, hvalue]

/-- In every interleaving: the value is delivered, returned or in the channel, and only one
of them; a value that was accepted and not delivered is there for `try_recv`, and for
`recv`, whose completion is complete or about to be; the receiver is told that the channel
is closed when everything that was accepted was delivered; a waiter is registered only at
an empty and open channel with a sender; and no assertion fails. -/
theorem delivered_once_of_reachable (s : System α) (hreach : s.Reachable) :
    (s.delivered ++ s.returned ++ s.state.value.toList = s.handedIn ∧ s.handedIn.length ≤ 1) ∧
      (∀ value ∈ s.accepted, s.delivered = [] →
        s.consumed = false ∧ s.tryRecv.2 = .received (.ok value) ∧
          ((∀ handle, s.wait = some handle → (s.cells handle).result = some ()) →
            s.pollRecv.1.receive.2 = .received (.ok value)) ∧
          ∀ handle, s.wait = some handle → s.receiverDropped = false →
            (s.cells handle).result = some () ∨ handle ∈ s.firing) ∧
      (∀ a s', s.act a = some (s', .received (.error .closed)) → s.accepted = s.delivered) ∧
      (∀ handle, s.state.waiter = some handle → s.state.value = none ∧
        s.state.senderAlive = true ∧ s.state.receiverClosed = false) ∧
      s.panicked = false := by
  have h := orderly_of_reachable hreach
  refine ⟨⟨h.1.handed, h.1.once⟩, ?_, ?_, ?_, h.1.unpanicked⟩
  · intro value hmem hdelivered
    have hvalue : s.state.value = some value := by
      rw [h.1.accepted_eq, hdelivered] at hmem
      simpa using hmem
    have hconsumed : s.consumed = false := by
      by_contra hconsumed
      cases hvalue.symm.trans (h.1.consumed (by simpa using hconsumed)).1
    refine ⟨hconsumed, by simp [System.tryRecv, hconsumed, hvalue],
      receive_pollRecv hvalue hconsumed, ?_⟩
    intro handle hwait hdropped
    obtain hcell | ⟨-, hfiring | hwaiter⟩ := h.1.signalled handle hwait hdropped
    · exact .inl (by simp [hcell, Cell.complete])
    · exact .inr hfiring
    · cases hvalue.symm.trans (h.2 handle hwaiter).empty
  · intro a s' hact
    rw [h.1.accepted_eq, h.1.closed_of_received hact]
    exact List.append_nil _
  · intro handle hwaiter
    have hwaiting := h.2 handle hwaiter
    have hopen := hwaiting.isOpen
    simp only [State.closed, Bool.or_eq_false_iff, Bool.not_eq_false'] at hopen
    exact ⟨hwaiting.empty, hopen.2, hopen.1⟩

/-- The receiver waits, the value is sent and the receiver closed before the completion is
fired: `try_recv` still gets the value. -/
theorem delivered_once_closed :
    ∃ s : System Nat, s.Reachable ∧ s.accepted = [3] ∧ s.state.receiverClosed = true ∧
      s.tryRecv.2 = .received (.ok 3) := by
  obtain ⟨s, hreach, hp⟩ := Transition.Reachable.exists_of_run step (fun _ _ => True)
    ({} : System Nat) [.pollRecv, .receive, .register, .pollRecv, .send 3, .close]
    (fun s => decide (s.accepted = [3] ∧ s.delivered = [] ∧ s.state.receiverClosed = true))
    (by simp) (by decide)
  obtain ⟨haccepted, hdelivered, hclosed⟩ := of_decide_eq_true hp
  obtain ⟨-, hretrieved, -⟩ := delivered_once_of_reachable s hreach
  exact ⟨s, hreach, haccepted, hclosed, (hretrieved 3 (by simp [haccepted]) hdelivered).2.1⟩

/-- After the value was delivered, the receiver is told that the channel is closed. -/
theorem closed_after_delivery :
    ∃ s : System Nat, s.Reachable ∧ s.accepted = [3] ∧
      s.act .tryRecv = some (s, .received (.error .closed)) := by
  obtain ⟨s, hreach, hp⟩ := Transition.Reachable.exists_of_run step (fun _ _ => True)
    ({} : System Nat) [.send 3, .tryRecv, .release]
    (fun s => decide (s.accepted = [3] ∧ s.free = true ∧ s.consumed = true)) (by simp) (by decide)
  obtain ⟨haccepted, hfree, hconsumed⟩ := of_decide_eq_true hp
  exact ⟨s, hreach, haccepted, by simp [System.act, System.tryRecv, hfree, hconsumed]⟩

end System

end Runite.Channel.Oneshot
