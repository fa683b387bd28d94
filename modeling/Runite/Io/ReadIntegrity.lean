import Runite.Io.ReadState
import Runite.Lib.Transition

/-!
# The stream behind a read state

Reads of any sizes, abandoned or not, and operations that complete with any data or
fail.  A read that is abandoned leaves its operation behind, so it is no event of its
own: the next poll finds the operation.

The operations are the environment's: it sees the calls of the factory, and notes what
the operations read when they complete.  What was handed out and what is retained is
what they read, up to the one that no poll has come to yet.
-/

namespace Runite.Io

open Transition

/-- The data of an operation that has read. -/
def outcomeData : Option (Except IoError (List UInt8)) → List (List UInt8)
  | some (.ok data) => [data]
  | some (.error _) => []
  | none => []

/-- The data of the operation that has completed and that no poll has come to. -/
def ReadState.arrived (s : ReadState) : List (List UInt8) :=
  outcomeData (s.operation.bind PendingOperation.outcome)

/-- The operation in flight has not completed. -/
def ReadState.waits (s : ReadState) : Bool :=
  s.operation.any fun operation => operation.outcome.isNone

/-- A read that found the end of the stream. -/
def endsStream : Poll (Except IoError (List UInt8)) → Bool
  | .ready (.ok bytes) => bytes.isEmpty
  | .ready (.error _) => false
  | .pending => false

/-- A read state and its environment: what was handed out, the operations that were
started and have not completed, the data of those that have, and the polls with a positive
capacity that returned no bytes. -/
structure ReadStream where
  state : ReadState := {}
  handed : List UInt8 := []
  inFlight : Nat := 0
  completed : List (List UInt8) := []
  ends : Nat := 0
  closed : Bool := false

inductive ReadEvent
  | poll (waker : Waker) (capacity : Nat) (start : Option (Except IoError (List UInt8)))
  /-- an operation in flight completes -/
  | complete (result : Except IoError (List UInt8))
  | shutdown (waker : Waker) (start : Option (Except IoError Unit))

namespace ReadStream

variable {w w' : ReadStream} {s : ReadState} {waker : Waker} {capacity : Nat}
  {start : Option (Except IoError (List UInt8))}

/-- A poll.  An operation that the factory was called for, which `started` tells, is in
flight unless it is ready from the start. -/
def poll (w : ReadStream) (waker : Waker) (capacity : Nat)
    (start : Option (Except IoError (List UInt8))) : ReadStream :=
  let polled := w.state.pollWith waker capacity start
  let w' := { w with
    state := polled.1
    handed := w.handed ++ received polled.2
    ends := w.ends + (0 < capacity && endsStream polled.2).toNat }
  if polled.1.started = w.state.started then w'
  else
    { w' with
      inFlight := w.inFlight + start.isNone.toNat
      completed := w.completed ++ outcomeData start }

@[simp] theorem poll_state : (w.poll waker capacity start).state =
    (w.state.pollWith waker capacity start).1 := by
  unfold poll
  dsimp only
  split <;> rfl

@[simp] theorem poll_handed : (w.poll waker capacity start).handed =
    w.handed ++ received (w.state.pollWith waker capacity start).2 := by
  unfold poll
  dsimp only
  split <;> rfl

@[simp] theorem poll_ends : (w.poll waker capacity start).ends =
    w.ends + (0 < capacity && endsStream (w.state.pollWith waker capacity start).2).toNat := by
  unfold poll
  dsimp only
  split <;> rfl

@[simp] theorem poll_closed : (w.poll waker capacity start).closed = w.closed := by
  unfold poll
  dsimp only
  split <;> rfl

def step (w : ReadStream) : ReadEvent → Option ReadStream
  | .poll waker capacity start => some (w.poll waker capacity start)
  | .complete result =>
      if w.inFlight = 0 then none
      else
        some { w with
          state := (w.state.complete result).getD w.state
          inFlight := w.inFlight - 1
          completed := w.completed ++ outcomeData (some result) }
  | .shutdown waker start =>
      some { w with state := (w.state.pollShutdown waker start).1, closed := true }

/-- Nothing is lost, and what is retained was not read ahead of another operation. -/
structure Intact (w : ReadStream) : Prop where
  stream : ∃ taken, w.completed = taken ++ w.state.arrived ∧
    w.handed ++ w.state.rest = taken.flatten ∧ w.ends = taken.count []
  inFlight : w.inFlight = w.state.waits.toNat
  alone : w.state.overflow.isSome = true → w.state.operation = none
  /-- a retained overflow is not empty -/
  unread : ∀ o, w.state.overflow = some o → o.pos < o.data.length

structure Sound (w : ReadStream) : Prop where
  closed : w.state.shutdown.requested = w.closed
  intact : w.closed = false → w.Intact

theorem Sound.init : Sound {} where
  closed := rfl
  intact _ := ⟨⟨[], rfl, rfl, rfl⟩, rfl, nofun, nofun⟩

/-- A poll that comes to the operation calls the factory if there is none. -/
theorem started_pollWith_of_operation (hcapacity : capacity ≠ 0)
    (hopen : s.shutdown.requested = false) (hoverflow : s.overflow = none) :
    (s.pollWith waker capacity start).1.started = (s.begin capacity).started := by
  unfold ReadState.pollWith
  simp only [hcapacity, hopen, hoverflow, Bool.false_eq_true, ↓reduceIte]
  rcases houtcome : (s.currentOperation start).outcome with _ | error | data
  · rfl
  · rfl
  · dsimp only
    split <;> rfl

/-- A poll that is answered from the overflow, or at once, starts nothing. -/
theorem started_pollWith_of_overflow (h : capacity = 0 ∨ s.overflow.isSome = true) :
    (s.pollWith waker capacity start).1.started = s.started := by
  rcases h with hcapacity | hoverflow
  · simp [ReadState.pollWith, hcapacity]
  · obtain ⟨o, ho⟩ := Option.isSome_iff_exists.mp hoverflow
    unfold ReadState.pollWith
    rw [ho]
    split
    · rfl
    · split <;> rfl

theorem arrived_of_operation_none (h : s.operation = none) :
    s.arrived = [] ∧ s.waits = false := by
  simp [ReadState.arrived, ReadState.waits, outcomeData, h]

/-- The first poll of an operation finds it as the factory has made it. -/
theorem outcome_of_operation_none (h : s.operation = none) :
    (s.currentOperation start).outcome = start := by
  rw [ReadState.currentOperation, h]
  rfl

theorem arrived_of_operation_some {operation : PendingOperation (List UInt8)}
    (h : s.operation = some operation) (start : Option (Except IoError (List UInt8))) :
    s.arrived = outcomeData (s.currentOperation start).outcome ∧
      s.waits = (s.currentOperation start).outcome.isNone := by
  simp [ReadState.arrived, ReadState.waits, ReadState.currentOperation, h]

variable (waker start) in
/-- A poll that comes to the operation: the environment has noted what that one read, and
it is in flight if it has not completed. -/
theorem Intact.poll_operation (h : w.Intact) (hcapacity : capacity ≠ 0)
    (hopen : w.state.shutdown.requested = false) (hoverflow : w.state.overflow = none) :
    ∃ taken, (w.poll waker capacity start).completed =
        taken ++ outcomeData (w.state.currentOperation start).outcome ∧
      w.handed = taken.flatten ∧ w.ends = taken.count [] ∧
      (w.poll waker capacity start).inFlight =
        (w.state.currentOperation start).outcome.isNone.toNat := by
  obtain ⟨taken, hcompleted, hhanded, hends⟩ := h.stream
  have hhanded' : w.handed = taken.flatten := by
    simpa [ReadState.rest, hoverflow] using hhanded
  refine ⟨taken, ?_, hhanded', hends, ?_⟩ <;>
    simp only [poll, started_pollWith_of_operation hcapacity hopen hoverflow,
      ReadState.begin_started]
  · cases hoperation : w.state.operation with
    | none =>
        have harrived := (arrived_of_operation_none hoperation).1
        simp [hcompleted, harrived, outcome_of_operation_none hoperation]
    | some operation =>
        have harrived := (arrived_of_operation_some hoperation start).1
        simp [hcompleted, harrived]
  · cases hoperation : w.state.operation with
    | none =>
        have hwaits := (arrived_of_operation_none hoperation).2
        simp [h.inFlight, hwaits, outcome_of_operation_none hoperation]
    | some operation =>
        have hwaits := (arrived_of_operation_some hoperation start).2
        simp [h.inFlight, hwaits]

theorem Intact.polled_overflow {o : ReadOverflow} (h : w.Intact) (hcapacity : capacity ≠ 0)
    (hopen : w.state.shutdown.requested = false) (hoverflow : w.state.overflow = some o) :
    (w.poll waker capacity start).Intact := by
  have hsome : w.state.overflow.isSome = true := by simp [hoverflow]
  have hsplit := w.state.received_pollSlice_of_not_polled (by simp [hsome]) waker capacity start
  have hstarted : (w.state.pollWith waker capacity start).1.started = w.state.started :=
    started_pollWith_of_overflow (.inr hsome)
  have hnone := h.alone hsome
  have hpolled : (w.state.pollWith waker capacity start).1.operation = none := by
    simp [ReadState.pollWith, hcapacity, hopen, hoverflow, hnone]
  obtain ⟨taken, hcompleted, hhanded, hends⟩ := h.stream
  have hlater := arrived_of_operation_none hpolled
  have hbefore := arrived_of_operation_none hnone
  refine ⟨⟨taken, ?_, ?_, ?_⟩, ?_, fun _ => ?_, ?_⟩
  · simp only [poll, hstarted, ↓reduceIte]
    rw [hlater.1, hcompleted, hbefore.1]
  · rw [poll_handed, poll_state, List.append_assoc, ← hhanded]
    exact congrArg (w.handed ++ ·) hsplit
  · -- there is a byte to hand out
    have hunread := h.unread o hoverflow
    have hbytes : endsStream (w.state.pollWith waker capacity start).2 = false := by
      simp only [ReadState.pollWith, hcapacity, hopen, hoverflow, Bool.false_eq_true, ↓reduceIte,
        endsStream, List.isEmpty_eq_false_iff, ne_eq, ← List.length_eq_zero_iff]
      simp only [ReadOverflow.front, ReadOverflow.remaining, List.length_take, List.length_drop]
      omega
    simp [hbytes, hends]
  · simp only [poll, hstarted, ↓reduceIte]
    rw [hlater.2, h.inFlight, hbefore.2]
  · exact poll_state.symm ▸ hpolled
  · intro o' ho'
    simp only [poll_state, ReadState.pollWith, hcapacity, hopen, hoverflow, Bool.false_eq_true,
      ↓reduceIte] at ho'
    split at ho'
    next => cases ho'
    next hdrained =>
      obtain rfl := Option.some.inj ho'
      have hne : ¬(o.advance (min capacity o.remaining)).pos
          = (o.advance (min capacity o.remaining)).data.length := by
        simpa [ReadOverflow.isDrained] using hdrained
      exact Nat.lt_of_le_of_ne (o.advance _).pos_le hne

theorem Intact.polled_data {data : List UInt8} (h : w.Intact) (hcapacity : capacity ≠ 0)
    (hopen : w.state.shutdown.requested = false) (hoverflow : w.state.overflow = none)
    (houtcome : (w.state.currentOperation start).outcome = some (.ok data)) :
    (w.poll waker capacity start).Intact := by
  obtain ⟨taken, hcompleted, hhanded, hends, hinFlight⟩ :=
    h.poll_operation waker start hcapacity hopen hoverflow
  have hpoll := ReadState.pollWith.eq_def w.state waker capacity start
  simp only [hcapacity, hopen, hoverflow, houtcome, Bool.false_eq_true, ↓reduceIte] at hpoll
  have hoperation : (w.poll waker capacity start).state.operation = none := by
    rw [poll_state, hpoll]
    split <;> rfl
  obtain ⟨harrived, hwaits⟩ := arrived_of_operation_none hoperation
  refine ⟨⟨taken ++ [data], ?_, ?_, ?_⟩, ?_, fun _ => hoperation, ?_⟩
  · rw [harrived, hcompleted, houtcome, List.append_nil]
    rfl
  · rw [poll_handed, poll_state, hhanded, List.flatten_append, List.flatten_singleton,
      List.append_assoc, hpoll]
    congr 1
    split
    next hlt => simp [ReadState.rest, ReadOverflow.rest]
    next hge =>
      have hle : data.length ≤ capacity := by omega
      simp [ReadState.rest, hoverflow, hle]
  · have hempty : endsStream (w.state.pollWith waker capacity start).2 = data.isEmpty := by
      rw [hpoll]
      split <;> cases data <;> simp [endsStream, hcapacity]
    rw [poll_ends, hempty, hends, List.count_append]
    cases data <;> simp [Nat.pos_of_ne_zero hcapacity]
  · simp only [hinFlight, hwaits, houtcome, Option.isNone_some]
  · intro o ho
    rw [poll_state, hpoll] at ho
    split at ho
    next hlt =>
      obtain rfl := Option.some.inj ho
      exact hlt
    next hge => simp [hoverflow] at ho

theorem Intact.polled_operation (h : w.Intact) (hcapacity : capacity ≠ 0)
    (hopen : w.state.shutdown.requested = false) (hoverflow : w.state.overflow = none) :
    (w.poll waker capacity start).Intact := by
  obtain ⟨taken, hcompleted, hhanded, hends, hinFlight⟩ :=
    h.poll_operation waker start hcapacity hopen hoverflow
  rcases houtcome : (w.state.currentOperation start).outcome with _ | error | data
  · have hpoll : w.state.pollWith waker capacity start =
        ((w.state.begin capacity).await (w.state.currentOperation start) waker, .pending) := by
      simp [ReadState.pollWith, hcapacity, hopen, hoverflow, houtcome]
    refine ⟨⟨taken, ?_, ?_, ?_⟩, ?_, ?_, ?_⟩
    · simp [hcompleted, hpoll, ReadState.arrived, PendingOperation.await, houtcome]
    · simp [hpoll, ReadState.rest, hoverflow, hhanded]
    · simp [hpoll, endsStream, hends]
    · simp [hinFlight, hpoll, ReadState.waits, PendingOperation.await, houtcome]
    · simp [hpoll, hoverflow]
    · simp [hpoll, hoverflow]
  · have hpoll : w.state.pollWith waker capacity start =
        ((w.state.begin capacity).finish (w.state.currentOperation start) waker,
          .ready (.error error)) := by
      simp [ReadState.pollWith, hcapacity, hopen, hoverflow, houtcome]
    refine ⟨⟨taken, ?_, ?_, ?_⟩, ?_, ?_, ?_⟩
    · simp [hcompleted, hpoll, ReadState.arrived, houtcome, outcomeData]
    · simp [hpoll, ReadState.rest, hoverflow, hhanded]
    · simp [hpoll, endsStream, hends]
    · simp [hinFlight, hpoll, ReadState.waits, houtcome]
    · simp [hpoll, hoverflow]
    · simp [hpoll, hoverflow]
  · exact h.polled_data hcapacity hopen hoverflow houtcome

theorem Intact.polled (h : w.Intact) (hopen : w.state.shutdown.requested = false) :
    (w.poll waker capacity start).Intact := by
  by_cases hcapacity : capacity = 0
  · simpa [poll, ReadState.pollWith, hcapacity, received] using h
  cases hoverflow : w.state.overflow with
  | none => exact h.polled_operation hcapacity hopen hoverflow
  | some o => exact h.polled_overflow hcapacity hopen hoverflow

/-- An operation in flight is that of the state, and the next poll comes to it. -/
theorem Intact.complete {result : Except IoError (List UInt8)} (h : w.Intact)
    (hinFlight : w.inFlight ≠ 0) :
    Intact { w with
      state := (w.state.complete result).getD w.state
      inFlight := w.inFlight - 1
      completed := w.completed ++ outcomeData (some result) } := by
  have hwaits : w.state.waits = true := by
    cases hwaits : w.state.waits with
    | true => rfl
    | false => exact absurd (by rw [h.inFlight, hwaits]; rfl) hinFlight
  obtain ⟨operation, hoperation, hnone⟩ : ∃ operation, w.state.operation = some operation ∧
      operation.outcome = none := by
    simpa using (Option.any_eq_true ..).mp hwaits
  have harrived : w.state.arrived = [] := by
    simp [ReadState.arrived, hoperation, hnone, outcomeData]
  obtain ⟨taken, hcompleted, hhanded, hends⟩ := h.stream
  have hcomplete : (w.state.complete result).getD w.state =
      { w.state with
        operation := some { outcome := some result }
        woken := w.state.woken ++ operation.waiters } := by
    simp [ReadState.complete, hoperation, hnone]
  rw [hcomplete]
  refine ⟨⟨taken, ?_, hhanded, hends⟩, ?_, fun hsome => ?_, h.unread⟩
  · rw [hcompleted, harrived, List.append_nil]
    rfl
  · rw [h.inFlight, hwaits]
    rfl
  · rw [h.alone hsome] at hoperation
    cases hoperation

theorem shutdown_pollWith (s : ReadState) (waker : Waker) (capacity : Nat)
    (start : Option (Except IoError (List UInt8))) :
    (s.pollWith waker capacity start).1.shutdown = s.shutdown := by
  unfold ReadState.pollWith
  split
  · rfl
  split
  · rfl
  split
  · rfl
  dsimp only
  split
  · rfl
  · rfl
  · split <;> rfl

theorem shutdown_complete {s s' : ReadState} {result : Except IoError (List UInt8)}
    (hs : s.complete result = some s') : s'.shutdown = s.shutdown := by
  unfold ReadState.complete at hs
  split at hs
  next => cases hs
  next =>
    split at hs
    next => cases hs
    next =>
      obtain rfl := Option.some.inj hs
      rfl

theorem requested_poll (d : DirectionShutdown) (waker : Waker)
    (start : Option (Except IoError Unit)) : (d.poll waker start).1.requested = true := by
  unfold DirectionShutdown.poll
  rcases hresult : d.result with _ | result
  · rcases hoperation : d.operation with _ | operation
    · rcases start with _ | result <;> simp [DirectionShutdown.request, hresult, hoperation]
    · rcases houtcome : operation.outcome with _ | result <;>
        simp [DirectionShutdown.request, hresult, hoperation, houtcome]
  · simp [DirectionShutdown.request, hresult]

theorem Sound.step {event : ReadEvent} (h : Sound w) (hs : w.step event = some w') : Sound w' := by
  cases event with
  | poll waker capacity start =>
      obtain rfl := Option.some.inj hs
      refine ⟨?_, fun hopen => ?_⟩
      · rw [poll_state, shutdown_pollWith, poll_closed, h.closed]
      · have hstill := poll_closed.symm.trans hopen
        exact (h.intact hstill).polled (h.closed.trans hstill)
  | complete result =>
      simp only [ReadStream.step] at hs
      split at hs
      · cases hs
      next hinFlight =>
        obtain rfl := Option.some.inj hs
        refine ⟨?_, fun hopen => (h.intact hopen).complete hinFlight⟩
        cases hstate : w.state.complete result with
        | none => exact h.closed
        | some state => exact (congrArg _ (shutdown_complete hstate)).trans h.closed
  | shutdown waker start =>
      obtain rfl := Option.some.inj hs
      exact ⟨requested_poll .., fun hopen => absurd hopen.symm Bool.false_ne_true⟩

/-- A poll that returns no bytes comes to an operation that read none. -/
theorem outcome_of_empty (h : w.Intact) (hopen : w.state.shutdown.requested = false)
    (hcapacity : 0 < capacity)
    (hempty : (w.state.pollWith waker capacity start).2 = .ready (.ok [])) :
    w.state.arrived = [[]] ∨ w.state.operation = none ∧ start = some (.ok []) := by
  have hne : capacity ≠ 0 := Nat.ne_of_gt hcapacity
  cases hoverflow : w.state.overflow with
  | some o =>
      -- there is a byte to hand out
      have hunread := h.unread o hoverflow
      have hfront : o.front (min capacity o.remaining) = [] := by
        simpa [ReadState.pollWith, hne, hopen, hoverflow] using hempty
      have hlength := congrArg List.length hfront
      simp only [ReadOverflow.front, ReadOverflow.remaining, List.length_take, List.length_drop,
        List.length_nil] at hlength
      omega
  | none =>
      have houtcome : (w.state.currentOperation start).outcome = some (.ok []) := by
        simp only [ReadState.pollWith, hne, hopen, hoverflow, Bool.false_eq_true,
          ↓reduceIte] at hempty
        rcases houtcome : (w.state.currentOperation start).outcome with _ | error | data
        · simp [houtcome] at hempty
        · simp [houtcome] at hempty
        · have hdata : data.take (min capacity data.length) = [] := by
            rw [houtcome] at hempty
            dsimp only at hempty
            split at hempty <;> simpa using hempty
          have hlength := congrArg List.length hdata
          simp only [List.length_take, List.length_nil] at hlength
          have hnil : data = [] := List.eq_nil_of_length_eq_zero (by omega)
          rw [hnil]
      cases hoperation : w.state.operation with
      | none => exact .inr ⟨rfl, (outcome_of_operation_none hoperation).symm.trans houtcome⟩
      | some operation =>
          left
          rw [(arrived_of_operation_some hoperation start).1, houtcome]
          rfl

/-- While the direction is open: what was handed out, and then the retained overflow, is
what the completed operations read, in order, up to the one that no poll has come to yet; an
overflow is retained only while no operation is in flight; and the polls with a positive
capacity that returned no bytes are as many as the operations they came to that read none.
A poll that was shut down returns no bytes. -/
theorem integrity_of_reachable
    (hreach : Reachable step (fun _ _ => True) ({} : ReadStream) w) :
    (w.closed = false →
      (∃ taken, w.completed = taken ++ w.state.arrived ∧
        w.handed ++ w.state.rest = taken.flatten ∧ w.ends = taken.count []) ∧
      (w.state.overflow.isSome = true → w.state.operation = none ∧ w.inFlight = 0) ∧
      ∀ waker capacity start, 0 < capacity →
        (w.state.pollWith waker capacity start).2 = .ready (.ok []) →
        w.state.arrived = [[]] ∨ w.state.operation = none ∧ start = some (.ok [])) ∧
    (w.closed = true → ∀ waker capacity start,
      (w.state.pollWith waker capacity start).2 = .ready (.ok [])) := by
  have h : Sound w := hreach.invariant Sound Sound.init fun _ _ _ h _ hs => h.step hs
  refine ⟨fun hopen => ?_, fun hclosed waker capacity start => ?_⟩
  · have hintact := h.intact hopen
    refine ⟨hintact.stream, fun hsome => ?_, fun _ _ _ =>
      outcome_of_empty hintact (h.closed.trans hopen)⟩
    have hnone := hintact.alone hsome
    refine ⟨hnone, ?_⟩
    rw [hintact.inFlight, (arrived_of_operation_none hnone).2]
    rfl
  · simp [ReadState.pollWith, h.closed.trans hclosed]

/-- A read of four bytes is abandoned, and comes back in two smaller ones. -/
theorem integrity_after_abandoned :
    ∃ w, Reachable step (fun _ _ => True) ({} : ReadStream) w ∧
      w.handed = [1, 2, 3] ∧ w.completed = [[1, 2, 3, 4]] ∧ w.state.rest = [4] ∧
      w.handed ++ w.state.rest = w.completed.flatten := by
  obtain ⟨w, hreach, hw⟩ := Reachable.exists_of_run step (fun _ _ => True) ({} : ReadStream)
    [.poll 0 4 none, .complete (.ok [1, 2, 3, 4]), .poll 1 2 none, .poll 2 1 none]
    (fun w => decide (w.handed = [1, 2, 3] ∧ w.completed = [[1, 2, 3, 4]] ∧
      w.state.rest = [4] ∧ w.state.arrived = [] ∧ w.closed = false))
    (by simp) (by decide)
  obtain ⟨hhanded, hcompleted, hrest, harrived, hopen⟩ := of_decide_eq_true hw
  obtain ⟨taken, htaken, hstream, -⟩ := ((integrity_of_reachable hreach).1 hopen).1
  rw [harrived, List.append_nil] at htaken
  exact ⟨w, hreach, hhanded, hcompleted, hrest, htaken ▸ hstream⟩

end ReadStream

end Runite.Io
