import Runite.Stdio.StdinReader
import Runite.Lib.Transition
import Mathlib.Data.List.Infix

/-!
# The reader thread and its clients

`read_loop` of the reader thread, step by step between the moments at which it
looks at the shared state, against read futures that are polled and abandoned,
handoffs of the terminal to child processes, and shutdown.

A future waits only while somebody is going to wake it: a waker is stored only
while the buffer is empty and the reader runs, and then a read is active,
requested, or held back by a handoff.  A handoff waits for the read in progress,
so that the reader leaves the terminal alone until the handoff ends.  It does not
wait for a reader that was told to shut down.
-/

namespace Runite.Stdio

open Runite.Io Transition

/-! ## The reader thread -/

def State.readIsStillNeeded (s : State) : Bool :=
  !s.shutdownRequested && s.handoffs = 0 && !s.waiters.isEmpty

/-- `should_retry_stdin_read`, on Unix. -/
def shouldRetryStdinRead (error : IoError) : Bool := error.kind = .interrupted

/-- The error of a reader thread that panicked. -/
def readerPanicked : IoError := { kind := .other 0, message := "dedicated stdin reader panicked" }

/-- Where the reader thread is in `read_loop`. -/
inductive Worker
  /-- in `read_capacity` -/
  | idle
  /-- in `wait_for_input` -/
  | waiting (capacity : Nat)
  /-- has the I/O gate, before `is_shutdown_requested` -/
  | checking (capacity : Nat)
  /-- before `read_is_still_needed` -/
  | confirming (capacity : Nat)
  /-- in the read of the terminal -/
  | reading (capacity : Nat)
  /-- before `append` -/
  | appending (bytes : List UInt8)
  /-- the read failed; before `is_shutdown_requested` -/
  | failed (error : IoError)
  /-- the read failed; before `read_is_still_needed` -/
  | reviewing (error : IoError)
  /-- before `read_interrupted` -/
  | interrupted
  /-- `read_loop` has returned; before `finish` -/
  | stopping (outcome : ThreadOutcome)
  | exited
  deriving DecidableEq

namespace Worker

/-- Between `read_capacity` and the method that says what came of the read. -/
@[simp]
def isActive : Worker → Bool
  | .waiting _ | .checking _ | .confirming _ | .reading _ | .appending _ | .failed _
  | .reviewing _ | .interrupted => true
  | .idle | .stopping _ | .exited => false

/-- The bytes that the thread has read and not appended. -/
@[simp]
def inHand : Worker → List UInt8
  | .appending bytes => bytes
  | _ => []

/-- `read_loop` has returned. -/
@[simp]
def isOver : Worker → Bool
  | .stopping _ | .exited => true
  | _ => false

/-- The most that the thread may append. -/
@[simp]
def room : Worker → Nat
  | .waiting capacity | .checking capacity | .confirming capacity | .reading capacity => capacity
  | .appending bytes => bytes.length
  | _ => 0

/-- A step of the thread that changes nothing but its place, within the loop or out of it. -/
def MayBecome (old new : Worker) : Prop :=
  old.isOver = false ∧ (new.isActive = true → old.isActive = true) ∧ new ≠ .idle ∧
    new ≠ .exited ∧ new.room ≤ old.room ∧ old.inHand = [] ∧ new.inHand = []

end Worker

/-! ## The system -/

/-- The shared state and who uses it.  `pausing` is the number of calls of `begin_handoff` that
wait for a read in progress.  `granted` has an entry for every handoff that began and has not
ended: whether shutdown had been requested when `begin_handoff` returned.  The other fields are
history: what was read from the terminal, what futures returned, and what `append` refused. -/
structure Protocol where
  state : State := {}
  worker : Worker := .idle
  pausing : Nat := 0
  granted : List Bool := []
  input : List UInt8 := []
  delivered : List UInt8 := []
  refused : List UInt8 := []

/-- What the reader thread meets on its way. -/
inductive Event
  /-- nothing but the shared state -/
  | turn
  /-- what `wait_for_input` returns -/
  | input (ready : Except IoError Bool)
  /-- what the read returns -/
  | read (result : Except IoError (List UInt8))
  | panics

namespace Protocol

variable (w : Protocol)

/-- The wait of `begin_handoff` goes on. -/
def mustWait : Bool :=
  w.state.ioActive && !w.state.threadExited && w.state.terminal.isRunning

/-- `begin_handoff` returns `Ok`. -/
def grant : Protocol := { w with granted := w.granted ++ [w.state.shutdownRequested] }

def advance (capacity : Nat) : Worker → Event → Option Protocol
  | .idle, .turn =>
      match w.state.readCapacityOf capacity with
      | (state, .pending) => some { w with state }
      | (state, .ready none) => some { w with state, worker := .stopping .shutdown }
      | (state, .ready (some room)) => some { w with state, worker := .waiting room }
  | .waiting room, .input (.ok true) => some { w with worker := .checking room }
  | .waiting _, .input (.ok false) => some { w with worker := .interrupted }
  | .waiting _, .input (.error error) =>
      some { w with worker := .stopping (.error (.new error)) }
  | .checking room, .turn =>
      some { w with
        worker := if w.state.shutdownRequested then .stopping .shutdown else .confirming room }
  | .confirming room, .turn =>
      some { w with worker := if w.state.readIsStillNeeded then .reading room else .interrupted }
  | .reading room, .read (.ok bytes) =>
      if bytes.length ≤ room then
        some { w with
          worker := if bytes = [] then .stopping .eof else .appending bytes
          input := w.input ++ bytes }
      else none
  | .reading _, .read (.error error) => some { w with worker := .failed error }
  | .appending bytes, .turn =>
      match w.state.append bytes with
      | (state, true) => some { w with state, worker := .idle }
      | (state, false) =>
          some { w with state, worker := .stopping .shutdown, refused := w.refused ++ bytes }
  | .failed error, .turn =>
      some { w with
        worker := if w.state.shutdownRequested then .stopping .shutdown else .reviewing error }
  | .reviewing error, .turn =>
      some { w with
        worker :=
          if !w.state.readIsStillNeeded then .interrupted
          else if shouldRetryStdinRead error then .interrupted
          else .stopping (.error (.new error)) }
  | .interrupted, .turn => some { w with state := w.state.readInterrupted, worker := .idle }
  | .stopping outcome, .turn =>
      some { w with state := w.state.finish outcome, worker := .exited }
  -- `catch_unwind`: wakers panic on the way back to `read_capacity`, and the source may
  | .idle, .panics | .waiting _, .panics | .reading _, .panics =>
      some { w with worker := .stopping (.error (.new readerPanicked)) }
  | _, _ => none

/-- A step of the reader thread, or a call of a client. -/
inductive Action
  | reader (event : Event)
  | poll (future : ReadFuture) (candidate : Waker)
  /-- a future or a handle is dropped -/
  | abandon (waiterId : Nat)
  | requestShutdown
  | beginHandoff (rejectActive : Bool)
  /-- a waiting `begin_handoff` sees that the read is over -/
  | handoffReturns
  /-- the wait of a `begin_handoff` runs out of time -/
  | handoffTimeout
  | endHandoff (index : Nat)

def step (capacity : Nat) (w : Protocol) : Action → Option Protocol
  | .reader event => w.advance capacity w.worker event
  | .poll future candidate =>
      let (state, poll) := future.poll w.state candidate
      some { w with state, delivered := w.delivered ++ received poll }
  | .abandon waiterId => some { w with state := w.state.abandon waiterId }
  | .requestShutdown => some { w with state := w.state.requestShutdown }
  | .beginHandoff rejectActive =>
      match w.state.beginHandoff rejectActive with
      | (state, .error _) => some { w with state }
      | (state, .ok ()) =>
          if state.threadExited || !state.terminal.isRunning then
            some (grant { w with state })
          else some { w with state, pausing := w.pausing + 1 }
  | .handoffReturns =>
      if 0 < w.pausing ∧ w.mustWait = false then
        some (grant { w with pausing := w.pausing - 1 })
      else none
  | .handoffTimeout =>
      if 0 < w.pausing ∧ w.mustWait = true then
        some { w with state := w.state.handoffTimeout.1, pausing := w.pausing - 1 }
      else none
  | .endHandoff index =>
      if index < w.granted.length then
        some { w with state := w.state.endHandoff, granted := w.granted.eraseIdx index }
      else none

end Protocol

/-! ## Stored wakers -/

namespace State

variable {s s' : State} {waiterId : Nat} {candidate : Waker}

/-- Whoever waits with a stored waker is going to be woken. -/
def Parked (s : State) : Prop :=
  ∀ waiter ∈ s.waiters, waiter.waker ≠ none → s.buffer = [] ∧ s.terminal = .running ∧
    (s.ioActive = true ∨ s.readRequested = true ∨ 0 < s.handoffs)

theorem mem_of_mem_swapRemove {waiters : List Waiter} {index : Nat} {waiter : Waiter}
    (h : waiter ∈ swapRemove waiters index) : waiter ∈ waiters := by
  unfold swapRemove at h
  split at h
  next => exact h
  next last hlast =>
    have hset : waiter ∈ waiters.set index last := List.mem_of_mem_dropLast h
    rcases List.mem_or_eq_of_mem_set hset with hmem | rfl
    · exact hmem
    · exact List.mem_of_getLast? hlast

theorem mem_of_mem_removeWaiter {waiter : Waiter}
    (h : waiter ∈ (s.removeWaiter waiterId).waiters) : waiter ∈ s.waiters := by
  unfold removeWaiter at h
  split at h
  next => exact h
  next => exact mem_of_mem_swapRemove h

/-- Nobody waits with a stored waker after a wake of all. -/
theorem parked_wakeWaiters (s : State) : s.wakeWaiters.Parked := by
  intro waiter hwaiter hwaker
  obtain ⟨old, -, rfl⟩ := List.mem_map.mp hwaiter
  exact absurd rfl hwaker

/-- Only the wakers that were stored before, for the same reasons. -/
theorem Parked.of_subset (h : s.Parked)
    (hmem : ∀ waiter ∈ s'.waiters, waiter.waker ≠ none → waiter ∈ s.waiters)
    (hkept : s'.waiters ≠ [] → s.buffer = [] → s.terminal = .running →
      s.ioActive = true ∨ s.readRequested = true ∨ 0 < s.handoffs →
      s'.buffer = [] ∧ s'.terminal = .running ∧
        (s'.ioActive = true ∨ s'.readRequested = true ∨ 0 < s'.handoffs)) : s'.Parked := by
  intro waiter hwaiter hwaker
  obtain ⟨hbuffer, hrunning, hreason⟩ := h waiter (hmem waiter hwaiter hwaker) hwaker
  exact hkept (List.ne_nil_of_mem hwaiter) hbuffer hrunning hreason

/-! ## The flags -/

/-- The fields that only the reader thread, handoffs and shutdown change. -/
structure SameFlags (s s' : State) : Prop where
  terminal : s'.terminal = s.terminal
  shutdownRequested : s'.shutdownRequested = s.shutdownRequested
  threadExited : s'.threadExited = s.threadExited
  ioActive : s'.ioActive = s.ioActive
  handoffs : s'.handoffs = s.handoffs

theorem sameFlags_removeWaiter (s : State) (waiterId : Nat) :
    SameFlags s (s.removeWaiter waiterId) := by
  unfold removeWaiter
  split <;> exact ⟨rfl, rfl, rfl, rfl, rfl⟩

theorem sameFlags_registerWaiter (s : State) (waiterId : Nat) (candidate : Waker) :
    SameFlags s (s.registerWaiter waiterId candidate) := by
  unfold registerWaiter
  split <;> exact ⟨rfl, rfl, rfl, rfl, rfl⟩

theorem sameFlags_abandon (s : State) (waiterId : Nat) : SameFlags s (s.abandon waiterId) := by
  obtain ⟨h₁, h₂, h₃, h₄, h₅⟩ := sameFlags_removeWaiter s waiterId
  exact ⟨h₁, h₂, h₃, h₄, h₅⟩

theorem removeWaiter_readRequested (s : State) (waiterId : Nat) :
    (s.removeWaiter waiterId).readRequested = s.readRequested := by
  unfold removeWaiter
  split <;> rfl

theorem Parked.removeWaiter (h : s.Parked) (waiterId : Nat) :
    (s.removeWaiter waiterId).Parked := by
  have hflags := sameFlags_removeWaiter s waiterId
  refine h.of_subset (fun waiter hmem _ => mem_of_mem_removeWaiter hmem) ?_
  rw [removeWaiter_buffer, hflags.terminal, hflags.ioActive, hflags.handoffs,
    removeWaiter_readRequested]
  exact fun _ hbuffer hrunning hreason => ⟨hbuffer, hrunning, hreason⟩

theorem Parked.abandon (h : s.Parked) (waiterId : Nat) : (s.abandon waiterId).Parked := by
  refine (h.removeWaiter waiterId).of_subset (fun waiter hmem _ => hmem) ?_
  intro hne hbuffer hrunning hreason
  refine ⟨hbuffer, hrunning, hreason.imp_right (Or.imp_left fun hrequested => ?_)⟩
  have hwaiters : (s.removeWaiter waiterId).waiters ≠ [] := hne
  simp [State.abandon, hrequested, hwaiters]

/-- A read that is interrupted is requested again if it is needed. -/
theorem Parked.readInterrupted (h : s.Parked) : s.readInterrupted.Parked := by
  refine h.of_subset (fun waiter hmem _ => hmem) ?_
  intro hne hbuffer hrunning _
  have hwaiters : s.waiters ≠ [] := hne
  refine ⟨hbuffer, hrunning, Or.inr (Or.inl ?_)⟩
  simp [State.readInterrupted, hwaiters, hbuffer]

/-- The end of the last handoff requests the read that was held back. -/
theorem Parked.endHandoff (h : s.Parked) : s.endHandoff.Parked := by
  refine h.of_subset (fun waiter hmem _ => hmem) ?_
  intro hne hbuffer hrunning _
  have hwaiters : s.waiters ≠ [] := hne
  refine ⟨hbuffer, hrunning, Or.inr ?_⟩
  by_cases hlast : s.handoffs - 1 = 0
  · refine Or.inl ?_
    simp [State.endHandoff, hlast, hwaiters, hbuffer]
  · exact Or.inr (Nat.pos_of_ne_zero hlast)

/-- A refused chunk comes after the wakers were taken, and an accepted one takes them. -/
theorem Parked.append (h : s.Parked) (bytes : List UInt8)
    (hrunning : s.terminal = .running → s.shutdownRequested = false) :
    (s.append bytes).1.Parked := by
  unfold State.append
  by_cases hstop : s.shutdownRequested || !s.terminal.isRunning
  · have hnot : s.terminal ≠ .running := by
      intro hrun
      simp [hrunning hrun, hrun, Terminal.isRunning] at hstop
    simp only [if_pos hstop]
    exact h.of_subset (fun waiter hmem _ => hmem) fun _ _ hrun _ => absurd hrun hnot
  · simp only [if_neg hstop]
    exact parked_wakeWaiters _

/-- The reader takes up the request, or it is idle already. -/
theorem Parked.readCapacityOf (h : s.Parked) (capacity : Nat)
    (hrunning : s.terminal = .running → s.shutdownRequested = false) (hidle : s.ioActive = false) :
    (s.readCapacityOf capacity).1.Parked := by
  unfold State.readCapacityOf
  by_cases hstop : s.shutdownRequested || !s.terminal.isRunning
  · have hnot : s.terminal ≠ .running := by
      intro hrun
      simp [hrunning hrun, hrun, Terminal.isRunning] at hstop
    rw [if_pos hstop]
    exact h.of_subset (fun waiter hmem _ => hmem) fun _ _ hrun _ => absurd hrun hnot
  rw [if_neg hstop]
  split
  · exact h.of_subset (fun waiter hmem _ => hmem)
      fun _ hbuffer hrun _ => ⟨hbuffer, hrun, Or.inl rfl⟩
  · refine h.of_subset (fun waiter hmem _ => hmem) fun _ hbuffer hrun hreason => ⟨hbuffer, hrun, ?_⟩
    exact Or.inr (hreason.resolve_left (by simp [hidle]))

end State

namespace ReadFuture

variable {s : State}

open State

theorem poll_cases (f : ReadFuture) (s : State) (candidate : Waker) :
    (f.poll s candidate).1 = s ∨
      (∃ n, s.buffer ≠ [] ∧
        ((f.poll s candidate).1 = removeWaiter { s with buffer := s.buffer.drop n } f.waiterId ∨
          (f.poll s candidate).1 =
            (removeWaiter { s with buffer := s.buffer.drop n } f.waiterId).wakeWaiters)) ∨
      s.buffer = [] ∧ s.terminal = .running ∧ (f.poll s candidate).1 =
        (if s.ioActive then s.registerWaiter f.waiterId candidate
          else { s.registerWaiter f.waiterId candidate with readRequested := true }) ∨
      s.terminal ≠ .running ∧ (f.poll s candidate).1 = s.removeWaiter f.waiterId := by
  unfold poll
  by_cases hcapacity : f.capacity = 0
  · rw [if_pos hcapacity]
    exact Or.inl rfl
  rw [if_neg hcapacity]
  by_cases hbuffer : s.buffer = []
  · rw [if_neg (by simp [hbuffer])]
    cases hterminal : s.terminal with
    | running =>
        refine Or.inr (Or.inr (Or.inl ⟨hbuffer, rfl, ?_⟩))
        dsimp only
        rw [(sameFlags_registerWaiter s f.waiterId candidate).ioActive]
    | eof => exact Or.inr (Or.inr (Or.inr ⟨nofun, rfl⟩))
    | error snapshot => exact Or.inr (Or.inr (Or.inr ⟨nofun, rfl⟩))
    | shutdown => exact Or.inr (Or.inr (Or.inr ⟨nofun, rfl⟩))
  · rw [if_pos (by simp [hbuffer])]
    refine Or.inr (Or.inl ⟨f.count s.buffer, hbuffer, ?_⟩)
    dsimp only
    split
    · exact Or.inr rfl
    · exact Or.inl rfl

theorem sameFlags_poll (f : ReadFuture) (s : State) (candidate : Waker) :
    SameFlags s (f.poll s candidate).1 := by
  rcases f.poll_cases s candidate with heq | ⟨n, -, heq⟩ | ⟨-, -, heq⟩ | ⟨-, heq⟩
  · rw [heq]
    exact ⟨rfl, rfl, rfl, rfl, rfl⟩
  · obtain ⟨h₁, h₂, h₃, h₄, h₅⟩ :=
      sameFlags_removeWaiter { s with buffer := s.buffer.drop n } f.waiterId
    rcases heq with heq | heq <;> rw [heq] <;> exact ⟨h₁, h₂, h₃, h₄, h₅⟩
  · obtain ⟨h₁, h₂, h₃, h₄, h₅⟩ := sameFlags_registerWaiter s f.waiterId candidate
    rw [heq]
    split <;> exact ⟨h₁, h₂, h₃, h₄, h₅⟩
  · rw [heq]
    exact sameFlags_removeWaiter s f.waiterId

/-- A future stores its waker only after it has seen to it that there will be a read. -/
theorem parked_poll (h : s.Parked) (f : ReadFuture) (candidate : Waker) :
    (f.poll s candidate).1.Parked := by
  rcases f.poll_cases s candidate with heq | ⟨n, hbuffer, heq⟩ | ⟨hbuffer, hrunning, heq⟩ | ⟨-, heq⟩
  · rwa [heq]
  · have hdrained : Parked { s with buffer := s.buffer.drop n } :=
      h.of_subset (fun waiter hmem _ => hmem) fun _ hnil _ _ => absurd hnil hbuffer
    rcases heq with heq | heq <;> rw [heq]
    · exact hdrained.removeWaiter f.waiterId
    · exact parked_wakeWaiters _
  · have hflags := sameFlags_poll f s candidate
    have hnil : (f.poll s candidate).1.buffer = [] := by
      rw [(f.poll_takes s candidate).2, hbuffer, List.drop_nil]
    intro waiter _ _
    refine ⟨hnil, hflags.terminal.trans hrunning, ?_⟩
    cases hactive : s.ioActive with
    | true => exact Or.inl (hflags.ioActive.trans hactive)
    | false =>
        refine Or.inr (Or.inl ?_)
        rw [heq, if_neg (by simp [hactive])]
  · rw [heq]
    exact h.removeWaiter f.waiterId

end ReadFuture

namespace Protocol

variable {w w' : Protocol} {capacity : Nat}

/-! ## The flags and the reader thread -/

/-- The flags say where the reader thread is, and the handoffs are counted. -/
structure Steady (w : Protocol) : Prop where
  running : w.state.terminal = .running →
    w.state.shutdownRequested = false ∧ w.state.threadExited = false
  stopped : w.state.shutdownRequested = false → w.state.threadExited = false →
    w.state.terminal = .running
  active : w.worker.isActive = true → w.state.ioActive = true
  idle : w.worker = .idle → w.state.ioActive = false
  exited : w.state.threadExited = true ↔ w.worker = .exited
  released : w.worker = .exited → w.state.ioActive = false
  counted : w.state.handoffs = w.pausing + w.granted.length
  /-- the reader keeps away from a terminal that was handed over -/
  paused : false ∈ w.granted → w.state.ioActive = false

theorem Steady.init : Steady {} where
  running := fun _ => ⟨rfl, rfl⟩
  stopped := fun _ _ => rfl
  active := nofun
  idle := fun _ => rfl
  exited := by simp
  released := fun _ => rfl
  counted := rfl
  paused := by simp

/-- What does not touch the flags or the reader thread. -/
theorem Steady.congr (h : Steady w) (hflags : State.SameFlags w.state w'.state)
    (hworker : w'.worker = w.worker) (hpausing : w'.pausing = w.pausing)
    (hgranted : w'.granted = w.granted) : Steady w' := by
  obtain ⟨hterminal, hshutdown, hexited, hactive, hhandoffs⟩ := hflags
  obtain ⟨h₁, h₂, h₃, h₄, h₅, h₆, h₇, h₈⟩ := h
  constructor <;>
    simpa only [hterminal, hshutdown, hexited, hactive, hhandoffs, hworker, hpausing, hgranted]

/-- The shutdown is not waited for, but from then on no handoff counts as a safe one. -/
theorem Steady.requestShutdown (h : Steady w) :
    Steady { w with state := w.state.requestShutdown } where
  running := by
    intro hrunning
    have hterminal : (if w.state.terminal.isRunning then Terminal.shutdown
        else w.state.terminal) = .running := hrunning
    split at hterminal
    next => cases hterminal
    next hnot => simp [hterminal, Terminal.isRunning] at hnot
  stopped := nofun
  active := h.active
  idle := h.idle
  exited := h.exited
  released := h.released
  counted := h.counted
  paused := h.paused

theorem Steady.finish {outcome : ThreadOutcome} (h : Steady w)
    (hworker : w.worker = .stopping outcome) :
    Steady { w with state := w.state.finish outcome, worker := .exited } where
  running := by
    intro hrunning
    have hterminal : (if w.state.terminal.isRunning then outcome.terminal
        else w.state.terminal) = .running := hrunning
    split at hterminal
    next => cases outcome <;> cases hterminal
    next hnot => simp [hterminal, Terminal.isRunning] at hnot
  stopped := nofun
  active := nofun
  idle := nofun
  exited := ⟨fun _ => rfl, fun _ => rfl⟩
  released := fun _ => rfl
  counted := h.counted
  paused := fun _ => rfl

theorem Steady.setWorker (h : Steady w) (worker : Worker) (hlive : w.worker ≠ .exited)
    (hactive : worker.isActive = true → w.worker.isActive = true) (hidle : worker ≠ .idle)
    (hexited : worker ≠ .exited) : Steady { w with worker } :=
  { h with
    active := fun hnow => h.active (hactive hnow)
    idle := fun hnow => absurd hnow hidle
    exited := by simp [hexited, h.exited, hlive]
    released := fun hnow => absurd hnow hexited }

theorem Steady.setIdle {state : State} (h : Steady w) (hlive : w.worker ≠ .exited)
    (hterminal : state.terminal = w.state.terminal)
    (hshutdown : state.shutdownRequested = w.state.shutdownRequested)
    (hexited : state.threadExited = w.state.threadExited)
    (hhandoffs : state.handoffs = w.state.handoffs) (hinactive : state.ioActive = false) :
    Steady { w with state, worker := .idle } where
  running := by simpa only [hterminal, hshutdown, hexited] using h.running
  stopped := by simpa only [hterminal, hshutdown, hexited] using h.stopped
  active := nofun
  idle := fun _ => hinactive
  exited := by simp [hexited, h.exited, hlive]
  released := nofun
  counted := hhandoffs.trans h.counted
  paused := fun _ => hinactive

/-- `begin_handoff` returns `Ok` only when it need not wait. -/
theorem Steady.grant (h : Steady w) {handoffs pausing : Nat}
    (hcounted : handoffs = pausing + (w.granted.length + 1)) (hreturn : w.mustWait = false) :
    Steady (Protocol.grant { w with state := { w.state with handoffs }, pausing }) :=
  { h with
    counted := by simpa [Protocol.grant] using hcounted
    paused := by
      intro hmem
      rcases List.mem_append.mp hmem with hold | hnew
      · exact h.paused hold
      · have hnot : w.state.shutdownRequested = false := (List.mem_singleton.mp hnew).symm
        have hinactive : w.state.ioActive = false := by
          cases hexited : w.state.threadExited with
          | true => exact h.released (h.exited.mp hexited)
          | false =>
              have hrunning := h.stopped hnot hexited
              simpa [mustWait, hexited, hrunning, Terminal.isRunning] using hreturn
        exact hinactive }

/-! ## The invariant -/

structure Sound (capacity : Nat) (w : Protocol) : Prop where
  steady : Steady w
  parked : w.state.Parked
  bounded : w.state.buffer.length + w.worker.room ≤ capacity
  /-- what was read is returned, buffered, in the thread's hands or refused, in this order -/
  ordered : w.delivered ++ w.state.buffer ++ w.worker.inHand ++ w.refused = w.input
  refused : w.refused ≠ [] → w.state.shutdownRequested = true ∧ w.worker.isOver = true

theorem Sound.init : Sound capacity {} where
  steady := Steady.init
  parked := by simp [State.Parked]
  bounded := Nat.zero_le capacity
  ordered := rfl
  refused := fun h => absurd rfl h

/-! ### Clients -/

theorem Sound.poll (h : Sound capacity w) (f : ReadFuture) (candidate : Waker) :
    Sound capacity { w with
      state := (f.poll w.state candidate).1
      delivered := w.delivered ++ received (f.poll w.state candidate).2 } := by
  obtain ⟨htaken, hbuffer⟩ := f.poll_takes w.state candidate
  have hflags := f.sameFlags_poll w.state candidate
  refine ⟨h.steady.congr hflags rfl rfl rfl, ReadFuture.parked_poll h.parked f candidate, ?_, ?_, ?_⟩
  · have hbounded := h.bounded
    simp only [hbuffer, List.length_drop]
    omega
  · have hordered := h.ordered
    simp only [htaken, hbuffer]
    rwa [List.append_assoc w.delivered, List.take_append_drop]
  · simpa only [hflags.shutdownRequested] using h.refused

/-- A change of the state that touches neither the flags nor the buffer. -/
theorem Sound.setState {state : State} (h : Sound capacity w)
    (hflags : State.SameFlags w.state state) (hbuffer : state.buffer = w.state.buffer)
    (hparked : state.Parked) : Sound capacity { w with state } where
  steady := h.steady.congr hflags rfl rfl rfl
  parked := hparked
  bounded := by simpa only [hbuffer] using h.bounded
  ordered := by simpa only [hbuffer] using h.ordered
  refused := by simpa only [hflags.shutdownRequested] using h.refused

theorem Sound.abandon (h : Sound capacity w) (waiterId : Nat) :
    Sound capacity { w with state := w.state.abandon waiterId } :=
  h.setState (State.sameFlags_abandon w.state waiterId) (w.state.abandon_buffer waiterId)
    (h.parked.abandon waiterId)

theorem Sound.requestShutdown (h : Sound capacity w) :
    Sound capacity { w with state := w.state.requestShutdown } where
  steady := h.steady.requestShutdown
  parked := State.parked_wakeWaiters _
  bounded := h.bounded
  ordered := h.ordered
  refused := fun hne => ⟨rfl, (h.refused hne).2⟩

/-! ### Handoffs -/

theorem Sound.beginHandoff {rejectActive : Bool} (h : Sound capacity w)
    (hs : step capacity w (.beginHandoff rejectActive) = some w') : Sound capacity w' := by
  simp only [step, State.beginHandoff] at hs
  by_cases hreject : rejectActive && w.state.ioActive
  · simp only [if_pos hreject] at hs
    obtain rfl := Option.some.inj hs
    exact h
  · simp only [if_neg hreject] at hs
    have hparked : State.Parked { w.state with handoffs := w.state.handoffs + 1 } :=
      h.parked.of_subset (fun waiter hmem _ => hmem)
        fun _ hbuffer hrunning _ => ⟨hbuffer, hrunning, Or.inr (Or.inr (Nat.succ_pos _))⟩
    have hcounted := h.steady.counted
    split at hs
    next hstopped =>
      obtain rfl := Option.some.inj hs
      have hreturn : w.mustWait = false := by
        simp only [Bool.or_eq_true, Bool.not_eq_true'] at hstopped
        rcases hstopped with hexited | hnot
        · simp [mustWait, hexited]
        · simp [mustWait, hnot]
      exact ⟨h.steady.grant (by omega) hreturn, hparked, h.bounded, h.ordered, h.refused⟩
    next =>
      obtain rfl := Option.some.inj hs
      refine ⟨{ h.steady with counted := ?_ }, hparked, h.bounded, h.ordered, h.refused⟩
      show w.state.handoffs + 1 = w.pausing + 1 + w.granted.length
      omega

theorem Sound.handoffReturns (h : Sound capacity w)
    (hs : step capacity w .handoffReturns = some w') : Sound capacity w' := by
  obtain ⟨⟨hpausing, hreturn⟩, hs⟩ := Option.ite_none_right_eq_some.mp hs
  obtain rfl := Option.some.inj hs
  have hcounted := h.steady.counted
  have hgranted : w.state.handoffs = w.pausing - 1 + (w.granted.length + 1) := by omega
  exact ⟨h.steady.grant hgranted hreturn, h.parked, h.bounded, h.ordered, h.refused⟩

/-- The read goes on when the wait for it has run out of time. -/
theorem Sound.handoffTimeout (h : Sound capacity w)
    (hs : step capacity w .handoffTimeout = some w') : Sound capacity w' := by
  obtain ⟨⟨hpausing, hwait⟩, hs⟩ := Option.ite_none_right_eq_some.mp hs
  obtain rfl := Option.some.inj hs
  have hcounted := h.steady.counted
  have hactive : w.state.ioActive = true := by
    simp only [mustWait, Bool.and_eq_true] at hwait
    exact hwait.1.1
  refine ⟨{ h.steady with counted := ?_ }, ?_, h.bounded, h.ordered, h.refused⟩
  · simp only [State.handoffTimeout]
    omega
  · exact h.parked.of_subset (fun waiter hmem _ => hmem)
      fun _ hbuffer hrunning _ => ⟨hbuffer, hrunning, Or.inl hactive⟩

theorem Sound.endHandoff {index : Nat} (h : Sound capacity w)
    (hs : step capacity w (.endHandoff index) = some w') : Sound capacity w' := by
  obtain ⟨hindex, hs⟩ := Option.ite_none_right_eq_some.mp hs
  obtain rfl := Option.some.inj hs
  have hcounted := h.steady.counted
  refine ⟨{ h.steady with counted := ?_, paused := ?_ }, h.parked.endHandoff, h.bounded, h.ordered,
    h.refused⟩
  · simp only [State.endHandoff, List.length_eraseIdx_of_lt hindex]
    omega
  · exact fun hmem => h.steady.paused (List.mem_of_mem_eraseIdx hmem)

/-! ### The reader thread -/

/-- Nothing was refused while the thread is in its loop. -/
theorem Sound.refused_eq_nil (h : Sound capacity w) (hlive : w.worker.isOver = false) :
    w.refused = [] := by
  by_contra hne
  have hover := (h.refused hne).2
  rw [hlive] at hover
  cases hover

theorem Sound.moves {old new : Worker} (h : Sound capacity w) (hworker : w.worker = old)
    (hmay : old.MayBecome new) : Sound capacity { w with worker := new } := by
  subst hworker
  obtain ⟨hlive, hactive, hidle, hexited, hroom, hinHand, hinHand'⟩ := hmay
  have hbounded := h.bounded
  have hordered := h.ordered
  refine ⟨?_, h.parked, ?_, ?_, ?_⟩
  · refine h.steady.setWorker new ?_ hactive hidle hexited
    intro heq
    simp [heq] at hlive
  · show w.state.buffer.length + new.room ≤ capacity
    omega
  · rw [hinHand] at hordered
    rwa [hinHand']
  · exact fun hne => absurd (h.refused_eq_nil hlive) hne

theorem Sound.readCapacity (h : Sound capacity w) (hworker : w.worker = .idle)
    (hs : w.advance capacity .idle .turn = some w') : Sound capacity w' := by
  have hinactive := h.steady.idle hworker
  have hparked := h.parked.readCapacityOf capacity (fun hrun => (h.steady.running hrun).1) hinactive
  simp only [advance, State.readCapacityOf] at hs hparked
  by_cases hstop : w.state.shutdownRequested || !w.state.terminal.isRunning
  · simp only [if_pos hstop] at hs hparked
    obtain rfl := Option.some.inj hs
    have hstate : Sound capacity { w with
        state := { w.state with ioActive := false, readerWaiting := false } } :=
      h.setState ⟨rfl, rfl, rfl, hinactive.symm, rfl⟩ rfl hparked
    exact hstate.moves hworker (by simp [Worker.MayBecome])
  simp only [if_neg hstop] at hs hparked
  by_cases hread : w.state.handoffs = 0 ∧ w.state.readRequested = true ∧
      w.state.buffer.length < capacity
  · simp only [if_pos hread] at hs hparked
    obtain rfl := Option.some.inj hs
    have hordered := h.ordered
    have hcounted := h.steady.counted
    refine ⟨?_, hparked, ?_, ?_, ?_⟩
    · exact { h.steady with
        active := fun _ => rfl
        idle := nofun
        exited := by simp [h.steady.exited, hworker]
        released := nofun
        paused := fun hmem => by
          have hpos : 0 < w.granted.length := List.length_pos_of_mem hmem
          have hzero := hread.1
          omega }
    · show w.state.buffer.length + min readerChunkBytes (capacity - w.state.buffer.length) ≤ capacity
      omega
    · rw [hworker] at hordered
      exact hordered
    · exact fun hne => absurd (h.refused_eq_nil (by simp [hworker])) hne
  · simp only [if_neg hread] at hs hparked
    obtain rfl := Option.some.inj hs
    exact h.setState ⟨rfl, rfl, rfl, hinactive.symm, rfl⟩ rfl hparked

theorem Sound.append {bytes : List UInt8} (h : Sound capacity w)
    (hworker : w.worker = .appending bytes)
    (hs : w.advance capacity (.appending bytes) .turn = some w') : Sound capacity w' := by
  have hparked := h.parked.append bytes fun hrun => (h.steady.running hrun).1
  have hnone := h.refused_eq_nil (by simp [hworker])
  have hbounded := h.bounded
  have hordered := h.ordered
  rw [hworker, hnone] at hordered
  rw [hworker] at hbounded
  simp only [advance, State.append] at hs hparked
  by_cases hstop : w.state.shutdownRequested || !w.state.terminal.isRunning
  · simp only [if_pos hstop] at hs hparked
    obtain rfl := Option.some.inj hs
    have hshutdown : w.state.shutdownRequested = true := by
      by_contra hnot
      rw [Bool.not_eq_true] at hnot
      have hrunning := h.steady.stopped hnot (by
        rw [← Bool.not_eq_true, h.steady.exited, hworker]
        nofun)
      simp [hnot, hrunning, Terminal.isRunning] at hstop
    refine ⟨?_, hparked, ?_, ?_, fun _ => ⟨hshutdown, rfl⟩⟩
    · exact { h.steady with
        active := nofun
        idle := nofun
        exited := by simp [h.steady.exited, hworker]
        released := nofun
        paused := fun _ => rfl }
    · exact Nat.le_trans (Nat.le_add_right _ _) hbounded
    · simpa [hnone, Worker.inHand] using hordered
  · simp only [if_neg hstop] at hs hparked
    obtain rfl := Option.some.inj hs
    refine ⟨h.steady.setIdle (by simp [hworker]) rfl rfl rfl rfl rfl, hparked, ?_, ?_, ?_⟩
    · simpa [Worker.room] using hbounded
    · simpa [hnone, Worker.inHand] using hordered
    · exact fun hne => absurd hnone hne

theorem Sound.reads {room : Nat} {bytes : List UInt8} (h : Sound capacity w)
    (hworker : w.worker = .reading room) (hlength : bytes.length ≤ room) :
    Sound capacity { w with
      worker := if bytes = [] then .stopping .eof else .appending bytes
      input := w.input ++ bytes } := by
  have hnone := h.refused_eq_nil (by simp [hworker])
  have hordered := h.ordered
  have hbounded := h.bounded
  rw [hworker] at hordered hbounded
  split
  next hnil =>
    have hmoved : Sound capacity { w with worker := .stopping .eof } :=
      h.moves hworker (by simp [Worker.MayBecome])
    simpa [hnil] using hmoved
  next hne =>
    refine ⟨?_, h.parked, ?_, ?_, fun hrefused => absurd hnone hrefused⟩
    · have hsteady := h.steady.setWorker (.appending bytes) (by simp [hworker]) (by simp [hworker])
        nofun nofun
      exact hsteady.congr ⟨rfl, rfl, rfl, rfl, rfl⟩ rfl rfl rfl
    · simp only [Worker.room] at hbounded ⊢
      omega
    · simp [← hordered, hnone]

theorem Sound.readInterrupted (h : Sound capacity w) (hworker : w.worker = .interrupted) :
    Sound capacity { w with state := w.state.readInterrupted, worker := .idle } := by
  have hordered := h.ordered
  have hbounded := h.bounded
  rw [hworker] at hordered hbounded
  exact ⟨h.steady.setIdle (by simp [hworker]) rfl rfl rfl rfl rfl, h.parked.readInterrupted,
    hbounded, hordered, fun hne => absurd (h.refused_eq_nil (by simp [hworker])) hne⟩

theorem Sound.finish {outcome : ThreadOutcome} (h : Sound capacity w)
    (hworker : w.worker = .stopping outcome) :
    Sound capacity { w with state := w.state.finish outcome, worker := .exited } := by
  have hordered := h.ordered
  have hbounded := h.bounded
  rw [hworker] at hordered hbounded
  exact ⟨h.steady.finish hworker, State.parked_wakeWaiters _, hbounded, hordered,
    fun hne => ⟨(h.refused hne).1, rfl⟩⟩

theorem Sound.advance {event : Event} (h : Sound capacity w)
    (hs : w.advance capacity w.worker event = some w') : Sound capacity w' := by
  generalize hworker : w.worker = worker at hs
  cases worker with
  | idle =>
      cases event with
      | turn => exact h.readCapacity hworker hs
      | panics =>
          obtain rfl := Option.some.inj hs
          exact h.moves hworker (by simp [Worker.MayBecome])
      | input ready => cases hs
      | read result => cases hs
  | waiting room =>
      rcases event with _ | ready | result | _
      · cases hs
      · rcases ready with error | _ | _ <;> obtain rfl := Option.some.inj hs <;>
          exact h.moves hworker (by simp [Worker.MayBecome])
      · cases hs
      · obtain rfl := Option.some.inj hs
        exact h.moves hworker (by simp [Worker.MayBecome])
  | checking room =>
      cases event with
      | turn =>
          obtain rfl := Option.some.inj hs
          refine h.moves hworker ?_
          split <;> simp [Worker.MayBecome]
      | input ready => cases hs
      | read result => cases hs
      | panics => cases hs
  | confirming room =>
      cases event with
      | turn =>
          obtain rfl := Option.some.inj hs
          refine h.moves hworker ?_
          split <;> simp [Worker.MayBecome]
      | input ready => cases hs
      | read result => cases hs
      | panics => cases hs
  | reading room =>
      rcases event with _ | ready | (error | bytes) | _
      · cases hs
      · cases hs
      · obtain rfl := Option.some.inj hs
        exact h.moves hworker (by simp [Worker.MayBecome])
      · obtain ⟨hlength, hs⟩ := Option.ite_none_right_eq_some.mp hs
        obtain rfl := Option.some.inj hs
        exact h.reads hworker hlength
      · obtain rfl := Option.some.inj hs
        exact h.moves hworker (by simp [Worker.MayBecome])
  | appending bytes =>
      cases event with
      | turn => exact h.append hworker hs
      | input ready => cases hs
      | read result => cases hs
      | panics => cases hs
  | failed error =>
      cases event with
      | turn =>
          obtain rfl := Option.some.inj hs
          refine h.moves hworker ?_
          split <;> simp [Worker.MayBecome]
      | input ready => cases hs
      | read result => cases hs
      | panics => cases hs
  | reviewing error =>
      cases event with
      | turn =>
          obtain rfl := Option.some.inj hs
          refine h.moves hworker ?_
          split
          · simp [Worker.MayBecome]
          · split <;> simp [Worker.MayBecome]
      | input ready => cases hs
      | read result => cases hs
      | panics => cases hs
  | interrupted =>
      cases event with
      | turn =>
          obtain rfl := Option.some.inj hs
          exact h.readInterrupted hworker
      | input ready => cases hs
      | read result => cases hs
      | panics => cases hs
  | stopping outcome =>
      cases event with
      | turn =>
          obtain rfl := Option.some.inj hs
          exact h.finish hworker
      | input ready => cases hs
      | read result => cases hs
      | panics => cases hs
  | exited => cases event <;> cases hs

theorem Sound.step {a : Action} (h : Sound capacity w) (hs : step capacity w a = some w') :
    Sound capacity w' := by
  cases a with
  | reader event => exact h.advance hs
  | poll future candidate =>
      obtain rfl := Option.some.inj hs
      exact h.poll future candidate
  | abandon waiterId =>
      obtain rfl := Option.some.inj hs
      exact h.abandon waiterId
  | requestShutdown =>
      obtain rfl := Option.some.inj hs
      exact h.requestShutdown
  | beginHandoff rejectActive => exact h.beginHandoff hs
  | handoffReturns => exact h.handoffReturns hs
  | handoffTimeout => exact h.handoffTimeout hs
  | endHandoff index => exact h.endHandoff hs

/-! ## Runs -/

theorem sound_of_reachable (hreach : Reachable (step capacity) (fun _ _ => True) {} w) :
    Sound capacity w :=
  hreach.invariant (Sound capacity) Sound.init fun _ _ _ h _ hs => h.step hs

/-- In every run of the reader thread, the read futures, the handoffs and the shutdown: the buffer
stays within its capacity; what was read is returned once, in order, or is still on its way,
unless it was refused after a shutdown; whoever waits with a stored waker is going to be woken;
the reader does not read from a terminal that was handed over before a shutdown was requested; and
the handoffs that began and have not ended or failed are counted. -/
theorem protocol_of_reachable (hreach : Reachable (step capacity) (fun _ _ => True) {} w) :
    w.state.buffer.length ≤ capacity ∧
      w.delivered ++ w.state.buffer ++ w.worker.inHand ++ w.refused = w.input ∧
      (w.refused ≠ [] → w.state.shutdownRequested = true) ∧
      (∀ waiter ∈ w.state.waiters, waiter.waker ≠ none →
        w.state.buffer = [] ∧ w.state.terminal = .running ∧ w.worker ≠ .exited ∧
          (w.state.ioActive = true ∧ w.worker ≠ .idle ∨ w.state.readRequested = true ∨
            0 < w.state.handoffs)) ∧
      (false ∈ w.granted → ∀ room, w.worker ≠ .reading room) ∧
      w.state.handoffs = w.pausing + w.granted.length := by
  have h := sound_of_reachable hreach
  refine ⟨Nat.le_trans (Nat.le_add_right _ _) h.bounded, h.ordered, fun hne => (h.refused hne).1, ?_,
    ?_, h.steady.counted⟩
  · intro waiter hmem hwaker
    obtain ⟨hbuffer, hrunning, hreason⟩ := h.parked waiter hmem hwaker
    refine ⟨hbuffer, hrunning, ?_, hreason.imp_left fun hactive => ⟨hactive, ?_⟩⟩
    · intro hexited
      have hnot := (h.steady.running hrunning).2
      rw [h.steady.exited.mpr hexited] at hnot
      cases hnot
    · intro hidle
      rw [h.steady.idle hidle] at hactive
      cases hactive
  · intro hgranted room hreading
    have hactive := h.steady.active (by simp [hreading])
    rw [h.steady.paused hgranted] at hactive
    cases hactive

/-- Two futures wait; a handoff waits for the read, which is interrupted, and begins. -/
def pausedRead : List Action :=
  [.poll ⟨1, 4, false⟩ 11, .reader .turn, .poll ⟨2, 4, false⟩ 12, .beginHandoff false,
    .reader (.input (.ok false)), .reader .turn, .handoffReturns]

theorem protocol_after_paused : ∃ w, Reachable (step bufferCapacity) (fun _ _ => True) {} w ∧
    w.granted = [false] ∧ w.state.waiters = [⟨1, some 11⟩, ⟨2, some 12⟩] ∧
    ∀ room, w.worker ≠ .reading room := by
  obtain ⟨w, hreach, hw⟩ := Reachable.exists_of_run (step bufferCapacity) (fun _ _ => True) {}
    pausedRead
    (fun w => w.granted = [false] ∧ w.state.waiters = [⟨1, some 11⟩, ⟨2, some 12⟩])
    (by simp) (by decide)
  obtain ⟨hgranted, hwaiters⟩ := of_decide_eq_true hw
  obtain ⟨-, -, -, -, hpaused, -⟩ := protocol_of_reachable hreach
  exact ⟨w, hreach, hgranted, hwaiters, hpaused (by simp [hgranted])⟩

/-- A handoff does not wait for a reader that was told to shut down, though it is in a read. -/
theorem handoff_granted_during_read : ∃ w, Reachable (step bufferCapacity) (fun _ _ => True) {} w ∧
    w.granted ≠ [] ∧ ∃ room, w.worker = .reading room := by
  obtain ⟨w, hreach, hw⟩ := Reachable.exists_of_run (step bufferCapacity) (fun _ _ => True) {}
    [.poll ⟨1, 4, false⟩ 11, .reader .turn, .reader (.input (.ok true)), .reader .turn,
      .reader .turn, .requestShutdown, .beginHandoff false]
    (fun w => w.granted = [true] ∧ w.worker = .reading readerChunkBytes) (by simp) (by decide)
  obtain ⟨hgranted, hworker⟩ := of_decide_eq_true hw
  exact ⟨w, hreach, by simp [hgranted], readerChunkBytes, hworker⟩

end Protocol

end Runite.Stdio
