import Runite.Io.ReadState
import Runite.Io.WriteRuns

/-!
# Serialized reads and writes

`io::pending::CursorState`: the state of a file, whose reads and writes move
one cursor.  A read first drains the writes; a write and a seek first settle the
read in flight and give back the bytes that were read ahead.
-/

namespace Runite.Io

structure CursorState where
  read : ReadState := {}
  write : WriteState := {}

namespace CursorState

variable (s : CursorState)

def pollReadSlice (waker : Waker) (capacity : Nat)
    (start : Option (Except IoError (List UInt8))) :
    Option (CursorState × Poll (Except IoError (List UInt8))) :=
  (s.write.pollDrain waker).map fun
    | (write, .pending) => ({ s with write := write }, .pending)
    | (write, .ready ()) =>
        let (read, poll) := s.read.pollSlice waker capacity start
        (⟨read, write⟩, poll)

def reconcileRead (waker : Waker) (rewind : Nat → Except IoError Unit) :
    CursorState × Poll (Except IoError Unit) :=
  match s.read.pollReconcile waker with
  | (read, .ready (.ok bytes)) => ({ s with read := read }, .ready (rewind bytes))
  | (read, .ready (.error error)) => ({ s with read := read }, .ready (.error error))
  | (read, .pending) => ({ s with read := read }, .pending)

def pollWrite (waker : Waker) (generation : Generation) (buf : Buf)
    (rewind : Nat → Except IoError Unit) (start : Option (Except IoError Nat)) :
    Option (CursorState × Poll (Reply Nat)) :=
  match s.reconcileRead waker rewind with
  | (s, .ready (.ok ())) =>
      (s.write.pollWrite waker generation buf start).map fun (write, poll) =>
        ({ s with write := write }, poll)
  | (s, .ready (.error error)) => some (s, .ready ⟨.error error, none⟩)
  | (s, .pending) => some (s, .pending)

def pollFlush (waker : Waker) : Option (CursorState × Poll (Reply Unit)) :=
  (s.write.pollFlush waker).map fun (write, poll) => ({ s with write := write }, poll)

def pollReconcile (waker : Waker) (rewind : Nat → Except IoError Unit) :
    Option (CursorState × Poll (Except IoError Unit)) :=
  match s.reconcileRead waker rewind with
  | (s, .ready (.ok ())) =>
      (s.write.pollDrain waker).map fun (write, poll) =>
        ({ s with write := write }, poll.map fun () => .ok ())
  | (s, .ready (.error error)) => some (s, .ready (.error error))
  | (s, .pending) => some (s, .pending)

/-! ## When the write side is reached -/

/-- The read side is settled, and what was read ahead can be given back. -/
def reconciles (rewind : Nat → Except IoError Unit) : Bool :=
  s.read.readAhead.any fun bytes => rewind bytes = .ok ()

variable {s} {s' : CursorState} {waker : Waker} {generation : Generation} {buf : Buf}
  {rewind : Nat → Except IoError Unit} {start : Option (Except IoError Nat)}

/-- Settling the read side leaves the writes alone, and goes through exactly
when `reconciles` says so. -/
theorem exists_reconcileRead (s : CursorState) (waker : Waker)
    (rewind : Nat → Except IoError Unit) :
    ∃ read poll, s.reconcileRead waker rewind = (⟨read, s.write⟩, poll) ∧
      (s.reconciles rewind = true ↔ poll = .ready (.ok ())) := by
  have hanswer := s.read.pollReconcile_ready_iff waker
  unfold reconcileRead reconciles
  rcases hread : s.read.pollReconcile waker with ⟨read, (error | bytes) | _⟩
  · refine ⟨read, .ready (.error error), rfl, ?_⟩
    have hnone : s.read.readAhead = none :=
      Option.eq_none_iff_forall_ne_some.mpr (by simpa [hread] using hanswer)
    simp [hnone]
  · refine ⟨read, .ready (rewind bytes), rfl, ?_⟩
    have hsome : s.read.readAhead = some bytes := (hanswer bytes).mp (by rw [hread])
    simp [hsome]
  · refine ⟨read, .pending, rfl, ?_⟩
    have hnone : s.read.readAhead = none :=
      Option.eq_none_iff_forall_ne_some.mpr (by simpa [hread] using hanswer)
    simp [hnone]

theorem cases_of_pollWrite {poll : Poll (Reply Nat)}
    (h : s.pollWrite waker generation buf rewind start = some (s', poll)) :
    s.reconciles rewind = true ∧
        s.write.pollWrite waker generation buf start = some (s'.write, poll) ∨
      s.reconciles rewind = false ∧ s'.write = s.write ∧
        (poll = .pending ∨ ∃ error, poll = .ready ⟨.error error, none⟩) := by
  obtain ⟨read, settled, hread, hiff⟩ := exists_reconcileRead s waker rewind
  unfold pollWrite at h
  rw [hread] at h
  rcases settled with (error | ⟨⟩) | _
  · cases h
    exact Or.inr ⟨by simpa using hiff, rfl, Or.inr ⟨error, rfl⟩⟩
  · obtain ⟨⟨write, poll'⟩, hwrite, heq⟩ := Option.map_eq_some_iff.mp h
    cases heq
    exact Or.inl ⟨hiff.mpr rfl, hwrite⟩
  · cases h
    exact Or.inr ⟨by simpa using hiff, rfl, Or.inl rfl⟩

/-- `poll_reconcile` leaves the writes alone, or drains them. -/
theorem cases_of_pollReconcile {poll : Poll (Except IoError Unit)}
    (h : s.pollReconcile waker rewind = some (s', poll)) :
    s'.write = s.write ∨ ∃ drain, s.write.pollDrain waker = some (s'.write, drain) := by
  obtain ⟨read, settled, hread, -⟩ := exists_reconcileRead s waker rewind
  unfold pollReconcile at h
  rw [hread] at h
  rcases settled with (error | ⟨⟩) | _
  · cases h
    exact Or.inl rfl
  · obtain ⟨⟨write, drain⟩, hwrite, heq⟩ := Option.map_eq_some_iff.mp h
    cases heq
    exact Or.inr ⟨drain, hwrite⟩
  · cases h
    exact Or.inl rfl

theorem drained_of_pollReadSlice {capacity : Nat} {start : Option (Except IoError (List UInt8))}
    {poll : Poll (Except IoError (List UInt8))}
    (h : s.pollReadSlice waker capacity start = some (s', poll)) :
    ∃ drain, s.write.pollDrain waker = some (s'.write, drain) := by
  obtain ⟨⟨write, drain⟩, hwrite, heq⟩ := Option.map_eq_some_iff.mp h
  cases drain <;> cases heq <;> exact ⟨_, hwrite⟩

theorem read_of_pollWrite {poll : Poll (Reply Nat)}
    (h : s.pollWrite waker generation buf rewind start = some (s', poll)) :
    s'.read = (s.read.pollReconcile waker).1 := by
  unfold pollWrite reconcileRead at h
  rcases hread : s.read.pollReconcile waker with ⟨read, (error | bytes) | _⟩ <;> rw [hread] at h
  · cases h
    rfl
  · cases hrewind : rewind bytes with
    | ok =>
        simp only [hrewind] at h
        obtain ⟨⟨write, poll'⟩, -, heq⟩ := Option.map_eq_some_iff.mp h
        cases heq
        rfl
    | error error =>
        simp only [hrewind] at h
        cases h
        rfl
  · cases h
    rfl

theorem read_of_pollReconcile {poll : Poll (Except IoError Unit)}
    (h : s.pollReconcile waker rewind = some (s', poll)) :
    s'.read = (s.read.pollReconcile waker).1 := by
  unfold pollReconcile reconcileRead at h
  rcases hread : s.read.pollReconcile waker with ⟨read, (error | bytes) | _⟩ <;> rw [hread] at h
  · cases h
    rfl
  · cases hrewind : rewind bytes with
    | ok =>
        simp only [hrewind] at h
        obtain ⟨⟨write, drain⟩, -, heq⟩ := Option.map_eq_some_iff.mp h
        cases heq
        rfl
    | error error =>
        simp only [hrewind] at h
        cases h
        rfl
  · cases h
    rfl

end CursorState

end Runite.Io
