import Runite.Fs.FileCursor

/-!
# Rewinds that fail

A write and a seek of a file give the bytes that were read ahead back to the
kernel: `poll_reconcile` of the read side takes them out of the state, and the
`rewind` of the caller moves the cursor over them.  When the rewind fails, as it
does for a descriptor without a cursor, the bytes have left the state already.
-/

namespace Runite.Io

namespace ReadState

variable {s : ReadState} {bytes : Nat}

theorem length_ahead_of_readAhead (h : s.readAhead = some bytes) : s.ahead.length = bytes := by
  have hrest : s.rest.length = s.retained := by
    unfold rest retained
    cases s.overflow with
    | none => rfl
    | some overflow => simp [ReadOverflow.rest, ReadOverflow.remaining]
  unfold readAhead at h
  rw [ahead, List.length_append, hrest]
  cases hop : s.operation with
  | none => simpa [hop, bytesOf] using h
  | some operation =>
      rcases houtcome : operation.outcome with _ | error | data
      · simp [hop, houtcome] at h
      · simpa [hop, houtcome, bytesOf] using h
      · simp only [hop, houtcome, Option.ite_none_right_eq_some, Option.some.injEq] at h
        simpa [houtcome, bytesOf] using h.2

/-- Settling a side that can be settled leaves nothing of what was read ahead. -/
theorem pollReconcile_of_readAhead (waker : Waker) (h : s.readAhead = some bytes) :
    (s.pollReconcile waker).2 = .ready (.ok bytes) ∧
      (s.pollReconcile waker).1.ahead = [] ∧ (s.pollReconcile waker).1.SingleSlot := by
  refine ⟨(s.pollReconcile_ready_iff waker bytes).mpr h, ?_⟩
  unfold readAhead at h
  unfold pollReconcile
  cases hop : s.operation with
  | none => simp [hop, ahead, rest, bytesOf, SingleSlot]
  | some operation =>
      rcases houtcome : operation.outcome with _ | error | data
      · simp [hop, houtcome] at h
      · simp [hop, houtcome, ahead, rest, bytesOf, SingleSlot]
      · have hfits : s.retained + data.length < usizeLimit := by
          by_contra hlarge
          simp [hop, houtcome, hlarge] at h
        simp [hop, houtcome, hfits, ahead, rest, bytesOf, SingleSlot]

end ReadState

namespace CursorState

/-! ## The reads that follow -/

/-- A read that follows, or the completion of the write in flight. -/
inductive ReadEvent
  | read (waker : Waker) (capacity : Nat)
  | completeWrite (result : Except IoError Nat)
  deriving DecidableEq

/-- Perform an event, with the bytes it hands out.  No new read of the kernel
completes, so every byte was read before. -/
def readEvent (s : CursorState) : ReadEvent → Option (CursorState × List UInt8)
  | .read waker capacity =>
      (s.pollReadSlice waker capacity none).map fun (s, poll) => (s, received poll)
  | .completeWrite result =>
      (s.write.complete result).map fun write => ({ s with write := write }, [])

/-- The bytes that a sequence of events hands out. -/
def readAll : CursorState → List ReadEvent → Option (List UInt8)
  | _, [] => some []
  | s, event :: events =>
      (s.readEvent event).bind fun (s, bytes) =>
        (s.readAll events).map fun rest => bytes ++ rest

/-- Some sequence of reads gets exactly these bytes. -/
def Delivers (s : CursorState) (bytes : List UInt8) : Prop :=
  ∃ events, s.readAll events = some bytes

variable {s s' : CursorState} {rewind : Nat → Except IoError Unit} {error : IoError}

/-- A cursor with nothing read ahead hands out nothing. -/
theorem nothing_of_readEvent {event : ReadEvent} {bytes : List UInt8}
    (hslot : s.read.SingleSlot) (hahead : s.read.ahead = [])
    (h : s.readEvent event = some (s', bytes)) :
    bytes = [] ∧ s'.read.SingleSlot ∧ s'.read.ahead = [] := by
  cases event with
  | read waker capacity =>
      obtain ⟨⟨t, poll⟩, hread, heq⟩ := Option.map_eq_some_iff.mp h
      cases heq
      obtain ⟨⟨write, drain⟩, -, heq⟩ := Option.map_eq_some_iff.mp hread
      cases drain with
      | pending =>
          cases heq
          exact ⟨rfl, hslot, hahead⟩
      | ready =>
          cases heq
          obtain ⟨hslot', hsplit⟩ := ReadState.pollSlice_spec hslot waker capacity none
          have hnone := List.append_eq_nil_iff.mp (hsplit.trans (by simp [hahead, bytesOf]))
          exact ⟨hnone.1, hslot', hnone.2⟩
  | completeWrite result =>
      obtain ⟨write, -, heq⟩ := Option.map_eq_some_iff.mp h
      cases heq
      exact ⟨rfl, hslot, hahead⟩

/-- A cursor with nothing read ahead delivers nothing. -/
theorem eq_nil_of_readAll {events : List ReadEvent} {bytes : List UInt8}
    (hslot : s.read.SingleSlot) (hahead : s.read.ahead = [])
    (h : s.readAll events = some bytes) : bytes = [] := by
  induction events generalizing s bytes with
  | nil => exact (Option.some.inj h).symm
  | cons event events ih =>
      obtain ⟨⟨t, first⟩, hevent, htail⟩ := Option.bind_eq_some_iff.mp h
      obtain ⟨rest, hrest, rfl⟩ := Option.map_eq_some_iff.mp htail
      obtain ⟨rfl, hslot', hahead'⟩ := nothing_of_readEvent hslot hahead hevent
      rw [ih hslot' hahead' hrest]
      rfl

/-- A cursor with nothing read ahead delivers no bytes. -/
theorem not_delivers {bytes : List UInt8} (hslot : s.read.SingleSlot)
    (hahead : s.read.ahead = []) (hbytes : bytes ≠ []) : ¬ s.Delivers bytes := by
  rintro ⟨events, hevents⟩
  exact hbytes (eq_nil_of_readAll hslot hahead hevents)

/-- A call has returned this error, and the bytes that were read ahead of it are
lost to the reads that follow. -/
def Loses {τ : Type} (s : CursorState) (error : τ) (called : Option (CursorState × τ)) : Prop :=
  ∃ s', called = some (s', error) ∧ ¬ s'.Delivers s.read.ahead

/-- The rewind has failed: its error comes back and nothing is read ahead. -/
theorem reconcileRead_of_error (waker : Waker) (hsettled : s.read.readAhead.isSome)
    (hrewind : rewind s.read.ahead.length = .error error) :
    ∃ read, s.reconcileRead waker rewind = (⟨read, s.write⟩, .ready (.error error)) ∧
      read.SingleSlot ∧ read.ahead = [] := by
  obtain ⟨bytes, hbytes⟩ := Option.isSome_iff_exists.mp hsettled
  obtain ⟨hpoll, hahead, hslot⟩ := ReadState.pollReconcile_of_readAhead waker hbytes
  rw [ReadState.length_ahead_of_readAhead hbytes] at hrewind
  refine ⟨(s.read.pollReconcile waker).1, ?_, hslot, hahead⟩
  unfold reconcileRead
  rcases hread : s.read.pollReconcile waker with ⟨read, poll⟩
  obtain rfl : poll = .ready (.ok bytes) := by rw [← hpoll, hread]
  simp [hrewind]

end CursorState

end Runite.Io

namespace Runite.Fs

open Io

/-- A write and a seek whose rewind fails get its error, and what was read ahead
of them is lost, whatever it is: the reads that follow never get it. -/
theorem loses_of_rewind_error {s : CursorState} {rewind : Nat → Except IoError Unit}
    {error : IoError} (waker : Waker) (generation : Generation) (buf : Buf)
    (start : Option (Except IoError Nat)) (hahead : s.read.ahead ≠ [])
    (hsettled : s.read.readAhead.isSome)
    (hrewind : rewind s.read.ahead.length = .error error) :
    s.Loses (.ready ⟨.error error, none⟩) (s.pollWrite waker generation buf rewind start) ∧
      s.Loses (.ready (.error error)) (s.pollReconcile waker rewind) := by
  obtain ⟨read, hreconcile, hslot, hnil⟩ :=
    CursorState.reconcileRead_of_error waker hsettled hrewind
  have hlost : ¬ CursorState.Delivers ⟨read, s.write⟩ s.read.ahead :=
    CursorState.not_delivers hslot hnil hahead
  refine ⟨⟨⟨read, s.write⟩, ?_, hlost⟩, ⟨read, s.write⟩, ?_, hlost⟩
  · simp [CursorState.pollWrite, hreconcile]
  · simp [CursorState.pollReconcile, hreconcile]

/-- `ESPIPE`: the descriptor has no cursor. -/
def illegalSeek : IoError := { kind := .other 29, rawOsError := some 29, message := "Illegal seek" }

/-- The second of two bytes of a read of a pipe is left over. -/
def leftOver : CursorState := { read := { overflow := some ⟨[1, 2], 1, by decide⟩ } }

/-- A read of a pipe completed for a reader who has gone. -/
def readAbandoned : CursorState := { read := { operation := some { outcome := some (.ok [7]) } } }

/-- A left-over byte is lost to the rewind of a write or of a seek on a pipe. -/
theorem loses_leftOver :
    let rewind := rewindFileCursor (.error illegalSeek)
    leftOver.Loses (.ready ⟨.error illegalSeek, none⟩)
        (leftOver.pollWrite 1 0 ⟨100, [9]⟩ rewind none) ∧
      leftOver.Loses (.ready (.error illegalSeek)) (leftOver.pollReconcile 1 rewind) :=
  loses_of_rewind_error 1 0 ⟨100, [9]⟩ none (by decide) (by decide) (by decide)

/-- Reads get the bytes of both states, and none of them after a write or a seek
whose rewind has failed. -/
theorem not_delivers_after_failed_rewind :
    (leftOver.Delivers [2] ∧
      ∃ s', leftOver.pollWrite 1 0 ⟨100, [9]⟩ (rewindFileCursor (.error illegalSeek)) none =
          some (s', .ready ⟨.error illegalSeek, none⟩) ∧ ¬ s'.Delivers [2]) ∧
      readAbandoned.Delivers [7] ∧
      ∃ s', readAbandoned.pollReconcile 1 (rewindFileCursor (.error illegalSeek)) =
          some (s', .ready (.error illegalSeek)) ∧ ¬ s'.Delivers [7] :=
  ⟨⟨⟨[.read 1 1], by decide⟩, _, rfl, CursorState.not_delivers (Or.inl rfl) rfl (by decide)⟩,
    ⟨[.read 1 1], by decide⟩, _, rfl, CursorState.not_delivers (Or.inl rfl) rfl (by decide)⟩

end Runite.Fs
