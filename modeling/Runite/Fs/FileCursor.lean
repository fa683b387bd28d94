import Runite.Fs.FileWrites
import Runite.Lib.SequentialCursor

/-!
# The cursor of a file

The handles of a file together with the open file description behind them,
whose cursor every read, write and seek of the kernel moves.  The kernel may
have read bytes that no reader got: they wait in the `ReadState`, or in the
operation that completed for a reader who has gone.  A write and a seek set the
kernel's cursor back by them first, so that users see one sequential cursor.
-/

namespace Runite.Io

/-! ## What was read ahead -/

def bytesOf : Option (Except IoError (List UInt8)) → List UInt8
  | some (.ok data) => data
  | _ => []

namespace ReadState

variable (s : ReadState)

/-- `poll_with` calls the factory. -/
def startsRead (capacity : Nat) : Bool :=
  capacity ≠ 0 && !s.shutdown.requested && s.overflow.isNone && s.operation.isNone

/-- The bytes that the kernel has read and no reader got. -/
def ahead : List UInt8 := s.rest ++ bytesOf (s.operation.bind (·.outcome))

/-- A read in flight and bytes left over from an earlier one exclude each other. -/
def SingleSlot : Prop := s.overflow = none ∨ s.operation = none

variable {s} {waker : Waker} {capacity : Nat} {start : Option (Except IoError (List UInt8))}

/-- What has arrived for the operation that a poll comes to. -/
theorem bytesOf_currentOperation (start : Option (Except IoError (List UInt8)))
    (hoverflow : s.overflow = none) (hcapacity : capacity ≠ 0)
    (hshutdown : s.shutdown.requested = false) :
    bytesOf (s.currentOperation start).outcome =
      s.ahead ++ if s.startsRead capacity then bytesOf start else [] := by
  cases hop : s.operation with
  | none => simp [currentOperation, startsRead, ahead, rest, bytesOf, *]
  | some operation => simp [currentOperation, startsRead, ahead, rest, *]

/-- A poll hands out the front of what was read ahead, or of what arrives at once. -/
theorem pollSlice_spec (h : s.SingleSlot) (waker : Waker) (capacity : Nat)
    (start : Option (Except IoError (List UInt8))) :
    (s.pollSlice waker capacity start).1.SingleSlot ∧
      received (s.pollSlice waker capacity start).2 ++ (s.pollSlice waker capacity start).1.ahead =
        s.ahead ++ if s.startsRead capacity then bytesOf start else [] := by
  by_cases hcapacity : capacity = 0
  · simpa [pollSlice, pollWith, startsRead, hcapacity] using h
  by_cases hshutdown : s.shutdown.requested
  · simpa [pollSlice, pollWith, startsRead, hcapacity, hshutdown] using h
  rw [Bool.not_eq_true] at hshutdown
  cases hoverflow : s.overflow with
  | some overflow =>
      have hop : s.operation = none := h.resolve_left (by simp [hoverflow])
      have hop' : (s.pollSlice waker capacity start).1.operation = none := by
        simpa [pollSlice, pollWith, hcapacity, hshutdown, hoverflow] using hop
      have hrest := s.received_pollSlice_of_not_polled (by simp [hoverflow]) waker capacity start
      refine ⟨Or.inr hop', ?_⟩
      simpa [ahead, hop, hop', startsRead, hoverflow, bytesOf] using hrest
  | none =>
      rw [← bytesOf_currentOperation start hoverflow hcapacity hshutdown]
      simp only [pollSlice, pollWith, hcapacity, hshutdown, hoverflow, Bool.false_eq_true, ↓reduceIte]
      rcases houtcome : (s.currentOperation start).outcome with _ | error | data
      · simp [SingleSlot, ahead, rest, bytesOf, hoverflow, houtcome, PendingOperation.await]
      · simp [SingleSlot, ahead, rest, bytesOf, hoverflow]
      · dsimp only
        split
        next hlt =>
          simp [SingleSlot, ahead, rest, bytesOf, ReadOverflow.rest]
        next hge =>
          have hle : data.length ≤ capacity := by omega
          simp [SingleSlot, ahead, rest, bytesOf, hoverflow, hle]

/-- Reconciling takes out what was read ahead, or waits for the read in flight. -/
theorem pollReconcile_spec (h : s.SingleSlot) (hfits : s.ahead.length < usizeLimit)
    (waker : Waker) :
    ((s.pollReconcile waker).2 = .pending ∧ s.ahead = [] ∧
        (s.pollReconcile waker).1.ahead = [] ∧ (s.pollReconcile waker).1.SingleSlot) ∨
      ((s.pollReconcile waker).2 = .ready (.ok s.ahead.length) ∧
        (s.pollReconcile waker).1.overflow = none ∧ (s.pollReconcile waker).1.operation = none) := by
  cases hop : s.operation with
  | none =>
      refine Or.inr ?_
      cases hoverflow : s.overflow <;>
        simp [pollReconcile, hop, retained, ahead, rest, bytesOf, hoverflow, ReadOverflow.rest,
          ReadOverflow.remaining]
  | some operation =>
      have hoverflow : s.overflow = none := h.resolve_right (by simp [hop])
      rcases houtcome : operation.outcome with _ | error | data
      · refine Or.inl ?_
        simp [pollReconcile, hop, houtcome, hoverflow, ahead, rest, bytesOf, SingleSlot,
          PendingOperation.await]
      · refine Or.inr ?_
        simp [pollReconcile, hop, houtcome, hoverflow, ahead, rest, bytesOf, retained]
      · refine Or.inr ?_
        have hlt : data.length < usizeLimit := by
          simpa [ahead, rest, hoverflow, hop, houtcome, bytesOf] using hfits
        simp [pollReconcile, hop, houtcome, hoverflow, ahead, rest, bytesOf, retained, hlt]

end ReadState

end Runite.Io

namespace Runite.Fs

open Io SequentialCursor Transition

/-! ## The open file description -/

inductive SeekFrom
  | start (offset : Nat)
  | fromEnd (offset : Int)
  | current (offset : Int)
  deriving DecidableEq

/-- Where a seek goes, from this cursor of a file of this size. -/
def SeekFrom.target (position size : Nat) : SeekFrom → Int
  | .start offset => offset
  | .fromEnd offset => size + offset
  | .current offset => position + offset

/-- `EINVAL`. -/
def seekError : IoError :=
  { kind := .invalidInput, rawOsError := some 22, message := "Invalid argument" }

/-- `sys_fs::seek`, which is `lseek`: the offsets of a file are not negative and fit in an
`off_t`. -/
def lseek (position size : Nat) (whence : SeekFrom) : Except IoError Nat :=
  let target := whence.target position size
  if 0 ≤ target ∧ target < seekLimit then .ok target.toNat else .error seekError

/-- The handles of a file, the cursor of the kernel, and the log of what moved it and of what
readers got. -/
structure World where
  files : Files := {}
  position : Nat := 0
  log : List (Effect UInt8) := []

namespace World

variable (w : World)

/-- The bytes that the kernel has read and no reader got. -/
def ahead : List UInt8 := w.files.cursor.read.ahead

def performRead : Except IoError (List UInt8) → World
  | .ok data =>
      { w with
        position := w.position + data.length
        log := w.log ++ [.fetched w.position data] }
  | .error _ => w

def performWrite : Except IoError Nat → World
  | .ok count =>
      { w with
        position := w.position + count
        log := w.log ++ [.wrote w.position count] }
  | .error _ => w

/-- The seek of `rewind_file_cursor`, which succeeds. -/
def performRewind (bytes : Nat) : World :=
  if 0 < bytes ∧ bytes < seekLimit then
    { w with
      position := w.position - bytes
      log := w.log ++ [.rewound bytes] }
  else w

def performSeek : Poll (Except IoError Nat) → World
  | .ready (.ok target) =>
      { w with
        position := target
        log := w.log ++ [.sought w.position target] }
  | _ => w

def deliver : Poll (Except IoError (List UInt8)) → World
  | .ready (.ok bytes) => { w with log := w.log ++ [.delivered bytes] }
  | _ => w

/-- What the kernel answers to the seek of `rewind_file_cursor`. -/
def seekBack (size bytes : Nat) : Except IoError Nat :=
  lseek w.position size (.current (-(bytes : Int)))

/-- What `reconcile_read` has the kernel do. -/
def reconcile (waker : Waker) : World :=
  match (w.files.cursor.read.pollReconcile waker).2 with
  | .ready (.ok bytes) => w.performRewind bytes
  | _ => w

/-! ## The calls of the handles -/

/-- `poll_read` calls the factory of a read. -/
def startsRead (waker : Waker) (capacity : Nat) : Bool :=
  match w.files.cursor.write.pollDrain waker with
  | some (_, .ready ()) => w.files.cursor.read.startsRead capacity
  | _ => false

/-- `poll_read`.  The kernel has performed a read that is ready at its first poll. -/
def pollRead (waker : Waker) (capacity : Nat) (start : Option (Except IoError (List UInt8))) :
    Option (World × Poll (Except IoError (List UInt8))) :=
  (w.files.pollRead waker capacity start).map fun (files, poll) =>
    let performed :=
      match w.startsRead waker capacity, start with
      | true, some result => w.performRead result
      | _, _ => w
    ({ performed.deliver poll with files }, poll)

/-- After `poll_write_operation`, which left `files`.  The kernel has performed a write that is
ready at its first poll. -/
def afterWrite (files : Files) (waker : Waker) (buf : Buf)
    (start : Option (Except IoError Nat)) : World :=
  let settled := if buf.bytes = [] then w else w.reconcile waker
  let started := w.files.cursor.write.started.length < files.cursor.write.started.length
  let performed :=
    match decide started, start with
    | true, some result => settled.performWrite result
    | _, _ => settled
  { performed with files }

def pollSeek (waker : Waker) (size : Nat) (whence : SeekFrom) :
    Option (World × Poll (Except IoError Nat)) :=
  let settled := w.reconcile waker
  (w.files.pollSeek waker (.ok ()) (lseek settled.position size whence)).map
    fun (files, poll) => ({ settled.performSeek poll with files }, poll)

/-- A call on a handle, a cancellation, or a completion. -/
inductive Action
  | pollWrite (file : Nat) (waker : Waker) (fresh : Generation) (buf : Buf)
      (start : Option (Except IoError Nat))
  | pollWriteOperation (file : Nat) (waker : Waker) (generation : Generation) (buf : Buf)
      (start : Option (Except IoError Nat))
  | newOperation (generation : Generation)
  | dropOperation (generation : Generation)
  | pollRead (file : Nat) (waker : Waker) (capacity : Nat)
      (start : Option (Except IoError (List UInt8)))
  | pollFlush (file : Nat) (waker : Waker)
  | pollSeek (file : Nat) (waker : Waker) (size : Nat) (whence : SeekFrom)
  | tryClone (file clone : Nat)
  | drop (file : Nat)
  | completeRead (result : Except IoError (List UInt8))
  | completeWrite (result : Except IoError Nat)

/-- An action.  Dropping a read or a seek future leaves no trace; dropping a write future drops
its token. -/
def act : Action → Option World
  | .pollWrite file waker fresh buf start =>
      (w.files.step (.pollWrite file waker fresh buf (.ok ()) start)).map fun files =>
        w.afterWrite files waker buf start
  | .pollWriteOperation file waker generation buf start =>
      (w.files.step (.pollWriteOperation file waker generation buf (.ok ()) start)).map
        fun files => w.afterWrite files waker buf start
  | .newOperation generation =>
      (w.files.step (.newOperation generation)).map fun files => { w with files }
  | .dropOperation generation =>
      (w.files.step (.dropOperation generation)).map fun files => { w with files }
  | .pollRead file waker capacity start =>
      if (w.files.handles file).isSome then (w.pollRead waker capacity start).map Prod.fst
      else none
  | .pollFlush file waker =>
      (w.files.step (.pollFlush file waker)).map fun files => { w with files }
  | .pollSeek file waker size whence =>
      if (w.files.handles file).isSome then (w.pollSeek waker size whence).map Prod.fst
      else none
  | .tryClone file clone =>
      (w.files.step (.tryClone file clone)).map fun files => { w with files }
  | .drop file => (w.files.step (.drop file)).map fun files => { w with files }
  | .completeRead result =>
      (w.files.step (.completeRead result)).map fun files =>
        { w.performRead result with files }
  | .completeWrite result =>
      (w.files.step (.completeWrite result)).map fun files =>
        { w.performWrite result with files }

/-- An action; the kernel keeps the cursor in the range of an `off_t`. -/
def step (a : Action) : Option World :=
  (w.act a).filter fun w' => w'.position < seekLimit

/-! ## What the kernel does to the history -/

variable {w} {w' : World} {files : Files} {waker : Waker}

theorem follows_performRead (h : Follows w.log w.position [])
    (result : Except IoError (List UInt8)) :
    Follows (w.performRead result).log (w.performRead result).position
      (bytesOf (some result)) := by
  cases result with
  | ok data => exact h.fetch data
  | error error => exact h

theorem follows_performWrite (h : Follows w.log w.position []) (result : Except IoError Nat) :
    Follows (w.performWrite result).log (w.performWrite result).position [] := by
  cases result with
  | ok count => exact h.write count
  | error error => exact h

theorem follows_performSeek (h : Follows w.log w.position []) (poll : Poll (Except IoError Nat)) :
    Follows (w.performSeek poll).log (w.performSeek poll).position [] := by
  rcases poll with (error | target) | _
  · exact h
  · exact h.seek target
  · exact h

theorem follows_deliver {poll : Poll (Except IoError (List UInt8))} {rest : List UInt8}
    (h : Follows w.log w.position (received poll ++ rest)) :
    Follows (w.deliver poll).log (w.deliver poll).position rest := by
  rcases poll with (error | bytes) | _
  · exact h
  · exact h.deliver
  · exact h

/-- The seek back succeeds: the kernel's cursor is past what was read ahead. -/
theorem follows_performRewind {ahead : List UInt8} (h : Follows w.log w.position ahead)
    (hrange : w.position < seekLimit) :
    Follows (w.performRewind ahead.length).log (w.performRewind ahead.length).position [] := by
  unfold performRewind
  split
  next => exact h.rewind
  next hzero =>
    have hle := h.length_le
    have hnil : ahead = [] := List.eq_nil_of_length_eq_zero (by omega)
    rwa [hnil] at h

/-! ## The invariant -/

def ReadIdle (s : ReadState) : Prop := s.overflow = none ∧ s.operation = none

theorem ReadIdle.ahead_eq_nil {s : ReadState} (h : ReadIdle s) : s.ahead = [] := by
  simp [ReadState.ahead, ReadState.rest, h.1, h.2, bytesOf]

/-- Nothing is read ahead of a write in flight, and the kernel's history is one of a sequential
cursor. -/
structure Sound (w : World) : Prop where
  single : w.files.cursor.read.SingleSlot
  settled : w.files.cursor.write.operation ≠ none → ReadIdle w.files.cursor.read
  range : w.position < seekLimit
  follows : Follows w.log w.position w.ahead

theorem Sound.init : Sound {} where
  single := Or.inl rfl
  settled := fun h => absurd rfl h
  range := by decide
  follows := Follows.init

theorem Sound.ahead_lt (h : Sound w) : w.ahead.length < usizeLimit := by
  have hle := h.follows.length_le
  have hrange := h.range
  have hlimit : seekLimit < usizeLimit := by decide
  omega

theorem Sound.reconcile (h : Sound w) (waker : Waker) :
    Follows (w.reconcile waker).log (w.reconcile waker).position [] ∧
      (w.files.cursor.read.pollReconcile waker).1.ahead = [] ∧
      (w.files.cursor.read.pollReconcile waker).1.SingleSlot ∧
      (ReadIdle (w.files.cursor.read.pollReconcile waker).1 ∨
        w.files.cursor.read.operation ≠ none ∧
          (w.files.cursor.read.pollReconcile waker).2 = .pending) := by
  unfold World.reconcile
  rcases ReadState.pollReconcile_spec h.single h.ahead_lt waker with
    ⟨hpoll, hbefore, hafter, hsingle⟩ | ⟨hpoll, hoverflow, hop⟩
  · rw [hpoll]
    refine ⟨?_, hafter, hsingle, Or.inr ⟨?_, rfl⟩⟩
    · have hfollows := h.follows
      rwa [World.ahead, hbefore] at hfollows
    · intro hnone
      simp [ReadState.pollReconcile, hnone] at hpoll
  · rw [hpoll]
    exact ⟨follows_performRewind h.follows h.range, ReadIdle.ahead_eq_nil ⟨hoverflow, hop⟩,
      Or.inl hoverflow, Or.inl ⟨hoverflow, hop⟩⟩

theorem seekBack_eq {bytes : Nat} (size : Nat) (hle : bytes ≤ w.position)
    (hrange : w.position < seekLimit) :
    w.seekBack size bytes = .ok (w.position - bytes) := by
  have htarget : SeekFrom.target w.position size (.current (-(bytes : Int))) =
      ((w.position - bytes : Nat) : Int) := by
    show (w.position : Int) + -(bytes : Int) = _
    omega
  unfold World.seekBack lseek
  rw [htarget, if_pos (by omega), Int.toNat_natCast]

/-- The callback that `reconcile_read` calls succeeds, and its seek leaves the kernel's cursor
where `reconcile` does. -/
theorem Sound.reconcileRead (h : Sound w) (waker : Waker) (size : Nat) :
    w.files.cursor.reconcileRead waker (fun bytes =>
        rewindFileCursor ((w.seekBack size bytes).map fun _ => ()) bytes) =
      w.files.cursor.reconcileRead waker (rewindFileCursor (.ok ())) ∧
    ∀ bytes, (w.files.cursor.read.pollReconcile waker).2 = .ready (.ok bytes) → 0 < bytes →
      w.seekBack size bytes = .ok (w.reconcile waker).position := by
  have hle := h.follows.length_le
  have hseek := seekBack_eq size hle h.range
  have hspec := ReadState.pollReconcile_spec h.single h.ahead_lt waker
  unfold CursorState.reconcileRead World.reconcile
  rcases hread : w.files.cursor.read.pollReconcile waker with ⟨read, answer⟩
  rw [hread] at hspec
  rcases hspec with ⟨rfl, -⟩ | ⟨rfl, -⟩
  · exact ⟨rfl, fun bytes heq => by cases heq⟩
  · have hback : w.seekBack size w.files.cursor.read.ahead.length = _ := hseek
    refine ⟨by simp only [hback]; rfl, ?_⟩
    rintro bytes ⟨⟩ hpos
    have hrange := h.range
    have hlt : w.files.cursor.read.ahead.length < seekLimit := Nat.lt_of_le_of_lt hle hrange
    rw [hback]
    simp only [World.performRewind, if_pos (And.intro hpos hlt)]
    rfl

/-- A step that leaves the reads alone and starts no write. -/
theorem Sound.quiet (h : Sound w) (hread : files.cursor.read = w.files.cursor.read)
    (hwrite : files.cursor.write.operation ≠ none → w.files.cursor.write.operation ≠ none) :
    Sound { w with files } where
  single := by
    rw [hread]
    exact h.single
  settled := fun hop => by
    rw [hread]
    exact h.settled (hwrite hop)
  range := h.range
  follows := by
    show Follows w.log w.position files.cursor.read.ahead
    rw [hread]
    exact h.follows

/-! ## The calls keep the invariant -/

/-- A step that settles the read side and has the kernel continue from there. -/
theorem Sound.settle (h : Sound w) (waker : Waker) (hrange : w'.position < seekLimit)
    (hread : w'.files.cursor.read = (w.files.cursor.read.pollReconcile waker).1)
    (hwrite : w.files.cursor.read.operation ≠ none →
      (w.files.cursor.read.pollReconcile waker).2 = .pending →
      w'.files.cursor.write.operation ≠ none → w.files.cursor.write.operation ≠ none)
    (hfollows : Follows (w.reconcile waker).log (w.reconcile waker).position [] →
      Follows w'.log w'.position []) : Sound w' := by
  obtain ⟨hnil, hahead, hsingle, hidle⟩ := h.reconcile waker
  refine ⟨hread ▸ hsingle, ?_, hrange, ?_⟩
  · intro hop
    rcases hidle with hidle | ⟨hreading, hpending⟩
    · exact hread ▸ hidle
    · exact absurd (h.settled (hwrite hreading hpending hop)).2 hreading
  · rw [World.ahead, hread, hahead]
    exact hfollows hnil

/-- Between two states only tokens and handles differ. -/
structure SameOperations (f f' : Files) : Prop where
  read : f'.cursor.read = f.cursor.read
  operation : f'.cursor.write.operation = f.cursor.write.operation
  started : f'.cursor.write.started = f.cursor.write.started

/-- While the read side cannot be settled, `poll_write` leaves the writes alone. -/
theorem write_of_pending {s s' : CursorState} {generation : Generation} {buf : Buf}
    {rewind : Nat → Except IoError Unit} {start : Option (Except IoError Nat)}
    {poll : Poll (Reply Nat)} (hpending : (s.read.pollReconcile waker).2 = .pending)
    (h : s.pollWrite waker generation buf rewind start = some (s', poll)) :
    s'.write = s.write := by
  unfold CursorState.pollWrite CursorState.reconcileRead at h
  rcases hread : s.read.pollReconcile waker with ⟨read, answer⟩
  rw [hread] at h hpending
  obtain rfl : answer = .pending := hpending
  cases h
  rfl

/-- `poll_write_operation`, within a call that changes the tokens before and after it. -/
theorem Sound.afterWrite {f₁ f₂ : Files} {generation : Generation} {buf : Buf}
    {start : Option (Except IoError Nat)} {poll : Poll (Reply Nat)} (h : Sound w)
    (hrange : (w.afterWrite files waker buf start).position < seekLimit)
    (hbefore : SameOperations w.files f₁)
    (hpoll : f₁.pollWriteOperation waker generation buf (.ok ()) start = some (f₂, poll))
    (hafter : SameOperations f₂ files) : Sound (w.afterWrite files waker buf start) := by
  unfold Files.pollWriteOperation at hpoll
  split at hpoll
  next hempty =>
    obtain ⟨rfl, -⟩ := Prod.mk.inj (Option.some.inj hpoll)
    have hsame : w.afterWrite files waker buf start = { w with files } := by
      simp [World.afterWrite, hempty, hafter.started, hbefore.started]
    rw [hsame]
    refine h.quiet (hafter.read.trans hbefore.read) ?_
    rw [hafter.operation, hbefore.operation]
    exact id
  next hfull =>
    obtain ⟨⟨cursor, poll'⟩, hcursor, heq⟩ := Option.map_eq_some_iff.mp hpoll
    cases heq
    refine h.settle waker hrange ?_ ?_ ?_
    · show files.cursor.read = _
      rw [hafter.read, ← hbefore.read]
      exact CursorState.read_of_pollWrite hcursor
    · intro _ hpending hop
      have hwrite := write_of_pending (hbefore.read.symm ▸ hpending) hcursor
      have hop' : files.cursor.write.operation ≠ none := hop
      rwa [hafter.operation, hwrite, hbefore.operation] at hop'
    · intro hfollows
      unfold World.afterWrite
      rw [if_neg hfull]
      dsimp only
      split
      next result _ => exact follows_performWrite hfollows result
      next => exact hfollows

theorem sameOperations_directGeneration {f f₁ : Files} {handle : File}
    {fresh generation : Generation}
    (h : f.directGeneration handle fresh = some (f₁, generation)) : SameOperations f f₁ := by
  unfold Files.directGeneration at h
  split at h
  next =>
    cases h
    exact ⟨rfl, rfl, rfl⟩
  next =>
    obtain ⟨write, hnew, heq⟩ := Option.map_eq_some_iff.mp h
    cases heq
    obtain ⟨-, hissue⟩ := Option.ite_none_right_eq_some.mp hnew
    obtain rfl := Option.some.inj hissue
    exact ⟨rfl, rfl, rfl⟩

theorem sameOperations_dropOperation (f : Files) (generation : Option Generation) :
    SameOperations f (f.dropOperation generation) := by
  unfold Files.dropOperation
  split
  next write hdrop =>
    obtain ⟨g, -, hdrop⟩ := Option.bind_eq_some_iff.mp hdrop
    obtain ⟨waiters, -, rfl⟩ := Option.map_eq_some_iff.mp hdrop
    exact ⟨rfl, rfl, rfl⟩
  next => exact ⟨rfl, rfl, rfl⟩

theorem Sound.pollWrite {file : Nat} {fresh : Generation} {buf : Buf}
    {start : Option (Except IoError Nat)} {poll : Poll (Reply Nat)} (h : Sound w)
    (hrange : (w.afterWrite files waker buf start).position < seekLimit)
    (hcall : w.files.pollWrite file waker fresh buf (.ok ()) start = some (files, poll)) :
    Sound (w.afterWrite files waker buf start) := by
  obtain ⟨handle, f₁, g, f₂, -, hdirect, hpoll, hend⟩ := Files.exists_of_pollWrite hcall
  refine h.afterWrite hrange (sameOperations_directGeneration hdirect) hpoll ?_
  rcases hend with ⟨-, rfl⟩ | rfl
  · exact ⟨rfl, rfl, rfl⟩
  · obtain ⟨hread, hop, hstarted⟩ :=
      sameOperations_dropOperation (f₂.setHandle file (some ⟨none⟩)) (some g)
    exact ⟨hread, hop, hstarted⟩

theorem Sound.pollSeek {size : Nat} {whence : SeekFrom} {poll : Poll (Except IoError Nat)}
    (h : Sound w) (hrange : w'.position < seekLimit)
    (hcall : w.pollSeek waker size whence = some (w', poll)) : Sound w' := by
  obtain ⟨⟨files, poll'⟩, hfiles, heq⟩ := Option.map_eq_some_iff.mp hcall
  cases heq
  obtain ⟨⟨cursor, answer⟩, hcursor, heq⟩ := Option.map_eq_some_iff.mp hfiles
  cases heq
  refine h.settle waker hrange (CursorState.read_of_pollReconcile hcursor) ?_ ?_
  · intro _ _ hop
    rcases CursorState.cases_of_pollReconcile hcursor with hwrite | ⟨drain, hdrain⟩
    · have hop' : cursor.write.operation ≠ none := hop
      rwa [hwrite] at hop'
    · exact (WriteState.drained_of_pollDrain hdrain).operation_ne_none hop
  · exact fun hfollows => follows_performSeek hfollows _

/-- The kernel performs a read that is ready at its first poll, if one is started. -/
theorem Sound.start (h : Sound w) (capacity : Nat)
    (start : Option (Except IoError (List UInt8))) :
    Follows
      (match w.files.cursor.read.startsRead capacity, start with
        | true, some result => w.performRead result
        | _, _ => w).log
      (match w.files.cursor.read.startsRead capacity, start with
        | true, some result => w.performRead result
        | _, _ => w).position
      (w.ahead ++ if w.files.cursor.read.startsRead capacity then bytesOf start else []) := by
  cases hstarts : w.files.cursor.read.startsRead capacity with
  | false => simpa using h.follows
  | true =>
      have hidle : ReadIdle w.files.cursor.read := by
        simp only [ReadState.startsRead, Bool.and_eq_true, Option.isNone_iff_eq_none] at hstarts
        exact ⟨hstarts.1.2, hstarts.2⟩
      have hfollows := h.follows
      rw [World.ahead, hidle.ahead_eq_nil] at hfollows ⊢
      cases start with
      | none => exact hfollows
      | some result => exact follows_performRead hfollows result

theorem Sound.pollRead {capacity : Nat} {start : Option (Except IoError (List UInt8))}
    {poll : Poll (Except IoError (List UInt8))} (h : Sound w) (hrange : w'.position < seekLimit)
    (hcall : w.pollRead waker capacity start = some (w', poll)) : Sound w' := by
  obtain ⟨⟨files, poll'⟩, hfiles, heq⟩ := Option.map_eq_some_iff.mp hcall
  cases heq
  unfold Files.pollRead at hfiles
  split at hfiles
  next hzero =>
    cases hfiles
    have hstarts : w.startsRead waker capacity = false := by
      unfold startsRead
      split
      · simp [ReadState.startsRead, hzero]
      · rfl
    simp only [hstarts]
    have hfollows : Follows w.log w.position ([] ++ w.ahead) := h.follows
    exact ⟨h.single, h.settled, h.range, hfollows.deliver⟩
  next hpositive =>
    obtain ⟨⟨cursor, poll'⟩, hcursor, heq⟩ := Option.map_eq_some_iff.mp hfiles
    cases heq
    obtain ⟨⟨write, drain⟩, hdrain, heq⟩ := Option.map_eq_some_iff.mp hcursor
    have hdrained := WriteState.drained_of_pollDrain hdrain
    cases drain with
    | pending =>
        cases heq
        simp only [startsRead, hdrain]
        exact h.quiet rfl hdrained.operation_ne_none
    | ready answer =>
        cases heq
        obtain ⟨hsingle, hbytes⟩ := ReadState.pollSlice_spec h.single waker capacity start
        refine ⟨hsingle, fun hop => absurd hdrained.idle_of_ready.1 hop, hrange, ?_⟩
        have hstart := h.start capacity start
        rw [World.ahead, ← hbytes] at hstart
        simp only [startsRead, hdrain]
        exact follows_deliver hstart

/-! ## Completions -/

theorem Sound.completeRead {read : ReadState} {result : Except IoError (List UInt8)} (h : Sound w)
    (hcomplete : w.files.cursor.read.complete result = some read)
    (hrange : (w.performRead result).position < seekLimit)
    (hread : files.cursor.read = read)
    (hwrite : files.cursor.write = w.files.cursor.write) :
    Sound { w.performRead result with files } := by
  unfold ReadState.complete at hcomplete
  split at hcomplete
  next => cases hcomplete
  next operation hop =>
    have hoverflow : w.files.cursor.read.overflow = none := h.single.resolve_right (by simp [hop])
    split at hcomplete
    next => cases hcomplete
    next houtcome =>
      obtain rfl := Option.some.inj hcomplete
      have hnil : w.ahead = [] := by
        simp [World.ahead, ReadState.ahead, ReadState.rest, hoverflow, hop, houtcome, bytesOf]
      have hfollows := h.follows
      rw [hnil] at hfollows
      refine ⟨?_, ?_, hrange, ?_⟩
      · rw [hread]
        exact Or.inl hoverflow
      · intro hwriting
        have hwriting' : files.cursor.write.operation ≠ none := hwriting
        rw [hwrite] at hwriting'
        exact absurd (h.settled hwriting').2 (by simp [hop])
      · have hahead : files.cursor.read.ahead = bytesOf (some result) := by
          simp [hread, ReadState.ahead, ReadState.rest, hoverflow]
        rw [World.ahead, hahead]
        exact follows_performRead hfollows result

theorem Sound.completeWrite {write : WriteState} {result : Except IoError Nat} (h : Sound w)
    (hcomplete : w.files.cursor.write.complete result = some write)
    (hrange : (w.performWrite result).position < seekLimit)
    (hread : files.cursor.read = w.files.cursor.read) :
    Sound { w.performWrite result with files } := by
  obtain ⟨p, hop, -, -⟩ := WriteState.resolve_of_complete hcomplete
  have hidle := h.settled (by simp [hop])
  have hfollows := h.follows
  rw [World.ahead, hidle.ahead_eq_nil] at hfollows
  refine ⟨?_, fun _ => ?_, hrange, ?_⟩
  · rw [hread]
    exact h.single
  · rw [hread]
    exact hidle
  · rw [World.ahead, hread, hidle.ahead_eq_nil]
    exact follows_performWrite hfollows result

/-! ## Runs -/

theorem Sound.act {a : Action} (h : Sound w) (hrange : w'.position < seekLimit)
    (hs : w.act a = some w') : Sound w' := by
  cases a with
  | pollWrite file waker fresh buf start =>
      obtain ⟨files, hfiles, rfl⟩ := Option.map_eq_some_iff.mp hs
      obtain ⟨⟨files', poll⟩, hcall, rfl⟩ := Option.map_eq_some_iff.mp hfiles
      exact h.pollWrite hrange hcall
  | pollWriteOperation file waker generation buf start =>
      obtain ⟨files, hfiles, rfl⟩ := Option.map_eq_some_iff.mp hs
      obtain ⟨-, hfiles⟩ := Option.ite_none_right_eq_some.mp hfiles
      obtain ⟨⟨files', poll⟩, hcall, rfl⟩ := Option.map_eq_some_iff.mp hfiles
      exact h.afterWrite hrange ⟨rfl, rfl, rfl⟩ hcall ⟨rfl, rfl, rfl⟩
  | newOperation generation =>
      obtain ⟨files, hfiles, rfl⟩ := Option.map_eq_some_iff.mp hs
      obtain ⟨write, hnew, rfl⟩ := Option.map_eq_some_iff.mp hfiles
      obtain ⟨-, hissue⟩ := Option.ite_none_right_eq_some.mp hnew
      obtain rfl := Option.some.inj hissue
      exact h.quiet rfl id
  | dropOperation generation =>
      obtain ⟨files, hfiles, rfl⟩ := Option.map_eq_some_iff.mp hs
      obtain ⟨-, hdrop⟩ := Option.ite_none_right_eq_some.mp hfiles
      obtain rfl := Option.some.inj hdrop
      have hsame := sameOperations_dropOperation
        { w.files with operations := w.files.operations.erase generation } (some generation)
      exact h.quiet hsame.read (fun hop => hsame.operation ▸ hop)
  | pollRead file waker capacity start =>
      obtain ⟨-, hs⟩ := Option.ite_none_right_eq_some.mp hs
      obtain ⟨⟨w'', poll⟩, hcall, rfl⟩ := Option.map_eq_some_iff.mp hs
      exact h.pollRead hrange hcall
  | pollFlush file waker =>
      obtain ⟨files, hfiles, rfl⟩ := Option.map_eq_some_iff.mp hs
      obtain ⟨-, hfiles⟩ := Option.ite_none_right_eq_some.mp hfiles
      obtain ⟨⟨files', flush⟩, hcall, rfl⟩ := Option.map_eq_some_iff.mp hfiles
      obtain ⟨⟨cursor, flush'⟩, hcursor, heq⟩ := Option.map_eq_some_iff.mp hcall
      cases heq
      obtain ⟨⟨write, flush''⟩, hwrite, heq⟩ := Option.map_eq_some_iff.mp hcursor
      cases heq
      exact h.quiet rfl (WriteState.flushed_of_pollFlush hwrite).operation_ne_none
  | pollSeek file waker size whence =>
      obtain ⟨-, hs⟩ := Option.ite_none_right_eq_some.mp hs
      obtain ⟨⟨w'', poll⟩, hcall, rfl⟩ := Option.map_eq_some_iff.mp hs
      exact h.pollSeek hrange hcall
  | tryClone file clone =>
      obtain ⟨files, hfiles, rfl⟩ := Option.map_eq_some_iff.mp hs
      obtain ⟨-, hclone⟩ := Option.ite_none_right_eq_some.mp hfiles
      obtain rfl := Option.some.inj hclone
      exact h.quiet rfl id
  | drop file =>
      obtain ⟨files, hfiles, rfl⟩ := Option.map_eq_some_iff.mp hs
      obtain ⟨handle, -, rfl⟩ := Option.map_eq_some_iff.mp hfiles
      have hsame := sameOperations_dropOperation (w.files.setHandle file none) handle.directWrite
      exact h.quiet hsame.read (fun hop => hsame.operation ▸ hop)
  | completeRead result =>
      obtain ⟨files, hfiles, rfl⟩ := Option.map_eq_some_iff.mp hs
      obtain ⟨read, hcomplete, rfl⟩ := Option.map_eq_some_iff.mp hfiles
      exact h.completeRead hcomplete hrange rfl rfl
  | completeWrite result =>
      obtain ⟨files, hfiles, rfl⟩ := Option.map_eq_some_iff.mp hs
      obtain ⟨write, hcomplete, rfl⟩ := Option.map_eq_some_iff.mp hfiles
      exact h.completeWrite hcomplete hrange rfl

theorem Sound.step {a : Action} (h : Sound w) (hs : w.step a = some w') : Sound w' := by
  obtain ⟨hact, hrange⟩ := Option.filter_eq_some_iff.mp hs
  exact h.act (of_decide_eq_true hrange) hact

/-- In every run of the handles of a file, whatever is polled, cancelled and completed, no read
is in flight beside a write, nothing is read ahead of a write in flight, and what the kernel did
and what readers got is a history of the sequential cursor: readers get the bytes from the
position on, writes and seeks happen at the position, and the kernel's cursor is set back once
for every byte that was read ahead of them.  The callback that `reconcile_read` calls does this
by a seek which succeeds. -/
theorem cursor_of_reachable (hreach : Reachable step (fun _ _ => True) {} w) :
    (w.files.cursor.read.operation = none ∨ w.files.cursor.write.operation = none) ∧
      (w.files.cursor.write.operation ≠ none → w.ahead = []) ∧
      Follows w.log w.position w.ahead ∧
      ∀ waker size,
        w.files.cursor.reconcileRead waker (fun bytes =>
            rewindFileCursor ((w.seekBack size bytes).map fun _ => ()) bytes) =
          w.files.cursor.reconcileRead waker (rewindFileCursor (.ok ())) ∧
        ∀ bytes, (w.files.cursor.read.pollReconcile waker).2 = .ready (.ok bytes) → 0 < bytes →
          w.seekBack size bytes = .ok (w.reconcile waker).position := by
  have h : Sound w := hreach.invariant Sound Sound.init fun _ _ _ h _ hs => h.step hs
  refine ⟨?_, fun hop => (h.settled hop).ahead_eq_nil, h.follows, h.reconcileRead⟩
  by_cases hop : w.files.cursor.write.operation = none
  · exact Or.inr hop
  · exact Or.inl (h.settled hop).2

/-- A read of four bytes is abandoned, and another reader takes the first of them.  The write of
a clone and the seek after it happen at the second one. -/
def abandonedRead : List Action :=
  [.pollRead 0 1 4 none, .completeRead (.ok [10, 11, 12, 13]), .tryClone 0 1, .pollRead 1 2 1 none,
    .newOperation (trackedWriteBit + 1),
    .pollWriteOperation 1 3 (trackedWriteBit + 1) ⟨100, [7, 8]⟩ none, .completeWrite (.ok 2),
    .pollSeek 0 4 0 (.current 5)]

theorem cursor_after_abandoned : ∃ w, Reachable step (fun _ _ => True) {} w ∧
    w.log = [.fetched 0 [10, 11, 12, 13], .delivered [10], .rewound 3, .wrote 1 2,
      .sought 3 8] ∧
    Follows w.log w.position w.ahead := by
  obtain ⟨w, hreach, hlog⟩ := Reachable.exists_of_run step (fun _ _ => True) {} abandonedRead
    (fun w => w.log = [.fetched 0 [10, 11, 12, 13], .delivered [10], .rewound 3, .wrote 1 2,
      .sought 3 8]) (by simp) (by decide +kernel)
  exact ⟨w, hreach, of_decide_eq_true hlog, (cursor_of_reachable hreach).2.2.1⟩

end World

end Runite.Fs
