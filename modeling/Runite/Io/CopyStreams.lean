import Runite.Io.Copy
import Runite.Io.Recorded
import Runite.Lib.Polling

/-!
# Copies preserve the streams

The streams are recorded: the calls that have reached them, with their answers.  At
every point where a copy can be suspended, what the writer has accepted and then what
is in the buffer is what was read.  A copy ends when the reader is at its end: a `Copy`
flushes the writer after the last byte, and a direction of a `CopyBidirectional` closes
it once, which flushes it too.
-/

namespace Runite.Io

open Transition Polling

variable {ρ ω α : Type} {R : AsyncRead ρ} {W : RetainingWrite ω}

def AsyncReadWrite.recorded (A : AsyncReadWrite α) : AsyncReadWrite (Recorded α) where
  toAsyncRead := A.toAsyncRead.recorded
  toRetainingWrite := A.toRetainingWrite.recorded
  accepted_pollRead a len := A.accepted_pollRead a.1 len
  offered_pollRead a len := A.offered_pollRead a.1 len
  obtained_pollWrite a buf g := A.obtained_pollWrite a.1 buf g
  obtained_pollClose a := A.obtained_pollClose a.1

/-! ## Calls -/

def WriteCall.IsWrite : WriteCall → Prop
  | .write _ _ => True
  | .flush _ => False
  | .close _ => False

/-- A call that ends the writes of a copy. -/
abbrev CopyBarrier := Poll (Except IoError Unit) → WriteCall

/-- Writes, and after them the barrier as often as it did not succeed. -/
def Tried (barrier : CopyBarrier) (calls : StreamCalls) : Prop :=
  ∃ (moved : List WriteCall) (tries : List (Poll (Except IoError Unit))),
    calls.writes = moved ++ tries.map barrier ∧ (∀ call ∈ moved, call.IsWrite) ∧
      .ready (.ok ()) ∉ tries

/-- Writes, the barrier until it succeeded, and nothing after that. -/
def Finished (barrier : CopyBarrier) (calls : StreamCalls) : Prop :=
  ∃ (moved : List WriteCall) (tries : List (Poll (Except IoError Unit))),
    calls.writes = moved ++ tries.map barrier ++ [barrier (.ready (.ok ()))] ∧
      (∀ call ∈ moved, call.IsWrite) ∧ .ready (.ok ()) ∉ tries

variable {calls : StreamCalls} {barrier : CopyBarrier}

/-- The writer was not flushed or closed. -/
def Writing (calls : StreamCalls) : Prop := ∀ call ∈ calls.writes, call.IsWrite

theorem Writing.noteWrite (h : Writing calls) {call : WriteCall} (hcall : call.IsWrite) :
    Writing (calls.noteWrite call) := by
  intro other hmem
  rcases List.mem_append.mp hmem with hmem | hmem
  · exact h other hmem
  · rw [List.mem_singleton.mp hmem]
    exact hcall

theorem Writing.tried (h : Writing calls) (barrier : CopyBarrier) : Tried barrier calls :=
  ⟨calls.writes, [], (List.append_nil _).symm, h, List.not_mem_nil⟩

theorem Tried.again (h : Tried barrier calls) {answer : Poll (Except IoError Unit)}
    (hanswer : answer ≠ .ready (.ok ())) : Tried barrier (calls.noteWrite (barrier answer)) := by
  obtain ⟨moved, tries, hwrites, hmoved, htries⟩ := h
  refine ⟨moved, tries ++ [answer], ?_, hmoved, fun hmem => ?_⟩
  · rw [StreamCalls.noteWrite, hwrites, List.map_append, List.append_assoc]
    rfl
  · rcases List.mem_append.mp hmem with hmem | hmem
    · exact htries hmem
    · exact hanswer (List.mem_singleton.mp hmem).symm

theorem Tried.finished (h : Tried barrier calls) :
    Finished barrier (calls.noteWrite (barrier (.ready (.ok ())))) := by
  obtain ⟨moved, tries, hwrites, hmoved, htries⟩ := h
  exact ⟨moved, tries, by rw [StreamCalls.noteWrite, hwrites], hmoved, htries⟩

def closes (calls : StreamCalls) : Nat := calls.writes.count (.close (.ready (.ok ())))

theorem Writing.not_close (h : Writing calls) (answer : Poll (Except IoError Unit)) :
    .close answer ∉ calls.writes := fun hmem => h _ hmem

theorem count_close_tried {moved : List WriteCall} {tries : List (Poll (Except IoError Unit))}
    (hmoved : ∀ call ∈ moved, call.IsWrite) (htries : .ready (.ok ()) ∉ tries) :
    (moved ++ tries.map WriteCall.close).count (.close (.ready (.ok ()))) = 0 := by
  refine List.count_eq_zero_of_not_mem fun hmem => ?_
  rcases List.mem_append.mp hmem with hmem | hmem
  · exact hmoved _ hmem
  · obtain ⟨answer, hanswer, heq⟩ := List.mem_map.mp hmem
    cases heq
    exact htries hanswer

theorem Tried.closes_eq (h : Tried .close calls) : closes calls = 0 := by
  obtain ⟨moved, tries, hwrites, hmoved, htries⟩ := h
  rw [closes, hwrites, count_close_tried hmoved htries]

theorem Finished.closes_eq (h : Finished .close calls) : closes calls = 1 := by
  obtain ⟨moved, tries, hwrites, hmoved, htries⟩ := h
  rw [closes, hwrites, List.count_append, count_close_tried hmoved htries, List.count_singleton_self]

/-! ## The loop -/

/-- What was read before a copy, and what was accepted. -/
structure Before where
  read : List UInt8
  accepted : List UInt8

/-- The writer has accepted what was read, up to what is in the buffer. -/
structure Streams (R : AsyncRead ρ) (W : RetainingWrite ω) (before : Before)
    (reader : Recorded ρ) (writer : Recorded ω) (c : CopyBuf) : Prop where
  obtained : R.obtained reader.1 = before.read ++ readBytes reader.2
  accepted : W.accepted writer.1 ++ c.rest = before.accepted ++ readBytes reader.2
  copied : c.copied + c.rest.length = (readBytes reader.2).length
  offers : Offers W writer.1 c.rest

variable {before : Before} {reader reader' : Recorded ρ} {writer writer' : Recorded ω}
  {c : CopyBuf}

theorem Streams.withWriter (h : Streams R W before reader writer c)
    (haccepted : W.accepted writer'.1 = W.accepted writer.1) (hoffers : Offers W writer'.1 c.rest) :
    Streams R W before reader writer' c :=
  ⟨h.obtained, by rw [haccepted, h.accepted], h.copied, hoffers⟩

theorem Streams.withReader (h : Streams R W before reader writer c)
    (hobtained : R.obtained reader'.1 = R.obtained reader.1)
    (hbytes : readBytes reader'.2 = readBytes reader.2) : Streams R W before reader' writer c :=
  ⟨by rw [hobtained, h.obtained, hbytes], by rw [h.accepted, hbytes], by rw [h.copied, hbytes],
    h.offers⟩

theorem Streams.wrote {count : Nat} {w : ω} (h : Streams R W before reader writer c)
    (hwritten : WriteAnswered W writer.1 c.rest (w, .ready (.ok count))) (calls : StreamCalls) :
    Streams R W before reader (w, calls) (c.wrote count) := by
  obtain ⟨haccepted, hoffered, hcount⟩ := hwritten
  have hrest : (c.wrote count).rest = c.rest.drop count := by
    show c.buf.drop (c.pos + count) = (c.buf.drop c.pos).drop count
    rw [List.drop_drop]
  refine ⟨h.obtained, ?_, ?_, .of_nil hoffered⟩
  · rw [hrest, haccepted, List.append_assoc, List.take_append_drop]
    exact h.accepted
  · have hcopied := h.copied
    rw [hrest, List.length_drop]
    show c.copied + count + _ = _
    omega

theorem Streams.read {bytes : List UInt8} {r : ρ} (h : Streams R W before reader writer c)
    (hdone : c.rest = []) (hobtained : R.obtained r = R.obtained reader.1 ++ bytes) :
    Streams R W before (r, reader.2.noteRead (.ready (.ok bytes))) writer (c.read bytes) := by
  have hbytes := readBytes_noteRead reader.2 (.ready (.ok bytes))
  rw [received_ok] at hbytes
  have hrest : (c.read bytes).rest = bytes := List.drop_zero
  refine ⟨?_, ?_, ?_, ?_⟩
  · rw [hbytes, hobtained, h.obtained, List.append_assoc]
  · have haccepted := h.accepted
    rw [hdone, List.append_nil] at haccepted
    rw [hbytes, hrest, haccepted, List.append_assoc]
  · have hcopied := h.copied
    rw [hdone] at hcopied
    rw [hbytes, hrest, List.length_append, ← hcopied]
    rfl
  · have hoffers := h.offers
    rw [hdone] at hoffers
    exact hoffers.mono ⟨_, List.nil_append _⟩

/-- Bytes are moved: the input has not ended, and the writer was not flushed or closed. -/
structure Moving (reader : Recorded ρ) (writer : Recorded ω) : Prop where
  reads : Open reader.2
  writes : Writing writer.2

/-- Everything was moved, and the barrier has not succeeded yet. -/
structure Ended (barrier : CopyBarrier) (reader : Recorded ρ) (writer : Recorded ω)
    (c : CopyBuf) : Prop where
  rest : c.rest = []
  reads : AtEnd reader.2
  writes : Tried barrier writer.2

def Looped (R : AsyncRead ρ) (W : RetainingWrite ω) (before : Before) :
    ((Recorded ρ) × (Recorded ω) × CopyBuf) × Poll (Except IoError Unit) → Prop
  | ((reader, writer, c), .ready (.ok ())) =>
      Streams R W before reader writer c ∧ ∀ barrier, Ended barrier reader writer c
  | ((reader, writer, c), .ready (.error _)) =>
      Streams R W before reader writer c ∧ Moving reader writer
  | ((reader, writer, c), .pending) => Streams R W before reader writer c ∧ Moving reader writer

theorem looped_copyLoop {fuel : Nat}
    {r : ((Recorded ρ) × (Recorded ω) × CopyBuf) × Poll (Except IoError Unit)}
    (h : Streams R W before reader writer c) (hmoving : Moving reader writer)
    (hloop : copyLoop R.recorded W.recorded.toAsyncWrite fuel reader writer c = some r) :
    Looped R W before r := by
  induction fuel generalizing reader writer c with
  | zero => cases hloop
  | succ fuel ih =>
      unfold copyLoop at hloop
      split at hloop
      next =>
        have hwritten := h.offers.written c.generation
        simp only [RetainingWrite.recorded] at hloop
        rcases hpoll : W.pollWriteOperation writer.1 c.rest c.generation with
          ⟨w, (error | count) | _⟩ <;> simp only [hpoll] at hloop hwritten
        all_goals
          have hmoved (answer) : Moving reader (w, writer.2.noteWrite (.write c.rest answer)) :=
            ⟨hmoving.reads, hmoving.writes.noteWrite trivial⟩
        · cases hloop
          exact ⟨h.withWriter hwritten.1 (.of_nil hwritten.2), hmoved _⟩
        · cases count with
          | zero =>
              cases hloop
              obtain ⟨haccepted, hoffered, -⟩ := hwritten
              rw [List.take_zero, List.append_nil] at haccepted
              exact ⟨h.withWriter haccepted (.of_nil hoffered), hmoved _⟩
          | succ count => exact ih (h.wrote hwritten _) (hmoved _) hloop
        · cases hloop
          exact ⟨h.withWriter hwritten.1 hwritten.2, hmoved _⟩
      next hdone =>
        have hrest : c.rest = [] := List.drop_of_length_le (by omega)
        have hobtained := R.obtained_pollRead reader.1 copyBufSize
        simp only [AsyncRead.recorded] at hloop
        rcases hpoll : R.pollRead reader.1 copyBufSize with ⟨r', (error | bytes) | _⟩ <;>
          simp only [hpoll] at hloop hobtained
        · cases hloop
          refine ⟨h.withReader (hobtained.trans (List.append_nil _)) ?_,
            hmoving.reads.noteRead (by simp), hmoving.writes⟩
          rw [readBytes_noteRead, received_error, List.append_nil]
        · have hread := h.read hrest hobtained
          split at hloop
          next hend =>
            cases hloop
            subst hend
            exact ⟨hread, fun barrier => ⟨rfl, hmoving.reads.atEnd, hmoving.writes.tried barrier⟩⟩
          next hnonempty =>
            exact ih hread ⟨hmoving.reads.noteRead (by simpa using hnonempty), hmoving.writes⟩ hloop
        · cases hloop
          refine ⟨h.withReader (hobtained.trans (List.append_nil _)) ?_,
            hmoving.reads.noteRead (by simp), hmoving.writes⟩
          rw [readBytes_noteRead, received_pending, List.append_nil]

/-- What a read keeps of a reader, and a write of a writer, the loop keeps. -/
theorem frame_copyLoop {γ δ : Type} {W : AsyncWrite ω} {reader : ρ} {writer : ω} (f : ρ → γ) (g : ω → δ)
    (hf : ∀ reader len, f (R.pollRead reader len).1 = f reader)
    (hg : ∀ writer buf gen, g (W.pollWriteOperation writer buf gen).1 = g writer) {fuel : Nat}
    {r : (ρ × ω × CopyBuf) × Poll (Except IoError Unit)}
    (hloop : copyLoop R W fuel reader writer c = some r) :
    f r.1.1 = f reader ∧ g r.1.2.1 = g writer := by
  induction fuel generalizing reader writer c with
  | zero => cases hloop
  | succ fuel ih =>
      unfold copyLoop at hloop
      split at hloop
      next =>
        have hwriter := hg writer c.rest c.generation
        rcases hpoll : W.pollWriteOperation writer c.rest c.generation with
          ⟨writer', (error | count) | _⟩ <;> simp only [hpoll] at hloop hwriter
        · cases hloop
          exact ⟨rfl, hwriter⟩
        · cases count with
          | zero =>
              cases hloop
              exact ⟨rfl, hwriter⟩
          | succ count =>
              obtain ⟨hreader, hwriter'⟩ := ih hloop
              exact ⟨hreader, hwriter'.trans hwriter⟩
        · cases hloop
          exact ⟨rfl, hwriter⟩
      next =>
        have hreader := hf reader copyBufSize
        rcases hpoll : R.pollRead reader copyBufSize with ⟨reader', (error | bytes) | _⟩ <;>
          simp only [hpoll] at hloop hreader
        · cases hloop
          exact ⟨hreader, rfl⟩
        · split at hloop
          · cases hloop
            exact ⟨hreader, rfl⟩
          · obtain ⟨hreader', hwriter⟩ := ih hloop
            exact ⟨hreader'.trans hreader, hwriter⟩
        · cases hloop
          exact ⟨hreader, rfl⟩

/-- What a copy of `count` bytes has done when its barrier has succeeded: everything up to
the end of the input was accepted, and the barrier came after it. -/
structure Copied (barrier : CopyBarrier) (R : AsyncRead ρ) (W : RetainingWrite ω) (before : Before)
    (reader : Recorded ρ) (writer : Recorded ω) (count : Nat) : Prop where
  obtained : R.obtained reader.1 = before.read ++ readBytes reader.2
  accepted : W.accepted writer.1 = before.accepted ++ readBytes reader.2
  count : count = (readBytes reader.2).length
  ended : AtEnd reader.2
  finished : Finished barrier writer.2

theorem Streams.toCopied (h : Streams R W before reader writer c) (hrest : c.rest = [])
    (hended : AtEnd reader.2) (hfinished : Finished barrier writer.2) :
    Copied barrier R W before reader writer c.copied := by
  have haccepted := h.accepted
  have hcopied := h.copied
  rw [hrest, List.append_nil] at haccepted
  rw [hrest] at hcopied
  exact ⟨h.obtained, haccepted, hcopied, hended, hfinished⟩

/-! ## One direction -/

namespace Copy

variable {copy copy' : Copy (Recorded ρ) (Recorded ω)}

structure Faithful (R : AsyncRead ρ) (W : RetainingWrite ω) (before : Before)
    (copy : Copy (Recorded ρ) (Recorded ω)) : Prop where
  streams : Streams R W before copy.reader copy.writer copy.buffer
  copying : copy.state = .copying → Moving copy.reader copy.writer
  flushing : copy.state = .flushing → Ended .flush copy.reader copy.writer copy.buffer

structure Returned (R : AsyncRead ρ) (W : RetainingWrite ω) (before : Before)
    (copy : Copy (Recorded ρ) (Recorded ω)) (output : Except IoError Nat) : Prop where
  streams : Streams R W before copy.reader copy.writer copy.buffer
  copied : ∀ count, output = .ok count →
    Copied .flush R W before copy.reader copy.writer count

def Polled (R : AsyncRead ρ) (W : RetainingWrite ω) (before : Before)
    (r : Copy (Recorded ρ) (Recorded ω) × Poll (Except IoError Nat)) : Prop :=
  Driven.Outcome (Faithful R W before) (Returned R W before) (r.1, toOption r.2)

theorem Faithful.flush (h : Faithful R W before copy) (hstate : copy.state = .flushing) :
    Polled R W before (copy.flush W.recorded.toAsyncWrite) := by
  obtain ⟨hrest, hended, htried⟩ := h.flushing hstate
  obtain ⟨haccepted, hoffered⟩ := W.pollFlush_eq copy.writer.1
  unfold Copy.flush
  simp only [RetainingWrite.recorded]
  rcases hpoll : W.pollFlush copy.writer.1 with ⟨w, (error | ⟨⟩) | _⟩ <;>
    simp only [hpoll] at haccepted hoffered ⊢
  all_goals
    have hoffers : Offers W w copy.buffer.rest := by
      rw [Offers, hoffered]
      exact h.streams.offers
    have hstreams (calls) : Streams R W before copy.reader (w, calls) copy.buffer :=
      h.streams.withWriter haccepted hoffers
  · exact ⟨hstreams _, by simp⟩
  · refine ⟨hstreams _, fun count hcount => ?_⟩
    cases hcount
    exact (hstreams _).toCopied hrest hended htried.finished
  · refine ⟨hstreams _, fun hcopying => ?_, fun _ => ⟨hrest, hended, htried.again (by simp)⟩⟩
    cases hstate.symm.trans hcopying

theorem Faithful.poll {fuel : Nat}
    {r : Copy (Recorded ρ) (Recorded ω) × Poll (Except IoError Nat)}
    (h : Faithful R W before copy)
    (hpoll : copy.poll R.recorded W.recorded.toAsyncWrite fuel = some r) : Polled R W before r := by
  unfold Copy.poll at hpoll
  split at hpoll
  next hstate =>
    obtain ⟨⟨⟨reader, writer, buffer⟩, poll⟩, hloop, rfl⟩ := Option.map_eq_some_iff.mp hpoll
    have hlooped := looped_copyLoop h.streams (h.copying hstate) hloop
    rcases poll with (error | ⟨⟩) | _
    · exact ⟨hlooped.1, by simp⟩
    · obtain ⟨hstreams, hended⟩ := hlooped
      exact Faithful.flush ⟨hstreams, fun hcopying => CopyState.noConfusion hcopying,
        fun _ => hended .flush⟩ rfl
    · obtain ⟨hstreams, hmoving⟩ := hlooped
      refine ⟨hstreams, fun _ => hmoving, fun hflushing => ?_⟩
      cases hstate.symm.trans hflushing
  next hstate =>
    cases hpoll
    exact h.flush hstate

/-- `copy`. -/
def new (reader : ρ) (writer : ω) (generation : Generation) : Copy ρ ω :=
  { reader, writer, buffer := { generation } }

/-- The polls of a `Copy`. -/
def turn (R : AsyncRead ρ) (W : AsyncWrite ω) (fuel : Nat) (copy : Copy ρ ω) :
    Option (Copy ρ ω × Option (Except IoError Nat)) :=
  (copy.poll R W fuel).map fun (copy, poll) => (copy, toOption poll)

theorem streams_new {reader : ρ} {writer : ω} (hfresh : W.offered writer = [])
    (generation : Generation) :
    Streams R W ⟨R.obtained reader, W.accepted writer⟩ (reader, {}) (writer, {}) { generation } :=
  ⟨(List.append_nil _).symm, rfl, rfl, .of_nil hfresh⟩

theorem moving_new {reader : ρ} {writer : ω} :
    Moving (reader, ({} : StreamCalls)) (writer, ({} : StreamCalls)) :=
  ⟨List.not_mem_nil, fun _ hmem => absurd hmem List.not_mem_nil⟩

structure Preserved (R : AsyncRead ρ) (W : RetainingWrite ω) (before : Before)
    (d : Driven (Copy (Recorded ρ) (Recorded ω)) (Except IoError Nat)) : Prop where
  streams : Streams R W before d.state.reader d.state.writer d.state.buffer
  copied : ∀ count, d.output = some (.ok count) →
    Copied .flush R W before d.state.reader d.state.writer count

theorem preserved_of_reachable {reader : ρ} {writer : ω} {generation : Generation}
    {d : Driven (Copy (Recorded ρ) (Recorded ω)) (Except IoError Nat)}
    (hfresh : W.offered writer = [])
    (hreach : Reachable (Driven.step (turn R.recorded W.recorded.toAsyncWrite)) (fun _ _ => True)
      { state := new (reader, {}) (writer, {}) generation } d) :
    Preserved R W ⟨R.obtained reader, W.accepted writer⟩ d := by
  have hnew : Faithful R W ⟨R.obtained reader, W.accepted writer⟩
      (new (reader, {}) (writer, {}) generation) :=
    ⟨streams_new hfresh generation, fun _ => moving_new,
      fun hstate => CopyState.noConfusion hstate⟩
  have houtcome : Driven.Outcome (Faithful R W _) (Returned R W _) (d.state, d.output) :=
    Driven.invariant (fun fuel copy r h hturn => by
      obtain ⟨polled, hpoll, rfl⟩ := Option.map_eq_some_iff.mp hturn
      exact h.poll hpoll) hnew hreach
  obtain ⟨copy, output⟩ := d
  cases output with
  | none => exact ⟨houtcome.streams, by simp⟩
  | some output => exact ⟨houtcome.streams, fun count hcount =>
      houtcome.copied count (Option.some.inj hcount)⟩

end Copy

/-! ## Two directions -/

/-- What each state of a direction means. -/
def CopyHalf.Shaped (reader : Recorded ρ) (writer : Recorded ω) (half : CopyHalf) :
    Prop :=
  match half.state with
  | .copying => Moving reader writer
  | .closing => Ended .close reader writer half.toCopyBuf
  | .done => half.rest = [] ∧ AtEnd reader.2 ∧ Finished .close writer.2

variable {half half' : CopyHalf}

/-- A direction, at any point of a copy. -/
structure CopyHalf.Faithful (R : AsyncRead ρ) (W : RetainingWrite ω) (before : Before)
    (reader : Recorded ρ) (writer : Recorded ω) (half : CopyHalf) : Prop where
  streams : Streams R W before reader writer half.toCopyBuf
  shaped : half.Shaped reader writer

theorem faithful_closeHalf (h : Streams R W before reader writer c)
    (hended : Ended .close reader writer c) {half : CopyHalf} {poll : Poll (Except IoError Unit)}
    (hclose : closeHalf W.recorded.toAsyncWrite reader writer c = ((reader', writer', half), poll)) :
    half.Faithful R W before reader' writer' := by
  obtain ⟨hrest, hreads, htried⟩ := hended
  obtain ⟨haccepted, hoffered⟩ := W.pollClose_eq writer.1
  unfold closeHalf at hclose
  simp only [RetainingWrite.recorded] at hclose
  rcases hpoll : W.pollClose writer.1 with ⟨w, (error | ⟨⟩) | _⟩ <;>
    simp only [hpoll] at haccepted hoffered hclose <;> cases hclose
  all_goals
    have hoffers : Offers W w c.rest := by
      rw [Offers, hoffered]
      exact h.offers
    have hstreams (calls) : Streams R W before reader (w, calls) c :=
      h.withWriter haccepted hoffers
  · exact ⟨hstreams _, hrest, hreads, htried.again (by simp)⟩
  · exact ⟨hstreams _, hrest, hreads, htried.finished⟩
  · exact ⟨hstreams _, hrest, hreads, htried.again (by simp)⟩

theorem CopyHalf.Faithful.poll (h : half.Faithful R W before reader writer) {fuel : Nat}
    {poll : Poll (Except IoError Unit)}
    (hpoll : pollCopyHalf R.recorded W.recorded.toAsyncWrite fuel reader writer half =
      some ((reader', writer', half'), poll)) :
    half'.Faithful R W before reader' writer' := by
  have hstreams := h.streams
  have hshaped := h.shaped
  unfold pollCopyHalf at hpoll
  unfold CopyHalf.Shaped at hshaped
  split at hpoll
  next hstate =>
    rw [hstate] at hshaped
    obtain ⟨⟨⟨reader₁, writer₁, c⟩, poll₁⟩, hloop, heq⟩ := Option.map_eq_some_iff.mp hpoll
    have hlooped := looped_copyLoop hstreams hshaped hloop
    rcases poll₁ with (error | ⟨⟩) | _
    · cases heq
      exact ⟨hlooped.1, hlooped.2⟩
    · exact faithful_closeHalf hlooped.1 (hlooped.2 .close) heq
    · cases heq
      exact ⟨hlooped.1, hlooped.2⟩
  next hstate =>
    rw [hstate] at hshaped
    exact faithful_closeHalf hstreams hshaped (Option.some.inj hpoll)
  next hstate =>
    cases hpoll
    exact h

/-- A direction does not see the other one: its reads and its writes are its own. -/
theorem CopyHalf.Faithful.congr (h : half.Faithful R W before reader writer)
    (hobtained : R.obtained reader'.1 = R.obtained reader.1)
    (hreads : reader'.2.reads = reader.2.reads)
    (haccepted : W.accepted writer'.1 = W.accepted writer.1)
    (hoffered : W.offered writer'.1 = W.offered writer.1)
    (hwrites : writer'.2.writes = writer.2.writes) :
    half.Faithful R W before reader' writer' := by
  have hoffers : Offers W writer'.1 half.rest := by
    rw [Offers, hoffered]
    exact h.streams.offers
  have hbytes : readBytes reader'.2 = readBytes reader.2 := by rw [readBytes, hreads, readBytes]
  refine ⟨(h.streams.withReader hobtained hbytes).withWriter haccepted hoffers, ?_⟩
  have hshaped := h.shaped
  unfold CopyHalf.Shaped at hshaped ⊢
  split at hshaped
  · exact ⟨by rw [Open, hreads]; exact hshaped.reads, by rw [Writing, hwrites]; exact hshaped.writes⟩
  · exact ⟨hshaped.rest, by rw [AtEnd, hreads]; exact hshaped.reads,
      by rw [Tried, hwrites]; exact hshaped.writes⟩
  · exact ⟨hshaped.1, by rw [AtEnd, hreads]; exact hshaped.2.1,
      by rw [Finished, hwrites]; exact hshaped.2.2⟩

/-- What a read keeps of a reader, and a write and a close of a writer, a poll of
a direction keeps. -/
theorem frame_pollCopyHalf {γ δ : Type} {W : AsyncWrite ω} {reader : ρ} {writer : ω} (f : ρ → γ) (g : ω → δ)
    (hf : ∀ reader len, f (R.pollRead reader len).1 = f reader)
    (hg : ∀ writer buf gen, g (W.pollWriteOperation writer buf gen).1 = g writer)
    (hclose : ∀ writer, g (W.pollClose writer).1 = g writer) {fuel : Nat}
    {r : (ρ × ω × CopyHalf) × Poll (Except IoError Unit)}
    (hpoll : pollCopyHalf R W fuel reader writer half = some r) :
    f r.1.1 = f reader ∧ g r.1.2.1 = g writer := by
  have hcloseHalf : ∀ reader writer c, f (closeHalf W reader writer c).1.1 = f reader ∧
      g (closeHalf W reader writer c).1.2.1 = g writer := by
    intro reader writer c
    have hwriter := hclose writer
    unfold closeHalf
    rcases hpoll : W.pollClose writer with ⟨writer', (error | ⟨⟩) | _⟩ <;>
      simp only [hpoll] at hwriter <;> exact ⟨rfl, hwriter⟩
  unfold pollCopyHalf at hpoll
  split at hpoll
  · obtain ⟨⟨⟨reader₁, writer₁, c⟩, poll₁⟩, hloop, rfl⟩ := Option.map_eq_some_iff.mp hpoll
    have hframe := frame_copyLoop f g hf hg hloop
    rcases poll₁ with (error | ⟨⟩) | _
    · exact hframe
    · obtain ⟨hreader, hwriter⟩ := hcloseHalf reader₁ writer₁ c
      exact ⟨hreader.trans hframe.1, hwriter.trans hframe.2⟩
    · exact hframe
  · cases hpoll
    exact hcloseHalf reader writer _
  · cases hpoll
    exact ⟨rfl, rfl⟩

namespace CopyBidirectional

variable {β : Type} {A : AsyncReadWrite α} {B : AsyncReadWrite β}
  {copy copy' : CopyBidirectional (Recorded α) (Recorded β)} {before before' : Before}

/-- Both directions are faithful; `before` is for the one from `a` to `b`. -/
structure Faithful (A : AsyncReadWrite α) (B : AsyncReadWrite β) (before before' : Before)
    (copy : CopyBidirectional (Recorded α) (Recorded β)) : Prop where
  aToB : copy.aToB.Faithful A.toAsyncRead B.toRetainingWrite before copy.a copy.b
  bToA : copy.bToA.Faithful B.toAsyncRead A.toRetainingWrite before' copy.b copy.a

/-- The side of a stream that reads leave alone. -/
def written (A : AsyncReadWrite α) (a : Recorded α) :
    List UInt8 × List (List UInt8) × List WriteCall :=
  (A.accepted a.1, A.offered a.1, a.2.writes)

/-- The side of a stream that writes leave alone. -/
def obtained (A : AsyncReadWrite α) (a : Recorded α) :
    List UInt8 × List (Poll (Except IoError (List UInt8))) :=
  (A.obtained a.1, a.2.reads)

theorem written_pollRead (A : AsyncReadWrite α) (a : Recorded α) (len : Nat) :
    written A (A.recorded.pollRead a len).1 = written A a :=
  Prod.ext (A.accepted_pollRead a.1 len) (Prod.ext (A.offered_pollRead a.1 len) rfl)

theorem obtained_pollWrite (A : AsyncReadWrite α) (a : Recorded α) (buf : List UInt8)
    (g : Generation) : obtained A (A.recorded.pollWriteOperation a buf g).1 = obtained A a :=
  Prod.ext (A.obtained_pollWrite a.1 buf g) rfl

theorem obtained_pollClose (A : AsyncReadWrite α) (a : Recorded α) :
    obtained A (A.recorded.pollClose a).1 = obtained A a :=
  Prod.ext (A.obtained_pollClose a.1) rfl

theorem Faithful.pollAToB {fuel : Nat} {poll : Poll (Except IoError Unit)}
    (h : Faithful A B before before' copy)
    (hpoll : copy.pollAToB A.recorded B.recorded fuel = some (copy', poll)) : Faithful A B before before' copy' := by
  unfold CopyBidirectional.pollAToB at hpoll
  split at hpoll
  · cases hpoll
    exact h
  · obtain ⟨⟨⟨a, b, half⟩, poll⟩, hhalf, heq⟩ := Option.map_eq_some_iff.mp hpoll
    cases heq
    obtain ⟨ha, hb⟩ := frame_pollCopyHalf (written A) (obtained B) (written_pollRead A)
      (obtained_pollWrite B) (obtained_pollClose B) hhalf
    obtain ⟨⟨haccepted, hoffered, hwrites⟩, hobtained, hreads⟩ :=
      And.intro (by simpa [written] using ha) (by simpa [obtained] using hb)
    exact ⟨h.aToB.poll hhalf, h.bToA.congr hobtained hreads haccepted hoffered hwrites⟩

theorem Faithful.pollBToA {fuel : Nat} {poll : Poll (Except IoError Unit)}
    (h : Faithful A B before before' copy)
    (hpoll : copy.pollBToA A.recorded B.recorded fuel = some (copy', poll)) : Faithful A B before before' copy' := by
  unfold CopyBidirectional.pollBToA at hpoll
  split at hpoll
  · cases hpoll
    exact h
  · obtain ⟨⟨⟨b, a, half⟩, poll⟩, hhalf, heq⟩ := Option.map_eq_some_iff.mp hpoll
    cases heq
    obtain ⟨hb, ha⟩ := frame_pollCopyHalf (written B) (obtained A) (written_pollRead B)
      (obtained_pollWrite A) (obtained_pollClose A) hhalf
    obtain ⟨⟨haccepted, hoffered, hwrites⟩, hobtained, hreads⟩ :=
      And.intro (by simpa [written] using hb) (by simpa [obtained] using ha)
    exact ⟨h.aToB.congr hobtained hreads haccepted hoffered hwrites, h.bToA.poll hhalf⟩

/-- A copy in both directions that has returned. -/
structure Returned (A : AsyncReadWrite α) (B : AsyncReadWrite β) (before before' : Before)
    (copy : CopyBidirectional (Recorded α) (Recorded β)) (output : Except IoError (Nat × Nat)) : Prop where
  faithful : Faithful A B before before' copy
  done : ∀ counts, output = .ok counts → counts = (copy.aToB.copied, copy.bToA.copied) ∧
    copy.aToB.state = .done ∧ copy.bToA.state = .done

/-- What a poll of both directions leaves. -/
def Polled (A : AsyncReadWrite α) (B : AsyncReadWrite β) (before before' : Before)
    (r : CopyBidirectional (Recorded α) (Recorded β) × Poll (Except IoError (Nat × Nat))) : Prop :=
  Driven.Outcome (Faithful A B before before') (Returned A B before before') (r.1, toOption r.2)

theorem Faithful.finish (h : Faithful A B before before' copy) :
    Polled A B before before' copy.finish := by
  unfold CopyBidirectional.finish
  split
  next hdone =>
    obtain ⟨ha, hb⟩ := Bool.and_eq_true_iff.mp hdone
    refine ⟨h, fun counts hcounts => ?_⟩
    cases hcounts
    exact ⟨rfl, of_decide_eq_true ha, of_decide_eq_true hb⟩
  next => exact h

theorem Faithful.pollRest {fuel : Nat}
    {r : CopyBidirectional (Recorded α) (Recorded β) × Poll (Except IoError (Nat × Nat))}
    (h : Faithful A B before before' copy) (hpoll : copy.pollRest A.recorded B.recorded fuel = some r) :
    Polled A B before before' r := by
  obtain ⟨⟨copy', poll⟩, hhalf, rfl⟩ := Option.map_eq_some_iff.mp hpoll
  have h' := h.pollBToA hhalf
  rcases poll with (error | ⟨⟩) | _
  · exact ⟨h', by simp⟩
  · exact h'.finish
  · exact h'.finish

theorem Faithful.poll {fuel : Nat} {r : CopyBidirectional (Recorded α) (Recorded β) × Poll (Except IoError (Nat × Nat))}
    (h : Faithful A B before before' copy) (hpoll : copy.poll A.recorded B.recorded fuel = some r) :
    Polled A B before before' r := by
  obtain ⟨⟨copy', poll⟩, hhalf, hpoll⟩ := Option.bind_eq_some_iff.mp hpoll
  have h' := h.pollAToB hhalf
  rcases poll with (error | ⟨⟩) | _
  · cases hpoll
    exact ⟨h', by simp⟩
  · exact h'.pollRest hpoll
  · exact h'.pollRest hpoll

/-- `copy_bidirectional`. -/
def new (a : α) (b : β) (generation generation' : Generation) : CopyBidirectional α β :=
  { a, b, aToB := { generation }, bToA := { generation := generation' } }

/-- The polls of a `CopyBidirectional`. -/
def turn (A : AsyncReadWrite α) (B : AsyncReadWrite β) (fuel : Nat)
    (copy : CopyBidirectional α β) :
    Option (CopyBidirectional α β × Option (Except IoError (Nat × Nat))) :=
  (copy.poll A B fuel).map fun (copy, poll) => (copy, toOption poll)

/-- What holds of a direction at any time: the writer has accepted what was read,
up to what is in the buffer; it is closed only after the end of the input, when it has
accepted everything, and after the close nothing reaches it. -/
structure HalfPreserved (R : AsyncRead ρ) (W : RetainingWrite ω) (before : Before)
    (reader : Recorded ρ) (writer : Recorded ω) (half : CopyHalf) : Prop where
  streams : Streams R W before reader writer half.toCopyBuf
  closing : ∀ answer, .close answer ∈ writer.2.writes →
    AtEnd reader.2 ∧ W.accepted writer.1 = before.accepted ++ readBytes reader.2 ∧
      (Tried .close writer.2 ∨ Finished .close writer.2)
  closed : 0 < closes writer.2 → Copied .close R W before reader writer half.copied
  closed_once : closes writer.2 ≤ 1

theorem halfPreserved (h : half.Faithful R W before reader writer) :
    HalfPreserved R W before reader writer half := by
  have hshaped := h.shaped
  have haccepted : half.rest = [] →
      W.accepted writer.1 = before.accepted ++ readBytes reader.2 := by
    intro hrest
    have haccepted := h.streams.accepted
    rwa [hrest, List.append_nil] at haccepted
  unfold CopyHalf.Shaped at hshaped
  split at hshaped
  · have hopen := (hshaped.writes.tried .close).closes_eq
    exact ⟨h.streams, fun answer hmem => absurd hmem (hshaped.writes.not_close answer),
      fun hpos => absurd hopen (Nat.ne_of_gt hpos), Nat.le_trans (Nat.le_of_eq hopen) (Nat.zero_le 1)⟩
  · have hopen := hshaped.writes.closes_eq
    exact ⟨h.streams, fun _ _ => ⟨hshaped.reads, haccepted hshaped.rest, .inl hshaped.writes⟩,
      fun hpos => absurd hopen (Nat.ne_of_gt hpos), Nat.le_trans (Nat.le_of_eq hopen) (Nat.zero_le 1)⟩
  · obtain ⟨hrest, hreads, hfinished⟩ := hshaped
    exact ⟨h.streams, fun _ _ => ⟨hreads, haccepted hrest, .inr hfinished⟩,
      fun _ => h.streams.toCopied hrest hreads hfinished, Nat.le_of_eq hfinished.closes_eq⟩

/-- What holds of a copy in both directions at any time. -/
structure Preserved (A : AsyncReadWrite α) (B : AsyncReadWrite β) (before before' : Before)
    (d : Driven (CopyBidirectional (Recorded α) (Recorded β))
      (Except IoError (Nat × Nat))) : Prop where
  aToB : HalfPreserved A.toAsyncRead B.toRetainingWrite before d.state.a d.state.b d.state.aToB
  bToA : HalfPreserved B.toAsyncRead A.toRetainingWrite before' d.state.b d.state.a d.state.bToA
  copied : ∀ x y, d.output = some (.ok (x, y)) →
    Copied .close A.toAsyncRead B.toRetainingWrite before d.state.a d.state.b x ∧
    Copied .close B.toAsyncRead A.toRetainingWrite before' d.state.b d.state.a y
  closed : ∀ x y, d.output = some (.ok (x, y)) → closes d.state.b.2 = 1 ∧ closes d.state.a.2 = 1

theorem copied_of_done (h : half.Faithful R W before reader writer) (hdone : half.state = .done) :
    Copied .close R W before reader writer half.copied := by
  have hshaped := h.shaped
  rw [CopyHalf.Shaped, hdone] at hshaped
  exact h.streams.toCopied hshaped.1 hshaped.2.1 hshaped.2.2

theorem preserved_of_reachable {a : α} {b : β} {generation generation' : Generation}
    {d : Driven (CopyBidirectional (Recorded α) (Recorded β))
      (Except IoError (Nat × Nat))}
    (ha : A.offered a = []) (hb : B.offered b = [])
    (hreach : Reachable (Driven.step (turn A.recorded B.recorded)) (fun _ _ => True)
      { state := new (a, {}) (b, {}) generation generation' } d) :
    Preserved A B ⟨A.obtained a, B.accepted b⟩ ⟨B.obtained b, A.accepted a⟩ d := by
  have hnew : Faithful A B ⟨A.obtained a, B.accepted b⟩ ⟨B.obtained b, A.accepted a⟩
      (new (a, {}) (b, {}) generation generation') :=
    ⟨⟨Copy.streams_new hb generation, Copy.moving_new⟩,
      ⟨Copy.streams_new ha generation', Copy.moving_new⟩⟩
  have houtcome : Driven.Outcome (Faithful A B _ _) (Returned A B _ _) (d.state, d.output) :=
    Driven.invariant (fun fuel copy r h hturn => by
      obtain ⟨polled, hpoll, rfl⟩ := Option.map_eq_some_iff.mp hturn
      exact h.poll hpoll) hnew hreach
  obtain ⟨copy, output⟩ := d
  cases output with
  | none => exact ⟨halfPreserved houtcome.aToB, halfPreserved houtcome.bToA, by simp, by simp⟩
  | some output =>
      obtain ⟨hfaithful, hdone⟩ := houtcome
      refine ⟨halfPreserved hfaithful.aToB, halfPreserved hfaithful.bToA, fun x y houtput => ?_,
        fun x y houtput => ?_⟩
      all_goals obtain ⟨hcounts, hstateA, hstateB⟩ := hdone (x, y) (Option.some.inj houtput)
      · cases hcounts
        exact ⟨copied_of_done hfaithful.aToB hstateA, copied_of_done hfaithful.bToA hstateB⟩
      · exact ⟨(copied_of_done hfaithful.aToB hstateA).finished.closes_eq,
          (copied_of_done hfaithful.bToA hstateB).finished.closes_eq⟩

end CopyBidirectional

/-! ## Both -/

/-- Over recorded readers and writers that are not in the middle of a write, in every
state that polls reach: a copy, and each direction of a copy in both, has not lost or
repeated a byte; `Ok(n)` says that the writer has accepted the `n` bytes up to the
end of the input and was then flushed, and `Ok((x, y))` that of each direction,
with the one close (which flushes) at the end. -/
theorem copies_preserve {β : Type} (R : AsyncRead ρ) (W : RetainingWrite ω)
    (A : AsyncReadWrite α) (B : AsyncReadWrite β) {reader : ρ} {writer : ω} {a : α} {b : β}
    {generation generation' : Generation}
    {d : Driven (Copy (Recorded ρ) (Recorded ω)) (Except IoError Nat)}
    {d' : Driven (CopyBidirectional (Recorded α) (Recorded β))
      (Except IoError (Nat × Nat))}
    (hwriter : W.offered writer = []) (ha : A.offered a = []) (hb : B.offered b = [])
    (hcopy : Reachable (Driven.step (Copy.turn R.recorded W.recorded.toAsyncWrite))
      (fun _ _ => True) { state := Copy.new (reader, {}) (writer, {}) generation } d)
    (hboth : Reachable (Driven.step (CopyBidirectional.turn A.recorded B.recorded))
      (fun _ _ => True)
      { state := CopyBidirectional.new (a, {}) (b, {}) generation generation' } d') :
    Copy.Preserved R W ⟨R.obtained reader, W.accepted writer⟩ d ∧
      CopyBidirectional.Preserved A B ⟨A.obtained a, B.accepted b⟩ ⟨B.obtained b, A.accepted a⟩
        d' :=
  ⟨Copy.preserved_of_reachable hwriter hcopy,
    CopyBidirectional.preserved_of_reachable ha hb hboth⟩

/-- A stream that answers from two scripts. -/
structure Endpoint where
  input : Script
  output : Sink
  deriving DecidableEq

def Endpoint.readWrite : AsyncReadWrite Endpoint where
  pollRead e len := ({ e with input := (e.input.pollRead len).1 }, (e.input.pollRead len).2)
  obtained e := e.input.given
  length_le e len := Script.reader.length_le e.input len
  obtained_pollRead e len := Script.reader.obtained_pollRead e.input len
  pollWriteOperation e buf _ :=
    ({ e with output := (e.output.pollWrite buf).1 }, (e.output.pollWrite buf).2)
  pollFlush e := (e, .ready (.ok ()))
  pollClose e := (e, .ready (.ok ()))
  accepted e := e.output.accepted
  offered e := e.output.offered
  accepts e buf g := Sink.writer.accepts e.output buf g
  offered_pollWrite e buf g := Sink.writer.offered_pollWrite e.output buf g
  pollFlush_eq _ := ⟨rfl, rfl⟩
  pollClose_eq _ := ⟨rfl, rfl⟩
  accepted_pollRead _ _ := rfl
  offered_pollRead _ _ := rfl
  obtained_pollWrite _ _ _ := rfl
  obtained_pollClose _ := rfl

/-- Three chunks with waits between them and short writes, in one direction and
in both. -/
theorem copies_preserve_scripts :
    (∃ d : Driven (Copy (Recorded Script) (Recorded Sink)) (Except IoError Nat),
      d.output = some (.ok 6) ∧ d.state.writer.1.accepted = [1, 2, 3, 4, 5, 6] ∧
        Finished .flush d.state.writer.2) ∧
    ∃ d : Driven (CopyBidirectional (Recorded Endpoint) (Recorded Endpoint))
        (Except IoError (Nat × Nat)),
      d.output = some (.ok (3, 2)) ∧ d.state.b.1.output.accepted = [1, 2, 3] ∧
        d.state.a.1.output.accepted = [4, 5] ∧ closes d.state.b.2 = 1 ∧ closes d.state.a.2 = 1 := by
  obtain ⟨d, hcopy, hd⟩ := Reachable.exists_of_run
    (Driven.step (Copy.turn Script.reader.recorded Sink.writer.recorded.toAsyncWrite))
    (fun _ _ => True)
    { state := Copy.new
        ({ answers := [.ready (.ok [1, 2, 3]), .pending, .ready (.ok [4]), .ready (.ok [5, 6])] },
          {})
        ({ answers := [.pending, .ready (.ok 1), .pending, .ready (.ok 2)] }, {}) 0 }
    [9, 9, 9, 9]
    (fun d => d.output = some (.ok 6) ∧ readBytes d.state.reader.2 = [1, 2, 3, 4, 5, 6])
    (by simp) (by decide +kernel)
  obtain ⟨d', hboth, hd'⟩ := Reachable.exists_of_run
    (Driven.step (CopyBidirectional.turn Endpoint.readWrite.recorded Endpoint.readWrite.recorded))
    (fun _ _ => True)
    { state := CopyBidirectional.new
        ({ input := { answers := [.ready (.ok [1, 2, 3])] }, output := { answers := [.pending] } },
          {})
        ({ input := { answers := [.pending, .ready (.ok [4, 5])] }
           output := { answers := [.ready (.ok 2), .pending] } }, {}) 0 1 }
    [9, 9, 9]
    (fun d => d.output = some (.ok (3, 2)) ∧ readBytes d.state.a.2 = [1, 2, 3] ∧
      readBytes d.state.b.2 = [4, 5])
    (by simp) (by decide +kernel)
  obtain ⟨houtput, hbytes⟩ := of_decide_eq_true hd
  obtain ⟨houtput', hbytesA, hbytesB⟩ := of_decide_eq_true hd'
  obtain ⟨hone, htwo⟩ := copies_preserve Script.reader Sink.writer Endpoint.readWrite
    Endpoint.readWrite rfl rfl rfl hcopy hboth
  have hcopied := hone.copied 6 houtput
  obtain ⟨hcopiedA, hcopiedB⟩ := htwo.copied 3 2 houtput'
  exact ⟨⟨d, houtput, hcopied.accepted.trans hbytes, hcopied.finished⟩, d', houtput',
    hcopiedA.accepted.trans hbytesA, hcopiedB.accepted.trans hbytesB, htwo.closed 3 2 houtput'⟩

end Runite.Io
