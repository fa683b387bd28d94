import Runite.Io.Ext
import Runite.Io.Recorded
import Runite.Lib.Chronicle
import Runite.Lib.Polling

/-!
# Whole buffers keep the streams

What a read future holds is what its reader has given since it was made, and what a `WriteAll`
has written is what its writer has accepted, at every point where they can be suspended.  What
they return is decided by the last answer of the recorded reader or writer.
-/

namespace Runite.Io

open Transition Polling

variable {ρ ω : Type} {R : AsyncRead ρ} {W : RetainingWrite ω}

/-- A recorded reader has given the bytes that were read. -/
def Kept (R : AsyncRead ρ) (before : List UInt8) (reader : Recorded ρ) : Prop :=
  R.obtained reader.1 = before ++ readBytes reader.2

theorem Kept.pollRead {before : List UInt8} {reader : Recorded ρ} (h : Kept R before reader)
    (len : Nat) : Kept R before (R.recorded.pollRead reader len).1 := by
  have hobtained := R.obtained_pollRead reader.1 len
  rw [h] at hobtained
  show R.obtained (R.pollRead reader.1 len).1 = before ++ readBytes (reader.2.noteRead _)
  rw [readBytes_noteRead, hobtained, List.append_assoc]

/-! ## `ReadExact` -/

namespace ReadExact

variable {before buf : List UInt8} {f : ReadExact ρ}

theorem take_fillAt {filled : Nat} (hle : filled ≤ buf.length) (bytes : List UInt8) :
    (fillAt buf filled bytes).take (filled + bytes.length) = buf.take filled ++ bytes := by
  have hlength : (buf.take filled ++ bytes).length = filled + bytes.length := by
    rw [List.length_append, List.length_take, Nat.min_eq_left hle]
  rw [fillAt, ← hlength, List.take_left]

theorem drop_fillAt {filled : Nat} (hle : filled ≤ buf.length) (bytes : List UInt8) :
    (fillAt buf filled bytes).drop (filled + bytes.length) =
      (buf.drop filled).drop bytes.length := by
  have hlength : (buf.take filled ++ bytes).length = filled + bytes.length := by
    rw [List.length_append, List.length_take, Nat.min_eq_left hle]
  rw [fillAt, List.drop_drop]
  exact List.drop_left' hlength

theorem length_fillAt {filled : Nat} {bytes : List UInt8}
    (hle : filled + bytes.length ≤ buf.length) :
    (fillAt buf filled bytes).length = buf.length := by
  simp only [fillAt, List.length_append, List.length_take, List.length_drop]
  omega

/-- The buffer has what was read, and behind it what it had before. -/
structure Filling (R : AsyncRead ρ) (before buf : List UInt8) (f : ReadExact ρ) : Prop where
  obtained : R.obtained f.reader = before ++ f.buf.take f.filled
  behind : f.buf.drop f.filled = buf.drop f.filled
  length_eq : f.buf.length = buf.length
  filled_le : f.filled ≤ buf.length

/-- What a poll leaves: a buffer that is full if and only if the poll has returned `Ok`. -/
def Polled (R : AsyncRead ρ) (before buf : List UInt8) :
    ReadExact ρ × Poll (Except IoError Unit) → Prop
  | (f, .ready (.ok ())) => Filling R before buf f ∧ f.filled = buf.length
  | (f, .ready (.error _)) => Filling R before buf f ∧ f.filled < buf.length
  | (f, .pending) => Filling R before buf f ∧ f.filled < buf.length

/-- An answer without bytes leaves the buffer as it is. -/
theorem Filling.withReader {reader : ρ} (h : Filling R before buf f)
    (hobtained : R.obtained reader = R.obtained f.reader ++ []) :
    Filling R before buf { f with reader } :=
  ⟨by rw [hobtained, List.append_nil, h.obtained], h.behind, h.length_eq, h.filled_le⟩

theorem Filling.fill {reader : ρ} {bytes : List UInt8} (h : Filling R before buf f)
    (hobtained : R.obtained reader = R.obtained f.reader ++ bytes)
    (hbytes : bytes.length ≤ f.buf.length - f.filled) :
    Filling R before buf
      { reader, buf := fillAt f.buf f.filled bytes, filled := f.filled + bytes.length } := by
  have hle : f.filled ≤ f.buf.length := h.length_eq.symm ▸ h.filled_le
  have hfits : f.filled + bytes.length ≤ f.buf.length := by omega
  refine ⟨?_, ?_, ?_, ?_⟩
  · rw [hobtained, h.obtained, take_fillAt hle, List.append_assoc]
  · rw [drop_fillAt hle, h.behind, List.drop_drop]
  · rw [length_fillAt hfits, h.length_eq]
  · exact h.length_eq ▸ hfits

theorem polled_loop (fuel : Nat) (h : Filling R before buf f)
    (hfuel : buf.length ≤ f.filled + fuel) : Polled R before buf (f.loop R fuel) := by
  induction fuel generalizing f with
  | zero =>
      refine ⟨h, ?_⟩
      have hle := h.filled_le
      omega
  | succ fuel ih =>
      unfold loop
      by_cases hlt : f.filled < f.buf.length
      · rw [if_pos hlt]
        have hmissing : f.filled < buf.length := h.length_eq ▸ hlt
        have hread := R.length_le f.reader (f.buf.length - f.filled)
        have hobtained := R.obtained_pollRead f.reader (f.buf.length - f.filled)
        generalize R.pollRead f.reader (f.buf.length - f.filled) = answer at hread hobtained ⊢
        obtain ⟨reader, (error | bytes) | _⟩ := answer
        · exact ⟨h.withReader hobtained, hmissing⟩
        · by_cases hempty : bytes = []
          · simp only [hempty, if_pos]
            exact ⟨h.withReader (hempty ▸ hobtained), hmissing⟩
          · simp only [if_neg hempty]
            have hpos : 0 < bytes.length := List.length_pos_iff.mpr hempty
            apply ih (h.fill hobtained hread)
            show buf.length ≤ f.filled + bytes.length + fuel
            omega
        · exact ⟨h.withReader hobtained, hmissing⟩
      · rw [if_neg hlt]
        refine ⟨h, ?_⟩
        have hle := h.filled_le
        have hlength := h.length_eq
        omega

theorem polled_poll (h : Filling R before buf f) : Polled R before buf (f.poll R) := by
  apply polled_loop _ h
  have hlength := h.length_eq
  omega

/-- The polls of a `ReadExact`. -/
def turn (R : AsyncRead ρ) (_ : Unit) (f : ReadExact ρ) :
    Option (ReadExact ρ × Option (Except IoError Unit)) :=
  some ((f.poll R).1, toOption (f.poll R).2)

/-- The buffer is full if and only if the future has returned `Ok`. -/
theorem filling_of_reachable {reader : ρ} {d : Driven (ReadExact ρ) (Except IoError Unit)}
    (h : Reachable (Driven.step (turn R)) (fun _ _ => True) { state := { reader, buf } } d) :
    Filling R (R.obtained reader) buf d.state ∧
      (d.output = some (.ok ()) ↔ d.output.isSome ∧ d.state.filled = buf.length) := by
  have hpolled : Driven.Outcome (Filling R (R.obtained reader) buf)
      (fun f output => Filling R (R.obtained reader) buf f ∧
        (output = .ok () ↔ f.filled = buf.length)) (d.state, d.output) := by
    refine Driven.invariant (fun _ f r hf hr => ?_)
      ⟨(List.append_nil _).symm, rfl, rfl, Nat.zero_le _⟩ h
    have hnext := polled_poll hf
    obtain rfl := Option.some.inj hr
    generalize f.poll R = r at hnext ⊢
    obtain ⟨f', (error | ⟨⟩) | _⟩ := r
    · exact ⟨hnext.1, by simp [Nat.ne_of_lt hnext.2]⟩
    · exact ⟨hnext.1, by simp [hnext.2]⟩
    · exact hnext.1
  obtain ⟨f, output⟩ := d
  cases output with
  | none => exact ⟨hpolled, by simp⟩
  | some output => exact ⟨hpolled.1, by simp [hpolled.2]⟩

/-- The error that an answer of the reader stands for. -/
def failure : Poll (Except IoError (List UInt8)) → Option IoError
  | .ready (.ok bytes) => if bytes = [] then some fillError else none
  | .ready (.error error) => some error
  | .pending => none

/-- The error that the last answer of the reader stands for. -/
def lastFailure (calls : StreamCalls) : Option IoError := calls.reads.getLast?.bind failure

theorem lastFailure_noteRead (calls : StreamCalls) (answer : Poll (Except IoError (List UInt8))) :
    lastFailure (calls.noteRead answer) = failure answer := by
  rw [lastFailure, StreamCalls.noteRead, List.getLast?_concat, Option.bind_some]

/-- What was returned: an error if and only if the last answer stands for it. -/
def Decided (R : AsyncRead ρ) (before : List UInt8) :
    ReadExact (Recorded ρ) × Poll (Except IoError Unit) → Prop
  | (f, .ready (.ok ())) => Kept R before f.reader ∧ lastFailure f.reader.2 = none
  | (f, .ready (.error error)) => Kept R before f.reader ∧ lastFailure f.reader.2 = some error
  | (f, .pending) => Kept R before f.reader ∧ lastFailure f.reader.2 = none

theorem decided_loop (fuel : Nat) {f : ReadExact (Recorded ρ)} (h : Kept R before f.reader)
    (hnone : lastFailure f.reader.2 = none) : Decided R before (f.loop R.recorded fuel) := by
  induction fuel generalizing f with
  | zero => exact ⟨h, hnone⟩
  | succ fuel ih =>
      unfold loop
      by_cases hlt : f.filled < f.buf.length
      · rw [if_pos hlt]
        have hkept := h.pollRead (f.buf.length - f.filled)
        simp only [AsyncRead.recorded] at hkept ⊢
        generalize R.pollRead f.reader.1 (f.buf.length - f.filled) = answer at hkept ⊢
        obtain ⟨reader, (error | bytes) | _⟩ := answer
        · exact ⟨hkept, lastFailure_noteRead ..⟩
        · by_cases hempty : bytes = []
          · simp only [if_pos hempty]
            exact ⟨hkept, (lastFailure_noteRead ..).trans (if_pos hempty)⟩
          · simp only [if_neg hempty]
            exact ih hkept ((lastFailure_noteRead ..).trans (if_neg hempty))
        · exact ⟨hkept, lastFailure_noteRead ..⟩
      · rw [if_neg hlt]
        exact ⟨h, hnone⟩

/-- `read_exact` fills its buffer with the next bytes of the reader, takes no byte more, and
leaves what is behind them as it was.  It returns `Ok` when the buffer is full, and fails if and
only if the last answer of the reader is that error, or no bytes: then with `UnexpectedEof`. -/
theorem fills_of_reachable {reader : ρ} {d : Driven (ReadExact (Recorded ρ)) (Except IoError Unit)}
    (h : Reachable (Driven.step (turn R.recorded)) (fun _ _ => True)
      { state := { reader := (reader, {}), buf } } d) :
    R.obtained d.state.reader.1 = R.obtained reader ++ readBytes d.state.reader.2 ∧
      d.state.buf = readBytes d.state.reader.2 ++ buf.drop (readBytes d.state.reader.2).length ∧
      (readBytes d.state.reader.2).length ≤ buf.length ∧
      (d.output = some (.ok ()) ↔
        d.output.isSome ∧ (readBytes d.state.reader.2).length = buf.length) ∧
      ∀ error, d.output = some (.error error) ↔ lastFailure d.state.reader.2 = some error := by
  have hdecided : Driven.Outcome
      (fun f => Kept R (R.obtained reader) f.reader ∧ lastFailure f.reader.2 = none)
      (fun f output => Kept R (R.obtained reader) f.reader ∧
        ∀ error, output = .error error ↔ lastFailure f.reader.2 = some error)
      (d.state, d.output) := by
    refine Driven.invariant (fun _ f r hf hr => ?_) ⟨(List.append_nil _).symm, rfl⟩ h
    have hnext := decided_loop (f.buf.length - f.filled) hf.1 hf.2
    obtain rfl := Option.some.inj hr
    unfold poll
    generalize f.loop R.recorded (f.buf.length - f.filled) = r at hnext ⊢
    obtain ⟨f', (error | ⟨⟩) | _⟩ := r
    · exact ⟨hnext.1, by simp [hnext.2]⟩
    · exact ⟨hnext.1, by simp [hnext.2]⟩
    · exact hnext
  have hkept : Kept R (R.obtained reader) d.state.reader ∧
      ∀ error, d.output = some (.error error) ↔ lastFailure d.state.reader.2 = some error := by
    obtain ⟨f, output⟩ := d
    cases output with
    | none => exact ⟨hdecided.1, by simp [hdecided.2]⟩
    | some output => exact ⟨hdecided.1, by simp [hdecided.2]⟩
  obtain ⟨hfilling, hok⟩ := filling_of_reachable h
  have hbytes : d.state.buf.take d.state.filled = readBytes d.state.reader.2 :=
    List.append_cancel_left (hfilling.obtained.symm.trans hkept.1)
  have hfilled : (readBytes d.state.reader.2).length = d.state.filled := by
    rw [← hbytes, List.length_take, hfilling.length_eq, Nat.min_eq_left hfilling.filled_le]
  refine ⟨hkept.1, ?_, hfilled ▸ hfilling.filled_le, hfilled ▸ hok, hkept.2⟩
  rw [hfilled, ← hfilling.behind, ← hbytes, List.take_append_drop]

/-- Two bytes of three, which come in two parts. -/
theorem fills_of_reachable_two_parts :
    ∃ d, Reachable (Driven.step (turn Script.reader.recorded)) (fun _ _ => True)
        { state := { reader := ({ answers :=
          [.ready (.ok [1]), .pending, .ready (.ok [2, 3])] }, {}), buf := [7, 8] } } d ∧
      readBytes d.state.reader.2 = [1, 2] ∧ d.state.buf = [1, 2] := by
  obtain ⟨d, hreach, hd⟩ := Reachable.exists_of_run (Driven.step (turn Script.reader.recorded))
    (fun _ _ => True) { state := { reader := ({ answers :=
      [.ready (.ok [1]), .pending, .ready (.ok [2, 3])] }, {}), buf := [7, 8] } } [(), ()]
    (fun d : Driven (ReadExact (Recorded Script)) (Except IoError Unit) =>
      readBytes d.state.reader.2 == [1, 2]) (by simp) (by decide)
  have hread : readBytes d.state.reader.2 = [1, 2] := beq_iff_eq.mp hd
  have hbuf := (fills_of_reachable hreach).2.1
  rw [hread] at hbuf
  exact ⟨d, hreach, hread, hbuf⟩

end ReadExact

/-! ## `ReadToEnd` and `ReadToString` -/

theorem drainReader_obtained {fuel : Nat} {reader reader' : ρ} {bytes bytes' : List UInt8}
    {p : Poll (Except IoError Unit)} (h : drainReader R fuel reader bytes = some ((reader', bytes'), p)) :
    ∃ new, bytes' = bytes ++ new ∧ R.obtained reader' = R.obtained reader ++ new := by
  induction fuel generalizing reader bytes with
  | zero => exact nomatch h
  | succ fuel ih =>
      unfold drainReader at h
      have hobtained := R.obtained_pollRead reader readToEndChunk
      generalize R.pollRead reader readToEndChunk = answer at hobtained h
      obtain ⟨reader₁, (error | read) | _⟩ := answer
      · cases h
        exact ⟨[], (List.append_nil _).symm, hobtained⟩
      · by_cases hempty : read = []
        · simp only [if_pos hempty] at h
          cases h
          exact ⟨[], (List.append_nil _).symm, hempty ▸ hobtained⟩
        · simp only [if_neg hempty] at h
          obtain ⟨new, rfl, hnew⟩ := ih h
          refine ⟨read ++ new, List.append_assoc .., ?_⟩
          rw [hnew, hobtained, List.append_assoc]
          rfl
      · cases h
        exact ⟨[], (List.append_nil _).symm, hobtained⟩

namespace ReadToEnd

variable {before initial : List UInt8} {f : ReadToEnd ρ}

/-- The bytes that were read are at the end of the buffer. -/
structure Appended (R : AsyncRead ρ) (before initial new : List UInt8) (f : ReadToEnd ρ) :
    Prop where
  obtained : R.obtained f.reader = before ++ new
  buf : f.buf = initial ++ new

def Appending (R : AsyncRead ρ) (before initial : List UInt8) (f : ReadToEnd ρ) : Prop :=
  ∃ new, Appended R before initial new f ∧
    if f.initialized then f.startLen = initial.length else new = []

def Returned (R : AsyncRead ρ) (before initial : List UInt8) (f : ReadToEnd ρ)
    (output : Except IoError Nat) : Prop :=
  ∃ new, Appended R before initial new f ∧ ∀ count, output = .ok count → count = new.length

/-- The polls of a `ReadToEnd`. -/
def turn (R : AsyncRead ρ) (fuel : Nat) (f : ReadToEnd ρ) :
    Option (ReadToEnd ρ × Option (Except IoError Nat)) :=
  (f.poll R fuel).map fun (f, p) => (f, toOption p)

theorem polled_poll {fuel : Nat} {r : ReadToEnd ρ × Poll (Except IoError Nat)}
    (h : Appending R before initial f) (hpoll : f.poll R fuel = some r) :
    Driven.Outcome (Appending R before initial) (Returned R before initial) (r.1, toOption r.2) := by
  obtain ⟨new, happended, hstart⟩ := h
  -- the first poll notes the length, and the others find it
  have hfirst : ∃ f₁ : ReadToEnd ρ, f₁ = (if f.initialized then f
        else { f with startLen := f.buf.length, initialized := true }) ∧
      f₁.initialized = true ∧ f₁.startLen = initial.length ∧ f₁.reader = f.reader ∧
      f₁.buf = f.buf := by
    refine ⟨_, rfl, ?_⟩
    by_cases hinitialized : f.initialized = true
    · rw [if_pos hinitialized] at hstart ⊢
      exact ⟨hinitialized, hstart, rfl, rfl⟩
    · rw [if_neg hinitialized] at hstart ⊢
      refine ⟨rfl, ?_, rfl, rfl⟩
      rw [happended.buf, hstart, List.append_nil]
  obtain ⟨f₁, heq, hinitialized, hlen, hreader, hbuf⟩ := hfirst
  unfold poll at hpoll
  rw [← heq] at hpoll
  obtain ⟨⟨⟨reader, buf⟩, p⟩, hdrain, rfl⟩ := Option.map_eq_some_iff.mp hpoll
  obtain ⟨more, rfl, hmore⟩ := drainReader_obtained hdrain
  have hnow : Appended R before initial (new ++ more)
      { f₁ with reader, buf := f₁.buf ++ more } := by
    apply Appended.mk
    · rw [hmore, hreader, happended.obtained, List.append_assoc]
    · rw [hbuf, happended.buf, List.append_assoc]
  rcases p with (error | ⟨⟩) | _
  · exact ⟨_, hnow, nofun⟩
  · refine ⟨_, hnow, fun count hcount => ?_⟩
    cases hcount
    rw [hbuf, happended.buf, hlen]
    simp
  · refine ⟨_, hnow, ?_⟩
    rw [if_pos hinitialized]
    exact hlen

/-- `read_to_end` appends what the reader gives, and counts it. -/
theorem appended_of_reachable {reader : ρ} {d : Driven (ReadToEnd ρ) (Except IoError Nat)}
    (h : Reachable (Driven.step (turn R)) (fun _ _ => True) { state := { reader, buf := initial } } d) :
    ∃ new, R.obtained d.state.reader = R.obtained reader ++ new ∧ d.state.buf = initial ++ new ∧
      ∀ count, d.output = some (.ok count) → count = new.length := by
  have houtcome : Driven.Outcome (Appending R (R.obtained reader) initial)
      (Returned R (R.obtained reader) initial) (d.state, d.output) := by
    refine Driven.invariant (fun fuel f r hf hr => ?_) ?_ h
    · obtain ⟨polled, hpoll, rfl⟩ := Option.map_eq_some_iff.mp hr
      exact polled_poll hf hpoll
    · exact ⟨[], ⟨(List.append_nil _).symm, (List.append_nil _).symm⟩, rfl⟩
  obtain ⟨f, output⟩ := d
  cases output with
  | none =>
      obtain ⟨new, happended, -⟩ := houtcome
      exact ⟨new, happended.obtained, happended.buf, nofun⟩
  | some output =>
      obtain ⟨new, happended, hcount⟩ := houtcome
      exact ⟨new, happended.obtained, happended.buf,
        fun count heq => hcount count (Option.some.inj heq)⟩

end ReadToEnd

/-- How the loop ends: at the end of the input, with the error of the reader, or before either. -/
def Emptied (R : AsyncRead ρ) (before : List UInt8) :
    (Recorded ρ × List UInt8) × Poll (Except IoError Unit) → Prop
  | ((reader, _), .ready (.ok ())) => Kept R before reader ∧ AtEnd reader.2
  | ((reader, _), .ready (.error error)) =>
      Kept R before reader ∧ reader.2.reads.getLast? = some (.ready (.error error))
  | ((reader, _), .pending) => Kept R before reader ∧ Open reader.2

theorem emptied_drainReader {fuel : Nat} {before : List UInt8} {reader : Recorded ρ}
    {bytes : List UInt8} {r : (Recorded ρ × List UInt8) × Poll (Except IoError Unit)}
    (hkept : Kept R before reader) (hopen : Open reader.2)
    (h : drainReader R.recorded fuel reader bytes = some r) : Emptied R before r := by
  induction fuel generalizing reader bytes with
  | zero => cases h
  | succ fuel ih =>
      unfold drainReader at h
      have hnext := hkept.pollRead readToEndChunk
      simp only [AsyncRead.recorded] at hnext h
      generalize R.pollRead reader.1 readToEndChunk = answer at hnext h
      obtain ⟨reader₁, (error | read) | _⟩ := answer
      · cases h
        exact ⟨hnext, List.getLast?_concat⟩
      · by_cases hempty : read = []
        · simp only [if_pos hempty] at h
          cases h
          subst hempty
          exact ⟨hnext, hopen.atEnd⟩
        · simp only [if_neg hempty] at h
          exact ih hnext (hopen.noteRead (by simpa using hempty)) h
      · cases h
        exact ⟨hnext, hopen.noteRead (by simp)⟩

namespace ReadToString

variable {before : List UInt8} {initial : String} {f : ReadToString (Recorded ρ)}

/-- A future that may be polled again: its string is as it was. -/
structure Gathering (R : AsyncRead ρ) (before : List UInt8) (initial : String)
    (f : ReadToString (Recorded ρ)) : Prop where
  kept : Kept R before f.reader
  isOpen : Open f.reader.2
  bytes : f.bytes = readBytes f.reader.2
  buf : f.buf = initial
  fresh : f.initialized = false → f.bytes = []

/-- What was returned: all that was read is decoded at the end of the input, as a whole, and an
error of the reader ends the future. -/
def Returned (initial : String) (f : ReadToString (Recorded ρ)) : Except LineError Nat → Prop
  | .ok count => AtEnd f.reader.2 ∧ count = (readBytes f.reader.2).length ∧
      ∃ text, fromUtf8 (readBytes f.reader.2) = some text ∧ f.buf = initial ++ text
  | .error (.invalidData bytes) => AtEnd f.reader.2 ∧ bytes = readBytes f.reader.2 ∧
      fromUtf8 bytes = none ∧ f.buf = initial
  | .error (.io error) =>
      f.reader.2.reads.getLast? = some (.ready (.error error)) ∧ f.buf = initial

/-- The polls of a `ReadToString`. -/
def turn (R : AsyncRead ρ) (fuel : Nat) (f : ReadToString ρ) :
    Option (ReadToString ρ × Option (Except LineError Nat)) :=
  (f.poll R fuel).map fun (f, p) => (f, toOption p)

theorem polled_poll {fuel : Nat} {r : ReadToString (Recorded ρ) × Poll (Except LineError Nat)}
    (h : Gathering R before initial f) (hpoll : f.poll R.recorded fuel = some r) :
    Driven.Outcome (Gathering R before initial)
      (fun f output => Kept R before f.reader ∧ Returned initial f output) (r.1, toOption r.2) := by
  have hfirst : ∃ f₁ : ReadToString (Recorded ρ), f₁ = (if f.initialized then f
        else { f with bytes := [], initialized := true }) ∧
      f₁.initialized = true ∧ f₁.reader = f.reader ∧ f₁.bytes = f.bytes ∧ f₁.buf = f.buf := by
    refine ⟨_, rfl, ?_⟩
    cases hinitialized : f.initialized with
    | true => exact ⟨hinitialized, rfl, rfl, rfl⟩
    | false => exact ⟨rfl, rfl, (h.fresh hinitialized).symm, rfl⟩
  obtain ⟨f₁, heq, hinitialized, hreader, hbytes, hbuf⟩ := hfirst
  unfold poll at hpoll
  rw [← heq] at hpoll
  obtain ⟨⟨⟨reader, bytes⟩, p⟩, hdrain, rfl⟩ := Option.map_eq_some_iff.mp hpoll
  rw [hreader, hbytes] at hdrain
  have hdrained := emptied_drainReader h.kept h.isOpen hdrain
  have hsame : f₁.buf = initial := hbuf.trans h.buf
  -- what the future has gathered is what was read
  have hread : Kept R before reader → bytes = readBytes reader.2 := by
    intro hkept
    obtain ⟨more, rfl, hmore⟩ := drainReader_obtained hdrain
    have hstart : R.recorded.obtained f.reader = before ++ readBytes f.reader.2 := h.kept
    rw [hstart, List.append_assoc] at hmore
    rw [h.bytes]
    exact List.append_cancel_left (hmore.symm.trans hkept)
  rcases p with (error | ⟨⟩) | _
  · exact ⟨hdrained.1, hdrained.2, hsame⟩
  · obtain ⟨hkept, hend⟩ := hdrained
    obtain rfl := hread hkept
    dsimp only
    unfold stringFromLine
    cases htext : fromUtf8 (readBytes reader.2) with
    | none => exact ⟨hkept, hend, rfl, htext, hsame⟩
    | some text => exact ⟨hkept, hend, rfl, text, htext, congrArg (· ++ text) hsame⟩
  · refine ⟨hdrained.1, hdrained.2, hread hdrained.1, hsame, fun hnot => ?_⟩
    exact absurd (hinitialized.symm.trans hnot) (by simp)

/-- `read_to_string` decodes what the reader gives once, as a whole, at the end of the input,
and leaves the string as it was unless it returns `Ok`. -/
theorem decoded_of_reachable {reader : ρ}
    {d : Driven (ReadToString (Recorded ρ)) (Except LineError Nat)}
    (h : Reachable (Driven.step (turn R.recorded)) (fun _ _ => True)
      { state := { reader := (reader, {}), buf := initial } } d) :
    R.obtained d.state.reader.1 = R.obtained reader ++ readBytes d.state.reader.2 ∧
      (d.output = none → Open d.state.reader.2 ∧ d.state.buf = initial) ∧
      ∀ output, d.output = some output → Returned initial d.state output := by
  have houtcome : Driven.Outcome (Gathering R (R.obtained reader) initial)
      (fun f output => Kept R (R.obtained reader) f.reader ∧ Returned initial f output)
      (d.state, d.output) := by
    refine Driven.invariant (fun fuel f r hf hr => ?_) ?_ h
    · obtain ⟨polled, hpoll, rfl⟩ := Option.map_eq_some_iff.mp hr
      exact polled_poll hf hpoll
    · exact ⟨(List.append_nil _).symm, List.not_mem_nil, rfl, rfl, fun _ => rfl⟩
  obtain ⟨f, output⟩ := d
  cases output with
  | none => exact ⟨houtcome.kept, fun _ => ⟨houtcome.isOpen, houtcome.buf⟩, by simp⟩
  | some output =>
      refine ⟨houtcome.1, by simp, fun o ho => ?_⟩
      obtain rfl := Option.some.inj ho
      exact houtcome.2

/-- A character that comes in two parts, and then an error. -/
theorem decoded_of_reachable_cut :
    ∃ d, Reachable (Driven.step (turn Script.reader.recorded)) (fun _ _ => True)
        { state := { reader := ({ answers := [.ready (.ok [195]), .pending,
          .ready (.ok [169]), .ready (.error fillError)] }, {}), buf := "a" } } d ∧
      d.output = some (.error (.io fillError)) ∧ d.state.buf = "a" := by
  obtain ⟨d, hreach, hd⟩ := Reachable.exists_of_run (Driven.step (turn Script.reader.recorded))
    (fun _ _ => True) { state := { reader := ({ answers := [.ready (.ok [195]), .pending,
      .ready (.ok [169]), .ready (.error fillError)] }, {}), buf := "a" } } [3, 3]
    (fun d : Driven (ReadToString (Recorded Script)) (Except LineError Nat) =>
      d.output == some (.error (.io fillError))) (by simp) (by decide)
  have houtput : d.output = some (.error (.io fillError)) := beq_iff_eq.mp hd
  obtain ⟨-, -, hreturned⟩ := decoded_of_reachable hreach
  exact ⟨d, hreach, houtput, (hreturned _ houtput).2⟩

end ReadToString

/-! ## `WriteAll` -/

namespace WriteAll

variable {before data : List UInt8} {f : WriteAll ω}

/-- The writer has accepted what was written, and was offered nothing but what is left. -/
structure Written (W : RetainingWrite ω) (before data : List UInt8) (f : WriteAll ω) : Prop where
  buf : f.buf = data
  accepted : W.accepted f.writer = before ++ data.take f.written
  written_le : f.written ≤ data.length
  offers : Offers W f.writer (data.drop f.written)

theorem written_loop (fuel : Nat) (h : Written W before data f) :
    Written W before data (f.loop W.toAsyncWrite fuel).1 := by
  induction fuel generalizing f with
  | zero => exact h
  | succ fuel ih =>
      unfold loop
      have hbuf := h.buf
      by_cases hlt : f.written < f.buf.length
      · rw [if_pos hlt, hbuf]
        have hwritten := h.offers.written f.generation
        generalize W.pollWriteOperation f.writer (data.drop f.written) f.generation = answer
          at hwritten ⊢
        obtain ⟨writer, (error | _ | count) | _⟩ := answer
        · exact ⟨rfl, hwritten.1.trans h.accepted, h.written_le, .of_nil hwritten.2⟩
        · obtain ⟨haccepted, hoffered, -⟩ := hwritten
          refine ⟨rfl, ?_, h.written_le, .of_nil hoffered⟩
          rw [haccepted, List.take_zero, List.append_nil, h.accepted]
        · obtain ⟨haccepted, hoffered, hcount⟩ := hwritten
          rw [List.length_drop] at hcount
          rw [hbuf] at hlt
          apply ih
          refine ⟨rfl, ?_, ?_, .of_nil hoffered⟩
          · rw [haccepted, h.accepted, List.append_assoc, ← List.take_add]
          · show f.written + (count + 1) ≤ data.length
            omega
        · exact ⟨rfl, hwritten.1.trans h.accepted, h.written_le, hwritten.2⟩
      · rw [if_neg hlt]
        exact h

def counted : WriteCall → Nat
  | .write _ (.ready (.ok count)) => count
  | .write _ (.ready (.error _)) => 0
  | .write _ .pending => 0
  | .flush _ => 0
  | .close _ => 0

def sent (writes : List WriteCall) : Nat := (writes.map counted).sum

/-- A write of what the answers before it have not counted. -/
def Sends (data : List UInt8) (earlier : List WriteCall) (call : WriteCall) : Prop :=
  ∃ answer, call = .write (data.drop (sent earlier)) answer

/-- The error that an answer of the writer stands for. -/
def failure : WriteCall → Option IoError
  | .write _ (.ready (.ok count)) => if count = 0 then some writeAllError else none
  | .write _ (.ready (.error error)) => some error
  | .write _ .pending => none
  | .flush _ => none
  | .close _ => none

/-- The error that the last answer of the writer stands for. -/
def lastFailure (writes : List WriteCall) : Option IoError := writes.getLast?.bind failure

theorem sent_concat (writes : List WriteCall) (call : WriteCall) :
    sent (writes ++ [call]) = sent writes + counted call := by
  simp [sent]

theorem lastFailure_concat (writes : List WriteCall) (call : WriteCall) :
    lastFailure (writes ++ [call]) = failure call := by
  rw [lastFailure, List.getLast?_concat, Option.bind_some]

/-- The future knows how much of the data was counted. -/
structure Sending (data : List UInt8) (f : WriteAll (Recorded ω)) : Prop where
  buf : f.buf = data
  written : f.written = sent f.writer.2.writes
  calls : Chronicle (Sends data) f.writer.2.writes

/-- What was returned: an error if and only if the last answer stands for it, and `Ok` if all of
the data was counted. -/
def Decided (data : List UInt8) : WriteAll (Recorded ω) × Poll (Except IoError Unit) → Prop
  | (f, .ready (.ok ())) => Sending data f ∧ lastFailure f.writer.2.writes = none ∧
      data.length ≤ f.written
  | (f, .ready (.error error)) => Sending data f ∧ lastFailure f.writer.2.writes = some error ∧
      f.written < data.length
  | (f, .pending) => Sending data f ∧ lastFailure f.writer.2.writes = none ∧ f.written < data.length

theorem decided_loop (fuel : Nat) {f : WriteAll (Recorded ω)} (h : Sending data f)
    (hnone : lastFailure f.writer.2.writes = none) (hfuel : data.length ≤ f.written + fuel) :
    Decided data (f.loop W.recorded.toAsyncWrite fuel) := by
  induction fuel generalizing f with
  | zero => exact ⟨h, hnone, hfuel⟩
  | succ fuel ih =>
      unfold loop
      by_cases hlt : f.written < f.buf.length
      · rw [if_pos hlt]
        have hmissing : f.written < data.length := h.buf ▸ hlt
        have hsending (writer : ω) (answer : Poll (Except IoError Nat)) : Sending data { f with
            writer := (writer, f.writer.2.noteWrite (.write (f.buf.drop f.written) answer))
            written := f.written + counted (.write (f.buf.drop f.written) answer) } := by
          refine ⟨h.buf, ?_, h.calls.snoc ⟨answer, by rw [h.buf, h.written]⟩⟩
          rw [StreamCalls.noteWrite, sent_concat, ← h.written]
        have hlast (answer : Poll (Except IoError Nat)) :
            lastFailure (f.writer.2.noteWrite (.write (f.buf.drop f.written) answer)).writes =
              failure (.write (f.buf.drop f.written) answer) := lastFailure_concat ..
        simp only [RetainingWrite.recorded]
        generalize W.pollWriteOperation f.writer.1 (f.buf.drop f.written) f.generation = answer
        obtain ⟨writer, (error | _ | count) | _⟩ := answer
        · exact ⟨hsending writer _, hlast _, hmissing⟩
        · exact ⟨hsending writer _, hlast _, hmissing⟩
        · refine ih (hsending writer _) (hlast _) ?_
          show data.length ≤ f.written + (count + 1) + fuel
          omega
        · exact ⟨hsending writer _, hlast _, hmissing⟩
      · rw [if_neg hlt]
        exact ⟨h, hnone, h.buf ▸ Nat.le_of_not_lt hlt⟩

/-- The polls of a `WriteAll`. -/
def turn (W : AsyncWrite ω) (_ : Unit) (f : WriteAll ω) :
    Option (WriteAll ω × Option (Except IoError Unit)) :=
  some ((f.poll W).1, toOption (f.poll W).2)

/-- `write_all` offers at each call what the answers before it have not counted.  It returns `Ok`
when they count all of the data, and fails if and only if the last answer of the writer is that
error, or zero: then with `WriteZero`.  A writer that was in the middle of no other write has
accepted just what it has counted. -/
theorem written_of_reachable {writer : ω} {generation : Generation}
    {d : Driven (WriteAll (Recorded ω)) (Except IoError Unit)}
    (h : Reachable (Driven.step (turn W.recorded.toAsyncWrite)) (fun _ _ => True)
      { state := { writer := (writer, {}), buf := data, generation } } d) :
    Chronicle (Sends data) d.state.writer.2.writes ∧
      (d.output = some (.ok ()) ↔
        d.output.isSome ∧ data.length ≤ sent d.state.writer.2.writes) ∧
      (∀ error, d.output = some (.error error) ↔
        lastFailure d.state.writer.2.writes = some error) ∧
      (Offers W writer data → sent d.state.writer.2.writes ≤ data.length ∧
        W.accepted d.state.writer.1 =
          W.accepted writer ++ data.take (sent d.state.writer.2.writes)) := by
  have hdecided : Driven.Outcome
      (fun f => Sending data f ∧ lastFailure f.writer.2.writes = none)
      (fun f output => Sending data f ∧ (output = .ok () ↔ data.length ≤ f.written) ∧
        ∀ error, output = .error error ↔ lastFailure f.writer.2.writes = some error)
      (d.state, d.output) := by
    refine Driven.invariant (fun _ f r hf hr => ?_) ⟨⟨rfl, rfl, .nil⟩, rfl⟩ h
    have hnext := decided_loop (W := W) (f.buf.length - f.written) hf.1 hf.2
      (by rw [hf.1.buf]; omega)
    obtain rfl := Option.some.inj hr
    unfold poll
    generalize f.loop W.recorded.toAsyncWrite (f.buf.length - f.written) = r at hnext ⊢
    obtain ⟨f', (error | ⟨⟩) | _⟩ := r
    · exact ⟨hnext.1, by simpa using hnext.2.2, by simp [hnext.2.1]⟩
    · exact ⟨hnext.1, by simpa using hnext.2.2, by simp [hnext.2.1]⟩
    · exact ⟨hnext.1, hnext.2.1⟩
  have hsending : Sending data d.state ∧
      (d.output = some (.ok ()) ↔ d.output.isSome ∧ data.length ≤ d.state.written) ∧
      ∀ error, d.output = some (.error error) ↔
        lastFailure d.state.writer.2.writes = some error := by
    obtain ⟨f, output⟩ := d
    cases output with
    | none => exact ⟨hdecided.1, by simp, by simp [hdecided.2]⟩
    | some output => exact ⟨hdecided.1, by simp [hdecided.2.1], by simp [hdecided.2.2]⟩
  obtain ⟨⟨-, hsent, hcalls⟩, hok, herror⟩ := hsending
  refine ⟨hcalls, hsent ▸ hok, herror, fun hoffers => ?_⟩
  have hwritten : Driven.Outcome (Written W.recorded (W.accepted writer) data)
      (fun f _ => Written W.recorded (W.accepted writer) data f) (d.state, d.output) := by
    refine Driven.invariant (fun _ f r hf hr => ?_)
      ⟨rfl, (List.append_nil _).symm, Nat.zero_le _, hoffers⟩ h
    have hnext := written_loop (f.buf.length - f.written) hf
    obtain rfl := Option.some.inj hr
    unfold poll
    generalize f.loop W.recorded.toAsyncWrite (f.buf.length - f.written) = r at hnext ⊢
    obtain ⟨f', output | _⟩ := r
    · exact hnext
    · exact hnext
  have hstate : Written W.recorded (W.accepted writer) data d.state := by
    obtain ⟨f, output⟩ := d
    cases output <;> exact hwritten
  exact hsent ▸ ⟨hstate.written_le, hstate.accepted⟩

/-- Three bytes that are written in two parts. -/
theorem written_of_reachable_two_parts :
    ∃ d, Reachable (Driven.step (turn Sink.writer.recorded.toAsyncWrite)) (fun _ _ => True)
        { state :=
          { writer := ({ answers := [.ready (.ok 2), .pending] }, {}), buf := [1, 2, 3],
            generation := 0 } } d ∧
      d.output = some (.ok ()) ∧ Sink.writer.accepted d.state.writer.1 = [1, 2, 3] := by
  obtain ⟨d, hreach, hd⟩ := Reachable.exists_of_run
    (Driven.step (turn Sink.writer.recorded.toAsyncWrite)) (fun _ _ => True)
    { state :=
      { writer := ({ answers := [.ready (.ok 2), .pending] }, {}), buf := [1, 2, 3],
        generation := 0 } }
    [(), ()]
    (fun d : Driven (WriteAll (Recorded Sink)) (Except IoError Unit) => d.output == some (.ok ()))
    (by simp) (by decide)
  have houtput : d.output = some (.ok ()) := beq_iff_eq.mp hd
  obtain ⟨-, hok, -, haccepted⟩ := written_of_reachable hreach
  obtain ⟨hle, heq⟩ := haccepted (.of_nil rfl)
  have hall := Nat.le_antisymm hle (hok.mp houtput).2
  rw [hall] at heq
  exact ⟨d, hreach, houtput, heq⟩

end WriteAll

/-! ## Readers that come to an end -/

/-- What a turn leaves of a script whose bytes go to `bytes`. -/
structure Consumed (total : List UInt8) (s : Script) (bytes : List UInt8) : Prop where
  plain : s.Plain
  total : bytes ++ s.coming = total

variable {total : List UInt8}

theorem ReadExact.consumed_loop (fuel : Nat) {f : ReadExact Script}
    (h : Consumed total f.reader (f.buf.take f.filled)) (hle : f.filled ≤ f.buf.length) :
    Consumed total (f.loop Script.reader fuel).1.reader
        ((f.loop Script.reader fuel).1.buf.take (f.loop Script.reader fuel).1.filled) ∧
      (f.loop Script.reader fuel).1.filled ≤ (f.loop Script.reader fuel).1.buf.length ∧
      (f.loop Script.reader fuel).1.reader.size ≤ f.reader.size ∧
      ((f.loop Script.reader fuel).2 = .pending →
        (f.loop Script.reader fuel).1.reader.size < f.reader.size) ∧
      ∀ error, (f.loop Script.reader fuel).2 = .ready (.error error) →
        error = fillError ∧ (f.loop Script.reader fuel).1.buf.take
          (f.loop Script.reader fuel).1.filled = total := by
  induction fuel generalizing f with
  | zero => exact ⟨h, hle, Nat.le_refl _, by simp [loop], by simp [loop]⟩
  | succ fuel ih =>
      unfold loop
      by_cases hlt : f.filled < f.buf.length
      · rw [if_pos hlt]
        have hanswered : Script.Answered f.reader
            (Script.reader.pollRead f.reader (f.buf.length - f.filled)) :=
          Script.answered_pollRead h.plain (Nat.sub_pos_of_lt hlt)
        have hread := Script.reader.length_le f.reader (f.buf.length - f.filled)
        have htotal := h.total
        generalize Script.reader.pollRead f.reader (f.buf.length - f.filled) = answer
          at hanswered hread ⊢
        cases hanswered with
        | ended hended =>
            have hnone : f.reader.coming = [] := by rw [Script.coming, hended]; rfl
            rw [hnone, List.append_nil] at htotal
            refine ⟨h, hle, Nat.le_refl _, by simp, fun error herror => ?_⟩
            cases herror
            exact ⟨rfl, htotal⟩
        | waits hplain hcoming hsize =>
            exact ⟨⟨hplain, hcoming ▸ htotal⟩, hle, Nat.le_of_lt hsize, fun _ => hsize, by simp⟩
        | @gives s₁ read hplain hbytes hcoming hsize =>
            simp only [if_neg hbytes]
            have hfits : f.filled + read.length ≤ f.buf.length :=
              Nat.add_le_of_le_sub' hle hread
            rw [hcoming, ← List.append_assoc, ← take_fillAt hle] at htotal
            obtain ⟨hconsumed, hle', hsize', hpending, herror⟩ :=
              ih (f := ⟨s₁, fillAt f.buf f.filled read, f.filled + read.length⟩)
                ⟨hplain, htotal⟩ (by rwa [length_fillAt hfits])
            have hless := Nat.le_trans (Nat.le_add_right _ _) hsize
            exact ⟨hconsumed, hle', Nat.le_trans hsize' hless,
              fun hp => Nat.lt_of_lt_of_le (hpending hp) hless, herror⟩
      · rw [if_neg hlt]
        exact ⟨h, hle, Nat.le_refl _, by simp, by simp⟩

/-- `read_exact` from a reader with the bytes `s.coming`, however they are cut. -/
theorem read_exact_of_plain {s : Script} (hplain : s.Plain) (buf : List UInt8) :
    ∃ d, Reachable (Driven.step (ReadExact.turn Script.reader)) (fun _ _ => True)
        { state := { reader := s, buf } } d ∧
      d.state.buf = s.coming.take buf.length ++ buf.drop s.coming.length ∧
      d.output = some (if buf.length ≤ s.coming.length then .ok () else .error fillError) := by
  obtain ⟨d, output, hreach, houtput, ⟨hconsumed, -⟩, herror⟩ :=
    Driven.exists_output (ReadExact.turn Script.reader)
      (fun f => Consumed s.coming f.reader (f.buf.take f.filled) ∧ f.filled ≤ f.buf.length)
      (fun f output => (Consumed s.coming f.reader (f.buf.take f.filled) ∧
          f.filled ≤ f.buf.length) ∧
        ∀ error, output = .error error → error = fillError ∧ f.buf.take f.filled = s.coming)
      (fun f => f.reader.size) (s := { reader := s, buf }) (fun f hf => by
        obtain ⟨hconsumed, hle, -, hpending, herror⟩ :=
          ReadExact.consumed_loop (f.buf.length - f.filled) hf.1 hf.2
        refine ⟨(), _, rfl, ?_⟩
        unfold ReadExact.poll
        generalize f.loop Script.reader (f.buf.length - f.filled) = r
          at hconsumed hle hpending herror ⊢
        obtain ⟨f', output | _⟩ := r
        · exact ⟨⟨hconsumed, hle⟩, fun error heq => herror error (congrArg _ heq)⟩
        · exact ⟨⟨hconsumed, hle⟩, hpending rfl⟩) ⟨⟨hplain, rfl⟩, Nat.zero_le _⟩
  obtain ⟨hfilling, hok⟩ := ReadExact.filling_of_reachable hreach
  rw [houtput] at hok
  have hstart : d.state.buf.take d.state.filled <+: s.coming := ⟨_, hconsumed.total⟩
  have hlength : (d.state.buf.take d.state.filled).length = d.state.filled := by
    rw [List.length_take, hfilling.length_eq, Nat.min_eq_left hfilling.filled_le]
  have hbuf := (List.take_append_drop d.state.filled d.state.buf).symm
  rw [hfilling.behind] at hbuf
  cases output with
  | ok _ =>
      -- the buffer is full
      have hfull : d.state.filled = buf.length := (hok.mp rfl).2
      have hle : buf.length ≤ s.coming.length := hfull ▸ hlength ▸ hstart.length_le
      refine ⟨d, hreach, ?_, houtput.trans (by rw [if_pos hle])⟩
      rw [hbuf, List.prefix_iff_eq_take.mp hstart, hlength, hfull, List.drop_length,
        List.drop_of_length_le hle]
  | error error =>
      obtain ⟨rfl, hall⟩ := herror error rfl
      have hshort : d.state.filled = s.coming.length := by rw [← hlength, hall]
      have hlt : s.coming.length < buf.length := by
        refine Nat.lt_of_le_of_ne (hshort ▸ hfilling.filled_le) fun heq => ?_
        have hfalse := hok.mpr ⟨rfl, hshort.trans heq⟩
        cases hfalse
      refine ⟨d, hreach, ?_, houtput.trans (by rw [if_neg (Nat.not_le_of_lt hlt)])⟩
      rw [hbuf, hall, hshort, List.take_of_length_le (Nat.le_of_lt hlt)]

theorem consumed_drainReader (fuel : Nat) {s : Script} {bytes : List UInt8}
    (h : Consumed total s bytes) (hfuel : s.size < fuel) :
    ∃ s' bytes' p, drainReader Script.reader fuel s bytes = some ((s', bytes'), p) ∧
      Consumed total s' bytes' ∧ s'.size ≤ s.size ∧
      (p = .pending ∧ s'.size < s.size ∨ p = .ready (.ok ()) ∧ bytes' = total) := by
  induction fuel generalizing s bytes with
  | zero => omega
  | succ fuel ih =>
      unfold drainReader
      have hanswered : Script.Answered s (Script.reader.pollRead s readToEndChunk) :=
        Script.answered_pollRead h.plain (by decide)
      have htotal := h.total
      generalize Script.reader.pollRead s readToEndChunk = answer at hanswered ⊢
      cases hanswered with
      | ended hended =>
          have hnone : s.coming = [] := by rw [Script.coming, hended]; rfl
          rw [hnone, List.append_nil] at htotal
          exact ⟨_, _, _, rfl, h, Nat.le_refl _, .inr ⟨rfl, htotal⟩⟩
      | waits hplain hcoming hsize =>
          exact ⟨_, _, _, rfl, ⟨hplain, hcoming ▸ htotal⟩, Nat.le_of_lt hsize, .inl ⟨rfl, hsize⟩⟩
      | @gives s₁ read hplain hbytes hcoming hsize =>
          simp only [if_neg hbytes]
          rw [hcoming, ← List.append_assoc] at htotal
          have hpos : 0 < read.length := List.length_pos_iff.mpr hbytes
          obtain ⟨s', bytes', p, hdrain, hconsumed, hle, hcases⟩ :=
            ih ⟨hplain, htotal⟩ (by omega)
          refine ⟨s', bytes', p, hdrain, hconsumed, by omega, ?_⟩
          rcases hcases with ⟨rfl, hlt⟩ | hdone
          · exact .inl ⟨rfl, by omega⟩
          · exact .inr hdone

theorem ReadToEnd.turn_of_plain {f : ReadToEnd Script} (h : Consumed total f.reader f.buf) :
    ∃ r, ReadToEnd.turn Script.reader (f.reader.size + 1) f = some r ∧
      Driven.Outcome
        (fun f' => Consumed total f'.reader f'.buf ∧ f'.reader.size < f.reader.size)
        (fun f' output => f'.buf = total ∧ ∃ count, output = .ok count) r := by
  obtain ⟨s', bytes', p, hdrain, hconsumed, -, hcases⟩ :=
    consumed_drainReader (f.reader.size + 1) h (Nat.lt_succ_self _)
  have hfirst : ∃ f₁ : ReadToEnd Script, f₁ = (if f.initialized then f
      else { f with startLen := f.buf.length, initialized := true }) ∧
      f₁.reader = f.reader ∧ f₁.buf = f.buf := by
    refine ⟨_, rfl, ?_⟩
    split <;> exact ⟨rfl, rfl⟩
  obtain ⟨f₁, heq, hreader, hbuf⟩ := hfirst
  unfold turn poll
  rw [← heq]
  dsimp only
  rw [hreader, hbuf, hdrain]
  refine ⟨_, rfl, ?_⟩
  rcases hcases with ⟨rfl, hlt⟩ | ⟨rfl, rfl⟩
  · exact ⟨hconsumed, hlt⟩
  · exact ⟨rfl, _, rfl⟩

/-- `read_to_end` from a reader with the bytes `s.coming`, however they are cut. -/
theorem read_to_end_of_plain {s : Script} (hplain : s.Plain) (initial : List UInt8) :
    ∃ d, Reachable (Driven.step (ReadToEnd.turn Script.reader)) (fun _ _ => True)
        { state := { reader := s, buf := initial } } d ∧
      d.state.buf = initial ++ s.coming ∧ d.output = some (.ok s.coming.length) := by
  obtain ⟨d, output, hreach, houtput, hbuf, count, rfl⟩ :=
    Driven.exists_output (ReadToEnd.turn Script.reader)
      (fun f => Consumed (initial ++ s.coming) f.reader f.buf)
      (fun f output => f.buf = initial ++ s.coming ∧ ∃ count, output = .ok count)
      (fun f => f.reader.size) (fun f hf => ⟨_, ReadToEnd.turn_of_plain hf⟩)
      (s := { reader := s, buf := initial }) ⟨hplain, rfl⟩
  obtain ⟨new, -, hnew, hcount⟩ := ReadToEnd.appended_of_reachable hreach
  refine ⟨d, hreach, hbuf, ?_⟩
  rw [houtput, hcount count houtput, List.append_cancel_left (hnew.symm.trans hbuf)]

/-- A `ReadToString` on its way, whose string is as it was. -/
structure ReadToString.OnItsWay (total : List UInt8) (initial : String)
    (f : ReadToString Script) : Prop where
  consumed : Consumed total f.reader f.bytes
  buf : f.buf = initial
  fresh : f.initialized = false → f.bytes = []

theorem ReadToString.turn_of_plain {f : ReadToString Script} {initial : String}
    (h : OnItsWay total initial f) :
    ∃ r, ReadToString.turn Script.reader (f.reader.size + 1) f = some r ∧
      Driven.Outcome
        (fun f' => OnItsWay total initial f' ∧ f'.reader.size < f.reader.size)
        (fun f' output => output = ((stringFromLine total).map fun _ => total.length) ∧
          f'.buf = initial ++ (fromUtf8 total).getD "") r := by
  obtain ⟨s', bytes', p, hdrain, hconsumed, -, hcases⟩ :=
    consumed_drainReader (f.reader.size + 1) h.consumed (Nat.lt_succ_self _)
  have hfirst : ∃ f₁ : ReadToString Script, f₁ = (if f.initialized then f
      else { f with bytes := [], initialized := true }) ∧
      f₁.reader = f.reader ∧ f₁.bytes = f.bytes ∧ f₁.initialized = true ∧ f₁.buf = initial := by
    refine ⟨_, rfl, ?_⟩
    cases hinitialized : f.initialized with
    | true => exact ⟨rfl, rfl, hinitialized, h.buf⟩
    | false => exact ⟨rfl, (h.fresh hinitialized).symm, rfl, h.buf⟩
  obtain ⟨f₁, heq, hreader, hbytes, hinitialized, hbuf⟩ := hfirst
  unfold turn poll
  rw [← heq]
  dsimp only
  rw [hreader, hbytes, hdrain]
  refine ⟨_, rfl, ?_⟩
  rcases hcases with ⟨rfl, hlt⟩ | ⟨rfl, rfl⟩
  · refine ⟨⟨hconsumed, hbuf, fun hnot => ?_⟩, hlt⟩
    exact absurd (hinitialized.symm.trans hnot) (by simp)
  · dsimp only
    unfold stringFromLine
    cases fromUtf8 bytes' with
    | none => exact ⟨rfl, hbuf.trans (String.append_empty).symm⟩
    | some text => exact ⟨rfl, congrArg (· ++ text) hbuf⟩

/-- `read_to_string` from a reader with the bytes `s.coming`, however they are cut: the string
gets their text, or stays as it was. -/
theorem read_to_string_of_plain {s : Script} (hplain : s.Plain) (initial : String) :
    ∃ d, Reachable (Driven.step (ReadToString.turn Script.reader)) (fun _ _ => True)
        { state := { reader := s, buf := initial } } d ∧
      d.output = some ((stringFromLine s.coming).map fun _ => s.coming.length) ∧
      d.state.buf = initial ++ (fromUtf8 s.coming).getD "" := by
  obtain ⟨d, output, hreach, houtput, rfl, hbuf⟩ :=
    Driven.exists_output (ReadToString.turn Script.reader)
      (ReadToString.OnItsWay s.coming initial)
      (fun f output => output = ((stringFromLine s.coming).map fun _ => s.coming.length) ∧
        f.buf = initial ++ (fromUtf8 s.coming).getD "")
      (fun f => f.reader.size) (fun f hf => ⟨_, ReadToString.turn_of_plain hf⟩)
      (s := { reader := s, buf := initial }) ⟨⟨hplain, rfl⟩, rfl, fun _ => rfl⟩
  exact ⟨d, hreach, houtput, hbuf⟩

/-- What a reader with the bytes `s.coming` gives to each of the reads does not depend on how
they are cut. -/
theorem whole_reads_of_plain {s : Script} (hplain : s.Plain) (buf bytes : List UInt8)
    (text : String) :
    (∃ d, Reachable (Driven.step (ReadExact.turn Script.reader)) (fun _ _ => True)
        { state := { reader := s, buf } } d ∧
      d.state.buf = s.coming.take buf.length ++ buf.drop s.coming.length ∧
      d.output = some (if buf.length ≤ s.coming.length then .ok () else .error fillError)) ∧
    (∃ d, Reachable (Driven.step (ReadToEnd.turn Script.reader)) (fun _ _ => True)
        { state := { reader := s, buf := bytes } } d ∧
      d.state.buf = bytes ++ s.coming ∧ d.output = some (.ok s.coming.length)) ∧
    ∃ d, Reachable (Driven.step (ReadToString.turn Script.reader)) (fun _ _ => True)
        { state := { reader := s, buf := text } } d ∧
      d.output = some ((stringFromLine s.coming).map fun _ => s.coming.length) ∧
      d.state.buf = text ++ (fromUtf8 s.coming).getD "" :=
  ⟨read_exact_of_plain hplain buf, read_to_end_of_plain hplain bytes,
    read_to_string_of_plain hplain text⟩

theorem whole_reads_of_plain_two_parts :
    ∃ d, Reachable (Driven.step (ReadToEnd.turn Script.reader)) (fun _ _ => True)
        { state :=
          { reader := { answers := [.pending, .ready (.ok [1]), .ready (.ok [2])] }, buf := [0] } }
        d ∧ d.state.buf = [0, 1, 2] := by
  obtain ⟨-, ⟨d, hreach, hbuf, -⟩, -⟩ := whole_reads_of_plain
    (s := { answers := [.pending, .ready (.ok [1]), .ready (.ok [2])] })
    (by simp [Script.Plain]) [] [0] ""
  exact ⟨d, hreach, hbuf⟩

end Runite.Io
