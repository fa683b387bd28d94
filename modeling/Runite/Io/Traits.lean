import Mathlib.Algebra.GroupWithZero.Nat
import Runite.Io.ReadState

/-!
# Readers and writers of any kind

`AsyncRead` and `AsyncWrite` of `io::traits`, for the adapters of `io::buf`,
`io::ext` and `io::compat`, which are generic in what they wrap.  A reader is any
state with a `poll_read`; whether and when it is ready, with how much, and with
which errors, is up to the state.
-/

namespace Runite.Io

/-- What a poll returns, if it is ready. -/
def toOption {α : Type*} : Poll α → Option α
  | .ready value => some value
  | .pending => none

/-- `AsyncRead`: a read into a buffer of the given length, and all the bytes that
reads have returned. -/
structure AsyncRead (ρ : Type) where
  pollRead : ρ → Nat → ρ × Poll (Except IoError (List UInt8))
  obtained : ρ → List UInt8
  length_le : ∀ r len, (received (pollRead r len).2).length ≤ len
  obtained_pollRead : ∀ r len,
    obtained (pollRead r len).1 = obtained r ++ received (pollRead r len).2

/-- `AsyncWrite`; `pollWriteOperation` also gets the generation of the logical
write. -/
structure AsyncWrite (ω : Type) where
  pollWriteOperation : ω → List UInt8 → Generation → ω × Poll (Except IoError Nat)
  pollFlush : ω → ω × Poll (Except IoError Unit)
  pollClose : ω → ω × Poll (Except IoError Unit)

/-- What a writer has accepted after an answer to a write of `buf`, if it was
given `offered` since the answer before: the first bytes of one of the buffers. -/
def Accepts (offered : List (List UInt8)) (buf accepted accepted' : List UInt8) :
    Poll (Except IoError Nat) → Prop
  | .ready (.ok count) => ∃ given ∈ offered ++ [buf], count ≤ given.length ∧
      accepted' = accepted ++ given.take count
  | .ready (.error _) => accepted' = accepted
  | .pending => accepted' = accepted

/-- The buffers that a writer was given since its last answer. -/
def offeredAfter (offered : List (List UInt8)) (buf : List UInt8) :
    Poll (Except IoError Nat) → List (List UInt8)
  | .ready _ => []
  | .pending => offered ++ [buf]

/-- A writer that may take the bytes at any poll of a write and answer at a later
one: `Ok(n)` says that it has accepted the first `n` bytes of a buffer that it was
given since its previous answer. -/
structure RetainingWrite (ω : Type) extends AsyncWrite ω where
  accepted : ω → List UInt8
  offered : ω → List (List UInt8)
  accepts : ∀ w buf g, Accepts (offered w) buf (accepted w)
    (accepted (pollWriteOperation w buf g).1) (pollWriteOperation w buf g).2
  offered_pollWrite : ∀ w buf g, offered (pollWriteOperation w buf g).1 =
    offeredAfter (offered w) buf (pollWriteOperation w buf g).2
  pollFlush_eq : ∀ w, accepted (pollFlush w).1 = accepted w ∧ offered (pollFlush w).1 = offered w
  pollClose_eq : ∀ w, accepted (pollClose w).1 = accepted w ∧ offered (pollClose w).1 = offered w

/-- The writer was offered only the bytes `rest` since its last answer, from
their start. -/
def Offers {ω : Type} (W : RetainingWrite ω) (w : ω) (rest : List UInt8) : Prop :=
  ∀ given ∈ W.offered w, given <+: rest

theorem Offers.of_nil {ω : Type} {W : RetainingWrite ω} {w : ω} {rest : List UInt8}
    (h : W.offered w = []) : Offers W w rest := by
  rw [Offers, h]
  nofun

theorem Offers.mono {ω : Type} {W : RetainingWrite ω} {w : ω} {rest rest' : List UInt8}
    (h : Offers W w rest) (hstart : rest <+: rest') : Offers W w rest' :=
  fun given hmem => (h given hmem).trans hstart

/-- An answer to a write of `rest`: the writer has accepted the first bytes of it. -/
theorem Offers.accepted {ω : Type} {W : RetainingWrite ω} {w : ω} {rest : List UInt8}
    (h : Offers W w rest) {generation : Generation} {count : Nat}
    (hpoll : (W.pollWriteOperation w rest generation).2 = .ready (.ok count)) :
    W.accepted (W.pollWriteOperation w rest generation).1 = W.accepted w ++ rest.take count ∧
      count ≤ rest.length := by
  have haccepts := W.accepts w rest generation
  rw [hpoll] at haccepts
  obtain ⟨given, hmem, hcount, haccepted⟩ := haccepts
  have hgiven : given <+: rest := by
    rcases List.mem_append.mp hmem with hmem | hmem
    · exact h given hmem
    · exact List.mem_singleton.mp hmem ▸ List.prefix_rfl
  refine ⟨?_, Nat.le_trans hcount hgiven.length_le⟩
  obtain ⟨rest, rfl⟩ := hgiven
  rw [haccepted, List.take_append_of_le_length hcount]

/-- The answers to a write of `rest`: `Ok(n)` accepts the first `n` bytes, and an
error or `Pending` nothing. -/
def WriteAnswered {ω : Type} (W : RetainingWrite ω) (w : ω) (rest : List UInt8) :
    ω × Poll (Except IoError Nat) → Prop
  | (w', .ready (.ok count)) =>
      W.accepted w' = W.accepted w ++ rest.take count ∧ W.offered w' = [] ∧ count ≤ rest.length
  | (w', .ready (.error _)) => W.accepted w' = W.accepted w ∧ W.offered w' = []
  | (w', .pending) => W.accepted w' = W.accepted w ∧ Offers W w' rest

theorem Offers.written {ω : Type} {W : RetainingWrite ω} {w : ω} {rest : List UInt8}
    (h : Offers W w rest) (generation : Generation) :
    WriteAnswered W w rest (W.pollWriteOperation w rest generation) := by
  have haccepts := W.accepts w rest generation
  have hoffered := W.offered_pollWrite w rest generation
  have hok : ∀ count, (W.pollWriteOperation w rest generation).2 = .ready (.ok count) → _ :=
    fun _ => h.accepted
  rcases hpoll : W.pollWriteOperation w rest generation with ⟨w', (error | count) | _⟩ <;>
    simp only [hpoll] at haccepts hoffered hok
  · exact ⟨haccepts, hoffered⟩
  · obtain ⟨haccepted, hcount⟩ := hok count rfl
    exact ⟨haccepted, hoffered, hcount⟩
  · refine ⟨haccepts, ?_⟩
    rw [Offers, hoffered]
    intro given hmem
    rcases List.mem_append.mp hmem with hmem | hmem
    · exact h given hmem
    · exact List.mem_singleton.mp hmem ▸ List.prefix_rfl

/-- A reader that answers from a script, and is at the end of its input after it.
A chunk that does not fit its buffer is answered in parts. -/
structure Script where
  answers : List (Poll (Except IoError (List UInt8)))
  given : List UInt8 := []
  deriving DecidableEq

namespace Script

def pollRead (s : Script) (len : Nat) : Script × Poll (Except IoError (List UInt8)) :=
  match s.answers with
  | [] => (s, .ready (.ok []))
  | .ready (.ok bytes) :: answers =>
      let later := if bytes.length ≤ len then answers else .ready (.ok (bytes.drop len)) :: answers
      ({ answers := later, given := s.given ++ bytes.take len }, .ready (.ok (bytes.take len)))
  | answer :: answers => ({ s with answers }, answer)

def reader : AsyncRead Script where
  pollRead := pollRead
  obtained := given
  length_le s len := by
    unfold pollRead
    rcases s.answers with _ | ⟨(error | bytes) | _, answers⟩
    · exact Nat.zero_le _
    · exact Nat.zero_le _
    · exact List.length_take_le ..
    · exact Nat.zero_le _
  obtained_pollRead s len := by
    unfold pollRead
    rcases s.answers with _ | ⟨(error | bytes) | _, answers⟩ <;> simp

/-- The script gives bytes or waits, until it ends: it does not fail, and it does
not answer with nothing before its end. -/
def Plain (s : Script) : Prop :=
  ∀ answer ∈ s.answers, answer = .pending ∨ ∃ bytes, bytes ≠ [] ∧ answer = .ready (.ok bytes)

/-- The bytes that the script will give. -/
def coming (s : Script) : List UInt8 := s.answers.flatMap received

/-- How often the script can be asked before it ends, at most. -/
def size (s : Script) : Nat := (s.answers.map fun answer => (received answer).length + 1).sum

inductive Answered (s : Script) : Script × Poll (Except IoError (List UInt8)) → Prop
  | ended : s.answers = [] → Answered s (s, .ready (.ok []))
  | waits {s' : Script} : s'.Plain → s'.coming = s.coming → s'.size < s.size →
      Answered s (s', .pending)
  | gives {s' : Script} {bytes : List UInt8} : s'.Plain → bytes ≠ [] →
      s.coming = bytes ++ s'.coming → s'.size + bytes.length ≤ s.size →
      Answered s (s', .ready (.ok bytes))

theorem answered_pollRead {s : Script} (h : s.Plain) {len : Nat} (hlen : 0 < len) :
    Answered s (s.pollRead len) := by
  unfold pollRead
  obtain ⟨answers, given⟩ := s
  rcases answers with _ | ⟨answer, answers⟩
  · exact .ended rfl
  have hlater : Plain ⟨answers, given⟩ := fun a ha => h a (List.mem_cons_of_mem _ ha)
  obtain rfl | ⟨bytes, hbytes, rfl⟩ := h answer List.mem_cons_self
  · exact .waits hlater (by simp [coming]) (by simp [size])
  · have hpos : 0 < bytes.length := List.length_pos_iff.mpr hbytes
    refine .gives ?_ ?_ ?_ ?_
    · dsimp only
      split
      · exact hlater
      · intro a ha
        rcases List.mem_cons.mp ha with rfl | ha
        · refine Or.inr ⟨bytes.drop len, ?_, rfl⟩
          rw [Ne, List.drop_eq_nil_iff]
          omega
        · exact hlater a ha
    · rw [Ne, List.take_eq_nil_iff, not_or]
      exact ⟨by omega, hbytes⟩
    · simp only [coming]
      split
      next hle => simp [List.take_of_length_le hle]
      next =>
        simp only [List.flatMap_cons, received_ok]
        rw [← List.append_assoc, List.take_append_drop]
    · simp only [size]
      split
      · simp only [List.length_take, List.map_cons, received_ok, List.sum_cons]
        omega
      · simp only [List.length_take, List.map_cons, received_ok, List.length_drop, List.sum_cons]
        omega

end Script

/-- A writer that answers from a script, and takes whole buffers after it.  A
positive answer takes that many bytes of the first buffer that was offered. -/
structure Sink where
  answers : List (Poll (Except IoError Nat))
  accepted : List UInt8 := []
  offered : List (List UInt8) := []
  deriving DecidableEq

namespace Sink

/-- `poll_write_operation`. -/
def pollWrite (s : Sink) (buf : List UInt8) : Sink × Poll (Except IoError Nat) :=
  let given := s.offered.headD buf
  match s.answers with
  | [] => ({ s with accepted := s.accepted ++ given, offered := [] }, .ready (.ok given.length))
  | .ready (.ok count) :: answers =>
      ({ answers, accepted := s.accepted ++ given.take count }, .ready (.ok (min count given.length)))
  | .ready (.error error) :: answers =>
      ({ s with answers, offered := [] }, .ready (.error error))
  | .pending :: answers => ({ s with answers, offered := s.offered ++ [buf] }, .pending)

theorem headD_mem (s : Sink) (buf : List UInt8) : s.offered.headD buf ∈ s.offered ++ [buf] := by
  cases s.offered <;> simp

def writer : RetainingWrite Sink where
  pollWriteOperation s buf _ := s.pollWrite buf
  pollFlush s := (s, .ready (.ok ()))
  pollClose s := (s, .ready (.ok ()))
  accepted := accepted
  offered := offered
  accepts s buf _ := by
    have hmem := s.headD_mem buf
    unfold pollWrite
    rcases s.answers with _ | ⟨(error | count) | _, answers⟩
    · exact ⟨_, hmem, Nat.le_refl _, by rw [List.take_length]⟩
    · exact rfl
    · refine ⟨_, hmem, Nat.min_le_right .., ?_⟩
      rw [← List.take_take, List.take_length]
    · exact rfl
  offered_pollWrite s buf _ := by
    unfold pollWrite
    rcases s.answers with _ | ⟨(error | count) | _, answers⟩ <;> rfl
  pollFlush_eq _ := ⟨rfl, rfl⟩
  pollClose_eq _ := ⟨rfl, rfl⟩

end Sink

/-- `b'\n'`. -/
def newline : UInt8 := 10

def fromUtf8 (bytes : List UInt8) : Option String := String.fromUTF8? ⟨bytes.toArray⟩

/-- The error of a read of a line: one of the reader, or the `InvalidData` that
carries the bytes that are not UTF-8. -/
inductive LineError
  | io (error : IoError)
  | invalidData (bytes : List UInt8)
  deriving DecidableEq, Repr

/-- `string_from_line`, which is also the end of `read_line`. -/
def stringFromLine (bytes : List UInt8) : Except LineError String :=
  match fromUtf8 bytes with
  | some line => .ok line
  | none => .error (.invalidData bytes)

/-- The bytes that a read of a line takes: those of the line, or those it rejects. -/
def lineBytes : Except LineError String → List UInt8
  | .ok line => line.toUTF8.data.toList
  | .error (.invalidData bytes) => bytes
  | .error (.io _) => []

theorem toUTF8_of_fromUtf8 {bytes : List UInt8} {line : String} (h : fromUtf8 bytes = some line) :
    line.toUTF8.data.toList = bytes := by
  unfold fromUtf8 String.fromUTF8? at h
  split at h
  · cases h
    rfl
  · cases h

@[simp]
theorem lineBytes_stringFromLine (bytes : List UInt8) :
    lineBytes (stringFromLine bytes) = bytes := by
  unfold stringFromLine
  split
  next line hline => exact toUTF8_of_fromUtf8 hline
  next => rfl

end Runite.Io
