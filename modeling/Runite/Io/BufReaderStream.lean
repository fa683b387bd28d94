import Runite.Io.BufReader
import Runite.Lib.Transition

/-!
# Buffered reads are transparent

Whatever the inner reader does and in whatever order the methods of a
`BufReader` are called, what was handed out and what is buffered is what was
obtained from the inner reader, in order.  Two kinds of bytes leave the buffers
otherwise: those of a line that is not UTF-8, and those that a seek discards.
-/

namespace Runite.Io

open Fs (SeekFrom)
open Transition

namespace BufReader

variable {ρ : Type} {R : AsyncRead ρ} {b b' b'' : BufReader ρ}

/-! ## What is buffered -/

theorem length_rest (b : BufReader ρ) : b.rest.length = b.filled - b.pos := by
  have := b.filled_le
  simp only [rest, List.length_drop, List.length_take]
  omega

theorem length_lineRest (b : BufReader ρ) : b.lineRest.length = b.lineBuf.length - b.linePos :=
  List.length_drop

/-- The unread part of a buffer whose position has gone on. -/
theorem drop_rest (b : BufReader ρ) (n : Nat) :
    (b.buf.take b.filled).drop (min b.filled (b.pos + n)) = b.rest.drop n := by
  have hlength : (b.buf.take b.filled).length = b.filled := by
    have := b.filled_le
    simp only [List.length_take]
    omega
  rw [rest, List.drop_drop]
  rcases Nat.le_total b.filled (b.pos + n) with hle | hle
  · rw [Nat.min_eq_left hle, List.drop_of_length_le (by omega), List.drop_of_length_le (by omega)]
  · rw [Nat.min_eq_right hle]

/-- A line that has been handed out up to its end is not there. -/
theorem lineRest_eq_nil (h : ¬ b.linePos < b.lineBuf.length) : b.lineRest = [] :=
  List.drop_of_length_le (by omega)

@[simp]
theorem rest_fill (b : BufReader ρ) (inner : ρ) (bytes : List UInt8) :
    (b.fill inner bytes).rest = bytes := by
  simp [rest, fill]

@[simp]
theorem lineRest_fill (b : BufReader ρ) (inner : ρ) (bytes : List UInt8) :
    (b.fill inner bytes).lineRest = b.lineRest := rfl

/-- `consume` hands out the front of the buffer that it looks at. -/
theorem front_append_consumeBuffer (b : BufReader ρ) (amount : Nat) :
    b.buffer.take amount ++ (b.consumeBuffer amount).buffered = b.buffered := by
  unfold buffer consumeBuffer
  split
  next hline =>
    dsimp only
    have hsplit : b.lineRest.take amount ++ b.lineBuf.drop (b.linePos + amount) = b.lineRest := by
      rw [lineRest, ← List.drop_drop, List.take_append_drop]
    split
    next hend =>
      rw [List.drop_of_length_le (by omega), List.append_nil] at hsplit
      rw [hsplit]
      rfl
    next hend =>
      have hmin : min b.lineBuf.length (b.linePos + amount) = b.linePos + amount := by omega
      show b.lineRest.take amount ++
        (b.lineBuf.drop (min b.lineBuf.length (b.linePos + amount)) ++ b.rest) = b.buffered
      rw [hmin, ← List.append_assoc, hsplit]
      rfl
  next hline =>
    show b.rest.take amount ++
      (b.lineRest ++ (b.buf.take b.filled).drop (min b.filled (b.pos + amount))) = b.buffered
    rw [drop_rest, buffered, lineRest_eq_nil hline]
    simp

@[simp]
theorem inner_consumeBuffer (b : BufReader ρ) (amount : Nat) :
    (b.consumeBuffer amount).inner = b.inner := by
  unfold consumeBuffer
  split
  · dsimp only
    split <;> rfl
  · rfl

theorem buffered_compactLineBuffer (b : BufReader ρ) :
    b.compactLineBuffer.buffered = b.buffered := by
  unfold compactLineBuffer
  split <;> rfl

@[simp]
theorem inner_compactLineBuffer (b : BufReader ρ) : b.compactLineBuffer.inner = b.inner := by
  unfold compactLineBuffer
  split <;> rfl

@[simp]
theorem linePos_compactLineBuffer (b : BufReader ρ) : b.compactLineBuffer.linePos = 0 := by
  unfold compactLineBuffer
  split
  · rfl
  · omega

/-! ## What a method keeps -/

/-- What has left the buffers, and what is in them now, is what was in them and
what was obtained since. -/
def Keeps (R : AsyncRead ρ) (b b' : BufReader ρ) (out : List UInt8) : Prop :=
  ∃ bytes, R.obtained b'.inner = R.obtained b.inner ++ bytes ∧
    out ++ b'.buffered = b.buffered ++ bytes

theorem Keeps.trans {out out' : List UInt8} (h : Keeps R b b' out) (h' : Keeps R b' b'' out') :
    Keeps R b b'' (out ++ out') := by
  obtain ⟨bytes, hobtained, hkept⟩ := h
  obtain ⟨bytes', hobtained', hkept'⟩ := h'
  refine ⟨bytes ++ bytes', by rw [hobtained', hobtained, List.append_assoc], ?_⟩
  rw [List.append_assoc, hkept', ← List.append_assoc, hkept, List.append_assoc]

theorem Keeps.of_eq {out : List UInt8} (hinner : b'.inner = b.inner)
    (hbuffered : out ++ b'.buffered = b.buffered) : Keeps R b b' out :=
  ⟨[], by rw [hinner, List.append_nil], by rw [hbuffered, List.append_nil]⟩

/-- A refill leaves the line alone, and appends what it obtains to the buffer. -/
theorem refill_spec (R : AsyncRead ρ) (b : BufReader ρ) :
    (b.refill R).1.lineBuf = b.lineBuf ∧ (b.refill R).1.linePos = b.linePos ∧
      Keeps R b (b.refill R).1 [] := by
  unfold refill
  split
  next hempty =>
    have hrest : b.rest = [] := List.eq_nil_of_length_eq_zero (by rw [length_rest]; omega)
    have hobtained := R.obtained_pollRead b.inner b.buf.length
    rcases hread : R.pollRead b.inner b.buf.length with ⟨inner, (error | bytes) | _⟩ <;>
      rw [hread] at hobtained
    · exact ⟨rfl, rfl, [], hobtained, (List.append_nil _).symm⟩
    · refine ⟨rfl, rfl, bytes, hobtained, ?_⟩
      simp [buffered, hrest]
    · exact ⟨rfl, rfl, [], hobtained, (List.append_nil _).symm⟩
  next => exact ⟨rfl, rfl, .of_eq rfl rfl⟩

theorem keeps_pollFillBuf (R : AsyncRead ρ) (b : BufReader ρ) :
    Keeps R b (b.pollFillBuf R).1 [] := by
  have hrefill := (b.refill_spec R).2.2
  unfold pollFillBuf
  split
  · exact .of_eq rfl rfl
  · rcases hpoll : b.refill R with ⟨t, (error | ⟨⟩) | _⟩ <;> rwa [hpoll] at hrefill

theorem keeps_fillBuf (R : AsyncRead ρ) (b : BufReader ρ) : Keeps R b (b.fillBuf R).1 [] := by
  have hrefill := (b.refill_spec R).2.2
  unfold fillBuf
  split
  · exact .of_eq rfl rfl
  · rcases hpoll : b.refill R with ⟨t, (error | ⟨⟩) | _⟩ <;> rwa [hpoll] at hrefill

/-- What a fill hands out is the buffer that it leaves. -/
def Shows (R : AsyncRead ρ) (b : BufReader ρ) : Prop :=
  ∀ slice, ((b.pollFillBuf R).2 = .ready (.ok slice) → (b.pollFillBuf R).1.buffer = slice) ∧
    ((b.fillBuf R).2 = .ready (.ok slice) → (b.fillBuf R).1.buffer = slice)

theorem shows_fill (R : AsyncRead ρ) (b : BufReader ρ) : Shows R b := by
  obtain ⟨hlineBuf, hlinePos, -⟩ := b.refill_spec R
  intro slice
  unfold pollFillBuf fillBuf
  split
  next hline =>
    have hbuffer : b.buffer = b.lineRest := if_pos hline
    exact ⟨fun hslice => by cases hslice; exact hbuffer, fun hslice => by cases hslice; rfl⟩
  next hline =>
    rcases hpoll : b.refill R with ⟨t, (error | ⟨⟩) | _⟩ <;> rw [hpoll] at hlineBuf hlinePos
    · constructor <;> intro hslice <;> cases hslice
    · -- a refill does not touch the line
      have hbuffer : t.buffer = t.rest := if_neg (by rwa [hlineBuf, hlinePos])
      exact ⟨fun hslice => by cases hslice; exact hbuffer, fun hslice => by cases hslice; rfl⟩
    · constructor <;> intro hslice <;> cases hslice

/-! ## Lines -/

theorem buffered_extendLine (h : b.linePos = 0) : b.extendLine.buffered = b.buffered := by
  have hline : b.lineRest = b.lineBuf := by rw [lineRest, h, List.drop_zero]
  show (b.lineBuf ++ b.rest.take b.take).drop b.linePos ++
    (b.buf.take b.filled).drop (min b.filled (b.pos + b.take)) = b.buffered
  rw [drop_rest, h, List.drop_zero, List.append_assoc, List.take_append_drop, buffered, hline]

theorem keeps_endLine (h : b.linePos = 0) :
    Keeps R b b.endLine.1 (lineBytes (stringFromLine b.lineBuf)) := by
  refine .of_eq rfl ?_
  rw [lineBytes_stringFromLine]
  show b.lineBuf ++ ([] ++ b.rest) = b.lineRest ++ b.rest
  rw [lineRest, h, List.drop_zero, List.nil_append]

/-- The bytes that a poll of `read_line` takes out. -/
def taken : Poll (Except LineError String) → List UInt8
  | .ready line => lineBytes line
  | .pending => []

theorem keeps_readLineLoop {fuel : Nat} {poll : Poll (Except LineError String)}
    (hline : b.linePos = 0) (h : readLineLoop R fuel b = some (b', poll)) :
    Keeps R b b' (taken poll) := by
  induction fuel generalizing b with
  | zero => cases h
  | succ fuel ih =>
      obtain ⟨-, hline', hrefill⟩ := b.refill_spec R
      unfold readLineLoop at h
      rcases hpoll : b.refill R with ⟨t, (error | ⟨⟩) | _⟩ <;> rw [hpoll] at h hrefill hline'
      · cases h
        exact hrefill
      · have ht : t.linePos = 0 := hline'.trans hline
        have hextend : Keeps R t t.extendLine [] := .of_eq rfl (buffered_extendLine ht)
        dsimp only at h
        split at h
        · cases h
          exact hrefill.trans (keeps_endLine ht)
        split at h
        · cases h
          exact hrefill.trans (hextend.trans (keeps_endLine ht))
        · exact hrefill.trans (hextend.trans (ih ht h))
      · cases h
        exact hrefill

theorem keeps_readLine {fuel : Nat} {poll : Poll (Except LineError String)}
    (h : b.readLine R fuel = some (b', poll)) : Keeps R b b' (taken poll) := by
  have hcompact : Keeps R b b.compactLineBuffer [] :=
    .of_eq (inner_compactLineBuffer b) (buffered_compactLineBuffer b)
  exact hcompact.trans (keeps_readLineLoop (linePos_compactLineBuffer b) h)

theorem fromUtf8_of_invalidData {line bytes : List UInt8}
    (h : stringFromLine line = .error (.invalidData bytes)) : fromUtf8 bytes = none := by
  unfold stringFromLine at h
  split at h
  · cases h
  · cases h
    assumption

theorem fromUtf8_of_readLineLoop {fuel : Nat} {bytes : List UInt8}
    (h : readLineLoop R fuel b = some (b', .ready (.error (.invalidData bytes)))) :
    fromUtf8 bytes = none := by
  induction fuel generalizing b with
  | zero => cases h
  | succ fuel ih =>
      have hend : ∀ {t : BufReader ρ},
          some t.endLine = some (b', .ready (.error (.invalidData bytes))) →
          fromUtf8 bytes = none := by
        intro t heq
        have hpoll := congrArg Prod.snd (Option.some.inj heq)
        exact fromUtf8_of_invalidData (Poll.ready.inj hpoll)
      unfold readLineLoop at h
      rcases hpoll : b.refill R with ⟨t, (error | ⟨⟩) | _⟩ <;> rw [hpoll] at h
      · cases h
      · dsimp only at h
        split at h
        · exact hend h
        split at h
        · exact hend h
        · exact ih h
      · cases h

/-! ## Reads and seeks -/

theorem keeps_pollRead (R : AsyncRead ρ) (b : BufReader ρ) (len : Nat) :
    Keeps R b (b.pollRead R len).1 (received (b.pollRead R len).2) := by
  unfold pollRead
  split
  · exact .of_eq rfl rfl
  split
  next hline =>
    refine .of_eq (inner_consumeBuffer ..) ?_
    have hfront := b.front_append_consumeBuffer (min len (b.lineBuf.length - b.linePos))
    rwa [buffer, if_pos hline] at hfront
  next hline =>
    split
    next hrest =>
      refine .of_eq rfl ?_
      show b.rest.take (min len (b.filled - b.pos)) ++
        (b.lineRest ++ (b.buf.take b.filled).drop (min b.filled (b.pos + min len (b.filled - b.pos))))
          = b.buffered
      rw [drop_rest, buffered, lineRest_eq_nil hline, List.nil_append, List.take_append_drop,
        List.nil_append]
    next hrest =>
      have hnil : b.buffered = [] := by
        rw [buffered, lineRest_eq_nil hline, List.nil_append]
        exact List.eq_nil_of_length_eq_zero (by rw [length_rest]; omega)
      split
      · refine ⟨received (R.pollRead b.inner len).2, R.obtained_pollRead .., ?_⟩
        show _ ++ b.buffered = _
        rw [hnil, List.append_nil, List.nil_append]
      · have hobtained := R.obtained_pollRead b.inner b.buf.length
        rcases hread : R.pollRead b.inner b.buf.length with ⟨inner, (error | bytes) | _⟩ <;>
          rw [hread] at hobtained
        · exact ⟨[], hobtained, (List.append_nil _).symm⟩
        · refine ⟨bytes, hobtained, ?_⟩
          have hdrop := (b.fill inner bytes).drop_rest (min len (b.fill inner bytes).filled)
          rw [show (b.fill inner bytes).pos = 0 from rfl, Nat.zero_add] at hdrop
          show (b.fill inner bytes).rest.take (min len (b.fill inner bytes).filled) ++
            ((b.fill inner bytes).lineRest ++ ((b.fill inner bytes).buf.take
              (b.fill inner bytes).filled).drop (min (b.fill inner bytes).filled
                (min len (b.fill inner bytes).filled))) = b.buffered ++ bytes
          rw [hdrop, lineRest_fill, lineRest_eq_nil hline, List.nil_append, List.take_append_drop,
            rest_fill, hnil, List.nil_append]
        · exact ⟨[], hobtained, (List.append_nil _).symm⟩

/-- The seek of the inner reader starts from the position of the next byte that
is handed out. -/
def logicalPosition (S : AsyncSeek ρ) (b : BufReader ρ) : Int :=
  S.position b.inner - b.buffered.length

/-- What a seek does: when it succeeds, the buffers are discarded, and a relative
one has gone from the logical position; otherwise they are as they were. -/
def Seeks (S : AsyncSeek ρ) (b : BufReader ρ) (whence : SeekFrom) :
    BufReader ρ × Poll (Except IoError Nat) → Prop
  | (b', .ready (.ok target)) =>
      b'.buffered = [] ∧ S.position b'.inner = target ∧
        ∀ offset, whence = .current offset → (target : Int) = logicalPosition S b + offset
  | (b', .ready (.error _)) => b' = b.setInner b'.inner
  | (b', .pending) => b' = b.setInner b'.inner

theorem seeks_pollSeek (S : AsyncSeek ρ) (b : BufReader ρ) (whence : SeekFrom) :
    Seeks S b whence (b.pollSeek S whence) := by
  unfold pollSeek
  split
  · exact rfl
  next inner hinner =>
    have hposition := S.position_pollSeek b.inner inner
    split
    next t target hseek =>
      rw [hseek] at hposition
      refine ⟨rfl, hposition target rfl, ?_⟩
      rintro offset rfl
      unfold innerSeek at hinner
      dsimp only at hinner
      split at hinner
      next hrange =>
        split at hinner
        · cases hinner
          have htarget := S.target_of_current b.inner _ target (by rw [hseek])
          have hunread : b.unreadBuffered = b.buffered.length := by
            unfold unreadBuffered at hrange ⊢
            rw [buffered, List.length_append, length_rest, length_lineRest]
            have hlimit : Fs.seekLimit < usizeLimit - 1 := by decide
            omega
          rw [logicalPosition, htarget, hunread]
          omega
        · cases hinner
      next => cases hinner
    · rfl
    · rfl

def discarded (b : BufReader ρ) : Poll (Except IoError Nat) → List UInt8
  | .ready (.ok _) => b.buffered
  | .ready (.error _) => []
  | .pending => []

theorem keeps_pollSeek (S : AsyncSeek ρ) (b : BufReader ρ) (whence : SeekFrom) :
    Keeps S.toAsyncRead b (b.pollSeek S whence).1 (b.discarded (b.pollSeek S whence).2) := by
  unfold pollSeek
  split
  · exact .of_eq rfl rfl
  next inner hinner =>
    have hobtained := (S.obtained_pollSeek b.inner inner).trans (List.append_nil _).symm
    rcases hseek : S.pollSeek b.inner inner with ⟨t, (error | target) | _⟩ <;>
      rw [hseek] at hobtained
    · exact ⟨[], hobtained, (List.append_nil _).symm⟩
    · exact ⟨[], hobtained, rfl⟩
    · exact ⟨[], hobtained, (List.append_nil _).symm⟩

/-! ## Sessions -/

inductive Chunk
  | handed (bytes : List UInt8)
  /-- a line that is not UTF-8 -/
  | rejected (bytes : List UInt8)
  /-- discarded by a seek -/
  | discarded (bytes : List UInt8)
  deriving DecidableEq

def Chunk.bytes : Chunk → List UInt8
  | .handed bytes => bytes
  | .rejected bytes => bytes
  | .discarded bytes => bytes

/-- What a poll of `read_line` takes out. -/
def lineChunk : Poll (Except LineError String) → Chunk
  | .ready (.error (.invalidData bytes)) => .rejected bytes
  | poll => .handed (taken poll)

/-- A buffered reader, and what has left its buffers. -/
structure Session (ρ : Type) where
  reader : BufReader ρ
  log : List Chunk := []

/-- A call of a method.  A `read_line` that is pending may be polled again or
dropped: the next call is any call. -/
inductive Call
  | pollRead (len : Nat)
  | pollFillBuf
  | fillBuf
  | consume (amount : Nat)
  | readLine (fuel : Nat)
  | pollSeek (whence : SeekFrom)

namespace Session

def step (S : AsyncSeek ρ) (w : Session ρ) : Call → Option (Session ρ)
  | .pollRead len =>
      let (reader, poll) := w.reader.pollRead S.toAsyncRead len
      some { reader, log := w.log ++ [.handed (received poll)] }
  | .pollFillBuf => some { w with reader := (w.reader.pollFillBuf S.toAsyncRead).1 }
  | .fillBuf => some { w with reader := (w.reader.fillBuf S.toAsyncRead).1 }
  | .consume amount =>
      some
        { reader := w.reader.consumeBuffer amount
          log := w.log ++ [.handed (w.reader.buffer.take amount)] }
  | .readLine fuel =>
      (w.reader.readLine S.toAsyncRead fuel).map fun (reader, poll) =>
        { reader, log := w.log ++ [lineChunk poll] }
  | .pollSeek whence =>
      let (reader, poll) := w.reader.pollSeek S whence
      some { reader, log := w.log ++ [.discarded (w.reader.discarded poll)] }

/-- What has left the buffers and what is in them is what was obtained; only a
line that is not UTF-8 was rejected. -/
structure Transparent (R : AsyncRead ρ) (before : List UInt8) (w : Session ρ) : Prop where
  stream : R.obtained w.reader.inner =
    before ++ w.log.flatMap Chunk.bytes ++ w.reader.buffered
  rejected : ∀ bytes, .rejected bytes ∈ w.log → fromUtf8 bytes = none

variable {w w' : Session ρ} {before : List UInt8} {chunk : Chunk}

theorem Transparent.keep (h : Transparent R before w) {b : BufReader ρ}
    (hkeeps : Keeps R w.reader b chunk.bytes)
    (hchunk : ∀ bytes, chunk = .rejected bytes → fromUtf8 bytes = none) :
    Transparent R before { reader := b, log := w.log ++ [chunk] } where
  stream := by
    obtain ⟨bytes, hobtained, hkept⟩ := hkeeps
    rw [hobtained, h.stream, List.append_assoc, ← hkept]
    simp
  rejected := by
    intro bytes hmem
    rcases List.mem_append.mp hmem with hmem | hmem
    · exact h.rejected bytes hmem
    · exact hchunk bytes (List.mem_singleton.mp hmem).symm

theorem Transparent.keep_nil (h : Transparent R before w) {b : BufReader ρ}
    (hkeeps : Keeps R w.reader b []) : Transparent R before { w with reader := b } where
  stream := by
    obtain ⟨bytes, hobtained, hkept⟩ := hkeeps
    rw [List.nil_append] at hkept
    rw [hobtained, h.stream, List.append_assoc, ← hkept]
  rejected := h.rejected

theorem bytes_lineChunk (poll : Poll (Except LineError String)) :
    (lineChunk poll).bytes = taken poll := by
  rcases poll with ((error | bytes) | line) | _ <;> rfl

theorem Transparent.step {S : AsyncSeek ρ} {call : Call}
    (h : Transparent S.toAsyncRead before w) (hs : Session.step S w call = some w') :
    Transparent S.toAsyncRead before w' := by
  cases call with
  | pollRead len =>
      cases hs
      exact h.keep (keeps_pollRead ..) nofun
  | pollFillBuf =>
      cases hs
      exact h.keep_nil (keeps_pollFillBuf ..)
  | fillBuf =>
      cases hs
      exact h.keep_nil (keeps_fillBuf ..)
  | consume amount =>
      cases hs
      exact h.keep (.of_eq (inner_consumeBuffer ..) (front_append_consumeBuffer ..)) nofun
  | readLine fuel =>
      obtain ⟨⟨reader, poll⟩, hline, rfl⟩ := Option.map_eq_some_iff.mp hs
      refine h.keep (by rw [bytes_lineChunk]; exact keeps_readLine hline) fun bytes hchunk => ?_
      rcases poll with ((error | rejected) | line) | _
      · cases hchunk
      · cases hchunk
        exact fromUtf8_of_readLineLoop hline
      · cases hchunk
      · cases hchunk
  | pollSeek whence =>
      cases hs
      exact h.keep (keeps_pollSeek ..) nofun

/-- In every state of every session over any reader, what was handed out,
rejected as not UTF-8 or discarded by a seek, and then what is buffered, is what
was obtained from the reader; what a fill hands out is the buffer; and a seek
goes from the logical position and discards the buffers, or leaves them as they
are. -/
theorem transparent_of_reachable {S : AsyncSeek ρ} {capacity : Nat} {inner : ρ}
    (h : Reachable (Session.step S) (fun _ _ => True) ⟨withCapacity capacity inner, []⟩ w) :
    S.obtained w.reader.inner =
        S.obtained inner ++ w.log.flatMap Chunk.bytes ++ w.reader.buffered ∧
      (∀ bytes, .rejected bytes ∈ w.log → fromUtf8 bytes = none) ∧
      Shows S.toAsyncRead w.reader ∧
      ∀ whence, Seeks S w.reader whence (w.reader.pollSeek S whence) := by
  have hstart : Transparent S.toAsyncRead (S.obtained inner) ⟨withCapacity capacity inner, []⟩ :=
    ⟨by simp [buffered, lineRest, rest, withCapacity], by simp⟩
  obtain ⟨hstream, hrejected⟩ := h.invariant (Transparent S.toAsyncRead (S.obtained inner))
    hstart fun _ _ _ htransparent _ hs => htransparent.step hs
  exact ⟨hstream, hrejected, shows_fill S.toAsyncRead w.reader, seeks_pollSeek S w.reader⟩

end Session

/-! ## A file in memory -/

/-- A file in memory.  A read is pending once for each `true` of `stalls`. -/
structure MemoryFile where
  data : List UInt8
  cursor : Nat := 0
  stalls : List Bool := []
  given : List UInt8 := []

namespace MemoryFile

def pollRead (f : MemoryFile) (len : Nat) : MemoryFile × Poll (Except IoError (List UInt8)) :=
  match f.stalls with
  | true :: stalls => ({ f with stalls }, .pending)
  | _ =>
      let bytes := (f.data.drop f.cursor).take len
      ({ f with
          cursor := f.cursor + bytes.length
          stalls := f.stalls.tail
          given := f.given ++ bytes },
        .ready (.ok bytes))

def pollSeek (f : MemoryFile) (whence : SeekFrom) : MemoryFile × Poll (Except IoError Nat) :=
  match Fs.lseek f.cursor f.data.length whence with
  | .ok target => ({ f with cursor := target }, .ready (.ok target))
  | .error error => (f, .ready (.error error))

/-- Reading a file in memory, and seeking in it. -/
def seeker : AsyncSeek MemoryFile where
  pollRead := pollRead
  obtained := given
  length_le f len := by
    unfold pollRead
    split
    · exact Nat.zero_le _
    · exact List.length_take_le ..
  obtained_pollRead f len := by
    unfold pollRead
    split <;> simp
  pollSeek := pollSeek
  position f := f.cursor
  position_pollRead f len := by
    unfold pollRead
    split <;> simp
  obtained_pollSeek f whence := by
    unfold pollSeek
    split <;> rfl
  position_pollSeek f whence target h := by
    unfold pollSeek at h ⊢
    split at h <;> cases h
    rfl
  target_of_current f offset target h := by
    unfold pollSeek at h
    split at h <;> cases h
    next hseek =>
      unfold Fs.lseek at hseek
      dsimp only at hseek
      split at hseek
      next hrange =>
        cases hseek
        exact Int.toNat_of_nonneg hrange.1
      next => cases hseek

end MemoryFile

/-- A line is cancelled half-way, a byte of it is consumed, the rest of it is read
on, the line after it is rejected, and a seek goes back by two. -/
theorem transparent_memoryFile : ∃ w : Session MemoryFile,
    (w.reader.inner.given =
        [] ++ w.log.flatMap Chunk.bytes ++ w.reader.buffered ∧
      (∀ bytes, .rejected bytes ∈ w.log → fromUtf8 bytes = none) ∧
      Shows MemoryFile.seeker.toAsyncRead w.reader ∧
      ∀ whence, Seeks MemoryFile.seeker w.reader whence
        (w.reader.pollSeek MemoryFile.seeker whence)) ∧
      w.log.contains (.rejected [255, 10]) ∧ w.log.contains (.discarded [100]) := by
  obtain ⟨w, hreach, hw⟩ := Reachable.exists_of_run (Session.step MemoryFile.seeker)
    (fun _ _ => True)
    ⟨withCapacity 3 { data := [97, 98, 99, 10, 255, 10, 99, 100], stalls := [false, true] }, []⟩
    [.readLine 4, .consume 1, .readLine 4, .readLine 4, .pollRead 1, .pollSeek (.current (-2))]
    (fun w => w.log.contains (.rejected [255, 10]) ∧ w.log.contains (.discarded [100]))
    (by simp) (by decide +kernel)
  exact ⟨w, Session.transparent_of_reachable hreach, of_decide_eq_true hw⟩

end BufReader

end Runite.Io
