import Runite.Fs.FileCursor
import Runite.Io.Traits

/-!
# Buffered reads

`io::buf::BufReader`, method by method.  Bytes that were read and not handed out
are in two places: the line that a dropped `read_line` has left behind, and
after it the buffer.
-/

namespace Runite.Io

open Fs (SeekFrom seekLimit)

/-- `AsyncSeek`, with the position of the next byte that a read returns. -/
structure AsyncSeek (ρ : Type) extends AsyncRead ρ where
  pollSeek : ρ → SeekFrom → ρ × Poll (Except IoError Nat)
  position : ρ → Int
  position_pollRead : ∀ r len,
    position (pollRead r len).1 = position r + (received (pollRead r len).2).length
  obtained_pollSeek : ∀ r whence, obtained (pollSeek r whence).1 = obtained r
  position_pollSeek : ∀ r whence target, (pollSeek r whence).2 = .ready (.ok target) →
    position (pollSeek r whence).1 = target
  target_of_current : ∀ r offset target,
    (pollSeek r (.current offset)).2 = .ready (.ok target) → (target : Int) = position r + offset

structure BufReader (ρ : Type) where
  inner : ρ
  buf : List UInt8
  pos : Nat := 0
  filled : Nat := 0
  lineBuf : List UInt8 := []
  linePos : Nat := 0
  buf_pos : 0 < buf.length
  pos_le : pos ≤ filled
  filled_le : filled ≤ buf.length
  linePos_le : linePos ≤ lineBuf.length

namespace BufReader

variable {ρ : Type}

theorem zero_le_zero : 0 ≤ 0 := Nat.le_refl 0

def withCapacity (capacity : Nat) (inner : ρ) : BufReader ρ where
  inner := inner
  buf := List.replicate (max capacity 1) 0
  buf_pos := by
    rw [List.length_replicate]
    omega
  pos_le := zero_le_zero
  filled_le := Nat.zero_le _
  linePos_le := zero_le_zero

variable (b : BufReader ρ)

/-- `&self.line_buf[self.line_pos..]`. -/
def lineRest : List UInt8 := b.lineBuf.drop b.linePos

/-- `&self.buf[self.pos..self.filled]`. -/
def rest : List UInt8 := (b.buf.take b.filled).drop b.pos

/-- What was read and not handed out: the partial line, then the buffer. -/
def buffered : List UInt8 := b.lineRest ++ b.rest

def buffer : List UInt8 := if b.linePos < b.lineBuf.length then b.lineRest else b.rest

def consumeBuffer (amount : Nat) : BufReader ρ :=
  if b.linePos < b.lineBuf.length then
    let linePos := min b.lineBuf.length (b.linePos + amount)
    if linePos = b.lineBuf.length then
      { b with lineBuf := [], linePos := 0, linePos_le := zero_le_zero }
    else { b with linePos := linePos, linePos_le := Nat.min_le_left .. }
  else
    { b with
      pos := min b.filled (b.pos + amount)
      pos_le := Nat.min_le_left .. }

def compactLineBuffer : BufReader ρ :=
  if 0 < b.linePos then
    { b with lineBuf := b.lineBuf.drop b.linePos, linePos := 0, linePos_le := Nat.zero_le _ }
  else b

/-- `unread_buffered`; the sum saturates at `usize::MAX`. -/
def unreadBuffered : Nat :=
  min (b.lineBuf.length - b.linePos + (b.filled - b.pos)) (usizeLimit - 1)

def clearBuffers : BufReader ρ :=
  { b with
    pos := 0, filled := 0, lineBuf := [], linePos := 0
    pos_le := zero_le_zero, filled_le := Nat.zero_le _, linePos_le := zero_le_zero }

def setInner (inner : ρ) : BufReader ρ := { b with inner := inner }

/-- A read of the inner reader into the buffer has returned these bytes. -/
def fill (inner : ρ) (bytes : List UInt8) : BufReader ρ :=
  { b with
    inner := inner
    buf := bytes ++ b.buf.drop bytes.length
    pos := 0
    filled := bytes.length
    buf_pos := by
      have := b.buf_pos
      simp only [List.length_append, List.length_drop]
      omega
    pos_le := Nat.zero_le _
    filled_le := by simp }

/-- The refill at the start of `fill_buf`, `poll_fill_buf` and every turn of
`read_line`. -/
def refill (R : AsyncRead ρ) : BufReader ρ × Poll (Except IoError Unit) :=
  if b.pos = b.filled then
    match R.pollRead b.inner b.buf.length with
    | (inner, .ready (.ok bytes)) => (b.fill inner bytes, .ready (.ok ()))
    | (inner, .ready (.error error)) => (b.setInner inner, .ready (.error error))
    | (inner, .pending) => (b.setInner inner, .pending)
  else (b, .ready (.ok ()))

def pollFillBuf (R : AsyncRead ρ) : BufReader ρ × Poll (Except IoError (List UInt8)) :=
  if b.linePos < b.lineBuf.length then (b, .ready (.ok b.lineRest))
  else
    match b.refill R with
    | (b, .ready (.ok ())) => (b, .ready (.ok b.rest))
    | (b, .ready (.error error)) => (b, .ready (.error error))
    | (b, .pending) => (b, .pending)

/-- A poll of `fill_buf`. -/
def fillBuf (R : AsyncRead ρ) : BufReader ρ × Poll (Except IoError (List UInt8)) :=
  if b.linePos < b.lineBuf.length then (b, .ready (.ok b.buffer))
  else
    match b.refill R with
    | (b, .ready (.ok ())) => (b, .ready (.ok b.buffer))
    | (b, .ready (.error error)) => (b, .ready (.error error))
    | (b, .pending) => (b, .pending)

/-- How much of the buffer the line takes: up to its newline, or all of it. -/
def take : Nat :=
  match b.rest.findIdx? (· == newline) with
  | some index => index + 1
  | none => b.rest.length

def foundNewline : Bool := (b.rest.take b.take).getLast? = some newline

/-- The line takes its part of the buffer. -/
def extendLine : BufReader ρ :=
  { b with
    lineBuf := b.lineBuf ++ b.rest.take b.take
    pos := min b.filled (b.pos + b.take)
    pos_le := Nat.min_le_left ..
    linePos_le := by
      have := b.linePos_le
      rw [List.length_append]
      omega }

/-- `core::mem::take(&mut self.line_buf)`. -/
def takeLine : BufReader ρ :=
  { b with lineBuf := [], linePos := 0, linePos_le := zero_le_zero }

/-- The end of `read_line`. -/
def endLine : BufReader ρ × Poll (Except LineError String) :=
  (b.takeLine, .ready (stringFromLine b.lineBuf))

/-- The `loop` of `read_line`; `none` when `fuel` runs out. -/
def readLineLoop (R : AsyncRead ρ) : Nat → BufReader ρ →
    Option (BufReader ρ × Poll (Except LineError String))
  | 0, _ => none
  | fuel + 1, b =>
      match b.refill R with
      | (b, .ready (.ok ())) =>
          if b.rest = [] then some b.endLine
          else if b.foundNewline then some b.extendLine.endLine
          else readLineLoop R fuel b.extendLine
      | (b, .ready (.error error)) => some (b, .ready (.error (.io error)))
      | (b, .pending) => some (b, .pending)

/-- A poll of `read_line`, with the line it appends and returns the length of.  A
later poll of the same future goes on at the refill that was pending; nothing
was consumed in between, so it finds nothing to compact. -/
def readLine (R : AsyncRead ρ) (fuel : Nat) :
    Option (BufReader ρ × Poll (Except LineError String)) :=
  readLineLoop R fuel b.compactLineBuffer

def pollRead (R : AsyncRead ρ) (len : Nat) :
    BufReader ρ × Poll (Except IoError (List UInt8)) :=
  if len = 0 then (b, .ready (.ok []))
  else if b.linePos < b.lineBuf.length then
    let read := min len (b.lineBuf.length - b.linePos)
    (b.consumeBuffer read, .ready (.ok (b.lineRest.take read)))
  else if b.pos < b.filled then
    let read := min len (b.filled - b.pos)
    ({ b with pos := min b.filled (b.pos + read), pos_le := Nat.min_le_left .. },
      .ready (.ok (b.rest.take read)))
  else if b.buf.length ≤ len then
    let (inner, poll) := R.pollRead b.inner len
    (b.setInner inner, poll)
  else
    match R.pollRead b.inner b.buf.length with
    | (inner, .ready (.ok bytes)) =>
        let b := b.fill inner bytes
        let read := min len b.filled
        ({ b with pos := min b.filled read, pos_le := Nat.min_le_left .. },
          .ready (.ok (b.rest.take read)))
    | (inner, .ready (.error error)) => (b.setInner inner, .ready (.error error))
    | (inner, .pending) => (b.setInner inner, .pending)

/-- The error of a seek with more in the buffers than an `i64` counts. -/
def seekRangeError : IoError :=
  { kind := .invalidInput, message := "buffered data exceeds seek range" }

/-- The error of a seek whose offset does not fit in an `i64` any more. -/
def seekOverflowError : IoError :=
  { kind := .invalidInput, message := "buffered seek offset overflowed" }

/-- The seek of the inner reader that corrects for what is buffered. -/
def innerSeek (whence : SeekFrom) : Except IoError SeekFrom :=
  match whence with
  | .current offset =>
      if b.unreadBuffered < seekLimit then
        -- the offset is an `i64`, so that only the lower end can be passed
        if -(seekLimit : Int) ≤ offset - b.unreadBuffered then
          .ok (.current (offset - b.unreadBuffered))
        else .error seekOverflowError
      else .error seekRangeError
  | whence => .ok whence

def pollSeek (S : AsyncSeek ρ) (whence : SeekFrom) : BufReader ρ × Poll (Except IoError Nat) :=
  match b.innerSeek whence with
  | .error error => (b, .ready (.error error))
  | .ok whence =>
      match S.pollSeek b.inner whence with
      | (inner, .ready (.ok target)) => ((b.setInner inner).clearBuffers, .ready (.ok target))
      | (inner, .ready (.error error)) => (b.setInner inner, .ready (.error error))
      | (inner, .pending) => (b.setInner inner, .pending)

end BufReader

end Runite.Io
