import Runite.Io.Traits
import Runite.Lib.Transition

/-!
# Buffered writes

`io::buf::BufWriter`, method by method, over any writer.  A flush that is pending
may be abandoned: more bytes are buffered behind those that were offered to the
inner writer, and a later flush goes on with the same operation.
-/

namespace Runite.Io

open Transition

structure BufWriter (ω : Type) where
  inner : ω
  /-- `buf.capacity()`, which stays what it was allocated with -/
  capacity : Nat
  buf : List UInt8 := []
  written : Nat := 0
  generation : Option Generation := none
  written_le : written ≤ buf.length

namespace BufWriter

variable {ω : Type}

def withCapacity (capacity : Nat) (inner : ω) : BufWriter ω where
  inner := inner
  capacity := max capacity 1
  written_le := Nat.le_refl 0

variable (b : BufWriter ω)

/-- `&self.buf[self.written..]`. -/
def unwritten : List UInt8 := b.buf.drop b.written

/-- `generation.get_or_insert_with(WriteOperation::new)`; `fresh` is the
generation that a new token would get. -/
def currentGeneration (fresh : Generation) : Generation := b.generation.getD fresh

/-- The inner writer has been polled for a flush, and has written this much. -/
def advance (inner : ω) (generation : Generation) (count : Nat) : BufWriter ω :=
  { b with
    inner
    generation
    written := min b.buf.length (b.written + count)
    written_le := Nat.min_le_left .. }

def clear : BufWriter ω :=
  { b with buf := [], written := 0, generation := none, written_le := Nat.le_refl 0 }

/-- The error of a flush that the inner writer takes nothing of. -/
def writeZeroError : IoError :=
  { kind := .writeZero, message := "failed to write buffered data" }

/-- The `while` of `poll_flush_buf`; `none` when `fuel` runs out. -/
def flushLoop (W : AsyncWrite ω) (fresh : Generation) : Nat → BufWriter ω →
    Option (BufWriter ω × Poll (Except IoError Unit))
  | 0, _ => none
  | fuel + 1, b =>
      if b.written < b.buf.length then
        let generation := b.currentGeneration fresh
        match W.pollWriteOperation b.inner b.unwritten generation with
        | (inner, .ready (.ok 0)) =>
            some (b.advance inner generation 0, .ready (.error writeZeroError))
        | (inner, .ready (.ok (count + 1))) =>
            flushLoop W fresh fuel (b.advance inner generation (count + 1))
        | (inner, .ready (.error error)) =>
            some (b.advance inner generation 0, .ready (.error error))
        | (inner, .pending) => some (b.advance inner generation 0, .pending)
      else some (b.clear, .ready (.ok ()))

/-- `poll_flush_buf`.  Each turn writes a byte at least. -/
def pollFlushBuf (W : AsyncWrite ω) (fresh : Generation) :
    Option (BufWriter ω × Poll (Except IoError Unit)) :=
  flushLoop W fresh (b.buf.length - b.written + 1) b

/-- `extend_from_slice`. -/
def extend (buf : List UInt8) : BufWriter ω :=
  { b with
    buf := b.buf ++ buf
    written_le := by
      have := b.written_le
      rw [List.length_append]
      omega }

/-- The end of `poll_write_operation`: pass the write through, or buffer it. -/
def passOrBuffer (W : AsyncWrite ω) (buf : List UInt8) (generation : Generation) :
    BufWriter ω × Poll (Except IoError Nat) :=
  if b.capacity ≤ buf.length then
    let (inner, poll) := W.pollWriteOperation b.inner buf generation
    ({ b with inner }, poll)
  else (b.extend buf, .ready (.ok buf.length))

/-- `poll_write_operation`, and with the generation 0 `poll_write`. -/
def pollWriteOperation (W : AsyncWrite ω) (buf : List UInt8) (generation fresh : Generation) :
    Option (BufWriter ω × Poll (Except IoError Nat)) :=
  if buf = [] then some (b, .ready (.ok 0))
  else if 0 < b.written ∨ b.capacity - b.buf.length < buf.length then
    (b.pollFlushBuf W fresh).map fun
      | (b, .ready (.ok ())) => b.passOrBuffer W buf generation
      | (b, .ready (.error error)) => (b, .ready (.error error))
      | (b, .pending) => (b, .pending)
  else some (b.passOrBuffer W buf generation)

def pollFlush (W : AsyncWrite ω) (fresh : Generation) :
    Option (BufWriter ω × Poll (Except IoError Unit)) :=
  (b.pollFlushBuf W fresh).map fun
    | (b, .ready (.ok ())) =>
        let (inner, poll) := W.pollFlush b.inner
        ({ b with inner }, poll)
    | (b, .ready (.error error)) => (b, .ready (.error error))
    | (b, .pending) => (b, .pending)

def pollClose (W : AsyncWrite ω) (fresh : Generation) :
    Option (BufWriter ω × Poll (Except IoError Unit)) :=
  (b.pollFlushBuf W fresh).map fun
    | (b, .ready (.ok ())) =>
        let (inner, poll) := W.pollClose b.inner
        ({ b with inner }, poll)
    | (b, .ready (.error error)) => (b, .ready (.error error))
    | (b, .pending) => (b, .pending)

end BufWriter

end Runite.Io
