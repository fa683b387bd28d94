import Runite.Io.Traits
import Runite.Lib.Transition
import Runite.Fs.FileCursor

/-!
# Writes through the compatibility adapter

`io::compat::Compat` as a `futures_io` writer.  A write is accepted with a copy of
its bytes, at most one copy at a time; every call writes what is left of it first.
The inner writer is any state: what it answers is not constrained.
-/

namespace Runite.Io

open Transition Fs

/-- `AsyncWrite` and `AsyncSeek`. -/
structure AsyncWriteSeek (ω : Type) extends AsyncWrite ω where
  pollSeek : ω → SeekFrom → ω × Poll (Except IoError Nat)

/-- `CompatPendingWrite`; it is kept until everything is written. -/
structure CompatPendingWrite where
  data : List UInt8
  written : Nat
  operation : Generation
  written_lt : written < data.length

/-- `&pending.data[pending.written..]`. -/
def CompatPendingWrite.remaining (pending : CompatPendingWrite) : List UInt8 :=
  pending.data.drop pending.written

/-- `Compat`, with the field of its `CompatWriteState`. -/
structure Compat (ω : Type) where
  inner : ω
  pending : Option CompatPendingWrite := none

inductive CompatDrainStep
  | complete
  | progress
  deriving DecidableEq

/-- The error of an accepted buffer that the inner writer takes nothing of. -/
def compatWriteZero : IoError :=
  { kind := .writeZero, message := "failed to write accepted compatibility buffer" }

/-- The error of an inner writer that takes more than it was given. -/
def compatOverrun : IoError :=
  { kind := .invalidData, message := "writer reported more bytes than the compatibility buffer" }

/-- The error of a vectored write whose length does not fit a `usize`. -/
def compatLengthOverflow : IoError :=
  { kind := .invalidInput, message := "vectored compatibility buffer length overflowed" }

namespace Compat

variable {ω : Type} (W : AsyncWriteSeek ω) (c : Compat ω)

def pollStep : Compat ω × Poll (Except IoError CompatDrainStep) :=
  match c.pending with
  | none => (c, .ready (.ok .complete))
  | some pending =>
      match W.pollWriteOperation c.inner pending.remaining pending.operation with
      | (inner, .ready (.ok written)) =>
          if written = 0 then ({ inner }, .ready (.error compatWriteZero))
          else if hover : pending.remaining.length < written then
            ({ inner }, .ready (.error compatOverrun))
          else if hall : pending.written + written = pending.data.length then
            ({ inner }, .ready (.ok .complete))
          else
            ({ inner
               pending := some
                { pending with
                  written := pending.written + written
                  written_lt := by
                    rw [CompatPendingWrite.remaining, List.length_drop] at hover
                    have := pending.written_lt
                    omega } }, .ready (.ok .progress))
      | (inner, .ready (.error error)) => ({ inner }, .ready (.error error))
      | (inner, .pending) => ({ c with inner }, .pending)

/-- The `loop` of `poll_drain`; `none` when `fuel` runs out. -/
def drainLoop : Nat → Compat ω → Option (Compat ω × Poll (Except IoError Unit))
  | 0, _ => none
  | fuel + 1, c =>
      match c.pollStep W with
      | (c, .ready (.ok .progress)) => drainLoop fuel c
      | (c, .ready (.ok .complete)) => some (c, .ready (.ok ()))
      | (c, .ready (.error error)) => some (c, .ready (.error error))
      | (c, .pending) => some (c, .pending)

/-- What is left of the buffer that was accepted. -/
def remainder : List UInt8 :=
  match c.pending with
  | none => []
  | some pending => pending.remaining

/-- `poll_drain`.  Each turn writes a byte at least. -/
def pollDrain : Option (Compat ω × Poll (Except IoError Unit)) :=
  drainLoop W (c.remainder.length + 1) c

/-- `accept`; `operation` is the generation of the new `WriteOperation`. -/
def accept (data : List UInt8) (hdata : 0 < data.length) (operation : Generation) :
    Compat ω × Poll (Except IoError Nat) :=
  match pollStep W { c with pending := some ⟨data, 0, operation, hdata⟩ } with
  | (c, .ready (.ok _)) => (c, .ready (.ok data.length))
  | (c, .pending) => (c, .ready (.ok data.length))
  | (c, .ready (.error error)) => (c, .ready (.error error))

/-- The part that `poll_write` and `poll_write_vectored` share: the bytes are
accepted once the buffer before them is written. -/
def drainAndAccept (data : List UInt8) (operation : Generation) :
    Option (Compat ω × Poll (Except IoError Nat)) :=
  if hdata : 0 < data.length then
    (c.pollDrain W).map fun
      | (c, .ready (.ok ())) => c.accept W data hdata operation
      | (c, .ready (.error error)) => (c, .ready (.error error))
      | (c, .pending) => (c, .pending)
  else some (c, .ready (.ok 0))

def pollWrite (buf : List UInt8) (operation : Generation) :
    Option (Compat ω × Poll (Except IoError Nat)) :=
  c.drainAndAccept W buf operation

/-- The `try_fold` of `checked_add` over the lengths. -/
def checkedTotal (bufs : List (List UInt8)) : Option Nat :=
  bufs.foldlM (fun total buf =>
    if total + buf.length < usizeLimit then some (total + buf.length) else none) 0

def pollWriteVectored (bufs : List (List UInt8)) (operation : Generation) :
    Option (Compat ω × Poll (Except IoError Nat)) :=
  match checkedTotal bufs with
  | none => some (c, .ready (.error compatLengthOverflow))
  | some _ => c.drainAndAccept W bufs.flatten operation

/-- What `poll_flush`, `poll_close` and `poll_seek` share: the inner writer is
asked once the buffer is written. -/
def drainAndThen {α : Type} (ask : ω → ω × Poll (Except IoError α)) :
    Option (Compat ω × Poll (Except IoError α)) :=
  (c.pollDrain W).map fun
    | (c, .ready (.ok ())) =>
        let (inner, poll) := ask c.inner
        ({ c with inner }, poll)
    | (c, .ready (.error error)) => (c, .ready (.error error))
    | (c, .pending) => (c, .pending)

def pollFlush : Option (Compat ω × Poll (Except IoError Unit)) := c.drainAndThen W W.pollFlush

def pollClose : Option (Compat ω × Poll (Except IoError Unit)) := c.drainAndThen W W.pollClose

def pollSeek (position : SeekFrom) : Option (Compat ω × Poll (Except IoError Nat)) :=
  c.drainAndThen W fun inner => W.pollSeek inner position

end Compat

end Runite.Io
