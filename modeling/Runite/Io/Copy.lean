import Runite.Io.Traits
import Runite.Lib.Transition

/-!
# Copies

`io::ext::Copy` and `io::ext::CopyBidirectional`, poll by poll.  Both move bytes
through a buffer with the same loop; a `Copy` then flushes the writer, and a
direction of a `CopyBidirectional` closes it.
-/

namespace Runite.Io

open Transition

/-- A value that is a reader and a writer: reads do not write, and writes do not
read. -/
structure AsyncReadWrite (α : Type) extends AsyncRead α, RetainingWrite α where
  accepted_pollRead : ∀ a len, accepted (pollRead a len).1 = accepted a
  offered_pollRead : ∀ a len, offered (pollRead a len).1 = offered a
  obtained_pollWrite : ∀ a buf g, obtained (pollWriteOperation a buf g).1 = obtained a
  obtained_pollClose : ∀ a, obtained (pollClose a).1 = obtained a

def copyBufSize : Nat := 8192

structure CopyBuf where
  /-- `&buf[..filled]` -/
  buf : List UInt8 := []
  pos : Nat := 0
  copied : Nat := 0
  generation : Generation
  deriving DecidableEq

namespace CopyBuf

variable (c : CopyBuf)

/-- `&buf[pos..filled]`. -/
def rest : List UInt8 := c.buf.drop c.pos

/-- The writer has answered with a positive count. -/
def wrote (count : Nat) : CopyBuf :=
  { c with pos := c.pos + count, copied := c.copied + count }

def read (bytes : List UInt8) : CopyBuf :=
  { c with buf := bytes, pos := 0 }

end CopyBuf

/-- The error of a copy whose writer takes nothing. -/
def copyWriteZero : IoError := { kind := .writeZero, message := "failed to write copied data" }

variable {ρ ω : Type}

/-- The turns of `Copy::poll`, and of `poll_copy_half`, in the state `Copying`:
`Ok(())` at the end of the input, where the state changes. `none` when `fuel` runs
out; the loop itself has no bound. -/
def copyLoop (R : AsyncRead ρ) (W : AsyncWrite ω) : Nat → ρ → ω → CopyBuf →
    Option ((ρ × ω × CopyBuf) × Poll (Except IoError Unit))
  | 0, _, _, _ => none
  | fuel + 1, reader, writer, c =>
      if c.pos < c.buf.length then
        match W.pollWriteOperation writer c.rest c.generation with
        | (writer, .ready (.ok 0)) => some ((reader, writer, c), .ready (.error copyWriteZero))
        | (writer, .ready (.ok (count + 1))) =>
            copyLoop R W fuel reader writer (c.wrote (count + 1))
        | (writer, .ready (.error error)) => some ((reader, writer, c), .ready (.error error))
        | (writer, .pending) => some ((reader, writer, c), .pending)
      else
        match R.pollRead reader copyBufSize with
        | (reader, .ready (.ok bytes)) =>
            if bytes = [] then some ((reader, writer, c.read bytes), .ready (.ok ()))
            else copyLoop R W fuel reader writer (c.read bytes)
        | (reader, .ready (.error error)) => some ((reader, writer, c), .ready (.error error))
        | (reader, .pending) => some ((reader, writer, c), .pending)

/-! ## One direction -/

inductive CopyState
  | copying
  | flushing
  deriving DecidableEq

structure Copy (ρ ω : Type) where
  reader : ρ
  writer : ω
  buffer : CopyBuf
  state : CopyState := .copying

namespace Copy

/-- The state `Flushing`. -/
def flush (W : AsyncWrite ω) (c : Copy ρ ω) : Copy ρ ω × Poll (Except IoError Nat) :=
  match W.pollFlush c.writer with
  | (writer, .ready (.ok ())) =>
      ({ c with writer }, .ready (.ok c.buffer.copied))
  | (writer, .ready (.error error)) => ({ c with writer }, .ready (.error error))
  | (writer, .pending) => ({ c with writer }, .pending)

def poll (R : AsyncRead ρ) (W : AsyncWrite ω) (fuel : Nat) (c : Copy ρ ω) :
    Option (Copy ρ ω × Poll (Except IoError Nat)) :=
  match c.state with
  | .copying =>
      (copyLoop R W fuel c.reader c.writer c.buffer).map fun
        | ((reader, writer, buffer), .ready (.ok ())) =>
            flush W { reader, writer, buffer, state := .flushing }
        | ((reader, writer, buffer), .ready (.error error)) =>
            ({ c with reader, writer, buffer }, .ready (.error error))
        | ((reader, writer, buffer), .pending) => ({ c with reader, writer, buffer }, .pending)
  | .flushing => some (c.flush W)

end Copy

/-! ## Two directions -/

inductive CopyHalfState
  | copying
  | closing
  | done
  deriving DecidableEq

structure CopyHalf extends CopyBuf where
  state : CopyHalfState := .copying
  deriving DecidableEq

def CopyHalf.isDone (half : CopyHalf) : Bool := half.state = .done

/-- The state `Closing`. -/
def closeHalf (W : AsyncWrite ω) (reader : ρ) (writer : ω) (c : CopyBuf) :
    (ρ × ω × CopyHalf) × Poll (Except IoError Unit) :=
  match W.pollClose writer with
  | (writer, .ready (.ok ())) =>
      ((reader, writer, { c with state := .done }), .ready (.ok ()))
  | (writer, .ready (.error error)) =>
      ((reader, writer, { c with state := .closing }), .ready (.error error))
  | (writer, .pending) => ((reader, writer, { c with state := .closing }), .pending)

def pollCopyHalf (R : AsyncRead ρ) (W : AsyncWrite ω) (fuel : Nat) (reader : ρ) (writer : ω)
    (half : CopyHalf) : Option ((ρ × ω × CopyHalf) × Poll (Except IoError Unit)) :=
  match half.state with
  | .copying =>
      (copyLoop R W fuel reader writer half.toCopyBuf).map fun
        | ((reader, writer, c), .ready (.ok ())) => closeHalf W reader writer c
        | ((reader, writer, c), .ready (.error error)) =>
            ((reader, writer, { c with state := .copying }), .ready (.error error))
        | ((reader, writer, c), .pending) =>
            ((reader, writer, { c with state := .copying }), .pending)
  | .closing => some (closeHalf W reader writer half.toCopyBuf)
  | .done => some ((reader, writer, half), .ready (.ok ()))

structure CopyBidirectional (α β : Type) where
  a : α
  b : β
  aToB : CopyHalf
  bToA : CopyHalf

namespace CopyBidirectional

variable {α β : Type} (A : AsyncReadWrite α) (B : AsyncReadWrite β) (fuel : Nat)
  (c : CopyBidirectional α β)

/-- The first `if` of `CopyBidirectional::poll`. -/
def pollAToB : Option (CopyBidirectional α β × Poll (Except IoError Unit)) :=
  if c.aToB.isDone then some (c, .ready (.ok ()))
  else
    (pollCopyHalf A.toAsyncRead B.toAsyncWrite fuel c.a c.b c.aToB).map fun
      ((a, b, aToB), poll) => ({ c with a, b, aToB }, poll)

/-- The second `if` of `CopyBidirectional::poll`. -/
def pollBToA : Option (CopyBidirectional α β × Poll (Except IoError Unit)) :=
  if c.bToA.isDone then some (c, .ready (.ok ()))
  else
    (pollCopyHalf B.toAsyncRead A.toAsyncWrite fuel c.b c.a c.bToA).map fun
      ((b, a, bToA), poll) => ({ c with a, b, bToA }, poll)

/-- The last `if` of `CopyBidirectional::poll`. -/
def finish : CopyBidirectional α β × Poll (Except IoError (Nat × Nat)) :=
  if c.aToB.isDone && c.bToA.isDone then (c, .ready (.ok (c.aToB.copied, c.bToA.copied)))
  else (c, .pending)

/-- `CopyBidirectional::poll` after its first `if`. -/
def pollRest : Option (CopyBidirectional α β × Poll (Except IoError (Nat × Nat))) :=
  (c.pollBToA A B fuel).map fun
    | (c, .ready (.error error)) => (c, .ready (.error error))
    | (c, .ready (.ok ())) => c.finish
    | (c, .pending) => c.finish

def poll : Option (CopyBidirectional α β × Poll (Except IoError (Nat × Nat))) :=
  (c.pollAToB A B fuel).bind fun
    | (c, .ready (.error error)) => some (c, .ready (.error error))
    | (c, .ready (.ok ())) => c.pollRest A B fuel
    | (c, .pending) => c.pollRest A B fuel

end CopyBidirectional

end Runite.Io
