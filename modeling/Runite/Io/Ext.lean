import Runite.Io.Lines

/-!
# Reading and writing whole buffers

The futures `ReadExact`, `ReadToEnd`, `ReadToString` and `WriteAll` of `io::ext`, poll by poll,
over any reader and any writer.  A future keeps what it has moved across a pending poll.
-/

namespace Runite.Io

variable {ρ ω : Type}

/-- The error of a reader that ends before the buffer is full. -/
def fillError : IoError := { kind := .unexpectedEof, message := "failed to fill whole buffer" }

/-- The error of a writer that takes nothing. -/
def writeAllError : IoError := { kind := .writeZero, message := "failed to write whole buffer" }

/-- What a reader does to the window `&mut buf[filled..]` that it is given. -/
def fillAt (buf : List UInt8) (filled : Nat) (bytes : List UInt8) : List UInt8 :=
  buf.take filled ++ bytes ++ buf.drop (filled + bytes.length)

structure ReadExact (ρ : Type) where
  reader : ρ
  buf : List UInt8
  filled : Nat := 0
  deriving DecidableEq

/-- The loop of `ReadExact::poll`.  Every turn fills a byte or more, so that `fuel` is what is
missing. -/
def ReadExact.loop (R : AsyncRead ρ) : Nat → ReadExact ρ → ReadExact ρ × Poll (Except IoError Unit)
  | 0, f => (f, .ready (.ok ()))
  | fuel + 1, f =>
      if f.filled < f.buf.length then
        match R.pollRead f.reader (f.buf.length - f.filled) with
        | (reader, .ready (.ok bytes)) =>
            if bytes = [] then ({ f with reader }, .ready (.error fillError))
            else
              loop R fuel
                { reader, buf := fillAt f.buf f.filled bytes, filled := f.filled + bytes.length }
        | (reader, .ready (.error error)) => ({ f with reader }, .ready (.error error))
        | (reader, .pending) => ({ f with reader }, .pending)
      else (f, .ready (.ok ()))

def ReadExact.poll (R : AsyncRead ρ) (f : ReadExact ρ) : ReadExact ρ × Poll (Except IoError Unit) :=
  f.loop R (f.buf.length - f.filled)

/-- The loop that `ReadToEnd::poll` and `ReadToString::poll` have: `Ok(())` at the end of the
input.  `none` when `fuel` runs out; the loop itself has no bound. -/
def drainReader (R : AsyncRead ρ) : Nat → ρ → List UInt8 →
    Option ((ρ × List UInt8) × Poll (Except IoError Unit))
  | 0, _, _ => none
  | fuel + 1, reader, bytes =>
      match R.pollRead reader readToEndChunk with
      | (reader, .ready (.ok read)) =>
          if read = [] then some ((reader, bytes), .ready (.ok ()))
          else drainReader R fuel reader (bytes ++ read)
      | (reader, .ready (.error error)) => some ((reader, bytes), .ready (.error error))
      | (reader, .pending) => some ((reader, bytes), .pending)

structure ReadToEnd (ρ : Type) where
  reader : ρ
  buf : List UInt8
  startLen : Nat := 0
  initialized : Bool := false
  deriving DecidableEq

def ReadToEnd.poll (R : AsyncRead ρ) (fuel : Nat) (f : ReadToEnd ρ) :
    Option (ReadToEnd ρ × Poll (Except IoError Nat)) :=
  let f := if f.initialized then f else { f with startLen := f.buf.length, initialized := true }
  (drainReader R fuel f.reader f.buf).map fun
    | ((reader, buf), .ready (.ok ())) =>
        ({ f with reader, buf }, .ready (.ok (buf.length - f.startLen)))
    | ((reader, buf), .ready (.error error)) => ({ f with reader, buf }, .ready (.error error))
    | ((reader, buf), .pending) => ({ f with reader, buf }, .pending)

structure ReadToString (ρ : Type) where
  reader : ρ
  buf : String
  bytes : List UInt8 := []
  initialized : Bool := false
  deriving DecidableEq

/-- `ReadToString::poll`: the bytes are decoded at the end of the input. -/
def ReadToString.poll (R : AsyncRead ρ) (fuel : Nat) (f : ReadToString ρ) :
    Option (ReadToString ρ × Poll (Except LineError Nat)) :=
  let f := if f.initialized then f else { f with bytes := [], initialized := true }
  (drainReader R fuel f.reader f.bytes).map fun
    | ((reader, bytes), .ready (.ok ())) =>
        match stringFromLine bytes with
        | .ok text =>
            ({ f with reader, bytes := [], buf := f.buf ++ text }, .ready (.ok bytes.length))
        | .error error => ({ f with reader, bytes := [] }, .ready (.error error))
    | ((reader, bytes), .ready (.error error)) =>
        ({ f with reader, bytes }, .ready (.error (.io error)))
    | ((reader, bytes), .pending) => ({ f with reader, bytes }, .pending)

structure WriteAll (ω : Type) where
  writer : ω
  buf : List UInt8
  written : Nat := 0
  generation : Generation
  deriving DecidableEq

/-- The loop of `WriteAll::poll`.  Every turn writes a byte or more, so that `fuel` is what is
left. -/
def WriteAll.loop (W : AsyncWrite ω) : Nat → WriteAll ω → WriteAll ω × Poll (Except IoError Unit)
  | 0, f => (f, .ready (.ok ()))
  | fuel + 1, f =>
      if f.written < f.buf.length then
        match W.pollWriteOperation f.writer (f.buf.drop f.written) f.generation with
        | (writer, .ready (.ok 0)) => ({ f with writer }, .ready (.error writeAllError))
        | (writer, .ready (.ok (count + 1))) =>
            loop W fuel { f with writer, written := f.written + (count + 1) }
        | (writer, .ready (.error error)) => ({ f with writer }, .ready (.error error))
        | (writer, .pending) => ({ f with writer }, .pending)
      else (f, .ready (.ok ()))

def WriteAll.poll (W : AsyncWrite ω) (f : WriteAll ω) : WriteAll ω × Poll (Except IoError Unit) :=
  f.loop W (f.buf.length - f.written)

end Runite.Io
