import Mathlib.Algebra.Group.Nat.Defs
import Runite.Io.Cursor

/-!
# Files

`fs::File`: the handles of one open file, which share a `CursorState`.  A raw
`poll_write` of a handle gets a tracked generation from a token that the handle
keeps in `direct_write` until the write is answered; write futures bring tokens
of their own.
-/

namespace Runite.Fs

open Io

/-- `i64::MAX + 1`. -/
def seekLimit : Nat := 2 ^ 63

/-- The error of a rewind beyond the range of a seek. -/
def seekRangeError : IoError :=
  { kind := .invalidInput, message := "retained read overflow exceeds seek range" }

/-- `rewind_file_cursor`; `seek` is what the seek of the file answers. -/
def rewindFileCursor (seek : Except IoError Unit) (bytes : Nat) : Except IoError Unit :=
  if bytes = 0 then .ok ()
  else if bytes < seekLimit then seek
  else .error seekRangeError

/-- `File`, without the state and the descriptor that its clones share. -/
structure File where
  directWrite : Option Generation := none
  deriving DecidableEq

/-- The handles of a file, their `CursorState`, and the generations of the
write futures. -/
structure Files where
  cursor : CursorState := {}
  handles : Nat → Option File := Function.update (fun _ => none) 0 (some {})
  operations : List Generation := []

namespace Files

variable (f : Files)

/-- Drop a `WriteOperation`, if there is one. -/
def dropOperation (generation : Option Generation) : Files :=
  match generation.bind f.cursor.write.dropToken with
  | some write => { f with cursor := { f.cursor with write := write } }
  | none => f

def setHandle (file : Nat) (handle : Option File) : Files :=
  { f with handles := Function.update f.handles file handle }

/-- `direct_write.get_or_insert_with(WriteOperation::new)`; `fresh` is the
generation that a new token would get. -/
def directGeneration (handle : File) (fresh : Generation) : Option (Files × Generation) :=
  match handle.directWrite with
  | some generation => some (f, generation)
  | none =>
      (f.cursor.write.newToken fresh).map fun write =>
        ({ f with cursor := { f.cursor with write := write } }, fresh)

def pollWriteOperation (waker : Waker) (generation : Generation) (buf : Buf)
    (seek : Except IoError Unit) (start : Option (Except IoError Nat)) :
    Option (Files × Poll (Reply Nat)) :=
  if buf.bytes = [] then some (f, .ready ⟨.ok 0, none⟩)
  else
    (f.cursor.pollWrite waker generation buf (rewindFileCursor seek) start).map
      fun (cursor, poll) => ({ f with cursor := cursor }, poll)

/-- `poll_write` of a handle. -/
def pollWrite (file : Nat) (waker : Waker) (fresh : Generation) (buf : Buf)
    (seek : Except IoError Unit) (start : Option (Except IoError Nat)) :
    Option (Files × Poll (Reply Nat)) := do
  let handle ← f.handles file
  let (f, generation) ← f.directGeneration handle fresh
  let (f, poll) ← f.pollWriteOperation waker generation buf seek start
  match poll with
  | .ready reply =>
      some ((f.setHandle file (some { directWrite := none })).dropOperation generation,
        .ready reply)
  | .pending => some (f.setHandle file (some { directWrite := generation }), .pending)

def pollRead (waker : Waker) (capacity : Nat) (start : Option (Except IoError (List UInt8))) :
    Option (Files × Poll (Except IoError (List UInt8))) :=
  if capacity = 0 then some (f, .ready (.ok []))
  else
    (f.cursor.pollReadSlice waker capacity start).map fun (cursor, poll) =>
      ({ f with cursor := cursor }, poll)

/-- `poll_flush`, and `poll_close`, which is the same. -/
def pollFlush (waker : Waker) : Option (Files × Poll (Reply Unit)) :=
  (f.cursor.pollFlush waker).map fun (cursor, poll) => ({ f with cursor := cursor }, poll)

/-- `poll_seek`; `position` is what the final seek of the file answers. -/
def pollSeek (waker : Waker) (seek : Except IoError Unit) (position : Except IoError Nat) :
    Option (Files × Poll (Except IoError Nat)) :=
  (f.cursor.pollReconcile waker (rewindFileCursor seek)).map fun (cursor, poll) =>
    ({ f with cursor := cursor },
      poll.map fun
        | .ok () => position
        | .error error => .error error)

/-! ## Runs -/

/-- A call on a handle, or an event of its environment. -/
inductive Action
  | pollWrite (file : Nat) (waker : Waker) (fresh : Generation) (buf : Buf)
      (seek : Except IoError Unit) (start : Option (Except IoError Nat))
  | pollWriteOperation (file : Nat) (waker : Waker) (generation : Generation) (buf : Buf)
      (seek : Except IoError Unit) (start : Option (Except IoError Nat))
  | newOperation (generation : Generation)
  | dropOperation (generation : Generation)
  | pollRead (file : Nat) (waker : Waker) (capacity : Nat)
      (start : Option (Except IoError (List UInt8)))
  | pollFlush (file : Nat) (waker : Waker)
  | pollSeek (file : Nat) (waker : Waker) (seek : Except IoError Unit)
      (position : Except IoError Nat)
  | tryClone (file clone : Nat)
  | drop (file : Nat)
  | completeRead (result : Except IoError (List UInt8))
  | completeWrite (result : Except IoError Nat)

/-- The handles are used one call at a time. -/
def step : Action → Option Files
  | .pollWrite file waker fresh buf seek start =>
      (f.pollWrite file waker fresh buf seek start).map Prod.fst
  | .pollWriteOperation file waker generation buf seek start =>
      if (f.handles file).isSome ∧ generation ∈ f.operations then
        (f.pollWriteOperation waker generation buf seek start).map Prod.fst
      else none
  | .newOperation generation =>
      (f.cursor.write.newToken generation).map fun write =>
        { f with
          cursor := { f.cursor with write := write }
          operations := f.operations ++ [generation] }
  | .dropOperation generation =>
      if generation ∈ f.operations then
        some ({ f with operations := f.operations.erase generation }.dropOperation generation)
      else none
  | .pollRead file waker capacity start =>
      if (f.handles file).isSome then (f.pollRead waker capacity start).map Prod.fst else none
  | .pollFlush file waker =>
      if (f.handles file).isSome then (f.pollFlush waker).map Prod.fst else none
  | .pollSeek file waker seek position =>
      if (f.handles file).isSome then (f.pollSeek waker seek position).map Prod.fst else none
  | .tryClone file clone =>
      if (f.handles file).isSome ∧ f.handles clone = none then some (f.setHandle clone (some {}))
      else none
  | .drop file =>
      (f.handles file).map fun handle =>
        (f.setHandle file none).dropOperation handle.directWrite
  | .completeRead result =>
      (f.cursor.read.complete result).map fun read =>
        { f with cursor := { f.cursor with read := read } }
  | .completeWrite result =>
      (f.cursor.write.complete result).map fun write =>
        { f with cursor := { f.cursor with write := write } }

end Files

end Runite.Fs
