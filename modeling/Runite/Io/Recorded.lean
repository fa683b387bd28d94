import Runite.Io.Traits

/-!
# Recorded streams

A reader or a writer with the calls that have reached it and what it has answered.  It
behaves as the one that it records.
-/

namespace Runite.Io

variable {ρ ω : Type}

/-- A call of a writer, with its answer. -/
inductive WriteCall
  | write (buf : List UInt8) (answer : Poll (Except IoError Nat))
  | flush (answer : Poll (Except IoError Unit))
  | close (answer : Poll (Except IoError Unit))
  deriving DecidableEq

structure StreamCalls where
  reads : List (Poll (Except IoError (List UInt8))) := []
  writes : List WriteCall := []
  deriving DecidableEq

namespace StreamCalls

variable (calls : StreamCalls)

def noteRead (answer : Poll (Except IoError (List UInt8))) : StreamCalls :=
  { calls with reads := calls.reads ++ [answer] }

def noteWrite (call : WriteCall) : StreamCalls := { calls with writes := calls.writes ++ [call] }

end StreamCalls

/-- A stream with the calls that have reached it. -/
abbrev Recorded (σ : Type) := σ × StreamCalls

def AsyncRead.recorded (R : AsyncRead ρ) : AsyncRead (Recorded ρ) where
  pollRead r len :=
    (((R.pollRead r.1 len).1, r.2.noteRead (R.pollRead r.1 len).2), (R.pollRead r.1 len).2)
  obtained r := R.obtained r.1
  length_le r len := R.length_le r.1 len
  obtained_pollRead r len := R.obtained_pollRead r.1 len

def RetainingWrite.recorded (W : RetainingWrite ω) : RetainingWrite (Recorded ω) where
  pollWriteOperation w buf g :=
    (((W.pollWriteOperation w.1 buf g).1,
        w.2.noteWrite (.write buf (W.pollWriteOperation w.1 buf g).2)),
      (W.pollWriteOperation w.1 buf g).2)
  pollFlush w :=
    (((W.pollFlush w.1).1, w.2.noteWrite (.flush (W.pollFlush w.1).2)), (W.pollFlush w.1).2)
  pollClose w :=
    (((W.pollClose w.1).1, w.2.noteWrite (.close (W.pollClose w.1).2)), (W.pollClose w.1).2)
  accepted w := W.accepted w.1
  offered w := W.offered w.1
  accepts w buf g := W.accepts w.1 buf g
  offered_pollWrite w buf g := W.offered_pollWrite w.1 buf g
  pollFlush_eq w := W.pollFlush_eq w.1
  pollClose_eq w := W.pollClose_eq w.1

def readBytes (calls : StreamCalls) : List UInt8 := calls.reads.flatMap received

/-- No read has come to the end of the input. -/
def Open (calls : StreamCalls) : Prop := .ready (.ok []) ∉ calls.reads

/-- The last read has come to the end of the input, and no other one. -/
def AtEnd (calls : StreamCalls) : Prop :=
  ∃ reads, calls.reads = reads ++ [.ready (.ok [])] ∧ .ready (.ok []) ∉ reads

variable {calls : StreamCalls}

theorem readBytes_noteRead (calls : StreamCalls) (answer : Poll (Except IoError (List UInt8))) :
    readBytes (calls.noteRead answer) = readBytes calls ++ received answer := by
  rw [readBytes, StreamCalls.noteRead, List.flatMap_append, List.flatMap_singleton]
  rfl

theorem Open.noteRead (h : Open calls) {answer : Poll (Except IoError (List UInt8))}
    (hanswer : answer ≠ .ready (.ok [])) : Open (calls.noteRead answer) := by
  intro hmem
  rcases List.mem_append.mp hmem with hmem | hmem
  · exact h hmem
  · exact hanswer (List.mem_singleton.mp hmem).symm

theorem Open.atEnd (h : Open calls) : AtEnd (calls.noteRead (.ready (.ok []))) :=
  ⟨calls.reads, rfl, h⟩

end Runite.Io
