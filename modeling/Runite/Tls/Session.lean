import Runite.Tls.Stable
import Runite.Lib.Transition

/-!
# Sequences of calls on a TLS stream

The calls come in any order: a caller abandons a call that waits by making another one.
Whatever happens to the transport between them is an `occur`.  A call that was cut short
has not returned, so nothing follows it.
-/

namespace Runite.Tls

open Runite.Io Program Transition

/-- A stream, and whether the last call on it was cut short. -/
structure Session (R : Rustls) (T : Transport) where
  stream : TlsStream R T
  cut : Bool := false

namespace Session

variable {R : Rustls} {T : Transport} {α : Type}

inductive Action (T : Transport)
  | pollHandshake (fuel : Nat) (waker : Waker)
  | pollRead (fuel : Nat) (waker : Waker) (capacity : Nat)
  | pollWrite (fuel : Nat) (waker : Waker) (buf : List UInt8)
  | pollWriteVectored (fuel : Nat) (waker : Waker) (bufs : List (List UInt8))
  | pollFlush (fuel : Nat) (waker : Waker)
  | pollClose (fuel : Nat) (waker : Waker)
  | occur (event : T.Event)

def new (io : T.Io) (conn : R.Connection) (place : Nat → Nat) : Session R T where
  stream := { io, conn, place }

def call (s : Session R T) (m : Program (TlsStream R T) α) : Session R T where
  stream := (m s.stream).1
  cut := (m s.stream).2.isNone

/-- One action; `none` when it is not possible. -/
def step (s : Session R T) (a : Action T) : Option (Session R T) :=
  if s.cut then none
  else
    match a with
    | .pollHandshake fuel waker => some (s.call (TlsStream.pollHandshake fuel waker))
    | .pollRead fuel waker capacity => some (s.call (TlsStream.pollRead fuel waker capacity))
    | .pollWrite fuel waker buf => some (s.call (TlsStream.pollWrite fuel waker buf))
    | .pollWriteVectored fuel waker bufs => some (s.call (TlsStream.pollWriteVectored fuel waker bufs))
    | .pollFlush fuel waker => some (s.call (TlsStream.pollFlush fuel waker))
    | .pollClose fuel waker => some (s.call (TlsStream.pollClose fuel waker))
    | .occur event =>
        (T.occur s.stream.io event).map fun io => { s with stream := s.stream.withIo io }

variable {I : TlsStream R T → Prop} {s₀ s s' : Session R T} {a : Action T}
  {ok : Session R T → Action T → Prop}

/-- A stable property that a hand-over of plaintext keeps is kept by every action. -/
theorem step_keeps (h : TlsStream.Stable I)
    (hhand : ∀ bufs, Preserves I (TlsStream.handPlaintext bufs)) (hs : I s.stream)
    (hstep : s.step a = some s') : I s'.stream := by
  unfold step at hstep
  split at hstep
  · cases hstep
  cases a with
  | pollHandshake fuel waker =>
      cases hstep
      exact h.pollHandshake fuel waker s.stream hs
  | pollRead fuel waker capacity =>
      cases hstep
      exact h.pollRead fuel waker capacity s.stream hs
  | pollWrite fuel waker buf =>
      cases hstep
      exact h.pollWriteVectored (hhand [buf]) fuel waker s.stream hs
  | pollWriteVectored fuel waker bufs =>
      cases hstep
      exact h.pollWriteVectored (hhand bufs) fuel waker s.stream hs
  | pollFlush fuel waker =>
      cases hstep
      exact h.pollFlush fuel waker s.stream hs
  | pollClose fuel waker =>
      cases hstep
      exact h.pollClose fuel waker s.stream hs
  | occur event =>
      obtain ⟨io, hio, rfl⟩ := Option.map_eq_some_iff.mp hstep
      exact h.occur s.stream event io hio hs

theorem keeps_of_reachable (h : TlsStream.Stable I)
    (hhand : ∀ bufs, Preserves I (TlsStream.handPlaintext bufs)) (hinit : I s₀.stream)
    (hreach : Reachable step ok s₀ s) : I s.stream :=
  hreach.invariant (fun s => I s.stream) hinit fun _ _ _ hs _ hstep =>
    step_keeps h hhand hs hstep

end Session

end Runite.Tls
