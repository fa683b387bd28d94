import Runite.Tls.Stream

/-!
# What every call of a TLS stream keeps

A property is `Stable` when the few things that a stream does one by one keep it: a
turn of `poll_send`, a refill, a `read_tls`, a change of the connection alone.  Every
call but the hand-over of plaintext is made of these, so it keeps such a property, and
also when it is cut short.
-/

namespace Runite.Tls.TlsStream

open Runite.Io Program

variable {R : Rustls} {T : Transport} {α β γ : Type} {I : TlsStream R T → Prop}
  {fuel : Nat} {waker : Waker}

/-! ## The rule of `ready!(..)?` -/

/-- The function returns early, or it goes on with what the first call has ensured. -/
theorem ready_triple {m : Program (TlsStream R T) (Poll (Except IoError α))}
    {early : Poll (Except IoError β) → γ} {next : α → Program (TlsStream R T) γ}
    {P : TlsStream R T → Prop} {Q : Option (Poll (Except IoError α)) → TlsStream R T → Prop}
    {U : Option γ → TlsStream R T → Prop} (hm : Triple P m Q)
    (hnext : ∀ a, Triple (Q (some (.ready (.ok a)))) (next a) U)
    (hpending : ∀ s, Q (some .pending) s → U (some (early .pending)) s)
    (herror : ∀ error s, Q (some (.ready (.error error))) s →
      U (some (early (.ready (.error error)))) s)
    (hcut : ∀ s, Q none s → U none s) : Triple P (ready m early next) U := by
  refine Triple.bind hm ?_ hcut
  intro answer
  rcases answer with (error | a) | _
  · exact herror error
  · exact hnext a
  · exact hpending

theorem ready_preserves {m : Program (TlsStream R T) (Poll (Except IoError α))}
    {early : Poll (Except IoError β) → γ} {next : α → Program (TlsStream R T) γ}
    (hm : Preserves I m) (hnext : ∀ a, Preserves I (next a)) :
    Preserves I (ready m early next) :=
  ready_triple hm hnext (fun _ hs => hs) (fun _ _ hs => hs) fun _ hs => hs

/-! ## Stable properties -/

/-- The parts that the calls are made of keep `I`. -/
structure Stable (I : TlsStream R T → Prop) : Prop where
  send : ∀ fuel waker, Preserves I (sendTurn fuel waker)
  conn : ∀ s conn, I s → I { s with conn }
  reset : ∀ s, s.incomingStart = s.incomingEnd → I s → I s.resetIncoming
  refill : ∀ waker s, s.incomingStart = s.incomingEnd → I s → I (pollRefill waker s).1
  readBuffered : Preserves I readBuffered
  notify : ∀ s conn, I s → I { s with conn, closeNotifySent := true }
  flush : ∀ waker s, s.staged = 0 → I s → I (transportFlush waker s).1
  close : ∀ waker s, s.staged = 0 → I s → I (transportClose waker s).1
  occur : ∀ s event io, T.occur s.io event = some io → I s → I (s.withIo io)

namespace Stable

variable (h : Stable I)

include h

theorem pollSend (fuel : Nat) (waker : Waker) : Preserves I (pollSend fuel waker) :=
  (h.send fuel waker).loop fuel

theorem ingestTurn (fuel : Nat) (waker : Waker) : Preserves I (ingestTurn fuel waker) := by
  apply Triple.inspected
  intro s hs
  split
  next hempty =>
    -- a refill is only made when nothing is buffered
    refine Triple.updated (P := fun s => I s ∧ s.incomingStart = s.incomingEnd) ?_ ?_
    · split
      · have hread : Triple (fun s => I s ∧ s.incomingStart = s.incomingEnd) readEmpty
            fun _ => I := fun s hs => h.conn s _ hs.1
        refine Triple.bind hread ?_ fun _ hs => hs
        intro result
        cases result <;> exact Preserves.return _
      · have hrefill : Triple (fun s => I s ∧ s.incomingStart = s.incomingEnd)
            (pollRefill waker) fun _ => I := fun s hs => h.refill waker s hs.2 hs.1
        exact ready_triple hrefill (fun _ => Preserves.return _) (fun _ hs => hs)
          (fun _ _ hs => hs) fun _ hs => hs
    · rintro s rfl
      exact ⟨h.reset s hempty hs, rfl⟩
  next =>
    have hread : Triple (· = s) TlsStream.readBuffered fun _ => I := by
      rintro s rfl
      exact h.readBuffered s hs
    refine Triple.bind hread ?_ fun _ hs => hs
    intro result
    rcases result with error | taken
    · exact Preserves.return _
    · change Preserves I (if taken = 0 then _ else _)
      split
      · exact .return _
      · have hprocess : Preserves I processNewPackets := fun s hs => h.conn s _ hs
        apply Preserves.bind hprocess
        intro result
        rcases result with message | _
        · apply Preserves.bind (h.pollSend fuel waker)
          exact fun _ => .return _
        · exact .return _

theorem pollIngest (fuel : Nat) (waker : Waker) : Preserves I (pollIngest fuel waker) :=
  (h.ingestTurn fuel waker).loop fuel

theorem handshakeTurn (fuel : Nat) (waker : Waker) :
    Preserves I (handshakeTurn fuel waker) := by
  apply Preserves.inspected
  intro s
  split
  · exact .return _
  · apply ready_preserves (h.pollSend fuel waker)
    intro _
    apply Preserves.inspected
    intro s
    split
    · exact .return _
    · split
      · exact .return _
      · apply ready_preserves (h.pollIngest fuel waker)
        intro more
        split <;> exact .return _

theorem pollHandshake (fuel : Nat) (waker : Waker) :
    Preserves I (pollHandshake fuel waker) := by
  apply Preserves.bind ((h.handshakeTurn fuel waker).loop fuel)
  intro result
  cases result with
  | some early => exact .return _
  | none => exact h.pollSend fuel waker

theorem afterHandshake_triple {next : Program (TlsStream R T) (Poll (Except IoError α))}
    {U : Option (Poll (Except IoError α)) → TlsStream R T → Prop} (hnext : Triple I next U)
    (hpending : ∀ s, I s → U (some .pending) s)
    (herror : ∀ error s, I s → U (some (.ready (.error error))) s) (hcut : ∀ s, I s → U none s) :
    Triple I (TlsStream.afterHandshake fuel waker next) U := by
  apply Triple.inspected
  intro s hs
  split
  · refine ready_triple (Q := fun _ => I) ?_ (fun _ => hnext) hpending herror hcut
    rintro _ rfl
    exact h.pollHandshake fuel waker _ hs
  · rintro _ rfl
    exact hnext _ hs

theorem afterHandshake {next : Program (TlsStream R T) (Poll (Except IoError α))}
    (hnext : Preserves I next) : Preserves I (TlsStream.afterHandshake fuel waker next) :=
  h.afterHandshake_triple hnext (fun _ hs => hs) (fun _ _ hs => hs) fun _ hs => hs

theorem fillTurn (fuel : Nat) (waker : Waker) : Preserves I (fillTurn fuel waker) := by
  have hfill : Preserves I fillBuf := fun s hs => h.conn s _ hs
  apply Preserves.bind hfill
  intro result
  rcases result with error | _
  · change Preserves I (if _ then _ else _)
    split
    · apply ready_preserves (h.pollIngest fuel waker)
      intro more
      split
      · apply Preserves.bind (h.pollSend fuel waker)
        exact fun _ => .return _
      · exact .return _
    · exact .return _
  · exact .return _

theorem pollRead (fuel : Nat) (waker : Waker) (capacity : Nat) :
    Preserves I (pollRead fuel waker capacity) := by
  unfold TlsStream.pollRead
  split
  · exact .return _
  · apply ready_preserves (h.afterHandshake ((h.fillTurn fuel waker).loop fuel))
    intro _
    have hread : Preserves I (readPlaintext capacity) := fun s hs => h.conn s _ hs
    exact Preserves.bind hread fun _ => .return _

end Stable

/-! ## `poll_flush` and `poll_close` -/

/-- A turn that ends `poll_send` well has found nothing to send. -/
theorem sendTurn_done (fuel : Nat) (waker : Waker) (I : TlsStream R T → Prop) :
    Triple I (sendTurn fuel waker) fun result s =>
      result = some (some (.ready (.ok ()))) → s.staged = 0 := by
  have hstage : Triple I (stageRecords fuel) fun _ _ => True := fun _ _ => trivial
  refine Triple.bind hstage ?_ (by simp)
  intro _
  apply Triple.inspected
  intro s _
  split
  next hempty =>
    rintro _ rfl _
    exact hempty
  next =>
    have hwrite : Triple (· = s) (transportWrite waker) fun _ _ => True := fun _ _ => trivial
    refine ready_triple hwrite ?_ (by simp) (by simp) (by simp)
    intro written
    split
    · exact fun _ _ heq => by cases heq
    · split
      · exact fun _ _ heq => by cases heq
      · exact fun _ _ heq => by cases heq

theorem pollSend_done (h : Stable I) (fuel : Nat) (waker : Waker) :
    Triple I (pollSend fuel waker) fun result s =>
      ∀ a, result = some (.ready (.ok a)) → s.staged = 0 := by
  refine Triple.loop (h.send fuel waker) ?_ (by simp) fuel
  refine (sendTurn_done fuel waker I).consequence (fun _ hs => hs) ?_
  intro result s hs answer heq a hanswer
  exact hs (by rw [heq, Option.some.inj hanswer])

/-- What follows a `poll_send` that has sent everything may rely on that. -/
theorem Stable.afterSend (h : Stable I) {early : Poll (Except IoError α) → γ}
    {next : Unit → Program (TlsStream R T) γ}
    (hnext : ∀ s, s.staged = 0 → I s → I (next () s).1) :
    Preserves I (ready (TlsStream.pollSend fuel waker) early next) := by
  have hsend : Triple I (TlsStream.pollSend fuel waker) fun result s =>
      I s ∧ ∀ a, result = some (.ready (.ok a)) → s.staged = 0 :=
    fun s hs => ⟨h.pollSend fuel waker s hs, pollSend_done h fuel waker s hs⟩
  exact ready_triple hsend (fun a s hs => hnext s (hs.2 a rfl) hs.1) (fun _ hs => hs.1)
    (fun _ _ hs => hs.1) fun _ hs => hs.1

theorem Stable.pollFlush (h : Stable I) (fuel : Nat) (waker : Waker) :
    Preserves I (pollFlush fuel waker) :=
  h.afterSend (h.flush waker)

theorem Stable.pollClose (h : Stable I) (fuel : Nat) (waker : Waker) :
    Preserves I (pollClose fuel waker) := by
  have hnotify : Preserves I (update closeNotify) := by
    apply Preserves.update
    intro s hs
    unfold closeNotify
    split
    · exact hs
    · exact h.notify s _ hs
  apply Preserves.bind hnotify
  intro _
  exact h.afterSend (h.close waker)

/-! ## `poll_write` -/

theorem Stable.pollWriteVectored (h : Stable I) {bufs : List (List UInt8)}
    (hhand : Preserves I (handPlaintext bufs)) (fuel : Nat) (waker : Waker) :
    Preserves I (pollWriteVectored fuel waker bufs) := by
  have hsend : Preserves I (sendPlaintext fuel waker bufs) := by
    apply ready_preserves (h.pollSend fuel waker)
    intro _
    apply Preserves.bind hhand
    intro result
    rcases result with error | accepted
    · exact .return _
    · change Preserves I (if accepted = 0 then _ else _)
      split
      · exact .return _
      · apply Preserves.bind (h.pollSend fuel waker)
        exact fun _ => .return _
  unfold TlsStream.pollWriteVectored
  split
  · exact .return _
  · apply Preserves.inspected
    intro s
    split
    · exact .return _
    · exact h.afterHandshake hsend

end Runite.Tls.TlsStream
