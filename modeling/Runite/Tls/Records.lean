import Runite.Tls.Session
import Mathlib.Data.List.Chain

/-!
# The record stream of a TLS session

`InStep` ties what the transport has accepted to the records that were taken out of
rustls, and what rustls has taken to what was read from the transport.  It holds at
every moment of every sequence of calls, for a transport that reports counts it has
accepted.
-/

namespace Runite.Tls

open Runite.Io Program Transition

/-- The transport is honest: it reports a count between one and the length of the slice. -/
def Honest (writes : List TransportWrite) : Prop :=
  ∀ w ∈ writes, w.honest

instance (writes : List TransportWrite) : Decidable (Honest writes) :=
  inferInstanceAs (Decidable (∀ w ∈ writes, _))

theorem Honest.left {writes more : List TransportWrite} (h : Honest (writes ++ more)) :
    Honest writes :=
  fun w hw => h w (List.mem_append_left _ hw)

/-- After an answer `Pending` the next poll has the same slice. -/
def Repeats (w w' : TransportWrite) : Prop :=
  w.answer = .pending → w'.slice = w.slice

namespace TlsStream

variable {R : Rustls} {T : Transport} {s : TlsStream R T} {fuel : Nat} {waker : Waker}

/-- The stream is in step with rustls and with the transport. -/
structure InStep (s : TlsStream R T) : Prop where
  sent : s.writes.flatMap TransportWrite.accepted ++ s.slice.bytes = s.records
  ingested : s.ingested ++ s.buffered = s.received
  repeats : s.writes.IsChain Repeats
  awaited : ∀ w ∈ s.writes.getLast?, w.answer = .pending →
    s.slice = w.slice ∧ s.outgoingStart < s.outgoing.length

/-- The stream is in step if its transport is honest. -/
def Kept (s : TlsStream R T) : Prop :=
  Honest s.writes → InStep s

/-- Neither the connection nor the transport itself has a part in it. -/
theorem Kept.apart (hs : Kept s) (io : T.Io) (conn : R.Connection) (closeNotifySent : Bool) :
    Kept { s with io, conn, closeNotifySent } :=
  fun hhonest =>
    have h := hs hhonest
    ⟨h.sent, h.ingested, h.repeats, h.awaited⟩

/-! ## Sending -/

/-- The staging buffer is being filled: nothing of it was sent, and no poll of the
transport is outstanding. -/
def Filling (s : TlsStream R T) : Prop :=
  Honest s.writes → InStep s ∧ s.outgoingStart = 0 ∧
    ∀ w ∈ s.writes.getLast?, w.answer ≠ .pending

theorem takeRecords_filling : Preserves Filling (takeRecords (R := R) (T := T)) := by
  intro s hs
  unfold takeRecords
  split
  · intro hhonest
    obtain ⟨hstep, hstart, hlast⟩ := hs hhonest
    refine ⟨⟨?_, hstep.ingested, hstep.repeats, ?_⟩, hstart, hlast⟩
    · have hsent := hstep.sent
      simp only [slice, hstart, List.drop_zero] at hsent ⊢
      rw [← List.append_assoc, hsent]
    · exact fun w hw hpending => absurd hpending (hlast w hw)
  · exact hs

theorem clearOutgoing_filling (hs : Kept s) (hend : ¬ s.outgoingStart < s.outgoing.length) :
    Filling s.clearOutgoing := by
  intro hhonest
  have hstep := hs hhonest
  have hlast : ∀ w ∈ s.writes.getLast?, w.answer ≠ .pending :=
    fun w hw hpending => hend (hstep.awaited w hw hpending).2
  refine ⟨⟨?_, hstep.ingested, hstep.repeats, ?_⟩, rfl, hlast⟩
  · have hsent := hstep.sent
    have hempty : s.slice.bytes = [] := List.drop_eq_nil_of_le (by omega)
    rw [hempty] at hsent
    exact hsent
  · exact fun w hw hpending => absurd hpending (hlast w hw)

theorem stageRecords_kept : Preserves Kept (stageRecords (R := R) (T := T) fuel) := by
  apply Triple.inspected
  intro s hs
  split
  · rintro _ rfl
    exact hs
  next hend =>
    refine Triple.updated (P := Filling) ?_ ?_
    · exact (takeRecords_filling.loop fuel).consequence (fun _ h => h)
        fun _ _ h hhonest => (h hhonest).1
    · rintro _ rfl
      exact clearOutgoing_filling hs hend

theorem InStep.isChain_wrote (h : InStep s) (io : T.Io) (answer : Poll (Except IoError Nat)) :
    (s.wrote io answer).writes.IsChain Repeats := by
  apply h.repeats.append (List.isChain_singleton _)
  intro w hw w' hw' hpending
  obtain rfl : { slice := s.slice, answer } = w' := by simpa using hw'
  exact (h.awaited w hw hpending).1

/-- An answer that accepts nothing leaves the stream as it was. -/
theorem InStep.refused (h : InStep s) (hstaged : s.staged ≠ 0) (io : T.Io)
    {answer : Poll (Except IoError Nat)} (hanswer : ∀ written, answer ≠ .ready (.ok written)) :
    InStep (s.wrote io answer) where
  sent := by
    have hnone : TransportWrite.accepted { slice := s.slice, answer } = [] := by
      rcases answer with (error | written) | _
      · rfl
      · exact absurd rfl (hanswer written)
      · rfl
    change (s.writes ++ [_]).flatMap _ ++ s.slice.bytes = s.records
    rw [List.flatMap_append, List.flatMap_singleton, hnone, List.append_nil, h.sent]
  ingested := h.ingested
  repeats := h.isChain_wrote io answer
  awaited := by
    intro w hw hpending
    obtain rfl : { slice := s.slice, answer } = w := by simpa [wrote] using hw
    have hlt : s.outgoingStart < s.outgoing.length := by
      unfold staged at hstaged
      omega
    exact ⟨rfl, hlt⟩

/-- What the transport has accepted leaves the staging buffer. -/
theorem InStep.accepted (h : InStep s) (io : T.Io) (written : Nat) :
    InStep (advance written (s.wrote io (.ready (.ok written)))) where
  sent := by
    have hsplit : s.slice.bytes.take written ++ s.outgoing.drop (s.outgoingStart + written) =
        s.slice.bytes := by
      rw [← List.drop_drop]
      exact List.take_append_drop written s.slice.bytes
    calc
      _ = s.writes.flatMap TransportWrite.accepted ++ (s.slice.bytes.take written ++
            s.outgoing.drop (s.outgoingStart + written)) := by
          simp [advance, wrote, slice, TransportWrite.accepted]
      _ = s.records := by rw [hsplit, h.sent]
  ingested := h.ingested
  repeats := h.isChain_wrote io _
  awaited := by
    intro w hw hpending
    obtain rfl : { slice := s.slice, answer := .ready (.ok written) } = w := by
      simpa [advance, wrote] using hw
    cases hpending

theorem transportWrite_wrote (waker : Waker) (s : TlsStream R T) :
    Triple (· = s) (transportWrite waker) fun result s' =>
      ∃ io answer, result = some answer ∧ s' = s.wrote io answer := by
  rintro _ rfl
  exact ⟨_, _, rfl, rfl⟩

theorem wrote_honest {io : T.Io} {written : Nat}
    (h : Honest (s.wrote io (.ready (.ok written))).writes) :
    1 ≤ written ∧ written ≤ s.staged := by
  have hlast : TransportWrite.honest { slice := s.slice, answer := .ready (.ok written) } :=
    h _ (by simp [wrote])
  simpa [TransportWrite.honest, slice, staged] using hlast

theorem sendTurn_kept : Preserves Kept (sendTurn (R := R) (T := T) fuel waker) := by
  apply Preserves.bind stageRecords_kept
  intro _
  apply Triple.inspected
  intro s hs
  split
  · rintro _ rfl
    exact hs
  next hstaged =>
    refine ready_triple (transportWrite_wrote waker s) ?_ ?_ ?_ (by simp)
    · intro written
      split
      next hzero =>
        rintro _ ⟨io, answer, hanswer, rfl⟩ hhonest
        cases hanswer
        have hcount := wrote_honest hhonest
        omega
      next hzero =>
        split
        next hmuch =>
          rintro _ ⟨io, answer, hanswer, rfl⟩ hhonest
          cases hanswer
          have hcount := wrote_honest hhonest
          omega
        next =>
          rintro _ ⟨io, answer, hanswer, rfl⟩ hhonest
          cases hanswer
          exact (hs hhonest.left).accepted io written
    · rintro _ ⟨io, answer, hanswer, rfl⟩ hhonest
      cases hanswer
      exact (hs hhonest.left).refused hstaged io (by simp)
    · rintro error _ ⟨io, answer, hanswer, rfl⟩ hhonest
      cases hanswer
      exact (hs hhonest.left).refused hstaged io (by simp)

/-! ## Receiving -/

theorem InStep.buffered_eq (h : InStep s) (hempty : s.incomingStart = s.incomingEnd) :
    s.ingested = s.received := by
  have hnil : s.buffered = [] := by
    unfold buffered
    rw [hempty]
    exact List.drop_eq_nil_of_le (List.length_take_le _ _)
  rw [← h.ingested, hnil, List.append_nil]

theorem InStep.filled (h : InStep s) (hempty : s.incomingStart = s.incomingEnd) (io : T.Io)
    (bytes : List UInt8) : InStep (TlsStream.filled bytes (s.withIo io)) where
  sent := h.sent
  ingested := by simp [TlsStream.filled, buffered, withIo, h.buffered_eq hempty]
  repeats := h.repeats
  awaited := h.awaited

theorem pollRefill_kept (hs : Kept s) (hempty : s.incomingStart = s.incomingEnd) :
    Kept (pollRefill waker s).1 := by
  have hread : Triple (· = s) (transportRead waker) fun _ s' => ∃ io, s' = s.withIo io := by
    rintro _ rfl
    exact ⟨_, rfl⟩
  have hrefill : Triple (· = s) (pollRefill waker) fun _ => Kept := by
    refine ready_triple hread ?_ ?_ ?_ ?_
    · rintro bytes _ ⟨io, rfl⟩ hhonest
      exact (hs hhonest).filled hempty io bytes
    · rintro _ ⟨io, rfl⟩
      exact hs.apart io _ _
    · rintro _ _ ⟨io, rfl⟩
      exact hs.apart io _ _
    · rintro _ ⟨io, rfl⟩
      exact hs.apart io _ _
  exact hrefill s rfl

theorem InStep.readBuffered (h : InStep s) : InStep (readBuffered s).1 := by
  unfold TlsStream.readBuffered
  split
  · exact ⟨h.sent, h.ingested, h.repeats, h.awaited⟩
  next conn taken _ =>
    refine ⟨h.sent, ?_, h.repeats, h.awaited⟩
    calc
      _ = s.ingested ++ (s.buffered.take taken ++ s.buffered.drop taken) := by
          simp [buffered, List.drop_drop]
      _ = s.received := by rw [List.take_append_drop, h.ingested]

/-! ## Every call -/

theorem stable_kept : Stable (Kept (R := R) (T := T)) where
  send _ _ := sendTurn_kept
  conn _ conn hs := hs.apart _ conn _
  reset s hempty hs hhonest :=
    have h := hs hhonest
    ⟨h.sent, by simpa [resetIncoming, buffered] using h.buffered_eq hempty, h.repeats, h.awaited⟩
  refill _ _ hempty hs := pollRefill_kept hs hempty
  readBuffered s hs hhonest := by
    have hwrites : (readBuffered s).1.writes = s.writes := by
      unfold TlsStream.readBuffered
      split <;> rfl
    exact (hs (hwrites ▸ hhonest)).readBuffered
  notify _ conn hs := hs.apart _ conn true
  flush _ _ _ hs := hs.apart _ _ _
  close _ _ _ hs := hs.apart _ _ _
  occur _ _ io _ hs := hs.apart io _ _

/-! ## Handing over plaintext -/

/-- What a call of `poll_write` has handed to rustls. -/
def Handed (before : List UInt8) (bufs : List (List UInt8)) (result : Poll (Except IoError Nat))
    (after : List UInt8) : Prop :=
  match result with
  | .pending => after = before
  | .ready (.error _) => after = before
  | .ready (.ok accepted) =>
      after = before ++ bufs.flatten.take accepted ∧ accepted ≤ bufs.flatten.length

theorem sendTurn_plaintext (before : List UInt8) :
    Preserves (fun s : TlsStream R T => s.plaintext = before) (sendTurn fuel waker) := by
  have htake : Preserves (fun s : TlsStream R T => s.plaintext = before) takeRecords := by
    intro s hs
    unfold takeRecords
    split <;> exact hs
  have hstage : Preserves (fun s : TlsStream R T => s.plaintext = before)
      (stageRecords fuel) := by
    apply Preserves.inspected
    intro s
    split
    · exact .return _
    · exact (htake.loop fuel).updated fun _ hs => hs
  apply Preserves.bind hstage
  intro _
  apply Preserves.inspected
  intro s
  split
  · exact .return _
  · refine ready_preserves (fun _ hs => hs) ?_
    intro written
    split
    · exact .return _
    · split
      · exact .return _
      · exact (Preserves.return none).updated fun _ hs => hs

theorem stable_plaintext (before : List UInt8) :
    Stable fun s : TlsStream R T => s.plaintext = before where
  send _ _ := sendTurn_plaintext before
  conn _ _ hs := hs
  reset _ _ hs := hs
  refill waker s _ hs := by
    have hread : Preserves (fun s : TlsStream R T => s.plaintext = before)
        (transportRead waker) := fun _ hs => hs
    exact ready_preserves hread (fun _ _ hs => hs) s hs
  readBuffered s hs := by
    unfold TlsStream.readBuffered
    split <;> exact hs
  notify _ _ hs := hs
  flush _ _ _ hs := hs
  close _ _ _ hs := hs
  occur _ _ _ _ hs := hs

theorem handPlaintext_handed (bufs : List (List UInt8)) (before : List UInt8) :
    Triple (fun s : TlsStream R T => s.plaintext = before) (handPlaintext bufs) fun result s =>
      ∀ answer, result = some answer → Handed before bufs (.ready answer) s.plaintext := by
  rintro s rfl answer hanswer
  unfold handPlaintext at hanswer ⊢
  have hle := R.writeVectored_le s.conn bufs
  rcases hwrite : R.writeVectored s.conn bufs with ⟨conn, error | accepted⟩
  · rw [hwrite] at hanswer
    cases hanswer
    rfl
  · rw [hwrite] at hanswer hle
    cases hanswer
    exact ⟨rfl, hle accepted rfl⟩

theorem sendPlaintext_handed (fuel : Nat) (waker : Waker) (bufs : List (List UInt8))
    (before : List UInt8) :
    Triple (fun s : TlsStream R T => s.plaintext = before) (sendPlaintext fuel waker bufs)
      fun result s => ∀ answer, result = some answer → Handed before bufs answer s.plaintext := by
  refine ready_triple ((stable_plaintext before).pollSend fuel waker) ?_ ?_ ?_ (by simp)
  · intro _
    refine Triple.bind (handPlaintext_handed bufs before) ?_ (by simp)
    rintro (error | accepted)
    · rintro s hs _ ⟨⟩
      exact hs _ rfl
    · change Triple _ (if accepted = 0 then _ else _) _
      split
      next hzero =>
        rintro s hs _ ⟨⟩
        have hnone := (hs _ rfl).1
        rwa [hzero, List.take_zero, List.append_nil] at hnone
      next =>
        intro s hs
        obtain ⟨htaken, hle⟩ := hs _ rfl
        -- the count is reported whatever comes of the second `poll_send`
        have hreport : Triple
            (fun s : TlsStream R T => s.plaintext = before ++ bufs.flatten.take accepted)
            (do let _ ← pollSend fuel waker; pure (.ready (.ok accepted)))
            fun result s => ∀ answer, result = some answer →
              Handed before bufs answer s.plaintext := by
          refine Triple.bind ((stable_plaintext _).pollSend fuel waker) ?_ (by simp)
          rintro _ s hs _ ⟨⟩
          exact ⟨hs, hle⟩
        exact hreport s htaken
  · rintro s hs _ ⟨⟩
    exact hs
  · rintro error s hs _ ⟨⟩
    exact hs

/-- A call that waits or fails has handed over nothing, and one that returns a count has
handed over that much. -/
theorem pollWriteVectored_handed (fuel : Nat) (waker : Waker) (bufs : List (List UInt8))
    (before : List UInt8) :
    Triple (fun s : TlsStream R T => s.plaintext = before) (pollWriteVectored fuel waker bufs)
      fun result s => ∀ answer, result = some answer → Handed before bufs answer s.plaintext := by
  unfold TlsStream.pollWriteVectored
  split
  · rintro s hs _ ⟨⟩
    exact ⟨by simp [pure, hs], Nat.zero_le _⟩
  · apply Triple.inspected
    intro s hs
    split
    · rintro _ rfl _ ⟨⟩
      exact hs
    · rintro _ rfl
      refine (stable_plaintext before).afterHandshake_triple
        (sendPlaintext_handed fuel waker bufs before) ?_ ?_ (by simp) _ hs
      · rintro s hs _ ⟨⟩
        exact hs
      · rintro error s hs _ ⟨⟩
        exact hs

theorem handPlaintext_kept (bufs : List (List UInt8)) :
    Preserves (Kept (R := R) (T := T)) (handPlaintext bufs) := by
  intro s hs
  unfold handPlaintext
  split
  · exact hs.apart _ _ _
  · exact fun hhonest => ⟨(hs hhonest).sent, (hs hhonest).ingested, (hs hhonest).repeats,
      (hs hhonest).awaited⟩

end TlsStream

/-! ## Every sequence of calls -/

open TlsStream in
/-- Whatever is called in whatever order, over an honest transport: what the transport has
accepted and what is staged are the records taken out of rustls; a poll that follows one
that waits has the same slice; what rustls has taken and what is buffered are the bytes
read from the transport; and `poll_write` has handed over what it reports. -/
theorem in_step_of_reachable {R : Rustls} {T : Transport} (io : T.Io) (conn : R.Connection)
    (place : Nat → Nat) (s : Session R T)
    (hreach : Reachable Session.step (fun _ _ => True) (.new io conn place) s)
    (hhonest : Honest s.stream.writes) :
    s.stream.writes.flatMap TransportWrite.accepted ++ s.stream.slice.bytes = s.stream.records ∧
      s.stream.writes.IsChain Repeats ∧
      s.stream.ingested ++ s.stream.buffered = s.stream.received ∧
      ∀ fuel waker bufs answer,
        (pollWriteVectored fuel waker bufs s.stream).2 = some answer →
        Handed s.stream.plaintext bufs answer
          (pollWriteVectored fuel waker bufs s.stream).1.plaintext := by
  have hkept : Kept s.stream := by
    refine Session.keeps_of_reachable stable_kept handPlaintext_kept ?_ hreach
    exact fun _ => ⟨rfl, rfl, List.isChain_nil, by simp [Session.new]⟩
  have h := hkept hhonest
  refine ⟨h.sent, h.repeats, h.ingested, ?_⟩
  intro fuel waker bufs answer hanswer
  exact pollWriteVectored_handed fuel waker bufs _ s.stream rfl answer hanswer

/-! ### A session that waits in the middle of a record -/

/-- An established connection: the records it has queued, each with the header of an
application data record. -/
def queueing : Rustls where
  Connection := List (List UInt8)
  isHandshaking _ := false
  wantsWrite queue := !queue.isEmpty
  writeTls queue := (queue.tail, queue.headD [])
  readTls queue source := (queue, .ok source.length)
  processNewPackets queue := (queue, .ok ())
  fillBuf queue := (queue, .error { kind := .wouldBlock, message := "no plaintext" })
  read queue _ := (queue, .ok [])
  writeVectored queue bufs :=
    (queue ++ [[23, 3, 3, 0, UInt8.ofNat bufs.flatten.length] ++ bufs.flatten],
      .ok bufs.flatten.length)
  sendCloseNotify queue := queue ++ [[21, 3, 3, 0, 2, 1, 0]]
  readTls_le := by
    rintro conn source taken ⟨⟩
    exact Nat.le_refl _
  writeVectored_le := by
    rintro conn bufs accepted ⟨⟩
    exact Nat.le_refl _

/-- A transport that takes three bytes at first, waits once, and then takes everything.
Its state is the number of polls. -/
def stuttering : Transport where
  Io := Nat
  Event := Empty
  occur _ event := event.elim
  pollRead polls _ _ := (polls, .pending)
  pollWrite polls _ slice :=
    match polls with
    | 0 => (1, .ready (.ok (min 3 slice.bytes.length)))
    | 1 => (2, .pending)
    | polls => (polls + 1, .ready (.ok slice.bytes.length))
  pollFlush polls _ := (polls, .ready (.ok ()))
  pollClose polls _ := (polls, .ready (.ok ()))

/-- Nothing is queued, and nothing was polled. -/
def quiet : Session queueing stuttering :=
  .new (show Nat from 0) (show List (List UInt8) from []) fun n => 4096 * n

theorem in_step_stuttering :
    ∃ s, Reachable Session.step (fun _ _ => True) quiet s ∧
        Honest s.stream.writes ∧
        s.stream.writes.map (fun w => w.slice.address) = [8192, 8195, 8195, 16384] ∧
        s.stream.records = [23, 3, 3, 0, 2, 7, 8, 21, 3, 3, 0, 2, 1, 0] ∧
        s.stream.writes.flatMap TransportWrite.accepted ++ s.stream.slice.bytes =
          s.stream.records := by
  obtain ⟨s, hreach, hp⟩ := Reachable.exists_of_run Session.step (fun _ _ => True) quiet
    [.pollWrite 9 1 [7, 8], .pollFlush 9 1, .pollClose 9 1]
    (fun s => decide (Honest s.stream.writes ∧
      s.stream.writes.map (fun w => w.slice.address) = [8192, 8195, 8195, 16384] ∧
      s.stream.records = [23, 3, 3, 0, 2, 7, 8, 21, 3, 3, 0, 2, 1, 0])) (by simp) (by decide)
  obtain ⟨hhonest, haddresses, hrecords⟩ := of_decide_eq_true hp
  exact ⟨s, hreach, hhonest, haddresses, hrecords,
    (in_step_of_reachable _ _ _ s hreach hhonest).1⟩

end Runite.Tls
