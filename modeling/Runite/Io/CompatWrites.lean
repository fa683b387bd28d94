import Runite.Io.CompatTrace

/-!
# The adapter writes what it accepts, in order

The inner writer is recorded: it answers as before, and keeps the polls that
reached it.  `Running` and `Failed` say what a call has done so far, in terms of
these polls and of the ones of the calls before.
-/

namespace Runite.Io

open Transition Fs InnerPoll

variable {ω : Type}

/-- A writer that keeps the polls that reach it. -/
def AsyncWriteSeek.recorded (W : AsyncWriteSeek ω) : AsyncWriteSeek (ω × List InnerPoll) where
  pollWriteOperation inner buf generation :=
    let (w, answer) := W.pollWriteOperation inner.1 buf generation
    ((w, inner.2 ++ [.write buf generation answer]), answer)
  pollFlush inner :=
    let (w, answer) := W.pollFlush inner.1
    ((w, inner.2 ++ [.flush]), answer)
  pollClose inner :=
    let (w, answer) := W.pollClose inner.1
    ((w, inner.2 ++ [.close]), answer)
  pollSeek inner position :=
    let (w, answer) := W.pollSeek inner.1 position
    ((w, inner.2 ++ [.seek position]), answer)

namespace Compat

/-- The polls that have reached the inner writer during the call. -/
abbrev polls (c : Compat (ω × List InnerPoll)) : List InnerPoll := c.inner.2

/-- The buffer that an adapter retains, as its inner writer sees it. -/
def view (c : Compat (ω × List InnerPoll)) : Retained :=
  c.pending.map fun pending => (pending.operation, pending.remaining)

/-- The polls until now, with those before the call, are in order. -/
structure InOrder (old : List InnerPoll) (known : Generation → Prop)
    (c : Compat (ω × List InnerPoll)) : Prop where
  chronicle : Chronicle Allowed (old ++ c.polls)
  retained : retained (old ++ c.polls) = c.view
  among : ∀ poll ∈ c.polls, ∀ generation, poll.generation = some generation → known generation

/-- A call in which nothing has failed: of the bytes that it has to write, the
first were accepted and the others are retained. -/
structure Running (old : List InnerPoll) (known : Generation → Prop) (bytes : List UInt8)
    (c : Compat (ω × List InnerPoll)) : Prop extends InOrder old known c where
  balance : c.polls.flatMap accepted ++ c.remainder = bytes
  quiet : ∀ poll ∈ c.polls, poll.failure = none

/-- A call that reports `error`: no other failure has happened in it. -/
structure Failed (old : List InnerPoll) (known : Generation → Prop) (error : IoError)
    (c : Compat (ω × List InnerPoll)) : Prop extends InOrder old known c where
  reported : ∀ poll ∈ c.polls, ∀ failure, poll.failure = some failure → failure = error

def Called {α : Type} (old : List InnerPoll) (known : Generation → Prop) (bytes : List UInt8) :
    Compat (ω × List InnerPoll) × Poll (Except IoError α) → Prop
  | (c, .ready (.ok _)) => Running old known bytes c
  | (c, .ready (.error error)) => Failed old known error c
  | (c, .pending) => Running old known bytes c

variable {W : AsyncWriteSeek ω} {old : List InnerPoll} {known : Generation → Prop}
  {bytes : List UInt8} {c c' : Compat (ω × List InnerPoll)}

/-! ## Steps -/

/-- A poll of a write, with the buffer `pending` that is retained or is now. -/
structure Offered (old : List InnerPoll) (known : Generation → Prop) (bytes : List UInt8)
    (polls : List InnerPoll) (pending : CompatPendingWrite) : Prop where
  chronicle : Chronicle Allowed (old ++ polls)
  allowed : ∀ answer,
    Allowed (old ++ polls) (.write pending.remaining pending.operation answer)
  among : ∀ poll ∈ polls, ∀ generation, poll.generation = some generation → known generation
  operation : known pending.operation
  balance : polls.flatMap accepted ++ pending.remaining = bytes
  quiet : ∀ poll ∈ polls, poll.failure = none

theorem remaining_ne (pending : CompatPendingWrite) : 0 < pending.remaining.length := by
  have hlt := pending.written_lt
  rw [CompatPendingWrite.remaining, List.length_drop]
  omega

variable {polls : List InnerPoll} {pending : CompatPendingWrite}

/-- The polls are in order after the answer to an offer. -/
theorem Offered.inOrder (h : Offered old known bytes polls pending)
    {answer : Poll (Except IoError Nat)}
    (hpolls : c.polls = polls ++ [.write pending.remaining pending.operation answer])
    (hview : c.view = after none (.write pending.remaining pending.operation answer)) :
    InOrder old known c := by
  refine ⟨?_, ?_, ?_⟩
  · rw [hpolls, ← List.append_assoc]
    exact h.chronicle.snoc (h.allowed answer)
  · rw [hpolls, ← List.append_assoc, retained_append, hview]
    exact after_write ..
  · intro poll hmem generation hgeneration
    rw [hpolls] at hmem
    rcases List.mem_append.mp hmem with hmem | hmem
    · exact h.among poll hmem generation hgeneration
    · rw [List.mem_singleton.mp hmem] at hgeneration
      cases hgeneration
      exact h.operation

theorem Offered.running (h : Offered old known bytes polls pending)
    {answer : Poll (Except IoError Nat)}
    (hpolls : c.polls = polls ++ [.write pending.remaining pending.operation answer])
    (hview : c.view = after none (.write pending.remaining pending.operation answer))
    (hquiet : failure (.write pending.remaining pending.operation answer) = none)
    (hbalance : accepted (.write pending.remaining pending.operation answer) ++ c.remainder =
      pending.remaining) :
    Running old known bytes c := by
  refine ⟨h.inOrder hpolls hview, ?_, ?_⟩
  · rw [hpolls, List.flatMap_append, List.flatMap_singleton, List.append_assoc, hbalance]
    exact h.balance
  · intro poll hmem
    rw [hpolls] at hmem
    rcases List.mem_append.mp hmem with hmem | hmem
    · exact h.quiet poll hmem
    · rw [List.mem_singleton.mp hmem]
      exact hquiet

theorem Offered.failed (h : Offered old known bytes polls pending)
    {answer : Poll (Except IoError Nat)} {error : IoError}
    (hpolls : c.polls = polls ++ [.write pending.remaining pending.operation answer])
    (hview : c.view = none)
    (hfailure : failure (.write pending.remaining pending.operation answer) = some error) :
    Failed old known error c := by
  refine ⟨h.inOrder hpolls (hview.trans (after_of_failure hfailure).symm), ?_⟩
  intro poll hmem other hother
  rw [hpolls] at hmem
  rcases List.mem_append.mp hmem with hmem | hmem
  · cases (h.quiet poll hmem).symm.trans hother
  · rw [List.mem_singleton.mp hmem] at hother
    exact Option.some.inj (hother.symm.trans hfailure)

theorem pollWrite_recorded {inner : ω × List InnerPoll} {w : ω} {buf : List UInt8}
    {generation : Generation} {answer : Poll (Except IoError Nat)}
    (h : W.pollWriteOperation inner.1 buf generation = (w, answer)) :
    W.recorded.pollWriteOperation inner buf generation =
      ((w, inner.2 ++ [.write buf generation answer]), answer) := by
  simp only [AsyncWriteSeek.recorded, h]

/-- A step with a buffer that may be offered; after a step that completes nothing is
retained. -/
theorem Offered.called (h : Offered old known bytes c.polls pending)
    (hpending : c.pending = some pending) :
    Called old known bytes (c.pollStep W.recorded) ∧
      ((c.pollStep W.recorded).2 = .ready (.ok .complete) →
        (c.pollStep W.recorded).1.pending = none) := by
  have hpos := remaining_ne pending
  have hlength : pending.remaining.length = pending.data.length - pending.written :=
    List.length_drop
  unfold pollStep
  simp only [hpending]
  rcases hpoll : W.pollWriteOperation c.inner.1 pending.remaining pending.operation with
    ⟨w, (error | count) | _⟩ <;> simp only [pollWrite_recorded hpoll]
  · exact ⟨h.failed rfl rfl rfl, nofun⟩
  · split
    next hzero => exact ⟨h.failed rfl rfl (if_pos hzero), nofun⟩
    next hzero =>
      split
      next hover => exact ⟨h.failed rfl rfl ((if_neg hzero).trans (if_pos hover)), nofun⟩
      next hover =>
        have hquiet : failure (.write pending.remaining pending.operation (.ready (.ok count))) =
            none := (if_neg hzero).trans (if_neg hover)
        split
        next hall =>
          refine ⟨h.running rfl ?_ hquiet ?_, fun _ => rfl⟩
          · exact (if_pos (Or.inr (by omega))).symm
          · show pending.remaining.take count ++ [] = pending.remaining
            rw [List.append_nil, List.take_of_length_le (by omega)]
        next hall =>
          have hdrop : pending.data.drop (pending.written + count) =
              pending.remaining.drop count := by
            rw [CompatPendingWrite.remaining, List.drop_drop]
          refine ⟨h.running rfl ?_ hquiet ?_, nofun⟩
          · show some (pending.operation, pending.data.drop (pending.written + count)) =
              if count = 0 ∨ pending.remaining.length ≤ count then none else _
            rw [if_neg (by omega), hdrop]
          · show pending.remaining.take count ++ pending.data.drop (pending.written + count) = _
            rw [hdrop, List.take_append_drop]
  · exact ⟨h.running rfl rfl rfl rfl, nofun⟩

theorem remainder_pollStep {σ : Type} {W : AsyncWriteSeek σ} {c c' : Compat σ}
    (h : c.pollStep W = (c', .ready (.ok .progress))) :
    c'.remainder.length < c.remainder.length := by
  unfold pollStep at h
  split at h
  · cases h
  next pending hpending =>
    have hlt := pending.written_lt
    split at h
    next inner count hpoll =>
      split at h
      · cases h
      split at h
      · cases h
      split at h
      · cases h
      · cases h
        unfold remainder
        rw [hpending]
        show (pending.data.drop (pending.written + count)).length < pending.remaining.length
        rw [CompatPendingWrite.remaining, List.length_drop, List.length_drop]
        omega
    · cases h
    · cases h

theorem isSome_pollDrain {σ : Type} (W : AsyncWriteSeek σ) (c : Compat σ) :
    (c.pollDrain W).isSome := by
  have hloop : ∀ fuel (c : Compat σ), c.remainder.length < fuel → (drainLoop W fuel c).isSome := by
    intro fuel
    induction fuel with
    | zero => omega
    | succ fuel ih =>
        intro c hfuel
        unfold drainLoop
        rcases hstep : c.pollStep W with ⟨c', (error | (_ | _)) | _⟩ <;> simp only
        · rfl
        · rfl
        · have hless := remainder_pollStep hstep
          exact ih c' (by omega)
        · rfl
  exact hloop _ c (Nat.lt_succ_self _)

/-! ## Calls -/

theorem Running.offered (h : Running old known bytes c)
    (hold : ∀ poll ∈ old, ∀ generation, poll.generation = some generation → known generation)
    (hpending : c.pending = some pending) : Offered old known bytes c.polls pending := by
  have hretained : retained (old ++ c.polls) = some (pending.operation, pending.remaining) := by
    rw [h.retained, view, hpending]
    rfl
  have hbalance := h.balance
  rw [remainder, hpending] at hbalance
  refine ⟨h.chronicle, fun _ => Or.inl hretained, h.among, ?_, hbalance, h.quiet⟩
  obtain ⟨poll, hmem, hgeneration⟩ := exists_of_retained hretained
  rcases List.mem_append.mp hmem with hmem | hmem
  · exact hold poll hmem _ hgeneration
  · exact h.among poll hmem _ hgeneration

theorem Running.pollDrain (h : Running old known bytes c)
    (hold : ∀ poll ∈ old, ∀ generation, poll.generation = some generation → known generation)
    {r : Compat (ω × List InnerPoll) × Poll (Except IoError Unit)}
    (hdrain : c.pollDrain W.recorded = some r) :
    Called old known bytes r ∧ (r.2 = .ready (.ok ()) → r.1.pending = none) := by
  have hloop : ∀ fuel c, Running old known bytes c → drainLoop W.recorded fuel c = some r →
      Called old known bytes r ∧ (r.2 = .ready (.ok ()) → r.1.pending = none) := by
    intro fuel
    induction fuel with
    | zero => nofun
    | succ fuel ih =>
        intro c h hloop
        unfold drainLoop at hloop
        have hstep : Called old known bytes (c.pollStep W.recorded) ∧
            ((c.pollStep W.recorded).2 = .ready (.ok .complete) →
              (c.pollStep W.recorded).1.pending = none) := by
          cases hpending : c.pending with
          | none =>
              unfold pollStep
              rw [hpending]
              exact ⟨h, fun _ => hpending⟩
          | some pending => exact (h.offered hold hpending).called hpending
        rcases hpoll : c.pollStep W.recorded with ⟨c', (error | (_ | _)) | _⟩ <;>
          rw [hpoll] at hloop hstep
        · cases hloop
          exact ⟨hstep.1, nofun⟩
        · cases hloop
          exact ⟨hstep.1, fun _ => hstep.2 rfl⟩
        · exact ih c' hstep.1 hloop
        · cases hloop
          exact ⟨hstep.1, nofun⟩
  exact hloop _ c h hdrain

/-- An accepted buffer is what the call has to write from then on. -/
theorem Running.accept (h : Running old known bytes c) (hnone : c.pending = none)
    {data : List UInt8} (hdata : 0 < data.length) {operation : Generation}
    (hknown : known operation)
    (hnew : ∀ poll ∈ old ++ c.polls, poll.generation ≠ some operation) :
    match c.accept W.recorded data hdata operation with
    | (c', .ready (.ok count)) => Running old known (bytes ++ data) c' ∧ count = data.length
    | (c', .ready (.error error)) => Failed old known error c'
    | (_, .pending) => False := by
  have hretained : InnerPoll.retained (old ++ c.polls) = none := by
    rw [h.retained, view, hnone]
    rfl
  have hbalance := h.balance
  rw [remainder, hnone, List.append_nil] at hbalance
  have hoffered : Offered old known (bytes ++ data) c.polls ⟨data, 0, operation, hdata⟩ :=
    ⟨h.chronicle, fun _ => Or.inr ⟨hretained, hnew⟩, h.among, hknown, by rw [hbalance]; rfl,
      h.quiet⟩
  have hcalled := (hoffered.called (W := W) (c := { c with pending := some _ }) rfl).1
  unfold Compat.accept
  rcases hpoll : pollStep W.recorded { c with pending := some ⟨data, 0, operation, hdata⟩ } with
    ⟨c', (error | step) | _⟩ <;> rw [hpoll] at hcalled
  · exact hcalled
  · exact ⟨hcalled, rfl⟩
  · exact ⟨hcalled, rfl⟩

/-- A poll that is not a write, when nothing is retained. -/
theorem Running.barrier (h : Running old known bytes c) (hnone : c.pending = none)
    {poll : InnerPoll} (hpoll : poll.Barrier) (w : ω) :
    Running old known bytes { c with inner := (w, c.polls ++ [poll]) } := by
  obtain ⟨hallowed, hafter, haccepted, hquiet, hgeneration⟩ := hpoll.facts
  have hretained : InnerPoll.retained (old ++ c.polls) = none := by
    rw [h.retained, view, hnone]
    rfl
  refine ⟨⟨?_, ?_, ?_⟩, ?_, ?_⟩
  · show Chronicle Allowed (old ++ (c.polls ++ [poll]))
    rw [← List.append_assoc]
    exact h.chronicle.snoc ((hallowed _).mpr hretained)
  · show InnerPoll.retained (old ++ (c.polls ++ [poll])) = c.view
    rw [← List.append_assoc, retained_append, hafter]
    exact h.retained
  · intro other hmem generation hother
    rcases List.mem_append.mp hmem with hmem | hmem
    · exact h.among other hmem generation hother
    · rw [List.mem_singleton.mp hmem, hgeneration] at hother
      cases hother
  · show (c.polls ++ [poll]).flatMap accepted ++ c.remainder = bytes
    rw [List.flatMap_append, List.flatMap_singleton, haccepted, List.append_nil]
    exact h.balance
  · intro other hmem
    rcases List.mem_append.mp hmem with hmem | hmem
    · exact h.quiet other hmem
    · rw [List.mem_singleton.mp hmem]
      exact hquiet

theorem Running.toFailed (h : Running old known bytes c) (error : IoError) :
    Failed old known error c :=
  ⟨h.toInOrder, fun poll hmem failure hfailure => by cases (h.quiet poll hmem).symm.trans hfailure⟩

theorem Running.mono {known' : Generation → Prop} (h : Running old known bytes c)
    (himp : ∀ generation, known generation → known' generation) : Running old known' bytes c :=
  ⟨⟨h.chronicle, h.retained, fun poll hmem generation hgeneration =>
    himp generation (h.among poll hmem generation hgeneration)⟩, h.balance, h.quiet⟩

theorem Failed.mono {known' : Generation → Prop} {error : IoError}
    (h : Failed old known error c) (himp : ∀ generation, known generation → known' generation) :
    Failed old known' error c :=
  ⟨⟨h.chronicle, h.retained, fun poll hmem generation hgeneration =>
    himp generation (h.among poll hmem generation hgeneration)⟩, h.reported⟩

theorem Running.drainAndThen {α : Type} (h : Running old known bytes c)
    (hold : ∀ poll ∈ old, ∀ generation, poll.generation = some generation → known generation)
    {ask : ω × List InnerPoll → (ω × List InnerPoll) × Poll (Except IoError α)}
    {poll : InnerPoll} (hpoll : poll.Barrier)
    (hask : ∀ inner, (ask inner).1.2 = inner.2 ++ [poll])
    {r : Compat (ω × List InnerPoll) × Poll (Except IoError α)}
    (hthen : c.drainAndThen W.recorded ask = some r) : Called old known bytes r := by
  obtain ⟨⟨c', drained⟩, hdrain, rfl⟩ := Option.map_eq_some_iff.mp hthen
  obtain ⟨hcalled, hnone⟩ := h.pollDrain hold hdrain
  rcases drained with (error | ⟨⟩) | _
  · exact hcalled
  · have hrunning := Running.barrier hcalled (hnone rfl) hpoll (ask c'.inner).1.1
    have hinner := hask c'.inner
    rcases hresult : ask c'.inner with ⟨⟨w, polls⟩, (error | value) | _⟩ <;>
      rw [hresult] at hrunning hinner <;> cases hinner <;> simp only [hresult]
    · exact hrunning.toFailed error
    · exact hrunning
    · exact hrunning
  · exact hcalled

/-- What a write does; `seen` are the writes that were polled before. -/
def Wrote (old : List InnerPoll) (seen : Generation → Prop) (bytes data : List UInt8)
    (operation : Generation) : Compat (ω × List InnerPoll) × Poll (Except IoError Nat) → Prop
  | (c, .ready (.ok count)) =>
      Running old (fun generation => seen generation ∨ generation = operation) (bytes ++ data) c ∧
        count = data.length
  | (c, .ready (.error error)) =>
      Failed old (fun generation => seen generation ∨ generation = operation) error c
  | (c, .pending) => Running old seen bytes c

theorem Running.drainAndAccept (h : Running old known bytes c)
    (hold : ∀ poll ∈ old, ∀ generation, poll.generation = some generation → known generation)
    {data : List UInt8} {operation : Generation} (hnew : ¬ known operation)
    {r : Compat (ω × List InnerPoll) × Poll (Except IoError Nat)}
    (hwrite : c.drainAndAccept W.recorded data operation = some r) :
    Wrote old known bytes data operation r := by
  unfold Compat.drainAndAccept at hwrite
  split at hwrite
  next hdata =>
    obtain ⟨⟨c', drained⟩, hdrain, rfl⟩ := Option.map_eq_some_iff.mp hwrite
    obtain ⟨hcalled, hnone⟩ := h.pollDrain hold hdrain
    rcases drained with (error | ⟨⟩) | _
    · exact Failed.mono hcalled fun _ => Or.inl
    · have hrunning : Running old known bytes c' := hcalled
      have hunseen : ∀ poll ∈ old ++ c'.polls, poll.generation ≠ some operation := by
        intro poll hmem hgeneration
        rcases List.mem_append.mp hmem with hmem | hmem
        · exact hnew (hold poll hmem operation hgeneration)
        · exact hnew (hrunning.among poll hmem operation hgeneration)
      have hwider : Running old (fun generation => known generation ∨ generation = operation)
          bytes c' := hrunning.mono fun _ => Or.inl
      have haccept := hwider.accept (W := W) (hnone rfl) hdata (Or.inr rfl) hunseen
      simp only
      rcases haccepted : c'.accept W.recorded data hdata operation with
        ⟨c'', (error | count) | _⟩ <;> rw [haccepted] at haccept
      · exact haccept
      · exact haccept
      · exact haccept.elim
    · exact hcalled
  next hdata =>
    cases hwrite
    have hnil : data = [] := List.eq_nil_of_length_eq_zero (by omega)
    refine ⟨?_, by rw [hnil]; rfl⟩
    rw [hnil, List.append_nil]
    exact h.mono fun _ => Or.inl

end Compat

end Runite.Io
