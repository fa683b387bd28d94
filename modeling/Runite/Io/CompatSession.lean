import Runite.Io.CompatWrites

/-!
# Sessions of the adapter

Any sequence of calls of an adapter, over any inner writer.  A turn of the log has
the call, its answer and the polls that reached the inner writer in it.
-/

namespace Runite.Io

open Transition Fs InnerPoll Compat

variable {ω : Type}

/-- A call of a method; a write comes with the generation that its buffer gets. -/
inductive CompatCall
  | pollWrite (buf : List UInt8) (operation : Generation)
  | pollWriteVectored (bufs : List (List UInt8)) (operation : Generation)
  | pollFlush
  | pollClose
  | pollSeek (position : SeekFrom)
  deriving DecidableEq

namespace CompatCall

def data : CompatCall → List UInt8
  | .pollWrite buf _ => buf
  | .pollWriteVectored bufs _ => bufs.flatten
  | .pollFlush => []
  | .pollClose => []
  | .pollSeek _ => []

def operation : CompatCall → Option Generation
  | .pollWrite _ operation => some operation
  | .pollWriteVectored _ operation => some operation
  | .pollFlush => none
  | .pollClose => none
  | .pollSeek _ => none

def untold (poll : Poll (Except IoError Unit)) : Poll (Except IoError Nat) :=
  poll.map fun result => result.map fun _ => 0

def poll (W : AsyncWriteSeek ω) (c : Compat ω) :
    CompatCall → Option (Compat ω × Poll (Except IoError Nat))
  | .pollWrite buf operation => c.pollWrite W buf operation
  | .pollWriteVectored bufs operation => c.pollWriteVectored W bufs operation
  | .pollFlush => (c.pollFlush W).map fun (c, poll) => (c, untold poll)
  | .pollClose => (c.pollClose W).map fun (c, poll) => (c, untold poll)
  | .pollSeek position => c.pollSeek W position

end CompatCall

/-- A call, its answer, and what the inner writer saw of it. -/
structure CompatTurn where
  call : CompatCall
  answer : Poll (Except IoError Nat)
  polls : List InnerPoll
  deriving DecidableEq

/-- The bytes that a turn accepts: those of a write with the answer `Ok`. -/
def CompatTurn.taken (turn : CompatTurn) : List UInt8 :=
  match turn.answer with
  | .ready (.ok _) => turn.call.data
  | .ready (.error _) => []
  | .pending => []

def CompatTurn.isError (turn : CompatTurn) : Prop := ∃ error, turn.answer = .ready (.error error)

/-- The polls that have reached the inner writer. -/
def traceOf (log : List CompatTurn) : List InnerPoll := log.flatMap CompatTurn.polls

structure CompatSession (ω : Type) where
  inner : ω
  pending : Option CompatPendingWrite := none
  log : List CompatTurn := []

namespace CompatSession

def Seen (trace : List InnerPoll) (generation : Generation) : Prop :=
  ∃ poll ∈ trace, poll.generation = some generation

/-- The adapter, with a record of what reaches the inner writer in the next call. -/
def compat (s : CompatSession ω) : Compat (ω × List InnerPoll) :=
  { inner := (s.inner, []), pending := s.pending }

def step (W : AsyncWriteSeek ω) (s : CompatSession ω) (call : CompatCall) :
    Option (CompatSession ω) :=
  (call.poll W.recorded s.compat).map fun (c, answer) =>
    { inner := c.inner.1, pending := c.pending, log := s.log ++ [⟨call, answer, c.polls⟩] }

/-- `WriteOperation::new` returns generations that were not used before. -/
def Fresh (s : CompatSession ω) (call : CompatCall) : Prop :=
  ∀ operation, call.operation = some operation →
    ∀ turn ∈ s.log, turn.call.operation ≠ some operation

/-- What a turn is, after the turns before it. -/
structure TurnAllowed (before : List CompatTurn) (turn : CompatTurn) : Prop where
  unused : ∀ operation, turn.call.operation = some operation →
    ∀ earlier ∈ before, earlier.call.operation ≠ some operation
  whole : ∀ operation count, turn.call.operation = some operation →
    turn.answer = .ready (.ok count) → count = turn.call.data.length
  reported : ∀ poll ∈ turn.polls, ∀ error, poll.failure = some error →
    turn.answer = .ready (.error error)
  among : ∀ poll ∈ turn.polls, ∀ generation, poll.generation = some generation →
    Seen (traceOf before) generation ∨
      turn.call.operation = some generation ∧ turn.answer ≠ .pending

variable {W : AsyncWriteSeek ω} {s s' : CompatSession ω} {before : List CompatTurn}
  {call : CompatCall}

structure Sound (s : CompatSession ω) : Prop where
  chronicle : Chronicle Allowed (traceOf s.log)
  retained : retained (traceOf s.log) = s.compat.view
  turns : Chronicle TurnAllowed s.log
  stream : (∀ turn ∈ s.log, ¬ turn.isError) →
    (traceOf s.log).flatMap accepted ++ s.compat.remainder = s.log.flatMap CompatTurn.taken

theorem traceOf_append (log : List CompatTurn) (turn : CompatTurn) :
    traceOf (log ++ [turn]) = traceOf log ++ turn.polls := by
  rw [traceOf, List.flatMap_append, List.flatMap_singleton]
  rfl

theorem operation_of_seen {log : List CompatTurn} {generation : Generation}
    (h : Chronicle TurnAllowed log) (hseen : Seen (traceOf log) generation) :
    ∃ turn ∈ log, turn.call.operation = some generation := by
  induction h with
  | nil =>
      obtain ⟨poll, hmem, -⟩ := hseen
      cases hmem
  | @snoc log turn _ hallowed ih =>
      have hbefore : Seen (traceOf log) generation →
          ∃ turn' ∈ log ++ [turn], turn'.call.operation = some generation := by
        intro hseen
        obtain ⟨earlier, hmem, hoperation⟩ := ih hseen
        exact ⟨earlier, List.mem_append_left _ hmem, hoperation⟩
      obtain ⟨poll, hmem, hgeneration⟩ := hseen
      rw [traceOf_append] at hmem
      rcases List.mem_append.mp hmem with hmem | hmem
      · exact hbefore ⟨poll, hmem, hgeneration⟩
      · rcases hallowed.among poll hmem generation hgeneration with hseen | ⟨hoperation, -⟩
        · exact hbefore hseen
        · exact ⟨turn, List.mem_append_right _ List.mem_cons_self, hoperation⟩

/-- What a call leaves: which writes it has polled, and what it has written. -/
structure Spoken (old : List InnerPoll) (bytes : List UInt8) (call : CompatCall)
    (c : Compat (ω × List InnerPoll)) (answer : Poll (Except IoError Nat)) : Prop where
  inOrder : InOrder old (fun generation => Seen old generation ∨
    call.operation = some generation ∧ answer ≠ .pending) c
  reported : ∀ poll ∈ c.polls, ∀ error, poll.failure = some error →
    answer = .ready (.error error)
  whole : ∀ operation count, call.operation = some operation →
    answer = .ready (.ok count) → count = call.data.length
  balance : (∀ error, answer ≠ .ready (.error error)) →
    c.polls.flatMap accepted ++ c.remainder = bytes ++ CompatTurn.taken ⟨call, answer, c.polls⟩

theorem Sound.running (h : s.Sound) :
    Running (traceOf s.log) (Seen (traceOf s.log)) s.compat.remainder s.compat := by
  refine ⟨⟨?_, ?_, nofun⟩, rfl, nofun⟩
  · show Chronicle Allowed (traceOf s.log ++ [])
    rw [List.append_nil]
    exact h.chronicle
  · show InnerPoll.retained (traceOf s.log ++ []) = _
    rw [List.append_nil]
    exact h.retained

theorem spoken_of_called {old : List InnerPoll} {bytes : List UInt8}
    {c : Compat (ω × List InnerPoll)} {answer : Poll (Except IoError Nat)}
    (hcall : call.operation = none) (hdata : call.data = [])
    (h : Called old (Seen old) bytes (c, answer)) : Spoken old bytes call c answer := by
  have hnone : ∀ operation, call.operation ≠ some operation := fun _ hoperation => by
    cases hcall.symm.trans hoperation
  have hrunning : Running old (Seen old) bytes c → (∀ error, answer ≠ .ready (.error error)) →
      Spoken old bytes call c answer := by
    intro hrunning hanswer
    refine ⟨(hrunning.mono fun _ => Or.inl).toInOrder, fun poll hmem error hfailure => ?_,
      fun operation _ hoperation => absurd hoperation (hnone operation), fun _ => ?_⟩
    · cases (hrunning.quiet poll hmem).symm.trans hfailure
    · have htaken : CompatTurn.taken ⟨call, answer, c.polls⟩ = [] := by
        rcases answer with (error | count) | _
        · rfl
        · exact hdata
        · rfl
      rw [htaken, List.append_nil]
      exact hrunning.balance
  rcases answer with (error | count) | _
  · refine ⟨(Failed.mono h fun _ => Or.inl).toInOrder, fun poll hmem failure hfailure => ?_,
      nofun, fun hanswer => absurd rfl (hanswer error)⟩
    rw [Failed.reported h poll hmem failure hfailure]
  · exact hrunning h nofun
  · exact hrunning h nofun

theorem spoken_of_wrote {old : List InnerPoll} {bytes : List UInt8} {operation : Generation}
    {c : Compat (ω × List InnerPoll)} {answer : Poll (Except IoError Nat)}
    (hcall : call.operation = some operation)
    (h : Wrote old (Seen old) bytes call.data operation (c, answer)) :
    Spoken old bytes call c answer := by
  have himp : ∀ generation, Seen old generation ∨ generation = operation → answer ≠ .pending →
      Seen old generation ∨ call.operation = some generation ∧ answer ≠ .pending := by
    rintro generation (hseen | rfl) hanswer
    · exact Or.inl hseen
    · exact Or.inr ⟨hcall, hanswer⟩
  rcases answer with (error | count) | _
  · refine ⟨(Failed.mono h fun generation hgeneration => himp generation hgeneration
      nofun).toInOrder, fun poll hmem failure hfailure => ?_, nofun,
      fun hanswer => absurd rfl (hanswer error)⟩
    rw [Failed.reported h poll hmem failure hfailure]
  · obtain ⟨hrunning, hcount⟩ := h
    refine ⟨(hrunning.mono fun generation hgeneration => himp generation hgeneration
      nofun).toInOrder, fun poll hmem failure hfailure => ?_, ?_, fun _ => hrunning.balance⟩
    · cases (hrunning.quiet poll hmem).symm.trans hfailure
    · rintro _ _ - heq
      cases heq
      exact hcount
  · have hrunning : Running old (Seen old) bytes c := h
    refine ⟨(hrunning.mono fun _ => Or.inl).toInOrder, fun poll hmem failure hfailure => ?_,
      nofun, fun _ => ?_⟩
    · cases (hrunning.quiet poll hmem).symm.trans hfailure
    · rw [show CompatTurn.taken ⟨call, .pending, c.polls⟩ = [] from rfl, List.append_nil]
      exact hrunning.balance

theorem called_untold {old : List InnerPoll} {known : Generation → Prop} {bytes : List UInt8}
    {c : Compat (ω × List InnerPoll)} {poll : Poll (Except IoError Unit)}
    (h : Called old known bytes (c, poll)) :
    Called old known bytes (c, CompatCall.untold poll) := by
  rcases poll with (error | ⟨⟩) | _ <;> exact h

theorem Sound.spoken (h : s.Sound) (hfresh : s.Fresh call) {c : Compat (ω × List InnerPoll)}
    {answer : Poll (Except IoError Nat)} (hpoll : call.poll W.recorded s.compat = some (c, answer)) :
    Spoken (traceOf s.log) s.compat.remainder call c answer := by
  have hold : ∀ poll ∈ traceOf s.log, ∀ generation, poll.generation = some generation →
      Seen (traceOf s.log) generation := fun poll hmem generation hgeneration =>
    ⟨poll, hmem, hgeneration⟩
  have hnew : ∀ operation, call.operation = some operation →
      ¬ Seen (traceOf s.log) operation := by
    intro operation hoperation hseen
    obtain ⟨turn, hturn, hused⟩ := operation_of_seen h.turns hseen
    exact hfresh operation hoperation turn hturn hused
  cases call with
  | pollWrite buf operation =>
      exact spoken_of_wrote rfl (h.running.drainAndAccept hold (hnew operation rfl) hpoll)
  | pollWriteVectored bufs operation =>
      refine spoken_of_wrote rfl ?_
      change s.compat.pollWriteVectored W.recorded bufs operation = some (c, answer) at hpoll
      unfold Compat.pollWriteVectored at hpoll
      split at hpoll
      · cases hpoll
        exact Failed.mono (h.running.toFailed compatLengthOverflow) fun _ => Or.inl
      · exact h.running.drainAndAccept hold (hnew operation rfl) hpoll
  | pollFlush =>
      obtain ⟨⟨c', poll⟩, hflush, heq⟩ := Option.map_eq_some_iff.mp hpoll
      cases heq
      have hbarrier : Barrier .flush := trivial
      exact spoken_of_called rfl rfl (called_untold
        (h.running.drainAndThen hold hbarrier (fun _ => rfl) hflush))
  | pollClose =>
      obtain ⟨⟨c', poll⟩, hclose, heq⟩ := Option.map_eq_some_iff.mp hpoll
      cases heq
      have hbarrier : Barrier .close := trivial
      exact spoken_of_called rfl rfl (called_untold
        (h.running.drainAndThen hold hbarrier (fun _ => rfl) hclose))
  | pollSeek position =>
      change s.compat.drainAndThen W.recorded (fun inner => W.recorded.pollSeek inner position) =
        some (c, answer) at hpoll
      have hbarrier : Barrier (.seek position) := trivial
      exact spoken_of_called rfl rfl
        (h.running.drainAndThen hold hbarrier (fun _ => rfl) hpoll)

theorem Sound.step (h : s.Sound) (hfresh : s.Fresh call) (hstep : s.step W call = some s') :
    s'.Sound := by
  obtain ⟨⟨c, answer⟩, hpoll, rfl⟩ := Option.map_eq_some_iff.mp hstep
  have hspoken := h.spoken hfresh hpoll
  have htrace := traceOf_append s.log ⟨call, answer, c.polls⟩
  refine ⟨?_, ?_, ?_, ?_⟩
  · show Chronicle Allowed (traceOf (s.log ++ _))
    rw [htrace]
    exact hspoken.inOrder.chronicle
  · show InnerPoll.retained (traceOf (s.log ++ _)) = _
    rw [htrace]
    exact hspoken.inOrder.retained
  · exact h.turns.snoc ⟨hfresh, hspoken.whole, hspoken.reported, hspoken.inOrder.among⟩
  · intro hquiet
    change ∀ turn ∈ s.log ++ [⟨call, answer, c.polls⟩], ¬ turn.isError at hquiet
    have hbefore := h.stream fun turn hturn => hquiet turn (List.mem_append_left _ hturn)
    have hlast : ∀ error, answer ≠ .ready (.error error) := fun error heq =>
      hquiet ⟨call, answer, c.polls⟩ (List.mem_append_right _ List.mem_cons_self) ⟨error, heq⟩
    show (traceOf (s.log ++ _)).flatMap accepted ++ c.remainder =
      List.flatMap CompatTurn.taken (s.log ++ [⟨call, answer, c.polls⟩])
    rw [htrace, List.flatMap_append, List.append_assoc, hspoken.balance hlast,
      ← List.append_assoc, hbefore, List.flatMap_append, List.flatMap_singleton]

/-! ## Whole sessions -/

/-- A turn that reports the failure of the buffer of `generation`. -/
def Reports (generation : Generation) (turn : CompatTurn) : Prop :=
  ∃ poll ∈ turn.polls, ∃ error, poll.generation = some generation ∧
    poll.failure = some error ∧ turn.answer = .ready (.error error)

/-- The buffer of `generation` has failed. -/
def HasFailed (log : List CompatTurn) (generation : Generation) : Prop :=
  ∃ poll ∈ traceOf log, ∃ error, poll.generation = some generation ∧ poll.failure = some error

variable {pre post log : List CompatTurn} {turn : CompatTurn} {operation : Generation}

/-- The write of a turn was not polled in the turns before. -/
theorem Sound.not_seen (h : s.Sound) (hlog : s.log = pre ++ turn :: post)
    (hoperation : turn.call.operation = some operation) : ¬ Seen (traceOf pre) operation := by
  intro hseen
  have hturns := h.turns
  rw [hlog] at hturns
  obtain ⟨earlier, hearlier, hused⟩ := operation_of_seen hturns.of_append hseen
  exact hturns.allowed.unused operation hoperation earlier hearlier hused

/-- The bytes of a write that is pending never reach the inner writer. -/
theorem Sound.not_seen_of_pending (h : s.Sound) (hturn : turn ∈ s.log)
    (hoperation : turn.call.operation = some operation) (hpending : turn.answer = .pending) :
    ¬ Seen (traceOf s.log) operation := by
  obtain ⟨pre, post, hlog⟩ := List.append_of_mem hturn
  have hturns := h.turns
  rw [hlog] at hturns ⊢
  rw [← List.singleton_append, ← List.append_assoc] at hturns ⊢
  have hbefore := h.not_seen hlog hoperation
  have hallowed := hturns.of_append.of_snoc.2
  refine (Chronicle.forever (fun log => ¬ Seen (traceOf log) operation ∧
    ∃ turn ∈ log, turn.call.operation = some operation) ?_ hturns ⟨?_, ?_⟩).1
  · rintro log other ⟨hunseen, earlier, hearlier, hused⟩ hother
    refine ⟨?_, earlier, List.mem_append_left _ hearlier, hused⟩
    rintro ⟨poll, hmem, hgeneration⟩
    rw [traceOf_append] at hmem
    rcases List.mem_append.mp hmem with hmem | hmem
    · exact hunseen ⟨poll, hmem, hgeneration⟩
    · rcases hother.among poll hmem operation hgeneration with hseen | ⟨hsame, -⟩
      · exact hunseen hseen
      · exact hother.unused operation hsame earlier hearlier hused
  · rintro ⟨poll, hmem, hgeneration⟩
    rw [traceOf_append] at hmem
    rcases List.mem_append.mp hmem with hmem | hmem
    · exact hbefore ⟨poll, hmem, hgeneration⟩
    · rcases hallowed.among poll hmem operation hgeneration with hseen | ⟨-, hanswer⟩
      · exact hbefore hseen
      · exact hanswer hpending
  · exact ⟨turn, List.mem_append_right _ List.mem_cons_self, hoperation⟩

/-- After the report of a failure the write is not polled again. -/
theorem Sound.not_reports_after (h : s.Sound) (hlog : s.log = pre ++ turn :: post)
    (hreports : Reports operation turn) {other : CompatTurn} (hother : other ∈ post) :
    ¬ Reports operation other := by
  obtain ⟨poll, hmem, error, hgeneration, hfailure, -⟩ := hreports
  rintro ⟨later, hlater, -, hlaterGeneration, -⟩
  obtain ⟨before, after, hpolls⟩ := List.append_of_mem hmem
  have htrace : traceOf s.log = (traceOf pre ++ before) ++ poll :: (after ++ traceOf post) := by
    rw [hlog, traceOf, List.flatMap_append, List.flatMap_cons, hpolls]
    simp only [List.append_assoc, List.cons_append]
    rfl
  have hchronicle := h.chronicle
  rw [htrace] at hchronicle
  exact generation_ne_of_failure hchronicle hfailure hgeneration later
    (List.mem_append_right _ (List.mem_flatMap_of_mem hother hlater)) hlaterGeneration

/-- When an accepted buffer fails, exactly one call reports it, and it is a later one. -/
theorem Sound.reports_once (h : s.Sound) (hlog : s.log = pre ++ turn :: post)
    (hoperation : turn.call.operation = some operation) {count : Nat}
    (haccepted : turn.answer = .ready (.ok count)) (hfailed : HasFailed s.log operation) :
    ∃ mid reporter rest, post = mid ++ reporter :: rest ∧ Reports operation reporter ∧
      ∀ other ∈ pre ++ turn :: mid ++ rest, ¬ Reports operation other := by
  have hpre : ∀ other ∈ pre, ¬ Reports operation other := by
    rintro other hother ⟨poll, hmem, -, hgeneration, -⟩
    exact h.not_seen hlog hoperation ⟨poll, List.mem_flatMap_of_mem hother hmem, hgeneration⟩
  have hturn : ¬ Reports operation turn := by
    rintro ⟨-, -, error, -, -, hanswer⟩
    cases haccepted.symm.trans hanswer
  obtain ⟨poll, hmem, error, hgeneration, hfailure⟩ := hfailed
  obtain ⟨reporter, hreporter, hpoll⟩ := List.mem_flatMap.mp hmem
  have hreports : Reports operation reporter := by
    obtain ⟨first, last, hsplit⟩ := List.append_of_mem hreporter
    have hturns := h.turns
    rw [hsplit] at hturns
    exact ⟨poll, hpoll, error, hgeneration, hfailure,
      hturns.allowed.reported poll hpoll error hfailure⟩
  have hlater : reporter ∈ post := by
    rw [hlog] at hreporter
    rcases List.mem_append.mp hreporter with hmem | hmem
    · exact absurd hreports (hpre reporter hmem)
    · rcases List.mem_cons.mp hmem with rfl | hmem
      · exact absurd hreports hturn
      · exact hmem
  obtain ⟨mid, rest, rfl⟩ := List.append_of_mem hlater
  refine ⟨mid, reporter, rest, rfl, hreports, fun other hother hagain => ?_⟩
  rcases List.mem_append.mp hother with hmem | hmem
  · rcases List.mem_append.mp hmem with hmem | hmem
    · exact hpre other hmem hagain
    · rcases List.mem_cons.mp hmem with rfl | hmem
      · exact hturn hagain
      · obtain ⟨first, last, rfl⟩ := List.append_of_mem hmem
        have hsplit : s.log = (pre ++ turn :: first) ++ other :: (last ++ reporter :: rest) := by
          rw [hlog]
          simp only [List.append_assoc, List.cons_append]
        exact h.not_reports_after hsplit hagain (List.mem_append_right _ List.mem_cons_self)
          hreports
  · have hsplit : s.log = (pre ++ turn :: mid) ++ reporter :: rest := by
      rw [hlog]
      simp only [List.append_assoc, List.cons_append]
    exact h.not_reports_after hsplit hreports hmem hagain

/-- What holds of an adapter in every state that calls reach. -/
structure Faithful (s : CompatSession ω) : Prop where
  /-- while no call has failed, what was accepted arrives in order -/
  stream : (∀ turn ∈ s.log, ¬ turn.isError) →
    (traceOf s.log).flatMap accepted ++ s.compat.remainder = s.log.flatMap CompatTurn.taken
  /-- `Ok(n)` reports the whole buffer -/
  whole : ∀ turn ∈ s.log, ∀ operation count, turn.call.operation = some operation →
    turn.answer = .ready (.ok count) → count = turn.call.data.length
  /-- a write that is pending has not offered anything to the inner writer, nor will it -/
  idle : ∀ turn ∈ s.log, ∀ operation, turn.call.operation = some operation →
    turn.answer = .pending → ¬ Seen (traceOf s.log) operation
  /-- the polls that have reached the inner writer leave what the adapter retains -/
  retained : InnerPoll.retained (traceOf s.log) = s.compat.view
  /-- a flush, a close or a seek reaches it only when nothing is retained -/
  barrier : ∀ before poll after, traceOf s.log = before ++ poll :: after → poll.Barrier →
    InnerPoll.retained before = none
  /-- and a write goes on with exactly what is retained, or nothing is -/
  resumed : ∀ before buf generation answer after,
    traceOf s.log = before ++ .write buf generation answer :: after →
      InnerPoll.retained before = some (generation, buf) ∨ InnerPoll.retained before = none
  /-- one later call reports an accepted buffer that has failed -/
  reported : ∀ before turn after operation count, s.log = before ++ turn :: after →
    turn.call.operation = some operation → turn.answer = .ready (.ok count) →
    HasFailed s.log operation → ∃ mid reporter rest, after = mid ++ reporter :: rest ∧
      Reports operation reporter ∧ ∀ other ∈ before ++ turn :: mid ++ rest,
        ¬ Reports operation other

theorem Sound.faithful (h : s.Sound) : s.Faithful := by
  refine ⟨h.stream, ?_, fun turn hturn operation hoperation hpending =>
    h.not_seen_of_pending hturn hoperation hpending, h.retained, ?_, ?_,
    fun _ _ _ _ _ hlog hoperation haccepted hfailed =>
      h.reports_once hlog hoperation haccepted hfailed⟩
  · intro turn hturn operation count hoperation hanswer
    obtain ⟨pre, post, hlog⟩ := List.append_of_mem hturn
    have hturns := h.turns
    rw [hlog] at hturns
    exact hturns.allowed.whole operation count hoperation hanswer
  · intro before poll after htrace hbarrier
    have hchronicle := h.chronicle
    rw [htrace] at hchronicle
    exact (hbarrier.facts.1 before).mp hchronicle.allowed
  · intro before buf generation answer after htrace
    have hchronicle := h.chronicle
    rw [htrace] at hchronicle
    exact hchronicle.allowed.imp_right And.left

theorem isSome_step (W : AsyncWriteSeek ω) (s : CompatSession ω) (call : CompatCall) :
    (s.step W call).isSome := by
  have hdrain := isSome_pollDrain W.recorded s.compat
  have haccept : ∀ data operation,
      (s.compat.drainAndAccept W.recorded data operation).isSome := by
    intro data operation
    unfold drainAndAccept
    split
    · rwa [Option.isSome_map]
    · rfl
  unfold step
  rw [Option.isSome_map]
  cases call with
  | pollWrite buf operation => exact haccept buf operation
  | pollWriteVectored bufs operation =>
      show (s.compat.pollWriteVectored W.recorded bufs operation).isSome
      unfold Compat.pollWriteVectored
      split
      · rfl
      · exact haccept bufs.flatten operation
  | pollFlush =>
      show (Option.map _ (s.compat.pollFlush W.recorded)).isSome
      rwa [Option.isSome_map, Compat.pollFlush, drainAndThen, Option.isSome_map]
  | pollClose =>
      show (Option.map _ (s.compat.pollClose W.recorded)).isSome
      rwa [Option.isSome_map, Compat.pollClose, drainAndThen, Option.isSome_map]
  | pollSeek position =>
      show (s.compat.pollSeek W.recorded position).isSome
      rwa [Compat.pollSeek, drainAndThen, Option.isSome_map]

/-- Over any inner writer, an adapter is faithful in every state that calls reach,
and its calls return. -/
theorem compat_faithful_of_reachable (W : AsyncWriteSeek ω) {inner : ω}
    (hreach : Reachable (step W) Fresh { inner } s) :
    s.Faithful ∧ ∀ call, (s.step W call).isSome := by
  have h : s.Sound := by
    refine hreach.invariant _ ⟨.nil, rfl, .nil, fun _ => rfl⟩ fun _ _ _ h hok hstep =>
      h.step hok hstep
  exact ⟨h.faithful, isSome_step W s⟩

instance (s : CompatSession ω) (call : CompatCall) : Decidable (s.Fresh call) :=
  match hcall : call.operation with
  | none => isTrue fun _ hoperation => by cases hcall.symm.trans hoperation
  | some operation => decidable_of_iff (∀ turn ∈ s.log, turn.call.operation ≠ some operation)
      ⟨fun h _ hoperation => Option.some.inj (hcall.symm.trans hoperation) ▸ h,
        fun h => h operation hcall⟩

/-- A writer that gives the answers of a list, and then takes everything. -/
def answering : AsyncWriteSeek (List (Poll (Except IoError Nat))) where
  pollWriteOperation answers buf _ :=
    match answers with
    | [] => ([], .ready (.ok buf.length))
    | answer :: answers => (answers, answer)
  pollFlush answers := (answers, .ready (.ok ()))
  pollClose answers := (answers, .ready (.ok ()))
  pollSeek answers _ := (answers, .ready (.ok 0))

/-- A write is abandoned while the buffer before it waits; the next one is accepted
behind it, a part of it is written, and then the rest of it fails in a seek. -/
theorem faithful_answering :
    ∃ s : CompatSession (List (Poll (Except IoError Nat))),
      s.log.flatMap CompatTurn.taken = [1, 2, 3, 4, 5, 6] ∧ HasFailed s.log 2 ∧ s.Faithful := by
  obtain ⟨s, hreach, hs⟩ := Reachable.exists_of_guarded (step answering) Fresh
    { inner := [.pending, .ready (.ok 2), .pending, .pending, .ready (.ok 1), .ready (.ok 1),
        .ready (.ok 7)] }
    [.pollWrite [1, 2, 3] 0, .pollFlush, .pollWrite [9] 1, .pollWriteVectored [[4], [], [5, 6]] 2,
      .pollSeek (.start 0)]
    (fun s => s.log.flatMap CompatTurn.taken = [1, 2, 3, 4, 5, 6] ∧
      ∃ poll ∈ traceOf s.log, poll.generation = some 2 ∧ poll.failure = some compatOverrun)
    (by decide +kernel)
  obtain ⟨htaken, poll, hmem, hgeneration, hfailure⟩ := of_decide_eq_true hs
  exact ⟨s, htaken, ⟨poll, hmem, compatOverrun, hgeneration, hfailure⟩,
    (compat_faithful_of_reachable answering hreach).1⟩

end CompatSession

end Runite.Io
