import Runite.Io.BufWriter

/-!
# Buffered writes are transparent

Over any writer, with flushes abandoned and more bytes buffered behind them,
what the inner writer has accepted and then what is buffered is what the
`BufWriter` has accepted.  What carries it over a pending flush is that the
buffers that were offered to the inner writer are all prefixes of what is
unwritten: bytes are only added behind it.
-/

namespace Runite.Io

open Transition

namespace BufWriter

variable {ω : Type} {W : RetainingWrite ω} {b b' : BufWriter ω}

theorem unwritten_advance (b : BufWriter ω) (inner : ω) (generation : Generation) (count : Nat) :
    (b.advance inner generation count).unwritten = b.unwritten.drop count := by
  show b.buf.drop (min b.buf.length (b.written + count)) = (b.buf.drop b.written).drop count
  rw [List.drop_drop]
  rcases Nat.le_total b.buf.length (b.written + count) with hle | hle
  · rw [Nat.min_eq_left hle, List.drop_length, List.drop_of_length_le hle]
  · rw [Nat.min_eq_right hle]

theorem unwritten_extend (b : BufWriter ω) (buf : List UInt8) :
    (b.extend buf).unwritten = b.unwritten ++ buf :=
  List.drop_append_of_le_length b.written_le

/-! ## The flush of the buffer -/

/-- The buffer stays, with some of it written. -/
structure Kept (W : RetainingWrite ω) (b b' : BufWriter ω) : Prop where
  buf : b'.buf = b.buf
  capacity : b'.capacity = b.capacity
  begun : b'.written < b'.buf.length
  stream : W.accepted b'.inner ++ b'.unwritten = W.accepted b.inner ++ b.unwritten
  offers : Offers W b'.inner b'.unwritten

/-- The buffer has been written: either there was nothing in it, or the inner
writer has answered last. -/
structure Emptied (W : RetainingWrite ω) (b b' : BufWriter ω) : Prop where
  buf : b'.buf = []
  capacity : b'.capacity = b.capacity
  accepted : W.accepted b'.inner = W.accepted b.inner ++ b.unwritten
  offered : b'.inner = b.inner ∧ b.unwritten = [] ∨ W.offered b'.inner = []

def Flushed (W : RetainingWrite ω) (b : BufWriter ω) :
    BufWriter ω × Poll (Except IoError Unit) → Prop
  | (b', .ready (.ok ())) => Emptied W b b'
  | (b', .ready (.error _)) => Kept W b b'
  | (b', .pending) => Kept W b b'

theorem unwritten_eq_nil (h : ¬ b.written < b.buf.length) : b.unwritten = [] :=
  List.drop_of_length_le (by omega)

/-- A turn that does not write anything keeps the buffer. -/
theorem Kept.of_zero {inner : ω} {generation : Generation} (hbegun : b.written < b.buf.length)
    (haccepted : W.accepted inner = W.accepted b.inner) (hoffers : Offers W inner b.unwritten) :
    Kept W b (b.advance inner generation 0) := by
  have hunwritten : (b.advance inner generation 0).unwritten = b.unwritten := by
    rw [unwritten_advance, List.drop_zero]
  refine ⟨rfl, rfl, ?_, ?_, by rwa [hunwritten]⟩
  · show min b.buf.length (b.written + 0) < b.buf.length
    omega
  · rw [hunwritten]
    show W.accepted inner ++ _ = _
    rw [haccepted]

/-- The rest of a flush, after a turn that has written something. -/
theorem Flushed.of_turn {inner : ω} {generation : Generation} {count : Nat}
    {r : BufWriter ω × Poll (Except IoError Unit)}
    (haccepted : W.accepted inner = W.accepted b.inner ++ b.unwritten.take count)
    (hoffered : W.offered inner = []) (h : Flushed W (b.advance inner generation count) r) :
    Flushed W b r := by
  have hstream : W.accepted inner ++ (b.advance inner generation count).unwritten =
      W.accepted b.inner ++ b.unwritten := by
    rw [unwritten_advance, haccepted, List.append_assoc, List.take_append_drop]
  have hkept : ∀ {b'}, Kept W (b.advance inner generation count) b' → Kept W b b' :=
    fun h => ⟨h.buf, h.capacity, h.begun, h.stream.trans hstream, h.offers⟩
  match r with
  | (b', .ready (.ok ())) =>
      refine ⟨h.buf, h.capacity, h.accepted.trans hstream, Or.inr ?_⟩
      rcases h.offered with ⟨hinner, -⟩ | hnil
      · rw [hinner]
        exact hoffered
      · exact hnil
  | (b', .ready (.error _)) => exact hkept h
  | (b', .pending) => exact hkept h

theorem flushed_of_flushLoop {fuel : Nat} {fresh : Generation}
    {r : BufWriter ω × Poll (Except IoError Unit)}
    (hoffers : b.written < b.buf.length → Offers W b.inner b.unwritten)
    (h : flushLoop W.toAsyncWrite fresh fuel b = some r) : Flushed W b r := by
  induction fuel generalizing b with
  | zero => cases h
  | succ fuel ih =>
      unfold flushLoop at h
      split at h
      next hbegun =>
        have hwritten := (hoffers hbegun).written (b.currentGeneration fresh)
        rcases hpoll : W.pollWriteOperation b.inner b.unwritten (b.currentGeneration fresh) with
          ⟨inner, (error | count) | _⟩ <;> simp only [hpoll] at h hwritten
        · cases h
          exact Kept.of_zero hbegun hwritten.1 (.of_nil hwritten.2)
        · obtain ⟨haccepted, hoffered, -⟩ := hwritten
          cases count with
          | zero =>
              cases h
              exact Kept.of_zero hbegun (by simpa using haccepted) (.of_nil hoffered)
          | succ count => exact Flushed.of_turn haccepted hoffered (ih (fun _ => .of_nil hoffered) h)
        · cases h
          exact Kept.of_zero hbegun hwritten.1 hwritten.2
      next hdone =>
        cases h
        have hnil := unwritten_eq_nil hdone
        exact ⟨rfl, rfl, by rw [hnil, List.append_nil]; rfl, Or.inl ⟨rfl, hnil⟩⟩

theorem exists_flushLoop (W : RetainingWrite ω) (fresh : Generation) {fuel : Nat}
    (b : BufWriter ω) (hfuel : b.buf.length - b.written < fuel) :
    ∃ r, flushLoop W.toAsyncWrite fresh fuel b = some r := by
  induction fuel generalizing b with
  | zero => omega
  | succ fuel ih =>
      unfold flushLoop
      split
      next hbegun =>
        rcases hpoll : W.pollWriteOperation b.inner b.unwritten (b.currentGeneration fresh) with
          ⟨inner, (error | count) | _⟩ <;> simp only [hpoll]
        · exact ⟨_, rfl⟩
        · cases count with
          | zero => exact ⟨_, rfl⟩
          | succ count =>
              refine ih (b.advance inner (b.currentGeneration fresh) (count + 1)) ?_
              show b.buf.length - min b.buf.length (b.written + (count + 1)) < fuel
              omega
        · exact ⟨_, rfl⟩
      next => exact ⟨_, rfl⟩

/-! ## Sessions -/

/-- A buffered writer, the bytes that it has accepted, and the write that it
passes through, while the inner writer has not answered it. -/
structure Session (ω : Type) where
  writer : BufWriter ω
  taken : List UInt8 := []
  passing : Option (List UInt8) := none

/-- A poll of a method; `fresh` is the generation that a new operation gets. -/
inductive Call
  | pollWrite (buf : List UInt8) (generation fresh : Generation)
  | pollFlush (fresh : Generation)
  | pollClose (fresh : Generation)
  deriving DecidableEq

/-- The bytes that an answer to a write accepts. -/
def acceptedBytes (buf : List UInt8) : Poll (Except IoError Nat) → List UInt8
  | .ready (.ok count) => buf.take count
  | .ready (.error _) => []
  | .pending => []

/-- The write that is passed through after a poll: one that is pending with
nothing buffered. -/
def passingAfter (writer : BufWriter ω) (buf : List UInt8) :
    Poll (Except IoError Nat) → Option (List UInt8)
  | .ready _ => none
  | .pending => if writer.buf = [] then some buf else none

namespace Session

def step (W : AsyncWrite ω) (s : Session ω) : Call → Option (Session ω)
  | .pollWrite buf generation fresh =>
      (s.writer.pollWriteOperation W buf generation fresh).map fun (writer, poll) =>
        { writer
          taken := s.taken ++ acceptedBytes buf poll
          passing := passingAfter writer buf poll }
  | .pollFlush fresh => (s.writer.pollFlush W fresh).map fun (writer, _) => { s with writer }
  | .pollClose fresh => (s.writer.pollClose W fresh).map fun (writer, _) => { s with writer }

/-- A write that is passed through is polled again until it is answered. -/
def Repolls (s : Session ω) : Call → Prop
  | .pollWrite buf _ _ => ∀ given, s.passing = some given → buf = given
  | .pollFlush _ => True
  | .pollClose _ => True

/-- What the inner writer may have been offered: the write that is passed
through, or the unwritten bytes. -/
def waiting (s : Session ω) : List UInt8 := s.passing.getD s.writer.unwritten

/-- What the inner writer has accepted and what is buffered is what was taken,
and the inner writer was offered nothing else than what comes next. -/
structure Transparent (W : RetainingWrite ω) (before : List UInt8) (capacity : Nat)
    (s : Session ω) : Prop where
  stream : W.accepted s.writer.inner ++ s.writer.unwritten = before ++ s.taken
  capacity_eq : s.writer.capacity = capacity
  bound : s.writer.buf.length ≤ capacity
  begun : s.writer.buf ≠ [] → s.writer.written < s.writer.buf.length
  offers : Offers W s.writer.inner s.waiting
  passes : ∀ given, s.passing = some given → s.writer.buf = [] ∧ capacity ≤ given.length

variable {s s' : Session ω} {before : List UInt8} {capacity : Nat}

theorem Transparent.waiting_eq (h : Transparent W before capacity s)
    (hbegun : s.writer.written < s.writer.buf.length) : s.waiting = s.writer.unwritten := by
  unfold waiting
  cases hpassing : s.passing with
  | none => rfl
  | some given =>
      rw [(h.passes given hpassing).1] at hbegun
      exact absurd hbegun (Nat.not_lt_zero _)

/-- A flush keeps what is transparent so; when it succeeds the buffer is empty. -/
theorem Transparent.flush (h : Transparent W before capacity s) {fresh : Generation}
    {r : BufWriter ω × Poll (Except IoError Unit)}
    (hflush : s.writer.pollFlushBuf W.toAsyncWrite fresh = some r) :
    Transparent W before capacity { s with writer := r.1 } ∧
      (r.1.buf = [] ↔ r.2 = .ready (.ok ())) := by
  have hflushed : Flushed W s.writer r :=
    flushed_of_flushLoop (fun hbegun => h.waiting_eq hbegun ▸ h.offers) hflush
  have hkept : ∀ {b'}, Kept W s.writer b' →
      Transparent W before capacity { s with writer := b' } := by
    intro b' hkept
    have hpassing : s.passing = none := by
      by_contra hne
      obtain ⟨given, hgiven⟩ := Option.ne_none_iff_exists'.mp hne
      have hbegun := hkept.begun
      rw [hkept.buf, (h.passes given hgiven).1] at hbegun
      exact absurd hbegun (Nat.not_lt_zero _)
    refine ⟨hkept.stream.trans h.stream, hkept.capacity.trans h.capacity_eq, ?_,
      fun _ => hkept.begun, ?_, ?_⟩
    · show b'.buf.length ≤ capacity
      rw [hkept.buf]
      exact h.bound
    · show Offers W b'.inner (s.passing.getD b'.unwritten)
      rw [hpassing]
      exact hkept.offers
    · intro given hgiven
      cases hpassing.symm.trans hgiven
  have hnonempty : ∀ {b'}, Kept W s.writer b' → b'.buf ≠ [] := by
    intro b' hkept hnil
    have hbegun := hkept.begun
    rw [hnil] at hbegun
    exact absurd hbegun (Nat.not_lt_zero _)
  match r with
  | (b', .ready (.error _)) =>
      exact ⟨hkept hflushed, fun hnil => absurd hnil (hnonempty hflushed), nofun⟩
  | (b', .pending) =>
      exact ⟨hkept hflushed, fun hnil => absurd hnil (hnonempty hflushed), nofun⟩
  | (b', .ready (.ok ())) =>
      have hunwritten : b'.unwritten = [] := by rw [unwritten, hflushed.buf, List.drop_nil]
      refine ⟨⟨?_, hflushed.capacity.trans h.capacity_eq, ?_, fun hne => absurd hflushed.buf hne,
        ?_, fun given hgiven => ⟨hflushed.buf, (h.passes given hgiven).2⟩⟩,
        fun _ => rfl, fun _ => hflushed.buf⟩
      · show W.accepted b'.inner ++ b'.unwritten = _
        rw [hunwritten, List.append_nil, hflushed.accepted]
        exact h.stream
      · show b'.buf.length ≤ capacity
        rw [hflushed.buf]
        exact Nat.zero_le _
      · show Offers W b'.inner (s.passing.getD b'.unwritten)
        rcases hflushed.offered with ⟨hinner, hnil⟩ | hnil
        · have hoffers := h.offers
          rw [waiting, hnil] at hoffers
          rw [hunwritten, hinner]
          exact hoffers
        · exact .of_nil hnil

/-- The end of a write: it is passed through when nothing is buffered, and
buffered when it fits. -/
theorem Transparent.passOrBuffer (h : Transparent W before capacity s) {buf : List UInt8}
    {generation : Generation} (hne : buf ≠ [])
    (hroom : s.writer.buf = [] ∨ s.writer.buf.length + buf.length ≤ capacity)
    (hunwritten : s.writer.written = 0)
    (hrepolls : ∀ given, s.passing = some given → buf = given) :
    ∀ b' poll, s.writer.passOrBuffer W.toAsyncWrite buf generation = (b', poll) →
      Transparent W before capacity
        { writer := b'
          taken := s.taken ++ acceptedBytes buf poll
          passing := passingAfter b' buf poll } := by
  have hpos : 0 < buf.length := List.length_pos_iff.mpr hne
  intro b' poll heq
  unfold BufWriter.passOrBuffer at heq
  split at heq
  next hlarge =>
    rw [h.capacity_eq] at hlarge
    have hnil : s.writer.buf = [] := by
      rcases hroom with hnil | hroom
      · exact hnil
      · exact List.eq_nil_of_length_eq_zero (by omega)
    have hempty : s.writer.unwritten = [] := by rw [unwritten, hnil, List.drop_nil]
    -- all that the inner writer was offered is a prefix of this write
    have hoffers : Offers W s.writer.inner buf := by
      intro given hmem
      have hstart := h.offers given hmem
      unfold waiting at hstart
      cases hpassing : s.passing with
      | none =>
          rw [hpassing, Option.getD_none, hempty] at hstart
          rw [List.prefix_nil.mp hstart]
          exact ⟨_, List.nil_append _⟩
      | some passed =>
          rw [hpassing] at hstart
          rw [hrepolls passed hpassing]
          exact hstart
    have hstream : W.accepted s.writer.inner = before ++ s.taken := by
      rw [← h.stream, hempty, List.append_nil]
    have hwritten := hoffers.written generation
    rcases hpoll : W.pollWriteOperation s.writer.inner buf generation with
      ⟨inner, (error | count) | _⟩ <;> simp only [hpoll] at heq hwritten <;> cases heq
    · refine ⟨?_, h.capacity_eq, h.bound, h.begun, .of_nil hwritten.2, nofun⟩
      show W.accepted inner ++ s.writer.unwritten = before ++ (s.taken ++ [])
      rw [hwritten.1, List.append_nil]
      exact h.stream
    · refine ⟨?_, h.capacity_eq, h.bound, h.begun, .of_nil hwritten.2.1, nofun⟩
      show W.accepted inner ++ s.writer.unwritten = before ++ (s.taken ++ buf.take count)
      rw [hwritten.1, hstream, hempty, List.append_nil, List.append_assoc]
    · refine ⟨?_, h.capacity_eq, h.bound, h.begun, ?_, ?_⟩
      · show W.accepted inner ++ s.writer.unwritten = before ++ (s.taken ++ [])
        rw [hwritten.1, List.append_nil]
        exact h.stream
      · show Offers W inner ((if s.writer.buf = [] then some buf else none).getD _)
        rw [if_pos hnil]
        exact hwritten.2
      · intro given hgiven
        obtain ⟨-, hsome⟩ := Option.ite_none_right_eq_some.mp hgiven
        cases hsome
        exact ⟨hnil, hlarge⟩
  next hsmall =>
    cases heq
    rw [h.capacity_eq] at hsmall
    have hpassing : s.passing = none := by
      by_contra hsome
      obtain ⟨given, hgiven⟩ := Option.ne_none_iff_exists'.mp hsome
      have hlarge := (h.passes given hgiven).2
      rw [hrepolls given hgiven] at hsmall
      omega
    refine ⟨?_, h.capacity_eq, ?_, fun _ => ?_, ?_, nofun⟩
    · show W.accepted s.writer.inner ++ (s.writer.extend buf).unwritten =
        before ++ (s.taken ++ buf.take buf.length)
      rw [unwritten_extend, List.take_length, ← List.append_assoc, h.stream, List.append_assoc]
    · show (s.writer.buf ++ buf).length ≤ capacity
      rw [List.length_append]
      rcases hroom with hnil | hroom
      · rw [hnil, List.length_nil]
        omega
      · exact hroom
    · show s.writer.written < (s.writer.buf ++ buf).length
      rw [hunwritten, List.length_append]
      omega
    · show Offers W s.writer.inner (s.writer.extend buf).unwritten
      have hoffers := h.offers
      rw [waiting, hpassing] at hoffers
      rw [unwritten_extend]
      exact hoffers.mono (List.prefix_append ..)

theorem Transparent.withInner (h : Transparent W before capacity s) {inner : ω}
    (haccepted : W.accepted inner = W.accepted s.writer.inner)
    (hoffered : W.offered inner = W.offered s.writer.inner) :
    Transparent W before capacity { s with writer := { s.writer with inner } } := by
  refine ⟨?_, h.capacity_eq, h.bound, h.begun, ?_, h.passes⟩
  · show W.accepted inner ++ s.writer.unwritten = _
    rw [haccepted]
    exact h.stream
  · show Offers W inner s.waiting
    rw [Offers, hoffered]
    exact h.offers

/-- A write that does not get past the flush accepts nothing. -/
theorem Transparent.unanswered (h : Transparent W before capacity s) (hne : s.writer.buf ≠ [])
    {buf : List UInt8} {poll : Poll (Except IoError Nat)} (hnone : acceptedBytes buf poll = []) :
    Transparent W before capacity
      { writer := s.writer
        taken := s.taken ++ acceptedBytes buf poll
        passing := passingAfter s.writer buf poll } := by
  have hbefore : s.passing = none := by
    by_contra hsome
    obtain ⟨given, hgiven⟩ := Option.ne_none_iff_exists'.mp hsome
    exact hne (h.passes given hgiven).1
  have hafter : passingAfter s.writer buf poll = s.passing := by
    rw [hbefore]
    cases poll with
    | ready _ => rfl
    | pending => exact if_neg hne
  rw [hnone, List.append_nil, hafter]
  exact h

theorem Transparent.pollWrite (h : Transparent W before capacity s) {buf : List UInt8}
    {generation fresh : Generation} (hrepolls : ∀ given, s.passing = some given → buf = given)
    {r : BufWriter ω × Poll (Except IoError Nat)}
    (hpoll : s.writer.pollWriteOperation W.toAsyncWrite buf generation fresh = some r) :
    Transparent W before capacity
      { writer := r.1
        taken := s.taken ++ acceptedBytes buf r.2
        passing := passingAfter r.1 buf r.2 } := by
  unfold pollWriteOperation at hpoll
  split at hpoll
  next hnil =>
    cases hpoll
    subst hnil
    refine ⟨?_, h.capacity_eq, h.bound, h.begun, ?_, nofun⟩
    · show _ = before ++ (s.taken ++ [])
      rw [List.append_nil]
      exact h.stream
    · have hwaiting : s.waiting = s.writer.unwritten := by
        unfold waiting
        cases hpassing : s.passing with
        | none => rfl
        | some given =>
            rw [← hrepolls given hpassing, unwritten, (h.passes given hpassing).1, List.drop_nil]
            rfl
      show Offers W s.writer.inner s.writer.unwritten
      rw [← hwaiting]
      exact h.offers
  next hne =>
    split at hpoll
    next =>
      obtain ⟨⟨b, poll⟩, hflush, rfl⟩ := Option.map_eq_some_iff.mp hpoll
      obtain ⟨hkept, hempty⟩ := h.flush hflush
      rcases poll with (error | ⟨⟩) | _
      · refine hkept.unanswered (fun hnil => ?_) rfl
        cases hempty.mp hnil
      · have hnil : b.buf = [] := hempty.mpr rfl
        have hunwritten : b.written = 0 := by
          have hle := b.written_le
          rw [hnil] at hle
          exact Nat.le_zero.mp hle
        exact hkept.passOrBuffer hne (Or.inl hnil) hunwritten hrepolls _ _ rfl
      · refine hkept.unanswered (fun hnil => ?_) rfl
        cases hempty.mp hnil
    next hroom =>
      cases hpoll
      have hbound := h.bound
      have hcapacity := h.capacity_eq
      exact h.passOrBuffer hne (Or.inr (by omega)) (by omega) hrepolls _ _ rfl

theorem Transparent.pollFlush (h : Transparent W before capacity s) {fresh : Generation}
    {r : BufWriter ω × Poll (Except IoError Unit)}
    (hpoll : s.writer.pollFlush W.toAsyncWrite fresh = some r) :
    Transparent W before capacity { s with writer := r.1 } ∧
      (r.2 = .ready (.ok ()) → r.1.buf = []) := by
  obtain ⟨⟨b, poll⟩, hflush, rfl⟩ := Option.map_eq_some_iff.mp hpoll
  obtain ⟨hkept, hempty⟩ := h.flush hflush
  rcases poll with (error | ⟨⟩) | _
  · exact ⟨hkept, nofun⟩
  · obtain ⟨haccepted, hoffered⟩ := W.pollFlush_eq b.inner
    exact ⟨hkept.withInner haccepted hoffered, fun _ => hempty.mpr rfl⟩
  · exact ⟨hkept, nofun⟩

theorem Transparent.pollClose (h : Transparent W before capacity s) {fresh : Generation}
    {r : BufWriter ω × Poll (Except IoError Unit)}
    (hpoll : s.writer.pollClose W.toAsyncWrite fresh = some r) :
    Transparent W before capacity { s with writer := r.1 } := by
  obtain ⟨⟨b, poll⟩, hflush, rfl⟩ := Option.map_eq_some_iff.mp hpoll
  obtain ⟨hkept, -⟩ := h.flush hflush
  rcases poll with (error | ⟨⟩) | _
  · exact hkept
  · obtain ⟨haccepted, hoffered⟩ := W.pollClose_eq b.inner
    exact hkept.withInner haccepted hoffered
  · exact hkept

theorem Transparent.step {call : Call} (h : Transparent W before capacity s)
    (hrepolls : s.Repolls call) (hstep : s.step W.toAsyncWrite call = some s') :
    Transparent W before capacity s' := by
  cases call with
  | pollWrite buf generation fresh =>
      obtain ⟨r, hpoll, rfl⟩ := Option.map_eq_some_iff.mp hstep
      exact h.pollWrite hrepolls hpoll
  | pollFlush fresh =>
      obtain ⟨r, hpoll, rfl⟩ := Option.map_eq_some_iff.mp hstep
      exact (h.pollFlush hpoll).1
  | pollClose fresh =>
      obtain ⟨r, hpoll, rfl⟩ := Option.map_eq_some_iff.mp hstep
      exact h.pollClose hpoll

theorem isSome_step (W : RetainingWrite ω) (s : Session ω) (call : Call) :
    (s.step W.toAsyncWrite call).isSome := by
  have hflush : ∀ fresh, (s.writer.pollFlushBuf W.toAsyncWrite fresh).isSome := fun fresh =>
    Option.isSome_iff_exists.mpr (exists_flushLoop W fresh s.writer (Nat.lt_succ_self _))
  cases call with
  | pollWrite buf generation fresh =>
      unfold Session.step
      rw [Option.isSome_map]
      unfold pollWriteOperation
      split
      · rfl
      split
      · rw [Option.isSome_map]
        exact hflush fresh
      · rfl
  | pollFlush fresh =>
      unfold Session.step
      rw [Option.isSome_map, BufWriter.pollFlush, Option.isSome_map]
      exact hflush fresh
  | pollClose fresh =>
      unfold Session.step
      rw [Option.isSome_map, BufWriter.pollClose, Option.isSome_map]
      exact hflush fresh

/-- Over a writer that is not in the middle of a write, in every state that any
polls reach: what the inner writer has accepted and then what is unwritten is
what was accepted before and then what the `BufWriter` has taken.  The buffer is
within its capacity, any call returns, and a flush that succeeds leaves nothing
buffered. -/
theorem bufWriter_transparent_of_reachable (W : RetainingWrite ω) {inner : ω} {capacity : Nat}
    (hfresh : W.offered inner = [])
    (hreach : Reachable (Session.step W.toAsyncWrite) Repolls
      { writer := withCapacity capacity inner } s) :
    W.accepted s.writer.inner ++ s.writer.unwritten = W.accepted inner ++ s.taken ∧
      s.writer.buf.length ≤ s.writer.capacity ∧ s.writer.capacity = max capacity 1 ∧
      (∀ call, (s.step W.toAsyncWrite call).isSome) ∧
      ∀ fresh b', s.writer.pollFlush W.toAsyncWrite fresh = some (b', .ready (.ok ())) →
        b'.buf = [] := by
  have h : Transparent W (W.accepted inner) (max capacity 1) s := by
    exact hreach.invariant _ ⟨rfl, rfl, Nat.zero_le _, fun hne => absurd rfl hne, .of_nil hfresh,
      fun _ hsome => (Option.some_ne_none _ hsome.symm).elim⟩ fun _ _ _ h hok hstep => h.step hok hstep
  refine ⟨h.stream, ?_, h.capacity_eq, isSome_step W s, fun fresh b' hpoll =>
    (h.pollFlush hpoll).2 rfl⟩
  rw [h.capacity_eq]
  exact h.bound

end Session

instance (s : Session ω) (call : Call) : Decidable (s.Repolls call) :=
  match call with
  | .pollWrite buf _ _ =>
      match hpassing : s.passing with
      | none => isTrue fun _ hgiven => (Option.some_ne_none _ (hgiven.symm.trans hpassing)).elim
      | some given => decidable_of_iff (buf = given)
          ⟨fun heq _ hgiven => heq.trans (Option.some.inj (hpassing.symm.trans hgiven)),
            fun h => h given hpassing⟩
  | .pollFlush _ => isTrue trivial
  | .pollClose _ => isTrue trivial

/-- A flush is abandoned while the inner writer waits, two bytes are buffered
behind the three it was offered, a flush fails in between, and half of a write of
six is passed through. -/
theorem transparent_sink :
    ∃ s : Session Sink, s.taken = [1, 2, 3, 4, 5, 6, 7, 8] ∧ s.writer.unwritten = [] ∧
      s.writer.inner.accepted = s.taken := by
  obtain ⟨s, hreach, hp⟩ := Reachable.exists_of_guarded (Session.step Sink.writer.toAsyncWrite)
    Session.Repolls
    { writer := withCapacity 5 ⟨[.pending, .ready (.ok 2), .pending, .ready (.error writeZeroError),
        .pending, .ready (.ok 9), .pending, .ready (.ok 3)], [], []⟩ }
    [.pollWrite [1, 2, 3] 0 1, .pollFlush 2, .pollWrite [4, 5] 0 3, .pollFlush 4, .pollFlush 5,
      .pollFlush 6, .pollFlush 7, .pollWrite [6, 7, 8, 9, 10, 11] 0 8,
      .pollWrite [6, 7, 8, 9, 10, 11] 0 9]
    (fun s => s.taken = [1, 2, 3, 4, 5, 6, 7, 8] ∧ s.writer.unwritten = [])
    (by decide +kernel)
  obtain ⟨htaken, hunwritten⟩ := of_decide_eq_true hp
  obtain ⟨hstream, -⟩ := Session.bufWriter_transparent_of_reachable Sink.writer rfl hreach
  rw [hunwritten, List.append_nil] at hstream
  exact ⟨s, htaken, hunwritten, hstream⟩

end BufWriter

end Runite.Io
