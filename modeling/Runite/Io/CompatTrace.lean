import Runite.Io.Compat
import Runite.Lib.Chronicle

/-!
# What the inner writer of an adapter sees

The polls that reach the inner writer, in order.  From them alone: what it has
accepted, which buffer is retained with how much of it left, and which write has
failed.  The polls of an adapter go on with the retained buffer until it is
written, and only then start another one, flush, close or seek.
-/

namespace Runite.Io

open Fs

/-- A poll that reached the inner writer. -/
inductive InnerPoll
  | write (buf : List UInt8) (generation : Generation) (answer : Poll (Except IoError Nat))
  | flush
  | close
  | seek (position : SeekFrom)
  deriving DecidableEq

namespace InnerPoll

def generation : InnerPoll → Option Generation
  | .write _ generation _ => some generation
  | .flush => none
  | .close => none
  | .seek _ => none

/-- The bytes that the inner writer accepts: `Ok(n)` stands for the first `n`. -/
def accepted : InnerPoll → List UInt8
  | .write buf _ (.ready (.ok count)) => buf.take count
  | .write _ _ (.ready (.error _)) => []
  | .write _ _ .pending => []
  | .flush => []
  | .close => []
  | .seek _ => []

/-- The error that a write fails with: that of the inner writer, or that of a
count that is zero or too large. -/
def failure : InnerPoll → Option IoError
  | .write buf _ (.ready (.ok count)) =>
      if count = 0 then some compatWriteZero
      else if buf.length < count then some compatOverrun
      else none
  | .write _ _ (.ready (.error error)) => some error
  | .write _ _ .pending => none
  | .flush => none
  | .close => none
  | .seek _ => none

/-- A write and the bytes that are left of it. -/
abbrev Retained := Option (Generation × List UInt8)

def after (retained : Retained) : InnerPoll → Retained
  | .write buf generation (.ready (.ok count)) =>
      if count = 0 ∨ buf.length ≤ count then none else some (generation, buf.drop count)
  | .write _ _ (.ready (.error _)) => none
  | .write buf generation .pending => some (generation, buf)
  | .flush => retained
  | .close => retained
  | .seek _ => retained

/-- What is retained after the polls of a trace. -/
def retained (trace : List InnerPoll) : Retained := trace.foldl after none

/-- A poll goes on with what is retained, or nothing is retained: then it may
start a write that was not seen before. -/
def Allowed (trace : List InnerPoll) : InnerPoll → Prop
  | .write buf generation _ => retained trace = some (generation, buf) ∨
      retained trace = none ∧ ∀ poll ∈ trace, poll.generation ≠ some generation
  | .flush => retained trace = none
  | .close => retained trace = none
  | .seek _ => retained trace = none

/-- A poll of something else than a write. -/
def Barrier : InnerPoll → Prop
  | .write _ _ _ => False
  | .flush => True
  | .close => True
  | .seek _ => True

variable {trace : List InnerPoll} {poll : InnerPoll} {generation : Generation}

theorem Barrier.facts (h : poll.Barrier) :
    (∀ trace, Allowed trace poll ↔ retained trace = none) ∧
      (∀ retained, after retained poll = retained) ∧ poll.accepted = [] ∧ poll.failure = none ∧
        poll.generation = none := by
  cases poll with
  | write buf generation answer => exact h.elim
  | flush => exact ⟨fun _ => Iff.rfl, fun _ => rfl, rfl, rfl, rfl⟩
  | close => exact ⟨fun _ => Iff.rfl, fun _ => rfl, rfl, rfl, rfl⟩
  | seek position => exact ⟨fun _ => Iff.rfl, fun _ => rfl, rfl, rfl, rfl⟩

theorem retained_append (trace : List InnerPoll) (poll : InnerPoll) :
    retained (trace ++ [poll]) = after (retained trace) poll := by
  rw [retained, List.foldl_append]
  rfl

/-- What is left of a write depends on its answer alone. -/
theorem after_write (retained : Retained) (buf : List UInt8) (generation : Generation)
    (answer : Poll (Except IoError Nat)) :
    after retained (.write buf generation answer) = after none (.write buf generation answer) := by
  rcases answer with (error | count) | _ <;> rfl

/-- A poll leaves its own write retained, or none, or what was retained. -/
theorem generation_after {retained : Retained} {generation : Generation} {rest : List UInt8}
    (h : after retained poll = some (generation, rest)) :
    poll.generation = some generation ∨ retained = some (generation, rest) := by
  cases poll with
  | write buf other answer =>
      left
      rcases answer with (error | count) | _
      · cases h
      · obtain ⟨-, heq⟩ := Option.ite_none_left_eq_some.mp h
        cases heq
        rfl
      · cases h
        rfl
  | flush => exact Or.inr h
  | close => exact Or.inr h
  | seek position => exact Or.inr h

theorem exists_of_retained {rest : List UInt8} (h : retained trace = some (generation, rest)) :
    ∃ poll ∈ trace, poll.generation = some generation := by
  induction trace using List.reverseRecOn with
  | nil => cases h
  | append_singleton trace poll ih =>
      rw [retained_append] at h
      rcases generation_after h with hpoll | hretained
      · exact ⟨poll, by simp, hpoll⟩
      · obtain ⟨earlier, hmem, hgeneration⟩ := ih hretained
        exact ⟨earlier, List.mem_append_left _ hmem, hgeneration⟩

theorem after_of_failure {retained : Retained} {error : IoError}
    (h : poll.failure = some error) : after retained poll = none := by
  cases poll with
  | write buf other answer =>
      rcases answer with (inner | count) | _
      · rfl
      · change (if count = 0 then some compatWriteZero
          else if buf.length < count then some compatOverrun else none) = some error at h
        show (if count = 0 ∨ buf.length ≤ count then none else some (other, buf.drop count)) = none
        split at h
        next hzero => rw [if_pos (Or.inl hzero)]
        split at h
        next hover => rw [if_pos (Or.inr (Nat.le_of_lt hover))]
        next => cases h
      · cases h
  | flush => cases h
  | close => cases h
  | seek position => cases h

/-- A write that was polled and is not retained any more. -/
structure Over (generation : Generation) (trace : List InnerPoll) : Prop where
  polled : ∃ poll ∈ trace, poll.generation = some generation
  not_retained : ∀ rest, retained trace ≠ some (generation, rest)

theorem Over.ne (h : Over generation trace) (hallowed : Allowed trace poll) :
    poll.generation ≠ some generation := by
  cases poll with
  | write buf other answer =>
      rintro heq
      cases heq
      obtain ⟨earlier, hmem, hgeneration⟩ := h.polled
      rcases hallowed with hretained | ⟨-, hnew⟩
      · exact h.not_retained buf hretained
      · exact hnew earlier hmem hgeneration
  | flush => nofun
  | close => nofun
  | seek position => nofun

theorem Over.keep (h : Over generation trace) (hallowed : Allowed trace poll) :
    Over generation (trace ++ [poll]) := by
  obtain ⟨earlier, hmem, hgeneration⟩ := h.polled
  refine ⟨⟨earlier, List.mem_append_left _ hmem, hgeneration⟩, fun rest hretained => ?_⟩
  rw [retained_append] at hretained
  rcases generation_after hretained with hpoll | hbefore
  · exact h.ne hallowed hpoll
  · exact h.not_retained rest hbefore

theorem generation_ne_of_failure {pre post : List InnerPoll} {error : IoError}
    (h : Chronicle Allowed (pre ++ poll :: post)) (hfailure : poll.failure = some error)
    (hgeneration : poll.generation = some generation) :
    ∀ later ∈ post, later.generation ≠ some generation := by
  have hover : Over generation (pre ++ [poll]) := by
    refine ⟨⟨poll, by simp, hgeneration⟩, fun rest => ?_⟩
    rw [retained_append, after_of_failure hfailure]
    nofun
  intro later hmem
  obtain ⟨before, rest, rfl⟩ := List.append_of_mem hmem
  rw [← List.singleton_append, ← List.append_assoc] at h
  rw [← List.append_assoc] at h
  exact (Chronicle.forever (Over generation) (fun _ _ h hok => h.keep hok) h.of_append hover).ne
    h.allowed

end InnerPoll

end Runite.Io
