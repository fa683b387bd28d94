import Runite.Stdio.Stdin
import Runite.Lib.Table
import Runite.Lib.Transition

/-!
# What handles of standard input hand out

`Accounted` says where every byte that went through the process-wide buffer is, in
every run.  That a line leaves nothing behind it in its handle is another matter:
`next_line` finishes an operation that a `read` has started and its caller has
abandoned, and such an operation does not stop at a newline.  `AtLine` is the
invariant of the runs in which no line meets one with more than a line in it.
-/

namespace Runite.Stdio

open Runite.Io Terminator Transition

/-! ## One poll -/

namespace Stdin

variable {stdin stdin' : Stdin} {state state' : State} {waker : Waker} {capacity : Nat}
  {stopAtNewline : Bool} {result : Poll (Except IoError (List UInt8))} {turn : LineTurn}

/-- A poll hands out from the rest of an earlier read, or it takes what the future of
the operation takes from the process-wide buffer. -/
theorem pollSlice_cases (hcapacity : capacity ≠ 0)
    (h : stdin.pollSlice state waker capacity stopAtNewline = (stdin', state', result)) :
    stdin'.buffer = stdin.buffer ∧
      (state' = state ∧ received result ++ stdin'.readState.rest = stdin.readState.rest ∨
        stdin.readState.overflow = none ∧
          received result ++ stdin'.readState.rest =
            state.buffer.take ((stdin.currentFuture capacity stopAtNewline).count state.buffer) ∧
          state'.buffer =
            state.buffer.drop
              ((stdin.currentFuture capacity stopAtNewline).count state.buffer)) := by
  unfold pollSlice at h
  by_cases hpolled : stdin.readState.shutdown.requested || stdin.readState.overflow.isSome
  · rw [if_pos hpolled] at h
    cases h
    exact ⟨rfl, .inl ⟨rfl, stdin.readState.received_pollSlice_of_not_polled hpolled _ _ _⟩⟩
  · rw [if_neg hpolled] at h
    obtain ⟨hshutdown, hoverflow⟩ : stdin.readState.shutdown.requested = false ∧
        stdin.readState.overflow = none := by simpa using hpolled
    obtain ⟨htaken, hleft⟩ :=
      (stdin.currentFuture capacity stopAtNewline).poll_takes state stdin.waiterId
    rw [← htaken, ← hleft]
    rcases hpoll : (stdin.currentFuture capacity stopAtNewline).poll state stdin.waiterId with
      ⟨state₁, (error | data) | _⟩
    all_goals
      simp only [hpoll] at h
      cases h
      refine ⟨rfl, .inr ⟨hoverflow, ?_, rfl⟩⟩
    · exact stdin.readState.received_pollSlice_resolve_of_not_ok hoverflow (by simp) _ _ _
    · exact stdin.readState.received_pollSlice_resolve hshutdown hoverflow hcapacity waker data none
    · exact stdin.readState.received_pollSlice_resolve_of_not_ok hoverflow (by simp) _ _ _

/-- A turn of `next_line` returns the line it has, or it polls: then it keeps what the
poll hands out, and returns what it has when that is nothing. -/
theorem nextLine_cases (h : stdin.nextLine state waker = (stdin', state', turn)) :
    (∃ index, stdin.buffer.findIdx? (· == newline) = some index ∧ state' = state ∧
      turn = .line (stdin.buffer.take (index + 1)) ∧
      stdin' = { stdin with buffer := stdin.buffer.drop (index + 1) }) ∨
    newline ∉ stdin.buffer ∧ ∃ stdin₁ result,
      stdin.pollSlice state waker readChunkBytes true = (stdin₁, state', result) ∧
      (turn = .line stdin₁.buffer ∧ received result = [] ∧
          stdin' = { stdin₁ with buffer := [] } ∨
        turn.handed = [] ∧ (∀ bytes, turn ≠ .line bytes) ∧
          stdin' = { stdin₁ with buffer := stdin₁.buffer ++ received result }) := by
  unfold nextLine at h
  cases hfind : stdin.buffer.findIdx? (· == newline) with
  | some index =>
      simp only [hfind] at h
      cases h
      exact .inl ⟨index, rfl, rfl, rfl, rfl⟩
  | none =>
      have hnotMem : newline ∉ stdin.buffer := fun hmem => by
        simpa using List.findIdx?_eq_none_iff.mp hfind newline hmem
      refine .inr ⟨hnotMem, ?_⟩
      have hbuffered : stdin.pollBuffered state waker readChunkBytes true =
          stdin.pollSlice state waker readChunkBytes true := by
        simp [pollBuffered, readChunkBytes]
      simp only [hfind, hbuffered] at h
      rcases hpoll : stdin.pollSlice state waker readChunkBytes true with
        ⟨stdin₁, state₁, (error | bytes) | _⟩
      · simp only [hpoll] at h
        cases h
        exact ⟨_, _, rfl, .inr ⟨rfl, by simp, by simp⟩⟩
      · simp only [hpoll] at h
        split at h
        next hempty =>
          have hnil : bytes = [] := List.isEmpty_iff.mp hempty
          split at h
          · cases h
            exact ⟨_, _, rfl, .inr ⟨rfl, by simp, by simp [hnil]⟩⟩
          · cases h
            exact ⟨_, _, rfl, .inl ⟨rfl, hnil, rfl⟩⟩
        next =>
          cases h
          exact ⟨_, _, rfl, .inr ⟨rfl, by simp, rfl⟩⟩
      · simp only [hpoll] at h
        cases h
        exact ⟨_, _, rfl, .inr ⟨rfl, by simp, by simp⟩⟩

/-! ## No byte is lost or handed out twice -/

/-- The handle has removed a front part of the process-wide buffer and added it to the
bytes that it holds; `handed` it has handed out from their front. -/
def Moved (stdin : Stdin) (state : State) (handed : List UInt8) (stdin' : Stdin)
    (state' : State) : Prop :=
  ∃ removed, state.buffer = removed ++ state'.buffer ∧
    handed ++ stdin'.held = stdin.held ++ removed

theorem pollSlice_moved (hcapacity : capacity ≠ 0)
    (h : stdin.pollSlice state waker capacity stopAtNewline = (stdin', state', result)) :
    ∃ removed, state.buffer = removed ++ state'.buffer ∧
      received result ++ stdin'.readState.rest = stdin.readState.rest ++ removed := by
  obtain ⟨-, ⟨rfl, hrest⟩ | ⟨hnone, htaken, hleft⟩⟩ := pollSlice_cases hcapacity h
  · exact ⟨[], rfl, by simpa using hrest⟩
  · have hrest : stdin.readState.rest = [] := by simp [ReadState.rest, hnone]
    refine ⟨received result ++ stdin'.readState.rest, ?_, by rw [hrest, List.nil_append]⟩
    rw [htaken, hleft, List.take_append_drop]

theorem read_moved (h : stdin.pollBuffered state waker capacity false = (stdin', state', result)) :
    Moved stdin state (received result) stdin' state' := by
  unfold pollBuffered at h
  by_cases hcapacity : capacity = 0
  · rw [if_pos hcapacity] at h
    cases h
    exact ⟨[], rfl, by simp⟩
  rw [if_neg hcapacity] at h
  by_cases hempty : stdin.buffer.isEmpty
  · rw [if_neg (by simp [hempty])] at h
    obtain ⟨removed, hbuffer, hmoved⟩ := pollSlice_moved hcapacity h
    have hnil : stdin.buffer = [] := List.isEmpty_iff.mp hempty
    have hnil' : stdin'.buffer = [] := (pollSlice_cases hcapacity h).1.trans hnil
    refine ⟨removed, hbuffer, ?_⟩
    simpa [held, hnil, hnil'] using hmoved
  · rw [if_pos (by simp [hempty])] at h
    cases h
    refine ⟨[], rfl, ?_⟩
    simp [held, ← List.append_assoc]

theorem nextLine_moved (h : stdin.nextLine state waker = (stdin', state', turn)) :
    Moved stdin state turn.handed stdin' state' := by
  obtain ⟨index, -, rfl, rfl, rfl⟩ | ⟨-, stdin₁, result, hpoll, hturn⟩ := nextLine_cases h
  · refine ⟨[], rfl, ?_⟩
    simp [held, LineTurn.handed, ← List.append_assoc]
  · obtain ⟨removed, hbuffer, hmoved⟩ := pollSlice_moved (by decide) hpoll
    have hsame : stdin₁.buffer = stdin.buffer := (pollSlice_cases (by decide) hpoll).1
    refine ⟨removed, hbuffer, ?_⟩
    obtain ⟨rfl, hnone, rfl⟩ | ⟨hnone, -, rfl⟩ := hturn
    · rw [hnone] at hmoved
      simpa [held, LineTurn.handed, hsame] using hmoved
    · simp only [held, hnone, hsame, List.nil_append, List.append_assoc, hmoved]

/-! ## What is behind a line -/

/-- Nothing that the handle holds follows the newline of its line. -/
def AtLine (stdin : Stdin) : Prop :=
  Terminated newline stdin.buffer ∧ (newline ∈ stdin.buffer → stdin.readState.rest = [])

/-- The bytes that the handle is about to get end with their first newline: they are in
its line already, or left over from a read, or they come with an operation in flight. -/
def AwaitsLine (stdin : Stdin) (state : State) : Prop :=
  newline ∈ stdin.buffer ∨
    (∀ overflow ∈ stdin.readState.overflow, Terminated newline overflow.rest) ∧
      (stdin.readState.overflow = none → ∀ future ∈ stdin.future,
        future.stopAtNewline ∨ Terminated newline (state.buffer.take future.capacity))

instance : Decidable (AwaitsLine stdin state) :=
  inferInstanceAs (Decidable (_ ∨ _ ∧ _))

theorem pollSlice_terminated (hcapacity : capacity ≠ 0) (hawaits : AwaitsLine stdin state)
    (hnewline : newline ∉ stdin.buffer)
    (h : stdin.pollSlice state waker capacity true = (stdin', state', result)) :
    Terminated newline (received result ++ stdin'.readState.rest) := by
  obtain ⟨hleft, hcomes⟩ := hawaits.resolve_left hnewline
  obtain ⟨-, ⟨-, hrest⟩ | ⟨hnone, htaken, -⟩⟩ := pollSlice_cases hcapacity h
  · rw [hrest, ReadState.rest]
    cases hoverflow : stdin.readState.overflow with
    | none => exact .nil
    | some overflow => exact hleft overflow hoverflow
  · rw [htaken, currentFuture]
    cases hfuture : stdin.future with
    | none => exact ReadFuture.terminated_of_stop _ rfl _
    | some future =>
        cases hstop : future.stopAtNewline with
        | true => exact ReadFuture.terminated_of_stop _ hstop _
        | false =>
            rw [Option.getD_some, ReadFuture.take_count_of_not_stop _ hstop]
            exact (hcomes hnone future hfuture).resolve_left (by simp [hstop])

theorem read_atLine (hline : AtLine stdin)
    (h : stdin.pollBuffered state waker capacity false = (stdin', state', result)) :
    AtLine stdin' := by
  unfold pollBuffered at h
  by_cases hcapacity : capacity = 0
  · rw [if_pos hcapacity] at h
    cases h
    exact hline
  rw [if_neg hcapacity] at h
  by_cases hempty : stdin.buffer.isEmpty
  · rw [if_neg (by simp [hempty])] at h
    have hnil : stdin'.buffer = [] :=
      (pollSlice_cases hcapacity h).1.trans (List.isEmpty_iff.mp hempty)
    rw [AtLine, hnil]
    exact ⟨.nil, by simp⟩
  · rw [if_pos (by simp [hempty])] at h
    cases h
    exact ⟨hline.1.drop _, fun hmem => hline.2 (List.mem_of_mem_drop hmem)⟩

/-- A line that is returned leaves nothing behind it, and a turn that goes on keeps
what it has in order. -/
theorem nextLine_atLine (hline : AtLine stdin) (hawaits : AwaitsLine stdin state)
    (h : stdin.nextLine state waker = (stdin', state', turn)) :
    AtLine stdin' ∧ ∀ bytes, turn = .line bytes → newline ∈ bytes → stdin'.held = [] := by
  obtain ⟨index, hfind, rfl, rfl, rfl⟩ | ⟨hnotMem, stdin₁, result, hpoll, hturn⟩ :=
    nextLine_cases h
  · have hmem : newline ∈ stdin.buffer := by
      obtain ⟨hlt, heq, -⟩ := List.findIdx?_eq_some_iff_getElem.mp hfind
      rw [← eq_of_beq heq]
      exact List.getElem_mem hlt
    have hdrop := hline.1.drop_of_findIdx? hfind
    have hrest := hline.2 hmem
    exact ⟨⟨hline.1.drop _, fun _ => hrest⟩, fun _ _ _ => by simp [held, hdrop, hrest]⟩
  · have hsame : stdin₁.buffer = stdin.buffer := (pollSlice_cases (by decide) hpoll).1
    obtain ⟨rfl, -, rfl⟩ | ⟨-, hnone, rfl⟩ := hturn
    · refine ⟨⟨.nil, by simp⟩, fun bytes heq hmem => ?_⟩
      cases heq
      exact absurd (hsame ▸ hmem) hnotMem
    · refine ⟨?_, fun bytes heq => absurd heq (hnone bytes)⟩
      have hterminated := pollSlice_terminated (by decide) hawaits hnotMem hpoll
      obtain ⟨hreceived, -, hbehind⟩ := terminated_append_iff.mp hterminated
      rw [AtLine, hsame]
      refine ⟨terminated_append_iff.mpr ⟨.of_notMem hnotMem, hreceived, ?_⟩, fun hmem => ?_⟩
      · exact fun hmem => absurd hmem hnotMem
      · exact hbehind ((List.mem_append.mp hmem).resolve_left hnotMem)

end Stdin

/-! ## Every run -/

namespace Process

variable {s s' : Process} {a : Action} {index : Nat} {handle : Handle} {stdin : Stdin}
  {state : State} {handed : List UInt8} {looping : Bool}

/-- The reader thread and the handoffs add to the process-wide buffer at most; a handle
is opened, dropped, or polled. -/
theorem step_cases (hstep : s.step a = some s') :
    (∃ bytes, s'.state.buffer = s.state.buffer ++ bytes ∧ s'.appended = s.appended ++ bytes ∧
      s'.handles = s.handles ∧ s'.removed = s.removed ∧ s'.lines = s.lines) ∨
    (∃ waiterId, s' = { s with handles := s.handles ++ [{ stdin := { waiterId } }] }) ∨
    (∃ index handle state, s.handles[index]? = some handle ∧ state.buffer = s.state.buffer ∧
      s' = { s with state, handles := s.handles.set index { handle with dropped := true } }) ∨
    (∃ index handle waker capacity, s.handles[index]? = some handle ∧
      s' = s.read index handle waker capacity) ∨
    (∃ index handle waker, a = .nextLine index waker ∧ s.handles[index]? = some handle ∧
      s' = s.nextLine index handle waker) := by
  cases a with
  | readCapacity =>
      simp only [Process.step] at hstep
      split at hstep
      · split at hstep <;> cases hstep <;> exact .inl ⟨[], by simp⟩
      · cases hstep
  | append bytes =>
      simp only [Process.step] at hstep
      split at hstep
      · split at hstep
        · cases hstep
          exact .inl ⟨_, s.state.append_buffer bytes, rfl, rfl, rfl, rfl⟩
        · cases hstep
      · cases hstep
  | readInterrupted | stop outcome | finish =>
      simp only [Process.step] at hstep
      split at hstep
      · cases hstep
        exact .inl ⟨[], by simp⟩
      · cases hstep
  | requestShutdown | beginHandoff rejectActive =>
      simp only [Process.step] at hstep
      cases hstep
      exact .inl ⟨[], by simp⟩
  | handoffTimeout | endHandoff =>
      simp only [Process.step] at hstep
      split at hstep
      · cases hstep
        exact .inl ⟨[], by simp⟩
      · cases hstep
  | «open» =>
      cases hstep
      exact .inr (.inl ⟨_, rfl⟩)
  | drop index =>
      simp only [Process.step] at hstep
      split at hstep
      next handle hhandle =>
        split at hstep
        · cases hstep
        · cases hstep
          exact .inr (.inr (.inl ⟨index, handle, _, hhandle, s.state.abandon_buffer _, rfl⟩))
      next => cases hstep
  | read index waker capacity =>
      simp only [Process.step] at hstep
      split at hstep
      next handle hhandle =>
        split at hstep
        · cases hstep
        · cases hstep
          exact .inr (.inr (.inr (.inl ⟨index, handle, waker, capacity, hhandle, rfl⟩)))
      next => cases hstep
  | nextLine index waker =>
      simp only [Process.step] at hstep
      split at hstep
      next handle hhandle =>
        split at hstep
        · cases hstep
        · cases hstep
          exact .inr (.inr (.inr (.inr ⟨index, handle, waker, rfl, hhandle, rfl⟩)))
      next => cases hstep

theorem nextLine_eq (s : Process) (index : Nat) (handle : Handle) (waker : Waker) :
    ∃ stdin state turn, handle.stdin.nextLine s.state waker = (stdin, state, turn) ∧
      ((∀ bytes, turn ≠ .line bytes) ∧
          s.nextLine index handle waker =
            s.polled index handle stdin state turn.handed (turn = .again) ∨
        ∃ bytes, turn = .line bytes ∧
          s.nextLine index handle waker =
            (s.polled index handle stdin state turn.handed (turn = .again)).returned index stdin
              bytes) := by
  rcases hturn : handle.stdin.nextLine s.state waker with ⟨stdin, state, turn⟩
  refine ⟨stdin, state, turn, rfl, ?_⟩
  unfold Process.nextLine
  simp only [hturn]
  cases turn with
  | line bytes => exact .inr ⟨bytes, rfl, rfl⟩
  | endOfInput | failed error | again | pending => exact .inl ⟨by simp, rfl⟩

/-- Where the bytes are that went through the process-wide buffer. -/
structure Accounted (s : Process) : Prop where
  stream : s.appended = s.removed.flatMap Prod.snd ++ s.state.buffer
  handles : ∀ index handle, s.handles[index]? = some handle →
    handle.handedOut ++ handle.stdin.held = s.removedBy index
  unopened : ∀ entry ∈ s.removed, entry.1 < s.handles.length

/-- What the handles are asked for does not depend on the reader thread. -/
theorem Accounted.appended (h : Accounted s) (bytes : List UInt8)
    (hbuffer : s'.state.buffer = s.state.buffer ++ bytes)
    (happended : s'.appended = s.appended ++ bytes) (hhandles : s'.handles = s.handles)
    (hremoved : s'.removed = s.removed) : Accounted s' where
  stream := by rw [happended, hremoved, hbuffer, h.stream, List.append_assoc]
  handles := by
    rw [hhandles]
    intro index handle hhandle
    rw [h.handles index handle hhandle, removedBy, removedBy, hremoved]
  unopened := by
    rw [hremoved, hhandles]
    exact h.unopened

theorem Accounted.opened (h : Accounted s) (waiterId : Nat) :
    Accounted { s with handles := s.handles ++ [{ stdin := { waiterId } }] } where
  stream := h.stream
  handles := by
    intro index handle hhandle
    obtain hold | ⟨rfl, rfl⟩ := Table.getElem?_concat_eq_some.mp hhandle
    · exact h.handles index handle hold
    · -- no entry of the history is about the new handle
      have hnone : s.removed.filter (·.1 == s.handles.length) = [] := by
        rw [List.filter_eq_nil_iff]
        intro entry hmem
        have hlt := h.unopened entry hmem
        simp
        omega
      simp [removedBy, hnone, Stdin.held, ReadState.rest]
  unopened := by
    intro entry hmem
    have hlt := h.unopened entry hmem
    simp
    omega

theorem Accounted.dropped (h : Accounted s) (hhandle : s.handles[index]? = some handle)
    (hbuffer : state.buffer = s.state.buffer) :
    Accounted { s with state, handles := s.handles.set index { handle with dropped := true } } where
  stream := by rw [h.stream, hbuffer]
  handles := by
    intro other handle' hother
    obtain ⟨rfl, rfl⟩ | ⟨-, hold⟩ := (Table.getElem?_set_eq_some hhandle).mp hother
    · exact h.handles other handle hhandle
    · exact h.handles other handle' hold
  unopened := by
    intro entry hmem
    rw [List.length_set]
    exact h.unopened entry hmem

theorem Accounted.polled (h : Accounted s) (hhandle : s.handles[index]? = some handle)
    (hmoved : Stdin.Moved handle.stdin s.state handed stdin state) :
    Accounted (s.polled index handle stdin state handed looping) := by
  obtain ⟨removed, hbuffer, hheld⟩ := hmoved
  have hremoved : s.state.buffer.take (s.state.buffer.length - state.buffer.length) = removed := by
    rw [hbuffer, List.length_append, Nat.add_sub_cancel, List.take_left]
  refine ⟨?_, ?_, ?_⟩
  · simp only [Process.polled, hremoved, List.flatMap_append, List.flatMap_cons, List.flatMap_nil,
      List.append_nil, List.append_assoc, ← hbuffer]
    exact h.stream
  · intro other handle' hother
    obtain ⟨rfl, rfl⟩ | ⟨hne, hold⟩ := (Table.getElem?_set_eq_some hhandle).mp hother
    · have hbefore := h.handles other handle hhandle
      simp only [removedBy, Process.polled, hremoved, List.filter_append, List.flatMap_append]
      simp only [removedBy] at hbefore
      rw [List.append_assoc, hheld, ← List.append_assoc, hbefore]
      simp
    · have hbefore := h.handles other handle' hold
      have hother : (index == other) = false := by simpa using fun heq => hne heq.symm
      simpa [removedBy, Process.polled, hother] using hbefore
  · intro entry hmem
    have hlt : index < s.handles.length := (List.getElem?_eq_some_iff.mp hhandle).1
    simp only [Process.polled, List.length_set] at hmem ⊢
    obtain hold | hnew := List.mem_append.mp hmem
    · exact h.unopened entry hold
    · rw [List.mem_singleton.mp hnew]
      exact hlt

theorem Accounted.returned {bytes : List UInt8} (h : Accounted s) :
    Accounted (s.returned index stdin bytes) :=
  ⟨h.stream, h.handles, h.unopened⟩

theorem Accounted.step (h : Accounted s) (hstep : s.step a = some s') : Accounted s' := by
  obtain ⟨bytes, hbuffer, happended, hhandles, hremoved, -⟩ | ⟨waiterId, rfl⟩ |
    ⟨index, handle, state, hhandle, hbuffer, rfl⟩ |
    ⟨index, handle, waker, capacity, hhandle, rfl⟩ | ⟨index, handle, waker, -, hhandle, rfl⟩ :=
    step_cases hstep
  · exact h.appended bytes hbuffer happended hhandles hremoved
  · exact h.opened waiterId
  · exact h.dropped hhandle hbuffer
  · exact h.polled hhandle (Stdin.read_moved rfl)
  · obtain ⟨stdin, state, turn, hturn, ⟨-, heq⟩ | ⟨bytes, -, heq⟩⟩ :=
      s.nextLine_eq index handle waker
    · rw [heq]
      exact h.polled hhandle (Stdin.nextLine_moved hturn)
    · rw [heq]
      exact (h.polled hhandle (Stdin.nextLine_moved hturn)).returned

/-! ## Runs in which a line meets no more than a line -/

/-- A `next_line` does not go on with bytes that have a newline before their end. -/
def MeetsLine (s : Process) : Action → Prop
  | .nextLine index _ => ∀ handle ∈ s.handles[index]?, Stdin.AwaitsLine handle.stdin s.state
  | _ => True

instance (s : Process) (a : Action) : Decidable (MeetsLine s a) :=
  match a with
  | .nextLine index _ =>
      inferInstanceAs (Decidable (∀ handle ∈ s.handles[index]?, _))
  | .readCapacity | .readInterrupted | .append _ | .stop _ | .finish | .requestShutdown
  | .beginHandoff _ | .handoffTimeout | .endHandoff | .open | .read _ _ _ | .drop _ =>
      inferInstanceAs (Decidable True)

/-- No line that was returned, and none that is under way, has left a byte behind it. -/
structure LinesEnd (s : Process) : Prop where
  handles : ∀ handle ∈ s.handles, Stdin.AtLine handle.stdin
  lines : ∀ line ∈ s.lines, newline ∈ line.bytes → line.held = []

theorem LinesEnd.polled (h : LinesEnd s) (hline : Stdin.AtLine stdin) :
    LinesEnd (s.polled index handle stdin state handed looping) where
  handles := by
    intro other hother
    obtain hmem | rfl := List.mem_or_eq_of_mem_set hother
    · exact h.handles other hmem
    · exact hline
  lines := h.lines

theorem LinesEnd.returned {bytes : List UInt8} (h : LinesEnd s)
    (hheld : newline ∈ bytes → stdin.held = []) : LinesEnd (s.returned index stdin bytes) where
  handles := h.handles
  lines := by
    intro line hmem
    obtain hold | hnew := List.mem_append.mp hmem
    · exact h.lines line hold
    · rw [List.mem_singleton.mp hnew]
      exact hheld

theorem LinesEnd.step (h : LinesEnd s) (hmeets : MeetsLine s a) (hstep : s.step a = some s') :
    LinesEnd s' := by
  obtain ⟨bytes, -, -, hhandles, -, hlines⟩ | ⟨waiterId, rfl⟩ |
    ⟨index, handle, state, hhandle, -, rfl⟩ |
    ⟨index, handle, waker, capacity, hhandle, rfl⟩ | ⟨index, handle, waker, rfl, hhandle, rfl⟩ :=
    step_cases hstep
  · exact ⟨hhandles ▸ h.handles, hlines ▸ h.lines⟩
  · refine ⟨?_, h.lines⟩
    intro handle hmem
    obtain hold | hnew := List.mem_append.mp hmem
    · exact h.handles handle hold
    · rw [List.mem_singleton.mp hnew]
      exact ⟨.nil, by simp⟩
  · refine ⟨?_, h.lines⟩
    intro other hother
    obtain hmem | rfl := List.mem_or_eq_of_mem_set hother
    · exact h.handles other hmem
    · exact h.handles handle (List.mem_of_getElem? hhandle)
  · exact h.polled (Stdin.read_atLine (h.handles handle (List.mem_of_getElem? hhandle)) rfl)
  · obtain ⟨stdin, state, turn, hturn, hreturn⟩ := s.nextLine_eq index handle waker
    obtain ⟨hline, hbehind⟩ := Stdin.nextLine_atLine
      (h.handles handle (List.mem_of_getElem? hhandle)) (hmeets handle hhandle) hturn
    obtain ⟨-, heq⟩ | ⟨bytes, rfl, heq⟩ := hreturn
    · rw [heq]
      exact h.polled hline
    · rw [heq]
      exact (h.polled hline).returned (hbehind bytes rfl)

/-- In every run the bytes that a handle has handed out and those that it holds are the
bytes that it has removed from the process-wide buffer, in their order.  When no
`next_line` goes on with bytes that have a newline before their end, a line that ends
in a newline leaves nothing behind it in its handle. -/
theorem shared_of_reachable (s : Process) (hreach : Reachable step (fun _ _ => True) {} s) :
    (s.appended = s.removed.flatMap Prod.snd ++ s.state.buffer ∧
      ∀ index handle, s.handles[index]? = some handle →
        handle.handedOut ++ handle.stdin.held = s.removedBy index) ∧
    (Reachable step MeetsLine {} s →
      ∀ line ∈ s.lines, line.bytes.getLast? = some newline → line.held = []) := by
  constructor
  · have h : Accounted s := by
      apply hreach.invariant Accounted
      · exact ⟨rfl, by simp, by simp⟩
      · exact fun s a s' h _ hstep => h.step hstep
    exact ⟨h.stream, h.handles⟩
  · intro hmeets line hmem hlast
    have h : LinesEnd s := by
      apply hmeets.invariant LinesEnd
      · exact ⟨by simp, by simp⟩
      · exact fun s a s' h hok hstep => h.step hok hstep
    exact h.lines line hmem (List.mem_of_getLast? hlast)

/-- Two handles take turns: the second gets the line that follows. -/
def twoHandles : List Action :=
  [.open, .open, .nextLine 0 1, .nextLine 1 2, .readCapacity, .append [97, 10, 98, 10],
    .nextLine 0 1, .nextLine 0 1, .nextLine 1 2, .nextLine 1 2]

theorem shared_twoHandles :
    ∃ s, Reachable step MeetsLine {} s ∧
      s.removedBy 0 = [97, 10] ∧ s.removedBy 1 = [98, 10] ∧
      s.handles.map Handle.handedOut = [[97, 10], [98, 10]] ∧
      (∀ line ∈ s.lines, line.bytes.getLast? = some newline → line.held = []) ∧
      s.appended = s.removed.flatMap Prod.snd ++ s.state.buffer := by
  obtain ⟨s, hreach, hp⟩ := Reachable.exists_of_guarded step MeetsLine {} twoHandles
    (fun s => decide (s.removedBy 0 = [97, 10] ∧ s.removedBy 1 = [98, 10] ∧
      s.handles.map Handle.handedOut = [[97, 10], [98, 10]])) (by decide)
  obtain ⟨hfirst, hsecond, hhanded⟩ := of_decide_eq_true hp
  obtain ⟨⟨hstream, -⟩, hlines⟩ := shared_of_reachable s (hreach.mono fun _ _ _ => trivial)
  exact ⟨s, hreach, hfirst, hsecond, hhanded, hlines hreach, hstream⟩

/-- A `read` of eight bytes is abandoned while it waits, `ab\ncd` arrives, and a
`next_line` of the same handle returns `ab\n`. -/
def abandonedRead : List Action :=
  [.open, .read 0 1 8, .readCapacity, .append [97, 98, 10, 99, 100], .nextLine 0 1, .nextLine 0 1]

/-- The handle has `cd` then, and the process-wide buffer has not. -/
theorem line_keeps_what_follows :
    ∃ s, Reachable step (fun _ _ => True) {} s ∧ s.state.buffer = [] ∧
      ∃ line ∈ s.lines, line.bytes = [97, 98, 10] ∧ line.bytes.getLast? = some newline ∧
        line.held = [99, 100] := by
  obtain ⟨s, hreach, hp⟩ := Reachable.exists_of_run step (fun _ _ => True) {} abandonedRead
    (fun s => decide (s.state.buffer = [] ∧ ∃ line ∈ s.lines, line.bytes = [97, 98, 10] ∧
      line.bytes.getLast? = some newline ∧ line.held = [99, 100])) (by simp) (by decide)
  exact ⟨s, hreach, of_decide_eq_true hp⟩

end Process

end Runite.Stdio
