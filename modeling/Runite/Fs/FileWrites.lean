import Runite.Fs.File
import Runite.Io.WriteCredit

/-!
# Whose count a raw write of a file gets

The token of a handle outlives a raw write that is abandoned after `Pending`,
and with it the result of the operation it started.  `retainedResult` is that
result; the next raw write of the handle gets it, whatever buffer it brings.
-/

namespace Runite.Fs.Files

open Io Io.WriteState Transition

variable {f f' f₁ : Files} {file : Nat} {waker : Waker} {fresh g : Generation} {buf : Buf}
  {seek : Except IoError Unit} {start : Option (Except IoError Nat)} {poll : Poll (Reply Nat)}
  {w w' : WriteState}

/-! ## The writes of a file -/

/-- What holds of the `WriteState` of a file, which only tracked writes use. -/
structure Books (w : WriteState) : Prop where
  valid : w.Valid
  enrolled : w.Enrolled
  measured : w.Measured
  started_issued : ∀ g sub, (.operation g, sub) ∈ w.started → g ∈ w.issued

namespace Books

theorem init : Books {} := by
  refine ⟨.init, ⟨by simp, by simp⟩, ⟨by simp, by simp⟩, by simp⟩

theorem quiet {c : Call} {answer : Answer} (h : Books w) (hhonest : w.HonestCall c = true)
    (hcalled : Called w c w' answer) (hstarted : w'.started = w.started)
    (hissued : ∀ g ∈ w.issued, g ∈ w'.issued) : Books w' where
  valid := h.valid.called hcalled
  enrolled := h.enrolled.called hcalled
  measured := h.measured.called hhonest hcalled
  started_issued := by
    intro g sub hsub
    exact hissued g (h.started_issued g sub (hstarted ▸ hsub))

theorem written (h : Books w) (hlive : (w.live g).isSome = true)
    (hstart : atMost buf.bytes.length start = true)
    (hwritten : Written waker g buf start w w' poll) : Books w' where
  valid := h.valid.written hwritten
  enrolled := h.enrolled.of_sameTokens (.written hwritten)
  measured := h.measured.written hstart hwritten
  started_issued := by
    intro g' sub hsub
    rw [(SameTokens.written hwritten).issued]
    rcases hwritten.started with hstarted | hstarted
    · exact h.started_issued g' sub (hstarted ▸ hsub)
    · rw [hstarted] at hsub
      rcases List.mem_append.mp hsub with hsub | hsub
      · exact h.started_issued g' sub hsub
      · obtain ⟨rfl, -⟩ : g' = g ∧ _ := by simpa using hsub
        exact h.enrolled.live_issued g' hlive

theorem drained {drain : Poll Unit} (h : Books w) (hdrained : Drained waker w w' drain) :
    Books w' :=
  h.quiet rfl (.pollDrain hdrained) hdrained.started fun g hg => by
    rwa [(SameTokens.drained hdrained).issued]

theorem flushed {flush : Poll (Reply Unit)} (h : Books w) (hflushed : Flushed waker w w' flush) :
    Books w' :=
  h.quiet rfl (.pollFlush hflushed) hflushed.started fun g hg => by
    rwa [(SameTokens.flushed hflushed).issued]

theorem resultOf_of_fresh (h : Books w) (hfresh : g ∉ w.issued) : w.resultOf g = none := by
  have hcompleted : w.completed g = none := by
    cases hc : w.completed g with
    | none => rfl
    | some c =>
        have hstarted := h.valid.started_of_finished (h.valid.completed_finished g c hc)
        exact absurd (h.started_issued g _ hstarted) hfresh
  unfold resultOf
  rw [hcompleted, Option.none_or]
  cases hop : w.operation with
  | none => rfl
  | some p =>
      have hkind : p.kind ≠ .operation g := by
        intro hkind
        have hstarted : (.operation g, p.submission) ∈ w.started := by
          rw [h.valid.history]
          exact List.mem_append_right _ (by simp [hop, hkind])
        exact hfresh (h.started_issued g _ hstarted)
      simp [hkind]

end Books

/-! ## Who holds which token -/

/-- Every token is live, and has one holder. -/
structure Owned (f : Files) : Prop where
  handle_live : ∀ file g, f.handles file = some ⟨some g⟩ →
    isTrackedWrite g = true ∧ (f.cursor.write.live g).isSome = true
  operation_live : ∀ g ∈ f.operations,
    isTrackedWrite g = true ∧ (f.cursor.write.live g).isSome = true
  handle_unique : ∀ file file' g, f.handles file = some ⟨some g⟩ →
    f.handles file' = some ⟨some g⟩ → file = file'
  handle_operation : ∀ file g, f.handles file = some ⟨some g⟩ → g ∉ f.operations
  operations_nodup : f.operations.Nodup

structure Sound (f : Files) : Prop where
  books : Books f.cursor.write
  owned : Owned f

theorem Owned.congr (h : Owned f) (hhandles : f'.handles = f.handles)
    (hoperations : f'.operations = f.operations)
    (hlive : ∀ g, (f.cursor.write.live g).isSome = true →
      (f'.cursor.write.live g).isSome = true) : Owned f' where
  handle_live := by
    intro file g hg
    obtain ⟨htracked, hg'⟩ := h.handle_live file g (hhandles ▸ hg)
    exact ⟨htracked, hlive g hg'⟩
  operation_live := by
    intro g hg
    obtain ⟨htracked, hg'⟩ := h.operation_live g (hoperations ▸ hg)
    exact ⟨htracked, hlive g hg'⟩
  handle_unique := hhandles ▸ h.handle_unique
  handle_operation := by
    rw [hhandles, hoperations]
    exact h.handle_operation
  operations_nodup := hoperations ▸ h.operations_nodup

theorem Owned.of_sameTokens (h : Owned f) (hhandles : f'.handles = f.handles)
    (hoperations : f'.operations = f.operations)
    (hsame : SameTokens f.cursor.write f'.cursor.write) : Owned f' :=
  h.congr hhandles hoperations fun g hg => by rwa [hsame.live]

theorem Owned.setHandle (h : Owned f) (htracked : isTrackedWrite g = true)
    (hlive : (f.cursor.write.live g).isSome = true) (hoperation : g ∉ f.operations)
    (hother : ∀ file', file' ≠ file → f.handles file' ≠ some ⟨some g⟩) :
    Owned (f.setHandle file (some ⟨some g⟩)) where
  handle_live := by
    intro file' g' hg'
    by_cases hfile : file' = file
    · obtain rfl : g = g' := by simpa [Files.setHandle, hfile] using hg'
      exact ⟨htracked, hlive⟩
    · exact h.handle_live file' g' (by simpa [Files.setHandle, hfile] using hg')
  operation_live := h.operation_live
  handle_unique := by
    intro file₁ file₂ g' h₁ h₂
    by_cases hfile₁ : file₁ = file <;> by_cases hfile₂ : file₂ = file
    · rw [hfile₁, hfile₂]
    · obtain rfl : g = g' := by simpa [Files.setHandle, hfile₁] using h₁
      exact absurd (by simpa [Files.setHandle, hfile₂] using h₂) (hother file₂ hfile₂)
    · obtain rfl : g = g' := by simpa [Files.setHandle, hfile₂] using h₂
      exact absurd (by simpa [Files.setHandle, hfile₁] using h₁) (hother file₁ hfile₁)
    · exact h.handle_unique file₁ file₂ g' (by simpa [Files.setHandle, hfile₁] using h₁)
        (by simpa [Files.setHandle, hfile₂] using h₂)
  handle_operation := by
    intro file' g' hg'
    by_cases hfile : file' = file
    · obtain rfl : g = g' := by simpa [Files.setHandle, hfile] using hg'
      exact hoperation
    · exact h.handle_operation file' g' (by simpa [Files.setHandle, hfile] using hg')
  operations_nodup := h.operations_nodup

theorem Owned.clearHandle {handle : Option File} (h : Owned f)
    (hclear : ∀ g, handle ≠ some ⟨some g⟩) : Owned (f.setHandle file handle) := by
  have hold : ∀ file' g, (f.setHandle file handle).handles file' = some ⟨some g⟩ →
      file' ≠ file ∧ f.handles file' = some ⟨some g⟩ := by
    intro file' g hg
    by_cases hfile : file' = file
    · exact absurd (by simpa [Files.setHandle, hfile] using hg) (hclear g)
    · exact ⟨hfile, by simpa [Files.setHandle, hfile] using hg⟩
  exact ⟨fun file' g hg => h.handle_live file' g (hold file' g hg).2, h.operation_live,
    fun file₁ file₂ g h₁ h₂ => h.handle_unique file₁ file₂ g (hold file₁ g h₁).2 (hold file₂ g h₂).2,
    fun file' g hg => h.handle_operation file' g (hold file' g hg).2, h.operations_nodup⟩

/-! ## Steps -/

theorem Sound.dropOperation {generation : Option Generation} (h : Sound f)
    (hfree : ∀ g, generation = some g →
      g ∉ f.operations ∧ ∀ file, f.handles file ≠ some ⟨some g⟩) :
    Sound (f.dropOperation generation) := by
  unfold Files.dropOperation
  split
  next write hdrop =>
    obtain ⟨g, rfl, hg⟩ := Option.bind_eq_some_iff.mp hdrop
    obtain ⟨waiters, hlive, rfl⟩ := Option.map_eq_some_iff.mp hg
    obtain ⟨hoperation, hhandle⟩ := hfree g rfl
    refine ⟨h.books.quiet rfl (.dropToken hlive) rfl fun _ => id, ?_⟩
    have hkept : ∀ g', g' ≠ g → (f.cursor.write.live g').isSome = true →
        ((f.cursor.write.retire g waiters).live g').isSome = true := by
      intro g' hg'
      simp [hg']
    constructor
    · intro file g' hg'
      have hne : g' ≠ g := fun heq => hhandle file (heq ▸ hg')
      exact (h.owned.handle_live file g' hg').imp_right (hkept g' hne)
    · intro g' hg'
      have hne : g' ≠ g := fun heq => hoperation (heq ▸ hg')
      exact (h.owned.operation_live g' hg').imp_right (hkept g' hne)
    · exact h.owned.handle_unique
    · exact h.owned.handle_operation
    · exact h.owned.operations_nodup
  next => exact h

theorem Sound.release {handle : File} {handle' : Option File} (h : Sound f)
    (hhandle : f.handles file = some handle) (hclear : ∀ g, handle' ≠ some ⟨some g⟩) :
    Sound ((f.setHandle file handle').dropOperation handle.directWrite) := by
  have hclear' : Sound (f.setHandle file handle') := ⟨h.books, h.owned.clearHandle hclear⟩
  refine hclear'.dropOperation ?_
  intro g hg
  have hheld : f.handles file = some ⟨some g⟩ := by
    rw [hhandle, ← hg]
  refine ⟨h.owned.handle_operation file g hheld, ?_⟩
  intro file' hfile'
  by_cases hfile : file' = file
  · exact hclear g (by simpa [Files.setHandle, hfile] using hfile')
  · have hheld' : f.handles file' = some ⟨some g⟩ := by
      simpa [Files.setHandle, hfile] using hfile'
    exact hfile (h.owned.handle_unique file' file g hheld' hheld)

theorem Sound.issue (h : Sound f) {write : WriteState}
    (hnew : f.cursor.write.newToken g = some write) :
    Sound { f with cursor := { f.cursor with write := write } } ∧ isTrackedWrite g = true ∧
      (write.live g).isSome = true ∧ g ∉ f.operations ∧
      ∀ file, f.handles file ≠ some ⟨some g⟩ := by
  unfold newToken at hnew
  split at hnew
  next hg =>
    cases hnew
    have hdead : ¬ (f.cursor.write.live g).isSome = true :=
      fun hlive => hg.2 (h.books.enrolled.live_issued g hlive)
    refine ⟨⟨h.books.quiet rfl (.newToken hg.1 hg.2) rfl ?_, h.owned.congr rfl rfl ?_⟩, hg.1, ?_,
      ?_, ?_⟩
    · exact fun g' hg' => List.mem_append_left _ hg'
    · intro g' hg'
      by_cases heq : g' = g
      · simp [heq]
      · simpa [heq] using hg'
    · simp
    · exact fun hmem => hdead (h.owned.operation_live g hmem).2
    · exact fun file hfile => hdead (h.owned.handle_live file g hfile).2
  next => cases hnew

/-- `get_or_insert_with` gives a handle a token of its own. -/
theorem Sound.acquire {handle : File} (h : Sound f) (hhandle : f.handles file = some handle)
    (hdirect : f.directGeneration handle fresh = some (f₁, g)) :
    Sound (f₁.setHandle file (some ⟨some g⟩)) ∧ isTrackedWrite g = true ∧
      (f₁.cursor.write.live g).isSome = true := by
  unfold directGeneration at hdirect
  cases hheld : handle.directWrite with
  | some generation =>
      obtain ⟨rfl, rfl⟩ : f = f₁ ∧ generation = g := by simpa [hheld] using hdirect
      have hfile : f.handles file = some ⟨some generation⟩ := by rw [hhandle, ← hheld]
      obtain ⟨htracked, hlive⟩ := h.owned.handle_live file generation hfile
      refine ⟨⟨h.books, h.owned.setHandle htracked hlive ?_ ?_⟩, htracked, hlive⟩
      · exact h.owned.handle_operation file generation hfile
      · exact fun file' hne hfile' => hne (h.owned.handle_unique file' file generation hfile' hfile)
  | none =>
      rw [hheld] at hdirect
      obtain ⟨write, hnew, heq⟩ := Option.map_eq_some_iff.mp hdirect
      cases heq
      obtain ⟨hsound, htracked, hlive, hoperation, hother⟩ := h.issue hnew
      exact ⟨⟨hsound.books, hsound.owned.setHandle htracked hlive hoperation
        fun file' _ => hother file'⟩, htracked, hlive⟩

theorem Sound.pollWriteOperation (h : Sound f)
    (hlive : (f.cursor.write.live g).isSome = true) (hstart : atMost buf.bytes.length start = true)
    (hpoll : f.pollWriteOperation waker g buf seek start = some (f', poll)) :
    Sound f' ∧ f'.handles = f.handles := by
  unfold Files.pollWriteOperation at hpoll
  split at hpoll
  next =>
    cases hpoll
    exact ⟨h, rfl⟩
  next =>
    obtain ⟨⟨cursor, poll'⟩, hcursor, heq⟩ := Option.map_eq_some_iff.mp hpoll
    cases heq
    refine ⟨?_, rfl⟩
    rcases CursorState.cases_of_pollWrite hcursor with ⟨-, hwrite⟩ | ⟨-, hwrite, -⟩
    · have hwritten := written_of_pollWrite hwrite
      exact ⟨h.books.written hlive hstart hwritten,
        h.owned.of_sameTokens rfl rfl (.written hwritten)⟩
    · refine ⟨?_, h.owned.of_sameTokens rfl rfl ?_⟩
      · show Books cursor.write
        rw [hwrite]
        exact h.books
      · show SameTokens f.cursor.write cursor.write
        rw [hwrite]
        exact .refl _

/-- What a poll does to the handle that made it does not matter to the poll. -/
theorem setHandle_pollWriteOperation {handle : Option File}
    (hpoll : f.pollWriteOperation waker g buf seek start = some (f', poll)) :
    (f.setHandle file handle).pollWriteOperation waker g buf seek start =
      some (f'.setHandle file handle, poll) := by
  unfold Files.pollWriteOperation at hpoll ⊢
  split at hpoll
  next hbuf =>
    cases hpoll
    rw [if_pos hbuf]
  next hbuf =>
    obtain ⟨⟨cursor, poll'⟩, hcursor, heq⟩ := Option.map_eq_some_iff.mp hpoll
    cases heq
    rw [if_neg hbuf]
    exact Option.map_eq_some_iff.mpr ⟨_, hcursor, rfl⟩

theorem exists_of_pollWrite
    (hcall : f.pollWrite file waker fresh buf seek start = some (f', poll)) :
    ∃ handle f₁ g f₂, f.handles file = some handle ∧
      f.directGeneration handle fresh = some (f₁, g) ∧
      f₁.pollWriteOperation waker g buf seek start = some (f₂, poll) ∧
      ((poll = .pending ∧ f' = f₂.setHandle file (some ⟨some g⟩)) ∨
        f' = (f₂.setHandle file (some ⟨none⟩)).dropOperation (some g)) := by
  unfold Files.pollWrite at hcall
  obtain ⟨handle, hhandle, hcall⟩ := Option.bind_eq_some_iff.mp hcall
  obtain ⟨⟨f₁, g⟩, hdirect, hcall⟩ := Option.bind_eq_some_iff.mp hcall
  obtain ⟨⟨f₂, poll'⟩, hpoll, hcall⟩ := Option.bind_eq_some_iff.mp hcall
  refine ⟨handle, f₁, g, f₂, hhandle, hdirect, ?_⟩
  cases poll' with
  | pending =>
      cases hcall
      exact ⟨hpoll, Or.inl ⟨rfl, rfl⟩⟩
  | ready reply =>
      cases hcall
      exact ⟨hpoll, Or.inr rfl⟩

theorem Sound.pollWrite (h : Sound f) (hstart : atMost buf.bytes.length start = true)
    (hcall : f.pollWrite file waker fresh buf seek start = some (f', poll)) : Sound f' := by
  obtain ⟨handle, f₁, g, f₂, hhandle, hdirect, hpoll, hend⟩ := exists_of_pollWrite hcall
  obtain ⟨hacquired, htracked, hlive⟩ := h.acquire hhandle hdirect
  obtain ⟨hpolled, hhandles⟩ := hacquired.pollWriteOperation hlive hstart
    (setHandle_pollWriteOperation hpoll)
  have hfile : (f₂.setHandle file (some ⟨some g⟩)).handles file = some ⟨some g⟩ := by
    simp [setHandle]
  rcases hend with ⟨-, rfl⟩ | rfl
  · exact hpolled
  · have hrelease : Sound (((f₂.setHandle file (some ⟨some g⟩)).setHandle file
        (some ⟨none⟩)).dropOperation (some g)) := hpolled.release hfile (by simp)
    simpa [setHandle] using hrelease

/-- No write completes with a count beyond what it was given. -/
def Honest (f : Files) : Action → Bool
  | .pollWrite _ _ _ buf _ start => atMost buf.bytes.length start
  | .pollWriteOperation _ _ _ buf _ start => atMost buf.bytes.length start
  | .completeWrite result => f.cursor.write.HonestCall (.complete result)
  | _ => true

theorem Sound.init : Sound {} := by
  have hnone : ∀ file g, ({} : Files).handles file ≠ some ⟨some g⟩ := by
    intro file g
    by_cases hfile : file = 0
    · simp [hfile]
    · simp [Function.update_of_ne hfile]
  exact ⟨.init, fun file g hg => absurd hg (hnone file g), by simp,
    fun file _ g hg => absurd hg (hnone file g), fun file g hg => absurd hg (hnone file g),
    List.nodup_nil⟩

/-- A call that only concerns the shared state, and creates or drops no token. -/
theorem Sound.of_cursor {cursor : CursorState} (h : Sound f)
    (hbooks : Books cursor.write) (hsame : SameTokens f.cursor.write cursor.write) :
    Sound { f with cursor := cursor } :=
  ⟨hbooks, h.owned.of_sameTokens rfl rfl hsame⟩

theorem Sound.of_drained {cursor : CursorState} {drain : Poll Unit} (h : Sound f)
    (hdrain : f.cursor.write.pollDrain waker = some (cursor.write, drain)) :
    Sound { f with cursor := cursor } :=
  have hdrained := drained_of_pollDrain hdrain
  h.of_cursor (h.books.drained hdrained) (.drained hdrained)

theorem Sound.newOperation {write : WriteState} (h : Sound f)
    (hnew : f.cursor.write.newToken g = some write) :
    Sound { f with
      cursor := { f.cursor with write := write }, operations := f.operations ++ [g] } := by
  obtain ⟨⟨hbooks, howned⟩, htracked, hlive, hoperation, hother⟩ := h.issue hnew
  refine ⟨hbooks, howned.handle_live, ?_, howned.handle_unique, ?_, ?_⟩
  · intro g' hg'
    rcases List.mem_append.mp hg' with hg' | hg'
    · exact howned.operation_live g' hg'
    · obtain rfl : g' = g := by simpa using hg'
      exact ⟨htracked, hlive⟩
  · intro file g' hg' hmem
    rcases List.mem_append.mp hmem with hmem | hmem
    · exact howned.handle_operation file g' hg' hmem
    · obtain rfl : g' = g := by simpa using hmem
      exact hother file hg'
  · refine List.nodup_append.mpr ⟨howned.operations_nodup, List.nodup_singleton g, ?_⟩
    rintro g' hg' _ hmem rfl
    exact hoperation (List.mem_singleton.mp hmem ▸ hg')

theorem Sound.dropFuture (h : Sound f) (hg : g ∈ f.operations) :
    Sound ({ f with operations := f.operations.erase g }.dropOperation g) := by
  have hnodup := h.owned.operations_nodup
  have herase : Sound { f with operations := f.operations.erase g } :=
    ⟨h.books, h.owned.handle_live,
      fun g' hg' => h.owned.operation_live g' (List.mem_of_mem_erase hg'),
      h.owned.handle_unique,
      fun file g' hg' hmem => h.owned.handle_operation file g' hg' (List.mem_of_mem_erase hmem),
      hnodup.erase g⟩
  refine herase.dropOperation ?_
  rintro _ ⟨rfl⟩
  exact ⟨fun hmem => (hnodup.mem_erase_iff.mp hmem).1 rfl,
    fun file hfile => h.owned.handle_operation file g hfile hg⟩

theorem Sound.pollRead {capacity : Nat} {start : Option (Except IoError (List UInt8))}
    {poll : Poll (Except IoError (List UInt8))} (h : Sound f)
    (hpoll : f.pollRead waker capacity start = some (f', poll)) : Sound f' := by
  unfold Files.pollRead at hpoll
  split at hpoll
  next =>
    cases hpoll
    exact h
  next =>
    obtain ⟨⟨cursor, poll'⟩, hcursor, heq⟩ := Option.map_eq_some_iff.mp hpoll
    cases heq
    obtain ⟨drain, hdrain⟩ := CursorState.drained_of_pollReadSlice hcursor
    exact h.of_drained hdrain

theorem Sound.pollFlush {flush : Poll (Reply Unit)} (h : Sound f)
    (hpoll : f.pollFlush waker = some (f', flush)) : Sound f' := by
  obtain ⟨⟨cursor, poll'⟩, hcursor, heq⟩ := Option.map_eq_some_iff.mp hpoll
  cases heq
  obtain ⟨⟨write, poll'⟩, hwrite, heq⟩ := Option.map_eq_some_iff.mp hcursor
  cases heq
  have hflushed := flushed_of_pollFlush hwrite
  exact h.of_cursor (h.books.flushed hflushed) (.flushed hflushed)

theorem Sound.pollSeek {position : Except IoError Nat} {poll : Poll (Except IoError Nat)}
    (h : Sound f) (hpoll : f.pollSeek waker seek position = some (f', poll)) : Sound f' := by
  obtain ⟨⟨cursor, poll'⟩, hcursor, heq⟩ := Option.map_eq_some_iff.mp hpoll
  cases heq
  rcases CursorState.cases_of_pollReconcile hcursor with hwrite | ⟨drain, hdrain⟩
  · exact h.of_cursor (hwrite ▸ h.books) (hwrite ▸ .refl _)
  · exact h.of_drained hdrain

theorem Sound.completeWrite {result : Except IoError Nat} {write : WriteState} (h : Sound f)
    (hhonest : f.cursor.write.HonestCall (.complete result) = true)
    (hwrite : f.cursor.write.complete result = some write) :
    Sound { f with cursor := { f.cursor with write := write } } := by
  obtain ⟨p, hop, houtcome, rfl⟩ := resolve_of_complete hwrite
  refine h.of_cursor (h.books.quiet hhonest (.complete hop houtcome) rfl fun _ => id) ?_
  exact .of_eq rfl rfl fun q hq => hq

theorem Sound.step {a : Action} (h : Sound f) (hhonest : f.Honest a = true)
    (hstep : f.step a = some f') : Sound f' := by
  cases a with
  | pollWrite file waker fresh buf seek start =>
      obtain ⟨⟨f', poll⟩, hcall, rfl⟩ := Option.map_eq_some_iff.mp hstep
      exact h.pollWrite hhonest hcall
  | pollWriteOperation file waker g buf seek start =>
      obtain ⟨hg, hstep⟩ := Option.ite_none_right_eq_some.mp hstep
      obtain ⟨⟨f', poll⟩, hpoll, rfl⟩ := Option.map_eq_some_iff.mp hstep
      exact (h.pollWriteOperation (h.owned.operation_live g hg.2).2 hhonest hpoll).1
  | newOperation g =>
      obtain ⟨write, hnew, rfl⟩ := Option.map_eq_some_iff.mp hstep
      exact h.newOperation hnew
  | dropOperation g =>
      obtain ⟨hg, hstep⟩ := Option.ite_none_right_eq_some.mp hstep
      cases hstep
      exact h.dropFuture hg
  | pollRead file waker capacity start =>
      obtain ⟨-, hstep⟩ := Option.ite_none_right_eq_some.mp hstep
      obtain ⟨⟨f', poll⟩, hpoll, rfl⟩ := Option.map_eq_some_iff.mp hstep
      exact h.pollRead hpoll
  | pollFlush file waker =>
      obtain ⟨-, hstep⟩ := Option.ite_none_right_eq_some.mp hstep
      obtain ⟨⟨f', poll⟩, hpoll, rfl⟩ := Option.map_eq_some_iff.mp hstep
      exact h.pollFlush hpoll
  | pollSeek file waker seek position =>
      obtain ⟨-, hstep⟩ := Option.ite_none_right_eq_some.mp hstep
      obtain ⟨⟨f', poll⟩, hpoll, rfl⟩ := Option.map_eq_some_iff.mp hstep
      exact h.pollSeek hpoll
  | tryClone file clone =>
      obtain ⟨-, hstep⟩ := Option.ite_none_right_eq_some.mp hstep
      cases hstep
      exact ⟨h.books, h.owned.clearHandle (by simp)⟩
  | drop file =>
      obtain ⟨handle, hhandle, rfl⟩ := Option.map_eq_some_iff.mp hstep
      exact h.release hhandle (by simp)
  | completeRead result =>
      obtain ⟨read, hread, rfl⟩ := Option.map_eq_some_iff.mp hstep
      exact h.of_cursor h.books (.refl _)
  | completeWrite result =>
      obtain ⟨write, hwrite, rfl⟩ := Option.map_eq_some_iff.mp hstep
      exact h.completeWrite hhonest hwrite

theorem sound_of_reachable (hreach : Reachable step (fun f a => f.Honest a = true) {} f) :
    Sound f :=
  hreach.invariant Sound .init fun _ _ _ hsound hhonest hstep => hsound.step hhonest hstep

/-! ## Raw writes -/

/-- A raw write never reports a count for bytes it did not submit. -/
def Credited (f : Files) (buf : Buf) (poll : Poll (Reply Nat)) : Prop :=
  ∀ n source, poll = .ready ⟨.ok n, source⟩ → n ≤ buf.bytes.length ∧
    (buf.bytes ≠ [] → ∃ kind sub, source = some sub ∧ (kind, sub) ∈ f.cursor.write.started ∧
      sub.data = buf.bytes)

/-- The result that is there for the token that a handle holds. -/
def retainedResult (f : Files) (file : Nat) : Option Completion :=
  (f.handles file).bind fun handle => handle.directWrite.bind f.cursor.write.resultOf

/-- The generation of a raw write claims what is there for the handle's token. -/
theorem Sound.resultOf_directGeneration {handle : File} (h : Sound f)
    (hhandle : f.handles file = some handle)
    (hdirect : f.directGeneration handle fresh = some (f₁, g)) :
    f₁.cursor.write.resultOf g = f.retainedResult file ∧ f₁.cursor.read = f.cursor.read := by
  unfold retainedResult
  unfold directGeneration at hdirect
  rw [hhandle]
  cases hheld : handle.directWrite with
  | some generation =>
      obtain ⟨rfl, rfl⟩ : f = f₁ ∧ generation = g := by simpa [hheld] using hdirect
      exact ⟨by simp [hheld], rfl⟩
  | none =>
      rw [hheld] at hdirect
      obtain ⟨write, hnew, heq⟩ := Option.map_eq_some_iff.mp hdirect
      cases heq
      unfold newToken at hnew
      split at hnew
      next hg =>
        cases hnew
        have hnone : f.cursor.write.resultOf fresh = none := h.books.resultOf_of_fresh hg.2
        exact ⟨by simpa [hheld, WriteState.resultOf] using hnone, rfl⟩
      next => cases hnew

theorem started_dropOperation {generation : Option Generation} :
    (f.dropOperation generation).cursor.write.started = f.cursor.write.started := by
  unfold dropOperation
  split
  next write hdrop =>
    obtain ⟨g, rfl, hg⟩ := Option.bind_eq_some_iff.mp hdrop
    obtain ⟨waiters, hlive, rfl⟩ := Option.map_eq_some_iff.mp hg
    rfl
  next => rfl

/-- In every run, a raw write of a handle credits its count to the bytes it was
given exactly when it is not answered with the count of an earlier write of the
handle, which was abandoned and had brought other bytes. -/
theorem file_write_credited_iff
    (hreach : Reachable step (fun f a => f.Honest a = true) {} f)
    (hstart : atMost buf.bytes.length start = true)
    (hcall : f.pollWrite file waker fresh buf seek start = some (f', poll)) :
    f'.Credited buf poll ↔
      (buf.bytes ≠ [] → f.cursor.reconciles (rewindFileCursor seek) = true →
        ∀ sub n, f.retainedResult file = some ⟨sub, .ok n⟩ → sub.data = buf.bytes) := by
  have hsound := sound_of_reachable hreach
  obtain ⟨handle, f₁, g, f₂, hhandle, hdirect, hpoll, hend⟩ := exists_of_pollWrite hcall
  obtain ⟨hacquired, htracked, hlive⟩ := hsound.acquire hhandle hdirect
  obtain ⟨hresult, hread⟩ := hsound.resultOf_directGeneration hhandle hdirect
  have hbooks : Books f₁.cursor.write := hacquired.books
  have hstarted : f'.cursor.write.started = f₂.cursor.write.started := by
    rcases hend with ⟨-, rfl⟩ | rfl
    · rfl
    · exact started_dropOperation
  have hreconciles : f₁.cursor.reconciles (rewindFileCursor seek) =
      f.cursor.reconciles (rewindFileCursor seek) := by
    simp [CursorState.reconciles, hread]
  unfold Files.pollWriteOperation at hpoll
  split at hpoll
  next hempty =>
    cases hpoll
    refine ⟨fun _ hbuf => absurd hempty hbuf, fun _ n source heq => ?_⟩
    cases heq
    exact ⟨by simp, fun hbuf => absurd hempty hbuf⟩
  next hbuf =>
    obtain ⟨⟨cursor, poll'⟩, hcursor, heq⟩ := Option.map_eq_some_iff.mp hpoll
    cases heq
    rcases CursorState.cases_of_pollWrite hcursor with ⟨htrue, hwrite⟩ | ⟨hfalse, -, hother⟩
    · have hwritten := written_of_pollWrite hwrite
      have hclaimed : f₁.cursor.write.claimed g buf = f.retainedResult file :=
        (claimed_of_live htracked hlive).trans hresult
      constructor
      · intro hcredited _ _ sub n hretained
        have hreply := reply_of_claimed hbuf (hclaimed.trans hretained) hwritten
        obtain ⟨-, hdata⟩ := hcredited n (some sub) hreply
        obtain ⟨kind, sub', hsub, -, hdata⟩ := hdata hbuf
        cases hsub
        exact hdata
      · intro hretained n source heq
        have hcredited := (credited_iff_claimed hbooks.valid hbuf hwritten).mpr (by
          rw [hclaimed]
          exact hretained hbuf (hreconciles ▸ htrue))
        obtain ⟨kind, sub, rfl, hsub, hfinished, hdata, hbound⟩ := hcredited n source heq
        have hmeasured := (hbooks.written hlive hstart hwritten).measured.finished _ hfinished
        refine ⟨hbound (by simpa [atMost] using hmeasured), fun _ => ?_⟩
        exact ⟨kind, sub, rfl, hstarted ▸ hsub, hdata⟩
    · -- the write side is not reached, and there is no count
      refine ⟨fun _ _ htrue => ?_, fun _ n source heq => ?_⟩
      · rw [← hreconciles, hfalse] at htrue
        cases htrue
      · rcases hother with rfl | ⟨error, rfl⟩ <;> cases heq

/-- A raw write that is abandoned after `Pending`, and completes. -/
def abandonedWrite : List Action :=
  [.pollWrite 0 1 (trackedWriteBit + 1) ⟨100, [1, 2]⟩ (.ok ()) none, .completeWrite (.ok 2)]

/-- The next raw write of the handle, with another and shorter buffer, is told
that two bytes of it were written. -/
theorem abandoned_write_takes_credit : ∃ f f' poll,
    Reachable step (fun f a => f.Honest a = true) {} f ∧
      f.pollWrite 0 1 (trackedWriteBit + 2) ⟨200, [3]⟩ (.ok ()) none = some (f', poll) ∧
      poll = .ready ⟨.ok 2, some ⟨0, [1, 2]⟩⟩ ∧ ¬ f'.Credited ⟨200, [3]⟩ poll := by
  obtain ⟨f, hreach, hf⟩ := Reachable.exists_of_guarded step (fun f a => f.Honest a = true) {}
    abandonedWrite
    (fun f => (f.pollWrite 0 1 (trackedWriteBit + 2) ⟨200, [3]⟩ (.ok ()) none).map Prod.snd =
      some (.ready ⟨.ok 2, some ⟨0, [1, 2]⟩⟩)) (by decide +kernel)
  obtain ⟨⟨f', poll⟩, hcall, hpoll⟩ := Option.map_eq_some_iff.mp (of_decide_eq_true hf)
  refine ⟨f, f', poll, hreach, hcall, hpoll, ?_⟩
  intro hcredited
  obtain ⟨hle, -⟩ := hcredited 2 _ hpoll
  simp at hle

/-- A raw write that is polled again with its own buffer. -/
theorem file_write_credited_repoll : ∃ f f' poll,
    Reachable step (fun f a => f.Honest a = true) {} f ∧
      f.pollWrite 0 1 (trackedWriteBit + 2) ⟨100, [1, 2]⟩ (.ok ()) none = some (f', poll) ∧
      poll = .ready ⟨.ok 2, some ⟨0, [1, 2]⟩⟩ ∧ f'.Credited ⟨100, [1, 2]⟩ poll := by
  obtain ⟨f, hreach, hf⟩ := Reachable.exists_of_guarded step (fun f a => f.Honest a = true) {}
    abandonedWrite
    (fun f => (f.pollWrite 0 1 (trackedWriteBit + 2) ⟨100, [1, 2]⟩ (.ok ()) none).map Prod.snd =
        some (.ready ⟨.ok 2, some ⟨0, [1, 2]⟩⟩) ∧
      f.retainedResult 0 = some ⟨⟨0, [1, 2]⟩, .ok 2⟩) (by decide +kernel)
  obtain ⟨hpoll, hretained⟩ := of_decide_eq_true hf
  obtain ⟨⟨f', poll⟩, hcall, hpoll⟩ := Option.map_eq_some_iff.mp hpoll
  refine ⟨f, f', poll, hreach, hcall, hpoll, ?_⟩
  refine (file_write_credited_iff hreach rfl hcall).mpr ?_
  intro _ _ sub n hsub
  obtain ⟨rfl, -⟩ : ⟨0, [1, 2]⟩ = sub ∧ _ := by simpa [hretained] using hsub
  rfl

end Runite.Fs.Files
