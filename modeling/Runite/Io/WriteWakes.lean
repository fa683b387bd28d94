import Runite.Io.WriteErrors
import Mathlib.Data.List.Find

/-!
# Who is woken

A writer that has to wait registers with whatever blocks it at that moment:
the operation in flight, or the cancellation set of the generation at the
front of the queue.  A drain does the same and also joins the barrier set.
`Watched` records how many wakes there were when each generation was last told
to wait, and when each drain was.

With nothing in flight the generation at the front of the queue has been woken
since, unless the token of the generation before it was dropped while the next
one was not registered with it.  `Strands` is that step.
-/

namespace Runite.Io.WriteState

open Transition

variable {s s' : WriteState} {waker w : Waker} {generation g : Generation} {buf : Buf}
  {start : Option (Except IoError Nat)} {p : PendingWrite} {result : Except IoError Nat}
  {n : Nat}

/-! ## The log of wakes only grows -/

theorem mem_drop_of_grows {l l' : List Waker} (h : w ∈ l.drop n) (hgrows : l <+: l') :
    w ∈ l'.drop n := by
  obtain ⟨extra, rfl⟩ := hgrows
  rw [List.drop_append]
  exact List.mem_append_left _ h

theorem mem_drop_append_of_mem {l l' : List Waker} (h : w ∈ l') (hn : n ≤ l.length) :
    w ∈ (l ++ l').drop n := by
  rw [List.drop_append_of_le_length hn]
  exact List.mem_append_right _ h

theorem cleanupCancelled_woken (s : WriteState) :
    (s.cleanupCancelled.queue.length = s.queue.length ∧
      s.cleanupCancelled.woken = s.woken ∧
      s.cleanupCancelled.barrierWaiters = s.barrierWaiters) ∨
    (s.cleanupCancelled.woken = s.woken ++
        (s.cleanupCancelled.queue.head?.map (·.waker)).toList ++ s.barrierWaiters ∧
      s.cleanupCancelled.barrierWaiters = []) := by
  rw [cleanupCancelled_queue]
  unfold cleanupCancelled
  dsimp only
  split
  next => exact Or.inr ⟨rfl, rfl⟩
  next hlength => exact Or.inl ⟨not_not.mp hlength, rfl, rfl⟩

theorem woken_grows_cleanup (s : WriteState) : s.woken <+: s.cleanupCancelled.woken := by
  rcases cleanupCancelled_woken s with ⟨-, hwoken, -⟩ | ⟨hwoken, -⟩
  · exact ⟨[], by rw [hwoken, List.append_nil]⟩
  · rw [hwoken, List.append_assoc]
    exact List.prefix_append _ _

theorem woken_grows_handOver (s : WriteState) (p : PendingWrite) (waker : Waker)
    (result : Except IoError Nat) : s.woken <+: (s.handOver p waker result).woken := by
  simp only [handOver_woken, List.append_assoc]
  exact List.prefix_append _ _

theorem woken_grows_finish (s : WriteState) (p : PendingWrite) (waker : Waker)
    (result : Except IoError Nat) :
    s.woken <+: (s.finish p waker result).wakeReadyWaiters.woken := by
  simp only [wakeReadyWaiters_woken, finish_woken, List.append_assoc]
  exact List.prefix_append _ _

theorem Turn.woken_grows {poll : Poll (Reply Nat)}
    (hturn : Turn waker generation buf start s s' poll) : s.woken <+: s'.woken := by
  cases hturn with
  | completed => exact List.prefix_refl _
  | blocked => exact List.prefix_append _ _
  | cancelled => exact List.prefix_refl _
  | awaits => exact List.prefix_refl _
  | answers => exact woken_grows_finish (s.begin generation buf start) _ _ _

theorem Driven.woken_grows {poll : Poll (Reply Nat)}
    (hdriven : Driven waker generation buf start s s' poll) : s.woken <+: s'.woken := by
  cases hdriven with
  | awaits => exact List.prefix_refl _
  | delivers => exact woken_grows_finish s _ _ _
  | reports => exact woken_grows_handOver s _ _ _
  | handsOver _ _ _ _ hturn => exact (woken_grows_handOver s _ _ _).trans hturn.woken_grows
  | idle _ hturn => exact hturn.woken_grows

theorem Written.woken_grows {poll : Poll (Reply Nat)}
    (hwritten : Written waker generation buf start s s' poll) : s.woken <+: s'.woken := by
  have hclean := woken_grows_cleanup s
  cases hwritten with
  | empty => exact List.prefix_refl _
  | completed => exact hclean
  | untracked => exact hclean
  | refused => exact hclean
  | driven _ _ _ _ hdriven => exact hclean.trans hdriven.woken_grows

theorem Barrier.woken_grows {poll : Poll Unit} (hbarrier : Barrier waker s s' poll) :
    s.woken <+: s'.woken := by
  cases hbarrier with
  | blocked => exact List.prefix_append _ _
  | empty => exact List.prefix_refl _

theorem Drained.woken_grows {poll : Poll Unit} (hdrained : Drained waker s s' poll) :
    s.woken <+: s'.woken := by
  have hclean := woken_grows_cleanup s
  cases hdrained with
  | awaits => exact hclean
  | handsOver _ _ hbarrier =>
      exact (hclean.trans (woken_grows_handOver _ _ _ _)).trans hbarrier.woken_grows
  | idle _ hbarrier => exact hclean.trans hbarrier.woken_grows

/-! ## The front of the queue -/

/-- The frontmost queued write whose token is live. -/
def frontLive (s : WriteState) : Option QueuedWrite :=
  s.queue.find? fun q => s.isLiveWrite q.generation

/-- With nothing in flight, the frontmost live write has been woken since its
generation was last told to wait. -/
def FrontWoken (s : WriteState) (since : Generation → Nat) : Prop :=
  s.operation = none → ∀ q, s.frontLive = some q → q.waker ∈ s.woken.drop (since q.generation)

theorem Clean.frontLive_eq (h : s.Clean) : s.frontLive = s.queue.head? := by
  unfold frontLive
  cases hqueue : s.queue with
  | nil => rfl
  | cons q rest =>
      have hlive := h.queue_live q (by simp [hqueue])
      simp [hlive]

theorem frontLive_cleanup (s : WriteState) : s.cleanupCancelled.frontLive = s.frontLive := by
  unfold frontLive
  rw [cleanupCancelled_queue, List.find?_filter]
  congr 1
  funext q
  simp [isLiveWrite_of_live_eq (cleanupCancelled_live s)]

theorem FrontWoken.cleanup {since : Generation → Nat} (h : s.FrontWoken since) :
    s.cleanupCancelled.FrontWoken since := by
  intro hidle q hq
  rw [frontLive_cleanup] at hq
  exact mem_drop_of_grows (h (by simpa using hidle) q hq) (woken_grows_cleanup s)

/-- `wake_ready_waiters` wakes the front of a clean queue. -/
theorem frontWoken_of_wake {since : Generation → Nat} {l : List Waker} (l₁ l₂ : List Waker)
    (hclean : s.Clean) (hbound : ∀ g, since g ≤ l.length)
    (hwoken : s.woken = l ++ l₁ ++ (s.queue.head?.map (·.waker)).toList ++ l₂) :
    s.FrontWoken since := by
  intro _ q hq
  rw [hclean.frontLive_eq] at hq
  rw [hwoken, List.append_assoc, List.append_assoc]
  apply mem_drop_append_of_mem
  · simp [hq]
  · exact hbound _

theorem frontWoken_handOver {since : Generation → Nat} (hclean : s.Clean)
    (hbound : ∀ g, since g ≤ s.woken.length) : (s.handOver p waker result).FrontWoken since := by
  refine frontWoken_of_wake (register p.operation.waiters waker) s.barrierWaiters
    (hclean.handOver p waker result) hbound ?_
  rw [handOver_woken, handOver_queue]

/-- The number of wakes when a generation was last told to wait. -/
def sinceWrite (since : Generation → Nat) (generation : Generation) (s' : WriteState) :
    Poll (Reply Nat) → Generation → Nat
  | .pending => Function.update since generation s'.woken.length
  | .ready _ => since

section Front

variable {since : Generation → Nat} {poll : Poll (Reply Nat)}

theorem frontWoken_turn (hclean : s.Clean) (hbound : ∀ g, since g ≤ s.woken.length)
    (hcompleted : s.completed generation = none)
    (hturn : Turn waker generation buf start s s' poll) :
    s'.FrontWoken (sinceWrite since generation s' poll) := by
  cases hturn with
  | completed hc => simp [hcompleted] at hc
  | @blocked front rest _ hqueue hfront =>
      intro _ q hq
      have hfrontLive : ((s.wake front.waker).registerCancellation front.generation
          waker).frontLive = s.frontLive := by
        simp only [frontLive, isLiveWrite_registerCancellation]
        rfl
      rw [hfrontLive, hclean.frontLive_eq, hqueue] at hq
      obtain rfl : front = q := by simpa using hq
      simp only [sinceWrite, Function.update_of_ne hfront]
      exact mem_drop_append_of_mem (List.mem_singleton_self _) (hbound _)
  | cancelled _ hqueue =>
      intro _ q hq
      simp [frontLive, hqueue] at hq
  | awaits => simp [FrontWoken]
  | answers =>
      refine frontWoken_of_wake _ _ ?_ hbound rfl
      exact ⟨fun q hq => hclean.queue_live q (List.mem_of_mem_tail hq), hclean.completed_live⟩

theorem frontWoken_driven (hclean : s.Clean) (hbound : ∀ g, since g ≤ s.woken.length)
    (hcompleted : s.completed generation = none)
    (hdriven : Driven waker generation buf start s s' poll) :
    s'.FrontWoken (sinceWrite since generation s' poll) := by
  cases hdriven with
  | awaits => simp [FrontWoken]
  | delivers hop houtcome hown =>
      refine frontWoken_of_wake _ _ ?_ hbound rfl
      exact ⟨hclean.queue_live, hclean.completed_live⟩
  | reports hop houtcome hown herror => exact frontWoken_handOver hclean hbound
  | @handsOver p result _ _ hop houtcome hown herror hturn =>
      refine frontWoken_turn (hclean.handOver p waker result) (fun g => ?_) ?_ hturn
      · exact Nat.le_trans (hbound g) (woken_grows_handOver s p waker result).length_le
      · rwa [handOver_completed_of_not_own hown]
  | idle _ hturn => exact frontWoken_turn hclean hbound hcompleted hturn

theorem frontWoken_written (h : s.FrontWoken since) (hbound : ∀ g, since g ≤ s.woken.length)
    (hwritten : Written waker generation buf start s s' poll) :
    s'.FrontWoken (sinceWrite since generation s' poll) := by
  cases hwritten with
  | empty => exact h
  | completed => exact h.cleanup
  | untracked => exact h.cleanup
  | refused => exact h.cleanup
  | driven _ hcompleted _ _ hdriven =>
      refine frontWoken_driven (clean_cleanupCancelled s).enqueueTracked (fun g => ?_) hcompleted
        hdriven
      exact Nat.le_trans (hbound g) (woken_grows_cleanup s).length_le

theorem frontWoken_barrier {poll : Poll Unit} (h : s.FrontWoken since) (hclean : s.Clean)
    (hbound : ∀ g, since g ≤ s.woken.length) (hbarrier : Barrier waker s s' poll) :
    s'.FrontWoken since := by
  cases hbarrier with
  | @blocked front rest hqueue =>
      intro _ q hq
      have hfrontLive : (((s.registerBarrier waker).registerCancellation front.generation
          waker).wake front.waker).frontLive = s.frontLive := by
        have hlive := isLiveWrite_registerCancellation (s.registerBarrier waker)
          front.generation waker
        exact congrArg (fun live => s.queue.find? fun q => live q.generation) (funext hlive)
      rw [hfrontLive, hclean.frontLive_eq, hqueue] at hq
      obtain rfl : front = q := by simpa using hq
      exact mem_drop_append_of_mem (List.mem_singleton_self _) (hbound _)
  | empty => exact h

theorem frontWoken_drained {poll : Poll Unit} (h : s.FrontWoken since)
    (hbound : ∀ g, since g ≤ s.woken.length) (hdrained : Drained waker s s' poll) :
    s'.FrontWoken since := by
  have hclean := clean_cleanupCancelled s
  have hbound' : ∀ g, since g ≤ s.cleanupCancelled.woken.length := fun g =>
    Nat.le_trans (hbound g) (woken_grows_cleanup s).length_le
  cases hdrained with
  | awaits => simp [FrontWoken]
  | @handsOver p result _ _ hop houtcome hbarrier =>
      refine frontWoken_barrier (frontWoken_handOver hclean hbound')
        (hclean.handOver p waker result) (fun g => ?_) hbarrier
      exact Nat.le_trans (hbound' g) (woken_grows_handOver _ p waker result).length_le
  | idle _ hbarrier => exact frontWoken_barrier h.cleanup hclean hbound' hbarrier

end Front

/-! ## Drains -/

/-- The waker is registered with the operation in flight. -/
def AtOperation (s : WriteState) (w : Waker) : Prop :=
  ∃ p, s.operation = some p ∧ p.operation.outcome = none ∧ w ∈ p.operation.waiters

/-- The waker is in the barrier set, and in the cancellation set of the live
generation whose turn it is: the one in flight, or the front of the queue. -/
def AtBarrier (s : WriteState) (w : Waker) : Prop :=
  w ∈ s.barrierWaiters ∧ ∃ f waiters, s.live f = some waiters ∧ w ∈ waiters ∧
    ((∃ p, s.operation = some p ∧ p.kind = .operation f) ∨
      s.operation = none ∧ s.queue.head?.map (·.generation) = some f)

/-- The waker has been woken since, or is registered with what a drain waits for. -/
def Heard (s : WriteState) (w : Waker) (n : Nat) : Prop :=
  w ∈ s.woken.drop n ∨ s.AtOperation w ∨ s.AtBarrier w

namespace Heard

theorem of_grows {t : WriteState} (h : s.Heard w n) (hwoken : s.woken <+: t.woken)
    (hoperation : s.AtOperation w → t.Heard w n) (hbarrier : s.AtBarrier w → t.Heard w n) :
    t.Heard w n := by
  rcases h with h | h | h
  · exact Or.inl (mem_drop_of_grows h hwoken)
  · exact hoperation h
  · exact hbarrier h

theorem congr {t : WriteState} (h : s.Heard w n) (hwoken : s.woken <+: t.woken)
    (hop : t.operation = s.operation) (hbarrier : t.barrierWaiters = s.barrierWaiters)
    (hlive : t.live = s.live) (hqueue : t.queue = s.queue) : t.Heard w n := by
  refine h.of_grows hwoken (fun h => Or.inr (Or.inl ?_)) (fun h => Or.inr (Or.inr ?_))
  · unfold AtOperation
    rwa [hop]
  · unfold AtBarrier
    rwa [hop, hbarrier, hlive, hqueue]

/-- With nothing in flight and nothing queued there is nothing to be registered with. -/
theorem of_idle (h : s.Heard w n) (hidle : s.operation = none) (hqueue : s.queue = []) :
    w ∈ s.woken.drop n := by
  rcases h with h | ⟨p, hop, -⟩ | ⟨-, f, waiters, -, -, ⟨p, hop, -⟩ | ⟨-, hhead⟩⟩
  · exact h
  · simp [hidle] at hop
  · simp [hidle] at hop
  · simp [hqueue] at hhead

theorem cleanup (h : s.Heard w n) (hn : n ≤ s.woken.length) : s.cleanupCancelled.Heard w n := by
  rcases cleanupCancelled_woken s with ⟨hlength, hwoken, hbarrier⟩ | ⟨hwoken, -⟩
  · -- nothing was removed
    have hqueue : s.cleanupCancelled.queue = s.queue := by
      rw [cleanupCancelled_queue] at hlength ⊢
      exact List.filter_eq_self.mpr (List.length_filter_eq_length_iff.mp hlength)
    exact h.congr (hwoken ▸ List.prefix_refl _) (by simp) hbarrier (by simp) hqueue
  · refine h.of_grows (woken_grows_cleanup s) (fun h => Or.inr (Or.inl ?_)) fun h => ?_
    · simpa [AtOperation] using h
    · left
      rw [hwoken, List.append_assoc]
      exact mem_drop_append_of_mem (List.mem_append_right _ h.1) hn

theorem head_enqueuedTracked {f : Generation}
    (h : s.queue.head?.map (·.generation) = some f) :
    (s.enqueuedTracked generation waker).head?.map (·.generation) = some f := by
  unfold enqueuedTracked
  cases hqueue : s.queue with
  | nil => simp [hqueue] at h
  | cons q rest =>
      have hgeneration : (setWaker generation waker q).generation = q.generation := by
        unfold setWaker
        split <;> rfl
      rw [hqueue] at h
      split
      · exact h
      split
      · exact h
      split
      · simpa [hgeneration] using h
      · simpa using h

theorem enqueueTracked (h : s.Heard w n) : (s.enqueueTracked generation waker).Heard w n := by
  refine h.of_grows (List.prefix_refl _) (fun h => Or.inr (Or.inl h)) fun h => Or.inr (Or.inr ?_)
  obtain ⟨hbarrier, f, waiters, hlive, hmem, hturn⟩ := h
  exact ⟨hbarrier, f, waiters, hlive, hmem,
    hturn.imp_right fun ⟨hidle, hhead⟩ => ⟨hidle, head_enqueuedTracked hhead⟩⟩

theorem await (h : s.Heard w n) (hop : s.operation = some p) : (s.await p waker).Heard w n := by
  refine h.of_grows (List.prefix_refl _) ?_ ?_
  · rintro ⟨q, hq, houtcome, hmem⟩
    obtain rfl : p = q := by simpa [hop] using hq
    exact Or.inr (Or.inl ⟨p.await waker, rfl, houtcome, by simp [PendingOperation.await, hmem]⟩)
  · rintro ⟨hbarrier, f, waiters, hlive, hmem, ⟨q, hq, hkind⟩ | ⟨hidle, -⟩⟩
    · obtain rfl : p = q := by simpa [hop] using hq
      exact Or.inr (Or.inr ⟨hbarrier, f, waiters, hlive, hmem, Or.inl ⟨p.await waker, rfl, hkind⟩⟩)
    · simp [hop] at hidle

/-- Taking the result of the operation in flight wakes everyone. -/
theorem mem_wakes (waker : Waker) (h : s.AtOperation w ∨ s.AtBarrier w)
    (hop : s.operation = some p) :
    w ∈ register p.operation.waiters waker ++ (s.queue.head?.map (·.waker)).toList ++
      s.barrierWaiters := by
  rcases h with ⟨q, hq, -, hmem⟩ | ⟨hbarrier, -⟩
  · obtain rfl : p = q := by simpa [hop] using hq
    simp [hmem]
  · simp [hbarrier]

theorem finish (h : s.Heard w n) (hn : n ≤ s.woken.length) (hop : s.operation = some p) :
    (s.finish p waker result).wakeReadyWaiters.Heard w n := by
  rcases h with h | h
  · exact Or.inl (mem_drop_of_grows h (woken_grows_finish s p waker result))
  · left
    simp only [wakeReadyWaiters_woken, finish_woken, finish_queue, finish_barrierWaiters]
    rw [List.append_assoc, List.append_assoc]
    exact mem_drop_append_of_mem (by simpa using mem_wakes waker h hop) hn

theorem handOver (h : s.Heard w n) (hn : n ≤ s.woken.length) (hop : s.operation = some p) :
    (s.handOver p waker result).Heard w n := by
  rcases h with h | h
  · exact Or.inl (mem_drop_of_grows h (woken_grows_handOver s p waker result))
  · left
    rw [handOver_woken, List.append_assoc, List.append_assoc]
    exact mem_drop_append_of_mem (by simpa using mem_wakes waker h hop) hn

theorem begin (h : s.Heard w n) (hidle : s.operation = none) (hmay : s.MayBegin generation) :
    (s.begin generation buf start).Heard w n := by
  refine h.of_grows (List.prefix_refl _) ?_ ?_
  · rintro ⟨p, hop, -⟩
    simp [hidle] at hop
  · rintro ⟨hbarrier, f, waiters, hlive, hmem, ⟨p, hop, -⟩ | ⟨-, hhead⟩⟩
    · simp [hidle] at hop
    · -- the front of the queue starts: it is the generation the drain waits for
      cases hqueue : s.queue with
      | nil => simp [hqueue] at hhead
      | cons front rest =>
          obtain rfl : front.generation = f := by simpa [hqueue] using hhead
          have hfront : front.generation = generation := by simpa [MayBegin, hqueue] using hmay
          exact Or.inr (Or.inr ⟨hbarrier, _, waiters, hlive, hmem,
            Or.inl ⟨_, rfl, by simp [hfront]⟩⟩)

theorem mem_registeredCancellation {f : Generation} {waiters : List Waker}
    (hlive : s.live f = some waiters) (hmem : w ∈ waiters) :
    ∃ waiters', s.registeredCancellation generation waker f = some waiters' ∧ w ∈ waiters' := by
  unfold registeredCancellation
  split
  · cases hg : s.live generation with
    | none => exact ⟨waiters, hlive, hmem⟩
    | some registered =>
        by_cases hf : f = generation
        · subst hf
          obtain rfl : waiters = registered := by simpa [hlive] using hg
          exact ⟨register waiters waker, by simp, by simp [hmem]⟩
        · exact ⟨waiters, by simpa [hf] using hlive, hmem⟩
  · exact ⟨waiters, hlive, hmem⟩

theorem registerCancellation (h : s.Heard w n) :
    (s.registerCancellation generation waker).Heard w n := by
  refine h.of_grows (List.prefix_refl _) (fun h => Or.inr (Or.inl h)) fun h => Or.inr (Or.inr ?_)
  obtain ⟨hbarrier, f, waiters, hlive, hmem, hturn⟩ := h
  obtain ⟨waiters', hlive', hmem'⟩ := mem_registeredCancellation hlive hmem
  exact ⟨hbarrier, f, waiters', hlive', hmem', hturn⟩

theorem registerBarrier (h : s.Heard w n) : (s.registerBarrier waker).Heard w n := by
  refine h.of_grows (List.prefix_refl _) (fun h => Or.inr (Or.inl h)) fun h => Or.inr (Or.inr ?_)
  exact ⟨by simp [h.1], h.2⟩

theorem wake (h : s.Heard w n) : (s.wake waker).Heard w n :=
  h.congr (List.prefix_append _ _) rfl rfl rfl rfl

/-! ## Every call keeps the drains registered -/

theorem turn {poll : Poll (Reply Nat)} (h : s.Heard w n) (hn : n ≤ s.woken.length)
    (hidle : s.operation = none) (hturn : Turn waker generation buf start s s' poll) :
    s'.Heard w n := by
  cases hturn with
  | completed => exact h.congr (List.prefix_refl _) rfl rfl rfl rfl
  | blocked => exact h.wake.registerCancellation
  | cancelled => exact h
  | awaits _ hmay => exact (h.begin hidle hmay).await rfl
  | answers _ hmay => exact (h.begin hidle hmay).finish hn rfl

theorem driven {poll : Poll (Reply Nat)} (h : s.Heard w n) (hn : n ≤ s.woken.length)
    (hdriven : Driven waker generation buf start s s' poll) : s'.Heard w n := by
  cases hdriven with
  | awaits hop => exact h.await hop
  | delivers hop => exact h.finish hn hop
  | reports hop => exact (h.handOver hn hop).congr (List.prefix_refl _) rfl rfl rfl rfl
  | @handsOver p result _ _ hop _ _ _ hturn =>
      refine (h.handOver hn hop).turn ?_ (by simp) hturn
      exact Nat.le_trans hn (woken_grows_handOver s p waker result).length_le
  | idle hop hturn => exact h.turn hn hop hturn

theorem written {poll : Poll (Reply Nat)} (h : s.Heard w n) (hn : n ≤ s.woken.length)
    (hwritten : Written waker generation buf start s s' poll) : s'.Heard w n := by
  have hclean := h.cleanup hn
  cases hwritten with
  | empty => exact h
  | completed => exact hclean.congr (List.prefix_refl _) rfl rfl rfl rfl
  | untracked => exact hclean.congr (List.prefix_refl _) rfl rfl rfl rfl
  | refused => exact hclean
  | driven _ _ _ _ hdriven =>
      refine hclean.enqueueTracked.driven ?_ hdriven
      exact Nat.le_trans hn (woken_grows_cleanup s).length_le

theorem barrier {poll : Poll Unit} (h : s.Heard w n) (hbarrier : Barrier waker s s' poll) :
    s'.Heard w n := by
  cases hbarrier with
  | blocked => exact h.registerBarrier.registerCancellation.wake
  | empty => exact h

theorem drained {poll : Poll Unit} (h : s.Heard w n) (hn : n ≤ s.woken.length)
    (hdrained : Drained waker s s' poll) : s'.Heard w n := by
  have hclean := h.cleanup hn
  have hn' := Nat.le_trans hn (woken_grows_cleanup s).length_le
  cases hdrained with
  | awaits hop => exact hclean.await (by simpa using hop)
  | handsOver hop _ hbarrier => exact (hclean.handOver hn' (by simpa using hop)).barrier hbarrier
  | idle _ hbarrier => exact hclean.barrier hbarrier

theorem of_barrier (htracked : ∀ q ∈ s.queue, isTrackedWrite q.generation = true)
    (hclean : s.Clean) (hidle : s.operation = none)
    (hbarrier : Barrier waker s s' .pending) : s'.Heard waker n := by
  cases hbarrier with
  | @blocked front rest hqueue =>
      have hfront : front ∈ s.queue := by simp [hqueue]
      have hlive : (s.live front.generation).isSome = true := by
        simpa [isLiveWrite, htracked front hfront] using hclean.queue_live front hfront
      obtain ⟨waiters, hwaiters⟩ := Option.isSome_iff_exists.mp hlive
      refine Or.inr (Or.inr ⟨by simp, front.generation, register waiters waker, ?_, by simp,
        Or.inr ⟨hidle, by simp [hqueue]⟩⟩)
      simp [registeredCancellation, htracked front hfront, hwaiters]

theorem of_drained (hvalid : s.Valid) (hdrained : Drained waker s s' .pending) :
    s'.Heard waker n := by
  have hclean := clean_cleanupCancelled s
  cases hdrained with
  | awaits hop houtcome =>
      exact Or.inr (Or.inl ⟨_, rfl, houtcome, by simp [PendingOperation.await]⟩)
  | @handsOver p result _ _ hop houtcome hbarrier =>
      have hover : (s.cleanupCancelled.handOver p waker result).Valid :=
        hvalid.cleanupCancelled.handOver (by simpa using hop)
      exact of_barrier hover.queue_tracked (hclean.handOver p waker result) (by simp) hbarrier
  | idle hop hbarrier =>
      exact of_barrier hvalid.cleanupCancelled.queue_tracked hclean (by simpa using hop) hbarrier

end Heard

/-! ## Dropping a token -/

/-- The frontmost live write of another generation. -/
def nextLive (s : WriteState) (g : Generation) : Option QueuedWrite :=
  s.queue.find? fun q => s.isLiveWrite q.generation && q.generation ≠ g

theorem frontLive_retire (hvalid : s.Valid) (waiters : List Waker) :
    (s.retire g waiters).frontLive = s.nextLive g := by
  unfold frontLive nextLive
  apply List.find?_congr
  intro q hq
  have htracked := hvalid.queue_tracked q hq
  by_cases hg : q.generation = g
  · simp [isLiveWrite, hg, hg ▸ htracked]
  · simp [isLiveWrite, hg]

theorem nextLive_of_ne {q : QueuedWrite} (hfront : s.frontLive = some q)
    (hg : q.generation ≠ g) : s.nextLive g = some q := by
  obtain ⟨hlive, before, after, hqueue, hbefore⟩ := List.find?_eq_some_iff_append.mp hfront
  refine List.find?_eq_some_iff_append.mpr ⟨by simp [hlive, hg], before, after, hqueue, ?_⟩
  intro q' hq'
  have hdead := hbefore q' hq'
  simp_all

theorem nextLive_of_none (hfront : s.frontLive = none) : s.nextLive g = none := by
  unfold frontLive at hfront
  unfold nextLive
  rw [List.find?_eq_none] at hfront ⊢
  intro q hq
  have hdead := hfront q hq
  simp_all

end Runite.Io.WriteState

namespace Runite.Io

open Transition WriteState

/-! ## Runs with the moments at which callers were told to wait -/

/-- A writable resource, the number of wakes when each generation was last
told to wait, and the drains that were told to wait, each with the number of
wakes then. -/
structure Watched where
  state : WriteState := {}
  since : Generation → Nat := fun _ => 0
  drains : List (Waker × Nat) := []

namespace Watched

def sinceAfter (since : Generation → Nat) (s' : WriteState) :
    Call → Answer → Generation → Nat
  | .pollWrite _ generation _ _, .write poll => sinceWrite since generation s' poll
  | _, _ => since

/-- A drain that is told to wait.  A shutdown that waits with nothing in flight
and nothing queued waits for its own operation. -/
def drainAfter (s' : WriteState) : Call → Answer → List (Waker × Nat)
  | .pollFlush waker, .unit .pending => [(waker, s'.woken.length)]
  | .pollDrain waker, .drain .pending => [(waker, s'.woken.length)]
  | .pollBufferedWrite waker _ _, .write .pending => [(waker, s'.woken.length)]
  | .pollShutdown waker _, .unit .pending =>
      if s'.operation.isNone && s'.queue.isEmpty then [] else [(waker, s'.woken.length)]
  | _, _ => []

/-- One call, with the callers that are told to wait. -/
def step (v : Watched) (c : Call) : Option Watched :=
  (v.state.call c).map fun (s', answer) =>
    ⟨s', sinceAfter v.since s' c answer, v.drains ++ drainAfter s' c answer⟩

/-- The token of the frontmost live write is dropped with nothing in flight,
and the next one neither was woken since it was told to wait nor is registered
with that token. -/
def Strands (v : Watched) : Call → Prop
  | .dropToken g => v.state.operation = none ∧
      v.state.frontLive.map (·.generation) = some g ∧
      ∃ q, v.state.nextLive g = some q ∧ q.waker ∉ v.state.woken.drop (v.since q.generation) ∧
        ∀ waiters, v.state.live g = some waiters → q.waker ∉ waiters
  | _ => False

structure Watchful (v : Watched) : Prop where
  valid : v.state.Valid
  enrolled : v.state.Enrolled
  since_le : ∀ g, v.since g ≤ v.state.woken.length
  front : v.state.FrontWoken v.since
  drains_le : ∀ w n, (w, n) ∈ v.drains → n ≤ v.state.woken.length
  heard : ∀ w n, (w, n) ∈ v.drains → v.state.Heard w n

variable {v v' : Watched} {s s' : WriteState} {since : Generation → Nat} {c : Call}
  {answer : Answer} {w : Waker} {n : Nat}

theorem woken_grows_called (h : Called s c s' answer) : s.woken <+: s'.woken := by
  cases h with
  | pollWrite hwritten => exact hwritten.woken_grows
  | pollBufferedWrite hwritten =>
      cases hwritten with
      | empty => exact List.prefix_refl _
      | refused => exact List.prefix_refl _
      | awaits _ _ hdrained => exact hdrained.woken_grows
      | reports _ _ hdrained => exact hdrained.woken_grows
      | accepts _ _ hdrained => exact hdrained.woken_grows
      | answers _ _ hdrained => exact hdrained.woken_grows.trans (List.prefix_append _ _)
  | pollFlush hflushed =>
      cases hflushed with
      | awaits hdrained => exact hdrained.woken_grows
      | reports hdrained => exact hdrained.woken_grows
      | reportsUntracked hdrained => exact hdrained.woken_grows
      | flushed hdrained => exact hdrained.woken_grows
  | pollDrain hdrained => exact hdrained.woken_grows
  | pollShutdown hshutDown =>
      cases hshutDown with
      | awaits hdrained => exact hdrained.woken_grows
      | reports hdrained => exact hdrained.woken_grows
      | drives hdrained => exact hdrained.woken_grows.trans (List.prefix_append _ _)
  | newToken => exact List.prefix_refl _
  | dropToken => exact List.prefix_append _ _
  | complete => exact List.prefix_append _ _
  | completeShutdown => exact List.prefix_append _ _

theorem frontWoken_of_queue_nil (h : s.queue = []) : s.FrontWoken since := by
  intro _ q hq
  simp [frontLive, h] at hq

/-- No call but one that strands a writer leaves the front of the queue asleep. -/
theorem frontWoken_called (h : v.Watchful) (hstrands : ¬ v.Strands c)
    (hcalled : Called v.state c s' answer) : s'.FrontWoken (sinceAfter v.since s' c answer) := by
  have hdrain : ∀ waker t drain, Drained waker v.state t drain → t.FrontWoken v.since :=
    fun waker t drain => frontWoken_drained h.front h.since_le
  cases hcalled with
  | pollWrite hwritten => exact frontWoken_written h.front h.since_le hwritten
  | pollBufferedWrite hwritten =>
      cases hwritten with
      | empty => exact h.front
      | refused => exact h.front
      | awaits _ _ hdrained => exact hdrain _ _ _ hdrained
      | reports _ _ hdrained => exact frontWoken_of_queue_nil hdrained.idle_of_ready.2
      | accepts => simp [FrontWoken]
      | answers _ _ hdrained => exact frontWoken_of_queue_nil hdrained.idle_of_ready.2
  | pollFlush hflushed =>
      cases hflushed with
      | awaits hdrained => exact hdrain _ _ _ hdrained
      | reports hdrained => exact frontWoken_of_queue_nil hdrained.idle_of_ready.2
      | reportsUntracked hdrained => exact frontWoken_of_queue_nil hdrained.idle_of_ready.2
      | flushed hdrained => exact hdrain _ _ _ hdrained
  | pollDrain hdrained => exact hdrain _ _ _ hdrained
  | pollShutdown hshutDown =>
      have hrequest : v.state.requestShutdown.FrontWoken v.since := h.front
      cases hshutDown with
      | awaits hdrained => exact frontWoken_drained hrequest h.since_le hdrained
      | reports hdrained => exact frontWoken_of_queue_nil hdrained.idle_of_ready.2
      | drives hdrained => exact frontWoken_of_queue_nil hdrained.idle_of_ready.2
  | @newToken g _ hfresh =>
      intro hidle q hq
      have hfront : (v.state.issue g).frontLive = v.state.frontLive := by
        apply List.find?_congr
        intro q hq
        have hne : q.generation ≠ g := by
          rintro rfl
          exact hfresh (h.enrolled.queue_issued q hq)
        simp [isLiveWrite, hne]
      exact h.front hidle q (hfront ▸ hq)
  | @dropToken g waiters hlive =>
      intro hidle q hq
      rw [frontLive_retire h.valid] at hq
      cases hfront : v.state.frontLive with
      | none => simp [nextLive_of_none hfront] at hq
      | some front =>
          by_cases hg : front.generation = g
          · -- the next writer was woken, or is woken by the drop
            by_cases hwoken : q.waker ∈ v.state.woken.drop (v.since q.generation)
            · exact mem_drop_of_grows hwoken (List.prefix_append _ _)
            · have hmem : q.waker ∈ waiters := by
                by_contra hmem
                refine hstrands ⟨hidle, by simp [hfront, hg], q, hq, hwoken, ?_⟩
                intro waiters' hlive'
                obtain rfl : waiters = waiters' := by simpa [hlive] using hlive'
                exact hmem
              exact mem_drop_append_of_mem hmem (h.since_le _)
          · obtain rfl : front = q := by simpa [nextLive_of_ne hfront hg] using hq
            exact mem_drop_of_grows (h.front hidle front hfront) (List.prefix_append _ _)
  | complete => simp [FrontWoken]
  | completeShutdown =>
      intro hidle q hq
      exact mem_drop_of_grows (h.front hidle q hq) (List.prefix_append _ _)

theorem heard_of_ready {t u : WriteState} {waker : Waker} (hw : s.Heard w n)
    (hn : n ≤ s.woken.length) (hdrained : Drained waker s t (.ready ()))
    (hgrows : t.woken <+: u.woken) : u.Heard w n := by
  obtain ⟨hidle, hqueue⟩ := hdrained.idle_of_ready
  exact Or.inl (mem_drop_of_grows ((hw.drained hn hdrained).of_idle hidle hqueue) hgrows)

/-- A drain that was told to wait stays registered until it is woken. -/
theorem heard_called (h : v.Watchful) (hw : v.state.Heard w n)
    (hn : n ≤ v.state.woken.length) (hcalled : Called v.state c s' answer) : s'.Heard w n := by
  have hrefl : ∀ l : List Waker, l <+: l := List.prefix_refl
  cases hcalled with
  | pollWrite hwritten => exact hw.written hn hwritten
  | pollBufferedWrite hwritten =>
      cases hwritten with
      | empty => exact hw
      | refused => exact hw
      | awaits _ _ hdrained => exact hw.drained hn hdrained
      | reports _ _ hdrained => exact heard_of_ready hw hn hdrained (hrefl _)
      | accepts _ _ hdrained => exact heard_of_ready hw hn hdrained (hrefl _)
      | answers _ _ hdrained => exact heard_of_ready hw hn hdrained (List.prefix_append _ _)
  | pollFlush hflushed =>
      cases hflushed with
      | awaits hdrained => exact hw.drained hn hdrained
      | reports hdrained => exact heard_of_ready hw hn hdrained (hrefl _)
      | reportsUntracked hdrained => exact heard_of_ready hw hn hdrained (hrefl _)
      | flushed hdrained => exact hw.drained hn hdrained
  | pollDrain hdrained => exact hw.drained hn hdrained
  | pollShutdown hshutDown =>
      have hrequest : v.state.requestShutdown.Heard w n := hw.congr (hrefl _) rfl rfl rfl rfl
      cases hshutDown with
      | awaits hdrained => exact hrequest.drained hn hdrained
      | reports hdrained => exact heard_of_ready hrequest hn hdrained (hrefl _)
      | drives hdrained => exact heard_of_ready hrequest hn hdrained (List.prefix_append _ _)
  | @newToken g _ hfresh =>
      refine hw.of_grows (List.prefix_refl _) (fun h => Or.inr (Or.inl h)) ?_
      rintro ⟨hbarrier, f, waiters, hlive, hmem, hturn⟩
      have hne : f ≠ g := by
        rintro rfl
        exact hfresh (h.enrolled.live_issued f (by simp [hlive]))
      exact Or.inr (Or.inr ⟨hbarrier, f, waiters, by simpa [hne] using hlive, hmem, hturn⟩)
  | @dropToken g waiters hlive =>
      refine hw.of_grows (List.prefix_append _ _) (fun h => Or.inr (Or.inl h)) ?_
      rintro ⟨hbarrier, f, waiters', hlive', hmem, hturn⟩
      by_cases hf : f = g
      · -- the drop wakes whoever is in the cancellation set
        subst hf
        obtain rfl : waiters = waiters' := by simpa [hlive] using hlive'
        exact Or.inl (mem_drop_append_of_mem hmem hn)
      · exact Or.inr (Or.inr ⟨hbarrier, f, waiters', by simpa [hf] using hlive', hmem, hturn⟩)
  | @complete p result hop houtcome =>
      refine hw.of_grows (List.prefix_append _ _) ?_ ?_
      · rintro ⟨q, hq, -, hmem⟩
        obtain rfl : p = q := by simpa [hop] using hq
        exact Or.inl (mem_drop_append_of_mem hmem hn)
      · rintro ⟨hbarrier, f, waiters, hlive, hmem, ⟨q, hq, hkind⟩ | ⟨hidle, -⟩⟩
        · obtain rfl : p = q := by simpa [hop] using hq
          exact Or.inr (Or.inr ⟨hbarrier, f, waiters, hlive, hmem, Or.inl ⟨_, rfl, hkind⟩⟩)
        · simp [hop] at hidle
  | completeShutdown => exact hw.congr (List.prefix_append _ _) rfl rfl rfl rfl

theorem heard_drainAfter (h : v.Watchful) (hcalled : Called v.state c s' answer)
    (hw : (w, n) ∈ drainAfter s' c answer) : n = s'.woken.length ∧ s'.Heard w n := by
  cases hcalled with
  | pollFlush hflushed =>
      cases hflushed with
      | awaits hdrained =>
          obtain ⟨rfl, rfl⟩ : w = _ ∧ n = _ := by simpa [drainAfter] using hw
          exact ⟨rfl, .of_drained h.valid hdrained⟩
      | reports => simp [drainAfter] at hw
      | reportsUntracked => simp [drainAfter] at hw
      | flushed => simp [drainAfter] at hw
  | @pollDrain _ _ poll hdrained =>
      cases poll with
      | pending =>
          obtain ⟨rfl, rfl⟩ : w = _ ∧ n = _ := by simpa [drainAfter] using hw
          exact ⟨rfl, .of_drained h.valid hdrained⟩
      | ready => simp [drainAfter] at hw
  | pollBufferedWrite hwritten =>
      cases hwritten with
      | awaits _ _ hdrained =>
          obtain ⟨rfl, rfl⟩ : w = _ ∧ n = _ := by simpa [drainAfter] using hw
          exact ⟨rfl, .of_drained h.valid hdrained⟩
      | empty => simp [drainAfter] at hw
      | refused => simp [drainAfter] at hw
      | reports => simp [drainAfter] at hw
      | accepts => simp [drainAfter] at hw
      | answers => simp [drainAfter] at hw
  | @pollShutdown waker start _ _ hshutDown =>
      have hvalid : v.state.requestShutdown.Valid := by apply h.valid.congr <;> rfl
      cases hshutDown with
      | awaits hdrained =>
          simp only [drainAfter] at hw
          split at hw
          · simp at hw
          · obtain ⟨rfl, rfl⟩ : w = _ ∧ n = _ := by simpa using hw
            exact ⟨rfl, .of_drained hvalid hdrained⟩
      | reports => simp [drainAfter] at hw
      | @drives t hdrained =>
          obtain ⟨hidle, hqueue⟩ := hdrained.idle_of_ready
          cases hpoll : (t.shutdown.poll waker start).2.2 with
          | ready => simp [drainAfter, hpoll, Poll.map] at hw
          | pending => simp [drainAfter, hpoll, Poll.map, hidle, hqueue] at hw
  | pollWrite => simp [drainAfter] at hw
  | newToken => simp [drainAfter] at hw
  | dropToken => simp [drainAfter] at hw
  | complete => simp [drainAfter] at hw
  | completeShutdown => simp [drainAfter] at hw

theorem Watchful.init : Watchful {} := by
  refine ⟨.init, ⟨by simp, by simp⟩, by simp, ?_, by simp, by simp⟩
  exact frontWoken_of_queue_nil rfl

theorem Watchful.step (h : v.Watchful) (hstrands : ¬ v.Strands c)
    (hstep : v.step c = some v') : v'.Watchful := by
  obtain ⟨⟨s', answer⟩, hcall, rfl⟩ := Option.map_eq_some_iff.mp hstep
  have hcalled := called_of_call hcall
  have hlength := (woken_grows_called hcalled).length_le
  refine ⟨h.valid.called hcalled, h.enrolled.called hcalled, ?_,
    frontWoken_called h hstrands hcalled, ?_, ?_⟩
  · intro g
    have hold : v.since g ≤ s'.woken.length := Nat.le_trans (h.since_le g) hlength
    cases hcalled with
    | @pollWrite _ generation _ _ _ poll _ =>
        cases poll with
        | ready => exact hold
        | pending =>
            by_cases hg : g = generation
            · simp [sinceAfter, sinceWrite, hg]
            · simpa [sinceAfter, sinceWrite, hg] using hold
    | _ => exact hold
  · intro w n hw
    rcases List.mem_append.mp hw with hw | hw
    · exact Nat.le_trans (h.drains_le w n hw) hlength
    · exact Nat.le_of_eq (heard_drainAfter h hcalled hw).1
  · intro w n hw
    rcases List.mem_append.mp hw with hw | hw
    · exact heard_called h (h.heard w n hw) (h.drains_le w n hw) hcalled
    · exact (heard_drainAfter h hcalled hw).2

/-- With nothing in flight the frontmost live write has been woken since it was
last told to wait; and every drain that was told to wait has been woken since,
or is registered with what it waits for. -/
def NoneForgotten (v : Watched) : Prop :=
  (v.state.operation = none → ∀ q, v.state.frontLive = some q →
    q.waker ∈ v.state.woken.drop (v.since q.generation)) ∧
  ∀ w n, (w, n) ∈ v.drains →
    w ∈ v.state.woken.drop n ∨ v.state.AtOperation w ∨ v.state.AtBarrier w

/-- In every run in which no dropped token strands the next writer, nobody is
forgotten. -/
theorem noneForgotten_of_reachable
    (h : Reachable step (fun v c => ¬ v.Strands c) {} v) : v.NoneForgotten := by
  have hwatchful : v.Watchful := by
    refine h.invariant Watchful .init ?_
    intro v c v' hv hstrands hstep
    exact hv.step hstrands hstep
  exact ⟨hwatchful.front, hwatchful.heard⟩

/-- The tracked generation with this number. -/
def tracked (n : UInt64) : Generation := trackedWriteBit ||| n

/-- One write in flight, one queued behind it, and a drain. -/
def queuedWriter : List Call :=
  [.newToken (tracked 1), .newToken (tracked 2), .pollWrite 1 (tracked 1) ⟨100, [1]⟩ none,
    .pollWrite 2 (tracked 2) ⟨200, [2]⟩ none, .complete (.ok 1),
    .pollWrite 1 (tracked 1) ⟨100, [1]⟩ none, .pollDrain 3]

/-- The queued writer has been woken, and the drain is registered. -/
theorem noneForgotten_queuedWriter : ∃ v : Watched, v.NoneForgotten ∧
    v.state.operation = none ∧ v.state.queue = [⟨tracked 2, 2⟩] ∧
    v.drains.map Prod.fst = [3] := by
  obtain ⟨v, hreach, hv⟩ := Reachable.exists_of_run step (fun v c => ¬ v.Strands c) {}
    queuedWriter (fun v => v.state.operation = none ∧ v.state.queue = [⟨tracked 2, 2⟩] ∧
      v.drains.map Prod.fst = [3]) (by simp [queuedWriter, Strands]) (by decide +kernel)
  exact ⟨v, noneForgotten_of_reachable hreach, of_decide_eq_true hv⟩

/-- The writers 2, 3 and 4 queue behind 1.  Writer 4 finds nothing in flight and
registers with 2; writer 2 writes, 3 is woken, and the token of 3 is dropped. -/
def droppedBetween : List Call :=
  [.newToken (tracked 1), .newToken (tracked 2), .newToken (tracked 3), .newToken (tracked 4),
    .pollWrite 1 (tracked 1) ⟨100, [1]⟩ none, .pollWrite 2 (tracked 2) ⟨200, [2]⟩ none,
    .pollWrite 3 (tracked 3) ⟨300, [3]⟩ none, .complete (.ok 1),
    .pollWrite 1 (tracked 1) ⟨100, [1]⟩ none, .pollWrite 4 (tracked 4) ⟨400, [4]⟩ none,
    .pollWrite 2 (tracked 2) ⟨200, [2]⟩ none, .complete (.ok 1),
    .pollWrite 2 (tracked 2) ⟨200, [2]⟩ none, .dropToken (tracked 3)]

/-- A queued writer is forgotten when the token before it is dropped: it was
registered with an earlier generation only, and its stored waker is not woken. -/
theorem dropped_token_forgets_writer : ∃ v : Watched,
    Reachable step (fun _ _ => True) {} v ∧ v.state.operation = none ∧
      v.state.frontLive = some ⟨tracked 4, 4⟩ ∧
      4 ∉ v.state.woken.drop (v.since (tracked 4)) := by
  obtain ⟨v, hreach, hv⟩ := Reachable.exists_of_run step (fun _ _ => True) {} droppedBetween
    (fun v => v.state.operation = none ∧ v.state.frontLive = some ⟨tracked 4, 4⟩ ∧
      4 ∉ v.state.woken.drop (v.since (tracked 4))) (by simp) (by decide +kernel)
  exact ⟨v, hreach, of_decide_eq_true hv⟩

end Watched

end Runite.Io
