import Runite.Lib.Transition
import Runite.Linux.UringLedger

/-!
# Staging loses and duplicates nothing

The ring refines the ledger over every run: batches are staged, `submit_pending` is called with
any results of `io_uring_enter`, the kernel posts completions, and they are drained.
-/

namespace Runite.Linux

variable {τ : Type}

/-- A ring with its ledger.  `batches` are all that were staged, and `reported` the failures that
`submit_pending` has returned. -/
structure UringSystem (τ : Type) where
  ring : IoUring τ
  batches : List (SubmissionBatch τ) := []
  ledger : Ledger τ := []
  reported : List (IoUringCqe τ) := []

inductive UringAction (τ : Type)
  | submitWithToken (token : τ) (opcode : Opcode) (fd : Int) (duplicated : Option Nat)
  | submitLinkedWithTimeout (mainToken : τ) (opcode : Opcode) (fd : Int) (timeoutToken : τ)
      (duplicated : Option Nat)
  | submitPending (waitForCqe : Bool) (results : List (Except Nat Nat))
  | post (cqe : IoUringCqe τ)
  | drainCompletions

namespace UringSystem

variable [DecidableEq τ] (s : UringSystem τ)

/-- The batches that the ring has got are written down. -/
def recordStaged (ring : IoUring τ) : UringSystem τ :=
  let staged := ring.pending.drop s.ring.pending.length
  { s with ring, batches := s.batches ++ staged, ledger := s.ledger.stage staged.flatten }

/-- What `submit_pending` returns is written down. -/
def recordOutcome (ring : IoUring τ) : Except SubmitError (SubmitOutcome τ) → UringSystem τ
  | .error _ => { s with ring }
  | .ok outcome =>
      let ledger :=
        match outcome.error, outcome.retry with
        | none, _ => s.ledger.accept outcome.submitted
        | some errno, false => s.ledger.fail errno
        | some _, true => s.ledger
      { s with ring, ledger, reported := s.reported ++ outcome.failures }

def step : UringAction τ → Option (UringSystem τ)
  | .submitWithToken userData opcode fd duplicated =>
      (s.ring.pushSqe { opcode, fd, userData } duplicated).map s.recordStaged
  | .submitLinkedWithTimeout mainToken opcode fd timeoutToken duplicated =>
      (s.ring.submitLinkedWithTimeout mainToken opcode fd timeoutToken duplicated).map
        s.recordStaged
  | .submitPending waitForCqe results =>
      (s.ring.submitPending waitForCqe results).map fun (ring, outcome, _) =>
        s.recordOutcome ring outcome
  | .post cqe => (s.ring.post cqe).map fun ring => { s with ring }
  | .drainCompletions =>
      let (ring, drained) := s.ring.drainCompletions
      some { s with
        ring
        ledger := drained.foldl (fun ledger cqe => ledger.drain cqe.userData) s.ledger }

def Reachable (ring : IoUring τ) (s : UringSystem τ) : Prop :=
  Transition.Reachable step (fun _ _ => True) { ring } s

/-! ## The ring refines the ledger -/

variable {s} {t : UringSystem τ}

structure Refines (s : UringSystem τ) : Prop where
  ready : s.ring.Ready
  ledger : ∃ done, s.ledger = done ++ Ledger.all .pending s.ring.pending.flatten ∧
    ∀ e ∈ done, e.2.isPending = false
  staged : s.ledger.map Prod.fst = s.batches.flatten
  suffix : s.ring.pending <:+ s.batches
  accepted : s.ring.accepted = (s.ledger.withFate Fate.isAccepted).map fun o => some o.sqe
  reported : s.reported = s.ledger.failures
  fds : ∀ userData, s.ring.inflightFds userData = s.ledger.descriptors userData
  published : ∀ call ∈ s.ring.published, ∃ batches, batches <:+: s.batches ∧
    call = IoUring.entriesOf batches
  kept : ∀ batch ∈ s.batches, ∀ owned ∈ batch, owned.Kept

theorem Refines.init {bits cqBits : Nat} {submitAll deferTaskrun : Bool} (hpos : 1 ≤ bits)
    (hle : bits ≤ 15) :
    Refines (τ := τ) { ring := { bits, cqBits, submitAll, deferTaskrun } } where
  ready := ⟨hpos, hle, rfl, rfl, Nat.two_pow_pos 32, by simp⟩
  ledger := ⟨[], rfl, by simp⟩
  staged := rfl
  suffix := List.suffix_refl _
  accepted := rfl
  reported := rfl
  fds := fun _ => rfl
  published := by simp
  kept := by simp

theorem Refines.stage {batch : SubmissionBatch τ} (h : s.Refines) (hshape : IoUring.Shape batch)
    (hkept : ∀ owned ∈ batch, owned.Kept) :
    (s.recordStaged { s.ring with pending := s.ring.pending ++ [batch] }).Refines := by
  have hdrop : (s.ring.pending ++ [batch]).drop s.ring.pending.length = [batch] := List.drop_left
  unfold recordStaged
  dsimp only
  rw [hdrop]
  obtain ⟨done, hledger, hdone⟩ := h.ledger
  exact {
    ready := { h.ready with
      shape := by
        intro b hb
        rcases List.mem_append.mp hb with hold | hnew
        · exact h.ready.shape b hold
        · rw [List.mem_singleton.mp hnew]
          exact hshape }
    ledger := by
      refine ⟨done, ?_, hdone⟩
      simp [hledger, Ledger.stage, Ledger.all]
    staged := by
      simp [Ledger.stage, Ledger.map_fst_all, h.staged]
    suffix := by
      obtain ⟨before, hbefore⟩ := h.suffix
      exact ⟨before, by rw [← hbefore, List.append_assoc]⟩
    accepted := by simpa [Ledger.stage, Fate.isAccepted] using h.accepted
    reported := by simpa [Ledger.stage] using h.reported
    fds := by simpa [Ledger.stage] using h.fds
    published := by
      intro call hcall
      obtain ⟨batches, hinfix, heq⟩ := h.published call hcall
      exact ⟨batches, hinfix.trans (List.prefix_append _ _).isInfix, heq⟩
    kept := by
      intro b hb
      rcases List.mem_append.mp hb with hold | hnew
      · exact h.kept b hold
      · rw [List.mem_singleton.mp hnew]
        exact hkept }

/-- Every call of `io_uring_enter` is given batches that were staged one after the other. -/
theorem Refines.published_submit {ring : IoUring τ} (h : s.Refines)
    (hframe : IoUring.Frame s.ring ring) :
    ∀ call ∈ ring.published, ∃ batches, batches <:+: s.batches ∧
      call = IoUring.entriesOf batches := by
  obtain ⟨calls, hpublished, hcalls⟩ := hframe.published
  intro call hcall
  rw [hpublished] at hcall
  rcases List.mem_append.mp hcall with hold | hnew
  · exact h.published call hold
  · obtain ⟨k, -, heq⟩ := hcalls call hnew
    exact ⟨_, (List.take_prefix k _).isInfix.trans h.suffix.isInfix, heq⟩

theorem Refines.submit {ring : IoUring τ} {outcome : Except SubmitError (SubmitOutcome τ)}
    (h : s.Refines) (hready : ring.Ready) (hframe : IoUring.Frame s.ring ring)
    (hsubmitted : IoUring.Submitted s.ring ring outcome) :
    (s.recordOutcome ring outcome).Refines := by
  have hpublished := h.published_submit hframe
  obtain ⟨done, hledger, hdone⟩ := h.ledger
  cases hsubmitted with
  | accepted k hk hpending haccepted hfds =>
      have hsplit : s.ring.pending.flatten =
          (s.ring.pending.take k).flatten ++ (s.ring.pending.drop k).flatten := by
        rw [← List.flatten_append, List.take_append_drop]
      have haccept : s.ledger.accept (s.ring.pending.take k).flatten.length =
          done ++ (Ledger.all .accepted (s.ring.pending.take k).flatten ++
            Ledger.all .pending (s.ring.pending.drop k).flatten) := by
        rw [hledger, Ledger.accept_append hdone, hsplit, Ledger.accept_pending]
      have hkept : ∀ o ∈ (s.ring.pending.take k).flatten, o.Kept := by
        intro o ho
        obtain ⟨batch, hbatch, hmem⟩ := List.mem_flatten.mp ho
        exact h.kept batch (h.suffix.mem (List.mem_of_mem_take hbatch)) o hmem
      have haccepted₀ := h.accepted
      have hreported₀ := h.reported
      have hstaged₀ := h.staged
      have hfds₀ := h.fds
      rw [hledger] at haccepted₀ hreported₀ hstaged₀ hfds₀
      unfold recordOutcome
      dsimp only
      rw [haccept]
      exact {
        ready := hready
        ledger := by
          refine ⟨done ++ Ledger.all .accepted (s.ring.pending.take k).flatten, ?_, ?_⟩
          · rw [hpending, List.append_assoc]
          · intro e he
            rcases List.mem_append.mp he with hold | hnew
            · exact hdone e hold
            · obtain ⟨o, -, rfl⟩ := List.mem_map.mp hnew
              rfl
        staged := by
          rw [hsplit] at hstaged₀
          simpa [Ledger.map_fst_all] using hstaged₀
        suffix := hpending ▸ (List.drop_suffix k _).trans h.suffix
        accepted := by
          rw [haccepted, haccepted₀]
          simp [Fate.isAccepted, IoUring.entriesOf]
        reported := by
          simpa using hreported₀
        fds := by
          intro userData
          rw [hfds, Ledger.foldl_retain hkept, hfds₀]
          simp
        published := hpublished
        kept := h.kept }
  | failed errno hpending haccepted hfds =>
      have hfail : s.ledger.fail errno = done ++ Ledger.all (.failed errno) s.ring.pending.flatten := by
        rw [hledger, Ledger.fail_append hdone]
      have haccepted₀ := h.accepted
      have hreported₀ := h.reported
      have hstaged₀ := h.staged
      have hfds₀ := h.fds
      rw [hledger] at haccepted₀ hreported₀ hstaged₀ hfds₀
      unfold recordOutcome
      dsimp only
      rw [hfail]
      exact {
        ready := hready
        ledger := by
          refine ⟨done ++ Ledger.all (.failed errno) s.ring.pending.flatten, ?_, ?_⟩
          · rw [hpending]
            exact (List.append_nil _).symm
          · intro e he
            rcases List.mem_append.mp he with hold | hnew
            · exact hdone e hold
            · obtain ⟨o, -, rfl⟩ := List.mem_map.mp hnew
              rfl
        staged := by simpa [Ledger.map_fst_all] using hstaged₀
        suffix := hpending ▸ List.nil_suffix
        accepted := by
          rw [haccepted, haccepted₀]
          simp [Fate.isAccepted]
        reported := by
          rw [hreported₀]
          simp
        fds := by
          intro userData
          rw [hfds, hfds₀]
          simp
        published := hpublished
        kept := h.kept }
  | retry errno hpending haccepted hfds =>
      exact { h with
        ready := hready
        ledger := ⟨done, hpending ▸ hledger, hdone⟩
        suffix := hpending ▸ h.suffix
        accepted := haccepted.trans h.accepted
        reported := (List.append_nil _).trans h.reported
        fds := fun userData => (congrFun hfds userData).trans (h.fds userData)
        published := hpublished }
  | error errno hpending haccepted hfds hnone =>
      exact { h with
        ready := hready
        ledger := ⟨done, hpending ▸ hledger, hdone⟩
        suffix := hpending ▸ h.suffix
        accepted := haccepted.trans h.accepted
        fds := fun userData => (congrFun hfds userData).trans (h.fds userData)
        published := hpublished }

theorem Refines.drain (h : s.Refines) (userData : τ) :
    Refines { s with
      ring := { s.ring with inflightFds := Function.update s.ring.inflightFds userData [] }
      ledger := s.ledger.drain userData } := by
  obtain ⟨done, hledger, hdone⟩ := h.ledger
  exact {
    ready := { h.ready with }
    ledger := by
      refine ⟨done.drain userData, ?_, Ledger.isPending_drain hdone⟩
      rw [hledger, Ledger.drain_append, Ledger.drain_all (by decide)]
    staged := Ledger.map_fst_drain.trans h.staged
    suffix := h.suffix
    accepted := by
      rw [Ledger.withFate_drain]
      exact h.accepted
    reported := h.reported.trans Ledger.failures_drain.symm
    fds := by
      intro ud
      rw [Ledger.descriptors_drain]
      dsimp only
      split
      next hud => rw [hud, Function.update_self]
      next hud => rw [Function.update_of_ne hud, h.fds]
    published := h.published
    kept := h.kept }

theorem Refines.drainAll (h : s.Refines) (drained : List (IoUringCqe τ)) :
    Refines { s with
      ring := { s.ring with
        inflightFds :=
          drained.foldl (fun fds cqe => Function.update fds cqe.userData []) s.ring.inflightFds }
      ledger := drained.foldl (fun ledger cqe => ledger.drain cqe.userData) s.ledger } := by
  induction drained generalizing s with
  | nil => exact h
  | cons cqe drained ih => exact ih (h.drain cqe.userData)

theorem Refines.step {a : UringAction τ} (h : s.Refines) (hstep : s.step a = some t) :
    t.Refines := by
  cases a with
  | submitWithToken token opcode fd duplicated =>
      obtain ⟨ring, hpush, rfl⟩ := Option.map_eq_some_iff.mp hstep
      obtain ⟨owned, hprepare, rfl⟩ := Option.map_eq_some_iff.mp hpush
      obtain ⟨hkept, hlink, -⟩ := prepareSqe_spec hprepare
      refine h.stage (.single hlink) fun o ho => ?_
      rw [List.mem_singleton.mp ho]
      exact hkept
  | submitLinkedWithTimeout mainToken opcode fd timeoutToken duplicated =>
      obtain ⟨ring, hlinked, rfl⟩ := Option.map_eq_some_iff.mp hstep
      obtain ⟨main, hmain, htimeout⟩ := Option.bind_eq_some_iff.mp hlinked
      obtain ⟨timeout, hprepare, rfl⟩ := Option.map_eq_some_iff.mp htimeout
      obtain ⟨hkeptMain, hlinkMain, -⟩ := prepareSqe_spec hmain
      obtain ⟨hkeptTimeout, hlinkTimeout, -⟩ := prepareSqe_spec hprepare
      refine h.stage (.pair hlinkMain hlinkTimeout) fun o ho => ?_
      rcases List.mem_cons.mp ho with rfl | htail
      · exact hkeptMain
      · rw [List.mem_singleton.mp htail]
        exact hkeptTimeout
  | submitPending waitForCqe results =>
      obtain ⟨⟨ring, outcome, rest⟩, hsubmit, rfl⟩ := Option.map_eq_some_iff.mp hstep
      obtain ⟨hready, hframe, hsubmitted⟩ := IoUring.submitPending_spec h.ready hsubmit
      exact h.submit hready hframe hsubmitted
  | post cqe =>
      obtain ⟨ring, hpost, rfl⟩ := Option.map_eq_some_iff.mp hstep
      obtain ⟨-, hring⟩ := Option.ite_none_right_eq_some.mp hpost
      obtain rfl := Option.some.inj hring
      exact { h with ready := { h.ready with } }
  | drainCompletions =>
      obtain rfl := Option.some.inj hstep
      have hdrained := h.drainAll s.ring.drainCompletions.2
      exact { hdrained with ready := { hdrained.ready with } }

theorem refines_of_reachable {bits cqBits : Nat} {submitAll deferTaskrun : Bool} (hpos : 1 ≤ bits)
    (hle : bits ≤ 15) (hreach : Reachable { bits, cqBits, submitAll, deferTaskrun } s) :
    s.Refines :=
  Transition.Reachable.invariant Refines (Refines.init hpos hle)
    (fun _ _ _ h _ hstep => h.step hstep) hreach

/-- In every run of a ring of at least two entries nothing stays published; every entry that was
staged is pending, accepted or failed, each in the order of staging; the kernel is given whole
batches; and the descriptors that are kept are those of the pending entries and of the accepted
ones that are not drained, `MSG_RING` apart. -/
theorem staging_of_reachable (bits cqBits : Nat) (submitAll deferTaskrun : Bool)
    (hpos : 1 ≤ bits) (hle : bits ≤ 15) (s : UringSystem τ)
    (hreach : Reachable { bits, cqBits, submitAll, deferTaskrun } s) :
    (s.ring.sqTail = s.ring.sqHead ∧ s.ring.submissionPoisoned = false) ∧
      s.ledger.map Prod.fst = s.batches.flatten ∧
      (s.ring.pending <:+ s.batches ∧
        s.ring.pending.flatten = s.ledger.withFate Fate.isPending) ∧
      (s.ring.accepted = (s.ledger.withFate Fate.isAccepted).map fun o => some o.sqe) ∧
      s.reported = s.ledger.failures ∧
      (∀ call ∈ s.ring.published, ∃ batches, batches <:+: s.batches ∧
        call = IoUring.entriesOf batches) ∧
      ∀ userData, s.ring.inflightFds userData = s.ledger.descriptors userData := by
  have h := refines_of_reachable hpos hle hreach
  obtain ⟨done, hledger, hdone⟩ := h.ledger
  refine ⟨⟨h.ready.empty, h.ready.healthy⟩, h.staged, ⟨h.suffix, ?_⟩, h.accepted, h.reported,
    h.published, h.fds⟩
  have hnone : done.withFate Fate.isPending = [] := by
    unfold Ledger.withFate
    rw [List.filter_eq_nil_iff.mpr fun e he => by rw [hdone e he]; exact Bool.false_ne_true]
    rfl
  rw [hledger, Ledger.withFate_append, hnone]
  simp [Fate.isPending]

/-- A short submission behind an interrupted call, then a linked pair that is refused once and
fails. -/
theorem staging_of_failed_pair :
    ∃ s : UringSystem Nat,
      Reachable { bits := 1, cqBits := 2, submitAll := false, deferTaskrun := false } s ∧
      (s.batches.length = 3 ∧ s.ring.sqHead = 2 ∧
        s.ledger.map Prod.snd = [.drained, .accepted, .failed 5, .failed 5]) ∧
      s.ring.sqTail = s.ring.sqHead ∧ s.ledger.map Prod.fst = s.batches.flatten ∧
      s.reported = s.ledger.failures ∧
      s.ring.inflightFds 8 = s.ledger.descriptors 8 := by
  obtain ⟨s, hreach, hp⟩ := Transition.Reachable.exists_of_run step (fun _ _ => True)
    ({ ring := { bits := 1, cqBits := 2, submitAll := false, deferTaskrun := false } } :
      UringSystem Nat)
    [.submitWithToken 7 .read 3 (some 10), .submitWithToken 8 .read 3 (some 11),
      .submitLinkedWithTimeout 9 .recv 4 10 (some 12), .submitPending false [.error 4, .ok 1],
      .post ⟨7, 20⟩, .drainCompletions, .submitPending true [.ok 1],
      .submitPending false [.error 11], .submitPending false [.error 5]]
    (fun s => decide (s.batches.length = 3 ∧ s.ring.sqHead = 2 ∧
      s.ledger.map Prod.snd = [.drained, .accepted, .failed 5, .failed 5]))
    (by simp) (by decide +kernel)
  obtain ⟨⟨hempty, -⟩, hstaged, -, -, hreported, -, hfds⟩ :=
    staging_of_reachable 1 2 false false (by decide) (by decide) s hreach
  exact ⟨s, hreach, of_decide_eq_true hp, hempty, hstaged, hreported, hfds 8⟩

/-- The descriptor of a `MSG_RING` entry is closed when the entry is accepted, although it has not
failed and no completion was drained. -/
theorem descriptor_released_at_acceptance :
    ∃ s : UringSystem Nat,
      Reachable { bits := 3, cqBits := 4, submitAll := true, deferTaskrun := false } s ∧
      ∃ owned : OwnedSqe Nat, (owned, Fate.accepted) ∈ s.ledger ∧ owned.fd = some 10 ∧
        owned ∉ s.ring.pending.flatten ∧ 10 ∉ s.ring.inflightFds owned.sqe.userData := by
  obtain ⟨s, hreach, hp⟩ := Transition.Reachable.exists_of_run step (fun _ _ => True)
    ({ ring := { bits := 3, cqBits := 4, submitAll := true, deferTaskrun := false } } :
      UringSystem Nat)
    [.submitWithToken 93 .msgRing 3 (some 10), .submitPending false [.ok 1]]
    (fun s => decide (s.ledger = [(⟨⟨.msgRing, 10, false, 93⟩, some 10, false⟩, Fate.accepted)] ∧
      s.ring.pending = [] ∧ s.ring.inflightFds 93 = []))
    (by simp) (by decide)
  obtain ⟨hledger, hpending, hfds⟩ := of_decide_eq_true hp
  refine ⟨s, hreach, ⟨⟨.msgRing, 10, false, 93⟩, some 10, false⟩, ?_, rfl, ?_, ?_⟩
  · rw [hledger]
    exact List.mem_singleton_self _
  · rw [hpending]
    exact List.not_mem_nil
  · rw [hfds]
    exact List.not_mem_nil

end UringSystem

end Runite.Linux
