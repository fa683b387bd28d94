import Mathlib.Data.List.Basic
import Runite.Linux.Uring

/-!
# What a submission does

`submitPending_spec`: between calls the submission queue is empty, and a call accepts the first
batches, or fails all of them, or leaves them as they are.  It rests on what is published, which
is a number of whole batches as the kernel finds them behind the mask, and on where the kernel
can stop.
-/

namespace Runite.Linux

variable {τ : Type}

namespace IoUring

/-! ## Batches -/

inductive Shape : SubmissionBatch τ → Prop
  | single {owned : OwnedSqe τ} (hlink : owned.sqe.link = false) : Shape [owned]
  | pair {main timeout : OwnedSqe τ} (hmain : main.sqe.link = true)
      (htimeout : timeout.sqe.link = false) : Shape [main, timeout]

theorem Shape.length_le {batch : SubmissionBatch τ} (h : Shape batch) : batch.length ≤ 2 := by
  cases h with
  | single _ => simp
  | pair _ _ => simp

theorem Shape.length_pos {batch : SubmissionBatch τ} (h : Shape batch) : 0 < batch.length := by
  cases h with
  | single _ => simp
  | pair _ _ => simp

/-- The entries of batches, as they are in the ring. -/
def entriesOf (batches : List (SubmissionBatch τ)) : List (Option (IoUringSqe τ)) :=
  batches.flatten.map fun owned => some owned.sqe

theorem entriesOf_cons (batch : SubmissionBatch τ) (batches : List (SubmissionBatch τ)) :
    entriesOf (batch :: batches) =
      (batch.map fun owned => some owned.sqe) ++ entriesOf batches := by
  simp [entriesOf]

theorem length_entriesOf (batches : List (SubmissionBatch τ)) :
    (entriesOf batches).length = batches.flatten.length :=
  List.length_map _

variable {batches : List (SubmissionBatch τ)}

theorem selectBatches_spec {entries available : Nat} (hfits : ∀ batch ∈ batches, batch.length ≤ entries)
    (batchCount sqeCount : Nat) (hcount : sqeCount ≤ available) :
    ∃ k ≤ batches.length,
      selectBatches entries available batchCount sqeCount batches =
        some (batchCount + k, sqeCount + (batches.take k).flatten.length) ∧
      sqeCount + (batches.take k).flatten.length ≤ available ∧
      (k = 0 → ∀ batch ∈ batches.head?, available < sqeCount + batch.length) := by
  induction batches generalizing batchCount sqeCount with
  | nil => exact ⟨0, Nat.le_refl _, rfl, hcount, fun _ => by simp⟩
  | cons batch batches ih =>
      have hbatch : ¬ batch.length > entries := Nat.not_lt.mpr (hfits batch List.mem_cons_self)
      rw [selectBatches, if_neg hbatch]
      by_cases hroom : sqeCount + batch.length > available
      · rw [if_pos hroom]
        exact ⟨0, Nat.zero_le _, rfl, hcount, fun _ => by simpa using hroom⟩
      · rw [if_neg hroom]
        obtain ⟨k, hk, hselect, hle, -⟩ := ih (fun b hb => hfits b (List.mem_cons_of_mem _ hb))
          (batchCount + 1) (sqeCount + batch.length) (Nat.not_lt.mp hroom)
        refine ⟨k + 1, Nat.succ_le_succ hk, ?_, ?_, nofun⟩
        · rw [hselect, List.take_succ_cons, List.flatten_cons, List.length_append]
          simp only [Option.some.injEq, Prod.mk.injEq]
          omega
        · rw [List.take_succ_cons, List.flatten_cons, List.length_append]
          omega

theorem boundary_of_not_linked (hshape : ∀ batch ∈ batches, Shape batch) {submitted : Nat}
    (hle : submitted ≤ batches.flatten.length)
    (hlink : ((entriesOf batches).take submitted).getLast?.any linked = false) :
    ∃ k ≤ batches.length, submitted = (batches.take k).flatten.length := by
  induction batches generalizing submitted with
  | nil => exact ⟨0, Nat.le_refl _, Nat.le_zero.mp hle⟩
  | cons batch batches ih =>
      by_cases hzero : submitted = 0
      · exact ⟨0, Nat.zero_le _, by simpa using hzero⟩
      have hrest : ∀ n, submitted = batch.length + n →
          ∃ k ≤ (batch :: batches).length, submitted = ((batch :: batches).take k).flatten.length := by
        rintro n rfl
        rw [List.flatten_cons, List.length_append] at hle
        have htake : (entriesOf (batch :: batches)).take (batch.length + n) =
            (batch.map fun owned => some owned.sqe) ++ (entriesOf batches).take n := by
          rw [entriesOf_cons, ← List.length_map fun owned : OwnedSqe τ => some owned.sqe,
            List.take_length_add_append]
        by_cases hn : n = 0
        · subst hn
          exact ⟨1, by simp, by simp⟩
        · rw [htake, List.getLast?_append_of_ne_nil _ ?_] at hlink
          · obtain ⟨k, hk, hcount⟩ := ih (fun b hb => hshape b (List.mem_cons_of_mem _ hb))
              (Nat.le_of_add_le_add_left hle) hlink
            refine ⟨k + 1, Nat.succ_le_succ hk, ?_⟩
            rw [List.take_succ_cons, List.flatten_cons, List.length_append, hcount]
          · intro hnil
            have hlength := congrArg List.length hnil
            rw [List.length_take, length_entriesOf, List.length_nil] at hlength
            omega
      cases hshape batch List.mem_cons_self with
      | single hsingle => exact hrest (submitted - 1) (by simp; omega)
      | pair hmain htimeout =>
          by_cases hone : submitted = 1
          · subst hone
            simp [entriesOf_cons, linked, hmain] at hlink
          · exact hrest (submitted - 2) (by simp; omega)

theorem acceptedBatches_spec (hpos : ∀ batch ∈ batches, 0 < batch.length) {k : Nat}
    (hk : k ≤ batches.length) (accepted boundary : Nat) :
    acceptedBatches (boundary + (batches.take k).flatten.length) accepted boundary batches =
      (accepted + k, false) := by
  induction batches generalizing k accepted boundary with
  | nil =>
      obtain rfl : k = 0 := Nat.le_zero.mp hk
      rfl
  | cons batch batches ih =>
      have hbatch := hpos batch List.mem_cons_self
      cases k with
      | zero =>
          have hlt : ¬boundary + ([] : List (OwnedSqe τ)).length ≥ boundary + batch.length := by
            rw [List.length_nil]
            omega
          rw [acceptedBatches, List.take_zero, List.flatten_nil, if_neg hlt]
          simp
      | succ k =>
          have hle : boundary + ((batch :: batches).take (k + 1)).flatten.length ≥
              boundary + batch.length := by
            simp
          rw [acceptedBatches, if_pos hle]
          have hrest := ih (fun b hb => hpos b (List.mem_cons_of_mem _ hb))
            (Nat.le_of_succ_le_succ hk) (accepted + 1) (boundary + batch.length)
          rw [List.take_succ_cons, List.flatten_cons, List.length_append, ← Nat.add_assoc, hrest]
          simp only [Prod.mk.injEq, and_true]
          omega

/-- The first entries of some batches are the entries of the first batches. -/
theorem take_entriesOf {j k : Nat} (hj : j ≤ k) :
    (entriesOf (batches.take k)).take (batches.take j).flatten.length =
      entriesOf (batches.take j) := by
  have hsplit : batches.take k = batches.take j ++ (batches.take k).drop j := by
    conv_lhs => rw [← List.take_append_drop j (batches.take k)]
    rw [List.take_take, Nat.min_eq_left hj]
  rw [hsplit, entriesOf, List.flatten_append, List.map_append,
    ← List.length_map fun owned : OwnedSqe τ => some owned.sqe, List.take_append_length]
  rfl

/-! ## The state between calls -/

/-- What holds of a ring between calls of `submit_pending`: nothing is published, the positions
have wrapped, and a linked pair fits. -/
structure Ready (r : IoUring τ) : Prop where
  pos : 1 ≤ r.bits
  le : r.bits ≤ 15
  healthy : r.submissionPoisoned = false
  empty : r.sqTail = r.sqHead
  head : r.sqHead < 2 ^ 32
  shape : ∀ batch ∈ r.pending, Shape batch

/-- What a submission leaves alone; each call of `io_uring_enter` is given whole batches from the
front. -/
structure Frame (r r' : IoUring τ) : Prop where
  bits : r'.bits = r.bits
  cqBits : r'.cqBits = r.cqBits
  submitAll : r'.submitAll = r.submitAll
  deferTaskrun : r'.deferTaskrun = r.deferTaskrun
  healthy : r'.submissionPoisoned = r.submissionPoisoned
  cqHead : r'.cqHead = r.cqHead
  cqTail : r'.cqTail = r.cqTail
  cqes : r'.cqes = r.cqes
  published : ∃ calls, r'.published = r.published ++ calls ∧
    ∀ call ∈ calls, ∃ k ≤ r.pending.length, call = entriesOf (r.pending.take k)

inductive Submitted [DecidableEq τ] (r r' : IoUring τ) : Except SubmitError (SubmitOutcome τ) → Prop
  /-- the first batches are accepted -/
  | accepted (k : Nat) (hk : k ≤ r.pending.length)
      (hpending : r'.pending = r.pending.drop k)
      (haccepted : r'.accepted = r.accepted ++ entriesOf (r.pending.take k))
      (hfds : r'.inflightFds = (r.pending.take k).flatten.foldl retain r.inflightFds) :
      Submitted r r' (.ok { submitted := (r.pending.take k).flatten.length })
  /-- all batches fail -/
  | failed (errno : Nat) (hpending : r'.pending = []) (haccepted : r'.accepted = r.accepted)
      (hfds : r'.inflightFds = r.inflightFds) :
      Submitted r r' (.ok {
        failures := r.pending.flatten.map fun o => ⟨o.sqe.userData, -errno⟩
        error := some errno })
  /-- nothing is accepted, and the batches stay -/
  | retry (errno : Nat) (hpending : r'.pending = r.pending) (haccepted : r'.accepted = r.accepted)
      (hfds : r'.inflightFds = r.inflightFds) :
      Submitted r r' (.ok { error := some errno, retry := true })
  /-- the call without a submission fails -/
  | error (errno : Nat) (hpending : r'.pending = r.pending) (haccepted : r'.accepted = r.accepted)
      (hfds : r'.inflightFds = r.inflightFds) (hnone : r.pending = []) :
      Submitted r r' (.error (.enter errno))

variable {r r₀ r' : IoUring τ} {k : Nat}

/-- The kernel finds the entries of the batches that are published. -/
theorem window_publish (hready : r.Ready) (hfits : (r.pending.take k).flatten.length ≤ 2 ^ r.bits) :
    (r.publish k (r.pending.take k).flatten.length).window (r.pending.take k).flatten.length =
      entriesOf (r.pending.take k) := by
  have hbits : r.bits ≤ 32 := Nat.le_trans hready.le (by decide)
  unfold window publish
  dsimp only
  rw [hready.empty]
  generalize hn : (r.pending.take k).flatten.length = n at hfits ⊢
  have harray := RingBuffer.read_write hbits r.sqArray
    ((List.range n).map fun i => RingBuffer.slot r.bits (r.sqHead + i)) r.sqHead 0
    (by rw [List.length_map, List.length_range]; omega)
  have hsqes := RingBuffer.read_write hbits r.sqes (entriesOf (r.pending.take k)) r.sqHead 0
    (by rw [length_entriesOf, hn]; omega)
  rw [List.length_map, List.length_range, Nat.zero_add, Nat.add_zero] at harray
  rw [length_entriesOf, hn, Nat.zero_add, Nat.add_zero] at hsqes
  refine Eq.trans (List.map_congr_left fun i hi => ?_) hsqes
  exact congrArg _ (List.map_inj_left.mp harray i hi)

/-- The ring while `submit_pending` is in the kernel. -/
structure Entered (r₀ : IoUring τ) (k : Nat) (r : IoUring τ) : Prop extends Frame r₀ r where
  window : r.window (r₀.pending.take k).flatten.length = entriesOf (r₀.pending.take k)
  sqHead : r.sqHead = r₀.sqHead
  sqTail : r.sqTail = (r₀.sqHead + (r₀.pending.take k).flatten.length) % 2 ^ 32
  pending : r.pending = r₀.pending
  inflightFds : r.inflightFds = r₀.inflightFds
  accepted : r.accepted = r₀.accepted

theorem Entered.publish (hready : r.Ready)
    (hfits : (r.pending.take k).flatten.length ≤ 2 ^ r.bits) :
    Entered r k (r.publish k (r.pending.take k).flatten.length) where
  bits := rfl
  cqBits := rfl
  submitAll := rfl
  deferTaskrun := rfl
  healthy := rfl
  cqHead := rfl
  cqTail := rfl
  cqes := rfl
  published := ⟨[], (List.append_nil _).symm, by simp⟩
  window := window_publish hready hfits
  sqHead := rfl
  sqTail := congrArg (fun tail => (tail + _) % 2 ^ 32) hready.empty
  pending := rfl
  inflightFds := rfl
  accepted := rfl

theorem Entered.refl (hready : r.Ready) : Entered r 0 r where
  bits := rfl
  cqBits := rfl
  submitAll := rfl
  deferTaskrun := rfl
  healthy := rfl
  cqHead := rfl
  cqTail := rfl
  cqes := rfl
  published := ⟨[], (List.append_nil _).symm, by simp⟩
  window := rfl
  sqHead := rfl
  sqTail := hready.empty.trans (Nat.mod_eq_of_lt hready.head).symm
  pending := rfl
  inflightFds := rfl
  accepted := rfl

theorem Entered.ready (h : Entered r₀ 0 r) (hready : r₀.Ready) : r.Ready where
  pos := le_of_le_of_eq hready.pos h.bits.symm
  le := le_of_eq_of_le h.bits hready.le
  healthy := h.healthy.trans hready.healthy
  empty := h.sqTail.trans ((Nat.mod_eq_of_lt hready.head).trans h.sqHead.symm)
  head := le_of_eq_of_le (congrArg Nat.succ h.sqHead) hready.head
  shape := h.pending ▸ hready.shape

theorem Entered.published_append (h : Entered r₀ k r) (hk : k ≤ r₀.pending.length) :
    ∃ calls, r.published ++ [r.window (r₀.pending.take k).flatten.length] =
        r₀.published ++ calls ∧
      ∀ call ∈ calls, ∃ j ≤ r₀.pending.length, call = entriesOf (r₀.pending.take j) := by
  obtain ⟨calls, hpublished, hcalls⟩ := h.published
  refine ⟨calls ++ [r.window (r₀.pending.take k).flatten.length], ?_, fun call hcall => ?_⟩
  · rw [hpublished, List.append_assoc]
  · rcases List.mem_append.mp hcall with hold | hnew
    · exact hcalls call hold
    · exact ⟨k, hk, (List.mem_singleton.mp hnew).trans h.window⟩

/-! ## Submission -/

section Submission

variable [DecidableEq τ] {results rest : List (Except Nat Nat)}
  {outcome : Except SubmitError (SubmitOutcome τ)}

/-- The batches before the place where the kernel stops are taken out of `pending`. -/
theorem accept_eq (hpending : r.pending = batches) (hpos : ∀ batch ∈ batches, 0 < batch.length)
    {j : Nat} (hj : j ≤ k) (hk : k ≤ batches.length) (head : Nat) :
    r.accept head k (batches.take k).flatten.length (batches.take j).flatten.length =
      ({ r with
        sqTail :=
          if (batches.take j).flatten.length ≠ (batches.take k).flatten.length then
            (head + (batches.take j).flatten.length) % 2 ^ 32
          else r.sqTail
        pending := batches.drop j
        inflightFds := (batches.take j).flatten.foldl retain r.inflightFds },
        .ok { submitted := (batches.take j).flatten.length }) := by
  subst hpending
  have hsplit : r.pending.take k = r.pending.take j ++ (r.pending.take k).drop j := by
    conv_lhs => rw [← List.take_append_drop j (r.pending.take k)]
    rw [List.take_take, Nat.min_eq_left hj]
  have hle : ¬ (r.pending.take j).flatten.length > (r.pending.take k).flatten.length := by
    rw [hsplit, List.flatten_append, List.length_append]
    omega
  have hbatches := acceptedBatches_spec (fun b hb => hpos b (List.mem_of_mem_take hb))
    (le_of_le_of_eq hj (List.length_take_of_le hk).symm) 0 0
  rw [List.take_take, Nat.min_eq_left hj, Nat.zero_add, Nat.zero_add] at hbatches
  unfold accept
  rw [if_neg hle]
  simp only [hbatches]

theorem enterLoop_spec (hready : r₀.Ready) (hk : k ≤ r₀.pending.length) (h : Entered r₀ k r)
    (hloop : enterLoop r₀.sqHead k (r₀.pending.take k).flatten.length r results =
      some (r', outcome, rest)) :
    r'.Ready ∧ Frame r₀ r' ∧ Submitted r₀ r' outcome := by
  induction results generalizing r with
  | nil => exact absurd hloop nofun
  | cons result results ih =>
      obtain ⟨r₁, henter, hrest⟩ := Option.bind_eq_some_iff.mp hloop
      have hpublished := h.published_append hk
      cases result with
      | ok submitted =>
          obtain ⟨⟨hle, hlink⟩, hr₁⟩ := Option.ite_none_right_eq_some.mp henter
          rw [h.window] at hlink
          obtain ⟨j, hj, rfl⟩ := boundary_of_not_linked
            (fun b hb => hready.shape b (List.mem_of_mem_take hb)) hle hlink
          rw [List.length_take_of_le hk] at hj
          rw [List.take_take, Nat.min_eq_left hj] at hrest hr₁
          have hpending : r₁.pending = r₀.pending := by
            rw [← Option.some.inj hr₁]
            exact h.pending
          dsimp only at hrest
          rw [accept_eq hpending (fun b hb => (hready.shape b hb).length_pos) hj hk] at hrest
          obtain ⟨rfl, rfl, rfl⟩ := by simpa only [Option.some.injEq, Prod.mk.injEq] using hrest
          obtain rfl := Option.some.inj hr₁
          refine ⟨?_, { h with published := hpublished }, ?_⟩
          · exact {
              pos := le_of_le_of_eq hready.pos h.bits.symm
              le := le_of_eq_of_le h.bits hready.le
              healthy := h.healthy.trans hready.healthy
              empty := by
                dsimp only
                rw [h.sqHead]
                split
                · rfl
                next hall => rw [h.sqTail, not_not.mp hall]
              head := Nat.mod_lt _ (by decide)
              shape := fun batch hbatch => hready.shape batch (List.mem_of_mem_drop hbatch) }
          · refine .accepted j (Nat.le_trans hj hk) rfl ?_ (by rw [h.inflightFds])
            dsimp only
            rw [h.accepted, h.window, take_entriesOf hj]
      | error errno =>
          have hr₁ := Option.some.inj henter
          have hentered : Entered r₀ k r₁ := by
            rw [← hr₁]
            exact { h with published := hpublished, window := h.window }
          have hready₁ : ∀ pending, (∀ batch ∈ pending, Shape batch) →
              Ready { r₁ with sqTail := r₀.sqHead, pending } := fun pending hshape => {
            pos := le_of_le_of_eq hready.pos hentered.bits.symm
            le := le_of_eq_of_le hentered.bits hready.le
            healthy := hentered.healthy.trans hready.healthy
            empty := hentered.sqHead.symm
            head := le_of_eq_of_le (congrArg Nat.succ hentered.sqHead) hready.head
            shape := hshape }
          dsimp only at hrest
          by_cases hintr : errno = eintr
          · rw [if_pos hintr] at hrest
            exact ih hentered hrest
          rw [if_neg hintr] at hrest
          by_cases hretry : errno = ebusy ∨ errno = eagain
          · rw [if_pos hretry] at hrest
            obtain ⟨rfl, rfl, rfl⟩ := by simpa only [Option.some.injEq, Prod.mk.injEq] using hrest
            refine ⟨hready₁ r₁.pending (hentered.pending ▸ hready.shape), { hentered.toFrame with }, ?_⟩
            exact .retry errno hentered.pending hentered.accepted hentered.inflightFds
          · rw [if_neg hretry] at hrest
            obtain ⟨rfl, rfl, rfl⟩ := by simpa only [Option.some.injEq, Prod.mk.injEq] using hrest
            refine ⟨hready₁ [] (by simp), { hentered.toFrame with }, ?_⟩
            rw [hentered.pending]
            exact .failed errno rfl hentered.accepted hentered.inflightFds

theorem enterWithoutSubmission_spec (hready : r₀.Ready) (hnone : r₀.pending = [])
    (h : Entered r₀ 0 r)
    (hloop : enterWithoutSubmission r results = some (r', outcome, rest)) :
    r'.Ready ∧ Frame r₀ r' ∧ Submitted r₀ r' outcome := by
  induction results generalizing r with
  | nil => exact absurd hloop nofun
  | cons result results ih =>
      obtain ⟨r₁, henter, hrest⟩ := Option.bind_eq_some_iff.mp hloop
      have hpublished := h.published_append (Nat.zero_le _)
      cases result with
      | ok submitted =>
          obtain ⟨⟨hle, -⟩, hr₁⟩ := Option.ite_none_right_eq_some.mp henter
          obtain rfl := Nat.le_zero.mp hle
          have hhead : (r.sqHead + 0) % 2 ^ 32 = r₀.sqHead := by
            rw [h.sqHead]
            exact Nat.mod_eq_of_lt hready.head
          have hentered : Entered r₀ 0 r₁ := by
            rw [← Option.some.inj hr₁]
            exact { h with
              published := hpublished
              window := rfl
              sqHead := hhead
              accepted := (List.append_nil _).trans h.accepted }
          obtain ⟨rfl, rfl, rfl⟩ := by simpa only [Option.some.injEq, Prod.mk.injEq] using hrest
          refine ⟨hentered.ready hready, hentered.toFrame, ?_⟩
          refine .accepted 0 (Nat.zero_le _) hentered.pending ?_ hentered.inflightFds
          rw [hentered.accepted]
          exact (List.append_nil _).symm
      | error errno =>
          have hentered : Entered r₀ 0 r₁ := by
            rw [← Option.some.inj henter]
            exact { h with published := hpublished, window := h.window }
          dsimp only at hrest
          by_cases hintr : errno = eintr
          · rw [if_pos hintr] at hrest
            exact ih hentered hrest
          rw [if_neg hintr] at hrest
          by_cases hretry : errno = ebusy ∨ errno = eagain
          · rw [if_pos hretry] at hrest
            obtain ⟨rfl, rfl, rfl⟩ := by simpa only [Option.some.injEq, Prod.mk.injEq] using hrest
            refine ⟨hentered.ready hready, hentered.toFrame, ?_⟩
            exact .retry errno hentered.pending hentered.accepted hentered.inflightFds
          · rw [if_neg hretry] at hrest
            obtain ⟨rfl, rfl, rfl⟩ := by simpa only [Option.some.injEq, Prod.mk.injEq] using hrest
            refine ⟨hentered.ready hready, hentered.toFrame, ?_⟩
            exact .error errno hentered.pending hentered.accepted hentered.inflightFds hnone

/-- What a call of `submit_pending` does, whatever `io_uring_enter` returns. -/
theorem submitPending_spec {waitForCqe : Bool} (hready : r.Ready)
    (hsubmit : r.submitPending waitForCqe results = some (r', outcome, rest)) :
    r'.Ready ∧ Frame r r' ∧ Submitted r r' outcome := by
  have hdistance : RingBuffer.distance r.sqHead r.sqTail = 0 := by
    unfold RingBuffer.distance
    rw [hready.empty, Nat.add_sub_cancel_left, Nat.mod_self]
  have htwo : 2 ≤ 2 ^ r.bits := Nat.pow_le_pow_right Nat.two_pos hready.pos
  obtain ⟨k, hk, hselect, hfits, hzero⟩ := selectBatches_spec
    (fun b hb => Nat.le_trans (hready.shape b hb).length_le htwo) 0 0 (Nat.zero_le (2 ^ r.bits))
  unfold submitPending at hsubmit
  rw [if_neg (by rw [hready.healthy]; exact Bool.false_ne_true), hdistance] at hsubmit
  rw [Nat.zero_add, Nat.zero_add] at hselect
  rw [Nat.zero_add] at hfits
  simp only [ne_eq, not_true_eq_false, if_false, Nat.sub_zero, hselect] at hsubmit
  by_cases hnothing : (r.pending.take k).flatten.length = 0
  · rw [if_pos hnothing] at hsubmit
    have hnone : r.pending = [] := by
      cases hpending : r.pending with
      | nil => rfl
      | cons batch batches =>
          have hshape := hready.shape batch (hpending ▸ List.mem_cons_self)
          rw [hpending] at hzero hnothing
          cases k with
          | zero =>
              have hlarge := hzero rfl batch rfl
              have hsmall := hshape.length_le
              omega
          | succ k =>
              rw [List.take_succ_cons, List.flatten_cons, List.length_append] at hnothing
              have hpos := hshape.length_pos
              omega
    split at hsubmit
    · obtain ⟨rfl, rfl, rfl⟩ := by simpa only [Option.some.injEq, Prod.mk.injEq] using hsubmit
      refine ⟨hready, (Entered.refl hready).toFrame, ?_⟩
      exact .accepted 0 (Nat.zero_le _) rfl (List.append_nil _).symm rfl
    · exact enterWithoutSubmission_spec hready hnone (Entered.refl hready) hsubmit
  · rw [if_neg hnothing] at hsubmit
    exact enterLoop_spec hready hk (Entered.publish hready hfits) hsubmit

end Submission

end IoUring

end Runite.Linux
