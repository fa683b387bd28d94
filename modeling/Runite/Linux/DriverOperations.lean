import Runite.Linux.Driver
import Runite.Linux.UringCompletion
import Runite.Linux.UringLedger

/-!
# Operations complete once

An operation is accounted for by its token: the entries with the token that are pending, that the
kernel has, or that are completed and not processed, are as many as its callbacks that are
registered.  Processing a completion takes one of either side.
-/

namespace Runite.Linux.Driver

variable {d d' : Driver} {hand : List Cqe} {ready : ReadyEvents}

/-! ## Counting -/

def pendingCount (d : Driver) (userData : UserData) : Nat :=
  d.ring.pending.flatten.countP fun owned => owned.sqe.userData = userData

def countToken (token : Token) (cqes : List Cqe) : Nat :=
  cqes.countP fun cqe => cqe.userData = .token token

def invokedCount (d : Driver) (token : Token) : Nat :=
  d.invoked.countP fun call => call.1 = token

/-- The calls of a callback, and its registrations. -/
def total (d : Driver) (token : Token) : Nat := d.invokedCount token + d.completions.count token

/-- What holds while the driver has completions in hand that it is going to process. -/
structure Sound (d : Driver) (hand : List Cqe) : Prop where
  ready : d.ring.Ready
  queued : ∃ queue, d.ring.Queued queue ∧ (∀ cqe ∈ queue, cqe ∈ d.posted) ∧
    ∀ token, token.kind = .operation →
      d.pendingCount (.token token) + d.acceptedCount (.token token) + countToken token queue +
          countToken token hand =
        d.completions.count token + d.postedCount (.token token)
  fresh : ∀ token, d.nextToken ≤ token.seq →
    d.pendingCount (.token token) + d.acceptedCount (.token token) = 0
  once : ∀ token, token.kind = .operation →
    d.pendingCount (.token token) + d.acceptedCount (.token token) ≤ 1
  posted : ∀ token, d.postedCount (.token token) ≤ d.acceptedCount (.token token)
  atMost : ∀ token, d.total token ≤ 1
  freshTotal : ∀ token, d.nextToken ≤ token.seq → d.total token = 0
  freshReturned : ∀ call ∈ d.returned, call.1.seq < d.nextToken
  handed : ∀ cqe ∈ hand, cqe ∈ d.posted ∨ cqe ∈ d.failed
  invoked : ∀ call ∈ d.invoked, call.1.kind = .operation ∧
    (⟨.token call.1, call.2⟩ ∈ d.posted ∨ ⟨.token call.1, call.2⟩ ∈ d.failed)
  returnedOk : ∀ token, (token, true) ∈ d.returned → d.total token = 1
  returnedErr : d.deferSubmissions = true → ∀ token, (token, false) ∈ d.returned →
    d.total token = 0

/-- What the parts of a call leave alone. -/
structure Keeps (d d' : Driver) : Prop where
  returned : d'.returned = d.returned
  nextToken : d'.nextToken = d.nextToken
  deferSubmissions : d'.deferSubmissions = d.deferSubmissions
  total : ∀ token, d'.total token = d.total token

theorem Keeps.refl (d : Driver) : Keeps d d := ⟨rfl, rfl, rfl, fun _ => rfl⟩

theorem Keeps.withRing (d : Driver) (ring : IoUring UserData) : Keeps d { d with ring } :=
  ⟨rfl, rfl, rfl, fun _ => rfl⟩

theorem Keeps.trans {d'' : Driver} (h : Keeps d d') (h' : Keeps d' d'') : Keeps d d'' :=
  ⟨h'.returned.trans h.returned, h'.nextToken.trans h.nextToken,
    h'.deferSubmissions.trans h.deferSubmissions, fun token => (h'.total token).trans (h.total token)⟩

/-! ## Processing -/

theorem Sound.skip {cqe : Cqe} (h : d.Sound (cqe :: hand))
    (hother : ∀ token, token.kind = .operation → cqe.userData ≠ .token token) : d.Sound hand := by
  obtain ⟨queue, hqueued, hposted, hbalance⟩ := h.queued
  refine { h with queued := ⟨queue, hqueued, hposted, fun token htoken => ?_⟩, handed := ?_ }
  · have hcount : countToken token (cqe :: hand) = countToken token hand :=
      List.countP_cons_of_neg (by simpa using hother token htoken)
    rw [← hcount]
    exact hbalance token htoken
  · exact fun cqe hcqe => h.handed cqe (List.mem_cons_of_mem _ hcqe)

theorem Sound.processOperation {token : Token} {res : Int}
    (h : d.Sound (⟨.token token, res⟩ :: hand)) (hkind : token.kind = .operation) :
    (d.processOperation ready token res).1.Sound hand ∧
      Keeps d (d.processOperation ready token res).1 := by
  obtain ⟨queue, hqueued, hposted, hbalance⟩ := h.queued
  have hcount : ∀ t, countToken t (⟨.token token, res⟩ :: hand) =
      countToken t hand + if token = t then 1 else 0 := by
    intro t
    unfold countToken
    rw [List.countP_cons]
    simp
  -- the entry of the completion is not counted as pending or in the kernel any more, so that
  -- what balances it is the callback
  have hmem : token ∈ d.completions := by
    have hone := hbalance token hkind
    have hle := h.posted token
    rw [hcount, if_pos rfl] at hone
    exact List.count_pos_iff.mp (by omega)
  have herase : ∀ t, (d.completions.erase token).count t + (if token = t then 1 else 0) =
      d.completions.count t := by
    intro t
    split
    next heq =>
      subst heq
      have hpos := List.count_pos_iff.mpr hmem
      rw [List.count_erase_self]
      omega
    next hne => rw [List.count_erase_of_ne (Ne.symm hne), Nat.add_zero]
  have htotal : ∀ t, (d.invoked ++ [(token, res)]).countP (fun call => call.1 = t) +
      (d.completions.erase token).count t = d.total t := by
    intro t
    have hone := herase t
    unfold total invokedCount
    rw [List.countP_append, List.countP_singleton]
    simp only [decide_eq_true_eq]
    omega
  rw [Driver.processOperation, if_pos hmem]
  refine ⟨?_, rfl, rfl, rfl, htotal⟩
  exact { h with
    queued := by
      refine ⟨queue, hqueued, hposted, fun t ht => ?_⟩
      have hone := hbalance t ht
      have htwo := herase t
      rw [hcount] at hone
      change d.pendingCount (.token t) + d.acceptedCount (.token t) + countToken t queue +
        countToken t hand = (d.completions.erase token).count t + d.postedCount (.token t)
      omega
    atMost := fun t => Nat.le_trans (Nat.le_of_eq (htotal t)) (h.atMost t)
    freshTotal := fun t ht => (htotal t).trans (h.freshTotal t ht)
    handed := fun cqe hcqe => h.handed cqe (List.mem_cons_of_mem _ hcqe)
    invoked := by
      intro call hcall
      rcases List.mem_append.mp hcall with hold | hnew
      · exact h.invoked call hold
      · rw [List.mem_singleton.mp hnew]
        exact ⟨hkind, h.handed _ List.mem_cons_self⟩
    returnedOk := fun t ht => (htotal t).trans (h.returnedOk t ht)
    returnedErr := fun hdefer t ht => (htotal t).trans (h.returnedErr hdefer t ht) }

/-! ## Staging -/

/-- A batch is staged, with tokens that are new; the callbacks of its operations are registered. -/
theorem Sound.stage {batch : SubmissionBatch UserData} (h : d.Sound hand)
    (operations : List Token) (next : Nat) (hshape : IoUring.Shape batch) (hnext : d.nextToken ≤ next)
    (hseq : ∀ owned ∈ batch, ∀ token, owned.sqe.userData = .token token → token.seq < next)
    (hcount : ∀ token, token.kind = .operation →
      batch.countP (fun owned => owned.sqe.userData = .token token) = operations.count token)
    (hoperations : ∀ token ∈ operations, d.nextToken ≤ token.seq ∧ token.seq < next)
    (hnodup : operations.Nodup) :
    Sound { d with
      ring := { d.ring with pending := d.ring.pending ++ [batch] }
      nextToken := next
      completions := d.completions ++ operations } hand := by
  obtain ⟨queue, hqueued, hposted, hbalance⟩ := h.queued
  have hpending : ∀ userData, (d.ring.pending ++ [batch]).flatten.countP
      (fun owned => owned.sqe.userData = userData) =
        d.pendingCount userData + batch.countP fun owned => owned.sqe.userData = userData := by
    intro userData
    rw [List.flatten_append, List.countP_append, List.flatten_singleton]
    rfl
  have habsent : ∀ token, ¬ (d.nextToken ≤ token.seq ∧ token.seq < next) →
      operations.count token = 0 :=
    fun token hold => List.count_eq_zero.mpr fun hmem => hold (hoperations token hmem)
  have htotal : ∀ token, d.invokedCount token + (d.completions ++ operations).count token =
      d.total token + operations.count token := by
    intro token
    rw [List.count_append, ← Nat.add_assoc]
    rfl
  exact {
    ready := { h.ready with
      shape := by
        intro b hb
        rcases List.mem_append.mp hb with hold | hnew
        · exact h.ready.shape b hold
        · rw [List.mem_singleton.mp hnew]
          exact hshape }
    queued := by
      refine ⟨queue, { hqueued with }, hposted, fun token htoken => ?_⟩
      have hold := hbalance token htoken
      change (d.ring.pending ++ [batch]).flatten.countP _ + d.acceptedCount _ + _ + _ =
        (d.completions ++ operations).count token + d.postedCount _
      rw [hpending, hcount token htoken, List.count_append]
      omega
    fresh := by
      intro token htoken
      have hold := h.fresh token (Nat.le_trans hnext htoken)
      have hnone : batch.countP (fun owned => owned.sqe.userData = .token token) = 0 := by
        refine List.countP_eq_zero.mpr fun owned howned huserData => ?_
        exact Nat.not_le.mpr (hseq owned howned token (of_decide_eq_true huserData)) htoken
      change (d.ring.pending ++ [batch]).flatten.countP _ + d.acceptedCount _ = 0
      rw [hpending, hnone]
      exact hold
    once := by
      intro token htoken
      change (d.ring.pending ++ [batch]).flatten.countP _ + d.acceptedCount _ ≤ 1
      rw [hpending, hcount token htoken]
      by_cases hmem : token ∈ operations
      · have hold := h.fresh token (hoperations token hmem).1
        have hone := List.nodup_iff_count_le_one.mp hnodup token
        omega
      · rw [List.count_eq_zero.mpr hmem]
        exact h.once token htoken
    posted := h.posted
    atMost := by
      intro token
      refine Nat.le_trans (Nat.le_of_eq (htotal token)) ?_
      by_cases hmem : token ∈ operations
      · rw [h.freshTotal token (hoperations token hmem).1, Nat.zero_add]
        exact List.nodup_iff_count_le_one.mp hnodup token
      · rw [List.count_eq_zero.mpr hmem]
        exact h.atMost token
    freshTotal := by
      intro token htoken
      refine (htotal token).trans ?_
      rw [h.freshTotal token (Nat.le_trans hnext htoken),
        habsent token fun hnew => Nat.not_le.mpr hnew.2 htoken]
    freshReturned := fun call hcall => Nat.lt_of_lt_of_le (h.freshReturned call hcall) hnext
    handed := h.handed
    invoked := h.invoked
    returnedOk := by
      intro token htoken
      have hlt := h.freshReturned _ htoken
      refine (htotal token).trans ?_
      rw [h.returnedOk token htoken, habsent token fun hnew => Nat.not_le.mpr hlt hnew.1]
    returnedErr := by
      intro hdefer token htoken
      have hlt := h.freshReturned _ htoken
      refine (htotal token).trans ?_
      rw [h.returnedErr hdefer token htoken, habsent token fun hnew => Nat.not_le.mpr hlt hnew.1] }

theorem Sound.stageOther {sqe : IoUringSqe UserData} {duplicated : Option Nat}
    {ring : IoUring UserData} (h : d.Sound hand) (next : Nat)
    (hpush : d.ring.pushSqe sqe duplicated = some ring) (hnext : d.nextToken ≤ next)
    (hlink : sqe.link = false)
    (hseq : ∀ token, sqe.userData = .token token →
      token.kind ≠ .operation ∧ token.seq < next) :
    Sound { d with ring, nextToken := next } hand := by
  obtain ⟨owned, hprepare, rfl⟩ := Option.map_eq_some_iff.mp hpush
  obtain ⟨-, hsame, huserData⟩ := prepareSqe_spec hprepare
  have hstaged := h.stage [] next (.single (hsame.trans hlink)) hnext ?_ ?_ nofun
    List.nodup_nil
  · rwa [List.append_nil] at hstaged
  · intro o ho token htoken
    rw [List.mem_singleton.mp ho, huserData] at htoken
    exact (hseq token htoken).2
  · intro token htoken
    refine List.countP_eq_zero.mpr fun o ho hsqe => ?_
    rw [List.mem_singleton.mp ho, huserData] at hsqe
    exact (hseq token (of_decide_eq_true hsqe)).1 htoken

/-! ## Completions -/

theorem Sound.rearmWake (h : d.Sound hand) : d.rearmWake.Sound hand ∧ Keeps d d.rearmWake := by
  refine ⟨?_, rfl, rfl, rfl, fun _ => rfl⟩
  unfold Driver.rearmWake
  cases hpush : d.ring.pushSqe { opcode := .pollAdd, fd := d.wakeFd, userData := .wake }
      (d.wakeFcntl d.wakePolls) with
  | none => exact { h with }
  | some ring =>
      have hstaged := h.stageOther d.nextToken hpush (Nat.le_refl _) rfl fun _ htoken => nomatch htoken
      exact { hstaged with }

variable (ready) in
theorem Sound.processCqe {cqe : Cqe} (h : d.Sound (cqe :: hand)) :
    (d.processCqe ready cqe).1.Sound hand ∧ Keeps d (d.processCqe ready cqe).1 := by
  obtain ⟨userData, res⟩ := cqe
  cases userData with
  | wake =>
      have hskip := h.skip fun _ _ => nofun
      unfold Driver.processCqe processWake
      dsimp only
      split
      · obtain ⟨hwake, hkeeps⟩ := hskip.rearmWake
        exact ⟨{ hwake with }, { hkeeps with }⟩
      · exact ⟨{ hskip with }, { Keeps.refl d with }⟩
  | token token =>
      by_cases hkind : token.kind = .operation
      · have hprocess : d.processCqe ready ⟨.token token, res⟩ =
            d.processOperation ready token res := by
          unfold Driver.processCqe
          simp only [hkind]
        rw [hprocess]
        exact h.processOperation hkind
      · have hskip := h.skip fun t ht heq => by
          obtain rfl := UserData.token.inj heq
          exact hkind ht
        unfold Driver.processCqe
        dsimp only
        split
        · exact ⟨{ hskip with }, ⟨rfl, rfl, rfl, fun _ => rfl⟩⟩
        next hoperation => exact absurd hoperation hkind
        · exact ⟨{ hskip with }, ⟨rfl, rfl, rfl, fun _ => rfl⟩⟩
        · exact ⟨hskip, Keeps.refl d⟩
        · exact ⟨hskip, Keeps.refl d⟩
        · exact ⟨hskip, Keeps.refl d⟩

variable (ready) in
theorem Sound.processAll {cqes : List Cqe} (h : d.Sound cqes) :
    (processAll d ready cqes).1.Sound [] ∧ Keeps d (processAll d ready cqes).1 := by
  induction cqes generalizing d ready with
  | nil => exact ⟨h, Keeps.refl d⟩
  | cons cqe cqes ih =>
      obtain ⟨hone, hkeeps⟩ := h.processCqe ready
      obtain ⟨hrest, hkeepsRest⟩ := ih (d.processCqe ready cqe).2 hone
      exact ⟨hrest, hkeeps.trans hkeepsRest⟩

theorem Sound.take {ring : IoUring UserData} {queue : List Cqe} (h : d.Sound [])
    (hready : ring.Ready) (hempty : ring.Queued []) (hpending : ring.pending = d.ring.pending)
    (haccepted : ring.accepted = d.ring.accepted)
    (hposted : ∀ cqe ∈ queue, cqe ∈ d.posted)
    (hbalance : ∀ token, token.kind = .operation →
      d.pendingCount (.token token) + d.acceptedCount (.token token) + countToken token queue +
          countToken token [] =
        d.completions.count token + d.postedCount (.token token)) :
    Sound { d with ring } queue := by
  have hsame : ∀ userData, pendingCount { d with ring } userData = d.pendingCount userData ∧
      acceptedCount { d with ring } userData = d.acceptedCount userData := by
    intro userData
    unfold pendingCount acceptedCount
    rw [hpending, haccepted]
    exact ⟨rfl, rfl⟩
  exact { h with
    ready := hready
    queued := by
      refine ⟨[], hempty, nofun, fun token htoken => ?_⟩
      have hold := hbalance token htoken
      rw [(hsame _).1, (hsame _).2]
      exact hold
    fresh := by
      intro token htoken
      rw [(hsame _).1, (hsame _).2]
      exact h.fresh token htoken
    once := by
      intro token htoken
      rw [(hsame _).1, (hsame _).2]
      exact h.once token htoken
    posted := by
      intro token
      rw [(hsame _).2]
      exact h.posted token
    handed := fun cqe hcqe => .inl (hposted cqe hcqe) }

theorem ready_drain {ring : IoUring UserData} (h : ring.Ready) :
    ring.drainCompletions.1.Ready :=
  ⟨h.pos, h.le, h.healthy, h.empty, h.head, h.shape⟩

variable (ready) in
theorem Sound.drain (h : d.Sound []) :
    (d.drain ready).1.Sound [] ∧ Keeps d (d.drain ready).1 := by
  obtain ⟨queue, hqueued, hposted, hbalance⟩ := h.queued
  obtain ⟨hdrained, hempty⟩ := hqueued.drain
  have hhand : Sound { d with ring := d.ring.drainCompletions.1 } d.ring.drainCompletions.2 := by
    rw [hdrained]
    exact h.take (ready_drain h.ready) hempty rfl rfl hposted hbalance
  have hprocessed := hhand.processAll ready
  unfold Driver.drain
  -- both sides of what follows would be evaluated down to the memory of the ring otherwise
  clear hhand hdrained hempty
  generalize d.ring.drainCompletions = drained at hprocessed ⊢
  obtain ⟨ring, cqes⟩ := drained
  dsimp only at hprocessed ⊢
  generalize Driver.processAll { d with ring } ready cqes = processed at hprocessed ⊢
  exact ⟨hprocessed.1, (Keeps.withRing d ring).trans hprocessed.2⟩

theorem Sound.post {cqe : Cqe} (h : d.Sound hand) (hpost : d.post cqe = some d') :
    d'.Sound hand ∧ Keeps d d' := by
  obtain ⟨hallowed, hs⟩ := Option.ite_none_right_eq_some.mp hpost
  obtain ⟨ring, hring, rfl⟩ := Option.map_eq_some_iff.mp hs
  obtain ⟨queue, hqueued, hposted, hbalance⟩ := h.queued
  have hpostedRing := hqueued.post hring
  obtain ⟨-, hring'⟩ := Option.ite_none_right_eq_some.mp hring
  obtain rfl := Option.some.inj hring'
  refine ⟨?_, rfl, rfl, rfl, fun _ => rfl⟩
  have hcount : ∀ userData, (d.posted ++ [cqe]).countP (fun c => c.userData = userData) =
      d.postedCount userData + if cqe.userData = userData then 1 else 0 := by
    intro userData
    rw [List.countP_append, List.countP_singleton]
    simp [postedCount]
  exact { h with
    ready := ⟨h.ready.pos, h.ready.le, h.ready.healthy, h.ready.empty, h.ready.head, h.ready.shape⟩
    queued := by
      refine ⟨queue ++ [cqe], hpostedRing, ?_, fun token htoken => ?_⟩
      · intro c hc
        rcases List.mem_append.mp hc with hold | hnew
        · exact List.mem_append_left _ (hposted c hold)
        · exact List.mem_append_right _ hnew
      · have hold := hbalance token htoken
        change d.pendingCount _ + d.acceptedCount _ + countToken token (queue ++ [cqe]) +
          countToken token hand = d.completions.count token + (d.posted ++ [cqe]).countP _
        rw [hcount]
        unfold countToken at hold ⊢
        rw [List.countP_append, List.countP_singleton]
        simp only [decide_eq_true_eq]
        omega
    posted := by
      intro token
      change (d.posted ++ [cqe]).countP _ ≤ d.acceptedCount _
      rw [hcount]
      split
      next heq =>
        rw [heq] at hallowed
        exact hallowed.resolve_left nofun
      next => exact h.posted token
    handed := fun c hc => (h.handed c hc).imp_left (List.mem_append_left _)
    invoked := by
      intro call hcall
      obtain ⟨hkind, hwhy⟩ := h.invoked call hcall
      exact ⟨hkind, hwhy.imp_left (List.mem_append_left _)⟩ }

theorem Sound.postAll {cqes : List Cqe} (h : d.Sound hand) (hpost : d.postAll cqes = some d') :
    d'.Sound hand ∧ Keeps d d' := by
  induction cqes generalizing d with
  | nil =>
      obtain rfl := Option.some.inj hpost
      exact ⟨h, .refl d⟩
  | cons cqe cqes ih =>
      obtain ⟨d₁, hone, hrest⟩ := Option.bind_eq_some_iff.mp hpost
      obtain ⟨hsound, hkeeps⟩ := h.post hone
      obtain ⟨hsound', hkeeps'⟩ := ih hsound hrest
      exact ⟨hsound', hkeeps.trans hkeeps'⟩

/-! ## Submission -/

theorem countP_entriesOf (batches : List (SubmissionBatch UserData)) (userData : UserData) :
    (IoUring.entriesOf batches).countP (fun sqe => sqe.any fun sqe => sqe.userData = userData) =
      batches.flatten.countP fun owned => owned.sqe.userData = userData := by
  unfold IoUring.entriesOf
  rw [List.countP_map]
  rfl

/-- What has left the staging is accepted by the kernel or a failure in hand. -/
theorem Sound.submitted {ring : IoUring UserData} {failures : List Cqe} (h : d.Sound [])
    (hready : ring.Ready) (hframe : IoUring.Frame d.ring ring)
    (hmono : ∀ userData, d.acceptedCount userData ≤ acceptedCount { d with ring } userData)
    (hless : ∀ userData, pendingCount { d with ring } userData +
      acceptedCount { d with ring } userData ≤ d.pendingCount userData + d.acceptedCount userData)
    (hsplit : ∀ token, pendingCount { d with ring } (.token token) +
      acceptedCount { d with ring } (.token token) + countToken token failures =
        d.pendingCount (.token token) + d.acceptedCount (.token token)) :
    Sound { d with ring, failed := d.failed ++ failures } failures ∧
      Keeps d { d with ring, failed := d.failed ++ failures } := by
  obtain ⟨queue, hqueued, hposted, hbalance⟩ := h.queued
  refine ⟨?_, rfl, rfl, rfl, fun _ => rfl⟩
  exact { h with
    ready := hready
    queued := by
      refine ⟨queue, hqueued.frame hframe, hposted, fun token htoken => ?_⟩
      have hold := hbalance token htoken
      have hnew := hsplit token
      change _ + 0 = _ at hold
      change pendingCount { d with ring } _ + acceptedCount { d with ring } _ + _ + _ =
        d.completions.count token + d.postedCount (.token token)
      omega
    fresh := fun token htoken =>
      Nat.le_zero.mp (Nat.le_trans (hless _) (Nat.le_of_eq (h.fresh token htoken)))
    once := fun token htoken => Nat.le_trans (hless _) (h.once token htoken)
    posted := fun token => Nat.le_trans (h.posted token) (hmono _)
    handed := fun cqe hcqe => .inr (List.mem_append_right _ hcqe)
    invoked := by
      intro call hcall
      obtain ⟨hkind, hwhy⟩ := h.invoked call hcall
      exact ⟨hkind, hwhy.imp_right (List.mem_append_left _)⟩ }

theorem Sound.submit {waitForCqe : Bool} {results rest : List (Except Nat Nat)}
    {ring : IoUring UserData} {outcome : Except SubmitError (SubmitOutcome UserData)}
    (h : d.Sound [])
    (hsubmit : d.ring.submitPending waitForCqe results = some (ring, outcome, rest)) :
    Sound { d with ring, failed := d.failed ++ failuresOf outcome } (failuresOf outcome) ∧
      Keeps d { d with ring, failed := d.failed ++ failuresOf outcome } := by
  obtain ⟨hready, hframe, hsubmitted⟩ := IoUring.submitPending_spec h.ready hsubmit
  have hsame : ∀ {ring : IoUring UserData}, ring.pending = d.ring.pending →
      ring.accepted = d.ring.accepted → ∀ userData,
        pendingCount { d with ring } userData = d.pendingCount userData ∧
          acceptedCount { d with ring } userData = d.acceptedCount userData := by
    intro ring hpending haccepted userData
    unfold pendingCount acceptedCount
    rw [hpending, haccepted]
    exact ⟨rfl, rfl⟩
  cases hsubmitted with
  | accepted k hk hpending haccepted hfds =>
      have hcount : ∀ userData, pendingCount { d with ring } userData +
          acceptedCount { d with ring } userData =
            d.pendingCount userData + d.acceptedCount userData := by
        intro userData
        have hsplit : d.ring.pending.flatten =
            (d.ring.pending.take k).flatten ++ (d.ring.pending.drop k).flatten := by
          rw [← List.flatten_append, List.take_append_drop]
        unfold pendingCount acceptedCount
        rw [hpending, haccepted, List.countP_append, countP_entriesOf, hsplit, List.countP_append]
        omega
      refine h.submitted hready hframe (fun userData => ?_) (fun userData => (hcount _).le)
        fun token => (Nat.add_zero _).trans (hcount _)
      unfold acceptedCount
      rw [haccepted, List.countP_append]
      exact Nat.le_add_right _ _
  | failed errno hpending haccepted hfds =>
      have haccepted' : ∀ userData, acceptedCount { d with ring } userData =
          d.acceptedCount userData := by
        intro userData
        unfold acceptedCount
        rw [haccepted]
      have hpending' : ∀ userData, pendingCount { d with ring } userData = 0 := by
        intro userData
        unfold pendingCount
        rw [hpending]
        rfl
      refine h.submitted hready hframe (fun userData => (haccepted' userData).ge)
        (fun userData => ?_) fun token => ?_
      · rw [hpending', haccepted', Nat.zero_add]
        exact Nat.le_add_left _ _
      · rw [hpending', haccepted', Nat.zero_add, Nat.add_comm]
        unfold countToken failuresOf pendingCount
        rw [List.countP_map]
        rfl
  | retry errno hpending haccepted hfds =>
      have hcount := hsame hpending haccepted
      refine h.submitted hready hframe (fun userData => (hcount userData).2.ge)
        (fun userData => ?_) fun token => ?_
      · rw [(hcount userData).1, (hcount userData).2]
      · rw [(hcount _).1, (hcount _).2]
        rfl
  | error errno hpending haccepted hfds hnone =>
      have hcount := hsame hpending haccepted
      refine h.submitted hready hframe (fun userData => (hcount userData).2.ge)
        (fun userData => ?_) fun token => ?_
      · rw [(hcount userData).1, (hcount userData).2]
      · rw [(hcount _).1, (hcount _).2]
        rfl

end Runite.Linux.Driver
