import Runite.Linux.UringSubmission

/-!
# What becomes of an entry

The abstract view of a ring: a ledger of all entries that were staged, in the order of staging,
each with its fate.
-/

namespace Runite.Linux

variable {τ : Type}

inductive Fate
  | pending
  | accepted
  /-- accepted, and a completion with its `user_data` was drained afterwards -/
  | drained
  | failed (errno : Nat)
  deriving DecidableEq, Repr

def Fate.isPending : Fate → Bool
  | pending => true
  | _ => false

/-- The kernel has the entry, or had it. -/
def Fate.isAccepted : Fate → Bool
  | accepted | drained => true
  | _ => false

abbrev Ledger (τ : Type) := List (OwnedSqe τ × Fate)

/-- An entry that owns a descriptor keeps it until it is completed, `MSG_RING` apart. -/
def OwnedSqe.Kept (owned : OwnedSqe τ) : Prop :=
  ∀ fd, owned.fd = some fd → owned.fdUntilCompletion = decide (owned.sqe.opcode ≠ .msgRing)

theorem prepareSqe_spec {sqe : IoUringSqe τ} {duplicated : Option Nat} {owned : OwnedSqe τ}
    (hprepare : prepareSqe sqe duplicated = some owned) :
    owned.Kept ∧ owned.sqe.link = sqe.link ∧ owned.sqe.userData = sqe.userData := by
  unfold prepareSqe at hprepare
  split at hprepare
  · obtain rfl := Option.some.inj hprepare
    exact ⟨nofun, rfl, rfl⟩
  · obtain ⟨fd, -, rfl⟩ := Option.map_eq_some_iff.mp hprepare
    exact ⟨fun _ _ => rfl, rfl, rfl⟩

namespace Ledger

def all (fate : Fate) (owned : List (OwnedSqe τ)) : Ledger τ := owned.map fun o => (o, fate)

def stage (ledger : Ledger τ) (owned : List (OwnedSqe τ)) : Ledger τ :=
  ledger ++ all .pending owned

/-- The first entries that are pending are accepted. -/
def accept : Nat → Ledger τ → Ledger τ
  | 0, ledger => ledger
  | _ + 1, [] => []
  | n + 1, (o, fate) :: ledger =>
      if fate.isPending then (o, .accepted) :: accept n ledger
      else (o, fate) :: accept (n + 1) ledger

def fail (errno : Nat) (ledger : Ledger τ) : Ledger τ :=
  ledger.map fun (o, fate) => if fate.isPending then (o, .failed errno) else (o, fate)

def drainEntry [DecidableEq τ] (userData : τ) (e : OwnedSqe τ × Fate) : OwnedSqe τ × Fate :=
  if e.2 = .accepted ∧ e.1.sqe.userData = userData then (e.1, .drained) else e

def drain [DecidableEq τ] (userData : τ) (ledger : Ledger τ) : Ledger τ :=
  ledger.map (drainEntry userData)

def withFate (p : Fate → Bool) (ledger : Ledger τ) : List (OwnedSqe τ) :=
  (ledger.filter fun e => p e.2).map Prod.fst

/-- The completion that stands for an entry that has failed. -/
def failure (e : OwnedSqe τ × Fate) : Option (IoUringCqe τ) :=
  match e.2 with
  | .failed errno => some ⟨e.1.sqe.userData, -errno⟩
  | _ => none

def failures (ledger : Ledger τ) : List (IoUringCqe τ) := ledger.filterMap failure

/-- The descriptor of an entry with a `user_data` that the kernel can still use: the entry is
accepted and not drained.  `MSG_RING` is done when it is accepted. -/
def descriptor [DecidableEq τ] (userData : τ) (e : OwnedSqe τ × Fate) : Option Nat :=
  if e.2 = .accepted ∧ e.1.sqe.userData = userData ∧ e.1.sqe.opcode ≠ .msgRing then e.1.fd
  else none

def descriptors [DecidableEq τ] (userData : τ) (ledger : Ledger τ) : List Nat :=
  ledger.filterMap (descriptor userData)

variable {l l' : Ledger τ} {p : Fate → Bool}

@[simp] theorem withFate_append : (l ++ l').withFate p = l.withFate p ++ l'.withFate p := by
  simp [withFate]

@[simp] theorem failures_append : (l ++ l').failures = l.failures ++ l'.failures := by
  simp [failures]

@[simp] theorem descriptors_append [DecidableEq τ] (userData : τ) :
    (l ++ l').descriptors userData = l.descriptors userData ++ l'.descriptors userData := by
  simp [descriptors]

variable {fate : Fate} {owned : List (OwnedSqe τ)}

@[simp] theorem withFate_all : (all fate owned).withFate p = if p fate then owned else [] := by
  unfold withFate all
  rw [List.filter_map, List.map_map]
  split
  next hp => simp [Function.comp_def, hp]
  next hp => simp [Function.comp_def, hp]

@[simp] theorem failures_all_failed (errno : Nat) :
    (all (.failed errno) owned).failures = owned.map fun o => ⟨o.sqe.userData, -errno⟩ := by
  simp [failures, failure, all, List.filterMap_map, Function.comp_def]

@[simp] theorem failures_all_pending : (all .pending owned).failures = [] := by
  simp [failures, failure, all]

@[simp] theorem failures_all_accepted : (all .accepted owned).failures = [] := by
  simp [failures, failure, all]

@[simp] theorem descriptors_all_pending [DecidableEq τ] (userData : τ) :
    (all .pending owned).descriptors userData = [] := by
  simp [descriptors, descriptor, all]

@[simp] theorem descriptors_all_failed [DecidableEq τ] (userData : τ) (errno : Nat) :
    (all (.failed errno) owned).descriptors userData = [] := by
  simp [descriptors, descriptor, all]

theorem map_fst_all : (all fate owned).map Prod.fst = owned := by
  simp [all, Function.comp_def]

theorem accept_zero (ledger : Ledger τ) : accept 0 ledger = ledger := by
  cases ledger with
  | nil => rfl
  | cons e ledger => rfl

theorem accept_append (hdone : ∀ e ∈ l, e.2.isPending = false) (n : Nat) :
    accept n (l ++ l') = l ++ accept n l' := by
  induction l with
  | nil => rfl
  | cons e l ih =>
      obtain ⟨o, fate⟩ := e
      have hfate : ¬ fate.isPending = true := by
        rw [hdone (o, fate) List.mem_cons_self]
        exact Bool.false_ne_true
      cases n with
      | zero => rw [accept_zero, accept_zero]
      | succ n =>
          rw [List.cons_append, accept, if_neg hfate,
            ih fun e he => hdone e (List.mem_cons_of_mem _ he)]
          rfl

theorem accept_pending (owned rest : List (OwnedSqe τ)) :
    accept owned.length (all .pending (owned ++ rest)) = all .accepted owned ++ all .pending rest := by
  induction owned with
  | nil => exact accept_zero _
  | cons o owned ih =>
      change (o, Fate.accepted) :: accept owned.length (all .pending (owned ++ rest)) = _
      rw [ih]
      rfl

theorem fail_append (hdone : ∀ e ∈ l, e.2.isPending = false) (errno : Nat) :
    fail errno (l ++ all .pending owned) = l ++ all (.failed errno) owned := by
  have hsame : fail errno l = l := by
    refine (List.map_congr_left fun e he => ?_).trans (List.map_id l)
    exact if_neg (by rw [hdone e he]; exact Bool.false_ne_true)
  have hpending : fail errno (all .pending owned) = all (.failed errno) owned := by
    simp [fail, all, Fate.isPending]
  exact (List.map_append).trans (congrArg₂ (· ++ ·) hsame hpending)

/-! ### Draining keeps the rest -/

section Drain

variable [DecidableEq τ] {userData : τ}

theorem drainEntry_fst (e : OwnedSqe τ × Fate) : (drainEntry userData e).1 = e.1 := by
  unfold drainEntry
  split
  · rfl
  · rfl

theorem drain_append : drain userData (l ++ l') = drain userData l ++ drain userData l' :=
  List.map_append

theorem drain_all (hfate : fate ≠ .accepted) :
    drain userData (all fate owned) = all fate owned := by
  simp [drain, drainEntry, all, hfate]

theorem map_fst_drain : (drain userData l).map Prod.fst = l.map Prod.fst := by
  unfold drain
  rw [List.map_map]
  exact List.map_congr_left fun e _ => drainEntry_fst e

theorem isPending_drain (hdone : ∀ e ∈ l, e.2.isPending = false) :
    ∀ e ∈ drain userData l, e.2.isPending = false := by
  intro e he
  obtain ⟨e', he', rfl⟩ := List.mem_map.mp he
  unfold drainEntry
  split
  · rfl
  · exact hdone e' he'

theorem withFate_drain :
    (drain userData l).withFate Fate.isAccepted = l.withFate Fate.isAccepted := by
  have hfate : ∀ e : OwnedSqe τ × Fate,
      (drainEntry userData e).2.isAccepted = e.2.isAccepted := by
    intro e
    unfold drainEntry
    split
    next h => rw [h.1]; rfl
    next => rfl
  unfold withFate drain
  rw [List.filter_map, List.map_map]
  refine Eq.trans (List.map_congr_left fun e _ => drainEntry_fst e) ?_
  exact congrArg _ (List.filter_congr fun e _ => hfate e)

theorem failures_drain : (drain userData l).failures = l.failures := by
  unfold failures drain
  rw [List.filterMap_map]
  refine List.filterMap_congr fun e _ => ?_
  by_cases hdrained : e.2 = .accepted ∧ e.1.sqe.userData = userData
  · rw [Function.comp_apply, drainEntry, if_pos hdrained, failure, failure, hdrained.1]
  · rw [Function.comp_apply, drainEntry, if_neg hdrained]

theorem descriptor_drainEntry (ud : τ) (e : OwnedSqe τ × Fate) :
    descriptor ud (drainEntry userData e) = if ud = userData then none else descriptor ud e := by
  by_cases hdrained : e.2 = .accepted ∧ e.1.sqe.userData = userData
  · rw [drainEntry, if_pos hdrained, descriptor, if_neg (by simp), descriptor, hdrained.2]
    split
    · rfl
    next hud => exact (if_neg fun h => hud h.2.1.symm).symm
  · rw [drainEntry, if_neg hdrained]
    split
    next hud =>
      refine if_neg fun h => hdrained ⟨h.1, ?_⟩
      rw [h.2.1, hud]
    next => rfl

theorem descriptors_drain (ud : τ) :
    (drain userData l).descriptors ud = if ud = userData then [] else l.descriptors ud := by
  unfold descriptors drain
  rw [List.filterMap_map]
  refine (List.filterMap_congr fun e _ => descriptor_drainEntry ud e).trans ?_
  split
  · exact List.filterMap_none l
  · rfl

end Drain

/-- The descriptors of accepted entries are kept under their `user_data`. -/
theorem foldl_retain [DecidableEq τ] (hkept : ∀ o ∈ owned, o.Kept) (fds : τ → List Nat) (ud : τ) :
    owned.foldl IoUring.retain fds ud = fds ud ++ (all .accepted owned).descriptors ud := by
  induction owned generalizing fds with
  | nil => exact (List.append_nil _).symm
  | cons o owned ih =>
      have hone : IoUring.retain fds o ud = fds ud ++ (descriptor ud (o, .accepted)).toList := by
        cases hfd : o.fd with
        | none => simp [IoUring.retain, descriptor, hfd]
        | some fd =>
            have huntil := hkept o List.mem_cons_self fd hfd
            by_cases hmsg : o.sqe.opcode = .msgRing
            · simp [IoUring.retain, descriptor, hfd, huntil, hmsg]
            · by_cases hud : o.sqe.userData = ud
              · subst hud
                simp [IoUring.retain, descriptor, hfd, huntil, hmsg]
              · simp [IoUring.retain, descriptor, hfd, huntil, hmsg, hud,
                  Function.update_of_ne (Ne.symm hud)]
      have hcons : (all .accepted (o :: owned)).descriptors ud =
          (descriptor ud (o, .accepted)).toList ++ (all .accepted owned).descriptors ud := by
        unfold descriptors all
        rw [List.map_cons, List.filterMap_cons]
        cases descriptor ud (o, .accepted) with
        | none => rfl
        | some fd => rfl
      rw [List.foldl_cons, ih fun o' ho' => hkept o' (List.mem_cons_of_mem _ ho'), hone, hcons,
        List.append_assoc]

end Ledger

end Runite.Linux
