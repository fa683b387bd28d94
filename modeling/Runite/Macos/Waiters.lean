import Mathlib.Algebra.Group.Nat.Defs
import Mathlib.Data.Finset.Basic
import Mathlib.Data.List.AList

/-!
# Waiters of one-shot kernel registrations

The readiness waiters and the process waiters of the macOS driver are two tables of one
shape: waiters under a key, a token counter, and one one-shot registration in the kernel
for each key that has waiters.  `Waiters κ` is that table, with the keys that the kernel
has a registration of.  A completion is named by a number, and `interested` says which of
them still have a future.
-/

namespace Runite.Macos

/-- `FdWaiter` and `ProcessWaiter`. -/
structure Waiter where
  token : Nat
  completion : Nat
  deriving DecidableEq, Repr

/-- `io::Result<()>`, with its errno. -/
abbrev IoResult := Except Int Unit

structure Completed (κ : Type) where
  key : κ
  waiter : Waiter
  result : IoResult
  deriving DecidableEq, Repr

inductive Registration
  | token (token : Nat)
  | error (errno : Int)
  | panicked
  deriving DecidableEq, Repr

/-- The waiter of a registration that succeeded. -/
def Registration.waiters (outcome : Registration) (completion : Nat) : List Waiter :=
  match outcome with
  | .token n => [{ token := n, completion }]
  | .error _ | .panicked => []

/-- The flags that interests are updated with. -/
inductive UpdateFlags
  | add
  | delete
  deriving DecidableEq, Repr

structure Waiters (κ : Type) [DecidableEq κ] where
  nextToken : Nat := 1
  table : AList (fun _ : κ => List Waiter) := ∅
  /-- The keys with a registration in the kernel. -/
  registered : Finset κ := ∅
  /-- Every waiter that was completed, in order. -/
  completed : List (Completed κ) := []

namespace Waiters

variable {κ : Type} [DecidableEq κ]

def get (s : Waiters κ) (key : κ) : List Waiter := (s.table.lookup key).getD []

/-- `update_fd_interest` and `update_process_interest`, with what the kernel answers. -/
def updateInterest (s : Waiters κ) (key : κ) (flags : UpdateFlags) (answer : IoResult) :
    Waiters κ :=
  match answer, flags with
  | .error _, _ => s
  | .ok (), .add => { s with registered := insert key s.registered }
  | .ok (), .delete => { s with registered := s.registered.erase key }

/-- `retain` the waiters of a key that are interested: whether the key needs a registration. -/
def needsRegistration (s : Waiters κ) (interested : Nat → Bool) (key : κ) : Waiters κ × Bool :=
  match s.table.lookup key with
  | some entries =>
      let entries := entries.filter fun waiter => interested waiter.completion
      ({ s with table := s.table.insert key entries }, entries.isEmpty)
  | none => (s, true)

/-- `allocate_fd_token` and `allocate_process_token`: `none` when the tokens are used up. -/
def allocateToken (s : Waiters κ) : Option (Waiters κ × Nat) :=
  if s.nextToken + 1 < 2 ^ 64 then
    some ({ s with nextToken := s.nextToken + 1 }, s.nextToken)
  else
    none

/-- The end of a registration: a waiter with a token of its own. -/
def push (s : Waiters κ) (key : κ) (completion : Nat) : Waiters κ × Registration :=
  match s.allocateToken with
  | some (s, token) =>
      ({ s with table := s.table.insert key (s.get key ++ [{ token, completion }]) }, .token token)
  | none => (s, .panicked)

/-- `register_fd_readiness` and `register_process_exit`. -/
def register (s : Waiters κ) (interested : Nat → Bool) (key : κ) (completion : Nat)
    (answer : IoResult) : Waiters κ × Registration :=
  match s.needsRegistration interested key with
  | (s, true) =>
      let s := { s with table := s.table.erase key }.updateInterest key .add answer
      match answer with
      | .error errno => (s, .error errno)
      | .ok () => s.push key completion
  | (s, false) => s.push key completion

/-- `cancel_fd_readiness` and `cancel_process_exit`. -/
def cancel (s : Waiters κ) (token : Nat) (answer : IoResult) : Waiters κ :=
  match s.table.entries.find? fun entry => entry.2.any (·.token == token) with
  | some ⟨key, entries⟩ =>
      let entries := entries.eraseP (·.token == token)
      if entries.isEmpty then
        { s with table := s.table.erase key }.updateInterest key .delete answer
      else
        { s with table := s.table.insert key entries }
  | none => s

/-- `complete_fd_waiters` and `complete_process_waiters`. -/
def complete (s : Waiters κ) (key : κ) (result : IoResult) : Waiters κ :=
  match s.table.lookup key with
  | some waiters =>
      { s with
        table := s.table.erase key
        completed := s.completed ++ waiters.map fun waiter => { key, waiter, result } }
  | none => s

/-- The kernel deletes the one-shot registrations that it delivers. -/
def dequeue (s : Waiters κ) (keys : List κ) : Waiters κ :=
  { s with registered := s.registered \ keys.toFinset }

/-- A batch of deliveries, one after the other. -/
def completeAll (s : Waiters κ) (deliveries : List (κ × IoResult)) : Waiters κ :=
  deliveries.foldl (fun s delivery => s.complete delivery.1 delivery.2) s

/-! ## What the waiters of the keys become -/

variable {s : Waiters κ} {key : κ} {interested : Nat → Bool}

theorem get_insert (s : Waiters κ) (key other : κ) (entries : List Waiter) :
    ({ s with table := s.table.insert key entries } : Waiters κ).get other =
      if other = key then entries else s.get other := by
  unfold get
  by_cases h : other = key
  · rw [h, AList.lookup_insert, if_pos rfl]
    rfl
  · rw [AList.lookup_insert_ne h, if_neg h]

theorem get_erase (s : Waiters κ) (key other : κ) :
    ({ s with table := s.table.erase key } : Waiters κ).get other =
      if other = key then [] else s.get other := by
  unfold get
  by_cases h : other = key
  · rw [h, AList.lookup_erase, if_pos rfl]
    rfl
  · rw [AList.lookup_erase_ne h, if_neg h]

@[simp]
theorem get_updateInterest (s : Waiters κ) (key other : κ) (flags : UpdateFlags)
    (answer : IoResult) : (s.updateInterest key flags answer).get other = s.get other := by
  unfold updateInterest
  split <;> rfl

@[simp]
theorem nextToken_updateInterest (s : Waiters κ) (key : κ) (flags : UpdateFlags)
    (answer : IoResult) : (s.updateInterest key flags answer).nextToken = s.nextToken := by
  unfold updateInterest
  split <;> rfl

@[simp]
theorem completed_updateInterest (s : Waiters κ) (key : κ) (flags : UpdateFlags)
    (answer : IoResult) : (s.updateInterest key flags answer).completed = s.completed := by
  unfold updateInterest
  split <;> rfl

theorem mem_registered_updateInterest {other : κ} (hne : other ≠ key) (flags : UpdateFlags)
    (answer : IoResult) :
    other ∈ (s.updateInterest key flags answer).registered ↔ other ∈ s.registered := by
  unfold updateInterest
  split
  · exact Iff.rfl
  · simp [hne]
  · simp [hne]

/-- What is left of a key's waiters, and whether that is nothing. -/
theorem needsRegistration_spec (s : Waiters κ) (interested : Nat → Bool) (key : κ) :
    ∃ t : AList fun _ : κ => List Waiter,
      s.needsRegistration interested key =
        ({ s with table := t },
          ((s.get key).filter fun waiter => interested waiter.completion).isEmpty) ∧
      ∀ other, ({ s with table := t } : Waiters κ).get other =
        if other = key then (s.get key).filter fun waiter => interested waiter.completion
        else s.get other := by
  unfold needsRegistration
  cases hlookup : s.table.lookup key with
  | none =>
      have hget : s.get key = [] := by rw [get, hlookup]; rfl
      refine ⟨s.table, by rw [hget]; rfl, fun other => ?_⟩
      by_cases h : other = key
      · rw [if_pos h, hget, h, List.filter_nil]
        exact hget
      · rw [if_neg h]
  | some entries =>
      have hget : s.get key = entries := by rw [get, hlookup]; rfl
      rw [hget]
      exact ⟨_, rfl, fun other => get_insert s key other _⟩

theorem push_spec (s : Waiters κ) (key : κ) (completion : Nat) :
    (s.push key completion = (s, .panicked) ∧ 2 ^ 64 ≤ s.nextToken + 1) ∨
      ∃ t : AList fun _ : κ => List Waiter,
        s.push key completion =
          ({ s with nextToken := s.nextToken + 1, table := t }, .token s.nextToken) ∧
        ∀ other, ({ s with nextToken := s.nextToken + 1, table := t } : Waiters κ).get other =
          if other = key then s.get key ++ [{ token := s.nextToken, completion }]
          else s.get other := by
  unfold push allocateToken
  by_cases h : s.nextToken + 1 < 2 ^ 64
  · rw [if_pos h]
    exact Or.inr ⟨_, rfl, fun other => get_insert s key other _⟩
  · rw [if_neg h]
    exact Or.inl ⟨rfl, by omega⟩

theorem get_complete (s : Waiters κ) (key other : κ) (result : IoResult) :
    (s.complete key result).get other = if other = key then [] else s.get other := by
  unfold complete
  cases hlookup : s.table.lookup key with
  | none =>
      by_cases h : other = key
      · rw [if_pos h, h, get]
        exact congrArg (·.getD []) hlookup
      · rw [if_neg h]
  | some waiters => exact get_erase s key other

theorem completed_complete (s : Waiters κ) (key : κ) (result : IoResult) :
    (s.complete key result).completed =
      s.completed ++ (s.get key).map fun waiter => ⟨key, waiter, result⟩ := by
  unfold complete get
  cases s.table.lookup key with
  | none => exact (List.append_nil _).symm
  | some waiters => rfl

@[simp]
theorem nextToken_complete (s : Waiters κ) (key : κ) (result : IoResult) :
    (s.complete key result).nextToken = s.nextToken := by
  unfold complete
  split <;> rfl

@[simp]
theorem registered_complete (s : Waiters κ) (key : κ) (result : IoResult) :
    (s.complete key result).registered = s.registered := by
  unfold complete
  split <;> rfl

/-! ## What an operation does -/

/-- The waiters of a key that are kept when another one registers. -/
def kept (s : Waiters κ) (interested : Nat → Bool) (key : κ) : List Waiter :=
  (s.get key).filter fun waiter => interested waiter.completion

/-- What a registration does.  It takes no registration of the kernel away. -/
structure Registers (s : Waiters κ) (interested : Nat → Bool) (key : κ) (completion : Nat)
    (outcome : Registration) (s' : Waiters κ) : Prop where
  get : ∀ other, s'.get other =
    if other = key then s.kept interested key ++ outcome.waiters completion else s.get other
  registered : ∀ other, other ∈ s'.registered ↔
    other ∈ s.registered ∨
      other = key ∧ s.kept interested key = [] ∧ ∀ errno, outcome ≠ .error errno
  failed : ∀ errno, outcome = .error errno → s.kept interested key = []
  fresh : ∀ w ∈ outcome.waiters completion, w.token = s.nextToken
  nextToken : s'.nextToken = s.nextToken + (outcome.waiters completion).length
  completed : s'.completed = s.completed

/-- What a cancellation does.  A key that has other waiters keeps its registration. -/
structure Cancels (s : Waiters κ) (token : Nat) (s' : Waiters κ) : Prop where
  get : ∀ key, s'.get key = (s.get key).filter (·.token ≠ token)
  registered : ∀ key, s'.get key ≠ [] → (key ∈ s'.registered ↔ key ∈ s.registered)
  nextToken : s'.nextToken = s.nextToken
  completed : s'.completed = s.completed

/-- What a batch does that has `resultOf key` for a key. -/
structure Delivers (s : Waiters κ) (resultOf : κ → Option IoResult) (s' : Waiters κ) : Prop where
  get : ∀ key, s'.get key = if resultOf key = none then s.get key else []
  completed : ∃ new, s'.completed = s.completed ++ new ∧
    (new.map (·.waiter.token)).Nodup ∧
    ∀ c, c ∈ new ↔ c.waiter ∈ s.get c.key ∧ resultOf c.key = some c.result
  registered : ∀ key, key ∈ s'.registered ↔ key ∈ s.registered ∧ resultOf key = none
  nextToken : s'.nextToken = s.nextToken

/-- The end of a registration, from a state where the key has only the kept waiters. -/
theorem Registers.push {t : Waiters κ} (hget : ∀ other, t.get other =
      if other = key then s.kept interested key else s.get other)
    (hregistered : ∀ other, other ∈ t.registered ↔
      other ∈ s.registered ∨ other = key ∧ s.kept interested key = [])
    (hnext : t.nextToken = s.nextToken) (hcompleted : t.completed = s.completed)
    (completion : Nat) :
    s.Registers interested key completion (t.push key completion).2 (t.push key completion).1 := by
  have hself : t.get key = s.kept interested key := by rw [hget, if_pos rfl]
  obtain ⟨hpush, -⟩ | ⟨table, hpush, htable⟩ := push_spec t key completion
  · rw [hpush]
    exact
      { get := fun other => by
          rw [hget other]
          exact congrArg (ite _ · _) (List.append_nil _).symm
        registered := fun other => by simp [hregistered other]
        failed := fun _ h => nomatch h
        fresh := fun _ h => nomatch h
        nextToken := hnext
        completed := hcompleted }
  · rw [hpush]
    exact
      { get := fun other => by
          rw [htable other, hself]
          by_cases h : other = key
          · rw [if_pos h, if_pos h]
            rfl
          · rw [if_neg h, if_neg h, hget, if_neg h]
        registered := fun other => by simp [hregistered other]
        failed := fun _ h => nomatch h
        fresh := fun w hw => by
          obtain rfl := List.mem_singleton.mp hw
          exact hnext
        nextToken := congrArg (· + 1) hnext
        completed := hcompleted }

theorem register_spec (s : Waiters κ) (interested : Nat → Bool) (key : κ) (completion : Nat)
    (answer : IoResult) :
    s.Registers interested key completion (s.register interested key completion answer).2
      (s.register interested key completion answer).1 := by
  obtain ⟨t, hneeds, hget⟩ := needsRegistration_spec s interested key
  change s.needsRegistration interested key =
    ({ s with table := t }, (s.kept interested key).isEmpty) at hneeds
  change ∀ other, _ = if other = key then s.kept interested key else s.get other at hget
  unfold register
  rw [hneeds]
  by_cases hkept : s.kept interested key = []
  · have herased : ∀ other, ({ s with table := t.erase key } : Waiters κ).get other =
        if other = key then s.kept interested key else s.get other := by
      intro other
      rw [hkept]
      refine (get_erase { s with table := t } key other).trans ?_
      by_cases h : other = key
      · rw [if_pos h, if_pos h]
      · rw [if_neg h, if_neg h, hget, if_neg h]
    rw [hkept]
    cases answer with
    | error errno =>
        exact
          { get := fun other => by
              refine (herased other).trans ?_
              exact congrArg (ite _ · _) (List.append_nil _).symm
            registered := fun other => by simp [updateInterest]
            failed := fun _ _ => hkept
            fresh := fun _ h => nomatch h
            nextToken := rfl
            completed := rfl }
    | ok _ =>
        refine Registers.push (t := { s with
          table := t.erase key
          registered := insert key s.registered }) herased (fun other => ?_) rfl rfl completion
        simp [hkept, or_comm]
  · rw [List.isEmpty_eq_false_iff.mpr hkept]
    refine Registers.push (t := { s with table := t }) hget (fun other => ?_) rfl rfl completion
    simp [hkept]

/-! ## Tokens -/

/-- A token is of one waiter, and a waiter is completed once. -/
structure Distinct (s : Waiters κ) : Prop where
  token_lt : ∀ key, ∀ w ∈ s.get key, w.token < s.nextToken
  nodup : ∀ key, ((s.get key).map Waiter.token).Nodup
  key_eq : ∀ key other, ∀ w ∈ s.get key, ∀ w' ∈ s.get other, w.token = w'.token → key = other
  completed_lt : ∀ c ∈ s.completed, c.waiter.token < s.nextToken
  completed_nodup : (s.completed.map (·.waiter.token)).Nodup
  completed_gone : ∀ c ∈ s.completed, ∀ key, ∀ w ∈ s.get key, c.waiter.token ≠ w.token

theorem Distinct.shrink {s' : Waiters κ} (h : s.Distinct)
    (hget : ∀ key, (s'.get key).Sublist (s.get key)) (hnext : s'.nextToken = s.nextToken)
    (hcompleted : s'.completed = s.completed) : s'.Distinct where
  token_lt key w hw := by
    rw [hnext]
    exact h.token_lt key w ((hget key).subset hw)
  nodup key := (h.nodup key).sublist ((hget key).map _)
  key_eq key other w hw w' hw' heq :=
    h.key_eq key other w ((hget key).subset hw) w' ((hget other).subset hw') heq
  completed_lt c hc := by
    rw [hnext]
    exact h.completed_lt c (hcompleted ▸ hc)
  completed_nodup := hcompleted ▸ h.completed_nodup
  completed_gone c hc key w hw :=
    h.completed_gone c (hcompleted ▸ hc) key w ((hget key).subset hw)

theorem Distinct.register {s' : Waiters κ} {completion : Nat} {outcome : Registration}
    (h : s.Distinct) (hregisters : s.Registers interested key completion outcome s') :
    s'.Distinct := by
  have hmem : ∀ other, ∀ w ∈ s'.get other, w ∈ s.get other ∨
      other = key ∧ w ∈ outcome.waiters completion := by
    intro other w hw
    rw [hregisters.get] at hw
    by_cases hother : other = key
    · rw [if_pos hother] at hw
      rcases List.mem_append.mp hw with hw | hw
      · exact Or.inl (hother ▸ List.mem_of_mem_filter hw)
      · exact Or.inr ⟨hother, hw⟩
    · rw [if_neg hother] at hw
      exact Or.inl hw
  have hle : s.nextToken ≤ s'.nextToken := by
    rw [hregisters.nextToken]
    exact Nat.le_add_right _ _
  have hnew : ∀ w ∈ outcome.waiters completion, w.token < s'.nextToken := by
    intro w hw
    rw [hregisters.nextToken, hregisters.fresh w hw]
    exact Nat.lt_add_of_pos_right (List.length_pos_of_mem hw)
  exact
    { token_lt := fun other w hw => by
        rcases hmem other w hw with hw | ⟨-, hw⟩
        · exact (h.token_lt other w hw).trans_le hle
        · exact hnew w hw
      nodup := fun other => by
        rw [hregisters.get]
        by_cases hother : other = key
        · rw [if_pos hother, List.map_append, List.nodup_append]
          refine ⟨(h.nodup key).sublist (List.filter_sublist.map _), ?_, ?_⟩
          · cases outcome <;> simp [Registration.waiters]
          · intro a ha b hb
            obtain ⟨w, hw, rfl⟩ := List.mem_map.mp ha
            obtain ⟨w', hw', rfl⟩ := List.mem_map.mp hb
            rw [hregisters.fresh w' hw']
            exact (h.token_lt key w (List.mem_of_mem_filter hw)).ne
        · rw [if_neg hother]
          exact h.nodup other
      key_eq := fun k other w hw w' hw' heq => by
        rcases hmem k w hw with hw | ⟨rfl, hw⟩ <;> rcases hmem other w' hw' with hw' | ⟨rfl, hw'⟩
        · exact h.key_eq k other w hw w' hw' heq
        · exact absurd (heq.trans (hregisters.fresh w' hw')) (h.token_lt k w hw).ne
        · exact absurd (heq.symm.trans (hregisters.fresh w hw)) (h.token_lt other w' hw').ne
        · rfl
      completed_lt := fun c hc => by
        rw [hregisters.completed] at hc
        exact (h.completed_lt c hc).trans_le hle
      completed_nodup := hregisters.completed ▸ h.completed_nodup
      completed_gone := fun c hc other w hw => by
        rw [hregisters.completed] at hc
        rcases hmem other w hw with hw | ⟨-, hw⟩
        · exact h.completed_gone c hc other w hw
        · rw [hregisters.fresh w hw]
          exact (h.completed_lt c hc).ne }

theorem Distinct.complete (h : s.Distinct) (key : κ) (result : IoResult) :
    (s.complete key result).Distinct := by
  have hget : ∀ other, ((s.complete key result).get other).Sublist (s.get other) := by
    intro other
    rw [get_complete]
    split
    · exact List.nil_sublist _
    · exact List.Sublist.refl _
  have hcompleted : ∀ c ∈ (s.complete key result).completed,
      c ∈ s.completed ∨ c.waiter ∈ s.get key ∧ c.key = key := by
    intro c hc
    rw [completed_complete] at hc
    rcases List.mem_append.mp hc with hc | hc
    · exact Or.inl hc
    · obtain ⟨w, hw, rfl⟩ := List.mem_map.mp hc
      exact Or.inr ⟨hw, rfl⟩
  exact
    { token_lt := fun other w hw => by
        rw [nextToken_complete]
        exact h.token_lt other w ((hget other).subset hw)
      nodup := fun other => (h.nodup other).sublist ((hget other).map _)
      key_eq := fun k other w hw w' hw' heq =>
        h.key_eq k other w ((hget k).subset hw) w' ((hget other).subset hw') heq
      completed_lt := fun c hc => by
        rw [nextToken_complete]
        rcases hcompleted c hc with hc | ⟨hw, -⟩
        · exact h.completed_lt c hc
        · exact h.token_lt key _ hw
      completed_nodup := by
        rw [completed_complete, List.map_append, List.nodup_append, List.map_map]
        refine ⟨h.completed_nodup, h.nodup key, fun a ha b hb => ?_⟩
        obtain ⟨c, hc, rfl⟩ := List.mem_map.mp ha
        obtain ⟨w, hw, rfl⟩ := List.mem_map.mp hb
        exact h.completed_gone c hc key w hw
      completed_gone := fun c hc other w hw => by
        rw [get_complete] at hw
        by_cases hother : other = key
        · rw [if_pos hother] at hw
          exact nomatch hw
        · rw [if_neg hother] at hw
          rcases hcompleted c hc with hc | ⟨hc, -⟩
          · exact h.completed_gone c hc other w hw
          · exact fun heq => hother (h.key_eq other key w hw c.waiter hc heq.symm) }

/-! ## Cancellations and batches -/

theorem mem_entries_iff {entries : List Waiter} :
    ⟨key, entries⟩ ∈ s.table.entries ↔ s.table.lookup key = some entries :=
  AList.mem_lookup_iff.symm

theorem eraseP_token {entries : List Waiter} (h : (entries.map Waiter.token).Nodup) (token : Nat) :
    entries.eraseP (·.token == token) = entries.filter (·.token ≠ token) := by
  induction entries with
  | nil => rfl
  | cons w entries ih =>
      obtain ⟨hnotin, hnodup⟩ := List.nodup_cons.mp h
      by_cases hw : w.token = token
      · have hall : ∀ w' ∈ entries, decide (w'.token ≠ token) = true := by
          intro w' hw'
          refine decide_eq_true fun heq => hnotin ?_
          exact hw ▸ heq ▸ List.mem_map_of_mem hw'
        rw [List.eraseP_cons_of_pos (by simpa using hw), List.filter_cons_of_neg (by simpa using hw),
          List.filter_eq_self.mpr hall]
      · rw [List.eraseP_cons_of_neg (by simpa using hw), List.filter_cons_of_pos (by simpa using hw),
          ih hnodup]

theorem cancel_spec (h : s.Distinct) (token : Nat) (answer : IoResult) :
    s.Cancels token (s.cancel token answer) := by
  have hsame : ∀ key, (∀ w ∈ s.get key, w.token ≠ token) →
      (s.get key).filter (·.token ≠ token) = s.get key := by
    intro key hne
    exact List.filter_eq_self.mpr fun w hw => decide_eq_true (hne w hw)
  unfold cancel
  cases hfind : s.table.entries.find? fun entry => entry.2.any (·.token == token) with
  | none =>
      refine ⟨fun key => (hsame key fun w hw heq => ?_).symm, fun _ _ => Iff.rfl, rfl, rfl⟩
      unfold get at hw
      cases hlookup : s.table.lookup key with
      | none =>
          rw [hlookup] at hw
          exact nomatch hw
      | some entries =>
          rw [hlookup] at hw
          refine List.find?_eq_none.mp hfind ⟨key, entries⟩ (mem_entries_iff.mpr hlookup) ?_
          exact List.any_eq_true.mpr ⟨w, hw, beq_iff_eq.mpr heq⟩
  | some entry =>
      obtain ⟨key, entries⟩ := entry
      have hlookup := mem_entries_iff.mp (List.mem_of_find?_eq_some hfind)
      have hself : s.get key = entries := by
        rw [get, hlookup]
        rfl
      have hany := List.find?_some hfind
      obtain ⟨w, hw, hwtoken⟩ := List.any_eq_true.mp hany
      rw [beq_iff_eq] at hwtoken
      have hother : ∀ other, other ≠ key → ∀ w' ∈ s.get other, w'.token ≠ token := by
        intro other hne w' hw' heq
        exact hne (h.key_eq other key w' hw' w (hself ▸ hw) (heq.trans hwtoken.symm))
      have hleft : entries.eraseP (·.token == token) = (s.get key).filter (·.token ≠ token) := by
        rw [hself]
        exact eraseP_token (hself ▸ h.nodup key) token
      dsimp only
      by_cases hempty : entries.eraseP (·.token == token) = []
      · rw [hempty, List.isEmpty_nil, if_pos rfl]
        have hget : ∀ other, ({ s with table := s.table.erase key } : Waiters κ).get other =
            (s.get other).filter (·.token ≠ token) := by
          intro other
          rw [get_erase]
          by_cases hk : other = key
          · rw [if_pos hk, hk, ← hleft, hempty]
          · rw [if_neg hk, hsame other (hother other hk)]
        refine ⟨fun other => (get_updateInterest _ key other .delete answer).trans (hget other),
          fun other hne => ?_, nextToken_updateInterest _ key .delete answer,
          completed_updateInterest _ key .delete answer⟩
        refine mem_registered_updateInterest (fun heq => hne ?_) .delete answer
        rw [heq, get_updateInterest, hget, ← hleft, hempty]
      · rw [List.isEmpty_eq_false_iff.mpr hempty]
        refine ⟨fun other => (get_insert s key other _).trans ?_, fun _ _ => Iff.rfl, rfl, rfl⟩
        by_cases hk : other = key
        · rw [if_pos hk, hk, hleft]
        · rw [if_neg hk, hsame other (hother other hk)]

theorem registered_cancel_subset (s : Waiters κ) (token : Nat) (answer : IoResult) :
    (s.cancel token answer).registered ⊆ s.registered := by
  unfold cancel
  split
  · dsimp only
    split
    · unfold updateInterest
      split
      · exact Finset.Subset.refl _
      · contradiction
      · exact Finset.erase_subset _ _
    · exact Finset.Subset.refl _
  · exact Finset.Subset.refl _

theorem Distinct.cancel (h : s.Distinct) (token : Nat) (answer : IoResult) :
    (s.cancel token answer).Distinct := by
  have hcancels := cancel_spec h token answer
  refine h.shrink (fun key => ?_) hcancels.nextToken hcancels.completed
  rw [hcancels.get]
  exact List.filter_sublist

/-- A batch: the kernel deletes the registrations, and the waiters are completed. -/
def deliver (s : Waiters κ) (deliveries : List (κ × IoResult)) : Waiters κ :=
  (s.dequeue (deliveries.map Prod.fst)).completeAll deliveries

theorem deliver_nil (s : Waiters κ) : s.deliver [] = s := by
  simp [deliver, dequeue, completeAll]

theorem completeAll_spec (h : s.Distinct) (deliveries : List (κ × IoResult)) :
    (s.completeAll deliveries).Distinct ∧
      (∀ key, (s.completeAll deliveries).get key =
        if deliveries.lookup key = none then s.get key else []) ∧
      (s.completeAll deliveries).registered = s.registered ∧
      (s.completeAll deliveries).nextToken = s.nextToken ∧
      ∃ new, (s.completeAll deliveries).completed = s.completed ++ new ∧
        ∀ c, c ∈ new ↔ c.waiter ∈ s.get c.key ∧ deliveries.lookup c.key = some c.result := by
  induction deliveries generalizing s with
  | nil => exact ⟨h, fun _ => rfl, rfl, rfl, [], (List.append_nil _).symm, by simp⟩
  | cons delivery deliveries ih =>
      obtain ⟨key, result⟩ := delivery
      obtain ⟨hdistinct, hget, hregistered, hnext, new, hcompleted, hnew⟩ := ih (h.complete key result)
      have hlookup : ∀ other, ((key, result) :: deliveries).lookup other =
          if other = key then some result else deliveries.lookup other := by
        intro other
        by_cases hk : other = key
        · rw [if_pos hk, hk, List.lookup_cons_self]
        · rw [if_neg hk, List.lookup_cons, beq_eq_false_iff_ne.mpr hk]
      refine ⟨hdistinct, fun other => ?_, hregistered.trans (registered_complete s key result),
        hnext.trans (nextToken_complete s key result),
        (s.get key).map (fun waiter => ⟨key, waiter, result⟩) ++ new, ?_, fun c => ?_⟩
      · refine (hget other).trans ?_
        rw [get_complete, hlookup]
        by_cases hk : other = key
        · simp [hk]
        · rw [if_neg hk, if_neg hk]
      · refine hcompleted.trans ?_
        rw [completed_complete, List.append_assoc]
      · rw [List.mem_append, hnew, get_complete, hlookup]
        by_cases hk : c.key = key
        · obtain ⟨k, w, r⟩ := c
          obtain rfl : k = key := hk
          simp [eq_comm]
        · rw [if_neg hk, if_neg hk]
          refine or_iff_right fun hmem => hk ?_
          obtain ⟨w, -, rfl⟩ := List.mem_map.mp hmem
          rfl

theorem deliver_spec (h : s.Distinct) (deliveries : List (κ × IoResult)) :
    (s.deliver deliveries).Distinct ∧ s.Delivers (List.lookup · deliveries) (s.deliver deliveries) := by
  have hdequeued : (s.dequeue (deliveries.map Prod.fst)).Distinct :=
    h.shrink (fun _ => List.Sublist.refl _) rfl rfl
  obtain ⟨hdistinct, hget, hregistered, hnext, new, hcompleted, hnew⟩ :=
    completeAll_spec hdequeued deliveries
  refine ⟨hdistinct, hget, ⟨new, hcompleted, ?_, hnew⟩, fun key => ?_, hnext⟩
  · have hnodup := hdistinct.completed_nodup
    rw [hcompleted, List.map_append] at hnodup
    exact hnodup.of_append_right
  · rw [deliver, hregistered, dequeue, Finset.mem_sdiff, List.mem_toFinset, List.lookup_eq_none_iff]
    refine and_congr_right' ⟨fun hnotin delivery hdelivery => ?_, fun hall hmem => ?_⟩
    · refine bne_iff_ne.mpr fun heq => hnotin ?_
      rw [heq]
      exact List.mem_map_of_mem hdelivery
    · obtain ⟨delivery, hdelivery, rfl⟩ := List.mem_map.mp hmem
      exact absurd (hall delivery hdelivery) (by simp)

/-! ## Registrations -/

/-- A key with an interested waiter has a registration in the kernel. -/
def Covered (s : Waiters κ) (interested : Nat → Bool) : Prop :=
  ∀ key, ∀ w ∈ s.get key, interested w.completion = true → key ∈ s.registered

variable {s' : Waiters κ} {completion token : Nat} {outcome : Registration}
  {resultOf : κ → Option IoResult}

theorem Covered.mono {interested' : Nat → Bool} (h : s.Covered interested)
    (himp : ∀ c, interested' c = true → interested c = true) : s.Covered interested' :=
  fun key w hw hinterested => h key w hw (himp _ hinterested)

theorem Covered.register (h : s.Covered interested)
    (hregisters : s.Registers interested key completion outcome s') : s'.Covered interested := by
  intro other w hw hinterested
  rw [hregisters.registered]
  rw [hregisters.get] at hw
  by_cases hother : other = key
  · rw [if_pos hother] at hw
    rcases List.mem_append.mp hw with hw | hw
    · exact Or.inl (h other w (hother ▸ List.mem_of_mem_filter hw) hinterested)
    · by_cases hkept : s.kept interested key = []
      · refine Or.inr ⟨hother, hkept, fun errno herror => ?_⟩
        rw [herror] at hw
        exact nomatch hw
      · -- the waiters that were kept have a registration already
        obtain ⟨first, hfirst⟩ := List.exists_mem_of_ne_nil _ hkept
        obtain ⟨hmem, hyes⟩ := List.mem_filter.mp hfirst
        exact Or.inl (hother ▸ h key first hmem hyes)
  · rw [if_neg hother] at hw
    exact Or.inl (h other w hw hinterested)

theorem Covered.cancel (h : s.Covered interested) (hcancels : s.Cancels token s') :
    s'.Covered interested := by
  intro key w hw hinterested
  rw [hcancels.registered key (List.ne_nil_of_mem hw)]
  rw [hcancels.get] at hw
  exact h key w (List.mem_of_mem_filter hw) hinterested

theorem Covered.deliver (h : s.Covered interested) (hdelivers : s.Delivers resultOf s') :
    s'.Covered interested := by
  intro key w hw hinterested
  rw [hdelivers.registered]
  rw [hdelivers.get] at hw
  by_cases hnone : resultOf key = none
  · rw [if_pos hnone] at hw
    exact ⟨h key w hw hinterested, hnone⟩
  · rw [if_neg hnone] at hw
    exact nomatch hw

end Waiters

end Runite.Macos
