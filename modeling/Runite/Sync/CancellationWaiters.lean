import Runite.Sync.CancellationTree
import Runite.Lib.Counting
import Runite.Lib.SwapRemove
import Runite.Lib.Table
import Mathlib.Data.List.Nodup
import Mathlib.Data.List.Perm.Basic

/-!
# Waiting for a cancellation

The futures of `cancelled` on the tokens of a program.  A future borrows a
handle, so its token stays alive, and keeps the tag of its entry in the waker
list.  `Registered` ties the lists to the futures: the list of a token that is
not cancelled is, up to order, what its futures registered, each with the waker
of its last poll.

A cancellation walks the states of a subtree in some order and takes their
lists; `visited_of_collectCancellation` gives that order.
-/

namespace Runite.Sync

open Transition
open scoped List

namespace Tokens

/-! ## What a cancellation wakes -/

/-- The walk takes the waker lists of the states it cancels, each once. -/
theorem visited_of_collectCancellation {σ σ' : Tokens} {fuel : Nat} {pending : List Nat}
    {wakers wakers' : List Waker}
    (h : collectCancellation fuel σ pending wakers = some (σ', wakers')) :
    ∃ visited : List Nat, visited.Nodup ∧
      (∀ u, u ∈ visited ↔ (σ.state u).cancelled = false ∧ (σ'.state u).cancelled = true) ∧
      wakers' = wakers ++ visited.flatMap fun u => (σ.state u).wakers.map Prod.snd := by
  induction fuel generalizing σ pending wakers with
  | zero =>
      cases pending with
      | nil =>
          cases h
          exact ⟨[], by simp, by simp, by simp⟩
      | cons t pending => cases h
  | succ fuel ih =>
      cases pending with
      | nil =>
          cases h
          exact ⟨[], by simp, by simp, by simp⟩
      | cons t pending =>
          simp only [collectCancellation] at h
          split at h
          next => exact ih h
          next ht =>
            replace ht : (σ.state t).cancelled = false := by simpa using ht
            obtain ⟨visited, hnodup, hmem, hwakers⟩ := ih h
            have hfresh : t ∉ visited := fun hvisited => by
              simpa using ((hmem t).mp hvisited).1
            have hcancelled : (σ'.state t).cancelled = true := by
              -- The rest of the walk leaves a state alone that is cancelled.
              obtain ⟨-, -, hother⟩ := state_of_collectCancellation h
              rw [hother t fun hu => by simpa using hu.isOpen]
              simp
            refine ⟨t :: visited, List.nodup_cons.mpr ⟨hfresh, hnodup⟩, fun u => ?_, ?_⟩
            · by_cases hu : u = t
              · subst hu
                simp [ht, hcancelled]
              · simp [hu, hmem u]
            · rw [hwakers, List.flatMap_cons, List.append_assoc]
              congr 2
              refine List.flatMap_congr fun u hu => ?_
              have hne : u ≠ t := fun heq => hfresh (heq ▸ hu)
              simp [hne]

end Tokens

/-! ## Futures -/

namespace Cancelled

/-- The future of the `async fn cancelled` on a token, with the tag of its
registration and the waker of its last poll, which the source does not keep.
It drops its registration when it returns. -/
inductive Call
  | active (token : Nat) (waiter : Option Nat) (latest : Waker)
  | returned
  | dropped
  deriving DecidableEq, Repr

/-- The tokens of a program and its futures of `cancelled`, by order of creation. -/
structure World where
  tokens : Tokens := {}
  calls : List Call := []

inductive Op
  | new
  | clone (t : Nat)
  | drop (t : Nat)
  | childToken (t : Nat) (full : Bool)
  | cancel (t : Nat)
  | cancelled (t : Nat)
  | poll (call : Nat) (waker : Waker)
  | dropCall (call : Nat)
  deriving DecidableEq, Repr

def Call.isOn (t : Nat) : Call → Bool
  | .active token _ _ => token = t
  | _ => false

/-- The handle may be dropped: no future borrows it, or there is another one to borrow. -/
def World.mayDrop (w : World) (t : Nat) : Bool :=
  1 < (w.tokens.state t).strong || !w.calls.any (Call.isOn t)

/-- Poll the future `call`. -/
def World.poll (w : World) (call token : Nat) (waiter : Option Nat) (waker : Waker) : World :=
  match w.tokens.pollCancelled token waiter waker with
  | (tokens, waiter', .ready _) =>
      { w with
        tokens := tokens.dropRegistration token waiter'
        calls := w.calls.set call .returned }
  | (tokens, waiter', .pending) =>
      { w with tokens := tokens, calls := w.calls.set call (.active token waiter' waker) }

/-- One call of a program; `none` when it has no such handle or future. -/
def step (w : World) : Op → Option World
  | .new => (w.tokens.step .new).map fun tokens => { w with tokens := tokens }
  | .clone t => (w.tokens.step (.clone t)).map fun tokens => { w with tokens := tokens }
  | .drop t =>
      if w.mayDrop t then (w.tokens.step (.drop t)).map fun tokens => { w with tokens := tokens }
      else none
  | .childToken t full =>
      (w.tokens.step (.childToken t full)).map fun tokens => { w with tokens := tokens }
  | .cancel t => (w.tokens.step (.cancel t)).map fun tokens => { w with tokens := tokens }
  | .cancelled t =>
      if w.tokens.alive t then some { w with calls := w.calls ++ [.active t none 0] } else none
  | .poll call waker =>
      match w.calls[call]? with
      | some (.active token waiter _) => some (w.poll call token waiter waker)
      | some .returned => some w
      | _ => none
  | .dropCall call =>
      match w.calls[call]? with
      | some (.active token waiter _) =>
          some { w with
            tokens := w.tokens.dropRegistration token waiter
            calls := w.calls.set call .dropped }
      | some .returned => some { w with calls := w.calls.set call .dropped }
      | _ => none

/-- The token of a future that has returned `Pending` at least once and neither
returned nor was dropped, with its tag and its latest waker. -/
def Call.entry : Call → Option (Nat × Nat × Waker)
  | .active token (some waiter) latest => some (token, waiter, latest)
  | _ => none

def World.waiting (w : World) : List (Nat × Nat × Waker) := w.calls.filterMap Call.entry

/-- The part of the waiting futures that are on a token. -/
def onToken (t : Nat) (e : Nat × Nat × Waker) : Option (Nat × Waker) :=
  if e.1 = t then some e.2 else none

/-- The waiting futures on a token, as the list of the token should have them. -/
def World.entries (w : World) (t : Nat) : List (Nat × Waker) := w.waiting.filterMap (onToken t)

/-! ## The invariant -/

/-- How the waker lists and the futures fit together. -/
structure Registered (w : World) : Prop where
  tree : w.tokens.Tree
  listed : ∀ t, (w.tokens.state t).cancelled = false → (w.tokens.state t).wakers ~ w.entries t
  emptied : ∀ t, (w.tokens.state t).cancelled = true → (w.tokens.state t).wakers = []
  issued : ∀ e ∈ w.waiting, e.2.1 < (w.tokens.state e.1).nextWaiter
  unshared : (w.waiting.map fun e => (e.1, e.2.1)).Nodup
  held : ∀ c ∈ w.calls, ∀ t, c.isOn t = true → w.tokens.alive t = true

section Registered

variable {w : World} {σ' : Tokens} {call t i : Nat} {c : Call}

theorem Registered.init : Registered {} where
  tree := .init
  listed := by simp [World.entries, World.waiting]
  emptied := by simp
  issued := by simp [World.waiting]
  unshared := by simp [World.waiting]
  held := by simp

/-- A change of the tokens that leaves the lists of the tokens that are not
cancelled alone. -/
theorem Registered.of_tokens (h : Registered w) (htree : σ'.Tree)
    (hwakers : ∀ t, (σ'.state t).cancelled = false →
      (w.tokens.state t).cancelled = false ∧ (σ'.state t).wakers = (w.tokens.state t).wakers)
    (hemptied : ∀ t, (σ'.state t).cancelled = true → (σ'.state t).wakers = [])
    (hnext : ∀ t, (σ'.state t).nextWaiter = (w.tokens.state t).nextWaiter)
    (halive : ∀ c ∈ w.calls, ∀ t, c.isOn t = true → σ'.alive t = true) :
    Registered { w with tokens := σ' } where
  tree := htree
  listed t ht := by
    obtain ⟨hopen, heq⟩ := hwakers t ht
    exact heq ▸ h.listed t hopen
  emptied := hemptied
  issued e he := by
    rw [hnext]
    exact h.issued e he
  unshared := h.unshared
  held := halive

theorem Registered.grow (h : Registered w) (htree : σ'.Tree)
    (hwakers : (σ'.state w.tokens.count).wakers = [])
    (hnext : (σ'.state w.tokens.count).nextWaiter = 0)
    (hother : ∀ u, u ≠ w.tokens.count →
      (σ'.state u).cancelled = (w.tokens.state u).cancelled ∧
      (σ'.state u).wakers = (w.tokens.state u).wakers ∧
      (σ'.state u).nextWaiter = (w.tokens.state u).nextWaiter ∧
      (σ'.state u).strong = (w.tokens.state u).strong) :
    Registered { w with tokens := σ' } := by
  have hfresh := h.tree.fresh w.tokens.count (Nat.le_refl _)
  refine h.of_tokens htree (fun u hu => ?_) (fun u hu => ?_) (fun u => ?_) fun c hc u hu => ?_
  · by_cases heq : u = w.tokens.count
    · rw [heq, hwakers, hfresh]
      exact ⟨rfl, rfl⟩
    · obtain ⟨hcancelled, hsame, -⟩ := hother u heq
      exact ⟨hcancelled ▸ hu, hsame⟩
  · by_cases heq : u = w.tokens.count
    · rw [heq, hwakers]
    · obtain ⟨hcancelled, hsame, -⟩ := hother u heq
      rw [hsame]
      exact h.emptied u (hcancelled ▸ hu)
  · by_cases heq : u = w.tokens.count
    · rw [heq, hnext, hfresh]
    · exact (hother u heq).2.2.1
  · have halive := h.held c hc u hu
    have hne := Nat.ne_of_lt (h.tree.lt_of_alive halive)
    rw [Tokens.alive, (hother u hne).2.2.2]
    exact halive

theorem Registered.new (h : Registered w) : Registered { w with tokens := w.tokens.new } := by
  refine h.grow h.tree.new (by simp [Tokens.new]) (by simp [Tokens.new]) fun u hu => ?_
  simp [Tokens.new, hu]

theorem Registered.childToken (h : Registered w) (ht : w.tokens.alive t = true) (full : Bool) :
    Registered { w with tokens := w.tokens.childToken t full } := by
  have htree := h.tree.childToken ht full
  by_cases hcancelled : (w.tokens.state t).cancelled = true
  · rw [Tokens.childToken, if_pos hcancelled] at htree ⊢
    refine h.grow htree (by simp) (by simp) fun u hu => ?_
    simp [hu]
  · rw [Tokens.childToken, if_neg hcancelled] at htree ⊢
    refine h.grow htree (by simp) (by simp) fun u hu => ?_
    by_cases hut : u = t
    · subst hut
      simp [hu]
    · simp [hut, hu]

theorem Registered.handles (h : Registered w) (ht : w.tokens.alive t = true) (strong : Nat)
    (hstrong : 0 < strong ∨ ∀ c ∈ w.calls, c.isOn t = false) :
    Registered { w with
      tokens := w.tokens.set t { w.tokens.state t with strong := strong } } := by
  refine h.of_tokens (h.tree.modify ht rfl rfl rfl) (fun u hu => ?_) (fun u hu => ?_)
    (fun u => ?_) fun c hc u hu => ?_
  · by_cases hut : u = t
    · subst hut
      simpa using hu
    · simpa [hut] using hu
  · by_cases hut : u = t
    · subst hut
      simpa using h.emptied u (by simpa using hu)
    · simpa [hut] using h.emptied u (by simpa [hut] using hu)
  · by_cases hut : u = t <;> simp [hut]
  · by_cases hut : u = t
    · subst hut
      rcases hstrong with hpos | hnone
      · simpa [Tokens.alive] using hpos
      · simp [hnone c hc] at hu
    · simpa [Tokens.alive, hut] using h.held c hc u hu

theorem Registered.cancel {woken : List Waker} (h : Registered w) (ht : w.tokens.alive t = true)
    (hcancel : w.tokens.cancel t = some (σ', woken)) : Registered { w with tokens := σ' } := by
  obtain ⟨-, htouched, hother⟩ := Tokens.state_of_collectCancellation hcancel
  have hcases : ∀ u, σ'.state u = (w.tokens.state u).cancel ∨ σ'.state u = w.tokens.state u := by
    intro u
    by_cases hu : w.tokens.Touched (· ∈ [t]) u
    · exact .inl (htouched u hu)
    · exact .inr (hother u hu)
  refine h.of_tokens (h.tree.cancel ht hcancel) (fun u hu => ?_) (fun u hu => ?_) (fun u => ?_)
    fun c hc u hu => ?_
  · rcases hcases u with heq | heq
    · simp [heq] at hu
    · exact heq ▸ ⟨heq ▸ hu, rfl⟩
  · rcases hcases u with heq | heq
    · simp [heq]
    · rw [heq] at hu ⊢
      exact h.emptied u hu
  · rcases hcases u with heq | heq <;> simp [heq]
  · have halive := h.held c hc u hu
    rcases hcases u with heq | heq <;> simpa [Tokens.alive, heq] using halive

/-! ## Polls and drops -/

theorem entries_of_perm {e : Option (Nat × Nat × Waker)} {rest : List (Nat × Nat × Waker)}
    (hperm : w.waiting ~ e.toList ++ rest) (u : Nat) :
    w.entries u ~ (e.bind (onToken u)).toList ++ rest.filterMap (onToken u) := by
  have hmap := hperm.filterMap (onToken u)
  rw [List.filterMap_append] at hmap
  cases e with
  | none => exact hmap
  | some e =>
      cases he : onToken u e with
      | none => simpa [World.entries, he] using hmap
      | some x => simpa [World.entries, he] using hmap

theorem onToken_self (t : Nat) (x : Nat × Waker) : onToken t (t, x) = some x := if_pos rfl

theorem onToken_ne {t u : Nat} (x : Nat × Waker) (h : u ≠ t) : onToken u (t, x) = none :=
  if_neg fun he : t = u => h he.symm

/-- A future exchanges its entry, on the token `t`, for another one. -/
structure Exchange (w w' : World) (t : Nat) (old new : Option (Nat × Waker))
    (rest : List (Nat × Nat × Waker)) : Prop where
  before : w.waiting ~ (old.map (Prod.mk t)).toList ++ rest
  after : w'.waiting ~ (new.map (Prod.mk t)).toList ++ rest
  state : ∀ u, u ≠ t → w'.tokens.state u = w.tokens.state u
  cancelled : (w'.tokens.state t).cancelled = (w.tokens.state t).cancelled

section Exchange

variable {w' : World} {old new : Option (Nat × Waker)} {rest : List (Nat × Nat × Waker)}

theorem Exchange.entries_self (h : Exchange w w' t old new rest) :
    w.entries t ~ old.toList ++ rest.filterMap (onToken t) ∧
      w'.entries t ~ new.toList ++ rest.filterMap (onToken t) := by
  have hbind : ∀ e : Option (Nat × Waker), (e.map (Prod.mk t)).bind (onToken t) = e := by
    intro e
    cases e with
    | none => rfl
    | some x => exact onToken_self t x
  have hbefore := entries_of_perm h.before t
  have hafter := entries_of_perm h.after t
  rw [hbind] at hbefore hafter
  exact ⟨hbefore, hafter⟩

theorem Exchange.entries_ne (h : Exchange w w' t old new rest) {u : Nat} (hu : u ≠ t) :
    w'.entries u ~ w.entries u := by
  have hbind : ∀ e : Option (Nat × Waker), (e.map (Prod.mk t)).bind (onToken u) = none := by
    intro e
    cases e with
    | none => rfl
    | some x => exact onToken_ne x hu
  have hbefore := entries_of_perm h.before u
  have hafter := entries_of_perm h.after u
  rw [hbind] at hbefore hafter
  exact hafter.trans hbefore.symm

/-- What is left to show of an exchange: the list of the token follows it. -/
theorem Registered.exchange (h : Registered w) (old new : Option (Nat × Waker))
    (hx : Exchange w w' t old new rest)
    (htree : w'.tokens.Tree)
    (hlisted : (w.tokens.state t).cancelled = false →
      (w.tokens.state t).wakers ~ old.toList ++ rest.filterMap (onToken t) →
      (w'.tokens.state t).wakers ~ new.toList ++ rest.filterMap (onToken t))
    (hemptied : (w.tokens.state t).cancelled = true → (w'.tokens.state t).wakers = [])
    (hnext : (w.tokens.state t).nextWaiter ≤ (w'.tokens.state t).nextWaiter)
    (hissued : ∀ x, new = some x → x.1 < (w'.tokens.state t).nextWaiter)
    (hunshared : ∀ x, new = some x → ∀ e ∈ rest, e.1 = t → e.2.1 ≠ x.1)
    (hheld : ∀ c ∈ w'.calls, ∀ u, c.isOn u = true → w'.tokens.alive u = true) :
    Registered w' where
  tree := htree
  listed u hu := by
    by_cases heq : u = t
    · subst heq
      rw [hx.cancelled] at hu
      obtain ⟨hbefore, hafter⟩ := hx.entries_self
      exact (hlisted hu ((h.listed u hu).trans hbefore)).trans hafter.symm
    · rw [hx.state u heq] at hu ⊢
      exact (h.listed u hu).trans (hx.entries_ne heq).symm
  emptied u hu := by
    by_cases heq : u = t
    · subst heq
      exact hemptied (hx.cancelled ▸ hu)
    · rw [hx.state u heq] at hu ⊢
      exact h.emptied u hu
  issued e he := by
    rcases List.mem_append.mp (hx.after.mem_iff.mp he) with he | he
    · obtain ⟨x, hnew, rfl⟩ := Option.map_eq_some_iff.mp (Option.mem_toList.mp he)
      exact hissued x hnew
    · have hlt := h.issued e (hx.before.mem_iff.mpr (List.mem_append_right _ he))
      by_cases heq : e.1 = t
      · rw [heq] at hlt ⊢
        omega
      · rw [hx.state _ heq]
        exact hlt
  unshared := by
    have hrest : (rest.map fun e => (e.1, e.2.1)).Nodup := by
      have hnodup := (hx.before.map fun e => (e.1, e.2.1)).nodup_iff.mp h.unshared
      rw [List.map_append] at hnodup
      exact (List.nodup_append.mp hnodup).2.1
    refine (hx.after.map fun e => (e.1, e.2.1)).nodup_iff.mpr ?_
    cases hnew : new with
    | none => exact hrest
    | some x =>
        refine List.nodup_cons.mpr ⟨fun hmem => ?_, hrest⟩
        obtain ⟨e, he, heq⟩ := List.mem_map.mp hmem
        exact hunshared x hnew e he (Prod.mk.inj heq).1 (Prod.mk.inj heq).2
  held := hheld

end Exchange

/-- The list of a token has one entry with the tag of a waiting future, and it
is the entry of that future. -/
theorem Registered.exists_index {latest : Waker} (h : Registered w)
    (hopen : (w.tokens.state t).cancelled = false) (hentry : (t, i, latest) ∈ w.waiting) :
    ∃ index, (w.tokens.state t).wakers.findIdx? (·.1 = i) = some index ∧
      (w.tokens.state t).wakers.findIdx (·.1 = i) = index ∧
      (w.tokens.state t).wakers[index]? = some (i, latest) := by
  have hmem : (i, latest) ∈ (w.tokens.state t).wakers :=
    (h.listed t hopen).mem_iff.mpr (List.mem_filterMap.mpr ⟨_, hentry, onToken_self t _⟩)
  cases hfind : (w.tokens.state t).wakers.findIdx? (·.1 = i) with
  | none =>
      rw [List.findIdx?_eq_none_iff] at hfind
      exact absurd (hfind _ hmem) (by simp)
  | some index =>
      obtain ⟨hlt, hkey, -⟩ := List.findIdx?_eq_some_iff_getElem.mp hfind
      refine ⟨index, rfl, (List.findIdx?_eq_some_iff_findIdx_eq.mp hfind).2, ?_⟩
      have hget := List.getElem?_eq_getElem hlt
      obtain ⟨e, he, hon⟩ :=
        List.mem_filterMap.mp ((h.listed t hopen).mem_iff.mp (List.getElem_mem hlt))
      obtain ⟨htoken, hsnd⟩ : e.1 = t ∧ e.2 = (w.tokens.state t).wakers[index] := by
        simpa [onToken] using hon
      -- Tags are not shared, so this entry is that of the future.
      have heq : e = (t, i, latest) := by
        refine List.inj_on_of_nodup_map h.unshared he hentry ?_
        rw [htoken, hsnd, of_decide_eq_true hkey]
      rw [hget, ← hsnd, heq]

/-- Dropping a registration takes its entry out of the list. -/
theorem Registered.dropRegistration_some {latest : Waker} {others : List (Nat × Waker)}
    (h : Registered w) (hopen : (w.tokens.state t).cancelled = false)
    (hentry : (t, i, latest) ∈ w.waiting)
    (hperm : (w.tokens.state t).wakers ~ (i, latest) :: others) :
    ∃ wakers, w.tokens.dropRegistration t (some i) =
      w.tokens.set t { w.tokens.state t with wakers := wakers } ∧ wakers ~ others := by
  obtain ⟨index, hfind, -, hget⟩ := h.exists_index hopen hentry
  refine ⟨Tokens.swapRemove (w.tokens.state t).wakers index, ?_, ?_⟩
  · simp only [Tokens.dropRegistration, hfind]
  · have hswap : Tokens.swapRemove (w.tokens.state t).wakers index =
        SwapRemove.swapRemove (w.tokens.state t).wakers index := by
      rw [Tokens.swapRemove, SwapRemove.swapRemove]
      cases hlast : (w.tokens.state t).wakers.getLast? with
      | some last => rfl
      | none => exact List.getLast?_eq_none_iff.mp hlast
    rw [hswap]
    exact ((SwapRemove.swapRemove_perm hget).trans hperm).cons_inv

theorem Registered.modify_wakers {latest : Waker} {others : List (Nat × Waker)}
    (h : Registered w) (hopen : (w.tokens.state t).cancelled = false)
    (hentry : (t, i, latest) ∈ w.waiting) (waker : Waker)
    (hperm : (w.tokens.state t).wakers ~ (i, latest) :: others) :
    ((w.tokens.state t).wakers.modify ((w.tokens.state t).wakers.findIdx (·.1 = i))
      fun (slot, _) => (slot, waker)) ~ (i, waker) :: others := by
  obtain ⟨index, -, hindex, hget⟩ := h.exists_index hopen hentry
  obtain ⟨hlt, hx⟩ := List.getElem?_eq_some_iff.mp hget
  have hset : ((w.tokens.state t).wakers.modify index fun (slot, _) => (slot, waker)) =
      (w.tokens.state t).wakers.set index (i, waker) := by
    rw [List.modify_eq_set_getElem?, hget]
    rfl
  have herase : (w.tokens.state t).wakers.eraseIdx index ~ others := by
    refine List.Perm.cons_inv (a := (i, latest)) ?_
    rw [← hx]
    exact (List.getElem_cons_eraseIdx_perm hlt).trans (hx ▸ hperm)
  rw [hindex, hset]
  exact (List.set_perm_cons_eraseIdx hlt _).trans (herase.cons _)

theorem held_set {c' : Call} {σ' : Tokens} (h : Registered w) (hcall : w.calls[call]? = some c)
    (hon : ∀ u, c'.isOn u = true → c.isOn u = true)
    (halive : ∀ u, σ'.alive u = w.tokens.alive u) :
    ∀ d ∈ w.calls.set call c', ∀ u, d.isOn u = true → σ'.alive u = true := by
  intro d hd u hu
  rw [halive]
  rcases List.mem_or_eq_of_mem_set hd with hd | rfl
  · exact h.held d hd u hu
  · exact h.held c (List.mem_of_getElem? hcall) u (hon u hu)

theorem entry_active (t : Nat) (waiter : Option Nat) (latest : Waker) :
    (Call.active t waiter latest).entry = (waiter.map fun i => (i, latest)).map (Prod.mk t) := by
  cases waiter <;> rfl

theorem alive_set_wakers (σ : Tokens) (t : Nat) {s : TokenState}
    (hs : s.strong = (σ.state t).strong) (u : Nat) : (σ.set t s).alive u = σ.alive u := by
  by_cases hu : u = t
  · subst hu
    simp [Tokens.alive, hs]
  · simp [Tokens.alive, hu]

/-- A future gives up its registration, when it is dropped or returns. -/
theorem Registered.leave {waiter : Option Nat} {latest : Waker} {c' : Call} (h : Registered w)
    (hcall : w.calls[call]? = some (.active t waiter latest)) (hentry : c'.entry = none)
    (hon : ∀ u, c'.isOn u = false) :
    Registered { w with
      tokens := w.tokens.dropRegistration t waiter
      calls := w.calls.set call c' } := by
  have halive : w.tokens.alive t = true :=
    h.held _ (List.mem_of_getElem? hcall) t (by simp [Call.isOn])
  obtain ⟨rest, hbefore, hafter⟩ := Table.exists_filterMap_set Call.entry hcall c'
  rw [entry_active] at hbefore
  rw [hentry] at hafter
  have htree := h.tree.dropRegistration halive waiter
  have hon' : ∀ u, c'.isOn u = true → (Call.active t waiter latest).isOn u = true := by simp [hon]
  cases waiter with
  | none =>
      have hx : Exchange w { w with calls := w.calls.set call c' } t none none rest :=
        ⟨hbefore, hafter, fun _ _ => rfl, rfl⟩
      exact h.exchange _ _ hx h.tree (fun _ hperm => hperm) (h.emptied t) (Nat.le_refl _) (by simp)
        (by simp) (held_set h hcall hon' fun _ => rfl)
  | some i =>
      have hmem : (t, i, latest) ∈ w.waiting := hbefore.mem_iff.mpr (by simp)
      cases hcancelled : (w.tokens.state t).cancelled with
      | true =>
          -- The list was taken by the cancellation.
          have hdrop : w.tokens.dropRegistration t (some i) = w.tokens := by
            simp [Tokens.dropRegistration, h.emptied t hcancelled]
          rw [hdrop]
          have hx : Exchange w { w with calls := w.calls.set call c' } t (some (i, latest)) none
              rest := ⟨hbefore, hafter, fun _ _ => rfl, rfl⟩
          exact h.exchange _ _ hx h.tree (by simp [hcancelled]) (h.emptied t) (Nat.le_refl _) (by simp)
            (by simp) (held_set h hcall hon' fun _ => rfl)
      | false =>
          have hlisted : (w.tokens.state t).wakers ~
              (i, latest) :: rest.filterMap (onToken t) := by
            refine (h.listed t hcancelled).trans ?_
            simpa [onToken_self] using entries_of_perm hbefore t
          obtain ⟨wakers, hdrop, hperm⟩ := h.dropRegistration_some hcancelled hmem hlisted
          rw [hdrop] at htree ⊢
          have hx : Exchange w
              { w with
                tokens := w.tokens.set t { w.tokens.state t with wakers := wakers }
                calls := w.calls.set call c' } t (some (i, latest)) none rest :=
            ⟨hbefore, hafter, fun u hu => by simp [hu], by simp⟩
          exact h.exchange _ _ hx htree (fun _ _ => by simpa using hperm) (by simp [hcancelled])
            (by simp) (by simp) (by simp) (held_set h hcall hon' (alive_set_wakers _ _ rfl))

theorem Registered.poll {waiter : Option Nat} {latest : Waker} (h : Registered w)
    (hcall : w.calls[call]? = some (.active t waiter latest)) (waker : Waker) :
    Registered (w.poll call t waiter waker) := by
  have halive : w.tokens.alive t = true :=
    h.held _ (List.mem_of_getElem? hcall) t (by simp [Call.isOn])
  cases hcancelled : (w.tokens.state t).cancelled with
  | true =>
      simp only [World.poll, Tokens.pollCancelled, hcancelled, if_true]
      exact h.leave hcall rfl fun _ => rfl
  | false =>
      have htree := h.tree.pollCancelled halive waiter waker
      cases waiter with
      | none =>
          simp only [World.poll, Tokens.pollCancelled, hcancelled, Bool.false_eq_true,
            if_false] at htree ⊢
          obtain ⟨rest, hbefore, hafter⟩ := Table.exists_filterMap_set Call.entry hcall
            (.active t (some (w.tokens.state t).nextWaiter) waker)
          refine h.exchange none (some ((w.tokens.state t).nextWaiter, waker))
            ⟨hbefore, hafter, fun u hu => by simp [hu], by simp [hcancelled]⟩ htree
            (fun _ hperm => ?_) (by simp [hcancelled]) (by simp) (by simp) ?_ ?_
          · simpa using (hperm.append_right _).trans (List.perm_append_singleton _ _)
          · rintro x ⟨⟩ e he htoken heq
            have hlt := h.issued e (hbefore.mem_iff.mpr (List.mem_append_right _ he))
            rw [htoken, heq] at hlt
            exact Nat.lt_irrefl _ hlt
          · exact held_set h hcall (fun _ hu => hu) (alive_set_wakers _ _ rfl)
      | some i =>
          simp only [World.poll, Tokens.pollCancelled, hcancelled, Bool.false_eq_true,
            if_false] at htree ⊢
          obtain ⟨rest, hbefore, hafter⟩ := Table.exists_filterMap_set Call.entry hcall
            (.active t (some i) waker)
          have hmem : (t, i, latest) ∈ w.waiting := hbefore.mem_iff.mpr (by simp [Call.entry])
          refine h.exchange (some (i, latest)) (some (i, waker))
            ⟨hbefore, hafter, fun u hu => by simp [hu], by simp [hcancelled]⟩ htree
            (fun hopen hperm => ?_) (by simp [hcancelled]) (by simp) ?_ ?_ ?_
          · simpa using h.modify_wakers hopen hmem waker hperm
          · rintro x ⟨⟩
            simpa using h.issued _ hmem
          · rintro x ⟨⟩ e he htoken heq
            have hnodup := (hbefore.map fun e => (e.1, e.2.1)).nodup_iff.mp h.unshared
            rw [List.map_append] at hnodup
            refine (List.nodup_append.mp hnodup).2.2 (t, i) (by simp [Call.entry]) _
              (List.mem_map_of_mem he) ?_
            rw [← htoken]
            exact congrArg (Prod.mk e.1) heq.symm
          · exact held_set h hcall (fun _ hu => hu) (alive_set_wakers _ _ rfl)

theorem Registered.cancelled (h : Registered w) (ht : w.tokens.alive t = true) :
    Registered { w with calls := w.calls ++ [.active t none 0] } := by
  have hwaiting : (w.calls ++ [Call.active t none 0]).filterMap Call.entry = w.waiting := by
    simp [World.waiting, Call.entry]
  refine ⟨h.tree, fun u hu => ?_, h.emptied, ?_, ?_, fun c hc u hu => ?_⟩
  · rw [World.entries, World.waiting, hwaiting]
    exact h.listed u hu
  · rw [World.waiting, hwaiting]
    exact h.issued
  · rw [World.waiting, hwaiting]
    exact h.unshared
  · rcases List.mem_append.mp hc with hc | hc
    · exact h.held c hc u hu
    · obtain rfl := List.mem_singleton.mp hc
      obtain rfl : t = u := by simpa [Call.isOn] using hu
      exact ht

theorem Registered.step {w' : World} {op : Op} (h : Registered w) (hs : step w op = some w') :
    Registered w' := by
  cases op with
  | new =>
      obtain rfl := Option.some.inj hs
      exact h.new
  | clone t =>
      obtain ⟨σ', hσ, rfl⟩ := Option.map_eq_some_iff.mp hs
      obtain ⟨ht, hσ⟩ := Option.ite_none_right_eq_some.mp hσ
      obtain rfl := Option.some.inj hσ
      exact h.handles ht _ (.inl (Nat.succ_pos _))
  | drop t =>
      obtain ⟨hmay, hs⟩ := Option.ite_none_right_eq_some.mp hs
      obtain ⟨σ', hσ, rfl⟩ := Option.map_eq_some_iff.mp hs
      obtain ⟨ht, hσ⟩ := Option.ite_none_right_eq_some.mp hσ
      obtain rfl := Option.some.inj hσ
      refine h.handles ht _ ?_
      rw [World.mayDrop, Bool.or_eq_true, decide_eq_true_eq] at hmay
      refine hmay.imp (fun hlt => by omega) fun hnone c hc => ?_
      have hany : w.calls.any (Call.isOn t) = false := by simpa using hnone
      simpa using List.any_eq_false.mp hany c hc
  | childToken t full =>
      obtain ⟨σ', hσ, rfl⟩ := Option.map_eq_some_iff.mp hs
      obtain ⟨ht, hσ⟩ := Option.ite_none_right_eq_some.mp hσ
      obtain rfl := Option.some.inj hσ
      exact h.childToken ht full
  | cancel t =>
      obtain ⟨σ', hσ, rfl⟩ := Option.map_eq_some_iff.mp hs
      obtain ⟨ht, hσ⟩ := Option.ite_none_right_eq_some.mp hσ
      obtain ⟨⟨σ', woken⟩, hcancel, rfl⟩ := Option.map_eq_some_iff.mp hσ
      exact h.cancel ht hcancel
  | cancelled t =>
      obtain ⟨ht, hs⟩ := Option.ite_none_right_eq_some.mp hs
      obtain rfl := Option.some.inj hs
      exact h.cancelled ht
  | poll call waker =>
      simp only [Cancelled.step] at hs
      split at hs
      next token waiter latest hcall =>
        obtain rfl := Option.some.inj hs
        exact h.poll hcall waker
      next =>
        obtain rfl := Option.some.inj hs
        exact h
      next => cases hs
  | dropCall call =>
      simp only [Cancelled.step] at hs
      split at hs
      next token waiter latest hcall =>
        obtain rfl := Option.some.inj hs
        exact h.leave hcall rfl fun _ => rfl
      next hcall =>
        obtain rfl := Option.some.inj hs
        obtain ⟨rest, hbefore, hafter⟩ := Table.exists_filterMap_set Call.entry hcall .dropped
        have hx : Exchange w { w with calls := w.calls.set call .dropped } 0 none none rest :=
          ⟨hbefore, hafter, fun _ _ => rfl, rfl⟩
        exact h.exchange _ _ hx h.tree (fun _ hperm => hperm) (h.emptied 0) (Nat.le_refl _)
          (by simp) (by simp) (held_set h hcall (by simp [Call.isOn]) fun _ => rfl)
      next => cases hs

end Registered

/-! ## What a cancellation wakes -/

section Woken

variable {w : World} {σ' : Tokens} {t : Nat} {woken : List Waker}

/-- The wakers that a cancellation wakes are those of the waiting futures on
the tokens that it cancels. -/
theorem Registered.woken_perm (h : Registered w) (hcancel : w.tokens.cancel t = some (σ', woken)) :
    woken ~ (w.waiting.filter fun e =>
      !(w.tokens.state e.1).cancelled && (σ'.state e.1).cancelled).map fun e => e.2.2 := by
  obtain ⟨visited, hnodup, hmem, rfl⟩ := Tokens.visited_of_collectCancellation hcancel
  have hentries : ∀ u, (w.entries u).map Prod.snd =
      (w.waiting.filter fun e => e.1 = u).map fun e => e.2.2 := by
    intro u
    rw [World.entries]
    induction w.waiting with
    | nil => rfl
    | cons e es ih => by_cases he : e.1 = u <;> simp [onToken, he, ih]
  have hfilter : (w.waiting.filter fun e => e.1 ∈ visited) = w.waiting.filter fun e =>
      !(w.tokens.state e.1).cancelled && (σ'.state e.1).cancelled :=
    List.filter_congr fun e _ => by simp [hmem]
  calc visited.flatMap (fun u => (w.tokens.state u).wakers.map Prod.snd)
      ~ visited.flatMap fun u => (w.waiting.filter fun e => e.1 = u).map fun e => e.2.2 := by
        refine List.Perm.flatMap_left _ fun u hu => ?_
        rw [← hentries]
        exact (h.listed u ((hmem u).mp hu).1).map _
    _ = (visited.flatMap fun u => w.waiting.filter fun e => e.1 = u).map fun e => e.2.2 := by
        rw [List.map_flatMap]
    _ ~ _ := by
        rw [← hfilter]
        exact (Counting.flatMap_filter_key_perm Prod.fst w.waiting hnodup).map _

theorem cancelled_dropRegistration (σ : Tokens) (t : Nat) (waiter : Option Nat) (u : Nat) :
    ((σ.dropRegistration t waiter).state u).cancelled = (σ.state u).cancelled := by
  unfold Tokens.dropRegistration
  split
  next => rfl
  next =>
    dsimp only
    split
    next =>
      by_cases hu : u = t
      · subst hu
        simp
      · simp [hu]
    next => rfl

/-- What a drop does, besides giving up the registration. -/
theorem step_dropCall {w' : World} {call : Nat} (hs : step w (.dropCall call) = some w') :
    w'.calls = w.calls.set call .dropped ∧
      ∀ u, (w'.tokens.state u).cancelled = (w.tokens.state u).cancelled := by
  simp only [step] at hs
  split at hs
  next =>
    obtain rfl := Option.some.inj hs
    exact ⟨rfl, cancelled_dropRegistration _ _ _⟩
  next =>
    obtain rfl := Option.some.inj hs
    exact ⟨rfl, fun _ => rfl⟩
  next => cases hs

theorem eq_active_of_entry {c : Call} {u : Nat} {e : Nat × Waker} (h : c.entry = some (u, e)) :
    c = .active u (some e.1) e.2 := by
  cases c with
  | active token waiter latest =>
      cases waiter with
      | none => cases h
      | some i =>
          cases h
          rfl
  | returned => cases h
  | dropped => cases h

/-- Dropping a future takes its own entry out of the list of its token, and
leaves every other entry of every token. -/
theorem Registered.drop_keeps {w' : World} {call u : Nat} {e : Nat × Waker} (h : Registered w)
    (hs : Cancelled.step w (.dropCall call) = some w') (he : e ∈ (w.tokens.state u).wakers)
    (hother : w.calls[call]? ≠ some (.active u (some e.1) e.2)) :
    e ∈ (w'.tokens.state u).wakers := by
  obtain ⟨hcalls, hsame⟩ := step_dropCall hs
  have hopen : (w.tokens.state u).cancelled = false := by
    by_contra hcancelled
    rw [h.emptied u (by simpa using hcancelled)] at he
    cases he
  obtain ⟨x, hx, hon⟩ := List.mem_filterMap.mp ((h.listed u hopen).mem_iff.mp he)
  obtain ⟨c, hc, hentry⟩ := List.mem_filterMap.mp hx
  obtain ⟨k, hk⟩ := List.mem_iff_getElem?.mp hc
  obtain ⟨htoken, hsnd⟩ : x.1 = u ∧ x.2 = e := by simpa [onToken] using hon
  have hactive : c = .active u (some e.1) e.2 :=
    eq_active_of_entry (by rw [hentry, ← htoken, ← hsnd])
  -- The future of the entry is another one, which is still there.
  have hne : call ≠ k := fun heq => hother (heq ▸ hactive ▸ hk)
  have hkept : c ∈ w'.calls := by
    rw [hcalls]
    exact List.mem_of_getElem? ((List.getElem?_set_ne hne).trans hk)
  refine (((h.step hs).listed u (hsame u ▸ hopen)).mem_iff).mpr ?_
  exact List.mem_filterMap.mpr ⟨x, List.mem_filterMap.mpr ⟨c, hkept, hentry⟩, hon⟩

end Woken

/-- Every program that waits for cancellations: the waker list of a token that
is not cancelled has exactly the futures on it that last returned `Pending`,
each with the waker of that poll; a cancellation returns, cancels what is linked
to the token, wakes exactly the futures that wait there, each once, and leaves
their lists empty; and a future that is dropped takes no other entry with it. -/
theorem futures_of_reachable {w : World} (hreach : Reachable step (fun _ _ => True) {} w) :
    (∀ t, (w.tokens.state t).cancelled = false →
      (w.tokens.state t).wakers ~ w.entries t) ∧
    (∀ t, w.tokens.alive t = true → ∃ σ' woken, w.tokens.cancel t = some (σ', woken) ∧
      (∀ u, (w.tokens.state u).cancelled = false →
        ((σ'.state u).cancelled = true ↔ w.tokens.Linked t u)) ∧
      woken ~ (w.waiting.filter fun e =>
        !(w.tokens.state e.1).cancelled && (σ'.state e.1).cancelled).map (fun e => e.2.2) ∧
      ∀ u, (σ'.state u).cancelled = true → (σ'.state u).wakers = []) ∧
    (∀ call w', step w (.dropCall call) = some w' → ∀ u, ∀ e ∈ (w.tokens.state u).wakers,
      w.calls[call]? ≠ some (.active u (some e.1) e.2) → e ∈ (w'.tokens.state u).wakers) := by
  have h : Registered w :=
    hreach.invariant Registered Registered.init fun _ _ _ h _ hs => h.step hs
  refine ⟨h.listed, fun t ht => ?_, fun call w' hs u e he hother => h.drop_keeps hs he hother⟩
  obtain ⟨σ', woken, hcancel⟩ := Tokens.exists_cancel h.tree.bounded t
  obtain ⟨-, htouched, hother⟩ := Tokens.state_of_collectCancellation hcancel
  refine ⟨σ', woken, hcancel, fun u hu => ?_, h.woken_perm hcancel,
    (h.cancel ht hcancel).emptied⟩
  have hiff : w.tokens.Linked t u ↔ w.tokens.Touched (· ∈ [t]) u := by
    rw [h.tree.touched_iff, and_iff_right hu]
  rw [hiff]
  constructor
  · intro hcancelled
    by_contra hnot
    rw [hother u hnot, hu] at hcancelled
    cases hcancelled
  · intro htouch
    rw [htouched u htouch]
    rfl

/-- Two futures wait on a child and the first one is dropped; the cancellation
of the parent wakes the second one. -/
theorem waiters_after_dropped :
    ∃ w σ' woken, Reachable step (fun _ _ => True) {} w ∧
      w.tokens.cancel 0 = some (σ', woken) ∧ woken = [9] ∧
      (w.tokens.state 1).wakers ~ [(1, 9)] := by
  obtain ⟨w, hreach, hw⟩ := Reachable.exists_of_run step (fun _ _ => True) {}
    [.new, .childToken 0 false, .cancelled 1, .cancelled 1, .poll 0 7, .poll 1 8, .poll 1 9,
      .dropCall 0]
    (fun w => w.waiting == [(1, 1, 9)] && w.tokens.alive 0 &&
      !(w.tokens.state 1).cancelled &&
      (w.tokens.cancel 0).map (fun r => (r.1.state 1).cancelled) == some true)
    (by simp) (by decide)
  simp only [Bool.and_eq_true, beq_iff_eq, Bool.not_eq_true'] at hw
  obtain ⟨⟨⟨hwaiting, halive⟩, hopen⟩, hreached⟩ := hw
  obtain ⟨hlisted, hcancels, -⟩ := futures_of_reachable hreach
  obtain ⟨σ', woken, hcancel, -, hwoken, -⟩ := hcancels 0 halive
  rw [hcancel] at hreached
  have hcancelled : (σ'.state 1).cancelled = true := by simpa using hreached
  refine ⟨w, σ', woken, hreach, hcancel, ?_, ?_⟩
  · rw [hwaiting] at hwoken
    simpa [hopen, hcancelled] using hwoken
  · have hentries := hlisted 1 hopen
    rw [World.entries, hwaiting] at hentries
    exact hentries

end Cancelled

end Runite.Sync
