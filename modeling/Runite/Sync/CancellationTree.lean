import Runite.Sync.Cancellation
import Runite.Lib.Marking

/-!
# What a cancellation reaches

`cancel` walks the weak references from a token down.  `Tree` ties these
references to the derivation of the tokens: a token that is alive is listed by
the token it was derived from, until that one is cancelled.  The walk goes
through tokens that are alive, so it reaches a derived token exactly when
everything between the two is.
-/

namespace Runite.Sync.Tokens

open Transition Marking

variable {σ σ' : Tokens} {t u v fuel : Nat} {pending : List Nat} {wakers wakers' : List Waker}

/-! ## The walk -/

/-- A weak reference that can be upgraded. -/
def Next (σ : Tokens) (v u : Nat) : Prop := u ∈ (σ.state v).children ∧ σ.alive u = true

/-- What the walk cancels, when it begins with these states. -/
def Touched (σ : Tokens) (start : Nat → Prop) : Nat → Prop :=
  Reached σ.Next (fun u => (σ.state u).cancelled = false) start

theorem alive_set_cancel : (σ.set t (σ.state t).cancel).alive u = σ.alive u := by
  by_cases hu : u = t <;> simp [alive, hu]

theorem touched_skip (ht : (σ.state t).cancelled = true) :
    σ.Touched (· ∈ t :: pending) u ↔ σ.Touched (· ∈ pending) u := by
  have hstart : (fun a => a ∈ t :: pending) = fun a => a = t ∨ a ∈ pending := by
    funext a
    simp
  unfold Touched
  rw [hstart]
  exact reached_skip (by simp [ht])

theorem touched_mark (ht : (σ.state t).cancelled = false) :
    σ.Touched (· ∈ t :: pending) u ↔ u = t ∨
      (σ.set t (σ.state t).cancel).Touched
        (· ∈ ((σ.state t).children.filter σ.alive).reverse ++ pending) u := by
  have hstart : (fun a => a ∈ t :: pending) = fun a => a = t ∨ a ∈ pending := by
    funext a
    simp
  have hrest : (fun a => a ∈ ((σ.state t).children.filter σ.alive).reverse ++ pending) =
      fun a => σ.Next t a ∨ a ∈ pending := by
    funext a
    simp [Next]
  unfold Touched
  rw [hstart, hrest]
  refine reached_mark ht ?_ ?_
  · intro a
    by_cases ha : a = t <;> simp [ha]
  · intro a b ha
    unfold Next
    rw [alive_set_cancel]
    simp [ha]

/-- The walk cancels what it touches and nothing else. -/
theorem state_of_collectCancellation
    (h : collectCancellation fuel σ pending wakers = some (σ', wakers')) :
    σ'.count = σ.count ∧
      (∀ u, σ.Touched (· ∈ pending) u → σ'.state u = (σ.state u).cancel) ∧
      ∀ u, ¬ σ.Touched (· ∈ pending) u → σ'.state u = σ.state u := by
  have hnil : ∀ σ : Tokens, ∀ u, ¬ σ.Touched (· ∈ []) u :=
    fun σ u => not_reached_of_empty (by simp)
  induction fuel generalizing σ pending wakers with
  | zero =>
      cases pending with
      | nil =>
          cases h
          exact ⟨rfl, fun u hu => absurd hu (hnil _ u), fun u _ => rfl⟩
      | cons t pending => cases h
  | succ fuel ih =>
      cases pending with
      | nil =>
          cases h
          exact ⟨rfl, fun u hu => absurd hu (hnil _ u), fun u _ => rfl⟩
      | cons t pending =>
          simp only [collectCancellation] at h
          split at h
          next ht =>
            obtain ⟨hcount, htouched, hother⟩ := ih h
            refine ⟨hcount, fun u hu => htouched u ((touched_skip ht).mp hu), fun u hu => ?_⟩
            exact hother u fun hu' => hu ((touched_skip ht).mpr hu')
          next ht =>
            replace ht : (σ.state t).cancelled = false := by simpa using ht
            obtain ⟨hcount, htouched, hother⟩ := ih h
            refine ⟨hcount, fun u hu => ?_, fun u hu => ?_⟩
            · by_cases heq : u = t
              · -- `t` is cancelled now, and the rest of the walk leaves it alone
                subst heq
                rw [hother u fun hu' => by simpa using hu'.isOpen]
                simp
              · rw [htouched u (((touched_mark ht).mp hu).resolve_left heq)]
                simp [heq]
            · have hu' := mt (touched_mark ht).mpr hu
              rw [not_or] at hu'
              rw [hother u hu'.2]
              simp [hu'.1]

/-! ## The walk ends -/

theorem sum_map_range_update {f g : Nat → Nat} {n x : Nat} (hx : x < n)
    (h : ∀ i, i ≠ x → g i = f i) :
    ((List.range n).map g).sum + f x = ((List.range n).map f).sum + g x := by
  induction n with
  | zero => omega
  | succ n ih =>
      simp only [List.range_succ, List.map_append, List.sum_append, List.map_cons, List.map_nil,
        List.sum_singleton]
      by_cases hn : x = n
      · subst hn
        have hsame : (List.range x).map g = (List.range x).map f := by
          refine List.map_congr_left fun i hi => h i ?_
          exact Nat.ne_of_lt (List.mem_range.mp hi)
        rw [hsame]
        omega
      · have hrest := ih (by omega)
        have hlast := h n (Ne.symm hn)
        omega

/-- Only states that were allocated have children. -/
def Bounded (σ : Tokens) : Prop := ∀ t, σ.count ≤ t → (σ.state t).children = []

theorem slots_set_cancel (hbounded : σ.Bounded) :
    (σ.set t (σ.state t).cancel).slots + (σ.state t).children.length = σ.slots := by
  by_cases ht : t < σ.count
  · have hsum := sum_map_range_update (f := fun i => (σ.state i).children.length)
      (g := fun i => ((σ.set t (σ.state t).cancel).state i).children.length) ht
      (fun i hi => by simp [hi])
    simpa [slots] using hsum
  · have hnil := hbounded t (Nat.le_of_not_lt ht)
    have hstate : (fun i => ((σ.set t (σ.state t).cancel).state i).children.length) =
        fun i => (σ.state i).children.length := by
      funext i
      by_cases hi : i = t <;> simp [hi, hnil]
    unfold slots
    rw [hstate, hnil]
    rfl

theorem exists_collectCancellation (hbounded : σ.Bounded)
    (hfuel : pending.length + σ.slots ≤ fuel) :
    ∃ σ' wakers', collectCancellation fuel σ pending wakers = some (σ', wakers') := by
  induction fuel generalizing σ pending wakers with
  | zero =>
      obtain rfl : pending = [] := List.eq_nil_of_length_eq_zero (by omega)
      exact ⟨σ, wakers, rfl⟩
  | succ fuel ih =>
      cases pending with
      | nil => exact ⟨σ, wakers, rfl⟩
      | cons t pending =>
          rw [List.length_cons] at hfuel
          simp only [collectCancellation]
          split
          next => exact ih hbounded (by omega)
          next =>
            have hslots := slots_set_cancel (t := t) hbounded
            have hlength : ((σ.state t).children.filter σ.alive).length ≤
                (σ.state t).children.length := List.length_filter_le _ _
            refine ih ?_ ?_
            · intro u hu
              by_cases heq : u = t
              · simp [heq]
              · simpa [heq] using hbounded u hu
            · rw [List.length_append, List.length_reverse]
              omega

theorem exists_cancel (hbounded : σ.Bounded) (t : Nat) :
    ∃ σ' woken, σ.cancel t = some (σ', woken) :=
  exists_collectCancellation hbounded (by simp [Nat.add_comm])

/-! ## The tree -/

/-- The references and the derivation of the tokens. -/
structure Tree (σ : Tokens) : Prop where
  fresh : ∀ t, σ.count ≤ t → σ.state t = {}
  parent_lt : ∀ u v, (σ.state u).parent = some v → v < σ.count
  child_parent : ∀ u v, u ∈ (σ.state v).children → (σ.state u).parent = some v
  /-- a token that is alive is listed by the one it was derived from -/
  child_listed : ∀ u v, (σ.state u).parent = some v → σ.alive u = true →
    (σ.state v).cancelled = false → u ∈ (σ.state v).children
  /-- and is cancelled if that one is -/
  child_cancelled : ∀ u v, (σ.state u).parent = some v → σ.alive u = true →
    (σ.state v).cancelled = true → (σ.state u).cancelled = true

/-- `u` was derived from `t` by any number of `child_token` calls. -/
inductive Derived (σ : Tokens) (t : Nat) : Nat → Prop
  | self : Derived σ t t
  | child {u v : Nat} : Derived σ t v → (σ.state u).parent = some v → Derived σ t u

/-- `u` was derived from `t`, and every token in between is alive. -/
inductive Linked (σ : Tokens) (t : Nat) : Nat → Prop
  | self : Linked σ t t
  | child {u v : Nat} : Linked σ t v → (σ.state u).parent = some v → σ.alive u = true →
      Linked σ t u

theorem Linked.derived (h : σ.Linked t u) : σ.Derived t u := by
  induction h with
  | self => exact .self
  | child _ hparent _ ih => exact .child ih hparent

theorem Linked.alive (h : σ.Linked t u) (ht : σ.alive t = true) : σ.alive u = true := by
  cases h with
  | self => exact ht
  | child _ _ hu => exact hu

namespace Tree

theorem bounded (h : σ.Tree) : σ.Bounded := by
  intro t ht
  rw [h.fresh t ht]

/-- The walk goes where everything in between is alive. -/
theorem touched_iff (h : σ.Tree) :
    σ.Touched (· ∈ [t]) u ↔ (σ.state u).cancelled = false ∧ σ.Linked t u := by
  constructor
  · intro htouched
    refine ⟨htouched.isOpen, ?_⟩
    induction htouched with
    | start hstart =>
        obtain rfl := List.mem_singleton.mp hstart
        exact .self
    | next _ hnext _ ih => exact .child ih (h.child_parent _ _ hnext.1) hnext.2
  · rintro ⟨hopen, hlinked⟩
    induction hlinked with
    | self => exact .start (List.mem_singleton_self t) hopen
    | @child u v _ hparent halive ih =>
        have hv : (σ.state v).cancelled = false := by
          cases hv : (σ.state v).cancelled with
          | false => rfl
          | true => simp [h.child_cancelled u v hparent halive hv] at hopen
        exact .next (ih hv) ⟨h.child_listed u v hparent halive hv, halive⟩ hopen

theorem init : ({} : Tokens).Tree := by
  constructor <;> simp

/-- Only the derivation, the flags, the children and who is alive matter. -/
theorem congr (h : σ.Tree) (hcount : σ'.count = σ.count)
    (hparent : ∀ u, (σ'.state u).parent = (σ.state u).parent)
    (hcancelled : ∀ u, (σ'.state u).cancelled = (σ.state u).cancelled)
    (hchildren : ∀ u, (σ'.state u).children = (σ.state u).children)
    (halive : ∀ u, σ'.alive u = true → σ.alive u = true)
    (hfresh : ∀ u, σ.count ≤ u → σ'.state u = σ.state u) : σ'.Tree where
  fresh := by
    intro u hu
    rw [hcount] at hu
    rw [hfresh u hu, h.fresh u hu]
  parent_lt := by
    intro u v hu
    rw [hcount]
    exact h.parent_lt u v (hparent u ▸ hu)
  child_parent := by
    intro u v hu
    rw [hparent]
    exact h.child_parent u v (hchildren v ▸ hu)
  child_listed := by
    intro u v hu hlive hv
    rw [hchildren]
    exact h.child_listed u v (hparent u ▸ hu) (halive u hlive) (hcancelled v ▸ hv)
  child_cancelled := by
    intro u v hu hlive hv
    rw [hcancelled]
    exact h.child_cancelled u v (hparent u ▸ hu) (halive u hlive) (hcancelled v ▸ hv)

/-- A new token, which its parent lists, or which is cancelled like it. -/
theorem grow (h : σ.Tree) {s : TokenState} (hcount : σ'.count = σ.count + 1)
    (hnew : σ'.state σ.count = s) (hempty : s.children = [])
    (hparent : ∀ u, u ≠ σ.count → (σ'.state u).parent = (σ.state u).parent)
    (hcancelled : ∀ u, u ≠ σ.count → (σ'.state u).cancelled = (σ.state u).cancelled)
    (halive : ∀ u, u ≠ σ.count → σ'.alive u = σ.alive u)
    (hfresh : ∀ u, σ.count < u → σ'.state u = σ.state u)
    (hlisted : ∀ u v, v ≠ σ.count → u ∈ (σ'.state v).children →
      u ∈ (σ.state v).children ∨ u = σ.count ∧ s.parent = some v)
    (hkept : ∀ u v, v ≠ σ.count → u ∈ (σ.state v).children → σ.alive u = true →
      u ∈ (σ'.state v).children)
    (hs : ∀ v, s.parent = some v → v < σ.count ∧
      ((σ.state v).cancelled = false → σ.count ∈ (σ'.state v).children) ∧
      ((σ.state v).cancelled = true → s.cancelled = true)) : σ'.Tree := by
  have hnone : (σ.state σ.count).parent = none := by rw [h.fresh σ.count (Nat.le_refl _)]
  constructor
  · intro u hu
    rw [hfresh u (by omega), h.fresh u (by omega)]
  · intro u v hu
    by_cases heq : u = σ.count
    · rw [heq, hnew] at hu
      have := (hs v hu).1
      omega
    · have := h.parent_lt u v (hparent u heq ▸ hu)
      omega
  · intro u v hu
    have hv : v ≠ σ.count := by
      rintro rfl
      simp [hnew, hempty] at hu
    rcases hlisted u v hv hu with hu | ⟨rfl, hv⟩
    · have hu' := h.child_parent u v hu
      have hne : u ≠ σ.count := by
        rintro rfl
        simp [hnone] at hu'
      rwa [hparent u hne]
    · rw [hnew, hv]
  · intro u v hu hlive hv
    by_cases heq : u = σ.count
    · subst heq
      rw [hnew] at hu
      obtain ⟨hlt, hlist, -⟩ := hs v hu
      exact hlist (hcancelled v (Nat.ne_of_lt hlt) ▸ hv)
    · have hu' := hparent u heq ▸ hu
      have hne : v ≠ σ.count := Nat.ne_of_lt (h.parent_lt u v hu')
      have hlive' := halive u heq ▸ hlive
      exact hkept u v hne (h.child_listed u v hu' hlive' (hcancelled v hne ▸ hv)) hlive'
  · intro u v hu hlive hv
    by_cases heq : u = σ.count
    · subst heq
      rw [hnew] at hu ⊢
      obtain ⟨hlt, -, hcancel⟩ := hs v hu
      exact hcancel (hcancelled v (Nat.ne_of_lt hlt) ▸ hv)
    · have hu' := hparent u heq ▸ hu
      have hne : v ≠ σ.count := Nat.ne_of_lt (h.parent_lt u v hu')
      rw [hcancelled u heq]
      exact h.child_cancelled u v hu' (halive u heq ▸ hlive) (hcancelled v hne ▸ hv)

theorem push (h : σ.Tree) {s : TokenState} (hempty : s.children = [])
    (hs : ∀ v, s.parent = some v →
      v < σ.count ∧ (σ.state v).cancelled = true ∧ s.cancelled = true) : (σ.push s).Tree := by
  have hother : ∀ u, u ≠ σ.count → (σ.push s).state u = σ.state u := by
    intro u hu
    simp [hu]
  refine h.grow rfl (by simp) hempty ?_ ?_ ?_ ?_ ?_ ?_ ?_
  · exact fun u hu => by rw [hother u hu]
  · exact fun u hu => by rw [hother u hu]
  · exact fun u hu => by rw [alive, hother u hu, alive]
  · exact fun u hu => hother u (Nat.ne_of_gt hu)
  · exact fun u v hv hu => Or.inl (hother v hv ▸ hu)
  · exact fun u v hv hu _ => hother v hv ▸ hu
  · intro v hv
    obtain ⟨hlt, hcancelled, hnew⟩ := hs v hv
    exact ⟨hlt, fun hopen => by simp [hcancelled] at hopen, fun _ => hnew⟩

theorem new (h : σ.Tree) : σ.new.Tree :=
  h.push rfl (by simp)

theorem lt_of_alive (h : σ.Tree) (ht : σ.alive t = true) : t < σ.count := by
  by_contra hge
  simp [alive, h.fresh t (Nat.le_of_not_lt hge)] at ht

theorem mem_prunedChildren (full : Bool) {u : Nat} :
    (u ∈ σ.prunedChildren t full → u ∈ (σ.state t).children) ∧
      (u ∈ (σ.state t).children → σ.alive u = true → u ∈ σ.prunedChildren t full) := by
  unfold prunedChildren
  split
  · exact ⟨List.mem_of_mem_filter, fun hu halive => List.mem_filter.mpr ⟨hu, halive⟩⟩
  · exact ⟨id, fun hu _ => hu⟩

theorem childToken (h : σ.Tree) (ht : σ.alive t = true) (full : Bool) :
    (σ.childToken t full).Tree := by
  have hlt := h.lt_of_alive ht
  have hne : t ≠ σ.count := Nat.ne_of_lt hlt
  unfold Tokens.childToken
  split
  next hcancelled =>
    refine h.push rfl ?_
    intro v hv
    obtain rfl : t = v := by simpa using hv
    exact ⟨hlt, hcancelled, rfl⟩
  next hcancelled =>
    refine h.grow rfl rfl (by simp) ?_ ?_ ?_ ?_ ?_ ?_ ?_
    · intro u hu
      by_cases heq : u = t <;> simp [heq, hu, hne]
    · intro u hu
      by_cases heq : u = t <;> simp [heq, hu, hne]
    · intro u hu
      by_cases heq : u = t <;> simp [alive, heq, hu, hne]
    · intro u hu
      have hut : u ≠ t := by omega
      simp [hut, Nat.ne_of_gt hu]
    · intro u v hv hu
      by_cases heq : v = t
      · subst heq
        have hu' : u ∈ σ.prunedChildren v full ∨ u = σ.count := by simpa [hne] using hu
        exact hu'.imp (mem_prunedChildren full).1 fun hu' => ⟨hu', by simp⟩
      · exact Or.inl (by simpa [heq, hv] using hu)
    · intro u v hv hu halive
      by_cases heq : v = t
      · subst heq
        have hu' := (mem_prunedChildren full).2 hu halive
        simp [hne, hu']
      · simpa [heq, hv] using hu
    · intro v hv
      obtain rfl : t = v := by simpa using hv
      refine ⟨hlt, fun _ => by simp [hne], fun htrue => absurd htrue hcancelled⟩

/-- Changes to the handles and the waiters of one token. -/
theorem modify (h : σ.Tree) (ht : σ.alive t = true) {s : TokenState}
    (hparent : s.parent = (σ.state t).parent) (hcancelled : s.cancelled = (σ.state t).cancelled)
    (hchildren : s.children = (σ.state t).children) : (σ.set t s).Tree := by
  have hlt := h.lt_of_alive ht
  refine h.congr rfl ?_ ?_ ?_ ?_ ?_
  · intro u
    by_cases hu : u = t <;> simp [hu, hparent]
  · intro u
    by_cases hu : u = t <;> simp [hu, hcancelled]
  · intro u
    by_cases hu : u = t <;> simp [hu, hchildren]
  · intro u
    by_cases hu : u = t
    · exact fun _ => hu ▸ ht
    · simp [alive, hu]
  · intro u hu
    have hut : u ≠ t := by omega
    simp [hut]

theorem cancel {woken : List Waker} (h : σ.Tree) (ht : σ.alive t = true)
    (hcancel : σ.cancel t = some (σ', woken)) : σ'.Tree := by
  obtain ⟨hcount, htouched, hother⟩ := state_of_collectCancellation hcancel
  have hcases : ∀ u, σ.Touched (· ∈ [t]) u ∧ σ'.state u = (σ.state u).cancel ∨
      ¬ σ.Touched (· ∈ [t]) u ∧ σ'.state u = σ.state u := by
    intro u
    by_cases hu : σ.Touched (· ∈ [t]) u
    · exact Or.inl ⟨hu, htouched u hu⟩
    · exact Or.inr ⟨hu, hother u hu⟩
  have hparent : ∀ u, (σ'.state u).parent = (σ.state u).parent := by
    intro u
    rcases hcases u with ⟨-, hu⟩ | ⟨-, hu⟩ <;> simp [hu]
  have halive : ∀ u, σ'.alive u = σ.alive u := by
    intro u
    rcases hcases u with ⟨-, hu⟩ | ⟨-, hu⟩ <;> simp [alive, hu]
  constructor
  · intro u hu
    rw [hcount] at hu
    rcases hcases u with ⟨htouch, -⟩ | ⟨-, hsame⟩
    · have hlt := h.lt_of_alive ((h.touched_iff.mp htouch).2.alive ht)
      omega
    · rw [hsame, h.fresh u hu]
  · intro u v hu
    rw [hcount]
    exact h.parent_lt u v (hparent u ▸ hu)
  · intro u v hu
    rw [hparent]
    rcases hcases v with ⟨-, hv⟩ | ⟨-, hv⟩
    · simp [hv] at hu
    · exact h.child_parent u v (hv ▸ hu)
  · intro u v hu hlive hv
    rcases hcases v with ⟨-, hstate⟩ | ⟨-, hstate⟩
    · simp [hstate] at hv
    · rw [hstate] at hv ⊢
      exact h.child_listed u v (hparent u ▸ hu) (halive u ▸ hlive) hv
  · intro u v hu hlive hv
    rw [hparent] at hu
    rw [halive] at hlive
    rcases hcases u with ⟨-, hstate⟩ | ⟨huntouched, hstate⟩
    · simp [hstate]
    · rw [hstate]
      rcases hcases v with ⟨hvtouched, -⟩ | ⟨-, hvstate⟩
      · -- the walk went on to `u` unless it was cancelled
        by_contra hopen
        refine huntouched (.next hvtouched ⟨?_, hlive⟩ (by simpa using hopen))
        exact h.child_listed u v hu hlive hvtouched.isOpen
      · exact h.child_cancelled u v hu hlive (hvstate ▸ hv)

theorem pollCancelled (h : σ.Tree) (ht : σ.alive t = true) (waiter : Option Nat)
    (waker : Waker) : (σ.pollCancelled t waiter waker).1.Tree := by
  unfold Tokens.pollCancelled
  dsimp only
  split
  · exact h
  split
  · exact h.modify ht rfl rfl rfl
  · exact h.modify ht rfl rfl rfl

theorem dropRegistration (h : σ.Tree) (ht : σ.alive t = true) (waiter : Option Nat) :
    (σ.dropRegistration t waiter).Tree := by
  unfold Tokens.dropRegistration
  split
  · exact h
  dsimp only
  split
  · exact h.modify ht rfl rfl rfl
  · exact h

theorem step {a : Action} (h : σ.Tree) (hstep : σ.step a = some σ') : σ'.Tree := by
  cases a with
  | new =>
      cases hstep
      exact h.new
  | clone t =>
      obtain ⟨ht, hstep⟩ := Option.ite_none_right_eq_some.mp hstep
      cases hstep
      exact h.modify ht rfl rfl rfl
  | drop t =>
      obtain ⟨ht, hstep⟩ := Option.ite_none_right_eq_some.mp hstep
      cases hstep
      exact h.modify ht rfl rfl rfl
  | childToken t full =>
      obtain ⟨ht, hstep⟩ := Option.ite_none_right_eq_some.mp hstep
      cases hstep
      exact h.childToken ht full
  | cancel t =>
      obtain ⟨ht, hstep⟩ := Option.ite_none_right_eq_some.mp hstep
      obtain ⟨⟨σ', woken⟩, hcancel, rfl⟩ := Option.map_eq_some_iff.mp hstep
      exact h.cancel ht hcancel
  | pollCancelled t waiter waker =>
      obtain ⟨ht, hstep⟩ := Option.ite_none_right_eq_some.mp hstep
      cases hstep
      exact h.pollCancelled ht waiter waker
  | dropRegistration t waiter =>
      obtain ⟨ht, hstep⟩ := Option.ite_none_right_eq_some.mp hstep
      cases hstep
      exact h.dropRegistration ht waiter

end Tree

theorem tree_of_reachable (hreach : Reachable step (fun _ _ => True) {} σ) : σ.Tree :=
  hreach.invariant Tree .init fun _ _ _ htree _ hstep => htree.step hstep

/-! ## Cancellation -/

/-- A cancellation of `t` reaches every token derived from it that has a handle,
and touches no other token. -/
def Reaches (σ : Tokens) (t : Nat) (σ' : Tokens) : Prop :=
  (∀ u, σ.Derived t u → σ.alive u = true → (σ'.state u).cancelled = true) ∧
    ∀ u, ¬ σ.Derived t u → σ'.state u = σ.state u

/-- In every run, `cancel` reaches every derived token exactly when each of
them that is not cancelled yet is still linked to the cancelled one. -/
theorem cancel_reaches_iff (hreach : Reachable step (fun _ _ => True) {} σ) (t : Nat) :
    ∃ σ' woken, σ.cancel t = some (σ', woken) ∧
      (σ.Reaches t σ' ↔ ∀ u, σ.Derived t u → σ.alive u = true →
        (σ.state u).cancelled = true ∨ σ.Linked t u) := by
  have htree := tree_of_reachable hreach
  obtain ⟨σ', woken, hcancel⟩ := exists_cancel htree.bounded t
  obtain ⟨-, htouched, hother⟩ := state_of_collectCancellation hcancel
  refine ⟨σ', woken, hcancel, ?_, ?_⟩
  · rintro ⟨hreaches, -⟩ u hderived halive
    by_cases hu : σ.Touched (· ∈ [t]) u
    · exact Or.inr (htree.touched_iff.mp hu).2
    · have hcancelled := hreaches u hderived halive
      rw [hother u hu] at hcancelled
      exact Or.inl hcancelled
  · intro hlinked
    refine ⟨fun u hderived halive => ?_, fun u hderived => ?_⟩
    · by_cases hu : σ.Touched (· ∈ [t]) u
      · rw [htouched u hu]
        rfl
      · rw [hother u hu]
        rcases hlinked u hderived halive with hcancelled | hlink
        · exact hcancelled
        · by_contra hopen
          exact hu (htree.touched_iff.mpr ⟨by simpa using hopen, hlink⟩)
    · exact hother u fun hu => hderived (htree.touched_iff.mp hu).2.derived

/-- A token, its child and its grandchild. -/
def threeGenerations : List Action := [.new, .childToken 0 false, .childToken 1 true]

theorem cancel_reaches_threeGenerations : ∃ σ σ' woken,
    Reachable step (fun _ _ => True) {} σ ∧ σ.cancel 0 = some (σ', woken) ∧
      σ.Derived 0 2 ∧ σ.alive 2 = true ∧ σ.Reaches 0 σ' := by
  obtain ⟨σ, hreach, hσ⟩ := Reachable.exists_of_run step (fun _ _ => True) {} threeGenerations
    (fun σ => σ.count = 3 ∧ (σ.state 1).parent = some 0 ∧ (σ.state 2).parent = some 1 ∧
      σ.alive 1 = true ∧ σ.alive 2 = true) (by simp) (by decide)
  obtain ⟨hcount, h₁, h₂, halive₁, halive₂⟩ := of_decide_eq_true hσ
  obtain ⟨σ', woken, hcancel, hiff⟩ := cancel_reaches_iff hreach 0
  have hlinked₁ : σ.Linked 0 1 := .child .self h₁ halive₁
  have hlinked₂ : σ.Linked 0 2 := .child hlinked₁ h₂ halive₂
  refine ⟨σ, σ', woken, hreach, hcancel, hlinked₂.derived, halive₂, hiff.mpr ?_⟩
  intro u _ halive
  have hlt := (tree_of_reachable hreach).lt_of_alive halive
  obtain rfl | rfl | rfl : u = 0 ∨ u = 1 ∨ u = 2 := by omega
  · exact Or.inr .self
  · exact Or.inr hlinked₁
  · exact Or.inr hlinked₂

/-- The same tokens, and the handle of the child is dropped. -/
def droppedParent : List Action := [.new, .childToken 0 false, .childToken 1 false, .drop 1]

/-- The grandchild is not cancelled, because the token between has no handle. -/
theorem dropped_parent_not_reached : ∃ σ σ' woken,
    Reachable step (fun _ _ => True) {} σ ∧ σ.alive 0 = true ∧
      σ.cancel 0 = some (σ', woken) ∧ σ.Derived 0 2 ∧ σ.alive 2 = true ∧
      (σ'.state 2).cancelled = false ∧ ¬ σ.Reaches 0 σ' := by
  obtain ⟨σ, hreach, hσ⟩ := Reachable.exists_of_run step (fun _ _ => True) {} droppedParent
    (fun σ => σ.alive 0 = true ∧ (σ.state 1).parent = some 0 ∧ (σ.state 2).parent = some 1 ∧
      σ.alive 2 = true ∧ (σ.cancel 0).map (fun r => (r.1.state 2).cancelled) = some false)
    (by simp) (by decide)
  obtain ⟨halive₀, h₁, h₂, halive₂, hopen⟩ := of_decide_eq_true hσ
  obtain ⟨⟨σ', woken⟩, hcancel, hopen⟩ := Option.map_eq_some_iff.mp hopen
  replace hopen : (σ'.state 2).cancelled = false := hopen
  have hderived : σ.Derived 0 2 := .child (.child .self h₁) h₂
  refine ⟨σ, σ', woken, hreach, halive₀, hcancel, hderived, halive₂, hopen, ?_⟩
  rintro ⟨hreaches, -⟩
  have hcancelled := hreaches 2 hderived halive₂
  simp [hopen] at hcancelled

end Runite.Sync.Tokens
