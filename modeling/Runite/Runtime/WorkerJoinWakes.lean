import Runite.Runtime.WorkerJoin
import Runite.Lib.Counting

/-!
# Joiners and the publication

A joiner that waits is in the map of waiters with the waker of its last poll, until the
reaper has taken the map; from then on it is in the list that the reaper goes through,
or has been woken.  What a joiner holds on the threads that have polled it is counted
there, and given back when it is ready or dropped.
-/

namespace Runite.Runtime

open scoped List

variable {ω : Type}

def WorkerJoin.removed (j : WorkerJoin ω) : Bool :=
  match j.phase with
  | .removing | .clearing true | .dropped => true
  | _ => false

/-- The last poll of the joiner was pending, with this waker. -/
structure WorkerJoin.Waits (j : WorkerJoin ω) (waker : ω) : Prop where
  answer : j.answer = some .pending
  waker : j.waker = some waker
  kept : j.removed = false

namespace WorkerCompletion

variable {s s' : WorkerCompletion ω} {i : Nat} {j j' : WorkerJoin ω} {id k : Nat} {w : ω}

/-! ## The map of waiters -/

theorem insertWaiter_perm (id : Nat) (w : ω) (waiters : List (Nat × ω)) :
    insertWaiter id w waiters ~ (id, w) :: removeWaiter id waiters := by
  unfold insertWaiter
  refine List.perm_middle.trans (.cons _ ?_)
  rw [List.takeWhile_append_dropWhile]

theorem mem_removeWaiter {entry : Nat × ω} {waiters : List (Nat × ω)} :
    entry ∈ removeWaiter id waiters ↔ entry ∈ waiters ∧ entry.1 ≠ id := by
  simp [removeWaiter]

theorem mem_insertWaiter {entry : Nat × ω} {waiters : List (Nat × ω)} :
    entry ∈ insertWaiter id w waiters ↔ entry = (id, w) ∨ entry ∈ waiters ∧ entry.1 ≠ id := by
  rw [(insertWaiter_perm id w waiters).mem_iff, List.mem_cons, mem_removeWaiter]

theorem nodup_removeWaiter {waiters : List (Nat × ω)} (h : (waiters.map Prod.fst).Nodup) :
    ((removeWaiter id waiters).map Prod.fst).Nodup :=
  h.sublist (List.filter_sublist.map _)

theorem nodup_insertWaiter {waiters : List (Nat × ω)} (h : (waiters.map Prod.fst).Nodup) :
    ((insertWaiter id w waiters).map Prod.fst).Nodup := by
  rw [((insertWaiter_perm id w waiters).map Prod.fst).nodup_iff, List.map_cons, List.nodup_cons]
  refine ⟨fun hmem => ?_, nodup_removeWaiter h⟩
  obtain ⟨entry, hentry, heq⟩ := List.mem_map.mp hmem
  exact (mem_removeWaiter.mp hentry).2 heq

/-! ## Registered wakers -/

/-- The waker is woken, or still will be by the publication. -/
def Registered (s : WorkerCompletion ω) (k : Nat) (w : ω) : Prop :=
  (s.active k = true ∧ ((s.reaper = .joining ∧ (k, w) ∈ s.waiters) ∨
    ∃ rest, s.reaper = .waking rest ∧ (k, w) ∈ rest)) ∨ (k, w) ∈ s.woken

/-- The fields of a joiner agree with each other and with the completion. -/
structure Fits (s : WorkerCompletion ω) (j : WorkerJoin ω) : Prop where
  id_lt : ∀ k, j.waiterId = some k → k < s.nextWaiterId
  token : j.phase ≠ .removing → j.waiterActive = j.waiterId
  waiting : ∀ k, j.waiterId = some k → j.removed = false →
    ∃ w, j.Waits w ∧ s.Registered k w
  pending : j.answer = some .pending → j.removed = false → ∃ k, j.waiterId = some k
  ready : ∀ outcome, j.answer = some (.ready outcome) → s.outcome = some outcome
  safe : j.answer ≠ some .panics

/-- What holds of a worker and its joiners between the steps. -/
structure Linked (s : WorkerCompletion ω) : Prop where
  fits : ∀ (i : Nat) (j : WorkerJoin ω), s.joiners[i]? = some j → s.Fits j
  distinct : ∀ (i i' : Nat) (j j' : WorkerJoin ω) (k : Nat), s.joiners[i]? = some j →
    s.joiners[i']? = some j' → j.waiterId = some k → j'.waiterId = some k → i = i'
  keys : (s.waiters.map Prod.fst).Nodup
  rest : ∀ rest, s.reaper = .waking rest → (rest.map Prod.fst).Nodup
  joining : s.reaper = .joining ↔ s.outcome = none
  finished : s.finished = s.outcome.isSome
  unwoken : s.outcome = none → s.woken = []

theorem Linked.init (parent : Nat) : ({ parent } : WorkerCompletion ω).Linked where
  fits := by simp
  distinct := by simp
  keys := .nil
  rest := nofun
  joining := ⟨fun _ => rfl, fun _ => rfl⟩
  finished := rfl
  unwoken := fun _ => rfl

/-- The joiner fits as before, when its waker stays registered. -/
theorem Fits.keep (h : s.Fits j) (hnext : s.nextWaiterId ≤ s'.nextWaiterId)
    (houtcome : ∀ outcome, s.outcome = some outcome → s'.outcome = some outcome)
    (hregistered : ∀ k w, j.waiterId = some k → s.Registered k w → s'.Registered k w) :
    s'.Fits j where
  id_lt k hk := Nat.lt_of_lt_of_le (h.id_lt k hk) hnext
  token := h.token
  waiting k hk hkept := by
    obtain ⟨w, hwaits, hreg⟩ := h.waiting k hk hkept
    exact ⟨w, hwaits, hregistered k w hk hreg⟩
  pending := h.pending
  ready outcome houtcome' := houtcome outcome (h.ready outcome houtcome')
  safe := h.safe

theorem Linked.goesOn (h : s.Linked) (hjoiners : s'.joiners = s.joiners)
    (hnext : s'.nextWaiterId = s.nextWaiterId)
    (houtcome : ∀ outcome, s.outcome = some outcome → s'.outcome = some outcome)
    (hregistered : ∀ k w, s.Registered k w → s'.Registered k w)
    (hkeys : (s'.waiters.map Prod.fst).Nodup)
    (hrest : ∀ rest, s'.reaper = .waking rest → (rest.map Prod.fst).Nodup)
    (hjoining : s'.reaper = .joining ↔ s'.outcome = none)
    (hfinished : s'.finished = s'.outcome.isSome)
    (hunwoken : s'.outcome = none → s'.woken = []) : s'.Linked where
  fits i j hj := by
    rw [hjoiners] at hj
    exact (h.fits i j hj).keep (Nat.le_of_eq hnext.symm) houtcome fun k w _ => hregistered k w
  distinct := by
    rw [hjoiners]
    exact h.distinct
  keys := hkeys
  rest := hrest
  joining := hjoining
  finished := hfinished
  unwoken := hunwoken

/-- One joiner takes a step; the outcome and the reaper stay as they are. -/
theorem Linked.update (h : s.Linked) (hj : s.joiners[i]? = some j)
    (hjoiners : s'.joiners = s.joiners.set i j')
    (hid : ∀ k, j'.waiterId = some k → j.waiterId = some k ∨ s.nextWaiterId ≤ k)
    (hfits : s'.Fits j')
    (hothers : ∀ k w, j.waiterId ≠ some k → k < s.nextWaiterId → s.Registered k w →
      s'.Registered k w)
    (hnext : s.nextWaiterId ≤ s'.nextWaiterId) (hkeys : (s'.waiters.map Prod.fst).Nodup)
    (hreaper : s'.reaper = s.reaper) (houtcome : s'.outcome = s.outcome)
    (hfinished : s'.finished = s.finished) (hwoken : s'.woken = s.woken) : s'.Linked := by
  -- the id of another joiner, which is not that of this one
  have hother : ∀ i₂ j₂ k, i₂ ≠ i → s.joiners[i₂]? = some j₂ → j₂.waiterId = some k →
      j.waiterId ≠ some k := fun i₂ j₂ k hne hj₂ hk hsame =>
    hne (h.distinct i₂ i j₂ j k hj₂ hj hk hsame)
  refine ⟨fun i₂ j₂ hj₂ => ?_, fun i₁ i₂ j₁ j₂ k hj₁ hj₂ hk₁ hk₂ => ?_, hkeys, ?_, ?_, ?_, ?_⟩
  · rw [hjoiners] at hj₂
    obtain ⟨rfl, rfl⟩ | ⟨hne, hold⟩ := (Table.getElem?_set_eq_some hj).mp hj₂
    · exact hfits
    · refine (h.fits i₂ j₂ hold).keep hnext (fun o ho => houtcome.trans ho) fun k w hk hreg => ?_
      exact hothers k w (hother i₂ j₂ k hne hold hk) ((h.fits i₂ j₂ hold).id_lt k hk) hreg
  · rw [hjoiners] at hj₁ hj₂
    obtain ⟨rfl, rfl⟩ | ⟨hne₁, hold₁⟩ := (Table.getElem?_set_eq_some hj).mp hj₁
    · obtain ⟨rfl, rfl⟩ | ⟨hne₂, hold₂⟩ := (Table.getElem?_set_eq_some hj).mp hj₂
      · rfl
      · obtain hsame | hfresh := hid k hk₁
        · exact absurd hsame (hother i₂ j₂ k hne₂ hold₂ hk₂)
        · have := (h.fits i₂ j₂ hold₂).id_lt k hk₂
          omega
    · obtain ⟨rfl, rfl⟩ | ⟨hne₂, hold₂⟩ := (Table.getElem?_set_eq_some hj).mp hj₂
      · obtain hsame | hfresh := hid k hk₂
        · exact absurd hsame (hother i₁ j₁ k hne₁ hold₁ hk₁)
        · have := (h.fits i₁ j₁ hold₁).id_lt k hk₁
          omega
      · exact h.distinct i₁ i₂ j₁ j₂ k hold₁ hold₂ hk₁ hk₂
  · rw [hreaper]
    exact h.rest
  · rw [hreaper, houtcome]
    exact h.joining
  · rw [hfinished, houtcome]
    exact h.finished
  · rw [houtcome, hwoken]
    exact h.unwoken

/-! ## The worker and the reaper -/

theorem Linked.record (h : s.Linked) (outcome : WorkerOutcome) :
    (s.recordWorkerOutcome outcome).Linked :=
  h.goesOn rfl rfl (fun _ h => h) (fun _ _ h => h) h.keys h.rest h.joining h.finished
    h.unwoken

theorem Linked.publish (h : s.Linked) (hreaper : s.reaper = .joining) (threadPanicked : Bool) :
    (s.publishAfterJoin threadPanicked).Linked := by
  have hnone := h.joining.mp hreaper
  refine h.goesOn rfl rfl (fun o ho => nomatch hnone.symm.trans ho) ?_ .nil ?_
    ⟨nofun, nofun⟩ rfl nofun
  · rintro k w (⟨hactive, ⟨-, hmem⟩ | ⟨rest, hwaking, -⟩⟩ | hwoken)
    · exact .inl ⟨hactive, .inr ⟨s.waiters, rfl, hmem⟩⟩
    · exact nomatch hreaper.symm.trans hwaking
    · exact .inr hwoken
  · intro rest hrest
    cases hrest
    exact h.keys

theorem Linked.wakeNext (h : s.Linked) {panics : Bool} (hstep : s.wakeNext panics = some s') :
    s'.Linked := by
  unfold WorkerCompletion.wakeNext at hstep
  split at hstep
  next id w rest hreaper =>
    have hnodup := h.rest _ hreaper
    rw [List.map_cons, List.nodup_cons] at hnodup
    obtain ⟨hhead, hnodup⟩ := hnodup
    have houtcome : s.outcome ≠ none := fun hnone => nomatch hreaper.symm.trans (h.joining.mpr hnone)
    split at hstep
    next hactive =>
      cases hstep
      refine h.goesOn rfl rfl (fun _ h => h) ?_ h.keys ?_ ⟨nofun, fun h => absurd h houtcome⟩
        h.finished fun h => absurd h houtcome
      · rintro k w' (⟨hk, ⟨hjoining, -⟩ | ⟨rest', hwaking, hmem⟩⟩ | hwoken)
        · exact nomatch hreaper.symm.trans hjoining
        · cases hreaper.symm.trans hwaking
          obtain heq | hlater := List.mem_cons.mp hmem
          · exact .inr (List.mem_append_right _ (List.mem_singleton.mpr heq))
          · have hne : k ≠ id := fun heq => hhead (List.mem_map.mpr ⟨(k, w'), hlater, heq⟩)
            refine .inl ⟨?_, .inr ⟨rest, rfl, hlater⟩⟩
            show Function.update s.active id false k = true
            rwa [Function.update_of_ne hne]
        · exact .inr (List.mem_append_left _ hwoken)
      · intro rest' hrest'
        cases hrest'
        exact hnodup
    next hinactive =>
      cases hstep
      refine h.goesOn rfl rfl (fun _ h => h) ?_ h.keys ?_ ⟨nofun, fun h => absurd h houtcome⟩
        h.finished fun h => absurd h houtcome
      · rintro k w' (⟨hk, ⟨hjoining, -⟩ | ⟨rest', hwaking, hmem⟩⟩ | hwoken)
        · exact nomatch hreaper.symm.trans hjoining
        · cases hreaper.symm.trans hwaking
          obtain heq | hmem := List.mem_cons.mp hmem
          · cases heq
            exact absurd hk hinactive
          · exact .inl ⟨hk, .inr ⟨rest, rfl, hmem⟩⟩
        · exact .inr hwoken
      · intro rest' hrest'
        cases hrest'
        exact hnodup
  next hreaper =>
    cases hstep
    have houtcome : s.outcome ≠ none := fun hnone => nomatch hreaper.symm.trans (h.joining.mpr hnone)
    refine h.goesOn rfl rfl (fun _ h => h) ?_ h.keys nofun ⟨nofun, fun h => absurd h houtcome⟩
      h.finished fun h => absurd h houtcome
    rintro k w (⟨-, ⟨hjoining, -⟩ | ⟨rest', hwaking, hmem⟩⟩ | hwoken)
    · exact nomatch hreaper.symm.trans hjoining
    · cases hreaper.symm.trans hwaking
      cases hmem
    · exact .inr hwoken
  next => cases hstep

/-! ## The joiners -/

theorem Linked.join (h : s.Linked) : Linked { s with joiners := s.joiners ++ [{}] } where
  fits i j hj := by
    obtain hold | ⟨-, rfl⟩ := Table.getElem?_concat_eq_some.mp hj
    · exact (h.fits i j hold).keep (Nat.le_refl _) (fun _ h => h) fun _ _ _ h => h
    · exact ⟨nofun, fun _ => rfl, nofun, nofun, nofun, nofun⟩
  distinct i₁ i₂ j₁ j₂ k hj₁ hj₂ hk₁ hk₂ := by
    obtain hold₁ | ⟨-, rfl⟩ := Table.getElem?_concat_eq_some.mp hj₁
    · obtain hold₂ | ⟨-, rfl⟩ := Table.getElem?_concat_eq_some.mp hj₂
      · exact h.distinct i₁ i₂ j₁ j₂ k hold₁ hold₂ hk₁ hk₂
      · cases hk₂
    · cases hk₁
  keys := h.keys
  rest := h.rest
  joining := h.joining
  finished := h.finished
  unwoken := h.unwoken

/-- The joiner goes on with the fields that the completion knows. -/
theorem Linked.same (h : s.Linked) (hj : s.joiners[i]? = some j)
    (hjoiners : s'.joiners = s.joiners.set i j') (hid : j'.waiterId = j.waiterId)
    (htoken : j'.phase ≠ .removing → j'.waiterActive = j'.waiterId)
    (hanswer : j'.answer = j.answer) (hwaker : j'.waker = j.waker)
    (hremoved : j'.removed = false → j.removed = false)
    (hnext : s'.nextWaiterId = s.nextWaiterId) (hactive : s'.active = s.active)
    (hwaiters : s'.waiters = s.waiters) (hwoken : s'.woken = s.woken)
    (hreaper : s'.reaper = s.reaper) (houtcome : s'.outcome = s.outcome)
    (hfinished : s'.finished = s.finished) : s'.Linked := by
  have hfits := h.fits i j hj
  have hregistered : ∀ k w, s.Registered k w → s'.Registered k w := by
    intro k w hreg
    unfold Registered
    rwa [hactive, hreaper, hwaiters, hwoken]
  refine h.update hj hjoiners (fun k hk => .inl (hid ▸ hk)) ?_
    (fun k w _ _ => hregistered k w) (Nat.le_of_eq hnext.symm) (hwaiters ▸ h.keys) hreaper
    houtcome hfinished hwoken
  exact
    { id_lt := fun k hk => by
        rw [hnext]
        exact hfits.id_lt k (hid ▸ hk)
      token := htoken
      waiting := fun k hk hkept => by
        obtain ⟨w, hwaits, hreg⟩ := hfits.waiting k (hid ▸ hk) (hremoved hkept)
        exact ⟨w, ⟨hanswer.trans hwaits.answer, hwaker.trans hwaits.waker, hkept⟩,
          hregistered k w hreg⟩
      pending := fun hpending hkept => by
        rw [hid]
        exact hfits.pending (hanswer ▸ hpending) (hremoved hkept)
      ready := fun outcome hready => by
        rw [houtcome]
        exact hfits.ready outcome (hanswer ▸ hready)
      safe := hanswer ▸ hfits.safe }

theorem Linked.poll (h : s.Linked) (hj : s.joiners[i]? = some j) (hidle : j.phase = .idle)
    (current : Option Nat) (waker : ω) : (s.poll i j current waker).Linked := by
  have htoken := (h.fits i j hj).token (by simp [hidle])
  have hkept : j.removed = false := by rw [WorkerJoin.removed, hidle]
  unfold WorkerCompletion.poll
  split
  · split
    · exact h.same hj rfl rfl (fun _ => htoken) rfl rfl (fun _ => hkept) rfl rfl rfl rfl rfl rfl rfl
    · exact h.same hj rfl rfl (fun _ => htoken) rfl rfl (fun _ => hkept) rfl rfl rfl rfl rfl rfl rfl
  · exact h.same hj rfl rfl (fun _ => htoken) rfl rfl (fun _ => hkept) rfl rfl rfl rfl rfl rfl rfl

theorem Linked.clearNext (h : s.Linked) (hj : s.joiners[i]? = some j) {dropping : Bool}
    (hphase : j.phase = .clearing dropping) : (s.clearNext i j dropping).Linked := by
  have htoken := (h.fits i j hj).token (by simp [hphase])
  unfold WorkerCompletion.clearNext
  split
  · exact h.same hj rfl rfl (fun _ => htoken) rfl rfl
      (fun hkept => by simpa [WorkerJoin.removed, hphase] using hkept) rfl rfl rfl rfl rfl rfl rfl
  · refine h.same hj rfl rfl (fun _ => htoken) rfl rfl (fun hkept => ?_) rfl rfl rfl rfl rfl rfl rfl
    cases dropping with
    | false => rw [WorkerJoin.removed, hphase]
    | true => cases hkept

/-- A waker of another id stays registered when a token is cleared and an entry removed. -/
theorem Registered.others {token id : Option Nat} (h : s.Registered k w) (htoken : token ≠ some k)
    (hid : id ≠ some k) (joiners : List (WorkerJoin ω)) :
    Registered { s with
      active := deactivate token s.active
      waiters := removeIfSome id s.waiters
      joiners } k w := by
  obtain ⟨hk, hmem⟩ | hwoken := h
  · refine .inl ⟨?_, ?_⟩
    · show deactivate token s.active k = true
      cases token with
      | none => exact hk
      | some token =>
          have hne : k ≠ token := fun heq => htoken (congrArg some heq.symm)
          rwa [deactivate, Function.update_of_ne hne]
    · obtain ⟨hjoining, hmem⟩ | hwaking := hmem
      · refine .inl ⟨hjoining, ?_⟩
        show (k, w) ∈ removeIfSome id s.waiters
        cases id with
        | none => exact hmem
        | some id =>
            exact mem_removeWaiter.mpr ⟨hmem, fun heq => hid (congrArg some heq.symm)⟩
      · exact .inr hwaking
  · exact .inr hwoken

theorem nodup_removeIfSome {waiters : List (Nat × ω)} (h : (waiters.map Prod.fst).Nodup)
    (id : Option Nat) : ((removeIfSome id waiters).map Prod.fst).Nodup := by
  cases id with
  | none => exact h
  | some id => exact nodup_removeWaiter h

theorem Linked.drop (h : s.Linked) (hj : s.joiners[i]? = some j) (hidle : j.phase = .idle)
    (current : Option Nat) : (s.drop i j current).Linked := by
  have hfits := h.fits i j hj
  have htoken := hfits.token (by simp [hidle])
  refine h.update hj rfl (fun k hk => .inl hk) ?_ ?_ (Nat.le_refl _) h.keys rfl rfl rfl rfl
  · exact
      { id_lt := hfits.id_lt
        token := fun h => absurd rfl h
        waiting := nofun
        pending := nofun
        ready := hfits.ready
        safe := hfits.safe }
  · intro k w hk _ hreg
    have hnone : (none : Option Nat) ≠ some k := nofun
    exact hreg.others (htoken ▸ hk) hnone _

theorem Linked.remove (h : s.Linked) (hj : s.joiners[i]? = some j)
    (hgone : j.waiterActive = none) : (s.remove i j).Linked := by
  have hfits := h.fits i j hj
  refine h.update hj rfl nofun ?_ ?_ (Nat.le_refl _) (nodup_removeIfSome h.keys j.waiterId) rfl rfl rfl
      rfl
  · exact
      { id_lt := nofun
        token := fun _ => hgone
        waiting := nofun
        pending := nofun
        ready := hfits.ready
        safe := hfits.safe }
  · intro k w hk _ hreg
    have hnone : (none : Option Nat) ≠ some k := nofun
    exact hreg.others hnone hk _

theorem Linked.pollJoin (h : s.Linked) (hj : s.joiners[i]? = some j) {waker : ω}
    (hphase : j.phase = .polling waker) : (s.pollJoin i j waker).Linked := by
  have hfits := h.fits i j hj
  have htoken := hfits.token (by simp [hphase])
  have hkept : j.removed = false := by rw [WorkerJoin.removed, hphase]
  unfold WorkerCompletion.pollJoin
  split
  next outcome houtcome =>
    refine h.update hj rfl nofun ?_ ?_ (Nat.le_refl _) (nodup_removeIfSome h.keys j.waiterId) rfl rfl rfl
      rfl
    · exact
        { id_lt := nofun
          token := fun _ => rfl
          waiting := nofun
          pending := nofun
          ready := fun o ho => by
            cases ho
            exact houtcome
          safe := nofun }
    · intro k w hk _ hreg
      exact hreg.others (htoken ▸ hk) hk _
  next hnone =>
    have hjoining := h.joining.mpr hnone
    split
    next hid =>
      -- a new entry, under an id that no joiner has
      refine h.update hj rfl (fun k hk => ?_) ?_ ?_ (Nat.le_succ _) (nodup_insertWaiter h.keys)
        rfl rfl rfl rfl
      · cases hk
        exact .inr (Nat.le_refl _)
      · exact
          { id_lt := fun k hk => by
              cases hk
              exact Nat.lt_succ_self _
            token := fun _ => rfl
            waiting := fun k hk _ => by
              cases hk
              refine ⟨waker, ⟨rfl, rfl, rfl⟩, .inl ⟨Function.update_self .., .inl ⟨hjoining, ?_⟩⟩⟩
              exact mem_insertWaiter.mpr (.inl rfl)
            pending := fun _ _ => ⟨_, rfl⟩
            ready := nofun
            safe := nofun }
      · rintro k w - hlt (⟨hk, ⟨-, hmem⟩ | ⟨rest, hwaking, -⟩⟩ | hwoken)
        · have hne : k ≠ s.nextWaiterId := Nat.ne_of_lt hlt
          refine .inl ⟨?_, .inl ⟨hjoining, mem_insertWaiter.mpr (.inr ⟨hmem, hne⟩)⟩⟩
          show Function.update s.active s.nextWaiterId true k = true
          rwa [Function.update_of_ne hne]
        · exact nomatch hjoining.symm.trans hwaking
        · exact .inr hwoken
    next id hid =>
      split
      next hgone => exact nomatch hid.symm.trans (htoken.symm.trans hgone)
      next token hactive =>
        obtain ⟨w, hwaits, hreg⟩ := hfits.waiting id hid hkept
        refine h.update hj rfl (fun k hk => .inl hk) ?_ ?_ (Nat.le_refl _)
          (nodup_insertWaiter h.keys) rfl rfl rfl rfl
        · exact
            { id_lt := hfits.id_lt
              token := fun _ => htoken
              waiting := fun k hk _ => by
                obtain rfl : id = k := Option.some.inj (hid.symm.trans hk)
                refine ⟨waker, ⟨rfl, rfl, rfl⟩, ?_⟩
                obtain ⟨hk, -⟩ | hwoken := hreg
                · exact .inl ⟨hk, .inl ⟨hjoining, mem_insertWaiter.mpr (.inl rfl)⟩⟩
                · rw [h.unwoken hnone] at hwoken
                  cases hwoken
              pending := fun _ _ => ⟨id, hid⟩
              ready := nofun
              safe := nofun }
        · rintro k w hk - (⟨hactive, ⟨-, hmem⟩ | ⟨rest, hwaking, -⟩⟩ | hwoken)
          · have hne : k ≠ id := fun heq => hk (heq ▸ hid)
            exact .inl ⟨hactive, .inl ⟨hjoining, mem_insertWaiter.mpr (.inr ⟨hmem, hne⟩)⟩⟩
          · exact nomatch hjoining.symm.trans hwaking
          · exact .inr hwoken

/-! ## What a joiner holds on the threads -/

/-- The threads on which a joiner holds an operation. -/
def held (s : WorkerCompletion ω) (i : Nat) : List Nat :=
  (s.joiners[i]?.map WorkerJoin.liveness).getD []

/-- A joiner that has been polled holds the thread of its poll, until it is ready. -/
structure Holding (j : WorkerJoin ω) : Prop where
  nodup : j.liveness.Nodup
  current : (∃ w, j.phase = .polling w) ∨ j.phase = .idle ∧ j.waiterId.isSome = true →
    ∀ thread, j.current = some thread → thread ∈ j.liveness
  released : j.phase = .dropped ∨ j.phase = .idle ∧ j.waiterId = none → j.liveness = []
  removing : j.phase = .removing → j.waiterActive = none
  cleared : (∃ dropping, j.phase = .clearing dropping) → j.waiterId = none

/-- Every operation that was begun has been finished once, or is held. -/
structure Balanced (s : WorkerCompletion ω) : Prop where
  begun : ∀ i thread, s.begun.count (i, thread) = s.ended.count (i, thread) + (s.held i).count thread
  pendingOps : ∀ thread, s.pendingOps thread = (s.joiners.flatMap WorkerJoin.liveness).count thread
  holding : ∀ (i : Nat) (j : WorkerJoin ω), s.joiners[i]? = some j → Holding j

theorem Balanced.init (parent : Nat) : ({ parent } : WorkerCompletion ω).Balanced where
  begun := by simp [held]
  pendingOps := by simp
  holding := by simp

theorem held_of_getElem? (hj : s.joiners[i]? = some j) : s.held i = j.liveness := by
  rw [held, hj]
  rfl

theorem held_set (hj : s.joiners[i]? = some j) (hjoiners : s'.joiners = s.joiners.set i j')
    (i' : Nat) : s'.held i' = if i' = i then j'.liveness else s.held i' := by
  unfold held
  rw [hjoiners]
  split
  next h => rw [h, Table.getElem?_set_self hj]; rfl
  next h => rw [List.getElem?_set_ne (Ne.symm h)]

/-- One joiner changes, and what it holds with what was begun and finished. -/
theorem Balanced.change (h : s.Balanced) (hj : s.joiners[i]? = some j)
    (hjoiners : s'.joiners = s.joiners.set i j') (hholding : Holding j')
    (hcounts : ∀ i' thread, s'.begun.count (i', thread) + s.ended.count (i', thread) +
        (if i' = i then j.liveness.count thread else 0) =
      s.begun.count (i', thread) + s'.ended.count (i', thread) +
        (if i' = i then j'.liveness.count thread else 0))
    (hpending : ∀ thread, s'.pendingOps thread + j.liveness.count thread =
      s.pendingOps thread + j'.liveness.count thread) : s'.Balanced where
  begun i' thread := by
    have hbegun := h.begun i' thread
    have hcount := hcounts i' thread
    rw [held_set hj hjoiners]
    by_cases heq : i' = i
    · rw [heq, held_of_getElem? hj] at hbegun
      rw [if_pos heq] at hcount ⊢
      rw [if_pos heq, heq] at hcount
      rw [heq]
      omega
    · rw [if_neg heq] at hcount ⊢
      rw [if_neg heq] at hcount
      omega
  pendingOps thread := by
    have hcount := Counting.count_flatMap_set WorkerJoin.liveness thread j' hj
    have hold := h.pendingOps thread
    have hnew := hpending thread
    rw [hjoiners]
    omega
  holding i' j₂ hj₂ := by
    rw [hjoiners] at hj₂
    obtain ⟨rfl, rfl⟩ | ⟨hne, hold⟩ := (Table.getElem?_set_eq_some hj).mp hj₂
    · exact hholding
    · exact h.holding i' j₂ hold

theorem Balanced.keep (h : s.Balanced) (hj : s.joiners[i]? = some j)
    (hjoiners : s'.joiners = s.joiners.set i j') (hliveness : j'.liveness = j.liveness)
    (hholding : Holding j') (hbegun : s'.begun = s.begun) (hended : s'.ended = s.ended)
    (hpending : s'.pendingOps = s.pendingOps) : s'.Balanced := by
  refine h.change hj hjoiners hholding (fun i' thread => ?_) fun thread => ?_
  · rw [hbegun, hended, hliveness]
  · rw [hpending, hliveness]

theorem Balanced.poll (h : s.Balanced) (hj : s.joiners[i]? = some j)
    (current : Option Nat) (waker : ω) : (s.poll i j current waker).Balanced := by
  have hholding := h.holding i j hj
  have hpolling : ∀ (liveness : List Nat), liveness.Nodup →
      (∀ thread, current = some thread → thread ∈ liveness) →
      Holding { j with current, phase := .polling waker, liveness } :=
    fun liveness hnodup hmem => ⟨hnodup, fun _ => hmem, by simp, nofun, by simp⟩
  unfold WorkerCompletion.poll
  split
  next thread =>
    split
    next hmem =>
      refine h.keep hj rfl rfl (hpolling _ hholding.nodup ?_) rfl rfl rfl
      rintro _ ⟨⟩
      exact hmem
    next hnew =>
      have hnodup : (j.liveness ++ [thread]).Nodup := List.nodup_append.mpr
        ⟨hholding.nodup, List.nodup_singleton _, by
          rintro a ha b hb rfl
          exact hnew (List.mem_singleton.mp hb ▸ ha)⟩
      refine h.change hj rfl (hpolling _ hnodup ?_) (fun i' th => ?_) fun th => ?_
      · rintro _ ⟨⟩
        simp
      · show (s.begun ++ [(i, thread)]).count (i', th) + s.ended.count (i', th) + _ =
          s.begun.count (i', th) + s.ended.count (i', th) +
            if i' = i then (j.liveness ++ [thread]).count th else 0
        rw [List.count_append, List.count_append, List.count_singleton, List.count_singleton]
        by_cases hi : i' = i
        · by_cases hth : th = thread
          · simp [hi, hth]
            omega
          · simp [hi, Ne.symm hth]
        · simp [hi, Ne.symm hi]
      · show Function.update s.pendingOps thread (s.pendingOps thread + 1) th + _ =
          s.pendingOps th + (j.liveness ++ [thread]).count th
        rw [List.count_append, List.count_singleton]
        by_cases hth : th = thread
        · subst hth
          simp
          omega
        · rw [Function.update_of_ne hth]
          simp [Ne.symm hth]
  next => exact h.keep hj rfl rfl (hpolling _ hholding.nodup nofun) rfl rfl rfl

theorem Balanced.clearNext (h : s.Balanced) (hj : s.joiners[i]? = some j) {dropping : Bool}
    (hphase : j.phase = .clearing dropping) : (s.clearNext i j dropping).Balanced := by
  have hholding := h.holding i j hj
  have hcleared := hholding.cleared ⟨dropping, hphase⟩
  unfold WorkerCompletion.clearNext
  split
  next thread rest hliveness =>
    have hnodup : (thread :: rest).Nodup := hliveness ▸ hholding.nodup
    have hholding' : Holding { j with liveness := rest } :=
      ⟨(List.nodup_cons.mp hnodup).2, by simp [hphase], by simp [hphase], by simp [hphase],
        fun _ => hcleared⟩
    have hpos : 0 < s.pendingOps thread := by
      rw [h.pendingOps thread, List.count_pos_iff, List.mem_flatMap]
      exact ⟨j, List.mem_of_getElem? hj, by simp [hliveness]⟩
    refine h.change hj rfl hholding' (fun i' th => ?_) fun th => ?_
    · show s.begun.count (i', th) + s.ended.count (i', th) + _ =
        s.begun.count (i', th) + (s.ended ++ [(i, thread)]).count (i', th) +
          if i' = i then rest.count th else 0
      rw [hliveness, List.count_append, List.count_singleton, List.count_cons]
      by_cases hi : i' = i
      · by_cases hth : th = thread
        · simp [hi, hth]
          omega
        · simp [hi, Ne.symm hth]
      · simp [hi, Ne.symm hi]
    · show Function.update s.pendingOps thread (s.pendingOps thread - 1) th + _ =
        s.pendingOps th + rest.count th
      rw [hliveness, List.count_cons]
      by_cases hth : th = thread
      · subst hth
        simp
        omega
      · rw [Function.update_of_ne hth]
        simp [Ne.symm hth]
  next hnil =>
    refine h.keep hj rfl rfl ?_ rfl rfl rfl
    cases dropping with
    | false => exact ⟨hholding.nodup, by simp [hcleared], fun _ => hnil, nofun, by simp⟩
    | true => exact ⟨hholding.nodup, by simp, fun _ => hnil, nofun, by simp⟩

theorem Balanced.pollJoin (h : s.Balanced) (hj : s.joiners[i]? = some j) {waker : ω}
    (hphase : j.phase = .polling waker) : (s.pollJoin i j waker).Balanced := by
  have hholding := h.holding i j hj
  have hcurrent := hholding.current (.inl ⟨waker, hphase⟩)
  unfold WorkerCompletion.pollJoin
  split
  next =>
    exact h.keep hj rfl rfl ⟨hholding.nodup, by simp, by simp, nofun, fun _ => rfl⟩ rfl rfl rfl
  next =>
    split
    next =>
      exact h.keep hj rfl rfl ⟨hholding.nodup, fun _ => hcurrent, by simp, nofun, by simp⟩
        rfl rfl rfl
    next id hid =>
      have hidle : ∀ j' : WorkerJoin ω, j'.phase = .idle → j'.waiterId = j.waiterId →
          j'.liveness = j.liveness → j'.current = j.current → Holding j' := by
        intro j' hp hw hl hc
        refine ⟨hl ▸ hholding.nodup, fun _ => ?_, by simp [hp, hw, hid], by simp [hp], by simp [hp]⟩
        rw [hl, hc]
        exact hcurrent
      split
      next => exact h.keep hj rfl rfl (hidle _ rfl rfl rfl rfl) rfl rfl rfl
      next => exact h.keep hj rfl rfl (hidle _ rfl rfl rfl rfl) rfl rfl rfl

theorem Balanced.drop (h : s.Balanced) (hj : s.joiners[i]? = some j) (current : Option Nat) :
    (s.drop i j current).Balanced :=
  h.keep hj rfl rfl ⟨(h.holding i j hj).nodup, by simp, by simp, fun _ => rfl, by simp⟩ rfl rfl rfl

theorem Balanced.remove (h : s.Balanced) (hj : s.joiners[i]? = some j) :
    (s.remove i j).Balanced :=
  h.keep hj rfl rfl ⟨(h.holding i j hj).nodup, by simp, by simp, nofun, fun _ => rfl⟩ rfl rfl rfl

theorem Balanced.goesOn (h : s.Balanced) (hjoiners : s'.joiners = s.joiners)
    (hbegun : s'.begun = s.begun) (hended : s'.ended = s.ended)
    (hpending : s'.pendingOps = s.pendingOps) : s'.Balanced where
  begun := by
    unfold held
    rw [hbegun, hended, hjoiners]
    exact h.begun
  pendingOps := by
    rw [hpending, hjoiners]
    exact h.pendingOps
  holding := by
    rw [hjoiners]
    exact h.holding

theorem Balanced.join (h : s.Balanced) : Balanced { s with joiners := s.joiners ++ [{}] } where
  begun i thread := by
    rw [h.begun i thread]
    congr 1
    unfold held
    show _ = (((s.joiners ++ [({} : WorkerJoin ω)])[i]?.map WorkerJoin.liveness).getD []).count thread
    cases hold : s.joiners[i]? with
    | some j =>
        rw [Table.getElem?_concat_eq_some.mpr (.inl hold)]
    | none =>
        cases hnew : (s.joiners ++ [({} : WorkerJoin ω)])[i]? with
        | none => rfl
        | some j =>
            obtain hsome | ⟨-, rfl⟩ := Table.getElem?_concat_eq_some.mp hnew
            · exact nomatch hold.symm.trans hsome
            · rfl
  pendingOps thread := by
    rw [h.pendingOps thread]
    simp
  holding i j hj := by
    obtain hold | ⟨-, rfl⟩ := Table.getElem?_concat_eq_some.mp hj
    · exact h.holding i j hold
    · exact ⟨.nil, nofun, fun _ => rfl, nofun, fun _ => rfl⟩

/-! ## Runs -/

theorem step_invariant {a : Action ω} (h : s.Linked ∧ s.Balanced) (hstep : s.step a = some s') :
    s'.Linked ∧ s'.Balanced := by
  obtain ⟨hlinked, hbalanced⟩ := h
  cases a with
  | join =>
      cases hstep
      exact ⟨hlinked.join, hbalanced.join⟩
  | poll joiner current waker =>
      obtain ⟨j, hj, hstep⟩ := Option.bind_eq_some_iff.mp hstep
      split at hstep
      next hidle =>
        cases hstep
        exact ⟨hlinked.poll hj hidle current waker, hbalanced.poll hj current waker⟩
      next => cases hstep
  | drop joiner current =>
      obtain ⟨j, hj, hstep⟩ := Option.bind_eq_some_iff.mp hstep
      split at hstep
      next hidle =>
        cases hstep
        exact ⟨hlinked.drop hj hidle current, hbalanced.drop hj current⟩
      next => cases hstep
  | joinerStep joiner =>
      obtain ⟨j, hj, hstep⟩ := Option.bind_eq_some_iff.mp hstep
      unfold joinerStep at hstep
      split at hstep
      next waker hphase =>
        cases hstep
        exact ⟨hlinked.pollJoin hj hphase, hbalanced.pollJoin hj hphase⟩
      next hphase =>
        cases hstep
        exact ⟨hlinked.remove hj ((hbalanced.holding _ j hj).removing hphase),
          hbalanced.remove hj⟩
      next dropping hphase =>
        cases hstep
        exact ⟨hlinked.clearNext hj hphase, hbalanced.clearNext hj hphase⟩
      next => cases hstep
      next => cases hstep
  | record outcome =>
      simp only [step] at hstep
      split at hstep
      next =>
        cases hstep
        exact ⟨hlinked.record outcome, hbalanced.goesOn rfl rfl rfl rfl⟩
      next => cases hstep
  | publish threadPanicked =>
      simp only [step] at hstep
      split at hstep
      next hreaper =>
        cases hstep
        exact ⟨hlinked.publish hreaper threadPanicked, hbalanced.goesOn rfl rfl rfl rfl⟩
      next => cases hstep
  | wakeNext panics =>
      refine ⟨hlinked.wakeNext hstep, ?_⟩
      simp only [step, wakeNext] at hstep
      split at hstep
      next =>
        split at hstep
        · cases hstep
          exact hbalanced.goesOn rfl rfl rfl rfl
        · cases hstep
          exact hbalanced.goesOn rfl rfl rfl rfl
      next =>
        cases hstep
        exact hbalanced.goesOn rfl rfl rfl rfl
      next => cases hstep

theorem invariant_of_reachable (hreach : s.Reachable) : s.Linked ∧ s.Balanced := by
  obtain ⟨parent, hreach⟩ := hreach
  exact hreach.invariant (fun s => s.Linked ∧ s.Balanced) ⟨.init parent, .init parent⟩
    fun _ _ _ h _ hstep => step_invariant h hstep

theorem outcome_step {a : Action ω} {outcome : WorkerOutcome} (h : s.Linked)
    (houtcome : s.outcome = some outcome) (hstep : s.step a = some s') :
    s'.outcome = some outcome := by
  cases a with
  | join =>
      cases hstep
      exact houtcome
  | poll joiner current waker =>
      obtain ⟨j, -, hstep⟩ := Option.bind_eq_some_iff.mp hstep
      split at hstep
      next =>
        cases hstep
        unfold WorkerCompletion.poll
        split
        · split <;> exact houtcome
        · exact houtcome
      next => cases hstep
  | drop joiner current =>
      obtain ⟨j, -, hstep⟩ := Option.bind_eq_some_iff.mp hstep
      split at hstep
      next =>
        cases hstep
        exact houtcome
      next => cases hstep
  | joinerStep joiner =>
      obtain ⟨j, -, hstep⟩ := Option.bind_eq_some_iff.mp hstep
      unfold joinerStep at hstep
      split at hstep
      next =>
        cases hstep
        unfold WorkerCompletion.pollJoin
        split
        next => exact houtcome
        next hnone => exact nomatch hnone.symm.trans houtcome
      next =>
        cases hstep
        exact houtcome
      next =>
        cases hstep
        unfold WorkerCompletion.clearNext
        split <;> exact houtcome
      next => cases hstep
      next => cases hstep
  | record =>
      simp only [step] at hstep
      split at hstep
      next =>
        cases hstep
        exact houtcome
      next => cases hstep
  | publish =>
      simp only [step] at hstep
      split at hstep
      next hreaper => exact nomatch (h.joining.mp hreaper).symm.trans houtcome
      next => cases hstep
  | wakeNext panics =>
      simp only [step, wakeNext] at hstep
      split at hstep
      next =>
        split at hstep <;>
        · cases hstep
          exact houtcome
      next =>
        cases hstep
        exact houtcome
      next => cases hstep

theorem outcome_run {outcome : WorkerOutcome} (h : s.Linked ∧ s.Balanced)
    (houtcome : s.outcome = some outcome)
    (hrun : Transition.Reachable step (fun _ _ => True) s s') : s'.outcome = some outcome := by
  refine (hrun.invariant (fun s => (s.Linked ∧ s.Balanced) ∧ s.outcome = some outcome)
    ⟨h, houtcome⟩ fun _ _ _ h _ hstep => ?_).2
  exact ⟨step_invariant h.1 hstep, outcome_step h.1.1 h.2 hstep⟩

/-- A joiner that waits is registered with the waker of its last poll. -/
theorem Linked.waits (h : s.Linked) (hj : s.joiners[i]? = some j) (hwaits : j.Waits w) :
    ∃ k, j.waiterId = some k ∧ s.Registered k w := by
  obtain ⟨k, hk⟩ := (h.fits i j hj).pending hwaits.answer hwaits.kept
  obtain ⟨w', hwaits', hregistered⟩ := (h.fits i j hj).waiting k hk hwaits.kept
  obtain rfl : w = w' := Option.some.inj (hwaits.waker.symm.trans hwaits'.waker)
  exact ⟨k, hk, hregistered⟩

/-- A poll after the publication answers with the outcome. -/
theorem pollJoin_published {outcome : WorkerOutcome} (hj : s.joiners[i]? = some j)
    (houtcome : s.outcome = some outcome) (w : ω) :
    ∃ j', (s.pollJoin i j w).joiners[i]? = some j' ∧ j'.answer = some (.ready outcome) := by
  unfold WorkerCompletion.pollJoin
  rw [houtcome]
  exact ⟨_, Table.getElem?_set_self hj, rfl⟩

/-- In every run: a joiner whose last poll was pending and that has not been dropped is
in the map of waiters until the publication, with the waker of that poll, then in the
list that the reaper wakes, and woken when the reaper is through, whatever wakers have
panicked on the way.  The outcome that was published stays, every later poll answers with
it, and no poll answers anything else.  An operation that was begun on a thread is
finished once or held, by a joiner at most once for each thread; a joiner that waits holds
the thread of its last poll, and one that is ready or dropped holds none. -/
theorem worker_joined_of_reachable (s : WorkerCompletion ω) (hreach : s.Reachable) :
    (∀ (i : Nat) (j : WorkerJoin ω) w, s.joiners[i]? = some j → j.Waits w → ∃ k, j.waiterId = some k ∧
      (s.outcome = none → (k, w) ∈ s.waiters ∧ s.active k = true) ∧
      (∀ rest, s.reaper = .waking rest →
        (k, w) ∈ s.woken ∨ (k, w) ∈ rest ∧ s.active k = true) ∧
      (s.reaper = .done → (k, w) ∈ s.woken)) ∧
    (∀ outcome, s.outcome = some outcome → s.finished = true ∧
      (∀ s', Transition.Reachable step (fun _ _ => True) s s' → s'.outcome = some outcome) ∧
      ∀ (i : Nat) (j : WorkerJoin ω) w, s.joiners[i]? = some j → j.phase = .polling w →
        ∃ s' j', s.step (.joinerStep i) = some s' ∧ s'.joiners[i]? = some j' ∧
          j'.answer = some (.ready outcome)) ∧
    (∀ (i : Nat) (j : WorkerJoin ω), s.joiners[i]? = some j → j.answer ≠ some .panics ∧
      ∀ outcome, j.answer = some (.ready outcome) → s.outcome = some outcome) ∧
    (∀ i thread, s.begun.count (i, thread) =
        s.ended.count (i, thread) + (s.held i).count thread ∧ (s.held i).count thread ≤ 1) ∧
    (∀ thread, s.pendingOps thread = (s.joiners.flatMap WorkerJoin.liveness).count thread) ∧
    ∀ (i : Nat) (j : WorkerJoin ω), s.joiners[i]? = some j →
      (∀ w thread, j.Waits w → j.phase = .idle → j.current = some thread →
        thread ∈ s.held i) ∧
      (j.phase = .dropped ∨ (j.phase = .idle ∧ ∃ outcome, j.answer = some (.ready outcome)) →
        s.held i = []) := by
  obtain ⟨hlinked, hbalanced⟩ := invariant_of_reachable hreach
  refine ⟨?_, ?_, ?_, ?_, hbalanced.pendingOps, ?_⟩
  · intro i j w hj hwaits
    obtain ⟨k, hk, hregistered⟩ := hlinked.waits hj hwaits
    refine ⟨k, hk, fun hnone => ?_, fun rest hwaking => ?_, fun hdone => ?_⟩
    · obtain ⟨hactive, ⟨-, hmem⟩ | ⟨rest, hwaking, -⟩⟩ | hwoken := hregistered
      · exact ⟨hmem, hactive⟩
      · exact nomatch (hlinked.joining.mpr hnone).symm.trans hwaking
      · rw [hlinked.unwoken hnone] at hwoken
        cases hwoken
    · obtain ⟨hactive, ⟨hjoining, -⟩ | ⟨rest', hwaking', hmem⟩⟩ | hwoken := hregistered
      · exact nomatch hwaking.symm.trans hjoining
      · cases hwaking.symm.trans hwaking'
        exact .inr ⟨hmem, hactive⟩
      · exact .inl hwoken
    · obtain ⟨-, ⟨hjoining, -⟩ | ⟨rest', hwaking', -⟩⟩ | hwoken := hregistered
      · exact nomatch hdone.symm.trans hjoining
      · exact nomatch hdone.symm.trans hwaking'
      · exact hwoken
  · intro outcome houtcome
    refine ⟨by rw [hlinked.finished, houtcome]; rfl, fun s' => outcome_run ⟨hlinked, hbalanced⟩ houtcome,
      fun i j w hj hphase => ?_⟩
    obtain ⟨j', hj', hanswer⟩ := pollJoin_published hj houtcome w
    exact ⟨s.pollJoin i j w, j', by rw [step, hj, Option.bind_some, joinerStep, hphase], hj', hanswer⟩
  · exact fun i j hj => ⟨(hlinked.fits i j hj).safe, (hlinked.fits i j hj).ready⟩
  · refine fun i thread => ⟨hbalanced.begun i thread, ?_⟩
    cases hj : s.joiners[i]? with
    | none => simp [held, hj]
    | some j =>
        rw [held_of_getElem? hj]
        exact List.nodup_iff_count_le_one.mp (hbalanced.holding i j hj).nodup thread
  · intro i j hj
    have hholding := hbalanced.holding i j hj
    rw [held_of_getElem? hj]
    refine ⟨fun w thread hwaits hidle hcurrent => ?_, fun hend => hholding.released ?_⟩
    · obtain ⟨k, hk, -⟩ := hlinked.waits hj hwaits
      exact hholding.current (.inr ⟨hidle, by rw [hk]; rfl⟩) thread hcurrent
    · obtain hdropped | ⟨hidle, outcome, hready⟩ := hend
      · exact .inl hdropped
      · refine .inr ⟨hidle, ?_⟩
        cases hid : j.waiterId with
        | none => rfl
        | some k =>
            have hkept : j.removed = false := by rw [WorkerJoin.removed, hidle]
            obtain ⟨w, hwaits, -⟩ := (hlinked.fits i j hj).waiting k hid hkept
            exact nomatch hready.symm.trans hwaits.answer

def isDone : ReaperPhase Nat → Bool
  | .done => true
  | _ => false

def isPending : JoinAnswer → Bool
  | .pending => true
  | _ => false

/-- A joiner on thread 3 is polled twice and another one is dropped before the worker
exits; the reaper wakes the second waker of the first, which panics. -/
theorem worker_joined_run :
    ∃ s : WorkerCompletion Nat, s.Reachable ∧ (1, 8) ∈ s.woken ∧ s.pendingOps 3 = 1 ∧
      s.begun.count (1, 4) = s.ended.count (1, 4) + (s.held 1).count 4 := by
  obtain ⟨s, hreach, hp⟩ := Transition.Reachable.exists_of_run step (fun _ _ => True)
    ({} : WorkerCompletion Nat)
    [.join, .join, .poll 0 (some 3) 7, .joinerStep 0, .poll 1 (some 4) 9, .joinerStep 1,
      .record (.ok ()), .poll 0 (some 3) 8, .joinerStep 0, .drop 1 (some 4), .joinerStep 1,
      .publish false, .wakeNext true, .joinerStep 1, .joinerStep 1, .wakeNext false]
    (fun s => isDone s.reaper && decide (s.pendingOps 3 = 1) &&
      s.joiners.map (fun j => (j.waiterId, j.waker, j.removed)) ==
        [(some 1, some 8, false), (none, some 9, true)] &&
      (s.joiners.head?.bind WorkerJoin.answer).any isPending)
    (by simp) (by decide)
  have hreach' : s.Reachable := ⟨0, hreach⟩
  obtain ⟨hwoken, -, -, hcounts, -⟩ := worker_joined_of_reachable s hreach'
  simp only [Bool.and_eq_true, decide_eq_true_eq, beq_iff_eq] at hp
  obtain ⟨⟨⟨hdone, hpending⟩, hjoiners⟩, hanswer⟩ := hp
  have hreaper : s.reaper = .done := by
    unfold isDone at hdone
    split at hdone
    next h => exact h
    next => cases hdone
  obtain ⟨j, rest, hlist⟩ : ∃ j rest, s.joiners = j :: rest :=
    List.exists_cons_of_ne_nil fun hnil => by rw [hnil] at hjoiners; cases hjoiners
  rw [hlist] at hjoiners hanswer
  injection hjoiners with hfirst
  obtain ⟨hid, hwaker, hkept⟩ : j.waiterId = some 1 ∧ j.waker = some 8 ∧ j.removed = false := by
    simpa using hfirst
  have hpendingAnswer : j.answer = some .pending := by
    cases h : j.answer with
    | none => simp [h] at hanswer
    | some answer => cases answer <;> simp [h, isPending] at hanswer ⊢
  obtain ⟨k, hk, -, -, hend⟩ := hwoken 0 j 8 (by rw [hlist]; rfl) ⟨hpendingAnswer, hwaker, hkept⟩
  obtain rfl : 1 = k := Option.some.inj (hid.symm.trans hk)
  exact ⟨s, hreach', hend hreaper, hpending, (hcounts 1 4).1⟩

end WorkerCompletion

end Runite.Runtime
