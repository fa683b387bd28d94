import Runite.Channel.WatchUpdates

/-!
# No receiver waits for nothing

A receiver that waits is registered, or its completion was collected by an update that has
yet to fire it, or its completion has a result.  Completions and waiters are those of one
receiver each, so what another one gives up is not what this one waits for.
-/

namespace Runite.Channel.Watch

open Mpsc (Cell)
open SwapRemove

variable {α : Type}

/-- The wait of a receiver, or the one whose cancel callback is to run. -/
def Receiver.ticket (r : Receiver) : Option Wait :=
  match r.phase with
  | .cancelling handle waiterId => some ⟨handle, some waiterId⟩
  | .dropped => none
  | _ => r.wait

theorem Receiver.ticket_of_live {r : Receiver} (h : r.phase = .live) : r.ticket = r.wait := by
  simp [ticket, h]

namespace System

variable {s s' : System α} {r : Receiver}

/-- A completion is registered, or was collected. -/
def Promised (s : System α) (handle : Nat) : Prop :=
  (∃ w ∈ s.book.waiters, w.handle = handle) ∨ (∃ handles ∈ s.loading, handle ∈ handles) ∨
    ∃ result, (handle, result) ∈ s.firing

structure Parked (s : System α) : Prop where
  parked : ∀ (i : Nat) (r : Receiver) (wait : Wait), s.receivers[i]? = some r →
    r.phase = .live → r.wait = some wait → (s.cells wait.handle).Awaited ∧
      ((s.cells wait.handle).result ≠ none ∨ s.Promised wait.handle)
  issued : ∀ (i : Nat) (r : Receiver) (wait : Wait), s.receivers[i]? = some r →
    r.ticket = some wait → wait.handle < s.nextCell
  apart : ∀ (i j : Nat) (r r' : Receiver) (wait wait' : Wait), s.receivers[i]? = some r →
    s.receivers[j]? = some r' → r.ticket = some wait → r'.ticket = some wait' →
    wait.handle = wait'.handle → i = j
  listed : ∀ w ∈ s.book.waiters, w.id < s.book.nextWaiterId
  own : ∀ (i : Nat) (r : Receiver) (wait : Wait) (waiterId : Nat), s.receivers[i]? = some r →
    r.ticket = some wait → wait.waiterId = some waiterId →
    waiterId < s.book.nextWaiterId ∧
      ∀ w ∈ s.book.waiters, w.id = waiterId → w.handle = wait.handle

namespace Parked

theorem init (value : α) : Parked ({ value } : System α) := by
  have hnone {i : Nat} {r : Receiver} (hr : ([{ version := 0 }] : List Receiver)[i]? = some r) :
      r.ticket = none ∧ r.wait = none := by
    obtain rfl : r = { version := 0 } := by
      have hmem := List.mem_of_getElem? hr
      simpa using hmem
    exact ⟨rfl, rfl⟩
  constructor
  · intro i r wait hr _ hwait
    simp [(hnone hr).2] at hwait
  · intro i r wait hr hticket
    simp [(hnone hr).1] at hticket
  · intro i j r r' wait wait' hr _ hticket
    simp [(hnone hr).1] at hticket
  · simp
  · intro i r wait waiterId hr hticket
    simp [(hnone hr).1] at hticket

/-! ### Steps of the senders -/

/-- Receivers and completions stay, and what is promised stays promised. -/
theorem of_promised (h : Parked s) (hreceivers : s'.receivers = s.receivers)
    (hcells : s'.cells = s.cells) (hnext : s'.nextCell = s.nextCell)
    (hid : s'.book.nextWaiterId = s.book.nextWaiterId)
    (hwaiters : ∀ w ∈ s'.book.waiters, w ∈ s.book.waiters)
    (hpromised : ∀ handle, s.Promised handle → s'.Promised handle) : Parked s' where
  parked := by
    rw [hreceivers, hcells]
    intro i r wait hr hlive hwait
    obtain ⟨hawaited, hrest⟩ := h.parked i r wait hr hlive hwait
    exact ⟨hawaited, hrest.imp_right (hpromised _)⟩
  issued := by
    rw [hreceivers, hnext]
    exact h.issued
  apart := by
    rw [hreceivers]
    exact h.apart
  listed := by
    rw [hid]
    exact fun w hw => h.listed w (hwaiters w hw)
  own := by
    rw [hreceivers, hid]
    intro i r wait waiterId hr hticket heq
    obtain ⟨hlt, hown⟩ := h.own i r wait waiterId hr hticket heq
    exact ⟨hlt, fun w hw => hown w (hwaiters w hw)⟩

theorem wake (h : Parked s) {index : Nat} (hwake : s.wake index = some s') : Parked s' := by
  obtain ⟨version, -, rfl⟩ := Option.map_eq_some_iff.mp hwake
  have hperm := (takeReady_spec (Book.behind version) s.book.waiters).1
  refine h.of_promised rfl rfl rfl rfl (fun w hw => mem_of_mem_takeReady_rest hw) ?_
  rintro handle (⟨w, hw, rfl⟩ | ⟨handles, hhandles, hmem⟩ | hfiring)
  · obtain hready | hrest := List.mem_append.mp (hperm.mem_iff.mpr hw)
    · obtain ⟨p, hp, rfl⟩ := List.mem_map.mp hready
      exact Or.inr (Or.inl ⟨_, List.mem_append_right _ (List.mem_singleton_self _),
        List.mem_map.mpr ⟨p, hp, rfl⟩⟩)
    · exact Or.inl ⟨w, hrest, rfl⟩
  · exact Or.inr (Or.inl ⟨handles, List.mem_append_left _ hhandles, hmem⟩)
  · exact Or.inr (Or.inr hfiring)

theorem load (h : Parked s) {index : Nat} (hload : s.load index = some s') : Parked s' := by
  obtain ⟨loaded, hloaded, rfl⟩ := Option.map_eq_some_iff.mp hload
  obtain ⟨hlt, hget⟩ := List.getElem?_eq_some_iff.mp hloaded
  refine h.of_promised rfl rfl rfl rfl (fun _ hw => hw) ?_
  rintro handle (hwaiter | ⟨handles, hhandles, hmem⟩ | ⟨result, hfiring⟩)
  · exact Or.inl hwaiter
  · have hperm := (List.getElem_cons_eraseIdx_perm hlt).mem_iff.mpr hhandles
    rw [hget] at hperm
    obtain rfl | hrest := List.mem_cons.mp hperm
    · exact Or.inr (Or.inr ⟨.ok s.version,
        List.mem_append_right _ (List.mem_map.mpr ⟨handle, hmem, rfl⟩)⟩)
    · exact Or.inr (Or.inl ⟨handles, hrest, hmem⟩)
  · exact Or.inr (Or.inr ⟨result, List.mem_append_left _ hfiring⟩)

theorem dropSender (h : Parked s) : Parked s.dropSender := by
  unfold System.dropSender Book.closeSender
  split
  next => exact h.of_promised rfl rfl rfl rfl (fun _ hw => hw) fun _ hpromised => hpromised
  next =>
    split
    next =>
      -- the last sender collects everyone
      refine h.of_promised rfl rfl rfl rfl (by simp) ?_
      rintro handle (⟨w, hw, rfl⟩ | hloading | ⟨result, hfiring⟩)
      · exact Or.inr (Or.inr ⟨.error .closed, List.mem_append_right _
          (List.mem_map.mpr ⟨w.handle, List.mem_map_of_mem hw, rfl⟩)⟩)
      · exact Or.inr (Or.inl hloading)
      · exact Or.inr (Or.inr ⟨result, List.mem_append_left _ hfiring⟩)
    next =>
      refine h.of_promised rfl rfl rfl rfl (fun _ hw => hw) ?_
      rintro handle (hwaiter | hloading | ⟨result, hfiring⟩)
      · exact Or.inl hwaiter
      · exact Or.inr (Or.inl hloading)
      · exact Or.inr (Or.inr ⟨result, List.mem_append_left _ hfiring⟩)

theorem fire (h : Parked s) {index : Nat} (hfire : s.fire index = some s') : Parked s' := by
  obtain ⟨⟨fired, result⟩, hfired, rfl⟩ := Option.map_eq_some_iff.mp hfire
  obtain ⟨hlt, hget⟩ := List.getElem?_eq_some_iff.mp hfired
  refine { h with parked := ?_ }
  intro i r wait hr hlive hwait
  obtain ⟨hawaited, hrest⟩ := h.parked i r wait hr hlive hwait
  by_cases heq : wait.handle = fired
  · simp only [heq, Function.update_self]
    rw [heq] at hawaited
    exact ⟨hawaited.complete result, Or.inl (hawaited.result_complete_ne_none result)⟩
  · simp only [Function.update_of_ne heq]
    refine ⟨hawaited, hrest.imp_right ?_⟩
    rintro (hwaiter | hloading | ⟨other, hfiring⟩)
    · exact Or.inl hwaiter
    · exact Or.inr (Or.inl hloading)
    · have hperm := (List.getElem_cons_eraseIdx_perm hlt).mem_iff.mpr hfiring
      rw [hget] at hperm
      obtain hsame | hleft := List.mem_cons.mp hperm
      · exact absurd (congrArg Prod.fst hsame) heq
      · exact Or.inr (Or.inr ⟨other, hleft⟩)

/-! ### Steps of the receivers -/

theorem addReceiver (h : Parked s) (version : Nat) : Parked (s.addReceiver version) := by
  -- a new receiver has no wait
  have hold {i : Nat} {r : Receiver} {wait : Wait}
      (hr : (s.addReceiver version).receivers[i]? = some r) (hticket : r.ticket = some wait) :
      s.receivers[i]? = some r := by
    obtain hold | ⟨-, rfl⟩ := Table.getElem?_concat_eq_some.mp hr
    · exact hold
    · cases hticket
  constructor
  · intro i r wait hr hlive hwait
    exact h.parked i r wait (hold hr ((r.ticket_of_live hlive).trans hwait)) hlive hwait
  · intro i r wait hr hticket
    exact h.issued i r wait (hold hr hticket) hticket
  · intro i j r r' wait wait' hr hr' hticket hticket'
    exact h.apart i j r r' wait wait' (hold hr hticket) (hold hr' hticket') hticket hticket'
  · exact h.listed
  · intro i r wait waiterId hr hticket
    exact h.own i r wait waiterId (hold hr hticket) hticket

/-- A receiver stops waiting, and only its own completion is touched. -/
theorem settle (h : Parked s) {index : Nat} (hr : s.receivers[index]? = some r) {r' : Receiver}
    {cells : Nat → Cell (Except RecvError Nat)}
    (hticket : ∀ wait, r'.ticket = some wait → r.ticket = some wait)
    (hlive : r'.phase = .live → r'.wait = none)
    (hcells : ∀ handle, (∀ wait, r.ticket = some wait → wait.handle ≠ handle) →
      cells handle = s.cells handle) :
    Parked { s.setReceiver index r' with cells } := by
  have hback {i : Nat} {r₁ : Receiver} {wait : Wait}
      (hr₁ : (s.receivers.set index r')[i]? = some r₁) (hticket₁ : r₁.ticket = some wait) :
      ∃ r₀, s.receivers[i]? = some r₀ ∧ r₀.ticket = some wait := by
    obtain ⟨rfl, rfl⟩ | ⟨-, hold⟩ := (Table.getElem?_set_eq_some hr).mp hr₁
    · exact ⟨r, hr, hticket wait hticket₁⟩
    · exact ⟨r₁, hold, hticket₁⟩
  constructor
  · intro i r₁ wait hr₁ hlive₁ hwait
    obtain ⟨-, rfl⟩ | ⟨hne, hold⟩ := (Table.getElem?_set_eq_some hr).mp hr₁
    · simp [hlive hlive₁] at hwait
    · have hcell : cells wait.handle = s.cells wait.handle := by
        refine hcells wait.handle fun wait' hticket' heq => ?_
        have hticket₁ := (r₁.ticket_of_live hlive₁).trans hwait
        exact hne (h.apart i index r₁ r wait wait' hold hr hticket₁ hticket' heq.symm)
      obtain ⟨hawaited, hrest⟩ := h.parked i r₁ wait hold hlive₁ hwait
      rw [← hcell] at hawaited hrest
      exact ⟨hawaited, hrest⟩
  · intro i r₁ wait hr₁ hticket₁
    obtain ⟨r₀, hr₀, hticket₀⟩ := hback hr₁ hticket₁
    exact h.issued i r₀ wait hr₀ hticket₀
  · intro i j r₁ r₂ wait wait' hr₁ hr₂ hticket₁ hticket₂
    obtain ⟨r₀, hr₀, hticket₀⟩ := hback hr₁ hticket₁
    obtain ⟨r₀', hr₀', hticket₀'⟩ := hback hr₂ hticket₂
    exact h.apart i j r₀ r₀' wait wait' hr₀ hr₀' hticket₀ hticket₀'
  · exact h.listed
  · intro i r₁ wait waiterId hr₁ hticket₁
    obtain ⟨r₀, hr₀, hticket₀⟩ := hback hr₁ hticket₁
    exact h.own i r₀ wait waiterId hr₀ hticket₀

theorem borrowAndUpdate (h : Parked s) {index : Nat} (hr : s.receivers[index]? = some r) :
    Parked (s.setReceiver index { r with version := s.version }) := by
  -- a receiver has the wait that it had
  have hback {i : Nat} {r₁ : Receiver}
      (hr₁ : (s.receivers.set index { r with version := s.version })[i]? = some r₁) :
      ∃ r₀, s.receivers[i]? = some r₀ ∧ r₀.phase = r₁.phase ∧ r₀.wait = r₁.wait ∧
        r₀.ticket = r₁.ticket := by
    obtain ⟨rfl, rfl⟩ | ⟨-, hold⟩ := (Table.getElem?_set_eq_some hr).mp hr₁
    · exact ⟨r, hr, rfl, rfl, rfl⟩
    · exact ⟨r₁, hold, rfl, rfl, rfl⟩
  constructor
  · intro i r₁ wait hr₁ hlive hwait
    obtain ⟨r₀, hr₀, hphase, hsame, -⟩ := hback hr₁
    exact h.parked i r₀ wait hr₀ (hphase.trans hlive) (hsame.trans hwait)
  · intro i r₁ wait hr₁ hticket
    obtain ⟨r₀, hr₀, -, -, hsame⟩ := hback hr₁
    exact h.issued i r₀ wait hr₀ (hsame.trans hticket)
  · intro i j r₁ r₂ wait wait' hr₁ hr₂ hticket hticket'
    obtain ⟨r₀, hr₀, -, -, hsame⟩ := hback hr₁
    obtain ⟨r₀', hr₀', -, -, hsame'⟩ := hback hr₂
    exact h.apart i j r₀ r₀' wait wait' hr₀ hr₀' (hsame.trans hticket) (hsame'.trans hticket')
  · exact h.listed
  · intro i r₁ wait waiterId hr₁ hticket
    obtain ⟨r₀, hr₀, -, -, hsame⟩ := hback hr₁
    exact h.own i r₀ wait waiterId hr₀ (hsame.trans hticket)

theorem dropReceiver (h : Parked s) {index : Nat} (hr : s.receivers[index]? = some r)
    (hphase : r.phase = .live) : Parked (s.dropReceiver index r) := by
  unfold System.dropReceiver
  split
  next => exact h.of_promised rfl rfl rfl rfl (fun _ hw => hw) fun _ hpromised => hpromised
  next =>
    have hsettled : Parked { s.setReceiver index { r with phase := .dropping } with
        cells := s.cells } := by
      refine h.settle hr (fun wait hwait => ?_) (by simp) fun _ _ => rfl
      exact (r.ticket_of_live hphase).trans hwait
    exact hsettled.of_promised rfl rfl rfl rfl (fun _ hw => hw) fun _ hpromised => hpromised

theorem release (h : Parked s) {index : Nat} (hr : s.receivers[index]? = some r)
    (hphase : r.phase = .dropping) : Parked (s.release index r) := by
  have hticket : r.ticket = r.wait := by simp [Receiver.ticket, hphase]
  unfold System.release
  split
  next => exact h.settle hr (by simp [Receiver.ticket]) (by simp) fun _ _ => rfl
  next wait hwait =>
    refine h.settle hr ?_ ?_ ?_
    · intro wait' hwait'
      cases hfinished : (s.cells wait.handle).finished <;> cases hid : wait.waiterId <;>
        simp [Receiver.ticket, hfinished, hid] at hwait'
      rw [hticket, hwait, ← hwait', ← hid]
    · intro _
      rfl
    · intro handle hne
      exact Function.update_of_ne (hne wait (hticket.trans hwait)).symm _ _

/-- A cancel callback removes the waiter of its own receiver only. -/
theorem removeWaiter (h : Parked s) {index handle waiterId : Nat}
    (hr : s.receivers[index]? = some r) (hphase : r.phase = .cancelling handle waiterId) :
    Parked { s with book := s.book.removeWaiter waiterId } := by
  unfold Book.removeWaiter
  split
  next i hi =>
    obtain ⟨hlt, hid, -⟩ := List.findIdx?_eq_some_iff_getElem.mp hi
    have hperm := swapRemove_perm (List.getElem?_eq_getElem hlt)
    have hsub : ∀ w ∈ swapRemove s.book.waiters i, w ∈ s.book.waiters :=
      fun w hw => hperm.mem_iff.mp (List.mem_cons_of_mem _ hw)
    have hticket : r.ticket = some ⟨handle, some waiterId⟩ := by simp [Receiver.ticket, hphase]
    refine ⟨?_, h.issued, h.apart, fun w hw => h.listed w (hsub w hw), ?_⟩
    · intro j r₁ wait hr₁ hlive hwait
      obtain ⟨hawaited, hrest⟩ := h.parked j r₁ wait hr₁ hlive hwait
      refine ⟨hawaited, hrest.imp_right ?_⟩
      rintro (⟨w, hw, hhandle⟩ | hrest)
      · refine Or.inl ⟨w, ?_, hhandle⟩
        obtain rfl | hleft := List.mem_cons.mp (hperm.mem_iff.mpr hw)
        · -- the one that was removed is of the receiver that is dropped, which does not live
          have hown := (h.own index r _ waiterId hr hticket rfl).2 _ hw (by simpa using hid)
          have hindex := h.apart j index r₁ r wait _ hr₁ hr
            ((r₁.ticket_of_live hlive).trans hwait) hticket (hhandle.symm.trans hown)
          subst hindex
          obtain rfl : r₁ = r := Option.some.inj (hr₁.symm.trans hr)
          simp [hphase] at hlive
        · exact hleft
      · exact Or.inr hrest
    · intro j r₁ wait id hr₁ hticket₁ heq
      obtain ⟨hbound, hown⟩ := h.own j r₁ wait id hr₁ hticket₁ heq
      exact ⟨hbound, fun w hw => hown w (hsub w hw)⟩
  next => exact h

theorem cancelWait (h : Parked s) {index handle waiterId : Nat}
    (hr : s.receivers[index]? = some r) (hphase : r.phase = .cancelling handle waiterId) :
    Parked (s.cancelWait index r handle waiterId) := by
  have hticket : r.ticket = some ⟨handle, some waiterId⟩ := by simp [Receiver.ticket, hphase]
  refine (h.removeWaiter hr hphase).settle hr (by simp [Receiver.ticket]) (by simp) ?_
  intro other hne
  exact Function.update_of_ne (hne _ hticket).symm _ _

theorem pollWait (h : Parked s) {index : Nat} {wait : Wait}
    (hr : s.receivers[index]? = some r) (hphase : r.phase = .live) (hwait : r.wait = some wait) :
    Parked (s.pollWait index r wait).1 := by
  have hticket : r.ticket = some wait := (r.ticket_of_live hphase).trans hwait
  have hsettle {r' : Receiver} (hphase' : r'.phase = r.phase) (hwait' : r'.wait = none) :
      Parked { s.setReceiver index r' with
        cells := Function.update s.cells wait.handle (s.cells wait.handle).abandon } := by
    refine h.settle hr ?_ (fun _ => hwait') ?_
    · intro other hother
      rw [r'.ticket_of_live (hphase'.trans hphase), hwait'] at hother
      cases hother
    · intro handle hne
      exact Function.update_of_ne (hne wait hticket).symm _ _
  unfold System.pollWait
  split
  next => exact h
  next result hresult =>
    cases result with
    | ok version =>
        dsimp only
        split
        · exact hsettle rfl rfl
        · exact hsettle rfl rfl
    | error error => exact hsettle rfl rfl

/-- A receiver waits with a new completion, which has a result or is registered. -/
theorem issue (h : Parked s) {index : Nat} (hr : s.receivers[index]? = some r)
    (hphase : r.phase = .live) {cell : Cell (Except RecvError Nat)} {book : Book}
    {waiterId : Option Nat} (hcell : cell.Awaited)
    (hkeeps : ∀ w ∈ s.book.waiters, w ∈ book.waiters)
    (hwaiters : ∀ w ∈ book.waiters,
      w ∈ s.book.waiters ∨ w.id = s.book.nextWaiterId ∧ w.handle = s.nextCell)
    (hlisted : ∀ w ∈ book.waiters, w.id < book.nextWaiterId)
    (hnext : s.book.nextWaiterId ≤ book.nextWaiterId)
    (hid : ∀ id, waiterId = some id → id = s.book.nextWaiterId ∧ id < book.nextWaiterId)
    (hpromised : cell.result ≠ none ∨ ∃ w ∈ book.waiters, w.handle = s.nextCell) :
    Parked { s.setReceiver index { r with wait := some ⟨s.nextCell, waiterId⟩ } with
      book
      cells := Function.update s.cells s.nextCell cell
      nextCell := s.nextCell + 1 } := by
  have hnew : Receiver.ticket { r with wait := some ⟨s.nextCell, waiterId⟩ } =
      some ⟨s.nextCell, waiterId⟩ := Receiver.ticket_of_live hphase
  -- a wait is the new one, or an old one of another receiver
  have hback {i : Nat} {r₁ : Receiver} {wait : Wait}
      (hr₁ : (s.receivers.set index { r with wait := some ⟨s.nextCell, waiterId⟩ })[i]? = some r₁)
      (hticket₁ : r₁.ticket = some wait) :
      i = index ∧ wait = ⟨s.nextCell, waiterId⟩ ∨
        s.receivers[i]? = some r₁ ∧ wait.handle < s.nextCell := by
    obtain ⟨rfl, rfl⟩ | ⟨-, hold⟩ := (Table.getElem?_set_eq_some hr).mp hr₁
    · exact Or.inl ⟨rfl, Option.some.inj (hticket₁.symm.trans hnew)⟩
    · exact Or.inr ⟨hold, h.issued i r₁ wait hold hticket₁⟩
  constructor
  · intro i r₁ wait hr₁ hlive hwait
    obtain ⟨-, rfl⟩ | ⟨hold, hlt⟩ := hback hr₁ ((r₁.ticket_of_live hlive).trans hwait)
    · simp only [Function.update_self]
      exact ⟨hcell, hpromised.imp_right Or.inl⟩
    · obtain ⟨hawaited, hrest⟩ := h.parked i r₁ wait hold hlive hwait
      simp only [Function.update_of_ne (Nat.ne_of_lt hlt)]
      refine ⟨hawaited, hrest.imp_right ?_⟩
      rintro (⟨w, hw, heq⟩ | hcollected)
      · exact Or.inl ⟨w, hkeeps w hw, heq⟩
      · exact Or.inr hcollected
  · intro i r₁ wait hr₁ hticket₁
    obtain ⟨-, rfl⟩ | ⟨-, hlt⟩ := hback hr₁ hticket₁
    · exact Nat.lt_succ_self _
    · exact Nat.lt_succ_of_lt hlt
  · intro i j r₁ r₂ wait wait' hr₁ hr₂ hticket₁ hticket₂ heq
    obtain ⟨rfl, rfl⟩ | ⟨hold₁, hlt₁⟩ := hback hr₁ hticket₁ <;>
      obtain ⟨rfl, rfl⟩ | ⟨hold₂, hlt₂⟩ := hback hr₂ hticket₂
    · rfl
    · exact absurd heq.symm (Nat.ne_of_lt hlt₂)
    · exact absurd heq (Nat.ne_of_lt hlt₁)
    · exact h.apart i j r₁ r₂ wait wait' hold₁ hold₂ hticket₁ hticket₂ heq
  · exact hlisted
  · intro i r₁ wait id hr₁ hticket₁ heq
    obtain ⟨-, rfl⟩ | ⟨hold, -⟩ := hback hr₁ hticket₁
    · obtain ⟨rfl, hbound⟩ := hid id heq
      refine ⟨hbound, fun w hw hwid => ?_⟩
      obtain hwold | ⟨-, hhandle⟩ := hwaiters w hw
      · exact absurd hwid (Nat.ne_of_lt (h.listed w hwold))
      · exact hhandle
    · obtain ⟨hbound, hown⟩ := h.own i r₁ wait id hold hticket₁ heq
      refine ⟨Nat.lt_of_lt_of_le hbound hnext, fun w hw hwid => ?_⟩
      obtain hwold | ⟨hwnew, -⟩ := hwaiters w hw
      · exact hown w hwold hwid
      · exact absurd (hwid.symm.trans hwnew) (Nat.ne_of_lt hbound)

theorem register (h : Parked s) {index : Nat} (hr : s.receivers[index]? = some r)
    (hphase : r.phase = .live) : Parked (s.register index r) := by
  have hfinished (value : Except RecvError Nat) : Parked
      { s.setReceiver index { r with wait := some ⟨s.nextCell, none⟩ } with
        cells := Function.update s.cells s.nextCell (({} : Cell _).complete value)
        nextCell := s.nextCell + 1 } :=
    h.issue hr hphase (Cell.Awaited.new.complete value) (fun _ hw => hw) (fun _ hw => .inl hw)
      h.listed (Nat.le_refl _) (by simp) (.inl (Cell.Awaited.new.result_complete_ne_none value))
  unfold System.register
  split
  next => exact hfinished _
  next =>
    split
    next => exact hfinished _
    next =>
      refine h.issue hr hphase .new (fun w hw => List.mem_append_left _ hw) ?_ ?_
        (Nat.le_succ _) ?_ (.inr ⟨_, List.mem_append_right _ (List.mem_singleton_self _), rfl⟩)
      · intro w hw
        obtain hold | hnew := List.mem_append.mp hw
        · exact .inl hold
        · obtain rfl := List.mem_singleton.mp hnew
          exact .inr ⟨rfl, rfl⟩
      · intro w hw
        obtain hold | hnew := List.mem_append.mp hw
        · exact Nat.lt_succ_of_lt (h.listed w hold)
        · obtain rfl := List.mem_singleton.mp hnew
          exact Nat.lt_succ_self _
      · rintro id ⟨⟩
        exact ⟨rfl, Nat.lt_succ_self _⟩

/-! ### Steps -/

theorem act (h : Parked s) {a : Action α} {reply : Reply α}
    (hact : s.act a = some (s', reply)) : Parked s' := by
  have hbump (value : α) : Parked (s.bump value) :=
    h.of_promised rfl rfl rfl rfl (fun _ hw => hw) fun _ hpromised => hpromised
  cases a with
  | send value =>
      obtain ⟨-, heq⟩ := Option.ite_none_right_eq_some.mp hact
      unfold System.send at heq
      split at heq <;> cases heq
      · exact h
      · exact hbump value
  | sendModify value =>
      obtain ⟨-, heq⟩ := Option.ite_none_right_eq_some.mp hact
      cases heq
      exact hbump value
  | sendIfModified value modified =>
      obtain ⟨-, heq⟩ := Option.ite_none_right_eq_some.mp hact
      cases heq
      unfold System.sendIfModified
      split
      · exact hbump value
      · exact h.of_promised rfl rfl rfl rfl (fun _ hw => hw) fun _ hpromised => hpromised
  | wake index =>
      obtain ⟨_, hwake, heq⟩ := Option.map_eq_some_iff.mp hact
      cases heq
      exact h.wake hwake
  | load index =>
      obtain ⟨_, hload, heq⟩ := Option.map_eq_some_iff.mp hact
      cases heq
      exact h.load hload
  | fire index =>
      obtain ⟨_, hfire, heq⟩ := Option.map_eq_some_iff.mp hact
      cases heq
      exact h.fire hfire
  | cloneSender =>
      obtain ⟨-, heq⟩ := Option.ite_none_right_eq_some.mp hact
      cases heq
      exact h.of_promised rfl rfl rfl rfl (fun _ hw => hw) fun _ hpromised => hpromised
  | dropSender =>
      obtain ⟨-, heq⟩ := Option.ite_none_right_eq_some.mp hact
      cases heq
      exact h.dropSender
  | subscribe =>
      obtain ⟨-, heq⟩ := Option.ite_none_right_eq_some.mp hact
      cases heq
      exact h.addReceiver _
  | cloneReceiver index =>
      obtain ⟨r, -, -, heq⟩ := withReceiver_eq_some hact
      cases heq
      exact h.addReceiver _
  | dropReceiver index =>
      obtain ⟨r, hr, hphase, heq⟩ := withReceiver_eq_some hact
      cases heq
      exact h.dropReceiver hr hphase
  | release index =>
      obtain ⟨r, hr, hphase, heq⟩ := withReceiver_eq_some hact
      cases heq
      exact h.release hr hphase
  | cancelWait index =>
      simp only [System.act] at hact
      split at hact
      next => cases hact
      next r hr =>
        split at hact
        next hphase =>
          cases hact
          exact h.cancelWait hr hphase
        next => cases hact
  | pollChanged index =>
      obtain ⟨r, hr, hphase, heq⟩ := withReceiver_eq_some hact
      unfold System.pollChanged at heq
      split at heq
      next wait hwait =>
        have hs : (s.pollWait index r wait).1 = s' := congrArg Prod.fst heq
        rw [← hs]
        exact h.pollWait hr hphase hwait
      next =>
        cases heq
        exact h.register hr hphase
  | borrowAndUpdate index =>
      obtain ⟨r, hr, -, heq⟩ := withReceiver_eq_some hact
      cases heq
      exact h.borrowAndUpdate hr

end Parked

theorem parked_of_reachable {value : α} (hreach : s.Reachable value) : s.Parked := by
  refine Transition.Reachable.invariant Parked (.init value) ?_ hreach
  intro s a s' h _ hstep
  obtain ⟨⟨s', reply⟩, hact, rfl⟩ := Option.map_eq_some_iff.mp hstep
  exact h.act hact

/-! ## Runs -/

/-- In every interleaving: an update that a registered waiter has not been woken for is
between its bump and its wake; what a receiver has seen does not go back; `changed` returns
`Ok` when the version has gone past what the receiver had seen, and an error when every
sender is gone and the receiver has seen the last version; a `send` that fails changes
nothing; no count underflows; and a receiver that waits has a result, or is registered, or
its completion was collected and is to be fired. -/
theorem updates_seen_of_reachable (value : α) (s : System α) (hreach : s.Reachable value) :
    (∀ w ∈ s.book.waiters, w.version < s.version → ∃ v ∈ s.waking, w.version < v) ∧
      (∀ (i : Nat) r wait, s.receivers[i]? = some r → r.wait = some wait →
        ∀ w ∈ s.book.waiters, w.handle = wait.handle → r.version < s.version →
        ∃ v ∈ s.waking, r.version < v) ∧
      (∀ a s' reply, s.act a = some (s', reply) → Advances s s') ∧
      (∀ index s', s.act (.pollChanged index) = some (s', .changed (.ok ())) →
        ∃ r r', s.receivers[index]? = some r ∧ s'.receivers[index]? = some r' ∧
          r.version < r'.version ∧ r'.version ≤ s.version) ∧
      (∀ index s' error, s.act (.pollChanged index) = some (s', .changed (.error error)) →
        s.senders = 0 ∧ ∃ r, s.receivers[index]? = some r ∧ s.version = r.version) ∧
      (∀ v w s', s.act (.send v) = some (s', .sent (.error w)) → w = v ∧ s' = s) ∧
      s.panicked = false ∧
      ∀ (i : Nat) r wait, s.receivers[i]? = some r → r.phase = .live → r.wait = some wait →
        (s.cells wait.handle).result ≠ none ∨ s.Promised wait.handle := by
  have h := sound_of_reachable hreach
  refine ⟨?_, ?_, fun a s' reply hact => h.advances hact, ?_, ?_, ?_, h.unpanicked,
    fun i r wait hr hlive hwait => ((parked_of_reachable hreach).parked i r wait hr hlive hwait).2⟩
  · intro w hw hlt
    exact ⟨s.version, h.outstanding w hw s.version hlt (Nat.le_refl _), hlt⟩
  · intro i r wait hr hwait w hw heq hlt
    have hregistered := (h.receivers i r hr).registered wait hwait w hw heq
    exact ⟨s.version, h.outstanding w hw s.version (by omega) (Nat.le_refl _), hlt⟩
  · intro index s' hact
    obtain ⟨r, hr, -, heq⟩ := withReceiver_eq_some hact
    obtain ⟨wait, _, -, hvalue, version, r', rfl, hlt, hr', rfl⟩ := changed_of_pollChanged hr heq
    exact ⟨r, r', hr, hr', hlt, h.stored wait.handle _ hvalue⟩
  · intro index s' error hact
    obtain ⟨r, hr, -, heq⟩ := withReceiver_eq_some hact
    obtain ⟨wait, _, hwait, hvalue, rfl⟩ := changed_of_pollChanged hr heq
    have hknows := h.receivers index r hr
    obtain ⟨hsenders, hversion⟩ := hknows.closed wait error hwait (.inr hvalue)
    exact ⟨hsenders, r, hr, Nat.le_antisymm hversion hknows.version⟩
  · intro v w s' hact
    obtain ⟨-, heq⟩ := Option.ite_none_right_eq_some.mp hact
    unfold System.send at heq
    split at heq <;> cases heq
    exact ⟨rfl, rfl⟩

/-- A receiver waits while one sender has raised the version and has yet to wake it, and
another is dropped. -/
theorem updates_seen_between :
    ∃ s : System Nat, s.Reachable 0 ∧ s.version = 1 ∧
      (∃ w ∈ s.book.waiters, w.version = 0) ∧ ∃ v ∈ s.waking, 0 < v := by
  obtain ⟨s, hreach, hp⟩ := Transition.Reachable.exists_of_run step (fun _ _ => True)
    ({ value := 0 } : System Nat) [.cloneSender, .pollChanged 0, .send 7, .dropSender]
    (fun s => decide (s.version = 1 ∧ ∃ w ∈ s.book.waiters, w.version = 0)) (by simp) (by decide)
  obtain ⟨hversion, w, hw, hzero⟩ := of_decide_eq_true hp
  obtain ⟨houtstanding, -⟩ := updates_seen_of_reachable 0 s hreach
  obtain ⟨v, hv, hlt⟩ := houtstanding w hw (by omega)
  exact ⟨s, hreach, hversion, ⟨w, hw, hzero⟩, v, hv, by omega⟩

end System

end Runite.Channel.Watch
