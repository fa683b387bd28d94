import Runite.Channel.Watch
import Runite.Lib.Counting
import Runite.Lib.Table

/-!
# Watch receivers miss no update

`Sound` ties the waiters of a watch channel to the updates that are going on: every update
that a registered waiter has not been woken for has yet to collect waiters.  It also says
what a receiver knows of the version, and when it is sent an error.
-/

namespace Runite.Channel.Watch.System

open Mpsc (Cell)
open SwapRemove

variable {α : Type} {s s' : System α} {r : Receiver}

/-! ## What holds in every interleaving -/

/-- What a receiver has to do with the rest: it has seen no version that is not there, a
waiter of its own is not ahead of it, and an error was sent to it when every sender was gone
and it had seen the last version. -/
structure Knows (s : System α) (r : Receiver) : Prop where
  version : r.version ≤ s.version
  issued : ∀ wait, r.wait = some wait → wait.handle < s.nextCell
  registered : ∀ wait, r.wait = some wait →
    ∀ w ∈ s.book.waiters, w.handle = wait.handle → w.version ≤ r.version
  closed : ∀ wait error, r.wait = some wait →
    (wait.handle, .error error) ∈ s.firing ∨
      (s.cells wait.handle).result = some (.error error) →
    s.senders = 0 ∧ s.version ≤ r.version

structure Sound (s : System α) : Prop where
  counted : s.book.senderCount = s.senders
  listed : s.receivers.countP (·.phase = .live) = s.book.receiverCount
  issued : ∀ w ∈ s.book.waiters, w.handle < s.nextCell
  outstanding : ∀ w ∈ s.book.waiters, ∀ v, w.version < v → v ≤ s.version → v ∈ s.waking
  collected : ∀ handles ∈ s.loading, ∀ handle ∈ handles, handle < s.nextCell
  fired : ∀ p ∈ s.firing, p.1 < s.nextCell
  sent : ∀ handle v, (handle, .ok v) ∈ s.firing → v ≤ s.version
  stored : ∀ handle v, (s.cells handle).result = some (.ok v) → v ≤ s.version
  receivers : ∀ (i : Nat) (r : Receiver), s.receivers[i]? = some r → s.Knows r
  unpanicked : s.panicked = false

/-- What a step may change, as far as a receiver that has no part in it is concerned. -/
structure Grows (s s' : System α) : Prop where
  version : s.version ≤ s'.version
  closed : s.senders = 0 → s'.senders = 0 ∧ s'.version = s.version
  nextCell : s.nextCell ≤ s'.nextCell
  waiters : ∀ w ∈ s'.book.waiters, w ∈ s.book.waiters ∨ s.nextCell ≤ w.handle
  firing : ∀ handle error, (handle, .error error) ∈ s'.firing →
    (handle, .error error) ∈ s.firing ∨ s'.senders = 0 ∧ s'.version = s.version ∧
      ∃ w ∈ s.book.waiters, w.handle = handle ∧ s.version ≤ w.version
  cells : ∀ handle error, handle < s.nextCell →
    (s'.cells handle).result = some (.error error) →
    (s.cells handle).result = some (.error error) ∨ (handle, .error error) ∈ s.firing

theorem Grows.refl (s : System α) : Grows s s where
  version := Nat.le_refl _
  closed h := ⟨h, rfl⟩
  nextCell := Nat.le_refl _
  waiters _ hw := .inl hw
  firing _ _ hmem := .inl hmem
  cells _ _ _ hresult := .inl hresult

theorem Knows.grows (h : s.Knows r) (hgrows : Grows s s') : s'.Knows r where
  version := Nat.le_trans h.version hgrows.version
  issued wait hwait := Nat.lt_of_lt_of_le (h.issued wait hwait) hgrows.nextCell
  registered wait hwait w hw heq := by
    obtain hold | hnew := hgrows.waiters w hw
    · exact h.registered wait hwait w hold heq
    · have hlt := h.issued wait hwait
      omega
  closed wait error hwait herror := by
    have hbefore (hfailed : (wait.handle, .error error) ∈ s.firing ∨
        (s.cells wait.handle).result = some (.error error)) :
        s'.senders = 0 ∧ s'.version ≤ r.version := by
      obtain ⟨hsenders, hversion⟩ := h.closed wait error hwait hfailed
      obtain ⟨hsenders', hversion'⟩ := hgrows.closed hsenders
      exact ⟨hsenders', hversion' ▸ hversion⟩
    obtain hfiring | hcell := herror
    · obtain hold | ⟨hsenders, hversion, w, hw, hhandle, hseen⟩ :=
        hgrows.firing wait.handle error hfiring
      · exact hbefore (.inl hold)
      · -- the last sender has drained the waiter of this receiver
        have hregistered := h.registered wait hwait w hw hhandle
        exact ⟨hsenders, by omega⟩
    · exact hbefore (hgrows.cells wait.handle error (h.issued wait hwait) hcell).symm

/-- A receiver that does not wait knows nothing but its version. -/
theorem Knows.of_wait_eq_none (hversion : r.version ≤ s.version) (hwait : r.wait = none) :
    s.Knows r where
  version := hversion
  issued := by simp [hwait]
  registered := by simp [hwait]
  closed := by simp [hwait]

theorem Sound.init (value : α) : Sound ({ value } : System α) where
  counted := rfl
  listed := rfl
  issued := by simp
  outstanding := by simp
  collected := by simp
  fired := by simp
  sent := by simp
  stored := by simp
  receivers i r hr := by
    obtain rfl : r = { version := 0 } := by
      have hmem := List.mem_of_getElem? hr
      simpa using hmem
    exact .of_wait_eq_none (Nat.zero_le _) rfl
  unpanicked := rfl

/-! ### Steps of the senders -/

theorem Sound.bump (h : s.Sound) (hsenders : 0 < s.senders) (value : α) :
    (s.bump value).Sound := by
  have hgrows : Grows s (s.bump value) :=
    { Grows.refl s with
      version := Nat.le_succ _
      closed := by omega
      firing := fun _ _ hfiring => .inl hfiring }
  exact {
    h with
    outstanding := by
      intro w hw v hlt hle
      obtain hle | rfl : v ≤ s.version ∨ v = s.version + 1 := by
        change v ≤ s.version + 1 at hle
        omega
      · exact List.mem_append_left _ (h.outstanding w hw v hlt hle)
      · exact List.mem_append_right _ (by simp)
    sent := fun handle v hmem => Nat.le_succ_of_le (h.sent handle v hmem)
    stored := fun handle v hresult => Nat.le_succ_of_le (h.stored handle v hresult)
    receivers := fun i r hr => (h.receivers i r hr).grows hgrows }

theorem Sound.setValue (h : s.Sound) (value : α) : Sound { s with value } :=
  { h with
    receivers := fun i r hr => (h.receivers i r hr).grows { Grows.refl s with } }

theorem Sound.wake (h : s.Sound) {index : Nat} (hwake : s.wake index = some s') : s'.Sound := by
  obtain ⟨version, hversion, rfl⟩ := Option.map_eq_some_iff.mp hwake
  have hleft {w : Waiter} (hw : w ∈ (s.book.wakeChanged version).1.waiters) :
      w ∈ s.book.waiters ∧ version ≤ w.version := by
    have hnot := (takeReady_spec (Book.behind version) s.book.waiters).2.2 w hw
    refine ⟨mem_of_mem_takeReady_rest hw, ?_⟩
    simp only [Book.behind, ite_eq_right_iff, reduceCtorEq, imp_false] at hnot
    exact Nat.le_of_not_lt hnot
  exact {
    h with
    issued := fun w hw => h.issued w (hleft hw).1
    outstanding := by
      -- a waiter that was left is not behind this update, so the update that it waits for
      -- is another one
      intro w hw v hlt hle
      obtain ⟨hmem, hnot⟩ := hleft hw
      have hv : v ∈ s.waking := h.outstanding w hmem v hlt hle
      obtain ⟨i, hi⟩ := List.getElem?_of_mem hv
      refine List.mem_eraseIdx_iff_getElem?.mpr ⟨i, ?_, hi⟩
      rintro rfl
      obtain rfl : version = v := Option.some.inj (hversion.symm.trans hi)
      omega
    collected := by
      intro handles hmem handle hhandle
      obtain hold | hnew := List.mem_append.mp hmem
      · exact h.collected handles hold handle hhandle
      · rw [List.mem_singleton.mp hnew] at hhandle
        obtain ⟨p, hp, rfl⟩ := List.mem_map.mp hhandle
        exact h.issued p.1 (mem_of_mem_takeReady hp).1
    receivers := fun i r hr => (h.receivers i r hr).grows
      { Grows.refl s with waiters := fun w hw => .inl (hleft hw).1 } }

theorem Sound.load (h : s.Sound) {index : Nat} (hload : s.load index = some s') : s'.Sound := by
  obtain ⟨handles, hhandles, rfl⟩ := Option.map_eq_some_iff.mp hload
  have hmem : handles ∈ s.loading := List.mem_of_getElem? hhandles
  exact {
    h with
    collected := fun group hgroup =>
      h.collected group ((List.eraseIdx_sublist ..).subset hgroup)
    fired := by
      intro p hp
      obtain hold | hnew := List.mem_append.mp hp
      · exact h.fired p hold
      · obtain ⟨handle, hhandle, rfl⟩ := List.mem_map.mp hnew
        exact h.collected handles hmem handle hhandle
    sent := by
      intro handle v hv
      obtain hold | hnew := List.mem_append.mp hv
      · exact h.sent handle v hold
      · obtain ⟨_, -, heq⟩ := List.mem_map.mp hnew
        cases heq
        exact Nat.le_refl _
    receivers := fun i r hr => (h.receivers i r hr).grows
      { Grows.refl s with
        firing := by
          intro handle error hfiring
          obtain hold | hnew := List.mem_append.mp hfiring
          · exact .inl hold
          · obtain ⟨_, -, heq⟩ := List.mem_map.mp hnew
            cases heq } }

theorem Sound.fire (h : s.Sound) {index : Nat} (hfire : s.fire index = some s') : s'.Sound := by
  obtain ⟨⟨fired, result⟩, hfired, rfl⟩ := Option.map_eq_some_iff.mp hfire
  have hmem : (fired, result) ∈ s.firing := List.mem_of_getElem? hfired
  have hsub : ∀ p ∈ s.firing.eraseIdx index, p ∈ s.firing :=
    fun p hp => (List.eraseIdx_sublist ..).subset hp
  have hcell {handle : Nat} {value : Except RecvError Nat}
      (hresult : (Function.update s.cells fired ((s.cells fired).complete result) handle).result =
        some value) :
      (s.cells handle).result = some value ∨ (handle, value) ∈ s.firing := by
    by_cases heq : handle = fired
    · subst heq
      rw [Function.update_self] at hresult
      obtain hold | rfl := Cell.result_complete hresult
      · exact .inl hold
      · exact .inr hmem
    · rw [Function.update_of_ne heq] at hresult
      exact .inl hresult
  exact {
    h with
    fired := fun p hp => h.fired p (hsub p hp)
    sent := fun handle v hv => h.sent handle v (hsub _ hv)
    stored := fun handle v hresult =>
      (hcell hresult).elim (h.stored handle v) (h.sent handle v)
    receivers := fun i r hr => (h.receivers i r hr).grows
      { Grows.refl s with
        firing := fun _ _ hfiring => .inl (hsub _ hfiring)
        cells := fun _ _ _ hresult => hcell hresult } }

theorem Sound.cloneSender (h : s.Sound) (hsenders : 0 < s.senders) : Sound { s with
    book := { s.book with senderCount := s.book.senderCount + 1 }
    senders := s.senders + 1 } :=
  { h with
    counted := congrArg (· + 1) h.counted
    receivers := fun i r hr => (h.receivers i r hr).grows
      { Grows.refl s with
        closed := by omega
        firing := fun _ _ hfiring => .inl hfiring } }

theorem Sound.dropSender (h : s.Sound)
    (hborrowed : 1 < s.senders ∨ s.senders = 1 ∧ s.waking = []) : s.dropSender.Sound := by
  have hcounted := h.counted
  unfold System.dropSender Book.closeSender
  rw [if_neg (by omega)]
  split
  next hlast =>
    have hsenders : s.senders - 1 = 0 := by omega
    have hwaking : s.waking = [] := (hborrowed.resolve_left (by omega)).2
    -- nothing is outstanding, so no waiter is behind
    have hseen : ∀ w ∈ s.book.waiters, s.version ≤ w.version := by
      intro w hw
      by_contra hlt
      have hmem := h.outstanding w hw s.version (by omega) (Nat.le_refl _)
      simp [hwaking] at hmem
    exact {
      h with
      counted := by change s.book.senderCount - 1 = s.senders - 1; omega
      issued := by simp
      outstanding := by simp
      fired := by
        intro p hp
        obtain hold | hnew := List.mem_append.mp hp
        · exact h.fired p hold
        · obtain ⟨_, hhandle, rfl⟩ := List.mem_map.mp hnew
          obtain ⟨w, hw, rfl⟩ := List.mem_map.mp hhandle
          exact h.issued w hw
      sent := by
        intro handle v hv
        obtain hold | hnew := List.mem_append.mp hv
        · exact h.sent handle v hold
        · obtain ⟨_, -, heq⟩ := List.mem_map.mp hnew
          cases heq
      receivers := fun i r hr => (h.receivers i r hr).grows
        { Grows.refl s with
          closed := fun hzero => ⟨by change s.senders - 1 = 0; omega, rfl⟩
          waiters := by simp
          firing := by
            intro handle error hfiring
            obtain hold | hnew := List.mem_append.mp hfiring
            · exact .inl hold
            · obtain ⟨_, hhandle, heq⟩ := List.mem_map.mp hnew
              obtain ⟨w, hw, rfl⟩ := List.mem_map.mp hhandle
              cases heq
              exact .inr ⟨hsenders, rfl, w, hw, rfl, hseen w hw⟩ } }
  next hmore =>
    simp only [List.map_nil, List.append_nil]
    exact {
      h with
      counted := by change s.book.senderCount - 1 = s.senders - 1; omega
      receivers := fun i r hr => (h.receivers i r hr).grows
        { Grows.refl s with
          closed := fun hzero => ⟨by change s.senders - 1 = 0; omega, rfl⟩
          firing := fun _ _ hfiring => .inl hfiring } }

/-! ### Steps of the receivers -/

theorem Sound.addReceiver (h : s.Sound) {version : Nat} (hversion : version ≤ s.version) :
    (s.addReceiver version).Sound :=
  { h with
    listed := by simp [System.addReceiver, h.listed]
    receivers := by
      intro i r hr
      have hgrows : Grows s (s.addReceiver version) := { Grows.refl s with }
      obtain hold | ⟨-, rfl⟩ := Table.getElem?_concat_eq_some.mp hr
      · exact (h.receivers i r hold).grows hgrows
      · exact .of_wait_eq_none hversion rfl }

/-- A receiver is replaced by one in a phase of the same kind. -/
theorem Sound.setReceiver (h : s.Sound) {index : Nat} (hr : s.receivers[index]? = some r)
    {r' : Receiver} (hphase : r'.phase = .live ↔ r.phase = .live) (hknows : s.Knows r') :
    (s.setReceiver index r').Sound :=
  { h with
    listed := by
      have hcount := Counting.countP_set_add (fun r : Receiver => decide (r.phase = .live)) r' hr
      rw [decide_eq_decide.mpr hphase] at hcount
      exact (Nat.add_right_cancel hcount).trans h.listed
    receivers := by
      intro i r₁ hr₁
      have hgrows : Grows s (s.setReceiver index r') := { Grows.refl s with }
      obtain ⟨-, rfl⟩ | ⟨-, hold⟩ := (Table.getElem?_set_eq_some hr).mp hr₁
      · exact hknows.grows hgrows
      · exact (h.receivers i r₁ hold).grows hgrows }

theorem Sound.setCell (h : s.Sound) (handle : Nat) {cell : Cell (Except RecvError Nat)}
    (hcell : ∀ value, cell.result = some value → (s.cells handle).result = some value) :
    Sound { s with cells := Function.update s.cells handle cell } := by
  have hresult {other : Nat} {value : Except RecvError Nat}
      (hother : (Function.update s.cells handle cell other).result = some value) :
      (s.cells other).result = some value := by
    by_cases heq : other = handle
    · subst heq
      rw [Function.update_self] at hother
      exact hcell value hother
    · rwa [Function.update_of_ne heq] at hother
  exact {
    h with
    stored := fun other v hother => h.stored other v (hresult hother)
    receivers := fun i r hr => (h.receivers i r hr).grows
      { Grows.refl s with cells := fun _ _ _ hother => .inl (hresult hother) } }

theorem Sound.removeWaiter (h : s.Sound) (waiterId : Nat) :
    Sound { s with book := s.book.removeWaiter waiterId } := by
  unfold Book.removeWaiter
  split
  next index hindex =>
    have hlt : index < s.book.waiters.length := (List.findIdx?_eq_some_iff_getElem.mp hindex).1
    have hsub : ∀ w ∈ swapRemove s.book.waiters index, w ∈ s.book.waiters :=
      fun w hw => mem_of_mem_swapRemove (List.getElem?_eq_getElem hlt) hw
    exact {
      h with
      issued := fun w hw => h.issued w (hsub w hw)
      outstanding := fun w hw => h.outstanding w (hsub w hw)
      receivers := fun i r hr => (h.receivers i r hr).grows
        { Grows.refl s with waiters := fun w hw => .inl (hsub w hw) } }
  next => exact h

/-- A completion is created, and with it a waiter that is not behind, or none. -/
theorem Sound.issue (h : s.Sound) {cell : Cell (Except RecvError Nat)} {waiters : List Waiter}
    {nextWaiterId : Nat} (hcell : ∀ v, cell.result = some (.ok v) → v ≤ s.version)
    (hwaiters : ∀ w ∈ waiters, w ∈ s.book.waiters ∨ w.handle = s.nextCell ∧ s.version ≤ w.version) :
    Sound { s with
      book := { s.book with waiters, nextWaiterId }
      cells := Function.update s.cells s.nextCell cell
      nextCell := s.nextCell + 1 } :=
  { h with
    issued := by
      intro w hw
      obtain hold | ⟨hnew, -⟩ := hwaiters w hw
      · exact Nat.lt_succ_of_lt (h.issued w hold)
      · exact Nat.lt_succ_of_le (Nat.le_of_eq hnew)
    outstanding := by
      intro w hw v hlt hle
      obtain hold | ⟨-, hnew⟩ := hwaiters w hw
      · exact h.outstanding w hold v hlt hle
      · have hle' : v ≤ s.version := hle
        omega
    collected := fun handles hmem handle hhandle =>
      Nat.lt_succ_of_lt (h.collected handles hmem handle hhandle)
    fired := fun p hp => Nat.lt_succ_of_lt (h.fired p hp)
    stored := by
      intro handle v hresult
      by_cases heq : handle = s.nextCell
      · subst heq
        exact hcell v (by simpa using hresult)
      · exact h.stored handle v (by simpa [heq] using hresult)
    receivers := fun i r hr => (h.receivers i r hr).grows
      { Grows.refl s with
        nextCell := Nat.le_succ _
        waiters := fun w hw => (hwaiters w hw).imp_right fun hnew => Nat.le_of_eq hnew.1.symm
        cells := by
          intro handle error hlt hresult
          have hne : handle ≠ s.nextCell := Nat.ne_of_lt hlt
          exact .inl (by simpa [hne] using hresult) } }

theorem Sound.register (h : s.Sound) {index : Nat} (hr : s.receivers[index]? = some r) :
    (s.register index r).Sound := by
  have hversion := (h.receivers index r hr).version
  have hfired (error : RecvError) : (s.nextCell, .error error) ∉ s.firing :=
    fun hmem => Nat.lt_irrefl _ (h.fired _ hmem)
  have hissued (w : Waiter) (hw : w ∈ s.book.waiters) : w.handle ≠ s.nextCell :=
    Nat.ne_of_lt (h.issued w hw)
  unfold System.register
  split
  next hbehind =>
    have hissue : Sound { s with
        cells := Function.update s.cells s.nextCell (({} : Cell _).complete (.ok s.version))
        nextCell := s.nextCell + 1 } :=
      h.issue (by simp [Cell.complete]) fun w hw => .inl hw
    refine hissue.setReceiver hr Iff.rfl ⟨hversion, ?_, ?_, ?_⟩
    · rintro _ ⟨⟩
      exact Nat.lt_succ_self _
    · rintro _ ⟨⟩ w hw heq
      exact absurd heq (hissued w hw)
    · rintro _ error ⟨⟩ (hmem | hcell)
      · exact absurd hmem (hfired error)
      · simp [Cell.complete] at hcell
  next hcurrent =>
    split
    next hclosed =>
      have hissue : Sound { s with
          cells := Function.update s.cells s.nextCell (({} : Cell _).complete (.error .closed))
          nextCell := s.nextCell + 1 } :=
        h.issue (by simp [Cell.complete]) fun w hw => .inl hw
      refine hissue.setReceiver hr Iff.rfl ⟨hversion, ?_, ?_, ?_⟩
      · rintro _ ⟨⟩
        exact Nat.lt_succ_self _
      · rintro _ ⟨⟩ w hw heq
        exact absurd heq (hissued w hw)
      · intro wait error _ _
        exact ⟨h.counted.symm.trans hclosed, Nat.le_of_not_lt hcurrent⟩
    next hopen =>
      have hissue : Sound { s with
          book := s.book.publishWaiter r.version s.nextCell
          cells := Function.update s.cells s.nextCell {}
          nextCell := s.nextCell + 1 } := by
        refine h.issue (by simp) fun w hw => ?_
        obtain hold | hnew := List.mem_append.mp hw
        · exact .inl hold
        · rw [List.mem_singleton.mp hnew]
          exact .inr ⟨rfl, Nat.le_of_not_lt hcurrent⟩
      refine hissue.setReceiver hr Iff.rfl ⟨hversion, ?_, ?_, ?_⟩
      · rintro _ ⟨⟩
        exact Nat.lt_succ_self _
      · rintro _ ⟨⟩ w hw heq
        obtain hold | hnew := List.mem_append.mp hw
        · exact absurd heq (hissued w hold)
        · obtain rfl := List.mem_singleton.mp hnew
          exact Nat.le_refl _
      · rintro _ error ⟨⟩ (hmem | hcell)
        · exact absurd hmem (hfired error)
        · simp at hcell

theorem Sound.pollWait (h : s.Sound) {index : Nat} {wait : Wait}
    (hr : s.receivers[index]? = some r) : (s.pollWait index r wait).1.Sound := by
  have hversion := (h.receivers index r hr).version
  have habandon : Sound { s with
      cells := Function.update s.cells wait.handle (s.cells wait.handle).abandon } :=
    h.setCell wait.handle (by simp [Cell.abandon])
  unfold System.pollWait
  split
  next => exact h
  next result hresult =>
    cases result with
    | ok version =>
        dsimp only
        split
        · exact habandon.setReceiver hr Iff.rfl
            (.of_wait_eq_none (h.stored wait.handle version hresult) rfl)
        · exact habandon.setReceiver hr Iff.rfl (.of_wait_eq_none hversion rfl)
    | error error => exact habandon.setReceiver hr Iff.rfl (.of_wait_eq_none hversion rfl)

theorem Sound.borrowAndUpdate (h : s.Sound) {index : Nat} (hr : s.receivers[index]? = some r) :
    (s.setReceiver index { r with version := s.version }).Sound := by
  have hknows := h.receivers index r hr
  refine h.setReceiver hr Iff.rfl ⟨Nat.le_refl _, hknows.issued, ?_, ?_⟩
  · intro wait hwait w hw heq
    exact Nat.le_trans (hknows.registered wait hwait w hw heq) hknows.version
  · intro wait error hwait herror
    exact ⟨(hknows.closed wait error hwait herror).1, Nat.le_refl _⟩

theorem Sound.dropReceiver (h : s.Sound) {index : Nat} (hr : s.receivers[index]? = some r)
    (hphase : r.phase = .live) : (s.dropReceiver index r).Sound := by
  have hcount := Counting.countP_set_add (fun r : Receiver => decide (r.phase = .live))
    { r with phase := .dropping } hr
  simp only [hphase, h.listed, decide_true, Bool.toNat_true] at hcount
  unfold System.dropReceiver
  rw [if_neg (by simp at hcount; omega)]
  have hknows := h.receivers index r hr
  exact {
    h with
    listed := by
      change List.countP _ (s.receivers.set index _) = s.book.receiverCount - 1
      simp at hcount ⊢
      omega
    receivers := by
      intro i r₁ hr₁
      obtain ⟨-, rfl⟩ | ⟨-, hold⟩ := (Table.getElem?_set_eq_some hr).mp hr₁
      · exact ⟨hknows.version, hknows.issued, hknows.registered, hknows.closed⟩
      · exact (h.receivers i r₁ hold).grows { Grows.refl s with } }

theorem Sound.release (h : s.Sound) {index : Nat} (hr : s.receivers[index]? = some r)
    (hphase : r.phase = .dropping) : (s.release index r).Sound := by
  have hversion := (h.receivers index r hr).version
  unfold System.release
  split
  next hwait =>
    exact h.setReceiver hr (by simp [hphase]) (.of_wait_eq_none hversion hwait)
  next wait hwait =>
    have habandon : Sound { s with
        cells := Function.update s.cells wait.handle (s.cells wait.handle).abandon } :=
      h.setCell wait.handle (by simp [Cell.abandon])
    refine habandon.setReceiver hr ?_ (.of_wait_eq_none hversion rfl)
    dsimp only
    split <;> simp [hphase]

theorem Sound.cancelWait (h : s.Sound) {index handle waiterId : Nat}
    (hr : s.receivers[index]? = some r) (hphase : r.phase = .cancelling handle waiterId) :
    (s.cancelWait index r handle waiterId).Sound := by
  have hcancel : Sound { s with
      book := s.book.removeWaiter waiterId
      cells := Function.update s.cells handle (s.cells handle).cancel } := by
    refine (h.removeWaiter waiterId).setCell handle fun value hvalue => ?_
    unfold Cell.cancel at hvalue
    split at hvalue <;> exact hvalue
  have hknows := hcancel.receivers index r hr
  exact hcancel.setReceiver hr (by simp [hphase])
    ⟨hknows.version, hknows.issued, hknows.registered, hknows.closed⟩

theorem withReceiver_eq_some {index : Nat} {phase : ReceiverPhase}
    {f : Receiver → System α × Reply α} {result : System α × Reply α}
    (h : s.withReceiver index phase f = some result) :
    ∃ r, s.receivers[index]? = some r ∧ r.phase = phase ∧ f r = result := by
  unfold withReceiver at h
  split at h
  next => cases h
  next r hr =>
    obtain ⟨hphase, heq⟩ := Option.ite_none_right_eq_some.mp h
    exact ⟨r, hr, hphase, Option.some.inj heq⟩

theorem Sound.pollChanged (h : s.Sound) {index : Nat} (hr : s.receivers[index]? = some r) :
    (s.pollChanged index r).1.Sound := by
  unfold System.pollChanged
  split
  next wait _ => exact h.pollWait hr
  next => exact h.register hr

theorem Sound.act (h : s.Sound) {a : Action α} {reply : Reply α}
    (hact : s.act a = some (s', reply)) : s'.Sound := by
  cases a with
  | send value =>
      obtain ⟨hsenders, heq⟩ := Option.ite_none_right_eq_some.mp hact
      unfold System.send at heq
      split at heq <;> cases heq
      · exact h
      · exact h.bump hsenders value
  | sendModify value =>
      obtain ⟨hsenders, heq⟩ := Option.ite_none_right_eq_some.mp hact
      cases heq
      exact h.bump hsenders value
  | sendIfModified value modified =>
      obtain ⟨hsenders, heq⟩ := Option.ite_none_right_eq_some.mp hact
      cases heq
      unfold System.sendIfModified
      split
      · exact h.bump hsenders value
      · exact h.setValue value
  | wake index =>
      obtain ⟨_, hwake, heq⟩ := Option.map_eq_some_iff.mp hact
      cases heq
      exact h.wake hwake
  | load index =>
      obtain ⟨_, hload, heq⟩ := Option.map_eq_some_iff.mp hact
      cases heq
      exact h.load hload
  | fire index =>
      obtain ⟨_, hfire, heq⟩ := Option.map_eq_some_iff.mp hact
      cases heq
      exact h.fire hfire
  | cloneSender =>
      obtain ⟨hsenders, heq⟩ := Option.ite_none_right_eq_some.mp hact
      cases heq
      exact h.cloneSender hsenders
  | dropSender =>
      obtain ⟨hborrowed, heq⟩ := Option.ite_none_right_eq_some.mp hact
      cases heq
      exact h.dropSender (hborrowed.imp_right fun hlast => ⟨hlast.1, hlast.2.1⟩)
  | subscribe =>
      obtain ⟨-, heq⟩ := Option.ite_none_right_eq_some.mp hact
      cases heq
      exact h.addReceiver (Nat.le_refl _)
  | cloneReceiver index =>
      obtain ⟨r, hr, -, heq⟩ := withReceiver_eq_some hact
      cases heq
      exact h.addReceiver (h.receivers index r hr).version
  | dropReceiver index =>
      obtain ⟨r, hr, hphase, heq⟩ := withReceiver_eq_some hact
      cases heq
      exact h.dropReceiver hr hphase
  | release index =>
      obtain ⟨r, hr, hphase, heq⟩ := withReceiver_eq_some hact
      cases heq
      exact h.release hr hphase
  | cancelWait index =>
      simp only [System.act] at hact
      split at hact
      next => cases hact
      next r hr =>
        split at hact
        next hphase =>
          cases hact
          exact h.cancelWait hr hphase
        next => cases hact
  | pollChanged index =>
      obtain ⟨r, hr, -, heq⟩ := withReceiver_eq_some hact
      have hs : (s.pollChanged index r).1 = s' := congrArg Prod.fst heq
      rw [← hs]
      exact h.pollChanged hr
  | borrowAndUpdate index =>
      obtain ⟨r, hr, -, heq⟩ := withReceiver_eq_some hact
      cases heq
      exact h.borrowAndUpdate hr

theorem sound_of_reachable {value : α} (hreach : s.Reachable value) : s.Sound := by
  refine Transition.Reachable.invariant Sound (.init value) ?_ hreach
  intro s a s' h _ hstep
  obtain ⟨⟨s', reply⟩, hact, rfl⟩ := Option.map_eq_some_iff.mp hstep
  exact h.act hact

/-! ## What a receiver has seen -/

/-- No receiver has seen less than before. -/
def Advances (s s' : System α) : Prop :=
  ∀ (i : Nat) (r r' : Receiver), s.receivers[i]? = some r → s'.receivers[i]? = some r' →
    r.version ≤ r'.version

theorem advances_of_receivers_eq (h : s'.receivers = s.receivers) : Advances s s' := by
  intro i r r' hr hr'
  rw [h, hr] at hr'
  cases hr'
  exact Nat.le_refl _

theorem advances_addReceiver (version : Nat) : Advances s (s.addReceiver version) := by
  intro i r r' hr hr'
  obtain hold | ⟨rfl, -⟩ := Table.getElem?_concat_eq_some.mp hr'
  · cases hr.symm.trans hold
    exact Nat.le_refl _
  · simp at hr

theorem advances_set {index : Nat} (hr : s.receivers[index]? = some r) {r' : Receiver}
    (h : s'.receivers = s.receivers.set index r') (hversion : r.version ≤ r'.version) :
    Advances s s' := by
  intro i r₁ r₁' hr₁ hr₁'
  rw [h] at hr₁'
  obtain ⟨rfl, rfl⟩ | ⟨-, hold⟩ := (Table.getElem?_set_eq_some hr).mp hr₁'
  · cases hr.symm.trans hr₁
    exact hversion
  · cases hr₁.symm.trans hold
    exact Nat.le_refl _

theorem advances_release {index : Nat} (hr : s.receivers[index]? = some r) :
    Advances s (s.release index r) := by
  unfold System.release
  split
  · exact advances_set hr rfl (Nat.le_refl _)
  · exact advances_set hr rfl (Nat.le_refl _)

theorem advances_pollChanged {index : Nat} (hr : s.receivers[index]? = some r) :
    Advances s (s.pollChanged index r).1 := by
  unfold System.pollChanged
  split
  next wait _ =>
    unfold System.pollWait
    split
    next => exact advances_of_receivers_eq rfl
    next result _ =>
      cases result with
      | ok version =>
          dsimp only
          split
          next hlt => exact advances_set hr rfl (Nat.le_of_lt hlt)
          next => exact advances_set hr rfl (Nat.le_refl _)
      | error error => exact advances_set hr rfl (Nat.le_refl _)
  next =>
    unfold System.register
    split
    · exact advances_set hr rfl (Nat.le_refl _)
    · split
      · exact advances_set hr rfl (Nat.le_refl _)
      · exact advances_set hr rfl (Nat.le_refl _)

theorem Sound.advances (h : s.Sound) {a : Action α} {reply : Reply α}
    (hact : s.act a = some (s', reply)) : Advances s s' := by
  cases a with
  | send value =>
      obtain ⟨-, heq⟩ := Option.ite_none_right_eq_some.mp hact
      unfold System.send at heq
      split at heq <;> cases heq <;> exact advances_of_receivers_eq rfl
  | sendIfModified value modified =>
      obtain ⟨-, heq⟩ := Option.ite_none_right_eq_some.mp hact
      cases heq
      unfold System.sendIfModified
      split <;> exact advances_of_receivers_eq rfl
  | sendModify | cloneSender =>
      obtain ⟨-, heq⟩ := Option.ite_none_right_eq_some.mp hact
      cases heq
      exact advances_of_receivers_eq rfl
  | wake index =>
      obtain ⟨_, hwake, heq⟩ := Option.map_eq_some_iff.mp hact
      obtain ⟨version, -, rfl⟩ := Option.map_eq_some_iff.mp hwake
      cases heq
      exact advances_of_receivers_eq rfl
  | load index =>
      obtain ⟨_, hload, heq⟩ := Option.map_eq_some_iff.mp hact
      obtain ⟨handles, -, rfl⟩ := Option.map_eq_some_iff.mp hload
      cases heq
      exact advances_of_receivers_eq rfl
  | fire index =>
      obtain ⟨_, hfire, heq⟩ := Option.map_eq_some_iff.mp hact
      obtain ⟨p, -, rfl⟩ := Option.map_eq_some_iff.mp hfire
      cases heq
      exact advances_of_receivers_eq rfl
  | dropSender =>
      obtain ⟨-, heq⟩ := Option.ite_none_right_eq_some.mp hact
      cases heq
      unfold System.dropSender
      split <;> exact advances_of_receivers_eq rfl
  | subscribe =>
      obtain ⟨-, heq⟩ := Option.ite_none_right_eq_some.mp hact
      cases heq
      exact advances_addReceiver _
  | cloneReceiver index =>
      obtain ⟨r, -, -, heq⟩ := withReceiver_eq_some hact
      cases heq
      exact advances_addReceiver _
  | dropReceiver index =>
      obtain ⟨r, hr, -, heq⟩ := withReceiver_eq_some hact
      cases heq
      unfold System.dropReceiver
      split
      · exact advances_of_receivers_eq rfl
      · exact advances_set hr rfl (Nat.le_refl _)
  | release index =>
      obtain ⟨r, hr, -, heq⟩ := withReceiver_eq_some hact
      cases heq
      exact advances_release hr
  | cancelWait index =>
      simp only [System.act] at hact
      split at hact
      next => cases hact
      next r hr =>
        split at hact
        next =>
          cases hact
          exact advances_set hr rfl (Nat.le_refl _)
        next => cases hact
  | pollChanged index =>
      obtain ⟨r, hr, -, heq⟩ := withReceiver_eq_some hact
      have hs : (s.pollChanged index r).1 = s' := congrArg Prod.fst heq
      rw [← hs]
      exact advances_pollChanged hr
  | borrowAndUpdate index =>
      obtain ⟨r, hr, -, heq⟩ := withReceiver_eq_some hact
      cases heq
      exact advances_set hr rfl (h.receivers index r hr).version

theorem changed_of_pollChanged {index : Nat} (hr : s.receivers[index]? = some r)
    {result : Except RecvError Unit} (h : s.pollChanged index r = (s', .changed result)) :
    ∃ wait value, r.wait = some wait ∧ (s.cells wait.handle).result = some value ∧
      match result with
      | .ok () => ∃ version r', value = .ok version ∧ r.version < version ∧
          s'.receivers[index]? = some r' ∧ r'.version = version
      | .error error => value = .error error := by
  unfold System.pollChanged at h
  split at h
  next wait hwait =>
    unfold System.pollWait at h
    split at h
    next => cases h
    next value hvalue =>
      refine ⟨wait, value, hwait, hvalue, ?_⟩
      cases value with
      | ok version =>
          dsimp only at h
          split at h
          next hlt =>
            cases h
            exact ⟨version, _, rfl, hlt, Table.getElem?_set_self hr, rfl⟩
          next => cases h
      | error error =>
          cases h
          rfl
  next => cases h

end Runite.Channel.Watch.System
