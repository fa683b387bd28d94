import Runite.Channel.Broadcast
import Runite.Lib.Counting
import Runite.Lib.Table

/-!
# Broadcast receivers account for every message

`Ring` says what the buffer of a broadcast channel holds, and `Tiles` that the deliveries of
a receiver and the messages it was told to have missed follow each other without gap or
overlap.  An outcome that is on its way to a receiver is for the position it has.
-/

namespace Runite.Channel.Broadcast

open Mpsc (Cell)
open SwapRemove

variable {α : Type}

/-! ## The ring -/

/-- The buffer has the last messages that were sent, at most `capacity` of them. -/
structure Ring (s : State α) (sent : List α) : Prop where
  positive : 0 < s.capacity
  length : s.buffer.length ≤ s.capacity
  next : s.nextSeq = sent.length
  held : s.buffer.length ≤ s.nextSeq
  slots : ∀ (i : Nat) (slot : Slot α), s.buffer[i]? = some slot →
    slot.seq + s.buffer.length = s.nextSeq + i ∧ sent[slot.seq]? = some slot.value

/-- The outcome is the one for this position, and it stays so. -/
def RecvOutcome.Fits (sent : List α) (senders nextSeq : Nat) : RecvOutcome α → Prop
  | .value message next => next = nextSeq + 1 ∧ sent[nextSeq]? = some message
  | .lagged skipped next => 0 < skipped ∧ next = nextSeq + skipped ∧ next ≤ sent.length
  | .closed => senders = 0 ∧ sent.length ≤ nextSeq

namespace Ring

variable {s : State α} {sent : List α} {nextSeq : Nat}

theorem oldestSeq_add (h : Ring s sent) : s.oldestSeq + s.buffer.length = s.nextSeq := by
  unfold State.oldestSeq
  cases hbuffer : s.buffer with
  | nil => simp
  | cons slot rest =>
      have hslot := (h.slots 0 slot (by simp [hbuffer])).1
      simpa [hbuffer] using hslot

theorem getElem?_buffer (h : Ring s sent) (hoffered : s.oldestSeq ≤ nextSeq)
    (hlt : nextSeq < s.nextSeq) :
    ∃ slot, s.buffer[nextSeq - s.oldestSeq]? = some slot ∧ slot.seq = nextSeq ∧
      sent[nextSeq]? = some slot.value := by
  have hoffset := h.oldestSeq_add
  have hindex : nextSeq - s.oldestSeq < s.buffer.length := by omega
  have hslot := List.getElem?_eq_getElem hindex
  obtain ⟨hseq, hvalue⟩ := h.slots _ _ hslot
  have hat : (s.buffer[nextSeq - s.oldestSeq]).seq = nextSeq := by omega
  rw [hat] at hvalue
  exact ⟨_, hslot, hat, hvalue⟩

theorem not_recvPanics (h : Ring s sent) (nextSeq : Nat) : s.recvPanics nextSeq = false := by
  unfold State.recvPanics
  by_cases hoffered : s.oldestSeq ≤ nextSeq ∧ nextSeq < s.nextSeq
  · obtain ⟨slot, hslot, -⟩ := h.getElem?_buffer hoffered.1 hoffered.2
    simp [hslot]
  · rw [Bool.and_eq_false_iff]
    left
    simpa using hoffered

theorem not_wakePanics (h : Ring s sent) : s.wakePanics = false := by
  unfold State.wakePanics
  simp [h.not_recvPanics]

theorem fits_recvOutcome (h : Ring s sent) {outcome : RecvOutcome α}
    (houtcome : s.recvOutcome nextSeq = some outcome) :
    outcome.Fits sent s.senderCount nextSeq := by
  have hoffset := h.oldestSeq_add
  have hnext := h.next
  unfold State.recvOutcome at houtcome
  split at houtcome
  next hlagged =>
    cases houtcome
    exact ⟨by omega, by omega, by omega⟩
  next hoffered =>
    split at houtcome
    next hlt =>
      obtain ⟨slot, hslot, hseq, hvalue⟩ := h.getElem?_buffer (by omega) hlt
      rw [hslot] at houtcome
      cases houtcome
      exact ⟨by rw [hseq], hvalue⟩
    next hend =>
      obtain ⟨hclosed, heq⟩ := Option.ite_none_right_eq_some.mp houtcome
      cases heq
      exact ⟨hclosed, by omega⟩

theorem recvOutcome_eq_none (h : Ring s sent) (hnone : s.recvOutcome nextSeq = none) :
    sent.length ≤ nextSeq ∧ s.senderCount ≠ 0 := by
  have hnext := h.next
  unfold State.recvOutcome at hnone
  split at hnone
  next => cases hnone
  next hoffered =>
    split at hnone
    next hlt =>
      obtain ⟨slot, hslot, -⟩ := h.getElem?_buffer (by omega) hlt
      rw [hslot] at hnone
      cases hnone
    next hend =>
      refine ⟨by omega, ?_⟩
      intro hclosed
      rw [if_pos hclosed] at hnone
      cases hnone

/-- The oldest message makes room when the ring is full. -/
theorem room (h : Ring s sent) :
    Ring { s with buffer := if s.buffer.length = s.capacity then s.buffer.tail else s.buffer }
        sent ∧
      (if s.buffer.length = s.capacity then s.buffer.tail else s.buffer).length < s.capacity := by
  have hlength := h.length
  have hpositive := h.positive
  have hheld := h.held
  split
  next hfull =>
    have htail : s.buffer.tail.length = s.buffer.length - 1 := List.length_tail
    refine ⟨⟨h.positive, ?_, h.next, ?_, ?_⟩, by omega⟩
    · change s.buffer.tail.length ≤ s.capacity
      omega
    · change s.buffer.tail.length ≤ s.nextSeq
      omega
    · intro i slot hslot
      have hold : s.buffer[i + 1]? = some slot := by simpa using hslot
      obtain ⟨hseq, hvalue⟩ := h.slots (i + 1) slot hold
      refine ⟨?_, hvalue⟩
      change slot.seq + s.buffer.tail.length = s.nextSeq + i
      omega
  next hroom => exact ⟨h, by omega⟩

theorem pushValue (h : Ring s sent) (value : α) : Ring (s.pushValue value) (sent ++ [value]) := by
  obtain ⟨hring, hroom⟩ := h.room
  have hnext := h.next
  refine ⟨h.positive, ?_, ?_, ?_, ?_⟩
  · change (_ ++ [_]).length ≤ s.capacity
    rw [List.length_append, List.length_singleton]
    omega
  · change s.nextSeq + 1 = (sent ++ [value]).length
    simp [hnext]
  · change (_ ++ [_]).length ≤ s.nextSeq + 1
    rw [List.length_append, List.length_singleton]
    exact Nat.succ_le_succ hring.held
  · intro i slot hslot
    have hlength : (s.pushValue value).buffer.length =
        (if s.buffer.length = s.capacity then s.buffer.tail else s.buffer).length + 1 := by
      simp [State.pushValue]
    have hnextSeq : (s.pushValue value).nextSeq = s.nextSeq + 1 := rfl
    obtain hold | ⟨rfl, rfl⟩ := Table.getElem?_concat_eq_some.mp hslot
    · obtain ⟨hseq, hvalue⟩ := hring.slots i slot hold
      have hlt : slot.seq < sent.length := (List.getElem?_eq_some_iff.mp hvalue).1
      refine ⟨?_, by rw [List.getElem?_append_left hlt, hvalue]⟩
      have hheld : slot.seq + (if s.buffer.length = s.capacity then s.buffer.tail
          else s.buffer).length = s.nextSeq + i := hseq
      omega
    · refine ⟨?_, by simp [hnext]⟩
      change s.nextSeq + _ = _
      omega

end Ring

/-! ## Receivers -/

/-- The deliveries cover the messages from `start` to the position, one after the other. -/
inductive Tiles (sent : List α) (start : Nat) : List (Delivery α) → Nat → Prop
  | start : Tiles sent start [] start
  | value {got : List (Delivery α)} {position : Nat} {value : α} :
      Tiles sent start got position → sent[position]? = some value →
      Tiles sent start (got ++ [.value value]) (position + 1)
  | lagged {got : List (Delivery α)} {position skipped : Nat} :
      Tiles sent start got position → 0 < skipped → position + skipped ≤ sent.length →
      Tiles sent start (got ++ [.lagged skipped]) (position + skipped)

theorem getElem?_of_extended {sent sent' : List α} (h : sent <+: sent') {i : Nat} {value : α}
    (hvalue : sent[i]? = some value) : sent'[i]? = some value := by
  obtain ⟨rest, rfl⟩ := h
  rw [List.getElem?_append_left (List.getElem?_eq_some_iff.mp hvalue).1]
  exact hvalue

theorem Tiles.mono {sent sent' : List α} {start position : Nat} {got : List (Delivery α)}
    (h : Tiles sent start got position) (hsent : sent <+: sent') :
    Tiles sent' start got position := by
  induction h with
  | start => exact .start
  | value _ hvalue ih => exact ih.value (getElem?_of_extended hsent hvalue)
  | lagged _ hskipped hle ih => exact ih.lagged hskipped (Nat.le_trans hle hsent.length_le)

namespace System

variable {s s' : System α} {r : Receiver α}

/-- What a receiver has to do with the rest. -/
structure Knows (s : System α) (r : Receiver α) : Prop where
  position : r.nextSeq ≤ s.sent.length
  tiles : Tiles s.sent r.start r.got r.nextSeq
  issued : ∀ wait, r.wait = some wait → wait.handle < s.nextCell
  registered : ∀ wait, r.wait = some wait →
    ∀ w ∈ s.state.recvWaiters, w.handle = wait.handle → w.nextSeq = r.nextSeq
  outcome : ∀ wait outcome, r.wait = some wait →
    (wait.handle, outcome) ∈ s.firing ∨ (s.cells wait.handle).result = some outcome →
    outcome.Fits s.sent s.senders r.nextSeq

structure Sound (s : System α) : Prop where
  counted : s.state.senderCount = s.senders
  listed : s.receivers.countP (·.phase = .live) = s.state.receiverCount
  ring : Ring s.state s.sent
  issued : ∀ w ∈ s.state.recvWaiters, w.handle < s.nextCell
  waiting : ∀ w ∈ s.state.recvWaiters, s.sent.length ≤ w.nextSeq ∧ 0 < s.senders
  fired : ∀ p ∈ s.firing, p.1 < s.nextCell
  receivers : ∀ (i : Nat) (r : Receiver α), s.receivers[i]? = some r → s.Knows r
  unpanicked : s.panicked = false

/-- What a step may change, as far as a receiver that has no part in it is concerned. -/
structure Grows (s s' : System α) : Prop where
  sent : s.sent <+: s'.sent
  closed : s.senders = 0 → s'.senders = 0 ∧ s'.sent = s.sent
  nextCell : s.nextCell ≤ s'.nextCell
  waiters : ∀ w ∈ s'.state.recvWaiters, w ∈ s.state.recvWaiters ∨ s.nextCell ≤ w.handle
  firing : ∀ handle outcome, (handle, outcome) ∈ s'.firing →
    (handle, outcome) ∈ s.firing ∨ ∃ w ∈ s.state.recvWaiters, w.handle = handle ∧
      outcome.Fits s'.sent s'.senders w.nextSeq
  cells : ∀ handle outcome, handle < s.nextCell → (s'.cells handle).result = some outcome →
    (s.cells handle).result = some outcome ∨ (handle, outcome) ∈ s.firing

theorem Grows.refl (s : System α) : Grows s s where
  sent := List.prefix_rfl
  closed h := ⟨h, rfl⟩
  nextCell := Nat.le_refl _
  waiters _ hw := .inl hw
  firing _ _ hmem := .inl hmem
  cells _ _ _ hresult := .inl hresult

theorem Grows.fits (h : Grows s s') {outcome : RecvOutcome α} {nextSeq : Nat}
    (hfits : outcome.Fits s.sent s.senders nextSeq) :
    outcome.Fits s'.sent s'.senders nextSeq := by
  cases outcome with
  | value message next => exact ⟨hfits.1, getElem?_of_extended h.sent hfits.2⟩
  | lagged skipped next =>
      exact ⟨hfits.1, hfits.2.1, Nat.le_trans hfits.2.2 h.sent.length_le⟩
  | closed =>
      obtain ⟨hsenders, hsent⟩ := h.closed hfits.1
      exact ⟨hsenders, hsent ▸ hfits.2⟩

theorem Knows.grows (h : s.Knows r) (hgrows : Grows s s') : s'.Knows r where
  position := Nat.le_trans h.position hgrows.sent.length_le
  tiles := h.tiles.mono hgrows.sent
  issued wait hwait := Nat.lt_of_lt_of_le (h.issued wait hwait) hgrows.nextCell
  registered wait hwait w hw heq := by
    obtain hold | hnew := hgrows.waiters w hw
    · exact h.registered wait hwait w hold heq
    · have hlt := h.issued wait hwait
      omega
  outcome wait outcome hwait hcoming := by
    obtain hfiring | hcell := hcoming
    · obtain hold | ⟨w, hw, hhandle, hfits⟩ := hgrows.firing wait.handle outcome hfiring
      · exact hgrows.fits (h.outcome wait outcome hwait (.inl hold))
      · rw [← h.registered wait hwait w hw hhandle]
        exact hfits
    · have hbefore := hgrows.cells wait.handle outcome (h.issued wait hwait) hcell
      exact hgrows.fits (h.outcome wait outcome hwait hbefore.symm)

/-- A receiver that does not wait has its position and its deliveries. -/
theorem Knows.of_wait_eq_none (hposition : r.nextSeq ≤ s.sent.length)
    (htiles : Tiles s.sent r.start r.got r.nextSeq) (hwait : r.wait = none) : s.Knows r where
  position := hposition
  tiles := htiles
  issued := by simp [hwait]
  registered := by simp [hwait]
  outcome := by simp [hwait]

theorem Sound.channel {capacity : Nat} (h : System.channel capacity = some s) : s.Sound := by
  obtain ⟨hcapacity, heq⟩ := Option.ite_none_right_eq_some.mp h
  cases heq
  exact {
    counted := rfl
    listed := rfl
    ring := ⟨hcapacity, Nat.zero_le _, rfl, Nat.zero_le _, by simp⟩
    issued := by simp
    waiting := by simp
    fired := by simp
    receivers := by
      intro i r hr
      have hmem := List.mem_of_getElem? hr
      rw [List.mem_singleton.mp hmem]
      exact .of_wait_eq_none (Nat.zero_le _) .start rfl
    unpanicked := rfl }

/-! ### Steps of the senders -/

/-- The waiters that are left have nothing to get, and a sender. -/
theorem left_of_wake {state : State α} {sent : List α} (h : Ring state sent) {w : RecvWaiter}
    (hw : w ∈ state.wakeReadyReceivers.recvWaiters) :
    w ∈ state.recvWaiters ∧ sent.length ≤ w.nextSeq ∧ state.senderCount ≠ 0 := by
  have hnone := (takeReady_spec (fun w : RecvWaiter => state.recvOutcome w.nextSeq)
    state.recvWaiters).2.2 w hw
  exact ⟨mem_of_mem_takeReady_rest hw, h.recvOutcome_eq_none hnone⟩

/-- The outcomes that are sent to the others are those for their positions. -/
theorem fits_of_wakes {state : State α} {sent : List α} (h : Ring state sent) {handle : Nat}
    {outcome : RecvOutcome α} (hmem : (handle, outcome) ∈ state.wakes) :
    ∃ w ∈ state.recvWaiters, w.handle = handle ∧
      outcome.Fits sent state.senderCount w.nextSeq := by
  obtain ⟨⟨w, outcome'⟩, hp, heq⟩ := List.mem_map.mp hmem
  cases heq
  obtain ⟨hw, houtcome⟩ := mem_of_mem_takeReady hp
  exact ⟨w, hw, rfl, h.fits_recvOutcome houtcome⟩

theorem Sound.wake (h : s.Sound) {state : State α} {senders : Nat} {sent : List α}
    (hring : Ring state sent) (hwaiters : state.recvWaiters = s.state.recvWaiters)
    (hreceivers : state.receiverCount = s.state.receiverCount)
    (hcounted : state.senderCount = senders) (hsent : s.sent <+: sent)
    (hclosed : s.senders = 0 → senders = 0 ∧ sent = s.sent) : Sound { s with
      state := state.wakeReadyReceivers
      senders
      firing := s.firing ++ state.wakes
      panicked := s.panicked || state.wakePanics
      sent } :=
  { h with
    counted := hcounted
    listed := h.listed.trans hreceivers.symm
    ring := { hring with }
    issued := by
      intro w hw
      have hmem := (left_of_wake hring hw).1
      rw [hwaiters] at hmem
      exact h.issued w hmem
    waiting := by
      intro w hw
      obtain ⟨-, hnothing, hsender⟩ := left_of_wake hring hw
      exact ⟨hnothing, by change 0 < senders; omega⟩
    fired := by
      intro p hp
      obtain hold | hnew := List.mem_append.mp hp
      · exact h.fired p hold
      · obtain ⟨w, hw, hhandle, -⟩ := fits_of_wakes hring hnew
        rw [hwaiters] at hw
        exact hhandle ▸ h.issued w hw
    receivers := fun i r hr => (h.receivers i r hr).grows
      { Grows.refl s with
        sent := hsent
        closed := hclosed
        waiters := by
          intro w hw
          have hmem := (left_of_wake hring hw).1
          rw [hwaiters] at hmem
          exact .inl hmem
        firing := by
          intro handle outcome hfiring
          obtain hold | hnew := List.mem_append.mp hfiring
          · exact .inl hold
          · obtain ⟨w, hw, hhandle, hfits⟩ := fits_of_wakes hring hnew
            rw [hwaiters] at hw
            rw [hcounted] at hfits
            exact .inr ⟨w, hw, hhandle, hfits⟩ }
    unpanicked := by simp [h.unpanicked, hring.not_wakePanics] }

theorem Sound.send (h : s.Sound) (hsenders : 0 < s.senders) (value : α) :
    (s.send value).1.Sound := by
  unfold System.send
  split
  next => exact h
  next =>
    exact h.wake (h.ring.pushValue value) rfl rfl h.counted (List.prefix_append ..)
      (fun hzero => by omega)

theorem Sound.fire (h : s.Sound) {index : Nat} (hfire : s.fire index = some s') : s'.Sound := by
  obtain ⟨⟨fired, sent⟩, hfired, rfl⟩ := Option.map_eq_some_iff.mp hfire
  have hmem : (fired, sent) ∈ s.firing := List.mem_of_getElem? hfired
  have hsub : ∀ p ∈ s.firing.eraseIdx index, p ∈ s.firing :=
    fun p hp => (List.eraseIdx_sublist ..).subset hp
  exact {
    h with
    fired := fun p hp => h.fired p (hsub p hp)
    receivers := fun i r hr => (h.receivers i r hr).grows
      { Grows.refl s with
        firing := fun _ _ hfiring => .inl (hsub _ hfiring)
        cells := by
          intro handle outcome _ hresult
          by_cases heq : handle = fired
          · subst heq
            obtain hold | rfl := Cell.result_complete (by simpa using hresult)
            · exact .inl hold
            · exact .inr hmem
          · exact .inl (by simpa [heq] using hresult) } }

theorem Sound.cloneSender (h : s.Sound) (hsenders : 0 < s.senders) : Sound { s with
    state := { s.state with senderCount := s.state.senderCount + 1 }
    senders := s.senders + 1 } :=
  { h with
    counted := congrArg (· + 1) h.counted
    ring := { h.ring with }
    waiting := fun w hw => ⟨(h.waiting w hw).1, Nat.succ_pos _⟩
    receivers := fun i r hr => (h.receivers i r hr).grows
      { Grows.refl s with
        closed := by omega
        firing := fun _ _ hfiring => .inl hfiring } }

theorem Sound.dropSender (h : s.Sound) (hsenders : 0 < s.senders) : s.dropSender.Sound := by
  have hcounted := h.counted
  have hless : s.lessSender.senderCount = s.senders - 1 := by simp [lessSender, hcounted]
  have hring : Ring s.lessSender s.sent := { h.ring with }
  unfold System.dropSender
  rw [if_neg (by omega)]
  split
  next => exact h.wake hring rfl rfl hless List.prefix_rfl (fun hzero => by omega)
  next hmore =>
    exact {
      h with
      counted := hless
      ring := hring
      waiting := fun w hw => ⟨(h.waiting w hw).1, by change 0 < s.senders - 1; omega⟩
      receivers := fun i r hr => (h.receivers i r hr).grows
        { Grows.refl s with
          closed := by omega
          firing := fun _ _ hfiring => .inl hfiring } }

/-! ### Steps of the receivers -/

theorem Sound.subscribe (h : s.Sound) : s.subscribe.Sound :=
  { h with
    listed := by simp [System.subscribe, h.listed]
    ring := { h.ring with }
    receivers := by
      intro i r hr
      have hgrows : Grows s s.subscribe := { Grows.refl s with }
      obtain hold | ⟨-, rfl⟩ := Table.getElem?_concat_eq_some.mp hr
      · exact (h.receivers i r hold).grows hgrows
      · exact .of_wait_eq_none (Nat.le_of_eq h.ring.next) .start rfl }

/-- A receiver is replaced by one in a phase of the same kind. -/
theorem Sound.setReceiver (h : s.Sound) {index : Nat} (hr : s.receivers[index]? = some r)
    {r' : Receiver α} (hphase : r'.phase = .live ↔ r.phase = .live) (hknows : s.Knows r') :
    (s.setReceiver index r').Sound :=
  { h with
    listed := by
      have hcount := Counting.countP_set_add (fun r : Receiver α => decide (r.phase = .live)) r' hr
      rw [decide_eq_decide.mpr hphase] at hcount
      exact (Nat.add_right_cancel hcount).trans h.listed
    receivers := by
      intro i r₁ hr₁
      have hgrows : Grows s (s.setReceiver index r') := { Grows.refl s with }
      obtain ⟨-, rfl⟩ | ⟨-, hold⟩ := (Table.getElem?_set_eq_some hr).mp hr₁
      · exact hknows.grows hgrows
      · exact (h.receivers i r₁ hold).grows hgrows }

theorem Sound.setCell (h : s.Sound) (handle : Nat) {cell : Cell (RecvOutcome α)}
    (hcell : ∀ outcome, cell.result = some outcome → (s.cells handle).result = some outcome) :
    Sound { s with cells := Function.update s.cells handle cell } :=
  { h with
    receivers := fun i r hr => (h.receivers i r hr).grows
      { Grows.refl s with
        cells := by
          intro other outcome _ hresult
          by_cases heq : other = handle
          · subst heq
            exact .inl (hcell outcome (by simpa using hresult))
          · exact .inl (by simpa [heq] using hresult) } }

theorem Sound.removeWaiter (h : s.Sound) (waiterId : Nat) :
    Sound { s with state := s.state.removeWaiter waiterId } := by
  unfold State.removeWaiter
  split
  next index hindex =>
    have hlt : index < s.state.recvWaiters.length :=
      (List.findIdx?_eq_some_iff_getElem.mp hindex).1
    have hsub : ∀ w ∈ swapRemove s.state.recvWaiters index, w ∈ s.state.recvWaiters :=
      fun w hw => mem_of_mem_swapRemove (List.getElem?_eq_getElem hlt) hw
    exact {
      h with
      ring := { h.ring with }
      issued := fun w hw => h.issued w (hsub w hw)
      waiting := fun w hw => h.waiting w (hsub w hw)
      receivers := fun i r hr => (h.receivers i r hr).grows
        { Grows.refl s with waiters := fun w hw => .inl (hsub w hw) } }
  next => exact h

theorem Sound.register (h : s.Sound) {index : Nat} (hr : s.receivers[index]? = some r) :
    (s.register index r).Sound := by
  have hknows := h.receivers index r hr
  have hfired (outcome : RecvOutcome α) : (s.nextCell, outcome) ∉ s.firing :=
    fun hmem => Nat.lt_irrefl _ (h.fired _ hmem)
  have hissued (w : RecvWaiter) (hw : w ∈ s.state.recvWaiters) : w.handle ≠ s.nextCell :=
    Nat.ne_of_lt (h.issued w hw)
  have hcells (cell : Cell (RecvOutcome α)) (handle : Nat) (outcome : RecvOutcome α)
      (hlt : handle < s.nextCell)
      (hresult : (Function.update s.cells s.nextCell cell handle).result = some outcome) :
      (s.cells handle).result = some outcome := by
    rwa [Function.update_of_ne (Nat.ne_of_lt hlt)] at hresult
  unfold System.register
  rw [if_neg (by simp [h.ring.not_recvPanics])]
  split
  next outcome houtcome =>
    have hfits := h.ring.fits_recvOutcome houtcome
    rw [h.counted] at hfits
    have hissue : Sound { s with
        cells := Function.update s.cells s.nextCell (({} : Cell _).complete outcome)
        nextCell := s.nextCell + 1 } :=
      { h with
        issued := fun w hw => Nat.lt_succ_of_lt (h.issued w hw)
        fired := fun p hp => Nat.lt_succ_of_lt (h.fired p hp)
        receivers := fun i r hr => (h.receivers i r hr).grows
          { Grows.refl s with
            nextCell := Nat.le_succ _
            cells := fun handle outcome hlt hresult => .inl (hcells _ handle outcome hlt hresult) } }
    refine hissue.setReceiver hr Iff.rfl ⟨hknows.position, hknows.tiles, ?_, ?_, ?_⟩
    · rintro _ ⟨⟩
      exact Nat.lt_succ_self _
    · rintro _ ⟨⟩ w hw heq
      exact absurd heq (hissued w hw)
    · rintro _ outcome' ⟨⟩ (hmem | hcell)
      · exact absurd hmem (hfired outcome')
      · obtain rfl : outcome = outcome' := by simpa [Cell.complete] using hcell
        exact hfits
  next hnone =>
    obtain ⟨hnothing, hsender⟩ := h.ring.recvOutcome_eq_none hnone
    have hmem {w : RecvWaiter} (hw : w ∈ (s.state.enqueueWaiter r.nextSeq s.nextCell).recvWaiters) :
        w ∈ s.state.recvWaiters ∨ w.handle = s.nextCell ∧ w.nextSeq = r.nextSeq := by
      refine (List.mem_append.mp hw).imp_right fun hnew => ?_
      rw [List.mem_singleton.mp hnew]
      exact ⟨rfl, rfl⟩
    have hissue : Sound { s with
        state := s.state.enqueueWaiter r.nextSeq s.nextCell
        cells := Function.update s.cells s.nextCell {}
        nextCell := s.nextCell + 1 } :=
      { h with
        ring := { h.ring with }
        issued := by
          intro w hw
          obtain hold | ⟨hnew, -⟩ := hmem hw
          · exact Nat.lt_succ_of_lt (h.issued w hold)
          · exact Nat.lt_succ_of_le (Nat.le_of_eq hnew)
        waiting := by
          intro w hw
          obtain hold | ⟨-, hnew⟩ := hmem hw
          · exact h.waiting w hold
          · have hcounted := h.counted
            exact ⟨hnew ▸ hnothing, by change 0 < s.senders; omega⟩
        fired := fun p hp => Nat.lt_succ_of_lt (h.fired p hp)
        receivers := fun i r hr => (h.receivers i r hr).grows
          { Grows.refl s with
            nextCell := Nat.le_succ _
            waiters := fun w hw => (hmem hw).imp_right fun hnew => Nat.le_of_eq hnew.1.symm
            cells := fun handle outcome hlt hresult => .inl (hcells _ handle outcome hlt hresult) } }
    refine hissue.setReceiver hr Iff.rfl ⟨hknows.position, hknows.tiles, ?_, ?_, ?_⟩
    · rintro _ ⟨⟩
      exact Nat.lt_succ_self _
    · rintro _ ⟨⟩ w hw heq
      obtain hold | ⟨-, hnew⟩ := hmem hw
      · exact absurd heq (hissued w hold)
      · exact hnew
    · rintro _ outcome ⟨⟩ (hmem | hcell)
      · exact absurd hmem (hfired outcome)
      · simp at hcell

/-- The outcome that fits moves the receiver on by what it covers. -/
theorem Knows.applyOutcome (h : s.Knows r) {outcome : RecvOutcome α}
    (hfits : outcome.Fits s.sent s.senders r.nextSeq) : s.Knows (applyOutcome r outcome).1 := by
  cases outcome with
  | value value next =>
      obtain ⟨rfl, hvalue⟩ := hfits
      exact .of_wait_eq_none (List.getElem?_eq_some_iff.mp hvalue).1 (h.tiles.value hvalue) rfl
  | lagged skipped next =>
      obtain ⟨hskipped, rfl, hle⟩ := hfits
      exact .of_wait_eq_none hle (h.tiles.lagged hskipped hle) rfl
  | closed => exact .of_wait_eq_none h.position h.tiles rfl

theorem applyOutcome_phase (outcome : RecvOutcome α) :
    (applyOutcome r outcome).1.phase = r.phase := by
  cases outcome <;> rfl

theorem Sound.pollRecv (h : s.Sound) {index : Nat} (hr : s.receivers[index]? = some r) :
    (s.pollRecv index r).1.Sound := by
  have hknows := h.receivers index r hr
  unfold System.pollRecv
  split
  next wait hwait =>
    unfold System.pollWait
    split
    next => exact h
    next outcome houtcome =>
      have hfits := hknows.outcome wait outcome hwait (.inr houtcome)
      have habandon : Sound { s with
          cells := Function.update s.cells wait.handle (s.cells wait.handle).abandon } :=
        h.setCell wait.handle (by simp [Cell.abandon])
      have hknows' := habandon.receivers index r hr
      exact habandon.setReceiver hr (by rw [applyOutcome_phase]) (hknows'.applyOutcome hfits)
  next => exact h.register hr

theorem Sound.dropReceiver (h : s.Sound) {index : Nat} (hr : s.receivers[index]? = some r)
    (hphase : r.phase = .live) : (s.dropReceiver index r).Sound := by
  have hcount := Counting.countP_set_add (fun r : Receiver α => decide (r.phase = .live))
    { r with phase := .dropping } hr
  simp only [hphase, h.listed, decide_true, Bool.toNat_true] at hcount
  unfold System.dropReceiver
  rw [if_neg (by simp at hcount; omega)]
  have hknows := h.receivers index r hr
  exact {
    h with
    listed := by
      change List.countP _ (s.receivers.set index _) = s.state.receiverCount - 1
      simp at hcount ⊢
      omega
    ring := { h.ring with }
    receivers := by
      intro i r₁ hr₁
      obtain ⟨-, rfl⟩ | ⟨-, hold⟩ := (Table.getElem?_set_eq_some hr).mp hr₁
      · exact ⟨hknows.position, hknows.tiles, hknows.issued, hknows.registered, hknows.outcome⟩
      · exact (h.receivers i r₁ hold).grows { Grows.refl s with } }

theorem Sound.release (h : s.Sound) {index : Nat} (hr : s.receivers[index]? = some r)
    (hphase : r.phase = .dropping) : (s.release index r).Sound := by
  have hknows := h.receivers index r hr
  unfold System.release
  split
  next hwait =>
    exact h.setReceiver hr (by simp [hphase])
      (.of_wait_eq_none hknows.position hknows.tiles hwait)
  next wait hwait =>
    have habandon : Sound { s with
        cells := Function.update s.cells wait.handle (s.cells wait.handle).abandon } :=
      h.setCell wait.handle (by simp [Cell.abandon])
    refine habandon.setReceiver hr ?_ (.of_wait_eq_none hknows.position hknows.tiles rfl)
    unfold releasePhase
    split <;> simp [hphase]

theorem Sound.cancelWait (h : s.Sound) {index handle waiterId : Nat}
    (hr : s.receivers[index]? = some r) (hphase : r.phase = .cancelling handle waiterId) :
    (s.cancelWait index r handle waiterId).Sound := by
  have hcancel : Sound { s with
      state := s.state.removeWaiter waiterId
      cells := Function.update s.cells handle (s.cells handle).cancel } := by
    refine (h.removeWaiter waiterId).setCell handle fun value hvalue => ?_
    unfold Cell.cancel at hvalue
    split at hvalue <;> exact hvalue
  have hknows := hcancel.receivers index r hr
  exact hcancel.setReceiver hr (by simp [hphase])
    ⟨hknows.position, hknows.tiles, hknows.issued, hknows.registered, hknows.outcome⟩

theorem withReceiver_eq_some {index : Nat} {phase : ReceiverPhase}
    {f : Receiver α → System α × Reply α} {result : System α × Reply α}
    (h : s.withReceiver index phase f = some result) :
    ∃ r, s.receivers[index]? = some r ∧ r.phase = phase ∧ f r = result := by
  unfold withReceiver at h
  split at h
  next => cases h
  next r hr =>
    obtain ⟨hphase, heq⟩ := Option.ite_none_right_eq_some.mp h
    exact ⟨r, hr, hphase, Option.some.inj heq⟩

theorem Sound.act (h : s.Sound) {a : Action α} {reply : Reply α}
    (hact : s.act a = some (s', reply)) : s'.Sound := by
  cases a with
  | send value =>
      obtain ⟨hsenders, heq⟩ := Option.ite_none_right_eq_some.mp hact
      have hs : (s.send value).1 = s' := congrArg Prod.fst (Option.some.inj heq)
      rw [← hs]
      exact h.send hsenders value
  | fire index =>
      obtain ⟨_, hfire, heq⟩ := Option.map_eq_some_iff.mp hact
      cases heq
      exact h.fire hfire
  | cloneSender =>
      obtain ⟨hsenders, heq⟩ := Option.ite_none_right_eq_some.mp hact
      cases heq
      exact h.cloneSender hsenders
  | dropSender =>
      obtain ⟨hsenders, heq⟩ := Option.ite_none_right_eq_some.mp hact
      cases heq
      exact h.dropSender hsenders
  | subscribe =>
      obtain ⟨-, heq⟩ := Option.ite_none_right_eq_some.mp hact
      cases heq
      exact h.subscribe
  | resubscribe index =>
      obtain ⟨r, -, -, heq⟩ := withReceiver_eq_some hact
      cases heq
      exact h.subscribe
  | dropReceiver index =>
      obtain ⟨r, hr, hphase, heq⟩ := withReceiver_eq_some hact
      cases heq
      exact h.dropReceiver hr hphase
  | release index =>
      obtain ⟨r, hr, hphase, heq⟩ := withReceiver_eq_some hact
      cases heq
      exact h.release hr hphase
  | cancelWait index =>
      simp only [System.act] at hact
      split at hact
      next => cases hact
      next r hr =>
        split at hact
        next hphase =>
          cases hact
          exact h.cancelWait hr hphase
        next => cases hact
  | pollRecv index =>
      obtain ⟨r, hr, -, heq⟩ := withReceiver_eq_some hact
      have hs : (s.pollRecv index r).1 = s' := congrArg Prod.fst heq
      rw [← hs]
      exact h.pollRecv hr

theorem sound_of_reachable {capacity : Nat} (hreach : s.Reachable capacity) : s.Sound := by
  obtain ⟨s₀, hchannel, hrun⟩ := hreach
  refine Transition.Reachable.invariant Sound (.channel hchannel) ?_ hrun
  intro s a s' h _ hstep
  obtain ⟨⟨s', reply⟩, hact, rfl⟩ := Option.map_eq_some_iff.mp hstep
  exact h.act hact

end System

end Runite.Channel.Broadcast
