import Runite.Sync.Notify

/-!
# The cell that is initialized once

`sync::OnceCell`.  Any number of `get_or_init` futures share one cell: one of
them runs its initializer while the others wait for a notification, and take
over when that initializer is dropped or panics.

A step is one pass of the loop of `get_or_init`, up to the next point where
other code can run: an `await`, the user's initializer, or the next pass.  What
the initializer does is up to the environment, and its own calls on the cell
are further steps.
-/

namespace Runite.Sync.OnceCell

open Notify (Notified)

variable {α : Type*}

inductive State
  | empty
  | initializing
  | ready
  deriving DecidableEq, Repr

/-- `OnceCell<T>`. -/
structure Cell (α : Type*) where
  state : State := .empty
  value : Option α := none
  notify : Notify.State := {}

def Cell.get (c : Cell α) : Option α :=
  if c.state ≠ .ready then none else c.value

/-- `Drop for InitGuard`, while it is armed. -/
def Cell.reset (c : Cell α) : Cell α :=
  { c with state := .empty, notify := c.notify.notifyWaiters }

/-- The end of the `Empty` branch, after the initializer returned `value`. -/
def Cell.finish (c : Cell α) (value : α) : Cell α :=
  { c with state := .ready, value := some value, notify := c.notify.notifyWaiters }

/-- The future of `get_or_init`: before a pass of its loop, waiting in the
`Initializing` branch, running its initializer, or finished.  `initializer`
says that the slot of the closure is still full. -/
inductive Call (α : Type*)
  | looping (initializer : Bool)
  | waiting (initializer : Bool) (f : Notified)
  | initializing
  | returned (value : α)
  | panicked
  | dropped
  deriving DecidableEq, Repr

/-- A cell and the futures of `get_or_init` by order of creation.
`expectFailed` records that one of the two `expect`s of the source panicked. -/
structure World (α : Type*) where
  cell : Cell α := {}
  calls : List (Call α) := []
  expectFailed : Bool := false

/-- One pass of the loop.  In the `Empty` branch the guard is armed before the
slot is taken, so a failing `expect` resets the cell. -/
def World.pass (w : World α) (call : Nat) (initializer : Bool) (waker : Waker) : World α :=
  match w.cell.state with
  | .ready =>
      match w.cell.get with
      | some value => { w with calls := w.calls.set call (.returned value) }
      | none => { w with calls := w.calls.set call .panicked, expectFailed := true }
  | .empty =>
      if initializer then
        { w with
          cell := { w.cell with state := .initializing }
          calls := w.calls.set call .initializing }
      else
        { w with
          cell := w.cell.reset
          calls := w.calls.set call .panicked
          expectFailed := true }
  | .initializing =>
      match Notified.poll {} w.cell.notify waker with
      | (notify, f, .ready _) =>
          { w with
            cell := { w.cell with notify := f.drop notify }
            calls := w.calls.set call (.looping initializer) }
      | (notify, f, .pending) =>
          { w with
            cell := { w.cell with notify := notify }
            calls := w.calls.set call (.waiting initializer f) }

/-- Poll the notification that the future waits for. -/
def World.resume (w : World α) (call : Nat) (initializer : Bool) (f : Notified) (waker : Waker) :
    World α :=
  match f.poll w.cell.notify waker with
  | (notify, f', .ready _) =>
      { w with
        cell := { w.cell with notify := f'.drop notify }
        calls := w.calls.set call (.looping initializer) }
  | (notify, f', .pending) =>
      { w with
        cell := { w.cell with notify := notify }
        calls := w.calls.set call (.waiting initializer f') }

/-- Calls of `get_or_init`, polls of its futures, what their initializers do,
and drops. -/
inductive Op (α : Type*)
  | getOrInit
  | poll (call : Nat) (waker : Waker)
  | initReady (call : Nat) (value : α)
  | initPanic (call : Nat)
  | dropCall (call : Nat)
  deriving DecidableEq, Repr

/-- One step; `none` when there is no such future, or it cannot do that. -/
def step (w : World α) : Op α → Option (World α)
  | .getOrInit => some { w with calls := w.calls ++ [.looping true] }
  | .poll call waker =>
      match w.calls[call]? with
      | some (.looping initializer) => some (w.pass call initializer waker)
      | some (.waiting initializer f) => some (w.resume call initializer f waker)
      | _ => none
  | .initReady call value =>
      match w.calls[call]? with
      | some .initializing =>
          match (w.cell.finish value).get with
          | some result =>
              some { w with
                cell := w.cell.finish value
                calls := w.calls.set call (.returned result) }
          | none =>
              some { w with
                cell := w.cell.finish value
                calls := w.calls.set call .panicked
                expectFailed := true }
      | _ => none
  | .initPanic call =>
      match w.calls[call]? with
      | some .initializing =>
          some { w with cell := w.cell.reset, calls := w.calls.set call .panicked }
      | _ => none
  | .dropCall call =>
      match w.calls[call]? with
      | some (.waiting _ f) =>
          some { w with
            cell := { w.cell with notify := f.drop w.cell.notify }
            calls := w.calls.set call .dropped }
      | some .initializing =>
          some { w with cell := w.cell.reset, calls := w.calls.set call .dropped }
      | some .dropped => none
      | some _ => some { w with calls := w.calls.set call .dropped }
      | none => none

def Call.ticket : Call α → Option Nat
  | .waiting _ f => f.waiter
  | _ => none

/-- The future is between the start and the end of its initializer. -/
def Call.isInitializing : Call α → Bool
  | .initializing => true
  | _ => false

def World.tickets (w : World α) : List (Option Nat) := w.calls.map Call.ticket

/-- The initializers that were started and have not ended. -/
def World.running (w : World α) : Nat := w.calls.countP Call.isInitializing

/-! ## The invariant -/

/-- What a future may be, given the cell. -/
def Call.Fits (c : Cell α) : Call α → Prop
  | .looping initializer => initializer = true
  | .waiting initializer f => initializer = true ∧ f.done = false ∧ f.waiter ≠ none
  | .returned value => c.value = some value
  | .initializing => True
  | .panicked => True
  | .dropped => True

/-- The state is `Initializing`, as a number. -/
def Cell.starts (c : Cell α) : Nat := if c.state = .initializing then 1 else 0

/-- What every run keeps.  The futures wait only while an initializer runs. -/
structure Sound (w : World α) : Prop where
  queue : w.cell.notify.queue.Consistent w.tickets
  broadcast : ∀ i t, w.cell.notify.queue.cells i ≠ .one t
  quiet : w.cell.state ≠ .initializing → w.cell.notify.queue.ids = []
  running : w.running = w.cell.starts
  value : w.cell.state = .ready ↔ w.cell.value.isSome = true
  calls : ∀ c ∈ w.calls, c.Fits w.cell
  expected : w.expectFailed = false

section Sound

variable {w : World α} {call : Nat} {c c' : Call α} {cell : Cell α}

theorem Sound.init : Sound ({} : World α) where
  queue := .init
  broadcast _ _ := nofun
  quiet _ := rfl
  running := rfl
  value := by simp
  calls := by simp
  expected := rfl

theorem Call.Fits.mono {d : Cell α} (hvalue : ∀ v, cell.value = some v → d.value = some v)
    (h : c.Fits cell) : c.Fits d := by
  cases c with
  | returned value => exact hvalue value h
  | looping initializer => exact h
  | waiting initializer f => exact h
  | initializing => trivial
  | panicked => trivial
  | dropped => trivial

theorem Sound.replace (h : Sound w) (hcall : w.calls[call]? = some c)
    (hqueue : cell.notify.queue.Consistent (w.tickets.set call c'.ticket))
    (hbroadcast : ∀ i t, cell.notify.queue.cells i ≠ .one t)
    (hquiet : cell.state ≠ .initializing → cell.notify.queue.ids = [])
    (hrunning : cell.starts + c.isInitializing.toNat =
      w.cell.starts + c'.isInitializing.toNat)
    (hvalue : cell.state = .ready ↔ cell.value.isSome = true)
    (hkeep : ∀ v, w.cell.value = some v → cell.value = some v) (hfits : c'.Fits cell) :
    Sound { w with cell := cell, calls := w.calls.set call c' } where
  queue := by
    rw [World.tickets, List.map_set]
    exact hqueue
  broadcast := hbroadcast
  quiet := hquiet
  running := by
    have hcount := Counting.countP_set_add Call.isInitializing c' hcall
    have hold := h.running
    simp only [World.running] at hold ⊢
    omega
  value := hvalue
  calls d hd := by
    rcases List.mem_or_eq_of_mem_set hd with hd | rfl
    · exact (h.calls d hd).mono hkeep
    · exact hfits
  expected := h.expected

theorem Sound.move (h : Sound w) (hcall : w.calls[call]? = some c) (hticket : c.ticket = none)
    (hticket' : c'.ticket = none) (hrunning : c'.isInitializing = c.isInitializing)
    (hfits : c'.Fits w.cell) : Sound { w with calls := w.calls.set call c' } := by
  refine h.replace hcall ?_ h.broadcast h.quiet (by rw [hrunning]) h.value (fun _ hv => hv) hfits
  have hk : w.tickets[call]? = some none :=
    Table.getElem?_map_eq_some.mpr ⟨_, hcall, hticket⟩
  rw [hticket', Table.set_eq_self hk]
  exact h.queue

theorem Sound.state_initializing (h : Sound w) (hcall : w.calls[call]? = some .initializing) :
    w.cell.state = .initializing := by
  have hrunning := h.running
  have hpos : 0 < w.running :=
    List.countP_pos_iff.mpr ⟨_, List.mem_of_getElem? hcall, rfl⟩
  by_contra hne
  rw [Cell.starts, if_neg hne] at hrunning
  omega

theorem Sound.value_eq_none (h : Sound w) (hstate : w.cell.state ≠ .ready) :
    w.cell.value = none := by
  simpa [hstate] using h.value

/-- The initializer of a future ends, with a value or without. -/
theorem Sound.endInit {state : State} {value : Option α} (h : Sound w)
    (hcall : w.calls[call]? = some .initializing) (hticket : c'.ticket = none)
    (hended : c'.isInitializing = false) (hstate : state ≠ .initializing)
    (hvalue : state = .ready ↔ value.isSome = true)
    (hfits : c'.Fits { state := state, value := value, notify := w.cell.notify.notifyWaiters }) :
    Sound { w with
      cell := { state := state, value := value, notify := w.cell.notify.notifyWaiters }
      calls := w.calls.set call c' } := by
  have hk : w.tickets[call]? = some none := Table.getElem?_map_eq_some.mpr ⟨_, hcall, rfl⟩
  have hselected : Notify.Selection.waiters ≠ default := by rintro ⟨⟩
  have hinit := h.state_initializing hcall
  refine h.replace hcall ?_ (fun i t => ?_) (fun _ => rfl) ?_ hvalue (fun v hv => ?_) hfits
  · rw [hticket, Table.set_eq_self hk]
    exact h.queue.popAll hselected
  · rw [Notify.State.notifyWaiters, WaitQueue.popAll_cells]
    split
    · rintro ⟨⟩
    · exact h.broadcast i t
  · rw [hended]
    simp [Cell.starts, hstate, hinit, Call.isInitializing]
  · rw [h.value_eq_none (by simp [hinit])] at hv
    cases hv

/-- The guard of an initializer that did not return a value. -/
theorem Sound.reset (h : Sound w) (hcall : w.calls[call]? = some .initializing)
    (hticket : c'.ticket = none) (hended : c'.isInitializing = false)
    (hfits : c'.Fits w.cell.reset) :
    Sound { w with cell := w.cell.reset, calls := w.calls.set call c' } := by
  have hnone := h.value_eq_none (by simp [h.state_initializing hcall])
  exact h.endInit hcall hticket hended nofun (by simp [hnone]) hfits

/-- A future polls the notification it waits for, or a new one. -/
theorem Sound.pollNotified {f : Notified} (h : Sound w) (hcall : w.calls[call]? = some c)
    (hticket : c.ticket = f.waiter) (hdone : f.done = false) (hold : c.isInitializing = false)
    (hinit : (∀ i, f.waiter = some i → w.cell.notify.queue.cells i = .pending) →
      w.cell.state = .initializing) (waker : Waker) :
    Sound
      (match f.poll w.cell.notify waker with
      | (notify, f', .ready _) =>
          { w with
            cell := { w.cell with notify := f'.drop notify }
            calls := w.calls.set call (.looping true) }
      | (notify, f', .pending) =>
          { w with
            cell := { w.cell with notify := notify }
            calls := w.calls.set call (.waiting true f') }) := by
  have hk : w.tickets[call]? = some f.waiter :=
    Table.getElem?_map_eq_some.mpr ⟨_, hcall, hticket⟩
  have hrunning : ∀ notify, Cell.starts { w.cell with notify := notify } + c.isInitializing.toNat =
      w.cell.starts + 0 := by
    intro notify
    rw [hold]
    rfl
  rcases f.poll_cases w.cell.notify waker with ⟨i, hi, hsel, heq⟩ | ⟨hw, -, heq⟩ | ⟨hsel, -, heq⟩
  · rw [heq]
    refine h.replace hcall ?_ h.broadcast h.quiet (hrunning _) h.value (fun _ hv => hv) rfl
    refine h.queue.leave hk fun j hj hmem => ?_
    obtain rfl : i = j := Option.some.inj (hi.symm.trans hj)
    exact hsel (h.queue.unselected i hmem)
  · rw [heq]
    rw [hw] at hk
    refine h.replace hcall ?_ h.broadcast h.quiet (hrunning _) h.value (fun _ hv => hv) rfl
    exact h.queue.leave hk (by simp)
  · rw [heq]
    refine h.replace hcall (h.queue.await waker hk) (fun i t => ?_) (fun hne => ?_) (hrunning _)
      h.value (fun _ hv => hv) ⟨rfl, hdone, ?_⟩
    · cases hw : f.waiter with
      | some j => exact h.broadcast i t
      | none =>
          simp only [WaitQueue.await, WaitQueue.enqueue]
          by_cases hi : i = w.cell.notify.queue.nextId
          · rw [hi, Function.update_self]
            rintro ⟨⟩
          · rw [Function.update_of_ne hi]
            exact h.broadcast i t
    · exact absurd (hinit hsel) hne
    · cases f.waiter <;> rintro ⟨⟩

theorem Sound.pass {initializer : Bool} (h : Sound w)
    (hcall : w.calls[call]? = some (.looping initializer)) (waker : Waker) :
    Sound (w.pass call initializer waker) := by
  obtain rfl : initializer = true := h.calls _ (List.mem_of_getElem? hcall)
  rw [World.pass]
  cases hstate : w.cell.state with
  | ready =>
      obtain ⟨value, hvalue⟩ := Option.isSome_iff_exists.mp (h.value.mp hstate)
      have hget : w.cell.get = some value := by simp [Cell.get, hstate, hvalue]
      simp only [hget]
      exact h.move hcall rfl rfl rfl hvalue
  | empty =>
      simp only [if_true]
      have hk : w.tickets[call]? = some none := Table.getElem?_map_eq_some.mpr ⟨_, hcall, rfl⟩
      refine h.replace hcall ?_ h.broadcast (fun hne => absurd rfl hne) ?_ ?_ (fun _ hv => hv)
        trivial
      · rw [Call.ticket, Table.set_eq_self hk]
        · exact h.queue
        · exact nofun
      · simp [Cell.starts, hstate, Call.isInitializing]
      · simp [h.value_eq_none (by simp [hstate])]
  | initializing => exact h.pollNotified hcall rfl rfl rfl (fun _ => hstate) waker

theorem Sound.resume {initializer : Bool} {f : Notified} (h : Sound w)
    (hcall : w.calls[call]? = some (.waiting initializer f)) (waker : Waker) :
    Sound (w.resume call initializer f waker) := by
  obtain ⟨rfl, hdone, hwaiter⟩ := h.calls _ (List.mem_of_getElem? hcall)
  refine h.pollNotified hcall rfl hdone rfl (fun hpending => ?_) waker
  -- A waiter that was not selected is queued, so an initializer runs.
  obtain ⟨i, hi⟩ := Option.ne_none_iff_exists'.mp hwaiter
  have hticket : some i ∈ w.tickets :=
    List.mem_map.mpr ⟨_, List.mem_of_getElem? hcall, hi⟩
  have hid := h.queue.queued i hticket (hpending i hi)
  by_contra hne
  rw [h.quiet hne] at hid
  cases hid

theorem Sound.dropWaiting {initializer : Bool} {f : Notified} (h : Sound w)
    (hcall : w.calls[call]? = some (.waiting initializer f)) :
    Sound { w with
      cell := { w.cell with notify := f.drop w.cell.notify }
      calls := w.calls.set call .dropped } := by
  obtain ⟨-, hdone, hwaiter⟩ := h.calls _ (List.mem_of_getElem? hcall)
  obtain ⟨i, hi⟩ := Option.ne_none_iff_exists'.mp hwaiter
  have hk : w.tickets[call]? = some (some i) :=
    Table.getElem?_map_eq_some.mpr ⟨_, hcall, hi⟩
  rcases f.drop_cases w.cell.notify hdone with
    ⟨hw, -⟩ | ⟨j, hw, hcell, heq⟩ | ⟨j, t, hw, hcell, -⟩ | ⟨j, hw, hcell, heq⟩
  · exact absurd hw hwaiter
  · obtain rfl : j = i := Option.some.inj (hw.symm.trans hi)
    have hid := h.queue.queued j (List.mem_of_getElem? hk) hcell
    rw [heq]
    refine h.replace hcall (h.queue.remove hk hid) (fun k t => ?_) (fun hne => ?_) rfl h.value
      (fun _ hv => hv) trivial
    · rw [WaitQueue.remove_cells]
      exact h.broadcast k t
    · rw [h.quiet hne] at hid
      cases hid
  · exact absurd hcell (h.broadcast j t)
  · obtain rfl : j = i := Option.some.inj (hw.symm.trans hi)
    rw [heq]
    refine h.replace hcall (h.queue.leave hk ?_) h.broadcast h.quiet rfl h.value (fun _ hv => hv)
      trivial
    rintro k ⟨⟩ hmem
    have hnot := h.queue.unselected j hmem
    rw [hcell] at hnot
    cases hnot

theorem Sound.step {w' : World α} {op : Op α} (h : Sound w) (hs : step w op = some w') :
    Sound w' := by
  cases op with
  | getOrInit =>
      obtain rfl := Option.some.inj hs
      have htickets : (w.calls ++ [Call.looping true]).map Call.ticket = w.tickets ++ [none] := by
        simp [World.tickets, Call.ticket]
      refine { h with queue := ?_, running := ?_, calls := ?_ }
      · rw [World.tickets, htickets]
        exact h.queue.join
      · rw [← h.running]
        simp [World.running, Call.isInitializing]
      · intro c hc
        rcases List.mem_append.mp hc with hc | hc
        · exact h.calls c hc
        · obtain rfl := List.mem_singleton.mp hc
          exact rfl
  | poll call waker =>
      simp only [OnceCell.step] at hs
      split at hs
      next initializer hcall =>
        obtain rfl := Option.some.inj hs
        exact h.pass hcall waker
      next initializer f hcall =>
        obtain rfl := Option.some.inj hs
        exact h.resume hcall waker
      next => cases hs
  | initReady call value =>
      simp only [OnceCell.step] at hs
      split at hs
      next hcall =>
        have hget : (w.cell.finish value).get = some value := rfl
        rw [hget] at hs
        obtain rfl := Option.some.inj hs
        exact h.endInit hcall rfl rfl nofun (by simp) rfl
      next => cases hs
  | initPanic call =>
      simp only [OnceCell.step] at hs
      split at hs
      next hcall =>
        obtain rfl := Option.some.inj hs
        exact h.reset hcall rfl rfl trivial
      next => cases hs
  | dropCall call =>
      simp only [OnceCell.step] at hs
      split at hs
      next initializer f hcall =>
        obtain rfl := Option.some.inj hs
        exact h.dropWaiting hcall
      next hcall =>
        obtain rfl := Option.some.inj hs
        exact h.reset hcall rfl rfl trivial
      next => cases hs
      next c hwaiting hinit _ hcall =>
        obtain rfl := Option.some.inj hs
        cases c with
        | looping initializer => exact h.move hcall rfl rfl rfl trivial
        | waiting initializer f => exact absurd rfl (hwaiting initializer f)
        | initializing => exact absurd rfl hinit
        | returned value => exact h.move hcall rfl rfl rfl trivial
        | panicked => exact h.move hcall rfl rfl rfl trivial
        | dropped => exact h.move hcall rfl rfl rfl trivial
      next => cases hs

end Sound

/-! ## Once ready -/

section Ready

variable {w w' : World α} {value : α}

def World.ReadyWith (w : World α) (value : α) : Prop :=
  w.cell.state = .ready ∧ w.cell.value = some value

theorem World.ReadyWith.step {op : Op α} (hsound : Sound w) (h : w.ReadyWith value)
    (hs : step w op = some w') : w'.ReadyWith value := by
  have hidle : ∀ call : Nat, w.calls[call]? ≠ some .initializing := by
    intro call hcall
    have hinit := hsound.state_initializing hcall
    rw [h.1] at hinit
    cases hinit
  cases op with
  | getOrInit =>
      obtain rfl := Option.some.inj hs
      exact h
  | poll call waker =>
      simp only [OnceCell.step] at hs
      split at hs
      next initializer hcall =>
        obtain rfl := Option.some.inj hs
        have hget : w.cell.get = some value := by simp [Cell.get, h.1, h.2]
        simp only [World.pass, h.1, hget]
        exact h
      next initializer f hcall =>
        obtain rfl := Option.some.inj hs
        rw [World.resume]
        split
        · exact h
        · exact h
      next => cases hs
  | initReady call result =>
      simp only [OnceCell.step] at hs
      split at hs
      next hcall => exact absurd hcall (hidle call)
      next => cases hs
  | initPanic call =>
      simp only [OnceCell.step] at hs
      split at hs
      next hcall => exact absurd hcall (hidle call)
      next => cases hs
  | dropCall call =>
      simp only [OnceCell.step] at hs
      split at hs
      next =>
        obtain rfl := Option.some.inj hs
        exact h
      next hcall => exact absurd hcall (hidle call)
      next => cases hs
      next =>
        obtain rfl := Option.some.inj hs
        exact h
      next => cases hs

end Ready

open Transition

/-- Every use of a cell by any number of `get_or_init` futures: at most one
initializer is running, and one is exactly while the state is `Initializing`;
a ready cell has a value and keeps it in every continuation; a future that
returned has returned that value; while the state is not `Initializing`, every
future that waits has been notified; and neither `expect` fails. -/
theorem initialized_once_of_reachable {w : World α}
    (hreach : Reachable step (fun _ _ => True) ({} : World α) w) :
    w.running ≤ 1 ∧ (w.running = 1 ↔ w.cell.state = .initializing) ∧
    (w.cell.state = .ready → ∃ value, w.ReadyWith value ∧
      ∀ w', Reachable step (fun _ _ => True) w w' → w'.ReadyWith value) ∧
    (∀ value, .returned value ∈ w.calls → w.ReadyWith value) ∧
    (w.cell.state ≠ .initializing → ∀ initializer f, .waiting initializer f ∈ w.calls →
      ∃ i, f.waiter = some i ∧ w.cell.notify.queue.cells i ≠ .pending) ∧
    w.expectFailed = false := by
  have h : Sound w := hreach.invariant Sound Sound.init fun _ _ _ h _ hs => h.step hs
  refine ⟨?_, ?_, ?_, ?_, ?_, h.expected⟩
  · rw [h.running, Cell.starts]
    split <;> omega
  · rw [h.running, Cell.starts]
    split
    next hinit => exact iff_of_true rfl hinit
    next hinit => exact iff_of_false nofun hinit
  · intro hready
    obtain ⟨value, hvalue⟩ := Option.isSome_iff_exists.mp (h.value.mp hready)
    refine ⟨value, ⟨hready, hvalue⟩, fun w' hlater => ?_⟩
    have hboth : Sound w' ∧ w'.ReadyWith value :=
      hlater.invariant (fun w' => Sound w' ∧ w'.ReadyWith value) ⟨h, hready, hvalue⟩
        fun _ _ _ hw _ hs => ⟨hw.1.step hs, hw.2.step hw.1 hs⟩
    exact hboth.2
  · intro value hmem
    have hvalue : w.cell.value = some value := h.calls _ hmem
    exact ⟨h.value.mpr (by simp [hvalue]), hvalue⟩
  · intro hne initializer f hmem
    obtain ⟨-, -, hwaiter⟩ := h.calls _ hmem
    obtain ⟨i, hi⟩ := Option.ne_none_iff_exists'.mp hwaiter
    refine ⟨i, hi, fun hpending => ?_⟩
    have hid := h.queue.queued i (List.mem_map.mpr ⟨_, hmem, hi⟩) hpending
    rw [h.quiet hne] at hid
    cases hid

/-- The first initializer is dropped while the second future waits; the second
one takes over, and both later futures return its value. -/
theorem initialized_after_dropped :
    ∃ w, Reachable step (fun _ _ => True) ({} : World Nat) w ∧ w.ReadyWith 5 ∧
      w.calls = [.dropped, .returned 5, .returned 5] := by
  obtain ⟨w, hreach, hw⟩ := Reachable.exists_of_run step (fun _ _ => True) ({} : World Nat)
    [.getOrInit, .getOrInit, .getOrInit, .poll 0 7, .poll 1 8, .dropCall 0, .poll 1 8, .poll 1 8,
      .poll 2 9, .initReady 1 5, .poll 2 9, .poll 2 9]
    (fun w => w.calls == [.dropped, .returned 5, .returned 5]) (by simp) (by decide)
  have hcalls : w.calls = [.dropped, .returned 5, .returned 5] := by simpa using hw
  obtain ⟨-, -, -, hreturned, -⟩ := initialized_once_of_reachable hreach
  exact ⟨w, hreach, hreturned 5 (by simp [hcalls]), hcalls⟩

end Runite.Sync.OnceCell
