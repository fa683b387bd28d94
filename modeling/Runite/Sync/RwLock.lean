import Mathlib.Algebra.Group.Nat.Defs
import Runite.Task
import Runite.Lib.Transition
import Mathlib.Logic.Function.Basic

/-!
# The reader-writer lock

`sync::RwLock`, its two futures and its two guards.  The `Rc<Cell<bool>>` that
a queued waiter shares with the future that queued it is a cell of a small
heap, named by its allocation number.  Guards of one kind are interchangeable,
so the live ones are counted; live futures are kept as a list.

`World` is a lock together with everything safe code can hold on to it, and
`step` is one call: every run of `step` is a program using one lock.
-/

namespace Runite.Sync.RwLock

inductive WaiterKind
  | read
  | write
  deriving DecidableEq, Repr

/-- A cell of the heap of `Rc<Cell<bool>>` allocations. -/
abbrev CellId := Nat

/-- `Waiter`: one entry of the queue. -/
structure Waiter where
  id : Nat
  kind : WaiterKind
  selected : CellId
  waker : Waker
  deriving DecidableEq, Repr

/-- `RwLock<T>` without its value, with the cells its waiters point to and the
log of the wakes it performed.  `underflow` records that the reader count was
decremented at zero.  `next_waiter_id` does not wrap, which is the same for the first
2^64 waiters of a lock. -/
structure Lock where
  readers : Nat := 0
  writer : Bool := false
  nextWaiterId : Nat := 0
  waiters : List Waiter := []
  cells : CellId → Bool := fun _ => false
  nextCell : CellId := 0
  woken : List Waker := []
  underflow : Bool := false

/-- `RwLockReadFuture` or `RwLockWriteFuture`, by its `kind`.  `delivered` is
not a field of the source: it remembers that a poll returned the guard of the
slot the future was selected for. -/
structure Future where
  kind : WaiterKind
  waiter : Option (Nat × CellId) := none
  acquired : Bool := false
  delivered : Bool := false
  deriving DecidableEq, Repr

/-! ## Methods of the lock -/

/-- `usize - 1` of a build without overflow checks. -/
def usizePred (n : Nat) : Nat := if n = 0 then 2 ^ 64 - 1 else n - 1

/-- The test of the fast path of `try_read`, `try_write` and a first poll. -/
def Lock.available (l : Lock) : WaiterKind → Bool
  | .read => !l.writer && l.waiters.isEmpty
  | .write => !l.writer && l.readers == 0 && l.waiters.isEmpty

/-- The update of the fast path: one more reader slot, or the writer flag. -/
def Lock.acquire (l : Lock) : WaiterKind → Lock
  | .read => { l with readers := l.readers + 1 }
  | .write => { l with writer := true }

/-- `allocate_waiter_id` followed by the `push_back` of the new waiter. -/
def Lock.enqueue (l : Lock) (kind : WaiterKind) (waker : Waker) : Lock :=
  { l with
    nextWaiterId := l.nextWaiterId + 1
    nextCell := l.nextCell + 1
    cells := Function.update l.cells l.nextCell false
    waiters := l.waiters ++ [⟨l.nextWaiterId, kind, l.nextCell, waker⟩] }

/-- Replace the waker of the first queued waiter with this id. -/
def setWaker (id : Nat) (waker : Waker) : List Waiter → List Waiter
  | [] => []
  | q :: waiters =>
      if q.id = id then { q with waker := waker } :: waiters
      else q :: setWaker id waker waiters

def Lock.removeWaiter (l : Lock) (id : Nat) : Lock :=
  { l with waiters := l.waiters.eraseP (·.id = id) }

/-- Pop the front waiter and grant it its slot. -/
def Lock.select (l : Lock) (q : Waiter) (rest : List Waiter) : Lock :=
  { l.acquire q.kind with
    waiters := rest
    cells := Function.update l.cells q.selected true
    woken := l.woken ++ [q.waker] }

/-- The `while` loop of `release_to_next_waiters` over the front readers. -/
def admitReaders : List Waiter → Lock → Lock
  | [], l => l
  | q :: rest, l =>
      match q.kind with
      | .read => admitReaders rest (l.select q rest)
      | .write => l

def Lock.releaseToNextWaiters (l : Lock) : Lock :=
  if l.writer || 0 < l.readers then l
  else
    match l.waiters with
    | [] => l
    | q :: rest =>
        match q.kind with
        | .write => l.select q rest
        | .read => admitReaders l.waiters l

def Lock.releaseReader (l : Lock) : Lock :=
  let readers := usizePred l.readers
  let l' := { l with readers := readers, underflow := l.underflow || l.readers == 0 }
  if readers = 0 then l'.releaseToNextWaiters else l'

def Lock.releaseWriter (l : Lock) : Lock :=
  { l with writer := false }.releaseToNextWaiters

/-- Give back the slot of a guard or of a selected future. -/
def Lock.release (l : Lock) : WaiterKind → Lock
  | .read => l.releaseReader
  | .write => l.releaseWriter

/-! ## Futures -/

/-- The future has a waiter that a release selected. -/
def Future.isSelected (f : Future) (l : Lock) : Bool :=
  f.waiter.any fun w => l.cells w.2

/-- `Future::poll` of both futures, which differ only in the kind of the slot
they take.  `true` is `Poll::Ready` with a new guard. -/
def Future.poll (f : Future) (l : Lock) (waker : Waker) : Lock × Future × Bool :=
  if f.isSelected l then
    (l, { f with acquired := true, delivered := true }, true)
  else
    match f.waiter with
    | none =>
        if l.available f.kind then
          (l.acquire f.kind, { f with acquired := true }, true)
        else
          (l.enqueue f.kind waker,
            { f with waiter := some (l.nextWaiterId, l.nextCell) }, false)
    | some (id, _) =>
        ({ l with waiters := setWaker id waker l.waiters }, f, false)

/-- `Drop` of both futures. -/
def Future.drop (f : Future) (l : Lock) : Lock :=
  match f.waiter with
  | none => l
  | some (id, cell) =>
      if f.acquired then l
      else if l.cells cell then l.release f.kind
      else l.removeWaiter id

/-! ## Programs using one lock -/

/-- A lock, the live guards on it and the live futures of `read` and `write`. -/
structure World where
  lock : Lock := {}
  futures : List Future := []
  readGuards : Nat := 0
  writeGuards : Nat := 0

def World.addGuard (w : World) : WaiterKind → World
  | .read => { w with readGuards := w.readGuards + 1 }
  | .write => { w with writeGuards := w.writeGuards + 1 }

/-- The number of live guards of a kind. -/
def World.guards (w : World) : WaiterKind → Nat
  | .read => w.readGuards
  | .write => w.writeGuards

def World.removeGuard (w : World) : WaiterKind → World
  | .read => { w with readGuards := w.readGuards - 1 }
  | .write => { w with writeGuards := w.writeGuards - 1 }

/-- The calls of a program.  A future is named by its value: equal live
futures are interchangeable. -/
inductive Op
  | tryRead
  | tryWrite
  | read
  | write
  | poll (f : Future) (waker : Waker)
  | dropFuture (f : Future)
  | dropReadGuard
  | dropWriteGuard
  deriving DecidableEq, Repr

/-- The common body of `try_read` and `try_write`: the guard is kept, and
nothing changes when the call returns `None`. -/
def World.tryAcquire (w : World) (kind : WaiterKind) : World :=
  if w.lock.available kind then
    { w with lock := w.lock.acquire kind }.addGuard kind
  else w

def World.tryRead (w : World) : World := w.tryAcquire .read

def World.tryWrite (w : World) : World := w.tryAcquire .write

/-- The common body of `read` and `write`: a future that was never polled. -/
def World.create (w : World) (kind : WaiterKind) : World :=
  { w with futures := { kind := kind } :: w.futures }

def World.read (w : World) : World := w.create .read

def World.write (w : World) : World := w.create .write

/-- Poll the live future `f`, keeping the guard it may return. -/
def World.poll (w : World) (f : Future) (waker : Waker) : World :=
  let (lock, f', ready) := f.poll w.lock waker
  let w' := { w with lock := lock, futures := f' :: w.futures.erase f }
  if ready then w'.addGuard f.kind else w'

/-- Drop the live future `f`. -/
def World.dropFuture (w : World) (f : Future) : World :=
  { w with lock := f.drop w.lock, futures := w.futures.erase f }

/-- `Drop` of both guards. -/
def World.dropGuard (w : World) (kind : WaiterKind) : World :=
  { w with lock := w.lock.release kind }.removeGuard kind

/-- One call of a program; `none` when the program has no such future or guard. -/
def step (w : World) : Op → Option World
  | .tryRead => some w.tryRead
  | .tryWrite => some w.tryWrite
  | .read => some w.read
  | .write => some w.write
  | .poll f waker => if f ∈ w.futures then some (w.poll f waker) else none
  | .dropFuture f => if f ∈ w.futures then some (w.dropFuture f) else none
  | .dropReadGuard => if 0 < w.guards .read then some (w.dropGuard .read) else none
  | .dropWriteGuard => if 0 < w.guards .write then some (w.dropGuard .write) else none

/-! ## What a call does -/

/-- The four outcomes of a poll: the selected slot is returned, the fast path
is taken, the future queues, or it stays queued. -/
theorem World.poll_cases (w : World) (f : Future) (waker : Waker) :
    (f.isSelected w.lock = true ∧ w.poll f waker =
      { w with futures := { f with acquired := true, delivered := true } ::
        w.futures.erase f }.addGuard f.kind) ∨
    (f.waiter = none ∧ w.lock.available f.kind = true ∧ w.poll f waker =
      { w with
        lock := w.lock.acquire f.kind
        futures := { f with acquired := true } :: w.futures.erase f }.addGuard f.kind) ∨
    (f.waiter = none ∧ w.lock.available f.kind = false ∧ w.poll f waker =
      { w with
        lock := w.lock.enqueue f.kind waker
        futures := { f with waiter := some (w.lock.nextWaiterId, w.lock.nextCell) } ::
          w.futures.erase f }) ∨
    (∃ id c, f.waiter = some (id, c) ∧ w.lock.cells c = false ∧ w.poll f waker =
      { w with
        lock := { w.lock with waiters := setWaker id waker w.lock.waiters }
        futures := f :: w.futures.erase f }) := by
  cases hw : f.waiter with
  | none =>
      have hsel : f.isSelected w.lock = false := by simp [Future.isSelected, hw]
      cases hav : w.lock.available f.kind with
      | true => exact .inr (.inl ⟨rfl, rfl, by simp [World.poll, Future.poll, hsel, hw, hav]⟩)
      | false =>
          exact .inr (.inr (.inl ⟨rfl, rfl, by simp [World.poll, Future.poll, hsel, hw, hav]⟩))
  | some p =>
      obtain ⟨id, c⟩ := p
      cases hc : w.lock.cells c with
      | true =>
          have hsel : f.isSelected w.lock = true := by simp [Future.isSelected, hw, hc]
          exact .inl ⟨hsel, by simp [World.poll, Future.poll, hsel, hw]⟩
      | false =>
          have hsel : f.isSelected w.lock = false := by simp [Future.isSelected, hw, hc]
          exact .inr (.inr (.inr ⟨id, c, rfl, hc, by simp [World.poll, Future.poll, hsel, hw]⟩))

/-- The four outcomes of dropping a future: it holds nothing, its guard was
returned, its slot is released, or its queue entry is removed. -/
theorem World.dropFuture_cases (w : World) (f : Future) :
    (f.waiter = none ∧ w.dropFuture f = { w with futures := w.futures.erase f }) ∨
    (∃ id c, f.waiter = some (id, c) ∧ f.acquired = true ∧
      w.dropFuture f = { w with futures := w.futures.erase f }) ∨
    (∃ id c, f.waiter = some (id, c) ∧ f.acquired = false ∧ w.lock.cells c = true ∧
      w.dropFuture f =
        { w with lock := w.lock.release f.kind, futures := w.futures.erase f }) ∨
    (∃ id c, f.waiter = some (id, c) ∧ f.acquired = false ∧ w.lock.cells c = false ∧
      w.dropFuture f =
        { w with lock := w.lock.removeWaiter id, futures := w.futures.erase f }) := by
  cases hw : f.waiter with
  | none => exact .inl ⟨rfl, by simp [World.dropFuture, Future.drop, hw]⟩
  | some p =>
      obtain ⟨id, c⟩ := p
      cases hacq : f.acquired with
      | true =>
          exact .inr (.inl ⟨id, c, rfl, rfl, by simp [World.dropFuture, Future.drop, hw, hacq]⟩)
      | false =>
          cases hc : w.lock.cells c with
          | true =>
              exact .inr (.inr (.inl ⟨id, c, rfl, rfl, hc,
                by simp [World.dropFuture, Future.drop, hw, hacq, hc]⟩))
          | false =>
              exact .inr (.inr (.inr ⟨id, c, rfl, rfl, hc,
                by simp [World.dropFuture, Future.drop, hw, hacq, hc]⟩))

@[simp] theorem World.addGuard_lock (w : World) (kind : WaiterKind) :
    (w.addGuard kind).lock = w.lock := by cases kind <;> rfl

@[simp] theorem World.addGuard_futures (w : World) (kind : WaiterKind) :
    (w.addGuard kind).futures = w.futures := by cases kind <;> rfl

@[simp] theorem World.removeGuard_lock (w : World) (kind : WaiterKind) :
    (w.removeGuard kind).lock = w.lock := by cases kind <;> rfl

@[simp] theorem World.removeGuard_futures (w : World) (kind : WaiterKind) :
    (w.removeGuard kind).futures = w.futures := by cases kind <;> rfl

end Runite.Sync.RwLock
