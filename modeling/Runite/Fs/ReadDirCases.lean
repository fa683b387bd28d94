import Runite.Fs.ReadDir

/-!
# The steps of reading a directory

What a step of each thread can do, with the conditions that it checked: `Performed`
within `request_batch`, `submit_batch` and `complete`, `Polled` for a pass of the
loop of `poll_next`, `Advanced` for the consumer, and `Ran` for a batch.
-/

namespace Runite.Fs.ReadDir

open Runite.Io

variable {α : Type}

/-! ## Where the batch is -/

namespace Routine

/-- The thread is responsible for the batch that it marked as active. -/
def holds : Routine → Bool
  | .submit | .defer _ | .complete _ => true
  | .request | .wake _ | .release => false

/-- The lock section of `complete` is over. -/
def isTail : Routine → Bool
  | .wake _ | .release => true
  | .request | .submit | .defer _ | .complete _ => false

/-- The waker that is going to be woken. -/
def wakes : Routine → Option Nat
  | .wake parked => parked.map Parked.serial
  | _ => none

def rank : Routine → Nat
  | .request => 6
  | .submit => 5
  | .defer _ => 4
  | .complete _ => 3
  | .wake _ => 2
  | .release => 1

end Routine

namespace Batch

/-- The batch has taken the iterator out. -/
def hasIterator : Batch α → Bool
  | .queued | .submitting _ => false
  | _ => true

def isTail : Batch α → Bool
  | .submitting routine | .completing routine => routine.isTail
  | _ => false

/-- The batch is in a routine that it gets to. -/
def placed : Batch α → Bool
  | .submitting .request | .completing .request | .completing .submit | .completing (.defer _) =>
      false
  | _ => true

def pulls : Batch α → Bool
  | .pulling _ | .pushing _ _ => true
  | _ => false

/-- The entry that the iterator gave and that is not in the buffer yet. -/
def inHand : Batch α → List (Except IoError α)
  | .pushing entry _ => [entry]
  | _ => []

/-- The batch will come to a stored waker without being asked for a refill. -/
def covers : Batch α → Bool
  | .checking 0 | .waking _ _ | .finishing => false
  | _ => true

def wakes : Batch α → Option Nat
  | .waking parked _ => parked.map Parked.serial
  | .submitting routine | .completing routine => routine.wakes
  | _ => none

end Batch

namespace Consumer

/-- Where the consumer is in `request_batch`. -/
def routine : Consumer α → Option Routine
  | .creating routine | .refilling _ routine | .awaiting _ _ routine => some routine
  | _ => none

def holds (c : Consumer α) : Bool := c.routine.any Routine.holds

def isTail (c : Consumer α) : Bool := c.routine.any Routine.isTail

def wakes (c : Consumer α) : Option Nat := c.routine.bind Routine.wakes

/-- The entry that the poll is going to return. -/
def inHand : Consumer α → List (Except IoError α)
  | .refilling entry _ => [entry]
  | _ => []

/-- The lock section of `cancel` is over. -/
def isCancelled : Consumer α → Bool
  | .releasing | .dropped => true
  | _ => false

/-- Where the consumer goes from `request_batch`. -/
def resume : Consumer α → Routine ⊕ Bool → Consumer α
  | .creating _, .inl routine => .creating routine
  | .creating _, .inr true => .idle none
  | .creating _, .inr false => .cancelling
  | .refilling entry _, .inl routine => .refilling entry routine
  | .refilling _ _, .inr _ => .idle none
  | .awaiting waker serial _, .inl routine => .awaiting waker serial routine
  | .awaiting _ serial _, .inr true => .idle (some serial)
  | .awaiting waker _ _, .inr false => .polling waker
  | c, _ => c

/-- What the poll returns when it leaves `request_batch`. -/
def returns : Consumer α → Routine ⊕ Bool → List (Answer α)
  | .refilling entry _, .inr _ => [.entry entry]
  | _, _ => []

theorem routine_resume {c : Consumer α} {r : Routine} (h : c.routine = some r)
    (out : Routine ⊕ Bool) : (c.resume out).routine = out.getLeft? := by
  cases c <;> simp only [routine, reduceCtorEq] at h <;> rcases out with _ | _ | _ <;> rfl

theorem isCancelled_resume {c : Consumer α} {r : Routine} (h : c.routine = some r)
    (out : Routine ⊕ Bool) : (c.resume out).isCancelled = c.isCancelled := by
  cases c <;> simp only [routine, reduceCtorEq] at h <;> rcases out with _ | _ | _ <;> rfl

theorem holds_of_routine {c : Consumer α} {r : Option Routine} (h : c.routine = r) :
    c.holds = r.any Routine.holds := by
  rw [holds, h]

theorem isTail_of_routine {c : Consumer α} {r : Option Routine} (h : c.routine = r) :
    c.isTail = r.any Routine.isTail := by
  rw [isTail, h]

end Consumer

namespace World

variable {w w' : World α} {capacity : Nat}

theorem releasePending_eq (w : World α) :
    w.releasePending = { w with pending := false, released := w.released + w.pending.toNat } := by
  obtain ⟨queue, pending, released, jobs, consumer, pulled, exhausted, answers, woken, serial⟩ := w
  cases pending <;> rfl

/-- The ways through a step of `request_batch`, `submit_batch` or `complete`. -/
inductive Performed (refused : Option IoError) (w : World α) :
    Routine → World α → Routine ⊕ Bool → Prop
  /-- the scan is over -/
  | ended : w.queue.done = true ∨ w.queue.cancelled = true →
      Performed refused w .request w (.inr true)
  /-- a batch is active, and is asked to go on -/
  | asks : w.queue.done = false → w.queue.cancelled = false → w.queue.batchActive = true →
      Performed refused w .request { w with queue := { w.queue with refillRequested := true } }
        (.inr true)
  /-- nobody has the iterator -/
  | lost : w.queue.done = false → w.queue.cancelled = false → w.queue.batchActive = false →
      w.queue.source = none → Performed refused w .request w (.inr true)
  | activates : w.queue.done = false → w.queue.cancelled = false → w.queue.batchActive = false →
      w.queue.source ≠ none →
      Performed refused w .request
        { w with queue := { w.queue with batchActive := true, refillRequested := false } }
        (.inl .submit)
  | submits : refused = none →
      Performed refused w .submit { w with jobs := w.jobs ++ [.queued] } (.inr true)
  | refuses {error : IoError} : refused = some error →
      Performed refused w .submit w (.inl (.defer error))
  /-- there are entries to come back from -/
  | defers {error : IoError} : w.queue.done = false → w.queue.cancelled = false →
      w.queue.entries ≠ [] →
      Performed refused w (.defer error)
        { w with queue := { w.queue with batchActive := false, refillRequested := true } }
        (.inr false)
  | gives {error : IoError} :
      Performed refused w (.defer error) w (.inl (.complete (some error)))
  | completes {error : Option IoError} : w.queue.done = false → w.queue.cancelled = false →
      Performed refused w (.complete error)
        { w with queue :=
          { w.queue with
            done := true, batchActive := false, refillRequested := false, source := none,
            terminalError := error, waker := none } }
        (.inl (.wake w.queue.waker))
  /-- the scan is over already -/
  | skips {error : Option IoError} : w.queue.done = true →
      Performed refused w (.complete error) w (.inl (.wake none))
  /-- the consumer is gone -/
  | drains {error : Option IoError} : w.queue.done = false → w.queue.cancelled = true →
      Performed refused w (.complete error)
        { w with queue :=
          { w.queue with
            done := true, batchActive := false, refillRequested := false, source := none } }
        (.inl (.wake none))
  | wakes {parked : Option Parked} :
      Performed refused w (.wake parked) (w.wake parked) (.inl .release)
  | releases : Performed refused w .release w.releasePending (.inr false)

theorem performed_perform (w : World α) (refused : Option IoError) (r : Routine) :
    Performed refused w r (w.perform refused r).1 (w.perform refused r).2 := by
  cases r with
  | request =>
      cases hdone : w.queue.done with
      | true => simpa [perform, Queue.requestBatch, hdone] using Performed.ended (Or.inl hdone)
      | false =>
          cases hcancelled : w.queue.cancelled with
          | true =>
              simpa [perform, Queue.requestBatch, hcancelled] using
                Performed.ended (Or.inr hcancelled)
          | false =>
              cases hactive : w.queue.batchActive with
              | true =>
                  simpa [perform, Queue.requestBatch, hdone, hcancelled, hactive] using
                    Performed.asks hdone hcancelled hactive
              | false =>
                  cases hsource : w.queue.source with
                  | none =>
                      simpa [perform, Queue.requestBatch, hdone, hcancelled, hactive, hsource] using
                        Performed.lost hdone hcancelled hactive hsource
                  | some source =>
                      simpa [perform, Queue.requestBatch, hdone, hcancelled, hactive, hsource] using
                        Performed.activates hdone hcancelled hactive (by simp [hsource])
  | submit =>
      cases refused with
      | none => exact .submits rfl
      | some error => exact .refuses rfl
  | defer error =>
      by_cases hdefer : error.kind = .wouldBlock ∧ w.queue.done = false ∧
          w.queue.cancelled = false ∧ w.queue.entries ≠ []
      · obtain ⟨hkind, hdone, hcancelled, hentries⟩ := hdefer
        simpa [perform, Queue.deferFailedRefill, hkind, hdone, hcancelled, hentries] using
          Performed.defers hdone hcancelled hentries
      · have heq : w.queue.deferFailedRefill error = (w.queue, false) := by
          unfold Queue.deferFailedRefill
          split
          next => rfl
          next hkind =>
            split
            next => rfl
            next hnone =>
              simp only [Bool.or_eq_true, not_or, Bool.not_eq_true, List.isEmpty_iff] at hnone
              exact absurd ⟨not_not.mp hkind, hnone.1.1, hnone.1.2, hnone.2⟩ hdefer
        simpa [perform, heq] using Performed.gives
  | complete error =>
      cases hdone : w.queue.done with
      | true =>
          simpa [perform, Queue.complete, hdone] using Performed.skips hdone
      | false =>
          cases hcancelled : w.queue.cancelled with
          | true =>
              simpa [perform, Queue.complete, hdone, hcancelled] using
                Performed.drains hdone hcancelled
          | false =>
              simpa [perform, Queue.complete, hdone, hcancelled] using
                Performed.completes hdone hcancelled
  | wake parked => exact .wakes
  | release => exact .releases

/-- The ways through a pass of the loop of `poll_next`. -/
inductive Polled (capacity : Nat) (waker : Waker) (w : World α) : World α → Prop
  /-- an entry, with a refill on the way -/
  | refills {entry : Except IoError α} {entries : List (Except IoError α)} :
      w.queue.entries = entry :: entries →
      Polled capacity waker w
        { w with queue := { w.queue with entries }, consumer := .refilling entry .request }
  | entry {entry : Except IoError α} {entries : List (Except IoError α)} :
      w.queue.entries = entry :: entries →
      Polled capacity waker w ({ w with queue := { w.queue with entries } }.answer (.entry entry))
  | error {error : IoError} : w.queue.entries = [] → w.queue.terminalError = some error →
      Polled capacity waker w
        ({ w with queue := { w.queue with terminalError := none } }.answer (.error error))
  | finished : w.queue.entries = [] → w.queue.terminalError = none → w.queue.done = true →
      Polled capacity waker w (w.answer .finished)
  | parks : w.queue.entries = [] → w.queue.terminalError = none → w.queue.done = false →
      Polled capacity waker w
        { w with
          queue := { w.queue with waker := some ⟨w.serial, waker⟩ }
          serial := w.serial + 1
          consumer := .awaiting waker w.serial .request }

inductive Advanced (capacity : Nat) (refused : Option IoError) (w : World α) : World α → Prop
  | requests {r : Routine} {w₁ : World α} {out : Routine ⊕ Bool} :
      w.consumer.routine = some r → Performed refused w r w₁ out →
      Advanced capacity refused w
        { w₁ with
          consumer := w.consumer.resume out
          answers := w₁.answers ++ w.consumer.returns out }
  | polls {waker : Waker} {w' : World α} : w.consumer = .polling waker →
      Polled capacity waker w w' → Advanced capacity refused w w'
  | cancels : w.consumer = .cancelling →
      Advanced capacity refused w { w with queue := w.queue.cancel, consumer := .releasing }
  | releases : w.consumer = .releasing →
      Advanced capacity refused w { w.releasePending with consumer := .dropped }

theorem advanced_of_advance {refused : Option IoError}
    (hs : w.advance capacity refused = some w') : Advanced capacity refused w w' := by
  have hrequests : ∀ r w₁ out, w.consumer.routine = some r → w.perform refused r = (w₁, out) →
      Advanced capacity refused w
        { w₁ with
          consumer := w.consumer.resume out
          answers := w₁.answers ++ w.consumer.returns out } := by
    intro r w₁ out hr hperform
    have hp := performed_perform w refused r
    rw [hperform] at hp
    exact .requests hr hp
  unfold World.advance at hs
  cases hconsumer : w.consumer with
  | creating r =>
      rcases hperform : w.perform refused r with ⟨w₁, r' | _ | _⟩ <;>
        have hstep := hrequests r w₁ _ (by rw [hconsumer]; rfl) hperform <;>
        simp only [hconsumer, hperform] at hs <;> obtain rfl := Option.some.inj hs <;>
        simpa [hconsumer, Consumer.resume, Consumer.returns] using hstep
  | idle pending => simp [hconsumer] at hs
  | polling waker =>
      refine .polls hconsumer ?_
      rw [hconsumer] at hs
      dsimp only at hs
      cases hentries : w.queue.entries with
      | cons entry entries =>
          cases hrefill : !w.queue.done && decide (entries.length ≤ capacity / 2) with
          | true =>
              have hpass : w.queue.pollNext capacity ⟨w.serial, waker⟩
                  = ({ w.queue with entries }, .entry entry true) := by
                rw [← hrefill]
                simp only [Queue.pollNext, hentries]
              rw [hpass] at hs
              obtain rfl := Option.some.inj hs
              exact .refills hentries
          | false =>
              have hpass : w.queue.pollNext capacity ⟨w.serial, waker⟩
                  = ({ w.queue with entries }, .entry entry false) := by
                rw [← hrefill]
                simp only [Queue.pollNext, hentries]
              rw [hpass] at hs
              obtain rfl := Option.some.inj hs
              exact .entry hentries
      | nil =>
          cases herror : w.queue.terminalError with
          | some error =>
              have hpass : w.queue.pollNext capacity ⟨w.serial, waker⟩
                  = ({ w.queue with terminalError := none }, .error error) := by
                simp only [Queue.pollNext, hentries, herror]
              rw [hpass] at hs
              obtain rfl := Option.some.inj hs
              exact .error hentries herror
          | none =>
              cases hdone : w.queue.done with
              | true =>
                  have hpass : w.queue.pollNext capacity ⟨w.serial, waker⟩
                      = (w.queue, .finished) := by
                    simp [Queue.pollNext, hentries, herror, hdone]
                  rw [hpass] at hs
                  obtain rfl := Option.some.inj hs
                  exact .finished hentries herror hdone
              | false =>
                  have hpass : w.queue.pollNext capacity ⟨w.serial, waker⟩
                      = ({ w.queue with waker := some ⟨w.serial, waker⟩ }, .parked) := by
                    simp [Queue.pollNext, hentries, herror, hdone]
                  rw [hpass] at hs
                  obtain rfl := Option.some.inj hs
                  exact .parks hentries herror hdone
  | refilling entry r =>
      rcases hperform : w.perform refused r with ⟨w₁, r' | _ | _⟩ <;>
        have hstep := hrequests r w₁ _ (by rw [hconsumer]; rfl) hperform <;>
        simp only [hconsumer, hperform] at hs <;> obtain rfl := Option.some.inj hs <;>
        simpa [hconsumer, Consumer.resume, Consumer.returns, answer] using hstep
  | awaiting waker serial r =>
      rcases hperform : w.perform refused r with ⟨w₁, r' | _ | _⟩ <;>
        have hstep := hrequests r w₁ _ (by rw [hconsumer]; rfl) hperform <;>
        simp only [hconsumer, hperform] at hs <;> obtain rfl := Option.some.inj hs <;>
        simpa [hconsumer, Consumer.resume, Consumer.returns] using hstep
  | cancelling =>
      rw [hconsumer] at hs
      obtain rfl := Option.some.inj hs
      exact .cancels hconsumer
  | releasing =>
      rw [hconsumer] at hs
      obtain rfl := Option.some.inj hs
      exact .releases hconsumer
  | dropped => simp [hconsumer] at hs

/-- The batch goes on as `next`, or has returned. -/
def settle (w : World α) (index : Nat) : Option (Batch α) → World α
  | some next => w.setJob index next
  | none => w.endJob index

/-- The ways of a batch: the shared state after it, and where the batch goes. -/
inductive Ran (capacity : Nat) (w : World α) : Batch α → World α → Option (Batch α) → Prop
  /-- the scan is over -/
  | stops {job : Batch α} : w.queue.done = true ∨ w.queue.cancelled = true → job.isTail = false →
      job.wakes = none →
      Ran capacity w job { w with queue := { w.queue with batchActive := false } } none
  | lost : w.queue.done = false → w.queue.cancelled = false → w.queue.source = none →
      Ran capacity w .queued w (some (.completing (.complete (some lostError))))
  | opens : w.queue.done = false → w.queue.cancelled = false → w.queue.source = some .open →
      Ran capacity w .queued { w with queue := { w.queue with source := none } } (some .opening)
  | resumes : w.queue.done = false → w.queue.cancelled = false →
      w.queue.source = some .entries →
      Ran capacity w .queued { w with queue := { w.queue with source := none } }
        (some (.checking capacity))
  | opened : Ran capacity w .opening w (some (.checking capacity))
  /-- `open` failed, or it or the iterator panicked -/
  | fails {job : Batch α} {error : IoError} : job.isTail = false → job.hasIterator = true →
      job.inHand = [] → job.wakes = none →
      Ran capacity w job w (some (.completing (.complete (some error))))
  | last : Ran capacity w (.checking 0) w (some .finishing)
  | full {left : Nat} : w.queue.done = false → w.queue.cancelled = false →
      capacity ≤ w.queue.entries.length →
      Ran capacity w (.checking (left + 1)) w (some .finishing)
  | room {left : Nat} : w.queue.done = false → w.queue.cancelled = false →
      w.queue.entries.length < capacity →
      Ran capacity w (.checking (left + 1)) w (some (.pulling left))
  | exhausts {left : Nat} :
      Ran capacity w (.pulling left) { w with exhausted := true }
        (some (.completing (.complete none)))
  | pulls {entry : Except IoError α} {left : Nat} :
      Ran capacity w (.pulling left) { w with pulled := w.pulled ++ [entry] }
        (some (.pushing entry left))
  | pushes {entry : Except IoError α} {left : Nat} : w.queue.done = false →
      w.queue.cancelled = false →
      Ran capacity w (.pushing entry left)
        { w with
          queue := { w.queue with entries := w.queue.entries ++ [entry], waker := none } }
        (some (.waking w.queue.waker left))
  | wakes {parked : Option Parked} {left : Nat} :
      Ran capacity w (.waking parked left) (w.wake parked) (some (.checking left))
  | restarts : w.queue.done = false → w.queue.cancelled = false →
      w.queue.refillRequested = true → w.queue.entries.length < capacity →
      Ran capacity w .finishing
        { w with queue :=
          { w.queue with
            source := some .entries, batchActive := true, refillRequested := false } }
        (some (.submitting .submit))
  /-- nobody asked for more, or there is no room for it -/
  | rests : w.queue.done = false → w.queue.cancelled = false →
      (w.queue.refillRequested = true → capacity ≤ w.queue.entries.length) →
      Ran capacity w .finishing
        { w with queue := { w.queue with source := some .entries, batchActive := false } } none
  | submitting {refused : Option IoError} {r : Routine} {w₁ : World α} {out : Routine ⊕ Bool} :
      Performed refused w r w₁ out →
      Ran capacity w (.submitting r) w₁ (out.getLeft?.map .submitting)
  | completing {r : Routine} {w₁ : World α} {out : Routine ⊕ Bool} :
      Performed none w r w₁ out →
      Ran capacity w (.completing r) w₁ (out.getLeft?.map .completing)

theorem ran_of_runBatch {index : Nat} {job : Batch α} {event : Event α}
    (hs : w.runBatch capacity index job event = some w') :
    ∃ w₁ next, Ran capacity w job w₁ next ∧ w' = w₁.settle index next := by
  unfold World.runBatch at hs
  split at hs
  -- `queued`
  next =>
    by_cases hover : w.queue.done = true ∨ w.queue.cancelled = true
    · have hsection : w.queue.takeSource = ({ w.queue with batchActive := false }, .stop) := by
        simp [Queue.takeSource, hover]
      rw [hsection] at hs
      exact ⟨_, _, .stops hover rfl rfl, (Option.some.inj hs).symm⟩
    · simp only [not_or, Bool.not_eq_true] at hover
      have hsection : w.queue.takeSource = ({ w.queue with source := none }, .go w.queue.source) := by
        simp [Queue.takeSource, hover]
      rw [hsection] at hs
      rcases hsource : w.queue.source with _ | _ | _
      · have hkeep : { w with queue := { w.queue with source := none } } = w := by rw [← hsource]
        rw [hsource] at hs
        refine ⟨_, _, .lost hover.1 hover.2 hsource, (Option.some.inj hs).symm.trans ?_⟩
        exact congrArg (setJob · index (.completing (.complete (some lostError)))) hkeep
      · rw [hsource] at hs
        exact ⟨_, _, .opens hover.1 hover.2 hsource, (Option.some.inj hs).symm⟩
      · rw [hsource] at hs
        exact ⟨_, _, .resumes hover.1 hover.2 hsource, (Option.some.inj hs).symm⟩
  -- `opening`, and the panics
  next => exact ⟨_, _, .opened, (Option.some.inj hs).symm⟩
  next => exact ⟨_, _, .fails rfl rfl rfl rfl, (Option.some.inj hs).symm⟩
  next => exact ⟨_, _, .fails rfl rfl rfl rfl, (Option.some.inj hs).symm⟩
  next => exact ⟨_, _, .fails rfl rfl rfl rfl, (Option.some.inj hs).symm⟩
  -- `checking`
  next => exact ⟨_, _, .last, (Option.some.inj hs).symm⟩
  next left =>
    by_cases hover : w.queue.done = true ∨ w.queue.cancelled = true
    · have hsection : w.queue.checkRoom capacity
          = ({ w.queue with batchActive := false }, .stop) := by
        simp [Queue.checkRoom, hover]
      rw [hsection] at hs
      exact ⟨_, _, .stops hover rfl rfl, (Option.some.inj hs).symm⟩
    · simp only [not_or, Bool.not_eq_true] at hover
      by_cases hroom : w.queue.entries.length < capacity
      · have hsection : w.queue.checkRoom capacity = (w.queue, .go true) := by
          simp [Queue.checkRoom, hover, hroom]
        rw [hsection] at hs
        exact ⟨_, _, .room hover.1 hover.2 hroom, (Option.some.inj hs).symm⟩
      · have hsection : w.queue.checkRoom capacity = (w.queue, .go false) := by
          simp [Queue.checkRoom, hover, hroom]
        rw [hsection] at hs
        exact ⟨_, _, .full hover.1 hover.2 (Nat.le_of_not_lt hroom), (Option.some.inj hs).symm⟩
  -- `pulling`
  next => exact ⟨_, _, .exhausts, (Option.some.inj hs).symm⟩
  next => exact ⟨_, _, .pulls, (Option.some.inj hs).symm⟩
  -- `pushing`
  next entry left =>
    by_cases hover : w.queue.done = true ∨ w.queue.cancelled = true
    · have hsection : w.queue.push entry = ({ w.queue with batchActive := false }, .stop) := by
        simp [Queue.push, hover]
      rw [hsection] at hs
      exact ⟨_, _, .stops hover rfl rfl, (Option.some.inj hs).symm⟩
    · simp only [not_or, Bool.not_eq_true] at hover
      have hsection : w.queue.push entry
          = ({ w.queue with entries := w.queue.entries ++ [entry], waker := none },
            .go w.queue.waker) := by
        simp [Queue.push, hover]
      rw [hsection] at hs
      exact ⟨_, _, .pushes hover.1 hover.2, (Option.some.inj hs).symm⟩
  next => exact ⟨_, _, .wakes, (Option.some.inj hs).symm⟩
  -- `finishing`
  next =>
    by_cases hover : w.queue.done = true ∨ w.queue.cancelled = true
    · have hsection : w.queue.finishBatch capacity
          = ({ w.queue with batchActive := false }, false) := by
        simp [Queue.finishBatch, hover]
      rw [hsection] at hs
      exact ⟨_, _, .stops hover rfl rfl, (Option.some.inj hs).symm⟩
    · simp only [not_or, Bool.not_eq_true] at hover
      by_cases hmore : w.queue.refillRequested = true ∧ w.queue.entries.length < capacity
      · have hsection : w.queue.finishBatch capacity
            = ({ w.queue with
                source := some .entries, batchActive := true, refillRequested := false },
              true) := by
          simp [Queue.finishBatch, hover, hmore]
        rw [hsection] at hs
        exact ⟨_, _, .restarts hover.1 hover.2 hmore.1 hmore.2, (Option.some.inj hs).symm⟩
      · have hsection : w.queue.finishBatch capacity
            = ({ w.queue with source := some .entries, batchActive := false }, false) := by
          simp [Queue.finishBatch, hover, hmore]
        rw [hsection] at hs
        have hrest : w.queue.refillRequested = true → capacity ≤ w.queue.entries.length :=
          fun hrefill => Nat.le_of_not_lt fun hlt => hmore ⟨hrefill, hlt⟩
        exact ⟨_, _, .rests hover.1 hover.2 hrest, (Option.some.inj hs).symm⟩
  -- `submitting` and `completing`
  next r refused =>
    have hp := performed_perform w refused r
    rcases hperform : w.perform refused r with ⟨w₁, r' | b⟩ <;> rw [hperform] at hp hs <;>
      exact ⟨_, _, .submitting hp, (Option.some.inj hs).symm⟩
  next r =>
    have hp := performed_perform w none r
    rcases hperform : w.perform none r with ⟨w₁, r' | b⟩ <;> rw [hperform] at hp hs <;>
      exact ⟨_, _, .completing hp, (Option.some.inj hs).symm⟩
  next => cases hs

inductive Stepped (capacity : Nat) (w : World α) : World α → Prop
  | polls {pending : Option Nat} {waker : Waker} : w.consumer = .idle pending →
      Stepped capacity w { w with consumer := .polling waker }
  | drops {pending : Option Nat} : w.consumer = .idle pending →
      Stepped capacity w { w with consumer := .cancelling }
  | advances {refused : Option IoError} {w' : World α} : Advanced capacity refused w w' →
      Stepped capacity w w'
  | runs {index : Nat} {job : Batch α} {next : Option (Batch α)} {w₁ : World α} :
      w.jobs[index]? = some job → Ran capacity w job w₁ next →
      Stepped capacity w (w₁.settle index next)

theorem stepped_of_step {a : Action α} (hs : step capacity w a = some w') :
    Stepped capacity w w' := by
  cases a with
  | poll waker =>
      simp only [step] at hs
      split at hs
      next pending hidle =>
        obtain rfl := Option.some.inj hs
        exact .polls hidle
      next => cases hs
  | consumer refused => exact .advances (advanced_of_advance hs)
  | drop =>
      simp only [step] at hs
      split at hs
      next pending hidle =>
        obtain rfl := Option.some.inj hs
        exact .drops hidle
      next => cases hs
  | batch index event =>
      obtain ⟨job, hjob, hrun⟩ := Option.bind_eq_some_iff.mp hs
      obtain ⟨w₁, next, hran, rfl⟩ := ran_of_runBatch hrun
      exact .runs hjob hran

end World

end Runite.Fs.ReadDir
