import Runite.Fs.ReadDirControl

/-!
# The order of the entries of a directory

What was yielded, what the consumer and the batch have in hand, and what is in the
buffer is what the iterator gave, in its order.  The buffer stays within its
capacity, and a poll says that the scan is over when nothing of it is left.
-/

namespace Runite.Fs.ReadDir

open Runite.Io

variable {α : Type}

namespace Answer

def entry? : Answer α → Option (Except IoError α)
  | .entry item => some item
  | .error _ | .finished => none

/-- The answer says that the scan is over. -/
def isEnding : Answer α → Bool
  | .entry _ => false
  | .error _ | .finished => true

end Answer

/-- Where a batch is in `submit_batch` or `complete`. -/
def Batch.routine : Batch α → Option Routine
  | .submitting routine | .completing routine => some routine
  | _ => none

theorem Consumer.inHand_resume {c : Consumer α} {r : Routine} (h : c.routine = some r)
    (out : Routine ⊕ Bool) :
    (c.returns out).filterMap Answer.entry? ++ (c.resume out).inHand = c.inHand := by
  cases c <;> simp only [routine, reduceCtorEq] at h <;> rcases out with _ | _ | _ <;> rfl

theorem Consumer.returns_not_isEnding (c : Consumer α) (out : Routine ⊕ Bool) :
    (c.returns out).filter Answer.isEnding = [] ∧
      (c.returns out) = ((c.returns out).filterMap Answer.entry?).map .entry := by
  cases c <;> rcases out with _ | _ | _ <;> exact ⟨rfl, rfl⟩

namespace World

variable {w w' : World α} {capacity : Nat}

def yielded (w : World α) : List (Except IoError α) := w.answers.filterMap Answer.entry?

def endings (w : World α) : List (Answer α) := w.answers.filter Answer.isEnding

theorem yielded_of_entry {item : Except IoError α} (h : w'.answers = w.answers ++ [.entry item]) :
    w'.yielded = w.yielded ++ [item] := by
  rw [yielded, h, List.filterMap_append]
  rfl

theorem endings_of_entry {item : Except IoError α} (h : w'.answers = w.answers ++ [.entry item]) :
    w'.endings = w.endings := by
  rw [endings, h, List.filter_append]
  exact List.append_nil _

theorem yielded_of_ending {answer : Answer α} (h : w'.answers = w.answers ++ [answer])
    (hending : answer.isEnding = true) : w'.yielded = w.yielded := by
  rw [yielded, h, List.filterMap_append]
  cases answer with
  | entry item => cases hending
  | error error => exact List.append_nil _
  | finished => exact List.append_nil _

theorem endings_of_ending {answer : Answer α} (h : w'.answers = w.answers ++ [answer])
    (hending : answer.isEnding = true) : w'.endings = w.endings ++ [answer] := by
  rw [endings, h, List.filter_append, List.filter_cons_of_pos hending]
  rfl

/-- A thread is about to end the scan without an error. -/
def closes (w : World α) : Prop :=
  w.consumer.routine = some (.complete none) ∨
    ∃ job ∈ w.jobs, job.routine = some (.complete none)

/-- Where the entries are that the iterator gave. -/
structure Ordered (capacity : Nat) (w : World α) : Prop where
  bounded : w.queue.entries.length ≤ capacity
  room : w.queue.done = false → ∀ job ∈ w.jobs, job.pulls = true →
    w.queue.entries.length < capacity
  answers : w.answers = w.yielded.map .entry ++ w.endings
  ending : ∃ (error : Option IoError) (count : Nat),
    w.endings = (error.map .error).toList ++ List.replicate count .finished
  ended : w.endings ≠ [] → w.queue.done = true ∧ w.queue.entries = [] ∧
    w.queue.terminalError = none ∧ w.consumer.inHand = []
  order : w.queue.cancelled = false →
    w.yielded ++ w.consumer.inHand ++ w.queue.entries ++ w.jobs.flatMap Batch.inHand = w.pulled
  cut : w.queue.cancelled = true → w.yielded <+: w.pulled
  terminal : w.queue.terminalError ≠ none → w.queue.done = true
  closing : w.closes → w.exhausted = true
  reason : w.queue.done = true → w.queue.cancelled = false →
    w.exhausted = true ∨ w.queue.terminalError ≠ none ∨ ∃ error, .error error ∈ w.endings

theorem Ordered.init : Ordered capacity ({} : World α) where
  bounded := Nat.zero_le _
  room := by simp
  answers := rfl
  ending := ⟨none, 0, rfl⟩
  ended := by simp [endings]
  order _ := rfl
  cut := nofun
  terminal := nofun
  closing := by simp [closes, Consumer.routine]
  reason := nofun

theorem Ordered.congr (h : Ordered capacity w) (hanswers : w'.answers = w.answers)
    (hentries : w'.queue.entries = w.queue.entries) (hdone : w'.queue.done = w.queue.done)
    (hcancelled : w'.queue.cancelled = w.queue.cancelled)
    (hterminal : w'.queue.terminalError = w.queue.terminalError)
    (hpulled : w'.pulled = w.pulled) (hexhausted : w.exhausted = true → w'.exhausted = true)
    (hinHand : w'.consumer.inHand = w.consumer.inHand)
    (hjobs : w.queue.cancelled = false →
      w'.jobs.flatMap Batch.inHand = w.jobs.flatMap Batch.inHand)
    (hroom : w.queue.done = false → ∀ job ∈ w'.jobs, job.pulls = true →
      w.queue.entries.length < capacity)
    (hclosing : w'.closes → w'.exhausted = true) : Ordered capacity w' := by
  have hyielded : w'.yielded = w.yielded := by rw [yielded, hanswers]; rfl
  have hendings : w'.endings = w.endings := by rw [endings, hanswers]; rfl
  exact {
    bounded := by simpa only [hentries] using h.bounded
    room := by simpa only [hentries, hdone] using hroom
    answers := by simpa only [hanswers, hyielded, hendings] using h.answers
    ending := by simpa only [hendings] using h.ending
    ended := by simpa only [hendings, hdone, hentries, hterminal, hinHand] using h.ended
    order := fun hnot => by
      rw [hcancelled] at hnot
      simpa only [hyielded, hinHand, hentries, hjobs hnot, hpulled] using h.order hnot
    cut := by simpa only [hcancelled, hyielded, hpulled] using h.cut
    terminal := by simpa only [hterminal, hdone] using h.terminal
    closing := hclosing
    reason := fun hover hnot => by
      rw [hdone] at hover
      rw [hcancelled] at hnot
      rw [hterminal, hendings]
      exact (h.reason hover hnot).imp_left hexhausted }

/-- The lock sections of `request_batch`, `submit_batch` and `complete`. -/
theorem Ordered.performed {refused : Option IoError} {r : Routine} {out : Routine ⊕ Bool}
    (h : Ordered capacity w) (hp : Performed refused w r w' out)
    (hnone : r = .complete none → w.exhausted = true)
    (hstopped : w.queue.cancelled = true → w.queue.done = true) : Ordered capacity w' := by
  have hquiet : ∀ {w' : World α}, w'.answers = w.answers → w'.queue.entries = w.queue.entries →
      w'.queue.done = w.queue.done → w'.queue.cancelled = w.queue.cancelled →
      w'.queue.terminalError = w.queue.terminalError → w'.pulled = w.pulled →
      w'.exhausted = w.exhausted → w'.consumer = w.consumer → w'.jobs = w.jobs →
      Ordered capacity w' := by
    intro w' h₁ h₂ h₃ h₄ h₅ h₆ h₇ h₈ h₉
    refine h.congr h₁ h₂ h₃ h₄ h₅ h₆ (by simp [h₇]) (by rw [h₈]) (fun _ => by rw [h₉]) ?_ ?_
    · simpa only [h₉] using h.room
    · simpa only [closes, h₇, h₈, h₉] using h.closing
  cases hp with
  | ended => exact h
  | asks => exact hquiet rfl rfl rfl rfl rfl rfl rfl rfl rfl
  | lost => exact h
  | activates => exact hquiet rfl rfl rfl rfl rfl rfl rfl rfl rfl
  | submits =>
      refine h.congr rfl rfl rfl rfl rfl rfl id rfl ?_ ?_ ?_
      · intro _
        simp [Batch.inHand]
      · intro hdone job hjob hpulls
        rcases List.mem_append.mp hjob with hold | hnew
        · exact h.room hdone job hold hpulls
        · obtain rfl := List.mem_singleton.mp hnew
          cases hpulls
      · rintro (hconsumer | ⟨job, hjob, hroutine⟩)
        · exact h.closing (Or.inl hconsumer)
        · rcases List.mem_append.mp hjob with hold | hnew
          · exact h.closing (Or.inr ⟨job, hold, hroutine⟩)
          · obtain rfl := List.mem_singleton.mp hnew
            cases hroutine
  | refuses => exact h
  | defers => exact hquiet rfl rfl rfl rfl rfl rfl rfl rfl rfl
  | gives => exact h
  | @completes error hdone hcancelled =>
      have hendings : w.endings = [] := by
        by_contra hne
        exact absurd (h.ended hne).1 (by simp [hdone])
      exact {
        bounded := h.bounded
        room := nofun
        answers := h.answers
        ending := h.ending
        ended := fun hne => absurd hendings hne
        order := h.order
        cut := h.cut
        terminal := fun _ => rfl
        closing := h.closing
        reason := fun _ _ => by
          cases error with
          | none => exact Or.inl (hnone rfl)
          | some error => exact Or.inr (Or.inl nofun) }
  | skips => exact h
  | drains hdone hcancelled =>
      rw [hstopped hcancelled] at hdone
      cases hdone
  | wakes => exact hquiet rfl rfl rfl rfl rfl rfl rfl rfl rfl
  | releases =>
      apply hquiet <;> simp [releasePending, apply_ite]

theorem Ordered.resume {r : Routine} {out : Routine ⊕ Bool} (h : Ordered capacity w)
    (hr : w.consumer.routine = some r) (hout : out.getLeft? ≠ some (.complete none))
    (hcancelled : w.queue.cancelled = false) :
    Ordered capacity
      { w with
        consumer := w.consumer.resume out
        answers := w.answers ++ w.consumer.returns out } := by
  have hhand := Consumer.inHand_resume hr out
  obtain ⟨hnot, hentries⟩ := Consumer.returns_not_isEnding w.consumer out
  have hclosing : ∀ {w' : World α}, w'.consumer = w.consumer.resume out → w'.jobs = w.jobs →
      w'.closes → w.exhausted = true := by
    rintro w' hconsumer hjobs (hnone | hjob)
    · rw [hconsumer, Consumer.routine_resume hr] at hnone
      exact absurd hnone hout
    · exact h.closing (Or.inr (hjobs ▸ hjob))
  have hempty : w.endings ≠ [] → w.consumer.returns out = [] ∧ (w.consumer.resume out).inHand = [] := by
    intro hne
    rw [(h.ended hne).2.2.2, List.append_eq_nil_iff] at hhand
    exact ⟨by rw [hentries, hhand.1]; rfl, hhand.2⟩
  generalize hw' : ({ w with
    consumer := w.consumer.resume out
    answers := w.answers ++ w.consumer.returns out } : World α) = w'
  have hqueue : w'.queue = w.queue := by rw [← hw']
  have hjobs : w'.jobs = w.jobs := by rw [← hw']
  have hpulled : w'.pulled = w.pulled := by rw [← hw']
  have hexhausted : w'.exhausted = w.exhausted := by rw [← hw']
  have hconsumer : w'.consumer = w.consumer.resume out := by rw [← hw']
  have hanswers : w'.answers = w.answers ++ w.consumer.returns out := by rw [← hw']
  have hyielded : w'.yielded = w.yielded ++ (w.consumer.returns out).filterMap Answer.entry? := by
    rw [yielded, hanswers, List.filterMap_append]
    rfl
  have hendings : w'.endings = w.endings := by
    rw [endings, hanswers, List.filter_append, hnot, List.append_nil]
    rfl
  have hmoved : w'.yielded ++ w'.consumer.inHand = w.yielded ++ w.consumer.inHand := by
    rw [hyielded, hconsumer, List.append_assoc, hhand]
  exact {
    bounded := by simpa only [hqueue] using h.bounded
    room := by simpa only [hqueue, hjobs] using h.room
    answers := by
      by_cases hne : w.endings = []
      · rw [hanswers, hyielded, hendings, hne, List.append_nil, List.map_append, ← hentries]
        congr 1
        simpa [hne] using h.answers
      · rw [hanswers, hyielded, hendings, (hempty hne).1, List.append_nil]
        simpa using h.answers
    ending := by simpa only [hendings] using h.ending
    ended := fun hne => by
      rw [hendings] at hne
      rw [hqueue, hconsumer]
      have hold := h.ended hne
      exact ⟨hold.1, hold.2.1, hold.2.2.1, (hempty hne).2⟩
    order := by simpa only [hqueue, hmoved, hjobs, hpulled] using h.order
    cut := fun hcut => by simp [hqueue, hcancelled] at hcut
    terminal := by simpa only [hqueue] using h.terminal
    closing := fun hcloses => by
      rw [hexhausted]
      exact hclosing hconsumer hjobs hcloses
    reason := by simpa only [hqueue, hexhausted, hendings] using h.reason }

theorem Ordered.yields {item : Except IoError α} {items : List (Except IoError α)}
    (h : Ordered capacity w) (hcancelled : w.queue.cancelled = false)
    (hentries : w.queue.entries = item :: items) (hhand : w.consumer.inHand = [])
    (hqueue : w'.queue = { w.queue with entries := items })
    (hanswers : w'.answers = w.answers ++ [.entry item]) (hhand' : w'.consumer.inHand = [])
    (hjobs : w'.jobs = w.jobs) (hpulled : w'.pulled = w.pulled)
    (hexhausted : w'.exhausted = w.exhausted) (hclosing : w'.closes → w.exhausted = true) :
    Ordered capacity w' := by
  have hyielded := yielded_of_entry hanswers
  have hendings := endings_of_entry hanswers
  have hnone : w.endings = [] := by
    by_contra hne
    exact absurd (h.ended hne).2.1 (by simp [hentries])
  have hbounded := h.bounded
  have horder := h.order hcancelled
  rw [hentries, List.length_cons] at hbounded
  rw [hentries, hhand] at horder
  exact {
    bounded := by
      rw [hqueue]
      exact Nat.le_of_succ_le hbounded
    room := fun _ _ _ _ => by
      rw [hqueue]
      exact hbounded
    answers := by
      rw [hanswers, hyielded, hendings, hnone, List.append_nil, List.map_append]
      congr 1
      simpa [hnone] using h.answers
    ending := by simpa only [hendings] using h.ending
    ended := fun hne => absurd (hendings.trans hnone) hne
    order := fun _ => by
      rw [hyielded, hhand', hqueue, hjobs, hpulled]
      simpa using horder
    cut := fun hcut => by simp [hqueue, hcancelled] at hcut
    terminal := by simpa only [hqueue] using h.terminal
    closing := by simpa only [hexhausted] using hclosing
    reason := by simpa only [hqueue, hexhausted, hendings] using h.reason }

theorem Ordered.ends {answer : Answer α} (h : Ordered capacity w)
    (hcancelled : w.queue.cancelled = false) (hentries : w.queue.entries = [])
    (hdone : w.queue.done = true) (hhand : w.consumer.inHand = [])
    (hqueue : w'.queue = { w.queue with terminalError := none })
    (hanswers : w'.answers = w.answers ++ [answer]) (hhand' : w'.consumer.inHand = [])
    (hjobs : w'.jobs = w.jobs) (hpulled : w'.pulled = w.pulled)
    (hexhausted : w'.exhausted = w.exhausted) (hclosing : w'.closes → w.exhausted = true)
    (hanswer : (∃ error, w.queue.terminalError = some error ∧ answer = .error error) ∨
      w.queue.terminalError = none ∧ answer = .finished) : Ordered capacity w' := by
  have hisEnding : answer.isEnding = true := by
    rcases hanswer with ⟨error, -, rfl⟩ | ⟨-, rfl⟩ <;> rfl
  have hyielded := yielded_of_ending hanswers hisEnding
  have hendings := endings_of_ending hanswers hisEnding
  exact {
    bounded := by simpa only [hqueue] using h.bounded
    room := by simpa only [hqueue, hjobs] using h.room
    answers := by rw [hanswers, hyielded, hendings, ← List.append_assoc, ← h.answers]
    ending := by
      rw [hendings]
      rcases hanswer with ⟨error, herror, rfl⟩ | ⟨-, rfl⟩
      · have hnone : w.endings = [] := by
          by_contra hne
          exact absurd (h.ended hne).2.2.1 (by simp [herror])
        exact ⟨some error, 0, by rw [hnone]; rfl⟩
      · obtain ⟨error, count, hending⟩ := h.ending
        exact ⟨error, count + 1, by rw [hending, List.append_assoc, List.replicate_succ']⟩
    ended := fun _ => by
      rw [hqueue]
      exact ⟨hdone, hentries, rfl, hhand'⟩
    order := fun _ => by
      rw [hyielded, hhand', hqueue, hjobs, hpulled]
      simpa [hhand] using h.order hcancelled
    cut := fun hcut => by simp [hqueue, hcancelled] at hcut
    terminal := by simp [hqueue]
    closing := by simpa only [hexhausted] using hclosing
    reason := fun _ _ => by
      rw [hexhausted, hendings]
      rcases hanswer with ⟨error, -, rfl⟩ | ⟨hnone, rfl⟩
      · exact Or.inr (Or.inr ⟨error, by simp⟩)
      · rcases h.reason hdone hcancelled with hexhausted | hterminal | ⟨error, herror⟩
        · exact Or.inl hexhausted
        · exact absurd hnone hterminal
        · exact Or.inr (Or.inr ⟨error, List.mem_append_left _ herror⟩) }

theorem Ordered.polled {waker : Waker} (h : Ordered capacity w) (hc : Control w)
    (hpolling : w.consumer = .polling waker) (hp : Polled capacity waker w w') :
    Ordered capacity w' := by
  have hcancelled : w.queue.cancelled = false := by rw [hc.cancelled, hpolling]; rfl
  have hhand : w.consumer.inHand = [] := by rw [hpolling]; rfl
  have hclosing : ∀ {w' : World α}, w'.consumer.routine ≠ some (.complete none) →
      w'.jobs = w.jobs → w'.closes → w.exhausted = true := by
    rintro w' hne hjobs (hconsumer | hjob)
    · exact absurd hconsumer hne
    · exact h.closing (Or.inr (hjobs ▸ hjob))
  cases hp with
  | @refills item items hentries =>
      have hnone : w.endings = [] := by
        by_contra hne
        exact absurd (h.ended hne).2.1 (by simp [hentries])
      have hbounded := h.bounded
      have horder := h.order hcancelled
      rw [hentries, List.length_cons] at hbounded
      rw [hentries, hhand] at horder
      exact {
        bounded := Nat.le_of_succ_le hbounded
        room := fun _ _ _ _ => hbounded
        answers := h.answers
        ending := h.ending
        ended := fun hne => absurd hnone hne
        order := fun _ => by simpa [Consumer.inHand, yielded] using horder
        cut := fun hcut => by simp [hcancelled] at hcut
        terminal := h.terminal
        closing := hclosing (by simp [Consumer.routine]) rfl
        reason := h.reason }
  | entry hentries =>
      exact h.yields hcancelled hentries hhand rfl rfl rfl rfl rfl rfl
        (hclosing (by simp [answer, Consumer.routine]) rfl)
  | error hentries herror =>
      exact h.ends hcancelled hentries (h.terminal (by simp [herror])) hhand rfl rfl rfl rfl rfl rfl
        (hclosing (by simp [answer, Consumer.routine]) rfl) (Or.inl ⟨_, herror, rfl⟩)
  | finished hentries hnone hdone =>
      refine h.ends hcancelled hentries hdone hhand ?_ rfl rfl rfl rfl rfl
        (hclosing (by simp [answer, Consumer.routine]) rfl) (Or.inr ⟨hnone, rfl⟩)
      rw [← hnone]
      rfl
  | parks =>
      refine h.congr rfl rfl rfl rfl rfl rfl id ?_ (fun _ => rfl) h.room ?_
      · rw [hpolling]
        rfl
      · exact hclosing (by simp [Consumer.routine]) rfl

theorem Ordered.cancels (h : Ordered capacity w) (hc : Control w)
    (hcancelling : w.consumer = .cancelling) :
    Ordered capacity { w with queue := w.queue.cancel, consumer := .releasing } where
  bounded := Nat.zero_le _
  room := nofun
  answers := h.answers
  ending := h.ending
  ended _ := ⟨rfl, rfl, rfl, rfl⟩
  order := nofun
  cut _ := by
    have hcancelled : w.queue.cancelled = false := by rw [hc.cancelled, hcancelling]; rfl
    have horder := h.order hcancelled
    rw [List.append_assoc, List.append_assoc] at horder
    exact ⟨_, horder⟩
  terminal := nofun
  closing := by
    rintro (hconsumer | hjob)
    · cases hconsumer
    · exact h.closing (Or.inr hjob)
  reason := nofun

/-- What becomes of a batch after its step, with no entry in hand before or after it. -/
theorem Ordered.settle {job : Batch α} {jobs : List (Batch α)} {next : Option (Batch α)}
    (h : Ordered capacity w) (hjobs : w.jobs = job :: jobs)
    (hhand : w.queue.cancelled = false → job.inHand = [])
    (hnext : next.toList.flatMap Batch.inHand = [])
    (hroom : w.queue.done = false → ∀ b ∈ next, b.pulls = true → w.queue.entries.length < capacity)
    (hclosing : ∀ b ∈ next, b.routine = some (.complete none) → w.exhausted = true) :
    Ordered capacity (w.settle 0 next) := by
  have hjobs' : (w.settle 0 next).jobs = next.toList ++ jobs := by
    cases next <;> simp [World.settle, setJob, endJob, hjobs]
  have hsettle : ∃ jobs', w.settle 0 next = { w with jobs := jobs' } := by
    cases next <;> exact ⟨_, rfl⟩
  obtain ⟨jobs', hsettle⟩ := hsettle
  rw [hsettle] at hjobs' ⊢
  refine h.congr rfl rfl rfl rfl rfl rfl id rfl ?_ ?_ ?_
  · intro hnot
    rw [hjobs', hjobs, List.flatMap_append, hnext, List.flatMap_cons, hhand hnot]
  · intro hdone b hb hpulls
    rw [hjobs'] at hb
    rcases List.mem_append.mp hb with hb | hb
    · exact hroom hdone b (by simpa using hb) hpulls
    · exact h.room hdone b (by simp [hjobs, hb]) hpulls
  · rintro (hconsumer | ⟨b, hb, hroutine⟩)
    · exact h.closing (Or.inl hconsumer)
    · rw [hjobs'] at hb
      rcases List.mem_append.mp hb with hb | hb
      · exact hclosing b (by simpa using hb) hroutine
      · exact h.closing (Or.inr ⟨b, by simp [hjobs, hb], hroutine⟩)

theorem Performed.jobs {refused : Option IoError} {r : Routine} {out : Routine ⊕ Bool}
    (hp : Performed refused w r w' out) : ∃ jobs, w'.jobs = w.jobs ++ jobs := by
  cases hp with
  | submits => exact ⟨_, rfl⟩
  | releases => exact ⟨[], by simp [releasePending, apply_ite]⟩
  | _ => exact ⟨[], (List.append_nil _).symm⟩

theorem Performed.consumer {refused : Option IoError} {r : Routine} {out : Routine ⊕ Bool}
    (hp : Performed refused w r w' out) : w'.consumer = w.consumer := by
  cases hp with
  | releases => simp [releasePending, apply_ite]
  | _ => rfl

theorem Performed.cancelled {refused : Option IoError} {r : Routine} {out : Routine ⊕ Bool}
    (hp : Performed refused w r w' out) : w'.queue.cancelled = w.queue.cancelled := by
  cases hp with
  | releases => simp [releasePending, apply_ite]
  | _ => rfl

theorem Performed.ne_complete_none {refused : Option IoError} {r : Routine} {out : Routine ⊕ Bool}
    (hp : Performed refused w r w' out) : out.getLeft? ≠ some (.complete none) := by
  cases hp <;> simp

theorem Ordered.routine {refused : Option IoError} {r : Routine} {out : Routine ⊕ Bool}
    {wrap : Routine → Batch α} {w₁ : World α} (h : Ordered capacity w) (hc : Control w)
    (hwrap : wrap = .submitting ∨ wrap = .completing) (hjobs : w.jobs = [wrap r])
    (hp : Performed refused w r w₁ out) :
    Ordered capacity (w₁.settle 0 (out.getLeft?.map wrap)) := by
  have hinHand : ∀ r, (wrap r).inHand = [] := by rcases hwrap with rfl | rfl <;> exact fun _ => rfl
  have hpulls : ∀ r, (wrap r).pulls = false := by rcases hwrap with rfl | rfl <;> exact fun _ => rfl
  have hroutine : ∀ r, (wrap r).routine = some r := by
    rcases hwrap with rfl | rfl <;> exact fun _ => rfl
  have h₁ : Ordered capacity w₁ := by
    refine h.performed hp ?_ hc.stopped
    intro hnone
    exact h.closing (Or.inr ⟨wrap r, by simp [hjobs], by rw [hroutine, hnone]⟩)
  obtain ⟨jobs, hjobs'⟩ := hp.jobs
  rw [hjobs] at hjobs'
  refine h₁.settle hjobs' (fun _ => hinHand r) ?_ ?_ ?_
  · cases out <;> simp [hinHand]
  · intro _ b hb hpulls'
    obtain ⟨r', -, rfl⟩ := Option.map_eq_some_iff.mp hb
    simp [hpulls] at hpulls'
  · intro b hb hnone
    obtain ⟨r', hr', rfl⟩ := Option.map_eq_some_iff.mp hb
    rw [hroutine] at hnone
    obtain rfl := Option.some.inj hnone
    exact absurd hr' hp.ne_complete_none

theorem Ordered.pulls {item : Except IoError α} {left : Nat} (h : Ordered capacity w)
    (hjobs : w.jobs = [.pulling left]) (hqueue : w'.queue = w.queue)
    (hanswers : w'.answers = w.answers) (hconsumer : w'.consumer = w.consumer)
    (hexhausted : w'.exhausted = w.exhausted) (hpulled : w'.pulled = w.pulled ++ [item])
    (hjobs' : w'.jobs = [.pushing item left]) : Ordered capacity w' := by
  have hyielded : w'.yielded = w.yielded := by rw [yielded, hanswers]; rfl
  have hendings : w'.endings = w.endings := by rw [endings, hanswers]; rfl
  exact {
    bounded := by simpa only [hqueue] using h.bounded
    room := fun hdone _ _ _ => by
      rw [hqueue] at hdone ⊢
      exact h.room hdone (.pulling left) (by simp [hjobs]) rfl
    answers := by simpa only [hanswers, hyielded, hendings] using h.answers
    ending := by simpa only [hendings] using h.ending
    ended := by simpa only [hendings, hqueue, hconsumer] using h.ended
    order := fun hnot => by
      rw [hqueue] at hnot
      rw [hyielded, hconsumer, hqueue, hjobs', hpulled, ← h.order hnot, hjobs]
      simp [Batch.inHand]
    cut := fun hcut => by
      rw [hqueue] at hcut
      rw [hyielded, hpulled]
      exact (h.cut hcut).trans (List.prefix_append _ _)
    terminal := by simpa only [hqueue] using h.terminal
    closing := by
      rintro (hnone | ⟨b, hb, hroutine⟩)
      · rw [hexhausted]
        exact h.closing (Or.inl (hconsumer ▸ hnone))
      · rw [hjobs', List.mem_singleton] at hb
        obtain rfl := hb
        cases hroutine
    reason := by simpa only [hqueue, hexhausted, hendings] using h.reason }

theorem Ordered.pushes {item : Except IoError α} {left : Nat} (h : Ordered capacity w)
    (hjobs : w.jobs = [.pushing item left]) (hdone : w.queue.done = false)
    (hqueue : w'.queue = { w.queue with entries := w.queue.entries ++ [item], waker := none })
    (hanswers : w'.answers = w.answers) (hconsumer : w'.consumer = w.consumer)
    (hexhausted : w'.exhausted = w.exhausted) (hpulled : w'.pulled = w.pulled)
    (hjobs' : w'.jobs = [.waking w.queue.waker left]) : Ordered capacity w' := by
  have hyielded : w'.yielded = w.yielded := by rw [yielded, hanswers]; rfl
  have hendings : w'.endings = w.endings := by rw [endings, hanswers]; rfl
  have hnone : w.endings = [] := by
    by_contra hne
    exact absurd (h.ended hne).1 (by simp [hdone])
  have hlt := h.room hdone (.pushing item left) (by simp [hjobs]) rfl
  exact {
    bounded := by
      rw [hqueue, List.length_append]
      exact hlt
    room := by simp [hjobs', Batch.pulls]
    answers := by simpa only [hanswers, hyielded, hendings] using h.answers
    ending := by simpa only [hendings] using h.ending
    ended := fun hne => absurd (hendings.trans hnone) hne
    order := fun hnot => by
      rw [hqueue] at hnot
      rw [hyielded, hconsumer, hqueue, hjobs', hpulled, ← h.order hnot, hjobs]
      simp [Batch.inHand]
    cut := by simpa only [hqueue, hyielded, hpulled] using h.cut
    terminal := by simpa only [hqueue] using h.terminal
    closing := by
      rintro (hnone | ⟨b, hb, hroutine⟩)
      · rw [hexhausted]
        exact h.closing (Or.inl (hconsumer ▸ hnone))
      · rw [hjobs', List.mem_singleton] at hb
        obtain rfl := hb
        cases hroutine
    reason := by simpa only [hqueue, hexhausted, hendings] using h.reason }

theorem Ordered.runs {job : Batch α} {next : Option (Batch α)} {w₁ : World α}
    (h : Ordered capacity w) (hc : Control w) (hjobs : w.jobs = [job])
    (hr : Ran capacity w job w₁ next) : Ordered capacity (w₁.settle 0 next) := by
  -- neither the batch nor the buffer gets an entry
  have hquiet : ∀ {w₁ : World α} {next : Batch α}, w₁.answers = w.answers →
      w₁.queue.entries = w.queue.entries → w₁.queue.done = w.queue.done →
      w₁.queue.cancelled = w.queue.cancelled →
      w₁.queue.terminalError = w.queue.terminalError → w₁.pulled = w.pulled →
      (w.exhausted = true → w₁.exhausted = true) → w₁.consumer = w.consumer → w₁.jobs = w.jobs →
      job.inHand = [] → next.inHand = [] →
      (next.pulls = true → w.queue.entries.length < capacity) →
      (next.routine = some (.complete none) → w₁.exhausted = true) →
      Ordered capacity (w₁.settle 0 (some next)) := by
    intro w₁ next h₁ h₂ h₃ h₄ h₅ h₆ h₇ h₈ h₉ hhand hnext hpulls hclosing
    have hsame : Ordered capacity w₁ := by
      refine h.congr h₁ h₂ h₃ h₄ h₅ h₆ h₇ (by rw [h₈]) (fun _ => by rw [h₉]) ?_ ?_
      · simpa only [h₉] using h.room
      · intro hcloses
        rw [closes, h₈, h₉] at hcloses
        exact h₇ (h.closing hcloses)
    refine hsame.settle (h₉.trans hjobs) (fun _ => hhand) (by simpa using hnext) ?_ ?_
    · simpa [h₂] using fun _ => hpulls
    · simpa using hclosing
  cases hr with
  | stops hover htail _ =>
      have hdone : w.queue.done = true := hover.elim id hc.stopped
      have hcancelled : w.queue.cancelled = true := by
        by_contra hnot
        have htail' := hc.ended hdone (Bool.not_eq_true _ ▸ hnot) job (by simp [hjobs])
        simp [htail] at htail'
      refine Ordered.settle ?_ hjobs ?_ rfl (by simp) (by simp)
      · exact h.congr rfl rfl rfl rfl rfl rfl id rfl (fun _ => rfl) h.room h.closing
      · simp [hcancelled]
  | lost => exact hquiet rfl rfl rfl rfl rfl rfl id rfl rfl rfl rfl nofun (by simp [Batch.routine])
  | opens => exact hquiet rfl rfl rfl rfl rfl rfl id rfl rfl rfl rfl nofun nofun
  | resumes => exact hquiet rfl rfl rfl rfl rfl rfl id rfl rfl rfl rfl nofun nofun
  | opened => exact hquiet rfl rfl rfl rfl rfl rfl id rfl rfl rfl rfl nofun nofun
  | fails _ _ hhand _ =>
      exact hquiet rfl rfl rfl rfl rfl rfl id rfl rfl hhand rfl nofun (by simp [Batch.routine])
  | last => exact hquiet rfl rfl rfl rfl rfl rfl id rfl rfl rfl rfl nofun nofun
  | full => exact hquiet rfl rfl rfl rfl rfl rfl id rfl rfl rfl rfl nofun nofun
  | room _ _ hroom =>
      exact hquiet rfl rfl rfl rfl rfl rfl id rfl rfl rfl rfl (fun _ => hroom) nofun
  | exhausts =>
      exact hquiet rfl rfl rfl rfl rfl rfl (fun _ => rfl) rfl rfl rfl rfl nofun (fun _ => rfl)
  | wakes => exact hquiet rfl rfl rfl rfl rfl rfl id rfl rfl rfl rfl nofun nofun
  | restarts => exact hquiet rfl rfl rfl rfl rfl rfl id rfl rfl rfl rfl nofun (by simp [Batch.routine])
  | rests =>
      refine Ordered.settle ?_ hjobs (fun _ => rfl) rfl (by simp)
        (by simp)
      exact h.congr rfl rfl rfl rfl rfl rfl id rfl (fun _ => rfl) h.room h.closing
  | pulls => exact h.pulls hjobs rfl rfl rfl rfl rfl (by simp [World.settle, setJob, hjobs])
  | pushes hdone _ =>
      exact h.pushes hjobs hdone rfl rfl rfl rfl rfl (by simp [World.settle, setJob, hjobs])
  | submitting hp => exact h.routine hc (Or.inl rfl) hjobs hp
  | completing hp => exact h.routine hc (Or.inr rfl) hjobs hp

theorem Ordered.step (h : Ordered capacity w) (hc : Control w) (hs : Stepped capacity w w') :
    Ordered capacity w' := by
  have hmoves : ∀ {c : Consumer α}, c.inHand = w.consumer.inHand → c.routine = none →
      Ordered capacity { w with consumer := c } := by
    intro c hhand hroutine
    refine h.congr rfl rfl rfl rfl rfl rfl id hhand (fun _ => rfl) h.room ?_
    rintro (hconsumer | hjob)
    · simp [hroutine] at hconsumer
    · exact h.closing (Or.inr hjob)
  cases hs with
  | polls hidle => exact hmoves (by rw [hidle]; rfl) rfl
  | drops hidle => exact hmoves (by rw [hidle]; rfl) rfl
  | advances hadvanced =>
      cases hadvanced with
      | @requests r w₁ out hr hp =>
          have hcancelled : w.queue.cancelled = false := by
            rw [hc.cancelled]
            cases hconsumer : w.consumer <;> simp [hconsumer, Consumer.routine] at hr <;> rfl
          have h₁ : Ordered capacity w₁ := by
            refine h.performed hp ?_ hc.stopped
            rintro rfl
            exact h.closing (Or.inl hr)
          rw [← hp.consumer] at hr ⊢
          exact h₁.resume hr hp.ne_complete_none (hp.cancelled.trans hcancelled)
      | polls hpolling hpolled => exact h.polled hc hpolling hpolled
      | cancels hcancelling => exact h.cancels hc hcancelling
      | releases hreleasing =>
          rw [releasePending_eq]
          have hdropped : Ordered capacity { w with consumer := .dropped } :=
            hmoves (by rw [hreleasing]; rfl) rfl
          exact hdropped.congr rfl rfl rfl rfl rfl rfl id rfl (fun _ => rfl) h.room hdropped.closing
  | runs hjob hran =>
      obtain ⟨hjobs, rfl, -⟩ := hc.eq_singleton hjob
      exact h.runs hc hjobs hran

end World

end Runite.Fs.ReadDir
