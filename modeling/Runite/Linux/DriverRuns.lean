import Runite.Linux.DriverOperations

/-!
# Every run of the driver

The calls are made of submissions, the draining of the completion queue and the staging of
entries; a call that submits an operation ends with what it returns.
-/

namespace Runite.Linux.Driver

open Transition

variable {d d' : Driver} {ready ready' : ReadyEvents} {rounds : List Round}

/-- The driver is sound, and differs from `d` in nothing that the parts of a call leave alone. -/
structure Follows (d d' : Driver) : Prop where
  sound : d'.Sound []
  keeps : Keeps d d'

theorem Follows.trans {d'' : Driver} (h : Follows d d') (h' : Follows d' d'') : Follows d d'' :=
  ⟨h'.sound, h.keeps.trans h'.keeps⟩

theorem Sound.follows (h : d.Sound []) : Follows d d := ⟨h, .refl d⟩

/-! ## Flushing -/

def Pass.driver : Pass → Driver
  | .again d _ _ _ | .done d _ _ => d

theorem Sound.passRetry {waitForCqe sawAny : Bool} {transientRetries : Nat} (h : d.Sound []) :
    Follows d (d.passRetry waitForCqe ready sawAny transientRetries).driver := by
  have hdrained := h.drain ready
  unfold Driver.passRetry
  generalize d.drain ready = drained at hdrained ⊢
  obtain ⟨d₁, ready₁, sawAny₁⟩ := drained
  obtain ⟨hsound, hkeeps⟩ := hdrained
  dsimp only at hsound hkeeps ⊢
  split
  · exact ⟨hsound, hkeeps⟩
  · split
    · exact ⟨hsound, hkeeps⟩
    · exact ⟨hsound, hkeeps⟩

theorem Sound.passSubmitted {waitForCqe hadPending combinedWait sawAny : Bool}
    {transientRetries submitted : Nat} {error : Option Nat} (h : d.Sound []) :
    Follows d (d.passSubmitted waitForCqe hadPending combinedWait ready sawAny transientRetries
      submitted error).driver := by
  cases error with
  | some errno => exact ⟨{ h with }, rfl, rfl, rfl, fun _ => rfl⟩
  | none =>
      rw [Driver.passSubmitted]
      split
      · split
        · exact h.follows
        · exact h.follows
      · split
        · exact h.follows
        · exact h.follows

variable (ready) in
theorem Sound.passOutcome {waitForCqe hadPending combinedWait sawAny : Bool}
    {transientRetries : Nat} {outcome : Except SubmitError (SubmitOutcome UserData)}
    (h : d.Sound (failuresOf outcome)) :
    Follows d (d.passOutcome waitForCqe hadPending combinedWait ready sawAny transientRetries
      outcome).driver := by
  cases outcome with
  | error error => exact Sound.follows h
  | ok outcome =>
      have hfailures : d.Sound outcome.failures := h
      obtain ⟨hsound, hkeeps⟩ := hfailures.processAll ready
      rw [Driver.passOutcome]
      generalize Driver.processAll d ready outcome.failures = processed at hsound hkeeps ⊢
      obtain ⟨d₁, ready₁⟩ := processed
      dsimp only at hsound hkeeps ⊢
      split
      · exact Follows.trans ⟨hsound, hkeeps⟩ hsound.passRetry
      · exact Follows.trans ⟨hsound, hkeeps⟩ hsound.passSubmitted

theorem Sound.flushPass {waitForCqe sawAny : Bool} {transientRetries : Nat} {round : Round}
    {pass : Pass} (h : d.Sound [])
    (hpass : d.flushPass waitForCqe ready sawAny transientRetries round = some pass) :
    Follows d pass.driver := by
  unfold Driver.flushPass at hpass
  obtain ⟨⟨ring, outcome, rest⟩, hsubmit, hpass⟩ := Option.bind_eq_some_iff.mp hpass
  obtain ⟨hsubmitted, hkeeps⟩ := h.submit hsubmit
  obtain ⟨d₁, hpost, rfl⟩ := Option.map_eq_some_iff.mp hpass
  obtain ⟨hposted, hkeeps₁⟩ := hsubmitted.postAll hpost
  obtain ⟨hsound, hkeeps₂⟩ := hposted.passOutcome ready
  exact ⟨hsound, (hkeeps.trans hkeeps₁).trans hkeeps₂⟩

theorem Sound.flushLoop {waitForCqe sawAny : Bool} {transientRetries : Nat}
    {result : Except DriverError Bool} (h : d.Sound [])
    (hflush : flushLoop waitForCqe d ready sawAny transientRetries rounds =
      some (d', ready', result)) : Follows d d' := by
  induction rounds generalizing d ready sawAny transientRetries with
  | nil => exact absurd hflush nofun
  | cons round rounds ih =>
      rw [Driver.flushLoop] at hflush
      obtain ⟨pass, hpass, hrest⟩ := Option.bind_eq_some_iff.mp hflush
      have hone := h.flushPass hpass
      cases pass with
      | again d₁ ready₁ sawAny₁ transientRetries₁ => exact hone.trans (ih hone.sound hrest)
      | done d₁ ready₁ result₁ =>
          obtain ⟨rfl, -⟩ := Prod.mk.inj (Option.some.inj hrest)
          exact hone

theorem Sound.flushSubmissions {waitForCqe : Bool} {result : Except DriverError Bool}
    (h : d.Sound []) (hflush : d.flushSubmissions waitForCqe ready rounds =
      some (d', ready', result)) : Follows d d' :=
  h.flushLoop hflush

theorem Sound.flushIfImmediate {result : Except DriverError Unit} (h : d.Sound [])
    (hflush : d.flushIfImmediate rounds = some (d', result)) :
    Follows d d' ∧ (d.deferSubmissions = true → result = .ok ()) := by
  unfold Driver.flushIfImmediate at hflush
  split at hflush
  · obtain ⟨rfl, rfl⟩ := Prod.mk.inj (Option.some.inj hflush)
    exact ⟨h.follows, fun _ => rfl⟩
  next himmediate =>
    obtain ⟨⟨d₁, ready₁, result₁⟩, hrun, heq⟩ := Option.map_eq_some_iff.mp hflush
    obtain ⟨rfl, -⟩ := Prod.mk.inj heq
    exact ⟨h.flushSubmissions hrun, fun hdefer => absurd hdefer himmediate⟩

/-! ## Submitting an operation -/

/-- The call returns: an operation that it has staged is registered or was invoked. -/
theorem Sound.setReturned {token : Token} {submitted : Bool} (h : d.Sound [])
    (hseq : token.seq < d.nextToken) (hok : submitted = true → d.total token = 1)
    (herr : submitted = false → d.deferSubmissions = true → d.total token = 0) :
    Sound { d with returned := d.returned ++ [(token, submitted)] } [] := by
  exact { h with
    freshReturned := by
      intro call hcall
      rcases List.mem_append.mp hcall with hold | hnew
      · exact h.freshReturned call hold
      · rw [List.mem_singleton.mp hnew]
        exact hseq
    returnedOk := by
      intro t ht
      rcases List.mem_append.mp ht with hold | hnew
      · exact h.returnedOk t hold
      · obtain ⟨rfl, rfl⟩ := Prod.mk.inj (List.mem_singleton.mp hnew)
        exact hok rfl
    returnedErr := by
      intro hdefer t ht
      rcases List.mem_append.mp ht with hold | hnew
      · exact h.returnedErr hdefer t hold
      · obtain ⟨rfl, rfl⟩ := Prod.mk.inj (List.mem_singleton.mp hnew)
        exact herr rfl hdefer }

theorem Sound.finishSubmit {token : Token} {result : Except DriverError Token} (h : d.Sound [])
    (hseq : token.seq < d.nextToken) (htotal : d.total token = 1)
    (hsubmit : d.finishSubmit token rounds = some (d', result)) : d'.Sound [] := by
  obtain ⟨⟨d₁, result₁⟩, hflush, heq⟩ := Option.map_eq_some_iff.mp hsubmit
  obtain ⟨⟨hsound, hkeeps⟩, hdeferred⟩ := h.flushIfImmediate hflush
  have hseq' : token.seq < d₁.nextToken := by rwa [hkeeps.nextToken]
  cases result₁ with
  | ok value =>
      obtain ⟨rfl, -⟩ := Prod.mk.inj heq
      exact hsound.setReturned hseq' (fun _ => (hkeeps.total token).trans htotal) nofun
  | error error =>
      obtain ⟨rfl, -⟩ := Prod.mk.inj heq
      refine hsound.setReturned hseq' nofun fun _ hdefer => ?_
      rw [hkeeps.deferSubmissions] at hdefer
      exact absurd (hdeferred hdefer) nofun

/-- An entry that could not be staged: its callback is taken back. -/
theorem Sound.refuse {next : Nat} {token : Token} (h : d.Sound []) (hnext : token.seq < next)
    (hseq : token.seq = d.nextToken) :
    Sound { d with
      nextToken := next
      completions := (d.completions ++ [token]).erase token
      returned := d.returned ++ [(token, false)] } [] := by
  have htotal : d.total token = 0 := h.freshTotal token (Nat.le_of_eq hseq.symm)
  have habsent : token ∉ d.completions := by
    intro hmem
    have hpos := List.count_pos_iff.mpr hmem
    unfold total at htotal
    omega
  have herase : (d.completions ++ [token]).erase token = d.completions := by
    rw [List.erase_append_right _ habsent, List.erase_cons_head, List.append_nil]
  have hle : d.nextToken ≤ next := Nat.le_of_lt (hseq ▸ hnext)
  rw [herase]
  have hadvanced : Sound { d with nextToken := next } [] :=
    { h with
      fresh := fun t ht => h.fresh t (Nat.le_trans hle ht)
      freshTotal := fun t ht => h.freshTotal t (Nat.le_trans hle ht)
      freshReturned := fun call hcall => Nat.lt_of_lt_of_le (h.freshReturned call hcall) hle }
  exact hadvanced.setReturned hnext nofun fun _ _ => htotal

theorem total_register {token : Token} (h : d.total token = 0) :
    d.invokedCount token + (d.completions ++ [token]).count token = 1 := by
  unfold total at h
  rw [List.count_append, List.count_singleton_self]
  omega

theorem Sound.submitOperation {opcode : Opcode} {fd : Int} {duplicated : Option Nat}
    {result : Except DriverError Token} (h : d.Sound [])
    (hsubmit : d.submitOperation opcode fd duplicated rounds = some (d', result)) :
    d'.Sound [] := by
  unfold Driver.submitOperation at hsubmit
  split at hsubmit
  · obtain ⟨rfl, -⟩ := Prod.mk.inj (Option.some.inj hsubmit)
    exact h
  split at hsubmit
  · obtain ⟨rfl, -⟩ := Prod.mk.inj (Option.some.inj hsubmit)
    exact h
  dsimp only at hsubmit
  split at hsubmit
  · obtain ⟨rfl, -⟩ := Prod.mk.inj (Option.some.inj hsubmit)
    exact h.refuse (Nat.lt_succ_self _) rfl
  next ring hpush =>
    obtain ⟨owned, hprepare, rfl⟩ := Option.map_eq_some_iff.mp hpush
    obtain ⟨-, hlink, huserData⟩ := prepareSqe_spec hprepare
    have hfresh := h.freshTotal ⟨.operation, d.nextToken⟩ (Nat.le_refl _)
    have hstaged := h.stage [⟨.operation, d.nextToken⟩] (d.nextToken + 1)
      (.single hlink) (Nat.le_succ _) ?_ ?_ ?_ (List.nodup_singleton _)
    · exact hstaged.finishSubmit (Nat.lt_succ_self _) (total_register hfresh) hsubmit
    · intro o ho token htoken
      rw [List.mem_singleton.mp ho, huserData] at htoken
      rw [← UserData.token.inj htoken]
      exact Nat.lt_succ_self _
    · intro token _
      rw [List.countP_singleton, List.count_singleton, huserData]
      simp
    · intro token htoken
      rw [List.mem_singleton.mp htoken]
      exact ⟨Nat.le_refl _, Nat.lt_succ_self _⟩

/-- The pair is staged as a whole; the timeout has a token of its own. -/
theorem Sound.submitOperationWithLinkedTimeout {opcode : Opcode} {fd : Int}
    {duplicated : Option Nat} {result : Except DriverError Token} (h : d.Sound [])
    (hsubmit : d.submitOperationWithLinkedTimeout opcode fd duplicated rounds = some (d', result)) :
    d'.Sound [] := by
  unfold Driver.submitOperationWithLinkedTimeout at hsubmit
  split at hsubmit
  · obtain ⟨rfl, -⟩ := Prod.mk.inj (Option.some.inj hsubmit)
    exact h
  split at hsubmit
  · obtain ⟨rfl, -⟩ := Prod.mk.inj (Option.some.inj hsubmit)
    exact h
  dsimp only at hsubmit
  have hlt : d.nextToken < d.nextToken + 2 := Nat.lt_add_of_pos_right Nat.two_pos
  split at hsubmit
  · obtain ⟨rfl, -⟩ := Prod.mk.inj (Option.some.inj hsubmit)
    exact h.refuse hlt rfl
  next ring hpush =>
    obtain ⟨main, hmain, hpush⟩ := Option.bind_eq_some_iff.mp hpush
    obtain ⟨timeout, htimeout, rfl⟩ := Option.map_eq_some_iff.mp hpush
    obtain ⟨-, hmainLink, hmainData⟩ := prepareSqe_spec hmain
    obtain ⟨-, htimeoutLink, htimeoutData⟩ := prepareSqe_spec htimeout
    have hfresh := h.freshTotal ⟨.operation, d.nextToken⟩ (Nat.le_refl _)
    have hstaged := h.stage [⟨.operation, d.nextToken⟩] (d.nextToken + 2)
      (.pair hmainLink htimeoutLink) (Nat.le_of_lt hlt) ?_ ?_ ?_ (List.nodup_singleton _)
    · exact hstaged.finishSubmit hlt (total_register hfresh) hsubmit
    · intro o ho token htoken
      rcases List.mem_cons.mp ho with rfl | hrest
      · rw [hmainData] at htoken
        rw [← UserData.token.inj htoken]
        exact hlt
      · rw [List.mem_singleton.mp hrest, htimeoutData] at htoken
        rw [← UserData.token.inj htoken]
        exact Nat.lt_succ_self _
    · intro token htoken
      have hother : ¬ UserData.token ⟨.linkedTimeout, d.nextToken + 1⟩ = .token token := by
        intro heq
        rw [← UserData.token.inj heq] at htoken
        exact absurd htoken nofun
      rw [List.countP_cons, List.countP_singleton, List.count_singleton, hmainData, htimeoutData]
      simp [hother]
    · intro token htoken
      rw [List.mem_singleton.mp htoken]
      exact ⟨Nat.le_refl _, hlt⟩

/-! ## The other calls -/

theorem Sound.stageCancelOperation (h : d.Sound []) (token : Token) :
    (d.stageCancelOperation token).1.Sound [] := by
  have hadvanced : Sound { d with nextToken := d.nextToken + 1 } [] :=
    { h with
      fresh := fun t ht => h.fresh t (Nat.le_of_succ_le ht)
      freshTotal := fun t ht => h.freshTotal t (Nat.le_of_succ_le ht)
      freshReturned := fun call hcall => Nat.lt_succ_of_lt (h.freshReturned call hcall) }
  unfold Driver.stageCancelOperation
  dsimp only
  split
  next ring hpush =>
    have hstaged := h.stageOther (d.nextToken + 1) hpush (Nat.le_succ _) rfl ?_
    · exact { hstaged with }
    · rintro t ⟨⟩
      exact ⟨nofun, Nat.lt_succ_self _⟩
  next => exact hadvanced

theorem Sound.cancelOperation {token : Token} {result : Except DriverError Unit} (h : d.Sound [])
    (hcancel : d.cancelOperation token rounds = some (d', result)) : d'.Sound [] := by
  have hstaged := h.stageCancelOperation token
  unfold Driver.cancelOperation at hcancel
  split at hcancel
  next d₁ error heq =>
    rw [heq] at hstaged
    obtain ⟨rfl, -⟩ := Prod.mk.inj (Option.some.inj hcancel)
    exact hstaged
  next d₁ heq =>
    rw [heq] at hstaged
    exact (hstaged.flushIfImmediate hcancel).1.sound

/-- The token of the completion of an entry of the timer -/
def completionToken : TimerSqe → Token
  | .timeout token _ => token
  | .timeoutRemove _ completion => completion

/-- The entries of the timer have new tokens, and none of an operation. -/
theorem rearmTimer_tokens (timer : DriverTimer) (nextToken : Nat) (deadline : Option Nat) :
    nextToken ≤ (timer.rearmTimer nextToken deadline).2.1 ∧
      ∀ sqe ∈ (timer.rearmTimer nextToken deadline).2.2, (completionToken sqe).kind ≠ .operation ∧
        (completionToken sqe).seq < (timer.rearmTimer nextToken deadline).2.1 := by
  unfold DriverTimer.rearmTimer
  split
  · exact ⟨Nat.le_refl _, nofun⟩
  · split
    · simp [completionToken]
    · simp [completionToken]
    · simp [completionToken]
    · simp

theorem Sound.stageTimerSqes {sqes : List TimerSqe} {ring : IoUring UserData} {next : Nat}
    (h : d.Sound []) (hnext : d.nextToken ≤ next)
    (htokens : ∀ sqe ∈ sqes, (completionToken sqe).kind ≠ .operation ∧
      (completionToken sqe).seq < next)
    (hstage : stageTimerSqes d.ring sqes = some ring) :
    Sound { d with ring, nextToken := next } [] := by
  induction sqes generalizing d with
  | nil =>
      obtain rfl := Option.some.inj hstage
      exact { h with
        fresh := fun t ht => h.fresh t (Nat.le_trans hnext ht)
        freshTotal := fun t ht => h.freshTotal t (Nat.le_trans hnext ht)
        freshReturned := fun call hcall => Nat.lt_of_lt_of_le (h.freshReturned call hcall) hnext }
  | cons sqe sqes ih =>
      have hrest := fun sqe' hsqe' => htokens sqe' (List.mem_cons_of_mem _ hsqe')
      cases sqe with
      | timeout token deadline =>
          obtain ⟨ring₁, hpush, hstage⟩ := Option.bind_eq_some_iff.mp hstage
          have hone := h.stageOther next hpush hnext rfl fun t ht =>
            UserData.token.inj ht ▸ htokens _ List.mem_cons_self
          exact ih (d := { d with ring := ring₁, nextToken := next }) hone (Nat.le_refl _) hrest hstage
      | timeoutRemove target completion =>
          obtain ⟨ring₁, hpush, hstage⟩ := Option.bind_eq_some_iff.mp hstage
          have hone := h.stageOther next hpush hnext rfl fun t ht =>
            UserData.token.inj ht ▸ htokens _ List.mem_cons_self
          exact ih (d := { d with ring := ring₁, nextToken := next }) hone (Nat.le_refl _) hrest hstage

theorem Sound.rearmTimer {deadline : Option Nat} {result : Except DriverError Unit}
    (h : d.Sound []) (hrearm : d.rearmTimer deadline rounds = some (d', result)) :
    d'.Sound [] := by
  obtain ⟨hnext, htokens⟩ := rearmTimer_tokens d.timer d.nextToken deadline
  unfold Driver.rearmTimer at hrearm
  generalize d.timer.rearmTimer d.nextToken deadline = staged at hnext htokens hrearm
  obtain ⟨timer, next, sqes⟩ := staged
  dsimp only at hnext htokens hrearm
  split at hrearm
  · obtain ⟨rfl, -⟩ := Prod.mk.inj (Option.some.inj hrearm)
    exact h
  next ring hstage =>
    have hstaged := h.stageTimerSqes hnext htokens hstage
    have hset : Sound { d with ring, timer, nextToken := next } [] := { hstaged with }
    split at hrearm
    · obtain ⟨rfl, -⟩ := Prod.mk.inj (Option.some.inj hrearm)
      exact hset
    · exact (hset.flushIfImmediate hrearm).1.sound

theorem Sound.poll {result : Except DriverError (Option ReadyEvents)} (h : d.Sound [])
    (hpoll : d.poll rounds = some (d', result)) : d'.Sound [] := by
  unfold Driver.poll at hpoll
  obtain ⟨⟨d₁, ready₁, result₁⟩, hflush, heq⟩ := Option.map_eq_some_iff.mp hpoll
  have hflushed := (h.flushSubmissions hflush).sound
  cases result₁ with
  | error error =>
      obtain ⟨rfl, -⟩ := Prod.mk.inj heq
      exact hflushed
  | ok sawSubmission =>
      have hdrained := hflushed.drain ready₁
      dsimp only at heq
      generalize d₁.drain ready₁ = drained at hdrained heq
      obtain ⟨d₂, ready₂, sawCompletion⟩ := drained
      obtain ⟨rfl, -⟩ := Prod.mk.inj heq
      exact { hdrained.1 with }

theorem Sound.wait {result : Except DriverError Unit} (h : d.Sound [])
    (hwait : d.wait rounds = some (d', result)) : d'.Sound [] := by
  obtain ⟨⟨d₁, ready₁, result₁⟩, hflush, heq⟩ := Option.map_eq_some_iff.mp hwait
  obtain ⟨rfl, -⟩ := Prod.mk.inj heq
  exact (h.flushSubmissions hflush).sound

/-! ## Shutdown -/

theorem Sound.stageCancels (h : d.Sound []) (tokens : List Token) :
    (d.stageCancels tokens).1.Sound [] := by
  induction tokens generalizing d with
  | nil => exact h
  | cons token tokens ih =>
      rw [Driver.stageCancels]
      split
      · exact ih h
      · have hstaged := h.stageCancelOperation token
        split
        next d₁ error heq => rwa [heq] at hstaged
        next d₁ heq =>
          rw [heq] at hstaged
          exact ih hstaged

theorem Sound.quiesceLoop {turns : List (List Round × Bool)} {result : Except DriverError Unit}
    (h : d.Sound []) (hquiesce : quiesceLoop d turns = some (d', result)) : d'.Sound [] := by
  induction turns generalizing d with
  | nil => exact absurd hquiesce nofun
  | cons turn turns ih =>
      obtain ⟨rounds, late⟩ := turn
      rw [Driver.quiesceLoop] at hquiesce
      obtain ⟨⟨d₁, ready₁, result₁⟩, hflush, hquiesce⟩ := Option.bind_eq_some_iff.mp hquiesce
      have hflushed := (h.flushSubmissions hflush).sound
      cases result₁ with
      | error error =>
          obtain ⟨rfl, -⟩ := Prod.mk.inj (Option.some.inj hquiesce)
          exact hflushed
      | ok sawAny =>
          have hdrained := (hflushed.drain ready₁).1
          dsimp only at hquiesce
          generalize (d₁.drain ready₁).1 = d₂ at hdrained hquiesce
          split at hquiesce
          · obtain ⟨rfl, -⟩ := Prod.mk.inj (Option.some.inj hquiesce)
            exact hdrained
          · split at hquiesce
            · obtain ⟨rfl, -⟩ := Prod.mk.inj (Option.some.inj hquiesce)
              exact hdrained
            · exact ih hdrained hquiesce

theorem Sound.quiesceOperations {keys : List Token} {turns : List (List Round × Bool)}
    {result : Except DriverError Unit} (h : d.Sound [])
    (hquiesce : d.quiesceOperations keys turns = some (d', result)) : d'.Sound [] := by
  unfold Driver.quiesceOperations at hquiesce
  split at hquiesce
  · obtain ⟨rfl, -⟩ := Prod.mk.inj (Option.some.inj hquiesce)
    exact h
  · have hstaged := h.stageCancels keys
    split at hquiesce
    next d₁ error heq =>
      rw [heq] at hstaged
      obtain ⟨rfl, -⟩ := Prod.mk.inj (Option.some.inj hquiesce)
      exact hstaged
    next d₁ heq =>
      rw [heq] at hstaged
      exact hstaged.quiesceLoop hquiesce

/-! ## Every run -/

theorem Sound.step {a : DriverAction} (h : d.Sound []) (hstep : d.step a = some d') :
    d'.Sound [] := by
  cases a with
  | submitOperation opcode fd duplicated rounds =>
      obtain ⟨r, hs, rfl⟩ := Option.map_eq_some_iff.mp hstep
      exact h.submitOperation hs
  | submitOperationWithLinkedTimeout opcode fd duplicated rounds =>
      obtain ⟨r, hs, rfl⟩ := Option.map_eq_some_iff.mp hstep
      exact h.submitOperationWithLinkedTimeout hs
  | cancelOperation token rounds =>
      obtain ⟨r, hs, rfl⟩ := Option.map_eq_some_iff.mp hstep
      exact h.cancelOperation hs
  | rearmTimer deadline rounds =>
      obtain ⟨r, hs, rfl⟩ := Option.map_eq_some_iff.mp hstep
      exact h.rearmTimer hs
  | poll rounds =>
      obtain ⟨r, hs, rfl⟩ := Option.map_eq_some_iff.mp hstep
      exact h.poll hs
  | wait rounds =>
      obtain ⟨r, hs, rfl⟩ := Option.map_eq_some_iff.mp hstep
      exact h.wait hs
  | drainTimer =>
      obtain rfl := Option.some.inj hstep
      exact { h with }
  | drainWake =>
      obtain rfl := Option.some.inj hstep
      exact { h with }
  | post cqe => exact (h.post hstep).1
  | notify =>
      obtain rfl := Option.some.inj hstep
      exact { h with }
  | shutdown keys turns =>
      rw [Driver.step] at hstep
      split at hstep
      · obtain ⟨r, hs, rfl⟩ := Option.map_eq_some_iff.mp hstep
        have hshutting : Sound { d with shuttingDown := true } [] := { h with }
        exact hshutting.quiesceOperations hs
      · exact absurd hstep nofun

/-- A driver over a ring of `2 ^ bits` submission and `2 ^ cqBits` completion entries, with what
its constructor finds out and what its environment gives. -/
structure Config where
  bits : Nat
  cqBits : Nat
  submitAll : Bool
  deferTaskrun : Bool
  supports : Opcode → Bool
  deferSubmissions : Bool
  eventfdWakeActive : Bool
  wakeFd : Int
  wakeFcntl : Nat → Option Nat
  pos : 1 ≤ bits
  le : bits ≤ 15
  cqLe : cqBits ≤ 31

def new (config : Config) : Driver where
  ring := {
    bits := config.bits, cqBits := config.cqBits, submitAll := config.submitAll
    deferTaskrun := config.deferTaskrun }
  supports := config.supports
  deferSubmissions := config.deferSubmissions
  eventfdWakeActive := config.eventfdWakeActive
  wakeFd := config.wakeFd
  wakeFcntl := config.wakeFcntl

theorem Sound.init (config : Config) : (new config).Sound [] where
  ready := ⟨config.pos, config.le, rfl, rfl, Nat.two_pow_pos 32, nofun⟩
  queued := ⟨[], ⟨config.cqLe, Nat.two_pow_pos 32, rfl, Nat.zero_le _, rfl⟩, nofun, fun _ _ => rfl⟩
  fresh := fun _ _ => rfl
  once := fun _ _ => Nat.zero_le _
  posted := fun _ => Nat.le_refl _
  atMost := fun _ => Nat.zero_le _
  freshTotal := fun _ _ => rfl
  freshReturned := nofun
  handed := nofun
  invoked := nofun
  returnedOk := nofun
  returnedErr := fun _ => nofun

def Reachable (config : Config) (d : Driver) : Prop :=
  Transition.Reachable step (fun _ _ => True) (new config) d

theorem sound_of_reachable {config : Config} (hreach : Reachable config d) : d.Sound [] :=
  Transition.Reachable.invariant (fun d => d.Sound []) (.init config)
    (fun _ _ _ h _ hstep => h.step hstep) hreach

/-- An entry or a callback has the token. -/
def Uses (d : Driver) (token : Token) : Prop :=
  d.pendingCount (.token token) + d.acceptedCount (.token token) ≠ 0 ∨ d.total token ≠ 0

theorem Sound.seq_lt {hand : List Cqe} {token : Token} (h : d.Sound hand) (huses : d.Uses token) :
    token.seq < d.nextToken := by
  refine Nat.not_le.mp fun hle => ?_
  rcases huses with huses | huses
  · exact huses (h.fresh token hle)
  · exact huses (h.freshTotal token hle)

theorem Sound.userData {hand : List Cqe} (h : d.Sound hand)
    (hfew : d.nextToken ≤ 2 ^ tokenKindShift) {token : Token} (huses : d.Uses token) :
    decodeTokenKind token.toU64 = some token.kind ∧ token.toU64 ≠ wakeTargetToken ∧
      ∀ token', d.Uses token' → token'.toU64 = token.toU64 → token' = token := by
  refine ⟨decodeTokenKind_toU64 token, token.toU64_ne_wake, fun token' huses' heq => ?_⟩
  exact Token.toU64_inj (Nat.lt_of_lt_of_le (h.seq_lt huses') hfew)
    (Nat.lt_of_lt_of_le (h.seq_lt huses) hfew) heq

/-- In every run a callback is registered exactly while its entry is staged, in the kernel, or
completed in the completion queue; it is invoked at most once, with a completion of its own entry
or its failure; it is registered or was invoked if its call returned a token, and neither if
submissions are deferred and the call has failed.  As long as there are fewer than `2 ^ 56`
tokens, the `user_data` of an entry tells its kind and which of the driver's tokens it is, and is
not the one of a wake-up. -/
theorem operations_of_reachable {config : Config} (hreach : Reachable config d) :
    (∃ queue, d.ring.Queued queue ∧ ∀ token, token.kind = .operation →
      d.completions.count token + d.postedCount (.token token) =
        d.pendingCount (.token token) + d.acceptedCount (.token token) + countToken token queue) ∧
      (∀ token, d.invokedCount token + d.completions.count token ≤ 1) ∧
      (∀ call ∈ d.invoked, call.1.kind = .operation ∧
        (⟨.token call.1, call.2⟩ ∈ d.posted ∨ ⟨.token call.1, call.2⟩ ∈ d.failed)) ∧
      (∀ token, (token, true) ∈ d.returned →
        d.invokedCount token + d.completions.count token = 1) ∧
      (d.deferSubmissions = true → ∀ token, (token, false) ∈ d.returned →
        d.invokedCount token + d.completions.count token = 0) ∧
      (d.nextToken ≤ 2 ^ tokenKindShift → ∀ token, d.Uses token →
        decodeTokenKind token.toU64 = some token.kind ∧ token.toU64 ≠ wakeTargetToken ∧
          ∀ token', d.Uses token' → token'.toU64 = token.toU64 → token' = token) := by
  have h := sound_of_reachable hreach
  obtain ⟨queue, hqueued, -, hbalance⟩ := h.queued
  refine ⟨⟨queue, hqueued, fun token htoken => ?_⟩, h.atMost, h.invoked, h.returnedOk,
    h.returnedErr, fun hfew _ => h.userData hfew⟩
  exact (hbalance token htoken).symm

/-- Two operations are submitted together, and the kernel has completed one of them. -/
theorem operations_of_reachable_one_completed :
    ∃ config d, Reachable config d ∧ d.invoked = [(⟨.operation, 2⟩, 5)] ∧
      d.completions = [⟨.operation, 1⟩] ∧ d.invokedCount ⟨.operation, 1⟩ = 0 := by
  obtain ⟨d, hreach, hd⟩ := Transition.Reachable.exists_of_run step (fun _ _ => True)
    (new {
      bits := 1, cqBits := 2, submitAll := true, deferTaskrun := false, supports := fun _ => true
      deferSubmissions := true, eventfdWakeActive := false, wakeFd := 0
      wakeFcntl := fun _ => none, pos := by decide, le := by decide, cqLe := by decide })
    [.submitOperation .recv 7 (some 9) [], .submitOperation .nop (-1) none [],
      .poll [{ results := [.ok 2] }], .post ⟨.token ⟨.operation, 2⟩, 5⟩, .poll [{}]]
    (fun d => d.invoked = [(⟨.operation, 2⟩, 5)] ∧ d.completions = [⟨.operation, 1⟩] ∧
      (⟨.operation, 1⟩, true) ∈ d.returned) (fun _ _ _ => trivial) (by decide +kernel)
  obtain ⟨hinvoked, hcompletions, hreturned⟩ := of_decide_eq_true hd
  obtain ⟨-, -, -, hok, -⟩ := operations_of_reachable hreach
  have hone := hok _ hreturned
  rw [hcompletions, List.count_singleton_self] at hone
  exact ⟨_, d, hreach, hinvoked, hcompletions, Nat.succ.inj hone⟩

end Runite.Linux.Driver
