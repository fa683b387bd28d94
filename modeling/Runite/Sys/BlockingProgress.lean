import Runite.Sys.BlockingOutcomes
import Runite.Lib.Counting

/-!
# Accepted jobs come to their end

A worker that is idle takes a job, and one that has a job can go on with it, so
the steps of the workers alone bring every accepted job to its end.
-/

namespace Runite.Sys.Pool

open Runite.Io

variable {s s' : Pool}

/-! ## Steps that do not settle -/

theorem dropReceiver_workers : s.dropReceiver.workers = s.workers := by
  unfold dropReceiver
  split <;> rfl

theorem mem_dropReceiver_ops {op : Offload} (hmem : op ∈ s.ops) (hstage : op.stage ≠ .queued) :
    op ∈ s.dropReceiver.ops := by
  unfold dropReceiver
  split
  · exact List.mem_map.mpr ⟨op, hmem, by rw [if_neg hstage]⟩
  · exact hmem

/-- A step that does not settle breaks what awaiting a job promises. -/
theorem Kept.not_resolved (h : s.Kept) {action : Action} (hsettles : ¬ s.Settles action)
    (hstep : Stepped s action s') : ¬ s'.Resolved := by
  intro hresolved
  cases hstep with
  | @complete w i op hbusy hop hstage =>
      have hjob : op.settles = false := by
        rw [← Bool.not_eq_true]
        intro hjob
        apply hsettles
        intro j other hother
        obtain ⟨hbusy', hop'⟩ := jobOf_eq_some.mp hother
        obtain ⟨rfl⟩ : i = j := by simpa [hbusy] using hbusy'
        obtain rfl : op = other := Option.some.inj (hop.symm.trans hop')
        exact hjob
      rcases (h.accounted i op hop).not_settles hstage hjob with hdead | ⟨halive, hnone⟩
      · refine hresolved.survive .dead ?_ rfl
        rw [dropReceiver_workers, hdead]
        exact List.mem_of_getElem? (Table.getElem?_set_self hbusy)
      · have hmem : ({ op.runToEnd.1 with stage := .ended } : Offload) ∈
            (s.setOp i { op.runToEnd.1 with stage := .ended }).ops :=
          List.mem_of_getElem? (Table.getElem?_set_self hop)
        have hlength := (hresolved.delivered _ (mem_dropReceiver_ops hmem (by simp))).2 rfl halive
        simp [hnone] at hlength
  | _ => exact hsettles trivial

/-! ## The workers go on -/

def Action.ofWorker : Action → Bool
  | .receive _ | .work _ | .complete _ => true
  | _ => false

/-- A bound on the steps of the workers that are left. -/
def remaining (s : Pool) : Nat :=
  3 * s.queue.length + 2 * s.ops.countP (·.stage = .working) +
    s.ops.countP (·.stage = .completing)

def WillSettle (s : Pool) : Prop :=
  ∀ op ∈ s.ops, op.stage.unended = true → op.settles = true

theorem WillSettle.setOp (h : s.WillSettle) {i : Nat} {op' : Offload}
    (hop' : op'.stage.unended = true → op'.settles = true) : (s.setOp i op').WillSettle := by
  intro other hmem hstage
  rcases List.mem_or_eq_of_mem_set hmem with hold | rfl
  · exact h other hold hstage
  · exact hop' hstage

theorem step_of_busy (hkept : s.Kept) (hwired : s.Wired) (hwill : s.WillSettle) {w i : Nat}
    (hbusy : s.workers[w]? = some (.busy i)) :
    ∃ action s', s.step action = some s' ∧ action.ofWorker = true ∧ s.Settles action ∧
      s'.WillSettle ∧ s'.remaining < s.remaining := by
  obtain ⟨op, hop, hstage | hstage⟩ := hwired.busy w i hbusy
  · have hsettles := hwill op (List.mem_of_getElem? hop) (by simp [hstage, Stage.unended])
    have hjob : s.jobOf w = some (i, op) := jobOf_eq_some.mpr ⟨hbusy, hop⟩
    refine ⟨.work w, s.setOp i { op with stage := .completing }, ?_, rfl, trivial,
      hwill.setOp fun _ => hsettles, ?_⟩
    · simp [step, hjob, hstage]
    · have hworking := Counting.countP_set_add (fun op : Offload => op.stage = .working)
        { op with stage := .completing } hop
      have hcompleting := Counting.countP_set_add (fun op : Offload => op.stage = .completing)
        { op with stage := .completing } hop
      simp [hstage] at hworking hcompleting
      simp only [remaining, Pool.setOp]
      omega
  · have hsettles := hwill op (List.mem_of_getElem? hop) (by simp [hstage, Stage.unended])
    have hjob : s.jobOf w = some (i, op) := jobOf_eq_some.mpr ⟨hbusy, hop⟩
    have heq := complete_eq hkept.accounted hbusy hop hstage hsettles
    refine ⟨.complete w, (s.setOp i { op.runToEnd.1 with stage := .ended }).setWorker w .idle,
      ?_, rfl, ?_, ?_, ?_⟩
    · simp [step, hjob, hstage, heq]
    · intro j other hother
      obtain ⟨rfl, rfl⟩ : i = j ∧ op = other := by simpa [hjob] using hother
      exact hsettles
    · exact WillSettle.setOp (i := i) hwill (by simp [Stage.unended])
    · have hworking := Counting.countP_set_add (fun op : Offload => op.stage = .working)
        { op.runToEnd.1 with stage := .ended } hop
      have hcompleting := Counting.countP_set_add (fun op : Offload => op.stage = .completing)
        { op.runToEnd.1 with stage := .ended } hop
      simp [hstage] at hworking hcompleting
      simp only [remaining, Pool.setOp, Pool.setWorker]
      omega

theorem step_of_unended (hkept : s.Kept) (hwired : s.Wired) (hwill : s.WillSettle)
    {op : Offload} (hmem : op ∈ s.ops) (hunended : op.stage.unended = true) :
    ∃ action s', s.step action = some s' ∧ action.ofWorker = true ∧ s.Settles action ∧
      s'.WillSettle ∧ s'.remaining < s.remaining := by
  obtain ⟨i, hop⟩ := List.mem_iff_getElem?.mp hmem
  by_cases hworking : op.stage = .working ∨ op.stage = .completing
  · obtain ⟨w, hbusy⟩ := hwired.held i op hop hworking
    exact step_of_busy hkept hwired hwill hbusy
  · have hqueued : op.stage = .queued := by
      cases hstage : op.stage <;> simp_all [Stage.unended]
    have hqueue : i ∈ s.queue := (hwired.queued i).mpr ⟨op, hop, hqueued⟩
    cases hhead : s.queue with
    | nil => simp [hhead] at hqueue
    | cons j rest =>
        have hstaffed := hwired.staffed (by simp [hhead])
        obtain ⟨worker, workers, hworkers⟩ := List.exists_cons_of_ne_nil hstaffed
        have hfirst : s.workers[0]? = some worker := by simp [hworkers]
        cases worker with
        | dead => exact absurd rfl (hkept.survive .dead (List.mem_of_getElem? hfirst))
        | busy k => exact step_of_busy hkept hwired hwill hfirst
        | idle =>
            obtain ⟨next, hnext, hstage⟩ := (hwired.queued j).mp (by simp [hhead])
            have hsettles := hwill next (List.mem_of_getElem? hnext)
              (by simp [hstage, Stage.unended])
            refine ⟨.receive 0, (Pool.setWorker { s with queue := rest } 0 (.busy j)).setOp j
              { next with stage := .working, ran := true },
              by simp [step, hfirst, hhead, hnext], rfl, trivial, ?_, ?_⟩
            · exact WillSettle.setOp (s := Pool.setWorker { s with queue := rest } 0 (.busy j))
                hwill fun _ => hsettles
            · have hcount := Counting.countP_set_add (fun op : Offload => op.stage = .working)
                { next with stage := .working, ran := true } hnext
              have hcompleting := Counting.countP_set_add
                (fun op : Offload => op.stage = .completing)
                { next with stage := .working, ran := true } hnext
              simp [hstage] at hcount hcompleting
              simp only [remaining, Pool.setOp, Pool.setWorker, hhead, List.length_cons]
              omega

/-- The steps of the workers bring every accepted job to its end. -/
theorem exists_ended (hkept : s.Kept) (hwired : s.Wired) (hwill : s.WillSettle) :
    ∃ s', Transition.Reachable step (fun s a => a.ofWorker = true ∧ s.Settles a) s s' ∧
      ∀ op ∈ s'.ops, op.stage.unended = false := by
  induction hremaining : s.remaining using Nat.strongRecOn generalizing s with
  | _ n ih =>
      by_cases hdone : ∀ op ∈ s.ops, op.stage.unended = false
      · exact ⟨s, .init, hdone⟩
      · have hleft : ∃ op ∈ s.ops, op.stage.unended = true := by simpa using hdone
        obtain ⟨op, hmem, hunended⟩ := hleft
        obtain ⟨action, t, hstep, hworker, hsettles, hwill', hlt⟩ :=
          step_of_unended hkept hwired hwill hmem hunended
        have hstepped := stepped_of_step hstep
        obtain ⟨s', hreach, hended⟩ := ih t.remaining (by omega)
          (hkept.stepped hwired hsettles hstepped) (hwired.stepped hkept hsettles hstepped)
          hwill' rfl
        exact ⟨s', hreach.head ⟨hworker, hsettles⟩ hstep, hended⟩

/-! ## Awaiting a job -/

/-- In every run whose jobs settle, awaiting a job keeps what it promises, and the
workers can bring every accepted job to its end; and a step that does not settle
breaks the promise. -/
theorem resolved_of_reachable {created : Except IoError Nat} (hreach : s.Reachable created) :
    s.Resolved ∧
    (s.WillSettle → ∃ s', Transition.Reachable step
      (fun s a => a.ofWorker = true ∧ s.Settles a) s s' ∧
      ∀ op ∈ s'.ops, op.stage.unended = false) ∧
    (∀ action s', s.step action = some s' → ¬ s.Settles action → ¬ s'.Resolved) := by
  obtain ⟨hkept, hwired⟩ := kept_of_reachable hreach
  refine ⟨hkept.resolved, exists_ended hkept hwired, ?_⟩
  intro action s' hstep hsettles
  exact hkept.not_resolved hsettles (stepped_of_step hstep)

instance (s : Pool) (action : Action) : Decidable (s.Settles action) :=
  match action with
  | .complete w =>
      match hjob : s.jobOf w with
      | none => isTrue (by intro i op h; simp [hjob] at h)
      | some (i, op) => decidable_of_iff (op.settles = true) ⟨by
          intro h j other hother
          obtain ⟨rfl, rfl⟩ : i = j ∧ op = other := by simpa [hjob] using hother
          exact h, fun h => h i op hjob⟩
  | .submit .. | .receive _ | .work _ | .dropFuture _ => isTrue trivial

/-- A lookup that returns, a write to a standard stream that panics, and a task that
panics after its handle was dropped. -/
theorem resolved_three_jobs :
    ∃ s : Pool, s.Reachable (.ok 0) ∧ s.Resolved ∧ s.ops.map (·.outcomes) =
      [[.value { id := 7 }], [.error Offload.stdioPanicked], []] := by
  obtain ⟨s, hreach, hs⟩ := Transition.Reachable.exists_of_guarded step Settles (init (.ok 0))
    [.submit .net (.value { id := 7 }), .submit .stdio (.panic .plain),
      .submit .task (.panic .plain), .dropFuture 2,
      .receive 0, .work 0, .complete 0, .receive 0, .work 0, .complete 0,
      .receive 0, .work 0, .complete 0]
    (fun s => s.ops.map (·.outcomes) =
      [[.value { id := 7 }], [.error Offload.stdioPanicked], []]) (by decide +kernel)
  exact ⟨s, hreach, (resolved_of_reachable hreach).1, of_decide_eq_true hs⟩

/-- The lookup of an address panics on the pool, and its future is never resolved. -/
theorem panicking_lookup_never_resolves :
    ∃ s : Pool, Transition.Reachable step (fun _ _ => True) (init (.ok 0)) s ∧
      s.ops = [{ offloader := .net, job := .panic .plain, stage := .ended, ran := true, begun := 1 }] ∧
      ¬ s.Resolved := by
  obtain ⟨s, hreach, hs⟩ := Transition.Reachable.exists_of_run step (fun _ _ => True)
    (init (.ok 0)) [.submit .net (.panic .plain), .receive 0, .work 0, .complete 0]
    (fun s => s.ops =
      [{ offloader := .net, job := .panic .plain, stage := .ended, ran := true, begun := 1 }])
    (by simp) (by decide +kernel)
  have hops := of_decide_eq_true hs
  refine ⟨s, hreach, hops, fun hresolved => ?_⟩
  have hlength := (hresolved.delivered _ (by rw [hops]; exact List.mem_singleton_self _)).2 rfl rfl
  simp at hlength

end Runite.Sys.Pool
