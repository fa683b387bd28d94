import Mathlib.Data.List.GetD
import Mathlib.Data.List.Nodup
import Runite.Lib.Chronicle
import Runite.Lib.RoundRobin
import Runite.Macros.SelectPoll

/-!
# The order of the polls of `select!`

`RoundAllowed` says what a poll of the generated future may do after those before it,
for any notion of which outputs match.  The code keeps to it with the match that it
checks, and with the match of the patterns as long as no output is `Mixed`.
-/

namespace Runite.Macros

variable {σ ω : Type}

/-! ## The rules -/

/-- The branch gave an output that does not match. -/
def BranchPoll.mismatched (wins : Nat → Val → Bool) (index : Nat) (p : BranchPoll ω) : Bool :=
  p.index == index && p.answer.any fun v => !wins index v

/-- The guard of the branch is true, and every output it gave matches. -/
def stillEnabled (guard : Nat → Bool) (wins : Nat → Val → Bool) (before : List (SelectRound ω))
    (index : Nat) : Bool :=
  guard index && !before.any fun r => r.polls.any (·.mismatched wins index)

/-- The enabled branches in the cyclic order from `start`. -/
def enabledFrom (n : Nat) (guard : Nat → Bool) (wins : Nat → Val → Bool)
    (before : List (SelectRound ω)) (start : Nat) : List Nat :=
  ((List.range n).rotate start).filter (stillEnabled guard wins before)

/-- What a poll of the generated future may do. -/
structure RoundAllowed (n counter : Nat) (fixed : Bool) (guard : Nat → Bool)
    (wins : Nat → Val → Bool) (before : List (SelectRound ω)) (r : SelectRound ω) : Prop where
  goesOn : ∀ q ∈ before, q.result = none
  start : r.start = if fixed then 0 else (counter + before.length) % n
  waker : ∀ p ∈ r.polls, p.context = r.waker
  order : r.polls.map (·.index) <+: enabledFrom n guard wins before r.start
  once : (r.polls.map (·.index)).Nodup
  guarded : ∀ p ∈ r.polls, guard p.index = true
  fresh : ∀ q ∈ before, ∀ a ∈ q.polls, ∀ p ∈ r.polls, a.index = p.index → a.answer = none
  /-- the first output that matches ends the poll -/
  stops : ∀ pre p post v, r.polls = pre ++ p :: post → p.answer = some v → wins p.index v = true →
    post = [] ∧ r.result = some (.arm p.index v)
  won : ∀ index v, r.result = some (.arm index v) →
    ∃ pre, r.polls = pre ++ [{ index, context := r.waker, answer := some v }] ∧ wins index v = true
  /-- without a winner, all enabled branches were polled -/
  complete : (∀ index v, r.result ≠ some (.arm index v)) →
    r.polls.map (·.index) = enabledFrom n guard wins before r.start
  disabled : r.result = some .disabled ↔
    ∀ index < n, stillEnabled guard wins (before ++ [r]) index = false

/-! ## A sweep over branches -/

/-- `enabled` of the branch. -/
def SelectState.flag (s : SelectState σ ω) (index : Nat) : Bool :=
  s.enabled.getD index false

/-- What a sweep over these indices has done. -/
structure Swept (wins : Nat → Val → Bool) (context : ω) (indices : List Nat)
    (s : SelectState σ ω) (result : Option SelectWinner) (s' : SelectState σ ω)
    (new : List (BranchPoll ω)) : Prop where
  polls : s'.polls = s.polls ++ new
  waker : ∀ p ∈ new, p.context = context
  order : new.map (·.index) <+: indices.filter s.flag
  complete : result = none → new.map (·.index) = indices.filter s.flag
  stops : ∀ pre p post v, new = pre ++ p :: post → p.answer = some v → wins p.index v = true →
    post = [] ∧ result = some (.arm p.index v)
  won : ∀ winner, result = some winner → ∃ pre index v, winner = .arm index v ∧
    new = pre ++ [{ index, context, answer := some v }] ∧ wins index v = true
  enabled : ∀ index, s'.flag index =
    (s.flag index && !new.any (·.mismatched wins index))
  length : s'.enabled.length = s.enabled.length
  next : s'.next = s.next

namespace Swept

variable {wins : Nat → Val → Bool} {context : ω} {index : Nat} {indices : List Nat}
  {s s₁ s' : SelectState σ ω} {result : Option SelectWinner} {new : List (BranchPoll ω)} {v : Val}

theorem nil (s : SelectState σ ω) : Swept wins context [] s none s [] where
  polls := (List.append_nil _).symm
  waker := nofun
  order := List.prefix_rfl
  complete _ := rfl
  stops pre p post v hsplit := by simp at hsplit
  won := nofun
  enabled index := by simp
  length := rfl
  next := rfl

theorem skip (hdisabled : s.flag index = false)
    (h : Swept wins context indices s result s' new) :
    Swept wins context (index :: indices) s result s' new := by
  have hfilter : (index :: indices).filter s.flag =
      indices.filter s.flag :=
    List.filter_cons_of_neg (by rw [hdisabled]; exact Bool.false_ne_true)
  exact ⟨h.polls, h.waker, hfilter ▸ h.order, hfilter ▸ h.complete, h.stops, h.won, h.enabled,
    h.length, h.next⟩

theorem winner {futures : σ} (henabled : s.flag index = true)
    (hwins : wins index v = true) :
    Swept wins context (index :: indices) s (some (.arm index v))
      { s with futures, polls := s.polls ++ [{ index, context, answer := some v }] }
      [{ index, context, answer := some v }] where
  polls := rfl
  waker p hp := by
    rw [List.mem_singleton.mp hp]
  order := by
    rw [List.filter_cons_of_pos henabled]
    exact ⟨indices.filter s.flag, rfl⟩
  complete := nofun
  stops pre p post w hsplit hanswer hw := by
    obtain ⟨rfl, rfl, rfl⟩ : pre = [] ∧ { index, context, answer := some v } = p ∧ post = [] := by
      cases pre with
      | nil => simpa using hsplit
      | cons a pre => simp at hsplit
    cases hanswer
    exact ⟨rfl, rfl⟩
  won w hw := ⟨[], index, v, (Option.some.inj hw).symm, rfl, hwins⟩
  enabled j := by
    show s.flag j = _
    by_cases hj : index = j
    · subst hj
      simp [BranchPoll.mismatched, hwins]
    · simp [BranchPoll.mismatched, beq_false_of_ne hj]
  length := rfl
  next := rfl

/-- An enabled branch does not win, and is disabled if it gave an output. -/
theorem step {p : BranchPoll ω} (h : Swept wins context indices s₁ result s' new)
    (hnot : index ∉ indices) (henabled : s.flag index = true)
    (hindex : p.index = index) (hcontext : p.context = context)
    (hloses : ∀ v, p.answer = some v → wins index v = false)
    (hpolls : s₁.polls = s.polls ++ [p]) (hnext : s₁.next = s.next)
    (hlength : s₁.enabled.length = s.enabled.length)
    (hflags : ∀ j, s₁.flag j =
      (s.flag j && !(index == j && p.answer.isSome))) :
    Swept wins context (index :: indices) s result s' (p :: new) := by
  have hmismatched (j : Nat) : p.mismatched wins j = (index == j && p.answer.isSome) := by
    unfold BranchPoll.mismatched
    rw [hindex]
    by_cases hj : index = j
    · subst hj
      cases hanswer : p.answer with
      | none => rfl
      | some v => simp [hloses v hanswer]
    · rw [beq_false_of_ne hj, Bool.false_and, Bool.false_and]
  have hfilter : (index :: indices).filter s.flag =
      index :: indices.filter s₁.flag := by
    rw [List.filter_cons_of_pos henabled]
    congr 1
    refine List.filter_congr fun j hj => ?_
    have hne : (index == j) = false := by
      rw [beq_eq_false_iff_ne]
      rintro rfl
      exact hnot hj
    rw [hflags, hne, Bool.false_and, Bool.not_false, Bool.and_true]
  refine ⟨?_, ?_, ?_, ?_, ?_, ?_, ?_, h.length.trans hlength, h.next.trans hnext⟩
  · rw [h.polls, hpolls, List.append_assoc]
    rfl
  · intro q hq
    rcases List.mem_cons.mp hq with rfl | hq
    · exact hcontext
    · exact h.waker q hq
  · rw [hfilter, List.map_cons, hindex]
    exact (List.prefix_cons_inj _).mpr h.order
  · intro hnone
    rw [hfilter, List.map_cons, hindex, h.complete hnone]
  · intro pre q post v hsplit hanswer hwins
    cases pre with
    | nil =>
        obtain ⟨rfl, -⟩ : p = q ∧ new = post := by simpa using hsplit
        rw [hindex, hloses v hanswer] at hwins
        cases hwins
    | cons a pre =>
        obtain ⟨-, hsplit⟩ : p = a ∧ new = pre ++ q :: post := by simpa using hsplit
        exact h.stops pre q post v hsplit hanswer hwins
  · intro winner hwinner
    obtain ⟨pre, j, v, hwon, rfl, hwins⟩ := h.won winner hwinner
    exact ⟨p :: pre, j, v, hwon, rfl, hwins⟩
  · intro j
    rw [h.enabled, hflags, List.any_cons, hmismatched, Bool.not_or, Bool.and_assoc]

end Swept

section Code

variable {env : String → Option Constant} {poll : BranchFutures σ ω} {input : SelectInput}
  {branches : List GeneratedBranch} {context : ω}

/-- The output passes both checks of the branch. -/
def takes (env : String → Option Constant) (branches : List GeneratedBranch) (index : Nat)
    (v : Val) : Bool :=
  branches[index]?.any fun branch =>
    accepts env branch.resolution v && accepts env branch.structural v

theorem getD_set_false (flags : List Bool) (i j : Nat) :
    (flags.set i false).getD j false = (flags.getD j false && !(i == j)) := by
  rw [List.getD_eq_getElem?_getD, List.getD_eq_getElem?_getD, List.getElem?_set]
  by_cases hij : i = j
  · subst hij
    by_cases hi : i < flags.length <;> simp [hi]
  · rw [if_neg hij, beq_false_of_ne hij, Bool.not_false, Bool.and_true]

variable {index : Nat} {branch : GeneratedBranch} {s : SelectState σ ω} {futures : σ} {v : Val}

theorem pollEnabled_pending (henabled : s.flag index = true)
    (hpoll : poll index context s.futures = (futures, none)) :
    pollEnabled env poll context (branch, index) s =
      (none, { s with futures, polls := s.polls ++ [{ index, context, answer := none }] }) := by
  refine (if_pos henabled).trans ?_
  simp only [hpoll]

theorem pollEnabled_takes (henabled : s.flag index = true) (hbranch : branches[index]? = some branch)
    (hpoll : poll index context s.futures = (futures, some v))
    (htakes : takes env branches index v = true) :
    pollEnabled env poll context (branch, index) s = (some (.arm index v),
      { s with futures, polls := s.polls ++ [{ index, context, answer := some v }] }) := by
  rw [takes, hbranch, Option.any_some] at htakes
  refine (if_pos henabled).trans ?_
  simp only [hpoll, pollSelectBranch, htakes, if_true]

theorem pollEnabled_refuses (henabled : s.flag index = true)
    (hbranch : branches[index]? = some branch)
    (hpoll : poll index context s.futures = (futures, some v))
    (hrefuses : takes env branches index v = false) :
    pollEnabled env poll context (branch, index) s = (none, { s with
      futures
      enabled := s.enabled.set index false
      polls := s.polls ++ [{ index, context, answer := some v }] }) := by
  rw [takes, hbranch, Option.any_some] at hrefuses
  refine (if_pos henabled).trans ?_
  simp only [hpoll, pollSelectBranch, hrefuses, Bool.false_eq_true, if_false]

/-- A sweep polls the enabled ones of its branches, until an output passes the checks. -/
theorem exists_swept (items : List (GeneratedBranch × Nat))
    (hitems : ∀ x ∈ items, branches[x.2]? = some x.1) (hnodup : (items.map Prod.snd).Nodup)
    (s : SelectState σ ω) :
    ∃ new, Swept (takes env branches) context (items.map Prod.snd) s
      (Sweep.sweep (pollEnabled env poll context) items s).1
      (Sweep.sweep (pollEnabled env poll context) items s).2 new := by
  induction items generalizing s with
  | nil => exact ⟨[], .nil s⟩
  | cons x items ih =>
      obtain ⟨branch, index⟩ := x
      rw [List.map_cons, List.nodup_cons] at hnodup
      obtain ⟨hnot, hnodup⟩ := hnodup
      have hbranch : branches[index]? = some branch := hitems _ (List.mem_cons_self ..)
      have hrest := ih (fun x hx => hitems x (List.mem_cons_of_mem _ hx)) hnodup
      by_cases henabled : s.flag index = true
      · rcases hpoll : poll index context s.futures with ⟨futures, answer⟩
        cases answer with
        | none =>
            rw [Sweep.sweep_cons_of_none (pollEnabled_pending henabled hpoll)]
            obtain ⟨new, h⟩ := hrest
              { s with futures, polls := s.polls ++ [{ index, context, answer := none }] }
            refine ⟨_, h.step hnot henabled rfl rfl (by rintro v ⟨⟩) rfl rfl rfl (fun j => ?_)⟩
            show s.flag j = _
            simp
        | some v =>
            cases htakes : takes env branches index v with
            | true =>
                rw [Sweep.sweep_cons_of_some (pollEnabled_takes henabled hbranch hpoll htakes)]
                exact ⟨_, Swept.winner henabled htakes⟩
            | false =>
                rw [Sweep.sweep_cons_of_none (pollEnabled_refuses henabled hbranch hpoll htakes)]
                obtain ⟨new, h⟩ := hrest { s with
                  futures
                  enabled := s.enabled.set index false
                  polls := s.polls ++ [{ index, context, answer := some v }] }
                refine ⟨_, h.step hnot henabled rfl rfl (fun w hw => ?_) rfl rfl
                  List.length_set (fun j => ?_)⟩
                · cases hw
                  exact htakes
                · show (s.enabled.set index false).getD j false = _
                  rw [getD_set_false]
                  simp [SelectState.flag]
      · have hvisit : pollEnabled env poll context (branch, index) s = (none, s) := if_neg henabled
        rw [Sweep.sweep_cons_of_none hvisit]
        obtain ⟨new, h⟩ := hrest s
        exact ⟨new, h.skip (Bool.eq_false_iff.mpr henabled)⟩

def passItems (branches : List GeneratedBranch) (start : Nat) : List (GeneratedBranch × Nat) :=
  branches.zipIdx.filter (fun x => start ≤ x.2) ++ branches.zipIdx.filter (fun x => x.2 < start)

theorem getElem?_of_mem_passItems {start : Nat} {x : GeneratedBranch × Nat}
    (hx : x ∈ passItems branches start) : branches[x.2]? = some x.1 := by
  rcases List.mem_append.mp hx with hx | hx
  · exact List.mem_zipIdx_iff_getElem?.mp (List.mem_of_mem_filter hx)
  · exact List.mem_zipIdx_iff_getElem?.mp (List.mem_of_mem_filter hx)

theorem map_snd_passItems {start : Nat} (hstart : start ≤ branches.length) :
    (passItems branches start).map Prod.snd = (List.range branches.length).rotate start :=
  Sweep.map_snd_passes hstart

theorem pollPass_eq (inRange : Nat → Bool) (s : SelectState σ ω) :
    pollPass env poll branches context inRange s =
      Sweep.sweep (pollEnabled env poll context) (branches.zipIdx.filter (fun x => inRange x.2)) s :=
  Sweep.sweep_guarded (fun x : GeneratedBranch × Nat => inRange x.2) _ s

theorem pollFrom_eq (start : Nat) (s : SelectState σ ω) :
    pollFrom env poll branches context start s =
      match Sweep.sweep (pollEnabled env poll context) (passItems branches start) s with
      | (some winner, s) => (some winner, s)
      | (none, s) => if s.enabled.all (!·) then (some .disabled, s) else (none, s) := by
  simp only [passItems, Sweep.sweep_append, pollFrom, pollPass_eq]
  rcases Sweep.sweep (pollEnabled env poll context)
    (branches.zipIdx.filter fun x => start ≤ x.2) s with ⟨_ | winner, s'⟩
  · rfl
  · rfl

/-! ## The rounds -/

/-- What the closure owns after these rounds, none of which was ready. -/
structure Tracks (guard : Nat → Bool) (wins : Nat → Val → Bool) (n : Nat)
    (before : List (SelectRound ω)) (s : SelectState σ ω) : Prop where
  length : s.enabled.length = n
  flags : ∀ index, s.flag index = stillEnabled guard wins before index
  goesOn : ∀ q ∈ before, q.result = none
  refused : ∀ q ∈ before, ∀ p ∈ q.polls, ∀ v, p.answer = some v → wins p.index v = false

theorem all_not_iff (s : SelectState σ ω) :
    s.enabled.all (!·) = true ↔ ∀ index < s.enabled.length, s.flag index = false := by
  rw [List.all_eq_true]
  constructor
  · intro h index hindex
    have hflag := h _ (List.getElem_mem hindex)
    rw [Bool.not_eq_true'] at hflag
    rw [SelectState.flag, List.getD_eq_getElem _ _ hindex, hflag]
  · intro h flag hflag
    obtain ⟨index, hindex, rfl⟩ := List.mem_iff_getElem.mp hflag
    have hfalse := h index hindex
    rw [SelectState.flag, List.getD_eq_getElem _ _ hindex] at hfalse
    rw [hfalse]
    rfl

theorem stillEnabled_append (guard : Nat → Bool) (wins : Nat → Val → Bool)
    (before : List (SelectRound ω)) (r : SelectRound ω) (index : Nat) :
    stillEnabled guard wins (before ++ [r]) index =
      (stillEnabled guard wins before index && !r.polls.any (·.mismatched wins index)) := by
  simp [stillEnabled, Bool.and_assoc]

section Round

variable {counter start : Nat} {fixed : Bool} {guard : Nat → Bool} {before : List (SelectRound ω)}
  {s' : SelectState σ ω} {result : Option SelectWinner}

theorem Swept.enabled_of_won {wins : Nat → Val → Bool} {indices : List Nat} {index : Nat} {v : Val}
    {new : List (BranchPoll ω)}
    (h : Swept wins context indices s (some (.arm index v)) s' new) (hnodup : indices.Nodup) :
    s'.flag index = true := by
  obtain ⟨pre, j, w, heq, rfl, hwins⟩ := h.won _ rfl
  cases heq
  have hindices := h.order.sublist
  have hmem : index ∈ indices.filter s.flag := hindices.subset (by simp)
  have hpre : index ∉ pre.map (·.index) := by
    have hn := (hnodup.filter s.flag).sublist hindices
    rw [List.map_append, List.nodup_append] at hn
    exact fun hi => hn.2.2 index hi index (by simp) rfl
  rw [h.enabled, (List.mem_filter.mp hmem).2, Bool.true_and, Bool.not_eq_true', List.any_eq_false]
  intro p hp hmismatched
  rcases List.mem_append.mp hp with hp | hp
  · rw [BranchPoll.mismatched, Bool.and_eq_true, beq_iff_eq] at hmismatched
    exact hpre (hmismatched.1 ▸ List.mem_map_of_mem hp)
  · rw [List.mem_singleton.mp hp] at hmismatched
    simp [BranchPoll.mismatched, hwins] at hmismatched

variable {n : Nat} {wins : Nat → Val → Bool} {new : List (BranchPoll ω)}

theorem Tracks.filter_flag (h : Tracks guard wins n before s) (start : Nat) :
    ((List.range n).rotate start).filter s.flag = enabledFrom n guard wins before start := by
  rw [show s.flag = stillEnabled guard wins before from funext h.flags]
  rfl

theorem nodup_rotate (n start : Nat) : ((List.range n).rotate start).Nodup :=
  List.nodup_rotate.mpr List.nodup_range

/-- A poll whose sweep went like this does what it may do. -/
theorem Swept.roundAllowed {won : Option SelectWinner}
    (hswept : Swept wins context ((List.range n).rotate start) s won s' new)
    (h : Tracks guard wins n before s) (hpolls : s.polls = [])
    (hstart : start = if fixed then 0 else (counter + before.length) % n)
    (hwon : ∀ index v, result = some (.arm index v) ↔ won = some (.arm index v))
    (hdisabled : result = some .disabled ↔ ∀ index < n, s'.flag index = false) :
    RoundAllowed n counter fixed guard wins before
      { start, waker := context, polls := s'.polls, result } := by
  have hnew : s'.polls = new := by rw [hswept.polls, hpolls, List.nil_append]
  have horder := hswept.order
  rw [h.filter_flag] at horder
  have hstill : ∀ p ∈ new, stillEnabled guard wins before p.index = true := fun p hp =>
    (List.mem_filter.mp (horder.subset (List.mem_map_of_mem hp))).2
  rw [hnew]
  refine ⟨h.goesOn, hstart, hswept.waker, horder, ?_, ?_, ?_, ?_, ?_, ?_, ?_⟩
  · exact ((nodup_rotate n start).filter _).sublist horder.sublist
  · intro p hp
    exact (Bool.and_eq_true_iff.mp (hstill p hp)).1
  · intro q hq a ha p hp heq
    by_contra hanswer
    obtain ⟨v, hv⟩ := Option.ne_none_iff_exists'.mp hanswer
    have hrefused := h.refused q hq a ha v hv
    have hnone := (Bool.and_eq_true_iff.mp (hstill p hp)).2
    simp only [Bool.not_eq_true', List.any_eq_false] at hnone
    refine hnone q hq (List.any_eq_true.mpr ⟨a, ha, ?_⟩)
    simp [BranchPoll.mismatched, ← heq, hv, hrefused]
  · intro pre p post v hsplit hanswer hv
    obtain ⟨hpost, hresult⟩ := hswept.stops pre p post v hsplit hanswer hv
    exact ⟨hpost, (hwon _ _).mpr hresult⟩
  · intro index v hresult
    obtain ⟨pre, j, w, heq, hsplit, hv⟩ := hswept.won _ ((hwon index v).mp hresult)
    cases heq
    exact ⟨pre, hsplit, hv⟩
  · intro hnot
    have hnone : won = none := by
      by_contra hsome
      obtain ⟨winner, hwinner⟩ := Option.ne_none_iff_exists'.mp hsome
      obtain ⟨pre, j, w, rfl, -, -⟩ := hswept.won _ hwinner
      exact hnot j w ((hwon j w).mpr hwinner)
    exact (hswept.complete hnone).trans (h.filter_flag start)
  · rw [hdisabled]
    refine forall₂_congr fun index _ => ?_
    rw [stillEnabled_append, hswept.enabled, h.flags]

/-- What the closure owns after a poll that was pending. -/
theorem Swept.tracks (hswept : Swept wins context ((List.range n).rotate start) s none s' new)
    (h : Tracks guard wins n before s) (hpolls : s.polls = []) :
    Tracks guard wins n
      (before ++ [{ start, waker := context, polls := s'.polls, result := none }]) s' := by
  have hnew : s'.polls = new := by rw [hswept.polls, hpolls, List.nil_append]
  refine ⟨hswept.length.trans h.length, fun index => ?_, ?_, ?_⟩
  · rw [stillEnabled_append, hswept.enabled, h.flags, hnew]
  · intro q hq
    rcases List.mem_append.mp hq with hq | hq
    · exact h.goesOn q hq
    · rw [List.mem_singleton.mp hq]
  · intro q hq p hp v hv
    rcases List.mem_append.mp hq with hq | hq
    · exact h.refused q hq p hp v hv
    · rw [List.mem_singleton.mp hq, hnew] at hp
      obtain ⟨pre, post, hsplit⟩ := List.append_of_mem hp
      by_contra hwins
      exact nomatch (hswept.stops pre p post v hsplit hv (eq_true_of_ne_false hwins)).2

/-- A poll of the generated future does what it may do. -/
theorem Tracks.pollFrom (hn : branches.length = n)
    (h : Tracks guard (takes env branches) n before s) (hpolls : s.polls = [])
    (hstart : start = if fixed then 0 else (counter + before.length) % n) (hle : start ≤ n)
    (hpoll : Macros.pollFrom env poll branches context start s = (result, s')) :
    RoundAllowed n counter fixed guard (takes env branches) before
        { start, waker := context, polls := s'.polls, result } ∧
      s'.next = s.next ∧ (result = none → Tracks guard (takes env branches) n
        (before ++ [{ start, waker := context, polls := s'.polls, result }]) s') := by
  subst hn
  have hindices := map_snd_passItems hle
  obtain ⟨new, hswept⟩ : ∃ new, Swept (takes env branches) context _ s
      (Sweep.sweep (pollEnabled env poll context) (passItems branches start) s).1
      (Sweep.sweep (pollEnabled env poll context) (passItems branches start) s).2 new :=
    exists_swept (passItems branches start) (fun x hx => getElem?_of_mem_passItems hx)
      (hindices ▸ nodup_rotate ..) s
  rw [hindices] at hswept
  rw [pollFrom_eq] at hpoll
  generalize Sweep.sweep (pollEnabled env poll context) (passItems branches start) s = out at *
  obtain ⟨_ | winner, s₁⟩ := out
  · have hall := all_not_iff s₁
    rw [hswept.length, h.length] at hall
    by_cases hdisabled : s₁.enabled.all (!·) = true
    · dsimp only at hpoll
      rw [if_pos hdisabled] at hpoll
      cases hpoll
      exact ⟨hswept.roundAllowed h hpolls hstart (by simp) (by simpa using hall.mp hdisabled),
        hswept.next, nofun⟩
    · dsimp only at hpoll
      rw [if_neg hdisabled] at hpoll
      cases hpoll
      exact ⟨hswept.roundAllowed h hpolls hstart (by simp) (by simpa using mt hall.mpr hdisabled),
        hswept.next, fun _ => hswept.tracks h hpolls⟩
  · cases hpoll
    obtain ⟨pre, index, v, rfl, hsplit, -⟩ := hswept.won _ rfl
    refine ⟨hswept.roundAllowed h hpolls hstart (fun _ _ => Iff.rfl) ⟨nofun, fun hall => ?_⟩,
      hswept.next, nofun⟩
    have hflag := hswept.enabled_of_won (nodup_rotate ..)
    have hmem : index ∈ (List.range branches.length).rotate start :=
      List.mem_of_mem_filter (hswept.order.subset (by rw [hsplit]; simp))
    rw [List.mem_rotate, List.mem_range] at hmem
    exact nomatch hflag.symm.trans (hall index hmem)

theorem selectStart_eq (s : SelectState σ ω) (hn : branches.length = n) :
    selectStart input branches s = (if input.fixedStart then 0 else s.next,
      { s with next := if input.fixedStart then s.next else (s.next + 1) % n }) := by
  unfold selectStart
  rw [hn]
  split <;> rfl

/-- Every poll of a run does what it may do after those before it. -/
theorem chronicle_rounds (hn : branches.length = n) (hpos : 0 < n) (wakers : List ω)
    (hbefore : Chronicle (RoundAllowed n counter input.fixedStart guard (takes env branches)) before)
    (h : Tracks guard (takes env branches) n before s)
    (hnext : input.fixedStart = false → s.next = (counter + before.length) % n) :
    Chronicle (RoundAllowed n counter input.fixedStart guard (takes env branches))
      (before ++ rounds env poll input branches wakers s) := by
  induction wakers generalizing before s with
  | nil => rwa [rounds, List.append_nil]
  | cons waker wakers ih =>
      rw [rounds, selectStart_eq s hn]
      dsimp only
      rcases hpoll : Macros.pollFrom env poll branches waker
        (if input.fixedStart then 0 else s.next)
        { s with next := if input.fixedStart then s.next else (s.next + 1) % n, polls := [] }
        with ⟨result, s'⟩
      have hstart : (if input.fixedStart then 0 else s.next) =
          if input.fixedStart then 0 else (counter + before.length) % n := by
        split
        next => rfl
        next hfree => exact hnext (Bool.eq_false_iff.mpr hfree)
      have hle : (if input.fixedStart then 0 else s.next) ≤ n := by
        rw [hstart]
        split
        next => exact Nat.zero_le n
        next => exact Nat.le_of_lt (Nat.mod_lt _ hpos)
      have hreset : Tracks guard (takes env branches) n before
          { s with
            next := if input.fixedStart then s.next else (s.next + 1) % n, polls := [] } :=
        ⟨h.length, h.flags, h.goesOn, h.refused⟩
      obtain ⟨hallowed, hkeep, htracks⟩ := hreset.pollFrom hn rfl hstart hle hpoll
      have hchronicle := hbefore.snoc hallowed
      cases result with
      | some winner => exact hchronicle
      | none =>
          have hrest := ih hchronicle (htracks rfl) (fun hfree => ?_)
          · rwa [List.append_assoc] at hrest
          · rw [hkeep]
            dsimp only
            rw [hfree, hnext hfree, List.length_append, ← Nat.add_assoc]
            simp

end Round

end Code

/-! ## Which outputs match -/

section Matching

variable {n counter : Nat} {fixed : Bool} {guard : Nat → Bool} {wins wins' : Nat → Val → Bool}
  {before rs : List (SelectRound ω)} {r : SelectRound ω}

/-- The two notions of a match agree on what was given in these rounds. -/
def Agree (wins wins' : Nat → Val → Bool) (rs : List (SelectRound ω)) : Prop :=
  ∀ r ∈ rs, ∀ p ∈ r.polls, ∀ v, p.answer = some v → wins p.index v = wins' p.index v

theorem BranchPoll.mismatched_congr {p : BranchPoll ω}
    (h : ∀ v, p.answer = some v → wins p.index v = wins' p.index v) (index : Nat) :
    p.mismatched wins index = p.mismatched wins' index := by
  unfold BranchPoll.mismatched
  by_cases hindex : p.index = index
  · subst hindex
    cases hanswer : p.answer with
    | none => rfl
    | some v => rw [Option.any_some, Option.any_some, h v hanswer]
  · rw [beq_false_of_ne hindex, Bool.false_and, Bool.false_and]

theorem Agree.stillEnabled (h : Agree wins wins' rs) (guard : Nat → Bool) :
    stillEnabled guard wins rs = Macros.stillEnabled guard wins' rs := by
  funext index
  have hany : (rs.any fun r => r.polls.any (·.mismatched wins index)) =
      rs.any fun r => r.polls.any (·.mismatched wins' index) := by
    rw [Bool.eq_iff_iff]
    simp only [List.any_eq_true]
    refine exists_congr fun r => and_congr_right fun hr => ?_
    refine exists_congr fun p => and_congr_right fun hp => ?_
    rw [BranchPoll.mismatched_congr (h r hr p hp)]
  unfold Macros.stillEnabled
  rw [hany]

theorem RoundAllowed.congr (hagree : Agree wins wins' (before ++ [r]))
    (h : RoundAllowed n counter fixed guard wins before r) :
    RoundAllowed n counter fixed guard wins' before r := by
  have hbefore : Agree wins wins' before := fun q hq => hagree q (List.mem_append_left _ hq)
  have hnow := hagree r (List.mem_append_right _ (List.mem_singleton_self r))
  have henabled : enabledFrom n guard wins before r.start = enabledFrom n guard wins' before r.start := by
    rw [enabledFrom, hbefore.stillEnabled]
    rfl
  refine ⟨h.goesOn, h.start, h.waker, henabled ▸ h.order, h.once, h.guarded, h.fresh, ?_, ?_,
    fun hnot => (h.complete hnot).trans henabled, hagree.stillEnabled guard ▸ h.disabled⟩
  · intro pre p post v hsplit hanswer hv
    have hp : p ∈ r.polls := by simp [hsplit]
    exact h.stops pre p post v hsplit hanswer ((hnow p hp v hanswer).trans hv)
  · intro index v hresult
    obtain ⟨pre, hsplit, hv⟩ := h.won index v hresult
    refine ⟨pre, hsplit, ?_⟩
    rw [← hnow { index, context := r.waker, answer := some v } (by simp [hsplit]) v rfl]
    exact hv

theorem chronicle_congr (hagree : Agree wins wins' rs)
    (h : Chronicle (RoundAllowed n counter fixed guard wins) rs) :
    Chronicle (RoundAllowed n counter fixed guard wins') rs := by
  induction h with
  | nil => exact .nil
  | snoc h hok ih =>
      exact (ih fun q hq => hagree q (List.mem_append_left _ hq)).snoc (hok.congr hagree)

/-- What two notions of a match both allow, they agree on, if one is stronger. -/
theorem agree_of_chronicle (hstronger : ∀ index v, wins' index v = true → wins index v = true)
    (h : Chronicle (RoundAllowed n counter fixed guard wins) rs)
    (h' : Chronicle (RoundAllowed n counter fixed guard wins') rs) : Agree wins wins' rs := by
  intro r hr p hp v hanswer
  obtain ⟨rest, later, rfl⟩ := List.append_of_mem hr
  obtain ⟨pre, post, hsplit⟩ := List.append_of_mem hp
  cases hwins : wins p.index v with
  | false =>
      refine (Bool.eq_false_iff.mpr fun hwins' => ?_).symm
      exact nomatch hwins.symm.trans (hstronger _ _ hwins')
  | true =>
      obtain ⟨-, hresult⟩ := h.allowed.stops pre p post v hsplit hanswer hwins
      obtain ⟨-, -, hwins'⟩ := h'.allowed.won p.index v hresult
      exact hwins'.symm

end Matching

/-! ## Whole runs -/

namespace SelectInput

def guard (input : SelectInput) (index : Nat) : Bool :=
  input.branches[index]?.any (·.condition.getD true)

/-- The output matches the pattern of the branch. -/
def matchesPattern (env : String → Option Constant) (input : SelectInput) (index : Nat) (v : Val) :
    Bool :=
  input.branches[index]?.any fun branch => accepts env branch.pattern v

/-- The output is mixed for the pattern of the branch. -/
def MixedOutput (env : String → Option Constant) (input : SelectInput) (index : Nat) (v : Val) :
    Prop :=
  ∃ branch, input.branches[index]? = some branch ∧ Mixed env branch.pattern v

end SelectInput

/-- A run of the expression as the documentation has it. -/
structure Conforms (env : String → Option Constant) (input : SelectInput) (counter : Nat)
    (run : SelectRun ω) : Prop where
  chronicle : Chronicle (RoundAllowed input.branches.length counter input.fixedStart input.guard
    (input.matchesPattern env)) run.rounds
  /-- among `n` polls in a row that are not biased, each branch comes first once -/
  rotates : input.biased = false → ∀ k, k + input.branches.length ≤ run.rounds.length →
    ∀ index < input.branches.length,
      ∃! m, (k ≤ m ∧ m < k + input.branches.length) ∧
        run.rounds[m]?.map (·.start) = some index
  returns : ∀ r, run.rounds.getLast? = some r → ∀ index v, r.result = some (.arm index v) →
    run.outcome = some (.handler index v)
  fallback : ∀ r, run.rounds.getLast? = some r → (run.outcome = some input.fallbackHandler ↔
    ∀ index < input.branches.length,
      stillEnabled input.guard (input.matchesPattern env) run.rounds index = false)
  waits : ∀ r, run.rounds.getLast? = some r → r.result = none → run.outcome = none
  empty : input.branches = [] → run.rounds = [] ∧ run.outcome = some .fallback

section Whole

variable {env : String → Option Constant} {poll : BranchFutures σ ω} {input : SelectInput}
  {branches : List GeneratedBranch} {index counter : Nat} {v : Val}

theorem forall₂_of_mapM {α β : Type} {f : α → Except String β} {xs : List α} {ys : List β}
    (h : xs.mapM f = .ok ys) : List.Forall₂ (fun x y => f x = .ok y) xs ys := by
  induction xs generalizing ys with
  | nil =>
      cases h
      exact .nil
  | cons x xs ih =>
      rw [List.mapM_cons] at h
      obtain ⟨y, hy, h⟩ := bind_eq_ok h
      obtain ⟨rest, hrest, h⟩ := bind_eq_ok h
      cases h
      exact .cons hy (ih hrest)

theorem length_of_generateSelect (h : generateSelect input = .ok branches) :
    branches.length = input.branches.length :=
  (forall₂_of_mapM h).length_eq.symm

/-- What the generated code has of a branch is made of the branch. -/
theorem getElem?_of_generateSelect (h : generateSelect input = .ok branches) (index : Nat) :
    input.branches[index]? = none ∧ branches[index]? = none ∨
      ∃ branch generated, input.branches[index]? = some branch ∧
        branches[index]? = some generated ∧ generateBranch branch = .ok generated := by
  have hforall := forall₂_of_mapM h
  by_cases hindex : index < input.branches.length
  · have hindex' : index < branches.length := hforall.length_eq ▸ hindex
    exact .inr ⟨_, _, List.getElem?_eq_getElem hindex, List.getElem?_eq_getElem hindex',
      List.forall₂_iff_get.mp hforall |>.2 index hindex hindex'⟩
  · have hindex' : ¬ index < branches.length := hforall.length_eq ▸ hindex
    exact .inl ⟨List.getElem?_eq_none (Nat.le_of_not_lt hindex),
      List.getElem?_eq_none (Nat.le_of_not_lt hindex')⟩

theorem of_generateBranch {branch : SelectBranch} {generated : GeneratedBranch}
    (h : generateBranch branch = .ok generated) :
    preparePattern .resolution branch.pattern = .ok generated.resolution ∧
      preparePattern .structural branch.pattern = .ok generated.structural ∧
      generated.guard = branch.condition.getD true ∧ generated.pattern = branch.pattern := by
  obtain ⟨resolution, hresolution, h⟩ := bind_eq_ok h
  obtain ⟨structural, hstructural, h⟩ := bind_eq_ok h
  cases h
  exact ⟨hresolution, hstructural, rfl, rfl⟩

/-- The checks of the code are the match unless the output is mixed. -/
theorem takes_iff_matchesPattern (h : generateSelect input = .ok branches) :
    (takes env branches index v = true ↔ input.matchesPattern env index v = true) ↔
      ¬ input.MixedOutput env index v := by
  unfold takes SelectInput.matchesPattern SelectInput.MixedOutput
  obtain ⟨hnone, hnone'⟩ | ⟨branch, generated, hsome, hsome', hbranch⟩ :=
    getElem?_of_generateSelect h index
  · rw [hnone, hnone']
    simp
  · obtain ⟨hresolution, hstructural, -, -⟩ := of_generateBranch hbranch
    rw [hsome, hsome', Option.any_some, Option.any_some, Bool.and_eq_true,
      checked_iff_not_mixed hresolution hstructural]
    simp

theorem takes_of_matchesPattern (h : generateSelect input = .ok branches)
    (hmatches : input.matchesPattern env index v = true) : takes env branches index v = true := by
  unfold takes
  unfold SelectInput.matchesPattern at hmatches
  obtain ⟨hnone, -⟩ | ⟨branch, generated, hsome, hsome', hbranch⟩ :=
    getElem?_of_generateSelect h index
  · rw [hnone] at hmatches
    cases hmatches
  · obtain ⟨hresolution, hstructural, -, -⟩ := of_generateBranch hbranch
    rw [hsome, Option.any_some] at hmatches
    rw [hsome', Option.any_some, Bool.and_eq_true]
    exact taken_iff.mp (taken_of_accepts hresolution hstructural hmatches)

theorem guard_eq (h : generateSelect input = .ok branches) (index : Nat) :
    (branches.map (·.guard)).getD index false = input.guard index := by
  rw [List.getD_eq_getElem?_getD, List.getElem?_map, SelectInput.guard]
  obtain ⟨hnone, hnone'⟩ | ⟨branch, generated, hsome, hsome', hbranch⟩ :=
    getElem?_of_generateSelect h index
  · rw [hnone, hnone']
    rfl
  · rw [hsome, hsome', Option.any_some, ← (of_generateBranch hbranch).2.2.1]
    rfl

/-- The code keeps to the rules for the match that it checks. -/
theorem chronicle_runSelect (env : String → Option Constant) (poll : BranchFutures σ ω)
    (h : generateSelect input = .ok branches) (counter : Nat) (futures : σ) (wakers : List ω) :
    Chronicle (RoundAllowed input.branches.length counter input.fixedStart input.guard
      (takes env branches)) (runSelect env poll input branches counter futures wakers).rounds := by
  unfold runSelect
  split
  next => exact .nil
  next hsome =>
    have hn := length_of_generateSelect h
    have hpos : 0 < input.branches.length :=
      List.length_pos_iff.mpr fun hnil => hsome (List.isEmpty_iff.mpr hnil)
    show Chronicle _ ([] ++ _)
    refine chronicle_rounds hn hpos wakers .nil ⟨?_, ?_, nofun, nofun⟩ (fun _ => ?_)
    · rw [List.length_map, hn]
    · intro index
      rw [SelectState.flag, guard_eq h]
      simp [stillEnabled]
    · rw [hn]
      rfl

theorem rotates_of_chronicle {n : Nat} {fixed : Bool} {guard : Nat → Bool}
    {wins : Nat → Val → Bool} {rs : List (SelectRound ω)} {k : Nat}
    (h : Chronicle (RoundAllowed n counter fixed guard wins) rs) (hfixed : fixed = true → n = 1)
    (hk : k + n ≤ rs.length) (hindex : index < n) :
    ∃! m, (k ≤ m ∧ m < k + n) ∧ rs[m]?.map (·.start) = some index := by
  have hstart (m : Nat) (hm : m < k + n) :
      rs[m]?.map (·.start) = some (if fixed then 0 else (counter + m) % n) := by
    have hget : rs[m]? = some rs[m] := List.getElem?_eq_getElem (by omega)
    have hallowed := (h.allowed_take hget).start
    rw [List.length_take_of_le (by omega)] at hallowed
    rw [hget, Option.map_some, hallowed]
  cases hfree : fixed with
  | true =>
      have hn := hfixed hfree
      subst hn
      refine ⟨k, ⟨⟨Nat.le_refl k, by omega⟩, ?_⟩, fun m hm => by omega⟩
      rw [hstart k (by omega), hfree]
      simp
      omega
  | false =>
      obtain ⟨m, ⟨hm, hmod⟩, hunique⟩ := RoundRobin.existsUnique_add_mod hindex counter k
      refine ⟨m, ⟨hm, ?_⟩, fun m' hm' => hunique m' ⟨hm'.1, ?_⟩⟩
      · rw [hstart m hm.2, hfree]
        simpa using hmod
      · have hstart' := hm'.2
        rw [hstart m' hm'.1.2, hfree] at hstart'
        simpa using hstart'

theorem fixedStart_eq (hbiased : input.biased = false) (hfixed : input.fixedStart = true) :
    input.branches.length = 1 := by
  rw [SelectInput.fixedStart, hbiased, Bool.false_or, beq_iff_eq] at hfixed
  exact hfixed

theorem outcome_runSelect {futures : σ} {wakers : List ω} {r : SelectRound ω}
    (hlast : (runSelect env poll input branches counter futures wakers).rounds.getLast? = some r) :
    (runSelect env poll input branches counter futures wakers).outcome =
      r.result.map (conclude env input) := by
  unfold runSelect at hlast ⊢
  split at hlast
  next => cases hlast
  next hsome =>
    rw [if_neg hsome]
    dsimp only at hlast ⊢
    rw [hlast]
    rfl

theorem conclude_arm (hmatches : input.matchesPattern env index v = true) :
    conclude env input (.arm index v) = .handler index v := by
  rw [SelectInput.matchesPattern, Option.any_eq_true] at hmatches
  obtain ⟨branch, hbranch, haccepts⟩ := hmatches
  rw [conclude, hbranch, Option.map_some, handle, if_pos haccepts]

theorem fallbackHandler_ne (input : SelectInput) (index : Nat) (v : Val) :
    input.fallbackHandler ≠ .handler index v := by
  unfold SelectInput.fallbackHandler
  split <;> nofun

/-- For every input, every behaviour of the branch futures and every number of polls, the
generated code does what is said of `select!` exactly when no output that was given is
mixed for its pattern. -/
theorem select_polls_conform_iff (env : String → Option Constant) (poll : BranchFutures σ ω)
    (h : generateSelect input = .ok branches) (counter : Nat) (futures : σ) (wakers : List ω) :
    Conforms env input counter (runSelect env poll input branches counter futures wakers) ↔
      ∀ r ∈ (runSelect env poll input branches counter futures wakers).rounds, ∀ p ∈ r.polls,
        ∀ v, p.answer = some v → ¬ input.MixedOutput env p.index v := by
  have hcode := chronicle_runSelect env poll h counter futures wakers
  constructor
  · intro hconforms r hr p hp v hanswer
    have hagree : takes env branches p.index v = input.matchesPattern env p.index v :=
      agree_of_chronicle (fun _ _ => takes_of_matchesPattern h) hcode hconforms.chronicle
        r hr p hp v hanswer
    rw [← takes_iff_matchesPattern h, hagree]
  · intro hmixed
    have hagree : Agree (takes env branches) (input.matchesPattern env)
        (runSelect env poll input branches counter futures wakers).rounds := by
      intro r hr p hp v hanswer
      rw [Bool.eq_iff_iff, takes_iff_matchesPattern h]
      exact hmixed r hr p hp v hanswer
    have hchronicle := chronicle_congr hagree hcode
    have hlast : ∀ r, (runSelect env poll input branches counter futures wakers).rounds.getLast? =
        some r → ∃ before, (runSelect env poll input branches counter futures wakers).rounds =
          before ++ [r] := fun r hr => List.getLast?_eq_some_iff.mp hr
    refine ⟨hchronicle, fun hbiased k hk index hindex => ?_, ?_, ?_, ?_, ?_⟩
    · exact rotates_of_chronicle hchronicle (fixedStart_eq hbiased) hk hindex
    · intro r hr index v hresult
      obtain ⟨before, hbefore⟩ := hlast r hr
      rw [hbefore] at hchronicle
      obtain ⟨-, -, hwins⟩ := hchronicle.of_snoc.2.won index v hresult
      rw [outcome_runSelect hr, hresult, Option.map_some, conclude_arm hwins]
    · intro r hr
      obtain ⟨before, hbefore⟩ := hlast r hr
      rw [hbefore] at hchronicle
      rw [hbefore, ← hchronicle.of_snoc.2.disabled, outcome_runSelect hr]
      cases hresult : r.result with
      | none => simp
      | some winner =>
          cases winner with
          | disabled => simp [conclude]
          | arm index v =>
              obtain ⟨-, -, hwins⟩ := hchronicle.of_snoc.2.won index v hresult
              rw [Option.map_some, conclude_arm hwins]
              simpa using (fallbackHandler_ne input index v).symm
    · intro r hr hresult
      rw [outcome_runSelect hr, hresult, Option.map_none]
    · intro hempty
      simp [runSelect, hempty]

end Whole

/-- A `select!` with the one branch `(A, &1) | (B, &2)`. -/
def crossedInput : SelectInput where
  biased := false
  branches := [{ pattern := crossed }]
  hasFallback := false
  parsed := .inl nofun

/-- The output `(A, &2)` ends the poll, although it does not match, and then panics. -/
theorem select_returns_mixed : ∃ branches, generateSelect crossedInput = .ok branches ∧
    (runSelect twoUnits (fun _ _ s => (s, some (pair "A" 2))) crossedInput branches 0 () [()]).outcome
      = some .unreachable ∧
    ¬ Conforms twoUnits crossedInput 0
      (runSelect twoUnits (fun _ _ s => (s, some (pair "A" 2))) crossedInput branches 0 () [()]) := by
  refine ⟨_, rfl, rfl, fun hconforms => ?_⟩
  have hallowed := hconforms.chronicle.allowed_take (n := 0) rfl
  obtain ⟨-, -, hmatches⟩ := hallowed.won 0 (pair "A" 2) rfl
  revert hmatches
  decide

/-- `1 = …, if false`, `2 = …` and `value = …`. -/
def threeBranches : SelectInput where
  biased := false
  branches := [{ pattern := .atom (.lit (.int 1)), condition := some false },
    { pattern := .atom (.lit (.int 2)) }, { pattern := .ident "value" false false none }]
  hasFallback := true
  parsed := .inr rfl

/-- The second branch gives what does not match, and the third is ready at its third
poll. -/
def slowThird : BranchFutures Nat Nat := fun index _ n =>
  if index = 2 then (n + 1, if n = 2 then some (.scalar (.int 7)) else none)
  else (n, some (.scalar (.int 5)))

theorem select_polls_conform_three : ∃ branches, generateSelect threeBranches = .ok branches ∧
    Conforms (fun _ => none) threeBranches 1
      (runSelect (fun _ => none) slowThird threeBranches branches 1 0 [10, 11, 12, 13]) := by
  refine ⟨_, rfl, (select_polls_conform_iff _ _ rfl _ _ _).mpr ?_⟩
  rintro r - p - v - ⟨branch, hbranch, hmixed⟩
  have hmem := List.mem_of_getElem? hbranch
  simp only [threeBranches, List.mem_cons, List.not_mem_nil, or_false] at hmem
  rcases hmem with rfl | rfl | rfl <;> exact not_mixed_of_alternatives_eq rfl hmixed

end Runite.Macros
