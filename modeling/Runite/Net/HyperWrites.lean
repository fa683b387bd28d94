import Runite.Net.HyperCalls

/-!
# What Hyper's writes come to

What was sent is a prefix of what was accepted, and a flush that succeeds leaves nothing
out.  The future in flight is settled by the first call whose drain comes to its end, and
that call reports its failure.
-/

namespace Runite.Net

open Runite.Io

namespace HyperStream

open Transition

variable {h h' : HyperStream}

/-! ## Bytes -/

/-- What was sent is what was accepted, up to the end of the last buffer. -/
theorem Sound.wire_isPrefix (hs : h.Sound none) (hfailed : ¬ Failed h.log) :
    h.wire <+: (accepted h.log).flatten ∧ (accepted h.log).dropLast.flatten <+: h.wire := by
  have hbytes := hs.bytes hfailed rfl
  refine ⟨⟨_, hbytes.symm⟩, ?_⟩
  cases hs.slot with
  | idle hop hsend =>
      rw [unsent, hsend, Option.elim_none, List.append_nil] at hbytes
      obtain ⟨rest, hrest⟩ := List.dropLast_prefix (accepted h.log)
      refine ⟨rest.flatten, ?_⟩
      rw [← List.flatten_append, hrest, hbytes]
  | pending hop houtcome hsend hdata =>
      rename_i p f
      obtain ⟨rest, hrest⟩ := List.getLast?_eq_some_iff.mp (hs.last p hop)
      obtain ⟨k, hk⟩ : ∃ k, f.unsent = p.submission.data.drop k := by
        rw [← hdata, SendAll.unsent]
        split <;> exact ⟨_, rfl⟩
      have hwire : h.wire = rest.flatten ++ p.submission.data.take k := by
        refine List.append_cancel_right (?_ : _ ++ p.submission.data.drop k = _ ++ _)
        rw [List.append_assoc, List.take_append_drop, ← hk]
        rw [unsent, hsend, hrest, List.flatten_append, List.flatten_singleton] at hbytes
        exact hbytes.symm
      rw [hrest, List.dropLast_concat, hwire]
      exact List.prefix_append ..

theorem Sound.sendAll_of_flush {waker : Waker} {polled : List (Except IoError Nat)}
    {source : Option Submission} (hs : h.Sound none) (hcall : h.pollFlush waker polled = some h')
    (hok : h'.log.getLast?.map (·.answer) = some (.unit (.ready ⟨.ok (), source⟩))) :
    h'.sendAll = none := by
  unfold HyperStream.pollFlush at hcall
  rcases hpoll : h.pollOperation polled with ⟨h₁, settled⟩
  rw [hpoll] at hcall
  obtain ⟨hs₁, -⟩ := hs.pollOperation hpoll
  obtain ⟨⟨s, reply⟩, hflush, rfl⟩ := Option.map_eq_some_iff.mp hcall
  dsimp only at hok
  rw [List.getLast?_concat, Option.map_some, Option.some.injEq] at hok
  cases hok
  cases WriteState.flushed_of_pollFlush hflush with
  | flushed hdrained =>
      obtain ⟨-, -, -, -, ⟨hpending, -⟩ | ⟨-, hsend, -⟩⟩ := hs₁.drained hdrained
      · cases hpending
      · exact hsend

/-! ## Failures -/

section Reports

variable {log : List HyperRecord} {i j : Nat} {q r : HyperRecord} {sub : Submission} {f : Failure}

theorem inFlight_take (hj : log[j]? = some r) : inFlight (log.take (j + 1)) = r.flight := by
  obtain ⟨hlt, rfl⟩ := List.getElem?_eq_some_iff.mp hj
  rw [List.take_succ_eq_append_getElem hlt, inFlight_append]

/-- What is submitted in a call is submitted in no later one. -/
theorem submitted_ne (h : Chronicle CallAllowed log) (hi : log[i]? = some r)
    (hsub : r.submitted = some sub) (hij : i < j) (hj : log[j]? = some q) :
    q.submitted ≠ some sub := by
  intro hq
  refine (h.allowed_take hj).fresh sub hq r ?_ hsub
  exact List.mem_of_getElem? ((List.getElem?_take_of_lt hij).trans hi)

/-- A buffer stays in flight until a drain comes to its end. -/
theorem inFlight_of_waits (h : Chronicle CallAllowed log) (hi : log[i]? = some r)
    (hflight : r.flight = some sub) (hij : i < j) (hj : j ≤ log.length)
    (hwaits : ∀ m x, i < m → m < j → log[m]? = some x → x.drained = false) :
    inFlight (log.take j) = some sub := by
  induction j with
  | zero => exact absurd hij (Nat.not_lt_zero i)
  | succ j ih =>
      have hget : log[j]? = some log[j] := List.getElem?_eq_getElem (by omega)
      rw [inFlight_take hget]
      rcases Nat.lt_succ_iff_lt_or_eq.mp hij with hlt | rfl
      · have hdrained := hwaits j log[j] hlt (Nat.lt_succ_self j) hget
        rw [((h.allowed_take hget).waits hdrained).2.2]
        exact ih hlt (by omega) fun m x him hmj => hwaits m x him (by omega)
      · cases hget.symm.trans hi
        exact hflight

/-- Once a drain has come to its end after its call, a buffer is not in flight. -/
theorem inFlight_ne_of_drained (h : Chronicle CallAllowed log) (hi : log[i]? = some r)
    (hsub : r.submitted = some sub) {m : Nat} {x : HyperRecord} (him : i < m) (hm : log[m]? = some x)
    (hdrained : x.drained = true) (hmj : m < j) (hj : j ≤ log.length) :
    inFlight (log.take j) ≠ some sub := by
  induction j with
  | zero => exact absurd hmj (Nat.not_lt_zero m)
  | succ j ih =>
      have hget : log[j]? = some log[j] := List.getElem?_eq_getElem (by omega)
      rw [inFlight_take hget]
      intro hflight
      have hkeeps : log[j].drained = true → False := fun htrue =>
        submitted_ne h hi hsub (by omega) hget ((h.allowed_take hget).keeps htrue sub hflight)
      rcases Nat.lt_succ_iff_lt_or_eq.mp hmj with hlt | rfl
      · cases hfalse : log[j].drained with
        | true => exact hkeeps hfalse
        | false =>
            rw [((h.allowed_take hget).waits hfalse).2.2] at hflight
            exact ih hlt (by omega) hflight
      · cases hget.symm.trans hm
        exact hkeeps hdrained

theorem settled_of_drained (h : Chronicle CallAllowed log) (hj : log[j]? = some q)
    (hdrained : q.drained = true) (hflight : inFlight (log.take j) = some sub) :
    ∃ result, q.settled = some ⟨sub, result⟩ := by
  have hsettles := (h.allowed_take hj).settles hdrained
  rw [hflight] at hsettles
  obtain ⟨⟨source, result⟩, hsettled, rfl⟩ := Option.map_eq_some_iff.mp hsettles
  exact ⟨result, hsettled⟩

/-- A failure of what a call submitted is reported later by the first call whose drain
comes to its end, and only if that drain has found it. -/
theorem reports_iff (h : Chronicle CallAllowed log) (hi : log[i]? = some r)
    (hsub : r.submitted = some f.source) (hij : i < j) (hj : log[j]? = some q) :
    f ∈ q.answer.failure ↔ q.drained = true ∧ q.settled = some f.completion ∧
      ∀ m x, i < m → m < j → log[m]? = some x → x.drained = false := by
  have hlt : j < log.length := (List.getElem?_eq_some_iff.mp hj).1
  have hallowed := h.allowed_take hj
  rw [hallowed.reports f (submitted_ne h hi hsub hij hj)]
  refine ⟨fun hsettled => ?_, fun h => h.2.1⟩
  have hdrained : q.drained = true := by
    by_contra hfalse
    exact nomatch (hallowed.waits (Bool.eq_false_iff.mpr hfalse)).1.symm.trans hsettled
  refine ⟨hdrained, hsettled, fun m x him hmj hm => ?_⟩
  by_contra hx
  refine inFlight_ne_of_drained h hi hsub him hm (by simpa using hx) hmj (Nat.le_of_lt hlt) ?_
  rw [← hallowed.settles hdrained, hsettled]
  rfl

end Reports

/-- In every run: a buffer is accepted as a whole or not at all; as long as no send has
failed, what was sent is a prefix of the accepted buffers that leaves out at most an end
of the last one, and nothing after a flush that succeeds; a buffer in flight is settled by
the first later call whose drain comes to its end, and this call alone reports its
failure. -/
theorem hyper_writes_of_reachable
    (hreach : Reachable HyperStream.step (fun _ _ => True) {} h) :
    Chronicle CallAllowed h.log ∧
    (¬ Failed h.log →
      h.wire <+: (accepted h.log).flatten ∧ (accepted h.log).dropLast.flatten <+: h.wire) ∧
    (∀ waker polled h' source, h.pollFlush waker polled = some h' → ¬ Failed h'.log →
      h'.log.getLast?.map (·.answer) = some (.unit (.ready ⟨.ok (), source⟩)) →
      h'.wire = (accepted h'.log).flatten) ∧
    (∀ (i j : Nat) (r q : HyperRecord) (sub : Submission), h.log[i]? = some r →
      r.submitted = some sub → i < j → h.log[j]? = some q →
      (∀ error, (⟨sub, error⟩ : Failure) ∈ q.answer.failure ↔
        q.drained = true ∧ q.settled = some ⟨sub, .error error⟩ ∧
          ∀ (m : Nat) (x : HyperRecord), i < m → m < j → h.log[m]? = some x → x.drained = false) ∧
      (r.flight = some sub → q.drained = true →
        (∀ (m : Nat) (x : HyperRecord), i < m → m < j → h.log[m]? = some x → x.drained = false) →
          ∃ result, q.settled = some ⟨sub, result⟩)) := by
  have hs := sound_of_reachable hreach
  refine ⟨hs.chronicle, hs.wire_isPrefix, ?_, ?_⟩
  · intro waker polled h' source hcall hfailed hok
    have hs' := hs.pollFlush hcall
    rw [hs'.bytes hfailed rfl, unsent, hs.sendAll_of_flush hcall hok, Option.elim_none,
      List.append_nil]
  · intro i j r q sub hi hsub hij hj
    refine ⟨fun error => ?_, fun hflight hdrained hwaits => ?_⟩
    · exact reports_iff hs.chronicle hi (f := ⟨sub, error⟩) hsub hij hj
    · have hlt : j < h.log.length := (List.getElem?_eq_some_iff.mp hj).1
      exact settled_of_drained hs.chronicle hj hdrained
        (inFlight_of_waits hs.chronicle hi hflight hij (Nat.le_of_lt hlt) hwaits)

/-- A buffer of three bytes that goes out in two sends, with a second call that is
pending meanwhile and a flush at the end. -/
def twoSends : List Act :=
  [.pollWrite 0 ⟨0, [1, 2, 3]⟩ [] [],
    .completeSend (.ok 2),
    .pollWrite 0 ⟨8, [4]⟩ [] [],
    .completeSend (.ok 9),
    .pollWrite 0 ⟨8, [4]⟩ [] [.ok 1],
    .pollFlush 0 []]

theorem hyper_writes_twoSends : ∃ h : HyperStream, Chronicle CallAllowed h.log ∧
    accepted h.log = [[1, 2, 3], [4]] ∧ h.wire <+: [1, 2, 3, 4] ∧ [1, 2, 3] <+: h.wire := by
  obtain ⟨h, hreach, hran⟩ := Reachable.exists_of_run HyperStream.step
    (fun _ _ => True) {} twoSends
    (fun h : HyperStream => accepted h.log == [[1, 2, 3], [4]] &&
      h.log.all fun r => r.answer.failure.isEmpty) (by simp) (by decide)
  simp only [Bool.and_eq_true, beq_iff_eq, List.all_eq_true, List.isEmpty_iff] at hran
  obtain ⟨haccepted, hfine⟩ := hran
  obtain ⟨hchronicle, hwire, -⟩ := hyper_writes_of_reachable hreach
  obtain ⟨hstart, hlast⟩ := hwire (by rintro ⟨r, hr, hne⟩; exact hne (hfine r hr))
  rw [haccepted] at hstart hlast
  exact ⟨h, hchronicle, haccepted, hstart, hlast⟩

end HyperStream

end Runite.Net
