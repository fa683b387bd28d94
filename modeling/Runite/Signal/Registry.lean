import Runite.Signal.Unix
import Runite.Lib.Transition

/-!
# The registrations of the runtime threads

A runtime thread has at most one registration that is alive, and the reader finds
it in the list while its runtime is open.  A stream that was not dropped is in its slot,
and the flag of a slot tells whether a closure is queued for it.
-/

namespace Runite.Signal

open Function Transition

namespace Reader

/-- The reader set the flag, and has not queued the closure yet. -/
def queues (r : Nat) (kind : SignalKind) : Reader → Bool
  | .queueing kind' r' _ _ | .refused kind' r' _ _ => r' == r && kind' == kind
  | _ => false

theorem holds_of_queues {r : Nat} {kind : SignalKind} {reader : Reader}
    (h : reader.queues r kind = true) : reader.holds r = true := by
  cases reader with
  | queueing kind' r' held kinds =>
      simp only [queues, Bool.and_eq_true] at h
      simp [holds, h.1]
  | refused kind' r' held kinds =>
      simp only [queues, Bool.and_eq_true] at h
      simp [holds, h.1]
  | _ => cases h

end Reader

namespace World

variable {w w' : World} {r : Nat} {kind : SignalKind}

theorem isAlive_iff {r : Nat} : w.isAlive r = true ↔
    (∃ id < w.nextStream, (w.streams id).live = true ∧ (w.streams id).registration = r) ∨
      (∃ kind, (r, kind) ∈ w.queued ∨ (r, kind) ∈ w.running) ∨ w.reader.holds r = true := by
  simp only [isAlive, Bool.or_eq_true, List.any_eq_true, List.mem_range, Bool.and_eq_true,
    beq_iff_eq, List.mem_append, or_assoc]
  constructor
  · rintro (⟨id, hid, hlive⟩ | ⟨⟨r', kind⟩, hclosure, rfl⟩ | hholds)
    · exact Or.inl ⟨id, hid, hlive⟩
    · exact Or.inr (Or.inl ⟨kind, hclosure⟩)
    · exact Or.inr (Or.inr hholds)
  · rintro (⟨id, hid, hlive⟩ | ⟨kind, hclosure⟩ | hholds)
    · exact Or.inl ⟨id, hid, hlive⟩
    · exact Or.inr (Or.inl ⟨(r, kind), hclosure, rfl⟩)
    · exact Or.inr (Or.inr hholds)

/-- The flag is set if a closure is queued or about to be.  A runtime that is open drops no
closure, so that it is set only then. -/
def Flagged (w : World) (r : Nat) (kind : SignalKind) : Prop :=
  w.queued.count (r, kind) + (w.reader.queues r kind).toNat
      ≤ ((w.threads r).wakeScheduled kind).toNat ∧
    (w.isClosed (w.threads r).thread = false →
      w.queued.count (r, kind) + (w.reader.queues r kind).toNat
        = ((w.threads r).wakeScheduled kind).toNat)

theorem Flagged.shift (h : w.Flagged r kind)
    (hclosed : w'.isClosed (w'.threads r).thread = w.isClosed (w.threads r).thread)
    (hsum : w'.queued.count (r, kind) + (w'.reader.queues r kind).toNat
        + ((w.threads r).wakeScheduled kind).toNat
      = w.queued.count (r, kind) + (w.reader.queues r kind).toNat
        + ((w'.threads r).wakeScheduled kind).toNat) : w'.Flagged r kind := by
  obtain ⟨hle, heq⟩ := h
  refine ⟨by omega, fun hopen => ?_⟩
  have hold := heq (hclosed ▸ hopen)
  omega

/-- The registrations, their slots and their flags. -/
structure Registry (w : World) : Prop where
  alive : ∀ r, w.isAlive r = true → r < w.nextRegistration ∧
    w.current (w.threads r).thread.thread = some r
  listed : ∀ r, w.isAlive r = true → w.isClosed (w.threads r).thread = false → r ∈ w.registrations
  slots : ∀ id, (w.streams id).live = true → id < w.nextStream ∧
    id ∈ (w.threads (w.streams id).registration).slots (w.streams id).kind
  scheduled : ∀ r kind, w.Flagged r kind

theorem not_isAlive_init (r : Nat) : ¬ isAlive {} r = true := by
  simp [isAlive_iff, Reader.holds]

theorem Registry.init : Registry {} where
  alive r hr := absurd hr (not_isAlive_init r)
  listed r hr := absurd hr (not_isAlive_init r)
  slots := nofun
  scheduled _ _ := ⟨Nat.le_refl _, fun _ => rfl⟩

theorem Registry.isAlive_of_live (h : Registry w) {id : Nat} (hlive : (w.streams id).live = true) :
    w.isAlive (w.streams id).registration = true :=
  isAlive_iff.mpr (Or.inl ⟨id, (h.slots id hlive).1, hlive, rfl⟩)

/-- A thread has at most one registration that is alive. -/
theorem Registry.eq_of_thread_eq (h : Registry w) {r r' : Nat} (hr : w.isAlive r = true)
    (hr' : w.isAlive r' = true)
    (hthread : (w.threads r).thread.thread = (w.threads r').thread.thread) : r = r' := by
  have hcurrent := (h.alive r hr).2
  rw [hthread, (h.alive r' hr').2] at hcurrent
  exact (Option.some.inj hcurrent).symm

theorem isClosed_eq_false_iff {handle : ThreadHandle} :
    w.isClosed handle = false ↔ w.closed handle.thread ≤ handle.runtime := by
  simp [isClosed]

theorem isClosed_eq (hclosed : w'.closed = w.closed)
    (hthread : (w'.threads r).thread = (w.threads r).thread) :
    w'.isClosed (w'.threads r).thread = w.isClosed (w.threads r).thread := by
  rw [isClosed, isClosed, hclosed, hthread]

theorem Registry.congr (h : Registry w)
    (halive : ∀ r, w'.isAlive r = true → w.isAlive r = true)
    (hregistrations : ∀ r ∈ w.registrations, w.isAlive r = true →
      w.isClosed (w.threads r).thread = false → r ∈ w'.registrations)
    (hnext : w'.nextRegistration = w.nextRegistration) (hcurrent : w'.current = w.current)
    (hclosed : w'.closed = w.closed) (hthread : ∀ r, (w'.threads r).thread = (w.threads r).thread)
    (hslots : ∀ id, (w'.streams id).live = true → id < w'.nextStream ∧
      id ∈ (w'.threads (w'.streams id).registration).slots (w'.streams id).kind)
    (hscheduled : ∀ r kind, w'.Flagged r kind) : Registry w' where
  alive r hr := by
    obtain ⟨hlt, hsome⟩ := h.alive r (halive r hr)
    refine ⟨by rw [hnext]; exact hlt, ?_⟩
    rw [hcurrent, hthread, hsome]
  listed r hr hopen := by
    have hold : w.isClosed (w.threads r).thread = false := by
      rw [← hopen, isClosed_eq hclosed (hthread r)]
    exact hregistrations r (h.listed r (halive r hr) hold) (halive r hr) hold
  slots := hslots
  scheduled := hscheduled

/-- A step that leaves the registrations and the closures alone. -/
theorem Registry.of_streams (h : Registry w) (hreader : w'.reader = w.reader)
    (hqueued : w'.queued = w.queued) (hrunning : w'.running = w.running)
    (hregistrations : w'.registrations = w.registrations)
    (hnext : w'.nextRegistration = w.nextRegistration) (hcurrent : w'.current = w.current)
    (hclosed : w'.closed = w.closed) (hthreads : w'.threads = w.threads) (hnextStream : w'.nextStream = w.nextStream)
    (hstreams : ∀ id, (w'.streams id).live = true → (w.streams id).live = true ∧
      (w'.streams id).registration = (w.streams id).registration ∧
      (w'.streams id).kind = (w.streams id).kind) : Registry w' := by
  refine h.congr ?_ (fun r hr _ _ => by rwa [hregistrations]) hnext hcurrent hclosed
    (fun r => by rw [hthreads]) ?_ fun r kind => (h.scheduled r kind).shift ?_ ?_
  · intro r hr
    rw [isAlive_iff, hreader, hqueued, hrunning, hnextStream] at hr
    rw [isAlive_iff]
    refine hr.imp_left ?_
    rintro ⟨id, hid, hlive, hr⟩
    obtain ⟨hold, hregistration, -⟩ := hstreams id hlive
    exact ⟨id, hid, hold, by rw [← hregistration, hr]⟩
  · intro id hlive
    obtain ⟨hold, hregistration, hkind⟩ := hstreams id hlive
    rw [hnextStream, hthreads, hregistration, hkind]
    exact h.slots id hold
  · exact isClosed_eq hclosed (by rw [hthreads])
  · rw [hqueued, hreader, hthreads]

/-! ## The reader -/

inductive Read (w : World) : World → Prop
  | wakes : w.reader = .polling → 0 < w.wake → Read w { w with reader := .draining }
  | reads {left : Nat} : w.reader = .draining → left < w.wake →
      Read w { w with wake := left, reader := .dispatching SignalKind.all }
  | sleeps : w.reader = .draining → w.wake = 0 → Read w { w with reader := .polling }
  | dispatched : w.reader = .dispatching [] → Read w { w with reader := .draining }
  | takes {kind : SignalKind} {kinds : List SignalKind} : w.reader = .dispatching (kind :: kinds) →
      w.pending kind = true →
      Read w { w with pending := update w.pending kind false, reader := .retaining kind kinds }
  | passes {kind : SignalKind} {kinds : List SignalKind} : w.reader = .dispatching (kind :: kinds) →
      w.pending kind = false → Read w { w with reader := .dispatching kinds }
  | retains {kind : SignalKind} {kinds : List SignalKind} : w.reader = .retaining kind kinds →
      Read w { w with
        registrations := w.registrations.filter fun r =>
          w.isAlive r && !w.isClosed (w.threads r).thread
        reader := .collecting kind (w.registrations.filter fun r =>
          w.isAlive r && !w.isClosed (w.threads r).thread) [] kinds }
  | upgrades {kind : SignalKind} {r : Nat} {left held : List Nat} {kinds : List SignalKind} :
      w.reader = .collecting kind (r :: left) held kinds → w.isAlive r = true →
      Read w { w with reader := .collecting kind left (held ++ [r]) kinds }
  | skips {kind : SignalKind} {r : Nat} {left held : List Nat} {kinds : List SignalKind} :
      w.reader = .collecting kind (r :: left) held kinds → w.isAlive r = false →
      Read w { w with reader := .collecting kind left held kinds }
  | collected {kind : SignalKind} {held : List Nat} {kinds : List SignalKind} :
      w.reader = .collecting kind [] held kinds →
      Read w { w with reader := .scheduling kind held kinds }
  | scheduled {kind : SignalKind} {kinds : List SignalKind} : w.reader = .scheduling kind [] kinds →
      Read w { w with reader := .dispatching kinds }
  /-- a closure is queued already -/
  | coalesces {kind : SignalKind} {r : Nat} {held : List Nat} {kinds : List SignalKind} :
      w.reader = .scheduling kind (r :: held) kinds → (w.threads r).wakeScheduled kind = true →
      Read w { w with reader := .scheduling kind held kinds }
  | marks {kind : SignalKind} {r : Nat} {held : List Nat} {kinds : List SignalKind} :
      w.reader = .scheduling kind (r :: held) kinds → (w.threads r).wakeScheduled kind = false →
      Read w { w with
        threads := update w.threads r
          { w.threads r with wakeScheduled := update (w.threads r).wakeScheduled kind true }
        reader := .queueing kind r held kinds }
  | queues {kind : SignalKind} {r : Nat} {held : List Nat} {kinds : List SignalKind} :
      w.reader = .queueing kind r held kinds → w.isClosed (w.threads r).thread = false →
      Read w { w with queued := w.queued ++ [(r, kind)], reader := .scheduling kind held kinds }
  | refuses {kind : SignalKind} {r : Nat} {held : List Nat} {kinds : List SignalKind} :
      w.reader = .queueing kind r held kinds → w.isClosed (w.threads r).thread = true →
      Read w { w with reader := .refused kind r held kinds }
  | clears {kind : SignalKind} {r : Nat} {held : List Nat} {kinds : List SignalKind} :
      w.reader = .refused kind r held kinds →
      Read w { w with
        threads := update w.threads r
          { w.threads r with wakeScheduled := update (w.threads r).wakeScheduled kind false }
        reader := .scheduling kind held kinds }

theorem read_of_readerStep {left : Nat} (hs : w.readerStep left = some w') : Read w w' := by
  unfold readerStep at hs
  split at hs
  next hreader =>
    obtain ⟨hwake, hs⟩ := Option.ite_none_right_eq_some.mp hs
    obtain rfl := Option.some.inj hs
    exact .wakes hreader hwake
  next hreader =>
    split at hs
    next =>
      obtain ⟨hleft, hs⟩ := Option.ite_none_right_eq_some.mp hs
      obtain rfl := Option.some.inj hs
      exact .reads hreader hleft
    next hwake =>
      obtain rfl := Option.some.inj hs
      exact .sleeps hreader (Nat.eq_zero_of_not_pos hwake)
  next hreader =>
    obtain rfl := Option.some.inj hs
    exact .dispatched hreader
  next hreader =>
    split at hs
    next hpending =>
      obtain rfl := Option.some.inj hs
      exact .takes hreader hpending
    next hpending =>
      obtain rfl := Option.some.inj hs
      exact .passes hreader (Bool.not_eq_true _ ▸ hpending)
  next hreader =>
    obtain rfl := Option.some.inj hs
    exact .retains hreader
  next hreader =>
    obtain rfl := Option.some.inj hs
    exact .collected hreader
  next kind r left held kinds hreader =>
    obtain rfl := Option.some.inj hs
    cases halive : w.isAlive r with
    | true => exact .upgrades hreader halive
    | false => exact .skips hreader halive
  next hreader =>
    obtain rfl := Option.some.inj hs
    exact .scheduled hreader
  next hreader =>
    split at hs
    next hflag =>
      obtain rfl := Option.some.inj hs
      exact .coalesces hreader hflag
    next hflag =>
      obtain rfl := Option.some.inj hs
      exact .marks hreader (Bool.not_eq_true _ ▸ hflag)
  next hreader =>
    split at hs
    next hclosed =>
      obtain rfl := Option.some.inj hs
      exact .refuses hreader hclosed
    next hclosed =>
      obtain rfl := Option.some.inj hs
      exact .queues hreader (Bool.not_eq_true _ ▸ hclosed)
  next hreader =>
    obtain rfl := Option.some.inj hs
    exact .clears hreader

/-- What keeps registrations after a step kept them before. -/
theorem isAlive_of_kept {r : Nat} (hr : w'.isAlive r = true) (hstreams : w'.streams = w.streams)
    (hnext : w'.nextStream = w.nextStream)
    (hclosures : ∀ r kind, (r, kind) ∈ w'.queued ∨ (r, kind) ∈ w'.running → w.isAlive r = true)
    (hholds : ∀ r, w'.reader.holds r = true → w.isAlive r = true) : w.isAlive r = true := by
  rcases isAlive_iff.mp hr with ⟨id, hid, hlive⟩ | ⟨kind, hclosure⟩ | hreader
  · rw [hstreams] at hlive
    exact isAlive_iff.mpr (Or.inl ⟨id, hnext ▸ hid, hlive⟩)
  · exact hclosures r kind hclosure
  · exact hholds r hreader

theorem isAlive_of_closure {r : Nat} {kind : SignalKind}
    (h : (r, kind) ∈ w.queued ∨ (r, kind) ∈ w.running) : w.isAlive r = true :=
  isAlive_iff.mpr (Or.inr (Or.inl ⟨kind, h⟩))

theorem isAlive_of_holds {r : Nat} (h : w.reader.holds r = true) : w.isAlive r = true :=
  isAlive_iff.mpr (Or.inr (Or.inr h))

theorem thread_setScheduled (r : Nat) (kind : SignalKind) (flag : Bool) (r' : Nat) :
    (update w.threads r { w.threads r with
      wakeScheduled := update (w.threads r).wakeScheduled kind flag } r').thread
      = (w.threads r').thread := by
  by_cases heq : r' = r
  · subst heq
    rw [update_self]
  · rw [update_of_ne heq]

theorem slots_setScheduled (r : Nat) (kind : SignalKind) (flag : Bool) (r' : Nat) :
    (update w.threads r { w.threads r with
      wakeScheduled := update (w.threads r).wakeScheduled kind flag } r').slots
      = (w.threads r').slots := by
  by_cases heq : r' = r
  · subst heq
    rw [update_self]
  · rw [update_of_ne heq]

theorem scheduled_setScheduled (r : Nat) (kind : SignalKind) (flag : Bool) (r' : Nat)
    (kind' : SignalKind) :
    (update w.threads r { w.threads r with
      wakeScheduled := update (w.threads r).wakeScheduled kind flag } r').wakeScheduled kind'
      = if r' = r ∧ kind' = kind then flag else (w.threads r').wakeScheduled kind' := by
  by_cases heq : r' = r
  · subst heq
    rw [update_self]
    simp [update_apply]
  · rw [update_of_ne heq, if_neg (fun hand => heq hand.1)]

theorem slot_ne {r r' : Nat} {kind kind' : SignalKind} (h : ¬ (r' = r ∧ kind' = kind)) :
    (r == r' && kind == kind') = false := by
  rw [Bool.and_eq_false_iff, beq_eq_false_iff_ne, beq_eq_false_iff_ne, ← not_and_or]
  exact fun hand => h ⟨hand.1.symm, hand.2.symm⟩

/-- The reader moves on, and lets go of registrations or takes one that is alive. -/
theorem Registry.moves (h : Registry w) (hstreams : w'.streams = w.streams)
    (hnextStream : w'.nextStream = w.nextStream) (hqueued : w'.queued = w.queued)
    (hrunning : w'.running = w.running) (hthreads : w'.threads = w.threads)
    (hcurrent : w'.current = w.current) (hnext : w'.nextRegistration = w.nextRegistration)
    (hclosed : w'.closed = w.closed)
    (hregistrations : ∀ r ∈ w.registrations, w.isAlive r = true →
      w.isClosed (w.threads r).thread = false → r ∈ w'.registrations)
    (hholds : ∀ r, w'.reader.holds r = true → w.isAlive r = true)
    (hqueues : ∀ r kind, w'.reader.queues r kind = w.reader.queues r kind) : Registry w' := by
  have halive : ∀ r, w'.isAlive r = true → w.isAlive r = true := fun r hr =>
    isAlive_of_kept hr hstreams hnextStream
      (by rw [hqueued, hrunning]; exact fun _ _ => isAlive_of_closure) hholds
  refine h.congr halive hregistrations hnext hcurrent hclosed (by simp [hthreads]) ?_ ?_
  · rw [hstreams, hnextStream, hthreads]
    exact h.slots
  · intro r kind
    refine (h.scheduled r kind).shift (isClosed_eq hclosed (by rw [hthreads])) ?_
    rw [hqueued, hqueues, hthreads]

/-- The reader sets the flag of a slot or clears it, as it begins to queue the closure or gives
that up. -/
theorem Registry.setScheduled (h : Registry w) {flag : Bool} {reader : Reader}
    (hholds : ∀ r', reader.holds r' = true → w.isAlive r' = true)
    (hflag : (reader.queues r kind).toNat + ((w.threads r).wakeScheduled kind).toNat =
      (w.reader.queues r kind).toNat + flag.toNat)
    (hothers : ∀ r' kind', ¬ (r' = r ∧ kind' = kind) →
      reader.queues r' kind' = w.reader.queues r' kind') :
    Registry { w with
      threads := update w.threads r { w.threads r with
        wakeScheduled := update (w.threads r).wakeScheduled kind flag }
      reader } := by
  refine h.congr (fun r' hr' => isAlive_of_kept hr' rfl rfl
    (fun _ _ => isAlive_of_closure (w := w)) hholds) (fun _ hr _ _ => hr) rfl rfl rfl
    (thread_setScheduled r kind flag) ?_ ?_
  · intro id hlive
    refine ⟨(h.slots id hlive).1, ?_⟩
    rw [slots_setScheduled]
    exact (h.slots id hlive).2
  · intro r' kind'
    refine (h.scheduled r' kind').shift (isClosed_eq rfl (thread_setScheduled r kind flag r')) ?_
    rw [scheduled_setScheduled]
    by_cases heq : r' = r ∧ kind' = kind
    · obtain ⟨rfl, rfl⟩ := heq
      rw [if_pos ⟨rfl, rfl⟩]
      simp only [Nat.add_assoc]
      rw [hflag]
    · rw [if_neg heq, hothers r' kind' heq]

theorem Registry.read (h : Registry w) (hr : Read w w') : Registry w' := by
  have hkeeps : ∀ r ∈ w.registrations, w.isAlive r = true →
      w.isClosed (w.threads r).thread = false → r ∈ w.registrations := fun _ hr _ _ => hr
  cases hr with
  | wakes hreader =>
      exact h.moves rfl rfl rfl rfl rfl rfl rfl rfl hkeeps nofun (by simp [hreader, Reader.queues])
  | reads hreader =>
      exact h.moves rfl rfl rfl rfl rfl rfl rfl rfl hkeeps nofun (by simp [hreader, Reader.queues])
  | sleeps hreader =>
      exact h.moves rfl rfl rfl rfl rfl rfl rfl rfl hkeeps nofun (by simp [hreader, Reader.queues])
  | dispatched hreader =>
      exact h.moves rfl rfl rfl rfl rfl rfl rfl rfl hkeeps nofun (by simp [hreader, Reader.queues])
  | takes hreader =>
      exact h.moves rfl rfl rfl rfl rfl rfl rfl rfl hkeeps nofun (by simp [hreader, Reader.queues])
  | passes hreader =>
      exact h.moves rfl rfl rfl rfl rfl rfl rfl rfl hkeeps nofun (by simp [hreader, Reader.queues])
  | retains hreader =>
      refine h.moves rfl rfl rfl rfl rfl rfl rfl rfl ?_ ?_ (by simp [hreader, Reader.queues])
      · exact fun r hr halive hopen => List.mem_filter.mpr ⟨hr, by simp [halive, hopen]⟩
      · simp [Reader.holds]
  | upgrades hreader halive =>
      refine h.moves rfl rfl rfl rfl rfl rfl rfl rfl hkeeps ?_ (by simp [hreader, Reader.queues])
      intro r hr
      simp only [Reader.holds, List.contains_eq_mem, List.mem_append, List.mem_singleton,
        decide_eq_true_eq] at hr
      rcases hr with hr | rfl
      · exact isAlive_of_holds (by simp [hreader, Reader.holds, hr])
      · exact halive
  | skips hreader =>
      refine h.moves rfl rfl rfl rfl rfl rfl rfl rfl hkeeps ?_ (by simp [hreader, Reader.queues])
      exact fun r hr => isAlive_of_holds (by rw [hreader]; exact hr)
  | collected hreader =>
      refine h.moves rfl rfl rfl rfl rfl rfl rfl rfl hkeeps ?_ (by simp [hreader, Reader.queues])
      exact fun r hr => isAlive_of_holds (by rw [hreader]; exact hr)
  | scheduled hreader =>
      exact h.moves rfl rfl rfl rfl rfl rfl rfl rfl hkeeps nofun (by simp [hreader, Reader.queues])
  | coalesces hreader =>
      refine h.moves rfl rfl rfl rfl rfl rfl rfl rfl hkeeps ?_ (by simp [hreader, Reader.queues])
      intro r hr
      refine isAlive_of_holds ?_
      rw [hreader]
      simp_all [Reader.holds]
  | @marks kind r held kinds hreader hflag =>
      refine h.setScheduled (fun r' hr' => isAlive_of_holds ?_) ?_ fun r' kind' hne => ?_
      · simp only [Reader.holds, Bool.or_eq_true, beq_iff_eq, List.contains_eq_mem,
          decide_eq_true_eq] at hr'
        simpa [hreader, Reader.holds] using hr'.imp_left Eq.symm
      · simp [hflag, hreader, Reader.queues]
      · rw [hreader]
        exact slot_ne hne
  | @queues kind r held kinds hreader =>
      refine h.congr (fun r' hr' => isAlive_of_kept hr' rfl rfl ?_ ?_) hkeeps rfl rfl rfl
        (fun _ => rfl) h.slots ?_
      · intro r' kind' hclosure
        simp only [List.mem_append, List.mem_singleton] at hclosure
        rcases hclosure with (hclosure | hclosure) | hclosure
        · exact isAlive_of_closure (Or.inl hclosure)
        · obtain ⟨rfl, -⟩ := Prod.mk.inj hclosure
          exact isAlive_of_holds (by simp [hreader, Reader.holds])
        · exact isAlive_of_closure (Or.inr hclosure)
      · intro r' hr'
        refine isAlive_of_holds ?_
        rw [hreader]
        exact (Bool.or_eq_true _ _).mpr (Or.inr hr')
      · intro r' kind'
        refine (h.scheduled r' kind').shift rfl (congrArg (· + _) ?_)
        simp only [hreader, Reader.queues, List.count_append, List.count_singleton, Bool.toNat_false,
          Nat.add_zero]
        congr 1
        by_cases heq : r = r' ∧ kind = kind'
        · obtain ⟨rfl, rfl⟩ := heq
          simp
        · have hne : ((r, kind) == (r', kind')) = false := by simpa using heq
          have hne' : (r == r' && kind == kind') = false := by simpa using heq
          rw [hne, hne']
          rfl
  | refuses hreader =>
      refine h.moves rfl rfl rfl rfl rfl rfl rfl rfl hkeeps ?_ (by simp [hreader, Reader.queues])
      exact fun r hr => isAlive_of_holds (by rw [hreader]; exact hr)
  | @clears kind r held kinds hreader =>
      have hle := (h.scheduled r kind).1
      refine h.setScheduled (fun r' hr' => isAlive_of_holds ?_) ?_ fun r' kind' hne => ?_
      · rw [hreader]
        exact (Bool.or_eq_true _ _).mpr (Or.inr hr')
      · have hbool : ((w.threads r).wakeScheduled kind).toNat ≤ 1 := Bool.toNat_le _
        simp only [hreader, Reader.queues, beq_self_eq_true, Bool.and_self, Bool.toNat_true,
          Bool.toNat_false] at hle ⊢
        omega
      · rw [hreader]
        exact (slot_ne hne).symm

/-! ## The end of a runtime -/

theorem isClosed_of_close {thread : Nat} {handle : ThreadHandle}
    (h : (w.close thread).isClosed handle = false) : w.isClosed handle = false := by
  rw [isClosed_eq_false_iff] at h ⊢
  refine Nat.le_trans ?_ h
  unfold World.close
  dsimp only
  by_cases heq : handle.thread = thread
  · subst heq
    rw [update_self]
    exact Nat.le_succ _
  · exact Nat.le_of_eq (update_of_ne heq ..).symm

theorem Registry.close (h : Registry w) (thread : Nat) : Registry (w.close thread) where
  alive := h.alive
  listed r hr hopen := h.listed r hr (isClosed_of_close hopen)
  slots := h.slots
  scheduled r kind :=
    ⟨(h.scheduled r kind).1, fun hopen => (h.scheduled r kind).2 (isClosed_of_close hopen)⟩

theorem Registry.dropClosure {closure : Closure} (h : Registry w)
    (hclosed : w.isClosed (w.threads closure.1).thread = true) :
    Registry (w.dropClosure closure) := by
  refine h.congr (fun r hr => isAlive_of_kept hr rfl rfl (fun r kind hmem => ?_)
    fun _ hholds => isAlive_of_holds hholds) (fun _ hr _ _ => hr) rfl rfl rfl (fun _ => rfl) h.slots
    fun r kind => ⟨?_, fun hopen => ?_⟩
  · exact isAlive_of_closure (hmem.imp_left List.mem_of_mem_erase)
  · refine Nat.le_trans (Nat.add_le_add_right ?_ _) (h.scheduled r kind).1
    exact List.Sublist.count_le _ List.erase_sublist
  · refine Eq.trans (congrArg (· + _) (List.count_erase_of_ne ?_)) ((h.scheduled r kind).2 hopen)
    rintro rfl
    exact Bool.false_ne_true (hopen.symm.trans hclosed)

theorem Registry.install (h : Registry w) (thread : Nat) : Registry (w.install thread) where
  alive := h.alive
  listed := h.listed
  slots := h.slots
  scheduled := h.scheduled

end World

end Runite.Signal
