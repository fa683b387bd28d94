import Runite.Io.Traits
import Runite.Lib.Polling
import Runite.Lib.Terminator

/-!
# Streams of lines

`Lines` of `io::ext`, and what it yields when it is polled again and again.
-/

namespace Runite.Io

open Polling Terminator

/-- `READ_TO_END_CHUNK`, the length of the chunk. -/
def readToEndChunk : Nat := 8192

structure Lines (ρ : Type) where
  reader : ρ
  buf : List UInt8 := []
  eof : Bool := false

abbrev LineItem := Except LineError String

namespace Lines

/-- The `loop` of `poll_next`; `none` when `fuel` runs out. -/
def pollNext {ρ : Type} (R : AsyncRead ρ) : Nat → Lines ρ →
    Option (Lines ρ × Poll (Option LineItem))
  | 0, _ => none
  | fuel + 1, l =>
      match l.buf.findIdx? (· == newline) with
      | some index =>
          some ({ l with buf := l.buf.drop (index + 1) },
            .ready (some (stringFromLine (l.buf.take index))))
      | none =>
          if l.eof then
            if l.buf = [] then some (l, .ready none)
            else some ({ l with buf := [] }, .ready (some (stringFromLine l.buf)))
          else
            match R.pollRead l.reader readToEndChunk with
            | (reader, .ready (.ok bytes)) =>
                if bytes = [] then pollNext R fuel { l with reader, eof := true }
                else pollNext R fuel { l with reader, buf := l.buf ++ bytes }
            | (reader, .ready (.error error)) =>
                some ({ l with reader }, .ready (some (.error (.io error))))
            | (reader, .pending) => some ({ l with reader }, .pending)

end Lines

namespace Lines

/-! ## What a poll yields -/

/-- The bytes that were not yielded yet. -/
def remaining (l : Lines Script) : List UInt8 := l.buf ++ l.reader.coming

/-- How much there is to read and to yield. -/
def size (l : Lines Script) : Nat := l.buf.length + l.reader.size

/-- The script is plain, and it has ended when the stream says so. -/
structure Plain (l : Lines Script) : Prop where
  reader : l.reader.Plain
  ended : l.eof = true → l.reader.answers = []

structure Done (l : Lines Script) : Prop where
  eof : l.eof = true
  buf : l.buf = []

inductive Polled (l : Lines Script) : Lines Script × Poll (Option LineItem) → Prop
  | waits {l' : Lines Script} : l'.Plain → l'.remaining = l.remaining → l'.size < l.size →
      Polled l (l', .pending)
  | yields {l' : Lines Script} {record : List UInt8} : l'.Plain →
      records newline l.remaining = record :: records newline l'.remaining → l'.size < l.size →
      Polled l (l', .ready (some (stringFromLine record)))
  | ends {l' : Lines Script} : l.remaining = [] → l'.Done → Polled l (l', .ready none)

/-- Reading on changes nothing of what there is to yield. -/
theorem Polled.of_read {l t : Lines Script} {r : Lines Script × Poll (Option LineItem)}
    (h : Polled t r) (hremaining : t.remaining = l.remaining) (hsize : t.size ≤ l.size) :
    Polled l r := by
  cases h with
  | waits hplain hkept hlt => exact .waits hplain (hkept.trans hremaining) (by omega)
  | yields hplain hrecords hlt => exact .yields hplain (by rwa [← hremaining]) (by omega)
  | ends hnil hdone => exact .ends (by rwa [← hremaining]) hdone

/-- A poll returns, in one of these ways, when it may go round once for each
answer of the script. -/
theorem exists_polled {fuel : Nat} {l : Lines Script} (h : l.Plain)
    (hfuel : (if l.eof then 0 else l.reader.size + 1) < fuel) :
    ∃ r, pollNext Script.reader fuel l = some r ∧ Polled l r := by
  induction fuel generalizing l with
  | zero => omega
  | succ fuel ih =>
      unfold pollNext
      cases hfind : l.buf.findIdx? (· == newline) with
      | some index =>
          obtain ⟨hsplit, hbefore⟩ := eq_append_cons_of_findIdx? hfind
          have hlength := congrArg List.length hsplit
          simp only [List.length_append, List.length_cons] at hlength
          refine ⟨_, rfl, .yields ⟨h.reader, h.ended⟩ ?_ ?_⟩
          · have hremaining : l.remaining =
                l.buf.take index ++ newline :: (l.buf.drop (index + 1) ++ l.reader.coming) := by
              rw [← List.cons_append, ← List.append_assoc, ← hsplit]
              rfl
            rw [hremaining, records_append_cons hbefore]
            rfl
          · simp only [size]
            omega
      | none =>
          have hnone := notMem_of_findIdx? hfind
          by_cases heof : l.eof = true
          · have hcoming : l.reader.coming = [] := by simp [Script.coming, h.ended heof]
            simp only [heof, ↓reduceIte]
            split
            next hbuf => exact ⟨_, rfl, .ends (by simp [remaining, hbuf, hcoming]) ⟨heof, hbuf⟩⟩
            next hbuf =>
              refine ⟨_, rfl, .yields ⟨h.reader, fun _ => h.ended heof⟩ ?_ ?_⟩
              · simp [remaining, hcoming, records_of_notMem hnone hbuf]
              · have hpos : 0 < l.buf.length := List.length_pos_iff.mpr hbuf
                simp only [size, List.length_nil]
                omega
          · simp only [heof, Bool.false_eq_true, ↓reduceIte] at hfuel ⊢
            have hanswered : Script.Answered l.reader
                (Script.reader.pollRead l.reader readToEndChunk) :=
              Script.answered_pollRead h.reader (by decide)
            generalize Script.reader.pollRead l.reader readToEndChunk = answer at hanswered ⊢
            cases hanswered with
            | ended hended =>
                obtain ⟨r, hr, hpolled⟩ := ih (l := { l with eof := true })
                  ⟨h.reader, fun _ => hended⟩ (by simp; omega)
                exact ⟨r, hr, hpolled.of_read rfl (Nat.le_refl _)⟩
            | waits hplain hcoming hlt =>
                refine ⟨_, rfl, .waits ⟨hplain, by simp⟩ ?_ ?_⟩
                · simp [remaining, hcoming]
                · simp only [size]
                  omega
            | @gives reader bytes hplain hbytes hcoming hle =>
                have hpos : 0 < bytes.length := List.length_pos_iff.mpr hbytes
                obtain ⟨r, hr, hpolled⟩ := ih (l := { reader, buf := l.buf ++ bytes })
                  ⟨hplain, by simp⟩ (by simp; omega)
                refine ⟨r, by simpa [hbytes] using hr, hpolled.of_read ?_ ?_⟩
                · simp [remaining, hcoming]
                · simp only [size, List.length_append]
                  omega

/-- A poll, as one of a computation that is polled again and again. -/
def poll (fuel : Nat) (l : Lines Script) : Option (Lines Script × Option (Option LineItem)) :=
  (pollNext Script.reader fuel l).map fun (l, poll) => (l, toOption poll)

/-- The stream owes its reader's bytes as lines. -/
def Owes (fuel : Nat) (l : Lines Script) (items : List (Option LineItem)) : Prop :=
  l.Plain ∧ l.size + 1 < fuel ∧
    items = (records newline l.remaining).map fun record => some (stringFromLine record)

theorem pays (fuel : Nat) :
    Pays (poll (fuel + 1)) (Owes (fuel + 1)) size Done none where
  owes := by
    rintro l _ ⟨hplain, hfuel, rfl⟩
    have hloop : (if l.eof then 0 else l.reader.size + 1) < fuel + 1 := by
      have : l.reader.size ≤ l.size := Nat.le_add_left ..
      split <;> omega
    obtain ⟨r, hr, hpolled⟩ := exists_polled hplain hloop
    cases hpolled with
    | waits hplain' hkept hlt =>
        refine ⟨_, none, by rw [poll, hr]; rfl, Or.inl ⟨rfl, ⟨hplain', by omega, ?_⟩, hlt⟩⟩
        rw [hkept]
    | yields hplain' hrecords hlt =>
        refine ⟨_, some (some _), by rw [poll, hr]; rfl, Or.inr (Or.inl ?_)⟩
        exact ⟨_, _, rfl, by rw [hrecords, List.map_cons], ⟨hplain', by omega, rfl⟩, hlt⟩
    | ends hnil hdone =>
        refine ⟨_, some none, by rw [poll, hr]; rfl, Or.inr (Or.inr ?_)⟩
        exact ⟨rfl, by rw [hnil, records_nil, List.map_nil], hdone⟩
  done := by
    intro l hdone
    refine ⟨l, ?_, hdone⟩
    simp [poll, pollNext, hdone.buf, hdone.eof, toOption]

end Lines

end Runite.Io
