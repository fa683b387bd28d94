import Runite.Io.BufReaderStream
import Runite.Io.Lines

/-!
# Lines, read one by one

What `read_line` of a `BufReader` returns when it is called again and again, and
that these are the lines that `Lines` yields.
-/

namespace Runite.Io

open Polling Terminator

namespace BufReader

variable {b : BufReader Script}

/-- The bytes that were not returned yet. -/
def remaining (b : BufReader Script) : List UInt8 := b.buffered ++ b.inner.coming

/-- How much there is to read and to return. -/
def size (b : BufReader Script) : Nat := b.buffered.length + b.inner.size

/-- The script is plain, and the line that was begun is compact and has no end. -/
structure Plain (b : BufReader Script) : Prop where
  inner : b.inner.Plain
  linePos : b.linePos = 0
  line : newline ∉ b.lineBuf

structure Done (b : BufReader Script) : Prop where
  inner : b.inner.answers = []
  linePos : b.linePos = 0
  lineBuf : b.lineBuf = []
  rest : b.rest = []

theorem buffered_of_linePos {ρ : Type} {b : BufReader ρ} (h : b.linePos = 0) :
    b.buffered = b.lineBuf ++ b.rest := by
  rw [buffered, lineRest, h, List.drop_zero]

/-! ## One turn of the loop -/

theorem refill_of_rest {ρ : Type} {R : AsyncRead ρ} {b : BufReader ρ} (h : b.rest ≠ []) :
    b.refill R = (b, .ready (.ok ())) := by
  have hlength := b.length_rest
  have hpos : 0 < b.rest.length := List.length_pos_iff.mpr h
  unfold refill
  rw [if_neg (by omega)]

theorem refill_of_rest_nil (h : b.inner.Plain) (hrest : b.rest = []) :
    (b.inner.answers = [] ∧ b.refill Script.reader = (b.fill b.inner [], .ready (.ok ()))) ∨
      (∃ inner : Script, b.refill Script.reader = (b.setInner inner, .pending) ∧ inner.Plain ∧
        inner.coming = b.inner.coming ∧ inner.size < b.inner.size) ∨
      ∃ (inner : Script) (bytes : List UInt8),
        b.refill Script.reader = (b.fill inner bytes, .ready (.ok ())) ∧ inner.Plain ∧
        bytes ≠ [] ∧ b.inner.coming = bytes ++ inner.coming ∧
        inner.size + bytes.length ≤ b.inner.size := by
  have hempty : b.pos = b.filled := by
    have := b.length_rest
    have := b.pos_le
    simp only [hrest, List.length_nil] at *
    omega
  have hanswered : Script.Answered b.inner (Script.reader.pollRead b.inner b.buf.length) :=
    Script.answered_pollRead h b.buf_pos
  unfold refill
  rw [if_pos hempty]
  generalize Script.reader.pollRead b.inner b.buf.length = answer at hanswered ⊢
  cases hanswered with
  | ended hended => exact Or.inl ⟨hended, rfl⟩
  | waits hplain hcoming hlt => exact Or.inr (Or.inl ⟨_, rfl, hplain, hcoming, hlt⟩)
  | gives hplain hbytes hcoming hle => exact Or.inr (Or.inr ⟨_, _, rfl, hplain, hbytes, hcoming, hle⟩)

/-- The line takes the buffer up to its newline, if there is one. -/
theorem scan_of_newline {ρ : Type} {b : BufReader ρ} {index : Nat}
    (h : b.rest.findIdx? (· == newline) = some index) :
    b.foundNewline = true ∧
      b.extendLine.lineBuf = b.lineBuf ++ (b.rest.take index ++ [newline]) ∧
      b.extendLine.rest = b.rest.drop (index + 1) := by
  have htake : b.take = index + 1 := by rw [take, h]
  obtain ⟨hlt, heq, -⟩ := List.findIdx?_eq_some_iff_getElem.mp h
  have hline : b.rest.take (index + 1) = b.rest.take index ++ [newline] := by
    rw [List.take_add_one, List.getElem?_eq_getElem hlt, eq_of_beq heq]
    rfl
  refine ⟨?_, ?_, ?_⟩
  · rw [foundNewline, htake, hline, List.getLast?_concat]
    rfl
  · show b.lineBuf ++ b.rest.take b.take = _
    rw [htake, hline]
  · show (b.buf.take b.filled).drop (min b.filled (b.pos + b.take)) = _
    rw [drop_rest, htake]

/-- Without a newline the line takes the whole buffer. -/
theorem scan_of_none {ρ : Type} {b : BufReader ρ}
    (h : b.rest.findIdx? (· == newline) = none) :
    b.foundNewline = false ∧ b.extendLine.lineBuf = b.lineBuf ++ b.rest ∧
      b.extendLine.rest = [] := by
  have htake : b.take = b.rest.length := by rw [take, h]
  refine ⟨?_, ?_, ?_⟩
  · rw [foundNewline, htake, List.take_length, decide_eq_false_iff_not]
    intro hlast
    exact notMem_of_findIdx? h (List.mem_of_getLast? hlast)
  · show b.lineBuf ++ b.rest.take b.take = _
    rw [htake, List.take_length]
  · show (b.buf.take b.filled).drop (min b.filled (b.pos + b.take)) = _
    rw [drop_rest, htake, List.drop_length]

/-! ## What a poll returns -/

/-- The ways through a poll of `read_line`. -/
inductive Lined (b : BufReader Script) :
    BufReader Script × Poll (Except LineError String) → Prop
  | waits {b' : BufReader Script} : b'.Plain → b'.remaining = b.remaining → b'.size < b.size →
      Lined b (b', .pending)
  | returns {b' : BufReader Script} {piece : List UInt8} : b'.Plain →
      pieces newline b.remaining = piece :: pieces newline b'.remaining → b'.size < b.size →
      Lined b (b', .ready (stringFromLine piece))
  | ends {b' : BufReader Script} : b.remaining = [] → b'.Done →
      Lined b (b', .ready (stringFromLine []))

/-- Reading on changes nothing of what there is to return. -/
theorem Lined.of_read {t : BufReader Script}
    {r : BufReader Script × Poll (Except LineError String)} (h : Lined t r)
    (hremaining : t.remaining = b.remaining) (hsize : t.size ≤ b.size) : Lined b r := by
  cases h with
  | waits hplain hkept hlt => exact .waits hplain (hkept.trans hremaining) (by omega)
  | returns hplain hpieces hlt => exact .returns hplain (by rwa [← hremaining]) (by omega)
  | ends hnil hdone => exact .ends (by rwa [← hremaining]) hdone

theorem size_eq (h : b.linePos = 0) :
    b.size = b.lineBuf.length + b.rest.length + b.inner.size := by
  rw [size, buffered_of_linePos h, List.length_append]

theorem Lined.of_newline {index : Nat} (h : b.Plain)
    (hfind : b.rest.findIdx? (· == newline) = some index) : Lined b b.extendLine.endLine := by
  obtain ⟨-, hline, hrest⟩ := scan_of_newline hfind
  obtain ⟨hsplit, hbefore⟩ := eq_append_cons_of_findIdx? hfind
  have hplain : b.extendLine.takeLine.Plain := ⟨h.inner, rfl, List.not_mem_nil⟩
  have hremaining : b.remaining = (b.lineBuf ++ b.rest.take index) ++
      newline :: b.extendLine.takeLine.remaining := by
    have hnext : b.extendLine.takeLine.remaining = b.rest.drop (index + 1) ++ b.inner.coming := by
      rw [remaining, buffered_of_linePos rfl]
      show [] ++ b.extendLine.rest ++ _ = _
      rw [hrest]
      rfl
    rw [hnext, remaining, buffered_of_linePos h.linePos]
    conv_lhs => rw [hsplit]
    simp
  have hlength := congrArg List.length hsplit
  simp only [List.length_append, List.length_cons] at hlength
  rw [endLine, hline, ← List.append_assoc]
  refine .returns hplain ?_ ?_
  · rw [hremaining, pieces_append_cons]
    rw [List.mem_append, not_or]
    exact ⟨h.line, hbefore⟩
  · rw [size_eq h.linePos, size_eq hplain.linePos]
    show 0 + b.extendLine.rest.length + b.inner.size < _
    rw [hrest]
    omega

/-- The script has ended, and what there is of a line is the last one. -/
theorem Lined.of_ended (h : b.Plain) (hrest : b.rest = []) (hended : b.inner.answers = []) :
    Lined b b.endLine := by
  have hplain : b.takeLine.Plain := ⟨h.inner, rfl, List.not_mem_nil⟩
  have hcoming : b.inner.coming = [] := by rw [Script.coming, hended, List.flatMap_nil]
  have hremaining : b.remaining = b.lineBuf := by
    rw [remaining, buffered_of_linePos h.linePos, hrest, hcoming, List.append_nil, List.append_nil]
  have hnext : b.takeLine.buffered = [] := by
    rw [buffered_of_linePos rfl]
    exact hrest
  rw [endLine]
  by_cases hline : b.lineBuf = []
  · rw [hline]
    exact .ends (hremaining.trans hline) ⟨hended, rfl, rfl, hrest⟩
  · refine .returns hplain ?_ ?_
    · have hnil : b.takeLine.remaining = [] := by
        rw [remaining, hnext]
        exact hcoming
      rw [hremaining, hnil, pieces_nil, pieces_of_notMem h.line hline]
    · have hpos : 0 < b.lineBuf.length := List.length_pos_iff.mpr hline
      rw [size_eq h.linePos, size, hnext]
      show 0 + b.inner.size < _
      omega

/-- A poll returns, in one of these ways, when it may go round once for each
answer of the script, and once more for what is in the buffer. -/
theorem exists_lined {fuel : Nat} (h : b.Plain)
    (hfuel : b.inner.size + (if b.rest = [] then 0 else 1) < fuel) :
    ∃ r, readLineLoop Script.reader fuel b = some r ∧ Lined b r := by
  induction fuel generalizing b with
  | zero => omega
  | succ fuel ih =>
      -- what follows a refill that has left something in the buffer
      have hscan : ∀ t : BufReader Script, t.Plain → t.rest ≠ [] → t.inner.size < fuel →
          ∃ r, (if t.rest = [] then some t.endLine
            else if t.foundNewline then some t.extendLine.endLine
            else readLineLoop Script.reader fuel t.extendLine) = some r ∧ Lined t r := by
        intro t ht hrest hsize
        rw [if_neg hrest]
        cases hfind : t.rest.findIdx? (· == newline) with
        | some index =>
            rw [if_pos (scan_of_newline hfind).1]
            exact ⟨_, rfl, .of_newline ht hfind⟩
        | none =>
            obtain ⟨hfound, hline, hrest'⟩ := scan_of_none hfind
            have hplain : t.extendLine.Plain := by
              refine ⟨ht.inner, ht.linePos, ?_⟩
              rw [hline, List.mem_append, not_or]
              exact ⟨ht.line, notMem_of_findIdx? hfind⟩
            obtain ⟨r, hr, hlined⟩ := ih hplain (by rw [if_pos hrest']; exact hsize)
            have hbuffered := buffered_extendLine ht.linePos
            refine ⟨r, by rw [hfound]; exact hr, hlined.of_read ?_ ?_⟩
            · rw [remaining, hbuffered]
              rfl
            · rw [size, hbuffered]
              exact Nat.le_refl _
      unfold readLineLoop
      by_cases hrest : b.rest = []
      · rw [if_pos hrest] at hfuel
        obtain ⟨hended, hpoll⟩ | ⟨inner, hpoll, hplain, hcoming, hlt⟩ |
          ⟨inner, bytes, hpoll, hplain, hbytes, hcoming, hle⟩ := refill_of_rest_nil h.inner hrest
        · simp only [hpoll]
          have hlined : Lined (b.fill b.inner []) (b.fill b.inner []).endLine :=
            .of_ended ⟨h.inner, h.linePos, h.line⟩ (rest_fill ..) hended
          have hbuffered : (b.fill b.inner []).buffered = b.buffered := by
            rw [buffered, buffered, rest_fill, hrest]
            rfl
          refine ⟨_, if_pos (rest_fill ..), hlined.of_read ?_ ?_⟩
          · rw [remaining, hbuffered]
            rfl
          · rw [size, hbuffered]
            exact Nat.le_refl _
        · simp only [hpoll]
          refine ⟨_, rfl, .waits ⟨hplain, h.linePos, h.line⟩ ?_ ?_⟩
          · show b.buffered ++ inner.coming = b.buffered ++ b.inner.coming
            rw [hcoming]
          · show b.buffered.length + inner.size < b.buffered.length + b.inner.size
            omega
        · simp only [hpoll]
          have hpos : 0 < bytes.length := List.length_pos_iff.mpr hbytes
          have hbuffered : (b.fill inner bytes).buffered = b.buffered ++ bytes := by
            rw [buffered, buffered, rest_fill, hrest, List.append_nil]
            rfl
          obtain ⟨r, hr, hlined⟩ := hscan (b.fill inner bytes) ⟨hplain, h.linePos, h.line⟩
            (by rwa [rest_fill]) (show inner.size < fuel by omega)
          refine ⟨r, hr, hlined.of_read ?_ ?_⟩
          · rw [remaining, hbuffered, remaining, hcoming, ← List.append_assoc]
            rfl
          · rw [size, hbuffered, size, List.length_append]
            show _ + inner.size ≤ _
            omega
      · rw [if_neg hrest] at hfuel
        simp only [refill_of_rest hrest]
        exact hscan b h hrest (by omega)

/-- A poll, as one of a computation that is polled again and again. -/
def poll (fuel : Nat) (b : BufReader Script) :
    Option (BufReader Script × Option (Except LineError String)) :=
  (b.readLine Script.reader fuel).map fun (b, poll) => (b, toOption poll)

/-- The reader owes its script's bytes as lines with their newlines. -/
def Owes (fuel : Nat) (b : BufReader Script) (lines : List (Except LineError String)) : Prop :=
  b.Plain ∧ b.size + 1 < fuel ∧ lines = (pieces newline b.remaining).map stringFromLine

theorem compactLineBuffer_of_linePos {ρ : Type} {b : BufReader ρ} (h : b.linePos = 0) :
    b.compactLineBuffer = b := by
  rw [compactLineBuffer, if_neg (by omega)]

/-- With nothing left, every poll returns an empty line. -/
theorem Done.exists_ready (h : b.Done) {fuel : Nat} (hfuel : 0 < fuel) :
    ∃ b' : BufReader Script,
      readLineLoop Script.reader fuel b = some (b', .ready (stringFromLine [])) ∧ b'.Done := by
  have hplain : b.Plain := by
    refine ⟨?_, h.linePos, by simp [h.lineBuf]⟩
    rw [Script.Plain, h.inner]
    nofun
  have hsize : b.inner.size = 0 := by rw [Script.size, h.inner]; rfl
  have hbuffered : b.buffered = [] := by rw [buffered_of_linePos h.linePos, h.lineBuf, h.rest]; rfl
  obtain ⟨r, hr, hlined⟩ := exists_lined hplain (by rw [if_pos h.rest, hsize]; exact hfuel)
  cases hlined with
  | waits _ _ hlt => simp [size, hbuffered, hsize] at hlt
  | returns _ _ hlt => simp [size, hbuffered, hsize] at hlt
  | ends _ hdone => exact ⟨_, hr, hdone⟩

theorem pays (fuel : Nat) :
    Pays (poll (fuel + 1)) (Owes (fuel + 1)) size Done (stringFromLine []) where
  owes := by
    rintro b _ ⟨hplain, hfuel, rfl⟩
    have hloop : b.inner.size + (if b.rest = [] then 0 else 1) < fuel + 1 := by
      have : b.inner.size ≤ b.size := Nat.le_add_left ..
      split <;> omega
    obtain ⟨r, hr, hlined⟩ := exists_lined hplain hloop
    rw [← compactLineBuffer_of_linePos hplain.linePos] at hr
    cases hlined with
    | waits hplain' hkept hlt =>
        refine ⟨_, none, by rw [poll, readLine, hr]; rfl, Or.inl ⟨rfl, ⟨hplain', by omega, ?_⟩, hlt⟩⟩
        rw [hkept]
    | returns hplain' hpieces hlt =>
        refine ⟨_, some _, by rw [poll, readLine, hr]; rfl, Or.inr (Or.inl ?_)⟩
        exact ⟨_, _, rfl, by rw [hpieces, List.map_cons], ⟨hplain', by omega, rfl⟩, hlt⟩
    | ends hnil hdone =>
        refine ⟨_, some _, by rw [poll, readLine, hr]; rfl, Or.inr (Or.inr ?_)⟩
        exact ⟨rfl, by rw [hnil, pieces_nil, List.map_nil], hdone⟩
  done := by
    intro b hdone
    obtain ⟨b', hready, hdone'⟩ := hdone.exists_ready (show 0 < fuel + 1 by omega)
    rw [← compactLineBuffer_of_linePos hdone.linePos] at hready
    exact ⟨b', by rw [poll, readLine, hready]; rfl, hdone'⟩

end BufReader

/-! ## The two readings -/

theorem fromUtf8_toUTF8 (line : String) : fromUtf8 line.toUTF8.data.toList = some line := by
  have hbytes : (⟨line.toUTF8.data.toList.toArray⟩ : ByteArray) = line.toByteArray := by
    rw [Array.toArray_toList, String.toUTF8_eq_toByteArray]
  rw [fromUtf8, hbytes, String.fromUTF8?, dif_pos line.isValidUTF8]
  rfl

theorem fromUtf8_append_newline {bytes : List UInt8} {line : String}
    (h : fromUtf8 bytes = some line) : fromUtf8 (bytes ++ [newline]) = some (line ++ "\n") := by
  have hbytes : (line ++ "\n").toUTF8.data.toList = bytes ++ [newline] := by
    rw [← toUTF8_of_fromUtf8 h]
    simp only [String.toUTF8_eq_toByteArray, String.toByteArray_append, ByteArray.data_append,
      Array.toList_append]
    rfl
  rw [← hbytes, fromUtf8_toUTF8]

/-- Lines, and the same lines with their newlines, which the last one may lack. -/
inductive SameLines : List LineItem → List String → Prop
  | nil : SameLines [] []
  | last (line : String) : SameLines [.ok line] [line]
  | cons (line : String) {items : List LineItem} {texts : List String} :
      SameLines items texts → SameLines (.ok line :: items) ((line ++ "\n") :: texts)

/-- The lines with and without their newlines, when they are UTF-8. -/
theorem exists_sameLines {bytes : List UInt8}
    (hutf8 : ∀ record ∈ records newline bytes, (fromUtf8 record).isSome) :
    ∃ texts : List String, (pieces newline bytes).map stringFromLine = texts.map .ok ∧
      SameLines ((records newline bytes).map stringFromLine) texts := by
  have hclosed := closed_records_pieces newline bytes
  generalize records newline bytes = records at hclosed hutf8 ⊢
  generalize pieces newline bytes = pieces at hclosed ⊢
  induction hclosed with
  | nil => exact ⟨[], rfl, .nil⟩
  | last record =>
      obtain ⟨line, hline⟩ := Option.isSome_iff_exists.mp (hutf8 record List.mem_cons_self)
      have hitem : stringFromLine record = .ok line := by rw [stringFromLine, hline]
      refine ⟨[line], by simp [hitem], ?_⟩
      simpa [hitem] using .last line
  | @cons record records pieces _ ih =>
      obtain ⟨texts, hpieces, htexts⟩ := ih fun r hr => hutf8 r (List.mem_cons_of_mem _ hr)
      obtain ⟨line, hline⟩ := Option.isSome_iff_exists.mp (hutf8 record List.mem_cons_self)
      have hitem : stringFromLine record = .ok line := by rw [stringFromLine, hline]
      refine ⟨(line ++ "\n") :: texts, ?_, ?_⟩
      · rw [List.map_cons, List.map_cons, hpieces, stringFromLine, fromUtf8_append_newline hline]
      · rw [List.map_cons, hitem]
        exact .cons line htexts

/-- Two scripts that deliver the same bytes, in whatever chunks and with whatever
waits.  `Lines` over the one yields the lines of the bytes and then `None` for
ever; and `read_line` over the other, with a buffer of any capacity, returns the
same lines with their newlines, and then empty ones, when all are UTF-8. -/
theorem lines_readLine {script script' : Script} {bytes : List UInt8} (hplain : script.Plain)
    (hplain' : script'.Plain) (hbytes : script.coming = bytes) (hbytes' : script'.coming = bytes)
    (capacity : Nat) {fuel : Nat} (hfuel : script.size < fuel) (hfuel' : script'.size < fuel) :
    (∃ count, ∀ more,
      collect (Lines.poll (fuel + 1)) (count + more) { reader := script } =
        some ((records newline bytes).map (fun record => some (stringFromLine record)) ++
          List.replicate more none)) ∧
      ((∀ record ∈ records newline bytes, (fromUtf8 record).isSome) →
        ∃ count texts,
          (∀ more, collect (BufReader.poll (fuel + 1)) (count + more)
              (BufReader.withCapacity capacity script') =
            some (texts.map .ok ++ List.replicate more (.ok ""))) ∧
          SameLines ((records newline bytes).map stringFromLine) texts) := by
  subst hbytes
  constructor
  · refine (Lines.pays fuel).exists_collect ⟨⟨hplain, nofun⟩, ?_, rfl⟩
    simp only [Lines.size, List.length_nil]
    omega
  · intro hutf8
    obtain ⟨texts, hpieces, hsame⟩ := exists_sameLines hutf8
    have hremaining : (BufReader.withCapacity capacity script').remaining = script.coming := by
      rw [← hbytes']
      simp [BufReader.remaining, BufReader.buffered, BufReader.lineRest, BufReader.rest,
        BufReader.withCapacity]
    have hsize : (BufReader.withCapacity capacity script').size = script'.size := by
      simp [BufReader.size, BufReader.buffered, BufReader.lineRest, BufReader.rest,
        BufReader.withCapacity]
    have howes : BufReader.Owes (fuel + 1) (BufReader.withCapacity capacity script') (texts.map .ok) :=
      ⟨⟨hplain', rfl, List.not_mem_nil⟩, by omega, by rw [hremaining, hpieces]⟩
    obtain ⟨count, hcount⟩ := (BufReader.pays fuel).exists_collect howes
    exact ⟨count, texts, hcount, hsame⟩

/-- Two bytes of one character, a newline and a byte, with the character cut. -/
def cutCharacter : Script :=
  { answers := [.ready (.ok [195]), .pending, .ready (.ok [169, 10, 98])] }

/-- The same bytes, with the newline cut off. -/
def cutNewline : Script :=
  { answers := [.pending, .ready (.ok [195, 169]), .ready (.ok [10]), .ready (.ok [98])] }

/-- Both readings of the two scripts. -/
theorem lines_readLine_cut :
    (∃ count, ∀ more, collect (Lines.poll 10) (count + more) { reader := cutCharacter } =
        some ([[195, 169], [98]].map (fun record => some (stringFromLine record)) ++
          List.replicate more none)) ∧
      ((∀ record ∈ records newline cutCharacter.coming, (fromUtf8 record).isSome) →
        ∃ count texts,
          (∀ more, collect (BufReader.poll 10) (count + more)
              (BufReader.withCapacity 2 cutNewline) =
            some (texts.map .ok ++ List.replicate more (.ok ""))) ∧
          SameLines ((records newline cutCharacter.coming).map stringFromLine) texts) :=
  have hcharacter : cutCharacter.Plain := by simp [Script.Plain, cutCharacter]
  have hnewline : cutNewline.Plain := by simp [Script.Plain, cutNewline]
  lines_readLine hcharacter hnewline rfl rfl 2 (by decide) (by decide)

end Runite.Io
