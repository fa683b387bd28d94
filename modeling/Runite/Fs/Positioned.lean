import Runite.Linux.Transfer

/-!
# Positioned reads and writes

`read_exact_at` and `write_all_at` of a file: loops that ask for all that
remains, again and again, at the offset after what was transferred.  The bytes
themselves play no role, so a buffer is known by its length.
-/

namespace Runite.Fs

open Io Linux

def saturatingAdd (offset : UInt64) (count : Nat) : UInt64 :=
  UInt64.ofNat (min (offset.toNat + count) (2 ^ 64 - 1))

theorem toNat_saturatingAdd (offset : UInt64) (count : Nat) :
    (saturatingAdd offset count).toNat = min (offset.toNat + count) (2 ^ 64 - 1) := by
  unfold saturatingAdd
  rw [UInt64.toNat_ofNat']
  omega

theorem saturatingAdd_zero (offset : UInt64) : saturatingAdd offset 0 = offset := by
  apply UInt64.toNat_inj.mp
  rw [toNat_saturatingAdd]
  have := offset.toNat_lt
  omega

theorem saturatingAdd_add (offset : UInt64) (m n : Nat) :
    saturatingAdd (saturatingAdd offset m) n = saturatingAdd offset (m + n) := by
  apply UInt64.toNat_inj.mp
  simp only [toNat_saturatingAdd]
  omega

/-- What a loop has submitted, each entry with what remained then, and its
result, if it has one. -/
structure Run where
  requests : List (Nat × TransferSqe) := []
  result : Option (Except IoError Unit) := none

/-- The loop of `read_exact_at` and `write_all_at`: `request` makes the entry,
`finish` takes the completion, `zero` is the error of an empty transfer. -/
def positionedLoop (request : UInt64 → Nat → TransferSqe)
    (finish : Nat → KernelAnswer → Except IoError Nat) (zero : IoError) (offset : UInt64)
    (len : Nat) (answers : List KernelAnswer) : Run :=
  if len = 0 then { result := some (.ok ()) }
  else
    match answers with
    | [] => { requests := [(len, request offset len)] }
    | a :: answers =>
        match finish len a with
        | .error error =>
            { requests := [(len, request offset len)], result := some (.error error) }
        | .ok 0 => { requests := [(len, request offset len)], result := some (.error zero) }
        | .ok (count + 1) =>
            let rest := positionedLoop request finish zero (saturatingAdd offset (count + 1))
              (len - (count + 1)) answers
            { rest with requests := (len, request offset len) :: rest.requests }

/-- The error of a read at the end of the file. -/
def unexpectedEofError : IoError :=
  { kind := .unexpectedEof, message := "failed to fill whole buffer" }

def writeZeroError : IoError :=
  { kind := .writeZero, message := "failed to write whole buffer" }

def readExactAt (fd : Int) (offset : UInt64) (len : Nat) (answers : List KernelAnswer) : Run :=
  positionedLoop (fun offset len => readSqe fd (some offset) len) finishRead unexpectedEofError
    offset len answers

def writeAllAt (fd : Int) (offset : UInt64) (len : Nat) (answers : List KernelAnswer) : Run :=
  positionedLoop (fun offset len => writeSqe fd (some offset) len) finishWrite writeZeroError
    offset len answers

/-- Every answer is one that the kernel can give to its entry. -/
def Run.Admits (run : Run) (answers : List KernelAnswer) : Prop :=
  ∀ p ∈ run.requests.zip answers, Answers p.1.2 p.2

/-- Every entry asks for some of what remains, away from the cursor, and the
loop ends with `zero` only at the end of the file. -/
structure Run.Faithful (zero : IoError) (run : Run) (answers : List KernelAnswer) : Prop where
  asks : ∀ r ∈ run.requests, Asks r.1 r.2 ∧ r.2.off ≠ fileCursor
  ends : run.result = some (.error zero) →
    ∃ p ∈ run.requests.zip answers, p.2.res = 0 ∧ p.2.atEnd = true

/-- A loop is faithful whatever the kernel answers. -/
def AlwaysFaithful (zero : IoError) (loop : List KernelAnswer → Run) : Prop :=
  ∀ answers, (loop answers).Admits answers → (loop answers).Faithful zero answers

/-! ## The loop -/

/-- What the loop needs to know of its entries and of their completions. -/
structure Transfers (request : UInt64 → Nat → TransferSqe)
    (finish : Nat → KernelAnswer → Except IoError Nat) (zero : IoError) : Prop where
  len : ∀ offset len, (request offset len).len = UInt32.ofNat len
  off : ∀ offset len, (request offset len).off = offset
  res_of_ok : ∀ {len a count}, finish len a = .ok count → a.res = count
  ok_one : ∀ {len atEnd}, 0 < len → finish len ⟨1, atEnd⟩ = .ok 1
  ne_zero : ∀ len a, finish len a ≠ .error zero

theorem cqeToResult_ok {res : Int} {count : Nat} (h : cqeToResult res = .ok count) :
    res = count := by
  unfold cqeToResult at h
  split at h
  · cases h
  · cases h
    omega

/-- The error of a completion has a code, which those of the crate do not have. -/
theorem rawOsError_of_cqeToResult {res : Int} {error : IoError}
    (h : cqeToResult res = .error error) : error.rawOsError.isSome := by
  unfold cqeToResult at h
  split at h
  · cases h
    rfl
  · cases h

theorem transfers_read (fd : Int) :
    Transfers (fun offset len => readSqe fd (some offset) len) finishRead unexpectedEofError where
  len _ _ := rfl
  off _ _ := rfl
  res_of_ok := by
    intro len a count h
    unfold finishRead at h
    split at h
    · cases h
    next read hread =>
      split at h
      · cases h
      · cases h
        exact cqeToResult_ok hread
  ok_one := by
    intro len atEnd hlen
    have hfits : ¬ len < 1 := by omega
    simp [finishRead, cqeToResult, hfits]
  ne_zero := by
    intro len a h
    unfold finishRead at h
    split at h
    next error herror =>
      cases h
      cases rawOsError_of_cqeToResult herror
    next =>
      split at h <;> cases h

theorem transfers_write (fd : Int) :
    Transfers (fun offset len => writeSqe fd (some offset) len) finishWrite writeZeroError where
  len _ _ := rfl
  off _ _ := rfl
  res_of_ok := cqeToResult_ok
  ok_one _ := rfl
  ne_zero _ _ h := by cases rawOsError_of_cqeToResult h

section Loop

variable {request : UInt64 → Nat → TransferSqe}
  {finish : Nat → KernelAnswer → Except IoError Nat} {zero : IoError}

/-- Where the offset of an entry is short of the cursor. -/
theorem off_ne_fileCursor (h : Transfers request finish zero) {offset : UInt64} {len : Nat}
    (hoffset : offset.toNat < 2 ^ 64 - 1) : (request offset len).off ≠ fileCursor := by
  rw [h.off]
  rintro rfl
  exact absurd hoffset (by decide)

/-- A loop within the 32 bits of a length and short of the last offset asks for
what remains, at every step. -/
theorem faithful_of_lt (h : Transfers request finish zero) {offset : UInt64} {len : Nat}
    (hlen : len < 2 ^ 32) (hoffset : offset.toNat + len < 2 ^ 64) :
    AlwaysFaithful zero (positionedLoop request finish zero offset len) := by
  intro answers
  fun_induction positionedLoop request finish zero offset len answers with
  | case1 => exact fun _ => ⟨by simp, by simp⟩
  | case2 offset len hpos =>
      have hasks : Asks len (request offset len) := (asks_iff (h.len ..)).mpr (by omega)
      exact fun _ => ⟨by simpa using ⟨hasks, off_ne_fileCursor h (by omega)⟩, by simp⟩
  | case3 offset len hpos a answers error herror =>
      have hasks : Asks len (request offset len) := (asks_iff (h.len ..)).mpr (by omega)
      refine fun _ => ⟨by simpa using ⟨hasks, off_ne_fileCursor h (by omega)⟩, ?_⟩
      intro hzero
      obtain rfl : error = zero := by simpa using hzero
      exact absurd herror (h.ne_zero len a)
  | case4 offset len hpos a answers hcount =>
      have hasks : Asks len (request offset len) := (asks_iff (h.len ..)).mpr (by omega)
      refine fun hadmits => ⟨by simpa using ⟨hasks, off_ne_fileCursor h (by omega)⟩, fun _ => ?_⟩
      have hanswer : Answers (request offset len) a := hadmits ((len, _), a) (by simp)
      have hzero : a.res = 0 := h.res_of_ok hcount
      exact ⟨((len, request offset len), a), by simp, hzero, hasks.end_of_zero a hanswer hzero⟩
  | case5 offset len hpos a answers count hcount rest ih =>
      have hasks : Asks len (request offset len) := (asks_iff (h.len ..)).mpr (by omega)
      intro hadmits
      have hanswer : Answers (request offset len) a := hadmits ((len, _), a) (by simp)
      have hres : a.res = (count + 1 : Nat) := h.res_of_ok hcount
      have hle : count + 1 ≤ len := by
        have := hanswer.res_le
        have := hasks.le
        omega
      have hnext := toNat_saturatingAdd offset (count + 1)
      have hrest : rest.Faithful zero answers := by
        refine ih (by omega) (by omega) fun p hp => hadmits p ?_
        exact List.mem_cons_of_mem _ hp
      refine ⟨?_, fun hresult => ?_⟩
      · intro r hr
        rcases List.mem_cons.mp hr with rfl | hr
        · exact ⟨hasks, off_ne_fileCursor h (by omega)⟩
        · exact hrest.asks r hr
      · obtain ⟨p, hp, hend⟩ := hrest.ends hresult
        exact ⟨p, List.mem_cons_of_mem _ hp, hend⟩

/-- With one byte transferred at a time, the loop comes to the entry after
`count` bytes, unless an entry before asks for nothing. -/
theorem mem_requests_replicate (h : Transfers request finish zero) (offset : UInt64)
    {len count : Nat} (hcount : count < len) (hasks : ∀ i < count, (len - i) % 2 ^ 32 ≠ 0) :
    let run := positionedLoop request finish zero offset len (List.replicate count ⟨1, false⟩)
    (len - count, request (saturatingAdd offset count) (len - count)) ∈ run.requests ∧
      run.Admits (List.replicate count ⟨1, false⟩) := by
  induction count generalizing offset len with
  | zero =>
      unfold positionedLoop
      simp [saturatingAdd_zero, Run.Admits, Nat.ne_of_gt hcount]
  | succ count ih =>
      have hlast : count < len - 1 := by omega
      have hrest : ∀ i < count, (len - 1 - i) % 2 ^ 32 ≠ 0 := by
        intro i hi
        have := hasks (i + 1) (by omega)
        rwa [Nat.sub_sub, Nat.add_comm 1 i]
      obtain ⟨hmem, hadmits⟩ := ih (saturatingAdd offset 1) hlast hrest
      have hlen : len ≠ 0 := by omega
      have hfirst : Answers (request offset len) ⟨1, false⟩ := by
        have hmod := toNat_ofNat_len len
        have := hasks 0 (by omega)
        refine ⟨by decide, ?_, nofun⟩
        rw [h.len, hmod]
        show (1 : Int) ≤ _
        omega
      rw [List.replicate_succ, positionedLoop]
      simp only [hlen, ↓reduceIte, h.ok_one (by omega : 0 < len)]
      rw [saturatingAdd_add, Nat.sub_sub, Nat.add_comm 1 count] at hmem
      refine ⟨List.mem_cons_of_mem _ hmem, ?_⟩
      intro p hp
      rcases List.mem_cons.mp hp with rfl | hp
      · exact hfirst
      · exact hadmits p hp

/-- A loop is faithful exactly when it has nothing to do or stays within the 32
bits of a length and short of the last offset. -/
theorem alwaysFaithful_iff (h : Transfers request finish zero) (offset : UInt64) (len : Nat) :
    AlwaysFaithful zero (positionedLoop request finish zero offset len) ↔
      len = 0 ∨ len < 2 ^ 32 ∧ offset.toNat + len < 2 ^ 64 := by
  constructor
  · intro hfaithful
    by_contra hbound
    by_cases hlen : len < 2 ^ 32
    · -- the entry whose offset is the last one
      have hcount : 2 ^ 64 - 1 - offset.toNat < len := by omega
      obtain ⟨hmem, hadmits⟩ := mem_requests_replicate h offset hcount
        fun i hi => by omega
      refine (hfaithful _ hadmits |>.asks _ hmem).2 ?_
      rw [h.off]
      apply UInt64.toNat_inj.mp
      rw [toNat_saturatingAdd]
      have := offset.toNat_lt
      show _ = 2 ^ 64 - 1
      omega
    · -- the entry of which no low bit is left
      obtain ⟨hmem, hadmits⟩ := mem_requests_replicate h offset
        (show len % 2 ^ 32 < len by omega) fun i hi => by omega
      have hasks := (hfaithful _ hadmits |>.asks _ hmem).1
      rw [asks_iff (h.len ..)] at hasks
      omega
  · rintro (rfl | ⟨hlen, hoffset⟩)
    · intro answers _
      unfold positionedLoop
      exact ⟨by simp, by simp⟩
    · exact faithful_of_lt h hlen hoffset

end Loop

/-- The entries of reads, writes, sends and receives ask for between 1 and `len`
bytes, at the cursor exactly without an offset, if and only if the low 32 bits of
the length are not all zero and the offset is not `u64::MAX`; the loops of
`read_exact_at` and `write_all_at` keep this up, and take an empty transfer for
the end of the file rightly, if and only if the length fits in 32 bits and the
end of the range in 64. -/
theorem requests_faithful_iff (fd : Int) (flags : UInt32) (offset : Option UInt64)
    (position : UInt64) (len : Nat) :
    ((AsksAt offset len (readSqe fd offset len) ↔ len % 2 ^ 32 ≠ 0 ∧ offset ≠ some fileCursor) ∧
      (AsksAt offset len (writeSqe fd offset len) ↔
        len % 2 ^ 32 ≠ 0 ∧ offset ≠ some fileCursor)) ∧
      ((Asks len (sendSqe fd flags len) ↔ len % 2 ^ 32 ≠ 0) ∧
        (Asks len (recvSqe fd flags len) ↔ len % 2 ^ 32 ≠ 0)) ∧
      (AlwaysFaithful unexpectedEofError (readExactAt fd position len) ↔
        len = 0 ∨ len < 2 ^ 32 ∧ position.toNat + len < 2 ^ 64) ∧
      (AlwaysFaithful writeZeroError (writeAllAt fd position len) ↔
        len = 0 ∨ len < 2 ^ 32 ∧ position.toNat + len < 2 ^ 64) :=
  ⟨⟨asksAt_iff rfl rfl, asksAt_iff rfl rfl⟩, ⟨asks_iff rfl, asks_iff rfl⟩,
    alwaysFaithful_iff (transfers_read fd) position len,
    alwaysFaithful_iff (transfers_write fd) position len⟩

/-- A read at the last offset is one at the cursor, and a buffer of 4 GiB is
asked for nothing: the first read of a loop over it then ends the loop. -/
theorem not_requests_faithful :
    ¬ AsksAt (some 0xffffffffffffffff) 8 (readSqe 3 (some 0xffffffffffffffff) 8) ∧
      (readSqe 3 (some 0xffffffffffffffff) 8).off = fileCursor ∧
      (sendSqe 3 0 (2 ^ 32)).len = 0 ∧ (recvSqe 3 0 (2 ^ 32)).len = 0 ∧
      Answers (readSqe 3 (some 0) (2 ^ 32)) ⟨0, false⟩ ∧
      (readExactAt 3 0 (2 ^ 32) [⟨0, false⟩]).result = some (.error unexpectedEofError) := by
  refine ⟨fun h => ?_, rfl, by decide, by decide, ⟨by decide, by decide, ?_⟩, by decide +kernel⟩
  · cases h.cursor.mp rfl
  · intro _ hlen
    exact absurd hlen (by decide)

end Runite.Fs
