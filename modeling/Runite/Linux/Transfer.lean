import Runite.Io.Operation
import Runite.Linux.Uring

/-!
# The requests of reads, writes, sends and receives

What `sys::linux::fs` and `sys::linux::net` put into the entry of a transfer: a
length is cut to 32 bits, and the file cursor is the offset `u64::MAX`.
-/

namespace Runite.Linux

open Io

/-- `IoUringSqe`, as far as a transfer fills it. -/
structure TransferSqe where
  opcode : Opcode
  fd : Int
  off : UInt64 := 0
  len : UInt32
  opFlags : UInt32 := 0
  deriving DecidableEq, Repr

def fileCursor : UInt64 := 0xffffffffffffffff

/-- The entry of a transfer of `len` bytes; `as u32` keeps the low 32 bits. -/
def transferSqe (opcode : Opcode) (fd : Int) (len : Nat) : TransferSqe :=
  { opcode, fd, len := UInt32.ofNat len }

/-- The entry of `fs::read`.  The buffer is allocated with the capacity `len`. -/
def readSqe (fd : Int) (offset : Option UInt64) (len : Nat) : TransferSqe :=
  { transferSqe .read fd len with off := offset.getD fileCursor }

/-- The entry of `fs::write`. -/
def writeSqe (fd : Int) (offset : Option UInt64) (len : Nat) : TransferSqe :=
  { transferSqe .write fd len with off := offset.getD fileCursor }

/-- The entry of `net::send`, and of `submit_send_with_deadline`. -/
def sendSqe (fd : Int) (flags : UInt32) (len : Nat) : TransferSqe :=
  { transferSqe .send fd len with opFlags := flags }

/-- The entry of `net::recv` and of `net::recv_timeout`. -/
def recvSqe (fd : Int) (flags : UInt32) (len : Nat) : TransferSqe :=
  { transferSqe .recv fd len with opFlags := flags }

/-- The completion of a transfer, and whether the file was at its end. -/
structure KernelAnswer where
  res : Int
  atEnd : Bool
  deriving DecidableEq, Repr

/-- The kernel transfers at most what the entry asks for, and nothing only when
nothing was asked for or at the end of the file. -/
structure Answers (sqe : TransferSqe) (a : KernelAnswer) : Prop where
  /-- `res` is an `i32` -/
  res_lt : a.res < 2 ^ 31
  res_le : a.res ≤ sqe.len.toNat
  end_of_zero : a.res = 0 → 0 < sqe.len.toNat → a.atEnd = true

/-- `io::Error::from_raw_os_error`; the kind and the message follow from the code. -/
def fromRawOsError (code : Int) : IoError :=
  { kind := .other code.toNat, rawOsError := some code, message := "os error" }

def cqeToResult (res : Int) : Except IoError Nat :=
  if res < 0 then .error (fromRawOsError (-res)) else .ok res.toNat

/-- The error of a read that brings more than its buffer holds. -/
def exceededError : IoError :=
  { kind := .invalidData, message := "io_uring read exceeded the submitted buffer length" }

/-- The completion of a read into a buffer of this capacity. -/
def finishRead (capacity : Nat) (a : KernelAnswer) : Except IoError Nat :=
  match cqeToResult a.res with
  | .error error => .error error
  | .ok read => if capacity < read then .error exceededError else .ok read

def finishWrite (_len : Nat) (a : KernelAnswer) : Except IoError Nat := cqeToResult a.res

/-! ## What an entry asks for -/

/-- The entry asks for a transfer of between 1 and `len` bytes, and a transfer of
nothing means the end of the file. -/
structure Asks (len : Nat) (sqe : TransferSqe) : Prop where
  pos : 0 < sqe.len.toNat
  le : sqe.len.toNat ≤ len
  end_of_zero : ∀ a, Answers sqe a → a.res = 0 → a.atEnd = true

/-- The entry asks for a transfer, at the cursor exactly when there is no offset. -/
structure AsksAt (offset : Option UInt64) (len : Nat) (sqe : TransferSqe) : Prop where
  asks : Asks len sqe
  cursor : sqe.off = fileCursor ↔ offset = none

variable {sqe : TransferSqe} {len : Nat}

/-- The length of an entry is the low 32 bits of the length of the buffer. -/
theorem toNat_ofNat_len (len : Nat) : (UInt32.ofNat len).toNat = len % 2 ^ 32 :=
  UInt32.toNat_ofNat'

/-- An entry asks for bytes exactly when the low 32 bits of the length are not
all zero. -/
theorem asks_iff (hlen : sqe.len = UInt32.ofNat len) : Asks len sqe ↔ len % 2 ^ 32 ≠ 0 := by
  have hmod : sqe.len.toNat = len % 2 ^ 32 := by rw [hlen, toNat_ofNat_len]
  constructor
  · intro hasks
    have := hasks.pos
    omega
  · intro hne
    have hpos : 0 < sqe.len.toNat := by omega
    exact ⟨hpos, by omega, fun a ha hzero => ha.end_of_zero hzero hpos⟩

theorem getD_fileCursor (offset : Option UInt64) :
    (offset.getD fileCursor = fileCursor ↔ offset = none) ↔ offset ≠ some fileCursor := by
  cases offset with
  | none => simp
  | some offset => simp

/-- An entry with an offset asks for what it should exactly when the length is not
cut to nothing and the offset is not the one that stands for the cursor. -/
theorem asksAt_iff {offset : Option UInt64} (hlen : sqe.len = UInt32.ofNat len)
    (hoff : sqe.off = offset.getD fileCursor) :
    AsksAt offset len sqe ↔ len % 2 ^ 32 ≠ 0 ∧ offset ≠ some fileCursor := by
  rw [← asks_iff hlen, ← getD_fileCursor offset, ← hoff]
  exact ⟨fun h => ⟨h.asks, h.cursor⟩, fun h => ⟨h.1, h.2⟩⟩

end Runite.Linux
