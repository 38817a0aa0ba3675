/-
  Kaycc/BufferReadFd.lean
  =======================
  **`readFd` with its two io vectors.**

  The function hands `readv` the writable bytes and, when those are fewer than
  `sizeof(extrabuf)`, a second vector on the stack; the kernel scatters the
  stream over the vectors, and what landed on the stack is appended afterwards.
  `scatter` is the kernel's part, for any list of vectors.  `readFd_appends` puts
  the halves together again: for every buffer and every answer of `readv` the
  content grows by the bytes read, in the order of the stream.
  `Buffer.readFd`, which a connection reads with, is this function with the
  vectors forgotten (`readFd_eq`).
-/
import Kaycc.Buffer
import Mathlib.Algebra.GroupWithZero.Nat

namespace Kaycc

namespace Readv

open Buffer

variable {b : Buffer} {data : Bytes}

/-- What an `iov_base` points to. -/
inductive Base where
  | beginWrite      -- begin() + writerIndex_
  | extrabuf        -- char extrabuf[65536]
deriving DecidableEq, Repr

structure Iovec where
  iovBase : Base
  iovLen : Nat
deriving DecidableEq, Repr

/-- The memory behind the vectors. -/
structure Memory where
  buffer : Buffer
  extrabuf : Bytes

/-! ### The kernel -/

def offered (iov : List Iovec) : Nat := (iov.map Iovec.iovLen).sum

/-- What `readv` on `iov` returned: `n`, the `errno` it left, and the stream it read from. -/
structure Answer (iov : List Iovec) where
  n : Int
  errno : Int
  stream : Bytes
  failed_or_fits : n = -1 ∨ 0 ≤ n ∧ n ≤ offered iov ∧ n ≤ stream.length

/-- The bytes it took from the stream. -/
def Answer.taken {iov : List Iovec} (answer : Answer iov) : Bytes :=
  answer.stream.take answer.n.toNat

/-- `data` is copied to `iov_base`. -/
def Memory.fill (m : Memory) (v : Iovec) (data : Bytes) : Memory :=
  match v.iovBase with
  | .beginWrite => { m with buffer := m.buffer.copyToWrite data }
  | .extrabuf => { m with extrabuf := overwrite m.extrabuf 0 data }

/-- The vectors are filled in order, each before the next. -/
def scatter : List Iovec → Bytes → Memory → Memory
  | [], _, m => m
  | v :: iov, data, m => scatter iov (data.drop v.iovLen) (m.fill v (data.take v.iovLen))

/-! ### The function -/

/-- `vec[0]` and `vec[1]`. -/
def vec (b : Buffer) : List Iovec :=
  [⟨.beginWrite, b.writableBytes⟩, ⟨.extrabuf, extrabufSize⟩]

def iovcnt (b : Buffer) : Nat := if b.writableBytes < extrabufSize then 2 else 1

/-- The array that `readv` is given. -/
def iovecs (b : Buffer) : List Iovec := (vec b).take (iovcnt b)

/-- What `readFd` returns, with `*savedErrno` and the buffer as it leaves them. -/
structure Outcome where
  n : Int
  savedErrno : Int
  buffer : Buffer

theorem reader_le_advanced (b : Buffer) (n : Nat) : b.readerIndex ≤ b.writerIndex + n :=
  Nat.le_trans b.reader_le_writer (Nat.le_add_right _ _)

theorem advanced_le_size (b : Buffer) (n : Nat) (h : n ≤ b.writableBytes) :
    b.writerIndex + n ≤ b.buffer.length := by
  have hsize := b.writer_le_size
  unfold writableBytes at h
  omega

/-- `writerIndex_ += n`, without an assert. -/
def advanceWriter (b : Buffer) (n : Nat) (h : n ≤ b.writableBytes) : Buffer :=
  { b with
    writerIndex := b.writerIndex + n
    reader_le_writer := reader_le_advanced b n
    writer_le_size := advanced_le_size b n h }

/-- `writerIndex_ = buffer_.size()`. -/
def fillWriter (b : Buffer) : Buffer :=
  { b with
    writerIndex := b.buffer.length
    reader_le_writer := Nat.le_trans b.reader_le_writer b.writer_le_size
    writer_le_size := Nat.le_refl _ }

/-- `readFd(fd, savedErrno)`, given what is on the stack and what `readv` answers. -/
def readFd (b : Buffer) (extrabuf : Vector UInt8 extrabufSize) (savedErrno : Int)
    (answer : Answer (iovecs b)) : Except Assertion Outcome :=
  let writable := b.writableBytes
  let n := answer.n
  if n < 0 then .ok { n, savedErrno := answer.errno, buffer := b }
  else
    let m := scatter (iovecs b) answer.taken ⟨b, extrabuf.toList⟩
    if n.toNat ≤ writable then
      if h : n.toNat ≤ m.buffer.writableBytes then
        .ok { n, savedErrno, buffer := advanceWriter m.buffer n.toNat h }
      else .error .readFdPastEnd
    else do
      check (n.toNat - writable ≤ m.extrabuf.length) .readFdPastEnd
      let buffer ← (fillWriter m.buffer).append (m.extrabuf.take (n.toNat - writable))
      pure { n, savedErrno, buffer }

/-! ### What the vectors offer -/

theorem iovecs_of_lt (h : b.writableBytes < extrabufSize) : iovecs b = vec b := by
  rw [iovecs, iovcnt, if_pos h]
  exact List.take_of_length_le (Nat.le_refl _)

theorem iovecs_of_not_lt (h : ¬ b.writableBytes < extrabufSize) :
    iovecs b = [⟨.beginWrite, b.writableBytes⟩] := by
  rw [iovecs, iovcnt, if_neg h]
  exact List.take_one

theorem offered_iovecs (b : Buffer) : offered (iovecs b) = b.readCapacity := by
  by_cases h : b.writableBytes < extrabufSize
  · rw [iovecs_of_lt h, readCapacity, if_pos h]
    simp [offered, vec]
  · rw [iovecs_of_not_lt h, readCapacity, if_neg h]
    simp [offered]

theorem readCapacity_le (b : Buffer) : b.readCapacity ≤ b.writableBytes + extrabufSize := by
  unfold readCapacity
  split <;> omega

/-- The comment of the source: when `extrabuf` is used, at most 128k - 1 bytes. -/
theorem readCapacity_lt (h : b.writableBytes < extrabufSize) :
    b.readCapacity ≤ 128 * 1024 - 1 := by
  rw [readCapacity, if_pos h]
  unfold extrabufSize at h ⊢
  omega

theorem Answer.n_le (answer : Answer (iovecs b)) : answer.n ≤ b.readCapacity := by
  rcases answer.failed_or_fits with h | ⟨_, h, _⟩
  · omega
  · rwa [offered_iovecs] at h

theorem Answer.length_taken (answer : Answer (iovecs b)) :
    answer.taken.length = answer.n.toNat := by
  rw [Answer.taken, List.length_take]
  rcases answer.failed_or_fits with h | ⟨_, _, h⟩ <;> omega

/-! ### Where the bytes land -/

theorem overwrite_zero (buffer d : Bytes) :
    (overwrite buffer 0 d).take d.length = d := by
  rw [overwrite, List.take_zero, List.nil_append, List.take_left]

/-- The writable bytes get the front of what was read, whatever the vectors are. -/
theorem scatter_buffer (b : Buffer) (data extrabuf : Bytes) :
    (scatter (iovecs b) data ⟨b, extrabuf⟩).buffer =
      b.copyToWrite (data.take b.writableBytes) := by
  by_cases h : b.writableBytes < extrabufSize
  · rw [iovecs_of_lt h]
    rfl
  · rw [iovecs_of_not_lt h]
    rfl

/-- With two vectors, `extrabuf` gets the rest. -/
theorem scatter_extrabuf (extrabuf : Bytes) (h : b.writableBytes < extrabufSize)
    (hfits : data.length ≤ b.writableBytes + extrabufSize) :
    (scatter (iovecs b) data ⟨b, extrabuf⟩).extrabuf =
      overwrite extrabuf 0 (data.drop b.writableBytes) := by
  have htake : (data.drop b.writableBytes).take extrabufSize = data.drop b.writableBytes := by
    apply List.take_of_length_le
    rw [List.length_drop]
    omega
  rw [iovecs_of_lt h]
  change overwrite extrabuf 0 ((data.drop b.writableBytes).take extrabufSize) = _
  rw [htake]

/-! ### The two branches -/

theorem hasWritten_eq {n : Nat} (h : n ≤ b.writableBytes) :
    b.hasWritten n = .ok (advanceWriter b n h) := dif_pos h

theorem length_copyToWrite (h : data.length ≤ b.writableBytes) :
    (b.copyToWrite data).buffer.length = b.buffer.length := by
  apply length_overwrite
  have := b.writer_le_size
  unfold writableBytes at h
  omega

theorem writableBytes_copyToWrite (h : data.length ≤ b.writableBytes) :
    (b.copyToWrite data).writableBytes = b.writableBytes := by
  change (b.copyToWrite data).buffer.length - b.writerIndex = _
  rw [length_copyToWrite h]
  rfl

/-- Advancing by all that is writable puts the writer at the end. -/
theorem hasWritten_writable (b : Buffer) : b.hasWritten b.writableBytes = .ok (fillWriter b) := by
  have hwriter : b.writerIndex + b.writableBytes = b.buffer.length := by
    have := b.writer_le_size
    unfold writableBytes
    omega
  rw [hasWritten_eq (Nat.le_refl _)]
  simp only [advanceWriter, fillWriter, hwriter]

/-- **The vectors forgotten**: a successful `readv` leaves the buffer that `Buffer.readFd`
    makes of the bytes taken. -/
theorem readFd_eq (b : Buffer) (extrabuf : Vector UInt8 extrabufSize) (savedErrno : Int)
    (answer : Answer (iovecs b)) (hn : 0 ≤ answer.n) :
    readFd b extrabuf savedErrno answer =
      (b.readFd answer.taken).map fun buffer => ⟨answer.n, savedErrno, buffer⟩ := by
  have hlen := answer.length_taken
  have hcap := answer.n_le
  rw [readFd, if_neg (Int.not_lt.mpr hn), Buffer.readFd, hlen]
  by_cases hfits : answer.n.toNat ≤ b.writableBytes
  · have hall : answer.taken.take b.writableBytes = answer.taken :=
      List.take_of_length_le (hlen ▸ hfits)
    have hroom : answer.n.toNat ≤ (b.copyToWrite answer.taken).writableBytes := by
      rw [writableBytes_copyToWrite (hlen ▸ hfits)]
      exact hfits
    simp only [if_pos hfits, scatter_buffer, hall, dif_pos hroom, hasWritten_eq hroom]
    rfl
  · have hfew : b.writableBytes < extrabufSize := by
      by_contra hmany
      rw [readCapacity, if_neg hmany] at hcap
      omega
    have hcap' : answer.taken.length ≤ b.writableBytes + extrabufSize := by
      rw [readCapacity, if_pos hfew] at hcap
      omega
    have hdrop : (answer.taken.drop b.writableBytes).length = answer.n.toNat - b.writableBytes := by
      rw [List.length_drop, hlen]
    have hstack : (overwrite extrabuf.toList 0 (answer.taken.drop b.writableBytes)).length =
        extrabufSize := by
      rw [length_overwrite, Vector.length_toList]
      rw [Vector.length_toList]
      omega
    have htake : (answer.taken.take b.writableBytes).length ≤ b.writableBytes :=
      List.length_take_le _ _
    have hfill : (b.copyToWrite (answer.taken.take b.writableBytes)).hasWritten b.writableBytes =
        .ok (fillWriter (b.copyToWrite (answer.taken.take b.writableBytes))) := by
      have h := hasWritten_writable (b.copyToWrite (answer.taken.take b.writableBytes))
      rwa [writableBytes_copyToWrite htake] at h
    have hin : answer.n.toNat - b.writableBytes ≤
        (overwrite extrabuf.toList 0 (answer.taken.drop b.writableBytes)).length := by
      rw [hstack]
      omega
    have hback : (overwrite extrabuf.toList 0 (answer.taken.drop b.writableBytes)).take
        (answer.n.toNat - b.writableBytes) = answer.taken.drop b.writableBytes := by
      rw [← hdrop]
      exact overwrite_zero _ _
    simp only [if_neg hfits, scatter_buffer, scatter_extrabuf _ hfew hcap', check_eq_ok hin, hback,
      hfill, ok_bind]
    cases (fillWriter (b.copyToWrite (answer.taken.take b.writableBytes))).append
      (answer.taken.drop b.writableBytes) <;> rfl

/-- What `readFd` owes its caller. -/
structure Appended (b : Buffer) (savedErrno : Int) (answer : Answer (iovecs b)) (out : Outcome) :
    Prop where
  returned : out.n = answer.n
  bound : out.n ≤ b.writableBytes + extrabufSize
  indexes : out.buffer.readerIndex ≤ out.buffer.writerIndex ∧
    out.buffer.writerIndex ≤ out.buffer.buffer.length
  read : 0 ≤ answer.n → out.savedErrno = savedErrno ∧
    out.buffer.content = b.content ++ answer.stream.take answer.n.toNat
  failed : answer.n < 0 → out.savedErrno = answer.errno ∧ out.buffer = b

/-- **`readFd` appends exactly what was read**, whatever the buffer, the rubbish on the stack
    and the answer of `readv`, and no access leaves its vector. -/
theorem readFd_appends (b : Buffer) (extrabuf : Vector UInt8 extrabufSize) (savedErrno : Int)
    (answer : Answer (iovecs b)) :
    ∃ out, readFd b extrabuf savedErrno answer = .ok out ∧ Appended b savedErrno answer out := by
  have hbound : answer.n ≤ b.writableBytes + extrabufSize := by
    have h₁ := answer.n_le
    have h₂ := readCapacity_le b
    omega
  by_cases hn : answer.n < 0
  · refine ⟨_, if_pos hn, rfl, hbound, ⟨b.reader_le_writer, b.writer_le_size⟩, ?_, ?_⟩
    · intro h
      omega
    · intro _
      exact ⟨rfl, rfl⟩
  · obtain ⟨b', hread, hcont⟩ := b.readFd_ok answer.taken
    refine ⟨⟨answer.n, savedErrno, b'⟩, ?_, rfl, hbound, ⟨b'.reader_le_writer, b'.writer_le_size⟩,
      ?_, ?_⟩
    · rw [readFd_eq b extrabuf savedErrno answer (Int.not_lt.mp hn), hread]
      rfl
    · intro _
      exact ⟨rfl, hcont⟩
    · intro h
      exact absurd h hn

end Readv

end Kaycc
