/-
  Kaycc/Buffer.lean
  =================
  **`net/buffer.h`: the application buffer and its two indices.**

  The bytes before `readerIndex_` are prependable, those between the indices are
  the content, those after `writerIndex_` are writable.  The order of the indices
  and the size are part of the value, so an index outside the vector cannot
  occur; the asserts of the code are kept and can fail.  `content` is what the
  operations are about: `retrieve` drops from its front, `append` and `readFd`
  add to its end.
-/
import Kaycc.Assertion
import Mathlib.Data.List.Basic

namespace Kaycc

abbrev Bytes := List UInt8

structure Buffer where
  buffer : Bytes
  readerIndex : Nat
  writerIndex : Nat
  reader_le_writer : readerIndex ≤ writerIndex
  writer_le_size : writerIndex ≤ buffer.length
  cheapPrepend_le_size : 8 ≤ buffer.length          -- kCheapPrepend
deriving DecidableEq

namespace Buffer

variable {b b' : Buffer} {data : Bytes} {len : Nat}

def kCheapPrepend : Nat := 8

def kInitialSize : Nat := 1024

def readableBytes (b : Buffer) : Nat := b.writerIndex - b.readerIndex

def writableBytes (b : Buffer) : Nat := b.buffer.length - b.writerIndex

def prependableBytes (b : Buffer) : Nat := b.readerIndex

/-- The vector that `Buffer(initialSize)` allocates, before its asserts. -/
def allocate (initialSize : Nat) : Buffer where
  buffer := List.replicate (kCheapPrepend + initialSize) 0
  readerIndex := kCheapPrepend
  writerIndex := kCheapPrepend
  reader_le_writer := Nat.le_refl _
  writer_le_size := by simp
  cheapPrepend_le_size := by simp [kCheapPrepend]

/-- `Buffer(initialSize)`. -/
def new (initialSize : Nat) : Except Assertion Buffer := do
  let b := allocate initialSize
  check (b.readableBytes = 0) .bufferInitialSize
  check (b.writableBytes = kInitialSize) .bufferInitialSize
  check (b.prependableBytes = kCheapPrepend) .bufferInitialSize
  pure b

/-- `Buffer()`. -/
def empty : Buffer := allocate kInitialSize

/-- The `readableBytes()` bytes from `peek()` on. -/
def content (b : Buffer) : Bytes :=
  (b.buffer.drop b.readerIndex).take b.readableBytes

/-! ### Taking out -/

def retrieveAll (b : Buffer) : Buffer where
  buffer := b.buffer
  readerIndex := kCheapPrepend
  writerIndex := kCheapPrepend
  reader_le_writer := Nat.le_refl _
  writer_le_size := b.cheapPrepend_le_size
  cheapPrepend_le_size := b.cheapPrepend_le_size

def retrieve (b : Buffer) (len : Nat) : Except Assertion Buffer := do
  check (len ≤ b.readableBytes) .bufferRetrieve
  if h : len < b.readableBytes then
    pure { b with
      readerIndex := b.readerIndex + len
      reader_le_writer := by
        unfold readableBytes at h
        omega }
  else pure b.retrieveAll

/-! ### Putting in -/

/-- `std::copy(d.begin(), d.end(), begin() + i)`. -/
def overwrite (buffer : Bytes) (i : Nat) (d : Bytes) : Bytes :=
  buffer.take i ++ d ++ buffer.drop (i + d.length)

theorem length_overwrite {buffer d : Bytes} {i : Nat} (h : i + d.length ≤ buffer.length) :
    (overwrite buffer i d).length = buffer.length := by
  simp only [overwrite, List.length_append, List.length_take, List.length_drop]
  omega

/-- The readable bytes copied to `begin() + kCheapPrepend`, with the indices after it. -/
def moveReadable (b : Buffer) (hmove : kCheapPrepend < b.readerIndex) : Buffer :=
  have hlen : (overwrite b.buffer kCheapPrepend b.content).length = b.buffer.length := by
    have h₁ := b.reader_le_writer
    have h₂ := b.writer_le_size
    apply length_overwrite
    simp only [content, List.length_take, List.length_drop, readableBytes]
    omega
  { buffer := overwrite b.buffer kCheapPrepend b.content
    readerIndex := kCheapPrepend
    writerIndex := kCheapPrepend + b.readableBytes
    reader_le_writer := Nat.le_add_right _ _
    writer_le_size := by
      have h₁ := b.reader_le_writer
      have h₂ := b.writer_le_size
      rw [hlen]
      simp only [readableBytes]
      omega
    cheapPrepend_le_size := by
      rw [hlen]
      exact b.cheapPrepend_le_size }

/-- `makeSpace`, which is called when `len` bytes are not writable. -/
def makeSpace (b : Buffer) (len : Nat) (_hfull : b.writableBytes < len) :
    Except Assertion Buffer :=
  if b.writableBytes + b.prependableBytes < len + kCheapPrepend then
    .ok { b with
      -- resize(writerIndex_ + len), which here only grows
      buffer := b.buffer ++ List.replicate (b.writerIndex + len - b.buffer.length) 0
      writer_le_size := by
        have := b.writer_le_size
        simp only [List.length_append, List.length_replicate]
        omega
      cheapPrepend_le_size := by
        have := b.cheapPrepend_le_size
        simp only [List.length_append, List.length_replicate]
        omega }
  else if hmove : kCheapPrepend < b.readerIndex then do
    let moved := b.moveReadable hmove
    check (b.readableBytes = moved.readableBytes) .bufferMakeSpaceReadable
    pure moved
  else .error .bufferMakeSpace

def ensureWritableBytes (b : Buffer) (len : Nat) : Except Assertion Buffer := do
  let b' ← if h : b.writableBytes < len then b.makeSpace len h else pure b
  check (len ≤ b'.writableBytes) .bufferEnsureWritable
  pure b'

/-- The bytes copied to `beginWrite()`. -/
def copyToWrite (b : Buffer) (data : Bytes) : Buffer :=
  have hlen : b.buffer.length ≤ (overwrite b.buffer b.writerIndex data).length := by
    have := b.writer_le_size
    simp only [overwrite, List.length_append, List.length_take, List.length_drop]
    omega
  { b with
    buffer := overwrite b.buffer b.writerIndex data
    writer_le_size := Nat.le_trans b.writer_le_size hlen
    cheapPrepend_le_size := Nat.le_trans b.cheapPrepend_le_size hlen }

def hasWritten (b : Buffer) (len : Nat) : Except Assertion Buffer :=
  if h : len ≤ b.writableBytes then
    .ok { b with
      writerIndex := b.writerIndex + len
      reader_le_writer := Nat.le_trans b.reader_le_writer (Nat.le_add_right _ _)
      writer_le_size := by
        have := b.writer_le_size
        unfold writableBytes at h
        omega }
  else .error .bufferHasWritten

def append (b : Buffer) (data : Bytes) : Except Assertion Buffer := do
  let b' ← b.ensureWritableBytes data.length
  (b'.copyToWrite data).hasWritten data.length

/-- `sizeof(extrabuf)`. -/
def extrabufSize : Nat := 65536

/-- What `readFd` offers to `readv`. -/
def readCapacity (b : Buffer) : Nat :=
  if b.writableBytes < extrabufSize then b.writableBytes + extrabufSize else b.writableBytes

/-- `readFd` when `readv` has returned `data.length` bytes, which fill the writable bytes
    first and then `extrabuf`. -/
def readFd (b : Buffer) (data : Bytes) : Except Assertion Buffer :=
  if data.length ≤ b.writableBytes then (b.copyToWrite data).hasWritten data.length
  else do
    let full ← (b.copyToWrite (data.take b.writableBytes)).hasWritten b.writableBytes
    full.append (data.drop b.writableBytes)

/-! ### The content -/

@[simp] theorem length_content (b : Buffer) : b.content.length = b.readableBytes := by
  have h₁ := b.reader_le_writer
  have h₂ := b.writer_le_size
  simp only [content, List.length_take, List.length_drop, readableBytes]
  omega

theorem content_eq_nil : b.content = [] ↔ b.readableBytes = 0 := by
  rw [← length_content, List.length_eq_zero_iff]

@[simp] theorem content_empty : empty.content = [] := content_eq_nil.mpr (Nat.sub_self _)

/-- The constructor's asserts hold of the default size. -/
theorem new_kInitialSize : new kInitialSize = .ok empty := by
  have hwritable : (allocate kInitialSize).writableBytes = kInitialSize := by
    simp [writableBytes, allocate]
  have hreadable : (allocate kInitialSize).readableBytes = 0 := Nat.sub_self _
  have hprepend : (allocate kInitialSize).prependableBytes = kCheapPrepend := rfl
  simp only [new, check_eq_ok hreadable, check_eq_ok hwritable, check_eq_ok hprepend, ok_bind,
    pure_eq_ok, empty]

@[simp] theorem content_retrieveAll (b : Buffer) : b.retrieveAll.content = [] :=
  content_eq_nil.mpr (Nat.sub_self _)

/-- **`retrieve` within its assertion drops from the front.** -/
theorem retrieve_ok (h : len ≤ b.readableBytes) :
    ∃ b', b.retrieve len = .ok b' ∧ b'.content = b.content.drop len := by
  by_cases hlt : len < b.readableBytes
  · refine ⟨_, by simp only [retrieve, check_eq_ok h, ok_bind, dif_pos hlt, pure_eq_ok]; rfl, ?_⟩
    have hsub : b.writerIndex - (b.readerIndex + len) = b.readableBytes - len := by
      simp only [readableBytes]
      omega
    simp only [content, readableBytes, List.drop_take, List.drop_drop]
    rw [hsub]
    rfl
  · refine ⟨_, by simp only [retrieve, check_eq_ok h, ok_bind, dif_neg hlt, pure_eq_ok]; rfl, ?_⟩
    rw [content_retrieveAll, List.drop_eq_nil_of_le]
    rw [length_content]
    omega

/-- What is in the vector between the indices after a copy that ends at the writer. -/
theorem content_overwrite (buffer d : Bytes) {r w : Nat} (hrw : r ≤ w)
    (hw : w ≤ buffer.length) :
    ((overwrite buffer w d).drop r).take (w + d.length - r) =
      (buffer.drop r).take (w - r) ++ d := by
  have hr : r ≤ (buffer.take w).length := by
    rw [List.length_take]
    omega
  have htake : (buffer.take w).drop r = (buffer.drop r).take (w - r) := List.drop_take
  have hlen : ((buffer.drop r).take (w - r)).length = w - r := by
    rw [List.length_take, List.length_drop]
    omega
  rw [overwrite, List.append_assoc, List.drop_append_of_le_length hr, htake, ← List.append_assoc]
  apply List.take_left'
  rw [List.length_append, hlen]
  omega

theorem hasWritten_copyToWrite (h : data.length ≤ b.writableBytes) :
    ∃ b', (b.copyToWrite data).hasWritten data.length = .ok b' ∧
      b'.content = b.content ++ data ∧ b'.writerIndex = b.writerIndex + data.length ∧
      b'.buffer.length = b.buffer.length := by
  have hroom : b.writerIndex + data.length ≤ b.buffer.length := by
    have := b.writer_le_size
    unfold writableBytes at h
    omega
  have hlen : (overwrite b.buffer b.writerIndex data).length = b.buffer.length :=
    length_overwrite hroom
  have hfits : data.length ≤ (b.copyToWrite data).writableBytes := by
    change data.length ≤ (overwrite b.buffer b.writerIndex data).length - b.writerIndex
    rw [hlen]
    exact h
  refine ⟨_, dif_pos hfits, ?_, rfl, hlen⟩
  exact content_overwrite _ _ b.reader_le_writer b.writer_le_size

/-- **`makeSpace` makes the bytes writable and keeps the content**; its assertions
    `kCheapPrepend < readerIndex_` and `readable == readableBytes()` hold. -/
theorem makeSpace_ok (hfull : b.writableBytes < len) :
    ∃ b', b.makeSpace len hfull = .ok b' ∧ b'.content = b.content ∧ len ≤ b'.writableBytes := by
  have h₁ := b.reader_le_writer
  have h₂ := b.writer_le_size
  by_cases hgrow : b.writableBytes + b.prependableBytes < len + kCheapPrepend
  · refine ⟨_, if_pos hgrow, ?_, ?_⟩
    · simp only [content, readableBytes]
      rw [List.drop_append_of_le_length (by omega), List.take_append_of_le_length]
      rw [List.length_drop]
      omega
    · unfold writableBytes at hfull ⊢
      simp only [List.length_append, List.length_replicate]
      omega
  · have hmove : kCheapPrepend < b.readerIndex := by
      unfold prependableBytes at hgrow
      omega
    have hlen : (overwrite b.buffer kCheapPrepend b.content).length = b.buffer.length := by
      apply length_overwrite
      rw [length_content]
      simp only [readableBytes]
      omega
    have hkept : b.readableBytes = (b.moveReadable hmove).readableBytes :=
      (Nat.add_sub_cancel_left _ _).symm
    refine ⟨b.moveReadable hmove, ?_, ?_, ?_⟩
    · simp only [makeSpace, if_neg hgrow, dif_pos hmove, check_eq_ok hkept, ok_bind, pure_eq_ok]
    · have h := content_overwrite b.buffer b.content (Nat.le_refl kCheapPrepend)
        b.cheapPrepend_le_size
      rw [length_content, Nat.sub_self, List.take_zero, List.nil_append] at h
      exact h
    · change len ≤ (overwrite b.buffer kCheapPrepend b.content).length -
        (kCheapPrepend + b.readableBytes)
      rw [hlen]
      unfold writableBytes prependableBytes readableBytes at *
      omega

theorem ensureWritableBytes_ok (b : Buffer) (len : Nat) :
    ∃ b', b.ensureWritableBytes len = .ok b' ∧ b'.content = b.content ∧
      len ≤ b'.writableBytes := by
  by_cases hfull : b.writableBytes < len
  · obtain ⟨b', heq, hcont, hroom⟩ := makeSpace_ok hfull
    refine ⟨b', ?_, hcont, hroom⟩
    simp only [ensureWritableBytes, dif_pos hfull, heq, ok_bind, check_eq_ok hroom, pure_eq_ok]
  · have hroom : len ≤ b.writableBytes := Nat.not_lt.mp hfull
    refine ⟨b, ?_, rfl, hroom⟩
    simp only [ensureWritableBytes, dif_neg hfull, pure_eq_ok, ok_bind, check_eq_ok hroom]

/-- **`append` never fails and adds to the end.** -/
theorem append_ok (b : Buffer) (data : Bytes) :
    ∃ b', b.append data = .ok b' ∧ b'.content = b.content ++ data := by
  obtain ⟨b₁, heq, hcont, hroom⟩ := b.ensureWritableBytes_ok data.length
  obtain ⟨b', hw, hcont', _⟩ := hasWritten_copyToWrite hroom
  refine ⟨b', ?_, hcont ▸ hcont'⟩
  simp only [append, heq, ok_bind, hw]

/-- **`readFd` never fails and adds what was read to the end.** -/
theorem readFd_ok (b : Buffer) (data : Bytes) :
    ∃ b', b.readFd data = .ok b' ∧ b'.content = b.content ++ data := by
  by_cases hfits : data.length ≤ b.writableBytes
  · obtain ⟨b', hw, hcont, _⟩ := hasWritten_copyToWrite hfits
    exact ⟨b', by rw [readFd, if_pos hfits, hw], hcont⟩
  · have hlen : (data.take b.writableBytes).length = b.writableBytes := by
      rw [List.length_take]
      omega
    obtain ⟨full, hw, hcont, _⟩ := hasWritten_copyToWrite (Nat.le_of_eq hlen)
    obtain ⟨b', happ, hcont'⟩ := full.append_ok (data.drop b.writableBytes)
    rw [hlen] at hw
    refine ⟨b', ?_, ?_⟩
    · simp only [readFd, if_neg hfits, hw, ok_bind, happ]
    · rw [hcont', hcont, List.append_assoc, List.take_append_drop]

end Buffer

end Kaycc
