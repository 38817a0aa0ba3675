/-
  Kaycc/BufferStorage.lean
  ========================
  **A `Buffer` reuses the space that is freed.**

  `makeSpace` grows the vector to `writerIndex_ + len` without moving the
  content, so what was consumed in front of it is kept; but it grows only when
  that part is smaller than `len + kCheapPrepend`.  Hence an append that grows
  the vector leaves it smaller than `kCheapPrepend` plus the unread bytes plus
  twice its length (`Append.need`), however often the buffer has been filled and
  emptied before.  No other operation touches the size, so over a whole run the
  largest append bounds it (`storage_bounded`).
-/
import Kaycc.BufferSequence

namespace Kaycc

open Transition Transition.System

namespace Buffer

variable {b b' : Buffer} {data : Bytes} {len : Nat}

/-- An append: what was unread before it, and its length. -/
structure Append where
  readable : Nat
  len : Nat
deriving DecidableEq, Repr

/-- The bytes it may need behind `kCheapPrepend`. -/
def Append.need (a : Append) : Nat := a.readable + 2 * a.len

/-! ### The size after each function -/

theorem retrieve_size (h : b.retrieve len = .ok b') : b'.buffer.length = b.buffer.length := by
  obtain ⟨_, _, h⟩ := bind_eq_ok.mp h
  split at h
  · obtain rfl := Except.ok.inj h
    rfl
  · obtain rfl := Except.ok.inj h
    rfl

theorem unwrite_size (h : b.unwrite len = .ok b') : b'.buffer.length = b.buffer.length := by
  simp only [unwrite] at h
  split at h
  · obtain rfl := Except.ok.inj h
    rfl
  · cases h

theorem prepend_size (h : b.prepend data = .ok b') : b'.buffer.length = b.buffer.length := by
  simp only [prepend] at h
  split at h
  · rename_i hpre
    obtain rfl := Except.ok.inj h
    have h₁ := b.reader_le_writer
    have h₂ := b.writer_le_size
    unfold prependableBytes at hpre
    exact length_overwrite (by omega)
  · cases h

/-- **`makeSpace` grows the vector only beyond a dead prefix shorter than the append.** -/
theorem makeSpace_size {hfull : b.writableBytes < len} (h : b.makeSpace len hfull = .ok b') :
    b'.buffer.length ≤ max b.buffer.length (kCheapPrepend + (b.readableBytes + 2 * len)) := by
  have h₁ := b.reader_le_writer
  have h₂ := b.writer_le_size
  simp only [makeSpace] at h
  split at h
  · rename_i hgrow
    obtain rfl := Except.ok.inj h
    simp only [List.length_append, List.length_replicate]
    unfold writableBytes prependableBytes at hgrow
    unfold readableBytes
    omega
  · split at h
    · obtain ⟨_, _, h⟩ := bind_eq_ok.mp h
      obtain rfl := Except.ok.inj h
      refine Nat.le_trans (Nat.le_of_eq ?_) (Nat.le_max_left _ _)
      apply length_overwrite
      rw [length_content]
      unfold readableBytes
      omega
    · cases h

theorem ensureWritableBytes_size (h : b.ensureWritableBytes len = .ok b') :
    b'.buffer.length ≤ max b.buffer.length (kCheapPrepend + (b.readableBytes + 2 * len)) := by
  simp only [ensureWritableBytes] at h
  split at h
  · obtain ⟨b₁, hb₁, h⟩ := bind_eq_ok.mp h
    obtain ⟨_, _, h⟩ := bind_eq_ok.mp h
    obtain rfl := Except.ok.inj h
    exact makeSpace_size hb₁
  · simp only [pure_eq_ok, ok_bind] at h
    obtain ⟨_, _, h⟩ := bind_eq_ok.mp h
    obtain rfl := Except.ok.inj h
    exact Nat.le_max_left _ _

/-- **An append needs at most the unread bytes and twice its own.** -/
theorem append_size (h : b.append data = .ok b') :
    b'.buffer.length ≤
      max b.buffer.length (kCheapPrepend + Append.need ⟨b.readableBytes, data.length⟩) := by
  obtain ⟨b₁, heq, hcont, hroom⟩ := b.ensureWritableBytes_ok data.length
  obtain ⟨b₂, hw, -, -, hsize⟩ := hasWritten_copyToWrite hroom
  simp only [append, heq, ok_bind, hw] at h
  obtain rfl := Except.ok.inj h
  rw [hsize]
  exact ensureWritableBytes_size heq

/-- The append inside `readFd`, if `readv` has filled the vector: what is unread then, and
    what is in `extrabuf`. -/
def overflow (b : Buffer) (data : Bytes) : List Append :=
  if data.length ≤ b.writableBytes then []
  else [⟨b.readableBytes + b.writableBytes, data.length - b.writableBytes⟩]

theorem readFd_size (h : b.readFd data = .ok b') :
    b'.buffer.length = b.buffer.length ∧ b.overflow data = [] ∨
      ∃ a, b.overflow data = [a] ∧
        b'.buffer.length ≤ max b.buffer.length (kCheapPrepend + a.need) := by
  by_cases hfits : data.length ≤ b.writableBytes
  · obtain ⟨b₁, hw, -, -, hsize⟩ := hasWritten_copyToWrite hfits
    rw [readFd, if_pos hfits, hw] at h
    obtain rfl := Except.ok.inj h
    exact .inl ⟨hsize, if_pos hfits⟩
  · have hlen : (data.take b.writableBytes).length = b.writableBytes := by
      rw [List.length_take]
      omega
    obtain ⟨full, hw, hcont, -, hsize⟩ := hasWritten_copyToWrite (Nat.le_of_eq hlen)
    have hreadable : full.readableBytes = b.readableBytes + b.writableBytes := by
      rw [← length_content, hcont, List.length_append, length_content, hlen]
    rw [hlen] at hw
    simp only [readFd, if_neg hfits, hw, ok_bind] at h
    have happ := append_size h
    rw [hreadable, hsize, List.length_drop] at happ
    exact .inr ⟨_, if_neg hfits, happ⟩

end Buffer

/-! ### Runs -/

/-- A buffer, and the appends that were made to it. -/
structure Storage where
  buffer : Buffer
  appends : List Buffer.Append

namespace Storage

variable {s t : Storage}

inductive Action where
  | append (data : Bytes)
  | retrieve (len : Nat)
  | unwrite (len : Nat)
  | prepend (data : Bytes)
  | readFd (data : Bytes)
deriving DecidableEq, Repr

def enabled (s : Storage) : Action → Prop
  | .append _ => True
  | .retrieve len => len ≤ s.buffer.readableBytes
  | .unwrite len => len ≤ s.buffer.readableBytes
  | .prepend data => data.length ≤ s.buffer.prependableBytes
  | .readFd data => data.length ≤ s.buffer.readCapacity

def step (s : Storage) : Action → Except Assertion Storage
  | .append data => do
      let buffer ← s.buffer.append data
      pure ⟨buffer, s.appends ++ [⟨s.buffer.readableBytes, data.length⟩]⟩
  | .retrieve len => do
      let buffer ← s.buffer.retrieve len
      pure { s with buffer := buffer }
  | .unwrite len => do
      let buffer ← s.buffer.unwrite len
      pure { s with buffer := buffer }
  | .prepend data => do
      let buffer ← s.buffer.prepend data
      pure { s with buffer := buffer }
  | .readFd data => do
      let buffer ← s.buffer.readFd data
      pure ⟨buffer, s.appends ++ s.buffer.overflow data⟩

/-- One default-constructed buffer. -/
def system : System Storage Action Assertion where
  init s := s = ⟨Buffer.empty, []⟩
  enabled := enabled
  step := step

instance (s : Storage) : (a : Action) → Decidable (system.enabled s a)
  | .append _ => .isTrue trivial
  | .retrieve _ => inferInstanceAs (Decidable (_ ≤ _))
  | .unwrite _ => inferInstanceAs (Decidable (_ ≤ _))
  | .prepend _ => inferInstanceAs (Decidable (_ ≤ _))
  | .readFd _ => inferInstanceAs (Decidable (_ ≤ _))

/-- The maximum over all appends so far. -/
def maxNeed (appends : List Buffer.Append) : Nat := (appends.map Buffer.Append.need).foldr max 0

theorem maxNeed_append_single (appends : List Buffer.Append) (a : Buffer.Append) :
    maxNeed (appends ++ [a]) = max (maxNeed appends) a.need := by
  induction appends with
  | nil => exact Nat.max_comm _ _
  | cons c appends ih =>
    simp only [maxNeed, List.cons_append, List.map_cons, List.foldr_cons] at ih ⊢
    rw [ih, Nat.max_assoc]

theorem maxNeed_le {appends : List Buffer.Append} {bound : Nat}
    (h : ∀ a ∈ appends, a.need ≤ bound) : maxNeed appends ≤ bound := by
  induction appends with
  | nil => exact Nat.zero_le _
  | cons a appends ih =>
    simp only [maxNeed, List.map_cons, List.foldr_cons]
    exact Nat.max_le.mpr ⟨h a List.mem_cons_self, ih fun c hc => h c (List.mem_cons_of_mem _ hc)⟩

/-- The initial size, or what the largest append has needed. -/
def Bounded (s : Storage) : Prop :=
  s.buffer.buffer.length ≤ max (Buffer.kCheapPrepend + Buffer.kInitialSize)
    (Buffer.kCheapPrepend + maxNeed s.appends)

/-- A step that leaves the size alone. -/
theorem Bounded.of_same (hb : Bounded s) (hsize : t.buffer.buffer.length = s.buffer.buffer.length)
    (happ : t.appends = s.appends) : Bounded t := by
  unfold Bounded
  rw [hsize, happ]
  exact hb

/-- A step that appends. -/
theorem Bounded.of_append (hb : Bounded s) {a : Buffer.Append}
    (hsize : t.buffer.buffer.length ≤
      max s.buffer.buffer.length (Buffer.kCheapPrepend + a.need))
    (happ : t.appends = s.appends ++ [a]) : Bounded t := by
  unfold Bounded at hb ⊢
  rw [happ, maxNeed_append_single]
  omega

theorem Bounded.step (hb : Bounded s) {a : Action} (h : s.step a = .ok t) : Bounded t := by
  cases a with
  | append data =>
    obtain ⟨buffer, heq, ht⟩ := bind_eq_ok.mp h
    obtain rfl := Except.ok.inj ht
    exact hb.of_append (Buffer.append_size heq) rfl
  | retrieve len =>
    obtain ⟨buffer, heq, ht⟩ := bind_eq_ok.mp h
    obtain rfl := Except.ok.inj ht
    exact hb.of_same (Buffer.retrieve_size heq) rfl
  | unwrite len =>
    obtain ⟨buffer, heq, ht⟩ := bind_eq_ok.mp h
    obtain rfl := Except.ok.inj ht
    exact hb.of_same (Buffer.unwrite_size heq) rfl
  | prepend data =>
    obtain ⟨buffer, heq, ht⟩ := bind_eq_ok.mp h
    obtain rfl := Except.ok.inj ht
    exact hb.of_same (Buffer.prepend_size heq) rfl
  | readFd data =>
    obtain ⟨buffer, heq, ht⟩ := bind_eq_ok.mp h
    obtain rfl := Except.ok.inj ht
    rcases Buffer.readFd_size heq with ⟨hsize, hno⟩ | ⟨a, hone, hsize⟩
    · exact hb.of_same hsize (by rw [hno, List.append_nil])
    · exact hb.of_append hsize (by rw [hone])

theorem reachable_bounded (h : system.Reachable s) : Bounded s := by
  refine h.invariant (fun s hinit => ?_) fun s a t hb hst => hb.step hst.2
  obtain rfl : s = ⟨Buffer.empty, []⟩ := hinit
  refine Nat.le_trans (Nat.le_of_eq ?_) (Nat.le_max_left _ _)
  exact List.length_replicate

/-- **The storage is never larger than the initial size and what the largest append needs**;
    so over a run of any length it is bounded by bounds of the unread content and of the
    messages. -/
theorem storage_bounded (h : system.Reachable s) :
    s.buffer.buffer.length ≤ max (Buffer.kCheapPrepend + Buffer.kInitialSize)
        (Buffer.kCheapPrepend + maxNeed s.appends) ∧
      (∀ unread message, (∀ a ∈ s.appends, a.readable ≤ unread ∧ a.len ≤ message) →
        s.buffer.buffer.length ≤ max (Buffer.kCheapPrepend + Buffer.kInitialSize)
          (Buffer.kCheapPrepend + (unread + 2 * message))) ∧
      ∀ a, system.enabled s a → ∃ t, s.step a = .ok t := by
  have hb := reachable_bounded h
  refine ⟨hb, ?_, ?_⟩
  · intro unread message hall
    have hneed : maxNeed s.appends ≤ unread + 2 * message := by
      refine maxNeed_le fun a ha => ?_
      obtain ⟨hreadable, hlen⟩ := hall a ha
      unfold Buffer.Append.need
      omega
    unfold Bounded at hb
    omega
  · intro a hen
    cases a with
    | append data =>
      obtain ⟨b, heq, _⟩ := s.buffer.append_ok data
      exact ⟨_, by simp only [Storage.step, heq, ok_bind, pure_eq_ok]; rfl⟩
    | retrieve len =>
      obtain ⟨b, heq, _⟩ := Buffer.retrieve_ok hen
      exact ⟨_, by simp only [Storage.step, heq, ok_bind, pure_eq_ok]; rfl⟩
    | unwrite len =>
      obtain ⟨b, heq, _⟩ := Buffer.unwrite_ok hen
      exact ⟨_, by simp only [Storage.step, heq, ok_bind, pure_eq_ok]; rfl⟩
    | prepend data =>
      obtain ⟨b, heq, _⟩ := Buffer.prepend_ok hen
      exact ⟨_, by simp only [Storage.step, heq, ok_bind, pure_eq_ok]; rfl⟩
    | readFd data =>
      obtain ⟨b, heq, _⟩ := s.buffer.readFd_ok data
      exact ⟨_, by simp only [Storage.step, heq, ok_bind, pure_eq_ok]; rfl⟩

set_option maxRecDepth 20000 in
/-- A buffer that grows while most of it is consumed: the dead prefix stays. -/
theorem storage_bounded_dead_prefix :
    ∃ s, system.Reachable s ∧ s.appends = [⟨0, 1030⟩, ⟨10, 1100⟩] ∧
      s.buffer.buffer.length = 2138 ∧
      s.buffer.buffer.length ≤ max (Buffer.kCheapPrepend + Buffer.kInitialSize)
        (Buffer.kCheapPrepend + maxNeed s.appends) := by
  obtain ⟨s, hexec, happ, hsize⟩ : ∃ s, system.exec ⟨Buffer.empty, []⟩
      [.append (List.replicate 1030 0), .retrieve 1020, .append (List.replicate 1100 0)] =
        some s ∧ s.appends = [⟨0, 1030⟩, ⟨10, 1100⟩] ∧ s.buffer.buffer.length = 2138 :=
    ⟨_, rfl, rfl, rfl⟩
  have hreach := reachable_of_exec _ rfl hexec
  exact ⟨s, hreach, happ, hsize, (storage_bounded hreach).1⟩

end Storage

end Kaycc
