/-
  Kaycc/BufferSequence.lean
  =========================
  **A `Buffer` is a sequence of bytes.**

  The rest of `net/buffer.h`, and what all of it is for: whatever is done to a
  family of buffers, each within the precondition it asserts, the bytes between
  the two indices of each buffer are those of a plain byte sequence to which the
  same has been done (`Contents`).  One lemma, `Op.apply_ok`, says this of one
  operation on one buffer; what else there is to know of an operation (how much
  it leaves writable, and that only `prepend` moves the reader below
  `kCheapPrepend`) is part of it.
-/
import Kaycc.Buffer
import Kaycc.Transition
import Mathlib.Data.List.Induction
import Mathlib.Logic.Function.Basic

namespace Kaycc

namespace Buffer

variable {b b' : Buffer} {data : Bytes} {len : Nat}

/-! ### The other operations -/

/-- `retrieveUnitl(begin() + last)`. -/
def retrieveUnitl (b : Buffer) (last : Nat) : Except Assertion Buffer := do
  check (b.readerIndex ≤ last) .bufferRetrieveUnitl
  check (last ≤ b.writerIndex) .bufferRetrieveUnitl
  b.retrieve (last - b.readerIndex)

/-- `retrieveAsString`: the string, and the buffer. -/
def retrieveAsString (b : Buffer) (len : Nat) : Except Assertion (Bytes × Buffer) := do
  check (len ≤ b.readableBytes) .bufferRetrieveAsString
  let result := (b.buffer.drop b.readerIndex).take len
  let b' ← b.retrieve len
  pure (result, b')

def retrieveAllAsString (b : Buffer) : Except Assertion (Bytes × Buffer) :=
  b.retrieveAsString b.readableBytes

def unwrite (b : Buffer) (len : Nat) : Except Assertion Buffer :=
  if h : len ≤ b.readableBytes then
    .ok { b with
      writerIndex := b.writerIndex - len
      reader_le_writer := by
        have := b.reader_le_writer
        unfold readableBytes at h
        omega
      writer_le_size := Nat.le_trans (Nat.sub_le _ _) b.writer_le_size }
  else .error .bufferUnwrite

def prepend (b : Buffer) (data : Bytes) : Except Assertion Buffer :=
  if h : data.length ≤ b.prependableBytes then
    have hlen : (overwrite b.buffer (b.readerIndex - data.length) data).length =
        b.buffer.length := by
      have h₁ := b.reader_le_writer
      have h₂ := b.writer_le_size
      unfold prependableBytes at h
      exact length_overwrite (by omega)
    .ok { b with
      buffer := overwrite b.buffer (b.readerIndex - data.length) data
      readerIndex := b.readerIndex - data.length
      reader_le_writer := Nat.le_trans (Nat.sub_le _ _) b.reader_le_writer
      writer_le_size := by
        rw [hlen]
        exact b.writer_le_size
      cheapPrepend_le_size := by
        rw [hlen]
        exact b.cheapPrepend_le_size }
  else .error .bufferPrepend

/-- `shrink`: the buffer it swaps itself with. -/
def shrink (b : Buffer) (reserve : Nat) : Except Assertion Buffer := do
  let other ← Buffer.new kInitialSize
  let other' ← other.ensureWritableBytes (b.readableBytes + reserve)
  other'.append b.content

/-! ### What they do to the content -/

theorem retrieveUnitl_eq (h : len ≤ b.readableBytes) :
    b.retrieveUnitl (b.readerIndex + len) = b.retrieve len := by
  have hlast : b.readerIndex + len ≤ b.writerIndex := by
    have := b.reader_le_writer
    unfold readableBytes at h
    omega
  simp only [retrieveUnitl, check_eq_ok (Nat.le_add_right b.readerIndex len), check_eq_ok hlast,
    ok_bind, Nat.add_sub_cancel_left]

theorem retrieveAsString_ok (h : len ≤ b.readableBytes) :
    ∃ b', b.retrieve len = .ok b' ∧ b.retrieveAsString len = .ok (b.content.take len, b') ∧
      b'.content = b.content.drop len := by
  rcases retrieve_ok h with ⟨b', heq, hcont⟩
  refine ⟨b', heq, ?_, hcont⟩
  have hresult : (b.buffer.drop b.readerIndex).take len = b.content.take len := by
    rw [content, List.take_take, Nat.min_eq_left h]
  simp only [retrieveAsString, check_eq_ok h, heq, ok_bind, hresult, pure_eq_ok]

theorem unwrite_ok (h : len ≤ b.readableBytes) :
    ∃ b', b.unwrite len = .ok b' ∧ b'.content = b.content.take (b.content.length - len) ∧
      b'.readerIndex = b.readerIndex := by
  refine ⟨_, dif_pos h, ?_, rfl⟩
  have hsub : b.writerIndex - len - b.readerIndex = b.readableBytes - len := by
    simp only [readableBytes]
    omega
  rw [length_content]
  simp only [content, List.take_take]
  rw [Nat.min_eq_left (Nat.sub_le _ _)]
  simp only [readableBytes] at hsub ⊢
  rw [hsub]

theorem prepend_ok (h : data.length ≤ b.prependableBytes) :
    ∃ b', b.prepend data = .ok b' ∧ b'.content = data ++ b.content := by
  refine ⟨_, dif_pos h, ?_⟩
  have h₁ := b.reader_le_writer
  have h₂ := b.writer_le_size
  have hpre : b.readerIndex - data.length + data.length = b.readerIndex := Nat.sub_add_cancel h
  have hdrop : (overwrite b.buffer (b.readerIndex - data.length) data).drop
      (b.readerIndex - data.length) = data ++ b.buffer.drop b.readerIndex := by
    rw [overwrite, hpre, List.append_assoc]
    apply List.drop_left'
    rw [List.length_take]
    omega
  have hsub : b.writerIndex - (b.readerIndex - data.length) = data.length + b.readableBytes := by
    simp only [readableBytes]
    omega
  simp only [content, readableBytes] at hsub ⊢
  rw [hdrop, hsub, List.take_length_add_append]

/-! ### Where the reader is -/

theorem retrieve_reader (h : b.retrieve len = .ok b') (hr : kCheapPrepend ≤ b.readerIndex) :
    kCheapPrepend ≤ b'.readerIndex := by
  simp only [retrieve] at h
  rcases bind_eq_ok.mp h with ⟨_, _, h⟩
  split at h
  · obtain rfl := Except.ok.inj h
    exact Nat.le_trans hr (Nat.le_add_right _ _)
  · obtain rfl := Except.ok.inj h
    exact Nat.le_refl _

theorem makeSpace_reader {hfull : b.writableBytes < len} (h : b.makeSpace len hfull = .ok b')
    (hr : kCheapPrepend ≤ b.readerIndex) : kCheapPrepend ≤ b'.readerIndex := by
  simp only [makeSpace] at h
  split at h
  · obtain rfl := Except.ok.inj h
    exact hr
  · split at h
    · obtain ⟨_, _, h⟩ := bind_eq_ok.mp h
      obtain rfl := Except.ok.inj h
      exact Nat.le_refl _
    · cases h

theorem ensureWritableBytes_reader (h : b.ensureWritableBytes len = .ok b')
    (hr : kCheapPrepend ≤ b.readerIndex) : kCheapPrepend ≤ b'.readerIndex := by
  simp only [ensureWritableBytes] at h
  split at h
  · rcases bind_eq_ok.mp h with ⟨b₁, hb₁, h⟩
    rcases bind_eq_ok.mp h with ⟨_, _, h⟩
    obtain rfl := Except.ok.inj h
    exact makeSpace_reader hb₁ hr
  · simp only [pure_eq_ok, ok_bind] at h
    rcases bind_eq_ok.mp h with ⟨_, _, h⟩
    obtain rfl := Except.ok.inj h
    exact hr

theorem hasWritten_reader (h : b.hasWritten len = .ok b') : b'.readerIndex = b.readerIndex := by
  simp only [hasWritten] at h
  split at h
  · obtain rfl := Except.ok.inj h
    rfl
  · cases h

theorem append_reader (h : b.append data = .ok b') (hr : kCheapPrepend ≤ b.readerIndex) :
    kCheapPrepend ≤ b'.readerIndex := by
  simp only [append] at h
  rcases bind_eq_ok.mp h with ⟨b₁, hb₁, h⟩
  have hsame : b'.readerIndex = (b₁.copyToWrite data).readerIndex := hasWritten_reader h
  rw [hsame]
  change kCheapPrepend ≤ b₁.readerIndex
  exact ensureWritableBytes_reader hb₁ hr

/-! ### `shrink` -/

/-- An `append` that fits leaves the other writable bytes. -/
theorem append_fits (h : data.length ≤ b.writableBytes) :
    ∃ b', b.append data = .ok b' ∧ b'.content = b.content ++ data ∧
      b'.writableBytes = b.writableBytes - data.length := by
  rcases hasWritten_copyToWrite h with ⟨b', heq, hcont, hwriter, hsize⟩
  refine ⟨b', ?_, hcont, ?_⟩
  · simp only [append, ensureWritableBytes, dif_neg (Nat.not_lt.mpr h), pure_eq_ok, ok_bind,
      check_eq_ok h, heq]
  · simp only [writableBytes, hwriter, hsize]
    omega

theorem shrink_ok (b : Buffer) (reserve : Nat) :
    ∃ b', b.shrink reserve = .ok b' ∧ b'.content = b.content ∧ reserve ≤ b'.writableBytes ∧
      kCheapPrepend ≤ b'.readerIndex := by
  obtain ⟨other, heq, hcont, hroom⟩ :=
    ensureWritableBytes_ok Buffer.empty (b.readableBytes + reserve)
  have hfits : b.content.length ≤ other.writableBytes := by
    rw [length_content]
    omega
  rcases append_fits hfits with ⟨b', happ, hcont', hroom'⟩
  refine ⟨b', ?_, ?_, ?_, ?_⟩
  · simp only [shrink, new_kInitialSize, ok_bind, heq, happ]
  · rw [hcont', hcont, content_empty, List.nil_append]
  · rw [hroom', length_content]
    omega
  · exact append_reader happ (ensureWritableBytes_reader heq (Nat.le_refl _))

/-! ### One operation on one buffer -/

inductive Op where
  | append (data : Bytes)
  | prepend (data : Bytes)
  | retrieve (len : Nat)
  | retrieveUnitl (len : Nat)                 -- of peek() + len
  | retrieveAll
  | retrieveAsString (len : Nat)
  | retrieveAllAsString
  | ensureWritableBytes (len : Nat)
  | hasWritten (data : Bytes) (len : Nat)     -- once data has been written at beginWrite()
  | unwrite (len : Nat)
  | shrink (reserve : Nat)
deriving DecidableEq

namespace Op

/-- What the operation asserts of its argument, and that what is written at
    `beginWrite()` stays within the vector. -/
def pre (b : Buffer) : Op → Prop
  | .prepend data => data.length ≤ b.prependableBytes
  | .retrieve len | .retrieveUnitl len | .retrieveAsString len | .unwrite len =>
      len ≤ b.readableBytes
  | .hasWritten data len => len ≤ data.length ∧ data.length ≤ b.writableBytes
  | _ => True

/-- The string that is returned, if any, and the buffer. -/
def apply (b : Buffer) : Op → Except Assertion (List Bytes × Buffer)
  | .append data => do
      let b' ← b.append data
      pure ([], b')
  | .prepend data => do
      let b' ← b.prepend data
      pure ([], b')
  | .retrieve len => do
      let b' ← b.retrieve len
      pure ([], b')
  | .retrieveUnitl len => do
      let b' ← b.retrieveUnitl (b.readerIndex + len)
      pure ([], b')
  | .retrieveAll => pure ([], b.retrieveAll)
  | .retrieveAsString len => do
      let r ← b.retrieveAsString len
      pure ([r.1], r.2)
  | .retrieveAllAsString => do
      let r ← b.retrieveAllAsString
      pure ([r.1], r.2)
  | .ensureWritableBytes len => do
      let b' ← b.ensureWritableBytes len
      pure ([], b')
  | .hasWritten data len => do
      let b' ← (b.copyToWrite data).hasWritten len
      pure ([], b')
  | .unwrite len => do
      let b' ← b.unwrite len
      pure ([], b')
  | .shrink reserve => do
      let b' ← b.shrink reserve
      pure ([], b')

/-- What the operation does to a sequence of bytes. -/
def after (c : Bytes) : Op → Bytes
  | .append data => c ++ data
  | .prepend data => data ++ c
  | .retrieve len | .retrieveUnitl len | .retrieveAsString len => c.drop len
  | .retrieveAll | .retrieveAllAsString => []
  | .ensureWritableBytes _ | .shrink _ => c
  | .hasWritten data len => c ++ data.take len
  | .unwrite len => c.take (c.length - len)

/-- What it returns of a sequence of bytes. -/
def result (c : Bytes) : Op → List Bytes
  | .retrieveAsString len => [c.take len]
  | .retrieveAllAsString => [c]
  | _ => []

/-- How many bytes it leaves writable. -/
def room : Op → Nat
  | .ensureWritableBytes len => len
  | .shrink reserve => reserve
  | _ => 0

def prepends : Op → Bool
  | .prepend _ => true
  | _ => false

end Op

/-- What was written at `beginWrite()`, as far as `hasWritten` says. -/
theorem hasWritten_part (hle : len ≤ data.length) (h : data.length ≤ b.writableBytes) :
    ∃ b', (b.copyToWrite data).hasWritten len = .ok b' ∧
      b'.content = b.content ++ data.take len ∧ b'.readerIndex = b.readerIndex := by
  rcases hasWritten_copyToWrite h with ⟨full, hfull, hcont, _⟩
  have hroom : data.length ≤ (b.copyToWrite data).writableBytes := by
    simp only [hasWritten] at hfull
    split at hfull
    · assumption
    · cases hfull
  obtain rfl := Except.ok.inj ((dif_pos hroom).symm.trans hfull)
  refine ⟨_, dif_pos (Nat.le_trans hle hroom), ?_, rfl⟩
  -- it is a prefix of what writing all of the data would give
  have hpart : ∀ n, b.writerIndex + n - b.readerIndex = b.readableBytes + n := by
    intro n
    have := b.reader_le_writer
    simp only [readableBytes]
    omega
  have hall : ((overwrite b.buffer b.writerIndex data).drop b.readerIndex).take
      (b.readableBytes + data.length) = b.content ++ data := by
    rw [← hpart]
    exact hcont
  have hsome : ((overwrite b.buffer b.writerIndex data).drop b.readerIndex).take
      (b.readableBytes + len) = b.content ++ data.take len := by
    rw [← List.take_length_add_append, ← hall, List.take_take, length_content,
      Nat.min_eq_left (Nat.add_le_add_left hle _)]
  rw [← hpart] at hsome
  exact hsome

/-- **Every operation within its precondition** succeeds and does to the content what it
    does to a sequence. -/
theorem Op.apply_ok {op : Op} (h : op.pre b) :
    ∃ b', op.apply b = .ok (op.result b.content, b') ∧ b'.content = op.after b.content ∧
      op.room ≤ b'.writableBytes ∧
      (op.prepends = false → kCheapPrepend ≤ b.readerIndex → kCheapPrepend ≤ b'.readerIndex) := by
  cases op with
  | append data =>
    rcases b.append_ok data with ⟨b', heq, hcont⟩
    refine ⟨b', ?_, hcont, Nat.zero_le _, fun _ hr => append_reader heq hr⟩
    simp only [Op.apply, heq, ok_bind, pure_eq_ok, Op.result]
  | prepend data =>
    rcases prepend_ok h with ⟨b', heq, hcont⟩
    refine ⟨b', ?_, hcont, Nat.zero_le _, fun hno => by cases hno⟩
    simp only [Op.apply, heq, ok_bind, pure_eq_ok, Op.result]
  | retrieve len =>
    rcases retrieve_ok h with ⟨b', heq, hcont⟩
    refine ⟨b', ?_, hcont, Nat.zero_le _, fun _ hr => retrieve_reader heq hr⟩
    simp only [Op.apply, heq, ok_bind, pure_eq_ok, Op.result]
  | retrieveUnitl len =>
    rcases retrieve_ok h with ⟨b', heq, hcont⟩
    refine ⟨b', ?_, hcont, Nat.zero_le _, fun _ hr => retrieve_reader heq hr⟩
    simp only [Op.apply, retrieveUnitl_eq h, heq, ok_bind, pure_eq_ok, Op.result]
  | retrieveAll =>
    exact ⟨_, rfl, content_retrieveAll b, Nat.zero_le _, fun _ _ => Nat.le_refl _⟩
  | retrieveAsString len =>
    rcases retrieveAsString_ok h with ⟨b', hret, heq, hcont⟩
    refine ⟨b', ?_, hcont, Nat.zero_le _, fun _ hr => retrieve_reader hret hr⟩
    simp only [Op.apply, heq, ok_bind, pure_eq_ok, Op.result]
  | retrieveAllAsString =>
    rcases retrieveAsString_ok (Nat.le_refl b.readableBytes) with ⟨b', hret, heq, hcont⟩
    have htake : b.content.take b.readableBytes = b.content := by
      rw [← length_content, List.take_length]
    have hdrop : b.content.drop b.readableBytes = [] := by
      rw [← length_content, List.drop_length]
    rw [htake] at heq
    refine ⟨b', ?_, hcont.trans hdrop, Nat.zero_le _, fun _ hr => retrieve_reader hret hr⟩
    have hall : b.retrieveAllAsString = .ok (b.content, b') := heq
    simp only [Op.apply, hall, ok_bind, pure_eq_ok, Op.result]
  | ensureWritableBytes len =>
    rcases b.ensureWritableBytes_ok len with ⟨b', heq, hcont, hroom⟩
    refine ⟨b', ?_, hcont, hroom, fun _ hr => ensureWritableBytes_reader heq hr⟩
    simp only [Op.apply, heq, ok_bind, pure_eq_ok, Op.result]
  | hasWritten data len =>
    rcases hasWritten_part h.1 h.2 with ⟨b', heq, hcont, hreader⟩
    refine ⟨b', ?_, hcont, Nat.zero_le _, fun _ hr => hreader ▸ hr⟩
    simp only [Op.apply, heq, ok_bind, pure_eq_ok, Op.result]
  | unwrite len =>
    rcases unwrite_ok h with ⟨b', heq, hcont, hreader⟩
    refine ⟨b', ?_, hcont, Nat.zero_le _, fun _ hr => hreader ▸ hr⟩
    simp only [Op.apply, heq, ok_bind, pure_eq_ok, Op.result]
  | shrink reserve =>
    rcases b.shrink_ok reserve with ⟨b', heq, hcont, hroom, hreader⟩
    refine ⟨b', ?_, hcont, hroom, fun _ _ => hreader⟩
    simp only [Op.apply, heq, ok_bind, pure_eq_ok, Op.result]

end Buffer

open Transition Transition.System

/-! ### A family of buffers and of sequences -/

namespace Buffers

variable {ι : Type} [DecidableEq ι]

inductive Command (ι : Type) where
  | on (i : ι) (op : Buffer.Op)
  | swap (i j : ι)
deriving DecidableEq

/-- `a.swap(b)`: the two values are exchanged. -/
def exchange {α : Type} (f : ι → α) (i j : ι) : ι → α :=
  Function.update (Function.update f i (f j)) j (f i)

/-- What the buffers are for: plain sequences of bytes, with the strings returned. -/
structure Contents (ι : Type) where
  contents : ι → Bytes
  returned : List Bytes
  prepended : ι → Bool             -- the storage has seen a prepend

namespace Contents

def empty : Contents ι := ⟨fun _ => [], [], fun _ => false⟩

def after (c : Contents ι) : Command ι → Contents ι
  | .on i op =>
      { contents := Function.update c.contents i (op.after (c.contents i))
        returned := c.returned ++ op.result (c.contents i)
        prepended := Function.update c.prepended i (c.prepended i || op.prepends) }
  | .swap i j =>
      { c with
        contents := exchange c.contents i j
        prepended := exchange c.prepended i j }

def afterAll (cs : List (Command ι)) : Contents ι := cs.foldl after empty

end Contents

end Buffers

/-- Buffers, and the strings that the `retrieveAs` operations have returned. -/
structure Buffers (ι : Type) where
  buffers : ι → Buffer
  returned : List Bytes

namespace Buffers

variable {ι : Type} [DecidableEq ι] {s s' : Buffers ι}

/-- Default-constructed buffers. -/
def new : Buffers ι := ⟨fun _ => Buffer.empty, []⟩

def enabled (s : Buffers ι) : Command ι → Prop
  | .on i op => op.pre (s.buffers i)
  | .swap _ _ => True

def step (s : Buffers ι) : Command ι → Except Assertion (Buffers ι)
  | .on i op => do
      let r ← op.apply (s.buffers i)
      pure ⟨Function.update s.buffers i r.2, s.returned ++ r.1⟩
  | .swap i j => pure { s with buffers := exchange s.buffers i j }

def system (ι : Type) [DecidableEq ι] : System (Buffers ι) (Command ι) Assertion where
  init s := s = new
  enabled := enabled
  step := step

theorem step_of {cmd : Command ι} (hen : s.enabled cmd) (heq : s.step cmd = .ok s') :
    (system ι).Step s cmd s' :=
  ⟨hen, heq⟩

/-! ### Refinement -/

/-- The buffers are the sequences. -/
structure Refines (s : Buffers ι) (c : Contents ι) : Prop where
  contents : ∀ i, (s.buffers i).content = c.contents i
  returned : s.returned = c.returned
  reader : ∀ i, c.prepended i = false → Buffer.kCheapPrepend ≤ (s.buffers i).readerIndex

omit [DecidableEq ι] in
theorem new_refines : Refines (new : Buffers ι) Contents.empty where
  contents := fun _ => Buffer.content_empty
  returned := rfl
  reader := fun _ _ => Nat.le_refl _

theorem exchange_prop {α β : Type} {P : α → β → Prop} {f : ι → α} {g : ι → β}
    (h : ∀ k, P (f k) (g k)) (i j k : ι) : P (exchange f i j k) (exchange g i j k) := by
  simp only [exchange, Function.update_apply]
  split
  · exact h i
  · split
    · exact h j
    · exact h k

/-- **A step within its precondition** succeeds and refines that of the sequences. -/
theorem Refines.step_ok {c : Contents ι} (h : Refines s c) {cmd : Command ι}
    (hen : s.enabled cmd) : ∃ s', s.step cmd = .ok s' ∧ Refines s' (c.after cmd) ∧
      ∀ i op, cmd = .on i op → op.room ≤ (s'.buffers i).writableBytes := by
  cases cmd with
  | on i op =>
    rcases Buffer.Op.apply_ok hen with ⟨b', heq, hcont, hroom, hreader⟩
    refine ⟨⟨Function.update s.buffers i b', s.returned ++ op.result (s.buffers i).content⟩,
      ?_, ?_, ?_⟩
    · simp only [step, heq, ok_bind, pure_eq_ok]
    · constructor
      · intro k
        by_cases hk : k = i
        · subst hk
          simp only [Contents.after, Function.update_self, hcont, h.contents]
        · simp only [Contents.after, Function.update_of_ne hk, h.contents]
      · simp only [Contents.after, h.returned, h.contents]
      · intro k hno
        by_cases hk : k = i
        · subst hk
          simp only [Contents.after, Function.update_self, Bool.or_eq_false_iff] at hno ⊢
          exact hreader hno.2 (h.reader k hno.1)
        · simp only [Contents.after, Function.update_of_ne hk] at hno ⊢
          exact h.reader k hno
    · intro k op' hcmd
      rcases Command.on.inj hcmd with ⟨rfl, rfl⟩
      simp only [Function.update_self]
      exact hroom
  | swap i j =>
    refine ⟨_, rfl, ?_, fun _ _ hcmd => by cases hcmd⟩
    constructor
    · exact exchange_prop (P := fun (b : Buffer) (x : Bytes) => b.content = x) h.contents i j
    · exact h.returned
    · exact exchange_prop (P := fun (b : Buffer) (x : Bool) =>
        x = false → Buffer.kCheapPrepend ≤ b.readerIndex) h.reader i j

theorem Refines.of_run {cmds : List (Command ι)} {s₀ : Buffers ι} (h₀ : s₀ = new)
    (h : (system ι).Run s₀ cmds s) : Refines s (Contents.afterAll cmds) := by
  induction h with
  | nil =>
    subst h₀
    exact new_refines
  | snoc _ hst ih =>
    rcases ih.step_ok hst.1 with ⟨s', heq, href, _⟩
    obtain rfl := Except.ok.inj (heq.symm.trans hst.2)
    simp only [Contents.afterAll, List.foldl_append, List.foldl_cons, List.foldl_nil]
    exact href

/-- Without a `prepend` no storage has seen one. -/
theorem prepended_of_none {cmds : List (Command ι)}
    (h : ∀ i op, Command.on i op ∈ cmds → op.prepends = false) (i : ι) :
    (Contents.afterAll cmds).prepended i = false := by
  induction cmds using List.reverseRecOn generalizing i with
  | nil => rfl
  | append_singleton cmds cmd ih =>
    have hprev := ih fun i op hmem => h i op (List.mem_append_left _ hmem)
    simp only [Contents.afterAll, List.foldl_append, List.foldl_cons, List.foldl_nil]
    cases cmd with
    | on j op =>
      have hop := h j op (List.mem_append_right _ List.mem_cons_self)
      by_cases hij : i = j
      · subst hij
        simp only [Contents.after, Function.update_self, hop, Bool.or_false]
        exact hprev i
      · simp only [Contents.after, Function.update_of_ne hij]
        exact hprev i
    | swap j k =>
      exact exchange_prop (P := fun (_ : Unit) x => x = false) (f := fun _ => ()) hprev j k i

/-- **`Buffer` refines a plain byte sequence.**  After any commands, each within its
    precondition, the buffers hold the sequences that the same commands make of empty
    ones and have returned the same strings; the indices are in order; while no `prepend`
    has occurred the reader is at `kCheapPrepend` or behind; and every next command within
    its precondition succeeds, `ensureWritableBytes` and `shrink` leaving the bytes asked
    for writable. -/
theorem refines_contents {cmds : List (Command ι)} (h : (system ι).Run new cmds s) :
    (∀ i, (s.buffers i).content = (Contents.afterAll cmds).contents i) ∧
    s.returned = (Contents.afterAll cmds).returned ∧
    (∀ i, (s.buffers i).readerIndex ≤ (s.buffers i).writerIndex ∧
      (s.buffers i).writerIndex ≤ (s.buffers i).buffer.length) ∧
    ((∀ i op, Command.on i op ∈ cmds → op.prepends = false) →
      ∀ i, Buffer.kCheapPrepend ≤ (s.buffers i).readerIndex) ∧
    ∀ cmd, s.enabled cmd → ∃ s', s.step cmd = .ok s' ∧
      ∀ i op, cmd = .on i op → op.room ≤ (s'.buffers i).writableBytes := by
  have href := Refines.of_run rfl h
  refine ⟨href.contents, href.returned, ?_, ?_, ?_⟩
  · intro i
    exact ⟨(s.buffers i).reader_le_writer, (s.buffers i).writer_le_size⟩
  · intro hnone i
    exact href.reader i (prepended_of_none hnone i)
  · intro cmd hen
    rcases href.step_ok hen with ⟨s', heq, _, hroom⟩
    exact ⟨s', heq, hroom⟩

/-- Three bytes, of which the first is taken out as a string; then two buffers change
    places. -/
theorem refines_contents_swap :
    ∃ s : Buffers Nat, (system Nat).Run new
        [.on 0 (.append [1, 2, 3]), .on 0 (.retrieveAsString 1), .swap 0 1] s ∧
      (s.buffers 1).content = [2, 3] ∧ (s.buffers 0).content = [] ∧ s.returned = [[1]] ∧
      Buffer.kCheapPrepend ≤ (s.buffers 1).readerIndex := by
  have hpre₁ : (new : Buffers Nat).enabled (.on 0 (.append [1, 2, 3])) := trivial
  rcases new_refines.step_ok hpre₁ with ⟨s₁, heq₁, href₁, _⟩
  have hpre₂ : s₁.enabled (.on 0 (.retrieveAsString 1)) := by
    change 1 ≤ (s₁.buffers 0).readableBytes
    rw [← Buffer.length_content, href₁.contents]
    decide
  rcases href₁.step_ok hpre₂ with ⟨s₂, heq₂, href₂, _⟩
  have hpre₃ : s₂.enabled (.swap 0 1) := trivial
  rcases href₂.step_ok hpre₃ with ⟨s₃, heq₃, _, _⟩
  have hrun := ((Run.single (step_of hpre₁ heq₁)).append (Run.single (step_of hpre₂ heq₂))).append
    (Run.single (step_of hpre₃ heq₃))
  rcases refines_contents hrun with ⟨hcontents, hreturned, _, hreader, _⟩
  refine ⟨s₃, hrun, hcontents 1, hcontents 0, hreturned, hreader ?_ 1⟩
  intro i op hmem
  simp only [List.mem_append, List.mem_singleton, Command.on.injEq, reduceCtorEq,
    or_false] at hmem
  rcases hmem with ⟨_, rfl⟩ | ⟨_, rfl⟩
  · rfl
  · rfl

end Buffers

end Kaycc
