/-
  Kaycc/BufferInteger.lean
  ========================
  **The integers of `net/buffer.h`, in network byte order.**

  `appendIntN` and `prependIntN` convert with `net/endian.h` and copy what the host
  has in memory; `peekIntN` copies back and converts.  The conversions change the
  width on the way: the parameter of `networkToHost32` and `networkToHost16` is a
  `uint64_t`, so a negative integer is first extended and then cut.  Whatever the
  host's byte order, the bytes in the buffer are those with the most significant one
  first, and three of the four widths are read back (`round_trip_iff`); `peekInt16`
  has no return statement, and a value it does not return cannot be read.

  An integer is its bits; the host's byte order is a parameter.
-/
import Kaycc.BufferSequence
import Kaycc.ByteOrder

namespace Kaycc

open ByteOrder Transition Transition.System

/-! ### `net/endian.h` -/

section

variable (host : Endian)

def hostToNetwork64 (host64 : BitVec 64) : BitVec 64 := htobe (n := 8) host host64

def hostToNetwork32 (host32 : BitVec 32) : BitVec 32 := htobe (n := 4) host host32

def hostToNetwork16 (host16 : BitVec 16) : BitVec 16 := htobe (n := 2) host host16

def networkToHost64 (host64 : BitVec 64) : BitVec 64 := betoh (n := 8) host host64

/-- `be32toh` takes the low half of the `uint64_t`. -/
def networkToHost32 (host32 : BitVec 64) : BitVec 32 := betoh (n := 4) host (host32.setWidth 32)

def networkToHost16 (host16 : BitVec 64) : BitVec 16 := betoh (n := 2) host (host16.setWidth 16)

end

namespace Buffer

variable {host : Endian} {n : Nat} {b b' : Buffer} {rest : Bytes}

/-! ### Putting in -/

/-- `append(&be, sizeof(be))`, where `be` is `x` converted. -/
def appendInt (b : Buffer) (host : Endian) (convert : BitVec (8 * n) → BitVec (8 * n))
    (x : BitVec (8 * n)) : Except Assertion Buffer :=
  b.append (store host (convert x))

def appendInt64 (b : Buffer) (host : Endian) (x : BitVec 64) : Except Assertion Buffer :=
  b.appendInt (n := 8) host (hostToNetwork64 host) x

def appendInt32 (b : Buffer) (host : Endian) (x : BitVec 32) : Except Assertion Buffer :=
  b.appendInt (n := 4) host (hostToNetwork32 host) x

def appendInt16 (b : Buffer) (host : Endian) (x : BitVec 16) : Except Assertion Buffer :=
  b.appendInt (n := 2) host (hostToNetwork16 host) x

def appendInt8 (b : Buffer) (host : Endian) (x : BitVec 8) : Except Assertion Buffer :=
  b.appendInt (n := 1) host id x

/-- `prepend(&be, sizeof(be))`. -/
def prependInt (b : Buffer) (host : Endian) (convert : BitVec (8 * n) → BitVec (8 * n))
    (x : BitVec (8 * n)) : Except Assertion Buffer :=
  b.prepend (store host (convert x))

def prependInt64 (b : Buffer) (host : Endian) (x : BitVec 64) : Except Assertion Buffer :=
  b.prependInt (n := 8) host (hostToNetwork64 host) x

def prependInt32 (b : Buffer) (host : Endian) (x : BitVec 32) : Except Assertion Buffer :=
  b.prependInt (n := 4) host (hostToNetwork32 host) x

def prependInt16 (b : Buffer) (host : Endian) (x : BitVec 16) : Except Assertion Buffer :=
  b.prependInt (n := 2) host (hostToNetwork16 host) x

def prependInt8 (b : Buffer) (host : Endian) (x : BitVec 8) : Except Assertion Buffer :=
  b.prependInt (n := 1) host id x

/-! ### Taking out -/

/-- `memcpy(&be, peek(), sizeof(be))`. -/
def copyInt (b : Buffer) (host : Endian) (n : Nat) : BitVec (8 * n) :=
  load host n ((b.buffer.drop b.readerIndex).take n)

def peekInt (b : Buffer) (host : Endian) (convert : BitVec (8 * n) → BitVec (8 * n)) :
    Except Assertion (BitVec (8 * n)) := do
  check (n ≤ b.readableBytes) .bufferPeekInt
  pure (convert (b.copyInt host n))

def peekInt64 (b : Buffer) (host : Endian) : Except Assertion (BitVec 64) :=
  b.peekInt (n := 8) host (networkToHost64 host)

def peekInt32 (b : Buffer) (host : Endian) : Except Assertion (BitVec 32) :=
  b.peekInt (n := 4) host fun be32 => networkToHost32 host (be32.signExtend 64)

/-- The conversion and the return are missing. -/
def peekInt16 (b : Buffer) (_host : Endian) : Except Assertion (BitVec 16) := do
  check (2 ≤ b.readableBytes) .bufferPeekInt
  .error .peekInt16Returns

def peekInt8 (b : Buffer) (host : Endian) : Except Assertion (BitVec 8) :=
  b.peekInt (n := 1) host id

def retrieveInt64 (b : Buffer) : Except Assertion Buffer := b.retrieve 8

def retrieveInt32 (b : Buffer) : Except Assertion Buffer := b.retrieve 4

def retrieveInt16 (b : Buffer) : Except Assertion Buffer := b.retrieve 2

def retrieveInt8 (b : Buffer) : Except Assertion Buffer := b.retrieve 1

/-- What is peeked at, and the buffer without it. -/
def readInt {k : Nat} (peeked : Except Assertion (BitVec k)) (retrieved : Except Assertion Buffer) :
    Except Assertion (BitVec k × Buffer) := do
  let result ← peeked
  let b' ← retrieved
  pure (result, b')

def readInt64 (b : Buffer) (host : Endian) : Except Assertion (BitVec 64 × Buffer) :=
  readInt (b.peekInt64 host) b.retrieveInt64

def readInt32 (b : Buffer) (host : Endian) : Except Assertion (BitVec 32 × Buffer) :=
  readInt (b.peekInt32 host) b.retrieveInt32

def readInt16 (b : Buffer) (host : Endian) : Except Assertion (BitVec 16 × Buffer) :=
  readInt (b.peekInt16 host) b.retrieveInt16

def readInt8 (b : Buffer) (host : Endian) : Except Assertion (BitVec 8 × Buffer) :=
  readInt (b.peekInt8 host) b.retrieveInt8

/-! ### The four widths -/

inductive Width where
  | w8
  | w16
  | w32
  | w64
deriving DecidableEq, Repr

/-- `sizeof` of the integer. -/
def Width.size : Width → Nat
  | .w8 => 1
  | .w16 => 2
  | .w32 => 4
  | .w64 => 8

/-- The integers of a width. -/
abbrev IntN (w : Width) : Type := BitVec (8 * w.size)

def appendIntN (b : Buffer) (host : Endian) : (w : Width) → IntN w → Except Assertion Buffer
  | .w8, x => b.appendInt8 host x
  | .w16, x => b.appendInt16 host x
  | .w32, x => b.appendInt32 host x
  | .w64, x => b.appendInt64 host x

def prependIntN (b : Buffer) (host : Endian) : (w : Width) → IntN w → Except Assertion Buffer
  | .w8, x => b.prependInt8 host x
  | .w16, x => b.prependInt16 host x
  | .w32, x => b.prependInt32 host x
  | .w64, x => b.prependInt64 host x

def peekIntN (b : Buffer) (host : Endian) : (w : Width) → Except Assertion (IntN w)
  | .w8 => b.peekInt8 host
  | .w16 => b.peekInt16 host
  | .w32 => b.peekInt32 host
  | .w64 => b.peekInt64 host

def readIntN (b : Buffer) (host : Endian) : (w : Width) → Except Assertion (IntN w × Buffer)
  | .w8 => b.readInt8 host
  | .w16 => b.readInt16 host
  | .w32 => b.readInt32 host
  | .w64 => b.readInt64 host

/-! ### What is in the buffer -/

theorem appendInt_ok {convert : BitVec (8 * n) → BitVec (8 * n)}
    (hconvert : ∀ x, store host (convert x) = store .big x) (b : Buffer) (x : BitVec (8 * n)) :
    ∃ b', b.appendInt host convert x = .ok b' ∧ b'.content = b.content ++ store .big x := by
  rw [appendInt, hconvert]
  exact b.append_ok _

theorem appendIntN_ok (b : Buffer) (w : Width) (x : IntN w) :
    ∃ b', b.appendIntN host w x = .ok b' ∧ b'.content = b.content ++ store .big x := by
  cases w with
  | w8 => exact appendInt_ok store_one b x
  | w16 => exact appendInt_ok store_htobe b x
  | w32 => exact appendInt_ok store_htobe b x
  | w64 => exact appendInt_ok store_htobe b x

theorem prependInt_ok {convert : BitVec (8 * n) → BitVec (8 * n)}
    (hconvert : ∀ x, store host (convert x) = store .big x) (x : BitVec (8 * n))
    (h : n ≤ b.prependableBytes) :
    ∃ b', b.prependInt host convert x = .ok b' ∧ b'.content = store .big x ++ b.content := by
  rw [prependInt, hconvert]
  apply prepend_ok
  rw [length_store]
  exact h

theorem prependIntN_ok (w : Width) (x : IntN w) (h : w.size ≤ b.prependableBytes) :
    ∃ b', b.prependIntN host w x = .ok b' ∧ b'.content = store .big x ++ b.content := by
  cases w with
  | w8 => exact prependInt_ok store_one x h
  | w16 => exact prependInt_ok store_htobe x h
  | w32 => exact prependInt_ok store_htobe x h
  | w64 => exact prependInt_ok store_htobe x h

/-! ### What is read back -/

theorem readable_of_content {x : BitVec (8 * n)} (h : b.content = store .big x ++ rest) :
    n ≤ b.readableBytes := by
  rw [← length_content, h, List.length_append, length_store]
  exact Nat.le_add_right _ _

/-- The integer in front is copied, byte by byte. -/
theorem copyInt_eq {x : BitVec (8 * n)} (h : b.content = store .big x ++ rest) :
    b.copyInt host n = load host n (store .big x) := by
  have htake : (b.buffer.drop b.readerIndex).take n = b.content.take n := by
    rw [content, List.take_take, Nat.min_eq_left (readable_of_content h)]
  rw [copyInt, htake, h, List.take_left' (length_store x)]

theorem peekInt_ok {convert : BitVec (8 * n) → BitVec (8 * n)}
    (hconvert : ∀ x, convert (load host n (store .big x)) = x) {x : BitVec (8 * n)}
    (h : b.content = store .big x ++ rest) : b.peekInt host convert = .ok x := by
  simp only [peekInt, check_eq_ok (readable_of_content h), ok_bind, copyInt_eq h, hconvert,
    pure_eq_ok]

/-- The detour over 64 bits, the sign extended and cut, is none. -/
theorem setWidth_signExtend (x : BitVec 32) : (x.signExtend 64).setWidth 32 = x := by
  apply BitVec.eq_of_getLsbD_eq
  intro i hi
  rw [BitVec.getLsbD_setWidth, BitVec.getLsbD_signExtend]
  simp [hi, Nat.lt_trans hi (by decide : 32 < 64)]

theorem peekInt64_ok {x : BitVec 64} (h : b.content = store (n := 8) .big x ++ rest) :
    b.peekInt64 host = .ok x :=
  peekInt_ok (n := 8) betoh_load h

theorem peekInt32_ok {x : BitVec 32} (h : b.content = store (n := 4) .big x ++ rest) :
    b.peekInt32 host = .ok x := by
  have hconvert : ∀ y : BitVec (8 * 4),
      networkToHost32 host (BitVec.signExtend 64 (load host 4 (store .big y))) = y := by
    intro y
    rw [networkToHost32]
    change betoh host (BitVec.setWidth 32 (BitVec.signExtend 64 _)) = y
    rw [setWidth_signExtend]
    exact betoh_load y
  exact peekInt_ok (n := 4) hconvert h

theorem peekInt8_ok {x : BitVec 8} (h : b.content = store (n := 1) .big x ++ rest) :
    b.peekInt8 host = .ok x := by
  have hconvert : ∀ y : BitVec (8 * 1), id (load host 1 (store .big y)) = y := by
    intro y
    rw [← store_one (e := host)]
    exact load_store y
  exact peekInt_ok (n := 1) hconvert h

theorem peekIntN_ok {w : Width} (hw : w ≠ .w16) {x : IntN w}
    (h : b.content = store .big x ++ rest) : b.peekIntN host w = .ok x := by
  cases w with
  | w8 => exact peekInt8_ok h
  | w16 => exact absurd rfl hw
  | w32 => exact peekInt32_ok h
  | w64 => exact peekInt64_ok h

/-- `peekInt16` returns nothing, whatever there is to read. -/
theorem peekInt16_ne_ok (b : Buffer) (host : Endian) (x : BitVec 16) :
    b.peekInt16 host ≠ .ok x := by
  intro h
  obtain ⟨_, _, h⟩ := bind_eq_ok.mp h
  cases h

theorem readInt16_ne_ok (b : Buffer) (host : Endian) (r : BitVec 16 × Buffer) :
    b.readInt16 host ≠ .ok r := by
  intro h
  obtain ⟨x, hx, _⟩ := bind_eq_ok.mp h
  exact peekInt16_ne_ok b host x hx

theorem readInt_ok {k : Nat} {peeked : Except Assertion (BitVec k)} {x : BitVec k}
    (hpeek : peeked = .ok x) (hle : n ≤ b.readableBytes) :
    ∃ b', readInt peeked (b.retrieve n) = .ok (x, b') ∧ b'.content = b.content.drop n := by
  obtain ⟨b', heq, hcont⟩ := retrieve_ok hle
  refine ⟨b', ?_, hcont⟩
  simp only [readInt, hpeek, heq, ok_bind, pure_eq_ok]

theorem readIntN_ok (host : Endian) {w : Width} (hw : w ≠ .w16) {x : IntN w}
    (h : b.content = store .big x ++ rest) :
    ∃ b', b.readIntN host w = .ok (x, b') ∧ b'.content = rest := by
  have hpeek : b.peekIntN host w = .ok x := peekIntN_ok hw h
  have hread : ∃ b', readInt (b.peekIntN host w) (b.retrieve w.size) = .ok (x, b') ∧
      b'.content = b.content.drop w.size := readInt_ok hpeek (readable_of_content h)
  rw [h, List.drop_left' (length_store x)] at hread
  cases w with
  | w8 => exact hread
  | w16 => exact absurd rfl hw
  | w32 => exact hread
  | w64 => exact hread

/-- What is promised of one width. -/
structure RoundTrips (host : Endian) (w : Width) : Prop where
  append : ∀ (b : Buffer) (x : IntN w), ∃ b', b.appendIntN host w x = .ok b' ∧
    b'.content = b.content ++ store .big x
  prepend : ∀ (b : Buffer) (x : IntN w), w.size ≤ b.prependableBytes →
    ∃ b', b.prependIntN host w x = .ok b' ∧ b'.content = store .big x ++ b.content
  peek : ∀ (b : Buffer) (x : IntN w) (rest : Bytes), b.content = store .big x ++ rest →
    b.peekIntN host w = .ok x
  read : ∀ (b : Buffer) (x : IntN w) (rest : Bytes), b.content = store .big x ++ rest →
    ∃ b', b.readIntN host w = .ok (x, b') ∧ b'.content = rest

/-- Every width but that of 16 bits. -/
theorem roundTrips_iff (host : Endian) (w : Width) : RoundTrips host w ↔ w ≠ .w16 := by
  constructor
  · rintro h rfl
    obtain ⟨b, _, hcont⟩ := h.append Buffer.empty 0
    rw [content_empty, List.nil_append, ← List.append_nil (store .big 0)] at hcont
    exact peekInt16_ne_ok b host 0 (h.peek b 0 [] hcont)
  · intro hw
    exact {
      append := fun b x => appendIntN_ok b w x
      prepend := fun b x => prependIntN_ok w x
      peek := fun b x rest => peekIntN_ok hw
      read := fun b x rest => readIntN_ok host hw }

/-! ### Items of mixed widths -/

/-- What is appended in one piece and read back in one piece. -/
inductive Item where
  | int (w : Width) (x : IntN w)
  | raw (data : Bytes)               -- read back with retrieveAsString

namespace Item

def bytes : Item → Bytes
  | .int _ x => store .big x
  | .raw data => data

def is16 : Item → Bool
  | .int .w16 _ => true
  | _ => false

end Item

def appendItem (b : Buffer) (host : Endian) : Item → Except Assertion Buffer
  | .int w x => b.appendIntN host w x
  | .raw data => b.append data

/-- The read that matches the item, and what it returns. -/
def readItem (b : Buffer) (host : Endian) : Item → Except Assertion (Item × Buffer)
  | .int w _ => do
      let r ← b.readIntN host w
      pure (.int w r.1, r.2)
  | .raw data => do
      let r ← b.retrieveAsString data.length
      pure (.raw r.1, r.2)

theorem appendItem_ok (b : Buffer) (host : Endian) (item : Item) :
    ∃ b', b.appendItem host item = .ok b' ∧ b'.content = b.content ++ item.bytes := by
  cases item with
  | int w x => exact appendIntN_ok b w x
  | raw data => exact b.append_ok data

theorem readItem_ok (host : Endian) {item : Item} (hitem : item.is16 = false)
    (h : b.content = item.bytes ++ rest) :
    ∃ b', b.readItem host item = .ok (item, b') ∧ b'.content = rest := by
  cases item with
  | int w x =>
    have hw : w ≠ .w16 := by
      rintro rfl
      cases hitem
    obtain ⟨b', heq, hcont⟩ := readIntN_ok host hw h
    exact ⟨b', by simp only [readItem, heq, ok_bind, pure_eq_ok], hcont⟩
  | raw data =>
    have hle : data.length ≤ b.readableBytes := by
      rw [← length_content, h, List.length_append]
      exact Nat.le_add_right _ _
    obtain ⟨b', _, heq, hcont⟩ := retrieveAsString_ok hle
    rw [h] at heq hcont
    refine ⟨b', ?_, hcont.trans List.drop_left⟩
    have htake : (Item.raw data).bytes ++ rest = data ++ rest := rfl
    rw [htake, List.take_left] at heq
    simp only [readItem, heq, ok_bind, pure_eq_ok]

theorem readItem_ne_ok {item : Item} (hitem : item.is16 = true) (r : Item × Buffer) :
    b.readItem host item ≠ .ok r := by
  intro h
  cases item with
  | raw data => cases hitem
  | int w x =>
    cases w with
    | w16 =>
      obtain ⟨r', hr', _⟩ := bind_eq_ok.mp h
      exact readInt16_ne_ok b host r' hr'
    | _ => cases hitem

end Buffer

/-! ### A buffer between its writer and its reader -/

open Buffer

structure ItemBuffer where
  buffer : Buffer
  appended : List Item               -- in order
  pending : List Item                -- of these, still to be read
  returned : List Item               -- by the reads

namespace ItemBuffer

inductive Action where
  | append (item : Item)
  | ensureWritableBytes (len : Nat)
  | shrink (reserve : Nat)
  | read                             -- the read that matches the next item

def enabled (s : ItemBuffer) : Action → Prop
  | .read => s.pending ≠ []
  | _ => True

def step (host : Endian) (s : ItemBuffer) : Action → Except Assertion ItemBuffer
  | .append item => do
      let b ← s.buffer.appendItem host item
      pure { s with
        buffer := b
        appended := s.appended ++ [item]
        pending := s.pending ++ [item] }
  | .ensureWritableBytes len => do
      let b ← s.buffer.ensureWritableBytes len
      pure { s with buffer := b }
  | .shrink reserve => do
      let b ← s.buffer.shrink reserve
      pure { s with buffer := b }
  | .read =>
      match s.pending with
      | [] => .ok s
      | item :: rest => do
          let r ← s.buffer.readItem host item
          pure { s with buffer := r.2, pending := rest, returned := s.returned ++ [r.1] }

/-- A buffer that holds these items and nothing else. -/
def system (host : Endian) : System ItemBuffer Action Assertion where
  init s := s.pending = s.appended ∧ s.returned = [] ∧
    s.buffer.content = s.appended.flatMap Item.bytes
  enabled := enabled
  step := step host

/-- The step does not read an integer of 16 bits. -/
def readsOther (s : ItemBuffer) : Action → Prop
  | .read => ∀ item ∈ s.pending.head?, item.is16 = false
  | _ => True

variable {host : Endian} {s s' : ItemBuffer} {act : Action}

structure Inv (s : ItemBuffer) : Prop where
  content : s.buffer.content = s.pending.flatMap Item.bytes
  order : s.returned ++ s.pending = s.appended

/-- **The step lemma.** -/
theorem Inv.step_ok (host : Endian) (hi : Inv s) (hen : s.enabled act) (hcond : s.readsOther act) :
    ∃ s', s.step host act = .ok s' ∧ Inv s' := by
  cases act with
  | append item =>
    obtain ⟨b, heq, hcont⟩ := s.buffer.appendItem_ok host item
    refine ⟨_, by simp only [step, heq, ok_bind, pure_eq_ok]; rfl, ?_, ?_⟩
    · simp only [hcont, hi.content, List.flatMap_append, List.flatMap_cons, List.flatMap_nil,
        List.append_nil]
    · simp only [← List.append_assoc, hi.order]
  | ensureWritableBytes len =>
    obtain ⟨b, heq, hcont, _⟩ := s.buffer.ensureWritableBytes_ok len
    refine ⟨{ s with buffer := b }, ?_, hcont.trans hi.content, hi.order⟩
    simp only [step, heq, ok_bind, pure_eq_ok]
  | shrink reserve =>
    obtain ⟨b, heq, hcont, _⟩ := s.buffer.shrink_ok reserve
    refine ⟨{ s with buffer := b }, ?_, hcont.trans hi.content, hi.order⟩
    simp only [step, heq, ok_bind, pure_eq_ok]
  | read =>
    cases hp : s.pending with
    | nil => exact absurd hp hen
    | cons item rest =>
      have hitem : item.is16 = false := hcond item (by simp [hp])
      have hfront : s.buffer.content = item.bytes ++ rest.flatMap Item.bytes := by
        rw [hi.content, hp, List.flatMap_cons]
      obtain ⟨b, heq, hcont⟩ := readItem_ok host hitem hfront
      refine ⟨_, by simp only [step, hp, heq, ok_bind, pure_eq_ok]; rfl, hcont, ?_⟩
      rw [← hi.order, hp, List.append_assoc]
      rfl

/-- A step that reads an integer of 16 bits does not return. -/
theorem step_ne_ok (hcond : ¬ s.readsOther act) : s.step host act ≠ .ok s' := by
  intro h
  cases act with
  | read =>
    simp only [step] at h
    split at h
    · rename_i hp
      exact hcond fun item hmem => by
        rw [hp] at hmem
        cases hmem
    · rename_i item rest hp
      have hitem : item.is16 = true := by
        by_contra hno
        apply hcond
        intro item' hmem
        rw [hp] at hmem
        obtain rfl := Option.some.inj hmem
        exact Bool.eq_false_iff.mpr hno
      obtain ⟨r, hr, _⟩ := bind_eq_ok.mp h
      exact readItem_ne_ok hitem r hr
  | _ => exact hcond trivial

theorem Inv.step (hi : Inv s) (hst : (system host).Step s act s') : Inv s' := by
  have hcond : s.readsOther act := by
    by_contra hno
    exact step_ne_ok hno hst.2
  obtain ⟨s₁, heq, hi'⟩ := hi.step_ok host hst.1 hcond
  obtain rfl : s₁ = s' := Except.ok.inj (heq.symm.trans hst.2)
  exact hi'

theorem reachable_inv (h : (system host).Reachable s) : Inv s := by
  apply h.invariant
  · rintro s₀ ⟨hpending, hreturned, hcont⟩
    constructor
    · rw [hpending]
      exact hcont
    · rw [hreturned, hpending]
      rfl
  · intro s act s' hi hst
    exact hi.step hst

/-- **Integers round-trip, but for those of 16 bits.**  On every host a width keeps its
    promises exactly if it is not that of 16 bits.  In every run, with whatever appended
    and compacted in between, what the matching reads have returned and what is still in
    the buffer are the items appended, in order, and a step returns exactly if it does
    not read an integer of 16 bits. -/
theorem round_trip_iff (host : Endian) :
    (∀ w, RoundTrips host w ↔ w ≠ .w16) ∧
    ∀ s, (system host).Reachable s →
      s.returned ++ s.pending = s.appended ∧
      s.buffer.content = s.pending.flatMap Item.bytes ∧
      ∀ act, s.enabled act → ((∃ s', s.step host act = .ok s') ↔ s.readsOther act) := by
  refine ⟨roundTrips_iff host, ?_⟩
  intro s hs
  have hi := reachable_inv hs
  refine ⟨hi.order, hi.content, ?_⟩
  intro act hen
  constructor
  · rintro ⟨s', heq⟩
    by_contra hno
    exact step_ne_ok hno heq
  · intro hcond
    obtain ⟨s', heq, _⟩ := hi.step_ok host hen hcond
    exact ⟨s', heq⟩

instance (host : Endian) (s : ItemBuffer) :
    (act : Action) → Decidable ((system host).enabled s act)
  | .read => inferInstanceAs (Decidable (s.pending ≠ []))
  | .append _ | .ensureWritableBytes _ | .shrink _ => inferInstanceAs (Decidable True)

/-- Twelve bytes, the last four of which are the integer -2. -/
def holdsMinusTwo : Buffer where
  buffer := [0, 0, 0, 0, 0, 0, 0, 0, 255, 255, 255, 254]
  readerIndex := 8
  writerIndex := 12
  reader_le_writer := by decide
  writer_le_size := by decide
  cheapPrepend_le_size := by decide

/-- The negative integer is read after a string has been appended behind it, and the
    string can be read next. -/
theorem round_trip_iff_negative :
    ∃ s : ItemBuffer, (system .little).Reachable s ∧ s.returned = [.int .w32 (-2)] ∧
      s.returned ++ s.pending = s.appended ∧ s.appended = [.int .w32 (-2), .raw [1, 2]] ∧
      ∃ s', s.step .little .read = .ok s' := by
  obtain ⟨s, hexec, hreturned, happended, hpending⟩ : ∃ s : ItemBuffer,
      (system .little).exec ⟨holdsMinusTwo, [.int .w32 (-2)], [.int .w32 (-2)], []⟩
        [.append (.raw [1, 2]), .read] = some s ∧ s.returned = [.int .w32 (-2)] ∧
        s.appended = [.int .w32 (-2), .raw [1, 2]] ∧ s.pending = [.raw [1, 2]] :=
    ⟨_, rfl, rfl, rfl, rfl⟩
  have hreach : (system .little).Reachable s := reachable_of_exec _ ⟨rfl, rfl, rfl⟩ hexec
  obtain ⟨horder, _, hstep⟩ := (round_trip_iff .little).2 s hreach
  have hen : s.enabled .read := by simp [enabled, hpending]
  have hcond : s.readsOther .read := by simp [readsOther, hpending, Item.is16]
  exact ⟨s, hreach, hreturned, horder, happended, (hstep .read hen).mpr hcond⟩

/-- The integer 1 of 16 bits is in the buffer as it should be, and cannot be read. -/
theorem readInt16_fails :
    ∃ b : Buffer, Buffer.empty.appendInt16 .little 1 = .ok b ∧ b.content = [0, 1] ∧
      (∀ x, b.peekInt16 .little ≠ .ok x) ∧ ∀ r, b.readInt16 .little ≠ .ok r := by
  obtain ⟨b, heq, hcont⟩ : ∃ b, Buffer.empty.appendIntN .little .w16 1 = .ok b ∧
      b.content = Buffer.empty.content ++ store .big (1 : IntN .w16) :=
    appendIntN_ok Buffer.empty .w16 1
  rw [content_empty] at hcont
  exact ⟨b, heq, hcont, peekInt16_ne_ok b .little, readInt16_ne_ok b .little⟩

end ItemBuffer

end Kaycc
