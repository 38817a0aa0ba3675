/-
  Kaycc/BufferAssertions.lean
  ===========================
  **The assertions inside `Buffer`.**

  A caller owes each operation its length (`Use.pre`); what `Buffer` asserts of
  itself is another matter: the constructor of what it has allocated,
  `ensureWritableBytes` of the room it has made, `makeSpace` of the reader it is
  about to move and of the length it has moved (`Assertion.internal`).  The last
  three hold on every legal use of any buffer.  The constructor compares with
  `kInitialSize` and not with its argument, so it holds for the default size and
  for no other (`internal_assertions_hold_iff`).
-/
import Kaycc.BufferInteger

namespace Kaycc

open ByteOrder Postcondition Transition Transition.System

/-- What `Buffer` asserts of itself. -/
def Assertion.internal : Assertion → Prop
  | .bufferInitialSize => True
  | .bufferEnsureWritable => True
  | .bufferMakeSpace => True
  | .bufferMakeSpaceReadable => True
  | _ => False

namespace Buffer

variable {b b' : Buffer} {host : Endian} {n : Nat}

/-! ### The constructor -/

theorem writableBytes_allocate (initialSize : Nat) :
    (allocate initialSize).writableBytes = initialSize := by
  simp [writableBytes, allocate]

/-- **The constructor's asserts fail of every size but the default one.** -/
theorem new_error (h : n ≠ kInitialSize) : new n = .error .bufferInitialSize := by
  have hwritable : ¬ (allocate n).writableBytes = kInitialSize := by
    rwa [writableBytes_allocate]
  simp only [new, check, if_neg hwritable]
  rfl

/-! ### Legal uses -/

/-- What a user does with a buffer. -/
inductive Use where
  | construct
  | perform (op : Op)
  | readFd (data : Bytes)                   -- readv has returned data.length
  | swap (rhs : Buffer)
  | appendInt (w : Width) (x : IntN w)
  | prependInt (w : Width) (x : IntN w)
  | peekInt (w : Width)
  | readInt (w : Width)
deriving DecidableEq

namespace Use

/-- What the use owes of its own lengths. -/
def pre (b : Buffer) : Use → Prop
  | .construct => False
  | .perform op => op.pre b
  | .readFd data => data.length ≤ b.readCapacity
  | .prependInt w _ => w.size ≤ b.prependableBytes
  | .peekInt w | .readInt w => w.size ≤ b.readableBytes
  | _ => True

def apply (host : Endian) (b : Buffer) : Use → Except Assertion Buffer
  | .construct => .ok b
  | .perform op => do
      let r ← op.apply b
      pure r.2
  | .readFd data => b.readFd data
  | .swap rhs => .ok rhs
  | .appendInt w x => b.appendIntN host w x
  | .prependInt w x => b.prependIntN host w x
  | .peekInt w => do
      let _ ← b.peekIntN host w
      pure b
  | .readInt w => do
      let r ← b.readIntN host w
      pure r.2

end Use

/-- One buffer from `Buffer(initialSize)` on; `none` before. -/
def uses (host : Endian) (initialSize : Nat) : System (Option Buffer) Use Assertion where
  init s := s = none
  enabled
    | none, u => u = .construct
    | some b, u => u.pre b
  step
    | none, _ => do
        let b ← Buffer.new initialSize
        pure (some b)
    | some b, u => do
        let b' ← u.apply host b
        pure (some b')

/-! ### No use fails inside -/

/-- The result, whatever it is, or an assertion about the caller. -/
def EndsLegally {α : Type} (x : Except Assertion α) : Prop :=
  Ends (fun _ => True) (fun e => ¬ e.internal) x

theorem endsLegally_of_ok {α : Type} {x : Except Assertion α} (h : ∃ a, x = .ok a) :
    EndsLegally x := by
  obtain ⟨a, ha⟩ := h
  exact ends_of_eq ha trivial

theorem endsLegally_retrieve (b : Buffer) (len : Nat) : EndsLegally (b.retrieve len) := by
  refine (check_ends id).bind fun _ _ => ?_
  split <;> exact ends_ok trivial

theorem endsLegally_peekInt (convert : BitVec (8 * n) → BitVec (8 * n)) :
    EndsLegally (b.peekInt host convert) :=
  (check_ends id).bind fun _ _ => ends_ok trivial

theorem endsLegally_peekIntN (b : Buffer) (host : Endian) (w : Width) :
    EndsLegally (b.peekIntN host w) := by
  cases w with
  | w8 => exact endsLegally_peekInt (n := 1) id
  | w16 => exact (check_ends id).bind fun _ _ => id
  | w32 => exact endsLegally_peekInt (n := 4) fun be32 => networkToHost32 host (be32.signExtend 64)
  | w64 => exact endsLegally_peekInt (n := 8) (networkToHost64 host)

theorem endsLegally_readInt {k : Nat} {peeked : Except Assertion (BitVec k)}
    (h : EndsLegally peeked) (len : Nat) : EndsLegally (readInt peeked (b.retrieve len)) :=
  h.bind fun _ _ => (endsLegally_retrieve b len).bind fun _ _ => ends_ok trivial

theorem endsLegally_readIntN (b : Buffer) (host : Endian) (w : Width) :
    EndsLegally (b.readIntN host w) := by
  have hpeek := endsLegally_peekIntN b host w
  cases w with
  | w8 => exact endsLegally_readInt hpeek 1
  | w16 => exact endsLegally_readInt hpeek 2
  | w32 => exact endsLegally_readInt hpeek 4
  | w64 => exact endsLegally_readInt hpeek 8

/-- **No legal use of any buffer fails an assertion inside.** -/
theorem Use.apply_legal (host : Endian) {u : Use} (h : u.pre b) :
    EndsLegally (u.apply host b) := by
  cases u with
  | construct => exact h.elim
  | perform op =>
    obtain ⟨b', heq, _⟩ := Op.apply_ok h
    exact endsLegally_of_ok ⟨b', by simp only [Use.apply, heq, ok_bind, pure_eq_ok]⟩
  | readFd data =>
    obtain ⟨b', heq, _⟩ := b.readFd_ok data
    exact endsLegally_of_ok ⟨b', heq⟩
  | swap rhs => exact endsLegally_of_ok ⟨rhs, rfl⟩
  | appendInt w x =>
    have hok : ∃ b', b.appendIntN host w x = .ok b' ∧ _ := b.appendIntN_ok w x
    obtain ⟨b', heq, _⟩ := hok
    exact endsLegally_of_ok ⟨b', heq⟩
  | prependInt w x =>
    have hok : ∃ b', b.prependIntN host w x = .ok b' ∧ _ := prependIntN_ok w x h
    obtain ⟨b', heq, _⟩ := hok
    exact endsLegally_of_ok ⟨b', heq⟩
  | peekInt w => exact (endsLegally_peekIntN b host w).bind fun _ _ => ends_ok trivial
  | readInt w => exact (endsLegally_readIntN b host w).bind fun _ _ => ends_ok trivial

/-- In no run of legal uses does an assertion inside `Buffer` fail. -/
def InternalAssertionsHold (host : Endian) (initialSize : Nat) : Prop :=
  ∀ s u e, (uses host initialSize).Reachable s → (uses host initialSize).enabled s u →
    (uses host initialSize).step s u = .error e → ¬ e.internal

/-- **The assertions inside `Buffer(initialSize)` hold on all legal use exactly for the
    default size.** -/
theorem internal_assertions_hold_iff (host : Endian) (initialSize : Nat) :
    InternalAssertionsHold host initialSize ↔ initialSize = kInitialSize := by
  constructor
  · intro h
    by_contra hne
    have hstep : (uses host initialSize).step none .construct = .error .bufferInitialSize := by
      simp only [uses, new_error hne]
      rfl
    exact h none .construct _ ⟨none, [], rfl, Run.nil none⟩ rfl hstep trivial
  · rintro rfl s u e _ hen hstep
    cases s with
    | none =>
      simp only [uses, new_kInitialSize, ok_bind, pure_eq_ok, reduceCtorEq] at hstep
    | some b =>
      have hends : EndsLegally ((u.apply host b).bind fun b' => .ok (some b')) :=
        (Use.apply_legal host hen).bind fun _ _ => ends_ok trivial
      exact hends.of_error hstep

/-- `Buffer(2048)` stops in its constructor. -/
theorem internal_assertions_fail_2048 :
    Buffer.new 2048 = .error .bufferInitialSize ∧ ¬ InternalAssertionsHold .little 2048 := by
  have hnew : Buffer.new 2048 = .error .bufferInitialSize := new_error (by decide)
  refine ⟨hnew, fun h => ?_⟩
  have hstep : (uses .little 2048).step none .construct = .error .bufferInitialSize := by
    simp only [uses, hnew]
    rfl
  exact h none .construct _ ⟨none, [], rfl, Run.nil none⟩ rfl hstep trivial

end Buffer

end Kaycc
