/-
  Kaycc/ByteOrder.lean
  ====================
  **Words of whole bytes in memory, on hosts of either byte order.**

  A word of `n` bytes is a `BitVec (8 * n)`; a signed word is the same bits.
  `store` is what is in memory where the word is, `load` the word that is there, and
  they are inverse to each other.  `htobe` and `betoh` swap the bytes on a
  little-endian host and do nothing on a big-endian one, so that what is stored after
  `htobe` is on every host the bytes with the most significant one first
  (`store_htobe`), and `betoh` after a load takes it back (`betoh_load`).
-/
import Mathlib.Data.Nat.Digits.Defs

namespace ByteOrder

inductive Endian where
  | little
  | big
deriving DecidableEq, Repr

variable {n v : Nat} {bs : List UInt8} {e : Endian}

/-! ### The bytes of a number, the least significant one first -/

def leBytes : Nat → Nat → List UInt8
  | 0, _ => []
  | n + 1, v => UInt8.ofNat v :: leBytes n (v / 256)

def leValue (bs : List UInt8) : Nat := Nat.ofDigits 256 (bs.map UInt8.toNat)

@[simp] theorem leValue_cons (b : UInt8) : leValue (b :: bs) = b.toNat + 256 * leValue bs := rfl

@[simp] theorem length_leBytes : (leBytes n v).length = n := by
  induction n generalizing v with
  | zero => rfl
  | succ n ih => rw [leBytes, List.length_cons, ih]

theorem leValue_lt (bs : List UInt8) : leValue bs < 256 ^ bs.length := by
  have hbyte : ∀ x ∈ bs.map UInt8.toNat, x < 256 := by
    intro x hx
    obtain ⟨b, _, rfl⟩ := List.mem_map.mp hx
    exact b.toNat_lt
  have hlt := Nat.ofDigits_lt_base_pow_length (by decide) hbyte
  rw [List.length_map] at hlt
  exact hlt

theorem leValue_leBytes (h : v < 256 ^ n) : leValue (leBytes n v) = v := by
  induction n generalizing v with
  | zero =>
    rw [Nat.pow_zero, Nat.lt_one_iff] at h
    exact h.symm
  | succ n ih =>
    have hdiv : v / 256 < 256 ^ n := Nat.div_lt_of_lt_mul (by rw [← Nat.pow_succ']; exact h)
    have hlow : (UInt8.ofNat v).toNat = v % 256 := UInt8.toNat_ofNat'
    rw [leBytes, leValue_cons, ih hdiv, hlow]
    exact Nat.mod_add_div v 256

theorem leBytes_leValue (bs : List UInt8) : leBytes bs.length (leValue bs) = bs := by
  induction bs with
  | nil => rfl
  | cons b bs ih =>
    have hb : b.toNat < 256 := b.toNat_lt
    have hlow : UInt8.ofNat (b.toNat + 256 * leValue bs) = b := by
      apply UInt8.toNat_inj.mp
      rw [UInt8.toNat_ofNat']
      omega
    have hhigh : (b.toNat + 256 * leValue bs) / 256 = leValue bs := by omega
    rw [List.length_cons, leBytes, leValue_cons, hlow, hhigh, ih]

/-! ### Words in memory -/

/-- The bytes in the order of their addresses. -/
def Endian.arrange : Endian → List UInt8 → List UInt8
  | .little, bs => bs
  | .big, bs => bs.reverse

theorem Endian.arrange_arrange : e.arrange (e.arrange bs) = bs := by
  cases e with
  | little => rfl
  | big => exact List.reverse_reverse bs

@[simp] theorem Endian.length_arrange : (e.arrange bs).length = bs.length := by
  cases e with
  | little => rfl
  | big => exact List.length_reverse

def store (e : Endian) (x : BitVec (8 * n)) : List UInt8 := e.arrange (leBytes n x.toNat)

def load (e : Endian) (n : Nat) (bs : List UInt8) : BitVec (8 * n) :=
  BitVec.ofNat _ (leValue (e.arrange bs))

@[simp] theorem length_store (x : BitVec (8 * n)) : (store e x).length = n := by
  rw [store, Endian.length_arrange, length_leBytes]

theorem two_pow_bytes (n : Nat) : 2 ^ (8 * n) = 256 ^ n := by
  rw [Nat.pow_mul]

/-- **What is stored is loaded.** -/
@[simp] theorem load_store (x : BitVec (8 * n)) : load e n (store e x) = x := by
  have hx : x.toNat < 256 ^ n := two_pow_bytes n ▸ x.isLt
  rw [load, store, Endian.arrange_arrange, leValue_leBytes hx, BitVec.ofNat_toNat,
    BitVec.setWidth_eq]

theorem store_load (h : bs.length = n) : store e (load e n bs) = bs := by
  subst h
  have hlt : leValue (e.arrange bs) < 2 ^ (8 * bs.length) := by
    have h := leValue_lt (e.arrange bs)
    rw [Endian.length_arrange, ← two_pow_bytes] at h
    exact h
  have hback := leBytes_leValue (e.arrange bs)
  rw [Endian.length_arrange] at hback
  rw [store, load, BitVec.toNat_ofNat, Nat.mod_eq_of_lt hlt, hback, Endian.arrange_arrange]

/-- One byte is the same in either order. -/
theorem store_one (x : BitVec (8 * 1)) : store e x = store .big x := by
  cases e with
  | little => rfl
  | big => rfl

/-! ### The host's order and the big-endian one -/

/-- The same bytes, read in the other order. -/
def bswap (x : BitVec (8 * n)) : BitVec (8 * n) := load .little n (store .big x)

def htobe : Endian → BitVec (8 * n) → BitVec (8 * n)
  | .little, x => bswap x
  | .big, x => x

def betoh : Endian → BitVec (8 * n) → BitVec (8 * n)
  | .little, x => bswap x
  | .big, x => x

/-- **After `htobe` the most significant byte is stored first.** -/
theorem store_htobe (x : BitVec (8 * n)) : store e (htobe e x) = store .big x := by
  cases e with
  | little => exact store_load (length_store x)
  | big => rfl

theorem bswap_bswap (x : BitVec (8 * n)) : bswap (bswap x) = x := by
  have hlittle : store .little (bswap x) = store .big x := store_load (length_store x)
  have hbig : store .big (bswap x) = store .little x := by
    change (store .little (bswap x)).reverse = store .little x
    rw [hlittle]
    exact List.reverse_reverse _
  rw [bswap, hbig, load_store]

/-- **`betoh` after a load reads the most significant byte first.** -/
theorem betoh_load (x : BitVec (8 * n)) : betoh e (load e n (store .big x)) = x := by
  cases e with
  | little => exact bswap_bswap x
  | big => exact load_store x

end ByteOrder
