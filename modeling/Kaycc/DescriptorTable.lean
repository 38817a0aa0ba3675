/-
  Kaycc/DescriptorTable.lean
  ==========================
  **The descriptors of a process.**

  A descriptor is a small number that the kernel gives out again after it has been
  closed, so the number alone does not say what is open.  Each `open`, `socket` or
  `accept` that succeeds is an opening of its own, and the table says to which
  opening a descriptor refers.  No two descriptors refer to one opening, and the
  openings to come are none of those before; both are part of the table.

  Closing a number that is not open does nothing (`EBADF`).
-/
import Mathlib.Logic.Function.Basic

structure DescriptorTable where
  refers : Int → Option Nat          -- the opening a descriptor refers to
  openings : Nat                     -- how many there have been
  nonneg : ∀ fd k, refers fd = some k → 0 ≤ fd
  bounded : ∀ fd k, refers fd = some k → k < openings
  single : ∀ fd fd' k, refers fd = some k → refers fd' = some k → fd = fd'

namespace DescriptorTable

variable {t : DescriptorTable} {fd fd' : Int} {n : Nat} {k : Nat}

theorem empty_refers {P : Prop} (h : (none : Option Nat) = some k) : P := by cases h

def empty : DescriptorTable where
  refers := fun _ => none
  openings := 0
  nonneg := fun _ _ => empty_refers
  bounded := fun _ _ => empty_refers
  single := fun _ _ _ h => empty_refers h

/-- -1 refers to nothing. -/
theorem refers_neg_one (t : DescriptorTable) : t.refers (-1) = none := by
  cases h : t.refers (-1) with
  | none => rfl
  | some k => exact absurd (t.nonneg _ _ h) (by decide)

/-! ### Opening -/

theorem update_open (h : Function.update t.refers n (some t.openings) fd = some k) :
    (fd = n ∧ k = t.openings) ∨ (fd ≠ n ∧ t.refers fd = some k) := by
  by_cases hfd : fd = n
  · rw [hfd, Function.update_self] at h
    exact .inl ⟨hfd, (Option.some.inj h).symm⟩
  · rw [Function.update_of_ne hfd] at h
    exact .inr ⟨hfd, h⟩

theorem open_nonneg (t : DescriptorTable) (n : Nat) (fd : Int) (k : Nat)
    (h : Function.update t.refers n (some t.openings) fd = some k) : 0 ≤ fd := by
  rcases update_open h with ⟨rfl, _⟩ | ⟨_, hold⟩
  · exact Int.natCast_nonneg n
  · exact t.nonneg fd k hold

theorem open_bounded (t : DescriptorTable) (n : Nat) (fd : Int) (k : Nat)
    (h : Function.update t.refers n (some t.openings) fd = some k) : k < t.openings + 1 := by
  rcases update_open h with ⟨_, rfl⟩ | ⟨_, hold⟩
  · exact Nat.lt_succ_self _
  · exact Nat.lt_succ_of_lt (t.bounded fd k hold)

theorem open_single (t : DescriptorTable) (n : Nat) (fd fd' : Int) (k : Nat)
    (h : Function.update t.refers n (some t.openings) fd = some k)
    (h' : Function.update t.refers n (some t.openings) fd' = some k) : fd = fd' := by
  rcases update_open h with ⟨rfl, rfl⟩ | ⟨_, hold⟩
  · rcases update_open h' with ⟨rfl, _⟩ | ⟨_, hold'⟩
    · rfl
    · exact absurd (t.bounded _ _ hold') (Nat.lt_irrefl _)
  · rcases update_open h' with ⟨_, rfl⟩ | ⟨_, hold'⟩
    · exact absurd (t.bounded _ _ hold) (Nat.lt_irrefl _)
    · exact t.single fd fd' k hold hold'

/-- A system call has returned the descriptor `n`, which refers to a new opening. -/
def opened (t : DescriptorTable) (n : Nat) : DescriptorTable where
  refers := Function.update t.refers n (some t.openings)
  openings := t.openings + 1
  nonneg := t.open_nonneg n
  bounded := t.open_bounded n
  single := t.open_single n

/-- What the kernel may return: a descriptor that is not open, or -1. -/
def Available (t : DescriptorTable) : Option Nat → Prop
  | some n => t.refers n = none
  | none => True

instance (t : DescriptorTable) : (r : Option Nat) → Decidable (t.Available r)
  | some n => inferInstanceAs (Decidable (t.refers n = none))
  | none => .isTrue trivial

/-- The return value of the system call. -/
def result : Option Nat → Int
  | some n => n
  | none => -1

theorem refers_opened_self : (t.opened n).refers n = some t.openings :=
  Function.update_self _ _ _

theorem refers_opened_of_ne (h : fd ≠ n) : (t.opened n).refers fd = t.refers fd :=
  Function.update_of_ne h _ _

/-- What is open stays open. -/
theorem refers_opened (havail : t.refers n = none) (h : t.refers fd = some k) :
    (t.opened n).refers fd = some k := by
  have hne : fd ≠ n := by
    rintro rfl
    rw [havail] at h
    cases h
  rw [refers_opened_of_ne hne]
  exact h

theorem refers_of_opened (h : (t.opened n).refers fd = some k) :
    (fd = n ∧ k = t.openings) ∨ (fd ≠ n ∧ t.refers fd = some k) := update_open h

/-! ### Closing -/

theorem of_update_none (h : Function.update t.refers fd none fd' = some k) :
    fd' ≠ fd ∧ t.refers fd' = some k := by
  by_cases hfd : fd' = fd
  · rw [hfd, Function.update_self] at h
    cases h
  · rw [Function.update_of_ne hfd] at h
    exact ⟨hfd, h⟩

theorem close_nonneg (t : DescriptorTable) (fd fd' : Int) (k : Nat)
    (h : Function.update t.refers fd none fd' = some k) : 0 ≤ fd' :=
  t.nonneg fd' k (of_update_none h).2

theorem close_bounded (t : DescriptorTable) (fd fd' : Int) (k : Nat)
    (h : Function.update t.refers fd none fd' = some k) : k < t.openings :=
  t.bounded fd' k (of_update_none h).2

theorem close_single (t : DescriptorTable) (fd fd₁ fd₂ : Int) (k : Nat)
    (h₁ : Function.update t.refers fd none fd₁ = some k)
    (h₂ : Function.update t.refers fd none fd₂ = some k) : fd₁ = fd₂ :=
  t.single fd₁ fd₂ k (of_update_none h₁).2 (of_update_none h₂).2

def close (t : DescriptorTable) (fd : Int) : DescriptorTable where
  refers := Function.update t.refers fd none
  openings := t.openings
  nonneg := t.close_nonneg fd
  bounded := t.close_bounded fd
  single := t.close_single fd

theorem refers_close_of_ne (h : fd' ≠ fd) : (t.close fd).refers fd' = t.refers fd' :=
  Function.update_of_ne h _ _

theorem refers_of_close (h : (t.close fd).refers fd' = some k) :
    fd' ≠ fd ∧ t.refers fd' = some k := of_update_none h

/-- **After its close no descriptor refers to the opening.** -/
theorem refers_close_ne (h : t.refers fd = some k) (fd' : Int) :
    (t.close fd).refers fd' ≠ some k := by
  intro h'
  obtain ⟨hne, hold⟩ := refers_of_close h'
  exact hne (t.single fd' fd k hold h)

/-- The other openings keep their descriptors. -/
theorem refers_close (h : t.refers fd' = some k) (hfd : t.refers fd ≠ some k) :
    (t.close fd).refers fd' = some k := by
  have hne : fd' ≠ fd := by
    rintro rfl
    exact hfd h
  rw [refers_close_of_ne hne]
  exact h

end DescriptorTable
