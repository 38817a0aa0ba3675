/-
  Kaycc/Occurrence.lean
  =====================
  **First occurrences of a pattern.**

  `first pat l p` is where `pat` first occurs in `l` at or behind `p`, and
  `first_eq_some` and `first_eq_none` say all there is to know of it.  A search may
  start behind any stretch that begins no occurrence (`first_skip`), what it finds is not
  changed by elements added at the end (`first_append`), and one that found nothing can
  be taken up again shortly before the old end (`absent_append`).
-/
import Mathlib.Data.List.Basic

namespace Occurrence

variable {α : Type*} {pat l m : List α} {i j p q : Nat}

/-! ### Where a pattern occurs -/

theorem length_of_occurs (hpat : pat ≠ []) (h : pat <+: l.drop i) :
    i + pat.length ≤ l.length := by
  have hle := h.length_le
  have hpos := List.length_pos_iff.mpr hpat
  rw [List.length_drop] at hle
  omega

/-- An occurrence in `l ++ m` that ends within `l`. -/
theorem occurs_append (h : i + pat.length ≤ l.length) :
    pat <+: (l ++ m).drop i ↔ pat <+: l.drop i := by
  rw [List.drop_append_of_le_length (by omega)]
  constructor
  · intro hocc
    refine List.prefix_of_prefix_length_le hocc (List.prefix_append _ _) ?_
    rw [List.length_drop]
    omega
  · exact List.prefix_append_of_prefix

/-- `pat` occurs at `i`, and nowhere between `p` and `i`. -/
structure FirstAt (pat l : List α) (p i : Nat) : Prop where
  le : p ≤ i
  occurs : pat <+: l.drop i
  absent : ∀ j, p ≤ j → j < i → ¬ pat <+: l.drop j

theorem FirstAt.unique (hi : FirstAt pat l p i) (hj : FirstAt pat l p j) : i = j := by
  rcases Nat.lt_trichotomy i j with hlt | heq | hgt
  · exact absurd hi.occurs (hj.absent i hi.le hlt)
  · exact heq
  · exact absurd hj.occurs (hi.absent j hj.le hgt)

variable [DecidableEq α]

/-- How many elements come before the first occurrence: all of them when there is none. -/
def search (pat : List α) : List α → Nat
  | [] => 0
  | x :: l => if pat <+: x :: l then 0 else search pat l + 1

theorem search_le (pat l : List α) : search pat l ≤ l.length := by
  induction l with
  | nil => exact Nat.le_refl 0
  | cons x l ih =>
    simp only [search, List.length_cons]
    split
    · exact Nat.zero_le _
    · exact Nat.succ_le_succ ih

theorem absent_search (hj : j < search pat l) : ¬ pat <+: l.drop j := by
  induction l generalizing j with
  | nil => exact absurd hj (Nat.not_lt_zero j)
  | cons x l ih =>
    simp only [search] at hj
    split at hj
    · exact absurd hj (Nat.not_lt_zero j)
    · rename_i hno
      cases j with
      | zero => exact hno
      | succ j => exact ih (Nat.lt_of_succ_lt_succ hj)

theorem occurs_search (h : search pat l < l.length) : pat <+: l.drop (search pat l) := by
  induction l with
  | nil => exact absurd h (Nat.lt_irrefl 0)
  | cons x l ih =>
    simp only [search] at h ⊢
    split
    · assumption
    · rename_i hno
      rw [if_neg hno] at h
      exact ih (Nat.lt_of_succ_lt_succ h)

/-- A pattern of one element. -/
theorem idxOf?_eq_search (c : α) (l : List α) :
    l.idxOf? c = if search [c] l = l.length then none else some (search [c] l) := by
  induction l with
  | nil => rfl
  | cons x l ih =>
    rw [List.idxOf?_cons]
    by_cases hx : x = c
    · subst hx
      simp [search]
    · have hno : ¬ [c] <+: x :: l := by simp [Ne.symm hx]
      simp only [beq_iff_eq, hx, if_false, search, hno, ih, List.length_cons,
        Nat.add_right_cancel_iff]
      split
      · rfl
      · rfl

/-! ### The first occurrence at or behind a place -/

def first (pat l : List α) (p : Nat) : Option Nat :=
  if search pat (l.drop p) = (l.drop p).length then none else some (p + search pat (l.drop p))

/-- What comes before the first occurrence behind `p`. -/
theorem absent_drop (hj : p ≤ j) (hlater : j < p + search pat (l.drop p)) :
    ¬ pat <+: l.drop j := by
  have hbefore : j - p < search pat (l.drop p) := by omega
  have habsent := absent_search hbefore
  rwa [List.drop_drop, Nat.add_sub_cancel' hj] at habsent

theorem firstAt_search (h : search pat (l.drop p) < (l.drop p).length) :
    FirstAt pat l p (p + search pat (l.drop p)) where
  le := Nat.le_add_right p _
  occurs := by
    rw [← List.drop_drop]
    exact occurs_search h
  absent := fun _ => absent_drop

theorem first_eq_none (hpat : pat ≠ []) :
    first pat l p = none ↔ ∀ j, p ≤ j → ¬ pat <+: l.drop j := by
  unfold first
  split
  · rename_i hend
    refine ⟨fun _ j hj hocc => ?_, fun _ => rfl⟩
    have hlen := length_of_occurs hpat hocc
    have hpos := List.length_pos_iff.mpr hpat
    refine absent_drop hj ?_ hocc
    rw [hend, List.length_drop]
    omega
  · rename_i hne
    have hfirst := firstAt_search (Nat.lt_of_le_of_ne (search_le pat (l.drop p)) hne)
    constructor
    · intro hcon
      cases hcon
    · intro hno
      exact absurd hfirst.occurs (hno _ hfirst.le)

theorem first_eq_some (hpat : pat ≠ []) : first pat l p = some i ↔ FirstAt pat l p i := by
  have hsound (k : Nat) (hk : first pat l p = some k) : FirstAt pat l p k := by
    unfold first at hk
    split at hk
    · cases hk
    · rename_i hne
      obtain rfl := Option.some.inj hk
      exact firstAt_search (Nat.lt_of_le_of_ne (search_le pat (l.drop p)) hne)
  refine ⟨hsound i, fun hi => ?_⟩
  cases hfirst : first pat l p with
  | none => exact absurd hi.occurs ((first_eq_none hpat).mp hfirst i hi.le)
  | some k => rw [(hsound k hfirst).unique hi]

/-- **A search may start behind a stretch without an occurrence.** -/
theorem first_skip (hpat : pat ≠ []) (hq : p ≤ q)
    (hno : ∀ j, p ≤ j → j < q → ¬ pat <+: l.drop j) : first pat l q = first pat l p := by
  refine Option.ext fun i => ?_
  rw [first_eq_some hpat, first_eq_some hpat]
  constructor
  · intro hi
    refine ⟨Nat.le_trans hq hi.le, hi.occurs, fun j hj hlt => ?_⟩
    by_cases hjq : j < q
    · exact hno j hj hjq
    · exact hi.absent j (Nat.not_lt.mp hjq) hlt
  · intro hi
    refine ⟨?_, hi.occurs, fun j hj hlt => hi.absent j (Nat.le_trans hq hj) hlt⟩
    by_cases hiq : i < q
    · exact absurd hi.occurs (hno i hi.le hiq)
    · exact Nat.not_lt.mp hiq

/-- **What has been found stays** when elements are added at the end. -/
theorem first_append (hpat : pat ≠ []) (h : first pat l p = some i) (m : List α) :
    first pat (l ++ m) p = some i := by
  have hi := (first_eq_some hpat).mp h
  have hend := length_of_occurs hpat hi.occurs
  refine (first_eq_some hpat).mpr ⟨hi.le, (occurs_append hend).mpr hi.occurs, fun j hj hlt => ?_⟩
  rw [occurs_append (by omega)]
  exact hi.absent j hj hlt

/-- Where nothing has been found, what is added at the end makes no occurrence that would
    end before it. -/
theorem absent_append (hpat : pat ≠ []) (h : first pat l p = none) (hj : p ≤ j)
    (hend : j + pat.length ≤ l.length) (m : List α) : ¬ pat <+: (l ++ m).drop j := by
  rw [occurs_append hend]
  exact (first_eq_none hpat).mp h j hj

/-- Places in the rest of a sequence. -/
theorem first_drop (pat l : List α) (n k : Nat) :
    first pat (l.drop n) k = (first pat l (n + k)).map (· - n) := by
  unfold first
  rw [List.drop_drop]
  split
  · rfl
  · rw [Option.map_some, Nat.add_assoc, Nat.add_sub_cancel_left]

end Occurrence
