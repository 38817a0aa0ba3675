/-
  Kaycc/OrderedSet.lean
  =====================
  **`std::set` as a strictly sorted list.**

  The order is part of the value: a set that is not strictly sorted cannot be
  built.  `insert` and `erase` answer as the C++ members do, with whether the
  element was inserted and with how many were erased; `lowerBound` is the place
  of the first element that is not less than the argument, given as the elements
  before it and those from it on.  Each operation comes with what it does to
  membership and to the size, and later proofs use nothing else.
-/
import Mathlib.Data.List.Sort

structure OrderedSet (α : Type*) [LinearOrder α] where
  toList : List α
  sorted : toList.Pairwise (· < ·)
deriving DecidableEq

namespace OrderedSet

variable {α : Type*} [LinearOrder α] {s : OrderedSet α} {a x : α}

def empty : OrderedSet α := ⟨[], List.Pairwise.nil⟩

instance : Membership α (OrderedSet α) := ⟨fun s a => a ∈ s.toList⟩

instance (a : α) (s : OrderedSet α) : Decidable (a ∈ s) :=
  inferInstanceAs (Decidable (a ∈ s.toList))

theorem mem_def : a ∈ s ↔ a ∈ s.toList := Iff.rfl

def size (s : OrderedSet α) : Nat := s.toList.length

/-- `*s.begin()`, when there is one. -/
def begin? (s : OrderedSet α) : Option α := s.toList.head?

theorem nodup (s : OrderedSet α) : s.toList.Nodup := s.sorted.imp ne_of_lt

@[simp] theorem notMem_empty (a : α) : a ∉ (empty : OrderedSet α) := List.not_mem_nil

@[simp] theorem size_empty : (empty : OrderedSet α).size = 0 := rfl

/-! ### The least element -/

theorem begin?_eq_none : s.begin? = none ↔ ∀ x, x ∉ s := by
  rw [begin?, List.head?_eq_none_iff, List.eq_nil_iff_forall_not_mem]
  rfl

theorem begin?_mem (h : s.begin? = some a) : a ∈ s := List.mem_of_head? h

theorem begin?_le (h : s.begin? = some a) (hx : x ∈ s) : a ≤ x := by
  obtain ⟨l, hl⟩ := s
  cases l with
  | nil => cases h
  | cons b rest =>
    obtain rfl : b = a := Option.some.inj h
    rcases List.mem_cons.mp hx with rfl | hx
    · exact le_refl _
    · exact le_of_lt (List.rel_of_pairwise_cons hl hx)

/-! ### Insertion -/

theorem sorted_orderedInsert {l : List α} (hl : l.Pairwise (· < ·)) (ha : a ∉ l) :
    (l.orderedInsert (· ≤ ·) a).Pairwise (· < ·) := by
  have hle : (l.orderedInsert (· ≤ ·) a).Pairwise (· ≤ ·) :=
    List.Pairwise.orderedInsert a l (hl.imp le_of_lt)
  have hnodup : (l.orderedInsert (· ≤ ·) a).Nodup :=
    (List.perm_orderedInsert (· ≤ ·) a l).nodup_iff.mpr
      (List.nodup_cons.mpr ⟨ha, hl.imp ne_of_lt⟩)
  exact hle.imp₂ (fun _ _ => lt_of_le_of_ne) hnodup

/-- `insert`: the set, and whether the element is new. -/
def insert (s : OrderedSet α) (a : α) : OrderedSet α × Bool :=
  if h : a ∈ s then (s, false)
  else (⟨s.toList.orderedInsert (· ≤ ·) a, sorted_orderedInsert s.sorted h⟩, true)

@[simp] theorem insert_snd : (s.insert a).2 = true ↔ a ∉ s := by
  unfold insert
  split <;> simp [*]

@[simp] theorem mem_insert : x ∈ (s.insert a).1 ↔ x = a ∨ x ∈ s := by
  unfold insert
  split
  · rename_i h
    constructor
    · exact .inr
    · rintro (rfl | hx)
      · exact h
      · exact hx
  · exact List.mem_orderedInsert (· ≤ ·)

theorem size_insert (h : a ∉ s) : (s.insert a).1.size = s.size + 1 := by
  unfold insert size
  rw [dif_neg h]
  exact List.orderedInsert_length (· ≤ ·) _ _

/-! ### Erasure -/

/-- `erase`: the set, and how many elements were erased. -/
def erase (s : OrderedSet α) (a : α) : OrderedSet α × Nat :=
  if a ∈ s then (⟨s.toList.erase a, s.sorted.sublist List.erase_sublist⟩, 1) else (s, 0)

theorem erase_snd (h : a ∈ s) : (s.erase a).2 = 1 := by
  unfold erase
  rw [if_pos h]

@[simp] theorem mem_erase : x ∈ (s.erase a).1 ↔ x ≠ a ∧ x ∈ s := by
  unfold erase
  split
  · exact s.nodup.mem_erase_iff
  · rename_i h
    constructor
    · intro hx
      exact ⟨fun heq => h (heq ▸ hx), hx⟩
    · exact And.right

theorem size_erase (h : a ∈ s) : (s.erase a).1.size + 1 = s.size := by
  unfold erase size
  rw [if_pos h]
  have hpos : 0 < s.toList.length := List.length_pos_of_mem h
  have hlen : (s.toList.erase a).length = s.toList.length - 1 := List.length_erase_of_mem h
  simp only [hlen]
  omega

/-! ### The lower bound -/

/-- The elements before `s.lower_bound(a)`. -/
def beforeLowerBound (s : OrderedSet α) (a : α) : List α := s.toList.takeWhile (· < a)

/-- The set once the elements before `s.lower_bound(a)` are erased. -/
def fromLowerBound (s : OrderedSet α) (a : α) : OrderedSet α :=
  ⟨s.toList.dropWhile (· < a), s.sorted.sublist (List.dropWhile_sublist _)⟩

theorem before_append_from (s : OrderedSet α) (a : α) :
    s.beforeLowerBound a ++ (s.fromLowerBound a).toList = s.toList :=
  List.takeWhile_append_dropWhile

theorem before_sorted (s : OrderedSet α) (a : α) :
    (s.beforeLowerBound a).Pairwise (· < ·) :=
  s.sorted.sublist (List.takeWhile_sublist _)

theorem mem_before : x ∈ s.beforeLowerBound a ↔ x ∈ s ∧ x < a := by
  obtain ⟨l, hl⟩ := s
  change x ∈ l.takeWhile (· < a) ↔ x ∈ l ∧ x < a
  induction l with
  | nil => simp
  | cons b rest ih =>
    have hrest := ih (List.Pairwise.of_cons hl)
    by_cases hb : b < a
    · simp only [List.takeWhile_cons, hb, decide_true, if_true, List.mem_cons, hrest]
      constructor
      · rintro (rfl | h)
        · exact ⟨.inl rfl, hb⟩
        · exact ⟨.inr h.1, h.2⟩
      · rintro ⟨rfl | h, hx⟩
        · exact .inl rfl
        · exact .inr ⟨h, hx⟩
    · -- everything from `b` on is at least `b`
      simp only [List.takeWhile_cons, hb, decide_false, Bool.false_eq_true, if_false,
        List.not_mem_nil, List.mem_cons, false_iff, not_and]
      rintro (rfl | h) hx
      · exact hb hx
      · exact hb (lt_trans (List.rel_of_pairwise_cons hl h) hx)

theorem mem_from : x ∈ s.fromLowerBound a ↔ x ∈ s ∧ ¬ x < a := by
  have hsplit : x ∈ s ↔ x ∈ s.beforeLowerBound a ∨ x ∈ s.fromLowerBound a := by
    rw [mem_def, ← before_append_from s a, List.mem_append]
    rfl
  have hdisj : x ∈ s.beforeLowerBound a → x ∉ s.fromLowerBound a := by
    intro hb hf
    have hnodup := s.nodup
    rw [← before_append_from s a] at hnodup
    exact List.disjoint_of_nodup_append hnodup hb hf
  rw [mem_before] at hsplit hdisj
  constructor
  · intro hf
    exact ⟨hsplit.mpr (.inr hf), fun hlt => hdisj ⟨hsplit.mpr (.inr hf), hlt⟩ hf⟩
  · rintro ⟨hx, hlt⟩
    rcases hsplit.mp hx with h | h
    · exact absurd h.2 hlt
    · exact h

/-- When a predicate is "less than `a`" on the set, the split is the filter by it. -/
theorem before_eq_filter {p : α → Prop} [DecidablePred p] (h : ∀ x ∈ s, x < a ↔ p x) :
    s.beforeLowerBound a = s.toList.filter p := by
  refine (before_sorted s a).eq_of_mem_iff (s.sorted.filter _) fun x => ?_
  rw [mem_before, List.mem_filter, decide_eq_true_eq]
  exact and_congr_right (h x)

theorem from_eq_filter {p : α → Prop} [DecidablePred p] (h : ∀ x ∈ s, ¬ x < a ↔ p x) :
    (s.fromLowerBound a).toList = s.toList.filter p := by
  refine (s.fromLowerBound a).sorted.eq_of_mem_iff (s.sorted.filter _) fun x => ?_
  rw [← mem_def, mem_from, List.mem_filter, decide_eq_true_eq]
  exact and_congr_right (h x)

theorem size_before_from (s : OrderedSet α) (a : α) :
    (s.beforeLowerBound a).length + (s.fromLowerBound a).size = s.size := by
  rw [size, size, ← before_append_from s a, List.length_append]

end OrderedSet
