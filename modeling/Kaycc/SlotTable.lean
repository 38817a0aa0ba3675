/-
  Kaycc/SlotTable.lean
  ====================
  **Slots whose owners know their positions.**

  A dense list of slots, each owned by one key, and an index that says where the
  slot of a key is.  A new key is given a slot at the end; a slot is overwritten in
  place; a slot is removed by moving the last one into it, after which the moved
  slot's owner must learn its new position.  `Indexed` says that index and slots
  are inverse to each other, and each operation keeps it.

  Nothing here mentions a particular program.
-/
import Mathlib.Data.Finset.Card
import Mathlib.Data.List.Basic
import Mathlib.Logic.Function.Basic

namespace SlotTable

variable {α κ : Type*} {owner : α → κ} {index : κ → Option Nat} {slots : List α}
  {a b : α} {k : κ} {i : Nat}

/-- Put the last slot in the place of slot `i`. -/
def swapRemove (slots : List α) (i : Nat) : List α :=
  match slots.getLast? with
  | some last => (slots.set i last).dropLast
  | none => []

/-- The index is the inverse of ownership. -/
structure Indexed (owner : α → κ) (index : κ → Option Nat) (slots : List α) : Prop where
  slot : ∀ {k i}, index k = some i → ∃ a, slots[i]? = some a ∧ owner a = k
  index : ∀ {i a}, slots[i]? = some a → index (owner a) = some i

theorem Indexed.nil : Indexed owner (fun _ => none) [] where
  slot := fun h => by cases h
  index := fun h => by simp at h

theorem Indexed.lt (h : Indexed owner index slots) (hk : index k = some i) :
    i < slots.length := by
  rcases h.slot hk with ⟨a, ha, _⟩
  exact (List.getElem?_eq_some_iff.mp ha).1

/-- A slot is where its owner's index says. -/
theorem Indexed.getElem_of_mem (h : Indexed owner index slots) (ha : a ∈ slots)
    (hk : index (owner a) = some i) : slots[i]? = some a := by
  rcases List.mem_iff_getElem?.mp ha with ⟨j, hj⟩
  have hij : i = j := Option.some.inj (hk.symm.trans (h.index hj))
  rw [hij]
  exact hj

/-- A key owns one slot. -/
theorem Indexed.owner_injective {j : Nat} (h : Indexed owner index slots)
    (ha : slots[i]? = some a) (hb : slots[j]? = some b) (hab : owner a = owner b) : i = j := by
  have hi := h.index ha
  rw [hab, h.index hb] at hi
  exact (Option.some.inj hi).symm

theorem Indexed.index_ne_none (h : Indexed owner index slots) (ha : a ∈ slots) :
    index (owner a) ≠ none := by
  rcases List.mem_iff_getElem?.mp ha with ⟨j, hj⟩
  rw [h.index hj]
  simp

theorem Indexed.nodup_owner (h : Indexed owner index slots) : (slots.map owner).Nodup := by
  rw [List.nodup_iff_pairwise_ne, List.pairwise_map, List.pairwise_iff_getElem]
  intro i j hi hj hij heq
  have := h.owner_injective (List.getElem?_eq_getElem hi) (List.getElem?_eq_getElem hj) heq
  omega

/-- The slots may change in anything but their owners. -/
theorem Indexed.congr_owner {slots' : List α} (h : Indexed owner index slots)
    (heq : slots'.map owner = slots.map owner) : Indexed owner index slots' := by
  have hget : ∀ j : Nat, (slots'[j]?).map owner = (slots[j]?).map owner := by
    intro j
    rw [← List.getElem?_map, heq, List.getElem?_map]
  constructor
  · intro k i hk
    obtain ⟨a, ha, howner⟩ := h.slot hk
    have hi := hget i
    rw [ha, Option.map_some, howner] at hi
    exact Option.map_eq_some_iff.mp hi
  · intro i a ha
    have hi := hget i
    rw [ha, Option.map_some] at hi
    obtain ⟨b, hb, howner⟩ := Option.map_eq_some_iff.mp hi.symm
    rw [← howner]
    exact h.index hb

variable [DecidableEq κ]

/-- There are as many keys as slots. -/
theorem Indexed.card_keys (h : Indexed owner index slots) :
    ∃ keys : Finset κ, (∀ k, k ∈ keys ↔ index k ≠ none) ∧ keys.card = slots.length := by
  refine ⟨(slots.map owner).toFinset, fun k => ?_, ?_⟩
  · rw [List.mem_toFinset, List.mem_map]
    constructor
    · rintro ⟨a, ha, rfl⟩
      exact h.index_ne_none ha
    · intro hk
      obtain ⟨i, hi⟩ := Option.ne_none_iff_exists'.mp hk
      obtain ⟨a, ha, howner⟩ := h.slot hi
      exact ⟨a, List.mem_of_getElem? ha, howner⟩
  · rw [List.toFinset_card_of_nodup h.nodup_owner, List.length_map]

/-- A new key gets the slot at the end. -/
theorem Indexed.push (h : Indexed owner index slots) (hk : index k = none) (ha : owner a = k) :
    Indexed owner (Function.update index k (some slots.length)) (slots ++ [a]) := by
  constructor
  · intro k' i hi
    by_cases hkk : k' = k
    · subst hkk
      rw [Function.update_self, Option.some.injEq] at hi
      subst hi
      exact ⟨a, by simp, ha⟩
    · rw [Function.update_of_ne hkk] at hi
      rcases h.slot hi with ⟨b, hb, howner⟩
      refine ⟨b, ?_, howner⟩
      rw [List.getElem?_append_left (h.lt hi)]
      exact hb
  · intro i b hb
    by_cases hi : i < slots.length
    · rw [List.getElem?_append_left hi] at hb
      have hindex := h.index hb
      have hne : owner b ≠ k := by
        intro heq
        rw [heq, hk] at hindex
        cases hindex
      rw [Function.update_of_ne hne]
      exact hindex
    · have hlen : i = slots.length := by
        have := (List.getElem?_eq_some_iff.mp hb).1
        simp only [List.length_append, List.length_singleton] at this
        omega
      subst hlen
      obtain rfl : a = b := by simpa using hb
      rw [ha, Function.update_self]

omit [DecidableEq κ] in
/-- The slot of a key is overwritten. -/
theorem Indexed.set (h : Indexed owner index slots) (hk : index k = some i) (ha : owner a = k) :
    Indexed owner index (slots.set i a) := by
  constructor
  · intro k' j hj
    by_cases hij : i = j
    · subst hij
      rcases h.slot hk with ⟨b, hb, hbowner⟩
      rcases h.slot hj with ⟨b', hb', hbowner'⟩
      obtain rfl : b = b' := Option.some.inj (hb.symm.trans hb')
      refine ⟨a, ?_, ha.trans (hbowner.symm.trans hbowner')⟩
      rw [List.getElem?_set_self (h.lt hk)]
    · rcases h.slot hj with ⟨b, hb, hbowner⟩
      refine ⟨b, ?_, hbowner⟩
      rw [List.getElem?_set_ne hij]
      exact hb
  · intro j b hb
    by_cases hij : i = j
    · subst hij
      rw [List.getElem?_set_self (h.lt hk)] at hb
      obtain rfl : a = b := Option.some.inj hb
      rw [ha]
      exact hk
    · rw [List.getElem?_set_ne hij] at hb
      exact h.index hb

omit [DecidableEq κ] in
theorem getElem?_swapRemove (hlast : slots.getLast? = some b) (hi : i < slots.length) (j : Nat) :
    (swapRemove slots i)[j]? =
      if j + 1 < slots.length then if j = i then some b else slots[j]? else none := by
  simp only [swapRemove, hlast]
  rw [List.getElem?_dropLast, List.length_set]
  by_cases hj : j + 1 < slots.length
  · rw [if_pos (by omega), if_pos hj]
    by_cases hij : j = i
    · subst hij
      rw [List.getElem?_set_self hi, if_pos rfl]
    · rw [List.getElem?_set_ne (Ne.symm hij), if_neg hij]
  · rw [if_neg (by omega), if_neg hj]

theorem mem_of_mem_swapRemove (h : a ∈ swapRemove slots i) : a ∈ slots := by
  unfold swapRemove at h
  split at h
  · rename_i last hlast
    rcases List.mem_or_eq_of_mem_set ((List.dropLast_sublist _).subset h) with hmem | rfl
    · exact hmem
    · exact List.mem_of_getLast? hlast
  · cases h

/-- A slot is removed: the last one takes its place, and the owner of that one is told. -/
theorem Indexed.swapRemove (h : Indexed owner index slots) (hk : index k = some i)
    (hlast : slots.getLast? = some b) :
    Indexed owner (Function.update (Function.update index (owner b) (some i)) k none)
      (swapRemove slots i) := by
  have hi : i < slots.length := h.lt hk
  have hend : slots[slots.length - 1]? = some b := by
    rw [← List.getLast?_eq_getElem?]
    exact hlast
  have hlt : ∀ {j}, j < slots.length → j ≠ slots.length - 1 → j + 1 < slots.length := by omega
  rcases h.slot hk with ⟨a, ha, haowner⟩
  constructor
  · intro k' j hj
    by_cases hkk : k' = k
    · rw [hkk, Function.update_self] at hj
      cases hj
    · rw [Function.update_of_ne hkk] at hj
      by_cases hkb : k' = owner b
      · -- the slot that was moved
        rw [hkb, Function.update_self, Option.some.injEq] at hj
        subst hj
        have hne : i ≠ slots.length - 1 := by
          rintro rfl
          exact hkk (hkb.trans ((congrArg owner (Option.some.inj (hend.symm.trans ha))).trans
            haowner))
        refine ⟨b, ?_, hkb.symm⟩
        rw [getElem?_swapRemove hlast hi, if_pos (hlt hi hne), if_pos rfl]
      · rw [Function.update_of_ne hkb] at hj
        rcases h.slot hj with ⟨c, hc, hcowner⟩
        have hjend : j ≠ slots.length - 1 := by
          rintro rfl
          exact hkb (hcowner.symm.trans (congrArg owner (Option.some.inj (hc.symm.trans hend))))
        have hji : j ≠ i := by
          rintro rfl
          exact hkk (hcowner.symm.trans ((congrArg owner (Option.some.inj (hc.symm.trans ha))).trans
            haowner))
        refine ⟨c, ?_, hcowner⟩
        rw [getElem?_swapRemove hlast hi, if_pos (hlt (h.lt hj) hjend), if_neg hji]
        exact hc
  · intro j c hc
    rw [getElem?_swapRemove hlast hi] at hc
    split at hc
    · rename_i hjlt
      split at hc
      · rename_i hji
        obtain rfl : b = c := Option.some.inj hc
        have hne : owner b ≠ k := by
          intro heq
          have := h.owner_injective ha hend (haowner.trans heq.symm)
          omega
        rw [Function.update_of_ne hne, Function.update_self, hji]
      · rename_i hji
        have hne : owner c ≠ k :=
          fun heq => hji (h.owner_injective hc ha (heq.trans haowner.symm))
        have hneb : owner c ≠ owner b := by
          intro heq
          have := h.owner_injective hc hend heq
          omega
        rw [Function.update_of_ne hne, Function.update_of_ne hneb]
        exact h.index hc
    · cases hc

end SlotTable
