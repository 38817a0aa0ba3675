/-
  Kaycc/Interleaving.lean
  =======================
  **Interleavings of the programs of several sources.**

  Every element of a list is tagged with the source it comes from; `project` gives
  back what one source has contributed.  A list `Merges` a program for each source
  when every projection is the program: the order of each source is kept, and how
  the sources are mixed is left open.

  Elements may pass through several stages, `done ++ queued ++ underWay`, and the
  rules say which moves keep the whole a merge: an element is added at the end
  (`Merges.append`), or before elements of other sources (`Merges.insert`), or it
  moves to the front of those under way, of which each source has one at most
  (`Merges.handOver`).
-/
import Mathlib.Data.List.Nodup

namespace Interleaving

variable {τ β γ : Type*} {t : τ} {l a b new : List (τ × β)} {p : τ → List β}

/-! ### Elements that carry several -/

/-- Each element is replaced by those that it carries, with its tag. -/
def expand (f : γ → List β) (l : List (τ × γ)) : List (τ × β) :=
  l.flatMap fun e => (f e.2).map (Prod.mk e.1)

@[simp] theorem expand_append (f : γ → List β) (k k' : List (τ × γ)) :
    expand f (k ++ k') = expand f k ++ expand f k' := List.flatMap_append

theorem expand_singleton (f : γ → List β) (e : τ × γ) :
    expand f [e] = (f e.2).map (Prod.mk e.1) := List.flatMap_singleton _ e

variable [DecidableEq τ]

/-- What one source has contributed to a list. -/
def project (t : τ) (l : List (τ × β)) : List β :=
  (l.filter fun e => e.1 = t).map Prod.snd

@[simp] theorem project_append : project t (a ++ b) = project t a ++ project t b := by
  simp only [project, List.filter_append, List.map_append]

theorem project_cons (e : τ × β) (l : List (τ × β)) :
    project t (e :: l) = project t [e] ++ project t l := by
  rw [← List.singleton_append, project_append]

@[simp] theorem project_self (x : β) : project t [(t, x)] = [x] := by
  simp [project]

theorem project_of_ne {e : τ × β} (h : e.1 ≠ t) : project t [e] = [] := by
  simp [project, h]

theorem project_eq_nil (h : ∀ e ∈ l, e.1 ≠ t) : project t l = [] := by
  induction l with
  | nil => rfl
  | cons e rest ih =>
    rw [project_cons, project_of_ne (h e List.mem_cons_self),
      ih fun e' he' => h e' (.tail _ he'), List.append_nil]

/-- Where each source has one element at most, any of them may come first. -/
theorem project_eraseIdx {i : Nat} {e : τ × β} (hnodup : (l.map Prod.fst).Nodup)
    (he : l[i]? = some e) : project t l = project t [e] ++ project t (l.eraseIdx i) := by
  induction l generalizing i with
  | nil => cases he
  | cons d rest ih =>
    cases i with
    | zero =>
      obtain rfl : d = e := by simpa using he
      exact project_cons d rest
    | succ i =>
      obtain ⟨hnot, hrest⟩ := List.nodup_cons.mp hnodup
      have he' : rest[i]? = some e := by simpa using he
      have hmem : e.1 ∈ rest.map Prod.fst := List.mem_map_of_mem (List.mem_of_getElem? he')
      have hne : d.1 ≠ e.1 := fun h => hnot (h ▸ hmem)
      rw [List.eraseIdx_cons_succ, project_cons d rest, project_cons d (rest.eraseIdx i),
        ih hrest he']
      by_cases hd : d.1 = t
      · rw [project_of_ne (fun h => hne (hd.trans h.symm)), List.nil_append, List.nil_append]
      · rw [project_of_ne hd, List.nil_append, List.nil_append]

theorem project_tagged (xs : List β) : project t (xs.map (Prod.mk t)) = xs := by
  induction xs with
  | nil => rfl
  | cons x rest ih => rw [List.map_cons, project_cons, project_self, ih, List.singleton_append]

theorem project_expand (f : γ → List β) (k : List (τ × γ)) :
    project t (expand f k) = (project t k).flatMap f := by
  induction k with
  | nil => rfl
  | cons e rest ih =>
    have hone : project t (expand f [e]) = (project t [e]).flatMap f := by
      rw [expand_singleton]
      by_cases he : e.1 = t
      · obtain ⟨s, c⟩ := e
        obtain rfl : s = t := he
        rw [project_tagged, project_self, List.flatMap_singleton]
      · rw [project_of_ne he, project_eq_nil]
        · rfl
        · intro d hd
          obtain ⟨x, -, rfl⟩ := List.mem_map.mp hd
          exact he
    rw [← List.singleton_append, expand_append, project_append, project_append, List.flatMap_append,
      hone, ih]

/-! ### Merges -/

/-- The list is an interleaving of the programs. -/
def Merges (l : List (τ × β)) (p : τ → List β) : Prop := ∀ t, project t l = p t

/-- The programs after the sources have gone on with the elements of a list. -/
def extend (p : τ → List β) (new : List (τ × β)) : τ → List β := fun t => p t ++ project t new

theorem Merges.append (h : Merges l p) (new : List (τ × β)) : Merges (l ++ new) (extend p new) := by
  intro t
  rw [project_append, h t]
  rfl

theorem Merges.insert (h : Merges (a ++ b) p)
    (hb : ∀ t, project t new = [] ∨ project t b = []) : Merges (a ++ new ++ b) (extend p new) := by
  intro t
  have hall := h t
  rw [project_append] at hall
  rw [project_append, project_append, extend, ← hall]
  rcases hb t with hnil | hnil
  · rw [hnil, List.append_nil, List.append_nil]
  · rw [hnil, List.append_nil, List.append_nil]

theorem Merges.handOver {f : γ → List β} {k : List (τ × γ)} {i : Nat} {e : τ × γ}
    (h : Merges (a ++ expand f k) p) (hnodup : (k.map Prod.fst).Nodup) (he : k[i]? = some e) :
    Merges (a ++ expand f [e] ++ expand f (k.eraseIdx i)) p := by
  intro t
  rw [← h t, project_append, project_append, project_append, project_expand, project_expand,
    project_expand, project_eraseIdx hnodup he, List.flatMap_append, List.append_assoc]

end Interleaving
