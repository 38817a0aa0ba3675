/-
  Kaycc/Postcondition.lean
  ========================
  **Postconditions of computations that may stop.**

  `Ends P E x` says how an `Except` computation ends: with a result in `P`, or with
  an error in `E`.  Unlike an equation for `x` it need not say which, so a function
  can be specified without deciding which of its checks hold.

  The rules follow the computation: `Ends.bind` for a sequence, `ends_ite` for a
  choice, `Ends.mono` for a weaker conclusion; `Ends.of_ok` and `Ends.of_error` give
  back what is known of a result.
-/
import Mathlib.Tactic.TypeStar

namespace Postcondition

universe u v

variable {α β : Type u} {ε : Type v} {P P' : α → Prop} {Q : β → Prop} {E E' : ε → Prop} {x y : Except ε α}

/-- `x` ends with a result in `P` or stops with an error in `E`. -/
def Ends (P : α → Prop) (E : ε → Prop) : Except ε α → Prop
  | .ok a => P a
  | .error e => E e

/-! ### From a specification -/

theorem Ends.of_ok {a : α} (h : Ends P E x) (hx : x = .ok a) : P a := by
  rw [hx] at h
  exact h

theorem Ends.of_error {e : ε} (h : Ends P E x) (hx : x = .error e) : E e := by
  rw [hx] at h
  exact h

theorem Ends.mono (h : Ends P E x) (hP : ∀ a, P a → P' a) (hE : ∀ e, E e → E' e) :
    Ends P' E' x := by
  cases x with
  | ok a => exact hP a h
  | error e => exact hE e h

/-- A weaker conclusion about the result. -/
theorem Ends.imp (h : Ends P E x) (hP : ∀ a, P a → P' a) : Ends P' E x := h.mono hP fun _ => id

/-! ### Of a computation -/

theorem ends_ok {a : α} (h : P a) : Ends P E (.ok a : Except ε α) := h

theorem ends_of_eq {a : α} (hx : x = .ok a) (h : P a) : Ends P E x := by
  rw [hx]
  exact h

theorem Ends.bind {f : α → Except ε β} (h : Ends P E x) (hf : ∀ a, P a → Ends Q E (f a)) :
    Ends Q E (x >>= f) := by
  cases x with
  | ok a => exact hf a h
  | error e => exact h

theorem ends_ite {c : Prop} [Decidable c] (hx : c → Ends P E x) (hy : ¬ c → Ends P E y) :
    Ends P E (if c then x else y) := by
  split
  · rename_i hc
    exact hx hc
  · rename_i hc
    exact hy hc

/-- What is known of the errors, and of the results separately. -/
theorem ends_iff : Ends P E x ↔ (∀ a, x = .ok a → P a) ∧ ∀ e, x = .error e → E e := by
  constructor
  · intro h
    exact ⟨fun _ => h.of_ok, fun _ => h.of_error⟩
  · rintro ⟨hP, hE⟩
    cases x with
    | ok a => exact hP a rfl
    | error e => exact hE e rfl

end Postcondition
