/-
  Kaycc/PeriodicWord.lean
  =======================
  **Prefixes of a repeated word.**

  A word that is a prefix of itself behind `w` is a prefix of `w`, repeated
  (`prefix_power`), and has no other letters than `w` (`mem_of_prefix_power`).  Two
  parties that return to each other what they have received, each after a word of
  its own, get such words (`unroll`).
-/
import Mathlib.Data.List.Basic

namespace PeriodicWord

variable {β : Type*} {u v w a b : List β} {n : Nat}

def power (w : List β) (n : Nat) : List β := (List.replicate n w).flatten

@[simp] theorem power_succ (w : List β) (n : Nat) : power w (n + 1) = w ++ power w n := by
  rw [power, List.replicate_succ, List.flatten_cons]
  rfl

theorem le_length_power (hw : w ≠ []) (n : Nat) : n ≤ (power w n).length := by
  induction n with
  | zero => exact Nat.zero_le _
  | succ n ih =>
    have hpos := List.length_pos_iff.mpr hw
    rw [power_succ, List.length_append]
    omega

theorem mem_power {c : β} (h : c ∈ power w n) : c ∈ w := by
  obtain ⟨l, hl, hc⟩ := List.mem_flatten.mp h
  rw [← (List.mem_replicate.mp hl).2]
  exact hc

theorem prefix_power_append (h : u <+: w ++ u) (n : Nat) : u <+: power w n ++ u := by
  induction n with
  | zero => exact List.prefix_refl _
  | succ n ih =>
    rw [power_succ, List.append_assoc]
    exact h.trans ((List.prefix_append_right_inj w).mpr ih)

/-- **A word that is a prefix of itself behind `w` repeats `w`.** -/
theorem prefix_power (hw : w ≠ []) (h : u <+: w ++ u) : u <+: power w u.length :=
  List.prefix_of_prefix_length_le (prefix_power_append h u.length) (List.prefix_append _ _)
    (le_length_power hw u.length)

theorem mem_of_prefix_power {c : β} (h : u <+: power w n) (hc : c ∈ u) : c ∈ w :=
  mem_power (h.subset hc)

/-- Two words each of which is a prefix of a word before the other. -/
theorem unroll (hu : u <+: a ++ v) (hv : v <+: b ++ u) : u <+: a ++ b ++ u := by
  rw [List.append_assoc]
  exact hu.trans ((List.prefix_append_right_inj a).mpr hv)

end PeriodicWord
