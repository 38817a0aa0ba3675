/-
  Kaycc/Monitor.lean
  ==================
  **A mutex with condition variables, and what its signals guarantee.**

  A `Monitor` is one mutex and a family of condition variables with the usual
  (Mesa) semantics: `wait` releases the mutex and blocks, a signal only moves a
  blocked thread to the woken ones, and a woken thread goes on when it has the
  mutex again.  A signal without a blocked thread is lost, and a blocked thread
  may be woken without a signal.

  The program's threads are tied to the monitor by `Follows`: a thread is outside,
  inside the critical section, or in a wait, and each operation moves one thread.
  Two counting arguments are stated once here.  `Backed m c n k` says that nobody
  is blocked at `c` in vain: with `n` units there and one more promised by each
  woken thread there are at least `k`.  `Attended m c ws` says that not all of the
  threads `ws` are blocked at `c`.
-/
import Mathlib.Data.Finset.Card

structure Monitor (τ κ : Type*) where
  holder : Option τ
  waiting : κ → Finset τ   -- blocked at the condition variable
  woken : κ → Finset τ     -- woken there, and still to lock the mutex again

namespace Monitor

variable {τ κ : Type*} {m : Monitor τ κ} {t u : τ} {c d : κ}

def free : Monitor τ κ := ⟨none, fun _ => ∅, fun _ => ∅⟩

def lock (m : Monitor τ κ) (t : τ) : Monitor τ κ := { m with holder := some t }

def unlock (m : Monitor τ κ) : Monitor τ κ := { m with holder := none }

@[simp] theorem lock_holder : (m.lock t).holder = some t := rfl
@[simp] theorem lock_waiting : (m.lock t).waiting = m.waiting := rfl
@[simp] theorem lock_woken : (m.lock t).woken = m.woken := rfl
@[simp] theorem unlock_holder : m.unlock.holder = none := rfl
@[simp] theorem unlock_waiting : m.unlock.waiting = m.waiting := rfl
@[simp] theorem unlock_woken : m.unlock.woken = m.woken := rfl

/-! ### The threads and their monitor -/

/-- Where a thread is, as far as the monitor is concerned. -/
inductive Place (κ : Type*) where
  | outside
  | inside
  | waits (c : κ)
deriving DecidableEq

structure Follows (m : Monitor τ κ) (place : τ → Place κ) : Prop where
  inside : ∀ t, place t = .inside ↔ m.holder = some t
  waits : ∀ t c, place t = .waits c ↔ t ∈ m.waiting c ∨ t ∈ m.woken c
  apart : ∀ t c, t ∈ m.waiting c → t ∉ m.woken c

variable {place : τ → Place κ}

theorem follows_free (h : ∀ t, place t = .outside) : Follows (free : Monitor τ κ) place where
  inside := fun t => by simp [h, free]
  waits := fun t c => by simp [h, free]
  apart := fun t c => by simp [free]

/-- **Mutual exclusion.** -/
theorem Follows.exclusive (h : m.Follows place) (ht : place t = .inside)
    (hu : place u = .inside) : t = u :=
  Option.some.inj (((h.inside t).mp ht).symm.trans ((h.inside u).mp hu))

theorem Follows.waiting (h : m.Follows place) (ht : t ∈ m.waiting c) : place t = .waits c :=
  (h.waits t c).mpr (.inl ht)

theorem Follows.woken (h : m.Follows place) (ht : t ∈ m.woken c) : place t = .waits c :=
  (h.waits t c).mpr (.inr ht)

/-- A thread that is not in a wait is neither blocked nor woken anywhere. -/
theorem Follows.not_waiting (h : m.Follows place) (ht : place t ≠ .waits c) :
    t ∉ m.waiting c ∧ t ∉ m.woken c := by
  rw [← not_or]
  exact fun hmem => ht ((h.waits t c).mpr hmem)

variable [DecidableEq τ]

/-- A step of a thread that stays where it is. -/
theorem Follows.stay (h : m.Follows place) {p : Place κ} (ht : place t = p) :
    m.Follows (Function.update place t p) := by
  rw [← ht, Function.update_eq_self]
  exact h

theorem Follows.lock (h : m.Follows place) (ht : place t = .outside) (hfree : m.holder = none) :
    (m.lock t).Follows (Function.update place t .inside) where
  inside := by
    intro u
    by_cases hu : u = t
    · subst hu
      simp
    · have hnot : place u ≠ .inside := by
        rw [Ne, h.inside u, hfree]
        simp
      simp [hu, hnot, Ne.symm hu]
  waits := by
    intro u c
    by_cases hu : u = t
    · subst hu
      have hnot := h.not_waiting (t := u) (c := c) (by simp [ht])
      simp [hnot]
    · simpa [hu] using h.waits u c
  apart := h.apart

theorem Follows.unlock (h : m.Follows place) (ht : place t = .inside) :
    m.unlock.Follows (Function.update place t .outside) where
  inside := by
    intro u
    by_cases hu : u = t
    · subst hu
      simp
    · have hnot : place u ≠ .inside := fun hin => hu (h.exclusive hin ht)
      simp [hu, hnot]
  waits := by
    intro u c
    by_cases hu : u = t
    · subst hu
      have hnot := h.not_waiting (t := u) (c := c) (by simp [ht])
      simp [hnot]
    · simpa [hu] using h.waits u c
  apart := h.apart

/-! ### The condition variables -/

/-- Whom a signal wakes: some blocked thread, or nobody when there is none. -/
def Signals (m : Monitor τ κ) (c : κ) : Option τ → Prop
  | some t => t ∈ m.waiting c
  | none => m.waiting c = ∅

variable [DecidableEq κ]

/-- The thread that holds the mutex releases it and blocks. -/
def wait (m : Monitor τ κ) (c : κ) (t : τ) : Monitor τ κ :=
  { m with
    holder := none
    waiting := Function.update m.waiting c (insert t (m.waiting c)) }

/-- A blocked thread is woken. -/
def wake (m : Monitor τ κ) (c : κ) (t : τ) : Monitor τ κ :=
  { m with
    waiting := Function.update m.waiting c ((m.waiting c).erase t)
    woken := Function.update m.woken c (insert t (m.woken c)) }

omit [DecidableEq τ] [DecidableEq κ] in
theorem exists_signals (m : Monitor τ κ) (c : κ) : ∃ o, m.Signals c o := by
  rcases Finset.eq_empty_or_nonempty (m.waiting c) with h | ⟨t, ht⟩
  · exact ⟨none, h⟩
  · exact ⟨some t, ht⟩

def signal (m : Monitor τ κ) (c : κ) : Option τ → Monitor τ κ
  | some t => m.wake c t
  | none => m

def broadcast (m : Monitor τ κ) (c : κ) : Monitor τ κ :=
  { m with
    waiting := Function.update m.waiting c ∅
    woken := Function.update m.woken c (m.waiting c ∪ m.woken c) }

/-- A woken thread has the mutex again. -/
def relock (m : Monitor τ κ) (c : κ) (t : τ) : Monitor τ κ :=
  { m with
    holder := some t
    woken := Function.update m.woken c ((m.woken c).erase t) }

instance (m : Monitor τ κ) (c : κ) : (o : Option τ) → Decidable (m.Signals c o)
  | some t => inferInstanceAs (Decidable (t ∈ m.waiting c))
  | none => inferInstanceAs (Decidable (m.waiting c = ∅))

/-! ### What each operation changes -/

@[simp] theorem wait_holder : (m.wait c t).holder = none := rfl
@[simp] theorem wait_woken : (m.wait c t).woken = m.woken := rfl
@[simp] theorem wake_holder : (m.wake c t).holder = m.holder := rfl
@[simp] theorem broadcast_holder : (m.broadcast c).holder = m.holder := rfl
@[simp] theorem relock_holder : (m.relock c t).holder = some t := rfl
@[simp] theorem relock_waiting : (m.relock c t).waiting = m.waiting := rfl

@[simp] theorem signal_holder (o : Option τ) : (m.signal c o).holder = m.holder := by
  cases o <;> rfl

@[simp] theorem mem_wait_waiting :
    u ∈ (m.wait c t).waiting d ↔ (d = c ∧ u = t) ∨ u ∈ m.waiting d := by
  by_cases h : d = c
  · subst h
    simp [wait]
  · simp [wait, h]

@[simp] theorem mem_wake_waiting :
    u ∈ (m.wake c t).waiting d ↔ u ∈ m.waiting d ∧ ¬ (d = c ∧ u = t) := by
  by_cases h : d = c
  · subst h
    simp [wake, and_comm]
  · simp [wake, h]

@[simp] theorem mem_wake_woken :
    u ∈ (m.wake c t).woken d ↔ (d = c ∧ u = t) ∨ u ∈ m.woken d := by
  by_cases h : d = c
  · subst h
    simp [wake]
  · simp [wake, h]

@[simp] theorem mem_broadcast_waiting :
    u ∈ (m.broadcast c).waiting d ↔ d ≠ c ∧ u ∈ m.waiting d := by
  by_cases h : d = c
  · subst h
    simp [broadcast]
  · simp [broadcast, h]

@[simp] theorem mem_broadcast_woken :
    u ∈ (m.broadcast c).woken d ↔ (d = c ∧ u ∈ m.waiting d) ∨ u ∈ m.woken d := by
  by_cases h : d = c
  · subst h
    simp [broadcast]
  · simp [broadcast, h]

@[simp] theorem mem_relock_woken :
    u ∈ (m.relock c t).woken d ↔ u ∈ m.woken d ∧ ¬ (d = c ∧ u = t) := by
  by_cases h : d = c
  · subst h
    simp [relock, and_comm]
  · simp [relock, h]

theorem wait_waiting_other (h : d ≠ c) : (m.wait c t).waiting d = m.waiting d := by
  simp [wait, h]

theorem signal_waiting_other (o : Option τ) (h : d ≠ c) :
    (m.signal c o).waiting d = m.waiting d := by
  cases o with
  | none => rfl
  | some t => simp [signal, wake, h]

theorem signal_woken_other (o : Option τ) (h : d ≠ c) : (m.signal c o).woken d = m.woken d := by
  cases o with
  | none => rfl
  | some t => simp [signal, wake, h]

theorem broadcast_waiting_other (h : d ≠ c) : (m.broadcast c).waiting d = m.waiting d := by
  simp [broadcast, h]

theorem broadcast_woken_other (h : d ≠ c) : (m.broadcast c).woken d = m.woken d := by
  simp [broadcast, h]

theorem relock_woken_other (h : d ≠ c) : (m.relock c t).woken d = m.woken d := by
  simp [relock, h]

/-! ### Each operation moves its thread -/

theorem Follows.wait (h : m.Follows place) (ht : place t = .inside) :
    (m.wait c t).Follows (Function.update place t (.waits c)) where
  inside := by
    intro u
    by_cases hu : u = t
    · subst hu
      simp
    · have hnot : place u ≠ .inside := fun hin => hu (h.exclusive hin ht)
      simp [hu, hnot]
  waits := by
    intro u d
    by_cases hu : u = t
    · subst hu
      have hnot := h.not_waiting (t := u) (c := d) (by simp [ht])
      simp [hnot, eq_comm]
    · simpa [hu] using h.waits u d
  apart := by
    intro u d hmem
    rcases mem_wait_waiting.mp hmem with ⟨rfl, rfl⟩ | hmem
    · exact (h.not_waiting (by simp [ht])).2
    · exact h.apart u d hmem

theorem Follows.wake (h : m.Follows place) (ht : t ∈ m.waiting c) :
    (m.wake c t).Follows place where
  inside := h.inside
  waits := by
    intro u d
    rw [h.waits u d, mem_wake_waiting, mem_wake_woken]
    by_cases hu : d = c ∧ u = t
    · obtain ⟨rfl, rfl⟩ := hu
      simp [ht]
    · simp [hu]
  apart := by
    intro u d hmem
    obtain ⟨hmem, hne⟩ := mem_wake_waiting.mp hmem
    rw [mem_wake_woken, not_or]
    exact ⟨hne, h.apart u d hmem⟩

theorem Follows.signal (h : m.Follows place) {o : Option τ} (ho : m.Signals c o) :
    (m.signal c o).Follows place := by
  cases o with
  | some t => exact h.wake ho
  | none => exact h

theorem Follows.broadcast (h : m.Follows place) : (m.broadcast c).Follows place where
  inside := h.inside
  waits := by
    intro u d
    rw [h.waits u d, mem_broadcast_waiting, mem_broadcast_woken]
    by_cases hd : d = c
    · subst hd
      simp
    · simp [hd]
  apart := by
    intro u d hmem
    obtain ⟨hne, hmem⟩ := mem_broadcast_waiting.mp hmem
    rw [mem_broadcast_woken, not_or]
    exact ⟨fun hand => hne hand.1, h.apart u d hmem⟩

theorem Follows.relock (h : m.Follows place) (ht : t ∈ m.woken c) (hfree : m.holder = none) :
    (m.relock c t).Follows (Function.update place t .inside) where
  inside := by
    intro u
    by_cases hu : u = t
    · subst hu
      simp
    · have hnot : place u ≠ .inside := by
        rw [Ne, h.inside u, hfree]
        simp
      simp [hu, hnot, Ne.symm hu]
  waits := by
    intro u d
    by_cases hu : u = t
    · subst hu
      have hplace : place u = .waits c := h.woken ht
      by_cases hd : d = c
      · subst hd
        have hnot : u ∉ m.waiting d := fun hmem => h.apart u d hmem ht
        simp [hnot]
      · have hnot := h.not_waiting (t := u) (c := d) (by simp [hplace, Ne.symm hd])
        simp [hnot]
    · simpa [hu] using h.waits u d
  apart := by
    intro u d hmem hmem'
    exact h.apart u d hmem (mem_relock_woken.mp hmem').1

/-! ### Nobody is blocked in vain -/

/-- If a thread is blocked at `c`, then `n` and the threads woken at `c` make up `k`. -/
def Backed (m : Monitor τ κ) (c : κ) (n k : Nat) : Prop :=
  (m.waiting c).Nonempty → k ≤ n + (m.woken c).card

omit [DecidableEq τ] [DecidableEq κ] in
theorem Backed.of_eq {m' : Monitor τ κ} {n k : Nat} (h : m.Backed c n k)
    (hwaiting : m'.waiting c = m.waiting c) (hwoken : m'.woken c = m.woken c) :
    m'.Backed c n k := by
  simp only [Backed, hwaiting, hwoken]
  exact h

omit [DecidableEq τ] [DecidableEq κ] in
theorem Backed.mono {n n' k : Nat} (h : m.Backed c n k) (hle : n ≤ n') : m.Backed c n' k :=
  fun hne => (h hne).trans (Nat.add_le_add_right hle _)

/-- A thread blocks when there is enough. -/
theorem backed_wait {n k : Nat} (h : k ≤ n) : (m.wait c t).Backed c n k :=
  fun _ => h.trans (Nat.le_add_right _ _)

theorem card_wake_woken (ht : t ∉ m.woken c) :
    ((m.wake c t).woken c).card = (m.woken c).card + 1 := by
  simp [wake, Finset.card_insert_of_notMem ht]

/-- One unit is taken away and its signal given. -/
theorem Backed.signal {n k : Nat} {o : Option τ} (h : m.Backed c (n + 1) k)
    (hm : m.Follows place) (ho : m.Signals c o) : (m.signal c o).Backed c n k := by
  cases o with
  | none =>
    intro hne
    rw [show (m.signal c none).waiting c = ∅ from ho] at hne
    exact absurd hne Finset.not_nonempty_empty
  | some t =>
    intro _
    have hk := h ⟨t, ho⟩
    change k ≤ n + ((m.wake c t).woken c).card
    rw [card_wake_woken (hm.apart t c ho)]
    omega

/-- A thread is woken without a signal. -/
theorem Backed.wake {n k : Nat} (h : m.Backed c n k) (hm : m.Follows place)
    (ht : t ∈ m.waiting c) : (m.wake c t).Backed c n k :=
  Backed.signal (o := some t) (h.mono (Nat.le_succ n)) hm ht

/-- What a woken thread promised is now counted as a unit. -/
theorem Backed.relock {n k : Nat} (h : m.Backed c n k) (ht : t ∈ m.woken c) :
    (m.relock c t).Backed c (n + 1) k := by
  intro hne
  have hk := h hne
  have hpos : 0 < (m.woken c).card := Finset.card_pos.mpr ⟨t, ht⟩
  have hcard : ((m.relock c t).woken c).card = (m.woken c).card - 1 := by
    simp [Monitor.relock, Finset.card_erase_of_mem ht]
  rw [hcard]
  omega

/-! ### Not everybody is blocked -/

/-- Some thread of `ws` is not blocked at `c`. -/
def Attended (m : Monitor τ κ) (c : κ) (ws : List τ) : Prop := ∃ w ∈ ws, w ∉ m.waiting c

variable {ws : List τ}

omit [DecidableEq τ] [DecidableEq κ] in
theorem Attended.of_subset {m' : Monitor τ κ} (h : m.Attended c ws)
    (hsub : m'.waiting c ⊆ m.waiting c) : m'.Attended c ws := by
  obtain ⟨w, hw, hnot⟩ := h
  exact ⟨w, hw, fun hmem => hnot (hsub hmem)⟩

theorem wake_subset : (m.wake c t).waiting d ⊆ m.waiting d :=
  fun _ hu => (mem_wake_waiting.mp hu).1

theorem broadcast_subset : (m.broadcast c).waiting d ⊆ m.waiting d :=
  fun _ hu => (mem_broadcast_waiting.mp hu).2

theorem signal_subset (o : Option τ) : (m.signal c o).waiting d ⊆ m.waiting d := by
  cases o with
  | none => exact fun _ hu => hu
  | some t => exact wake_subset

/-- **A signal attends.**  After it one of the threads is not blocked, when they are
    the only ones to block there. -/
theorem attended_signal {o : Option τ} (hne : ws ≠ []) (hws : ∀ u ∈ m.waiting c, u ∈ ws)
    (ho : m.Signals c o) : (m.signal c o).Attended c ws := by
  cases o with
  | some t => exact ⟨t, hws t ho, by simp [signal]⟩
  | none =>
    obtain ⟨w, hw⟩ := List.exists_mem_of_ne_nil ws hne
    have hempty : m.waiting c = ∅ := ho
    exact ⟨w, hw, by simp [signal, hempty]⟩

end Monitor
