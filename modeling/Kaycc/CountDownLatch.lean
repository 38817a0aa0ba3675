/-
  Kaycc/CountDownLatch.lean
  =========================
  **`base/count_down_latch.cpp`: a latch that opens once.**

  Any number of threads call `wait` and `countDown`; a step is the next statement
  of one of them.  `notifyAll` is called on the transition of `count_` to zero and
  never again, so nobody would wake a thread that blocks later.  None does:
  `count_` only falls, so that whoever tests it after the transition goes on
  (`Inv.opened`), and a thread that is still blocked at the transition is woken
  before the mutex is free (`Inv.notified`).

  `count_` is an integer without bounds; `count_fits` says that an `int` holds it.
-/
import Kaycc.Assertion
import Kaycc.Monitor
import Kaycc.Transition
import Mathlib.Algebra.Group.Int.Defs
import Mathlib.Algebra.Group.Nat.Defs

namespace Kaycc

open Transition Transition.System

namespace CountDownLatch

/-- The next statement of a thread. -/
inductive Point where
  | user           -- outside the latch
  -- wait()
  | waitLock
  | waitTest       -- while (count_ > 0)
  | waitWait       -- in condition_.wait()
  | waitUnlock     -- past the loop
  -- countDown()
  | downLock
  | downDecrement  -- --count_
  | downTest       -- if (count_ == 0)
  | downNotify     -- condition_.notifyAll()
  | downUnlock
deriving DecidableEq, Repr

end CountDownLatch

open CountDownLatch in
structure CountDownLatch (τ : Type) where
  monitor : Monitor τ Unit       -- mutex_, condition_
  count : Int
  point : τ → Point
  decremented : Nat              -- how often --count_ has been executed

namespace CountDownLatch

variable {τ : Type} [DecidableEq τ]

/-- `CountDownLatch(count)`. -/
def new (count : Int) : CountDownLatch τ where
  monitor := Monitor.free
  count := count
  point := fun _ => .user
  decremented := 0

/-- The thread goes on to its next statement. -/
def goto (s : CountDownLatch τ) (t : τ) (p : Point) : CountDownLatch τ :=
  { s with point := Function.update s.point t p }

def withMonitor (s : CountDownLatch τ) (m : Monitor τ Unit) : CountDownLatch τ :=
  { s with monitor := m }

/-- `--count_`. -/
def decrement (s : CountDownLatch τ) : CountDownLatch τ :=
  { s with count := s.count - 1, decremented := s.decremented + 1 }

/-- The call of `wait`. -/
def wait (s : CountDownLatch τ) (t : τ) : CountDownLatch τ := s.goto t .waitLock

/-- The call of `countDown`. -/
def countDown (s : CountDownLatch τ) (t : τ) : CountDownLatch τ := s.goto t .downLock

/-- The thread's next statement. -/
def run (s : CountDownLatch τ) (t : τ) : CountDownLatch τ :=
  match s.point t with
  | .user => s
  | .waitLock => (s.withMonitor (s.monitor.lock t)).goto t .waitTest
  | .waitTest =>
      if 0 < s.count then (s.withMonitor (s.monitor.wait () t)).goto t .waitWait
      else s.goto t .waitUnlock
  | .waitWait => (s.withMonitor (s.monitor.relock () t)).goto t .waitTest
  | .waitUnlock => (s.withMonitor s.monitor.unlock).goto t .user
  | .downLock => (s.withMonitor (s.monitor.lock t)).goto t .downDecrement
  | .downDecrement => s.decrement.goto t .downTest
  | .downTest => if s.count = 0 then s.goto t .downNotify else s.goto t .downUnlock
  | .downNotify => (s.withMonitor (s.monitor.broadcast ())).goto t .downUnlock
  | .downUnlock => (s.withMonitor s.monitor.unlock).goto t .user

/-- What the statement waits for. -/
def ready (s : CountDownLatch τ) (t : τ) : Point → Prop
  | .user => False
  | .waitLock | .downLock => s.monitor.holder = none
  | .waitWait => s.monitor.holder = none ∧ t ∈ s.monitor.woken ()
  | _ => True

/-! ### The steps of all threads -/

inductive Action (τ : Type) where
  | wait (t : τ)
  | countDown (t : τ)
  | run (t : τ)
  | wake (t : τ)        -- a spurious wakeup
deriving DecidableEq, Repr

def enabled (s : CountDownLatch τ) : Action τ → Prop
  | .wait t => s.point t = .user
  | .countDown t => s.point t = .user
  | .run t => s.ready t (s.point t)
  | .wake t => t ∈ s.monitor.waiting ()

def step (s : CountDownLatch τ) : Action τ → CountDownLatch τ
  | .wait t => s.wait t
  | .countDown t => s.countDown t
  | .run t => s.run t
  | .wake t => s.withMonitor (s.monitor.wake () t)

def system (τ : Type) [DecidableEq τ] (count : Int) :
    System (CountDownLatch τ) (Action τ) Assertion where
  init s := s = new count
  enabled := enabled
  step s act := .ok (s.step act)

instance (s : CountDownLatch τ) (t : τ) : (p : Point) → Decidable (s.ready t p)
  | .user => .isFalse id
  | .waitLock | .downLock => inferInstanceAs (Decidable (_ = none))
  | .waitWait => inferInstanceAs (Decidable (_ = none ∧ t ∈ s.monitor.woken ()))
  | .waitTest | .waitUnlock | .downDecrement | .downTest | .downNotify | .downUnlock =>
      .isTrue trivial

instance {count : Int} (s : CountDownLatch τ) :
    (act : Action τ) → Decidable ((system τ count).enabled s act)
  | .wait t => inferInstanceAs (Decidable (s.point t = .user))
  | .countDown t => inferInstanceAs (Decidable (s.point t = .user))
  | .run t => inferInstanceAs (Decidable (s.ready t (s.point t)))
  | .wake t => inferInstanceAs (Decidable (t ∈ s.monitor.waiting ()))

/-! ### The threads and the mutex -/

section

variable {s s' : CountDownLatch τ} {m : Monitor τ Unit} {t u : τ} {p : Point} {c : Int}

/-- Where the mutex sees a thread. -/
def Point.place : Point → Monitor.Place Unit
  | .user | .waitLock | .downLock => .outside
  | .waitWait => .waits ()
  | _ => .inside

def places (s : CountDownLatch τ) (t : τ) : Monitor.Place Unit := (s.point t).place

theorem places_goto : (s.goto t p).places = Function.update s.places t p.place := by
  funext u
  by_cases hu : u = t
  · subst hu
    simp [places, goto]
  · simp [places, goto, hu]

/-- What holds of every thread where it is, and of the moved one where it goes. -/
theorem forall_goto {P : Point → Prop} (h : ∀ u, P (s.point u)) (ht : P p) (u : τ) :
    P ((s.goto t p).point u) := by
  by_cases hu : u = t
  · subst hu
    simpa [goto] using ht
  · simpa [goto, hu] using h u

/-- The thread is about to test for zero, or to notify. -/
def Point.notifies : Point → Prop
  | .downTest | .downNotify => True
  | _ => False

omit [DecidableEq τ] in
theorem inside_of_notifies (h : (s.point t).notifies) : s.places t = .inside := by
  unfold places
  revert h
  cases s.point t <;> simp [Point.notifies, Point.place]

/-! ### The invariant -/

structure Inv (c : Int) (s : CountDownLatch τ) : Prop where
  follows : s.monitor.Follows s.places
  counted : s.count + s.decremented = c
  opened : ∀ t, s.point t = .waitUnlock → s.count ≤ 0
  notified : (s.monitor.waiting ()).Nonempty →
    0 < s.count ∨ s.count = 0 ∧ ∃ t, (s.point t).notifies

omit [DecidableEq τ] in
theorem new_inv (c : Int) : Inv c (new c : CountDownLatch τ) where
  follows := Monitor.follows_free fun _ => rfl
  counted := Int.add_zero c
  opened := fun t h => by cases h
  notified := fun h => absurd h Finset.not_nonempty_empty

/-- A thread that does not notify goes on, and nobody blocks while the latch is open. -/
theorem Inv.move (hi : Inv c s) (hm : m.Follows (Function.update s.places t p.place))
    (ht : ¬ (s.point t).notifies) (hopen : p = .waitUnlock → s.count ≤ 0)
    (hblocked : 0 < s.count ∨ m.waiting () ⊆ s.monitor.waiting ()) :
    Inv c ((s.withMonitor m).goto t p) where
  follows := by
    rw [places_goto]
    exact hm
  counted := hi.counted
  opened := forall_goto (P := fun q => q = .waitUnlock → s.count ≤ 0) hi.opened hopen
  notified := by
    intro hne
    rcases hblocked with hpos | hsub
    · exact .inl hpos
    · refine (hi.notified (hne.mono hsub)).imp_right ?_
      rintro ⟨hzero, u, hu⟩
      have hut : u ≠ t := by
        rintro rfl
        exact ht hu
      exact ⟨hzero, u, by simpa [goto, withMonitor, hut] using hu⟩

/-- A step of a thread that stays where the mutex sees it. -/
theorem Inv.goto (hi : Inv c s) (hp : p.place = s.places t) (ht : ¬ (s.point t).notifies)
    (hopen : p = .waitUnlock → s.count ≤ 0) : Inv c (s.goto t p) := by
  refine hi.move (m := s.monitor) ?_ ht hopen (.inr fun _ hu => hu)
  exact hi.follows.stay hp.symm

omit [DecidableEq τ] in
/-- The blocked threads are those for which the thread inside is about to notify. -/
theorem Inv.notifier (hi : Inv c s) (hin : s.places t = .inside)
    (hne : (s.monitor.waiting ()).Nonempty) (hcount : s.count ≤ 0) :
    s.count = 0 ∧ (s.point t).notifies := by
  rcases hi.notified hne with hpos | ⟨hzero, u, hu⟩
  · omega
  · obtain rfl := hi.follows.exclusive (inside_of_notifies hu) hin
    exact ⟨hzero, hu⟩

theorem Inv.decrement (hi : Inv c s) (hp : s.point t = .downDecrement) :
    Inv c (s.decrement.goto t .downTest) where
  follows := by
    rw [places_goto]
    exact hi.follows.stay (by simp [places, hp, Point.place])
  counted := by
    have := hi.counted
    change s.count - 1 + (s.decremented + 1 : Nat) = c
    omega
  opened := by
    refine forall_goto (P := fun q => q = .waitUnlock → s.count - 1 ≤ 0) (fun u hu => ?_) nofun
    have := hi.opened u hu
    omega
  notified := by
    intro hne
    have hpos : 0 < s.count := by
      by_contra hnot
      have hin : s.places t = .inside := by simp [places, hp, Point.place]
      have h := (hi.notifier hin hne (Int.not_lt.mp hnot)).2
      rw [hp] at h
      exact h
    change 0 < s.count - 1 ∨ s.count - 1 = 0 ∧ _
    rcases Int.lt_or_eq_of_le (show 1 ≤ s.count from hpos) with hmore | hone
    · exact .inl (by omega)
    · refine .inr ⟨by omega, t, ?_⟩
      simp [CountDownLatch.goto, Point.notifies]

/-- The test sees whether anybody can be blocked. -/
theorem Inv.downTest (hi : Inv c s) (hp : s.point t = .downTest) {q : Point}
    (hq : q.place = .inside) (hno : q ≠ .waitUnlock) (hzero : s.count = 0 → q.notifies) :
    Inv c (s.goto t q) where
  follows := by
    rw [places_goto, hq]
    exact hi.follows.stay (by simp [places, hp, Point.place])
  counted := hi.counted
  opened := forall_goto (P := fun q => q = .waitUnlock → s.count ≤ 0) hi.opened
    fun h => absurd h hno
  notified := by
    intro hne
    by_cases hpos : 0 < s.count
    · exact .inl hpos
    · have hin : s.places t = .inside := by simp [places, hp, Point.place]
      have h := (hi.notifier hin hne (Int.not_lt.mp hpos)).1
      refine .inr ⟨h, t, ?_⟩
      simpa [CountDownLatch.goto] using hzero h

/-- After the broadcast nobody is blocked. -/
theorem Inv.downNotify (hi : Inv c s) (hp : s.point t = .downNotify) :
    Inv c ((s.withMonitor (s.monitor.broadcast ())).goto t .downUnlock) where
  follows := by
    rw [places_goto]
    have h := hi.follows.broadcast (c := ())
    exact h.stay (by simp [places, hp, Point.place])
  counted := hi.counted
  opened := forall_goto (P := fun q => q = .waitUnlock → s.count ≤ 0) hi.opened nofun
  notified := by
    rintro ⟨u, hu⟩
    exact absurd rfl (Monitor.mem_broadcast_waiting.mp hu).1

/-! ### Every step keeps it -/

theorem Inv.run (hi : Inv c s) (hen : s.ready t (s.point t)) : Inv c (s.run t) := by
  have hplace : s.places t = (s.point t).place := rfl
  unfold CountDownLatch.run
  cases hp : s.point t with
  | user =>
    rw [hp] at hen
    exact hen.elim
  | waitLock =>
    rw [hp] at hplace hen
    exact hi.move (hi.follows.lock hplace hen) (by simp [hp, Point.notifies]) nofun
      (.inr fun _ hu => hu)
  | waitTest =>
    rw [hp] at hplace
    dsimp only
    split
    · rename_i hpos
      exact hi.move (hi.follows.wait hplace) (by simp [hp, Point.notifies]) nofun (.inl hpos)
    · rename_i hopen
      exact hi.goto hplace.symm (by simp [hp, Point.notifies]) fun _ => Int.not_lt.mp hopen
  | waitWait =>
    rw [hp] at hen
    exact hi.move (hi.follows.relock hen.2 hen.1) (by simp [hp, Point.notifies]) nofun
      (.inr fun _ hu => hu)
  | waitUnlock =>
    rw [hp] at hplace
    exact hi.move (hi.follows.unlock hplace) (by simp [hp, Point.notifies]) nofun
      (.inr fun _ hu => hu)
  | downLock =>
    rw [hp] at hplace hen
    exact hi.move (hi.follows.lock hplace hen) (by simp [hp, Point.notifies]) nofun
      (.inr fun _ hu => hu)
  | downDecrement => exact hi.decrement hp
  | downTest =>
    dsimp only
    split
    · exact hi.downTest hp rfl nofun fun _ => trivial
    · rename_i hno
      exact hi.downTest hp rfl nofun fun h => absurd h hno
  | downNotify => exact hi.downNotify hp
  | downUnlock =>
    rw [hp] at hplace
    exact hi.move (hi.follows.unlock hplace) (by simp [hp, Point.notifies]) nofun
      (.inr fun _ hu => hu)

theorem Inv.step {act : Action τ} (hi : Inv c s) (hen : s.enabled act) : Inv c (s.step act) := by
  cases act with
  | wait t =>
    have hp : s.point t = .user := hen
    exact hi.goto (by simp [places, hp, Point.place]) (by simp [hp, Point.notifies]) nofun
  | countDown t =>
    have hp : s.point t = .user := hen
    exact hi.goto (by simp [places, hp, Point.place]) (by simp [hp, Point.notifies]) nofun
  | run t => exact hi.run hen
  | wake t =>
    refine ⟨hi.follows.wake hen, hi.counted, hi.opened, fun hne => ?_⟩
    exact hi.notified (hne.mono Monitor.wake_subset)

theorem reachable_inv (h : (system τ c).Reachable s) : Inv c s := by
  refine h.invariant (fun s hinit => ?_) fun s act t hi hst => ?_
  · obtain rfl : s = new c := hinit
    exact new_inv c
  · obtain rfl := Except.ok.inj hst.2
    exact hi.step hst.1

/-! ### What follows -/

/-- The thread is in a call of `wait`. -/
def Point.inWait : Point → Bool
  | .waitLock | .waitTest | .waitWait | .waitUnlock => true
  | _ => false

/-- A thread in `wait` does not count down, and leaves it from behind the loop. -/
theorem run_inWait (ht : (s.point t).inWait = true) :
    (s.run t).decremented = s.decremented ∧
      (((s.run t).point t).inWait = true ∨
        s.point t = .waitUnlock ∧ (s.run t).point t = .user) := by
  unfold CountDownLatch.run
  cases hp : s.point t with
  | waitLock | waitWait => exact ⟨rfl, .inl (by simp [goto, Point.inWait])⟩
  | waitTest =>
    dsimp only
    split
    · exact ⟨rfl, .inl (by simp [goto, Point.inWait])⟩
    · exact ⟨rfl, .inl (by simp [goto, Point.inWait])⟩
  | waitUnlock => exact ⟨rfl, .inr ⟨rfl, by simp [goto]⟩⟩
  | _ =>
    rw [hp] at ht
    cases ht

theorem run_point_of_ne (h : u ≠ t) : (s.run t).point u = s.point u := by
  unfold CountDownLatch.run
  cases s.point t with
  | user => rfl
  | waitTest | downTest =>
    dsimp only
    split <;> simp [goto, withMonitor, h]
  | _ => simp [goto, withMonitor, decrement, h]

theorem decremented_le_run (s : CountDownLatch τ) (t : τ) :
    s.decremented ≤ (s.run t).decremented := by
  unfold CountDownLatch.run
  cases s.point t with
  | waitTest | downTest =>
    dsimp only
    split <;> exact Nat.le_refl _
  | downDecrement => exact Nat.le_succ _
  | _ => exact Nat.le_refl _

omit [DecidableEq τ] in
/-- **No `wait` passes its loop before the `c`-th `--count_`.** -/
theorem Inv.wait_passed (hi : Inv c s) (ht : s.point t = .waitUnlock) : c ≤ s.decremented := by
  have h₁ := hi.counted
  have h₂ := hi.opened t ht
  omega

theorem Inv.wait_returns (hi : Inv c s) (ht : (s.point t).inWait = true)
    (hret : (s.run t).point t = .user) : c ≤ s.decremented := by
  rcases (run_inWait ht).2 with hin | ⟨hp, -⟩
  · rw [hret] at hin
    cases hin
  · exact hi.wait_passed hp

omit [DecidableEq τ] in
/-- **Nobody stays blocked**: when the latch is open and the mutex free, every waiter has
    been woken. -/
theorem Inv.none_blocked (hi : Inv c s) (hopen : s.count ≤ 0) (hfree : s.monitor.holder = none) :
    s.monitor.waiting () = ∅ := by
  by_contra hne
  rcases hi.notified (Finset.nonempty_iff_ne_empty.mpr hne) with hpos | ⟨_, u, hu⟩
  · omega
  · rw [(hi.follows.inside u).mp (inside_of_notifies hu)] at hfree
    cases hfree

/-- `count_` only falls. -/
theorem step_count (s : CountDownLatch τ) (act : Action τ) : (s.step act).count ≤ s.count := by
  cases act with
  | run t =>
    change (s.run t).count ≤ s.count
    unfold CountDownLatch.run
    cases s.point t with
    | waitTest | downTest =>
      dsimp only
      split <;> exact Int.le_refl _
    | downDecrement => exact Int.sub_le_self _ (by decide)
    | _ => exact Int.le_refl _
  | _ => exact Int.le_refl _

/-- **Once open, the latch stays open.** -/
theorem open_of_run {acts : List (Action τ)} (h : (system τ c).Run s acts s')
    (hopen : s.count ≤ 0) : s'.count ≤ 0 := by
  refine h.preserves (P := fun s => s.count ≤ 0) (fun s act t hs hst => ?_) hopen
  obtain rfl := Except.ok.inj hst.2
  exact Int.le_trans (step_count s act) hs

omit [DecidableEq τ] in
/-- With fewer than 2^31 calls of `countDown` an `int` holds `count_`. -/
theorem Inv.count_fits (hi : Inv c s) (hc₀ : 1 ≤ c) (hc : c < 2 ^ 31)
    (hcalls : s.decremented < 2 ^ 31) : -2 ^ 31 ≤ s.count ∧ s.count < 2 ^ 31 := by
  have := hi.counted
  omega

end

end CountDownLatch

end Kaycc
