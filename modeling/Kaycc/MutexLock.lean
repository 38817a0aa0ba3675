/-
  Kaycc/MutexLock.lean
  ====================
  **`base/mutex.h` and `base/condition.h`: who holds the mutex, and who says so.**

  `MutexLock` keeps in `holder_` the thread that holds its mutex.  The two are
  written one after the other: `lock()` assigns `holder_` when it has the mutex,
  `unlock()` clears it before it gives the mutex back, and `Condition::wait` does
  both by an `UnassignGuard` around `pthread_cond_wait`.  Any thread may read
  `holder_` at any time, and so between the two.

  `holder_exact`: whoever asks, `isLockedByThisThread()` is true exactly of the
  thread that is between the two writes, and then that thread has the mutex.  This
  is what the models of `ThreadPool` and of the other users of a `Monitor` rely on
  when they ask the mutex itself.
-/
import Kaycc.Assertion
import Kaycc.Monitor
import Kaycc.Transition

namespace Kaycc

open Transition Transition.System

namespace MutexLock

/-- Where a thread is in the functions of the lock and of its conditions. -/
inductive Pc (κ : Type) where
  | outside
  | assigning                  -- lock(): pthread_mutex_lock has returned
  | inside
  | unlocking                  -- unlock(): holder_ is cleared
  | waiting (c : κ)            -- wait(): the guard has cleared holder_
  | blocked (c : κ)            -- in pthread_cond_wait, or in pthread_cond_timedwait
  | returned (c : κ)           -- it has returned, and the guard is still alive
deriving DecidableEq, Repr

def Pc.place {κ : Type} : Pc κ → Monitor.Place κ
  | .outside => .outside
  | .blocked c => .waits c
  | _ => .inside

end MutexLock

open MutexLock in
structure MutexLock (τ κ : Type) where
  monitor : Monitor τ κ        -- mutex_, and the pcond_ of each condition
  holder : Option τ            -- holder_, where 0 is nobody's id
  pc : τ → Pc κ

namespace MutexLock

variable {τ κ : Type}

def new : MutexLock τ κ := ⟨Monitor.free, none, fun _ => .outside⟩

/-- `isLockedByThisThread()`, called by `t`. -/
def isLockedByThisThread [DecidableEq τ] (s : MutexLock τ κ) (t : τ) : Bool :=
  decide (s.holder = some t)

variable [DecidableEq τ] [DecidableEq κ]

def goto (s : MutexLock τ κ) (t : τ) (p : Pc κ) : MutexLock τ κ :=
  { s with pc := Function.update s.pc t p }

def withMonitor (s : MutexLock τ κ) (m : Monitor τ κ) : MutexLock τ κ := { s with monitor := m }

def assignHolder (s : MutexLock τ κ) (t : τ) : MutexLock τ κ := { s with holder := some t }

def unassignHolder (s : MutexLock τ κ) : MutexLock τ κ := { s with holder := none }

inductive Action (τ κ : Type) where
  | lock (t : τ)                       -- pthread_mutex_lock
  | locked (t : τ)
  | assertLockByThisThread (t : τ)
  | unlocking (t : τ)
  | unlock (t : τ)                     -- pthread_mutex_unlock
  | wait (t : τ) (c : κ)               -- up to pthread_cond_wait
  | block (t : τ) (c : κ)
  | wake (t : τ) (c : κ)               -- without a notify, or when the time is over
  | relock (t : τ) (c : κ)             -- pthread_cond_wait returns
  | waited (t : τ) (c : κ)
  | notify (c : κ) (woken : Option τ)
  | notifyAll (c : κ)

def step (s : MutexLock τ κ) : Action τ κ → Except Assertion (MutexLock τ κ)
  | .lock t => .ok ((s.withMonitor (s.monitor.lock t)).goto t .assigning)
  | .locked t => .ok ((s.assignHolder t).goto t .inside)
  | .assertLockByThisThread t => do
      check (s.isLockedByThisThread t = true) .mutexLockedByThisThread
      pure s
  | .unlocking t => .ok (s.unassignHolder.goto t .unlocking)
  | .unlock t => .ok ((s.withMonitor s.monitor.unlock).goto t .outside)
  | .wait t c => .ok (s.unassignHolder.goto t (.waiting c))
  | .block t c => .ok ((s.withMonitor (s.monitor.wait c t)).goto t (.blocked c))
  | .wake t c => .ok (s.withMonitor (s.monitor.wake c t))
  | .relock t c => .ok ((s.withMonitor (s.monitor.relock c t)).goto t (.returned c))
  | .waited t _ => .ok ((s.assignHolder t).goto t .inside)
  | .notify c woken => .ok (s.withMonitor (s.monitor.signal c woken))
  | .notifyAll c => .ok (s.withMonitor (s.monitor.broadcast c))

/-- A thread calls `unlock`, `wait` and the assertion when `lock` has returned.  Any thread may
    notify, whether it has the lock or not. -/
def enabled (s : MutexLock τ κ) : Action τ κ → Prop
  | .lock t => s.pc t = .outside ∧ s.monitor.holder = none
  | .locked t => s.pc t = .assigning
  | .assertLockByThisThread t => s.pc t = .inside
  | .unlocking t => s.pc t = .inside
  | .unlock t => s.pc t = .unlocking
  | .wait t _ => s.pc t = .inside
  | .block t c => s.pc t = .waiting c
  | .wake t c => t ∈ s.monitor.waiting c
  | .relock t c => t ∈ s.monitor.woken c ∧ s.monitor.holder = none
  | .waited t c => s.pc t = .returned c
  | .notify c woken => s.monitor.Signals c woken
  | .notifyAll _ => True

variable (τ κ) in
def system : System (MutexLock τ κ) (Action τ κ) Assertion where
  init s := s = new
  enabled := enabled
  step := step

instance (s : MutexLock τ κ) : (a : Action τ κ) → Decidable ((system τ κ).enabled s a)
  | .lock _ => inferInstanceAs (Decidable (_ ∧ _))
  | .locked _ => inferInstanceAs (Decidable (_ = _))
  | .assertLockByThisThread _ => inferInstanceAs (Decidable (_ = _))
  | .unlocking _ => inferInstanceAs (Decidable (_ = _))
  | .unlock _ => inferInstanceAs (Decidable (_ = _))
  | .wait _ _ => inferInstanceAs (Decidable (_ = _))
  | .block _ _ => inferInstanceAs (Decidable (_ = _))
  | .wake t c => inferInstanceAs (Decidable (t ∈ s.monitor.waiting c))
  | .relock _ _ => inferInstanceAs (Decidable (_ ∧ _))
  | .waited _ _ => inferInstanceAs (Decidable (_ = _))
  | .notify c woken => inferInstanceAs (Decidable (s.monitor.Signals c woken))
  | .notifyAll _ => .isTrue trivial

/-! ### The invariant -/

section

variable {s t' : MutexLock τ κ} {t u : τ} {c : κ} {p : Pc κ}

def place (s : MutexLock τ κ) (t : τ) : Monitor.Place κ := (s.pc t).place

structure Inv (s : MutexLock τ κ) : Prop where
  follows : s.monitor.Follows s.place
  holder : ∀ t, s.holder = some t ↔ s.pc t = .inside

omit [DecidableEq τ] [DecidableEq κ] in
theorem new_inv : Inv (new : MutexLock τ κ) where
  follows := Monitor.follows_free fun _ => rfl
  holder := fun t => iff_of_false (fun h => by cases h) fun h => by cases h

omit [DecidableEq κ] in
theorem place_goto (s : MutexLock τ κ) (t : τ) (p : Pc κ) :
    (s.goto t p).place = Function.update s.place t p.place := by
  funext u
  by_cases hu : u = t
  · subst hu
    simp [place, goto]
  · simp [place, goto, hu]

omit [DecidableEq τ] [DecidableEq κ] in
theorem place_of_pc (h : s.pc t = p) : s.place t = p.place := congrArg Pc.place h

omit [DecidableEq κ] in
/-- The mutex changes hands, and `holder_` does not. -/
theorem Inv.moved {m : Monitor τ κ} (hi : Inv s) (ht : s.pc t ≠ .inside) (hp : p ≠ .inside)
    (hm : m.Follows (Function.update s.place t p.place)) : Inv ((s.withMonitor m).goto t p) where
  follows := by
    rw [place_goto]
    exact hm
  holder := by
    intro u
    by_cases hu : u = t
    · subst hu
      have hpc : ((s.withMonitor m).goto u p).pc u = p := Function.update_self ..
      rw [hpc]
      exact iff_of_false (fun h => ht ((hi.holder u).mp h)) hp
    · have hpc : ((s.withMonitor m).goto t p).pc u = s.pc u := Function.update_of_ne hu ..
      rw [hpc]
      exact hi.holder u

omit [DecidableEq κ] in
/-- `holder_` is assigned by the thread that has the mutex. -/
theorem Inv.assign (hi : Inv s) (ht : s.place t = .inside) :
    Inv ((s.assignHolder t).goto t .inside) where
  follows := by
    rw [place_goto]
    exact hi.follows.stay ht
  holder := by
    intro u
    by_cases hu : u = t
    · subst hu
      exact iff_of_true rfl (Function.update_self ..)
    · have hpc : ((s.assignHolder t).goto t .inside).pc u = s.pc u := Function.update_of_ne hu ..
      rw [hpc]
      refine iff_of_false (fun h => hu (Option.some.inj h).symm) fun h => ?_
      exact hu (hi.follows.exclusive (place_of_pc h) ht)

omit [DecidableEq κ] in
/-- `holder_` is cleared by the thread that has the mutex. -/
theorem Inv.unassign (hi : Inv s) (ht : s.place t = .inside) (hp : p.place = .inside)
    (hne : p ≠ .inside) : Inv (s.unassignHolder.goto t p) where
  follows := by
    rw [place_goto, hp]
    exact hi.follows.stay ht
  holder := by
    intro u
    refine iff_of_false (fun h => by cases h) fun h => ?_
    by_cases hu : u = t
    · subst hu
      have hpc : (s.unassignHolder.goto u p).pc u = p := Function.update_self ..
      exact hne (hpc.symm.trans h)
    · have hpc : (s.unassignHolder.goto t p).pc u = s.pc u := Function.update_of_ne hu ..
      rw [hpc] at h
      exact hu (hi.follows.exclusive (place_of_pc h) ht)

theorem Inv.assertion (hi : Inv s) (ht : s.pc t = .inside) :
    s.step (.assertLockByThisThread t) = .ok s := by
  have hlocked : s.isLockedByThisThread t = true := decide_eq_true ((hi.holder t).mpr ht)
  rw [step, check_eq_ok hlocked]
  rfl

theorem Inv.of_step (hi : Inv s) {a : Action τ κ} (hst : (system τ κ).Step s a t') : Inv t' := by
  obtain ⟨hen, heq⟩ := hst
  cases a with
  | lock t =>
    obtain ⟨ht, hfree⟩ := hen
    obtain rfl := Except.ok.inj heq
    have hne : s.pc t ≠ .inside := fun h => by cases ht.symm.trans h
    exact hi.moved hne (fun h => by cases h) (hi.follows.lock (place_of_pc ht) hfree)
  | locked t =>
    obtain rfl := Except.ok.inj heq
    exact hi.assign (place_of_pc hen)
  | assertLockByThisThread t =>
    obtain rfl := Except.ok.inj ((hi.assertion hen).symm.trans heq)
    exact hi
  | unlocking t =>
    obtain rfl := Except.ok.inj heq
    exact hi.unassign (place_of_pc hen) rfl fun h => by cases h
  | unlock t =>
    obtain rfl := Except.ok.inj heq
    have hne : s.pc t ≠ .inside := fun h => by cases hen.symm.trans h
    exact hi.moved hne (fun h => by cases h) (hi.follows.unlock (place_of_pc hen))
  | wait t c =>
    obtain rfl := Except.ok.inj heq
    exact hi.unassign (place_of_pc hen) rfl fun h => by cases h
  | block t c =>
    obtain rfl := Except.ok.inj heq
    have hne : s.pc t ≠ .inside := fun h => by cases hen.symm.trans h
    exact hi.moved hne (fun h => by cases h) (hi.follows.wait (place_of_pc hen))
  | wake t c =>
    obtain rfl := Except.ok.inj heq
    exact ⟨hi.follows.wake hen, hi.holder⟩
  | relock t c =>
    obtain ⟨hwoken, hfree⟩ := hen
    obtain rfl := Except.ok.inj heq
    have hplace : s.place t = .waits c := hi.follows.woken hwoken
    have hne : s.pc t ≠ .inside := fun h => by cases (place_of_pc h).symm.trans hplace
    exact hi.moved hne (fun h => by cases h) (hi.follows.relock hwoken hfree)
  | waited t c =>
    obtain rfl := Except.ok.inj heq
    exact hi.assign (place_of_pc hen)
  | notify c woken =>
    obtain rfl := Except.ok.inj heq
    exact ⟨hi.follows.signal hen, hi.holder⟩
  | notifyAll c =>
    obtain rfl := Except.ok.inj heq
    exact ⟨hi.follows.broadcast, hi.holder⟩

theorem reachable_inv (h : (system τ κ).Reachable s) : Inv s := by
  refine h.invariant (fun s hs => ?_) fun _ _ _ hi hst => hi.of_step hst
  obtain rfl : s = new := hs
  exact new_inv

/-! ### The theorem -/

/-- **`holder_` is exact at all times.**  `isLockedByThisThread()` is true of the threads between
    the assignment of `holder_` and its clearing, and of no other, whoever asks and whenever; such
    a thread has the mutex, and there is one at most.  So `assertLockByThisThread` never fails in
    it, and `holder_` is 0 when the lock is destroyed. -/
theorem holder_exact (h : (system τ κ).Reachable s) :
    (∀ t, s.isLockedByThisThread t = true ↔ s.pc t = .inside) ∧
      (∀ t, s.pc t = .inside → s.monitor.holder = some t) ∧
      (∀ t u, s.place t = .inside → s.place u = .inside → t = u) ∧
      (∀ t, s.pc t = .inside → s.step (.assertLockByThisThread t) = .ok s) ∧
      ((∀ t, s.pc t = .outside) → s.holder = none) := by
  have hi := reachable_inv h
  refine ⟨fun t => ?_, fun t ht => ?_, fun t u => hi.follows.exclusive, fun t => hi.assertion,
    fun hout => ?_⟩
  · rw [isLockedByThisThread, decide_eq_true_iff]
    exact hi.holder t
  · exact (hi.follows.inside t).mp (place_of_pc ht)
  · by_contra hne
    obtain ⟨t, ht⟩ := Option.ne_none_iff_exists'.mp hne
    cases (hout t).symm.trans ((hi.holder t).mp ht)

/-- A thread waits, another one locks, notifies it and unlocks, and the first goes on. -/
theorem holder_exact_handed : ∃ s : MutexLock Nat Unit, (system Nat Unit).Reachable s ∧
    s.isLockedByThisThread 1 = true ∧ s.isLockedByThisThread 2 = false ∧
      s.monitor.holder = some 1 := by
  let test (s : MutexLock Nat Unit) : Bool :=
    s.pc 1 = .inside ∧ s.isLockedByThisThread 2 = false
  have hrun : ((system Nat Unit).exec new
      [.lock 1, .locked 1, .wait 1 (), .block 1 (), .lock 2, .locked 2, .notify () (some 1),
        .unlocking 2, .unlock 2, .relock 1 (), .waited 1 ()]).any test = true := by decide +kernel
  obtain ⟨s, hs, htest⟩ := exists_of_exec_any _ rfl hrun
  obtain ⟨hinside, hother⟩ := of_decide_eq_true htest
  obtain ⟨hlocked, hmutex, -⟩ := holder_exact hs
  exact ⟨s, hs, (hlocked 1).mpr hinside, hother, hmutex 1 hinside⟩

end

end MutexLock

end Kaycc
