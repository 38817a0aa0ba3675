/-
  Kaycc/EventLoopQuit.lean
  ========================
  **`EventLoop::quit`: the loop finishes its iteration and returns.**

  From each point of `loop()` the way out is fixed once `quit_` is set (`wayOut`): the
  thread goes through what is left of the iteration, each part of it once, and the next
  test of `quit_` is the last one.  The only step that takes `quit_` back is the entry
  of `loop()`, so this holds of every run up to there, whatever the other threads do
  meanwhile (`wayOut_run`).

  What could keep the thread from going on is `poll`.  It is entered only after a test
  of `quit_` that failed, so a `quit` that finds the thread there comes from another
  thread, which then owes a `wakeup` (`QuitInv`).
-/
import Kaycc.EventLoopWakeup

namespace Kaycc.EventLoop

open Transition

variable {τ φ : Type*} {s t : EventLoop τ φ}

/-! ### The way out -/

/-- The points the loop thread still goes through when `quit_` is set. -/
def wayOut : Point → List Point
  | .outside => []
  | .whileTest => [.whileTest]
  | .polling => [.polling, .handling, .swapping, .calling, .returning, .whileTest]
  | .handling => [.handling, .swapping, .calling, .returning, .whileTest]
  | .swapping => [.swapping, .calling, .returning, .whileTest]
  | .calling => [.calling, .returning, .whileTest]
  | .returning => [.returning, .whileTest]

/-- The point of `loop()` that the loop thread leaves. -/
def leaves : Action τ φ → Option Point
  | .testQuit => some .whileTest
  | .pollReturn _ => some .polling
  | .doPendingFunctors => some .handling
  | .swapFunctors => some .swapping
  | .finishCalling => some .calling
  | .returnToLoop => some .returning
  | .handleEvent | .callFunctor => none          -- one round of a `for`
  | .queueInLoop _ _ | .wakeup _ | .quit _ => none
  | .startLoop => none

/-- The moves of the loop thread inside `loop()`. -/
def ofLoop : Action τ φ → Bool
  | .testQuit | .pollReturn _ | .handleEvent | .doPendingFunctors | .swapFunctors
  | .callFunctor | .finishCalling | .returnToLoop => true
  | .queueInLoop _ _ | .wakeup _ | .quit _ | .startLoop => false

variable [DecidableEq τ]

@[simp] theorem requestQuit_quit (s : EventLoop τ φ) (w : Thread τ) :
    (s.requestQuit w).quit = true := by
  unfold requestQuit
  split <;> rfl

@[simp] theorem queueInLoop_quit (s : EventLoop τ φ) (w : Thread τ) (cb : φ) :
    (s.queueInLoop w cb).quit = s.quit := by
  unfold queueInLoop
  split <;> rfl

omit [DecidableEq τ] in
@[simp] theorem handleEvent_quit (s : EventLoop τ φ) : s.handleEvent.quit = s.quit := by
  unfold handleEvent
  split <;> rfl

theorem wayOut_step {a : Action τ φ} (hq : s.quit = true) (ha : a ≠ .startLoop)
    (h : (system τ φ).Step s a t) :
    t.quit = true ∧ wayOut s.point = (leaves a).toList ++ wayOut t.point := by
  obtain ⟨hen, rfl⟩ := step_after h
  cases a with
  | queueInLoop w cb => exact ⟨(queueInLoop_quit s w cb).trans hq, by simp [after, leaves]⟩
  | quit w => exact ⟨requestQuit_quit s w, by simp [after, leaves]⟩
  | handleEvent => exact ⟨(handleEvent_quit s).trans hq, by simp [after, leaves]⟩
  | wakeup w => exact ⟨hq, rfl⟩
  | callFunctor => exact ⟨hq, rfl⟩
  | startLoop => exact absurd rfl ha
  | testQuit =>
    rcases testQuit_cases s with ⟨_, heq⟩ | ⟨hfalse, _⟩
    · refine ⟨by simp [after, heq, hq], ?_⟩
      rw [hen.2]
      simp [after, heq, leaves, wayOut]
    · rw [hfalse] at hq
      cases hq
  | pollReturn active => exact ⟨hq, by rw [hen.2.1]; rfl⟩
  | doPendingFunctors => exact ⟨hq, by rw [hen.2.1]; rfl⟩
  | swapFunctors => exact ⟨hq, by rw [hen.2]; rfl⟩
  | finishCalling => exact ⟨hq, by rw [hen.2.1]; rfl⟩
  | returnToLoop => exact ⟨hq, by rw [hen.2]; rfl⟩

theorem wayOut_run {as : List (Action τ φ)} (hq : s.quit = true)
    (h : (system τ φ).Run s as t) (has : .startLoop ∉ as) :
    t.quit = true ∧ wayOut s.point = as.filterMap leaves ++ wayOut t.point := by
  induction h with
  | nil => exact ⟨hq, rfl⟩
  | @snoc u v as a _ hst ih =>
    rw [List.mem_append, not_or, List.mem_singleton] at has
    obtain ⟨hu, hbefore⟩ := ih has.1
    obtain ⟨hv, hstep⟩ := wayOut_step hu (Ne.symm has.2) hst
    refine ⟨hv, ?_⟩
    rw [hbefore, hstep, List.filterMap_append, List.append_assoc]
    congr 2

/-! ### Nobody sleeps through a quit -/

/-- While the loop thread is in `poll`, a `quit_` that is set has woken it or is about
    to. -/
def QuitInv (s : EventLoop τ φ) : Prop :=
  s.point = .polling → s.quit = true →
    0 < s.wakeupFd ∨ ∃ w, s.owes (.other w) ≠ .nothing

theorem QuitInv.step {a : Action τ φ} (hi : QuitInv s) (h : (system τ φ).Step s a t) :
    QuitInv t := by
  obtain ⟨hen, rfl⟩ := step_after h
  intro hp hq
  cases a with
  | queueInLoop w cb =>
    rw [after, queueInLoop_point] at hp
    rw [after, queueInLoop_quit] at hq
    rcases hi hp hq with hfd | ⟨v, hv⟩
    · exact .inl (by simpa [after] using hfd)
    · refine .inr ⟨v, ?_⟩
      rw [after, queueInLoop_owes]
      split
      · exact Owes.noConfusion
      · exact hv
  | wakeup w => exact .inl (Nat.succ_pos s.wakeupFd)
  | quit w =>
    rw [after, requestQuit_point] at hp
    cases w with
    | loop =>
      -- its own thread runs no user code here
      rcases hen.2 rfl with h' | h' | h' | h' <;> simp [hp] at h'
    | other w =>
      refine .inr ⟨w, ?_⟩
      rw [after, requestQuit_owes, if_pos ⟨rfl, by simp⟩]
      exact Owes.noConfusion
  | testQuit =>
    rcases testQuit_cases s with ⟨_, heq⟩ | ⟨hfalse, heq⟩
    · simp [after, heq] at hp
    · simp [after, heq, hfalse] at hq
  | handleEvent =>
    rw [after, handleEvent_point, hen.2.1] at hp
    cases hp
  | callFunctor =>
    rw [show (s.after .callFunctor).point = s.point from rfl, hen.2.1] at hp
    cases hp
  | startLoop | pollReturn | doPendingFunctors | swapFunctors | finishCalling
  | returnToLoop => cases hp

theorem quitInv_of_reachable (h : (system τ φ).Reachable s) : QuitInv s := by
  refine h.invariant (P := QuitInv) ?_ fun _ _ _ hi hst => hi.step hst
  rintro s₀ rfl hp _
  cases hp

/-! ### The thread goes on -/

omit [DecidableEq τ] in
/-- With a `quit_` that is set, somebody has a `wakeup` to perform, or the loop thread
    has a move. -/
theorem goes_on (hi : QuitInv s) (hq : s.quit = true) (hp : s.point ≠ .outside) :
    (∃ w, s.enabled (.wakeup w)) ∨ ∃ a, ofLoop a = true ∧ s.enabled a := by
  by_cases hfree : s.owes .loop = .nothing
  · cases hpoint : s.point with
    | outside => exact absurd hpoint hp
    | whileTest => exact .inr ⟨.testQuit, rfl, hfree, hpoint⟩
    | polling =>
      rcases hi hpoint hq with hfd | ⟨w, hw⟩
      · exact .inr ⟨.pollReturn [.wakeupChannel], rfl, hfree, hpoint, fun _ => hfd⟩
      · exact .inl ⟨.other w, hw⟩
    | handling =>
      by_cases hactive : s.activeChannels = []
      · exact .inr ⟨.doPendingFunctors, rfl, hfree, hpoint, hactive⟩
      · exact .inr ⟨.handleEvent, rfl, hfree, hpoint, hactive⟩
    | swapping => exact .inr ⟨.swapFunctors, rfl, hfree, hpoint⟩
    | calling =>
      by_cases hbatch : s.functors.queue.batch = []
      · exact .inr ⟨.finishCalling, rfl, hfree, hpoint, hbatch⟩
      · exact .inr ⟨.callFunctor, rfl, hfree, hpoint, hbatch⟩
    | returning => exact .inr ⟨.returnToLoop, rfl, hfree, hpoint⟩
  · exact .inl ⟨.loop, hfree⟩

/-- **A quit is heard.**  From a reachable state with `quit_` set, in every run up to the
    next entry of `loop()`: `quit_` stays set; the loop thread goes through what is left
    of its iteration once and in order, so it enters `poll` no more and its next test of
    `quit_` is the last; in `poll` it is woken, or another thread is about to; and
    until it has left `loop()`, it or a thread with a `wakeup` to perform can move. -/
theorem quit_heard (h : (system τ φ).Reachable s) (hq : s.quit = true)
    {as : List (Action τ φ)} (hrun : (system τ φ).Run s as t) (has : .startLoop ∉ as) :
    t.quit = true ∧
    wayOut s.point = as.filterMap leaves ++ wayOut t.point ∧
    (t.point = .polling → 0 < t.wakeupFd ∨ ∃ w, t.owes (.other w) ≠ .nothing) ∧
    (t.point ≠ .outside →
      (∃ w, t.enabled (.wakeup w)) ∨ ∃ a, ofLoop a = true ∧ t.enabled a) := by
  obtain ⟨hquit, hway⟩ := wayOut_run hq hrun has
  have hi : QuitInv t := quitInv_of_reachable (h.run hrun)
  exact ⟨hquit, hway, fun hp => hi hp hquit, goes_on hi hquit⟩

/-- Another thread quits the loop blocked in `poll`, which handles the wakeup and
    returns. -/
theorem quit_heard_in_poll :
    ∃ s t : EventLoop Unit Nat, ∃ as, (system Unit Nat).Reachable s ∧
      (system Unit Nat).Run s as t ∧ s.point = .polling ∧ t.point = .outside ∧
      wayOut Point.polling = as.filterMap leaves ∧ t.quit = true := by
  have hs : (system Unit Nat).Reachable
      ((new.after .startLoop).testQuit.requestQuit (.other ())) :=
    System.reachable_of_exec [.startLoop, .testQuit, .quit (.other ())] rfl rfl
  have hrun : (system Unit Nat).Run ((new.after .startLoop).testQuit.requestQuit (.other ()))
      [.wakeup (.other ()), .pollReturn [.wakeupChannel], .handleEvent, .doPendingFunctors,
        .swapFunctors, .finishCalling, .returnToLoop, .testQuit] _ := System.run_of_exec rfl
  have hheard := quit_heard hs rfl hrun (by simp)
  exact ⟨_, _, _, hs, hrun, rfl, rfl, hheard.2.1.trans (List.append_nil _), hheard.1⟩

end Kaycc.EventLoop
