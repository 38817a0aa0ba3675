/-
  Kaycc/EventLoopWakeup.lean
  ==========================
  **No pending functor is left asleep in `poll`.**

  A functor in `pendingFunctors_` is covered (`Covered`) when the eventfd is
  readable, or its pusher has still to perform the `wakeup()` of this very push,
  or the loop thread is between the return of `poll` and the swap, so that the
  functor will be taken before the next `poll`.  The eventfd is reset only in
  that last stretch, which is why clearing it before the swap loses nothing.

  For functors of other threads every step keeps this (`no_lost_wakeup`).  For
  functors the loop thread pushes itself it is kept exactly where `queueInLoop`
  was written for: in an event or timer callback and in the body of a functor.
  Before `loop()` starts, and while `doPendingFunctors` destroys the executed
  functors, `callingPendingFunctors_` is false and no `poll` return is between
  the push and the next `poll`, so nobody wakes the loop
  (`loop_functor_left_asleep`), and every such push can end so
  (`queuesInsideLoop_exact`).
-/
import Kaycc.EventLoopFunctors

namespace Kaycc.EventLoop

open Transition

variable {τ φ : Type*} {s t : EventLoop τ φ}

/-- The functor will not wait for the poll timeout. -/
def Covered (s : EventLoop τ φ) (i : Pushed τ φ) : Prop :=
  0 < s.wakeupFd ∨ s.owes i.pusher = .wakeup (some i.seq) ∨
    s.point = .handling ∨ s.point = .swapping

/-- The flags of the loop say where its thread is, and the thread does not enter
    `poll` in the middle of a `queueInLoop` of its own. -/
structure FlagsInv (s : EventLoop τ φ) : Prop where
  handling : s.eventHandling = true ↔ s.point = .handling
  calling : s.callingPendingFunctors = true ↔ s.point = .swapping ∨ s.point = .calling
  outside : s.looping = false ↔ s.point = .outside
  poll : s.point = .polling → s.owes .loop = .nothing

theorem new_flagsInv : FlagsInv (new : EventLoop τ φ) := by
  constructor <;> simp [new]

@[simp] theorem testQuit_fields (s : EventLoop τ φ) :
    s.testQuit.owes = s.owes ∧ s.testQuit.wakeupFd = s.wakeupFd ∧
      s.testQuit.eventHandling = s.eventHandling ∧
      s.testQuit.callingPendingFunctors = s.callingPendingFunctors := by
  unfold testQuit
  split <;> exact ⟨rfl, rfl, rfl, rfl⟩

theorem testQuit_cases (s : EventLoop τ φ) :
    (s.quit = true ∧ s.testQuit = { s with looping := false, point := .outside }) ∨
      (s.quit = false ∧ s.testQuit = { s with activeChannels := [], point := .polling }) := by
  unfold testQuit
  by_cases hq : s.quit = true
  · exact .inl ⟨hq, if_pos hq⟩
  · exact .inr ⟨Bool.eq_false_iff.mpr hq, if_neg hq⟩

@[simp] theorem handleEvent_fields (s : EventLoop τ φ) :
    s.handleEvent.owes = s.owes ∧ s.handleEvent.eventHandling = s.eventHandling ∧
      s.handleEvent.callingPendingFunctors = s.callingPendingFunctors ∧
      s.handleEvent.looping = s.looping := by
  unfold handleEvent
  split <;> exact ⟨rfl, rfl, rfl, rfl⟩

variable [DecidableEq τ]

@[simp] theorem queueInLoop_fields (s : EventLoop τ φ) (w : Thread τ) (cb : φ) :
    (s.queueInLoop w cb).wakeupFd = s.wakeupFd ∧
      (s.queueInLoop w cb).eventHandling = s.eventHandling ∧
      (s.queueInLoop w cb).callingPendingFunctors = s.callingPendingFunctors ∧
      (s.queueInLoop w cb).looping = s.looping := by
  unfold queueInLoop
  split <;> exact ⟨rfl, rfl, rfl, rfl⟩

theorem queueInLoop_owes (s : EventLoop τ φ) (w v : Thread τ) (cb : φ) :
    (s.queueInLoop w cb).owes v =
      if v = w ∧ (w ≠ .loop ∨ s.callingPendingFunctors = true) then
        .wakeup (some s.functors.pushed.length)
      else s.owes v := by
  unfold queueInLoop
  by_cases hw : w ≠ .loop ∨ s.callingPendingFunctors = true
  · by_cases hv : v = w
    · subst hv
      simp [hw, setOwes]
    · simp [hw, hv, setOwes]
  · simp [hw]

@[simp] theorem requestQuit_fields (s : EventLoop τ φ) (w : Thread τ) :
    (s.requestQuit w).wakeupFd = s.wakeupFd ∧
      (s.requestQuit w).eventHandling = s.eventHandling ∧
      (s.requestQuit w).callingPendingFunctors = s.callingPendingFunctors ∧
      (s.requestQuit w).looping = s.looping := by
  unfold requestQuit
  split <;> exact ⟨rfl, rfl, rfl, rfl⟩

theorem requestQuit_owes (s : EventLoop τ φ) (w v : Thread τ) :
    (s.requestQuit w).owes v = if v = w ∧ w ≠ .loop then .wakeup none else s.owes v := by
  unfold requestQuit
  by_cases hw : w ≠ .loop
  · by_cases hv : v = w
    · subst hv
      simp [hw, setOwes]
    · simp [hw, hv, setOwes]
  · simp [hw]

theorem FlagsInv.step {a : Action τ φ} (hi : FlagsInv s) (h : (system τ φ).Step s a t) :
    FlagsInv t := by
  obtain ⟨hen, rfl⟩ := step_after h
  have hh := hi.handling
  have hc := hi.calling
  have ho := hi.outside
  cases a with
  | queueInLoop w cb =>
    refine ⟨by simpa [after] using hh, by simpa [after] using hc, by simpa [after] using ho,
      fun hp => ?_⟩
    simp only [after, queueInLoop_point] at hp
    have hloop : w ≠ .loop := by
      intro hw
      rcases hen.2 hw with h' | h' | h' | h' <;> simp [hp] at h'
    simpa [after, queueInLoop_owes, Ne.symm hloop] using hi.poll hp
  | wakeup w =>
    refine ⟨hh, hc, ho, ?_⟩
    intro hp
    by_cases hw : Thread.loop = w
    · simp [after, wakeup, setOwes, hw]
    · simpa [after, wakeup, setOwes, hw] using hi.poll hp
  | quit w =>
    refine ⟨by simpa [after] using hh, by simpa [after] using hc, by simpa [after] using ho,
      fun hp => ?_⟩
    simp only [after, requestQuit_point] at hp
    have hloop : w ≠ .loop := by
      intro hw
      rcases hen.2 hw with h' | h' | h' | h' <;> simp [hp] at h'
    simpa [after, requestQuit_owes, Ne.symm hloop] using hi.poll hp
  | startLoop => constructor <;> simp_all [after, enabled]
  | testQuit =>
    have hfree : s.owes .loop = .nothing := hen.1
    rcases testQuit_cases s with ⟨_, heq⟩ | ⟨_, heq⟩ <;> constructor <;>
      simp_all [after, enabled]
  | pollReturn active => constructor <;> simp_all [after, pollReturn, enabled]
  | handleEvent =>
    refine ⟨by simpa [after] using hh, by simpa [after] using hc, by simpa [after] using ho,
      fun hp => ?_⟩
    simp only [after, handleEvent_point] at hp
    simpa [after] using hi.poll hp
  | doPendingFunctors => constructor <;> simp_all [after, EventLoop.doPendingFunctors, enabled]
  | swapFunctors => constructor <;> simp_all [after, EventLoop.swapFunctors, enabled]
  | callFunctor => constructor <;> simp_all [after, EventLoop.callFunctor, enabled]
  | finishCalling => constructor <;> simp_all [after, EventLoop.finishCalling, enabled]
  | returnToLoop => constructor <;> simp_all [after, EventLoop.returnToLoop, enabled]

/-! ### Covered functors stay covered -/

/-- The pending functors of the threads in `P` are covered. -/
def AllCovered (P : Thread τ → Prop) (s : EventLoop τ φ) : Prop :=
  ∀ i ∈ s.functors.queue.pending, P i.pusher → s.Covered i

omit [DecidableEq τ] in
theorem new_allCovered (P : Thread τ → Prop) : AllCovered P (new : EventLoop τ φ) := by
  intro i hi
  cases hi

omit [DecidableEq τ] in
/-- A step that leaves the pending functors, the debts and the eventfd alone, and
    does not leave the stretch between the return of `poll` and the swap. -/
theorem AllCovered.of_same {P : Thread τ → Prop} (hc : AllCovered P s)
    (hq : t.functors.queue.pending = s.functors.queue.pending) (ho : t.owes = s.owes)
    (hw : t.wakeupFd = s.wakeupFd)
    (hp : s.point = .handling ∨ s.point = .swapping →
      t.point = .handling ∨ t.point = .swapping) : AllCovered P t := by
  intro i hi hP
  rw [hq] at hi
  unfold Covered
  rw [ho, hw]
  rcases hc i hi hP with h | h | h
  · exact .inl h
  · exact .inr (.inl h)
  · exact .inr (.inr (hp h))

omit [DecidableEq τ] in
theorem allCovered_of_point {P : Thread τ → Prop}
    (hp : t.point = .handling ∨ t.point = .swapping) : AllCovered P t :=
  fun _ _ _ => .inr (.inr hp)

omit [DecidableEq τ] in
/-- The local vector is run without touching what is pending. -/
theorem callFunctor_pending (s : EventLoop τ φ) :
    s.callFunctor.functors.queue.pending = s.functors.queue.pending := by
  simp only [callFunctor, SwapQueue.History.runNext]
  split <;> rfl

theorem AllCovered.queueInLoop {P : Thread τ → Prop} (hc : AllCovered P s)
    (hf : FlagsInv s) {w : Thread τ} (cb : φ) (hfree : s.owes w = .nothing)
    (hloop : w = .loop → P .loop →
      s.eventHandling = true ∨ s.callingPendingFunctors = true ∨ 0 < s.wakeupFd) :
    AllCovered P (s.queueInLoop w cb) := by
  intro i hi hP
  unfold Covered
  rw [queueInLoop_owes, queueInLoop_point, (queueInLoop_fields s w cb).1]
  rw [queueInLoop_functors] at hi
  rcases List.mem_append.mp hi with hold | hnew
  · -- an older functor: if `w` pushed it too, it does not rest on a debt of `w`
    rcases hc i hold hP with h | h | h
    · exact .inl h
    · have hne : i.pusher ≠ w := by
        intro heq
        rw [heq, hfree] at h
        cases h
      rw [if_neg (fun hcon => hne hcon.1)]
      exact .inr (.inl h)
    · exact .inr (.inr h)
  · rw [List.mem_singleton] at hnew
    subst hnew
    by_cases hw : w ≠ .loop ∨ s.callingPendingFunctors = true
    · exact .inr (.inl (if_pos ⟨rfl, hw⟩))
    · -- the loop thread itself, and no wakeup: then it is handling events, or need not
      rw [not_or, not_not] at hw
      have hP' : P .loop := hw.1 ▸ hP
      rcases hloop hw.1 hP' with h | h | h
      · exact .inr (.inr (.inl (hf.handling.mp h)))
      · exact absurd h hw.2
      · exact .inl h

theorem AllCovered.step {P : Thread τ → Prop} {a : Action τ φ} (hc : AllCovered P s)
    (hf : FlagsInv s) (h : (system τ φ).Step s a t)
    (hloop : ∀ cb, a = .queueInLoop .loop cb → P .loop →
      s.eventHandling = true ∨ s.callingPendingFunctors = true ∨ 0 < s.wakeupFd) :
    AllCovered P t := by
  obtain ⟨hen, rfl⟩ := step_after h
  cases a with
  | queueInLoop w cb =>
    exact hc.queueInLoop hf cb hen.1 (fun hw => hloop cb (hw ▸ rfl))
  | wakeup w => exact fun i _ _ => .inl (Nat.succ_pos s.wakeupFd)
  | quit w =>
    intro i hi hP
    unfold Covered
    simp only [after, requestQuit_functors] at hi
    simp only [after, requestQuit_owes, requestQuit_point, requestQuit_fields]
    rcases hc i hi hP with h' | h' | h'
    · exact .inl h'
    · have hne : i.pusher ≠ w := by
        intro heq
        rw [heq, hen.1] at h'
        cases h'
      rw [if_neg (fun hcon => hne hcon.1)]
      exact .inr (.inl h')
    · exact .inr (.inr h')
  | startLoop => exact hc.of_same rfl rfl rfl (by simp [hen.2])
  | testQuit =>
    refine hc.of_same (by simp [after]) ?_ ?_ (by simp [hen.2])
    · exact (testQuit_fields s).1
    · exact (testQuit_fields s).2.1
  | pollReturn active => exact allCovered_of_point (.inl rfl)
  | handleEvent => exact allCovered_of_point (.inl (by simp [after, hen.2.1]))
  | doPendingFunctors => exact allCovered_of_point (.inr rfl)
  | swapFunctors => exact fun i hi _ => by cases hi
  | callFunctor => exact hc.of_same (callFunctor_pending s) rfl rfl id
  | finishCalling => exact hc.of_same rfl rfl rfl (by simp [hen.2.1])
  | returnToLoop => exact hc.of_same rfl rfl rfl (by simp [hen.2])

/-! ### Functors of other threads -/

theorem flags_allCovered_of_reachable (h : (system τ φ).Reachable s) :
    FlagsInv s ∧ AllCovered (· ≠ .loop) s :=
  h.invariant (P := fun s => FlagsInv s ∧ AllCovered (· ≠ .loop) s)
    (fun _ h₀ => h₀ ▸ ⟨new_flagsInv, new_allCovered _⟩)
    (fun _ _ _ hi hst => ⟨hi.1.step hst,
      hi.2.step hi.1 hst (fun _ _ hne => absurd rfl hne)⟩)

/-- **No lost wakeup.**  While the loop thread enters `poll` or is blocked in it,
    a pending functor of another thread finds the eventfd readable, or its own
    `wakeup()` is still to come. -/
theorem no_lost_wakeup (h : (system τ φ).Reachable s) (hp : s.point = .polling)
    {i : Pushed τ φ} (hi : i ∈ s.functors.queue.pending) {w : τ} (hw : i.pusher = .other w) :
    0 < s.wakeupFd ∨ s.owes (.other w) = .wakeup (some i.seq) := by
  have hcov := (flags_allCovered_of_reachable h).2 i hi (by rw [hw]; exact nofun)
  rcases hcov with h' | h' | h' | h'
  · exact .inl h'
  · exact .inr (hw ▸ h')
  · simp [hp] at h'
  · simp [hp] at h'

/-- Two threads push while the loop is blocked; only the second has written the
    eventfd so far, which is readable by that. -/
theorem no_lost_wakeup_two_threads :
    ∃ s : EventLoop (Fin 2) Nat, (system (Fin 2) Nat).Reachable s ∧ s.point = .polling ∧
      s.functors.queue.pending.map Pushed.pusher = [.other 0, .other 1] ∧
      (0 < s.wakeupFd ∨ s.owes (.other 0) = .wakeup (some 0)) ∧
      s.owes (.other 1) = .nothing ∧ 0 < s.wakeupFd := by
  have hrun : (system (Fin 2) Nat).Reachable
      ((((new.after .startLoop).testQuit.queueInLoop (.other 0) 5).queueInLoop
        (.other 1) 6).wakeup (.other 1)) :=
    System.reachable_of_exec [.startLoop, .testQuit, .queueInLoop (.other 0) 5,
      .queueInLoop (.other 1) 6, .wakeup (.other 1)] rfl rfl
  refine ⟨_, hrun, rfl, rfl, no_lost_wakeup hrun rfl List.mem_cons_self rfl, rfl, ?_⟩
  exact (no_lost_wakeup hrun rfl (List.mem_cons_of_mem _ List.mem_cons_self) rfl).resolve_right
    (by decide)

/-! ### Functors of the loop thread -/

/-- The loop thread calls `queueInLoop` only from an event or timer callback, from
    the body of a pending functor, or when the eventfd is readable anyway. -/
def queuesInsideLoop (s : EventLoop τ φ) : Action τ φ → Prop
  | .queueInLoop .loop _ =>
      s.eventHandling = true ∨ s.callingPendingFunctors = true ∨ 0 < s.wakeupFd
  | _ => True

omit [DecidableEq τ] in
/-- What is wanted: no functor of the loop thread waits for the poll timeout. -/
def LoopFunctorsAwake (s : EventLoop τ φ) : Prop :=
  s.point = .polling →
    ∀ i ∈ s.functors.queue.pending, i.pusher = .loop → 0 < s.wakeupFd

/-- **Functors the loop thread queues in its callbacks and functors never wait.**
    In every run where it queues nowhere else, at every entry to `poll` a pending
    functor of the loop thread finds the eventfd readable. -/
theorem loop_functors_awake (h : ((system τ φ).restrict queuesInsideLoop).Reachable s) :
    s.LoopFunctorsAwake := by
  have hinv : FlagsInv s ∧ AllCovered (· = .loop) s :=
    h.invariant (P := fun s => FlagsInv s ∧ AllCovered (· = .loop) s)
      (fun _ h₀ => h₀ ▸ ⟨new_flagsInv, new_allCovered _⟩)
      (fun s a t hi hst => ⟨hi.1.step hst.of_restrict,
        hi.2.step hi.1 hst.of_restrict (fun cb ha _ => by
          subst ha
          exact hst.condition)⟩)
  intro hp i hi hw
  rcases hinv.2 i hi hw with h' | h' | h' | h'
  · exact h'
  · rw [hw, hinv.1.poll hp] at h'
    cases h'
  · simp [hp] at h'
  · simp [hp] at h'

instance (s : EventLoop τ φ) : (a : Action τ φ) → Decidable (s.queuesInsideLoop a)
  | .queueInLoop .loop _ => inferInstanceAs (Decidable (_ ∨ _ ∨ _))
  | .queueInLoop (.other _) _ | .wakeup _ | .quit _ | .startLoop | .testQuit | .pollReturn _
  | .handleEvent | .doPendingFunctors | .swapFunctors | .callFunctor | .finishCalling
  | .returnToLoop => .isTrue trivial

/-- A callback queues a functor, which queues another one in its body. -/
theorem loop_functors_awake_nested :
    ∃ s : EventLoop Unit Nat,
      ((system Unit Nat).restrict queuesInsideLoop).Reachable s ∧ s.point = .polling ∧
      s.functors.queue.pending.map Pushed.functor = [8] ∧ 0 < s.wakeupFd := by
  have hrun : ((system Unit Nat).restrict queuesInsideLoop).Reachable
      (((((new.after .startLoop).testQuit.pollReturn [.userChannel]).handleEvent.queueInLoop
        .loop 7).doPendingFunctors.swapFunctors.callFunctor.queueInLoop .loop 8).wakeup
        .loop).finishCalling.returnToLoop.testQuit :=
    System.reachable_of_exec [.startLoop, .testQuit, .pollReturn [.userChannel], .handleEvent,
      .queueInLoop .loop 7, .doPendingFunctors, .swapFunctors, .callFunctor,
      .queueInLoop .loop 8, .wakeup .loop, .finishCalling, .returnToLoop, .testQuit] rfl rfl
  exact ⟨_, hrun, rfl, rfl, loop_functors_awake hrun rfl _ List.mem_cons_self rfl⟩

/-- Elsewhere it can be left asleep: queued before `loop()` starts, or queued by a
    destructor that runs when `doPendingFunctors` destroys an executed functor. -/
theorem loop_functor_left_asleep :
    (∃ s : EventLoop Unit Nat,
      (system Unit Nat).Run new [.queueInLoop .loop 7, .startLoop, .testQuit] s ∧
      ¬ s.LoopFunctorsAwake) ∧
    (∃ s : EventLoop Unit Nat,
      (system Unit Nat).Run new [.queueInLoop (.other ()) 5, .wakeup (.other ()), .startLoop,
        .testQuit, .pollReturn [.wakeupChannel], .handleEvent, .doPendingFunctors,
        .swapFunctors, .callFunctor, .finishCalling, .queueInLoop .loop 7, .returnToLoop,
        .testQuit] s ∧
      ¬ s.LoopFunctorsAwake) := by
  refine ⟨⟨_, System.run_of_exec rfl, ?_⟩, ⟨_, System.run_of_exec rfl, ?_⟩⟩
  · intro h
    exact absurd (h rfl _ List.mem_cons_self rfl) (by decide)
  · intro h
    exact absurd (h rfl _ List.mem_cons_self rfl) (by decide)

/-! ### The condition is exact -/

/-- From the test of `quit_` the loop thread goes on to `poll`; when `quit_` is set, it
    leaves `loop()` and calls it again. -/
theorem run_to_poll (hp : s.point = .whileTest) (hfree : s.loopFree) :
    ∃ as u, (system τ φ).Run s as u ∧ u.point = .polling ∧ u.functors = s.functors ∧
      u.wakeupFd = s.wakeupFd := by
  have htest : (system τ φ).Step s .testQuit s.testQuit := ⟨⟨hfree, hp⟩, rfl⟩
  rcases testQuit_cases s with ⟨_, heq⟩ | ⟨_, heq⟩
  · rw [heq] at htest
    let started : EventLoop τ φ := { s with looping := true, quit := false, point := .whileTest }
    have hstart : (system τ φ).Step { s with looping := false, point := .outside } .startLoop
        started := ⟨⟨hfree, rfl⟩, rfl⟩
    have hagain : (system τ φ).Step started .testQuit
        { started with activeChannels := [], point := .polling } := ⟨⟨hfree, rfl⟩, rfl⟩
    exact ⟨_, _, ((System.Run.single htest).snoc hstart).snoc hagain, rfl, rfl, rfl⟩
  · rw [heq] at htest
    exact ⟨_, _, System.Run.single htest, rfl, rfl, rfl⟩

/-- **The condition leaves out only what goes wrong.**  Any other push of the loop thread
    can be followed by a `poll` that finds its functor pending and the eventfd at zero. -/
theorem queuesInsideLoop_exact {cb : φ} (h : (system τ φ).Reachable s)
    (hen : s.enabled (.queueInLoop .loop cb))
    (hout : ¬ s.queuesInsideLoop (.queueInLoop .loop cb)) :
    ∃ as u, (system τ φ).Run s (.queueInLoop .loop cb :: as) u ∧ ¬ u.LoopFunctorsAwake := by
  have hf := (flags_allCovered_of_reachable h).1
  obtain ⟨hhandling, hcalling, hzero⟩ :
      s.eventHandling = false ∧ s.callingPendingFunctors = false ∧ s.wakeupFd = 0 := by
    simpa only [queuesInsideLoop, not_or, Bool.not_eq_true, Nat.not_lt, Nat.le_zero] using hout
  let pushed : EventLoop τ φ :=
    { s with functors := s.functors.push ⟨cb, .loop, s.functors.pushed.length⟩ }
  have hpush : (system τ φ).Step s (.queueInLoop .loop cb) pushed := by
    refine ⟨hen, ?_⟩
    change Except.ok (s.queueInLoop .loop cb) = Except.ok pushed
    simp [queueInLoop, hcalling, pushed]
  -- the thread is outside `loop()` or at the end of `doPendingFunctors`
  obtain ⟨a, t, hstep, hp, hfree, hsame, hfd⟩ : ∃ a t, (system τ φ).Step pushed a t ∧
      t.point = .whileTest ∧ t.loopFree ∧ t.functors = pushed.functors ∧ t.wakeupFd = 0 := by
    have hwhere : s.point = .outside ∨ s.point = .returning := by
      rcases hen.2 rfl with hp | ⟨hp, _⟩ | hp | hp
      · exact .inl hp
      · exact absurd (hf.handling.mpr hp) (by rw [hhandling]; exact Bool.false_ne_true)
      · exact absurd (hf.calling.mpr (.inr hp)) (by rw [hcalling]; exact Bool.false_ne_true)
      · exact .inr hp
    rcases hwhere with hp | hp
    · refine ⟨.startLoop, { pushed with looping := true, quit := false, point := .whileTest },
        ⟨⟨hen.1, hp⟩, ?_⟩, rfl, hen.1, rfl, hzero⟩
      exact if_pos (hf.outside.mpr hp)
    · exact ⟨.returnToLoop, pushed.returnToLoop, ⟨⟨hen.1, hp⟩, rfl⟩, rfl, hen.1, rfl, hzero⟩
  obtain ⟨as, u, hrun, hpoll, hfun, hfd'⟩ := run_to_poll hp hfree
  refine ⟨a :: as, u, ?_, ?_⟩
  · exact (System.Run.single hpush).append ((System.Run.single hstep).append hrun)
  · intro hawake
    have hmem : (⟨cb, .loop, s.functors.pushed.length⟩ : Pushed τ φ) ∈
        u.functors.queue.pending := by
      rw [hfun, hsame]
      exact List.mem_append_right _ (List.mem_singleton_self _)
    have hpos := hawake hpoll _ hmem rfl
    rw [hfd', hfd] at hpos
    exact Nat.lt_irrefl 0 hpos

end Kaycc.EventLoop
