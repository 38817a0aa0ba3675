/-
  Kaycc/EventLoopThreadQuit.lean
  ==============================
  **When a request to quit is kept.**

  `startLoop` returns as soon as `loop_` is published, which is before `loop()` is
  entered, and `loop()` begins with `quit_ = false`.  A `quit()` in between is lost:
  the loop goes on, and the destructor's join never ends.  That is the only way.
  In the runs in which `quit()` comes after the start of `loop()` it is kept; from
  any state in which it comes earlier, the loop thread goes on to lose it.
-/
import Kaycc.EventLoopThread

namespace Kaycc

open Transition Transition.System

namespace EventLoop

variable {τ φ : Type*} [DecidableEq τ] {s t : EventLoop τ φ}

/-- Only the start of `loop()` clears `quit_`. -/
theorem quit_of_step {a : Action τ φ} (h : s.step a = .ok t) (ha : a ≠ .startLoop)
    (hq : s.quit = true) : t.quit = true := by
  cases a with
  | startLoop => exact absurd rfl ha
  | queueInLoop w cb =>
    obtain rfl := Except.ok.inj h
    simp only [queueInLoop]
    split
    · exact hq
    · exact hq
  | quit w =>
    obtain rfl := Except.ok.inj h
    simp only [requestQuit]
    split
    · rfl
    · rfl
  | testQuit =>
    obtain rfl := Except.ok.inj h
    simp only [testQuit, if_pos hq]
    exact hq
  | handleEvent =>
    obtain rfl := Except.ok.inj h
    simp only [handleEvent]
    split
    · exact hq
    · exact hq
    · exact hq
  | _ =>
    obtain rfl := Except.ok.inj h
    exact hq

theorem quit_requestQuit (s : EventLoop τ φ) (w : Thread τ) : (s.requestQuit w).quit = true := by
  simp only [requestQuit]
  split
  · rfl
  · rfl

/-- The loop has not been entered. -/
structure Fresh (s : EventLoop τ φ) : Prop where
  outside : s.point = .outside
  looping : s.looping = false
  calling : s.callingPendingFunctors = false
  free : s.loopFree

omit [DecidableEq τ] in
theorem new_fresh : Fresh (new : EventLoop τ φ) := ⟨rfl, rfl, rfl, rfl⟩

theorem Fresh.requestQuit (h : Fresh s) (w : Thread τ) : Fresh (s.requestQuit w) := by
  have hfree : s.owes .loop = .nothing := h.free
  by_cases hw : w ≠ .loop
  · simp only [EventLoop.requestQuit, if_pos hw]
    refine ⟨h.outside, h.looping, h.calling, ?_⟩
    simp only [loopFree, setOwes, Function.update_of_ne (Ne.symm hw)]
    exact hfree
  · simp only [EventLoop.requestQuit, if_neg hw]
    exact ⟨h.outside, h.looping, h.calling, hfree⟩

theorem Fresh.wakeup (h : Fresh s) {w : Thread τ} (hw : w ≠ .loop) : Fresh (s.wakeup w) := by
  have hfree : s.owes .loop = .nothing := h.free
  refine ⟨h.outside, h.looping, h.calling, ?_⟩
  simp only [loopFree, EventLoop.wakeup, setOwes, Function.update_of_ne (Ne.symm hw)]
  exact hfree

/-- What other threads do, and a `queueInLoop` of `callback_`, does not change that. -/
theorem Fresh.of_step {a : Action τ φ} (h : Fresh s) (hen : s.enabled a) (ha : a ≠ .startLoop)
    (hst : s.step a = .ok t) : Fresh t := by
  have hout := h.outside
  have hfree : s.owes .loop = .nothing := h.free
  cases a with
  | startLoop => exact absurd rfl ha
  | queueInLoop w cb =>
    obtain rfl := Except.ok.inj hst
    by_cases hw : w = .loop
    · subst hw
      have hnot : ¬ ((Thread.loop : Thread τ) ≠ .loop ∨ s.callingPendingFunctors = true) := by
        simp [h.calling]
      simp only [queueInLoop, if_neg hnot]
      exact ⟨hout, h.looping, h.calling, hfree⟩
    · simp only [queueInLoop, if_pos (Or.inl hw)]
      refine ⟨hout, h.looping, h.calling, ?_⟩
      simp only [loopFree, setOwes, Function.update_of_ne (Ne.symm hw)]
      exact hfree
  | wakeup w =>
    obtain rfl := Except.ok.inj hst
    apply h.wakeup
    rintro rfl
    exact hen hfree
  | quit w =>
    obtain rfl := Except.ok.inj hst
    exact h.requestQuit w
  | testQuit | returnToLoop =>
    rcases hen with ⟨_, hpoint⟩
    rw [hout] at hpoint
    cases hpoint
  | pollReturn active | handleEvent | doPendingFunctors | callFunctor | finishCalling =>
    rcases hen with ⟨_, hpoint, _⟩
    rw [hout] at hpoint
    cases hpoint
  | swapFunctors =>
    rcases hen with ⟨_, hpoint⟩
    rw [hout] at hpoint
    cases hpoint

end EventLoop

namespace EventLoopThread

variable {τ φ : Type} [DecidableEq τ] {s s' : EventLoopThread τ φ}

/-! ### After the start of `loop()` a quit is kept -/

structure QuitInv (s : EventLoopThread τ φ) : Prop where
  kept : s.quitCalled = true → s.loop.quit = true
  entered : s.quitCalled = true → s.thread.entered = true
  begun : s.started = false → s.thread = .notStarted

omit [DecidableEq τ] in
theorem new_quitInv (owner : τ) : QuitInv (new owner : EventLoopThread τ φ) where
  kept := fun h => by cases h
  entered := fun h => by cases h
  begun := fun _ => rfl

omit [DecidableEq τ] in
@[simp] theorem threadStep_fields (s : EventLoopThread τ φ) (woken : Option Party) :
    (s.threadStep woken).loop = s.loop ∧ (s.threadStep woken).quitCalled = s.quitCalled ∧
      (s.threadStep woken).started = s.started ∧ (s.threadStep woken).returned = s.returned ∧
      (s.threadStep woken).ownerPoint = s.ownerPoint := by
  unfold threadStep
  split <;> exact ⟨rfl, rfl, rfl, rfl, rfl⟩

omit [DecidableEq τ] in
/-- Past the start of `loop()` the loop thread does not come back. -/
theorem threadStep_entered {woken : Option Party} (h : s.thread.entered = true) :
    (s.threadStep woken).thread.entered = true := by
  unfold threadStep
  cases hp : s.thread with
  | looping => rfl
  | clearing => rfl
  | finished => exact h
  | _ =>
    rw [hp] at h
    cases h

omit [DecidableEq τ] in
theorem QuitInv.thread (hi : QuitInv s) {woken : Option Party}
    (hen : s.threadReady woken s.thread) : QuitInv (s.threadStep woken) := by
  rcases threadStep_fields s woken with ⟨hloop, hcalled, hstarted, _, _⟩
  constructor
  · rw [hcalled, hloop]
    exact hi.kept
  · rw [hcalled]
    exact fun hq => threadStep_entered (hi.entered hq)
  · intro hno
    rw [hstarted] at hno
    rw [hi.begun hno] at hen
    exact hen.elim

theorem QuitInv.owner (hi : QuitInv s) (hin : s.quitsInsideLoop .owner) :
    QuitInv s.ownerStep := by
  unfold ownerStep
  cases hp : s.ownerPoint with
  | dtorQuit =>
    have hentered : s.thread.entered = true := hin (by simp [quits, hp])
    exact ⟨fun _ => s.loop.quit_requestQuit _, fun _ => hentered, hi.begun⟩
  | startTest =>
    simp only
    split
    · exact ⟨hi.kept, hi.entered, hi.begun⟩
    · exact ⟨hi.kept, hi.entered, hi.begun⟩
  | dtorTest =>
    simp only
    split
    · exact ⟨hi.kept, hi.entered, hi.begun⟩
    · exact ⟨hi.kept, hi.entered, hi.begun⟩
  | _ => exact ⟨hi.kept, hi.entered, hi.begun⟩

/-- The steps of the loop: what they change besides it. -/
theorem loopStep_cases {act : EventLoop.Action τ φ} (h : s.loopStep act = .ok s') :
    ∃ loop, s.loop.step act = .ok loop ∧
      ((act = .startLoop ∧ s' = { s with loop := loop, thread := .looping }) ∨
        ((∃ t, act = .quit (.other t)) ∧ s' = { s with loop := loop, quitCalled := true }) ∨
        (act ≠ .startLoop ∧ (∀ t, act ≠ .quit (.other t)) ∧ s' = { s with loop := loop })) := by
  rcases bind_eq_ok.mp h with ⟨loop, hloop, h⟩
  refine ⟨loop, hloop, ?_⟩
  split at h
  · exact .inl ⟨rfl, (Except.ok.inj h).symm⟩
  · exact .inr (.inl ⟨⟨_, rfl⟩, (Except.ok.inj h).symm⟩)
  · rename_i hstart hquit
    exact .inr (.inr ⟨hstart, hquit, (Except.ok.inj h).symm⟩)

theorem QuitInv.loop (hi : QuitInv s) {act : EventLoop.Action τ φ} (hen : s.loopReady act)
    (hin : s.quitsInsideLoop (.loop act)) (h : s.loopStep act = .ok s') : QuitInv s' := by
  have hbegun : ∀ {p : ThreadPoint}, s.thread = p → p ≠ .notStarted → s.started ≠ false :=
    fun hp hne hno => hne (hp.symm.trans (hi.begun hno))
  rcases loopStep_cases h with ⟨loop, hloop, ⟨rfl, rfl⟩ | ⟨⟨t, rfl⟩, rfl⟩ | ⟨hne, hno, rfl⟩⟩
  · -- nothing has been asked for yet
    have hentering : s.thread = .entering := hen
    have hnone : s.quitCalled ≠ true := by
      intro hq
      have hentered := hi.entered hq
      rw [hentering] at hentered
      cases hentered
    exact ⟨fun hq => absurd hq hnone, fun _ => rfl,
      fun hno => absurd hno (hbegun hentering (by simp))⟩
  · have hquit : loop.quit = true := by
      obtain rfl := Except.ok.inj hloop
      exact s.loop.quit_requestQuit _
    exact ⟨fun _ => hquit, fun _ => hin rfl, hi.begun⟩
  · exact ⟨fun hq => EventLoop.quit_of_step hloop hne (hi.kept hq), hi.entered, hi.begun⟩

theorem QuitInv.step {act : Action τ φ} (hi : QuitInv s)
    (hst : ((system τ φ).restrict quitsInsideLoop).Step s act s') : QuitInv s' := by
  have hen : s.enabled act := hst.1.1
  have hin : s.quitsInsideLoop act := hst.condition
  have heq : s.step act = .ok s' := hst.2
  cases act with
  | startLoop =>
    rcases bind_eq_ok.mp heq with ⟨_, hno, heq⟩
    obtain rfl := Except.ok.inj heq
    have hnone : s.quitCalled ≠ true := by
      intro hq
      have hentered := hi.entered hq
      rw [hi.begun (of_check_ok hno)] at hentered
      cases hentered
    exact ⟨fun hq => absurd hq hnone, fun hq => absurd hq hnone, fun h => by cases h⟩
  | destroy =>
    obtain rfl := Except.ok.inj heq
    exact ⟨hi.kept, hi.entered, hi.begun⟩
  | owner =>
    obtain rfl := Except.ok.inj heq
    exact hi.owner hin
  | thread woken =>
    obtain rfl := Except.ok.inj heq
    exact hi.thread hen
  | loop act => exact hi.loop hen.2 hin heq
  | wake p =>
    obtain rfl := Except.ok.inj heq
    exact ⟨hi.kept, hi.entered, hi.begun⟩

/-- **A quit after the start of `loop()` is kept.**  In the runs in which `quit()`, of the
    destructor or of any thread that has the loop from `startLoop`, is executed only when
    the loop thread has set `quit_ = false`, `quit_` stays true from then on. -/
theorem quit_kept (h : ((system τ φ).restrict quitsInsideLoop).Reachable s)
    (hq : s.quitCalled = true) : s.loop.quit = true := by
  have hi : QuitInv s := by
    apply h.invariant
    · rintro s₀ ⟨owner, rfl⟩
      exact new_quitInv owner
    · exact fun _ _ _ hi hst => hi.step hst
  exact hi.kept hq

/-- The owner's destructor asks the loop to quit while it is in `poll`. -/
theorem quit_kept_destructor :
    ∃ s : EventLoopThread Nat Nat, ((system Nat Nat).restrict quitsInsideLoop).exec (new 0)
        [.startLoop, .owner, .owner, .thread none, .thread none, .thread none,
         .thread (some .owner), .thread none, .loop .startLoop, .loop .testQuit,
         .owner, .owner, .owner, .owner, .destroy, .owner, .owner] = some s ∧
      s.loop.point = .polling ∧ s.loop.quit = true := by
  refine ⟨_, rfl, rfl, ?_⟩
  exact quit_kept (reachable_of_exec (S := (system Nat Nat).restrict quitsInsideLoop)
    [.startLoop, .owner, .owner, .thread none, .thread none, .thread none,
     .thread (some .owner), .thread none, .loop .startLoop, .loop .testQuit,
     .owner, .owner, .owner, .owner, .destroy, .owner, .owner] ⟨0, rfl⟩ rfl) rfl

/-- **Before that it is lost.**  `startLoop` has returned and the destructor runs before
    the loop thread has entered `loop()`: the loop goes on with `quit_` false, and the
    destructor waits in `join` for a thread that has no reason to end. -/
theorem quit_lost :
    ∃ s : EventLoopThread Nat Nat, (system Nat Nat).exec (new 0)
        [.startLoop, .owner, .owner, .thread none, .thread none, .thread none,
         .thread (some .owner), .thread none, .owner, .owner, .owner, .owner,
         .destroy, .owner, .owner, .owner, .loop .startLoop, .loop .testQuit] = some s ∧
      s.quitCalled = true ∧ s.thread = .looping ∧ s.loop.quit = false ∧
      s.loop.point = .polling ∧ s.ownerPoint = .dtorJoin := by
  exact ⟨_, rfl, rfl, rfl, rfl, rfl, rfl⟩

/-! ### Before it a quit is lost -/

/-- `loop_` has been published. -/
def ThreadPoint.published : ThreadPoint → Bool
  | .notStarted | .callback | .lock | .publish => false
  | _ => true

structure BootInv (s : EventLoopThread τ φ) : Prop where
  fresh : s.thread.entered = false → s.loop.Fresh
  hasLoop : s.hasLoop = true → s.thread.published = true
  returned : s.returned = true → s.thread.published = true
  quitting : s.ownerPoint = .dtorQuit → s.thread.published = true
  begun : s.started = false → s.thread = .notStarted

omit [DecidableEq τ] in
theorem new_bootInv (owner : τ) : BootInv (new owner : EventLoopThread τ φ) where
  fresh := fun _ => EventLoop.new_fresh
  hasLoop := fun h => by cases h
  returned := fun h => by cases h
  quitting := fun h => by cases h
  begun := fun _ => rfl

omit [DecidableEq τ] in
theorem BootInv.thread (hi : BootInv s) {woken : Option Party}
    (hen : s.threadReady woken s.thread) : BootInv (s.threadStep woken) := by
  have hmono : s.thread.published = true → (s.threadStep woken).thread.published = true := by
    unfold threadStep
    cases hp : s.thread <;> simp [ThreadPoint.published, hp]
  rcases threadStep_fields s woken with ⟨hloop, _, hstarted, hreturned, howner⟩
  constructor
  · intro hent
    rw [hloop]
    apply hi.fresh
    by_contra hno
    rw [Bool.not_eq_false] at hno
    rw [threadStep_entered hno] at hent
    cases hent
  · intro hhas
    by_cases hpub : s.thread = .publish
    · simp [threadStep, hpub, ThreadPoint.published]
    · apply hmono
      apply hi.hasLoop
      revert hhas
      unfold threadStep
      cases hp : s.thread <;> simp_all
  · intro hret
    rw [hreturned] at hret
    exact hmono (hi.returned hret)
  · intro hq
    rw [howner] at hq
    exact hmono (hi.quitting hq)
  · intro hno
    rw [hstarted] at hno
    rw [hi.begun hno] at hen
    exact hen.elim

theorem BootInv.owner (hi : BootInv s) : BootInv s.ownerStep := by
  unfold ownerStep
  cases hp : s.ownerPoint with
  | startReturn => exact ⟨hi.fresh, hi.hasLoop, hi.hasLoop, (fun h => by cases h), hi.begun⟩
  | dtorQuit =>
    exact ⟨fun hent => (hi.fresh hent).requestQuit (.other s.owner), hi.hasLoop, hi.returned,
      (fun h => by cases h), hi.begun⟩
  | dtorWakeup =>
    exact ⟨fun hent => (hi.fresh hent).wakeup (w := .other s.owner) (by simp), hi.hasLoop,
      hi.returned, (fun h => by cases h), hi.begun⟩
  | startTest =>
    simp only
    split
    · exact ⟨hi.fresh, hi.hasLoop, hi.returned, (fun h => by cases h), hi.begun⟩
    · exact ⟨hi.fresh, hi.hasLoop, hi.returned, (fun h => by cases h), hi.begun⟩
  | dtorTest =>
    simp only
    split
    · rename_i hhas
      exact ⟨hi.fresh, hi.hasLoop, hi.returned, fun _ => hi.hasLoop hhas, hi.begun⟩
    · exact ⟨hi.fresh, hi.hasLoop, hi.returned, (fun h => by cases h), hi.begun⟩
  | idle => exact hi
  | destroyed => exact hi
  | _ => exact ⟨hi.fresh, hi.hasLoop, hi.returned, (fun h => by cases h), hi.begun⟩

theorem BootInv.step {act : Action τ φ} (hi : BootInv s) (hst : (system τ φ).Step s act s') :
    BootInv s' := by
  have hen : s.enabled act := hst.1
  have heq : s.step act = .ok s' := hst.2
  cases act with
  | startLoop =>
    rcases bind_eq_ok.mp heq with ⟨_, hno, heq⟩
    obtain rfl := Except.ok.inj heq
    have hnot : s.thread = .notStarted := hi.begun (of_check_ok hno)
    have hfresh : s.loop.Fresh := hi.fresh (by rw [hnot]; rfl)
    have hfalse : ∀ {p : Prop}, s.thread.published = true → p := by
      intro p h
      rw [hnot] at h
      cases h
    exact ⟨fun _ => hfresh, fun h => hfalse (hi.hasLoop h), fun h => hfalse (hi.returned h),
      (fun h => by cases h), (fun h => by cases h)⟩
  | destroy =>
    obtain rfl := Except.ok.inj heq
    exact ⟨hi.fresh, hi.hasLoop, hi.returned, (fun h => by cases h), hi.begun⟩
  | owner =>
    obtain rfl := Except.ok.inj heq
    exact hi.owner
  | thread woken =>
    obtain rfl := Except.ok.inj heq
    exact hi.thread hen
  | loop act =>
    rcases loopStep_cases heq with ⟨loop, hloop, ⟨rfl, rfl⟩ | ⟨⟨t, rfl⟩, rfl⟩ | ⟨hne, hno, rfl⟩⟩
    · have hentering : s.thread = .entering := hen.2
      refine ⟨(fun h => by cases h), fun _ => rfl, fun _ => rfl, fun _ => rfl, fun hno => ?_⟩
      have hnot := hi.begun hno
      rw [hentering] at hnot
      cases hnot
    · exact ⟨fun hent => (hi.fresh hent).of_step hen.1 (by simp) hloop, hi.hasLoop, hi.returned,
        hi.quitting, hi.begun⟩
    · exact ⟨fun hent => (hi.fresh hent).of_step hen.1 hne hloop, hi.hasLoop, hi.returned,
        hi.quitting, hi.begun⟩
  | wake p =>
    obtain rfl := Except.ok.inj heq
    exact ⟨hi.fresh, hi.hasLoop, hi.returned, hi.quitting, hi.begun⟩

/-- The quit is lost: the loop thread is in `loop()` with `quit_` false. -/
def Lost (s : EventLoopThread τ φ) : Prop :=
  s.quitCalled = true ∧ s.thread = .looping ∧ s.loop.quit = false

theorem lost_of_entering (hf : s.loop.Fresh) (ht : s.thread = .entering)
    (hq : s.quitCalled = true) : ∃ acts r, (system τ φ).Run s acts r ∧ r.Lost := by
  have hstart : s.loop.step .startLoop =
      .ok { s.loop with looping := true, quit := false, point := .whileTest } := if_pos hf.looping
  have heq : s.loopStep .startLoop = .ok { s with
      loop := { s.loop with looping := true, quit := false, point := .whileTest }
      thread := .looping } := by
    simp only [loopStep, hstart, ok_bind, pure_eq_ok]
  have hst : (system τ φ).Step s (.loop .startLoop) _ := ⟨⟨⟨hf.free, hf.outside⟩, ht⟩, heq⟩
  exact ⟨_, _, Run.single hst, hq, rfl, rfl⟩

theorem lost_of_unlock (hf : s.loop.Fresh) (ht : s.thread = .unlock)
    (hq : s.quitCalled = true) : ∃ acts r, (system τ φ).Run s acts r ∧ r.Lost := by
  have hstep : s.threadStep none =
      { s with monitor := s.monitor.unlock, thread := .entering } := by
    simp only [threadStep, ht]
  have hst : (system τ φ).Step s (.thread none)
      { s with monitor := s.monitor.unlock, thread := .entering } := by
    refine ⟨?_, congrArg Except.ok hstep⟩
    change s.threadReady none s.thread
    rw [ht]
    trivial
  obtain ⟨acts, r, hrun, hlost⟩ := lost_of_entering
    (s := { s with monitor := s.monitor.unlock, thread := .entering }) hf rfl hq
  exact ⟨_, r, (Run.single hst).append hrun, hlost⟩

theorem lost_of_notify (hf : s.loop.Fresh) (ht : s.thread = .notify)
    (hq : s.quitCalled = true) : ∃ acts r, (system τ φ).Run s acts r ∧ r.Lost := by
  rcases s.monitor.exists_signals () with ⟨woken, hwoken⟩
  have hstep : s.threadStep woken =
      { s with monitor := s.monitor.signal () woken, thread := .unlock } := by
    simp only [threadStep, ht]
  have hst : (system τ φ).Step s (.thread woken)
      { s with monitor := s.monitor.signal () woken, thread := .unlock } := by
    refine ⟨?_, congrArg Except.ok hstep⟩
    change s.threadReady woken s.thread
    rw [ht]
    exact hwoken
  obtain ⟨acts, r, hrun, hlost⟩ := lost_of_unlock
    (s := { s with monitor := s.monitor.signal () woken, thread := .unlock }) hf rfl hq
  exact ⟨_, r, (Run.single hst).append hrun, hlost⟩

/-- Where the loop thread is when a quit comes too early. -/
theorem early_point {p : ThreadPoint} (hpub : p.published = true) (hent : p.entered = false) :
    p = .notify ∨ p = .unlock ∨ p = .entering := by
  cases p with
  | notify => exact .inl rfl
  | unlock => exact .inr (.inl rfl)
  | entering => exact .inr (.inr rfl)
  | notStarted | callback | lock | publish => cases hpub
  | looping | clearing | finished => cases hent

/-- **The condition leaves out only what goes wrong**: after a quit that comes before the
    start of `loop()` the loop thread can go on and lose it. -/
theorem quitsInsideLoop_exact {act : Action τ φ} (h : (system τ φ).Reachable s)
    (hst : (system τ φ).Step s act s') (hbad : ¬ s.quitsInsideLoop act) :
    ∃ acts r, (system τ φ).Run s' acts r ∧ r.Lost := by
  have hboot : ∀ {r : EventLoopThread τ φ}, (system τ φ).Reachable r → BootInv r := by
    intro r hr
    apply hr.invariant
    · rintro s₀ ⟨owner, rfl⟩
      exact new_bootInv owner
    · exact fun _ _ _ hi hst => hi.step hst
  have hi := hboot h
  have hi' := hboot (h.step hst)
  simp only [quitsInsideLoop, Classical.not_imp, Bool.not_eq_true] at hbad
  rcases hbad with ⟨hquits, hent⟩
  -- the step calls quit and leaves the loop thread where it is
  have hcalled : s'.quitCalled = true ∧ s'.thread = s.thread ∧ s.thread.published = true := by
    have hen : s.enabled act := hst.1
    have heq : s.step act = .ok s' := hst.2
    cases act with
    | loop act =>
      rcases loopStep_cases heq with ⟨loop, hloop, ⟨rfl, rfl⟩ | ⟨⟨t, rfl⟩, rfl⟩ | ⟨hne, hno, rfl⟩⟩
      · cases hquits
      · exact ⟨rfl, rfl, hi.returned hen.2.1⟩
      · unfold quits at hquits
        split at hquits
        · exact absurd (Action.loop.inj ‹_›) (hno _)
        · cases ‹Action.loop act = _›
        · cases hquits
    | owner =>
      have hpoint : s.ownerPoint = .dtorQuit := of_decide_eq_true hquits
      obtain rfl := Except.ok.inj heq
      simp only [ownerStep, hpoint]
      exact ⟨trivial, trivial, hi.quitting hpoint⟩
    | _ => cases hquits
  rcases hcalled with ⟨hq, hsame, hpub⟩
  have hf : s'.loop.Fresh := hi'.fresh (by rw [hsame]; exact hent)
  rcases early_point hpub hent with hp | hp | hp
  · exact lost_of_notify hf (hsame.trans hp) hq
  · exact lost_of_unlock hf (hsame.trans hp) hq
  · exact lost_of_entering hf (hsame.trans hp) hq

end EventLoopThread

end Kaycc
