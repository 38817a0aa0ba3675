/-
  Kaycc/EventLoopThreadStart.lean
  ===============================
  **What `startLoop` returns.**

  `loop_` is the flag that `startLoop` waits for and the value that it returns.
  `threadFunc` sets it under the mutex and notifies, but clears it without the
  mutex when the loop ends, and `return loop_` reads it without the mutex.  A loop
  that quits early can clear it before `startLoop` has tested it, which then waits
  for ever, or between the test and the return, which then returns NULL
  (`Misled`).  In the runs in which `loop_ = NULL` comes after the return neither
  happens; and from every state in which it comes earlier one of the two follows
  (`clearsAfterReturn_exact`).

  A thread that got the loop from `callback_` may ask it to quit before `startLoop`
  has returned (`shared`).
-/
import Kaycc.EventLoopThreadQuit

namespace Kaycc

open Transition Transition.System

namespace EventLoopThread

/-! ### The statements of the two threads -/

/-- `threadFunc` has published `loop_` and notified. -/
def ThreadPoint.notified : ThreadPoint → Bool
  | .unlock | .entering | .looping | .clearing | .finished => true
  | _ => false

/-- Where `loop_` is not NULL. -/
def ThreadPoint.holdsLoop : ThreadPoint → Bool
  | .notify | .unlock | .entering | .looping | .clearing => true
  | _ => false

/-- The owner is in `startLoop`. -/
def OwnerPoint.inStartLoop : OwnerPoint → Bool
  | .startLock | .startTest | .startWait | .startUnlock | .startReturn => true
  | _ => false

/-- Where the mutex sees the owner. -/
def OwnerPoint.place : OwnerPoint → Monitor.Place Unit
  | .startTest | .startUnlock => .inside
  | .startWait => .waits ()
  | _ => .outside

/-- Where the mutex sees the loop thread. -/
def ThreadPoint.place : ThreadPoint → Monitor.Place Unit
  | .publish | .notify | .unlock => .inside
  | _ => .outside

variable {τ φ : Type} [DecidableEq τ] {s s' : EventLoopThread τ φ}

/-- The step is `loop_ = NULL`, and `startLoop` has returned when it is. -/
def clearsAfterReturn (s : EventLoopThread τ φ) : Action τ φ → Prop
  | .thread _ => s.thread = .clearing → s.ownerPoint.inStartLoop = false
  | _ => True

/-- A `quit()` by a thread to which `callback_` has given the loop. -/
def quitsEarly (s : EventLoopThread τ φ) : Action τ φ → Prop
  | .loop (.quit (.other t)) =>
      s.loop.enabled (.quit (.other t)) ∧ s.thread ≠ .notStarted ∧
        (t = s.owner → s.ownerPoint = .idle)
  | _ => False

/-- The system, with such threads. -/
def shared (τ φ : Type) [DecidableEq τ] :
    System (EventLoopThread τ φ) (Action τ φ) Assertion :=
  { system τ φ with enabled := fun s act => s.enabled act ∨ s.quitsEarly act }

/-- `startLoop` is about to return NULL, or the notify is past and it is blocked or about to
    block. -/
def Misled (s : EventLoopThread τ φ) : Prop :=
  (s.ownerPoint = .startReturn ∧ s.hasLoop = false) ∨
    (s.thread.notified = true ∧
      (.owner ∈ s.monitor.waiting () ∨ (s.ownerPoint = .startTest ∧ s.hasLoop = false)))

instance (s : EventLoopThread τ φ) : (act : Action τ φ) → Decidable (s.clearsAfterReturn act)
  | .thread _ => inferInstanceAs (Decidable (_ → _))
  | .startLoop | .destroy | .owner | .loop _ | .wake _ => .isTrue trivial

instance (s : EventLoopThread τ φ) : (act : Action τ φ) → Decidable (s.quitsEarly act)
  | .loop (.quit (.other _)) => inferInstanceAs (Decidable (_ ∧ _ ∧ (_ → _)))
  | .loop (.quit .loop) | .loop (.queueInLoop _ _) | .loop (.wakeup _) | .loop .startLoop
  | .loop .testQuit | .loop (.pollReturn _) | .loop .handleEvent | .loop .doPendingFunctors
  | .loop .swapFunctors | .loop .callFunctor | .loop .finishCalling | .loop .returnToLoop
  | .startLoop | .destroy | .owner | .thread _ | .wake _ => .isFalse id

instance (s : EventLoopThread τ φ) (act : Action τ φ) : Decidable ((shared τ φ).enabled s act) :=
  inferInstanceAs (Decidable ((system τ φ).enabled s act ∨ s.quitsEarly act))

/-! ### The invariant -/

def places (s : EventLoopThread τ φ) : Party → Monitor.Place Unit
  | .owner => s.ownerPoint.place
  | .loopThread => s.thread.place

omit [DecidableEq τ] in
theorem places_owner (s s' : EventLoopThread τ φ) (h : s'.thread = s.thread) :
    s'.places = Function.update s.places .owner s'.ownerPoint.place := by
  funext p
  cases p with
  | owner => simp [places]
  | loopThread => simp [places, h]

omit [DecidableEq τ] in
theorem places_thread (s s' : EventLoopThread τ φ) (h : s'.ownerPoint = s.ownerPoint) :
    s'.places = Function.update s.places .loopThread s'.thread.place := by
  funext p
  cases p with
  | owner => simp [places, h]
  | loopThread => simp [places]

structure StartInv (s : EventLoopThread τ φ) : Prop where
  follows : s.monitor.Follows s.places
  hasLoop : s.hasLoop = s.thread.holdsLoop
  begun : s.started = false → s.thread = .notStarted
  cleared : s.ownerPoint.inStartLoop = true → s.thread ≠ .finished
  passed : s.ownerPoint = .startUnlock ∨ s.ownerPoint = .startReturn → s.hasLoop = true
  blocked : .owner ∈ s.monitor.waiting () → s.thread.notified = false

omit [DecidableEq τ] in
theorem new_startInv (owner : τ) : StartInv (new owner : EventLoopThread τ φ) where
  follows := Monitor.follows_free fun p => by cases p <;> rfl
  hasLoop := rfl
  begun := fun _ => rfl
  cleared := nofun
  passed := by rintro (h | h) <;> cases h
  blocked := fun h => absurd h (Finset.notMem_empty _)

omit [DecidableEq τ] in
/-- The loop thread goes on to its next statement. -/
theorem StartInv.threadTo (hi : StartInv s) {p : ThreadPoint} {m : Monitor Party Unit}
    {hasLoop : Bool} (hm : m.Follows (Function.update s.places .loopThread p.place))
    (hloop : hasLoop = p.holdsLoop) (hstarted : s.thread ≠ .notStarted)
    (hfinished : p = .finished → s.ownerPoint.inStartLoop = false)
    (hholds : s.thread.holdsLoop = true → p ≠ .finished → p.holdsLoop = true)
    (hblocked : .owner ∈ m.waiting () → p.notified = false) :
    StartInv { s with monitor := m, hasLoop := hasLoop, thread := p } where
  follows := Eq.mpr (congrArg m.Follows (places_thread s _ rfl)) hm
  hasLoop := hloop
  begun := fun hno => absurd (hi.begun hno) hstarted
  cleared := by
    intro hin hp
    rw [hfinished hp] at hin
    cases hin
  passed := by
    intro hpoint
    have hne : p ≠ .finished := by
      intro hp
      have hout := hfinished hp
      rcases hpoint with h | h <;> rw [show s.ownerPoint = _ from h] at hout <;> cases hout
    exact hloop.trans (hholds (hi.hasLoop.symm.trans (hi.passed hpoint)) hne)
  blocked := hblocked

omit [DecidableEq τ] in
/-- The owner goes on to its next statement, whatever it does to the loop. -/
theorem StartInv.ownerTo (hi : StartInv s) {p : OwnerPoint} {m : Monitor Party Unit}
    {loop : EventLoop τ φ} {returned quitCalled exiting : Bool}
    (hm : m.Follows (Function.update s.places .owner p.place))
    (hcleared : p.inStartLoop = true → s.thread ≠ .finished)
    (hpassed : p = .startUnlock ∨ p = .startReturn → s.hasLoop = true)
    (hblocked : .owner ∈ m.waiting () → s.thread.notified = false) :
    StartInv { s with loop := loop, exiting := exiting, monitor := m, ownerPoint := p,
                      returned := returned, quitCalled := quitCalled } where
  follows := Eq.mpr (congrArg m.Follows (places_owner s _ rfl)) hm
  hasLoop := hi.hasLoop
  begun := hi.begun
  cleared := hcleared
  passed := hpassed
  blocked := hblocked

omit [DecidableEq τ] in
/-- The notify wakes the owner if it is blocked. -/
theorem StartInv.owner_not_waiting (hi : StartInv s) (hp : s.thread = .notify)
    {woken : Option Party} (hw : s.monitor.Signals () woken) :
    Party.owner ∉ (s.monitor.signal () woken).waiting () := by
  cases woken with
  | none =>
    intro hmem
    have hempty : s.monitor.waiting () = ∅ := hw
    rw [show (s.monitor.signal () none).waiting () = ∅ from hempty] at hmem
    exact Finset.notMem_empty _ hmem
  | some p =>
    have hplace := hi.follows.waiting hw
    cases p with
    | owner => simp [Monitor.signal]
    | loopThread =>
      rw [show s.places .loopThread = s.thread.place from rfl, hp] at hplace
      cases hplace

omit [DecidableEq τ] in
theorem StartInv.not_blocked (hi : StartInv s) (h : s.thread.notified = true) :
    Party.owner ∉ s.monitor.waiting () := by
  intro hmem
  rw [hi.blocked hmem] at h
  cases h

omit [DecidableEq τ] in
/-- While `loop_` is NULL in `startLoop` the notify is still to come. -/
theorem StartInv.unnotified (hi : StartInv s) (hin : s.ownerPoint.inStartLoop = true)
    (hnull : s.hasLoop ≠ true) : s.thread.notified = false := by
  have hne := hi.cleared hin
  rw [hi.hasLoop] at hnull
  cases hp : s.thread with
  | notStarted | callback | lock | publish | notify => rfl
  | unlock | entering | looping | clearing =>
    rw [hp] at hnull
    exact absurd rfl hnull
  | finished => exact absurd hp hne

/-! ### Every step keeps it -/

omit [DecidableEq τ] in
theorem StartInv.threadStep (hi : StartInv s) {woken : Option Party}
    (hen : s.threadReady woken s.thread)
    (hcond : s.thread = .clearing → s.ownerPoint.inStartLoop = false) :
    StartInv (s.threadStep woken) := by
  have hplace : s.places .loopThread = s.thread.place := rfl
  unfold EventLoopThread.threadStep
  cases hp : s.thread with
  | notStarted | entering | finished =>
    rw [hp] at hen
    exact hen.elim
  | callback =>
    rw [hp] at hplace
    refine hi.threadTo (hi.follows.stay hplace) ?_ (by simp [hp]) nofun
      (by simp [hp, ThreadPoint.holdsLoop]) fun _ => rfl
    rw [hi.hasLoop, hp]
    rfl
  | lock =>
    rw [hp] at hplace hen
    refine hi.threadTo (hi.follows.lock hplace hen) ?_ (by simp [hp]) nofun
      (by simp [hp, ThreadPoint.holdsLoop]) fun _ => rfl
    rw [hi.hasLoop, hp]
    rfl
  | publish =>
    rw [hp] at hplace
    exact hi.threadTo (hi.follows.stay hplace) rfl (by simp [hp]) nofun (fun _ _ => rfl)
      fun _ => rfl
  | notify =>
    rw [hp] at hplace hen
    have hsignal := hi.follows.signal hen
    refine hi.threadTo (hsignal.stay hplace) ?_ (by simp [hp]) nofun (fun _ _ => rfl)
      fun hmem => absurd hmem (hi.owner_not_waiting hp hen)
    rw [hi.hasLoop, hp]
    rfl
  | unlock =>
    rw [hp] at hplace
    have hnot := hi.not_blocked (by rw [hp]; rfl)
    refine hi.threadTo (hi.follows.unlock hplace) ?_ (by simp [hp]) nofun (fun _ _ => rfl)
      fun hmem => absurd hmem hnot
    rw [hi.hasLoop, hp]
    rfl
  | looping =>
    rw [hp] at hplace
    have hnot := hi.not_blocked (by rw [hp]; rfl)
    refine hi.threadTo (hi.follows.stay hplace) ?_ (by simp [hp]) nofun (fun _ _ => rfl)
      fun hmem => absurd hmem hnot
    rw [hi.hasLoop, hp]
    rfl
  | clearing =>
    rw [hp] at hplace
    have hnot := hi.not_blocked (by rw [hp]; rfl)
    exact hi.threadTo (hi.follows.stay hplace) rfl (by simp [hp]) (fun _ => hcond hp)
      (fun _ h => absurd rfl h) fun hmem => absurd hmem hnot

theorem StartInv.ownerStep (hi : StartInv s) (hen : s.ownerReady s.ownerPoint) :
    StartInv s.ownerStep := by
  have hplace : s.places .owner = s.ownerPoint.place := rfl
  have hcleared := hi.cleared
  unfold EventLoopThread.ownerStep
  cases hp : s.ownerPoint with
  | idle | destroyed =>
    rw [hp] at hen
    exact hen.elim
  | startLock =>
    rw [hp] at hplace hen hcleared
    exact hi.ownerTo (hi.follows.lock hplace hen) (fun _ => hcleared rfl) (by simp) hi.blocked
  | startTest =>
    rw [hp] at hplace hcleared
    dsimp only
    split
    · rename_i hset
      exact hi.ownerTo (hi.follows.stay hplace) (fun _ => hcleared rfl) (fun _ => hset) hi.blocked
    · rename_i hnull
      have hunnotified := hi.unnotified (by rw [hp]; rfl) hnull
      exact hi.ownerTo (hi.follows.wait hplace) (fun _ => hcleared rfl) (by simp)
        (fun _ => hunnotified)
  | startWait =>
    rw [hp] at hen hcleared
    exact hi.ownerTo (hi.follows.relock hen.2 hen.1) (fun _ => hcleared rfl) (by simp)
      hi.blocked
  | startUnlock =>
    rw [hp] at hplace hcleared
    exact hi.ownerTo (hi.follows.unlock hplace) (fun _ => hcleared rfl)
      (fun _ => hi.passed (.inl hp)) hi.blocked
  | dtorTest =>
    rw [hp] at hplace
    dsimp only
    split
    · exact hi.ownerTo (hi.follows.stay hplace) nofun (by simp) hi.blocked
    · exact hi.ownerTo (hi.follows.stay hplace) nofun (by simp) hi.blocked
  | startReturn | dtorQuit | dtorWakeup | dtorJoin =>
    rw [hp] at hplace
    dsimp only
    exact hi.ownerTo (hi.follows.stay hplace) nofun (by simp) hi.blocked

omit [DecidableEq τ] in
/-- What happens to the loop does not matter. -/
theorem StartInv.withLoop (hi : StartInv s) (loop : EventLoop τ φ) (quitCalled : Bool) :
    StartInv { s with loop := loop, quitCalled := quitCalled } :=
  ⟨hi.follows, hi.hasLoop, hi.begun, hi.cleared, hi.passed, hi.blocked⟩

theorem StartInv.loopStep (hi : StartInv s) {act : EventLoop.Action τ φ}
    (hready : act = .startLoop → s.thread = .entering) (h : s.loopStep act = .ok s') :
    StartInv s' := by
  obtain ⟨loop, _, ⟨hact, rfl⟩ | ⟨_, rfl⟩ | ⟨_, _, rfl⟩⟩ := loopStep_cases h
  · have hp := hready hact
    have hplace : s.places .loopThread = .outside := by
      change s.thread.place = _
      rw [hp]
      rfl
    have hnot := hi.not_blocked (by rw [hp]; rfl)
    have hset : s.hasLoop = true := by
      rw [hi.hasLoop, hp]
      rfl
    exact (hi.threadTo (p := .looping) (hi.follows.stay hplace) hset (by simp [hp]) nofun
      (fun _ _ => rfl) fun hmem => absurd hmem hnot).withLoop loop s.quitCalled
  · exact hi.withLoop loop true
  · exact hi.withLoop loop s.quitCalled

theorem StartInv.step {act : Action τ φ} (hi : StartInv s)
    (hst : ((shared τ φ).restrict clearsAfterReturn).Step s act s') : StartInv s' := by
  have hen : s.enabled act ∨ s.quitsEarly act := hst.1.1
  have hcond : s.clearsAfterReturn act := hst.condition
  have heq : s.step act = .ok s' := hst.2
  cases act with
  | startLoop =>
    have hidle : s.ownerPoint = .idle := hen.resolve_right id
    obtain ⟨_, hno, heq⟩ := bind_eq_ok.mp heq
    obtain rfl := Except.ok.inj heq
    have hp : s.thread = .notStarted := hi.begun (of_check_ok hno)
    have hplaces : ({ s with started := true, thread := .callback, ownerPoint := .startLock } :
        EventLoopThread τ φ).places = s.places := by
      funext p
      cases p with
      | owner => exact congrArg OwnerPoint.place hidle.symm
      | loopThread => exact congrArg ThreadPoint.place hp.symm
    refine ⟨Eq.mpr (congrArg s.monitor.Follows hplaces) hi.follows, ?_, nofun, nofun, by simp,
      fun _ => rfl⟩
    change s.hasLoop = false
    rw [hi.hasLoop, hp]
    rfl
  | destroy =>
    have hidle : s.ownerPoint = .idle := (hen.resolve_right id).1
    obtain rfl := Except.ok.inj heq
    have hplace : s.places .owner = .outside := congrArg OwnerPoint.place hidle
    exact hi.ownerTo (hi.follows.stay hplace) nofun (by simp) hi.blocked
  | owner =>
    obtain rfl := Except.ok.inj heq
    exact hi.ownerStep (hen.resolve_right id)
  | thread woken =>
    obtain rfl := Except.ok.inj heq
    exact hi.threadStep (hen.resolve_right id) hcond
  | loop act =>
    refine hi.loopStep (fun hact => ?_) heq
    subst hact
    exact (hen.resolve_right id).2
  | wake p =>
    have hmem : p ∈ s.monitor.waiting () := hen.resolve_right id
    obtain rfl := Except.ok.inj heq
    exact ⟨hi.follows.wake hmem, hi.hasLoop, hi.begun, hi.cleared, hi.passed,
      fun h => hi.blocked (Monitor.wake_subset h)⟩

theorem reachable_startInv (h : ((shared τ φ).restrict clearsAfterReturn).Reachable s) :
    StartInv s := by
  refine h.invariant ?_ fun _ _ _ hi hst => hi.step hst
  rintro _ ⟨owner, rfl⟩
  exact new_startInv owner

/-! ### The theorem -/

/-- **`startLoop` returns the live loop.**  In the runs in which `loop_ = NULL` comes after
    its return, `startLoop` is never misled, and what it returns is the loop. -/
theorem startLoop_returns_loop (h : ((shared τ φ).restrict clearsAfterReturn).Reachable s) :
    ¬ s.Misled ∧
      ∀ s', (shared τ φ).Step s .owner s' → s.ownerPoint = .startReturn → s'.returned = true := by
  have hi := reachable_startInv h
  constructor
  · rintro (⟨hp, hnull⟩ | ⟨hn, hmem | ⟨hp, hnull⟩⟩)
    · rw [hi.passed (.inr hp)] at hnull
      cases hnull
    · exact hi.not_blocked hn hmem
    · have hunnotified := hi.unnotified (by rw [hp]; rfl) (by simp [hnull])
      rw [hunnotified] at hn
      cases hn
  · intro s' hst hp
    obtain rfl := Except.ok.inj hst.2
    simp only [ownerStep, hp]
    exact hi.passed (.inr hp)

/-- A thread with the loop from `callback_` has asked it to quit before `loop()`, which is
    lost; the loop runs, and `startLoop` returns it. -/
theorem startLoop_returns_loop_quit :
    ∃ s s' : EventLoopThread Nat Nat, ((shared Nat Nat).restrict clearsAfterReturn).Reachable s ∧
      s.quitCalled = true ∧ s.thread = .looping ∧ (shared Nat Nat).Step s .owner s' ∧
      ¬ s.Misled ∧ s'.returned = true := by
  obtain ⟨s, s', hexec, hquit, hthread, hpoint, hst⟩ : ∃ s s' : EventLoopThread Nat Nat,
      ((shared Nat Nat).restrict clearsAfterReturn).exec (new 0) [.startLoop, .owner, .owner,
        .wake .owner, .owner, .owner, .thread none, .loop (.quit (.other 1)), .thread none,
        .thread none, .thread (some .owner), .thread none, .loop .startLoop, .owner, .owner,
        .owner] = some s ∧
      s.quitCalled = true ∧ s.thread = .looping ∧ s.ownerPoint = .startReturn ∧
      (shared Nat Nat).Step s .owner s' := ⟨_, _, rfl, rfl, rfl, rfl, .inl trivial, rfl⟩
  have hreach : ((shared Nat Nat).restrict clearsAfterReturn).Reachable s :=
    reachable_of_exec _ ⟨0, rfl⟩ hexec
  obtain ⟨hled, hreturns⟩ := startLoop_returns_loop hreach
  exact ⟨s, s', hreach, hquit, hthread, hst, hled, hreturns s' hst hpoint⟩

/-- **An event handler that quits the loop at once**: `loop_` is cleared before `startLoop`
    has taken the mutex, which then waits for ever; or before its return, which is NULL. -/
theorem startLoop_misled :
    ∃ s r : EventLoopThread Nat Nat, (shared Nat Nat).Reachable s ∧ (shared Nat Nat).Reachable r ∧
      s.thread = .finished ∧ .owner ∈ s.monitor.waiting () ∧ s.Misled ∧
      r.thread = .finished ∧ r.ownerPoint = .idle ∧ r.started = true ∧ r.returned = false := by
  obtain ⟨s, hexec, hfinished, hblocked⟩ : ∃ s : EventLoopThread Nat Nat,
      (shared Nat Nat).exec (new 0) [.startLoop, .thread none, .thread none, .thread none,
        .thread none, .thread none, .loop .startLoop, .loop .testQuit,
        .loop (.pollReturn [.userChannel]), .loop .handleEvent, .loop (.quit .loop),
        .loop .doPendingFunctors, .loop .swapFunctors, .loop .finishCalling, .loop .returnToLoop,
        .loop .testQuit, .thread none, .thread none, .owner, .owner] = some s ∧
      s.thread = .finished ∧ .owner ∈ s.monitor.waiting () := ⟨_, rfl, rfl, by decide⟩
  obtain ⟨r, hexec', hover, hidle, hstarted, hnull⟩ : ∃ r : EventLoopThread Nat Nat,
      (shared Nat Nat).exec (new 0) [.startLoop, .thread none, .thread none, .thread none,
        .thread none, .thread none, .owner, .owner, .owner, .loop .startLoop, .loop .testQuit,
        .loop (.pollReturn [.userChannel]), .loop .handleEvent, .loop (.quit .loop),
        .loop .doPendingFunctors, .loop .swapFunctors, .loop .finishCalling, .loop .returnToLoop,
        .loop .testQuit, .thread none, .thread none, .owner] = some r ∧
      r.thread = .finished ∧ r.ownerPoint = .idle ∧ r.started = true ∧ r.returned = false :=
    ⟨_, rfl, rfl, rfl, rfl, rfl⟩
  refine ⟨s, r, reachable_of_exec _ ⟨0, rfl⟩ hexec, reachable_of_exec _ ⟨0, rfl⟩ hexec',
    hfinished, hblocked, .inr ⟨?_, .inl hblocked⟩, hover, hidle, hstarted, hnull⟩
  rw [hfinished]
  rfl

/-! ### The condition is exact -/

omit [DecidableEq τ] in
/-- Nobody has the mutex when neither thread is inside. -/
theorem holder_none (hm : s.monitor.Follows s.places) (howner : s.ownerPoint.place ≠ .inside)
    (hthread : s.thread.place ≠ .inside) : s.monitor.holder = none := by
  cases hh : s.monitor.holder with
  | none => rfl
  | some p =>
    have hin := (hm.inside p).mpr hh
    cases p with
    | owner => exact absurd hin howner
    | loopThread => exact absurd hin hthread

theorem owner_step (hready : s.ownerReady s.ownerPoint) :
    (shared τ φ).Step s .owner s.ownerStep :=
  ⟨.inl hready, rfl⟩

/-- **The condition leaves out only what goes wrong**: when `loop_ = NULL` comes before the
    return, `startLoop` goes on and is misled. -/
theorem clearsAfterReturn_exact {act : Action τ φ}
    (h : ((shared τ φ).restrict clearsAfterReturn).Reachable s)
    (hst : (shared τ φ).Step s act s') (hbad : ¬ s.clearsAfterReturn act) :
    ∃ acts r, (shared τ φ).Run s' acts r ∧ r.Misled := by
  have hi := reachable_startInv h
  cases act with
  | thread woken =>
    obtain ⟨hclearing, hin⟩ := Classical.not_imp.mp hbad
    rw [Bool.not_eq_false] at hin
    have hs' : s' = { s with hasLoop := false, thread := .finished } := by
      obtain rfl := Except.ok.inj hst.2
      simp only [threadStep, hclearing]
    subst hs'
    have hthread : s.thread.place ≠ .inside := by
      rw [hclearing]
      rintro ⟨⟩
    have hnot := hi.not_blocked (by rw [hclearing]; rfl)
    cases hp : s.ownerPoint with
    | startLock =>
      have hfree := holder_none hi.follows (by rw [hp]; rintro ⟨⟩) hthread
      refine ⟨_, _, Run.single (owner_step ?_), ?_⟩
      · exact hfree
      · exact .inr ⟨rfl, .inr ⟨rfl, rfl⟩⟩
    | startTest => exact ⟨[], _, Run.nil _, .inr ⟨rfl, .inr ⟨rfl, rfl⟩⟩⟩
    | startWait =>
      have hfree := holder_none hi.follows (by rw [hp]; rintro ⟨⟩) hthread
      have hplace : s.places .owner = .waits () := congrArg OwnerPoint.place hp
      have hwoken := ((hi.follows.waits .owner ()).mp hplace).resolve_left hnot
      refine ⟨_, _, Run.single (owner_step ?_), ?_⟩
      · exact ⟨hfree, hwoken⟩
      · exact .inr ⟨rfl, .inr ⟨rfl, rfl⟩⟩
    | startUnlock =>
      refine ⟨_, _, Run.single (owner_step ?_), ?_⟩
      · trivial
      · exact .inl ⟨rfl, rfl⟩
    | startReturn => exact ⟨[], _, Run.nil _, .inl ⟨rfl, rfl⟩⟩
    | _ =>
      rw [hp] at hin
      cases hin
  | _ => exact absurd trivial hbad

end EventLoopThread

end Kaycc
