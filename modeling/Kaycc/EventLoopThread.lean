/-
  Kaycc/EventLoopThread.lean
  ==========================
  **`net/eventloopthread.cpp`: a loop in a thread of its own.**

  Two threads meet here: the loop thread, which runs `threadFunc`, and the owner,
  which calls `startLoop` and later the destructor.  They synchronise through
  `mutex_` and `cond_` on `loop_`.  The `EventLoop` itself is the one of
  `EventLoop.lean`, whose steps are steps here as soon as they make sense:
  `loop()` is entered by `threadFunc` once, the loop thread runs user code in
  `callback_` and inside `loop()`, and other threads call `quit` on a loop that
  `startLoop` has returned.

  Joining the thread is a step that waits for its end.
-/
import Kaycc.EventLoop
import Kaycc.Monitor

namespace Kaycc

open Transition

namespace EventLoopThread

inductive Party where
  | owner
  | loopThread
deriving DecidableEq, Repr

/-- The next statement of `threadFunc`. -/
inductive ThreadPoint where
  | notStarted
  | callback     -- the loop has been constructed, in callback_
  | lock
  | publish      -- loop_ = &loop
  | notify
  | unlock
  | entering     -- at loop.loop()
  | looping      -- in loop.loop(), past quit_ = false
  | clearing     -- at loop_ = NULL
  | finished
deriving DecidableEq, Repr

/-- The next statement of the owner. -/
inductive OwnerPoint where
  | idle
  -- startLoop()
  | startLock
  | startTest    -- while (loop_ == NULL)
  | startWait    -- in cond_.wait()
  | startUnlock
  | startReturn  -- return loop_
  -- ~EventLoopThread()
  | dtorTest     -- if (loop_ != NULL)
  | dtorQuit     -- loop_->quit(), up to its wakeup
  | dtorWakeup
  | dtorJoin     -- in thread_.join()
  | destroyed
deriving DecidableEq, Repr

/-- The loop thread has set `quit_ = false` at the start of `loop()`. -/
def ThreadPoint.entered : ThreadPoint → Bool
  | .looping | .clearing | .finished => true
  | _ => false

end EventLoopThread

open EventLoopThread in
structure EventLoopThread (τ φ : Type) where
  owner : τ
  loop : EventLoop τ φ              -- the local variable of threadFunc
  hasLoop : Bool                    -- loop_ != NULL
  exiting : Bool
  started : Bool                    -- thread_.started()
  monitor : Monitor Party Unit      -- mutex_, cond_
  thread : ThreadPoint
  ownerPoint : OwnerPoint
  returned : Bool                   -- startLoop has returned a loop
  quitCalled : Bool                 -- quit() has been executed on it

namespace EventLoopThread

variable {τ φ : Type} [DecidableEq τ]

def new (owner : τ) : EventLoopThread τ φ where
  owner := owner
  loop := EventLoop.new
  hasLoop := false
  exiting := false
  started := false
  monitor := Monitor.free
  thread := .notStarted
  ownerPoint := .idle
  returned := false
  quitCalled := false

/-- The call of `startLoop`, up to its lock. -/
def startLoop (s : EventLoopThread τ φ) : Except Assertion (EventLoopThread τ φ) := do
  check (s.started = false) .threadNotStarted
  pure { s with started := true, thread := .callback, ownerPoint := .startLock }

/-- The owner's next statement. -/
def ownerStep (s : EventLoopThread τ φ) : EventLoopThread τ φ :=
  match s.ownerPoint with
  | .startLock => { s with monitor := s.monitor.lock .owner, ownerPoint := .startTest }
  | .startTest =>
      if s.hasLoop = true then { s with ownerPoint := .startUnlock }
      else { s with monitor := s.monitor.wait () .owner, ownerPoint := .startWait }
  | .startWait => { s with monitor := s.monitor.relock () .owner, ownerPoint := .startTest }
  | .startUnlock => { s with monitor := s.monitor.unlock, ownerPoint := .startReturn }
  | .startReturn => { s with returned := s.hasLoop, ownerPoint := .idle }
  | .dtorTest =>
      if s.hasLoop = true then { s with ownerPoint := .dtorQuit }
      else { s with ownerPoint := .destroyed }
  | .dtorQuit =>
      { s with loop := s.loop.requestQuit (.other s.owner), quitCalled := true,
               ownerPoint := .dtorWakeup }
  | .dtorWakeup => { s with loop := s.loop.wakeup (.other s.owner), ownerPoint := .dtorJoin }
  | .dtorJoin => { s with ownerPoint := .destroyed }
  | .idle | .destroyed => s

/-- What it waits for. -/
def ownerReady (s : EventLoopThread τ φ) : OwnerPoint → Prop
  | .idle | .destroyed => False
  | .startLock => s.monitor.holder = none
  | .startWait => s.monitor.holder = none ∧ .owner ∈ s.monitor.woken ()
  | .dtorJoin => s.thread = .finished
  | _ => True

/-- The next statement of `threadFunc` outside `loop()`; `woken` is whom the notify
    wakes. -/
def threadStep (s : EventLoopThread τ φ) (woken : Option Party) : EventLoopThread τ φ :=
  match s.thread with
  | .callback => { s with thread := .lock }
  | .lock => { s with monitor := s.monitor.lock .loopThread, thread := .publish }
  | .publish => { s with hasLoop := true, thread := .notify }
  | .notify => { s with monitor := s.monitor.signal () woken, thread := .unlock }
  | .unlock => { s with monitor := s.monitor.unlock, thread := .entering }
  | .looping => { s with thread := .clearing }
  | .clearing => { s with hasLoop := false, thread := .finished }
  | .notStarted | .entering | .finished => s

/-- What it waits for. -/
def threadReady (s : EventLoopThread τ φ) (woken : Option Party) : ThreadPoint → Prop
  | .notStarted | .entering | .finished => False
  | .lock => s.monitor.holder = none
  | .notify => s.monitor.Signals () woken
  | .looping => s.loop.point = .outside ∧ s.loop.loopFree
  | _ => True

/-! ### The steps of all threads -/

inductive Action (τ φ : Type) where
  | startLoop
  | destroy
  | owner
  | thread (woken : Option Party)
  | loop (act : EventLoop.Action τ φ)
  | wake (p : Party)                   -- a spurious wakeup
deriving Repr

/-- The loop thread runs user code: in `callback_`, or inside `loop()`. -/
def inUserCode (s : EventLoopThread τ φ) : Prop :=
  s.thread = .callback ∨ (s.thread = .looping ∧ s.loop.point ≠ .outside)

/-- When a step of the loop can be taken. -/
def loopReady (s : EventLoopThread τ φ) : EventLoop.Action τ φ → Prop
  | .startLoop => s.thread = .entering
  | .quit (.other t) => s.returned = true ∧ (t = s.owner → s.ownerPoint = .idle)
  | .queueInLoop (.other t) _ | .wakeup (.other t) =>
      s.thread ≠ .notStarted ∧ (t = s.owner → s.ownerPoint = .idle)
  | .quit .loop | .queueInLoop .loop _ | .wakeup .loop => s.inUserCode
  | _ => s.thread = .looping

def loopStep (s : EventLoopThread τ φ) (act : EventLoop.Action τ φ) :
    Except Assertion (EventLoopThread τ φ) := do
  let loop ← s.loop.step act
  match act with
  | .startLoop => pure { s with loop := loop, thread := .looping }
  | .quit (.other _) => pure { s with loop := loop, quitCalled := true }
  | _ => pure { s with loop := loop }

def enabled (s : EventLoopThread τ φ) : Action τ φ → Prop
  | .startLoop => s.ownerPoint = .idle
  | .destroy => s.ownerPoint = .idle ∧ s.loop.owes (.other s.owner) = .nothing
  | .owner => s.ownerReady s.ownerPoint
  | .thread woken => s.threadReady woken s.thread
  | .loop act => s.loop.enabled act ∧ s.loopReady act
  | .wake p => p ∈ s.monitor.waiting ()

def step (s : EventLoopThread τ φ) : Action τ φ → Except Assertion (EventLoopThread τ φ)
  | .startLoop => s.startLoop
  | .destroy => .ok { s with exiting := true, ownerPoint := .dtorTest }
  | .owner => .ok s.ownerStep
  | .thread woken => .ok (s.threadStep woken)
  | .loop act => s.loopStep act
  | .wake p => .ok { s with monitor := s.monitor.wake () p }

def system (τ φ : Type) [DecidableEq τ] :
    System (EventLoopThread τ φ) (Action τ φ) Assertion where
  init s := ∃ owner, s = new owner
  enabled := enabled
  step := step

/-- The step executes `quit_ = true` of a `quit()` on the loop that `startLoop` has
    returned. -/
def quits (s : EventLoopThread τ φ) : Action τ φ → Bool
  | .loop (.quit (.other _)) => true
  | .owner => decide (s.ownerPoint = .dtorQuit)
  | _ => false

/-- A `quit()` comes only after the start of `loop()`. -/
def quitsInsideLoop (s : EventLoopThread τ φ) (act : Action τ φ) : Prop :=
  s.quits act = true → s.thread.entered = true

instance (s : EventLoopThread τ φ) : (p : OwnerPoint) → Decidable (s.ownerReady p)
  | .idle | .destroyed => inferInstanceAs (Decidable False)
  | .startLock => inferInstanceAs (Decidable (s.monitor.holder = none))
  | .startWait =>
      inferInstanceAs (Decidable (s.monitor.holder = none ∧ Party.owner ∈ s.monitor.woken ()))
  | .dtorJoin => inferInstanceAs (Decidable (s.thread = .finished))
  | .startTest | .startUnlock | .startReturn | .dtorTest | .dtorQuit | .dtorWakeup =>
      inferInstanceAs (Decidable True)

instance (s : EventLoopThread τ φ) (woken : Option Party) :
    (p : ThreadPoint) → Decidable (s.threadReady woken p)
  | .notStarted | .entering | .finished => inferInstanceAs (Decidable False)
  | .lock => inferInstanceAs (Decidable (s.monitor.holder = none))
  | .notify => inferInstanceAs (Decidable (s.monitor.Signals () woken))
  | .looping => inferInstanceAs (Decidable (_ ∧ s.loop.loopFree))
  | .callback | .publish | .unlock | .clearing => inferInstanceAs (Decidable True)

instance (s : EventLoopThread τ φ) : Decidable s.inUserCode :=
  inferInstanceAs (Decidable (_ ∨ (_ ∧ _)))

instance (s : EventLoopThread τ φ) :
    (act : EventLoop.Action τ φ) → Decidable (s.loopReady act)
  | .startLoop => inferInstanceAs (Decidable (s.thread = .entering))
  | .quit (.other _) => inferInstanceAs (Decidable (_ ∧ (_ → _)))
  | .queueInLoop (.other _) _ | .wakeup (.other _) => inferInstanceAs (Decidable (_ ∧ (_ → _)))
  | .quit .loop | .queueInLoop .loop _ | .wakeup .loop =>
      inferInstanceAs (Decidable s.inUserCode)
  | .testQuit | .pollReturn _ | .handleEvent | .doPendingFunctors | .swapFunctors | .callFunctor
  | .finishCalling | .returnToLoop => inferInstanceAs (Decidable (s.thread = .looping))

instance (s : EventLoopThread τ φ) : (act : Action τ φ) → Decidable ((system τ φ).enabled s act)
  | .startLoop => inferInstanceAs (Decidable (s.ownerPoint = .idle))
  | .destroy => inferInstanceAs (Decidable (_ ∧ _))
  | .owner => inferInstanceAs (Decidable (s.ownerReady s.ownerPoint))
  | .thread woken => inferInstanceAs (Decidable (s.threadReady woken s.thread))
  | .loop act => inferInstanceAs (Decidable (s.loop.enabled act ∧ s.loopReady act))
  | .wake p => inferInstanceAs (Decidable (p ∈ s.monitor.waiting ()))

instance (s : EventLoopThread τ φ) (act : Action τ φ) : Decidable (s.quitsInsideLoop act) :=
  inferInstanceAs (Decidable (_ → _))

end EventLoopThread

end Kaycc
