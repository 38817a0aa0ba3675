/-
  Kaycc/EventLoop.lean
  ====================
  **`net/eventloop.cpp`: the loop thread, its pending functors and its wakeups.**

  One thread runs `loop()`; any number of other threads (the type `τ`) call
  `queueInLoop` and `quit`.  A step is one move of one thread, so a run is an
  interleaving:

    * `queueInLoop` is two steps, the `push_back` under `mutex_` and then the
      `wakeup()`; a thread that has pushed and not yet woken the loop `owes` a
      wakeup;
    * `loop()` is cut at the points where other threads or user code can be
      seen: the test of `quit_`, `poller_->poll`, each `handleEvent`, and in
      `doPendingFunctors` the setting of `callingPendingFunctors_`, the swap,
      each functor, the clearing of the flag, and the end of the function, where
      the local vector and with it the bound arguments are destroyed.

  A functor is an opaque value of type `φ`: what its body does to the loop is to
  call `queueInLoop` and `quit`, and these are steps of the loop thread of their
  own.  The eventfd is its counter: a write adds, a read resets to zero, and the
  wakeup channel is reported only while the counter is not zero.
-/
import Kaycc.Assertion
import Kaycc.SwapQueue
import Kaycc.Transition

namespace Kaycc

open Transition

namespace EventLoop

/-- Who calls: the loop's own thread (`isInLoopThread()`) or another one. -/
inductive Thread (τ : Type*) where
  | loop
  | other (t : τ)
deriving DecidableEq, Repr

/-- An entry of `pendingFunctors_`, with who pushed it and as which push. -/
structure Pushed (τ φ : Type*) where
  functor : φ
  pusher : Thread τ
  seq : Nat
deriving DecidableEq, Repr

/-- What a thread has still to do inside `queueInLoop` or `quit`: nothing, or
    the `wakeup()`, which belongs to a push or (`none`) to a `quit`. -/
inductive Owes where
  | nothing
  | wakeup (push : Option Nat)
deriving DecidableEq, Repr

/-- Where the loop thread is. -/
inductive Point where
  | outside      -- not inside `loop()`: before it starts or after it has returned
  | whileTest    -- at `while (!quit_)`
  | polling      -- entering `poller_->poll`, or blocked in it
  | handling     -- going through `activeChannels_`
  | swapping     -- in `doPendingFunctors`, the flag set and the vector not yet swapped
  | calling      -- in `doPendingFunctors`, running `functors[i]()`
  | returning    -- the flag cleared, `functors` being destroyed
deriving DecidableEq, Repr

/-- A channel that `poll` reports: the loop's own eventfd, or any other. -/
inductive Active where
  | wakeupChannel
  | userChannel
deriving DecidableEq, Repr

end EventLoop

open EventLoop in
structure EventLoop (τ φ : Type*) where
  point : Point
  looping : Bool
  quit : Bool
  eventHandling : Bool
  callingPendingFunctors : Bool
  wakeupFd : Nat
  activeChannels : List Active              -- those not yet handled in this iteration
  currentActiveChannel : Option Active
  functors : SwapQueue.History (Pushed τ φ) -- pendingFunctors_ and the local vector
  owes : Thread τ → Owes

namespace EventLoop

variable {τ φ : Type*} [DecidableEq τ]

/-- The constructor: not looping, nothing pending, the eventfd at zero. -/
def new : EventLoop τ φ where
  point := .outside
  looping := false
  quit := false
  eventHandling := false
  callingPendingFunctors := false
  wakeupFd := 0
  activeChannels := []
  currentActiveChannel := none
  functors := SwapQueue.History.empty
  owes := fun _ => .nothing

def setOwes (s : EventLoop τ φ) (t : Thread τ) (o : Owes) : EventLoop τ φ :=
  { s with owes := Function.update s.owes t o }

/-- The first step of `queueInLoop`: push under `mutex_`, and decide
    `!isInLoopThread() || callingPendingFunctors_`. -/
def queueInLoop (s : EventLoop τ φ) (t : Thread τ) (cb : φ) : EventLoop τ φ :=
  let seq := s.functors.pushed.length
  let pushed := { s with functors := s.functors.push ⟨cb, t, seq⟩ }
  if t ≠ .loop ∨ s.callingPendingFunctors = true then
    pushed.setOwes t (.wakeup (some seq))
  else pushed

/-- `wakeup()`: write 1 to the eventfd. -/
def wakeup (s : EventLoop τ φ) (t : Thread τ) : EventLoop τ φ :=
  { s.setOwes t .nothing with wakeupFd := s.wakeupFd + 1 }

/-- The first step of `quit()`. -/
def requestQuit (s : EventLoop τ φ) (t : Thread τ) : EventLoop τ φ :=
  let quitting := { s with quit := true }
  if t ≠ .loop then quitting.setOwes t (.wakeup none) else quitting

/-- `loop()` up to its while loop. -/
def startLoop (s : EventLoop τ φ) : Except Assertion (EventLoop τ φ) :=
  if s.looping = false then
    .ok { s with looping := true, quit := false, point := .whileTest }
  else .error .loopNotLooping

/-- `while (!quit_)`: on to `activeChannels_.clear()` and `poll`, or out of `loop()`. -/
def testQuit (s : EventLoop τ φ) : EventLoop τ φ :=
  if s.quit = true then { s with looping := false, point := .outside }
  else { s with activeChannels := [], point := .polling }

/-- `poll` has returned with `active`. -/
def pollReturn (s : EventLoop τ φ) (active : List Active) : EventLoop τ φ :=
  { s with activeChannels := active, eventHandling := true, point := .handling }

/-- One round of the `for` over `activeChannels_`.  The wakeup channel's read
    callback is `EventLoop::handleRead`; what any other channel's callbacks do to
    the loop are steps of their own, taken while it is the current channel. -/
def handleEvent (s : EventLoop τ φ) : EventLoop τ φ :=
  match s.activeChannels with
  | [] => s
  | .wakeupChannel :: rest =>
      { s with activeChannels := rest, currentActiveChannel := some .wakeupChannel,
               wakeupFd := 0 }
  | .userChannel :: rest =>
      { s with activeChannels := rest, currentActiveChannel := some .userChannel }

/-- The end of the `for`, and the first line of `doPendingFunctors`. -/
def doPendingFunctors (s : EventLoop τ φ) : EventLoop τ φ :=
  { s with currentActiveChannel := none, eventHandling := false,
           callingPendingFunctors := true, point := .swapping }

/-- `functors.swap(pendingFunctors_)` under `mutex_`. -/
def swapFunctors (s : EventLoop τ φ) : EventLoop τ φ :=
  { s with functors := s.functors.swap, point := .calling }

/-- `functors[i]()`. -/
def callFunctor (s : EventLoop τ φ) : EventLoop τ φ :=
  { s with functors := s.functors.runNext }

/-- `callingPendingFunctors_ = false`; the local vector is still alive. -/
def finishCalling (s : EventLoop τ φ) : EventLoop τ φ :=
  { s with callingPendingFunctors := false, point := .returning }

/-- `doPendingFunctors` has returned. -/
def returnToLoop (s : EventLoop τ φ) : EventLoop τ φ :=
  { s with point := .whileTest }

/-! ### The steps of all threads -/

inductive Action (τ φ : Type*) where
  | queueInLoop (t : Thread τ) (cb : φ)
  | wakeup (t : Thread τ)
  | quit (t : Thread τ)
  | startLoop
  | testQuit
  | pollReturn (active : List Active)
  | handleEvent
  | doPendingFunctors
  | swapFunctors
  | callFunctor
  | finishCalling
  | returnToLoop
deriving Repr

/-- User code can be running on the loop thread: outside `loop()`, in a callback
    of a channel, in the body of a functor, or in a destructor of one. -/
def runsUserCode (s : EventLoop τ φ) : Prop :=
  s.point = .outside ∨ (s.point = .handling ∧ s.currentActiveChannel = some .userChannel) ∨
    s.point = .calling ∨ s.point = .returning

/-- The loop thread has nothing left to do in a `queueInLoop` of its own. -/
def loopFree (s : EventLoop τ φ) : Prop := s.owes .loop = .nothing

def enabled (s : EventLoop τ φ) : Action τ φ → Prop
  | .queueInLoop t _ => s.owes t = .nothing ∧ (t = .loop → s.runsUserCode)
  | .wakeup t => s.owes t ≠ .nothing
  | .quit t => s.owes t = .nothing ∧ (t = .loop → s.runsUserCode)
  | .startLoop => s.loopFree ∧ s.point = .outside
  | .testQuit => s.loopFree ∧ s.point = .whileTest
  | .pollReturn active =>
      s.loopFree ∧ s.point = .polling ∧ (.wakeupChannel ∈ active → 0 < s.wakeupFd)
  | .handleEvent => s.loopFree ∧ s.point = .handling ∧ s.activeChannels ≠ []
  | .doPendingFunctors => s.loopFree ∧ s.point = .handling ∧ s.activeChannels = []
  | .swapFunctors => s.loopFree ∧ s.point = .swapping
  | .callFunctor => s.loopFree ∧ s.point = .calling ∧ s.functors.queue.batch ≠ []
  | .finishCalling => s.loopFree ∧ s.point = .calling ∧ s.functors.queue.batch = []
  | .returnToLoop => s.loopFree ∧ s.point = .returning

def step (s : EventLoop τ φ) : Action τ φ → Except Assertion (EventLoop τ φ)
  | .queueInLoop t cb => .ok (s.queueInLoop t cb)
  | .wakeup t => .ok (s.wakeup t)
  | .quit t => .ok (s.requestQuit t)
  | .startLoop => s.startLoop
  | .testQuit => .ok s.testQuit
  | .pollReturn active => .ok (s.pollReturn active)
  | .handleEvent => .ok s.handleEvent
  | .doPendingFunctors => .ok s.doPendingFunctors
  | .swapFunctors => .ok s.swapFunctors
  | .callFunctor => .ok s.callFunctor
  | .finishCalling => .ok s.finishCalling
  | .returnToLoop => .ok s.returnToLoop

variable (τ φ) in
/-- The loop thread and the threads `τ`, from a fresh `EventLoop`. -/
def system : System (EventLoop τ φ) (Action τ φ) Assertion where
  init s := s = new
  enabled := enabled
  step := step

instance (s : EventLoop τ φ) : Decidable s.runsUserCode :=
  inferInstanceAs (Decidable (_ ∨ (_ ∧ _) ∨ _ ∨ _))

instance (s : EventLoop τ φ) : Decidable s.loopFree :=
  inferInstanceAs (Decidable (_ = _))

instance (s : EventLoop τ φ) : (a : Action τ φ) → Decidable (s.enabled a)
  | .queueInLoop _ _ | .quit _ => inferInstanceAs (Decidable (_ ∧ (_ → _)))
  | .wakeup _ => inferInstanceAs (Decidable (_ ≠ _))
  | .pollReturn _ => inferInstanceAs (Decidable (_ ∧ _ ∧ (_ → _)))
  | .startLoop | .testQuit | .swapFunctors | .returnToLoop =>
      inferInstanceAs (Decidable (_ ∧ _))
  | .handleEvent | .doPendingFunctors | .callFunctor | .finishCalling =>
      inferInstanceAs (Decidable (_ ∧ _ ∧ _))

instance (s : EventLoop τ φ) (a : Action τ φ) : Decidable ((system τ φ).enabled s a) :=
  inferInstanceAs (Decidable (s.enabled a))

end EventLoop

end Kaycc
