/-
  Kaycc/TimerQueue.lean
  =====================
  **`net/timerqueue.cpp`: the timer queue, its callers and its timerfd.**

  `Timer` objects live on a heap that maps an address to the object; `delete`
  empties the address and the allocator may hand it out again.  The loop thread
  calls `addTimer` and `cancel` directly; for any other thread they are functors
  that wait in the loop's queue.  `handleRead` is cut at the points where user
  code runs, that is before each callback: `handleReadBegin` reads the timerfd
  and detaches the expired entries, `runExpired` starts the next callback, and
  `handleReadEnd` is what follows the last one.  What a callback does to the
  queue are `addTimer` and `cancel` steps of the loop thread in between.

  The log records what is to be observed: which ids `addTimer` returned, which
  ids `cancelInLoop` was executed for, which callbacks were started, which
  `Timer`s were deleted.
-/
import Kaycc.OrderedSet
import Kaycc.Timer
import Kaycc.Transition

namespace Kaycc

open Transition

abbrev ActiveTimer := TimerId

namespace TimerQueue

/-- What another thread has asked of the loop, `loop_->runInLoop(bind(..))`. -/
inductive Functor where
  | addTimerInLoop (timer : Addr)
  | cancelInLoop (id : TimerId)
deriving DecidableEq, Repr

inductive Event where
  | created (id : TimerId)
  | cancelled (id : TimerId)
  | started (id : TimerId)
  | deleted (id : TimerId)
deriving DecidableEq, Repr

/-- The local state of `handleRead`: its `now`, and `expired` split into the entries
    whose callback has been started and the others. -/
structure Batch where
  now : Timestamp
  ran : List Entry
  todo : List Entry
deriving DecidableEq, Repr

end TimerQueue

open TimerQueue in
structure TimerQueue where
  heap : Addr → Option Timer
  numCreated : Nat                    -- Timer::s_numCreated_
  timers : OrderedSet Entry
  activeTimers : OrderedSet ActiveTimer
  callingExpiredTimers : Bool
  cancelingTimers : OrderedSet ActiveTimer
  armed : Option Timestamp            -- the last resetTimerfd since the timerfd was read
  batch : Option Batch                -- inside handleRead
  pendingFunctors : List Functor
  log : List Event

namespace TimerQueue

/-- `#define UINTPTR_MAX (4294967295U)`. -/
def UINTPTR_MAX : Addr := 4294967295

def new : TimerQueue where
  heap := fun _ => none
  numCreated := 0
  timers := OrderedSet.empty
  activeTimers := OrderedSet.empty
  callingExpiredTimers := false
  cancelingTimers := OrderedSet.empty
  armed := none
  batch := none
  pendingFunctors := []
  log := []

/-! ### The heap -/

def setHeap (q : TimerQueue) (a : Addr) (t : Option Timer) : TimerQueue :=
  { q with heap := Function.update q.heap a t }

def record (q : TimerQueue) (e : Event) : TimerQueue := { q with log := q.log ++ [e] }

/-- `*timer`. -/
def timerAt (q : TimerQueue) (a : Addr) : Except Assertion Timer :=
  match q.heap a with
  | some t => .ok t
  | none => .error .timerAlive

/-- `delete timer`. -/
def delete (q : TimerQueue) (a : Addr) : Except Assertion TimerQueue := do
  let t ← q.timerAt a
  pure ((q.setHeap a none).record (.deleted ⟨a, t.sequence⟩))

/-- `detail::resetTimerfd`; `timerfd_settime` succeeds. -/
def resetTimerfd (q : TimerQueue) (expiration : Timestamp) : TimerQueue :=
  { q with armed := some expiration }

/-! ### Adding and cancelling -/

/-- `insert`: the queue, and `earliestChanged`. -/
def insert (q : TimerQueue) (timer : Addr) : Except Assertion (TimerQueue × Bool) := do
  check (q.timers.size = q.activeTimers.size) .timerSizesEqual
  let t ← q.timerAt timer
  let when := t.expiration
  let earliestChanged := match q.timers.begin? with
    | none => true
    | some it => decide (when < it.when)
  let timers := q.timers.insert ⟨when, timer⟩
  check (timers.2 = true) .timerInserted
  let activeTimers := q.activeTimers.insert ⟨timer, t.sequence⟩
  check (activeTimers.2 = true) .activeTimerInserted
  check (timers.1.size = activeTimers.1.size) .timerSizesEqual
  pure ({ q with timers := timers.1, activeTimers := activeTimers.1 }, earliestChanged)

def addTimerInLoop (q : TimerQueue) (timer : Addr) : Except Assertion TimerQueue := do
  let inserted ← q.insert timer
  if inserted.2 = true then
    let t ← inserted.1.timerAt timer
    pure (inserted.1.resetTimerfd t.expiration)
  else pure inserted.1

/-- The part of `cancelInLoop` between its two size assertions. -/
def cancelFound (q : TimerQueue) (id : TimerId) : Except Assertion TimerQueue :=
  if id ∈ q.activeTimers then do
    let t ← q.timerAt id.timer
    let timers := q.timers.erase ⟨t.expiration, id.timer⟩
    check (timers.2 = 1) .cancelErased
    let q' ← ({ q with timers := timers.1 }).delete id.timer
    pure { q' with activeTimers := (q'.activeTimers.erase id).1 }
  else if q.callingExpiredTimers = true then
    pure { q with cancelingTimers := (q.cancelingTimers.insert id).1 }
  else pure q

def cancelInLoop (q : TimerQueue) (id : TimerId) : Except Assertion TimerQueue := do
  check (q.timers.size = q.activeTimers.size) .timerSizesEqual
  let q' ← q.cancelFound id
  check (q'.timers.size = q'.activeTimers.size) .timerSizesEqual
  pure (q'.record (.cancelled id))

/-- Who calls: the loop's own thread (`isInLoopThread()`) or another one. -/
inductive Caller where
  | loopThread
  | otherThread
deriving DecidableEq, Repr

/-- `new Timer(cb, when, interval)` at the address the allocator gives. -/
def newTimer (q : TimerQueue) (timer : Addr) (when : Timestamp) (interval : Interval) :
    TimerQueue :=
  { (q.setHeap timer (some ⟨when, interval, q.numCreated + 1⟩)).record
      (.created ⟨timer, q.numCreated + 1⟩) with numCreated := q.numCreated + 1 }

def queueFunctor (q : TimerQueue) (f : Functor) : TimerQueue :=
  { q with pendingFunctors := q.pendingFunctors ++ [f] }

/-- `addTimer`: create the timer, and `runInLoop` its `addTimerInLoop`. -/
def addTimer (q : TimerQueue) (caller : Caller) (timer : Addr) (when : Timestamp)
    (interval : Interval) : Except Assertion TimerQueue :=
  match caller with
  | .loopThread => (q.newTimer timer when interval).addTimerInLoop timer
  | .otherThread => .ok ((q.newTimer timer when interval).queueFunctor (.addTimerInLoop timer))

/-- `cancel`: `runInLoop` its `cancelInLoop`. -/
def cancel (q : TimerQueue) (caller : Caller) (id : TimerId) : Except Assertion TimerQueue :=
  match caller with
  | .loopThread => q.cancelInLoop id
  | .otherThread => .ok (q.queueFunctor (.cancelInLoop id))

/-- The loop runs the next of the queue's functors. -/
def runFunctor (q : TimerQueue) : Except Assertion TimerQueue :=
  match q.pendingFunctors with
  | [] => .ok q
  | .addTimerInLoop timer :: rest => ({ q with pendingFunctors := rest }).addTimerInLoop timer
  | .cancelInLoop id :: rest => ({ q with pendingFunctors := rest }).cancelInLoop id

/-! ### `handleRead` -/

/-- The second loop of `getExpired`: the expired timers leave `activeTimers_`. -/
def eraseExpired (q : TimerQueue) : List Entry → Except Assertion TimerQueue
  | [] => .ok q
  | it :: rest => do
      let t ← q.timerAt it.timer
      let activeTimers := q.activeTimers.erase ⟨it.timer, t.sequence⟩
      check (activeTimers.2 = 1) .expiredErased
      ({ q with activeTimers := activeTimers.1 }).eraseExpired rest

/-- `getExpired`: the queue, and the entries detached from it. -/
def getExpired (q : TimerQueue) (now : Timestamp) :
    Except Assertion (TimerQueue × List Entry) := do
  check (q.timers.size = q.activeTimers.size) .timerSizesEqual
  let sentry : Entry := ⟨now, UINTPTR_MAX⟩
  let expired := q.timers.beforeLowerBound sentry
  let remaining := q.timers.fromLowerBound sentry
  check (∀ it, remaining.begin? = some it → now < it.when) .expiredBoundary
  let q' ← ({ q with timers := remaining }).eraseExpired expired
  check (q'.timers.size = q'.activeTimers.size) .timerSizesEqual
  pure (q', expired)

/-- `handleRead` up to its loop over `expired`. -/
def handleReadBegin (q : TimerQueue) (now : Timestamp) : Except Assertion TimerQueue := do
  let got ← ({ q with armed := none }).getExpired now
  pure { got.1 with
    callingExpiredTimers := true
    cancelingTimers := OrderedSet.empty
    batch := some ⟨now, [], got.2⟩ }

/-- One round of the loop over `expired`: `it->second->run()` starts its callback. -/
def runExpired (q : TimerQueue) : Except Assertion TimerQueue :=
  match q.batch with
  | some ⟨now, ran, it :: rest⟩ => do
      let t ← q.timerAt it.timer
      pure { q.record (.started ⟨it.timer, t.sequence⟩) with
        batch := some ⟨now, ran ++ [it], rest⟩ }
  | _ => .ok q

/-- One round of the loop of `reset`. -/
def resetOne (q : TimerQueue) (now : Timestamp) (it : Entry) : Except Assertion TimerQueue := do
  let t ← q.timerAt it.timer
  if t.repeats = true ∧ (⟨it.timer, t.sequence⟩ : ActiveTimer) ∉ q.cancelingTimers then
    let inserted ← (q.setHeap it.timer (some (t.restart now))).insert it.timer
    pure inserted.1
  else q.delete it.timer

def resetLoop (q : TimerQueue) (now : Timestamp) : List Entry → Except Assertion TimerQueue
  | [] => .ok q
  | it :: rest => do
      let q' ← q.resetOne now it
      q'.resetLoop now rest

/-- The end of `reset`: `nextExpire`, and the timerfd armed for it if it is valid. -/
def armNext (q : TimerQueue) : Except Assertion TimerQueue :=
  match q.timers.begin? with
  | none => .ok q
  | some it => do
      let t ← q.timerAt it.timer
      if t.expiration.valid = true then pure (q.resetTimerfd t.expiration) else pure q

/-- `handleRead` after its loop over `expired`: `reset(expired, now)`. -/
def handleReadEnd (q : TimerQueue) : Except Assertion TimerQueue :=
  match q.batch with
  | some ⟨now, ran, []⟩ => do
      let q' ← ({ q with callingExpiredTimers := false, batch := none }).resetLoop now ran
      q'.armNext
  | _ => .ok q

/-! ### The steps of all threads -/

inductive Action where
  | addTimer (caller : Caller) (timer : Addr) (when : Timestamp) (interval : Interval)
  | cancel (caller : Caller) (id : TimerId)
  | runFunctor
  | handleReadBegin (now : Timestamp)
  | runExpired
  | handleReadEnd
deriving DecidableEq

/-- The loop thread can be in user code: not inside `handleRead`, or in a callback. -/
def runsUserCode (q : TimerQueue) : Prop := ∀ b, q.batch = some b → b.ran ≠ []

/-- The allocator hands out a free address; functors and `handleRead` follow one
    another on the loop thread. -/
def enabled (q : TimerQueue) : Action → Prop
  | .addTimer caller timer _ _ =>
      timer ≠ 0 ∧ q.heap timer = none ∧ (caller = .loopThread → q.runsUserCode)
  | .cancel caller _ => caller = .loopThread → q.runsUserCode
  | .runFunctor => q.batch = none ∧ q.pendingFunctors ≠ []
  | .handleReadBegin _ => q.batch = none
  | .runExpired => ∃ b, q.batch = some b ∧ b.todo ≠ []
  | .handleReadEnd => ∃ b, q.batch = some b ∧ b.todo = []

def step (q : TimerQueue) : Action → Except Assertion TimerQueue
  | .addTimer caller timer when interval => q.addTimer caller timer when interval
  | .cancel caller id => q.cancel caller id
  | .runFunctor => q.runFunctor
  | .handleReadBegin now => q.handleReadBegin now
  | .runExpired => q.runExpired
  | .handleReadEnd => q.handleReadEnd

def system : System TimerQueue Action Assertion where
  init q := q = new
  enabled := enabled
  step := step

/-- The id for which the step executes `cancelInLoop`. -/
def cancelledBy (q : TimerQueue) : Action → Option TimerId
  | .cancel .loopThread id => some id
  | .runFunctor => match q.pendingFunctors with
      | .cancelInLoop id :: _ => some id
      | _ => none
  | _ => none

instance (q : TimerQueue) : Decidable q.runsUserCode :=
  match h : q.batch with
  | none => .isTrue fun b hb => by cases h.symm.trans hb
  | some b =>
      if hr : b.ran = [] then .isFalse fun hu => hu b h hr
      else .isTrue fun b' hb => by cases h.symm.trans hb; exact hr

instance (q : TimerQueue) (p : Batch → Prop) [DecidablePred p] :
    Decidable (∃ b, q.batch = some b ∧ p b) :=
  match h : q.batch with
  | none => .isFalse fun ⟨_, hb, _⟩ => by cases hb
  | some b =>
      if hp : p b then .isTrue ⟨b, rfl, hp⟩
      else .isFalse fun ⟨b', hb, hp'⟩ => by cases hb; exact hp hp'

instance (q : TimerQueue) : (act : Action) → Decidable (system.enabled q act)
  | .addTimer caller timer _ _ => inferInstanceAs (Decidable
      (timer ≠ 0 ∧ q.heap timer = none ∧ (caller = .loopThread → q.runsUserCode)))
  | .cancel caller _ => inferInstanceAs (Decidable (caller = .loopThread → q.runsUserCode))
  | .runFunctor => inferInstanceAs (Decidable (q.batch = none ∧ q.pendingFunctors ≠ []))
  | .handleReadBegin _ => inferInstanceAs (Decidable (q.batch = none))
  | .runExpired => inferInstanceAs (Decidable (∃ b, q.batch = some b ∧ b.todo ≠ []))
  | .handleReadEnd => inferInstanceAs (Decidable (∃ b, q.batch = some b ∧ b.todo = []))

end TimerQueue

end Kaycc
