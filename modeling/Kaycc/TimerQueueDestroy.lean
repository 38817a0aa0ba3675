/-
  Kaycc/TimerQueueDestroy.lean
  ============================
  **`~TimerQueue`: which Timers are deleted.**

  The destructor deletes what is in `timers_`.  A `Timer` is somewhere else while it is
  expired, which is over when `handleRead` has returned, and while the functor of its
  `addTimerInLoop` waits in the loop.  The loop does not call the functors that are left
  when it is destroyed, and a functor holds its `Timer` by a plain pointer, so these are
  the `Timer`s that nobody deletes.
-/
import Kaycc.TimerQueueIndexes

namespace Kaycc.TimerQueue

open Transition

variable {q : TimerQueue} {a : Addr} {t : Timer}

/-- The loop over `timers_` in `~TimerQueue`. -/
def deleteTimers (q : TimerQueue) : List Entry → Except Assertion TimerQueue
  | [] => .ok q
  | it :: rest => do
      let q' ← q.delete it.timer
      q'.deleteTimers rest

/-- `~TimerQueue()`. -/
def destruct (q : TimerQueue) : Except Assertion TimerQueue := q.deleteTimers q.timers.toList

end Kaycc.TimerQueue
