/-
  Kaycc/ThreadPool.lean
  =====================
  **`base/threadpool.cpp`: the task queue between its producers and its workers.**

  The pool is running: `start` has put its threads into `threads_`.  Each thread of
  the program has a place in the code (`Pc`), and a step is the next statement of
  one thread: to lock or unlock `mutex_`, to test a loop condition, to wait, to
  change the queue, to notify.  A thread of the pool executes `runInThread`; while
  it executes a task it is in code of the user, like every thread outside, and may
  itself call `run` or `stop`.

  `pushed` and `dequeued` record, in order, the tasks that were put into the queue
  and those taken out, with the thread that took them.
-/
import Kaycc.Assertion
import Kaycc.Monitor
import Kaycc.Transition

namespace Kaycc

open Transition

/-- `boost::function<void ()>`: something to call, or empty. -/
abbrev TaskFunc (φ : Type) := Option φ

namespace ThreadPool

inductive Cond where
  | notEmpty
  | notFull
deriving DecidableEq, Repr

/-- The next statement of a thread. -/
inductive Pc (τ φ : Type) where
  | user                              -- outside the pool, or in a task
  -- run(task)
  | runLock (task : TaskFunc φ)
  | runTest (task : TaskFunc φ)       -- while (isFull())
  | runWait (task : TaskFunc φ)       -- in notFull_.wait()
  | runPush (task : TaskFunc φ)       -- assert(!isFull()), push_back(task)
  | runNotify
  | runUnlock
  -- stop()
  | stopLock
  | stopRunning                       -- running_ = false
  | stopNotify                        -- notEmpty_.notifyAll()
  | stopUnlock
  | stopJoin (rest : List τ)          -- for_each: join() of the threads left
  | stopJoining (t : τ) (rest : List τ)   -- in pthread_join
  -- runInThread(), takeTask()
  | loopTest                          -- while (running_)
  | takeLock
  | takeTest                          -- while (queue_.empty() && running_)
  | takeWait                          -- in notEmpty_.wait()
  | takePop
  | takeNotify (task : TaskFunc φ)
  | takeUnlock (task : TaskFunc φ)
  | finished
deriving DecidableEq, Repr

end ThreadPool

open ThreadPool in
structure ThreadPool (τ φ : Type) where
  maxQueueSize : Nat
  threads : List τ
  monitor : Monitor τ Cond            -- mutex_, notEmpty_, notFull_
  queue : List (TaskFunc φ)
  running : Bool
  joined : List τ                     -- the threads whose joined_ is set
  pc : τ → Pc τ φ
  pushed : List (TaskFunc φ)
  dequeued : List (τ × TaskFunc φ)

namespace ThreadPool

variable {τ φ : Type}

/-- The pool after `setMaxQueueSize` and `start`: its threads are about to call
    `threadInitCallback_`. -/
def started (maxQueueSize : Nat) (threads : List τ) : ThreadPool τ φ where
  maxQueueSize := maxQueueSize
  threads := threads
  monitor := Monitor.free
  queue := []
  running := true
  joined := []
  pc := fun _ => .user
  pushed := []
  dequeued := []

def full (s : ThreadPool τ φ) : Prop := 0 < s.maxQueueSize ∧ s.maxQueueSize ≤ s.queue.length

instance (s : ThreadPool τ φ) : Decidable s.full := inferInstanceAs (Decidable (_ ∧ _))

variable [DecidableEq τ]

/-- The thread goes on to its next statement. -/
def goto (s : ThreadPool τ φ) (t : τ) (p : Pc τ φ) : ThreadPool τ φ :=
  { s with pc := Function.update s.pc t p }

def withMonitor (s : ThreadPool τ φ) (m : Monitor τ Cond) : ThreadPool τ φ :=
  { s with monitor := m }

/-- `queue_.push_back(task)`. -/
def pushBack (s : ThreadPool τ φ) (task : TaskFunc φ) : ThreadPool τ φ :=
  { s with queue := s.queue ++ [task], pushed := s.pushed ++ [task] }

/-- `queue_.front()` and `queue_.pop_front()`, with what is behind. -/
def popFront (s : ThreadPool τ φ) (t : τ) (task : TaskFunc φ) (rest : List (TaskFunc φ)) :
    ThreadPool τ φ :=
  { s with queue := rest, dequeued := s.dequeued ++ [(t, task)] }

/-- `isFull`, called by the thread. -/
def isFull (s : ThreadPool τ φ) (t : τ) : Except Assertion Bool := do
  check (s.monitor.holder = some t) .mutexLockedByThisThread
  pure (decide s.full)

/-! ### `run` -/

/-- The call of `run`: without threads the caller executes the task itself. -/
def run (s : ThreadPool τ φ) (t : τ) (task : TaskFunc φ) : ThreadPool τ φ :=
  if s.threads = [] then s else s.goto t (.runLock task)

/-- `while (isFull()) { notFull_.wait(); }`. -/
def runTest (s : ThreadPool τ φ) (t : τ) (task : TaskFunc φ) :
    Except Assertion (ThreadPool τ φ) := do
  let full ← s.isFull t
  if full = true then
    pure ((s.withMonitor (s.monitor.wait .notFull t)).goto t (.runWait task))
  else pure (s.goto t (.runPush task))

def runPush (s : ThreadPool τ φ) (t : τ) (task : TaskFunc φ) :
    Except Assertion (ThreadPool τ φ) := do
  let full ← s.isFull t
  check (full = false) .runNotFull
  pure ((s.pushBack task).goto t .runNotify)

/-! ### `takeTask` and `runInThread` -/

/-- `while (queue_.empty() && running_) { notEmpty_.wait(); }`. -/
def takeTest (s : ThreadPool τ φ) (t : τ) : ThreadPool τ φ :=
  if s.queue = [] ∧ s.running = true then
    (s.withMonitor (s.monitor.wait .notEmpty t)).goto t .takeWait
  else s.goto t .takePop

/-- `task` is the front of the queue, or empty when the queue is. -/
def takePop (s : ThreadPool τ φ) (t : τ) : ThreadPool τ φ :=
  match s.queue with
  | [] => s.goto t (.takeUnlock none)
  | task :: rest =>
      (s.popFront t task rest).goto t
        (if 0 < s.maxQueueSize then .takeNotify task else .takeUnlock task)

/-- `if (task) { task(); }`. -/
def callTask (task : TaskFunc φ) : Pc τ φ := if task.isSome = true then .user else .loopTest

/-! ### `stop` -/

/-- The next round of `for_each(.., &Thread::join)`, up to `pthread_join`. -/
def stopJoin (s : ThreadPool τ φ) (t : τ) : List τ → Except Assertion (ThreadPool τ φ)
  | [] => .ok (s.goto t .user)
  | u :: rest => do
      check (u ∉ s.joined) .threadNotJoined
      pure (({ s with joined := u :: s.joined }).goto t (.stopJoining u rest))

/-! ### The steps of all threads -/

inductive Action (τ φ : Type) where
  | run (t : τ) (task : TaskFunc φ)   -- user code calls run
  | stop (t : τ)                      -- user code calls stop
  | taskReturns (t : τ)               -- the task, or threadInitCallback_, returns
  | next (t : τ) (woken : Option τ)   -- the thread's next statement; whom a notify wakes
  | wake (c : Cond) (t : τ)           -- a spurious wakeup
deriving DecidableEq

/-- What the next statement of a thread waits for. -/
def canAdvance (s : ThreadPool τ φ) (t : τ) (woken : Option τ) : Pc τ φ → Prop
  | .user => False
  | .finished => False
  | .runLock _ => s.monitor.holder = none
  | .stopLock => s.monitor.holder = none
  | .takeLock => s.monitor.holder = none
  | .runWait _ => s.monitor.holder = none ∧ t ∈ s.monitor.woken .notFull
  | .takeWait => s.monitor.holder = none ∧ t ∈ s.monitor.woken .notEmpty
  | .runNotify => s.monitor.Signals .notEmpty woken
  | .takeNotify _ => s.monitor.Signals .notFull woken
  | .stopJoining u _ => u = t ∨ s.pc u = .finished   -- joining oneself fails at once
  | _ => True

def advance (s : ThreadPool τ φ) (t : τ) (woken : Option τ) :
    Pc τ φ → Except Assertion (ThreadPool τ φ)
  | .user => .ok s
  | .runLock task => .ok ((s.withMonitor (s.monitor.lock t)).goto t (.runTest task))
  | .runTest task => s.runTest t task
  | .runWait task => .ok ((s.withMonitor (s.monitor.relock .notFull t)).goto t (.runTest task))
  | .runPush task => s.runPush t task
  | .runNotify => .ok ((s.withMonitor (s.monitor.signal .notEmpty woken)).goto t .runUnlock)
  | .runUnlock => .ok ((s.withMonitor s.monitor.unlock).goto t .user)
  | .stopLock => .ok ((s.withMonitor (s.monitor.lock t)).goto t .stopRunning)
  | .stopRunning => .ok (({ s with running := false }).goto t .stopNotify)
  | .stopNotify => .ok ((s.withMonitor (s.monitor.broadcast .notEmpty)).goto t .stopUnlock)
  | .stopUnlock => .ok ((s.withMonitor s.monitor.unlock).goto t (.stopJoin s.threads))
  | .stopJoin rest => s.stopJoin t rest
  | .stopJoining _ rest => .ok (s.goto t (.stopJoin rest))
  | .loopTest => .ok (s.goto t (if s.running = true then .takeLock else .finished))
  | .takeLock => .ok ((s.withMonitor (s.monitor.lock t)).goto t .takeTest)
  | .takeTest => .ok (s.takeTest t)
  | .takeWait => .ok ((s.withMonitor (s.monitor.relock .notEmpty t)).goto t .takeTest)
  | .takePop => .ok (s.takePop t)
  | .takeNotify task =>
      .ok ((s.withMonitor (s.monitor.signal .notFull woken)).goto t (.takeUnlock task))
  | .takeUnlock task => .ok ((s.withMonitor s.monitor.unlock).goto t (callTask task))
  | .finished => .ok s

def enabled (s : ThreadPool τ φ) : Action τ φ → Prop
  | .run t _ => s.pc t = .user
  | .stop t => s.pc t = .user
  | .taskReturns t => s.pc t = .user ∧ t ∈ s.threads
  | .next t woken => s.canAdvance t woken (s.pc t)
  | .wake c t => t ∈ s.monitor.waiting c

def step (s : ThreadPool τ φ) : Action τ φ → Except Assertion (ThreadPool τ φ)
  | .run t task => .ok (s.run t task)
  | .stop t => .ok (s.goto t .stopLock)
  | .taskReturns t => .ok (s.goto t .loopTest)
  | .next t woken => s.advance t woken (s.pc t)
  | .wake c t => .ok (s.withMonitor (s.monitor.wake c t))

/-- The pool has at least one thread, and no thread twice. -/
def system (τ φ : Type) [DecidableEq τ] : System (ThreadPool τ φ) (Action τ φ) Assertion where
  init s := ∃ maxQueueSize threads, threads ≠ [] ∧ threads.Nodup ∧
    s = started maxQueueSize threads
  enabled := enabled
  step := step

/-- Only threads outside the pool call `run`. -/
def runOutside (s : ThreadPool τ φ) : Action τ φ → Prop
  | .run t _ => t ∉ s.threads
  | _ => True

variable [DecidableEq φ]

instance (s : ThreadPool τ φ) (t : τ) (woken : Option τ) :
    (p : Pc τ φ) → Decidable (s.canAdvance t woken p)
  | .user | .finished => inferInstanceAs (Decidable False)
  | .runLock _ | .stopLock | .takeLock => inferInstanceAs (Decidable (s.monitor.holder = none))
  | .runWait _ => inferInstanceAs (Decidable (_ ∧ t ∈ s.monitor.woken .notFull))
  | .takeWait => inferInstanceAs (Decidable (_ ∧ t ∈ s.monitor.woken .notEmpty))
  | .runNotify => inferInstanceAs (Decidable (s.monitor.Signals .notEmpty woken))
  | .takeNotify _ => inferInstanceAs (Decidable (s.monitor.Signals .notFull woken))
  | .stopJoining u _ => inferInstanceAs (Decidable (u = t ∨ s.pc u = .finished))
  | .runTest _ | .runPush _ | .runUnlock | .stopRunning | .stopNotify | .stopUnlock | .stopJoin _
  | .loopTest | .takeTest | .takePop | .takeUnlock _ => inferInstanceAs (Decidable True)

instance (s : ThreadPool τ φ) : (act : Action τ φ) → Decidable ((system τ φ).enabled s act)
  | .run t _ => inferInstanceAs (Decidable (s.pc t = .user))
  | .stop t => inferInstanceAs (Decidable (s.pc t = .user))
  | .taskReturns t => inferInstanceAs (Decidable (s.pc t = .user ∧ t ∈ s.threads))
  | .next t woken => inferInstanceAs (Decidable (s.canAdvance t woken (s.pc t)))
  | .wake c t => inferInstanceAs (Decidable (t ∈ s.monitor.waiting c))

omit [DecidableEq φ] in
instance (s : ThreadPool τ φ) : (act : Action τ φ) → Decidable (s.runOutside act)
  | .run t _ => inferInstanceAs (Decidable (t ∉ s.threads))
  | .stop _ | .taskReturns _ | .next _ _ | .wake _ _ => inferInstanceAs (Decidable True)

end ThreadPool

end Kaycc
