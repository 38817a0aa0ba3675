/-
  Kaycc/Assertion.lean
  ====================
  **The assertions of the library, by name.**

  Every modelled function that contains an `assert` returns `Except Assertion _`
  and stops with the assertion that does not hold.  A constructor names the
  function and what it asserts; two asserts of one function that say the same
  thing about the same map entry share a constructor.
-/
import Kaycc.Postcondition

namespace Kaycc

inductive Assertion where
  -- EventLoop
  | loopNotLooping              -- loop(): !looping_
  | removeChannelInactive       -- removeChannel(): the current channel, or not active
  -- Channel, EPollPoller, PollPoller
  | channelRemoveIsNoneEvent    -- Channel::remove(): isNoneEvent()
  | updateChannelNew            -- updateChannel(), kNew: the fd is not in channels_
  | updateChannelKnown          -- updateChannel(): channels_[fd] == channel
  | updateChannelAdded          -- updateChannel(): index == kAdded
  | removeChannelKnown          -- removeChannel(): channels_[fd] == channel
  | removeChannelIsNoneEvent    -- removeChannel(): isNoneEvent()
  | removeChannelIndex          -- removeChannel(): kAdded or kDeleted
  | pollIndex                   -- PollPoller: 0 <= idx && idx < pollfds_.size()
  | pollUpdateFd                -- updateChannel(): pfd.fd == fd() || pfd.fd == -fd()-1
  | pollRemoveFd                -- removeChannel(): pfd.fd == -fd()-1, pfd.events == events()
  | pollChannelAtEnd            -- not an assert: channels_[channelAtEnd] is not null
  | fillActiveFound             -- fillActiveChannels(): the fd is in channels_
  | fillActiveFd                -- fillActiveChannels(): channel->fd() == pfd->fd
  | channelNotHandling          -- ~Channel(): !eventHandling_
  | channelNotAdded             -- ~Channel(): !addedToLoop_
  | channelNotInLoop            -- ~Channel(): !loop_->hasChannel(this)
  -- Buffer
  | bufferInitialSize           -- Buffer(): writableBytes() == kInitialSize
  | bufferRetrieve              -- retrieve(): len <= readableBytes()
  | bufferEnsureWritable        -- ensureWritableBytes(): writableBytes() >= len
  | bufferHasWritten            -- hasWritten(): len <= writableBytes()
  | bufferMakeSpace             -- makeSpace(): kCheapPrepend < readerIndex_
  | bufferMakeSpaceReadable     -- makeSpace(): readable == readableBytes()
  | bufferRetrieveUnitl         -- retrieveUnitl(): peek() <= end, end <= beginWrite()
  | bufferRetrieveAsString      -- retrieveAsString(): len <= readableBytes()
  | bufferUnwrite               -- unwrite(): len <= readableBytes()
  | bufferPrepend               -- prepend(): len <= prependableBytes()
  | readFdPastEnd               -- not an assert: readFd() stays inside buffer_ and extrabuf
  | bufferPeekInt               -- peekInt64() and the others: readableBytes() >= sizeof
  | peekInt16Returns            -- not an assert: peekInt16() ends with a return
  -- TcpConnection
  | connectEstablishedConnecting -- connectEstablished(): state_ == kConnecting
  | handleCloseConnected        -- handleClose(): kConnected or kDisconnecting
  | dtorDisconnected            -- ~TcpConnection(): state_ == kDisconnected
  -- TcpServer
  | removeConnectionErased      -- removeConnectionInLoop(): n == 1
  | serverAlive                 -- not an assert: a destroyed TcpServer is never called
  -- Connector, TcpClient
  | connectorDisconnected       -- startInLoop(): state_ == kDisconnected
  | connectorNoChannel          -- connecting(): !channel_
  | connectorChannel            -- not an assert: removeAndResetChannel() has a channel_
  | handleWriteDisconnected     -- handleWrite(): state_ == kDisconnected
  | removeConnectionCurrent     -- TcpClient::removeConnection(): connection_ == conn
  -- TimerQueue
  | timerSizesEqual             -- timers_.size() == activeTimers_.size()
  | timerInserted               -- insert(): timers_.insert succeeded
  | activeTimerInserted         -- insert(): activeTimers_.insert succeeded
  | cancelErased                -- cancelInLoop(): n == 1
  | expiredBoundary             -- getExpired(): end == timers_.end() || now < end->first
  | expiredErased               -- getExpired(): n == 1
  | timerAlive                  -- not an assert: a deleted Timer is never touched
  -- MutexLock, Thread, ThreadPool, EventLoopThread
  | mutexLockedByThisThread     -- assertLockByThisThread(): isLockedByThisThread()
  | startNotStarted             -- Thread::start(): !started_
  | startTid                    -- Thread::start(): tid_ > 0
  | threadNotJoined             -- Thread::join(): !joined_
  | threadNotStarted            -- EventLoopThread::startLoop(): !thread_.started()
  | runNotFull                  -- run(): !isFull()
deriving DecidableEq, Repr

/-- `assert(c)`. -/
def check (c : Prop) [Decidable c] (a : Assertion) : Except Assertion Unit :=
  if c then .ok () else .error a

theorem check_eq_ok {c : Prop} [Decidable c] {a : Assertion} (h : c) : check c a = .ok () :=
  if_pos h

theorem of_check_ok {c : Prop} [Decidable c] {a : Assertion} {u : Unit}
    (h : check c a = .ok u) : c := by
  unfold check at h
  split at h
  · assumption
  · cases h

theorem of_check_error {c : Prop} [Decidable c] {a e : Assertion} (h : check c a = .error e) :
    e = a := by
  unfold check at h
  split at h
  · cases h
  · exact (Except.error.inj h).symm

theorem check_ends {c : Prop} [Decidable c] {a : Assertion} {E : Assertion → Prop} (h : E a) :
    Postcondition.Ends (fun _ => c) E (check c a) :=
  Postcondition.ends_ite id fun _ => h

/-- A sequence of two computations ends well when both do. -/
theorem bind_eq_ok {α β : Type} {x : Except Assertion α} {f : α → Except Assertion β} {r : β} :
    (x >>= f) = .ok r ↔ ∃ a, x = .ok a ∧ f a = .ok r := by
  cases x with
  | error e => exact ⟨fun h => (by cases h), fun ⟨_, h, _⟩ => (by cases h)⟩
  | ok a => exact ⟨fun h => ⟨a, rfl, h⟩, fun ⟨_, ha, h⟩ => (by cases ha; exact h)⟩

/-- It stops when one of them does. -/
theorem bind_eq_error {α β : Type} {x : Except Assertion α} {f : α → Except Assertion β}
    {e : Assertion} :
    (x >>= f) = .error e ↔ x = .error e ∨ ∃ a, x = .ok a ∧ f a = .error e := by
  cases x with
  | error e' =>
    refine ⟨fun h => .inl (by cases h; rfl), fun h => ?_⟩
    rcases h with h | ⟨_, h, _⟩
    · cases h
      rfl
    · cases h
  | ok a =>
    refine ⟨fun h => .inr ⟨a, rfl, h⟩, fun h => ?_⟩
    rcases h with h | ⟨_, ha, h⟩
    · cases h
    · cases ha
      exact h

@[simp] theorem ok_bind {α β : Type} (a : α) (f : α → Except Assertion β) :
    (Except.ok a >>= f) = f a := rfl

@[simp] theorem pure_eq_ok {α : Type} (a : α) : (pure a : Except Assertion α) = .ok a := rfl

end Kaycc
