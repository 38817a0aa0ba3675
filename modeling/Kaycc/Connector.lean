/-
  Kaycc/Connector.lean
  ====================
  **`net/connector.cpp`: attempts to connect, with retries.**

  The functions are those of the source.  What the kernel answers is an argument:
  `Errno` for `sockets::connect`, and for a writable socket whether `SO_ERROR` is
  set and whether the socket is connected to itself.

  `start` and `stop` are called in any thread.  Each writes `connect_` first and
  pushes its functor later; `calling` holds the functors that are still to be
  pushed.  A `start` on the loop's thread goes on with `startInLoop` itself.  The
  loop's thread is cut where other threads may write `connect_` between two of its
  tests: before `startInLoop`, in `sockets::connect`, and where it calls
  `newConnectionCallback_`.  Sockets are numbered in the order in which they are
  opened.

  Events may be handled and timers may fire between any two functors, which is more
  than the loop does.
-/
import Kaycc.Channel
import Kaycc.Transition

namespace Kaycc

open Transition

/-- The channel of a socket that is connecting. -/
def Channel.writing : Channel :=
  { Channel.new with
    events := kWriteEvent
    addedToLoop := true
    index := EPollPoller.kAdded
    entry := ⟨true, some kWriteEvent⟩ }

theorem Channel.new_enableWriting : Channel.new.enableWriting = .ok Channel.writing := rfl

namespace Connector

inductive States where
  | kDisconnected
  | kConnecting
  | kConnected
deriving DecidableEq, Repr

inductive Functor where
  | startInLoop
  | stopInLoop
  | resetChannel
deriving DecidableEq, Repr

/-- `errno` of `sockets::connect`, 0 when it returns 0. -/
inductive Errno where
  | zero
  | EINPROGRESS
  | EINTR
  | EISCONN
  | EAGAIN
  | EADDRINUSE
  | EADDRNOTAVAIL
  | ECONNREFUSED
  | ENETUNREACH
  | EACCES
  | EPERM
  | EAFNOSUPPORT
  | EALREADY
  | EBADF
  | EFAULT
  | ENOTSOCK
  | other (code : Nat)
deriving DecidableEq, Repr

/-- Where the loop's thread is in the Connector. -/
inductive Point where
  | idle
  | startInLoop                     -- in start() or restart(), connect_ written
  | inConnect (sockfd : Nat)        -- in sockets::connect
  | newConnection (sockfd : Nat)    -- calling newConnectionCallback_
deriving DecidableEq, Repr

def kMaxRetryDelayMs : Nat := 30 * 1000

def kInitRetryDelayMs : Nat := 500

end Connector

open Connector in
structure Connector where
  connect : Bool                    -- connect_
  state : States
  channel : Option (Nat × Channel)  -- channel_ and its fd
  retryDelayMs : Nat
  point : Point
  functors : List Functor           -- in the order in which the loop calls them
  calling : List Functor            -- connect_ has been written, the push is to come
  timers : List Nat                 -- the delays of retry timers that have not fired
  sockets : List Nat                -- opened, and neither closed nor handed over
  opened : Nat                      -- how many have been opened
  handed : Bool                     -- the last one has gone to newConnectionCallback_
  handedAtStop : Bool               -- it had when stop() was last called
deriving DecidableEq, Repr

namespace Connector

def new : Connector where
  connect := false
  state := .kDisconnected
  channel := none
  retryDelayMs := kInitRetryDelayMs
  point := .idle
  functors := []
  calling := []
  timers := []
  sockets := []
  opened := 0
  handed := false
  handedAtStop := false

/-- `sockets::close(sockfd)`. -/
def close (s : Connector) (sockfd : Nat) : Connector :=
  { s with sockets := s.sockets.erase sockfd }

def retry (s : Connector) (sockfd : Nat) : Connector :=
  if s.connect = true then
    { s.close sockfd with
      state := .kDisconnected
      timers := s.timers ++ [s.retryDelayMs]
      retryDelayMs := min (s.retryDelayMs * 2) kMaxRetryDelayMs }
  else { s.close sockfd with state := .kDisconnected }

/-- `connect()` up to the call of `sockets::connect`. -/
def openSocket (s : Connector) : Connector :=
  { s with
    sockets := s.sockets ++ [s.opened]
    opened := s.opened + 1
    point := .inConnect s.opened }

def startInLoop (s : Connector) : Except Assertion Connector := do
  check (s.state = .kDisconnected) .connectorDisconnected
  if s.connect = true then pure s.openSocket else pure { s with point := .idle }

def start (s : Connector) (inLoop : Bool) : Connector :=
  if inLoop = true then { s with connect := true, point := .startInLoop }
  else { s with connect := true, calling := s.calling ++ [.startInLoop] }

def stop (s : Connector) : Connector :=
  { s with connect := false, calling := s.calling ++ [.stopInLoop], handedAtStop := s.handed }

def connecting (s : Connector) (sockfd : Nat) : Except Assertion Connector := do
  check (s.channel = none) .connectorNoChannel
  let channel ← Channel.new.enableWriting
  pure { s with state := .kConnecting, channel := some (sockfd, channel) }

/-- The rest of `connect()`. -/
def connectReturned (s : Connector) (sockfd : Nat) : Errno → Except Assertion Connector
  | .zero | .EINPROGRESS | .EINTR | .EISCONN => s.connecting sockfd
  | .EAGAIN | .EADDRINUSE | .EADDRNOTAVAIL | .ECONNREFUSED | .ENETUNREACH => pure (s.retry sockfd)
  | .EACCES | .EPERM | .EAFNOSUPPORT | .EALREADY | .EBADF | .EFAULT | .ENOTSOCK
  | .other _ => pure (s.close sockfd)

def removeAndResetChannel (s : Connector) : Except Assertion (Connector × Nat) :=
  match s.channel with
  | none => .error .connectorChannel
  | some (sockfd, channel) => do
      let channel ← channel.disableAll
      let channel ← channel.remove
      pure ({ s with
        channel := some (sockfd, channel)
        functors := s.functors ++ [.resetChannel] }, sockfd)

def stopInLoop (s : Connector) : Except Assertion Connector :=
  if s.state = .kConnecting then do
    let (s, sockfd) ← { s with state := .kDisconnected }.removeAndResetChannel
    pure (s.retry sockfd)
  else pure s

/-- `channel_.reset()`, with the asserts of `~Channel`. -/
def resetChannel (s : Connector) : Except Assertion Connector :=
  match s.channel with
  | none => pure s
  | some (_, channel) => do
      channel.destruct
      pure { s with channel := none }

def handleWrite (s : Connector) (err isSelfConnect : Bool) : Except Assertion Connector :=
  if s.state = .kConnecting then do
    let (s, sockfd) ← s.removeAndResetChannel
    if err = true then pure (s.retry sockfd)
    else if isSelfConnect = true then pure (s.retry sockfd)
    else
      let t := { s with state := .kConnected }
      if s.connect = true then
        pure { t.close sockfd with point := .newConnection sockfd, handed := true }
      else pure (t.close sockfd)
  else do
    check (s.state = .kDisconnected) .handleWriteDisconnected
    pure s

def handleError (s : Connector) : Except Assertion Connector :=
  if s.state = .kConnecting then do
    let (s, sockfd) ← s.removeAndResetChannel
    pure (s.retry sockfd)
  else pure s

/-- `Channel::handleEvent`: the error callback, then the write callback. -/
def handleEvent (s : Connector) (error writable err isSelfConnect : Bool) :
    Except Assertion Connector := do
  let s ← (if error = true then s.handleError else pure s)
  if writable = true then s.handleWrite err isSelfConnect else pure s

/-- `restart()` up to its `startInLoop()`. -/
def restart (s : Connector) : Connector :=
  { s with
    state := .kDisconnected
    retryDelayMs := kInitRetryDelayMs
    connect := true
    handed := false
    point := .startInLoop }

def call (s : Connector) : Functor → Except Assertion Connector
  | .startInLoop => s.startInLoop
  | .stopInLoop => s.stopInLoop
  | .resetChannel => s.resetChannel

/-! ### The steps of all threads -/

inductive Action where
  | start (inLoop : Bool)
  | stop
  | queueInLoop (i : Nat)             -- the push of one of the calls
  | startInLoop                       -- start() or restart() goes on
  | connectReturned (sockfd : Nat) (savedErrno : Errno)
  | newConnection (sockfd : Nat)      -- newConnectionCallback_ returns
  | callFunctor
  | retryTimer (i : Nat)
  | handleEvent (error writable err isSelfConnect : Bool)
  | restart
deriving DecidableEq, Repr

def step (s : Connector) : Action → Except Assertion Connector
  | .start inLoop => .ok (s.start inLoop)
  | .stop => .ok s.stop
  | .queueInLoop i => match s.calling[i]? with
      | none => .ok s
      | some f => .ok { s with calling := s.calling.eraseIdx i, functors := s.functors ++ [f] }
  | .startInLoop => s.startInLoop
  | .connectReturned sockfd savedErrno =>
      { s with point := .idle }.connectReturned sockfd savedErrno
  | .newConnection _ => .ok { s with point := .idle }
  | .callFunctor => match s.functors with
      | [] => .ok s
      | f :: functors => { s with functors := functors }.call f
  | .retryTimer i => { s with timers := s.timers.eraseIdx i }.startInLoop
  | .handleEvent error writable err isSelfConnect =>
      s.handleEvent error writable err isSelfConnect
  | .restart => .ok s.restart

/-- `channel_` is in the poller's interest set. -/
def watched (s : Connector) : Bool :=
  match s.channel with
  | none => false
  | some (_, channel) => channel.entry.interest.isSome

def enabled (s : Connector) : Action → Prop
  | .start inLoop => inLoop = true → s.point = .idle
  | .stop => True
  | .queueInLoop i => i < s.calling.length
  | .startInLoop => s.point = .startInLoop
  | .connectReturned sockfd _ => s.point = .inConnect sockfd
  | .newConnection sockfd => s.point = .newConnection sockfd
  | .callFunctor => s.point = .idle ∧ s.functors ≠ []
  | .retryTimer i => s.point = .idle ∧ i < s.timers.length
  | .handleEvent _ _ _ _ => s.point = .idle ∧ s.watched = true
  | .restart => s.point = .idle ∧ s.handed = true

def system : System Connector Action Assertion where
  init s := s = new
  enabled := enabled
  step := step

instance (s : Connector) : (act : Action) → Decidable (system.enabled s act)
  | .start _ => inferInstanceAs (Decidable (_ → _))
  | .stop => inferInstanceAs (Decidable True)
  | .queueInLoop i => inferInstanceAs (Decidable (i < s.calling.length))
  | .startInLoop => inferInstanceAs (Decidable (s.point = .startInLoop))
  | .connectReturned sockfd _ => inferInstanceAs (Decidable (s.point = .inConnect sockfd))
  | .newConnection sockfd => inferInstanceAs (Decidable (s.point = .newConnection sockfd))
  | .callFunctor => inferInstanceAs (Decidable (_ ∧ _))
  | .retryTimer _ => inferInstanceAs (Decidable (_ ∧ _))
  | .handleEvent _ _ _ _ => inferInstanceAs (Decidable (_ ∧ _))
  | .restart => inferInstanceAs (Decidable (_ ∧ _))

end Connector

end Kaycc
