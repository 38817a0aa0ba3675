/-
  Kaycc/TcpConnection.lean
  ========================
  **`net/tcpconnection.cpp`: one connection on its loop's thread.**

  The functions are those of the source.  What the kernel answers is an argument:
  `WriteResult` for `sockets::write`, `ReadResult` for `readv`.  What the outside
  sees is logged: the bytes the kernel accepted, `shutdownWrite`, and the
  callbacks in the order of their invocation.

  A user callback is code of its own and may call the connection again, so each
  function is cut where it calls one.  It then leaves a `Frame`, which says what
  is to be done when the callback returns; `callbackReturn` does it.  The calls
  that the callback makes are steps in between.  `handleEventWithGuard` is cut
  accordingly into the parts after its `closeCallback_` and after its
  `readCallback_`.

  `functors` are the functors of the loop that are bound to this connection.  Those of
  `send`, `shutdown`, `startRead` and `stopRead` bind the raw `this`; when they run, the
  connection is taken to be there still.
-/
import Kaycc.Buffer
import Kaycc.Channel
import Kaycc.SwapQueue

namespace Kaycc

namespace TcpConnection

inductive StateE where
  | kDisconnected
  | kConnecting
  | kConnected
  | kDisconnecting
deriving DecidableEq, Repr

inductive Errno where
  | EWOULDBLOCK
  | EPIPE
  | ECONNRESET
  | other (code : Nat)
deriving DecidableEq, Repr

/-- What `sockets::write` returns: the number of bytes accepted, or -1 and `errno`. -/
inductive WriteResult where
  | wrote (n : Nat)
  | failed (errno : Errno)
deriving DecidableEq, Repr

/-- At most the requested bytes are accepted. -/
def WriteResult.fits (len : Nat) : WriteResult → Prop
  | .wrote n => n ≤ len
  | .failed _ => True

instance (len : Nat) : (w : WriteResult) → Decidable (w.fits len)
  | .wrote n => inferInstanceAs (Decidable (n ≤ len))
  | .failed _ => .isTrue trivial

/-- What `readv` returns: the bytes read, none at the end of the stream, or -1. -/
inductive ReadResult where
  | bytes (data : Bytes)
  | failed (errno : Errno)
deriving DecidableEq, Repr

def ReadResult.fits (capacity : Nat) : ReadResult → Prop
  | .bytes data => data.length ≤ capacity
  | .failed _ => True

instance (capacity : Nat) : (r : ReadResult) → Decidable (r.fits capacity)
  | .bytes data => inferInstanceAs (Decidable (data.length ≤ capacity))
  | .failed _ => .isTrue trivial

/-- The functors that are bound to a connection. -/
inductive Functor where
  | sendInLoop (message : Bytes)
  | shutdownInLoop
  | forceCloseInLoop
  | startReadInLoop
  | stopReadInLoop
  | connectDestroyed
  | writeCompleteCallback
  | highWaterMarkCallback (size : Nat)
deriving DecidableEq, Repr

inductive Event where
  | written (data : Bytes)
  | writeFailed (errno : Errno)
  | shutdownWrite
  | connectionCallback (connected : Bool)
  | messageCallback
  | closeCallback
  | writeCompleteCallback
  | highWaterMarkCallback (size : Nat)
deriving DecidableEq, Repr

/-- Where `handleClose` returns to: the functor that called it, or
    `handleEventWithGuard` after its `closeCallback_` or after its `readCallback_`. -/
inductive Resume where
  | functor
  | errorPart
  | writePart
deriving DecidableEq, Repr

/-- The function that has called a user callback which has not returned. -/
inductive Frame where
  | connectEstablished
  | handleRead
  | handleClose (resume : Resume)
  | connectDestroyed
deriving DecidableEq, Repr

/-- The calls that holders of a connection make. -/
inductive Call where
  | send (message : Bytes)
  | shutdown
  | forceClose
  | forceCloseWithDelay
  | startRead
  | stopRead
deriving DecidableEq, Repr

end TcpConnection

open TcpConnection in
structure TcpConnection where
  state : StateE
  reading : Bool
  channel : Channel
  inputBuffer : Buffer
  outputBuffer : Buffer
  highWaterMark : Nat
  writeCompleteCallback : Bool       -- whether it is set
  highWaterMarkCallback : Bool
  functors : SwapQueue Functor
  frames : List Frame
  ownerInLoop : Bool                 -- the loop of the TcpServer is this loop
  tracked : Bool                     -- it is in connections_
  removals : Nat                     -- removeConnectionInLoop waiting in the server's loop
  serverDestroyed : Bool
  delayed : Nat                      -- timers of forceCloseWithDelay that have not expired
  calling : List Call                -- calls of other threads that have tested state_
  log : List Event

namespace TcpConnection

/-- The constructor, and the setters that `TcpServer::newConnection` calls. -/
def new (ownerInLoop writeComplete highWater : Bool) (highWaterMark : Nat) :
    TcpConnection where
  state := .kConnecting
  reading := true
  channel := Channel.new
  inputBuffer := Buffer.empty
  outputBuffer := Buffer.empty
  highWaterMark := highWaterMark
  writeCompleteCallback := writeComplete
  highWaterMarkCallback := highWater
  functors := SwapQueue.empty
  frames := []
  ownerInLoop := ownerInLoop
  tracked := true
  removals := 0
  serverDestroyed := false
  delayed := 0
  calling := []
  log := []

def setState (c : TcpConnection) (s : StateE) : TcpConnection := { c with state := s }

def record (c : TcpConnection) (e : Event) : TcpConnection := { c with log := c.log ++ [e] }

def queueInLoop (c : TcpConnection) (f : Functor) : TcpConnection :=
  { c with functors := c.functors.push f }

def setChannel (c : TcpConnection) (channel : Channel) : TcpConnection :=
  { c with channel := channel }

/-- `connectionCallback_(shared_from_this())`, called by the function of the frame. -/
def callConnectionCallback (c : TcpConnection) (frame : Frame) : TcpConnection :=
  { c.record (.connectionCallback (decide (c.state = .kConnected))) with
    frames := frame :: c.frames }

/-! ### Sending -/

/-- The result of the direct write of `sendInLoop`: the connection, `nwrote` and
    `faultError`. -/
structure DirectWrite where
  conn : TcpConnection
  nwrote : Nat
  faultError : Bool

def directWrite (c : TcpConnection) (data : Bytes) : WriteResult → DirectWrite
  | .wrote n =>
      let wrote := c.record (.written (data.take n))
      let remaining := data.length - n
      if remaining = 0 ∧ c.writeCompleteCallback = true then
        ⟨wrote.queueInLoop .writeCompleteCallback, n, false⟩
      else ⟨wrote, n, false⟩
  | .failed errno =>
      ⟨c.record (.writeFailed errno), 0,
        if errno ≠ .EWOULDBLOCK then decide (errno = .EPIPE ∨ errno = .ECONNRESET) else false⟩

/-- `highWaterMarkCallback_` is queued when the output buffer, of `oldLen` bytes, reaches
    the mark by `remaining` more. -/
def queueHighWaterMark (c : TcpConnection) (oldLen remaining : Nat) : TcpConnection :=
  if c.highWaterMark ≤ oldLen + remaining ∧ oldLen < c.highWaterMark ∧
      c.highWaterMarkCallback = true then
    c.queueInLoop (.highWaterMarkCallback (oldLen + remaining))
  else c

/-- The end of `sendInLoop`: `rest` goes to the output buffer. -/
def appendOutput (c : TcpConnection) (rest : Bytes) : Except Assertion TcpConnection := do
  let marked := c.queueHighWaterMark c.outputBuffer.readableBytes rest.length
  let outputBuffer ← marked.outputBuffer.append rest
  let appended : TcpConnection := { marked with outputBuffer := outputBuffer }
  if appended.channel.isWriting = false then do
    let channel ← appended.channel.enableWriting
    pure (appended.setChannel channel)
  else pure appended

/-- `if (!channel_->isWriting() && outputBuffer_.readableBytes() == 0)`. -/
def writesDirectly (c : TcpConnection) : Prop :=
  c.channel.isWriting = false ∧ c.outputBuffer.readableBytes = 0

instance (c : TcpConnection) : Decidable c.writesDirectly :=
  inferInstanceAs (Decidable (_ ∧ _))

def sendInLoop (c : TcpConnection) (data : Bytes) (w : WriteResult) :
    Except Assertion TcpConnection :=
  if c.state = .kDisconnected then .ok c
  else
    let direct := if c.writesDirectly then c.directWrite data w else ⟨c, 0, false⟩
    let rest := data.drop direct.nwrote
    if direct.faultError = false ∧ 0 < rest.length then direct.conn.appendOutput rest
    else .ok direct.conn

def shutdownInLoop (c : TcpConnection) : TcpConnection :=
  if c.channel.isWriting = false then c.record .shutdownWrite else c

/-- The branch of `handleWrite` in which the buffer has become empty. -/
def outputDrained (c : TcpConnection) : Except Assertion TcpConnection := do
  let channel ← c.channel.disableWriting
  let quiet := c.setChannel channel
  let completed :=
    if c.writeCompleteCallback = true then quiet.queueInLoop .writeCompleteCallback else quiet
  if c.state = .kDisconnecting then pure completed.shutdownInLoop else pure completed

def handleWrite (c : TcpConnection) (w : WriteResult) : Except Assertion TcpConnection :=
  if c.channel.isWriting = true then
    match w with
    | .wrote n =>
        let wrote := c.record (.written (c.outputBuffer.content.take n))
        if 0 < n then do
          let outputBuffer ← c.outputBuffer.retrieve n
          let retrieved : TcpConnection := { wrote with outputBuffer := outputBuffer }
          if outputBuffer.readableBytes = 0 then retrieved.outputDrained else pure retrieved
        else .ok wrote
    | .failed errno => .ok (c.record (.writeFailed errno))
  else .ok c

/-! ### Reading on and off -/

def startReadInLoop (c : TcpConnection) : Except Assertion TcpConnection :=
  if c.reading = false ∨ c.channel.isReading = false then do
    let channel ← c.channel.enableReading
    pure { c with channel := channel, reading := true }
  else .ok c

def stopReadInLoop (c : TcpConnection) : Except Assertion TcpConnection :=
  if c.reading = true ∨ c.channel.isReading = true then do
    let channel ← c.channel.disableReading
    pure { c with channel := channel, reading := false }
  else .ok c

/-! ### Opening and closing -/

/-- `TcpServer::removeConnectionInLoop`. -/
def removeConnectionInLoop (c : TcpConnection) : Except Assertion TcpConnection := do
  check (c.serverDestroyed = false) .serverAlive
  check (c.tracked = true) .removeConnectionErased
  pure ({ c with tracked := false }.queueInLoop .connectDestroyed)

/-- `closeCallback_(guardThis)`, that is `TcpServer::removeConnection`. -/
def callCloseCallback (c : TcpConnection) : Except Assertion TcpConnection :=
  let called := c.record .closeCallback
  if c.ownerInLoop = true then called.removeConnectionInLoop
  else do
    check (c.serverDestroyed = false) .serverAlive
    pure { called with removals := c.removals + 1 }

/-- `connectEstablished`, up to its `connectionCallback_`. -/
def connectEstablished (c : TcpConnection) : Except Assertion TcpConnection := do
  check (c.state = .kConnecting) .connectEstablishedConnecting
  let channel ← c.channel.tie.enableReading
  pure (((c.setState .kConnected).setChannel channel).callConnectionCallback
    .connectEstablished)

/-- `connectDestroyed`, up to its `connectionCallback_` when it calls it. -/
def connectDestroyed (c : TcpConnection) : Except Assertion TcpConnection :=
  if c.state = .kConnected then do
    let channel ← c.channel.disableAll
    pure (((c.setState .kDisconnected).setChannel channel).callConnectionCallback
      .connectDestroyed)
  else do
    let channel ← c.channel.remove
    pure (c.setChannel channel)

/-- `state_ == kConnected || state_ == kDisconnecting`. -/
def isOpen (c : TcpConnection) : Prop := c.state = .kConnected ∨ c.state = .kDisconnecting

instance (c : TcpConnection) : Decidable c.isOpen := inferInstanceAs (Decidable (_ ∨ _))

/-- `handleClose`, up to its `connectionCallback_`. -/
def handleClose (c : TcpConnection) (resume : Resume) : Except Assertion TcpConnection := do
  check c.isOpen .handleCloseConnected
  let channel ← c.channel.disableAll
  pure (((c.setState .kDisconnected).setChannel channel).callConnectionCallback
    (.handleClose resume))

def forceCloseInLoop (c : TcpConnection) : Except Assertion TcpConnection :=
  if c.isOpen then c.handleClose .functor else .ok c

/-! ### `handleEventWithGuard` -/

/-- `handleRead` when `readv` has not failed. -/
def handleRead (c : TcpConnection) (data : Bytes) : Except Assertion TcpConnection := do
  let inputBuffer ← c.inputBuffer.readFd data
  let received : TcpConnection := { c with inputBuffer := inputBuffer }
  if 0 < data.length then
    pure { received.record .messageCallback with frames := .handleRead :: c.frames }
  else received.handleClose .writePart

/-- From `if (revents_ & POLLOUT)` on. -/
def writePart (c : TcpConnection) (w : WriteResult) : Except Assertion TcpConnection := do
  let handled ← if c.channel.revents.pollout = true then c.handleWrite w else pure c
  pure (handled.setChannel { handled.channel with eventHandling := false, active := .handled })

/-- `POLLIN | POLLPRI | POLLRDHUP`. -/
def readMask : PollEvents := { pollin := true, pollpri := true, pollrdhup := true }

/-- From the error part on.  The error callback, and `handleRead` when `readv` has failed,
    only write a message. -/
def errorPart (c : TcpConnection) (r : ReadResult) (w : WriteResult) :
    Except Assertion TcpConnection :=
  if c.channel.revents.meets readMask = true then
    match r with
    | .bytes data => c.handleRead data
    | .failed _ => c.writePart w
  else c.writePart w

/-- `handleEvent` of a tied channel whose connection is alive. -/
def handleEvent (c : TcpConnection) (r : ReadResult) (w : WriteResult) :
    Except Assertion TcpConnection :=
  let handling := c.setChannel { c.channel with eventHandling := true, active := .current }
  if c.channel.revents.pollhup = true ∧ c.channel.revents.pollin = false then
    handling.handleClose .errorPart
  else handling.errorPart r w

/-- `handleClose` returns to its caller. -/
def closeReturn (c : TcpConnection) (r : ReadResult) (w : WriteResult) :
    Resume → Except Assertion TcpConnection
  | .functor => .ok c
  | .errorPart => c.errorPart r w
  | .writePart => c.writePart w

/-- The innermost user callback returns to the function that called it. -/
def callbackReturn (c : TcpConnection) (r : ReadResult) (w : WriteResult) :
    Except Assertion TcpConnection :=
  match c.frames with
  | [] => .ok c
  | .connectEstablished :: rest => .ok { c with frames := rest }
  | .handleRead :: rest => ({ c with frames := rest }).writePart w
  | .handleClose resume :: rest => do
      let closed ← ({ c with frames := rest }).callCloseCallback
      closed.closeReturn r w resume
  | .connectDestroyed :: rest => do
      let channel ← c.channel.remove
      pure { c with frames := rest, channel := channel }

/-! ### Calls -/

/-- The test of `state_` with which a call begins. -/
def Call.accepts (c : TcpConnection) : Call → Prop
  | .send _ => c.state = .kConnected
  | .shutdown => c.state = .kConnected
  | .forceClose => c.isOpen
  | .forceCloseWithDelay => c.isOpen
  | .startRead => True
  | .stopRead => True

instance (c : TcpConnection) : (call : Call) → Decidable (call.accepts c)
  | .send _ => inferInstanceAs (Decidable (c.state = .kConnected))
  | .shutdown => inferInstanceAs (Decidable (c.state = .kConnected))
  | .forceClose => inferInstanceAs (Decidable c.isOpen)
  | .forceCloseWithDelay => inferInstanceAs (Decidable c.isOpen)
  | .startRead => .isTrue trivial
  | .stopRead => .isTrue trivial

/-- The rest of a call that the loop's own thread makes. -/
def callInLoop (c : TcpConnection) (w : WriteResult) : Call → Except Assertion TcpConnection
  | .send message => c.sendInLoop message w
  | .shutdown => .ok (c.setState .kDisconnecting).shutdownInLoop
  | .forceClose => .ok ((c.setState .kDisconnecting).queueInLoop .forceCloseInLoop)
  | .forceCloseWithDelay => .ok { c.setState .kDisconnecting with delayed := c.delayed + 1 }
  | .startRead => c.startReadInLoop
  | .stopRead => c.stopReadInLoop

/-- The rest of a call that another thread makes. -/
def callElsewhere (c : TcpConnection) : Call → TcpConnection
  | .send message => c.queueInLoop (.sendInLoop message)
  | .shutdown => (c.setState .kDisconnecting).queueInLoop .shutdownInLoop
  | .forceClose => (c.setState .kDisconnecting).queueInLoop .forceCloseInLoop
  | .forceCloseWithDelay => { c.setState .kDisconnecting with delayed := c.delayed + 1 }
  | .startRead => c.queueInLoop .startReadInLoop
  | .stopRead => c.queueInLoop .stopReadInLoop

/-- A call of the loop's own thread. -/
def call (c : TcpConnection) (k : Call) (w : WriteResult) : Except Assertion TcpConnection :=
  if k.accepts c then c.callInLoop w k else .ok c

/-! ### Functors -/

/-- One functor's body. -/
def runFunctor (c : TcpConnection) (f : Functor) (w : WriteResult) :
    Except Assertion TcpConnection :=
  match f with
  | .sendInLoop message => c.sendInLoop message w
  | .shutdownInLoop => .ok c.shutdownInLoop
  | .forceCloseInLoop => c.forceCloseInLoop
  | .startReadInLoop => c.startReadInLoop
  | .stopReadInLoop => c.stopReadInLoop
  | .connectDestroyed => c.connectDestroyed
  | .writeCompleteCallback => .ok (c.record .writeCompleteCallback)
  | .highWaterMarkCallback size => .ok (c.record (.highWaterMarkCallback size))

/-- `doPendingFunctors` runs the next functor of its batch. -/
def runNextFunctor (c : TcpConnection) (w : WriteResult) : Except Assertion TcpConnection :=
  match c.functors.batch with
  | [] => .ok c
  | f :: rest => ({ c with functors := { c.functors with batch := rest } }).runFunctor f w

/-- `~TcpConnection`, and with it `~Channel`. -/
def destruct (c : TcpConnection) : Except Assertion Unit := do
  check (c.state = .kDisconnected) .dtorDisconnected
  c.channel.destruct

end TcpConnection

end Kaycc
