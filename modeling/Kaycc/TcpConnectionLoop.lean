/-
  Kaycc/TcpConnectionLoop.lean
  ============================
  **A connection, its loop and its holders.**

  The loop goes through its points in turn: `epoll_wait` reports events, the
  active channels are handled, the functors are called.  In between, user code on
  the loop's thread calls the connection at any time, and other threads do so in
  two steps, the test of `state_` and the rest.

  `permits` is the condition under which the later results hold: a connection
  that is disconnected is not started to be read, one whose channel has been removed
  is not stopped to be read either, and `state_` is not set by a call that tested it
  before; with `strict`, moreover, a connection is not stopped to be read after it is
  disconnected, and is not disconnected while its channel has no events of interest.
-/
import Kaycc.TcpConnectionOutput

namespace Kaycc.TcpConnection

variable {c : TcpConnection} {w : WriteResult}

/-! ### The machine -/

/-- Where the loop is. -/
inductive Point where
  | idle
  | polling
  | handlingEvents
  | callingFunctors
deriving DecidableEq, Repr

def Point.next : Point → Point
  | .idle => .polling
  | .polling => .handlingEvents
  | .handlingEvents => .callingFunctors
  | .callingFunctors => .idle

inductive Action where
  | report (revents : PollEvents)
  | handleEvent (r : ReadResult) (w : WriteResult)
  | callbackReturn (r : ReadResult) (w : WriteResult)
  | runFunctor (w : WriteResult)
  | delayedForceClose
  | call (k : Call) (w : WriteResult)
  | beginCall (k : Call)
  | finishCall (i : Nat)
  | editInput (inputBuffer : Buffer)

/-- `epoll_wait` puts the channel into `activeChannels_`. -/
def reported (c : TcpConnection) (revents : PollEvents) : TcpConnection :=
  c.setChannel { c.channel with revents := revents, active := .waiting }

/-- The rest of the call that another thread began as the `i`-th of those under way. -/
def finishCall (c : TcpConnection) (i : Nat) : TcpConnection :=
  match c.calling[i]? with
  | none => c
  | some k => ({ c with calling := c.calling.eraseIdx i }).callElsewhere k

def step (c : TcpConnection) : Action → Except Assertion TcpConnection
  | .report revents => .ok (c.reported revents)
  | .handleEvent r w => c.handleEvent r w
  | .callbackReturn r w => c.callbackReturn r w
  | .runFunctor w => c.runNextFunctor w
  -- the timer's callback is forceClose, which writes nothing
  | .delayedForceClose => ({ c with delayed := c.delayed - 1 }).call .forceClose (.wrote 0)
  | .call k w => c.call k w
  | .beginCall k => .ok { c with calling := c.calling ++ [k] }
  | .finishCall i => .ok (c.finishCall i)
  | .editInput inputBuffer => .ok { c with inputBuffer := inputBuffer }

/-- The bytes that a functor may pass to `sockets::write` directly. -/
def Functor.fits (w : WriteResult) : Functor → Prop
  | .sendInLoop message => w.fits message.length
  | _ => True

def Call.fits (w : WriteResult) : Call → Prop
  | .send message => w.fits message.length
  | _ => True

/-- The answers of the kernel fit the buffers as they are. -/
def answersFit (c : TcpConnection) (r : ReadResult) (w : WriteResult) : Prop :=
  r.fits c.inputBuffer.readCapacity ∧ w.fits c.outputBuffer.readableBytes

def enabled (point : Point) (c : TcpConnection) : Action → Prop
  | .report revents =>
      point = .polling ∧ c.frames = [] ∧ Reports c.channel.entry.interest revents
  | .handleEvent r w =>
      point = .handlingEvents ∧ c.frames = [] ∧ c.channel.active = .waiting ∧ c.answersFit r w
  | .callbackReturn r w => c.frames ≠ [] ∧ c.answersFit r w
  | .runFunctor w =>
      point = .callingFunctors ∧ c.frames = [] ∧
        ∃ f ∈ c.functors.batch.head?, f.fits w
  | .delayedForceClose => point = .handlingEvents ∧ c.frames = [] ∧ 0 < c.delayed
  | .call k w => point ≠ .polling ∧ k.fits w
  | .beginCall k => k.accepts c
  | .finishCall i => i < c.calling.length
  | .editInput _ => point ≠ .polling

/-- The loop may leave its point as far as the connection is concerned. -/
def rests (c : TcpConnection) : Point → Prop
  | .idle => c.frames = []
  | .polling => True
  | .handlingEvents => c.frames = [] ∧ c.channel.active ≠ .waiting
  | .callingFunctors => c.frames = [] ∧ c.functors.batch = []

/-- The connection when the loop leaves its point. -/
def advanced (c : TcpConnection) : Point → TcpConnection
  | .handlingEvents =>
      { c with channel := { c.channel with active := .absent }, functors := c.functors.swap }
  | _ => c

/-- `~TcpServer` releases the connection. -/
def release (c : TcpConnection) : Except Assertion TcpConnection :=
  let released := { c with tracked := false }
  if c.ownerInLoop = true then released.connectDestroyed
  else .ok (released.queueInLoop .connectDestroyed)

/-! ### What a run is to refrain from -/

variable (strict : Prop)

/-- The closing of a connection finds events of interest. -/
def permitsClosing (c : TcpConnection) : Prop := strict → c.channel.events ≠ kNoneEvent

def permitsFunctor (c : TcpConnection) : Functor → Prop
  | .startReadInLoop => c.state ≠ .kDisconnected
  | .stopReadInLoop =>
      strict ∨ c.channel.index = EPollPoller.kNew →
        c.state = .kDisconnected → c.reading = false ∧ c.channel.isReading = false
  | .forceCloseInLoop => c.isOpen → c.permitsClosing strict
  | .connectDestroyed => c.state = .kConnected → c.permitsClosing strict
  | _ => True

/-- The handling of the reported events calls `handleClose`. -/
def handlesClose (c : TcpConnection) (r : ReadResult) : Prop :=
  (c.channel.revents.pollhup = true ∧ c.channel.revents.pollin = false) ∨
    (c.channel.revents.meets readMask = true ∧ r = .bytes [])

def permits (c : TcpConnection) : Action → Prop
  | .handleEvent r _ => c.isOpen → c.handlesClose r → c.permitsClosing strict
  | .runFunctor _ => ∀ f ∈ c.functors.batch.head?, c.permitsFunctor strict f
  | .call .startRead _ => c.permitsFunctor strict .startReadInLoop
  | .call .stopRead _ => c.permitsFunctor strict .stopReadInLoop
  -- the calls that set state_
  | .finishCall i => ∀ k ∈ c.calling[i]?,
      k = .shutdown ∨ k = .forceClose ∨ k = .forceCloseWithDelay → c.state ≠ .kDisconnected
  | _ => True

/-! ### Deciding -/

instance (r : ReadResult) (w : WriteResult) : Decidable (c.answersFit r w) :=
  inferInstanceAs (Decidable (_ ∧ _))

instance : (f : Functor) → Decidable (f.fits w)
  | .sendInLoop message => inferInstanceAs (Decidable (w.fits message.length))
  | .shutdownInLoop => .isTrue trivial
  | .forceCloseInLoop => .isTrue trivial
  | .startReadInLoop => .isTrue trivial
  | .stopReadInLoop => .isTrue trivial
  | .connectDestroyed => .isTrue trivial
  | .writeCompleteCallback => .isTrue trivial
  | .highWaterMarkCallback _ => .isTrue trivial

instance : (k : Call) → Decidable (k.fits w)
  | .send message => inferInstanceAs (Decidable (w.fits message.length))
  | .shutdown => .isTrue trivial
  | .forceClose => .isTrue trivial
  | .forceCloseWithDelay => .isTrue trivial
  | .startRead => .isTrue trivial
  | .stopRead => .isTrue trivial

instance (point : Point) : (a : Action) → Decidable (c.enabled point a)
  | .report _ => inferInstanceAs (Decidable (_ ∧ _))
  | .handleEvent _ _ => inferInstanceAs (Decidable (_ ∧ _))
  | .callbackReturn _ _ => inferInstanceAs (Decidable (_ ∧ _))
  | .runFunctor _ => inferInstanceAs (Decidable (_ ∧ _))
  | .delayedForceClose => inferInstanceAs (Decidable (_ ∧ _))
  | .call _ _ => inferInstanceAs (Decidable (_ ∧ _))
  | .beginCall k => inferInstanceAs (Decidable (k.accepts c))
  | .finishCall i => inferInstanceAs (Decidable (i < c.calling.length))
  | .editInput _ => inferInstanceAs (Decidable (point ≠ .polling))

instance : (point : Point) → Decidable (c.rests point)
  | .idle => inferInstanceAs (Decidable (c.frames = []))
  | .polling => .isTrue trivial
  | .handlingEvents => inferInstanceAs (Decidable (_ ∧ _))
  | .callingFunctors => inferInstanceAs (Decidable (_ ∧ _))

instance [Decidable strict] : Decidable (c.permitsClosing strict) :=
  inferInstanceAs (Decidable (strict → _))

instance [Decidable strict] : (f : Functor) → Decidable (c.permitsFunctor strict f)
  | .sendInLoop _ => .isTrue trivial
  | .shutdownInLoop => .isTrue trivial
  | .forceCloseInLoop => inferInstanceAs (Decidable (c.isOpen → c.permitsClosing strict))
  | .startReadInLoop => inferInstanceAs (Decidable (c.state ≠ .kDisconnected))
  | .stopReadInLoop => inferInstanceAs (Decidable (strict ∨ c.channel.index = EPollPoller.kNew →
      c.state = .kDisconnected → c.reading = false ∧ c.channel.isReading = false))
  | .connectDestroyed =>
      inferInstanceAs (Decidable (c.state = .kConnected → c.permitsClosing strict))
  | .writeCompleteCallback => .isTrue trivial
  | .highWaterMarkCallback _ => .isTrue trivial

instance (r : ReadResult) : Decidable (c.handlesClose r) := inferInstanceAs (Decidable (_ ∨ _))

instance [Decidable strict] : (a : Action) → Decidable (c.permits strict a)
  | .report _ => .isTrue trivial
  | .handleEvent r _ =>
      inferInstanceAs (Decidable (c.isOpen → c.handlesClose r → c.permitsClosing strict))
  | .callbackReturn _ _ => .isTrue trivial
  | .runFunctor _ =>
      inferInstanceAs (Decidable (∀ f ∈ c.functors.batch.head?, c.permitsFunctor strict f))
  | .delayedForceClose => .isTrue trivial
  | .call .startRead _ => inferInstanceAs (Decidable (c.permitsFunctor strict .startReadInLoop))
  | .call .stopRead _ => inferInstanceAs (Decidable (c.permitsFunctor strict .stopReadInLoop))
  | .call (.send _) _ => .isTrue trivial
  | .call .shutdown _ => .isTrue trivial
  | .call .forceClose _ => .isTrue trivial
  | .call .forceCloseWithDelay _ => .isTrue trivial
  | .beginCall _ => .isTrue trivial
  | .finishCall i => inferInstanceAs (Decidable (∀ k ∈ c.calling[i]?,
      k = .shutdown ∨ k = .forceClose ∨ k = .forceCloseWithDelay → c.state ≠ .kDisconnected))
  | .editInput _ => .isTrue trivial

end Kaycc.TcpConnection
