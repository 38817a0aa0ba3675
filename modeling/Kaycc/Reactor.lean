/-
  Kaycc/Reactor.lean
  ==================
  **One `EventLoop` and the objects that it drives.**

  Any number of connections, of `TcpClient`s with their `Connector`s, and of channels
  of which no one lets go before the loop ends: `wakeupChannel_`, `timerfdChannel_`
  and the `acceptChannel_` of each `TcpServer`.  The objects take their own steps;
  the loop polls, goes through `activeChannels_`, and calls functors.

  The loop knows a channel by its address, here a `ChannelId`; the channels of a
  Connector follow each other and are told apart by their sockets.  Where a channel
  is in `activeChannels_` is asked of the loop before each step of its object
  (`placed`), so that the assertion of `EventLoop::removeChannel` is the one of the
  source.

  A connection belongs to a `TcpServer`, of this loop or of another one, or to a
  `TcpClient`.  In that case `tracked` says that it has not been removed, and its
  `closeCallback_`, which queues `connectDestroyed` like `removeConnectionInLoop`, is
  also a step of the client.
  A Connector that stands alone is the one of a client that nobody calls; what its
  `newConnectionCallback_` does is up to the user.  No object is destroyed.

  User code on the loop's thread may do anything between any two steps, and functors
  of different objects may be called in any order, which is more than the loop does.
-/
import Kaycc.TcpClient
import Kaycc.TcpConnectionLoop
import Mathlib.Data.Fintype.Defs
import Mathlib.Logic.Function.Basic

namespace Kaycc

open Transition

/-! ### `EventLoop::loop` -/

open TcpConnection (Point) in
/-- What `EventLoop::loop` keeps about the channels of type `δ`. -/
structure Dispatch (δ : Type) where
  point : Point
  activeChannels : List δ
  it : Nat                           -- how many have been called
  currentActiveChannel : Option δ

namespace Dispatch

variable {δ : Type}

def new : Dispatch δ := ⟨.idle, [], 0, none⟩

/-- The channels whose `handleEvent` is still to be called in this iteration. -/
def waiting (l : Dispatch δ) : List δ := l.activeChannels.drop l.it

/-- `poller_->poll` has returned. -/
def polled (l : Dispatch δ) (active : List δ) : Dispatch δ :=
  { l with point := .handlingEvents, activeChannels := active, it := 0 }

/-- `currentActiveChannel_ = *it`, and the iterator goes on. -/
def forward (l : Dispatch δ) : Dispatch δ :=
  { l with it := l.it + 1, currentActiveChannel := l.waiting.head? }

theorem waiting_forward (l : Dispatch δ) : l.forward.waiting = l.waiting.tail :=
  List.tail_drop.symm

/-- The loop leaves its point. -/
def leave (l : Dispatch δ) : Dispatch δ :=
  { l with point := l.point.next, currentActiveChannel := none }

/-- What the assertion of `removeChannel` tests: `eventHandling_`, `currentActiveChannel_`
    and `activeChannels_`. -/
def place [DecidableEq δ] (l : Dispatch δ) (channel : δ) : ActivePlace :=
  if l.point = .handlingEvents then
    if l.currentActiveChannel = some channel then .current
    else if channel ∈ l.waiting then .waiting
    else if channel ∈ l.activeChannels then .handled
    else .absent
  else .absent

/-- The same for an assertion that is `currentActiveChannel_ == channel` and no more. -/
def strictPlace [DecidableEq δ] (l : Dispatch δ) (channel : δ) : ActivePlace :=
  if l.point = .handlingEvents then
    if l.currentActiveChannel = some channel then .current else .waiting
  else .absent

end Dispatch

/-! ### The objects -/

inductive ChannelId (ι κ ν : Type) where
  | connection (i : ι)
  | connector (j : κ) (sockfd : Nat)
  | other (a : ν)
deriving DecidableEq

/-- A connection, and the client that it belongs to with its number there. -/
structure Member (κ : Type) where
  conn : TcpConnection
  client : Option (κ × Nat)

structure Reactor (ι κ ν : Type) where
  loop : Dispatch (ChannelId ι κ ν)
  connections : ι → Option (Member κ)
  clients : κ → TcpClient
  others : ν → Channel

def TcpConnection.placed (c : TcpConnection) (active : ActivePlace) : TcpConnection :=
  c.setChannel { c.channel with active := active }

def Connector.placed (s : Connector) (place : Nat → ActivePlace) : Connector :=
  { s with channel := s.channel.map fun (sockfd, channel) =>
      (sockfd, { channel with active := place sockfd }) }

def TcpClient.placed (s : TcpClient) (place : Nat → ActivePlace) : TcpClient :=
  { s with connector := s.connector.placed place }

/-- The callback that returns is the `connectionCallback_` of `handleClose`; the
    `closeCallback_` is next. -/
def TcpConnection.closesNext (c : TcpConnection) : TcpConnection.Action → Bool
  | .callbackReturn _ _ => match c.frames with
      | .handleClose _ :: _ => true
      | _ => false
  | _ => false

namespace Reactor

open TcpConnection (ReadResult WriteResult)

variable {ι κ ν : Type}

/-- The channel of that address, when there is one. -/
def channel (s : Reactor ι κ ν) : ChannelId ι κ ν → Option Channel
  | .connection i => (s.connections i).map fun m => m.conn.channel
  | .connector j sockfd =>
      (s.clients j).connector.channel.bind fun (fd, channel) =>
        if fd = sockfd then some channel else none
  | .other a => some (s.others a)

/-- The channel is there, and in `channels_`. -/
def Registered (s : Reactor ι κ ν) (id : ChannelId ι κ ν) : Prop :=
  ∃ channel ∈ s.channel id, channel.entry.registered = true

/-- What the kernel answers while one event is handled. -/
structure Answers where
  read : ReadResult
  write : WriteResult
  error : Bool                       -- POLLERR
  writable : Bool                    -- POLLOUT
  err : Bool                         -- SO_ERROR
  isSelfConnect : Bool

inductive Action (ι κ ν : Type) where
  | leave                            -- the loop goes on to its next point
  | poll (events : List (ChannelId ι κ ν × PollEvents))
  | handleEvent (answers : Answers)  -- of the next active channel
  | establish (i : ι) (ownerInLoop writeComplete highWater : Bool) (highWaterMark : Nat)
  | newConnection (j : κ) (sockfd : Nat) (i : ι) (writeComplete highWater : Bool)
      (highWaterMark : Nat)
  | removeConnectionInLoop (i : ι)
  | connection (i : ι) (a : TcpConnection.Action)
  | client (j : κ) (a : TcpClient.Action)
  | connector (j : κ) (a : Connector.Action)
  | enableReading (a : ν)            -- the constructors, and Acceptor::listen

section Step

variable [DecidableEq ι] [DecidableEq κ] [DecidableEq ν]

def setConnection (s : Reactor ι κ ν) (i : ι) (m : Member κ) : Reactor ι κ ν :=
  { s with connections := Function.update s.connections i (some m) }

def setClient (s : Reactor ι κ ν) (j : κ) (client : TcpClient) : Reactor ι κ ν :=
  { s with clients := Function.update s.clients j client }

def setOther (s : Reactor ι κ ν) (a : ν) (channel : Channel) : Reactor ι κ ν :=
  { s with others := Function.update s.others a channel }

omit [DecidableEq κ] [DecidableEq ν] in
@[simp] theorem connections_setConnection (s : Reactor ι κ ν) (i : ι) (m : Member κ) :
    (s.setConnection i m).connections i = some m := Function.update_self _ _ _

omit [DecidableEq κ] [DecidableEq ν] in
theorem connections_setConnection_of_ne (s : Reactor ι κ ν) {i k : ι} (m : Member κ)
    (h : k ≠ i) : (s.setConnection i m).connections k = s.connections k :=
  Function.update_of_ne h _ _

omit [DecidableEq ι] [DecidableEq ν] in
@[simp] theorem clients_setClient (s : Reactor ι κ ν) (j : κ) (client : TcpClient) :
    (s.setClient j client).clients j = client := Function.update_self _ _ _

omit [DecidableEq ι] [DecidableEq ν] in
theorem clients_setClient_of_ne (s : Reactor ι κ ν) {j k : κ} (client : TcpClient)
    (h : k ≠ j) : (s.setClient j client).clients k = s.clients k :=
  Function.update_of_ne h _ _

omit [DecidableEq ι] [DecidableEq κ] in
@[simp] theorem others_setOther (s : Reactor ι κ ν) (a : ν) (channel : Channel) :
    (s.setOther a channel).others a = channel := Function.update_self _ _ _

omit [DecidableEq ι] [DecidableEq κ] in
theorem others_setOther_of_ne (s : Reactor ι κ ν) {a b : ν} (channel : Channel) (h : b ≠ a) :
    (s.setOther a channel).others b = s.others b :=
  Function.update_of_ne h _ _

/-- Where the loop says that a channel is. -/
abbrev Places (ι κ ν : Type) : Type :=
  Dispatch (ChannelId ι κ ν) → ChannelId ι κ ν → ActivePlace

variable (place : Places ι κ ν) (s : Reactor ι κ ν)

def clientStep (j : κ) (a : TcpClient.Action) : Except Assertion (Reactor ι κ ν) := do
  let client ← ((s.clients j).placed fun sockfd => place s.loop (.connector j sockfd)).step a
  pure (s.setClient j client)

/-- The `closeCallback_` of a connection of a client is `TcpClient::removeConnection`. -/
def connectionStep (i : ι) (a : TcpConnection.Action) : Except Assertion (Reactor ι κ ν) :=
  match s.connections i with
  | none => .ok s
  | some m => do
      let conn ← (m.conn.placed (place s.loop (.connection i))).step a
      let t := s.setConnection i { m with conn := conn }
      match m.client with
      | none => pure t
      | some (j, n) =>
          if m.conn.closesNext a = true then t.clientStep place j (.closeCallback n) else pure t

/-- A call of a Connector that stands alone. -/
def connectorStep (j : κ) (a : Connector.Action) : Except Assertion (Reactor ι κ ν) := do
  let connector ← ((s.clients j).connector.placed fun sockfd =>
    place s.loop (.connector j sockfd)).step a
  pure (s.setClient j { s.clients j with connector := connector })

/-- A connection is constructed, and `connectEstablished` is called. -/
def establish (i : ι) (client : Option (κ × Nat)) (conn : TcpConnection) :
    Except Assertion (Reactor ι κ ν) := do
  let conn ← conn.connectEstablished
  pure (s.setConnection i ⟨conn, client⟩)

/-- `poller_->poll` fills `activeChannels_`, and sets the `revents_` of its channels. -/
def polled (events : List (ChannelId ι κ ν × PollEvents)) : Reactor ι κ ν :=
  { s with
    loop := s.loop.polled (events.map Prod.fst)
    connections := fun i => (s.connections i).map fun m =>
      match events.lookup (.connection i) with
      | none => m
      | some revents => { m with conn := m.conn.reported revents } }

/-- `currentActiveChannel_->handleEvent(pollReturnTime_)`. -/
def handleEvent (id : ChannelId ι κ ν) (answers : Answers) : Except Assertion (Reactor ι κ ν) :=
  match id with
  | .connection i => s.connectionStep place i (.handleEvent answers.read answers.write)
  | .connector j _ => s.clientStep place j (.connector
      (.handleEvent answers.error answers.writable answers.err answers.isSelfConnect))
  -- the timers that have expired and the new connections are steps of their own
  | .other _ => .ok s

/-- The loop goes on; the functors are swapped after the events have been handled. -/
def left : Reactor ι κ ν :=
  { s with
    loop := s.loop.leave
    connections := fun i => (s.connections i).map fun m =>
      { m with conn := m.conn.advanced s.loop.point } }

/-- A step, when `place` answers for the loop. -/
def stepAt : Action ι κ ν → Except Assertion (Reactor ι κ ν)
  | .leave => .ok s.left
  | .poll events => .ok (s.polled events)
  | .handleEvent answers =>
      let t := { s with loop := s.loop.forward }
      match s.loop.waiting.head? with
      | none => .ok t
      | some id => t.handleEvent place id answers
  | .establish i ownerInLoop writeComplete highWater highWaterMark =>
      s.establish i none (TcpConnection.new ownerInLoop writeComplete highWater highWaterMark)
  | .newConnection j sockfd i writeComplete highWater highWaterMark => do
      let t ← s.clientStep place j (.connector (.newConnection sockfd))
      t.establish i (some (j, (s.clients j).nextConnId))
        (TcpConnection.new true writeComplete highWater highWaterMark)
  | .removeConnectionInLoop i =>
      match s.connections i with
      | none => .ok s
      | some m => do
          let conn ← ({ m.conn with removals := m.conn.removals - 1 }).removeConnectionInLoop
          pure (s.setConnection i { m with conn := conn })
  | .connection i a => s.connectionStep place i a
  | .client j a => s.clientStep place j a
  | .connector j a => s.connectorStep place j a
  | .enableReading a => do
      let channel ← (s.others a).enableReading
      pure (s.setOther a channel)

end Step

/-! ### What may happen -/

/-- Every function that the loop's thread has called has returned. -/
def rests (s : Reactor ι κ ν) : Prop :=
  (∀ i, ∀ m ∈ s.connections i, m.conn.frames = []) ∧
    ∀ j, (s.clients j).connector.point = .idle

/-- The loop has done what is to be done at a point. -/
def done (s : Reactor ι κ ν) : TcpConnection.Point → Prop
  | .idle => True
  | .polling => False
  | .handlingEvents => s.loop.waiting = []
  | .callingFunctors => ∀ i, ∀ m ∈ s.connections i, m.conn.functors.batch = []

/-- The answers fit the channel that is called. -/
def answersFit (s : Reactor ι κ ν) (answers : Answers) : ChannelId ι κ ν → Prop
  | .connection i => ∀ m ∈ s.connections i, m.conn.answersFit answers.read answers.write
  | .connector _ _ => True
  | .other _ => True

/-- The steps of a connection that only the loop takes. -/
def byLoop : TcpConnection.Action → Bool
  | .report _ | .handleEvent _ _ => true
  | _ => false

/-- Where the loop is in a step of a Connector: a call of its own thread is not made while
    it polls; timers are events. -/
def allowsConnector (s : Reactor ι κ ν) : Connector.Action → Prop
  | .start inLoop => inLoop = true → s.loop.point ≠ .polling
  | .stop | .queueInLoop _ => True
  | .startInLoop | .connectReturned _ _ | .newConnection _ | .restart => s.loop.point ≠ .polling
  | .callFunctor => s.loop.point = .callingFunctors
  | .retryTimer _ => s.loop.point = .handlingEvents
  | .handleEvent _ _ _ _ => False

/-- The `newConnectionCallback_`, which makes a connection. -/
def connects : Connector.Action → Bool
  | .newConnection _ => true
  | _ => false

/-- The `closeCallback_` is called by the connection. -/
def allowsClient (s : Reactor ι κ ν) : TcpClient.Action → Prop
  | .connectorStart inLoop => inLoop = true → s.loop.point ≠ .polling
  | .connect | .stop | .connectorStop | .disconnect | .enableRetry => True
  | .closeCallback _ => False
  | .connectDestroyed => s.loop.point = .callingFunctors
  | .connector a => connects a = false ∧ s.allowsConnector a

/-- The calls of a user who holds a Connector, and the return of its callback. -/
def callsConnector : Connector.Action → Bool
  | .start _ | .stop | .restart | .newConnection _ => true
  | _ => false

def enabled (s : Reactor ι κ ν) : Action ι κ ν → Prop
  | .leave => s.rests ∧ s.done s.loop.point
  | .poll events => s.loop.point = .polling ∧ s.rests ∧ (events.map Prod.fst).Nodup ∧
      ∀ e ∈ events, ∃ channel ∈ s.channel e.1, Reports channel.entry.interest e.2
  | .handleEvent answers => s.loop.point = .handlingEvents ∧ s.rests ∧ s.loop.waiting ≠ [] ∧
      ∀ id ∈ s.loop.waiting.head?, s.answersFit answers id
  | .establish i _ _ _ _ => s.loop.point ≠ .polling ∧ s.connections i = none
  | .newConnection j sockfd i _ _ _ => s.loop.point ≠ .polling ∧ s.connections i = none ∧
      (s.clients j).connector.enabled (.newConnection sockfd)
  | .removeConnectionInLoop i =>
      ∃ m ∈ s.connections i, m.conn.ownerInLoop = false ∧ 0 < m.conn.removals
  | .connection i a => byLoop a = false ∧ ∃ m ∈ s.connections i,
      m.conn.enabled s.loop.point a ∧ (m.conn.closesNext a = true →
        ∀ owner ∈ m.client, (s.clients owner.1).connector.point = .idle)
  | .client j a => s.allowsClient a ∧ (s.clients j).enabled a
  | .connector j a =>
      callsConnector a = true ∧ s.allowsConnector a ∧ (s.clients j).connector.enabled a
  | .enableReading _ => s.loop.point ≠ .polling

def new : Reactor ι κ ν where
  loop := Dispatch.new
  connections _ := none
  clients _ := TcpClient.new
  others _ := Channel.new

section System

variable [DecidableEq ι] [DecidableEq κ] [DecidableEq ν]

def step (s : Reactor ι κ ν) : Action ι κ ν → Except Assertion (Reactor ι κ ν) :=
  s.stepAt Dispatch.place

variable (ι κ ν) in
def system : System (Reactor ι κ ν) (Action ι κ ν) Assertion where
  init s := s = new
  enabled := enabled
  step := step

end System

/-! ### Deciding -/

instance [Fintype ι] [Fintype κ] (s : Reactor ι κ ν) : Decidable s.rests :=
  inferInstanceAs (Decidable (_ ∧ _))

instance [Fintype ι] (s : Reactor ι κ ν) : (point : TcpConnection.Point) →
    Decidable (s.done point)
  | .idle => .isTrue trivial
  | .polling => .isFalse id
  | .handlingEvents => inferInstanceAs (Decidable (s.loop.waiting = []))
  | .callingFunctors =>
      inferInstanceAs (Decidable (∀ i, ∀ m ∈ s.connections i, m.conn.functors.batch = []))

instance (s : Reactor ι κ ν) (answers : Answers) : (id : ChannelId ι κ ν) →
    Decidable (s.answersFit answers id)
  | .connection i => inferInstanceAs (Decidable (∀ m ∈ s.connections i, _))
  | .connector _ _ => .isTrue trivial
  | .other _ => .isTrue trivial

instance (s : Reactor ι κ ν) (id : ChannelId ι κ ν) : Decidable (s.Registered id) :=
  inferInstanceAs (Decidable (∃ channel ∈ s.channel id, _))

instance (s : Reactor ι κ ν) : (a : Connector.Action) → Decidable (s.allowsConnector a)
  | .start _ => inferInstanceAs (Decidable (_ → _))
  | .stop => .isTrue trivial
  | .queueInLoop _ => .isTrue trivial
  | .startInLoop => inferInstanceAs (Decidable (_ ≠ _))
  | .connectReturned _ _ => inferInstanceAs (Decidable (_ ≠ _))
  | .newConnection _ => inferInstanceAs (Decidable (_ ≠ _))
  | .restart => inferInstanceAs (Decidable (_ ≠ _))
  | .callFunctor => inferInstanceAs (Decidable (_ = _))
  | .retryTimer _ => inferInstanceAs (Decidable (_ = _))
  | .handleEvent _ _ _ _ => .isFalse id

instance (s : Reactor ι κ ν) : (a : TcpClient.Action) → Decidable (s.allowsClient a)
  | .connectorStart _ => inferInstanceAs (Decidable (_ → _))
  | .connect => .isTrue trivial
  | .stop => .isTrue trivial
  | .connectorStop => .isTrue trivial
  | .disconnect => .isTrue trivial
  | .enableRetry => .isTrue trivial
  | .closeCallback _ => .isFalse id
  | .connectDestroyed => inferInstanceAs (Decidable (_ = _))
  | .connector a => inferInstanceAs (Decidable (_ ∧ s.allowsConnector a))

instance [DecidableEq ι] [DecidableEq κ] [DecidableEq ν] [Fintype ι] [Fintype κ]
    (s : Reactor ι κ ν) : (a : Action ι κ ν) → Decidable ((system ι κ ν).enabled s a)
  | .leave => inferInstanceAs (Decidable (_ ∧ _))
  | .poll _ => inferInstanceAs (Decidable (_ ∧ _))
  | .handleEvent _ => inferInstanceAs (Decidable (_ ∧ _))
  | .establish _ _ _ _ _ => inferInstanceAs (Decidable (_ ∧ _))
  | .newConnection _ sockfd _ _ _ _ => inferInstanceAs (Decidable (_ ∧ _ ∧
      Connector.system.enabled _ (.newConnection sockfd)))
  | .removeConnectionInLoop _ => inferInstanceAs (Decidable (∃ _ ∈ _, _))
  | .connection _ _ => inferInstanceAs (Decidable (_ ∧ _))
  | .client _ a => inferInstanceAs (Decidable (_ ∧ TcpClient.system.enabled _ a))
  | .connector _ a => inferInstanceAs (Decidable (_ ∧ _ ∧ Connector.system.enabled _ a))
  | .enableReading _ => inferInstanceAs (Decidable (_ ≠ _))

end Reactor

end Kaycc
