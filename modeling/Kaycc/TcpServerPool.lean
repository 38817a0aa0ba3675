/-
  Kaycc/TcpServerPool.lean
  ========================
  **`net/tcpserver.cpp` with its thread pool: a base loop and any number of io loops.**

  The base loop accepts; a connection lives in the loop that the pool gave it, which
  is the base loop when the pool has no threads.  Every loop calls its functors in
  the order in which they were queued, and `runInLoop` calls at once on the loop's
  own thread.  Connections are numbered in the order in which they are accepted;
  `connections_` knows them by their names, which `snprintf` formats into a buffer
  of 64 bytes.

  `log` records every call that a connection sees, with the loop on whose thread it
  was made.  A connection invokes its `closeCallback_` at any time after its
  `connectEstablished`, and at most once.
-/
import Mathlib.Algebra.Group.Nat.Defs
import Kaycc.TcpConnection
import Kaycc.Transition

namespace Kaycc

open Transition
open TcpConnection (StateE)

/-! ### Names -/

/-- What `snprintf` leaves in a buffer of `size` bytes. -/
def snprintf (size : Nat) (text : List Char) : List Char := text.take (size - 1)

/-- `%d` of a number that is not negative, `%u`. -/
def decimal (n : Nat) : List Char := Nat.toDigits 10 n

/-- An address: what `inet_ntop` writes for it, which is at most `INET6_ADDRSTRLEN` bytes
    with the terminating one, and the port. -/
structure InetAddress where
  ip : List Char
  port : Fin (2 ^ 16)
  ip_length : ip.length < 46

/-- `toIpPort`: the port goes behind the address in a buffer of 64 bytes. -/
def InetAddress.toIpPort (addr : InetAddress) : List Char :=
  addr.ip ++ snprintf (64 - addr.ip.length) (':' :: decimal addr.port)

namespace TcpServerPool

structure Config where
  name : List Char
  listenAddr : InetAddress
  numThreads : Nat

/-- The name of the connection with this id. -/
def Config.connName (cfg : Config) (nextConnId : Nat) : List Char :=
  cfg.name ++ snprintf 64 ('-' :: cfg.listenAddr.toIpPort ++ '#' :: decimal nextConnId)

/-! ### The server -/

inductive LoopId where
  | base
  | io (i : Nat)
deriving DecidableEq, Repr

/-- The functors that are bound to a connection. -/
inductive Functor where
  | connectEstablished (conn : Nat)
  | removeConnectionInLoop (conn : Nat)
  | connectDestroyed (conn : Nat)
deriving DecidableEq, Repr

inductive Event where
  | called (f : Functor)
  | closeCallback (conn : Nat)
deriving DecidableEq, Repr

def Functor.conn : Functor → Nat
  | .connectEstablished conn | .removeConnectionInLoop conn | .connectDestroyed conn => conn

def Event.conn : Event → Nat
  | .called f => f.conn
  | .closeCallback conn => conn

structure Conn where
  name : List Char
  loop : LoopId
  state : StateE
deriving DecidableEq, Repr

end TcpServerPool

open TcpServerPool in
structure TcpServerPool where
  nextConnId : Nat
  next : Nat                                -- next_ of the pool
  connections : List Char → Option Nat      -- connections_
  conns : List Conn                         -- all that have been accepted
  functors : LoopId → List Functor
  log : List (LoopId × Event)

namespace TcpServerPool

def new : TcpServerPool where
  nextConnId := 1
  next := 0
  connections := fun _ => none
  conns := []
  functors := fun _ => []
  log := []

def name (s : TcpServerPool) (conn : Nat) : List Char := s.conns[conn]?.elim [] Conn.name

def getLoop (s : TcpServerPool) (conn : Nat) : LoopId := s.conns[conn]?.elim .base Conn.loop

def state (s : TcpServerPool) (conn : Nat) : Option StateE := s.conns[conn]?.map Conn.state

def setState (s : TcpServerPool) (conn : Nat) (state : StateE) : TcpServerPool :=
  { s with conns := s.conns.modify conn fun c => { c with state := state } }

def record (s : TcpServerPool) (loop : LoopId) (e : Event) : TcpServerPool :=
  { s with log := s.log ++ [(loop, e)] }

def queueInLoop (s : TcpServerPool) (loop : LoopId) (f : Functor) : TcpServerPool :=
  { s with functors := Function.update s.functors loop (s.functors loop ++ [f]) }

/-- `TcpConnection::connectEstablished`. -/
def connectEstablished (s : TcpServerPool) (conn : Nat) : Except Assertion TcpServerPool := do
  check (s.state conn = some .kConnecting) .connectEstablishedConnecting
  pure (s.setState conn .kConnected)

/-- `TcpConnection::connectDestroyed`. -/
def connectDestroyed (s : TcpServerPool) (conn : Nat) : TcpServerPool :=
  if s.state conn = some .kConnected then s.setState conn .kDisconnected else s

def removeConnectionInLoop (s : TcpServerPool) (conn : Nat) : Except Assertion TcpServerPool := do
  check (s.connections (s.name conn) ≠ none) .removeConnectionErased
  let s := { s with connections := Function.update s.connections (s.name conn) none }
  pure (s.queueInLoop (s.getLoop conn) (.connectDestroyed conn))

/-- A functor is called on the thread of `loop`. -/
def call (s : TcpServerPool) (loop : LoopId) (f : Functor) : Except Assertion TcpServerPool :=
  let s := s.record loop (.called f)
  match f with
  | .connectEstablished conn => s.connectEstablished conn
  | .removeConnectionInLoop conn => s.removeConnectionInLoop conn
  | .connectDestroyed conn => pure (s.connectDestroyed conn)

/-- `loop->runInLoop(f)` on the thread of `current`. -/
def runInLoop (s : TcpServerPool) (current loop : LoopId) (f : Functor) :
    Except Assertion TcpServerPool :=
  if current = loop then s.call loop f else pure (s.queueInLoop loop f)

/-- `EventLoopThreadPool::getNextLoop`, and `next_` after it. -/
def getNextLoop (cfg : Config) (s : TcpServerPool) : LoopId × Nat :=
  if cfg.numThreads = 0 then (.base, s.next)
  else (.io s.next, if s.next + 1 ≥ cfg.numThreads then 0 else s.next + 1)

def newConnection (cfg : Config) (s : TcpServerPool) : Except Assertion TcpServerPool :=
  let ioLoop := (s.getNextLoop cfg).1
  let connName := cfg.connName s.nextConnId
  let number := s.conns.length
  let conn : Conn := { name := connName, loop := ioLoop, state := .kConnecting }
  let s := { s with
    nextConnId := s.nextConnId + 1
    next := (s.getNextLoop cfg).2
    connections := Function.update s.connections connName (some number)
    conns := s.conns ++ [conn] }
  s.runInLoop .base ioLoop (.connectEstablished number)

/-- `removeConnection`, on the thread of the connection's loop. -/
def removeConnection (s : TcpServerPool) (conn : Nat) : Except Assertion TcpServerPool :=
  s.runInLoop (s.getLoop conn) .base (.removeConnectionInLoop conn)

/-- The connection is closed and invokes its `closeCallback_`. -/
def closeCallback (s : TcpServerPool) (conn : Nat) : Except Assertion TcpServerPool :=
  ((s.record (s.getLoop conn) (.closeCallback conn)).setState conn .kDisconnected).removeConnection
    conn

/-! ### The steps of all loops -/

inductive Action where
  | newConnection
  | callFunctor (loop : LoopId)
  | closeCallback (conn : Nat)
deriving DecidableEq, Repr

def step (cfg : Config) (s : TcpServerPool) : Action → Except Assertion TcpServerPool
  | .newConnection => s.newConnection cfg
  | .callFunctor loop => match s.functors loop with
      | [] => .ok s
      | f :: functors =>
          { s with functors := Function.update s.functors loop functors }.call loop f
  | .closeCallback conn => s.closeCallback conn

/-- The calls that a connection has seen. -/
def callsOf (s : TcpServerPool) (conn : Nat) : List (LoopId × Event) :=
  s.log.filter fun e => e.2.conn = conn

/-- Fewer than `2 ^ 31` connections are accepted; a connection is closed once, after it has
    been established. -/
def enabled (s : TcpServerPool) : Action → Prop
  | .newConnection => s.conns.length + 1 < 2 ^ 31
  | .callFunctor loop => s.functors loop ≠ []
  | .closeCallback conn =>
      (s.getLoop conn, .called (.connectEstablished conn)) ∈ s.log ∧
        (s.getLoop conn, .closeCallback conn) ∉ s.log

def system (cfg : Config) : System TcpServerPool Action Assertion where
  init s := s = new
  enabled := enabled
  step := step cfg

instance (cfg : Config) (s : TcpServerPool) :
    (act : Action) → Decidable ((system cfg).enabled s act)
  | .newConnection => inferInstanceAs (Decidable (_ < _))
  | .callFunctor loop => inferInstanceAs (Decidable (s.functors loop ≠ []))
  | .closeCallback _ => inferInstanceAs (Decidable (_ ∧ _))

end TcpServerPool

end Kaycc
