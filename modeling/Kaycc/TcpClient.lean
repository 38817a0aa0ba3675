/-
  Kaycc/TcpClient.lean
  ====================
  **`net/tcpclient.cpp`: a `Connector` and at most one connection.**

  Connections are numbered by `nextConnId_`.  `connect` and `stop` write the
  client's `connect_` first and call the Connector later, as any thread may do; the
  calls in between are counted.  A connection that has been established invokes its
  `closeCallback_`, which is `removeConnection`, at most once and at any time on the
  loop's thread.

  The two state machines are kept together by `connection_`, which is set only while
  the Connector is `kConnected`, a state that only `restart` leaves.
-/
import Kaycc.ConnectorMoves

namespace Kaycc

open Transition Transition.System

structure TcpClient where
  connector : Connector
  retry : Bool                 -- retry_
  connect : Bool               -- connect_
  nextConnId : Nat
  connection : Option Nat      -- connection_
  closed : List Nat            -- those that have invoked their closeCallback_
  destroying : List Nat        -- connectDestroyed is queued
  starting : Nat               -- calls of connect() before connector_->start()
  stopping : Nat               -- calls of stop() before connector_->stop()
deriving Repr

namespace TcpClient

def new : TcpClient where
  connector := Connector.new
  retry := false
  connect := true
  nextConnId := 1
  connection := none
  closed := []
  destroying := []
  starting := 0
  stopping := 0

/-- `newConnectionCallback_`. -/
def newConnection (s : TcpClient) : TcpClient :=
  { s with connection := some s.nextConnId, nextConnId := s.nextConnId + 1 }

/-- The `closeCallback_` of a connection. -/
def removeConnection (s : TcpClient) (conn : Nat) : Except Assertion TcpClient := do
  check (s.connection = some conn) .removeConnectionCurrent
  let t := { s with
    connection := none
    destroying := s.destroying ++ [conn]
    closed := s.closed ++ [conn] }
  if s.retry = true ∧ s.connect = true then pure { t with connector := s.connector.restart }
  else pure t

/-! ### The steps of all threads -/

inductive Action where
  | connect
  | connectorStart (inLoop : Bool)       -- connect() goes on
  | stop
  | connectorStop                        -- stop() goes on
  | disconnect
  | enableRetry
  | closeCallback (conn : Nat)
  | connectDestroyed
  | connector (act : Connector.Action)   -- a step of the Connector by itself
deriving DecidableEq, Repr

/-- The calls that only the client makes. -/
def byClient : Connector.Action → Bool
  | .start _ | .stop | .restart => true
  | _ => false

def step (s : TcpClient) : Action → Except Assertion TcpClient
  | .connect => .ok { s with connect := true, starting := s.starting + 1 }
  | .connectorStart inLoop =>
      .ok { s with connector := s.connector.start inLoop, starting := s.starting - 1 }
  | .stop => .ok { s with connect := false, stopping := s.stopping + 1 }
  | .connectorStop => .ok { s with connector := s.connector.stop, stopping := s.stopping - 1 }
  | .disconnect => .ok { s with connect := false }   -- and connection_->shutdown()
  | .enableRetry => .ok { s with retry := true }
  | .closeCallback conn => s.removeConnection conn
  | .connectDestroyed => .ok { s with destroying := s.destroying.tail }
  | .connector act => do
      let connector ← s.connector.step act
      let s := { s with connector := connector }
      match act with
      | .newConnection _ => pure s.newConnection
      | _ => pure s

/-- The connection has been established and not been closed. -/
def Open (s : TcpClient) (conn : Nat) : Prop :=
  1 ≤ conn ∧ conn < s.nextConnId ∧ conn ∉ s.closed

def enabled (s : TcpClient) : Action → Prop
  | .connect | .stop | .disconnect | .enableRetry => True
  | .connectorStart inLoop => 0 < s.starting ∧ s.connector.enabled (.start inLoop)
  | .connectorStop => 0 < s.stopping
  | .closeCallback conn => s.connector.point = .idle ∧ s.Open conn
  | .connectDestroyed => s.connector.point = .idle ∧ s.destroying ≠ []
  | .connector act => byClient act = false ∧ s.connector.enabled act

def system : System TcpClient Action Assertion where
  init s := s = new
  enabled := enabled
  step := step

instance (s : TcpClient) (conn : Nat) : Decidable (s.Open conn) :=
  inferInstanceAs (Decidable (_ ∧ _ ∧ _))

instance (s : TcpClient) : (act : Action) → Decidable (system.enabled s act)
  | .connect | .stop | .disconnect | .enableRetry => inferInstanceAs (Decidable True)
  | .connectorStart inLoop =>
      inferInstanceAs (Decidable (_ ∧ Connector.system.enabled s.connector (.start inLoop)))
  | .connectorStop => inferInstanceAs (Decidable (_ < _))
  | .closeCallback _ => inferInstanceAs (Decidable (_ ∧ s.Open _))
  | .connectDestroyed => inferInstanceAs (Decidable (_ ∧ _))
  | .connector act => inferInstanceAs (Decidable (_ ∧ Connector.system.enabled s.connector act))

end TcpClient

end Kaycc
