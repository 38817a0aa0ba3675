/-
  Kaycc/TcpServer.lean
  ====================
  **`net/tcpserver.cpp` with `numThreads` 0: the server and its connections in one loop.**

  A connection is known by its place in `conns`, as `connections_` knows it by a
  name that is given once; those with `tracked` are in `connections_`.  The loop
  serves one connection at a time, and serves none while a user callback has not
  returned.

  `~TcpServer` runs on the loop's thread, from the outside of the loop or from any
  user callback.  It releases the connections one after the other, in the order of
  the map, which is any order here; the `connectionCallback_` of each is a step of
  its own.
-/
import Kaycc.TcpConnectionLoop
import Kaycc.Transition

namespace Kaycc

open Transition TcpConnection

/-- Before, in and after `~TcpServer`. -/
inductive TcpServer.Phase where
  | alive
  | destroying
  | destroyed
deriving DecidableEq, Repr

structure TcpServer where
  conns : List TcpConnection
  point : Point
  phase : TcpServer.Phase

namespace TcpServer

inductive Action where
  | newConnection (writeComplete highWater : Bool) (highWaterMark : Nat)
  | conn (i : Nat) (a : TcpConnection.Action)
  | advance
  | beginDestroy
  | destroyNext (i : Nat)
  | endDestroy

def step (s : TcpServer) : Action → Except Assertion TcpServer
  | .newConnection writeComplete highWater highWaterMark => do
      let c ← (TcpConnection.new true writeComplete highWater highWaterMark).connectEstablished
      pure { s with conns := s.conns ++ [c] }
  | .conn i a => match s.conns[i]? with
      | none => .ok s
      | some c => do
          let c' ← c.step a
          pure { s with conns := s.conns.set i c' }
  | .advance =>
      .ok { s with conns := s.conns.map (·.advanced s.point), point := s.point.next }
  | .beginDestroy => .ok { s with phase := .destroying }
  | .destroyNext i => match s.conns[i]? with
      | none => .ok s
      | some c => do
          let c' ← c.release
          pure { s with conns := s.conns.set i c' }
  | .endDestroy =>
      .ok { s with
        conns := s.conns.map fun c => { c with serverDestroyed := true }
        phase := .destroyed }

/-- The steps that the loop begins itself. -/
def ofLoop : TcpConnection.Action → Prop
  | .handleEvent _ _ => True
  | .runFunctor _ => True
  | .delayedForceClose => True
  | _ => False

/-- No user callback has been called that has not returned. -/
def atRest (s : TcpServer) : Prop := ∀ c ∈ s.conns, c.frames = []

/-- The `connectionCallback_` of a `connectDestroyed` has not returned. -/
def releasing (s : TcpServer) : Prop := ∃ c ∈ s.conns, .connectDestroyed ∈ c.frames

/-- What may happen to a connection.  In `~TcpServer` the loop stands still, and only the
    callbacks called from there return. -/
def connEnabled (s : TcpServer) (c : TcpConnection) (a : TcpConnection.Action) : Prop :=
  c.enabled s.point a ∧ (ofLoop a → s.phase ≠ .destroying ∧ s.atRest) ∧
    match a with
    | .callbackReturn _ _ => s.phase = .destroying → c.frames.head? = some .connectDestroyed
    | _ => True

def enabled (s : TcpServer) : Action → Prop
  | .newConnection _ _ _ => s.phase = .alive ∧ s.point = .handlingEvents ∧ s.atRest
  | .conn i a => ∃ c ∈ s.conns[i]?, s.connEnabled c a
  | .advance => s.phase ≠ .destroying ∧ ∀ c ∈ s.conns, c.rests s.point
  | .beginDestroy => s.phase = .alive ∧ s.point ≠ .polling
  | .destroyNext i =>
      s.phase = .destroying ∧ ¬ s.releasing ∧ ∃ c ∈ s.conns[i]?, c.tracked = true
  | .endDestroy =>
      s.phase = .destroying ∧ ¬ s.releasing ∧ ∀ c ∈ s.conns, c.tracked = false

def system : System TcpServer Action Assertion where
  init s := s.conns = [] ∧ s.phase = .alive
  enabled := enabled
  step := step

/-! ### Deciding -/

instance : (a : TcpConnection.Action) → Decidable (ofLoop a)
  | .report _ => .isFalse id
  | .handleEvent _ _ => .isTrue trivial
  | .callbackReturn _ _ => .isFalse id
  | .runFunctor _ => .isTrue trivial
  | .delayedForceClose => .isTrue trivial
  | .call _ _ => .isFalse id
  | .beginCall _ => .isFalse id
  | .finishCall _ => .isFalse id
  | .editInput _ => .isFalse id

instance (s : TcpServer) : Decidable s.atRest := inferInstanceAs (Decidable (∀ c ∈ s.conns, _))

instance (s : TcpServer) : Decidable s.releasing := inferInstanceAs (Decidable (∃ c ∈ s.conns, _))

instance (s : TcpServer) (c : TcpConnection) :
    (a : TcpConnection.Action) → Decidable (s.connEnabled c a)
  | .report _ => inferInstanceAs (Decidable (_ ∧ _ ∧ True))
  | .handleEvent _ _ => inferInstanceAs (Decidable (_ ∧ _ ∧ True))
  | .callbackReturn _ _ => inferInstanceAs (Decidable (_ ∧ _ ∧
      (s.phase = .destroying → c.frames.head? = some .connectDestroyed)))
  | .runFunctor _ => inferInstanceAs (Decidable (_ ∧ _ ∧ True))
  | .delayedForceClose => inferInstanceAs (Decidable (_ ∧ _ ∧ True))
  | .call _ _ => inferInstanceAs (Decidable (_ ∧ _ ∧ True))
  | .beginCall _ => inferInstanceAs (Decidable (_ ∧ _ ∧ True))
  | .finishCall _ => inferInstanceAs (Decidable (_ ∧ _ ∧ True))
  | .editInput _ => inferInstanceAs (Decidable (_ ∧ _ ∧ True))

instance (s : TcpServer) : (a : Action) → Decidable (system.enabled s a)
  | .newConnection _ _ _ => inferInstanceAs (Decidable (_ ∧ _))
  | .conn i a => inferInstanceAs (Decidable (∃ c ∈ s.conns[i]?, s.connEnabled c a))
  | .advance => inferInstanceAs (Decidable (_ ∧ ∀ c ∈ s.conns, c.rests s.point))
  | .beginDestroy => inferInstanceAs (Decidable (_ ∧ _))
  | .destroyNext i =>
      inferInstanceAs (Decidable (_ ∧ _ ∧ ∃ c ∈ s.conns[i]?, c.tracked = true))
  | .endDestroy => inferInstanceAs (Decidable (_ ∧ _ ∧ ∀ c ∈ s.conns, c.tracked = false))

end TcpServer

end Kaycc
