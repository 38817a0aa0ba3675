/-
  Kaycc/Acceptor.lean
  ===================
  **`net/acceptor.cpp`: `handleRead` and its descriptors.**

  `handleRead` is cut at its system calls, and between any two of them the rest of
  the process may open and close descriptors of its own.  What a call returns is
  an argument: a descriptor that is not open, or -1.  Whether `errno` is `EMFILE`
  when it is tested is one too, as the log statements before the test may change it.

  `accepted` and `reserved` are the openings that the Acceptor got from `accept` and
  from `open("/dev/null")`, `passed` and `closed` those it gave to
  `newConnectionCallback_` and those it closed.
-/
import Kaycc.Assertion
import Kaycc.DescriptorTable
import Kaycc.Transition

namespace Kaycc

open Transition Transition.System

namespace Acceptor

/-- The next statement of `handleRead`. -/
inductive Point where
  | idle                          -- no read event is handled
  | accept                        -- connfd = acceptSocket_.accept(&peerAddr)
  | connection (connfd : Int)     -- if (newConnectionCallback_)
  | testErrno                     -- if (errno == EMFILE)
  | closeIdle                     -- ::close(idleFd_)
  | acceptIdle                    -- idleFd_ = ::accept(acceptSocket_.fd(), NULL, NULL)
  | closeAccepted                 -- ::close(idleFd_)
  | reopen                        -- idleFd_ = ::open("/dev/null", ..)
deriving DecidableEq, Repr

end Acceptor

open Acceptor in
structure Acceptor where
  descriptors : DescriptorTable   -- of the process
  acceptFd : Int                  -- acceptSocket_.fd()
  idleFd : Int
  newConnectionCallback : Bool    -- whether it is set
  point : Point
  accepted : List Nat
  reserved : List Nat
  passed : List Nat
  closed : List Nat

namespace Acceptor

/-- After the constructor and `listen`: `socket` has returned `acceptFd`, and then `open`
    has returned `idleFd`. -/
def new (acceptFd idleFd : Nat) : Acceptor where
  descriptors := (DescriptorTable.empty.opened acceptFd).opened idleFd
  acceptFd := acceptFd
  idleFd := idleFd
  newConnectionCallback := false
  point := .idle
  accepted := []
  reserved := [1]
  passed := []
  closed := []

def goto (s : Acceptor) (p : Point) : Acceptor := { s with point := p }

/-- `close(fd)`. -/
def close (s : Acceptor) (fd : Int) : Acceptor :=
  match s.descriptors.refers fd with
  | some k => { s with descriptors := s.descriptors.close fd, closed := s.closed ++ [k] }
  | none => s

/-- An `accept` has returned. -/
def acceptReturns (s : Acceptor) : Option Nat → Acceptor
  | some fd =>
      { s with
        descriptors := s.descriptors.opened fd
        accepted := s.accepted ++ [s.descriptors.openings] }
  | none => s

/-- `open("/dev/null", ..)` has returned. -/
def openReturns (s : Acceptor) : Option Nat → Acceptor
  | some fd =>
      { s with
        descriptors := s.descriptors.opened fd
        reserved := s.reserved ++ [s.descriptors.openings] }
  | none => s

/-- `newConnectionCallback_(connfd, peerAddr)`. -/
def pass (s : Acceptor) (connfd : Int) : Acceptor :=
  match s.descriptors.refers connfd with
  | some k => { s with passed := s.passed ++ [k] }
  | none => s

/-! ### `handleRead` -/

/-- `connfd = acceptSocket_.accept(&peerAddr)` and `if (connfd > 0)`. -/
def accept (s : Acceptor) (r : Option Nat) : Acceptor :=
  let connfd := DescriptorTable.result r
  if 0 < connfd then (s.acceptReturns r).goto (.connection connfd)
  else (s.acceptReturns r).goto .testErrno

/-- `if (newConnectionCallback_)`. -/
def connection (s : Acceptor) (connfd : Int) : Acceptor :=
  if s.newConnectionCallback = true then (s.pass connfd).goto .idle
  else (s.close connfd).goto .idle

/-- `if (errno == EMFILE)`. -/
def testErrno (s : Acceptor) (emfile : Bool) : Acceptor :=
  if emfile = true then s.goto .closeIdle else s.goto .idle

def closeIdle (s : Acceptor) : Acceptor := (s.close s.idleFd).goto .acceptIdle

def acceptIdle (s : Acceptor) (r : Option Nat) : Acceptor :=
  { s.acceptReturns r with idleFd := DescriptorTable.result r, point := .closeAccepted }

def closeAccepted (s : Acceptor) : Acceptor := (s.close s.idleFd).goto .reopen

def reopen (s : Acceptor) (r : Option Nat) : Acceptor :=
  { s.openReturns r with idleFd := DescriptorTable.result r, point := .idle }

/-! ### The steps -/

inductive Action where
  | handleRead                          -- a read event of acceptChannel_
  | accept (r : Option Nat)             -- acceptSocket_.accept() returns
  | connection
  | testErrno (emfile : Bool)
  | closeIdle
  | acceptIdle (r : Option Nat)         -- ::accept() returns
  | closeAccepted
  | reopen (r : Option Nat)             -- ::open() returns
  | setNewConnectionCallback (set : Bool)
  -- the rest of the process
  | otherOpens (fd : Nat)
  | otherCloses (fd : Int)
deriving DecidableEq, Repr

/-- The opening is the Acceptor's: its own socket, or one it got and has not passed on. -/
def Own (s : Acceptor) (k : Nat) : Prop :=
  s.descriptors.refers s.acceptFd = some k ∨ k ∈ s.reserved ∨ k ∈ s.accepted ∧ k ∉ s.passed

def Point.isConnection : Point → Bool
  | .connection _ => true
  | _ => false

def enabled (s : Acceptor) : Action → Prop
  | .handleRead => s.point = .idle
  | .accept r => s.point = .accept ∧ s.descriptors.Available r
  | .connection => s.point.isConnection = true
  | .testErrno _ => s.point = .testErrno
  | .closeIdle => s.point = .closeIdle
  | .acceptIdle r => s.point = .acceptIdle ∧ s.descriptors.Available r
  | .closeAccepted => s.point = .closeAccepted
  | .reopen r => s.point = .reopen ∧ s.descriptors.Available r
  | .setNewConnectionCallback _ => s.point = .idle
  | .otherOpens fd => s.descriptors.refers fd = none
  | .otherCloses fd => ∃ k ∈ s.descriptors.refers fd, ¬ s.Own k

def step (s : Acceptor) : Action → Acceptor
  | .handleRead => s.goto .accept
  | .accept r => s.accept r
  | .connection =>
      match s.point with
      | .connection connfd => s.connection connfd
      | _ => s
  | .testErrno emfile => s.testErrno emfile
  | .closeIdle => s.closeIdle
  | .acceptIdle r => s.acceptIdle r
  | .closeAccepted => s.closeAccepted
  | .reopen r => s.reopen r
  | .setNewConnectionCallback set => { s with newConnectionCallback := set }
  | .otherOpens fd => { s with descriptors := s.descriptors.opened fd }
  | .otherCloses fd => { s with descriptors := s.descriptors.close fd }

def system : System Acceptor Action Assertion where
  init s := ∃ acceptFd idleFd, acceptFd ≠ idleFd ∧ s = new acceptFd idleFd
  enabled := enabled
  step s act := .ok (s.step act)

instance (s : Acceptor) (k : Nat) : Decidable (s.Own k) :=
  inferInstanceAs (Decidable (_ = some k ∨ k ∈ s.reserved ∨ k ∈ s.accepted ∧ k ∉ s.passed))

instance (s : Acceptor) : (act : Action) → Decidable (system.enabled s act)
  | .handleRead => inferInstanceAs (Decidable (s.point = .idle))
  | .accept r => inferInstanceAs (Decidable (_ ∧ s.descriptors.Available r))
  | .connection => inferInstanceAs (Decidable (_ = true))
  | .testErrno _ => inferInstanceAs (Decidable (s.point = .testErrno))
  | .closeIdle => inferInstanceAs (Decidable (s.point = .closeIdle))
  | .acceptIdle r => inferInstanceAs (Decidable (_ ∧ s.descriptors.Available r))
  | .closeAccepted => inferInstanceAs (Decidable (s.point = .closeAccepted))
  | .reopen r => inferInstanceAs (Decidable (_ ∧ s.descriptors.Available r))
  | .setNewConnectionCallback _ => inferInstanceAs (Decidable (s.point = .idle))
  | .otherOpens fd => inferInstanceAs (Decidable (s.descriptors.refers fd = none))
  | .otherCloses fd => inferInstanceAs (Decidable (∃ k ∈ s.descriptors.refers fd, ¬ s.Own k))

end Acceptor

end Kaycc
