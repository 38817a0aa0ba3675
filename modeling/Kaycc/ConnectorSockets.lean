/-
  Kaycc/ConnectorSockets.lean
  ===========================
  **A `Connector` neither leaks a socket nor closes it twice.**

  `start`, `stop` and `restart` are called at any time here, also where the assertions
  of the Connector do not hold, and a run goes on until one fails.  `Ledger` keeps,
  beside the Connector, what has become of each socket it has opened: each
  `sockets::close` and each call of `newConnectionCallback_` is an entry, with whether
  a channel of the socket was registered with the poller at that moment.  Apart from
  this record the functions are those of the Connector (`step_connector`).

  A `restart` during an attempt leaves its channel where it is, with the socket in
  flight; the next attempt then ends in an assertion, or closes its own socket.
-/
import Kaycc.ConnectorMoves
import Mathlib.Data.List.Nodup
import Mathlib.Data.List.Perm.Basic

namespace Kaycc

open Transition Transition.System

namespace Connector

inductive Fate where
  | closed
  | handedOver                       -- to newConnectionCallback_
deriving DecidableEq, Repr

structure Disposal where
  sockfd : Nat
  fate : Fate
  registered : Bool                  -- its channel was, at that moment
deriving DecidableEq, Repr

/-- The socket that is in `sockets::connect`. -/
def Point.opening : Point → List Nat
  | .inConnect sockfd => [sockfd]
  | _ => []

/-- The socket whose channel is registered with the poller. -/
def owned : Option (Nat × Channel) → List Nat
  | none => []
  | some (sockfd, channel) => if channel.entry.registered = true then [sockfd] else []

/-- The sockets the Connector still has: in `connect()`, or owned by the registered channel. -/
def inFlight (s : Connector) : List Nat := s.point.opening ++ owned s.channel

structure Ledger where
  connector : Connector
  disposals : List Disposal

namespace Ledger

def dispose (l : Ledger) (sockfd : Nat) (fate : Fate) : Ledger :=
  { l with
    disposals := l.disposals ++ [⟨sockfd, fate, decide (sockfd ∈ owned l.connector.channel)⟩] }

/-! ### The functions of the Connector -/

def close (l : Ledger) (sockfd : Nat) : Ledger :=
  { l.dispose sockfd .closed with connector := l.connector.close sockfd }

/-- `retry` closes the socket first. -/
def retry (l : Ledger) (sockfd : Nat) : Ledger :=
  { l.close sockfd with connector := l.connector.retry sockfd }

def connectReturned (l : Ledger) (sockfd : Nat) : Errno → Except Assertion Ledger
  | .zero | .EINPROGRESS | .EINTR | .EISCONN => do
      let s ← l.connector.connecting sockfd
      pure { l with connector := s }
  | .EAGAIN | .EADDRINUSE | .EADDRNOTAVAIL | .ECONNREFUSED | .ENETUNREACH => pure (l.retry sockfd)
  | .EACCES | .EPERM | .EAFNOSUPPORT | .EALREADY | .EBADF | .EFAULT | .ENOTSOCK
  | .other _ => pure (l.close sockfd)

def stopInLoop (l : Ledger) : Except Assertion Ledger :=
  if l.connector.state = .kConnecting then do
    let (s, sockfd) ← { l.connector with state := .kDisconnected }.removeAndResetChannel
    pure ({ l with connector := s }.retry sockfd)
  else pure l

def handleWrite (l : Ledger) (err isSelfConnect : Bool) : Except Assertion Ledger :=
  if l.connector.state = .kConnecting then do
    let (s, sockfd) ← l.connector.removeAndResetChannel
    if err = true then pure ({ l with connector := s }.retry sockfd)
    else if isSelfConnect = true then pure ({ l with connector := s }.retry sockfd)
    else
      let t := { s with state := .kConnected }
      if s.connect = true then
        pure { ({ l with connector := t }.dispose sockfd .handedOver) with
          connector := { t.close sockfd with point := .newConnection sockfd, handed := true } }
      else pure ({ l with connector := t }.close sockfd)
  else do
    check (l.connector.state = .kDisconnected) .handleWriteDisconnected
    pure l

def handleError (l : Ledger) : Except Assertion Ledger :=
  if l.connector.state = .kConnecting then do
    let (s, sockfd) ← l.connector.removeAndResetChannel
    pure ({ l with connector := s }.retry sockfd)
  else pure l

def handleEvent (l : Ledger) (error writable err isSelfConnect : Bool) :
    Except Assertion Ledger := do
  let l ← (if error = true then l.handleError else pure l)
  if writable = true then l.handleWrite err isSelfConnect else pure l

/-- A function that closes nothing and hands nothing over. -/
def keeping (l : Ledger) (r : Except Assertion Connector) : Except Assertion Ledger := do
  let s ← r
  pure { l with connector := s }

def callFunctor (l : Ledger) : List Functor → Except Assertion Ledger
  | [] => .ok l
  | .stopInLoop :: functors =>
      { l with connector := { l.connector with functors := functors } }.stopInLoop
  | f :: functors => l.keeping ({ l.connector with functors := functors }.call f)

def step (l : Ledger) : Action → Except Assertion Ledger
  | .connectReturned sockfd savedErrno =>
      { l with connector := { l.connector with point := .idle } }.connectReturned sockfd savedErrno
  | .callFunctor => l.callFunctor l.connector.functors
  | .handleEvent error writable err isSelfConnect =>
      l.handleEvent error writable err isSelfConnect
  | act => l.keeping (l.connector.step act)

/-- Where the loop's thread may call `start` and `restart`: between its calls of the
    Connector, and in `newConnectionCallback_`. -/
def inUserCode (s : Connector) : Prop :=
  s.point = .idle ∨ ∃ sockfd, s.point = .newConnection sockfd

def enabled (l : Ledger) : Action → Prop
  | .start inLoop => inLoop = true → inUserCode l.connector
  | .restart => inUserCode l.connector
  | act => l.connector.enabled act

def new : Ledger := ⟨Connector.new, []⟩

def system : System Ledger Action Assertion where
  init l := l = new
  enabled := enabled
  step := step

/-! ### The record changes nothing -/

variable {l l' : Ledger} {s t : Connector} {act : Action} {sockfd : Nat} {functors : List Functor}

theorem keeping_connector (l : Ledger) (r : Except Assertion Connector) :
    Ledger.connector <$> l.keeping r = r := by
  cases r with
  | error e => rfl
  | ok s => rfl

theorem connectReturned_connector (l : Ledger) (sockfd : Nat) (savedErrno : Errno) :
    Ledger.connector <$> l.connectReturned sockfd savedErrno =
      l.connector.connectReturned sockfd savedErrno := by
  cases savedErrno with
  | zero | EINPROGRESS | EINTR | EISCONN => exact keeping_connector l _
  | _ => rfl

theorem stopInLoop_connector (l : Ledger) :
    Ledger.connector <$> l.stopInLoop = l.connector.stopInLoop := by
  simp only [stopInLoop, Connector.stopInLoop]
  split
  · cases ({ l.connector with state := .kDisconnected } : Connector).removeAndResetChannel with
    | error e => rfl
    | ok r => rfl
  · rfl

theorem handleError_connector (l : Ledger) :
    Ledger.connector <$> l.handleError = l.connector.handleError := by
  simp only [handleError, Connector.handleError]
  split
  · cases l.connector.removeAndResetChannel with
    | error e => rfl
    | ok r => rfl
  · rfl

theorem handleWrite_connector (l : Ledger) (err isSelfConnect : Bool) :
    Ledger.connector <$> l.handleWrite err isSelfConnect =
      l.connector.handleWrite err isSelfConnect := by
  simp only [handleWrite, Connector.handleWrite]
  split
  · cases l.connector.removeAndResetChannel with
    | error e => rfl
    | ok r =>
      simp only [ok_bind]
      split
      · rfl
      · split
        · rfl
        · split
          · rfl
          · rfl
  · cases check (l.connector.state = .kDisconnected) .handleWriteDisconnected with
    | error e => rfl
    | ok u => rfl

theorem handleEvent_connector (l : Ledger) (error writable err isSelfConnect : Bool) :
    Ledger.connector <$> l.handleEvent error writable err isSelfConnect =
      l.connector.handleEvent error writable err isSelfConnect := by
  have hwrite : ∀ l : Ledger,
      Ledger.connector <$> (if writable = true then l.handleWrite err isSelfConnect else pure l) =
        if writable = true then l.connector.handleWrite err isSelfConnect
        else pure l.connector := by
    intro l
    split
    · exact handleWrite_connector l err isSelfConnect
    · rfl
  simp only [handleEvent, Connector.handleEvent]
  split
  · rw [← handleError_connector]
    cases l.handleError with
    | error e => rfl
    | ok l₁ => exact hwrite l₁
  · exact hwrite l

/-- **Forgetting the record** leaves the steps of the Connector. -/
theorem step_connector (l : Ledger) (act : Action) :
    Ledger.connector <$> l.step act = l.connector.step act := by
  cases act with
  | connectReturned sockfd savedErrno =>
    exact connectReturned_connector
      { l with connector := { l.connector with point := .idle } } sockfd savedErrno
  | handleEvent error writable err isSelfConnect =>
    exact handleEvent_connector l error writable err isSelfConnect
  | callFunctor =>
    simp only [step, Connector.step]
    cases l.connector.functors with
    | nil => rfl
    | cons f functors =>
      cases f with
      | stopInLoop =>
        exact stopInLoop_connector
          { l with connector := { l.connector with functors := functors } }
      | startInLoop => exact keeping_connector l _
      | resetChannel => exact keeping_connector l _
  | _ => exact keeping_connector l _

/-! ### The invariant -/

/-- What `channel_` is, whatever the order of the calls. -/
structure Shape (s : Connector) : Prop where
  connecting : s.state = .kConnecting → ∃ sockfd, s.channel = some (sockfd, Channel.writing)
  unset : s.channel = none → s.resets = 0
  kept : ∀ sockfd channel, s.channel = some (sockfd, channel) →
    (channel = Channel.writing ∧ s.resets = 0) ∨ (channel = Channel.new ∧ s.resets = 1)
  calling : .resetChannel ∉ s.calling

structure Inv (l : Ledger) : Prop where
  shape : Shape l.connector
  conserved : (l.disposals.map Disposal.sockfd ++ l.connector.inFlight).Perm
    (List.range l.connector.opened)
  unregistered : ∀ d ∈ l.disposals, d.registered = false

theorem new_inv : Inv new where
  shape := by
    constructor
    · exact fun h => by cases h
    · exact fun _ => rfl
    · exact fun _ _ h => by cases h
    · exact List.not_mem_nil
  conserved := List.Perm.refl _
  unregistered := fun d hd => absurd hd List.not_mem_nil

theorem Inv.nodup (hi : Inv l) :
    (l.disposals.map Disposal.sockfd ++ l.connector.inFlight).Nodup :=
  hi.conserved.nodup_iff.mpr List.nodup_range

/-- A step that opens and disposes of no socket. -/
theorem Inv.keep (hi : Inv l) (hshape : Shape s) (hflight : s.inFlight = l.connector.inFlight)
    (hopened : s.opened = l.connector.opened) : Inv { l with connector := s } where
  shape := hshape
  conserved := by
    rw [hflight, hopened]
    exact hi.conserved
  unregistered := hi.unregistered

/-- A step that opens the next socket. -/
theorem Inv.opens (hi : Inv l) (hshape : Shape s)
    (hflight : s.inFlight = l.connector.opened :: l.connector.inFlight)
    (hopened : s.opened = l.connector.opened + 1) : Inv { l with connector := s } where
  shape := hshape
  conserved := by
    rw [hflight, hopened, List.range_succ]
    calc
      List.Perm (l.disposals.map Disposal.sockfd ++ l.connector.opened :: l.connector.inFlight)
          (l.connector.opened :: (l.disposals.map Disposal.sockfd ++ l.connector.inFlight)) :=
        List.perm_middle
      List.Perm _ (l.connector.opened :: List.range l.connector.opened) := hi.conserved.cons _
      List.Perm _ (List.range l.connector.opened ++ [l.connector.opened]) :=
        (List.perm_append_singleton _ _).symm
  unregistered := hi.unregistered

/-- A step that closes a socket or hands it over. -/
theorem Inv.disposes {registered : Bool} {fate : Fate} (hi : Inv l) (hshape : Shape s)
    (hflight : l.connector.inFlight = sockfd :: s.inFlight)
    (hopened : s.opened = l.connector.opened) (hregistered : registered = false) :
    Inv ⟨s, l.disposals ++ [⟨sockfd, fate, registered⟩]⟩ where
  shape := hshape
  conserved := by
    have hc := hi.conserved
    rw [hflight] at hc
    simp only [hopened, List.map_append, List.map_cons, List.map_nil, List.append_assoc,
      List.singleton_append]
    exact hc
  unregistered := by
    intro d hd
    rcases List.mem_append.mp hd with hd | hd
    · exact hi.unregistered d hd
    · rw [List.mem_singleton.mp hd]
      exact hregistered

/-! ### The end of an attempt -/

theorem Shape.writing (h : Shape s) (hchannel : s.channel = some (sockfd, Channel.writing)) :
    s.resets = 0 := by
  rcases h.kept _ _ hchannel with ⟨-, hzero⟩ | ⟨hnew, -⟩
  · exact hzero
  · cases hnew

/-- The channel of the attempt is dropped and its socket disposed of. -/
theorem Inv.ends {fate : Fate} {registered : Bool} (hi : Inv l)
    (hchannel : l.connector.channel = some (sockfd, Channel.writing))
    (hpoint : l.connector.point.opening = []) (hstate : s.state ≠ .kConnecting)
    (hdropped : s.channel = some (sockfd, Channel.new))
    (hresets : s.resets = l.connector.resets + 1) (hcalling : s.calling = l.connector.calling)
    (hopened : s.opened = l.connector.opened) (hopening : s.point.opening = [])
    (hregistered : registered = false) :
    Inv ⟨s, l.disposals ++ [⟨sockfd, fate, registered⟩]⟩ := by
  refine hi.disposes ?_ ?_ hopened hregistered
  · constructor
    · exact fun h => absurd h hstate
    · intro h
      rw [hdropped] at h
      cases h
    · intro fd channel h
      rw [hdropped] at h
      obtain ⟨-, rfl⟩ := Prod.mk.inj (Option.some.inj h)
      exact .inr ⟨rfl, by rw [hresets, hi.shape.writing hchannel]⟩
    · rw [hcalling]
      exact hi.shape.calling
  · simp only [inFlight, hpoint, hopening, hchannel, hdropped]
    rfl

/-- What `retry` leaves as it is. -/
structure SameButTimers (s t : Connector) : Prop where
  channel : t.channel = s.channel
  resets : t.resets = s.resets
  calling : t.calling = s.calling
  opened : t.opened = s.opened
  point : t.point = s.point

theorem retry_same (s : Connector) (sockfd : Nat) : SameButTimers s (s.retry sockfd) := by
  unfold Connector.retry
  split
  · exact ⟨rfl, rfl, rfl, rfl, rfl⟩
  · exact ⟨rfl, rfl, rfl, rfl, rfl⟩

/-- The next functor is to reset the channel. -/
theorem resets_dropped (s : Connector) (sockfd : Nat) :
    (s.dropped sockfd).resets = s.resets + 1 := by
  simp [Connector.resets, dropped]

/-- An attempt that has failed, or was stopped. -/
theorem Inv.lost (hi : Inv l) (hchannel : l.connector.channel = some (sockfd, Channel.writing))
    (hpoint : l.connector.point.opening = []) (hdropped : t = l.connector.dropped sockfd ∨
      t = ({ l.connector with state := .kDisconnected } : Connector).dropped sockfd) :
    Inv ({ l with connector := t }.retry sockfd) := by
  have hsame := retry_same t sockfd
  have hfields : t.channel = some (sockfd, Channel.new) ∧ t.resets = l.connector.resets + 1 ∧
      t.calling = l.connector.calling ∧ t.opened = l.connector.opened ∧
      t.point = l.connector.point := by
    rcases hdropped with rfl | rfl
    · exact ⟨rfl, resets_dropped _ _, rfl, rfl, rfl⟩
    · exact ⟨rfl, resets_dropped { l.connector with state := .kDisconnected } sockfd, rfl, rfl, rfl⟩
  obtain ⟨hnew, hresets, hcalling, hopened, hsamePoint⟩ := hfields
  have hregistered : decide (sockfd ∈ owned t.channel) = false := by
    rw [hnew]
    rfl
  refine hi.ends (s := t.retry sockfd) hchannel hpoint (by simp) (hsame.channel.trans hnew)
    (hsame.resets.trans hresets) (hsame.calling.trans hcalling) (hsame.opened.trans hopened)
    ?_ hregistered
  rw [hsame.point, hsamePoint]
  exact hpoint

theorem Inv.stopInLoop (hi : Inv l) (hpoint : l.connector.point.opening = [])
    (h : l.stopInLoop = .ok l') : Inv l' := by
  simp only [Ledger.stopInLoop] at h
  split at h
  · rename_i hstate
    obtain ⟨sockfd, hchannel⟩ := hi.shape.connecting hstate
    rw [removeAndResetChannel_eq (s := { l.connector with state := .kDisconnected }) hchannel] at h
    obtain rfl := Except.ok.inj h
    exact hi.lost hchannel hpoint (.inr rfl)
  · obtain rfl := Except.ok.inj h
    exact hi

theorem Inv.handleError (hi : Inv l) (hpoint : l.connector.point.opening = [])
    (h : l.handleError = .ok l') : Inv l' ∧ l'.connector.point = l.connector.point := by
  simp only [Ledger.handleError] at h
  split at h
  · rename_i hstate
    obtain ⟨sockfd, hchannel⟩ := hi.shape.connecting hstate
    rw [removeAndResetChannel_eq hchannel] at h
    obtain rfl := Except.ok.inj h
    exact ⟨hi.lost hchannel hpoint (.inl rfl), (retry_same _ _).point⟩
  · obtain rfl := Except.ok.inj h
    exact ⟨hi, rfl⟩

theorem Inv.handleWrite {err isSelfConnect : Bool} (hi : Inv l)
    (hpoint : l.connector.point.opening = []) (h : l.handleWrite err isSelfConnect = .ok l') :
    Inv l' := by
  simp only [Ledger.handleWrite] at h
  split at h
  · rename_i hstate
    obtain ⟨sockfd, hchannel⟩ := hi.shape.connecting hstate
    rw [removeAndResetChannel_eq hchannel, ok_bind] at h
    split at h
    · obtain rfl := Except.ok.inj h
      exact hi.lost hchannel hpoint (.inl rfl)
    · split at h
      · obtain rfl := Except.ok.inj h
        exact hi.lost hchannel hpoint (.inl rfl)
      · split at h
        · -- the socket goes to newConnectionCallback_
          obtain rfl := Except.ok.inj h
          exact hi.ends hchannel hpoint (fun h => by cases h) rfl
            (resets_dropped l.connector sockfd) rfl rfl rfl rfl
        · -- stop() has been called meanwhile
          obtain rfl := Except.ok.inj h
          exact hi.ends hchannel hpoint (fun h => by cases h) rfl
            (resets_dropped l.connector sockfd) rfl rfl hpoint rfl
  · obtain ⟨_, _, h⟩ := bind_eq_ok.mp h
    obtain rfl := Except.ok.inj h
    exact hi

/-- Both callbacks of one event: the second finds no attempt when the first has ended it. -/
theorem Inv.handleEvent {error writable err isSelfConnect : Bool} (hi : Inv l)
    (hpoint : l.connector.point.opening = [])
    (h : l.handleEvent error writable err isSelfConnect = .ok l') : Inv l' := by
  simp only [Ledger.handleEvent] at h
  obtain ⟨l₁, h₁, h⟩ := bind_eq_ok.mp h
  have hfirst : Inv l₁ ∧ l₁.connector.point = l.connector.point := by
    split at h₁
    · exact hi.handleError hpoint h₁
    · obtain rfl := Except.ok.inj h₁
      exact ⟨hi, rfl⟩
  obtain ⟨hi₁, hpoint₁⟩ := hfirst
  split at h
  · exact hi₁.handleWrite (by rw [hpoint₁, hpoint]) h
  · obtain rfl := Except.ok.inj h
    exact hi₁

/-! ### The other steps -/

theorem Shape.congr (h : Shape s) (hstate : t.state = .kConnecting → s.state = .kConnecting)
    (hchannel : t.channel = s.channel) (hresets : t.resets = s.resets)
    (hcalling : .resetChannel ∉ t.calling) : Shape t where
  connecting := by
    rw [hchannel]
    exact fun h' => h.connecting (hstate h')
  unset := by
    rw [hchannel, hresets]
    exact h.unset
  kept := by
    rw [hchannel, hresets]
    exact h.kept
  calling := hcalling

theorem opening_of_userCode (h : inUserCode s) : s.point.opening = [] := by
  rcases h with h | ⟨sockfd, h⟩
  · rw [h]
    rfl
  · rw [h]
    rfl

/-- `startInLoop` opens the next socket, or declines. -/
theorem Inv.startInLoop (hi : Inv l) (hpoint : l.connector.point.opening = [])
    (h : l.connector.startInLoop = .ok s) : Inv { l with connector := s } := by
  obtain ⟨_, _, h⟩ := bind_eq_ok.mp h
  split at h
  · obtain rfl := Except.ok.inj h
    apply hi.opens
    · exact hi.shape.congr (fun h => h) rfl rfl hi.shape.calling
    · simp only [inFlight, hpoint]
      rfl
    · rfl
  · obtain rfl := Except.ok.inj h
    apply hi.keep
    · exact hi.shape.congr (fun h => h) rfl rfl hi.shape.calling
    · simp only [inFlight, hpoint]
      rfl
    · rfl

/-- `sockets::connect` has returned. -/
theorem Inv.connectReturned {savedErrno : Errno} (hi : Inv l)
    (hpoint : l.connector.point = .inConnect sockfd)
    (h : ({ l with connector := { l.connector with point := .idle } } : Ledger).connectReturned
      sockfd savedErrno = .ok l') : Inv l' := by
  have hflight : l.connector.inFlight = sockfd :: owned l.connector.channel := by
    rw [inFlight, hpoint]
    rfl
  -- the socket is not the one of the channel, if there is one
  have hnot : decide (sockfd ∈ owned l.connector.channel) = false := by
    apply decide_eq_false
    have hnodup := (List.nodup_append.mp hi.nodup).2.1
    rw [hflight] at hnodup
    exact (List.nodup_cons.mp hnodup).1
  cases savedErrno with
  | zero | EINPROGRESS | EINTR | EISCONN =>
    obtain ⟨s, hs, h⟩ := bind_eq_ok.mp h
    obtain rfl := Except.ok.inj h
    obtain ⟨_, hnone, hs⟩ := bind_eq_ok.mp hs
    obtain rfl := Except.ok.inj hs
    have hchannel : l.connector.channel = none := of_check_ok hnone
    apply hi.keep
    · constructor
      · exact fun _ => ⟨sockfd, rfl⟩
      · exact fun h => by cases h
      · intro fd channel h
        obtain ⟨-, rfl⟩ := Prod.mk.inj (Option.some.inj h)
        exact .inl ⟨rfl, hi.shape.unset hchannel⟩
      · exact hi.shape.calling
    · rw [hflight, hchannel]
      rfl
    · rfl
  | EAGAIN | EADDRINUSE | EADDRNOTAVAIL | ECONNREFUSED | ENETUNREACH =>
    obtain rfl := Except.ok.inj h
    have hsame := retry_same { l.connector with point := .idle } sockfd
    refine hi.disposes (s := ({ l.connector with point := .idle } : Connector).retry sockfd)
      ?_ ?_ hsame.opened hnot
    · apply hi.shape.congr _ hsame.channel hsame.resets
      · rw [hsame.calling]
        exact hi.shape.calling
      · rw [retry_state]
        exact fun h => by cases h
    · rw [hflight, inFlight, hsame.point, hsame.channel]
      rfl
  | EACCES | EPERM | EAFNOSUPPORT | EALREADY | EBADF | EFAULT | ENOTSOCK | other code =>
    obtain rfl := Except.ok.inj h
    refine hi.disposes (s := ({ l.connector with point := .idle } : Connector).close sockfd)
      ?_ ?_ rfl hnot
    · exact hi.shape.congr (fun h => h) rfl rfl hi.shape.calling
    · exact hflight

/-- `channel_.reset()`: the channel has been dropped before. -/
theorem Inv.resetChannel (hi : Inv l) (hfunctors : l.connector.functors = .resetChannel :: functors)
    (h : ({ l.connector with functors := functors } : Connector).resetChannel = .ok s) :
    Inv { l with connector := s } := by
  have hresets : l.connector.resets = functors.count .resetChannel + 1 := by
    rw [Connector.resets, hfunctors, List.count_cons_self]
  have hnew : ∃ fd, l.connector.channel = some (fd, Channel.new) ∧
      functors.count .resetChannel = 0 := by
    cases hchannel : l.connector.channel with
    | none =>
      have hzero := hi.shape.unset hchannel
      omega
    | some c =>
      obtain ⟨fd, channel⟩ := c
      rcases hi.shape.kept _ _ hchannel with ⟨-, hzero⟩ | ⟨rfl, hone⟩
      · omega
      · exact ⟨fd, rfl, by omega⟩
  obtain ⟨fd, hchannel, hzero⟩ := hnew
  have hs : s = { l.connector with functors := functors, channel := none } := by
    simp only [Connector.resetChannel, hchannel] at h
    obtain ⟨_, _, h⟩ := bind_eq_ok.mp h
    exact (Except.ok.inj h).symm
  subst hs
  apply hi.keep
  · constructor
    · intro h
      obtain ⟨fd', hwriting⟩ := hi.shape.connecting h
      rw [hchannel] at hwriting
      cases hwriting
    · exact fun _ => hzero
    · exact fun _ _ h => by cases h
    · exact hi.shape.calling
  · simp only [inFlight, hchannel]
    rfl
  · rfl

theorem Inv.callFunctor (hi : Inv l) (hpoint : l.connector.point.opening = [])
    (h : l.callFunctor l.connector.functors = .ok l') : Inv l' := by
  cases hfunctors : l.connector.functors with
  | nil =>
    rw [hfunctors] at h
    obtain rfl := Except.ok.inj h
    exact hi
  | cons f functors =>
    rw [hfunctors] at h
    have htail : f ≠ .resetChannel →
        ({ l.connector with functors := functors } : Connector).resets = l.connector.resets := by
      intro hne
      rw [Connector.resets, Connector.resets, hfunctors, List.count_cons_of_ne hne]
    have hpopped : f ≠ .resetChannel →
        Inv { l with connector := { l.connector with functors := functors } } := fun hne =>
      hi.keep (hi.shape.congr (fun h => h) rfl (htail hne) hi.shape.calling) rfl rfl
    cases f with
    | stopInLoop => exact (hpopped (by simp)).stopInLoop hpoint h
    | startInLoop =>
      obtain ⟨s, hs, h⟩ := bind_eq_ok.mp h
      obtain rfl := Except.ok.inj h
      exact (hpopped (by simp)).startInLoop hpoint hs
    | resetChannel =>
      obtain ⟨s, hs, h⟩ := bind_eq_ok.mp h
      obtain rfl := Except.ok.inj h
      exact hi.resetChannel hfunctors hs

/-- The push of `start` or `stop`. -/
theorem Inv.queueInLoop {i : Nat} {f : Functor} (hi : Inv l)
    (hf : l.connector.calling[i]? = some f) :
    Inv { l with connector := { l.connector with
      calling := l.connector.calling.eraseIdx i, functors := l.connector.functors ++ [f] } } := by
  have hne : f ≠ .resetChannel := by
    rintro rfl
    exact hi.shape.calling (List.mem_of_getElem? hf)
  refine hi.keep (hi.shape.congr (fun h => h) rfl ?_ ?_) rfl rfl
  · rw [Connector.resets, List.count_append, List.count_singleton, beq_false_of_ne hne]
    rfl
  · exact fun h => hi.shape.calling (List.mem_of_mem_eraseIdx h)

/-- **The step lemma.** -/
theorem Inv.step (hi : Inv l) (hst : system.Step l act l') : Inv l' := by
  have hen : l.enabled act := hst.1
  have heq : l.step act = .ok l' := hst.2
  cases act with
  | start inLoop =>
    obtain rfl := Except.ok.inj heq
    cases inLoop with
    | true =>
      refine hi.keep (hi.shape.congr (fun h => h) rfl rfl hi.shape.calling) ?_ rfl
      rw [inFlight, inFlight, opening_of_userCode (hen rfl)]
      rfl
    | false =>
      refine hi.keep (hi.shape.congr (fun h => h) rfl rfl ?_) rfl rfl
      simpa [Connector.start] using hi.shape.calling
  | stop =>
    obtain rfl := Except.ok.inj heq
    refine hi.keep (hi.shape.congr (fun h => h) rfl rfl ?_) rfl rfl
    simpa [Connector.stop] using hi.shape.calling
  | queueInLoop i =>
    have hf : l.connector.calling[i]? = some (l.connector.calling.get ⟨i, hen⟩) :=
      List.getElem?_eq_getElem hen
    simp only [Ledger.step, keeping, Connector.step, hf] at heq
    obtain rfl := Except.ok.inj heq
    exact hi.queueInLoop hf
  | startInLoop =>
    obtain ⟨s, hs, heq⟩ := bind_eq_ok.mp heq
    obtain rfl := Except.ok.inj heq
    have hpoint : l.connector.point = .startInLoop := hen
    exact hi.startInLoop (by rw [hpoint]; rfl) hs
  | connectReturned sockfd savedErrno => exact hi.connectReturned hen heq
  | newConnection sockfd =>
    obtain rfl := Except.ok.inj heq
    have hpoint : l.connector.point = .newConnection sockfd := hen
    refine hi.keep (hi.shape.congr (fun h => h) rfl rfl hi.shape.calling) ?_ rfl
    rw [inFlight, inFlight, hpoint]
    rfl
  | callFunctor =>
    have hpoint : l.connector.point = .idle := hen.1
    exact hi.callFunctor (by rw [hpoint]; rfl) heq
  | retryTimer i =>
    obtain ⟨s, hs, heq⟩ := bind_eq_ok.mp heq
    obtain rfl := Except.ok.inj heq
    have hpoint : l.connector.point = .idle := hen.1
    have hbase : Inv { l with connector :=
        { l.connector with timers := l.connector.timers.eraseIdx i } } :=
      hi.keep (hi.shape.congr (fun h => h) rfl rfl hi.shape.calling) rfl rfl
    exact hbase.startInLoop (by rw [hpoint]; rfl) hs
  | handleEvent error writable err isSelfConnect =>
    have hpoint : l.connector.point = .idle := hen.1
    exact hi.handleEvent (by rw [hpoint]; rfl) heq
  | restart =>
    obtain rfl := Except.ok.inj heq
    apply hi.keep
    · exact hi.shape.congr (fun h => by cases h) rfl rfl hi.shape.calling
    · rw [inFlight, inFlight, opening_of_userCode hen]
      rfl
    · rfl

theorem reachable_inv (h : system.Reachable l) : Inv l := by
  apply h.invariant
  · rintro l₀ rfl
    exact new_inv
  · exact fun _ _ _ hi hst => hi.step hst

/-! ### The theorem -/

/-- How often the socket has been disposed of in this way. -/
def times (l : Ledger) (fate : Fate) (sockfd : Nat) : Nat :=
  l.disposals.countP fun d => decide (d.sockfd = sockfd ∧ d.fate = fate)

theorem times_add (disposals : List Disposal) (sockfd : Nat) :
    (disposals.map Disposal.sockfd).count sockfd =
      disposals.countP (fun d => decide (d.sockfd = sockfd ∧ d.fate = .closed)) +
        disposals.countP (fun d => decide (d.sockfd = sockfd ∧ d.fate = .handedOver)) := by
  induction disposals with
  | nil => rfl
  | cons d disposals ih =>
    obtain ⟨fd, fate, registered⟩ := d
    by_cases hfd : fd = sockfd
    · cases fate with
      | closed =>
        simp [ih, hfd]
        omega
      | handedOver =>
        simp [ih, hfd]
        omega
    · simp [ih, hfd]

/-- **Sockets are conserved.**  In every run of a Connector up to its first failing
    assertion, each socket it has opened is in flight, or has been closed once, or has been
    handed over once, and in no two of these; and at the moment of a close or of a
    handover no channel of the socket was registered with the poller. -/
theorem sockets_conserved (h : system.Reachable l) :
    (∀ sockfd < l.connector.opened,
      (sockfd ∈ l.connector.inFlight ∧ l.times .closed sockfd = 0 ∧
          l.times .handedOver sockfd = 0) ∨
        (sockfd ∉ l.connector.inFlight ∧ l.times .closed sockfd = 1 ∧
          l.times .handedOver sockfd = 0) ∨
        (sockfd ∉ l.connector.inFlight ∧ l.times .closed sockfd = 0 ∧
          l.times .handedOver sockfd = 1)) ∧
    ∀ d ∈ l.disposals, d.sockfd < l.connector.opened ∧ d.registered = false := by
  have hi := reachable_inv h
  constructor
  · intro sockfd hlt
    have hone : (List.range l.connector.opened).count sockfd = 1 :=
      List.count_eq_one_of_mem List.nodup_range (List.mem_range.mpr hlt)
    rw [← hi.conserved.count_eq, List.count_append, times_add] at hone
    change l.times .closed sockfd + l.times .handedOver sockfd + _ = 1 at hone
    by_cases hflight : sockfd ∈ l.connector.inFlight
    · have hpos := List.count_pos_iff.mpr hflight
      exact .inl ⟨hflight, by omega, by omega⟩
    · rw [List.count_eq_zero.mpr hflight] at hone
      by_cases hclosed : l.times .closed sockfd = 0
      · exact .inr (.inr ⟨hflight, hclosed, by omega⟩)
      · exact .inr (.inl ⟨hflight, by omega, by omega⟩)
  · intro d hd
    have hmem : d.sockfd ∈ l.disposals.map Disposal.sockfd ++ l.connector.inFlight :=
      List.mem_append_left _ (List.mem_map_of_mem hd)
    exact ⟨List.mem_range.mp (hi.conserved.mem_iff.mp hmem), hi.unregistered d hd⟩

instance (s : Connector) : Decidable (inUserCode s) :=
  match h : s.point with
  | .idle => .isTrue (.inl h)
  | .newConnection sockfd => .isTrue (.inr ⟨sockfd, h⟩)
  | .startInLoop => .isFalse (by simp [inUserCode, h])
  | .inConnect sockfd => .isFalse (by simp [inUserCode, h])

instance (l : Ledger) : (act : Action) → Decidable (system.enabled l act)
  | .start _ => inferInstanceAs (Decidable (_ → _))
  | .restart => inferInstanceAs (Decidable (inUserCode l.connector))
  | .stop => inferInstanceAs (Decidable True)
  | .queueInLoop i => inferInstanceAs (Decidable (i < l.connector.calling.length))
  | .startInLoop => inferInstanceAs (Decidable (l.connector.point = .startInLoop))
  | .connectReturned sockfd _ => inferInstanceAs (Decidable (l.connector.point = .inConnect sockfd))
  | .newConnection sockfd => inferInstanceAs (Decidable (l.connector.point = .newConnection sockfd))
  | .callFunctor => inferInstanceAs (Decidable (_ ∧ _))
  | .retryTimer _ => inferInstanceAs (Decidable (_ ∧ _))
  | .handleEvent _ _ _ _ => inferInstanceAs (Decidable (_ ∧ _))

/-- The first attempt ends with an error and is writable at once, the second succeeds, and a
    `restart` from `newConnectionCallback_` opens a third socket. -/
theorem sockets_conserved_restart :
    ∃ l : Ledger, system.Reachable l ∧ l.connector.opened = 3 ∧ l.times .closed 0 = 1 ∧
      l.times .handedOver 1 = 1 ∧ l.times .closed 1 = 0 ∧ l.connector.inFlight = [2] ∧
      ∀ d ∈ l.disposals, d.sockfd < l.connector.opened ∧ d.registered = false := by
  obtain ⟨l, hexec, hopened, hclosed, hhanded, hnot, hflight⟩ : ∃ l : Ledger, system.exec new
      [.start true, .startInLoop, .connectReturned 0 .EINPROGRESS, .handleEvent true true false false,
       .callFunctor, .retryTimer 0, .connectReturned 1 .zero, .handleEvent false true false false,
       .restart, .startInLoop] = some l ∧ l.connector.opened = 3 ∧ l.times .closed 0 = 1 ∧
        l.times .handedOver 1 = 1 ∧ l.times .closed 1 = 0 ∧ l.connector.inFlight = [2] :=
    ⟨_, rfl, rfl, rfl, rfl, rfl, rfl⟩
  have hreach : system.Reachable l := reachable_of_exec _ rfl hexec
  exact ⟨l, hreach, hopened, hclosed, hhanded, hnot, hflight, (sockets_conserved hreach).2⟩

end Ledger

end Connector

end Kaycc
