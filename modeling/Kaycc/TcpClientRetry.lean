/-
  Kaycc/TcpClientRetry.lean
  =========================
  **`enableRetry`: a `TcpClient` does not give up.**

  An attempt to connect goes from hand to hand: a functor or a retry timer calls
  `startInLoop`, the socket connects, its channel is writable, `newConnectionCallback_`
  is called; a failure puts it back into a timer, the closing of the connection into
  `restart`.  While both `connect_` are set it is never dropped (`UnderWay.of_move`),
  unless `sockets::connect` fails with an error that `connect()` does not retry
  (`gives_up`).

  As long as `state_` is `kDisconnected` or `kConnecting` it can be taken a step
  further.  `Connector::start` does not ask, though: called while the last connection
  is still the Connector's, it leads to an assertion of `startInLoop` (`start_fails`).

  A run of the client is a run of its Connector (`connector_reachable`), whose timers
  have the delays of `Kaycc.ConnectorBackoff`.
-/
import Kaycc.ConnectorBackoff
import Kaycc.ConnectorOrder
import Kaycc.TcpClientOwns

namespace Kaycc

open Transition Transition.System

namespace Connector

variable {s t : Connector} {act : Action} {sockfd : Nat} {savedErrno : Errno}

/-- The socket is closed and nothing else done. -/
def Errno.isFatal : Errno → Bool
  | .zero | .EINPROGRESS | .EINTR | .EISCONN => false
  | .EAGAIN | .EADDRINUSE | .EADDRNOTAVAIL | .ECONNREFUSED | .ENETUNREACH => false
  | .EACCES | .EPERM | .EAFNOSUPPORT | .EALREADY | .EBADF | .EFAULT | .ENOTSOCK
  | .other _ => true

/-- Where an attempt to connect may be. -/
inductive UnderWay (s : Connector) : Prop where
  | calling (h : .startInLoop ∈ s.calling)
  | functor (h : .startInLoop ∈ s.functors)
  | timer (h : s.timers ≠ [])
  | starting (h : s.point = .startInLoop)
  | opening {sockfd : Nat} (h : s.point = .inConnect sockfd)
  | connecting (h : s.state = .kConnecting)
  | connected {sockfd : Nat} (h : s.point = .newConnection sockfd)

theorem UnderWay.start (s : Connector) (inLoop : Bool) : UnderWay (s.start inLoop) := by
  cases inLoop with
  | true => exact .starting rfl
  | false => exact .calling (List.mem_append_right _ List.mem_cons_self)

/-- A failure is retried while `connect_` is set. -/
theorem UnderWay.retry (hconnect : s.connect = true) : UnderWay (s.retry sockfd) := by
  refine .timer ?_
  rw [retry_eq]
  simp [hconnect]

theorem UnderWay.connectReturned (hconnect : s.connect = true) (he : savedErrno.isFatal = false)
    (hst : { s with point := .idle }.connectReturned sockfd savedErrno = .ok t) : UnderWay t := by
  cases savedErrno with
  | zero | EINPROGRESS | EINTR | EISCONN =>
    obtain ⟨_, -, hst⟩ := bind_eq_ok.mp hst
    obtain rfl := Except.ok.inj hst
    exact .connecting rfl
  | EAGAIN | EADDRINUSE | EADDRNOTAVAIL | ECONNREFUSED | ENETUNREACH =>
    obtain rfl := Except.ok.inj hst
    exact .retry hconnect
  | EACCES | EPERM | EAFNOSUPPORT | EALREADY | EBADF | EFAULT | ENOTSOCK | other _ => cases he

/-- The loop has called a functor that is not `startInLoop`. -/
theorem UnderWay.tail {f : Functor} {functors : List Functor} (hu : UnderWay s)
    (hfunctors : s.functors = f :: functors) (hf : f ≠ .startInLoop)
    (ht : t.functors = functors) (hcalling : t.calling = s.calling) (htimers : t.timers = s.timers)
    (hpoint : t.point = s.point) (hstate : t.state = s.state) : UnderWay t := by
  cases hu with
  | calling h => exact .calling (hcalling ▸ h)
  | functor h =>
    rw [hfunctors, List.mem_cons] at h
    exact .functor (ht ▸ h.resolve_left (Ne.symm hf))
  | timer h => exact .timer (htimers ▸ h)
  | starting h => exact .starting (hpoint.trans h)
  | opening h => exact .opening (hpoint.trans h)
  | connecting h => exact .connecting (hstate.trans h)
  | connected h => exact .connected (hpoint.trans h)

/-- **An attempt is not dropped** while `connect_` is set; it ends in
    `newConnectionCallback_`. -/
theorem UnderWay.of_move (hu : UnderWay s) (hm : Move s act t) (hconnect : s.connect = true)
    (hact : TcpClient.byClient act = false)
    (hreturned : ∀ sockfd e, act ≠ .connectReturned sockfd e)
    (hnew : ∀ sockfd, act ≠ .newConnection sockfd) : UnderWay t := by
  cases hm with
  | startOwn | startOther | stop | restart => cases hact
  | @queue i f hf =>
    cases hu with
    | calling h =>
      by_cases hfirst : f = .startInLoop
      · exact .functor (by simp [hfirst])
      · obtain ⟨j, hj⟩ := List.mem_iff_getElem?.mp h
        have hne : j ≠ i := by
          rintro rfl
          rw [hf] at hj
          exact hfirst (Option.some.inj hj)
        exact .calling (List.mem_eraseIdx_iff_getElem?.mpr ⟨j, hne, hj⟩)
    | functor h => exact .functor (List.mem_append_left _ h)
    | timer h => exact .timer h
    | starting h => exact .starting h
    | opening h => exact .opening h
    | connecting h => exact .connecting h
    | connected h => exact .connected h
  | opens hstarts => exact .opening rfl
  | declines _ _ hoff => exact absurd (hconnect.symm.trans hoff) (by simp)
  | connecting | refused | failed => exact absurd rfl (hreturned _ _)
  | returned => exact absurd rfl (hnew _)
  | stopsNothing _ hfunctors => exact hu.tail hfunctors (by simp) rfl rfl rfl rfl rfl
  | resets _ hfunctors => exact hu.tail hfunctors (by simp) rfl rfl rfl rfl rfl
  | stops => exact .retry hconnect
  | loses => exact .retry hconnect
  | ignores => exact hu
  | hands => exact .connected rfl
  | abandons _ _ _ hoff => exact absurd (hconnect.symm.trans hoff) (by simp)

/-- Only `start`, `stop` and `restart` write `connect_`. -/
theorem Move.connect_eq (hm : Move s act t) (hact : TcpClient.byClient act = false) :
    t.connect = s.connect := by
  cases hm with
  | startOwn | startOther | stop | restart => cases hact
  | opens hstarts | declines hstarts => exact hstarts.connect
  | refused | stops | loses => rw [retry_eq]; rfl
  | queue | connecting | failed | returned | stopsNothing | resets | ignores | hands
  | abandons => rfl

/-! ### The next step -/

theorem startInLoop_fails (hstate : s.state ≠ .kDisconnected) :
    s.startInLoop = .error .connectorDisconnected := by
  rw [startInLoop, check, if_neg hstate]
  rfl

theorem startInLoop_cases (s : Connector) : (∃ t, s.startInLoop = .ok t) ∨
    s.state ≠ .kDisconnected ∧ s.startInLoop = .error .connectorDisconnected := by
  by_cases hstate : s.state = .kDisconnected
  · exact .inl (startInLoop_ok hstate)
  · exact .inr ⟨hstate, startInLoop_fails hstate⟩

/-- The loop calls a functor: only a `startInLoop` can fail. -/
theorem Inv.callFunctor_cases (hi : Inv s) (hfunctors : s.functors ≠ []) :
    (∃ t, s.step .callFunctor = .ok t) ∨
      s.state ≠ .kDisconnected ∧ s.step .callFunctor = .error .connectorDisconnected := by
  cases heq : s.functors with
  | nil => exact absurd heq hfunctors
  | cons f functors =>
    simp only [Connector.step, heq]
    cases f with
    | startInLoop => exact startInLoop_cases { s with functors := functors }
    | stopInLoop => exact .inl (hi.stopInLoop_ok functors)
    | resetChannel =>
      refine .inl (hi.resetChannel_ok ?_ functors)
      rw [Connector.resets, heq, List.count_cons_self]
      exact Nat.succ_pos _

/-- `sockets::connect` does not fail, or with an error that is retried. -/
def notFatal : Action → Prop
  | .connectReturned _ savedErrno => savedErrno.isFatal = false
  | _ => True

/-- **The loop or a thread in `start()` or `stop()` goes on**, or a `startInLoop` fails. -/
theorem UnderWay.next (hu : UnderWay s) (hi : Inv s) :
    ∃ act, notFatal act ∧ TcpClient.byClient act = false ∧ s.enabled act ∧
      ((∃ t, s.step act = .ok t) ∨
        s.state ≠ .kDisconnected ∧ s.step act = .error .connectorDisconnected) := by
  cases hpoint : s.point with
  | startInLoop => exact ⟨.startInLoop, trivial, rfl, hpoint, startInLoop_cases s⟩
  | inConnect sockfd =>
    exact ⟨.connectReturned sockfd .ECONNREFUSED, rfl, rfl, hpoint, .inl ⟨_, rfl⟩⟩
  | newConnection sockfd => exact ⟨.newConnection sockfd, trivial, rfl, hpoint, .inl ⟨_, rfl⟩⟩
  | idle =>
    cases hu with
    | calling h =>
      refine ⟨.queueInLoop 0, trivial, rfl, List.length_pos_of_mem h, .inl ?_⟩
      simp only [Connector.step]
      split
      · exact ⟨_, rfl⟩
      · exact ⟨_, rfl⟩
    | functor h =>
      have hfunctors := List.ne_nil_of_mem h
      exact ⟨.callFunctor, trivial, rfl, ⟨hpoint, hfunctors⟩, hi.callFunctor_cases hfunctors⟩
    | timer h =>
      exact ⟨.retryTimer 0, trivial, rfl, ⟨hpoint, List.length_pos_iff.mpr h⟩,
        startInLoop_cases { s with timers := s.timers.eraseIdx 0 }⟩
    | starting h | opening h | connected h => exact absurd (hpoint.symm.trans h) (by simp)
    | connecting h =>
      obtain ⟨sockfd, hchannel, -, -⟩ := hi.connecting h
      have hwatched : s.watched = true := by
        rw [watched, hchannel]
        rfl
      exact ⟨.handleEvent false true false false, trivial, rfl, ⟨hpoint, hwatched⟩,
        .inl (hi.handleEvent_ok hwatched _ _ _ _)⟩

end Connector

namespace TcpClient

variable {s t : TcpClient} {act : Action}

/-! ### The Connector of a client -/

/-- The kernel's errors are those that are retried, and `enableRetry` has been called
    before a connection is closed. -/
def persistent (s : TcpClient) : Action → Prop
  | .connector (.connectReturned _ savedErrno) => savedErrno.isFatal = false
  | .closeCallback _ => s.retry = true
  | _ => True

instance (s : TcpClient) : (act : Action) → Decidable (s.persistent act)
  | .connector (.connectReturned _ _) => inferInstanceAs (Decidable (_ = false))
  | .closeCallback _ => inferInstanceAs (Decidable (_ = true))
  | .connect | .connectorStart _ | .stop | .connectorStop | .disconnect | .enableRetry
  | .connectDestroyed | .connector (.start _) | .connector .stop | .connector (.queueInLoop _)
  | .connector .startInLoop | .connector (.newConnection _) | .connector .callFunctor
  | .connector (.retryTimer _) | .connector (.handleEvent _ _ _ _) | .connector .restart =>
    .isTrue trivial

structure PersistInv (s : TcpClient) : Prop where
  client : Inv s
  wanted : s.connect = true → s.connector.connect = true →
    s.connection ≠ none ∨ 0 < s.starting ∨ s.connector.UnderWay

theorem PersistInv.step (hp : PersistInv s) (hst : system.Step s act t)
    (hcond : s.persistent act) : PersistInv t := by
  refine ⟨hp.client.step hst, fun hconnect hconnector => ?_⟩
  have hen : s.enabled act := hst.1
  have heq : s.step act = .ok t := hst.2
  cases act with
  | connect =>
    obtain rfl := Except.ok.inj heq
    exact .inr (.inl (Nat.succ_pos _))
  | connectorStart inLoop =>
    obtain rfl := Except.ok.inj heq
    exact .inr (.inr (.start _ inLoop))
  | stop | disconnect =>
    obtain rfl := Except.ok.inj heq
    cases hconnect
  | connectorStop =>
    obtain rfl := Except.ok.inj heq
    cases hconnector
  | enableRetry | connectDestroyed =>
    obtain rfl := Except.ok.inj heq
    exact hp.wanted hconnect hconnector
  | closeCallback conn =>
    have heq := (removeConnection_eq (hp.client.opened conn hen.2)).symm.trans heq
    obtain rfl := Except.ok.inj heq
    have hrestart : s.retry = true ∧ s.connect = true := ⟨hcond, hconnect⟩
    refine .inr (.inr ?_)
    simp only [if_pos hrestart]
    exact .starting rfl
  | connector a =>
    obtain ⟨c, hc, hok⟩ := bind_eq_ok.mp heq
    have hmove := hp.client.connector.move ⟨hen.2, hc⟩
    cases a with
    | newConnection sockfd =>
      obtain rfl := Except.ok.inj hok
      exact .inl (Option.some_ne_none _)
    | connectReturned sockfd savedErrno =>
      obtain rfl := Except.ok.inj hok
      have hsame : c.connect = s.connector.connect := hmove.connect_eq hen.1
      exact .inr (.inr (.connectReturned (hsame.symm.trans hconnector) hcond hc))
    | _ =>
      obtain rfl := Except.ok.inj hok
      have hsame : c.connect = s.connector.connect := hmove.connect_eq hen.1
      have hon := hsame.symm.trans hconnector
      refine (hp.wanted hconnect hon).imp_right (Or.imp_right fun hu => ?_)
      exact hu.of_move hmove hon hen.1 (by simp) (by simp)

/-- **`start` without a look at `state_`.**  The connection has been closed after a
    `disconnect()`, so nothing has restarted the Connector; `connect()` then leaves nothing to
    do but a `startInLoop` whose assertion fails. -/
theorem start_fails :
    ∃ s, (system.restrict persistent).Reachable s ∧ s.connect = true ∧
      s.connector.connect = true ∧ s.connection = none ∧ s.starting = 0 ∧
      s.connector.state = .kConnected ∧ ∀ act, byClient act = false → s.connector.enabled act →
        s.connector.step act = .error .connectorDisconnected := by
  have hrun : ((system.restrict persistent).exec new
      [.enableRetry, .connect, .connectorStart true, .connector .startInLoop,
        .connector (.connectReturned 0 .EINPROGRESS),
        .connector (.handleEvent false true false false), .connector (.newConnection 0),
        .connector .callFunctor, .disconnect, .closeCallback 1, .connect,
        .connectorStart true]).any
      (fun s => decide (s.connect = true ∧ s.connector.connect = true ∧ s.connection = none ∧
        s.starting = 0 ∧ s.connector.state = .kConnected ∧ s.connector.point = .startInLoop ∧
        s.connector.calling = [])) = true := by decide
  obtain ⟨s, hs, htest⟩ := exists_of_exec_any _ rfl hrun
  obtain ⟨hconnect, hconnector, hnone, hstarting, hstate, hpoint, hcalling⟩ :=
    of_decide_eq_true htest
  refine ⟨s, hs, hconnect, hconnector, hnone, hstarting, hstate, fun act hact hen => ?_⟩
  cases act with
  | start | stop | restart => cases hact
  | queueInLoop i =>
    have hlt : i < s.connector.calling.length := hen
    rw [hcalling] at hlt
    exact absurd hlt (Nat.not_lt_zero i)
  | startInLoop => exact Connector.startInLoop_fails (by simp [hstate])
  | connectReturned | newConnection => exact absurd (hpoint.symm.trans hen) (by simp)
  | callFunctor | retryTimer | handleEvent => exact absurd (hpoint.symm.trans hen.1) (by simp)

/-- **A fatal error of `sockets::connect` ends the attempts**, with `connect_` still set. -/
theorem gives_up :
    ∃ s, system.Reachable s ∧ s.retry = true ∧ s.connect = true ∧ s.connector.connect = true ∧
      s.connection = none ∧ s.starting = 0 ∧ ¬ s.connector.UnderWay := by
  have hrun : (system.exec new
      [.enableRetry, .connect, .connectorStart true, .connector .startInLoop,
        .connector (.connectReturned 0 .EACCES)]).any
      (fun s => decide (s.retry = true ∧ s.connect = true ∧ s.connection = none ∧
        s.starting = 0 ∧ s.connector = { Connector.new with connect := true, opened := 1 })) =
      true := by decide
  obtain ⟨s, hs, htest⟩ := exists_of_exec_any _ rfl hrun
  obtain ⟨hretry, hconnect, hnone, hstarting, hconnector⟩ := of_decide_eq_true htest
  refine ⟨s, hs, hretry, hconnect, by rw [hconnector], hnone, hstarting, fun hu => ?_⟩
  rw [hconnector] at hu
  cases hu with
  | calling h | functor h => cases h
  | timer h => exact h rfl
  | starting h | opening h | connecting h | connected h => cases h

end TcpClient

end Kaycc
