/-
  Kaycc/TcpClientOwns.lean
  ========================
  **A `TcpClient` owns at most one connection.**

  While `connection_` is set, the last socket of the Connector has been handed over,
  and only `restart` makes it forget that.  `restart` is called by the connection's
  own `closeCallback_`, after `connection_` has been reset.
-/
import Kaycc.TcpClient

namespace Kaycc

open Transition Transition.System

namespace Connector

variable {s t : Connector} {act : Action}

/-- A socket that has been handed over stays so until `restart`, and no other is handed over
    meanwhile. -/
theorem Inv.handed_of_step (hi : Inv s) (hst : system.Step s act t) (hact : act ≠ .restart)
    (hhanded : s.handed = true) (hpoint : ∀ sockfd, s.point ≠ .newConnection sockfd) :
    t.handed = true ∧ ∀ sockfd, t.point ≠ .newConnection sockfd := by
  have hstate : s.state = .kConnected := hi.handed hhanded
  cases hi.move hst with
  | startOwn => exact ⟨hhanded, fun _ h => by cases h⟩
  | opens _ hdisconnected _ | declines _ hdisconnected _ =>
    exact absurd (hstate.symm.trans hdisconnected) (by simp)
  | connecting hopening _ | refused hopening | failed hopening =>
    exact absurd (hstate.symm.trans (hi.opening _ hopening).1) (by simp)
  | returned hnew => exact absurd hnew (hpoint _)
  | stops _ _ hconnecting _ | loses _ hconnecting _ | hands _ hconnecting _ _
  | abandons _ hconnecting _ _ => exact absurd (hstate.symm.trans hconnecting) (by simp)
  | restart => exact absurd rfl hact
  | startOther | stop | queue | stopsNothing | resets | ignores => exact ⟨hhanded, hpoint⟩

end Connector

namespace TcpClient

variable {s t : TcpClient} {act : Action} {conn : Nat}

structure Inv (s : TcpClient) : Prop where
  connector : s.connector.Inv
  owned : s.connection ≠ none →
    s.connector.handed = true ∧ ∀ sockfd, s.connector.point ≠ .newConnection sockfd
  opened : ∀ conn, s.Open conn → s.connection = some conn

theorem new_inv : Inv new where
  connector := Connector.new_inv
  owned := fun h => absurd rfl h
  opened := by
    rintro conn ⟨hone, hlt, _⟩
    exact absurd hone (by simpa [new] using hlt)

/-- A step of the Connector other than `restart`, the client's own fields being kept. -/
theorem Inv.connectorStep {a : Connector.Action} {c : Connector} (hi : Inv s)
    (hst : Connector.system.Step s.connector a c) (ha : a ≠ .restart) :
    Inv { s with connector := c } where
  connector := hi.connector.step hst
  owned := by
    intro hsome
    rcases hi.owned hsome with ⟨hhanded, hpoint⟩
    exact hi.connector.handed_of_step hst ha hhanded hpoint
  opened := hi.opened

/-- `newConnection` finds no connection. -/
theorem Inv.newConnection_none {sockfd : Nat} (hi : Inv s)
    (hpoint : s.connector.point = .newConnection sockfd) : s.connection = none := by
  cases hconn : s.connection with
  | none => rfl
  | some conn => exact absurd hpoint ((hi.owned (by simp [hconn])).2 sockfd)

theorem Inv.newConnection {sockfd : Nat} {c : Connector} (hi : Inv s)
    (hst : Connector.system.Step s.connector (.newConnection sockfd) c) :
    Inv { s with connector := c }.newConnection := by
  have hpoint : s.connector.point = .newConnection sockfd := hst.1
  have hnone := hi.newConnection_none hpoint
  have hhanded := hi.connector.newConnection sockfd hpoint
  have hc : Connector.Inv c := hi.connector.step hst
  obtain rfl := Except.ok.inj hst.2
  refine ⟨hc, fun _ => ⟨hhanded, fun _ h => by cases h⟩, ?_⟩
  rintro conn ⟨hone, hlt, hclosed⟩
  simp only [TcpClient.newConnection] at hlt hclosed ⊢
  by_cases heq : conn = s.nextConnId
  · rw [heq]
  · -- another one would be in connection_
    have hopen := hi.opened conn ⟨hone, by omega, hclosed⟩
    rw [hnone] at hopen
    cases hopen

/-- The `closeCallback_` of an open connection. -/
theorem removeConnection_eq (h : s.connection = some conn) :
    s.removeConnection conn = .ok { s with
      connection := none
      destroying := s.destroying ++ [conn]
      closed := s.closed ++ [conn]
      connector := if s.retry = true ∧ s.connect = true then s.connector.restart
        else s.connector } := by
  simp only [removeConnection, check_eq_ok h, ok_bind, pure_eq_ok]
  split
  · rfl
  · rfl

theorem Inv.closeCallback (hi : Inv s) (hopen : s.Open conn)
    (hpoint : s.connector.point = .idle) (hst : s.removeConnection conn = .ok t) : Inv t := by
  have hconn := hi.opened conn hopen
  rw [removeConnection_eq hconn] at hst
  obtain rfl := Except.ok.inj hst
  have hhanded := (hi.owned (by simp [hconn])).1
  refine ⟨?_, fun h => absurd rfl h, ?_⟩
  · change Connector.Inv (if s.retry = true ∧ s.connect = true then _ else _)
    split
    · exact hi.connector.of_move (.restart hpoint hhanded)
    · exact hi.connector
  · rintro other ⟨hone, hlt, hclosed⟩
    rw [List.mem_append, List.mem_singleton, not_or] at hclosed
    have hother := hi.opened other ⟨hone, hlt, hclosed.1⟩
    rw [hconn] at hother
    exact absurd (Option.some.inj hother).symm hclosed.2

theorem Inv.step (hi : Inv s) (hst : system.Step s act t) : Inv t := by
  have hen : s.enabled act := hst.1
  have heq : s.step act = .ok t := hst.2
  cases act with
  | connect | stop | disconnect | enableRetry | connectDestroyed =>
    obtain rfl := Except.ok.inj heq
    exact { hi with }
  | connectorStart inLoop =>
    obtain rfl := Except.ok.inj heq
    exact { hi.connectorStep (a := .start inLoop) ⟨hen.2, rfl⟩ (by simp) with }
  | connectorStop =>
    obtain rfl := Except.ok.inj heq
    exact { hi.connectorStep (a := .stop) ⟨trivial, rfl⟩ (by simp) with }
  | closeCallback conn => exact hi.closeCallback hen.2 hen.1 heq
  | connector a =>
    rcases bind_eq_ok.mp heq with ⟨c, hc, heq⟩
    have hstep : Connector.system.Step s.connector a c := ⟨hen.2, hc⟩
    have ha : a ≠ .restart := by
      rintro rfl
      exact absurd hen.1 (by decide)
    cases a with
    | newConnection sockfd =>
      obtain rfl := Except.ok.inj heq
      exact hi.newConnection hstep
    | _ =>
      obtain rfl := Except.ok.inj heq
      exact hi.connectorStep hstep ha

/-- **A TcpClient owns at most one connection.**  In every run, as long as no assertion of
    the Connector fails: `newConnectionCallback_` is invoked only while `connection_` is
    null; while it is not null, the Connector is `kConnected` and has no registered channel
    and no socket; and a connection that invokes its `closeCallback_` is the one in
    `connection_`, so that the assertion of `removeConnection` holds. -/
theorem owns_one (h : system.Reachable s) :
    (∀ sockfd, s.connector.point = .newConnection sockfd → s.connection = none) ∧
      (s.connection ≠ none → s.connector.state = .kConnected ∧
        (∀ sockfd channel, s.connector.channel = some (sockfd, channel) →
          channel.entry = ⟨false, none⟩) ∧ s.connector.sockets = []) ∧
      ∀ conn, system.enabled s (.closeCallback conn) →
        s.connection = some conn ∧ ∃ t, s.step (.closeCallback conn) = .ok t := by
  have hi : Inv s := by
    apply h.invariant
    · rintro s₀ rfl
      exact new_inv
    · exact fun _ _ _ hi hst => hi.step hst
  refine ⟨fun sockfd => hi.newConnection_none, fun hsome => ?_, fun conn hen => ?_⟩
  · rcases hi.owned hsome with ⟨hhanded, hpoint⟩
    have hstate := hi.connector.handed hhanded
    have hrest : s.connector.state ≠ .kConnecting := by simp [hstate]
    refine ⟨hstate, fun sockfd channel hchannel => ?_, hi.connector.closed hrest fun sockfd h => ?_⟩
    · rcases hi.connector.resting hrest with ⟨hnone, -⟩ | ⟨fd, hfd, -⟩
      · rw [hnone] at hchannel
        cases hchannel
      · rw [hfd] at hchannel
        obtain rfl := congrArg Prod.snd (Option.some.inj hchannel)
        rfl
    · exact absurd (hstate.symm.trans (hi.connector.opening sockfd h).1) (by simp)
  · have hconn := hi.opened conn hen.2
    exact ⟨hconn, _, removeConnection_eq hconn⟩

/-- A client with `enableRetry` whose first connection has been closed and second one is
    established. -/
theorem owns_one_retry :
    ∃ s, system.exec new
        [.enableRetry, .connect, .connectorStart true, .connector .startInLoop,
         .connector (.connectReturned 0 .EINPROGRESS),
         .connector (.handleEvent false true false false), .connector (.newConnection 0),
         .connector .callFunctor, .closeCallback 1, .connector .startInLoop,
         .connector (.connectReturned 1 .EINPROGRESS),
         .connector (.handleEvent false true false false), .connector (.newConnection 1)] = some s ∧
      s.connection = some 2 ∧ s.connector.state = .kConnected ∧ s.connector.sockets = [] := by
  refine ⟨_, rfl, rfl, ?_⟩
  have howned := (owns_one (reachable_of_exec (S := system)
    [.enableRetry, .connect, .connectorStart true, .connector .startInLoop,
     .connector (.connectReturned 0 .EINPROGRESS),
     .connector (.handleEvent false true false false), .connector (.newConnection 0),
     .connector .callFunctor, .closeCallback 1, .connector .startInLoop,
     .connector (.connectReturned 1 .EINPROGRESS),
     .connector (.handleEvent false true false false), .connector (.newConnection 1)] rfl rfl)).2.1
  exact ⟨(howned (Option.some_ne_none 2)).1, (howned (Option.some_ne_none 2)).2.2⟩

end TcpClient

end Kaycc
