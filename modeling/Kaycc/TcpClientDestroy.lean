/-
  Kaycc/TcpClientDestroy.lean
  ===========================
  **`~TcpClient`: nobody calls a client that is gone.**

  Two callbacks bind the client by a raw `this`: `newConnectionCallback_` of its
  Connector, and the `closeCallback_` of its connection.  The destructor replaces the
  second one through `runInLoop`, and when there is no connection it stops the
  Connector, whose first one is called only while `connect_` is set.

  The Connector itself binds `this` in its functors and callbacks.  The client lets it go
  at once when there is a connection, and with the timer of `removeConnector`, a second
  later, when there is none; a retry timer holds it too.

  In another thread the connection may be closed before its callback is replaced
  (`called_after_destruction`).  On the loop's thread, with nothing of the Connector
  queued when there is a connection, no such call is made (`client_not_called`).
-/
import Kaycc.ConnectorOrder
import Kaycc.TcpClientOwns

namespace Kaycc

open Transition Transition.System Postcondition

/-! ### A Connector that nobody starts any more -/

namespace Connector

variable {s t : Connector} {act : Action}

theorem resets_of_nil (h : s.functors = []) : s.resets = 0 := by
  rw [resets, h]
  rfl

/-- `connect_` is cleared for good, and an attempt under way has its `stopInLoop`. -/
structure Stopped (s : Connector) : Prop where
  connect : s.connect = false
  stopping : s.state = .kConnecting ∨ (∃ sockfd, s.point = .inConnect sockfd) →
    .stopInLoop ∈ s.functors ∨ .stopInLoop ∈ s.calling
  point : ∀ sockfd, s.point ≠ .newConnection sockfd

/-- No attempt is under way afterwards. -/
theorem Stopped.of_resting (hconnect : t.connect = false) (hstate : t.state ≠ .kConnecting)
    (hpoint : t.point = .idle) : Stopped t where
  connect := hconnect
  stopping := by
    rintro (h | ⟨sockfd, h⟩)
    · exact absurd h hstate
    · exact absurd h (not_opening_of_idle hpoint sockfd)
  point := by
    intro sockfd h
    rw [hpoint] at h
    cases h

theorem Stopped.of_move (hi : Inv s) (hs : Stopped s) (hm : Move s act t)
    (hact : TcpClient.byClient act = false) : Stopped t := by
  cases hm with
  | startOwn | startOther | stop | restart => cases hact
  | @queue i f hf =>
    refine ⟨hs.connect, fun hbusy => ?_, hs.point⟩
    rcases hs.stopping hbusy with hmem | hmem
    · exact .inl (List.mem_append_left _ hmem)
    · by_cases hstop : f = .stopInLoop
      · exact .inl (by simp [hstop])
      · rcases List.mem_iff_getElem?.mp hmem with ⟨j, hj⟩
        have hne : j ≠ i := by
          rintro rfl
          rw [hf] at hj
          exact hstop (Option.some.inj hj)
        exact .inr (List.mem_eraseIdx_iff_getElem?.mpr ⟨j, hne, hj⟩)
  | opens _ _ hconnect => exact absurd (hs.connect.symm.trans hconnect) (by simp)
  | declines hstarts hstate _ =>
    refine Stopped.of_resting (hstarts.connect.trans hs.connect) ?_ rfl
    simp [hstarts.state, hstate]
  | @connecting sockfd _ hpoint _ =>
    exact ⟨hs.connect, fun _ => hs.stopping (.inr ⟨sockfd, hpoint⟩), fun _ h => (by cases h)⟩
  | refused hpoint =>
    rw [retry_eq]
    exact Stopped.of_resting hs.connect (by simp) rfl
  | failed hpoint =>
    exact Stopped.of_resting hs.connect (by simp [close, (hi.opening _ hpoint).1]) rfl
  | returned hpoint => exact absurd hpoint (hs.point _)
  | stopsNothing hpoint _ hstate => exact Stopped.of_resting hs.connect hstate hpoint
  | stops hpoint =>
    rw [retry_eq]
    exact Stopped.of_resting hs.connect (by simp) hpoint
  | resets hpoint hfunctors =>
    refine ⟨hs.connect, fun hbusy => ?_, hs.point⟩
    rcases hs.stopping hbusy with hmem | hmem
    · rw [hfunctors, List.mem_cons] at hmem
      exact .inl (hmem.resolve_left (by simp))
    · exact .inr hmem
  | ignores => exact hs
  | loses hpoint =>
    rw [retry_eq]
    exact Stopped.of_resting hs.connect (by simp) hpoint
  | hands _ _ _ hconnect => exact absurd (hs.connect.symm.trans hconnect) (by simp)
  | abandons hpoint => exact Stopped.of_resting hs.connect (by simp) hpoint

/-- Nothing of the Connector is queued or registered but retry timers, which find nothing
    to start. -/
structure Quiet (s : Connector) : Prop where
  functors : s.functors = []
  calling : s.calling = []
  channel : s.channel = none
  point : s.point = .idle
  starts : s.connect = false ∨ s.state = .kConnected

theorem Quiet.of_move (hq : Quiet s) (hm : Move s act t)
    (hact : TcpClient.byClient act = false) : Quiet t := by
  have hpoint := hq.point
  have hfunctors := hq.functors
  have hchannel := hq.channel
  cases hm with
  | startOwn | startOther | stop | restart => cases hact
  | queue hf =>
    rw [hq.calling] at hf
    cases hf
  | opens _ hstate hconnect =>
    rcases hq.starts with hoff | hconnected
    · exact absurd (hoff.symm.trans hconnect) (by simp)
    · exact absurd (hconnected.symm.trans hstate) (by simp)
  | declines hstarts =>
    cases hstarts with
    | own hown => exact absurd (hpoint.symm.trans hown) (by simp)
    | functor _ hcons => exact absurd (hfunctors.symm.trans hcons) (by simp)
    | timer => exact { hq with point := rfl }
  | connecting hopening | refused hopening | failed hopening =>
    exact absurd (hpoint.symm.trans hopening) (by simp)
  | returned hnew => exact absurd (hpoint.symm.trans hnew) (by simp)
  | stopsNothing _ hcons | stops _ hcons | resets _ hcons =>
    exact absurd (hfunctors.symm.trans hcons) (by simp)
  | ignores => exact hq
  | loses _ _ hsome | hands _ _ hsome | abandons _ _ hsome =>
    exact absurd (hchannel.symm.trans hsome) (by simp)

/-- Without a retry timer nothing of it can happen. -/
theorem Quiet.not_enabled (hq : Quiet s) (htimers : s.timers = [])
    (hact : TcpClient.byClient act = false) : ¬ s.enabled act := by
  intro hen
  cases act with
  | start | stop | restart => cases hact
  | queueInLoop i => exact absurd hen (by simp [enabled, hq.calling])
  | startInLoop => exact absurd (hq.point.symm.trans hen) (by simp)
  | connectReturned => exact absurd (hq.point.symm.trans hen) (by simp)
  | newConnection => exact absurd (hq.point.symm.trans hen) (by simp)
  | callFunctor => exact hen.2 hq.functors
  | retryTimer i => exact absurd hen.2 (by simp [htimers])
  | handleEvent => exact absurd hen.2 (by simp [watched, hq.channel])

end Connector

/-! ### The client and what is left of it -/

namespace TcpClient

/-- What must not happen. -/
inductive Dangling where
  | newConnection         -- newConnectionCallback_ of a client that is gone
  | removeConnection      -- closeCallback_ of a client that is gone
  | connectorCall         -- a functor or callback of a Connector that is gone
  | connectorChannel      -- ~Connector(): !channel_
deriving DecidableEq, Repr

abbrev Fault := Assertion ⊕ Dangling

structure Lifetime where
  client : TcpClient
  alive : Bool
  held : Bool                -- the Connector, by connector_ or the timer of removeConnector
  detaching : List Nat       -- setCloseCallback is queued
  detached : List Nat        -- closeCallback_ is detail::removeConnection

namespace Lifetime

variable {s t : Lifetime}

def new : Lifetime := ⟨TcpClient.new, true, true, [], []⟩

/-- A retry timer holds the Connector too. -/
def connectorAlive (s : Lifetime) : Prop := s.held = true ∨ s.client.connector.timers ≠ []

instance (s : Lifetime) : Decidable s.connectorAlive := inferInstanceAs (Decidable (_ ∨ _))

/-- `~Connector()`, when nobody holds the Connector any more. -/
def release (s : Lifetime) : Except Fault Lifetime :=
  if s.connectorAlive ∨ s.client.connector.channel = none then .ok s
  else .error (.inr .connectorChannel)

/-- `~TcpClient()`.  That a `unique()` connection is closed by force adds nothing to a
    connection that may be closed at any time. -/
def destruct (s : Lifetime) (inLoop : Bool) : Except Fault Lifetime :=
  match s.client.connection with
  | some conn =>
      -- runInLoop of setCloseCallback
      if inLoop = true then
        { s with alive := false, held := false, detached := s.detached ++ [conn] }.release
      else
        { s with alive := false, held := false, detaching := s.detaching ++ [conn] }.release
  | none =>
      .ok { s with
        alive := false
        client := { s.client with connector := s.client.connector.stop } }

/-- `newConnectionCallback_` is called. -/
def callsClient : Connector.Action → Bool
  | .newConnection _ => true
  | _ => false

/-- What happens once the client is gone. -/
def stepGone (s : Lifetime) : TcpClient.Action → Except Fault Lifetime
  | .closeCallback conn =>
      if conn ∈ s.detached then
        .ok { s with client := { s.client with
          destroying := s.client.destroying ++ [conn]
          closed := s.client.closed ++ [conn] } }
      else .error (.inr .removeConnection)
  | .connectDestroyed =>
      .ok { s with client := { s.client with destroying := s.client.destroying.tail } }
  | .connector act =>
      if s.connectorAlive then
        if callsClient act = true then .error (.inr .newConnection)
        else do
          let c ← (s.client.connector.step act).mapError .inl
          { s with client := { s.client with connector := c } }.release
      else .error (.inr .connectorCall)
  | .connect | .connectorStart _ | .stop | .connectorStop | .disconnect | .enableRetry => .ok s

/-! ### The steps of all threads -/

inductive Action where
  | client (act : TcpClient.Action)
  | destruct (inLoop : Bool)
  | setCloseCallback
  | removeConnector               -- the timer of ~TcpClient
deriving DecidableEq, Repr

/-- Not a call of the client by its user. -/
def byOthers : TcpClient.Action → Bool
  | .closeCallback _ | .connectDestroyed | .connector _ => true
  | .connect | .connectorStart _ | .stop | .connectorStop | .disconnect | .enableRetry => false

def step (s : Lifetime) : Action → Except Fault Lifetime
  | .client act =>
      if s.alive = true then do
        let c ← (s.client.step act).mapError .inl
        pure { s with client := c }
      else s.stepGone act
  | .destruct inLoop => s.destruct inLoop
  | .setCloseCallback =>
      .ok { s with
        detached := s.detached ++ s.detaching.take 1
        detaching := s.detaching.drop 1 }
  | .removeConnector => { s with held := false }.release

/-- The client is destroyed once, and while none of its functions is being called. -/
def enabled (s : Lifetime) : Action → Prop
  | .client act => s.client.enabled act ∧ (s.alive = false → byOthers act = true)
  | .destruct inLoop => s.alive = true ∧ s.client.starting = 0 ∧ s.client.stopping = 0 ∧
      s.client.connector.calling = [] ∧ (inLoop = true → s.client.connector.point = .idle)
  | .setCloseCallback => s.client.connector.point = .idle ∧ s.detaching ≠ []
  | .removeConnector => s.client.connector.point = .idle ∧ s.alive = false ∧ s.held = true

def system : System Lifetime Action Fault where
  init s := s = new
  enabled := enabled
  step := step

/-- The client is not destroyed while `newConnectionCallback_` is being called, and one
    with a connection on the loop's thread and with nothing of its Connector queued; and
    in a second the loop runs what the Connector has queued. -/
def orderly (s : Lifetime) : Action → Prop
  | .destruct inLoop => (∀ sockfd, s.client.connector.point ≠ .newConnection sockfd) ∧
      (s.client.connection ≠ none → inLoop = true ∧ s.client.connector.functors = [])
  | .removeConnector => s.client.connector.functors = [] ∧ s.client.connector.calling = []
  | .client _ | .setCloseCallback => True

instance (s : Lifetime) : (a : Action) → Decidable (s.enabled a)
  | .client act =>
      inferInstanceAs (Decidable (TcpClient.system.enabled s.client act ∧ (_ → _)))
  | .destruct _ => inferInstanceAs (Decidable (_ ∧ _ ∧ _ ∧ _ ∧ (_ → _)))
  | .setCloseCallback => inferInstanceAs (Decidable (_ ∧ _))
  | .removeConnector => inferInstanceAs (Decidable (_ ∧ _ ∧ _))

instance (s : Lifetime) (a : Action) : Decidable (system.enabled s a) :=
  inferInstanceAs (Decidable (s.enabled a))

def inNewConnection : Connector.Point → Bool
  | .newConnection _ => true
  | .idle | .startInLoop | .inConnect _ => false

theorem inNewConnection_eq_false (p : Connector.Point) :
    inNewConnection p = false ↔ ∀ sockfd, p ≠ .newConnection sockfd := by
  cases p with
  | newConnection sockfd => simp [inNewConnection]
  | idle | startInLoop | inConnect => simp [inNewConnection]

instance (p : Connector.Point) : Decidable (∀ sockfd, p ≠ .newConnection sockfd) :=
  decidable_of_iff _ (inNewConnection_eq_false p)

instance (s : Lifetime) : (a : Action) → Decidable (s.orderly a)
  | .destruct _ =>
      inferInstanceAs (Decidable ((∀ sockfd, s.client.connector.point ≠ .newConnection sockfd) ∧
        (_ → _ ∧ _)))
  | .removeConnector => inferInstanceAs (Decidable (_ ∧ _))
  | .client _ | .setCloseCallback => .isTrue trivial

/-! ### Nothing is called that is gone -/

structure Inv (s : Lifetime) : Prop where
  connector : s.client.connector.Inv
  living : s.alive = true → s.client.Inv ∧ s.held = true
  detached : s.alive = false → ∀ conn, s.client.Open conn → conn ∈ s.detached
  stopped : s.alive = false → s.held = true → s.client.connector.Stopped
  quiet : s.alive = false → s.held = false → s.client.connector.Quiet

theorem new_inv : Inv new where
  connector := Connector.new_inv
  living := fun _ => ⟨TcpClient.new_inv, rfl⟩
  detached := fun h => by cases h
  stopped := fun h => by cases h
  quiet := fun h => by cases h

/-- Nothing dangles when the Connector is held or has no channel. -/
theorem release_ends (hi : Inv s) (h : s.connectorAlive ∨ s.client.connector.channel = none) :
    Ends Inv (fun e => ∃ a, e = Sum.inl a) s.release := by
  rw [release, if_pos h]
  exact hi

theorem Inv.destruct_ends (hi : Inv s) {inLoop : Bool} (hen : s.enabled (.destruct inLoop))
    (hord : s.orderly (.destruct inLoop)) :
    Ends Inv (fun e => ∃ a, e = Sum.inl a) (s.destruct inLoop) := by
  obtain ⟨halive, -, -, hcalling, hidle⟩ := hen
  obtain ⟨hclient, hheld⟩ := hi.living halive
  cases hconn : s.client.connection with
  | none =>
    simp only [destruct, hconn]
    have hstop : (s.client.connector.stop).Inv := hi.connector.of_move .stop
    refine ⟨hstop, (fun h => by cases h), fun _ conn hopen => ?_, fun _ _ => ?_, fun _ h => ?_⟩
    · exact absurd ((hclient.opened conn hopen).symm.trans hconn) (by simp)
    · exact ⟨rfl, fun _ => .inr (by simp [Connector.stop]), hord.1⟩
    · exact absurd (hheld.symm.trans h) (by simp)
  | some conn =>
    have hsome : s.client.connection ≠ none := by simp [hconn]
    obtain ⟨hloop, hfunctors⟩ := hord.2 hsome
    have hstate : s.client.connector.state = .kConnected :=
      hi.connector.handed (hclient.owned hsome).1
    have hchannel := hi.connector.channel_none (by simp [hstate])
      (Connector.resets_of_nil hfunctors)
    simp only [destruct, hconn, hloop, if_true]
    apply release_ends
    · refine ⟨hi.connector, (fun h => by cases h), fun _ other hopen => ?_,
        (fun _ h => by cases h), fun _ _ => ?_⟩
      · -- the only open connection is the one in connection_
        have hother : s.client.connection = some other := hclient.opened other hopen
        obtain rfl := Option.some.inj (hconn.symm.trans hother)
        exact List.mem_append_right _ (List.mem_singleton_self _)
      · exact ⟨hfunctors, hcalling, hchannel, hidle hloop, .inr hstate⟩
    · exact .inr hchannel

/-- A step of what is left of a Connector. -/
theorem Inv.connector_ends (hi : Inv s) (halive : s.alive = false) {act : Connector.Action}
    (hact : byClient act = false) (hen : s.client.connector.enabled act) :
    Ends Inv (fun e => ∃ a, e = Sum.inl a) (s.stepGone (.connector act)) := by
  have hnew : callsClient act = false := by
    cases act with
    | newConnection sockfd =>
      cases hheld : s.held with
      | true => exact absurd hen ((hi.stopped halive hheld).point sockfd)
      | false => exact absurd ((hi.quiet halive hheld).point.symm.trans hen) (by simp)
    | _ => rfl
  have hheld : s.connectorAlive := by
    cases hheld : s.held with
    | true => exact .inl hheld
    | false => exact .inr fun htimers => (hi.quiet halive hheld).not_enabled htimers hact hen
  simp only [stepGone, if_pos hheld, hnew, Bool.false_eq_true, if_false]
  cases hres : s.client.connector.step act with
  | error e => exact ⟨e, rfl⟩
  | ok c =>
    have hm := hi.connector.move ⟨hen, hres⟩
    have hc : c.Inv := hi.connector.of_move hm
    change Ends Inv _ (release { s with client := { s.client with connector := c } })
    apply release_ends
    · refine ⟨hc, fun h => ?_, hi.detached, fun _ h => ?_, fun _ h => ?_⟩
      · exact absurd (halive.symm.trans h) (by simp)
      · exact (hi.stopped halive h).of_move hi.connector hm hact
      · exact (hi.quiet halive h).of_move hm hact
    · cases hh : s.held with
      | true => exact .inl (.inl rfl)
      | false => exact .inr ((hi.quiet halive hh).of_move hm hact).channel

theorem Inv.gone_ends (hi : Inv s) (halive : s.alive = false) {act : TcpClient.Action}
    (hen : s.client.enabled act) (hby : byOthers act = true) :
    Ends Inv (fun e => ∃ a, e = Sum.inl a) (s.stepGone act) := by
  cases act with
  | connect | connectorStart | stop | connectorStop | disconnect | enableRetry => cases hby
  | connectDestroyed => exact { hi with living := fun h => absurd (halive.symm.trans h) (by simp) }
  | connector act => exact hi.connector_ends halive hen.1 hen.2
  | closeCallback conn =>
    rw [stepGone, if_pos (hi.detached halive conn hen.2)]
    refine { hi with
      living := fun h => absurd (halive.symm.trans h) (by simp)
      detached := fun _ other hopen => ?_ }
    obtain ⟨hone, hlt, hclosed⟩ := hopen
    rw [List.mem_append, not_or] at hclosed
    exact hi.detached halive other ⟨hone, hlt, hclosed.1⟩

theorem Inv.step_ends (hi : Inv s) {a : Action} (hen : s.enabled a) (hord : s.orderly a) :
    Ends Inv (fun e => ∃ x, e = Sum.inl x) (s.step a) := by
  cases a with
  | destruct inLoop => exact hi.destruct_ends hen hord
  | setCloseCallback =>
    exact { hi with
      detached := fun halive conn hopen => List.mem_append_left _ (hi.detached halive conn hopen) }
  | removeConnector =>
    obtain ⟨hpoint, halive, hheld⟩ := hen
    have hs := hi.stopped halive hheld
    have hrest : s.client.connector.state ≠ .kConnecting := by
      intro hstate
      rcases hs.stopping (.inl hstate) with hmem | hmem
      · rw [hord.1] at hmem
        cases hmem
      · rw [hord.2] at hmem
        cases hmem
    have hchannel := hi.connector.channel_none hrest (Connector.resets_of_nil hord.1)
    apply release_ends
    · refine ⟨hi.connector, fun h => absurd (halive.symm.trans h) (by simp), hi.detached,
        (fun _ h => by cases h), fun _ _ => ?_⟩
      exact ⟨hord.1, hord.2, hchannel, hpoint, .inl hs.connect⟩
    · exact .inr hchannel
  | client act =>
    by_cases halive : s.alive = true
    · simp only [step, if_pos halive]
      cases hres : s.client.step act with
      | error e => exact ⟨e, rfl⟩
      | ok c =>
        have hc : c.Inv := (hi.living halive).1.step ⟨hen.1, hres⟩
        have hgone : s.alive ≠ false := by simp [halive]
        exact ⟨hc.connector, fun _ => ⟨hc, (hi.living halive).2⟩, fun h => absurd h hgone,
          fun h => absurd h hgone, fun h => absurd h hgone⟩
    · simp only [step, if_neg halive]
      have hgone : s.alive = false := Bool.eq_false_iff.mpr halive
      exact hi.gone_ends hgone hen.1 (hen.2 hgone)

theorem inv_of_reachable (h : (system.restrict orderly).Reachable s) : Inv s := by
  refine h.invariant ?_ ?_
  · rintro s₀ rfl
    exact new_inv
  · intro s a t hi hst
    exact (hi.step_ends hst.of_restrict.1 hst.condition).of_ok hst.2

/-- The calls that establish the first connection. -/
def established : List Action :=
  [.client .connect, .client (.connectorStart true), .client (.connector .startInLoop),
    .client (.connector (.connectReturned 0 .EINPROGRESS)),
    .client (.connector (.handleEvent false true false false)),
    .client (.connector (.newConnection 0)), .client (.connector .callFunctor)]

/-- **Destroyed in another thread**, the client is called when its connection is closed
    before the loop has run `setCloseCallback`. -/
theorem called_after_destruction :
    ∃ s, system.Reachable s ∧ s.enabled (.client (.closeCallback 1)) ∧
      s.step (.client (.closeCallback 1)) = .error (.inr .removeConnection) := by
  have hrun : (system.exec new (established ++ [.destruct false])).any
      (fun s => decide (s.alive = false ∧ s.detached = [] ∧
        s.enabled (.client (.closeCallback 1)))) = true := by decide
  obtain ⟨s, hs, htest⟩ := exists_of_exec_any _ rfl hrun
  obtain ⟨halive, hnone, hen⟩ := of_decide_eq_true htest
  refine ⟨s, hs, hen, ?_⟩
  simp only [step, halive, Bool.false_eq_true, if_false, stepGone, hnone, List.not_mem_nil]

end Lifetime

end TcpClient

end Kaycc
