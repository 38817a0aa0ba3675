/-
  Kaycc/ReactorInvariant.lean
  ===========================
  **The invariant of a loop with its objects.**

  `Inv` says that each object is sound, that the current channel is not called again,
  and that every channel still to be called is in the poller.  `Follows` relates two
  states of one point of the loop: the channels registered before are registered
  after, but for the current one.  The steps of the objects are proved once, for any
  `place` that says `waiting` of no channel that is current, and of no channel while
  no events are handled.
-/
import Kaycc.ConnectorChannel
import Kaycc.Reactor
import Kaycc.TcpConnectionChannel

namespace Kaycc

open Transition Transition.System Postcondition
open TcpConnection (Point)

/-! ### A connection -/

namespace TcpConnection

variable {point : Point} {c c' : TcpConnection} {l : Licence}

theorem kept_placed (hw : c.channel.Watched) (active : ActivePlace) : Kept l c (c.placed active) :=
  kept_place hw c.channel.eventHandling active

/-- What holds of a connection in every run of its loop. -/
structure Sound (point : Point) (c : TcpConnection) : Prop where
  watched : c.channel.Watched
  plain : c.channel.events.Plain
  hangUp : c.hangsUp → c.channel.revents.meets readMask = false
  resumes : .handleClose .errorPart ∈ c.frames → c.channel.revents.meets readMask = false
  destroys : .connectDestroyed ∈ c.frames → point = .callingFunctors

theorem Sound.kept (h : Sound point c) (hk : Kept l c c')
    (hl : l.removes → point = .callingFunctors) : Sound point c' where
  watched := hk.watched
  plain := hk.plain h.plain
  hangUp hup := by
    unfold hangsUp at hup
    rw [hk.revents] at hup ⊢
    exact h.hangUp hup
  resumes hf := by
    rw [hk.revents]
    rcases hk.resumes hf with hf | hup
    · exact h.resumes hf
    · exact h.hangUp hup
  destroys hf := by
    by_cases hr : l.removes
    · exact hl hr
    · exact h.destroys (hk.destroys hr hf)

/-- At another point of the loop, when no callback is under way. -/
theorem Sound.moved (h : Sound point c) (hframes : c.frames = []) (point' : Point) :
    Sound point' c :=
  { h with
    destroys := fun hf => by
      rw [hframes] at hf
      cases hf }

/-- Reported events hang up without read events, as the kernel reports them. -/
theorem Sound.reported {revents : PollEvents} (h : Sound point c) (hframes : c.frames = [])
    (hr : Reports c.channel.entry.interest revents) (point' : Point) :
    Sound point' (c.reported revents) where
  watched := ⟨h.watched.index, h.watched.registered, h.watched.interest⟩
  plain := h.plain
  hangUp := (readMask_of_reports h.plain (h.watched.reports hr).2).1
  resumes hf := by
    change _ ∈ c.frames at hf
    rw [hframes] at hf
    cases hf
  destroys := (h.moved hframes point').destroys

theorem Sound.advanced (h : Sound point c) (hframes : c.frames = []) (from' point' : Point) :
    Sound point' (c.advanced from') := by
  have hmoved := h.moved hframes point'
  cases from' with
  | handlingEvents =>
    exact { hmoved with
      watched := ⟨h.watched.index, h.watched.registered, h.watched.interest⟩ }
  | _ => exact hmoved

theorem established_sound {ownerInLoop writeComplete highWater : Bool} {highWaterMark : Nat} :
    Sound point (new ownerInLoop writeComplete highWater highWaterMark).established where
  watched := Channel.watching_watched _ _
  plain := Channel.plain_enableReading Channel.plain_none
  hangUp hup := by cases hup.1
  resumes hf := by cases List.mem_singleton.mp hf
  destroys hf := by cases List.mem_singleton.mp hf

/-- What a step of a connection needs to be sound. -/
structure Prepared (point : Point) (c : TcpConnection) (a : Action) : Prop where
  report : ∀ revents, a ≠ .report revents
  fits : ∀ r w, a = .handleEvent r w ∨ a = .callbackReturn r w →
    w.fits c.outputBuffer.readableBytes
  removes : (a.licence c).removes → point = .callingFunctors

theorem prepared_handleEvent {r : ReadResult} {w : WriteResult}
    (hfits : w.fits c.outputBuffer.readableBytes) : Prepared point c (.handleEvent r w) where
  report := nofun
  fits r' w' ha := by
    rcases ha with ha | ha
    · cases ha
      exact hfits
    · cases ha
  removes := False.elim

theorem Sound.prepared {a : Action} (hsound : c.Sound point) (hen : c.enabled point a)
    (hloop : Reactor.byLoop a = false) : Prepared point c a where
  report revents ha := by
    subst ha
    cases hloop
  fits r w ha := by
    rcases ha with rfl | rfl
    · cases hloop
    · exact hen.2.2
  removes h := by
    rcases licence_removes h with hf | ⟨w, rfl⟩
    · exact hsound.destroys hf
    · exact hen.1

end TcpConnection

/-! ### A client -/

namespace TcpClient

/-- The steps in which the channel of the Connector may be removed. -/
def removes : Action → Bool
  | .connector act => Connector.removes act
  | _ => false

/-- The other steps leave that channel alone. -/
theorem step_keeps {s : TcpClient} {a : Action} (h : removes a = false) :
    Ends (fun t => s.connector.Keeps t.connector) (· ≠ .removeChannelInactive) (s.step a) := by
  cases a with
  | connectorStart inLoop =>
    have hstart : Ends s.connector.Keeps (· ≠ .removeChannelInactive)
        (s.connector.step (.start inLoop)) := Connector.step_keeps rfl
    exact ends_ok (hstart.of_ok rfl)
  | closeCallback conn =>
    unfold TcpClient.step removeConnection
    refine (check_ends Assertion.noConfusion).bind fun _ _ => ?_
    exact ends_ite (fun _ => ends_ok (.inl rfl)) fun _ => ends_ok (.inl rfl)
  | connector act =>
    refine (Connector.step_keeps h).bind fun t ht => ?_
    cases act with
    | newConnection sockfd => exact ends_ok ht
    | _ => exact ends_ok ht
  | _ => exact ends_ok (.inl rfl)

end TcpClient

namespace Reactor

variable {ι κ ν : Type} {s t u : Reactor ι κ ν}

/-! ### The channels of a state -/

theorem registered_connection {i : ι} :
    s.Registered (.connection i) ↔
      ∃ m ∈ s.connections i, m.conn.channel.entry.registered = true := by
  unfold Registered channel
  constructor
  · rintro ⟨ch, hch, hreg⟩
    obtain ⟨m, hm, rfl⟩ := Option.map_eq_some_iff.mp hch
    exact ⟨m, hm, hreg⟩
  · rintro ⟨m, hm, hreg⟩
    exact ⟨_, Option.map_eq_some_iff.mpr ⟨m, hm, rfl⟩, hreg⟩

theorem channel_connector {j : κ} {sockfd : Nat} {ch : Channel} :
    s.channel (.connector j sockfd) = some ch ↔
      (s.clients j).connector.channel = some (sockfd, ch) := by
  unfold channel
  constructor
  · intro h
    obtain ⟨⟨fd, ch'⟩, hch, heq⟩ := Option.bind_eq_some_iff.mp h
    dsimp only at heq
    split at heq
    · rename_i hfd
      cases heq
      rw [hch, hfd]
    · cases heq
  · intro h
    exact Option.bind_eq_some_iff.mpr ⟨(sockfd, ch), h, if_pos rfl⟩

/-- Where no connection leaves the poller and nothing else changes. -/
theorem registered_of_connections
    (hconnections : ∀ i, s.Registered (.connection i) → t.Registered (.connection i))
    (hclients : t.clients = s.clients) (hothers : t.others = s.others) {id : ChannelId ι κ ν}
    (hid : s.Registered id) : t.Registered id := by
  cases id with
  | connection i => exact hconnections i hid
  | connector j sockfd =>
    unfold Registered channel at hid ⊢
    rw [hclients]
    exact hid
  | other a =>
    unfold Registered channel at hid ⊢
    rw [hothers]
    exact hid

/-- What the kernel reports of a connection. -/
theorem reports_of_lookup [DecidableEq ι] [DecidableEq κ] [DecidableEq ν] {i : ι}
    {m : Member κ} {events : List (ChannelId ι κ ν × PollEvents)} {revents : PollEvents}
    (hevents : ∀ e ∈ events, ∃ ch ∈ s.channel e.1, Reports ch.entry.interest e.2)
    (hm : s.connections i = some m) (hlookup : events.lookup (.connection i) = some revents) :
    Reports m.conn.channel.entry.interest revents := by
  obtain ⟨l₁, l₂, heq, -⟩ := List.lookup_eq_some_iff.mp hlookup
  have hmem : (.connection i, revents) ∈ events := by
    rw [heq]
    exact List.mem_append_right _ List.mem_cons_self
  obtain ⟨ch, hch, hr⟩ := hevents _ hmem
  obtain ⟨m', hm', rfl⟩ := Option.map_eq_some_iff.mp hch
  cases hm.symm.trans hm'
  exact hr

/-! ### The invariant -/

structure Inv (s : Reactor ι κ ν) : Prop where
  connections : ∀ i, ∀ m ∈ s.connections i, m.conn.Sound s.loop.point
  connectors : ∀ j, (s.clients j).connector.Watched
  others : ∀ a, (s.others a).Watched
  nodup : s.loop.activeChannels.Nodup
  current : ∀ id ∈ s.loop.currentActiveChannel, id ∉ s.loop.waiting
  outside : s.loop.point ≠ .handlingEvents → s.loop.currentActiveChannel = none
  registered : s.loop.point = .handlingEvents → ∀ id ∈ s.loop.waiting, s.Registered id

theorem new_inv : Inv (new : Reactor ι κ ν) where
  connections _ _ hm := by cases hm
  connectors _ _ he := by cases he
  others _ := Channel.new_synced.toWatched
  nodup := List.nodup_nil
  current _ hid := by cases hid
  outside _ := rfl
  registered hpoint := by cases hpoint

/-- The entry of every channel follows its `index_`. -/
theorem Inv.watched (hi : Inv s) {id : ChannelId ι κ ν} {ch : Channel}
    (hch : s.channel id = some ch) : ch.Watched := by
  cases id with
  | connection i =>
    obtain ⟨m, hm, rfl⟩ := Option.map_eq_some_iff.mp hch
    exact (hi.connections i m hm).watched
  | connector j sockfd => exact hi.connectors j (sockfd, ch) (channel_connector.mp hch)
  | other a =>
    cases hch
    exact hi.others a

/-- A channel that the kernel reports is in `channels_`. -/
theorem Inv.reported (hi : Inv s) {id : ChannelId ι κ ν} {revents : PollEvents}
    (h : ∃ ch ∈ s.channel id, Reports ch.entry.interest revents) : s.Registered id := by
  obtain ⟨ch, hch, hr⟩ := h
  have hw := hi.watched hch
  refine ⟨ch, hch, hw.registered.mpr ?_⟩
  rw [(hw.reports hr).1]
  decide

/-- `t` is `s` after steps of the objects, at one point of the loop. -/
structure Follows (s t : Reactor ι κ ν) : Prop where
  inv : Inv t
  loop : t.loop = s.loop
  registered : s.loop.point = .handlingEvents → ∀ id, s.Registered id →
    t.Registered id ∨ s.loop.currentActiveChannel = some id

theorem Inv.follows (hi : Inv s) : Follows s s := ⟨hi, rfl, fun _ _ => .inl⟩

theorem Follows.trans (h₁ : Follows s t) (h₂ : Follows t u) : Follows s u := by
  refine ⟨h₂.inv, h₂.loop.trans h₁.loop, fun hpoint id hreg => ?_⟩
  rcases h₁.registered hpoint id hreg with hreg | hcurrent
  · have h := h₂.registered
    rw [h₁.loop] at h
    exact h hpoint id hreg
  · exact .inr hcurrent

/-- The rule for a change of the objects. -/
theorem Inv.change (hi : Inv s) (hloop : t.loop = s.loop)
    (hconnections : ∀ i, ∀ m ∈ t.connections i, m.conn.Sound s.loop.point)
    (hconnectors : ∀ j, (t.clients j).connector.Watched) (hothers : ∀ a, (t.others a).Watched)
    (hreg : s.loop.point = .handlingEvents → ∀ id, s.Registered id →
      t.Registered id ∨ s.loop.currentActiveChannel = some id) : Follows s t := by
  refine ⟨⟨?_, hconnectors, hothers, ?_, ?_, ?_, ?_⟩, hloop, hreg⟩
  · rw [hloop]
    exact hconnections
  · rw [hloop]
    exact hi.nodup
  · rw [hloop]
    exact hi.current
  · rw [hloop]
    exact hi.outside
  · rw [hloop]
    intro hpoint id hid
    rcases hreg hpoint id (hi.registered hpoint id hid) with hreg | hcurrent
    · exact hreg
    · exact absurd hid (hi.current id hcurrent)

/-- One connection changes. -/
theorem Inv.setConnection [DecidableEq ι] (hi : Inv s) {i : ι} {m : Member κ}
    (hm : m.conn.Sound s.loop.point)
    (hreg : s.loop.point = .handlingEvents → s.Registered (.connection i) →
      m.conn.channel.entry.registered = true) : Follows s (s.setConnection i m) := by
  refine hi.change (t := s.setConnection i m) rfl ?_ hi.connectors hi.others ?_
  · intro k m' hm'
    by_cases hk : k = i
    · subst hk
      rw [connections_setConnection] at hm'
      cases hm'
      exact hm
    · rw [connections_setConnection_of_ne s m hk] at hm'
      exact hi.connections k m' hm'
  · intro hpoint id hid
    left
    refine registered_of_connections (s := s) (t := s.setConnection i m) (fun k hid => ?_)
      rfl rfl hid
    by_cases hk : k = i
    · subst hk
      exact registered_connection.mpr ⟨m, connections_setConnection s k m, hreg hpoint hid⟩
    · obtain ⟨m', hm', hr⟩ := registered_connection.mp hid
      refine registered_connection.mpr ⟨m', ?_, hr⟩
      rw [connections_setConnection_of_ne s m hk]
      exact hm'

/-- One client changes. -/
theorem Inv.setClient [DecidableEq κ] (hi : Inv s) {j : κ} {client : TcpClient}
    (hw : client.connector.Watched)
    (hreg : s.loop.point = .handlingEvents → ∀ sockfd ch,
      (s.clients j).connector.channel = some (sockfd, ch) → ch.entry.registered = true →
        (∃ ch', client.connector.channel = some (sockfd, ch') ∧ ch'.entry.registered = true) ∨
          s.loop.currentActiveChannel = some (.connector j sockfd)) :
    Follows s (s.setClient j client) := by
  refine hi.change (t := s.setClient j client) rfl hi.connections ?_ hi.others ?_
  · intro k
    by_cases hk : k = j
    · subst hk
      rw [clients_setClient]
      exact hw
    · rw [clients_setClient_of_ne s client hk]
      exact hi.connectors k
  · intro hpoint id hid
    cases id with
    | connection i => exact .inl hid
    | connector k sockfd =>
      obtain ⟨ch, hch, hr⟩ := hid
      by_cases hk : k = j
      · subst hk
        rcases hreg hpoint sockfd ch (channel_connector.mp hch) hr with ⟨ch', hch', hr'⟩ | hcur
        · refine .inl ⟨ch', channel_connector.mpr ?_, hr'⟩
          rw [clients_setClient]
          exact hch'
        · exact .inr hcur
      · refine .inl ⟨ch, channel_connector.mpr ?_, hr⟩
        rw [clients_setClient_of_ne s client hk]
        exact channel_connector.mp hch
    | other a => exact .inl hid

/-- One of the other channels changes its events. -/
theorem Inv.setOther [DecidableEq ν] (hi : Inv s) (a : ν) (e : PollEvents) :
    Follows s (s.setOther a ((s.others a).watching e)) := by
  refine hi.change (t := s.setOther a _) rfl hi.connections hi.connectors ?_ ?_
  · intro b
    by_cases hb : b = a
    · subst hb
      rw [others_setOther]
      exact Channel.watching_watched _ _
    · rw [others_setOther_of_ne s _ hb]
      exact hi.others b
  · intro _ id hid
    left
    cases id with
    | connection i => exact hid
    | connector j sockfd => exact hid
    | other b =>
      obtain ⟨ch, hch, hr⟩ := hid
      by_cases hb : b = a
      · subst hb
        exact ⟨_, congrArg some (others_setOther s b _), rfl⟩
      · exact ⟨ch, (congrArg some (others_setOther_of_ne s _ hb)).trans hch, hr⟩

/-! ### Steps of the objects -/

section Steps

variable {place : Places ι κ ν}

/-- `waiting` is said of no channel that is current, and of none while no events are
    handled. -/
def Honest (place : Places ι κ ν) : Prop :=
  ∀ l id, l.point ≠ .handlingEvents ∨ l.currentActiveChannel = some id →
    place l id = .absent ∨ place l id = .current

/-- The channel of a client when its place is asked for. -/
theorem placed_channel {j : κ} {place : Nat → ActivePlace} {sockfd : Nat} {ch : Channel}
    (h : (s.clients j).connector.channel = some (sockfd, ch)) :
    ((s.clients j).placed place).connector.channel =
      some (sockfd, { ch with active := place sockfd }) :=
  congrArg (Option.map _) h

theorem Inv.placed_watched (hi : Inv s) (j : κ) (place : Nat → ActivePlace) :
    ((s.clients j).placed place).connector.Watched := by
  intro e he
  obtain ⟨⟨sockfd, ch⟩, hch, rfl⟩ := Option.map_eq_some_iff.mp he
  have hw : ch.Watched := hi.connectors j (sockfd, ch) hch
  exact ⟨hw.index, hw.registered, hw.interest⟩

variable [DecidableEq κ]

/-- What a Connector keeps of its channel stays registered. -/
theorem Inv.keepsClient (hi : Inv s) {j : κ} {place : Nat → ActivePlace} {client : TcpClient}
    (h : ((s.clients j).placed place).connector.Keeps client.connector) :
    Follows s (s.setClient j client) := by
  refine hi.setClient (h.watched (hi.placed_watched j place)) fun _ sockfd ch hch hr => .inl ?_
  have hplaced : ((s.clients j).placed place).connector.channel =
      some (sockfd, { ch with active := place sockfd }) := placed_channel hch
  rcases h with heq | ⟨hnone, -⟩
  · exact ⟨_, heq.trans hplaced, hr⟩
  · cases hnone.symm.trans hplaced

/-- A step of the objects ends as `Follows` says, or stops in another assertion. -/
abbrev Goes (s : Reactor ι κ ν) (x : Except Assertion (Reactor ι κ ν)) : Prop :=
  Ends (Follows s) (· ≠ .removeChannelInactive) x

theorem clientStep_goes (hi : Inv s) (j : κ) {a : TcpClient.Action}
    (ha : TcpClient.removes a = false) : Goes s (s.clientStep place j a) := by
  refine (TcpClient.step_keeps ha).bind fun client hclient => ?_
  exact ends_ok (hi.keepsClient hclient)

theorem connectorStep_goes (hi : Inv s) (j : κ) {a : Connector.Action}
    (ha : Connector.removes a = false) : Goes s (s.connectorStep place j a) := by
  refine (Connector.step_keeps ha).bind fun connector hconnector => ?_
  have hset : Follows s (s.setClient j { s.clients j with connector := connector }) :=
    hi.keepsClient hconnector
  exact ends_ok hset

/-- A step of a client that may remove its channel, when the channel is not waiting. -/
theorem removingStep_goes (hi : Inv s) (hplace : Honest place) (j : κ) {act : Connector.Action}
    (ha : Connector.removes act = true)
    (hfree : ∀ sockfd ch, (s.clients j).connector.channel = some (sockfd, ch) →
      s.loop.point ≠ .handlingEvents ∨
        s.loop.currentActiveChannel = some (.connector j sockfd)) :
    Goes s (s.clientStep place j (.connector act)) := by
  have hready : (((s.clients j).placed fun sockfd =>
      place s.loop (.connector j sockfd)).connector).Ready := by
    refine ⟨hi.placed_watched j _, fun e he => ?_⟩
    obtain ⟨⟨sockfd, ch⟩, hch, rfl⟩ := Option.map_eq_some_iff.mp he
    exact hplace _ _ (hfree sockfd ch hch)
  have hstep : Ends (fun client => client.connector.Ready) (· ≠ .removeChannelInactive)
      (((s.clients j).placed fun sockfd => place s.loop (.connector j sockfd)).step
        (.connector act)) := by
    unfold TcpClient.step
    cases act with
    | callFunctor => exact (Connector.callFunctor_ends hready).bind fun _ ht => ends_ok ht
    | handleEvent error writable err isSelfConnect =>
      exact (Connector.handleEvent_ends hready error writable err isSelfConnect).bind
        fun _ ht => ends_ok ht
    | _ => cases ha
  refine hstep.bind fun client hclient => ends_ok (hi.setClient hclient.watched ?_)
  intro hpoint sockfd ch hch _
  exact .inr ((hfree sockfd ch hch).resolve_left (not_not.mpr hpoint))

omit [DecidableEq κ] in
/-- A step of a connection whose place is asked for. -/
theorem Inv.placedStep_keeps (hi : Inv s) (hplace : Honest place) {i : ι} {m : Member κ}
    {a : TcpConnection.Action} (hm : s.connections i = some m)
    (ha : m.conn.Prepared s.loop.point a) :
    TcpConnection.Keeps (a.licence m.conn) m.conn
      ((m.conn.placed (place s.loop (.connection i))).step a) := by
  have hplaced : m.conn.Kept (a.licence m.conn)
      (m.conn.placed (place s.loop (.connection i))) :=
    TcpConnection.kept_placed (hi.connections i m hm).watched _
  have hstep := TcpConnection.step_keeps (a := a) hplaced.watched ha.report ha.fits
    fun hr => hplace _ _ (.inl fun hpoint => by
      cases hpoint.symm.trans (ha.removes hr))
  exact hstep.imp fun _ => hplaced.trans

omit [DecidableEq κ] in
/-- One connection changes as a step may change it. -/
theorem Inv.keepsConnection [DecidableEq ι] (hi : Inv s) {i : ι} {m : Member κ}
    {conn : TcpConnection} {l : TcpConnection.Licence} (hm : s.connections i = some m)
    (hkept : m.conn.Kept l conn) (hl : l.removes → s.loop.point = .callingFunctors) :
    Follows s (s.setConnection i { m with conn := conn }) := by
  refine hi.setConnection ((hi.connections i m hm).kept hkept hl) fun hpoint hreg => ?_
  obtain ⟨m', hm', hr⟩ := registered_connection.mp hreg
  cases hm.symm.trans hm'
  apply hkept.registered _ hr
  intro hremoves
  cases hpoint.symm.trans (hl hremoves)

variable [DecidableEq ι]

theorem connectionStep_goes (hi : Inv s) (hplace : Honest place) (i : ι)
    {a : TcpConnection.Action}
    (ha : ∀ m ∈ s.connections i, m.conn.Prepared s.loop.point a) :
    Goes s (s.connectionStep place i a) := by
  unfold connectionStep
  split
  · exact ends_ok hi.follows
  · rename_i m hm
    refine (hi.placedStep_keeps hplace hm (ha m hm)).bind fun conn hconn => ?_
    have hset := hi.keepsConnection hm hconn (ha m hm).removes
    split
    · exact ends_ok hset
    · refine ends_ite (fun _ => ?_) fun _ => ends_ok hset
      exact (clientStep_goes hset.inv _ rfl).imp fun _ => hset.trans

omit [DecidableEq κ] in
theorem establish_goes (hi : Inv s) (i : ι) (client : Option (κ × Nat))
    {ownerInLoop writeComplete highWater : Bool} {highWaterMark : Nat} :
    Goes s (s.establish i client
      (TcpConnection.new ownerInLoop writeComplete highWater highWaterMark)) := by
  unfold establish
  rw [TcpConnection.connectEstablished_eq rfl Channel.new_synced.toWatched, ok_bind]
  refine ends_ok (hi.setConnection TcpConnection.established_sound fun _ _ => ?_)
  rfl

end Steps

/-! ### Steps of the loop -/

/-- What is registered stays so while events are handled, but for the current channel. -/
def Retains (s t : Reactor ι κ ν) : Prop :=
  s.loop.point = .handlingEvents → ∀ id, s.Registered id →
    t.Registered id ∨ t.loop.currentActiveChannel = some id

theorem Follows.retains (h : Follows s t) : Inv t ∧ Retains s t := by
  refine ⟨h.inv, fun hpoint id hreg => ?_⟩
  rw [h.loop]
  exact h.registered hpoint id hreg

/-- The iterator goes on to the next channel. -/
theorem Inv.forward {id : ChannelId ι κ ν} {rest : List (ChannelId ι κ ν)} (hi : Inv s)
    (hpoint : s.loop.point = .handlingEvents) (hwaiting : s.loop.waiting = id :: rest) :
    Inv { s with loop := s.loop.forward } := by
  have hrest : s.loop.forward.waiting = rest := by
    rw [Dispatch.waiting_forward, hwaiting, List.tail_cons]
  have hcurrent : s.loop.forward.currentActiveChannel = some id := by
    unfold Dispatch.forward
    rw [hwaiting, List.head?_cons]
  have hnodup : s.loop.waiting.Nodup := hi.nodup.sublist (List.drop_sublist _ _)
  rw [hwaiting] at hnodup
  refine ⟨hi.connections, hi.connectors, hi.others, hi.nodup, fun id' hid => ?_,
    fun hne => absurd hpoint hne, fun _ id' hid => ?_⟩
  · rw [Option.mem_def.mp hid] at hcurrent
    cases hcurrent
    rw [hrest]
    exact (List.nodup_cons.mp hnodup).1
  · rw [hrest] at hid
    apply hi.registered hpoint
    rw [hwaiting]
    exact .tail _ hid

/-- Only `poll` begins the handling of events. -/
theorem leave_point (hdone : s.done s.loop.point) : s.left.loop.point ≠ .handlingEvents := by
  change s.loop.point.next ≠ .handlingEvents
  cases hp : s.loop.point with
  | polling =>
    rw [hp] at hdone
    exact hdone.elim
  | _ => exact Point.noConfusion

/-- The loop leaves its point. -/
theorem Inv.left (hi : Inv s) (hrests : s.rests) (hdone : s.done s.loop.point) :
    Inv s.left ∧ Retains s s.left := by
  have hreg : ∀ id, s.Registered id → s.left.Registered id := by
    intro id
    refine registered_of_connections (s := s) (t := s.left) (fun i hid => ?_) rfl rfl
    obtain ⟨m, hm, hr⟩ := registered_connection.mp hid
    refine registered_connection.mpr ⟨_, Option.map_eq_some_iff.mpr ⟨m, hm, rfl⟩, ?_⟩
    unfold TcpConnection.advanced
    split <;> exact hr
  refine ⟨⟨fun i m hm => ?_, hi.connectors, hi.others, hi.nodup, nofun, fun _ => rfl,
    fun hp => absurd hp (leave_point hdone)⟩, fun _ id hid => .inl (hreg id hid)⟩
  obtain ⟨m', hm', rfl⟩ := Option.map_eq_some_iff.mp hm
  exact (hi.connections i m' hm').advanced (hrests.1 i m' hm') _ _

variable [DecidableEq ι] [DecidableEq κ] [DecidableEq ν] {place : Places ι κ ν}

/-- `poller_->poll` returns what the kernel reports. -/
theorem Inv.polled {events : List (ChannelId ι κ ν × PollEvents)} (hi : Inv s)
    (hrests : s.rests) (hpoint : s.loop.point = .polling) (hnodup : (events.map Prod.fst).Nodup)
    (hevents : ∀ e ∈ events, ∃ ch ∈ s.channel e.1, Reports ch.entry.interest e.2) :
    Inv (s.polled events) := by
  have hreg : ∀ id, s.Registered id → (s.polled events).Registered id := by
    intro id
    refine registered_of_connections (s := s) (t := s.polled events) (fun i hid => ?_) rfl rfl
    obtain ⟨m, hm, hr⟩ := registered_connection.mp hid
    refine registered_connection.mpr ⟨_, Option.map_eq_some_iff.mpr ⟨m, hm, rfl⟩, ?_⟩
    split <;> exact hr
  have hnone : s.loop.currentActiveChannel = none := by
    apply hi.outside
    rw [hpoint]
    exact Point.noConfusion
  refine ⟨fun i m hm => ?_, hi.connectors, hi.others, hnodup, fun id hid => ?_,
    fun hne => absurd rfl hne, fun _ id hid => ?_⟩
  · obtain ⟨m', hm', rfl⟩ := Option.map_eq_some_iff.mp hm
    have hframes := hrests.1 i m' hm'
    have hsound := hi.connections i m' hm'
    split
    · exact hsound.moved hframes _
    · rename_i revents hlookup
      exact hsound.reported hframes (reports_of_lookup hevents hm' hlookup) _
  · cases hnone.symm.trans hid
  · obtain ⟨e, he, rfl⟩ := List.mem_map.mp hid
    exact hreg e.1 (hi.reported (hevents e he))

/-- The loop calls `handleEvent` of the next channel. -/
theorem handleEvent_ends (hi : Inv s) (hplace : Honest place) {answers : Answers}
    (hen : s.enabled (.handleEvent answers)) :
    Ends (fun t => Inv t ∧ Retains s t) (· ≠ .removeChannelInactive)
      (s.stepAt place (.handleEvent answers)) := by
  obtain ⟨hpoint, -, hne, hanswers⟩ := hen
  obtain ⟨id, rest, hwaiting⟩ := List.exists_cons_of_ne_nil hne
  have hhead : s.loop.waiting.head? = some id := by rw [hwaiting, List.head?_cons]
  have hforward := hi.forward hpoint hwaiting
  have hreg : s.Registered id := hi.registered hpoint id (hwaiting ▸ List.mem_cons_self)
  have hstep : Goes { s with loop := s.loop.forward }
      (({ s with loop := s.loop.forward } : Reactor ι κ ν).handleEvent place id answers) := by
    cases id with
    | connection i =>
      refine connectionStep_goes hforward hplace i fun m hm => ?_
      exact TcpConnection.prepared_handleEvent (hanswers _ hhead m hm).2
    | connector j sockfd =>
      refine removingStep_goes hforward hplace j rfl fun sockfd' ch hch => .inr ?_
      obtain ⟨ch', hch', -⟩ := hreg
      cases hch.symm.trans (channel_connector.mp hch')
      exact hhead
    | other a => exact ends_ok hforward.follows
  simp only [stepAt, hhead]
  exact hstep.imp fun t ht => ⟨ht.inv, fun _ => ht.retains.2 hpoint⟩

/-- **The invariant is kept by every step**, and no step fails in `removeChannel`. -/
theorem stepAt_ends (hi : Inv s) (hplace : Honest place) {a : Action ι κ ν}
    (hen : s.enabled a) :
    Ends (fun t => Inv t ∧ Retains s t) (· ≠ .removeChannelInactive) (s.stepAt place a) := by
  have hgoes : ∀ {x}, Goes s x → Ends (fun t => Inv t ∧ Retains s t)
      (· ≠ .removeChannelInactive) x := fun h => h.imp fun _ => Follows.retains
  cases a with
  | leave => exact ends_ok (hi.left hen.1 hen.2)
  | poll events =>
    refine ends_ok ⟨hi.polled hen.2.1 hen.1 hen.2.2.1 hen.2.2.2, fun hpoint => ?_⟩
    cases hpoint.symm.trans hen.1
  | handleEvent answers => exact handleEvent_ends hi hplace hen
  | establish i ownerInLoop writeComplete highWater highWaterMark =>
    exact hgoes (establish_goes hi i none)
  | newConnection j sockfd i writeComplete highWater highWaterMark =>
    refine hgoes ((clientStep_goes hi j rfl).bind fun t ht => ?_)
    exact (establish_goes ht.inv i _).imp fun _ => ht.trans
  | removeConnectionInLoop i =>
    apply hgoes
    simp only [stepAt]
    split
    · exact ends_ok hi.follows
    · rename_i m hm
      have hremove := TcpConnection.removeConnectionInLoop_keeps (l := .nothing)
        (hi.connections i m hm).watched
      exact hremove.bind fun conn hconn => ends_ok (hi.keepsConnection hm hconn False.elim)
  | connection i a =>
    obtain ⟨hloop, m, hm, hena, -⟩ := hen
    refine hgoes (connectionStep_goes hi hplace i fun m' hm' => ?_)
    obtain rfl : m = m' := Option.some.inj (hm.symm.trans hm')
    exact (hi.connections i m hm).prepared hena hloop
  | client j a =>
    obtain ⟨hallows, -⟩ := hen
    apply hgoes
    by_cases ha : TcpClient.removes a = false
    · exact clientStep_goes hi j ha
    · cases a with
      | connector act =>
        cases act with
        | callFunctor =>
          refine removingStep_goes hi hplace j rfl fun _ _ _ => .inl ?_
          rw [show s.loop.point = .callingFunctors from hallows.2]
          exact Point.noConfusion
        | handleEvent _ _ _ _ => exact hallows.2.elim
        | _ => exact absurd rfl ha
      | _ => exact absurd rfl ha
  | connector j a =>
    refine hgoes (connectorStep_goes hi j ?_)
    cases a with
    | handleEvent _ _ _ _ => cases hen.1
    | callFunctor => cases hen.1
    | _ => rfl
  | enableReading a =>
    apply hgoes
    have heq : (s.others a).enableReading = .ok _ := Channel.setEvents_eq (hi.others a) _
    simp only [stepAt, heq, ok_bind]
    exact ends_ok (hi.setOther a _)

end Reactor

end Kaycc
