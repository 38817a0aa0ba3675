/-
  Kaycc/ReactorStopRead.lean
  ==========================
  **`stopRead()` and the events that have been collected already.**

  `stopReadInLoop` takes the read events out of the interest set, so that later polls
  do not report them.  `handleEvent` goes by the `revents_` of the last poll, and
  `handleRead`, unlike `handleWrite`, does not ask whether the channel is still
  interested.  So `messageCallback_` is silent from `stopReadInLoop` on exactly when
  the connection does not wait in `activeChannels_` with read events at that moment
  (`readWaits`).

  `Silent` is the invariant from then on: the channel is not reading, and it does not
  wait with read events.
-/
import Kaycc.ReactorDispatch

namespace Kaycc

open Transition Transition.System Postcondition
open TcpConnection (Point readMask)

namespace TcpConnection

variable {c c' : TcpConnection} {l : Licence}

/-- The step runs `stopReadInLoop`. -/
def stopsReading (c : TcpConnection) : Action → Prop
  | .call k _ => k = .stopRead
  | .runFunctor _ => c.functors.batch.head? = some .stopReadInLoop
  | _ => False

/-- The step runs `startReadInLoop`. -/
def startsReading (c : TcpConnection) : Action → Prop
  | .call k _ => k = .startRead
  | .runFunctor _ => c.functors.batch.head? = some .startReadInLoop
  | _ => False

instance (c : TcpConnection) : (a : Action) → Decidable (c.startsReading a)
  | .report _ => .isFalse id
  | .handleEvent _ _ => .isFalse id
  | .callbackReturn _ _ => .isFalse id
  | .runFunctor _ => inferInstanceAs (Decidable (_ = _))
  | .delayedForceClose => .isFalse id
  | .call _ _ => inferInstanceAs (Decidable (_ = _))
  | .beginCall _ => .isFalse id
  | .finishCall _ => .isFalse id
  | .editInput _ => .isFalse id

theorem startsReading_of_licence {a : Action} (h : (a.licence c).starts) :
    c.startsReading a := by
  rcases licence_starts h with ⟨w, rfl⟩ | ⟨w, rfl, hhead⟩
  · exact rfl
  · exact hhead

/-- After `stopReadInLoop` the channel is not reading. -/
theorem stopsReading_ends {a : Action} (hw : c.channel.Watched) (h : c.stopsReading a) :
    Ends (fun c' => c'.channel.isReading = false) (fun _ => True) (c.step a) := by
  cases a with
  | call k w =>
    obtain rfl : k = .stopRead := h
    exact ((stopReadInLoop_keeps (l := .nothing) hw).mono (fun _ => And.right)
      fun _ _ => trivial)
  | runFunctor w =>
    obtain ⟨rest, hbatch⟩ := List.head?_eq_some_iff.mp h
    have hstep : c.step (.runFunctor w) = (c.dequeued rest).stopReadInLoop := by
      simp only [step, runNextFunctor, hbatch]
      rfl
    rw [hstep]
    exact (stopReadInLoop_keeps (c := c.dequeued rest) (l := .nothing) hw).mono
      (fun _ => And.right) fun _ _ => trivial
  | _ => exact h.elim

theorem handleRead_reads {data : Bytes} (hdata : 0 < data.length) :
    ∃ c', c.handleRead data = .ok c' ∧ messages c'.log = messages c.log + 1 := by
  obtain ⟨b, hb, -⟩ := Buffer.readFd_ok c.inputBuffer data
  simp only [handleRead, hb, ok_bind, if_pos hdata]
  exact ⟨_, rfl, count_record_self _⟩

/-- `handleEvent` goes by `revents_`: it reads, whether or not the channel is reading. -/
theorem handleEvent_reads (data : Bytes) (w : WriteResult) (hdata : 0 < data.length)
    (hmeets : c.channel.revents.meets readMask = true) (hup : ¬ c.hangsUp) :
    ∃ c', c.handleEvent (.bytes data) w = .ok c' ∧ messages c'.log = messages c.log + 1 := by
  have hread : c.handleEvent (.bytes data) w = (c.setChannel
      { c.channel with eventHandling := true, active := .current }).handleRead data :=
    (if_neg hup).trans (if_pos hmeets)
  rw [hread]
  exact handleRead_reads hdata

/-- The kernel reports no read events to a channel that is not reading. -/
theorem readMask_of_not_reading {m r : PollEvents} (hplain : m.Plain)
    (hreading : m.meets kReadEvent = false) (h : Reports (some m) r) :
    r.meets readMask = false := by
  obtain ⟨reading, writing, rfl⟩ := hplain
  obtain rfl : reading = false := by
    cases reading with
    | false => rfl
    | true => cases hreading
  obtain ⟨hin, hpri, -, -, hrdhup, -⟩ := h
  have h₁ : r.pollin = false := Bool.eq_false_iff.mpr fun hr => Bool.false_ne_true (hin hr)
  have h₂ : r.pollpri = false := Bool.eq_false_iff.mpr fun hr => Bool.false_ne_true (hpri hr)
  have h₃ : r.pollrdhup = false := Bool.eq_false_iff.mpr fun hr => Bool.false_ne_true (hrdhup hr)
  simp [PollEvents.meets, readMask, h₁, h₂, h₃]

end TcpConnection

namespace Reactor

variable {ι κ ν : Type} {s t u : Reactor ι κ ν} {i : ι} {m : Member κ}

/-- How often the `messageCallback_` of a connection has been invoked. -/
def messages (s : Reactor ι κ ν) (i : ι) : Nat :=
  ((s.connections i).map fun m => TcpConnection.messages m.conn.log).getD 0

/-- The step runs `stopReadInLoop` of the connection. -/
def stopsReading (s : Reactor ι κ ν) (i : ι) : Action ι κ ν → Prop
  | .connection k a => k = i ∧ ∃ m ∈ s.connections i, m.conn.stopsReading a
  | _ => False

/-- The step runs `startReadInLoop` of the connection. -/
def startsReading (s : Reactor ι κ ν) (i : ι) : Action ι κ ν → Prop
  | .connection k a => k = i ∧ ∃ m ∈ s.connections i, m.conn.startsReading a
  | _ => False

/-- The connection waits in `activeChannels_` with read events. -/
def readWaits (s : Reactor ι κ ν) (i : ι) : Prop :=
  s.loop.point = .handlingEvents ∧ .connection i ∈ s.loop.waiting ∧
    ∃ m ∈ s.connections i, m.conn.channel.revents.meets readMask = true

instance [DecidableEq ι] (s : Reactor ι κ ν) (i : ι) :
    (a : Action ι κ ν) → Decidable (s.startsReading i a)
  | .leave => .isFalse id
  | .poll _ => .isFalse id
  | .handleEvent _ => .isFalse id
  | .establish _ _ _ _ _ => .isFalse id
  | .newConnection _ _ _ _ _ _ => .isFalse id
  | .removeConnectionInLoop _ => .isFalse id
  | .connection k _ => inferInstanceAs (Decidable (k = i ∧ ∃ m ∈ s.connections i, _))
  | .client _ _ => .isFalse id
  | .connector _ _ => .isFalse id
  | .enableReading _ => .isFalse id

instance [DecidableEq ι] [DecidableEq κ] [DecidableEq ν] (s : Reactor ι κ ν) (i : ι) :
    Decidable (s.readWaits i) :=
  inferInstanceAs (Decidable (_ ∧ _ ∧ ∃ m ∈ s.connections i, _))

/-! ### What a step does to one connection -/

/-- `t` is `s` after a step at one point of the loop, with the connection `m` kept but for
    what the step does. -/
structure Passes (s : Reactor ι κ ν) (i : ι) (a : Action ι κ ν) (m : Member κ)
    (t : Reactor ι κ ν) : Prop where
  kept : ∃ m' ∈ t.connections i, ∃ l, m.conn.Kept l m'.conn ∧
    (l.starts → s.startsReading i a) ∧ (l.reads → s.readWaits i)
  point : t.loop.point = s.loop.point
  waiting : t.loop.waiting ⊆ s.loop.waiting

/-- A step of something else. -/
theorem Inv.passes {a : Action ι κ ν} (hi : Inv s) (hm : s.connections i = some m)
    (hconn : t.connections i = s.connections i) (hpoint : t.loop.point = s.loop.point)
    (hwaiting : t.loop.waiting ⊆ s.loop.waiting) : Passes s i a m t where
  kept := ⟨m, hconn.trans hm, .nothing,
    TcpConnection.kept_refl (hi.connections i m hm).watched, False.elim, False.elim⟩
  point := hpoint
  waiting := hwaiting

/-- Read events that wait after the step waited before. -/
theorem Passes.readWaits {a : Action ι κ ν} (h : Passes s i a m t)
    (hm : s.connections i = some m) (hwaits : t.readWaits i) : s.readWaits i := by
  obtain ⟨hpoint, hwaiting, m', hm', hmeets⟩ := hwaits
  obtain ⟨m'', hm'', l, hkept, -⟩ := h.kept
  cases hm'.symm.trans hm''
  rw [hkept.revents] at hmeets
  exact ⟨h.point.symm.trans hpoint, h.waiting hwaiting, m, hm, hmeets⟩

variable [DecidableEq ι] [DecidableEq κ] [DecidableEq ν] {place : Places ι κ ν}

omit [DecidableEq ι] [DecidableEq ν] in
theorem clientStep_ok {j : κ} {a : TcpClient.Action} (h : s.clientStep place j a = .ok t) :
    t.loop = s.loop ∧ t.connections = s.connections := by
  obtain ⟨client, -, ht⟩ := bind_eq_ok.mp h
  cases ht
  exact ⟨rfl, rfl⟩

omit [DecidableEq ν] in
theorem connectionStep_ok {k : ι} {a : TcpConnection.Action}
    (h : s.connectionStep place k a = .ok t) :
    t.loop = s.loop ∧ (∀ i, i ≠ k → t.connections i = s.connections i) ∧
      ∀ m, s.connections k = some m → ∃ conn,
        (m.conn.placed (place s.loop (.connection k))).step a = .ok conn ∧
          t.connections k = some { m with conn := conn } := by
  unfold connectionStep at h
  split at h
  · rename_i hnone
    obtain rfl := Except.ok.inj h
    exact ⟨rfl, fun _ _ => rfl, fun m hm => by cases hnone.symm.trans hm⟩
  · rename_i m hm
    obtain ⟨conn, hconn, hrest⟩ := bind_eq_ok.mp h
    have hset : t.loop = s.loop ∧
        t.connections = (s.setConnection k { m with conn := conn }).connections := by
      split at hrest
      · obtain rfl := Except.ok.inj hrest
        exact ⟨rfl, rfl⟩
      · split at hrest
        · exact clientStep_ok hrest
        · obtain rfl := Except.ok.inj hrest
          exact ⟨rfl, rfl⟩
    refine ⟨hset.1, fun i hi => ?_, fun m' hm' => ?_⟩
    · rw [hset.2, connections_setConnection_of_ne s _ hi]
    · cases hm.symm.trans hm'
      exact ⟨conn, hconn, by rw [hset.2, connections_setConnection]⟩

theorem Inv.connection_passes (hi : Inv s) {k : ι} {a : TcpConnection.Action}
    (hen : s.enabled (.connection k a)) (h : s.connectionStep Dispatch.place k a = .ok t)
    (hm : s.connections i = some m) : Passes s i (.connection k a) m t := by
  obtain ⟨hloop, m', hm', hena, -⟩ := hen
  obtain ⟨hl, hother, hthis⟩ := connectionStep_ok h
  have hwaiting : t.loop.waiting ⊆ s.loop.waiting := hl ▸ List.Subset.refl _
  by_cases hi' : i = k
  · subst hi'
    obtain rfl : m' = m := Option.some.inj (hm'.symm.trans hm)
    have hsound := hi.connections i m' hm
    obtain ⟨conn, hconn, ht⟩ := hthis m' hm
    have hkept := (hi.placedStep_keeps place_honest hm (hsound.prepared hena hloop)).of_ok hconn
    refine ⟨⟨_, ht, _, hkept, fun hs => ?_, fun hr => ?_⟩, by rw [hl], hwaiting⟩
    · exact ⟨rfl, m', hm, TcpConnection.startsReading_of_licence hs⟩
    · exfalso
      rcases TcpConnection.licence_reads hr with ⟨hmeets, ⟨r, w, rfl⟩ | hframe⟩
      · cases hloop
      · -- handleClose was called for a hang-up without read events
        cases (hsound.resumes hframe).symm.trans hmeets
  · exact hi.passes hm (hother i hi') (by rw [hl]) hwaiting

theorem Inv.handleEvent_passes (hi : Inv s) {answers : Answers}
    (hen : s.enabled (.handleEvent answers)) (h : s.step (.handleEvent answers) = .ok t)
    (hm : s.connections i = some m) : Passes s i (.handleEvent answers) m t := by
  obtain ⟨hpoint, -, hne, hanswers⟩ := hen
  obtain ⟨id, rest, hwaiting⟩ := List.exists_cons_of_ne_nil hne
  have hhead : s.loop.waiting.head? = some id := by rw [hwaiting, List.head?_cons]
  have hforward := hi.forward hpoint hwaiting
  have htail : s.loop.forward.waiting ⊆ s.loop.waiting := by
    rw [Dispatch.waiting_forward]
    exact List.tail_subset _
  simp only [step, stepAt, hhead] at h
  cases id with
  | connection k =>
    obtain ⟨hl, hother, hthis⟩ := connectionStep_ok h
    have hpt : t.loop.point = s.loop.point := by
      rw [hl]
      rfl
    have hsub : t.loop.waiting ⊆ s.loop.waiting := hl ▸ htail
    by_cases hi' : i = k
    · subst hi'
      obtain ⟨conn, hconn, ht⟩ := hthis m hm
      have hprepared : m.conn.Prepared s.loop.point (.handleEvent answers.read answers.write) :=
        TcpConnection.prepared_handleEvent (hanswers _ hhead m hm).2
      have hkept := (hforward.placedStep_keeps place_honest hm hprepared).of_ok hconn
      refine ⟨⟨_, ht, _, hkept, False.elim, fun hr => ⟨hpoint, ?_, m, hm, hr⟩⟩, hpt, hsub⟩
      rw [hwaiting]
      exact List.mem_cons_self
    · exact hi.passes hm (hother i hi') hpt hsub
  | connector j sockfd =>
    obtain ⟨hl, hconn⟩ := clientStep_ok h
    exact hi.passes hm (by rw [hconn]) (by rw [hl]; rfl) (hl ▸ htail)
  | other a =>
    obtain rfl := Except.ok.inj h
    exact hi.passes hm rfl rfl htail

/-- **What a step does to a connection**, when the loop stays at its point. -/
theorem Inv.step_passes (hi : Inv s) {a : Action ι κ ν} (hst : (system ι κ ν).Step s a t)
    (hm : s.connections i = some m) (hleave : a ≠ .leave)
    (hpoll : ∀ events, a ≠ .poll events) : Passes s i a m t := by
  obtain ⟨hen, hstep⟩ := hst
  have hsame : ∀ {u : Reactor ι κ ν}, u.loop = s.loop → u.connections i = s.connections i →
      Passes s i a m u := fun hl hconn =>
    hi.passes hm hconn (by rw [hl]) (hl ▸ List.Subset.refl _)
  cases a with
  | leave => exact absurd rfl hleave
  | poll events => exact absurd rfl (hpoll events)
  | handleEvent answers => exact hi.handleEvent_passes hen hstep hm
  | establish k ownerInLoop writeComplete highWater highWaterMark =>
    obtain ⟨conn, -, ht⟩ := bind_eq_ok.mp hstep
    cases ht
    refine hsame rfl (connections_setConnection_of_ne s _ ?_)
    rintro rfl
    cases hm.symm.trans hen.2
  | newConnection j sockfd k writeComplete highWater highWaterMark =>
    obtain ⟨u, hu, hrest⟩ := bind_eq_ok.mp hstep
    obtain ⟨conn, -, ht⟩ := bind_eq_ok.mp hrest
    cases ht
    obtain ⟨hl, hconn⟩ := clientStep_ok hu
    refine hsame hl ((connections_setConnection_of_ne u _ ?_).trans (by rw [hconn]))
    rintro rfl
    cases hm.symm.trans hen.2.1
  | removeConnectionInLoop k =>
    obtain ⟨m', hm', -⟩ := hen
    simp only [system, step, stepAt, Option.mem_def.mp hm'] at hstep
    obtain ⟨conn, hconn, ht⟩ := bind_eq_ok.mp hstep
    cases ht
    by_cases hi' : i = k
    · subst hi'
      obtain rfl : m' = m := Option.some.inj (hm'.symm.trans hm)
      have hkept := (TcpConnection.removeConnectionInLoop_keeps (l := .nothing)
        (hi.connections i m' hm).watched).of_ok hconn
      exact ⟨⟨_, connections_setConnection s i _, _, hkept, False.elim, False.elim⟩, rfl,
        List.Subset.refl _⟩
    · exact hsame rfl (connections_setConnection_of_ne s _ hi')
  | connection k a => exact hi.connection_passes hen hstep hm
  | client j a =>
    obtain ⟨hl, hconn⟩ := clientStep_ok hstep
    exact hsame hl (by rw [hconn])
  | connector j a =>
    obtain ⟨connector, -, ht⟩ := bind_eq_ok.mp hstep
    cases ht
    exact hsame rfl rfl
  | enableReading a =>
    obtain ⟨ch, -, ht⟩ := bind_eq_ok.mp hstep
    cases ht
    exact hsame rfl rfl

/-! ### Silence -/

/-- The connection is not reading, and does not wait with read events. -/
structure Silent (s : Reactor ι κ ν) (i : ι) : Prop where
  reading : ∃ m ∈ s.connections i, m.conn.channel.isReading = false
  waits : ¬ s.readWaits i

omit [DecidableEq ι] [DecidableEq κ] [DecidableEq ν] in
theorem messages_eq (hm : s.connections i = some m) :
    s.messages i = TcpConnection.messages m.conn.log := by
  unfold messages
  rw [hm]
  rfl

omit [DecidableEq ι] [DecidableEq κ] [DecidableEq ν] in
/-- A step at one point of the loop that does not start reading. -/
theorem Silent.passes {a : Action ι κ ν} (hs : Silent s i) (hm : s.connections i = some m)
    (h : Passes s i a m t) (hnot : ¬ s.startsReading i a) :
    Silent t i ∧ t.messages i = s.messages i := by
  obtain ⟨m', hm', l, hkept, hstarts, hreads⟩ := h.kept
  obtain ⟨m'', hm'', hreading⟩ := hs.reading
  cases hm.symm.trans hm''
  refine ⟨⟨⟨m', hm', ?_⟩, fun hwaits => hs.waits (h.readWaits hm hwaits)⟩, ?_⟩
  · exact hkept.reading (fun hl => hnot (hstarts hl)) hreading
  · rw [messages_eq hm', messages_eq hm]
    exact hkept.messages fun hl => hs.waits (hreads hl)

omit [DecidableEq ι] [DecidableEq κ] [DecidableEq ν] in
/-- The loop leaves its point. -/
theorem Silent.left (hs : Silent s i) (hdone : s.done s.loop.point) :
    Silent s.left i ∧ s.left.messages i = s.messages i := by
  obtain ⟨m, hm, hreading⟩ := hs.reading
  have hadvanced : (m.conn.advanced s.loop.point).channel.isReading = m.conn.channel.isReading ∧
      (m.conn.advanced s.loop.point).log = m.conn.log := by
    unfold TcpConnection.advanced
    split <;> exact ⟨rfl, rfl⟩
  have hleft : s.left.connections i =
      some { m with conn := m.conn.advanced s.loop.point } :=
    Option.map_eq_some_iff.mpr ⟨m, hm, rfl⟩
  refine ⟨⟨⟨_, hleft, hadvanced.1.trans hreading⟩, fun hwaits => ?_⟩, ?_⟩
  · exact leave_point hdone hwaits.1
  · rw [messages_eq hleft, messages_eq hm]
    exact congrArg TcpConnection.messages hadvanced.2

/-- The kernel reports no read events to it. -/
theorem Silent.polled {events : List (ChannelId ι κ ν × PollEvents)} (hi : Inv s)
    (hs : Silent s i)
    (hevents : ∀ e ∈ events, ∃ ch ∈ s.channel e.1, Reports ch.entry.interest e.2) :
    Silent (s.polled events) i ∧ (s.polled events).messages i = s.messages i := by
  obtain ⟨m, hm, hreading⟩ := hs.reading
  have hsound := hi.connections i m hm
  cases hlookup : events.lookup (.connection i) with
  | none =>
    have hsame : (s.polled events).connections i = some m := by
      refine Option.map_eq_some_iff.mpr ⟨m, hm, ?_⟩
      rw [hlookup]
    refine ⟨⟨⟨m, hsame, hreading⟩, fun hwaits => ?_⟩, ?_⟩
    · -- it is not among the reported channels
      obtain ⟨e, he, heq⟩ := List.mem_map.mp hwaits.2.1
      have hne := List.lookup_eq_none_iff.mp hlookup e he
      rw [heq] at hne
      simp at hne
    · rw [messages_eq hsame, messages_eq hm]
  | some revents =>
    have hreported : (s.polled events).connections i =
        some { m with conn := m.conn.reported revents } := by
      refine Option.map_eq_some_iff.mpr ⟨m, hm, ?_⟩
      rw [hlookup]
    refine ⟨⟨⟨_, hreported, hreading⟩, fun hwaits => ?_⟩, ?_⟩
    · obtain ⟨-, -, m', hm', hmeets⟩ := hwaits
      cases hreported.symm.trans hm'
      have hr := hsound.watched.reports (reports_of_lookup hevents hm hlookup)
      cases (TcpConnection.readMask_of_not_reading hsound.plain hreading hr.2).symm.trans hmeets
    · rw [messages_eq hreported, messages_eq hm]
      rfl

/-- **Silence lasts** until `startReadInLoop` runs. -/
theorem Silent.step {a : Action ι κ ν} (hi : Inv s) (hs : Silent s i)
    (hst : (system ι κ ν).Step s a t) (hnot : ¬ s.startsReading i a) :
    Silent t i ∧ t.messages i = s.messages i := by
  obtain ⟨m, hm, -⟩ := hs.reading
  by_cases hleave : a = .leave
  · subst hleave
    obtain rfl := Except.ok.inj hst.2
    exact hs.left hst.1.2
  · by_cases hpoll : ∃ events, a = .poll events
    · obtain ⟨events, rfl⟩ := hpoll
      obtain rfl := Except.ok.inj hst.2
      exact hs.polled hi hst.1.2.2.2
    · exact hs.passes hm (hi.step_passes hst hm hleave (not_exists.mp hpoll)) hnot

/-- `stopReadInLoop` silences a connection that does not wait with read events. -/
theorem silent_of_stop {a : Action ι κ ν} (hi : Inv s) (hst : (system ι κ ν).Step s a t)
    (hstop : s.stopsReading i a) (hwaits : ¬ s.readWaits i) : Silent t i := by
  cases a with
  | connection k a =>
    obtain ⟨rfl, m, hm, hstop⟩ := hstop
    have hpasses := hi.step_passes hst hm nofun nofun
    obtain ⟨-, -, hthis⟩ := connectionStep_ok hst.2
    obtain ⟨conn, hconn, ht⟩ := hthis m hm
    have hw := (TcpConnection.kept_placed (l := .nothing) (hi.connections k m hm).watched
      (s.loop.place (.connection k))).watched
    refine ⟨⟨_, ht, (TcpConnection.stopsReading_ends hw hstop).of_ok hconn⟩, fun h => ?_⟩
    exact hwaits (hpasses.readWaits hm h)
  | _ => exact hstop.elim

/-! ### The theorem -/

/-- **`stopRead()` stops the messages** of a connection that does not wait in
    `activeChannels_` with read events when `stopReadInLoop` runs: until `startReadInLoop`
    runs, its `messageCallback_` is not invoked, whatever is reported and whatever other
    callbacks do. -/
theorem stopRead_silences {a : Action ι κ ν} {as : List (Action ι κ ν)}
    (h : (system ι κ ν).Reachable s) (hst : (system ι κ ν).Step s a t)
    (hstop : s.stopsReading i a) (hwaits : ¬ s.readWaits i)
    (hrun : ((system ι κ ν).restrict fun s a => ¬ s.startsReading i a).Run t as u) :
    u.messages i = t.messages i := by
  have hsilent := silent_of_stop (reachable_inv h) hst hstop hwaits
  refine hrun.related (P := fun s => (system ι κ ν).Reachable s ∧ Silent s i)
    (R := fun s t => t.messages i = s.messages i) ?_ (fun _ => rfl)
    (fun _ _ _ h₁ h₂ => h₂.trans h₁) ?_ ⟨h.step hst, hsilent⟩
  · rintro s a t ⟨hr, hs⟩ hst
    exact ⟨hr.step hst.of_restrict, (hs.step (reachable_inv hr) hst.of_restrict hst.condition).1⟩
  · rintro s a t ⟨hr, hs⟩ hst
    exact (hs.step (reachable_inv hr) hst.of_restrict hst.condition).2

/-! ### Runs -/

/-- Two connections are reported to be readable. -/
def bothReadable (i k : Bool) : List (Action Bool Empty Empty) :=
  [.establish false true false false 64, .connection false (.callbackReturn (.bytes []) (.wrote 0)),
    .establish true true false false 64, .connection true (.callbackReturn (.bytes []) (.wrote 0)),
    .leave, .poll [(.connection i, { pollin := true }), (.connection k, { pollin := true })]]

/-- `handleEvent` of a channel whose socket has one byte. -/
def reads (b : UInt8) : Action Bool Empty Empty :=
  .handleEvent { noAnswers with read := .bytes [b] }

def stops : Action Bool Empty Empty := .connection true (.call .stopRead (.wrote 0))

set_option maxRecDepth 8000 in
/-- A connection stops reading in its own `messageCallback_`. -/
theorem stopRead_silences_self :
    ∃ s t u as, (system Bool Empty Empty).Reachable s ∧
      (system Bool Empty Empty).Step s stops t ∧
      ((system Bool Empty Empty).restrict fun s a => ¬ s.startsReading true a).Run t as u ∧
      u.messages true = t.messages true ∧ u.messages false = t.messages false + 1 := by
  obtain ⟨s, hexec, t, hst, hstop, hwaits, u, hrun, hother⟩ : ∃ s,
      (system Bool Empty Empty).exec new (bothReadable true false ++ [reads 7]) = some s ∧
      ∃ t, (system Bool Empty Empty).Step s stops t ∧ s.stopsReading true stops ∧
        ¬ s.readWaits true ∧
      ∃ u, ((system Bool Empty Empty).restrict fun s a => ¬ s.startsReading true a).Run t
        [.connection true (.callbackReturn (.bytes []) (.wrote 0)), reads 8] u ∧
        u.messages false = t.messages false + 1 :=
    ⟨_, rfl, _, ⟨by decide, rfl⟩, ⟨rfl, _, rfl, rfl⟩, by decide, _, run_of_exec rfl, rfl⟩
  have hs : (system Bool Empty Empty).Reachable s := reachable_of_exec _ rfl hexec
  exact ⟨s, t, u, _, hs, hst, hrun, stopRead_silences hs hst hstop hwaits hrun, hother⟩

set_option maxRecDepth 8000 in
/-- **A message after `stopRead()`**: the callback of one connection stops another one that
    is still waiting in `activeChannels_`; it is then read. -/
theorem stopRead_message :
    ∃ s t u as, (system Bool Empty Empty).Reachable s ∧
      (system Bool Empty Empty).Step s stops t ∧ s.stopsReading true stops ∧
      ((system Bool Empty Empty).restrict fun s a => ¬ s.startsReading true a).Run t as u ∧
      u.messages true = t.messages true + 1 := by
  obtain ⟨s, hexec, t, hst, hstop, u, hrun, hmessage⟩ : ∃ s,
      (system Bool Empty Empty).exec new (bothReadable false true ++ [reads 7]) = some s ∧
      ∃ t, (system Bool Empty Empty).Step s stops t ∧ s.stopsReading true stops ∧
      ∃ u, ((system Bool Empty Empty).restrict fun s a => ¬ s.startsReading true a).Run t
        [.connection false (.callbackReturn (.bytes []) (.wrote 0)), reads 8] u ∧
        u.messages true = t.messages true + 1 :=
    ⟨_, rfl, _, ⟨by decide, rfl⟩, ⟨rfl, _, rfl, rfl⟩, _, run_of_exec rfl, rfl⟩
  exact ⟨s, t, u, _, reachable_of_exec _ rfl hexec, hst, hstop, hrun, hmessage⟩

end Reactor

end Kaycc
