/-
  Kaycc/ReactorStopReadExact.lean
  ===============================
  **A connection that waits with read events is read.**

  Nothing takes a channel out of `activeChannels_` but the loop when it calls its
  `handleEvent`.  So after a `stopReadInLoop` that finds the connection waiting with
  read events, it is enough that user code returns: the callbacks that are under way
  return, the channels before it are handled, and then the `messageCallback_` is
  invoked, unless an assertion of one of these objects fails first.

  The objects are any number, but only finitely many are in use; the stretches of
  this run go through them one after the other.
-/
import Kaycc.ReactorStopRead
import Mathlib.Data.Set.Finite.Basic

namespace Kaycc

open Transition Transition.System Postcondition
open TcpConnection (Point readMask)

/-! ### Callbacks that return -/

namespace TcpConnection

variable {c c' : TcpConnection} {errno errno' : Errno}

theorem writePart_failed (h : c.writePart (.failed errno) = .ok c') : c'.frames = c.frames := by
  have hwrite : ∀ d, c.handleWrite (.failed errno) = .ok d → d.frames = c.frames := by
    intro d hd
    unfold handleWrite at hd
    split at hd <;>
    · obtain rfl := Except.ok.inj hd
      rfl
  unfold writePart at h
  split at h
  · obtain ⟨d, hd, hc⟩ := bind_eq_ok.mp h
    obtain rfl := Except.ok.inj hc
    exact hwrite d hd
  · obtain rfl := Except.ok.inj h
    rfl

/-- Without data the rest of the handling calls nothing. -/
theorem closeReturn_failed {resume : Resume}
    (h : c.closeReturn (.failed errno) (.failed errno') resume = .ok c') :
    c'.frames = c.frames := by
  cases resume with
  | functor =>
    obtain rfl := Except.ok.inj h
    rfl
  | errorPart =>
    change c.errorPart (.failed errno) (.failed errno') = .ok c' at h
    unfold errorPart at h
    split at h <;> exact writePart_failed h
  | writePart => exact writePart_failed h

theorem callbackReturn_failed {frame : Frame} {rest : List Frame}
    (hframes : c.frames = frame :: rest)
    (h : c.callbackReturn (.failed errno) (.failed errno') = .ok c') : c'.frames = rest := by
  simp only [callbackReturn, hframes] at h
  cases frame with
  | connectEstablished =>
    obtain rfl := Except.ok.inj h
    rfl
  | handleRead => exact writePart_failed h
  | handleClose resume =>
    obtain ⟨d, hd, h⟩ := bind_eq_ok.mp h
    exact (closeReturn_failed h).trans (callCloseCallback_ends.of_ok hd).2.2.1
  | connectDestroyed =>
    obtain ⟨ch, -, h⟩ := bind_eq_ok.mp h
    obtain rfl := Except.ok.inj h
    rfl

end TcpConnection

namespace Reactor

variable {ι κ ν : Type} {s t : Reactor ι κ ν} {i : ι} {j : κ} {m : Member κ}

/-! ### What is in use -/

/-- Finitely many connections and Connectors are in use. -/
structure Finitely (s : Reactor ι κ ν) : Prop where
  connections : {i | s.connections i ≠ none}.Finite
  connectors : {j | (s.clients j).connector.point ≠ .idle}.Finite

/-- A step touches finitely many objects. -/
structure Touches (s t : Reactor ι κ ν) : Prop where
  connections : {i | s.connections i = none ∧ t.connections i ≠ none}.Finite
  clients : {j | t.clients j ≠ s.clients j}.Finite

theorem Finitely.touched (hf : Finitely s) (h : Touches s t) : Finitely t where
  connections := by
    refine (hf.connections.union h.connections).subset fun i hi => ?_
    by_cases hnone : s.connections i = none
    · exact .inr ⟨hnone, hi⟩
    · exact .inl hnone
  connectors := by
    refine (hf.connectors.union h.clients).subset fun j hj => ?_
    by_cases hsame : t.clients j = s.clients j
    · left
      change (t.clients j).connector.point ≠ .idle at hj
      rw [hsame] at hj
      exact hj
    · exact .inr hsame

theorem touches_of_none (hconn : ∀ i, s.connections i = none → t.connections i = none)
    (hclients : t.clients = s.clients) : Touches s t where
  connections := by
    refine Set.finite_empty.subset fun i hi => ?_
    exact hi.2 (hconn i hi.1)
  clients := by
    refine Set.finite_empty.subset fun j hj => ?_
    exact hj (congrFun hclients j)

theorem Touches.trans {u : Reactor ι κ ν} (h₁ : Touches s t) (h₂ : Touches t u) :
    Touches s u where
  connections := by
    refine (h₁.connections.union h₂.connections).subset fun i hi => ?_
    by_cases hnone : t.connections i = none
    · exact .inr ⟨hnone, hi.2⟩
    · exact .inl ⟨hi.1, hnone⟩
  clients := by
    refine (h₁.clients.union h₂.clients).subset fun j hj => ?_
    by_cases hsame : t.clients j = s.clients j
    · right
      change u.clients j ≠ t.clients j
      rw [hsame]
      exact hj
    · exact .inl hsame

variable [DecidableEq ι] [DecidableEq κ] [DecidableEq ν] {place : Places ι κ ν}

omit [DecidableEq ι] [DecidableEq ν] in
theorem clientStep_others {a : TcpClient.Action} (h : s.clientStep place j a = .ok t) {j' : κ}
    (hj : j' ≠ j) : t.clients j' = s.clients j' := by
  obtain ⟨client, -, ht⟩ := bind_eq_ok.mp h
  cases ht
  exact clients_setClient_of_ne s client hj

omit [DecidableEq ι] [DecidableEq ν] in
theorem clientStep_touches {a : TcpClient.Action} (h : s.clientStep place j a = .ok t) :
    Touches s t where
  connections := by
    refine Set.finite_empty.subset fun i hi => ?_
    obtain ⟨hnone, hsome⟩ := hi
    rw [(clientStep_ok h).2] at hsome
    exact hsome hnone
  clients := by
    refine (Set.finite_singleton j).subset fun j' hj => ?_
    by_contra hne
    exact hj (clientStep_others h hne)

omit [DecidableEq ν] in
theorem connectionStep_touches {k : ι} {a : TcpConnection.Action}
    (h : s.connectionStep place k a = .ok t) : Touches s t := by
  unfold connectionStep at h
  split at h
  · obtain rfl := Except.ok.inj h
    exact touches_of_none (fun _ => id) rfl
  · rename_i m hm
    obtain ⟨conn, -, hrest⟩ := bind_eq_ok.mp h
    have hset : ∀ i, s.connections i = none →
        (s.setConnection k { m with conn := conn }).connections i = none := by
      intro i hi
      have hne : i ≠ k := by
        rintro rfl
        cases hm.symm.trans hi
      rw [connections_setConnection_of_ne s _ hne]
      exact hi
    have hsame : Touches s (s.setConnection k { m with conn := conn }) := touches_of_none hset rfl
    split at hrest
    · obtain rfl := Except.ok.inj hrest
      exact hsame
    · split at hrest
      · have htouches := clientStep_touches hrest
        refine ⟨hsame.connections.subset fun i hi => ⟨hi.1, ?_⟩, htouches.clients⟩
        rw [← (clientStep_ok hrest).2]
        exact hi.2
      · obtain rfl := Except.ok.inj hrest
        exact hsame

omit [DecidableEq κ] [DecidableEq ν] in
theorem touches_setConnection (s : Reactor ι κ ν) (k : ι) (m : Member κ) :
    Touches s (s.setConnection k m) where
  connections := by
    refine (Set.finite_singleton k).subset fun i hi => ?_
    by_contra hne
    apply hi.2
    rw [connections_setConnection_of_ne s m hne]
    exact hi.1
  clients := by
    refine Set.finite_empty.subset fun j hj => ?_
    exact hj rfl

theorem step_touches {a : Action ι κ ν} (h : s.step a = .ok t) : Touches s t := by
  cases a with
  | leave =>
    obtain rfl := Except.ok.inj h
    exact touches_of_none (fun _ => Option.map_eq_none_iff.mpr) rfl
  | poll events =>
    obtain rfl := Except.ok.inj h
    exact touches_of_none (fun _ => Option.map_eq_none_iff.mpr) rfl
  | handleEvent answers =>
    simp only [step, stepAt] at h
    split at h
    · obtain rfl := Except.ok.inj h
      exact touches_of_none (fun _ => id) rfl
    · rename_i id hid
      cases id with
      | connection k =>
        have ht := connectionStep_touches (s := { s with loop := s.loop.forward }) h
        exact ⟨ht.connections, ht.clients⟩
      | connector j sockfd =>
        have ht := clientStep_touches (s := { s with loop := s.loop.forward }) h
        exact ⟨ht.connections, ht.clients⟩
      | other a =>
        obtain rfl := Except.ok.inj h
        exact touches_of_none (fun _ => id) rfl
  | establish k ownerInLoop writeComplete highWater highWaterMark =>
    obtain ⟨conn, -, ht⟩ := bind_eq_ok.mp h
    cases ht
    exact touches_setConnection s k _
  | newConnection j sockfd k writeComplete highWater highWaterMark =>
    obtain ⟨u, hu, hrest⟩ := bind_eq_ok.mp h
    obtain ⟨conn, -, ht⟩ := bind_eq_ok.mp hrest
    cases ht
    exact (clientStep_touches hu).trans (touches_setConnection u k _)
  | removeConnectionInLoop k =>
    simp only [step, stepAt] at h
    split at h
    · obtain rfl := Except.ok.inj h
      exact touches_of_none (fun _ => id) rfl
    · obtain ⟨conn, -, ht⟩ := bind_eq_ok.mp h
      cases ht
      exact touches_setConnection s k _
  | connection k a => exact connectionStep_touches h
  | client j a => exact clientStep_touches h
  | connector j a =>
    obtain ⟨connector, -, ht⟩ := bind_eq_ok.mp h
    cases ht
    refine ⟨Set.finite_empty.subset fun i hi => hi.2 hi.1, ?_⟩
    refine (Set.finite_singleton j).subset fun j' hj => ?_
    by_contra hne
    exact hj (clients_setClient_of_ne s _ hne)
  | enableReading a =>
    obtain ⟨ch, -, ht⟩ := bind_eq_ok.mp h
    cases ht
    exact touches_of_none (fun _ => id) rfl

theorem reachable_finitely (h : (system ι κ ν).Reachable s) : Finitely s := by
  apply h.invariant
  · rintro _ rfl
    refine ⟨Set.finite_empty.subset fun i hi => hi rfl, ?_⟩
    exact Set.finite_empty.subset fun j hj => hj rfl
  · intro s a t hf hst
    exact hf.touched (step_touches hst.2)

/-! ### The loop's thread goes on -/

/-- What the loop's thread does when user code does nothing but return. -/
def goesOn : Action ι κ ν → Prop
  | .handleEvent _ => True
  | .connection _ (.callbackReturn _ _) => True
  | .client _ (.connector .startInLoop) => True
  | .client _ (.connector (.connectReturned _ _)) => True
  | .connector _ (.newConnection _) => True
  | _ => False

omit [DecidableEq ι] [DecidableEq κ] [DecidableEq ν] in
theorem not_starts_of_goesOn {a : Action ι κ ν} (h : goesOn a) : ¬ s.startsReading i a := by
  intro hstarts
  cases a with
  | connection k a =>
    obtain ⟨-, m, -, hstarts⟩ := hstarts
    cases a with
    | callbackReturn r w => exact hstarts
    | _ => exact h
  | _ => exact hstarts

/-- The step is the `handleEvent` of the connection. -/
def handles (s : Reactor ι κ ν) (i : ι) : Action ι κ ν → Prop
  | .handleEvent _ => s.loop.waiting.head? = some (.connection i)
  | _ => False

/-- The loop goes on until it comes to the connection. -/
def returning (i : ι) : System (Reactor ι κ ν) (Action ι κ ν) Assertion :=
  (system ι κ ν).restrict fun s a => goesOn a ∧ ¬ s.handles i a

/-- The connection waits with read events. -/
structure Waits (i : ι) (s : Reactor ι κ ν) : Prop where
  inv : Inv s
  finitely : Finitely s
  waits : s.readWaits i

theorem handleEvent_loop {answers : Answers} (h : s.step (.handleEvent answers) = .ok t) :
    t.loop = s.loop.forward := by
  simp only [step, stepAt] at h
  split at h
  · obtain rfl := Except.ok.inj h
    rfl
  · rename_i id hid
    cases id with
    | connection k => exact (connectionStep_ok h).1
    | connector j sockfd => exact (clientStep_ok h).1
    | other a =>
      obtain rfl := Except.ok.inj h
      rfl

theorem step_loop {a : Action ι κ ν} (h : s.step a = .ok t) (hleave : a ≠ .leave)
    (hpoll : ∀ events, a ≠ .poll events) (hevent : ∀ answers, a ≠ .handleEvent answers) :
    t.loop = s.loop := by
  cases a with
  | leave => exact absurd rfl hleave
  | poll events => exact absurd rfl (hpoll events)
  | handleEvent answers => exact absurd rfl (hevent answers)
  | establish k ownerInLoop writeComplete highWater highWaterMark =>
    obtain ⟨conn, -, ht⟩ := bind_eq_ok.mp h
    cases ht
    rfl
  | newConnection j sockfd k writeComplete highWater highWaterMark =>
    obtain ⟨u, hu, hrest⟩ := bind_eq_ok.mp h
    obtain ⟨conn, -, ht⟩ := bind_eq_ok.mp hrest
    cases ht
    exact (clientStep_ok hu).1
  | removeConnectionInLoop k =>
    simp only [step, stepAt] at h
    split at h
    · obtain rfl := Except.ok.inj h
      rfl
    · obtain ⟨conn, -, ht⟩ := bind_eq_ok.mp h
      cases ht
      rfl
  | connection k a => exact (connectionStep_ok h).1
  | client j a => exact (clientStep_ok h).1
  | connector j a =>
    obtain ⟨connector, -, ht⟩ := bind_eq_ok.mp h
    cases ht
    rfl
  | enableReading a =>
    obtain ⟨ch, -, ht⟩ := bind_eq_ok.mp h
    cases ht
    rfl

/-- **It waits until the loop comes to it**: the loop does not leave the events, and only
    `handleEvent` goes on in `activeChannels_`. -/
theorem Waits.step {a : Action ι κ ν} (hw : Waits i s) (hst : (system ι κ ν).Step s a t)
    (hnot : ¬ s.handles i a) : Waits i t := by
  obtain ⟨hpoint, hwaiting, m, hm, hmeets⟩ := hw.waits
  have hleave : a ≠ .leave := by
    rintro rfl
    have hdone := hst.1.2
    rw [hpoint] at hdone
    rw [show s.loop.waiting = [] from hdone] at hwaiting
    cases hwaiting
  have hpoll : ∀ events, a ≠ .poll events := by
    rintro events rfl
    cases hpoint.symm.trans hst.1.1
  have hpasses := hw.inv.step_passes hst hm hleave hpoll
  obtain ⟨m', hm', l, hkept, -⟩ := hpasses.kept
  refine ⟨((stepAt_ends hw.inv place_honest hst.1).of_ok hst.2).1,
    hw.finitely.touched (step_touches hst.2), hpasses.point.trans hpoint, ?_, m', hm', ?_⟩
  · by_cases hevent : ∃ answers, a = .handleEvent answers
    · obtain ⟨answers, rfl⟩ := hevent
      rw [handleEvent_loop hst.2, Dispatch.waiting_forward]
      cases hcons : s.loop.waiting with
      | nil =>
        rw [hcons] at hwaiting
        cases hwaiting
      | cons id rest =>
        rw [hcons] at hwaiting
        refine (List.mem_cons.mp hwaiting).resolve_left fun heq => hnot ?_
        change s.loop.waiting.head? = _
        rw [hcons, heq, List.head?_cons]
    · rw [step_loop hst.2 hleave hpoll (not_exists.mp hevent)]
      exact hwaiting
  · rw [hkept.revents]
    exact hmeets

theorem Waits.kept : ∀ (s : Reactor ι κ ν) a t, Waits i s → (returning i).Step s a t →
    Waits i t :=
  fun _ _ _ hw hst => hw.step hst.of_restrict hst.condition.2

omit [DecidableEq ι] [DecidableEq κ] [DecidableEq ν] in
theorem Waits.not_polling (hw : Waits i s) : s.loop.point ≠ .polling := by
  intro hpolling
  cases hw.waits.1.symm.trans hpolling

/-! ### The Connectors return -/

/-- `t` is `s` but for one Connector. -/
structure OnlyConnector (s t : Reactor ι κ ν) (j : κ) : Prop where
  loop : t.loop = s.loop
  connections : t.connections = s.connections
  others : ∀ j', j' ≠ j → t.clients j' = s.clients j'

omit [DecidableEq ι] [DecidableEq κ] [DecidableEq ν] in
theorem OnlyConnector.trans {u : Reactor ι κ ν} (h₁ : OnlyConnector s t j)
    (h₂ : OnlyConnector t u j) : OnlyConnector s u j where
  loop := h₂.loop.trans h₁.loop
  connections := h₂.connections.trans h₁.connections
  others j' hj := (h₂.others j' hj).trans (h₁.others j' hj)

/-- A step of a client's Connector that makes no connection. -/
theorem connector_returns {act : Connector.Action}
    (hact : act = .startInLoop ∨ ∃ sockfd errno, act = .connectReturned sockfd errno)
    (h : s.step (.client j (.connector act)) = .ok t) :
    OnlyConnector s t j ∧
      ((s.clients j).connector.placed fun sockfd => s.loop.place (.connector j sockfd)).step act =
        .ok (t.clients j).connector := by
  obtain ⟨hloop, hconn⟩ := clientStep_ok h
  refine ⟨⟨hloop, hconn, fun j' hj => clientStep_others h hj⟩, ?_⟩
  obtain ⟨client, hclient, ht⟩ := bind_eq_ok.mp h
  cases ht
  obtain ⟨connector, hconnector, hc⟩ := bind_eq_ok.mp hclient
  rw [clients_setClient]
  rcases hact with rfl | ⟨sockfd, errno, rfl⟩ <;>
  · obtain rfl := Except.ok.inj hc
    exact hconnector

theorem leads_connectReturned {sockfd : Nat} (hw : Waits i s)
    (hpoint : (s.clients j).connector.point = .inConnect sockfd) :
    (returning i).Leads s fun t =>
      OnlyConnector s t j ∧ (t.clients j).connector.point = .idle := by
  refine .step (.client j (.connector (.connectReturned sockfd .EACCES)))
    ⟨⟨⟨rfl, hw.not_polling⟩, rfl, hpoint⟩, trivial, id⟩ fun t ht => .here ?_
  obtain ⟨honly, hstep⟩ := connector_returns (.inr ⟨sockfd, .EACCES, rfl⟩) ht
  exact ⟨honly, congrArg Connector.point (Except.ok.inj hstep).symm⟩

theorem startInLoop_point {c c' : Connector} (h : c.startInLoop = .ok c') :
    c'.point = .idle ∨ ∃ sockfd, c'.point = .inConnect sockfd := by
  obtain ⟨_, -, h⟩ := bind_eq_ok.mp h
  split at h
  · obtain rfl := Except.ok.inj h
    exact .inr ⟨c.opened, rfl⟩
  · obtain rfl := Except.ok.inj h
    exact .inl rfl

/-- One Connector returns from what it is doing. -/
theorem leads_connector (hw : Waits i s) (j : κ) :
    (returning i).Leads s fun t =>
      OnlyConnector s t j ∧ (t.clients j).connector.point = .idle := by
  cases hpoint : (s.clients j).connector.point with
  | idle => exact .here ⟨⟨rfl, rfl, fun _ _ => rfl⟩, hpoint⟩
  | startInLoop =>
    have hen : (returning i).enabled s (.client j (.connector .startInLoop)) :=
      ⟨⟨⟨rfl, hw.not_polling⟩, rfl, hpoint⟩, trivial, id⟩
    refine .step _ hen fun t ht => ?_
    have hw' : Waits i t := Waits.kept s _ t hw ⟨hen, ht⟩
    obtain ⟨honly, hstep⟩ := connector_returns (.inl rfl) ht
    rcases startInLoop_point hstep with hidle | ⟨sockfd, hin⟩
    · exact .here ⟨honly, hidle⟩
    · exact (leads_connectReturned hw' hin).mono fun u hu => ⟨honly.trans hu.1, hu.2⟩
  | inConnect sockfd => exact leads_connectReturned hw hpoint
  | newConnection sockfd =>
    refine .step (.connector j (.newConnection sockfd))
      ⟨⟨rfl, hw.not_polling, hpoint⟩, trivial, id⟩ fun t ht => .here ?_
    obtain ⟨connector, hconnector, h⟩ := bind_eq_ok.mp ht
    obtain rfl := Except.ok.inj hconnector
    obtain rfl := Except.ok.inj h
    refine ⟨⟨rfl, rfl, fun j' hj => clients_setClient_of_ne s _ hj⟩, ?_⟩
    rw [clients_setClient]

/-- Every Connector is idle, and the loop and the connections are as before. -/
structure Idle (s t : Reactor ι κ ν) : Prop where
  loop : t.loop = s.loop
  connections : t.connections = s.connections
  idle : ∀ j, (t.clients j).connector.point = .idle

theorem leads_idle_of (js : Finset κ) (hw : Waits i s)
    (hall : ∀ j, (s.clients j).connector.point ≠ .idle → j ∈ js) :
    (returning i).Leads s (Idle s) := by
  induction js using Finset.induction_on generalizing s with
  | empty =>
    refine .here ⟨rfl, rfl, fun j => ?_⟩
    by_contra hne
    exact Finset.notMem_empty j (hall j hne)
  | insert j js _ ih =>
    refine (leads_connector hw j).bind Waits.kept hw fun t hw' ⟨honly, hidle⟩ => ?_
    have hrest : ∀ j', (t.clients j').connector.point ≠ .idle → j' ∈ js := by
      intro j' hne
      have hj : j' ≠ j := by
        rintro rfl
        exact hne hidle
      rw [honly.others j' hj] at hne
      exact (Finset.mem_insert.mp (hall j' hne)).resolve_left hj
    refine (ih hw' hrest).mono fun u hu => ?_
    exact ⟨hu.loop.trans honly.loop, hu.connections.trans honly.connections, hu.idle⟩

theorem leads_idle (hw : Waits i s) : (returning i).Leads s (Idle s) :=
  leads_idle_of hw.finitely.connectors.toFinset hw fun _ hj =>
    (Set.Finite.mem_toFinset _).mpr hj

/-! ### The connections return -/

/-- The callbacks of a connection that have not returned. -/
def frames (s : Reactor ι κ ν) (k : ι) : List TcpConnection.Frame :=
  ((s.connections k).map fun m => m.conn.frames).getD []

omit [DecidableEq ι] [DecidableEq κ] [DecidableEq ν] in
theorem frames_eq (hm : s.connections i = some m) : s.frames i = m.conn.frames := by
  unfold frames
  rw [hm]
  rfl

/-- The callbacks of one connection return. -/
theorem leads_returned (k : ι) (n : Nat) (hw : Waits i s) (hn : (s.frames k).length = n) :
    (returning i).Leads s fun t =>
      t.loop = s.loop ∧ t.frames k = [] ∧ ∀ k', k' ≠ k → t.frames k' = s.frames k' := by
  induction n generalizing s with
  | zero => exact .here ⟨rfl, List.length_eq_zero_iff.mp hn, fun _ _ => rfl⟩
  | succ n ih =>
    refine (leads_idle hw).bind Waits.kept hw fun t hw' hidle => ?_
    have hsame : t.frames = s.frames := by
      unfold frames
      rw [hidle.connections]
    cases hm : t.connections k with
    | none =>
      have hnil : t.frames k = [] := by
        unfold frames
        rw [hm]
        rfl
      rw [← hsame, hnil] at hn
      cases hn
    | some m =>
      rw [← hsame, frames_eq hm] at hn
      obtain ⟨frame, rest, hframes⟩ := List.exists_cons_of_length_eq_add_one hn
      have hne : m.conn.frames ≠ [] := List.ne_nil_of_length_eq_add_one hn
      have hen : (returning i).enabled t
          (.connection k (.callbackReturn (.failed .EWOULDBLOCK) (.failed .EWOULDBLOCK))) :=
        ⟨⟨rfl, m, hm, ⟨hne, trivial, trivial⟩, fun _ owner _ => hidle.idle owner.1⟩, trivial, id⟩
      refine .step _ hen fun u hu => ?_
      have hw'' : Waits i u := Waits.kept t _ u hw' ⟨hen, hu⟩
      obtain ⟨hloop, hothers, hthis⟩ := connectionStep_ok hu
      obtain ⟨conn, hconn, hset⟩ := hthis m hm
      have hrest : u.frames k = rest := by
        rw [frames_eq hset]
        exact TcpConnection.callbackReturn_failed
          (c := m.conn.placed (t.loop.place (.connection k))) hframes hconn
      have hlen : (u.frames k).length = n := by
        rw [hrest]
        rw [hframes] at hn
        exact Nat.succ.inj hn
      refine (ih hw'' hlen).mono fun v ⟨hl, hnil, hv⟩ => ⟨?_, hnil, fun k' hk => ?_⟩
      · exact hl.trans (hloop.trans hidle.loop)
      · rw [hv k' hk, ← hsame]
        unfold frames
        rw [hothers k' hk]

theorem leads_drained (ks : Finset ι) (hw : Waits i s) (hall : ∀ k, s.frames k ≠ [] → k ∈ ks) :
    (returning i).Leads s fun t => t.loop = s.loop ∧ ∀ k, t.frames k = [] := by
  induction ks using Finset.induction_on generalizing s with
  | empty =>
    refine .here ⟨rfl, fun k => ?_⟩
    by_contra hne
    exact Finset.notMem_empty k (hall k hne)
  | insert k ks _ ih =>
    refine (leads_returned k _ hw rfl).bind Waits.kept hw fun t hw' ⟨hloop, hnil, hothers⟩ => ?_
    have hrest : ∀ k', t.frames k' ≠ [] → k' ∈ ks := by
      intro k' hne
      have hk : k' ≠ k := by
        rintro rfl
        exact hne hnil
      rw [hothers k' hk] at hne
      exact (Finset.mem_insert.mp (hall k' hne)).resolve_left hk
    exact (ih hw' hrest).mono fun u hu => ⟨hu.1.trans hloop, hu.2⟩

/-- **All functions that the loop's thread has called return.** -/
theorem leads_rests (hw : Waits i s) :
    (returning i).Leads s fun t => t.loop = s.loop ∧ t.rests := by
  have hall : ∀ k, s.frames k ≠ [] → k ∈ hw.finitely.connections.toFinset := by
    intro k hne
    refine (Set.Finite.mem_toFinset _).mpr fun hnone => hne ?_
    unfold frames
    rw [hnone]
    rfl
  refine (leads_drained _ hw hall).bind Waits.kept hw fun t hw' ⟨hloop, hnil⟩ => ?_
  refine (leads_idle hw').mono fun u hu => ⟨hu.loop.trans hloop, fun k m hm => ?_, hu.idle⟩
  rw [hu.connections] at hm
  exact (frames_eq hm).symm.trans (hnil k)

/-! ### The loop comes to the connection -/

/-- Nothing is read or written. -/
def wouldBlock : Answers :=
  ⟨.failed .EWOULDBLOCK, .failed .EWOULDBLOCK, false, false, false, false⟩

theorem leads_turn (n : Nat) (hw : Waits i s) (hn : s.loop.waiting.length = n) :
    (returning i).Leads s fun t =>
      t.rests ∧ t.loop.waiting.head? = some (.connection i) := by
  induction n generalizing s with
  | zero =>
    have hnil := List.length_eq_zero_iff.mp hn
    have hmem := hw.waits.2.1
    rw [hnil] at hmem
    cases hmem
  | succ n ih =>
    refine (leads_rests hw).bind Waits.kept hw fun t hw' ⟨hloop, hrests⟩ => ?_
    by_cases hhead : t.loop.waiting.head? = some (.connection i)
    · exact .here ⟨hrests, hhead⟩
    · have hfit : ∀ id, t.answersFit wouldBlock id := by
        intro id
        cases id with
        | connection k => exact fun m _ => ⟨trivial, trivial⟩
        | connector j sockfd => exact trivial
        | other a => exact trivial
      have hne : t.loop.waiting ≠ [] := List.ne_nil_of_mem hw'.waits.2.1
      have hen : (returning i).enabled t (.handleEvent wouldBlock) :=
        ⟨⟨hw'.waits.1, hrests, hne, fun id _ => hfit id⟩, trivial, hhead⟩
      refine .step _ hen fun u hu => ?_
      have hw'' : Waits i u := Waits.kept t _ u hw' ⟨hen, hu⟩
      refine ih hw'' ?_
      rw [handleEvent_loop hu, Dispatch.waiting_forward, hloop, List.length_tail, hn]
      rfl

/-- When the loop comes to the connection, `messageCallback_` is invoked if there is something
    to read, whether or not `stopReadInLoop` has run. -/
theorem readWaits_delivers (hw : Waits i s) (hrests : s.rests)
    (hnext : s.loop.waiting.head? = some (.connection i)) :
    ∃ answers t, (system ι κ ν).Step s (.handleEvent answers) t ∧
      t.messages i = s.messages i + 1 := by
  obtain ⟨hpoint, hwaiting, m, hm, hmeets⟩ := hw.waits
  have hsound := hw.inv.connections i m hm
  have hup : ¬ m.conn.hangsUp := fun hup => by
    cases (hsound.hangUp hup).symm.trans hmeets
  obtain ⟨conn, hconn, hmessages⟩ := TcpConnection.handleEvent_reads
    (c := m.conn.placed (s.loop.forward.place (.connection i))) [0] (.wrote 0)
    Nat.zero_lt_one hmeets hup
  have hfits : 1 ≤ m.conn.inputBuffer.readCapacity := by
    unfold Buffer.readCapacity Buffer.extrabufSize
    split <;> omega
  have hne : s.loop.waiting ≠ [] := List.ne_nil_of_mem hwaiting
  have hstep : s.step (.handleEvent ⟨.bytes [0], .wrote 0, false, false, false, false⟩) =
      .ok (({ s with loop := s.loop.forward } : Reactor ι κ ν).setConnection i
        { m with conn := conn }) := by
    simp only [step, stepAt, hnext, handleEvent, connectionStep, Option.mem_def.mp hm]
    refine bind_eq_ok.mpr ⟨conn, hconn, ?_⟩
    cases m.client with
    | none => rfl
    | some owner => rfl
  refine ⟨_, _, ⟨⟨hpoint, hrests, hne, fun id hid => ?_⟩, hstep⟩, ?_⟩
  · cases hnext.symm.trans hid
    intro m' hm'
    cases hm.symm.trans hm'
    exact ⟨hfits, Nat.zero_le _⟩
  · rw [messages_eq (connections_setConnection _ i _), messages_eq hm]
    exact hmessages

/-! ### The condition is exact -/

/-- **Every `stopReadInLoop` outside the condition may be followed by a message.**  When user
    code does nothing any more but return, the loop comes to the connection, whose
    `messageCallback_` is then invoked; unless an assertion fails before, in a callback that
    returns or in the `handleEvent` of another channel. -/
theorem readWaits_exact {a : Action ι κ ν} (h : (system ι κ ν).Reachable s)
    (hst : (system ι κ ν).Step s a t) (hstop : s.stopsReading i a) (hwaits : s.readWaits i) :
    ∃ as u, ((system ι κ ν).restrict fun s a => goesOn a ∧ ¬ s.startsReading i a).Run t as u ∧
      ((∃ answers v, (system ι κ ν).Step u (.handleEvent answers) v ∧
          v.messages i = u.messages i + 1) ∨
        ∃ a e, goesOn a ∧ ¬ u.handles i a ∧ (system ι κ ν).enabled u a ∧ u.step a = .error e) := by
  have hw : Waits i s := ⟨reachable_inv h, reachable_finitely h, hwaits⟩
  have hnot : ¬ s.handles i a := by
    intro hhandles
    cases a with
    | handleEvent answers => exact hstop
    | _ => exact hhandles
  have hw' : Waits i t := hw.step hst hnot
  obtain ⟨as, u, hrun, hend⟩ := leads_turn _ hw' rfl
  refine ⟨as, u, hrun.restrict_mono fun _ _ hc => ⟨hc.1, not_starts_of_goesOn hc.1⟩, ?_⟩
  rcases hend with ⟨hrests, hnext⟩ | ⟨b, e, hen, herror⟩
  · exact .inl (readWaits_delivers (hrun.preserves Waits.kept hw') hrests hnext)
  · exact .inr ⟨b, e, hen.2.1, hen.2.2, hen.1, herror⟩

end Reactor

end Kaycc
