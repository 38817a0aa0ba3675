/-
  Kaycc/TcpConnectionClosed.lean
  ==============================
  **A disconnected connection is quiet.**

  The runs are those of one connection with its loop and its holders; its server
  removes it, or is destroyed, in the same loop or in another one.

  The code tests `state_` in `sendInLoop` and in `forceCloseInLoop`, and nowhere
  else.  So a disconnected connection can be started to be read; its `state_` can
  be set by a call that tested it before; and a change of its events to none
  again, like a closing when there are none, puts its fd back into the interest
  set with an empty mask, under which a hang-up is reported and `handleClose` runs
  into its assertion.  In the runs that do none of this `kDisconnected` is final.
-/
import Kaycc.TcpConnectionStep
import Kaycc.Transition

namespace Kaycc

open Transition Transition.System TcpConnection

/-- A connection and the point of its loop. -/
structure Closing where
  conn : TcpConnection
  point : Point

namespace Closing

variable {s s' : Closing} {point : Point} {c c' : TcpConnection}

inductive Action where
  | conn (a : TcpConnection.Action)
  | advance
  | removeConnectionInLoop
  | destroyServer

def step (s : Closing) : Action → Except Assertion Closing
  | .conn a => do
      let conn ← s.conn.step a
      pure { s with conn := conn }
  | .advance => .ok ⟨s.conn.advanced s.point, s.point.next⟩
  | .removeConnectionInLoop => do
      let conn ← ({ s.conn with removals := s.conn.removals - 1 }).removeConnectionInLoop
      pure { s with conn := conn }
  | .destroyServer => do
      let conn ← (if s.conn.tracked = true then s.conn.release else .ok s.conn)
      pure { s with conn := { conn with serverDestroyed := true } }

/-- The server acts on its own loop's thread. -/
def enabled (s : Closing) : Action → Prop
  | .conn a => s.conn.enabled s.point a
  | .advance => s.conn.rests s.point
  | .removeConnectionInLoop => s.conn.ownerInLoop = false ∧ 0 < s.conn.removals
  | .destroyServer => s.conn.serverDestroyed = false ∧
      (s.conn.ownerInLoop = true → s.point ≠ .polling)

/-- The runs start in the `connectionCallback_` of `connectEstablished`. -/
def system : System Closing Action Assertion where
  init s := ∃ ownerInLoop writeComplete highWater highWaterMark,
    (TcpConnection.new ownerInLoop writeComplete highWater highWaterMark).connectEstablished =
      .ok s.conn
  enabled := enabled
  step := step

/-- The condition on the steps of a run. -/
def leavesQuiet (s : Closing) : Action → Prop
  | .conn a => s.conn.permits True a
  | .destroyServer => s.conn.tracked = true → s.conn.ownerInLoop = true →
      s.conn.permitsFunctor True .connectDestroyed
  | _ => True

/-! ### The interest set -/

/-- The fd is in the interest set exactly when the channel wants events, so that no events
    of a disconnected connection are waiting to be handled. -/
structure Tidy (c : TcpConnection) : Prop where
  synced : c.channel.Synced
  reading : c.state ≠ .kDisconnected → (c.reading = true ↔ c.channel.isReading = true)
  waiting : c.state = .kDisconnected → c.channel.active = .waiting → .connectDestroyed ∈ c.frames

theorem Tidy.output (ht : Tidy c) (hstate : c.state ≠ .kDisconnected) (ho : Output c c') :
    Tidy c' := by
  have hreading : c'.reading = c.reading := by rw [ho.others]
  refine ⟨ho.channel.synced ht.synced, ?_, ?_⟩
  · intro _
    rw [hreading, ho.channel.reading]
    exact ht.reading hstate
  · intro hd
    exact absurd (ho.state.symm.trans hd) hstate

theorem Tidy.readingStarted (ht : Tidy c) (hstate : c.state ≠ .kDisconnected) :
    Tidy c.readingStarted := by
  unfold TcpConnection.readingStarted
  split
  · exact ⟨ht.synced.watching (.inr (Channel.union_ne_none (by decide))),
      fun _ => iff_of_true rfl (Channel.isReading_enableReading _), fun hd => absurd hd hstate⟩
  · exact ht

theorem Tidy.readingStopped (ht : Tidy c) (hp : c.permitsFunctor True .stopReadInLoop) :
    Tidy c.readingStopped := by
  unfold TcpConnection.readingStopped
  split
  · rename_i hstop
    have hstate : c.state ≠ .kDisconnected := by
      intro hd
      obtain ⟨h₁, h₂⟩ := hp (.inl trivial) hd
      rw [h₁, h₂] at hstop
      exact hstop.elim Bool.false_ne_true Bool.false_ne_true
    -- an open connection that is read has events of interest
    have hreading : c.channel.isReading = true := hstop.elim (ht.reading hstate).mp id
    refine ⟨ht.synced.watching (.inl (Channel.ne_none_of_meets hreading)), ?_,
      fun hd => absurd hd hstate⟩
    intro _
    exact iff_of_false nofun (ne_true_of_eq_false (Channel.isReading_disableReading _))
  · exact ht

theorem Tidy.popped {frame : Frame} {rest : List Frame} (ht : Tidy c)
    (hframes : c.frames = frame :: rest)
    (hwaiting : frame = .connectDestroyed → c.channel.active ≠ .waiting) :
    Tidy { c with frames := rest } := by
  refine ⟨ht.synced, ht.reading, ?_⟩
  intro hd hw
  have hmem := ht.waiting hd hw
  rw [hframes] at hmem
  rcases List.mem_cons.mp hmem with heq | hmem
  · exact absurd hw (hwaiting heq.symm)
  · exact hmem

theorem Tidy.disconnected {frame : Frame} (ht : Tidy c) (hclosing : c.permitsClosing True)
    (hwaiting : c.channel.active = .waiting → frame = .connectDestroyed) :
    Tidy (((c.setState .kDisconnected).setChannel
      (c.channel.watching kNoneEvent)).callConnectionCallback frame) where
  synced := ht.synced.watching (.inl (hclosing trivial))
  reading := fun hd => absurd rfl hd
  waiting := fun _ hw => hwaiting hw ▸ List.mem_cons_self

theorem Tidy.removed (ht : Tidy c) (hr : c.channel.Removable) :
    Tidy (c.setChannel c.channel.removed) :=
  ⟨Channel.removed_synced hr.events, ht.reading, fun _ hw => absurd hw hr.not_waiting⟩

/-- **Moves keep the interest set tidy.** -/
theorem Tidy.move (hl : Life point c) (ht : Tidy c) (hm : Move True point c c') : Tidy c' := by
  cases hm with
  | @report revents hframes _ hr =>
    -- without events of interest the fd is not in the interest set
    have hstate : c.state ≠ .kDisconnected := by
      intro hd
      have hindex : c.channel.index ≠ EPollPoller.kAdded := fun hadded =>
        ht.synced.added.mp hadded (hl.quiet hd)
      rw [ht.synced.interest, if_neg hindex] at hr
      exact hr
    exact ⟨⟨⟨ht.synced.index, ht.synced.registered, ht.synced.interest⟩, ht.synced.added⟩,
      ht.reading, fun hd => absurd hd hstate⟩
  | output hstate ho => exact ht.output hstate ho
  | note _ => exact { ht with }
  | queue _ => exact { ht with }
  | dequeue _ _ => exact { ht with }
  | book _ _ => exact { ht with }
  | input _ => exact { ht with }
  | disconnecting hstate => exact ⟨ht.synced, fun _ => ht.reading hstate, nofun⟩
  | readingStarted hstate => exact ht.readingStarted hstate
  | readingStopped hp => exact ht.readingStopped hp
  | @place _ active _ _ hactive =>
    refine ⟨⟨⟨ht.synced.index, ht.synced.registered, ht.synced.interest⟩, ht.synced.added⟩,
      ht.reading, ?_⟩
    intro _ hw
    rcases hactive with rfl | rfl <;> cases hw
  | received hstate _ _ => exact ⟨ht.synced, ht.reading, fun hd => absurd hd hstate⟩
  | closed _ _ hclosing hactive _ _ =>
    exact ht.disconnected hclosing fun hw => absurd hw hactive
  | @returned frame rest hframes hframe =>
    apply ht.popped hframes
    intro heq
    rcases hframe with hframe | hframe <;> cases heq.symm.trans hframe
  | @closeReported resume rest hframes _ =>
    have hpop := ht.popped hframes nofun
    unfold TcpConnection.closeReported
    dsimp only
    split
    · exact { hpop with }
    · exact { hpop with }
  | @destroyed rest _ _ hclosing =>
    have hdeq : Tidy (c.dequeued rest) := { ht with }
    exact hdeq.disconnected hclosing fun _ => rfl
  | @removed rest _ hr =>
    have hdeq : Tidy (c.dequeued rest) := { ht with }
    exact hdeq.removed hr
  | @destroyReturned rest hframes hr =>
    exact (ht.popped hframes fun _ => hr.not_waiting).removed hr

theorem Tidy.moves (hl : Life point c) (ht : Tidy c) (hm : Moves True point c c') :
    Life point c' ∧ Tidy c' := by
  induction hm with
  | refl => exact ⟨hl, ht⟩
  | tail _ hm ih => exact ⟨ih.1.move hm, ih.2.move ih.1 hm⟩

/-! ### Callbacks -/

def isCallback : Event → Bool
  | .connectionCallback _ => true
  | .messageCallback => true
  | .closeCallback => true
  | _ => false

/-- The connection, message and close callbacks, in the order of their invocation. -/
def callbacks (log : List Event) : List Event := log.filter isCallback

/-- From a disconnected connection on nothing is called but the `closeCallback_` of a
    `handleClose` whose `connectionCallback_` had not returned. -/
structure Hushed (c c' : TcpConnection) : Prop where
  state : c'.state = .kDisconnected
  callbacks : ∃ n, callbacks c'.log = callbacks c.log ++ List.replicate n .closeCallback ∧
    n + c'.closings = c.closings

theorem Hushed.refl (hd : c.state = .kDisconnected) : Hushed c c :=
  ⟨hd, 0, (List.append_nil _).symm, Nat.zero_add _⟩

/-- Nothing is called and no frame of `handleClose` is left. -/
theorem Hushed.silent (hd : c'.state = .kDisconnected)
    (hlog : Closing.callbacks c'.log = Closing.callbacks c.log)
    (hclosings : c'.closings = c.closings) : Hushed c c' :=
  ⟨hd, 0, by rw [hlog, List.replicate_zero, List.append_nil], by rw [hclosings, Nat.zero_add]⟩

theorem Hushed.trans {c'' : TcpConnection} (h₁ : Hushed c c') (h₂ : Hushed c' c'') :
    Hushed c c'' := by
  obtain ⟨n₁, hlog₁, hn₁⟩ := h₁.callbacks
  obtain ⟨n₂, hlog₂, hn₂⟩ := h₂.callbacks
  refine ⟨h₂.state, n₁ + n₂, ?_, by omega⟩
  rw [hlog₂, hlog₁, List.append_assoc, List.replicate_append_replicate]

/-- **The moves of a disconnected connection.** -/
theorem Hushed.move {strict : Prop} (hd : c.state = .kDisconnected)
    (hm : Move strict point c c') : Hushed c c' := by
  cases hm with
  | report _ _ _ => exact .silent hd rfl rfl
  | output hstate _ => exact absurd hd hstate
  | @note e he =>
    refine .silent hd ?_ rfl
    have hnot : isCallback e = false := by
      cases e with
      | shutdownWrite => rfl
      | writeCompleteCallback => rfl
      | highWaterMarkCallback size => rfl
      | _ => exact he.elim
    simp [Closing.callbacks, record, hnot]
  | queue _ => exact .silent hd rfl rfl
  | dequeue _ _ => exact .silent hd rfl rfl
  | book _ _ => exact .silent hd rfl rfl
  | input _ => exact .silent hd rfl rfl
  | disconnecting hstate => exact absurd hd hstate
  | readingStarted hstate => exact absurd hd hstate
  | readingStopped _ =>
    unfold TcpConnection.readingStopped
    split
    · exact .silent hd rfl rfl
    · exact .refl hd
  | place _ _ _ _ => exact .silent hd rfl rfl
  | received hstate _ _ => exact absurd hd hstate
  | closed hopen _ _ _ _ _ => exact absurd hd (isOpen_ne hopen)
  | @returned frame rest hframes hframe =>
    refine .silent hd rfl ?_
    change rest.countP Frame.isClose = c.frames.countP Frame.isClose
    rw [hframes]
    rcases hframe with rfl | rfl <;> rfl
  | @closeReported resume rest hframes _ =>
    have hone := closings_cons hframes
    have hlog : (c.closeReported rest).log = c.log ++ [.closeCallback] := by
      unfold TcpConnection.closeReported
      dsimp only
      split <;> rfl
    refine ⟨?_, 1, ?_, ?_⟩
    · unfold TcpConnection.closeReported
      dsimp only
      split <;> exact hd
    · rw [hlog]
      exact List.filter_append _ _
    · unfold TcpConnection.closings at hone ⊢
      rw [(closeReported_eq c rest).2.2, hone, Nat.add_comm]
  | destroyed _ hstate _ => cases hd.symm.trans hstate
  | removed _ _ => exact .silent hd rfl rfl
  | @destroyReturned rest hframes _ =>
    refine .silent hd rfl ?_
    change rest.countP Frame.isClose = c.frames.countP Frame.isClose
    rw [hframes]
    rfl

theorem Hushed.moves {strict : Prop} (hd : c.state = .kDisconnected)
    (hm : Moves strict point c c') : Hushed c c' := by
  induction hm with
  | refl => exact .refl hd
  | tail _ hm ih => exact ih.trans (.move ih.state hm)

/-! ### Steps -/

structure Inv (s : Closing) : Prop where
  life : Life s.point s.conn
  tidy : Tidy s.conn

theorem init_inv (h : system.init s) : Inv s := by
  obtain ⟨ownerInLoop, writeComplete, highWater, highWaterMark, hconn⟩ := h
  rw [connectEstablished_eq rfl Channel.new_synced.toWatched] at hconn
  obtain ⟨conn, point⟩ := s
  obtain rfl := Except.ok.inj hconn
  refine ⟨established_life, ?_, fun _ => iff_of_true rfl rfl, nofun⟩
  have htie : Channel.new.tie.Synced := ⟨⟨.inl rfl, by decide, rfl⟩, by decide⟩
  exact htie.watching (.inr (Channel.union_ne_none (by decide)))

/-- What the server does to the connection in between. -/
theorem release_ok (hl : Life point c) (ht : Tidy c)
    (hp : c.ownerInLoop = true → c.permitsFunctor True .connectDestroyed)
    (h : c.release = .ok c') :
    Life point c' ∧ Tidy c' ∧ (c.state = .kDisconnected → Hushed c c') := by
  have hl' : Life point { c with tracked := false } := { hl with }
  have ht' : Tidy { c with tracked := false } := { ht with }
  unfold release at h
  by_cases howner : c.ownerInLoop = true
  · simp only [howner, if_true] at h
    rw [← howner] at h
    by_cases hstate : c.state = .kConnected
    · obtain rfl := Except.ok.inj ((connectDestroyed_eq hl'.watched hstate).symm.trans h)
      refine ⟨hl'.destroyed hstate, ht'.disconnected (hp howner hstate) fun _ => rfl, fun hd => ?_⟩
      cases hd.symm.trans hstate
    · rw [connectDestroyed, if_neg (show ¬ (TcpConnection.state { c with tracked := false }) =
        .kConnected from hstate)] at h
      obtain ⟨ch, hremove, hch⟩ := bind_eq_ok.mp h
      obtain ⟨hr, rfl⟩ := Channel.removed_of_ok hl.watched hremove
      obtain rfl := Except.ok.inj hch
      exact ⟨hl'.removed hr, ht'.removed hr, fun hd => .silent hd rfl rfl⟩
  · rw [if_neg howner] at h
    obtain rfl := Except.ok.inj h
    exact ⟨{ hl' with }, { ht' with }, fun hd => .silent hd rfl rfl⟩

/-- **The step lemma.**  A step that the condition allows keeps the invariant, and a
    disconnected connection quiet. -/
theorem Inv.step {a : Action} (hi : Inv s) (hen : s.enabled a) (hcond : s.leavesQuiet a)
    (h : s.step a = .ok s') :
    Inv s' ∧ (s.conn.state = .kDisconnected → Hushed s.conn s'.conn) := by
  cases a with
  | conn a =>
    obtain ⟨c', hstep, hs'⟩ := bind_eq_ok.mp h
    obtain rfl := Except.ok.inj hs'
    rcases step_outcome hi.life hen hcond with ⟨d, heq, hm⟩ | ⟨e, heq, _⟩
    · obtain rfl : c' = d := Except.ok.inj (hstep.symm.trans heq)
      obtain ⟨hl, ht⟩ := hi.tidy.moves hi.life hm
      exact ⟨⟨hl, ht⟩, fun hd => .moves hd hm⟩
    · cases hstep.symm.trans heq
  | advance =>
    obtain rfl := Except.ok.inj h
    refine ⟨⟨hi.life.advanced hen, ?_⟩, ?_⟩
    · have ht := hi.tidy
      unfold advanced
      split
      · exact ⟨⟨⟨ht.synced.index, ht.synced.registered, ht.synced.interest⟩, ht.synced.added⟩,
          ht.reading, nofun⟩
      · exact ht
    · intro hd
      unfold advanced
      split
      · exact .silent hd rfl rfl
      · exact .refl hd
  | removeConnectionInLoop =>
    obtain ⟨c', hstep, hs'⟩ := bind_eq_ok.mp h
    obtain rfl := Except.ok.inj hs'
    simp only [TcpConnection.removeConnectionInLoop, bind_eq_ok] at hstep
    obtain ⟨_, _, _, _, hc'⟩ := hstep
    obtain rfl := Except.ok.inj hc'
    exact ⟨⟨{ hi.life with }, { hi.tidy with }⟩, fun hd => .silent hd rfl rfl⟩
  | destroyServer =>
    obtain ⟨c', hstep, hs'⟩ := bind_eq_ok.mp h
    obtain rfl := Except.ok.inj hs'
    split at hstep
    · rename_i htracked
      obtain ⟨hl, ht, hquiet⟩ := release_ok hi.life hi.tidy (hcond htracked) hstep
      exact ⟨⟨{ hl with }, { ht with }⟩, fun hd =>
        (hquiet hd).trans (.silent (hquiet hd).state rfl rfl)⟩
    · obtain rfl := Except.ok.inj hstep
      exact ⟨⟨{ hi.life with }, { hi.tidy with }⟩, fun hd => .silent hd rfl rfl⟩

theorem inv_step {a : Action} (hi : Inv s) (h : (system.restrict leavesQuiet).Step s a s') :
    Inv s' ∧ (s.conn.state = .kDisconnected → Hushed s.conn s'.conn) :=
  hi.step h.1.1 h.condition h.2

theorem reachable_inv (h : (system.restrict leavesQuiet).Reachable s) : Inv s :=
  h.invariant (fun _ => init_inv) fun _ _ _ hi hst => (inv_step hi hst).1

theorem release_ne_handleClose (hw : c.channel.Watched) :
    c.release ≠ .error .handleCloseConnected := by
  intro h
  unfold release at h
  split at h
  · by_cases hstate : c.state = .kConnected
    · have hw' : (TcpConnection.channel { c with tracked := false }).Watched := hw
      cases (connectDestroyed_eq hw' hstate).symm.trans h
    · rw [connectDestroyed, if_neg (show ¬ (TcpConnection.state { c with tracked := false }) =
        .kConnected from hstate)] at h
      rcases bind_eq_error.mp h with hremove | ⟨_, _, hpure⟩
      · rcases Channel.remove_error hremove with he | he | he | he | he <;> cases he
      · cases hpure
  · cases h

/-- **The assertion of `handleClose` holds.** -/
theorem Inv.handleClose_asserts {a : Action} (hi : Inv s) (hen : s.enabled a)
    (hcond : s.leavesQuiet a) : s.step a ≠ .error .handleCloseConnected := by
  intro h
  cases a with
  | conn a =>
    rcases bind_eq_error.mp h with hstep | ⟨_, _, hpure⟩
    · rcases step_outcome hi.life hen hcond with ⟨_, heq, _⟩ | ⟨e, heq, hstops⟩
      · cases hstep.symm.trans heq
      · obtain rfl : Assertion.handleCloseConnected = e :=
          Except.error.inj (hstep.symm.trans heq)
        cases hstops with
        | handleClose hstate hframes hactive =>
          have hmem := hi.tidy.waiting hstate hactive
          rw [hframes] at hmem
          cases hmem
        | removeByFunctor _ _ hremove =>
          rcases Channel.remove_error hremove with he | he | he | he | he <;> cases he
        | removeByFrame _ hremove =>
          rcases Channel.remove_error hremove with he | he | he | he | he <;> cases he
    · cases hpure
  | advance => cases h
  | removeConnectionInLoop =>
    simp only [Closing.step, TcpConnection.removeConnectionInLoop, bind_eq_error,
      pure_eq_ok] at h
    rcases h with (h | ⟨_, _, h | ⟨_, _, h⟩⟩) | ⟨_, _, h⟩
    · cases of_check_error h
    · cases of_check_error h
    · cases h
    · cases h
  | destroyServer =>
    rcases bind_eq_error.mp h with hstep | ⟨_, _, hpure⟩
    · split at hstep
      · exact release_ne_handleClose hi.life.watched hstep
      · cases hstep
    · cases hpure

/-! ### The theorem -/

/-- **`kDisconnected` is terminal and quiet** in the runs that leave it quiet.  It is
    reported at most once, and the assertion of `handleClose` holds.  A disconnected
    connection has no events of interest and is not in the interest set; from then on it
    stays disconnected, and none of the three callbacks is invoked but the
    `closeCallback_` of a `handleClose` that is still under way. -/
theorem disconnected_terminal (h : (system.restrict leavesQuiet).Reachable s) :
    (downs s.conn.log ≤ 1 ∧ closes s.conn.log ≤ 1 ∧
      ∀ a, s.enabled a → s.leavesQuiet a → s.step a ≠ .error .handleCloseConnected) ∧
    (s.conn.state = .kDisconnected →
      s.conn.channel.isNoneEvent = true ∧ s.conn.channel.entry.interest = none ∧
      ∀ t as, (system.restrict leavesQuiet).Run s as t →
        t.conn.state = .kDisconnected ∧
          (callbacks t.conn.log = callbacks s.conn.log ∨
            s.conn.closings = 1 ∧
              callbacks t.conn.log = callbacks s.conn.log ++ [.closeCallback])) := by
  have hi := reachable_inv h
  have hcloses := hi.life.closes
  refine ⟨⟨?_, ?_, fun a => hi.handleClose_asserts⟩, fun hd => ⟨?_, ?_, fun t as hrun => ?_⟩⟩
  · rw [hi.life.downs]
    split <;> omega
  · split at hcloses <;> omega
  · exact decide_eq_true (hi.life.quiet hd)
  · have hindex : s.conn.channel.index ≠ EPollPoller.kAdded := fun hadded =>
      hi.tidy.synced.added.mp hadded (hi.life.quiet hd)
    rw [hi.tidy.synced.interest, if_neg hindex]
  · have hhush := hrun.related (P := Inv)
      (R := fun s t => s.conn.state = .kDisconnected → Hushed s.conn t.conn)
      (fun _ _ _ hi hst => (inv_step hi hst).1) (fun _ => .refl)
      (fun _ _ _ h₁ h₂ hd => (h₁ hd).trans (h₂ (h₁ hd).state))
      (fun _ _ _ hi hst => (inv_step hi hst).2) hi hd
    obtain ⟨n, hlog, hn⟩ := hhush.callbacks
    refine ⟨hhush.state, ?_⟩
    rw [if_pos hd] at hcloses
    match n with
    | 0 => exact .inl (by rw [hlog, List.replicate_zero, List.append_nil])
    | 1 => exact .inr ⟨by omega, hlog⟩
    | n + 2 => omega

/-! ### The condition is exact -/

/-- `state_` has left `kDisconnected`, or the fd of a disconnected connection is in the
    interest set. -/
def Disturbed (c c' : TcpConnection) : Prop :=
  (c.state = .kDisconnected ∧ c'.state ≠ .kDisconnected) ∨
    (c'.state = .kDisconnected ∧ c'.channel.entry.interest ≠ none)

/-- A change of events when there are none. -/
theorem Tidy.interest_ne {e : PollEvents} (ht : Tidy c) (hnone : c.channel.events = kNoneEvent) :
    (c.channel.watching e).entry.interest ≠ none := by
  rw [ht.synced.watching_interest hnone]
  exact Option.some_ne_none e

theorem not_permitsClosing (h : ¬ c.permitsClosing True) : c.channel.events = kNoneEvent := by
  by_contra hne
  exact h fun _ => hne

theorem functor_disturbs {f : TcpConnection.Functor} {w : WriteResult} (hl : Life point c)
    (ht : Tidy c) (hnot : ¬ c.permitsFunctor True f) :
    ∃ c', c.runFunctor f w = .ok c' ∧ Disturbed c c' := by
  cases f with
  | startReadInLoop =>
    have hstate : c.state = .kDisconnected := not_not.mp hnot
    have hreading : c.channel.isReading = false := by
      unfold Channel.isReading
      rw [hl.quiet hstate]
      rfl
    refine ⟨_, startReadInLoop_eq hl.watched, .inr ?_⟩
    unfold TcpConnection.readingStarted
    rw [if_pos (.inr hreading)]
    exact ⟨hstate, ht.interest_ne (hl.quiet hstate)⟩
  | stopReadInLoop =>
    obtain ⟨_, hnot⟩ := Classical.not_imp.mp hnot
    obtain ⟨hstate, hnot⟩ := Classical.not_imp.mp hnot
    have hstop : c.reading = true ∨ c.channel.isReading = true := by
      by_contra hneither
      obtain ⟨h₁, h₂⟩ := not_or.mp hneither
      exact hnot ⟨Bool.eq_false_iff.mpr h₁, Bool.eq_false_iff.mpr h₂⟩
    refine ⟨_, stopReadInLoop_eq hl.watched, .inr ?_⟩
    unfold TcpConnection.readingStopped
    rw [if_pos hstop]
    exact ⟨hstate, ht.interest_ne (hl.quiet hstate)⟩
  | forceCloseInLoop =>
    obtain ⟨hopen, hnot⟩ := Classical.not_imp.mp hnot
    refine ⟨c.closed .functor, ?_, .inr ⟨rfl, ht.interest_ne (not_permitsClosing hnot)⟩⟩
    rw [TcpConnection.runFunctor, forceCloseInLoop, if_pos hopen]
    exact handleClose_eq hl.watched hopen _
  | connectDestroyed =>
    obtain ⟨hstate, hnot⟩ := Classical.not_imp.mp hnot
    exact ⟨_, connectDestroyed_eq hl.watched hstate,
      .inr ⟨rfl, ht.interest_ne (not_permitsClosing hnot)⟩⟩
  | _ => exact absurd trivial hnot

theorem handleEvent_disturbs {r : ReadResult} {w : WriteResult} (hl : Life point c) (ht : Tidy c)
    (hopen : c.isOpen) (hcloses : c.handlesClose r) (hnone : c.channel.events = kNoneEvent) :
    ∃ c', c.handleEvent r w = .ok c' ∧ Disturbed c c' := by
  have hw : (c.setChannel { c.channel with
      eventHandling := true, active := .current }).channel.Watched :=
    ⟨hl.watched.index, hl.watched.registered, hl.watched.interest⟩
  unfold handleEvent
  by_cases hhup : c.channel.revents.pollhup = true ∧ c.channel.revents.pollin = false
  · rw [if_pos hhup]
    exact ⟨_, handleClose_eq hw hopen _, .inr ⟨rfl, ht.interest_ne hnone⟩⟩
  · obtain ⟨hmeets, rfl⟩ := hcloses.resolve_left hhup
    obtain ⟨b, hb, -⟩ := Buffer.readFd_ok c.inputBuffer []
    have hread : ∀ d : TcpConnection, d.channel.Watched → d.isOpen → d.inputBuffer = c.inputBuffer →
        d.channel.revents = c.channel.revents →
        d.errorPart (.bytes []) w = .ok ({ d with inputBuffer := b }.closed .writePart) := by
      intro d hd hdopen hdbuf hdrevents
      rw [errorPart, hdrevents, if_pos hmeets]
      simp only [handleRead, hdbuf, hb, ok_bind]
      exact handleClose_eq (c := { d with inputBuffer := b }) hd hdopen _
    rw [if_neg hhup]
    exact ⟨_, hread _ hw hopen rfl rfl, .inr ⟨rfl, ht.interest_ne hnone⟩⟩

theorem finishCall_disturbs {i : Nat} (hnot : ¬ c.permits True (.finishCall i)) :
    Disturbed c (c.finishCall i) := by
  obtain ⟨k, hk⟩ := not_forall.mp hnot
  obtain ⟨hget, hk⟩ := Classical.not_imp.mp hk
  obtain ⟨hset, hstate⟩ := Classical.not_imp.mp hk
  refine .inl ⟨not_not.mp hstate, ?_⟩
  simp only [finishCall, Option.mem_def.mp hget]
  rcases hset with rfl | rfl | rfl
  · exact StateE.noConfusion
  · exact StateE.noConfusion
  · exact StateE.noConfusion

theorem conn_disturbs {a : TcpConnection.Action} (hl : Life point c) (ht : Tidy c)
    (hnot : ¬ c.permits True a) : ∃ c', c.step a = .ok c' ∧ Disturbed c c' := by
  cases a with
  | handleEvent r w =>
    obtain ⟨hopen, hnot⟩ := Classical.not_imp.mp hnot
    obtain ⟨hcloses, hnot⟩ := Classical.not_imp.mp hnot
    exact handleEvent_disturbs hl ht hopen hcloses (not_permitsClosing hnot)
  | runFunctor w =>
    obtain ⟨f, hf⟩ := not_forall.mp hnot
    obtain ⟨hf, hnot⟩ := Classical.not_imp.mp hf
    obtain ⟨rest, hbatch⟩ := List.head?_eq_some_iff.mp hf
    have hstep : c.step (.runFunctor w) = (c.dequeued rest).runFunctor f w := by
      simp only [TcpConnection.step, runNextFunctor, hbatch]
      rfl
    have hl' : Life point (c.dequeued rest) := { hl with }
    have ht' : Tidy (c.dequeued rest) := { ht with }
    obtain ⟨c', heq, hd⟩ := functor_disturbs (w := w) hl' ht' hnot
    exact ⟨c', hstep.trans heq, hd⟩
  | call k w =>
    cases k with
    | startRead => exact functor_disturbs (f := .startReadInLoop) (w := w) hl ht hnot
    | stopRead => exact functor_disturbs (f := .stopReadInLoop) (w := w) hl ht hnot
    | _ => exact absurd trivial hnot
  | finishCall i => exact ⟨_, rfl, finishCall_disturbs hnot⟩
  | _ => exact absurd trivial hnot

/-- **The condition is exact**: a step that it excludes ends, and either takes the
    connection out of `kDisconnected` or leaves the fd of a disconnected one in the interest
    set. -/
theorem leavesQuiet_exact (h : (system.restrict leavesQuiet).Reachable s) {a : Action}
    (hnot : ¬ s.leavesQuiet a) : ∃ s', s.step a = .ok s' ∧ Disturbed s.conn s'.conn := by
  have hi := reachable_inv h
  cases a with
  | conn a =>
    obtain ⟨c', heq, hd⟩ := conn_disturbs hi.life hi.tidy hnot
    exact ⟨_, bind_eq_ok.mpr ⟨c', heq, rfl⟩, hd⟩
  | destroyServer =>
    obtain ⟨htracked, hnot⟩ := Classical.not_imp.mp hnot
    obtain ⟨howner, hnot⟩ := Classical.not_imp.mp hnot
    have hl : Life s.point { s.conn with tracked := false } := { hi.life with }
    have ht : Tidy { s.conn with tracked := false } := { hi.tidy with }
    obtain ⟨c', heq, hd⟩ := functor_disturbs (f := .connectDestroyed) (w := .wrote 0) hl ht hnot
    refine ⟨_, bind_eq_ok.mpr ⟨c', ?_, rfl⟩, hd⟩
    rw [if_pos htracked, release, if_pos howner]
    exact heq
  | _ => exact absurd trivial hnot

/-! ### Runs -/

instance (s : Closing) : (a : Action) → Decidable (system.enabled s a)
  | .conn a => inferInstanceAs (Decidable (s.conn.enabled s.point a))
  | .advance => inferInstanceAs (Decidable (s.conn.rests s.point))
  | .removeConnectionInLoop => inferInstanceAs (Decidable (_ ∧ _))
  | .destroyServer => inferInstanceAs (Decidable (_ ∧ _))

instance (s : Closing) : (a : Action) → Decidable (s.leavesQuiet a)
  | .conn a => inferInstanceAs (Decidable (s.conn.permits True a))
  | .advance => .isTrue trivial
  | .removeConnectionInLoop => .isTrue trivial
  | .destroyServer => inferInstanceAs (Decidable (s.conn.tracked = true →
      s.conn.ownerInLoop = true → s.conn.permitsFunctor True .connectDestroyed))

/-- A connection of the server's loop, in its first `connectionCallback_`. -/
def upCallback : Closing := ⟨(TcpConnection.new true false false 64).established, .handlingEvents⟩

theorem upCallback_init : system.init upCallback := ⟨true, false, false, 64, rfl⟩

/-- A user callback returns, and a call that writes nothing. -/
def userReturns : Action := .conn (.callbackReturn (.bytes []) (.wrote 0))

def userCalls (k : Call) : Action := .conn (.call k (.wrote 0))

set_option maxRecDepth 8000 in
/-- The peer closes.  From then on the connection is quiet: when it is removed, two points of
    the loop later, only the `closeCallback_` has been invoked. -/
theorem disconnected_terminal_peer :
    ∃ s t, (system.restrict leavesQuiet).Reachable s ∧ s.conn.state = .kDisconnected ∧
      callbacks s.conn.log = [.connectionCallback true, .connectionCallback false] ∧
      s.conn.channel.isNoneEvent = true ∧ s.conn.channel.entry.interest = none ∧
      (system.restrict leavesQuiet).Run s
        [userReturns, .advance, .conn (.runFunctor (.wrote 0)), .advance] t ∧
      t.conn.state = .kDisconnected ∧
      callbacks t.conn.log = callbacks s.conn.log ++ [.closeCallback] ∧
      t.conn.channel.entry = ⟨false, none⟩ ∧ closes t.conn.log ≤ 1 := by
  have hclosing : ∃ s t, (system.restrict leavesQuiet).Reachable s ∧
      s.conn.state = .kDisconnected ∧
      callbacks s.conn.log = [.connectionCallback true, .connectionCallback false] ∧
      (system.restrict leavesQuiet).Run s
        [userReturns, .advance, .conn (.runFunctor (.wrote 0)), .advance] t ∧
      .closeCallback ∈ callbacks t.conn.log ∧ t.conn.channel.entry = ⟨false, none⟩ :=
    ⟨_, _, reachable_of_exec [userReturns, .advance, .advance, .advance,
      .conn (.report { pollin := true }), .advance,
      .conn (.handleEvent (.bytes []) (.wrote 0))] upCallback_init rfl, rfl, rfl,
      run_of_exec rfl, by decide, rfl⟩
  obtain ⟨s, t, hs, hstate, hlog, hrun, hmem, hentry⟩ := hclosing
  obtain ⟨hnone, hinterest, hquiet⟩ := (disconnected_terminal hs).2 hstate
  obtain ⟨hterminal, hcallbacks⟩ := hquiet t _ hrun
  refine ⟨s, t, hs, hstate, hlog, hnone, hinterest, hrun, hterminal, ?_, hentry, ?_⟩
  · rcases hcallbacks with hsame | ⟨-, hclose⟩
    · rw [hsame, hlog] at hmem
      exact absurd hmem (by decide)
    · exact hclose
  · exact (disconnected_terminal (hs.run hrun)).1.2.1

set_option maxRecDepth 8000 in
/-- **A closing without events of interest leaves the fd in the interest set**:
    `forceClose()` after `stopRead()`.  When a hang-up is then reported, the assertion of
    `handleClose` fails. -/
theorem disconnected_still_watched :
    ∃ s, system.Reachable s ∧ s.conn.state = .kDisconnected ∧
      s.conn.channel.entry.interest = some kNoneEvent ∧
      ∃ a, system.enabled s a ∧ system.step s a = .error .handleCloseConnected :=
  ⟨_, reachable_of_exec [userReturns, userCalls .stopRead, userCalls .forceClose, .advance,
    .conn (.runFunctor (.wrote 0)), userReturns, .advance, .advance,
    .conn (.report { pollhup := true }), .advance] upCallback_init rfl, rfl, rfl,
    .conn (.handleEvent (.bytes []) (.wrote 0)), by decide, rfl⟩

set_option maxRecDepth 8000 in
/-- **A disconnected connection is read again** when `startRead()` is called before it is
    removed: its `messageCallback_` is invoked after its `closeCallback_`. -/
theorem message_after_close :
    ∃ s, system.Reachable s ∧ s.conn.state = .kDisconnected ∧
      callbacks s.conn.log = [.connectionCallback true, .connectionCallback false,
        .closeCallback, .messageCallback] :=
  ⟨_, reachable_of_exec [userReturns, userCalls .forceClose, .advance,
    .conn (.runFunctor (.wrote 0)), userReturns, userCalls .startRead, .advance, .advance,
    .conn (.report { pollin := true }), .advance,
    .conn (.handleEvent (.bytes [7]) (.wrote 0))] upCallback_init rfl, rfl, rfl⟩

set_option maxRecDepth 8000 in
/-- **A call that tested `state_` before sets it afterwards.** -/
theorem disconnected_not_terminal :
    ∃ s t a, system.Reachable s ∧ s.conn.state = .kDisconnected ∧ system.Step s a t ∧
      t.conn.state = .kDisconnecting :=
  ⟨_, _, .conn (.finishCall 0), reachable_of_exec [userReturns, .conn (.beginCall .shutdown),
    userCalls .forceClose, .advance, .conn (.runFunctor (.wrote 0))] upCallback_init rfl, rfl,
    ⟨by decide, rfl⟩, rfl⟩

end Closing

end Kaycc
