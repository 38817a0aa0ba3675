/-
  Kaycc/ConnectorStop.lean
  ========================
  **What is left of a `Connector` that has been stopped.**

  `stop` clears `connect_` at once and ends the attempt under way later, in
  `stopInLoop`.  Every branch that finds `connect_` cleared returns to
  `kDisconnected`, but for one: `handleWrite` sets `kConnected` before it tests
  `connect_`, and then only closes the socket.  The Connector is then neither
  connected nor able to start again (`abandoned_stuck`).  In the runs without that
  branch a stopped Connector is idle once what `stop` and the removal of the channel
  have queued has run.
-/
import Kaycc.ConnectorMoves

namespace Kaycc

open Transition Transition.System

namespace Connector

variable {s t : Connector} {act : Action}

/-- `handleWrite` finds the socket connected and `connect_` cleared. -/
def abandons (s : Connector) (act : Action) : Prop :=
  act = .handleEvent false true false false ∧ s.state = .kConnecting ∧ s.connect = false

instance (s : Connector) (act : Action) : Decidable (s.abandons act) :=
  inferInstanceAs (Decidable (_ ∧ _))

/-- What `stop`, the removal of the channel and the retries have left to do has been done. -/
structure Settled (s : Connector) : Prop where
  point : s.point = .idle
  stops : .stopInLoop ∉ s.functors ∧ .stopInLoop ∉ s.calling
  resets : .resetChannel ∉ s.functors
  timers : s.timers = []

/-- The calls that set `connect_`. -/
def Action.starts : Action → Bool
  | .start _ => true
  | .restart => true
  | _ => false

/-- The Connector holds nothing, does nothing, and can be started. -/
structure Idle (s : Connector) : Prop where
  channel : s.channel = none
  sockets : s.sockets = []
  state : s.state = .kDisconnected
  quiet : ∀ acts t, (system.restrict fun _ act => act.starts = false).Run s acts t →
    t.opened = s.opened
  restartable : ∃ acts t, system.Run s (.start true :: acts) t ∧ t.state = .kConnecting

/-! ### The invariant -/

structure StopInv (s : Connector) : Prop extends Inv s where
  stopping : s.connect = false →
    s.state = .kConnecting ∨ (∃ sockfd, s.point = .inConnect sockfd) →
      .stopInLoop ∈ s.functors ∨ .stopInLoop ∈ s.calling
  connected : s.state = .kConnected → s.handed = true
  handedBefore : s.connect = false → s.handed = true → s.handedAtStop = true

theorem new_stopInv : StopInv new where
  toInv := new_inv
  stopping := by
    rintro - (h | ⟨_, h⟩)
    · cases h
    · cases h
  connected := fun h => by cases h
  handedBefore := fun _ h => by cases h

/-- No attempt is under way afterwards. -/
theorem StopInv.of_resting (ht : Inv t) (hstate : t.state ≠ .kConnecting)
    (hpoint : ∀ sockfd, t.point ≠ .inConnect sockfd)
    (hconnected : t.state = .kConnected → t.handed = true)
    (hhanded : t.connect = false → t.handed = true → t.handedAtStop = true) : StopInv t where
  toInv := ht
  stopping := by
    rintro - (h | ⟨sockfd, h⟩)
    · exact absurd h hstate
    · exact absurd h (hpoint sockfd)
  connected := hconnected
  handedBefore := hhanded

theorem StopInv.of_move (hi : StopInv s) (hm : Move s act t) (hnot : ¬ s.abandons act) :
    StopInv t := by
  have ht : Inv t := hi.toInv.of_move hm
  cases hm with
  | startOwn hpoint =>
    exact ⟨ht, (fun h => by cases h), hi.connected, (fun h => by cases h)⟩
  | startOther => exact ⟨ht, (fun h => by cases h), hi.connected, (fun h => by cases h)⟩
  | stop => exact ⟨ht, fun _ _ => .inr (by simp [Connector.stop]), hi.connected, fun _ h => h⟩
  | @queue i f hf =>
    refine ⟨ht, fun hconnect hbusy => ?_, hi.connected, hi.handedBefore⟩
    rcases hi.stopping hconnect hbusy with hmem | hmem
    · exact .inl (List.mem_append_left _ hmem)
    · -- it is the one that is pushed, or still to be pushed
      by_cases hstop : f = .stopInLoop
      · exact .inl (by simp [hstop])
      · refine .inr ?_
        rcases List.mem_iff_getElem?.mp hmem with ⟨j, hj⟩
        have hne : j ≠ i := by
          rintro rfl
          rw [hf] at hj
          exact hstop (Option.some.inj hj)
        exact List.mem_eraseIdx_iff_getElem?.mpr ⟨j, hne, hj⟩
  | opens hstarts hstate hconnect =>
    have hconnect' := hstarts.connect.trans hconnect
    refine ⟨ht, fun h => ?_, fun h => ?_, fun h => ?_⟩
    · rw [openSocket, hconnect'] at h
      cases h
    · rw [openSocket, hstarts.state, hstate] at h
      cases h
    · rw [openSocket, hconnect'] at h
      cases h
  | declines hstarts hstate hconnect =>
    have hstate' := hstarts.state.trans hstate
    have hhanded := hstarts.fields.2.2.2.2.1
    apply StopInv.of_resting ht
    · simp [hstate']
    · exact fun _ h => by cases h
    · intro h
      rw [hstate'] at h
      cases h
    · intro _ h
      rw [hhanded] at h
      exact absurd h (hi.not_handed (by simp [hstate]))
  | @connecting sockfd _ hpoint hchannel =>
    refine ⟨ht, fun hconnect _ => hi.stopping hconnect (.inr ⟨sockfd, hpoint⟩), ?_,
      hi.handedBefore⟩
    exact fun h => by cases h
  | refused hpoint =>
    rw [retry_eq] at ht ⊢
    apply StopInv.of_resting ht
    · simp
    · exact fun _ h => by cases h
    · exact fun h => by cases h
    · exact hi.handedBefore
  | @failed sockfd _ hpoint =>
    have hstate := (hi.opening sockfd hpoint).1
    apply StopInv.of_resting ht
    · simp [close, hstate]
    · exact fun _ h => by cases h
    · exact hi.connected
    · exact hi.handedBefore
  | @returned sockfd hpoint =>
    have hstate := hi.handed (hi.newConnection sockfd hpoint)
    apply StopInv.of_resting ht
    · simp [hstate]
    · exact fun _ h => by cases h
    · exact hi.connected
    · exact hi.handedBefore
  | stopsNothing hpoint hfunctors hstate =>
    exact StopInv.of_resting ht hstate (not_opening_of_idle hpoint) hi.connected hi.handedBefore
  | stops hpoint hfunctors hstate hchannel =>
    rw [retry_eq] at ht ⊢
    apply StopInv.of_resting ht
    · simp
    · exact not_opening_of_idle hpoint
    · exact fun h => by cases h
    · exact hi.handedBefore
  | resets hpoint hfunctors =>
    refine ⟨ht, fun hconnect hbusy => ?_, hi.connected, hi.handedBefore⟩
    rcases hi.stopping hconnect hbusy with hmem | hmem
    · rw [hfunctors, List.mem_cons] at hmem
      exact .inl (hmem.resolve_left (by simp))
    · exact .inr hmem
  | ignores hpoint => exact hi
  | loses hpoint hstate hchannel =>
    rw [retry_eq] at ht ⊢
    apply StopInv.of_resting ht
    · simp
    · exact not_opening_of_idle hpoint
    · exact fun h => by cases h
    · exact hi.handedBefore
  | hands hpoint hstate hchannel hconnect =>
    apply StopInv.of_resting ht
    · simp
    · exact fun _ h => by cases h
    · exact fun _ => rfl
    · intro h
      exact absurd (hconnect.symm.trans h) (by simp)
  | abandons hpoint hstate hchannel hconnect => exact absurd ⟨rfl, hstate, hconnect⟩ hnot
  | restart hpoint hhanded =>
    exact ⟨ht, (fun h => by cases h), (fun h => by cases h), (fun h => by cases h)⟩

/-! ### What is left -/

/-- The steps of a run without `start` and `restart` open no socket when `connect_` is
    cleared. -/
theorem quiet_of_stopped (hi : Inv s) (hconnect : s.connect = false) {acts : List Action}
    (h : (system.restrict fun _ act => act.starts = false).Run s acts t) :
    t.opened = s.opened := by
  have hboth : Inv t ∧ t.connect = false ∧ t.opened = s.opened := by
    apply h.preserves
    · rintro u act v ⟨hu, hoff, hopened⟩ hst
      have hm := hu.move hst.of_restrict
      have hact : act.starts = false := hst.condition
      refine ⟨hu.of_move hm, ?_⟩
      cases hm with
      | startOwn | startOther | restart => cases hact
      | opens hstarts hstate hon => exact absurd (hoff.symm.trans hon) (by simp)
      | declines hstarts hstate _ =>
        exact ⟨hstarts.connect.trans hoff, hstarts.fields.2.2.2.2.2.1.trans hopened⟩
      | stop => exact ⟨rfl, hopened⟩
      | refused | stops | loses =>
        rw [retry_eq]
        exact ⟨hoff, hopened⟩
      | _ => exact ⟨hoff, hopened⟩
    · exact ⟨hi, hconnect, rfl⟩
  exact hboth.2.2

/-- From such a state `start` leads to an attempt. -/
theorem restartable_of_resting (hpoint : s.point = .idle) (hstate : s.state = .kDisconnected)
    (hchannel : s.channel = none) :
    ∃ acts t, system.Run s (.start true :: acts) t ∧ t.state = .kConnecting := by
  have hstart : system.Step s (.start true) { s with connect := true, point := .startInLoop } :=
    ⟨fun _ => hpoint, rfl⟩
  have hopen : system.Step { s with connect := true, point := .startInLoop } .startInLoop
      { s with connect := true, point := .startInLoop }.openSocket := by
    refine ⟨rfl, ?_⟩
    simp only [system, step, startInLoop, hstate, check_eq_ok, ok_bind, if_true, pure_eq_ok]
  have hconnect : system.Step { s with connect := true, point := .startInLoop }.openSocket
      (.connectReturned s.opened .EINPROGRESS)
      { s with
        connect := true, point := .idle, sockets := s.sockets ++ [s.opened],
        opened := s.opened + 1, state := .kConnecting,
        channel := some (s.opened, Channel.writing) } := by
    refine ⟨rfl, ?_⟩
    simp only [system, step, connectReturned, connecting, openSocket, hchannel, check_eq_ok,
      ok_bind, Channel.new_enableWriting, pure_eq_ok]
  exact ⟨_, _, ((Run.single hstart).append (Run.single hopen)).append (Run.single hconnect), rfl⟩

/-- **A stopped Connector is idle and can be started again.**  In the runs in which
    `handleWrite` does not find the socket connected after `connect_` has been cleared, a
    Connector that was last stopped and has done what was left to do has either handed its
    socket over before, or is idle. -/
theorem stopped_idle (h : (system.restrict fun s act => ¬ s.abandons act).Reachable s)
    (hstop : s.connect = false) (hsettled : Settled s) : s.handedAtStop = true ∨ Idle s := by
  have hi : StopInv s := by
    apply h.invariant
    · rintro s₀ rfl
      exact new_stopInv
    · intro u act v hu hst
      exact hu.of_move (hu.toInv.move hst.of_restrict) hst.condition
  have hrest : s.state ≠ .kConnecting := by
    intro hstate
    rcases hi.stopping hstop (.inl hstate) with hmem | hmem
    · exact hsettled.stops.1 hmem
    · exact hsettled.stops.2 hmem
  cases hhanded : s.handed with
  | true => exact .inl (hi.handedBefore hstop hhanded)
  | false =>
    have hstate : s.state = .kDisconnected := by
      cases hs : s.state with
      | kDisconnected => rfl
      | kConnecting => exact absurd hs hrest
      | kConnected => exact absurd ((hi.connected hs).symm.trans hhanded) (by simp)
    have hchannel : s.channel = none := by
      rcases hi.resting hrest with ⟨hchannel, -⟩ | ⟨_, -, hone⟩
      · exact hchannel
      · have hzero : s.resets = 0 := List.count_eq_zero_of_not_mem hsettled.resets
        omega
    have hsockets := hi.closed hrest (not_opening_of_idle hsettled.point)
    exact .inr ⟨hchannel, hsockets, hstate, fun _ _ => quiet_of_stopped hi.toInv hstop,
      restartable_of_resting hsettled.point hstate hchannel⟩

/-- The owner stops it while the connect is in progress. -/
theorem stopped_idle_connecting :
    ∃ s, (system.restrict fun s act => ¬ s.abandons act).exec new
        [.start true, .startInLoop, .connectReturned 0 .EINPROGRESS, .stop, .queueInLoop 0,
         .callFunctor, .callFunctor] = some s ∧ Idle s := by
  refine ⟨_, rfl, ?_⟩
  have hstopped := stopped_idle (reachable_of_exec
    (S := system.restrict fun s act => ¬ s.abandons act)
    [.start true, .startInLoop, .connectReturned 0 .EINPROGRESS, .stop, .queueInLoop 0,
     .callFunctor, .callFunctor] rfl rfl) rfl ⟨rfl, by decide, by decide, rfl⟩
  exact hstopped.resolve_left (by decide)

/-- **The socket becomes writable after `stop`.**  Everything has been done, nothing has been
    handed over, and `state_` is `kConnected`. -/
theorem stopped_connected :
    ∃ s, system.exec new
        [.start true, .startInLoop, .connectReturned 0 .EINPROGRESS, .stop,
         .handleEvent false true false false, .queueInLoop 0, .callFunctor, .callFunctor] = some s ∧
      s.connect = false ∧ Settled s ∧ s.state = .kConnected ∧
        ¬ (s.handedAtStop = true ∨ Idle s) := by
  refine ⟨_, rfl, rfl, ⟨rfl, by decide, by decide, rfl⟩, rfl, ?_⟩
  rintro (h | h)
  · cases h
  · cases h.state

/-- **The condition leaves out only what goes wrong**: after that step `state_` is
    `kConnected` for good, and nothing has been handed over. -/
theorem abandoned_stuck (h : system.Reachable s) (hst : system.Step s act t)
    (hbad : s.abandons act) {acts : List Action} {u : Connector} (hrun : system.Run t acts u) :
    u.state = .kConnected ∧ u.handed = false := by
  have hi : Inv s := inv_of_reachable h
  have ht : t.state = .kConnected ∧ t.handed = false := by
    rcases hbad with ⟨rfl, hstate, hconnect⟩
    have hnot := Bool.eq_false_iff.mpr (hi.not_handed (s := s) (by simp [hstate]))
    rcases hi.connecting hstate with ⟨sockfd, hchannel, -, -⟩
    have heq : s.handleWrite false false = .ok t := hst.2
    rw [handleWrite_connecting false false hstate hchannel] at heq
    obtain rfl := Except.ok.inj heq
    simp only [Bool.false_eq_true, if_false, hconnect]
    exact ⟨trivial, hnot⟩
  have hboth : Inv u ∧ u.state = .kConnected ∧ u.handed = false := by
    apply hrun.preserves
    · rintro u act v ⟨hu, hstate, hhanded⟩ hst
      have hm := hu.move hst
      refine ⟨hu.of_move hm, ?_⟩
      cases hm with
      | opens _ hdisconnected _ | declines _ hdisconnected _ =>
        exact absurd (hstate.symm.trans hdisconnected) (by simp)
      | connecting hpoint _ | refused hpoint | failed hpoint =>
        exact absurd (hstate.symm.trans (hu.opening _ hpoint).1) (by simp)
      | stops _ _ hconnecting _ | loses _ hconnecting _ | hands _ hconnecting _ _
      | abandons _ hconnecting _ _ => exact absurd (hstate.symm.trans hconnecting) (by simp)
      | restart _ htrue => exact absurd (hhanded.symm.trans htrue) (by simp)
      | _ => exact ⟨hstate, hhanded⟩
    · exact ⟨hi.step hst, ht⟩
  exact hboth.2

end Connector

end Kaycc
