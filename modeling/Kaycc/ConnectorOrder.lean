/-
  Kaycc/ConnectorOrder.lean
  =========================
  **In which orders a `Connector` may be started and stopped.**

  `startInLoop` asserts that no attempt is under way, and `connecting` that the
  channel of the last one is gone.  Neither is ensured by the code: a `start` may
  come while an attempt is under way, while another `startInLoop` is still to come
  (a retry timer is never cancelled), or, on the loop's thread, before the
  `resetChannel` of the last attempt has run; and a retry timer may fire before it.
  `startsInOrder` excludes these, and then at most one `startInLoop` is to come or
  under way at any time, and none while there is an attempt.
-/
import Mathlib.Data.List.Perm.Basic
import Kaycc.ConnectorMoves

namespace Kaycc

open Transition Transition.System

namespace Connector

variable {s t : Connector} {act : Action} {sockfd : Nat}

/-- The user calls `start` and `stop` alternately, beginning with `start`, and no
    connection has been handed over yet. -/
def alternates (s : Connector) (act : Action) : Prop :=
  s.handed = false ∧
    match act with
    | .start _ => s.connect = false
    | .stop => s.connect = true
    | _ => True

/-- The runs of such users. -/
def userSystem : System Connector Action Assertion := system.restrict alternates

/-- `startInLoop` has been decided on the loop's thread, or is under way. -/
def Point.starting : Point → Nat
  | .startInLoop => 1
  | .inConnect _ => 1
  | .idle | .newConnection _ => 0

/-- The calls of `startInLoop` that are to come or under way. -/
def startsToCome (s : Connector) : Nat :=
  s.timers.length + s.functors.count .startInLoop + s.calling.count .startInLoop +
    s.point.starting

/-- The condition on `start`, and on the retry timers. -/
def startsInOrder (s : Connector) : Action → Prop
  | .start inLoop =>
      s.state = .kDisconnected ∧ s.startsToCome = 0 ∧ (inLoop = true → s.resets = 0)
  | .retryTimer _ => s.connect = true → s.resets = 0
  | _ => True

instance (s : Connector) : (act : Action) → Decidable (s.alternates act)
  | .start _ => inferInstanceAs (Decidable (_ ∧ _))
  | .stop => inferInstanceAs (Decidable (_ ∧ _))
  | .queueInLoop _ | .startInLoop | .connectReturned _ _ | .newConnection _ | .callFunctor
  | .retryTimer _ | .handleEvent _ _ _ _ | .restart => inferInstanceAs (Decidable (_ ∧ True))

instance (s : Connector) (act : Action) : Decidable (userSystem.enabled s act) :=
  inferInstanceAs (Decidable (system.enabled s act ∧ s.alternates act))

instance (s : Connector) : (act : Action) → Decidable (s.startsInOrder act)
  | .start _ => inferInstanceAs (Decidable (_ ∧ _ ∧ _))
  | .retryTimer _ => inferInstanceAs (Decidable (_ → _))
  | .stop | .queueInLoop _ | .startInLoop | .connectReturned _ _ | .newConnection _
  | .callFunctor | .handleEvent _ _ _ _ | .restart => inferInstanceAs (Decidable True)

/-! ### The invariant -/

/-- No `resetChannel` waits behind a `startInLoop`. -/
def resetsFirst : List Functor → Prop
  | [] => True
  | f :: fs => (f = .startInLoop → .resetChannel ∉ fs) ∧ resetsFirst fs

theorem resetsFirst_append {fs : List Functor} {f : Functor} (h : resetsFirst fs)
    (hf : f = .resetChannel → .startInLoop ∉ fs) : resetsFirst (fs ++ [f]) := by
  induction fs with
  | nil => exact ⟨fun _ => by simp, trivial⟩
  | cons g fs ih =>
    rw [List.cons_append]
    refine ⟨fun hg => ?_, ih h.2 fun hreset hmem => hf hreset (List.mem_cons_of_mem _ hmem)⟩
    rw [List.mem_append, List.mem_singleton, not_or]
    refine ⟨h.1 hg, fun hreset => ?_⟩
    exact hf hreset.symm (by rw [hg]; exact List.mem_cons_self)

structure OrderInv (s : Connector) : Prop extends Inv s where
  one : s.startsToCome ≤ 1
  busy : s.state ≠ .kDisconnected → s.startsToCome = 0
  order : resetsFirst s.functors
  free : s.point.starting = 1 → s.channel = none

theorem new_orderInv : OrderInv new where
  toInv := new_inv
  one := by decide
  busy := fun h => absurd rfl h
  order := trivial
  free := fun h => by cases h

theorem Inv.channel_none (hi : Inv s) (hstate : s.state ≠ .kConnecting) (h : s.resets = 0) :
    s.channel = none := by
  rcases hi.resting hstate with ⟨hnone, -⟩ | ⟨_, -, hone⟩
  · exact hnone
  · omega

theorem count_eraseIdx_add {l : List Functor} {i : Nat} {f : Functor} (h : l[i]? = some f)
    (g : Functor) : (l.eraseIdx i).count g + [f].count g = l.count g := by
  rcases List.getElem?_eq_some_iff.mp h with ⟨hi, rfl⟩
  have hperm := (List.getElem_cons_eraseIdx_perm hi).count_eq g
  rw [← hperm]
  simp [List.count_cons]

/-- A call of `startInLoop` that begins is one that was to come. -/
theorem Starts.toCome {base : Connector} (h : Starts s act base) :
    base.startsToCome + 1 = s.startsToCome + base.point.starting := by
  cases h with
  | own hpoint => simp [hpoint, Point.starting]
  | functor hpoint hfunctors =>
    simp only [startsToCome, hfunctors, List.count_cons_self, hpoint, Point.starting]
    omega
  | timer hpoint hi =>
    simp only [startsToCome, List.length_eraseIdx_of_lt hi, hpoint, Point.starting]
    omega

/-- When `startInLoop` begins to connect, the channel of the last attempt is gone. -/
theorem OrderInv.starts (hi : OrderInv s) {base : Connector} (h : Starts s act base)
    (hstate : s.state = .kDisconnected) (hconnect : s.connect = true)
    (hin : s.startsInOrder act) : s.channel = none ∧ resetsFirst base.functors := by
  have hrest : s.state ≠ .kConnecting := by simp [hstate]
  cases h with
  | own hpoint => exact ⟨hi.free (by rw [hpoint]; rfl), hi.order⟩
  | functor hpoint hfunctors =>
    have horder := hi.order
    rw [hfunctors] at horder
    refine ⟨hi.channel_none hrest ?_, horder.2⟩
    rw [Connector.resets, hfunctors, List.count_cons_of_ne (by simp)]
    exact List.count_eq_zero_of_not_mem (horder.1 rfl)
  | timer hpoint _ => exact ⟨hi.channel_none hrest (hin hconnect), hi.order⟩

/-- While an attempt is under way no `startInLoop` is to come. -/
theorem OrderInv.attempt (hi : OrderInv s) (hstate : s.state = .kConnecting) :
    s.timers.length = 0 ∧ .startInLoop ∉ s.functors ∧ s.calling.count .startInLoop = 0 ∧
      s.point.starting = 0 := by
  have hzero := hi.busy (by simp [hstate])
  simp only [startsToCome] at hzero
  refine ⟨by omega, ?_, by omega, by omega⟩
  exact List.count_eq_zero.mp (by omega)

/-- The state after a retry of an attempt that was under way. -/
theorem OrderInv.retry (hi : OrderInv s) (hstate : s.state = .kConnecting)
    {functors : List Functor} (hsub : functors ⊆ s.functors) (horder : resetsFirst functors)
    (ht : Inv (({ s with functors := functors }.dropped sockfd).retry sockfd)) :
    OrderInv (({ s with functors := functors }.dropped sockfd).retry sockfd) := by
  rcases hi.attempt hstate with ⟨htimers, hfunctors, hcalling, hpoint⟩
  have hnot : .startInLoop ∉ functors := fun hmem => hfunctors (hsub hmem)
  rw [retry_eq] at ht ⊢
  refine ⟨ht, ?_, fun h => absurd rfl h, resetsFirst_append horder fun _ => hnot, fun h => ?_⟩
  · have hzero : (functors ++ [Functor.resetChannel]).count Functor.startInLoop = 0 :=
      List.count_eq_zero.mpr (by simp [hnot])
    have hlength :
        (if s.connect = true then s.timers ++ [s.retryDelayMs] else s.timers).length ≤ 1 := by
      split
      · simp [htimers]
      · omega
    simp only [startsToCome, close, dropped, hzero, hcalling, hpoint]
    exact hlength
  · simp only [close, dropped, hpoint] at h
    cases h

/-- The state after an attempt that was under way has been connected. -/
theorem OrderInv.connected (hi : OrderInv s) (hstate : s.state = .kConnecting) (ht : Inv t)
    (htimers : t.timers = s.timers) (hfunctors : t.functors = s.functors ++ [.resetChannel])
    (hcalling : t.calling = s.calling) (hpoint : t.point.starting = 0) : OrderInv t := by
  rcases hi.attempt hstate with ⟨hnotimers, hnot, hnocalls, -⟩
  have hcount : t.functors.count .startInLoop = 0 := by
    rw [hfunctors]
    exact List.count_eq_zero.mpr (by simp [hnot])
  have hzero : t.startsToCome = 0 := by
    simp only [startsToCome, htimers, hnotimers, hcount, hcalling, hnocalls, hpoint]
  refine ⟨ht, by omega, fun _ => hzero, ?_, fun h => ?_⟩
  · rw [hfunctors]
    exact resetsFirst_append hi.order fun _ => hnot
  · rw [hpoint] at h
    cases h

theorem OrderInv.of_move (hi : OrderInv s) (hm : Move s act t) (halt : s.alternates act)
    (hin : s.startsInOrder act) : OrderInv t := by
  have ht : Inv t := hi.toInv.of_move hm
  have hone := hi.one
  cases hm with
  | startOwn hpoint =>
    rcases hin with ⟨hstate, hzero, hresets⟩
    have hrest : s.state ≠ .kConnecting := by simp [hstate]
    have hfree := hi.channel_none hrest (hresets rfl)
    refine ⟨ht, ?_, fun h => absurd hstate h, hi.order, fun _ => hfree⟩
    simp only [startsToCome, hpoint, Point.starting] at hzero ⊢
    omega
  | startOther =>
    rcases hin with ⟨hstate, hzero, -⟩
    refine ⟨ht, ?_, fun h => absurd hstate h, hi.order, hi.free⟩
    simp only [startsToCome, List.count_append, List.count_singleton_self] at hzero ⊢
    omega
  | stop =>
    have hsame : s.stop.startsToCome = s.startsToCome := by
      simp [startsToCome, Connector.stop]
    have hbusy : s.stop.state ≠ .kDisconnected → s.stop.startsToCome = 0 := by
      intro h
      rw [hsame]
      exact hi.busy h
    exact ⟨ht, by rw [hsame]; exact hone, hbusy, hi.order, hi.free⟩
  | @queue i f hf =>
    have hne : f ≠ .resetChannel := fun heq => hi.calling (heq ▸ List.mem_of_getElem? hf)
    have hsame : Connector.startsToCome { s with
        calling := s.calling.eraseIdx i, functors := s.functors ++ [f] } = s.startsToCome := by
      have := count_eraseIdx_add hf .startInLoop
      simp only [startsToCome, List.count_append]
      omega
    refine ⟨ht, by rw [hsame]; exact hone, fun h => by rw [hsame]; exact hi.busy h, ?_, hi.free⟩
    exact resetsFirst_append hi.order fun heq => absurd heq hne
  | opens hstarts hstate hconnect =>
    have hcome := hstarts.toCome
    rcases hi.starts hstarts hstate hconnect hin with ⟨hchannel, horder⟩
    have hbase := hstarts.state.trans hstate
    refine ⟨ht, ?_, fun h => absurd hbase h, horder, fun _ => ?_⟩
    · simp only [startsToCome, openSocket, Point.starting] at hone hcome ⊢
      omega
    · exact hstarts.fields.1.trans hchannel
  | declines hstarts hstate hconnect =>
    have hcome := hstarts.toCome
    have hbase := hstarts.state.trans hstate
    refine ⟨ht, ?_, fun h => absurd hbase h, ?_, fun h => by cases h⟩
    · simp only [startsToCome, Point.starting] at hone hcome ⊢
      omega
    · cases hstarts with
      | own | timer => exact hi.order
      | functor _ hfunctors =>
        have horder := hi.order
        rw [hfunctors] at horder
        exact horder.2
  | @connecting sockfd _ hpoint hchannel =>
    refine ⟨ht, ?_, fun _ => ?_, hi.order, fun h => by cases h⟩
    all_goals
      simp only [startsToCome, hpoint, Point.starting] at hone ⊢
      omega
  | @refused sockfd _ hpoint =>
    rw [retry_eq] at ht ⊢
    refine ⟨ht, ?_, fun h => absurd rfl h, hi.order, fun h => by cases h⟩
    simp only [startsToCome, close, hpoint, Point.starting] at hone ⊢
    split
    · rw [List.length_append, List.length_singleton]
      omega
    · omega
  | @failed sockfd _ hpoint =>
    have hstate := (hi.opening sockfd hpoint).1
    refine ⟨ht, ?_, fun h => absurd hstate h, hi.order, fun h => by cases h⟩
    simp only [startsToCome, close, hpoint, Point.starting] at hone ⊢
    omega
  | @returned sockfd hpoint =>
    exact absurd (halt.1.symm.trans (hi.newConnection sockfd hpoint)) (by simp)
  | stopsNothing hpoint hfunctors hstate =>
    have horder := hi.order
    have hbusy := hi.busy
    rw [hfunctors] at horder
    have hne : Functor.stopInLoop ≠ .startInLoop := by simp
    simp only [startsToCome, hfunctors, List.count_cons_of_ne hne] at hone hbusy
    exact ⟨ht, hone, hbusy, horder.2, hi.free⟩
  | stops hpoint hfunctors hstate hchannel =>
    have horder := hi.order
    rw [hfunctors] at horder
    exact hi.retry hstate (by rw [hfunctors]; exact List.subset_cons_self _ _) horder.2 ht
  | resets hpoint hfunctors =>
    have horder := hi.order
    have hbusy := hi.busy
    rw [hfunctors] at horder
    have hne : Functor.resetChannel ≠ .startInLoop := by simp
    simp only [startsToCome, hfunctors, List.count_cons_of_ne hne] at hone hbusy
    exact ⟨ht, hone, hbusy, horder.2, fun _ => rfl⟩
  | ignores hpoint => exact hi
  | loses hpoint hstate hchannel =>
    exact hi.retry hstate (fun _ h => h) hi.order ht
  | hands hpoint hstate hchannel hconnect => exact hi.connected hstate ht rfl rfl rfl rfl
  | abandons hpoint hstate hchannel hconnect =>
    exact hi.connected hstate ht rfl rfl rfl (hi.attempt hstate).2.2.2
  | restart hpoint hhanded => exact absurd (halt.1.symm.trans hhanded) (by simp)

theorem OrderInv.step (hi : OrderInv s)
    (hst : (userSystem.restrict startsInOrder).Step s act t) : OrderInv t :=
  hi.of_move (hi.toInv.move hst.of_restrict.of_restrict) hst.of_restrict.condition hst.condition

theorem orderInv_of_reachable (h : (userSystem.restrict startsInOrder).Reachable s) :
    OrderInv s := by
  apply h.invariant
  · rintro s₀ rfl
    exact new_orderInv
  · exact fun _ _ _ hi hst => hi.step hst

/-! ### No assertion fails -/

theorem startInLoop_ok (hstate : s.state = .kDisconnected) : ∃ t, s.startInLoop = .ok t := by
  simp only [startInLoop, check_eq_ok hstate, ok_bind]
  split
  · exact ⟨_, rfl⟩
  · exact ⟨_, rfl⟩

/-- A `startInLoop` that is to come finds `kDisconnected`. -/
theorem OrderInv.disconnected (hi : OrderInv s) (h : 0 < s.startsToCome) :
    s.state = .kDisconnected := by
  by_contra hstate
  have := hi.busy hstate
  omega

theorem Inv.resetChannel_ok (hi : Inv s) (h : 0 < s.resets) (functors : List Functor) :
    ∃ t, { s with functors := functors }.resetChannel = .ok t := by
  have hrest : s.state ≠ .kConnecting := by
    intro hstate
    rcases hi.connecting hstate with ⟨_, _, _, hzero⟩
    omega
  rcases hi.resting hrest with ⟨hchannel, -⟩ | ⟨sockfd, hchannel, -⟩
  · simp only [resetChannel, hchannel]
    exact ⟨_, rfl⟩
  · simp only [resetChannel, hchannel]
    exact ⟨_, rfl⟩

theorem Inv.stopInLoop_ok (hi : Inv s) (functors : List Functor) :
    ∃ t, { s with functors := functors }.stopInLoop = .ok t := by
  by_cases hstate : s.state = .kConnecting
  · rcases hi.connecting hstate with ⟨sockfd, hchannel, -, -⟩
    exact ⟨_, stopInLoop_connecting (s := { s with functors := functors }) hstate hchannel⟩
  · exact ⟨_, stopInLoop_resting (s := { s with functors := functors }) hstate⟩

/-- A channel in the poller is that of an attempt under way. -/
theorem Inv.connecting_of_watched (hi : Inv s) (h : s.watched = true) :
    s.state = .kConnecting := by
  by_contra hstate
  rcases hi.resting hstate with ⟨hchannel, -⟩ | ⟨sockfd, hchannel, -⟩
  · simp only [watched, hchannel] at h
    cases h
  · simp only [watched, hchannel] at h
    cases h

theorem Inv.handleEvent_ok (hi : Inv s) (hwatched : s.watched = true)
    (error writable err isSelfConnect : Bool) :
    ∃ t, s.handleEvent error writable err isSelfConnect = .ok t := by
  have hstate := hi.connecting_of_watched hwatched
  rcases hi.connecting hstate with ⟨sockfd, hchannel, -, -⟩
  cases error with
  | true =>
    have hwrite : ((s.dropped sockfd).retry sockfd).handleWrite err isSelfConnect =
        .ok ((s.dropped sockfd).retry sockfd) := by
      simp only [handleWrite, retry_state, check_eq_ok, ok_bind, pure_eq_ok]
      rfl
    simp only [handleEvent, if_true, handleError_connecting hstate hchannel, ok_bind, hwrite]
    split
    · exact ⟨_, rfl⟩
    · exact ⟨_, rfl⟩
  | false =>
    simp only [handleEvent, Bool.false_eq_true, if_false, pure_eq_ok, ok_bind,
      handleWrite_connecting err isSelfConnect hstate hchannel]
    split
    · exact ⟨_, rfl⟩
    · exact ⟨_, rfl⟩

theorem OrderInv.connectReturned_ok (hi : OrderInv s) (hpoint : s.point = .inConnect sockfd)
    (savedErrno : Errno) : ∃ t, s.step (.connectReturned sockfd savedErrno) = .ok t := by
  have hchannel : s.channel = none := hi.free (by rw [hpoint]; rfl)
  cases savedErrno with
  | zero | EINPROGRESS | EINTR | EISCONN =>
    simp only [Connector.step, connectReturned, connecting, hchannel, check_eq_ok, ok_bind,
      Channel.new_enableWriting, pure_eq_ok]
    exact ⟨_, rfl⟩
  | _ => exact ⟨_, rfl⟩

theorem OrderInv.step_ok (hi : OrderInv s) (hen : s.enabled act) : ∃ t, s.step act = .ok t := by
  cases act with
  | start | stop | newConnection | restart => exact ⟨_, rfl⟩
  | queueInLoop i =>
    simp only [Connector.step]
    split
    · exact ⟨_, rfl⟩
    · exact ⟨_, rfl⟩
  | startInLoop =>
    apply startInLoop_ok
    apply hi.disconnected
    have hpoint : s.point = .startInLoop := hen
    simp [startsToCome, hpoint, Point.starting]
  | connectReturned sockfd savedErrno => exact hi.connectReturned_ok hen savedErrno
  | callFunctor =>
    cases hfunctors : s.functors with
    | nil => exact absurd hfunctors hen.2
    | cons f functors =>
      simp only [Connector.step, hfunctors]
      cases f with
      | startInLoop =>
        apply startInLoop_ok
        apply hi.disconnected
        simp only [startsToCome, hfunctors, List.count_cons_self]
        omega
      | stopInLoop => exact hi.stopInLoop_ok functors
      | resetChannel =>
        apply hi.resetChannel_ok
        simp [Connector.resets, hfunctors]
  | retryTimer i =>
    apply startInLoop_ok
    apply hi.disconnected
    have hlt : i < s.timers.length := hen.2
    simp only [startsToCome]
    omega
  | handleEvent error writable err isSelfConnect =>
    exact hi.handleEvent_ok hen.2 error writable err isSelfConnect

theorem Inv.sockets_length (hi : Inv s) : s.sockets.length ≤ 1 := by
  by_cases hstate : s.state = .kConnecting
  · rcases hi.connecting hstate with ⟨sockfd, _, hsockets, _⟩
    simp [hsockets]
  · by_cases hpoint : ∃ sockfd, s.point = .inConnect sockfd
    · rcases hpoint with ⟨sockfd, hpoint⟩
      simp [(hi.opening sockfd hpoint).2]
    · have hnot : ∀ sockfd, s.point ≠ .inConnect sockfd := fun sockfd h => hpoint ⟨sockfd, h⟩
      simp [hi.closed hstate hnot]

/-- **A Connector survives the orders of `start` and `stop` that wait.**  In the runs in
    which `start` comes only when `state_` is `kDisconnected`, no `startInLoop` is to come
    or under way and, on the loop's thread, no `resetChannel` is queued, and in which no
    retry timer fires between the end of an attempt and its `resetChannel`, no assertion of
    the Connector fails, and there is never more than one attempt. -/
theorem survives_in_order (h : (userSystem.restrict startsInOrder).Reachable s) :
    s.sockets.length ≤ 1 ∧
      ∀ act, (userSystem.restrict startsInOrder).enabled s act → ∃ t, s.step act = .ok t := by
  have hi := orderInv_of_reachable h
  exact ⟨hi.toInv.sockets_length, fun act hen => hi.step_ok hen.1.1⟩

/-- A refused attempt, a retry, an error, and a stop, after which another thread starts. -/
theorem survives_in_order_restart :
    ∃ s, (userSystem.restrict startsInOrder).exec new
        [.start true, .startInLoop, .connectReturned 0 .ECONNREFUSED, .retryTimer 0,
         .connectReturned 1 .EINPROGRESS, .handleEvent true true true false, .callFunctor, .stop,
         .retryTimer 0, .queueInLoop 0, .callFunctor, .start false, .queueInLoop 0, .callFunctor,
         .connectReturned 2 .zero] = some s ∧
      s.state = .kConnecting ∧ s.sockets.length ≤ 1 := by
  refine ⟨_, rfl, rfl, ?_⟩
  exact (survives_in_order (reachable_of_exec (S := userSystem.restrict startsInOrder)
    [.start true, .startInLoop, .connectReturned 0 .ECONNREFUSED, .retryTimer 0,
     .connectReturned 1 .EINPROGRESS, .handleEvent true true true false, .callFunctor, .stop,
     .retryTimer 0, .queueInLoop 0, .callFunctor, .start false, .queueInLoop 0, .callFunctor,
     .connectReturned 2 .zero] rfl rfl)).1

/-- **It does not survive the others**: a start while the last attempt is still being
    stopped, a retry timer of an attempt before the last stop, and a start before the
    `resetChannel` of the attempt that was stopped. -/
theorem start_stop_start_fails :
    (∃ s, userSystem.exec new
        [.start true, .startInLoop, .connectReturned 0 .EINPROGRESS, .stop, .start true] = some s ∧
      userSystem.enabled s .startInLoop ∧
      s.step .startInLoop = .error .connectorDisconnected) ∧
    (∃ s, userSystem.exec new
        [.start true, .startInLoop, .connectReturned 0 .ECONNREFUSED, .stop, .start true,
         .startInLoop, .connectReturned 1 .EINPROGRESS] = some s ∧
      userSystem.enabled s (.retryTimer 0) ∧
      s.step (.retryTimer 0) = .error .connectorDisconnected) ∧
    (∃ s, userSystem.exec new
        [.start true, .startInLoop, .connectReturned 0 .EINPROGRESS, .stop, .queueInLoop 0,
         .callFunctor, .start true, .startInLoop] = some s ∧
      userSystem.enabled s (.connectReturned 1 .EINPROGRESS) ∧
      s.step (.connectReturned 1 .EINPROGRESS) = .error .connectorNoChannel) := by
  refine ⟨⟨_, rfl, ?_, rfl⟩, ⟨_, rfl, ?_, rfl⟩, ⟨_, rfl, ?_, rfl⟩⟩
  · decide
  · decide
  · decide

end Connector

end Kaycc
