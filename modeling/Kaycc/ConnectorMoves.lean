/-
  Kaycc/ConnectorMoves.lean
  =========================
  **What a step of a `Connector` does.**

  In every state that is reached, without any condition on the order of the calls,
  `channel_` and the sockets follow `state_` (`Inv`).  `Move` lists the steps in
  closed form under this invariant; the results on runs go by cases on it.
-/
import Kaycc.Connector

namespace Kaycc

open Transition

namespace Connector

variable {s t : Connector} {act : Action} {sockfd : Nat}

/-- How many `resetChannel` wait in the loop. -/
def resets (s : Connector) : Nat := s.functors.count .resetChannel

/-- `channel_` and the sockets follow `state_`. -/
structure Inv (s : Connector) : Prop where
  connecting : s.state = .kConnecting →
    ∃ sockfd, s.channel = some (sockfd, Channel.writing) ∧ s.sockets = [sockfd] ∧ s.resets = 0
  resting : s.state ≠ .kConnecting →
    (s.channel = none ∧ s.resets = 0) ∨
      ∃ sockfd, s.channel = some (sockfd, Channel.new) ∧ s.resets = 1
  opening : ∀ sockfd, s.point = .inConnect sockfd →
    s.state = .kDisconnected ∧ s.sockets = [sockfd]
  closed : s.state ≠ .kConnecting → (∀ sockfd, s.point ≠ .inConnect sockfd) → s.sockets = []
  calling : .resetChannel ∉ s.calling
  handed : s.handed = true → s.state = .kConnected
  newConnection : ∀ sockfd, s.point = .newConnection sockfd → s.handed = true

theorem new_inv : Inv new where
  connecting := fun h => by cases h
  resting := fun _ => .inl ⟨rfl, rfl⟩
  opening := fun _ h => by cases h
  closed := fun _ _ => rfl
  calling := by simp [new]
  handed := fun h => by cases h
  newConnection := fun _ h => by cases h

/-- The channel is unregistered and its `resetChannel` queued. -/
def dropped (s : Connector) (sockfd : Nat) : Connector :=
  { s with
    channel := some (sockfd, Channel.new)
    functors := s.functors ++ [.resetChannel] }

theorem removeAndResetChannel_eq (h : s.channel = some (sockfd, Channel.writing)) :
    s.removeAndResetChannel = .ok (s.dropped sockfd, sockfd) := by
  simp only [removeAndResetChannel, h]
  rfl

/-! ### The steps in closed form -/

/-- `startInLoop` is called, and the call was known in `s` but is not in `base`. -/
inductive Starts (s : Connector) : Action → Connector → Prop where
  | own (hpoint : s.point = .startInLoop) : Starts s .startInLoop s
  | functor {functors : List Functor} (hpoint : s.point = .idle)
      (hfunctors : s.functors = .startInLoop :: functors) :
      Starts s .callFunctor { s with functors := functors }
  | timer {i : Nat} (hpoint : s.point = .idle) (hi : i < s.timers.length) :
      Starts s (.retryTimer i) { s with timers := s.timers.eraseIdx i }

inductive Move (s : Connector) : Action → Connector → Prop where
  | startOwn (hpoint : s.point = .idle) :
      Move s (.start true) { s with connect := true, point := .startInLoop }
  | startOther :
      Move s (.start false) { s with connect := true, calling := s.calling ++ [.startInLoop] }
  | stop : Move s .stop s.stop
  | queue {i : Nat} {f : Functor} (hf : s.calling[i]? = some f) :
      Move s (.queueInLoop i)
        { s with calling := s.calling.eraseIdx i, functors := s.functors ++ [f] }
  | opens {act : Action} {base : Connector} (hstarts : Starts s act base)
      (hstate : s.state = .kDisconnected) (hconnect : s.connect = true) :
      Move s act base.openSocket
  | declines {act : Action} {base : Connector} (hstarts : Starts s act base)
      (hstate : s.state = .kDisconnected) (hconnect : s.connect = false) :
      Move s act { base with point := .idle }
  | connecting {sockfd : Nat} {savedErrno : Errno} (hpoint : s.point = .inConnect sockfd)
      (hchannel : s.channel = none) :
      Move s (.connectReturned sockfd savedErrno)
        { s with
          point := .idle, state := .kConnecting, channel := some (sockfd, Channel.writing) }
  | refused {sockfd : Nat} {savedErrno : Errno} (hpoint : s.point = .inConnect sockfd) :
      Move s (.connectReturned sockfd savedErrno) ({ s with point := .idle }.retry sockfd)
  | failed {sockfd : Nat} {savedErrno : Errno} (hpoint : s.point = .inConnect sockfd) :
      Move s (.connectReturned sockfd savedErrno) ({ s with point := .idle }.close sockfd)
  | returned {sockfd : Nat} (hpoint : s.point = .newConnection sockfd) :
      Move s (.newConnection sockfd) { s with point := .idle }
  | stopsNothing {functors : List Functor} (hpoint : s.point = .idle)
      (hfunctors : s.functors = .stopInLoop :: functors) (hstate : s.state ≠ .kConnecting) :
      Move s .callFunctor { s with functors := functors }
  | stops {functors : List Functor} {sockfd : Nat} (hpoint : s.point = .idle)
      (hfunctors : s.functors = .stopInLoop :: functors) (hstate : s.state = .kConnecting)
      (hchannel : s.channel = some (sockfd, Channel.writing)) :
      Move s .callFunctor (({ s with functors := functors }.dropped sockfd).retry sockfd)
  | resets {functors : List Functor} (hpoint : s.point = .idle)
      (hfunctors : s.functors = .resetChannel :: functors) :
      Move s .callFunctor { s with functors := functors, channel := none }
  | ignores {error writable err isSelfConnect : Bool} (hpoint : s.point = .idle) :
      Move s (.handleEvent error writable err isSelfConnect) s
  | loses {error writable err isSelfConnect : Bool} {sockfd : Nat} (hpoint : s.point = .idle)
      (hstate : s.state = .kConnecting) (hchannel : s.channel = some (sockfd, Channel.writing)) :
      Move s (.handleEvent error writable err isSelfConnect) ((s.dropped sockfd).retry sockfd)
  | hands {sockfd : Nat} (hpoint : s.point = .idle) (hstate : s.state = .kConnecting)
      (hchannel : s.channel = some (sockfd, Channel.writing)) (hconnect : s.connect = true) :
      Move s (.handleEvent false true false false)
        { (s.dropped sockfd).close sockfd with
          state := .kConnected, point := .newConnection sockfd, handed := true }
  | abandons {sockfd : Nat} (hpoint : s.point = .idle) (hstate : s.state = .kConnecting)
      (hchannel : s.channel = some (sockfd, Channel.writing)) (hconnect : s.connect = false) :
      Move s (.handleEvent false true false false)
        { (s.dropped sockfd).close sockfd with state := .kConnected }
  | restart (hpoint : s.point = .idle) (hhanded : s.handed = true) : Move s .restart s.restart

/-- `retry` closes the socket and may add a timer. -/
theorem retry_eq (s : Connector) (sockfd : Nat) :
    s.retry sockfd = { s.close sockfd with
      state := .kDisconnected
      timers := if s.connect = true then s.timers ++ [s.retryDelayMs] else s.timers
      retryDelayMs := (s.retry sockfd).retryDelayMs } := by
  unfold retry
  split
  · rfl
  · rfl

@[simp] theorem retry_state (s : Connector) (sockfd : Nat) :
    (s.retry sockfd).state = .kDisconnected := by rw [retry_eq]

theorem Starts.state {base : Connector} (h : Starts s act base) : base.state = s.state := by
  cases h <;> rfl

theorem Starts.connect {base : Connector} (h : Starts s act base) : base.connect = s.connect := by
  cases h <;> rfl

theorem Starts.move {base : Connector} (h : Starts s act base) (hst : base.startInLoop = .ok t) :
    Move s act t := by
  rcases bind_eq_ok.mp hst with ⟨_, hstate, hst⟩
  have hdisconnected : s.state = .kDisconnected := h.state.symm.trans (of_check_ok hstate)
  split at hst
  · rename_i hconnect
    obtain rfl := Except.ok.inj hst
    exact .opens h hdisconnected (h.connect.symm.trans hconnect)
  · rename_i hconnect
    obtain rfl := Except.ok.inj hst
    rw [h.connect] at hconnect
    exact .declines h hdisconnected (Bool.eq_false_iff.mpr hconnect)

/-- An attempt is under way: the error callback. -/
theorem handleError_connecting (hstate : s.state = .kConnecting)
    (hchannel : s.channel = some (sockfd, Channel.writing)) :
    s.handleError = .ok ((s.dropped sockfd).retry sockfd) := by
  simp only [handleError, if_pos hstate, removeAndResetChannel_eq hchannel, ok_bind, pure_eq_ok]

theorem handleError_resting (hstate : s.state ≠ .kConnecting) : s.handleError = .ok s := by
  simp only [handleError, if_neg hstate, pure_eq_ok]

/-- An attempt is under way: `stopInLoop`. -/
theorem stopInLoop_connecting (hstate : s.state = .kConnecting)
    (hchannel : s.channel = some (sockfd, Channel.writing)) :
    s.stopInLoop = .ok ((s.dropped sockfd).retry sockfd) := by
  have hremove := removeAndResetChannel_eq (s := { s with state := .kDisconnected }) hchannel
  simp only [stopInLoop, if_pos hstate, hremove, ok_bind, pure_eq_ok]
  cases hconnect : s.connect <;> simp [retry, dropped, close, hconnect]

theorem stopInLoop_resting (hstate : s.state ≠ .kConnecting) : s.stopInLoop = .ok s := by
  simp only [stopInLoop, if_neg hstate, pure_eq_ok]

/-- No attempt is under way: the write callback. -/
theorem handleWrite_resting {err isSelfConnect : Bool} (hstate : s.state ≠ .kConnecting)
    (h : s.handleWrite err isSelfConnect = .ok t) : t = s := by
  simp only [handleWrite, if_neg hstate] at h
  rcases bind_eq_ok.mp h with ⟨_, _, h⟩
  exact (Except.ok.inj h).symm

/-- An attempt is under way: the write callback. -/
theorem handleWrite_connecting (err isSelfConnect : Bool) (hstate : s.state = .kConnecting)
    (hchannel : s.channel = some (sockfd, Channel.writing)) :
    s.handleWrite err isSelfConnect = .ok (
      if err = true then (s.dropped sockfd).retry sockfd
      else if isSelfConnect = true then (s.dropped sockfd).retry sockfd
      else if s.connect = true then
        { (s.dropped sockfd).close sockfd with
          state := .kConnected, point := .newConnection sockfd, handed := true }
      else { (s.dropped sockfd).close sockfd with state := .kConnected }) := by
  simp only [handleWrite, if_pos hstate, removeAndResetChannel_eq hchannel, ok_bind, pure_eq_ok]
  cases err <;> cases isSelfConnect <;> cases hconnect : s.connect <;>
    simp [dropped, close, hconnect]

theorem handleEvent_move (hi : Inv s) {error writable err isSelfConnect : Bool}
    (hpoint : s.point = .idle)
    (hst : s.handleEvent error writable err isSelfConnect = .ok t) :
    Move s (.handleEvent error writable err isSelfConnect) t := by
  by_cases hstate : s.state = .kConnecting
  · rcases hi.connecting hstate with ⟨sockfd, hchannel, -, -⟩
    cases error with
    | true =>
      simp only [handleEvent, if_true, handleError_connecting hstate hchannel, ok_bind] at hst
      have heq : t = (s.dropped sockfd).retry sockfd := by
        split at hst
        · exact handleWrite_resting (by simp) hst
        · exact (Except.ok.inj hst).symm
      rw [heq]
      exact .loses hpoint hstate hchannel
    | false =>
      simp only [handleEvent, Bool.false_eq_true, if_false, pure_eq_ok, ok_bind,
        handleWrite_connecting err isSelfConnect hstate hchannel] at hst
      cases writable with
      | false =>
        obtain rfl := Except.ok.inj hst
        exact .ignores hpoint
      | true =>
        rw [if_pos rfl] at hst
        obtain rfl := Except.ok.inj hst
        cases err with
        | true => exact .loses hpoint hstate hchannel
        | false =>
          cases isSelfConnect with
          | true => exact .loses hpoint hstate hchannel
          | false =>
            simp only [Bool.false_eq_true, if_false]
            split
            · rename_i hconnect
              exact .hands hpoint hstate hchannel hconnect
            · rename_i hconnect
              exact .abandons hpoint hstate hchannel (Bool.eq_false_iff.mpr hconnect)
  · have herror : (if error = true then s.handleError else pure s) = .ok s := by
      split
      · exact handleError_resting hstate
      · rfl
    simp only [handleEvent, herror, ok_bind] at hst
    have heq : t = s := by
      split at hst
      · exact handleWrite_resting hstate hst
      · exact (Except.ok.inj hst).symm
    rw [heq]
    exact .ignores hpoint

/-- `sockets::connect` returns. -/
theorem connectReturned_move {savedErrno : Errno} (hpoint : s.point = .inConnect sockfd)
    (hst : { s with point := .idle }.connectReturned sockfd savedErrno = .ok t) :
    Move s (.connectReturned sockfd savedErrno) t := by
  cases savedErrno with
  | zero | EINPROGRESS | EINTR | EISCONN =>
    rcases bind_eq_ok.mp hst with ⟨_, hchannel, hst⟩
    obtain rfl := Except.ok.inj hst
    exact .connecting hpoint (of_check_ok hchannel)
  | EAGAIN | EADDRINUSE | EADDRNOTAVAIL | ECONNREFUSED | ENETUNREACH =>
    obtain rfl := Except.ok.inj hst
    exact .refused hpoint
  | EACCES | EPERM | EAFNOSUPPORT | EALREADY | EBADF | EFAULT | ENOTSOCK | other _ =>
    obtain rfl := Except.ok.inj hst
    exact .failed hpoint

theorem callFunctor_move (hi : Inv s) (hpoint : s.point = .idle) {f : Functor}
    {functors : List Functor} (hfunctors : s.functors = f :: functors)
    (hst : { s with functors := functors }.call f = .ok t) : Move s .callFunctor t := by
  cases f with
  | startInLoop => exact (Starts.functor hpoint hfunctors).move hst
  | stopInLoop =>
    have hst : { s with functors := functors }.stopInLoop = .ok t := hst
    by_cases hstate : s.state = .kConnecting
    · rcases hi.connecting hstate with ⟨sockfd, hchannel, -, -⟩
      rw [stopInLoop_connecting (s := { s with functors := functors }) hstate hchannel] at hst
      obtain rfl := Except.ok.inj hst
      exact .stops hpoint hfunctors hstate hchannel
    · rw [stopInLoop_resting (s := { s with functors := functors }) hstate] at hst
      obtain rfl := Except.ok.inj hst
      exact .stopsNothing hpoint hfunctors hstate
  | resetChannel =>
    have heq : t = { s with functors := functors, channel := none } := by
      simp only [call, resetChannel] at hst
      split at hst
      · rename_i hchannel
        rw [← Except.ok.inj hst, ← hchannel]
      · rcases bind_eq_ok.mp hst with ⟨_, _, hst⟩
        exact (Except.ok.inj hst).symm
    rw [heq]
    exact .resets hpoint hfunctors

/-- Every step is one of the list. -/
theorem Inv.move (hi : Inv s) (hst : system.Step s act t) : Move s act t := by
  have hen : s.enabled act := hst.1
  have heq : s.step act = .ok t := hst.2
  cases act with
  | start inLoop =>
    obtain rfl := Except.ok.inj heq
    cases inLoop with
    | true => exact .startOwn (hen rfl)
    | false => exact .startOther
  | stop =>
    obtain rfl := Except.ok.inj heq
    exact .stop
  | queueInLoop i =>
    have hi : s.calling[i]? = some (s.calling.get ⟨i, hen⟩) := List.getElem?_eq_getElem hen
    simp only [step, hi] at heq
    obtain rfl := Except.ok.inj heq
    exact .queue hi
  | startInLoop => exact (Starts.own hen).move heq
  | connectReturned sockfd savedErrno => exact connectReturned_move hen heq
  | newConnection sockfd =>
    obtain rfl := Except.ok.inj heq
    exact .returned hen
  | callFunctor =>
    cases hfunctors : s.functors with
    | nil => exact absurd hfunctors hen.2
    | cons f functors =>
      simp only [step, hfunctors] at heq
      exact callFunctor_move hi hen.1 hfunctors heq
  | retryTimer i => exact (Starts.timer hen.1 hen.2).move heq
  | handleEvent error writable err isSelfConnect => exact handleEvent_move hi hen.1 heq
  | restart =>
    obtain rfl := Except.ok.inj heq
    exact .restart hen.1 hen.2

/-! ### They keep the invariant -/

theorem not_opening_of_idle (hpoint : s.point = .idle) : ∀ sockfd, s.point ≠ .inConnect sockfd := by
  intro sockfd h
  rw [hpoint] at h
  cases h

theorem Inv.not_handed (hi : Inv s) (hstate : s.state ≠ .kConnected) : s.handed ≠ true :=
  fun h => hstate (hi.handed h)

/-- The socket and the reset of an attempt that is under way. -/
theorem Inv.attempt (hi : Inv s) (hstate : s.state = .kConnecting)
    (hchannel : s.channel = some (sockfd, Channel.writing)) :
    s.sockets.erase sockfd = [] ∧ s.resets = 0 := by
  rcases hi.connecting hstate with ⟨fd, hfd, hsockets, hresets⟩
  rw [hchannel] at hfd
  obtain rfl : sockfd = fd := congrArg Prod.fst (Option.some.inj hfd)
  rw [hsockets]
  exact ⟨by simp, hresets⟩

/-- Once an attempt has ended, its channel waits for `resetChannel`, and its socket is
    closed or gone. -/
theorem Inv.ended (hi : Inv s) (hstate : s.state = .kConnecting)
    (hchannel : s.channel = some (sockfd, Channel.writing)) (hnot : t.state ≠ .kConnecting)
    (ht : t.channel = some (sockfd, Channel.new)) (hsockets : t.sockets = s.sockets.erase sockfd)
    (hresets : t.resets = s.resets + 1) (hcalling : t.calling = s.calling)
    (hopening : ∀ fd, t.point ≠ .inConnect fd) (hhanded : t.handed = true → t.state = .kConnected)
    (hnew : ∀ fd, t.point = .newConnection fd → t.handed = true) : Inv t := by
  rcases hi.attempt hstate hchannel with ⟨herase, hzero⟩
  constructor
  · exact fun h => absurd h hnot
  · exact fun _ => .inr ⟨sockfd, ht, by rw [hresets, hzero]⟩
  · exact fun fd h => absurd h (hopening fd)
  · exact fun _ _ => hsockets.trans herase
  · rw [hcalling]
    exact hi.calling
  · exact hhanded
  · exact hnew

theorem Starts.fields {base : Connector} (h : Starts s act base) :
    base.channel = s.channel ∧ base.sockets = s.sockets ∧ base.resets = s.resets ∧
      base.calling = s.calling ∧ base.handed = s.handed ∧ base.opened = s.opened ∧
      ∀ sockfd, s.point ≠ .inConnect sockfd := by
  cases h with
  | own hpoint => exact ⟨rfl, rfl, rfl, rfl, rfl, rfl, fun _ h => by rw [hpoint] at h; cases h⟩
  | functor hpoint hfunctors =>
    refine ⟨rfl, rfl, ?_, rfl, rfl, rfl, not_opening_of_idle hpoint⟩
    simp [Connector.resets, hfunctors]
  | timer hpoint hi => exact ⟨rfl, rfl, rfl, rfl, rfl, rfl, not_opening_of_idle hpoint⟩

/-- Once `connect` has failed, its socket is closed and the Connector rests as it did. -/
theorem Inv.openFailed (hi : Inv s) (hpoint : s.point = .inConnect sockfd)
    (hstate : t.state = .kDisconnected) (hchannel : t.channel = s.channel)
    (hresets : t.resets = s.resets) (hsockets : t.sockets = s.sockets.erase sockfd)
    (hcalling : t.calling = s.calling) (hhanded : t.handed = s.handed)
    (hidle : t.point = .idle) : Inv t := by
  rcases hi.opening sockfd hpoint with ⟨hdisconnected, hopened⟩
  have hrest : t.state ≠ .kConnecting := by simp [hstate]
  constructor
  · exact fun h => absurd h hrest
  · intro _
    rw [hchannel, hresets]
    exact hi.resting (by simp [hdisconnected])
  · exact fun fd h => absurd h (not_opening_of_idle hidle fd)
  · intro _ _
    rw [hsockets, hopened]
    simp
  · rw [hcalling]
    exact hi.calling
  · intro h
    rw [hhanded] at h
    exact absurd h (hi.not_handed (by simp [hdisconnected]))
  · intro fd h
    rw [hidle] at h
    cases h

/-- A functor that is not `resetChannel` is queued. -/
theorem Inv.queued (hi : Inv s) {i : Nat} {f : Functor} (hf : s.calling[i]? = some f) :
    Inv { s with calling := s.calling.eraseIdx i, functors := s.functors ++ [f] } := by
  have hne : f ≠ .resetChannel := fun heq => hi.calling (heq ▸ List.mem_of_getElem? hf)
  have hresets : (s.functors ++ [f]).count .resetChannel = s.resets := by
    rw [List.count_append, List.count_singleton, beq_false_of_ne hne]
    rfl
  constructor
  · intro hstate
    rcases hi.connecting hstate with ⟨sockfd, hchannel, hsockets, hzero⟩
    exact ⟨sockfd, hchannel, hsockets, hresets.trans hzero⟩
  · intro hstate
    rcases hi.resting hstate with ⟨hchannel, hzero⟩ | ⟨sockfd, hchannel, hone⟩
    · exact .inl ⟨hchannel, hresets.trans hzero⟩
    · exact .inr ⟨sockfd, hchannel, hresets.trans hone⟩
  · exact hi.opening
  · exact hi.closed
  · exact fun h => hi.calling (List.mem_of_mem_eraseIdx h)
  · exact hi.handed
  · exact hi.newConnection

/-- A socket is opened by a Connector that rests. -/
theorem Inv.opened {base : Connector} (hi : Inv s) (hstarts : Starts s act base)
    (hstate : s.state = .kDisconnected) : Inv base.openSocket := by
  rcases hstarts.fields with ⟨hchannel, hsockets, hresets, hcalling, hhanded, hopened, hnot⟩
  have hrest : s.state ≠ .kConnecting := by simp [hstate]
  have hclosed : s.sockets = [] := hi.closed hrest hnot
  have hresting := hi.resting hrest
  rw [← hchannel, ← hresets] at hresting
  have hstate' := hstarts.state.trans hstate
  constructor
  · intro h
    rw [openSocket, hstate'] at h
    cases h
  · exact fun _ => hresting
  · intro sockfd h
    obtain rfl := Point.inConnect.inj h
    refine ⟨hstate', ?_⟩
    simp only [openSocket, hsockets, hclosed, List.nil_append]
  · exact fun _ h => absurd rfl (h _)
  · simp only [openSocket, hcalling]
    exact hi.calling
  · intro h
    simp only [openSocket, hhanded] at h
    exact absurd h (hi.not_handed (by simp [hstate]))
  · exact fun _ h => by cases h

/-- `startInLoop` finds `connect_` false. -/
theorem Inv.declined {base : Connector} (hi : Inv s) (hstarts : Starts s act base)
    (hstate : s.state = .kDisconnected) : Inv { base with point := .idle } := by
  rcases hstarts.fields with ⟨hchannel, hsockets, hresets, hcalling, hhanded, hopened, hnot⟩
  have hrest : s.state ≠ .kConnecting := by simp [hstate]
  have hresting := hi.resting hrest
  rw [← hchannel, ← hresets] at hresting
  constructor
  · intro h
    rw [hstarts.state] at h
    exact absurd h hrest
  · exact fun _ => hresting
  · exact fun _ h => by cases h
  · exact fun _ _ => hsockets.trans (hi.closed hrest hnot)
  · rw [hcalling]
    exact hi.calling
  · intro h
    rw [hhanded] at h
    exact absurd h (hi.not_handed (by simp [hstate]))
  · exact fun _ h => by cases h

theorem Inv.of_move (hi : Inv s) (h : Move s act t) : Inv t := by
  cases h with
  | startOwn hpoint =>
    exact { hi with
      opening := fun _ h => by cases h
      closed := fun hstate _ => hi.closed hstate (not_opening_of_idle hpoint)
      newConnection := fun _ h => by cases h }
  | startOther => exact { hi with calling := by simpa using hi.calling }
  | stop => exact { hi with calling := by simpa [Connector.stop] using hi.calling }
  | queue hf => exact hi.queued hf
  | opens hstarts hstate hconnect => exact hi.opened hstarts hstate
  | declines hstarts hstate hconnect => exact hi.declined hstarts hstate
  | @connecting sockfd _ hpoint hchannel =>
    rcases hi.opening sockfd hpoint with ⟨hstate, hsockets⟩
    have hzero : s.resets = 0 := by
      rcases hi.resting (by simp [hstate]) with ⟨-, hzero⟩ | ⟨fd, hfd, -⟩
      · exact hzero
      · rw [hchannel] at hfd
        cases hfd
    constructor
    · exact fun _ => ⟨sockfd, rfl, hsockets, hzero⟩
    · exact fun h => absurd rfl h
    · exact fun _ h => by cases h
    · exact fun h => absurd rfl h
    · exact hi.calling
    · exact fun h => absurd h (hi.not_handed (by simp [hstate]))
    · exact fun _ h => by cases h
  | refused hpoint =>
    rw [retry_eq]
    exact hi.openFailed hpoint rfl rfl rfl rfl rfl rfl rfl
  | failed hpoint =>
    exact hi.openFailed hpoint (hi.opening _ hpoint).1 rfl rfl rfl rfl rfl rfl
  | returned hpoint =>
    exact { hi with
      opening := fun _ h => by cases h
      closed := fun hstate _ => hi.closed hstate fun _ h => by rw [hpoint] at h; cases h
      newConnection := fun _ h => by cases h }
  | @stopsNothing functors hpoint hfunctors hstate =>
    have hresets : s.resets = functors.count .resetChannel := by
      rw [Connector.resets, hfunctors, List.count_cons_of_ne (by simp)]
    exact { hi with
      connecting := fun h => absurd h hstate
      resting := by
        intro h
        rw [Connector.resets, ← hresets]
        exact hi.resting h }
  | @stops functors sockfd hpoint hfunctors hstate hchannel =>
    rw [retry_eq]
    refine hi.ended hstate hchannel (by simp) rfl rfl ?_ rfl (not_opening_of_idle hpoint) ?_ ?_
    · simp [Connector.resets, hfunctors, close, dropped]
    · exact fun h => absurd h (hi.not_handed (by simp [hstate]))
    · intro fd h
      exact absurd (hpoint.symm.trans h) (by simp)
  | @resets functors hpoint hfunctors =>
    have hresets : s.resets = functors.count .resetChannel + 1 := by
      rw [Connector.resets, hfunctors, List.count_cons_self]
    have hrest : s.state ≠ .kConnecting := by
      intro hstate
      rcases hi.connecting hstate with ⟨_, _, _, hzero⟩
      omega
    have hzero : functors.count .resetChannel = 0 := by
      rcases hi.resting hrest with ⟨-, hzero⟩ | ⟨_, -, hone⟩
      · omega
      · omega
    exact { hi with
      connecting := fun h => absurd h hrest
      resting := fun _ => .inl ⟨rfl, hzero⟩ }
  | ignores hpoint => exact hi
  | @loses _ _ _ _ sockfd hpoint hstate hchannel =>
    rw [retry_eq]
    refine hi.ended hstate hchannel (by simp) rfl rfl ?_ rfl (not_opening_of_idle hpoint) ?_ ?_
    · simp [Connector.resets, close, dropped]
    · exact fun h => absurd h (hi.not_handed (by simp [hstate]))
    · intro fd h
      exact absurd (hpoint.symm.trans h) (by simp)
  | @hands sockfd hpoint hstate hchannel hconnect =>
    refine hi.ended hstate hchannel (by simp) rfl rfl ?_ rfl ?_ ?_ ?_
    · simp [Connector.resets, close, dropped]
    · exact fun _ h => by cases h
    · exact fun _ => rfl
    · exact fun _ _ => rfl
  | @abandons sockfd hpoint hstate hchannel hconnect =>
    refine hi.ended hstate hchannel (by simp) rfl rfl ?_ rfl (not_opening_of_idle hpoint) ?_ ?_
    · simp [Connector.resets, close, dropped]
    · exact fun _ => rfl
    · intro fd h
      exact absurd (hpoint.symm.trans h) (by simp)
  | restart hpoint hhanded =>
    have hstate : s.state = .kConnected := hi.handed hhanded
    have hrest : s.state ≠ .kConnecting := by simp [hstate]
    constructor
    · exact fun h => by cases h
    · exact fun _ => hi.resting hrest
    · exact fun _ h => by cases h
    · exact fun _ _ => hi.closed hrest (not_opening_of_idle hpoint)
    · exact hi.calling
    · exact fun h => by cases h
    · exact fun _ h => by cases h

theorem Inv.step (hi : Inv s) (hst : system.Step s act t) : Inv t := hi.of_move (hi.move hst)

theorem inv_of_reachable (h : system.Reachable s) : Inv s := by
  apply h.invariant
  · rintro s₀ rfl
    exact new_inv
  · exact fun _ _ _ hi hst => hi.step hst

end Connector

end Kaycc
