/-
  Kaycc/ConnectorChannel.lean
  ===========================
  **What a step of a Connector can do to its channel, in whatever run.**

  Only two kinds of steps take the channel out of the poller or reset it: the handling
  of its events, in `removeAndResetChannel`, and the functors.  All others leave it
  alone, or make one where there was none.
-/
import Kaycc.Connector

namespace Kaycc.Connector

open Postcondition

variable {s t : Connector} {sockfd : Nat}

/-- The poller's entry of the channel follows its `index_`. -/
def Watched (s : Connector) : Prop := ∀ e ∈ s.channel, e.2.Watched

/-- `EventLoop::removeChannel` would not find the channel waiting. -/
def NotWaiting (s : Connector) : Prop :=
  ∀ e ∈ s.channel, e.2.active = .absent ∨ e.2.active = .current

/-- `t` has the channel of `s`, or a new one where `s` has none. -/
def Keeps (s t : Connector) : Prop :=
  t.channel = s.channel ∨ (s.channel = none ∧ ∃ sockfd, t.channel = some (sockfd, Channel.writing))

theorem writing_watched : Channel.writing.Watched := Channel.watching_watched Channel.new kWriteEvent

theorem Keeps.watched (h : Keeps s t) (hw : s.Watched) : t.Watched := by
  rcases h with heq | ⟨-, sockfd, heq⟩
  · intro e he
    rw [heq] at he
    exact hw e he
  · intro e he
    rw [heq] at he
    cases he
    exact writing_watched

/-! ### The steps that remove the channel -/

structure Ready (s : Connector) : Prop where
  watched : s.Watched
  notWaiting : s.NotWaiting

/-- What `Ready` depends on. -/
theorem Ready.congr (h : Ready s) (hch : t.channel = s.channel) : Ready t := by
  refine ⟨fun e he => ?_, fun e he => ?_⟩
  · rw [hch] at he
    exact h.watched e he
  · rw [hch] at he
    exact h.notWaiting e he

theorem ready_of_none (h : s.channel = none) : Ready s := by
  refine ⟨fun e he => ?_, fun e he => ?_⟩
  · rw [h] at he
    cases he
  · rw [h] at he
    cases he

theorem channel_retry (s : Connector) (sockfd : Nat) : (s.retry sockfd).channel = s.channel := by
  unfold retry
  split <;> rfl

/-- A function of the Connector that may remove the channel ends well or stops elsewhere. -/
abbrev Removes (x : Except Assertion Connector) : Prop := Ends Ready (· ≠ .removeChannelInactive) x

theorem removeAndResetChannel_ends (h : Ready s) :
    Ends (fun p => Ready p.1) (· ≠ .removeChannelInactive) s.removeAndResetChannel := by
  unfold removeAndResetChannel
  split
  · exact Assertion.noConfusion
  · rename_i sockfd channel hch
    have hw : channel.Watched := h.watched (sockfd, channel) hch
    have hidle := h.notWaiting (sockfd, channel) hch
    rw [Channel.disableAll, Channel.setEvents_eq hw, ok_bind]
    refine (Channel.remove_ends (Channel.watching_watched _ _) hidle).bind fun d ⟨hr, hd⟩ => ?_
    subst hd
    refine ends_ok ⟨fun e he => ?_, fun e he => ?_⟩
    · cases he
      exact (Channel.removed_synced hr.events).toWatched
    · cases he
      exact hidle

theorem stopInLoop_ends (h : Ready s) : Removes s.stopInLoop := by
  unfold stopInLoop
  split
  · have hset : Ready { s with state := .kDisconnected } := h.congr rfl
    refine (removeAndResetChannel_ends hset).bind fun p hp => ?_
    exact ends_ok (hp.congr (channel_retry _ _))
  · exact ends_ok h

theorem handleError_ends (h : Ready s) : Removes s.handleError := by
  unfold handleError
  split
  · refine (removeAndResetChannel_ends h).bind fun p hp => ?_
    exact ends_ok (hp.congr (channel_retry _ _))
  · exact ends_ok h

theorem handleWrite_ends (h : Ready s) (err isSelfConnect : Bool) :
    Removes (s.handleWrite err isSelfConnect) := by
  unfold handleWrite
  split
  · refine (removeAndResetChannel_ends h).bind fun p hp => ?_
    refine ends_ite (fun _ => ends_ok (hp.congr (channel_retry _ _))) fun _ => ?_
    refine ends_ite (fun _ => ends_ok (hp.congr (channel_retry _ _))) fun _ => ?_
    exact ends_ite (fun _ => ends_ok (hp.congr rfl)) fun _ => ends_ok (hp.congr rfl)
  · refine (check_ends Assertion.noConfusion).bind fun _ _ => ?_
    exact ends_ok h

theorem handleEvent_ends (h : Ready s) (error writable err isSelfConnect : Bool) :
    Removes (s.handleEvent error writable err isSelfConnect) := by
  have hwrite : ∀ t, Ready t →
      Removes (if writable = true then t.handleWrite err isSelfConnect else pure t) := fun t ht =>
    ends_ite (fun _ => handleWrite_ends ht err isSelfConnect) fun _ => ends_ok ht
  unfold handleEvent
  split
  · exact (handleError_ends h).bind hwrite
  · exact hwrite s h

/-- `startInLoop` leaves the channel to `connect()`. -/
theorem startInLoop_ends :
    Ends (fun t => t.channel = s.channel) (· ≠ .removeChannelInactive) s.startInLoop := by
  unfold startInLoop
  refine (check_ends Assertion.noConfusion).bind fun _ _ => ?_
  exact ends_ite (fun _ => ends_ok rfl) fun _ => ends_ok rfl

theorem resetChannel_ends (h : Ready s) : Removes s.resetChannel := by
  unfold resetChannel
  split
  · exact ends_ok h
  · refine Ends.bind (P := fun _ => True) ?_ fun _ _ => ends_ok (ready_of_none rfl)
    unfold Channel.destruct
    refine (check_ends Assertion.noConfusion).bind fun _ _ => ?_
    refine (check_ends Assertion.noConfusion).bind fun _ _ => ?_
    exact (check_ends Assertion.noConfusion).imp fun _ _ => trivial

theorem callFunctor_ends (h : Ready s) : Removes (s.step .callFunctor) := by
  simp only [step]
  split
  · exact ends_ok h
  · rename_i f functors _
    have hpop : Ready { s with functors := functors } := h.congr rfl
    cases f with
    | startInLoop => exact startInLoop_ends.imp fun t ht => hpop.congr ht
    | stopInLoop => exact stopInLoop_ends hpop
    | resetChannel => exact resetChannel_ends hpop

/-! ### The others -/

/-- The steps that may remove the channel. -/
def removes : Action → Bool
  | .handleEvent _ _ _ _ | .callFunctor => true
  | _ => false

theorem connecting_ends (sockfd : Nat) :
    Ends (Keeps s) (· ≠ .removeChannelInactive) (s.connecting sockfd) := by
  unfold connecting
  refine (check_ends Assertion.noConfusion).bind fun _ hnone => ?_
  rw [Channel.new_enableWriting, ok_bind]
  exact ends_ok (.inr ⟨hnone, sockfd, rfl⟩)

theorem connectReturned_ends (sockfd : Nat) (savedErrno : Errno) :
    Ends (Keeps s) (· ≠ .removeChannelInactive) (s.connectReturned sockfd savedErrno) := by
  cases savedErrno with
  | zero | EINPROGRESS | EINTR | EISCONN => exact connecting_ends sockfd
  | EAGAIN | EADDRINUSE | EADDRNOTAVAIL | ECONNREFUSED | ENETUNREACH =>
    exact ends_ok (.inl (channel_retry _ _))
  | EACCES | EPERM | EAFNOSUPPORT | EALREADY | EBADF | EFAULT | ENOTSOCK | other _ =>
    exact ends_ok (.inl rfl)

/-- **Every other step leaves the channel alone**, or makes one where there was none. -/
theorem step_keeps {act : Action} (h : removes act = false) :
    Ends (Keeps s) (· ≠ .removeChannelInactive) (s.step act) := by
  cases act with
  | start inLoop =>
    apply ends_ok
    left
    unfold start
    split <;> rfl
  | stop => exact ends_ok (.inl rfl)
  | queueInLoop i =>
    simp only [step]
    split
    · exact ends_ok (.inl rfl)
    · exact ends_ok (.inl rfl)
  | startInLoop => exact startInLoop_ends.imp fun _ => .inl
  | connectReturned sockfd savedErrno => exact connectReturned_ends sockfd savedErrno
  | newConnection sockfd => exact ends_ok (.inl rfl)
  | callFunctor => cases h
  | retryTimer i => exact startInLoop_ends.imp fun _ => .inl
  | handleEvent error writable err isSelfConnect => cases h
  | restart => exact ends_ok (.inl rfl)

end Kaycc.Connector
