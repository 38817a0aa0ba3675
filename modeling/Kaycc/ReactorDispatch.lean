/-
  Kaycc/ReactorDispatch.lean
  ==========================
  **No channel is dispatched after it was taken out of the poller.**

  `activeChannels_` is filled before any callback runs.  While it is worked off,
  `EventLoop::removeChannel` is called for the current channel only: the Connectors
  remove their channel in its own callback or in a functor, and a connection is
  destroyed in a functor.  So its assertion holds, even if it were that the channel is
  current, and the channels still to be called are in `channels_`.
-/
import Kaycc.ReactorInvariant
import Mathlib.Data.Fintype.Basic

namespace Kaycc.Reactor

open Transition Transition.System

variable {ι κ ν : Type} [DecidableEq ι] [DecidableEq κ] [DecidableEq ν] {s t : Reactor ι κ ν}

omit [DecidableEq ι] [DecidableEq κ] [DecidableEq ν] in
/-- A place tells nothing outside the handling of events, and finds the current channel. -/
theorem honest_of {place : Places ι κ ν}
    (houtside : ∀ l id, l.point ≠ .handlingEvents → place l id = .absent)
    (hcurrent : ∀ l id, l.point = .handlingEvents → l.currentActiveChannel = some id →
      place l id = .current) : Honest place := by
  intro l id h
  by_cases hpoint : l.point = .handlingEvents
  · right
    exact hcurrent l id hpoint (h.resolve_left (not_not_intro hpoint))
  · left
    exact houtside l id hpoint

theorem place_honest : Honest (Dispatch.place : Places ι κ ν) :=
  honest_of (fun _ _ hne => if_neg hne)
    fun _ _ hpoint hcurrent => (if_pos hpoint).trans (if_pos hcurrent)

theorem strictPlace_honest : Honest (Dispatch.strictPlace : Places ι κ ν) :=
  honest_of (fun _ _ hne => if_neg hne)
    fun _ _ hpoint hcurrent => (if_pos hpoint).trans (if_pos hcurrent)

theorem reachable_inv (h : (system ι κ ν).Reachable s) : Inv s := by
  apply h.invariant
  · rintro _ rfl
    exact new_inv
  · intro s a t hi hst
    exact ((stepAt_ends hi place_honest hst.1).of_ok hst.2).1

/-- **Every channel is in the poller when it is dispatched.**  While events are handled, the
    channels that wait for their `handleEvent` are in `channels_`; no step fails in
    `EventLoop::removeChannel`, neither with the assertion of the source nor with the
    stricter one that the channel is `currentActiveChannel_`; and a channel that a step
    takes out of `channels_` is the current one. -/
theorem dispatched_registered (h : (system ι κ ν).Reachable s) :
    (s.loop.point = .handlingEvents → ∀ id ∈ s.loop.waiting, s.Registered id) ∧
    (∀ a, s.enabled a → s.step a ≠ .error .removeChannelInactive ∧
      s.stepAt Dispatch.strictPlace a ≠ .error .removeChannelInactive) ∧
    ∀ a t, (system ι κ ν).Step s a t → s.loop.point = .handlingEvents →
      ∀ id, s.Registered id → ¬ t.Registered id → t.loop.currentActiveChannel = some id := by
  have hi := reachable_inv h
  refine ⟨hi.registered, fun a hen => ⟨?_, ?_⟩, fun a t hst hpoint id hreg hnot => ?_⟩
  · intro he
    exact (stepAt_ends hi place_honest hen).of_error he rfl
  · intro he
    exact (stepAt_ends hi strictPlace_honest hen).of_error he rfl
  · have hretains := ((stepAt_ends hi place_honest hst.1).of_ok hst.2).2
    exact (hretains hpoint id hreg).resolve_left hnot

/-! ### A run -/

/-- Answers of the kernel when nothing is read or written. -/
def noAnswers : Answers := ⟨.bytes [], .wrote 0, false, false, false, false⟩

/-- The connection 0 is established, and a client has begun to connect. -/
def oneConnecting : List (Action Bool Unit Empty) :=
  [.establish false true false false 64, .connection false (.callbackReturn (.bytes []) (.wrote 0)),
    .client () .connect, .client () (.connectorStart true), .client () (.connector .startInLoop),
    .client () (.connector (.connectReturned 0 .EINPROGRESS)), .leave]

set_option maxRecDepth 8000 in
/-- A client's channel is removed in its callback, in which a connection is made; the
    connection that waits behind it is registered. -/
theorem dispatched_registered_connect :
    ∃ s, (system Bool Unit Empty).Reachable s ∧ s.loop.waiting = [.connection false] ∧
      ¬ s.Registered (.connector () 0) ∧ s.Registered (.connection false) := by
  obtain ⟨s, hexec, hpoint, hwaiting, hnot⟩ : ∃ s,
      (system Bool Unit Empty).exec new (oneConnecting ++
        [.poll [(.connector () 0, { pollout := true }), (.connection false, { pollin := true })],
          .handleEvent { noAnswers with writable := true },
          .newConnection () 0 true false false 64,
          .connection true (.callbackReturn (.bytes []) (.wrote 0))]) = some s ∧
      s.loop.point = .handlingEvents ∧ s.loop.waiting = [.connection false] ∧
      ¬ s.Registered (.connector () 0) := ⟨_, rfl, rfl, rfl, by decide⟩
  have hs : (system Bool Unit Empty).Reachable s := reachable_of_exec _ rfl hexec
  refine ⟨s, hs, hwaiting, hnot, (dispatched_registered hs).1 hpoint _ ?_⟩
  rw [hwaiting]
  exact List.mem_singleton_self _

end Kaycc.Reactor
