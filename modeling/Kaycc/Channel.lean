/-
  Kaycc/Channel.lean
  ==================
  **`net/channel.h` and what `EPollPoller` keeps for a channel.**

  An event mask is the set of its bits.  A poller's operations on a channel read
  and write only what `channels_` and the kernel's interest set hold under the
  channel's own fd, so this entry is modelled as a part of the channel.  A mask
  of zero can be in the interest set: the kernel then still reports `POLLERR` and
  `POLLHUP`.

  `watching` is the closed form of every change of `events_`; it holds as long as
  the entry follows `index_`, which every operation keeps.
-/
import Kaycc.Assertion

namespace Kaycc

/-! ### Event masks -/

structure PollEvents where
  pollin : Bool := false
  pollpri : Bool := false
  pollout : Bool := false
  pollerr : Bool := false
  pollhup : Bool := false
  pollnval : Bool := false
  pollrdhup : Bool := false
deriving DecidableEq, Repr

namespace PollEvents

/-- `a | b`. -/
def union (a b : PollEvents) : PollEvents where
  pollin := a.pollin || b.pollin
  pollpri := a.pollpri || b.pollpri
  pollout := a.pollout || b.pollout
  pollerr := a.pollerr || b.pollerr
  pollhup := a.pollhup || b.pollhup
  pollnval := a.pollnval || b.pollnval
  pollrdhup := a.pollrdhup || b.pollrdhup

/-- `a & ~b`. -/
def without (a b : PollEvents) : PollEvents where
  pollin := a.pollin && !b.pollin
  pollpri := a.pollpri && !b.pollpri
  pollout := a.pollout && !b.pollout
  pollerr := a.pollerr && !b.pollerr
  pollhup := a.pollhup && !b.pollhup
  pollnval := a.pollnval && !b.pollnval
  pollrdhup := a.pollrdhup && !b.pollrdhup

/-- `a & b`, as a condition. -/
def meets (a b : PollEvents) : Bool :=
  (a.pollin && b.pollin) || (a.pollpri && b.pollpri) || (a.pollout && b.pollout) ||
    (a.pollerr && b.pollerr) || (a.pollhup && b.pollhup) || (a.pollnval && b.pollnval) ||
      (a.pollrdhup && b.pollrdhup)

end PollEvents

def kNoneEvent : PollEvents := {}

def kReadEvent : PollEvents := { pollin := true, pollpri := true }

def kWriteEvent : PollEvents := { pollout := true }

/-- A mask of interest: the read events together or not at all, and perhaps the write event. -/
def PollEvents.Plain (e : PollEvents) : Prop :=
  ∃ reading writing, e = { pollin := reading, pollpri := reading, pollout := writing }

/-- What `epoll_wait` may report for an fd with this entry in the interest set: nothing
    without an entry, `POLLERR` and `POLLHUP` always, other bits when requested, and no
    `POLLHUP` alone when `POLLIN` is requested. -/
def Reports (interest : Option PollEvents) (r : PollEvents) : Prop :=
  match interest with
  | none => False
  | some m =>
      (r.pollin → m.pollin) ∧ (r.pollpri → m.pollpri) ∧ (r.pollout → m.pollout) ∧
        r.pollnval = false ∧ (r.pollrdhup → m.pollrdhup) ∧
        (r.pollhup ∧ m.pollin → r.pollin)

instance (interest : Option PollEvents) (r : PollEvents) : Decidable (Reports interest r) :=
  match interest with
  | none => .isFalse id
  | some _ => inferInstanceAs (Decidable (_ ∧ _))

/-! ### Channels -/

/-- What the poller of the channel's loop holds under its fd. -/
structure PollerEntry where
  registered : Bool                  -- channels_[fd] == channel
  interest : Option PollEvents       -- the kernel's interest set
deriving DecidableEq, Repr

/-- Where the channel is while its loop handles events: not in `activeChannels_`, in it
    and still to be handled, `currentActiveChannel_`, or in it and handled. -/
inductive ActivePlace where
  | absent
  | waiting
  | current
  | handled
deriving DecidableEq, Repr

structure Channel where
  events : PollEvents
  revents : PollEvents
  index : Int
  tied : Bool
  eventHandling : Bool
  addedToLoop : Bool
  entry : PollerEntry
  active : ActivePlace
deriving DecidableEq, Repr

namespace EPollPoller

def kNew : Int := -1
def kAdded : Int := 1
def kDeleted : Int := 2

inductive Operation where
  | add
  | mod
  | del
deriving DecidableEq, Repr

/-- `epoll_ctl`: adding a known fd and changing an unknown one fail. -/
def epollCtl (interest : Option PollEvents) (events : PollEvents) :
    Operation → Option PollEvents
  | .add => if interest = none then some events else interest
  | .mod => if interest = none then none else some events
  | .del => none

end EPollPoller

namespace Channel

open EPollPoller

variable {c : Channel} {e : PollEvents}

def new : Channel where
  events := kNoneEvent
  revents := kNoneEvent
  index := kNew
  tied := false
  eventHandling := false
  addedToLoop := false
  entry := ⟨false, none⟩
  active := .absent

def isNoneEvent (c : Channel) : Bool := decide (c.events = kNoneEvent)

def isWriting (c : Channel) : Bool := c.events.meets kWriteEvent

def isReading (c : Channel) : Bool := c.events.meets kReadEvent

/-! ### `EPollPoller` -/

/-- `EPollPoller::update`. -/
def epollUpdate (c : Channel) (operation : Operation) : Channel :=
  { c with entry := { c.entry with interest := epollCtl c.entry.interest c.events operation } }

def updateChannel (c : Channel) : Except Assertion Channel :=
  if c.index = kNew ∨ c.index = kDeleted then do
    if c.index = kNew then check (c.entry.registered = false) .updateChannelNew
    else check (c.entry.registered = true) .updateChannelKnown
    pure (epollUpdate { c with
      entry := { c.entry with registered := true }, index := kAdded } .add)
  else do
    check (c.entry.registered = true) .updateChannelKnown
    check (c.index = kAdded) .updateChannelAdded
    if c.isNoneEvent = true then pure { c.epollUpdate .del with index := kDeleted }
    else pure (c.epollUpdate .mod)

def removeChannel (c : Channel) : Except Assertion Channel := do
  check (c.entry.registered = true) .removeChannelKnown
  check (c.isNoneEvent = true) .removeChannelIsNoneEvent
  check (c.index = kAdded ∨ c.index = kDeleted) .removeChannelIndex
  let erased : Channel := { c with entry := { c.entry with registered := false } }
  let deleted := if c.index = kAdded then erased.epollUpdate .del else erased
  pure { deleted with index := kNew }

/-- `EventLoop::removeChannel`. -/
def loopRemoveChannel (c : Channel) : Except Assertion Channel := do
  check (c.active = .absent ∨ c.active = .current) .removeChannelInactive
  c.removeChannel

/-! ### Changing the events of interest -/

def update (c : Channel) : Except Assertion Channel :=
  ({ c with addedToLoop := true }).updateChannel

/-- `events_ = e; update()`. -/
def setEvents (c : Channel) (e : PollEvents) : Except Assertion Channel :=
  ({ c with events := e }).update

def enableReading (c : Channel) : Except Assertion Channel :=
  c.setEvents (c.events.union kReadEvent)

def disableReading (c : Channel) : Except Assertion Channel :=
  c.setEvents (c.events.without kReadEvent)

def enableWriting (c : Channel) : Except Assertion Channel :=
  c.setEvents (c.events.union kWriteEvent)

def disableWriting (c : Channel) : Except Assertion Channel :=
  c.setEvents (c.events.without kWriteEvent)

def disableAll (c : Channel) : Except Assertion Channel := c.setEvents kNoneEvent

def tie (c : Channel) : Channel := { c with tied := true }

def remove (c : Channel) : Except Assertion Channel := do
  check (c.isNoneEvent = true) .channelRemoveIsNoneEvent
  ({ c with addedToLoop := false }).loopRemoveChannel

/-- The asserts of `~Channel` on the loop's thread. -/
def destruct (c : Channel) : Except Assertion Unit := do
  check (c.eventHandling = false) .channelNotHandling
  check (c.addedToLoop = false) .channelNotAdded
  check (c.entry.registered = false) .channelNotInLoop

/-! ### The entry follows the index -/

/-- The channel's `index_` says what the poller holds for it. -/
structure Watched (c : Channel) : Prop where
  index : c.index = kNew ∨ c.index = kAdded ∨ c.index = kDeleted
  registered : c.entry.registered = true ↔ c.index ≠ kNew
  interest : c.entry.interest = if c.index = kAdded then some c.events else none

/-- The kernel reports only to a channel that is added, and goes by its events. -/
theorem Watched.reports {revents : PollEvents} (h : Watched c)
    (hr : Reports c.entry.interest revents) :
    c.index = kAdded ∧ Reports (some c.events) revents := by
  rw [h.interest] at hr
  split at hr
  · rename_i hadded
    exact ⟨hadded, hr⟩
  · exact hr.elim

/-- Moreover the fd is in the interest set exactly when the channel wants events. -/
structure Synced (c : Channel) : Prop extends Watched c where
  added : c.index = kAdded ↔ c.events ≠ kNoneEvent

theorem new_synced : Synced new where
  index := .inl rfl
  registered := by decide
  interest := rfl
  added := by decide

/-- The channel after a change of its events. -/
def watching (c : Channel) (e : PollEvents) : Channel :=
  let index := if c.index = kAdded ∧ e = kNoneEvent then kDeleted else kAdded
  { c with
    events := e
    addedToLoop := true
    index := index
    entry := ⟨true, if index = kAdded then some e else none⟩ }

/-- **No assertion fails when a channel changes its events.** -/
theorem setEvents_eq (h : Watched c) (e : PollEvents) : c.setEvents e = .ok (c.watching e) := by
  obtain ⟨events, revents, index, tied, eventHandling, addedToLoop, ⟨registered, interest⟩,
    active⟩ := c
  obtain ⟨hindex, hreg, hint⟩ := h
  rcases hindex with rfl | rfl | rfl
  · obtain rfl : registered = false := by simpa using hreg
    obtain rfl : interest = none := hint
    rfl
  · obtain rfl : registered = true := hreg.mpr (show kAdded ≠ kNew by decide)
    obtain rfl : interest = some events := hint
    by_cases he : e = kNoneEvent
    · subst he
      rfl
    · simp [setEvents, update, updateChannel, watching, check, isNoneEvent, epollUpdate, epollCtl,
        kNew, kAdded, kDeleted, he]
  · obtain rfl : registered = true := hreg.mpr (show kDeleted ≠ kNew by decide)
    obtain rfl : interest = none := hint
    rfl

theorem watching_watched (c : Channel) (e : PollEvents) : Watched (c.watching e) where
  index := by
    unfold Channel.watching
    dsimp only
    split
    · exact .inr (.inr rfl)
    · exact .inr (.inl rfl)
  registered := by
    unfold Channel.watching
    dsimp only
    split <;> decide
  interest := rfl

/-- The index after a change of events by a channel that had or gets some. -/
theorem Synced.watching (h : Synced c) (he : c.events ≠ kNoneEvent ∨ e ≠ kNoneEvent) :
    Synced (c.watching e) where
  toWatched := watching_watched c e
  added := by
    unfold Channel.watching
    dsimp only
    by_cases hnone : e = kNoneEvent
    · have hadded : c.index = kAdded := h.added.mpr (he.resolve_right fun hne => hne hnone)
      rw [if_pos ⟨hadded, hnone⟩]
      exact iff_of_false (by decide) fun hne => hne hnone
    · rw [if_neg fun hand => hnone hand.2]
      exact iff_of_true rfl hnone

/-- A channel without events of interest goes into the interest set with any mask. -/
theorem Synced.watching_interest (h : Synced c) (hnone : c.events = kNoneEvent)
    (e : PollEvents) : (c.watching e).entry.interest = some e := by
  have hindex : ¬ (c.index = kAdded ∧ e = kNoneEvent) := fun hadded =>
    h.added.mp hadded.1 hnone
  unfold Channel.watching
  dsimp only
  rw [if_neg hindex, if_pos rfl]

/-- The channel after `remove()`. -/
def removed (c : Channel) : Channel :=
  { c with addedToLoop := false, index := kNew, entry := ⟨false, none⟩ }

theorem remove_eq (h : Watched c) (hreg : c.index ≠ kNew) (hnone : c.events = kNoneEvent)
    (hactive : c.active = .absent ∨ c.active = .current) : c.remove = .ok c.removed := by
  have hindex : c.index = kAdded ∨ c.index = kDeleted := h.index.resolve_left hreg
  have hregistered := h.registered.mpr hreg
  have hinterest := h.interest
  obtain ⟨events, revents, index, tied, eventHandling, addedToLoop, ⟨registered, interest⟩,
    active⟩ := c
  obtain rfl : registered = true := hregistered
  obtain rfl : events = kNoneEvent := hnone
  have hno : check (Channel.isNoneEvent ⟨kNoneEvent, revents, index, tied, eventHandling,
      addedToLoop, ⟨true, interest⟩, active⟩ = true) .channelRemoveIsNoneEvent = .ok () := rfl
  simp only [remove, hno, loopRemoveChannel, check_eq_ok hactive, ok_bind]
  rcases hindex with rfl | rfl
  · rfl
  · obtain rfl : interest = none := hinterest
    rfl

/-- `remove()` ends well. -/
structure Removable (c : Channel) : Prop where
  index : c.index ≠ kNew
  events : c.events = kNoneEvent
  active : c.active = .absent ∨ c.active = .current

theorem Removable.not_waiting (h : Removable c) : c.active ≠ .waiting := by
  intro hw
  rcases h.active with hactive | hactive <;> cases hw.symm.trans hactive

theorem Removable.remove (h : Removable c) (hw : Watched c) : c.remove = .ok c.removed :=
  remove_eq hw h.index h.events h.active

/-- Only a removable channel is removed. -/
theorem removed_of_ok {c' : Channel} (hw : Watched c) (h : c.remove = .ok c') :
    Removable c ∧ c' = c.removed := by
  have hr : Removable c := by
    have hchecks := h
    simp only [remove, loopRemoveChannel, removeChannel, bind_eq_ok] at hchecks
    obtain ⟨_, hnone, _, hactive, _, hreg, -⟩ := hchecks
    refine ⟨hw.registered.mp (of_check_ok hreg), ?_, of_check_ok hactive⟩
    exact of_decide_eq_true (of_check_ok hnone)
  exact ⟨hr, Except.ok.inj (h.symm.trans (hr.remove hw))⟩

/-- The assertions that may stop `remove()`. -/
theorem remove_error {e : Assertion} (h : c.remove = .error e) :
    e = .channelRemoveIsNoneEvent ∨ e = .removeChannelInactive ∨ e = .removeChannelKnown ∨
      e = .removeChannelIsNoneEvent ∨ e = .removeChannelIndex := by
  simp only [remove, loopRemoveChannel, removeChannel, bind_eq_error, pure_eq_ok] at h
  rcases h with h | ⟨_, _, h | ⟨_, _, h | ⟨_, _, h | ⟨_, _, h | ⟨_, _, h⟩⟩⟩⟩⟩
  · exact .inl (of_check_error h)
  · exact .inr (.inl (of_check_error h))
  · exact .inr (.inr (.inl (of_check_error h)))
  · exact .inr (.inr (.inr (.inl (of_check_error h))))
  · exact .inr (.inr (.inr (.inr (of_check_error h))))
  · cases h

/-- The assertion of `EventLoop::removeChannel` holds for a channel that is not waiting. -/
theorem remove_ends (hw : Watched c) (hactive : c.active = .absent ∨ c.active = .current) :
    Postcondition.Ends (fun c' => Removable c ∧ c' = c.removed) (· ≠ .removeChannelInactive)
      c.remove := by
  apply Postcondition.ends_iff.mpr
  refine ⟨fun _ => removed_of_ok hw, fun e h => ?_⟩
  rintro rfl
  simp only [remove, loopRemoveChannel, removeChannel, bind_eq_error, pure_eq_ok] at h
  rcases h with h | ⟨_, _, h | ⟨_, _, h | ⟨_, _, h | ⟨_, _, h | ⟨_, _, h⟩⟩⟩⟩⟩
  · cases of_check_error h
  · cases (check_eq_ok hactive).symm.trans h
  · cases of_check_error h
  · cases of_check_error h
  · cases of_check_error h
  · cases h

theorem removed_synced (hnone : c.events = kNoneEvent) : Synced c.removed where
  index := .inl rfl
  registered := by simp [removed]
  interest := rfl
  added := by
    simp only [removed, hnone]
    decide

/-! ### The two interest bits -/

@[simp] theorem watching_events (c : Channel) (e : PollEvents) : (c.watching e).events = e := rfl

@[simp] theorem watching_revents (c : Channel) (e : PollEvents) :
    (c.watching e).revents = c.revents := rfl

@[simp] theorem watching_active (c : Channel) (e : PollEvents) :
    (c.watching e).active = c.active := rfl

@[simp] theorem isWriting_enableWriting (e : PollEvents) :
    (e.union kWriteEvent).meets kWriteEvent = true := by
  simp [PollEvents.meets, PollEvents.union, kWriteEvent]

@[simp] theorem isWriting_disableWriting (e : PollEvents) :
    (e.without kWriteEvent).meets kWriteEvent = false := by
  simp [PollEvents.meets, PollEvents.without, kWriteEvent]

@[simp] theorem isWriting_enableReading (e : PollEvents) :
    (e.union kReadEvent).meets kWriteEvent = e.meets kWriteEvent := by
  simp [PollEvents.meets, PollEvents.union, kReadEvent, kWriteEvent]

@[simp] theorem isWriting_disableReading (e : PollEvents) :
    (e.without kReadEvent).meets kWriteEvent = e.meets kWriteEvent := by
  simp [PollEvents.meets, PollEvents.without, kReadEvent, kWriteEvent]

@[simp] theorem isReading_enableReading (e : PollEvents) :
    (e.union kReadEvent).meets kReadEvent = true := by
  simp [PollEvents.meets, PollEvents.union, kReadEvent]

@[simp] theorem isReading_disableReading (e : PollEvents) :
    (e.without kReadEvent).meets kReadEvent = false := by
  simp [PollEvents.meets, PollEvents.without, kReadEvent]

@[simp] theorem isReading_enableWriting (e : PollEvents) :
    (e.union kWriteEvent).meets kReadEvent = e.meets kReadEvent := by
  simp [PollEvents.meets, PollEvents.union, kReadEvent, kWriteEvent]

@[simp] theorem isReading_disableWriting (e : PollEvents) :
    (e.without kWriteEvent).meets kReadEvent = e.meets kReadEvent := by
  simp [PollEvents.meets, PollEvents.without, kReadEvent, kWriteEvent]

theorem plain_none : kNoneEvent.Plain := ⟨false, false, rfl⟩

theorem plain_enableReading (h : e.Plain) : (e.union kReadEvent).Plain := by
  obtain ⟨reading, writing, rfl⟩ := h
  exact ⟨true, writing, by simp [PollEvents.union, kReadEvent]⟩

theorem plain_disableReading (h : e.Plain) : (e.without kReadEvent).Plain := by
  obtain ⟨reading, writing, rfl⟩ := h
  exact ⟨false, writing, by simp [PollEvents.without, kReadEvent]⟩

theorem plain_enableWriting (h : e.Plain) : (e.union kWriteEvent).Plain := by
  obtain ⟨reading, writing, rfl⟩ := h
  exact ⟨reading, true, by simp [PollEvents.union, kWriteEvent]⟩

theorem plain_disableWriting (h : e.Plain) : (e.without kWriteEvent).Plain := by
  obtain ⟨reading, writing, rfl⟩ := h
  exact ⟨reading, false, by simp [PollEvents.without, kWriteEvent]⟩

theorem watching_index_ne (c : Channel) (e : PollEvents) : (c.watching e).index ≠ kNew := by
  unfold Channel.watching
  dsimp only
  split <;> decide

theorem ne_none_of_meets {a b : PollEvents} (h : a.meets b = true) : a ≠ kNoneEvent := by
  rintro rfl
  simp [PollEvents.meets, kNoneEvent] at h

theorem union_ne_none {a b : PollEvents} (h : b ≠ kNoneEvent) : a.union b ≠ kNoneEvent := by
  intro hu
  apply h
  obtain ⟨b₁, b₂, b₃, b₄, b₅, b₆, b₇⟩ := b
  simp only [PollEvents.union, kNoneEvent, PollEvents.mk.injEq, Bool.or_eq_false_iff] at hu ⊢
  exact ⟨hu.1.2, hu.2.1.2, hu.2.2.1.2, hu.2.2.2.1.2, hu.2.2.2.2.1.2, hu.2.2.2.2.2.1.2,
    hu.2.2.2.2.2.2.2⟩

end Channel

end Kaycc
