/-
  Kaycc/EPollPoller.lean
  ======================
  **`net/poller/epollpoller.cpp` with all its channels, and what the kernel watches.**

  `Kaycc/Channel.lean` keeps with each channel what the poller holds under its fd;
  here are `channels_` and the kernel's interest set themselves, and every
  `epoll_ctl` is recorded with the state in which the kernel met it.  `channelOf`
  leads back to the channel with its entry, and a change of events does to it what
  it does there (`setEvents_ok`).

  No `epoll_ctl` ever comes in the wrong state.  The interest set is exact as long
  as no channel without events is told to have none once more: `updateChannel`
  takes it out of kNew or kDeleted into the set whatever its mask is.
-/
import Kaycc.PollPoller
import Kaycc.Transition

namespace Kaycc

open Transition Transition.System

namespace EPollPoller

variable {χ : Type} [DecidableEq χ] (fd : χ ↪ Nat)

/-! ### The poller -/

/-- One `epoll_ctl`, and whether the fd was in the interest set. -/
structure Ctl where
  operation : Operation
  fd : Nat
  present : Bool
deriving DecidableEq, Repr

/-- The kernel accepts it: `EPOLL_CTL_ADD` of an absent fd, the others of a present one. -/
def Ctl.Accepted (call : Ctl) : Prop := call.operation = .add ↔ call.present = false

/-- The poller, the kernel, and the channels of the loop. -/
structure Loop (χ : Type) where
  channels : Nat → Option χ              -- channels_
  interest : Nat → Option PollEvents     -- the interest set of epollfd_
  channel : χ → PollChannel
  calls : List Ctl

namespace Loop

def new : Loop χ where
  channels := fun _ => none
  interest := fun _ => none
  channel := fun _ => PollChannel.new
  calls := []

def setChannel (s : Loop χ) (c : χ) (ch : PollChannel) : Loop χ :=
  { s with channel := Function.update s.channel c ch }

def setIndex (s : Loop χ) (c : χ) (index : Int) : Loop χ :=
  s.setChannel c { s.channel c with index := index }

/-- `EPollPoller::update`. -/
def epollUpdate (s : Loop χ) (operation : Operation) (c : χ) : Loop χ :=
  { s with
    interest := Function.update s.interest (fd c)
      (epollCtl (s.interest (fd c)) (s.channel c).events operation)
    calls := s.calls ++ [⟨operation, fd c, (s.interest (fd c)).isSome⟩] }

def updateChannel (s : Loop χ) (c : χ) : Except Assertion (Loop χ) :=
  let index := (s.channel c).index
  if index = kNew ∨ index = kDeleted then
    if index = kNew then do
      check (s.channels (fd c) = none) .updateChannelNew
      let known : Loop χ := { s with channels := Function.update s.channels (fd c) (some c) }
      pure ((known.setIndex c kAdded).epollUpdate fd .add c)
    else do
      check (s.channels (fd c) = some c) .updateChannelKnown
      pure ((s.setIndex c kAdded).epollUpdate fd .add c)
  else do
    check (s.channels (fd c) = some c) .updateChannelKnown
    check (index = kAdded) .updateChannelAdded
    if (s.channel c).isNoneEvent = true then pure ((s.epollUpdate fd .del c).setIndex c kDeleted)
    else pure (s.epollUpdate fd .mod c)

def removeChannel (s : Loop χ) (c : χ) : Except Assertion (Loop χ) := do
  let index := (s.channel c).index
  check (s.channels (fd c) = some c) .removeChannelKnown
  check ((s.channel c).isNoneEvent = true) .removeChannelIsNoneEvent
  check (index = kAdded ∨ index = kDeleted) .removeChannelIndex
  let erased : Loop χ := { s with channels := Function.update s.channels (fd c) none }
  let deleted := if index = kAdded then erased.epollUpdate fd .del c else erased
  pure (deleted.setIndex c kNew)

/-! ### The operations of a channel -/

/-- `events_ = e; update()`. -/
def setEvents (s : Loop χ) (c : χ) (e : PollEvents) : Except Assertion (Loop χ) :=
  (s.setChannel c { s.channel c with events := e, addedToLoop := true }).updateChannel fd c

def remove (s : Loop χ) (c : χ) : Except Assertion (Loop χ) := do
  check ((s.channel c).isNoneEvent = true) .channelRemoveIsNoneEvent
  (s.setChannel c { s.channel c with addedToLoop := false }).removeChannel fd c

/-- An operation of one of the channels; those that change `events_` differ in what they
    make of it. -/
def perform (s : Loop χ) : χ × ChannelOperation → Except Assertion (Loop χ)
  | (c, .remove) => s.remove fd c
  | (c, op) => s.setEvents fd c (op.events (s.channel c).events)

def system : System (Loop χ) (χ × ChannelOperation) Assertion where
  init s := s = new
  enabled _ _ := True
  step := perform fd

/-- A channel without events is not told to have none. -/
def KeepsWatching (s : Loop χ) (a : χ × ChannelOperation) : Prop :=
  a.2 ≠ .remove → (s.channel a.1).events ≠ kNoneEvent ∨
    a.2.events (s.channel a.1).events ≠ kNoneEvent

instance (s : Loop χ) (a : χ × ChannelOperation) : Decidable ((system fd).enabled s a) :=
  .isTrue trivial

omit [DecidableEq χ] in
instance (s : Loop χ) (a : χ × ChannelOperation) : Decidable (s.KeepsWatching a) :=
  inferInstanceAs (Decidable (_ → _ ∨ _))

/-! ### One channel of the loop -/

section

variable {fd} {s t : Loop χ} {c d : χ} {e : PollEvents} {a : χ × ChannelOperation}

/-- The channel with what the poller and the kernel hold under its fd. -/
def channelOf (fd : χ ↪ Nat) (s : Loop χ) (c : χ) : Channel where
  events := (s.channel c).events
  revents := kNoneEvent
  index := (s.channel c).index
  tied := false
  eventHandling := false
  addedToLoop := (s.channel c).addedToLoop
  entry := ⟨decide (s.channels (fd c) = some c), s.interest (fd c)⟩
  active := .absent

structure Inv (fd : χ ↪ Nat) (s : Loop χ) : Prop where
  mapped : ∀ {f c}, s.channels f = some c → fd c = f
  watched : ∀ c, (channelOf fd s c).Watched
  foreign : ∀ f, (∀ c, fd c ≠ f) → s.interest f = none
  calls : ∀ call ∈ s.calls, call.Accepted

theorem new_inv : Inv fd (new : Loop χ) where
  mapped := fun h => by cases h
  watched := fun _ => Channel.new_synced.toWatched
  foreign := fun _ _ => rfl
  calls := fun _ h => by cases h

/-- A channel in kNew is the only one of its fd, and not registered. -/
theorem Inv.unregistered (h : Inv fd s) (hidx : (s.channel c).index = kNew) :
    s.channels (fd c) = none := by
  cases hch : s.channels (fd c) with
  | none => rfl
  | some d =>
    obtain rfl : d = c := fd.injective (h.mapped hch)
    have hreg := (h.watched d).registered.mp (decide_eq_true hch)
    exact absurd hidx hreg

theorem Inv.registered (h : Inv fd s) (hidx : (s.channel c).index ≠ kNew) :
    s.channels (fd c) = some c :=
  of_decide_eq_true ((h.watched c).registered.mpr hidx)

theorem Inv.interest_eq (h : Inv fd s) (c : χ) :
    s.interest (fd c) = if (s.channel c).index = kAdded then some (s.channel c).events else none :=
  (h.watched c).interest

/-- **A change of events**: no assertion fails, the kernel accepts the one `epoll_ctl`, and
    the channel is `watching`, as if it were alone. -/
theorem Inv.setEvents_ok (h : Inv fd s) (c : χ) (e : PollEvents) :
    ∃ call : Ctl, call.Accepted ∧ s.setEvents fd c e = .ok {
      channels := Function.update s.channels (fd c) (some c)
      interest := Function.update s.interest (fd c)
        ((channelOf fd s c).watching e).entry.interest
      channel := Function.update s.channel c ⟨e, ((channelOf fd s c).watching e).index, true⟩
      calls := s.calls ++ [call] } := by
  obtain ⟨hindex, -, -⟩ := h.watched c
  have hinterest := h.interest_eq c
  rcases hindex with hidx | hidx | hidx
  · change (s.channel c).index = kNew at hidx
    have hnone := h.unregistered hidx
    rw [hidx, if_neg (by decide)] at hinterest
    refine ⟨⟨.add, fd c, false⟩, iff_of_true rfl rfl, ?_⟩
    simp [setEvents, updateChannel, setChannel, setIndex, epollUpdate, epollCtl, check, hidx, hnone,
      hinterest, Channel.watching, channelOf, kNew, kAdded, kDeleted]
  · change (s.channel c).index = kAdded at hidx
    have hknown := h.registered (by rw [hidx]; decide)
    have hmap : Function.update s.channels (fd c) (some c) = s.channels := by
      rw [← hknown, Function.update_eq_self]
    rw [hidx, if_pos rfl] at hinterest
    by_cases he : e = kNoneEvent
    · refine ⟨⟨.del, fd c, true⟩, iff_of_false Operation.noConfusion Bool.noConfusion, ?_⟩
      simp [setEvents, updateChannel, setChannel, setIndex, epollUpdate, epollCtl, check, hidx,
        hknown, hmap, hinterest, Channel.watching, channelOf, PollChannel.isNoneEvent, kNew, kAdded,
        kDeleted, he]
    · refine ⟨⟨.mod, fd c, true⟩, iff_of_false Operation.noConfusion Bool.noConfusion, ?_⟩
      simp [setEvents, updateChannel, setChannel, epollUpdate, epollCtl, check, hidx,
        hknown, hmap, hinterest, Channel.watching, channelOf, PollChannel.isNoneEvent, kNew, kAdded,
        kDeleted, he]
  · change (s.channel c).index = kDeleted at hidx
    have hknown := h.registered (by rw [hidx]; decide)
    have hmap : Function.update s.channels (fd c) (some c) = s.channels := by
      rw [← hknown, Function.update_eq_self]
    rw [hidx, if_neg (by decide)] at hinterest
    refine ⟨⟨.add, fd c, false⟩, iff_of_true rfl rfl, ?_⟩
    simp [setEvents, updateChannel, setChannel, setIndex, epollUpdate, epollCtl, check, hidx, hknown,
      hmap, hinterest, Channel.watching, channelOf, kNew, kAdded, kDeleted]

/-- **`remove()`**, when its assertions hold: the kernel accepts the `epoll_ctl`, if there is
    one, and nothing of the channel is left. -/
theorem Inv.remove_ok (h : Inv fd s) (hst : s.remove fd c = .ok t) :
    (s.channel c).events = kNoneEvent ∧ ∃ calls : List Ctl, (∀ call ∈ calls, call.Accepted) ∧
      t = {
        channels := Function.update s.channels (fd c) none
        interest := Function.update s.interest (fd c) none
        channel := Function.update s.channel c ⟨kNoneEvent, kNew, false⟩
        calls := s.calls ++ calls } := by
  obtain ⟨_, hnone, hst⟩ := bind_eq_ok.mp hst
  obtain ⟨_, -, hst⟩ := bind_eq_ok.mp hst
  obtain ⟨_, -, hst⟩ := bind_eq_ok.mp hst
  obtain ⟨_, hindex, hst⟩ := bind_eq_ok.mp hst
  have hevents : (s.channel c).events = kNoneEvent := of_decide_eq_true (of_check_ok hnone)
  have hinterest := h.interest_eq c
  refine ⟨hevents, ?_⟩
  obtain rfl := Except.ok.inj hst
  rcases of_check_ok hindex with hidx | hidx
  · refine ⟨[⟨.del, fd c, true⟩], by simp [Ctl.Accepted], ?_⟩
    simp only [setChannel, Function.update_self] at hidx
    rw [if_pos hidx] at hinterest
    simp [setChannel, setIndex, epollUpdate, epollCtl, hidx, hinterest, hevents]
  · refine ⟨[], by simp, ?_⟩
    simp only [setChannel, Function.update_self] at hidx
    have hnot : (s.channel c).index ≠ kAdded := by
      rw [hidx]
      decide
    rw [if_neg hnot] at hinterest
    have hsame : Function.update s.interest (fd c) none = s.interest := by
      rw [← hinterest, Function.update_eq_self]
    simp [setChannel, setIndex, hnot, hsame, hevents]

/-- A step that changes what is held under one fd, and accepted calls. -/
theorem Inv.replace {r : Option χ} {i : Option PollEvents} {ch : PollChannel} {calls : List Ctl}
    (h : Inv fd s) (hr : ∀ d, r = some d → fd d = fd c)
    (ht : t = {
      channels := Function.update s.channels (fd c) r
      interest := Function.update s.interest (fd c) i
      channel := Function.update s.channel c ch
      calls := s.calls ++ calls })
    (hw : (channelOf fd t c).Watched) (hcalls : ∀ call ∈ calls, call.Accepted) :
    Inv fd t ∧ ∀ d, d ≠ c → channelOf fd t d = channelOf fd s d := by
  have hother : ∀ d, d ≠ c → channelOf fd t d = channelOf fd s d := by
    intro d hd
    have hfd : fd d ≠ fd c := fun heq => hd (fd.injective heq)
    rw [ht]
    simp only [channelOf, Function.update_of_ne hd, Function.update_of_ne hfd]
  refine ⟨⟨?_, ?_, ?_, ?_⟩, hother⟩
  · intro f d hf
    rw [ht] at hf
    by_cases hfc : f = fd c
    · subst hfc
      simp only [Function.update_self] at hf
      exact hr d hf
    · simp only [Function.update_of_ne hfc] at hf
      exact h.mapped hf
  · intro d
    by_cases hd : d = c
    · subst hd
      exact hw
    · rw [hother d hd]
      exact h.watched d
  · intro f hf
    rw [ht]
    simp only [Function.update_of_ne (hf c).symm]
    exact h.foreign f hf
  · intro call hcall
    rw [ht] at hcall
    rcases List.mem_append.mp hcall with hold | hnew
    · exact h.calls call hold
    · exact hcalls call hnew

/-- What an operation has made of its channel. -/
def Performed (fd : χ ↪ Nat) (s : Loop χ) (c : χ) (op : ChannelOperation) (ch : Channel) : Prop :=
  (op ≠ .remove ∧ ch = (channelOf fd s c).watching (op.events (s.channel c).events)) ∨
    (op = .remove ∧ (s.channel c).events = kNoneEvent ∧ ch = (channelOf fd s c).removed)

/-- **One operation** does to its channel what it does to a channel with its entry, and nothing
    to the others. -/
theorem Inv.perform {op : ChannelOperation} (h : Inv fd s) (hst : s.perform fd (c, op) = .ok t) :
    Inv fd t ∧ (∀ d, d ≠ c → channelOf fd t d = channelOf fd s d) ∧
      Performed fd s c op (channelOf fd t c) := by
  by_cases hop : op = .remove
  · subst hop
    obtain ⟨hnone, calls, hcalls, ht⟩ := h.remove_ok hst
    have hch : channelOf fd t c = (channelOf fd s c).removed := by
      rw [ht]
      simp [channelOf, Channel.removed, hnone]
    have hw : (channelOf fd t c).Watched := by
      rw [hch]
      exact (Channel.removed_synced hnone).toWatched
    obtain ⟨hi, hother⟩ := h.replace (fun d hd => by cases hd) ht hw hcalls
    exact ⟨hi, hother, .inr ⟨rfl, hnone, hch⟩⟩
  · have hset : s.perform fd (c, op) = s.setEvents fd c (op.events (s.channel c).events) := by
      cases op with
      | remove => exact absurd rfl hop
      | _ => rfl
    obtain ⟨call, hcall, heq⟩ := h.setEvents_ok c (op.events (s.channel c).events)
    have ht := Except.ok.inj (hst.symm.trans (hset.trans heq))
    have hch : channelOf fd t c =
        (channelOf fd s c).watching (op.events (s.channel c).events) := by
      rw [ht]
      simp [channelOf, Channel.watching]
    have hw : (channelOf fd t c).Watched := by
      rw [hch]
      exact Channel.watching_watched _ _
    obtain ⟨hi, hother⟩ := h.replace (fun d hd => congrArg fd (Option.some.inj hd).symm) ht hw
      (by simpa using hcall)
    exact ⟨hi, hother, .inl ⟨hop, hch⟩⟩

theorem inv_of_reachable (h : (system fd).Reachable s) : Inv fd s := by
  refine h.invariant (fun s hs => ?_) fun s a t hi hst => ?_
  · obtain rfl : s = new := hs
    exact new_inv
  · obtain ⟨c, op⟩ := a
    exact (hi.perform hst.2).1

/-! ### The theorem -/

/-- The kernel watches the channels that are registered and want events, for these events;
    and no `epoll_ctl` came in the wrong state. -/
structure WatchesExactly (fd : χ ↪ Nat) (s : Loop χ) : Prop where
  interest : ∀ c, s.interest (fd c) ≠ none ↔
    s.channels (fd c) = some c ∧ (s.channel c).events ≠ kNoneEvent
  mask : ∀ c m, s.interest (fd c) = some m → m = (s.channel c).events
  foreign : ∀ f, (∀ c, fd c ≠ f) → s.interest f = none
  calls : ∀ call ∈ s.calls, call.Accepted

/-- The invariant gives all of it but that a channel in the interest set wants events. -/
theorem Inv.watchesExactly (h : Inv fd s)
    (hadded : ∀ c, (s.channel c).index = kAdded ↔ (s.channel c).events ≠ kNoneEvent) :
    WatchesExactly fd s := by
  refine ⟨fun c => ?_, fun c m hm => ?_, h.foreign, h.calls⟩
  · rw [h.interest_eq c]
    by_cases hidx : (s.channel c).index = kAdded
    · have hreg := h.registered (c := c) (by rw [hidx]; decide)
      rw [if_pos hidx]
      exact iff_of_true nofun ⟨hreg, (hadded c).mp hidx⟩
    · rw [if_neg hidx]
      exact iff_of_false (fun hne => hne rfl) fun hand => hidx ((hadded c).mpr hand.2)
  · rw [h.interest_eq c] at hm
    split at hm
    · exact (Option.some.inj hm).symm
    · cases hm

theorem synced_perform {op : ChannelOperation} {ch : Channel} (hs : (channelOf fd s c).Synced)
    (hkeeps : s.KeepsWatching (c, op)) (h : Performed fd s c op ch) : ch.Synced := by
  rcases h with ⟨hop, rfl⟩ | ⟨-, hnone, rfl⟩
  · exact hs.watching (hkeeps hop)
  · exact Channel.removed_synced hnone

/-- **The kernel watches exactly the channels that want events**, in every run in which no
    channel without events is told to have none. -/
theorem watches_exactly (h : ((system fd).restrict KeepsWatching).Reachable s) :
    WatchesExactly fd s := by
  have hboth : Inv fd s ∧ ∀ c, (channelOf fd s c).Synced := by
    refine h.invariant (P := fun s => Inv fd s ∧ ∀ c, (channelOf fd s c).Synced)
      (fun s hs => ?_) fun s a t hi hst => ?_
    · obtain rfl : s = new := hs
      exact ⟨new_inv, fun _ => Channel.new_synced⟩
    · obtain ⟨hinv, hsynced⟩ := hi
      obtain ⟨c, op⟩ := a
      obtain ⟨hinv', hother, hperformed⟩ := hinv.perform hst.of_restrict.2
      refine ⟨hinv', fun d => ?_⟩
      by_cases hd : d = c
      · subst hd
        exact synced_perform (hsynced d) hst.condition hperformed
      · rw [hother d hd]
        exact hsynced d
  exact hboth.1.watchesExactly fun c => (hboth.2 c).added

/-- Two channels; one is disabled, removed, and comes back. -/
theorem watches_exactly_two :
    ∃ s : Loop Nat, WatchesExactly (Function.Embedding.refl Nat) s ∧
      s.interest 3 = some kWriteEvent ∧ s.interest 5 = some kReadEvent := by
  have hrun : ∃ s : Loop Nat,
      ((system (Function.Embedding.refl Nat)).restrict KeepsWatching).Reachable s ∧
        s.interest 3 = some kWriteEvent ∧ s.interest 5 = some kReadEvent :=
    ⟨_, reachable_of_exec [(3, .enableReading), (5, .enableReading), (3, .disableAll),
      (3, .remove), (3, .enableWriting)] rfl rfl, rfl, rfl⟩
  obtain ⟨s, hs, hrest⟩ := hrun
  exact ⟨s, watches_exactly hs, hrest⟩

/-- A channel that is disabled twice is in the interest set, with no events. -/
theorem watched_without_events :
    ∃ s : Loop Nat, (system (Function.Embedding.refl Nat)).Reachable s ∧
      (s.channel 3).events = kNoneEvent ∧ s.interest 3 = some kNoneEvent ∧
      ¬ WatchesExactly (Function.Embedding.refl Nat) s := by
  have hrun : ∃ s : Loop Nat, (system (Function.Embedding.refl Nat)).Reachable s ∧
      (s.channel 3).events = kNoneEvent ∧ s.interest 3 = some kNoneEvent :=
    ⟨_, reachable_of_exec [(3, .enableReading), (3, .disableAll), (3, .disableAll)] rfl rfl, rfl,
      rfl⟩
  obtain ⟨s, hs, hnone, hinterest⟩ := hrun
  refine ⟨s, hs, hnone, hinterest, fun hexact => ?_⟩
  have hin : s.interest (Function.Embedding.refl Nat 3) ≠ none := by
    change s.interest 3 ≠ none
    rw [hinterest]
    nofun
  exact ((hexact.interest 3).mp hin).2 hnone

/-- **The condition is exact**: the first step that does not meet it leaves a channel without
    events in the interest set. -/
theorem keepsWatching_exact (h : (system fd).Reachable s) (hexact : WatchesExactly fd s)
    (hst : (system fd).Step s a t) (hnot : ¬ s.KeepsWatching a) : ¬ WatchesExactly fd t := by
  obtain ⟨c, op⟩ := a
  obtain ⟨hop, hboth⟩ := Classical.not_imp.mp hnot
  obtain ⟨hnone, hnone'⟩ := not_or.mp hboth
  rw [not_not] at hnone hnone'
  have hinv := inv_of_reachable h
  obtain ⟨hinv', -, ⟨-, hch⟩ | ⟨hremove, -⟩⟩ := hinv.perform hst.2
  · have hidx : (s.channel c).index ≠ kAdded := by
      intro hidx
      have hint : s.interest (fd c) ≠ none := by
        rw [hinv.interest_eq c, if_pos hidx]
        nofun
      exact ((hexact.interest c).mp hint).2 hnone
    -- the channel is put into the set with an empty mask
    have hevents : (t.channel c).events = kNoneEvent := (congrArg Channel.events hch).trans hnone'
    have hadded : (t.channel c).index = kAdded :=
      (congrArg Channel.index hch).trans (if_neg fun hand => hidx hand.1)
    intro hexact'
    have hint : t.interest (fd c) ≠ none := by
      rw [hinv'.interest_eq c, if_pos hadded]
      nofun
    exact ((hexact'.interest c).mp hint).2 hevents
  · exact absurd hremove hop

end

end Loop

end EPollPoller

end Kaycc
