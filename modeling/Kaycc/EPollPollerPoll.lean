/-
  Kaycc/EPollPollerPoll.lean
  ==========================
  **`EPollPoller::poll`, and the growth of its `events_`.**

  The kernel keeps with each fd of the interest set the `data.ptr` of the
  `epoll_ctl` that put it there.  `epoll_wait` reports at most `events_.size()` of
  the fds that are ready, and the others have to wait for a later call; when
  `events_` has been filled, its size is doubled.

  `poll_reports`: the assertions of `fillActiveChannels` never fail, and
  `activeChannels` are the channels of the reported fds, each once, with the
  reported events.  `polls_truncated`: only a poll that fills `events_` leaves a
  ready fd out, and however long the loop runs, such polls are as few as the
  doublings, which the number of fds that were ready at once bounds.
-/
import Kaycc.EPollPoller
import Kaycc.PollPollerIndex
import Mathlib.Algebra.Group.Nat.Defs
import Mathlib.Data.List.Nodup

namespace Kaycc

open Transition Transition.System

namespace EPollPoller

variable {χ : Type} [DecidableEq χ] (fd : χ ↪ Nat)

/-! ### `poll` -/

def kInitEventListSize : Nat := 16

/-- A `struct epoll_event`. -/
structure EpollEvent (χ : Type) where
  events : PollEvents
  ptr : χ

/-- The poller, the kernel, and how `poll` has fared. -/
structure Polls (χ : Type) where
  loop : Loop χ
  data : Nat → Option χ              -- data.ptr, for the fds of the interest set
  eventListSize : Nat                -- events_.size()
  active : PollPoller.Active χ
  most : Nat                         -- how many fds have been ready at once
  full : Nat                         -- how many polls have filled events_
  missed : Nat                       -- how many have left out an fd that was ready

namespace Polls

def new : Polls χ where
  loop := Loop.new
  data := fun _ => none
  eventListSize := kInitEventListSize
  active := ⟨fun _ => kNoneEvent, []⟩
  most := 0
  full := 0
  missed := 0

/-- What the kernel reports for an fd. -/
def report (s : Polls χ) (e : Nat × PollEvents) : Option (EpollEvent χ) :=
  (s.data e.1).map (EpollEvent.mk e.2)

/-- What `epoll_wait` writes into `events_` when these fds are ready. -/
def epollWait (s : Polls χ) (ready : List (Nat × PollEvents)) : List (EpollEvent χ) :=
  (ready.take s.eventListSize).filterMap s.report

/-- The loop of `fillActiveChannels`. -/
def fillActive (s : Polls χ) :
    List (EpollEvent χ) → PollPoller.Active χ → Except Assertion (PollPoller.Active χ)
  | [], active => .ok active
  | event :: rest, active => do
      check (s.loop.channels (fd event.ptr) = some event.ptr) .fillActiveFound
      s.fillActive rest {
        revents := Function.update active.revents event.ptr event.events
        activeChannels := active.activeChannels ++ [event.ptr] }

/-- `fillActiveChannels`; the assert on `numEvents` has no name of its own. -/
def fillActiveChannels (s : Polls χ) (events : List (EpollEvent χ)) (active : PollPoller.Active χ) :
    Except Assertion (PollPoller.Active χ) := do
  check (events.length ≤ s.eventListSize) .fillActiveFound
  s.fillActive fd events active

/-- `poll`, after the `activeChannels_.clear()` of the loop. -/
def poll (s : Polls χ) (ready : List (Nat × PollEvents)) : Except Assertion (Polls χ) :=
  let events := s.epollWait ready
  let polled := { s with
    active := { s.active with activeChannels := [] }
    most := max s.most ready.length
    missed := if s.eventListSize < ready.length then s.missed + 1 else s.missed }
  if 0 < events.length then do
    let active ← s.fillActiveChannels fd events polled.active
    if events.length = s.eventListSize then
      pure { polled with
        active := active
        eventListSize := s.eventListSize * 2
        full := s.full + 1 }
    else pure { polled with active := active }
  else pure polled

/-- An operation of a channel.  What an `epoll_ctl` leaves under the fd points to the channel. -/
def perform (s : Polls χ) (c : χ) (op : ChannelOperation) : Except Assertion (Polls χ) := do
  let loop ← s.loop.perform fd (c, op)
  pure { s with
    loop := loop
    data := Function.update s.data (fd c) ((loop.interest (fd c)).map fun _ => c) }

inductive Action (χ : Type) where
  | perform (c : χ) (op : ChannelOperation)
  | poll (ready : List (Nat × PollEvents))     -- none at a timeout
  | pollFailed                                 -- epoll_wait returns -1

/-- The fds that are ready are in the interest set. -/
def enabled (s : Polls χ) : Action χ → Prop
  | .poll ready => (ready.map Prod.fst).Nodup ∧
      ∀ e ∈ ready, Reports (s.loop.interest e.1) e.2 ∧ e.2 ≠ kNoneEvent
  | _ => True

def step (s : Polls χ) : Action χ → Except Assertion (Polls χ)
  | .perform c op => s.perform fd c op
  | .poll ready => s.poll fd ready
  | .pollFailed => .ok { s with active := { s.active with activeChannels := [] } }

def system : System (Polls χ) (Action χ) Assertion where
  init s := s = new
  enabled := enabled
  step := step fd

instance (s : Polls χ) : (a : Action χ) → Decidable ((system fd).enabled s a)
  | .perform _ _ => .isTrue trivial
  | .poll _ => inferInstanceAs (Decidable (_ ∧ _))
  | .pollFailed => .isTrue trivial

/-! ### What `fillActiveChannels` does -/

section

variable {fd} {s t : Polls χ} {ready : List (Nat × PollEvents)}

theorem fillActive_ok {events : List (EpollEvent χ)}
    (h : ∀ e ∈ events, s.loop.channels (fd e.ptr) = some e.ptr)
    (hnodup : (events.map EpollEvent.ptr).Nodup) (active : PollPoller.Active χ) :
    ∃ active', s.fillActive fd events active = .ok active' ∧
      active'.activeChannels = active.activeChannels ++ events.map EpollEvent.ptr ∧
      (∀ e ∈ events, active'.revents e.ptr = e.events) ∧
      ∀ c ∉ events.map EpollEvent.ptr, active'.revents c = active.revents c := by
  induction events generalizing active with
  | nil => exact ⟨active, rfl, (List.append_nil _).symm, fun _ h => (by cases h), fun _ _ => rfl⟩
  | cons e events ih =>
    obtain ⟨hnot, hnodup⟩ := List.nodup_cons.mp hnodup
    obtain ⟨active', heq, hchannels, hrevents, hothers⟩ :=
      ih (fun d hd => h d (.tail _ hd)) hnodup {
        revents := Function.update active.revents e.ptr e.events
        activeChannels := active.activeChannels ++ [e.ptr] }
    refine ⟨active', ?_, ?_, ?_, ?_⟩
    · rw [fillActive, check_eq_ok (h e List.mem_cons_self)]
      exact heq
    · rw [hchannels, List.append_assoc]
      rfl
    · intro d hd
      rcases List.mem_cons.mp hd with rfl | hd
      · rw [hothers d.ptr hnot]
        exact Function.update_self ..
      · exact hrevents d hd
    · intro c hc
      obtain ⟨hne, hc⟩ := not_or.mp (List.mem_cons.not.mp hc)
      rw [hothers c hc]
      exact Function.update_of_ne hne ..

/-! ### The invariant -/

structure Inv (fd : χ ↪ Nat) (s : Polls χ) : Prop where
  loop : Loop.Inv fd s.loop
  data : ∀ c, s.loop.interest (fd c) ≠ none → s.data (fd c) = some c
  size : s.eventListSize = kInitEventListSize * 2 ^ s.full
  missed : s.missed ≤ s.full
  full : s.full = 0 ∨ kInitEventListSize * 2 ^ (s.full - 1) ≤ s.most

theorem new_inv : Inv fd (new : Polls χ) where
  loop := Loop.new_inv
  data := fun _ h => absurd rfl h
  size := rfl
  missed := Nat.le_refl 0
  full := .inl rfl

/-- What is in the interest set belongs to a channel that is registered and added. -/
theorem Inv.of_interest (hi : Inv fd s) {f : Nat} (hf : s.loop.interest f ≠ none) :
    ∃ c, fd c = f ∧ s.data f = some c ∧ s.loop.channels f = some c ∧
      (s.loop.channel c).index = kAdded := by
  obtain ⟨c, rfl⟩ : ∃ c, fd c = f := by
    by_contra hnone
    exact hf (hi.loop.foreign f fun c hc => hnone ⟨c, hc⟩)
  have hadded : (s.loop.channel c).index = kAdded := by
    by_contra hnot
    exact hf ((hi.loop.interest_eq c).trans (if_neg hnot))
  have hnew : (s.loop.channel c).index ≠ kNew := by
    rw [hadded]
    decide
  exact ⟨c, rfl, hi.data c hf, hi.loop.registered hnew, hadded⟩

/-- `events_` holds the fds that are reported, in order, each with its channel. -/
theorem Inv.epollWait (hi : Inv fd s) (hready : ∀ e ∈ ready, s.loop.interest e.1 ≠ none) :
    (s.epollWait ready).map (fun e => (fd e.ptr, e.events)) = ready.take s.eventListSize := by
  have hall (l : List (Nat × PollEvents)) (hl : ∀ e ∈ l, s.loop.interest e.1 ≠ none) :
      (l.filterMap s.report).map (fun e => (fd e.ptr, e.events)) = l := by
    induction l with
    | nil => rfl
    | cons e l ih =>
      obtain ⟨c, hc, hdata, -, -⟩ := hi.of_interest (hl e List.mem_cons_self)
      have hhead : s.report e = some ⟨e.2, c⟩ := by
        rw [report, hdata]
        rfl
      rw [List.filterMap_cons_some hhead, List.map_cons, ih fun d hd => hl d (.tail _ hd), hc]
  exact hall _ fun e he => hready e (List.mem_of_mem_take he)

/-! ### Steps keep the invariant -/

omit [DecidableEq χ] in
theorem interest_of_enabled (hen : s.enabled (.poll ready)) :
    ∀ e ∈ ready, s.loop.interest e.1 ≠ none := by
  intro e he hnone
  have hreports := (hen.2 e he).1
  rw [hnone] at hreports
  exact hreports

/-- The channels in `events_` are registered, and their fds in the interest set. -/
theorem Inv.mem_epollWait (hi : Inv fd s) (hready : ∀ e ∈ ready, s.loop.interest e.1 ≠ none)
    {e : EpollEvent χ} (he : e ∈ s.epollWait ready) :
    s.loop.channels (fd e.ptr) = some e.ptr ∧ (s.loop.channel e.ptr).index = kAdded ∧
      s.loop.interest (fd e.ptr) ≠ none := by
  have hmem : (fd e.ptr, e.events) ∈ ready.take s.eventListSize := by
    rw [← hi.epollWait hready]
    exact List.mem_map_of_mem he
  have hinterest := hready _ (List.mem_of_mem_take hmem)
  obtain ⟨c, hc, -, hchannel, hindex⟩ := hi.of_interest hinterest
  obtain rfl : c = e.ptr := fd.injective hc
  exact ⟨hchannel, hindex, hinterest⟩

/-- No channel is in `events_` twice. -/
theorem Inv.nodup_epollWait (hi : Inv fd s) (hen : s.enabled (.poll ready)) :
    ((s.epollWait ready).map EpollEvent.ptr).Nodup := by
  have hfds : ((s.epollWait ready).map EpollEvent.ptr).map fd =
      (ready.map Prod.fst).take s.eventListSize := by
    rw [← List.map_take, ← hi.epollWait (interest_of_enabled hen), List.map_map, List.map_map]
    rfl
  apply List.Nodup.of_map fd
  rw [hfds]
  exact hen.1.sublist (List.take_sublist _ _)

/-- **What `poll` does**, when its fds are ready. -/
theorem Inv.poll_ok (hi : Inv fd s) (hen : s.enabled (.poll ready)) :
    ∃ active : PollPoller.Active χ,
      active.activeChannels.map (fun c => (fd c, active.revents c)) =
        ready.take s.eventListSize ∧
      (∀ c ∈ active.activeChannels, s.loop.channels (fd c) = some c ∧
        (s.loop.channel c).index = kAdded ∧ s.loop.interest (fd c) ≠ none) ∧
      s.poll fd ready = .ok { s with
        active := active
        most := max s.most ready.length
        missed := if s.eventListSize < ready.length then s.missed + 1 else s.missed
        eventListSize :=
          if s.eventListSize ≤ ready.length then s.eventListSize * 2 else s.eventListSize
        full := if s.eventListSize ≤ ready.length then s.full + 1 else s.full } := by
  have hready := interest_of_enabled hen
  have hsize : 0 < s.eventListSize := by
    rw [hi.size]
    exact Nat.mul_pos (by decide) (Nat.pow_pos (by decide))
  have hevents := hi.epollWait hready
  have hlength : (s.epollWait ready).length = min s.eventListSize ready.length := by
    rw [← List.length_take, ← hevents, List.length_map]
  have hchannels (e : EpollEvent χ) (he : e ∈ s.epollWait ready) := hi.mem_epollWait hready he
  obtain ⟨active, heq, hactive, hrevents, -⟩ :=
    fillActive_ok (fun e he => (hchannels e he).1) (hi.nodup_epollWait hen)
      { s.active with activeChannels := [] }
  rw [List.nil_append] at hactive
  refine ⟨active, ?_, ?_, ?_⟩
  · rw [← hevents, hactive, List.map_map]
    exact List.map_congr_left fun e he => congrArg (Prod.mk (fd e.ptr)) (hrevents e he)
  · intro c hc
    rw [hactive] at hc
    obtain ⟨e, he, rfl⟩ := List.mem_map.mp hc
    exact hchannels e he
  · have hfits : (s.epollWait ready).length ≤ s.eventListSize := by omega
    have hfill : s.fillActiveChannels fd (s.epollWait ready)
        { s.active with activeChannels := [] } = .ok active := by
      rw [fillActiveChannels, check_eq_ok hfits]
      exact heq
    unfold poll
    by_cases hpos : 0 < (s.epollWait ready).length
    · simp only [if_pos hpos, hfill, ok_bind]
      by_cases hfull : s.eventListSize ≤ ready.length
      · have hall : (s.epollWait ready).length = s.eventListSize := by omega
        simp only [if_pos hall, if_pos hfull]
        rfl
      · have hpart : (s.epollWait ready).length ≠ s.eventListSize := by omega
        simp only [if_neg hpart, if_neg hfull]
        rfl
    · have hnone : ¬ s.eventListSize ≤ ready.length := by omega
      have hnil : s.epollWait ready = [] := List.eq_nil_iff_length_eq_zero.mpr (by omega)
      rw [hnil] at heq
      obtain rfl := Except.ok.inj heq
      simp only [if_neg hpos, if_neg hnone]
      rfl

/-- A `poll` fills `events_` only when as many fds are ready. -/
theorem Inv.poll (hi : Inv fd s) (hen : s.enabled (.poll ready)) (hst : s.poll fd ready = .ok t) :
    Inv fd t := by
  obtain ⟨active, -, -, heq⟩ := hi.poll_ok hen
  obtain rfl := Except.ok.inj (heq.symm.trans hst)
  have hsize := hi.size
  have hmissed := hi.missed
  refine { hi with size := ?_, missed := ?_, full := ?_ }
  · dsimp only
    split
    · rw [hsize, Nat.pow_succ, Nat.mul_assoc]
    · exact hsize
  · dsimp only
    split
    · rw [if_pos (by omega)]
      omega
    · split
      · omega
      · exact hmissed
  · dsimp only
    split
    · rename_i hfull
      rw [Nat.add_sub_cancel, ← hsize]
      exact .inr (hfull.trans (Nat.le_max_right ..))
    · exact hi.full.imp_right fun h => h.trans (Nat.le_max_left ..)

omit [DecidableEq χ] in
/-- The fds that are reported, in order. -/
theorem fds_of_active {active : PollPoller.Active χ}
    (hactive : active.activeChannels.map (fun c => (fd c, active.revents c)) =
      ready.take s.eventListSize) :
    active.activeChannels.map fd = (ready.map Prod.fst).take s.eventListSize := by
  rw [← List.map_take, ← hactive, List.map_map]
  rfl

/-- A ready fd is left out when, and only when, `events_` is too small. -/
theorem left_out_iff (hnodup : (ready.map Prod.fst).Nodup) (size : Nat) :
    (∃ e ∈ ready, e.1 ∉ (ready.map Prod.fst).take size) ↔ size < ready.length := by
  constructor
  · rintro ⟨e, he, hnot⟩
    by_contra hle
    rw [List.take_of_length_le (by rw [List.length_map]; omega)] at hnot
    exact hnot (List.mem_map_of_mem he)
  · intro hlt
    refine ⟨ready[size], List.getElem_mem hlt, fun hmem => ?_⟩
    have hdrop : (ready[size]).1 ∈ (ready.map Prod.fst).drop size := by
      rw [← List.map_drop, List.drop_eq_getElem_cons hlt]
      exact List.mem_cons_self
    exact List.disjoint_take_drop hnodup (Nat.le_refl size) hmem hdrop

/-- **What a `poll` leaves out, and when it grows `events_`.** -/
theorem Inv.poll_misses (hi : Inv fd s) (hen : s.enabled (.poll ready))
    (hst : s.poll fd ready = .ok t) :
    (t.missed = s.missed + 1 ↔ ∃ e ∈ ready, e.1 ∉ t.active.activeChannels.map fd) ∧
      (t.full = s.full + 1 ↔ t.active.activeChannels.length = s.eventListSize) ∧
      ((∃ e ∈ ready, e.1 ∉ t.active.activeChannels.map fd) →
        t.active.activeChannels.length = s.eventListSize) := by
  obtain ⟨active, hactive, -, heq⟩ := hi.poll_ok hen
  obtain rfl := Except.ok.inj (heq.symm.trans hst)
  have hlength : active.activeChannels.length = min s.eventListSize ready.length := by
    rw [← List.length_take, ← hactive, List.length_map]
  rw [fds_of_active hactive, left_out_iff hen.1]
  dsimp only
  refine ⟨?_, ?_, fun h => by omega⟩
  · split
    · exact iff_of_true rfl (by assumption)
    · exact iff_of_false (by omega) (by assumption)
  · split
    · exact iff_of_true rfl (by omega)
    · exact iff_of_false (by omega) (by omega)

theorem Inv.perform (hi : Inv fd s) {c : χ} {op : ChannelOperation}
    (hst : s.perform fd c op = .ok t) : Inv fd t := by
  obtain ⟨loop, hloop, hok⟩ := bind_eq_ok.mp hst
  obtain rfl := Except.ok.inj hok
  obtain ⟨hinv, hothers, -⟩ := hi.loop.perform hloop
  constructor
  · exact hinv
  · intro d hd
    by_cases hdc : d = c
    · subst hdc
      obtain ⟨m, hm⟩ := Option.ne_none_iff_exists'.mp hd
      change Function.update s.data (fd d) ((loop.interest (fd d)).map fun _ => d) (fd d) = some d
      rw [Function.update_self, hm]
      rfl
    · have hfd : fd d ≠ fd c := fun heq => hdc (fd.injective heq)
      have hint : loop.interest (fd d) = s.loop.interest (fd d) :=
        congrArg (fun ch : Channel => ch.entry.interest) (hothers d hdc)
      change Function.update s.data (fd c) ((loop.interest (fd c)).map fun _ => c) (fd d) = some d
      rw [Function.update_of_ne hfd]
      exact hi.data d (hint ▸ hd)
  · exact hi.size
  · exact hi.missed
  · exact hi.full

theorem inv_of_reachable (h : (system fd).Reachable s) : Inv fd s := by
  refine h.invariant (fun s hs => ?_) fun s a t hi hst => ?_
  · obtain rfl : s = new := hs
    exact new_inv
  · obtain ⟨hen, heq⟩ := hst
    cases a with
    | perform c op => exact hi.perform heq
    | poll ready => exact hi.poll hen heq
    | pollFailed =>
      obtain rfl := Except.ok.inj heq
      exact { hi with }

/-! ### The theorems -/

/-- **`poll` hands out what the kernel reports.**  No assertion of `fillActiveChannels` fails;
    `activeChannels` are the channels of the reported fds, in order and each once, with the
    events that are reported, and each of them is in `channels_` and in the interest set. -/
theorem poll_reports (h : (system fd).Reachable s) (hen : (system fd).enabled s (.poll ready)) :
    ∃ t, (system fd).step s (.poll ready) = .ok t ∧
      t.active.activeChannels.map (fun c => (fd c, t.active.revents c)) =
        ready.take s.eventListSize ∧
      t.active.activeChannels.Nodup ∧
      ∀ c ∈ t.active.activeChannels,
        s.loop.channels (fd c) = some c ∧ (s.loop.channel c).index = kAdded ∧
          s.loop.interest (fd c) ≠ none := by
  obtain ⟨active, hactive, hchannels, heq⟩ := (inv_of_reachable h).poll_ok hen
  refine ⟨_, heq, hactive, ?_, hchannels⟩
  apply List.Nodup.of_map fd
  rw [fds_of_active hactive]
  exact hen.1.sublist (List.take_sublist _ _)

/-- Two channels are ready, one of them to be written. -/
theorem poll_reports_two : ∃ s t : Polls Nat,
    (system (Function.Embedding.refl Nat)).Reachable s ∧
      (system (Function.Embedding.refl Nat)).step s (.poll [(5, kWriteEvent), (3, kReadEvent)]) =
        .ok t ∧
      t.active.activeChannels.map (fun c => (c, t.active.revents c)) =
        [(5, kWriteEvent), (3, kReadEvent)] := by
  let ready : List (Nat × PollEvents) := [(5, kWriteEvent), (3, kReadEvent)]
  let test (s : Polls Nat) : Bool := s.eventListSize = 16 ∧ (ready.map Prod.fst).Nodup ∧
    ∀ e ∈ ready, Reports (s.loop.interest e.1) e.2 ∧ e.2 ≠ kNoneEvent
  have hrun : ((system (Function.Embedding.refl Nat)).exec new
      [.perform 3 .enableReading, .perform 5 .enableWriting]).any test = true := by decide +kernel
  obtain ⟨s, hs, htest⟩ := exists_of_exec_any _ rfl hrun
  obtain ⟨hsize, hen⟩ := of_decide_eq_true htest
  obtain ⟨t, ht, hactive, -⟩ := poll_reports hs hen
  rw [hsize] at hactive
  exact ⟨s, t, hs, ht, hactive⟩

/-- **Few polls are truncated.**  The size of `events_` is 16, doubled as often as it was filled,
    and the last doubling was of a size that as many fds have been ready at once; a poll that
    leaves a ready fd out fills `events_`, so there have been no more of them. -/
theorem polls_truncated (h : (system fd).Reachable s) :
    s.eventListSize = kInitEventListSize * 2 ^ s.full ∧ s.missed ≤ s.full ∧
      (s.full = 0 ∨ kInitEventListSize * 2 ^ (s.full - 1) ≤ s.most) ∧
      ∀ ready t, (system fd).Step s (.poll ready) t →
        (t.missed = s.missed + 1 ↔ ∃ e ∈ ready, e.1 ∉ t.active.activeChannels.map fd) ∧
        (t.full = s.full + 1 ↔ t.active.activeChannels.length = s.eventListSize) ∧
        ((∃ e ∈ ready, e.1 ∉ t.active.activeChannels.map fd) →
          t.active.activeChannels.length = s.eventListSize) := by
  have hi := inv_of_reachable h
  exact ⟨hi.size, hi.missed, hi.full, fun _ _ hst => hi.poll_misses hst.1 hst.2⟩

/-- Seventeen channels are ready: a poll leaves one out, and there is room for the next. -/
theorem polls_truncated_once : ∃ s t : Polls Nat,
    (system (Function.Embedding.refl Nat)).Reachable s ∧
      (system (Function.Embedding.refl Nat)).Step s
        (.poll ((List.range 17).map fun f => (f, kReadEvent))) t ∧
      (∃ e ∈ (List.range 17).map fun f => (f, kReadEvent), e.1 ∉ t.active.activeChannels) ∧
      t.active.activeChannels.length = 16 ∧ t.missed = 1 ∧ t.most = 17 ∧
      t.eventListSize = kInitEventListSize * 2 ^ 1 := by
  let ready : List (Nat × PollEvents) := (List.range 17).map fun f => (f, kReadEvent)
  let test (s : Polls Nat) : Bool := s.eventListSize = 16 ∧ s.missed = 0 ∧ s.full = 0 ∧
    (system (Function.Embedding.refl Nat)).enabled s (.poll ready) ∧
    ((system (Function.Embedding.refl Nat)).step s (.poll ready)).toOption.any
      (fun t => t.missed = 1 ∧ t.full = 1 ∧ t.most = 17) = true
  have hrun : ((system (Function.Embedding.refl Nat)).exec new
      ((List.range 17).map fun c => .perform c .enableReading)).any test = true := by
    decide +kernel
  obtain ⟨s, hs, htest⟩ := exists_of_exec_any _ rfl hrun
  obtain ⟨hsize, hmissed, hfull, hen, hstep⟩ := of_decide_eq_true htest
  cases heq : (system (Function.Embedding.refl Nat)).step s (.poll ready) with
  | error e =>
    rw [heq] at hstep
    cases hstep
  | ok t =>
    rw [heq] at hstep
    obtain ⟨hone, hgrown, hmost⟩ := of_decide_eq_true hstep
    have hst : (system (Function.Embedding.refl Nat)).Step s (.poll ready) t := ⟨hen, heq⟩
    obtain ⟨hleft, hfills, -⟩ := (polls_truncated hs).2.2.2 ready t hst
    have hgrow := (polls_truncated (hs.step hst)).1
    rw [hgrown] at hgrow
    obtain ⟨e, he, hnot⟩ := hleft.mp (by rw [hone, hmissed])
    refine ⟨s, t, hs, hst, ⟨e, he, fun hmem => hnot ?_⟩, ?_, hone, hmost, hgrow⟩
    · exact List.mem_map.mpr ⟨e.1, hmem, rfl⟩
    · rw [hfills.mp (by rw [hgrown, hfull]), hsize]

end

end Polls

end EPollPoller

end Kaycc
