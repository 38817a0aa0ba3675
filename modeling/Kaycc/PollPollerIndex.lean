/-
  Kaycc/PollPollerIndex.lean
  ==========================
  **The index structure of `PollPoller` is exact.**

  The calls are those of the poller's own interface, in any order: a channel's
  `events_` may have become anything before an `updateChannel`, and `poll` may
  come in between.  `Indexes` says that `pollfds_`, `channels_` and the channels'
  `index_` are one table (`SlotTable.Indexed`) and that every `pollfd` holds the
  events of its channel's last update; the calls keep it as long as no assertion
  fails, and `channels_[channelAtEnd]` is never null.  From it: what
  `fillActiveChannels` appends.
-/
import Kaycc.PollerAgreement
import Kaycc.Transition

namespace Kaycc

open SlotTable Transition Transition.System

namespace PollPoller

variable {χ : Type} [DecidableEq χ] (fd : χ ↪ Nat)

/-! ### `poll` -/

/-- The `revents_` of the channels, and `activeChannels`. -/
structure Active (χ : Type) where
  revents : χ → PollEvents
  activeChannels : List χ

omit [DecidableEq χ] in
/-- `channels_.find(f)`. -/
def find (p : PollPoller χ) (f : Int) : Option χ := if 0 ≤ f then p.channels f.toNat else none

/-- `fillActiveChannels`; its `numEvents` is only counted down. -/
def fillActiveChannels (p : PollPoller χ) : List PollFd → Active χ → Except Assertion (Active χ)
  | [], active => .ok active
  | pfd :: rest, active =>
      if pfd.revents ≠ kNoneEvent then
        match p.find pfd.fd with
        | none => .error .fillActiveFound
        | some ch => do
            check ((fd ch : Int) = pfd.fd) .fillActiveFd
            p.fillActiveChannels rest {
              revents := Function.update active.revents ch pfd.revents
              activeChannels := active.activeChannels ++ [ch] }
      else p.fillActiveChannels rest active

/-- `::poll` fills in `revents` where `fd >= 0`, and 0 elsewhere. -/
def answered (p : PollPoller χ) (revents : Nat → PollEvents) : PollPoller χ :=
  { p with pollfds := p.pollfds.mapIdx fun i pfd =>
      { pfd with revents := if 0 ≤ pfd.fd then revents i else kNoneEvent } }

/-- `poll`, with what `::poll` returns and fills in. -/
def poll (p : PollPoller χ) (numEvents : Int) (revents : Nat → PollEvents) (active : Active χ) :
    Except Assertion (PollPoller χ × Active χ) :=
  let p' := p.answered revents
  if 0 < numEvents then do
    let active' ← p'.fillActiveChannels fd p'.pollfds active
    pure (p', active')
  else pure (p', active)

/-! ### The calls -/

/-- The poller, what `poll` has handed out, and the `events_` that each channel had at its
    last update. -/
structure Calls (χ : Type) where
  poller : PollPoller χ
  active : Active χ
  updated : χ → PollEvents

namespace Calls

inductive Action (χ : Type) where
  | setEvents (c : χ) (events : PollEvents)      -- events_ = events
  | updateChannel (c : χ)
  | removeChannel (c : χ)
  | poll (numEvents : Int) (revents : Nat → PollEvents)

def new : Calls χ := ⟨PollPoller.new, ⟨fun _ => kNoneEvent, []⟩, fun _ => kNoneEvent⟩

def step (s : Calls χ) : Action χ → Except Assertion (Calls χ)
  | .setEvents c events => .ok { s with
      poller := s.poller.setChannel c { s.poller.channel c with events := events } }
  | .updateChannel c => do
      let p ← s.poller.updateChannel fd c
      pure { s with
        poller := p
        updated := Function.update s.updated c (s.poller.channel c).events }
  | .removeChannel c => do
      let p ← s.poller.removeChannel fd c
      pure { s with poller := p }
  -- loop() clears activeChannels_ before it polls
  | .poll numEvents revents => do
      let polled ← s.poller.poll fd numEvents revents { s.active with activeChannels := [] }
      pure { s with poller := polled.1, active := polled.2 }

def system : System (Calls χ) (Action χ) Assertion where
  init s := s = new
  enabled _ _ := True
  step := step fd

instance (s : Calls χ) (a : Action χ) : Decidable ((system fd).enabled s a) := .isTrue trivial

end Calls

/-! ### What the calls do -/

section Cases

variable {fd} {p p' : PollPoller χ} {c : χ}

/-- `updateChannel` registers a new channel at the end, or rewrites the entry of a known one. -/
theorem updateChannel_cases (h : p.updateChannel fd c = .ok p') :
    (p.channels (fd c) = none ∧ p' = { p with
      pollfds := p.pollfds ++ [⟨fd c, (p.channel c).events, kNoneEvent⟩]
      channels := Function.update p.channels (fd c) (some c)
      channel := Function.update p.channel c
        { p.channel c with index := p.pollfds.length } }) ∨
    (0 ≤ (p.channel c).index ∧ p.channels (fd c) = some c ∧ ∃ f : Int,
      (f = fd c ∨ f = -fd c - 1) ∧ p' = { p with
        pollfds := p.pollfds.set (p.channel c).index.toNat
          ⟨f, (p.channel c).events, kNoneEvent⟩ }) := by
  unfold updateChannel at h
  by_cases hidx : (p.channel c).index < 0
  · left
    simp only [if_pos hidx] at h
    obtain ⟨_, hnone, hp⟩ := bind_eq_ok.mp h
    exact ⟨of_check_ok hnone, (Except.ok.inj hp).symm⟩
  · right
    simp only [if_neg hidx] at h
    obtain ⟨_, hknown, h⟩ := bind_eq_ok.mp h
    obtain ⟨pfd, -, h⟩ := bind_eq_ok.mp h
    obtain ⟨_, -, hp⟩ := bind_eq_ok.mp h
    refine ⟨Int.not_lt.mp hidx, of_check_ok hknown, _, ?_, (Except.ok.inj hp).symm⟩
    split
    · exact .inr rfl
    · exact .inl rfl

omit [DecidableEq χ] in
theorem pollfdAt_ok {idx : Int} {pfd : PollFd} (h : p.pollfdAt idx = .ok pfd) :
    0 ≤ idx ∧ p.pollfds[idx.toNat]? = some pfd := by
  unfold pollfdAt at h
  split at h
  · rename_i hidx
    refine ⟨hidx, ?_⟩
    cases hget : p.pollfds[idx.toNat]? with
    | none =>
      rw [hget] at h
      cases h
    | some a =>
      rw [hget] at h
      rw [Except.ok.inj h]
  · cases h

/-- `removeChannel` takes the entry of the channel out of the table, by moving the last one
    into its place if it is another one. -/
theorem removeChannel_cases (h : p.removeChannel fd c = .ok p') :
    0 ≤ (p.channel c).index ∧ p.channels (fd c) = some c ∧
    ∃ pfd, p.pollfds[(p.channel c).index.toNat]? = some pfd ∧ pfd.owner = fd c ∧
      (((p.channel c).index.toNat = p.pollfds.length - 1 ∧ p' = { p with
          pollfds := p.pollfds.dropLast
          channels := Function.update p.channels (fd c) none }) ∨
        ((p.channel c).index.toNat ≠ p.pollfds.length - 1 ∧ ∃ last d,
          p.pollfds.getLast? = some last ∧
          Function.update p.channels (fd c) none last.owner = some d ∧ p' = { p with
            pollfds := swapRemove p.pollfds (p.channel c).index.toNat
            channels := Function.update p.channels (fd c) none
            channel := Function.update p.channel d
              { p.channel d with index := (p.channel c).index } })) := by
  unfold removeChannel at h
  obtain ⟨_, hknown, h⟩ := bind_eq_ok.mp h
  obtain ⟨_, -, h⟩ := bind_eq_ok.mp h
  obtain ⟨pfd, hat, h⟩ := bind_eq_ok.mp h
  obtain ⟨_, hpfd, h⟩ := bind_eq_ok.mp h
  obtain ⟨hidx, hget⟩ := pollfdAt_ok hat
  refine ⟨hidx, of_check_ok hknown, pfd, hget, owner_of_eq (.inr (of_check_ok hpfd).1), ?_⟩
  by_cases hend : (p.channel c).index.toNat = p.pollfds.length - 1
  · simp only [if_pos hend] at h
    exact .inl ⟨hend, (Except.ok.inj h).symm⟩
  · simp only [if_neg hend] at h
    right
    refine ⟨hend, ?_⟩
    cases hlast : p.pollfds.getLast? with
    | none =>
      simp only [hlast, Option.bind_none] at h
      cases h
    | some last =>
      simp only [hlast, Option.bind_some] at h
      cases hd : Function.update p.channels (fd c) none last.owner with
      | none =>
        rw [hd] at h
        cases h
      | some d =>
        simp only [hd, dropLast_iterSwap hget hlast] at h
        exact ⟨last, d, rfl, hd, (Except.ok.inj h).symm⟩

theorem removeChannel_channels (h : p.removeChannel fd c = .ok p') :
    p'.channels = Function.update p.channels (fd c) none := by
  obtain ⟨-, -, pfd, -, -, hcases⟩ := removeChannel_cases h
  rcases hcases with ⟨-, rfl⟩ | ⟨-, last, d, -, -, rfl⟩
  · rfl
  · rfl

theorem removeChannel_length (h : p.removeChannel fd c = .ok p') :
    p'.pollfds.length + 1 = p.pollfds.length := by
  obtain ⟨-, -, pfd, hget, -, hcases⟩ := removeChannel_cases h
  have hlt := (List.getElem?_eq_some_iff.mp hget).1
  rcases hcases with ⟨-, rfl⟩ | ⟨-, last, d, hlast, -, rfl⟩
  · simp only [List.length_dropLast]
    omega
  · simp only [swapRemove, hlast, List.length_dropLast, List.length_set]
    omega

end Cases

/-! ### The invariant -/

namespace Calls

variable {fd} {s t : Calls χ} {c d : χ}

/-- One table, with the events of the last updates. -/
structure Indexes (fd : χ ↪ Nat) (s : Calls χ) : Prop where
  slots : Indexed PollFd.owner s.poller.position s.poller.pollfds
  mapped : ∀ {f c}, s.poller.channels f = some c → fd c = f
  index : ∀ {f c}, s.poller.channels f = some c → 0 ≤ (s.poller.channel c).index
  events : ∀ pfd ∈ s.poller.pollfds, ∀ c, pfd.owner = fd c → pfd.events = s.updated c

omit [DecidableEq χ] in
theorem new_indexes : Indexes fd (new : Calls χ) where
  slots := Indexed.nil
  mapped := fun h => by cases h
  index := fun h => by cases h
  events := fun _ h => by cases h

omit [DecidableEq χ] in
/-- The entry of a registered channel. -/
theorem Indexes.entry (h : Indexes fd s) (hc : s.poller.channels (fd c) = some c) :
    s.poller.position (fd c) = some (s.poller.channel c).index.toNat ∧
      ∃ pfd, s.poller.pollfds[(s.poller.channel c).index.toNat]? = some pfd ∧
        pfd.owner = fd c ∧ pfd.events = s.updated c := by
  have hpos : s.poller.position (fd c) = some (s.poller.channel c).index.toNat := by
    simp only [position, hc, Option.map_some]
  obtain ⟨pfd, hget, howner⟩ := h.slots.slot hpos
  exact ⟨hpos, pfd, hget, howner, h.events pfd (List.mem_of_getElem? hget) c howner⟩

/-- The channel assigns to its `events_`. -/
theorem Indexes.setEvents (h : Indexes fd s) (e : PollEvents) :
    Indexes fd { s with poller := s.poller.setChannel c { s.poller.channel c with events := e } } := by
  have hindex : ∀ d, ((s.poller.setChannel c { s.poller.channel c with events := e }).channel
      d).index = (s.poller.channel d).index := by
    intro d
    by_cases hd : d = c
    · subst hd
      simp [setChannel]
    · simp [setChannel, hd]
  have hpos : (s.poller.setChannel c { s.poller.channel c with events := e }).position =
      s.poller.position := funext fun f => position_congr rfl fun d _ => hindex d
  refine ⟨?_, h.mapped, fun hf => ?_, h.events⟩
  · change Indexed PollFd.owner (position _) s.poller.pollfds
    rw [hpos]
    exact h.slots
  · rw [hindex]
    exact h.index hf

/-- A new channel gets the entry at the end. -/
theorem Indexes.register (h : Indexes fd s) (hnone : s.poller.channels (fd c) = none) :
    Indexes fd { s with
      poller := { s.poller with
        pollfds := s.poller.pollfds ++ [⟨fd c, (s.poller.channel c).events, kNoneEvent⟩]
        channels := Function.update s.poller.channels (fd c) (some c)
        channel := Function.update s.poller.channel c
          { s.poller.channel c with index := s.poller.pollfds.length } }
      updated := Function.update s.updated c (s.poller.channel c).events } := by
  have hpos : s.poller.position (fd c) = none := by simp only [position, hnone, Option.map_none]
  have howner : PollFd.owner ⟨fd c, (s.poller.channel c).events, kNoneEvent⟩ = fd c :=
    owner_of_eq (.inl rfl)
  -- the other channels keep what the table has for them
  have hother : ∀ {f c'}, s.poller.channels f = some c' → c' ≠ c := by
    rintro f c' hf rfl
    rw [h.mapped hf, hf] at hnone
    cases hnone
  constructor
  · refine slots_register h.slots hnone howner rfl rfl ?_ fun f c' hch => ?_
    · simp
    · simp only [Function.update_of_ne (hother hch)]
  · intro f c' hf
    by_cases hfc : f = fd c
    · subst hfc
      simp only [Function.update_self, Option.some.injEq] at hf
      rw [hf]
    · simp only [Function.update_of_ne hfc] at hf
      exact h.mapped hf
  · intro f c' hf
    by_cases hfc : f = fd c
    · subst hfc
      simp only [Function.update_self, Option.some.injEq] at hf
      subst hf
      simp
    · simp only [Function.update_of_ne hfc] at hf
      simp only [Function.update_of_ne (hother hf)]
      exact h.index hf
  · intro pfd hmem c' hc'
    rcases List.mem_append.mp hmem with hold | hnew
    · have hne : c' ≠ c := by
        rintro rfl
        exact h.slots.index_ne_none hold (by rw [hc']; exact hpos)
      simp only [Function.update_of_ne hne]
      exact h.events pfd hold c' hc'
    · rw [List.mem_singleton] at hnew
      subst hnew
      obtain rfl : c = c' := fd.injective (howner.symm.trans hc')
      simp

/-- The entry of a known channel is rewritten. -/
theorem Indexes.rewrite (h : Indexes fd s) (hknown : s.poller.channels (fd c) = some c) {f : Int}
    (hf : f = fd c ∨ f = -fd c - 1) :
    Indexes fd { s with
      poller := { s.poller with
        pollfds := s.poller.pollfds.set (s.poller.channel c).index.toNat
          ⟨f, (s.poller.channel c).events, kNoneEvent⟩ }
      updated := Function.update s.updated c (s.poller.channel c).events } := by
  have hpos := (h.entry hknown).1
  have howner : PollFd.owner ⟨f, (s.poller.channel c).events, kNoneEvent⟩ = fd c := owner_of_eq hf
  have hslots := h.slots.set hpos howner
  refine ⟨hslots, h.mapped, h.index, ?_⟩
  intro pfd hmem c' hc'
  by_cases hc : c' = c
  · subst hc
    have hget := hslots.getElem_of_mem hmem (by rw [hc']; exact hpos)
    rw [List.getElem?_set_self (h.slots.lt hpos)] at hget
    rw [← Option.some.inj hget]
    simp
  · simp only [Function.update_of_ne hc]
    rcases List.mem_or_eq_of_mem_set hmem with hold | rfl
    · exact h.events pfd hold c' hc'
    · exact absurd (fd.injective (howner.symm.trans hc')).symm hc

omit [DecidableEq χ] in
/-- The entry of a channel is taken out, and the channel of the last entry is told where
    that one is now. -/
theorem Indexes.unregister {p' : PollPoller χ} {last : PollFd} (h : Indexes fd s)
    (hknown : s.poller.channels (fd c) = some c) (hlast : s.poller.pollfds.getLast? = some last)
    (hpollfds : p'.pollfds = swapRemove s.poller.pollfds (s.poller.channel c).index.toNat)
    (hchannels : p'.channels = Function.update s.poller.channels (fd c) none)
    (hindex : ∀ f d, f ≠ fd c → s.poller.channels f = some d → (p'.channel d).index =
      if f = last.owner then (s.poller.channel c).index else (s.poller.channel d).index) :
    Indexes fd { s with poller := p' } := by
  have hpos := (h.entry hknown).1
  have hkept : ∀ {f d}, p'.channels f = some d → f ≠ fd c ∧ s.poller.channels f = some d := by
    intro f d hf
    rw [hchannels] at hf
    by_cases hfc : f = fd c
    · rw [hfc, Function.update_self] at hf
      cases hf
    · exact ⟨hfc, by rwa [Function.update_of_ne hfc] at hf⟩
  constructor
  · exact slots_unregister h.slots hpos hlast hpollfds hchannels hindex
  · intro f d hf
    exact h.mapped (hkept hf).2
  · intro f d hf
    obtain ⟨hfc, hd⟩ := hkept hf
    change 0 ≤ (p'.channel d).index
    rw [hindex f d hfc hd]
    split
    · exact h.index hknown
    · exact h.index hd
  · intro pfd hmem d hd
    change pfd ∈ p'.pollfds at hmem
    rw [hpollfds] at hmem
    exact h.events pfd (mem_of_mem_swapRemove hmem) d hd

theorem Indexes.removeChannel {p' : PollPoller χ} (h : Indexes fd s)
    (hp : s.poller.removeChannel fd c = .ok p') : Indexes fd { s with poller := p' } := by
  obtain ⟨hidx, hknown, pfd, hget, howner, hcases⟩ := removeChannel_cases hp
  have hne : s.poller.pollfds ≠ [] := List.ne_nil_of_mem (List.mem_of_getElem? hget)
  rcases hcases with ⟨hend, rfl⟩ | ⟨hend, last, d, hlast, hd, rfl⟩
  · have hlast := List.getLast?_eq_some_getLast hne
    have hlo : (s.poller.pollfds.getLast hne).owner = fd c := by
      rw [hend, ← List.getLast?_eq_getElem?, hlast] at hget
      rw [Option.some.inj hget, howner]
    refine h.unregister hknown hlast (dropLast_eq_swapRemove hend hne) rfl fun f d hf _ => ?_
    rw [if_neg fun hfl => hf (hfl.trans hlo)]
  · have hlo : last.owner ≠ fd c := by
      intro heq
      rw [heq, Function.update_self] at hd
      cases hd
    rw [Function.update_of_ne hlo] at hd
    refine h.unregister hknown hlast rfl rfl fun f d' _ hd' => ?_
    by_cases hfl : f = last.owner
    · subst hfl
      obtain rfl : d = d' := Option.some.inj (hd.symm.trans hd')
      simp
    · have hne : d' ≠ d := fun heq => hfl ((h.mapped hd').symm.trans (heq ▸ h.mapped hd))
      simp only [if_neg hfl, Function.update_of_ne hne]

omit [DecidableEq χ] in
/-- `::poll` writes into the entries, and not what the table is about. -/
theorem Indexes.answered (h : Indexes fd s) (revents : Nat → PollEvents) (active : Active χ) :
    Indexes fd { s with poller := s.poller.answered revents, active := active } := by
  have howners : (s.poller.answered revents).pollfds.map PollFd.owner =
      s.poller.pollfds.map PollFd.owner := by
    apply List.ext_getElem?
    intro i
    simp only [PollPoller.answered, List.getElem?_map, List.getElem?_mapIdx, Option.map_map]
    rfl
  refine ⟨h.slots.congr_owner howners, h.mapped, h.index, ?_⟩
  intro pfd hmem c hc
  obtain ⟨i, hi, rfl⟩ := List.mem_mapIdx.mp hmem
  exact h.events _ (List.getElem_mem hi) c hc

/-- **Every call keeps the index structure exact, as long as no assertion fails.** -/
theorem Indexes.step (h : Indexes fd s) {a : Action χ} (hst : step fd s a = .ok t) :
    Indexes fd t := by
  cases a with
  | setEvents c e =>
    obtain rfl := Except.ok.inj hst
    exact h.setEvents e
  | updateChannel c =>
    obtain ⟨p, hp, ht⟩ := bind_eq_ok.mp hst
    obtain rfl := Except.ok.inj ht
    rcases updateChannel_cases hp with ⟨hnone, rfl⟩ | ⟨-, hknown, f, hf, rfl⟩
    · exact h.register hnone
    · exact h.rewrite hknown hf
  | removeChannel c =>
    obtain ⟨p, hp, ht⟩ := bind_eq_ok.mp hst
    obtain rfl := Except.ok.inj ht
    exact h.removeChannel hp
  | poll numEvents revents =>
    obtain ⟨⟨p, active⟩, hp, ht⟩ := bind_eq_ok.mp hst
    obtain rfl := Except.ok.inj ht
    unfold PollPoller.poll at hp
    dsimp only at hp
    split at hp
    · obtain ⟨active', -, hp'⟩ := bind_eq_ok.mp hp
      obtain ⟨rfl, rfl⟩ := Prod.mk.inj (Except.ok.inj hp')
      exact h.answered revents _
    · obtain ⟨rfl, rfl⟩ := Prod.mk.inj (Except.ok.inj hp)
      exact h.answered revents _

theorem reachable_indexes (h : (system fd).Reachable s) : Indexes fd s := by
  refine h.invariant (fun s hs => ?_) fun s a t hi hst => hi.step hst.2
  obtain rfl : s = new := hs
  exact new_indexes

/-! ### Removing -/

/-- `removeChannel` takes the channel out of `channels_` and its entry out of `pollfds_`. -/
structure Removed (fd : χ ↪ Nat) (p p' : PollPoller χ) (c : χ) : Prop where
  known : p.channels (fd c) = some c
  channels : p'.channels (fd c) = none
  entries : ∀ pfd ∈ p'.pollfds, pfd.fd ≠ fd c ∧ pfd.fd ≠ -fd c - 1
  length : p'.pollfds.length + 1 = p.pollfds.length

theorem Indexes.removed {p' : PollPoller χ} (h : Indexes fd s)
    (hp : s.poller.removeChannel fd c = .ok p') : Removed fd s.poller p' c := by
  have hnone : p'.channels (fd c) = none := by
    rw [removeChannel_channels hp]
    exact Function.update_self ..
  refine ⟨(removeChannel_cases hp).2.1, hnone, fun pfd hmem => ?_, removeChannel_length hp⟩
  have howner : pfd.owner ≠ fd c := by
    intro heq
    apply (h.removeChannel hp).slots.index_ne_none hmem
    change p'.position pfd.owner = none
    rw [heq, position, hnone, Option.map_none]
  exact ⟨fun hfd => howner (owner_of_eq (.inl hfd)), fun hfd => howner (owner_of_eq (.inr hfd))⟩

/-- What `removeChannel` leaves of another channel: all but its index. -/
structure Untouched (fd : χ ↪ Nat) (p p' : PollPoller χ) (d : χ) : Prop where
  channels : p'.channels (fd d) = p.channels (fd d)
  channel : p'.channel d = { p.channel d with index := (p'.channel d).index }
  entry : p.channels (fd d) = some d →
    p'.pollfds[(p'.channel d).index.toNat]? = p.pollfds[(p.channel d).index.toNat]?

theorem Indexes.untouched {p' : PollPoller χ} (h : Indexes fd s)
    (hp : s.poller.removeChannel fd c = .ok p') (hd : d ≠ c) : Untouched fd s.poller p' d := by
  have h' := h.removeChannel hp
  have hfd : fd d ≠ fd c := fun heq => hd (fd.injective heq)
  obtain ⟨-, -, pfd, -, -, hcases⟩ := removeChannel_cases hp
  have hother : p'.channel d = { s.poller.channel d with index := (p'.channel d).index } ∧
      ∀ pfd ∈ p'.pollfds, pfd ∈ s.poller.pollfds := by
    rcases hcases with ⟨hend, rfl⟩ | ⟨-, last, d', -, -, rfl⟩
    · exact ⟨rfl, fun pfd hmem => (List.dropLast_sublist _).subset hmem⟩
    · refine ⟨?_, fun pfd hmem => mem_of_mem_swapRemove hmem⟩
      by_cases hd' : d = d'
      · subst hd'
        simp
      · simp [hd']
  obtain ⟨hchannel, hmem⟩ := hother
  have hsame : p'.channels (fd d) = s.poller.channels (fd d) := by
    rw [removeChannel_channels hp, Function.update_of_ne hfd]
  refine ⟨hsame, hchannel, fun hreg => ?_⟩
  -- the entry of `d` in the new array is an old one, and the old array has only one of `d`
  obtain ⟨-, pfd', hget', howner', -⟩ := h'.entry (c := d) (hsame.trans hreg)
  obtain ⟨hpos, -⟩ := h.entry hreg
  have hold := h.slots.getElem_of_mem (hmem pfd' (List.mem_of_getElem? hget'))
    (by rw [howner']; exact hpos)
  exact hget'.trans hold.symm

omit [DecidableEq χ] in
/-- The last entry has a channel. -/
theorem Indexes.last_owner (h : Indexes fd s) {last : PollFd}
    (hlast : s.poller.pollfds.getLast? = some last) :
    ∃ d, s.poller.channels last.owner = some d ∧ fd d = last.owner ∧
      (s.poller.channel d).index.toNat = s.poller.pollfds.length - 1 := by
  rw [List.getLast?_eq_getElem?] at hlast
  obtain ⟨d, hd, hidx⟩ := Option.map_eq_some_iff.mp (h.slots.index hlast)
  exact ⟨d, hd, h.mapped hd, hidx⟩

/-- `channels_[channelAtEnd]` is not null. -/
theorem Indexes.channelAtEnd (h : Indexes fd s) (c : χ) :
    s.poller.removeChannel fd c ≠ .error .pollChannelAtEnd := by
  intro herr
  unfold PollPoller.removeChannel at herr
  rcases bind_eq_error.mp herr with he | ⟨_, hknown, herr⟩
  · cases of_check_error he
  rcases bind_eq_error.mp herr with he | ⟨_, -, herr⟩
  · cases of_check_error he
  rcases bind_eq_error.mp herr with he | ⟨pfd, hat, herr⟩
  · unfold pollfdAt at he
    split at he
    · split at he <;> cases he
    · cases he
  rcases bind_eq_error.mp herr with he | ⟨_, -, herr⟩
  · cases of_check_error he
  dsimp only at herr
  split at herr
  · cases herr
  · rename_i hend
    have hne : s.poller.pollfds ≠ [] :=
      List.ne_nil_of_mem (List.mem_of_getElem? (pollfdAt_ok hat).2)
    have hlast := List.getLast?_eq_some_getLast hne
    obtain ⟨d, hd, hfd, hidx⟩ := h.last_owner hlast
    have hlo : (s.poller.pollfds.getLast hne).owner ≠ fd c := by
      intro heq
      obtain rfl : d = c := fd.injective (hfd.trans heq)
      exact hend hidx
    simp only [hlast, Option.bind_some, Function.update_of_ne hlo, hd] at herr
    cases herr

end Calls

/-! ### What `fillActiveChannels` appends -/

section Fill

variable {fd} {p : PollPoller χ} {c : χ} {l : List PollFd}

omit [DecidableEq χ] in
/-- The channels of the entries with events, in the order of the entries. -/
def reported (p : PollPoller χ) (l : List PollFd) : List χ :=
  l.filterMap fun pfd => if pfd.revents ≠ kNoneEvent then p.find pfd.fd else none

omit [DecidableEq χ] in
theorem mem_reported :
    c ∈ p.reported l ↔ ∃ pfd ∈ l, pfd.revents ≠ kNoneEvent ∧ p.find pfd.fd = some c := by
  simp only [reported, List.mem_filterMap, Option.ite_none_right_eq_some]

/-- The assertions of `fillActiveChannels` hold for an entry. -/
def Found (fd : χ ↪ Nat) (p : PollPoller χ) (pfd : PollFd) : Prop :=
  pfd.revents ≠ kNoneEvent → ∃ c, p.find pfd.fd = some c ∧ (fd c : Int) = pfd.fd

omit [DecidableEq χ] in
theorem Found.owner {pfd : PollFd} (h : Found fd p pfd) (hrev : pfd.revents ≠ kNoneEvent)
    (hc : p.find pfd.fd = some c) : pfd.owner = fd c := by
  obtain ⟨c', hc', hfd⟩ := h hrev
  obtain rfl : c' = c := Option.some.inj (hc'.symm.trans hc)
  exact owner_of_eq (.inl hfd.symm)

omit [DecidableEq χ] in
/-- A channel is reported by one entry. -/
theorem not_mem_reported {pfd : PollFd} (hl : ∀ pfd' ∈ pfd :: l, Found fd p pfd')
    (hnd : ((pfd :: l).map PollFd.owner).Nodup) (hrev : pfd.revents ≠ kNoneEvent)
    (hc : p.find pfd.fd = some c) : c ∉ p.reported l := by
  intro hmem
  obtain ⟨pfd', hpfd', hrev', hc'⟩ := mem_reported.mp hmem
  have h₁ := (hl pfd List.mem_cons_self).owner hrev hc
  have h₂ := (hl pfd' (List.mem_cons_of_mem _ hpfd')).owner hrev' hc'
  rw [List.map_cons, List.nodup_cons] at hnd
  exact hnd.1 (List.mem_map.mpr ⟨pfd', hpfd', h₂.trans h₁.symm⟩)

/-- **`fillActiveChannels` appends the channels of the entries with events, each once, and
    sets their `revents_`.** -/
theorem fillActiveChannels_ok (hl : ∀ pfd ∈ l, Found fd p pfd)
    (hnd : (l.map PollFd.owner).Nodup) (active : Active χ) :
    ∃ active', p.fillActiveChannels fd l active = .ok active' ∧
      active'.activeChannels = active.activeChannels ++ p.reported l ∧ (p.reported l).Nodup ∧
      (∀ pfd ∈ l, pfd.revents ≠ kNoneEvent → ∀ c, p.find pfd.fd = some c →
        active'.revents c = pfd.revents) ∧
      ∀ c, c ∉ p.reported l → active'.revents c = active.revents c := by
  induction l generalizing active with
  | nil => exact ⟨active, rfl, by simp [reported], List.nodup_nil, by simp, fun _ _ => rfl⟩
  | cons pfd rest ih =>
    have hrest := fun pfd' hmem => hl pfd' (List.mem_cons_of_mem _ hmem)
    have hnd' : (rest.map PollFd.owner).Nodup := (List.nodup_cons.mp hnd).2
    by_cases hrev : pfd.revents = kNoneEvent
    · obtain ⟨active', heq, hchannels, hnodup, hset, hkept⟩ := ih hrest hnd' active
      have hreported : p.reported (pfd :: rest) = p.reported rest := by
        simp [reported, hrev]
      rw [hreported]
      refine ⟨active', ?_, hchannels, hnodup, ?_, hkept⟩
      · simpa [fillActiveChannels, hrev] using heq
      · intro pfd' hmem hrev' c hc
        rcases List.mem_cons.mp hmem with rfl | hmem
        · exact absurd hrev hrev'
        · exact hset pfd' hmem hrev' c hc
    · obtain ⟨ch, hch, hfd⟩ := hl pfd List.mem_cons_self hrev
      obtain ⟨active', heq, hchannels, hnodup, hset, hkept⟩ := ih hrest hnd' {
        revents := Function.update active.revents ch pfd.revents
        activeChannels := active.activeChannels ++ [ch] }
      have hreported : p.reported (pfd :: rest) = ch :: p.reported rest := by
        simp [reported, hrev, hch]
      have hnot : ch ∉ p.reported rest := not_mem_reported hl hnd hrev hch
      rw [hreported]
      refine ⟨active', ?_, ?_, List.nodup_cons.mpr ⟨hnot, hnodup⟩, ?_, ?_⟩
      · rw [fillActiveChannels, if_pos hrev]
        simp only [hch, check_eq_ok hfd, ok_bind]
        exact heq
      · rw [hchannels, List.append_assoc]
        rfl
      · intro pfd' hmem hrev' c hc
        rcases List.mem_cons.mp hmem with rfl | hmem
        · obtain rfl : ch = c := Option.some.inj (hch.symm.trans hc)
          exact (hkept ch hnot).trans (Function.update_self ..)
        · exact hset pfd' hmem hrev' c hc
      · intro c hc
        rw [List.mem_cons, not_or] at hc
        exact (hkept c hc.2).trans (Function.update_of_ne hc.1 ..)

end Fill

/-! ### The theorem -/

namespace Calls

variable {fd} {s : Calls χ}

/-- `fillActiveChannels` after `::poll` has filled in `revents`: it appends exactly the
    channels whose entry has events, each once, with these events. -/
def FillsExactly (fd : χ ↪ Nat) (p : PollPoller χ) (active : Active χ) : Prop :=
  ∃ active' l, p.fillActiveChannels fd p.pollfds active = .ok active' ∧
    active'.activeChannels = active.activeChannels ++ l ∧ l.Nodup ∧
    (∀ c, c ∈ l ↔ p.channels (fd c) = some c ∧ ∃ pfd,
      p.pollfds[(p.channel c).index.toNat]? = some pfd ∧ pfd.revents ≠ kNoneEvent) ∧
    (∀ c ∈ l, ∀ pfd, p.pollfds[(p.channel c).index.toNat]? = some pfd →
      active'.revents c = pfd.revents) ∧
    ∀ c, c ∉ l → active'.revents c = active.revents c

/-- What the poller's two structures and the indexes of the channels owe each other. -/
structure IndexExact (fd : χ ↪ Nat) (s : Calls χ) : Prop where
  sizes : ∃ keys : Finset Nat, (∀ f, f ∈ keys ↔ s.poller.channels f ≠ none) ∧
    keys.card = s.poller.pollfds.length
  mapped : ∀ f c, s.poller.channels f = some c → fd c = f
  entry : ∀ c, s.poller.channels (fd c) = some c → 0 ≤ (s.poller.channel c).index ∧
    ∃ pfd, s.poller.pollfds[(s.poller.channel c).index.toNat]? = some pfd ∧
      (pfd.fd = fd c ∨ pfd.fd = -fd c - 1) ∧ pfd.events = s.updated c
  distinct : ∀ c d, s.poller.channels (fd c) = some c → s.poller.channels (fd d) = some d →
    (s.poller.channel c).index = (s.poller.channel d).index → c = d
  removed : ∀ c t, step fd s (.removeChannel c) = .ok t → Removed fd s.poller t.poller c
  frame : ∀ c t, step fd s (.removeChannel c) = .ok t →
    t.updated = s.updated ∧ t.active = s.active ∧
      ∀ d, d ≠ c → Untouched fd s.poller t.poller d
  atEnd : ∀ c, s.poller.removeChannel fd c ≠ .error .pollChannelAtEnd
  fills : ∀ revents active, FillsExactly fd (s.poller.answered revents) active

omit [DecidableEq χ] in
/-- After `::poll` the assertions of `fillActiveChannels` hold. -/
theorem Indexes.found (h : Indexes fd s) (revents : Nat → PollEvents) :
    ∀ pfd ∈ (s.poller.answered revents).pollfds, Found fd (s.poller.answered revents) pfd := by
  intro pfd hmem hrev
  have h' := h.answered revents s.active
  obtain ⟨i, hi, rfl⟩ := List.mem_mapIdx.mp hmem
  have hfd : 0 ≤ s.poller.pollfds[i].fd := by
    by_contra hneg
    exact hrev (if_neg hneg)
  have howner : PollFd.owner { s.poller.pollfds[i] with
      revents := if 0 ≤ s.poller.pollfds[i].fd then revents i else kNoneEvent } =
        s.poller.pollfds[i].fd.toNat := congrArg Int.toNat (if_neg (not_lt.mpr hfd))
  have hpos := h'.slots.index_ne_none hmem
  rw [howner, position, Ne, Option.map_eq_none_iff] at hpos
  obtain ⟨c, hc⟩ := Option.ne_none_iff_exists'.mp hpos
  refine ⟨c, by rw [find, if_pos hfd]; exact hc, ?_⟩
  have hmapped := h'.mapped hc
  change (fd c : Int) = s.poller.pollfds[i].fd
  omega

theorem Indexes.fills (h : Indexes fd s) (revents : Nat → PollEvents) (active : Active χ) :
    FillsExactly fd (s.poller.answered revents) active := by
  have h' : Indexes fd { s with poller := s.poller.answered revents, active := active } :=
    h.answered revents active
  have hfound := h.found revents
  generalize s.poller.answered revents = p at h' hfound
  obtain ⟨active', heq, hchannels, hnodup, hset, hkept⟩ :=
    fillActiveChannels_ok hfound h'.slots.nodup_owner active
  -- the entry of a channel is at the channel's index
  have hentry : ∀ c pfd, pfd ∈ p.pollfds → pfd.revents ≠ kNoneEvent → p.find pfd.fd = some c →
      p.channels (fd c) = some c ∧ p.pollfds[(p.channel c).index.toNat]? = some pfd := by
    intro c pfd hmem hrev hc
    have howner := (hfound pfd hmem).owner hrev hc
    have hc' : p.channels (fd c) = some c := by
      unfold find at hc
      split at hc
      · rwa [h'.mapped hc]
      · cases hc
    refine ⟨hc', h'.slots.getElem_of_mem hmem ?_⟩
    rw [howner]
    exact (h'.entry hc').1
  refine ⟨active', p.reported p.pollfds, heq, hchannels, hnodup, fun c => ?_, ?_, hkept⟩
  · rw [mem_reported]
    constructor
    · rintro ⟨pfd, hmem, hrev, hc⟩
      obtain ⟨hreg, hget⟩ := hentry c pfd hmem hrev hc
      exact ⟨hreg, pfd, hget, hrev⟩
    · rintro ⟨hreg, pfd, hget, hrev⟩
      have hmem := List.mem_of_getElem? hget
      obtain ⟨c', hc', hfd⟩ := hfound pfd hmem hrev
      obtain ⟨-, pfd', hget', howner', -⟩ := h'.entry hreg
      obtain rfl : pfd' = pfd := Option.some.inj (hget'.symm.trans hget)
      have hsame : fd c' = fd c := ((hfound pfd' hmem).owner hrev hc').symm.trans howner'
      rw [fd.injective hsame] at hc'
      exact ⟨pfd', hmem, hrev, hc'⟩
  · intro c hc pfd hget
    obtain ⟨pfd', hmem, hrev, hc'⟩ := mem_reported.mp hc
    obtain ⟨-, hget'⟩ := hentry c pfd' hmem hrev hc'
    obtain rfl : pfd' = pfd := Option.some.inj (hget'.symm.trans hget)
    exact hset pfd' hmem hrev c hc'

/-- **The index structure of `PollPoller` is exact after every sequence of calls**, up to the
    first assertion that fails. -/
theorem index_exact (fd : χ ↪ Nat) (h : (system fd).Reachable s) : IndexExact fd s := by
  have hi := reachable_indexes h
  refine ⟨?_, fun _ _ => hi.mapped, ?_, ?_, ?_, ?_, hi.channelAtEnd, hi.fills⟩
  · obtain ⟨keys, hkeys, hcard⟩ := hi.slots.card_keys
    refine ⟨keys, fun f => ?_, hcard⟩
    rw [hkeys, position, Ne, Option.map_eq_none_iff]
  · intro c hc
    obtain ⟨-, pfd, hget, howner, hevents⟩ := hi.entry hc
    exact ⟨hi.index hc, pfd, hget, eq_of_owner howner, hevents⟩
  · intro c d hc hd heq
    obtain ⟨-, pfd, hget, howner, -⟩ := hi.entry hc
    obtain ⟨-, pfd', hget', howner', -⟩ := hi.entry hd
    rw [heq, hget'] at hget
    obtain rfl := Option.some.inj hget
    exact fd.injective (howner.symm.trans howner')
  · intro c t hst
    obtain ⟨p, hp, ht⟩ := bind_eq_ok.mp hst
    obtain rfl := Except.ok.inj ht
    exact hi.removed hp
  · intro c t hst
    obtain ⟨p, hp, ht⟩ := bind_eq_ok.mp hst
    obtain rfl := Except.ok.inj ht
    exact ⟨rfl, rfl, fun d hd => hi.untouched hp hd⟩

/-- Three channels, the second muted; the first goes, so that the third takes its place. -/
theorem index_exact_three :
    ∃ s t : Calls Nat, s.poller.pollfds.map PollFd.fd = [-4, -6, 7] ∧
      step (Function.Embedding.refl Nat) s (.removeChannel 3) = .ok t ∧
      Removed (Function.Embedding.refl Nat) s.poller t.poller 3 ∧
      IndexExact (Function.Embedding.refl Nat) t ∧
      t.poller.pollfds = [⟨7, kReadEvent, kNoneEvent⟩, ⟨-6, kNoneEvent, kNoneEvent⟩] := by
  obtain ⟨s, t, hs, hfds, hst, hpollfds⟩ : ∃ s t : Calls Nat,
      (system (Function.Embedding.refl Nat)).Reachable s ∧
      s.poller.pollfds.map PollFd.fd = [-4, -6, 7] ∧
      step (Function.Embedding.refl Nat) s (.removeChannel 3) = .ok t ∧
      t.poller.pollfds = [⟨7, kReadEvent, kNoneEvent⟩, ⟨-6, kNoneEvent, kNoneEvent⟩] :=
    ⟨_, _, reachable_of_exec [.setEvents 3 kReadEvent, .updateChannel 3, .setEvents 5 kReadEvent,
      .updateChannel 5, .setEvents 7 kReadEvent, .updateChannel 7, .setEvents 5 kNoneEvent,
      .updateChannel 5, .setEvents 3 kNoneEvent, .updateChannel 3] rfl rfl, rfl, rfl, rfl⟩
  have hstep : (system (Function.Embedding.refl Nat)).Step s (.removeChannel 3) t := ⟨trivial, hst⟩
  have ht := hs.step hstep
  exact ⟨s, t, hfds, hst, (index_exact _ hs).removed 3 t hst, index_exact _ ht, hpollfds⟩

end Calls

end PollPoller

end Kaycc
