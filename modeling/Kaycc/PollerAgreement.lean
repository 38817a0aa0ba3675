/-
  Kaycc/PollerAgreement.lean
  ==========================
  **When the two pollers are interchangeable.**

  `EPollPoller` accepts every legal sequence of operations.  `PollPoller` differs in
  two places.  `removeChannel` leaves `index_` as it is, so that a channel that comes
  back after its `remove` is taken for a known one; and the first registration does
  not negate the fd of a channel without events of interest, which a `remove` right
  after it expects.  Apart from these two the pollers agree
  (`interchangeable_iff`).

  The invariants relate each poller to the history of every channel: the position
  of a channel in `pollfds_` and what stands there on one side, `index_` and the
  kernel's entry on the other.
-/
import Mathlib.Data.List.Induction
import Kaycc.PollPoller

namespace Kaycc

open SlotTable

variable {χ : Type} [DecidableEq χ]

/-! ### Sequences of operations -/

section EachOperation

variable {α : Type} {P : List α → α → Prop} {done ops : List α}

theorem eachOperation_append_singleton {a : α} :
    EachOperation P done (ops ++ [a]) ↔ EachOperation P done ops ∧ P (done ++ ops) a := by
  induction ops generalizing done with
  | nil => simp [EachOperation]
  | cons b ops ih =>
    simp only [List.cons_append, EachOperation, ih, List.append_assoc, List.nil_append]
    exact and_assoc.symm

theorem EachOperation.of_prefix {pre : List α} (h : EachOperation P done ops)
    (hpre : pre <+: ops) : EachOperation P done pre := by
  induction pre generalizing done ops with
  | nil => trivial
  | cons a pre ih =>
    rcases hpre with ⟨post, rfl⟩
    exact ⟨h.1, ih h.2 ⟨post, rfl⟩⟩

/-- The first operation that does not satisfy `P`. -/
theorem exists_first_failure (h : ¬ EachOperation P done ops) :
    ∃ pre a post, ops = pre ++ a :: post ∧ EachOperation P done pre ∧ ¬ P (done ++ pre) a := by
  induction ops generalizing done with
  | nil => exact absurd trivial h
  | cons a ops ih =>
    by_cases ha : P done a
    · obtain ⟨pre, b, post, rfl, hpre, hb⟩ := ih (fun hops => h ⟨ha, hops⟩)
      refine ⟨a :: pre, b, post, rfl, ⟨ha, hpre⟩, ?_⟩
      rw [List.append_assoc] at hb
      exact hb
    · exact ⟨[], a, ops, rfl, trivial, by rwa [List.append_nil]⟩

end EachOperation

/-- The histories after one more operation. -/
theorem operationsOf_append (ops : List (χ × ChannelOperation)) (c : χ) (op : ChannelOperation) :
    (fun c' => operationsOf c' (ops ++ [(c, op)])) =
      Function.update (fun c' => operationsOf c' ops) c (operationsOf c ops ++ [op]) := by
  funext c'
  by_cases hc : c' = c
  · subst hc
    simp [operationsOf, List.filter_append]
  · have hne : ¬ c = c' := fun heq => hc heq.symm
    simp [operationsOf, List.filter_append, Function.update_of_ne hc, hne]

@[simp] theorem eventsAfter_append (l : List ChannelOperation) (op : ChannelOperation) :
    eventsAfter (l ++ [op]) = op.events (eventsAfter l) := by
  simp [eventsAfter]

@[simp] theorem registeredAfter_append (l : List ChannelOperation) (op : ChannelOperation) :
    registeredAfter (l ++ [op]) = decide (op ≠ .remove) := by
  simp [registeredAfter]

/-- A channel that has been used and not removed is registered. -/
theorem registeredAfter_of_not_mem {l : List ChannelOperation} (hl : l ≠ [])
    (hrem : .remove ∉ l) : registeredAfter l = true := by
  have hlast := List.getLast?_eq_some_getLast hl
  simp only [registeredAfter, hlast, decide_eq_true_eq]
  intro heq
  exact hrem (heq ▸ List.getLast_mem hl)

theorem not_nil_of_registered {l : List ChannelOperation} (h : registeredAfter l = true) :
    l ≠ [] := by
  rintro rfl
  cases h

/-! ### `EPollPoller` -/

namespace EPollPoller

open Channel

variable {c : Channel} {l : List ChannelOperation} {op : ChannelOperation}

/-- A channel after its operations `l`. -/
structure After (l : List ChannelOperation) (c : Channel) : Prop where
  watched : Watched c
  events : c.events = eventsAfter l
  registered : c.index ≠ kNew ↔ registeredAfter l = true
  added : c.events ≠ kNoneEvent → c.index = kAdded
  active : c.active = .absent

theorem new_after : After [] Channel.new where
  watched := new_synced.toWatched
  events := rfl
  registered := by decide
  added := fun h => absurd rfl h
  active := rfl

theorem After.update (h : After l c) (hop : op ≠ .remove) :
    c.perform op = .ok (c.watching (op.events c.events)) ∧
      After (l ++ [op]) (c.watching (op.events c.events)) := by
  constructor
  · cases op with
    | remove => exact absurd rfl hop
    | _ => exact setEvents_eq h.watched _
  · have hw := watching_watched c (op.events c.events)
    constructor
    · exact hw
    · rw [watching_events, eventsAfter_append, h.events]
    · rw [registeredAfter_append]
      simp only [hop, ne_eq, not_false_eq_true, decide_true, iff_true]
      exact hw.registered.mp rfl
    · intro hne
      rw [watching_events] at hne
      simp only [Channel.watching, if_neg (fun hand : _ ∧ _ => hne hand.2)]
    · rw [watching_active]
      exact h.active

theorem After.remove (h : After l c) (hnone : eventsAfter l = kNoneEvent)
    (hreg : registeredAfter l = true) :
    c.perform .remove = .ok c.removed ∧ After (l ++ [.remove]) c.removed := by
  have hevents : c.events = kNoneEvent := h.events.trans hnone
  refine ⟨remove_eq h.watched (h.registered.mpr hreg) hevents (.inl h.active), ?_⟩
  constructor
  · exact (removed_synced hevents).toWatched
  · rw [eventsAfter_append]
    exact h.events
  · rw [registeredAfter_append]
    simp [removed]
  · exact fun hne => absurd hevents hne
  · exact h.active

/-- **`EPollPoller` accepts every legal sequence of operations.** -/
theorem run_ok {ops : List (χ × ChannelOperation)} (h : EachOperation Legal [] ops) :
    ∃ q, run ops = .ok q ∧ ∀ c, After (operationsOf c ops) (q c) := by
  induction ops using List.reverseRecOn with
  | nil => exact ⟨_, rfl, fun _ => new_after⟩
  | append_singleton ops a ih =>
    rcases a with ⟨c, op⟩
    rcases eachOperation_append_singleton.mp h with ⟨hops, hlegal⟩
    rcases ih hops with ⟨q, hq, hafter⟩
    have hc : ∃ c', (q c).perform op = .ok c' ∧ After (operationsOf c ops ++ [op]) c' := by
      by_cases hop : op = .remove
      · subst hop
        rcases hlegal rfl with ⟨hnone, hreg⟩
        exact ⟨_, (hafter c).remove hnone hreg⟩
      · exact ⟨_, (hafter c).update hop⟩
    rcases hc with ⟨c', hperform, hc'⟩
    refine ⟨Function.update q c c', ?_, ?_⟩
    · unfold run at hq ⊢
      rw [List.foldlM_append, hq]
      simp only [ok_bind, List.foldlM_cons, List.foldlM_nil, perform, hperform, pure_eq_ok]
    · intro c₀
      rw [congrFun (operationsOf_append ops c op) c₀]
      by_cases hc₀ : c₀ = c
      · subst hc₀
        rw [Function.update_self, Function.update_self]
        exact hc'
      · rw [Function.update_of_ne hc₀, Function.update_of_ne hc₀]
        exact hafter c₀

/-- The kernel is asked for the events of the channels. -/
theorem mem_watched (fd : χ ↪ Nat) {q : χ → Channel} {ops : List (χ × ChannelOperation)}
    (h : ∀ c, After (operationsOf c ops) (q c)) (w : Nat × PollEvents) :
    w ∈ watched fd q ↔
      w.2 ≠ kNoneEvent ∧ ∃ c, fd c = w.1 ∧ eventsAfter (operationsOf c ops) = w.2 := by
  constructor
  · rintro ⟨hne, c, hfd, hinterest⟩
    refine ⟨hne, c, hfd, ?_⟩
    rw [(h c).watched.interest] at hinterest
    split at hinterest
    · rw [← (h c).events]
      exact Option.some.inj hinterest
    · cases hinterest
  · rintro ⟨hne, c, hfd, hevents⟩
    refine ⟨hne, c, hfd, ?_⟩
    have hadded : (q c).index = kAdded := by
      apply (h c).added
      rw [(h c).events, hevents]
      exact hne
    rw [(h c).watched.interest, if_pos hadded, (h c).events, hevents]

end EPollPoller

/-! ### `PollPoller` -/

namespace PollPoller

variable {fd : χ ↪ Nat} {p : PollPoller χ} {c : χ} {e : PollEvents} {i : Nat} {pfd : PollFd}
  {history : χ → List ChannelOperation} {op : ChannelOperation}

theorem owner_of_eq {f : Nat} (h : pfd.fd = f ∨ pfd.fd = -f - 1) : pfd.owner = f := by
  unfold PollFd.owner
  split <;> omega

theorem eq_of_owner {f : Nat} (h : pfd.owner = f) : pfd.fd = f ∨ pfd.fd = -f - 1 := by
  unfold PollFd.owner at h
  split at h <;> omega

/-- Where the `pollfd` of an fd is. -/
def position (p : PollPoller χ) (f : Nat) : Option Nat :=
  (p.channels f).map fun c => (p.channel c).index.toNat

omit [DecidableEq χ] in
theorem position_congr {p' : PollPoller χ} {f : Nat} (hch : p'.channels f = p.channels f)
    (hidx : ∀ c, p.channels f = some c → (p'.channel c).index = (p.channel c).index) :
    p'.position f = p.position f := by
  simp only [position, hch]
  cases h : p.channels f with
  | none => rfl
  | some c => simp only [Option.map_some, hidx c h]

omit [DecidableEq χ] in
/-- A channel goes into the table with the entry that is put at the end. -/
theorem slots_register {p' : PollPoller χ} {f : Nat} (h : Indexed PollFd.owner p.position p.pollfds)
    (hnone : p.channels f = none) (howner : pfd.owner = f)
    (hpollfds : p'.pollfds = p.pollfds ++ [pfd])
    (hchannels : p'.channels = Function.update p.channels f (some c))
    (hindex : (p'.channel c).index = p.pollfds.length)
    (hother : ∀ g d, p.channels g = some d → (p'.channel d).index = (p.channel d).index) :
    Indexed PollFd.owner p'.position p'.pollfds := by
  have hpos : p.position f = none := by simp only [position, hnone, Option.map_none]
  rw [hpollfds]
  convert h.push hpos howner using 1
  funext g
  by_cases hg : g = f
  · rw [hg, Function.update_self, position, hchannels, Function.update_self, Option.map_some,
      hindex, Int.toNat_natCast]
  · rw [Function.update_of_ne hg]
    refine position_congr ?_ (hother g)
    rw [hchannels, Function.update_of_ne hg]

omit [DecidableEq χ] in
/-- The entry of a channel is taken out, and the channel of the last entry is told where
    that one is now. -/
theorem slots_unregister {p' : PollPoller χ} {f : Nat} {idx : Int} {last : PollFd}
    (h : Indexed PollFd.owner p.position p.pollfds) (hpos : p.position f = some idx.toNat)
    (hlast : p.pollfds.getLast? = some last)
    (hpollfds : p'.pollfds = swapRemove p.pollfds idx.toNat)
    (hchannels : p'.channels = Function.update p.channels f none)
    (hindex : ∀ g d, g ≠ f → p.channels g = some d → (p'.channel d).index =
      if g = last.owner then idx else (p.channel d).index) :
    Indexed PollFd.owner p'.position p'.pollfds := by
  rw [hpollfds]
  convert h.swapRemove hpos hlast using 1
  funext g
  by_cases hg : g = f
  · rw [hg, Function.update_self, position, hchannels, Function.update_self, Option.map_none]
  · rw [Function.update_of_ne hg]
    by_cases hgl : g = last.owner
    · have hend : p.pollfds[p.pollfds.length - 1]? = some last := by
        rw [← List.getLast?_eq_getElem?]
        exact hlast
      obtain ⟨d, hd, -⟩ := Option.map_eq_some_iff.mp (h.index hend)
      rw [← hgl] at hd
      have hd' := hindex g d hg hd
      rw [if_pos hgl] at hd'
      rw [hgl, Function.update_self, ← hgl, position, hchannels, Function.update_of_ne hg, hd,
        Option.map_some, hd']
    · rw [Function.update_of_ne hgl]
      refine position_congr (by rw [hchannels, Function.update_of_ne hg]) fun d hd => ?_
      rw [hindex g d hg hd, if_neg hgl]

omit [DecidableEq χ] in
theorem pollfdAt_eq {idx : Int} (hidx : 0 ≤ idx) (h : p.pollfds[idx.toNat]? = some pfd) :
    p.pollfdAt idx = .ok pfd := by
  simp only [pollfdAt, if_pos hidx, h]

theorem setEvents_eq (p : PollPoller χ) (c : χ) (e : PollEvents) :
    p.setEvents fd c e = (p.setChannel c ⟨e, (p.channel c).index, true⟩).updateChannel fd c := by
  simp only [setEvents, update, setChannel, Function.update_self, Function.update_idem]

/-- The first registration. -/
theorem setEvents_new (hidx : (p.channel c).index < 0) (hch : p.channels (fd c) = none) :
    p.setEvents fd c e = .ok {
      pollfds := p.pollfds ++ [⟨fd c, e, kNoneEvent⟩]
      channels := Function.update p.channels (fd c) (some c)
      channel := Function.update p.channel c ⟨e, p.pollfds.length, true⟩ } := by
  rw [setEvents_eq]
  simp only [updateChannel, setChannel, Function.update_self, if_pos hidx, check_eq_ok, hch,
    ok_bind, pure_eq_ok, Function.update_idem]

/-- A change of events. -/
theorem setEvents_known (hidx : 0 ≤ (p.channel c).index) (hch : p.channels (fd c) = some c)
    (hpfd : p.pollfds[(p.channel c).index.toNat]? = some pfd) (howner : pfd.owner = fd c) :
    p.setEvents fd c e = .ok { p with
      pollfds := p.pollfds.set (p.channel c).index.toNat
        ⟨if e = kNoneEvent then -fd c - 1 else fd c, e, kNoneEvent⟩
      channel := Function.update p.channel c ⟨e, (p.channel c).index, true⟩ } := by
  rw [setEvents_eq]
  have hat : (p.setChannel c ⟨e, (p.channel c).index, true⟩).pollfdAt (p.channel c).index =
      .ok pfd := pollfdAt_eq hidx hpfd
  have hfd := eq_of_owner howner
  simp only [updateChannel, setChannel] at hat ⊢
  simp only [Function.update_self, if_neg (not_lt.mpr hidx), check_eq_ok, hch, ok_bind, hat, hfd,
    pure_eq_ok, PollChannel.isNoneEvent, decide_eq_true_eq]

omit [DecidableEq χ] in
theorem dropLast_iterSwap {l : List PollFd} {a b : PollFd} (ha : l[i]? = some a)
    (hb : l.getLast? = some b) : (iterSwap l i (l.length - 1)).dropLast = swapRemove l i := by
  have hend : l[l.length - 1]? = some b := by
    rw [← List.getLast?_eq_getElem?]
    exact hb
  simp only [iterSwap, ha, hend, swapRemove, hb]
  have hlen : l.length - 1 = (l.set i b).length - 1 := by rw [List.length_set]
  rw [hlen, List.dropLast_eq_take, List.length_set, List.take_set_of_le (le_refl _),
    List.dropLast_eq_take]

omit [DecidableEq χ] in
theorem dropLast_eq_swapRemove {l : List PollFd} (hi : i = l.length - 1) (hl : l ≠ []) :
    l.dropLast = swapRemove l i := by
  have hlast := List.getLast?_eq_some_getLast hl
  simp only [swapRemove, hlast]
  rw [List.dropLast_eq_take, List.dropLast_eq_take, List.length_set, hi,
    List.take_set_of_le (le_refl _)]

/-! ### The histories and the table -/

/-- What stands in the array for a channel with this history. -/
def pollfdOf (f : Nat) (l : List ChannelOperation) : PollFd where
  fd := if eventsAfter l = kNoneEvent ∧ l.length ≠ 1 then -f - 1 else f
  events := eventsAfter l
  revents := kNoneEvent

theorem owner_pollfdOf (f : Nat) (l : List ChannelOperation) : (pollfdOf f l).owner = f := by
  apply owner_of_eq
  unfold pollfdOf
  dsimp only
  split
  · exact .inr rfl
  · exact .inl rfl

structure Inv (fd : χ ↪ Nat) (history : χ → List ChannelOperation) (p : PollPoller χ) :
    Prop where
  slots : Indexed PollFd.owner p.position p.pollfds
  mapped : ∀ {f c}, p.channels f = some c → fd c = f
  known : ∀ c, p.channels (fd c) = some c ↔ registeredAfter (history c) = true
  index : ∀ c, (p.channel c).index < 0 ↔ history c = []
  events : ∀ c, (p.channel c).events = eventsAfter (history c)
  pollfd : ∀ pfd ∈ p.pollfds, ∀ c, pfd.owner = fd c → pfd = pollfdOf (fd c) (history c)
  removed : ∀ c, .remove ∈ history c → registeredAfter (history c) = false

omit [DecidableEq χ] in
theorem new_inv (fd : χ ↪ Nat) : Inv fd (fun _ => []) (new : PollPoller χ) where
  slots := Indexed.nil
  mapped := fun h => by cases h
  known := fun c => iff_of_false (by simp [new]) (by simp [registeredAfter])
  index := fun c => by simp [new, PollChannel.new]
  events := fun c => rfl
  pollfd := fun _ h => by cases h
  removed := fun _ h => by cases h

omit [DecidableEq χ] in
/-- A registered channel has its entry in the array. -/
theorem Inv.entry (h : Inv fd history p) (hreg : registeredAfter (history c) = true) :
    0 ≤ (p.channel c).index ∧ p.channels (fd c) = some c ∧
      p.position (fd c) = some (p.channel c).index.toNat ∧
      p.pollfds[(p.channel c).index.toNat]? = some (pollfdOf (fd c) (history c)) := by
  have hknown := (h.known c).mpr hreg
  have hpos : p.position (fd c) = some (p.channel c).index.toNat := by
    simp only [position, hknown, Option.map_some]
  have hidx : 0 ≤ (p.channel c).index := by
    rw [← not_lt, h.index]
    exact not_nil_of_registered hreg
  rcases h.slots.slot hpos with ⟨pfd, hpfd, howner⟩
  have heq := h.pollfd pfd (List.mem_of_getElem? hpfd) c howner
  rw [heq] at hpfd
  exact ⟨hidx, hknown, hpos, hpfd⟩

omit [DecidableEq χ] in
theorem Inv.unknown (h : Inv fd history p) (hreg : registeredAfter (history c) = false) :
    p.channels (fd c) = none := by
  cases hch : p.channels (fd c) with
  | none => rfl
  | some c' =>
    obtain rfl : c' = c := fd.injective (h.mapped hch)
    rw [(h.known c').mp hch] at hreg
    cases hreg

/-! ### What an operation does to them -/

/-- The history after one more operation of `c`. -/
def extend (history : χ → List ChannelOperation) (c : χ) (op : ChannelOperation) :
    χ → List ChannelOperation :=
  Function.update history c (history c ++ [op])

@[simp] theorem extend_self : extend history c op c = history c ++ [op] :=
  Function.update_self c _ _

theorem extend_of_ne {c' : χ} (h : c' ≠ c) : extend history c op c' = history c' :=
  Function.update_of_ne h _ _

theorem perform_update (p : PollPoller χ) (c : χ) (hop : op ≠ .remove) :
    p.perform fd (c, op) = p.setEvents fd c (op.events (p.channel c).events) := by
  cases op with
  | remove => exact absurd rfl hop
  | _ => rfl

/-- The invariant after an operation, from what the operation does to its own channel
    and what it leaves of the others. -/
theorem Inv.operation {p' : PollPoller χ} (h : Inv fd history p) (hrem : .remove ∉ history c)
    (hslots : Indexed PollFd.owner p'.position p'.pollfds)
    (hchannels : ∃ r : Option χ, (r = some c ↔ op ≠ .remove) ∧ (r = some c ∨ r = none) ∧
      p'.channels = Function.update p.channels (fd c) r)
    (hindex : ∀ c', (p'.channel c').index < 0 ↔ c' ≠ c ∧ (p.channel c').index < 0)
    (hevents : ∀ c', (p'.channel c').events =
      if c' = c then op.events (p.channel c).events else (p.channel c').events)
    (hpollfd : ∀ pfd ∈ p'.pollfds, (op ≠ .remove ∧ pfd = pollfdOf (fd c) (history c ++ [op])) ∨
      (pfd ∈ p.pollfds ∧ pfd.owner ≠ fd c)) : Inv fd (extend history c op) p' := by
  rcases hchannels with ⟨r, hr, hrc, hchannels⟩
  constructor
  · exact hslots
  · intro f c' hf
    rw [hchannels] at hf
    by_cases hfc : f = fd c
    · subst hfc
      rw [Function.update_self] at hf
      rcases hrc with rfl | rfl
      · exact congrArg fd (Option.some.inj hf).symm
      · cases hf
    · rw [Function.update_of_ne hfc] at hf
      exact h.mapped hf
  · intro c'
    rw [hchannels]
    by_cases hc : c' = c
    · subst hc
      rw [Function.update_self, extend_self, registeredAfter_append, hr, decide_eq_true_eq]
    · rw [Function.update_of_ne (fun heq => hc (fd.injective heq)), extend_of_ne hc]
      exact h.known c'
  · intro c'
    rw [hindex]
    by_cases hc : c' = c
    · subst hc
      simp
    · rw [extend_of_ne hc, h.index]
      exact and_iff_right hc
  · intro c'
    rw [hevents]
    by_cases hc : c' = c
    · subst hc
      rw [if_pos rfl, extend_self, eventsAfter_append, h.events]
    · rw [if_neg hc, extend_of_ne hc, h.events]
  · intro pfd hmem c' howner
    by_cases hc : c' = c
    · subst hc
      rcases hpollfd pfd hmem with ⟨_, hpfd⟩ | ⟨_, hne⟩
      · rw [extend_self]
        exact hpfd
      · exact absurd howner hne
    · rw [extend_of_ne hc]
      rcases hpollfd pfd hmem with ⟨_, hpfd⟩ | ⟨hold, _⟩
      · rw [hpfd, owner_pollfdOf] at howner
        exact absurd (fd.injective howner).symm hc
      · exact h.pollfd pfd hold c' howner
  · intro c' hmem
    by_cases hc : c' = c
    · subst hc
      rw [extend_self, List.mem_append, List.mem_singleton] at hmem
      rw [extend_self, registeredAfter_append, ← hmem.resolve_left hrem]
      rfl
    · rw [extend_of_ne hc] at hmem ⊢
      exact h.removed c' hmem

/-- The channel has a slot now, and the others have what they had. -/
theorem update_index (channel : χ → PollChannel) (c : χ) {ch : PollChannel} (hidx : 0 ≤ ch.index)
    (c' : χ) : (Function.update channel c ch c').index < 0 ↔ c' ≠ c ∧ (channel c').index < 0 := by
  by_cases hc : c' = c
  · subst hc
    simpa using hidx
  · simp [hc]

theorem update_events (channel : χ → PollChannel) (c : χ) {ch : PollChannel} {events : PollEvents}
    (hevents : ch.events = events) (c' : χ) : (Function.update channel c ch c').events =
      if c' = c then events else (channel c').events := by
  by_cases hc : c' = c
  · subst hc
    simpa using hevents
  · simp [hc]

/-- The first registration of a channel. -/
theorem Inv.register (h : Inv fd history p) (hop : op ≠ .remove) (hnil : history c = []) :
    ∃ p', p.perform fd (c, op) = .ok p' ∧ Inv fd (extend history c op) p' := by
  have hnone : p.channels (fd c) = none := h.unknown (by rw [hnil]; rfl)
  have hpos : p.position (fd c) = none := by simp only [position, hnone, Option.map_none]
  have hidx : (p.channel c).index < 0 := (h.index c).mpr hnil
  have hevents : op.events (p.channel c).events = eventsAfter [op] := by
    rw [h.events, hnil]
    rfl
  have howner : PollFd.owner ⟨fd c, eventsAfter [op], kNoneEvent⟩ = fd c := owner_of_eq (.inl rfl)
  refine ⟨_, (perform_update p c hop).trans (setEvents_new hidx hnone), ?_⟩
  rw [hevents]
  refine h.operation (by simp [hnil]) ?_ ⟨some c, by simp [hop], .inl rfl, rfl⟩ ?_ ?_ ?_
  · refine slots_register h.slots hnone howner rfl rfl ?_ fun f c' hch => ?_
    · simp
    · have hc : c' ≠ c := by
        rintro rfl
        rw [h.mapped hch, hch] at hnone
        cases hnone
      simp only [Function.update_of_ne hc]
  · exact update_index p.channel c (Int.natCast_nonneg p.pollfds.length)
  · exact update_events p.channel c hevents.symm
  · intro pfd hmem
    rcases List.mem_append.mp hmem with hold | hnew
    · refine .inr ⟨hold, fun heq => ?_⟩
      exact h.slots.index_ne_none hold (by rw [heq]; exact hpos)
    · refine .inl ⟨hop, ?_⟩
      rw [List.mem_singleton.mp hnew, hnil]
      simp [pollfdOf]

/-- A change of events of a registered channel. -/
theorem Inv.change (h : Inv fd history p) (hop : op ≠ .remove)
    (hreg : registeredAfter (history c) = true) (hrem : .remove ∉ history c) :
    ∃ p', p.perform fd (c, op) = .ok p' ∧ Inv fd (extend history c op) p' := by
  rcases h.entry hreg with ⟨hidx, hknown, hpos, hpfd⟩
  have hevents : op.events (p.channel c).events = eventsAfter (history c ++ [op]) := by
    rw [h.events, eventsAfter_append]
  have hentry : (⟨if eventsAfter (history c ++ [op]) = kNoneEvent then -fd c - 1 else fd c,
      eventsAfter (history c ++ [op]), kNoneEvent⟩ : PollFd) =
        pollfdOf (fd c) (history c ++ [op]) := by
    have hlen : (history c ++ [op]).length ≠ 1 := by
      have := List.length_pos_iff.mpr (not_nil_of_registered hreg)
      simp only [List.length_append, List.length_singleton]
      omega
    simp only [pollfdOf, hlen, ne_eq, not_false_eq_true, and_true]
  refine ⟨_, (perform_update p c hop).trans
    (setEvents_known hidx hknown hpfd (owner_pollfdOf _ _)), ?_⟩
  rw [hevents, hentry]
  have hslots := h.slots.set hpos (owner_pollfdOf (fd c) (history c ++ [op]))
  refine h.operation hrem ?_ ⟨some c, by simp [hop], .inl rfl, ?_⟩ ?_ ?_ ?_
  · convert hslots using 1
    funext f
    refine position_congr rfl fun c' _ => ?_
    by_cases hc : c' = c
    · subst hc
      simp
    · simp [hc]
  · rw [← hknown, Function.update_eq_self]
  · exact update_index p.channel c hidx
  · exact update_events p.channel c hevents.symm
  · intro pfd hmem
    by_cases howner : pfd.owner = fd c
    · -- the entry of the channel is the one that was written
      refine .inl ⟨hop, ?_⟩
      have hget := hslots.getElem_of_mem hmem (by rw [howner]; exact hpos)
      rw [List.getElem?_set_self (h.slots.lt hpos)] at hget
      exact (Option.some.inj hget).symm
    · refine .inr ⟨?_, howner⟩
      rcases List.mem_or_eq_of_mem_set hmem with hold | rfl
      · exact hold
      · exact absurd (owner_pollfdOf _ _) howner

/-- `remove` of the channel whose entry is the last one. -/
theorem remove_last (hidx : 0 ≤ (p.channel c).index) (hknown : p.channels (fd c) = some c)
    (hnone : (p.channel c).events = kNoneEvent)
    (hpfd : p.pollfds[(p.channel c).index.toNat]? = some pfd)
    (hfd : pfd.fd = -fd c - 1) (hevents : pfd.events = kNoneEvent)
    (hend : (p.channel c).index.toNat = p.pollfds.length - 1) :
    p.remove fd c = .ok {
      pollfds := p.pollfds.dropLast
      channels := Function.update p.channels (fd c) none
      channel := Function.update p.channel c ⟨kNoneEvent, (p.channel c).index, false⟩ } := by
  have hat : (p.setChannel c { p.channel c with addedToLoop := false }).pollfdAt
      (p.channel c).index = .ok pfd := pollfdAt_eq hidx hpfd
  simp only [setChannel, hnone] at hat
  simp only [PollPoller.remove, removeChannel, setChannel, Function.update_self,
    PollChannel.isNoneEvent, hnone, decide_true, check_eq_ok, hknown, ok_bind, hat, hfd, hevents,
    and_self, if_pos hend, pure_eq_ok]

/-- `remove` of any other channel: the last entry moves, and its channel is told. -/
theorem remove_inner {d : χ} {last : PollFd} (hidx : 0 ≤ (p.channel c).index)
    (hknown : p.channels (fd c) = some c) (hnone : (p.channel c).events = kNoneEvent)
    (hpfd : p.pollfds[(p.channel c).index.toNat]? = some pfd)
    (hfd : pfd.fd = -fd c - 1) (hevents : pfd.events = kNoneEvent)
    (hend : (p.channel c).index.toNat ≠ p.pollfds.length - 1)
    (hlast : p.pollfds.getLast? = some last) (hd : p.channels last.owner = some d)
    (howner : last.owner ≠ fd c) (hdc : d ≠ c) :
    p.remove fd c = .ok {
      pollfds := swapRemove p.pollfds (p.channel c).index.toNat
      channels := Function.update p.channels (fd c) none
      channel := Function.update
        (Function.update p.channel c ⟨kNoneEvent, (p.channel c).index, false⟩) d
        { p.channel d with index := (p.channel c).index } } := by
  have hat : (p.setChannel c { p.channel c with addedToLoop := false }).pollfdAt
      (p.channel c).index = .ok pfd := pollfdAt_eq hidx hpfd
  simp only [setChannel, hnone] at hat
  simp only [PollPoller.remove, removeChannel, setChannel, Function.update_self,
    PollChannel.isNoneEvent, hnone, decide_true, check_eq_ok, hknown, ok_bind, hat, hfd, hevents,
    and_self, if_neg hend, hlast, Option.bind_some, Function.update_of_ne howner, hd, pure_eq_ok,
    Function.update_of_ne hdc, dropLast_iterSwap hpfd hlast]

omit [DecidableEq χ] in
/-- After the removal of a channel the slots belong to other channels. -/
theorem Inv.slots_left (h : Inv fd history p) (hreg : registeredAfter (history c) = true) :
    ∀ pfd ∈ swapRemove p.pollfds (p.channel c).index.toNat,
      (ChannelOperation.remove ≠ .remove ∧ pfd = pollfdOf (fd c) (history c ++ [.remove])) ∨
        pfd ∈ p.pollfds ∧ pfd.owner ≠ fd c := by
  rcases h.entry hreg with ⟨-, -, hpos, hpfd⟩
  have hne : p.pollfds ≠ [] := List.ne_nil_of_mem (List.mem_of_getElem? hpfd)
  have hslots := h.slots.swapRemove hpos (List.getLast?_eq_some_getLast hne)
  intro pfd hmem
  refine .inr ⟨mem_of_mem_swapRemove hmem, ?_⟩
  intro howner
  apply hslots.index_ne_none hmem
  rw [howner, Function.update_self]

/-- The channel has the last slot. -/
theorem Inv.remove_of_last (h : Inv fd history p) (hnone : eventsAfter (history c) = kNoneEvent)
    (hreg : registeredAfter (history c) = true) (hrem : .remove ∉ history c)
    (hlen : (history c).length ≠ 1) (hi : (p.channel c).index.toNat = p.pollfds.length - 1) :
    ∃ p', p.perform fd (c, .remove) = .ok p' ∧ Inv fd (extend history c .remove) p' := by
  rcases h.entry hreg with ⟨hidx, hknown, hpos, hpfd⟩
  have hevents : (p.channel c).events = kNoneEvent := (h.events c).trans hnone
  have hfd : (pollfdOf (fd c) (history c)).fd = -fd c - 1 := if_pos ⟨hnone, hlen⟩
  have hne : p.pollfds ≠ [] := List.ne_nil_of_mem (List.mem_of_getElem? hpfd)
  have hlast := List.getLast?_eq_some_getLast hne
  have hpollfd := h.slots_left hreg
  refine ⟨_, remove_last hidx hknown hevents hpfd hfd hnone hi, ?_⟩
  rw [dropLast_eq_swapRemove hi hne]
  refine h.operation hrem ?_ ⟨none, by simp, .inr rfl, rfl⟩ ?_ ?_ hpollfd
  · refine slots_unregister h.slots hpos hlast rfl rfl fun f c' hf _ => ?_
    have howner : (p.pollfds.getLast hne).owner = fd c := by
      rw [hi, ← List.getLast?_eq_getElem?, hlast] at hpfd
      rw [Option.some.inj hpfd, owner_pollfdOf]
    rw [howner, if_neg hf]
    by_cases hc : c' = c
    · subst hc
      simp
    · simp [hc]
  · exact update_index p.channel c hidx
  · exact update_events p.channel c hevents.symm

/-- The channel has another slot, to which the last one is moved. -/
theorem Inv.remove_of_inner (h : Inv fd history p) (hnone : eventsAfter (history c) = kNoneEvent)
    (hreg : registeredAfter (history c) = true) (hrem : .remove ∉ history c)
    (hlen : (history c).length ≠ 1) (hi : (p.channel c).index.toNat ≠ p.pollfds.length - 1) :
    ∃ p', p.perform fd (c, .remove) = .ok p' ∧ Inv fd (extend history c .remove) p' := by
  rcases h.entry hreg with ⟨hidx, hknown, hpos, hpfd⟩
  have hevents : (p.channel c).events = kNoneEvent := (h.events c).trans hnone
  have hfd : (pollfdOf (fd c) (history c)).fd = -fd c - 1 := if_pos ⟨hnone, hlen⟩
  have hne : p.pollfds ≠ [] := List.ne_nil_of_mem (List.mem_of_getElem? hpfd)
  have hlast := List.getLast?_eq_some_getLast hne
  have hend : p.pollfds[p.pollfds.length - 1]? = some (p.pollfds.getLast hne) := by
    rw [← List.getLast?_eq_getElem?]
    exact hlast
  have hpollfd := h.slots_left hreg
  -- the channel that has the last slot
  rcases Option.map_eq_some_iff.mp (h.slots.index hend) with ⟨d, hd, hdidx⟩
  have hdc : d ≠ c := by
    rintro rfl
    exact hi hdidx
  have hfdd : fd d = (p.pollfds.getLast hne).owner := h.mapped hd
  have hdidx' : 0 ≤ (p.channel d).index := (h.entry ((h.known d).mp (by rw [hfdd]; exact hd))).1
  have howner : (p.pollfds.getLast hne).owner ≠ fd c :=
    fun heq => hdc (fd.injective (hfdd.trans heq))
  refine ⟨_, remove_inner hidx hknown hevents hpfd hfd hnone hi hlast hd howner hdc, ?_⟩
  refine h.operation hrem ?_ ⟨none, by simp, .inr rfl, rfl⟩ ?_ ?_ hpollfd
  · refine slots_unregister h.slots hpos hlast rfl rfl fun f c' hf hch => ?_
    have hc'c : c' ≠ c := fun heq => hf ((h.mapped hch).symm.trans (heq ▸ rfl))
    by_cases hfl : f = (p.pollfds.getLast hne).owner
    · obtain rfl : d = c' := Option.some.inj (hd.symm.trans (hfl ▸ hch))
      simp only [if_pos hfl, Function.update_self]
    · have hc'd : c' ≠ d := fun heq => hfl ((h.mapped hch).symm.trans (heq ▸ hfdd))
      simp only [if_neg hfl, Function.update_of_ne hc'd, Function.update_of_ne hc'c]
  · intro c'
    by_cases hc : c' = c
    · subst hc
      simpa [Ne.symm hdc] using hidx
    · by_cases hd' : c' = d
      · subst hd'
        simp [hdc, not_lt.mpr hidx, not_lt.mpr hdidx']
      · simp [hc, hd']
  · intro c'
    by_cases hd' : c' = d
    · subst hd'
      simp [hdc]
    · by_cases hc : c' = c
      · subst hc
        simp [ChannelOperation.events, hevents, hd']
      · simp [hc, hd']

/-- A registered channel without events of interest is removed, unless its first
    registration was the only one. -/
theorem Inv.remove (h : Inv fd history p) (hnone : eventsAfter (history c) = kNoneEvent)
    (hreg : registeredAfter (history c) = true) (hrem : .remove ∉ history c)
    (hlen : (history c).length ≠ 1) :
    ∃ p', p.perform fd (c, .remove) = .ok p' ∧ Inv fd (extend history c .remove) p' := by
  by_cases hi : (p.channel c).index.toNat = p.pollfds.length - 1
  · exact h.remove_of_last hnone hreg hrem hlen hi
  · exact h.remove_of_inner hnone hreg hrem hlen hi

/-- **One operation.**  Legal operations of a channel that has not been removed, other
    than a `remove` that comes second, end well. -/
theorem Inv.perform (h : Inv fd history p)
    (hlegal : op = .remove → eventsAfter (history c) = kNoneEvent ∧
      registeredAfter (history c) = true)
    (hrem : .remove ∉ history c) (hlen : op = .remove → (history c).length ≠ 1) :
    ∃ p', p.perform fd (c, op) = .ok p' ∧ Inv fd (extend history c op) p' := by
  by_cases hop : op = .remove
  · subst hop
    rcases hlegal rfl with ⟨hnone, hreg⟩
    exact h.remove hnone hreg hrem (hlen rfl)
  · by_cases hnil : history c = []
    · exact h.register hop hnil
    · exact h.change hop (registeredAfter_of_not_mem hnil hrem) hrem

theorem run_append (ops : List (χ × ChannelOperation)) (a : χ × ChannelOperation) :
    run fd (ops ++ [a]) = run fd ops >>= fun p => p.perform fd a := by
  unfold run
  rw [List.foldlM_append]
  congr 1
  funext p
  exact bind_pure _

theorem run_ok {ops : List (χ × ChannelOperation)} (hlegal : EachOperation Legal [] ops)
    (hused : EachOperation UsedOnce [] ops) :
    ∃ p, run fd ops = .ok p ∧ Inv fd (fun c => operationsOf c ops) p := by
  induction ops using List.reverseRecOn with
  | nil => exact ⟨_, rfl, new_inv fd⟩
  | append_singleton ops a ih =>
    rcases a with ⟨c, op⟩
    rcases eachOperation_append_singleton.mp hlegal with ⟨hops, hl⟩
    rcases eachOperation_append_singleton.mp hused with ⟨hops', hu⟩
    rcases ih hops hops' with ⟨p, hp, hinv⟩
    rcases hinv.perform hl hu.1 hu.2 with ⟨p', hperform, hinv'⟩
    refine ⟨p', ?_, ?_⟩
    · rw [run_append, hp]
      exact hperform
    · rw [operationsOf_append]
      exact hinv'

/-- An operation that is not covered stops `PollPoller`. -/
theorem Inv.perform_error (h : Inv fd history p)
    (hlegal : op = .remove → eventsAfter (history c) = kNoneEvent ∧
      registeredAfter (history c) = true)
    (hbad : ¬ (.remove ∉ history c ∧ (op = .remove → (history c).length ≠ 1))) :
    ∃ e, p.perform fd (c, op) = .error e := by
  by_cases hrem : .remove ∈ history c
  · -- the channel comes back: it is not in channels_, but its index_ is not negative
    have hreg := h.removed c hrem
    have hop : op ≠ .remove := by
      intro hop
      rw [(hlegal hop).2] at hreg
      cases hreg
    have hidx : ¬ (p.channel c).index < 0 := by
      rw [h.index]
      exact List.ne_nil_of_mem hrem
    refine ⟨.updateChannelKnown, ?_⟩
    rw [perform_update p c hop, setEvents_eq]
    simp only [updateChannel, setChannel, Function.update_self, if_neg hidx, h.unknown hreg]
    rfl
  · -- the only registration left the fd as it is
    have hop : op = .remove ∧ (history c).length = 1 := by
      by_contra hno
      exact hbad ⟨hrem, fun hop hlen => hno ⟨hop, hlen⟩⟩
    rcases hop with ⟨rfl, hlen⟩
    rcases hlegal rfl with ⟨hnone, hreg⟩
    rcases h.entry hreg with ⟨hidx, hknown, -, hpfd⟩
    have hevents : (p.channel c).events = kNoneEvent := (h.events c).trans hnone
    have hfd : (pollfdOf (fd c) (history c)).fd = fd c := if_neg fun hand => hand.2 hlen
    have hne : ¬ ((fd c : Int) = -fd c - 1 ∧
        (pollfdOf (fd c) (history c)).events = kNoneEvent) := by
      intro hand
      have := hand.1
      omega
    have hat : (p.setChannel c { p.channel c with addedToLoop := false }).pollfdAt
        (p.channel c).index = .ok (pollfdOf (fd c) (history c)) := pollfdAt_eq hidx hpfd
    simp only [setChannel, hevents] at hat
    refine ⟨.pollRemoveFd, ?_⟩
    simp only [PollPoller.perform, PollPoller.remove, removeChannel, setChannel,
      Function.update_self, PollChannel.isNoneEvent, hevents, decide_true, check_eq_ok, hknown,
      ok_bind, hat, hfd]
    rw [check, if_neg hne]
    rfl

omit [DecidableEq χ] in
/-- `poll` is asked for the events of the channels. -/
theorem Inv.mem_watched (h : Inv fd history p)
    (hreg : ∀ c, eventsAfter (history c) ≠ kNoneEvent → registeredAfter (history c) = true)
    (w : Nat × PollEvents) :
    w ∈ p.watched ↔ w.2 ≠ kNoneEvent ∧ ∃ c, fd c = w.1 ∧ eventsAfter (history c) = w.2 := by
  constructor
  · rintro ⟨hne, pfd, hmem, hfd, hevents⟩
    have howner : pfd.owner = w.1 := owner_of_eq (.inl hfd)
    have hpos := h.slots.index_ne_none hmem
    rw [howner, position, Ne, Option.map_eq_none_iff] at hpos
    rcases Option.ne_none_iff_exists'.mp hpos with ⟨c, hc⟩
    have hcfd : fd c = w.1 := h.mapped hc
    refine ⟨hne, c, hcfd, ?_⟩
    rw [h.pollfd pfd hmem c (howner.trans hcfd.symm)] at hevents
    exact hevents
  · rintro ⟨hne, c, hfd, hevents⟩
    have hc : eventsAfter (history c) ≠ kNoneEvent := by
      rw [hevents]
      exact hne
    rcases h.entry (hreg c hc) with ⟨-, -, -, hpfd⟩
    refine ⟨hne, _, List.mem_of_getElem? hpfd, ?_, hevents⟩
    rw [← hfd]
    exact if_neg fun hand => hc hand.1

end PollPoller

/-! ### The two together -/

/-- **The pollers are interchangeable in the sequences that use a channel once.**  Of
    the legal sequences of operations of channels with distinct fds, `PollPoller` does
    what `EPollPoller` does in exactly those in which no operation of a channel follows
    its `remove`, and no `remove` is the second operation of its channel (the first one
    having registered it without events of interest). -/
theorem interchangeable_iff (fd : χ ↪ Nat) (ops : List (χ × ChannelOperation))
    (hlegal : EachOperation Legal [] ops) :
    Interchangeable fd ops ↔ EachOperation UsedOnce [] ops := by
  constructor
  · intro hsame
    by_contra hno
    rcases exists_first_failure hno with ⟨pre, ⟨c, op⟩, post, rfl, hused, hbad⟩
    have hpre : pre ++ [(c, op)] <+: pre ++ (c, op) :: post := by simp
    rcases eachOperation_append_singleton.mp (hlegal.of_prefix hpre) with ⟨hops, hl⟩
    rcases PollPoller.run_ok hops hused with ⟨p, hp, hinv⟩
    rcases EPollPoller.run_ok (hlegal.of_prefix hpre) with ⟨q, hq, -⟩
    rcases hinv.perform_error hl hbad with ⟨e, he⟩
    rcases (hsame _ hpre).1 e (by rw [PollPoller.run_append, hp]; exact he) with ⟨e', he'⟩
    rw [hq] at he'
    cases he'
  · intro hused done hdone
    rcases PollPoller.run_ok (hlegal.of_prefix hdone) (hused.of_prefix hdone) with ⟨p, hp, hinv⟩
    rcases EPollPoller.run_ok (hlegal.of_prefix hdone) with ⟨q, hq, hafter⟩
    rw [hp, hq]
    constructor
    · intro e he
      cases he
    · intro p' q' hp' hq'
      obtain rfl := Except.ok.inj hp'
      obtain rfl := Except.ok.inj hq'
      have hreg : ∀ c, eventsAfter (operationsOf c done) ≠ kNoneEvent →
          registeredAfter (operationsOf c done) = true := by
        intro c hne
        rw [← (hafter c).events] at hne
        apply (hafter c).registered.mp
        rw [(hafter c).added hne]
        decide
      ext w
      rw [hinv.mem_watched hreg, EPollPoller.mem_watched fd hafter]

/-- Two channels, the first of which goes while the second stays. -/
theorem interchangeable_two :
    Interchangeable (Function.Embedding.refl Nat)
      [(3, .enableReading), (5, .enableWriting), (3, .disableAll), (3, .remove),
        (5, .enableReading)] := by
  refine (interchangeable_iff (Function.Embedding.refl Nat) _ ?_).mpr ?_
  · decide
  · decide

/-- **They are not in all of them.**  A channel that comes back after its `remove`, and one
    whose only registration was without events of interest, stop `PollPoller`. -/
theorem not_interchangeable :
    (EachOperation Legal [] [((3 : Nat), ChannelOperation.enableReading), (3, .disableAll),
        (3, .remove), (3, .enableReading)] ∧
      ¬ Interchangeable (Function.Embedding.refl Nat) [(3, .enableReading), (3, .disableAll),
        (3, .remove), (3, .enableReading)]) ∧
    (EachOperation Legal [] [((3 : Nat), ChannelOperation.disableAll), (3, .remove)] ∧
      ¬ Interchangeable (Function.Embedding.refl Nat) [(3, .disableAll), (3, .remove)]) := by
  refine ⟨⟨by decide, fun hsame => ?_⟩, by decide, fun hsame => ?_⟩
  · rcases (hsame _ List.prefix_rfl).1 .updateChannelKnown rfl with ⟨e, he⟩
    cases he
  · rcases (hsame _ List.prefix_rfl).1 .pollRemoveFd rfl with ⟨e, he⟩
    cases he

end Kaycc
