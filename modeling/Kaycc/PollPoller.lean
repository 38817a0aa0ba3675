/-
  Kaycc/PollPoller.lean
  =====================
  **`net/poller/pollpoller.cpp`, beside `EPollPoller`.**

  `PollPoller` keeps an array of `pollfd`s.  A channel's `index_` is its position
  there, and a channel without events of interest is left in its place with its fd
  negated, as `-fd - 1`, so that `poll` ignores it.  Removing a channel moves the
  last `pollfd` into its place.

  Both pollers perform the same operations of the same channels, whose fds are
  distinct: `fd` is an embedding of the channels into the natural numbers.  No
  events are being handled meanwhile.
-/
import Mathlib.Logic.Embedding.Basic
import Mathlib.Data.Set.Basic
import Kaycc.Channel
import Kaycc.SlotTable

namespace Kaycc

open SlotTable

/-! ### The operations of a channel -/

inductive ChannelOperation where
  | enableReading
  | disableReading
  | enableWriting
  | disableWriting
  | disableAll
  | remove
deriving DecidableEq, Repr

/-- `events_` after the operation. -/
def ChannelOperation.events : ChannelOperation → PollEvents → PollEvents
  | .enableReading, e => e.union kReadEvent
  | .disableReading, e => e.without kReadEvent
  | .enableWriting, e => e.union kWriteEvent
  | .disableWriting, e => e.without kWriteEvent
  | .disableAll, _ => kNoneEvent
  | .remove, e => e

/-- The operation, as `Channel` does it with an `EPollPoller`. -/
def Channel.perform (c : Channel) : ChannelOperation → Except Assertion Channel
  | .enableReading => c.enableReading
  | .disableReading => c.disableReading
  | .enableWriting => c.enableWriting
  | .disableWriting => c.disableWriting
  | .disableAll => c.disableAll
  | .remove => c.remove

structure PollFd where
  fd : Int
  events : PollEvents
  revents : PollEvents
deriving DecidableEq, Repr

/-- The fd that it was added for. -/
def PollFd.owner (pfd : PollFd) : Nat := (if pfd.fd < 0 then -pfd.fd - 1 else pfd.fd).toNat

/-- What a channel of a loop with a `PollPoller` holds. -/
structure PollChannel where
  events : PollEvents
  index : Int
  addedToLoop : Bool
deriving DecidableEq, Repr

namespace PollChannel

def new : PollChannel where
  events := kNoneEvent
  index := -1
  addedToLoop := false

def isNoneEvent (c : PollChannel) : Bool := decide (c.events = kNoneEvent)

end PollChannel

/-- The poller and the channels of its loop. -/
structure PollPoller (χ : Type) where
  pollfds : List PollFd
  channels : Nat → Option χ
  channel : χ → PollChannel

namespace PollPoller

variable {χ : Type} [DecidableEq χ] (fd : χ ↪ Nat)

def new : PollPoller χ where
  pollfds := []
  channels := fun _ => none
  channel := fun _ => PollChannel.new

/-- `assert(0 <= idx && idx < pollfds_.size())` and `pollfds_[idx]`. -/
def pollfdAt (p : PollPoller χ) (idx : Int) : Except Assertion PollFd :=
  if 0 ≤ idx then
    match p.pollfds[idx.toNat]? with
    | some pfd => .ok pfd
    | none => .error .pollIndex
  else .error .pollIndex

def setChannel (p : PollPoller χ) (c : χ) (ch : PollChannel) : PollPoller χ :=
  { p with channel := Function.update p.channel c ch }

def updateChannel (p : PollPoller χ) (c : χ) : Except Assertion (PollPoller χ) :=
  let ch := p.channel c
  if ch.index < 0 then do
    check (p.channels (fd c) = none) .updateChannelNew
    let pfd : PollFd := { fd := fd c, events := ch.events, revents := kNoneEvent }
    pure { p with
      pollfds := p.pollfds ++ [pfd]
      channels := Function.update p.channels (fd c) (some c)
      channel := Function.update p.channel c { ch with index := p.pollfds.length } }
  else do
    check (p.channels (fd c) = some c) .updateChannelKnown
    let pfd ← p.pollfdAt ch.index
    check (pfd.fd = fd c ∨ pfd.fd = -fd c - 1) .pollUpdateFd
    let pfd : PollFd := {
      fd := if ch.isNoneEvent = true then -fd c - 1 else fd c
      events := ch.events
      revents := kNoneEvent }
    pure { p with pollfds := p.pollfds.set ch.index.toNat pfd }

/-- `iter_swap(begin() + i, begin() + j)`. -/
def iterSwap (pollfds : List PollFd) (i j : Nat) : List PollFd :=
  match pollfds[i]?, pollfds[j]? with
  | some a, some b => (pollfds.set i b).set j a
  | _, _ => pollfds

def removeChannel (p : PollPoller χ) (c : χ) : Except Assertion (PollPoller χ) := do
  let ch := p.channel c
  check (p.channels (fd c) = some c) .removeChannelKnown
  check (ch.isNoneEvent = true) .removeChannelIsNoneEvent
  let pfd ← p.pollfdAt ch.index
  check (pfd.fd = -fd c - 1 ∧ pfd.events = ch.events) .pollRemoveFd
  let idx := ch.index.toNat
  let channels := Function.update p.channels (fd c) none
  if idx = p.pollfds.length - 1 then
    pure { p with pollfds := p.pollfds.dropLast, channels := channels }
  else
    let pollfds := (iterSwap p.pollfds idx (p.pollfds.length - 1)).dropLast
    match p.pollfds.getLast?.bind (channels ·.owner) with
    | none => .error .pollChannelAtEnd
    | some channelAtEnd =>
        pure { p with
          pollfds := pollfds
          channels := channels
          channel := Function.update p.channel channelAtEnd
            { p.channel channelAtEnd with index := ch.index } }

/-! ### The operations -/

def update (p : PollPoller χ) (c : χ) : Except Assertion (PollPoller χ) :=
  (p.setChannel c { p.channel c with addedToLoop := true }).updateChannel fd c

/-- `events_ = e; update()`. -/
def setEvents (p : PollPoller χ) (c : χ) (e : PollEvents) : Except Assertion (PollPoller χ) :=
  (p.setChannel c { p.channel c with events := e }).update fd c

def enableReading (p : PollPoller χ) (c : χ) : Except Assertion (PollPoller χ) :=
  p.setEvents fd c ((p.channel c).events.union kReadEvent)

def disableReading (p : PollPoller χ) (c : χ) : Except Assertion (PollPoller χ) :=
  p.setEvents fd c ((p.channel c).events.without kReadEvent)

def enableWriting (p : PollPoller χ) (c : χ) : Except Assertion (PollPoller χ) :=
  p.setEvents fd c ((p.channel c).events.union kWriteEvent)

def disableWriting (p : PollPoller χ) (c : χ) : Except Assertion (PollPoller χ) :=
  p.setEvents fd c ((p.channel c).events.without kWriteEvent)

def disableAll (p : PollPoller χ) (c : χ) : Except Assertion (PollPoller χ) :=
  p.setEvents fd c kNoneEvent

def remove (p : PollPoller χ) (c : χ) : Except Assertion (PollPoller χ) := do
  check ((p.channel c).isNoneEvent = true) .channelRemoveIsNoneEvent
  (p.setChannel c { p.channel c with addedToLoop := false }).removeChannel fd c

/-- An operation of one of the channels. -/
def perform (p : PollPoller χ) : χ × ChannelOperation → Except Assertion (PollPoller χ)
  | (c, .enableReading) => p.enableReading fd c
  | (c, .disableReading) => p.disableReading fd c
  | (c, .enableWriting) => p.enableWriting fd c
  | (c, .disableWriting) => p.disableWriting fd c
  | (c, .disableAll) => p.disableAll fd c
  | (c, .remove) => p.remove fd c

/-- The operations in order, from an empty poller. -/
def run (ops : List (χ × ChannelOperation)) : Except Assertion (PollPoller χ) :=
  ops.foldlM (fun p op => p.perform fd op) new

/-- What the kernel is asked to watch: `poll` ignores a negative fd. -/
def watched (p : PollPoller χ) : Set (Nat × PollEvents) :=
  { w | w.2 ≠ kNoneEvent ∧ ∃ pfd ∈ p.pollfds, pfd.fd = w.1 ∧ pfd.events = w.2 }

end PollPoller

/-! ### The same with an `EPollPoller` -/

namespace EPollPoller

variable {χ : Type} [DecidableEq χ] (fd : χ ↪ Nat)

/-- The channels, each with what the poller holds for it. -/
def perform (q : χ → Channel) (op : χ × ChannelOperation) : Except Assertion (χ → Channel) := do
  let c ← (q op.1).perform op.2
  pure (Function.update q op.1 c)

def run (ops : List (χ × ChannelOperation)) : Except Assertion (χ → Channel) :=
  ops.foldlM perform fun _ => Channel.new

def watched (q : χ → Channel) : Set (Nat × PollEvents) :=
  { w | w.2 ≠ kNoneEvent ∧ ∃ c, fd c = w.1 ∧ (q c).entry.interest = some w.2 }

end EPollPoller

/-! ### Sequences of operations -/

variable {χ : Type} [DecidableEq χ]

/-- Every operation of the list satisfies `P` after those before it. -/
def EachOperation {α : Type} (P : List α → α → Prop) (done : List α) : List α → Prop
  | [] => True
  | a :: rest => P done a ∧ EachOperation P (done ++ [a]) rest

instance {α : Type} {P : List α → α → Prop} [∀ done a, Decidable (P done a)] :
    (done ops : List α) → Decidable (EachOperation P done ops)
  | _, [] => .isTrue trivial
  | done, a :: rest =>
      have : Decidable (EachOperation P (done ++ [a]) rest) := instDecidableEachOperation _ rest
      inferInstanceAs (Decidable (P done a ∧ EachOperation P (done ++ [a]) rest))

/-- The operations of one channel. -/
def operationsOf (c : χ) (ops : List (χ × ChannelOperation)) : List ChannelOperation :=
  (ops.filter fun op => op.1 = c).map Prod.snd

/-- `events_` after a channel's operations. -/
def eventsAfter (ops : List ChannelOperation) : PollEvents :=
  ops.foldl (fun e op => op.events e) kNoneEvent

/-- The channel is registered after its operations. -/
def registeredAfter (ops : List ChannelOperation) : Bool :=
  match ops.getLast? with
  | some op => decide (op ≠ .remove)
  | none => false

/-- `remove` is called only when events are none and the channel is registered. -/
def Legal (done : List (χ × ChannelOperation)) (op : χ × ChannelOperation) : Prop :=
  op.2 = .remove → eventsAfter (operationsOf op.1 done) = kNoneEvent ∧
    registeredAfter (operationsOf op.1 done) = true

instance (done : List (χ × ChannelOperation)) (op : χ × ChannelOperation) :
    Decidable (Legal done op) :=
  inferInstanceAs (Decidable (_ → _ ∧ _))

/-- **The two pollers do the same**: after every operation, no assertion has stopped
    `PollPoller` unless one has stopped `EPollPoller`, and they watch the same. -/
def Interchangeable (fd : χ ↪ Nat) (ops : List (χ × ChannelOperation)) : Prop :=
  ∀ done, done <+: ops →
    (∀ e, PollPoller.run fd done = .error e → ∃ e', EPollPoller.run done = .error e') ∧
      ∀ p q, PollPoller.run fd done = .ok p → EPollPoller.run done = .ok q →
        p.watched = EPollPoller.watched fd q

/-- A channel is not used after its `remove`, and `remove` is not its second operation. -/
def UsedOnce (done : List (χ × ChannelOperation)) (op : χ × ChannelOperation) : Prop :=
  .remove ∉ operationsOf op.1 done ∧
    (op.2 = .remove → (operationsOf op.1 done).length ≠ 1)

instance (done : List (χ × ChannelOperation)) (op : χ × ChannelOperation) :
    Decidable (UsedOnce done op) :=
  inferInstanceAs (Decidable (_ ∧ (_ → _)))

end Kaycc
