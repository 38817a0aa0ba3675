/-
  Kaycc/TcpConnectionMoves.lean
  =============================
  **What a step of a connection can do.**

  A step is a sequence of `Move`s.  A move carries what its function has tested and
  what the run permits; so each invariant is proved for the moves, not for the
  functions.  `Life` is the invariant that does not depend on the server.
-/
import Kaycc.TcpConnectionLoop
import Mathlib.Logic.Relation

namespace Kaycc.TcpConnection

variable {strict : Prop} {point : Point} {c c' c'' : TcpConnection}

/-! ### Moves -/

/-- Neither a write nor one of the connection, message and close callbacks. -/
def Event.isNote : Event → Prop
  | .shutdownWrite => True
  | .writeCompleteCallback => True
  | .highWaterMarkCallback _ => True
  | _ => False

/-- Frames that only the handling of events leaves. -/
def Frame.inHandler : Frame → Prop
  | .handleRead => True
  | .handleClose resume => resume ≠ .functor
  | _ => False

def Frame.isClose : Frame → Bool
  | .handleClose _ => true
  | _ => false

/-- The connection without the first functor of its batch. -/
def dequeued (c : TcpConnection) (rest : List Functor) : TcpConnection :=
  { c with functors := { c.functors with batch := rest } }

/-- The connection in the `connectionCallback_` of `connectDestroyed`. -/
def destroyed (c : TcpConnection) : TcpConnection :=
  ((c.setState .kDisconnected).setChannel (c.channel.watching kNoneEvent)).callConnectionCallback
    .connectDestroyed

theorem connectDestroyed_eq (hw : c.channel.Watched) (hstate : c.state = .kConnected) :
    c.connectDestroyed = .ok c.destroyed := by
  simp only [connectDestroyed, if_pos hstate, Channel.disableAll, Channel.setEvents_eq hw, ok_bind,
    pure_eq_ok]
  rfl

/-- The connection after the `closeCallback_` of `handleClose`. -/
def closeReported (c : TcpConnection) (rest : List Frame) : TcpConnection :=
  let called := { c with frames := rest }.record .closeCallback
  if c.ownerInLoop = true then { called with tracked := false }.queueInLoop .connectDestroyed
  else { called with removals := c.removals + 1 }

/-- One thing that a step does to a connection. -/
inductive Move (strict : Prop) (point : Point) (c : TcpConnection) : TcpConnection → Prop where
  | report {revents} (hframes : c.frames = []) (hpoint : point = .polling)
      (h : Reports c.channel.entry.interest revents) : Move strict point c (c.reported revents)
  | output {d} (hstate : c.state ≠ .kDisconnected) (h : Output c d) : Move strict point c d
  | note {e : Event} (h : e.isNote) : Move strict point c (c.record e)
  | queue {f} (h : f ≠ .connectDestroyed) : Move strict point c (c.queueInLoop f)
  | dequeue {f rest} (hbatch : c.functors.batch = f :: rest) (h : f ≠ .connectDestroyed) :
      Move strict point c (c.dequeued rest)
  | book (delayed : Nat) (calling : List Call) :
      Move strict point c { c with delayed := delayed, calling := calling }
  | input (b : Buffer) : Move strict point c { c with inputBuffer := b }
  | disconnecting (hstate : c.state ≠ .kDisconnected) :
      Move strict point c (c.setState .kDisconnecting)
  | readingStarted (hstate : c.state ≠ .kDisconnected) : Move strict point c c.readingStarted
  | readingStopped (h : c.permitsFunctor strict .stopReadInLoop) :
      Move strict point c c.readingStopped
  | place (eventHandling : Bool) {active} (hpoint : point = .handlingEvents)
      (hframes : .connectDestroyed ∉ c.frames) (h : active = .current ∨ active = .handled) :
      Move strict point c (c.setChannel
        { c.channel with eventHandling := eventHandling, active := active })
  | received (hstate : c.state ≠ .kDisconnected) (hframes : c.frames = [])
      (hpoint : point = .handlingEvents) :
      Move strict point c { c.record .messageCallback with frames := .handleRead :: c.frames }
  | closed {resume} (hopen : c.isOpen) (hframes : c.frames = [])
      (hclosing : c.permitsClosing strict) (hactive : c.channel.active ≠ .waiting)
      (hpoint : resume ≠ .functor → point = .handlingEvents)
      (hresume : resume = .errorPart → c.channel.revents.meets readMask = false) :
      Move strict point c (c.closed resume)
  | returned {frame rest} (hframes : c.frames = frame :: rest)
      (h : frame = .connectEstablished ∨ frame = .handleRead) :
      Move strict point c { c with frames := rest }
  | closeReported {resume rest} (hframes : c.frames = .handleClose resume :: rest)
      (h : c.ownerInLoop = true → c.tracked = true) : Move strict point c (c.closeReported rest)
  | destroyed {rest} (hbatch : c.functors.batch = .connectDestroyed :: rest)
      (hstate : c.state = .kConnected) (hclosing : c.permitsClosing strict) :
      Move strict point c (c.dequeued rest).destroyed
  | removed {rest} (hbatch : c.functors.batch = .connectDestroyed :: rest)
      (h : c.channel.Removable) :
      Move strict point c ((c.dequeued rest).setChannel c.channel.removed)
  | destroyReturned {rest} (hframes : c.frames = .connectDestroyed :: rest)
      (h : c.channel.Removable) :
      Move strict point c { c with frames := rest, channel := c.channel.removed }

/-- A sequence of moves. -/
abbrev Moves (strict : Prop) (point : Point) : TcpConnection → TcpConnection → Prop :=
  Relation.ReflTransGen (Move strict point)

/-! ### Counting callbacks -/

def ups (log : List Event) : Nat := log.count (.connectionCallback true)

def downs (log : List Event) : Nat := log.count (.connectionCallback false)

def closes (log : List Event) : Nat := log.count .closeCallback

/-- The executions of `handleClose` whose `connectionCallback_` has not returned. -/
def closings (c : TcpConnection) : Nat := c.frames.countP Frame.isClose

theorem count_record_of_ne {e f : Event} (h : e ≠ f) :
    (c.record e).log.count f = c.log.count f := by
  simp [record, List.count_append, h]

theorem count_record_self (e : Event) : (c.record e).log.count e = c.log.count e + 1 := by
  simp [record, List.count_append]

theorem Output.count_log (h : Output c c') {e : Event} (he : ¬ e.isWrite) :
    c'.log.count e = c.log.count e := by
  obtain ⟨es, hlog, hes⟩ := h.log
  have hnone : es.count e = 0 := List.count_eq_zero.mpr fun hmem => he (hes e hmem)
  rw [hlog, List.count_append, hnone, Nat.add_zero]

theorem ne_of_isNote {e f : Event} (h : e.isNote) (hf : ¬ f.isNote) : e ≠ f :=
  fun heq => hf (heq ▸ h)

theorem closings_cons {resume : Resume} {rest : List Frame}
    (hframes : c.frames = .handleClose resume :: rest) :
    c.closings = rest.countP Frame.isClose + 1 := by
  unfold closings
  rw [hframes]
  exact List.countP_cons_of_pos rfl

/-! ### The life of a connection -/

/-- What holds of every established connection, wherever its loop is. -/
structure Life (point : Point) (c : TcpConnection) : Prop where
  watched : c.channel.Watched
  plain : c.channel.events.Plain
  established : c.state ≠ .kConnecting
  quiet : c.state = .kDisconnected → c.channel.events = kNoneEvent
  active : point = .handlingEvents ∨ point = .polling ∨ c.channel.active = .absent
  handlers : ∀ f ∈ c.frames, f.inHandler → point = .handlingEvents
  hangUp : c.channel.active = .waiting →
    c.channel.revents.pollhup = true ∧ c.channel.revents.pollin = false →
      c.channel.revents.meets readMask = false
  waiting : c.state = .kDisconnected → c.channel.active = .waiting →
    .connectDestroyed ∈ c.frames ∨ c.channel.revents.meets readMask = false
  resumes : .handleClose .errorPart ∈ c.frames → c.channel.revents.meets readMask = false
  inner : .connectDestroyed ∉ c.frames.tail
  framed : c.state ≠ .kDisconnected → .connectDestroyed ∉ c.frames
  ups : ups c.log = 1
  downs : downs c.log = if c.state = .kDisconnected then 1 else 0
  closes : closes c.log + c.closings ≤ if c.state = .kDisconnected then 1 else 0

theorem Life.isOpen (h : Life point c) (hstate : c.state ≠ .kDisconnected) : c.isOpen := by
  have hconn := h.established
  unfold TcpConnection.isOpen
  cases hs : c.state with
  | kDisconnected => exact absurd hs hstate
  | kConnecting => exact absurd hs hconn
  | kConnected => exact .inl rfl
  | kDisconnecting => exact .inr rfl

theorem isOpen_ne (h : c.isOpen) : c.state ≠ .kDisconnected := by
  rcases h with h | h <;> rw [h] <;> nofun

/-- `handleClose` runs only once. -/
theorem Life.closings_of_open (h : Life point c) (hstate : c.state ≠ .kDisconnected) :
    c.closings = 0 := by
  have hcloses := h.closes
  rw [if_neg hstate] at hcloses
  omega

/-- The events that `epoll_wait` may report with a plain mask. -/
theorem readMask_of_reports {m r : PollEvents} (hplain : m.Plain) (h : Reports (some m) r) :
    (r.pollhup = true ∧ r.pollin = false → r.meets readMask = false) ∧
      (m = kNoneEvent → r.meets readMask = false) := by
  obtain ⟨reading, writing, rfl⟩ := hplain
  obtain ⟨hin, hpri, -, -, hrdhup, hhup⟩ := h
  have hrd : r.pollrdhup = false := Bool.eq_false_iff.mpr fun hr => Bool.false_ne_true (hrdhup hr)
  have hmeets : r.pollin = false → reading = false → r.meets readMask = false := by
    intro hnot hread
    have hp : r.pollpri = false := by
      apply Bool.eq_false_iff.mpr
      intro hp
      cases hread.symm.trans (hpri hp)
    simp [PollEvents.meets, readMask, hnot, hp, hrd]
  refine ⟨fun hup => hmeets hup.2 ?_, fun hnone => ?_⟩
  · apply Bool.eq_false_iff.mpr
    intro hread
    cases hup.2.symm.trans (hhup ⟨hup.1, hread⟩)
  · have hread : reading = false := congrArg PollEvents.pollin hnone
    refine hmeets (Bool.eq_false_iff.mpr ?_) hread
    intro hpin
    cases hread.symm.trans (hin hpin)

/-! ### Moves keep the life -/

theorem Life.report {revents : PollEvents} (h : Life point c) (hframes : c.frames = [])
    (hpoint : point = .polling) (hr : Reports c.channel.entry.interest revents) :
    Life point (c.reported revents) := by
  obtain ⟨hhup, hnone⟩ := readMask_of_reports h.plain (h.watched.reports hr).2
  exact { h with
    watched := ⟨h.watched.index, h.watched.registered, h.watched.interest⟩
    active := .inr (.inl hpoint)
    hangUp := fun _ => hhup
    waiting := fun hstate _ => .inr (hnone (h.quiet hstate))
    resumes := by
      intro hmem
      change _ ∈ c.frames at hmem
      rw [hframes] at hmem
      cases hmem }

theorem Life.output (h : Life point c) (hstate : c.state ≠ .kDisconnected) (ho : Output c c') :
    Life point c' := by
  have hs := ho.state
  have hf := ho.frames
  have hcloses : c'.closings = c.closings := by
    unfold TcpConnection.closings
    rw [hf]
  refine ⟨ho.channel.watched h.watched, ho.channel.plain h.plain, ?_, ?_, ?_, ?_, ?_, ?_, ?_, ?_,
    ?_, ?_, ?_, ?_⟩
  · rw [hs]
    exact h.established
  · intro hd
    exact absurd (hs.symm.trans hd) hstate
  · rw [ho.channel.active]
    exact h.active
  · rw [hf]
    exact h.handlers
  · rw [ho.channel.active, ho.channel.revents]
    exact h.hangUp
  · intro hd
    exact absurd (hs.symm.trans hd) hstate
  · rw [hf, ho.channel.revents]
    exact h.resumes
  · rw [hf]
    exact h.inner
  · rw [hs, hf]
    exact h.framed
  · exact (ho.count_log (e := .connectionCallback true) id).trans h.ups
  · rw [hs]
    exact (ho.count_log (e := .connectionCallback false) id).trans h.downs
  · rw [hs, hcloses]
    have hcount : TcpConnection.closes c'.log = TcpConnection.closes c.log :=
      ho.count_log (e := .closeCallback) id
    rw [hcount]
    exact h.closes

theorem Life.note {e : Event} (h : Life point c) (he : e.isNote) : Life point (c.record e) :=
  { h with
    ups := (count_record_of_ne (ne_of_isNote he id)).trans h.ups
    downs := (count_record_of_ne (ne_of_isNote he id)).trans h.downs
    closes := by
      have hcount : TcpConnection.closes (c.record e).log = TcpConnection.closes c.log :=
        count_record_of_ne (ne_of_isNote he id)
      rw [hcount]
      exact h.closes }

theorem Life.disconnecting (h : Life point c) (hstate : c.state ≠ .kDisconnected) :
    Life point (c.setState .kDisconnecting) :=
  { h with
    established := nofun
    quiet := nofun
    waiting := nofun
    framed := fun _ => h.framed hstate
    downs := h.downs.trans (if_neg hstate)
    closes := Nat.le_trans h.closes (Nat.le_of_eq (if_neg hstate)) }

theorem Life.readingStarted (h : Life point c) (hstate : c.state ≠ .kDisconnected) :
    Life point c.readingStarted := by
  unfold TcpConnection.readingStarted
  split
  · exact { h with
      watched := Channel.watching_watched _ _
      plain := Channel.plain_enableReading h.plain
      quiet := fun hd => absurd hd hstate }
  · exact h

theorem Life.readingStopped (h : Life point c) : Life point c.readingStopped := by
  unfold TcpConnection.readingStopped
  split
  · exact { h with
      watched := Channel.watching_watched _ _
      plain := Channel.plain_disableReading h.plain
      quiet := by
        intro hd
        change c.channel.events.without kReadEvent = kNoneEvent
        rw [h.quiet hd]
        rfl }
  · exact h

theorem Life.place {eventHandling : Bool} {active : ActivePlace} (h : Life point c)
    (hpoint : point = .handlingEvents) (hactive : active = .current ∨ active = .handled) :
    Life point (c.setChannel
      { c.channel with eventHandling := eventHandling, active := active }) :=
  have hnot : active ≠ .waiting := by
    rcases hactive with rfl | rfl <;> nofun
  { h with
    watched := ⟨h.watched.index, h.watched.registered, h.watched.interest⟩
    active := .inl hpoint
    hangUp := fun hw => absurd hw hnot
    waiting := fun _ hw => absurd hw hnot }

theorem Life.received (h : Life point c) (hstate : c.state ≠ .kDisconnected)
    (hframes : c.frames = []) (hpoint : point = .handlingEvents) :
    Life point { c.record .messageCallback with frames := .handleRead :: c.frames } := by
  rw [hframes]
  have hcount : ∀ e : Event, e ≠ .messageCallback →
      (c.record .messageCallback).log.count e = c.log.count e :=
    fun _ he => count_record_of_ne he.symm
  have hzero : c.closings = 0 := by
    unfold TcpConnection.closings
    rw [hframes]
    rfl
  have hcloses := h.closes
  rw [hzero] at hcloses
  exact { h with
    handlers := fun _ _ _ => hpoint
    waiting := fun hd => absurd hd hstate
    resumes := fun hmem => by cases List.mem_singleton.mp hmem
    inner := nofun
    framed := fun _ hmem => by cases List.mem_singleton.mp hmem
    ups := (hcount (.connectionCallback true) nofun).trans h.ups
    downs := (hcount (.connectionCallback false) nofun).trans h.downs
    closes := by
      refine Nat.le_trans (Nat.le_of_eq ?_) hcloses
      exact congrArg (· + 0) (hcount .closeCallback nofun) }

/-- `handleClose` and the first branch of `connectDestroyed`, which differ in their frame. -/
theorem Life.disconnected {frame : Frame} (h : Life point c) (hstate : c.state ≠ .kDisconnected)
    (hresumes : frame = .handleClose .errorPart → c.channel.revents.meets readMask = false)
    (hhandler : frame.inHandler → point = .handlingEvents)
    (hinner : .connectDestroyed ∉ c.frames)
    (hwaiting : c.channel.active = .waiting → frame = .connectDestroyed) :
    Life point (((c.setState .kDisconnected).setChannel
      (c.channel.watching kNoneEvent)).callConnectionCallback frame) := by
  have hcount : ∀ e : Event, e ≠ .connectionCallback false →
      (c.record (.connectionCallback false)).log.count e = c.log.count e :=
    fun _ he => count_record_of_ne he.symm
  have hcloses := h.closes
  rw [if_neg hstate] at hcloses
  refine ⟨Channel.watching_watched _ _, Channel.plain_none, nofun, fun _ => rfl, h.active, ?_,
    h.hangUp, ?_, ?_, hinner, fun hd => absurd rfl hd, ?_, ?_, ?_⟩
  · intro f hf hin
    rcases List.mem_cons.mp hf with rfl | hf
    · exact hhandler hin
    · exact h.handlers f hf hin
  · intro _ hw
    exact .inl (hwaiting hw ▸ List.mem_cons_self)
  · intro hmem
    rcases List.mem_cons.mp hmem with heq | hmem
    · exact hresumes heq.symm
    · exact h.resumes hmem
  · exact (hcount (.connectionCallback true) nofun).trans h.ups
  · have hdowns := h.downs
    rw [if_neg hstate] at hdowns
    apply (count_record_self (c := c) (.connectionCallback false)).trans
    exact congrArg (· + 1) hdowns
  · change (c.record (.connectionCallback false)).log.count .closeCallback +
      (frame :: c.frames).countP Frame.isClose ≤ 1
    rw [hcount .closeCallback nofun, List.countP_cons]
    have hframe : (if frame.isClose = true then 1 else 0) ≤ 1 := by split <;> omega
    unfold TcpConnection.closes TcpConnection.closings at hcloses
    omega

theorem Life.destroyed (h : Life point c) (hstate : c.state = .kConnected) :
    Life point c.destroyed :=
  have hne : c.state ≠ .kDisconnected := isOpen_ne (.inl hstate)
  h.disconnected hne nofun False.elim (h.framed hne) fun _ => rfl

/-- A frame is left. -/
theorem Life.popped {frame : Frame} {rest : List Frame} (h : Life point c)
    (hframes : c.frames = frame :: rest)
    (hwaiting : frame = .connectDestroyed → c.channel.active ≠ .waiting) :
    Life point { c with frames := rest } := by
  have hinner := h.inner
  rw [hframes] at hinner
  have hmem : ∀ {f}, f ∈ rest → f ∈ c.frames := fun hf => hframes ▸ .tail _ hf
  have hclosings : rest.countP Frame.isClose ≤ c.closings := by
    unfold TcpConnection.closings
    rw [hframes, List.countP_cons]
    exact Nat.le_add_right _ _
  refine { h with
    handlers := fun f hf => h.handlers f (hmem hf)
    waiting := fun hd hw => (h.waiting hd hw).imp_left fun hmem' => ?_
    resumes := fun hf => h.resumes (hmem hf)
    inner := fun hf => hinner (List.mem_of_mem_tail hf)
    framed := fun _ => hinner
    closes := Nat.le_trans (Nat.add_le_add_left hclosings _) h.closes }
  rw [hframes] at hmem'
  rcases List.mem_cons.mp hmem' with heq | hmem'
  · exact absurd hw (hwaiting heq.symm)
  · exact hmem'

theorem Life.closeReported {resume : Resume} {rest : List Frame} (h : Life point c)
    (hframes : c.frames = .handleClose resume :: rest) : Life point (c.closeReported rest) := by
  have hpop := h.popped hframes nofun
  have hcount : ∀ e : Event, e ≠ .closeCallback →
      (c.record .closeCallback).log.count e = c.log.count e :=
    fun _ he => count_record_of_ne he.symm
  have hone := closings_cons hframes
  have hcloses := h.closes
  have hlog : TcpConnection.closes (c.record .closeCallback).log =
      TcpConnection.closes c.log + 1 := count_record_self _
  have hreported : Life point (({ c with frames := rest } : TcpConnection).record .closeCallback) :=
    { hpop with
      ups := (hcount (.connectionCallback true) nofun).trans h.ups
      downs := (hcount (.connectionCallback false) nofun).trans h.downs
      closes := by
        change TcpConnection.closes (c.record .closeCallback).log +
          rest.countP Frame.isClose ≤ if c.state = .kDisconnected then 1 else 0
        omega }
  unfold TcpConnection.closeReported
  split
  · exact { hreported with }
  · exact { hreported with }

/-- `Channel::remove` has ended well. -/
theorem Life.removed (h : Life point c) (hr : c.channel.Removable) :
    Life point (c.setChannel c.channel.removed) :=
  { h with
    watched := (Channel.removed_synced hr.events).toWatched }

/-- **The move lemma.** -/
theorem Life.move (h : Life point c) (hm : Move strict point c c') : Life point c' := by
  cases hm with
  | report hframes hpoint hr => exact h.report hframes hpoint hr
  | output hstate ho => exact h.output hstate ho
  | note he => exact h.note he
  | queue _ => exact { h with }
  | dequeue _ _ => exact { h with }
  | book _ _ => exact { h with }
  | input _ => exact { h with }
  | disconnecting hstate => exact h.disconnecting hstate
  | readingStarted hstate => exact h.readingStarted hstate
  | readingStopped _ => exact h.readingStopped
  | place _ hpoint _ hactive => exact h.place hpoint hactive
  | received hstate hframes hpoint => exact h.received hstate hframes hpoint
  | @closed resume hopen hframes _ hactive hpoint hresume =>
    refine h.disconnected (isOpen_ne hopen) (fun heq => hresume ?_) hpoint ?_ fun hw =>
      absurd hw hactive
    · cases heq
      rfl
    · rw [hframes]
      exact List.not_mem_nil
  | @returned frame rest hframes hframe =>
    apply h.popped hframes
    intro heq
    rcases hframe with hframe | hframe <;> cases heq.symm.trans hframe
  | closeReported hframes _ => exact h.closeReported hframes
  | @destroyed rest _ hstate _ =>
    have hdeq : Life point (c.dequeued rest) := { h with }
    exact hdeq.destroyed hstate
  | @removed rest _ hr =>
    have hdeq : Life point (c.dequeued rest) := { h with }
    exact hdeq.removed hr
  | @destroyReturned rest hframes hr =>
    exact (h.popped hframes fun _ => hr.not_waiting).removed hr

theorem Life.moves (h : Life point c) (hm : Moves strict point c c') : Life point c' := by
  induction hm with
  | refl => exact h
  | tail _ hm ih => exact ih.move hm

/-- The loop goes on to its next point. -/
theorem Life.advanced (h : Life point c) (hrests : c.rests point) :
    Life point.next (c.advanced point) := by
  cases point with
  | idle =>
    have hnone : ∀ f ∈ c.frames, f.inHandler → Point.idle.next = .handlingEvents := by
      rw [show c.frames = [] from hrests]
      nofun
    exact { h with
      active := .inr (.inl rfl)
      handlers := hnone }
  | polling =>
    exact { h with
      active := .inl rfl
      handlers := fun _ _ _ => rfl }
  | handlingEvents =>
    have hnone : ∀ f ∈ c.frames, f.inHandler → Point.handlingEvents.next = .handlingEvents := by
      rw [hrests.1]
      nofun
    exact { h with
      watched := ⟨h.watched.index, h.watched.registered, h.watched.interest⟩
      active := .inr (.inr rfl)
      handlers := hnone
      hangUp := nofun
      waiting := nofun }
  | callingFunctors =>
    have hnone : ∀ f ∈ c.frames, f.inHandler → Point.callingFunctors.next = .handlingEvents := by
      rw [hrests.1]
      nofun
    exact { h with
      active := .inr (.inr ((h.active.resolve_left nofun).resolve_left nofun))
      handlers := hnone }

/-- A connection begins its life in its first `connectionCallback_`. -/
theorem established_life {ownerInLoop writeComplete highWater : Bool} {highWaterMark : Nat} :
    Life point (new ownerInLoop writeComplete highWater highWaterMark).established where
  watched := Channel.watching_watched _ _
  plain := Channel.plain_enableReading Channel.plain_none
  established := nofun
  quiet := nofun
  active := .inr (.inr rfl)
  handlers f hf hin := by
    cases List.mem_singleton.mp hf
    exact hin.elim
  hangUp := nofun
  waiting := nofun
  resumes hmem := by cases List.mem_singleton.mp hmem
  inner := nofun
  framed _ hmem := by cases List.mem_singleton.mp hmem
  ups := rfl
  downs := rfl
  closes := Nat.le_refl 0

end Kaycc.TcpConnection
