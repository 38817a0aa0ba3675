/-
  Kaycc/TcpServerDestroy.lean
  ===========================
  **When the destruction of a server is safe for its connections.**

  `connectDestroyed` disconnects a connection in `kConnected` and takes any other
  one for closed.  A connection after `shutdown()` or `forceClose()` is neither:
  its channel still has events of interest, which `Channel::remove` asserts it has
  not, and its user is never told that it is down.  `EventLoop::removeChannel`
  moreover asserts that the channel is not one of those the loop is handling,
  unless it is the current one.

  A connection that is done with has no channel in the loop; only `stopReadInLoop`
  does not ask, and adds the channel of a connection that was read to the end again,
  so that the assertion of `~Channel` fails.

  `Accounted` says where a connection is on its way out: in `connections_`, with
  `connectDestroyed` still to run, or done with.
-/
import Kaycc.TcpConnectionChannel
import Kaycc.TcpServer

namespace Kaycc

open Transition Transition.System TcpConnection EPollPoller

namespace TcpServer

variable {s s' : TcpServer} {strict : Prop} {point : Point} {c c' : TcpConnection}

/-- The condition on the steps of a run: a connection that `~TcpServer` releases is
    connected, and its channel is not about to be handled in this round or has been; and no
    disconnected connection is started to be read or has its `state_` set, or is stopped to be
    read when its channel has been removed. -/
def spares (s : TcpServer) : Action → Prop
  | .conn i a => ∀ c ∈ s.conns[i]?, c.permits False a
  | .destroyNext i => ∀ c ∈ s.conns[i]?, c.state = .kConnected ∧
      (c.channel.active = .absent ∨ c.channel.active = .current)
  | _ => True

/-! ### On the way out -/

/-- The executions of `connectDestroyed` that are queued or in their `connectionCallback_`. -/
def destroyings (c : TcpConnection) : Nat :=
  c.functors.waiting.count .connectDestroyed + c.frames.count .connectDestroyed

/-- Where a connection of the server is on its way out. -/
structure Accounted (point : Point) (c : TcpConnection) : Prop where
  owner : c.ownerInLoop = true
  batch : point = .callingFunctors ∨ c.functors.batch = []
  whenOpen : c.state ≠ .kDisconnected → c.tracked = true
  whenTracked : c.tracked = true → destroyings c = 0
  whenClosed : c.state = .kDisconnected → c.tracked = true → c.closings = 1
  whenReleased : c.tracked = false → c.closings = 0 ∧ destroyings c ≤ 1
  index : c.tracked = true ∨ 0 < destroyings c → c.channel.index ≠ kNew
  framed : .connectDestroyed ∈ c.frames → c.channel.active = .absent ∨ c.channel.active = .current
  gone : c.tracked = false → destroyings c = 0 →
    c.channel.index = kNew ∧ c.channel.addedToLoop = false

theorem Accounted.closed_of_released (ha : Accounted point c) (h : c.tracked = false) :
    c.state = .kDisconnected := by
  by_contra hstate
  cases h.symm.trans (ha.whenOpen hstate)

theorem Accounted.released_of_pos (ha : Accounted point c) (h : 0 < destroyings c) :
    c.tracked = false := by
  apply Bool.eq_false_iff.mpr
  intro htracked
  rw [ha.whenTracked htracked] at h
  exact Nat.lt_irrefl 0 h

theorem destroyings_of_batch {rest : List Functor}
    (hbatch : c.functors.batch = .connectDestroyed :: rest) :
    destroyings c = destroyings (c.dequeued rest) + 1 := by
  have hwait := SwapQueue.waiting_of_batch_cons hbatch
  unfold destroyings
  rw [hwait, List.count_cons_self]
  exact Nat.add_right_comm _ _ _

theorem destroyings_of_frame {rest : List Frame}
    (hframes : c.frames = .connectDestroyed :: rest) :
    destroyings c = destroyings { c with frames := rest } + 1 := by
  unfold destroyings
  rw [hframes, List.count_cons_self]
  rfl

/-- A connection whose `connectDestroyed` is under way can be removed. -/
theorem Accounted.removable (hl : Life point c) (ha : Accounted point c)
    (hpos : 0 < destroyings c)
    (hactive : c.channel.active = .absent ∨ c.channel.active = .current) :
    c.channel.Removable :=
  ⟨ha.index (.inr hpos), hl.quiet (ha.closed_of_released (ha.released_of_pos hpos)), hactive⟩

/-! ### Moves keep the account -/

theorem destroyings_queueInLoop {f : Functor} (hf : f ≠ .connectDestroyed) :
    destroyings (c.queueInLoop f) = destroyings c := by
  unfold destroyings
  rw [show (c.queueInLoop f).functors.waiting = c.functors.waiting ++ [f] from
    SwapQueue.waiting_push _ _, List.count_append, List.count_eq_zero.mpr
    fun hmem => hf (List.mem_singleton.mp hmem).symm]
  rfl

/-- The account goes by the owner, the state and the counts; the channel only stays added, or
    out of the loop. -/
theorem Accounted.congr {point' : Point} (ha : Accounted point c)
    (howner : c'.ownerInLoop = c.ownerInLoop) (hstate : c'.state = c.state)
    (htracked : c'.tracked = c.tracked) (hcloses : c'.closings = c.closings)
    (hdes : destroyings c' = destroyings c)
    (hbatch : point' = .callingFunctors ∨ c'.functors.batch = [])
    (hindex : c.channel.index ≠ kNew → c'.channel.index ≠ kNew)
    (hgone : c.state = .kDisconnected →
      c.channel.index = kNew ∧ c.channel.addedToLoop = false →
      c'.channel.index = kNew ∧ c'.channel.addedToLoop = false)
    (hframed : .connectDestroyed ∈ c'.frames →
      c'.channel.active = .absent ∨ c'.channel.active = .current) :
    Accounted point' c' := by
  refine ⟨?_, hbatch, ?_, ?_, ?_, ?_, ?_, hframed, ?_⟩
  · rw [howner]
    exact ha.owner
  · rw [hstate, htracked]
    exact ha.whenOpen
  · rw [htracked, hdes]
    exact ha.whenTracked
  · rw [hstate, htracked, hcloses]
    exact ha.whenClosed
  · rw [htracked, hcloses, hdes]
    exact ha.whenReleased
  · rw [htracked, hdes]
    exact fun h => hindex (ha.index h)
  · rw [htracked, hdes]
    exact fun hnot hzero => hgone (ha.closed_of_released hnot) (ha.gone hnot hzero)

theorem Accounted.output (ha : Accounted point c) (hopen : c.state ≠ .kDisconnected)
    (ho : Output c c') : Accounted point c' := by
  have hs := ho.state
  have hf := ho.frames
  have htracked : c'.tracked = c.tracked := by rw [ho.others]
  have howner : c'.ownerInLoop = c.ownerInLoop := by rw [ho.others]
  have hcloses : c'.closings = c.closings := by
    unfold TcpConnection.closings
    rw [hf]
  have hdes : destroyings c' = destroyings c := by
    obtain ⟨fs, hp, hn⟩ := ho.pending
    have hnone : fs.count .connectDestroyed = 0 := List.count_eq_zero.mpr fun hmem => hn _ hmem
    unfold destroyings SwapQueue.waiting
    rw [hf, ho.batch, hp, ← List.append_assoc, List.count_append, hnone]
    rfl
  refine ha.congr howner hs htracked hcloses hdes ?_ ho.channel.index
    (fun hd => absurd hd hopen) ?_
  · rw [ho.batch]
    exact ha.batch
  · rw [hf, ho.channel.active]
    exact ha.framed

theorem Accounted.dequeue {f : Functor} {rest : List Functor} (ha : Accounted point c)
    (hbatch : c.functors.batch = f :: rest) (hf : f ≠ .connectDestroyed) :
    Accounted point (c.dequeued rest) := by
  have hdes : destroyings (c.dequeued rest) = destroyings c := by
    have hwait := SwapQueue.waiting_of_batch_cons hbatch
    unfold destroyings
    rw [hwait, List.count_cons_of_ne hf]
    rfl
  have hpoint : point = .callingFunctors := by
    apply ha.batch.resolve_right
    intro hnil
    rw [hnil] at hbatch
    cases hbatch
  exact ha.congr rfl rfl rfl rfl hdes (.inl hpoint) id (fun _ => id) ha.framed

theorem Accounted.queue {f : Functor} (ha : Accounted point c) (hf : f ≠ .connectDestroyed) :
    Accounted point (c.queueInLoop f) := by
  exact ha.congr rfl rfl rfl rfl (destroyings_queueInLoop hf) ha.batch id (fun _ => id) ha.framed

/-- A frame that belongs to neither count is pushed or left. -/
theorem Accounted.frames {frames : List Frame} (ha : Accounted point c)
    (hclosings : frames.countP Frame.isClose = c.frames.countP Frame.isClose)
    (hcount : frames.count .connectDestroyed = c.frames.count .connectDestroyed) :
    Accounted point { c with frames := frames } := by
  have hdes : destroyings { c with frames := frames } = destroyings c :=
    congrArg (c.functors.waiting.count .connectDestroyed + ·) hcount
  refine ha.congr rfl rfl rfl hclosings hdes ha.batch id (fun _ => id) fun hmem => ?_
  refine ha.framed (List.count_pos_iff.mp ?_)
  rw [← hcount]
  exact List.count_pos_iff.mpr hmem

theorem Accounted.closed {resume : Resume} (hl : Life point c) (ha : Accounted point c)
    (hopen : c.isOpen) (hframes : c.frames = []) : Accounted point (c.closed resume) := by
  have htracked := ha.whenOpen (isOpen_ne hopen)
  have hone : (c.closed resume).closings = 1 := by
    have hzero := hl.closings_of_open (isOpen_ne hopen)
    have hcons : (c.closed resume).closings = c.closings + 1 := closings_cons rfl
    omega
  have hdes : destroyings (c.closed resume) = destroyings c := rfl
  refine ⟨ha.owner, ha.batch, fun hd => absurd rfl hd, ?_, fun _ _ => hone, ?_,
    fun _ => Channel.watching_index_ne _ _, ?_,
    fun hnot => absurd (hnot.symm.trans htracked) Bool.false_ne_true⟩
  · rw [hdes]
    exact ha.whenTracked
  · exact fun hnot => absurd (hnot.symm.trans htracked) Bool.false_ne_true
  · intro hmem
    change _ ∈ .handleClose resume :: c.frames at hmem
    rw [hframes] at hmem
    cases List.mem_singleton.mp hmem

/-- `closeCallback_` takes the connection out of `connections_` and queues
    `connectDestroyed`. -/
theorem Accounted.closeReported {resume : Resume} {rest : List Frame} (hl : Life point c)
    (ha : Accounted point c) (hframes : c.frames = .handleClose resume :: rest) :
    Accounted point (c.closeReported rest) := by
  have hpos := closings_cons hframes
  have hstate : c.state = .kDisconnected := by
    by_contra hstate
    have := hl.closings_of_open hstate
    omega
  have htracked : c.tracked = true := by
    apply eq_true_of_ne_false
    intro hnot
    have := (ha.whenReleased hnot).1
    omega
  have hone := ha.whenClosed hstate htracked
  have hzero := ha.whenTracked htracked
  have hcount : c.frames.count .connectDestroyed = rest.count .connectDestroyed := by
    rw [hframes]
    rfl
  have hrest : .connectDestroyed ∉ rest := by
    apply List.count_eq_zero.mp
    unfold destroyings at hzero
    omega
  have heq : c.closeReported rest = { ({ c with frames := rest }.record .closeCallback) with
      tracked := false, functors := c.functors.push .connectDestroyed } := by
    unfold TcpConnection.closeReported
    rw [if_pos ha.owner]
    rfl
  have hdes : destroyings (c.closeReported rest) = 1 := by
    rw [heq]
    unfold destroyings at hzero ⊢
    rw [SwapQueue.waiting_push, List.count_append, List.count_singleton_self]
    change _ + rest.count .connectDestroyed = 1
    omega
  have hclosings : (c.closeReported rest).closings = 0 := by
    rw [heq]
    change rest.countP Frame.isClose = 0
    omega
  have hfalse : (c.closeReported rest).tracked = false := by rw [heq]
  refine ⟨?_, ?_, ?_, ?_, ?_, fun _ => ⟨hclosings, Nat.le_of_eq hdes⟩, ?_, ?_, ?_⟩
  · rw [heq]
    exact ha.owner
  · rw [heq]
    exact ha.batch
  · intro hne
    rw [heq] at hne
    exact absurd hstate hne
  · exact fun ht => absurd (hfalse.symm.trans ht) Bool.false_ne_true
  · exact fun _ ht => absurd (hfalse.symm.trans ht) Bool.false_ne_true
  · intro _
    rw [heq]
    exact ha.index (.inl htracked)
  · intro hmem
    rw [heq] at hmem
    exact absurd hmem hrest
  · exact fun _ hnone => absurd (hdes.symm.trans hnone) Nat.one_ne_zero

/-- `connectDestroyed` is done. -/
theorem Accounted.removed (howner : c.ownerInLoop = true)
    (hbatch : point = .callingFunctors ∨ c.functors.batch = [])
    (hstate : c.state = .kDisconnected) (htracked : c.tracked = false) (hcloses : c.closings = 0)
    (hzero : destroyings c = 0) : Accounted point (c.setChannel c.channel.removed) where
  owner := howner
  batch := hbatch
  whenOpen hne := absurd hstate hne
  whenTracked _ := hzero
  whenClosed _ ht := absurd (htracked.symm.trans ht) Bool.false_ne_true
  whenReleased _ := ⟨hcloses, hzero ▸ Nat.zero_le 1⟩
  index h := by
    rcases h with h | h
    · cases htracked.symm.trans h
    · change 0 < destroyings c at h
      omega
  framed hmem := by
    have hpos : 0 < c.frames.count .connectDestroyed := List.count_pos_iff.mpr hmem
    unfold destroyings at hzero
    omega
  gone _ _ := ⟨rfl, rfl⟩

/-- A connection that is done with is not stopped to be read any more. -/
theorem Accounted.readingStopped (ha : Accounted point c)
    (hp : c.permitsFunctor strict .stopReadInLoop) : Accounted point c.readingStopped := by
  unfold TcpConnection.readingStopped
  split
  · rename_i hstop
    refine { ha with index := fun _ => Channel.watching_index_ne _ _, gone := ?_ }
    intro hnot hzero
    obtain ⟨hread, hwants⟩ := hp (.inr (ha.gone hnot hzero).1) (ha.closed_of_released hnot)
    rw [hread, hwants] at hstop
    exact (hstop.elim Bool.false_ne_true Bool.false_ne_true).elim
  · exact ha

/-- **Moves keep the account.** -/
theorem Accounted.move (hl : Life point c) (ha : Accounted point c)
    (hm : Move strict point c c') : Accounted point c' := by
  cases hm with
  | report hframes _ _ =>
    refine { ha with framed := fun hmem => ?_ }
    change _ ∈ c.frames at hmem
    rw [hframes] at hmem
    cases hmem
  | output hstate ho => exact ha.output hstate ho
  | note _ => exact { ha with }
  | queue hf => exact ha.queue hf
  | dequeue hbatch hf => exact ha.dequeue hbatch hf
  | book _ _ => exact { ha with }
  | input _ => exact { ha with }
  | disconnecting hstate =>
    exact { ha with
      whenOpen := fun _ => ha.whenOpen hstate
      whenClosed := nofun }
  | readingStarted hstate =>
    unfold TcpConnection.readingStarted
    split
    · exact { ha with
        index := fun _ => Channel.watching_index_ne _ _
        gone := fun hnot => absurd (ha.closed_of_released hnot) hstate }
    · exact ha
  | readingStopped hp => exact ha.readingStopped hp
  | place _ _ hframes _ => exact { ha with framed := fun hmem => absurd hmem hframes }
  | received _ _ _ =>
    have hlog : Accounted point (c.record .messageCallback) := { ha with }
    exact hlog.frames rfl rfl
  | closed hopen hframes _ _ _ _ => exact ha.closed hl hopen hframes
  | @returned frame rest hframes hframe =>
    refine ha.frames ?_ ?_
    · rw [hframes]
      rcases hframe with rfl | rfl <;> rfl
    · rw [hframes]
      rcases hframe with rfl | rfl <;> rfl
  | closeReported hframes _ => exact ha.closeReported hl hframes
  | @destroyed rest hbatch hstate _ =>
    -- no `connectDestroyed` is queued for an open connection
    have hpos := destroyings_of_batch hbatch
    have hzero := ha.whenTracked (ha.whenOpen (isOpen_ne (.inl hstate)))
    omega
  | @removed rest hbatch _ =>
    have hpos := destroyings_of_batch hbatch
    have htracked := ha.released_of_pos (by omega)
    have hreleased := ha.whenReleased htracked
    have hzero : destroyings (c.dequeued rest) = 0 := by omega
    have hpoint : point = .callingFunctors := by
      apply ha.batch.resolve_right
      intro hnil
      rw [hnil] at hbatch
      cases hbatch
    exact Accounted.removed ha.owner (.inl hpoint) (ha.closed_of_released htracked) htracked
      hreleased.1 hzero
  | @destroyReturned rest hframes _ =>
    have hpos := destroyings_of_frame hframes
    have htracked := ha.released_of_pos (by omega)
    have hreleased := ha.whenReleased htracked
    have hzero : destroyings { c with frames := rest } = 0 := by omega
    have hclosings : c.frames.countP Frame.isClose = rest.countP Frame.isClose := by
      rw [hframes]
      rfl
    exact Accounted.removed (c := { c with frames := rest }) ha.owner ha.batch
      (ha.closed_of_released htracked) htracked (hclosings.symm.trans hreleased.1) hzero

theorem Accounted.moves (hl : Life point c) (ha : Accounted point c)
    (hm : Moves strict point c c') : Life point c' ∧ Accounted point c' := by
  induction hm with
  | refl => exact ⟨hl, ha⟩
  | tail _ hm ih => exact ⟨ih.1.move hm, ih.2.move ih.1 hm⟩

/-- What the moves of a connection leave of its server. -/
theorem move_server (hm : Move strict point c c') :
    c'.serverDestroyed = c.serverDestroyed ∧ (c.tracked = false → c'.tracked = false) := by
  cases hm with
  | output _ ho =>
    rw [ho.others]
    exact ⟨rfl, id⟩
  | readingStarted _ =>
    unfold TcpConnection.readingStarted
    split <;> exact ⟨rfl, id⟩
  | readingStopped _ =>
    unfold TcpConnection.readingStopped
    split <;> exact ⟨rfl, id⟩
  | closeReported _ _ =>
    unfold TcpConnection.closeReported
    dsimp only
    split
    · exact ⟨rfl, fun _ => rfl⟩
    · exact ⟨rfl, id⟩
  | _ => exact ⟨rfl, id⟩

theorem moves_server (hm : Moves strict point c c') :
    c'.serverDestroyed = c.serverDestroyed ∧ (c.tracked = false → c'.tracked = false) := by
  induction hm with
  | refl => exact ⟨rfl, id⟩
  | tail _ hm ih => exact ⟨(move_server hm).1.trans ih.1, (move_server hm).2 ∘ ih.2⟩

theorem Accounted.advanced (ha : Accounted point c) (hrests : c.rests point) :
    Accounted point.next (c.advanced point) := by
  cases point with
  | idle => exact { ha with batch := .inr (ha.batch.resolve_left nofun) }
  | polling => exact { ha with batch := .inr (ha.batch.resolve_left nofun) }
  | handlingEvents =>
    have hdes : destroyings (c.advanced .handlingEvents) = destroyings c := by
      change c.functors.swap.waiting.count .connectDestroyed + _ = _
      rw [SwapQueue.waiting_swap (ha.batch.resolve_left nofun)]
      rfl
    exact ha.congr rfl rfl rfl rfl hdes (.inl rfl) id (fun _ => id) fun _ => .inl rfl
  | callingFunctors => exact { ha with batch := .inr hrests.2 }

/-! ### The invariant of the server -/

structure Inv (s : TcpServer) : Prop where
  life : ∀ c ∈ s.conns, Life s.point c
  accounted : ∀ c ∈ s.conns, Accounted s.point c
  handled : ∀ c ∈ s.conns, Handled c
  server : ∀ c ∈ s.conns, c.serverDestroyed = true → s.phase = .destroyed
  released : s.phase = .destroyed → ∀ c ∈ s.conns, c.tracked = false

/-- One connection changes. -/
theorem Inv.set {i : Nat} (hi : Inv s) (hl : Life s.point c') (ha : Accounted s.point c')
    (hh : Handled c') (hserver : c'.serverDestroyed = true → s.phase = .destroyed)
    (hreleased : s.phase = .destroyed → c'.tracked = false) :
    Inv { s with conns := s.conns.set i c' } := by
  refine ⟨fun d hd => ?_, fun d hd => ?_, fun d hd => ?_, fun d hd => ?_, fun hp d hd => ?_⟩ <;>
    rcases List.mem_or_eq_of_mem_set hd with hd | rfl
  · exact hi.life d hd
  · exact hl
  · exact hi.accounted d hd
  · exact ha
  · exact hi.handled d hd
  · exact hh
  · exact hi.server d hd
  · exact hserver
  · exact hi.released hp d hd
  · exact hreleased hp

/-- `~TcpServer` releases a connected connection. -/
theorem release_eq (hl : Life point c) (ha : Accounted point c) (hstate : c.state = .kConnected) :
    c.release = .ok { c with tracked := false }.destroyed := by
  have hw : (TcpConnection.channel { c with tracked := false }).Watched := hl.watched
  unfold release
  rw [if_pos ha.owner]
  exact connectDestroyed_eq hw hstate

theorem Accounted.destroyed (hl : Life point c) (ha : Accounted point c)
    (hstate : c.state = .kConnected)
    (hactive : c.channel.active = .absent ∨ c.channel.active = .current) :
    Accounted point { c with tracked := false }.destroyed := by
  have hopen : c.state ≠ .kDisconnected := isOpen_ne (.inl hstate)
  have hzero := ha.whenTracked (ha.whenOpen hopen)
  have hdes : destroyings { c with tracked := false }.destroyed = destroyings c + 1 := by
    unfold destroyings
    change _ + (Frame.connectDestroyed :: c.frames).count .connectDestroyed = _
    rw [List.count_cons_self]
    rfl
  refine ⟨ha.owner, ha.batch, fun hd => absurd rfl hd, nofun, nofun, fun _ => ⟨?_, ?_⟩,
    fun _ => Channel.watching_index_ne _ _, fun _ => hactive, ?_⟩
  · exact hl.closings_of_open hopen
  · exact Nat.le_of_eq (hdes.trans (congrArg (· + 1) hzero))
  · exact fun _ hnone => absurd (hdes.symm.trans hnone) (Nat.succ_ne_zero _)

/-! ### Steps -/

/-- **The step lemma.** -/
theorem Inv.step {a : Action} (hi : Inv s) (hen : s.enabled a) (hcond : s.spares a)
    (h : s.step a = .ok s') : Inv s' := by
  cases a with
  | newConnection writeComplete highWater highWaterMark =>
    rw [TcpServer.step, connectEstablished_eq rfl Channel.new_synced.toWatched, ok_bind] at h
    obtain rfl := Except.ok.inj h
    set c := (TcpConnection.new true writeComplete highWater highWaterMark).established with hc
    have hone : Accounted s.point c :=
      ⟨rfl, .inr rfl, fun _ => rfl, fun _ => rfl, nofun, nofun,
        fun _ => Channel.watching_index_ne _ _, fun _ => .inl rfl, nofun⟩
    refine ⟨?_, ?_, ?_, ?_, ?_⟩
    · intro d hd
      rcases List.mem_append.mp hd with hd | hd
      · exact hi.life d hd
      · rw [List.mem_singleton.mp hd]
        exact established_life
    · intro d hd
      rcases List.mem_append.mp hd with hd | hd
      · exact hi.accounted d hd
      · rw [List.mem_singleton.mp hd]
        exact hone
    · intro d hd
      rcases List.mem_append.mp hd with hd | hd
      · exact hi.handled d hd
      · rw [List.mem_singleton.mp hd]
        exact nofun
    · intro d hd
      rcases List.mem_append.mp hd with hd | hd
      · exact hi.server d hd
      · rw [List.mem_singleton.mp hd]
        exact nofun
    · intro hp
      cases hen.1.symm.trans hp
  | conn i a =>
    obtain ⟨c, hc, hen⟩ := hen
    have hmem := List.mem_of_getElem? hc
    simp only [TcpServer.step, Option.mem_def.mp hc] at h
    obtain ⟨c', hstep, hs'⟩ := bind_eq_ok.mp h
    obtain rfl := Except.ok.inj hs'
    rcases step_outcome (hi.life c hmem) hen.1 (hcond c hc) with ⟨d, heq, hm⟩ | ⟨e, heq, _⟩
    · obtain rfl : c' = d := Except.ok.inj (hstep.symm.trans heq)
      obtain ⟨hl, ha⟩ := (hi.accounted c hmem).moves (hi.life c hmem) hm
      obtain ⟨hserver, htracked⟩ := moves_server hm
      have hh := step_handled (hi.life c hmem).watched (hi.handled c hmem) hstep
      refine hi.set hl ha hh ?_ fun hp => htracked (hi.released hp c hmem)
      rw [hserver]
      exact hi.server c hmem
    · cases hstep.symm.trans heq
  | advance =>
    obtain rfl := Except.ok.inj h
    have hback : ∀ d ∈ s.conns.map (·.advanced s.point),
        ∃ c ∈ s.conns, c.advanced s.point = d := fun d hd => List.mem_map.mp hd
    have hsame : ∀ c : TcpConnection, (c.advanced s.point).serverDestroyed = c.serverDestroyed ∧
        (c.advanced s.point).tracked = c.tracked ∧ (Handled c → Handled (c.advanced s.point)) := by
      intro c
      unfold TcpConnection.advanced
      split <;> exact ⟨rfl, rfl, id⟩
    refine ⟨fun d hd => ?_, fun d hd => ?_, fun d hd => ?_, fun d hd => ?_, fun hp d hd => ?_⟩ <;>
      obtain ⟨c, hc, rfl⟩ := hback d hd
    · exact (hi.life c hc).advanced (hen.2 c hc)
    · exact (hi.accounted c hc).advanced (hen.2 c hc)
    · exact (hsame c).2.2 (hi.handled c hc)
    · rw [(hsame c).1]
      exact hi.server c hc
    · rw [(hsame c).2.1]
      exact hi.released hp c hc
  | beginDestroy =>
    obtain rfl := Except.ok.inj h
    refine ⟨hi.life, hi.accounted, hi.handled, ?_, nofun⟩
    intro c hc hd
    cases hen.1.symm.trans (hi.server c hc hd)
  | destroyNext i =>
    obtain ⟨hphase, -, c, hc, -⟩ := hen
    have hmem := List.mem_of_getElem? hc
    obtain ⟨hstate, hactive⟩ := hcond c hc
    have hl := hi.life c hmem
    have ha := hi.accounted c hmem
    simp only [TcpServer.step, Option.mem_def.mp hc, release_eq hl ha hstate, ok_bind] at h
    obtain rfl := Except.ok.inj h
    have hlife : Life s.point { c with tracked := false } := { hl with }
    have hh : Handled { c with tracked := false }.destroyed :=
      (hi.handled c hmem).grown rfl (List.subset_cons_self _ _)
    refine hi.set (hlife.destroyed hstate) (ha.destroyed hl hstate hactive) hh
      (hi.server c hmem) fun _ => rfl
  | endDestroy =>
    obtain rfl := Except.ok.inj h
    refine ⟨fun d hd => ?_, fun d hd => ?_, fun d hd => ?_, fun _ _ _ => rfl, fun _ d hd => ?_⟩ <;>
      obtain ⟨c, hc, rfl⟩ := List.mem_map.mp hd
    · exact { hi.life c hc with }
    · exact { hi.accounted c hc with }
    · exact hi.handled c hc
    · exact hen.2.2 c hc

theorem init_inv (h : system.init s) : Inv s := by
  have hnone : ∀ {P : TcpConnection → Prop}, ∀ c ∈ s.conns, P c := by
    intro P c hc
    rw [h.1] at hc
    cases hc
  exact ⟨hnone, hnone, hnone, hnone, fun _ => hnone⟩

theorem inv_step {a : Action} (hi : Inv s) (h : (system.restrict spares).Step s a s') : Inv s' :=
  hi.step h.1.1 h.condition h.2

theorem reachable_inv (h : (system.restrict spares).Reachable s) : Inv s :=
  h.invariant (fun _ => init_inv) fun _ _ _ hi hst => inv_step hi hst

/-- **What may stop a step**: only `handleClose`, when it is called for a connection that has
    been closed without events of interest or has been stopped to be read since. -/
theorem Inv.step_error {a : Action} {e : Assertion} (hi : Inv s) (hen : s.enabled a)
    (hcond : s.spares a) (h : s.step a = .error e) : e = .handleCloseConnected := by
  cases a with
  | newConnection writeComplete highWater highWaterMark =>
    rw [TcpServer.step, connectEstablished_eq rfl Channel.new_synced.toWatched] at h
    cases h
  | conn i a =>
    obtain ⟨c, hc, hen⟩ := hen
    have hmem := List.mem_of_getElem? hc
    have hl := hi.life c hmem
    have ha := hi.accounted c hmem
    simp only [TcpServer.step, Option.mem_def.mp hc] at h
    rcases bind_eq_error.mp h with hstep | ⟨_, _, hpure⟩
    · rcases step_outcome hl hen.1 (hcond c hc) with ⟨_, heq, _⟩ | ⟨e', heq, hstops⟩
      · cases hstep.symm.trans heq
      · obtain rfl : e = e' := Except.error.inj (hstep.symm.trans heq)
        cases hstops with
        | handleClose _ _ _ => rfl
        | serverDestroyed hframes hserver =>
          have hreleased := hi.released (hi.server c hmem hserver) c hmem
          have hpos := closings_cons hframes
          have hzero := (ha.whenReleased hreleased).1
          omega
        | notTracked hframes _ htracked =>
          have hpos := closings_cons hframes
          have hzero := (ha.whenReleased htracked).1
          omega
        | removeByFunctor hbatch _ hremove =>
          have hpos := destroyings_of_batch hbatch
          have hpoint : s.point = .callingFunctors := by
            apply ha.batch.resolve_right
            intro hnil
            rw [hnil] at hbatch
            cases hbatch
          have hactive := hl.active
          rw [hpoint] at hactive
          have hr := ha.removable hl (by omega)
            (.inl ((hactive.resolve_left nofun).resolve_left nofun))
          cases hremove.symm.trans (hr.remove hl.watched)
        | removeByFrame hframes hremove =>
          have hpos := destroyings_of_frame hframes
          have hr := ha.removable hl (by omega) (ha.framed (hframes ▸ List.mem_cons_self))
          cases hremove.symm.trans (hr.remove hl.watched)
    · cases hpure
  | advance => cases h
  | beginDestroy => cases h
  | destroyNext i =>
    obtain ⟨-, -, c, hc, -⟩ := hen
    have hmem := List.mem_of_getElem? hc
    obtain ⟨hstate, -⟩ := hcond c hc
    simp only [TcpServer.step, Option.mem_def.mp hc,
      release_eq (hi.life c hmem) (hi.accounted c hmem) hstate] at h
    cases h
  | endDestroy => cases h

/-! ### The theorem -/

/-- A connection that is done with, none of whose callbacks is under way, can be destroyed. -/
theorem Accounted.destruct_ok (hl : Life point c) (ha : Accounted point c) (hh : Handled c)
    (htracked : c.tracked = false) (hzero : destroyings c = 0) (hframes : c.frames = []) :
    c.destruct = .ok () := by
  obtain ⟨hindex, hadded⟩ := ha.gone htracked hzero
  have hhandling : c.channel.eventHandling = false := by
    apply Bool.eq_false_iff.mpr
    intro hset
    obtain ⟨f, hf, -⟩ := hh hset
    rw [hframes] at hf
    cases hf
  have hregistered : c.channel.entry.registered = false :=
    Bool.eq_false_iff.mpr fun hreg => hl.watched.registered.mp hreg hindex
  rw [destruct, check_eq_ok (ha.closed_of_released htracked), ok_bind, Channel.destruct,
    check_eq_ok hhandling, ok_bind, check_eq_ok hadded, ok_bind, check_eq_ok hregistered]

/-- **The destruction of a server is safe for its connections** in the runs that spare them.
    No assertion of `Channel::remove`, of the poller or of the server fails;
    `connectDestroyed` finds no events of interest when it goes on to remove the channel; a
    connection out of `connections_` passes the assertion of `~TcpConnection`, and those of
    `~Channel` as well when `connectDestroyed` and all callbacks have returned; and each
    connection, which has reported to be up, reports to be down at most once, and has done
    so when the server is destroyed. -/
theorem destruction_safe (h : (system.restrict spares).Reachable s) :
    (∀ a e, s.enabled a → s.spares a → s.step a = .error e → e = .handleCloseConnected) ∧
    ∀ c ∈ s.conns,
      (.connectDestroyed ∈ c.frames → c.channel.isNoneEvent = true) ∧
      (c.tracked = false → c.destruct ≠ .error .dtorDisconnected) ∧
      (c.tracked = false → destroyings c = 0 → c.frames = [] → c.destruct = .ok ()) ∧
      ups c.log = 1 ∧ downs c.log ≤ 1 ∧ (s.phase = .destroyed → downs c.log = 1) := by
  have hi := reachable_inv h
  refine ⟨fun a e => hi.step_error, fun c hc => ?_⟩
  have hl := hi.life c hc
  have ha := hi.accounted c hc
  refine ⟨?_, ?_, ha.destruct_ok hl (hi.handled c hc), hl.ups, ?_, ?_⟩
  · intro hmem
    have hstate : c.state = .kDisconnected := by
      by_contra hstate
      exact hl.framed hstate hmem
    exact decide_eq_true (hl.quiet hstate)
  · intro htracked hdtor
    rw [destruct, check_eq_ok (ha.closed_of_released htracked), ok_bind, Channel.destruct] at hdtor
    simp only [bind_eq_error] at hdtor
    rcases hdtor with hd | ⟨_, _, hd | ⟨_, _, hd⟩⟩ <;> cases of_check_error hd
  · rw [hl.downs]
    split <;> omega
  · intro hp
    rw [hl.downs, if_pos (ha.closed_of_released (hi.released hp c hc))]

/-- **A half-closed connection is not released safely**: the assertion of `Channel::remove`
    fails while its channel has events of interest, and otherwise that of `~TcpConnection`
    will. -/
theorem release_half_closed (howner : c.ownerInLoop = true) (hstate : c.state = .kDisconnecting) :
    (c.channel.isNoneEvent = false → c.release = .error .channelRemoveIsNoneEvent) ∧
      (c.release = .ok c' → c'.destruct = .error .dtorDisconnected) := by
  have hrelease : c.release = (c.channel.remove >>= fun channel =>
      pure (({ c with tracked := false } : TcpConnection).setChannel channel)) := by
    rw [release, if_pos howner, connectDestroyed, if_neg]
    intro hconnected
    cases hstate.symm.trans hconnected
  rw [hrelease]
  constructor
  · intro hnone
    have hcheck : check (c.channel.isNoneEvent = true) .channelRemoveIsNoneEvent =
        .error .channelRemoveIsNoneEvent := if_neg (ne_true_of_eq_false hnone)
    rw [Channel.remove, hcheck]
    rfl
  · intro h
    obtain ⟨channel, -, hc'⟩ := bind_eq_ok.mp h
    obtain rfl := Except.ok.inj hc'
    have hcheck : check (c.state = .kDisconnected) .dtorDisconnected =
        .error .dtorDisconnected := by
      apply if_neg
      intro hd
      cases hstate.symm.trans hd
    change (check (c.state = .kDisconnected) .dtorDisconnected >>= _) = _
    rw [hcheck]
    rfl

/-- **A connection that is done with is not stopped to be read safely**: its channel is in the
    loop again, and the assertion of `~Channel` will fail. -/
theorem removed_stopped_read (hw : c.channel.Watched) (hhandling : c.channel.eventHandling = false)
    (hnot : ¬ c.permitsFunctor False .stopReadInLoop) :
    c.stopReadInLoop = .ok c.readingStopped ∧
      c.readingStopped.destruct = .error .channelNotAdded := by
  obtain ⟨_, hnot⟩ := Classical.not_imp.mp hnot
  obtain ⟨hstate, hnot⟩ := Classical.not_imp.mp hnot
  have hstop : c.reading = true ∨ c.channel.isReading = true := by
    by_contra hneither
    obtain ⟨hread, hwants⟩ := not_or.mp hneither
    exact hnot ⟨Bool.eq_false_iff.mpr hread, Bool.eq_false_iff.mpr hwants⟩
  have hch : c.readingStopped.channel = c.channel.watching (c.channel.events.without kReadEvent) ∧
      c.readingStopped.state = c.state := by
    unfold TcpConnection.readingStopped
    rw [if_pos hstop]
    exact ⟨rfl, rfl⟩
  have hset : c.readingStopped.channel.eventHandling = false := by
    rw [hch.1]
    exact hhandling
  have hadded : check (c.readingStopped.channel.addedToLoop = false) .channelNotAdded =
      .error .channelNotAdded := by
    apply if_neg
    rw [hch.1]
    exact nofun
  refine ⟨stopReadInLoop_eq hw, ?_⟩
  rw [destruct, check_eq_ok (hch.2.trans hstate), ok_bind, Channel.destruct, check_eq_ok hset,
    ok_bind, hadded]
  rfl

/-! ### Runs -/

instance (s : TcpServer) : (a : Action) → Decidable (s.spares a)
  | .newConnection _ _ _ => .isTrue trivial
  | .conn i a => inferInstanceAs (Decidable (∀ c ∈ s.conns[i]?, c.permits False a))
  | .advance => .isTrue trivial
  | .beginDestroy => .isTrue trivial
  | .destroyNext i => inferInstanceAs (Decidable (∀ c ∈ s.conns[i]?, c.state = .kConnected ∧
      (c.channel.active = .absent ∨ c.channel.active = .current)))
  | .endDestroy => .isTrue trivial

def started : TcpServer := ⟨[], .handlingEvents, .alive⟩

theorem started_init : system.init started := ⟨rfl, rfl⟩

def accepts : Action := .newConnection false false 64

/-- The user callback of a connection returns. -/
def returns (i : Nat) : Action := .conn i (.callbackReturn (.bytes []) (.wrote 0))

/-- A call in the loop's thread that writes nothing. -/
def calls (i : Nat) (k : Call) : Action := .conn i (.call k (.wrote 0))

set_option maxRecDepth 8000 in
/-- Of two connections the first is closed by its peer, and the second is connected when the
    server is destroyed; then both can be destroyed as well. -/
theorem destruction_safe_two :
    ∃ s, (system.restrict spares).Reachable s ∧ s.phase = .destroyed ∧ s.conns.length = 2 ∧
      ∀ c ∈ s.conns, downs c.log = 1 ∧ c.destruct = .ok () := by
  have hrun : ∃ s, (system.restrict spares).Reachable s ∧ s.phase = .destroyed ∧
      s.conns.length = 2 ∧ s.conns.map (fun c => (c.tracked, destroyings c, c.frames)) =
        [(false, 0, []), (false, 0, [])] :=
    ⟨_, reachable_of_exec [accepts, returns 0, accepts, returns 1, .advance, .advance, .advance,
      .conn 0 (.report { pollin := true }), .advance,
      .conn 0 (.handleEvent (.bytes []) (.wrote 0)), returns 0, .advance,
      .conn 0 (.runFunctor (.wrote 0)), .advance, .beginDestroy, .destroyNext 1, returns 1,
      .endDestroy] started_init rfl, rfl, rfl, rfl⟩
  obtain ⟨s, hs, hphase, htwo, hdone⟩ := hrun
  refine ⟨s, hs, hphase, htwo, fun c hc => ?_⟩
  have hmem : (c.tracked, destroyings c, c.frames) ∈ [(false, 0, []), (false, 0, [])] := by
    rw [← hdone]
    exact List.mem_map_of_mem hc
  have hc' : (c.tracked, destroyings c, c.frames) = (false, 0, []) := by
    simpa only [List.mem_cons, List.not_mem_nil, or_false, or_self] using hmem
  obtain ⟨htracked, hrest⟩ := Prod.mk.inj hc'
  obtain ⟨hzero, hframes⟩ := Prod.mk.inj hrest
  obtain ⟨-, -, hdestruct, -, -, hdown⟩ := (destruction_safe hs).2 c hc
  exact ⟨hdown hphase, hdestruct htracked hzero hframes⟩

set_option maxRecDepth 8000 in
/-- **A half-closed connection fails the assertion of `Channel::remove`** when its server is
    destroyed. -/
theorem half_closed_destroyed :
    ∃ s, system.Reachable s ∧ system.enabled s (.destroyNext 0) ∧
      system.step s (.destroyNext 0) = .error .channelRemoveIsNoneEvent :=
  ⟨_, reachable_of_exec [accepts, returns 0, calls 0 .shutdown, .advance, .advance,
    .beginDestroy] started_init rfl, by decide, rfl⟩

set_option maxRecDepth 8000 in
/-- **One that has been stopped to be read is never reported to be down**, and fails the
    assertion of `~TcpConnection`. -/
theorem half_closed_never_down :
    ∃ s, system.Reachable s ∧ s.phase = .destroyed ∧ ∃ c ∈ s.conns, ups c.log = 1 ∧
      downs c.log = 0 ∧ c.destruct = .error .dtorDisconnected :=
  ⟨_, reachable_of_exec [accepts, returns 0, calls 0 .stopRead, calls 0 .shutdown, .advance,
    .advance, .beginDestroy, .destroyNext 0, .endDestroy] started_init rfl, rfl, _,
    List.mem_singleton_self _, rfl, rfl, rfl⟩

end TcpServer

end Kaycc
