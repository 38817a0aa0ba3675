/-
  Kaycc/TcpConnectionStep.lean
  ============================
  **The outcome of a step of a connection.**

  Every enabled step that the run permits is a sequence of moves, or stops where
  `Stops` says: in `handleClose`, when the events of a disconnected connection are
  handled; in the server, when it is destroyed or does not know the connection; in
  `Channel::remove`.  No other assertion fails.
-/
import Kaycc.TcpConnectionMoves

namespace Kaycc.TcpConnection

open Relation

variable {strict : Prop} {point : Point} {c c' : TcpConnection} {r : ReadResult} {w : WriteResult}

/-- The assertions that may stop a step, and where. -/
inductive Stops (c : TcpConnection) : Assertion → Prop where
  | handleClose (hstate : c.state = .kDisconnected) (hframes : c.frames = [])
      (hactive : c.channel.active = .waiting) : Stops c .handleCloseConnected
  | serverDestroyed {resume rest} (hframes : c.frames = .handleClose resume :: rest)
      (h : c.serverDestroyed = true) : Stops c .serverAlive
  | notTracked {resume rest} (hframes : c.frames = .handleClose resume :: rest)
      (howner : c.ownerInLoop = true) (h : c.tracked = false) : Stops c .removeConnectionErased
  | removeByFunctor {rest e} (hbatch : c.functors.batch = .connectDestroyed :: rest)
      (hstate : c.state ≠ .kConnected) (h : c.channel.remove = .error e) : Stops c e
  | removeByFrame {rest e} (hframes : c.frames = .connectDestroyed :: rest)
      (h : c.channel.remove = .error e) : Stops c e

/-- A computation that ends and makes moves. -/
def Goes (strict : Prop) (point : Point) (c : TcpConnection) (x : Except Assertion TcpConnection) :
    Prop :=
  ∃ c', x = .ok c' ∧ Moves strict point c c'

/-- A computation that ends and makes moves, or stops. -/
def Outcome (strict : Prop) (point : Point) (c : TcpConnection)
    (x : Except Assertion TcpConnection) : Prop :=
  Goes strict point c x ∨ ∃ e, x = .error e ∧ Stops c e

theorem Goes.after {x : Except Assertion TcpConnection} (hm : Moves strict point c c')
    (h : Goes strict point c' x) : Goes strict point c x := by
  obtain ⟨d, heq, hm'⟩ := h
  exact ⟨d, heq, hm.trans hm'⟩

/-! ### Sending -/

theorem shutdownInLoop_moves : Moves strict point c c.shutdownInLoop := by
  unfold shutdownInLoop
  split
  · exact .single (.note trivial)
  · exact .refl

theorem sendInLoop_goes (h : Life point c) (data : Bytes) (w : WriteResult) :
    Goes strict point c (c.sendInLoop data w) := by
  by_cases hstate : c.state = .kDisconnected
  · exact ⟨c, if_pos hstate, .refl⟩
  · obtain ⟨c', heq, hout, -⟩ := sendInLoop_ok h.watched hstate data w
    exact ⟨c', heq, .single (.output hstate hout)⟩

/-- `handleWrite` leaves the frames alone, and does nothing on a disconnected connection. -/
theorem handleWrite_goes (strict : Prop) (h : Life point c)
    (hfits : w.fits c.outputBuffer.readableBytes) :
    ∃ c', c.handleWrite w = .ok c' ∧ Moves strict point c c' ∧ c'.frames = c.frames := by
  by_cases hstate : c.state = .kDisconnected
  · have hwriting : ¬ c.channel.isWriting = true := by
      unfold Channel.isWriting
      rw [h.quiet hstate]
      decide
    exact ⟨c, if_neg hwriting, .refl, rfl⟩
  · obtain ⟨m, hout, -, -, heq⟩ := handleWrite_ok h.watched hfits
    have hm : Moves strict point c m := .single (.output hstate hout)
    refine ⟨_, heq, ?_, ?_⟩
    · split
      · exact hm.trans shutdownInLoop_moves
      · exact hm
    · split
      · unfold shutdownInLoop
        split <;> exact hout.frames
      · exact hout.frames

/-! ### Handling events -/

theorem writePart_goes (h : Life point c) (hpoint : point = .handlingEvents)
    (hframes : .connectDestroyed ∉ c.frames) (hfits : w.fits c.outputBuffer.readableBytes) :
    Goes strict point c (c.writePart w) := by
  unfold writePart
  split
  · obtain ⟨c', heq, hm, hf⟩ := handleWrite_goes strict h hfits
    refine ⟨_, by rw [heq]; rfl, hm.tail (.place false hpoint ?_ (.inr rfl))⟩
    rw [hf]
    exact hframes
  · exact ⟨_, rfl, .single (.place false hpoint hframes (.inr rfl))⟩

/-- From the error part on, when a connection whose read events are handled is open. -/
theorem errorPart_goes (h : Life point c) (hpoint : point = .handlingEvents)
    (hframes : c.frames = []) (hactive : c.channel.active ≠ .waiting)
    (hopen : c.channel.revents.meets readMask = true → c.isOpen)
    (hclosing : c.channel.revents.meets readMask = true → r = .bytes [] → c.permitsClosing strict)
    (hfits : w.fits c.outputBuffer.readableBytes) : Goes strict point c (c.errorPart r w) := by
  have hinner : .connectDestroyed ∉ c.frames := by
    rw [hframes]
    exact List.not_mem_nil
  unfold errorPart
  split
  · rename_i hmeets
    cases r with
    | failed errno => exact writePart_goes h hpoint hinner hfits
    | bytes data =>
      obtain ⟨b, hb, -⟩ := Buffer.readFd_ok c.inputBuffer data
      simp only [handleRead, hb, ok_bind]
      have hinput : Moves strict point c { c with inputBuffer := b } := .single (.input b)
      split
      · exact ⟨_, rfl, hinput.tail (.received (isOpen_ne (hopen hmeets)) hframes hpoint)⟩
      · rename_i hlen
        have hnil : data = [] := List.length_eq_zero_iff.mp (Nat.eq_zero_of_not_pos hlen)
        have hb' : ({ c with inputBuffer := b } : TcpConnection).channel.Watched := h.watched
        refine ⟨_, handleClose_eq hb' (hopen hmeets) _, hinput.tail ?_⟩
        exact .closed (hopen hmeets) hframes (hclosing hmeets (by rw [hnil])) hactive
          (fun _ => hpoint) nofun
  · exact writePart_goes h hpoint hinner hfits

theorem handleEvent_outcome (h : Life point c) (hpoint : point = .handlingEvents)
    (hframes : c.frames = []) (hwaiting : c.channel.active = .waiting)
    (hfits : w.fits c.outputBuffer.readableBytes)
    (hclosing : c.isOpen → c.handlesClose r → c.permitsClosing strict) :
    Outcome strict point c (c.handleEvent r w) := by
  have hinner : .connectDestroyed ∉ c.frames := by
    rw [hframes]
    exact List.not_mem_nil
  have hplace : Move strict point c
      (c.setChannel { c.channel with eventHandling := true, active := .current }) :=
    .place true hpoint hinner (.inl rfl)
  have hlife := h.move hplace
  -- the read events of a disconnected connection are not reported
  have hread : c.channel.revents.meets readMask = true → c.isOpen := by
    intro hmeets
    apply h.isOpen
    intro hstate
    rcases h.waiting hstate hwaiting with hmem | hnot
    · exact hinner hmem
    · cases hmeets.symm.trans hnot
  unfold handleEvent
  by_cases hhup : c.channel.revents.pollhup = true ∧ c.channel.revents.pollin = false
  · rw [if_pos hhup]
    by_cases hopen : c.isOpen
    · left
      refine ⟨_, handleClose_eq hlife.watched hopen _, .tail (.single hplace) ?_⟩
      exact .closed hopen hframes (hclosing hopen (.inl hhup)) nofun (fun _ => hpoint)
        fun _ => h.hangUp hwaiting hhup
    · right
      refine ⟨.handleCloseConnected, ?_, .handleClose ?_ hframes hwaiting⟩
      · have hcheck : check (TcpConnection.isOpen
            (c.setChannel { c.channel with eventHandling := true, active := .current }))
            .handleCloseConnected = .error .handleCloseConnected := if_neg hopen
        rw [handleClose, hcheck]
        rfl
      · by_contra hstate
        exact hopen (h.isOpen hstate)
  · left
    rw [if_neg hhup]
    refine Goes.after (.single hplace) (errorPart_goes hlife hpoint hframes nofun hread ?_ hfits)
    exact fun hmeets hr => hclosing (hread hmeets) (.inr ⟨hmeets, hr⟩)

/-! ### Callbacks return -/

/-- `closeCallback_` when the server is there and knows the connection. -/
theorem callCloseCallback_eq {rest : List Frame} (hserver : c.serverDestroyed = false)
    (htracked : c.ownerInLoop = true → c.tracked = true) :
    ({ c with frames := rest } : TcpConnection).callCloseCallback =
      .ok (c.closeReported rest) := by
  by_cases howner : c.ownerInLoop = true
  · simp [callCloseCallback, closeReported, removeConnectionInLoop, record, check, howner, hserver,
      htracked howner]
  · simp [callCloseCallback, closeReported, record, check, howner, hserver]

/-- The `closeCallback_` leaves the channel and the output buffer alone. -/
theorem closeReported_eq (c : TcpConnection) (rest : List Frame) :
    (c.closeReported rest).channel = c.channel ∧
      (c.closeReported rest).outputBuffer = c.outputBuffer ∧
      (c.closeReported rest).frames = rest := by
  unfold closeReported
  dsimp only
  split <;> exact ⟨rfl, rfl, rfl⟩

/-- After the `closeCallback_` the handling of events goes on, and reads nothing. -/
theorem closeReturn_goes {resume : Resume} {rest : List Frame} (h : Life point c)
    (hframes : c.frames = .handleClose resume :: rest)
    (hfits : w.fits c.outputBuffer.readableBytes) :
    Goes strict point (c.closeReported rest) ((c.closeReported rest).closeReturn r w resume) := by
  have hlife := h.closeReported hframes
  obtain ⟨hch, hbuf, hrest⟩ := closeReported_eq c rest
  have hinner : .connectDestroyed ∉ (c.closeReported rest).frames := by
    have hinner := h.inner
    rw [hframes] at hinner
    rw [hrest]
    exact hinner
  have hfits' : w.fits (c.closeReported rest).outputBuffer.readableBytes := by
    rw [hbuf]
    exact hfits
  have hpoint : resume ≠ .functor → point = .handlingEvents :=
    h.handlers (.handleClose resume) (hframes ▸ List.mem_cons_self)
  cases resume with
  | functor => exact ⟨_, rfl, .refl⟩
  | errorPart =>
    have hnot : ¬ (c.closeReported rest).channel.revents.meets readMask = true := by
      rw [hch, h.resumes (hframes ▸ List.mem_cons_self)]
      nofun
    have hskip : (c.closeReported rest).closeReturn r w .errorPart =
        (c.closeReported rest).writePart w := if_neg hnot
    rw [hskip]
    exact writePart_goes hlife (hpoint nofun) hinner hfits'
  | writePart => exact writePart_goes hlife (hpoint nofun) hinner hfits'

theorem closeReturned_outcome {resume : Resume} {rest : List Frame} (h : Life point c)
    (hframes : c.frames = .handleClose resume :: rest)
    (hfits : w.fits c.outputBuffer.readableBytes) :
    Outcome strict point c (c.callbackReturn r w) := by
  simp only [callbackReturn, hframes]
  by_cases hserver : c.serverDestroyed = false
  · by_cases htracked : c.ownerInLoop = true → c.tracked = true
    · left
      rw [callCloseCallback_eq hserver htracked, ok_bind]
      exact Goes.after (.single (.closeReported hframes htracked))
        (closeReturn_goes h hframes hfits)
    · right
      obtain ⟨howner, hnot⟩ := Classical.not_imp.mp htracked
      refine ⟨.removeConnectionErased, ?_,
        .notTracked hframes howner (Bool.eq_false_iff.mpr hnot)⟩
      simp [callCloseCallback, removeConnectionInLoop, record, check, howner, hserver, hnot]
      rfl
  · right
    refine ⟨.serverAlive, ?_, .serverDestroyed hframes (eq_true_of_ne_false hserver)⟩
    by_cases howner : c.ownerInLoop = true
    · simp [callCloseCallback, removeConnectionInLoop, record, check, howner, hserver]
      rfl
    · simp [callCloseCallback, record, check, howner, hserver]
      rfl

theorem callbackReturn_outcome (h : Life point c) (hne : c.frames ≠ [])
    (hfits : w.fits c.outputBuffer.readableBytes) :
    Outcome strict point c (c.callbackReturn r w) := by
  obtain ⟨frame, rest, hframes⟩ := List.exists_cons_of_ne_nil hne
  cases frame with
  | connectEstablished =>
    left
    refine ⟨_, ?_, .single (.returned hframes (.inl rfl))⟩
    simp only [callbackReturn, hframes]
  | handleRead =>
    left
    have hreturned : Move strict point c { c with frames := rest } :=
      .returned hframes (.inr rfl)
    have hinner := h.inner
    rw [hframes] at hinner
    have hpoint := h.handlers .handleRead (hframes ▸ List.mem_cons_self) trivial
    simp only [callbackReturn, hframes]
    exact Goes.after (.single hreturned) (writePart_goes (h.move hreturned) hpoint hinner hfits)
  | handleClose resume => exact closeReturned_outcome h hframes hfits
  | connectDestroyed =>
    simp only [callbackReturn, hframes]
    cases hremove : c.channel.remove with
    | ok ch =>
      left
      obtain ⟨hr, rfl⟩ := Channel.removed_of_ok h.watched hremove
      exact ⟨_, rfl, .single (.destroyReturned hframes hr)⟩
    | error e => exact .inr ⟨e, rfl, .removeByFrame hframes hremove⟩

/-! ### Functors -/

theorem forceCloseInLoop_goes (h : Life point c) (hframes : c.frames = [])
    (hactive : c.channel.active ≠ .waiting) (hclosing : c.isOpen → c.permitsClosing strict) :
    Goes strict point c c.forceCloseInLoop := by
  unfold forceCloseInLoop
  split
  · rename_i hopen
    refine ⟨_, handleClose_eq h.watched hopen _, .single ?_⟩
    exact .closed hopen hframes (hclosing hopen) hactive (fun hne => absurd rfl hne) nofun
  · exact ⟨c, rfl, .refl⟩

theorem runFunctor_goes {f : Functor} {rest : List Functor} (h : Life point c)
    (hbatch : c.functors.batch = f :: rest) (hf : f ≠ .connectDestroyed) (hframes : c.frames = [])
    (hactive : c.channel.active ≠ .waiting) (hp : c.permitsFunctor strict f) :
    Goes strict point c ((c.dequeued rest).runFunctor f w) := by
  have hdequeue : Moves strict point c (c.dequeued rest) := .single (.dequeue hbatch hf)
  have hlife : Life point (c.dequeued rest) := h.moves hdequeue
  cases f with
  | sendInLoop message => exact Goes.after hdequeue (sendInLoop_goes hlife message w)
  | shutdownInLoop => exact ⟨_, rfl, hdequeue.trans shutdownInLoop_moves⟩
  | forceCloseInLoop =>
    exact Goes.after hdequeue (forceCloseInLoop_goes hlife hframes hactive hp)
  | startReadInLoop =>
    exact ⟨_, startReadInLoop_eq hlife.watched, hdequeue.tail (.readingStarted hp)⟩
  | stopReadInLoop =>
    exact ⟨_, stopReadInLoop_eq hlife.watched, hdequeue.tail (.readingStopped hp)⟩
  | connectDestroyed => exact absurd rfl hf
  | writeCompleteCallback => exact ⟨_, rfl, hdequeue.tail (.note trivial)⟩
  | highWaterMarkCallback size => exact ⟨_, rfl, hdequeue.tail (.note trivial)⟩

theorem connectDestroyed_outcome {rest : List Functor} (h : Life point c)
    (hbatch : c.functors.batch = .connectDestroyed :: rest)
    (hp : c.permitsFunctor strict .connectDestroyed) :
    Outcome strict point c (c.dequeued rest).connectDestroyed := by
  have hw : (c.dequeued rest).channel.Watched := h.watched
  by_cases hstate : c.state = .kConnected
  · exact .inl ⟨_, connectDestroyed_eq hw hstate,
      .single (.destroyed hbatch hstate (hp hstate))⟩
  · rw [connectDestroyed, if_neg (show ¬ (c.dequeued rest).state = .kConnected from hstate)]
    change Outcome strict point c
      (c.channel.remove >>= fun channel => pure ((c.dequeued rest).setChannel channel))
    cases hremove : c.channel.remove with
    | ok ch =>
      left
      obtain ⟨hr, rfl⟩ := Channel.removed_of_ok h.watched hremove
      exact ⟨_, rfl, .single (.removed hbatch hr)⟩
    | error e => exact .inr ⟨e, rfl, .removeByFunctor hbatch hstate hremove⟩

/-! ### Calls -/

theorem call_goes (h : Life point c) (k : Call) (w : WriteResult)
    (hp : c.permits strict (.call k w)) : Goes strict point c (c.call k w) := by
  unfold call
  split
  · rename_i haccepts
    cases k with
    | send message => exact sendInLoop_goes h message w
    | shutdown =>
      have hstate : c.state ≠ .kDisconnected := isOpen_ne (.inl haccepts)
      exact ⟨_, rfl, .trans (.single (.disconnecting hstate)) shutdownInLoop_moves⟩
    | forceClose =>
      exact ⟨_, rfl, .tail (.single (.disconnecting (isOpen_ne haccepts))) (.queue nofun)⟩
    | forceCloseWithDelay =>
      exact ⟨_, rfl, .tail (.single (.disconnecting (isOpen_ne haccepts)))
        (.book (c.delayed + 1) c.calling)⟩
    | startRead => exact ⟨_, startReadInLoop_eq h.watched, .single (.readingStarted hp)⟩
    | stopRead => exact ⟨_, stopReadInLoop_eq h.watched, .single (.readingStopped hp)⟩
  · exact ⟨c, rfl, .refl⟩

theorem finishCall_moves (i : Nat) (hp : c.permits strict (.finishCall i)) :
    Moves strict point c (c.finishCall i) := by
  unfold finishCall
  cases hk : c.calling[i]? with
  | none => exact .refl
  | some k =>
    have hbook : Moves strict point c { c with calling := c.calling.eraseIdx i } :=
      .single (.book c.delayed _)
    have hset := hp k hk
    cases k with
    | send message => exact hbook.tail (.queue nofun)
    | shutdown =>
      exact (hbook.tail (.disconnecting (hset (.inl rfl)))).tail (.queue nofun)
    | forceClose =>
      exact (hbook.tail (.disconnecting (hset (.inr (.inl rfl))))).tail (.queue nofun)
    | forceCloseWithDelay =>
      exact (hbook.tail (.disconnecting (hset (.inr (.inr rfl))))).tail (.book (c.delayed + 1) _)
    | startRead => exact hbook.tail (.queue nofun)
    | stopRead => exact hbook.tail (.queue nofun)

/-! ### The outcome -/

/-- **What a step can do**: make moves, or stop where `Stops` says. -/
theorem step_outcome (h : Life point c) {a : Action} (hen : c.enabled point a)
    (hp : c.permits strict a) : Outcome strict point c (c.step a) := by
  cases a with
  | report revents => exact .inl ⟨_, rfl, .single (.report hen.2.1 hen.1 hen.2.2)⟩
  | handleEvent r w => exact handleEvent_outcome h hen.1 hen.2.1 hen.2.2.1 hen.2.2.2.2 hp
  | callbackReturn r w => exact callbackReturn_outcome h hen.1 hen.2.2
  | runFunctor w =>
    obtain ⟨hpoint, hframes, f, hf, -⟩ := hen
    obtain ⟨rest, hbatch⟩ : ∃ rest, c.functors.batch = f :: rest := by
      cases hb : c.functors.batch with
      | nil =>
        rw [hb] at hf
        cases hf
      | cons g rest =>
        rw [hb] at hf
        cases hf
        exact ⟨rest, rfl⟩
    have hactive : c.channel.active ≠ .waiting := by
      intro hw
      rcases h.active with hpt | hpt | habsent
      · cases hpoint.symm.trans hpt
      · cases hpoint.symm.trans hpt
      · cases hw.symm.trans habsent
    have heq : c.step (.runFunctor w) = (c.dequeued rest).runFunctor f w := by
      simp only [step, runNextFunctor, hbatch]
      rfl
    rw [heq]
    by_cases hdestroy : f = .connectDestroyed
    · subst hdestroy
      exact connectDestroyed_outcome h hbatch (hp _ hf)
    · exact .inl (runFunctor_goes h hbatch hdestroy hframes hactive (hp f hf))
  | delayedForceClose =>
    have hbook : Move strict point c { c with delayed := c.delayed - 1 } := .book _ c.calling
    exact .inl (Goes.after (.single hbook) (call_goes (h.move hbook) .forceClose _ trivial))
  | call k w => exact .inl (call_goes h k w hp)
  | beginCall k => exact .inl ⟨_, rfl, .single (.book c.delayed _)⟩
  | finishCall i => exact .inl ⟨_, rfl, finishCall_moves i hp⟩
  | editInput b => exact .inl ⟨_, rfl, .single (.input b)⟩

end Kaycc.TcpConnection
