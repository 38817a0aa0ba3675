/-
  Kaycc/TcpConnectionChannel.lean
  ===============================
  **What a step of a connection can do to its channel, in whatever run.**

  `Kept l` is what every step keeps, but for the three things that a `Licence` allows:
  only `startReadInLoop` makes the channel read, only the read part of `handleEvent`
  calls the `messageCallback_`, and only `connectDestroyed` takes the channel out of
  the poller.  A step that does not remove the channel does not fail in
  `EventLoop::removeChannel` either.  `eventHandling_` is set only as long as a callback
  of `handleEvent` is under way (`Handled`).

  Nothing is assumed but that the poller's entry follows the channel's `index_`; so
  the lemmas hold also of runs in which `state_` is set by racing calls.
-/
import Kaycc.TcpConnectionStep
import Kaycc.TcpConnectionLoop

namespace Kaycc.TcpConnection

open Postcondition

variable {c c' c'' : TcpConnection} {r : ReadResult} {w : WriteResult}

/-! ### What is kept -/

structure Licence where
  starts : Prop      -- startReadInLoop may run
  reads : Prop       -- messageCallback_ may be invoked
  removes : Prop     -- connectDestroyed may run

def Licence.nothing : Licence := ⟨False, False, False⟩

/-- How often `messageCallback_` has been invoked. -/
def messages (log : List Event) : Nat := log.count .messageCallback

/-- `handleEventWithGuard` begins with the `closeCallback_`. -/
def hangsUp (c : TcpConnection) : Prop :=
  c.channel.revents.pollhup = true ∧ c.channel.revents.pollin = false

structure Kept (l : Licence) (c c' : TcpConnection) : Prop where
  watched : c'.channel.Watched
  plain : c.channel.events.Plain → c'.channel.events.Plain
  revents : c'.channel.revents = c.channel.revents
  registered : ¬ l.removes → c.channel.entry.registered = true →
    c'.channel.entry.registered = true
  destroys : ¬ l.removes → .connectDestroyed ∈ c'.frames → .connectDestroyed ∈ c.frames
  reading : ¬ l.starts → c.channel.isReading = false → c'.channel.isReading = false
  messages : ¬ l.reads → messages c'.log = messages c.log
  resumes : .handleClose .errorPart ∈ c'.frames →
    .handleClose .errorPart ∈ c.frames ∨ c.hangsUp

variable {l : Licence}

theorem Kept.trans (h₁ : Kept l c c') (h₂ : Kept l c' c'') : Kept l c c'' where
  watched := h₂.watched
  plain hp := h₂.plain (h₁.plain hp)
  revents := h₂.revents.trans h₁.revents
  registered hl hr := h₂.registered hl (h₁.registered hl hr)
  destroys hl hf := h₁.destroys hl (h₂.destroys hl hf)
  reading hl hr := h₂.reading hl (h₁.reading hl hr)
  messages hl := (h₂.messages hl).trans (h₁.messages hl)
  resumes hf := by
    rcases h₂.resumes hf with hf | hup
    · exact h₁.resumes hf
    · right
      unfold hangsUp at hup
      rw [h₁.revents] at hup
      exact hup

/-- A step that leaves the channel alone, pushes no frame and reads nothing. -/
theorem kept_of_channel (hw : c.channel.Watched) (hch : c'.channel = c.channel)
    (hframes : c'.frames ⊆ c.frames)
    (hlog : TcpConnection.messages c'.log = TcpConnection.messages c.log) : Kept l c c' where
  watched := by
    rw [hch]
    exact hw
  plain := by
    rw [hch]
    exact id
  revents := by rw [hch]
  registered _ := by
    rw [hch]
    exact id
  destroys _ := fun hf => hframes hf
  reading _ := by
    rw [hch]
    exact id
  messages _ := hlog
  resumes hf := .inl (hframes hf)

theorem kept_refl (hw : c.channel.Watched) : Kept l c c :=
  kept_of_channel hw rfl (List.Subset.refl _) rfl

/-- Where `handleEventWithGuard` is shows only in `eventHandling_` and in the loop. -/
theorem kept_place (hw : c.channel.Watched) (eventHandling : Bool) (active : ActivePlace) :
    Kept l c (c.setChannel { c.channel with eventHandling := eventHandling, active := active }) where
  watched := ⟨hw.index, hw.registered, hw.interest⟩
  plain := id
  revents := rfl
  registered _ := id
  destroys _ := id
  reading _ := id
  messages _ := rfl
  resumes := .inl

/-- A change of the events of interest. -/
theorem kept_watching {e : PollEvents} (hplain : c.channel.events.Plain → e.Plain)
    (hreading : ¬ l.starts → c.channel.isReading = false → e.meets kReadEvent = false) :
    Kept l c (c.setChannel (c.channel.watching e)) where
  watched := Channel.watching_watched _ _
  plain := hplain
  revents := rfl
  registered _ _ := rfl
  destroys _ := id
  reading := hreading
  messages _ := rfl
  resumes := .inl

theorem Output.kept (h : Output c c') (hw : c.channel.Watched) : Kept l c c' where
  watched := h.channel.watched hw
  plain := h.channel.plain
  revents := h.channel.revents
  registered _ hreg :=
    (h.channel.watched hw).registered.mpr (h.channel.index (hw.registered.mp hreg))
  destroys _ := by
    rw [h.frames]
    exact id
  reading _ hread := h.channel.reading.trans hread
  messages _ := h.count_log id
  resumes := by
    rw [h.frames]
    exact .inl

/-! ### Functions without a licence -/

/-- A computation that keeps all that it has no licence for, and does not fail in
    `EventLoop::removeChannel`. -/
abbrev Keeps (l : Licence) (c : TcpConnection) (x : Except Assertion TcpConnection) : Prop :=
  Ends (Kept l c) (· ≠ .removeChannelInactive) x

theorem Keeps.after {x : Except Assertion TcpConnection} (h₁ : Kept l c c') (h₂ : Keeps l c' x) :
    Keeps l c x :=
  h₂.imp fun _ => h₁.trans

theorem shutdownInLoop_kept (hw : c.channel.Watched) : Kept l c c.shutdownInLoop := by
  unfold shutdownInLoop
  split
  · exact kept_of_channel hw rfl (List.Subset.refl _) (count_record_of_ne nofun)
  · exact kept_refl hw

theorem sendInLoop_keeps (hw : c.channel.Watched) (data : Bytes) (w : WriteResult) :
    Keeps l c (c.sendInLoop data w) := by
  by_cases hstate : c.state = .kDisconnected
  · exact ends_of_eq (if_pos hstate) (kept_refl hw)
  · obtain ⟨c', heq, hout, -⟩ := sendInLoop_ok hw hstate data w
    exact ends_of_eq heq (hout.kept hw)

theorem handleWrite_keeps (hw : c.channel.Watched)
    (hfits : w.fits c.outputBuffer.readableBytes) : Keeps l c (c.handleWrite w) := by
  obtain ⟨m, hout, -, -, heq⟩ := handleWrite_ok hw hfits
  have hm : Kept l c m := hout.kept hw
  apply ends_of_eq heq
  split
  · exact hm.trans (shutdownInLoop_kept hm.watched)
  · exact hm

theorem writePart_keeps (hw : c.channel.Watched)
    (hfits : w.fits c.outputBuffer.readableBytes) : Keeps l c (c.writePart w) := by
  unfold writePart
  split
  · refine (handleWrite_keeps (l := l) hw hfits).bind fun d hd => ?_
    exact ends_ok (hd.trans (kept_place hd.watched false .handled))
  · exact ends_ok (kept_place hw false .handled)

/-- `handleClose` and the first branch of `connectDestroyed`, which differ in their frame. -/
theorem disconnected_kept {frame : Frame}
    (hresumes : frame = .handleClose .errorPart → c.hangsUp)
    (hdestroys : frame = .connectDestroyed → l.removes) :
    Kept l c (((c.setState .kDisconnected).setChannel
      (c.channel.watching kNoneEvent)).callConnectionCallback frame) where
  watched := Channel.watching_watched _ _
  plain _ := Channel.plain_none
  revents := rfl
  registered _ _ := rfl
  destroys hl hf := by
    rcases List.mem_cons.mp hf with heq | hf
    · exact absurd (hdestroys heq.symm) hl
    · exact hf
  reading _ _ := rfl
  messages _ := count_record_of_ne nofun
  resumes hf := by
    rcases List.mem_cons.mp hf with heq | hf
    · exact .inr (hresumes heq.symm)
    · exact .inl hf

theorem handleClose_keeps (hw : c.channel.Watched) {resume : Resume}
    (hresume : resume = .errorPart → c.hangsUp) : Keeps l c (c.handleClose resume) := by
  by_cases hopen : c.isOpen
  · refine ends_of_eq (handleClose_eq hw hopen resume) (disconnected_kept ?_ nofun)
    intro heq
    exact hresume (Frame.handleClose.inj heq)
  · have hcheck : check c.isOpen .handleCloseConnected = .error .handleCloseConnected :=
      if_neg hopen
    rw [handleClose, hcheck]
    exact Assertion.noConfusion

theorem forceCloseInLoop_keeps (hw : c.channel.Watched) : Keeps l c c.forceCloseInLoop :=
  ends_ite (fun _ => handleClose_keeps hw nofun) fun _ => ends_ok (kept_refl hw)

/-! ### Reading -/

/-- The read part calls `messageCallback_` or goes on to `handleClose`. -/
theorem handleRead_keeps (hw : c.channel.Watched) (data : Bytes) (hl : l.reads) :
    Keeps l c (c.handleRead data) := by
  obtain ⟨b, hb, -⟩ := Buffer.readFd_ok c.inputBuffer data
  have hinput : Kept l c { c with inputBuffer := b } :=
    kept_of_channel hw rfl (List.Subset.refl _) rfl
  simp only [handleRead, hb, ok_bind]
  split
  · refine ends_ok ⟨hw, id, rfl, fun _ => id, fun _ hf => ?_, fun _ => id,
      fun hnot => absurd hl hnot, fun hf => ?_⟩
    · rcases List.mem_cons.mp hf with heq | hf
      · cases heq
      · exact hf
    · rcases List.mem_cons.mp hf with heq | hf
      · cases heq
      · exact .inl hf
  · exact Keeps.after hinput (handleClose_keeps hinput.watched Resume.noConfusion)

theorem errorPart_keeps (hw : c.channel.Watched) (hfits : w.fits c.outputBuffer.readableBytes)
    (hl : c.channel.revents.meets readMask = true → l.reads) : Keeps l c (c.errorPart r w) := by
  unfold errorPart
  split
  · rename_i hmeets
    cases r with
    | bytes data => exact handleRead_keeps hw data (hl hmeets)
    | failed errno => exact writePart_keeps hw hfits
  · exact writePart_keeps hw hfits

theorem handleEvent_keeps (hw : c.channel.Watched) (hfits : w.fits c.outputBuffer.readableBytes)
    (hl : c.channel.revents.meets readMask = true → l.reads) : Keeps l c (c.handleEvent r w) := by
  have hplace : Kept l c
      (c.setChannel { c.channel with eventHandling := true, active := .current }) :=
    kept_place hw true .current
  unfold handleEvent
  split
  · rename_i hhup
    exact Keeps.after hplace (handleClose_keeps hplace.watched fun _ => hhup)
  · exact Keeps.after hplace (errorPart_keeps hplace.watched hfits hl)

/-! ### Callbacks return -/

/-- The server's loop goes on with a removal. -/
theorem removeConnectionInLoop_keeps (hw : c.channel.Watched) :
    Keeps l c ({ c with removals := c.removals - 1 } : TcpConnection).removeConnectionInLoop := by
  unfold removeConnectionInLoop
  refine (check_ends nofun).bind fun _ _ => (check_ends nofun).bind fun _ _ => ?_
  exact ends_ok (kept_of_channel hw rfl (List.Subset.refl _) rfl)

/-- `closeCallback_` leaves the channel, the frames and the output buffer alone. -/
theorem callCloseCallback_ends :
    Ends (fun c' => c'.channel = c.channel ∧ c'.outputBuffer = c.outputBuffer ∧
        c'.frames = c.frames ∧ TcpConnection.messages c'.log = TcpConnection.messages c.log)
      (· ≠ .removeChannelInactive) c.callCloseCallback := by
  have hlog : TcpConnection.messages (c.record .closeCallback).log =
      TcpConnection.messages c.log := count_record_of_ne nofun
  unfold callCloseCallback
  apply ends_ite
  · intro _
    unfold removeConnectionInLoop
    refine (check_ends nofun).bind fun _ _ => (check_ends nofun).bind fun _ _ => ?_
    exact ends_ok ⟨rfl, rfl, rfl, hlog⟩
  · intro _
    refine (check_ends nofun).bind fun _ _ => ?_
    exact ends_ok ⟨rfl, rfl, rfl, hlog⟩

/-- The rest of the handling after a `closeCallback_`; it reads if there are read events. -/
theorem closeReturn_keeps {resume : Resume} (hw : c.channel.Watched)
    (hfits : w.fits c.outputBuffer.readableBytes)
    (hl : resume = .errorPart → c.channel.revents.meets readMask = true → l.reads) :
    Keeps l c (c.closeReturn r w resume) := by
  cases resume with
  | functor => exact ends_ok (kept_refl hw)
  | errorPart => exact errorPart_keeps hw hfits (hl rfl)
  | writePart => exact writePart_keeps hw hfits

/-- `connectDestroyed` returns from its callback, or has none. -/
theorem remove_keeps {rest : List Frame} (hw : c.channel.Watched) (hl : l.removes)
    (hactive : c.channel.active = .absent ∨ c.channel.active = .current)
    (hrest : rest ⊆ c.frames) :
    Keeps l c (do
      let channel ← c.channel.remove
      pure { c with frames := rest, channel := channel }) := by
  refine (Channel.remove_ends hw hactive).bind fun channel ⟨hr, hch⟩ => ?_
  subst hch
  exact ends_ok ⟨(Channel.removed_synced hr.events).toWatched, id, rfl,
    fun hnot => absurd hl hnot, fun hnot => absurd hl hnot, fun _ => id, fun _ => rfl,
    fun hf => .inl (hrest hf)⟩

/-- What the return of the callback of a frame may do. -/
def Frame.licence (c : TcpConnection) : Frame → Licence
  | .handleClose .errorPart => ⟨False, c.channel.revents.meets readMask = true, False⟩
  | .connectDestroyed => ⟨False, False, True⟩
  | _ => .nothing

theorem callbackReturn_keeps {frame : Frame} {rest : List Frame} (hw : c.channel.Watched)
    (hfits : w.fits c.outputBuffer.readableBytes) (hframes : c.frames = frame :: rest)
    (hactive : frame = .connectDestroyed →
      c.channel.active = .absent ∨ c.channel.active = .current) :
    Keeps (frame.licence c) c (c.callbackReturn r w) := by
  have hrest : rest ⊆ c.frames := hframes ▸ List.subset_cons_self _ _
  have hpop : ∀ {l}, Kept l c { c with frames := rest } := kept_of_channel hw rfl hrest rfl
  simp only [callbackReturn, hframes]
  cases frame with
  | connectEstablished => exact ends_ok hpop
  | handleRead => exact Keeps.after hpop (writePart_keeps hw hfits)
  | handleClose resume =>
    refine callCloseCallback_ends.bind fun d hd => ?_
    obtain ⟨hch, hbuf, hf, hlog⟩ := hd
    have hd : Kept ((Frame.handleClose resume).licence c) c d :=
      kept_of_channel hw hch (hf ▸ hrest) hlog
    refine Keeps.after hd (closeReturn_keeps hd.watched ?_ ?_)
    · rw [hbuf]
      exact hfits
    · rintro rfl
      rw [hch]
      exact id
  | connectDestroyed => exact remove_keeps hw trivial (hactive rfl) hrest

/-! ### Functors -/

def Functor.licence : Functor → Licence
  | .startReadInLoop => ⟨True, False, False⟩
  | .connectDestroyed => ⟨False, False, True⟩
  | _ => .nothing

theorem startReadInLoop_keeps (hw : c.channel.Watched) (hl : l.starts) :
    Keeps l c c.startReadInLoop := by
  apply ends_of_eq (startReadInLoop_eq hw)
  unfold readingStarted
  split
  · exact (kept_watching Channel.plain_enableReading fun hnot => absurd hl hnot).trans
      (kept_of_channel (Channel.watching_watched _ _) rfl (List.Subset.refl _) rfl)
  · exact kept_refl hw

theorem stopReadInLoop_keeps (hw : c.channel.Watched) :
    Ends (fun c' => Kept l c c' ∧ c'.channel.isReading = false) (· ≠ .removeChannelInactive)
      c.stopReadInLoop := by
  apply ends_of_eq (stopReadInLoop_eq hw)
  unfold readingStopped
  split
  · refine ⟨(kept_watching Channel.plain_disableReading fun _ _ => ?_).trans
      (kept_of_channel (Channel.watching_watched _ _) rfl (List.Subset.refl _) rfl), ?_⟩
    · exact Channel.isReading_disableReading _
    · exact Channel.isReading_disableReading _
  · rename_i hneither
    exact ⟨kept_refl hw, Bool.eq_false_iff.mpr fun hread => hneither (.inr hread)⟩

theorem connectDestroyed_keeps (hw : c.channel.Watched) (hl : l.removes)
    (hactive : c.channel.active = .absent ∨ c.channel.active = .current) :
    Keeps l c c.connectDestroyed := by
  by_cases hstate : c.state = .kConnected
  · exact ends_of_eq (connectDestroyed_eq hw hstate) (disconnected_kept nofun fun _ => hl)
  · rw [connectDestroyed, if_neg hstate]
    exact remove_keeps hw hl hactive (List.Subset.refl _)

theorem runFunctor_keeps {f : Functor} (hw : c.channel.Watched)
    (hactive : f = .connectDestroyed →
      c.channel.active = .absent ∨ c.channel.active = .current) :
    Keeps f.licence c (c.runFunctor f w) := by
  cases f with
  | sendInLoop message => exact sendInLoop_keeps hw message w
  | shutdownInLoop => exact ends_ok (shutdownInLoop_kept hw)
  | forceCloseInLoop => exact forceCloseInLoop_keeps hw
  | startReadInLoop => exact startReadInLoop_keeps hw trivial
  | stopReadInLoop => exact (stopReadInLoop_keeps hw).imp fun _ => And.left
  | connectDestroyed => exact connectDestroyed_keeps hw trivial (hactive rfl)
  | writeCompleteCallback =>
    exact ends_ok (kept_of_channel hw rfl (List.Subset.refl _) (count_record_of_ne nofun))
  | highWaterMarkCallback size =>
    exact ends_ok (kept_of_channel hw rfl (List.Subset.refl _) (count_record_of_ne nofun))

/-! ### Calls -/

def Call.licence : Call → Licence
  | .startRead => ⟨True, False, False⟩
  | _ => .nothing

theorem call_keeps (hw : c.channel.Watched) (k : Call) (w : WriteResult) :
    Keeps k.licence c (c.call k w) := by
  unfold call
  split
  · cases k with
    | send message => exact sendInLoop_keeps hw message w
    | shutdown =>
      have hset : Kept .nothing c (c.setState .kDisconnecting) :=
        kept_of_channel hw rfl (List.Subset.refl _) rfl
      exact ends_ok (hset.trans (shutdownInLoop_kept hset.watched))
    | forceClose => exact ends_ok (kept_of_channel hw rfl (List.Subset.refl _) rfl)
    | forceCloseWithDelay => exact ends_ok (kept_of_channel hw rfl (List.Subset.refl _) rfl)
    | startRead => exact startReadInLoop_keeps hw trivial
    | stopRead => exact (stopReadInLoop_keeps hw).imp fun _ => And.left
  · exact ends_ok (kept_refl hw)

theorem finishCall_kept (hw : c.channel.Watched) (i : Nat) : Kept l c (c.finishCall i) := by
  unfold finishCall
  split
  · exact kept_refl hw
  · rename_i k _
    cases k with
    | _ => exact kept_of_channel hw rfl (List.Subset.refl _) rfl

/-! ### Steps -/

/-- What a step has a licence for. -/
def Action.licence (c : TcpConnection) : Action → Licence
  | .handleEvent _ _ => ⟨False, c.channel.revents.meets readMask = true, False⟩
  | .callbackReturn _ _ => (c.frames.head?.map (Frame.licence c)).getD .nothing
  | .runFunctor _ => (c.functors.batch.head?.map Functor.licence).getD .nothing
  | .call k _ => k.licence
  | _ => .nothing

theorem licence_callbackReturn {frame : Frame} {rest : List Frame}
    (hframes : c.frames = frame :: rest) :
    Action.licence c (.callbackReturn r w) = frame.licence c := by
  simp only [Action.licence, hframes, List.head?_cons, Option.map_some, Option.getD_some]

theorem licence_callbackReturn_nil (hframes : c.frames = []) :
    Action.licence c (.callbackReturn r w) = .nothing := by
  simp only [Action.licence, hframes, List.head?_nil, Option.map_none, Option.getD_none]

theorem licence_runFunctor {f : Functor} {rest : List Functor}
    (hbatch : c.functors.batch = f :: rest) :
    Action.licence c (.runFunctor w) = f.licence := by
  simp only [Action.licence, hbatch, List.head?_cons, Option.map_some, Option.getD_some]

theorem licence_runFunctor_nil (hbatch : c.functors.batch = []) :
    Action.licence c (.runFunctor w) = .nothing := by
  simp only [Action.licence, hbatch, List.head?_nil, Option.map_none, Option.getD_none]

/-- Whose licence a step has: that of the function that runs, or none. -/
inductive Licensed (c : TcpConnection) : Action → Licence → Prop where
  | nothing (a : Action) : c.Licensed a .nothing
  | handleEvent (r : ReadResult) (w : WriteResult) :
      c.Licensed (.handleEvent r w) ⟨False, c.channel.revents.meets readMask = true, False⟩
  | frame (r : ReadResult) (w : WriteResult) (frame : Frame) (hmem : frame ∈ c.frames) :
      c.Licensed (.callbackReturn r w) (frame.licence c)
  | functor (w : WriteResult) (f : Functor) (hhead : c.functors.batch.head? = some f) :
      c.Licensed (.runFunctor w) f.licence
  | call (k : Call) (w : WriteResult) : c.Licensed (.call k w) k.licence

theorem licensed (c : TcpConnection) (a : Action) : c.Licensed a (a.licence c) := by
  cases a with
  | handleEvent r w => exact .handleEvent r w
  | callbackReturn r w =>
    cases hframes : c.frames with
    | nil =>
      rw [licence_callbackReturn_nil hframes]
      exact .nothing _
    | cons frame rest =>
      rw [licence_callbackReturn hframes]
      refine .frame r w frame ?_
      rw [hframes]
      exact List.mem_cons_self
  | runFunctor w =>
    cases hbatch : c.functors.batch with
    | nil =>
      rw [licence_runFunctor_nil hbatch]
      exact .nothing _
    | cons f rest =>
      rw [licence_runFunctor hbatch]
      refine .functor w f ?_
      rw [hbatch, List.head?_cons]
  | call k w => exact .call k w
  | _ => exact .nothing _

/-- Only `startReadInLoop` has a licence to start. -/
theorem licence_starts {a : Action} (h : (a.licence c).starts) :
    (∃ w, a = .call .startRead w) ∨
      ∃ w, a = .runFunctor w ∧ c.functors.batch.head? = some .startReadInLoop := by
  have hl := licensed c a
  generalize a.licence c = l at h hl
  cases hl with
  | frame r w frame _ =>
    cases frame with
    | handleClose resume => cases resume <;> cases h
    | _ => cases h
  | functor w f hhead =>
    cases f with
    | startReadInLoop => exact .inr ⟨w, rfl, hhead⟩
    | _ => cases h
  | call k w =>
    cases k with
    | startRead => exact .inl ⟨w, rfl⟩
    | _ => cases h
  | _ => cases h

/-- Only the handling of read events has a licence to read. -/
theorem licence_reads {a : Action} (h : (a.licence c).reads) :
    c.channel.revents.meets readMask = true ∧
      ((∃ r w, a = .handleEvent r w) ∨ .handleClose .errorPart ∈ c.frames) := by
  have hl := licensed c a
  generalize a.licence c = l at h hl
  cases hl with
  | handleEvent r w => exact ⟨h, .inl ⟨r, w, rfl⟩⟩
  | frame r w frame hmem =>
    cases frame with
    | handleClose resume =>
      cases resume with
      | errorPart => exact ⟨h, .inr hmem⟩
      | _ => cases h
    | _ => cases h
  | functor w f _ => cases f <;> cases h
  | call k w => cases k <;> cases h
  | nothing => cases h

/-- Only `connectDestroyed` has a licence to remove. -/
theorem licence_removes {a : Action} (h : (a.licence c).removes) :
    .connectDestroyed ∈ c.frames ∨ ∃ w, a = .runFunctor w := by
  have hl := licensed c a
  generalize a.licence c = l at h hl
  cases hl with
  | frame r w frame hmem =>
    cases frame with
    | connectDestroyed => exact .inl hmem
    | handleClose resume => cases resume <;> cases h
    | _ => cases h
  | functor w f _ => exact .inr ⟨w, rfl⟩
  | call k w => cases k <;> cases h
  | _ => cases h

/-- **What any step keeps.** -/
theorem step_keeps {a : Action} (hw : c.channel.Watched) (hreport : ∀ revents, a ≠ .report revents)
    (hfits : ∀ r w, a = .handleEvent r w ∨ a = .callbackReturn r w →
      w.fits c.outputBuffer.readableBytes)
    (hactive : (a.licence c).removes → c.channel.active = .absent ∨ c.channel.active = .current) :
    Keeps (a.licence c) c (c.step a) := by
  cases a with
  | report revents => exact absurd rfl (hreport revents)
  | handleEvent r w => exact handleEvent_keeps hw (hfits r w (.inl rfl)) id
  | callbackReturn r w =>
    cases hframes : c.frames with
    | nil =>
      have hstep : c.step (.callbackReturn r w) = .ok c := by
        simp only [step, callbackReturn, hframes]
      exact ends_of_eq hstep (kept_refl hw)
    | cons frame rest =>
      rw [licence_callbackReturn hframes] at hactive ⊢
      refine callbackReturn_keeps hw (hfits r w (.inr rfl)) hframes fun heq => hactive ?_
      subst heq
      trivial
  | runFunctor w =>
    cases hbatch : c.functors.batch with
    | nil =>
      have hstep : c.step (.runFunctor w) = .ok c := by
        simp only [step, runNextFunctor, hbatch]
      exact ends_of_eq hstep (kept_refl hw)
    | cons f rest =>
      have hstep : c.step (.runFunctor w) = (c.dequeued rest).runFunctor f w := by
        simp only [step, runNextFunctor, hbatch]
        rfl
      have hdequeued : Kept f.licence c (c.dequeued rest) :=
        kept_of_channel hw rfl (List.Subset.refl _) rfl
      rw [licence_runFunctor hbatch] at hactive ⊢
      rw [hstep]
      refine Keeps.after hdequeued (runFunctor_keeps hdequeued.watched fun heq => hactive ?_)
      subst heq
      trivial
  | delayedForceClose =>
    have hbook : Kept .nothing c { c with delayed := c.delayed - 1 } :=
      kept_of_channel hw rfl (List.Subset.refl _) rfl
    exact Keeps.after hbook (call_keeps hbook.watched .forceClose _)
  | call k w => exact call_keeps hw k w
  | beginCall k => exact ends_ok (kept_of_channel hw rfl (List.Subset.refl _) rfl)
  | finishCall i => exact ends_ok (finishCall_kept hw i)
  | editInput b => exact ends_ok (kept_of_channel hw rfl (List.Subset.refl _) rfl)

/-! ### While events are handled -/

/-- `eventHandling_` is set only while a callback of `handleEvent` has not returned. -/
def Handled (c : TcpConnection) : Prop :=
  c.channel.eventHandling = true → ∃ f ∈ c.frames, f.inHandler

theorem Handled.grown (hh : Handled c)
    (hch : c'.channel.eventHandling = c.channel.eventHandling) (hframes : c.frames ⊆ c'.frames) :
    Handled c' := by
  intro hset
  obtain ⟨f, hf, hin⟩ := hh (hch.symm.trans hset)
  exact ⟨f, hframes hf, hin⟩

/-- A function that `handleEvent` has not called returns from its callback. -/
theorem Handled.popped {frame : Frame} {rest : List Frame} (hh : Handled c)
    (hframes : c.frames = frame :: rest) (hnot : ¬ frame.inHandler) :
    Handled { c with frames := rest } := by
  intro hset
  obtain ⟨f, hf, hin⟩ := hh hset
  rw [hframes] at hf
  rcases List.mem_cons.mp hf with rfl | hf
  · exact absurd hin hnot
  · exact ⟨f, hf, hin⟩

theorem Output.handled (ho : Output c c') (hh : Handled c) : Handled c' :=
  hh.grown ho.channel.handling (ho.frames ▸ List.Subset.refl _)

theorem shutdownInLoop_handled (hh : Handled c) : Handled c.shutdownInLoop := by
  unfold shutdownInLoop
  split <;> exact hh

theorem sendInLoop_handled {data : Bytes} (hw : c.channel.Watched) (hh : Handled c)
    (h : c.sendInLoop data w = .ok c') : Handled c' := by
  by_cases hstate : c.state = .kDisconnected
  · obtain rfl : c = c' := Except.ok.inj ((if_pos hstate).symm.trans h)
    exact hh
  · obtain ⟨d, heq, hout, -⟩ := sendInLoop_ok hw hstate data w
    obtain rfl : d = c' := Except.ok.inj (heq.symm.trans h)
    exact hout.handled hh

/-- `handleEvent` ends with its write part. -/
theorem writePart_handled (h : c.writePart w = .ok c') : Handled c' := by
  unfold writePart at h
  split at h
  · obtain ⟨d, -, hd⟩ := bind_eq_ok.mp h
    obtain rfl := Except.ok.inj hd
    exact nofun
  · obtain rfl := Except.ok.inj h
    exact nofun

theorem handleClose_handled {resume : Resume} (hresume : resume ≠ .functor)
    (h : c.handleClose resume = .ok c') : Handled c' := by
  obtain ⟨_, -, h⟩ := bind_eq_ok.mp h
  obtain ⟨_, -, h⟩ := bind_eq_ok.mp h
  obtain rfl := Except.ok.inj h
  exact fun _ => ⟨.handleClose resume, List.mem_cons_self, hresume⟩

theorem errorPart_handled (h : c.errorPart r w = .ok c') : Handled c' := by
  unfold errorPart at h
  split at h
  · cases r with
    | failed errno => exact writePart_handled h
    | bytes data =>
      obtain ⟨_, -, h⟩ := bind_eq_ok.mp h
      dsimp only at h
      split at h
      · obtain rfl := Except.ok.inj h
        exact fun _ => ⟨.handleRead, List.mem_cons_self, trivial⟩
      · exact handleClose_handled Resume.noConfusion h
  · exact writePart_handled h

theorem handleEvent_handled (h : c.handleEvent r w = .ok c') : Handled c' := by
  unfold handleEvent at h
  dsimp only at h
  split at h
  · exact handleClose_handled Resume.noConfusion h
  · exact errorPart_handled h

/-- `Channel::remove` leaves `eventHandling_` alone. -/
theorem removed_handled {ch : Channel} (hw : c.channel.Watched) (hh : Handled c)
    (h : c.channel.remove = .ok ch) : Handled (c.setChannel ch) := by
  obtain ⟨-, rfl⟩ := Channel.removed_of_ok hw h
  exact hh

theorem callbackReturn_handled (hw : c.channel.Watched) (hh : Handled c)
    (h : c.callbackReturn r w = .ok c') : Handled c' := by
  unfold callbackReturn at h
  cases hframes : c.frames with
  | nil =>
    simp only [hframes] at h
    obtain rfl := Except.ok.inj h
    exact hh
  | cons frame rest =>
    simp only [hframes] at h
    cases frame with
    | connectEstablished =>
      obtain rfl := Except.ok.inj h
      exact hh.popped hframes id
    | handleRead => exact writePart_handled h
    | handleClose resume =>
      obtain ⟨d, hd, h⟩ := bind_eq_ok.mp h
      cases resume with
      | functor =>
        obtain ⟨hch, -, hf, -⟩ := callCloseCallback_ends.of_ok hd
        obtain rfl := Except.ok.inj h
        have hpopped := hh.popped hframes fun hne => hne rfl
        exact hpopped.grown (congrArg Channel.eventHandling hch) (hf ▸ List.Subset.refl _)
      | errorPart => exact errorPart_handled h
      | writePart => exact writePart_handled h
    | connectDestroyed =>
      obtain ⟨ch, hch, h⟩ := bind_eq_ok.mp h
      obtain rfl := Except.ok.inj h
      exact removed_handled (c := { c with frames := rest }) hw (hh.popped hframes id) hch

theorem readingStarted_handled (hh : Handled c) : Handled c.readingStarted := by
  unfold readingStarted
  split <;> exact hh

theorem readingStopped_handled (hh : Handled c) : Handled c.readingStopped := by
  unfold readingStopped
  split <;> exact hh

theorem connectDestroyed_handled (hw : c.channel.Watched) (hh : Handled c)
    (h : c.connectDestroyed = .ok c') : Handled c' := by
  by_cases hstate : c.state = .kConnected
  · obtain rfl := Except.ok.inj ((connectDestroyed_eq hw hstate).symm.trans h)
    exact hh.grown rfl (List.subset_cons_self _ _)
  · rw [connectDestroyed, if_neg hstate] at h
    obtain ⟨ch, hch, h⟩ := bind_eq_ok.mp h
    obtain rfl := Except.ok.inj h
    exact removed_handled hw hh hch

theorem runFunctor_handled {f : Functor} (hw : c.channel.Watched) (hh : Handled c)
    (h : c.runFunctor f w = .ok c') : Handled c' := by
  cases f with
  | sendInLoop message => exact sendInLoop_handled hw hh h
  | forceCloseInLoop =>
    change c.forceCloseInLoop = .ok c' at h
    unfold forceCloseInLoop at h
    split at h
    · rename_i hopen
      obtain rfl := Except.ok.inj ((handleClose_eq hw hopen _).symm.trans h)
      exact hh.grown rfl (List.subset_cons_self _ _)
    · obtain rfl := Except.ok.inj h
      exact hh
  | startReadInLoop =>
    obtain rfl := Except.ok.inj ((startReadInLoop_eq hw).symm.trans h)
    exact readingStarted_handled hh
  | stopReadInLoop =>
    obtain rfl := Except.ok.inj ((stopReadInLoop_eq hw).symm.trans h)
    exact readingStopped_handled hh
  | connectDestroyed => exact connectDestroyed_handled hw hh h
  | shutdownInLoop =>
    obtain rfl := Except.ok.inj h
    exact shutdownInLoop_handled hh
  | writeCompleteCallback =>
    obtain rfl := Except.ok.inj h
    exact hh
  | highWaterMarkCallback size =>
    obtain rfl := Except.ok.inj h
    exact hh

theorem call_handled {k : Call} (hw : c.channel.Watched) (hh : Handled c)
    (h : c.call k w = .ok c') : Handled c' := by
  unfold call at h
  split at h
  · cases k with
    | send message => exact sendInLoop_handled hw hh h
    | shutdown =>
      obtain rfl := Except.ok.inj h
      exact shutdownInLoop_handled (c := c.setState .kDisconnecting) hh
    | forceClose =>
      obtain rfl := Except.ok.inj h
      exact hh
    | forceCloseWithDelay =>
      obtain rfl := Except.ok.inj h
      exact hh
    | startRead =>
      obtain rfl := Except.ok.inj ((startReadInLoop_eq hw).symm.trans h)
      exact readingStarted_handled hh
    | stopRead =>
      obtain rfl := Except.ok.inj ((stopReadInLoop_eq hw).symm.trans h)
      exact readingStopped_handled hh
  · obtain rfl := Except.ok.inj h
    exact hh

/-- **Whatever a step does**, `handleEvent` is under way when `eventHandling_` is set. -/
theorem step_handled {a : Action} (hw : c.channel.Watched) (hh : Handled c)
    (h : c.step a = .ok c') : Handled c' := by
  cases a with
  | handleEvent r w => exact handleEvent_handled h
  | callbackReturn r w => exact callbackReturn_handled hw hh h
  | runFunctor w =>
    change c.runNextFunctor w = .ok c' at h
    unfold runNextFunctor at h
    split at h
    · obtain rfl := Except.ok.inj h
      exact hh
    · rename_i f rest hbatch
      exact runFunctor_handled (c := c.dequeued rest) hw hh h
  | delayedForceClose =>
    exact call_handled (c := { c with delayed := c.delayed - 1 }) hw hh h
  | call k w => exact call_handled hw hh h
  | report revents =>
    obtain rfl := Except.ok.inj h
    exact hh
  | beginCall k =>
    obtain rfl := Except.ok.inj h
    exact hh
  | finishCall i =>
    obtain rfl := Except.ok.inj h
    unfold finishCall
    split
    · exact hh
    · rename_i k _
      cases k <;> exact hh
  | editInput b =>
    obtain rfl := Except.ok.inj h
    exact hh

end Kaycc.TcpConnection
