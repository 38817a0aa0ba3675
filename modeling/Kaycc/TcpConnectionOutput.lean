/-
  Kaycc/TcpConnectionOutput.lean
  ==============================
  **What sending does to a connection.**

  `sendInLoop` and `handleWrite` change the output buffer, the write interest and
  the log, and queue notifications; `Output` says that they change nothing else.
  `Streams c sent` is the relation that their proofs carry: what the kernel has
  accepted, followed by what is in the buffer, is what was sent, and the channel
  waits to write exactly when the buffer is not empty.  Where `handleWrite` goes
  on to `shutdownInLoop`, its lemma says so.
-/
import Kaycc.TcpConnection

namespace Kaycc.TcpConnection

variable {c c' c'' : TcpConnection} {sent : Bytes} {w : WriteResult}

/-! ### What stays the same -/

/-- Functors that only call the user. -/
def Functor.notifies : Functor → Prop
  | .writeCompleteCallback => True
  | .highWaterMarkCallback _ => True
  | _ => False

/-- The results of `sockets::write`. -/
def Event.isWrite : Event → Prop
  | .written _ => True
  | .writeFailed _ => True
  | _ => False

/-- A channel after changes of its write interest, of which none takes the last interest
    twice. -/
structure Rewatched (ch ch' : Channel) : Prop where
  revents : ch'.revents = ch.revents
  active : ch'.active = ch.active
  reading : ch'.isReading = ch.isReading
  handling : ch'.eventHandling = ch.eventHandling
  index : ch.index ≠ EPollPoller.kNew → ch'.index ≠ EPollPoller.kNew
  plain : ch.events.Plain → ch'.events.Plain
  watched : ch.Watched → ch'.Watched
  synced : ch.Synced → ch'.Synced

theorem Rewatched.refl (ch : Channel) : Rewatched ch ch := ⟨rfl, rfl, rfl, rfl, id, id, id, id⟩

theorem Rewatched.trans {ch ch' ch'' : Channel} (h₁ : Rewatched ch ch')
    (h₂ : Rewatched ch' ch'') : Rewatched ch ch'' :=
  ⟨h₂.revents.trans h₁.revents, h₂.active.trans h₁.active, h₂.reading.trans h₁.reading,
    h₂.handling.trans h₁.handling, h₂.index ∘ h₁.index, h₂.plain ∘ h₁.plain,
    h₂.watched ∘ h₁.watched, h₂.synced ∘ h₁.synced⟩

theorem rewatched_enableWriting (ch : Channel) :
    Rewatched ch (ch.watching (ch.events.union kWriteEvent)) :=
  ⟨rfl, rfl, Channel.isReading_enableWriting _, rfl, fun _ => Channel.watching_index_ne _ _,
    Channel.plain_enableWriting, fun _ => Channel.watching_watched _ _,
    fun h => h.watching (.inr (Channel.union_ne_none (by decide)))⟩

theorem rewatched_disableWriting {ch : Channel} (hwriting : ch.isWriting = true) :
    Rewatched ch (ch.watching (ch.events.without kWriteEvent)) :=
  ⟨rfl, rfl, Channel.isReading_disableWriting _, rfl, fun _ => Channel.watching_index_ne _ _,
    Channel.plain_disableWriting, fun _ => Channel.watching_watched _ _,
    fun h => h.watching (.inl (Channel.ne_none_of_meets hwriting))⟩

/-- `c'` is `c` after some output. -/
structure Output (c c' : TcpConnection) : Prop where
  others : c' = { c with
    channel := c'.channel
    outputBuffer := c'.outputBuffer
    functors := c'.functors
    log := c'.log }
  channel : Rewatched c.channel c'.channel
  batch : c'.functors.batch = c.functors.batch
  pending : ∃ fs, c'.functors.pending = c.functors.pending ++ fs ∧ ∀ f ∈ fs, f.notifies
  log : ∃ es, c'.log = c.log ++ es ∧ ∀ e ∈ es, e.isWrite

theorem Output.refl (c : TcpConnection) : Output c c :=
  ⟨rfl, Rewatched.refl _, rfl, ⟨[], by simp⟩, ⟨[], by simp⟩⟩

theorem Output.trans (h₁ : Output c c') (h₂ : Output c' c'') : Output c c'' := by
  obtain ⟨fs₁, hp₁, hf₁⟩ := h₁.pending
  obtain ⟨fs₂, hp₂, hf₂⟩ := h₂.pending
  obtain ⟨es₁, hl₁, he₁⟩ := h₁.log
  obtain ⟨es₂, hl₂, he₂⟩ := h₂.log
  refine ⟨?_, h₁.channel.trans h₂.channel, h₂.batch.trans h₁.batch,
    ⟨fs₁ ++ fs₂, ?_, ?_⟩, ⟨es₁ ++ es₂, ?_, ?_⟩⟩
  · have h := h₂.others
    rw [h₁.others] at h
    exact h
  · rw [hp₂, hp₁, List.append_assoc]
  · intro f hf
    exact (List.mem_append.mp hf).elim (hf₁ f) (hf₂ f)
  · rw [hl₂, hl₁, List.append_assoc]
  · intro e he
    exact (List.mem_append.mp he).elim (he₁ e) (he₂ e)

theorem Output.state (h : Output c c') : c'.state = c.state := by rw [h.others]

theorem Output.frames (h : Output c c') : c'.frames = c.frames := by rw [h.others]

theorem output_record {e : Event} (he : e.isWrite) : Output c (c.record e) :=
  ⟨rfl, Rewatched.refl _, rfl, ⟨[], (List.append_nil _).symm, by simp⟩,
    ⟨[e], rfl, by simpa using he⟩⟩

theorem output_queueInLoop {f : Functor} (hf : f.notifies) : Output c (c.queueInLoop f) :=
  ⟨rfl, Rewatched.refl _, rfl, ⟨[f], rfl, by simpa using hf⟩,
    ⟨[], (List.append_nil _).symm, by simp⟩⟩

theorem output_buffer (b : Buffer) : Output c { c with outputBuffer := b } :=
  ⟨rfl, Rewatched.refl _, rfl, ⟨[], (List.append_nil _).symm, by simp⟩,
    ⟨[], (List.append_nil _).symm, by simp⟩⟩

theorem output_setChannel {ch : Channel} (h : Rewatched c.channel ch) :
    Output c (c.setChannel ch) :=
  ⟨rfl, h, rfl, ⟨[], (List.append_nil _).symm, by simp⟩, ⟨[], (List.append_nil _).symm, by simp⟩⟩

/-! ### The stream -/

/-- The bytes the kernel accepted by this event. -/
def Event.accepted : Event → Bytes
  | .written data => data
  | _ => []

/-- The bytes the kernel has accepted, in order. -/
def writtenIn (log : List Event) : Bytes := log.flatMap Event.accepted

@[simp] theorem writtenIn_append (l l' : List Event) :
    writtenIn (l ++ l') = writtenIn l ++ writtenIn l' := List.flatMap_append

@[simp] theorem writtenIn_record (c : TcpConnection) (e : Event) :
    writtenIn (c.record e).log = writtenIn c.log ++ e.accepted := by
  simp [record, writtenIn]

/-- Sending is exact so far. -/
structure Streams (c : TcpConnection) (sent : Bytes) : Prop where
  stream : writtenIn c.log ++ c.outputBuffer.content = sent
  writing : c.channel.isWriting = true ↔ c.outputBuffer.content ≠ []

/-- What `Streams` depends on. -/
theorem Streams.congr (h : Streams c sent) (hlog : writtenIn c'.log = writtenIn c.log)
    (hbuf : c'.outputBuffer = c.outputBuffer)
    (hch : c'.channel.isWriting = c.channel.isWriting) : Streams c' sent :=
  ⟨by rw [hlog, hbuf]; exact h.stream, by rw [hch, hbuf]; exact h.writing⟩

theorem Streams.direct (h : Streams c sent) (hd : c.writesDirectly) :
    c.outputBuffer.content = [] ∧ writtenIn c.log = sent := by
  have hnil := Buffer.content_eq_nil.mpr hd.2
  exact ⟨hnil, by rw [← h.stream, hnil, List.append_nil]⟩

/-- `shutdownInLoop` shuts down when nothing waits to be written. -/
theorem Streams.shutdownInLoop (h : Streams c sent) : Streams c.shutdownInLoop sent := by
  unfold TcpConnection.shutdownInLoop
  split
  · exact h.congr (by simp [Event.accepted]) rfl rfl
  · exact h

@[simp] theorem shutdownInLoop_channel (c : TcpConnection) :
    c.shutdownInLoop.channel = c.channel := by
  unfold TcpConnection.shutdownInLoop
  split <;> rfl

/-- The payload is dropped: the direct write failed with `EPIPE` or `ECONNRESET`. -/
def drops (c : TcpConnection) (w : WriteResult) : Prop :=
  c.writesDirectly ∧ (w = .failed .EPIPE ∨ w = .failed .ECONNRESET)

instance (c : TcpConnection) (w : WriteResult) : Decidable (c.drops w) :=
  inferInstanceAs (Decidable (_ ∧ _))

theorem output_queueHighWaterMark (c : TcpConnection) (oldLen remaining : Nat) :
    Output c (c.queueHighWaterMark oldLen remaining) := by
  unfold queueHighWaterMark
  split
  · exact output_queueInLoop trivial
  · exact Output.refl c

/-- The high-water mark does not touch what is sent. -/
theorem queueHighWaterMark_eq (c : TcpConnection) (oldLen remaining : Nat) :
    (c.queueHighWaterMark oldLen remaining).log = c.log ∧
      (c.queueHighWaterMark oldLen remaining).outputBuffer = c.outputBuffer ∧
      (c.queueHighWaterMark oldLen remaining).channel = c.channel := by
  unfold queueHighWaterMark
  split <;> exact ⟨rfl, rfl, rfl⟩

theorem appendOutput_ok (hw : c.channel.Watched) {rest : Bytes} (hrest : rest ≠ []) :
    ∃ c', c.appendOutput rest = .ok c' ∧ Output c c' ∧
      Streams c' (writtenIn c.log ++ c.outputBuffer.content ++ rest) := by
  have hmark := output_queueHighWaterMark c c.outputBuffer.readableBytes rest.length
  obtain ⟨hlog, hbuf, hch⟩ := queueHighWaterMark_eq c c.outputBuffer.readableBytes rest.length
  unfold appendOutput
  generalize c.queueHighWaterMark c.outputBuffer.readableBytes rest.length = m at *
  obtain ⟨b, hb, hcont⟩ := m.outputBuffer.append_ok rest
  have hne : b.content ≠ [] := by
    rw [hcont]
    exact List.append_ne_nil_of_right_ne_nil _ hrest
  have hsent : writtenIn m.log ++ b.content =
      writtenIn c.log ++ c.outputBuffer.content ++ rest := by
    rw [hcont, hlog, hbuf, List.append_assoc]
  have hout : Output c { m with outputBuffer := b } := hmark.trans (output_buffer b)
  have hwm : ({ m with outputBuffer := b } : TcpConnection).channel.Watched := by
    change m.channel.Watched
    rw [hch]
    exact hw
  by_cases hwriting : m.channel.isWriting = false
  · refine ⟨_, by simp only [hb, ok_bind, if_pos hwriting, Channel.enableWriting,
      Channel.setEvents_eq hwm, pure_eq_ok]; rfl, ?_, hsent, ?_⟩
    · exact hout.trans (output_setChannel (rewatched_enableWriting _))
    · exact iff_of_true (Channel.isWriting_enableWriting _) hne
  · refine ⟨_, by simp only [hb, ok_bind, if_neg hwriting, pure_eq_ok], hout, hsent, ?_⟩
    exact iff_of_true (eq_true_of_ne_false hwriting) hne

/-- What remains of a payload goes to the buffer, if there is any. -/
theorem appendRest_ok (hw : c.channel.Watched) (rest : Bytes) :
    ∃ c', (if 0 < rest.length then c.appendOutput rest else .ok c) = .ok c' ∧ Output c c' ∧
      ∀ sent, Streams c sent → Streams c' (sent ++ rest) := by
  by_cases hrest : 0 < rest.length
  · obtain ⟨c', heq, hout, hs'⟩ := appendOutput_ok hw (List.length_pos_iff.mp hrest)
    refine ⟨c', by rw [if_pos hrest, heq], hout, fun sent hs => ?_⟩
    rw [← hs.stream]
    exact hs'
  · obtain rfl : rest = [] := List.length_eq_zero_iff.mp (Nat.eq_zero_of_not_pos hrest)
    refine ⟨c, if_neg hrest, Output.refl c, ?_⟩
    intro sent hs
    rw [List.append_nil]
    exact hs

/-- What the direct write does. -/
theorem directWrite_ok (hd : c.writesDirectly) (data : Bytes) (w : WriteResult) :
    ∃ m n, c.directWrite data w = ⟨m, n, decide (c.drops w)⟩ ∧ Output c m ∧
      m.channel = c.channel ∧ m.outputBuffer = c.outputBuffer ∧
      writtenIn m.log = writtenIn c.log ++ data.take n ∧
      (c.drops w → n = 0 ∧ (.writeFailed .EPIPE ∈ m.log ∨ .writeFailed .ECONNRESET ∈ m.log)) := by
  cases w with
  | wrote n =>
    have hnot : ¬ c.drops (.wrote n) := by
      rintro ⟨_, h | h⟩ <;> cases h
    have hrec : Output c (c.record (.written (data.take n))) := output_record trivial
    have hwritten := writtenIn_record c (.written (data.take n))
    rw [decide_eq_false hnot]
    by_cases hdone : data.length - n = 0 ∧ c.writeCompleteCallback = true
    · exact ⟨_, n, if_pos hdone, hrec.trans (output_queueInLoop trivial), rfl, rfl, hwritten,
        fun h => absurd h hnot⟩
    · exact ⟨_, n, if_neg hdone, hrec, rfl, rfl, hwritten, fun h => absurd h hnot⟩
  | failed errno =>
    have hfault : decide (c.drops (.failed errno)) =
        if errno ≠ .EWOULDBLOCK then decide (errno = .EPIPE ∨ errno = .ECONNRESET)
        else false := by
      unfold drops
      cases errno <;> simp [hd]
    refine ⟨c.record (.writeFailed errno), 0, by rw [hfault]; rfl, output_record trivial, rfl, rfl,
      by rw [writtenIn_record, List.take_zero]; rfl, fun h => ⟨rfl, ?_⟩⟩
    refine h.2.imp ?_ ?_ <;>
    · intro heq
      cases heq
      exact List.mem_append_right _ List.mem_cons_self

/-- **`sendInLoop` sends its payload, or drops it whole.** -/
theorem sendInLoop_ok (hw : c.channel.Watched) (hstate : c.state ≠ .kDisconnected)
    (data : Bytes) (w : WriteResult) :
    ∃ c', c.sendInLoop data w = .ok c' ∧ Output c c' ∧
      (∀ sent, Streams c sent → Streams c' (sent ++ if c.drops w then [] else data)) ∧
      (c.drops w → .writeFailed .EPIPE ∈ c'.log ∨ .writeFailed .ECONNRESET ∈ c'.log) := by
  unfold sendInLoop
  rw [if_neg hstate]
  by_cases hd : c.writesDirectly
  · obtain ⟨m, n, hm, hout, hch, hbuf, hwritten, hzero⟩ := directWrite_ok hd data w
    -- the buffer was empty, so the stream goes on with what the direct write sent
    have hstream : ∀ sent, Streams c sent → Streams m (sent ++ data.take n) := by
      intro sent hs
      obtain ⟨hnil, hsent⟩ := hs.direct hd
      refine ⟨?_, by rw [hch, hbuf]; exact hs.writing⟩
      rw [hbuf, hnil, List.append_nil, hwritten, hsent]
    simp only [if_pos hd, hm]
    by_cases hdrop : c.drops w
    · obtain ⟨rfl, hfailed⟩ := hzero hdrop
      refine ⟨m, if_neg (fun h => by simp [hdrop] at h), hout, fun sent hs => ?_, fun _ => hfailed⟩
      rw [if_pos hdrop]
      exact hstream sent hs
    · obtain ⟨c', heq, hout', hs'⟩ := appendRest_ok (c := m) (hch ▸ hw) (data.drop n)
      refine ⟨c', ?_, hout.trans hout', ?_, fun h => absurd h hdrop⟩
      · simpa only [decide_eq_false hdrop, true_and] using heq
      · intro sent hs
        have h := hs' _ (hstream sent hs)
        rw [if_neg hdrop]
        rwa [List.append_assoc, List.take_append_drop] at h
  · have hnot : ¬ c.drops w := fun h => hd h.1
    obtain ⟨c', heq, hout, hs'⟩ := appendRest_ok hw data
    refine ⟨c', ?_, hout, ?_, fun h => absurd h hnot⟩
    · simpa only [if_neg hd, List.drop_zero, true_and] using heq
    · intro sent hs
      rw [if_neg hnot]
      exact hs' sent hs

/-- The branch of `handleWrite` that has emptied the buffer. -/
theorem outputDrained_ok (hw : c.channel.Watched) (hwriting : c.channel.isWriting = true)
    (hnil : c.outputBuffer.content = []) :
    ∃ m, Output c m ∧ Streams m (writtenIn c.log) ∧ m.outputBuffer.content = [] ∧
      c.outputDrained = .ok (if c.state = .kDisconnecting then m.shutdownInLoop else m) := by
  have hquiet := output_setChannel (rewatched_disableWriting hwriting)
  have hs : Streams (c.setChannel (c.channel.watching (c.channel.events.without kWriteEvent)))
      (writtenIn c.log) := by
    refine ⟨?_, iff_of_false ?_ (not_not.mpr hnil)⟩
    · change writtenIn c.log ++ c.outputBuffer.content = _
      rw [hnil, List.append_nil]
    · exact ne_true_of_eq_false (Channel.isWriting_disableWriting _)
  have hnil' : (c.setChannel
      (c.channel.watching (c.channel.events.without kWriteEvent))).outputBuffer.content = [] := hnil
  unfold outputDrained
  simp only [Channel.disableWriting, Channel.setEvents_eq hw, ok_bind, pure_eq_ok]
  generalize c.setChannel (c.channel.watching (c.channel.events.without kWriteEvent)) = m at *
  by_cases hcallback : c.writeCompleteCallback = true
  · refine ⟨m.queueInLoop .writeCompleteCallback, hquiet.trans (output_queueInLoop trivial),
      hs.congr rfl rfl rfl, hnil', ?_⟩
    rw [if_pos hcallback]
    split <;> rfl
  · refine ⟨m, hquiet, hs, hnil', ?_⟩
    rw [if_neg hcallback]
    split <;> rfl

/-- The kernel accepts all that is in the output buffer. -/
def drainedBy (c : TcpConnection) : WriteResult → Prop
  | .wrote n => c.channel.isWriting = true ∧ 0 < n ∧ c.outputBuffer.readableBytes ≤ n
  | .failed _ => False

instance (c : TcpConnection) : (w : WriteResult) → Decidable (c.drainedBy w)
  | .wrote _ => inferInstanceAs (Decidable (_ ∧ _))
  | .failed _ => .isFalse id

/-- **`handleWrite` moves bytes from the front of the buffer to the kernel**, and shuts down
    when it has drained the buffer in `kDisconnecting`. -/
theorem handleWrite_ok (hw : c.channel.Watched) (hfits : w.fits c.outputBuffer.readableBytes) :
    ∃ m, Output c m ∧ (∀ sent, Streams c sent → Streams m sent) ∧
      (c.drainedBy w → m.outputBuffer.content = []) ∧
      c.handleWrite w = .ok
        (if c.drainedBy w ∧ c.state = .kDisconnecting then m.shutdownInLoop else m) := by
  unfold handleWrite
  by_cases hwriting : c.channel.isWriting = true
  · rw [if_pos hwriting]
    cases w with
    | wrote n =>
      have hrec : Output c (c.record (.written (c.outputBuffer.content.take n))) :=
        output_record trivial
      have hwritten : writtenIn (c.record (.written (c.outputBuffer.content.take n))).log =
          writtenIn c.log ++ c.outputBuffer.content.take n := writtenIn_record c _
      dsimp only
      by_cases hpos : 0 < n
      · obtain ⟨b, hb, hcont⟩ := Buffer.retrieve_ok (b := c.outputBuffer) hfits
        have hlen : b.readableBytes = c.outputBuffer.readableBytes - n := by
          rw [← Buffer.length_content, hcont, List.length_drop, Buffer.length_content]
        rw [if_pos hpos]
        simp only [hb, ok_bind]
        have hout := hrec.trans (output_buffer b)
        by_cases hnil : b.readableBytes = 0
        · rw [if_pos hnil]
          have hdrained : c.drainedBy (.wrote n) := ⟨hwriting, hpos, by omega⟩
          have hdrop : c.outputBuffer.content.drop n = [] :=
            hcont ▸ Buffer.content_eq_nil.mpr hnil
          have hall : c.outputBuffer.content.take n = c.outputBuffer.content := by
            have h := List.take_append_drop n c.outputBuffer.content
            rwa [hdrop, List.append_nil] at h
          obtain ⟨m, hout', hs', hempty, heq⟩ := outputDrained_ok
            (c := { c.record (.written (c.outputBuffer.content.take n)) with
              outputBuffer := b }) hw hwriting (Buffer.content_eq_nil.mpr hnil)
          refine ⟨m, hout.trans hout', fun sent hs => ?_, fun _ => hempty, heq.trans ?_⟩
          · rw [hwritten, hall, hs.stream] at hs'
            exact hs'
          · simp only [hdrained, true_and]
            rfl
        · rw [if_neg hnil]
          have hnot : ¬ c.drainedBy (.wrote n) := by
            rintro ⟨_, _, hle⟩
            omega
          refine ⟨_, hout, fun sent hs => ⟨?_, iff_of_true hwriting ?_⟩, fun h => absurd h hnot,
            by rw [if_neg fun h => hnot h.1]; rfl⟩
          · change writtenIn _ ++ b.content = sent
            rw [hwritten, hcont, List.append_assoc, List.take_append_drop]
            exact hs.stream
          · exact fun h => hnil (Buffer.content_eq_nil.mp h)
      · have hnot : ¬ c.drainedBy (.wrote n) := fun h => hpos h.2.1
        rw [if_neg hpos]
        obtain rfl : n = 0 := Nat.eq_zero_of_not_pos hpos
        exact ⟨_, hrec, fun sent hs => hs.congr (by rw [hwritten]; simp) rfl rfl,
          fun h => absurd h hnot, by rw [if_neg fun h => hnot h.1]⟩
    | failed errno =>
      refine ⟨c.record (.writeFailed errno), output_record trivial,
        fun sent hs => hs.congr (by simp [Event.accepted]) rfl rfl, False.elim, ?_⟩
      rw [if_neg fun h => h.1]
  · have hnot : ¬ c.drainedBy w := by
      cases w with
      | wrote n => exact fun h => hwriting h.1
      | failed errno => exact id
    rw [if_neg hwriting]
    exact ⟨c, Output.refl c, fun _ => id, fun h => absurd h hnot, by rw [if_neg fun h => hnot h.1]⟩

/-- When `handleWrite` drains the buffer in `kDisconnecting`, it shuts down at once. -/
theorem handleWrite_drained (hw : c.channel.Watched) (hfits : w.fits c.outputBuffer.readableBytes)
    (hdrained : c.drainedBy w) (hstate : c.state = .kDisconnecting) :
    ∃ c', c.handleWrite w = .ok c' ∧
      c'.log = c.log ++ [.written c.outputBuffer.content] ++ [.shutdownWrite] := by
  cases w with
  | failed errno => exact hdrained.elim
  | wrote n =>
    obtain ⟨hwriting, hpos, hle⟩ := hdrained
    obtain ⟨b, hb, hcont⟩ := Buffer.retrieve_ok (b := c.outputBuffer) hfits
    have htake : c.outputBuffer.content.take n = c.outputBuffer.content :=
      List.take_of_length_le (by rw [Buffer.length_content]; exact hle)
    have hnil : b.readableBytes = 0 := by
      rw [← Buffer.content_eq_nil, hcont]
      exact List.drop_eq_nil_of_le (by rw [Buffer.length_content]; exact hle)
    have hquiet : (c.channel.watching (c.channel.events.without kWriteEvent)).isWriting = false :=
      Channel.isWriting_disableWriting _
    simp only [handleWrite, if_pos hwriting, if_pos hpos, hb, ok_bind, if_pos hnil, htake,
      outputDrained, Channel.disableWriting]
    rw [Channel.setEvents_eq (show (c.record (.written c.outputBuffer.content)).channel.Watched
      from hw)]
    simp only [ok_bind, pure_eq_ok]
    rw [if_pos (show (c.record (.written c.outputBuffer.content)).state = .kDisconnecting
      from hstate)]
    refine ⟨_, rfl, ?_⟩
    -- the notification that may be queued leaves the channel and the log alone
    split
    · exact congrArg TcpConnection.log (if_pos hquiet)
    · exact congrArg TcpConnection.log (if_pos hquiet)

/-! ### Establishing and reading -/

/-- The connection in its first `connectionCallback_`. -/
def established (c : TcpConnection) : TcpConnection :=
  ((c.setState .kConnected).setChannel
    (c.channel.tie.watching (c.channel.events.union kReadEvent))).callConnectionCallback
      .connectEstablished

theorem connectEstablished_eq (hstate : c.state = .kConnecting) (hw : c.channel.Watched) :
    c.connectEstablished = .ok c.established := by
  have htie : c.channel.tie.Watched := ⟨hw.index, hw.registered, hw.interest⟩
  simp only [connectEstablished, check_eq_ok hstate, ok_bind, Channel.enableReading,
    Channel.setEvents_eq htie, pure_eq_ok]
  rfl

/-- The connection in the `connectionCallback_` of `handleClose`. -/
def closed (c : TcpConnection) (resume : Resume) : TcpConnection :=
  ((c.setState .kDisconnected).setChannel (c.channel.watching kNoneEvent)).callConnectionCallback
    (.handleClose resume)

theorem handleClose_eq (hw : c.channel.Watched) (hopen : c.isOpen) (resume : Resume) :
    c.handleClose resume = .ok (c.closed resume) := by
  simp only [handleClose, check_eq_ok hopen, ok_bind, Channel.disableAll,
    Channel.setEvents_eq hw, pure_eq_ok]
  rfl

/-- The connection after `startReadInLoop`. -/
def readingStarted (c : TcpConnection) : TcpConnection :=
  if c.reading = false ∨ c.channel.isReading = false then
    { c with channel := c.channel.watching (c.channel.events.union kReadEvent), reading := true }
  else c

/-- The connection after `stopReadInLoop`. -/
def readingStopped (c : TcpConnection) : TcpConnection :=
  if c.reading = true ∨ c.channel.isReading = true then
    { c with channel := c.channel.watching (c.channel.events.without kReadEvent), reading := false }
  else c

theorem startReadInLoop_eq (hw : c.channel.Watched) :
    c.startReadInLoop = .ok c.readingStarted := by
  unfold startReadInLoop readingStarted
  simp only [Channel.enableReading, Channel.setEvents_eq hw, ok_bind, pure_eq_ok]
  split <;> rfl

theorem stopReadInLoop_eq (hw : c.channel.Watched) :
    c.stopReadInLoop = .ok c.readingStopped := by
  unfold stopReadInLoop readingStopped
  simp only [Channel.disableReading, Channel.setEvents_eq hw, ok_bind, pure_eq_ok]
  split <;> rfl

theorem readingStarted_watched (hw : c.channel.Watched) : c.readingStarted.channel.Watched := by
  unfold readingStarted
  split
  · exact Channel.watching_watched _ _
  · exact hw

theorem readingStopped_watched (hw : c.channel.Watched) : c.readingStopped.channel.Watched := by
  unfold readingStopped
  split
  · exact Channel.watching_watched _ _
  · exact hw

/-- Switching reading on and off leaves what is sent alone. -/
theorem Streams.readingStarted (hs : Streams c sent) : Streams c.readingStarted sent := by
  unfold TcpConnection.readingStarted
  split
  · exact hs.congr rfl rfl (Channel.isWriting_enableReading _)
  · exact hs

theorem Streams.readingStopped (hs : Streams c sent) : Streams c.readingStopped sent := by
  unfold TcpConnection.readingStopped
  split
  · exact hs.congr rfl rfl (Channel.isWriting_disableReading _)
  · exact hs

end Kaycc.TcpConnection
