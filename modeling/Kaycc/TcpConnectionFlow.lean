/-
  Kaycc/TcpConnectionFlow.lean
  ============================
  **What a step of a connection does to its two byte streams.**

  A step may pass a payload to `sendInLoop` (`entered`) and may read from the socket
  (`received`).  `Carried` says that it does nothing else to the streams: what the
  kernel has accepted and what is in the output buffer together grow by the payload,
  the content of the input buffer grows by what was read.  Everything but
  `sendInLoop`, `handleWrite`, `shutdownInLoop` and `handleRead` is `Aside`.

  `Flushing` is the invariant behind the output: a channel waits to write only when
  there is something to write, and always then as long as the connection has not been
  disconnected.  `Flushed` is what follows for a socket that is shut down by then: it
  has accepted everything, and stays so while it answers that its end is shut.
-/
import Kaycc.TcpConnectionMoves

namespace Kaycc.TcpConnection

open Postcondition

variable {point : Point} {c c' c'' : TcpConnection} {r : ReadResult} {w : WriteResult}

/-! ### What a step reads and sends -/

/-- `sockets::write` has accepted nothing. -/
def WriteResult.isFailure : WriteResult → Prop
  | .wrote _ => False
  | .failed _ => True

instance : (w : WriteResult) → Decidable w.isFailure
  | .wrote _ => .isFalse id
  | .failed _ => .isTrue trivial

/-- The errors for which `sendInLoop` gives its payload up. -/
def WriteResult.Broken (w : WriteResult) : Prop :=
  w = .failed .EPIPE ∨ w = .failed .ECONNRESET

instance (w : WriteResult) : Decidable w.Broken := inferInstanceAs (Decidable (_ ∨ _))

theorem WriteResult.Broken.isFailure (h : w.Broken) : w.isFailure := by
  rcases h with rfl | rfl <;> exact trivial

/-- The answer of `sockets::write` that a step uses if it writes. -/
def Action.writeResult : Action → Option WriteResult
  | .handleEvent _ w => some w
  | .callbackReturn _ w => some w
  | .runFunctor w => some w
  | .call _ w => some w
  | _ => none

/-- The answer of `readv` that a step uses, when it calls `handleRead`. -/
def readBy (c : TcpConnection) : Action → Option ReadResult
  | .handleEvent r _ =>
      if c.channel.revents.pollhup = true ∧ c.channel.revents.pollin = false then none
      else if c.channel.revents.meets readMask = true then some r else none
  | .callbackReturn r _ => match c.frames with
      | .handleClose .errorPart :: _ =>
          if c.channel.revents.meets readMask = true then some r else none
      | _ => none
  | _ => none

def bytesOf : Option ReadResult → Bytes
  | some (.bytes data) => data
  | _ => []

/-- The bytes that a step reads from the socket. -/
def received (c : TcpConnection) (a : Action) : Bytes := bytesOf (c.readBy a)

/-- `sendInLoop` takes a payload on: it neither gives up nor drops it. -/
def takesOn (c : TcpConnection) (w : WriteResult) : Prop :=
  c.state ≠ .kDisconnected ∧ ¬ c.drops w

instance (c : TcpConnection) (w : WriteResult) : Decidable (c.takesOn w) :=
  inferInstanceAs (Decidable (_ ∧ _))

/-- The payload that a step hands to `sendInLoop`, with the answer to its direct write. -/
def handed (c : TcpConnection) : Action → Option (Bytes × WriteResult)
  | .call (.send message) w => if c.state = .kConnected then some (message, w) else none
  | .runFunctor w => match c.functors.batch with
      | .sendInLoop message :: _ => some (message, w)
      | _ => none
  | _ => none

/-- The payloads, none or one, that `sendInLoop` takes on in a step. -/
def entered (c : TcpConnection) (a : Action) : List Bytes :=
  match c.handed a with
  | some (message, w) => if c.takesOn w then [message] else []
  | none => []

/-! ### Steps beside the streams -/

/-- Neither accepted bytes nor the end of the stream. -/
def Event.isAside : Event → Prop
  | .written _ => False
  | .shutdownWrite => False
  | _ => True

structure Aside (c c' : TcpConnection) : Prop where
  watched : c.channel.Watched → c'.channel.Watched
  output : c'.outputBuffer = c.outputBuffer
  input : c'.inputBuffer = c.inputBuffer
  log : ∃ es, c'.log = c.log ++ es ∧ ∀ e ∈ es, e.isAside
  writing : c'.channel.isWriting = c.channel.isWriting ∨
    c'.channel.isWriting = false ∧ .connectionCallback false ∈ c'.log
  state : .connectionCallback false ∉ c'.log → c.state ≠ .kDisconnected →
    c'.state ≠ .kDisconnected

theorem Aside.refl (c : TcpConnection) : Aside c c :=
  ⟨id, rfl, rfl, ⟨[], by simp⟩, .inl rfl, fun _ => id⟩

theorem Aside.trans (h₁ : Aside c c') (h₂ : Aside c' c'') : Aside c c'' := by
  obtain ⟨es₁, hl₁, he₁⟩ := h₁.log
  obtain ⟨es₂, hl₂, he₂⟩ := h₂.log
  have hkept : ∀ e ∈ c'.log, e ∈ c''.log := by
    intro e he
    rw [hl₂]
    exact List.mem_append_left _ he
  refine ⟨h₂.watched ∘ h₁.watched, h₂.output.trans h₁.output, h₂.input.trans h₁.input,
    ⟨es₁ ++ es₂, ?_, ?_⟩, ?_, ?_⟩
  · rw [hl₂, hl₁, List.append_assoc]
  · intro e he
    exact (List.mem_append.mp he).elim (he₁ e) (he₂ e)
  · rcases h₂.writing with h | h
    · rcases h₁.writing with h' | ⟨h', hdown⟩
      · exact .inl (h.trans h')
      · exact .inr ⟨h.trans h', hkept _ hdown⟩
    · exact .inr h
  · intro hdown hstate
    exact h₂.state hdown (h₁.state (fun h => hdown (hkept _ h)) hstate)

/-- A step that leaves the channel, the buffers and the log alone. -/
theorem aside_same (hch : c'.channel = c.channel) (hout : c'.outputBuffer = c.outputBuffer)
    (hin : c'.inputBuffer = c.inputBuffer) (hlog : c'.log = c.log)
    (hstate : c.state ≠ .kDisconnected → c'.state ≠ .kDisconnected) : Aside c c' :=
  ⟨fun h => hch ▸ h, hout, hin, ⟨[], by rw [hlog, List.append_nil], by simp⟩,
    .inl (by rw [hch]), fun _ => hstate⟩

theorem aside_record {e : Event} (he : e.isAside) : Aside c (c.record e) :=
  ⟨id, rfl, rfl, ⟨[e], rfl, by simpa using he⟩, .inl rfl, fun _ => id⟩

theorem aside_queueInLoop (f : Functor) : Aside c (c.queueInLoop f) :=
  aside_same rfl rfl rfl rfl id

theorem aside_dequeued (rest : List Functor) : Aside c (c.dequeued rest) :=
  aside_same rfl rfl rfl rfl id

theorem aside_disconnecting : Aside c (c.setState .kDisconnecting) :=
  aside_same rfl rfl rfl rfl fun _ => nofun

theorem aside_setChannel {ch : Channel} (hw : c.channel.Watched → ch.Watched)
    (hwriting : ch.isWriting = c.channel.isWriting) : Aside c (c.setChannel ch) :=
  ⟨hw, rfl, rfl, ⟨[], by simp [setChannel]⟩, .inl hwriting, fun _ => id⟩

/-- The callbacks of a connection that is disconnected. -/
theorem aside_disconnected (frame : Frame) :
    Aside c (((c.setState .kDisconnected).setChannel
      (c.channel.watching kNoneEvent)).callConnectionCallback frame) := by
  have hdown : .connectionCallback false ∈ (((c.setState .kDisconnected).setChannel
      (c.channel.watching kNoneEvent)).callConnectionCallback frame).log :=
    List.mem_append_right _ List.mem_cons_self
  refine ⟨fun _ => Channel.watching_watched _ _, rfl, rfl, ⟨[.connectionCallback false], rfl, ?_⟩,
    .inr ⟨rfl, hdown⟩, fun h => absurd hdown h⟩
  intro e he
  rw [List.mem_singleton.mp he]
  exact trivial

theorem aside_removed (hr : c.channel.Removable) : Aside c (c.setChannel c.channel.removed) :=
  aside_setChannel (fun _ => (Channel.removed_synced hr.events).toWatched) rfl

theorem aside_readingStarted : Aside c c.readingStarted := by
  unfold readingStarted
  split
  · exact ⟨fun _ => Channel.watching_watched _ _, rfl, rfl, ⟨[], by simp⟩,
      .inl (Channel.isWriting_enableReading _), fun _ => id⟩
  · exact Aside.refl c

theorem aside_readingStopped : Aside c c.readingStopped := by
  unfold readingStopped
  split
  · exact ⟨fun _ => Channel.watching_watched _ _, rfl, rfl, ⟨[], by simp⟩,
      .inl (Channel.isWriting_disableReading _), fun _ => id⟩
  · exact Aside.refl c

/-! ### Steps on the streams -/

/-- The channel waits to write only when there is something to write, and always then until
    the connection is disconnected. -/
structure Flushing (c : TcpConnection) : Prop where
  waiting : c.channel.isWriting = true → c.outputBuffer.content ≠ []
  isOpen : .connectionCallback false ∉ c.log → c.state ≠ .kDisconnected
  writing : .connectionCallback false ∉ c.log → c.outputBuffer.content ≠ [] →
    c.channel.isWriting = true

/-- A socket that was shut down before the connection was disconnected has accepted all. -/
def Flushed (c : TcpConnection) : Prop :=
  .shutdownWrite ∈ c.log → .connectionCallback false ∉ c.log → c.outputBuffer.content = []

/-- Everything that `sendInLoop` has taken on, as far as it has gone. -/
def outgoing (c : TcpConnection) : Bytes := writtenIn c.log ++ c.outputBuffer.content

/-- `c'` is `c` after a step that takes on `entered` and reads `received`, where `w` is the
    answer of `sockets::write`. -/
structure Carried (w : WriteResult) (c c' : TcpConnection) (entered received : Bytes) : Prop where
  watched : c'.channel.Watched
  outgoing : c'.outgoing = c.outgoing ++ entered
  input : c'.inputBuffer.content = c.inputBuffer.content ++ received
  log : c.log <+: c'.log
  failed : w.isFailure → writtenIn c'.log = writtenIn c.log
  flushing : Flushing c → Flushing c'
  flushed : (.shutdownWrite ∈ c.log → w.Broken) → Flushing c → Flushed c → Flushed c'

theorem writtenIn_aside {es : List Event} (h : ∀ e ∈ es, e.isAside) : writtenIn es = [] := by
  apply List.flatMap_eq_nil_iff.mpr
  intro e he
  have haside := h e he
  cases e with
  | written data => exact haside.elim
  | _ => rfl

theorem Aside.writtenIn_log (h : Aside c c') : writtenIn c'.log = writtenIn c.log := by
  obtain ⟨es, hlog, hes⟩ := h.log
  rw [hlog, writtenIn_append, writtenIn_aside hes, List.append_nil]

theorem Aside.shutdownWrite (h : Aside c c') (hmem : .shutdownWrite ∈ c'.log) :
    .shutdownWrite ∈ c.log := by
  obtain ⟨es, hlog, hes⟩ := h.log
  rw [hlog] at hmem
  rcases List.mem_append.mp hmem with hmem | hmem
  · exact hmem
  · exact (hes _ hmem).elim

theorem Aside.log_prefix (h : Aside c c') : c.log <+: c'.log := by
  obtain ⟨es, hlog, -⟩ := h.log
  exact ⟨es, hlog.symm⟩

theorem Aside.outgoing (h : Aside c c') : c'.outgoing = c.outgoing := by
  rw [TcpConnection.outgoing, TcpConnection.outgoing, h.writtenIn_log, h.output]

theorem Aside.flushing (h : Aside c c') (hf : Flushing c) : Flushing c' := by
  have hdown : .connectionCallback false ∉ c'.log → .connectionCallback false ∉ c.log :=
    fun hnot hmem => hnot (h.log_prefix.subset hmem)
  constructor
  · intro hwriting
    rw [h.output]
    rcases h.writing with heq | ⟨heq, _⟩
    · exact hf.waiting (heq ▸ hwriting)
    · cases heq.symm.trans hwriting
  · intro hnot
    exact h.state hnot (hf.isOpen (hdown hnot))
  · intro hnot hne
    rw [h.output] at hne
    rcases h.writing with heq | ⟨_, hmem⟩
    · exact heq.trans (hf.writing (hdown hnot) hne)
    · exact absurd hmem hnot

theorem Aside.flushed (h : Aside c c') (hf : Flushed c) : Flushed c' := by
  intro hshut hnot
  rw [h.output]
  exact hf (h.shutdownWrite hshut) fun hmem => hnot (h.log_prefix.subset hmem)

theorem Aside.carried (h : Aside c c') (hw : c.channel.Watched) : Carried w c c' [] [] where
  watched := h.watched hw
  outgoing := by rw [h.outgoing, List.append_nil]
  input := by rw [h.input, List.append_nil]
  log := h.log_prefix
  failed := fun _ => h.writtenIn_log
  flushing := h.flushing
  flushed := fun _ _ => h.flushed

variable {entered received : Bytes}

theorem Carried.after (h : Carried w c c' entered received) (ha : Aside c' c'') :
    Carried w c c'' entered received where
  watched := ha.watched h.watched
  outgoing := ha.outgoing.trans h.outgoing
  input := by rw [ha.input, h.input]
  log := h.log.trans ha.log_prefix
  failed := fun hw => ha.writtenIn_log.trans (h.failed hw)
  flushing := fun hf => ha.flushing (h.flushing hf)
  flushed := fun hshut hf hd => ha.flushed (h.flushed hshut hf hd)

theorem Carried.before (ha : Aside c c') (h : Carried w c' c'' entered received) :
    Carried w c c'' entered received where
  watched := h.watched
  outgoing := by rw [h.outgoing, ha.outgoing]
  input := by rw [h.input, ha.input]
  log := ha.log_prefix.trans h.log
  failed := fun hw => (h.failed hw).trans ha.writtenIn_log
  flushing := fun hf => h.flushing (ha.flushing hf)
  flushed := fun hshut hf hd =>
    h.flushed (fun hmem => hshut (ha.shutdownWrite hmem)) (ha.flushing hf) (ha.flushed hd)

/-- What a function that takes `entered` on and reads `received` ends with. -/
abbrev Carries (w : WriteResult) (c : TcpConnection) (entered received : Bytes)
    (x : Except Assertion TcpConnection) : Prop :=
  Ends (fun c' => Carried w c c' entered received) (fun _ => True) x

/-- What a function beside the streams ends with. -/
abbrev StaysAside (c : TcpConnection) (x : Except Assertion TcpConnection) : Prop :=
  Ends (Aside c) (fun _ => True) x

theorem carries_after {f : TcpConnection → Except Assertion TcpConnection}
    {x : Except Assertion TcpConnection} (h : Carries w c entered received x)
    (hf : ∀ c', c'.channel.Watched → StaysAside c' (f c')) :
    Carries w c entered received (x >>= f) :=
  h.bind fun c' hc' => (hf c' hc'.watched).imp fun _ ha => hc'.after ha

/-! ### Sending -/

theorem shutdownInLoop_carried (hw : c.channel.Watched) : Carried w c c.shutdownInLoop [] [] := by
  unfold shutdownInLoop
  split
  · rename_i hwriting
    have hdown : .connectionCallback false ∉ (c.record .shutdownWrite).log →
        .connectionCallback false ∉ c.log :=
      fun hnot hmem => hnot (List.mem_append_left _ hmem)
    refine ⟨hw, ?_, (List.append_nil _).symm, List.prefix_append _ _, ?_, ?_, ?_⟩
    · simp [TcpConnection.outgoing, record, Event.accepted, writtenIn]
    · intro _
      rw [writtenIn_record]
      exact List.append_nil _
    · intro hf
      exact ⟨hf.waiting, fun h => hf.isOpen (hdown h), fun h => hf.writing (hdown h)⟩
    · intro _ hf _ _ hnot
      by_contra hne
      cases hwriting.symm.trans (hf.writing (hdown hnot) hne)
  · exact (Aside.refl c).carried hw

theorem Output.mem_log (h : Output c c') {e : Event} (he : ¬ e.isWrite) :
    e ∈ c'.log ↔ e ∈ c.log := by
  obtain ⟨es, hlog, hes⟩ := h.log
  rw [hlog, List.mem_append]
  exact or_iff_left fun hmem => he (hes e hmem)

/-- Where only the buffer and the accepted bytes change, the stream says the rest. -/
theorem Flushing.output {sent : Bytes} (hf : Flushing c) (ho : Output c c')
    (hs : Streams c' sent) : Flushing c' := by
  constructor
  · exact hs.writing.mp
  · intro hnot
    rw [ho.state]
    exact hf.isOpen ((ho.mem_log id).not.mp hnot)
  · exact fun _ => hs.writing.mpr

theorem flushed_output (ho : Output c c')
    (h : .shutdownWrite ∈ c.log → .connectionCallback false ∉ c.log →
      c'.outputBuffer.content = []) : Flushed c' :=
  fun hmem hnot => h ((ho.mem_log id).mp hmem) ((ho.mem_log id).not.mp hnot)

theorem appendOutput_log (c : TcpConnection) (rest : Bytes) :
    Ends (fun c' => c'.log = c.log) (fun _ => True) (c.appendOutput rest) := by
  have hmark := (queueHighWaterMark_eq c c.outputBuffer.readableBytes rest.length).1
  unfold appendOutput
  refine Ends.bind (P := fun _ => True) ?_ fun b _ => ?_
  · exact ends_iff.mpr ⟨fun _ _ => trivial, fun _ _ => trivial⟩
  · apply ends_ite
    · intro _
      refine Ends.bind (P := fun _ => True) ?_ fun ch _ => hmark
      exact ends_iff.mpr ⟨fun _ _ => trivial, fun _ _ => trivial⟩
    · exact fun _ => hmark

/-- A direct write that fails is all that `sendInLoop` adds to the log. -/
theorem sendInLoop_failed (hfail : w.isFailure) (data : Bytes) :
    Ends (fun c' => writtenIn c'.log = writtenIn c.log) (fun _ => True) (c.sendInLoop data w) := by
  have happend (d : TcpConnection) (rest : Bytes) (hd : writtenIn d.log = writtenIn c.log) :
      Ends (fun c' => writtenIn c'.log = writtenIn c.log) (fun _ => True) (d.appendOutput rest) :=
    (appendOutput_log d rest).imp fun _ h => by rw [h, hd]
  cases w with
  | wrote n => exact hfail.elim
  | failed errno =>
    have hlog : writtenIn (c.record (.writeFailed errno)).log = writtenIn c.log := by
      rw [writtenIn_record]
      exact List.append_nil _
    unfold sendInLoop
    apply ends_ite
    · exact fun _ => rfl
    · intro _
      by_cases hd : c.writesDirectly
      · simp only [if_pos hd, directWrite]
        exact ends_ite (fun _ => happend _ _ hlog) fun _ => hlog
      · simp only [if_neg hd]
        exact ends_ite (fun _ => happend _ _ rfl) fun _ => rfl

/-- **`sendInLoop` takes its payload on, or leaves the streams alone.** -/
theorem sendInLoop_carries (hw : c.channel.Watched) (data : Bytes) (w : WriteResult) :
    Carries w c (if c.takesOn w then data else []) [] (c.sendInLoop data w) := by
  by_cases hstate : c.state = .kDisconnected
  · have hnot : ¬ c.takesOn w := fun h => h.1 hstate
    rw [if_neg hnot]
    exact ends_of_eq (if_pos hstate) ((Aside.refl c).carried hw)
  have hfailed := sendInLoop_failed (c := c) (w := w)
  by_cases hd : c.writesDirectly
  · have hnil : c.outputBuffer.content = [] := Buffer.content_eq_nil.mpr hd.2
    have hs : Streams c c.outgoing :=
      ⟨rfl, iff_of_false (ne_true_of_eq_false hd.1) (not_not.mpr hnil)⟩
    obtain ⟨c', heq, ho, hstream, -⟩ := sendInLoop_ok hw hstate data w
    have hs' := hstream _ hs
    have hentered : (if c.takesOn w then data else []) = if c.drops w then [] else data := by
      by_cases hdrop : c.drops w
      · rw [if_pos hdrop, if_neg fun h => h.2 hdrop]
      · rw [if_neg hdrop, if_pos ⟨hstate, hdrop⟩]
    have hsame (hfail : w.isFailure) : writtenIn c'.log = writtenIn c.log :=
      (hfailed hfail data).of_ok heq
    refine ends_of_eq heq ⟨ho.channel.watched hw, ?_, ?_, ?_, hsame, fun hf => hf.output ho hs', ?_⟩
    · rw [hentered]
      exact hs'.stream
    · rw [ho.others, List.append_nil]
    · obtain ⟨es, hlog, -⟩ := ho.log
      exact ⟨es, hlog.symm⟩
    · intro hshut _ _
      refine flushed_output ho fun hmem _ => ?_
      -- after the shutdown the payload is dropped
      have hbroken := hshut hmem
      have hall := hs'.stream
      rw [if_pos ⟨hd, hbroken⟩, List.append_nil, hsame hbroken.isFailure, TcpConnection.outgoing,
        hnil] at hall
      exact List.append_cancel_left hall
  · have htakes : c.takesOn w := ⟨hstate, fun h => hd h.1⟩
    have heq : c.sendInLoop data w =
        if 0 < data.length then c.appendOutput data else .ok c := by
      rw [sendInLoop, if_neg hstate]
      simp only [if_neg hd, List.drop_zero, true_and]
    rw [if_pos htakes]
    by_cases hdata : 0 < data.length
    · obtain ⟨c', happ, ho, hs⟩ := appendOutput_ok hw (List.length_pos_iff.mp hdata)
      rw [if_pos hdata, happ] at heq
      refine ends_of_eq heq ⟨ho.channel.watched hw, hs.stream, ?_, ?_,
        fun hfail => (hfailed hfail data).of_ok heq, fun hf => hf.output ho hs, ?_⟩
      · rw [ho.others, List.append_nil]
      · obtain ⟨es, hlog, -⟩ := ho.log
        exact ⟨es, hlog.symm⟩
      · intro _ hf hd'
        refine flushed_output ho fun hmem hdown => ?_
        -- a socket that was shut down by then is written to directly
        have hnil := hd' hmem hdown
        refine absurd ⟨?_, Buffer.content_eq_nil.mp hnil⟩ hd
        exact Bool.eq_false_iff.mpr fun hwriting => hf.waiting hwriting hnil
    · obtain rfl : data = [] := List.length_eq_zero_iff.mp (Nat.eq_zero_of_not_pos hdata)
      rw [if_neg hdata] at heq
      exact ends_of_eq heq ((Aside.refl c).carried hw)

theorem Carried.shutdown (h : Carried w c c' entered received) :
    Carried w c c'.shutdownInLoop entered received := by
  have hs : Carried (.failed .EPIPE) c' c'.shutdownInLoop [] [] := shutdownInLoop_carried h.watched
  refine ⟨hs.watched, ?_, ?_, h.log.trans hs.log, fun hfail => ?_,
    fun hf => hs.flushing (h.flushing hf), fun hshut hf hd => ?_⟩
  · rw [hs.outgoing, List.append_nil, h.outgoing]
  · rw [hs.input, List.append_nil, h.input]
  · rw [hs.failed trivial, h.failed hfail]
  · exact hs.flushed (fun _ => .inl rfl) (h.flushing hf) (h.flushed hshut hf hd)

/-- **`handleWrite` leaves the outgoing stream as it is.** -/
theorem handleWrite_carries (hw : c.channel.Watched) (hf : Flushing c)
    (hfits : w.fits c.outputBuffer.readableBytes) : Carries w c [] [] (c.handleWrite w) := by
  by_cases hwriting : c.channel.isWriting = true
  · have hne := hf.waiting hwriting
    have hs : Streams c c.outgoing := ⟨rfl, iff_of_true hwriting hne⟩
    obtain ⟨m, ho, hstream, -, heq⟩ := handleWrite_ok hw hfits
    have hs' := hstream _ hs
    have hm : Carried w c m [] [] := by
      refine ⟨ho.channel.watched hw, ?_, ?_, ?_, fun hfail => ?_, fun hf => hf.output ho hs', ?_⟩
      · rw [List.append_nil]
        exact hs'.stream
      · rw [ho.others, List.append_nil]
      · obtain ⟨es, hlog, -⟩ := ho.log
        exact ⟨es, hlog.symm⟩
      · cases w with
        | wrote n => exact hfail.elim
        | failed errno =>
          have hrec : c.handleWrite (.failed errno) = .ok (c.record (.writeFailed errno)) :=
            if_pos hwriting
          rw [if_neg fun h => h.1] at heq
          rw [← Except.ok.inj (hrec.symm.trans heq), writtenIn_record]
          exact List.append_nil _
      · intro _ _ hd
        exact flushed_output ho fun hmem hdown => absurd (hd hmem hdown) hne
    refine ends_of_eq heq ?_
    split
    · exact hm.shutdown
    · exact hm
  · exact ends_of_eq (if_neg hwriting) ((Aside.refl c).carried hw)

/-! ### Closing and reading -/

theorem handleClose_aside (hw : c.channel.Watched) (resume : Resume) :
    StaysAside c (c.handleClose resume) := by
  unfold handleClose
  refine Ends.bind (P := fun _ => c.isOpen) (check_ends trivial) fun _ _ => ?_
  rw [Channel.disableAll, Channel.setEvents_eq hw, ok_bind]
  exact aside_disconnected _

theorem handleRead_carries (hw : c.channel.Watched) (data : Bytes) :
    Carries w c [] data (c.handleRead data) := by
  obtain ⟨b, hb, hcont⟩ := Buffer.readFd_ok c.inputBuffer data
  have hread : Carried w c { c with inputBuffer := b } [] data :=
    ⟨hw, (List.append_nil _).symm, hcont, List.prefix_refl _, fun _ => rfl,
      fun hf => ⟨hf.waiting, hf.isOpen, hf.writing⟩, fun _ _ hd => hd⟩
  unfold handleRead
  rw [hb, ok_bind]
  apply ends_ite
  · intro _
    refine ends_ok (hread.after (Aside.trans (aside_record (e := .messageCallback) trivial) ?_))
    exact aside_same rfl rfl rfl rfl id
  · exact fun _ => (handleClose_aside hread.watched _).imp fun _ ha => hread.after ha

theorem writePart_carries (hw : c.channel.Watched) (hf : Flushing c)
    (hfits : w.fits c.outputBuffer.readableBytes) : Carries w c [] [] (c.writePart w) := by
  have hplace (c' : TcpConnection) (hw' : c'.channel.Watched) : StaysAside c'
      (pure (c'.setChannel { c'.channel with eventHandling := false, active := .handled })) :=
    ends_ok (aside_setChannel (fun _ => ⟨hw'.index, hw'.registered, hw'.interest⟩) rfl)
  unfold writePart
  apply ends_ite
  · exact fun _ => carries_after (handleWrite_carries hw hf hfits) hplace
  · exact fun _ => (hplace c hw).imp fun _ ha => ha.carried hw

/-- What `errorPart` reads. -/
def readByErrorPart (c : TcpConnection) (r : ReadResult) : Option ReadResult :=
  if c.channel.revents.meets readMask = true then some r else none

theorem errorPart_carries (hw : c.channel.Watched) (hf : Flushing c)
    (hfits : w.fits c.outputBuffer.readableBytes) (r : ReadResult) :
    Carries w c [] (bytesOf (c.readByErrorPart r)) (c.errorPart r w) := by
  unfold errorPart readByErrorPart
  split
  · cases r with
    | bytes data => exact handleRead_carries hw data
    | failed errno => exact writePart_carries hw hf hfits
  · exact writePart_carries hw hf hfits

theorem handleEvent_carries (hw : c.channel.Watched) (hf : Flushing c)
    (hfits : w.fits c.outputBuffer.readableBytes) (r : ReadResult) :
    Carries w c [] (c.received (.handleEvent r w)) (c.handleEvent r w) := by
  have haside : Aside c (c.setChannel
      { c.channel with eventHandling := true, active := .current }) :=
    aside_setChannel (fun _ => ⟨hw.index, hw.registered, hw.interest⟩) rfl
  unfold handleEvent received readBy
  by_cases hhup : c.channel.revents.pollhup = true ∧ c.channel.revents.pollin = false
  · rw [if_pos hhup]
    simp only [if_pos hhup]
    exact (handleClose_aside (haside.watched hw) _).imp fun _ h => (haside.trans h).carried hw
  · rw [if_neg hhup]
    simp only [if_neg hhup]
    exact (errorPart_carries (haside.watched hw) (haside.flushing hf) hfits r).imp
      fun _ h => Carried.before haside h

theorem callCloseCallback_aside (c : TcpConnection) :
    Ends (fun c' => Aside c c' ∧ c'.channel = c.channel) (fun _ => True) c.callCloseCallback := by
  have hcalled : Aside c (c.record .closeCallback) := aside_record trivial
  have hany {p : Prop} [Decidable p] (a : Assertion) :
      Ends (fun _ => True) (fun _ => True) (check p a) :=
    (check_ends trivial).imp fun _ _ => trivial
  unfold callCloseCallback
  apply ends_ite
  · intro _
    unfold removeConnectionInLoop
    refine (hany _).bind fun _ _ => (hany _).bind fun _ _ => ends_ok ⟨hcalled.trans ?_, rfl⟩
    exact aside_same rfl rfl rfl rfl id
  · intro _
    refine (hany _).bind fun _ _ => ends_ok ⟨hcalled.trans ?_, rfl⟩
    exact aside_same rfl rfl rfl rfl id

theorem remove_aside (hw : c.channel.Watched) (rest : List Frame) :
    StaysAside c (c.channel.remove >>= fun channel =>
      pure { c with frames := rest, channel := channel }) := by
  refine Ends.bind (P := fun ch => c.channel.Removable ∧ ch = c.channel.removed) ?_ ?_
  · exact ends_iff.mpr ⟨fun _ h => Channel.removed_of_ok hw h, fun _ _ => trivial⟩
  · rintro _ ⟨hr, rfl⟩
    exact ends_ok ((aside_removed hr).trans (aside_same rfl rfl rfl rfl id))

theorem connectDestroyed_aside (hw : c.channel.Watched) : StaysAside c c.connectDestroyed := by
  by_cases hstate : c.state = .kConnected
  · exact ends_of_eq (connectDestroyed_eq hw hstate) (aside_disconnected _)
  · rw [connectDestroyed, if_neg hstate]
    exact remove_aside hw c.frames

theorem callbackReturn_carries (hw : c.channel.Watched) (hf : Flushing c)
    (hfits : w.fits c.outputBuffer.readableBytes) (r : ReadResult) :
    Carries w c [] (c.received (.callbackReturn r w)) (c.callbackReturn r w) := by
  cases hframes : c.frames with
  | nil =>
    simp only [callbackReturn, received, readBy, hframes]
    exact ends_ok ((Aside.refl c).carried hw)
  | cons frame rest =>
    have hpop : Aside c { c with frames := rest } := aside_same rfl rfl rfl rfl id
    cases frame with
    | connectEstablished =>
      simp only [callbackReturn, received, readBy, hframes]
      exact ends_ok (hpop.carried hw)
    | handleRead =>
      simp only [callbackReturn, received, readBy, hframes]
      exact (writePart_carries (hpop.watched hw) (hpop.flushing hf) hfits).imp
        fun _ h => h.before hpop
    | connectDestroyed =>
      simp only [callbackReturn, received, readBy, hframes]
      exact (remove_aside hw _).imp fun _ ha => ha.carried hw
    | handleClose resume =>
      have hclosed := callCloseCallback_aside { c with frames := rest }
      cases resume with
      | functor =>
        simp only [callbackReturn, received, readBy, hframes]
        exact hclosed.bind fun _ ha => ends_ok ((hpop.trans ha.1).carried hw)
      | writePart =>
        simp only [callbackReturn, received, readBy, hframes]
        refine hclosed.bind fun d ha => ?_
        have hd := hpop.trans ha.1
        refine (writePart_carries (hd.watched hw) (hd.flushing hf) ?_).imp fun _ h => h.before hd
        rw [hd.output]
        exact hfits
      | errorPart =>
        simp only [callbackReturn, received, readBy, hframes]
        refine hclosed.bind fun d ha => ?_
        have hd := hpop.trans ha.1
        have hread : d.readByErrorPart r = c.readByErrorPart r := by
          unfold readByErrorPart
          rw [ha.2]
        refine Ends.imp (errorPart_carries (hd.watched hw) (hd.flushing hf) ?_ r) fun e h => ?_
        · rw [hd.output]
          exact hfits
        · rw [hread] at h
          exact h.before hd

/-! ### Functors and calls -/

theorem startReadInLoop_aside (hw : c.channel.Watched) : StaysAside c c.startReadInLoop :=
  ends_of_eq (startReadInLoop_eq hw) aside_readingStarted

theorem stopReadInLoop_aside (hw : c.channel.Watched) : StaysAside c c.stopReadInLoop :=
  ends_of_eq (stopReadInLoop_eq hw) aside_readingStopped

theorem StaysAside.carries {x : Except Assertion TcpConnection} (h : StaysAside c x)
    (hw : c.channel.Watched) : Carries w c [] [] x :=
  h.imp fun _ ha => ha.carried hw

theorem runNextFunctor_carries (hw : c.channel.Watched) (w : WriteResult) :
    Carries w c (c.entered (.runFunctor w)).flatten [] (c.runNextFunctor w) := by
  cases hbatch : c.functors.batch with
  | nil =>
    simp only [runNextFunctor, entered, handed, hbatch]
    exact ends_ok ((Aside.refl c).carried hw)
  | cons f rest =>
    have hpop : Aside c (c.dequeued rest) := aside_dequeued rest
    have hw' := hpop.watched hw
    have hstep : c.runNextFunctor w = (c.dequeued rest).runFunctor f w := by
      rw [runNextFunctor, hbatch]
      rfl
    have haside (h : StaysAside (c.dequeued rest) ((c.dequeued rest).runFunctor f w)) :
        Carries w c [] [] ((c.dequeued rest).runFunctor f w) :=
      h.imp fun _ ha => (hpop.trans ha).carried hw
    rw [hstep]
    cases f with
    | sendInLoop message =>
      simp only [entered, handed, hbatch]
      have hsend := sendInLoop_carries hw' message w
      have htakes : (if c.takesOn w then [message] else []).flatten =
          if (c.dequeued rest).takesOn w then message else [] := by
        change (if c.takesOn w then [message] else []).flatten =
          if c.takesOn w then message else []
        split <;> simp
      rw [htakes]
      exact hsend.imp fun _ h => h.before hpop
    | shutdownInLoop =>
      simp only [entered, handed, hbatch]
      exact ends_ok ((shutdownInLoop_carried hw').before hpop)
    | forceCloseInLoop =>
      simp only [entered, handed, hbatch]
      exact haside (ends_ite (fun _ => handleClose_aside hw' _) fun _ => Aside.refl _)
    | startReadInLoop =>
      simp only [entered, handed, hbatch]
      exact haside (startReadInLoop_aside hw')
    | stopReadInLoop =>
      simp only [entered, handed, hbatch]
      exact haside (stopReadInLoop_aside hw')
    | connectDestroyed =>
      simp only [entered, handed, hbatch]
      exact haside (connectDestroyed_aside hw')
    | writeCompleteCallback =>
      simp only [entered, handed, hbatch]
      exact haside (ends_ok (aside_record trivial))
    | highWaterMarkCallback size =>
      simp only [entered, handed, hbatch]
      exact haside (ends_ok (aside_record trivial))

/-- The calls other than `send` and `shutdown`. -/
def Call.isAside : Call → Prop
  | .send _ => False
  | .shutdown => False
  | _ => True

theorem callInLoop_aside (hw : c.channel.Watched) (k : Call) (hk : k.isAside) :
    StaysAside c (c.callInLoop w k) := by
  cases k with
  | send message => exact hk.elim
  | shutdown => exact hk.elim
  | forceClose => exact ends_ok (aside_disconnecting.trans (aside_queueInLoop _))
  | forceCloseWithDelay =>
    exact ends_ok (aside_disconnecting.trans (aside_same rfl rfl rfl rfl id))
  | startRead => exact startReadInLoop_aside hw
  | stopRead => exact stopReadInLoop_aside hw

theorem call_aside (hw : c.channel.Watched) (k : Call) (hk : k.isAside) :
    StaysAside c (c.call k w) :=
  ends_ite (fun _ => callInLoop_aside hw k hk) fun _ => Aside.refl c

theorem call_carries (hw : c.channel.Watched) (k : Call) (w : WriteResult) :
    Carries w c (c.entered (.call k w)).flatten [] (c.call k w) := by
  cases k with
  | send message =>
    by_cases hstate : c.state = .kConnected
    · simp only [entered, handed, if_pos hstate]
      have htakes : (if c.takesOn w then [message] else []).flatten =
          if c.takesOn w then message else [] := by
        split <;> simp
      rw [call, if_pos (show (Call.send message).accepts c from hstate), htakes]
      exact sendInLoop_carries hw message w
    · simp only [entered, handed, if_neg hstate]
      rw [call, if_neg (show ¬ (Call.send message).accepts c from hstate)]
      exact ends_ok ((Aside.refl c).carried hw)
  | shutdown =>
    apply ends_ite
    · intro _
      have hset : Aside c (c.setState .kDisconnecting) := aside_disconnecting
      exact ends_ok ((shutdownInLoop_carried (hset.watched hw)).before hset)
    · exact fun _ => ends_ok ((Aside.refl c).carried hw)
  | forceClose => exact (call_aside hw .forceClose trivial).carries hw
  | forceCloseWithDelay => exact (call_aside hw .forceCloseWithDelay trivial).carries hw
  | startRead => exact (call_aside hw .startRead trivial).carries hw
  | stopRead => exact (call_aside hw .stopRead trivial).carries hw

theorem finishCall_aside (i : Nat) : Aside c (c.finishCall i) := by
  unfold finishCall
  cases c.calling[i]? with
  | none => exact Aside.refl c
  | some k =>
    have herase : Aside c { c with calling := c.calling.eraseIdx i } :=
      aside_same rfl rfl rfl rfl id
    cases k with
    | send message => exact herase.trans (aside_queueInLoop _)
    | shutdown => exact (herase.trans aside_disconnecting).trans (aside_queueInLoop _)
    | forceClose => exact (herase.trans aside_disconnecting).trans (aside_queueInLoop _)
    | forceCloseWithDelay =>
      exact (herase.trans aside_disconnecting).trans (aside_same rfl rfl rfl rfl id)
    | startRead => exact herase.trans (aside_queueInLoop _)
    | stopRead => exact herase.trans (aside_queueInLoop _)

/-! ### Every step -/

/-- **What a step does to the streams**: it takes on what it hands to `sendInLoop`, it reads
    what `readv` has returned, and nothing else. -/
theorem step_carries (hw : c.channel.Watched) (hf : Flushing c) {a : Action}
    (hen : c.enabled point a) (hedit : ∀ b, a ≠ .editInput b)
    (hans : ∀ v ∈ a.writeResult, v = w) :
    Carries w c (c.entered a).flatten (c.received a) (c.step a) := by
  cases a with
  | report revents =>
    refine ends_ok (Aside.carried (aside_setChannel (fun _ => ?_) rfl) hw)
    exact ⟨hw.index, hw.registered, hw.interest⟩
  | handleEvent r v =>
    obtain rfl := hans v rfl
    exact handleEvent_carries hw hf hen.2.2.2.2 r
  | callbackReturn r v =>
    obtain rfl := hans v rfl
    exact callbackReturn_carries hw hf hen.2.2 r
  | runFunctor v =>
    obtain rfl := hans v rfl
    exact runNextFunctor_carries hw v
  | delayedForceClose =>
    have hbook : Aside c { c with delayed := c.delayed - 1 } := aside_same rfl rfl rfl rfl id
    have hcall : StaysAside { c with delayed := c.delayed - 1 }
        (({ c with delayed := c.delayed - 1 } : TcpConnection).call .forceClose (.wrote 0)) :=
      call_aside (hbook.watched hw) .forceClose trivial
    exact hcall.imp fun _ ha => (hbook.trans ha).carried hw
  | call k v =>
    obtain rfl := hans v rfl
    exact call_carries hw k v
  | beginCall k => exact ends_ok (Aside.carried (aside_same rfl rfl rfl rfl id) hw)
  | finishCall i => exact ends_ok ((finishCall_aside i).carried hw)
  | editInput b => exact absurd rfl (hedit b)

end Kaycc.TcpConnection
