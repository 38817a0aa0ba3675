/-
  Kaycc/TcpConnectionShutdown.lean
  ================================
  **When data sent before `shutdown()` is not cut off.**

  One thread passes payloads to `send()` and then calls `shutdown()`; each call is
  cut into its test of `state_`, its `setState` and its enqueueing.  The loop
  meanwhile handles write events and closings and runs the functors.

  The queued `shutdownInLoop` comes behind all payloads.  The other call of
  `shutdownInLoop`, in `handleWrite`, looks only at `state_`, which the thread has
  changed already while its payloads may still be waiting functors: an output
  buffer that is drained at that moment shuts the socket down in front of them.
  Without such a drain the bytes are in order: those accepted by the kernel, then
  those in the buffer, in the functors, in the call under way, and those still to
  be sent.
-/
import Kaycc.TcpConnectionOutput
import Kaycc.Transition

namespace Kaycc

open Transition Transition.System TcpConnection

/-- Where the sending thread is: between two calls; in `send()`, with `state_` tested; in
    `shutdown()`, with `state_` tested, and with `state_` set; after `shutdown()`. -/
inductive Sender.Point where
  | calling
  | sending (message : Bytes)
  | shuttingDown
  | queueingShutdown
  | done
deriving DecidableEq, Repr

/-- The thread and the connection.  `total` is all that is to be written: what was in the
    output buffer and in the functors at the beginning, and the payloads. -/
structure Sender where
  conn : TcpConnection
  point : Sender.Point
  payloads : List Bytes
  total : Bytes

namespace Sender

variable {s s' : Sender}

inductive Action where
  | testSend
  | queueSend
  | testShutdown
  | setDisconnecting
  | queueShutdown
  | handleWrite (w : WriteResult)
  | handleClose
  | swapFunctors
  | runFunctor (w : WriteResult)
deriving DecidableEq, Repr

def step (s : Sender) : Action → Except Assertion Sender
  | .testSend => match s.payloads with
      | [] => .ok s
      | message :: rest =>
          if s.conn.state = .kConnected then
            .ok { s with point := .sending message, payloads := rest }
          else .ok { s with payloads := rest }
  | .queueSend => match s.point with
      | .sending message =>
          .ok { s with conn := s.conn.queueInLoop (.sendInLoop message), point := .calling }
      | _ => .ok s
  | .testShutdown =>
      .ok { s with point := if s.conn.state = .kConnected then .shuttingDown else .done }
  | .setDisconnecting =>
      .ok { s with conn := s.conn.setState .kDisconnecting, point := .queueingShutdown }
  | .queueShutdown => .ok { s with conn := s.conn.queueInLoop .shutdownInLoop, point := .done }
  | .handleWrite w => do
      let conn ← s.conn.handleWrite w
      pure { s with conn := conn }
  | .handleClose => do
      let conn ← s.conn.handleClose .writePart
      pure { s with conn := conn }
  | .swapFunctors => .ok { s with conn := { s.conn with functors := s.conn.functors.swap } }
  | .runFunctor w => do
      let conn ← s.conn.runNextFunctor w
      pure { s with conn := conn }

/-- The loop handles events between two batches of functors. -/
def enabled (s : Sender) : Action → Prop
  | .testSend => s.point = .calling ∧ s.payloads ≠ []
  | .queueSend => ∃ message, s.point = .sending message
  | .testShutdown => s.point = .calling ∧ s.payloads = []
  | .setDisconnecting => s.point = .shuttingDown
  | .queueShutdown => s.point = .queueingShutdown
  | .handleWrite w =>
      s.conn.functors.batch = [] ∧ w.fits s.conn.outputBuffer.readableBytes
  | .handleClose => s.conn.functors.batch = [] ∧ s.conn.isOpen
  | .swapFunctors => s.conn.functors.batch = []
  | .runFunctor _ => s.conn.functors.batch ≠ []

/-- The payload of a `sendInLoop` functor. -/
def payload : Functor → Bytes
  | .sendInLoop message => message
  | _ => []

/-- The payloads in a list of functors. -/
def payloadsIn (fs : List Functor) : Bytes := fs.flatMap payload

/-- Functors that neither shut down nor close. -/
def keepsOpen : Functor → Prop
  | .shutdownInLoop => False
  | .forceCloseInLoop => False
  | .connectDestroyed => False
  | _ => True

/-- Any connection in `kConnected` whose log is begun here, with any output buffer and any
    functors that neither shut down nor close. -/
def system : System Sender Action Assertion where
  init s := s.conn.state = .kConnected ∧ s.conn.channel.Watched ∧ s.conn.log = [] ∧
    (s.conn.channel.isWriting = true ↔ s.conn.outputBuffer.content ≠ []) ∧
    (∀ f ∈ s.conn.functors.waiting, keepsOpen f) ∧ s.point = .calling ∧
    s.total = s.conn.outputBuffer.content ++ payloadsIn s.conn.functors.waiting ++
      s.payloads.flatten
  enabled := enabled
  step := step

/-! ### What is to be shown -/

/-- A write has failed with `EPIPE` or `ECONNRESET`, or the connection was closed. -/
def Excused (log : List Event) : Prop :=
  (.writeFailed .EPIPE ∈ log ∨ .writeFailed .ECONNRESET ∈ log) ∨ .connectionCallback false ∈ log

instance (log : List Event) : Decidable (Excused log) := inferInstanceAs (Decidable (_ ∨ _))

/-- At each `shutdownWrite` all bytes have been accepted. -/
def Complete (log : List Event) (total : Bytes) : Prop :=
  ∀ before after, log = before ++ .shutdownWrite :: after →
    Excused before ∨ writtenIn before = total

/-- The condition: an output buffer that is drained in `kDisconnecting` is not drained in
    front of payloads that wait in functors. -/
def drainsBehindSends (s : Sender) (a : Action) : Prop :=
  ∀ w, a = .handleWrite w → s.conn.drainedBy w → s.conn.state = .kDisconnecting →
    Excused s.conn.log ∨ payloadsIn s.conn.functors.waiting = []

theorem excused_append {l l' : List Event} (h : Excused l) : Excused (l ++ l') :=
  h.imp (Or.imp (List.mem_append_left _) (List.mem_append_left _)) (List.mem_append_left _)

/-- The log grows by an event. -/
theorem Complete.append_one {log : List Event} {total : Bytes} {e : Event}
    (h : Complete log total)
    (he : e = .shutdownWrite → Excused log ∨ writtenIn log = total) :
    Complete (log ++ [e]) total := by
  intro before after heq
  rcases List.eq_nil_or_concat after with rfl | ⟨after', e', rfl⟩
  · obtain ⟨rfl, hlast⟩ := List.append_inj' heq rfl
    exact he (List.head_eq_of_cons_eq hlast)
  · rw [List.concat_eq_append, ← List.cons_append, ← List.append_assoc] at heq
    exact h before after' (List.append_inj' heq rfl).1

/-- The log grows by writes. -/
theorem Complete.append_writes {log es : List Event} {total : Bytes} (h : Complete log total)
    (hes : ∀ e ∈ es, e.isWrite) : Complete (log ++ es) total := by
  induction es generalizing log with
  | nil => rwa [List.append_nil]
  | cons e rest ih =>
    have hfirst : Complete (log ++ [e]) total := by
      apply h.append_one
      intro heq
      have hwrite := hes e List.mem_cons_self
      rw [heq] at hwrite
      exact hwrite.elim
    have hall := ih hfirst fun e' he' => hes e' (.tail _ he')
    rwa [List.append_assoc] at hall

/-! ### The functors in order -/

/-- No payload comes behind `shutdownInLoop`. -/
def Orderly : List Functor → Prop
  | [] => True
  | f :: rest => (f = .shutdownInLoop → payloadsIn rest = []) ∧ Orderly rest

@[simp] theorem payloadsIn_append (fs gs : List Functor) :
    payloadsIn (fs ++ gs) = payloadsIn fs ++ payloadsIn gs := List.flatMap_append

theorem orderly_append {fs gs : List Functor} (hf : Orderly fs) (hg : Orderly gs)
    (h : .shutdownInLoop ∈ fs → payloadsIn gs = []) : Orderly (fs ++ gs) := by
  induction fs with
  | nil => exact hg
  | cons f rest ih =>
    refine ⟨?_, ih hf.2 fun hmem => h (.tail _ hmem)⟩
    intro hfs
    change payloadsIn (rest ++ gs) = []
    rw [payloadsIn_append, hf.1 hfs, h (hfs ▸ List.mem_cons_self), List.append_nil]

theorem orderly_of_notMem {fs : List Functor} (h : .shutdownInLoop ∉ fs) : Orderly fs := by
  induction fs with
  | nil => exact trivial
  | cons f rest ih =>
    exact ⟨fun heq => absurd (heq ▸ List.mem_cons_self) h, ih fun hmem => h (.tail _ hmem)⟩

/-- Notifications carry no payload and do not shut down. -/
theorem payloadsIn_notifications {fs : List Functor} (h : ∀ f ∈ fs, f.notifies) :
    payloadsIn fs = [] ∧ Orderly fs ∧ ∀ f ∈ fs, f ≠ .shutdownInLoop := by
  induction fs with
  | nil => exact ⟨rfl, trivial, by simp⟩
  | cons f rest ih =>
    obtain ⟨hpay, hord, hne⟩ := ih fun g hg => h g (.tail _ hg)
    have hf : payload f = [] ∧ f ≠ .shutdownInLoop := by
      have hn := h f List.mem_cons_self
      cases f with
      | writeCompleteCallback => exact ⟨rfl, nofun⟩
      | highWaterMarkCallback size => exact ⟨rfl, nofun⟩
      | _ => exact hn.elim
    refine ⟨?_, ⟨fun heq => absurd heq hf.2, hord⟩, ?_⟩
    · change payload f ++ payloadsIn rest = []
      rw [hf.1, hpay, List.append_nil]
    · intro g hg
      rcases List.mem_cons.mp hg with rfl | hg
      · exact hf.2
      · exact hne g hg

/-! ### The invariant -/

/-- The payload of the call under way. -/
def Point.payload : Point → Bytes
  | .sending message => message
  | _ => []

/-- `state_` has been set to `kDisconnecting`. -/
def Point.hasShut : Point → Prop
  | .queueingShutdown => True
  | .done => True
  | _ => False

/-- How `state_`, the thread and the functors go together. -/
structure Ready (s : Sender) : Prop where
  isOpen : s.conn.isOpen
  disconnecting : s.conn.state = .kDisconnecting ↔ s.point.hasShut
  sent : s.point = .calling ∨ (∃ message, s.point = .sending message) ∨ s.payloads = []
  orderly : Orderly s.conn.functors.waiting
  queued : .shutdownInLoop ∈ s.conn.functors.waiting → s.point = .done

/-- While no write has failed and the connection is not closed. -/
structure Going (s : Sender) : Prop extends Ready s where
  writing : s.conn.channel.isWriting = true ↔ s.conn.outputBuffer.content ≠ []
  stream : writtenIn s.conn.log ++ s.conn.outputBuffer.content ++
    payloadsIn s.conn.functors.waiting ++ s.point.payload ++ s.payloads.flatten = s.total

structure Inv (s : Sender) : Prop where
  watched : s.conn.channel.Watched
  functors : ∀ f ∈ s.conn.functors.waiting, keepsOpen f ∨ f = .shutdownInLoop
  complete : Complete s.conn.log s.total
  going : ¬ Excused s.conn.log → Going s

theorem init_inv (h : system.init s) : Inv s := by
  obtain ⟨hstate, hw, hlog, hwriting, hfs, hpoint, htotal⟩ := h
  have hno : .shutdownInLoop ∉ s.conn.functors.waiting := fun hmem => hfs _ hmem
  refine ⟨hw, fun f hf => .inl (hfs f hf), ?_, fun _ => ?_⟩
  · intro before after heq
    rw [hlog] at heq
    cases before <;> cases heq
  · refine ⟨⟨.inl hstate, ?_, .inl hpoint, orderly_of_notMem hno, fun hmem => absurd hmem hno⟩,
      hwriting, ?_⟩
    · rw [hstate, hpoint]
      exact iff_of_false nofun id
    · rw [hlog, hpoint, htotal]
      simp [writtenIn, Point.payload]

/-- With a drained buffer and no waiting payload all has been accepted, once `state_` has
    been set to `kDisconnecting`. -/
theorem Going.all_written (hg : Going s) (hshut : s.point.hasShut)
    (hfs : payloadsIn s.conn.functors.waiting = []) :
    writtenIn s.conn.log ++ s.conn.outputBuffer.content = s.total := by
  have hnone : s.point.payload = [] ∧ s.payloads = [] := by
    have hsent := hg.sent
    revert hshut hsent
    cases s.point with
    | queueingShutdown =>
      intro _ hsent
      exact ⟨rfl, (hsent.resolve_left nofun).resolve_left nofun⟩
    | done =>
      intro _ hsent
      exact ⟨rfl, (hsent.resolve_left nofun).resolve_left nofun⟩
    | calling => exact fun h => h.elim
    | sending message => exact fun h => h.elim
    | shuttingDown => exact fun h => h.elim
  have hstream := hg.stream
  rwa [hfs, hnone.1, hnone.2, List.flatten_nil, List.append_nil, List.append_nil,
    List.append_nil] at hstream

/-! ### Steps of the loop -/

/-- What waits after some output. -/
theorem waiting_output {c c' : TcpConnection} (h : Output c c') :
    ∃ fs, c'.functors.waiting = c.functors.waiting ++ fs ∧ ∀ f ∈ fs, f.notifies := by
  obtain ⟨fs, hp, hf⟩ := h.pending
  refine ⟨fs, ?_, hf⟩
  rw [SwapQueue.waiting, SwapQueue.waiting, h.batch, hp, List.append_assoc]

/-- The functors of the loop after some output. -/
theorem functors_output {c c' : TcpConnection} (h : Output c c')
    (hfs : ∀ f ∈ c.functors.waiting, keepsOpen f ∨ f = .shutdownInLoop) :
    ∀ f ∈ c'.functors.waiting, keepsOpen f ∨ f = .shutdownInLoop := by
  obtain ⟨fs, heq, hn⟩ := waiting_output h
  intro f hf
  rw [heq] at hf
  rcases List.mem_append.mp hf with hf | hf
  · exact hfs f hf
  · left
    have := hn f hf
    cases f <;> first | exact trivial | exact this.elim

/-- Output under which the bytes stay in order. -/
theorem Ready.output {c' : TcpConnection} {sent : Bytes} (hg : Ready s)
    (h : Output s.conn c') (hs : Streams c' sent)
    (hsent : sent ++ payloadsIn s.conn.functors.waiting ++ s.point.payload ++
      s.payloads.flatten = s.total) : Going { s with conn := c' } := by
  obtain ⟨fs, hwait, hn⟩ := waiting_output h
  obtain ⟨hpay, hord, hne⟩ := payloadsIn_notifications hn
  refine ⟨⟨?_, ?_, hg.sent, ?_, ?_⟩, hs.writing, ?_⟩
  · unfold TcpConnection.isOpen
    rw [h.state]
    exact hg.isOpen
  · rw [h.state]
    exact hg.disconnecting
  · rw [hwait]
    exact orderly_append hg.orderly hord fun _ => hpay
  · intro hmem
    rw [hwait] at hmem
    rcases List.mem_append.mp hmem with hmem | hmem
    · exact hg.queued hmem
    · exact absurd rfl (hne _ hmem)
  · change writtenIn c'.log ++ c'.outputBuffer.content ++ payloadsIn c'.functors.waiting ++
      s.point.payload ++ s.payloads.flatten = s.total
    rw [hs.stream, hwait, payloadsIn_append, hpay, List.append_nil]
    exact hsent

theorem not_excused_left {l l' : List Event} (h : ¬ Excused (l ++ l')) : ¬ Excused l :=
  fun he => h (excused_append he)

/-- `shutdownInLoop` keeps the invariant when all has been accepted by the time nothing
    waits to be written. -/
theorem Inv.shutdownInLoop (hi : Inv s)
    (hall : ¬ Excused s.conn.log →
      writtenIn s.conn.log ++ s.conn.outputBuffer.content = s.total) :
    Inv { s with conn := s.conn.shutdownInLoop } := by
  unfold TcpConnection.shutdownInLoop
  split
  · rename_i hwriting
    have hsame : Excused (s.conn.log ++ [.shutdownWrite]) ↔ Excused s.conn.log := by
      simp [Excused]
    have hnone : (Event.shutdownWrite).accepted = [] := rfl
    refine ⟨hi.watched, hi.functors, hi.complete.append_one ?_, ?_⟩
    · intro _
      by_cases hex : Excused s.conn.log
      · exact .inl hex
      · right
        have hg := hi.going hex
        have hnil : s.conn.outputBuffer.content = [] := by
          by_contra hne
          exact absurd (hg.writing.mpr hne) (ne_true_of_eq_false hwriting)
        have h := hall hex
        rwa [hnil, List.append_nil] at h
    · intro hex
      have hg := hi.going (mt hsame.mpr hex)
      refine { hg with stream := ?_ }
      change writtenIn (s.conn.record .shutdownWrite).log ++ _ ++ _ ++ _ ++ _ = _
      rw [writtenIn_record, hnone, List.append_nil]
      exact hg.stream
  · exact hi

theorem Inv.handleWrite {w : WriteResult} (hi : Inv s)
    (hfits : w.fits s.conn.outputBuffer.readableBytes)
    (hcond : s.conn.drainedBy w → s.conn.state = .kDisconnecting →
      Excused s.conn.log ∨ payloadsIn s.conn.functors.waiting = []) :
    ∃ c', s.conn.handleWrite w = .ok c' ∧ Inv { s with conn := c' } := by
  obtain ⟨m, hout, hstreams, hempty, heq⟩ := handleWrite_ok hi.watched hfits
  obtain ⟨es, hlog, hes⟩ := hout.log
  have hback : ¬ Excused m.log → ¬ Excused s.conn.log := by
    rw [hlog]
    exact not_excused_left
  have hm : Inv { s with conn := m } := by
    refine ⟨hout.channel.watched hi.watched, functors_output hout hi.functors, ?_, ?_⟩
    · rw [hlog]
      exact hi.complete.append_writes hes
    · intro hex
      have hg := hi.going (hback hex)
      exact hg.toReady.output hout (hstreams _ ⟨rfl, hg.writing⟩) hg.stream
  refine ⟨_, heq, ?_⟩
  split
  · rename_i hshut
    refine Inv.shutdownInLoop (s := { s with conn := m }) hm ?_
    intro hex
    have hg := hi.going (hback hex)
    have hfs := (hcond hshut.1 hshut.2).resolve_left (hback hex)
    have hs := hstreams _ ⟨rfl, hg.writing⟩
    have hall := hg.all_written (hg.disconnecting.mp hshut.2) hfs
    exact hs.stream.trans hall
  · exact hm

theorem Inv.handleClose (hi : Inv s) (hopen : s.conn.isOpen) :
    ∃ c', s.conn.handleClose .writePart = .ok c' ∧ Inv { s with conn := c' } := by
  refine ⟨_, handleClose_eq hi.watched hopen _, ?_⟩
  refine ⟨Channel.watching_watched _ _, hi.functors, ?_, fun hex => absurd ?_ hex⟩
  · exact hi.complete.append_one nofun
  · exact .inr (List.mem_append_right _ List.mem_cons_self)

theorem Inv.readingStarted (hi : Inv s) : Inv { s with conn := s.conn.readingStarted } := by
  unfold TcpConnection.readingStarted
  split
  · refine ⟨Channel.watching_watched _ _, hi.functors, hi.complete, ?_⟩
    intro hex
    have hg := hi.going hex
    have hwriting : (s.conn.channel.watching (s.conn.channel.events.union kReadEvent)).isWriting =
        s.conn.channel.isWriting := Channel.isWriting_enableReading _
    exact { hg with writing := (iff_of_eq (congrArg (· = true) hwriting)).trans hg.writing }
  · exact hi

theorem Inv.readingStopped (hi : Inv s) : Inv { s with conn := s.conn.readingStopped } := by
  unfold TcpConnection.readingStopped
  split
  · refine ⟨Channel.watching_watched _ _, hi.functors, hi.complete, ?_⟩
    intro hex
    have hg := hi.going hex
    have hwriting : (s.conn.channel.watching (s.conn.channel.events.without kReadEvent)).isWriting =
        s.conn.channel.isWriting := Channel.isWriting_disableReading _
    exact { hg with writing := (iff_of_eq (congrArg (· = true) hwriting)).trans hg.writing }
  · exact hi

/-- A user callback is notified. -/
theorem Inv.notify (hi : Inv s) {e : Event} (hsh : e ≠ .shutdownWrite)
    (hw : ∀ data, e ≠ .written data) (hf : ∀ errno, e ≠ .writeFailed errno)
    (hc : e ≠ .connectionCallback false) : Inv { s with conn := s.conn.record e } := by
  have hsame : Excused (s.conn.log ++ [e]) ↔ Excused s.conn.log := by
    simp [Excused, Ne.symm (hf _), Ne.symm hc]
  refine ⟨hi.watched, hi.functors, hi.complete.append_one fun h => absurd h hsh, fun hex => ?_⟩
  have hg := hi.going (mt hsame.mpr hex)
  refine { hg with stream := ?_ }
  have hnone : e.accepted = [] := by
    cases e with
    | written data => exact absurd rfl (hw data)
    | _ => rfl
  change writtenIn (s.conn.record e).log ++ _ ++ _ ++ _ ++ _ = _
  rw [writtenIn_record, hnone, List.append_nil]
  exact hg.stream

/-- Running the next functor keeps the invariant: a payload goes to the stream, and
    `shutdownInLoop` comes when none is left. -/
theorem Inv.runFunctor (hi : Inv s) (w : WriteResult) :
    ∃ c', s.conn.runNextFunctor w = .ok c' ∧ Inv { s with conn := c' } := by
  unfold runNextFunctor
  split
  · exact ⟨_, rfl, hi⟩
  · rename_i f rest hbatch
    have hwait := SwapQueue.waiting_of_batch_cons hbatch
    set c₀ : TcpConnection := { s.conn with functors := { s.conn.functors with batch := rest } }
      with hc₀
    have hf : keepsOpen f ∨ f = .shutdownInLoop := hi.functors f (hwait ▸ List.mem_cons_self)
    have hfs : ∀ g ∈ c₀.functors.waiting, keepsOpen g ∨ g = .shutdownInLoop :=
      fun g hg => hi.functors g (hwait ▸ .tail _ hg)
    -- the bytes in order, with the functor's payload set apart
    have hstream : ¬ Excused s.conn.log → writtenIn c₀.log ++ c₀.outputBuffer.content ++
        payload f ++ payloadsIn c₀.functors.waiting ++ s.point.payload ++
          s.payloads.flatten = s.total := by
      intro hex
      have h := (hi.going hex).stream
      rw [hwait] at h
      simpa only [payloadsIn, List.flatMap_cons, List.append_assoc] using h
    have hready : ¬ Excused s.conn.log → Ready { s with conn := c₀ } := by
      intro hex
      have hg := hi.going hex
      have horder := hg.orderly
      rw [hwait] at horder
      exact ⟨hg.isOpen, hg.disconnecting, hg.sent, horder.2,
        fun hmem => hg.queued (hwait ▸ .tail _ hmem)⟩
    have hrest : payload f = [] → Inv { s with conn := c₀ } := by
      intro hpay
      refine ⟨hi.watched, hfs, hi.complete, fun hex => ⟨hready hex, (hi.going hex).writing, ?_⟩⟩
      have hs := hstream hex
      rwa [hpay, List.append_nil] at hs
    cases f with
    | sendInLoop message =>
      by_cases hstate : c₀.state = .kDisconnected
      · refine ⟨c₀, if_pos hstate, hi.watched, hfs, hi.complete, ?_⟩
        intro hex
        rcases (hi.going hex).isOpen with h | h <;> cases hstate.symm.trans h
      · obtain ⟨c', heq, hout, hstreams, hdropped⟩ :=
          sendInLoop_ok (c := c₀) hi.watched hstate message w
        obtain ⟨es, hlog, hes⟩ := hout.log
        refine ⟨c', heq, hout.channel.watched hi.watched, functors_output hout hfs, ?_,
          ?_⟩
        · change Complete c'.log s.total
          rw [hlog]
          exact hi.complete.append_writes hes
        · intro hex
          have hback : ¬ Excused s.conn.log := by
            change ¬ Excused c'.log at hex
            rw [hlog] at hex
            exact not_excused_left hex
          have hkept : ¬ c₀.drops w := fun hd => hex (.inl (hdropped hd))
          have hs := hstreams _ ⟨rfl, (hi.going hback).writing⟩
          rw [if_neg hkept] at hs
          exact (hready hback).output hout hs (hstream hback)
    | shutdownInLoop =>
      refine ⟨_, rfl, Inv.shutdownInLoop (s := { s with conn := c₀ }) (hrest rfl) ?_⟩
      intro hex
      have hg := hi.going hex
      have hdone := hg.queued (hwait ▸ List.mem_cons_self)
      have horder := hg.orderly
      rw [hwait] at horder
      exact ((hrest rfl).going hex).all_written (hdone ▸ trivial) (horder.1 rfl)
    | startReadInLoop =>
      exact ⟨_, startReadInLoop_eq hi.watched, (hrest rfl).readingStarted⟩
    | stopReadInLoop =>
      exact ⟨_, stopReadInLoop_eq hi.watched, (hrest rfl).readingStopped⟩
    | writeCompleteCallback => exact ⟨_, rfl, (hrest rfl).notify nofun nofun nofun nofun⟩
    | highWaterMarkCallback size => exact ⟨_, rfl, (hrest rfl).notify nofun nofun nofun nofun⟩
    | forceCloseInLoop => exact (hf.elim id nofun).elim
    | connectDestroyed => exact (hf.elim id nofun).elim

/-! ### Steps of the thread -/

/-- The thread moves on without the connection. -/
theorem Inv.thread {point : Point} {payloads : List Bytes} (hi : Inv s)
    (h : Going s → Going { s with point := point, payloads := payloads }) :
    Inv { s with point := point, payloads := payloads } :=
  ⟨hi.watched, hi.functors, hi.complete, fun hex => h (hi.going hex)⟩

theorem Inv.testSend {message : Bytes} {rest : List Bytes} (hi : Inv s)
    (hpoint : s.point = .calling) (hpay : s.payloads = message :: rest) :
    Inv (if s.conn.state = .kConnected then { s with point := .sending message, payloads := rest }
      else { s with payloads := rest }) := by
  split
  · refine hi.thread fun hg => ⟨⟨hg.isOpen, ?_, .inr (.inl ⟨message, rfl⟩), hg.orderly, ?_⟩,
      hg.writing, ?_⟩
    · have h := hg.disconnecting
      rw [hpoint] at h
      exact h
    · intro hmem
      cases hpoint.symm.trans (hg.queued hmem)
    · have h := hg.stream
      rw [hpoint, hpay] at h
      simpa [Point.payload] using h
  · rename_i hstate
    apply hi.thread
    intro hg
    -- an open connection on which `shutdown()` has not been called is connected
    rcases hg.isOpen with hconn | hdis
    · exact absurd hconn hstate
    · have h := hg.disconnecting.mp hdis
      rw [hpoint] at h
      exact h.elim

theorem Inv.queueSend {message : Bytes} (hi : Inv s) (hpoint : s.point = .sending message) :
    Inv { s with conn := s.conn.queueInLoop (.sendInLoop message), point := .calling } := by
  have hwait : (s.conn.queueInLoop (.sendInLoop message)).functors.waiting =
      s.conn.functors.waiting ++ [.sendInLoop message] := SwapQueue.waiting_push _ _
  refine ⟨hi.watched, ?_, hi.complete, ?_⟩
  · intro f hf
    rw [hwait] at hf
    rcases List.mem_append.mp hf with hf | hf
    · exact hi.functors f hf
    · rw [List.mem_singleton.mp hf]
      exact .inl trivial
  · intro hex
    have hg := hi.going hex
    have hno : .shutdownInLoop ∉ s.conn.functors.waiting := by
      intro hmem
      cases hpoint.symm.trans (hg.queued hmem)
    refine ⟨⟨hg.isOpen, ?_, .inl rfl, ?_, ?_⟩, hg.writing, ?_⟩
    · have h := hg.disconnecting
      rw [hpoint] at h
      exact h
    · rw [hwait]
      exact orderly_append hg.orderly ⟨nofun, trivial⟩ fun hmem => absurd hmem hno
    · intro hmem
      rw [hwait] at hmem
      rcases List.mem_append.mp hmem with hmem | hmem
      · exact absurd hmem hno
      · cases List.mem_singleton.mp hmem
    · have h := hg.stream
      rw [hpoint] at h
      change writtenIn s.conn.log ++ s.conn.outputBuffer.content ++
        payloadsIn (s.conn.queueInLoop (.sendInLoop message)).functors.waiting ++ [] ++ _ = _
      rw [hwait]
      simpa [Point.payload, payloadsIn, payload] using h

theorem Inv.testShutdown (hi : Inv s) (hpoint : s.point = .calling) (hpay : s.payloads = []) :
    Inv { s with point := if s.conn.state = .kConnected then .shuttingDown else .done } := by
  apply hi.thread
  intro hg
  have hdis := hg.disconnecting
  rw [hpoint] at hdis
  have hconn : s.conn.state = .kConnected := hg.isOpen.resolve_right fun h => hdis.mp h
  rw [if_pos hconn]
  refine ⟨⟨hg.isOpen, hdis, .inr (.inr hpay), hg.orderly, ?_⟩, hg.writing, ?_⟩
  · intro hmem
    cases hpoint.symm.trans (hg.queued hmem)
  · have h := hg.stream
    rw [hpoint] at h
    exact h

theorem Inv.setDisconnecting (hi : Inv s) (hpoint : s.point = .shuttingDown) :
    Inv { s with conn := s.conn.setState .kDisconnecting, point := .queueingShutdown } := by
  refine ⟨hi.watched, hi.functors, hi.complete, ?_⟩
  intro hex
  have hg := hi.going hex
  have hsent := hg.sent
  rw [hpoint] at hsent
  refine ⟨⟨.inr rfl, iff_of_true rfl trivial, ?_, hg.orderly, ?_⟩, hg.writing, ?_⟩
  · exact .inr (.inr ((hsent.resolve_left nofun).resolve_left nofun))
  · intro hmem
    cases hpoint.symm.trans (hg.queued hmem)
  · have h := hg.stream
    rw [hpoint] at h
    exact h

theorem Inv.queueShutdown (hi : Inv s) (hpoint : s.point = .queueingShutdown) :
    Inv { s with conn := s.conn.queueInLoop .shutdownInLoop, point := .done } := by
  have hwait : (s.conn.queueInLoop .shutdownInLoop).functors.waiting =
      s.conn.functors.waiting ++ [.shutdownInLoop] := SwapQueue.waiting_push _ _
  refine ⟨hi.watched, ?_, hi.complete, ?_⟩
  · intro f hf
    rw [hwait] at hf
    rcases List.mem_append.mp hf with hf | hf
    · exact hi.functors f hf
    · exact .inr (List.mem_singleton.mp hf)
  · intro hex
    have hg := hi.going hex
    have hsent := hg.sent
    rw [hpoint] at hsent
    refine ⟨⟨hg.isOpen, ?_, ?_, ?_, fun _ => rfl⟩, hg.writing, ?_⟩
    · have h := hg.disconnecting
      rw [hpoint] at h
      exact h
    · exact .inr (.inr ((hsent.resolve_left nofun).resolve_left nofun))
    · rw [hwait]
      exact orderly_append hg.orderly ⟨fun _ => rfl, trivial⟩ fun _ => rfl
    · have h := hg.stream
      rw [hpoint] at h
      change writtenIn s.conn.log ++ s.conn.outputBuffer.content ++
        payloadsIn (s.conn.queueInLoop .shutdownInLoop).functors.waiting ++ [] ++ _ = _
      rw [hwait]
      simpa [Point.payload, payloadsIn, payload] using h

/-! ### The theorem -/

/-- **The step lemma.**  Every enabled step that meets the condition ends and keeps the
    invariant. -/
theorem Inv.step {a : Action} (hi : Inv s) (hen : s.enabled a) (hcond : s.drainsBehindSends a) :
    ∃ s', s.step a = .ok s' ∧ Inv s' := by
  cases a with
  | testSend =>
    obtain ⟨hpoint, hne⟩ := hen
    obtain ⟨message, rest, hpay⟩ := List.exists_cons_of_ne_nil hne
    refine ⟨_, ?_, hi.testSend hpoint hpay⟩
    simp only [Sender.step, hpay]
    split <;> rfl
  | queueSend =>
    obtain ⟨message, hpoint⟩ := hen
    exact ⟨_, by simp only [Sender.step, hpoint], hi.queueSend hpoint⟩
  | testShutdown => exact ⟨_, rfl, hi.testShutdown hen.1 hen.2⟩
  | setDisconnecting => exact ⟨_, rfl, hi.setDisconnecting hen⟩
  | queueShutdown => exact ⟨_, rfl, hi.queueShutdown hen⟩
  | handleWrite w =>
    obtain ⟨c', heq, hi'⟩ := hi.handleWrite hen.2 (hcond w rfl)
    exact ⟨_, by simp only [Sender.step, heq, ok_bind, pure_eq_ok], hi'⟩
  | handleClose =>
    obtain ⟨c', heq, hi'⟩ := hi.handleClose hen.2
    exact ⟨_, by simp only [Sender.step, heq, ok_bind, pure_eq_ok], hi'⟩
  | swapFunctors =>
    have hwait : s.conn.functors.swap.waiting = s.conn.functors.waiting :=
      SwapQueue.waiting_swap hen
    refine ⟨_, rfl, hi.watched, fun f hf => hi.functors f (hwait ▸ hf), hi.complete,
      fun hex => ?_⟩
    have hg := hi.going hex
    exact ⟨⟨hg.isOpen, hg.disconnecting, hg.sent, hwait.symm ▸ hg.orderly,
      fun hmem => hg.queued (hwait ▸ hmem)⟩, hg.writing, hwait.symm ▸ hg.stream⟩
  | runFunctor w =>
    obtain ⟨c', heq, hi'⟩ := hi.runFunctor w
    exact ⟨_, by simp only [Sender.step, heq, ok_bind, pure_eq_ok], hi'⟩

theorem reachable_inv (h : (system.restrict drainsBehindSends).Reachable s) : Inv s := by
  refine h.invariant (fun _ => init_inv) fun s a t hi hst => ?_
  obtain ⟨s', heq, hi'⟩ := hi.step hst.1.1 hst.condition
  obtain rfl : s' = t := Except.ok.inj (heq.symm.trans hst.2)
  exact hi'

/-- **Data sent before `shutdown()` is not cut off** in a run in which no output buffer is
    drained in `kDisconnecting` in front of payloads that wait in functors: when
    `shutdownWrite` is called, all bytes have been accepted, unless a write has failed
    with `EPIPE` or `ECONNRESET` or the connection was closed. -/
theorem shutdown_behind_sends (h : (system.restrict drainsBehindSends).Reachable s) :
    ∀ before after, s.conn.log = before ++ .shutdownWrite :: after →
      Excused before ∨ writtenIn before = s.total :=
  (reachable_inv h).complete

/-- **The condition is exact**: a step that it excludes calls `shutdownWrite` before all bytes
    have been accepted. -/
theorem drainsBehindSends_exact (h : (system.restrict drainsBehindSends).Reachable s)
    {a : Action} (hen : s.enabled a) (hnot : ¬ s.drainsBehindSends a) :
    ∃ s' before, s.step a = .ok s' ∧ s'.conn.log = before ++ [.shutdownWrite] ∧
      ¬ Excused before ∧ writtenIn before ≠ s.total := by
  have hi := reachable_inv h
  obtain ⟨w, hw⟩ := not_forall.mp hnot
  obtain ⟨ha, hdrains⟩ := Classical.not_imp.mp hw
  obtain ⟨hdrained, hdisconnecting⟩ := Classical.not_imp.mp hdrains
  obtain ⟨hstate, hneither⟩ := Classical.not_imp.mp hdisconnecting
  obtain ⟨hex, hpay⟩ := not_or.mp hneither
  subst ha
  obtain ⟨c', heq, hlog⟩ := handleWrite_drained hi.watched hen.2 hdrained hstate
  refine ⟨_, _, bind_eq_ok.mpr ⟨c', heq, rfl⟩, hlog, ?_, ?_⟩
  · simpa [Excused] using hex
  · intro hall
    have hstream := (hi.going hex).stream
    rw [← hall, writtenIn_append] at hstream
    have hlen := congrArg List.length hstream
    have hpos := List.length_pos_iff.mpr hpay
    simp only [List.length_append, writtenIn, List.flatMap_cons, List.flatMap_nil,
      Event.accepted, List.append_nil] at hlen
    omega

/-! ### Runs -/

instance (s : Sender) : (a : Action) → Decidable (system.enabled s a)
  | .testSend => inferInstanceAs (Decidable (_ ∧ _))
  | .queueSend => match h : s.point with
      | .sending message => .isTrue ⟨message, h⟩
      | .calling => .isFalse fun ⟨_, h'⟩ => by cases h.symm.trans h'
      | .shuttingDown => .isFalse fun ⟨_, h'⟩ => by cases h.symm.trans h'
      | .queueingShutdown => .isFalse fun ⟨_, h'⟩ => by cases h.symm.trans h'
      | .done => .isFalse fun ⟨_, h'⟩ => by cases h.symm.trans h'
  | .testShutdown => inferInstanceAs (Decidable (_ ∧ _))
  | .setDisconnecting => inferInstanceAs (Decidable (s.point = .shuttingDown))
  | .queueShutdown => inferInstanceAs (Decidable (s.point = .queueingShutdown))
  | .handleWrite _ => inferInstanceAs (Decidable (_ ∧ _))
  | .handleClose => inferInstanceAs (Decidable (_ ∧ _))
  | .swapFunctors => inferInstanceAs (Decidable (s.conn.functors.batch = []))
  | .runFunctor _ => inferInstanceAs (Decidable (s.conn.functors.batch ≠ []))

instance (s : Sender) : (a : Action) → Decidable (s.drainsBehindSends a)
  | .handleWrite w =>
      decidable_of_iff (s.conn.drainedBy w → s.conn.state = .kDisconnecting →
          Excused s.conn.log ∨ payloadsIn s.conn.functors.waiting = [])
        ⟨fun h _ heq => by cases heq; exact h, fun h => h w rfl⟩
  | .testSend => .isTrue nofun
  | .queueSend => .isTrue nofun
  | .testShutdown => .isTrue nofun
  | .setDisconnecting => .isTrue nofun
  | .queueShutdown => .isTrue nofun
  | .handleClose => .isTrue nofun
  | .swapFunctors => .isTrue nofun
  | .runFunctor _ => .isTrue nofun

/-- A connection that has just been established, and a thread that is to send 9, then 1
    and 2. -/
def twoPayloads : Sender where
  conn := { (TcpConnection.new true false false 64).established with log := [], frames := [] }
  point := .calling
  payloads := [[9], [1, 2]]
  total := [9, 1, 2]

theorem twoPayloads_init : system.init twoPayloads :=
  ⟨rfl, Channel.watching_watched _ _, rfl, iff_of_false nofun (not_not.mpr Buffer.content_empty),
    nofun, rfl, rfl⟩

set_option maxRecDepth 8000 in
/-- The old output is drained before `shutdown()`, and the queued `shutdownInLoop` runs behind
    the second payload. -/
theorem shutdown_behind_sends_queued :
    ∃ s before, (system.restrict drainsBehindSends).Reachable s ∧
      s.conn.log = before ++ [.shutdownWrite] ∧ ¬ Excused before ∧
      writtenIn before = [9, 1, 2] := by
  have hrun : ∃ s, (system.restrict drainsBehindSends).Reachable s ∧
      s.total = [9, 1, 2] ∧
      s.conn.log = [.written [], .written [9], .written [1, 2]] ++ [.shutdownWrite] :=
    ⟨_, reachable_of_exec [.testSend, .queueSend, .swapFunctors, .runFunctor (.wrote 0),
      .testSend, .queueSend, .handleWrite (.wrote 1), .testShutdown, .setDisconnecting,
      .queueShutdown, .swapFunctors, .runFunctor (.wrote 2), .runFunctor (.wrote 0)]
      twoPayloads_init rfl, rfl, rfl⟩
  obtain ⟨s, hs, htotal, hlog⟩ := hrun
  have hex : ¬ Excused [.written [], .written [9], .written [1, 2]] := by decide
  have hall := (shutdown_behind_sends hs _ _ hlog).resolve_left hex
  exact ⟨s, _, hs, hlog, hex, hall.trans htotal⟩

set_option maxRecDepth 8000 in
/-- **`handleWrite` may shut down in front of a payload**: the thread calls `send()` and sets
    `state_`; then the old output is drained. -/
theorem shutdown_in_front_of_send :
    ∃ s before, system.Reachable s ∧ s.conn.log = before ++ [.shutdownWrite] ∧
      ¬ Excused before ∧ writtenIn before = [9] ∧ s.total = [9, 1, 2] :=
  ⟨_, [.written [], .written [9]], reachable_of_exec [.testSend, .queueSend, .swapFunctors,
    .runFunctor (.wrote 0), .testSend, .queueSend, .testShutdown, .setDisconnecting,
    .handleWrite (.wrote 1)] twoPayloads_init rfl, rfl, by decide, rfl, rfl⟩

end Sender

end Kaycc
