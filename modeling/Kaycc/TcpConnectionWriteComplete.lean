/-
  Kaycc/TcpConnectionWriteComplete.lean
  =====================================
  **`writeCompleteCallback_` is queued exactly when everything is out.**

  `sendInLoop` queues it when its direct write has taken the whole payload,
  `handleWrite` when it has emptied the output buffer; the two conditions are
  one, `Stream.completes`: the step wrote, and nothing is buffered after it.
  The runs are those of `Stream`, begun before or after `connectEstablished`.
  As no functor is run in them, the notifications that wait are all that were
  ever queued.
-/
import Kaycc.TcpConnectionStream

namespace Kaycc

open Transition Transition.System TcpConnection

namespace TcpConnection

variable {c c' : TcpConnection} {data : Bytes} {w : WriteResult}

/-- The notifications queued and not yet made. -/
def notifications (c : TcpConnection) : Nat := c.functors.waiting.count .writeCompleteCallback

/-! ### What the parts of the two functions queue -/

theorem notifications_queueInLoop_self (c : TcpConnection) :
    (c.queueInLoop .writeCompleteCallback).notifications = c.notifications + 1 := by
  simp [notifications, queueInLoop, List.count_append]

theorem notifications_queueInLoop_other {f : Functor} (h : f ≠ .writeCompleteCallback) :
    (c.queueInLoop f).notifications = c.notifications := by
  simp [notifications, queueInLoop, List.count_append, h]

theorem notifications_queueHighWaterMark (c : TcpConnection) (oldLen remaining : Nat) :
    (c.queueHighWaterMark oldLen remaining).notifications = c.notifications := by
  unfold queueHighWaterMark
  split
  · exact notifications_queueInLoop_other nofun
  · rfl

theorem notifications_shutdownInLoop (c : TcpConnection) :
    c.shutdownInLoop.notifications = c.notifications ∧
      c.shutdownInLoop.outputBuffer = c.outputBuffer := by
  unfold shutdownInLoop
  split <;> exact ⟨rfl, rfl⟩

/-- What is left of a payload is buffered, without a notification. -/
theorem appendOutput_notifications {rest : Bytes} (h : c.appendOutput rest = .ok c') :
    c'.notifications = c.notifications ∧
      c'.outputBuffer.content = c.outputBuffer.content ++ rest := by
  have hmark := notifications_queueHighWaterMark c c.outputBuffer.readableBytes rest.length
  obtain ⟨-, hbuf, -⟩ := queueHighWaterMark_eq c c.outputBuffer.readableBytes rest.length
  unfold appendOutput at h
  generalize c.queueHighWaterMark c.outputBuffer.readableBytes rest.length = m at *
  obtain ⟨b, hb, hcont⟩ := m.outputBuffer.append_ok rest
  simp only [hb, ok_bind] at h
  rw [← hmark, ← hbuf, ← hcont]
  split at h
  · obtain ⟨ch, -, hch⟩ := bind_eq_ok.mp h
    obtain rfl := Except.ok.inj hch
    exact ⟨rfl, rfl⟩
  · obtain rfl := Except.ok.inj h
    exact ⟨rfl, rfl⟩

/-- The direct write notifies when it takes the whole payload. -/
theorem directWrite_notifications (hset : c.writeCompleteCallback = true) (n : Nat) :
    (c.directWrite data (.wrote n)).conn.notifications =
      c.notifications + if data.length - n = 0 then 1 else 0 := by
  unfold directWrite
  by_cases hdone : data.length - n = 0
  · simp only [hdone, hset, and_self, if_true]
    exact notifications_queueInLoop_self _
  · simp only [hdone, false_and, if_false]
    rfl

theorem directWrite_outputBuffer (c : TcpConnection) (data : Bytes) (w : WriteResult) :
    (c.directWrite data w).conn.outputBuffer = c.outputBuffer := by
  unfold directWrite
  split
  · dsimp only
    split <;> rfl
  · rfl

/-- The callbacks that are set, and the mark. -/
def settings (c : TcpConnection) : Bool × Bool × Nat :=
  (c.writeCompleteCallback, c.highWaterMarkCallback, c.highWaterMark)

theorem Output.settings (h : Output c c') : c'.settings = c.settings := by
  rw [h.others]
  rfl

/-! ### The two functions -/

/-- `sockets::write` has not returned -1. -/
def WriteResult.succeeded : WriteResult → Prop
  | .wrote _ => True
  | .failed _ => False

instance : (w : WriteResult) → Decidable w.succeeded
  | .wrote _ => .isTrue trivial
  | .failed _ => .isFalse id

/-- `sendInLoop` writes, with `nwrote >= 0`. -/
def sendWrites (c : TcpConnection) (w : WriteResult) : Prop := c.writesDirectly ∧ w.succeeded

/-- `handleWrite` writes, with `n > 0`. -/
def handleWrites (c : TcpConnection) : WriteResult → Prop
  | .wrote n => c.channel.isWriting = true ∧ 0 < n
  | .failed _ => False

instance (c : TcpConnection) (w : WriteResult) : Decidable (c.sendWrites w) :=
  inferInstanceAs (Decidable (_ ∧ _))

instance (c : TcpConnection) : (w : WriteResult) → Decidable (c.handleWrites w)
  | .wrote _ => inferInstanceAs (Decidable (_ ∧ _))
  | .failed _ => .isFalse id

/-- The end of `sendInLoop` adds no notification, and buffers what is left. -/
theorem appendRest_notifications {rest : Bytes} (fault : Bool)
    (h : (if fault = false ∧ 0 < rest.length then c.appendOutput rest else .ok c) = .ok c') :
    c'.notifications = c.notifications ∧
      c'.outputBuffer.content =
        c.outputBuffer.content ++ if fault = false then rest else [] := by
  split at h
  · rename_i hrest
    rw [if_pos hrest.1]
    exact appendOutput_notifications h
  · rename_i hrest
    obtain rfl := Except.ok.inj h
    refine ⟨rfl, ?_⟩
    by_cases hfault : fault = false
    · obtain rfl : rest = [] := by
        by_contra hne
        exact hrest ⟨hfault, List.length_pos_iff.mpr hne⟩
      rw [if_pos hfault, List.append_nil]
    · rw [if_neg hfault, List.append_nil]

/-- **`sendInLoop` notifies when it writes and leaves nothing buffered**, and it takes
    nothing out of the buffer. -/
theorem sendInLoop_notifications (hset : c.writeCompleteCallback = true)
    (hstate : c.state ≠ .kDisconnected) (h : c.sendInLoop data w = .ok c') :
    (c'.notifications = c.notifications +
        if c.sendWrites w ∧ c'.outputBuffer.content = [] then 1 else 0) ∧
      c.outputBuffer.content <+: c'.outputBuffer.content := by
  rw [sendInLoop, if_neg hstate] at h
  by_cases hd : c.writesDirectly
  · have hbuf := directWrite_outputBuffer c data w
    have hnil : c.outputBuffer.content = [] := Buffer.content_eq_nil.mpr hd.2
    simp only [if_pos hd] at h
    obtain ⟨hnotes, hcont⟩ := appendRest_notifications _ h
    rw [hbuf, hnil, List.nil_append] at hcont
    refine ⟨?_, by rw [hnil]; exact List.nil_prefix⟩
    cases w with
    | wrote n =>
      have hfault : (c.directWrite data (.wrote n)).faultError = false := by
        unfold directWrite
        dsimp only
        split <;> rfl
      have hwrote : (c.directWrite data (.wrote n)).nwrote = n := by
        unfold directWrite
        dsimp only
        split <;> rfl
      -- the payload is out when its rest is empty
      have hout : data.length - n = 0 ↔ c'.outputBuffer.content = [] := by
        rw [hcont, if_pos hfault, hwrote, List.drop_eq_nil_iff]
        omega
      rw [hnotes, directWrite_notifications hset]
      simp only [hout, sendWrites, hd, WriteResult.succeeded, true_and]
    | failed errno =>
      have hnot : ¬ (c.sendWrites (.failed errno) ∧ c'.outputBuffer.content = []) :=
        fun hw => hw.1.2
      rw [hnotes, if_neg hnot]
      rfl
  · have hnot : ¬ (c.sendWrites w ∧ c'.outputBuffer.content = []) := fun hw => hd hw.1.1
    have hdirect : (if c.writesDirectly then c.directWrite data w else ⟨c, 0, false⟩) =
        ⟨c, 0, false⟩ := if_neg hd
    rw [hdirect] at h
    obtain ⟨hnotes, hcont⟩ := appendRest_notifications false h
    rw [hnotes, if_neg hnot, hcont]
    exact ⟨rfl, List.prefix_append _ _⟩

theorem outputDrained_notifications (h : c.outputDrained = .ok c')
    (hset : c.writeCompleteCallback = true) :
    c'.notifications = c.notifications + 1 ∧ c'.outputBuffer = c.outputBuffer := by
  obtain ⟨ch, -, hrest⟩ := bind_eq_ok.mp h
  simp only [if_pos hset, pure_eq_ok] at hrest
  have hqueued : ((c.setChannel ch).queueInLoop .writeCompleteCallback).notifications =
      c.notifications + 1 := notifications_queueInLoop_self (c.setChannel ch)
  split at hrest
  · obtain rfl := Except.ok.inj hrest
    obtain ⟨hnotes, hbuf⟩ :=
      notifications_shutdownInLoop ((c.setChannel ch).queueInLoop .writeCompleteCallback)
    exact ⟨hnotes.trans hqueued, hbuf⟩
  · obtain rfl := Except.ok.inj hrest
    exact ⟨hqueued, rfl⟩

/-- Without a successful write `handleWrite` queues nothing and leaves the buffer alone. -/
theorem handleWrite_idle (hnot : ¬ c.handleWrites w) (h : c.handleWrite w = .ok c') :
    c'.notifications = c.notifications ∧ c'.outputBuffer = c.outputBuffer := by
  unfold handleWrite at h
  by_cases hwriting : c.channel.isWriting = true
  · rw [if_pos hwriting] at h
    cases w with
    | wrote n =>
      have hzero : ¬ 0 < n := fun hpos => hnot ⟨hwriting, hpos⟩
      simp only [if_neg hzero] at h
      obtain rfl := Except.ok.inj h
      exact ⟨rfl, rfl⟩
    | failed errno =>
      obtain rfl := Except.ok.inj h
      exact ⟨rfl, rfl⟩
  · rw [if_neg hwriting] at h
    obtain rfl := Except.ok.inj h
    exact ⟨rfl, rfl⟩

/-- **`handleWrite` notifies when it writes and leaves nothing buffered.** -/
theorem handleWrite_notifications (hset : c.writeCompleteCallback = true)
    (hfits : w.fits c.outputBuffer.readableBytes) (hwrites : c.handleWrites w)
    (h : c.handleWrite w = .ok c') :
    c'.notifications = c.notifications + if c'.outputBuffer.content = [] then 1 else 0 := by
  cases w with
  | failed errno => exact hwrites.elim
  | wrote n =>
    obtain ⟨b, hb, -⟩ := Buffer.retrieve_ok (b := c.outputBuffer) hfits
    simp only [handleWrite, if_pos hwrites.1, if_pos hwrites.2, hb, ok_bind] at h
    by_cases hnil : b.readableBytes = 0
    · rw [if_pos hnil] at h
      obtain ⟨hnotes, hbuf⟩ := outputDrained_notifications h hset
      have hempty : c'.outputBuffer.content = [] := by
        rw [hbuf]
        exact Buffer.content_eq_nil.mpr hnil
      rw [if_pos hempty, hnotes]
      rfl
    · rw [if_neg hnil] at h
      obtain rfl := Except.ok.inj h
      rw [if_neg fun hempty => hnil (Buffer.content_eq_nil.mp hempty)]
      rfl

theorem startReadInLoop_notifications (h : c.startReadInLoop = .ok c') :
    c'.notifications = c.notifications ∧ c'.outputBuffer = c.outputBuffer := by
  unfold startReadInLoop at h
  split at h
  · obtain ⟨ch, -, hch⟩ := bind_eq_ok.mp h
    obtain rfl := Except.ok.inj hch
    exact ⟨rfl, rfl⟩
  · obtain rfl := Except.ok.inj h
    exact ⟨rfl, rfl⟩

theorem stopReadInLoop_notifications (h : c.stopReadInLoop = .ok c') :
    c'.notifications = c.notifications ∧ c'.outputBuffer = c.outputBuffer := by
  unfold stopReadInLoop at h
  split at h
  · obtain ⟨ch, -, hch⟩ := bind_eq_ok.mp h
    obtain rfl := Except.ok.inj hch
    exact ⟨rfl, rfl⟩
  · obtain rfl := Except.ok.inj h
    exact ⟨rfl, rfl⟩

end TcpConnection

namespace Stream

variable {s t u : Stream} {a : Action} {as : List Action}

/-! ### Steps -/

/-- The step makes a successful write. -/
def writes (s : Stream) : Action → Prop
  | .sendInLoop _ w => s.conn.sendWrites w
  | .handleWrite w => s.conn.handleWrites w
  | _ => False

/-- Accepted data is in `outputBuffer_`. -/
def Buffered (s : Stream) : Prop := 0 < s.conn.outputBuffer.readableBytes

/-- The step makes a successful write and `outputBuffer_` is empty after it. -/
def Completes (s : Stream) (a : Action) (t : Stream) : Prop := s.writes a ∧ ¬ t.Buffered

instance (s : Stream) : (a : Action) → Decidable (s.writes a)
  | .sendInLoop _ w => inferInstanceAs (Decidable (s.conn.sendWrites w))
  | .handleWrite w => inferInstanceAs (Decidable (s.conn.handleWrites w))
  | .setDisconnecting => .isFalse id
  | .startReadInLoop => .isFalse id
  | .stopReadInLoop => .isFalse id

instance (s : Stream) : Decidable s.Buffered := inferInstanceAs (Decidable (0 < _))

instance (s : Stream) (a : Action) (t : Stream) : Decidable (s.Completes a t) :=
  inferInstanceAs (Decidable (_ ∧ _))

theorem not_buffered_iff : ¬ s.Buffered ↔ s.conn.outputBuffer.content = [] := by
  rw [Buffered, Nat.pos_iff_ne_zero, not_not, Buffer.content_eq_nil]

/-- Runs may begin with a connection that is still in `kConnecting`. -/
def openings : System Stream Action Assertion :=
  { system with
    init := fun s => system.init s ∨
      s.payloads = [] ∧ ∃ ownerInLoop writeComplete highWater highWaterMark,
        s.conn = TcpConnection.new ownerInLoop writeComplete highWater highWaterMark }

instance (s : Stream) (a : Action) : Decidable (openings.enabled s a) :=
  inferInstanceAs (Decidable (system.enabled s a))

theorem openings_exact (h : openings.Reachable s) : Exact s := by
  refine h.invariant (fun s hinit => ?_) fun s a t hi hst => ?_
  · rcases hinit with hinit | ⟨hpay, oil, wc, hw, hwm, hconn⟩
    · exact init_exact hinit
    · obtain ⟨conn, payloads⟩ := s
      obtain rfl : payloads = [] := hpay
      obtain rfl : conn = _ := hconn
      exact ⟨Channel.new_synced.toWatched,
        ⟨rfl, iff_of_false nofun (not_not.mpr Buffer.content_empty)⟩⟩
  · exact hi.of_step hst

/-- No step sets or clears a callback or moves the mark. -/
theorem step_settings (hi : Exact s) (h : openings.Step s a t) :
    t.conn.settings = s.conn.settings := by
  obtain ⟨hen, hstep⟩ := h
  cases a with
  | sendInLoop data w =>
    obtain ⟨c', heq, hout, -⟩ := sendInLoop_ok hi.watched hen.1 data w
    simp only [openings, system, Stream.step, heq, ok_bind, pure_eq_ok] at hstep
    obtain rfl := Except.ok.inj hstep
    exact hout.settings
  | handleWrite w =>
    obtain ⟨m, hout, -, -, heq⟩ := handleWrite_ok hi.watched hen.2
    simp only [openings, system, Stream.step, heq, ok_bind, pure_eq_ok] at hstep
    obtain rfl := Except.ok.inj hstep
    dsimp only
    split
    · unfold shutdownInLoop
      split <;> exact hout.settings
    · exact hout.settings
  | setDisconnecting =>
    obtain rfl := Except.ok.inj hstep
    rfl
  | startReadInLoop =>
    obtain ⟨c', heq, hc'⟩ := bind_eq_ok.mp hstep
    obtain rfl := Except.ok.inj hc'
    rw [startReadInLoop_eq hi.watched] at heq
    obtain rfl := Except.ok.inj heq
    unfold readingStarted
    dsimp only
    split <;> rfl
  | stopReadInLoop =>
    obtain ⟨c', heq, hc'⟩ := bind_eq_ok.mp hstep
    obtain rfl := Except.ok.inj hc'
    rw [stopReadInLoop_eq hi.watched] at heq
    obtain rfl := Except.ok.inj heq
    unfold readingStopped
    dsimp only
    split <;> rfl

/-- **One step queues the notification once if it completes the output, and else not**; only
    a step that completes the output empties the buffer. -/
theorem step_notifications (hset : s.conn.writeCompleteCallback = true)
    (h : openings.Step s a t) :
    (t.conn.notifications = s.conn.notifications + if s.Completes a t then 1 else 0) ∧
      (s.Buffered → ¬ t.Buffered → s.writes a) := by
  obtain ⟨hen, hstep⟩ := h
  -- a step that neither writes nor touches the buffer
  have hidle : ¬ s.writes a → t.conn.notifications = s.conn.notifications ∧
      t.conn.outputBuffer = s.conn.outputBuffer →
      (t.conn.notifications = s.conn.notifications + if s.Completes a t then 1 else 0) ∧
        (s.Buffered → ¬ t.Buffered → s.writes a) := by
    rintro hnot ⟨hnotes, hbuf⟩
    refine ⟨by rw [hnotes, if_neg fun hc => hnot hc.1]; rfl, fun hs ht => absurd hs ?_⟩
    unfold Buffered at ht ⊢
    rwa [hbuf] at ht
  cases a with
  | sendInLoop data w =>
    obtain ⟨c', heq, hc'⟩ := bind_eq_ok.mp hstep
    obtain rfl := Except.ok.inj hc'
    obtain ⟨hnotes, hprefix⟩ := sendInLoop_notifications hset hen.1 heq
    refine ⟨?_, fun hs ht => absurd ?_ (not_buffered_iff.not.mp (not_not.mpr hs))⟩
    · simp only [Completes, not_buffered_iff]
      exact hnotes
    · exact List.prefix_nil.mp (not_buffered_iff.mp ht ▸ hprefix)
  | handleWrite w =>
    obtain ⟨c', heq, hc'⟩ := bind_eq_ok.mp hstep
    obtain rfl := Except.ok.inj hc'
    by_cases hwrites : s.conn.handleWrites w
    · refine ⟨?_, fun _ _ => hwrites⟩
      rw [handleWrite_notifications hset hen.2 hwrites heq]
      simp only [Completes, not_buffered_iff, writes, hwrites, true_and]
    · exact hidle hwrites (handleWrite_idle hwrites heq)
  | setDisconnecting =>
    obtain rfl := Except.ok.inj hstep
    exact hidle id ⟨rfl, rfl⟩
  | startReadInLoop =>
    obtain ⟨c', heq, hc'⟩ := bind_eq_ok.mp hstep
    obtain rfl := Except.ok.inj hc'
    exact hidle id (startReadInLoop_notifications heq)
  | stopReadInLoop =>
    obtain ⟨c', heq, hc'⟩ := bind_eq_ok.mp hstep
    obtain rfl := Except.ok.inj hc'
    exact hidle id (stopReadInLoop_notifications heq)

/-! ### Periods -/

/-- The steps that are taken while data is buffered. -/
def whileBuffered : System Stream Action Assertion := openings.restrict fun s _ => s.Buffered

instance (s : Stream) (a : Action) : Decidable (whileBuffered.enabled s a) :=
  inferInstanceAs (Decidable (openings.enabled s a ∧ s.Buffered))

/-- **While data is buffered no notification is queued, and one when it has drained.** -/
theorem period_notifications (hi : Exact s) (hset : s.conn.writeCompleteCallback = true)
    (hs : s.Buffered) (h : whileBuffered.Run s as t) :
    t.conn.notifications = s.conn.notifications + if t.Buffered then 0 else 1 := by
  have hkept : Exact t ∧ t.conn.writeCompleteCallback = true ∧
      t.conn.notifications = s.conn.notifications + if t.Buffered then 0 else 1 := by
    induction h with
    | nil => exact ⟨hi, hset, by rw [if_pos hs]; rfl⟩
    | @snoc t u as a _ hst ih =>
      obtain ⟨hit, hsett, hnotes⟩ := ih
      have hstep : openings.Step t a u := hst.of_restrict
      obtain ⟨hone, hdrained⟩ := step_notifications hsett hstep
      have ht : t.Buffered := hst.condition
      refine ⟨hit.of_step hstep, (congrArg Prod.fst (step_settings hit hstep)).trans hsett, ?_⟩
      rw [hone, hnotes, if_pos ht, Nat.add_zero]
      congr 1
      by_cases hu : u.Buffered
      · rw [if_pos hu, if_neg fun hc => hc.2 hu]
      · rw [if_neg hu, if_pos ⟨hdrained ht hu, hu⟩]
  exact hkept.2.2

/-- **The callback is queued, once, by the steps that complete the output and by no other**;
    so none is queued while data is buffered, and one in each period in which data is
    buffered, when it drains. -/
theorem write_complete_exact (h : openings.Reachable s)
    (hset : s.conn.writeCompleteCallback = true) :
    (∀ a, openings.enabled s a → ∃ t, openings.Step s a t) ∧
      (∀ a t, openings.Step s a t →
        t.conn.notifications = s.conn.notifications + if s.Completes a t then 1 else 0) ∧
      ∀ a t as u, ¬ s.Buffered → openings.Step s a t → t.Buffered → whileBuffered.Run t as u →
        u.conn.notifications = s.conn.notifications + if u.Buffered then 0 else 1 := by
  have hi := openings_exact h
  refine ⟨?_, ?_, ?_⟩
  · intro a hen
    obtain ⟨t, heq⟩ := hi.progress hen
    exact ⟨t, hen, heq⟩
  · intro a t hst
    exact (step_notifications hset hst).1
  · intro a t as u _ hst ht hrun
    have hfilled : t.conn.notifications = s.conn.notifications := by
      rw [(step_notifications hset hst).1, if_neg fun hc => hc.2 ht]
      rfl
    have hset' := (congrArg Prod.fst (step_settings hi hst)).trans hset
    rw [period_notifications (openings_exact (h.step hst)) hset' ht hrun, hfilled]

set_option maxRecDepth 8000 in
/-- Two payloads are buffered, the first in part, and drain together: one notification. -/
theorem write_complete_exact_partial :
    ∃ s t u, openings.Step s (.sendInLoop [1, 2, 3] (.wrote 1)) t ∧
      whileBuffered.Run t [.sendInLoop [4] (.wrote 0), .handleWrite (.wrote 2),
        .handleWrite (.wrote 1)] u ∧
      u.conn.notifications = s.conn.notifications + 1 := by
  have hreach : openings.Reachable ⟨(TcpConnection.new true true false 64).established, []⟩ :=
    reachable_of_exec [] (.inl ⟨rfl, true, true, false, 64, rfl⟩) rfl
  have hrun : ∃ t u, openings.Step ⟨(TcpConnection.new true true false 64).established, []⟩
      (.sendInLoop [1, 2, 3] (.wrote 1)) t ∧ t.Buffered ∧ whileBuffered.Run t
        [.sendInLoop [4] (.wrote 0), .handleWrite (.wrote 2), .handleWrite (.wrote 1)] u ∧
        ¬ u.Buffered :=
    ⟨_, _, ⟨by decide, rfl⟩, by decide, run_of_exec rfl, by decide⟩
  obtain ⟨t, u, hst, ht, hrun, hu⟩ := hrun
  have hone := (write_complete_exact hreach rfl).2.2 _ t _ u (by decide) hst ht hrun
  rw [if_neg hu] at hone
  exact ⟨_, t, u, hst, hrun, hone⟩

end Stream

end Kaycc
