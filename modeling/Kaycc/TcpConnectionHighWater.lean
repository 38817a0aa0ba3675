/-
  Kaycc/TcpConnectionHighWater.lean
  =================================
  **`highWaterMarkCallback_` is edge triggered.**

  `sendInLoop` compares the length of the output buffer before it appends with
  the length after; `handleWrite` drains the buffer and never looks at the mark.
  A step notifies when it takes the length from below the mark to the mark or
  above (`Stream.BelowMark`), so between two notifications the length has been
  below the mark again, and only `handleWrite` can take it there.
-/
import Kaycc.TcpConnectionWriteComplete

namespace Kaycc

open Transition Transition.System TcpConnection

namespace TcpConnection

variable {c c' : TcpConnection} {data rest : Bytes} {w : WriteResult}

/-- The size that the notification is bound to. -/
def Functor.highWaterSize : Functor → Option Nat
  | .highWaterMarkCallback size => some size
  | _ => none

/-- The sizes of the high-water notifications queued and not yet made. -/
def highWaterMarks (c : TcpConnection) : List Nat :=
  c.functors.waiting.filterMap Functor.highWaterSize

/-- What `c'` owes the user of `c`: a notification if the mark has been reached. -/
structure Marks (c c' : TcpConnection) : Prop where
  grows : c.outputBuffer.readableBytes ≤ c'.outputBuffer.readableBytes
  queued : c'.highWaterMarks = c.highWaterMarks ++
    if c.outputBuffer.readableBytes < c.highWaterMark ∧
        c.highWaterMark ≤ c'.outputBuffer.readableBytes then
      [c'.outputBuffer.readableBytes]
    else []

theorem highWaterMarks_queueInLoop_other {f : Functor} (h : f.highWaterSize = none) :
    (c.queueInLoop f).highWaterMarks = c.highWaterMarks := by
  simp [highWaterMarks, queueInLoop, h]

theorem highWaterMarks_queueHighWaterMark (hset : c.highWaterMarkCallback = true)
    (oldLen remaining : Nat) :
    (c.queueHighWaterMark oldLen remaining).highWaterMarks = c.highWaterMarks ++
      if oldLen < c.highWaterMark ∧ c.highWaterMark ≤ oldLen + remaining then
        [oldLen + remaining]
      else [] := by
  unfold queueHighWaterMark
  by_cases hmark : oldLen < c.highWaterMark ∧ c.highWaterMark ≤ oldLen + remaining
  · rw [if_pos hmark, if_pos ⟨hmark.2, hmark.1, hset⟩]
    simp [highWaterMarks, queueInLoop, Functor.highWaterSize]
  · rw [if_neg hmark, if_neg fun h => hmark ⟨h.2.1, h.1⟩, List.append_nil]

/-- A step that leaves the buffer and the notifications alone. -/
theorem Marks.of_same (hmarks : c'.highWaterMarks = c.highWaterMarks)
    (hbuf : c'.outputBuffer = c.outputBuffer) : Marks c c' := by
  refine ⟨Nat.le_of_eq (by rw [hbuf]), ?_⟩
  rw [hmarks, hbuf, if_neg fun h => absurd h.1 (Nat.not_lt.mpr h.2), List.append_nil]

/-! ### `sendInLoop` -/

theorem directWrite_highWaterMarks (c : TcpConnection) (data : Bytes) (w : WriteResult) :
    (c.directWrite data w).conn.highWaterMarks = c.highWaterMarks := by
  unfold directWrite
  cases w with
  | wrote n =>
    dsimp only
    split
    · exact highWaterMarks_queueInLoop_other rfl
    · rfl
  | failed errno => rfl

theorem directWrite_settings (c : TcpConnection) (data : Bytes) (w : WriteResult) :
    (c.directWrite data w).conn.settings = c.settings := by
  unfold directWrite
  cases w with
  | wrote n =>
    dsimp only
    split <;> rfl
  | failed errno => rfl

theorem appendOutput_marks (hset : c.highWaterMarkCallback = true)
    (h : c.appendOutput rest = .ok c') : Marks c c' := by
  have hlen : c'.outputBuffer.readableBytes = c.outputBuffer.readableBytes + rest.length := by
    obtain ⟨-, hcont⟩ := appendOutput_notifications h
    rw [← Buffer.length_content, hcont, List.length_append, Buffer.length_content]
  have hqueued : c'.highWaterMarks =
      (c.queueHighWaterMark c.outputBuffer.readableBytes rest.length).highWaterMarks := by
    unfold appendOutput at h
    obtain ⟨b, -, h⟩ := bind_eq_ok.mp h
    dsimp only at h
    split at h
    · obtain ⟨ch, -, hch⟩ := bind_eq_ok.mp h
      obtain rfl := Except.ok.inj hch
      rfl
    · obtain rfl := Except.ok.inj h
      rfl
  refine ⟨by omega, ?_⟩
  rw [hqueued, highWaterMarks_queueHighWaterMark hset, hlen]

/-- The end of `sendInLoop`. -/
theorem appendRest_marks (hset : c.highWaterMarkCallback = true) (fault : Bool)
    (h : (if fault = false ∧ 0 < rest.length then c.appendOutput rest else .ok c) = .ok c') :
    Marks c c' := by
  split at h
  · exact appendOutput_marks hset h
  · obtain rfl := Except.ok.inj h
    exact .of_same rfl rfl

/-- **`sendInLoop` notifies when it takes the buffer to the mark.** -/
theorem sendInLoop_marks (hset : c.highWaterMarkCallback = true)
    (h : c.sendInLoop data w = .ok c') : Marks c c' := by
  unfold sendInLoop at h
  split at h
  · obtain rfl := Except.ok.inj h
    exact .of_same rfl rfl
  · by_cases hd : c.writesDirectly
    · simp only [if_pos hd] at h
      have hsettings := directWrite_settings c data w
      have hbuf := directWrite_outputBuffer c data w
      have hmarks := directWrite_highWaterMarks c data w
      simp only [settings, Prod.mk.injEq] at hsettings
      obtain ⟨-, hcallback, hmark⟩ := hsettings
      -- the direct write changes nothing that the test of the mark reads
      obtain ⟨hgrows, hqueued⟩ := appendRest_marks (hcallback.trans hset) _ h
      rw [hbuf] at hgrows hqueued
      rw [hmarks, hmark] at hqueued
      exact ⟨hgrows, hqueued⟩
    · rw [show (if c.writesDirectly then c.directWrite data w else ⟨c, 0, false⟩) = ⟨c, 0, false⟩
        from if_neg hd] at h
      exact appendRest_marks hset _ h

/-! ### `handleWrite` -/

theorem outputDrained_highWaterMarks (h : c.outputDrained = .ok c') :
    c'.highWaterMarks = c.highWaterMarks ∧ c'.outputBuffer = c.outputBuffer := by
  obtain ⟨ch, -, hrest⟩ := bind_eq_ok.mp h
  -- `shutdownInLoop` only writes to the log
  have hshut : ∀ m : TcpConnection, m.shutdownInLoop.highWaterMarks = m.highWaterMarks := by
    intro m
    unfold shutdownInLoop
    split <;> rfl
  have hqueued : ∀ m : TcpConnection, m =
      (if c.writeCompleteCallback = true then
        (c.setChannel ch).queueInLoop .writeCompleteCallback else c.setChannel ch) →
      m.highWaterMarks = c.highWaterMarks ∧ m.outputBuffer = c.outputBuffer := by
    rintro m rfl
    split
    · exact ⟨highWaterMarks_queueInLoop_other rfl, rfl⟩
    · exact ⟨rfl, rfl⟩
  dsimp only at hrest
  generalize (if c.writeCompleteCallback = true then _ else _) = m at hrest hqueued
  obtain ⟨hmarks, hbuf⟩ := hqueued m rfl
  split at hrest
  · obtain rfl := Except.ok.inj hrest
    exact ⟨(hshut m).trans hmarks, (notifications_shutdownInLoop m).2.trans hbuf⟩
  · obtain rfl := Except.ok.inj hrest
    exact ⟨hmarks, hbuf⟩

/-- **`handleWrite` never notifies**, and it only takes from the buffer. -/
theorem handleWrite_highWaterMarks (h : c.handleWrite w = .ok c') :
    c'.highWaterMarks = c.highWaterMarks ∧
      c'.outputBuffer.readableBytes ≤ c.outputBuffer.readableBytes := by
  unfold handleWrite at h
  by_cases hwriting : c.channel.isWriting = true
  · rw [if_pos hwriting] at h
    cases w with
    | wrote n =>
      by_cases hpos : 0 < n
      · simp only [if_pos hpos] at h
        obtain ⟨b, hb, h⟩ := bind_eq_ok.mp h
        have hshrinks : b.readableBytes ≤ c.outputBuffer.readableBytes := by
          have hle : n ≤ c.outputBuffer.readableBytes :=
            of_check_ok (bind_eq_ok.mp hb).choose_spec.1
          obtain ⟨b', hb', hcont⟩ := Buffer.retrieve_ok hle
          obtain rfl := Except.ok.inj (hb.symm.trans hb')
          rw [← Buffer.length_content, hcont, List.length_drop, Buffer.length_content]
          exact Nat.sub_le _ _
        split at h
        · obtain ⟨hmarks, hbuf⟩ := outputDrained_highWaterMarks h
          exact ⟨hmarks, hbuf ▸ hshrinks⟩
        · obtain rfl := Except.ok.inj h
          exact ⟨rfl, hshrinks⟩
      · simp only [if_neg hpos] at h
        obtain rfl := Except.ok.inj h
        exact ⟨rfl, Nat.le_refl _⟩
    | failed errno =>
      obtain rfl := Except.ok.inj h
      exact ⟨rfl, Nat.le_refl _⟩
  · rw [if_neg hwriting] at h
    obtain rfl := Except.ok.inj h
    exact ⟨rfl, Nat.le_refl _⟩

/-! ### Reading on and off -/

theorem startReadInLoop_highWaterMarks (h : c.startReadInLoop = .ok c') :
    c'.highWaterMarks = c.highWaterMarks := by
  unfold startReadInLoop at h
  split at h
  · obtain ⟨ch, -, hch⟩ := bind_eq_ok.mp h
    obtain rfl := Except.ok.inj hch
    rfl
  · obtain rfl := Except.ok.inj h
    rfl

theorem stopReadInLoop_highWaterMarks (h : c.stopReadInLoop = .ok c') :
    c'.highWaterMarks = c.highWaterMarks := by
  unfold stopReadInLoop at h
  split at h
  · obtain ⟨ch, -, hch⟩ := bind_eq_ok.mp h
    obtain rfl := Except.ok.inj hch
    rfl
  · obtain rfl := Except.ok.inj h
    rfl

end TcpConnection

namespace Stream

variable {s t u v : Stream} {a b : Action} {as : List Action}

/-! ### Steps -/

/-- `outputBuffer_.readableBytes() < highWaterMark_`. -/
def BelowMark (s : Stream) : Prop := s.conn.outputBuffer.readableBytes < s.conn.highWaterMark

/-- The step from `s` to `t` queues `highWaterMarkCallback_`. -/
def Notifies (s t : Stream) : Prop := t.conn.highWaterMarks ≠ s.conn.highWaterMarks

def Action.isHandleWrite : Action → Prop
  | .handleWrite _ => True
  | _ => False

instance (s : Stream) : Decidable s.BelowMark := inferInstanceAs (Decidable (_ < _))

theorem step_mark (hi : Exact s) (h : openings.Step s a t) :
    t.conn.highWaterMarkCallback = s.conn.highWaterMarkCallback ∧
      t.conn.highWaterMark = s.conn.highWaterMark := by
  have hsettings := step_settings hi h
  simp only [settings, Prod.mk.injEq] at hsettings
  exact hsettings.2

/-- **One step notifies exactly when it crosses the mark upwards**; only `handleWrite`
    shortens the buffer. -/
theorem step_highWaterMarks (hset : s.conn.highWaterMarkCallback = true) (hi : Exact s)
    (h : openings.Step s a t) :
    (t.conn.highWaterMarks = s.conn.highWaterMarks ++
        if s.BelowMark ∧ ¬ t.BelowMark then [t.conn.outputBuffer.readableBytes] else []) ∧
      (¬ a.isHandleWrite → ¬ s.BelowMark → ¬ t.BelowMark) := by
  have hmark := (step_mark hi h).2
  -- a step of which `Marks` holds
  have hmarks : Marks s.conn t.conn →
      (t.conn.highWaterMarks = s.conn.highWaterMarks ++
          if s.BelowMark ∧ ¬ t.BelowMark then [t.conn.outputBuffer.readableBytes] else []) ∧
        (¬ a.isHandleWrite → ¬ s.BelowMark → ¬ t.BelowMark) := by
    rintro ⟨hgrows, hqueued⟩
    simp only [BelowMark, hmark, Nat.not_lt]
    exact ⟨hqueued, fun _ hs => Nat.le_trans hs hgrows⟩
  obtain ⟨hen, hstep⟩ := h
  cases a with
  | sendInLoop data w =>
    obtain ⟨c', heq, hc'⟩ := bind_eq_ok.mp hstep
    obtain rfl := Except.ok.inj hc'
    exact hmarks (sendInLoop_marks hset heq)
  | handleWrite w =>
    obtain ⟨c', heq, hc'⟩ := bind_eq_ok.mp hstep
    obtain rfl := Except.ok.inj hc'
    obtain ⟨hsame, hshrinks⟩ := handleWrite_highWaterMarks heq
    refine ⟨?_, fun hnot => absurd trivial hnot⟩
    -- the buffer has not grown, so the mark has not been reached
    have hnot : ¬ (s.BelowMark ∧ ¬ BelowMark { s with conn := c' }) := by
      rintro ⟨hs, ht⟩
      simp only [BelowMark] at hmark hs ht
      omega
    rw [if_neg hnot, List.append_nil]
    exact hsame
  | setDisconnecting =>
    obtain rfl := Except.ok.inj hstep
    exact hmarks (.of_same rfl rfl)
  | startReadInLoop =>
    obtain ⟨c', heq, hc'⟩ := bind_eq_ok.mp hstep
    obtain rfl := Except.ok.inj hc'
    exact hmarks (.of_same (startReadInLoop_highWaterMarks heq)
      (startReadInLoop_notifications heq).2)
  | stopReadInLoop =>
    obtain ⟨c', heq, hc'⟩ := bind_eq_ok.mp hstep
    obtain rfl := Except.ok.inj hc'
    exact hmarks (.of_same (stopReadInLoop_highWaterMarks heq)
      (stopReadInLoop_notifications heq).2)

theorem notifies_iff (hset : s.conn.highWaterMarkCallback = true) (hi : Exact s)
    (h : openings.Step s a t) : Notifies s t ↔ s.BelowMark ∧ ¬ t.BelowMark := by
  rw [Notifies, (step_highWaterMarks hset hi h).1]
  split
  · rename_i hcross
    exact iff_of_true (fun heq => by simp at heq) hcross
  · rename_i hno
    exact iff_of_false (fun hne => hne (List.append_nil _)) hno

/-! ### Runs -/

theorem run_callback (hs : openings.Reachable s) (h : openings.Run s as t) :
    t.conn.highWaterMarkCallback = s.conn.highWaterMarkCallback :=
  h.related (P := Exact)
    (R := fun s t => t.conn.highWaterMarkCallback = s.conn.highWaterMarkCallback)
    (fun _ _ _ hi hst => hi.of_step hst) (fun _ => rfl) (fun _ _ _ h₁ h₂ => h₂.trans h₁)
    (fun _ _ _ hi hst => (step_mark hi hst).1) (openings_exact hs)

/-- A run from the mark to below it has a `handleWrite` that goes below. -/
theorem exists_drain (hset : s.conn.highWaterMarkCallback = true) (hreach : openings.Reachable s)
    (h : openings.Run s as t) (hs : ¬ s.BelowMark) (ht : t.BelowMark) :
    ∃ as₁ w as₂ u v, as = as₁ ++ .handleWrite w :: as₂ ∧ openings.Run s as₁ u ∧
      openings.Step u (.handleWrite w) v ∧ openings.Run v as₂ t ∧ ¬ u.BelowMark ∧
      v.BelowMark := by
  obtain ⟨as₁, a, as₂, u, v, rfl, hbefore, hstep, hafter, hu, hv⟩ :=
    h.exists_loss (P := fun s => ¬ s.BelowMark) hs (not_not.mpr ht)
  have hu' : openings.Reachable u := hreach.run hbefore
  have hkept := (step_highWaterMarks ((run_callback hreach hbefore).trans hset)
    (openings_exact hu') hstep).2
  cases a with
  | handleWrite w => exact ⟨as₁, w, as₂, u, v, rfl, hbefore, hstep, hafter, hu, not_not.mp hv⟩
  | sendInLoop data w => exact absurd (hkept id hu) hv
  | setDisconnecting => exact absurd (hkept id hu) hv
  | startReadInLoop => exact absurd (hkept id hu) hv
  | stopReadInLoop => exact absurd (hkept id hu) hv

/-- **The callback is queued by the steps that take the buffer from below the mark to the
    mark or above, and by no other**, each time with the length that the buffer has after
    the step; between any two of them a `handleWrite` has taken it below the mark. -/
theorem high_water_edge_triggered (h : openings.Reachable s)
    (hset : s.conn.highWaterMarkCallback = true) :
    (∀ a, openings.enabled s a → ∃ t, openings.Step s a t) ∧
      (∀ a t, openings.Step s a t →
        t.conn.highWaterMark = s.conn.highWaterMark ∧
          t.conn.highWaterMarks = s.conn.highWaterMarks ++
            if s.BelowMark ∧ ¬ t.BelowMark then [t.conn.outputBuffer.readableBytes] else []) ∧
      ∀ a t as u b v, openings.Step s a t → Notifies s t → openings.Run t as u →
        openings.Step u b v → Notifies u v →
        ∃ as₁ w as₂ x y, as = as₁ ++ .handleWrite w :: as₂ ∧ openings.Run t as₁ x ∧
          openings.Step x (.handleWrite w) y ∧ openings.Run y as₂ u ∧
          ¬ x.BelowMark ∧ y.BelowMark := by
  have hi := openings_exact h
  refine ⟨?_, ?_, ?_⟩
  · intro a hen
    obtain ⟨t, heq⟩ := hi.progress hen
    exact ⟨t, hen, heq⟩
  · intro a t hst
    exact ⟨(step_mark hi hst).2, (step_highWaterMarks hset hi hst).1⟩
  · intro a t as u b v hst hfirst hrun hst' hsecond
    have ht := h.step hst
    have hsett : t.conn.highWaterMarkCallback = true := (step_mark hi hst).1.trans hset
    have hsetu := (run_callback ht hrun).trans hsett
    have hcross := (notifies_iff hset hi hst).mp hfirst
    have hcross' := (notifies_iff hsetu (openings_exact (ht.run hrun)) hst').mp hsecond
    exact exists_drain hsett ht hrun hcross.2 hcross'.1

set_option maxRecDepth 8000 in
/-- Mark 2: what a direct write leaves reaches it, more does not notify again, and after
    the buffer has drained it is reached a second time. -/
theorem high_water_edge_triggered_twice :
    ∃ s t u v, openings.Step s (.sendInLoop [1, 2, 3] (.wrote 1)) t ∧
      openings.Run t [.sendInLoop [4] (.wrote 0), .handleWrite (.wrote 2)] u ∧
      openings.Step u (.sendInLoop [5, 6] (.wrote 0)) v ∧ v.conn.highWaterMarks = [2, 3] ∧
      ∃ as₁ w as₂ x y, [.sendInLoop [4] (.wrote 0), .handleWrite (.wrote 2)] =
          as₁ ++ Action.handleWrite w :: as₂ ∧ openings.Run t as₁ x ∧
        openings.Step x (.handleWrite w) y ∧ openings.Run y as₂ u ∧
        ¬ x.BelowMark ∧ y.BelowMark := by
  have hreach : openings.Reachable ⟨(TcpConnection.new true true true 2).established, []⟩ :=
    reachable_of_exec [] (.inl ⟨rfl, true, true, true, 2, rfl⟩) rfl
  have hrun : ∃ t u v, openings.Step ⟨(TcpConnection.new true true true 2).established, []⟩
        (.sendInLoop [1, 2, 3] (.wrote 1)) t ∧
      openings.Run t [.sendInLoop [4] (.wrote 0), .handleWrite (.wrote 2)] u ∧
      openings.Step u (.sendInLoop [5, 6] (.wrote 0)) v ∧ v.conn.highWaterMarks = [2, 3] ∧
      u.conn.highWaterMarks = [2] ∧ t.conn.highWaterMarks = [2] :=
    ⟨_, _, _, ⟨by decide, rfl⟩, run_of_exec rfl, ⟨by decide, rfl⟩, rfl, rfl, rfl⟩
  obtain ⟨t, u, v, hst, hrun, hst', hv, hu, ht⟩ := hrun
  refine ⟨_, t, u, v, hst, hrun, hst', hv, ?_⟩
  refine (high_water_edge_triggered hreach rfl).2.2 _ t _ u _ v hst ?_ hrun hst' ?_
  · rw [Notifies, ht]
    decide
  · rw [Notifies, hv, hu]
    decide

end Stream

end Kaycc
