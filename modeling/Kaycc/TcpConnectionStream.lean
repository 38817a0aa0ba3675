/-
  Kaycc/TcpConnectionStream.lean
  ==============================
  **The outgoing byte stream of a connection is exact.**

  The runs are those of `sendInLoop` and `handleWrite` on an established
  connection, with any answers of the kernel; `state_` may become
  `kDisconnecting` and reading may be switched on and off in between.
-/
import Kaycc.TcpConnectionOutput
import Kaycc.Transition

namespace Kaycc

open Transition Transition.System TcpConnection

/-- A connection, and the payloads of the `sendInLoop` calls so far without those that
    were dropped. -/
structure Stream where
  conn : TcpConnection
  payloads : List Bytes

namespace Stream

variable {s s' : Stream}

inductive Action where
  | sendInLoop (data : Bytes) (w : WriteResult)
  | handleWrite (w : WriteResult)
  | setDisconnecting
  | startReadInLoop
  | stopReadInLoop
deriving DecidableEq, Repr

def enabled (s : Stream) : Action → Prop
  | .sendInLoop data w => s.conn.state ≠ .kDisconnected ∧ w.fits data.length
  | .handleWrite w =>
      s.conn.state ≠ .kDisconnected ∧ w.fits s.conn.outputBuffer.readableBytes
  | _ => s.conn.state ≠ .kDisconnected

def step (s : Stream) : Action → Except Assertion Stream
  | .sendInLoop data w => do
      let conn ← s.conn.sendInLoop data w
      pure ⟨conn, if s.conn.drops w then s.payloads else s.payloads ++ [data]⟩
  | .handleWrite w => do
      let conn ← s.conn.handleWrite w
      pure { s with conn := conn }
  | .setDisconnecting => .ok { s with conn := s.conn.setState .kDisconnecting }
  | .startReadInLoop => do
      let conn ← s.conn.startReadInLoop
      pure { s with conn := conn }
  | .stopReadInLoop => do
      let conn ← s.conn.stopReadInLoop
      pure { s with conn := conn }

/-- The runs start from a connection that `connectEstablished` has established. -/
def system : System Stream Action Assertion where
  init s := s.payloads = [] ∧ ∃ ownerInLoop writeComplete highWater highWaterMark,
    (TcpConnection.new ownerInLoop writeComplete highWater highWaterMark).connectEstablished =
      .ok s.conn
  enabled := enabled
  step := step

instance (s : Stream) : (a : Action) → Decidable (system.enabled s a)
  | .sendInLoop _ _ => inferInstanceAs (Decidable (_ ∧ _))
  | .handleWrite _ => inferInstanceAs (Decidable (_ ∧ _))
  | .setDisconnecting => inferInstanceAs (Decidable (_ ≠ _))
  | .startReadInLoop => inferInstanceAs (Decidable (_ ≠ _))
  | .stopReadInLoop => inferInstanceAs (Decidable (_ ≠ _))

/-! ### The invariant -/

structure Exact (s : Stream) : Prop where
  watched : s.conn.channel.Watched
  streams : Streams s.conn s.payloads.flatten

theorem init_exact (h : system.init s) : Exact s := by
  obtain ⟨hpay, oil, wc, hw, hwm, hconn⟩ := h
  rw [connectEstablished_eq rfl Channel.new_synced.toWatched] at hconn
  obtain ⟨conn, payloads⟩ := s
  obtain rfl : payloads = [] := hpay
  obtain rfl := Except.ok.inj hconn
  exact ⟨Channel.watching_watched _ _, ⟨rfl, iff_of_false nofun (not_not.mpr Buffer.content_empty)⟩⟩

/-- **Every enabled step ends, and keeps the stream exact.** -/
theorem Exact.step (hi : Exact s) {a : Action} (hen : s.enabled a) :
    ∃ s', s.step a = .ok s' ∧ Exact s' := by
  cases a with
  | sendInLoop data w =>
    obtain ⟨c', heq, hout, hs, _⟩ := sendInLoop_ok hi.watched hen.1 data w
    replace hs := hs _ hi.streams
    refine ⟨_, by simp only [Stream.step, heq, ok_bind, pure_eq_ok]; rfl,
      hout.channel.watched hi.watched, ?_⟩
    by_cases hd : s.conn.drops w
    · simpa only [if_pos hd, List.append_nil] using hs
    · simpa only [if_neg hd, List.flatten_append, List.flatten_singleton] using hs
  | handleWrite w =>
    obtain ⟨m, hout, hs, _, heq⟩ := handleWrite_ok hi.watched hen.2
    replace hs := hs _ hi.streams
    have hw := hout.channel.watched hi.watched
    refine ⟨_, by simp only [Stream.step, heq, ok_bind, pure_eq_ok]; rfl, ?_, ?_⟩
    · split
      · rw [shutdownInLoop_channel]
        exact hw
      · exact hw
    · split
      · exact hs.shutdownInLoop
      · exact hs
  | setDisconnecting => exact ⟨_, rfl, hi.watched, hi.streams.congr rfl rfl rfl⟩
  | startReadInLoop =>
    exact ⟨_, by simp only [Stream.step, startReadInLoop_eq hi.watched, ok_bind, pure_eq_ok]; rfl,
      readingStarted_watched hi.watched, hi.streams.readingStarted⟩
  | stopReadInLoop =>
    exact ⟨_, by simp only [Stream.step, stopReadInLoop_eq hi.watched, ok_bind, pure_eq_ok]; rfl,
      readingStopped_watched hi.watched, hi.streams.readingStopped⟩

theorem Exact.progress (hi : Exact s) {a : Action} (hen : s.enabled a) :
    ∃ t, s.step a = .ok t := by
  obtain ⟨t, heq, _⟩ := hi.step hen
  exact ⟨t, heq⟩

theorem Exact.of_step {t : Stream} (hi : Exact s) {a : Action} (hst : system.Step s a t) :
    Exact t := by
  obtain ⟨s', heq, hi'⟩ := hi.step hst.1
  obtain rfl : s' = t := Except.ok.inj (heq.symm.trans hst.2)
  exact hi'

theorem reachable_exact (h : system.Reachable s) : Exact s :=
  h.invariant (fun _ => init_exact) fun _ _ _ hi hst => hi.of_step hst

/-! ### The theorem -/

/-- **What the kernel has accepted, followed by what is in the output buffer, is the
    concatenation of the payloads, and the connection waits to write exactly when the
    buffer is not empty.** -/
theorem outgoing_stream_exact (h : system.Reachable s) :
    writtenIn s.conn.log ++ s.conn.outputBuffer.content = s.payloads.flatten ∧
      (s.conn.channel.isWriting = true ↔ 0 < s.conn.outputBuffer.readableBytes) ∧
      ∀ a, s.enabled a → ∃ s', s.step a = .ok s' := by
  have hi := reachable_exact h
  refine ⟨hi.streams.stream, ?_, fun a hen => hi.progress hen⟩
  rw [hi.streams.writing, Nat.pos_iff_ne_zero, ne_eq, ne_eq, Buffer.content_eq_nil]

set_option maxRecDepth 8000 in
/-- A payload written in part, one that waits behind it, an empty one, one dropped. -/
theorem outgoing_stream_exact_partial :
    ∃ s, system.Reachable s ∧ writtenIn s.conn.log = [1, 2, 3, 4] ∧
      s.payloads = [[1, 2, 3], [4, 5], [], [6]] ∧
      writtenIn s.conn.log ++ s.conn.outputBuffer.content = s.payloads.flatten := by
  have hinit : system.init ⟨(TcpConnection.new true true false 64).established, []⟩ :=
    ⟨rfl, true, true, false, 64, rfl⟩
  have hrun : ∃ s, system.Reachable s ∧ writtenIn s.conn.log = [1, 2, 3, 4] ∧
      s.payloads = [[1, 2, 3], [4, 5], [], [6]] :=
    ⟨_, reachable_of_exec [.sendInLoop [9] (.failed .EPIPE), .sendInLoop [1, 2, 3] (.wrote 1),
      .sendInLoop [4, 5] (.wrote 0), .handleWrite (.failed .EWOULDBLOCK), .handleWrite (.wrote 3),
      .sendInLoop [] (.wrote 0), .sendInLoop [6] (.wrote 0)] hinit rfl, rfl, rfl⟩
  obtain ⟨s, hs, hwritten, hpay⟩ := hrun
  exact ⟨s, hs, hwritten, hpay, (outgoing_stream_exact hs).1⟩

end Stream

end Kaycc
