/-
  Kaycc/BufferFind.lean
  =====================
  **`Buffer::findCRLF` and `Buffer::findEOL`.**

  A pointer into the buffer is its distance from `begin()`.  Both functions find the
  first delimiter among the readable bytes, the versions with a `start` the first behind
  it (`findFrom_eq`).

  What has come into a buffer is a stream, of which the first bytes have been retrieved
  (`Stream`).  While bytes are appended and retrieved in any order, the place of a
  delimiter in the stream stays what it is: one that has been found is found again until
  it is retrieved, and a search that found none may be taken up again where it may have
  stopped in the middle of one.
-/
import Kaycc.BufferSequence
import Kaycc.Occurrence

namespace Kaycc

open Occurrence Transition Transition.System

namespace Buffer

variable {b b' : Buffer} {k : Nat}

def kCRLF : Bytes := [13, 10]

/-- `'\n'`. -/
def newline : UInt8 := 10

/-- The asserts of `findCRLF(start)` and `findEOL(start)`. -/
inductive FindAssertion where
  | startReadable     -- peek() <= start
  | startWritten      -- start <= beginWrite()
deriving DecidableEq, Repr

/-- The bytes of `[begin() + start, beginWrite())`. -/
def written (b : Buffer) (start : Nat) : Bytes :=
  (b.buffer.drop start).take (b.writerIndex - start)

/-- `std::search` returns `beginWrite()` when there is no CRLF. -/
def findCRLF (b : Buffer) : Option Nat :=
  let crlf := b.readerIndex + search kCRLF (b.written b.readerIndex)
  if crlf = b.writerIndex then none else some crlf

def findCRLFFrom (b : Buffer) (start : Nat) : Except FindAssertion (Option Nat) :=
  if b.readerIndex ≤ start then
    if start ≤ b.writerIndex then
      let crlf := start + search kCRLF (b.written start)
      .ok (if crlf = b.writerIndex then none else some crlf)
    else .error .startWritten
  else .error .startReadable

/-- `memchr(peek(), '\n', readableBytes())`. -/
def findEOL (b : Buffer) : Option Nat :=
  ((b.written b.readerIndex).idxOf? newline).map (b.readerIndex + ·)

def findEOLFrom (b : Buffer) (start : Nat) : Except FindAssertion (Option Nat) :=
  if b.readerIndex ≤ start then
    if start ≤ b.writerIndex then
      .ok (((b.written start).idxOf? newline).map (start + ·))
    else .error .startWritten
  else .error .startReadable

/-- What ends a line. -/
inductive Delimiter where
  | crlf
  | eol
deriving DecidableEq, Repr

namespace Delimiter

def pattern : Delimiter → Bytes
  | .crlf => kCRLF
  | .eol => [newline]

def find (b : Buffer) : Delimiter → Option Nat
  | .crlf => b.findCRLF
  | .eol => b.findEOL

def findFrom (b : Buffer) (start : Nat) : Delimiter → Except FindAssertion (Option Nat)
  | .crlf => b.findCRLFFrom start
  | .eol => b.findEOLFrom start

theorem pattern_ne_nil (d : Delimiter) : d.pattern ≠ [] := by
  cases d with
  | crlf => exact List.cons_ne_nil _ _
  | eol => exact List.cons_ne_nil _ _

end Delimiter

/-! ### What is found -/

theorem written_drop (b : Buffer) (k : Nat) :
    b.written (b.readerIndex + k) = b.content.drop k := by
  simp only [written, content, readableBytes, List.drop_take, List.drop_drop, Nat.sub_sub]

theorem beginWrite_eq (b : Buffer) (hk : k ≤ b.readableBytes) :
    b.writerIndex = b.readerIndex + k + (b.content.drop k).length := by
  have := b.reader_le_writer
  rw [List.length_drop, length_content]
  simp only [readableBytes] at hk ⊢
  omega

theorem map_first (pat : Bytes) (b : Buffer) (k : Nat) :
    (first pat b.content k).map (b.readerIndex + ·) =
      if search pat (b.content.drop k) = (b.content.drop k).length then none
      else some (b.readerIndex + k + search pat (b.content.drop k)) := by
  unfold first
  split
  · rfl
  · rw [Option.map_some, Nat.add_assoc]

theorem findCRLFFrom_eq (hk : k ≤ b.readableBytes) :
    b.findCRLFFrom (b.readerIndex + k) =
      .ok ((first kCRLF b.content k).map (b.readerIndex + ·)) := by
  have hreadable : b.readerIndex ≤ b.readerIndex + k := Nat.le_add_right _ _
  have hwriter := b.beginWrite_eq hk
  have hwritten : b.readerIndex + k ≤ b.writerIndex := by omega
  simp only [findCRLFFrom, if_pos hreadable, if_pos hwritten, written_drop, map_first]
  congr 1
  exact if_congr (by rw [hwriter, Nat.add_left_cancel_iff]) rfl rfl

theorem findEOLFrom_eq (hk : k ≤ b.readableBytes) :
    b.findEOLFrom (b.readerIndex + k) =
      .ok ((first [newline] b.content k).map (b.readerIndex + ·)) := by
  have hreadable : b.readerIndex ≤ b.readerIndex + k := Nat.le_add_right _ _
  have hwritten : b.readerIndex + k ≤ b.writerIndex := by
    have := b.beginWrite_eq hk
    omega
  simp only [findEOLFrom, if_pos hreadable, if_pos hwritten, written_drop, map_first,
    idxOf?_eq_search]
  by_cases hnone : search [newline] (b.content.drop k) = (b.content.drop k).length
  · rw [if_pos hnone, if_pos hnone]
    rfl
  · rw [if_neg hnone, if_neg hnone]
    rfl

/-- **The first delimiter behind `start`**, or `nullptr`. -/
theorem findFrom_eq (d : Delimiter) (hk : k ≤ b.readableBytes) :
    d.findFrom b (b.readerIndex + k) =
      .ok ((first d.pattern b.content k).map (b.readerIndex + ·)) := by
  cases d with
  | crlf => exact findCRLFFrom_eq hk
  | eol => exact findEOLFrom_eq hk

/-- The functions without a `start` search from `peek()`. -/
theorem findFrom_peek (d : Delimiter) (b : Buffer) :
    d.findFrom b b.readerIndex = .ok (d.find b) := by
  have hwritten := b.reader_le_writer
  cases d with
  | crlf =>
    simp only [Delimiter.findFrom, findCRLFFrom, if_pos (Nat.le_refl _), if_pos hwritten]
    rfl
  | eol =>
    simp only [Delimiter.findFrom, findEOLFrom, if_pos (Nat.le_refl _), if_pos hwritten]
    rfl

theorem find_eq (d : Delimiter) (b : Buffer) :
    d.find b = (first d.pattern b.content 0).map (b.readerIndex + ·) :=
  Except.ok.inj ((findFrom_peek d b).symm.trans (findFrom_eq d (Nat.zero_le b.readableBytes)))

/-! ### The stream in a buffer -/

/-- The operations that only add bytes at the end and take them from the front. -/
def Op.streams : Op → Bool
  | .prepend _ | .unwrite _ => false
  | _ => true

/-- What has come into a buffer, and how many bytes of it have been retrieved. -/
structure Stream where
  bytes : Bytes
  position : Nat
deriving DecidableEq

namespace Stream

variable {w : Stream}

def after (w : Stream) : Op → Stream
  | .append data => { w with bytes := w.bytes ++ data }
  | .hasWritten data len => { w with bytes := w.bytes ++ data.take len }
  | .retrieve len | .retrieveUnitl len | .retrieveAsString len =>
      { w with position := w.position + len }
  | .retrieveAll | .retrieveAllAsString => { w with position := w.bytes.length }
  | .ensureWritableBytes _ | .shrink _ | .prepend _ | .unwrite _ => w

/-- The readable bytes are the rest of the stream. -/
structure Holds (w : Stream) (b : Buffer) : Prop where
  position : w.position ≤ w.bytes.length
  content : b.content = w.bytes.drop w.position

theorem Holds.length (h : w.Holds b) : w.bytes.length = w.position + b.readableBytes := by
  have hlen := congrArg List.length h.content
  rw [length_content, List.length_drop] at hlen
  have := h.position
  omega

theorem Holds.added (h : w.Holds b) {data : Bytes} (hcont : b'.content = b.content ++ data) :
    Holds { w with bytes := w.bytes ++ data } b' where
  position := by
    rw [List.length_append]
    exact Nat.le_trans h.position (Nat.le_add_right _ _)
  content := by rw [hcont, h.content, List.drop_append_of_le_length h.position]

theorem Holds.taken (h : w.Holds b) {len : Nat} (hlen : len ≤ b.readableBytes)
    (hcont : b'.content = b.content.drop len) :
    Holds { w with position := w.position + len } b' where
  position := by
    rw [h.length]
    exact Nat.add_le_add_left hlen _
  content := by rw [hcont, h.content, List.drop_drop]

theorem Holds.emptied (hcont : b'.content = []) :
    Holds { w with position := w.bytes.length } b' where
  position := Nat.le_refl _
  content := by rw [hcont, List.drop_length]

/-- **One operation**: the buffer holds what is left of the stream after it. -/
theorem Holds.apply (h : w.Holds b) {op : Op} (hpre : op.pre b) (hop : op.streams = true)
    {r : List Bytes} (heq : op.apply b = .ok (r, b')) : (w.after op).Holds b' := by
  obtain ⟨b₁, heq₁, hcont, -⟩ := Op.apply_ok hpre
  obtain rfl : b₁ = b' := congrArg Prod.snd (Except.ok.inj (heq₁.symm.trans heq))
  cases op with
  | append data => exact h.added hcont
  | hasWritten data len => exact h.added hcont
  | retrieve len => exact h.taken hpre hcont
  | retrieveUnitl len => exact h.taken hpre hcont
  | retrieveAsString len => exact h.taken hpre hcont
  | retrieveAll => exact .emptied hcont
  | retrieveAllAsString => exact .emptied hcont
  | ensureWritableBytes len => exact ⟨h.position, hcont.trans h.content⟩
  | shrink reserve => exact ⟨h.position, hcont.trans h.content⟩
  | prepend data => cases hop
  | unwrite len => cases hop

theorem prefix_after (w : Stream) (op : Op) : w.bytes <+: (w.after op).bytes := by
  cases op with
  | append data => exact List.prefix_append _ _
  | hasWritten data len => exact List.prefix_append _ _
  | _ => exact List.prefix_refl _

/-- The places of the delimiters in the stream, seen from the buffer. -/
theorem Holds.findFrom (h : w.Holds b) (d : Delimiter) (hk : k ≤ b.readableBytes) :
    d.findFrom b (b.readerIndex + k) =
      .ok ((first d.pattern w.bytes (w.position + k)).map
        fun p => b.readerIndex + (p - w.position)) := by
  rw [findFrom_eq d hk, h.content, first_drop, Option.map_map]
  rfl

theorem Holds.find (h : w.Holds b) (d : Delimiter) :
    d.find b = (first d.pattern w.bytes w.position).map
      fun p => b.readerIndex + (p - w.position) :=
  Except.ok.inj ((findFrom_peek d b).symm.trans (h.findFrom d (Nat.zero_le b.readableBytes)))

end Stream

end Buffer

open Buffer

namespace Buffers

variable {ι : Type} [DecidableEq ι] {s t : Buffers ι} {cmds : List (Command ι)} {i : ι}

/-- The command does not prepend to buffer `i`, unwrite it or swap it. -/
def Command.streams (i : ι) : Command ι → Bool
  | .on j op => j ≠ i || op.streams
  | .swap j k => j ≠ i && k ≠ i

def streamAfter (i : ι) (w : Stream) : Command ι → Stream
  | .on j op => if j = i then w.after op else w
  | .swap _ _ => w

/-- The stream of buffer `i`, from a time on at which `bytes` are readable. -/
def streamed (i : ι) (bytes : Bytes) (cmds : List (Command ι)) : Stream :=
  cmds.foldl (streamAfter i) ⟨bytes, 0⟩

theorem prefix_streamAfter (i : ι) (w : Stream) (cmd : Command ι) :
    w.bytes <+: (streamAfter i w cmd).bytes := by
  cases cmd with
  | on j op =>
    simp only [streamAfter]
    split
    · exact w.prefix_after op
    · exact List.prefix_refl _
  | swap j k => exact List.prefix_refl _

theorem holds_step {w : Stream} (h : w.Holds (s.buffers i)) {cmd : Command ι}
    (hcmd : cmd.streams i = true) (hst : (system ι).Step s cmd t) :
    (streamAfter i w cmd).Holds (t.buffers i) := by
  obtain ⟨hen, heq⟩ := hst
  cases cmd with
  | on j op =>
    obtain ⟨r, happly, hok⟩ := bind_eq_ok.mp heq
    obtain rfl := Except.ok.inj hok
    by_cases hj : j = i
    · subst hj
      have hop : op.streams = true := by simpa [Command.streams] using hcmd
      simp only [streamAfter, if_pos, Function.update_self]
      exact h.apply hen hop happly
    · simp only [streamAfter, if_neg hj, Function.update_of_ne (Ne.symm hj)]
      exact h
  | swap j k =>
    obtain rfl := Except.ok.inj heq
    simp only [Command.streams, ne_eq, Bool.and_eq_true, decide_eq_true_eq] at hcmd
    simp only [streamAfter, exchange, Function.update_of_ne (Ne.symm hcmd.1),
      Function.update_of_ne (Ne.symm hcmd.2)]
    exact h

/-- **Over a run** buffer `i` holds what is left of its stream, which only grows. -/
theorem holds_run (hrun : (system ι).Run s cmds t) (hcmds : ∀ cmd ∈ cmds, cmd.streams i = true) :
    (streamed i (s.buffers i).content cmds).Holds (t.buffers i) ∧
      (s.buffers i).content <+: (streamed i (s.buffers i).content cmds).bytes := by
  induction hrun with
  | nil => exact ⟨⟨Nat.zero_le _, rfl⟩, List.prefix_refl _⟩
  | @snoc u t cmds cmd _ hst ih =>
    obtain ⟨hholds, hprefix⟩ := ih fun c hc => hcmds c (List.mem_append_left _ hc)
    have hcmd := hcmds cmd (List.mem_append_right _ List.mem_cons_self)
    simp only [streamed, List.foldl_append, List.foldl_cons, List.foldl_nil] at hholds hprefix ⊢
    exact ⟨holds_step hholds hcmd hst, hprefix.trans (prefix_streamAfter i _ cmd)⟩

/-! ### The theorem -/

/-- **Delimiters keep their places in the stream.**  Over any run that appends to a buffer
    and retrieves from it: a search from `k` bytes behind `peek()` finds the first
    delimiter of the stream there and no assertion of it fails; a delimiter found at the
    beginning of the run is what is found at its end, unless its first byte has been
    retrieved; and where none was found, a search from the last byte that may begin one,
    or from any place before it, finds what a search of all readable bytes finds. -/
theorem find_in_stream (d : Delimiter) (hrun : (system ι).Run s cmds t)
    (hcmds : ∀ cmd ∈ cmds, cmd.streams i = true) :
    let b := s.buffers i
    let b' := t.buffers i
    let w := streamed i b.content cmds
    b'.content = w.bytes.drop w.position ∧
    (∀ k ≤ b'.readableBytes, d.findFrom b' (b'.readerIndex + k) =
      .ok ((first d.pattern w.bytes (w.position + k)).map
        fun p => b'.readerIndex + (p - w.position))) ∧
    (∀ p, d.find b = some (b.readerIndex + p) → w.position ≤ p →
      d.find b' = some (b'.readerIndex + (p - w.position))) ∧
    (d.find b = none → ∀ k, w.position + k + d.pattern.length ≤ b.readableBytes + 1 →
      d.findFrom b' (b'.readerIndex + k) = .ok (d.find b')) := by
  intro b b' w
  have hstream : w.Holds b' ∧ b.content <+: w.bytes := holds_run hrun hcmds
  obtain ⟨hholds, m, hm⟩ := hstream
  have hpat := d.pattern_ne_nil
  refine ⟨hholds.content, fun k hk => hholds.findFrom d hk, fun p hp hle => ?_,
    fun hnone k hk => ?_⟩
  · obtain ⟨p', hfirst, heq⟩ := Option.map_eq_some_iff.mp ((find_eq d b).symm.trans hp)
    obtain rfl := Nat.add_left_cancel heq
    have hlater : first d.pattern w.bytes 0 = some p' := by
      rw [← hm]
      exact first_append hpat hfirst m
    have hhere : first d.pattern w.bytes w.position = some p' := by
      rw [← hlater]
      refine first_skip hpat (Nat.zero_le _) fun j _ hj => ?_
      exact ((first_eq_some hpat).mp hlater).absent j (Nat.zero_le j) (Nat.lt_of_lt_of_le hj hle)
    rw [hholds.find d, hhere, Option.map_some]
  · have hnowhere : first d.pattern b.content 0 = none :=
      Option.map_eq_none_iff.mp ((find_eq d b).symm.trans hnone)
    have hlen : b.content.length = b.readableBytes := length_content b
    have hgrown := congrArg List.length hm
    rw [List.length_append, hlen, hholds.length] at hgrown
    have hpos := List.length_pos_iff.mpr hpat
    rw [hholds.findFrom d (by omega), hholds.find d]
    congr 2
    -- no delimiter begins between the two places
    refine first_skip hpat (Nat.le_add_right _ _) fun j _ hj => ?_
    rw [← hm]
    exact absent_append hpat hnowhere (Nat.zero_le j) (by omega) m

/-- "a\r", in which there is no CRLF, then "\nb"; the 'a' is retrieved. -/
theorem find_in_stream_cut :
    ∃ s t : Buffers Nat, (system Nat).Run s [.on 0 (.append [10, 98]), .on 0 (.retrieve 1)] t ∧
      Delimiter.crlf.find (s.buffers 0) = none ∧
      Delimiter.crlf.findFrom (t.buffers 0) (t.buffers 0).readerIndex =
        .ok (some (t.buffers 0).readerIndex) := by
  have hpre₁ : (new : Buffers Nat).enabled (.on 0 (.append [97, 13])) := trivial
  rcases new_refines.step_ok hpre₁ with ⟨s₁, -, href₁, -⟩
  have hpre₂ : s₁.enabled (.on 0 (.append [10, 98])) := trivial
  rcases href₁.step_ok hpre₂ with ⟨s₂, heq₂, href₂, -⟩
  have hpre₃ : s₂.enabled (.on 0 (.retrieve 1)) := by
    change 1 ≤ (s₂.buffers 0).readableBytes
    rw [← Buffer.length_content, href₂.contents]
    decide
  rcases href₂.step_ok hpre₃ with ⟨s₃, heq₃, -, -⟩
  have hrun := (Run.single (step_of hpre₂ heq₂)).append (Run.single (step_of hpre₃ heq₃))
  have hcontent : (s₁.buffers 0).content = [97, 13] := href₁.contents 0
  have hnone : Delimiter.crlf.find (s₁.buffers 0) = none := by
    rw [find_eq, hcontent]
    rfl
  obtain ⟨-, hplace, -, -⟩ := find_in_stream (i := 0) .crlf hrun (by decide)
  refine ⟨s₁, s₃, hrun, hnone, ?_⟩
  have hfound := hplace 0 (Nat.zero_le _)
  rw [hcontent] at hfound
  exact hfound

end Buffers

end Kaycc
