/-
  Kaycc/Pipe.lean
  ===============
  **One direction of a reliable stream, and its history.**

  The writer adds to the end of `queue`, the reader takes from its front; nothing
  else happens to it while the stream is whole.  The writer may shut its end, after
  which nothing is written.  The stream may also be reset, which loses what is
  behind some place of the queue; after that nothing is written either.

  `History` records all that was written and all that was read.  `History.Sound` is
  the invariant of every operation: what was read and what is in the queue is a
  prefix of what was written, and all of it unless the stream was reset.  A reader
  that has come to the end of a stream that was not reset has read everything
  (`Sound.complete`), and it stays at the end (`atEnd_write` and the others).
-/
import Mathlib.Data.List.Basic

structure Pipe (β : Type*) where
  queue : List β       -- written and not read
  shut : Bool          -- the writer has shut its end
  reset : Bool

namespace Pipe

variable {β : Type*}

def empty : Pipe β := ⟨[], false, false⟩

/-- The stream takes bytes. -/
def Writable (p : Pipe β) : Prop := p.shut = false ∧ p.reset = false

/-- The reader is told that nothing will come. -/
def AtEnd (p : Pipe β) : Prop := p.queue = [] ∧ (p.shut = true ∨ p.reset = true)

instance (p : Pipe β) : Decidable p.Writable := inferInstanceAs (Decidable (_ ∧ _))

theorem AtEnd.not_writable {p : Pipe β} (h : p.AtEnd) : ¬ p.Writable := by
  rintro ⟨hshut, hreset⟩
  rcases h.2 with h | h
  · cases hshut.symm.trans h
  · cases hreset.symm.trans h

/-! ### The history of a stream -/

structure History (β : Type*) where
  pipe : Pipe β
  written : List β
  read : List β

namespace History

variable {h : History β} {d : List β}

def empty : History β := ⟨Pipe.empty, [], []⟩

def write (h : History β) (d : List β) : History β :=
  { h with pipe := { h.pipe with queue := h.pipe.queue ++ d }, written := h.written ++ d }

def take (h : History β) (n : Nat) : History β :=
  { h with
    pipe := { h.pipe with queue := h.pipe.queue.drop n }
    read := h.read ++ h.pipe.queue.take n }

def close (h : History β) : History β := { h with pipe := { h.pipe with shut := true } }

/-- The stream is reset; the first `keep` elements of its queue still arrive. -/
def abort (h : History β) (keep : Nat) : History β :=
  { h with pipe := { h.pipe with queue := h.pipe.queue.take keep, reset := true } }

structure Sound (h : History β) : Prop where
  order : h.read ++ h.pipe.queue <+: h.written
  exact : h.pipe.reset = false → h.read ++ h.pipe.queue = h.written

theorem empty_sound : Sound (empty : History β) := ⟨List.prefix_refl _, fun _ => rfl⟩

theorem Sound.write (hs : h.Sound) (hd : d = [] ∨ h.pipe.Writable) : (h.write d).Sound := by
  rcases hd with rfl | hw
  · have hsame : h.write [] = h := by
      simp only [History.write, List.append_nil]
    rw [hsame]
    exact hs
  · have hall : h.read ++ (h.pipe.queue ++ d) = h.written ++ d := by
      rw [← List.append_assoc, hs.exact hw.2]
    exact ⟨⟨[], by rw [List.append_nil]; exact hall⟩, fun _ => hall⟩

theorem Sound.take (hs : h.Sound) (n : Nat) : (h.take n).Sound := by
  have hsame : (h.take n).read ++ (h.take n).pipe.queue = h.read ++ h.pipe.queue := by
    simp only [History.take, List.append_assoc, List.take_append_drop]
  constructor
  · rw [hsame]
    exact hs.order
  · intro hreset
    rw [hsame]
    exact hs.exact hreset

theorem Sound.close (hs : h.Sound) : h.close.Sound := ⟨hs.order, hs.exact⟩

theorem Sound.abort (hs : h.Sound) (keep : Nat) : (h.abort keep).Sound := by
  constructor
  · have hkept : h.read ++ h.pipe.queue.take keep <+: h.read ++ h.pipe.queue :=
      (List.prefix_append_right_inj _).mpr (List.take_prefix _ _)
    exact hkept.trans hs.order
  · intro hreset
    cases hreset

/-- **What is read is a prefix of what was written.** -/
theorem Sound.delivered (hs : h.Sound) : h.read <+: h.written :=
  (List.prefix_append _ _).trans hs.order

/-- **At the end of a stream that was not reset everything has been read.** -/
theorem Sound.complete (hs : h.Sound) (hend : h.pipe.AtEnd) (hreset : h.pipe.reset = false) :
    h.read = h.written := by
  have hall := hs.exact hreset
  rwa [hend.1, List.append_nil] at hall

/-! ### The end of a stream lasts -/

theorem atEnd_write (hend : h.pipe.AtEnd) (hd : d = [] ∨ h.pipe.Writable) :
    (h.write d).pipe.AtEnd := by
  rcases hd with rfl | hw
  · exact ⟨by simpa only [History.write, List.append_nil] using hend.1, hend.2⟩
  · exact absurd hw hend.not_writable

theorem atEnd_take (hend : h.pipe.AtEnd) (n : Nat) : (h.take n).pipe.AtEnd :=
  ⟨by simp only [History.take, hend.1, List.drop_nil], hend.2⟩

theorem atEnd_close (hend : h.pipe.AtEnd) : h.close.pipe.AtEnd := ⟨hend.1, .inl rfl⟩

theorem atEnd_abort (hend : h.pipe.AtEnd) (keep : Nat) : (h.abort keep).pipe.AtEnd :=
  ⟨by simp only [History.abort, hend.1, List.take_nil], .inr rfl⟩

end History

end Pipe
