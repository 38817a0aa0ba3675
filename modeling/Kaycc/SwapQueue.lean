/-
  Kaycc/SwapQueue.lean
  ====================
  **A double-buffered work queue and its history.**

  Producers append to `pending`; the consumer takes the whole of `pending` at
  once as its `batch`, leaving `pending` empty, and then works the batch off
  from the front.  What producers append meanwhile waits for the next swap.

  `History` records all that was ever pushed and all that was ever run, and the
  number of pushes at the last swap.  `History.Sound` is the one invariant: the
  pushes are the items run, then the rest of the batch, then the pending ones.
  From it: the items run are a prefix of the pushes (`Sound.inOrder`).
-/
import Mathlib.Data.List.Basic

structure SwapQueue (φ : Type*) where
  pending : List φ
  batch : List φ
deriving DecidableEq, Repr

namespace SwapQueue

variable {φ : Type*}

def empty : SwapQueue φ := ⟨[], []⟩

def push (q : SwapQueue φ) (f : φ) : SwapQueue φ := { q with pending := q.pending ++ [f] }

/-- The consumer takes all that is pending; its previous batch is used up. -/
def swap (q : SwapQueue φ) : SwapQueue φ := ⟨[], q.pending⟩

/-- What was pushed and has not been run, in the order it will be. -/
def waiting (q : SwapQueue φ) : List φ := q.batch ++ q.pending

@[simp] theorem waiting_empty : (empty : SwapQueue φ).waiting = [] := rfl

@[simp] theorem waiting_push (q : SwapQueue φ) (f : φ) :
    (q.push f).waiting = q.waiting ++ [f] := by
  simp [waiting, push]

@[simp] theorem batch_push (q : SwapQueue φ) (f : φ) : (q.push f).batch = q.batch := rfl

@[simp] theorem pending_push (q : SwapQueue φ) (f : φ) :
    (q.push f).pending = q.pending ++ [f] := rfl

theorem waiting_swap {q : SwapQueue φ} (h : q.batch = []) : q.swap.waiting = q.waiting := by
  simp [waiting, swap, h]

theorem waiting_of_batch_cons {q : SwapQueue φ} {f : φ} {rest : List φ}
    (h : q.batch = f :: rest) :
    q.waiting = f :: ({ q with batch := rest } : SwapQueue φ).waiting := by
  simp [waiting, h]

/-! ### The history of a queue -/

structure History (φ : Type*) where
  queue : SwapQueue φ
  pushed : List φ
  executed : List φ
  batchEnd : Nat       -- how many pushes there had been at the last swap

namespace History

def empty : History φ := ⟨SwapQueue.empty, [], [], 0⟩

def push (h : History φ) (f : φ) : History φ :=
  { h with queue := h.queue.push f, pushed := h.pushed ++ [f] }

def swap (h : History φ) : History φ :=
  { h with queue := h.queue.swap, batchEnd := h.pushed.length }

/-- Run the first item of the batch; nothing happens on an empty one. -/
def runNext (h : History φ) : History φ :=
  match h.queue.batch with
  | [] => h
  | f :: rest =>
      { h with queue := { h.queue with batch := rest }, executed := h.executed ++ [f] }

@[simp] theorem runNext_pushed (h : History φ) : h.runNext.pushed = h.pushed := by
  unfold runNext
  split <;> rfl

/-- What has been run and what the batch still holds: running moves the boundary. -/
@[simp] theorem executed_append_batch_runNext (h : History φ) :
    h.runNext.executed ++ h.runNext.queue.batch = h.executed ++ h.queue.batch := by
  unfold runNext
  split
  · rfl
  · rename_i f rest hb
    simp [hb]

structure Sound (h : History φ) : Prop where
  order : h.pushed = h.executed ++ h.queue.waiting
  bound : h.executed.length + h.queue.batch.length = h.batchEnd

theorem empty_sound : Sound (empty : History φ) := ⟨rfl, rfl⟩

theorem Sound.push {h : History φ} (hs : h.Sound) (f : φ) : (h.push f).Sound where
  order := by
    simp only [History.push, waiting_push, hs.order, List.append_assoc]
  bound := hs.bound

theorem Sound.swap {h : History φ} (hs : h.Sound) (hb : h.queue.batch = []) :
    h.swap.Sound where
  order := by
    simp only [History.swap, waiting_swap hb]
    exact hs.order
  bound := by
    have hlen := congrArg List.length hs.order
    simp only [waiting, hb, List.nil_append, List.length_append] at hlen
    simp only [History.swap, SwapQueue.swap, hlen]

theorem Sound.runNext {h : History φ} (hs : h.Sound) : h.runNext.Sound := by
  unfold History.runNext
  split
  · exact hs
  · rename_i f rest hb
    constructor
    · rw [hs.order, waiting_of_batch_cons hb, List.append_assoc]
      rfl
    · have hbound := hs.bound
      rw [hb] at hbound
      simp only [List.length_append, List.length_cons, List.length_nil] at hbound ⊢
      omega

/-- **First in, first out.**  Nothing is skipped, repeated or reordered. -/
theorem Sound.inOrder {h : History φ} (hs : h.Sound) : h.executed <+: h.pushed :=
  ⟨h.queue.waiting, hs.order.symm⟩

end History

end SwapQueue
