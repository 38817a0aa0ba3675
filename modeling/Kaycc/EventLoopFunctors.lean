/-
  Kaycc/EventLoopFunctors.lean
  ============================
  **Pending functors run exactly once and in the order of their pushes.**

  The only steps that touch the functors are the push of `queueInLoop`, the swap
  of `doPendingFunctors` and the call of one functor (`functors_after`), and
  these are the operations of `SwapQueue.History`.  So the history stays sound in
  every interleaving (`FunctorsInv`), and between two swaps no step changes what
  the batch runs in all (`Run.executed_batch`).
-/
import Kaycc.EventLoop

namespace Kaycc.EventLoop

open Transition

variable {τ φ : Type*} {s t : EventLoop τ φ}

/-! ### What the operations do to the functors -/

@[simp] theorem testQuit_functors (s : EventLoop τ φ) : s.testQuit.functors = s.functors := by
  unfold testQuit
  split <;> rfl

@[simp] theorem handleEvent_functors (s : EventLoop τ φ) :
    s.handleEvent.functors = s.functors := by
  unfold handleEvent
  split <;> rfl

@[simp] theorem handleEvent_point (s : EventLoop τ φ) : s.handleEvent.point = s.point := by
  unfold handleEvent
  split <;> rfl

theorem startLoop_ok (h : s.startLoop = .ok t) :
    t = { s with looping := true, quit := false, point := .whileTest } := by
  unfold startLoop at h
  split at h
  · exact (Except.ok.inj h).symm
  · cases h

variable [DecidableEq τ]

@[simp] theorem queueInLoop_functors (s : EventLoop τ φ) (w : Thread τ) (cb : φ) :
    (s.queueInLoop w cb).functors = s.functors.push ⟨cb, w, s.functors.pushed.length⟩ := by
  unfold queueInLoop
  split <;> rfl

@[simp] theorem queueInLoop_point (s : EventLoop τ φ) (w : Thread τ) (cb : φ) :
    (s.queueInLoop w cb).point = s.point := by
  unfold queueInLoop
  split <;> rfl

@[simp] theorem requestQuit_functors (s : EventLoop τ φ) (w : Thread τ) :
    (s.requestQuit w).functors = s.functors := by
  unfold requestQuit
  split <;> rfl

@[simp] theorem requestQuit_point (s : EventLoop τ φ) (w : Thread τ) :
    (s.requestQuit w).point = s.point := by
  unfold requestQuit
  split <;> rfl

/-- The state after an action that did not stop. -/
def after (s : EventLoop τ φ) : Action τ φ → EventLoop τ φ
  | .queueInLoop t cb => s.queueInLoop t cb
  | .wakeup t => s.wakeup t
  | .quit t => s.requestQuit t
  | .startLoop => { s with looping := true, quit := false, point := .whileTest }
  | .testQuit => s.testQuit
  | .pollReturn active => s.pollReturn active
  | .handleEvent => s.handleEvent
  | .doPendingFunctors => s.doPendingFunctors
  | .swapFunctors => s.swapFunctors
  | .callFunctor => s.callFunctor
  | .finishCalling => s.finishCalling
  | .returnToLoop => s.returnToLoop

theorem step_after {a : Action τ φ} (h : (system τ φ).Step s a t) :
    s.enabled a ∧ t = s.after a := by
  refine ⟨h.1, ?_⟩
  have hst : s.step a = .ok t := h.2
  cases a with
  | startLoop => exact startLoop_ok hst
  | _ => exact (Except.ok.inj hst).symm

/-- `queueInLoop` pushes, `swapFunctors` swaps, `callFunctor` runs the next one,
    and no other step touches the functors. -/
theorem functors_after (s : EventLoop τ φ) (a : Action τ φ) :
    (s.after a).functors = match a with
      | .queueInLoop w cb => s.functors.push ⟨cb, w, s.functors.pushed.length⟩
      | .swapFunctors => s.functors.swap
      | .callFunctor => s.functors.runNext
      | _ => s.functors := by
  cases a with
  | queueInLoop w cb => exact queueInLoop_functors s w cb
  | quit w => exact requestQuit_functors s w
  | testQuit => exact testQuit_functors s
  | handleEvent => exact handleEvent_functors s
  | _ => rfl

/-! ### The history stays sound -/

/-- The history is sound, a push carries its number, and the batch is used up
    whenever the loop thread is not running functors. -/
structure FunctorsInv (s : EventLoop τ φ) : Prop where
  sound : s.functors.Sound
  numbered : s.functors.pushed.map Pushed.seq = List.range s.functors.pushed.length
  batch : s.point ≠ .calling → s.functors.queue.batch = []

omit [DecidableEq τ] in
theorem new_functorsInv : FunctorsInv (new : EventLoop τ φ) where
  sound := SwapQueue.History.empty_sound
  numbered := rfl
  batch := fun _ => rfl

omit [DecidableEq τ] in
/-- A step that leaves the functors alone and does not leave `calling`. -/
theorem FunctorsInv.of_same (hi : FunctorsInv s) (hf : t.functors = s.functors)
    (hp : t.point ≠ .calling → s.point ≠ .calling) : FunctorsInv t where
  sound := hf ▸ hi.sound
  numbered := by rw [hf]; exact hi.numbered
  batch := fun h => by rw [hf]; exact hi.batch (hp h)

theorem FunctorsInv.step {a : Action τ φ} (hi : FunctorsInv s)
    (h : (system τ φ).Step s a t) : FunctorsInv t := by
  obtain ⟨hen, rfl⟩ := step_after h
  have hf := functors_after s a
  cases a with
  | queueInLoop w cb =>
    refine ⟨hf ▸ hi.sound.push _, ?_, ?_⟩
    · rw [hf]
      simp [SwapQueue.History.push, hi.numbered, List.range_succ]
    · intro hp
      rw [hf]
      exact hi.batch (by simpa [after] using hp)
  | swapFunctors =>
    have hb : s.functors.queue.batch = [] := hi.batch (by rw [hen.2]; decide)
    exact ⟨hf ▸ hi.sound.swap hb, hi.numbered, fun hp => absurd rfl hp⟩
  | callFunctor =>
    refine ⟨hf ▸ hi.sound.runNext, ?_, fun hp => absurd hen.2.1 hp⟩
    rw [hf]
    simpa using hi.numbered
  | finishCalling => exact ⟨hi.sound, hi.numbered, fun _ => hen.2.2⟩
  | wakeup w => exact hi.of_same hf id
  | quit w => exact hi.of_same hf (by simp [after])
  | handleEvent => exact hi.of_same hf (by simp [after])
  | startLoop => exact hi.of_same hf (fun _ => by rw [hen.2]; decide)
  | testQuit => exact hi.of_same hf (fun _ => by rw [hen.2]; decide)
  | pollReturn active => exact hi.of_same hf (fun _ => by rw [hen.2.1]; decide)
  | doPendingFunctors => exact hi.of_same hf (fun _ => by rw [hen.2.1]; decide)
  | returnToLoop => exact hi.of_same hf (fun _ => by rw [hen.2]; decide)

theorem functorsInv_of_reachable (h : (system τ φ).Reachable s) : FunctorsInv s :=
  h.invariant (fun _ h₀ => h₀ ▸ new_functorsInv) (fun _ _ _ hi hst => hi.step hst)

/-! ### Between two swaps -/

/-- What the current batch runs in all: what has been run, then what it still holds. -/
def batchRuns (s : EventLoop τ φ) : List (Pushed τ φ) :=
  s.functors.executed ++ s.functors.queue.batch

theorem batchRuns_step {a : Action τ φ} (ha : a ≠ .swapFunctors)
    (h : (system τ φ).Step s a t) : t.batchRuns = s.batchRuns := by
  obtain ⟨_, rfl⟩ := step_after h
  unfold batchRuns
  rw [functors_after s a]
  cases a with
  | queueInLoop w cb => rfl
  | swapFunctors => exact absurd rfl ha
  | callFunctor => simp
  | _ => rfl

theorem batchRuns_run {as : List (Action τ φ)} (h : (system τ φ).Run s as t)
    (has : .swapFunctors ∉ as) : t.batchRuns = s.batchRuns := by
  induction h with
  | nil => rfl
  | @snoc u v as a _ hst ih =>
    rw [List.mem_append, not_or, List.mem_singleton] at has
    rw [batchRuns_step (Ne.symm has.2) hst, ih has.1]

/-- A call of `functors[i]()` is one of the functor at the head of the batch. -/
theorem callFunctor_executes (h : (system τ φ).Step s .callFunctor t) :
    ∃ f rest, s.functors.queue.batch = f :: rest ∧
      t.functors.executed = s.functors.executed ++ [f] ∧ t.functors.queue.batch = rest := by
  obtain ⟨hen, rfl⟩ := step_after h
  obtain ⟨f, rest, hb⟩ := List.exists_cons_of_ne_nil hen.2.2
  have hrun : (s.after .callFunctor).functors = { s.functors with
      queue := { s.functors.queue with batch := rest }
      executed := s.functors.executed ++ [f] } := by
    rw [functors_after]
    simp only [SwapQueue.History.runNext, hb]
  rw [hrun]
  exact ⟨f, rest, hb, rfl, rfl⟩

/-- **Pending functors run exactly once and in order.**  In every reachable state
    the functors executed are a prefix of the pushes, and each push is there once.
    The batch a swap takes is all that is pending then; until the next swap,
    whatever is pushed meanwhile, that batch is all that gets executed, by each call the
    functor at its head; and when the loop thread leaves the batch, it has executed all of
    it. -/
theorem pending_functors_in_order (h : (system τ φ).Reachable s) :
    s.functors.executed <+: s.functors.pushed ∧
    (s.functors.pushed.map Pushed.seq).Nodup ∧
    (∀ u, (system τ φ).Step s .swapFunctors u →
      u.batchRuns = s.functors.executed ++ s.functors.queue.pending) ∧
    (∀ as t, (system τ φ).Run s as t → .swapFunctors ∉ as → t.batchRuns = s.batchRuns) ∧
    (∀ u, (system τ φ).Step s .callFunctor u →
      ∃ f rest, s.functors.queue.batch = f :: rest ∧
        u.functors.executed = s.functors.executed ++ [f] ∧ u.functors.queue.batch = rest) ∧
    (s.point ≠ .calling → s.batchRuns = s.functors.executed) := by
  have hi := functorsInv_of_reachable h
  refine ⟨hi.sound.inOrder, ?_, ?_, fun as t => batchRuns_run, fun _ => callFunctor_executes, ?_⟩
  · rw [hi.numbered]
    exact List.nodup_range
  · intro u hu
    obtain ⟨_, rfl⟩ := step_after hu
    rfl
  · intro hp
    rw [batchRuns, hi.batch hp, List.append_nil]

/-- A functor that queues itself again while it runs: it has been executed, the batch ends
    all the same, and the second push waits for the next one. -/
theorem pending_functors_in_order_requeued :
    ∃ s : EventLoop Unit Nat, (system Unit Nat).Reachable s ∧ s.point = .calling ∧
      s.functors.pushed.length = 2 ∧ s.functors.queue.pending.length = 1 ∧
      s.functors.executed.map Pushed.functor = [7] ∧
      s.functors.executed <+: s.functors.pushed := by
  have hrun : (system Unit Nat).Reachable
      (((((new.queueInLoop .loop 7).after .startLoop).testQuit.pollReturn []).doPendingFunctors
        |>.swapFunctors.callFunctor).queueInLoop .loop 7) :=
    System.reachable_of_exec [.queueInLoop .loop 7, .startLoop, .testQuit, .pollReturn [],
      .doPendingFunctors, .swapFunctors, .callFunctor, .queueInLoop .loop 7] rfl rfl
  exact ⟨_, hrun, rfl, rfl, rfl, rfl, (pending_functors_in_order hrun).1⟩

end Kaycc.EventLoop
