/-
  Kaycc/ThreadPoolProgress.lean
  =============================
  **A running thread pool cannot get stuck.**

  Two signals keep the pool going, and each can be lost or taken by a thread that
  it was not meant for.  What carries the argument is a count (`Live.backed`): the
  queue, with one more for the thread inside that has still to push or to notify,
  and the producers already woken, always make up for a producer that sleeps; and
  a case distinction (`Live.attended`): as soon as there is a task, either its
  notify is still to come or some thread of the pool is not asleep.
-/
import Kaycc.ThreadPoolTasks

namespace Kaycc.ThreadPool

open Transition Transition.System Monitor

variable {τ φ : Type} [DecidableEq τ] {s s' : ThreadPool τ φ} {t u : τ} {p : Pc τ φ}
variable {r : ThreadPool τ φ} {m : Monitor τ Cond}

/-! ### What the thread inside still owes -/

/-- The thread is about to push, or has taken a task and is about to notify. -/
def Pc.credit : Pc τ φ → Nat
  | .runTest _ | .runPush _ | .takeNotify _ => 1
  | _ => 0

def owed (s : ThreadPool τ φ) : Nat :=
  match s.monitor.holder with
  | some t => (s.pc t).credit
  | none => 0

omit [DecidableEq τ] in
theorem owed_of_free (h : s.monitor.holder = none) : s.owed = 0 := by
  simp only [owed, h]

omit [DecidableEq τ] in
theorem owed_of_inside (h : s.monitor.holder = some t) : s.owed = (s.pc t).credit := by
  simp only [owed, h]

theorem owed_goto_inside (h : s.monitor.holder = some t) : (s.goto t p).owed = p.credit := by
  rw [owed_of_inside (s := s.goto t p) h, goto_pc_self]

/-- A thread that does not hold the mutex owes nothing. -/
theorem owed_goto_outside (hi : Inv s) (hout : s.places t ≠ .inside) :
    (s.goto t p).owed = s.owed := by
  cases hh : s.monitor.holder with
  | none => rw [owed_of_free hh, owed_of_free (s := s.goto t p) hh]
  | some u =>
    have hut : u ≠ t := by
      rintro rfl
      exact hout ((hi.follows.inside u).mpr hh)
    rw [owed_of_inside hh, owed_of_inside (s := s.goto t p) hh, goto_pc_of_ne hut]

/-! ### The invariant -/

/-- The statements of `run`. -/
def Pc.inRun : Pc τ φ → Bool
  | .runLock _ | .runTest _ | .runWait _ | .runPush _ | .runNotify | .runUnlock => true
  | _ => false

structure Live (s : ThreadPool τ φ) : Prop where
  backed : s.monitor.Backed .notFull (s.queue.length + s.owed) s.maxQueueSize
  attended : s.running = true → s.queue ≠ [] →
    (∃ t, s.pc t = .runNotify) ∨ s.monitor.Attended .notEmpty s.threads
  quit : ∀ t, s.pc t = .finished → s.running = false
  some : s.threads ≠ []
  outside : ∀ t, (s.pc t).inRun = true → t ∉ s.threads

omit [DecidableEq τ] in
theorem started_live (maxQueueSize : Nat) {threads : List τ} (hne : threads ≠ []) :
    Live (started maxQueueSize threads : ThreadPool τ φ) where
  backed := fun h => absurd h Finset.not_nonempty_empty
  attended := fun _ h => absurd rfl h
  quit := fun t h => by cases h
  some := hne
  outside := fun t h => by cases h

/-- A thread goes to its next statement after a change of the monitor and the queue. -/
theorem Live.next (hl : Live s) (hpc : r.pc = s.pc) (hthreads : r.threads = s.threads)
    (hrunning : r.running = s.running) (hfinished : p ≠ .finished)
    (houtside : p.inRun = false ∨ t ∉ s.threads)
    (hbacked : r.monitor.Backed .notFull (r.queue.length + (r.goto t p).owed) r.maxQueueSize)
    (hattended : s.running = true → r.queue ≠ [] →
      (∃ u, (r.goto t p).pc u = .runNotify) ∨ r.monitor.Attended .notEmpty s.threads) :
    Live (r.goto t p) where
  backed := hbacked
  attended := by
    rw [goto_running, goto_queue, goto_threads, hrunning, hthreads]
    exact hattended
  quit := by
    rw [goto_running, hrunning]
    exact forall_goto (P := fun _ q => q = .finished → s.running = false)
      (by rw [hpc]; exact hl.quit) fun h => absurd h hfinished
  some := by
    rw [goto_threads, hthreads]
    exact hl.some
  outside := by
    rw [goto_threads, hthreads]
    exact forall_goto (P := fun u q => q.inRun = true → u ∉ s.threads)
      (by rw [hpc]; exact hl.outside) fun h => houtside.resolve_left (by simp [h])

/-- Another thread's notify is still to come. -/
theorem notify_goto {A : Prop} (h : (∃ u, s.pc u = .runNotify) ∨ A) (ht : s.pc t ≠ .runNotify) :
    (∃ u, (s.goto t p).pc u = .runNotify) ∨ A := by
  apply h.imp_left
  rintro ⟨u, hu⟩
  have hut : u ≠ t := by
    rintro rfl
    exact ht hu
  exact ⟨u, (goto_pc_of_ne hut).trans hu⟩

/-- What a step of a thread from `s` to its next statement `p` under the monitor `m` has
    to respect besides the count. -/
structure Respects (s : ThreadPool τ φ) (m : Monitor τ Cond) (t : τ) (p : Pc τ φ) : Prop where
  notified : s.pc t ≠ .runNotify
  finished : p ≠ .finished
  outside : p.inRun = false ∨ t ∉ s.threads
  asleep : m.waiting .notEmpty ⊆ s.monitor.waiting .notEmpty

theorem Live.move (hl : Live s) (hr : Respects s m t p)
    (hbacked : m.Backed .notFull (s.queue.length + ((s.withMonitor m).goto t p).owed)
      s.maxQueueSize) : Live ((s.withMonitor m).goto t p) := by
  apply hl.next (r := s.withMonitor m) rfl rfl rfl hr.finished hr.outside hbacked
  intro hrun hq
  apply notify_goto (s := s.withMonitor m) _ hr.notified
  exact (hl.attended hrun hq).imp_right fun hatt => hatt.of_subset hr.asleep

/-- A step of a thread that is outside and stays there. -/
theorem Live.goto (hl : Live s) (hi : Inv s) (hr : Respects s s.monitor t p)
    (hout : s.places t ≠ .inside) : Live (s.goto t p) := by
  apply hl.move hr
  rw [show ((s.withMonitor s.monitor).goto t p).owed = s.owed from owed_goto_outside hi hout]
  exact hl.backed

/-- The mutex is free and the thread takes it. -/
theorem Live.lock (hl : Live s) (hr : Respects s (s.monitor.lock t) t p)
    (hfree : s.monitor.holder = none) : Live ((s.withMonitor (s.monitor.lock t)).goto t p) := by
  apply hl.move hr
  have hb := hl.backed
  rw [owed_of_free hfree] at hb
  exact (hb.mono (Nat.le_add_right _ _)).of_eq rfl rfl

/-- The thread inside goes on, or leaves, without a debt. -/
theorem Live.inside (hl : Live s) (hi : Inv s) (hr : Respects s m t p)
    (hin : s.places t = .inside) (hcredit : (s.pc t).credit = 0)
    (hwaiting : m.waiting .notFull = s.monitor.waiting .notFull)
    (hwoken : m.woken .notFull = s.monitor.woken .notFull) :
    Live ((s.withMonitor m).goto t p) := by
  apply hl.move hr
  have hb := hl.backed
  rw [owed_of_inside ((hi.follows.inside t).mp hin), hcredit] at hb
  exact (hb.mono (Nat.le_add_right _ _)).of_eq hwaiting hwoken

/-! ### The steps of `run` -/

theorem runTest_live (hi : Inv s) (hl : Live s) {task : TaskFunc φ}
    (hpc : s.pc t = .runTest task) (h : s.runTest t task = .ok s') : Live s' := by
  have hin : s.places t = .inside := by simp [places, hpc, Pc.place]
  have hnot : t ∉ s.threads := hl.outside t (by simp [hpc, Pc.inRun])
  simp only [runTest, isFull_eq hi hin, ok_bind, decide_eq_true_eq, pure_eq_ok] at h
  split at h
  · rename_i hfull
    obtain rfl := Except.ok.inj h
    have hr : Respects s (s.monitor.wait .notFull t) t (.runWait task) :=
      ⟨by simp [hpc], by simp, .inr hnot, fun u hu => by simpa using hu⟩
    apply hl.move hr
    exact backed_wait (hfull.2.trans (Nat.le_add_right _ _))
  · obtain rfl := Except.ok.inj h
    have hr : Respects s s.monitor t (.runPush task) :=
      ⟨by simp [hpc], by simp, .inr hnot, fun _ hu => hu⟩
    apply hl.move hr
    have hheld := (hi.follows.inside t).mp hin
    have hb := hl.backed
    rw [owed_of_inside hheld, hpc] at hb
    rw [owed_goto_inside (s := s.withMonitor s.monitor) hheld]
    exact hb

theorem runPush_live (hi : Inv s) (hl : Live s) {task : TaskFunc φ}
    (hpc : s.pc t = .runPush task) (h : s.runPush t task = .ok s') : Live s' := by
  have hin : s.places t = .inside := by simp [places, hpc, Pc.place]
  have hnot : t ∉ s.threads := hl.outside t (by simp [hpc, Pc.inRun])
  have hheld := (hi.follows.inside t).mp hin
  simp only [runPush] at h
  rcases bind_eq_ok.mp h with ⟨full, _, h⟩
  rcases bind_eq_ok.mp h with ⟨_, _, h⟩
  obtain rfl := Except.ok.inj h
  have hb := hl.backed
  rw [owed_of_inside hheld, hpc] at hb
  apply hl.next (r := s.pushBack task) rfl rfl rfl (by simp) (.inr hnot)
  · rw [owed_goto_inside (s := s.pushBack task) hheld, pushBack, List.length_append]
    exact hb
  · exact fun _ _ => .inl ⟨t, goto_pc_self⟩

/-- A notify reaches some thread of the pool, or they are all awake. -/
theorem runNotify_live (hi : Inv s) (hl : Live s) {woken : Option τ}
    (hpc : s.pc t = .runNotify) (hw : s.monitor.Signals .notEmpty woken) :
    Live ((s.withMonitor (s.monitor.signal .notEmpty woken)).goto t .runUnlock) := by
  have hin : s.places t = .inside := by simp [places, hpc, Pc.place]
  have hnot : t ∉ s.threads := hl.outside t (by simp [hpc, Pc.inRun])
  have hpool : ∀ u ∈ s.monitor.waiting .notEmpty, u ∈ s.threads := fun u hu =>
    hi.pool u (ofPool_of_place (hi.follows.waiting hu))
  have hb := hl.backed
  rw [owed_of_inside ((hi.follows.inside t).mp hin), hpc] at hb
  apply hl.next (r := s.withMonitor (s.monitor.signal .notEmpty woken)) rfl rfl rfl (by simp)
    (.inr hnot)
  · exact (hb.mono (Nat.le_add_right _ _)).of_eq (signal_waiting_other woken (by decide))
      (signal_woken_other woken (by decide))
  · exact fun _ _ => .inr (attended_signal hl.some hpool hw)

/-! ### The steps of `takeTask` -/

theorem takeTest_live (hi : Inv s) (hl : Live s) (hpc : s.pc t = .takeTest) :
    Live (s.takeTest t) := by
  have hin : s.places t = .inside := by simp [places, hpc, Pc.place]
  simp only [takeTest]
  split
  · rename_i hempty
    have hb := hl.backed
    rw [owed_of_inside ((hi.follows.inside t).mp hin), hpc] at hb
    apply hl.next (r := s.withMonitor (s.monitor.wait .notEmpty t)) rfl rfl rfl (by simp)
      (.inl rfl)
    · exact hb.of_eq (wait_waiting_other (by decide)) rfl
    · exact fun _ hq => absurd hempty.1 hq
  · exact hl.inside hi ⟨by simp [hpc], by simp, .inl rfl, fun _ hu => hu⟩ hin
      (by simp [hpc, Pc.credit]) rfl rfl

theorem takePop_live (hi : Inv s) (hl : Live s) (hpc : s.pc t = .takePop) :
    Live (s.takePop t) := by
  have hin : s.places t = .inside := by simp [places, hpc, Pc.place]
  have hheld := (hi.follows.inside t).mp hin
  simp only [takePop]
  split
  · exact hl.inside hi ⟨by simp [hpc], by simp, .inl rfl, fun _ hu => hu⟩ hin
      (by simp [hpc, Pc.credit]) rfl rfl
  · rename_i task rest hq
    have hb := hl.backed
    rw [owed_of_inside hheld, hpc, hq, List.length_cons] at hb
    have hattended : s.running = true →
        (∃ u, s.pc u = .runNotify) ∨ s.monitor.Attended .notEmpty s.threads :=
      fun hrun => hl.attended hrun (by simp [hq])
    split
    · apply hl.next (r := s.popFront t task rest) rfl rfl rfl (by simp) (.inl rfl)
      · rw [owed_goto_inside (s := s.popFront t task rest) hheld]
        exact hb
      · intro hrun _
        exact notify_goto (s := s.popFront t task rest) (hattended hrun) (by simp [popFront, hpc])
    · rename_i hzero
      apply hl.next (r := s.popFront t task rest) rfl rfl rfl (by simp) (.inl rfl)
      · intro _
        have hmax : (s.popFront t task rest).maxQueueSize = 0 := Nat.eq_zero_of_not_pos hzero
        omega
      · intro hrun _
        exact notify_goto (s := s.popFront t task rest) (hattended hrun) (by simp [popFront, hpc])

/-! ### Every step -/

theorem stopJoin_live (hi : Inv s) (hl : Live s) {rest : List τ} (hpc : s.pc t = .stopJoin rest)
    (h : s.stopJoin t rest = .ok s') : Live s' := by
  have hout : s.places t ≠ .inside := by simp [places, hpc, Pc.place]
  cases rest with
  | nil =>
    obtain rfl := Except.ok.inj h
    exact hl.goto hi ⟨by simp [hpc], by simp, .inl rfl, fun _ hu => hu⟩ hout
  | cons u rest =>
    simp only [stopJoin] at h
    rcases bind_eq_ok.mp h with ⟨_, _, h⟩
    obtain rfl := Except.ok.inj h
    have hgoto : Live (s.goto t (.stopJoining u rest)) :=
      hl.goto hi ⟨by simp [hpc], by simp, .inl rfl, fun _ hu => hu⟩ hout
    exact { hgoto with }

/-- Once `running_` is false there is nothing to attend to. -/
theorem stopRunning_live (hi : Inv s) (hl : Live s) (hpc : s.pc t = .stopRunning) :
    Live (({ s with running := false } : ThreadPool τ φ).goto t .stopNotify) := by
  have hin : s.places t = .inside := by simp [places, hpc, Pc.place]
  have hgoto : Live (s.goto t .stopNotify) :=
    hl.inside hi ⟨by simp [hpc], by simp, .inl rfl, fun _ hu => hu⟩ hin
      (by simp [hpc, Pc.credit]) rfl rfl
  exact { hgoto with
    attended := fun h => by cases h
    quit := fun _ _ => rfl }

/-- The pool's thread leaves its loop when `running_` is false. -/
theorem loopTest_live (hi : Inv s) (hl : Live s) (hpc : s.pc t = .loopTest) :
    Live (s.goto t (if s.running = true then .takeLock else .finished)) := by
  have hout : s.places t ≠ .inside := by simp [places, hpc, Pc.place]
  split
  · exact hl.goto hi ⟨by simp [hpc], by simp, .inl rfl, fun _ hu => hu⟩ hout
  · rename_i hrun
    have hrunning : s.running = false := Bool.eq_false_iff.mpr hrun
    have hgoto : Live (s.goto t .loopTest) :=
      hl.goto hi ⟨by simp [hpc], by simp, .inl rfl, fun _ hu => hu⟩ hout
    exact {
      backed := by
        have hb := hl.backed
        rw [← owed_goto_outside (p := .finished) hi hout] at hb
        exact hb
      attended := fun h => absurd h hrun
      quit := fun _ _ => hrunning
      some := hl.some
      outside := forall_goto (P := fun u q => q.inRun = true → u ∉ s.threads) hl.outside
        fun h => by cases h }

theorem advance_live (hi : Inv s) (hl : Live s) {woken : Option τ}
    (hen : s.canAdvance t woken (s.pc t)) (h : s.advance t woken (s.pc t) = .ok s') : Live s' := by
  cases hpc : s.pc t with
  | user =>
    rw [hpc] at hen
    exact hen.elim
  | finished =>
    rw [hpc] at hen
    exact hen.elim
  | runLock task =>
    rw [hpc] at hen h
    have hnot : t ∉ s.threads := hl.outside t (by simp [hpc, Pc.inRun])
    obtain rfl := Except.ok.inj h
    exact hl.lock ⟨by simp [hpc], by simp, .inr hnot, fun _ hu => hu⟩ hen
  | runTest task =>
    rw [hpc] at h
    exact runTest_live hi hl hpc h
  | runWait task =>
    rw [hpc] at hen h
    have hnot : t ∉ s.threads := hl.outside t (by simp [hpc, Pc.inRun])
    obtain rfl := Except.ok.inj h
    refine hl.move ⟨by simp [hpc], by simp, .inr hnot, fun _ hu => hu⟩ ?_
    rw [owed_goto_inside (s := s.withMonitor (s.monitor.relock .notFull t)) rfl]
    have hb := hl.backed
    rw [owed_of_free hen.1] at hb
    exact hb.relock hen.2
  | runPush task =>
    rw [hpc] at h
    exact runPush_live hi hl hpc h
  | runNotify =>
    rw [hpc] at hen h
    obtain rfl := Except.ok.inj h
    exact runNotify_live hi hl hpc hen
  | runUnlock =>
    rw [hpc] at h
    obtain rfl := Except.ok.inj h
    exact hl.inside hi ⟨by simp [hpc], by simp, .inl rfl, fun _ hu => hu⟩
      (by simp [places, hpc, Pc.place]) (by simp [hpc, Pc.credit]) rfl rfl
  | stopLock =>
    rw [hpc] at hen h
    obtain rfl := Except.ok.inj h
    exact hl.lock ⟨by simp [hpc], by simp, .inl rfl, fun _ hu => hu⟩ hen
  | stopRunning =>
    rw [hpc] at h
    obtain rfl := Except.ok.inj h
    exact stopRunning_live hi hl hpc
  | stopNotify =>
    rw [hpc] at h
    obtain rfl := Except.ok.inj h
    exact hl.inside hi ⟨by simp [hpc], by simp, .inl rfl, broadcast_subset⟩
      (by simp [places, hpc, Pc.place]) (by simp [hpc, Pc.credit])
      (broadcast_waiting_other (by decide)) (broadcast_woken_other (by decide))
  | stopUnlock =>
    rw [hpc] at h
    obtain rfl := Except.ok.inj h
    exact hl.inside hi ⟨by simp [hpc], by simp, .inl rfl, fun _ hu => hu⟩
      (by simp [places, hpc, Pc.place]) (by simp [hpc, Pc.credit]) rfl rfl
  | stopJoin rest =>
    rw [hpc] at h
    exact stopJoin_live hi hl hpc h
  | stopJoining u rest =>
    rw [hpc] at h
    obtain rfl := Except.ok.inj h
    exact hl.goto hi ⟨by simp [hpc], by simp, .inl rfl, fun _ hu => hu⟩
      (by simp [places, hpc, Pc.place])
  | loopTest =>
    rw [hpc] at h
    obtain rfl := Except.ok.inj h
    exact loopTest_live hi hl hpc
  | takeLock =>
    rw [hpc] at hen h
    obtain rfl := Except.ok.inj h
    exact hl.lock ⟨by simp [hpc], by simp, .inl rfl, fun _ hu => hu⟩ hen
  | takeTest =>
    rw [hpc] at h
    obtain rfl := Except.ok.inj h
    exact takeTest_live hi hl hpc
  | takeWait =>
    rw [hpc] at hen h
    obtain rfl := Except.ok.inj h
    refine hl.move ⟨by simp [hpc], by simp, .inl rfl, fun _ hu => hu⟩ ?_
    have hb := hl.backed
    rw [owed_of_free hen.1] at hb
    exact (hb.mono (Nat.le_add_right _ _)).of_eq rfl (relock_woken_other (by decide))
  | takePop =>
    rw [hpc] at h
    obtain rfl := Except.ok.inj h
    exact takePop_live hi hl hpc
  | takeNotify task =>
    rw [hpc] at hen h
    obtain rfl := Except.ok.inj h
    have hin : s.places t = .inside := by simp [places, hpc, Pc.place]
    refine hl.move ⟨by simp [hpc], by simp, .inl rfl, signal_subset woken⟩ ?_
    have hb := hl.backed
    rw [owed_of_inside ((hi.follows.inside t).mp hin), hpc] at hb
    exact (hb.signal hi.follows hen).mono (Nat.le_add_right _ _)
  | takeUnlock task =>
    rw [hpc] at h
    obtain rfl := Except.ok.inj h
    have hin : s.places t = .inside := by simp [places, hpc, Pc.place]
    have hcredit : (s.pc t).credit = 0 := by simp [hpc, Pc.credit]
    cases task with
    | none =>
      exact hl.inside hi ⟨by simp [hpc], by simp [callTask], .inl rfl, fun _ hu => hu⟩ hin hcredit
        rfl rfl
    | some task =>
      exact hl.inside hi ⟨by simp [hpc], by simp [callTask], .inl rfl, fun _ hu => hu⟩ hin hcredit
        rfl rfl

theorem wake_live (hi : Inv s) (hl : Live s) {c : Cond} (ht : t ∈ s.monitor.waiting c) :
    Live (s.withMonitor (s.monitor.wake c t)) where
  backed := by
    have hb : (s.monitor.wake c t).Backed .notFull (s.queue.length + s.owed) s.maxQueueSize := by
      cases c with
      | notFull => exact hl.backed.wake hi.follows ht
      | notEmpty =>
        exact hl.backed.of_eq (signal_waiting_other (some t) (by decide))
          (signal_woken_other (some t) (by decide))
    exact hb
  attended := fun hrun hq =>
    (hl.attended hrun hq).imp_right fun hatt => hatt.of_subset wake_subset
  quit := hl.quit
  some := hl.some
  outside := hl.outside

/-- **The step lemma.** -/
theorem Live.step {act : Action τ φ} (hi : Inv s) (hl : Live s)
    (hst : ((system τ φ).restrict runOutside).Step s act s') : Live s' := by
  have hen : s.enabled act := hst.1.1
  have heq : s.step act = .ok s' := hst.2
  cases act with
  | run t task =>
    have hnot : t ∉ s.threads := hst.condition
    have hpc : s.pc t = .user := hen
    obtain rfl := Except.ok.inj heq
    simp only [run]
    split
    · exact hl
    · exact hl.goto hi ⟨by simp [hpc], by simp, .inr hnot, fun _ hu => hu⟩
        (by simp [places, hpc, Pc.place])
  | stop t =>
    have hpc : s.pc t = .user := hen
    obtain rfl := Except.ok.inj heq
    exact hl.goto hi ⟨by simp [hpc], by simp, .inl rfl, fun _ hu => hu⟩
      (by simp [places, hpc, Pc.place])
  | taskReturns t =>
    have hpc : s.pc t = .user := hen.1
    obtain rfl := Except.ok.inj heq
    exact hl.goto hi ⟨by simp [hpc], by simp, .inl rfl, fun _ hu => hu⟩
      (by simp [places, hpc, Pc.place])
  | next t woken => exact advance_live hi hl hen heq
  | wake c t =>
    obtain rfl := Except.ok.inj heq
    exact wake_live hi hl hen

theorem reachable_live (h : ((system τ φ).restrict runOutside).Reachable s) : Inv s ∧ Live s := by
  apply h.invariant
  · rintro s₀ ⟨maxQueueSize, threads, hne, _, rfl⟩
    exact ⟨started_inv _ _, started_live _ hne⟩
  · rintro s act s' ⟨hi, hl⟩ hst
    exact ⟨hi.step hst.of_restrict, hl.step hi hst⟩

/-! ### The theorem -/

/-- In code of the user that is not a call of `run`. -/
def Pc.inTask : Pc τ φ → Bool
  | .user | .stopLock | .stopJoin _ | .stopJoining _ _ => true
  | _ => false

/-- A thread of the pool that is executing a task, about to call `takeTask`, or already
    woken. -/
def awake (s : ThreadPool τ φ) (w : τ) : Prop :=
  (s.pc w).inTask = true ∨ s.pc w = .loopTest ∨ s.pc w = .takeLock ∨
    (s.pc w = .takeWait ∧ w ∈ s.monitor.woken .notEmpty)

omit [DecidableEq τ] in
/-- While the mutex is free, what is not asleep is awake. -/
theorem awake_of_notMem (hi : Inv s) (hl : Live s) (hrun : s.running = true)
    (hfree : s.monitor.holder = none) (hmem : t ∈ s.threads)
    (hnot : t ∉ s.monitor.waiting .notEmpty) : s.awake t := by
  have hout : s.places t ≠ .inside := by
    rw [Ne, hi.follows.inside t, hfree]
    simp
  simp only [places] at hout
  cases hpc : s.pc t with
  | user => exact .inl (by simp [hpc, Pc.inTask])
  | stopLock => exact .inl (by simp [hpc, Pc.inTask])
  | stopJoin rest => exact .inl (by simp [hpc, Pc.inTask])
  | stopJoining u rest => exact .inl (by simp [hpc, Pc.inTask])
  | loopTest => exact .inr (.inl hpc)
  | takeLock => exact .inr (.inr (.inl hpc))
  | takeWait =>
    have hplace : s.places t = .waits .notEmpty := by simp [places, hpc, Pc.place]
    exact .inr (.inr (.inr ⟨hpc, ((hi.follows.waits t _).mp hplace).resolve_left hnot⟩))
  | finished =>
    have hstop := hl.quit t hpc
    rw [hrun] at hstop
    cases hstop
  | runLock task => exact absurd hmem (hl.outside t (by simp [hpc, Pc.inRun]))
  | runWait task => exact absurd hmem (hl.outside t (by simp [hpc, Pc.inRun]))
  | _ =>
    rw [hpc] at hout
    exact absurd rfl hout

/-- **A running pool cannot get stuck.**  Whenever the mutex is free: if there is a task,
    some thread of the pool is not blocked in `notEmpty_.wait()`; and if a producer is
    blocked un-woken in `notFull_.wait()`, the queue and the producers already woken make
    up for `maxQueueSize_`. -/
theorem never_stuck (h : ((system τ φ).restrict runOutside).Reachable s)
    (hrun : s.running = true) (hfree : s.monitor.holder = none) :
    (s.queue ≠ [] → ∃ w ∈ s.threads, s.awake w) ∧
    ∀ t task, s.pc t = .runWait task → t ∉ s.monitor.woken .notFull →
      s.maxQueueSize ≤ s.queue.length + (s.monitor.woken .notFull).card := by
  rcases reachable_live h with ⟨hi, hl⟩
  constructor
  · intro hq
    rcases hl.attended hrun hq with ⟨t, hpc⟩ | ⟨w, hw, hnot⟩
    · -- a thread about to notify is inside
      have hin : s.places t = .inside := by simp [places, hpc, Pc.place]
      cases hfree.symm.trans ((hi.follows.inside t).mp hin)
    · exact ⟨w, hw, awake_of_notMem hi hl hrun hfree hw hnot⟩
  · intro t task hpc hnot
    have hplace : s.places t = .waits .notFull := by simp [places, hpc, Pc.place]
    have hwaiting := ((hi.follows.waits t _).mp hplace).resolve_right hnot
    have hb := hl.backed ⟨t, hwaiting⟩
    rw [owed_of_free hfree, Nat.add_zero] at hb
    exact hb

/-- One worker and a queue of two; two producers find it full and sleep.  The worker takes a
    task and notifies the first of them, which makes up for the second. -/
theorem never_stuck_full :
    ∃ s : ThreadPool Nat Nat, ((system Nat Nat).restrict runOutside).exec (started 2 [1])
        [.run 0 (some 7), .next 0 none, .next 0 none, .next 0 none, .next 0 none, .next 0 none,
         .run 0 (some 8), .next 0 none, .next 0 none, .next 0 none, .next 0 none, .next 0 none,
         .run 2 (some 9), .next 2 none, .next 2 none, .run 3 (some 10), .next 3 none, .next 3 none,
         .taskReturns 1, .next 1 none, .next 1 none, .next 1 none, .next 1 none, .next 1 (some 2),
         .next 1 none] = some s ∧
      s.dequeued = [(1, some 7)] ∧ s.queue = [some 8] ∧ s.monitor.woken .notFull = {2} ∧
      s.pc 3 = .runWait (some 10) ∧ (∃ w ∈ s.threads, s.awake w) ∧
      s.maxQueueSize ≤ s.queue.length + (s.monitor.woken .notFull).card := by
  refine ⟨_, rfl, rfl, rfl, rfl, rfl, ?_⟩
  have h := never_stuck (reachable_of_exec (S := (system Nat Nat).restrict runOutside)
    [.run 0 (some 7), .next 0 none, .next 0 none, .next 0 none, .next 0 none, .next 0 none,
     .run 0 (some 8), .next 0 none, .next 0 none, .next 0 none, .next 0 none, .next 0 none,
     .run 2 (some 9), .next 2 none, .next 2 none, .run 3 (some 10), .next 3 none, .next 3 none,
     .taskReturns 1, .next 1 none, .next 1 none, .next 1 none, .next 1 none, .next 1 (some 2),
     .next 1 none]
    ⟨2, [1], List.cons_ne_nil _ _, List.nodup_singleton _, rfl⟩ rfl) rfl rfl
  exact ⟨h.1 (List.cons_ne_nil _ _), h.2 3 (some 10) rfl (by decide)⟩

end Kaycc.ThreadPool
