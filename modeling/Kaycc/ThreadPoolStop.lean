/-
  Kaycc/ThreadPoolStop.lean
  =========================
  **Stopping a thread pool, and the callers of `run` it leaves behind.**

  `stop` wakes those who wait in `notEmpty_.wait()` and nobody in `notFull_.wait()`,
  where a caller of `run` waits for room.  Such a caller depends on a thread of the
  pool that is in `takeTask` and has its notify still to come (`Pc.attends`).  Once
  `running_` is false no thread enters `takeTask` any more, so the last one to leave
  it must not leave a caller behind (`strandsNobody`).

  `Change` says once what a statement of any thread can do to the callers that are
  blocked, to the threads that attend to them and to the ones that are joined.
-/
import Kaycc.ThreadPoolTasks
import Mathlib.Data.Fintype.Basic

namespace Kaycc.ThreadPool

open Transition Transition.System Monitor

variable {τ φ : Type} [DecidableEq τ] {s s' : ThreadPool τ φ} {t u : τ} {p : Pc τ φ}
variable {woken : Option τ}

/-- In `takeTask`, with its notify still to come. -/
def Pc.attends : Pc τ φ → Bool
  | .takeLock | .takeTest | .takeWait | .takePop | .takeNotify _ => true
  | _ => false

/-- In `stop`, after `running_ = false`. -/
def Pc.inStop : Pc τ φ → Bool
  | .stopNotify | .stopUnlock | .stopJoin _ | .stopJoining _ _ => true
  | _ => false

/-- The thread it is joining. -/
def Pc.joining : Pc τ φ → Option τ
  | .stopJoining u _ => some u
  | _ => none

omit [DecidableEq τ] in
theorem callTask_attends (task : TaskFunc φ) :
    (callTask task : Pc τ φ).attends = false := by
  cases task with
  | none => rfl
  | some task => rfl

omit [DecidableEq τ] in
theorem callTask_inStop (task : TaskFunc φ) :
    (callTask task : Pc τ φ).inStop = false := by
  cases task with
  | none => rfl
  | some task => rfl

/-- Every thread of the pool has been joined. -/
def stopReturned (s : ThreadPool τ φ) : Prop :=
  ∀ u ∈ s.threads, u ∈ s.joined ∧ ∀ t, (s.pc t).joining ≠ some u

/-- Blocked un-woken in `notFull_.wait()`, and no step but a spurious wakeup changes it. -/
def stranded (s : ThreadPool τ φ) (t : τ) : Prop :=
  ∀ acts s', (system τ φ).Run s acts s' → .wake .notFull t ∉ acts →
    (∃ task, s'.pc t = .runWait task) ∧ t ∉ s'.monitor.woken .notFull

/-- What the next statement of a thread must not do while `running_` is false: be the last
    to leave `takeTask` with somebody still blocked, or block with nobody there. -/
def leavesNobody (s : ThreadPool τ φ) (t : τ) (woken : Option τ) : Pc τ φ → Prop
  | .stopRunning => s.monitor.waiting .notFull = ∅ ∨ ∃ w ∈ s.threads, (s.pc w).attends = true
  | .takePop => s.running = false → s.queue = [] ∨ s.maxQueueSize = 0 →
      s.monitor.waiting .notFull = ∅ ∨ ∃ w ∈ s.threads, w ≠ t ∧ (s.pc w).attends = true
  | .takeNotify _ => s.running = false →
      (∀ u ∈ s.monitor.waiting .notFull, woken = some u) ∨
        ∃ w ∈ s.threads, w ≠ t ∧ (s.pc w).attends = true
  | .runTest _ => s.running = false → s.full → ∃ w ∈ s.threads, (s.pc w).attends = true
  | _ => True

/-- **The condition.**  With `running_` false, whoever is blocked waiting for room has a
    thread in `takeTask` to hope for. -/
def strandsNobody (s : ThreadPool τ φ) : Action τ φ → Prop
  | .next t woken => s.leavesNobody t woken (s.pc t)
  | _ => True

/-! ### What a step changes -/

/-- What the step of the thread `t` that goes on to `p` does to the callers that are
    blocked, to the threads in `takeTask` and to those that are joined. -/
inductive Change (s : ThreadPool τ φ) (act : Action τ φ) (t : τ) (p : Pc τ φ)
    (s' : ThreadPool τ φ) : Prop where
  | quiet (hrunning : s'.running = s.running) (hjoined : s'.joined = s.joined)
      (hwaiting : s'.monitor.waiting .notFull = s.monitor.waiting .notFull)
      (hattends : p.attends = (s.pc t).attends)
      (hstop : p.inStop = true → (s.pc t).inStop = true)
      (hjoining : ∀ u, (s.pc t).joining = some u → (s.pc u).attends = false)
  | enters (hpc : s.pc t = .loopTest) (hrun : s.running = true) (hp : p = .takeLock)
      (hs' : s' = s.goto t p)
  | leaves (woken : Option τ) (hact : act = .next t woken) (hpc : s.pc t = .takePop)
      (hnone : s.queue = [] ∨ s.maxQueueSize = 0) (hp : ∃ task, p = .takeUnlock task)
      (hrunning : s'.running = s.running) (hjoined : s'.joined = s.joined)
      (hwaiting : s'.monitor.waiting .notFull = s.monitor.waiting .notFull)
  | notifies (woken : Option τ) (task : TaskFunc φ) (hact : act = .next t woken)
      (hpc : s.pc t = .takeNotify task) (hp : p = .takeUnlock task)
      (hs' : s' = (s.withMonitor (s.monitor.signal .notFull woken)).goto t p)
  | blocks (woken : Option τ) (task : TaskFunc φ) (hact : act = .next t woken)
      (hpc : s.pc t = .runTest task) (hfull : s.full) (hp : p = .runWait task)
      (hs' : s' = (s.withMonitor (s.monitor.wait .notFull t)).goto t p)
  | stops (woken : Option τ) (hact : act = .next t woken) (hpc : s.pc t = .stopRunning)
      (hp : p = .stopNotify) (hs' : s' = ({ s with running := false } : ThreadPool τ φ).goto t p)
  | joins (u : τ) (rest : List τ) (hpc : s.pc t = .stopJoin (u :: rest))
      (hp : p = .stopJoining u rest)
      (hs' : s' = ({ s with joined := u :: s.joined } : ThreadPool τ φ).goto t p)

/-- A change, and that nothing else about the threads is changed. -/
def Changed (s : ThreadPool τ φ) (act : Action τ φ) (s' : ThreadPool τ φ) : Prop :=
  ∃ t p, s'.pc = (s.goto t p).pc ∧ s'.threads = s.threads ∧ Change s act t p s'

/-- A statement that only moves its thread, or also works on the monitor. -/
theorem changed_move {act : Action τ φ} {m : Monitor τ Cond}
    (hwaiting : m.waiting .notFull = s.monitor.waiting .notFull)
    (hattends : p.attends = (s.pc t).attends)
    (hstop : p.inStop = true → (s.pc t).inStop = true)
    (hjoining : (s.pc t).joining = none) :
    Changed s act ((s.withMonitor m).goto t p) := by
  refine ⟨t, p, rfl, rfl, .quiet rfl rfl hwaiting hattends hstop ?_⟩
  intro u hu
  rw [hjoining] at hu
  cases hu

theorem runTest_changed (hi : Inv s) {task : TaskFunc φ} (hpc : s.pc t = .runTest task)
    (h : s.runTest t task = .ok s') : Changed s (.next t woken) s' := by
  have hin : s.places t = .inside := by simp [places, hpc, Pc.place]
  simp only [runTest, isFull_eq hi hin, ok_bind, decide_eq_true_eq, pure_eq_ok] at h
  split at h
  · rename_i hfull
    obtain rfl := Except.ok.inj h
    exact ⟨t, _, rfl, rfl, .blocks woken task rfl hpc hfull rfl rfl⟩
  · obtain rfl := Except.ok.inj h
    exact changed_move (m := s.monitor) rfl (by simp [hpc, Pc.attends]) (by simp [Pc.inStop])
      (by simp [hpc, Pc.joining])

theorem runPush_changed {task : TaskFunc φ} (hpc : s.pc t = .runPush task)
    (h : s.runPush t task = .ok s') : Changed s (.next t woken) s' := by
  simp only [runPush] at h
  rcases bind_eq_ok.mp h with ⟨full, _, h⟩
  rcases bind_eq_ok.mp h with ⟨_, _, h⟩
  obtain rfl := Except.ok.inj h
  exact ⟨t, _, rfl, rfl, .quiet rfl rfl rfl (by simp [hpc, Pc.attends]) (by simp [Pc.inStop])
    (by simp [hpc, Pc.joining])⟩

theorem takeTest_changed (hpc : s.pc t = .takeTest) :
    Changed s (.next t woken) (s.takeTest t) := by
  simp only [takeTest]
  split
  · exact changed_move (wait_waiting_other (by decide)) (by simp [hpc, Pc.attends])
      (by simp [Pc.inStop]) (by simp [hpc, Pc.joining])
  · exact changed_move (m := s.monitor) rfl (by simp [hpc, Pc.attends]) (by simp [Pc.inStop])
      (by simp [hpc, Pc.joining])

theorem takePop_changed (hpc : s.pc t = .takePop) : Changed s (.next t woken) (s.takePop t) := by
  simp only [takePop]
  split
  · rename_i hq
    exact ⟨t, _, rfl, rfl, .leaves woken rfl hpc (.inl hq) ⟨_, rfl⟩ rfl rfl rfl⟩
  · split
    · exact ⟨t, _, rfl, rfl, .quiet rfl rfl rfl (by simp [hpc, Pc.attends]) (by simp [Pc.inStop])
        (by simp [hpc, Pc.joining])⟩
    · rename_i hpos
      exact ⟨t, _, rfl, rfl, .leaves woken rfl hpc (.inr (Nat.eq_zero_of_not_pos hpos)) ⟨_, rfl⟩
        rfl rfl rfl⟩

theorem stopJoin_changed {rest : List τ} (hpc : s.pc t = .stopJoin rest)
    (h : s.stopJoin t rest = .ok s') : Changed s (.next t woken) s' := by
  cases rest with
  | nil =>
    obtain rfl := Except.ok.inj h
    exact changed_move (m := s.monitor) rfl (by simp [hpc, Pc.attends]) (by simp [Pc.inStop])
      (by simp [hpc, Pc.joining])
  | cons u rest =>
    simp only [stopJoin] at h
    rcases bind_eq_ok.mp h with ⟨_, _, h⟩
    obtain rfl := Except.ok.inj h
    exact ⟨t, _, rfl, rfl, .joins u rest hpc rfl rfl⟩

/-- The thread that was joined has finished, or is the one that joins. -/
theorem stopJoining_changed {rest : List τ} (hpc : s.pc t = .stopJoining u rest)
    (hen : u = t ∨ s.pc u = .finished) :
    Changed s (.next t woken) (s.goto t (.stopJoin rest)) := by
  refine ⟨t, _, rfl, rfl, .quiet rfl rfl rfl (by simp [hpc, Pc.attends])
    (by simp [hpc, Pc.inStop]) ?_⟩
  intro v hv
  have huv : u = v := by simpa [hpc, Pc.joining] using hv
  subst huv
  rcases hen with rfl | hfin
  · simp [hpc, Pc.attends]
  · simp [hfin, Pc.attends]

theorem advance_changed (hi : Inv s) (hen : s.canAdvance t woken (s.pc t))
    (h : s.advance t woken (s.pc t) = .ok s') : Changed s (.next t woken) s' := by
  cases hpc : s.pc t with
  | user =>
    rw [hpc] at hen
    exact hen.elim
  | finished =>
    rw [hpc] at hen
    exact hen.elim
  | runTest task =>
    rw [hpc] at h
    exact runTest_changed hi hpc h
  | runPush task =>
    rw [hpc] at h
    exact runPush_changed hpc h
  | takeTest =>
    rw [hpc] at h
    obtain rfl := Except.ok.inj h
    exact takeTest_changed hpc
  | takePop =>
    rw [hpc] at h
    obtain rfl := Except.ok.inj h
    exact takePop_changed hpc
  | stopJoin rest =>
    rw [hpc] at h
    exact stopJoin_changed hpc h
  | stopJoining u rest =>
    rw [hpc] at h hen
    obtain rfl := Except.ok.inj h
    exact stopJoining_changed hpc hen
  | stopRunning =>
    rw [hpc] at h
    obtain rfl := Except.ok.inj h
    exact ⟨t, _, rfl, rfl, .stops woken rfl hpc rfl rfl⟩
  | takeNotify task =>
    rw [hpc] at h
    obtain rfl := Except.ok.inj h
    exact ⟨t, _, rfl, rfl, .notifies woken task rfl hpc rfl rfl⟩
  | loopTest =>
    rw [hpc] at h
    obtain rfl := Except.ok.inj h
    split
    · rename_i hrun
      exact ⟨t, _, rfl, rfl, .enters hpc hrun rfl rfl⟩
    · exact changed_move (m := s.monitor) rfl (by simp [hpc, Pc.attends]) (by simp [Pc.inStop])
        (by simp [hpc, Pc.joining])
  | runNotify =>
    rw [hpc] at h
    obtain rfl := Except.ok.inj h
    exact changed_move (signal_waiting_other woken (by decide)) (by simp [hpc, Pc.attends])
      (by simp [Pc.inStop]) (by simp [hpc, Pc.joining])
  | stopNotify =>
    rw [hpc] at h
    obtain rfl := Except.ok.inj h
    exact changed_move (broadcast_waiting_other (by decide)) (by simp [hpc, Pc.attends])
      (by simp [hpc, Pc.inStop]) (by simp [hpc, Pc.joining])
  | takeUnlock task =>
    rw [hpc] at h
    obtain rfl := Except.ok.inj h
    have hattends : (callTask task : Pc τ φ).attends = (s.pc t).attends := by
      rw [callTask_attends, hpc]
      rfl
    exact changed_move rfl hattends (by simp [callTask_inStop]) (by simp [hpc, Pc.joining])
  | _ =>
    -- the mutex is taken or released, or the thread is woken
    rw [hpc] at h
    obtain rfl := Except.ok.inj h
    exact changed_move rfl (by simp [hpc, Pc.attends]) (by simp [hpc, Pc.inStop])
      (by simp [hpc, Pc.joining])

/-- **Every step** is a change, or a spurious wakeup. -/
theorem step_changed {act : Action τ φ} (hi : Inv s) (hst : (system τ φ).Step s act s') :
    Changed s act s' ∨
      ∃ c t, act = .wake c t ∧ s' = s.withMonitor (s.monitor.wake c t) := by
  obtain ⟨hen, heq⟩ := hst
  cases act with
  | run t task =>
    have hpc : s.pc t = .user := hen
    obtain rfl := Except.ok.inj heq
    left
    simp only [run]
    split
    · exact ⟨t, s.pc t, by simp [goto], rfl, .quiet rfl rfl rfl rfl (fun h => h)
        (by simp [hpc, Pc.joining])⟩
    · exact changed_move (m := s.monitor) rfl (by simp [hpc, Pc.attends]) (by simp [Pc.inStop])
        (by simp [hpc, Pc.joining])
  | stop t =>
    have hpc : s.pc t = .user := hen
    obtain rfl := Except.ok.inj heq
    exact .inl (changed_move (m := s.monitor) rfl (by simp [hpc, Pc.attends])
      (by simp [Pc.inStop]) (by simp [hpc, Pc.joining]))
  | taskReturns t =>
    have hpc : s.pc t = .user := hen.1
    obtain rfl := Except.ok.inj heq
    exact .inl (changed_move (m := s.monitor) rfl (by simp [hpc, Pc.attends])
      (by simp [Pc.inStop]) (by simp [hpc, Pc.joining]))
  | next t woken => exact .inl (advance_changed hi hen heq)
  | wake c t =>
    obtain rfl := Except.ok.inj heq
    exact .inr ⟨c, t, rfl, rfl⟩

/-! ### The threads that are joined -/

structure Stopping (s : ThreadPool τ φ) : Prop where
  nonempty : s.threads ≠ []
  stopped : ∀ t, (s.pc t).inStop = true → s.running = false
  once : ∀ u ∈ s.joined, s.running = false
  joined : ∀ u ∈ s.joined, (s.pc u).attends = false ∨ ∃ t, (s.pc t).joining = some u

omit [DecidableEq τ] in
theorem started_stopping (maxQueueSize : Nat) {threads : List τ} (hne : threads ≠ []) :
    Stopping (started maxQueueSize threads : ThreadPool τ φ) where
  nonempty := hne
  stopped := fun t h => by cases h
  once := fun u h => absurd h List.not_mem_nil
  joined := fun u h => absurd h List.not_mem_nil

/-- The thread does not enter `takeTask`, and whom it was joining is not in there. -/
theorem joined_goto (hp : p.attends = true → (s.pc t).attends = true)
    (hjoining : ∀ u, (s.pc t).joining = some u → (s.pc u).attends = false)
    (h : (s.pc u).attends = false ∨ ∃ v, (s.pc v).joining = some u) :
    ((s.goto t p).pc u).attends = false ∨ ∃ v, ((s.goto t p).pc v).joining = some u := by
  have hstays : (s.pc u).attends = false → ((s.goto t p).pc u).attends = false := by
    intro hu
    by_cases hut : u = t
    · subst hut
      rw [goto_pc_self, Bool.eq_false_iff]
      intro hatt
      rw [hp hatt] at hu
      cases hu
    · rw [goto_pc_of_ne hut]
      exact hu
  rcases h with hu | ⟨v, hv⟩
  · exact .inl (hstays hu)
  · by_cases hvt : v = t
    · subst hvt
      exact .inl (hstays (hjoining u hv))
    · right
      refine ⟨v, ?_⟩
      rw [goto_pc_of_ne hvt]
      exact hv

/-- The fields of a step that joins no further thread. -/
theorem Stopping.goto (hs : Stopping s) (hpc : s'.pc = (s.goto t p).pc)
    (hthreads : s'.threads = s.threads) (hrunning : s'.running = s.running ∨ s'.running = false)
    (hjoined : s'.joined = s.joined) (hstop : p.inStop = true → s'.running = false)
    (hattends : p.attends = true → (s.pc t).attends = true)
    (hjoining : ∀ u, (s.pc t).joining = some u → (s.pc u).attends = false) : Stopping s' where
  nonempty := hthreads ▸ hs.nonempty
  stopped := by
    have hkept : s.running = false → s'.running = false := fun h => by
      rcases hrunning with hr | hr
      · rw [hr, h]
      · exact hr
    rw [hpc]
    exact forall_goto (P := fun _ q => q.inStop = true → s'.running = false)
      (fun u hu => hkept (hs.stopped u hu)) hstop
  once := by
    intro u hu
    rw [hjoined] at hu
    rcases hrunning with hr | hr
    · rw [hr]
      exact hs.once u hu
    · exact hr
  joined := by
    intro u hu
    rw [hjoined] at hu
    rw [hpc]
    exact joined_goto hattends hjoining (hs.joined u hu)

theorem Stopping.change {act : Action τ φ} (hs : Stopping s) (hpc : s'.pc = (s.goto t p).pc)
    (hthreads : s'.threads = s.threads) (hc : Change s act t p s') : Stopping s' := by
  cases hc with
  | quiet hrunning hjoined _ hattends hstop hjoining =>
    refine hs.goto hpc hthreads (.inl hrunning) hjoined ?_ (fun h => hattends ▸ h) hjoining
    intro h
    rw [hrunning]
    exact hs.stopped t (hstop h)
  | enters ht hrun hp hs' =>
    subst hp hs'
    exact {
      nonempty := hs.nonempty
      stopped := forall_goto (P := fun _ q => q.inStop = true → s.running = false) hs.stopped
        fun h => by cases h
      once := hs.once
      joined := by
        intro u hu
        have hfalse := hs.once u hu
        rw [hrun] at hfalse
        cases hfalse }
  | leaves _ _ ht _ hp hrunning hjoined _ =>
    obtain ⟨task, rfl⟩ := hp
    exact hs.goto hpc hthreads (.inl hrunning) hjoined (fun h => by cases h) (fun h => by cases h)
      (by simp [ht, Pc.joining])
  | notifies _ task _ ht hp hs' =>
    subst hp hs'
    exact hs.goto hpc hthreads (.inl rfl) rfl (fun h => by cases h) (fun h => by cases h)
      (by simp [ht, Pc.joining])
  | blocks _ task _ ht _ hp hs' =>
    subst hp hs'
    exact hs.goto hpc hthreads (.inl rfl) rfl (fun h => by cases h) (fun h => by cases h)
      (by simp [ht, Pc.joining])
  | stops _ _ ht hp hs' =>
    subst hp hs'
    exact hs.goto hpc hthreads (.inr rfl) rfl (fun _ => rfl) (fun h => by cases h)
      (by simp [ht, Pc.joining])
  | joins u rest ht hp hs' =>
    subst hp hs'
    have hrun : s.running = false := hs.stopped t (by simp [ht, Pc.inStop])
    exact {
      nonempty := hs.nonempty
      stopped := fun _ _ => hrun
      once := fun _ _ => hrun
      joined := by
        intro v hv
        rw [hpc]
        rcases List.mem_cons.mp hv with rfl | hv
        · exact .inr ⟨t, by simp [Pc.joining]⟩
        · exact joined_goto (s := s) (fun h => by cases h) (by simp [ht, Pc.joining])
            (hs.joined v hv) }

omit [DecidableEq τ] in
theorem Stopping.withMonitor (hs : Stopping s) (m : Monitor τ Cond) :
    Stopping ({ s with monitor := m } : ThreadPool τ φ) :=
  ⟨hs.nonempty, hs.stopped, hs.once, hs.joined⟩

theorem Stopping.step {act : Action τ φ} (hi : Inv s) (hs : Stopping s)
    (hst : (system τ φ).Step s act s') : Stopping s' := by
  rcases step_changed hi hst with ⟨t, p, hpc, hthreads, hc⟩ | ⟨c, t, _, rfl⟩
  · exact hs.change hpc hthreads hc
  · exact hs.withMonitor _

theorem reachable_stopping (h : (system τ φ).Reachable s) : Inv s ∧ Stopping s := by
  apply h.invariant
  · rintro s₀ ⟨maxQueueSize, threads, hne, _, rfl⟩
    exact ⟨started_inv _ _, started_stopping _ hne⟩
  · rintro s act s' ⟨hi, hs⟩ hst
    exact ⟨hi.step hst, hs.step hi hst⟩

/-! ### The theorem -/

omit [DecidableEq τ] in
theorem mem_of_attends (hi : Inv s) (h : (s.pc t).attends = true) : t ∈ s.threads := by
  apply hi.pool
  cases hpc : s.pc t with
  | takeLock | takeTest | takeWait | takePop | takeNotify => rfl
  | _ =>
    rw [hpc] at h
    cases h

/-- With `running_` false, whoever waits for room has a thread in `takeTask` to hope for. -/
def served (s : ThreadPool τ φ) : Prop :=
  s.running = false →
    s.monitor.waiting .notFull = ∅ ∨ ∃ w ∈ s.threads, (s.pc w).attends = true

omit [DecidableEq τ] in
theorem ne_of_attends {w : τ} (hw : (s.pc w).attends = true) (ht : (s.pc t).attends = false) :
    w ≠ t := by
  rintro rfl
  cases hw.symm.trans ht

/-- Another thread is still in `takeTask` after the step. -/
theorem attends_goto {w : τ} (hw : w ≠ t) (h : (s.pc w).attends = true) :
    ((s.goto t p).pc w).attends = true := by
  rw [goto_pc_of_ne hw]
  exact h

theorem served_change {act : Action τ φ} (hs : s.served) (hcond : s.strandsNobody act)
    (hpc : s'.pc = (s.goto t p).pc) (hthreads : s'.threads = s.threads)
    (hc : Change s act t p s') : s'.served := by
  intro hrun
  rw [hpc, hthreads]
  cases hc with
  | quiet hrunning _ hwaiting hattends =>
    rw [hwaiting]
    apply (hs (hrunning.symm.trans hrun)).imp_right
    rintro ⟨w, hmem, hw⟩
    refine ⟨w, hmem, ?_⟩
    by_cases hwt : w = t
    · subst hwt
      rw [goto_pc_self, hattends]
      exact hw
    · exact attends_goto hwt hw
  | enters _ hrunning _ hs' =>
    subst hs'
    cases hrunning.symm.trans hrun
  | leaves woken hact ht hnone _ hrunning _ hwaiting =>
    subst hact
    simp only [strandsNobody, ht, leavesNobody] at hcond
    rw [hwaiting]
    apply (hcond (hrunning.symm.trans hrun) hnone).imp_right
    rintro ⟨w, hmem, hwt, hw⟩
    exact ⟨w, hmem, attends_goto hwt hw⟩
  | notifies woken task hact ht _ hs' =>
    subst hact hs'
    simp only [strandsNobody, ht, leavesNobody] at hcond
    rcases hcond hrun with hall | ⟨w, hmem, hwt, hw⟩
    · left
      rw [Finset.eq_empty_iff_forall_notMem]
      intro u hu
      have hwoken := hall u (signal_subset woken hu)
      subst hwoken
      exact (mem_wake_waiting.mp hu).2 ⟨rfl, rfl⟩
    · exact .inr ⟨w, hmem, attends_goto hwt hw⟩
  | blocks woken task hact ht hfull _ hs' =>
    subst hact hs'
    simp only [strandsNobody, ht, leavesNobody] at hcond
    obtain ⟨w, hmem, hw⟩ := hcond hrun hfull
    have hwt : w ≠ t := ne_of_attends hw (by simp [ht, Pc.attends])
    exact .inr ⟨w, hmem, attends_goto hwt hw⟩
  | stops woken hact ht _ hs' =>
    subst hact hs'
    simp only [strandsNobody, ht, leavesNobody] at hcond
    apply hcond.imp_right
    rintro ⟨w, hmem, hw⟩
    have hwt : w ≠ t := ne_of_attends hw (by simp [ht, Pc.attends])
    exact ⟨w, hmem, attends_goto hwt hw⟩
  | joins u rest ht _ hs' =>
    subst hs'
    apply (hs hrun).imp_right
    rintro ⟨w, hmem, hw⟩
    have hwt : w ≠ t := ne_of_attends hw (by simp [ht, Pc.attends])
    exact ⟨w, hmem, attends_goto hwt hw⟩

theorem served_step {act : Action τ φ} (hi : Inv s) (hs : s.served)
    (hst : ((system τ φ).restrict strandsNobody).Step s act s') : s'.served := by
  rcases step_changed hi hst.of_restrict with ⟨t, p, hpc, hthreads, hc⟩ | ⟨c, t, _, rfl⟩
  · exact served_change hs hst.condition hpc hthreads hc
  · intro hrun
    rcases hs hrun with hempty | hatt
    · exact .inl (Finset.subset_empty.mp (hempty ▸ wake_subset))
    · exact .inr hatt

theorem reachable_served (h : ((system τ φ).restrict strandsNobody).Reachable s) :
    Inv s ∧ s.served := by
  apply h.invariant
  · rintro s₀ ⟨maxQueueSize, threads, _, _, rfl⟩
    exact ⟨started_inv _ _, fun hrun => by cases hrun⟩
  · rintro s act s' ⟨hi, hs⟩ hst
    exact ⟨hi.step hst.of_restrict, served_step hi hs hst⟩

omit [DecidableEq τ] in
/-- When `stop` has returned, `running_` is false and nobody is in `takeTask`. -/
theorem stopReturned_idle (hi : Inv s) (hs : Stopping s) (hstop : s.stopReturned) :
    s.running = false ∧ ∀ w, (s.pc w).attends = false := by
  obtain ⟨u, hu⟩ := List.exists_mem_of_ne_nil s.threads hs.nonempty
  refine ⟨hs.once u (hstop u hu).1, ?_⟩
  intro w
  by_contra hw
  rw [Bool.not_eq_false] at hw
  obtain ⟨hjoined, hnot⟩ := hstop w (mem_of_attends hi hw)
  rcases hs.joined w hjoined with hfalse | ⟨t, ht⟩
  · cases hw.symm.trans hfalse
  · exact hnot t ht

/-- **Stopping a pool strands no caller.**  In a run in which no step leaves a caller of
    `run` without a thread in `takeTask`, once `stop` has returned nobody is blocked
    un-woken in `notFull_.wait()`. -/
theorem stop_strands_nobody (h : ((system τ φ).restrict strandsNobody).Reachable s)
    (hstop : s.stopReturned) :
    ∀ t task, s.pc t = .runWait task → t ∈ s.monitor.woken .notFull := by
  obtain ⟨hi, hserved⟩ := reachable_served h
  obtain ⟨hrun, hidle⟩ := stopReturned_idle hi (reachable_stopping h.of_restrict).2 hstop
  intro t task hpc
  have hplace : s.places t = .waits .notFull := by simp [places, hpc, Pc.place]
  rcases (hi.follows.waits t .notFull).mp hplace with hwaiting | hwoken
  · rcases hserved hrun with hempty | ⟨w, _, hw⟩
    · rw [hempty] at hwaiting
      exact absurd hwaiting (Finset.notMem_empty t)
    · cases hw.symm.trans (hidle w)
  · exact hwoken

instance [DecidableEq φ] (s : ThreadPool τ φ) (t : τ) (woken : Option τ) :
    (p : Pc τ φ) → Decidable (s.leavesNobody t woken p)
  | .stopRunning => inferInstanceAs (Decidable (_ ∨ _))
  | .takePop => inferInstanceAs (Decidable (_ → _ → _))
  | .takeNotify _ => inferInstanceAs (Decidable (_ → _))
  | .runTest _ => inferInstanceAs (Decidable (_ → _ → _))
  | .user | .runLock _ | .runWait _ | .runPush _ | .runNotify | .runUnlock | .stopLock
  | .stopNotify | .stopUnlock | .stopJoin _ | .stopJoining _ _ | .loopTest | .takeLock
  | .takeTest | .takeWait | .takeUnlock _ | .finished => inferInstanceAs (Decidable True)

instance [DecidableEq φ] (s : ThreadPool τ φ) :
    (act : Action τ φ) → Decidable (s.strandsNobody act)
  | .next t woken => inferInstanceAs (Decidable (s.leavesNobody t woken (s.pc t)))
  | .run _ _ | .stop _ | .taskReturns _ | .wake _ _ => inferInstanceAs (Decidable True)

instance [Fintype τ] (s : ThreadPool τ φ) : Decidable s.stopReturned :=
  inferInstanceAs (Decidable (∀ u ∈ s.threads, u ∈ s.joined ∧ ∀ t, (s.pc t).joining ≠ some u))

/-- One worker and a queue of one, full: it is in `takeTask` when the pool is stopped, and
    lets the second caller in. -/
theorem stop_strands_nobody_two :
    ∃ s : ThreadPool (Fin 4) Nat, ((system (Fin 4) Nat).restrict strandsNobody).Reachable s ∧
      s.stopReturned ∧ s.pc 2 = .runWait (some 8) ∧ 2 ∈ s.monitor.woken .notFull := by
  let acts : List (Action (Fin 4) Nat) :=
    [.run 0 (some 7), .next 0 none, .next 0 none, .next 0 none, .next 0 none, .next 0 none,
     .run 2 (some 8), .next 2 none, .next 2 none,
     .taskReturns 1, .next 1 none,
     .stop 3, .next 3 none, .next 3 none, .next 3 none, .next 3 none, .next 3 none,
     .next 1 none, .next 1 none, .next 1 none, .next 1 (some 2), .next 1 none,
     .taskReturns 1, .next 1 none, .next 3 none, .next 3 none]
  obtain ⟨s, hexec, hstop, hpc⟩ : ∃ s : ThreadPool (Fin 4) Nat,
      ((system (Fin 4) Nat).restrict strandsNobody).exec (started 1 [1]) acts = some s ∧
        s.stopReturned ∧ s.pc 2 = .runWait (some 8) := ⟨_, rfl, by decide, rfl⟩
  have hreach : ((system (Fin 4) Nat).restrict strandsNobody).Reachable s :=
    reachable_of_exec acts ⟨1, [1], List.cons_ne_nil _ _, List.nodup_singleton _, rfl⟩ hexec
  exact ⟨s, hreach, hstop, hpc, stop_strands_nobody hreach hstop 2 (some 8) hpc⟩

/-! ### The callers that are stranded -/

/-- The caller is blocked, and no thread is left that would notify it. -/
structure Deserted (s : ThreadPool τ φ) (t : τ) : Prop where
  stopped : s.running = false
  blocked : t ∈ s.monitor.waiting .notFull
  idle : ∀ w, (s.pc w).attends = false

theorem Deserted.change {act : Action τ φ} (hd : Deserted s u)
    (hpc : s'.pc = (s.goto t p).pc) (hc : Change s act t p s') : Deserted s' u := by
  have hidle : p.attends = false → ∀ w, (s'.pc w).attends = false := by
    rw [hpc]
    exact forall_goto (P := fun _ q => q.attends = false) hd.idle
  have hno : (s.pc t).attends ≠ true := by simp [hd.idle t]
  cases hc with
  | quiet hrunning _ hwaiting hattends =>
    exact ⟨hrunning.trans hd.stopped, hwaiting ▸ hd.blocked, hidle (hattends.trans (hd.idle t))⟩
  | enters _ hrun => cases hrun.symm.trans hd.stopped
  | leaves _ _ ht => exact absurd (by simp [ht, Pc.attends]) hno
  | notifies _ _ _ ht => exact absurd (by simp [ht, Pc.attends]) hno
  | blocks _ _ _ _ _ hp hs' =>
    subst hp hs'
    exact ⟨hd.stopped, mem_wait_waiting.mpr (.inr hd.blocked), hidle rfl⟩
  | stops _ _ _ hp hs' =>
    subst hp hs'
    exact ⟨rfl, hd.blocked, hidle rfl⟩
  | joins _ _ _ hp hs' =>
    subst hp hs'
    exact ⟨hd.stopped, hd.blocked, hidle rfl⟩

theorem Deserted.step {act : Action τ φ} (hi : Inv s) (hd : Deserted s u)
    (hst : (system τ φ).Step s act s') (hnot : act ≠ .wake .notFull u) : Deserted s' u := by
  rcases step_changed hi hst with ⟨t, p, hpc, _, hc⟩ | ⟨c, t, rfl, rfl⟩
  · exact hd.change hpc hc
  · refine ⟨hd.stopped, mem_wake_waiting.mpr ⟨hd.blocked, ?_⟩, hd.idle⟩
    rintro ⟨rfl, rfl⟩
    exact hnot rfl

theorem Deserted.run {acts : List (Action τ φ)} (h : (system τ φ).Run s acts s') (hi : Inv s)
    (hd : Deserted s u) (hnot : .wake .notFull u ∉ acts) : Inv s' ∧ Deserted s' u := by
  induction h with
  | nil => exact ⟨hi, hd⟩
  | snoc _ hst ih =>
    rw [List.mem_append, not_or, List.mem_singleton] at hnot
    obtain ⟨hi', hd'⟩ := ih hnot.1
    exact ⟨hi'.step hst, hd'.step hi' hst (Ne.symm hnot.2)⟩

theorem Deserted.stranded (hi : Inv s) (hd : Deserted s u) : s.stranded u := by
  intro acts s' hrun hnot
  obtain ⟨hi', hd'⟩ := Deserted.run hrun hi hd hnot
  refine ⟨?_, hi'.follows.apart u _ hd'.blocked⟩
  have hplace : s'.places u = .waits .notFull := hi'.follows.waiting hd'.blocked
  simp only [places] at hplace
  cases hpc : s'.pc u with
  | runWait task => exact ⟨task, rfl⟩
  | _ =>
    rw [hpc] at hplace
    cases hplace

/-- After the step of the last thread in `takeTask` nobody is there. -/
theorem idle_goto (hi : Inv s) (hp : p.attends = false)
    (h : ∀ w ∈ s.threads, w ≠ t → (s.pc w).attends ≠ true) (w : τ) :
    ((s.goto t p).pc w).attends = false := by
  by_cases hwt : w = t
  · subst hwt
    rw [goto_pc_self]
    exact hp
  · rw [goto_pc_of_ne hwt, Bool.eq_false_iff]
    exact fun hw => h w (mem_of_attends hi hw) hwt hw

theorem stopRunning_deserts (hi : Inv s) (hpc : s.pc t = .stopRunning)
    (hnot : ¬ s.strandsNobody (.next t woken)) :
    ∃ u, Deserted (({ s with running := false } : ThreadPool τ φ).goto t .stopNotify) u := by
  simp only [strandsNobody, hpc, leavesNobody] at hnot
  push Not at hnot
  obtain ⟨⟨u, hu⟩, hnone⟩ := hnot
  exact ⟨u, rfl, hu, idle_goto (s := s) hi rfl fun w hw _ => hnone w hw⟩

theorem takePop_deserts (hi : Inv s) (hpc : s.pc t = .takePop)
    (hnot : ¬ s.strandsNobody (.next t woken)) : ∃ u, Deserted (s.takePop t) u := by
  simp only [strandsNobody, hpc, leavesNobody] at hnot
  push Not at hnot
  obtain ⟨hrun, hempty, ⟨u, hu⟩, hnone⟩ := hnot
  simp only [takePop]
  split
  · exact ⟨u, hrun, hu, idle_goto (s := s) hi rfl hnone⟩
  · rename_i task rest hq
    have hmax : ¬ 0 < s.maxQueueSize := by
      rcases hempty with hnil | hzero
      · cases hq.symm.trans hnil
      · omega
    rw [if_neg hmax]
    exact ⟨u, hrun, hu, idle_goto (s := s) hi rfl hnone⟩

theorem takeNotify_deserts (hi : Inv s) {task : TaskFunc φ} (hpc : s.pc t = .takeNotify task)
    (hnot : ¬ s.strandsNobody (.next t woken)) :
    ∃ u, Deserted
      ((s.withMonitor (s.monitor.signal .notFull woken)).goto t (.takeUnlock task)) u := by
  simp only [strandsNobody, hpc, leavesNobody] at hnot
  push Not at hnot
  obtain ⟨hrun, ⟨u, hu, hne⟩, hnone⟩ := hnot
  refine ⟨u, hrun, ?_, idle_goto (s := s) hi rfl hnone⟩
  cases woken with
  | none => exact hu
  | some v =>
    refine mem_wake_waiting.mpr ⟨hu, ?_⟩
    rintro ⟨_, rfl⟩
    exact hne rfl

theorem runTest_deserts (hi : Inv s) {task : TaskFunc φ} (hpc : s.pc t = .runTest task)
    (hnot : ¬ s.strandsNobody (.next t woken)) (h : s.runTest t task = .ok s') :
    ∃ u, Deserted s' u := by
  have hin : s.places t = .inside := by simp [places, hpc, Pc.place]
  simp only [strandsNobody, hpc, leavesNobody] at hnot
  push Not at hnot
  obtain ⟨hrun, hfull, hnone⟩ := hnot
  simp only [runTest, isFull_eq hi hin, ok_bind, decide_eq_true_eq, pure_eq_ok, if_pos hfull] at h
  obtain rfl := Except.ok.inj h
  exact ⟨t, hrun, mem_wait_waiting.mpr (.inl ⟨rfl, rfl⟩),
    idle_goto (s := s) hi rfl fun w hw _ => hnone w hw⟩

/-- A step that does not meet the condition strands a caller. -/
theorem strandsNobody_exact {act : Action τ φ} (h : (system τ φ).Reachable s)
    (hst : (system τ φ).Step s act s') (hnot : ¬ s.strandsNobody act) : ∃ u, s'.stranded u := by
  have hi := reachable_inv h
  suffices hd : ∃ u, Deserted s' u by
    obtain ⟨u, hu⟩ := hd
    exact ⟨u, hu.stranded (hi.step hst)⟩
  cases act with
  | next t woken =>
    obtain ⟨hen, heq⟩ := hst
    change s.advance t woken (s.pc t) = .ok s' at heq
    change s.canAdvance t woken (s.pc t) at hen
    cases hpc : s.pc t with
    | stopRunning =>
      rw [hpc] at heq
      obtain rfl := Except.ok.inj heq
      exact stopRunning_deserts hi hpc hnot
    | takePop =>
      rw [hpc] at heq
      obtain rfl := Except.ok.inj heq
      exact takePop_deserts hi hpc hnot
    | takeNotify task =>
      rw [hpc] at heq hen
      obtain rfl := Except.ok.inj heq
      exact takeNotify_deserts hi hpc hnot
    | runTest task =>
      rw [hpc] at heq
      exact runTest_deserts hi hpc hnot heq
    | _ => exact absurd (by simp [strandsNobody, hpc, leavesNobody]) hnot
  | _ => exact absurd trivial hnot

/-- The worker is in a task when the pool is stopped, and finishes it after that: the
    second caller waits for ever. -/
theorem stop_strands_second_caller :
    ∃ s : ThreadPool (Fin 4) Nat, (system (Fin 4) Nat).Reachable s ∧ 0 < s.maxQueueSize ∧
      s.stopReturned ∧ s.pc 2 = .runWait (some 8) ∧ 2 ∉ s.monitor.woken .notFull ∧
      s.stranded 2 := by
  let acts : List (Action (Fin 4) Nat) :=
    [.run 0 (some 7), .next 0 none, .next 0 none, .next 0 none, .next 0 none, .next 0 none,
     .run 2 (some 8), .next 2 none, .next 2 none,
     .stop 3, .next 3 none, .next 3 none, .next 3 none, .next 3 none, .next 3 none,
     .taskReturns 1, .next 1 none, .next 3 none, .next 3 none]
  obtain ⟨s, hexec, hmax, hstop, hpc, hnot, hd⟩ : ∃ s : ThreadPool (Fin 4) Nat,
      (system (Fin 4) Nat).exec (started 1 [1]) acts = some s ∧ 0 < s.maxQueueSize ∧
        s.stopReturned ∧ s.pc 2 = .runWait (some 8) ∧ 2 ∉ s.monitor.woken .notFull ∧
        Deserted s 2 :=
    ⟨_, rfl, by decide, by decide, rfl, by decide, rfl, by decide, by decide⟩
  have hreach : (system (Fin 4) Nat).Reachable s :=
    reachable_of_exec acts ⟨1, [1], List.cons_ne_nil _ _, List.nodup_singleton _, rfl⟩ hexec
  exact ⟨s, hreach, hmax, hstop, hpc, hnot, hd.stranded (reachable_inv hreach)⟩

end Kaycc.ThreadPool
