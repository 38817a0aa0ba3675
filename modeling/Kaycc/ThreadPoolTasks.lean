/-
  Kaycc/ThreadPoolTasks.lean
  ==========================
  **The queue of the thread pool: bounded, first in first out, each task once.**

  `Inv` ties every thread's place in the code to the monitor, which gives mutual
  exclusion, and says what the queue is: what has been pushed and not yet been
  dequeued, in that order, and never more than `maxQueueSize_`.  A thread about to
  push knows that there is room; nobody else can change the queue meanwhile,
  because it holds the mutex.
-/
import Kaycc.ThreadPool

namespace Kaycc.ThreadPool

open Transition Transition.System Monitor

variable {τ φ : Type} [DecidableEq τ] {s s' : ThreadPool τ φ} {t u : τ} {p : Pc τ φ}

/-! ### Moving a thread -/

@[simp] theorem goto_monitor : (s.goto t p).monitor = s.monitor := rfl
@[simp] theorem goto_queue : (s.goto t p).queue = s.queue := rfl
@[simp] theorem goto_threads : (s.goto t p).threads = s.threads := rfl
@[simp] theorem goto_running : (s.goto t p).running = s.running := rfl
@[simp] theorem goto_maxQueueSize : (s.goto t p).maxQueueSize = s.maxQueueSize := rfl

@[simp] theorem goto_pc_self : (s.goto t p).pc t = p := by simp [goto]

theorem goto_pc_of_ne (h : u ≠ t) : (s.goto t p).pc u = s.pc u := by simp [goto, h]

/-- What holds of every thread where it is, and of the moved one where it goes. -/
theorem forall_goto {P : τ → Pc τ φ → Prop} (h : ∀ u, P u (s.pc u)) (ht : P t p) (u : τ) :
    P u ((s.goto t p).pc u) := by
  by_cases hu : u = t
  · subst hu
    rw [goto_pc_self]
    exact ht
  · rw [goto_pc_of_ne hu]
    exact h u

/-- Where the mutex sees a thread. -/
def Pc.place : Pc τ φ → Place Cond
  | .runTest _ | .runPush _ | .runNotify | .runUnlock | .stopRunning | .stopNotify | .stopUnlock
  | .takeTest | .takePop | .takeNotify _ | .takeUnlock _ => .inside
  | .runWait _ => .waits .notFull
  | .takeWait => .waits .notEmpty
  | _ => .outside

/-- The statements of `runInThread` and `takeTask`. -/
def Pc.ofPool : Pc τ φ → Bool
  | .loopTest | .takeLock | .takeTest | .takeWait | .takePop | .takeNotify _ | .takeUnlock _
  | .finished => true
  | _ => false

/-- The thread has found room and is about to push. -/
def Pc.pushes : Pc τ φ → Bool
  | .runPush _ => true
  | _ => false

def places (s : ThreadPool τ φ) (t : τ) : Place Cond := (s.pc t).place

theorem places_goto : (s.goto t p).places = Function.update s.places t p.place := by
  funext u
  by_cases hu : u = t
  · subst hu
    simp [places]
  · simp [places, hu, goto_pc_of_ne hu]

omit [DecidableEq τ] in
theorem place_of_pushes (h : (s.pc t).pushes = true) : s.places t = .inside := by
  simp only [places]
  cases hpc : s.pc t with
  | runPush task => rfl
  | _ =>
    rw [hpc] at h
    cases h

omit [DecidableEq τ] in
/-- Only the pool's threads wait for the queue not to be empty. -/
theorem ofPool_of_place (h : s.places t = .waits .notEmpty) : (s.pc t).ofPool = true := by
  simp only [places] at h
  cases hpc : s.pc t with
  | takeWait => rfl
  | _ =>
    rw [hpc] at h
    cases h

/-! ### The invariant -/

structure Inv (s : ThreadPool τ φ) : Prop where
  follows : s.monitor.Follows s.places
  pool : ∀ t, (s.pc t).ofPool = true → t ∈ s.threads
  room : ∀ t, (s.pc t).pushes = true → ¬ s.full
  bounded : 0 < s.maxQueueSize → s.queue.length ≤ s.maxQueueSize
  order : s.pushed = s.dequeued.map Prod.snd ++ s.queue
  takers : ∀ d ∈ s.dequeued, d.1 ∈ s.threads

omit [DecidableEq τ] in
theorem started_inv (maxQueueSize : Nat) (threads : List τ) :
    Inv (started maxQueueSize threads : ThreadPool τ φ) where
  follows := follows_free fun _ => rfl
  pool := fun t h => by cases h
  room := fun t h => by cases h
  bounded := fun _ => Nat.zero_le _
  order := rfl
  takers := fun d hd => absurd hd List.not_mem_nil

/-- A step that leaves the queue alone. -/
theorem Inv.move (hi : Inv s) {m : Monitor τ Cond}
    (hm : m.Follows (Function.update s.places t p.place))
    (hpool : p.ofPool = false ∨ t ∈ s.threads) (hroom : p.pushes = false ∨ ¬ s.full) :
    Inv ((s.withMonitor m).goto t p) where
  follows := by
    rw [places_goto]
    exact hm
  pool := forall_goto (P := fun u q => q.ofPool = true → u ∈ s.threads) hi.pool
    fun h => hpool.resolve_left (by simp [h])
  room := forall_goto (P := fun _ q => q.pushes = true → ¬ s.full) hi.room
    fun h => hroom.resolve_left (by simp [h])
  bounded := hi.bounded
  order := hi.order
  takers := hi.takers

omit [DecidableEq τ] in
/-- `running_` and the threads' `joined_` are not part of it. -/
theorem Inv.flags (hi : Inv s) (running : Bool) (joined : List τ) :
    Inv { s with running := running, joined := joined } where
  follows := hi.follows
  pool := hi.pool
  room := hi.room
  bounded := hi.bounded
  order := hi.order
  takers := hi.takers

/-- A step within the same place. -/
theorem Inv.stay (hi : Inv s) (hplace : (s.pc t).place = p.place)
    (hpool : p.ofPool = false ∨ t ∈ s.threads) (hroom : p.pushes = false ∨ ¬ s.full) :
    Inv (s.goto t p) :=
  hi.move (hi.follows.stay hplace) hpool hroom

/-- The thread that holds the mutex changes the queue. -/
theorem Inv.change (hi : Inv s) (hin : (s.pc t).place = .inside) (hp : p.place = .inside)
    (hpool : p.ofPool = false ∨ t ∈ s.threads) (hpush : p.pushes = false)
    {queue pushed : List (TaskFunc φ)} {dequeued : List (τ × TaskFunc φ)}
    (hbounded : 0 < s.maxQueueSize → queue.length ≤ s.maxQueueSize)
    (horder : pushed = dequeued.map Prod.snd ++ queue)
    (htakers : ∀ d ∈ dequeued, d.1 ∈ s.threads) :
    Inv (({ s with queue := queue, pushed := pushed, dequeued := dequeued } :
      ThreadPool τ φ).goto t p) where
  follows := by
    rw [places_goto, hp]
    exact hi.follows.stay hin
  pool := forall_goto (P := fun u q => q.ofPool = true → u ∈ s.threads) hi.pool
    fun h => hpool.resolve_left (by simp [h])
  room := by
    intro u hu
    by_cases hut : u = t
    · subst hut
      rw [goto_pc_self, hpush] at hu
      cases hu
    · -- the other thread would be inside as well
      rw [goto_pc_of_ne hut] at hu
      exact absurd (hi.follows.exclusive (place_of_pushes hu) hin) hut
  bounded := hbounded
  order := horder
  takers := htakers

/-! ### The steps -/

theorem isFull_eq (hi : Inv s) (hin : (s.pc t).place = .inside) :
    s.isFull t = .ok (decide s.full) := by
  have hheld : s.monitor.holder = some t := (hi.follows.inside t).mp hin
  simp only [isFull, check_eq_ok hheld, ok_bind, pure_eq_ok]

theorem runTest_ok (hi : Inv s) {task : TaskFunc φ} (hpc : s.pc t = .runTest task) :
    ∃ s', s.runTest t task = .ok s' ∧ Inv s' := by
  have hin : s.places t = .inside := by simp [places, hpc, Pc.place]
  simp only [runTest, isFull_eq hi hin, ok_bind, decide_eq_true_eq, pure_eq_ok]
  by_cases hf : s.full
  · rw [if_pos hf]
    exact ⟨_, rfl, hi.move (hi.follows.wait hin) (.inl rfl) (.inl rfl)⟩
  · rw [if_neg hf]
    exact ⟨_, rfl, hi.stay hin (.inl rfl) (.inr hf)⟩

theorem runPush_ok (hi : Inv s) {task : TaskFunc φ} (hpc : s.pc t = .runPush task) :
    ∃ s', s.runPush t task = .ok s' ∧ Inv s' := by
  have hin : s.places t = .inside := by simp [places, hpc, Pc.place]
  have hroom : ¬ s.full := hi.room t (by simp [hpc, Pc.pushes])
  have hcheck : check (decide s.full = false) .runNotFull = .ok () :=
    check_eq_ok (decide_eq_false hroom)
  simp only [runPush, isFull_eq hi hin, ok_bind, hcheck, pure_eq_ok]
  refine ⟨_, rfl, hi.change hin rfl (.inl rfl) rfl ?_ ?_ hi.takers⟩
  · intro hpos
    have hlt : s.queue.length < s.maxQueueSize := by
      by_contra hge
      exact hroom ⟨hpos, Nat.le_of_not_lt hge⟩
    rw [List.length_append]
    exact hlt
  · rw [hi.order, List.append_assoc]

theorem takeTest_inv (hi : Inv s) (hpc : s.pc t = .takeTest) : Inv (s.takeTest t) := by
  have hin : s.places t = .inside := by simp [places, hpc, Pc.place]
  have hmem : t ∈ s.threads := hi.pool t (by simp [hpc, Pc.ofPool])
  simp only [takeTest]
  split
  · exact hi.move (hi.follows.wait hin) (.inr hmem) (.inl rfl)
  · exact hi.stay hin (.inr hmem) (.inl rfl)

theorem takePop_inv (hi : Inv s) (hpc : s.pc t = .takePop) : Inv (s.takePop t) := by
  have hin : s.places t = .inside := by simp [places, hpc, Pc.place]
  have hmem : t ∈ s.threads := hi.pool t (by simp [hpc, Pc.ofPool])
  simp only [takePop]
  split
  · exact hi.stay hin (.inr hmem) (.inl rfl)
  · rename_i task rest hq
    have hbounded : 0 < s.maxQueueSize → rest.length ≤ s.maxQueueSize := by
      intro hpos
      have hle := hi.bounded hpos
      rw [hq, List.length_cons] at hle
      omega
    have horder : s.pushed = (s.dequeued ++ [(t, task)]).map Prod.snd ++ rest := by
      simp [hi.order, hq]
    have htakers : ∀ d ∈ s.dequeued ++ [(t, task)], d.1 ∈ s.threads := by
      intro d hd
      rcases List.mem_append.mp hd with hd | hd
      · exact hi.takers d hd
      · rw [List.mem_singleton.mp hd]
        exact hmem
    split
    · exact hi.change hin rfl (.inr hmem) rfl hbounded horder htakers
    · exact hi.change hin rfl (.inr hmem) rfl hbounded horder htakers

theorem stopJoin_ok (hi : Inv s) {rest : List τ} (hpc : s.pc t = .stopJoin rest) :
    s.stopJoin t rest = .error .threadNotJoined ∨ ∃ s', s.stopJoin t rest = .ok s' ∧ Inv s' := by
  have hout : (s.pc t).place = .outside := by simp [hpc, Pc.place]
  cases rest with
  | nil => exact .inr ⟨_, rfl, hi.stay hout (.inl rfl) (.inl rfl)⟩
  | cons u rest =>
    by_cases hu : u ∉ s.joined
    · right
      simp only [stopJoin, check_eq_ok hu, ok_bind, pure_eq_ok]
      exact ⟨_, rfl, (hi.flags s.running (u :: s.joined)).stay hout (.inl rfl) (.inl rfl)⟩
    · left
      have hcheck : check (u ∉ s.joined) .threadNotJoined = .error .threadNotJoined := if_neg hu
      simp only [stopJoin, hcheck]
      rfl

/-- **The next statement of a thread** fails no assertion but that of a second `join`,
    and keeps the invariant. -/
theorem advance_ok (hi : Inv s) {woken : Option τ} (hen : s.canAdvance t woken (s.pc t)) :
    s.advance t woken (s.pc t) = .error .threadNotJoined ∨
      ∃ s', s.advance t woken (s.pc t) = .ok s' ∧ Inv s' := by
  have hplace : s.places t = (s.pc t).place := rfl
  have hpool : (s.pc t).ofPool = true → t ∈ s.threads := hi.pool t
  cases hpc : s.pc t with
  | user =>
    rw [hpc] at hen
    exact hen.elim
  | finished =>
    rw [hpc] at hen
    exact hen.elim
  | runLock task =>
    rw [hpc] at hen hplace
    exact .inr ⟨_, rfl, hi.move (hi.follows.lock hplace hen) (.inl rfl) (.inl rfl)⟩
  | runTest task => exact .inr (runTest_ok hi hpc)
  | runWait task =>
    rw [hpc] at hen
    exact .inr ⟨_, rfl, hi.move (hi.follows.relock hen.2 hen.1) (.inl rfl) (.inl rfl)⟩
  | runPush task => exact .inr (runPush_ok hi hpc)
  | runNotify =>
    rw [hpc] at hen hplace
    exact .inr ⟨_, rfl, hi.move ((hi.follows.signal hen).stay hplace) (.inl rfl) (.inl rfl)⟩
  | runUnlock =>
    rw [hpc] at hplace
    exact .inr ⟨_, rfl, hi.move (hi.follows.unlock hplace) (.inl rfl) (.inl rfl)⟩
  | stopLock =>
    rw [hpc] at hen hplace
    exact .inr ⟨_, rfl, hi.move (hi.follows.lock hplace hen) (.inl rfl) (.inl rfl)⟩
  | stopRunning =>
    rw [hpc] at hplace
    exact .inr ⟨_, rfl, (hi.flags false s.joined).stay hplace (.inl rfl) (.inl rfl)⟩
  | stopNotify =>
    rw [hpc] at hplace
    exact .inr ⟨_, rfl, hi.move (hi.follows.broadcast.stay hplace) (.inl rfl) (.inl rfl)⟩
  | stopUnlock =>
    rw [hpc] at hplace
    exact .inr ⟨_, rfl, hi.move (hi.follows.unlock hplace) (.inl rfl) (.inl rfl)⟩
  | stopJoin rest => exact stopJoin_ok hi hpc
  | stopJoining u rest =>
    rw [hpc] at hplace
    exact .inr ⟨_, rfl, hi.stay hplace (.inl rfl) (.inl rfl)⟩
  | loopTest =>
    have hmem : t ∈ s.threads := hpool (by simp [hpc, Pc.ofPool])
    rw [hpc] at hplace
    refine .inr ⟨_, rfl, ?_⟩
    split
    · exact hi.stay hplace (.inr hmem) (.inl rfl)
    · exact hi.stay hplace (.inr hmem) (.inl rfl)
  | takeLock =>
    have hmem : t ∈ s.threads := hpool (by simp [hpc, Pc.ofPool])
    rw [hpc] at hen hplace
    exact .inr ⟨_, rfl, hi.move (hi.follows.lock hplace hen) (.inr hmem) (.inl rfl)⟩
  | takeTest => exact .inr ⟨_, rfl, takeTest_inv hi hpc⟩
  | takeWait =>
    have hmem : t ∈ s.threads := hpool (by simp [hpc, Pc.ofPool])
    rw [hpc] at hen
    exact .inr ⟨_, rfl, hi.move (hi.follows.relock hen.2 hen.1) (.inr hmem) (.inl rfl)⟩
  | takePop => exact .inr ⟨_, rfl, takePop_inv hi hpc⟩
  | takeNotify task =>
    have hmem : t ∈ s.threads := hpool (by simp [hpc, Pc.ofPool])
    rw [hpc] at hen hplace
    exact .inr ⟨_, rfl, hi.move ((hi.follows.signal hen).stay hplace) (.inr hmem) (.inl rfl)⟩
  | takeUnlock task =>
    have hmem : t ∈ s.threads := hpool (by simp [hpc, Pc.ofPool])
    rw [hpc] at hplace
    refine .inr ⟨_, rfl, ?_⟩
    cases task with
    | none => exact hi.move (hi.follows.unlock hplace) (.inr hmem) (.inl rfl)
    | some task => exact hi.move (hi.follows.unlock hplace) (.inl rfl) (.inl rfl)

/-- **The step lemma.** -/
theorem step_ok (hi : Inv s) {act : Action τ φ} (hen : s.enabled act) :
    s.step act = .error .threadNotJoined ∨ ∃ s', s.step act = .ok s' ∧ Inv s' := by
  cases act with
  | run t task =>
    have hout : (s.pc t).place = .outside := by
      have hpc : s.pc t = .user := hen
      simp [hpc, Pc.place]
    refine .inr ⟨_, rfl, ?_⟩
    simp only [run]
    split
    · exact hi
    · exact hi.stay hout (.inl rfl) (.inl rfl)
  | stop t =>
    have hout : (s.pc t).place = .outside := by
      have hpc : s.pc t = .user := hen
      simp [hpc, Pc.place]
    exact .inr ⟨_, rfl, hi.stay hout (.inl rfl) (.inl rfl)⟩
  | taskReturns t =>
    have hout : (s.pc t).place = .outside := by simp [hen.1, Pc.place]
    exact .inr ⟨_, rfl, hi.stay hout (.inr hen.2) (.inl rfl)⟩
  | next t woken => exact advance_ok hi hen
  | wake c t =>
    refine .inr ⟨_, rfl, ?_⟩
    exact { hi with follows := hi.follows.wake hen }

theorem Inv.step {act : Action τ φ} (hi : Inv s) (hst : (system τ φ).Step s act s') : Inv s' := by
  rcases step_ok hi hst.1 with herr | ⟨s₁, heq, hi'⟩
  · cases herr.symm.trans hst.2
  · obtain rfl : s₁ = s' := Except.ok.inj (heq.symm.trans hst.2)
    exact hi'

theorem reachable_inv (h : (system τ φ).Reachable s) : Inv s :=
  h.invariant (fun _ ⟨_, _, _, _, h₀⟩ => h₀ ▸ started_inv _ _) (fun _ _ _ => Inv.step)

/-! ### What has happened stays so -/

structure Extends (s s' : ThreadPool τ φ) : Prop where
  pushed : s.pushed <+: s'.pushed
  dequeued : s.dequeued <+: s'.dequeued

omit [DecidableEq τ] in
theorem Extends.of_eq (hp : s'.pushed = s.pushed) (hd : s'.dequeued = s.dequeued) :
    Extends s s' :=
  ⟨hp ▸ List.prefix_refl _, hd ▸ List.prefix_refl _⟩

theorem takePop_extends (s : ThreadPool τ φ) (t : τ) : Extends s (s.takePop t) := by
  simp only [takePop]
  split
  · exact Extends.of_eq rfl rfl
  · exact ⟨List.prefix_refl _, List.prefix_append _ _⟩

theorem runTest_extends {task : TaskFunc φ} (h : s.runTest t task = .ok s') : Extends s s' := by
  simp only [runTest] at h
  rcases bind_eq_ok.mp h with ⟨full, _, h⟩
  split at h
  · obtain rfl := Except.ok.inj h
    exact Extends.of_eq rfl rfl
  · obtain rfl := Except.ok.inj h
    exact Extends.of_eq rfl rfl

theorem runPush_extends {task : TaskFunc φ} (h : s.runPush t task = .ok s') : Extends s s' := by
  simp only [runPush] at h
  rcases bind_eq_ok.mp h with ⟨full, _, h⟩
  rcases bind_eq_ok.mp h with ⟨_, _, h⟩
  obtain rfl := Except.ok.inj h
  exact ⟨List.prefix_append _ _, List.prefix_refl _⟩

theorem stopJoin_extends {rest : List τ} (h : s.stopJoin t rest = .ok s') : Extends s s' := by
  cases rest with
  | nil =>
    obtain rfl := Except.ok.inj h
    exact Extends.of_eq rfl rfl
  | cons u rest =>
    simp only [stopJoin] at h
    rcases bind_eq_ok.mp h with ⟨_, _, h⟩
    obtain rfl := Except.ok.inj h
    exact Extends.of_eq rfl rfl

theorem advance_extends {woken : Option τ} (h : s.advance t woken p = .ok s') : Extends s s' := by
  cases p with
  | runTest task => exact runTest_extends h
  | runPush task => exact runPush_extends h
  | stopJoin rest => exact stopJoin_extends h
  | takeTest =>
    obtain rfl := Except.ok.inj h
    simp only [takeTest]
    split
    · exact Extends.of_eq rfl rfl
    · exact Extends.of_eq rfl rfl
  | takePop =>
    obtain rfl := Except.ok.inj h
    exact takePop_extends s t
  | _ =>
    obtain rfl := Except.ok.inj h
    exact Extends.of_eq rfl rfl

theorem Extends.of_step {act : Action τ φ} (hst : (system τ φ).Step s act s') : Extends s s' := by
  cases act with
  | run t task =>
    obtain rfl := Except.ok.inj hst.2
    simp only [run]
    split
    · exact Extends.of_eq rfl rfl
    · exact Extends.of_eq rfl rfl
  | next t woken => exact advance_extends hst.2
  | _ =>
    obtain rfl := Except.ok.inj hst.2
    exact Extends.of_eq rfl rfl

theorem Extends.of_run {acts : List (Action τ φ)} (h : (system τ φ).Run s acts s') :
    Extends s s' :=
  h.related (P := fun _ => True) (fun _ _ _ _ _ => trivial) (fun _ => Extends.of_eq rfl rfl)
    (fun _ _ _ h₁ h₂ => ⟨h₁.pushed.trans h₂.pushed, h₁.dequeued.trans h₂.dequeued⟩)
    (fun _ _ _ _ hst => Extends.of_step hst) trivial

/-! ### The theorem -/

/-- The task pushed as number `i` is in the queue. -/
def inQueue (s : ThreadPool τ φ) (i : Nat) (task : TaskFunc φ) : Prop :=
  ∃ k, i = s.dequeued.length + k ∧ s.queue[k]? = some task

/-- The task pushed as number `i` has been dequeued, by this thread. -/
def takenBy (s : ThreadPool τ φ) (i : Nat) (task : TaskFunc φ) (w : τ) : Prop :=
  s.dequeued[i]? = some (w, task)

omit [DecidableEq τ] in
theorem Inv.located (hi : Inv s) {i : Nat} {task : TaskFunc φ} (hp : s.pushed[i]? = some task) :
    (s.inQueue i task ∧ ∀ w, ¬ s.takenBy i task w) ∨
      (¬ s.inQueue i task ∧ ∃! w, s.takenBy i task w) := by
  rw [hi.order] at hp
  by_cases hlt : i < s.dequeued.length
  · right
    have hlt' : i < (s.dequeued.map Prod.snd).length := by
      rw [List.length_map]
      exact hlt
    rw [List.getElem?_append_left hlt', List.getElem?_map, Option.map_eq_some_iff] at hp
    rcases hp with ⟨⟨w, task'⟩, hd, rfl⟩
    constructor
    · rintro ⟨k, hk, _⟩
      omega
    · refine ⟨w, hd, ?_⟩
      intro w' hw'
      have heq : (w', task') = (w, task') := Option.some.inj (hw'.symm.trans hd)
      exact congrArg Prod.fst heq
  · left
    have hge : (s.dequeued.map Prod.snd).length ≤ i := by
      rw [List.length_map]
      omega
    rw [List.getElem?_append_right hge, List.length_map] at hp
    constructor
    · exact ⟨i - s.dequeued.length, by omega, hp⟩
    · intro w hw
      have hsome : i < s.dequeued.length := (List.getElem?_eq_some_iff.mp hw).1
      exact hlt hsome

/-- **Tasks are accepted, ordered and bounded correctly.**  In every reachable state the
    queue is within its bound and the next statement of any thread passes the asserts of
    `run`; the tasks dequeued are the first ones pushed, in their order, and the queue
    holds the others; and each is in the queue or dequeued by one thread of the pool, for
    the rest of the run. -/
theorem tasks_once_in_order (h : (system τ φ).Reachable s) :
    (0 < s.maxQueueSize → s.queue.length ≤ s.maxQueueSize) ∧
    (∀ act, s.enabled act →
      s.step act = .error .threadNotJoined ∨ ∃ s', s.step act = .ok s') ∧
    s.pushed = s.dequeued.map Prod.snd ++ s.queue ∧
    (∀ i task, s.pushed[i]? = some task →
      (s.inQueue i task ∧ ∀ w, ¬ s.takenBy i task w) ∨
        (¬ s.inQueue i task ∧ ∃! w, s.takenBy i task w)) ∧
    (∀ i task w, s.takenBy i task w → w ∈ s.threads ∧
      ∀ acts s', (system τ φ).Run s acts s' → s'.takenBy i task w) := by
  have hi := reachable_inv h
  refine ⟨hi.bounded, ?_, hi.order, fun i task => hi.located, ?_⟩
  · intro act hen
    exact (step_ok hi hen).imp_right fun ⟨s', heq, _⟩ => ⟨s', heq⟩
  · intro i task w hw
    constructor
    · exact hi.takers (w, task) (List.mem_of_getElem? hw)
    · intro acts s' hrun
      rcases (Extends.of_run hrun).dequeued with ⟨r, hr⟩
      have hlt : i < s.dequeued.length := (List.getElem?_eq_some_iff.mp hw).1
      rw [takenBy, ← hr, List.getElem?_append_left hlt]
      exact hw

/-- One worker, a queue of one: the second `run` waits until the first task is taken. -/
theorem tasks_once_in_order_full :
    ∃ s : ThreadPool Nat Nat, (system Nat Nat).exec (started 1 [1])
        [.run 0 (some 7), .next 0 none, .next 0 none, .next 0 none, .next 0 none, .next 0 none,
         .run 0 (some 8), .next 0 none, .next 0 none,
         .taskReturns 1, .next 1 none, .next 1 none, .next 1 none, .next 1 none,
         .next 1 (some 0), .next 1 none,
         .next 0 none, .next 0 none, .next 0 none] = some s ∧
      s.pushed = [some 7, some 8] ∧ s.takenBy 0 (some 7) 1 ∧ s.inQueue 1 (some 8) ∧
      ∀ w, ¬ s.takenBy 1 (some 8) w := by
  refine ⟨_, rfl, rfl, rfl, ⟨0, rfl, rfl⟩, ?_⟩
  have h := tasks_once_in_order (reachable_of_exec (S := system Nat Nat)
    [.run 0 (some 7), .next 0 none, .next 0 none, .next 0 none, .next 0 none, .next 0 none,
     .run 0 (some 8), .next 0 none, .next 0 none,
     .taskReturns 1, .next 1 none, .next 1 none, .next 1 none, .next 1 none,
     .next 1 (some 0), .next 1 none,
     .next 0 none, .next 0 none, .next 0 none]
    ⟨1, [1], List.cons_ne_nil _ _, List.nodup_singleton _, rfl⟩ rfl)
  rcases h.2.2.2.1 1 (some 8) rfl with ⟨_, hnot⟩ | ⟨hnot, _⟩
  · exact hnot
  · exact absurd ⟨0, rfl, rfl⟩ hnot

end Kaycc.ThreadPool
