/-
  Kaycc/Thread.lean
  =================
  **`base/thread.cpp`: `Thread::start` and the thread that it starts.**

  The starter waits on a latch of count 1, the new thread stores its tid and then
  counts down.  The latch is the one of `CountDownLatch.lean`; its two callers'
  statements are steps here, so what is known of a latch with any callers holds of
  it (`Inv.latch`).  `pthread_create` may fail, and `start` may then be called again.
-/
import Kaycc.CountDownLatch

namespace Kaycc

open Transition Transition.System

namespace Thread

inductive Party where
  | starter
  | thread
deriving DecidableEq, Repr

/-- The next statement of `start`. -/
inductive StartPoint where
  | user           -- start() has not been called, or pthread_create has failed
  | create         -- at pthread_create
  | waiting        -- in latch_.wait()
  | assertTid      -- at assert(tid_ > 0)
  | returned
deriving DecidableEq, Repr

/-- The next statement of `runInThread`. -/
inductive RunPoint where
  | notCreated
  | storeTid       -- *tid_ = currentthread::tid()
  | countDown      -- at latch_->countDown()
  | counting       -- in latch_->countDown()
  | func           -- func_()
deriving DecidableEq, Repr

/-- `*tid_` has been assigned. -/
def RunPoint.stored : RunPoint → Bool
  | .countDown | .counting | .func => true
  | _ => false

end Thread

open Thread in
structure Thread where
  started : Bool
  tid : Nat                          -- tid_
  latch : CountDownLatch Party       -- latch_
  starting : StartPoint
  running : RunPoint
  gettid : Nat                       -- what gettid() returns to the new thread

namespace Thread

variable {s s' : Thread}

def new (gettid : Nat) : Thread where
  started := false
  tid := 0
  latch := CountDownLatch.new 1
  starting := .user
  running := .notCreated
  gettid := gettid

/-- The call of `start`, up to `pthread_create`. -/
def start (s : Thread) : Except Assertion Thread := do
  check (s.started = false) .startNotStarted
  pure { s with started := true, starting := .create }

def pthreadCreate (s : Thread) (failed : Bool) : Thread :=
  if failed = true then { s with started := false, starting := .user }
  else { s with latch := s.latch.wait .starter, starting := .waiting, running := .storeTid }

/-- The next statement of `start` behind its wait. -/
def starterStep (s : Thread) : Except Assertion Thread :=
  match s.starting with
  | .waiting => .ok { s with starting := .assertTid }
  | .assertTid => do
      check (0 < s.tid) .startTid
      pure { s with starting := .returned }
  | .user | .create | .returned => .ok s

/-- The next statement of `runInThread` outside the latch. -/
def runInThread (s : Thread) : Thread :=
  match s.running with
  | .storeTid => { s with tid := s.gettid, running := .countDown }
  | .countDown => { s with latch := s.latch.countDown .thread, running := .counting }
  | .counting => { s with running := .func }
  | .notCreated | .func => s

inductive Action where
  | start
  | pthreadCreate (failed : Bool)
  | starter
  | thread
  | latch (p : Party)            -- a statement of the latch
  | wake (p : Party)             -- a spurious wakeup there
deriving DecidableEq, Repr

def enabled (s : Thread) : Action → Prop
  | .start => s.starting = .user ∨ s.starting = .returned
  | .pthreadCreate _ => s.starting = .create
  | .starter =>
      s.starting = .waiting ∧ s.latch.point .starter = .user ∨ s.starting = .assertTid
  | .thread =>
      s.running = .storeTid ∨ s.running = .countDown ∨
        s.running = .counting ∧ s.latch.point .thread = .user
  | .latch p => s.latch.enabled (.run p)
  | .wake p => s.latch.enabled (.wake p)

def step (s : Thread) : Action → Except Assertion Thread
  | .start => s.start
  | .pthreadCreate failed => .ok (s.pthreadCreate failed)
  | .starter => s.starterStep
  | .thread => .ok s.runInThread
  | .latch p => .ok { s with latch := s.latch.step (.run p) }
  | .wake p => .ok { s with latch := s.latch.step (.wake p) }

/-- `gettid()` returns a positive number. -/
def system : System Thread Action Assertion where
  init s := ∃ gettid, 0 < gettid ∧ s = new gettid
  enabled := enabled
  step := step

instance (s : Thread) : (act : Action) → Decidable (system.enabled s act)
  | .start => inferInstanceAs (Decidable (_ ∨ _))
  | .pthreadCreate _ => inferInstanceAs (Decidable (s.starting = .create))
  | .starter => inferInstanceAs (Decidable (_ ∧ _ ∨ _))
  | .thread => inferInstanceAs (Decidable (_ ∨ _ ∨ _ ∧ _))
  | .latch p =>
      inferInstanceAs (Decidable ((CountDownLatch.system Party 1).enabled s.latch (.run p)))
  | .wake p =>
      inferInstanceAs (Decidable ((CountDownLatch.system Party 1).enabled s.latch (.wake p)))

/-! ### The invariant -/

/-- Where the calls of the latch are made, and what is known when one has returned. -/
structure Inv (s : Thread) : Prop where
  latch : (CountDownLatch.system Party 1).Reachable s.latch
  positive : 0 < s.gettid
  begun : s.starting ≠ .user → s.started = true
  fresh : s.starting = .user ∨ s.starting = .create → s.running = .notCreated
  starter : s.latch.point .starter = .user ∨
    s.starting = .waiting ∧ (s.latch.point .starter).inWait = true
  thread : s.latch.point .thread ≠ .user → s.running = .counting
  counted : 0 < s.latch.decremented → s.running.stored = true
  stored : s.running.stored = true → s.tid = s.gettid
  passed : s.latch.point .starter = .user →
    s.starting = .waiting ∨ s.starting = .assertTid ∨ s.starting = .returned →
    0 < s.latch.decremented

theorem new_inv {gettid : Nat} (h : 0 < gettid) : Inv (new gettid) where
  latch := ⟨_, [], rfl, Run.nil _⟩
  positive := h
  begun := fun hne => absurd rfl hne
  fresh := fun _ => rfl
  starter := .inl rfl
  thread := fun hne => absurd rfl hne
  counted := fun hpos => absurd hpos (Nat.lt_irrefl 0)
  stored := nofun
  passed := by
    rintro - (h | h | h) <;> cases h

theorem latch_call {l : CountDownLatch Party} (act : CountDownLatch.Action Party)
    (h : (CountDownLatch.system Party 1).Reachable l) (hen : l.enabled act) :
    (CountDownLatch.system Party 1).Reachable (l.step act) :=
  h.step ⟨hen, rfl⟩

theorem Inv.start (hi : Inv s) (h : s.start = .ok s') : Inv s' := by
  obtain ⟨_, hno, h⟩ := bind_eq_ok.mp h
  obtain rfl := Except.ok.inj h
  have hfalse : s.started = false := of_check_ok hno
  have huser : s.starting = .user := by
    by_contra hne
    rw [hi.begun hne] at hfalse
    cases hfalse
  refine ⟨hi.latch, hi.positive, fun _ => rfl, fun _ => hi.fresh (.inl huser), ?_, hi.thread,
    hi.counted, hi.stored, ?_⟩
  · refine hi.starter.imp_right ?_
    rintro ⟨hw, -⟩
    rw [huser] at hw
    cases hw
  · rintro - (h | h | h) <;> cases h

theorem Inv.pthreadCreate (hi : Inv s) (hen : s.starting = .create) (failed : Bool) :
    Inv (s.pthreadCreate failed) := by
  have hnone : s.running = .notCreated := hi.fresh (.inr hen)
  have hstarter : s.latch.point .starter = .user := by
    refine hi.starter.resolve_right ?_
    rintro ⟨hw, -⟩
    rw [hen] at hw
    cases hw
  have hthread : s.latch.point .thread = .user := by
    by_contra hne
    have h := hi.thread hne
    rw [hnone] at h
    cases h
  unfold Thread.pthreadCreate
  split
  · refine ⟨hi.latch, hi.positive, fun hne => absurd rfl hne, fun _ => hnone, .inl hstarter,
      hi.thread, hi.counted, hi.stored, ?_⟩
    rintro - (h | h | h) <;> cases h
  · refine ⟨latch_call (.wait .starter) hi.latch hstarter, hi.positive,
      fun _ => hi.begun (by simp [hen]), ?_, ?_, ?_, ?_, nofun, ?_⟩
    · rintro (h | h) <;> cases h
    · exact .inr ⟨rfl, by
        simp [CountDownLatch.wait, CountDownLatch.goto, CountDownLatch.Point.inWait]⟩
    · intro hne
      exact absurd hthread (by simpa [CountDownLatch.wait, CountDownLatch.goto] using hne)
    · -- nobody has counted down before there was a thread
      intro hpos
      have h := hi.counted hpos
      rw [hnone] at h
      cases h
    · intro huser
      simp [CountDownLatch.wait, CountDownLatch.goto] at huser

theorem Inv.starterStep (hi : Inv s)
    (hen : s.starting = .waiting ∧ s.latch.point .starter = .user ∨ s.starting = .assertTid) :
    ∃ s', s.starterStep = .ok s' ∧ Inv s' := by
  have hbegun : s.started = true := hi.begun (by rcases hen with ⟨h, _⟩ | h <;> simp [h])
  have huser : s.latch.point .starter = .user := by
    rcases hen with ⟨_, h⟩ | h
    · exact h
    · refine hi.starter.resolve_right ?_
      rintro ⟨hw, -⟩
      rw [h] at hw
      cases hw
  have hpos : 0 < s.latch.decremented :=
    hi.passed huser (by rcases hen with ⟨h, _⟩ | h <;> simp [h])
  rcases hen with ⟨hw, -⟩ | ht
  · refine ⟨{ s with starting := .assertTid }, by rw [Thread.starterStep, hw], hi.latch,
      hi.positive, fun _ => hbegun, ?_, .inl huser, hi.thread, hi.counted, hi.stored,
      fun _ _ => hpos⟩
    rintro (h | h) <;> cases h
  · have htid : 0 < s.tid := by
      rw [hi.stored (hi.counted hpos)]
      exact hi.positive
    have hstep : s.starterStep = .ok { s with starting := .returned } := by
      rw [Thread.starterStep, ht]
      simp only [check_eq_ok htid, ok_bind, pure_eq_ok]
    refine ⟨_, hstep, hi.latch, hi.positive, fun _ => hbegun, ?_, .inl huser, hi.thread,
      hi.counted, hi.stored, fun _ _ => hpos⟩
    rintro (h | h) <;> cases h

theorem Inv.runInThread (hi : Inv s)
    (hen : s.running = .storeTid ∨ s.running = .countDown ∨
      s.running = .counting ∧ s.latch.point .thread = .user) : Inv s.runInThread := by
  have hcreated : ¬ (s.starting = .user ∨ s.starting = .create) := by
    intro h
    have hnone := hi.fresh h
    rcases hen with h | h | ⟨h, _⟩ <;> rw [hnone] at h <;> cases h
  have hthread : s.latch.point .thread = .user := by
    by_contra hne
    have hcounting := hi.thread hne
    rcases hen with h | h | ⟨_, h⟩
    · rw [hcounting] at h
      cases h
    · rw [hcounting] at h
      cases h
    · exact hne h
  unfold Thread.runInThread
  rcases hen with hr | hr | ⟨hr, _⟩
  · rw [hr]
    refine ⟨hi.latch, hi.positive, hi.begun, fun h => absurd h hcreated, hi.starter,
      fun hne => absurd hthread hne, fun _ => rfl, fun _ => rfl, hi.passed⟩
  · rw [hr]
    refine ⟨latch_call (.countDown .thread) hi.latch hthread, hi.positive, hi.begun,
      fun h => absurd h hcreated, ?_, fun _ => rfl, fun _ => rfl,
      fun _ => hi.stored (by rw [hr]; rfl), ?_⟩
    · simpa [CountDownLatch.countDown, CountDownLatch.goto] using hi.starter
    · simpa [CountDownLatch.countDown, CountDownLatch.goto] using hi.passed
  · rw [hr]
    exact ⟨hi.latch, hi.positive, hi.begun, fun h => absurd h hcreated, hi.starter,
      fun hne => absurd hthread hne, fun _ => rfl, fun _ => hi.stored (by rw [hr]; rfl),
      hi.passed⟩

/-- A statement of the latch: the starter's leaves `wait` only when the thread has counted
    down, and only the thread counts down. -/
theorem Inv.latchStep (hi : Inv s) {p : Party} (hen : s.latch.enabled (.run p)) :
    Inv { s with latch := s.latch.step (.run p) } := by
  have hlatch := latch_call (.run p) hi.latch hen
  cases p with
  | starter =>
    have hnot : s.latch.point .starter ≠ .user := by
      intro h
      change s.latch.ready .starter (s.latch.point .starter) at hen
      rw [h] at hen
      exact hen
    obtain ⟨hw, hin⟩ := hi.starter.resolve_left hnot
    obtain ⟨hsame, hout⟩ := CountDownLatch.run_inWait hin
    have hthread : (s.latch.run .starter).point .thread = s.latch.point .thread :=
      CountDownLatch.run_point_of_ne (by decide)
    refine ⟨hlatch, hi.positive, hi.begun, hi.fresh, ?_, ?_, ?_, hi.stored, ?_⟩
    · exact hout.symm.imp (fun h => h.2) fun h => ⟨hw, h⟩
    · change (s.latch.run .starter).point .thread ≠ .user → _
      rw [hthread]
      exact hi.thread
    · change 0 < (s.latch.run .starter).decremented → _
      rw [hsame]
      exact hi.counted
    · intro huser _
      have h := (CountDownLatch.reachable_inv hi.latch).wait_returns hin huser
      change 0 < (s.latch.run .starter).decremented
      rw [hsame]
      omega
  | thread =>
    have hnot : s.latch.point .thread ≠ .user := by
      intro h
      change s.latch.ready .thread (s.latch.point .thread) at hen
      rw [h] at hen
      exact hen
    have hcounting := hi.thread hnot
    have hstored : s.running.stored = true := by rw [hcounting]; rfl
    have hstarter : (s.latch.run .thread).point .starter = s.latch.point .starter :=
      CountDownLatch.run_point_of_ne (by decide)
    refine ⟨hlatch, hi.positive, hi.begun, hi.fresh, ?_, fun _ => hcounting, fun _ => hstored,
      hi.stored, ?_⟩
    · change (s.latch.run .thread).point .starter = .user ∨
        s.starting = .waiting ∧ ((s.latch.run .thread).point .starter).inWait = true
      rw [hstarter]
      exact hi.starter
    · change (s.latch.run .thread).point .starter = .user → _
      rw [hstarter]
      intro huser hpast
      exact Nat.lt_of_lt_of_le (hi.passed huser hpast) (CountDownLatch.decremented_le_run _ _)

theorem Inv.step {act : Action} (hi : Inv s) (hst : system.Step s act s') : Inv s' := by
  obtain ⟨hen, heq⟩ := hst
  cases act with
  | start => exact hi.start heq
  | pthreadCreate failed =>
    obtain rfl := Except.ok.inj heq
    exact hi.pthreadCreate hen failed
  | starter =>
    obtain ⟨t, ht, hit⟩ := hi.starterStep hen
    obtain rfl := Except.ok.inj (ht.symm.trans heq)
    exact hit
  | thread =>
    obtain rfl := Except.ok.inj heq
    exact hi.runInThread hen
  | latch p =>
    obtain rfl := Except.ok.inj heq
    exact hi.latchStep hen
  | wake p =>
    obtain rfl := Except.ok.inj heq
    exact ⟨latch_call (.wake p) hi.latch hen, hi.positive, hi.begun, hi.fresh, hi.starter,
      hi.thread, hi.counted, hi.stored, hi.passed⟩

theorem reachable_inv (h : system.Reachable s) : Inv s := by
  refine h.invariant ?_ fun _ _ _ hi hst => hi.step hst
  rintro _ ⟨gettid, hpos, rfl⟩
  exact new_inv hpos

/-! ### The theorem -/

/-- **The latch opens once.**  No `wait` returns before the `c`-th `countDown` has executed
    `--count_`; when the latch is open and its mutex free nobody is blocked in it, and it
    stays open; an `int` holds `count_`.  `Thread::start`, when `pthread_create` has
    succeeded, passes its assert and returns only when the new thread has stored its tid. -/
theorem latch_opens_once {τ : Type} [DecidableEq τ] {c : Int} {l : CountDownLatch τ}
    (hl : (CountDownLatch.system τ c).Reachable l) (hs : system.Reachable s) :
    (∀ t l', (CountDownLatch.system τ c).Step l (.run t) l' → (l.point t).inWait = true →
        l'.point t = .user → c ≤ l.decremented) ∧
      (l.count ≤ 0 → l.monitor.holder = none → l.monitor.waiting () = ∅) ∧
      (∀ acts l', (CountDownLatch.system τ c).Run l acts l' → l.count ≤ 0 → l'.count ≤ 0) ∧
      (1 ≤ c → c < 2 ^ 31 → l.decremented < 2 ^ 31 → -2 ^ 31 ≤ l.count ∧ l.count < 2 ^ 31) ∧
      (s.starting = .assertTid → ∃ s', system.Step s .starter s' ∧ s'.starting = .returned) ∧
      (s.starting = .returned → s.running.stored = true ∧ s.tid = s.gettid ∧ 0 < s.tid) := by
  have hinv := CountDownLatch.reachable_inv hl
  have hi := reachable_inv hs
  refine ⟨?_, hinv.none_blocked, ?_, hinv.count_fits, ?_, ?_⟩
  · intro t l' hst hin hret
    obtain rfl := Except.ok.inj hst.2
    exact hinv.wait_returns hin hret
  · intro acts l' hrun
    exact CountDownLatch.open_of_run hrun
  · intro hassert
    obtain ⟨s', heq, -⟩ := hi.starterStep (.inr hassert)
    refine ⟨s', ⟨.inr hassert, heq⟩, ?_⟩
    rw [starterStep, hassert] at heq
    obtain ⟨_, _, heq⟩ := bind_eq_ok.mp heq
    obtain rfl := Except.ok.inj heq
    rfl
  · intro hret
    have huser : s.latch.point .starter = .user := by
      refine hi.starter.resolve_right ?_
      rintro ⟨hw, -⟩
      rw [hret] at hw
      cases hw
    have hstored := hi.counted (hi.passed huser (.inr (.inr hret)))
    have htid := hi.stored hstored
    exact ⟨hstored, htid, htid ▸ hi.positive⟩

/-- A latch of 2 with three `countDown` calls and a waiter that is woken twice; and a
    `start` whose first `pthread_create` fails. -/
theorem latch_opens_once_three_calls :
    ∃ (l : CountDownLatch Nat) (s : Thread), (CountDownLatch.system Nat 2).Reachable l ∧
      system.Reachable s ∧ l.count = -1 ∧ l.point 0 = .waitUnlock ∧ s.starting = .returned ∧
      (l.count ≤ 0 → l.monitor.holder = none → l.monitor.waiting () = ∅) ∧ s.tid = 7 := by
  obtain ⟨l, hexec, hcount, hpoint⟩ : ∃ l, (CountDownLatch.system Nat 2).exec
      (CountDownLatch.new 2) [.wait 0, .run 0, .run 0, .wake 0, .run 0, .run 0,
        .countDown 1, .run 1, .run 1, .run 1, .run 1, .countDown 2, .run 2, .run 2, .run 2, .run 2,
        .run 2, .countDown 3, .run 3, .run 3, .run 3, .run 3, .run 0, .run 0] = some l ∧
      l.count = -1 ∧ l.point 0 = .waitUnlock := ⟨_, rfl, rfl, rfl⟩
  obtain ⟨s, hexec', hret, hgettid⟩ : ∃ s, system.exec (new 7) [.start, .pthreadCreate true, .start,
        .pthreadCreate false, .latch .starter, .latch .starter, .thread, .thread, .latch .thread,
        .latch .thread, .latch .thread, .latch .thread, .latch .thread, .latch .starter,
        .latch .starter, .latch .starter, .starter, .starter] = some s ∧
      s.starting = .returned ∧ s.gettid = 7 := ⟨_, rfl, rfl, rfl⟩
  have hl := reachable_of_exec _ rfl hexec
  have hs : system.Reachable s := reachable_of_exec _ ⟨7, by decide, rfl⟩ hexec'
  obtain ⟨-, hblocked, -, -, -, htid⟩ := latch_opens_once hl hs
  exact ⟨l, s, hl, hs, hcount, hpoint, hret, hblocked, (htid hret).2.1.trans hgettid⟩

end Thread

end Kaycc
