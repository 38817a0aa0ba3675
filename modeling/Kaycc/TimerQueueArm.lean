/-
  Kaycc/TimerQueueArm.lean
  ========================
  **The timerfd is armed early enough.**

  The timerfd is armed when an insertion changes the earliest expiration and at
  the end of `reset`, there only for a valid expiration.  A cancel never arms it:
  an arm for an entry that has left `timers_` only comes too early.  What holds
  at every point is that each entry is covered, by an arm that is not later, or
  by `reset` being still to come for an entry that is valid.  An entry with a
  non-positive expiration can only be one that a callback inserted, and then an
  arm at least as early has been made: a restarted timer expires after `now`, as long
  as `addTime` does not overflow.
-/
import Kaycc.TimerQueueOperations

namespace Kaycc.TimerQueue

open Transition Transition.System

variable {q : TimerQueue} {a : Addr} {t : Timer}

/-! ### Covered entries -/

/-- The last arm since the timerfd was read is not later than `when`. -/
def armedBy (q : TimerQueue) (when : Timestamp) : Prop := ∃ e, q.armed = some e ∧ e ≤ when

theorem armedBy.mono {w w' : Timestamp} (h : q.armedBy w) (hle : w ≤ w') : q.armedBy w' := by
  obtain ⟨e, he, hew⟩ := h
  exact ⟨e, he, le_trans hew hle⟩

/-- Each entry is covered: armed for, or `reset` is still to come (`ahead`) and will
    arm for it. -/
def Covered (q : TimerQueue) (ahead : Prop) : Prop :=
  ∀ c ∈ q.timers, q.armedBy c.when ∨ (ahead ∧ 0 < c.when)

structure ArmInv (q : TimerQueue) : Prop where
  covered : Covered q (q.batch ≠ none)
  now_pos : ∀ b, q.batch = some b → 0 < b.now

theorem new_armInv : ArmInv new where
  covered := fun c hc => absurd hc (OrderedSet.notMem_empty c)
  now_pos := nofun

/-- A step that at most removes entries. -/
theorem Covered.subset {q' : TimerQueue} {ahead : Prop} (hv : Covered q ahead)
    (harm : q'.armed = q.armed) (hsub : ∀ c ∈ q'.timers, c ∈ q.timers) : Covered q' ahead := by
  intro c hc
  apply (hv c (hsub c hc)).imp_left
  intro h
  simpa only [armedBy, harm] using h

/-- **The step lemma for `addTimerInLoop`.**  When the new entry is not the earliest, it
    is covered by what covers the earliest. -/
theorem Covered.added {ahead : Prop} (hv : Covered q ahead) (a : Addr) (t : Timer) :
    Covered (q.added a t) ahead := by
  intro c hc
  have hmem : c = ⟨t.expiration, a⟩ ∨ c ∈ q.timers := OrderedSet.mem_insert.mp hc
  by_cases he : q.earliestChanged t.expiration = true
  · -- armed for the new entry, which is earlier than all others
    have harm : (q.added a t).armed = some t.expiration := if_pos he
    refine .inl ⟨t.expiration, harm, ?_⟩
    rcases hmem with rfl | hmem
    · exact le_refl _
    · unfold earliestChanged at he
      split at he
      · rename_i hnone
        exact absurd hmem (OrderedSet.begin?_eq_none.mp hnone c)
      · rename_i b hb
        exact le_trans (le_of_lt (of_decide_eq_true he))
          (Entry.when_le_of_le (OrderedSet.begin?_le hb hmem))
  · have harm : (q.added a t).armed = q.armed := if_neg he
    have hold : ∀ b ∈ q.timers, b.when ≤ c.when →
        (q.added a t).armedBy c.when ∨ (ahead ∧ 0 < c.when) := by
      intro b hb hle
      refine (hv b hb).imp ?_ fun h => ⟨h.1, lt_of_lt_of_le h.2 hle⟩
      intro h
      have hc := h.mono hle
      simpa only [armedBy, harm] using hc
    rcases hmem with rfl | hmem
    · unfold earliestChanged at he
      split at he
      · exact absurd rfl he
      · rename_i b hb
        refine hold b (OrderedSet.begin?_mem hb) ?_
        exact not_lt.mp fun hlt => he (decide_eq_true hlt)
    · exact hold c hmem (le_refl _)

/-! ### Steps -/

theorem ArmInv.cancelInLoop {held : List Addr} {q' : TimerQueue} {id : TimerId}
    (hv : ArmInv q) (hc : Consistent q held) (hq' : q.cancelInLoop id = .ok q') :
    ArmInv q' := by
  rcases cancelInLoop_cases hc id with ⟨t, _, _, _, heq⟩ | ⟨_, heq⟩
  · obtain rfl := Except.ok.inj (heq.symm.trans hq')
    exact ⟨hv.covered.subset rfl fun c hc => (OrderedSet.mem_erase.mp hc).2, hv.now_pos⟩
  · obtain rfl := Except.ok.inj (heq.symm.trans hq')
    exact ⟨hv.covered.subset rfl fun c hc => hc, hv.now_pos⟩

/-- What `getExpired` leaves is later than `now`. -/
theorem ArmInv.handleReadBegin {q' : TimerQueue} {now : Timestamp} (hi : Inv q)
    (hnow : 0 < now) (hq' : q.handleReadBegin now = .ok q') : ArmInv q' := by
  have hc : Consistent { q with armed := none } q.batchTimers :=
    hi.consistent.congr rfl rfl rfl rfl rfl rfl
  rcases getExpired_cases hc now with herr | ⟨s, heq, _, hlater⟩
  · simp only [TimerQueue.handleReadBegin, herr] at hq'
    cases hq'
  · simp only [TimerQueue.handleReadBegin, heq, ok_bind, pure_eq_ok] at hq'
    obtain rfl := Except.ok.inj hq'
    refine ⟨fun c hc => .inr ⟨Option.some_ne_none _, lt_trans hnow (hlater c hc)⟩, fun b hb => ?_⟩
    cases hb
    exact hnow

theorem ArmInv.runExpired {q' : TimerQueue} (hv : ArmInv q) (hq' : q.runExpired = .ok q') :
    ArmInv q' := by
  unfold TimerQueue.runExpired at hq'
  split at hq'
  · rename_i now ran it rest hb
    obtain ⟨t, _, hq'⟩ := bind_eq_ok.mp hq'
    obtain rfl := Except.ok.inj hq'
    have hcov := hv.covered
    rw [hb] at hcov
    refine ⟨fun c hc => (hcov c hc).imp_right fun h => ⟨Option.some_ne_none _, h.2⟩,
      fun b hb' => ?_⟩
    have hnow := hv.now_pos _ hb
    cases hb'
    exact hnow
  · obtain rfl := Except.ok.inj hq'
    exact hv

/-- A restarted timer expires after `now`; a deleted one needs no arm. -/
theorem Covered.resetOne {held : List Addr} {e : Entry} {rest : List Entry} {now : Timestamp}
    {q' : TimerQueue} (hv : Covered q True) (hnow : 0 < now) (hfit : q.fits now (e :: rest))
    (hc : Consistent q (e.timer :: held)) (hq' : q.resetOne now e = .ok q') :
    Covered q' True := by
  obtain ⟨t, ht, ⟨hrep, hnot, heq⟩ | ⟨_, heq⟩⟩ := resetOne_cases hc now
  · obtain rfl := Except.ok.inj (heq.symm.trans hq')
    intro c hmem
    rcases OrderedSet.mem_insert.mp hmem with rfl | hmem
    · refine .inr ⟨trivial, ?_⟩
      have hfits := hfit e List.mem_cons_self t ht hrep hnot
      change 0 < (t.restart now).expiration
      rw [Timer.restart_expiration hrep hfits]
      exact Int.add_pos_of_pos_of_nonneg hnow hfits.1
    · exact hv c hmem
  · obtain rfl := Except.ok.inj (heq.symm.trans hq')
    exact hv.subset rfl fun c hc => hc

/-- After the last arm of `reset` no entry needs another. -/
theorem Covered.armNext (hv : Covered q True) : Covered q.armedNext False := by
  intro c hc
  change c ∈ q.timers at hc
  left
  cases hb : q.timers.begin? with
  | none => exact absurd hc (OrderedSet.begin?_eq_none.mp hb c)
  | some b =>
    have hle := Entry.when_le_of_le (OrderedSet.begin?_le hb hc)
    refine armedBy.mono ?_ hle
    by_cases hpos : 0 < b.when
    · exact ⟨b.when, by simp only [armedNext, hb, hpos, if_true], le_refl _⟩
    · obtain ⟨e, he, hew⟩ := (hv b (OrderedSet.begin?_mem hb)).resolve_right fun h => hpos h.2
      exact ⟨e, by simp only [armedNext, hb, hpos, if_false, he], hew⟩

theorem ArmInv.handleReadEnd {q' : TimerQueue} (hv : ArmInv q) (hi : Inv q)
    (hfit : q.restartsFit .handleReadEnd) (hq' : q.handleReadEnd = .ok q') : ArmInv q' := by
  by_cases hbatch : ∃ now ran, q.batch = some ⟨now, ran, []⟩
  · obtain ⟨now, ran, hb⟩ := hbatch
    have hv₀ : Covered q.batchDone True :=
      fun c hc => (hv.covered c hc).imp_right fun h => ⟨trivial, h.2⟩
    have hfit₀ : q.batchDone.fits now ran := hfit _ hb
    obtain ⟨q₁, heq, _, hb₁, _, hv₁, -⟩ := handleReadEnd_rule
      (P := fun q rest => Covered q True ∧ q.fits now rest) hi hb
      (fun _ _ _ _ hP hcons hround =>
        ⟨hP.1.resetOne (hv.now_pos _ hb) hP.2 hcons hround, hP.2.resetOne hcons hround⟩)
      ⟨hv₀, hfit₀⟩
    obtain rfl := Except.ok.inj (heq.symm.trans hq')
    refine ⟨fun c hc => (hv₁.armNext c hc).imp_right fun h => h.1.elim, fun b hb' => ?_⟩
    cases hb₁.symm.trans hb'
  · obtain rfl := Except.ok.inj ((handleReadEnd_idle hbatch).symm.trans hq')
    exact hv

/-- `gettimeofday` gives a time after the Epoch. -/
def clockAfterEpoch (_ : TimerQueue) (act : Action) : Prop :=
  ∀ now, act = .handleReadBegin now → 0 < now

instance (q : TimerQueue) : (act : Action) → Decidable (q.clockAfterEpoch act)
  | .handleReadBegin now =>
      decidable_of_iff (0 < now) ⟨fun h _ heq => by cases heq; exact h, fun h => h now rfl⟩
  | .addTimer _ _ _ _ => .isTrue nofun
  | .cancel _ _ => .isTrue nofun
  | .runFunctor => .isTrue nofun
  | .runExpired => .isTrue nofun
  | .handleReadEnd => .isTrue nofun

/-- The condition on the steps of a run: `handleRead` reads a time after the Epoch, and the
    next expirations that it then computes do not overflow. -/
def keepsTime (q : TimerQueue) (act : Action) : Prop := q.clockAfterEpoch act ∧ q.restartsFit act

instance (q : TimerQueue) (act : Action) : Decidable (q.keepsTime act) :=
  inferInstanceAs (Decidable (_ ∧ _))

theorem ArmInv.step {act : Action} {q' : TimerQueue} (hv : ArmInv q) (hi : Inv q)
    (htime : q.keepsTime act) (hst : TimerQueue.system.Step q act q') : ArmInv q' := by
  cases act with
  | addTimer caller timer when interval =>
    have hnew : ArmInv (q.newTimer timer when interval) := ⟨hv.covered, hv.now_pos⟩
    rcases addTimer_cases hi hst.1.2.1 hst.2 with ⟨t, rfl⟩ | rfl
    · exact ⟨hnew.covered.added timer t, hv.now_pos⟩
    · exact ⟨hnew.covered, hnew.now_pos⟩
  | cancel caller id =>
    cases caller with
    | loopThread => exact hv.cancelInLoop hi.consistent hst.2
    | otherThread =>
      obtain rfl := Except.ok.inj hst.2
      exact ⟨hv.covered, hv.now_pos⟩
  | runFunctor =>
    rcases runFunctor_cases hi hst.2 with
      rfl | ⟨timer, rest, t, -, rfl⟩ | ⟨id, rest, -, -, hcons, hq'⟩
    · exact hv
    · have hv₀ : Covered { q with pendingFunctors := rest } (q.batch ≠ none) := hv.covered
      exact ⟨hv₀.added timer t, hv.now_pos⟩
    · have hv₀ : ArmInv { q with pendingFunctors := rest } := ⟨hv.covered, hv.now_pos⟩
      exact hv₀.cancelInLoop hcons hq'
  | handleReadBegin now => exact ArmInv.handleReadBegin hi (htime.1 now rfl) hst.2
  | runExpired => exact hv.runExpired hst.2
  | handleReadEnd => exact hv.handleReadEnd hi htime.2 hst.2

theorem reachable_armInv (h : (TimerQueue.system.restrict keepsTime).Reachable q) :
    Inv q ∧ ArmInv q := by
  refine h.invariant (P := fun q => Inv q ∧ ArmInv q) ?_ ?_
  · rintro s rfl
    exact ⟨new_inv, new_armInv⟩
  · rintro s act s' ⟨hi, hv⟩ hst
    exact ⟨hi.step hst.of_restrict, hv.step hi hst.condition hst.of_restrict⟩

/-! ### `howMuchTimeFromNow` -/

/-- The timespec denotes the difference, or 100 microseconds when that is more. -/
theorem howMuchTimeFromNow_spec {when now : Int} (hlo : -2 ^ 63 ≤ when - now)
    (hhi : when - now < 2 ^ 63) :
    0 ≤ (howMuchTimeFromNow when now).tvNsec ∧ (howMuchTimeFromNow when now).tvNsec < 10 ^ 9 ∧
      (howMuchTimeFromNow when now).tvSec * 10 ^ 9 + (howMuchTimeFromNow when now).tvNsec =
        max (when - now) 100 * 1000 := by
  have hwrap : (when - now).bmod (2 ^ 64) = when - now := bmod_eq_of_fits hlo hhi
  have hmax : (if when - now < 100 then 100 else when - now) = max (when - now) 100 := by
    split <;> omega
  have hnonneg : 0 ≤ max (when - now) 100 := by omega
  simp only [howMuchTimeFromNow, hwrap, hmax, Timestamp.kMicroSecondsPerSecond,
    Int.tdiv_eq_ediv_of_nonneg hnonneg, Int.tmod_eq_emod_of_nonneg hnonneg]
  omega

/-! ### The theorem -/

/-- **Outside `handleRead` the timerfd has been armed since it was last read, and not
    later than for the first entry of `timers_`**, in the runs that keep time; and what it is
    armed with is the time to the expiration, at least 100 microseconds, so never the zero
    that disarms it. -/
theorem timerfd_armed_early (h : (TimerQueue.system.restrict keepsTime).Reachable q)
    (hout : q.batch = none) :
    (∀ b, q.timers.begin? = some b → ∃ t e, q.heap b.timer = some t ∧ q.armed = some e ∧
      e ≤ t.expiration) ∧
    ∀ when now : Timestamp, -2 ^ 63 ≤ when - now → when - now < 2 ^ 63 →
      0 ≤ (howMuchTimeFromNow when now).tvNsec ∧ (howMuchTimeFromNow when now).tvNsec < 10 ^ 9 ∧
        (howMuchTimeFromNow when now).tvSec * 10 ^ 9 + (howMuchTimeFromNow when now).tvNsec =
          max (when - now) 100 * 1000 ∧
        howMuchTimeFromNow when now ≠ ⟨0, 0⟩ := by
  obtain ⟨hi, hv⟩ := reachable_armInv h
  constructor
  · intro b hb
    have hmem := OrderedSet.begin?_mem hb
    obtain ⟨t, ht, hexp, _⟩ := hi.consistent.timers_key b hmem
    obtain ⟨e, he, hle⟩ := (hv.covered b hmem).resolve_right fun h => h.1 hout
    exact ⟨t, e, ht, he, hexp ▸ hle⟩
  · intro when now hlo hhi
    obtain ⟨h₀, h₁, hval⟩ := howMuchTimeFromNow_spec hlo hhi
    refine ⟨h₀, h₁, hval, ?_⟩
    intro hzero
    rw [hzero] at hval
    have hpos : (100 : Int) ≤ max (when - now) 100 := le_max_right _ _
    have hval : (0 : Int) = max (when - now) 100 * 1000 := hval
    omega

/-- A callback that inserts an expired timer and cancels the next one, after which the
    timerfd stays armed for the inserted one. -/
theorem timerfd_armed_early_callback :
    ∃ q, (TimerQueue.system.restrict keepsTime).exec new
        [.addTimer .loopThread 1 10 (Interval.every 5), .addTimer .loopThread 2 30 Interval.once,
         .handleReadBegin 11, .runExpired, .addTimer .loopThread 3 (-4) Interval.once,
         .cancel .loopThread ⟨2, 2⟩, .handleReadEnd] = some q ∧
      (∃ t e, q.heap 3 = some t ∧ q.armed = some e ∧ e ≤ t.expiration) ∧
      howMuchTimeFromNow 5 2000005 = ⟨0, 100000⟩ ∧ howMuchTimeFromNow 5 2000005 ≠ ⟨0, 0⟩ := by
  refine ⟨_, rfl, ?_⟩
  have h := timerfd_armed_early (reachable_of_exec
    [.addTimer .loopThread 1 10 (Interval.every 5), .addTimer .loopThread 2 30 Interval.once,
     .handleReadBegin 11, .runExpired, .addTimer .loopThread 3 (-4) Interval.once,
     .cancel .loopThread ⟨2, 2⟩, .handleReadEnd] rfl rfl) rfl
  exact ⟨h.1 ⟨-4, 3⟩ rfl, by decide, (h.2 5 2000005 (by decide) (by decide)).2.2.2⟩

end Kaycc.TimerQueue
