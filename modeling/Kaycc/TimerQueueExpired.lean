/-
  Kaycc/TimerQueueExpired.lean
  ============================
  **`getExpired` splits the timers at `now`, up to the sentinel.**

  `lower_bound` is asked for the pair of `now` and the address 2^32 - 1, which is
  the largest address only where an address has 32 bits.  An entry that expires
  at `now` itself lies before that pair exactly when its timer lies below the
  address.  So the split is at `now` when all such timers do (`splits_iff`), and
  otherwise the assertion on the boundary entry fails.
-/
import Kaycc.TimerQueueOperations

namespace Kaycc.TimerQueue

open Transition Transition.System

variable {q : TimerQueue} {held : List Addr} {now : Timestamp}

/-! ### The sentinel -/

/-- The timers that expire at `now` lie below the sentinel's address. -/
def BelowSentry (q : TimerQueue) (now : Timestamp) : Prop :=
  ∀ e ∈ q.timers, e.when = now → e.timer < UINTPTR_MAX

theorem lt_sentry_iff {e : Entry} :
    e < ⟨now, UINTPTR_MAX⟩ ↔ e.when < now ∨ e.when = now ∧ e.timer < UINTPTR_MAX :=
  Entry.lt_iff

theorem BelowSentry.lt_iff (h : q.BelowSentry now) {e : Entry} (he : e ∈ q.timers) :
    e < ⟨now, UINTPTR_MAX⟩ ↔ e.when ≤ now := by
  rw [lt_sentry_iff]
  constructor
  · rintro (hlt | ⟨heq, -⟩)
    · exact le_of_lt hlt
    · exact le_of_eq heq
  · intro hle
    rcases lt_or_eq_of_le hle with hlt | heq
    · exact .inl hlt
    · exact .inr ⟨heq, h e he heq⟩

/-- The assertion on the boundary entry holds exactly when no timer that expires at `now`
    is left behind. -/
theorem boundaryLater_iff : q.boundaryLater now ↔ q.BelowSentry now := by
  constructor
  · intro hlater e he heq
    by_contra hnot
    have hfrom : e ∈ q.timers.fromLowerBound ⟨now, UINTPTR_MAX⟩ := by
      refine OrderedSet.mem_from.mpr ⟨he, fun hlt => ?_⟩
      rcases lt_sentry_iff.mp hlt with hlt | ⟨-, hlt⟩
      · exact ne_of_lt hlt heq
      · exact hnot hlt
    cases hb : (q.timers.fromLowerBound ⟨now, UINTPTR_MAX⟩).begin? with
    | none => exact OrderedSet.begin?_eq_none.mp hb e hfrom
    | some it =>
      have hle := Entry.when_le_of_le (OrderedSet.begin?_le hb hfrom)
      exact absurd (hlater it hb) (not_lt.mpr (heq ▸ hle))
  · intro hbelow it hb
    obtain ⟨hit, hnot⟩ := OrderedSet.mem_from.mp (OrderedSet.begin?_mem hb)
    exact not_le.mp fun hle => hnot ((hbelow.lt_iff hit).mpr hle)

/-! ### The split -/

/-- `getExpired(now)` ends, returns in order the entries that expire up to `now`, and leaves
    the later ones; what it returns leaves `activeTimers_`, and the rest is untouched. -/
def SplitsAt (q : TimerQueue) (now : Timestamp) : Prop :=
  ∃ q' expired, q.getExpired now = .ok (q', expired) ∧
    expired = q.timers.toList.filter (fun e => e.when ≤ now) ∧
    q'.timers.toList = q.timers.toList.filter (fun e => now < e.when) ∧
    (∀ i, i ∈ q'.activeTimers ↔ i ∈ q.activeTimers ∧ i.timer ∉ expired.map Entry.timer) ∧
    q' = { q with timers := q'.timers, activeTimers := q'.activeTimers }

/-- What is left in `activeTimers_`. -/
theorem Consistent.mem_remaining (hc : Consistent q held) {s : OrderedSet ActiveTimer}
    (hr : Consistent (q.remaining now s) ((q.expired now).map Entry.timer ++ held))
    (i : ActiveTimer) :
    i ∈ s ↔ i ∈ q.activeTimers ∧ i.timer ∉ (q.expired now).map Entry.timer := by
  constructor
  · intro hi
    obtain ⟨t, ht, hseq, htim⟩ := hr.active_key i hi
    obtain ⟨hfrom, -⟩ := OrderedSet.mem_from.mp htim
    obtain ⟨u, hu, -, hact⟩ := hc.timers_key _ hfrom
    obtain rfl : u = t := Option.some.inj (hu.symm.trans ht)
    refine ⟨?_, fun hmem => hr.timers_free _ htim ?_⟩
    · rw [hseq] at hact
      exact hact
    · exact List.mem_append_right _ (List.mem_append_left _ hmem)
  · rintro ⟨hi, hnot⟩
    obtain ⟨t, ht, hseq, htim⟩ := hc.active_key i hi
    have hfrom : (⟨t.expiration, i.timer⟩ : Entry) ∈ (q.remaining now s).timers := by
      refine OrderedSet.mem_from.mpr ⟨htim, fun hlt => hnot ?_⟩
      exact List.mem_map.mpr ⟨_, OrderedSet.mem_before.mpr ⟨htim, hlt⟩, rfl⟩
    obtain ⟨u, hu, -, hact⟩ := hr.timers_key _ hfrom
    obtain rfl : u = t := Option.some.inj (hu.symm.trans ht)
    rw [hseq] at hact
    exact hact

/-- **`getExpired` splits the timers at `now` if and only if every timer that expires at
    `now` lies below the sentinel's address.** -/
theorem getExpired_splits_iff (hc : Consistent q held) (now : Timestamp) :
    q.SplitsAt now ↔ q.BelowSentry now := by
  constructor
  · rintro ⟨q', expired, heq, -⟩
    rw [← boundaryLater_iff]
    by_contra hbound
    have hcheck : check (∀ it, (q.timers.fromLowerBound ⟨now, UINTPTR_MAX⟩).begin? = some it →
        now < it.when) .expiredBoundary = .error .expiredBoundary := if_neg hbound
    simp only [getExpired, check_eq_ok hc.sizes, ok_bind, hcheck] at heq
    cases heq
  · intro hbelow
    obtain ⟨s, heq, hr, -⟩ := getExpired_ok hc (boundaryLater_iff.mpr hbelow)
    refine ⟨_, _, heq, ?_, ?_, hc.mem_remaining hr, rfl⟩
    · exact OrderedSet.before_eq_filter fun e he => hbelow.lt_iff he
    · refine OrderedSet.from_eq_filter fun e he => ?_
      rw [hbelow.lt_iff he, not_le]

/-- Two timers expire at `now`, a third one later. -/
theorem getExpired_splits_two :
    ∃ q, system.Reachable q ∧ q.timers.toList = [⟨1000, 8⟩, ⟨1000, 16⟩, ⟨2000, 24⟩] ∧
      q.SplitsAt 1000 := by
  have hrun : ∃ q, system.Reachable q ∧ q.timers.toList = [⟨1000, 8⟩, ⟨1000, 16⟩, ⟨2000, 24⟩] :=
    ⟨_, reachable_of_exec [.addTimer .loopThread 16 1000 Interval.once,
      .addTimer .loopThread 24 2000 Interval.once, .addTimer .loopThread 8 1000 Interval.once]
      rfl rfl, rfl⟩
  obtain ⟨q, hq, htimers⟩ := hrun
  refine ⟨q, hq, htimers, (getExpired_splits_iff (reachable_inv hq).consistent 1000).mpr ?_⟩
  intro e he _
  rw [OrderedSet.mem_def, htimers] at he
  revert he e
  decide

/-- A timer at the address 2^32 expires at `now`: the assertion on the boundary fails. -/
theorem getExpired_above_sentry :
    ∃ q, system.Reachable q ∧ q.timers.toList = [⟨1000, 4294967296⟩] ∧
      q.getExpired 1000 = .error .expiredBoundary ∧ ¬ q.SplitsAt 1000 := by
  have hrun : ∃ q, system.Reachable q ∧ q.timers.toList = [⟨1000, 4294967296⟩] ∧
      q.getExpired 1000 = .error .expiredBoundary :=
    ⟨_, reachable_of_exec [.addTimer .loopThread 4294967296 1000 Interval.once] rfl rfl, rfl, rfl⟩
  obtain ⟨q, hq, htimers, herr⟩ := hrun
  refine ⟨q, hq, htimers, herr, ?_⟩
  rintro ⟨q', expired, heq, -⟩
  cases herr.symm.trans heq

end Kaycc.TimerQueue
