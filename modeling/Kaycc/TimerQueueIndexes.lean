/-
  Kaycc/TimerQueueIndexes.lean
  ============================
  **`timers_` and `activeTimers_` hold the same timers, every `Timer` is in one
  place, and a cancel touches only its own.**
-/
import Kaycc.TimerQueueOperations

namespace Kaycc.TimerQueue

open Transition Transition.System

variable {q : TimerQueue} {a : Addr} {t : Timer}

/-! ### Ownership -/

/-- The `sequence_`s of the `Timer`s at these addresses. -/
def sequencesAt (q : TimerQueue) (l : List Addr) : List Nat :=
  l.filterMap fun a => (q.heap a).map Timer.sequence

/-- The `sequence_`s of all `Timer`s by the place they are in: a queued add functor,
    `timers_`, the expired batch, deleted. -/
def ownership (q : TimerQueue) : List Nat :=
  q.sequencesAt q.queuedTimers ++ q.sequencesAt (q.timers.toList.map Entry.timer) ++
    q.sequencesAt q.batchTimers ++ q.deletedSequences

theorem mem_sequencesAt {l : List Addr} {n : Nat} :
    n ∈ q.sequencesAt l ↔ ∃ a ∈ l, ∃ t, q.heap a = some t ∧ t.sequence = n := by
  simp only [sequencesAt, List.mem_filterMap, Option.map_eq_some_iff]

theorem Inv.sequencesAt_nodup (hi : Inv q) {l : List Addr} (hl : l.Nodup) :
    (q.sequencesAt l).Nodup := by
  apply hl.filterMap
  intro a a' n ha ha'
  obtain ⟨t, ht, hn⟩ := Option.map_eq_some_iff.mp ha
  obtain ⟨t', ht', hn'⟩ := Option.map_eq_some_iff.mp ha'
  exact hi.consistent.sequences.distinct a a' t t' ht ht' (hn.trans hn'.symm)

theorem ownership_eq (q : TimerQueue) : q.ownership =
    q.sequencesAt (q.queuedTimers ++ q.timers.toList.map Entry.timer ++ q.batchTimers) ++
      q.deletedSequences := by
  simp only [ownership, sequencesAt, List.filterMap_append]

theorem Inv.places_nodup (hi : Inv q) :
    (q.queuedTimers ++ q.timers.toList.map Entry.timer ++ q.batchTimers).Nodup := by
  have hperm : (q.queuedTimers ++ q.timers.toList.map Entry.timer ++ q.batchTimers).Perm
      (q.timers.toList.map Entry.timer ++ (q.queuedTimers ++ q.batchTimers)) := by
    rw [← List.append_assoc]
    exact List.perm_append_comm.append_right _
  refine hperm.nodup_iff.mpr (List.nodup_append.mpr
    ⟨hi.consistent.timers_nodup, hi.consistent.places_nodup, ?_⟩)
  intro b hb c hc hbc
  obtain ⟨e, he, rfl⟩ := List.mem_map.mp hb
  exact hi.consistent.timers_free e he (hbc ▸ hc)

theorem Inv.ownership_nodup (hi : Inv q) : q.ownership.Nodup := by
  rw [ownership_eq]
  refine List.nodup_append.mpr
    ⟨hi.sequencesAt_nodup hi.places_nodup, hi.consistent.sequences.deleted_nodup, ?_⟩
  intro n hn m hm hnm
  obtain ⟨a, _, t, ht, hseq⟩ := mem_sequencesAt.mp hn
  exact hi.consistent.sequences.deleted_dead a t ht (hseq ▸ hnm ▸ hm)

theorem Inv.mem_ownership (hi : Inv q) {n : Nat} :
    n ∈ q.ownership ↔ 0 < n ∧ n ≤ q.numCreated := by
  have hseq := hi.consistent.sequences
  rw [ownership_eq, List.mem_append, mem_sequencesAt]
  constructor
  · rintro (⟨a, _, t, ht, rfl⟩ | hn)
    · exact hseq.numbered a t ht
    · exact ⟨hseq.deleted_pos n hn, hseq.deleted_le n hn⟩
  · rintro ⟨hpos, hle⟩
    rcases hseq.all n hpos hle with hn | ⟨a, t, ht, hn⟩
    · exact .inr hn
    · refine .inl ⟨a, ?_, t, ht, hn⟩
      rcases hi.consistent.placed a t ht with hmem | hmem
      · rcases List.mem_append.mp hmem with hmem | hmem
        · exact List.mem_append_left _ (List.mem_append_left _ hmem)
        · exact List.mem_append_right _ hmem
      · exact List.mem_append_left _ (List.mem_append_right _
          (List.mem_map.mpr ⟨_, hmem, rfl⟩))

/-- The numbers `1 .. numCreated` are owned once each, no other number is. -/
theorem Inv.count_ownership (hi : Inv q) (n : Nat) :
    q.ownership.count n = if 0 < n ∧ n ≤ q.numCreated then 1 else 0 := by
  split
  · rename_i h
    exact List.count_eq_one_of_mem hi.ownership_nodup (hi.mem_ownership.mpr h)
  · rename_i h
    exact List.count_eq_zero.mpr fun hn => h (hi.mem_ownership.mp hn)

/-! ### What a cancel leaves alone -/

/-- A `Timer` before and after a step that does not affect it. -/
structure Untouched (q q' : TimerQueue) (a : Addr) (t : Timer) : Prop where
  object : q'.heap a = some t
  timers : ∀ w, (⟨w, a⟩ : Entry) ∈ q'.timers ↔ (⟨w, a⟩ : Entry) ∈ q.timers
  active : (⟨a, t.sequence⟩ : ActiveTimer) ∈ q'.activeTimers ↔
    (⟨a, t.sequence⟩ : ActiveTimer) ∈ q.activeTimers
  canceling : (⟨a, t.sequence⟩ : ActiveTimer) ∈ q'.cancelingTimers ↔
    (⟨a, t.sequence⟩ : ActiveTimer) ∈ q.cancelingTimers
  queued : q'.queuedTimers = q.queuedTimers
  batch : q'.batch = q.batch
  notDeleted : t.sequence ∉ q'.deletedSequences

theorem cancelInLoop_untouched {held : List Addr} (hc : Consistent q held) {id : TimerId}
    {q' : TimerQueue} (hq' : q.cancelInLoop id = .ok q') (ht : q.heap a = some t)
    (hid : (⟨a, t.sequence⟩ : TimerId) ≠ id) : Untouched q q' a t := by
  have hdead := hc.sequences.deleted_dead a t ht
  rcases cancelInLoop_cases hc id with ⟨u, _, hu, hidu, heq⟩ | ⟨_, heq⟩
  · obtain rfl := Except.ok.inj (heq.symm.trans hq')
    -- another timer is at another address and has another number
    have haddr : a ≠ id.timer := by
      rintro rfl
      obtain rfl : u = t := Option.some.inj (hu.symm.trans ht)
      exact hid hidu.symm
    have hseq : t.sequence ≠ u.sequence :=
      fun h => haddr (hc.sequences.distinct a id.timer t u ht hu h)
    refine ⟨?_, ?_, ?_, Iff.rfl, rfl, rfl, ?_⟩
    · exact (setHeap_other _ _ haddr).trans ht
    · intro w
      change _ ∈ (q.timers.erase _).1 ↔ _
      rw [OrderedSet.mem_erase]
      exact and_iff_right fun h => haddr (congrArg Entry.timer h)
    · change _ ∈ (q.activeTimers.erase _).1 ↔ _
      rw [OrderedSet.mem_erase]
      exact and_iff_right fun h => haddr (congrArg TimerId.timer h)
    · have hdel : (((q.detached id.timer u).deleted id.timer u).record
          (.cancelled id)).deletedSequences = q.deletedSequences ++ [u.sequence] := by
        rw [deletedSequences_record, List.append_nil]
        exact deletedSequences_record _ _
      rw [hdel, List.mem_append, List.mem_singleton]
      exact not_or.mpr ⟨hdead, hseq⟩
  · obtain rfl := Except.ok.inj (heq.symm.trans hq')
    refine ⟨ht, fun _ => Iff.rfl, Iff.rfl, ?_, rfl, rfl, ?_⟩
    · change _ ∈ (if q.callingExpiredTimers = true then _ else _) ↔ _
      split
      · rw [OrderedSet.mem_insert]
        exact or_iff_right hid
      · exact Iff.rfl
    · simpa [record, deletedSequences] using hdead

theorem Inv.cancel_untouched (hi : Inv q) {act : Action} {id : TimerId} {q' : TimerQueue}
    (hcan : q.cancelledBy act = some id) (hst : TimerQueue.system.Step q act q')
    (ht : q.heap a = some t) (hid : (⟨a, t.sequence⟩ : TimerId) ≠ id) : Untouched q q' a t := by
  rcases cancelledBy_cases hcan with rfl | ⟨rfl, rest, hp⟩
  · exact cancelInLoop_untouched hi.consistent hst.2 ht hid
  · have hrest : queuedTimers { q with pendingFunctors := rest } = q.queuedTimers := by
      simp [queuedTimers, hp]
    have hrun : ({ q with pendingFunctors := rest } : TimerQueue).cancelInLoop id = .ok q' := by
      have h : q.runFunctor = .ok q' := hst.2
      simpa only [runFunctor, hp] using h
    have h := cancelInLoop_untouched (hi.consistent.pending hrest) hrun ht hid
    exact { h with queued := h.queued.trans hrest }

/-! ### The theorem -/

/-- **The two indexes and the ownership of `Timer`s are consistent in every reachable
    state, no assertion of the queue fails there (but for the comparison in
    `getExpired`), and a cancel affects no other `Timer`.** -/
theorem indexes_consistent (h : TimerQueue.system.Reachable q) :
    (q.timers.size = q.activeTimers.size ∧
      (∀ e ∈ q.timers, ∃ t, q.heap e.timer = some t ∧ e.when = t.expiration ∧
        (⟨e.timer, t.sequence⟩ : ActiveTimer) ∈ q.activeTimers) ∧
      ∀ i ∈ q.activeTimers, ∃ t, q.heap i.timer = some t ∧ i.sequence = t.sequence ∧
        (⟨t.expiration, i.timer⟩ : Entry) ∈ q.timers) ∧
    (∀ n, q.ownership.count n = if 0 < n ∧ n ≤ q.numCreated then 1 else 0) ∧
    (∀ act, q.enabled act →
      q.step act = .error .expiredBoundary ∨ ∃ q', q.step act = .ok q') ∧
    ∀ act id q', q.cancelledBy act = some id → TimerQueue.system.Step q act q' →
      ∀ a t, q.heap a = some t → (⟨a, t.sequence⟩ : TimerId) ≠ id → Untouched q q' a t := by
  have hi := reachable_inv h
  refine ⟨⟨hi.consistent.sizes, ?_, ?_⟩, hi.count_ownership, ?_, ?_⟩
  · intro e he
    obtain ⟨t, ht, hexp, hact⟩ := hi.consistent.timers_key e he
    exact ⟨t, ht, hexp.symm, hact⟩
  · intro i hmem
    obtain ⟨t, ht, hseq, htim⟩ := hi.consistent.active_key i hmem
    exact ⟨t, ht, hseq.symm, htim⟩
  · intro act hen
    exact (step_ok hi hen).imp_right fun ⟨q', heq, _⟩ => ⟨q', heq⟩
  · intro act id q' hcan hst a t ht hid
    exact hi.cancel_untouched hcan hst ht hid

/-- A repeating timer cancelled in its own callback, a second one still queued, and the
    first one's address used again, after which its id is stale. -/
theorem indexes_consistent_reused_address :
    ∃ q, TimerQueue.system.exec new
        [.addTimer .loopThread 1 10 (Interval.every 5), .addTimer .otherThread 2 12 Interval.once,
         .handleReadBegin 11, .runExpired, .cancel .loopThread ⟨1, 1⟩,
         .addTimer .loopThread 3 50 Interval.once, .handleReadEnd,
         .addTimer .loopThread 1 60 Interval.once, .cancel .loopThread ⟨1, 1⟩] = some q ∧
      q.ownership = [2, 3, 4, 1] ∧ (∀ n, 0 < n → n ≤ 4 → q.ownership.count n = 1) ∧
      ∃ q', q.cancelInLoop ⟨1, 1⟩ = .ok q' ∧ Untouched q q' 1 ⟨60, Interval.once, 4⟩ := by
  refine ⟨_, rfl, rfl, ?_⟩
  have h := indexes_consistent (reachable_of_exec
    [.addTimer .loopThread 1 10 (Interval.every 5), .addTimer .otherThread 2 12 Interval.once,
     .handleReadBegin 11, .runExpired, .cancel .loopThread ⟨1, 1⟩,
     .addTimer .loopThread 3 50 Interval.once, .handleReadEnd,
     .addTimer .loopThread 1 60 Interval.once, .cancel .loopThread ⟨1, 1⟩] rfl rfl)
  refine ⟨?_, _, rfl, ?_⟩
  · intro n hpos hle
    rw [h.2.1 n, if_pos ⟨hpos, hle⟩]
  · exact h.2.2.2 (.cancel .loopThread ⟨1, 1⟩) ⟨1, 1⟩ _ rfl ⟨nofun, rfl⟩ 1 _ rfl
      (by decide)

end Kaycc.TimerQueue
