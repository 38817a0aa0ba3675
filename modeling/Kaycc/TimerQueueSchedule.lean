/-
  Kaycc/TimerQueueSchedule.lean
  =============================
  **`TimerQueue` is a scheduler.**

  The jobs are the `Timer`s and their names the `TimerId`s.  Addresses that are used
  again, keys that repeat what the objects say, the sentinel of `getExpired` and the
  timers that are in no index while `handleRead` has them are all behind `schedule`,
  which shows a queue as a state of `Kaycc.Scheduler`.  A step of the queue is then the
  step of the scheduler that `label` names, or none: another thread has only queued a
  functor.
-/
import Kaycc.Scheduler
import Kaycc.TimerQueueExpired
import Kaycc.TimerQueueFirings

namespace Kaycc.TimerQueue

open Transition Transition.System

variable {q q' : TimerQueue} {held : List Addr} {a : Addr} {t : Timer} {id : TimerId}

instance : Scheduler.Job Timer Timestamp where
  due := Timer.expiration
  renew now t := if t.repeats = true then some (t.restart now) else none

theorem renew_eq_some {now : Timestamp} (h : t.repeats = true) :
    Scheduler.Job.renew now t = some (t.restart now) :=
  if_pos h

theorem renew_eq_none {now : Timestamp} : Scheduler.Job.renew now t = none ↔ t.repeats = false := by
  change (if t.repeats = true then some (t.restart now) else none) = none ↔ _
  cases t.repeats <;> simp

/-! ### The queue as a scheduler -/

/-- The `Timer`s at these addresses, under their ids. -/
def timersAt (q : TimerQueue) (l : List Addr) : List (TimerId × Timer) :=
  l.filterMap fun a => (q.heap a).map fun t => (⟨a, t.sequence⟩, t)

def schedule (q : TimerQueue) : Scheduler.State TimerId Timer Timestamp where
  waiting := {x | x.1 ∈ q.activeTimers ∧ q.heap x.1.timer = some x.2}
  round := q.batch.map fun b =>
    { now := b.now
      ran := q.timersAt (b.ran.map Entry.timer)
      todo := q.timersAt (b.todo.map Entry.timer)
      cancelled := {id | id ∈ q.cancelingTimers} }

/-- The step of the scheduler that a step of the queue is. -/
def label (q : TimerQueue) : Action → List (Scheduler.Label TimerId Timer Timestamp)
  | .addTimer .loopThread timer when interval =>
      [.add ⟨timer, q.numCreated + 1⟩ ⟨when, interval, q.numCreated + 1⟩]
  | .cancel .loopThread id => [.cancel id]
  | .addTimer .otherThread _ _ _ | .cancel .otherThread _ => []
  | .runFunctor => match q.pendingFunctors with
      | .addTimerInLoop timer :: _ => (q.timersAt [timer]).map fun x => .add x.1 x.2
      | .cancelInLoop id :: _ => [.cancel id]
      | [] => []
  | .handleReadBegin now => [.begin now]
  | .runExpired => match q.batch with
      | some ⟨_, _, it :: _⟩ => (q.timersAt [it.timer]).map fun x => .start x.1
      | _ => []
  | .handleReadEnd => [.finish]

theorem timersAt_cons (h : q.heap a = some t) (l : List Addr) :
    q.timersAt (a :: l) = (⟨a, t.sequence⟩, t) :: q.timersAt l :=
  List.filterMap_cons_some (by rw [h, Option.map_some])

theorem timersAt_append (q : TimerQueue) (l m : List Addr) :
    q.timersAt (l ++ m) = q.timersAt l ++ q.timersAt m :=
  List.filterMap_append

theorem timersAt_congr {l : List Addr} (h : ∀ b ∈ l, q'.heap b = q.heap b) :
    q'.timersAt l = q.timersAt l :=
  List.filterMap_congr fun b hb => by rw [h b hb]

theorem mem_timersAt {l : List Addr} {x : TimerId × Timer} : x ∈ q.timersAt l ↔
    x.1.timer ∈ l ∧ q.heap x.1.timer = some x.2 ∧ x.2.sequence = x.1.sequence := by
  simp only [timersAt, List.mem_filterMap, Option.map_eq_some_iff]
  constructor
  · rintro ⟨b, hb, u, hu, rfl⟩
    exact ⟨hb, hu, rfl⟩
  · rintro ⟨hmem, hheap, hseq⟩
    refine ⟨x.1.timer, hmem, x.2, hheap, ?_⟩
    rw [hseq]

theorem timersAt_nodup {l : List Addr} (hl : l.Nodup) : ((q.timersAt l).map Prod.fst).Nodup := by
  rw [timersAt, List.map_filterMap]
  apply hl.filterMap
  intro b c i hb hc
  simp only [Option.map_map, Option.mem_def, Option.map_eq_some_iff] at hb hc
  obtain ⟨u, -, rfl⟩ := hb
  obtain ⟨v, -, heq⟩ := hc
  exact (congrArg TimerId.timer heq).symm

theorem schedule_jobs {r : Scheduler.Round TimerId Timer Timestamp}
    (h : q.schedule.round = some r) : r.jobs = q.timersAt q.batchTimers := by
  obtain ⟨b, hb, rfl⟩ := Option.map_eq_some_iff.mp h
  simp only [Scheduler.Round.jobs, batchTimers, hb, List.map_append, timersAt_append]

/-! ### What does not change it -/

theorem waiting_congr (ha : q'.activeTimers = q.activeTimers)
    (hh : ∀ i ∈ q.activeTimers, q'.heap i.timer = q.heap i.timer) :
    q'.schedule.waiting = q.schedule.waiting := by
  ext x
  change x.1 ∈ q'.activeTimers ∧ q'.heap x.1.timer = some x.2 ↔ _
  rw [ha]
  exact and_congr_right fun hx => by rw [hh x.1 hx]

theorem round_congr (hb : q'.batch = q.batch) (hcancel : q'.cancelingTimers = q.cancelingTimers)
    (hh : ∀ b ∈ q.batchTimers, q'.heap b = q.heap b) :
    q'.schedule.round = q.schedule.round := by
  simp only [schedule, hb, hcancel]
  cases hbatch : q.batch with
  | none => rfl
  | some b =>
    simp only [batchTimers, hbatch, List.map_append] at hh
    rw [Option.map_some, Option.map_some,
      timersAt_congr fun c hc => hh c (List.mem_append_left _ hc),
      timersAt_congr fun c hc => hh c (List.mem_append_right _ hc)]

/-- `new Timer` at a free address. -/
theorem heap_newTimer {b : Addr} (hfree : q.heap a = none) (when : Timestamp) (interval : Interval)
    (hb : ∃ t, q.heap b = some t) : (q.newTimer a when interval).heap b = q.heap b := by
  refine setHeap_other q _ ?_
  rintro rfl
  obtain ⟨t, ht⟩ := hb
  cases hfree.symm.trans ht

theorem schedule_newTimer (hi : Inv q) (hfree : q.heap a = none) (when : Timestamp)
    (interval : Interval) : (q.newTimer a when interval).schedule = q.schedule := by
  refine congrArg₂ Scheduler.State.mk (waiting_congr rfl fun i hmem => ?_)
    (round_congr rfl rfl fun b hb => ?_)
  · obtain ⟨t, ht, -⟩ := hi.consistent.active_key i hmem
    exact heap_newTimer hfree when interval ⟨t, ht⟩
  · apply heap_newTimer hfree
    exact hi.consistent.places_live b (List.mem_append_right _ hb)

/-! ### Adding -/

/-- A held timer has no name in the scheduler. -/
theorem absent_of_held (hc : Consistent q (a :: held)) (hheld : held = q.batchTimers) (n : Nat) :
    q.schedule.Absent ⟨a, n⟩ where
  waiting := fun _ h => hc.held_inactive n h.1
  round := by
    intro r hr hmem
    rw [schedule_jobs hr, List.mem_map] at hmem
    obtain ⟨x, hx, heq⟩ := hmem
    have hbatch : x.1.timer ∈ held := hheld ▸ (mem_timersAt.mp hx).1
    rw [heq] at hbatch
    have hnodup := (List.nodup_append.mp hc.places_nodup).2.1
    exact (List.nodup_cons.mp hnodup).1 hbatch

theorem waiting_indexed (ht : q.heap a = some t) :
    (q.indexed a t).schedule.waiting = Insert.insert (⟨a, t.sequence⟩, t) q.schedule.waiting := by
  ext x
  change x.1 ∈ (q.activeTimers.insert ⟨a, t.sequence⟩).1 ∧ q.heap x.1.timer = some x.2 ↔
    x = (⟨a, t.sequence⟩, t) ∨ x.1 ∈ q.activeTimers ∧ q.heap x.1.timer = some x.2
  rw [OrderedSet.mem_insert, or_and_right]
  apply or_congr_left
  constructor
  · rintro ⟨hid, hheap⟩
    rw [hid] at hheap
    exact Prod.ext hid (Option.some.inj (hheap.symm.trans ht))
  · rintro rfl
    exact ⟨rfl, ht⟩

theorem schedule_added (hc : Consistent q (a :: q.batchTimers)) (ht : q.heap a = some t) :
    Scheduler.Step q.schedule (.add ⟨a, t.sequence⟩ t) (q.added a t).schedule := by
  have hadded : (q.added a t).schedule =
      { q.schedule with waiting := Insert.insert (⟨a, t.sequence⟩, t) q.schedule.waiting } :=
    congrArg₂ Scheduler.State.mk (waiting_indexed ht) rfl
  rw [hadded]
  exact .add (absent_of_held hc rfl t.sequence)

/-! ### Cancelling -/

/-- A timer that waits is removed; any other is noted, if there is a round. -/
theorem schedule_cancelInLoop (hc : Consistent q q.batchTimers)
    (hcalling : q.callingExpiredTimers = true ↔ q.batch ≠ none)
    (hq' : q.cancelInLoop id = .ok q') :
    Scheduler.Step q.schedule (.cancel id) q'.schedule := by
  have hframe := frame_cancelInLoop hc hq'
  rcases cancelInLoop_cases hc id with ⟨t, hact, ht, hid, heq⟩ | ⟨hnot, heq⟩
  · obtain rfl := Except.ok.inj (heq.symm.trans hq')
    have hwaiting : (((q.detached id.timer t).deleted id.timer t).record
        (.cancelled id)).schedule.waiting = {x ∈ q.schedule.waiting | x.1 ≠ id} := by
      ext x
      change x.1 ∈ (q.activeTimers.erase ⟨id.timer, t.sequence⟩).1 ∧
        Function.update q.heap id.timer none x.1.timer = some x.2 ↔
        (x.1 ∈ q.activeTimers ∧ q.heap x.1.timer = some x.2) ∧ x.1 ≠ id
      rw [← hid, OrderedSet.mem_erase]
      -- another timer in the indexes is at another address
      have haddr : x.1 ∈ q.activeTimers → x.1 ≠ id → x.1.timer ≠ id.timer := by
        intro hx hne htimer
        obtain ⟨u, hu, hseq, -⟩ := hc.active_key x.1 hx
        obtain rfl : u = t := Option.some.inj (hu.symm.trans (htimer ▸ ht))
        apply hne
        rw [hid, hseq, ← htimer]
      constructor
      · rintro ⟨⟨hne, hx⟩, hheap⟩
        rw [Function.update_of_ne (haddr hx hne)] at hheap
        exact ⟨⟨hx, hheap⟩, hne⟩
      · rintro ⟨⟨hx, hheap⟩, hne⟩
        refine ⟨⟨hne, hx⟩, ?_⟩
        rwa [Function.update_of_ne (haddr hx hne)]
    have hround := round_congr hframe.batch rfl hframe.held
    rw [show (((q.detached id.timer t).deleted id.timer t).record (.cancelled id)).schedule =
      { q.schedule with waiting := {x ∈ q.schedule.waiting | x.1 ≠ id} } from
        congrArg₂ Scheduler.State.mk hwaiting hround]
    exact .remove ⟨hact, ht⟩
  · obtain rfl := Except.ok.inj (heq.symm.trans hq')
    have hnote := Scheduler.Step.note (s := q.schedule) (n := id) fun _ h => hnot h.1
    convert hnote using 1
    refine congrArg₂ Scheduler.State.mk rfl ?_
    cases hb : q.batch with
    | none => simp only [schedule, record, hb, Option.map_none]
    | some b =>
      have hcall : q.callingExpiredTimers = true := hcalling.mpr (by simp [hb])
      simp only [schedule, record, hb, hcall, if_true, Option.map_some, OrderedSet.mem_insert]
      rfl

/-! ### `handleRead` -/

/-- The `Timer`s of entries whose keys are their own, in the order of the entries. -/
theorem due_timersAt {l : List Entry}
    (hl : ∀ e ∈ l, ∃ t, q.heap e.timer = some t ∧ t.expiration = e.when) :
    (q.timersAt (l.map Entry.timer)).map (fun x => x.2.expiration) = l.map Entry.when := by
  induction l with
  | nil => rfl
  | cons e rest ih =>
    obtain ⟨t, ht, hexp⟩ := hl e List.mem_cons_self
    rw [List.map_cons, List.map_cons, timersAt_cons ht, List.map_cons, hexp,
      ih fun e' he' => hl e' (List.mem_cons_of_mem _ he')]

/-- `getExpired` detaches the `Timer`s that are due. -/
theorem mem_timersAt_expired {now : Timestamp} (hc : Consistent q held)
    (hlater : q.boundaryLater now) (x : TimerId × Timer) :
    x ∈ q.timersAt ((q.expired now).map Entry.timer) ↔
      x ∈ q.schedule.waiting ∧ x.2.expiration ≤ now := by
  have hbelow := boundaryLater_iff.mp hlater
  rw [mem_timersAt]
  constructor
  · rintro ⟨hmem, hheap, hseq⟩
    obtain ⟨e, he, heq⟩ := List.mem_map.mp hmem
    obtain ⟨hin, hlt⟩ := OrderedSet.mem_before.mp he
    obtain ⟨t, ht, hexp, hact⟩ := hc.timers_key e hin
    rw [heq] at ht hact
    obtain rfl := Option.some.inj (ht.symm.trans hheap)
    refine ⟨⟨?_, hheap⟩, hexp ▸ (hbelow.lt_iff hin).mp hlt⟩
    rw [hseq] at hact
    exact hact
  · rintro ⟨⟨hact, hheap⟩, hle⟩
    obtain ⟨t, ht, hseq, htim⟩ := hc.active_key x.1 hact
    obtain rfl := Option.some.inj (ht.symm.trans hheap)
    refine ⟨List.mem_map.mpr ⟨_, OrderedSet.mem_before.mpr ⟨htim, ?_⟩, rfl⟩, hheap, hseq⟩
    exact (hbelow.lt_iff htim).mpr hle

theorem sorted_timersAt_expired (hc : Consistent q held) (now : Timestamp) :
    ((q.timersAt ((q.expired now).map Entry.timer)).map fun x =>
      Scheduler.Job.due x.2).Pairwise (· ≤ ·) := by
  have hkeyed : ∀ e ∈ q.expired now, ∃ t, q.heap e.timer = some t ∧ t.expiration = e.when := by
    intro e he
    obtain ⟨t, ht, hexp, -⟩ := hc.timers_key e (OrderedSet.mem_before.mp he).1
    exact ⟨t, ht, hexp⟩
  have hsorted : (q.expired now).Pairwise (· < ·) := OrderedSet.before_sorted _ _
  change ((q.timersAt ((q.expired now).map Entry.timer)).map fun x => x.2.expiration).Pairwise _
  rw [due_timersAt hkeyed]
  exact List.pairwise_map.mpr (hsorted.imp fun h => Entry.when_le_of_le (le_of_lt h))

theorem schedule_detached {now : Timestamp} {s : OrderedSet ActiveTimer} (hi : Inv q)
    (hb : q.batch = none) (hlater : q.boundaryLater now)
    (hs : ∀ i, i ∈ s ↔ i ∈ q.activeTimers ∧ i.timer ∉ (q.expired now).map Entry.timer) :
    Scheduler.Step q.schedule (.begin now)
      (schedule { q.remaining now s with
        armed := none
        callingExpiredTimers := true
        cancelingTimers := OrderedSet.empty
        batch := some ⟨now, [], q.expired now⟩ }) := by
  have hdue := mem_timersAt_expired hi.consistent hlater
  have hround : q.schedule.round = none := by simp only [schedule, hb, Option.map_none]
  have hstep := Scheduler.Step.begin hround hdue
    (timersAt_nodup (hi.consistent.expired_nodup now)) (sorted_timersAt_expired hi.consistent now)
  convert hstep using 1
  refine congrArg₂ Scheduler.State.mk ?_ ?_
  · ext x
    change x.1 ∈ s ∧ q.heap x.1.timer = some x.2 ↔ x ∈ q.schedule.waiting ∧ now < x.2.expiration
    rw [hs, ← not_le]
    constructor
    · rintro ⟨⟨hact, hnot⟩, hheap⟩
      refine ⟨⟨hact, hheap⟩, fun hle => hnot ?_⟩
      exact (mem_timersAt.mp ((hdue x).mpr ⟨⟨hact, hheap⟩, hle⟩)).1
    · rintro ⟨⟨hact, hheap⟩, hlt⟩
      obtain ⟨t, ht, hseq, -⟩ := hi.consistent.active_key x.1 hact
      obtain rfl := Option.some.inj (ht.symm.trans hheap)
      refine ⟨⟨hact, fun hmem => hlt ?_⟩, hheap⟩
      exact ((hdue x).mp (mem_timersAt.mpr ⟨hmem, hheap, hseq⟩)).2
  · refine congrArg some (congrArg₂ (Scheduler.Round.mk now []) rfl ?_)
    exact Set.eq_empty_of_forall_notMem fun i => OrderedSet.notMem_empty i

theorem schedule_started {now : Timestamp} {ran rest : List Entry} {it : Entry}
    (hb : q.batch = some ⟨now, ran, it :: rest⟩) (ht : q.heap it.timer = some t) :
    Scheduler.Step q.schedule (.start ⟨it.timer, t.sequence⟩)
      (schedule { q.record (.started ⟨it.timer, t.sequence⟩) with
        batch := some ⟨now, ran ++ [it], rest⟩ }) := by
  have hround : q.schedule.round = some
      ⟨now, q.timersAt (ran.map Entry.timer), q.timersAt (it.timer :: rest.map Entry.timer),
        {id | id ∈ q.cancelingTimers}⟩ := by
    simp only [schedule, hb, Option.map_some, List.map_cons]
  have hstep := Scheduler.Step.start hround (timersAt_cons ht _)
  convert hstep using 1
  refine congrArg₂ Scheduler.State.mk rfl (congrArg some ?_)
  simp only [List.map_append, timersAt_append, List.map_singleton]
  exact congrArg (fun l => Scheduler.Round.mk now (_ ++ l) _ _) (timersAt_cons ht [])

/-- One round of `reset` puts the next timer's renewal among those that wait. -/
theorem schedule_resetOne {now : Timestamp} {e : Entry} {rest : List Entry}
    (hc : Consistent q (e.timer :: (rest.map Entry.timer ++ held)))
    (hq' : q.resetOne now e = .ok q') :
    q'.cancelingTimers = q.cancelingTimers ∧
    q'.schedule.waiting ∪ Scheduler.renewed now {id | id ∈ q'.cancelingTimers}
        (q'.timersAt (rest.map Entry.timer)) =
      q.schedule.waiting ∪ Scheduler.renewed now {id | id ∈ q.cancelingTimers}
        (q.timersAt ((e :: rest).map Entry.timer)) := by
  have hnodup := (List.nodup_append.mp hc.places_nodup).2.1
  have hrest : ∀ b ∈ rest.map Entry.timer, b ≠ e.timer := by
    rintro b hb rfl
    exact (List.nodup_cons.mp hnodup).1 (List.mem_append_left _ hb)
  have hactive : ∀ i ∈ q.activeTimers, i.timer ≠ e.timer := by
    rintro i hi heq
    apply hc.held_inactive i.sequence
    rw [← heq]
    exact hi
  have hother : ∀ o, (∀ i ∈ q.activeTimers, (q.setHeap e.timer o).heap i.timer = q.heap i.timer) ∧
      (q.setHeap e.timer o).timersAt (rest.map Entry.timer) = q.timersAt (rest.map Entry.timer) :=
    fun o => ⟨fun i hi => setHeap_other q o (hactive i hi),
      timersAt_congr fun b hb => setHeap_other q o (hrest b hb)⟩
  obtain ⟨t, ht, ⟨hrep, hnot, heq⟩ | ⟨hover, heq⟩⟩ := resetOne_cases hc now
  · obtain rfl := Except.ok.inj (heq.symm.trans hq')
    have hsame : (q.setHeap e.timer (some (t.restart now))).schedule.waiting = q.schedule.waiting :=
      waiting_congr rfl (hother _).1
    have hwaiting := waiting_indexed (setHeap_same q e.timer (some (t.restart now)))
    rw [hsame, Timer.restart_sequence] at hwaiting
    have htimers : ((q.setHeap e.timer (some (t.restart now))).indexed e.timer
        (t.restart now)).timersAt (rest.map Entry.timer) = q.timersAt (rest.map Entry.timer) :=
      (hother _).2
    refine ⟨rfl, ?_⟩
    rw [hwaiting, htimers, List.map_cons, timersAt_cons ht,
      Scheduler.renewed_cons_some _ hnot (renew_eq_some hrep), Set.union_insert, Set.insert_union]
    rfl
  · obtain rfl := Except.ok.inj (heq.symm.trans hq')
    have hwaiting : (q.deleted e.timer t).schedule.waiting = q.schedule.waiting :=
      waiting_congr rfl (hother none).1
    have htimers : (q.deleted e.timer t).timersAt (rest.map Entry.timer) =
        q.timersAt (rest.map Entry.timer) := (hother none).2
    have hnone : Scheduler.Job.renew now t = none ∨
        (⟨e.timer, t.sequence⟩ : TimerId) ∈ {id | id ∈ q.cancelingTimers} := by
      rw [renew_eq_none]
      by_cases hrep : t.repeats = true
      · exact .inr (not_not.mp fun hnot => hover ⟨hrep, hnot⟩)
      · exact .inl (Bool.eq_false_iff.mpr hrep)
    refine ⟨rfl, ?_⟩
    rw [hwaiting, htimers, List.map_cons, timersAt_cons ht, Scheduler.renewed_cons_none _ hnone]
    rfl

theorem schedule_handleReadEnd {now : Timestamp} {ran : List Entry} (hi : Inv q)
    (hb : q.batch = some ⟨now, ran, []⟩) (hq' : q.handleReadEnd = .ok q') :
    Scheduler.Step q.schedule .finish q'.schedule := by
  have hround : q.schedule.round = some
      ⟨now, q.timersAt (ran.map Entry.timer), [], {id | id ∈ q.cancelingTimers}⟩ := by
    simp only [schedule, hb, Option.map_some]
    rfl
  obtain ⟨q₁, heq, -, hb₁, -, hwaiting⟩ := handleReadEnd_rule
    (P := fun q₁ rest => q₁.schedule.waiting ∪ Scheduler.renewed now
        {id | id ∈ q₁.cancelingTimers} (q₁.timersAt (rest.map Entry.timer)) =
      q.schedule.waiting ∪ Scheduler.renewed now {id | id ∈ q.cancelingTimers}
        (q.timersAt (ran.map Entry.timer))) hi hb
    (fun _ _ _ _ hP hc hone => (schedule_resetOne hc hone).2.trans hP) rfl
  obtain rfl := Except.ok.inj (heq.symm.trans hq')
  have hstep := Scheduler.Step.finish hround rfl
  convert hstep using 1
  refine congrArg₂ Scheduler.State.mk ?_ ?_
  · refine Eq.trans ?_ hwaiting
    exact (Set.union_empty _).symm.trans (congrArg _ (Scheduler.renewed_nil _ _).symm)
  · change q₁.batch.map _ = none
    rw [hb₁]
    rfl

/-! ### Every step -/

/-- **What a step does**, and what it says. -/
inductive Move (q : TimerQueue) :
    Action → List (Scheduler.Label TimerId Timer Timestamp) → TimerQueue → Prop where
  | adds {a : Addr} {when : Timestamp} {interval : Interval} (hfree : q.heap a = none) :
      Move q (.addTimer .loopThread a when interval)
        [.add ⟨a, q.numCreated + 1⟩ ⟨when, interval, q.numCreated + 1⟩]
        ((q.newTimer a when interval).added a ⟨when, interval, q.numCreated + 1⟩)
  | queuesAdd {a : Addr} {when : Timestamp} {interval : Interval} (hfree : q.heap a = none) :
      Move q (.addTimer .otherThread a when interval) []
        ((q.newTimer a when interval).queueFunctor (.addTimerInLoop a))
  | cancels {id : TimerId} {q' : TimerQueue} (hq' : q.cancelInLoop id = .ok q') :
      Move q (.cancel .loopThread id) [.cancel id] q'
  | queuesCancel {id : TimerId} :
      Move q (.cancel .otherThread id) [] (q.queueFunctor (.cancelInLoop id))
  | callsAdd {a : Addr} {t : Timer} {rest : List Functor}
      (hp : q.pendingFunctors = .addTimerInLoop a :: rest) (ht : q.heap a = some t) :
      Move q .runFunctor [.add ⟨a, t.sequence⟩ t] (added { q with pendingFunctors := rest } a t)
  | callsCancel {id : TimerId} {rest : List Functor} {q' : TimerQueue}
      (hp : q.pendingFunctors = .cancelInLoop id :: rest)
      (hq' : cancelInLoop { q with pendingFunctors := rest } id = .ok q') :
      Move q .runFunctor [.cancel id] q'
  | detaches {now : Timestamp} {s : OrderedSet ActiveTimer} (hb : q.batch = none)
      (hlater : q.boundaryLater now)
      (hs : ∀ i, i ∈ s ↔ i ∈ q.activeTimers ∧ i.timer ∉ (q.expired now).map Entry.timer) :
      Move q (.handleReadBegin now) [.begin now]
        { q.remaining now s with
          armed := none
          callingExpiredTimers := true
          cancelingTimers := OrderedSet.empty
          batch := some ⟨now, [], q.expired now⟩ }
  | starts {now : Timestamp} {ran rest : List Entry} {it : Entry} {t : Timer}
      (hb : q.batch = some ⟨now, ran, it :: rest⟩) (ht : q.heap it.timer = some t) :
      Move q .runExpired [.start ⟨it.timer, t.sequence⟩]
        { q.record (.started ⟨it.timer, t.sequence⟩) with batch := some ⟨now, ran ++ [it], rest⟩ }
  | resets {now : Timestamp} {ran : List Entry} {q' : TimerQueue}
      (hb : q.batch = some ⟨now, ran, []⟩) (hq' : q.handleReadEnd = .ok q') :
      Move q .handleReadEnd [.finish] q'

theorem Inv.move {act : Action} (hi : Inv q) (hst : system.Step q act q') :
    Move q act (q.label act) q' := by
  have hen : q.enabled act := hst.1
  have heq : q.step act = .ok q' := hst.2
  cases act with
  | addTimer caller timer when interval =>
    cases caller with
    | loopThread =>
      have hc := hi.consistent.newTimer hen.2.1 when interval
      have hat := setHeap_same q timer (some ⟨when, interval, q.numCreated + 1⟩)
      obtain rfl := Except.ok.inj ((addTimerInLoop_eq hc hat).symm.trans heq)
      exact .adds hen.2.1
    | otherThread =>
      obtain rfl := Except.ok.inj heq
      exact .queuesAdd hen.2.1
  | cancel caller id =>
    cases caller with
    | loopThread => exact .cancels heq
    | otherThread =>
      obtain rfl := Except.ok.inj heq
      exact .queuesCancel
  | runFunctor =>
    cases hp : q.pendingFunctors with
    | nil => exact absurd hp hen.2
    | cons f rest =>
      simp only [TimerQueue.step, runFunctor, hp] at heq
      simp only [label, hp]
      cases f with
      | addTimerInLoop timer =>
        have hc := hi.consistent.dequeued hp
        obtain ⟨t, ht⟩ := hc.held_live
        obtain rfl := Except.ok.inj ((addTimerInLoop_eq hc ht).symm.trans heq)
        have hat : q.timersAt [timer] = [(⟨timer, t.sequence⟩, t)] := timersAt_cons ht []
        simp only [hat]
        exact .callsAdd hp ht
      | cancelInLoop id => exact .callsCancel hp heq
  | handleReadBegin now =>
    have hc : Consistent { q with armed := none } q.batchTimers :=
      hi.consistent.congr rfl rfl rfl rfl rfl rfl
    by_cases hlater : q.boundaryLater now
    · obtain ⟨s, hgot, hr, -⟩ := getExpired_ok hc (show boundaryLater _ now from hlater)
      simp only [TimerQueue.step, handleReadBegin, hgot, ok_bind, pure_eq_ok] at heq
      obtain rfl := Except.ok.inj heq
      exact .detaches hen hlater (hc.mem_remaining hr)
    · rcases getExpired_cases hc now with herr | ⟨s, -, -, hlt⟩
      · simp only [TimerQueue.step, handleReadBegin, herr] at heq
        cases heq
      · exact absurd (fun it hit => hlt it (OrderedSet.begin?_mem hit)) hlater
  | runExpired =>
    obtain ⟨⟨now, ran, todo⟩, hb, hne⟩ := hen
    cases todo with
    | nil => exact absurd rfl hne
    | cons it rest =>
      have hmem : it.timer ∈ q.batchTimers := by simp [batchTimers, hb]
      obtain ⟨t, ht⟩ := hi.consistent.places_live _ (List.mem_append_right _ hmem)
      obtain rfl := Except.ok.inj ((runExpired_eq hb ht).symm.trans heq)
      simp only [label, hb, timersAt_cons ht]
      exact .starts hb ht
  | handleReadEnd =>
    obtain ⟨⟨now, ran, todo⟩, hb, htodo⟩ := hen
    obtain rfl : todo = [] := htodo
    exact .resets hb heq

/-- **The simulation.** -/
theorem schedule_step {act : Action} (hi : Inv q) (hst : system.Step q act q') :
    Path Scheduler.Step q.schedule (q.label act) q'.schedule := by
  have hmove := hi.move hst
  generalize q.label act = ls at hmove
  cases hmove with
  | @adds a when interval hfree =>
    have hadd := schedule_added (hi.consistent.newTimer hfree when interval) (setHeap_same q a _)
    rw [schedule_newTimer hi hfree] at hadd
    exact .single hadd
  | @queuesAdd a when interval hfree =>
    have hnew : ((q.newTimer a when interval).queueFunctor (.addTimerInLoop a)).schedule =
        q.schedule := schedule_newTimer hi hfree when interval
    rw [hnew]
    exact .nil _
  | cancels hq' => exact .single (schedule_cancelInLoop hi.consistent hi.calling hq')
  | queuesCancel => exact .nil _
  | @callsAdd a t rest hp ht =>
    exact .single (schedule_added (q := { q with pendingFunctors := rest })
      (hi.consistent.dequeued hp) ht)
  | @callsCancel id rest _ hp hq' =>
    exact .single (schedule_cancelInLoop (q := { q with pendingFunctors := rest })
      (hi.consistent.pending (by simp [queuedTimers, hp])) hi.calling hq')
  | detaches hb hlater hs => exact .single (schedule_detached hi hb hlater hs)
  | starts hb ht => exact .single (schedule_started hb ht)
  | resets hb hq' => exact .single (schedule_handleReadEnd hi hb hq')

/-! ### The starts and the cancels -/

def Event.isCall : Event → Bool
  | .started _ | .cancelled _ => true
  | .created _ | .deleted _ => false

/-- The starts and the cancels, in their order. -/
def calls (q : TimerQueue) : List Event := q.log.filter Event.isCall

def labelEvent : Scheduler.Label TimerId Timer Timestamp → Option Event
  | .start id => some (.started id)
  | .cancel id => some (.cancelled id)
  | .add _ _ | .begin _ | .finish => none

theorem calls_record (q : TimerQueue) (e : Event) :
    (q.record e).calls = q.calls ++ [e].filter Event.isCall :=
  List.filter_append _ _

theorem calls_deleted (q : TimerQueue) (a : Addr) (t : Timer) :
    (q.deleted a t).calls = q.calls := by
  rw [deleted, calls_record]
  exact List.append_nil _

theorem calls_cancelInLoop (hc : Consistent q held) (hq' : q.cancelInLoop id = .ok q') :
    q'.calls = q.calls ++ [.cancelled id] := by
  rcases cancelInLoop_cases hc id with ⟨t, -, -, -, heq⟩ | ⟨-, heq⟩
  · obtain rfl := Except.ok.inj (heq.symm.trans hq')
    rw [calls_record, calls_deleted]
    rfl
  · obtain rfl := Except.ok.inj (heq.symm.trans hq')
    exact calls_record _ _

theorem calls_resetOne {now : Timestamp} {e : Entry} (hc : Consistent q (e.timer :: held))
    (hq' : q.resetOne now e = .ok q') : q'.calls = q.calls := by
  obtain ⟨t, -, ⟨-, -, heq⟩ | ⟨-, heq⟩⟩ := resetOne_cases hc now
  · obtain rfl := Except.ok.inj (heq.symm.trans hq')
    rfl
  · obtain rfl := Except.ok.inj (heq.symm.trans hq')
    exact calls_deleted q _ t

theorem calls_step {act : Action} (hi : Inv q) (hst : system.Step q act q') :
    q'.calls = q.calls ++ (q.label act).filterMap labelEvent := by
  have hmove := hi.move hst
  generalize q.label act = ls at hmove
  have hnew : ∀ a when interval, (q.newTimer a when interval).calls = q.calls ++ [] :=
    fun a when interval => calls_record (q.setHeap a _) _
  cases hmove with
  | adds | queuesAdd => exact hnew _ _ _
  | cancels hq' => exact calls_cancelInLoop hi.consistent hq'
  | queuesCancel | callsAdd | detaches => exact (List.append_nil _).symm
  | @callsCancel id rest _ hp hq' =>
    exact calls_cancelInLoop (q := { q with pendingFunctors := rest })
      (hi.consistent.pending (by simp [queuedTimers, hp])) hq'
  | starts => exact calls_record q _
  | resets hb hq' =>
    obtain ⟨q₁, heq, -, -, -, hcalls⟩ := handleReadEnd_rule
      (P := fun q₁ _ => q₁.calls = q.calls) hi hb
      (fun _ _ _ _ hP hc hone => (calls_resetOne hc hone).trans hP) rfl
    obtain rfl := Except.ok.inj (heq.symm.trans hq')
    exact hcalls.trans (List.append_nil _).symm

/-! ### The timers that have not been added yet -/

/-- The ids of the `Timer`s whose `addTimerInLoop` waits. -/
def queuedIds (q : TimerQueue) : List TimerId := (q.timersAt q.queuedTimers).map Prod.fst

/-- What `addTimer` returns, and the interval it was given. -/
def createdBy (q : TimerQueue) : Action → List (TimerId × Interval)
  | .addTimer _ timer _ interval => [(⟨timer, q.numCreated + 1⟩, interval)]
  | _ => []

/-- The queued `Timer`s are not touched. -/
structure QueuedSame (q q' : TimerQueue) : Prop where
  queued : q'.queuedTimers = q.queuedTimers
  heap : ∀ b ∈ q.queuedTimers, q'.heap b = q.heap b

theorem QueuedSame.ids (h : QueuedSame q q') : q'.queuedIds = q.queuedIds := by
  rw [queuedIds, h.queued, timersAt_congr h.heap]
  rfl

theorem queuedSame_deleted (hc : Consistent q (a :: held)) :
    QueuedSame q (q.deleted a t) where
  queued := rfl
  heap := by
    intro b hb
    refine setHeap_other q none ?_
    rintro rfl
    exact (List.nodup_append.mp hc.places_nodup).2.2 b hb b List.mem_cons_self rfl

theorem queuedSame_cancelInLoop (hc : Consistent q held) (hq' : q.cancelInLoop id = .ok q') :
    QueuedSame q q' := by
  rcases cancelInLoop_cases hc id with ⟨t, hact, ht, hid, heq⟩ | ⟨-, heq⟩
  · obtain rfl := Except.ok.inj (heq.symm.trans hq')
    have h := queuedSame_deleted (t := t) (hc.detached ht (hid ▸ hact))
    exact ⟨h.queued, h.heap⟩
  · obtain rfl := Except.ok.inj (heq.symm.trans hq')
    exact ⟨rfl, fun _ _ => rfl⟩

theorem queuedSame_resetOne {now : Timestamp} {e : Entry} (hc : Consistent q (e.timer :: held))
    (hq' : q.resetOne now e = .ok q') : QueuedSame q q' := by
  obtain ⟨t, ht, ⟨-, -, heq⟩ | ⟨-, heq⟩⟩ := resetOne_cases hc now
  · obtain rfl := Except.ok.inj (heq.symm.trans hq')
    refine ⟨rfl, fun b hb => setHeap_other q _ ?_⟩
    rintro rfl
    exact (List.nodup_append.mp hc.places_nodup).2.2 _ hb _ List.mem_cons_self rfl
  · obtain rfl := Except.ok.inj (heq.symm.trans hq')
    exact queuedSame_deleted hc

theorem QueuedSame.trans {q'' : TimerQueue} (h : QueuedSame q q') (h' : QueuedSame q' q'') :
    QueuedSame q q'' where
  queued := h'.queued.trans h.queued
  heap := fun b hb => (h'.heap b (h.queued ▸ hb)).trans (h.heap b hb)

/-- A timer that is created is added at once or queued, and a queued one is added. -/
theorem queuedIds_step {act : Action} (hi : Inv q) (hst : system.Step q act q') :
    (Scheduler.added (q.label act) ++ q'.queuedIds).Perm
      (q.queuedIds ++ (q.createdBy act).map Prod.fst) := by
  have hmove := hi.move hst
  have hsame : ∀ {q'}, QueuedSame q q' → q'.queuedIds.Perm (q.queuedIds ++ []) := by
    intro q' h
    rw [h.ids, List.append_nil]
  have hnew : ∀ {a}, q.heap a = none → ∀ when interval,
      QueuedSame q (q.newTimer a when interval) := by
    refine fun hfree when interval => ⟨rfl, fun b hb => heap_newTimer hfree when interval ?_⟩
    exact hi.consistent.places_live b (List.mem_append_left _ hb)
  generalize q.label act = ls at hmove
  cases hmove with
  | @adds a when interval hfree =>
    have h := (hnew hfree when interval).ids
    change ([_] ++ (q.newTimer a when interval).queuedIds).Perm _
    rw [h]
    exact List.perm_append_comm
  | @queuesAdd a when interval hfree =>
    have hqueued : ((q.newTimer a when interval).queueFunctor (.addTimerInLoop a)).queuedTimers =
        q.queuedTimers ++ [a] := by
      simp [queueFunctor, queuedTimers, newTimer, record, setHeap]
    have hids : ((q.newTimer a when interval).queueFunctor (.addTimerInLoop a)).queuedIds =
        q.queuedIds ++ [⟨a, q.numCreated + 1⟩] := by
      rw [queuedIds, hqueued, timersAt_append, List.map_append]
      refine congrArg₂ (· ++ ·) (hnew hfree when interval).ids ?_
      exact congrArg (List.map Prod.fst) (timersAt_cons (setHeap_same q a _) [])
    rw [hids]
    exact .refl _
  | cancels hq' => exact hsame (queuedSame_cancelInLoop hi.consistent hq')
  | queuesCancel => exact hsame ⟨by simp [queuedTimers, queueFunctor], fun _ _ => rfl⟩
  | @callsAdd a t rest hp ht =>
    have hqueued : q.queuedTimers = a :: queuedTimers { q with pendingFunctors := rest } := by
      simp [queuedTimers, hp]
    have hids : q.queuedIds = ⟨a, t.sequence⟩ ::
        queuedIds { q with pendingFunctors := rest } := by
      rw [queuedIds, hqueued, timersAt_cons ht]
      rfl
    rw [hids]
    exact (List.append_nil _).symm ▸ .refl _
  | @callsCancel id rest _ hp hq' =>
    have hqueued : queuedTimers { q with pendingFunctors := rest } = q.queuedTimers := by
      simp [queuedTimers, hp]
    have h := queuedSame_cancelInLoop (q := { q with pendingFunctors := rest })
      (hi.consistent.pending hqueued) hq'
    exact hsame ⟨h.queued.trans hqueued, fun b hb => h.heap b (hqueued ▸ hb)⟩
  | detaches | starts => exact hsame ⟨rfl, fun _ _ => rfl⟩
  | resets hb hq' =>
    obtain ⟨q₁, heq, -, -, -, h⟩ := handleReadEnd_rule (P := fun q₁ _ => QueuedSame q q₁) hi hb
      (fun _ _ _ _ hP hc hone => hP.trans (queuedSame_resetOne hc hone)) ⟨rfl, fun _ _ => rfl⟩
    obtain rfl := Except.ok.inj (heq.symm.trans hq')
    exact hsame ⟨h.queued, h.heap⟩

/-! ### The theorem -/

/-- What a run says to the scheduler. -/
def labels (as : List Action) : List (Scheduler.Label TimerId Timer Timestamp) :=
  system.trace label new as

/-- The ids that `addTimer` returned in a run, with the intervals it was given. -/
def created (as : List Action) : List (TimerId × Interval) := system.trace createdBy new as

theorem labels_snoc {as : List Action} (h : system.Run new as q) (act : Action) :
    labels (as ++ [act]) = labels as ++ q.label act :=
  h.trace_snoc

theorem created_snoc {as : List Action} (h : system.Run new as q) (act : Action) :
    created (as ++ [act]) = created as ++ q.createdBy act :=
  h.trace_snoc

theorem schedule_new : new.schedule = Scheduler.State.empty := by
  refine congrArg₂ Scheduler.State.mk ?_ rfl
  exact Set.eq_empty_of_forall_notMem fun x hx => OrderedSet.notMem_empty x.1 hx.1

theorem inv_of_run {as : List Action} (h : system.Run new as q) : Inv q :=
  h.preserves (fun _ _ _ => Inv.step) new_inv

theorem path_of_run {as : List Action} (h : system.Run new as q) :
    Path Scheduler.Step Scheduler.State.empty (labels as) q.schedule := by
  rw [← schedule_new]
  exact h.simulates (fun _ _ _ => Inv.step) (fun _ _ _ => schedule_step) new_inv

theorem calls_of_run {as : List Action} (h : system.Run new as q) :
    q.calls = (labels as).filterMap labelEvent := by
  induction h with
  | nil => rfl
  | snoc hrun hst ih =>
    rw [calls_step (inv_of_run hrun) hst, ih, labels_snoc hrun, List.filterMap_append]

theorem queuedIds_of_run {as : List Action} (h : system.Run new as q) :
    (Scheduler.added (labels as) ++ q.queuedIds).Perm ((created as).map Prod.fst) := by
  induction h with
  | nil => exact .refl _
  | @snoc q q' as act hrun hst ih =>
    rw [labels_snoc hrun, created_snoc hrun, Scheduler.added_append, List.append_assoc,
      List.map_append]
    have hstep := queuedIds_step (inv_of_run hrun) hst
    refine (hstep.append_left _).trans ?_
    rw [← List.append_assoc]
    exact ih.append_right _

/-- **`TimerQueue` refines the scheduler.**  Seen through `schedule`, every run of the queue
    is a run of the scheduler, in which the same timers are started and cancelled in the
    same order; and each timer that `addTimer` has created is in it added once, or its
    `addTimerInLoop` is still queued. -/
theorem refines_scheduler {as : List Action} (h : system.Run new as q) :
    Path Scheduler.Step Scheduler.State.empty (labels as) q.schedule ∧
    q.calls = (labels as).filterMap labelEvent ∧
    (Scheduler.added (labels as) ++ q.queuedIds).Perm ((created as).map Prod.fst) :=
  ⟨path_of_run h, calls_of_run h, queuedIds_of_run h⟩

/-- A timer that repeats is cancelled in its own callback, and its address used again. -/
theorem refines_scheduler_reused_address :
    ∃ q, Path Scheduler.Step Scheduler.State.empty
        [.add ⟨16, 1⟩ ⟨1000, .every 500, 1⟩, .begin 1000, .start ⟨16, 1⟩, .cancel ⟨16, 1⟩,
          .finish, .add ⟨16, 2⟩ ⟨3000, .once, 2⟩] (schedule q) ∧
      q.calls = [.started ⟨16, 1⟩, .cancelled ⟨16, 1⟩] := by
  let as : List Action := [.addTimer .loopThread 16 1000 (.every 500), .handleReadBegin 1000,
    .runExpired, .cancel .loopThread ⟨16, 1⟩, .handleReadEnd, .addTimer .loopThread 16 3000 .once]
  have hexec : (system.exec new as).any (fun _ => true) = true := by decide
  have hlabels : labels as = [.add ⟨16, 1⟩ ⟨1000, .every 500, 1⟩, .begin 1000, .start ⟨16, 1⟩,
      .cancel ⟨16, 1⟩, .finish, .add ⟨16, 2⟩ ⟨3000, .once, 2⟩] := by decide
  obtain ⟨q, hrun, -⟩ := exists_run_of_exec_any hexec
  obtain ⟨hpath, hcalls, -⟩ := refines_scheduler hrun
  rw [hlabels] at hpath hcalls
  exact ⟨q, hpath, hcalls⟩

end Kaycc.TimerQueue
