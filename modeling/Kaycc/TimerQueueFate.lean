/-
  Kaycc/TimerQueueFate.lean
  =========================
  **No timer is lost, and `handleRead` starts those that are due.**

  Both are read off the scheduler that the queue refines.  What a `Timer` has been
  created with is not in its id, so it is carried along the run: of every live `Timer`,
  and of every one that was added, the interval is the one that `addTimer` was given.
-/
import Kaycc.TimerQueueSchedule

namespace Kaycc.TimerQueue

open Transition Transition.System

variable {q q' : TimerQueue} {held : List Addr} {a : Addr} {t : Timer} {id : TimerId}
  {as : List Action}

/-! ### What the timers were created with -/

/-- Every live `Timer` was there before, with its interval. -/
structure Kept (q q' : TimerQueue) : Prop where
  live : ∀ a t', q'.heap a = some t' →
    ∃ t, q.heap a = some t ∧ t.sequence = t'.sequence ∧ t.interval = t'.interval
  numCreated : q'.numCreated = q.numCreated

theorem Kept.of_heap (hh : q'.heap = q.heap) (hn : q'.numCreated = q.numCreated) : Kept q q' where
  live := fun _ t' h => ⟨t', hh ▸ h, rfl, rfl⟩
  numCreated := hn

theorem Kept.trans {q'' : TimerQueue} (h : Kept q q') (h' : Kept q' q'') : Kept q q'' where
  live := by
    intro a t'' ht''
    obtain ⟨t', ht', hseq', hint'⟩ := h'.live a t'' ht''
    obtain ⟨t, ht, hseq, hint⟩ := h.live a t' ht'
    exact ⟨t, ht, hseq.trans hseq', hint.trans hint'⟩
  numCreated := h'.numCreated.trans h.numCreated

theorem kept_deleted (q : TimerQueue) (a : Addr) (t : Timer) : Kept q (q.deleted a t) where
  live := by
    intro b t' hb
    have hba : b ≠ a := by
      rintro rfl
      cases (setHeap_same q b none).symm.trans hb
    exact ⟨t', (setHeap_other q none hba).symm.trans hb, rfl, rfl⟩
  numCreated := rfl

theorem kept_cancelInLoop (hc : Consistent q held) (hq' : q.cancelInLoop id = .ok q') :
    Kept q q' := by
  rcases cancelInLoop_cases hc id with ⟨t, -, -, -, heq⟩ | ⟨-, heq⟩
  · obtain rfl := Except.ok.inj (heq.symm.trans hq')
    have h := kept_deleted (q.detached id.timer t) id.timer t
    exact ⟨h.live, h.numCreated⟩
  · obtain rfl := Except.ok.inj (heq.symm.trans hq')
    exact .of_heap rfl rfl

theorem kept_resetOne {now : Timestamp} {e : Entry} (hc : Consistent q (e.timer :: held))
    (hq' : q.resetOne now e = .ok q') : Kept q q' := by
  obtain ⟨t, ht, ⟨-, -, heq⟩ | ⟨-, heq⟩⟩ := resetOne_cases hc now
  · obtain rfl := Except.ok.inj (heq.symm.trans hq')
    refine ⟨fun b t' hb => ?_, rfl⟩
    by_cases hba : b = e.timer
    · subst hba
      obtain rfl := Option.some.inj ((setHeap_same q _ _).symm.trans hb)
      exact ⟨t, ht, (Timer.restart_sequence t now).symm, (Timer.restart_interval t now).symm⟩
    · exact ⟨t', (setHeap_other q _ hba).symm.trans hb, rfl, rfl⟩
  · obtain rfl := Except.ok.inj (heq.symm.trans hq')
    exact kept_deleted q _ t

structure CreatedInv (as : List Action) (q : TimerQueue) : Prop where
  live : ∀ a t, q.heap a = some t → (⟨a, t.sequence⟩, t.interval) ∈ created as
  jobs : ∀ id t, .add id t ∈ labels as → (id, t.interval) ∈ created as
  numbered : ∀ x ∈ created as, 0 < x.1.sequence ∧ x.1.sequence ≤ q.numCreated
  nodup : ((created as).map fun x => x.1.sequence).Nodup

/-- A step that creates nothing; what it adds was live. -/
theorem CreatedInv.kept {act : Action} (h : CreatedInv as q) (hrun : system.Run new as q)
    (hcreated : q.createdBy act = [])
    (hadds : ∀ id t, .add id t ∈ q.label act → q.heap id.timer = some t ∧ t.sequence = id.sequence)
    (hk : Kept q q') : CreatedInv (as ++ [act]) q' := by
  have hsame : created (as ++ [act]) = created as := by
    rw [created_snoc hrun, hcreated, List.append_nil]
  refine ⟨fun a t' ht' => ?_, fun id t hadd => ?_, fun x hx => ?_, hsame ▸ h.nodup⟩
  · obtain ⟨t, ht, hseq, hint⟩ := hk.live a t' ht'
    rw [hsame, ← hseq, ← hint]
    exact h.live a t ht
  · rw [hsame]
    rw [labels_snoc hrun] at hadd
    rcases List.mem_append.mp hadd with hold | hnew
    · exact h.jobs id t hold
    · obtain ⟨ht, hseq⟩ := hadds id t hnew
      have hlive := h.live id.timer t ht
      rwa [hseq] at hlive
  · rw [hk.numCreated]
    exact h.numbered x (hsame ▸ hx)

theorem CreatedInv.newTimer {act : Action} {when : Timestamp} {interval : Interval}
    (h : CreatedInv as q) (hrun : system.Run new as q)
    (hcreated : q.createdBy act = [(⟨a, q.numCreated + 1⟩, interval)])
    (hadds : ∀ id t, .add id t ∈ q.label act →
      id = ⟨a, q.numCreated + 1⟩ ∧ t.interval = interval)
    (hheap : q'.heap = (q.newTimer a when interval).heap)
    (hnum : q'.numCreated = q.numCreated + 1) : CreatedInv (as ++ [act]) q' := by
  have happ : created (as ++ [act]) = created as ++ [(⟨a, q.numCreated + 1⟩, interval)] := by
    rw [created_snoc hrun, hcreated]
  refine ⟨fun b t hb => ?_, fun id t hadd => ?_, fun x hx => ?_, ?_⟩
  · rw [happ]
    rw [hheap] at hb
    by_cases hba : b = a
    · subst hba
      obtain rfl := Option.some.inj ((setHeap_same q b _).symm.trans hb)
      exact List.mem_append_right _ List.mem_cons_self
    · exact List.mem_append_left _ (h.live b t ((setHeap_other q _ hba).symm.trans hb))
  · rw [happ]
    rw [labels_snoc hrun] at hadd
    rcases List.mem_append.mp hadd with hold | hnew
    · exact List.mem_append_left _ (h.jobs id t hold)
    · obtain ⟨rfl, hint⟩ := hadds id t hnew
      rw [hint]
      exact List.mem_append_right _ List.mem_cons_self
  · rw [hnum]
    rw [happ] at hx
    rcases List.mem_append.mp hx with hx | hx
    · exact (h.numbered x hx).imp_right Nat.le_succ_of_le
    · obtain rfl := List.mem_singleton.mp hx
      exact ⟨Nat.succ_pos _, Nat.le_refl _⟩
  · rw [happ, List.map_append]
    refine List.nodup_append.mpr ⟨h.nodup, List.nodup_singleton _, fun n hn m hm heq => ?_⟩
    obtain ⟨x, hx, rfl⟩ := List.mem_map.mp hn
    rw [List.mem_singleton.mp hm] at heq
    exact absurd (h.numbered x hx).2 (by rw [heq]; exact Nat.not_succ_le_self _)

theorem new_createdInv : CreatedInv [] new where
  live := fun _ _ h => by cases h
  jobs := fun _ _ h => by cases h
  numbered := fun _ h => by cases h
  nodup := List.nodup_nil

theorem createdInv_of_run (h : system.Run new as q) : CreatedInv as q := by
  induction h with
  | nil => exact new_createdInv
  | @snoc q q' as act hrun hst ih =>
    have hi := inv_of_run hrun
    have hmove := hi.move hst
    generalize hls : q.label act = ls at hmove
    have hnone : ∀ {ls' : List (Scheduler.Label TimerId Timer Timestamp)},
        q.label act = ls' → (∀ id t, .add id t ∉ ls') →
        ∀ id t, .add id t ∈ q.label act → q.heap id.timer = some t ∧ t.sequence = id.sequence :=
      fun heq hno id t hadd => absurd (heq ▸ hadd) (hno id t)
    cases hmove with
    | adds hfree =>
      refine ih.newTimer hrun rfl (fun id t hadd => ?_) rfl rfl
      rw [hls] at hadd
      cases List.mem_singleton.mp hadd
      exact ⟨rfl, rfl⟩
    | queuesAdd hfree =>
      refine ih.newTimer hrun rfl (fun id t hadd => ?_) rfl rfl
      rw [hls] at hadd
      cases hadd
    | cancels hq' =>
      exact ih.kept hrun rfl (hnone hls (by simp)) (kept_cancelInLoop hi.consistent hq')
    | queuesCancel => exact ih.kept hrun rfl (hnone hls (by simp)) (.of_heap rfl rfl)
    | callsAdd hp ht =>
      refine ih.kept hrun rfl (fun id t hadd => ?_) (.of_heap rfl rfl)
      rw [hls] at hadd
      cases List.mem_singleton.mp hadd
      exact ⟨ht, rfl⟩
    | @callsCancel id rest _ hp hq' =>
      have hk := kept_cancelInLoop (q := { q with pendingFunctors := rest })
        (hi.consistent.pending (by simp [queuedTimers, hp])) hq'
      exact ih.kept hrun rfl (hnone hls (by simp)) ⟨hk.live, hk.numCreated⟩
    | detaches | starts => exact ih.kept hrun rfl (hnone hls (by simp)) (.of_heap rfl rfl)
    | resets hb hq' =>
      obtain ⟨q₁, heq, -, -, -, hk⟩ := handleReadEnd_rule (P := fun q₁ _ => Kept q q₁) hi hb
        (fun _ _ _ _ hP hc hone => hP.trans (kept_resetOne hc hone)) (.of_heap rfl rfl)
      obtain rfl := Except.ok.inj (heq.symm.trans hq')
      exact ih.kept hrun rfl (hnone hls (by simp)) ⟨hk.live, hk.numCreated⟩

/-- A number belongs to one id. -/
theorem CreatedInv.eq (h : CreatedInv as q) {x y : TimerId × Interval} (hx : x ∈ created as)
    (hy : y ∈ created as) (heq : x.1.sequence = y.1.sequence) : x = y :=
  List.inj_on_of_nodup_map h.nodup hx hy heq

theorem CreatedInv.ids_nodup (h : CreatedInv as q) : ((created as).map Prod.fst).Nodup := by
  have hmap : (created as).map (fun x => x.1.sequence) =
      ((created as).map Prod.fst).map TimerId.sequence := List.map_map.symm
  have hnodup := h.nodup
  rw [hmap] at hnodup
  exact hnodup.of_map

/-! ### The starts -/

/-- The ids whose callbacks have been started, in this order. -/
def startedIds (q : TimerQueue) : List TimerId :=
  q.log.filterMap fun
    | .started id => some id
    | _ => none

theorem startedIds_of_run (h : system.Run new as q) :
    q.startedIds = Scheduler.started (labels as) := by
  have hcalls : q.startedIds = q.calls.filterMap fun
      | .started id => some id
      | _ => none := by
    rw [calls, List.filterMap_filter]
    apply List.filterMap_congr
    intro e _
    cases e <;> rfl
  rw [hcalls, calls_of_run h, List.filterMap_filterMap]
  apply List.filterMap_congr
  intro l _
  cases l <;> rfl

theorem cancelled_of_label (h : system.Run new as q) (hcancel : .cancel id ∈ labels as) :
    .cancelled id ∈ q.log := by
  have hcalls : .cancelled id ∈ q.calls := by
    rw [calls_of_run h]
    exact List.mem_filterMap.mpr ⟨_, hcancel, rfl⟩
  exact (List.mem_filter.mp hcalls).1

/-! ### No timer is lost -/

theorem interval_of_descends {t' : Timer} (h : Scheduler.Descends t t') :
    t'.interval = t.interval := by
  induction h with
  | refl => rfl
  | @tail u v _ hrenew ih =>
    obtain ⟨now, hnow⟩ := hrenew
    by_cases hrep : u.repeats = true
    · obtain rfl := Option.some.inj ((renew_eq_some hrep).symm.trans hnow)
      exact (Timer.restart_interval u now).trans ih
    · cases (renew_eq_none.mpr (Bool.eq_false_iff.mpr hrep)).symm.trans hnow

theorem once_iff : Scheduler.Once t ↔ t.interval.positive = false :=
  ⟨fun h => renew_eq_none.mp (h 0), fun h _ => renew_eq_none.mpr h⟩

theorem schedule_round {r : Scheduler.Round TimerId Timer Timestamp}
    (h : q.schedule.round = some r) :
    r.ran = q.timersAt q.alreadyRun ∧ r.todo = q.timersAt q.notYetRun := by
  obtain ⟨b, hb, rfl⟩ := Option.map_eq_some_iff.mp h
  simp only [alreadyRun, notYetRun, hb, and_self]

theorem Inv.notRun_of_todo (hi : Inv q) (h : a ∈ q.notYetRun) : a ∉ q.alreadyRun := by
  have hnodup := (List.nodup_append.mp hi.consistent.places_nodup).2.1
  rw [batchTimers_eq] at hnodup
  exact fun hran => List.disjoint_of_nodup_append hnodup hran h

theorem Inv.notRun_of_queued (hi : Inv q) (h : a ∈ q.queuedTimers) : a ∉ q.alreadyRun := by
  intro hran
  refine List.disjoint_of_nodup_append hi.consistent.places_nodup h ?_
  rw [batchTimers_eq]
  exact List.mem_append_left _ hran

theorem Inv.notRun_of_active (hi : Inv q) (h : id ∈ q.activeTimers) :
    id.timer ∉ q.alreadyRun := by
  intro hran
  obtain ⟨t, -, -, htim⟩ := hi.consistent.active_key id h
  refine hi.consistent.timers_free _ htim (List.mem_append_right _ ?_)
  rw [batchTimers_eq]
  exact List.mem_append_left _ hran

/-- A live `Timer` whose addition has been run has its name in the scheduler. -/
theorem Inv.not_absent (hi : Inv q) (ht : q.heap id.timer = some t) (hseq : t.sequence = id.sequence)
    (hqueued : id.timer ∉ q.queuedTimers) : ¬ q.schedule.Absent id := by
  intro habsent
  rcases hi.consistent.placed id.timer t ht with hmem | hmem
  · have hbatch := (List.mem_append.mp hmem).resolve_left hqueued
    cases hb : q.batch with
    | none =>
      rw [batchTimers, hb] at hbatch
      cases hbatch
    | some b =>
      have hround : ∃ r, q.schedule.round = some r := ⟨_, by rw [schedule, hb, Option.map_some]⟩
      obtain ⟨r, hr⟩ := hround
      refine habsent.round r hr (List.mem_map.mpr ⟨(id, t), ?_, rfl⟩)
      rw [schedule_jobs hr]
      exact mem_timersAt.mpr ⟨hbatch, ht, hseq⟩
  · obtain ⟨u, hu, -, hact⟩ := hi.consistent.timers_key _ hmem
    obtain rfl := Option.some.inj (hu.symm.trans ht)
    rw [hseq] at hact
    exact habsent.waiting u ⟨hact, ht⟩

/-- **No timer is lost.**  Of every timer that `addTimer` has created and `cancelInLoop`
    was not executed for: either it is alive, with its interval; if it does not repeat, its
    callback has not been started, or once in the batch being processed.  Or it does not
    repeat, its callback has been started exactly once, and it is deleted. -/
theorem not_lost {interval : Interval} (h : system.Run new as q)
    (hid : (id, interval) ∈ created as) (hnot : .cancelled id ∉ q.log) :
    (∃ t, q.heap id.timer = some t ∧ t.sequence = id.sequence ∧ t.interval = interval ∧
      (interval.positive = false →
        q.startedIds.count id = if id.timer ∈ q.alreadyRun then 1 else 0)) ∨
    (interval.positive = false ∧ id.sequence ∈ q.deletedSequences ∧
      q.startedIds.count id = 1) := by
  have hi := inv_of_run h
  have hcreated := createdInv_of_run h
  have hperm := queuedIds_of_run h
  have hnodup := hperm.nodup_iff.mpr hcreated.ids_nodup
  have hlive : ∀ {t}, q.heap id.timer = some t → t.sequence = id.sequence →
      t.interval = interval := by
    intro t ht hseq
    have hmem := hcreated.live id.timer t ht
    exact congrArg Prod.snd (hcreated.eq hmem hid hseq)
  rw [startedIds_of_run h]
  rcases List.mem_append.mp (hperm.mem_iff.mpr (List.mem_map.mpr ⟨_, hid, rfl⟩)) with hadded | hq
  · obtain ⟨t₀, hadd⟩ := Scheduler.mem_added.mp hadded
    obtain rfl : t₀.interval = interval :=
      congrArg Prod.snd (hcreated.eq (hcreated.jobs id t₀ hadd) hid rfl)
    have hfate := Scheduler.fate_of_path (path_of_run h) (List.nodup_append.mp hnodup).1 hadd
      fun hcancel => hnot (cancelled_of_label h hcancel)
    cases hfate with
    | @waiting t hd hwaits hcount =>
      obtain ⟨hact, ht⟩ := hwaits
      obtain ⟨u, hu, hseq, -⟩ := hi.consistent.active_key id hact
      obtain rfl := Option.some.inj (hu.symm.trans ht)
      refine .inl ⟨_, ht, hseq, interval_of_descends hd, fun hp => ?_⟩
      rw [if_neg (hi.notRun_of_active hact)]
      exact hcount (once_iff.mpr hp)
    | @todo r t hd hr hmem hcount =>
      rw [(schedule_round hr).2, mem_timersAt] at hmem
      obtain ⟨htodo, ht, hseq⟩ := hmem
      refine .inl ⟨t, ht, hseq, interval_of_descends hd, fun hp => ?_⟩
      rw [if_neg (hi.notRun_of_todo htodo)]
      exact hcount (once_iff.mpr hp)
    | @ran r t hd hr hmem hcount =>
      rw [(schedule_round hr).1, mem_timersAt] at hmem
      obtain ⟨hran, ht, hseq⟩ := hmem
      refine .inl ⟨t, ht, hseq, interval_of_descends hd, fun hp => ?_⟩
      rw [if_pos hran]
      exact hcount (once_iff.mpr hp)
    | @gone now t hd hrenew habsent hcount =>
      have hp : t₀.interval.positive = false := by
        rw [← interval_of_descends hd]
        exact renew_eq_none.mp hrenew
      refine .inr ⟨hp, ?_, hcount (once_iff.mpr hp)⟩
      obtain ⟨hpos, hle⟩ := hcreated.numbered _ hid
      refine (hi.consistent.sequences.all id.sequence hpos hle).resolve_right ?_
      rintro ⟨a, u, hu, hseq⟩
      -- the number is the timer's own, which has no place
      have heq : (⟨a, u.sequence⟩ : TimerId) = id :=
        congrArg Prod.fst (hcreated.eq (hcreated.live a u hu) hid hseq)
      obtain rfl : a = id.timer := congrArg TimerId.timer heq
      refine hi.not_absent hu hseq (fun hqueued => ?_) habsent
      refine List.disjoint_of_nodup_append hnodup hadded ?_
      exact List.mem_map.mpr ⟨(id, u), mem_timersAt.mpr ⟨hqueued, hu, hseq⟩, rfl⟩
  · obtain ⟨⟨i, t⟩, hmem, rfl⟩ := List.mem_map.mp hq
    obtain ⟨hqueued, ht, hseq⟩ := mem_timersAt.mp hmem
    refine .inl ⟨t, ht, hseq, hlive ht hseq, fun _ => ?_⟩
    rw [if_neg (hi.notRun_of_queued hqueued)]
    refine List.count_eq_zero.mpr fun hstarted => ?_
    have hadded := (Scheduler.ledger_of_path (path_of_run h)).started _ hstarted
    exact List.disjoint_of_nodup_append hnodup hadded hq

/-- A timer that another thread has added and that has expired, beside one that repeats. -/
theorem not_lost_expired :
    ∃ q, system.Reachable q ∧ q.heap 16 = none ∧ 1 ∈ q.deletedSequences ∧
      q.startedIds.count ⟨16, 1⟩ = 1 := by
  let as : List Action := [.addTimer .otherThread 16 1000 .once, .runFunctor,
    .addTimer .loopThread 32 1500 (.every 500), .handleReadBegin 1000, .runExpired, .handleReadEnd]
  have hexec : (system.exec new as).any
      (fun q => decide (q.heap 16 = none ∧ .cancelled ⟨16, 1⟩ ∉ q.log)) = true := by decide
  have hid : ((⟨16, 1⟩, .once) : TimerId × Interval) ∈ created as := by decide
  obtain ⟨q, hrun, htest⟩ := exists_run_of_exec_any hexec
  obtain ⟨hnone, hnot⟩ := of_decide_eq_true htest
  refine ⟨q, ⟨new, as, rfl, hrun⟩, hnone, ?_⟩
  rcases not_lost hrun hid hnot with ⟨t, ht, -⟩ | ⟨-, hdeleted, hcount⟩
  · cases hnone.symm.trans ht
  · exact ⟨hdeleted, hcount⟩

/-! ### One `handleRead` -/

/-- The ids of the timers that are due, in the order of `timers_`. -/
def dueIds (q : TimerQueue) (now : Timestamp) : List TimerId :=
  (q.timersAt ((q.timers.toList.filter fun e => e.when ≤ now).map Entry.timer)).map Prod.fst

theorem finish_mem_label {act : Action} (h : .finish ∈ q.label act) : act = .handleReadEnd := by
  cases act with
  | handleReadEnd => rfl
  | addTimer caller _ _ _ | cancel caller _ =>
    cases caller with
    | loopThread => cases List.mem_singleton.mp h
    | otherThread => cases h
  | handleReadBegin now => cases List.mem_singleton.mp h
  | runFunctor =>
    simp only [label] at h
    split at h
    · obtain ⟨_, -, heq⟩ := List.mem_map.mp h
      cases heq
    · cases List.mem_singleton.mp h
    · cases h
  | runExpired =>
    simp only [label] at h
    split at h
    · obtain ⟨_, -, heq⟩ := List.mem_map.mp h
      cases heq
    · cases h

theorem labels_append {bs : List Action} (h : system.Run new as q) :
    labels (as ++ bs) = labels as ++ system.trace label q bs :=
  h.trace_append bs

/-- **One `handleRead` starts exactly the timers that are due when it begins,** each once
    and in the order of their expirations, whatever the callbacks and other threads add
    and cancel in the meantime. -/
theorem handleRead_starts {now : Timestamp} (h : system.Reachable q)
    (hrun : system.Run q (.handleReadBegin now :: (as ++ [.handleReadEnd])) q')
    (hno : .handleReadEnd ∉ as) : q'.startedIds = q.startedIds ++ q.dueIds now := by
  obtain ⟨_, before, rfl, hbefore⟩ := h
  rw [← List.singleton_append] at hrun
  have hall := hbefore.append hrun
  obtain ⟨q₁, hfirst, hrest⟩ := hrun.split
  obtain ⟨q₂, hround, hlast⟩ := hrest.split
  have hi := inv_of_run hbefore
  have hpath : Path Scheduler.Step q₁.schedule (system.trace label q₁ as) q₂.schedule :=
    hround.simulates (fun _ _ _ => Inv.step) (fun _ _ _ => schedule_step)
      (hi.step hfirst.of_single)
  have hfinish : .finish ∉ system.trace label q₁ as := by
    intro hmem
    obtain ⟨act, hact, u, hu⟩ := mem_trace hmem
    exact hno (finish_mem_label hu ▸ hact)
  -- what the batch has of timers is what the round has to start
  have hbatch : ∃ r, q₁.schedule.round = some r ∧ r.ran = [] ∧
      r.jobs.map Prod.fst = q.dueIds now := by
    have hmove := hi.move hfirst.of_single
    generalize q.label (.handleReadBegin now) = ls at hmove
    cases hmove with
    | detaches hb hlater hs =>
      refine ⟨_, rfl, rfl, ?_⟩
      have hfilter : q.expired now = q.timers.toList.filter fun e => e.when ≤ now :=
        OrderedSet.before_eq_filter fun e he => (boundaryLater_iff.mp hlater).lt_iff he
      rw [dueIds, ← hfilter]
      rfl
  obtain ⟨r, hr, hran, hjobs⟩ := hbatch
  obtain ⟨r', hr', -, hjobs', hran'⟩ := Scheduler.round_of_path hpath hr hfinish
  have htodo : r'.todo = [] := by
    obtain ⟨b, hb, hnil⟩ := hlast.of_single.1
    simp only [(schedule_round hr').2, notYetRun, hb, hnil]
    rfl
  have hstarted : Scheduler.started (system.trace label q₁ as) = q.dueIds now := by
    rw [hran, List.map_nil, List.nil_append] at hran'
    rw [← hran', ← hjobs, ← hjobs', Scheduler.Round.jobs, htodo, List.append_nil]
  have htrace : system.trace label q ([.handleReadBegin now] ++ (as ++ [.handleReadEnd])) =
      [.begin now] ++ (system.trace label q₁ as ++ [.finish]) := by
    rw [hfirst.trace_append, hround.trace_append, trace_single, trace_single]
    rfl
  rw [startedIds_of_run hall, labels_append hbefore, Scheduler.started_append,
    startedIds_of_run hbefore, htrace, Scheduler.started_append, Scheduler.started_append, hstarted]
  exact congrArg _ (List.append_nil _)

/-- The first of two timers that are due adds a third one and cancels the second. -/
theorem handleRead_starts_cancelled :
    ∃ q q' : TimerQueue, system.Reachable q ∧ q.dueIds 2000 = [⟨16, 1⟩, ⟨32, 2⟩] ∧
      q'.startedIds = q.startedIds ++ q.dueIds 2000 := by
  let as : List Action := [.runExpired, .addTimer .loopThread 48 1200 .once,
    .cancel .loopThread ⟨32, 2⟩, .runExpired]
  have hexec : (system.exec new
      [.addTimer .loopThread 16 1000 .once, .addTimer .loopThread 32 1500 .once]).any (fun q =>
        decide (q.dueIds 2000 = [⟨16, 1⟩, ⟨32, 2⟩]) &&
        (system.exec q (.handleReadBegin 2000 :: (as ++ [.handleReadEnd]))).any fun _ => true) =
      true := by decide
  obtain ⟨q, hq, htest⟩ := exists_of_exec_any _ rfl hexec
  obtain ⟨hdue, hrest⟩ := Bool.and_eq_true_iff.mp htest
  obtain ⟨q', hrun, -⟩ := exists_run_of_exec_any hrest
  exact ⟨q, q', hq, of_decide_eq_true hdue, handleRead_starts hq hrun (by decide)⟩

end Kaycc.TimerQueue
