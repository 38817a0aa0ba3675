/-
  Kaycc/TimerQueueCancel.lean
  ===========================
  **When a cancelled timer stays cancelled.**

  `cancelInLoop` erases a timer that is in the indexes and otherwise notes its id
  in `cancelingTimers_`, which only `reset` reads.  That covers a timer whose
  callback has been started in the batch being processed.  It does not cover one
  that is later in the same batch, nor one whose `addTimerInLoop` still waits:
  the callback of either starts after the cancel.  In the runs in which no cancel
  is executed at such a moment, a cancelled timer never starts again.
-/
import Kaycc.TimerQueueOperations

namespace Kaycc.TimerQueue

open Transition Transition.System

variable {q : TimerQueue} {id : TimerId}

/-! ### The log -/

/-- The log says: the callback of a timer that `addTimer` had returned does not start
    after its cancel. -/
def QuietAfterCancel (log : List Event) : Prop :=
  ∀ l id r, log = l ++ .cancelled id :: r → .created id ∈ l → .started id ∉ r

/-- `cancelInLoop(id)` has been executed for an id returned before. -/
def Silenced (log : List Event) (id : TimerId) : Prop :=
  ∃ l r, log = l ++ .cancelled id :: r ∧ .created id ∈ l

theorem silenced_append {log : List Event} {e : Event} (h : Silenced (log ++ [e]) id) :
    Silenced log id ∨ (e = .cancelled id ∧ .created id ∈ log) := by
  obtain ⟨l, r, heq, hmem⟩ := h
  rcases List.eq_nil_or_concat r with rfl | ⟨r', e', rfl⟩
  · obtain ⟨rfl, he⟩ := List.append_inj' heq rfl
    exact .inr ⟨List.head_eq_of_cons_eq he, hmem⟩
  · rw [List.concat_eq_append, ← List.cons_append, ← List.append_assoc] at heq
    exact .inl ⟨l, r', (List.append_inj' heq rfl).1, hmem⟩

theorem silenced_created {log : List Event} (h : Silenced log id) : .created id ∈ log := by
  obtain ⟨l, r, rfl, hmem⟩ := h
  exact List.mem_append_left _ hmem

theorem quiet_append {log : List Event} {e : Event} (hq : QuietAfterCancel log)
    (he : ∀ id, e = .started id → ¬ Silenced log id) : QuietAfterCancel (log ++ [e]) := by
  intro l id r heq hmem
  rcases List.eq_nil_or_concat r with rfl | ⟨r', e', rfl⟩
  · exact List.not_mem_nil
  · rw [List.concat_eq_append, ← List.cons_append, ← List.append_assoc] at heq
    obtain ⟨hlog, hlast⟩ := List.append_inj' heq rfl
    obtain rfl := List.head_eq_of_cons_eq hlast
    rw [List.concat_eq_append, List.mem_append, List.mem_singleton]
    rintro (hr | hs)
    · exact hq l id r' hlog hmem hr
    · exact he id hs.symm ⟨l, r', hlog, hmem⟩

/-! ### The condition -/

/-- The entries of the batch whose callbacks have not been started. -/
def notYetRun (q : TimerQueue) : List Addr :=
  match q.batch with
  | some b => b.todo.map Entry.timer
  | none => []

/-- The timers of the batch whose callbacks have been started. -/
def alreadyRun (q : TimerQueue) : List Addr :=
  match q.batch with
  | some b => b.ran.map Entry.timer
  | none => []

/-- The live timer with this id is among `l`. -/
def among (q : TimerQueue) (l : List Addr) (id : TimerId) : Prop :=
  id.timer ∈ l ∧ (q.heap id.timer).map Timer.sequence = some id.sequence

instance (q : TimerQueue) (l : List Addr) (id : TimerId) : Decidable (q.among l id) :=
  inferInstanceAs (Decidable (_ ∧ _))

/-- A cancel is executed neither for a timer later in the batch being processed nor for
    one that waits to be inserted. -/
def cancelInTime (q : TimerQueue) (act : Action) : Prop :=
  ∀ id, q.cancelledBy act = some id → ¬ q.among (q.notYetRun ++ q.queuedTimers) id

instance (q : TimerQueue) (act : Action) : Decidable (q.cancelInTime act) :=
  inferInstanceAs (Decidable (∀ id, q.cancelledBy act = some id → _))

theorem batchTimers_eq (q : TimerQueue) : q.batchTimers = q.alreadyRun ++ q.notYetRun := by
  unfold batchTimers alreadyRun notYetRun
  cases q.batch with
  | some b => exact List.map_append
  | none => rfl

/-! ### The invariant -/

/-- The timer is gone, or its callback has been started in this batch, of which `ran`
    are still to be reset, and `reset` will delete it. -/
def Dead (q : TimerQueue) (ran : List Addr) (id : TimerId) : Prop :=
  ∀ t, q.heap id.timer = some t → t.sequence = id.sequence →
    id.timer ∈ ran ∧ (t.repeats = true → id ∈ q.cancelingTimers)

structure CancelInv (q : TimerQueue) (ran : List Addr) : Prop where
  quiet : QuietAfterCancel q.log
  dead : ∀ id, Silenced q.log id → Dead q ran id
  created_le : ∀ id, .created id ∈ q.log → id.sequence ≤ q.numCreated

theorem new_cancelInv : CancelInv new [] where
  quiet := fun l id r heq => by cases l <;> cases heq
  dead := by
    intro id h
    obtain ⟨l, r, heq, _⟩ := h
    cases l <;> cases heq
  created_le := fun id h => absurd h List.not_mem_nil

/-- A step that appends an event other than a start. -/
theorem CancelInv.record {q' : TimerQueue} {ran ran' : List Addr} {e : Event}
    (hv : CancelInv q ran) (hlog : q'.log = q.log ++ [e]) (hstart : ∀ id, e ≠ .started id)
    (hold : ∀ id, Silenced q.log id → Dead q ran id → Dead q' ran' id)
    (hnew : ∀ id, e = .cancelled id → .created id ∈ q.log → Dead q' ran' id)
    (hcreated : ∀ id, e = .created id → id.sequence ≤ q'.numCreated)
    (hnum : q.numCreated ≤ q'.numCreated) : CancelInv q' ran' where
  quiet := hlog ▸ quiet_append hv.quiet (fun id h => absurd h (hstart id))
  dead := by
    intro id h
    rw [hlog] at h
    rcases silenced_append h with h | ⟨he, hmem⟩
    · exact hold id h (hv.dead id h)
    · exact hnew id he hmem
  created_le := by
    intro id h
    rw [hlog] at h
    rcases List.mem_append.mp h with h | h
    · exact Nat.le_trans (hv.created_le id h) hnum
    · exact hcreated id (List.mem_singleton.mp h).symm

/-- A step that appends nothing. -/
theorem CancelInv.silent {q' : TimerQueue} {ran ran' : List Addr} (hv : CancelInv q ran)
    (hlog : q'.log = q.log) (hnum : q'.numCreated = q.numCreated)
    (hold : ∀ id, Silenced q.log id → Dead q ran id → Dead q' ran' id) :
    CancelInv q' ran' where
  quiet := hlog ▸ hv.quiet
  dead := by
    intro id h
    rw [hlog] at h
    exact hold id h (hv.dead id h)
  created_le := by
    intro id h
    rw [hlog] at h
    rw [hnum]
    exact hv.created_le id h

/-! ### Steps -/

theorem CancelInv.newTimer {ran : List Addr} {a : Addr} (hv : CancelInv q ran)
    (when : Timestamp) (interval : Interval) :
    CancelInv (q.newTimer a when interval) ran := by
  refine hv.record (e := .created ⟨a, q.numCreated + 1⟩) rfl nofun ?_ nofun ?_ (Nat.le_succ _)
  · intro id hsil hdead t ht hseq
    change Function.update q.heap a _ id.timer = some t at ht
    by_cases hid : id.timer = a
    · -- a new number is not that of an id returned before
      rw [hid, Function.update_self] at ht
      cases ht
      have hle := hv.created_le id (silenced_created hsil)
      change q.numCreated + 1 = id.sequence at hseq
      omega
    · rw [Function.update_of_ne hid] at ht
      exact hdead t ht hseq
  · intro id heq
    cases heq
    exact Nat.le_refl _

theorem CancelInv.cancelInLoop {held : List Addr} {q' : TimerQueue} {id : TimerId}
    (hv : CancelInv q q.alreadyRun) (hc : Consistent q held)
    (hheld : held = q.batchTimers) (hcall : q.callingExpiredTimers = true ↔ q.batch ≠ none)
    (hin : ¬ q.among (q.notYetRun ++ q.queuedTimers) id) (hq' : q.cancelInLoop id = .ok q') :
    CancelInv q' q'.alreadyRun := by
  rcases cancelInLoop_cases hc id with ⟨t, _, ht, hid, heq⟩ | ⟨hact, heq⟩
  · obtain rfl := Except.ok.inj (heq.symm.trans hq')
    have hgone : ∀ id', Dead q q.alreadyRun id' →
        Dead ((q.detached id.timer t).deleted id.timer t) q.alreadyRun id' := by
      intro id' hdead u hu hseq
      by_cases hne : id'.timer = id.timer
      · rw [hne] at hu
        cases (setHeap_same (q.detached id.timer t) id.timer none).symm.trans hu
      · exact hdead u ((setHeap_other (q.detached id.timer t) none hne).symm.trans hu) hseq
    have hdel : CancelInv ((q.detached id.timer t).deleted id.timer t) q.alreadyRun :=
      hv.record (e := .deleted ⟨id.timer, t.sequence⟩) rfl nofun (fun id' _ => hgone id')
        nofun nofun (Nat.le_refl _)
    refine hdel.record rfl nofun (fun id' _ h => h) ?_ nofun (Nat.le_refl _)
    intro id' heq' _ u hu
    cases heq'
    cases (setHeap_same (q.detached id.timer t) id.timer none).symm.trans hu
  · obtain rfl := Except.ok.inj (heq.symm.trans hq')
    have hkeep : ∀ id', Dead q q.alreadyRun id' →
        Dead (({ q with cancelingTimers :=
          if q.callingExpiredTimers = true then (q.cancelingTimers.insert id).1
          else q.cancelingTimers } : TimerQueue).record (.cancelled id)) q.alreadyRun id' := by
      intro id' hdead u hu hseq
      obtain ⟨hran, hcan⟩ := hdead u hu hseq
      refine ⟨hran, ?_⟩
      intro hrep
      change id' ∈ (if q.callingExpiredTimers = true then _ else _)
      split
      · exact OrderedSet.mem_insert.mpr (.inr (hcan hrep))
      · exact hcan hrep
    refine hv.record rfl nofun (fun id' _ => hkeep id') ?_ nofun (Nat.le_refl _)
    -- a live timer with this id is in no index, not waiting and not later in the batch
    intro id' heq' _ u hu hseq
    cases heq'
    have hmap : (q.heap id.timer).map Timer.sequence = some id.sequence := by
      rw [show q.heap id.timer = some u from hu, Option.map_some, hseq]
    have hran : id.timer ∈ q.alreadyRun := by
      rcases hc.placed id.timer u hu with hmem | hmem
      · rw [hheld, batchTimers_eq] at hmem
        rcases List.mem_append.mp hmem with hmem | hmem
        · exact absurd ⟨List.mem_append_right _ hmem, hmap⟩ hin
        · rcases List.mem_append.mp hmem with hmem | hmem
          · exact hmem
          · exact absurd ⟨List.mem_append_left _ hmem, hmap⟩ hin
      · obtain ⟨v, hv', _, hactv⟩ := hc.timers_key _ hmem
        obtain rfl : v = u := Option.some.inj (hv'.symm.trans hu)
        rw [hseq] at hactv
        exact absurd hactv hact
    have hbatch : q.batch ≠ none := by
      intro hnone
      simp only [alreadyRun, hnone] at hran
      exact List.not_mem_nil hran
    refine ⟨hran, ?_⟩
    intro _
    change id ∈ (if q.callingExpiredTimers = true then _ else _)
    rw [if_pos (hcall.mpr hbatch)]
    exact OrderedSet.mem_insert.mpr (.inl rfl)

theorem CancelInv.handleReadBegin {q' : TimerQueue} {now : Timestamp}
    (hv : CancelInv q q.alreadyRun) (hi : Inv q) (hb : q.batch = none)
    (hq' : q.handleReadBegin now = .ok q') : CancelInv q' q'.alreadyRun := by
  have hc : Consistent { q with armed := none } q.batchTimers :=
    hi.consistent.congr rfl rfl rfl rfl rfl rfl
  rcases getExpired_cases hc now with herr | ⟨s, heq, _⟩
  · simp only [TimerQueue.handleReadBegin, herr] at hq'
    cases hq'
  · simp only [TimerQueue.handleReadBegin, heq, ok_bind, pure_eq_ok] at hq'
    obtain rfl := Except.ok.inj hq'
    refine hv.silent rfl rfl fun id _ hdead t ht hseq => ?_
    obtain ⟨hran, _⟩ := hdead t ht hseq
    simp only [alreadyRun, hb] at hran
    exact absurd hran List.not_mem_nil

theorem CancelInv.runExpired {q' : TimerQueue} (hv : CancelInv q q.alreadyRun) (hi : Inv q)
    (hq' : q.runExpired = .ok q') : CancelInv q' q'.alreadyRun := by
  unfold TimerQueue.runExpired at hq'
  split at hq'
  · rename_i now ran it rest hb
    obtain ⟨t, ht, hq'⟩ := bind_eq_ok.mp hq'
    obtain rfl := Except.ok.inj hq'
    have hheap : q.heap it.timer = some t := by
      unfold timerAt at ht
      split at ht
      · cases ht
        assumption
      · cases ht
    have hrun : q.alreadyRun = ran.map Entry.timer := by simp only [alreadyRun, hb]
    -- what is started is later in the batch, so it is not dead
    have hlive : ∀ id, Event.started ⟨it.timer, t.sequence⟩ = .started id →
        ¬ Silenced q.log id := by
      intro id heq hsil
      cases heq
      obtain ⟨hran, _⟩ := hv.dead _ hsil t hheap rfl
      have hnodup : (ran.map Entry.timer ++ (it :: rest).map Entry.timer).Nodup := by
        have h := hi.consistent.places_nodup
        rw [batchTimers_eq] at h
        simp only [alreadyRun, notYetRun, hb] at h
        exact (List.nodup_append.mp h).2.1
      exact List.disjoint_of_nodup_append hnodup (hrun ▸ hran)
        (List.mem_map.mpr ⟨it, List.mem_cons_self, rfl⟩)
    refine { quiet := quiet_append hv.quiet hlive, dead := ?_, created_le := ?_ }
    · intro id hsil u hu hseq
      rcases silenced_append hsil with hsil | ⟨heq, _⟩
      · obtain ⟨hran, hcan⟩ := hv.dead id hsil u hu hseq
        refine ⟨?_, hcan⟩
        change id.timer ∈ (ran ++ [it]).map Entry.timer
        rw [List.map_append]
        exact List.mem_append_left _ (hrun ▸ hran)
      · cases heq
    · intro id hmem
      rcases List.mem_append.mp hmem with hmem | hmem
      · exact hv.created_le id hmem
      · cases List.mem_singleton.mp hmem
  · obtain rfl := Except.ok.inj hq'
    exact hv

/-- One round of `reset` deletes a dead timer and leaves the others as they are. -/
theorem CancelInv.resetOne {held : List Addr} {e : Entry} {rest : List Entry} {q' : TimerQueue}
    {now : Timestamp} (hv : CancelInv q ((e :: rest).map Entry.timer))
    (hc : Consistent q (e.timer :: held)) (hq' : q.resetOne now e = .ok q') :
    CancelInv q' (rest.map Entry.timer) := by
  obtain ⟨t, ht, ⟨hrep, hcan, heq⟩ | ⟨_, heq⟩⟩ := resetOne_cases hc now
  · obtain rfl := Except.ok.inj (heq.symm.trans hq')
    refine hv.silent rfl rfl fun id _ hdead u hu hseq => ?_
    change (q.setHeap e.timer (some (t.restart now))).heap id.timer = some u at hu
    by_cases hid : id.timer = e.timer
    · -- a repeating timer goes back only when it is not being cancelled
      rw [hid, setHeap_same] at hu
      cases hu
      rw [Timer.restart_sequence] at hseq
      have hmem := (hdead t (hid ▸ ht) hseq).2 hrep
      apply absurd hmem
      cases id
      cases hid
      cases hseq
      exact hcan
    · rw [setHeap_other _ _ hid] at hu
      obtain ⟨hran, hcanu⟩ := hdead u hu hseq
      exact ⟨(List.mem_cons.mp hran).resolve_left hid, hcanu⟩
  · obtain rfl := Except.ok.inj (heq.symm.trans hq')
    refine hv.record rfl nofun (fun id _ hdead u hu hseq => ?_) nofun nofun (Nat.le_refl _)
    change (q.setHeap e.timer none).heap id.timer = some u at hu
    by_cases hid : id.timer = e.timer
    · rw [hid, setHeap_same] at hu
      cases hu
    · rw [setHeap_other _ _ hid] at hu
      obtain ⟨hran, hcanu⟩ := hdead u hu hseq
      exact ⟨(List.mem_cons.mp hran).resolve_left hid, hcanu⟩

theorem CancelInv.handleReadEnd {q' : TimerQueue} (hv : CancelInv q q.alreadyRun) (hi : Inv q)
    (hq' : q.handleReadEnd = .ok q') : CancelInv q' q'.alreadyRun := by
  by_cases hbatch : ∃ now ran, q.batch = some ⟨now, ran, []⟩
  · obtain ⟨now, ran, hb⟩ := hbatch
    have hv₀ : CancelInv q.batchDone (ran.map Entry.timer) := by
      have hrun : q.alreadyRun = ran.map Entry.timer := by simp only [alreadyRun, hb]
      exact (hrun ▸ hv).silent rfl rfl fun _ _ h => h
    obtain ⟨q₁, heq, _, hb₁, _, hv₁⟩ := handleReadEnd_rule
      (P := fun q rest => CancelInv q (rest.map Entry.timer)) hi hb
      (fun _ _ _ _ hP hcons hround => hP.resetOne hcons hround) hv₀
    obtain rfl := Except.ok.inj (heq.symm.trans hq')
    have hnone : q₁.armedNext.alreadyRun = [] := by simp only [alreadyRun, armedNext, hb₁]
    rw [hnone]
    exact hv₁.silent rfl rfl fun _ _ h => h
  · obtain rfl := Except.ok.inj ((handleReadEnd_idle hbatch).symm.trans hq')
    exact hv

theorem CancelInv.step {act : Action} {q' : TimerQueue} (hv : CancelInv q q.alreadyRun)
    (hi : Inv q) (hin : q.cancelInTime act) (hst : TimerQueue.system.Step q act q') :
    CancelInv q' q'.alreadyRun := by
  cases act with
  | addTimer caller timer when interval =>
    have hnew := hv.newTimer (a := timer) when interval
    rcases addTimer_cases hi hst.1.2.1 hst.2 with ⟨t, rfl⟩ | rfl
    · exact hnew.silent rfl rfl fun _ _ h => h
    · exact hnew.silent rfl rfl fun _ _ h => h
  | cancel caller id =>
    cases caller with
    | loopThread => exact hv.cancelInLoop hi.consistent rfl hi.calling (hin id rfl) hst.2
    | otherThread =>
      obtain rfl := Except.ok.inj hst.2
      exact hv.silent rfl rfl fun _ _ h => h
  | runFunctor =>
    rcases runFunctor_cases hi hst.2 with
      rfl | ⟨timer, rest, t, -, rfl⟩ | ⟨id, rest, hp, hrest, hcons, hq'⟩
    · exact hv
    · exact hv.silent rfl rfl fun _ _ h => h
    · have hcan := hin id (by simp [cancelledBy, hp])
      have hv₀ : CancelInv { q with pendingFunctors := rest } q.alreadyRun :=
        hv.silent rfl rfl fun _ _ h => h
      refine CancelInv.cancelInLoop hv₀ hcons rfl hi.calling ?_ hq'
      rw [hrest]
      exact hcan
  | handleReadBegin now => exact hv.handleReadBegin hi hst.1 hst.2
  | runExpired => exact hv.runExpired hi hst.2
  | handleReadEnd => exact hv.handleReadEnd hi hst.2

theorem reachable_cancelInv (h : (TimerQueue.system.restrict cancelInTime).Reachable q) :
    Inv q ∧ CancelInv q q.alreadyRun := by
  refine h.invariant (P := fun q => Inv q ∧ CancelInv q q.alreadyRun) ?_ ?_
  · rintro s rfl
    exact ⟨new_inv, new_cancelInv⟩
  · rintro s act s' ⟨hi, hv⟩ hst
    exact ⟨hi.step hst.of_restrict, hv.step hi hst.condition hst.of_restrict⟩

/-! ### The theorem -/

/-- **A timer cancelled in time stays cancelled.**  In a run in which no `cancelInLoop`
    is executed for a timer later in the batch being processed, or for one that waits
    to be inserted, no callback starts after the cancel of its timer. -/
theorem cancelled_never_starts (h : (TimerQueue.system.restrict cancelInTime).Reachable q) :
    ∀ l id r, q.log = l ++ .cancelled id :: r → .created id ∈ l → .started id ∉ r :=
  (reachable_cancelInv h).2.quiet

/-- A repeating timer cancelled in its own callback is not started by the next
    `handleRead`. -/
theorem cancelled_never_starts_self :
    ∃ q, (TimerQueue.system.restrict cancelInTime).exec new
        [.addTimer .loopThread 1 10 (Interval.every 5), .handleReadBegin 11, .runExpired,
         .cancel .loopThread ⟨1, 1⟩, .handleReadEnd, .handleReadBegin 20, .handleReadEnd] =
          some q ∧
      q.log = [.created ⟨1, 1⟩, .started ⟨1, 1⟩] ++ .cancelled ⟨1, 1⟩ :: [.deleted ⟨1, 1⟩] ∧
      Event.started ⟨1, 1⟩ ∉ [Event.deleted ⟨1, 1⟩] := by
  refine ⟨_, rfl, rfl, ?_⟩
  exact cancelled_never_starts (reachable_of_exec
    [.addTimer .loopThread 1 10 (Interval.every 5), .handleReadBegin 11, .runExpired,
     .cancel .loopThread ⟨1, 1⟩, .handleReadEnd, .handleReadBegin 20, .handleReadEnd] rfl rfl)
    [.created ⟨1, 1⟩, .started ⟨1, 1⟩] ⟨1, 1⟩ _ rfl (by decide)

/-- **The claim fails without the condition.**  A timer cancelled by the callback before
    it in one batch is started by that batch; a timer cancelled by the loop thread before
    its queued insertion is inserted, and started. -/
theorem cancelled_timer_starts :
    (∃ q, TimerQueue.system.Reachable q ∧ ∃ l r, q.log = l ++ .cancelled ⟨2, 2⟩ :: r ∧
      Event.created ⟨2, 2⟩ ∈ l ∧ Event.started ⟨2, 2⟩ ∈ r) ∧
    ∃ q, TimerQueue.system.Reachable q ∧ ∃ l r, q.log = l ++ .cancelled ⟨1, 1⟩ :: r ∧
      Event.created ⟨1, 1⟩ ∈ l ∧ Event.started ⟨1, 1⟩ ∈ r := by
  refine ⟨⟨_, reachable_of_exec
    [.addTimer .loopThread 1 10 Interval.once, .addTimer .loopThread 2 10 Interval.once,
     .handleReadBegin 11, .runExpired, .cancel .loopThread ⟨2, 2⟩, .runExpired] rfl rfl,
    [.created ⟨1, 1⟩, .created ⟨2, 2⟩, .started ⟨1, 1⟩], [.started ⟨2, 2⟩], rfl, ?_, ?_⟩,
    ⟨_, reachable_of_exec
    [.addTimer .otherThread 1 10 Interval.once, .cancel .loopThread ⟨1, 1⟩, .runFunctor,
     .handleReadBegin 11, .runExpired] rfl rfl,
    [.created ⟨1, 1⟩], [.started ⟨1, 1⟩], rfl, ?_, ?_⟩⟩ <;> decide

end Kaycc.TimerQueue
