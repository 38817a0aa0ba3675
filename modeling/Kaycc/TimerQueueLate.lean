/-
  Kaycc/TimerQueueLate.lean
  =========================
  **A cancel that comes too late can always be seen.**

  The condition under which a cancelled timer stays cancelled leaves out only
  what goes wrong.  After a `cancelInLoop` for a live timer that is later in the
  batch, or that waits to be inserted, the loop can go on so that the timer's
  callback starts: it finishes the batch, runs the queued functors up to the
  insertion, and reads the timerfd when every entry has expired.  The proof goes
  backwards along this run.
-/
import Kaycc.TimerQueueCancel

namespace Kaycc.TimerQueue

open Transition Transition.System

variable {q q' : TimerQueue} {a : Addr} {t : Timer} {id : TimerId}

/-! ### Runs that start a callback -/

/-- The log of the second queue continues that of the first. -/
def Continues (q q' : TimerQueue) : Prop := ∃ r, q'.log = q.log ++ r

theorem Continues.refl (q : TimerQueue) : Continues q q := ⟨[], (List.append_nil _).symm⟩

theorem Continues.trans {q'' : TimerQueue} (h₁ : Continues q q') (h₂ : Continues q' q'') :
    Continues q q'' := by
  obtain ⟨r₁, hr₁⟩ := h₁
  obtain ⟨r₂, hr₂⟩ := h₂
  exact ⟨r₁ ++ r₂, by rw [hr₂, hr₁, List.append_assoc]⟩

/-- A run leads from the queue to a start of the timer's callback. -/
def CanStart (q : TimerQueue) (id : TimerId) : Prop :=
  ∃ as u r, TimerQueue.system.Run q as u ∧ u.log = q.log ++ r ∧ .started id ∈ r

theorem CanStart.of_step {act : Action} (hst : TimerQueue.system.Step q act q')
    (hlog : Continues q q') (h : CanStart q' id) : CanStart q id := by
  obtain ⟨as, u, r, hrun, hu, hmem⟩ := h
  obtain ⟨r₀, hr₀⟩ := hlog
  refine ⟨act :: as, u, r₀ ++ r, (Run.single hst).append hrun, ?_, List.mem_append_right _ hmem⟩
  rw [hu, hr₀, List.append_assoc]

/-! ### Inside a batch -/

/-- The queue after the callback of the batch's next timer has been started. -/
def startedNext (q : TimerQueue) (now : Timestamp) (ran : List Entry) (it : Entry)
    (rest : List Entry) (t : Timer) : TimerQueue :=
  { q.record (.started ⟨it.timer, t.sequence⟩) with batch := some ⟨now, ran ++ [it], rest⟩ }

theorem step_runExpired (hi : Inv q) {now : Timestamp} {ran rest : List Entry} {it : Entry}
    (hb : q.batch = some ⟨now, ran, it :: rest⟩) :
    ∃ t, q.heap it.timer = some t ∧
      TimerQueue.system.Step q .runExpired (q.startedNext now ran it rest t) := by
  have hmem : it.timer ∈ q.batchTimers := by simp [batchTimers, hb]
  obtain ⟨t, ht⟩ := hi.consistent.places_live _ (List.mem_append_right _ hmem)
  refine ⟨t, ht, ⟨_, hb, List.cons_ne_nil it rest⟩, ?_⟩
  change q.runExpired = _
  simp only [runExpired, hb, timerAt_eq ht, ok_bind, pure_eq_ok, startedNext]

/-- The batch gets to each timer in it. -/
theorem canStart_of_notYetRun (hi : Inv q) (hmem : a ∈ q.notYetRun) (ht : q.heap a = some t) :
    CanStart q ⟨a, t.sequence⟩ := by
  cases hb : q.batch with
  | none =>
    simp only [notYetRun, hb] at hmem
    exact absurd hmem List.not_mem_nil
  | some b =>
    obtain ⟨now, ran, todo⟩ := b
    simp only [notYetRun, hb] at hmem
    induction todo generalizing q ran with
    | nil => cases hmem
    | cons it rest ih =>
      obtain ⟨u, hu, hst⟩ := step_runExpired hi hb
      by_cases ha : a = it.timer
      · -- it is the next one
        subst ha
        obtain rfl : u = t := Option.some.inj (hu.symm.trans ht)
        exact ⟨_, _, _, Run.single hst, rfl, List.mem_singleton_self _⟩
      · have hrest : a ∈ rest.map Entry.timer := (List.mem_cons.mp hmem).resolve_left ha
        have hlog : Continues q (q.startedNext now ran it rest u) := ⟨_, rfl⟩
        exact CanStart.of_step hst hlog (ih (hi.step hst) ht _ rfl hrest)

/-! ### In the indexes, and in the queue of functors -/

/-- There is a time at which all entries have expired. -/
theorem exists_after (l : List Entry) : ∃ now : Timestamp, ∀ e ∈ l, e.when < now := by
  induction l with
  | nil => exact ⟨0, fun e he => absurd he List.not_mem_nil⟩
  | cons e rest ih =>
    obtain ⟨now, hnow⟩ := ih
    refine ⟨max now (e.when + 1), ?_⟩
    intro e' he'
    rcases List.mem_cons.mp he' with rfl | he'
    · exact lt_of_lt_of_le (Int.lt_succ _) (le_max_right _ _)
    · exact lt_of_lt_of_le (hnow e' he') (le_max_left _ _)

/-- When the timerfd is read late enough, the batch takes everything. -/
theorem canStart_of_timers (hi : Inv q) (hb : q.batch = none) (ht : q.heap a = some t)
    (hmem : (⟨t.expiration, a⟩ : Entry) ∈ q.timers) : CanStart q ⟨a, t.sequence⟩ := by
  obtain ⟨now, hnow⟩ := exists_after q.timers.toList
  have hbefore : ∀ e ∈ q.timers, e < (⟨now, UINTPTR_MAX⟩ : Entry) := fun e he =>
    Entry.lt_iff.mpr (.inl (hnow e he))
  have hc : Consistent { q with armed := none } q.batchTimers :=
    hi.consistent.congr rfl rfl rfl rfl rfl rfl
  have hbound : boundaryLater { q with armed := none } now := by
    intro it hit
    obtain ⟨hin, hnot⟩ := OrderedSet.mem_from.mp (OrderedSet.begin?_mem hit)
    exact absurd (hbefore it hin) hnot
  obtain ⟨s, heq, _, _⟩ := getExpired_ok hc hbound
  let begun : TimerQueue := { remaining { q with armed := none } now s with
    callingExpiredTimers := true
    cancelingTimers := OrderedSet.empty
    batch := some ⟨now, [], expired { q with armed := none } now⟩ }
  have hst : TimerQueue.system.Step q (.handleReadBegin now) begun := by
    refine ⟨hb, ?_⟩
    change q.handleReadBegin now = .ok begun
    simp only [handleReadBegin, heq, ok_bind, pure_eq_ok, begun]
  have hexp : a ∈ begun.notYetRun :=
    List.mem_map.mpr ⟨_, OrderedSet.mem_before.mpr ⟨hmem, hbefore _ hmem⟩, rfl⟩
  exact CanStart.of_step hst (Continues.refl q) (canStart_of_notYetRun (hi.step hst) hexp ht)

/-- A queued timer is not in the indexes. -/
theorem queued_inactive (hi : Inv q) (hmem : a ∈ q.queuedTimers) :
    ∀ i ∈ q.activeTimers, i.timer ≠ a := by
  rintro i hact rfl
  obtain ⟨t, _, _, htim⟩ := hi.consistent.active_key i hact
  exact hi.consistent.timers_free _ htim (List.mem_append_left _ hmem)

/-- The loop's functors come to each insertion that waits. -/
theorem canStart_of_queued_idle (hi : Inv q) (hb : q.batch = none) (hmem : a ∈ q.queuedTimers)
    (ht : q.heap a = some t) : CanStart q ⟨a, t.sequence⟩ := by
  generalize hp : q.pendingFunctors = fs
  induction fs generalizing q with
  | nil =>
    simp only [queuedTimers, hp, List.filterMap_nil] at hmem
    exact absurd hmem List.not_mem_nil
  | cons f rest ih =>
    have hen : q.enabled .runFunctor := ⟨hb, by rw [hp]; exact List.cons_ne_nil f rest⟩
    have hstep : ∀ {u}, ({ q with pendingFunctors := f :: rest } : TimerQueue).runFunctor = .ok u →
        TimerQueue.system.Step q .runFunctor u := by
      intro u hu
      refine ⟨hen, ?_⟩
      change q.runFunctor = .ok u
      rw [← hu, ← hp]
    cases f with
    | addTimerInLoop b =>
      have hcons := hi.consistent.dequeued hp
      obtain ⟨u, hu⟩ := hcons.held_live
      have hst := hstep (addTimerInLoop_eq hcons hu)
      by_cases hab : a = b
      · subst hab
        obtain rfl : t = u := Option.some.inj (ht.symm.trans hu)
        apply CanStart.of_step hst (Continues.refl q)
        exact canStart_of_timers (hi.step hst) hb ht (OrderedSet.mem_insert.mpr (.inl rfl))
      · have hrest : a ∈ queuedTimers { q with pendingFunctors := rest } := by
          have hall : q.queuedTimers = b :: queuedTimers { q with pendingFunctors := rest } := by
            simp [queuedTimers, hp]
          rw [hall] at hmem
          exact (List.mem_cons.mp hmem).resolve_left hab
        exact CanStart.of_step hst (Continues.refl q) (ih (hi.step hst) hb hrest ht rfl)
    | cancelInLoop id' =>
      have hrest : queuedTimers { q with pendingFunctors := rest } = q.queuedTimers := by
        simp [queuedTimers, hp]
      have hcons := hi.consistent.pending hrest
      rcases cancelInLoop_cases hcons id' with ⟨u, hact, hu, hid, heq⟩ | ⟨_, heq⟩
      · -- a timer in the indexes is another one
        have hne : a ≠ id'.timer := (queued_inactive hi hmem id' hact).symm
        refine CanStart.of_step (hstep heq) ⟨[.deleted ⟨id'.timer, u.sequence⟩, .cancelled id'], ?_⟩
          (ih (hi.step (hstep heq)) hb (hrest ▸ hmem) ?_ rfl)
        · exact List.append_assoc _ _ _
        · exact (setHeap_other _ _ hne).trans ht
      · exact CanStart.of_step (hstep heq) ⟨[.cancelled id'], rfl⟩
          (ih (hi.step (hstep heq)) hb (hrest ▸ hmem) ht rfl)

/-- The end of `handleRead` leaves a queued timer alone. -/
theorem step_handleReadEnd (hi : Inv q) {now : Timestamp} {ran : List Entry}
    (hb : q.batch = some ⟨now, ran, []⟩) (hmem : a ∈ q.queuedTimers) (ht : q.heap a = some t) :
    ∃ u, TimerQueue.system.Step q .handleReadEnd u ∧ u.batch = none ∧ a ∈ u.queuedTimers ∧
      u.heap a = some t ∧ Continues q u := by
  let P : TimerQueue → List Entry → Prop := fun u _ =>
    u.queuedTimers = q.queuedTimers ∧ u.heap a = some t ∧ Continues q u
  have hround : ∀ u e rest u', P u (e :: rest) →
      Consistent u (e.timer :: (rest.map Entry.timer ++ [])) → u.resetOne now e = .ok u' →
      P u' rest := by
    rintro u e rest u' ⟨hq, hu, hlog⟩ hcons hu'
    have hne : a ≠ e.timer := fun heq =>
      List.disjoint_of_nodup_append hcons.places_nodup (hq ▸ hmem)
        (heq ▸ List.mem_cons_self)
    obtain ⟨v, hv, ⟨_, _, heq⟩ | ⟨_, heq⟩⟩ := resetOne_cases hcons now
    · obtain rfl := Except.ok.inj (heq.symm.trans hu')
      exact ⟨hq, (setHeap_other u _ hne).trans hu, hlog⟩
    · obtain rfl := Except.ok.inj (heq.symm.trans hu')
      exact ⟨hq, (setHeap_other u _ hne).trans hu,
        hlog.trans ⟨[.deleted ⟨e.timer, v.sequence⟩], rfl⟩⟩
  obtain ⟨u, heq, _, hbu, _, hq, hu, hlog⟩ :=
    handleReadEnd_rule hi hb hround ⟨rfl, ht, Continues.refl q⟩
  exact ⟨u.armedNext, ⟨⟨_, hb, rfl⟩, heq⟩, hbu, hq ▸ hmem, hu, hlog⟩

/-- The loop comes to each insertion that waits, when the batch is done. -/
theorem canStart_of_queued (hi : Inv q) (hmem : a ∈ q.queuedTimers) (ht : q.heap a = some t) :
    CanStart q ⟨a, t.sequence⟩ := by
  cases hb : q.batch with
  | none => exact canStart_of_queued_idle hi hb hmem ht
  | some b =>
    obtain ⟨now, ran, todo⟩ := b
    induction todo generalizing q ran with
    | nil =>
      obtain ⟨u, hst, hbu, hmemu, hu, hlog⟩ := step_handleReadEnd hi hb hmem ht
      exact CanStart.of_step hst hlog (canStart_of_queued_idle (hi.step hst) hbu hmemu hu)
    | cons it rest ih =>
      obtain ⟨u, _, hst⟩ := step_runExpired hi hb
      have hlog : Continues q (q.startedNext now ran it rest u) := ⟨_, rfl⟩
      exact CanStart.of_step hst hlog (ih (hi.step hst) hmem ht _ rfl)

theorem canStart_of_late (hi : Inv q) (hmem : a ∈ q.notYetRun ++ q.queuedTimers)
    (ht : q.heap a = some t) : CanStart q ⟨a, t.sequence⟩ := by
  rcases List.mem_append.mp hmem with hmem | hmem
  · exact canStart_of_notYetRun hi hmem ht
  · exact canStart_of_queued hi hmem ht

/-! ### Every live timer was returned by `addTimer` -/

def AllCreated (q : TimerQueue) : Prop :=
  ∀ a t, q.heap a = some t → .created ⟨a, t.sequence⟩ ∈ q.log

/-- A step that creates no timer and changes no number. -/
theorem AllCreated.of_same (h : AllCreated q) (hlog : Continues q q')
    (hheap : ∀ a t, q'.heap a = some t → ∃ u, q.heap a = some u ∧ u.sequence = t.sequence) :
    AllCreated q' := by
  intro a t ht
  obtain ⟨u, hu, hseq⟩ := hheap a t ht
  obtain ⟨r, hr⟩ := hlog
  rw [hr, ← hseq]
  exact List.mem_append_left _ (h a u hu)

theorem AllCreated.newTimer (h : AllCreated q) (a : Addr) (when : Timestamp)
    (interval : Interval) : AllCreated (q.newTimer a when interval) := by
  intro b t hb
  change Function.update q.heap a _ b = some t at hb
  change _ ∈ q.log ++ [_]
  by_cases hba : b = a
  · subst hba
    rw [Function.update_self] at hb
    cases hb
    exact List.mem_append_right _ (List.mem_singleton_self _)
  · rw [Function.update_of_ne hba] at hb
    exact List.mem_append_left _ (h b t hb)

theorem AllCreated.deleted (h : AllCreated q) (a : Addr) (t : Timer) :
    AllCreated (q.deleted a t) := by
  apply h.of_same ⟨_, rfl⟩
  intro b u hb
  change (q.setHeap a none).heap b = some u at hb
  by_cases hba : b = a
  · rw [hba, setHeap_same] at hb
    cases hb
  · exact ⟨u, (setHeap_other q none hba).symm.trans hb, rfl⟩

theorem AllCreated.cancelInLoop {held : List Addr} (h : AllCreated q) (hc : Consistent q held)
    (hq' : q.cancelInLoop id = .ok q') : AllCreated q' := by
  rcases cancelInLoop_cases hc id with ⟨t, _, _, _, heq⟩ | ⟨_, heq⟩
  · obtain rfl := Except.ok.inj (heq.symm.trans hq')
    have hdet : AllCreated (q.detached id.timer t) := h
    exact (hdet.deleted id.timer t).of_same ⟨_, rfl⟩ fun b u hb => ⟨u, hb, rfl⟩
  · obtain rfl := Except.ok.inj (heq.symm.trans hq')
    exact h.of_same ⟨_, rfl⟩ fun b u hb => ⟨u, hb, rfl⟩

theorem AllCreated.resetOne {held : List Addr} {e : Entry} {now : Timestamp} (h : AllCreated q)
    (hc : Consistent q (e.timer :: held)) (hq' : q.resetOne now e = .ok q') : AllCreated q' := by
  obtain ⟨t, ht, ⟨_, _, heq⟩ | ⟨_, heq⟩⟩ := resetOne_cases hc now
  · obtain rfl := Except.ok.inj (heq.symm.trans hq')
    refine h.of_same (Continues.refl q) fun b u hb => ?_
    change (q.setHeap e.timer (some (t.restart now))).heap b = some u at hb
    by_cases hbe : b = e.timer
    · rw [hbe, setHeap_same] at hb
      cases hb
      exact ⟨t, hbe ▸ ht, (Timer.restart_sequence t now).symm⟩
    · exact ⟨u, (setHeap_other q _ hbe).symm.trans hb, rfl⟩
  · obtain rfl := Except.ok.inj (heq.symm.trans hq')
    exact h.deleted e.timer t

theorem AllCreated.step {act : Action} (h : AllCreated q) (hi : Inv q)
    (hst : TimerQueue.system.Step q act q') : AllCreated q' := by
  cases act with
  | addTimer caller timer when interval =>
    have hnew := h.newTimer timer when interval
    rcases addTimer_cases hi hst.1.2.1 hst.2 with ⟨t, rfl⟩ | rfl
    · exact hnew
    · exact hnew
  | cancel caller id =>
    cases caller with
    | loopThread => exact h.cancelInLoop hi.consistent hst.2
    | otherThread =>
      obtain rfl := Except.ok.inj hst.2
      exact h
  | runFunctor =>
    rcases runFunctor_cases hi hst.2 with
      rfl | ⟨timer, rest, t, -, rfl⟩ | ⟨id, rest, -, -, hcons, hq'⟩
    · exact h
    · exact h
    · have h₀ : AllCreated { q with pendingFunctors := rest } := h
      exact h₀.cancelInLoop hcons hq'
  | handleReadBegin now =>
    have hc : Consistent { q with armed := none } q.batchTimers :=
      hi.consistent.congr rfl rfl rfl rfl rfl rfl
    have hq' : q.handleReadBegin now = .ok q' := hst.2
    rcases getExpired_cases hc now with herr | ⟨s, heq, _⟩
    · simp only [TimerQueue.handleReadBegin, herr] at hq'
      cases hq'
    · simp only [TimerQueue.handleReadBegin, heq, ok_bind, pure_eq_ok] at hq'
      obtain rfl := Except.ok.inj hq'
      exact h
  | runExpired =>
    obtain ⟨⟨now, ran, todo⟩, hb, hne⟩ := hst.1
    cases todo with
    | nil => exact absurd rfl hne
    | cons it rest =>
      obtain ⟨t, _, hst'⟩ := step_runExpired hi hb
      obtain rfl := Except.ok.inj (hst'.2.symm.trans hst.2)
      exact h.of_same ⟨_, rfl⟩ fun b u hu => ⟨u, hu, rfl⟩
  | handleReadEnd =>
    obtain ⟨⟨now, ran, todo⟩, hb, rfl⟩ := hst.1
    obtain ⟨u, heq, _, _, _, hu⟩ := handleReadEnd_rule (P := fun q _ => AllCreated q) hi hb
      (fun _ _ _ _ hP hcons hround => hP.resetOne hcons hround) h
    obtain rfl := Except.ok.inj (heq.symm.trans hst.2)
    exact hu

theorem reachable_allCreated (h : TimerQueue.system.Reachable q) : Inv q ∧ AllCreated q := by
  refine h.invariant (P := fun q => Inv q ∧ AllCreated q) ?_ ?_
  · rintro s rfl
    exact ⟨new_inv, fun a t ht => by cases ht⟩
  · rintro s act s' ⟨hi, hv⟩ hst
    exact ⟨hi.step hst, hv.step hi hst⟩

/-! ### The condition is exact -/

/-- A cancel of a timer that is not in the indexes leaves it where it is. -/
theorem cancelInLoop_late {held : List Addr} (hc : Consistent q held)
    (hmem : a ∈ q.queuedTimers ++ held) (ht : q.heap a = some t)
    (hq' : q.cancelInLoop ⟨a, t.sequence⟩ = .ok q') :
    q'.log = q.log ++ [.cancelled ⟨a, t.sequence⟩] ∧ q'.notYetRun = q.notYetRun ∧
      q'.queuedTimers = q.queuedTimers ∧ q'.heap a = some t := by
  rcases cancelInLoop_cases hc ⟨a, t.sequence⟩ with ⟨_, hact, _⟩ | ⟨_, heq⟩
  · obtain ⟨u, _, _, htim⟩ := hc.active_key _ hact
    exact absurd hmem (hc.timers_free _ htim)
  · obtain rfl := Except.ok.inj (heq.symm.trans hq')
    exact ⟨rfl, rfl, rfl, ht⟩

/-- **Every cancel outside the condition can be followed by a start of the timer it
    cancelled.** -/
theorem cancelInTime_exact {act : Action} (h : TimerQueue.system.Reachable q)
    (hen : q.enabled act) (hout : ¬ q.cancelInTime act) :
    ∃ as u, TimerQueue.system.Run q (act :: as) u ∧ ¬ QuietAfterCancel u.log := by
  obtain ⟨hi, hcreated⟩ := reachable_allCreated h
  obtain ⟨⟨a, n⟩, hby, hmem, hmap⟩ : ∃ id, q.cancelledBy act = some id ∧
      q.among (q.notYetRun ++ q.queuedTimers) id := by
    simpa only [cancelInTime, not_forall, not_not, exists_prop] using hout
  obtain ⟨t, ht, rfl⟩ := Option.map_eq_some_iff.mp hmap
  have hplace : a ∈ q.queuedTimers ++ q.batchTimers := by
    rw [batchTimers_eq]
    rcases List.mem_append.mp hmem with hmem | hmem
    · exact List.mem_append_right _ (List.mem_append_right _ hmem)
    · exact List.mem_append_left _ hmem
  obtain ⟨q', hst⟩ : ∃ q', TimerQueue.system.Step q act q' := by
    rcases cancelledBy_cases hby with rfl | ⟨rfl, _⟩
    · obtain ⟨q', heq, _⟩ := cancel_ok hi .loopThread ⟨a, t.sequence⟩
      exact ⟨q', hen, heq⟩
    · obtain ⟨q', heq, _⟩ := runFunctor_ok hi
      exact ⟨q', hen, heq⟩
  -- the cancel leaves the timer where it is
  obtain ⟨hlog, hlate, hheap⟩ : q'.log = q.log ++ [.cancelled ⟨a, t.sequence⟩] ∧
      a ∈ q'.notYetRun ++ q'.queuedTimers ∧ q'.heap a = some t := by
    rcases cancelledBy_cases hby with rfl | ⟨rfl, rest, hp⟩
    · obtain ⟨hlog, hrun, hqueue, hheap⟩ := cancelInLoop_late hi.consistent hplace ht hst.2
      exact ⟨hlog, by rw [hrun, hqueue]; exact hmem, hheap⟩
    · have hrest : queuedTimers { q with pendingFunctors := rest } = q.queuedTimers := by
        simp [queuedTimers, hp]
      have hrun : ({ q with pendingFunctors := rest } : TimerQueue).cancelInLoop
          ⟨a, t.sequence⟩ = .ok q' := by
        have h : q.runFunctor = .ok q' := hst.2
        simpa only [runFunctor, hp] using h
      obtain ⟨hlog, hrun, hqueue, hheap⟩ :=
        cancelInLoop_late (hi.consistent.pending hrest) (hrest ▸ hplace) ht hrun
      exact ⟨hlog, by rw [hrun, hqueue, hrest]; exact hmem, hheap⟩
  obtain ⟨as, u, r, hrun, hu, hstart⟩ := canStart_of_late (hi.step hst) hlate hheap
  refine ⟨as, u, (Run.single hst).append hrun, ?_⟩
  intro hquiet
  refine hquiet q.log ⟨a, t.sequence⟩ r ?_ (hcreated a t ht) hstart
  rw [hu, hlog, List.append_assoc]
  rfl

end Kaycc.TimerQueue
