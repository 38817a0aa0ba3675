/-
  Kaycc/TimerQueueOperations.lean
  ===============================
  **What each operation of the timer queue does, and that every step of every
  thread keeps its indexes and its ownership consistent.**

  On a consistent queue each operation is given by an equation: no assertion in
  it fails, and the result is one of the moves of `TimerQueueInvariant`.  The
  loop of `reset` gets a rule of its own, since later proofs carry other facts
  through it.
-/
import Kaycc.TimerQueueInvariant

namespace Kaycc.TimerQueue

open Transition

variable {q : TimerQueue} {held : List Addr} {a : Addr} {t : Timer}

/-! ### Adding -/

/-- `earliestChanged` of `insert`. -/
def earliestChanged (q : TimerQueue) (when : Timestamp) : Bool :=
  match q.timers.begin? with
  | none => true
  | some it => decide (when < it.when)

/-- The queue after `addTimerInLoop`. -/
def added (q : TimerQueue) (a : Addr) (t : Timer) : TimerQueue :=
  { q.indexed a t with
    armed := if q.earliestChanged t.expiration = true then some t.expiration else q.armed }

theorem insert_eq (hc : Consistent q (a :: held)) (ht : q.heap a = some t) :
    q.insert a = .ok (q.indexed a t, q.earliestChanged t.expiration) := by
  have hsizes : (q.timers.insert ⟨t.expiration, a⟩).1.size =
      (q.activeTimers.insert ⟨a, t.sequence⟩).1.size := (hc.indexed ht).sizes
  simp only [insert, check_eq_ok hc.sizes, timerAt_eq ht, ok_bind,
    check_eq_ok (OrderedSet.insert_snd.mpr (hc.held_free t.expiration)),
    check_eq_ok (OrderedSet.insert_snd.mpr (hc.held_inactive t.sequence)),
    check_eq_ok hsizes, pure_eq_ok]
  rfl

theorem addTimerInLoop_eq (hc : Consistent q (a :: held)) (ht : q.heap a = some t) :
    q.addTimerInLoop a = .ok (q.added a t) := by
  have hat : (q.indexed a t).timerAt a = .ok t := timerAt_eq ht
  simp only [addTimerInLoop, insert_eq hc ht, ok_bind, added]
  by_cases he : q.earliestChanged t.expiration = true
  · rw [if_pos he, if_pos he, hat]
    rfl
  · rw [if_neg he, if_neg he]
    rfl

theorem Consistent.added (hc : Consistent q (a :: held)) (ht : q.heap a = some t) :
    Consistent (q.added a t) held :=
  (hc.indexed ht).congr rfl rfl rfl rfl rfl rfl

/-- A new `addTimerInLoop` functor takes over the timer. -/
theorem Consistent.queued (hc : Consistent q (a :: held)) :
    Consistent (q.queueFunctor (.addTimerInLoop a)) held := by
  have hq : (q.queueFunctor (.addTimerInLoop a)).queuedTimers = q.queuedTimers ++ [a] := by
    simp [queueFunctor, queuedTimers]
  have happ : (q.queueFunctor (.addTimerInLoop a)).queuedTimers ++ held =
      q.queuedTimers ++ a :: held := by
    rw [hq, List.append_assoc]
    rfl
  exact { hc with
    places_nodup := happ ▸ hc.places_nodup
    places_live := happ ▸ hc.places_live
    timers_free := happ ▸ hc.timers_free
    placed := happ ▸ hc.placed
    sequences := { hc.sequences with } }

/-- The functor that is run next gives its timer to the loop thread. -/
theorem Consistent.dequeued {rest : List Functor} (hc : Consistent q held)
    (hp : q.pendingFunctors = .addTimerInLoop a :: rest) :
    Consistent { q with pendingFunctors := rest } (a :: held) := by
  have hq : q.queuedTimers = a :: queuedTimers { q with pendingFunctors := rest } := by
    simp [queuedTimers, hp]
  have hperm : (q.queuedTimers ++ held).Perm
      (queuedTimers { q with pendingFunctors := rest } ++ a :: held) := by
    rw [hq]
    exact List.perm_middle.symm
  exact { hc with
    places_nodup := hperm.nodup_iff.mp hc.places_nodup
    places_live := fun b hb => hc.places_live b (hperm.mem_iff.mpr hb)
    timers_free := fun e he hmem => hc.timers_free e he (hperm.mem_iff.mpr hmem)
    placed := fun b u hb => (hc.placed b u hb).imp_left hperm.mem_iff.mp
    sequences := { hc.sequences with } }

/-- A `cancelInLoop` functor holds no timer. -/
theorem Consistent.pending {fs : List Functor} (hc : Consistent q held)
    (hf : queuedTimers { q with pendingFunctors := fs } = q.queuedTimers) :
    Consistent { q with pendingFunctors := fs } held :=
  hc.congr rfl rfl rfl hf rfl rfl

/-! ### Cancelling -/

/-- **What `cancelInLoop` does.**  A timer in the indexes leaves them and is deleted;
    for any other id the only trace is in `cancelingTimers_`. -/
theorem cancelInLoop_cases (hc : Consistent q held) (id : TimerId) :
    (∃ t, id ∈ q.activeTimers ∧ q.heap id.timer = some t ∧ id = ⟨id.timer, t.sequence⟩ ∧
        q.cancelInLoop id =
          .ok (((q.detached id.timer t).deleted id.timer t).record (.cancelled id))) ∨
      (id ∉ q.activeTimers ∧
        q.cancelInLoop id = .ok (({ q with cancelingTimers :=
          if q.callingExpiredTimers = true then (q.cancelingTimers.insert id).1
          else q.cancelingTimers } : TimerQueue).record (.cancelled id))) := by
  by_cases hact : id ∈ q.activeTimers
  · obtain ⟨t, ht, hseq, htim⟩ := hc.active_key id hact
    have hid : id = ⟨id.timer, t.sequence⟩ := by rw [hseq]
    have hdone := (hc.detached ht (hid ▸ hact)).deleted ht
    -- the model's functions, on this branch, compute the composed move
    have hfound : q.cancelFound id = .ok ((q.detached id.timer t).deleted id.timer t) := by
      simp only [cancelFound, if_pos hact, timerAt_eq ht, ok_bind,
        check_eq_ok (OrderedSet.erase_snd htim), TimerQueue.delete]
      rw [show ({ q with timers := (q.timers.erase ⟨t.expiration, id.timer⟩).1 } :
        TimerQueue).timerAt id.timer = .ok t from timerAt_eq ht]
      simp only [ok_bind, pure_eq_ok]
      rw [hid]
      rfl
    refine .inl ⟨t, hact, ht, hid, ?_⟩
    simp only [cancelInLoop, check_eq_ok hc.sizes, hfound, ok_bind, check_eq_ok hdone.sizes,
      pure_eq_ok]
  · refine .inr ⟨hact, ?_⟩
    by_cases hcall : q.callingExpiredTimers = true
    · simp only [cancelInLoop, cancelFound, check_eq_ok hc.sizes, ok_bind, if_neg hact,
        if_pos hcall, pure_eq_ok]
    · simp only [cancelInLoop, cancelFound, check_eq_ok hc.sizes, ok_bind, if_neg hact,
        if_neg hcall, pure_eq_ok]

theorem cancelInLoop_ok (hc : Consistent q held) (id : TimerId) :
    ∃ q', q.cancelInLoop id = .ok q' ∧ Consistent q' held ∧ q'.batch = q.batch ∧
      q'.callingExpiredTimers = q.callingExpiredTimers := by
  rcases cancelInLoop_cases hc id with ⟨t, hact, ht, hid, heq⟩ | ⟨_, heq⟩
  · refine ⟨_, heq, ?_, rfl, rfl⟩
    exact ((hc.detached ht (hid ▸ hact)).deleted ht).congr rfl rfl rfl rfl rfl (by simp)
  · exact ⟨_, heq, hc.congr rfl rfl rfl rfl rfl (by simp [record, deletedSequences]), rfl, rfl⟩

/-- The two steps that execute `cancelInLoop`. -/
theorem cancelledBy_cases {act : Action} {id : TimerId} (h : q.cancelledBy act = some id) :
    act = .cancel .loopThread id ∨
      act = .runFunctor ∧ ∃ rest, q.pendingFunctors = .cancelInLoop id :: rest := by
  cases act with
  | cancel caller id' =>
    cases caller with
    | loopThread =>
      obtain rfl : id' = id := Option.some.inj h
      exact .inl rfl
    | otherThread => cases h
  | runFunctor =>
    simp only [cancelledBy] at h
    split at h
    · rename_i rest hp
      obtain rfl := Option.some.inj h
      exact .inr ⟨rfl, rest, hp⟩
    · cases h
  | _ => cases h

/-! ### `getExpired` -/

/-- The second loop of `getExpired` takes the entries' timers out of `activeTimers_`. -/
theorem eraseExpired_eq (l : List Entry) (hnodup : (l.map Entry.timer).Nodup)
    (hkeys : ∀ i ∈ q.activeTimers, ∃ t, q.heap i.timer = some t ∧ t.sequence = i.sequence)
    (hl : ∀ e ∈ l, ∃ t, q.heap e.timer = some t ∧
      (⟨e.timer, t.sequence⟩ : ActiveTimer) ∈ q.activeTimers) :
    ∃ s : OrderedSet ActiveTimer, q.eraseExpired l = .ok { q with activeTimers := s } ∧
      s.size + l.length = q.activeTimers.size ∧
      ∀ i, i ∈ s ↔ i ∈ q.activeTimers ∧ i.timer ∉ l.map Entry.timer := by
  induction l generalizing q with
  | nil => exact ⟨q.activeTimers, rfl, rfl, by simp⟩
  | cons e rest ih =>
    obtain ⟨hne, hnodup⟩ := List.nodup_cons.mp hnodup
    obtain ⟨t, ht, hact⟩ := hl e List.mem_cons_self
    have hmem : ∀ i, i ∈ (q.activeTimers.erase ⟨e.timer, t.sequence⟩).1 ↔
        i ∈ q.activeTimers ∧ i.timer ≠ e.timer := by
      intro i
      rw [OrderedSet.mem_erase]
      constructor
      · rintro ⟨hi, hia⟩
        refine ⟨hia, fun heq => hi ?_⟩
        obtain ⟨u, hu, hus⟩ := hkeys i hia
        obtain rfl : u = t := Option.some.inj (hu.symm.trans (heq ▸ ht))
        cases i
        cases heq
        cases hus
        rfl
      · rintro ⟨hia, hi⟩
        exact ⟨fun heq => hi (congrArg TimerId.timer heq), hia⟩
    obtain ⟨s, hs, hsize, hmems⟩ := ih (q := { q with
        activeTimers := (q.activeTimers.erase ⟨e.timer, t.sequence⟩).1 }) hnodup
      (fun i hi => hkeys i ((hmem i).mp hi).1)
      (fun e' he' => by
        obtain ⟨u, hu, hua⟩ := hl e' (.tail _ he')
        refine ⟨u, hu, (hmem _).mpr ⟨hua, fun heq => hne ?_⟩⟩
        exact List.mem_map.mpr ⟨e', he', heq⟩)
    refine ⟨s, ?_, ?_, ?_⟩
    · simp only [eraseExpired, timerAt_eq ht, ok_bind, check_eq_ok (OrderedSet.erase_snd hact)]
      exact hs
    · have herase := OrderedSet.size_erase hact
      simp only [List.length_cons] at hsize ⊢
      omega
    · intro i
      simp only [hmems, hmem, List.map_cons, List.mem_cons, not_or, and_assoc]

/-- The entries that `getExpired` detaches. -/
def expired (q : TimerQueue) (now : Timestamp) : List Entry :=
  q.timers.beforeLowerBound ⟨now, UINTPTR_MAX⟩

/-- The queue after `getExpired`, with what is left in `activeTimers_`. -/
def remaining (q : TimerQueue) (now : Timestamp) (s : OrderedSet ActiveTimer) : TimerQueue :=
  { q with timers := q.timers.fromLowerBound ⟨now, UINTPTR_MAX⟩, activeTimers := s }

theorem Consistent.timers_nodup (hc : Consistent q held) :
    (q.timers.toList.map Entry.timer).Nodup := by
  apply (List.nodup_map_iff_inj_on q.timers.nodup).mpr
  intro e he e' he' heq
  obtain ⟨t, ht, hexp, _⟩ := hc.timers_key e he
  obtain ⟨t', ht', hexp', _⟩ := hc.timers_key e' he'
  obtain rfl : t' = t := Option.some.inj (ht'.symm.trans (heq ▸ ht))
  cases e
  cases e'
  cases heq
  cases hexp
  cases hexp'
  rfl

theorem Consistent.expired_nodup (hc : Consistent q held) (now : Timestamp) :
    ((q.expired now).map Entry.timer).Nodup := by
  refine hc.timers_nodup.sublist (List.Sublist.map _ ?_)
  exact List.takeWhile_sublist _

/-- The first entry that `getExpired` leaves is later than `now`, which it asserts. -/
def boundaryLater (q : TimerQueue) (now : Timestamp) : Prop :=
  ∀ it, (q.timers.fromLowerBound ⟨now, UINTPTR_MAX⟩).begin? = some it → now < it.when

/-- The batch takes each expired timer out of both indexes. -/
theorem Consistent.remaining (hc : Consistent q held) {now : Timestamp}
    {s : OrderedSet ActiveTimer}
    (hsizes : (q.timers.fromLowerBound ⟨now, UINTPTR_MAX⟩).size = s.size)
    (hmem : ∀ i, i ∈ s ↔ i ∈ q.activeTimers ∧ i.timer ∉ (q.expired now).map Entry.timer) :
    Consistent (q.remaining now s) ((q.expired now).map Entry.timer ++ held) := by
  have hexp : ∀ e, e ∈ q.expired now → e ∈ q.timers := fun e he =>
    (OrderedSet.mem_before.mp he).1
  -- an entry of `timers_` is in the batch exactly when its timer is
  have hbatch : ∀ e ∈ q.timers, e.timer ∈ (q.expired now).map Entry.timer →
      e ∈ q.expired now := by
    intro e he hmem
    obtain ⟨e', he', heq⟩ := List.mem_map.mp hmem
    exact List.inj_on_of_nodup_map hc.timers_nodup (hexp e' he') he heq ▸ he'
  have hperm : (q.queuedTimers ++ ((q.expired now).map Entry.timer ++ held)).Perm
      ((q.expired now).map Entry.timer ++ (q.queuedTimers ++ held)) := by
    rw [← List.append_assoc, ← List.append_assoc]
    exact List.perm_append_comm.append_right _
  refine { sizes := hsizes, timers_key := ?_, active_key := ?_, places_nodup := ?_,
           places_live := ?_, timers_free := ?_, placed := ?_,
           sequences := { hc.sequences with } }
  · intro e he
    obtain ⟨he, hlt⟩ := OrderedSet.mem_from.mp he
    obtain ⟨t, ht, htexp, hact⟩ := hc.timers_key e he
    refine ⟨t, ht, htexp, (hmem _).mpr ⟨hact, fun hin => hlt ?_⟩⟩
    exact (OrderedSet.mem_before.mp (hbatch e he hin)).2
  · intro i hi
    obtain ⟨hi, hnot⟩ := (hmem i).mp hi
    obtain ⟨t, ht, hseq, htim⟩ := hc.active_key i hi
    refine ⟨t, ht, hseq, OrderedSet.mem_from.mpr ⟨htim, fun hlt => hnot ?_⟩⟩
    exact List.mem_map.mpr ⟨_, OrderedSet.mem_before.mpr ⟨htim, hlt⟩, rfl⟩
  · refine hperm.nodup_iff.mpr
      (List.nodup_append.mpr ⟨hc.expired_nodup now, hc.places_nodup, ?_⟩)
    intro b hb c hcmem hbc
    obtain ⟨e, he, rfl⟩ := List.mem_map.mp hb
    exact hc.timers_free e (hexp e he) (hbc ▸ hcmem)
  · intro b hb
    rcases List.mem_append.mp (hperm.mem_iff.mp hb) with hb | hb
    · obtain ⟨e, he, rfl⟩ := List.mem_map.mp hb
      obtain ⟨t, ht, _⟩ := hc.timers_key e (hexp e he)
      exact ⟨t, ht⟩
    · exact hc.places_live b hb
  · intro e he hin
    obtain ⟨he, hlt⟩ := OrderedSet.mem_from.mp he
    rcases List.mem_append.mp (hperm.mem_iff.mp hin) with hin | hin
    · exact hlt (OrderedSet.mem_before.mp (hbatch e he hin)).2
    · exact hc.timers_free e he hin
  · intro b u hb
    rcases hc.placed b u hb with hin | hin
    · exact .inl (hperm.mem_iff.mpr (List.mem_append_right _ hin))
    · by_cases hlt : (⟨u.expiration, b⟩ : Entry) < ⟨now, UINTPTR_MAX⟩
      · refine .inl (hperm.mem_iff.mpr (List.mem_append_left _ ?_))
        exact List.mem_map.mpr ⟨_, OrderedSet.mem_before.mpr ⟨hin, hlt⟩, rfl⟩
      · exact .inr (OrderedSet.mem_from.mpr ⟨hin, hlt⟩)

/-- It hands the expired timers to the loop thread, and only later ones are left. -/
theorem getExpired_ok (hc : Consistent q held) {now : Timestamp} (hbound : q.boundaryLater now) :
    ∃ s, q.getExpired now = .ok (q.remaining now s, q.expired now) ∧
      Consistent (q.remaining now s) ((q.expired now).map Entry.timer ++ held) ∧
      ∀ e ∈ (q.remaining now s).timers, now < e.when := by
  obtain ⟨s, hs, hsize, hmem⟩ := eraseExpired_eq (q := { q with
      timers := q.timers.fromLowerBound ⟨now, UINTPTR_MAX⟩ }) (q.expired now)
    (hc.expired_nodup now)
    (fun i hi => by
      obtain ⟨t, ht, hseq, _⟩ := hc.active_key i hi
      exact ⟨t, ht, hseq⟩)
    (fun e he => by
      obtain ⟨t, ht, _, hact⟩ := hc.timers_key e (OrderedSet.mem_before.mp he).1
      exact ⟨t, ht, hact⟩)
  have hsizes : (q.timers.fromLowerBound ⟨now, UINTPTR_MAX⟩).size = s.size := by
    have h₁ := OrderedSet.size_before_from q.timers ⟨now, UINTPTR_MAX⟩
    have h₂ := hc.sizes
    change s.size + (q.expired now).length = q.activeTimers.size at hsize
    change (q.expired now).length + _ = _ at h₁
    omega
  refine ⟨s, ?_, hc.remaining hsizes hmem, ?_⟩
  · have hcheck : check (∀ it, (q.timers.fromLowerBound ⟨now, UINTPTR_MAX⟩).begin? = some it →
        now < it.when) .expiredBoundary = .ok () := check_eq_ok hbound
    have hs' : ({ q with timers := q.timers.fromLowerBound ⟨now, UINTPTR_MAX⟩ } :
        TimerQueue).eraseExpired (q.timers.beforeLowerBound ⟨now, UINTPTR_MAX⟩) =
        .ok (q.remaining now s) := hs
    have hfinal : (q.remaining now s).timers.size = (q.remaining now s).activeTimers.size :=
      hsizes
    simp only [getExpired, check_eq_ok hc.sizes, hcheck, ok_bind, hs',
      check_eq_ok hfinal, pure_eq_ok]
    rfl
  · intro e he
    change e ∈ q.timers.fromLowerBound ⟨now, UINTPTR_MAX⟩ at he
    cases hb : (q.timers.fromLowerBound ⟨now, UINTPTR_MAX⟩).begin? with
    | none => exact absurd he (OrderedSet.begin?_eq_none.mp hb e)
    | some b =>
      exact lt_of_lt_of_le (hbound b hb) (Entry.when_le_of_le (OrderedSet.begin?_le hb he))

/-- **What `getExpired` does.**  Either its assertion on the boundary entry fails, or
    it hands the expired timers to the loop thread and only later ones are left. -/
theorem getExpired_cases (hc : Consistent q held) (now : Timestamp) :
    q.getExpired now = .error .expiredBoundary ∨
      ∃ s, q.getExpired now = .ok (q.remaining now s, q.expired now) ∧
        Consistent (q.remaining now s) ((q.expired now).map Entry.timer ++ held) ∧
        ∀ e ∈ (q.remaining now s).timers, now < e.when := by
  by_cases hbound : q.boundaryLater now
  · exact .inr (getExpired_ok hc hbound)
  · left
    have hcheck : check (∀ it, (q.timers.fromLowerBound ⟨now, UINTPTR_MAX⟩).begin? = some it →
        now < it.when) .expiredBoundary = .error .expiredBoundary := if_neg hbound
    simp only [getExpired, check_eq_ok hc.sizes, ok_bind, hcheck]
    rfl

/-! ### `reset` -/

/-- **What one round of `reset` does.**  A repeating timer that is not being cancelled
    is restarted and goes back into both indexes; any other is deleted. -/
theorem resetOne_cases {e : Entry} (hc : Consistent q (e.timer :: held)) (now : Timestamp) :
    ∃ t, q.heap e.timer = some t ∧
      ((t.repeats = true ∧ (⟨e.timer, t.sequence⟩ : ActiveTimer) ∉ q.cancelingTimers ∧
          q.resetOne now e =
            .ok ((q.setHeap e.timer (some (t.restart now))).indexed e.timer (t.restart now))) ∨
        (¬ (t.repeats = true ∧ (⟨e.timer, t.sequence⟩ : ActiveTimer) ∉ q.cancelingTimers) ∧
          q.resetOne now e = .ok (q.deleted e.timer t))) := by
  obtain ⟨t, ht⟩ := hc.held_live
  refine ⟨t, ht, ?_⟩
  by_cases hcond : t.repeats = true ∧ (⟨e.timer, t.sequence⟩ : ActiveTimer) ∉ q.cancelingTimers
  · have hins := insert_eq (hc.updated ht (Timer.restart_sequence t now))
      (setHeap_same q e.timer _)
    refine .inl ⟨hcond.1, hcond.2, ?_⟩
    simp only [resetOne, timerAt_eq ht, ok_bind, if_pos hcond, hins, pure_eq_ok]
  · refine .inr ⟨hcond, ?_⟩
    simp only [resetOne, timerAt_eq ht, ok_bind, if_neg hcond, TimerQueue.delete, pure_eq_ok]
    rfl

theorem resetOne_ok {e : Entry} (hc : Consistent q (e.timer :: held)) (now : Timestamp) :
    ∃ q', q.resetOne now e = .ok q' ∧ Consistent q' held ∧ q'.batch = q.batch ∧
      q'.callingExpiredTimers = q.callingExpiredTimers := by
  obtain ⟨t, ht, ⟨_, _, heq⟩ | ⟨_, heq⟩⟩ := resetOne_cases hc now
  · exact ⟨_, heq, (hc.updated ht (Timer.restart_sequence t now)).indexed (setHeap_same q _ _),
      rfl, rfl⟩
  · exact ⟨_, heq, hc.deleted ht, rfl, rfl⟩

/-- The next expirations of the timers in the list that `reset` will restart do not
    overflow. -/
def fits (q : TimerQueue) (now : Timestamp) (l : List Entry) : Prop :=
  ∀ e ∈ l, ∀ t ∈ q.heap e.timer, t.repeats = true →
    (⟨e.timer, t.sequence⟩ : ActiveTimer) ∉ q.cancelingTimers → addTimeFits now t.interval

/-- A round changes no interval and cancels nothing. -/
theorem fits.resetOne {e : Entry} {rest : List Entry} {now : Timestamp} {q' : TimerQueue}
    (h : q.fits now (e :: rest)) (hc : Consistent q (e.timer :: held))
    (hq' : q.resetOne now e = .ok q') : q'.fits now rest := by
  intro e' he' u hu hrep hnot
  have hmem : e' ∈ e :: rest := List.mem_cons_of_mem _ he'
  obtain ⟨t, ht, ⟨-, -, heq⟩ | ⟨-, heq⟩⟩ := resetOne_cases hc now
  · obtain rfl := Except.ok.inj (heq.symm.trans hq')
    by_cases ha : e'.timer = e.timer
    · rw [ha] at hu hnot
      obtain rfl := Option.some.inj ((setHeap_same q e.timer _).symm.trans hu)
      rw [Timer.restart_sequence] at hnot
      rw [Timer.repeats, Timer.restart_interval] at hrep
      rw [Timer.restart_interval]
      exact h e List.mem_cons_self t ht hrep hnot
    · exact h e' hmem u ((setHeap_other q _ ha).symm.trans hu) hrep hnot
  · obtain rfl := Except.ok.inj (heq.symm.trans hq')
    have ha : e'.timer ≠ e.timer := by
      intro ha
      rw [ha] at hu
      cases (setHeap_same q e.timer none).symm.trans hu
    exact h e' hmem u ((setHeap_other q none ha).symm.trans hu) hrep hnot

/-- The condition on the steps of a run: no restart overflows. -/
def restartsFit (q : TimerQueue) : Action → Prop
  | .handleReadEnd => ∀ b ∈ q.batch, q.fits b.now b.ran
  | _ => True

instance (q : TimerQueue) (now : Timestamp) (l : List Entry) : Decidable (q.fits now l) :=
  inferInstanceAs (Decidable (∀ e ∈ l, ∀ t ∈ q.heap e.timer, _))

instance (q : TimerQueue) : (act : Action) → Decidable (q.restartsFit act)
  | .handleReadEnd => inferInstanceAs (Decidable (∀ b ∈ q.batch, q.fits b.now b.ran))
  | .addTimer _ _ _ _ => .isTrue trivial
  | .cancel _ _ => .isTrue trivial
  | .runFunctor => .isTrue trivial
  | .handleReadBegin _ => .isTrue trivial
  | .runExpired => .isTrue trivial

/-- **The rule for the loop of `reset`.**  It ends, and what holds before it and is kept
    by every round holds after it. -/
theorem resetLoop_rule {P : TimerQueue → List Entry → Prop} (now : Timestamp) (l : List Entry)
    (hround : ∀ q e rest q', P q (e :: rest) →
      Consistent q (e.timer :: (rest.map Entry.timer ++ held)) →
      q.resetOne now e = .ok q' → P q' rest)
    (hP : P q l) (hc : Consistent q (l.map Entry.timer ++ held)) :
    ∃ q', q.resetLoop now l = .ok q' ∧ Consistent q' held ∧ q'.batch = q.batch ∧
      q'.callingExpiredTimers = q.callingExpiredTimers ∧ P q' [] := by
  induction l generalizing q with
  | nil => exact ⟨q, rfl, hc, rfl, rfl, hP⟩
  | cons e rest ih =>
    obtain ⟨q₁, h₁, hc₁, hb₁, hcall₁⟩ := resetOne_ok hc now
    obtain ⟨q', h', hc', hb', hcall', hP'⟩ := ih (hround q e rest q₁ hP hc h₁) hc₁
    refine ⟨q', ?_, hc', hb'.trans hb₁, hcall'.trans hcall₁, hP'⟩
    simp only [resetLoop, h₁, ok_bind]
    exact h'

/-- The queue after `armNext`. -/
def armedNext (q : TimerQueue) : TimerQueue :=
  { q with armed := match q.timers.begin? with
      | some it => if 0 < it.when then some it.when else q.armed
      | none => q.armed }

theorem armNext_eq (hc : Consistent q held) : q.armNext = .ok q.armedNext := by
  unfold armNext armedNext
  cases hb : q.timers.begin? with
  | none => rfl
  | some it =>
    obtain ⟨t, ht, hexp, _⟩ := hc.timers_key it (OrderedSet.begin?_mem hb)
    simp only [timerAt_eq ht, ok_bind, hexp, Timestamp.valid, decide_eq_true_eq, pure_eq_ok]
    split <;> rfl

/-! ### The invariant of every run -/

/-- The timers of the batch that `handleRead` is processing. -/
def batchTimers (q : TimerQueue) : List Addr :=
  match q.batch with
  | some b => (b.ran ++ b.todo).map Entry.timer
  | none => []

structure Inv (q : TimerQueue) : Prop where
  consistent : Consistent q q.batchTimers
  calling : q.callingExpiredTimers = true ↔ q.batch ≠ none

theorem new_inv : Inv new := ⟨new_consistent, by simp [new]⟩

theorem batchTimers_congr {q' : TimerQueue} (h : q'.batch = q.batch) :
    q'.batchTimers = q.batchTimers := by
  simp only [batchTimers, h]

theorem addTimer_ok (hi : Inv q) (caller : Caller) (hfree : q.heap a = none)
    (when : Timestamp) (interval : Interval) :
    ∃ q', q.addTimer caller a when interval = .ok q' ∧ Inv q' := by
  have hnew := hi.consistent.newTimer hfree when interval
  cases caller with
  | loopThread =>
    have hat : (q.newTimer a when interval).heap a = some ⟨when, interval, q.numCreated + 1⟩ :=
      setHeap_same q a _
    exact ⟨_, addTimerInLoop_eq hnew hat, hnew.added hat, hi.calling⟩
  | otherThread => exact ⟨_, rfl, hnew.queued, hi.calling⟩

theorem cancel_ok (hi : Inv q) (caller : Caller) (id : TimerId) :
    ∃ q', q.cancel caller id = .ok q' ∧ Inv q' := by
  cases caller with
  | loopThread =>
    obtain ⟨q', heq, hc, hb, hcall⟩ := cancelInLoop_ok hi.consistent id
    refine ⟨q', heq, by rw [batchTimers_congr hb]; exact hc, ?_⟩
    rw [hcall, hb]
    exact hi.calling
  | otherThread =>
    refine ⟨_, rfl, hi.consistent.pending ?_, hi.calling⟩
    simp [queuedTimers]

theorem runFunctor_ok (hi : Inv q) : ∃ q', q.runFunctor = .ok q' ∧ Inv q' := by
  unfold runFunctor
  split
  · exact ⟨q, rfl, hi⟩
  · rename_i timer rest hp
    have hc := hi.consistent.dequeued hp
    obtain ⟨t, ht⟩ := hc.held_live
    exact ⟨_, addTimerInLoop_eq hc ht, hc.added ht, hi.calling⟩
  · rename_i id rest hp
    have hc : Consistent { q with pendingFunctors := rest } q.batchTimers :=
      hi.consistent.pending (by simp [queuedTimers, hp])
    obtain ⟨q', heq, hc', hb, hcall⟩ := cancelInLoop_ok hc id
    refine ⟨q', heq, by rw [batchTimers_congr hb]; exact hc', ?_⟩
    rw [hcall, hb]
    exact hi.calling

/-- The new timer goes into the indexes, or its functor into the queue. -/
theorem addTimer_cases {q' : TimerQueue} (hi : Inv q) {caller : Caller}
    (hfree : q.heap a = none) {when : Timestamp} {interval : Interval}
    (hq' : q.addTimer caller a when interval = .ok q') :
    (∃ t, q' = (q.newTimer a when interval).added a t) ∨
      q' = (q.newTimer a when interval).queueFunctor (.addTimerInLoop a) := by
  cases caller with
  | loopThread =>
    left
    have hcons := hi.consistent.newTimer hfree when interval
    obtain ⟨t, ht⟩ := hcons.held_live
    simp only [addTimer, addTimerInLoop_eq hcons ht] at hq'
    exact ⟨t, (Except.ok.inj hq').symm⟩
  | otherThread =>
    right
    exact (Except.ok.inj hq').symm

/-- The first functor leaves the queue; its timer goes into the indexes, or is cancelled. -/
theorem runFunctor_cases {q' : TimerQueue} (hi : Inv q) (hq' : q.runFunctor = .ok q') :
    q' = q ∨
    (∃ timer rest t, q.pendingFunctors = .addTimerInLoop timer :: rest ∧
      q' = added { q with pendingFunctors := rest } timer t) ∨
    ∃ id rest, q.pendingFunctors = .cancelInLoop id :: rest ∧
      queuedTimers { q with pendingFunctors := rest } = q.queuedTimers ∧
      Consistent { q with pendingFunctors := rest } q.batchTimers ∧
      cancelInLoop { q with pendingFunctors := rest } id = .ok q' := by
  unfold runFunctor at hq'
  split at hq'
  · left
    exact (Except.ok.inj hq').symm
  · rename_i timer rest hp
    right
    left
    have hcons := hi.consistent.dequeued hp
    obtain ⟨t, ht⟩ := hcons.held_live
    rw [addTimerInLoop_eq hcons ht] at hq'
    exact ⟨timer, rest, t, hp, (Except.ok.inj hq').symm⟩
  · rename_i id rest hp
    right
    right
    have hrest : queuedTimers { q with pendingFunctors := rest } = q.queuedTimers := by
      simp [queuedTimers, hp]
    exact ⟨id, rest, hp, hrest, hi.consistent.pending hrest, hq'⟩

theorem handleReadBegin_ok (hi : Inv q) (hb : q.batch = none) (now : Timestamp) :
    q.handleReadBegin now = .error .expiredBoundary ∨
      ∃ q', q.handleReadBegin now = .ok q' ∧ Inv q' := by
  have hc : Consistent { q with armed := none } [] := by
    have hnil : q.batchTimers = [] := by simp only [batchTimers, hb]
    exact (hnil ▸ hi.consistent).congr rfl rfl rfl rfl rfl rfl
  rcases getExpired_cases hc now with herr | ⟨s, heq, hcons, _⟩
  · left
    simp only [handleReadBegin, herr]
    rfl
  · refine .inr ⟨_, by simp only [handleReadBegin, heq, ok_bind]; rfl, ?_, by simp⟩
    simp only [List.append_nil] at hcons
    exact hcons.congr rfl rfl rfl rfl rfl rfl

theorem runExpired_ok (hi : Inv q) : ∃ q', q.runExpired = .ok q' ∧ Inv q' := by
  unfold runExpired
  split
  · rename_i now ran it rest hb
    have hmem : it.timer ∈ q.batchTimers := by simp [batchTimers, hb]
    obtain ⟨t, ht⟩ := hi.consistent.places_live _ (List.mem_append_right _ hmem)
    refine ⟨_, by simp only [timerAt_eq ht, ok_bind]; rfl, ?_, ?_⟩
    · have hsame : q.batchTimers = ((ran ++ [it]) ++ rest).map Entry.timer := by
        simp [batchTimers, hb]
      exact (hsame ▸ hi.consistent).congr rfl rfl rfl rfl rfl
        (by simp [record, deletedSequences])
    · have h := hi.calling
      rw [hb] at h
      simpa [record] using h
  · exact ⟨q, rfl, hi⟩

/-- The queue when the loop of `reset` begins. -/
def batchDone (q : TimerQueue) : TimerQueue :=
  { q with callingExpiredTimers := false, batch := none }

/-- **The rule for the end of `handleRead`**: that of the loop of `reset`, and the last arm. -/
theorem handleReadEnd_rule {P : TimerQueue → List Entry → Prop} {now : Timestamp}
    {ran : List Entry} (hi : Inv q) (hb : q.batch = some ⟨now, ran, []⟩)
    (hround : ∀ q e rest q', P q (e :: rest) →
      Consistent q (e.timer :: (rest.map Entry.timer ++ [])) →
      q.resetOne now e = .ok q' → P q' rest)
    (hP : P q.batchDone ran) :
    ∃ q₁, q.handleReadEnd = .ok q₁.armedNext ∧ Consistent q₁ [] ∧ q₁.batch = none ∧
      q₁.callingExpiredTimers = false ∧ P q₁ [] := by
  have hc : Consistent q.batchDone (ran.map Entry.timer ++ []) := by
    have hran : q.batchTimers = ran.map Entry.timer ++ [] := by
      simp only [batchTimers, hb, List.append_nil]
    exact (hran ▸ hi.consistent).congr rfl rfl rfl rfl rfl rfl
  obtain ⟨q₁, heq, hc₁, hb₁, hcall₁, hP₁⟩ := resetLoop_rule now ran hround hP hc
  refine ⟨q₁, ?_, hc₁, hb₁, hcall₁, hP₁⟩
  unfold batchDone at heq
  simp only [handleReadEnd, hb, heq, ok_bind, armNext_eq hc₁]

/-- Without a batch that has been run there is nothing to end. -/
theorem handleReadEnd_idle (h : ¬ ∃ now ran, q.batch = some ⟨now, ran, []⟩) :
    q.handleReadEnd = .ok q := by
  unfold handleReadEnd
  split
  · rename_i now ran hb
    exact absurd ⟨now, ran, hb⟩ h
  · rfl

theorem handleReadEnd_ok (hi : Inv q) : ∃ q', q.handleReadEnd = .ok q' ∧ Inv q' := by
  by_cases hbatch : ∃ now ran, q.batch = some ⟨now, ran, []⟩
  · obtain ⟨now, ran, hb⟩ := hbatch
    obtain ⟨q₁, heq, hc₁, hb₁, hcall₁, _⟩ :=
      handleReadEnd_rule (P := fun _ _ => True) hi hb (fun _ _ _ _ _ _ _ => trivial) trivial
    refine ⟨_, heq, ?_, ?_⟩
    · have hnil : q₁.armedNext.batchTimers = [] := by simp only [batchTimers, armedNext, hb₁]
      rw [hnil]
      exact hc₁.congr rfl rfl rfl rfl rfl rfl
    · simp [armedNext, hcall₁, hb₁]
  · exact ⟨q, handleReadEnd_idle hbatch, hi⟩

/-- **The step lemma.**  From a state with the invariant no step fails an assertion,
    except that of `getExpired` on the boundary entry, and the invariant is kept. -/
theorem step_ok (hi : Inv q) {act : Action} (hen : q.enabled act) :
    q.step act = .error .expiredBoundary ∨ ∃ q', q.step act = .ok q' ∧ Inv q' := by
  cases act with
  | addTimer caller timer when interval => exact .inr (addTimer_ok hi caller hen.2.1 when interval)
  | cancel caller id => exact .inr (cancel_ok hi caller id)
  | runFunctor => exact .inr (runFunctor_ok hi)
  | handleReadBegin now => exact handleReadBegin_ok hi hen now
  | runExpired => exact .inr (runExpired_ok hi)
  | handleReadEnd => exact .inr (handleReadEnd_ok hi)

theorem Inv.step {act : Action} {q' : TimerQueue} (hi : Inv q)
    (hst : TimerQueue.system.Step q act q') : Inv q' := by
  rcases step_ok hi hst.1 with herr | ⟨q₁, heq, hi'⟩
  · cases herr.symm.trans hst.2
  · obtain rfl : q₁ = q' := Except.ok.inj (heq.symm.trans hst.2)
    exact hi'

/-- **Every reachable queue has the invariant.** -/
theorem reachable_inv (h : TimerQueue.system.Reachable q) : Inv q :=
  h.invariant (fun _ h₀ => h₀ ▸ new_inv) (fun _ _ _ => Inv.step)

end Kaycc.TimerQueue
