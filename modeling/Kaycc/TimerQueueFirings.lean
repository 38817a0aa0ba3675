/-
  Kaycc/TimerQueueFirings.lean
  ============================
  **No callback starts early or too often.**

  The timer queue is observed: for every callback that a `handleRead` starts we
  note which `handleRead` it was, its `now`, and the timer's `expiration_` and
  interval at that moment.  The invariant says what the `expiration_` of a timer
  means in each of its places.  At rest it is at least one interval after every
  past start, as long as no `addTime` overflows; in the expired batch it is the batch
  entry's key, which is not after `now`; and of a timer that has already been started
  in this batch nothing is known but that its past starts are not after `now`, which
  is where `restart` counts from.
-/
import Kaycc.TimerQueueCancel

namespace Kaycc.TimerQueue

open Transition Transition.System

variable {q q' : TimerQueue} {a : Addr} {t : Timer} {fit : Prop}

/-! ### The observed queue -/

/-- A callback that was started. -/
structure Firing where
  round : Nat                  -- the number of the handleRead
  now : Timestamp
  id : TimerId
  expiration : Timestamp
  interval : Interval

def Firing.entry (f : Firing) : Entry := ⟨f.expiration, f.id.timer⟩

structure Observed where
  queue : TimerQueue
  rounds : Nat                 -- how often handleRead has been entered
  firings : List Firing

namespace Observed

/-- What the step starts. -/
def firedBy (o : Observed) : Action → List Firing
  | .runExpired =>
      match o.queue.batch with
      | some ⟨now, _, it :: _⟩ =>
          match o.queue.heap it.timer with
          | some t => [⟨o.rounds, now, ⟨it.timer, t.sequence⟩, t.expiration, t.interval⟩]
          | none => []
      | _ => []
  | _ => []

def roundsAfter (o : Observed) : Action → Nat
  | .handleReadBegin _ => o.rounds + 1
  | _ => o.rounds

def step (o : Observed) (act : Action) : Except Assertion Observed := do
  let q ← o.queue.step act
  pure ⟨q, o.roundsAfter act, o.firings ++ o.firedBy act⟩

def system : System Observed Action Assertion where
  init o := o = ⟨new, 0, []⟩
  enabled o act := o.queue.enabled act
  step := step

instance (o : Observed) (act : Action) : Decidable (Observed.system.enabled o act) :=
  inferInstanceAs (Decidable (TimerQueue.system.enabled o.queue act))

end Observed

/-! ### The invariant -/

/-- The past starts of the live timers, of which those at `ran` have been started in the
    batch read at `now` and wait for `reset`; `fit` says that no restart overflows. -/
structure Spaced (fit : Prop) (fs : List Firing) (q : TimerQueue) (now : Timestamp)
    (ran : List Addr) : Prop where
  known : ∀ f ∈ fs, f.id.sequence ≤ q.numCreated
  rested : ∀ f ∈ fs, ∀ a t, q.heap a = some t → f.id = ⟨a, t.sequence⟩ → a ∉ ran →
    f.interval = t.interval ∧ t.repeats = true ∧
      (fit → 0 ≤ t.interval.micros ∧ f.now + t.interval.micros ≤ t.expiration)
  recent : ∀ f ∈ fs, ∀ a t, q.heap a = some t → f.id = ⟨a, t.sequence⟩ → a ∈ ran →
    f.interval = t.interval ∧ (fit → f.now ≤ now)

/-- The expired batch: sorted, due, and its keys are the timers' own. -/
structure BatchInv (fs : List Firing) (rounds : Nat) (q : TimerQueue) (b : Batch) : Prop where
  sorted : (b.ran ++ b.todo).Pairwise (· < ·)
  due : ∀ e ∈ b.ran ++ b.todo, e.when ≤ b.now
  keyed : ∀ e ∈ b.ran ++ b.todo, ∃ t, q.heap e.timer = some t ∧ t.expiration = e.when
  thisRound : ∀ f ∈ fs, f.round = rounds → f.entry ∈ b.ran

/-- The `now` of the batch being processed. -/
def batchNow (q : TimerQueue) : Timestamp :=
  match q.batch with
  | some b => b.now
  | none => Timestamp.invalid

structure FiringInv (fit : Prop) (o : Observed) : Prop where
  notEarly : ∀ f ∈ o.firings, f.expiration ≤ f.now
  rounds : ∀ f ∈ o.firings, f.round ≤ o.rounds
  ordered : o.firings.Pairwise fun f g => f.round = g.round → f.entry < g.entry ∧ f.id ≠ g.id
  apart : o.firings.Pairwise fun f g => f.id = g.id →
    f.interval.positive = true ∧ (fit → f.now + f.interval.micros ≤ g.now)
  spaced : Spaced fit o.firings o.queue o.queue.batchNow o.queue.alreadyRun
  batch : ∀ b, o.queue.batch = some b → BatchInv o.firings o.rounds o.queue b

theorem new_firingInv : FiringInv fit ⟨new, 0, []⟩ where
  notEarly := fun f hf => absurd hf List.not_mem_nil
  rounds := fun f hf => absurd hf List.not_mem_nil
  ordered := List.Pairwise.nil
  apart := List.Pairwise.nil
  spaced :=
    { known := fun f hf => absurd hf List.not_mem_nil
      rested := fun f hf => absurd hf List.not_mem_nil
      recent := fun f hf => absurd hf List.not_mem_nil }
  batch := fun b h => by cases h

/-- A step that starts nothing. -/
theorem FiringInv.quiet {o : Observed} {rounds : Nat} (h : FiringInv fit o) (hr : o.rounds ≤ rounds)
    (hs : Spaced fit o.firings q' q'.batchNow q'.alreadyRun)
    (hb : ∀ b, q'.batch = some b → BatchInv o.firings rounds q' b) :
    FiringInv fit ⟨q', rounds, o.firings⟩ where
  notEarly := h.notEarly
  rounds := fun f hf => (h.rounds f hf).trans hr
  ordered := h.ordered
  apart := h.apart
  spaced := hs
  batch := hb

/-! ### Adding and cancelling -/

/-- The timers of the batch are left alone, and what is live is as before or new. -/
structure Frame (q q' : TimerQueue) : Prop where
  live : ∀ a t, q'.heap a = some t → q.heap a = some t ∨ q.numCreated < t.sequence
  created : q.numCreated ≤ q'.numCreated
  batch : q'.batch = q.batch
  held : ∀ a ∈ q.batchTimers, q'.heap a = q.heap a

theorem Frame.of_eq (hh : q'.heap = q.heap) (hn : q'.numCreated = q.numCreated)
    (hb : q'.batch = q.batch) : Frame q q' where
  live := fun a t ht => .inl (hh ▸ ht)
  created := hn ▸ Nat.le_refl _
  batch := hb
  held := fun a _ => by rw [hh]

theorem frame_newTimer (hi : Inv q) (hfree : q.heap a = none) (when : Timestamp)
    (interval : Interval) : Frame q (q.newTimer a when interval) where
  live := by
    intro b t hb
    by_cases hba : b = a
    · subst hba
      obtain rfl := Option.some.inj ((setHeap_same q b _).symm.trans hb)
      exact .inr (Nat.lt_succ_self _)
    · exact .inl ((setHeap_other q _ hba).symm.trans hb)
  created := Nat.le_succ _
  batch := rfl
  held := by
    intro b hb
    have hba : b ≠ a := by
      rintro rfl
      rcases hi.consistent.places_live b (List.mem_append_right _ hb) with ⟨t, ht⟩
      rw [hfree] at ht
      cases ht
    exact setHeap_other q _ hba

theorem frame_cancelInLoop (hc : Consistent q q.batchTimers) {id : TimerId}
    (hq' : q.cancelInLoop id = .ok q') : Frame q q' := by
  rcases cancelInLoop_cases hc id with ⟨t, hact, ht, hid, heq⟩ | ⟨_, heq⟩
  · obtain rfl := Except.ok.inj (heq.symm.trans hq')
    have hheap : ∀ b, b ≠ id.timer →
        (((q.detached id.timer t).deleted id.timer t).record (.cancelled id)).heap b = q.heap b :=
      fun b hb => setHeap_other _ none hb
    constructor
    · intro b u hb
      have hne : b ≠ id.timer := by
        rintro rfl
        cases (setHeap_same (q.detached id.timer t) id.timer none).symm.trans hb
      exact .inl ((hheap b hne).symm.trans hb)
    · exact Nat.le_refl _
    · rfl
    · intro b hb
      -- a timer of the batch is not in the indexes
      have hne : b ≠ id.timer := by
        rintro rfl
        have htim := (hc.active_timer (hid ▸ hact) ht).2
        exact hc.timers_free _ htim (List.mem_append_right _ hb)
      exact hheap b hne
  · obtain rfl := Except.ok.inj (heq.symm.trans hq')
    exact Frame.of_eq rfl rfl rfl

/-- A timer that is new has not been started yet. -/
theorem Spaced.of_live {fs : List Firing} {now : Timestamp} {ran : List Addr}
    (h : Spaced fit fs q now ran)
    (hlive : ∀ a t, q'.heap a = some t → q.heap a = some t ∨ q.numCreated < t.sequence)
    (hn : q.numCreated ≤ q'.numCreated) : Spaced fit fs q' now ran where
  known := fun f hfs => (h.known f hfs).trans hn
  rested := by
    intro f hfs a t ht hid
    rcases hlive a t ht with hold | hnew
    · exact h.rested f hfs a t hold hid
    · have hle := h.known f hfs
      rw [hid] at hle
      exact absurd hle (Nat.not_le_of_lt hnew)
  recent := by
    intro f hfs a t ht hid
    rcases hlive a t ht with hold | hnew
    · exact h.recent f hfs a t hold hid
    · have hle := h.known f hfs
      rw [hid] at hle
      exact absurd hle (Nat.not_le_of_lt hnew)

theorem Spaced.congr {fs : List Firing} {now : Timestamp} {ran : List Addr}
    (h : Spaced fit fs q now ran) (hh : q'.heap = q.heap) (hn : q'.numCreated = q.numCreated) :
    Spaced fit fs q' now ran :=
  h.of_live (fun _ _ ht => .inl (hh ▸ ht)) (hn ▸ Nat.le_refl _)

theorem FiringInv.frame {o : Observed} (h : FiringInv fit o) (hf : Frame o.queue q') :
    FiringInv fit ⟨q', o.rounds, o.firings⟩ := by
  have hnow : q'.batchNow = o.queue.batchNow := by simp only [batchNow, hf.batch]
  have hran : q'.alreadyRun = o.queue.alreadyRun := by simp only [alreadyRun, hf.batch]
  apply h.quiet (Nat.le_refl _)
  · rw [hnow, hran]
    exact h.spaced.of_live hf.live hf.created
  · intro b hb
    rw [hf.batch] at hb
    have hinv := h.batch b hb
    constructor
    · exact hinv.sorted
    · exact hinv.due
    · intro e he
      have hmem : e.timer ∈ o.queue.batchTimers := by
        simp only [batchTimers, hb]
        exact List.mem_map.mpr ⟨e, he, rfl⟩
      rw [hf.held _ hmem]
      exact hinv.keyed e he
    · exact hinv.thisRound

/-! ### `handleRead` -/

/-- Without a batch the time it was read does not matter. -/
theorem Spaced.at_rest {fs : List Firing} {now now' : Timestamp} (h : Spaced fit fs q now []) :
    Spaced fit fs q now' [] where
  known := h.known
  rested := h.rested
  recent := fun _ _ _ _ _ _ hmem => absurd hmem List.not_mem_nil

theorem FiringInv.handleReadBegin {o : Observed} {now : Timestamp} (h : FiringInv fit o)
    (hi : Inv o.queue) (hb : o.queue.batch = none) (hq' : o.queue.handleReadBegin now = .ok q') :
    FiringInv fit ⟨q', o.rounds + 1, o.firings⟩ := by
  have hc : Consistent { o.queue with armed := none } o.queue.batchTimers :=
    hi.consistent.congr rfl rfl rfl rfl rfl rfl
  have hrest : o.queue.alreadyRun = [] := by simp only [alreadyRun, hb]
  have hspaced := h.spaced
  rw [hrest] at hspaced
  rcases getExpired_cases hc now with herr | ⟨s, heq, _, _⟩
  · simp only [TimerQueue.handleReadBegin, herr] at hq'
    cases hq'
  · simp only [TimerQueue.handleReadBegin, heq, ok_bind, pure_eq_ok] at hq'
    obtain rfl := Except.ok.inj hq'
    apply h.quiet (Nat.le_succ _)
    · exact Spaced.congr hspaced.at_rest rfl rfl
    · intro b hb'
      obtain rfl := Option.some.inj hb'
      constructor
      · exact OrderedSet.before_sorted _ _
      · intro e he
        exact Entry.when_le_of_le (le_of_lt (OrderedSet.mem_before.mp he).2)
      · intro e he
        rcases hi.consistent.timers_key e (OrderedSet.mem_before.mp he).1 with ⟨t, ht, hexp, _⟩
        exact ⟨t, ht, hexp⟩
      · intro f hf hround
        have hle := h.rounds f hf
        omega

theorem runExpired_eq {now : Timestamp} {ran rest : List Entry} {it : Entry}
    (hb : q.batch = some ⟨now, ran, it :: rest⟩) (ht : q.heap it.timer = some t) :
    q.runExpired = .ok { q.record (.started ⟨it.timer, t.sequence⟩) with
      batch := some ⟨now, ran ++ [it], rest⟩ } := by
  simp only [runExpired, hb, timerAt_eq ht, ok_bind, pure_eq_ok]

/-- The timers of the batch are different ones. -/
theorem Inv.batch_nodup (hi : Inv q) {b : Batch} (hb : q.batch = some b) :
    ((b.ran ++ b.todo).map Entry.timer).Nodup := by
  have h := (List.nodup_append.mp hi.consistent.places_nodup).2.1
  simpa only [batchTimers, hb] using h

/-- What is known of the batch's next timer. -/
structure NextStart (fit : Prop) (o : Observed) (now : Timestamp) (ran : List Entry) (it : Entry)
    (t : Timer) : Prop where
  key : t.expiration = it.when
  due : t.expiration ≤ now
  fresh : it.timer ∉ ran.map Entry.timer
  last : ∀ e ∈ ran, e < it
  -- a past start was at least one interval before the expiration
  past : ∀ f ∈ o.firings, f.id = ⟨it.timer, t.sequence⟩ →
    f.interval = t.interval ∧ t.repeats = true ∧
      (fit → 0 ≤ t.interval.micros ∧ f.now + t.interval.micros ≤ t.expiration)

theorem FiringInv.nextStart {o : Observed} {now : Timestamp} {ran rest : List Entry} {it : Entry}
    (h : FiringInv fit o) (hi : Inv o.queue) (hb : o.queue.batch = some ⟨now, ran, it :: rest⟩)
    (ht : o.queue.heap it.timer = some t) : NextStart fit o now ran it t := by
  have hbatch := h.batch _ hb
  have hmem : it ∈ ran ++ it :: rest := List.mem_append_right _ List.mem_cons_self
  have hkey : t.expiration = it.when := by
    rcases hbatch.keyed it hmem with ⟨u, hu, hexp⟩
    obtain rfl : u = t := Option.some.inj (hu.symm.trans ht)
    exact hexp
  have hfresh : it.timer ∉ ran.map Entry.timer := by
    have hnodup := hi.batch_nodup hb
    simp only [List.map_append, List.map_cons] at hnodup
    exact fun hin => List.disjoint_of_nodup_append hnodup hin List.mem_cons_self
  constructor
  · exact hkey
  · exact hkey ▸ hbatch.due it hmem
  · exact hfresh
  · intro e he
    exact (List.pairwise_append.mp hbatch.sorted).2.2 e he it List.mem_cons_self
  · intro f hf hid
    have hrun : o.queue.alreadyRun = ran.map Entry.timer := by simp only [alreadyRun, hb]
    exact h.spaced.rested f hf it.timer t ht hid (hrun ▸ hfresh)

/-- The start of the batch's next timer. -/
def firing (o : Observed) (now : Timestamp) (it : Entry) (t : Timer) : Firing :=
  ⟨o.rounds, now, ⟨it.timer, t.sequence⟩, t.expiration, t.interval⟩

section

variable {o : Observed} {now : Timestamp} {ran rest : List Entry} {it : Entry}

theorem NextStart.ordered (hn : NextStart fit o now ran it t) (h : FiringInv fit o)
    (hb : o.queue.batch = some ⟨now, ran, it :: rest⟩) :
    (o.firings ++ [firing o now it t]).Pairwise fun f g =>
      f.round = g.round → f.entry < g.entry ∧ f.id ≠ g.id := by
  apply List.pairwise_append.mpr
  refine ⟨h.ordered, List.pairwise_singleton _ _, ?_⟩
  intro f hf g hg hround
  obtain rfl := List.mem_singleton.mp hg
  have hran : f.entry ∈ ran := (h.batch _ hb).thisRound f hf hround
  constructor
  · have hentry : (firing o now it t).entry = it := by
      simp only [firing, Firing.entry, hn.key]
    rw [hentry]
    exact hn.last _ hran
  · intro hid
    exact hn.fresh (List.mem_map.mpr ⟨f.entry, hran, congrArg TimerId.timer hid⟩)

theorem NextStart.apart (hn : NextStart fit o now ran it t) (h : FiringInv fit o) :
    (o.firings ++ [firing o now it t]).Pairwise fun f g =>
      f.id = g.id →
        f.interval.positive = true ∧ (fit → f.now + f.interval.micros ≤ g.now) := by
  apply List.pairwise_append.mpr
  refine ⟨h.apart, List.pairwise_singleton _ _, ?_⟩
  intro f hf g hg hid
  obtain rfl := List.mem_singleton.mp hg
  rcases hn.past f hf hid with ⟨hint, hrep, hpast⟩
  rw [hint]
  exact ⟨hrep, fun hfit => (hpast hfit).2.trans hn.due⟩

/-- The started timer joins those of which only `now` is known. -/
theorem NextStart.spaced (hn : NextStart fit o now ran it t)
    (hs : Spaced fit o.firings o.queue now (ran.map Entry.timer)) (hi : Inv o.queue)
    (ht : o.queue.heap it.timer = some t) :
    Spaced fit (o.firings ++ [firing o now it t]) o.queue now ((ran ++ [it]).map Entry.timer) where
  known := by
    intro f hf
    rcases List.mem_append.mp hf with hf | hf
    · exact hs.known f hf
    · obtain rfl := List.mem_singleton.mp hf
      exact (hi.consistent.sequences.numbered _ _ ht).2
  rested := by
    intro f hf a u hu hid hnot
    rw [List.map_append, List.mem_append, not_or] at hnot
    rcases List.mem_append.mp hf with hf | hf
    · exact hs.rested f hf a u hu hid hnot.1
    · obtain rfl := List.mem_singleton.mp hf
      have heq : it.timer = a := congrArg TimerId.timer hid
      exact absurd (heq ▸ List.mem_singleton_self _) hnot.2
  recent := by
    intro f hf a u hu hid hmem
    by_cases ha : a = it.timer
    · subst ha
      obtain rfl : u = t := Option.some.inj (hu.symm.trans ht)
      rcases List.mem_append.mp hf with hf | hf
      · rcases hn.past f hf hid with ⟨hint, -, hpast⟩
        refine ⟨hint, fun hfit => ?_⟩
        obtain ⟨hnonneg, hle⟩ := hpast hfit
        have hpos : f.now ≤ f.now + u.interval.micros := Int.le_add_of_nonneg_right hnonneg
        exact hpos.trans (hle.trans hn.due)
      · obtain rfl := List.mem_singleton.mp hf
        exact ⟨rfl, fun _ => le_refl now⟩
    · rw [List.map_append, List.mem_append, List.map_singleton, List.mem_singleton] at hmem
      rcases List.mem_append.mp hf with hf | hf
      · exact hs.recent f hf a u hu hid (hmem.resolve_right ha)
      · obtain rfl := List.mem_singleton.mp hf
        exact absurd (congrArg TimerId.timer hid).symm ha

theorem NextStart.batch (hn : NextStart fit o now ran it t) {q' : TimerQueue}
    (hb : BatchInv o.firings o.rounds o.queue ⟨now, ran, it :: rest⟩)
    (hheap : q'.heap = o.queue.heap) :
    BatchInv (o.firings ++ [firing o now it t]) o.rounds q' ⟨now, ran ++ [it], rest⟩ := by
  have happ : ran ++ [it] ++ rest = ran ++ it :: rest := by simp
  constructor
  · rw [happ]
    exact hb.sorted
  · rw [happ]
    exact hb.due
  · rw [happ, hheap]
    exact hb.keyed
  · intro f hf hround
    rcases List.mem_append.mp hf with hf | hf
    · exact List.mem_append_left _ (hb.thisRound f hf hround)
    · obtain rfl := List.mem_singleton.mp hf
      simp [firing, Firing.entry, hn.key]

theorem FiringInv.runExpired (h : FiringInv fit o) (hi : Inv o.queue)
    (hb : o.queue.batch = some ⟨now, ran, it :: rest⟩) (ht : o.queue.heap it.timer = some t)
    (hq' : o.queue.runExpired = .ok q') :
    FiringInv fit ⟨q', o.rounds, o.firings ++ [firing o now it t]⟩ := by
  have hn := h.nextStart hi hb ht
  have hs := h.spaced
  simp only [alreadyRun, batchNow, hb] at hs
  obtain rfl := Except.ok.inj ((runExpired_eq hb ht).symm.trans hq')
  constructor
  · intro f hf
    rcases List.mem_append.mp hf with hf | hf
    · exact h.notEarly f hf
    · obtain rfl := List.mem_singleton.mp hf
      exact hn.due
  · intro f hf
    rcases List.mem_append.mp hf with hf | hf
    · exact h.rounds f hf
    · obtain rfl := List.mem_singleton.mp hf
      exact Nat.le_refl _
  · exact hn.ordered h hb
  · exact hn.apart h
  · exact (hn.spaced hs hi ht).congr rfl rfl
  · intro b hb'
    obtain rfl := Option.some.inj hb'
    exact hn.batch (h.batch _ hb) rfl

end

/-- `restart` puts the next expiration one interval after `now`, and so after every start. -/
theorem Spaced.resetOne {fs : List Firing} {held : List Addr} {now : Timestamp} {e : Entry}
    {rest : List Entry} (h : Spaced fit fs q now ((e :: rest).map Entry.timer))
    (hfit : fit → q.fits now (e :: rest)) (hc : Consistent q (e.timer :: held))
    (hq' : q.resetOne now e = .ok q') : Spaced fit fs q' now (rest.map Entry.timer) := by
  rcases resetOne_cases hc now with ⟨t, ht, ⟨hrep, hcancel, heq⟩ | ⟨_, heq⟩⟩
  · obtain rfl := Except.ok.inj (heq.symm.trans hq')
    have hsame : ∀ a, a ≠ e.timer → ((q.setHeap e.timer (some (t.restart now))).indexed e.timer
        (t.restart now)).heap a = q.heap a := fun a ha => setHeap_other q _ ha
    constructor
    · exact h.known
    · intro f hf a u hu hid hnot
      by_cases ha : a = e.timer
      · subst ha
        obtain rfl := Option.some.inj ((setHeap_same q e.timer _).symm.trans hu)
        rw [Timer.restart_sequence] at hid
        rcases h.recent f hf _ t ht hid List.mem_cons_self with ⟨hint, hle⟩
        rw [Timer.restart_interval]
        refine ⟨hint, ?_, fun hf => ?_⟩
        · rw [Timer.repeats, Timer.restart_interval]
          exact hrep
        · have hfits := hfit hf e List.mem_cons_self t ht hrep hcancel
          rw [Timer.restart_expiration hrep hfits]
          exact ⟨hfits.1, Int.add_le_add_right (hle hf) _⟩
      · rw [hsame a ha] at hu
        exact h.rested f hf a u hu hid fun hmem => hnot ((List.mem_cons.mp hmem).resolve_left ha)
    · intro f hf a u hu hid hmem
      by_cases ha : a = e.timer
      · subst ha
        obtain rfl := Option.some.inj ((setHeap_same q e.timer _).symm.trans hu)
        rw [Timer.restart_sequence] at hid
        rcases h.recent f hf _ t ht hid List.mem_cons_self with ⟨hint, hle⟩
        rw [Timer.restart_interval]
        exact ⟨hint, hle⟩
      · rw [hsame a ha] at hu
        exact h.recent f hf a u hu hid (List.mem_cons_of_mem _ hmem)
  · obtain rfl := Except.ok.inj (heq.symm.trans hq')
    have hlive : ∀ a u, (q.deleted e.timer t).heap a = some u →
        q.heap a = some u ∧ a ≠ e.timer := by
      intro a u hu
      have hne : a ≠ e.timer := by
        rintro rfl
        cases (setHeap_same q e.timer none).symm.trans hu
      exact ⟨(setHeap_other q none hne).symm.trans hu, hne⟩
    constructor
    · exact h.known
    · intro f hf a u hu hid hnot
      rcases hlive a u hu with ⟨hu, ha⟩
      exact h.rested f hf a u hu hid fun hmem => hnot ((List.mem_cons.mp hmem).resolve_left ha)
    · intro f hf a u hu hid hmem
      exact h.recent f hf a u (hlive a u hu).1 hid (List.mem_cons_of_mem _ hmem)

theorem FiringInv.handleReadEnd {o : Observed} (h : FiringInv fit o) (hi : Inv o.queue)
    (hfit : fit → o.queue.restartsFit .handleReadEnd) (hq' : o.queue.handleReadEnd = .ok q') :
    FiringInv fit ⟨q', o.rounds, o.firings⟩ := by
  by_cases hbatch : ∃ now ran, o.queue.batch = some ⟨now, ran, []⟩
  · rcases hbatch with ⟨now, ran, hb⟩
    have hs := h.spaced
    simp only [alreadyRun, batchNow, hb] at hs
    have hfit₀ : fit → o.queue.batchDone.fits now ran := fun hf => hfit hf _ hb
    obtain ⟨q₁, heq, _, hb₁, _, hs₁, -⟩ := handleReadEnd_rule
      (P := fun q rest => Spaced fit o.firings q now (rest.map Entry.timer) ∧
        (fit → q.fits now rest)) hi hb
      (fun _ _ _ _ hP hcons hround =>
        ⟨hP.1.resetOne hP.2 hcons hround, fun hf => (hP.2 hf).resetOne hcons hround⟩)
      ⟨hs.congr rfl rfl, hfit₀⟩
    obtain rfl := Except.ok.inj (heq.symm.trans hq')
    have hnone : q₁.armedNext.batch = none := hb₁
    apply h.quiet (Nat.le_refl _)
    · simp only [alreadyRun, batchNow, hnone]
      exact Spaced.congr hs₁.at_rest rfl rfl
    · intro b hb
      rw [hnone] at hb
      cases hb
  · obtain rfl := Except.ok.inj ((handleReadEnd_idle hbatch).symm.trans hq')
    exact h

/-! ### Every step -/

/-- What `addTimer`, `cancel` and the functors do to the queue is a frame. -/
theorem frame_addTimer (hi : Inv q) (caller : Caller) (hfree : q.heap a = none)
    {when : Timestamp} {interval : Interval} (hq' : q.addTimer caller a when interval = .ok q') :
    Frame q q' := by
  have hnew := frame_newTimer hi hfree when interval
  rcases addTimer_cases hi hfree hq' with ⟨t, rfl⟩ | rfl
  · exact ⟨hnew.live, hnew.created, hnew.batch, hnew.held⟩
  · exact ⟨hnew.live, hnew.created, hnew.batch, hnew.held⟩

theorem frame_cancel (hi : Inv q) {caller : Caller} {id : TimerId}
    (hq' : q.cancel caller id = .ok q') : Frame q q' := by
  cases caller with
  | loopThread => exact frame_cancelInLoop hi.consistent hq'
  | otherThread =>
    obtain rfl := Except.ok.inj hq'
    exact Frame.of_eq rfl rfl rfl

theorem frame_runFunctor (hi : Inv q) (hq' : q.runFunctor = .ok q') : Frame q q' := by
  rcases runFunctor_cases hi hq' with
    rfl | ⟨timer, rest, t, -, rfl⟩ | ⟨id, rest, -, -, hcons, hrest⟩
  · exact Frame.of_eq rfl rfl rfl
  · exact Frame.of_eq rfl rfl rfl
  · have hf : Frame { q with pendingFunctors := rest } q' := frame_cancelInLoop hcons hrest
    exact ⟨hf.live, hf.created, hf.batch, hf.held⟩

/-- No restart overflows. -/
def Observed.restartsFit (o : Observed) (act : Action) : Prop := o.queue.restartsFit act

instance (o : Observed) (act : Action) : Decidable (o.restartsFit act) :=
  inferInstanceAs (Decidable (o.queue.restartsFit act))

theorem FiringInv.step {o o' : Observed} {act : Action} (h : FiringInv fit o) (hi : Inv o.queue)
    (hfit : fit → o.restartsFit act) (hst : Observed.system.Step o act o') : FiringInv fit o' := by
  have hen : o.queue.enabled act := hst.1
  have hobs : o.step act = .ok o' := hst.2
  rcases bind_eq_ok.mp hobs with ⟨q', hq', hobs⟩
  obtain rfl := Except.ok.inj hobs
  cases act with
  | addTimer caller timer when interval =>
    simp only [Observed.firedBy, List.append_nil]
    exact h.frame (frame_addTimer hi caller hen.2.1 hq')
  | cancel caller id =>
    simp only [Observed.firedBy, List.append_nil]
    exact h.frame (frame_cancel hi hq')
  | runFunctor =>
    simp only [Observed.firedBy, List.append_nil]
    exact h.frame (frame_runFunctor hi hq')
  | handleReadBegin now =>
    simp only [Observed.firedBy, List.append_nil]
    exact h.handleReadBegin hi hen hq'
  | runExpired =>
    rcases hen with ⟨⟨now, ran, todo⟩, hb, hne⟩
    cases todo with
    | nil => exact absurd rfl hne
    | cons it rest =>
      obtain ⟨t, ht, _⟩ := (h.batch _ hb).keyed it
        (List.mem_append_right _ List.mem_cons_self)
      have hfired : o.firedBy .runExpired = [firing o now it t] := by
        simp only [Observed.firedBy, hb, ht, firing]
      rw [hfired]
      exact h.runExpired hi hb ht hq'
  | handleReadEnd =>
    simp only [Observed.firedBy, List.append_nil]
    exact h.handleReadEnd hi hfit hq'

/-- The observed queue takes the steps of the queue. -/
theorem Observed.queue_step {o o' : Observed} {act : Action}
    (hst : Observed.system.Step o act o') : TimerQueue.system.Step o.queue act o'.queue := by
  have hobs : o.step act = .ok o' := hst.2
  rcases bind_eq_ok.mp hobs with ⟨q', hq', hobs⟩
  obtain rfl := Except.ok.inj hobs
  exact ⟨hst.1, hq'⟩

theorem init_firingInv {o : Observed} (h : Observed.system.init o) :
    Inv o.queue ∧ FiringInv fit o := by
  obtain rfl := h
  exact ⟨new_inv, new_firingInv⟩

theorem step_firingInv {o o' : Observed} {act : Action} (h : Inv o.queue ∧ FiringInv fit o)
    (hfit : fit → o.restartsFit act) (hst : Observed.system.Step o act o') :
    Inv o'.queue ∧ FiringInv fit o' :=
  ⟨h.1.step (Observed.queue_step hst), h.2.step h.1 hfit hst⟩

/-- What does not depend on the next expirations holds in every run. -/
theorem reachable_firingInv {o : Observed} (h : Observed.system.Reachable o) :
    Inv o.queue ∧ FiringInv False o :=
  h.invariant (fun _ => init_firingInv) fun _ _ _ hi hst => step_firingInv hi nofun hst

theorem restarting_firingInv {o : Observed}
    (h : (Observed.system.restrict Observed.restartsFit).Reachable o) :
    Inv o.queue ∧ FiringInv True o :=
  h.invariant (fun _ => init_firingInv) fun _ _ _ hi hst =>
    step_firingInv hi (fun _ => hst.condition) hst.of_restrict

/-! ### The theorem -/

/-- **Timers never fire early and never too often.**  A callback is started only by a
    `handleRead` whose `now` is not before the timer's expiration; one `handleRead` starts
    different timers, in the order of (expiration, address); and if a timer is started
    again then it repeats, and at least its interval lies between the two `now`, unless the
    computation of a next expiration has overflowed. -/
theorem timers_fire_on_time {o : Observed} (h : Observed.system.Reachable o) :
    (∀ f ∈ o.firings, f.expiration ≤ f.now) ∧
    (o.firings.Pairwise fun f g => f.round = g.round → f.entry < g.entry ∧ f.id ≠ g.id) ∧
    (o.firings.Pairwise fun f g => f.id = g.id → f.interval.positive = true) ∧
    ((Observed.system.restrict Observed.restartsFit).Reachable o →
      o.firings.Pairwise fun f g => f.id = g.id → f.now + f.interval.micros ≤ g.now) := by
  have hf := (reachable_firingInv h).2
  refine ⟨hf.notEarly, hf.ordered, hf.apart.imp fun hfg hid => (hfg hid).1, fun hfit => ?_⟩
  exact (restarting_firingInv hfit).2.apart.imp fun hfg hid => (hfg hid).2 trivial

/-- A timer that repeats every 5 microseconds and one that does not, read at 11 and 16. -/
theorem timers_fire_on_time_repeat :
    ∃ o, (Observed.system.restrict Observed.restartsFit).exec ⟨new, 0, []⟩
        [.addTimer .loopThread 1 10 (Interval.every 5), .addTimer .otherThread 2 8 Interval.once,
         .runFunctor, .handleReadBegin 11, .runExpired, .runExpired, .handleReadEnd,
         .handleReadBegin 16, .runExpired] = some o ∧
      o.firings.map (fun f => (f.id.timer, f.now)) = [(2, 11), (1, 11), (1, 16)] ∧
      (∀ f ∈ o.firings, f.expiration ≤ f.now) ∧
      (o.firings.Pairwise fun f g => f.id = g.id → f.interval.positive = true) ∧
      o.firings.Pairwise fun f g => f.id = g.id → f.now + f.interval.micros ≤ g.now := by
  refine ⟨_, rfl, rfl, ?_⟩
  have hfit := reachable_of_exec (S := Observed.system.restrict Observed.restartsFit)
    [.addTimer .loopThread 1 10 (Interval.every 5), .addTimer .otherThread 2 8 Interval.once,
     .runFunctor, .handleReadBegin 11, .runExpired, .runExpired, .handleReadEnd,
     .handleReadBegin 16, .runExpired] rfl rfl
  have h := timers_fire_on_time hfit.of_restrict
  exact ⟨h.1, h.2.2.1, h.2.2.2 hfit⟩

end Kaycc.TimerQueue
