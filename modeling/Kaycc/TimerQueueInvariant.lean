/-
  Kaycc/TimerQueueInvariant.lean
  ==============================
  **The two indexes of the timer queue and its ownership of `Timer`s.**

  At every point of the code each live `Timer` is in one of three places: bound
  into a queued `addTimerInLoop`, in both indexes, or in the hands of the loop
  thread (`held`: the expired batch, and inside an operation the timer it is
  about to insert or delete).  `Consistent q held` says so, and that the keys of
  the indexes agree with the objects.  Every operation moves timers between the
  places, so its lemma is an equation for the result together with how `held`
  changes; none of its assertions can fail, except that of `getExpired` on the
  boundary entry.
-/
import Kaycc.TimerQueue

namespace Kaycc.TimerQueue

open Transition

variable {q : TimerQueue} {held : List Addr} {a : Addr} {t : Timer}

/-! ### The invariant -/

/-- The timers whose `addTimerInLoop` waits in the loop's queue. -/
def queuedTimers (q : TimerQueue) : List Addr :=
  q.pendingFunctors.filterMap fun
    | .addTimerInLoop timer => some timer
    | .cancelInLoop _ => none

/-- The sequence numbers of the timers deleted so far. -/
def deletedSequences (q : TimerQueue) : List Nat :=
  q.log.filterMap fun
    | .deleted id => some id.sequence
    | _ => none

/-- The live timers and the deleted ones carry the numbers `1 .. numCreated`, each
    number once. -/
structure Sequences (q : TimerQueue) : Prop where
  numbered : ∀ a t, q.heap a = some t → 0 < t.sequence ∧ t.sequence ≤ q.numCreated
  distinct : ∀ a a' t t', q.heap a = some t → q.heap a' = some t' →
    t.sequence = t'.sequence → a = a'
  deleted_nodup : q.deletedSequences.Nodup
  deleted_pos : ∀ n ∈ q.deletedSequences, 0 < n
  deleted_le : ∀ n ∈ q.deletedSequences, n ≤ q.numCreated
  deleted_dead : ∀ a t, q.heap a = some t → t.sequence ∉ q.deletedSequences
  all : ∀ n, 0 < n → n ≤ q.numCreated →
    n ∈ q.deletedSequences ∨ ∃ a t, q.heap a = some t ∧ t.sequence = n

structure Consistent (q : TimerQueue) (held : List Addr) : Prop where
  sizes : q.timers.size = q.activeTimers.size
  timers_key : ∀ e ∈ q.timers, ∃ t, q.heap e.timer = some t ∧ t.expiration = e.when ∧
    (⟨e.timer, t.sequence⟩ : ActiveTimer) ∈ q.activeTimers
  active_key : ∀ i ∈ q.activeTimers, ∃ t, q.heap i.timer = some t ∧
    t.sequence = i.sequence ∧ (⟨t.expiration, i.timer⟩ : Entry) ∈ q.timers
  places_nodup : (q.queuedTimers ++ held).Nodup
  places_live : ∀ a ∈ q.queuedTimers ++ held, ∃ t, q.heap a = some t
  timers_free : ∀ e ∈ q.timers, e.timer ∉ q.queuedTimers ++ held
  placed : ∀ a t, q.heap a = some t →
    a ∈ q.queuedTimers ++ held ∨ (⟨t.expiration, a⟩ : Entry) ∈ q.timers
  sequences : Sequences q

theorem new_consistent : Consistent new [] where
  sizes := rfl
  timers_key := fun e he => absurd he (OrderedSet.notMem_empty e)
  active_key := fun i hi => absurd hi (OrderedSet.notMem_empty i)
  places_nodup := List.nodup_nil
  places_live := fun a ha => absurd ha List.not_mem_nil
  timers_free := fun e he => absurd he (OrderedSet.notMem_empty e)
  placed := fun _ _ h => by cases h
  sequences :=
    { numbered := fun _ _ h => by cases h
      distinct := fun _ _ _ _ h => by cases h
      deleted_nodup := List.nodup_nil
      deleted_pos := fun n hn => absurd hn List.not_mem_nil
      deleted_le := fun n hn => absurd hn List.not_mem_nil
      deleted_dead := fun _ _ h => by cases h
      all := fun n h₀ h₁ => absurd (Nat.lt_of_lt_of_le h₀ h₁) (Nat.lt_irrefl 0) }

/-- A held timer is in neither index. -/
theorem Consistent.held_free (hc : Consistent q (a :: held)) (w : Timestamp) :
    (⟨w, a⟩ : Entry) ∉ q.timers :=
  fun h => hc.timers_free _ h (List.mem_append_right _ List.mem_cons_self)

theorem Consistent.held_inactive (hc : Consistent q (a :: held)) (n : Nat) :
    (⟨a, n⟩ : ActiveTimer) ∉ q.activeTimers := by
  intro h
  obtain ⟨t, _, _, ht⟩ := hc.active_key _ h
  exact hc.held_free t.expiration ht

theorem Consistent.held_live (hc : Consistent q (a :: held)) : ∃ t, q.heap a = some t :=
  hc.places_live a (List.mem_append_right _ List.mem_cons_self)

/-- Two queues that agree on the heap, the indexes, the functors, the count and the
    deletions. -/
theorem Consistent.congr {q' : TimerQueue} (hc : Consistent q held) (hh : q'.heap = q.heap)
    (ht : q'.timers = q.timers) (ha : q'.activeTimers = q.activeTimers)
    (hf : q'.queuedTimers = q.queuedTimers) (hn : q'.numCreated = q.numCreated)
    (hd : q'.deletedSequences = q.deletedSequences) : Consistent q' held where
  sizes := by rw [ht, ha]; exact hc.sizes
  timers_key := by rw [ht, ha, hh]; exact hc.timers_key
  active_key := by rw [ht, ha, hh]; exact hc.active_key
  places_nodup := by rw [hf]; exact hc.places_nodup
  places_live := by rw [hf, hh]; exact hc.places_live
  timers_free := by rw [hf, ht]; exact hc.timers_free
  placed := by rw [hf, ht, hh]; exact hc.placed
  sequences :=
    { numbered := by rw [hh, hn]; exact hc.sequences.numbered
      distinct := by rw [hh]; exact hc.sequences.distinct
      deleted_nodup := by rw [hd]; exact hc.sequences.deleted_nodup
      deleted_pos := by rw [hd]; exact hc.sequences.deleted_pos
      deleted_le := by rw [hd, hn]; exact hc.sequences.deleted_le
      deleted_dead := by rw [hd, hh]; exact hc.sequences.deleted_dead
      all := by rw [hd, hh, hn]; exact hc.sequences.all }

/-! ### The heap -/

theorem timerAt_eq (h : q.heap a = some t) : q.timerAt a = .ok t := by
  simp [timerAt, h]

@[simp] theorem setHeap_same (q : TimerQueue) (a : Addr) (o : Option Timer) :
    (q.setHeap a o).heap a = o := by
  simp [setHeap]

theorem setHeap_other (q : TimerQueue) {a b : Addr} (o : Option Timer) (h : b ≠ a) :
    (q.setHeap a o).heap b = q.heap b := by
  simp [setHeap, h]

@[simp] theorem deletedSequences_record (q : TimerQueue) (e : Event) :
    (q.record e).deletedSequences = q.deletedSequences ++ (match e with
      | .deleted id => [id.sequence]
      | _ => []) := by
  cases e <;> simp [record, deletedSequences]

/-- `new Timer`: the object is held by who created it. -/
theorem Consistent.newTimer (hc : Consistent q held) (hfree : q.heap a = none)
    (when : Timestamp) (interval : Interval) :
    Consistent (q.newTimer a when interval) (a :: held) := by
  have hheap : (q.newTimer a when interval).heap =
      Function.update q.heap a (some ⟨when, interval, q.numCreated + 1⟩) := rfl
  have hlive : ∀ b t, q.heap b = some t → b ≠ a := by
    intro b t hb heq
    rw [heq, hfree] at hb
    cases hb
  have hold : ∀ b t, q.heap b = some t →
      (q.newTimer a when interval).heap b = some t := by
    intro b t hb
    rw [hheap, Function.update_of_ne (hlive b t hb)]
    exact hb
  have hdel : (q.newTimer a when interval).deletedSequences = q.deletedSequences := by
    simp [TimerQueue.newTimer, deletedSequences, record, setHeap]
  have hcases : ∀ b t, (q.newTimer a when interval).heap b = some t →
      (b = a ∧ t.sequence = q.numCreated + 1 ∧ t.expiration = when) ∨
        (b ≠ a ∧ q.heap b = some t) := by
    intro b t hb
    rw [hheap] at hb
    by_cases hba : b = a
    · subst hba
      rw [Function.update_self] at hb
      cases hb
      exact .inl ⟨rfl, rfl, rfl⟩
    · rw [Function.update_of_ne hba] at hb
      exact .inr ⟨hba, hb⟩
  have hnotin : a ∉ q.queuedTimers ++ held := by
    intro hmem
    obtain ⟨t, ht⟩ := hc.places_live a hmem
    exact hlive a t ht rfl
  have hperm : (q.queuedTimers ++ a :: held).Perm (a :: (q.queuedTimers ++ held)) :=
    List.perm_middle
  have hseq := hc.sequences
  refine { sizes := hc.sizes, timers_key := ?_, active_key := ?_, places_nodup := ?_,
           places_live := ?_, timers_free := ?_, placed := ?_,
           sequences := { numbered := ?_, distinct := ?_, deleted_nodup := ?_,
                          deleted_pos := ?_, deleted_le := ?_, deleted_dead := ?_,
                          all := ?_ } }
  · intro e he
    obtain ⟨t, ht, hrest⟩ := hc.timers_key e he
    exact ⟨t, hold _ _ ht, hrest⟩
  · intro i hi
    obtain ⟨t, ht, hrest⟩ := hc.active_key i hi
    exact ⟨t, hold _ _ ht, hrest⟩
  · exact hperm.nodup_iff.mpr (List.nodup_cons.mpr ⟨hnotin, hc.places_nodup⟩)
  · intro b hb
    rcases List.mem_cons.mp (hperm.mem_iff.mp hb) with rfl | hb
    · exact ⟨_, by rw [hheap, Function.update_self]⟩
    · obtain ⟨t, ht⟩ := hc.places_live b hb
      exact ⟨t, hold _ _ ht⟩
  · intro e he hmem
    obtain ⟨t, ht, _⟩ := hc.timers_key e he
    rcases List.mem_cons.mp (hperm.mem_iff.mp hmem) with heq | hmem
    · exact hlive _ t ht heq
    · exact hc.timers_free e he hmem
  · intro b t hb
    rcases hcases b t hb with ⟨rfl, _⟩ | ⟨_, hb⟩
    · exact .inl (hperm.mem_iff.mpr List.mem_cons_self)
    · exact (hc.placed b t hb).imp_left
        (fun h => hperm.mem_iff.mpr (List.mem_cons_of_mem _ h))
  · intro b t hb
    change 0 < t.sequence ∧ t.sequence ≤ q.numCreated + 1
    rcases hcases b t hb with ⟨_, hs, _⟩ | ⟨_, hb⟩
    · omega
    · have := hseq.numbered b t hb
      omega
  · intro b b' t t' hb hb' heq
    rcases hcases b t hb with ⟨hba, hs, _⟩ | ⟨_, hold₁⟩
    · rcases hcases b' t' hb' with ⟨hba', _, _⟩ | ⟨_, hold₂⟩
      · rw [hba, hba']
      · have := hseq.numbered b' t' hold₂
        omega
    · rcases hcases b' t' hb' with ⟨_, hs, _⟩ | ⟨_, hold₂⟩
      · have := hseq.numbered b t hold₁
        omega
      · exact hseq.distinct b b' t t' hold₁ hold₂ heq
  · rw [hdel]
    exact hseq.deleted_nodup
  · intro n hn
    rw [hdel] at hn
    exact hseq.deleted_pos n hn
  · intro n hn
    rw [hdel] at hn
    exact Nat.le_succ_of_le (hseq.deleted_le n hn)
  · intro b t hb
    rw [hdel]
    rcases hcases b t hb with ⟨_, hs, _⟩ | ⟨_, hb⟩
    · intro hmem
      have := hseq.deleted_le _ hmem
      omega
    · exact hseq.deleted_dead b t hb
  · intro n hpos hle
    rw [hdel]
    rcases Nat.lt_or_ge q.numCreated n with hlt | hle'
    · have hn : n = q.numCreated + 1 := Nat.le_antisymm hle hlt
      exact .inr ⟨a, _, by rw [hheap, Function.update_self], hn.symm⟩
    · rcases hseq.all n hpos hle' with h | ⟨b, t, hb, hs⟩
      · exact .inl h
      · exact .inr ⟨b, t, hold b t hb, hs⟩

/-! ### Moving a timer between the places -/

/-- The queue with a held timer put into both indexes. -/
def indexed (q : TimerQueue) (a : Addr) (t : Timer) : TimerQueue :=
  { q with
    timers := (q.timers.insert ⟨t.expiration, a⟩).1
    activeTimers := (q.activeTimers.insert ⟨a, t.sequence⟩).1 }

/-- The queue with a timer taken out of both indexes. -/
def detached (q : TimerQueue) (a : Addr) (t : Timer) : TimerQueue :=
  { q with
    timers := (q.timers.erase ⟨t.expiration, a⟩).1
    activeTimers := (q.activeTimers.erase ⟨a, t.sequence⟩).1 }

/-- The queue after `delete` of a timer. -/
def deleted (q : TimerQueue) (a : Addr) (t : Timer) : TimerQueue :=
  (q.setHeap a none).record (.deleted ⟨a, t.sequence⟩)

theorem Consistent.indexed (hc : Consistent q (a :: held)) (ht : q.heap a = some t) :
    Consistent (q.indexed a t) held := by
  have hperm : (q.queuedTimers ++ a :: held).Perm (a :: (q.queuedTimers ++ held)) :=
    List.perm_middle
  have hnodup := hperm.nodup_iff.mp hc.places_nodup
  refine { sizes := ?_, timers_key := ?_, active_key := ?_,
           places_nodup := (List.nodup_cons.mp hnodup).2,
           places_live := fun b hb => hc.places_live b (hperm.mem_iff.mpr (.tail _ hb)),
           timers_free := ?_, placed := ?_,
           sequences := { hc.sequences with } }
  · change (q.timers.insert _).1.size = (q.activeTimers.insert _).1.size
    rw [OrderedSet.size_insert (hc.held_free _), OrderedSet.size_insert (hc.held_inactive _),
      hc.sizes]
  · intro e he
    rcases OrderedSet.mem_insert.mp he with rfl | he
    · exact ⟨t, ht, rfl, OrderedSet.mem_insert.mpr (.inl rfl)⟩
    · obtain ⟨u, hu, hexp, hact⟩ := hc.timers_key e he
      exact ⟨u, hu, hexp, OrderedSet.mem_insert.mpr (.inr hact)⟩
  · intro i hi
    rcases OrderedSet.mem_insert.mp hi with rfl | hi
    · exact ⟨t, ht, rfl, OrderedSet.mem_insert.mpr (.inl rfl)⟩
    · obtain ⟨u, hu, hseq, htim⟩ := hc.active_key i hi
      exact ⟨u, hu, hseq, OrderedSet.mem_insert.mpr (.inr htim)⟩
  · intro e he
    rcases OrderedSet.mem_insert.mp he with rfl | he
    · exact (List.nodup_cons.mp hnodup).1
    · exact fun hmem => hc.timers_free e he (hperm.mem_iff.mpr (.tail _ hmem))
  · intro b u hb
    rcases hc.placed b u hb with hmem | hmem
    · rcases List.mem_cons.mp (hperm.mem_iff.mp hmem) with rfl | hmem
      · obtain rfl : t = u := Option.some.inj (ht.symm.trans hb)
        exact .inr (OrderedSet.mem_insert.mpr (.inl rfl))
      · exact .inl hmem
    · exact .inr (OrderedSet.mem_insert.mpr (.inr hmem))

/-- The object behind an entry of `activeTimers_` carries the entry's key. -/
theorem Consistent.active_timer (hc : Consistent q held)
    {n : Nat} (hact : (⟨a, n⟩ : ActiveTimer) ∈ q.activeTimers) (ht : q.heap a = some t) :
    n = t.sequence ∧ (⟨t.expiration, a⟩ : Entry) ∈ q.timers := by
  obtain ⟨u, hu, hseq, htim⟩ := hc.active_key _ hact
  obtain rfl : u = t := Option.some.inj (hu.symm.trans ht)
  exact ⟨hseq.symm, htim⟩

theorem Consistent.detached (hc : Consistent q held) (ht : q.heap a = some t)
    (hact : (⟨a, t.sequence⟩ : ActiveTimer) ∈ q.activeTimers) :
    Consistent (q.detached a t) (a :: held) := by
  have htim := (hc.active_timer hact ht).2
  have hfree := hc.timers_free _ htim
  have hperm : (q.queuedTimers ++ a :: held).Perm (a :: (q.queuedTimers ++ held)) :=
    List.perm_middle
  refine { sizes := ?_, timers_key := ?_, active_key := ?_,
           places_nodup := hperm.nodup_iff.mpr (List.nodup_cons.mpr ⟨hfree, hc.places_nodup⟩),
           places_live := ?_, timers_free := ?_, placed := ?_,
           sequences := { hc.sequences with } }
  · have h₁ := OrderedSet.size_erase htim
    have h₂ := OrderedSet.size_erase hact
    have h₃ := hc.sizes
    change (q.timers.erase _).1.size = (q.activeTimers.erase _).1.size
    omega
  · intro e he
    obtain ⟨hne, he⟩ := OrderedSet.mem_erase.mp he
    obtain ⟨u, hu, hexp, hactu⟩ := hc.timers_key e he
    refine ⟨u, hu, hexp, OrderedSet.mem_erase.mpr ⟨?_, hactu⟩⟩
    intro heq
    have hea : e.timer = a := congrArg TimerId.timer heq
    obtain rfl : u = t := Option.some.inj (hu.symm.trans (hea ▸ ht))
    exact hne (by cases e; cases hea; cases hexp; rfl)
  · intro i hi
    obtain ⟨hne, hi⟩ := OrderedSet.mem_erase.mp hi
    obtain ⟨u, hu, hseq, htimu⟩ := hc.active_key i hi
    refine ⟨u, hu, hseq, OrderedSet.mem_erase.mpr ⟨?_, htimu⟩⟩
    intro heq
    have hia : i.timer = a := congrArg Entry.timer heq
    obtain rfl : u = t := Option.some.inj (hu.symm.trans (hia ▸ ht))
    exact hne (by cases i; cases hia; cases hseq; rfl)
  · intro b hb
    rcases List.mem_cons.mp (hperm.mem_iff.mp hb) with rfl | hb
    · exact ⟨t, ht⟩
    · exact hc.places_live b hb
  · intro e he hmem
    obtain ⟨hne, he⟩ := OrderedSet.mem_erase.mp he
    rcases List.mem_cons.mp (hperm.mem_iff.mp hmem) with hea | hmem
    · obtain ⟨u, hu, hexp, _⟩ := hc.timers_key e he
      obtain rfl : u = t := Option.some.inj (hu.symm.trans (hea ▸ ht))
      exact hne (by cases e; cases hea; cases hexp; rfl)
    · exact hc.timers_free e he hmem
  · intro b u hb
    rcases hc.placed b u hb with hmem | hmem
    · exact .inl (hperm.mem_iff.mpr (.tail _ hmem))
    · by_cases hba : b = a
      · exact .inl (hperm.mem_iff.mpr (hba ▸ List.mem_cons_self))
      · refine .inr (OrderedSet.mem_erase.mpr ⟨?_, hmem⟩)
        intro heq
        exact hba (congrArg Entry.timer heq)

/-- `delete` of a held timer. -/
theorem Consistent.deleted (hc : Consistent q (a :: held)) (ht : q.heap a = some t) :
    Consistent (q.deleted a t) held := by
  have hperm : (q.queuedTimers ++ a :: held).Perm (a :: (q.queuedTimers ++ held)) :=
    List.perm_middle
  have hnodup := List.nodup_cons.mp (hperm.nodup_iff.mp hc.places_nodup)
  have hsame : ∀ b, b ≠ a → (q.deleted a t).heap b = q.heap b :=
    fun b hb => setHeap_other q none hb
  have hlive : ∀ b u, (q.deleted a t).heap b = some u → b ≠ a ∧ q.heap b = some u := by
    intro b u hb
    have hba : b ≠ a := by
      rintro rfl
      cases (setHeap_same q b none).symm.trans hb
    exact ⟨hba, (hsame b hba).symm.trans hb⟩
  have hdel : (q.deleted a t).deletedSequences = q.deletedSequences ++ [t.sequence] :=
    deletedSequences_record _ _
  have hseq := hc.sequences
  have hnotEntry : ∀ e ∈ q.timers, e.timer ≠ a := by
    rintro e he rfl
    exact hc.held_free e.when he
  have hnotActive : ∀ i ∈ q.activeTimers, i.timer ≠ a := by
    rintro i hi rfl
    exact hc.held_inactive i.sequence hi
  refine { sizes := hc.sizes, timers_key := ?_, active_key := ?_,
           places_nodup := hnodup.2, places_live := ?_, timers_free := ?_, placed := ?_,
           sequences := { numbered := ?_, distinct := ?_, deleted_nodup := ?_,
                          deleted_pos := ?_, deleted_le := ?_, deleted_dead := ?_,
                          all := ?_ } }
  · intro e he
    rw [hsame _ (hnotEntry e he)]
    exact hc.timers_key e he
  · intro i hi
    rw [hsame _ (hnotActive i hi)]
    exact hc.active_key i hi
  · intro b hb
    have hba : b ≠ a := fun heq => hnodup.1 (heq ▸ hb)
    rw [hsame b hba]
    exact hc.places_live b (hperm.mem_iff.mpr (.tail _ hb))
  · exact fun e he hmem => hc.timers_free e he (hperm.mem_iff.mpr (.tail _ hmem))
  · intro b u hb
    obtain ⟨hba, hb⟩ := hlive b u hb
    apply (hc.placed b u hb).imp_left
    intro hmem
    exact (List.mem_cons.mp (hperm.mem_iff.mp hmem)).resolve_left hba
  · exact fun b u hb => hseq.numbered b u (hlive b u hb).2
  · exact fun b b' u u' hb hb' => hseq.distinct b b' u u' (hlive b u hb).2 (hlive b' u' hb').2
  · rw [hdel]
    exact List.nodup_append.mpr ⟨hseq.deleted_nodup, List.nodup_singleton _,
      fun n hn m hm heq => hseq.deleted_dead a t ht (List.mem_singleton.mp hm ▸ heq ▸ hn)⟩
  · intro n hn
    rw [hdel] at hn
    rcases List.mem_append.mp hn with hn | hn
    · exact hseq.deleted_pos n hn
    · rw [List.mem_singleton.mp hn]
      exact (hseq.numbered a t ht).1
  · intro n hn
    rw [hdel] at hn
    rcases List.mem_append.mp hn with hn | hn
    · exact hseq.deleted_le n hn
    · rw [List.mem_singleton.mp hn]
      exact (hseq.numbered a t ht).2
  · intro b u hb hmem
    obtain ⟨hba, hb⟩ := hlive b u hb
    rw [hdel] at hmem
    rcases List.mem_append.mp hmem with hmem | hmem
    · exact hseq.deleted_dead b u hb hmem
    · exact hba (hseq.distinct b a u t hb ht (List.mem_singleton.mp hmem))
  · intro n hpos hle
    rw [hdel]
    rcases hseq.all n hpos hle with h | ⟨b, u, hb, hu⟩
    · exact .inl (List.mem_append_left _ h)
    · by_cases hba : b = a
      · subst hba
        obtain rfl : u = t := Option.some.inj (hb.symm.trans ht)
        exact .inl (List.mem_append_right _ (List.mem_singleton.mpr hu.symm))
      · exact .inr ⟨b, u, (hsame b hba).trans hb, hu⟩

/-- A held timer's `expiration_` may change, its `sequence_` not. -/
theorem Consistent.updated (hc : Consistent q (a :: held)) {t' : Timer}
    (ht : q.heap a = some t) (hs : t'.sequence = t.sequence) :
    Consistent (q.setHeap a (some t')) (a :: held) := by
  have hsame : ∀ b, b ≠ a → (q.setHeap a (some t')).heap b = q.heap b :=
    fun b hb => setHeap_other q _ hb
  -- whatever is live now was live before, under the same number
  have hlive : ∀ b u, (q.setHeap a (some t')).heap b = some u →
      ∃ v, q.heap b = some v ∧ v.sequence = u.sequence ∧ (b ≠ a → v = u) := by
    intro b u hb
    by_cases hba : b = a
    · subst hba
      obtain rfl : t' = u := Option.some.inj ((setHeap_same q b _).symm.trans hb)
      exact ⟨t, ht, hs.symm, fun h => absurd rfl h⟩
    · exact ⟨u, (hsame b hba).symm.trans hb, rfl, fun _ => rfl⟩
  have hseq := hc.sequences
  have hheld : a ∈ q.queuedTimers ++ a :: held :=
    List.mem_append_right _ List.mem_cons_self
  refine { sizes := hc.sizes, timers_key := ?_, active_key := ?_,
           places_nodup := hc.places_nodup, places_live := ?_,
           timers_free := hc.timers_free, placed := ?_,
           sequences := { hseq with numbered := ?_, distinct := ?_, deleted_dead := ?_,
                                    all := ?_ } }
  · intro e he
    have hea : e.timer ≠ a := by
      rintro rfl
      exact hc.held_free e.when he
    rw [hsame _ hea]
    exact hc.timers_key e he
  · intro i hi
    have hia : i.timer ≠ a := by
      rintro rfl
      exact hc.held_inactive i.sequence hi
    rw [hsame _ hia]
    exact hc.active_key i hi
  · intro b hb
    by_cases hba : b = a
    · subst hba
      exact ⟨t', setHeap_same q b _⟩
    · rw [hsame b hba]
      exact hc.places_live b hb
  · intro b u hb
    by_cases hba : b = a
    · subst hba
      exact .inl hheld
    · exact hc.placed b u ((hsame b hba).symm.trans hb)
  · intro b u hb
    obtain ⟨v, hv, hvs, _⟩ := hlive b u hb
    rw [← hvs]
    exact hseq.numbered b v hv
  · intro b b' u u' hb hb' heq
    obtain ⟨v, hv, hvs, _⟩ := hlive b u hb
    obtain ⟨v', hv', hvs', _⟩ := hlive b' u' hb'
    exact hseq.distinct b b' v v' hv hv' (hvs.trans (heq.trans hvs'.symm))
  · intro b u hb
    obtain ⟨v, hv, hvs, _⟩ := hlive b u hb
    rw [← hvs]
    exact hseq.deleted_dead b v hv
  · intro n hpos hle
    apply (hseq.all n hpos hle).imp_right
    rintro ⟨b, u, hb, hu⟩
    by_cases hba : b = a
    · subst hba
      obtain rfl : u = t := Option.some.inj (hb.symm.trans ht)
      exact ⟨b, t', setHeap_same q b _, hs.trans hu⟩
    · exact ⟨b, u, (hsame b hba).trans hb, hu⟩

end Kaycc.TimerQueue
