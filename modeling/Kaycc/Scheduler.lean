/-
  Kaycc/Scheduler.lean
  ====================
  **A scheduler of named jobs.**

  Jobs wait under names until a round begins that finds them due.  The round starts
  them one after the other, in the order in which they are due, whatever is added or
  cancelled meanwhile.  At its end a job that renews itself waits again, unless it was
  cancelled in the round.

  `fate_of_path` says where a job is that nobody has cancelled, and how often it has been
  started by then if it does not renew itself.  `round_of_path` says whom a round has
  started.  Nothing here mentions a particular program.
-/
import Kaycc.Transition
import Mathlib.Data.List.Nodup
import Mathlib.Data.Set.Insert
import Mathlib.Logic.Relation

namespace Scheduler

open Transition

/-- When a job is due, and what it becomes in a round that began at a given time. -/
class Job (J : Type*) (τ : outParam (Type*)) where
  due : J → τ
  renew : τ → J → Option J

structure Round (ν J τ : Type*) where
  now : τ
  ran : List (ν × J)
  todo : List (ν × J)
  cancelled : Set ν

structure State (ν J τ : Type*) where
  waiting : Set (ν × J)
  round : Option (Round ν J τ)

inductive Label (ν J τ : Type*) where
  | add (name : ν) (job : J)
  | cancel (name : ν)
  | begin (now : τ)
  | start (name : ν)
  | finish
deriving DecidableEq

variable {ν J τ : Type*}

def Round.jobs (r : Round ν J τ) : List (ν × J) := r.ran ++ r.todo

def State.empty : State ν J τ := ⟨∅, none⟩

/-- Nothing has this name. -/
structure State.Absent (s : State ν J τ) (n : ν) : Prop where
  waiting : ∀ job, (n, job) ∉ s.waiting
  round : ∀ r, s.round = some r → n ∉ r.jobs.map Prod.fst

section

variable [Job J τ]

/-- What becomes of the jobs that have been started. -/
def renewed (now : τ) (cancelled : Set ν) (jobs : List (ν × J)) : Set (ν × J) :=
  {x | ∃ job, (x.1, job) ∈ jobs ∧ x.1 ∉ cancelled ∧ Job.renew now job = some x.2}

@[simp] theorem renewed_nil (now : τ) (cancelled : Set ν) :
    renewed now cancelled ([] : List (ν × J)) = ∅ :=
  Set.eq_empty_of_forall_notMem fun _ ⟨_, h, _⟩ => absurd h List.not_mem_nil

theorem renewed_cons_some {now : τ} {cancelled : Set ν} {x : ν × J} {job : J}
    (jobs : List (ν × J)) (hnot : x.1 ∉ cancelled) (hrenew : Job.renew now x.2 = some job) :
    renewed now cancelled (x :: jobs) = insert (x.1, job) (renewed now cancelled jobs) := by
  ext y
  constructor
  · rintro ⟨k, hk, hy, hrenewed⟩
    rcases List.mem_cons.mp hk with hk | hk
    · obtain ⟨hname, rfl⟩ : y.1 = x.1 ∧ k = x.2 := Prod.ext_iff.mp hk
      exact .inl (Prod.ext hname (Option.some.inj (hrenewed.symm.trans hrenew)))
    · exact .inr ⟨k, hk, hy, hrenewed⟩
  · rintro (rfl | ⟨k, hk, hy⟩)
    · exact ⟨x.2, List.mem_cons_self, hnot, hrenew⟩
    · exact ⟨k, List.mem_cons_of_mem _ hk, hy⟩

theorem renewed_cons_none {now : τ} {cancelled : Set ν} {x : ν × J} (jobs : List (ν × J))
    (h : Job.renew now x.2 = none ∨ x.1 ∈ cancelled) :
    renewed now cancelled (x :: jobs) = renewed now cancelled jobs := by
  ext y
  constructor
  · rintro ⟨k, hk, hy, hrenewed⟩
    rcases List.mem_cons.mp hk with hk | hk
    · obtain ⟨hname, rfl⟩ : y.1 = x.1 ∧ k = x.2 := Prod.ext_iff.mp hk
      rcases h with hnone | hmem
      · cases hnone.symm.trans hrenewed
      · exact absurd (hname ▸ hmem) hy
    · exact ⟨k, hk, hy, hrenewed⟩
  · rintro ⟨k, hk, hy⟩
    exact ⟨k, List.mem_cons_of_mem _ hk, hy⟩

/-- It is over when it has been started. -/
def Once (job : J) : Prop := ∀ now, Job.renew now job = none

def Descends (job job' : J) : Prop :=
  Relation.ReflTransGen (fun j k => ∃ now, Job.renew now j = some k) job job'

theorem Once.eq {job job' : J} (h : Once job) (hd : Descends job job') : job' = job := by
  cases Relation.ReflTransGen.cases_head hd with
  | inl heq => exact heq.symm
  | inr hnext =>
    obtain ⟨_, ⟨now, hnow⟩, -⟩ := hnext
    cases (h now).symm.trans hnow

end

/-! ### The steps -/

inductive Step [LinearOrder τ] [Job J τ] :
    State ν J τ → Label ν J τ → State ν J τ → Prop where
  | add {s n job} (habsent : s.Absent n) :
      Step s (.add n job) { s with waiting := insert (n, job) s.waiting }
  | remove {s n job} (hwaits : (n, job) ∈ s.waiting) :
      Step s (.cancel n) { s with waiting := {x ∈ s.waiting | x.1 ≠ n} }
  | note {s n} (hnot : ∀ job, (n, job) ∉ s.waiting) :
      Step s (.cancel n)
        { s with round := s.round.map fun r => { r with cancelled := insert n r.cancelled } }
  | begin {s now todo} (hround : s.round = none)
      (hdue : ∀ x, x ∈ todo ↔ x ∈ s.waiting ∧ Job.due x.2 ≤ now)
      (hnodup : (todo.map Prod.fst).Nodup)
      (hsorted : (todo.map fun x => Job.due x.2).Pairwise (· ≤ ·)) :
      Step s (.begin now) ⟨{x ∈ s.waiting | now < Job.due x.2}, some ⟨now, [], todo, ∅⟩⟩
  | start {s r x rest} (hround : s.round = some r) (htodo : r.todo = x :: rest) :
      Step s (.start x.1) { s with round := some { r with ran := r.ran ++ [x], todo := rest } }
  | finish {s r} (hround : s.round = some r) (htodo : r.todo = []) :
      Step s .finish ⟨s.waiting ∪ renewed r.now r.cancelled r.ran, none⟩

variable {s t : State ν J τ} {r : Round ν J τ} {ls : List (Label ν J τ)} {l : Label ν J τ} {n : ν}
  {job : J}

/-! ### What the labels say -/

def added (ls : List (Label ν J τ)) : List ν :=
  ls.filterMap fun
    | .add n _ => some n
    | _ => none

def started (ls : List (Label ν J τ)) : List ν :=
  ls.filterMap fun
    | .start n => some n
    | _ => none

@[simp] theorem added_append (ls ms : List (Label ν J τ)) :
    added (ls ++ ms) = added ls ++ added ms :=
  List.filterMap_append

@[simp] theorem started_append (ls ms : List (Label ν J τ)) :
    started (ls ++ ms) = started ls ++ started ms :=
  List.filterMap_append

theorem mem_added : n ∈ added ls ↔ ∃ job, .add n job ∈ ls := by
  rw [added, List.mem_filterMap]
  constructor
  · rintro ⟨l, hl, heq⟩
    cases l with
    | add m job =>
      obtain rfl := Option.some.inj heq
      exact ⟨job, hl⟩
    | cancel _ | begin _ | start _ | finish => cases heq
  · rintro ⟨job, hl⟩
    exact ⟨_, hl, rfl⟩

/-! ### Every name in one place -/

structure Ledger (ls : List (Label ν J τ)) (s : State ν J τ) : Prop where
  unique : ∀ n j k, (n, j) ∈ s.waiting → (n, k) ∈ s.waiting → j = k
  nodup : ∀ r, s.round = some r → (r.jobs.map Prod.fst).Nodup
  apart : ∀ r, s.round = some r → ∀ n ∈ r.jobs.map Prod.fst, ∀ job, (n, job) ∉ s.waiting
  absent : ∀ n, n ∉ added ls → s.Absent n
  started : ∀ n ∈ started ls, n ∈ added ls
  cancelled : ∀ r, s.round = some r → ∀ n ∈ r.cancelled, .cancel n ∈ ls

theorem Ledger.empty : Ledger [] (State.empty : State ν J τ) where
  unique := fun _ _ _ h => absurd h (Set.notMem_empty _)
  nodup := fun _ h => by cases h
  apart := fun _ h => by cases h
  absent := fun _ _ => ⟨fun _ => Set.notMem_empty _, fun _ h => by cases h⟩
  started := fun _ h => absurd h List.not_mem_nil
  cancelled := fun _ h => by cases h

theorem Ledger.job_eq {j k : J} (hg : Ledger ls s) (hround : s.round = some r)
    (hj : (n, j) ∈ r.jobs) (hk : (n, k) ∈ r.jobs) : j = k := by
  have heq := List.inj_on_of_nodup_map (hg.nodup r hround) hj hk rfl
  exact congrArg Prod.snd heq

/-- A step that adds no name and starts none. -/
theorem Ledger.quiet (hg : Ledger ls s) (hadded : added [l] = [])
    (hstarted : Scheduler.started [l] = [])
    (hunique : ∀ n j k, (n, j) ∈ t.waiting → (n, k) ∈ t.waiting → j = k)
    (hnodup : ∀ r, t.round = some r → (r.jobs.map Prod.fst).Nodup)
    (hapart : ∀ r, t.round = some r → ∀ n ∈ r.jobs.map Prod.fst, ∀ job, (n, job) ∉ t.waiting)
    (habsent : ∀ n, s.Absent n → t.Absent n)
    (hcancelled : ∀ r, t.round = some r → ∀ n ∈ r.cancelled, .cancel n ∈ ls ++ [l]) :
    Ledger (ls ++ [l]) t where
  unique := hunique
  nodup := hnodup
  apart := hapart
  absent := by
    rw [added_append, hadded, List.append_nil]
    exact fun n hn => habsent n (hg.absent n hn)
  started := by
    rw [started_append, added_append, hadded, hstarted, List.append_nil, List.append_nil]
    exact hg.started
  cancelled := hcancelled

theorem Ledger.add (hg : Ledger ls s) (habsent : s.Absent n) :
    Ledger (ls ++ [.add n job]) { s with waiting := insert (n, job) s.waiting } where
  unique := by
    rintro m j k (hj | hj) (hk | hk)
    · exact (congrArg Prod.snd hj).trans (congrArg Prod.snd hk).symm
    · obtain rfl : m = n := congrArg Prod.fst hj
      exact absurd hk (habsent.waiting k)
    · obtain rfl : m = n := congrArg Prod.fst hk
      exact absurd hj (habsent.waiting j)
    · exact hg.unique m j k hj hk
  nodup := hg.nodup
  apart := by
    rintro r hr m hm k (hk | hk)
    · obtain rfl : m = n := congrArg Prod.fst hk
      exact habsent.round r hr hm
    · exact hg.apart r hr m hm k hk
  absent := by
    intro m hm
    rw [added_append, List.mem_append, not_or] at hm
    have hmn : m ≠ n := fun heq => hm.2 (heq ▸ List.mem_cons_self)
    refine ⟨?_, (hg.absent m hm.1).round⟩
    rintro k (hk | hk)
    · exact hmn (congrArg Prod.fst hk)
    · exact (hg.absent m hm.1).waiting k hk
  started := by
    intro m hm
    rw [started_append, show Scheduler.started [.add n job] = [] from rfl, List.append_nil] at hm
    rw [added_append]
    exact List.mem_append_left _ (hg.started m hm)
  cancelled := fun r hr m hm => List.mem_append_left _ (hg.cancelled r hr m hm)

theorem Ledger.remove (hg : Ledger ls s) :
    Ledger (ls ++ [.cancel n]) { s with waiting := {x ∈ s.waiting | x.1 ≠ n} } := by
  apply hg.quiet rfl rfl
  · exact fun m j k hj hk => hg.unique m j k hj.1 hk.1
  · exact hg.nodup
  · exact fun r hr m hm k hk => hg.apart r hr m hm k hk.1
  · exact fun m hm => ⟨fun k hk => hm.waiting k hk.1, hm.round⟩
  · exact fun r hr m hm => List.mem_append_left _ (hg.cancelled r hr m hm)

theorem Ledger.note (hg : Ledger ls s) :
    Ledger (ls ++ [.cancel n])
      { s with round := s.round.map fun r => { r with cancelled := insert n r.cancelled } } := by
  have hround : ∀ r, s.round.map (fun r => { r with cancelled := insert n r.cancelled }) = some r →
      ∃ r₀, s.round = some r₀ ∧ r.jobs = r₀.jobs ∧ r.cancelled = insert n r₀.cancelled := by
    intro r hr
    obtain ⟨r₀, hr₀, rfl⟩ := Option.map_eq_some_iff.mp hr
    exact ⟨r₀, hr₀, rfl, rfl⟩
  apply hg.quiet rfl rfl
  · exact hg.unique
  · intro r hr
    obtain ⟨r₀, hr₀, hjobs, -⟩ := hround r hr
    exact hjobs ▸ hg.nodup r₀ hr₀
  · intro r hr
    obtain ⟨r₀, hr₀, hjobs, -⟩ := hround r hr
    exact hjobs ▸ hg.apart r₀ hr₀
  · intro m hm
    refine ⟨hm.waiting, fun r hr => ?_⟩
    obtain ⟨r₀, hr₀, hjobs, -⟩ := hround r hr
    exact hjobs ▸ hm.round r₀ hr₀
  · intro r hr m hm
    obtain ⟨r₀, hr₀, -, hcancelled⟩ := hround r hr
    rw [hcancelled] at hm
    rcases hm with rfl | hm
    · exact List.mem_append_right _ List.mem_cons_self
    · exact List.mem_append_left _ (hg.cancelled r₀ hr₀ m hm)

/-- The round takes the names out of the waiting jobs. -/
theorem Ledger.begin [LinearOrder τ] [Job J τ] {now : τ} {todo : List (ν × J)}
    (hg : Ledger ls s)
    (hdue : ∀ x, x ∈ todo ↔ x ∈ s.waiting ∧ Job.due x.2 ≤ now)
    (hnodup : (todo.map Prod.fst).Nodup) :
    Ledger (ls ++ [.begin now])
      ⟨{x ∈ s.waiting | now < Job.due x.2}, some ⟨now, [], todo, ∅⟩⟩ := by
  have hjobs : ∀ m ∈ todo.map Prod.fst, ∃ j, (m, j) ∈ s.waiting ∧ Job.due j ≤ now := by
    intro m hm
    obtain ⟨x, hx, rfl⟩ := List.mem_map.mp hm
    exact ⟨x.2, (hdue x).mp hx⟩
  apply hg.quiet rfl rfl
  · exact fun m j k hj hk => hg.unique m j k hj.1 hk.1
  · intro r hr
    obtain rfl := Option.some.inj hr
    exact hnodup
  · rintro r hr m hm k ⟨hk, hlater⟩
    obtain rfl := Option.some.inj hr
    obtain ⟨j, hj, hle⟩ := hjobs m hm
    obtain rfl := hg.unique m j k hj hk
    exact absurd hlater (not_lt.mpr hle)
  · intro m hm
    refine ⟨fun k hk => hm.waiting k hk.1, fun r hr hmem => ?_⟩
    obtain rfl := Option.some.inj hr
    obtain ⟨j, hj, -⟩ := hjobs m hmem
    exact hm.waiting j hj
  · intro r hr m hm
    obtain rfl := Option.some.inj hr
    exact absurd hm (Set.notMem_empty _)

theorem Ledger.start {x : ν × J} {rest : List (ν × J)} (hg : Ledger ls s)
    (hround : s.round = some r) (htodo : r.todo = x :: rest) :
    Ledger (ls ++ [.start x.1])
      { s with round := some { r with ran := r.ran ++ [x], todo := rest } } where
  unique := hg.unique
  nodup := by
    intro r' hr'
    obtain rfl := Option.some.inj hr'
    have h := hg.nodup r hround
    rw [Round.jobs, htodo] at h
    simpa [Round.jobs] using h
  apart := by
    intro r' hr' m hm
    obtain rfl := Option.some.inj hr'
    apply hg.apart r hround m
    rw [Round.jobs, htodo]
    simpa [Round.jobs] using hm
  absent := by
    intro m hm
    rw [added_append, List.mem_append, not_or] at hm
    refine ⟨(hg.absent m hm.1).waiting, fun r' hr' hmem => ?_⟩
    obtain rfl := Option.some.inj hr'
    apply (hg.absent m hm.1).round r hround
    rw [Round.jobs, htodo]
    simpa [Round.jobs] using hmem
  started := by
    intro m hm
    rw [started_append, List.mem_append] at hm
    rw [added_append]
    apply List.mem_append_left
    rcases hm with hm | hm
    · exact hg.started m hm
    · obtain rfl : m = x.1 := List.mem_singleton.mp hm
      by_contra hnot
      apply (hg.absent _ hnot).round r hround
      rw [Round.jobs, htodo]
      exact List.mem_map_of_mem (by simp)
  cancelled := by
    intro r' hr' m hm
    obtain rfl := Option.some.inj hr'
    exact List.mem_append_left _ (hg.cancelled r hround m hm)

/-- The names of a round that is over are free for the jobs' renewals. -/
theorem Ledger.finish [Job J τ] (hg : Ledger ls s) (hround : s.round = some r)
    (htodo : r.todo = []) :
    Ledger (ls ++ [.finish]) ⟨s.waiting ∪ renewed r.now r.cancelled r.ran, none⟩ := by
  have hjobs : r.jobs = r.ran := by rw [Round.jobs, htodo, List.append_nil]
  have hran : ∀ {m k}, (m, k) ∈ renewed r.now r.cancelled r.ran → m ∈ r.jobs.map Prod.fst := by
    rintro m k ⟨j, hj, -⟩
    rw [hjobs]
    exact List.mem_map.mpr ⟨_, hj, rfl⟩
  apply hg.quiet rfl rfl
  · rintro m j k (hj | hj) (hk | hk)
    · exact hg.unique m j k hj hk
    · exact absurd hj (hg.apart r hround m (hran hk) j)
    · exact absurd hk (hg.apart r hround m (hran hj) k)
    · obtain ⟨j₀, hj₀, -, hj⟩ := hj
      obtain ⟨k₀, hk₀, -, hk⟩ := hk
      obtain rfl := hg.job_eq hround (hjobs ▸ hj₀) (hjobs ▸ hk₀)
      exact Option.some.inj (hj.symm.trans hk)
  · exact fun _ h => by cases h
  · exact fun _ h => by cases h
  · intro m hm
    refine ⟨?_, fun _ h => by cases h⟩
    rintro k (hk | hk)
    · exact hm.waiting k hk
    · exact hm.round r hround (hran hk)
  · exact fun _ h => by cases h

theorem Ledger.step [LinearOrder τ] [Job J τ] (hg : Ledger ls s) (hst : Step s l t) :
    Ledger (ls ++ [l]) t := by
  cases hst with
  | add habsent => exact hg.add habsent
  | remove => exact hg.remove
  | note => exact hg.note
  | begin _ hdue hnodup _ => exact hg.begin hdue hnodup
  | start hround htodo => exact hg.start hround htodo
  | finish hround htodo => exact hg.finish hround htodo

theorem ledger_of_path [LinearOrder τ] [Job J τ] (h : Path Step State.empty ls s) :
    Ledger ls s := by
  induction h with
  | nil => exact .empty
  | snoc _ hst ih => exact ih.step hst

/-! ### The fate of a job -/

variable [Job J τ]

section

variable [DecidableEq ν]

/-- Where a job may be that has been added and not cancelled. -/
inductive Fate (ls : List (Label ν J τ)) (s : State ν J τ) (n : ν) (job : J) : Prop where
  | waiting {k : J} (hdescends : Descends job k) (h : (n, k) ∈ s.waiting)
      (hcount : Once job → (started ls).count n = 0)
  | todo {r : Round ν J τ} {k : J} (hdescends : Descends job k) (hround : s.round = some r)
      (h : (n, k) ∈ r.todo) (hcount : Once job → (started ls).count n = 0)
  | ran {r : Round ν J τ} {k : J} (hdescends : Descends job k) (hround : s.round = some r)
      (h : (n, k) ∈ r.ran) (hcount : Once job → (started ls).count n = 1)
  | gone {now : τ} {k : J} (hdescends : Descends job k) (hrenew : Job.renew now k = none)
      (habsent : s.Absent n) (hcount : Once job → (started ls).count n = 1)

/-- A step that leaves the names where they are. -/
theorem Fate.quiet (hf : Fate ls s n job) (hcount : started [l] = [])
    (hwaiting : ∀ k, (n, k) ∈ s.waiting → (n, k) ∈ t.waiting)
    (hround : ∀ r, s.round = some r → ∃ r', t.round = some r' ∧ r'.todo = r.todo ∧ r'.ran = r.ran)
    (habsent : s.Absent n → t.Absent n) : Fate (ls ++ [l]) t n job := by
  have hstarted : started (ls ++ [l]) = started ls := by
    rw [started_append, hcount, List.append_nil]
  cases hf with
  | waiting hd h hc => exact .waiting hd (hwaiting _ h) (hstarted ▸ hc)
  | todo hd hr h hc =>
    obtain ⟨r', hr', htodo, -⟩ := hround _ hr
    exact .todo hd hr' (htodo ▸ h) (hstarted ▸ hc)
  | ran hd hr h hc =>
    obtain ⟨r', hr', -, hran⟩ := hround _ hr
    exact .ran hd hr' (hran ▸ h) (hstarted ▸ hc)
  | gone hd hrenew ha hc => exact .gone hd hrenew (habsent ha) (hstarted ▸ hc)

theorem Fate.begin [LinearOrder τ] {now : τ} {todo : List (ν × J)} (hf : Fate ls s n job)
    (hround : s.round = none) (hdue : ∀ x, x ∈ todo ↔ x ∈ s.waiting ∧ Job.due x.2 ≤ now) :
    Fate (ls ++ [.begin now])
      ⟨{x ∈ s.waiting | now < Job.due x.2}, some ⟨now, [], todo, ∅⟩⟩ n job := by
  have hstarted : started (ls ++ [.begin now]) = started ls := by
    rw [started_append]
    exact List.append_nil _
  cases hf with
  | @waiting k hd h hc =>
    rcases le_or_gt (Job.due k) now with hle | hlt
    · exact .todo hd rfl ((hdue (n, k)).mpr ⟨h, hle⟩) (hstarted ▸ hc)
    · exact .waiting hd ⟨h, hlt⟩ (hstarted ▸ hc)
  | todo _ hr | ran _ hr => cases hround.symm.trans hr
  | gone hd hrenew ha hc =>
    refine .gone hd hrenew ⟨fun k hk => ha.waiting k hk.1, fun r hr hmem => ?_⟩ (hstarted ▸ hc)
    obtain rfl := Option.some.inj hr
    obtain ⟨x, hx, rfl⟩ := List.mem_map.mp hmem
    exact ha.waiting x.2 ((hdue x).mp hx).1

theorem Fate.start {x : ν × J} {rest : List (ν × J)} (hf : Fate ls s n job) (hg : Ledger ls s)
    (hround : s.round = some r) (htodo : r.todo = x :: rest) :
    Fate (ls ++ [.start x.1])
      { s with round := some { r with ran := r.ran ++ [x], todo := rest } } n job := by
  have hx : x ∈ r.jobs := by
    rw [Round.jobs, htodo]
    exact List.mem_append_right _ List.mem_cons_self
  have hname : x.1 ∈ r.jobs.map Prod.fst := List.mem_map_of_mem hx
  -- the count changes for the name of `x` only
  have hcount : x.1 ≠ n → (started (ls ++ [.start x.1])).count n = (started ls).count n := by
    intro hne
    rw [started_append, List.count_append]
    exact congrArg _ (List.count_eq_zero.mpr fun hmem => hne (List.mem_singleton.mp hmem).symm)
  cases hf with
  | @waiting k hd h hc =>
    have hne : x.1 ≠ n := by
      rintro rfl
      exact hg.apart r hround _ hname k h
    exact .waiting hd h fun ho => (hcount hne).trans (hc ho)
  | @todo r' k hd hr h hc =>
    obtain rfl : r = r' := Option.some.inj (hround.symm.trans hr)
    have hk : (n, k) ∈ r.jobs := List.mem_append_right _ h
    by_cases heq : x.1 = n
    · subst heq
      obtain rfl : x.2 = k := hg.job_eq hround hx hk
      refine .ran hd rfl (List.mem_append_right _ List.mem_cons_self) fun ho => ?_
      rw [started_append, List.count_append, hc ho, show started [Label.start x.1] = [x.1] from rfl,
        List.count_singleton_self]
    · have hrest : (n, k) ∈ rest := by
        rw [htodo] at h
        refine (List.mem_cons.mp h).resolve_left ?_
        rintro rfl
        exact heq rfl
      exact .todo hd rfl hrest fun ho => (hcount heq).trans (hc ho)
  | @ran r' k hd hr h hc =>
    obtain rfl : r = r' := Option.some.inj (hround.symm.trans hr)
    have hne : x.1 ≠ n := by
      rintro rfl
      have hnodup := hg.nodup r hround
      rw [Round.jobs, htodo, List.map_append, List.map_cons] at hnodup
      exact List.disjoint_of_nodup_append hnodup (List.mem_map.mpr ⟨_, h, rfl⟩) List.mem_cons_self
    exact .ran hd rfl (List.mem_append_left _ h) fun ho => (hcount hne).trans (hc ho)
  | gone hd hrenew ha hc =>
    have hne : x.1 ≠ n := by
      rintro rfl
      exact ha.round r hround hname
    refine .gone hd hrenew ⟨ha.waiting, fun r' hr' hmem => ?_⟩ fun ho => (hcount hne).trans (hc ho)
    obtain rfl := Option.some.inj hr'
    apply ha.round r hround
    rw [Round.jobs, htodo]
    simpa [Round.jobs] using hmem

theorem Fate.finish (hf : Fate ls s n job) (hg : Ledger ls s) (hno : .cancel n ∉ ls)
    (hround : s.round = some r) (htodo : r.todo = []) :
    Fate (ls ++ [.finish]) ⟨s.waiting ∪ renewed r.now r.cancelled r.ran, none⟩ n job := by
  have hstarted : started (ls ++ [.finish]) = started ls := by
    rw [started_append]
    exact List.append_nil _
  cases hf with
  | waiting hd h hc => exact .waiting hd (.inl h) (hstarted ▸ hc)
  | todo _ hr h =>
    obtain rfl := Option.some.inj (hround.symm.trans hr)
    rw [htodo] at h
    cases h
  | @ran r' k hd hr h hc =>
    obtain rfl : r = r' := Option.some.inj (hround.symm.trans hr)
    have hk : (n, k) ∈ r.jobs := List.mem_append_left _ h
    cases hrenew : Job.renew r.now k with
    | some k' =>
      have honce : ¬ Once job := by
        intro ho
        obtain rfl := ho.eq hd
        cases (ho r.now).symm.trans hrenew
      refine .waiting (hd.tail ⟨r.now, hrenew⟩) (.inr ⟨k, h, ?_, hrenew⟩) fun ho => absurd ho honce
      exact fun hmem => hno (hg.cancelled r hround n hmem)
    | none =>
      refine .gone hd hrenew ⟨?_, fun _ h => by cases h⟩ (hstarted ▸ hc)
      rintro j (hj | ⟨j₀, hj₀, -, hj⟩)
      · exact hg.apart r hround n (List.mem_map.mpr ⟨_, hk, rfl⟩) j hj
      · obtain rfl := hg.job_eq hround hk (List.mem_append_left _ hj₀)
        cases hrenew.symm.trans hj
  | gone hd hrenew ha hc =>
    refine .gone hd hrenew ⟨?_, fun _ h => by cases h⟩ (hstarted ▸ hc)
    rintro j (hj | ⟨j₀, hj₀, -, -⟩)
    · exact ha.waiting j hj
    · exact ha.round r hround (List.mem_map.mpr ⟨_, List.mem_append_left _ hj₀, rfl⟩)

theorem Fate.step [LinearOrder τ] (hf : Fate ls s n job) (hg : Ledger ls s) (hst : Step s l t)
    (hadd : ∀ k, l ≠ .add n k) (hno : .cancel n ∉ ls ++ [l]) : Fate (ls ++ [l]) t n job := by
  have hcancel : ∀ m, l = .cancel m → n ≠ m := by
    rintro m rfl rfl
    exact hno (List.mem_append_right _ List.mem_cons_self)
  cases hst with
  | @add m k habsent =>
    have hne : n ≠ m := fun heq => hadd k (heq ▸ rfl)
    refine hf.quiet rfl (fun j hj => .inr hj) (fun r hr => ⟨r, hr, rfl, rfl⟩) fun ha => ?_
    refine ⟨?_, ha.round⟩
    rintro j (hj | hj)
    · exact hne (congrArg Prod.fst hj)
    · exact ha.waiting j hj
  | @remove m k hwaits =>
    apply hf.quiet rfl
    · exact fun j hj => ⟨hj, hcancel m rfl⟩
    · exact fun r hr => ⟨r, hr, rfl, rfl⟩
    · exact fun ha => ⟨fun j hj => ha.waiting j hj.1, ha.round⟩
  | @note m hnot =>
    refine hf.quiet rfl (fun _ hj => hj) (fun r hr => ?_) fun ha => ⟨ha.waiting, fun r hr => ?_⟩
    · refine ⟨{ r with cancelled := insert m r.cancelled }, ?_, rfl, rfl⟩
      simp only [hr, Option.map_some]
    · obtain ⟨r₀, hr₀, rfl⟩ := Option.map_eq_some_iff.mp hr
      exact ha.round r₀ hr₀
  | begin hround hdue _ _ => exact hf.begin hround hdue
  | start hround htodo => exact hf.start hg hround htodo
  | finish hround htodo =>
    exact hf.finish hg (fun h => hno (List.mem_append_left _ h)) hround htodo

/-- **No job is lost.**  Under names that are used once, a job that is never cancelled
    waits or is in the round, or it is over; one that does not renew itself is started
    exactly once. -/
theorem fate_of_path [LinearOrder τ] (h : Path Step State.empty ls s)
    (hnodup : (added ls).Nodup) (hadd : .add n job ∈ ls) (hno : .cancel n ∉ ls) :
    Fate ls s n job := by
  induction h with
  | nil => cases hadd
  | @snoc s t ls l hpath hst ih =>
    have hg := ledger_of_path hpath
    rw [added_append] at hnodup
    obtain ⟨hnodup, -, hdisjoint⟩ := List.nodup_append.mp hnodup
    rcases List.mem_append.mp hadd with hold | hnew
    · refine (ih hnodup hold fun hc => hno (List.mem_append_left _ hc)).step hg hst ?_ hno
      rintro k rfl
      exact hdisjoint n (mem_added.mpr ⟨job, hold⟩) n List.mem_cons_self rfl
    · obtain rfl := List.mem_singleton.mp hnew
      cases hst with
      | add habsent =>
        refine .waiting .refl (Set.mem_insert _ _) fun _ => List.count_eq_zero.mpr fun hmem => ?_
        rw [started_append] at hmem
        rcases List.mem_append.mp hmem with hmem | hmem
        · exact hdisjoint n (hg.started n hmem) n List.mem_cons_self rfl
        · cases hmem

end

/-! ### A round -/

/-- **What a round starts** is decided when it begins. -/
theorem round_of_path [LinearOrder τ] (h : Path Step s ls t) (hround : s.round = some r)
    (hno : .finish ∉ ls) :
    ∃ r', t.round = some r' ∧ r'.now = r.now ∧ r'.jobs = r.jobs ∧
      r'.ran.map Prod.fst = r.ran.map Prod.fst ++ started ls := by
  induction h with
  | nil => exact ⟨r, hround, rfl, rfl, (List.append_nil _).symm⟩
  | @snoc t u ls l _ hst ih =>
    obtain ⟨r', hr', hnow, hjobs, hran⟩ := ih fun hf => hno (List.mem_append_left _ hf)
    rw [started_append]
    cases hst with
    | add | remove => exact ⟨r', hr', hnow, hjobs, hran.trans (congrArg _ (List.append_nil _).symm)⟩
    | note =>
      refine ⟨_, congrArg (Option.map _) hr', hnow, hjobs, ?_⟩
      exact hran.trans (congrArg _ (List.append_nil _).symm)
    | begin hnone => cases hnone.symm.trans hr'
    | @start r₀ x rest hr₀ htodo =>
      obtain rfl := Option.some.inj (hr'.symm.trans hr₀)
      refine ⟨_, rfl, hnow, ?_, ?_⟩
      · rw [← hjobs, Round.jobs, Round.jobs, htodo]
        simp
      · rw [List.map_append, hran, List.append_assoc]
        rfl
    | finish => exact absurd (List.mem_append_right _ List.mem_cons_self) hno

end Scheduler
