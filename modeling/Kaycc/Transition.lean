/-
  Kaycc/Transition.lean
  =====================
  **Guarded transition systems whose steps may fail.**

  A program is described by what may happen next (`enabled`) and by what then
  happens (`step`), which either yields the next state or stops with an error
  (an assertion of the program that does not hold).  A run is a list of
  actions each of which was enabled and did not stop; a state is reachable when
  a run leads to it from an initial state.

  Nothing here mentions a particular program.  The rules below are the ones a
  verification uses: an inductive invariant holds of every reachable state
  (`Reachable.invariant`), a step-wise relation holds between the ends of every
  run (`Run.related`), a property that a run loses is lost by one of its steps
  (`Run.exists_loss`), a run of a system restricted by a condition on its steps
  is a run of the system (`Run.of_restrict`), a computed run is a run
  (`run_of_exec`), stretches of a run that lead on unless one of them stops are put
  together (`Leads.bind`), and a step-wise simulation of another system is one of
  whole runs (`Run.simulates`).
-/
import Mathlib.Tactic.TypeStar

namespace Transition

/-- What may happen in a state, and what it does: `step s a` is the state after
    the action, or the error that stopped it. -/
structure System (σ α ε : Type*) where
  init : σ → Prop
  enabled : σ → α → Prop
  step : σ → α → Except ε σ

namespace System

variable {σ α ε : Type*} (S : System σ α ε)

/-- One step that did not stop. -/
def Step (s : σ) (a : α) (t : σ) : Prop := S.enabled s a ∧ S.step s a = .ok t

/-- `Run s as t`: the actions `as`, in order, lead from `s` to `t`. -/
inductive Run : σ → List α → σ → Prop where
  | nil (s : σ) : Run s [] s
  | snoc {s t u : σ} {as : List α} {a : α} :
      Run s as t → S.Step t a u → Run s (as ++ [a]) u

/-- The states a run reaches from an initial state. -/
def Reachable (s : σ) : Prop := ∃ s₀ as, S.init s₀ ∧ S.Run s₀ as s

/-- The same system, taking only the steps that meet `C`. -/
def restrict (C : σ → α → Prop) : System σ α ε :=
  { S with enabled := fun s a => S.enabled s a ∧ C s a }

variable {S}

/-! ### Runs -/

theorem Run.single {s t : σ} {a : α} (h : S.Step s a t) : S.Run s [a] t :=
  Run.snoc (Run.nil s) h

theorem Run.append {s t u : σ} {as bs : List α} (h₁ : S.Run s as t) (h₂ : S.Run t bs u) :
    S.Run s (as ++ bs) u := by
  induction h₂ with
  | nil => simpa using h₁
  | snoc _ hstep ih => rw [← List.append_assoc]; exact Run.snoc ih hstep

theorem Run.split {s u : σ} {as bs : List α} (h : S.Run s (as ++ bs) u) :
    ∃ t, S.Run s as t ∧ S.Run t bs u := by
  generalize hcs : as ++ bs = cs at h
  induction h generalizing bs with
  | nil =>
    obtain ⟨rfl, rfl⟩ := List.append_eq_nil_iff.mp hcs
    exact ⟨s, Run.nil s, Run.nil s⟩
  | @snoc t u ls a hrun hst ih =>
    rcases List.eq_nil_or_concat bs with rfl | ⟨bs', b, rfl⟩
    · rw [List.append_nil] at hcs
      exact ⟨u, hcs ▸ Run.snoc hrun hst, Run.nil u⟩
    · rw [List.concat_eq_append, ← List.append_assoc] at hcs
      obtain ⟨hls, hlast⟩ := List.append_inj' hcs rfl
      obtain rfl := List.head_eq_of_cons_eq hlast
      obtain ⟨v, hfirst, hrest⟩ := ih hls
      exact ⟨v, hfirst, List.concat_eq_append ▸ Run.snoc hrest hst⟩

theorem Run.of_single {s t : σ} {a : α} (h : S.Run s [a] t) : S.Step s a t := by
  generalize hone : [a] = as at h
  cases h with
  | nil => cases hone
  | @snoc u _ ls b hrun hst =>
    have happ : [] ++ [a] = ls ++ [b] := hone
    obtain ⟨hnil, hlast⟩ := List.append_inj' happ rfl
    obtain rfl := List.head_eq_of_cons_eq hlast
    cases hrun with
    | nil => exact hst
    | snoc => exact absurd hnil.symm (by simp)

/-- What holds of the first state and is kept by every step holds of the last. -/
theorem Run.preserves {P : σ → Prop} {s t : σ} {as : List α} (h : S.Run s as t)
    (hstep : ∀ s a t, P s → S.Step s a t → P t) (hs : P s) : P t := by
  induction h with
  | nil => exact hs
  | snoc _ hst ih => exact hstep _ _ _ ih hst

/-- A relation that is reflexive, transitive and holds across every step (from a
    state with `P`, which steps keep) holds between the ends of a run. -/
theorem Run.related {P : σ → Prop} {R : σ → σ → Prop} {s t : σ} {as : List α}
    (h : S.Run s as t) (hP : ∀ s a t, P s → S.Step s a t → P t)
    (hrefl : ∀ s, R s s) (htrans : ∀ s t u, R s t → R t u → R s u)
    (hstep : ∀ s a t, P s → S.Step s a t → R s t) (hs : P s) : R s t := by
  have hboth : P t ∧ R s t := by
    induction h with
    | nil => exact ⟨hs, hrefl _⟩
    | snoc _ hst ih =>
      obtain ⟨ht, hst'⟩ := ih
      exact ⟨hP _ _ _ ht hst, htrans _ _ _ hst' (hstep _ _ _ ht hst)⟩
  exact hboth.2

/-- A property that a run loses is lost by one of its steps. -/
theorem Run.exists_loss {P : σ → Prop} {s t : σ} {as : List α} (h : S.Run s as t)
    (hs : P s) (ht : ¬ P t) :
    ∃ as₁ a as₂ u v, as = as₁ ++ a :: as₂ ∧ S.Run s as₁ u ∧ S.Step u a v ∧ S.Run v as₂ t ∧
      P u ∧ ¬ P v := by
  induction h with
  | nil => exact absurd hs ht
  | @snoc t t' as a hrun hst ih =>
    by_cases hkept : P t
    · exact ⟨as, a, [], t, t', rfl, hrun, hst, Run.nil _, hkept, ht⟩
    · obtain ⟨as₁, b, as₂, u, v, rfl, hbefore, hloss, hafter, hu, hv⟩ := ih hkept
      refine ⟨as₁, b, as₂ ++ [a], u, v, ?_, hbefore, hloss, Run.snoc hafter hst, hu, hv⟩
      rw [List.append_assoc, List.cons_append]

/-! ### Reachable states -/

theorem Reachable.run {s t : σ} {as : List α} (hs : S.Reachable s) (h : S.Run s as t) :
    S.Reachable t := by
  obtain ⟨s₀, bs, h₀, hrun⟩ := hs
  exact ⟨s₀, bs ++ as, h₀, hrun.append h⟩

theorem Reachable.step {s t : σ} {a : α} (hs : S.Reachable s) (h : S.Step s a t) :
    S.Reachable t :=
  hs.run (Run.single h)

/-- **The invariant rule.**  What holds initially and is kept by every step holds
    of every reachable state. -/
theorem Reachable.invariant {P : σ → Prop} {s : σ} (h : S.Reachable s)
    (hinit : ∀ s, S.init s → P s) (hstep : ∀ s a t, P s → S.Step s a t → P t) : P s := by
  obtain ⟨s₀, as, h₀, hrun⟩ := h
  exact hrun.preserves hstep (hinit s₀ h₀)

/-! ### Restricted systems -/

theorem Step.of_restrict {C : σ → α → Prop} {s t : σ} {a : α}
    (h : (S.restrict C).Step s a t) : S.Step s a t :=
  ⟨h.1.1, h.2⟩

theorem Step.condition {C : σ → α → Prop} {s t : σ} {a : α}
    (h : (S.restrict C).Step s a t) : C s a :=
  h.1.2

theorem Run.of_restrict {C : σ → α → Prop} {s t : σ} {as : List α}
    (h : (S.restrict C).Run s as t) : S.Run s as t := by
  induction h with
  | nil => exact Run.nil _
  | snoc _ hst ih => exact Run.snoc ih hst.of_restrict

theorem Reachable.of_restrict {C : σ → α → Prop} {s : σ}
    (h : (S.restrict C).Reachable s) : S.Reachable s := by
  obtain ⟨s₀, as, h₀, hrun⟩ := h
  exact ⟨s₀, as, h₀, hrun.of_restrict⟩

theorem Run.restrict_mono {C D : σ → α → Prop} {s t : σ} {as : List α}
    (h : (S.restrict C).Run s as t) (hCD : ∀ s a, C s a → D s a) : (S.restrict D).Run s as t := by
  induction h with
  | nil => exact Run.nil _
  | snoc _ hst ih => exact Run.snoc ih ⟨⟨hst.1.1, hCD _ _ hst.1.2⟩, hst.2⟩

/-! ### Going on -/

variable (S) in
/-- Some run leads to a state in `P`, or to one in which an action stops. -/
def Leads (s : σ) (P : σ → Prop) : Prop :=
  ∃ as t, S.Run s as t ∧ (P t ∨ ∃ a e, S.enabled t a ∧ S.step t a = .error e)

theorem Leads.here {s : σ} {P : σ → Prop} (h : P s) : S.Leads s P := ⟨[], s, .nil s, .inl h⟩

/-- **The rule for stretches.**  A stretch that leads to `P` and, from there, one that leads
    to `Q`, where `J` is kept by every step. -/
theorem Leads.bind {s : σ} {J P Q : σ → Prop} (hJ : ∀ s a t, J s → S.Step s a t → J t)
    (hs : J s) (h : S.Leads s P) (hPQ : ∀ t, J t → P t → S.Leads t Q) : S.Leads s Q := by
  obtain ⟨as, t, hrun, hP | hstops⟩ := h
  · obtain ⟨bs, u, hrun', hu⟩ := hPQ t (hrun.preserves hJ hs) hP
    exact ⟨as ++ bs, u, hrun.append hrun', hu⟩
  · exact ⟨as, t, hrun, .inr hstops⟩

/-- A first step, which stops or leads on. -/
theorem Leads.step {s : σ} {P : σ → Prop} (a : α) (hen : S.enabled s a)
    (h : ∀ t, S.step s a = .ok t → S.Leads t P) : S.Leads s P := by
  cases heq : S.step s a with
  | ok t =>
    obtain ⟨as, u, hrun, hu⟩ := h t heq
    exact ⟨[a] ++ as, u, (Run.single ⟨hen, heq⟩).append hrun, hu⟩
  | error e => exact ⟨[], s, .nil s, .inr ⟨a, e, hen, heq⟩⟩

theorem Leads.mono {s : σ} {P Q : σ → Prop} (h : S.Leads s P) (hPQ : ∀ t, P t → Q t) :
    S.Leads s Q := by
  obtain ⟨as, t, hrun, ht⟩ := h
  exact ⟨as, t, hrun, ht.imp_left (hPQ t)⟩

/-! ### Computing a run -/

variable (S) in
/-- Perform the actions in order; `none` when one is not enabled or stops. -/
def exec [∀ s a, Decidable (S.enabled s a)] : σ → List α → Option σ
  | s, [] => some s
  | s, a :: as =>
      if S.enabled s a then
        match S.step s a with
        | .ok t => exec t as
        | .error _ => none
      else none

instance {C : σ → α → Prop} [∀ s a, Decidable (S.enabled s a)] [∀ s a, Decidable (C s a)]
    (s : σ) (a : α) : Decidable ((S.restrict C).enabled s a) :=
  inferInstanceAs (Decidable (S.enabled s a ∧ C s a))

theorem run_of_exec [∀ s a, Decidable (S.enabled s a)] {s t : σ} {as : List α}
    (h : S.exec s as = some t) : S.Run s as t := by
  induction as generalizing s with
  | nil =>
    simp only [exec, Option.some.injEq] at h
    subst h
    exact Run.nil s
  | cons a as ih =>
    simp only [exec] at h
    split at h
    · rename_i hen
      split at h
      · rename_i u hu
        exact (Run.single ⟨hen, hu⟩).append (ih h)
      · cases h
    · cases h

theorem reachable_of_exec [∀ s a, Decidable (S.enabled s a)] {s₀ t : σ} (as : List α)
    (h₀ : S.init s₀) (h : S.exec s₀ as = some t) : S.Reachable t :=
  ⟨s₀, as, h₀, run_of_exec h⟩

/-- A computed run whose last state passes a test. -/
theorem exists_run_of_exec_any [∀ s a, Decidable (S.enabled s a)] {s : σ} {test : σ → Bool}
    {as : List α} (h : (S.exec s as).any test = true) : ∃ t, S.Run s as t ∧ test t = true := by
  cases heq : S.exec s as with
  | none =>
    rw [heq] at h
    cases h
  | some t =>
    rw [heq] at h
    exact ⟨t, run_of_exec heq, h⟩

theorem exists_of_exec_any [∀ s a, Decidable (S.enabled s a)] {s₀ : σ} {test : σ → Bool}
    (as : List α) (h₀ : S.init s₀) (h : (S.exec s₀ as).any test = true) :
    ∃ s, S.Reachable s ∧ test s = true := by
  obtain ⟨s, hrun, htest⟩ := exists_run_of_exec_any h
  exact ⟨s, ⟨s₀, as, h₀, hrun⟩, htest⟩

/-! ### Traces and simulation -/

variable (S) in
/-- What the actions of a run have to say, each in the state before it. -/
def trace {β : Type*} (f : σ → α → List β) : σ → List α → List β
  | _, [] => []
  | s, a :: as => f s a ++ match S.step s a with
      | .ok t => trace f t as
      | .error _ => []

theorem Run.trace_append {β : Type*} {f : σ → α → List β} {s t : σ} {as : List α}
    (h : S.Run s as t) (bs : List α) :
    S.trace f s (as ++ bs) = S.trace f s as ++ S.trace f t bs := by
  induction h generalizing bs with
  | nil => rfl
  | @snoc t u as a _ hst ih =>
    have hcons : ∀ cs, S.trace f t (a :: cs) = f t a ++ S.trace f u cs := fun cs => by
      simp only [trace, hst.2]
    rw [List.append_assoc, List.singleton_append, ih, ih [a], hcons, hcons, List.append_assoc,
      List.append_assoc]
    rfl

theorem mem_trace {β : Type*} {f : σ → α → List β} {s : σ} {as : List α} {b : β}
    (h : b ∈ S.trace f s as) : ∃ a ∈ as, ∃ t, b ∈ f t a := by
  induction as generalizing s with
  | nil => cases h
  | cons a as ih =>
    rw [trace] at h
    rcases List.mem_append.mp h with hb | hb
    · exact ⟨a, List.mem_cons_self, s, hb⟩
    · cases hst : S.step s a with
      | ok t =>
        rw [hst] at hb
        obtain ⟨a', ha', ht⟩ := ih hb
        exact ⟨a', List.mem_cons_of_mem _ ha', ht⟩
      | error e =>
        rw [hst] at hb
        cases hb

theorem trace_single {β : Type*} (f : σ → α → List β) (s : σ) (a : α) :
    S.trace f s [a] = f s a := by
  cases heq : S.step s a with
  | ok t => simp only [trace, heq, List.append_nil]
  | error e => simp only [trace, heq, List.append_nil]

theorem Run.trace_snoc {β : Type*} {f : σ → α → List β} {s t : σ} {as : List α} {a : α}
    (h : S.Run s as t) : S.trace f s (as ++ [a]) = S.trace f s as ++ f t a := by
  rw [h.trace_append, trace_single]

end System

/-- `Path T s ls t`: the steps of `T` with the labels `ls`, in order, lead from `s` to `t`. -/
inductive Path {τ β : Type*} (T : τ → β → τ → Prop) : τ → List β → τ → Prop where
  | nil (s : τ) : Path T s [] s
  | snoc {s t u : τ} {ls : List β} {l : β} : Path T s ls t → T t l u → Path T s (ls ++ [l]) u

theorem Path.single {τ β : Type*} {T : τ → β → τ → Prop} {s t : τ} {l : β} (h : T s l t) :
    Path T s [l] t :=
  .snoc (.nil s) h

theorem Path.append {τ β : Type*} {T : τ → β → τ → Prop} {s t u : τ} {ls ms : List β}
    (h₁ : Path T s ls t) (h₂ : Path T t ms u) : Path T s (ls ++ ms) u := by
  induction h₂ with
  | nil => rwa [List.append_nil]
  | snoc _ hst ih => rw [← List.append_assoc]; exact .snoc ih hst

/-- **The simulation rule.**  When every step of `S`, seen through `abs`, is the steps of
    `T` that it has to say, then so is every run. -/
theorem System.Run.simulates {σ α ε τ β : Type*} {S : System σ α ε} {T : τ → β → τ → Prop}
    {abs : σ → τ} {f : σ → α → List β} {P : σ → Prop} {s t : σ} {as : List α}
    (h : S.Run s as t) (hP : ∀ s a t, P s → S.Step s a t → P t)
    (hstep : ∀ s a t, P s → S.Step s a t → Path T (abs s) (f s a) (abs t)) (hs : P s) :
    Path T (abs s) (S.trace f s as) (abs t) := by
  have hboth : P t ∧ Path T (abs s) (S.trace f s as) (abs t) := by
    induction h with
    | nil => exact ⟨hs, .nil _⟩
    | snoc hrun hst ih =>
      obtain ⟨ht, hpath⟩ := ih
      rw [hrun.trace_snoc]
      exact ⟨hP _ _ _ ht hst, hpath.append (hstep _ _ _ ht hst)⟩
  exact hboth.2

end Transition
