/-
  Kaycc/AcceptorDescriptors.lean
  ==============================
  **Every descriptor from `accept` is passed on or closed, unless it is 0.**

  Two facts are kept by every step.  `Ledger` is about the openings: the Acceptor
  closes only what it got itself, each at most once, and nothing that it has passed
  on.  `Control` says, at each statement of `handleRead`, which opening the
  descriptor at hand refers to.

  With them the openings that get lost are known exactly (`step_lost`): those that
  `accept` returned as descriptor 0, which `if (connfd > 0)` takes for a failure.
-/
import Kaycc.Acceptor
import Mathlib.Data.List.Nodup

namespace Kaycc

open Transition Transition.System

namespace Acceptor

variable {s t : Acceptor} {act : Action} {p : Point} {fd : Int} {n j k : Nat}

/-! ### What is asked for -/

/-- The descriptor that the next statement passes on or closes. -/
def used (s : Acceptor) : Option Int :=
  match s.point with
  | .connection connfd => some connfd
  | .closeIdle => some s.idleFd
  | .closeAccepted => some s.idleFd
  | _ => none

def InHand (s : Acceptor) (k : Nat) : Prop := ∃ fd ∈ s.used, s.descriptors.refers fd = some k

/-- No descriptor is lost, and none is closed that is not the Acceptor's.  Between two
    read events nothing is in hand. -/
structure KeepsDescriptors (s : Acceptor) : Prop where
  accounted : ∀ k ∈ s.accepted, k ∈ s.passed ∨ k ∈ s.closed ∨ s.InHand k
  apart : ∀ k ∈ s.passed, k ∉ s.closed
  passedOnce : s.passed.Nodup
  closedOnce : s.closed.Nodup
  passedAccepted : ∀ k ∈ s.passed, k ∈ s.accepted
  closedOwn : ∀ k ∈ s.closed, k ∈ s.accepted ∨ k ∈ s.reserved
  -- the next close is of an open descriptor, so not a second one
  live : ∀ fd ∈ s.used, fd = -1 ∨ ∃ k, s.descriptors.refers fd = some k ∧
    (k ∈ s.reserved ∨ k ∈ s.accepted ∧ k ∉ s.passed)
  reserve : ∀ k ∈ s.reserved, k ∈ s.closed ∨ s.descriptors.refers s.idleFd = some k
  listening : s.descriptors.refers s.acceptFd = some 0

/-! ### Closing and passing on -/

theorem close_of_refers (hfd : s.descriptors.refers fd = some j) :
    s.close fd =
      { s with descriptors := s.descriptors.close fd, closed := s.closed ++ [j] } := by
  simp only [close, hfd]

theorem close_neg_one (s : Acceptor) : s.close (-1) = s := by
  simp only [close, s.descriptors.refers_neg_one]

theorem pass_of_refers (hfd : s.descriptors.refers fd = some j) :
    s.pass fd = { s with passed := s.passed ++ [j] } := by
  simp only [pass, hfd]

/-! ### The ledger -/

structure Ledger (s : Acceptor) : Prop where
  acceptedBefore : ∀ k ∈ s.accepted, k < s.descriptors.openings
  reservedBefore : ∀ k ∈ s.reserved, k < s.descriptors.openings
  distinct : ∀ k ∈ s.reserved, k ∉ s.accepted
  passedAccepted : ∀ k ∈ s.passed, k ∈ s.accepted
  closedOwn : ∀ k ∈ s.closed, k ∈ s.accepted ∨ k ∈ s.reserved
  apart : ∀ k ∈ s.passed, k ∉ s.closed
  passedOnce : s.passed.Nodup
  closedOnce : s.closed.Nodup
  gone : ∀ k ∈ s.closed, ∀ fd, s.descriptors.refers fd ≠ some k
  listening : s.descriptors.refers s.acceptFd = some 0
  notAccepted : 0 ∉ s.accepted
  notReserved : 0 ∉ s.reserved

namespace Ledger

theorem closedBefore (h : s.Ledger) (hk : k ∈ s.closed) : k < s.descriptors.openings := by
  rcases h.closedOwn k hk with ha | hr
  · exact h.acceptedBefore k ha
  · exact h.reservedBefore k hr

theorem openings_notAccepted (h : s.Ledger) : s.descriptors.openings ∉ s.accepted := by
  intro hk
  exact Nat.lt_irrefl _ (h.acceptedBefore _ hk)

theorem openings_notReserved (h : s.Ledger) : s.descriptors.openings ∉ s.reserved := by
  intro hk
  exact Nat.lt_irrefl _ (h.reservedBefore _ hk)

theorem openings_pos (h : s.Ledger) : s.descriptors.openings ≠ 0 :=
  Nat.ne_of_gt (s.descriptors.bounded _ _ h.listening)

/-- The ledger does not look at the control state. -/
theorem moved (h : s.Ledger) (idleFd : Int) (set : Bool) (p : Point) :
    Ledger { s with idleFd := idleFd, newConnectionCallback := set, point := p } :=
  { h with }

/-- A call of anyone in the process has returned a new descriptor. -/
theorem opened (h : s.Ledger) (havail : s.descriptors.refers n = none) :
    Ledger { s with descriptors := s.descriptors.opened n } :=
  { h with
    acceptedBefore := fun k hk => Nat.lt_succ_of_lt (h.acceptedBefore k hk)
    reservedBefore := fun k hk => Nat.lt_succ_of_lt (h.reservedBefore k hk)
    gone := by
      intro k hk fd hfd
      rcases DescriptorTable.refers_of_opened hfd with ⟨_, rfl⟩ | ⟨_, hold⟩
      · exact Nat.lt_irrefl _ (h.closedBefore hk)
      · exact h.gone k hk fd hold
    listening := DescriptorTable.refers_opened havail h.listening }

theorem acceptReturns (h : s.Ledger) (havail : s.descriptors.refers n = none) :
    (s.acceptReturns (some n)).Ledger :=
  { h.opened havail with
    acceptedBefore := by
      intro k hk
      rcases List.mem_append.mp hk with hk | hk
      · exact Nat.lt_succ_of_lt (h.acceptedBefore k hk)
      · rw [List.mem_singleton.mp hk]
        exact Nat.lt_succ_self _
    distinct := by
      intro k hk hmem
      rcases List.mem_append.mp hmem with hmem | hmem
      · exact h.distinct k hk hmem
      · rw [List.mem_singleton.mp hmem] at hk
        exact h.openings_notReserved hk
    passedAccepted := fun k hk => List.mem_append_left _ (h.passedAccepted k hk)
    closedOwn := fun k hk => (h.closedOwn k hk).imp_left (List.mem_append_left _)
    notAccepted := by
      intro hmem
      rcases List.mem_append.mp hmem with hmem | hmem
      · exact h.notAccepted hmem
      · exact h.openings_pos (List.mem_singleton.mp hmem).symm }

theorem openReturns (h : s.Ledger) (havail : s.descriptors.refers n = none) :
    (s.openReturns (some n)).Ledger :=
  { h.opened havail with
    reservedBefore := by
      intro k hk
      rcases List.mem_append.mp hk with hk | hk
      · exact Nat.lt_succ_of_lt (h.reservedBefore k hk)
      · rw [List.mem_singleton.mp hk]
        exact Nat.lt_succ_self _
    distinct := by
      intro k hk
      rcases List.mem_append.mp hk with hk | hk
      · exact h.distinct k hk
      · rw [List.mem_singleton.mp hk]
        exact h.openings_notAccepted
    closedOwn := fun k hk => (h.closedOwn k hk).imp_right (List.mem_append_left _)
    notReserved := by
      intro hmem
      rcases List.mem_append.mp hmem with hmem | hmem
      · exact h.notReserved hmem
      · exact h.openings_pos (List.mem_singleton.mp hmem).symm }

/-- The rest of the process has closed a descriptor of its own. -/
theorem otherCloses (h : s.Ledger) (hfd : s.descriptors.refers fd = some j) (hown : ¬ s.Own j) :
    Ledger { s with descriptors := s.descriptors.close fd } :=
  { h with
    gone := fun k hk fd' hfd' => h.gone k hk fd' (DescriptorTable.refers_of_close hfd').2
    listening := by
      refine DescriptorTable.refers_close h.listening ?_
      intro h0
      rw [hfd] at h0
      cases h0
      exact hown (.inl h.listening) }

/-- The Acceptor closes a reserve, or a connection that it has not passed on. -/
theorem close (h : s.Ledger) (hfd : s.descriptors.refers fd = some j)
    (hown : j ∈ s.reserved ∨ j ∈ s.accepted ∧ j ∉ s.passed) :
    (s.close fd).Ledger := by
  rw [close_of_refers hfd]
  have hopen : j ∉ s.closed := by
    intro hk
    exact h.gone j hk fd hfd
  have hpassed : j ∉ s.passed := by
    rcases hown with hr | ⟨_, hpass⟩
    · intro hpass
      exact h.distinct j hr (h.passedAccepted j hpass)
    · exact hpass
  exact
    { h with
      closedOwn := by
        intro k hk
        rcases List.mem_append.mp hk with hk | hk
        · exact h.closedOwn k hk
        · rw [List.mem_singleton.mp hk]
          exact hown.symm.imp_left And.left
      apart := by
        intro k hk hmem
        rcases List.mem_append.mp hmem with hmem | hmem
        · exact h.apart k hk hmem
        · rw [List.mem_singleton.mp hmem] at hk
          exact hpassed hk
      closedOnce := by
        rw [← List.concat_eq_append]
        exact List.Nodup.concat hopen h.closedOnce
      gone := by
        intro k hk
        rcases List.mem_append.mp hk with hk | hk
        · exact fun fd' hfd' => h.gone k hk fd' (DescriptorTable.refers_of_close hfd').2
        · rw [List.mem_singleton.mp hk]
          exact DescriptorTable.refers_close_ne hfd
      listening := by
        refine DescriptorTable.refers_close h.listening ?_
        intro h0
        rw [hfd] at h0
        cases h0
        rcases hown with hr | ⟨ha, _⟩
        · exact h.notReserved hr
        · exact h.notAccepted ha }

theorem pass (h : s.Ledger) (hfd : s.descriptors.refers fd = some j) (ha : j ∈ s.accepted)
    (hnew : j ∉ s.passed) : (s.pass fd).Ledger := by
  rw [pass_of_refers hfd]
  exact
    { h with
      passedAccepted := by
        intro k hk
        rcases List.mem_append.mp hk with hk | hk
        · exact h.passedAccepted k hk
        · rw [List.mem_singleton.mp hk]
          exact ha
      apart := by
        intro k hk
        rcases List.mem_append.mp hk with hk | hk
        · exact h.apart k hk
        · rw [List.mem_singleton.mp hk]
          exact fun hc => h.gone j hc fd hfd
      passedOnce := by
        rw [← List.concat_eq_append]
        exact List.Nodup.concat hnew h.passedOnce }

end Ledger

/-! ### What the descriptor at hand refers to -/

/-- Got from `accept`, and neither passed on nor closed. -/
def Pending (s : Acceptor) (k : Nat) : Prop := k ∈ s.accepted ∧ k ∉ s.passed ∧ k ∉ s.closed

def Holds (s : Acceptor) (fd : Int) : Prop := ∃ k, s.Pending k ∧ s.descriptors.refers fd = some k

/-- `idleFd_` is the reserve, or -1 when it could not be opened. -/
structure Reserved (s : Acceptor) : Prop where
  kept : ∀ k ∈ s.reserved, k ∈ s.closed ∨ s.descriptors.refers s.idleFd = some k
  held : s.idleFd = -1 ∨ ∃ k ∈ s.reserved, s.descriptors.refers s.idleFd = some k

def Released (s : Acceptor) : Prop := ∀ k ∈ s.reserved, k ∈ s.closed

def Control (s : Acceptor) : Prop :=
  match s.point with
  | .connection connfd => s.Reserved ∧ s.Holds connfd
  | .acceptIdle => s.Released
  | .closeAccepted => s.Released ∧ (s.idleFd = -1 ∨ s.Holds s.idleFd)
  | .reopen => s.Released
  | _ => s.Reserved

/-- The reserve is no connection. -/
theorem Reserved.not_pending (h : s.Reserved) (hl : s.Ledger)
    (hfd : s.descriptors.refers s.idleFd = some k) : ¬ s.Pending k := by
  rcases h.held with hneg | ⟨j, hj, hheld⟩
  · rw [hneg, s.descriptors.refers_neg_one] at hfd
    cases hfd
  · obtain rfl : j = k := Option.some.inj (hheld.symm.trans hfd)
    exact fun hp => hl.distinct j hj hp.1

theorem Reserved.of_kept (h : s.Reserved) (hidle : t.idleFd = s.idleFd)
    (hreserved : t.reserved = s.reserved) (hclosed : ∀ k ∈ s.closed, k ∈ t.closed)
    (hkept : ∀ k ∈ s.reserved, s.descriptors.refers s.idleFd = some k →
      t.descriptors.refers s.idleFd = some k) : t.Reserved where
  kept := by
    rw [hidle, hreserved]
    intro k hk
    exact (h.kept k hk).imp (hclosed k) (hkept k hk)
  held := by
    rw [hidle, hreserved]
    rcases h.held with hneg | ⟨k, hk, hfd⟩
    · exact .inl hneg
    · exact .inr ⟨k, hk, hkept k hk hfd⟩

theorem Reserved.goto (h : s.Reserved) (p : Point) : (s.goto p).Reserved := ⟨h.kept, h.held⟩

theorem Holds.of_kept (h : s.Holds fd) (hpending : ∀ k, s.Pending k → t.Pending k)
    (hkept : ∀ k, s.Pending k → s.descriptors.refers fd = some k →
      t.descriptors.refers fd = some k) : t.Holds fd := by
  obtain ⟨k, hk, hfd⟩ := h
  exact ⟨k, hpending k hk, hkept k hk hfd⟩

/-! ### What is lost -/

def Lost (s : Acceptor) (k : Nat) : Prop := s.Pending k ∧ ¬ s.InHand k

theorem inHand_none (h : s.used = none) : ¬ s.InHand k := by
  rintro ⟨fd, hfd, _⟩
  rw [h] at hfd
  cases hfd

theorem inHand_some (h : s.used = some fd) : s.InHand k ↔ s.descriptors.refers fd = some k := by
  constructor
  · rintro ⟨fd', hfd', hk⟩
    rw [h] at hfd'
    cases hfd'
    exact hk
  · intro hk
    exact ⟨fd, h, hk⟩

theorem lost_congr (hpending : ∀ k, t.Pending k ↔ s.Pending k)
    (hhand : ∀ k, s.Pending k → (t.InHand k ↔ s.InHand k)) (k : Nat) : t.Lost k ↔ s.Lost k := by
  constructor
  · rintro ⟨hp, hn⟩
    have hp' := (hpending k).mp hp
    refine ⟨hp', ?_⟩
    intro hh
    exact hn ((hhand k hp').mpr hh)
  · rintro ⟨hp, hn⟩
    refine ⟨(hpending k).mpr hp, ?_⟩
    intro hh
    exact hn ((hhand k hp).mp hh)

/-- The connection in hand has been passed on or closed. -/
theorem lost_settled (hs : s.used = some fd) (hfd : s.descriptors.refers fd = some j)
    (ht : t.used = none) (hpending : ∀ k, t.Pending k ↔ s.Pending k ∧ k ≠ j) (k : Nat) :
    t.Lost k ↔ s.Lost k := by
  constructor
  · rintro ⟨hp, _⟩
    obtain ⟨hp', hne⟩ := (hpending k).mp hp
    refine ⟨hp', ?_⟩
    intro hh
    rw [inHand_some hs, hfd] at hh
    exact hne (Option.some.inj hh).symm
  · rintro ⟨hp, hn⟩
    refine ⟨(hpending k).mpr ⟨hp, ?_⟩, inHand_none ht⟩
    rintro rfl
    exact hn ((inHand_some hs).mpr hfd)

/-- A connection has been accepted and is in hand. -/
theorem lost_taken (hs : s.used = none) (ht : t.used = some fd)
    (hfd : t.descriptors.refers fd = some j) (hj : ¬ s.Pending j)
    (hpending : ∀ k, t.Pending k ↔ s.Pending k ∨ k = j) (k : Nat) : t.Lost k ↔ s.Lost k := by
  constructor
  · rintro ⟨hp, hn⟩
    rcases (hpending k).mp hp with hp' | rfl
    · exact ⟨hp', inHand_none hs⟩
    · exact absurd ((inHand_some ht).mpr hfd) hn
  · rintro ⟨hp, _⟩
    refine ⟨(hpending k).mpr (.inl hp), ?_⟩
    intro hh
    rw [inHand_some ht, hfd] at hh
    apply hj
    rwa [Option.some.inj hh]

/-! ### The calls -/

theorem pending_acceptReturns (h : s.Ledger) (n k : Nat) :
    (s.acceptReturns (some n)).Pending k ↔ s.Pending k ∨ k = s.descriptors.openings := by
  constructor
  · rintro ⟨ha, hp, hc⟩
    rcases List.mem_append.mp ha with ha | ha
    · exact .inl ⟨ha, hp, hc⟩
    · exact .inr (List.mem_singleton.mp ha)
  · rintro (⟨ha, hp, hc⟩ | rfl)
    · exact ⟨List.mem_append_left _ ha, hp, hc⟩
    · refine ⟨List.mem_append_right _ (List.mem_singleton_self _), ?_, ?_⟩
      · intro hp
        exact h.openings_notAccepted (h.passedAccepted _ hp)
      · intro hc
        exact Nat.lt_irrefl _ (h.closedBefore hc)

theorem pending_closed (hfd : s.descriptors.refers fd = some j) (k : Nat) :
    (s.close fd).Pending k ↔ s.Pending k ∧ k ≠ j := by
  rw [close_of_refers hfd]
  simp only [Pending, List.mem_append, List.mem_singleton, not_or]
  tauto

theorem pending_passed (hfd : s.descriptors.refers fd = some j) (k : Nat) :
    (s.pass fd).Pending k ↔ s.Pending k ∧ k ≠ j := by
  rw [pass_of_refers hfd]
  simp only [Pending, List.mem_append, List.mem_singleton, not_or]
  tauto

theorem accept_none (s : Acceptor) : s.accept none = s.goto .testErrno := by
  rw [accept, if_neg (show ¬ 0 < DescriptorTable.result none by decide), acceptReturns]

/-- Descriptor 0 is taken for a failure. -/
theorem accept_zero (s : Acceptor) :
    s.accept (some 0) = (s.acceptReturns (some 0)).goto .testErrno := by
  rw [accept, if_neg (show ¬ 0 < DescriptorTable.result (some 0) by decide)]

theorem accept_pos (s : Acceptor) (hn : 0 < n) :
    s.accept (some n) = (s.acceptReturns (some n)).goto (.connection n) := by
  have hpos : 0 < DescriptorTable.result (some n) := Int.natCast_pos.mpr hn
  rw [accept, if_pos hpos, DescriptorTable.result]

/-! ### What a step keeps -/

structure Inv (s : Acceptor) : Prop where
  ledger : s.Ledger
  control : s.Control

/-- Besides, the step loses no opening. -/
structure Keeps (s t : Acceptor) : Prop extends Inv t where
  lost : ∀ k, t.Lost k ↔ s.Lost k

theorem Inv.reserved (h : s.Inv) (hpoint : s.point = .idle ∨ s.point = .accept ∨
    s.point = .testErrno ∨ s.point = .closeIdle) : s.Reserved := by
  have hcontrol := h.control
  rcases hpoint with hp | hp | hp | hp <;> rwa [Control, hp] at hcontrol

theorem used_none (hpoint : s.point = .idle ∨ s.point = .accept ∨ s.point = .testErrno ∨
    s.point = .acceptIdle ∨ s.point = .reopen) : s.used = none := by
  rcases hpoint with hp | hp | hp | hp | hp <;> rw [used, hp]

theorem inHand_neg_one (h : s.used = some (-1)) : ¬ s.InHand k := by
  rw [inHand_some h, DescriptorTable.refers_neg_one]
  rintro ⟨⟩

/-- Nothing but the control state changes, and no connection is in hand before or after. -/
theorem goto_keeps (h : s.Inv) (hs : ∀ k, ¬ s.InHand k) (hp : (s.goto p).Control)
    (ht : ∀ k, s.Pending k → ¬ (s.goto p).InHand k) : Keeps s (s.goto p) where
  ledger := h.ledger.moved _ _ _
  control := hp
  lost := lost_congr (fun _ => Iff.rfl) fun k hk => iff_of_false (ht k hk) (hs k)

/-- The descriptor in hand is closed. -/
theorem close_keeps (h : s.Inv) (hs : s.used = some fd) (hfd : s.descriptors.refers fd = some j)
    (hown : j ∈ s.reserved ∨ j ∈ s.accepted ∧ j ∉ s.passed)
    (hp : ((s.close fd).goto p).Control) (ht : ((s.close fd).goto p).used = none) :
    Keeps s ((s.close fd).goto p) where
  ledger := (h.ledger.close hfd hown).moved _ _ _
  control := hp
  lost := lost_settled hs hfd ht (pending_closed hfd)

theorem handleRead_keeps (h : s.Inv) (hpoint : s.point = .idle) : Keeps s (s.goto .accept) :=
  goto_keeps h (fun _ => inHand_none (used_none (.inl hpoint)))
    ((h.reserved (.inl hpoint)).goto _) fun _ _ => inHand_none rfl

theorem testErrno_keeps (h : s.Inv) (hpoint : s.point = .testErrno) (emfile : Bool) :
    Keeps s (s.testErrno emfile) := by
  have hreserved := h.reserved (.inr (.inr (.inl hpoint)))
  have hnone (k : Nat) : ¬ s.InHand k := inHand_none (used_none (.inr (.inr (.inl hpoint))))
  cases emfile with
  | false => exact goto_keeps h hnone (hreserved.goto _) fun _ _ => inHand_none rfl
  | true =>
    refine goto_keeps h hnone (hreserved.goto .closeIdle) ?_
    intro k hk hhand
    rw [inHand_some rfl] at hhand
    exact hreserved.not_pending h.ledger hhand hk

theorem accept_none_keeps (h : s.Inv) (hpoint : s.point = .accept) :
    Keeps s (s.accept none) := by
  rw [accept_none]
  exact goto_keeps h (fun _ => inHand_none (used_none (.inr (.inl hpoint))))
    ((h.reserved (.inr (.inl hpoint))).goto _) fun _ _ => inHand_none rfl

theorem Reserved.acceptReturns (h : s.Reserved) (havail : s.descriptors.refers n = none) :
    (s.acceptReturns (some n)).Reserved :=
  h.of_kept rfl rfl (fun _ => id) fun _ _ => DescriptorTable.refers_opened havail

/-- The connection that `accept` has returned. -/
theorem holds_acceptReturns (h : s.Ledger) : (s.acceptReturns (some n)).Holds n :=
  ⟨s.descriptors.openings, (pending_acceptReturns h n _).mpr (.inr rfl),
    DescriptorTable.refers_opened_self⟩

theorem Ledger.openings_not_pending (h : s.Ledger) : ¬ s.Pending s.descriptors.openings :=
  fun hp => h.openings_notAccepted hp.1

theorem accept_pos_keeps (h : s.Inv) (hpoint : s.point = .accept)
    (havail : s.descriptors.refers n = none) (hn : 0 < n) : Keeps s (s.accept (some n)) := by
  rw [accept_pos s hn]
  have hreserved := (h.reserved (.inr (.inl hpoint))).acceptReturns havail
  exact
    { ledger := (h.ledger.acceptReturns havail).moved _ _ _
      control := ⟨hreserved.goto _, holds_acceptReturns h.ledger⟩
      lost := lost_taken (used_none (.inr (.inl hpoint))) rfl
        DescriptorTable.refers_opened_self h.ledger.openings_not_pending
        (pending_acceptReturns h.ledger n) }

theorem accept_zero_inv (h : s.Inv) (hpoint : s.point = .accept)
    (havail : s.descriptors.refers 0 = none) : (s.accept (some 0)).Inv := by
  rw [accept_zero]
  have hreserved := (h.reserved (.inr (.inl hpoint))).acceptReturns (n := 0) havail
  exact ⟨(h.ledger.acceptReturns (n := 0) havail).moved _ _ _, hreserved.goto _⟩

/-- **A connection that gets descriptor 0 is lost.** -/
theorem accept_zero_lost (h : s.Inv) : (s.accept (some 0)).Lost s.descriptors.openings := by
  rw [accept_zero]
  exact ⟨(pending_acceptReturns h.ledger 0 _).mpr (.inr rfl), inHand_none rfl⟩

theorem connection_keeps (h : s.Inv) (hpoint : s.point = .connection fd) :
    Keeps s (s.connection fd) := by
  obtain ⟨hreserved, j, hpending, hfd⟩ : s.Reserved ∧ s.Holds fd := by
    simpa only [Control, hpoint] using h.control
  have hused : s.used = some fd := by rw [used, hpoint]
  cases hset : s.newConnectionCallback with
  | true =>
    rw [connection, if_pos hset]
    have hkept : (s.pass fd).Reserved := by
      rw [pass_of_refers hfd]
      exact hreserved.of_kept rfl rfl (fun _ => id) fun _ _ => id
    exact
      { ledger := (h.ledger.pass hfd hpending.1 hpending.2.1).moved _ _ _
        control := hkept.goto _
        lost := lost_settled hused hfd rfl (pending_passed hfd) }
  | false =>
    rw [connection, if_neg (by rw [hset]; decide)]
    have hkept : (s.close fd).Reserved := by
      rw [close_of_refers hfd]
      refine hreserved.of_kept rfl rfl (fun _ => List.mem_append_left _) ?_
      intro k hk hidle
      refine DescriptorTable.refers_close hidle ?_
      rw [hfd]
      rintro ⟨⟩
      exact h.ledger.distinct _ hk hpending.1
    exact close_keeps h hused hfd (.inr ⟨hpending.1, hpending.2.1⟩) (hkept.goto _) rfl

/-- After its close the reserve is gone. -/
theorem closeIdle_keeps (h : s.Inv) (hpoint : s.point = .closeIdle) : Keeps s s.closeIdle := by
  have hreserved := h.reserved (.inr (.inr (.inr hpoint)))
  have hused : s.used = some s.idleFd := by rw [used, hpoint]
  rcases hreserved.held with hneg | ⟨j, hj, hfd⟩
  · have hreleased : s.Released := by
      intro k hk
      refine (hreserved.kept k hk).resolve_right ?_
      rw [hneg, DescriptorTable.refers_neg_one]
      rintro ⟨⟩
    rw [hneg] at hused
    rw [closeIdle, hneg, close_neg_one]
    exact goto_keeps h (fun _ => inHand_neg_one hused) hreleased fun _ _ => inHand_none rfl
  · have hreleased : (s.close s.idleFd).Released := by
      rw [close_of_refers hfd]
      intro k hk
      rcases hreserved.kept k hk with hc | hidle
      · exact List.mem_append_left _ hc
      · rw [hfd] at hidle
        rw [Option.some.inj hidle]
        exact List.mem_append_right _ (List.mem_singleton_self _)
    exact close_keeps h hused hfd (.inl hj) hreleased rfl

theorem acceptIdle_none_keeps (h : s.Inv) (hpoint : s.point = .acceptIdle) :
    Keeps s (s.acceptIdle none) := by
  have hreleased : s.Released := by simpa only [Control, hpoint] using h.control
  have hused : s.used = none := used_none (.inr (.inr (.inr (.inl hpoint))))
  refine ⟨⟨h.ledger.moved _ _ _, hreleased, .inl rfl⟩, lost_congr (fun _ => Iff.rfl) ?_⟩
  exact fun _ _ => iff_of_false (inHand_neg_one rfl) (inHand_none hused)

theorem acceptIdle_some_keeps (h : s.Inv) (hpoint : s.point = .acceptIdle)
    (havail : s.descriptors.refers n = none) : Keeps s (s.acceptIdle (some n)) := by
  have hreleased : s.Released := by simpa only [Control, hpoint] using h.control
  have hused : s.used = none := used_none (.inr (.inr (.inr (.inl hpoint))))
  exact
    { ledger := (h.ledger.acceptReturns havail).moved _ _ _
      control := ⟨hreleased, .inr (holds_acceptReturns h.ledger)⟩
      lost := lost_taken hused rfl DescriptorTable.refers_opened_self
        h.ledger.openings_not_pending (pending_acceptReturns h.ledger n) }

theorem closeAccepted_keeps (h : s.Inv) (hpoint : s.point = .closeAccepted) :
    Keeps s s.closeAccepted := by
  obtain ⟨hreleased, hheld⟩ : s.Released ∧ (s.idleFd = -1 ∨ s.Holds s.idleFd) := by
    simpa only [Control, hpoint] using h.control
  have hused : s.used = some s.idleFd := by rw [used, hpoint]
  rcases hheld with hneg | ⟨j, hpending, hfd⟩
  · rw [hneg] at hused
    rw [closeAccepted, hneg, close_neg_one]
    exact goto_keeps h (fun _ => inHand_neg_one hused) hreleased fun _ _ => inHand_none rfl
  · have hkept : (s.close s.idleFd).Released := by
      rw [close_of_refers hfd]
      exact fun k hk => List.mem_append_left _ (hreleased k hk)
    exact close_keeps h hused hfd (.inr ⟨hpending.1, hpending.2.1⟩) hkept rfl

theorem reopen_keeps (h : s.Inv) (hpoint : s.point = .reopen) (r : Option Nat)
    (havail : s.descriptors.Available r) : Keeps s (s.reopen r) := by
  have hreleased : s.Released := by simpa only [Control, hpoint] using h.control
  have hused : s.used = none := used_none (.inr (.inr (.inr (.inr hpoint))))
  have hlost : ∀ k, (s.reopen r).Pending k ↔ s.Pending k := by
    cases r <;> exact fun _ => Iff.rfl
  have hhand : ∀ k, s.Pending k → ((s.reopen r).InHand k ↔ s.InHand k) :=
    fun _ _ => iff_of_false (inHand_none rfl) (inHand_none hused)
  cases r with
  | none =>
    refine ⟨⟨h.ledger.moved _ _ _, ?_⟩, lost_congr hlost hhand⟩
    exact ⟨fun k hk => .inl (hreleased k hk), .inl rfl⟩
  | some n =>
    refine ⟨⟨(h.ledger.openReturns havail).moved _ _ _, ?_⟩, lost_congr hlost hhand⟩
    have hrefers : (s.descriptors.opened n).refers n = some s.descriptors.openings :=
      DescriptorTable.refers_opened_self
    refine ⟨fun k hk => ?_, .inr ⟨_, List.mem_append_right _ (List.mem_singleton_self _), hrefers⟩⟩
    rcases List.mem_append.mp hk with hk | hk
    · exact .inl (hreleased k hk)
    · rw [List.mem_singleton.mp hk]
      exact .inr hrefers

theorem setNewConnectionCallback_keeps (h : s.Inv) (hpoint : s.point = .idle) (set : Bool) :
    Keeps s { s with newConnectionCallback := set } := by
  have hreserved := h.reserved (.inl hpoint)
  refine ⟨⟨h.ledger.moved _ set _, ?_⟩, fun _ => Iff.rfl⟩
  rw [Control, show ({ s with newConnectionCallback := set } : Acceptor).point = .idle from hpoint]
  exact ⟨hreserved.kept, hreserved.held⟩

/-- The rest of the process leaves the Acceptor's descriptors alone. -/
theorem others_keep {d : DescriptorTable} (h : s.Inv) (hl : Ledger { s with descriptors := d })
    (hsame : ∀ fd k, k ∈ s.reserved ∨ s.Pending k →
      (d.refers fd = some k ↔ s.descriptors.refers fd = some k)) :
    Keeps s { s with descriptors := d } := by
  have hreserved (p : Point) (hr : s.Reserved) : Reserved { s with descriptors := d, point := p } :=
    hr.of_kept rfl rfl (fun _ => id) fun k hk => (hsame _ k (.inl hk)).mpr
  have hholds (fd : Int) (hh : s.Holds fd) : Holds { s with descriptors := d } fd :=
    hh.of_kept (fun _ => id) fun k hk => (hsame fd k (.inr hk)).mpr
  constructor
  · refine ⟨hl, ?_⟩
    have hcontrol := h.control
    simp only [Control] at hcontrol ⊢
    cases hp : s.point with
    | connection connfd =>
      rw [hp] at hcontrol
      exact ⟨hreserved _ hcontrol.1, hholds connfd hcontrol.2⟩
    | closeAccepted =>
      rw [hp] at hcontrol
      exact ⟨hcontrol.1, hcontrol.2.imp_right (hholds s.idleFd)⟩
    | acceptIdle => rw [hp] at hcontrol; exact hcontrol
    | reopen => rw [hp] at hcontrol; exact hcontrol
    | _ => rw [hp] at hcontrol; exact hreserved _ hcontrol
  · refine lost_congr (fun _ => Iff.rfl) ?_
    intro k hk
    constructor
    · rintro ⟨fd, hfd, hh⟩
      exact ⟨fd, hfd, (hsame fd k (.inr hk)).mp hh⟩
    · rintro ⟨fd, hfd, hh⟩
      exact ⟨fd, hfd, (hsame fd k (.inr hk)).mpr hh⟩

theorem otherOpens_keeps (h : s.Inv) (havail : s.descriptors.refers n = none) :
    Keeps s { s with descriptors := s.descriptors.opened n } := by
  refine others_keep h (h.ledger.opened havail) ?_
  intro fd k hk
  have hbefore : k < s.descriptors.openings := by
    rcases hk with hr | hp
    · exact h.ledger.reservedBefore k hr
    · exact h.ledger.acceptedBefore k hp.1
  constructor
  · intro hfd
    rcases DescriptorTable.refers_of_opened hfd with ⟨_, rfl⟩ | ⟨_, hold⟩
    · exact absurd hbefore (Nat.lt_irrefl _)
    · exact hold
  · intro hfd
    exact DescriptorTable.refers_opened havail hfd

theorem otherCloses_keeps (h : s.Inv) (hfd : s.descriptors.refers fd = some j)
    (hown : ¬ s.Own j) : Keeps s { s with descriptors := s.descriptors.close fd } := by
  refine others_keep h (h.ledger.otherCloses hfd hown) ?_
  intro fd' k hk
  constructor
  · intro hfd'
    exact (DescriptorTable.refers_of_close hfd').2
  · intro hfd'
    apply DescriptorTable.refers_close hfd'
    rw [hfd]
    rintro ⟨⟩
    apply hown
    rcases hk with hr | hp
    · exact .inr (.inl hr)
    · exact .inr (.inr ⟨hp.1, hp.2.1⟩)

/-! ### Runs -/

/-- Every step but an `accept` that returns 0 loses nothing. -/
theorem step_keeps (h : s.Inv) (hst : system.Step s act t) (hact : act ≠ .accept (some 0)) :
    Keeps s t := by
  obtain ⟨hen, hstep⟩ := hst
  cases hstep
  cases act with
  | handleRead => exact handleRead_keeps h hen
  | accept r =>
    match r, hact, hen with
    | none, _, hen => exact accept_none_keeps h hen.1
    | some 0, hact, _ => exact absurd rfl hact
    | some (n + 1), _, hen => exact accept_pos_keeps h hen.1 hen.2 (Nat.succ_pos n)
  | connection =>
    simp only [step]
    cases hp : s.point with
    | connection connfd => exact connection_keeps h hp
    | _ => exact absurd hen (by simp only [system, enabled, hp, Point.isConnection]; decide)
  | testErrno emfile => exact testErrno_keeps h hen emfile
  | closeIdle => exact closeIdle_keeps h hen
  | acceptIdle r =>
    cases r with
    | none => exact acceptIdle_none_keeps h hen.1
    | some n => exact acceptIdle_some_keeps h hen.1 hen.2
  | closeAccepted => exact closeAccepted_keeps h hen
  | reopen r => exact reopen_keeps h hen.1 r hen.2
  | setNewConnectionCallback set => exact setNewConnectionCallback_keeps h hen set
  | otherOpens fd => exact otherOpens_keeps h hen
  | otherCloses fd =>
    obtain ⟨j, hj, hown⟩ := hen
    exact otherCloses_keeps h hj hown

theorem step_inv (h : s.Inv) (hst : system.Step s act t) : t.Inv := by
  by_cases hact : act = .accept (some 0)
  · obtain ⟨hen, hstep⟩ := hst
    subst hact
    cases hstep
    exact accept_zero_inv h hen.1 hen.2
  · exact (step_keeps h hst hact).toInv

theorem init_inv (h : system.init s) : s.Inv := by
  obtain ⟨acceptFd, idleFd, hne, rfl⟩ := h
  have hlisten : (new acceptFd idleFd).descriptors.refers acceptFd = some 0 := by
    refine (DescriptorTable.refers_opened_of_ne ?_).trans DescriptorTable.refers_opened_self
    exact fun heq => hne (Int.ofNat_inj.mp heq)
  have hidle : (new acceptFd idleFd).descriptors.refers idleFd = some 1 :=
    DescriptorTable.refers_opened_self
  have hone : ∀ k ∈ (new acceptFd idleFd).reserved, k = 1 := fun k hk => List.mem_singleton.mp hk
  exact
    { ledger :=
        { acceptedBefore := fun _ hk => absurd hk List.not_mem_nil
          reservedBefore := fun k hk => hone k hk ▸ Nat.lt_succ_self 1
          distinct := fun _ _ => List.not_mem_nil
          passedAccepted := fun _ hk => absurd hk List.not_mem_nil
          closedOwn := fun _ hk => absurd hk List.not_mem_nil
          apart := fun _ _ => List.not_mem_nil
          passedOnce := List.nodup_nil
          closedOnce := List.nodup_nil
          gone := fun _ hk => absurd hk List.not_mem_nil
          listening := hlisten
          notAccepted := List.not_mem_nil
          notReserved := fun hk => absurd (hone 0 hk) (by decide) }
      control :=
        { kept := fun k hk => .inr (hone k hk ▸ hidle)
          held := .inr ⟨1, List.mem_singleton_self _, hidle⟩ } }

/-- A lost opening stays lost, and the only loss is an `accept` that returns 0. -/
theorem run_lost {s₀ : Acceptor} {acts : List Action} (h₀ : system.init s₀)
    (hrun : system.Run s₀ acts s) : s.Inv ∧ ((∃ k, s.Lost k) ↔ .accept (some 0) ∈ acts) := by
  induction hrun with
  | nil =>
    refine ⟨init_inv h₀, iff_of_false ?_ List.not_mem_nil⟩
    obtain ⟨acceptFd, idleFd, _, rfl⟩ := h₀
    rintro ⟨k, hpending, _⟩
    exact List.not_mem_nil hpending.1
  | @snoc u v acts act _ hst ih =>
    obtain ⟨hinv, hiff⟩ := ih
    refine ⟨step_inv hinv hst, ?_⟩
    rw [List.mem_append, List.mem_singleton, ← hiff]
    by_cases hact : act = .accept (some 0)
    · refine iff_of_true ?_ (.inr hact.symm)
      obtain ⟨_, hstep⟩ := hst
      subst hact
      cases hstep
      exact ⟨_, accept_zero_lost hinv⟩
    · rw [or_iff_left (Ne.symm hact)]
      exact exists_congr (step_keeps hinv hst hact).lost

/-! ### The descriptors are kept -/

theorem Inv.live (h : s.Inv) (hfd : fd ∈ s.used) :
    fd = -1 ∨ ∃ k, s.descriptors.refers fd = some k ∧
      (k ∈ s.reserved ∨ k ∈ s.accepted ∧ k ∉ s.passed) := by
  have hheld : s.Holds fd → ∃ k, s.descriptors.refers fd = some k ∧
      (k ∈ s.reserved ∨ k ∈ s.accepted ∧ k ∉ s.passed) := by
    rintro ⟨k, hpending, hk⟩
    exact ⟨k, hk, .inr ⟨hpending.1, hpending.2.1⟩⟩
  have hcontrol := h.control
  rw [Control] at hcontrol
  rw [used] at hfd
  cases hp : s.point with
  | connection connfd =>
    rw [hp] at hcontrol hfd
    cases hfd
    exact .inr (hheld hcontrol.2)
  | closeIdle =>
    rw [hp] at hcontrol hfd
    cases hfd
    refine hcontrol.held.imp_right ?_
    rintro ⟨k, hk, hidle⟩
    exact ⟨k, hidle, .inl hk⟩
  | closeAccepted =>
    rw [hp] at hcontrol hfd
    cases hfd
    exact hcontrol.2.imp_right hheld
  | _ => rw [hp] at hfd; cases hfd

theorem Inv.reserve (h : s.Inv) (hk : k ∈ s.reserved) :
    k ∈ s.closed ∨ s.descriptors.refers s.idleFd = some k := by
  have hcontrol := h.control
  rw [Control] at hcontrol
  cases hp : s.point with
  | connection connfd => rw [hp] at hcontrol; exact hcontrol.1.kept k hk
  | acceptIdle => rw [hp] at hcontrol; exact .inl (hcontrol k hk)
  | closeAccepted => rw [hp] at hcontrol; exact .inl (hcontrol.1 k hk)
  | reopen => rw [hp] at hcontrol; exact .inl (hcontrol k hk)
  | _ => rw [hp] at hcontrol; exact hcontrol.kept k hk

theorem Inv.keepsDescriptors_iff (h : s.Inv) : s.KeepsDescriptors ↔ ¬ ∃ k, s.Lost k := by
  constructor
  · rintro hkeeps ⟨k, ⟨ha, hp, hc⟩, hn⟩
    rcases hkeeps.accounted k ha with hpassed | hclosed | hhand
    · exact hp hpassed
    · exact hc hclosed
    · exact hn hhand
  · intro hlost
    exact
      { h.ledger with
        accounted := by
          intro k hk
          by_contra hnone
          rw [not_or, not_or] at hnone
          exact hlost ⟨k, ⟨hk, hnone.1, hnone.2.1⟩, hnone.2.2⟩
        live := fun fd hfd => h.live hfd
        reserve := fun k hk => h.reserve hk }

/-- **No descriptor is lost exactly when `acceptSocket_.accept` has not returned 0.** -/
theorem descriptors_kept_iff {s₀ : Acceptor} {acts : List Action} (h₀ : system.init s₀)
    (hrun : system.Run s₀ acts s) : s.KeepsDescriptors ↔ .accept (some 0) ∉ acts := by
  obtain ⟨hinv, hiff⟩ := run_lost h₀ hrun
  rw [hinv.keepsDescriptors_iff, hiff]

/-- Two read events: a connection without a callback set, and one for which there is no
    descriptor left. -/
theorem descriptors_kept_emfile : ∃ s : Acceptor, s.point = .idle ∧ s.closed = [2, 1, 3] ∧
    s.KeepsDescriptors := by
  obtain ⟨s, hexec, hpoint, hclosed⟩ : ∃ s, system.exec (new 3 4)
      [.handleRead, .accept (some 5), .connection, .handleRead, .accept none, .testErrno true,
        .closeIdle, .acceptIdle (some 4), .closeAccepted, .reopen (some 4)] = some s ∧
      s.point = .idle ∧ s.closed = [2, 1, 3] := ⟨_, rfl, rfl, rfl⟩
  exact ⟨s, hpoint, hclosed,
    (descriptors_kept_iff ⟨3, 4, by decide, rfl⟩ (run_of_exec hexec)).mpr (by decide)⟩

/-- Descriptor 0 is free, and a connection gets it: after the read event it is neither passed
    on nor closed. -/
theorem descriptor_zero_lost : ¬ ∀ (s₀ s : Acceptor) acts, system.init s₀ → system.Run s₀ acts s →
    s.point = .idle → ∀ k ∈ s.accepted, k ∈ s.passed ∨ k ∈ s.closed := by
  intro hclaim
  obtain ⟨s, hexec, hpoint, haccepted, hpassed, hclosed⟩ : ∃ s, system.exec (new 3 4)
      [.handleRead, .accept (some 0), .testErrno false] = some s ∧
      s.point = .idle ∧ s.accepted = [2] ∧ s.passed = [] ∧ s.closed = [] :=
    ⟨_, rfl, rfl, rfl, rfl, rfl⟩
  have h := hclaim _ s _ ⟨3, 4, by decide, rfl⟩ (run_of_exec hexec) hpoint 2
    (haccepted ▸ List.mem_singleton_self _)
  rw [hpassed, hclosed] at h
  exact h.elim List.not_mem_nil List.not_mem_nil

end Acceptor

end Kaycc
