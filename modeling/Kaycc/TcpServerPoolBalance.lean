/-
  Kaycc/TcpServerPoolBalance.lean
  ===============================
  **The pool deals out its loops in turn.**

  `getNextLoop` reads `loops_[next_]` and lets `next_` come round by a comparison,
  not by a remainder.  `Dealt` is the invariant: `next_` is the remainder all the
  same, and the `i`-th connection lives in the loop whose turn it was.  So the
  loops of the pool have been given equally many connections, up to one
  (`evenly_dealt`), whatever becomes of the connections in between.
-/
import Kaycc.TcpServerPool
import Mathlib.Data.Int.CardIntervalMod

namespace Kaycc.TcpServerPool

open Transition Transition.System Postcondition

variable {cfg : Config} {s t : TcpServerPool} {loop current : LoopId} {f : Functor} {conn : Nat}

/-- The loop whose turn it is. -/
def Config.turn (cfg : Config) (i : Nat) : LoopId :=
  if cfg.numThreads = 0 then .base else .io (i % cfg.numThreads)

structure Dealt (cfg : Config) (s : TcpServerPool) : Prop where
  next : cfg.numThreads ≠ 0 → s.next = s.conns.length % cfg.numThreads
  loops : s.conns.map Conn.loop = (List.range s.conns.length).map cfg.turn

/-! ### What leaves the loops alone -/

/-- No connection is added, and none changes its loop. -/
structure KeepsLoops (s t : TcpServerPool) : Prop where
  next : t.next = s.next
  loops : t.conns.map Conn.loop = s.conns.map Conn.loop

theorem KeepsLoops.refl (s : TcpServerPool) : KeepsLoops s s := ⟨rfl, rfl⟩

theorem KeepsLoops.trans {u : TcpServerPool} (h : KeepsLoops s t) (h' : KeepsLoops t u) :
    KeepsLoops s u :=
  ⟨h'.next.trans h.next, h'.loops.trans h.loops⟩

theorem KeepsLoops.length (h : KeepsLoops s t) : t.conns.length = s.conns.length := by
  have hlength := congrArg List.length h.loops
  rwa [List.length_map, List.length_map] at hlength

theorem KeepsLoops.dealt (h : KeepsLoops s t) (hs : Dealt cfg s) : Dealt cfg t where
  next := fun hpool => by rw [h.next, h.length, hs.next hpool]
  loops := by rw [h.loops, h.length, hs.loops]

/-- What a function that leaves the loops alone ends with. -/
abbrev StaysDealt (s : TcpServerPool) (x : Except Assertion TcpServerPool) : Prop :=
  Ends (KeepsLoops s) (fun _ => True) x

theorem setState_keeps (s : TcpServerPool) (conn : Nat) (state : TcpConnection.StateE) :
    KeepsLoops s (s.setState conn state) := by
  refine ⟨rfl, List.ext_getElem? fun i => ?_⟩
  simp only [setState, List.getElem?_map, List.getElem?_modify]
  split <;> cases s.conns[i]? <;> rfl

theorem check_stays {c : Prop} [Decidable c] {a : Assertion} {x : Except Assertion TcpServerPool}
    (h : StaysDealt s x) : StaysDealt s (check c a >>= fun _ => x) :=
  Ends.bind (P := fun _ => True) ((check_ends trivial).imp fun _ _ => trivial) fun _ _ => h

theorem call_stays (s : TcpServerPool) (loop : LoopId) (f : Functor) :
    StaysDealt s (s.call loop f) := by
  have hrecord : KeepsLoops s (s.record loop (.called f)) := ⟨rfl, rfl⟩
  cases f with
  | connectEstablished conn =>
    exact check_stays (ends_ok (hrecord.trans (setState_keeps _ _ _)))
  | removeConnectionInLoop conn => exact check_stays (ends_ok (hrecord.trans ⟨rfl, rfl⟩))
  | connectDestroyed conn =>
    refine ends_ok (hrecord.trans ?_)
    unfold connectDestroyed
    split
    · exact setState_keeps _ _ _
    · exact KeepsLoops.refl _

theorem runInLoop_stays (s : TcpServerPool) (current loop : LoopId) (f : Functor) :
    StaysDealt s (s.runInLoop current loop f) :=
  ends_ite (fun _ => call_stays s loop f) fun _ => ends_ok ⟨rfl, rfl⟩

theorem closeCallback_stays (s : TcpServerPool) (conn : Nat) :
    StaysDealt s (s.closeCallback conn) := by
  have hrecord : KeepsLoops s (s.record (s.getLoop conn) (.closeCallback conn)) := ⟨rfl, rfl⟩
  exact (runInLoop_stays _ _ _ _).imp fun _ h =>
    (hrecord.trans (setState_keeps _ conn .kDisconnected)).trans h

/-! ### `getNextLoop` -/

theorem new_dealt : Dealt cfg new where
  next := fun _ => (Nat.zero_mod _).symm
  loops := rfl

/-- The loop whose turn it is, and the turn of the next one. -/
theorem Dealt.getNextLoop (h : Dealt cfg s) : (s.getNextLoop cfg).1 = cfg.turn s.conns.length ∧
    (cfg.numThreads ≠ 0 → (s.getNextLoop cfg).2 = (s.conns.length + 1) % cfg.numThreads) := by
  unfold TcpServerPool.getNextLoop Config.turn
  by_cases hpool : cfg.numThreads = 0
  · rw [if_pos hpool, if_pos hpool]
    exact ⟨rfl, fun hne => absurd hpool hne⟩
  · have hnext := h.next hpool
    have hlt := Nat.mod_lt s.conns.length (Nat.pos_of_ne_zero hpool)
    have hsucc : (s.conns.length + 1) % cfg.numThreads =
        (s.conns.length % cfg.numThreads + 1) % cfg.numThreads := (Nat.mod_add_mod ..).symm
    rw [if_neg hpool, if_neg hpool, hnext, hsucc]
    refine ⟨rfl, fun _ => ?_⟩
    dsimp only
    split
    · have hround : s.conns.length % cfg.numThreads + 1 = cfg.numThreads := by omega
      rw [hround, Nat.mod_self]
    · exact (Nat.mod_eq_of_lt (by omega)).symm

theorem Dealt.newConnection (h : Dealt cfg s) (heq : s.newConnection cfg = .ok t) :
    Dealt cfg t := by
  obtain ⟨hloop, hnext⟩ := h.getNextLoop
  refine ((runInLoop_stays _ _ _ _).of_ok heq).dealt ⟨?_, ?_⟩
  · intro hpool
    rw [List.length_append, List.length_singleton]
    exact hnext hpool
  · rw [List.length_append, List.length_singleton, List.map_append, h.loops, List.range_succ,
      List.map_append, List.map_singleton, List.map_singleton, hloop]

theorem dealt_reachable (h : (system cfg).Reachable s) : Dealt cfg s := by
  refine h.invariant (fun s hs => ?_) fun s a t hi hst => ?_
  · obtain rfl : s = new := hs
    exact new_dealt
  · obtain ⟨-, heq⟩ := hst
    cases a with
    | newConnection => exact hi.newConnection heq
    | callFunctor loop =>
      cases hf : s.functors loop with
      | nil =>
        simp only [system, step, hf, Except.ok.injEq] at heq
        exact heq ▸ hi
      | cons f functors =>
        simp only [system, step, hf] at heq
        have hqueue : KeepsLoops s
            { s with functors := Function.update s.functors loop functors } := ⟨rfl, rfl⟩
        exact (hqueue.trans ((call_stays _ loop f).of_ok heq)).dealt hi
    | closeCallback conn => exact ((closeCallback_stays s conn).of_ok heq).dealt hi

/-! ### The theorem -/

/-- How many connections the pool has given to this loop. -/
def given (s : TcpServerPool) (loop : LoopId) : Nat := s.conns.countP fun c => c.loop = loop

theorem Dealt.given_eq (h : Dealt cfg s) {i : Nat} (hi : i < cfg.numThreads) :
    s.given (.io i) = s.conns.length / cfg.numThreads +
      if i < s.conns.length % cfg.numThreads then 1 else 0 := by
  have hpool : cfg.numThreads ≠ 0 := Nat.ne_zero_of_lt hi
  have hturn (k : Nat) : cfg.turn k = .io i ↔ k ≡ i [MOD cfg.numThreads] := by
    rw [Config.turn, if_neg hpool, LoopId.io.injEq, Nat.ModEq, Nat.mod_eq_of_lt hi]
  have hcount := Nat.count_modEq_card s.conns.length (Nat.pos_of_ne_zero hpool) i
  rw [Nat.mod_eq_of_lt hi] at hcount
  rw [← hcount, Nat.count]
  have hmap : s.given (.io i) = (s.conns.map Conn.loop).countP fun loop => loop = .io i := by
    rw [List.countP_map]
    rfl
  rw [hmap, h.loops, List.countP_map]
  exact List.countP_congr fun k _ => by simp [hturn]

/-- **The loops are given equally many connections.**  The `i`-th connection lives in the loop
    whose turn it was, and a loop of the pool is at most one connection behind those before it
    and never ahead of them. -/
theorem evenly_dealt (h : (system cfg).Reachable s) :
    (∀ (i : Nat) (c : Conn), s.conns[i]? = some c → c.loop = cfg.turn i) ∧
      ∀ i j, i ≤ j → j < cfg.numThreads →
        s.given (.io j) ≤ s.given (.io i) ∧ s.given (.io i) ≤ s.given (.io j) + 1 := by
  have hdealt := dealt_reachable h
  refine ⟨fun i c hc => ?_, fun i j hij hj => ?_⟩
  · have hget := congrArg (·[i]?) hdealt.loops
    have hlt : i < s.conns.length := (List.getElem?_eq_some_iff.mp hc).1
    simp only [List.getElem?_map, hc, List.getElem?_range hlt, Option.map_some,
      Option.some.injEq] at hget
    exact hget
  · rw [hdealt.given_eq hj, hdealt.given_eq (Nat.lt_of_le_of_lt hij hj)]
    split <;> split <;> omega

/-- Three threads and four connections, of which the first is closed. -/
theorem evenly_dealt_three : ∃ cfg s, (system cfg).Reachable s ∧ cfg.numThreads = 3 ∧
    s.given (.io 0) = 2 ∧ s.given (.io 2) = 1 ∧ s.given (.io 0) ≤ s.given (.io 2) + 1 := by
  let cfg : Config := {
    name := ['e', 'c', 'h', 'o']
    listenAddr := ⟨['0', '.', '0', '.', '0', '.', '0'], 2000, by decide⟩
    numThreads := 3 }
  let test (s : TcpServerPool) : Bool := s.given (.io 0) = 2 ∧ s.given (.io 2) = 1
  have hrun : ((system cfg).exec new [.newConnection, .newConnection, .callFunctor (.io 0),
      .closeCallback 0, .callFunctor .base, .newConnection, .newConnection]).any test = true := by
    decide +kernel
  obtain ⟨s, hs, htest⟩ := exists_of_exec_any _ rfl hrun
  obtain ⟨hfirst, hlast⟩ := of_decide_eq_true htest
  exact ⟨cfg, s, hs, rfl, hfirst, hlast, ((evenly_dealt hs).2 0 2 (by decide) (by decide)).2⟩

end Kaycc.TcpServerPool
