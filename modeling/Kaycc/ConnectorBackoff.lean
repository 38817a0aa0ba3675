/-
  Kaycc/ConnectorBackoff.lean
  ===========================
  **The delays between the attempts of a `Connector`.**

  `retry` doubles `retryDelayMs_` up to `kMaxRetryDelayMs`, and `restart` sets it
  back; nothing else writes it.  `delays` are those that `retry` has passed to
  `runAfter` since the last `restart`, in order: 500 ms, doubled each time, up to
  30 s, whatever `start` and `stop` do in between (`backoff_exact`).

  As in `Kaycc.ConnectorSockets`, `start`, `stop` and `restart` are called at any time,
  also during an attempt.
-/
import Kaycc.ConnectorSockets
import Mathlib.Algebra.Group.Nat.Defs

namespace Kaycc

open Transition Transition.System

namespace Connector

/-! ### Delays that double up to a limit -/

def delay (first limit i : Nat) : Nat := min (first * 2 ^ i) limit

theorem delay_zero {first limit : Nat} (h : first ≤ limit) : delay first limit 0 = first := by
  rw [delay, Nat.pow_zero, Nat.mul_one]
  exact Nat.min_eq_left h

theorem delay_succ (first limit i : Nat) :
    min (delay first limit i * 2) limit = delay first limit (i + 1) := by
  unfold delay
  rw [Nat.pow_succ, ← Nat.mul_assoc]
  generalize first * 2 ^ i = d
  omega

theorem delay_le (first limit i : Nat) : delay first limit i ≤ limit := Nat.min_le_right ..

theorem first_le_delay {first limit : Nat} (h : first ≤ limit) (i : Nat) :
    first ≤ delay first limit i :=
  Nat.le_min.mpr ⟨Nat.le_mul_of_pos_right first (Nat.pow_pos (by decide)), h⟩

/-! ### The delays of a run -/

structure Backoff where
  connector : Connector
  delays : List Nat              -- passed to runAfter since the last restart()

namespace Backoff

variable {b : Backoff} {s t : Connector} {act : Action} {sockfd : Nat}

/-- The delays of the timers that a step has added; the timer that fires adds none. -/
def added (s t : Connector) : Action → List Nat
  | .retryTimer _ => []
  | _ => t.timers.drop s.timers.length

def delaysAfter (b : Backoff) (t : Connector) : Action → List Nat
  | .restart => []
  | act => b.delays ++ added b.connector t act

def step (b : Backoff) (act : Action) : Except Assertion Backoff := do
  let t ← b.connector.step act
  pure ⟨t, b.delaysAfter t act⟩

/-- `start` and `restart` wherever the user's code runs on the loop's thread. -/
def enabled (b : Backoff) : Action → Prop := Ledger.enabled ⟨b.connector, []⟩

def system : System Backoff Action Assertion where
  init b := b.connector = new ∧ b.delays = []
  enabled := enabled
  step := step

instance (b : Backoff) (act : Action) : Decidable (system.enabled b act) :=
  inferInstanceAs (Decidable (Ledger.system.enabled ⟨b.connector, []⟩ act))

/-- The `i`-th delay after a `restart`. -/
def nth (i : Nat) : Nat := delay kInitRetryDelayMs kMaxRetryDelayMs i

structure Inv (b : Backoff) : Prop where
  delays : b.delays = (List.range b.delays.length).map nth
  next : b.connector.retryDelayMs = nth b.delays.length
  timers : ∀ d ∈ b.connector.timers, ∃ i, d = nth i

theorem init_inv (h : system.init b) : Inv b := by
  obtain ⟨hconnector, hdelays⟩ := h
  constructor
  · rw [hdelays]
    rfl
  · rw [hconnector, hdelays]
    exact (delay_zero (by decide)).symm
  · rw [hconnector]
    intro d hd
    cases hd

/-! ### What the functions of the Connector do to the delays -/

/-- `retryDelayMs_` and the timers are as they were, or one retry has been set up. -/
inductive Paced (s t : Connector) : Prop where
  | same (hdelay : t.retryDelayMs = s.retryDelayMs) (htimers : t.timers = s.timers)
  | retries (hdelay : t.retryDelayMs = min (s.retryDelayMs * 2) kMaxRetryDelayMs)
      (htimers : t.timers = s.timers ++ [s.retryDelayMs])

/-- What was done before has changed neither. -/
theorem Paced.congr {s' : Connector} (h : Paced s' t) (hdelay : s'.retryDelayMs = s.retryDelayMs)
    (htimers : s'.timers = s.timers) : Paced s t := by
  cases h with
  | same hd ht => exact .same (hd.trans hdelay) (ht.trans htimers)
  | retries hd ht =>
    rw [hdelay] at hd
    rw [hdelay, htimers] at ht
    exact .retries hd ht

theorem paced_retry (s : Connector) (sockfd : Nat) : Paced s (s.retry sockfd) := by
  unfold Connector.retry
  split
  · exact .retries rfl rfl
  · exact .same rfl rfl

theorem startInLoop_delays (h : s.startInLoop = .ok t) :
    t.retryDelayMs = s.retryDelayMs ∧ t.timers = s.timers := by
  obtain ⟨_, -, h⟩ := bind_eq_ok.mp h
  split at h
  · obtain rfl := Except.ok.inj h
    exact ⟨rfl, rfl⟩
  · obtain rfl := Except.ok.inj h
    exact ⟨rfl, rfl⟩

theorem paced_startInLoop (h : s.startInLoop = .ok t) : Paced s t := by
  obtain ⟨hdelay, htimers⟩ := startInLoop_delays h
  exact .same hdelay htimers

theorem paced_connectReturned {savedErrno : Errno}
    (h : s.connectReturned sockfd savedErrno = .ok t) : Paced s t := by
  cases savedErrno with
  | zero | EINPROGRESS | EINTR | EISCONN =>
    obtain ⟨_, -, h⟩ := bind_eq_ok.mp h
    obtain ⟨_, -, h⟩ := bind_eq_ok.mp h
    obtain rfl := Except.ok.inj h
    exact .same rfl rfl
  | EAGAIN | EADDRINUSE | EADDRNOTAVAIL | ECONNREFUSED | ENETUNREACH =>
    obtain rfl := Except.ok.inj h
    exact paced_retry s sockfd
  | EACCES | EPERM | EAFNOSUPPORT | EALREADY | EBADF | EFAULT | ENOTSOCK | other _ =>
    obtain rfl := Except.ok.inj h
    exact .same rfl rfl

theorem removeAndResetChannel_delays {r : Connector × Nat} (h : s.removeAndResetChannel = .ok r) :
    r.1.retryDelayMs = s.retryDelayMs ∧ r.1.timers = s.timers := by
  unfold removeAndResetChannel at h
  split at h
  · cases h
  · obtain ⟨_, -, h⟩ := bind_eq_ok.mp h
    obtain ⟨_, -, h⟩ := bind_eq_ok.mp h
    obtain rfl := Except.ok.inj h
    exact ⟨rfl, rfl⟩

theorem paced_stopInLoop (h : s.stopInLoop = .ok t) : Paced s t := by
  unfold Connector.stopInLoop at h
  split at h
  · obtain ⟨r, hr, h⟩ := bind_eq_ok.mp h
    obtain ⟨hdelay, htimers⟩ := removeAndResetChannel_delays hr
    obtain rfl := Except.ok.inj h
    exact (paced_retry r.1 r.2).congr hdelay htimers
  · obtain rfl := Except.ok.inj h
    exact .same rfl rfl

theorem paced_resetChannel (h : s.resetChannel = .ok t) : Paced s t := by
  unfold Connector.resetChannel at h
  split at h
  · obtain rfl := Except.ok.inj h
    exact .same rfl rfl
  · obtain ⟨_, -, h⟩ := bind_eq_ok.mp h
    obtain rfl := Except.ok.inj h
    exact .same rfl rfl

/-- After the error callback an attempt is not under way. -/
theorem paced_handleError (h : s.handleError = .ok t) :
    Paced s t ∧ t.state ≠ .kConnecting := by
  unfold Connector.handleError at h
  split at h
  · obtain ⟨r, hr, h⟩ := bind_eq_ok.mp h
    obtain ⟨hdelay, htimers⟩ := removeAndResetChannel_delays hr
    obtain rfl := Except.ok.inj h
    exact ⟨(paced_retry r.1 r.2).congr hdelay htimers, by simp⟩
  · rename_i hstate
    obtain rfl := Except.ok.inj h
    exact ⟨.same rfl rfl, hstate⟩

theorem paced_handleWrite {err isSelfConnect : Bool}
    (h : s.handleWrite err isSelfConnect = .ok t) : Paced s t := by
  unfold Connector.handleWrite at h
  split at h
  · obtain ⟨⟨u, sockfd⟩, hr, h⟩ := bind_eq_ok.mp h
    obtain ⟨hdelay, htimers⟩ := removeAndResetChannel_delays hr
    have hretry := (paced_retry u sockfd).congr hdelay htimers
    dsimp only at h
    split at h
    · obtain rfl := Except.ok.inj h
      exact hretry
    · split at h
      · obtain rfl := Except.ok.inj h
        exact hretry
      · split at h
        · obtain rfl := Except.ok.inj h
          exact .same hdelay htimers
        · obtain rfl := Except.ok.inj h
          exact .same hdelay htimers
  · obtain ⟨_, -, h⟩ := bind_eq_ok.mp h
    obtain rfl := Except.ok.inj h
    exact .same rfl rfl

/-- One event sets up one retry at most: the write callback finds no attempt after the
    error callback. -/
theorem paced_handleEvent {error writable err isSelfConnect : Bool}
    (h : s.handleEvent error writable err isSelfConnect = .ok t) : Paced s t := by
  obtain ⟨u, hu, h⟩ := bind_eq_ok.mp h
  split at hu
  · obtain ⟨hpaced, hstate⟩ := paced_handleError hu
    split at h
    · rw [handleWrite_resting hstate h]
      exact hpaced
    · obtain rfl := Except.ok.inj h
      exact hpaced
  · obtain rfl := Except.ok.inj hu
    split at h
    · exact paced_handleWrite h
    · obtain rfl := Except.ok.inj h
      exact .same rfl rfl

/-- **Every step but `restart` and the firing of a timer** leaves the delays or sets up one
    retry. -/
theorem paced_step (hst : s.step act = .ok t) (hrestart : act ≠ .restart)
    (htimer : ∀ i, act ≠ .retryTimer i) : Paced s t := by
  cases act with
  | restart => exact absurd rfl hrestart
  | retryTimer i => exact absurd rfl (htimer i)
  | start inLoop =>
    obtain rfl := Except.ok.inj hst
    unfold Connector.start
    split
    · exact .same rfl rfl
    · exact .same rfl rfl
  | stop | newConnection =>
    obtain rfl := Except.ok.inj hst
    exact .same rfl rfl
  | queueInLoop i =>
    simp only [Connector.step] at hst
    split at hst
    · obtain rfl := Except.ok.inj hst
      exact .same rfl rfl
    · obtain rfl := Except.ok.inj hst
      exact .same rfl rfl
  | startInLoop => exact paced_startInLoop hst
  | connectReturned sockfd savedErrno => exact (paced_connectReturned hst).congr rfl rfl
  | callFunctor =>
    simp only [Connector.step] at hst
    split at hst
    · obtain rfl := Except.ok.inj hst
      exact .same rfl rfl
    · rename_i f functors hfunctors
      cases f with
      | startInLoop => exact (paced_startInLoop hst).congr rfl rfl
      | stopInLoop => exact (paced_stopInLoop hst).congr rfl rfl
      | resetChannel => exact (paced_resetChannel hst).congr rfl rfl
  | handleEvent error writable err isSelfConnect => exact paced_handleEvent hst

/-! ### Steps keep the invariant -/

/-- The delay of a retry is the one that was next. -/
theorem Inv.paced (hi : Inv b) (h : Paced b.connector t) :
    Inv ⟨t, b.delays ++ t.timers.drop b.connector.timers.length⟩ := by
  cases h with
  | same hdelay htimers =>
    rw [htimers, List.drop_length, List.append_nil]
    exact ⟨hi.delays, hdelay.trans hi.next, fun d hd => hi.timers d (htimers ▸ hd)⟩
  | retries hdelay htimers =>
    have hadded : t.timers.drop b.connector.timers.length = [nth b.delays.length] := by
      rw [htimers, List.drop_left, hi.next]
    have hlength : (b.delays ++ [nth b.delays.length]).length = b.delays.length + 1 :=
      List.length_append
    rw [hadded]
    constructor
    · rw [hlength, List.range_succ, List.map_append, ← hi.delays]
      rfl
    · rw [hlength]
      change t.retryDelayMs = nth (b.delays.length + 1)
      rw [hdelay, hi.next]
      exact delay_succ _ _ _
    · intro d hd
      have hd : d ∈ b.connector.timers ++ [b.connector.retryDelayMs] := htimers ▸ hd
      rcases List.mem_append.mp hd with hd | hd
      · exact hi.timers d hd
      · exact ⟨b.delays.length, (List.mem_singleton.mp hd).trans hi.next⟩

/-- The timer that fires is used up, and `startInLoop` sets up no retry. -/
theorem Inv.fires (hi : Inv b) {i : Nat}
    (hst : { b.connector with timers := b.connector.timers.eraseIdx i }.startInLoop = .ok t) :
    Inv ⟨t, b.delays ++ []⟩ := by
  rw [List.append_nil]
  obtain ⟨hdelay, htimers⟩ := startInLoop_delays hst
  refine ⟨hi.delays, hdelay.trans hi.next, fun d hd => hi.timers d ?_⟩
  exact List.eraseIdx_subset (htimers ▸ hd)

theorem Inv.step (hi : Inv b) (hst : b.connector.step act = .ok t) :
    Inv ⟨t, b.delaysAfter t act⟩ := by
  cases act with
  | restart =>
    obtain rfl := Except.ok.inj hst
    have hfirst : nth 0 = kInitRetryDelayMs := delay_zero (by decide)
    exact ⟨rfl, hfirst.symm, hi.timers⟩
  | retryTimer i => exact hi.fires hst
  | _ => exact hi.paced (paced_step hst (by simp) (by simp))

theorem reachable_inv (h : system.Reachable b) : Inv b := by
  refine h.invariant (fun _ => init_inv) fun b act b' hi hst => ?_
  obtain ⟨t, ht, hok⟩ := bind_eq_ok.mp hst.2
  obtain rfl := Except.ok.inj hok
  exact hi.step ht

/-! ### The theorem -/

/-- **The back-off is exact.**  The delays since the last `restart()` are 500 ms, doubled from one
    retry to the next, up to 30 s; the next one is in `retryDelayMs_`; and no timer that is
    still to fire was set for less than 500 ms or more than 30 s. -/
theorem backoff_exact (h : system.Reachable b) :
    b.delays = (List.range b.delays.length).map (fun i => min (500 * 2 ^ i) 30000) ∧
      b.connector.retryDelayMs = min (500 * 2 ^ b.delays.length) 30000 ∧
      ∀ d ∈ b.connector.timers, 500 ≤ d ∧ d ≤ 30000 := by
  have hi := reachable_inv h
  refine ⟨hi.delays, hi.next, fun d hd => ?_⟩
  obtain ⟨i, rfl⟩ := hi.timers d hd
  exact ⟨first_le_delay (by decide) i, delay_le _ _ i⟩

/-- Three attempts are refused; the user calls `restart()` after the first, with nothing handed
    over, and `stop()` and `start()` after the second. -/
theorem backoff_exact_refused : ∃ b, system.Reachable b ∧ b.delays = [500, 1000] ∧
    b.connector.retryDelayMs = min (500 * 2 ^ 2) 30000 := by
  let test (b : Backoff) : Bool := b.delays = [500, 1000]
  have hinit : system.init ⟨new, []⟩ := ⟨rfl, rfl⟩
  have hrun : (system.exec ⟨new, []⟩
      [.start true, .startInLoop, .connectReturned 0 .ECONNREFUSED, .restart, .startInLoop,
        .connectReturned 1 .ECONNREFUSED, .stop, .start false, .queueInLoop 0, .queueInLoop 0,
        .callFunctor, .callFunctor, .connectReturned 2 .ECONNREFUSED]).any test = true := by
    decide +kernel
  obtain ⟨b, hb, htest⟩ := exists_of_exec_any _ hinit hrun
  have hdelays : b.delays = [500, 1000] := of_decide_eq_true htest
  have hnext := (backoff_exact hb).2.1
  rw [hdelays] at hnext
  exact ⟨b, hb, hdelays, hnext⟩

end Backoff

end Connector

end Kaycc
