/-
  Kaycc/Timer.lean
  ================
  **`base/timestamp.h`, `net/timer.h`, `net/timerid.h` and the arithmetic of
  `howMuchTimeFromNow`.**

  A `Timestamp` is its count of microseconds.  An `interval_` is a double of which
  the code uses two things, whether it is positive (`repeat_`) and what
  `addTime` converts it to; an `Interval` is these two.

  The code relies on the conversion and on the sum of `addTime` to stay in the range
  of `int64_t`; `addTimeFits` says that they do, and the results that rest on it name
  it.
-/
import Kaycc.Assertion
import Mathlib.Algebra.Order.Ring.Int
import Mathlib.Data.Prod.Lex

namespace Kaycc

/-- `microSecondsSinceEpoch_`. -/
abbrev Timestamp := Int

namespace Timestamp

def kMicroSecondsPerSecond : Int := 1000000

def valid (t : Timestamp) : Bool := decide (0 < t)

def invalid : Timestamp := 0

end Timestamp

/-- `interval_`: `interval > 0`, and `static_cast<int64_t>(interval * 1000000)`. -/
structure Interval where
  positive : Bool
  micros : Int
deriving DecidableEq

def Interval.once : Interval := ⟨false, 0⟩

def Interval.every (micros : Nat) : Interval := ⟨true, micros⟩

/-- The sum is that of `int64_t`. -/
def addTime (timestamp : Timestamp) (interval : Interval) : Timestamp :=
  (timestamp + interval.micros).bmod (2 ^ 64)

/-- Neither the conversion of a positive interval nor the sum overflows. -/
def addTimeFits (timestamp : Timestamp) (interval : Interval) : Prop :=
  0 ≤ interval.micros ∧ -2 ^ 63 ≤ timestamp + interval.micros ∧
    timestamp + interval.micros < 2 ^ 63

instance (timestamp : Timestamp) (interval : Interval) :
    Decidable (addTimeFits timestamp interval) :=
  inferInstanceAs (Decidable (_ ∧ _))

theorem bmod_eq_of_fits {n : Int} (hlo : -2 ^ 63 ≤ n) (hhi : n < 2 ^ 63) :
    n.bmod (2 ^ 64) = n :=
  Int.bmod_eq_of_le_mul_two (by omega) (by omega)

theorem addTime_eq {timestamp : Timestamp} {interval : Interval}
    (h : addTimeFits timestamp interval) :
    addTime timestamp interval = timestamp + interval.micros :=
  bmod_eq_of_fits h.2.1 h.2.2

/-! ### `howMuchTimeFromNow` -/

structure Timespec where
  tvSec : Int
  tvNsec : Int
deriving DecidableEq, Repr

/-- The time from `now` to `when`, at least 100 microseconds.  The subtraction is
    that of `int64_t`. -/
def howMuchTimeFromNow (when now : Timestamp) : Timespec :=
  let difference := (when - now).bmod (2 ^ 64)
  let microseconds := if difference < 100 then 100 else difference
  { tvSec := microseconds.tdiv Timestamp.kMicroSecondsPerSecond
    tvNsec := microseconds.tmod Timestamp.kMicroSecondsPerSecond * 1000 }

/-! ### Timers -/

/-- The address of a `Timer`. -/
abbrev Addr := Nat

structure Timer where
  expiration : Timestamp
  interval : Interval
  sequence : Nat
deriving DecidableEq

namespace Timer

/-- `repeat_`. -/
def repeats (t : Timer) : Bool := t.interval.positive

def restart (t : Timer) (now : Timestamp) : Timer :=
  if t.repeats then { t with expiration := addTime now t.interval }
  else { t with expiration := Timestamp.invalid }

@[simp] theorem restart_sequence (t : Timer) (now : Timestamp) :
    (t.restart now).sequence = t.sequence := by
  unfold restart
  split <;> rfl

@[simp] theorem restart_interval (t : Timer) (now : Timestamp) :
    (t.restart now).interval = t.interval := by
  unfold restart
  split <;> rfl

theorem restart_expiration {t : Timer} {now : Timestamp} (h : t.repeats = true)
    (hfit : addTimeFits now t.interval) :
    (t.restart now).expiration = now + t.interval.micros := by
  rw [restart, if_pos h]
  exact addTime_eq hfit

end Timer

/-- `TimerId`, and `ActiveTimer`: the pair the activeTimers_ and cancelingTimers_
    sets hold. -/
structure TimerId where
  timer : Addr
  sequence : Nat
deriving DecidableEq, Repr

/-- `Entry`: the pair the `timers_` set holds. -/
structure Entry where
  when : Timestamp
  timer : Addr
deriving DecidableEq, Repr

namespace TimerId

def key (i : TimerId) : Addr ×ₗ Nat := toLex (i.timer, i.sequence)

theorem key_injective : Function.Injective key := by
  intro i j h
  have hpair : (i.timer, i.sequence) = (j.timer, j.sequence) := toLex.injective h
  cases i
  cases j
  simpa using hpair

instance : LinearOrder TimerId := LinearOrder.lift' key key_injective

end TimerId

namespace Entry

def key (e : Entry) : Timestamp ×ₗ Addr := toLex (e.when, e.timer)

theorem key_injective : Function.Injective key := by
  intro e f h
  have hpair : (e.when, e.timer) = (f.when, f.timer) := toLex.injective h
  cases e
  cases f
  simpa using hpair

instance : LinearOrder Entry := LinearOrder.lift' key key_injective

theorem lt_iff {e f : Entry} : e < f ↔ e.when < f.when ∨ e.when = f.when ∧ e.timer < f.timer :=
  Prod.Lex.toLex_lt_toLex

theorem when_le_of_le {e f : Entry} (h : e ≤ f) : e.when ≤ f.when :=
  Prod.Lex.monotone_fst (α := Timestamp) (β := Addr) e.key f.key h

end Entry

end Kaycc
