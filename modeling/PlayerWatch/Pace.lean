import PlayerWatch.Settings.Basic

/-!
# The pace of watching

How often a player is asked, and how long to wait before it is dialled again: each wait is twice the
one before until the longest is reached. All times are in milliseconds.
-/

namespace PlayerWatch

open Number

/-- The first and the longest wait after a failure. -/
structure Backoff where
  initial : Nat
  max : Nat
  deriving DecidableEq, Repr

namespace Backoff

/-- The same wait after every failure. -/
def fixed (delay : Nat) : Backoff := ⟨delay, delay⟩

/-- The wait after another one. -/
def next (b : Backoff) (delay : Nat) : Nat := min (2 * delay) b.max

/-- The wait after so many others. -/
def delay (b : Backoff) : Nat → Nat
  | 0 => b.initial
  | k + 1 => b.next (b.delay k)

theorem delay_eq_min {b : Backoff} (h : b.initial ≤ b.max) (k : Nat) :
    b.delay k = min (b.initial * twoTo k) b.max := by
  induction k with
  | zero => simp [delay, twoTo, h]
  | succ k ih =>
    rw [delay, next, ih, twoTo_succ, Nat.mul_left_comm]
    omega

end Backoff

/-- How a player is watched. -/
structure Pace where
  /-- The time between two questions. -/
  interval : Nat := 1000
  backoff : Backoff := .fixed 1000
  /-- The longest wait for the other end, if there is a bound. -/
  limit : Option Nat := none
  deriving DecidableEq, Repr

def Settings.pace (s : Settings) : Pace where
  interval := s.watch.pollInterval.toNat
  backoff := ⟨s.watch.retryDelay.toNat, s.watch.maxRetryDelay.toNat⟩
  limit := s.limit

end PlayerWatch
