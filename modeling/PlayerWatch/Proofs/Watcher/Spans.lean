import Mathlib.Algebra.Group.Nat.Defs
import PlayerWatch.Pace

/-!
# Lengths of time as the machine holds them

A wait is a number of milliseconds here and a `Span` on the machine: whole seconds in a word of 64
bits, and nanoseconds below one second. Twice a span may be out of range, and a program that doubles it
without asking fails then. A span of milliseconds in a word is far from that: the machine's next wait
is always there, and it is the one of the backoff (`next?_ofMillis`).
-/

namespace PlayerWatch

/-- A length of time. -/
structure Span where
  seconds : UInt64
  nanos : UInt32
  nanos_lt : nanos.toNat < 1000000000

namespace Span

/-- The whole length in nanoseconds. -/
def total (s : Span) : Nat := s.seconds.toNat * 1000000000 + s.nanos.toNat

theorem eq_of_total {s t : Span} (h : s.total = t.total) : s = t := by
  obtain ⟨seconds, nanos, hs⟩ := s
  obtain ⟨seconds', nanos', ht⟩ := t
  simp only [total] at h
  obtain rfl : seconds = seconds' := UInt64.toNat_inj.1 (by omega)
  obtain rfl : nanos = nanos' := UInt32.toNat_inj.1 (by omega)
  rfl

/-! ### Milliseconds -/

/-- The milliseconds of a fraction of a second, in nanoseconds. -/
def fraction (ms : UInt64) : UInt32 := (ms % 1000).toUInt32 * 1000000

theorem toNat_fraction (ms : UInt64) : (fraction ms).toNat = ms.toNat % 1000 * 1000000 := by
  have hrest : (ms % 1000).toNat = ms.toNat % 1000 := UInt64.toNat_mod ms 1000
  have hlt : ms.toNat % 1000 < 1000 := Nat.mod_lt _ (by decide)
  have hword : (ms % 1000).toUInt32.toNat = ms.toNat % 1000 := by
    rw [UInt64.toNat_toUInt32, hrest, Nat.mod_eq_of_lt (by omega)]
  have hmillion : (1000000 : UInt32).toNat = 1000000 := rfl
  rw [fraction, UInt32.toNat_mul, hword, hmillion, Nat.mod_eq_of_lt (by omega)]

def ofMillis (ms : UInt64) : Span where
  seconds := ms / 1000
  nanos := fraction ms
  nanos_lt := by
    rw [toNat_fraction]
    omega

theorem total_ofMillis (ms : UInt64) : (ofMillis ms).total = ms.toNat * 1000000 := by
  have hseconds : (ofMillis ms).seconds.toNat = ms.toNat / 1000 := UInt64.toNat_div ms 1000
  have hnanos : (ofMillis ms).nanos.toNat = _ := toNat_fraction ms
  rw [total, hseconds, hnanos]
  omega

/-! ### Multiples -/

/-- The product of two words; nothing if it is out of range. -/
def mul? (a b : UInt64) : Option UInt64 :=
  if a.toNat * b.toNat < 2 ^ 64 then some (a * b) else none

/-- The sum of two words; nothing if it is out of range. -/
def add? (a b : UInt64) : Option UInt64 :=
  if a.toNat + b.toNat < 2 ^ 64 then some (a + b) else none

/-- So many times a span; nothing if it is out of range. The nanoseconds carry over into the
seconds. -/
def times? (s : Span) (k : UInt32) : Option Span :=
  let nanos := s.nanos.toUInt64 * k.toUInt64
  (mul? s.seconds k.toUInt64).bind fun seconds =>
    (add? seconds (nanos / 1000000000)).map fun seconds =>
      { seconds
        nanos := (nanos % 1000000000).toUInt32
        nanos_lt := by
          rw [UInt64.toNat_toUInt32, UInt64.toNat_mod]
          show nanos.toNat % 1000000000 % 2 ^ 32 < 1000000000
          omega }

/-- The nanoseconds of a multiple stay in a word: they are below 10⁹ · 2³². -/
theorem toNat_nanos_mul (s : Span) (k : UInt32) :
    (s.nanos.toUInt64 * k.toUInt64).toNat = s.nanos.toNat * k.toNat := by
  have hlt : s.nanos.toNat * k.toNat < 1000000000 * 2 ^ 32 :=
    Nat.mul_lt_mul_of_lt_of_le s.nanos_lt (Nat.le_of_lt k.toNat_lt) (by decide)
  rw [UInt64.toNat_mul, UInt32.toNat_toUInt64, UInt32.toNat_toUInt64]
  exact Nat.mod_eq_of_lt (by omega)

/-- **A multiple is there just when its length is below 2⁶⁴ seconds**, and then it has that length. -/
theorem times?_spec (s : Span) (k : UInt32) :
    if s.total * k.toNat < 2 ^ 64 * 1000000000 then
      ∃ r, s.times? k = some r ∧ r.total = s.total * k.toNat
    else s.times? k = none := by
  have hfactor : k.toUInt64.toNat = k.toNat := UInt32.toNat_toUInt64 k
  have hnanos := toNat_nanos_mul s k
  have hcarry : (s.nanos.toUInt64 * k.toUInt64 / 1000000000).toNat =
      s.nanos.toNat * k.toNat / 1000000000 := by
    rw [UInt64.toNat_div, hnanos]
    rfl
  have htotal : s.total * k.toNat =
      s.seconds.toNat * k.toNat * 1000000000 + s.nanos.toNat * k.toNat := by
    rw [total, Nat.add_mul, Nat.mul_right_comm]
  rw [htotal]
  unfold times?
  by_cases hproduct : s.seconds.toNat * k.toNat < 2 ^ 64
  · have hseconds : (s.seconds * k.toUInt64).toNat = s.seconds.toNat * k.toNat := by
      rw [UInt64.toNat_mul, hfactor, Nat.mod_eq_of_lt hproduct]
    have hmul : mul? s.seconds k.toUInt64 = some (s.seconds * k.toUInt64) := by
      rw [mul?, hfactor, if_pos hproduct]
    rw [hmul, Option.bind_some, add?, hseconds, hcarry]
    split
    · next hlt =>
      rw [if_pos (by omega)]
      refine ⟨_, rfl, ?_⟩
      have hrest : (s.nanos.toUInt64 * k.toUInt64 % 1000000000).toUInt32.toNat =
          s.nanos.toNat * k.toNat % 1000000000 := by
        have hbillion : (1000000000 : UInt64).toNat = 1000000000 := rfl
        rw [UInt64.toNat_toUInt32, UInt64.toNat_mod, hnanos, hbillion]
        exact Nat.mod_eq_of_lt (by omega)
      rw [total, hrest, UInt64.toNat_add, hseconds, hcarry, Nat.mod_eq_of_lt (by omega)]
      omega
    · next hge =>
      rw [if_neg (by omega)]
      rfl
  · have hmul : mul? s.seconds k.toUInt64 = none := by rw [mul?, hfactor, if_neg hproduct]
    rw [if_neg (by omega), hmul]
    rfl

/-! ### The next wait -/

/-- Whether a span is no longer than another one: the seconds count first. -/
def atMost (s t : Span) : Bool :=
  s.seconds < t.seconds || (s.seconds == t.seconds && s.nanos ≤ t.nanos)

theorem atMost_iff (s t : Span) : s.atMost t = true ↔ s.total ≤ t.total := by
  have hs := s.nanos_lt
  have ht := t.nanos_lt
  simp only [atMost, total, Bool.or_eq_true, Bool.and_eq_true, decide_eq_true_eq, beq_iff_eq,
    UInt64.lt_iff_toNat_lt, UInt32.le_iff_toNat_le, ← UInt64.toNat_inj]
  omega

def shorter (s t : Span) : Span := if s.atMost t then s else t

theorem total_shorter (s t : Span) : (s.shorter t).total = min s.total t.total := by
  unfold shorter
  split
  · next h => exact (Nat.min_eq_left ((atMost_iff s t).1 h)).symm
  · next h => exact (Nat.min_eq_right (Nat.le_of_not_le fun hle => h ((atMost_iff s t).2 hle))).symm

/-- The wait after another one, as the machine computes it; nothing if the double is out of range. -/
def next? (longest delay : Span) : Option Span := (delay.times? 2).map fun twice => twice.shorter longest

/-- **The next wait is always there, and it is the one of the backoff.** -/
theorem next?_ofMillis (b : Backoff) {longest : UInt64} (hmax : b.max = longest.toNat) (ms : UInt64) :
    ∃ next : UInt64, next.toNat = b.next ms.toNat ∧
      next? (ofMillis longest) (ofMillis ms) = some (ofMillis next) := by
  have hms : ms.toNat < 2 ^ 64 := ms.toNat_lt
  have hlongest : longest.toNat < 2 ^ 64 := longest.toNat_lt
  have hfactor : (2 : UInt32).toNat = 2 := rfl
  have htwice := times?_spec (ofMillis ms) 2
  rw [total_ofMillis, hfactor, if_pos (by omega)] at htwice
  obtain ⟨twice, htwice, htotal⟩ := htwice
  have hword : b.next ms.toNat < 2 ^ 64 := by
    rw [Backoff.next, hmax]
    omega
  have hnext : (UInt64.ofNat (b.next ms.toNat)).toNat = b.next ms.toNat :=
    UInt64.toNat_ofNat_of_lt' hword
  refine ⟨.ofNat (b.next ms.toNat), hnext, ?_⟩
  rw [next?, htwice, Option.map_some]
  congr 1
  apply eq_of_total
  rw [total_shorter, htotal, total_ofMillis, total_ofMillis, hnext, Backoff.next, hmax]
  omega

end Span

end PlayerWatch
