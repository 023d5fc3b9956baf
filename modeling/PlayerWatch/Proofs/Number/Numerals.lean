import PlayerWatch.Json.Writer
import PlayerWatch.Proofs.Number.Shortest

/-!
# Digits set as numerals

However digits are set, the numeral consists of them and of zeros in front of them and behind them
(`Numeral.Sets`), so that it denotes the same number (`Numeral.Sets.value_eq`). So the numeral of a double
denotes a number that is rounded to that double (`numeral_standsFor`).
-/

namespace PlayerWatch.Number

open Text Json

/-- The digits of a numeral as one whole number, without regard to the point. -/
def Numeral.significand (n : Numeral) : Nat := ofDigits 10 (n.whole ++ n.fraction)

/-- The power of ten that belongs to the significand. -/
def Numeral.scale (n : Numeral) : Int := n.exponent.getD 0 - n.fraction.length

/-- The number that a numeral denotes, without its sign. -/
def Numeral.value (n : Numeral) : ℚ := n.significand * 10 ^ n.scale

/-- A numeral has digits, with so many zeros in front of them and behind them. -/
structure Numeral.Sets (n : Numeral) (d : Digits) (front behind : Nat) : Prop where
  digits : n.whole ++ n.fraction = List.replicate front 0 ++ (d.digits ++ List.replicate behind 0)
  scale : n.scale = d.point - d.digits.length - behind

variable {n : Numeral} {d : Digits} {front behind : Nat} {negative : Bool} {l : Layout}

theorem Numeral.Sets.significand_eq (h : n.Sets d front behind) :
    n.significand = ofDigits 10 d.digits * 10 ^ behind := by
  rw [significand, h.digits, ofDigits_append, ofDigits_append, ofDigits_zeros, ofDigits_zeros,
    List.length_replicate, Nat.zero_mul, Nat.zero_add, Nat.add_zero]

/-- **A numeral denotes what its digits denote.** -/
theorem Numeral.Sets.value_eq (h : n.Sets d front behind) : n.value = d.value := by
  have hten : (10 : ℚ) ^ behind ≠ 0 := by positivity
  rw [value, h.significand_eq, h.scale, Digits.value, zpow_sub₀ (by norm_num) _ (behind : Int),
    zpow_natCast]
  push_cast
  field_simp

theorem Numeral.Sets.significand_lt (h : n.Sets d front behind) (hd : d.Significant)
    (hbehind : d.digits.length + behind ≤ 17) : n.significand < 10 ^ 17 := by
  have hlt := ofDigits_lt hd.small
  calc n.significand = ofDigits 10 d.digits * 10 ^ behind := h.significand_eq
    _ < 10 ^ d.digits.length * 10 ^ behind := Nat.mul_lt_mul_of_pos_right hlt (by positivity)
    _ = 10 ^ (d.digits.length + behind) := (pow_add ..).symm
    _ ≤ 10 ^ 17 := Nat.pow_le_pow_right (by decide) hbehind

/-- A numeral in the form that numbers have, with a point or an exponent. -/
structure Numeral.WrittenReal (n : Numeral) : Prop extends WellWritten n where
  marked : n.fraction ≠ [] ∨ n.exponent.isSome

/-! ### The forms -/

variable (negative l)

theorem sets_exponential (hd : d.Significant) : (Layout.exponential negative d).Sets d 0 0 := by
  obtain ⟨a, rest, hcons, -⟩ := hd.lead
  refine ⟨?_, ?_⟩ <;> rw [Layout.exponential, hcons]
  · simp
  · simp only [Numeral.scale, Option.getD_some, List.drop_one, List.tail_cons, List.length_cons]
    omega

theorem written_exponential (hd : d.Significant) : (Layout.exponential negative d).WrittenReal := by
  obtain ⟨a, rest, hcons, ha⟩ := hd.lead
  have hsmall := hd.small
  rw [hcons] at hsmall
  rw [Layout.exponential, hcons]
  constructor
  · constructor
    case begun => exact List.cons_ne_nil a []
    case whole => exact fun b hb => hsmall b (List.mem_of_mem_take hb)
    case fraction => exact fun b hb => hsmall b (List.mem_of_mem_drop hb)
    case lead =>
      intro more h
      exact absurd (List.cons.inj h).1 ha
  · exact .inr rfl

/-- All digits are behind the point. -/
theorem sets_positional_of_nonpos (hpoint : d.point ≤ 0) :
    (l.positional negative d).Sets d (1 + (-d.point).toNat) 0 := by
  rw [Layout.positional, if_pos hpoint]
  constructor
  · rw [List.replicate_add]
    simp
  · simp only [Numeral.scale, Option.getD_none, List.length_append, List.length_replicate]
    omega

theorem written_positional_of_nonpos (hd : d.Significant) (hpoint : d.point ≤ 0) :
    (l.positional negative d).WrittenReal := by
  obtain ⟨a, rest, hcons, -⟩ := hd.lead
  rw [Layout.positional, if_pos hpoint]
  constructor
  · constructor
    case begun => exact List.cons_ne_nil 0 []
    case whole =>
      intro b hb
      rw [List.mem_singleton.1 hb]
      decide
    case fraction =>
      intro b hb
      rcases List.mem_append.1 hb with hb | hb
      · rw [List.eq_of_mem_replicate hb]
        decide
      · exact hd.small b hb
    case lead => exact fun more h => (List.cons.inj h).2.symm
  · left
    simp [hcons]

theorem fraction_eq (ds : List Nat) : l.fraction ds =
    ds ++ List.replicate (if ds.isEmpty && l.keepsPoint then 1 else 0) 0 := by
  rw [Layout.fraction]
  split
  · next h =>
    rw [Bool.and_eq_true, List.isEmpty_iff] at h
    rw [h.1]
    rfl
  · exact (List.append_nil ds).symm

/-- The point is among the digits, or behind them and some zeros. -/
theorem sets_positional_of_pos (hpoint : 0 < d.point) :
    ∃ behind, (l.positional negative d).Sets d 0 behind ∧
      (behind = 0 ∨ d.digits.length + behind ≤ d.point.toNat + 1) := by
  rw [Layout.positional, if_neg (by omega)]
  dsimp only
  rw [fraction_eq]
  rcases Nat.lt_or_ge d.point.toNat d.digits.length with hlt | hge
  · have hsome : (d.digits.drop d.point.toNat).isEmpty = false := by
      simpa using hlt
    refine ⟨0, ⟨?_, ?_⟩, .inl rfl⟩ <;> rw [hsome]
    · simp [Nat.sub_eq_zero_of_le hlt.le]
    · simp only [Numeral.scale, Option.getD_none, List.length_append, List.length_drop,
        List.length_replicate, Bool.false_and, Bool.false_eq_true, if_false]
      omega
  · have hnone : d.digits.drop d.point.toNat = [] := List.drop_eq_nil_of_le hge
    rw [hnone, List.take_of_length_le hge]
    generalize hkept : (if ([] : List Nat).isEmpty && l.keepsPoint then 1 else 0) = kept
    have hone : kept ≤ 1 := by
      rw [← hkept]
      split <;> decide
    refine ⟨d.point.toNat - d.digits.length + kept, ⟨?_, ?_⟩, .inr (by omega)⟩
    · rw [List.replicate_add]
      simp
    · simp only [Numeral.scale, Option.getD_none, List.nil_append, List.length_replicate]
      omega

theorem written_positional_of_pos (hd : d.Significant) (hpoint : 0 < d.point)
    (hkeeps : l.keepsPoint = true) : (l.positional negative d).WrittenReal := by
  obtain ⟨a, rest, hcons, ha⟩ := hd.lead
  obtain ⟨k, hk⟩ : ∃ k, d.point.toNat = k + 1 := ⟨d.point.toNat - 1, by omega⟩
  have hzero {k b : Nat} (hb : b ∈ List.replicate k 0) : b < 10 := by
    rw [List.eq_of_mem_replicate hb]
    decide
  rw [Layout.positional, if_neg (by omega)]
  dsimp only
  rw [fraction_eq]
  constructor
  · constructor
    case begun =>
      rw [hcons, hk]
      simp
    case whole =>
      intro b hb
      rcases List.mem_append.1 hb with hb | hb
      · exact hd.small b (List.mem_of_mem_take hb)
      · exact hzero hb
    case fraction =>
      intro b hb
      rcases List.mem_append.1 hb with hb | hb
      · exact hd.small b (List.mem_of_mem_drop hb)
      · exact hzero hb
    case lead =>
      intro more h
      rw [hcons, hk, List.take_succ_cons, List.cons_append] at h
      exact absurd (List.cons.inj h).1 ha
  · left
    rw [hkeeps]
    cases hdrop : d.digits.drop d.point.toNat <;> simp

/-! ### Numbers in JSON -/

/-- A numeral for a double that is not zero: it has few digits, and they denote a number that is rounded to
the double. -/
structure Numeral.StandsFor (n : Numeral) (x : Float) : Prop where
  written : n.WrittenReal
  negative : n.negative = signBit x
  few : n.significand < 10 ^ 17
  holds : (magnitude x).Holds n.value
  exponent : n.exponent = none ∨ n.fraction.length < 17

/-- **A double is written as a numeral that stands for it.** -/
theorem numeral_standsFor {x : Float} (hx : isFinite x = true) (hpos : 0 < (magnitude x).significand) :
    (layout.numeral x).StandsFor x := by
  obtain ⟨hd, hholds⟩ := shortest_spec hx hpos
  have hfew := hd.few
  have hsome : (shortest x).digits.isEmpty = false := by
    obtain ⟨a, rest, hcons, -⟩ := hd.lead
    rw [hcons]
    rfl
  rw [Layout.numeral]
  simp only [hsome, Bool.false_eq_true, if_false]
  split
  · next hpositional =>
    have hbounds : -4 ≤ (shortest x).point ∧ (shortest x).point ≤ 16 := by
      simpa [Layout.isPositional, layout] using hpositional
    rcases lt_or_ge 0 (shortest x).point with hpoint | hpoint
    · obtain ⟨behind, hsets, hbehind⟩ := sets_positional_of_pos (signBit x) layout hpoint
      constructor
      case written => exact written_positional_of_pos _ _ hd hpoint rfl
      case few => exact hsets.significand_lt hd (by omega)
      case holds => rwa [hsets.value_eq]
      all_goals rw [Layout.positional, if_neg (by omega)]
      exact .inl rfl
    · have hsets := sets_positional_of_nonpos (signBit x) layout hpoint
      constructor
      case written => exact written_positional_of_nonpos _ _ hd hpoint
      case few => exact hsets.significand_lt hd hfew
      case holds => rwa [hsets.value_eq]
      all_goals rw [Layout.positional, if_pos hpoint]
      exact .inl rfl
  · have hsets := sets_exponential (signBit x) hd
    constructor
    case written => exact written_exponential _ hd
    case negative => rfl
    case few => exact hsets.significand_lt hd hfew
    case holds => rwa [hsets.value_eq]
    case exponent =>
      right
      rw [Layout.exponential, List.length_drop]
      omega

theorem numeral_zero {x : Float} (h : (magnitude x).significand = 0) :
    layout.numeral x = { negative := signBit x, whole := [0], fraction := [0] } := by
  have hnone : shortest x = ⟨[], 0⟩ := if_pos h
  rw [Layout.numeral, hnone]
  rfl

theorem written_numeral {x : Float} (hx : isFinite x = true) :
    (layout.numeral x).WrittenReal ∧ (layout.numeral x).negative = signBit x := by
  rcases Nat.eq_zero_or_pos (magnitude x).significand with hzero | hpos
  · rw [numeral_zero hzero]
    refine ⟨⟨⟨?_, ?_, ?_, ?_⟩, .inl ?_⟩, rfl⟩ <;> simp
  · exact ⟨(numeral_standsFor hx hpos).written, (numeral_standsFor hx hpos).negative⟩

end PlayerWatch.Number
