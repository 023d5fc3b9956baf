import PlayerWatch.Proofs.Number.Digits
import PlayerWatch.Proofs.Number.Rounding

/-!
# The shortest digits

The numbers that are rounded to a double are those of an interval around it (`Nearest.eq_of_holds`). The
digits that are chosen for a double denote a number of that interval (`shortest_spec`): they are looked for on
grids of more and more digits, and on the grid of seventeen digits one of the two neighbours of a double is
always near enough (`Dyadic.holds_neighbour`).
-/

namespace PlayerWatch.Number

open Text Json

/-! ### The interval of a double -/

/-- How far the interval of a magnitude goes down, in units of its last place. Below a power of two doubles
are twice as close. -/
def Dyadic.below (d : Dyadic) : ℚ :=
  if d.significand = 2 ^ 52 ∧ -1074 < d.power then 1 / 4 else 1 / 2

/-- A number is in the interval of a magnitude; the ends belong to it if the significand is even. -/
structure Dyadic.Holds (d : Dyadic) (v : ℚ) : Prop where
  low : d.significand - d.below ≤ v / 2 ^ d.power
  high : v / 2 ^ d.power ≤ d.significand + 1 / 2
  inner : d.significand % 2 = 1 →
    d.significand - d.below < v / 2 ^ d.power ∧ v / 2 ^ d.power < d.significand + 1 / 2

variable {d d' : Dyadic} {v : ℚ}

theorem Dyadic.below_le (d : Dyadic) : 1 / 4 ≤ d.below ∧ d.below ≤ 1 / 2 := by
  rw [below]
  split <;> norm_num

theorem Dyadic.Holds.nearestEven (h : d.Holds v) : NearestEven (v / 2 ^ d.power) d.significand := by
  have hbelow := d.below_le
  obtain ⟨hlow, hhigh, hinner⟩ := h
  refine ⟨abs_le.2 ⟨by linarith, by linarith⟩, ?_⟩
  intro hhalf
  by_contra hodd
  obtain ⟨hlow, hhigh⟩ := hinner (by omega)
  have hlt : |v / 2 ^ d.power - d.significand| < 1 / 2 := abs_lt.2 ⟨by linarith, by linarith⟩
  exact hlt.ne hhalf

/-- The last place of a number in the interval of a double is not a greater one. -/
theorem LastPlace.le_of_holds {t : Int} (ht : LastPlace v t) (hd : d.Fits) (hv : d.Holds v) :
    t ≤ d.power := by
  by_contra hlarge
  have hleast := hd.least
  have hle := ht.le.resolve_left (by omega)
  have hpower : (2 : ℚ) ^ d.power * 2 ≤ 2 ^ t := two_places_le (by omega)
  have hsignificand : (d.significand : ℚ) + 1 ≤ 2 ^ 53 := by exact_mod_cast hd.significand
  have hhigh : v ≤ (d.significand + 1 / 2) * 2 ^ d.power := (div_le_iff₀ (place_pos _)).1 hv.high
  have hmul := mul_le_mul_of_nonneg_right hsignificand (place_pos d.power).le
  have hplace := place_pos d.power
  linarith

/-- It is a smaller one only just below a power of two, and then it is the next. -/
theorem LastPlace.next_of_holds {t : Int} (ht : LastPlace v t) (hd : d.Fits) (hv : d.Holds v)
    (hlt : t < d.power) : d.significand = 2 ^ 52 ∧ t = d.power - 1 := by
  have hpos := place_pos d.power
  have hleast := ht.least
  have hsmall := ht.lt
  have hbelow := d.below_le
  have hlow := hv.low
  have hge : 2 ^ 52 ≤ d.significand := hd.normal.resolve_right (by omega)
  have hge' : (2 : ℚ) ^ 52 ≤ d.significand := by exact_mod_cast hge
  constructor
  · have hpower := two_places_le hlt
    have hw : v / 2 ^ d.power < 2 ^ 52 := by
      rw [div_lt_iff₀ hpos]
      linarith
    have hcast : (d.significand : ℚ) < (2 ^ 52 + 1 : Nat) := by
      push_cast
      linarith
    have hlt : d.significand < 2 ^ 52 + 1 := by exact_mod_cast hcast
    omega
  · by_contra hne
    have hpower : (2 : ℚ) ^ (t + 1) * 2 ≤ 2 ^ d.power := two_places_le (by omega)
    rw [place_succ] at hpower
    have hw : v / 2 ^ d.power < 2 ^ 51 := by
      rw [div_lt_iff₀ hpos]
      linarith
    linarith

/-- **What is in the interval of a double is rounded to that double.** -/
theorem Dyadic.Nearest.eq_of_holds (h : d'.Nearest v) (hd : d.Fits) (hv : d.Holds v) : d' = d := by
  obtain ⟨t, n, ht, hn, rfl⟩ := h
  rcases Int.lt_or_eq_of_le (ht.le_of_holds hd hv) with hlt | rfl
  · obtain ⟨hsignificand, rfl⟩ := ht.next_of_holds hd hv hlt
    have hleast : -1074 < d.power := ht.least.trans_lt hlt
    have hbelow : d.below = 1 / 4 := if_pos ⟨hsignificand, hleast⟩
    have hdouble : v / 2 ^ (d.power - 1) = 2 * (v / 2 ^ d.power) := by
      rw [zpow_sub_one₀ (by norm_num)]
      field_simp
    have hlow := hv.low
    have hsmall : v / 2 ^ (d.power - 1) < 2 ^ 53 := (div_lt_iff₀ (place_pos _)).2 ht.lt
    rw [hsignificand, hbelow] at hlow
    have hcount : NearestEven (v / 2 ^ (d.power - 1)) (2 ^ 53) := by
      rw [hdouble] at hsmall ⊢
      refine ⟨?_, fun _ => by decide⟩
      rw [abs_le]
      push_cast at hlow ⊢
      constructor <;> linarith
    rw [hn.unique hcount, carry, if_neg (lt_irrefl _), sub_add_cancel, ← hsignificand]
  · rw [hn.unique hv.nearestEven, carry, if_pos hd.significand]

/-! ### Fractions -/

/-- The number that a fraction stands for. -/
def ratio (f : Nat × Nat) : ℚ := f.1 / f.2

theorem ratio_scaled {base : Nat} (hbase : 0 < base) (n : Nat) (p : Int) :
    ratio (if 0 ≤ p then (n * base ^ p.toNat, 1) else (n, base ^ (-p).toNat)) = n * (base : ℚ) ^ p := by
  have hne : (base : ℚ) ≠ 0 := by exact_mod_cast hbase.ne'
  rw [ratio]
  split
  · next hp =>
    obtain ⟨k, rfl⟩ := Int.eq_ofNat_of_zero_le hp
    simp
  · next hp =>
    obtain ⟨k, hk⟩ := Int.eq_ofNat_of_zero_le (show 0 ≤ -p by omega)
    obtain rfl : p = -k := by omega
    simp [div_eq_mul_inv]

theorem ratio_dyadicFraction (n : Nat) (p : Int) : ratio (dyadicFraction n p) = n * 2 ^ p :=
  @ratio_scaled 2 (by decide) n p

theorem ratio_decimalFraction (n : Nat) (p : Int) : ratio (decimalFraction n p) = n * 10 ^ p :=
  @ratio_scaled 10 (by decide) n p

theorem dyadicFraction_pos (n : Nat) (p : Int) : 0 < (dyadicFraction n p).2 := by
  rw [dyadicFraction]
  split
  · exact Nat.one_pos
  · exact Nat.pow_pos (by decide)

theorem decimalFraction_pos (n : Nat) (p : Int) : 0 < (decimalFraction n p).2 := by
  rw [decimalFraction]
  split
  · exact Nat.one_pos
  · exact Nat.pow_pos (by decide)

theorem fractionLe_iff {a b : Nat × Nat} (ha : 0 < a.2) (hb : 0 < b.2) :
    fractionLe a b = true ↔ ratio a ≤ ratio b := by
  have ha' : (0 : ℚ) < a.2 := by exact_mod_cast ha
  have hb' : (0 : ℚ) < b.2 := by exact_mod_cast hb
  rw [fractionLe, decide_eq_true_iff, ratio, ratio, div_le_div_iff₀ ha' hb']
  exact_mod_cast Iff.rfl

/-- What is looked at in quarters of the last place is the interval. -/
theorem Dyadic.rounds_iff {f : Nat × Nat} (hd : 0 < d.significand) (hf : 0 < f.2) :
    d.rounds f = true ↔ d.Holds (ratio f) := by
  have hpos := place_pos d.power
  have hquarter : (2 : ℚ) ^ (d.power - 2) = 2 ^ d.power / 4 := by
    rw [zpow_sub₀ (by norm_num)]
    norm_num
  have hlow : ratio (dyadicFraction (4 * d.significand -
      if d.significand = twoTo 52 ∧ -1074 < d.power then 1 else 2) (d.power - 2)) =
      (d.significand - d.below) * 2 ^ d.power := by
    have hpower : twoTo 52 = 2 ^ 52 := rfl
    rw [ratio_dyadicFraction, hquarter, below, hpower]
    split <;> rw [Nat.cast_sub (by omega)] <;> push_cast <;> ring
  have hhigh : ratio (dyadicFraction (4 * d.significand + 2) (d.power - 2)) =
      (d.significand + 1 / 2) * 2 ^ d.power := by
    rw [ratio_dyadicFraction, hquarter]
    push_cast
    ring
  rw [rounds]
  have hlow' := dyadicFraction_pos (4 * d.significand -
    if d.significand = twoTo 52 ∧ -1074 < d.power then 1 else 2) (d.power - 2)
  have hhigh' := dyadicFraction_pos (4 * d.significand + 2) (d.power - 2)
  generalize dyadicFraction (4 * d.significand - _) _ = low at hlow hlow' ⊢
  generalize dyadicFraction (4 * d.significand + 2) _ = high at hhigh hhigh' ⊢
  split
  · next heven =>
    rw [Bool.and_eq_true, fractionLe_iff hlow' hf, fractionLe_iff hf hhigh', hlow, hhigh,
      ← le_div_iff₀ hpos, ← div_le_iff₀ hpos]
    exact ⟨fun ⟨hlow, hhigh⟩ => ⟨hlow, hhigh, fun hodd => by omega⟩, fun h => ⟨h.low, h.high⟩⟩
  · next hodd =>
    rw [Bool.and_eq_true, Bool.not_eq_true', Bool.not_eq_true', ← Bool.not_eq_true,
      ← Bool.not_eq_true, fractionLe_iff hf hlow', fractionLe_iff hhigh' hf, hlow, hhigh, not_le,
      not_le, ← lt_div_iff₀ hpos, ← div_lt_iff₀ hpos]
    exact ⟨fun ⟨hlow, hhigh⟩ => ⟨hlow.le, hhigh.le, fun _ => ⟨hlow, hhigh⟩⟩,
      fun h => h.inner (by omega)⟩

/-! ### Grids -/

/-- The multiple of `10 ^ k` at or below a magnitude. -/
theorem Dyadic.floor_spec (d : Dyadic) (k : Int) :
    let v := dyadicFraction d.significand d.power
    let unit := decimalFraction 1 k
    ((v.1 * unit.2 / (v.2 * unit.1) : Nat) : ℚ) ≤ d.value / 10 ^ k ∧
      d.value / 10 ^ k < (v.1 * unit.2 / (v.2 * unit.1) : Nat) + 1 := by
  intro v unit
  have hv : ratio v = d.value := ratio_dyadicFraction _ _
  have hv' : (v.2 : ℚ) ≠ 0 := by exact_mod_cast (dyadicFraction_pos d.significand d.power).ne'
  have hunit : ratio unit = 10 ^ k := by
    rw [ratio_decimalFraction, Nat.cast_one, one_mul]
  have hunit' : (unit.2 : ℚ) ≠ 0 := by exact_mod_cast (decimalFraction_pos 1 k).ne'
  have hten : (10 : ℚ) ^ k ≠ 0 := zpow_ne_zero k (by norm_num)
  have hunit'' : (unit.1 : ℚ) ≠ 0 := by
    intro hzero
    rw [ratio, hzero, zero_div] at hunit
    exact hten hunit.symm
  have hquotient : ((v.1 * unit.2 : Nat) : ℚ) / (v.2 * unit.1 : Nat) = d.value / 10 ^ k := by
    rw [← hv, ← hunit, ratio, ratio]
    push_cast
    field_simp
  rw [← hquotient, ← Nat.floor_div_eq_div (K := ℚ)]
  have hnonneg : (0 : ℚ) ≤ ((v.1 * unit.2 : Nat) : ℚ) / (v.2 * unit.1 : Nat) := by positivity
  exact ⟨Nat.floor_le hnonneg, Nat.lt_floor_add_one _⟩

/-- What is found on a grid is in the interval. -/
theorem Dyadic.onGrid?_spec {k : Int} {n : Nat} (hd : 0 < d.significand) (h : d.onGrid? k = some n) :
    0 < n ∧ d.Holds (n * 10 ^ k) ∧ (n : ℚ) ≤ d.value / 10 ^ k + 1 := by
  have hfloor := (d.floor_spec k).1
  have hrounds (m : Nat) (hm : d.rounds (decimalFraction m k) = true) : d.Holds (m * 10 ^ k) := by
    rwa [rounds_iff hd (decimalFraction_pos m k), ratio_decimalFraction] at hm
  rw [onGrid?] at h
  dsimp only at h hfloor
  generalize (dyadicFraction d.significand d.power).1 * (decimalFraction 1 k).2 /
    ((dyadicFraction d.significand d.power).2 * (decimalFraction 1 k).1) = lower at h hfloor
  have hfound : n = lower ∧ (decide (lower ≠ 0) && d.rounds (decimalFraction lower k)) = true ∨
      n = lower + 1 ∧ d.rounds (decimalFraction (lower + 1) k) = true := by
    cases hdown : decide (lower ≠ 0) && d.rounds (decimalFraction lower k) <;>
      cases hup : d.rounds (decimalFraction (lower + 1) k) <;> rw [hdown, hup] at h <;>
      simp only at h
    case false.false => cases h
    case false.true => exact .inr ⟨(Option.some.inj h).symm, rfl⟩
    case true.false => exact .inl ⟨(Option.some.inj h).symm, rfl⟩
    case true.true =>
      split at h
      · exact .inl ⟨(Option.some.inj h).symm, rfl⟩
      · exact .inr ⟨(Option.some.inj h).symm, rfl⟩
  rcases hfound with ⟨rfl, hdown⟩ | ⟨rfl, hup⟩
  · rw [Bool.and_eq_true, decide_eq_true_iff] at hdown
    exact ⟨Nat.pos_of_ne_zero hdown.1, hrounds n hdown.2, by linarith⟩
  · refine ⟨Nat.succ_pos _, hrounds _ hup, ?_⟩
    push_cast
    linarith

/-- On a grid finer than the last place, one of the two neighbours of a double is in its interval. -/
theorem Dyadic.holds_neighbour {step : ℚ} {n : Nat} (hd : d.Fits) (hfine : step * 10 ^ 16 ≤ d.value)
    (hlow : n * step ≤ d.value) (hhigh : d.value < (n + 1 : Nat) * step) :
    d.Holds (n * step) ∨ d.Holds ((n + 1 : Nat) * step) := by
  have hplace := place_pos d.power
  have hvalue : d.value / 2 ^ d.power = d.significand := mul_div_cancel_right₀ _ hplace.ne'
  -- All numbers in units of the last place.
  have hstep : step / 2 ^ d.power * 10 ^ 16 ≤ d.significand := by
    rw [div_mul_eq_mul_div, div_le_iff₀ hplace]
    exact hfine
  have hdown : n * step / 2 ^ d.power ≤ d.significand := by
    rw [← hvalue]
    exact div_le_div_of_nonneg_right hlow hplace.le
  have hup : (d.significand : ℚ) < (n + 1 : Nat) * step / 2 ^ d.power := by
    rw [← hvalue]
    exact div_lt_div_of_pos_right hhigh hplace
  have hnext : (n + 1 : Nat) * step / 2 ^ d.power = n * step / 2 ^ d.power + step / 2 ^ d.power := by
    push_cast
    ring
  have hsignificand : (d.significand : ℚ) < 2 ^ 53 := by exact_mod_cast hd.significand
  by_cases hnear : (n + 1 : Nat) * step / 2 ^ d.power < d.significand + 1 / 2
  · have hbelow := d.below_le
    exact .inr ⟨by linarith, hnear.le, fun _ => ⟨by linarith, hnear⟩⟩
  · left
    rw [hnext] at hnear
    -- Just above a power of two the last place is too large for both to be outside.
    have hbelow : d.below = 1 / 2 := by
      rw [Dyadic.below, if_neg]
      rintro ⟨htwo, -⟩
      rw [htwo] at hstep hdown hnear
      push_cast at hstep hdown hnear
      linarith
    exact ⟨by linarith, by linarith, fun _ => ⟨by linarith, by linarith⟩⟩

theorem Dyadic.onGrid?_isSome {k : Int} (hd : d.Fits) (hpos : 0 < d.significand)
    (hfine : (10 : ℚ) ^ k * 10 ^ 16 ≤ d.value) : (d.onGrid? k).isSome = true := by
  obtain ⟨hlow, hhigh⟩ := d.floor_spec k
  have hrounds (m : Nat) (hm : d.Holds (m * 10 ^ k)) : d.rounds (decimalFraction m k) = true := by
    rwa [rounds_iff hpos (decimalFraction_pos m k), ratio_decimalFraction]
  have hten : (0 : ℚ) < 10 ^ k := zpow_pos (by norm_num) k
  rw [onGrid?]
  dsimp only at hlow hhigh ⊢
  generalize (dyadicFraction d.significand d.power).1 * (decimalFraction 1 k).2 /
    ((dyadicFraction d.significand d.power).2 * (decimalFraction 1 k).1) = n at hlow hhigh ⊢
  rw [le_div_iff₀ hten] at hlow
  rw [div_lt_iff₀ hten, ← Nat.cast_succ] at hhigh
  have hsome : n ≠ 0 := by
    rintro rfl
    push_cast at hhigh
    linarith
  have hrounded : (decide (n ≠ 0) && d.rounds (decimalFraction n k)) = true ∨
      d.rounds (decimalFraction (n + 1) k) = true := by
    rw [decide_eq_true hsome, Bool.true_and]
    exact (d.holds_neighbour hd hfine hlow hhigh).imp (hrounds n) (hrounds (n + 1))
  split
  · split <;> rfl
  · rfl
  · rfl
  · next hdown hup =>
    rw [hdown, hup] at hrounded
    simp at hrounded

/-! ### Digits -/

/-- The place of the first digit, as powers of ten. -/
theorem leadingPlace_spec {f : Nat × Nat} (h : 1 ≤ ratio f * 10 ^ 330) :
    10 ^ (leadingPlace f - 1) ≤ ratio f ∧ ratio f < 10 ^ leadingPlace f := by
  have hquotient (k : Nat) : ((f.1 * tenTo k : Nat) : ℚ) / f.2 = ratio f * 10 ^ k := by
    have hpower : ((tenTo k : Nat) : ℚ) = 10 ^ k := Nat.cast_pow 10 k
    rw [ratio, Nat.cast_mul, hpower]
    ring
  have hfloor := Nat.floor_le (zero_le_one.trans h)
  have hnext := Nat.lt_floor_add_one (ratio f * 10 ^ 330)
  have hpos : 0 < ⌊ratio f * 10 ^ 330⌋₊ := Nat.floor_pos.2 h
  have hplace : leadingPlace f = ((Numeral.digits ⌊ratio f * 10 ^ 330⌋₊).length : Int) - 330 := by
    rw [leadingPlace, ← hquotient 330, Nat.floor_div_eq_div, Numeral.digits, List.length_map]
  obtain ⟨hlow, hhigh⟩ := length_digits hpos
  rw [hplace]
  generalize ⌊ratio f * 10 ^ 330⌋₊ = n at *
  generalize hlength : (Numeral.digits n).length = l at *
  have hl : l ≠ 0 := by
    rintro rfl
    exact digits_ne_nil n (List.length_eq_zero_iff.1 hlength)
  have hlow' : (10 : ℚ) ^ (l - 1) ≤ n := by exact_mod_cast hlow
  have hhigh' : (n : ℚ) + 1 ≤ 10 ^ l := by exact_mod_cast hhigh
  constructor
  · have hsplit : (10 : ℚ) ^ ((l : Int) - 330 - 1) = 10 ^ (l - 1) / 10 ^ 330 := by
      rw [← zpow_natCast, ← zpow_natCast, ← zpow_sub₀ (by norm_num)]
      congr 1
      omega
    rw [hsplit, div_le_iff₀ (by positivity)]
    exact hlow'.trans hfloor
  · rw [zpow_sub₀ (by norm_num), zpow_natCast, lt_div_iff₀ (by positivity)]
    exact hnext.trans_le hhigh'

/-- The first grid with a number that reads back. -/
theorem Dyadic.firstGrid_spec {place : Int} {tries digits : Nat}
    (h : ∃ j, digits ≤ j ∧ j < digits + tries ∧ (d.onGrid? (place - j)).isSome = true) :
    ∃ (j n : Nat), j < digits + tries ∧ d.onGrid? (place - j) = some n ∧
      d.firstGrid place tries digits =
        ⟨significantDigits n, (Numeral.digits n).length + (place - j)⟩ := by
  induction tries generalizing digits with
  | zero =>
    obtain ⟨j, hle, hlt, -⟩ := h
    omega
  | succ tries ih =>
    rw [firstGrid]
    split
    · next n hn =>
      refine ⟨digits, n, by omega, hn, ?_⟩
      rw [Numeral.digits, List.length_map]
    · next hnone =>
      obtain ⟨j, hle, hlt, hsome⟩ := h
      have hne : j ≠ digits := by
        rintro rfl
        rw [hnone] at hsome
        cases hsome
      have hlater : ∃ j, digits + 1 ≤ j ∧ j < digits + 1 + tries ∧
          (d.onGrid? (place - j)).isSome = true := ⟨j, by omega, by omega, hsome⟩
      obtain ⟨j, n, hj, hn, heq⟩ := ih hlater
      exact ⟨j, n, by omega, hn, heq⟩

/-- The number that digits denote. -/
def Digits.value (d : Digits) : ℚ := ofDigits 10 d.digits * 10 ^ (d.point - d.digits.length)

/-- No more than seventeen digits, of which the first is not zero. -/
structure Digits.Significant (d : Digits) : Prop where
  small : ∀ a ∈ d.digits, a < 10
  lead : ∃ a rest, d.digits = a :: rest ∧ a ≠ 0
  few : d.digits.length ≤ 17

theorem lead_significantDigits {n : Nat} (hn : 0 < n) :
    ∃ a rest, significantDigits n = a :: rest ∧ a ≠ 0 := by
  obtain ⟨k, hk⟩ := digits_eq_significant n
  obtain ⟨a, rest, hcons, ha⟩ := digits_eq_cons hn
  cases hsignificant : significantDigits n with
  | nil =>
    -- All digits would be zero.
    rw [hsignificant, List.nil_append] at hk
    have hmem : a ∈ List.replicate k 0 := by
      rw [← hk, hcons]
      exact List.mem_cons_self
    exact absurd (List.eq_of_mem_replicate hmem) ha
  | cons b more =>
    rw [hsignificant, List.cons_append, hcons] at hk
    obtain ⟨rfl, -⟩ := List.cons.inj hk
    exact ⟨a, more, rfl, ha⟩

theorem length_significantDigits {n : Nat} (hn : 0 < n) (hle : n ≤ 10 ^ 17) :
    (significantDigits n).length ≤ 17 := by
  obtain ⟨k, hk⟩ := digits_eq_significant n
  have hlength : (significantDigits n).length ≤ (Numeral.digits n).length := by
    rw [hk, List.length_append]
    exact Nat.le_add_right _ _
  rcases Nat.lt_or_eq_of_le hle with hlt | rfl
  · have hpower := (length_digits hn).1.trans_lt hlt
    have hexponent := (Nat.pow_lt_pow_iff_right (by decide)).1 hpower
    omega
  · decide

/-- The zeros at the end are made up for by the place of the point. -/
theorem value_significantDigits (n : Nat) (k : Int) :
    Digits.value ⟨significantDigits n, (Numeral.digits n).length + k⟩ = n * 10 ^ k := by
  obtain ⟨zeros, hzeros⟩ := digits_eq_significant n
  have hdigits := ofDigits_digits n
  rw [hzeros, ofDigits_append, ofDigits_zeros, List.length_replicate, Nat.add_zero] at hdigits
  have hpoint : ((significantDigits n ++ List.replicate zeros 0).length : Int) + k -
      (significantDigits n).length = zeros + k := by
    rw [List.length_append, List.length_replicate]
    omega
  rw [Digits.value, hzeros]
  dsimp only
  rw [hpoint, zpow_add₀ (by norm_num), zpow_natCast, ← mul_assoc]
  congr 1
  exact_mod_cast hdigits

/-- No double above zero is so small that its first digit is not looked at. -/
theorem Dyadic.one_le_scaled (hd : d.Fits) (hpos : 0 < d.significand) : 1 ≤ d.value * 10 ^ 330 := by
  have hone : (1 : ℚ) ≤ d.significand := by exact_mod_cast hpos
  have hpowers : 2 ^ 1074 ≤ 10 ^ 330 := by decide +kernel
  have hscaled : (1 : ℚ) ≤ 2 ^ (-1074 : Int) * 10 ^ 330 := by
    have hcast : ((2 ^ 1074 : Nat) : ℚ) ≤ (10 ^ 330 : Nat) := Nat.cast_le.2 hpowers
    rw [zpow_neg, ← div_eq_inv_mul, le_div_iff₀ (place_pos 1074), one_mul]
    rwa [Nat.cast_pow, Nat.cast_pow] at hcast
  have hleast : (2 : ℚ) ^ (-1074 : Int) ≤ d.value := by
    calc (2 : ℚ) ^ (-1074 : Int) ≤ 2 ^ d.power := place_le hd.least
      _ ≤ d.value := le_mul_of_one_le_left (place_pos _).le hone
  exact hscaled.trans (mul_le_mul_of_nonneg_right hleast (by positivity))

theorem lt_of_mem_significantDigits {a n : Nat} (ha : a ∈ significantDigits n) : a < 10 := by
  obtain ⟨zeros, hzeros⟩ := digits_eq_significant n
  apply @lt_of_mem_digits n
  rw [hzeros]
  exact List.mem_append_left _ ha

/-- **The digits of a double denote a number that is rounded to it.** -/
theorem shortest_spec {x : Float} (hx : isFinite x = true) (hpos : 0 < (magnitude x).significand) :
    (shortest x).Significant ∧ (magnitude x).Holds (shortest x).value := by
  have hfits := fits_magnitude hx
  generalize hmagnitude : magnitude x = d at hpos hfits
  have hvalue : ratio (dyadicFraction d.significand d.power) = d.value := ratio_dyadicFraction _ _
  have hlarge := d.one_le_scaled hfits hpos
  rw [← hvalue] at hlarge
  obtain ⟨hlow, hhigh⟩ := leadingPlace_spec hlarge
  rw [hvalue] at hlow hhigh
  have hshortest : shortest x =
      d.firstGrid (leadingPlace (dyadicFraction d.significand d.power)) 17 1 := by
    rw [shortest, hmagnitude]
    exact if_neg hpos.ne'
  generalize leadingPlace (dyadicFraction d.significand d.power) = place at hlow hhigh hshortest
  have hseventeen : (d.onGrid? (place - (17 : Nat))).isSome = true := by
    refine d.onGrid?_isSome hfits hpos ?_
    have hsplit : (10 : ℚ) ^ (place - 1) = 10 ^ (place - (17 : Nat)) * 10 ^ 16 := by
      rw [← zpow_natCast, ← zpow_add₀ (by norm_num)]
      congr 1
      omega
    exact hsplit.symm.trans_le hlow
  have hfound : ∃ j : Nat, 1 ≤ j ∧ j < 1 + 17 ∧ (d.onGrid? (place - j)).isSome = true :=
    ⟨17, by decide, by decide, hseventeen⟩
  obtain ⟨j, n, hj, hn, hfirst⟩ := d.firstGrid_spec hfound
  obtain ⟨hn0, hholds, hbound⟩ := d.onGrid?_spec hpos hn
  have hle : n ≤ 10 ^ 17 := by
    have hquotient : d.value / 10 ^ (place - j) < 10 ^ j := by
      rw [div_lt_iff₀ (zpow_pos (by norm_num) _), ← zpow_natCast, ← zpow_add₀ (by norm_num)]
      rwa [add_sub_cancel]
    have hlt : (n : ℚ) < (10 ^ j + 1 : Nat) := by
      push_cast
      linarith
    have hlt' : n < 10 ^ j + 1 := by exact_mod_cast hlt
    have hpower : 10 ^ j ≤ 10 ^ 17 := Nat.pow_le_pow_right (by decide) (by omega)
    omega
  rw [hshortest, hfirst]
  refine ⟨⟨fun a => lt_of_mem_significantDigits, lead_significantDigits hn0,
    length_significantDigits hn0 hle⟩, ?_⟩
  rw [value_significantDigits]
  exact hholds

end PlayerWatch.Number
