import PlayerWatch.Proofs.Json.RoundTrip
import PlayerWatch.Proofs.Json.Scaling
import PlayerWatch.Proofs.Number.Numerals

/-!
# Real numbers read back

A finite double that is written as a number of JSON is read back as a double with its sign that is less than
eight units of its last place away, and as itself if the digits and the power of ten that stand for it are
small (`readReal_real`).
-/

namespace PlayerWatch.Json

open Number Text

variable {x y : Float} {n : Numeral} {d : Number.Dyadic} {v : ℚ}

/-! ### Figures -/

theorem le_foldl_digits (s : Nat) (ds : List Nat) : s ≤ ds.foldl (fun n d => 10 * n + d) s := by
  induction ds generalizing s with
  | nil => exact Nat.le_refl s
  | cons d ds ih =>
    have hle := ih (10 * s + d)
    rw [List.foldl_cons]
    omega

/-- All digits are taken as long as they fit a word. -/
theorem absorb_eq {s : Nat} {ds : List Nat} (h : ds.foldl (fun n d => 10 * n + d) s < 2 ^ 64) :
    absorb s ds = (ds.foldl (fun n d => 10 * n + d) s, 0) := by
  induction ds generalizing s with
  | nil => rfl
  | cons d ds ih =>
    rw [List.foldl_cons] at h ⊢
    have hfits : 10 * s + d < twoTo 64 := (le_foldl_digits (10 * s + d) ds).trans_lt h
    rw [absorb, if_pos hfits]
    exact ih h

/-- A numeral of few digits is its significand times its power of ten. -/
theorem magnitude?_eq (hn : n.significand < 2 ^ 64)
    (hexponent : (n.exponent.getD 0).natAbs ≤ greatestExponent) :
    magnitude? n = scaled? n.significand n.scale := by
  rw [Numeral.significand, ofDigits, List.foldl_append] at hn
  have hwhole := (le_foldl_digits _ n.fraction).trans_lt hn
  rw [magnitude?, absorb_eq hwhole]
  dsimp only
  rw [absorb_eq hn]
  dsimp only
  rw [if_pos hexponent, Numeral.significand, ofDigits, List.foldl_append, Numeral.scale]
  congr 1
  omega

/-- A number with a point or an exponent is a real one. -/
theorem readReal_number (hn : n.fraction ≠ [] ∨ n.exponent.isSome = true) (hy : magnitude? n = some y) :
    readReal (.number n) = .ok (withSign n.negative y) := by
  have hmarked : (n.fraction.isEmpty && n.exponent.isNone) = false := by
    rcases hn with hfraction | hexponent
    · rw [List.isEmpty_eq_false_iff.2 hfraction, Bool.false_and]
    · rw [Option.isNone_eq_false_iff.2 hexponent, Bool.and_false]
  rw [readReal, figure?, hmarked]
  simp [realFigure?, hy]

/-! ### Ranges -/

/-- What is rounded to a double above zero is not below half the least one and not above the limit. -/
theorem holds_range (hd : d.Fits) (hpos : 0 < d.significand) (h : d.Holds v) :
    2 ^ (-1075 : Int) ≤ v ∧ v ≤ limit := by
  have hplace := place_pos d.power
  have hbelow := d.below_le
  have hone : (1 : ℚ) ≤ d.significand := by exact_mod_cast hpos
  have hsignificand : (d.significand : ℚ) + 1 ≤ 2 ^ 53 := by exact_mod_cast hd.significand
  have hlow := h.low
  have hhigh := h.high
  constructor
  · calc (2 : ℚ) ^ (-1075 : Int) = 2 ^ (-1074 : Int) / 2 := half_least
      _ ≤ 2 ^ d.power / 2 := div_le_div_of_nonneg_right (place_le hd.least) (by norm_num)
      _ = 1 / 2 * 2 ^ d.power := by ring
      _ ≤ v := by rw [← le_div_iff₀ hplace]; linarith
  · calc v ≤ (2 ^ 53 - 1 / 2) * 2 ^ d.power := by rw [← div_le_iff₀ hplace]; linarith
      _ ≤ limit := mul_le_mul_of_nonneg_left (place_le hd.greatest) (by norm_num)

theorem power_lt_power {a b : Nat} (h : 2 ^ a < 10 ^ b) : (2 : ℚ) ^ (a : Int) < 10 ^ (b : Int) := by
  rw [zpow_natCast, zpow_natCast]
  exact_mod_cast h

/-- The power of ten of a numeral in range. -/
theorem scale_range (hpos : 0 < n.significand) (hn : n.significand < 10 ^ 17)
    (hlow : 2 ^ (-1075 : Int) ≤ n.value) (hhigh : n.value ≤ limit) :
    -341 < n.scale ∧ n.scale ≤ 308 := by
  have hten : (0 : ℚ) < 10 ^ n.scale := zpow_pos (by norm_num) _
  have hone : (1 : ℚ) ≤ n.significand := by exact_mod_cast hpos
  have hfew : (n.significand : ℚ) ≤ 10 ^ 17 := by exact_mod_cast hn.le
  constructor
  · have hpowers : 2 ^ 1075 < 10 ^ 324 := by decide +kernel
    have hleast : (10 : ℚ) ^ (-324 : Int) < 2 ^ (-1075 : Int) := by
      have hpowers' := power_lt_power hpowers
      rw [zpow_neg, zpow_neg]
      exact inv_strictAnti₀ (place_pos 1075) hpowers'
    have hlt : (10 : ℚ) ^ (-324 : Int) < 10 ^ (17 + n.scale) := by
      calc (10 : ℚ) ^ (-324 : Int) < 2 ^ (-1075 : Int) := hleast
        _ ≤ n.significand * 10 ^ n.scale := hlow
        _ ≤ 10 ^ 17 * 10 ^ n.scale := mul_le_mul_of_nonneg_right hfew hten.le
        _ = 10 ^ (17 + n.scale) := by rw [zpow_add₀ (by norm_num)]; rfl
    have hexponent := (zpow_lt_zpow_iff_right₀ (by norm_num)).1 hlt
    omega
  · have hpowers : 2 ^ 1024 < 10 ^ 309 := by decide +kernel
    have hlimit : limit ≤ 2 ^ (1024 : Int) := by
      rw [show (1024 : Int) = (53 : Nat) + 971 by decide, zpow_add₀ (by norm_num), zpow_natCast]
      exact mul_le_mul_of_nonneg_right (by norm_num) (place_pos 971).le
    have hgreatest := power_lt_power hpowers
    have hlt : (10 : ℚ) ^ n.scale < 10 ^ (309 : Int) := by
      calc (10 : ℚ) ^ n.scale ≤ n.significand * 10 ^ n.scale := le_mul_of_one_le_left hten.le hone
        _ ≤ limit := hhigh
        _ ≤ 2 ^ (1024 : Int) := hlimit
        _ < 10 ^ (309 : Int) := hgreatest
    have hexponent := (zpow_lt_zpow_iff_right₀ (by norm_num)).1 hlt
    omega

/-! ### Distances -/

/-- What is computed for a number that is rounded to a double is near that double. -/
theorem Approximates.distance (hy : Approximates y v) (hd : d.Fits) (hpos : 0 < d.significand)
    (hv : d.Holds v) : |value y - d.value| < 8 * 2 ^ d.power := by
  obtain ⟨r, hround, hnear⟩ := hy
  have hplace := place_pos d.power
  have hbelow := d.below_le
  have hone : (1 : ℚ) ≤ d.significand := by exact_mod_cast hpos
  have hsignificand : (d.significand : ℚ) + 1 ≤ 2 ^ 53 := by exact_mod_cast hd.significand
  have hlow := hv.low
  have hhigh := hv.high
  have hunit : d.value / 2 ^ d.power = d.significand := mul_div_cancel_right₀ _ hplace.ne'
  -- All numbers in units of the last place.
  have hrlow : v / 2 ^ d.power * kept ^ 6 ≤ r / 2 ^ d.power := by
    rw [div_mul_eq_mul_div]
    exact div_le_div_of_nonneg_right hnear.low hplace.le
  have hrhigh : r / 2 ^ d.power * kept ^ 6 ≤ v / 2 ^ d.power := by
    rw [div_mul_eq_mul_div]
    exact div_le_div_of_nonneg_right hnear.high hplace.le
  have herror : |value y / 2 ^ d.power - r / 2 ^ d.power| ≤ r / 2 ^ d.power / 2 ^ 53 ∨
      |value y / 2 ^ d.power - r / 2 ^ d.power| ≤ 1 / 2 := by
    rw [← sub_div, abs_div, abs_of_pos hplace, div_right_comm]
    refine hround.error.imp (fun h => div_le_div_of_nonneg_right h hplace.le) fun h => ?_
    have hleast := place_le hd.least
    rw [half_least] at h
    rw [div_le_iff₀ hplace]
    linarith only [h, hleast]
  have hkept : 1 - 6 / 2 ^ 53 ≤ kept ^ 6 := by norm_num [kept]
  have hunits : |value y - d.value| / 2 ^ d.power = |value y / 2 ^ d.power - d.significand| := by
    rw [← hunit, ← sub_div, abs_div, abs_of_pos hplace]
  rw [← div_lt_iff₀ hplace, hunits]
  generalize r / 2 ^ d.power = r, v / 2 ^ d.power = w, value y / 2 ^ d.power = z at *
  have hw : 0 ≤ w := by linarith
  have hrlow' : w * (1 - 6 / 2 ^ 53) ≤ r := (mul_le_mul_of_nonneg_left hkept hw).trans hrlow
  have hr : 0 ≤ r := by linarith
  have hrhigh' : r * (1 - 6 / 2 ^ 53) ≤ w := (mul_le_mul_of_nonneg_left hkept hr).trans hrhigh
  rw [abs_lt]
  rcases herror with herror | herror <;>
    obtain ⟨hzlow, hzhigh⟩ := abs_le.1 herror <;>
    constructor <;> linarith

/-! ### Reading what was written -/

/-- A double is read for the numeral of another one, of which the sign is left out. -/
structure ReadUnsigned (x y : Float) : Prop where
  read : magnitude? (layout.numeral x) = some y
  finite : isFinite y = true
  sign : sign y = .positive
  near : |value y - value x| < 8 * 2 ^ (magnitude x).power
  exact : (layout.numeral x).significand < 2 ^ 53 → (layout.numeral x).scale.natAbs ≤ 22 →
    magnitude y = magnitude x

/-- What is computed is known by its parts. -/
theorem exists_of_parts {result : Option Float}
    (h : result.map (fun y => (magnitude y, isFinite y, signBit y)) = some (d, true, false)) :
    ∃ y, result = some y ∧ magnitude y = d ∧ isFinite y = true ∧ sign y = .positive := by
  obtain ⟨y, hy, hparts⟩ := Option.map_eq_some_iff.1 h
  simp only [Prod.mk.injEq] at hparts
  obtain ⟨hmagnitude, hfinite, hsign⟩ := hparts
  refine ⟨y, hy, hmagnitude, hfinite, ?_⟩
  rw [Number.sign, hsign]
  rfl

/-- The digits of the two greatest doubles. -/
theorem numeral_greatest (hx : magnitude x = ⟨2 ^ 53 - 1, 971⟩ ∨ magnitude x = ⟨2 ^ 53 - 2, 971⟩) :
    ∃ last ∈ [5, 7], layout.numeral x = Layout.exponential (signBit x)
      ⟨[1, 7, 9, 7, 6, 9, 3, 1, 3, 4, 8, 6, 2, 3, 1, 5, last], 309⟩ := by
  have hshortest : ∃ last ∈ [5, 7],
      shortest x = ⟨[1, 7, 9, 7, 6, 9, 3, 1, 3, 4, 8, 6, 2, 3, 1, 5, last], 309⟩ := by
    rcases hx with h | h
    · refine ⟨7, by decide, ?_⟩
      rw [shortest, h]
      decide +kernel
    · refine ⟨5, by decide, ?_⟩
      rw [shortest, h]
      decide +kernel
  obtain ⟨last, hlast, hshortest⟩ := hshortest
  refine ⟨last, hlast, ?_⟩
  rw [Layout.numeral, hshortest]
  rfl

/-- The digits of the two greatest doubles are too near to the limit for an estimate of their product. -/
theorem readUnsigned_greatest (hx : magnitude x = ⟨2 ^ 53 - 1, 971⟩ ∨ magnitude x = ⟨2 ^ 53 - 2, 971⟩) :
    ∃ y, ReadUnsigned x y := by
  obtain ⟨last, hlast, hnumeral⟩ := numeral_greatest hx
  have hsignificand : (layout.numeral x).significand = 17976931348623150 + last := by
    rw [hnumeral]
    fin_cases hlast <;> rfl
  have hexponent : (layout.numeral x).exponent = some 308 := by
    rw [hnumeral]
    rfl
  have hlength : (layout.numeral x).fraction.length = 16 := by
    rw [hnumeral]
    rfl
  have hscale : (layout.numeral x).scale = 292 := by
    rw [Numeral.scale, hexponent, hlength]
    rfl
  have hlarge : 2 ^ 53 ≤ (layout.numeral x).significand := by omega
  have hword : (layout.numeral x).significand < 2 ^ 64 := by
    rw [hsignificand]
    fin_cases hlast <;> decide
  have hread : magnitude? (layout.numeral x) = scaled? (17976931348623150 + last) 292 := by
    rw [← hsignificand, ← hscale]
    apply magnitude?_eq hword
    rw [hexponent]
    decide
  have hproduct : ∀ last ∈ [5, 7], (scaled? (17976931348623150 + last) 292).map
      (fun y => (magnitude y, isFinite y, signBit y)) = some (⟨2 ^ 53 - 1, 971⟩, true, false) := by
    decide +kernel
  obtain ⟨y, hy, hmagnitude, hfinite, hsign⟩ := exists_of_parts (hproduct last hlast)
  refine ⟨y, hread.trans hy, hfinite, hsign, ?_, fun hfew => absurd hfew (not_lt.2 hlarge)⟩
  have hplace := place_pos 971
  rw [value, value, hmagnitude]
  rcases hx with h | h <;> rw [h] <;> dsimp only [Number.Dyadic.value] <;>
    rw [← sub_mul, abs_mul, abs_of_pos hplace] <;>
    apply mul_lt_mul_of_pos_right _ hplace <;> norm_num

/-- A number that is rounded to any other double is within the range of products. -/
theorem holds_product_range (hd : d.Fits) (hv : d.Holds v)
    (hother : d ≠ ⟨2 ^ 53 - 1, 971⟩ ∧ d ≠ ⟨2 ^ 53 - 2, 971⟩) :
    v ≤ (2 ^ 53 - 5 / 2) * 2 ^ (971 : Int) := by
  have hplace := place_pos d.power
  have hhigh := (div_le_iff₀ hplace).1 hv.high
  obtain ⟨m, p⟩ := d
  obtain ⟨hm, -, hp, -⟩ := hd
  simp only [ne_eq, Number.Dyadic.mk.injEq, not_and] at hother hm hp hhigh hplace
  rcases Int.lt_or_eq_of_le hp with hlt | rfl
  · have hm' : (m : ℚ) ≤ 2 ^ 53 := by exact_mod_cast hm.le
    have hpower : (2 : ℚ) ^ p * 2 ≤ 2 ^ (971 : Int) := two_places_le hlt
    have hmul := mul_le_mul_of_nonneg_right hm' hplace.le
    generalize (2 : ℚ) ^ (971 : Int) = q at hpower ⊢
    generalize (2 : ℚ) ^ p = r at *
    linarith
  · have hle : m + 3 ≤ 2 ^ 53 := by
      have hfirst := mt hother.1 (not_not.2 rfl)
      have hsecond := mt hother.2 (not_not.2 rfl)
      omega
    have hle' : (m : ℚ) + 3 ≤ 2 ^ 53 := by exact_mod_cast hle
    exact hhigh.trans (mul_le_mul_of_nonneg_right (by linarith) hplace.le)

/-- **A double above zero is read as one that is near it.** -/
theorem readUnsigned_spec (hx : isFinite x = true) (hpos : 0 < (magnitude x).significand) :
    ∃ y, ReadUnsigned x y := by
  have hstands := numeral_standsFor hx hpos
  have hfits := fits_magnitude hx
  have hten : 10 ^ 17 < 2 ^ 64 := by decide
  obtain ⟨hleast, hlimit⟩ := holds_range hfits hpos hstands.holds
  have hsignificand : 0 < (layout.numeral x).significand := by
    by_contra hzero
    have hnone : (layout.numeral x).significand = 0 := by omega
    rw [Numeral.value, hnone, Nat.cast_zero, zero_mul] at hleast
    exact absurd hleast (not_le.2 (place_pos (-1075)))
  have hfew := hstands.few
  obtain ⟨hlow, hhigh⟩ := scale_range hsignificand hfew hleast hlimit
  have hexponent : ((layout.numeral x).exponent.getD 0).natAbs ≤ greatestExponent := by
    have hgreatest : greatestExponent = 2147483647 := by decide
    have hscale : (layout.numeral x).scale =
      (layout.numeral x).exponent.getD 0 - (layout.numeral x).fraction.length := rfl
    rcases hstands.exponent with hnone | hshort
    · rw [hnone, Option.getD_none]
      omega
    · omega
  by_cases hother : magnitude x ≠ ⟨2 ^ 53 - 1, 971⟩ ∧ magnitude x ≠ ⟨2 ^ 53 - 2, 971⟩
  · have hrange := holds_product_range hfits hstands.holds hother
    obtain ⟨y, hy, happrox⟩ :=
      scaled?_approximates hsignificand (hfew.trans hten) (by omega) hhigh hrange
    have hnear := happrox.distance hfits hpos hstands.holds
    obtain ⟨r, hround, -⟩ := id happrox
    refine ⟨y, ?_, hround.finite, hround.sign, hnear, ?_⟩
    · rw [magnitude?_eq (hfew.trans hten) hexponent, hy]
    · intro hsmall hshort
      obtain ⟨y', hy', hround'⟩ := scaled?_roundsTo hsignificand hsmall hshort
      obtain rfl : y = y' := Option.some.inj (hy.symm.trans hy')
      exact hround'.nearest.eq_of_holds hfits hstands.holds
  · apply readUnsigned_greatest
    by_contra h
    exact hother (not_or.1 h)

theorem readUnsigned_zero (hx : isFinite x = true) (hzero : (magnitude x).significand = 0) :
    ∃ y, ReadUnsigned x y := by
  have hleast : (magnitude x).power = -1074 := (fits_magnitude hx).normal.resolve_left (by omega)
  have hquotient : (scaled? 0 (-1)).map (fun y => (magnitude y, isFinite y, signBit y)) =
      some (⟨0, -1074⟩, true, false) := by
    decide +kernel
  obtain ⟨y, hy, hmagnitude, hfinite, hsign⟩ := exists_of_parts hquotient
  have hsame : magnitude y = magnitude x := by
    rw [hmagnitude, ← hzero, ← hleast]
  refine ⟨y, ?_, hfinite, hsign, ?_, fun _ _ => hsame⟩
  · rw [numeral_zero hzero]
    exact hy
  · rw [value, value, hsame, sub_self, abs_zero]
    exact mul_pos (by norm_num) (place_pos _)

/-- A double is read for another one: it has the same sign and is less than eight units of the last place
away, and it is the same one if the numeral has few digits and a small power of ten. -/
structure ReadAs (x y : Float) : Prop where
  finite : isFinite y = true
  sign : Number.sign y = Number.sign x
  near : |value y - value x| < 8 * 2 ^ (magnitude x).power
  exact : (layout.numeral x).significand < 2 ^ 53 → (layout.numeral x).scale.natAbs ≤ 22 → y = x

theorem ReadUnsigned.withSign (h : ReadUnsigned x y) :
    ReadAs x (withSign (signBit x) y) := by
  obtain ⟨-, hfinite, hsign, hnear, hexact⟩ := h
  obtain ⟨hfinite', hmagnitude', hsign'⟩ : isFinite (Number.withSign (signBit x) y) = true ∧
      magnitude (Number.withSign (signBit x) y) = magnitude y ∧
      Number.sign (Number.withSign (signBit x) y) = Number.sign x := by
    rw [Number.withSign, Number.sign.eq_def x]
    split
    · obtain ⟨hfinite', hmagnitude', hsign'⟩ := neg_spec hfinite
      rw [hsign] at hsign'
      exact ⟨hfinite', hmagnitude', hsign'⟩
    · exact ⟨hfinite, rfl, hsign⟩
  refine ⟨hfinite', hsign', ?_, ?_⟩
  · rwa [value, hmagnitude']
  · intro hfew hsmall
    exact eq_of_magnitude hsign' (hmagnitude'.trans (hexact hfew hsmall))

/-- The number of a double, or what stands for it, is without a fault. -/
theorem proper_real (x : Float) : (real x).Proper := by
  rw [real]
  split
  · next hx => exact .number (written_numeral hx).1.toWellWritten
  · exact .null

/-- **A finite double is read back**, near to what it was and with its sign. -/
theorem readReal_real (hx : isFinite x = true) : ∃ y, readReal (real x) = .ok y ∧ ReadAs x y := by
  obtain ⟨y, hy⟩ : ∃ y, ReadUnsigned x y := by
    rcases Nat.eq_zero_or_pos (magnitude x).significand with hzero | hpos
    · exact readUnsigned_zero hx hzero
    · exact readUnsigned_spec hx hpos
  obtain ⟨hwritten, hnegative⟩ := written_numeral hx
  refine ⟨_, ?_, hy.withSign⟩
  rw [real, if_pos hx, readReal_number hwritten.marked hy.read, hnegative]

end PlayerWatch.Json
