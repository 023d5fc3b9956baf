import PlayerWatch.Proofs.Number.Doubles

/-!
# Rounding to the nearest double

Arithmetic cuts the exact result off at some place and keeps how what is cut off compares with a half of
that place (`Residue`). Shifting places out keeps this account (`Holds.shift`), so rounding gives the
double nearest to the exact result (`roundWithAccuracy_nearest`), the even one of two.
-/

namespace PlayerWatch.Number

open Float.Model Float.Model.UnpackedFloat

/-! ### Whole numbers -/

/-- A whole number nearest to a real one, and even if there are two of them. -/
structure NearestEven (w : ℚ) (n : Nat) : Prop where
  near : |w - n| ≤ 1 / 2
  even : |w - n| = 1 / 2 → n % 2 = 0

theorem NearestEven.unique {w : ℚ} {n m : Nat} (hn : NearestEven w n) (hm : NearestEven w m) :
    n = m := by
  obtain ⟨hn, hn'⟩ := hn
  obtain ⟨hm, hm'⟩ := hm
  wlog hle : n ≤ m generalizing n m
  · exact (this hm hm' hn hn' (by omega)).symm
  by_contra hne
  have hlt : n + 1 ≤ m := by omega
  have hlt' : (n : ℚ) + 1 ≤ m := by exact_mod_cast hlt
  rw [abs_le] at hn hm
  -- Two whole numbers as near as a half are next to each other, and both are even.
  have hsame : (m : ℚ) = n + 1 := by linarith
  have hsame' : m = n + 1 := by exact_mod_cast hsame
  have hhalf : w - n = 1 / 2 := by linarith
  have hhalf' : w - m = -(1 / 2) := by linarith
  have heven := hn' (by rw [hhalf]; norm_num)
  have heven' := hm' (by rw [hhalf']; norm_num)
  omega

/-- How what is cut off compares with a half of the last place. -/
def Residue (r : ℚ) : Accuracy → Prop
  | .exact => r = 0
  | .inexact .lt => 0 < r ∧ r < 1 / 2
  | .inexact .eq => r = 1 / 2
  | .inexact .gt => 1 / 2 < r ∧ r < 1

theorem Residue.range {r : ℚ} {a : Accuracy} (h : Residue r a) : 0 ≤ r ∧ r < 1 := by
  match a with
  | .exact =>
    obtain rfl : r = 0 := h
    norm_num
  | .inexact .lt => exact ⟨h.1.le, h.2.trans (by norm_num)⟩
  | .inexact .eq =>
    obtain rfl : r = 1 / 2 := h
    norm_num
  | .inexact .gt => exact ⟨(show (0 : ℚ) ≤ 1 / 2 by norm_num).trans h.1.le, h.2⟩

theorem Residue.nearestEven {w : ℚ} {m : Nat} {a : Accuracy} (h : Residue (w - m) a) :
    NearestEven w (a.roundToNearestEven m) := by
  match a with
  | .exact =>
    have hw : w - m = 0 := h
    refine ⟨?_, ?_⟩ <;> rw [Accuracy.roundToNearestEven, hw] <;> norm_num
  | .inexact .lt =>
    obtain ⟨hlow, hhigh⟩ := h
    refine ⟨?_, ?_⟩ <;> rw [Accuracy.roundToNearestEven, abs_of_pos hlow]
    · exact hhigh.le
    · exact fun heq => absurd heq hhigh.ne
  | .inexact .eq =>
    have hw : w - m = 1 / 2 := h
    rw [Accuracy.roundToNearestEven]
    rcases Nat.mod_two_eq_zero_or_one m with hm | hm
    · rw [hm, Nat.add_zero]
      refine ⟨?_, fun _ => hm⟩
      rw [hw]
      norm_num
    · rw [hm]
      refine ⟨?_, fun _ => by omega⟩
      have hw' : w - (m + 1 : Nat) = -(1 / 2) := by
        push_cast
        linarith
      rw [hw']
      norm_num
  | .inexact .gt =>
    obtain ⟨hlow, hhigh⟩ := h
    have hneg : w - (m + 1 : Nat) < 0 := by
      push_cast
      linarith
    have habs : |w - (m + 1 : Nat)| < 1 / 2 := by
      rw [abs_of_neg hneg]
      push_cast
      linarith
    exact ⟨habs.le, fun heq => absurd heq habs.ne⟩

/-! ### Shifting -/

/-- A mantissa with its two bits behind the last place accounts for a real number. -/
def Holds (em : ExtendedMantissa) (w : ℚ) : Prop := Residue (w - em.mantissa) em.accuracy

theorem Holds.shiftOne {em : ExtendedMantissa} {w : ℚ} (h : Holds em w) :
    Holds em.shiftRightOne (w / 2) := by
  obtain ⟨m, roundBit, stickyBit⟩ := em
  have hm : (m : ℚ) = 2 * (m / 2 : Nat) + (m % 2 : Nat) := by exact_mod_cast (Nat.div_add_mod m 2).symm
  rw [Holds] at h ⊢
  rw [ExtendedMantissa.shiftRightOne]
  rcases Nat.mod_two_eq_zero_or_one m with hlast | hlast <;> rw [hlast] at hm <;>
    cases roundBit <;> cases stickyBit <;>
    simp [ExtendedMantissa.accuracy, hlast, Residue] at h hm ⊢ <;>
    first
    | linarith
    | (constructor <;> linarith)

theorem Holds.shift {em : ExtendedMantissa} {w : ℚ} (h : Holds em w) (k : Nat) :
    Holds (em >>> k) (w / 2 ^ k) := by
  induction k with
  | zero =>
    rw [pow_zero, div_one]
    exact h
  | succ k ih =>
    rw [pow_succ, ← div_div]
    exact ih.shiftOne

theorem holds_ofMantissaAndAccuracy {m : Nat} {a : Accuracy} {w : ℚ} (h : Residue (w - m) a) :
    Holds (.ofMantissaAndAccuracy m a) w := by
  match a with
  | .exact | .inexact .lt | .inexact .eq | .inexact .gt => exact h

theorem Holds.nearestEven {em : ExtendedMantissa} {w : ℚ} (h : Holds em w) :
    NearestEven w em.roundedMantissa := Residue.nearestEven h

/-! ### The nearest double -/

/-- The last place of the double nearest to a number that is not negative. -/
structure LastPlace (v : ℚ) (t : Int) : Prop where
  least : -1074 ≤ t
  lt : v < 2 ^ 53 * 2 ^ t
  le : t = -1074 ∨ 2 ^ 52 * 2 ^ t ≤ v

/-- So many units of a last place; a unit of the next one is the least that has too many digits. -/
def carry (n : Nat) (t : Int) : Dyadic := if n < 2 ^ 53 then ⟨n, t⟩ else ⟨2 ^ 52, t + 1⟩

/-- The magnitude that a number is rounded to. -/
def Dyadic.Nearest (d : Dyadic) (v : ℚ) : Prop :=
  ∃ t n, LastPlace v t ∧ NearestEven (v / 2 ^ t) n ∧ d = carry n t

theorem place_pos (t : Int) : (0 : ℚ) < 2 ^ t := zpow_pos (by norm_num) t

theorem place_le {t t' : Int} (h : t ≤ t') : (2 : ℚ) ^ t ≤ 2 ^ t' := zpow_le_zpow_right₀ (by norm_num) h

theorem place_succ (t : Int) : (2 : ℚ) ^ (t + 1) = 2 ^ t * 2 := zpow_add_one₀ (by norm_num) t

theorem two_places_le {t t' : Int} (h : t < t') : (2 : ℚ) ^ t * 2 ≤ 2 ^ t' := by
  rw [← place_succ]
  exact place_le h

/-- Half a unit of the least place. -/
theorem half_least : (2 : ℚ) ^ (-1075 : Int) = 2 ^ (-1074 : Int) / 2 := by
  rw [eq_div_iff (by norm_num), ← place_succ]
  rfl

theorem targetExponent_binary64 (k : Int) :
    Format.binary64.targetExponent k = max (k - 53) (-1074) := by
  have hbits : (Format.binary64.mantissaBits : Int) = 53 := rfl
  have hleast : Format.binary64.minExponent = -1074 := by decide
  rw [Format.targetExponent, hbits, hleast]

theorem targetExponent_eq (m : Nat) (e : Int) :
    Format.binary64.targetExponent (totalExponent m e) = max (m.log2 + e - 52) (-1074) := by
  rw [targetExponent_binary64, totalExponent]
  congr 1
  omega

theorem lastPlace_targetExponent {m : Nat} {e : Int} {a : Accuracy} {v : ℚ}
    (h : Residue (v / 2 ^ e - m) a) (hm : 2 ^ 52 ≤ m ∨ e ≤ -1074) :
    LastPlace v (Format.binary64.targetExponent (totalExponent m e)) := by
  obtain ⟨hlow, hhigh⟩ := h.range
  have he := place_pos e
  have hlt : v < ((m + 1 : Nat) : ℚ) * 2 ^ e := by
    rw [← div_lt_iff₀ he]
    push_cast
    linarith
  have hle : (m : ℚ) * 2 ^ e ≤ v := by
    rw [← le_div_iff₀ he]
    linarith
  have hlog : m + 1 ≤ 2 ^ (m.log2 + 1) := Nat.lt_log2_self
  rw [targetExponent_eq]
  refine ⟨le_max_right _ _, ?_, ?_⟩
  · have hlog' : ((m + 1 : Nat) : ℚ) ≤ 2 ^ (m.log2 + 1) := by exact_mod_cast hlog
    calc v < ((m + 1 : Nat) : ℚ) * 2 ^ e := hlt
      _ ≤ 2 ^ (m.log2 + 1) * 2 ^ e := mul_le_mul_of_nonneg_right hlog' he.le
      _ = 2 ^ ((m.log2 + 1 : Nat) + e) := by rw [← zpow_natCast, ← zpow_add₀ (by norm_num)]
      _ ≤ 2 ^ ((53 : Nat) + max (m.log2 + e - 52) (-1074)) :=
        place_le (by omega)
      _ = 2 ^ 53 * 2 ^ max (m.log2 + e - 52) (-1074) := by
        rw [zpow_add₀ (by norm_num), zpow_natCast]
  · by_cases hleast : (m.log2 : Int) + e - 52 ≤ -1074
    · exact .inl (max_eq_right hleast)
    right
    have hm0 : m ≠ 0 := by
      rintro rfl
      simp only [Nat.log2_zero] at hleast
      omega
    have hlog' : (2 : ℚ) ^ m.log2 ≤ m := by exact_mod_cast Nat.log2_self_le hm0
    rw [max_eq_left (by omega)]
    calc (2 : ℚ) ^ 52 * 2 ^ ((m.log2 : Int) + e - 52) = 2 ^ m.log2 * 2 ^ e := by
          rw [← zpow_natCast, ← zpow_natCast, ← zpow_add₀ (by norm_num), ← zpow_add₀ (by norm_num)]
          congr 1
          push_cast
          ring
      _ ≤ m * 2 ^ e := mul_le_mul_of_nonneg_right hlog' he.le
      _ ≤ v := hle

/-- Once more shifted, a rounded mantissa has no more than 53 bits. -/
theorem shiftToTargetExponent_exact {n : Nat} {t : Int} (hn : n ≤ 2 ^ 53) (ht : -1074 ≤ t) :
    (shiftToTargetExponent Format.binary64 n t .exact).1.mantissa = (carry n t).significand ∧
      (shiftToTargetExponent Format.binary64 n t .exact).2 = (carry n t).power := by
  rw [shiftToTargetExponent, targetExponent_eq, shiftToExponent, carry]
  split
  · next hlt =>
    have hlog : n.log2 ≤ 52 := by
      by_cases hn0 : n = 0
      · rw [hn0]
        decide
      · exact Nat.lt_succ_iff.1 ((Nat.log2_lt hn0).2 hlt)
    have hshift : (max ((n.log2 : Int) + t - 52) (-1074) - t).toNat = 0 := by omega
    rw [hshift]
    exact ⟨rfl, add_zero t⟩
  · next hlarge =>
    obtain rfl : n = 2 ^ 53 := by omega
    have hshift : (max (((2 ^ 53 : Nat).log2 : Int) + t - 52) (-1074) - t).toNat = 1 := by
      rw [Nat.log2_two_pow]
      omega
    rw [hshift]
    exact ⟨rfl, rfl⟩

/-- **Rounding gives the nearest double**, if no place has been cut off that it has. -/
theorem roundWithAccuracy_nearest {m : Nat} {e : Int} {a : Accuracy} {v : ℚ}
    (h : Residue (v / 2 ^ e - m) a) (hm : 2 ^ 52 ≤ m ∨ e ≤ -1074) (s : Sign) :
    ∃ d : Dyadic, d.Nearest v ∧ roundWithAccuracy Format.binary64 s m e a = d.unpacked s := by
  have hplace := lastPlace_targetExponent h hm
  have htarget := targetExponent_eq m e
  generalize ht : Format.binary64.targetExponent (totalExponent m e) = t at hplace htarget
  have hle : e ≤ t := by
    rcases hm with hm | hm
    · have hlog : 52 ≤ m.log2 := (Nat.le_log2 (by omega)).2 hm
      omega
    · omega
  have hpower : (2 : ℚ) ^ (t - e).toNat = 2 ^ (t - e) := by
    rw [← zpow_natCast, Int.toNat_of_nonneg (by omega)]
  have hholds := (holds_ofMantissaAndAccuracy h).shift (t - e).toNat
  rw [hpower, div_div, ← zpow_add₀ (by norm_num), add_sub_cancel] at hholds
  have hnear := hholds.nearestEven
  generalize hem : ExtendedMantissa.ofMantissaAndAccuracy m a >>> (t - e).toNat = em at hholds hnear
  have hshift : shiftToTargetExponent Format.binary64 m e a = (em, t) := by
    rw [shiftToTargetExponent, ht, shiftToExponent, hem, Int.toNat_of_nonneg (by omega),
      add_sub_cancel]
  have hbound : em.roundedMantissa ≤ 2 ^ 53 := by
    have hlt : v / 2 ^ t < 2 ^ 53 := (div_lt_iff₀ (place_pos t)).2 hplace.lt
    have habs := (abs_le.1 hnear.near).1
    have hcast : (em.roundedMantissa : ℚ) < (2 ^ 53 + 1 : Nat) := by
      push_cast
      linarith
    exact Nat.lt_succ_iff.1 (by exact_mod_cast hcast)
  obtain ⟨hsignificand, hpower'⟩ := shiftToTargetExponent_exact hbound hplace.least
  refine ⟨carry em.roundedMantissa t, ⟨t, _, hplace, hnear, rfl⟩, ?_⟩
  rw [roundWithAccuracy, hshift]
  dsimp only
  rw [Dyadic.unpacked]
  by_cases hzero : (carry em.roundedMantissa t).significand = 0
  · rw [dif_pos hzero, dif_pos (hsignificand.trans hzero)]
  · rw [dif_neg hzero, dif_neg (by rwa [hsignificand])]
    exact finite_congr _ hsignificand hpower'

section Nearest

variable {d d' : Dyadic} {v : ℚ}

theorem value_carry {n : Nat} {t : Int} (hn : n ≤ 2 ^ 53) : (carry n t).value = n * 2 ^ t := by
  rw [carry, Dyadic.value]
  split
  · rfl
  · obtain rfl : n = 2 ^ 53 := by omega
    rw [place_succ]
    push_cast
    ring

theorem LastPlace.count_le {t : Int} {n : Nat} (ht : LastPlace v t) (hn : NearestEven (v / 2 ^ t) n) :
    n ≤ 2 ^ 53 := by
  have hlt : v / 2 ^ t < 2 ^ 53 := (div_lt_iff₀ (place_pos t)).2 ht.lt
  have habs := (abs_le.1 hn.near).1
  have hcast : (n : ℚ) < (2 ^ 53 + 1 : Nat) := by
    push_cast
    linarith
  exact Nat.lt_succ_iff.1 (by exact_mod_cast hcast)

/-- A number is rounded by at most half a unit of its last place. -/
theorem Dyadic.Nearest.error (h : d.Nearest v) :
    |d.value - v| ≤ v / 2 ^ 53 ∨ |d.value - v| ≤ 2 ^ (-1075 : Int) := by
  obtain ⟨t, n, ht, hn, rfl⟩ := h
  have hpos := place_pos t
  have herror : |(carry n t).value - v| ≤ 2 ^ t / 2 := by
    have hscale : (carry n t).value - v = -((v / 2 ^ t - n) * 2 ^ t) := by
      rw [value_carry (ht.count_le hn), sub_mul, div_mul_cancel₀ v hpos.ne']
      ring
    rw [hscale, abs_neg, abs_mul, abs_of_pos hpos]
    have hnear := mul_le_mul_of_nonneg_right hn.near hpos.le
    linarith
  rcases ht.le with hleast | hle
  · right
    rwa [half_least, ← hleast]
  · left
    refine herror.trans ?_
    rw [le_div_iff₀ (by norm_num)]
    linarith

/-- A number within range is rounded to the magnitude of some double. -/
theorem Dyadic.Nearest.fits (h : d.Nearest v) (hv : v < (2 ^ 53 - 1 / 2) * 2 ^ (971 : Int)) :
    d.Fits := by
  obtain ⟨t, n, ht, hn, rfl⟩ := h
  have hcount := ht.count_le hn
  have hpos := place_pos t
  have hnear := abs_le.1 hn.near
  have hplace : t ≤ 971 := by
    by_contra hlarge
    have hle := ht.le.resolve_left (by omega)
    have hpower : (2 : ℚ) ^ (971 : Int) * 2 ≤ 2 ^ t := two_places_le (by omega)
    have hpos' := place_pos 971
    generalize (2 : ℚ) ^ (971 : Int) = p at hv hpower hpos'
    linarith
  have hnormal : t = -1074 ∨ 2 ^ 52 ≤ n := by
    refine ht.le.imp_right fun hle => ?_
    have hw : (2 : ℚ) ^ 52 ≤ v / 2 ^ t := (le_div_iff₀ hpos).2 hle
    have hcast : ((2 ^ 52 : Nat) : ℚ) < (n + 1 : Nat) := by
      push_cast
      linarith
    exact Nat.lt_succ_iff.1 (by exact_mod_cast hcast)
  rw [carry]
  split
  · next hlt => exact ⟨hlt, ht.least, hplace, hnormal.symm⟩
  · next hlarge =>
    refine ⟨by norm_num, ?_, ?_, .inl (Nat.le_refl _)⟩
    · exact Int.le_trans ht.least (by simp)
    · by_contra hover
      obtain rfl : t = 971 := by
        have : ¬ t + 1 ≤ 971 := hover
        omega
      obtain rfl : n = 2 ^ 53 := by omega
      have hw : v / 2 ^ (971 : Int) < 2 ^ 53 - 1 / 2 := (div_lt_iff₀ hpos).2 hv
      have hlow := hnear.1
      generalize v / 2 ^ (971 : Int) = w at hw hlow
      push_cast at hlow
      linarith

/-- The magnitude of a double is not rounded. -/
theorem Dyadic.Fits.nearest (hd : d.Fits) : d.Nearest d.value := by
  have hpos := place_pos d.power
  have hlt : (d.significand : ℚ) < 2 ^ 53 := by exact_mod_cast hd.significand
  refine ⟨d.power, d.significand, ⟨hd.least, ?_, ?_⟩, ⟨?_, ?_⟩, ?_⟩
  · exact mul_lt_mul_of_pos_right hlt hpos
  · refine hd.normal.symm.imp_right fun hle => ?_
    have hle' : (2 : ℚ) ^ 52 ≤ d.significand := by exact_mod_cast hle
    exact mul_le_mul_of_nonneg_right hle' hpos.le
  all_goals try rw [Dyadic.value, mul_div_cancel_right₀ _ hpos.ne', sub_self, abs_zero]
  · norm_num
  · norm_num
  · rw [carry, if_pos hd.significand]

/-- A number of few digits is not rounded. -/
theorem Dyadic.Nearest.value_eq (h : d.Nearest v) {k : Nat} {j : Int} (hk : k < 2 ^ 53)
    (hj : -1074 ≤ j) (hv : v = k * 2 ^ j) : d.value = v := by
  obtain ⟨t, n, ht, hn, rfl⟩ := h
  have hle : t ≤ j := by
    by_contra hlt
    have hle := ht.le.resolve_left (by omega)
    have hpower : (2 : ℚ) ^ j * 2 ≤ 2 ^ t := two_places_le (by omega)
    have hk' : (k : ℚ) < 2 ^ 53 := by exact_mod_cast hk
    have hmul := mul_lt_mul_of_pos_right hk' (place_pos j)
    linarith
  have hwhole : v / 2 ^ t = (k * 2 ^ (j - t).toNat : Nat) := by
    rw [hv, mul_div_assoc, ← zpow_sub₀ (by norm_num)]
    push_cast
    rw [← zpow_natCast, Int.toNat_of_nonneg (by omega)]
  have hself : NearestEven (v / 2 ^ t) (k * 2 ^ (j - t).toNat) := by
    refine ⟨?_, ?_⟩ <;> rw [hwhole, sub_self, abs_zero] <;> norm_num
  rw [value_carry (ht.count_le hn), hn.unique hself, ← hwhole, div_mul_cancel₀ v (place_pos t).ne']

end Nearest

end PlayerWatch.Number
