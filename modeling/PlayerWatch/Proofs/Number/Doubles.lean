import Mathlib
import PlayerWatch.Number.Shortest

/-!
# Doubles by their magnitudes

A double is its sign and its magnitude (`eq_of_magnitude`), for a finite one a significand of at most 53 bits
with a power of two (`fits_magnitude`). Arithmetic unpacks doubles into such parts and packs the result; the
parts are those of the magnitude (`unpack_of_isFinite`), and what is packed has again the magnitude that it
was packed from (`magnitude_packed`).
-/

namespace PlayerWatch.Number

open Float.Model Float.Model.UnpackedFloat

/-- The number that a dyadic stands for. -/
def Dyadic.value (d : Dyadic) : ℚ := d.significand * 2 ^ d.power

/-- The magnitude of some finite double: the significand has 53 bits unless the power is the least. -/
structure Dyadic.Fits (d : Dyadic) : Prop where
  significand : d.significand < 2 ^ 53
  least : -1074 ≤ d.power
  greatest : d.power ≤ 971
  normal : 2 ^ 52 ≤ d.significand ∨ d.power = -1074

def Dyadic.unpacked (d : Dyadic) (s : Sign) : UnpackedFloat :=
  if h : d.significand = 0 then .zero s
  else .finite s d.significand d.power (Nat.pos_of_ne_zero h)

def sign (x : Float) : Sign := if signBit x then .negative else .positive

variable {x y : Float} {d : Dyadic} {s : Sign}

/-! ### Bits -/

theorem toNat_unpackMantissa (b : BitVec 64) :
    (@unpackMantissa Format.binary64 b).toNat = b.toNat % 2 ^ 52 := by
  simp [unpackMantissa, BitVec.extractLsb_toNat]

theorem toNat_unpackExponent (b : BitVec 64) :
    (@unpackExponent Format.binary64 b).toNat = b.toNat / 2 ^ 52 % 2 ^ 11 := by
  simp [unpackExponent, BitVec.extractLsb_toNat, Nat.shiftRight_eq_div_pow]

theorem toNat_unpackSign (b : BitVec 64) :
    (@unpackSign Format.binary64 b).toNat = b.toNat / 2 ^ 63 := by
  have hb : b.toNat < 2 ^ 64 := b.isLt
  simp [unpackSign, BitVec.extractLsb_toNat, Nat.shiftRight_eq_div_pow]
  omega

/-- The exponent field, in which all bits are set for what is not finite. -/
def exponentField (x : Float) : Nat := x.toBits.toNat / 2 ^ 52 % 2 ^ 11

def fractionField (x : Float) : Nat := x.toBits.toNat % 2 ^ 52

theorem isFinite_iff : isFinite x = true ↔ exponentField x ≠ 2047 := by
  show decide (exponentField x ≠ 2047) = true ↔ _
  rw [decide_eq_true_iff]

theorem magnitude_eq : magnitude x =
    if exponentField x = 0 then ⟨fractionField x, -1074⟩
    else ⟨2 ^ 52 + fractionField x, (exponentField x : Int) - 1075⟩ := rfl

theorem toBits_eq : x.toBits.toNat =
    (if signBit x then 2 ^ 63 else 0) + (exponentField x * 2 ^ 52 + fractionField x) := by
  have hx : x.toBits.toNat < 2 ^ 64 := x.toBits.toNat_lt
  have hsign : signBit x = true ↔ x.toBits.toNat / 2 ^ 63 = 1 := decide_eq_true_iff
  rw [exponentField, fractionField]
  split
  · next h =>
    have := hsign.1 h
    omega
  · next h =>
    have := mt hsign.2 h
    omega

theorem fits_magnitude (hx : isFinite x = true) : (magnitude x).Fits := by
  have hfraction : fractionField x < 2 ^ 52 := Nat.mod_lt _ (by decide)
  have hexponent : exponentField x < 2 ^ 11 := Nat.mod_lt _ (by decide)
  have hne := isFinite_iff.1 hx
  rw [magnitude_eq]
  split
  · next hzero =>
    have hlt : fractionField x < 2 ^ 53 := by omega
    exact ⟨hlt, by simp, by simp, .inr rfl⟩
  · next hnonzero =>
    have hlt : 2 ^ 52 + fractionField x < 2 ^ 53 := by omega
    have hleast : -1074 ≤ (exponentField x : Int) - 1075 := by omega
    have hgreatest : (exponentField x : Int) - 1075 ≤ 971 := by omega
    exact ⟨hlt, hleast, hgreatest, .inl (Nat.le_add_right _ _)⟩

/-- **A double is its sign and its magnitude.** -/
theorem eq_of_magnitude (hsign : sign x = sign y) (h : magnitude x = magnitude y) : x = y := by
  have hfraction (z : Float) : fractionField z < 2 ^ 52 := Nat.mod_lt _ (by decide)
  have hx' := hfraction x
  have hy' := hfraction y
  have hsignBit : signBit x = signBit y := by
    rw [sign, sign] at hsign
    cases hbx : signBit x <;> cases hby : signBit y <;> simp [hbx, hby] at hsign ⊢
  have hfields : exponentField x = exponentField y ∧ fractionField x = fractionField y := by
    rw [magnitude_eq, magnitude_eq] at h
    split at h <;> split at h <;> rw [Dyadic.mk.injEq] at h <;> omega
  apply Float.toBits_inj.1
  apply UInt64.toNat_inj.1
  rw [toBits_eq, toBits_eq, hsignBit, hfields.1, hfields.2]

/-! ### Unpacking -/

theorem toNat_toBitVec (x : Float) : x.toModel.toBits.toBitVec.toNat = x.toBits.toNat := rfl

theorem sign_ofBitVec (x : Float) :
    Sign.ofBitVec (@unpackSign Format.binary64 x.toModel.toBits.toBitVec) = sign x := by
  have hbit := toNat_unpackSign x.toModel.toBits.toBitVec
  have hlt := (@unpackSign Format.binary64 x.toModel.toBits.toBitVec).isLt
  rw [toNat_toBitVec] at hbit
  generalize @unpackSign Format.binary64 x.toModel.toBits.toBitVec = b at hbit hlt
  have hsign : signBit x = decide (x.toBits.toNat / 2 ^ 63 = 1) := rfl
  rw [sign, hsign, ← hbit, Sign.ofBitVec]
  have hb : b = 0#1 ↔ b.toNat = 0 := BitVec.toNat_inj.symm
  rcases Nat.lt_or_ge b.toNat 1 with h | h
  · have hzero : b.toNat = 0 := by omega
    simp [hb.2 hzero]
  · have hone : b.toNat = 1 := by omega
    have hne : b ≠ 0#1 := mt hb.1 (by omega)
    simp [hne, hone]

theorem finite_congr {m m' : Nat} {e e' : Int} {h : 0 < m} (h' : 0 < m') (hm : m = m')
    (he : e = e') : UnpackedFloat.finite s m e h = .finite s m' e' h' := by
  subst hm he
  rfl

theorem toNat_implicit_append (m : BitVec 52) : (1#1 ++ m).toNat = 2 ^ 52 + m.toNat := by
  rw [BitVec.toNat_append, ← Nat.shiftLeft_add_eq_or_of_lt m.isLt]
  rfl

/-- The parts of a finite double are its sign and its magnitude. -/
theorem unpack_of_isFinite (hx : isFinite x = true) :
    x.toModel.unpack = (magnitude x).unpacked (sign x) := by
  have hfraction : (@unpackMantissa Format.binary64 x.toModel.toBits.toBitVec).toNat =
    fractionField x := toNat_unpackMantissa _
  have hexponent : (@unpackExponent Format.binary64 x.toModel.toBits.toBitVec).toNat =
    exponentField x := toNat_unpackExponent _
  have hne := isFinite_iff.1 hx
  rw [magnitude_eq, Float.Model.unpack, UnpackedFloat.unpack, sign_ofBitVec]
  dsimp only
  rw [Dyadic.unpacked]
  split
  case isTrue hones =>
    rw [hones] at hexponent
    exact absurd hexponent.symm hne
  split
  case isTrue _ hzero =>
    have hfield : exponentField x = 0 := by
      rw [← hexponent, hzero]
      rfl
    simp only [hfield, if_true]
    split
    case isTrue hm =>
      have hnone : fractionField x = 0 := by
        rw [← hfraction, hm]
        rfl
      rw [dif_pos hnone]
    case isFalse hm =>
      have hsome : fractionField x ≠ 0 := by
        rw [← hfraction]
        exact fun h => hm (BitVec.eq_of_toNat_eq h)
      rw [dif_neg hsome]
      refine finite_congr _ hfraction ?_
      rw [hexponent, hfield]
      rfl
  case isFalse _ hnonzero =>
    have hfield : exponentField x ≠ 0 := by
      rw [← hexponent]
      exact fun h => hnonzero (BitVec.eq_of_toNat_eq h)
    simp only [hfield, if_false]
    rw [dif_neg (by omega)]
    refine finite_congr _ ?_ ?_
    · rw [← hfraction]
      exact toNat_implicit_append _
    · rw [hexponent]
      rfl

/-! ### Packing -/

/-- A double of the parts that stand for it. -/
def packed (u : UnpackedFloat) : Float := .ofModel (Float.Model.pack u)

theorem toBitVec_packed (u : UnpackedFloat) :
    (packed u).toModel.toBits.toBitVec = UnpackedFloat.pack Format.binary64 u := rfl

theorem fields_packed {u : UnpackedFloat} {e : BitVec 11} {m : BitVec 52}
    (h : UnpackedFloat.pack Format.binary64 u = packComponents Format.binary64 s e m) :
    exponentField (packed u) = e.toNat ∧ fractionField (packed u) = m.toNat ∧
      sign (packed u) = s := by
  have hexponent := toNat_unpackExponent (packed u).toModel.toBits.toBitVec
  have hfraction := toNat_unpackMantissa (packed u).toModel.toBits.toBitVec
  have hsign := sign_ofBitVec (packed u)
  rw [toBitVec_packed, h] at hexponent hfraction hsign
  rw [unpackExponent_packComponents, ← h, ← toBitVec_packed, toNat_toBitVec] at hexponent
  rw [unpackMantissa_packComponents, ← h, ← toBitVec_packed, toNat_toBitVec] at hfraction
  rw [unpackSign_packComponents, Sign.ofBitVec_toBitVec] at hsign
  exact ⟨hexponent.symm, hfraction.symm, hsign.symm⟩

theorem pack_finite {m : Nat} {e : Int} (h : 0 < m) (s : Sign) :
    UnpackedFloat.pack Format.binary64 (.finite s m e h) =
      if 2 ^ 11 ≤ (e + 1075).toNat + 1 then packComponents Format.binary64 s (-1#11) 0
      else if m.log2 = 52 then
        packComponents Format.binary64 s (BitVec.ofNat 11 (e + 1075).toNat) (BitVec.ofNat 52 m)
      else packComponents Format.binary64 s 0#11 (BitVec.ofNat 52 m) := by
  have hbias : e + Format.binary64.exponentBias + Format.binary64.mantissaBitsWithoutImplicit =
      e + 1075 := Int.add_assoc e 1023 52
  have hbits : m.log2 + 1 = Format.binary64.mantissaBits ↔ m.log2 = 52 := by
    show m.log2 + 1 = 1 + 52 ↔ _
    omega
  simp only [UnpackedFloat.pack, hbias, hbits]
  rfl

/-- **What is packed has the magnitude that it is packed from.** -/
theorem magnitude_packed (hd : d.Fits) (s : Sign) :
    isFinite (packed (d.unpacked s)) = true ∧ magnitude (packed (d.unpacked s)) = d ∧
      sign (packed (d.unpacked s)) = s := by
  obtain ⟨m, e⟩ := d
  obtain ⟨hlt, hleast, hgreatest, hnormal⟩ := hd
  simp only at hlt hleast hgreatest hnormal
  rw [isFinite_iff, magnitude_eq, Dyadic.unpacked]
  by_cases hzero : m = 0
  · obtain rfl : e = -1074 := hnormal.resolve_left (by omega)
    subst hzero
    obtain ⟨he, hf, hs⟩ := @fields_packed s (.zero s) 0 0 rfl
    rw [dif_pos rfl, he, hf]
    exact ⟨by decide, rfl, hs⟩
  have hpack := @pack_finite m e (Nat.pos_of_ne_zero hzero) s
  rw [if_neg (by omega)] at hpack
  rw [dif_neg hzero]
  split at hpack
  · next hlog =>
    obtain ⟨hlow, -⟩ := (Nat.log2_eq_iff hzero).1 hlog
    obtain ⟨he, hf, hs⟩ := fields_packed hpack
    have hexponent : (BitVec.ofNat 11 (e + 1075).toNat).toNat = (e + 1075).toNat := by
      rw [BitVec.toNat_ofNat]
      omega
    have hfraction : (BitVec.ofNat 52 m).toNat = m - 2 ^ 52 := by
      rw [BitVec.toNat_ofNat]
      omega
    have hm : 2 ^ 52 + (m - 2 ^ 52) = m := by omega
    have hpower : ((e + 1075).toNat : Int) - 1075 = e := by omega
    rw [he, hf, hexponent, hfraction, if_neg (by omega), hm, hpower]
    exact ⟨by omega, rfl, hs⟩
  · next hlog =>
    have hsmall : m < 2 ^ 52 := by
      by_contra hlarge
      exact hlog ((Nat.log2_eq_iff hzero).2 ⟨by omega, hlt⟩)
    obtain rfl : e = -1074 := hnormal.resolve_left (by omega)
    obtain ⟨he, hf, hs⟩ := fields_packed hpack
    have hfraction : (BitVec.ofNat 52 m).toNat = m := by
      rw [BitVec.toNat_ofNat]
      omega
    rw [he, hf, hfraction]
    exact ⟨by decide, rfl, hs⟩

end PlayerWatch.Number
