import HpmSdk.Foundation.FixedPoint
import HpmSdk.Foundation.Ticks
import HpmSdk.Pdma.Output

set_option autoImplicit false

/-!
# PDMA: scales (`hpm_pdma_drv.c`)

`pdma_calculate_scale` divides an extent by the extent it is scaled to.  Decimation takes out a
power of two, and the bilinear filter does the rest, with a scale of 12 bits behind the point that
may not be above 2.0.  The function decimates by the largest power that is below the whole part of
the ratio, and not by the least that leaves a scale in range.
-/

namespace HpmSdk.Pdma

open HpmSdk.Foundation

/-! ## The contract -/

/-- The ratio that a decimation and a scale make, in units of `1 / 4096`. -/
def pdmaRatio (r : PdmaDecimation × BitVec 32) : Nat := r.2.toNat * 2 ^ r.1.code.toNat

/-- The pair of the maximum ratio: a decimation by 8 and a scale of 2.0. -/
def pdmaMaxScale : PdmaDecimation × BitVec 32 := (.by8, 0x2000)

/-- What is asked of the pair for an extent: no division by zero, and no shift that loses bits; up
to a ratio of 16 the pair makes the ratio, less what the decimation drops of the extent and the
division of the quotient; the scale is at most 2.0; and beyond 16 it is the pair of that ratio. -/
structure PdmaScaleRight (t targetT : BitVec 32) (r : PdmaDecimation × BitVec 32) : Prop where
  divisor : targetT ≠ 0
  shift : ∀ dec : PdmaDecimation,
    ((t >>> dec.code.toNat) <<< 12).toNat = t.toNat / 2 ^ dec.code.toNat * 4096
  le : t.toNat ≤ 16 * targetT.toNat → pdmaRatio r * targetT.toNat ≤ t.toNat * 4096
  lt : t.toNat ≤ 16 * targetT.toNat → t.toNat * 4096 <
    (pdmaRatio r + 2 ^ r.1.code.toNat) * targetT.toNat + (2 ^ r.1.code.toNat - 1) * 4096
  range : r.2.toNat ≤ 0x2000
  limit : 16 * targetT.toNat < t.toNat → r = pdmaMaxScale

/-- What is asked of two extents that are scaled to the same one: both pairs are right, and the
larger extent does not have the smaller ratio. -/
structure PdmaScaleMeets (t t' targetT : BitVec 32) : Prop where
  right : PdmaScaleRight t targetT (pdmaCalculateScale t targetT)
  right' : PdmaScaleRight t' targetT (pdmaCalculateScale t' targetT)
  mono : t.toNat ≤ t'.toNat →
    pdmaRatio (pdmaCalculateScale t targetT) ≤ pdmaRatio (pdmaCalculateScale t' targetT)

/-- The exponent of the decimation for a whole ratio. -/
def pdmaDecimationExponent (whole : Nat) : Nat :=
  if 8 < whole then 3 else if 4 < whole then 2 else if 2 < whole then 1 else 0

/-- The ratios that come out right: the whole part is at most 16, and what decimation leaves of the
extent is at most twice the target, up to a unit of the scale. -/
def PdmaRatioFits (t targetT : Nat) : Prop :=
  t / targetT ≤ 16 ∧ t / 2 ^ pdmaDecimationExponent (t / targetT) * 4096 < 0x2001 * targetT

instance (t targetT : Nat) : Decidable (PdmaRatioFits t targetT) :=
  inferInstanceAs (Decidable (_ ∧ _))

/-! ## The pair for an extent -/

section Pair

variable {t targetT : BitVec 32}

/-- An extent has room for the shift. -/
theorem shift_scale {x : BitVec 32} (hx : x.toNat < 2 ^ 20) :
    (x <<< 12).toNat = x.toNat * 4096 := by
  rw [BitVec.toNat_shiftLeft, Nat.shiftLeft_eq]
  refine Nat.mod_eq_of_lt ?_
  show x.toNat * 4096 < 2 ^ 32
  omega

/-- The scale of a target behind a decimation. -/
theorem shift_dec (ht : t.toNat < 2 ^ 20) (dec : PdmaDecimation) :
    ((t >>> dec.code.toNat) <<< 12).toNat = t.toNat / 2 ^ dec.code.toNat * 4096 := by
  have hshift : (t >>> dec.code.toNat).toNat = t.toNat / 2 ^ dec.code.toNat := by
    rw [BitVec.toNat_ushiftRight, Nat.shiftRight_eq_div_pow]
  rw [shift_scale, hshift]
  rw [hshift]
  exact (Nat.div_le_self _ _).trans_lt ht

/-- The whole ratio. -/
theorem whole_toNat (ht : t.toNat < 2 ^ 20) (htarget : targetT ≠ 0) :
    (((t <<< 12).smtUDiv targetT) >>> 12).toNat = t.toNat / targetT.toNat := by
  rw [BitVec.toNat_ushiftRight, toNat_smtUDiv htarget, shift_scale ht, Nat.shiftRight_eq_div_pow,
    Nat.div_div_eq_div_mul]
  exact Nat.mul_div_mul_right _ _ (by decide)

/-- The pair that is given for a whole ratio. -/
theorem pdmaCalculateScale_cases (ht : t.toNat < 2 ^ 20) (htarget : targetT ≠ 0) :
    16 < t.toNat / targetT.toNat ∧ pdmaCalculateScale t targetT = (.by8, 2) ∨
      t.toNat / targetT.toNat ≤ 16 ∧
        (pdmaCalculateScale t targetT).1.code.toNat =
          pdmaDecimationExponent (t.toNat / targetT.toNat) ∧
        (pdmaCalculateScale t targetT).2.toNat =
          t.toNat / 2 ^ pdmaDecimationExponent (t.toNat / targetT.toNat) * 4096 /
            targetT.toNat := by
  have hwhole := whole_toNat ht htarget
  unfold pdmaCalculateScale
  dsimp only
  generalize ((t <<< 12).smtUDiv targetT) >>> 12 = tmp at hwhole ⊢
  rw [← hwhole]
  have hdec : (if tmp > 8 then PdmaDecimation.by8 else if tmp > 4 then .by4
      else if tmp > 2 then .by2 else .by1).code.toNat = pdmaDecimationExponent tmp.toNat := by
    unfold pdmaDecimationExponent
    simp only [gt_iff_lt, BitVec.lt_def, apply_ite PdmaDecimation.code, apply_ite BitVec.toNat]
    rfl
  by_cases hlarge : tmp > 16
  · rw [if_pos hlarge]
    exact .inl ⟨hlarge, rfl⟩
  · rw [if_neg hlarge]
    refine .inr ⟨Nat.not_lt.mp hlarge, hdec, ?_⟩
    rw [toNat_smtUDiv htarget, shift_dec ht, hdec]

end Pair

/-! ## Ratios -/

/-- Decimation leaves at least the target. -/
theorem lt_of_pdmaDecimationExponent {whole : Nat} (h : 0 < pdmaDecimationExponent whole) :
    2 ^ pdmaDecimationExponent whole < whole := by
  unfold pdmaDecimationExponent at h ⊢
  split_ifs at h ⊢ <;> omega

/-- A larger ratio is decimated by as much or more. -/
theorem pdmaDecimationExponent_mono {whole whole' : Nat} (h : whole ≤ whole') :
    pdmaDecimationExponent whole ≤ pdmaDecimationExponent whole' := by
  unfold pdmaDecimationExponent
  split_ifs <;> omega

section Ratio

variable {t t' target : Nat}

/-- The ratio that is made of an extent, in units of `1 / 4096`. -/
def madeRatio (t target : Nat) : Nat :=
  t / 2 ^ pdmaDecimationExponent (t / target) * 4096 / target *
    2 ^ pdmaDecimationExponent (t / target)

/-- A decimation that is taken leaves a scale of at least 1.0. -/
theorem le_madeRatio (htarget : 0 < target) (hdec : 0 < pdmaDecimationExponent (t / target)) :
    4096 * 2 ^ pdmaDecimationExponent (t / target) ≤ madeRatio t target := by
  refine Nat.mul_le_mul_right _ ((Nat.le_div_iff_mul_le htarget).mpr ?_)
  rw [Nat.mul_comm]
  refine Nat.mul_le_mul_right _ ((Nat.le_div_iff_mul_le (Nat.two_pow_pos _)).mpr ?_)
  rw [Nat.mul_comm, ← Nat.le_div_iff_mul_le htarget]
  exact (lt_of_pdmaDecimationExponent hdec).le

/-- Where the scale of the smaller extent is in range, the larger one has no smaller ratio. -/
theorem madeRatio_mono (htarget : 0 < target) (hle : t ≤ t')
    (hrange : t / 2 ^ pdmaDecimationExponent (t / target) * 4096 / target ≤ 0x2000) :
    madeRatio t target ≤ madeRatio t' target := by
  have hwhole : t / target ≤ t' / target := Nat.div_le_div_right hle
  rcases (pdmaDecimationExponent_mono hwhole).eq_or_lt with hsame | hmore
  · unfold madeRatio
    rw [← hsame]
    refine Nat.mul_le_mul_right _ (Nat.div_le_div_right (Nat.mul_le_mul_right _ ?_))
    exact Nat.div_le_div_right hle
  · have hpow : 2 ^ (pdmaDecimationExponent (t / target) + 1) ≤
        2 ^ pdmaDecimationExponent (t' / target) := Nat.pow_le_pow_right Nat.two_pos hmore
    calc madeRatio t target
        ≤ 0x2000 * 2 ^ pdmaDecimationExponent (t / target) := Nat.mul_le_mul_right _ hrange
      _ = 4096 * 2 ^ (pdmaDecimationExponent (t / target) + 1) := by rw [Nat.pow_succ]; ring
      _ ≤ 4096 * 2 ^ pdmaDecimationExponent (t' / target) := Nat.mul_le_mul_left _ hpow
      _ ≤ madeRatio t' target := le_madeRatio htarget (Nat.zero_lt_of_lt hmore)

end Ratio

/-! ## When the pairs are right -/

section Right

variable {t targetT : BitVec 32} {r : PdmaDecimation × BitVec 32}

theorem PdmaDecimation.code_injective : ∀ dec dec' : PdmaDecimation,
    dec.code.toNat = dec'.code.toNat → dec = dec' := by
  intro dec dec' h
  cases dec <;> cases dec' <;> first | rfl | exact absurd h (by decide)

/-- Beyond the maximum ratio, the scale is two units of what was meant as 2.0. -/
theorem not_right_of_large (htarget : 0 < targetT.toNat)
    (hwhole : 16 < t.toNat / targetT.toNat) : ¬ PdmaScaleRight t targetT (.by8, 2) := by
  intro h
  have hmore : 17 * targetT.toNat ≤ t.toNat := (Nat.le_div_iff_mul_le htarget).mp hwhole
  exact absurd (h.limit (by omega)) (by decide)

/-- A pair by the formula is right where its scale is in range. -/
theorem right_iff_of_formula (ht : t.toNat < 2 ^ 20) (htarget : targetT ≠ 0)
    (hwhole : t.toNat / targetT.toNat ≤ 16)
    (hdec : r.1.code.toNat = pdmaDecimationExponent (t.toNat / targetT.toNat))
    (hscale : r.2.toNat =
      t.toNat / 2 ^ pdmaDecimationExponent (t.toNat / targetT.toNat) * 4096 / targetT.toNat) :
    PdmaScaleRight t targetT r ↔ PdmaRatioFits t.toNat targetT.toNat := by
  have hpos : 0 < targetT.toNat := BitVec.toNat_pos_of_ne_zero htarget
  have hrange : r.2.toNat ≤ 0x2000 ↔
      t.toNat / 2 ^ pdmaDecimationExponent (t.toNat / targetT.toNat) * 4096 <
        0x2001 * targetT.toNat := by
    rw [hscale, ← Nat.lt_succ_iff, Nat.div_lt_iff_lt_mul hpos]
  rw [← hdec] at hscale
  constructor
  · intro h
    exact ⟨hwhole, hrange.mp h.range⟩
  · intro h
    have hle := hrange.mpr h.2
    refine ⟨htarget, shift_dec ht, fun _ => ?_, fun _ => ?_, hle, fun hlimit => ?_⟩
    · unfold pdmaRatio
      rw [hscale]
      exact coarse_quotient_le
    · unfold pdmaRatio
      rw [hscale]
      exact lt_coarse_quotient (Nat.two_pow_pos _) hpos
    · -- the whole ratio is 16, and an eighth of the extent is at least twice the target
      have hsixteen : 16 ≤ t.toNat / targetT.toNat := (Nat.le_div_iff_mul_le hpos).mpr hlimit.le
      rw [show t.toNat / targetT.toNat = 16 by omega] at hdec
      have heighth : 2 * targetT.toNat ≤ t.toNat / 2 ^ r.1.code.toNat := by
        rw [hdec]
        show 2 * targetT.toNat ≤ t.toNat / 8
        omega
      have hge : 0x2000 ≤ r.2.toNat := by
        rw [hscale, Nat.le_div_iff_mul_le hpos]
        omega
      have hby8 : r.1 = .by8 := PdmaDecimation.code_injective _ .by8 hdec
      have hmax : r.2 = 0x2000 := BitVec.eq_of_toNat_eq (Nat.le_antisymm hle hge)
      exact Prod.ext hby8 hmax

/-- When the pair of an extent is right, and its ratio. -/
theorem pdmaScaleRight_iff (ht : t.toNat < 2 ^ 20) (htarget : targetT ≠ 0) :
    (PdmaScaleRight t targetT (pdmaCalculateScale t targetT) ↔
        PdmaRatioFits t.toNat targetT.toNat) ∧
      (PdmaRatioFits t.toNat targetT.toNat →
        pdmaRatio (pdmaCalculateScale t targetT) = madeRatio t.toNat targetT.toNat) := by
  rcases pdmaCalculateScale_cases ht htarget with ⟨hwhole, heq⟩ | ⟨hwhole, hdec, hscale⟩
  · have hpos : 0 < targetT.toNat := BitVec.toNat_pos_of_ne_zero htarget
    have hnot : ¬ PdmaRatioFits t.toNat targetT.toNat := fun h => Nat.not_le.mpr hwhole h.1
    refine ⟨iff_of_false ?_ hnot, fun h => absurd h hnot⟩
    rw [heq]
    exact not_right_of_large hpos hwhole
  · refine ⟨right_iff_of_formula ht htarget hwhole hdec hscale, fun _ => ?_⟩
    unfold pdmaRatio madeRatio
    rw [hscale, hdec]

end Right

/-- Extents that fit their registers come out right exactly where the ratios fit.

The decimation is chosen by the whole part of the ratio, and the scale is what it leaves.  A ratio
just above a bound is decimated once too little, so that the scale is above its maximum; where it
is not, the product of the two is the ratio but for its rounding to a unit (`madeRatio`), and is
monotone in the extent. -/
theorem pdmaScaleMeets_iff (t t' targetT : BitVec 32) (ht : t.toNat < 2 ^ pdmaPsOrgWidth.width)
    (ht' : t'.toNat < 2 ^ pdmaPsOrgWidth.width) (htarget : targetT ≠ 0) :
    PdmaScaleMeets t t' targetT ↔
      PdmaRatioFits t.toNat targetT.toNat ∧ PdmaRatioFits t'.toNat targetT.toNat := by
  have hroom : 2 ^ pdmaPsOrgWidth.width < 2 ^ 20 := by decide
  obtain ⟨hright, hratio⟩ := pdmaScaleRight_iff (ht.trans hroom) htarget
  obtain ⟨hright', hratio'⟩ := pdmaScaleRight_iff (ht'.trans hroom) htarget
  constructor
  · intro h
    exact ⟨hright.mp h.right, hright'.mp h.right'⟩
  · rintro ⟨hfits, hfits'⟩
    have hpos : 0 < targetT.toNat := BitVec.toNat_pos_of_ne_zero htarget
    refine ⟨hright.mpr hfits, hright'.mpr hfits', fun hle => ?_⟩
    rw [hratio hfits, hratio' hfits']
    refine madeRatio_mono hpos hle (Nat.lt_succ_iff.mp ?_)
    exact (Nat.div_lt_iff_lt_mul hpos).mpr hfits.2

/-- 640 and 1600 pixels to 320: ratios of 2 and of 5. -/
theorem pdmaScaleMeets_double : PdmaScaleMeets 640 1600 320 :=
  (pdmaScaleMeets_iff 640 1600 320 (by decide) (by decide) (by decide)).mpr (by decide)

/-- 800 pixels to 320, a ratio of 2.5, get no decimation and a scale of 2.5; 5440 pixels, a ratio of
17, get a scale of `2 / 4096`, and so a smaller ratio than 800 have. -/
theorem pdmaScaleMeets_broken :
    pdmaCalculateScale 800 320 = (.by1, 0x2800) ∧ ¬ PdmaScaleMeets 800 800 320 ∧
      pdmaCalculateScale 5440 320 = (.by8, 2) ∧ ¬ PdmaScaleMeets 640 5440 320 := by
  have hsmall : pdmaCalculateScale 800 320 = (.by1, 0x2800) := by decide
  have hlarge : pdmaCalculateScale 5440 320 = (.by8, 2) := by decide
  refine ⟨hsmall, fun h => ?_, hlarge, fun h => ?_⟩
  · have hrange := h.right.range
    rw [hsmall] at hrange
    exact absurd hrange (by decide)
  · have hlimit := h.right'.limit (by decide)
    rw [hlarge] at hlimit
    exact absurd hlimit (by decide)

end HpmSdk.Pdma
