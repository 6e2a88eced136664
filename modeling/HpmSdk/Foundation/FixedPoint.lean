import Mathlib.Algebra.Order.Floor.Semifield
import Mathlib.Data.Rat.Floor
import Mathlib.Tactic.FieldSimp
import Mathlib.Tactic.Ring

set_option autoImplicit false

/-!
# Foundation: a multiplier in fixed point

A clock divided by `n` and rounded down is to be multiplied up to a frequency.  The multiplier is
the exact quotient `freq * n / clk`, rounded down to units of `1 / scale`; the product rounded down
is then not above the frequency, and below it by little more than the truncation of the clock.
-/

namespace HpmSdk.Foundation

/-- The multiplier, in units of `1 / scale`. -/
def fixedPoint (clk n freq scale : Nat) : Nat := freq * n * scale / clk

variable {clk n freq scale : Nat}

/-- The product is not above the frequency. -/
theorem mul_fixedPoint_le (hclk : 0 < clk) (hn : 0 < n) :
    clk / n * fixedPoint clk n freq scale / scale ≤ freq := by
  refine Nat.div_le_of_le_mul (Nat.le_of_mul_le_mul_left ?_ (Nat.mul_pos hn hclk))
  calc n * clk * (clk / n * fixedPoint clk n freq scale)
      = clk / n * n * (fixedPoint clk n freq scale * clk) := by ring
    _ ≤ clk * (freq * n * scale) :=
        Nat.mul_le_mul (Nat.div_mul_le_self clk n) (Nat.div_mul_le_self _ clk)
    _ = n * clk * (scale * freq) := by ring

/-- What the product lacks: a unit of the result, one of the multiplier, and for each unit of the
multiplier what the division of the clock dropped. -/
theorem freq_lt_mul_fixedPoint (hclk : 0 < clk) (hscale : 0 < scale) :
    freq * n * scale <
      n * ((clk / n * fixedPoint clk n freq scale / scale + 1) * scale + clk / n) +
        clk % n * (fixedPoint clk n freq scale + 1) := by
  have hunit : freq * n * scale < (fixedPoint clk n freq scale + 1) * clk :=
    (Nat.div_lt_iff_lt_mul hclk).mp (Nat.lt_succ_self _)
  have hproduct : clk / n * fixedPoint clk n freq scale <
      (clk / n * fixedPoint clk n freq scale / scale + 1) * scale :=
    (Nat.div_lt_iff_lt_mul hscale).mp (Nat.lt_succ_self _)
  calc freq * n * scale < (fixedPoint clk n freq scale + 1) * clk := hunit
    _ = (fixedPoint clk n freq scale + 1) * (n * (clk / n) + clk % n) := by
        rw [Nat.div_add_mod]
    _ = n * (clk / n * fixedPoint clk n freq scale + clk / n) +
        clk % n * (fixedPoint clk n freq scale + 1) := by ring
    _ ≤ _ := by
        apply Nat.add_le_add_right
        apply Nat.mul_le_mul_left
        exact Nat.add_le_add_right hproduct.le _

/-- The multiplier as a whole part, not above it, and a fraction. -/
theorem fixedPoint_eq {whole : Nat} (hclk : 0 < clk) (hwhole : whole * clk ≤ freq * n) :
    fixedPoint clk n freq scale =
      whole * scale + ⌊((freq : ℚ) / clk * n - whole) * scale⌋₊ := by
  have hexact : ((freq : ℚ) / clk * n - whole) * scale =
      ((freq * n - whole * clk) * scale : ℕ) / (clk : ℚ) := by
    have hne : (clk : ℚ) ≠ 0 := Nat.cast_ne_zero.mpr hclk.ne'
    rw [Nat.cast_mul, Nat.cast_sub hwhole, Nat.cast_mul, Nat.cast_mul]
    field_simp
  rw [hexact, Nat.floor_div_eq_div, Nat.sub_mul, fixedPoint]
  have hmul : whole * clk * scale = clk * (whole * scale) := by ring
  have hle : clk * (whole * scale) ≤ freq * n * scale := by
    rw [← hmul]
    exact Nat.mul_le_mul_right scale hwhole
  rw [hmul, Nat.sub_mul_div, Nat.add_sub_cancel']
  exact (Nat.le_div_iff_mul_le hclk).mpr (by rwa [Nat.mul_comm])

/-- A multiplier below a whole number. -/
theorem fixedPoint_lt {bound : Nat} (hclk : 0 < clk) (hscale : 0 < scale)
    (h : freq * n < bound * clk) : fixedPoint clk n freq scale < bound * scale := by
  refine (Nat.div_lt_iff_lt_mul hclk).mpr ?_
  calc freq * n * scale < bound * clk * scale := Nat.mul_lt_mul_of_pos_right h hscale
    _ = bound * scale * clk := by ring

/-- The whole part of a quotient by the clock rounded down is above the multiplier or less than one
below it. -/
theorem lt_succ_quotient {d : Nat} (hd : 0 < d) (hle : d * n ≤ clk) (hclk : 0 < clk) :
    freq * n < (freq / d + 1) * clk := by
  have hlt : freq < (freq / d + 1) * d := (Nat.div_lt_iff_lt_mul hd).mp (Nat.lt_succ_self _)
  rcases Nat.eq_zero_or_pos n with rfl | hn
  · exact Nat.mul_pos (Nat.succ_pos _) hclk
  · calc freq * n < (freq / d + 1) * d * n := Nat.mul_lt_mul_of_pos_right hlt hn
      _ = (freq / d + 1) * (d * n) := Nat.mul_assoc _ _ _
      _ ≤ (freq / d + 1) * clk := Nat.mul_le_mul_left _ hle

/-! ## A dividend without its low part -/

section Coarse

variable {t m target : Nat}

/-- A quotient of a dividend in steps of `m` is not above the exact one. -/
theorem coarse_quotient_le : t / m * scale / target * m * target ≤ t * scale := by
  calc t / m * scale / target * m * target
      = t / m * scale / target * target * m := Nat.mul_right_comm _ _ _
    _ ≤ t / m * scale * m := Nat.mul_le_mul_right m (Nat.div_mul_le_self _ target)
    _ = t / m * m * scale := Nat.mul_right_comm _ _ _
    _ ≤ t * scale := Nat.mul_le_mul_right scale (Nat.div_mul_le_self t m)

/-- What it lacks: a unit of the quotient in steps of `m`, and what the dividend lost. -/
theorem lt_coarse_quotient (hm : 0 < m) (htarget : 0 < target) :
    t * scale < (t / m * scale / target * m + m) * target + (m - 1) * scale := by
  have hstep : t ≤ t / m * m + (m - 1) := by
    have hmod := Nat.mod_lt t hm
    have hdiv := Nat.div_add_mod' t m
    omega
  have hunit : t / m * scale < (t / m * scale / target + 1) * target :=
    (Nat.div_lt_iff_lt_mul htarget).mp (Nat.lt_succ_self _)
  calc t * scale ≤ (t / m * m + (m - 1)) * scale := Nat.mul_le_mul_right scale hstep
    _ = t / m * scale * m + (m - 1) * scale := by rw [Nat.add_mul, Nat.mul_right_comm]
    _ < (t / m * scale / target + 1) * target * m + (m - 1) * scale :=
        Nat.add_lt_add_right (Nat.mul_lt_mul_of_pos_right hunit hm) _
    _ = (t / m * scale / target * m + m) * target + (m - 1) * scale := by ring

end Coarse

end HpmSdk.Foundation
