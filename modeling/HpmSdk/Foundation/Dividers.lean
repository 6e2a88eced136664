import Mathlib.Algebra.Order.Field.Rat
import Mathlib.Algebra.Order.Floor.Div
import Mathlib.Data.Nat.Cast.Order.Field
import Mathlib.Tactic.Ring

set_option autoImplicit false

/-!
# Foundation: dividers of a clock

A divider makes a rate of a clock.  The rate falls as the divider grows, so the fastest rate
within a limit is that of the least divider within it, the quotient rounded up; the quotient
rounded down is the last divider whose rate is not below the limit.
-/

namespace HpmSdk.Foundation

/-- What is left of a clock behind a divider. -/
def rate (clk d : Nat) : ℚ := clk / d

variable {clk d e limit : Nat}

/-- Whether a rate is within a limit, without the division. -/
theorem rate_le_iff (hd : 0 < d) : rate clk d ≤ limit ↔ clk ≤ limit * d := by
  unfold rate
  rw [div_le_iff₀ (Nat.cast_pos.mpr hd)]
  exact_mod_cast Iff.rfl

/-- Whether a rate reaches a limit, without the division. -/
theorem le_rate_iff (hd : 0 < d) : limit ≤ rate clk d ↔ limit * d ≤ clk := by
  unfold rate
  rw [le_div_iff₀ (Nat.cast_pos.mpr hd)]
  exact_mod_cast Iff.rfl

theorem rate_lt_iff (hd : 0 < d) : rate clk d < limit ↔ clk < limit * d := by
  rw [← not_le, le_rate_iff hd, not_le]

/-- The larger the divider the lower the rate. -/
theorem rate_le_rate (hd : 0 < d) (h : d ≤ e) : rate clk e ≤ rate clk d :=
  div_le_div_of_nonneg_left (Nat.cast_nonneg clk) (Nat.cast_pos.mpr hd) (Nat.cast_le.mpr h)

/-- The quotient rounded up is the least divider within a limit. -/
theorem isLeast_ceilDiv (hclk : 0 < clk) (hlimit : 0 < limit) :
    IsLeast {d | 0 < d ∧ rate clk d ≤ limit} (clk ⌈/⌉ limit) := by
  have hpos : 0 < clk ⌈/⌉ limit := by
    by_contra h
    have hle := (ceilDiv_le_iff_le_mul hlimit).mp (Nat.le_of_not_lt h)
    omega
  refine ⟨⟨hpos, (rate_le_iff hpos).mpr ((ceilDiv_le_iff_le_mul hlimit).mp le_rfl)⟩, ?_⟩
  rintro d ⟨hd, hrate⟩
  exact (ceilDiv_le_iff_le_mul hlimit).mpr ((rate_le_iff hd).mp hrate)

/-- A quotient that is not exact, and one more, is the quotient rounded up. -/
theorem ceilDiv_eq (hlimit : 0 < limit) :
    clk ⌈/⌉ limit = if clk / limit * limit < clk then clk / limit + 1 else clk / limit := by
  have hle : clk / limit * limit ≤ clk := Nat.div_mul_le_self clk limit
  have hlt : clk < limit * (clk / limit + 1) := by
    rw [Nat.mul_comm]
    exact (Nat.div_lt_iff_lt_mul hlimit).mp (Nat.lt_succ_self _)
  refine le_antisymm ((ceilDiv_le_iff_le_mul hlimit).mpr ?_) ?_
  · split
    · exact hlt.le
    · rw [Nat.mul_comm]
      omega
  · have hceil : clk ≤ limit * (clk ⌈/⌉ limit) := (ceilDiv_le_iff_le_mul hlimit).mp le_rfl
    split
    · rename_i hrest
      by_contra h
      have hmul : limit * (clk ⌈/⌉ limit) ≤ limit * (clk / limit) :=
        Nat.mul_le_mul_left _ (by omega)
      rw [Nat.mul_comm limit (clk / limit)] at hmul
      omega
    · refine Nat.le_of_mul_le_mul_left ?_ hlimit
      rw [Nat.mul_comm limit (clk / limit)]
      omega

/-- The quotient rounded up by its bounds. -/
theorem ceilDiv_eq_succ_iff (hlimit : 0 < limit) :
    clk ⌈/⌉ limit = d + 1 ↔ limit * d < clk ∧ clk ≤ limit * (d + 1) := by
  rw [← ceilDiv_le_iff_le_mul hlimit, ← not_le, ← ceilDiv_le_iff_le_mul hlimit]
  omega

/-- Two limits have one least divider where the clock lies between the same multiples of both. -/
theorem ceilDiv_eq_ceilDiv_iff {limit' : Nat} (hclk : 0 < clk) (hlimit : 0 < limit)
    (hlimit' : 0 < limit') :
    clk ⌈/⌉ limit = clk ⌈/⌉ limit' ↔ ∃ d, (limit * d < clk ∧ clk ≤ limit * (d + 1)) ∧
      limit' * d < clk ∧ clk ≤ limit' * (d + 1) := by
  constructor
  · intro h
    have hpos : 0 < clk ⌈/⌉ limit := (isLeast_ceilDiv hclk hlimit).1.1
    obtain ⟨d, hd⟩ := Nat.exists_eq_succ_of_ne_zero hpos.ne'
    exact ⟨d, (ceilDiv_eq_succ_iff hlimit).mp hd, (ceilDiv_eq_succ_iff hlimit').mp (h ▸ hd)⟩
  · rintro ⟨d, hd, hd'⟩
    rw [(ceilDiv_eq_succ_iff hlimit).mpr hd, (ceilDiv_eq_succ_iff hlimit').mpr hd']

/-! ## Two dividers in a row -/

section Cascade

variable {pre : Nat}

/-- Behind a first divider, the quotient rounded down does not fall below the limit. -/
theorem le_rate_mul_div (hpre : 0 < pre) (hquot : 0 < clk / (limit * pre)) :
    limit ≤ rate clk (pre * (clk / (limit * pre))) := by
  rw [le_rate_iff (Nat.mul_pos hpre hquot), ← Nat.mul_assoc]
  exact Nat.mul_div_le clk (limit * pre)

/-- And one more does. -/
theorem rate_mul_succ_div_lt (hpre : 0 < pre) (hlimit : 0 < limit) :
    rate clk (pre * (clk / (limit * pre) + 1)) < limit := by
  rw [rate_lt_iff (Nat.mul_pos hpre (Nat.succ_pos _)), ← Nat.mul_assoc, Nat.mul_comm]
  exact (Nat.div_lt_iff_lt_mul (Nat.mul_pos hlimit hpre)).mp (Nat.lt_succ_self _)

end Cascade

end HpmSdk.Foundation
