import Mathlib.Data.Nat.Basic
import Mathlib.Tactic.Ring

set_option autoImplicit false

/-!
# Foundation: times in truncated ticks

The tick of a clock is a second divided by the frequency.  Where it is truncated to a whole number
it is too short by less than one, so a time that is divided by it takes too many ticks, up to the
one that the last division truncates.
-/

namespace HpmSdk.Foundation

variable {second freq : Nat}

/-- The tick is too short by less than one. -/
theorem second_lt_tick_succ_mul (hfreq : 0 < freq) : second < (second / freq + 1) * freq :=
  (Nat.div_lt_iff_lt_mul hfreq).mp (Nat.lt_succ_self _)

/-- The ticks of a time and one more last longer than the time. -/
theorem ticks_last (hfreq : 0 < freq) (htick : second / freq ≠ 0) (time : Nat) :
    time * freq < second * (time / (second / freq) + 1) := by
  have htime : time < (time / (second / freq) + 1) * (second / freq) :=
    second_lt_tick_succ_mul (Nat.pos_of_ne_zero htick)
  calc time * freq < (time / (second / freq) + 1) * (second / freq) * freq :=
        Nat.mul_lt_mul_of_pos_right htime hfreq
    _ = second / freq * freq * (time / (second / freq) + 1) := by ring
    _ ≤ second * (time / (second / freq) + 1) :=
        Nat.mul_le_mul_right _ (Nat.div_mul_le_self second freq)

/-- A truncated tick has as many units as the exact one where what it lost does not reach the next
unit. -/
theorem truncated_units_iff {num den : Nat} (hfreq : 0 < freq) (hden : 0 < den) :
    second / freq * num / den = second * num / (freq * den) ↔
      second / freq * num % den + second % freq * num / freq < den := by
  have hexact : second * num / freq = second / freq * num + second % freq * num / freq := by
    rw [← Nat.mul_add_div hfreq]
    refine congrArg (· / freq) ?_
    calc second * num = (freq * (second / freq) + second % freq) * num := by
          rw [Nat.div_add_mod]
      _ = freq * (second / freq * num) + second % freq * num := by ring
  rw [← Nat.div_div_eq_div_mul, hexact]
  have hsplit := Nat.div_add_mod (second / freq * num) den
  generalize second / freq * num = whole at hsplit ⊢
  generalize second % freq * num / freq = lost
  constructor
  · intro heq
    have hlt : whole + lost < (whole / den + 1) * den := by
      rw [heq]
      exact (Nat.div_lt_iff_lt_mul hden).mp (Nat.lt_succ_self _)
    rw [Nat.add_mul, Nat.mul_comm] at hlt
    omega
  · intro hlt
    refine (Nat.div_eq_of_lt_le ?_ ?_).symm
    · rw [Nat.mul_comm]
      omega
    · rw [Nat.succ_mul, Nat.mul_comm]
      omega

/-- A division that has a result for every divisor, by one that is not zero. -/
theorem toNat_smtUDiv {n : Nat} {x y : BitVec n} (hy : y ≠ 0#n) :
    (x.smtUDiv y).toNat = x.toNat / y.toNat := by
  rw [BitVec.smtUDiv_eq, if_neg hy, BitVec.toNat_udiv]

end HpmSdk.Foundation
