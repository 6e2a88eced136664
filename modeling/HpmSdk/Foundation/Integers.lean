import Mathlib.Algebra.Order.Ring.Int

set_option autoImplicit false

/-!
# Foundation: words that stand for integers

Sums and differences of words stand for those of integers, whatever wraps on the way.  A word read
as unsigned, or as signed, is the integer that it stands for where that is in range.
-/

namespace HpmSdk.Foundation

variable {n : Nat} {v w : BitVec n} {x y : Int}

/-- A word has the lower bits of an integer. -/
def StandsFor (w : BitVec n) (x : Int) : Prop := w = BitVec.ofInt n x

/-- A word stands for its unsigned value. -/
theorem standsFor_toNat (w : BitVec n) : StandsFor w w.toNat := by
  unfold StandsFor
  rw [BitVec.ofInt_natCast, BitVec.ofNat_toNat, BitVec.setWidth_eq]

theorem standsFor_zero : StandsFor (0#n) 0 := standsFor_toNat 0#n

namespace StandsFor

/-- A sum of words stands for the sum, also where it wraps. -/
theorem add (hv : StandsFor v x) (hw : StandsFor w y) : StandsFor (v + w) (x + y) := by
  unfold StandsFor at hv hw ⊢
  rw [hv, hw, BitVec.ofInt_add]

/-- A difference of words stands for the difference, also where it wraps. -/
theorem sub (hv : StandsFor v x) (hw : StandsFor w y) : StandsFor (v - w) (x - y) := by
  unfold StandsFor at hv hw ⊢
  rw [hv, hw, Int.sub_eq_add_neg, BitVec.ofInt_add, BitVec.ofInt_neg, BitVec.sub_eq_add_neg]

theorem congr (hw : StandsFor w x) (hxy : x = y) : StandsFor w y := hxy ▸ hw

/-- Read as unsigned. -/
theorem toNat_eq_iff (hw : StandsFor w x) : (w.toNat : Int) = x ↔ 0 ≤ x ∧ x < 2 ^ n := by
  constructor
  · intro h
    have hlt : (w.toNat : Int) < ((2 ^ n : Nat) : Int) := Int.ofNat_lt.mpr w.isLt
    rw [Nat.cast_pow, h] at hlt
    exact ⟨h ▸ Int.natCast_nonneg _, hlt⟩
  · rintro ⟨hpos, hlt⟩
    have hmod : 0 ≤ x % ((2 ^ n : Nat) : Int) := 
      Int.emod_nonneg _ (Int.natCast_ne_zero.mpr (Nat.two_pow_pos n).ne')
    unfold StandsFor at hw
    rw [hw, BitVec.toNat_ofInt, Int.toNat_of_nonneg hmod]
    refine Int.emod_eq_of_lt hpos ?_
    rw [Nat.cast_pow]
    exact hlt

/-- Read as signed. -/
theorem toInt_eq (hn : 0 < n) (hw : StandsFor w x) (hge : -2 ^ (n - 1) ≤ x)
    (hlt : x < 2 ^ (n - 1)) : w.toInt = x := by
  unfold StandsFor at hw
  rw [hw]
  exact BitVec.toInt_ofInt_eq_self hn hge hlt

end StandsFor

end HpmSdk.Foundation
