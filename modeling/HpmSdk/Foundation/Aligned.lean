import HpmSdk.Foundation.Bits

set_option autoImplicit false

/-!
# Foundation: alignment to powers of two

A word is aligned where the bits under a power of two are zero.  Masking these bits tests the
alignment, masking them out rounds down.  The bits that are free in an aligned word have room for
a tag.
-/

namespace HpmSdk.Foundation

variable {n k : Nat}

theorem toNat_one_shiftLeft (hk : k < n) : (1#n <<< k).toNat = 2 ^ k := by
  have hone : 1 < 2 ^ n := Nat.one_lt_two_pow (by omega)
  rw [BitVec.toNat_shiftLeft, BitVec.toNat_ofNat, Nat.mod_eq_of_lt hone, Nat.one_shiftLeft,
    Nat.mod_eq_of_lt (Nat.pow_lt_pow_right Nat.one_lt_two hk)]

theorem toNat_one_shiftLeft_sub_one (hk : k < n) : (1#n <<< k - 1#n).toNat = 2 ^ k - 1 := by
  have hone : 1 < 2 ^ n := Nat.one_lt_two_pow (by omega)
  have hle : 1#n ≤ 1#n <<< k := by
    rw [BitVec.le_def, toNat_one_shiftLeft hk, BitVec.toNat_ofNat, Nat.mod_eq_of_lt hone]
    exact Nat.one_le_two_pow
  rw [BitVec.toNat_sub_of_le hle, toNat_one_shiftLeft hk, BitVec.toNat_ofNat, Nat.mod_eq_of_lt hone]

/-- The bits under a power of two. -/
theorem toNat_and_mask (v : BitVec n) (hk : k < n) :
    (v &&& (1#n <<< k - 1#n)).toNat = v.toNat % 2 ^ k := by
  rw [BitVec.toNat_and, toNat_one_shiftLeft_sub_one hk, Nat.and_two_pow_sub_one_eq_mod]

/-- A word is aligned where the bits under the power are zero. -/
theorem and_mask_eq_zero_iff_dvd (v : BitVec n) (hk : k < n) :
    v &&& (1#n <<< k - 1#n) = 0#n ↔ 2 ^ k ∣ v.toNat := by
  rw [← BitVec.toNat_inj, toNat_and_mask v hk, BitVec.toNat_ofNat, Nat.zero_mod,
    Nat.dvd_iff_mod_eq_zero]

/-- The mask of an alignment has the bits under the power of two, and no others. -/
theorem getLsbD_lowMask (hk : k < n) (i : Nat) :
    (1#n <<< k - 1#n).getLsbD i = decide (i < k) := by
  rw [BitVec.getLsbD, toNat_one_shiftLeft_sub_one hk, Nat.testBit_two_pow_sub_one]

/-- Masking the bits out rounds down. -/
theorem toNat_and_not_mask (v : BitVec n) (hk : k < n) :
    (v &&& ~~~(1#n <<< k - 1#n)).toNat = v.toNat / 2 ^ k * 2 ^ k := by
  refine Nat.eq_of_testBit_eq ?_
  intro i
  rw [← Nat.shiftRight_eq_div_pow, ← Nat.shiftLeft_eq, Nat.testBit_shiftLeft,
    Nat.testBit_shiftRight, BitVec.testBit_toNat, BitVec.getLsbD_and, BitVec.getLsbD_not,
    getLsbD_lowMask hk, ← BitVec.testBit_toNat]
  rcases Nat.lt_or_ge i k with hlt | hge
  · simp [hlt, Nat.not_le.mpr hlt]
  · rw [Nat.add_sub_cancel' hge]
    rcases Nat.lt_or_ge i n with hin | hout
    · simp [hge, hin, Nat.not_lt.mpr hge]
    · have hbit : v.toNat.testBit i = false :=
        Nat.testBit_lt_two_pow (Nat.lt_of_lt_of_le v.isLt (Nat.pow_le_pow_right Nat.two_pos hout))
      simp [hbit]

section Tag

variable {a tag mask bits : BitVec n}

/-- An aligned word without its tag. -/
theorem or_tag_and_not_mask (ha : a &&& mask = 0#n) (htag : tag &&& ~~~mask = 0#n) :
    (a ||| tag) &&& ~~~mask = a := by
  have hself : a &&& ~~~mask = a :=
    calc a &&& ~~~mask = (a &&& mask) ||| (a &&& ~~~mask) := by rw [ha, BitVec.zero_or]
      _ = a &&& (mask ||| ~~~mask) := (BitVec.and_or_distrib_left ..).symm
      _ = a := by rw [BitVec.or_not_self, BitVec.and_allOnes]
  rw [BitVec.and_or_distrib_right, htag, BitVec.or_zero, hself]

/-- The bits of the tag. -/
theorem or_tag_and (ha : a &&& mask = 0#n) (hbits : mask &&& bits = bits) :
    (a ||| tag) &&& bits = tag &&& bits := by
  have hfree : a &&& bits = 0#n := by
    rw [← hbits, ← BitVec.and_assoc, ha, BitVec.zero_and]
  rw [BitVec.and_or_distrib_right, hfree, BitVec.zero_or]

end Tag

end HpmSdk.Foundation
