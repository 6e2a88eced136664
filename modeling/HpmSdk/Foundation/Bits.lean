import Mathlib.Tactic.Common
import Mathlib.Tactic.Ring

set_option autoImplicit false

/-!
# Fields of a word

A field of a word is given by its first bit and its width.  Masking a word and
shifting it is the same as taking the field out by division and remainder.
-/

namespace HpmSdk.Foundation

/-- The value of the field of `width` bits at bit `first`. -/
def field (first width : Nat) (word : Nat) : Nat := word / 2 ^ first % 2 ^ width

/-- The mask of a field. -/
def fieldMask (first width : Nat) : Nat := (2 ^ width - 1) * 2 ^ first

/-- The mask of a field has the bits of the field. -/
theorem testBit_fieldMask (first width i : Nat) :
    (fieldMask first width).testBit i = decide (first ≤ i ∧ i < first + width) := by
  unfold fieldMask
  rw [Nat.testBit_mul_two_pow, Nat.testBit_two_pow_sub_one, ← Bool.decide_and]
  refine decide_eq_decide.mpr ?_
  omega

/-- Bit `i` of a field is bit `first + i` of the word. -/
theorem testBit_field (first width word i : Nat) :
    (field first width word).testBit i = (decide (i < width) && word.testBit (first + i)) := by
  unfold field
  rw [Nat.testBit_mod_two_pow, Nat.testBit_div_two_pow, Nat.add_comm]

/-- Masking keeps the field in its place. -/
theorem and_fieldMask (first width word : Nat) :
    word &&& fieldMask first width = field first width word * 2 ^ first := by
  refine Nat.eq_of_testBit_eq fun i => ?_
  rw [Nat.testBit_and, testBit_fieldMask, Nat.testBit_mul_two_pow, testBit_field]
  by_cases hi : first ≤ i
  · rw [show first + (i - first) = i by omega]
    by_cases hw : i < first + width
    · simp [hi, hw, show i - first < width by omega]
    · simp [hw, show ¬ i - first < width by omega]
  · simp [hi]

/-- Masking and shifting down takes the field out. -/
theorem and_fieldMask_shiftRight (first width word : Nat) :
    (word &&& fieldMask first width) >>> first = field first width word := by
  rw [and_fieldMask, Nat.shiftRight_eq_div_pow, Nat.mul_div_cancel _ (Nat.two_pow_pos first)]

theorem field_lt (first width word : Nat) : field first width word < 2 ^ width :=
  Nat.mod_lt _ (Nat.two_pow_pos width)

/-- A field that reaches to the end of the word is what is above its first bit. -/
theorem field_of_lt {first width word : Nat} (h : word < 2 ^ (first + width)) :
    field first width word = word / 2 ^ first := by
  refine Nat.mod_eq_of_lt (Nat.div_lt_of_lt_mul ?_)
  rwa [← Nat.pow_add]

/-- A field of a field is a field of the word. -/
theorem field_field {first low high : Nat} (offset : Nat) (h : offset + low ≤ high) (word : Nat) :
    field offset low (field first high word) = field (first + offset) low word := by
  refine Nat.eq_of_testBit_eq fun i => ?_
  rw [testBit_field, testBit_field, testBit_field, Nat.add_assoc]
  by_cases hi : i < low
  · have hlt : offset + i < high := by omega
    simp [hi, hlt]
  · simp [hi]

/-- A field of a shifted word is a field of the word further up. -/
theorem field_shiftRight (first width k word : Nat) :
    field first width (word >>> k) = field (k + first) width word := by
  unfold field
  rw [Nat.shiftRight_eq_div_pow, Nat.div_div_eq_div_mul, ← Nat.pow_add]

/-- A field is its upper part behind its lower part. -/
theorem field_append (first low high word : Nat) :
    field first (low + high) word =
      field (first + low) high word * 2 ^ low + field first low word := by
  unfold field
  rw [Nat.pow_add 2 low high, Nat.mod_mul, Nat.div_div_eq_div_mul, ← Nat.pow_add, Nat.add_comm,
    Nat.mul_comm]

section Words

variable {n : Nat} {word mask : BitVec n} {first width : Nat}

/-- A mask and a shift of a word take a field out. -/
theorem maskShift_toNat (hmask : mask.toNat = fieldMask first width) :
    ((word &&& mask) >>> first).toNat = field first width word.toNat := by
  rw [BitVec.toNat_ushiftRight, BitVec.toNat_and, hmask, and_fieldMask_shiftRight]

/-- A cast that is wide enough keeps the field. -/
theorem maskShift_setWidth_toNat {m : Nat} (hmask : mask.toNat = fieldMask first width)
    (hm : width ≤ m) :
    (((word &&& mask) >>> first).setWidth m).toNat = field first width word.toNat := by
  rw [BitVec.toNat_setWidth, maskShift_toNat hmask]
  exact Nat.mod_eq_of_lt (Nat.lt_of_lt_of_le (field_lt _ _ _) (Nat.pow_le_pow_right Nat.two_pos hm))

/-- A field at the start of a word needs no shift. -/
theorem mask_toNat (hmask : mask.toNat = fieldMask 0 width) :
    (word &&& mask).toNat = field 0 width word.toNat :=
  maskShift_toNat hmask

/-- Masking and cutting to a type that holds the field takes the field out. -/
theorem mask_setWidth_toNat {m : Nat} (hmask : mask.toNat = fieldMask 0 width) (hm : width ≤ m) :
    ((word &&& mask).setWidth m).toNat = field 0 width word.toNat :=
  maskShift_setWidth_toNat hmask hm

theorem field_one_ne_zero_iff (first word : Nat) :
    field first 1 word ≠ 0 ↔ field first 1 word = 1 := by
  have hlt := field_lt first 1 word
  omega

/-- A masked bit is not zero where the bit is set. -/
theorem mask_ne_zero_iff (hmask : mask.toNat = fieldMask first 1) :
    word &&& mask ≠ 0 ↔ field first 1 word.toNat = 1 := by
  rw [← field_one_ne_zero_iff, not_iff_not, ← BitVec.toNat_inj, BitVec.toNat_and, hmask,
    and_fieldMask]
  exact Nat.mul_eq_zero.trans (or_iff_left (Nat.ne_of_gt (Nat.two_pow_pos first)))

/-- A flag that is masked, shifted and tested for not being 0 is the bit of the word. -/
theorem maskShift_setWidth_ne_zero_iff {m : Nat} (hmask : mask.toNat = fieldMask first 1)
    (hm : 1 ≤ m) :
    ((word &&& mask) >>> first).setWidth m ≠ 0 ↔ field first 1 word.toNat = 1 := by
  rw [← field_one_ne_zero_iff, not_iff_not, ← BitVec.toNat_inj,
    maskShift_setWidth_toNat hmask hm]
  rfl

/-- Two parts are put together by a shift and an or. -/
theorem shiftLeft_or_toNat {high low : BitVec n} {k : Nat} (hlow : low.toNat < 2 ^ k)
    (hhigh : high.toNat * 2 ^ k < 2 ^ n) :
    ((high <<< k) ||| low).toNat = high.toNat * 2 ^ k + low.toNat := by
  rw [BitVec.toNat_or, BitVec.toNat_shiftLeft, Nat.shiftLeft_eq, Nat.mod_eq_of_lt hhigh,
    ← Nat.shiftLeft_eq, Nat.shiftLeft_add_eq_or_of_lt hlow]

/-- A field of a slice is a field of the whole. -/
theorem field_extractLsb' (k : Nat) (hin : first + width ≤ 32) :
    field first width (word.extractLsb' k 32).toNat = field (k + first) width word.toNat := by
  refine Nat.eq_of_testBit_eq fun i => ?_
  rw [testBit_field, testBit_field, BitVec.testBit_toNat, BitVec.testBit_toNat,
    BitVec.getLsbD_extractLsb', Nat.add_assoc]
  by_cases hi : i < width
  · have hlt : first + i < 32 := by omega
    simp [hi, hlt]
  · simp [hi]

/-- Clearing the bits below a field keeps it. -/
theorem field_cleared (k : Nat) (hk : k ≤ first) (hin : first + width ≤ n) :
    field first width (word >>> k <<< k).toNat = field first width word.toNat := by
  refine Nat.eq_of_testBit_eq fun i => ?_
  rw [testBit_field, testBit_field, BitVec.testBit_toNat, BitVec.testBit_toNat,
    BitVec.getLsbD_shiftLeft, BitVec.getLsbD_ushiftRight]
  by_cases hi : i < width
  · have hlow : ¬ first + i < k := by omega
    have hlt : first + i < n := by omega
    have hback : k + (first + i - k) = first + i := by omega
    simp [hi, hlow, hlt, hback]
  · simp [hi]

end Words

end HpmSdk.Foundation
