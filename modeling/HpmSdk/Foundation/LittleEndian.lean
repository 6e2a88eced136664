import HpmSdk.Foundation.Bytes

set_option autoImplicit false

/-!
# Foundation: little-endian numbers

The value of a stretch of a buffer with the least byte first.  A shorter stretch from the same
offset is the remainder of a longer one.  A store of a number is read back cut to its width, and
stretches apart from it read as before.
-/

namespace HpmSdk.Foundation

/-- The number that the `n` bytes from offset `a` stand for, the least one first. -/
def leVal (b : Buf) (a : Nat) : Nat → Nat
  | 0 => 0
  | n + 1 => leVal b a n + (b (a + n)).toNat * 256 ^ n

variable (b : Buf) (a : Nat)

/-- A number of `n` bytes is below `256 ^ n`. -/
theorem leVal_lt (n : Nat) : leVal b a n < 256 ^ n := by
  induction n with
  | zero => exact Nat.one_pos
  | succ n ih =>
    have hbyte : (b (a + n)).toNat * 256 ^ n ≤ 255 * 256 ^ n :=
      Nat.mul_le_mul_right _ (Nat.le_of_lt_succ (b (a + n)).toNat_lt)
    calc leVal b a n + (b (a + n)).toNat * 256 ^ n
        < 256 ^ n + 255 * 256 ^ n := Nat.add_lt_add_of_lt_of_le ih hbyte
      _ = 256 ^ (n + 1) := by ring

/-- The value of a longer stretch, cut to a shorter one. -/
theorem leVal_mod (m k : Nat) : leVal b a (m + k) % 256 ^ m = leVal b a m := by
  induction k with
  | zero => exact Nat.mod_eq_of_lt (leVal_lt b a m)
  | succ k ih =>
    have hdvd : (b (a + (m + k))).toNat * 256 ^ (m + k) =
        256 ^ m * ((b (a + (m + k))).toNat * 256 ^ k) := by ring
    rw [← Nat.add_assoc, leVal, hdvd, Nat.add_mul_mod_self_left, ih]

/-- Stretches with the same bytes have the same value. -/
theorem leVal_congr {b c : Buf} {a a' n : Nat} (h : ∀ k < n, b (a + k) = c (a' + k)) :
    leVal b a n = leVal c a' n := by
  induction n with
  | zero => rfl
  | succ n ih =>
    rw [leVal, leVal, ih fun k hk => h k (by omega), h n (by omega)]

/-! ## Stores -/

/-- Store the `n` bytes of `v`, the least one first. -/
def storeLe (b : Buf) (a n v : Nat) : Buf :=
  fun i => if a ≤ i ∧ i < a + n then UInt8.ofNat (v / 256 ^ (i - a)) else b i

/-- A store leaves the bytes outside of its stretch. -/
theorem storeLe_of_outside {i n : Nat} (v : Nat) (h : i < a ∨ a + n ≤ i) :
    storeLe b a n v i = b i := by
  rw [storeLe, if_neg (by omega)]

/-- Bytes that are the digits of a number have the number as their value, cut to their width. -/
theorem leVal_of_digits {b : Buf} {a n v : Nat}
    (h : ∀ k < n, b (a + k) = UInt8.ofNat (v / 256 ^ k)) : leVal b a n = v % 256 ^ n := by
  induction n with
  | zero => exact (Nat.mod_one v).symm
  | succ n ih =>
    have hbyte : (b (a + n)).toNat = v / 256 ^ n % 256 := by
      rw [h n (Nat.lt_succ_self n)]
      exact UInt8.toNat_ofNat'
    rw [leVal, ih fun k hk => h k (Nat.lt_succ_of_lt hk), hbyte, pow_succ, Nat.mod_mul, mul_comm]

/-- What was stored is read back, cut to the width. -/
@[simp] theorem leVal_storeLe_self (n v : Nat) : leVal (storeLe b a n v) a n = v % 256 ^ n := by
  apply leVal_of_digits
  intro k hk
  rw [storeLe, if_pos (by omega), Nat.add_sub_cancel_left]

/-- A number that lies apart from a store is read as before. -/
theorem leVal_storeLe_of_apart {c m n : Nat} (v : Nat) (h : a + n ≤ c ∨ c + m ≤ a) :
    leVal (storeLe b a n v) c m = leVal b c m := by
  apply leVal_congr
  intro k hk
  exact storeLe_of_outside b a v (by omega)

end HpmSdk.Foundation
