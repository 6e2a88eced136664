import Mathlib.Algebra.Order.Ring.Nat

set_option autoImplicit false

/-!
# Foundation: unsigned words as numbers

Sums and differences of unsigned words of `w` bits, kept as numbers below `2 ^ w`.  Where the
exact result is in range it is the result.
-/

namespace HpmSdk.Foundation

/-- The sum of two words. -/
def addMod (w a b : Nat) : Nat := (a + b) % 2 ^ w

/-- The difference of two words. -/
def subMod (w a b : Nat) : Nat := (a + (2 ^ w - b % 2 ^ w)) % 2 ^ w

variable {w a b : Nat}

/-- A sum that does not wrap is the sum. -/
theorem addMod_eq (h : a + b < 2 ^ w) : addMod w a b = a + b := Nat.mod_eq_of_lt h

/-- A difference that does not wrap is the difference. -/
theorem subMod_eq (ha : a < 2 ^ w) (h : b ≤ a) : subMod w a b = a - b := by
  have hb : b % 2 ^ w = b := Nat.mod_eq_of_lt (Nat.lt_of_le_of_lt h ha)
  rw [subMod, hb, show a + (2 ^ w - b) = a - b + 2 ^ w by omega, Nat.add_mod_right]
  exact Nat.mod_eq_of_lt (Nat.lt_of_le_of_lt (Nat.sub_le a b) ha)

end HpmSdk.Foundation
