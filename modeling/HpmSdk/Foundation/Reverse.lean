import Mathlib.Logic.Function.Basic
import Mathlib.Tactic.Common

set_option autoImplicit false

/-!
# Foundation: reversal in place

An array is reversed by exchanging its ends, up to its middle.  Behind each round the outer parts
are reversed and what is between them is as it was.
-/

namespace HpmSdk.Foundation

variable {α : Type}

/-- Two entries are exchanged. -/
def exchange (f : Nat → α) (i j : Nat) : Nat → α :=
  Function.update (Function.update f i (f j)) j (f i)

/-- The ends of `n` entries are exchanged, for the first `k` of them. -/
def swapEnds (n : Nat) (f : Nat → α) : Nat → Nat → α
  | 0 => f
  | k + 1 => exchange (swapEnds n f k) k (n - k - 1)

theorem exchange_left {f : Nat → α} {i j : Nat} (h : i ≠ j) : exchange f i j i = f j := by
  unfold exchange
  rw [Function.update_of_ne h, Function.update_self]

theorem exchange_right (f : Nat → α) (i j : Nat) : exchange f i j j = f i :=
  Function.update_self ..

/-- An exchange leaves every other place. -/
theorem exchange_of_ne {f : Nat → α} {i j k : Nat} (hi : k ≠ i) (hj : k ≠ j) :
    exchange f i j k = f k := by
  unfold exchange
  rw [Function.update_of_ne hj, Function.update_of_ne hi]

/-- What is not outside is as it was. -/
theorem swapEnds_inner {n : Nat} (f : Nat → α) : ∀ {k i : Nat}, 2 * k ≤ n →
    (k ≤ i ∧ i + k < n ∨ n ≤ i) → swapEnds n f k i = f i
  | 0, _, _, _ => rfl
  | k + 1, i, hk, hin => by
    rw [swapEnds, exchange_of_ne (by omega) (by omega)]
    apply swapEnds_inner f
    · omega
    · omega

/-- What is outside is reversed. -/
theorem swapEnds_outer {n : Nat} (f : Nat → α) : ∀ {k i : Nat}, 2 * k ≤ n → i < n →
    (i < k ∨ n ≤ i + k) → swapEnds n f k i = f (n - 1 - i)
  | 0, i, _, hi, hout => by omega
  | k + 1, i, hk, hi, hout => by
    have hne : k ≠ n - k - 1 := by omega
    rw [swapEnds]
    rcases eq_or_ne i k with rfl | hik
    · rw [exchange_left hne, swapEnds_inner f (by omega) (by omega)]
      congr 1
      omega
    · rcases eq_or_ne i (n - k - 1) with rfl | hin
      · rw [exchange_right, swapEnds_inner f (by omega) (by omega)]
        congr 1
        omega
      · rw [exchange_of_ne hik hin]
        apply swapEnds_outer f
        · omega
        · exact hi
        · omega

/-- Up to the middle, the whole is reversed. -/
theorem swapEnds_half (f : Nat → α) {n i : Nat} (hi : i < n) :
    swapEnds n f (n / 2) i = f (n - 1 - i) := by
  rcases Nat.lt_or_ge i (n / 2) with hlt | hge
  · exact swapEnds_outer f (by omega) hi (Or.inl hlt)
  · rcases Nat.lt_or_ge (i + n / 2) n with hmiddle | hend
    · rw [swapEnds_inner f (by omega) (Or.inl ⟨hge, hmiddle⟩)]
      congr 1
      omega
    · exact swapEnds_outer f (by omega) hi (Or.inr hend)

end HpmSdk.Foundation
