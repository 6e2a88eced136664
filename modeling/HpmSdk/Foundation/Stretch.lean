import Mathlib.Order.Interval.Set.Basic

set_option autoImplicit false

/-!
# Foundation: stretches of a condition on numbers

A stretch is a set of consecutive numbers that all meet a condition.  Where all numbers that meet
it are consecutive, they are the longest stretch, and their middle is in it.
-/

namespace HpmSdk.Foundation

/-- The numbers from one to another, which all meet a condition. -/
def Stretch (p : Nat → Prop) (lo hi : Nat) : Prop := lo ≤ hi ∧ ∀ i ∈ Set.Icc lo hi, p i

/-- No stretch is longer. -/
def LongestStretch (p : Nat → Prop) (lo hi : Nat) : Prop :=
  Stretch p lo hi ∧ ∀ lo' hi', Stretch p lo' hi' → hi' - lo' ≤ hi - lo

variable {p : Nat → Prop} {lo hi : Nat}

/-- Numbers that are all consecutive are the longest stretch. -/
theorem longestStretch_of_forall_iff (hle : lo ≤ hi) (h : ∀ i, p i ↔ i ∈ Set.Icc lo hi) :
    LongestStretch p lo hi := by
  refine ⟨⟨hle, fun i hi => (h i).mpr hi⟩, fun lo' hi' hstretch => ?_⟩
  have hfirst : lo ≤ lo' := ((h lo').mp (hstretch.2 lo' ⟨le_rfl, hstretch.1⟩)).1
  have hlast : hi' ≤ hi := ((h hi').mp (hstretch.2 hi' ⟨hstretch.1, le_rfl⟩)).2
  omega

/-- The middle of a stretch is in it. -/
theorem Stretch.middle (h : Stretch p lo hi) : p ((lo + hi) / 2) := by
  have hle := h.1
  apply h.2
  constructor <;> omega

/-! ## The first and the last number -/

section Search

variable {q : Nat → Bool} {n i : Nat}

/-- The search from the front finds the first number. -/
theorem find?_range_first (h : (List.range n).find? q = some i) :
    q i = true ∧ i < n ∧ ∀ j < n, q j = true → i ≤ j := by
  rw [List.find?_range_eq_some] at h
  refine ⟨h.1, List.mem_range.mp h.2.1, fun j _ hj => ?_⟩
  by_contra hlt
  have hnot := h.2.2 j (Nat.lt_of_not_le hlt)
  rw [hj] at hnot
  cases hnot

/-- The search from the back finds the last number. -/
theorem find?_reverse_range_last :
    ∀ {n i : Nat}, (List.range n).reverse.find? q = some i →
      q i = true ∧ i < n ∧ ∀ j < n, q j = true → j ≤ i
  | 0, i, h => by cases h
  | n + 1, i, h => by
    rw [List.range_succ, List.reverse_append, List.reverse_singleton, List.singleton_append,
      List.find?_cons] at h
    cases hq : q n with
    | true =>
      rw [hq] at h
      obtain rfl := Option.some.inj h
      exact ⟨hq, Nat.lt_succ_self n, fun j hj _ => Nat.le_of_lt_succ hj⟩
    | false =>
      rw [hq] at h
      obtain ⟨hi, hlt, hlast⟩ := find?_reverse_range_last h
      refine ⟨hi, Nat.lt_succ_of_lt hlt, fun j hj hqj => ?_⟩
      rcases Nat.lt_succ_iff_lt_or_eq.mp hj with hlt' | rfl
      · exact hlast j hlt' hqj
      · rw [hq] at hqj
        cases hqj

end Search

end HpmSdk.Foundation
