import Mathlib.Data.Nat.ModEq

set_option autoImplicit false

/-!
# Foundation: rings

A ring of `N` slots is walked by absolute positions `p`, of which slot `p % N`
is used.  Within a window of `N` consecutive positions every slot occurs exactly
once, so facts about positions carry over to slots.

A table of linked slots is walked by following the links.  Where the links form
a ring, a walk of at most `N` slots changes each slot of its window once.
-/

namespace HpmSdk.Foundation.Ring

/-- Two positions of one window that use the same slot are equal. -/
theorem pos_inj {N T p q : Nat} (hp : T ≤ p) (hpN : p < T + N) (hq : T ≤ q) (hqN : q < T + N)
    (h : p % N = q % N) : p = q := by
  obtain ⟨a, rfl⟩ := Nat.exists_eq_add_of_le hp
  obtain ⟨b, rfl⟩ := Nat.exists_eq_add_of_le hq
  have hab : a ≡ b [MOD N] := Nat.ModEq.add_left_cancel' T h
  rw [Nat.ModEq.eq_of_lt_of_lt hab (by omega) (by omega)]

/-- Two positions of a window of `N` have different slots. -/
theorem slot_ne {N T p q : Nat} (hp : T ≤ p) (hpN : p < T + N) (hq : T ≤ q) (hqN : q < T + N)
    (h : p ≠ q) : p % N ≠ q % N :=
  fun hc => h (pos_inj hp hpN hq hqN hc)

/-- Every slot is used by some position of a window. -/
theorem exists_pos {N i : Nat} (T : Nat) (hi : i < N) : ∃ p, T ≤ p ∧ p < T + N ∧ p % N = i := by
  have hT := Nat.div_add_mod T N
  have hlt := Nat.mod_lt T (Nat.zero_lt_of_lt hi)
  rcases Nat.lt_or_ge i (T % N) with h | h
  · refine ⟨N * (T / N) + i + N, by omega, by omega, ?_⟩
    rw [Nat.add_mod_right, Nat.mul_add_mod, Nat.mod_eq_of_lt hi]
  · refine ⟨N * (T / N) + i, by omega, by omega, ?_⟩
    rw [Nat.mul_add_mod, Nat.mod_eq_of_lt hi]

/-- Where a window has all slots of another one from the same position, it is as long, up to
the length of the ring. -/
theorem min_le_of_slots {N T n m : Nat}
    (h : ∀ j < n, ∃ i < m, (T + i) % N = (T + j) % N) : min n N ≤ min m N := by
  by_contra hlt
  have hmN : m < N := by omega
  obtain ⟨i, hi, heq⟩ := h m (by omega)
  have hpos : T + i = T + m :=
    pos_inj (Nat.le_add_right T i) (by omega) (Nat.le_add_right T m) (by omega) heq
  omega

/-- Two windows from one position have the same slots exactly where they are as long, up to the
length of the ring. -/
theorem slots_iff {N T n m : Nat} (hN : 0 < N) :
    (∀ x, (∃ j < n, (T + j) % N = x) ↔ ∃ j < m, (T + j) % N = x) ↔ min n N = min m N := by
  have hslots : ∀ {n m : Nat}, min n N ≤ min m N → ∀ j < n, ∃ i < m, (T + i) % N = (T + j) % N := by
    intro n m hle j hj
    rcases Nat.lt_or_ge j m with hjm | hmj
    · exact ⟨j, hjm, rfl⟩
    · have hmod : j % N < m := Nat.lt_of_lt_of_le (Nat.mod_lt j hN) (by omega)
      exact ⟨j % N, hmod, Nat.add_mod_mod T j N⟩
  constructor
  · intro h
    apply Nat.le_antisymm
    · exact min_le_of_slots fun j hj => (h _).mp ⟨j, hj, rfl⟩
    · exact min_le_of_slots fun j hj => (h _).mpr ⟨j, hj, rfl⟩
  · intro heq x
    constructor
    · rintro ⟨j, hj, rfl⟩
      exact hslots heq.le j hj
    · rintro ⟨j, hj, rfl⟩
      exact hslots heq.ge j hj

/-- The slot behind slot `p % N`. -/
theorem succ_slot (p N : Nat) : (p % N + 1) % N = (p + 1) % N := Nat.mod_add_mod p N 1

/-! ## Linked tables -/

section Tables

variable {D : Type}

/-- Write one slot of a table. -/
def set (tab : Nat → D) (i : Nat) (d : D) : Nat → D := fun j => if j = i then d else tab j

@[simp] theorem set_self (tab : Nat → D) (i : Nat) (d : D) : set tab i d i = d := if_pos rfl

theorem set_of_ne (tab : Nat → D) {i j : Nat} (d : D) (h : j ≠ i) : set tab i d j = tab j :=
  if_neg h

/-- The links of the first `N` slots form a ring. -/
def Linked (next : D → Nat) (N : Nat) (tab : Nat → D) : Prop :=
  ∀ i < N, next (tab i) = (i + 1) % N

/-- Visit `n` slots along the links; `f k` changes the one visited `k`-th. -/
def walk (next : D → Nat) (f : Nat → D → D) : Nat → Nat → (Nat → D) → Nat → (Nat → D) × Nat
  | 0, _, tab, i => (tab, i)
  | n + 1, k, tab, i =>
    let tab := set tab i (f k (tab i))
    walk next f n (k + 1) tab (next (tab i))

variable {next : D → Nat} {f : Nat → D → D} {N : Nat}

/-- A change that keeps the link of a slot keeps the ring. -/
theorem Linked.set {tab : Nat → D} (h : Linked next N tab) {i : Nat} {d : D}
    (hd : next d = next (tab i)) : Linked next N (set tab i d) := by
  intro j hj
  by_cases hji : j = i
  · subst hji
    rw [set_self, hd]
    exact h j hj
  · rw [set_of_ne _ _ hji]
    exact h j hj

/-- What a walk from position `p` does, when changing a slot keeps its link. -/
theorem walk_spec (hf : ∀ k d, next (f k d) = next d) (n : Nat) :
    ∀ (k : Nat) (tab : Nat → D) (p : Nat), Linked next N tab → 0 < N → n ≤ N →
      (walk next f n k tab (p % N)).2 = (p + n) % N ∧
      (∀ j < n, (walk next f n k tab (p % N)).1 ((p + j) % N) = f (k + j) (tab ((p + j) % N))) ∧
      ∀ i, (∀ j < n, (p + j) % N ≠ i) → (walk next f n k tab (p % N)).1 i = tab i := by
  induction n with
  | zero =>
    exact fun k tab p _ _ _ => ⟨rfl, fun j hj => absurd hj (Nat.not_lt_zero j), fun _ _ => rfl⟩
  | succ n ih =>
    intro k tab p hlinked hN hn
    have hnext : next (set tab (p % N) (f k (tab (p % N))) (p % N)) = (p + 1) % N := by
      rw [set_self, hf, hlinked _ (Nat.mod_lt p hN), succ_slot]
    obtain ⟨hend, hin, hout⟩ := ih (k + 1) (set tab (p % N) (f k (tab (p % N)))) (p + 1)
      (hlinked.set (hf _ _)) hN (by omega)
    rw [walk, hnext]
    refine ⟨?_, fun j hj => ?_, fun i hi => ?_⟩
    · rw [hend, Nat.add_assoc, Nat.add_comm 1 n]
    · cases j with
      | zero =>
        simp only [Nat.add_zero]
        rw [hout (p % N), set_self]
        exact fun j hj => slot_ne (by omega : p ≤ p + 1 + j) (by omega) (Nat.le_refl p) (by omega)
          (by omega)
      | succ j =>
        have hne : (p + (j + 1)) % N ≠ p % N :=
          slot_ne (Nat.le_add_right p _) (by omega) (Nat.le_refl p) (by omega) (by omega)
        have hj' := hin j (by omega)
        rw [show p + 1 + j = p + (j + 1) by omega, show k + 1 + j = k + (j + 1) by omega,
          set_of_ne _ _ hne] at hj'
        exact hj'
    · rw [hout i fun j hj => ?_, set_of_ne]
      · exact (hi 0 (Nat.succ_pos n)).symm
      · have hij := hi (j + 1) (by omega)
        rwa [show p + 1 + j = p + (j + 1) by omega]

end Tables

end HpmSdk.Foundation.Ring
