import HpmSdk.Foundation.Ring

set_option autoImplicit false

/-!
# Foundation: a queue in a ring of slots

A queue of `n` elements in a ring of `N` slots starts at slot `r` and goes on around the ring.
Elements are added behind the last one, taken in front, and overwrite the oldest ones where the
ring is full.
-/

namespace HpmSdk.Foundation.RingQueue

variable {α : Type}

/-- The `n` elements from slot `r` on. -/
def ringList (N : Nat) (b : Nat → α) (r n : Nat) : List α :=
  (List.range n).map fun i => b ((r + i) % N)

/-- Write elements one behind another, from slot `p` on. -/
def ringWrite (N : Nat) (b : Nat → α) : Nat → List α → Nat → α
  | _, [] => b
  | p, x :: xs => ringWrite N (Ring.set b (p % N) x) (p + 1) xs

section Lists

variable {N : Nat} {b c : Nat → α} {r n : Nat}

@[simp] theorem length_ringList : (ringList N b r n).length = n := by simp [ringList]

@[simp] theorem ringList_zero : ringList N b r 0 = [] := rfl

/-- The last element of a longer queue is in the slot behind the shorter one. -/
theorem ringList_succ : ringList N b r (n + 1) = ringList N b r n ++ [b ((r + n) % N)] := by
  simp [ringList, List.range_succ]

/-- A queue is its first elements and those that start behind them. -/
theorem ringList_add (m : Nat) :
    ringList N b r (m + n) = ringList N b r m ++ ringList N b (r + m) n := by
  simp [ringList, List.range_add, Function.comp_def, Nat.add_assoc]

/-- The first element of a queue is in its slot, and the others start one further. -/
theorem ringList_cons : ringList N b r (n + 1) = b (r % N) :: ringList N b (r + 1) n := by
  rw [Nat.add_comm n 1, ringList_add]
  simp [ringList]

/-- A queue depends on its own slots only. -/
theorem ringList_congr (h : ∀ i < n, b ((r + i) % N) = c ((r + i) % N)) :
    ringList N b r n = ringList N c r n :=
  List.map_congr_left fun i hi => h i (List.mem_range.mp hi)

/-- Only the slot counts that a position stands for. -/
theorem ringList_mod : ringList N b (r % N) n = ringList N b r n := by
  unfold ringList
  simp only [Nat.mod_add_mod]

/-- The slots in front of the end of the ring follow one another. -/
theorem ringList_of_le (h : r + n ≤ N) : ringList N b r n = (List.range n).map fun i => b (r + i) := by
  refine List.map_congr_left fun i hi => ?_
  have hlt := List.mem_range.mp hi
  rw [Nat.mod_eq_of_lt (by omega)]

theorem getElem?_ringList {i : Nat} (h : i < n) :
    (ringList N b r n)[i]? = some (b ((r + i) % N)) := by
  simp [ringList, h]

/-! ## Adding and taking -/

/-- One element behind a queue that leaves a slot free. -/
theorem ringList_push (hn : n < N) (x : α) :
    ringList N (Ring.set b ((r + n) % N) x) r (n + 1) = ringList N b r n ++ [x] := by
  rw [ringList_succ, Ring.set_self]
  congr 1
  refine ringList_congr fun i hi => Ring.set_of_ne b x ?_
  exact Ring.slot_ne (Nat.le_add_right r i) (by omega) (Nat.le_add_right r n) (by omega) (by omega)

/-- Several elements behind a queue that has room for them. -/
theorem ringList_ringWrite {xs : List α} (h : n + xs.length ≤ N) :
    ringList N (ringWrite N b (r + n) xs) r (n + xs.length) = ringList N b r n ++ xs := by
  induction xs generalizing b n with
  | nil => simp [ringWrite]
  | cons x xs ih =>
    rw [List.length_cons] at h
    have hpush := ringList_push (b := b) (r := r) (by omega : n < N) x
    have hrest := ih (b := Ring.set b ((r + n) % N) x) (n := n + 1) (by omega)
    rw [ringWrite, List.length_cons, show n + (xs.length + 1) = n + 1 + xs.length by omega,
      show r + n + 1 = r + (n + 1) by omega, hrest, hpush, List.append_assoc]
    rfl

/-- The elements that fill a ring up to its size are what it holds, wherever they start. -/
theorem ringList_drop {m : Nat} (h : m ≤ n) :
    ringList N b (r + m) (n - m) = (ringList N b r n).drop m := by
  obtain ⟨k, rfl⟩ := Nat.exists_eq_add_of_le h
  rw [Nat.add_sub_cancel_left, ringList_add, List.drop_left' length_ringList]

theorem ringList_take {m : Nat} (h : m ≤ n) :
    ringList N b r m = (ringList N b r n).take m := by
  obtain ⟨k, rfl⟩ := Nat.exists_eq_add_of_le h
  rw [ringList_add, List.take_left' length_ringList]

/-! ## Slots of a write -/

/-- Writing a list leaves the slots that it does not reach. -/
theorem ringWrite_of_ne {xs : List α} {p i : Nat} (h : ∀ j < xs.length, i ≠ (p + j) % N) :
    ringWrite N b p xs i = b i := by
  induction xs generalizing b p with
  | nil => rfl
  | cons x xs ih =>
    rw [ringWrite, ih, Ring.set_of_ne]
    · have h0 := h 0 (Nat.succ_pos _)
      rwa [Nat.add_zero] at h0
    · intro j hj
      have hj' := h (j + 1) (Nat.succ_lt_succ hj)
      rwa [show p + (j + 1) = p + 1 + j by omega] at hj'

/-- A list that is not longer than the ring is found again element by element. -/
theorem ringWrite_slot {xs : List α} {p j : Nat} (hN : xs.length ≤ N) (hj : j < xs.length) :
    ringWrite N b p xs ((p + j) % N) = xs[j] := by
  induction xs generalizing b p j with
  | nil => cases hj
  | cons x xs ih =>
    rw [List.length_cons] at hN hj
    rw [ringWrite]
    cases j with
    | zero =>
      rw [ringWrite_of_ne]
      · exact Ring.set_self b (p % N) x
      · intro k hk
        exact (Ring.slot_ne (by omega : p ≤ p + 1 + k) (by omega) (Nat.le_refl p) (by omega)
          (by omega)).symm
    | succ j =>
      rw [show p + (j + 1) = p + 1 + j by omega, ih (by omega) (by omega)]
      rfl

/-- A buffer with the elements in their slots, and nothing else changed, is the written one. -/
theorem eq_ringWrite {xs : List α} {p : Nat} (hN : xs.length ≤ N)
    (hslots : ∀ j (hj : j < xs.length), c ((p + j) % N) = xs[j])
    (hother : ∀ i, (∀ j < xs.length, i ≠ (p + j) % N) → c i = b i) : c = ringWrite N b p xs := by
  funext i
  by_cases h : ∃ j, j < xs.length ∧ i = (p + j) % N
  · obtain ⟨j, hj, rfl⟩ := h
    rw [hslots j hj, ringWrite_slot hN hj]
  · have hne : ∀ j < xs.length, i ≠ (p + j) % N := fun j hj heq => h ⟨j, hj, heq⟩
    rw [hother i hne, ringWrite_of_ne hne]

end Lists

end HpmSdk.Foundation.RingQueue
