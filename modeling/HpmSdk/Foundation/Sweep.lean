import Mathlib.Tactic.Ring
import Mathlib.Data.List.Basic
import Mathlib.Logic.Function.Iterate

set_option autoImplicit false

/-!
# Foundation: removing from a list and skipping

A sweep over a list that removes an element steps over the next one without
looking at it.  So of a run of adjacent matches every second one stays: a sweep
halves every run.  When the last element is removed the sweep has run off the
end, which is when the run at the end has odd length.
-/

namespace HpmSdk.Foundation.Sweep

variable {α : Type} (m : α → Bool)

/-- One sweep: a match is removed and the element behind it kept. -/
def sweep : List α → List α
  | [] => []
  | [x] => if m x then [] else [x]
  | x :: y :: ys => if m x then y :: sweep ys else x :: sweep (y :: ys)

/-- Whether a sweep removes the last element. -/
def dropsLast : List α → Bool
  | [] => false
  | [x] => m x
  | x :: y :: ys => if m x then dropsLast ys else dropsLast (y :: ys)

/-- The length of the run of matches at the front. -/
def lead : List α → Nat
  | [] => 0
  | x :: xs => if m x then lead xs + 1 else 0

/-- The length of the longest run of adjacent matches. -/
def maxRun : List α → Nat
  | [] => 0
  | x :: xs => max (lead m (x :: xs)) (maxRun xs)

/-- The length of the run of matches at the end. -/
def trail : List α → Nat
  | [] => 0
  | x :: xs => if (x :: xs).all m then xs.length + 1 else trail xs

section Elements

/-- A sweep leaves what does not match. -/
theorem sweep_filter (xs : List α) :
    (sweep m xs).filter (fun x => !m x) = xs.filter fun x => !m x := by
  induction xs using sweep.induct m with
  | case1 => rfl
  | case2 x hx => simp [sweep, hx]
  | case3 x hx => simp [sweep, hx]
  | case4 x y ys hx ih => simp [sweep, hx, List.filter_cons, ih]
  | case5 x y ys hx ih =>
    rw [sweep, if_neg hx, List.filter_cons, ih]
    simp [hx]

/-- A sweep only takes out. -/
theorem sweep_sublist (xs : List α) : (sweep m xs).Sublist xs := by
  induction xs using sweep.induct m with
  | case1 => exact List.Sublist.refl _
  | case2 x hx =>
    rw [sweep, if_pos hx]
    exact List.nil_sublist _
  | case3 x hx =>
    rw [sweep, if_neg hx]
  | case4 x y ys hx ih =>
    rw [sweep, if_pos hx]
    exact (ih.cons_cons y).cons x
  | case5 x y ys hx ih =>
    rw [sweep, if_neg hx]
    exact ih.cons_cons x

theorem sweep_all (xs : List α) : (sweep m xs).all m = xs.all m := by
  have hall : ∀ l : List α, l.all m = true ↔ (l.filter fun x => !m x) = [] := by
    intro l
    rw [List.all_eq_true, List.filter_eq_nil_iff]
    simp
  rw [Bool.eq_iff_iff, hall, hall, sweep_filter]

end Elements

/-! ## Runs are halved -/

section Runs

/-- A sweep halves the run at the front. -/
theorem lead_sweep (xs : List α) : lead m (sweep m xs) = lead m xs / 2 := by
  induction xs using sweep.induct m with
  | case1 => simp [sweep, lead]
  | case2 x hx => simp [sweep, lead, hx]
  | case3 x hx => simp [sweep, lead, hx]
  | case4 x y ys hx ih =>
    rw [sweep, if_pos hx, lead, lead, lead, if_pos hx, ih]
    split
    · omega
    · rfl
  | case5 x y ys hx ih => rw [sweep, if_neg hx, lead, lead, if_neg hx, if_neg hx]

/-- A sweep halves the longest run: a single match goes, and of a longer run every second one stays.
-/
theorem maxRun_sweep (xs : List α) : maxRun m (sweep m xs) = maxRun m xs / 2 := by
  induction xs using sweep.induct m with
  | case1 => simp [sweep, maxRun]
  | case2 x hx => simp [sweep, maxRun, lead, hx]
  | case3 x hx => simp [sweep, maxRun, lead, hx]
  | case4 x y ys hx ih =>
    rw [sweep, if_pos hx, maxRun, maxRun, maxRun, lead, lead, lead, if_pos hx, ih, lead_sweep]
    split <;> omega
  | case5 x y ys hx ih =>
    rw [sweep, if_neg hx, maxRun, maxRun, lead, lead, if_neg hx, if_neg hx, ih, Nat.zero_max,
      Nat.zero_max]

theorem trail_of_all {xs : List α} (h : xs.all m = true) : trail m xs = xs.length := by
  cases xs with
  | nil => rfl
  | cons x xs => rw [trail, if_pos h, List.length_cons]

theorem trail_cons_of_not {x : α} {xs : List α} (h : (x :: xs).all m = false) :
    trail m (x :: xs) = trail m xs := by
  rw [trail, if_neg (by rw [h]; exact Bool.noConfusion)]

/-- The run at the end behind two elements the first of which is a match. -/
theorem trail_cons_cons {x : α} (y : α) (ys : List α) (hx : m x = true) :
    trail m (x :: y :: ys) = if (y :: ys).all m then trail m ys + 2 else trail m ys := by
  have hxy : (x :: y :: ys).all m = (y :: ys).all m := by
    rw [List.all_cons, hx, Bool.true_and]
  cases hall : (y :: ys).all m with
  | true =>
    have hys : ys.all m = true := by
      rw [List.all_cons, Bool.and_eq_true] at hall
      exact hall.2
    rw [trail_of_all m (hxy.trans hall), trail_of_all m hys, if_pos rfl]
    rfl
  | false =>
    rw [trail_cons_of_not m (hxy.trans hall), trail_cons_of_not m hall, if_neg Bool.false_ne_true]

/-- A sweep halves the run at the end. -/
theorem trail_sweep (xs : List α) : trail m (sweep m xs) = trail m xs / 2 := by
  induction xs using sweep.induct m with
  | case1 => simp [sweep, trail]
  | case2 x hx => simp [sweep, trail, hx]
  | case3 x hx => simp [sweep, trail, hx]
  | case4 x y ys hx ih =>
    have hsweep : (y :: sweep m ys).all m = (y :: ys).all m := by
      rw [List.all_cons, sweep_all, ← List.all_cons]
    rw [sweep, if_pos hx, trail_cons_cons m y ys hx]
    cases hall : (y :: ys).all m with
    | true =>
      have hys : (sweep m ys).all m = true := by
        rw [List.all_cons, Bool.and_eq_true] at hall
        rw [sweep_all]
        exact hall.2
      rw [trail_of_all m hys] at ih
      rw [trail_of_all m (hsweep.trans hall), List.length_cons, ih, if_pos rfl]
      omega
    | false => rw [trail_cons_of_not m (hsweep.trans hall), ih, if_neg Bool.false_ne_true]
  | case5 x y ys hx ih =>
    have hnot : ∀ l, (x :: l).all m = false := by
      intro l
      rw [List.all_cons, Bool.eq_false_iff.mpr hx, Bool.false_and]
    rw [sweep, if_neg hx, trail_cons_of_not m (hnot _), trail_cons_of_not m (hnot _), ih]

/-- The last element is removed when the run at the end has odd length. -/
theorem dropsLast_iff (xs : List α) : dropsLast m xs = true ↔ trail m xs % 2 = 1 := by
  induction xs using sweep.induct m with
  | case1 => simp [dropsLast, trail]
  | case2 x hx => simp [dropsLast, trail, hx]
  | case3 x hx => simp [dropsLast, trail, hx]
  | case4 x y ys hx ih =>
    rw [dropsLast, if_pos hx, ih, trail_cons_cons m y ys hx]
    split
    · rw [Nat.add_mod_right]
    · rfl
  | case5 x y ys hx ih =>
    have hnot : (x :: y :: ys).all m = false := by
      rw [List.all_cons, Bool.eq_false_iff.mpr hx, Bool.false_and]
    rw [dropsLast, if_neg hx, ih, trail_cons_of_not m hnot]

/-- Without a run no element is a match. -/
theorem filter_of_maxRun {xs : List α} (h : maxRun m xs = 0) : xs.filter (fun x => !m x) = xs := by
  induction xs with
  | nil => rfl
  | cons x xs ih =>
    rw [maxRun, Nat.max_eq_zero_iff, lead] at h
    obtain ⟨hlead, hrest⟩ := h
    split at hlead
    · exact absurd hlead (Nat.succ_ne_zero _)
    · rename_i hx
      rw [List.filter_cons, if_pos (by simpa using hx), ih hrest]

/-- A sweep of single matches removes all of them. -/
theorem sweep_eq_filter {xs : List α} (h : maxRun m xs < 2) :
    sweep m xs = xs.filter fun x => !m x := by
  rw [← sweep_filter, filter_of_maxRun m]
  rw [maxRun_sweep]
  omega

/-- So do `j` sweeps of runs shorter than `2 ^ j`. -/
theorem iterate_sweep_eq_filter (j : Nat) : ∀ (xs : List α), maxRun m xs < 2 ^ j →
    (sweep m)^[j] xs = xs.filter fun x => !m x := by
  induction j with
  | zero =>
    intro xs h
    rw [pow_zero, Nat.lt_one_iff] at h
    exact (filter_of_maxRun m h).symm
  | succ j ih =>
    intro xs h
    rw [Function.iterate_succ_apply, ih, sweep_filter]
    rw [maxRun_sweep]
    rw [pow_succ] at h
    omega

theorem maxRun_le_length (xs : List α) : maxRun m xs ≤ xs.length := by
  have hlead : ∀ l : List α, lead m l ≤ l.length := by
    intro l
    induction l with
    | nil => exact Nat.le_refl 0
    | cons x l ih =>
      rw [lead, List.length_cons]
      split
      · exact Nat.succ_le_succ ih
      · exact Nat.zero_le _
  induction xs with
  | nil => exact Nat.le_refl 0
  | cons x xs ih =>
    rw [maxRun]
    exact Nat.max_le.mpr ⟨hlead _, Nat.le_succ_of_le ih⟩

end Runs

end HpmSdk.Foundation.Sweep
