import Mathlib.Logic.Function.Basic
import Mathlib.Data.List.Nodup

set_option autoImplicit false

/-!
# Foundation: writing a list into a table

Each element of a list is written to the place that its key names.  Where the keys are
different the table holds every element of the list, in whatever order it was written, and an
element is found by its key.
-/

namespace HpmSdk.Foundation

variable {α κ β : Type} [DecidableEq κ] (key : α → κ) (val : α → β)

/-- The table with the elements of a list written to it. -/
def writeAll (m : κ → β) (l : List α) : κ → β :=
  l.foldl (fun m x => Function.update m (key x) (val x)) m

section WriteAll

variable {key val} {m : κ → β} {l l' : List α} {k : κ}

/-- A place that no element names keeps what it has. -/
theorem writeAll_of_ne (h : ∀ x ∈ l, key x ≠ k) : writeAll key val m l k = m k := by
  induction l generalizing m with
  | nil => rfl
  | cons x l ih =>
    rw [List.forall_mem_cons] at h
    calc writeAll key val m (x :: l) k
        = writeAll key val (Function.update m (key x) (val x)) l k := rfl
      _ = Function.update m (key x) (val x) k := ih h.2
      _ = m k := Function.update_of_ne h.1.symm _ _

/-- With different keys the place of an element has its value. -/
theorem writeAll_of_mem (hd : (l.map key).Nodup) {x : α} (hx : x ∈ l) :
    writeAll key val m l (key x) = val x := by
  induction l generalizing m with
  | nil => exact absurd hx List.not_mem_nil
  | cons y l ih =>
    rw [List.map_cons, List.nodup_cons] at hd
    rcases List.mem_cons.mp hx with rfl | hmem
    · have hne : ∀ y ∈ l, key y ≠ key x := fun y hy heq => hd.1 (heq ▸ List.mem_map_of_mem hy)
      calc writeAll key val m (x :: l) (key x)
          = writeAll key val (Function.update m (key x) (val x)) l (key x) := rfl
        _ = Function.update m (key x) (val x) (key x) := writeAll_of_ne hne
        _ = val x := Function.update_self _ _ _
    · exact ih hd.2 hmem

/-- The order of the list does not matter. -/
theorem writeAll_perm (hd : (l.map key).Nodup) (h : l.Perm l') :
    writeAll key val m l = writeAll key val m l' := by
  funext k
  by_cases hk : ∃ x ∈ l, key x = k
  · obtain ⟨x, hx, rfl⟩ := hk
    rw [writeAll_of_mem hd hx, writeAll_of_mem ((h.map key).nodup_iff.mp hd) (h.subset hx)]
  · have hne : ∀ x ∈ l, key x ≠ k := fun x hx heq => hk ⟨x, hx, heq⟩
    rw [writeAll_of_ne hne, writeAll_of_ne fun x hx => hne x (h.mem_iff.mpr hx)]

end WriteAll

/-- A copy of consecutive places, with the place behind them. -/
theorem update_range {n lo k : Nat} (f g : Fin n → β) (hlt : lo + k < n) :
    Function.update (fun i => if lo ≤ i.val ∧ i.val < lo + k then f i else g i) ⟨lo + k, hlt⟩
      (f ⟨lo + k, hlt⟩) = fun i => if lo ≤ i.val ∧ i.val < lo + (k + 1) then f i else g i := by
  funext i
  by_cases hi : i = ⟨lo + k, hlt⟩
  · subst hi
    rw [Function.update_self]
    exact (if_pos ⟨Nat.le_add_right lo k, Nat.lt_succ_self (lo + k)⟩).symm
  · have hne : i.val ≠ lo + k := fun heq => hi (Fin.eq_of_val_eq heq)
    rw [Function.update_of_ne hi]
    exact if_congr (by omega) rfl rfl

/-- Where the keys are different an element is found by its key. -/
theorem find?_key {key : α → κ} (hkey : Function.Injective key) {l : List α} {x : α}
    (hx : x ∈ l) : (l.find? fun y => decide (key y = key x)) = some x := by
  induction l with
  | nil => exact absurd hx List.not_mem_nil
  | cons y ys ih =>
    by_cases hy : key y = key x
    · rw [List.find?_cons, decide_eq_true hy, hkey hy]
    · have hne : x ≠ y := fun heq => hy (congrArg key heq.symm)
      rw [List.find?_cons, decide_eq_false hy]
      exact ih ((List.mem_cons.mp hx).resolve_left hne)

end HpmSdk.Foundation
