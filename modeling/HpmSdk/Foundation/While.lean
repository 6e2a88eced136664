import Mathlib.Logic.Function.Iterate
import Mathlib.Order.Nat
import Mathlib.Data.Nat.Find

set_option autoImplicit false

/-!
# Foundation: while loops

A loop runs its body as long as its guard holds.  The number of times is the first one behind
which the guard fails, and there is none where the guard never does.
-/

namespace HpmSdk.Foundation

variable {S : Type} {guard : S → Bool} {body : S → S}

/-- `while (guard) { body }`, given up when the fuel runs out. -/
def whileFuel (guard : S → Bool) (body : S → S) : Nat → S → Option S
  | 0, _ => none
  | fuel + 1, s => if guard s then whileFuel guard body fuel (body s) else some s

/-- The guard fails for the first time behind `n` bodies. -/
def WhileExits (guard : S → Bool) (body : S → S) (n : Nat) (s : S) : Prop :=
  guard (body^[n] s) = false ∧ ∀ m < n, guard (body^[m] s) = true

/-- A loop that exits within the passes that are given returns what its body made. -/
theorem whileFuel_of_exits : ∀ {n : Nat} {s : S}, WhileExits guard body n s →
    whileFuel guard body (n + 1) s = some (body^[n] s)
  | 0, s, h => by
    have hexit : guard s = false := h.1
    rw [whileFuel, hexit]
    rfl
  | n + 1, s, h => by
    have hfirst : guard s = true := h.2 0 (Nat.succ_pos n)
    have hrest : WhileExits guard body n (body s) :=
      ⟨h.1, fun m hm => h.2 (m + 1) (Nat.succ_lt_succ hm)⟩
    rw [whileFuel, hfirst, if_pos rfl]
    exact whileFuel_of_exits hrest

/-- A loop that returns has exited behind some number of passes. -/
theorem exits_of_whileFuel : ∀ {fuel : Nat} {s t : S}, whileFuel guard body fuel s = some t →
    ∃ n, WhileExits guard body n s ∧ t = body^[n] s
  | fuel + 1, s, t, h => by
    rw [whileFuel] at h
    cases hguard : guard s with
    | false =>
      rw [hguard] at h
      exact ⟨0, ⟨hguard, fun m hm => absurd hm (Nat.not_lt_zero m)⟩, (Option.some.inj h).symm⟩
    | true =>
      rw [hguard, if_pos rfl] at h
      obtain ⟨n, hexits, ht⟩ := exits_of_whileFuel h
      refine ⟨n + 1, ⟨hexits.1, ?_⟩, ht⟩
      intro m hm
      cases m with
      | zero => exact hguard
      | succ m => exact hexits.2 m (Nat.lt_of_succ_lt_succ hm)

/-- A loop ends in a state if and only if that is the first one in which the guard fails. -/
theorem whileFuel_iff {s t : S} : (∃ fuel, whileFuel guard body fuel s = some t) ↔
    ∃ n, WhileExits guard body n s ∧ t = body^[n] s := by
  constructor
  · rintro ⟨fuel, h⟩
    exact exits_of_whileFuel h
  · rintro ⟨n, hexits, rfl⟩
    exact ⟨n + 1, whileFuel_of_exits hexits⟩

/-- What the body keeps, the loop keeps. -/
theorem whileFuel_invariant {P : S → Prop} (hbody : ∀ s, P s → guard s = true → P (body s)) :
    ∀ {fuel : Nat} {s t : S}, P s → whileFuel guard body fuel s = some t → P t
  | fuel + 1, s, t, hs, h => by
    rw [whileFuel] at h
    cases hguard : guard s with
    | false =>
      rw [hguard] at h
      cases h
      exact hs
    | true =>
      rw [hguard, if_pos rfl] at h
      exact whileFuel_invariant hbody (hbody s hs hguard) h

/-- A loop whose body keeps an invariant and lowers its rank ends, with the guard failed. -/
theorem whileFuel_of_rank {P : Nat → S → Prop}
    (hbody : ∀ n s, P n s → guard s = true → ∃ m < n, P m (body s)) :
    ∀ {fuel n : Nat} {s : S}, P n s → n < fuel →
      ∃ t m, whileFuel guard body fuel s = some t ∧ P m t ∧ guard t = false
  | fuel + 1, n, s, hs, hfuel => by
    rw [whileFuel]
    cases hguard : guard s with
    | false => exact ⟨s, n, rfl, hs, hguard⟩
    | true =>
      obtain ⟨m, hless, hnext⟩ := hbody n s hs hguard
      rw [if_pos rfl]
      exact whileFuel_of_rank hbody hnext (by omega)

/-- What a loop leaves of its variables. -/
theorem whileFuel_map_iff {T : Type} {f : S → T} {s : S} {y : T} :
    (∃ fuel, (whileFuel guard body fuel s).map f = some y) ↔
      ∃ n, WhileExits guard body n s ∧ y = f (body^[n] s) := by
  constructor
  · rintro ⟨fuel, h⟩
    obtain ⟨t, hrun, rfl⟩ := Option.map_eq_some_iff.mp h
    obtain ⟨n, hexits, rfl⟩ := whileFuel_iff.mp ⟨fuel, hrun⟩
    exact ⟨n, hexits, rfl⟩
  · rintro ⟨n, hexits, rfl⟩
    obtain ⟨fuel, hrun⟩ := whileFuel_iff.mpr ⟨n, hexits, rfl⟩
    exact ⟨fuel, Option.map_eq_some_iff.mpr ⟨_, hrun, rfl⟩⟩

/-- A condition on numbers fails for the first time. -/
def FirstFails (p : Nat → Prop) (n : Nat) : Prop := ¬ p n ∧ ∀ m < n, p m

/-- A guard that is a condition on the number of bodies. -/
theorem whileExits_iff {p : Nat → Prop} [DecidablePred p] {n : Nat} {s : S}
    (h : ∀ n, guard (body^[n] s) = decide (p n)) :
    WhileExits guard body n s ↔ FirstFails p n := by
  unfold WhileExits FirstFails
  simp only [h, decide_eq_false_iff_not, decide_eq_true_eq]

theorem firstFails_congr {p q : Nat → Prop} (h : ∀ m, p m ↔ q m) {n : Nat} :
    FirstFails p n ↔ FirstFails q n := by
  rw [show p = q from funext fun m => propext (h m)]

/-- The first failure is one later if the first test passes and the rest fails then. -/
theorem firstFails_succ_iff {p q : Nat → Prop} (hq : ∀ m, p (m + 1) ↔ q m) {n : Nat} :
    FirstFails p (n + 1) ↔ p 0 ∧ FirstFails q n := by
  constructor
  · intro h
    refine ⟨h.2 0 n.succ_pos, (not_congr (hq n)).mp h.1, fun m hm => ?_⟩
    exact (hq m).mp (h.2 (m + 1) (Nat.succ_lt_succ hm))
  · rintro ⟨hzero, h⟩
    refine ⟨(not_congr (hq n)).mpr h.1, fun m hm => ?_⟩
    cases m with
    | zero => exact hzero
    | succ m => exact (hq m).mpr (h.2 m (Nat.lt_of_succ_lt_succ hm))

/-- Up to a bound a condition fails for the first time, or not at all. -/
theorem firstFails_or_forall (p : Nat → Prop) [DecidablePred p] (n : Nat) :
    (∃ k ≤ n, FirstFails p k) ∨ ∀ m ≤ n, p m := by
  by_cases h : ∃ k, k ≤ n ∧ ¬ p k
  · have hex : ∃ k, ¬ p k := h.imp fun _ hk => hk.2
    obtain ⟨k, hle, hk⟩ := h
    left
    refine ⟨Nat.find hex, (Nat.find_min' hex hk).trans hle, Nat.find_spec hex, fun m hm => ?_⟩
    exact Decidable.not_not.mp (Nat.find_min hex hm)
  · right
    intro m hm
    by_contra hfails
    exact h ⟨m, hm, hfails⟩

/-- Where a condition fails for the first time is known from one place where it does. -/
theorem FirstFails.eq {p : Nat → Prop} {n m : Nat} (hn : FirstFails p n) (hm : FirstFails p m) :
    n = m := by
  rcases Nat.lt_trichotomy n m with hlt | heq | hgt
  · exact absurd (hm.2 n hlt) hn.1
  · exact heq
  · exact absurd (hn.2 m hgt) hm.1

end HpmSdk.Foundation
