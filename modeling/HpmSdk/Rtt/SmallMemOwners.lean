import HpmSdk.Rtt.SmallMemFree
import Mathlib.Data.List.Perm.Basic

set_option autoImplicit false

/-!
# Who owns the bytes of the heap

A live block is a pointer that an allocation gave out, with the bytes that its owner keeps there.
Each live block has a used block of the heap to itself, and every used block has an owner.

The used blocks and the live ones correspond one to one in some order; an allocation adds a pair, a
free removes one.
-/

namespace HpmSdk.Rtt

open Foundation Foundation.Blocks

/-- A block that was allocated and not freed: the pointer, and the bytes that the owner counts
on. -/
structure Live where
  ptr : Nat
  data : List UInt8
  deriving DecidableEq

/-- The live block is in the used block at a place, and its bytes are there. -/
structure Owns (s : SmallMem) (v : Live) (x : Nat × Nat) : Prop where
  ptr : v.ptr = s.heapPtr + x.1 + sizeofStructMem
  room : v.data.length + sizeofStructMem ≤ x.2
  bytes : s.ram.toList (x.1 + sizeofStructMem) v.data.length = v.data

/-- The live blocks have the used blocks of the heap, one each. -/
def Owned (s : SmallMem) (live : List Live) : Prop :=
  ∃ bs xs, Holds s bs ∧ xs.Perm (usedPlaces 0 bs) ∧ List.Forall₂ (Owns s) live xs

section Owners

variable {s t : SmallMem} {live la lb : List Live} {v w : Live} {xs xa xb A B : List (Nat × Nat)}
variable {bs l r : List Block} {n : Nat}

/-- Owning depends on the bytes of the block only. -/
theorem Owns.congr {x : Nat × Nat} (h : Owns s v x) (hptr : t.heapPtr = s.heapPtr)
    (hbytes : ∀ i, x.1 + sizeofStructMem ≤ i → i < x.1 + x.2 → t.ram i = s.ram i) : Owns t v x := by
  refine ⟨by rw [hptr]; exact h.ptr, h.room, Eq.trans ?_ h.bytes⟩
  have hroom := h.room
  exact Buf.toList_congr fun i hi => hbytes _ (by omega) (by omega)

theorem forall₂_owns_congr (h : List.Forall₂ (Owns s) live xs) (hptr : t.heapPtr = s.heapPtr)
    (hbytes : ∀ x ∈ xs, ∀ i, x.1 + sizeofStructMem ≤ i → i < x.1 + x.2 → t.ram i = s.ram i) :
    List.Forall₂ (Owns t) live xs := by
  induction h with
  | nil => exact List.Forall₂.nil
  | cons hx _ ih =>
    refine List.Forall₂.cons (hx.congr hptr (hbytes _ List.mem_cons_self)) ?_
    exact ih fun x hx => hbytes x (List.mem_cons_of_mem _ hx)

/-- A call that keeps the used blocks keeps what their owners count on. -/
theorem forall₂_owns_keeps (h : List.Forall₂ (Owns s) live xs) (hkeeps : Keeps s t bs)
    (hxs : ∀ x ∈ xs, x ∈ usedPlaces 0 bs) : List.Forall₂ (Owns t) live xs := by
  refine forall₂_owns_congr h hkeeps.heapPtr fun x hx i hlo hhi => ?_
  exact hkeeps.bytes i (userByte_iff.mpr ⟨x, hxs x hx, hlo, hhi⟩)

theorem Owned.perm (h : Owned s live) (hperm : la.Perm live) : Owned s la := by
  obtain ⟨bs, xs, hholds, hxs, hall⟩ := h
  obtain ⟨ys, hys, hyx⟩ := List.perm_comp_forall₂ hperm hall
  exact ⟨bs, ys, hholds, hyx.trans hxs, hys⟩

theorem forall₂_split {R : Live → Nat × Nat → Prop} :
    ∀ (la : List Live) {xs : List (Nat × Nat)}, List.Forall₂ R (la ++ v :: lb) xs →
      ∃ xa x xb, xs = xa ++ x :: xb ∧ List.Forall₂ R la xa ∧ R v x ∧ List.Forall₂ R lb xb
  | [], _, .cons hv hb => ⟨[], _, _, rfl, .nil, hv, hb⟩
  | _ :: la, _, .cons hw hrest => by
    obtain ⟨xa, x, xb, rfl, ha, hv, hb⟩ := forall₂_split la hrest
    exact ⟨_ :: xa, x, xb, rfl, .cons hw ha, hv, hb⟩

/-- One live block with its used block, and the others with the others. -/
theorem Owned.split (h : Owned s (la ++ v :: lb)) : ∃ l n r xa xb,
    Holds s (l ++ ⟨n, true⟩ :: r) ∧ Owns s v (total l, n) ∧
      (xa ++ xb).Perm (usedPlaces 0 l ++ usedPlaces (total l + n) r) ∧
      List.Forall₂ (Owns s) la xa ∧ List.Forall₂ (Owns s) lb xb := by
  obtain ⟨bs, xs, hholds, hxs, hall⟩ := h
  obtain ⟨xa, x, xb, rfl, ha, hv, hb⟩ := forall₂_split la hall
  have hx : x ∈ usedPlaces 0 bs := hxs.mem_iff.mp (by simp)
  obtain ⟨l, r, rfl, hplace⟩ := mem_usedPlaces_iff.mp hx
  obtain ⟨place, n⟩ := x
  rw [Nat.zero_add] at hplace
  dsimp only at hplace
  subst hplace
  refine ⟨l, n, r, xa, xb, hholds, hv, ?_, ha, hb⟩
  rw [usedPlaces_append, Nat.zero_add, usedPlaces, if_pos rfl] at hxs
  exact (List.perm_middle.symm.trans (hxs.trans List.perm_middle)).cons_inv

/-- A new live block with a used block of its own joins the others. -/
theorem Owned.join {place : Nat} (hholds : Holds t bs)
    (hplaces : usedPlaces 0 bs = A ++ (place, n) :: B) (hperm : (xa ++ xb).Perm (A ++ B))
    (ha : List.Forall₂ (Owns t) la xa) (hb : List.Forall₂ (Owns t) lb xb)
    (hv : Owns t v (place, n)) : Owned t (la ++ v :: lb) := by
  refine ⟨bs, xa ++ (place, n) :: xb, hholds, ?_, List.rel_append ha (.cons hv hb)⟩
  rw [hplaces]
  exact List.perm_middle.trans ((hperm.cons _).trans List.perm_middle.symm)

/-! ## Allocation -/

/-- **An allocation gives a block that nobody has**, or leaves the heap as it is. -/
theorem Owned.alloc {fuel size p : Nat} (h : Owned s live) (hfuel : s.memSizeAligned ≤ fuel)
    (hsize : size + 3 < 2 ^ 32) (hrun : rtMalloc fuel s size = some (p, t)) :
    (p = rtNull ∧ t = s) ∨
      (p ≠ rtNull ∧ t.heapPtr = s.heapPtr ∧ t.memSizeAligned = s.memSizeAligned ∧
        Owned t (live ++ [⟨p, t.ram.toList (p - t.heapPtr) size⟩])) := by
  obtain ⟨bs, xs, hholds, hxs, hall⟩ := h
  rcases Nat.eq_zero_or_pos size with rfl | hpos
  · rw [rtMalloc, if_pos rfl] at hrun
    cases hrun
    exact Or.inl ⟨rfl, rfl⟩
  rcases rtMalloc_spec hholds hfuel hpos with ⟨-, heq⟩ | ⟨l, n, r, u, rfl, hn, -, -, heq, hnew, hkeeps⟩
  · rw [heq] at hrun
    cases hrun
    exact Or.inl ⟨rfl, rfl⟩
  rw [heq] at hrun
  cases hrun
  have hstruct : sizeofStructMem = 12 := rfl
  have hnull : rtNull = 0 := rfl
  refine Or.inr ⟨by omega, hkeeps.heapPtr, hkeeps.memSizeAligned, ?_⟩
  have hroom := le_given leastRest hn
  have hreq := Nat.le_trans (le_rtAlign hsize) (le_requestSize size).2
  have hplaces : usedPlaces 0 (l ++ carve leastRest n (requestSize size + sizeofStructMem) ++ r) =
      usedPlaces 0 l ++ (total l, given leastRest n (requestSize size + sizeofStructMem)) ::
        usedPlaces (total l + n) r := by
    rw [List.append_assoc, usedPlaces_append, usedPlaces_append, usedPlaces_carve, total_carve,
      Nat.zero_add]
    rfl
  have hold : usedPlaces 0 (l ++ ⟨n, false⟩ :: r) = usedPlaces 0 l ++ usedPlaces (total l + n) r := by
    rw [usedPlaces_append, Nat.zero_add]
    rfl
  rw [hold] at hxs
  refine Owned.join hnew hplaces (show (xs ++ []).Perm _ by simpa using hxs) ?_ .nil ⟨?_, ?_, ?_⟩
  · refine forall₂_owns_keeps hall hkeeps fun x hx => ?_
    rw [hplaces]
    have hmem := hxs.mem_iff.mp hx
    rcases List.mem_append.mp hmem with hx | hx
    · exact List.mem_append_left _ hx
    · exact List.mem_append_right _ (List.mem_cons_of_mem _ hx)
  · rw [hkeeps.heapPtr]
  · rw [Buf.length_toList]
    omega
  · rw [Buf.length_toList, hkeeps.heapPtr]
    congr 1
    omega

/-! ## Release -/

/-- A free takes the block from its owner and leaves the others theirs. -/
theorem Owned.free (h : Owned s (la ++ v :: lb)) : Owned (rtFree s v.ptr) (la ++ lb) := by
  obtain ⟨l, n, r, xa, xb, hholds, hv, hperm, ha, hb⟩ := h.split
  obtain ⟨hnew, hkeeps⟩ := rtFree_spec hholds
  have hplaces : usedPlaces 0 (release n r l) = usedPlaces 0 l ++ usedPlaces (total l + n) r := by
    rw [usedPlaces_release, Nat.zero_add]
  have hmem : ∀ x ∈ xa ++ xb, x ∈ usedPlaces 0 (release n r l) := by
    intro x hx
    rw [hplaces]
    exact hperm.mem_iff.mp hx
  rw [hv.ptr]
  refine ⟨release n r l, xa ++ xb, hnew, by rw [hplaces]; exact hperm, List.rel_append ?_ ?_⟩
  · exact forall₂_owns_keeps ha hkeeps fun x hx => hmem x (List.mem_append_left _ hx)
  · exact forall₂_owns_keeps hb hkeeps fun x hx => hmem x (List.mem_append_right _ hx)

/-! ## Stores of an owner -/

/-- An edit of the bytes behind the `struct heap_mem` of one block. -/
theorem Holds.store (h : Holds s (l ++ ⟨n, true⟩ :: r)) (ram : Buf)
    (hout : ∀ i, i < total l + sizeofStructMem ∨ total l + n ≤ i → ram i = s.ram i) :
    Holds { s with ram } (l ++ ⟨n, true⟩ :: r) := by
  obtain ⟨hn, -, -⟩ := h.place_lt
  have hlaid := h.laid
  have hmem := hlaid.heapMem_eq
  refine ⟨?_, h.large, h.spaced, h.lfree, h.usedMem, h.maxMem, h.aligned⟩
  rw [show l ++ ⟨n, true⟩ :: r = l ++ [⟨n, true⟩] ++ r by simp] at hlaid ⊢
  refine hlaid.rewrite (fun i hi => ?_) rfl rfl (fun b hb => ?_) ⟨?_, trivial⟩
  · simp only [total_cons, total_nil] at hi
    exact hout i (by omega)
  · exact hlaid.sizes b (by simp only [List.mem_append]; exact Or.inl (Or.inl (Or.inr hb)))
  · rw [heapMem_congr fun i _ hi => hout i (Or.inl hi), hmem]

/-- A live block is written, in its own bytes only. -/
theorem Owned.store (h : Owned s (la ++ v :: lb)) (ram : Buf)
    (hout : ∀ i, i < v.ptr - s.heapPtr ∨ v.ptr - s.heapPtr + v.data.length ≤ i → ram i = s.ram i) :
    Owned { s with ram }
      (la ++ ⟨v.ptr, ram.toList (v.ptr - s.heapPtr) v.data.length⟩ :: lb) := by
  obtain ⟨l, n, r, xa, xb, hholds, hv, hperm, ha, hb⟩ := h.split
  have hplace : v.ptr - s.heapPtr = total l + sizeofStructMem := by
    rw [hv.ptr]
    omega
  have hroom := hv.room
  dsimp only at hroom
  rw [hplace] at hout ⊢
  have hnew := hholds.store ram fun i hi => hout i (by omega)
  have hplaces : usedPlaces 0 (l ++ ⟨n, true⟩ :: r) =
      usedPlaces 0 l ++ (total l, n) :: usedPlaces (total l + n) r := by
    rw [usedPlaces_append, Nat.zero_add]
    rfl
  have hother : ∀ x ∈ xa ++ xb, ∀ i, x.1 + sizeofStructMem ≤ i → i < x.1 + x.2 →
      ram i = s.ram i := by
    intro x hx i hlo hhi
    rcases List.mem_append.mp (hperm.mem_iff.mp hx) with hx | hx
    · have hle := (le_of_mem_usedPlaces hx).2
      exact hout i (by omega)
    · have hge := (le_of_mem_usedPlaces hx).1
      exact hout i (by omega)
  refine Owned.join hnew hplaces hperm ?_ ?_ ⟨hv.ptr, ?_, ?_⟩
  · exact forall₂_owns_congr ha rfl fun x hx => hother x (List.mem_append_left _ hx)
  · exact forall₂_owns_congr hb rfl fun x hx => hother x (List.mem_append_right _ hx)
  · rw [Buf.length_toList]
    exact hroom
  · rw [Buf.length_toList]

end Owners

end HpmSdk.Rtt
