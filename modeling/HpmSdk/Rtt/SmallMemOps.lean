import HpmSdk.Rtt.SmallMemEdits

set_option autoImplicit false

/-!
# The operations of the heap

Each operation takes a heap that stands for a list of blocks to one that stands for the list
behind the operation, and changes no byte of a used block.

The modules on runs and owners use these specifications only, and follow no loop again.
-/

namespace HpmSdk.Rtt

open Foundation Foundation.Blocks

section Split

variable {s : SmallMem} {l r : List Block} {n k j q : Nat} {u : Bool}

/-! ## Splitting a block -/

/-- The bytes that a new block in the middle of another one leaves alone. -/
theorem insertMem_of_outside {ptr ptr2 i : Nat} (h : i < ptr ∨ ptr + sizeofStructMem ≤ i)
    (h2 : i < ptr2 ∨ ptr2 + sizeofStructMem ≤ i) : (insertMem s ptr ptr2).ram i = s.ram i := by
  unfold insertMem
  dsimp only
  rw [(set_of_outside h).2.2.1, (set_of_outside h2).2.2.2, (set_of_outside h2).2.2.1,
    (set_of_outside h2).2.1, (set_of_outside h2).1]

theorem insertMem_eq (ptr ptr2 : Nat) :
    insertMem s ptr ptr2 = { s with ram := (insertMem s ptr ptr2).ram } := rfl

/-- A block is cut in two; the link back behind them is the old one. -/
theorem Laid.insertMem (h : Laid s (l ++ ⟨k + j, u⟩ :: r)) (hk : SizeOk k) (hj : SizeOk j) :
    ∃ q, Gapped (insertMem s (total l) (total l + k)) (l ++ [⟨k, u⟩, ⟨j, false⟩]) q r := by
  rw [← List.singleton_append, ← List.append_assoc, laid_append] at h
  have hlt := h.total_lt
  have hmem := (tiles_append.mp h.low).2.1
  have hsize : sizeofStructMem ≤ k := Nat.le_trans (by decide) hk.1
  have hplace := lastPlace_le (Nat.le_refl 0) l
  rw [total_append] at hlt
  simp only [total_cons, total_nil] at hlt
  simp only [Nat.zero_add] at hmem
  refine ⟨lastPlace 0 0 (l ++ [⟨k + j, u⟩]), ?_⟩
  rw [insertMem_eq]
  refine h.rewrite (fun i hi => ?_) (by simp) (fun b hb => ?_) ⟨?_, ?_, trivial⟩
  · simp only [total_cons, total_nil] at hi
    have hjsize : sizeofStructMem ≤ j := Nat.le_trans (by decide) hj.1
    exact insertMem_of_outside (by omega) (by omega)
  · rcases List.mem_cons.mp hb with rfl | hb
    · exact hk
    · rw [List.mem_singleton.mp hb]
      exact hj
  all_goals unfold Rtt.insertMem; dsimp only
  · have hapart : total l + sizeofStructMem ≤ total l + k ∨
        total l + k + sizeofStructMem ≤ total l := Or.inl (by omega)
    rw [heapMem_setNext, (heapMem_set_of_apart hapart.symm).2.2.2,
      (heapMem_set_of_apart hapart.symm).2.2.1, (heapMem_set_of_apart hapart.symm).2.1,
      (heapMem_set_of_apart hapart.symm).1, hmem, Nat.mod_eq_of_lt (by omega)]
  · have hapart : total l + sizeofStructMem ≤ total l + k ∨
        total l + k + sizeofStructMem ≤ total l := Or.inl (by omega)
    rw [(heapMem_set_of_apart hapart).2.2.1, heapMem_setPrev, heapMem_setNext, heapMem_setUsed,
      heapMem_setMagic, (heapMem_set_of_apart hapart.symm).2.1,
      (heapMem_set_of_apart hapart.symm).1, hmem]
    simp only [Nat.mod_eq_of_lt (show total l + (k + j) < 2 ^ 32 by omega),
      Nat.mod_eq_of_lt (show total l < 2 ^ 32 by omega), Nat.add_assoc]
    rfl

/-- The link back behind the new block. -/
theorem linkBack_spec (h : Gapped s (l ++ [⟨k, u⟩, ⟨j, false⟩]) q r) :
    ∃ ram, linkBack s (total l + k) = { s with ram } ∧
      Laid { s with ram } (l ++ ⟨k, u⟩ :: ⟨j, false⟩ :: r) ∧
      ∀ i, i < total l + k + j ∨ total l + k + j + sizeofStructMem ≤ i → ram i = s.ram i := by
  have hmem := (tiles_append.mp h.low).2.2.1
  have hlt := h.total_lt
  have htotal := h.total
  have hend := h.heapEnd
  have hplace : total (l ++ [(⟨k, u⟩ : Block), ⟨j, false⟩]) = total l + k + j := by
    simp [Nat.add_assoc]
  rw [hplace] at hlt htotal
  simp only [Nat.zero_add] at hmem
  have hlaid : ∀ t : SmallMem, Gapped t (l ++ [⟨k, u⟩, ⟨j, false⟩]) (total l + k) r →
      Laid t (l ++ ⟨k, u⟩ :: ⟨j, false⟩ :: r) := by
    intro t ht
    rw [show l ++ ⟨k, u⟩ :: ⟨j, false⟩ :: r = l ++ [⟨k, u⟩, ⟨j, false⟩] ++ r by simp, laid_append]
    rw [show l ++ [(⟨k, u⟩ : Block), ⟨j, false⟩] = (l ++ [⟨k, u⟩]) ++ [⟨j, false⟩] by simp,
      lastPlace_concat, total_append, Nat.zero_add]
    simpa using ht
  unfold linkBack
  simp only [hmem]
  by_cases hr : total l + k + j = s.memSizeAligned + sizeofStructMem
  · -- the block reaches the end of the heap, so that nothing is behind it
    have hnil : r = [] := by
      cases r with
      | nil => rfl
      | cons b r =>
        have hb := (h.sizes b (by simp)).1
        rw [total_cons] at htotal
        omega
    subst hnil
    refine ⟨s.ram, if_neg (not_not.mpr hr), hlaid s ?_, fun _ _ => rfl⟩
    exact ⟨h.bound, h.heapEnd, h.total, h.low, trivial, h.endMem, h.sizes⟩
  · refine ⟨setPrev s.ram (total l + k + j) (total l + k), if_pos hr, hlaid _ ?_, fun i hi => ?_⟩
    · have hset := h.setPrev (v := total l + k) (by omega)
      rw [hplace] at hset
      exact hset
    · exact (set_of_outside hi).2.2.2

/-- The size that is read from a header is that of the block without it. -/
theorem userSize_eq (h : Laid s (l ++ ⟨n, u⟩ :: r)) :
    userSize s.ram (total l) = n - sizeofStructMem := by
  have hmem := h.heapMem_eq
  have hn : sizeofStructMem ≤ n := h.header_le ⟨n, u⟩ (by simp)
  have hlt := h.total_lt
  simp only [total_append, total_cons] at hlt
  unfold userSize
  rw [hmem, addMod_eq (by omega), subMod_eq (by dsimp only; omega) (by dsimp only; omega)]
  dsimp only
  omega

end Split

/-! ## `rt_malloc` -/

/-- The smallest rest that `rt_malloc` leaves as a block of its own. -/
def leastRest : Nat := sizeofStructMem + minSizeAligned

/-- The variables behind `used_mem += n`. -/
def counted (s : SmallMem) (ram : Buf) (n : Nat) : SmallMem :=
  { s with ram, usedMem := s.usedMem + n, maxMem := max s.maxMem (s.usedMem + n) }

/-- The count of used bytes does not wrap, as it is at most the size of the heap. -/
theorem countUsed_eq {s : SmallMem} {n : Nat} (h : s.usedMem + n < 2 ^ 32) :
    countUsed s n = counted s s.ram n := by
  unfold countUsed counted
  rw [addMod_eq h]
  simp only [SmallMem.mk.injEq, true_and]
  split <;> omega

section Take

variable {s : SmallMem} {l r : List Block} {n size : Nat}

/-- A byte of a user lies outside the `struct heap_mem` of both parts of a block that was cut in
two, and of the block behind them. -/
theorem userByte_split {k j i : Nat}
    (h : UserByte sizeofStructMem i 0 (l ++ ⟨k, true⟩ :: ⟨j, false⟩ :: r)) :
    (i < total l ∨ total l + sizeofStructMem ≤ i) ∧
      (i < total l + k ∨ total l + k + j + sizeofStructMem ≤ i) := by
  rw [userByte_append] at h
  simp only [UserByte, Bool.false_eq_true, false_and, false_or, Nat.zero_add] at h
  rcases h with h | ⟨-, hlo, hhi⟩ | h
  · have hhi := (userByte_bounds h).2
    omega
  · omega
  · have hlo := (userByte_bounds h).1
    omega

/-- `used_mem` does not wrap, whatever part of a free block is taken. -/
theorem Laid.usedMem_add_lt (h : Laid s (l ++ ⟨n, false⟩ :: r))
    (hused : s.usedMem = usedTotal (l ++ ⟨n, false⟩ :: r)) : s.usedMem + n < 2 ^ 32 := by
  have htotal := h.total
  have hl := usedTotal_le_total l
  have hr := usedTotal_le_total r
  have hmax := h.bound
  have hend := h.heapEnd
  have hstruct : sizeofStructMem = 12 := rfl
  simp only [usedTotal_append, usedTotal_cons, Bool.false_eq_true, if_false, total_append,
    total_cons] at hused htotal
  omega

/-- The rest of the block is large enough to be a block of its own. -/
theorem takeBlock_split {j : Nat} (h : Laid s (l ++ ⟨size + sizeofStructMem + j, false⟩ :: r))
    (hused : s.usedMem + (size + sizeofStructMem) < 2 ^ 32)
    (hk : SizeOk (size + sizeofStructMem)) (hj : SizeOk j) (hrest : leastRest ≤ j) :
    ∃ ram, takeBlock s (total l) size = counted s ram (size + sizeofStructMem) ∧
      Laid { s with ram } (l ++ ⟨size + sizeofStructMem, true⟩ :: ⟨j, false⟩ :: r) ∧
      ∀ i, UserByte sizeofStructMem i 0 (l ++ ⟨size + sizeofStructMem, true⟩ :: ⟨j, false⟩ :: r) →
        ram i = s.ram i := by
  have hleast : leastRest = 24 := rfl
  have hminval : minSizeAligned = 12 := rfl
  have hstruct : sizeofStructMem = 12 := rfl
  obtain ⟨q, hinsert⟩ := h.insertMem hk hj
  have hmark := hinsert.setUsed (m := [⟨j, false⟩]) true
  obtain ⟨ram, hlink, hlaid, hbytes⟩ := linkBack_spec hmark
  unfold takeBlock
  dsimp only
  rw [userSize_eq h, if_pos (by omega),
    show total l + sizeofStructMem + size = total l + (size + sizeofStructMem) by omega]
  refine ⟨setMagic ram (total l) heapMagic, ?_, Gapped.setMagic hlaid, fun i hi => ?_⟩
  · rw [show (1 : Nat) = true.toNat from rfl, hlink, countUsed_eq]
    · rfl
    · exact hused
  · obtain ⟨hmem, hnew⟩ := userByte_split hi
    rw [(set_of_outside hmem).1, hbytes i (by omega)]
    show setUsed (insertMem s _ _).ram _ _ i = s.ram i
    rw [(set_of_outside hmem).2.1, insertMem_of_outside hmem (by omega)]

/-- The block is taken whole. -/
theorem takeBlock_whole (h : Laid s (l ++ ⟨n, false⟩ :: r)) (hused : s.usedMem + n < 2 ^ 32)
    (hrest : n < size + sizeofStructMem + leastRest) :
    ∃ ram, takeBlock s (total l) size = counted s ram n ∧
      Laid { s with ram } (l ++ ⟨n, true⟩ :: r) ∧
      ∀ i, UserByte sizeofStructMem i 0 (l ++ ⟨n, true⟩ :: r) → ram i = s.ram i := by
  have hleast : leastRest = 24 := rfl
  have hminval : minSizeAligned = 12 := rfl
  have hstruct : sizeofStructMem = 12 := rfl
  have hn : sizeofStructMem ≤ n := h.header_le ⟨n, false⟩ (by simp)
  have hlt := h.total_lt
  simp only [total_append, total_cons] at hlt
  have hnext : (heapMem (setUsed s.ram (total l) 1) (total l)).next = total l + n := by
    rw [heapMem_setUsed, h.heapMem_eq]
  unfold takeBlock
  dsimp only
  rw [userSize_eq h, if_neg (by omega), hnext, subMod_eq (by omega) (by omega),
    Nat.add_sub_cancel_left]
  refine ⟨setMagic (setUsed s.ram (total l) 1) (total l) heapMagic, ?_, h.mark true, fun i hi => ?_⟩
  · rw [countUsed_eq]
    · rfl
    · exact hused
  · have hout : i < total l ∨ total l + sizeofStructMem ≤ i := by
      rw [userByte_append] at hi
      simp only [UserByte, Nat.zero_add] at hi
      rcases hi with hi | ⟨-, hlo, -⟩ | hi
      · have hhi := (userByte_bounds hi).2
        omega
      · exact Or.inr hlo
      · have hlo := (userByte_bounds hi).1
        omega
    rw [(set_of_outside hout).1, (set_of_outside hout).2.1]

/-- `rt_malloc` takes the bytes it was asked for from the block, or all of it. -/
theorem takeBlock_spec (h : Laid s (l ++ ⟨n, false⟩ :: r))
    (hused : s.usedMem = usedTotal (l ++ ⟨n, false⟩ :: r)) (hmin : minSizeAligned ≤ size)
    (halign : 4 ∣ size) (hfit : size + sizeofStructMem ≤ n) :
    ∃ ram, takeBlock s (total l) size =
        counted s ram (given leastRest n (size + sizeofStructMem)) ∧
      Laid { s with ram } (l ++ carve leastRest n (size + sizeofStructMem) ++ r) ∧
      ∀ i, UserByte sizeofStructMem i 0 (l ++ carve leastRest n (size + sizeofStructMem) ++ r) →
        ram i = s.ram i := by
  have hn : SizeOk n := h.sizes ⟨n, false⟩ (by simp)
  have hsum := h.usedMem_add_lt hused
  have hleast : leastRest = 24 := rfl
  have hminval : minSizeAligned = 12 := rfl
  have hstruct : sizeofStructMem = 12 := rfl
  rw [List.append_assoc]
  by_cases hsplit : size + sizeofStructMem + leastRest ≤ n
  · obtain ⟨j, rfl⟩ : ∃ j, n = size + sizeofStructMem + j := Nat.exists_eq_add_of_le (by omega)
    have hk : SizeOk (size + sizeofStructMem) := ⟨by omega, Nat.dvd_add halign (by decide)⟩
    have hj : SizeOk j := ⟨by omega, (Nat.dvd_add_right hk.2).mp hn.2⟩
    have hcarve : carve leastRest (size + sizeofStructMem + j) (size + sizeofStructMem) =
        [⟨size + sizeofStructMem, true⟩, ⟨j, false⟩] := by
      rw [carve, if_pos hsplit, Nat.add_sub_cancel_left]
    have hgiven : given leastRest (size + sizeofStructMem + j) (size + sizeofStructMem) =
        size + sizeofStructMem := if_pos hsplit
    rw [hcarve, hgiven]
    exact takeBlock_split h (by omega) hk hj (by omega)
  · have hcarve : carve leastRest n (size + sizeofStructMem) = [⟨n, true⟩] := if_neg hsplit
    have hgiven : given leastRest n (size + sizeofStructMem) = n := if_neg hsplit
    rw [hcarve, hgiven]
    exact takeBlock_whole h hsum (Nat.lt_of_not_le hsplit)

end Take

end HpmSdk.Rtt
