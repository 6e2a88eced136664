import HpmSdk.Rtt.SmallMemLayout

set_option autoImplicit false

/-!
# The edits of the heap

What the parts of `rt_malloc`, `rt_free` and `rt_realloc` make of the list of blocks, and that
they leave the bytes of every used block alone.

An edit is about one place of the list, so that its lemma splits the list there and leaves the two
parts.
-/

namespace HpmSdk.Rtt

open Foundation Foundation.Blocks

section Edits

variable {s : SmallMem} {l m r : List Block} {n k q : Nat} {u : Bool}

/-- A free block and the links behind it are no bytes of users. -/
theorem userByte_gap {i : Nat} (h : UserByte sizeofStructMem i 0 (l ++ ⟨n, false⟩ :: r)) :
    i < total l ∨ total l + n + sizeofStructMem ≤ i := by
  rw [userByte_append, UserByte] at h
  rcases h with h | ⟨hused, -⟩ | h
  · have hlt := (userByte_bounds h).2
    omega
  · cases hused
  · have hge : 0 + total l + n + sizeofStructMem ≤ i := (userByte_bounds h).1
    omega

/-! ## Fields of one block -/

/-- Marking a block changes its mark in the list. -/
theorem Gapped.setUsed (h : Gapped s (l ++ ⟨n, u⟩ :: m) q r) (v : Bool) :
    Gapped { s with ram := Rtt.setUsed s.ram (Blocks.total l) v.toNat } (l ++ ⟨n, v⟩ :: m) q r := by
  have hheader := h.header_le
  have hn : sizeofStructMem ≤ n := hheader ⟨n, u⟩ (by simp)
  have htiles := (tiles_append.mp h.low).2
  rw [Nat.zero_add] at htiles
  refine h.rewrite (m := ⟨n, u⟩ :: m) (fun i hi => ?_) rfl (fun b hb => ?_) ⟨?_, ?_⟩
  · simp only [total_cons] at hi
    exact (set_of_outside (by omega)).2.1
  · rcases List.mem_cons.mp hb with rfl | hb
    · exact h.sizes ⟨n, u⟩ (by simp)
    · exact h.sizes b (by simp [hb])
  · rw [heapMem_setUsed, htiles.1]
    cases v <;> rfl
  · refine htiles.2.congr (fun b hb => hheader b (by simp [hb])) fun i hi _ => ?_
    have hbehind : Blocks.total l + n ≤ i := hi
    exact (set_of_outside (Or.inr (by omega))).2.1

/-- The magic number is put back as it was. -/
theorem Gapped.setMagic (h : Gapped s (l ++ ⟨n, u⟩ :: m) q r) :
    Gapped { s with ram := Rtt.setMagic s.ram (Blocks.total l) heapMagic } (l ++ ⟨n, u⟩ :: m) q r := by
  have hheader := h.header_le
  have hn : sizeofStructMem ≤ n := hheader ⟨n, u⟩ (by simp)
  have htiles := (tiles_append.mp h.low).2
  rw [Nat.zero_add] at htiles
  refine h.rewrite (m := ⟨n, u⟩ :: m) (fun i hi => ?_) rfl
    (fun b hb => h.sizes b (by simp only [List.mem_append]; exact Or.inl (Or.inr hb))) ⟨?_, ?_⟩
  · simp only [total_cons] at hi
    exact (set_of_outside (by omega)).1
  · rw [heapMem_setMagic, htiles.1]
    rfl
  · refine htiles.2.congr (fun b hb => hheader b (by simp [hb])) fun i hi _ => ?_
    have hbehind : Blocks.total l + n ≤ i := hi
    exact (set_of_outside (Or.inr (by omega))).1

/-- `used` and `magic` of one block. -/
theorem Laid.mark (h : Laid s (l ++ ⟨n, u⟩ :: r)) (v : Bool) :
    Laid { s with ram := Rtt.setMagic (Rtt.setUsed s.ram (total l) v.toNat) (total l) heapMagic }
      (l ++ ⟨n, v⟩ :: r) :=
  (Gapped.setUsed h v).setMagic

/-! ## Joining two free blocks -/

/-- The bytes behind `plug_holes` joining two blocks. -/
def merged (ram : Buf) (a n : Nat) : Buf := setPrev (setNext ram a (a + n)) (a + n) a

/-- Joining two blocks edits the links of the first and of the one behind the second. -/
theorem merged_of_outside {ram : Buf} {a i : Nat} (hn : sizeofStructMem ≤ n)
    (h : i < a ∨ a + n + sizeofStructMem ≤ i) : merged ram a n i = ram i := by
  unfold merged
  rw [(set_of_outside (by omega)).2.2.2, (set_of_outside (by omega)).2.2.1]

/-- Two free neighbours that are joined are one free block. -/
theorem Laid.merge (h : Laid s (l ++ ⟨n, false⟩ :: ⟨k, false⟩ :: r)) :
    Laid { s with ram := merged s.ram (total l) (n + k) } (l ++ ⟨n + k, false⟩ :: r) := by
  rw [show l ++ ⟨n, false⟩ :: ⟨k, false⟩ :: r = l ++ [⟨n, false⟩, ⟨k, false⟩] ++ r by simp,
    laid_append] at h
  have hheader := h.header_le
  have hn : sizeofStructMem ≤ n := hheader ⟨n, false⟩ (by simp)
  have htiles := (tiles_append.mp h.low).2
  have hlt := h.total_lt
  rw [Nat.zero_add] at htiles
  rw [total_append] at hlt
  have hplace : total (l ++ [⟨n + k, false⟩]) = total l + (n + k) := by simp
  have hnext : Gapped { s with ram := setNext s.ram (total l) (total l + (n + k)) }
      (l ++ [⟨n + k, false⟩]) (lastPlace 0 0 (l ++ [⟨n, false⟩, ⟨k, false⟩])) r := by
    refine h.rewrite (fun i hi => ?_) (by simp) (fun b hb => ?_) ⟨?_, trivial⟩
    · simp only [total_cons, total_nil] at hi
      exact (set_of_outside (by omega)).2.2.1
    · rw [List.mem_singleton.mp hb]
      exact (h.sizes ⟨n, false⟩ (by simp)).add (h.sizes ⟨k, false⟩ (by simp))
    · simp only [total_cons, total_nil] at hlt
      rw [heapMem_setNext, htiles.1, Nat.mod_eq_of_lt (by omega)]
  have hprev := hnext.setPrev (v := total l) (by omega)
  rw [hplace] at hprev
  rw [← List.singleton_append, ← List.append_assoc, laid_append, lastPlace_concat, Nat.zero_add]
  exact hprev

/-- `plug_holes` forward joins with the next block where that is free. -/
theorem plugForward_spec (h : Laid s (l ++ ⟨n, false⟩ :: r)) (hlfree : s.lfree ≤ total l) :
    ∃ ram, plugForward s (total l) = { s with ram } ∧ Laid { s with ram } (l ++ joinNext n r) ∧
      ∀ i, UserByte sizeofStructMem i 0 (l ++ joinNext n r) → ram i = s.ram i := by
  have hmem := h.heapMem_eq
  have hn : sizeofStructMem ≤ n := h.header_le ⟨n, false⟩ (by simp)
  have htotal := h.total
  simp only [total_append, total_cons, total_nil] at htotal
  have hpos : 0 < n := Nat.lt_of_lt_of_le (by decide) hn
  rcases joinNext_eq n r with ⟨k, r', rfl, hjoin⟩ | ⟨hhead, hjoin⟩ <;> rw [hjoin]
  · have hk : sizeofStructMem ≤ k := h.header_le ⟨k, false⟩ (by simp)
    have hkpos : 0 < k := Nat.lt_of_lt_of_le (by decide) hk
    have hnext : heapMem s.ram (total l + n) =
        ⟨heapMagic, 0, total l + n + k, total l⟩ := by
      have h' : Laid s ((l ++ [⟨n, false⟩]) ++ ⟨k, false⟩ :: r') := by simpa using h
      have heq := h'.heapMem_eq
      rw [lastPlace_concat, Nat.zero_add] at heq
      simpa using heq
    refine ⟨merged s.ram (total l) (n + k), ?_, h.merge, fun i hi => ?_⟩
    · have hkeep : heapMem (setNext s.ram (total l) (total l + n + k)) (total l + n) =
          heapMem s.ram (total l + n) := (heapMem_set_of_apart (Or.inl (by omega))).2.2.1
      simp only [total_cons] at htotal
      unfold plugForward merged
      simp only [hmem, hnext, hkeep]
      rw [if_pos ⟨by omega, trivial, by omega⟩, if_neg (by omega), Nat.add_assoc]
    · exact merged_of_outside (by omega) (userByte_gap hi)
  · refine ⟨s.ram, ?_, h, fun _ _ => rfl⟩
    unfold plugForward
    simp only [hmem]
    refine if_neg fun hcond => ?_
    cases r with
    | nil =>
      rw [total_nil] at htotal
      exact hcond.2.2 (by omega)
    | cons c r =>
      have h' : Laid s ((l ++ [⟨n, false⟩]) ++ c :: r) := by simpa using h
      have hused : (heapMem s.ram (total l + n)).used = c.used.toNat := by
        have heq := h'.heapMem_eq
        rw [show total (l ++ [(⟨n, false⟩ : Block)]) = total l + n by simp] at heq
        rw [heq]
      rw [hused, hhead c rfl] at hcond
      cases hcond.2.1

/-- `plug_holes` backward joins with the previous block where that is free. -/
theorem plugBackward_spec (h : Laid s (l ++ ⟨n, false⟩ :: r))
    (hlfree : s.lfree = firstFree (l ++ ⟨n, false⟩ :: r)) :
    (∃ k l', l = l' ++ [⟨k, false⟩] ∧
      plugBackward s (total l) = { s with ram := merged s.ram (total l') (k + n) } ∧
      Laid { s with ram := merged s.ram (total l') (k + n) } (l' ++ ⟨k + n, false⟩ :: r)) ∨
    ((∀ c ∈ l.getLast?, c.used = true) ∧ plugBackward s (total l) = s) := by
  have hmem := h.heapMem_eq
  rcases List.eq_nil_or_concat' l with rfl | ⟨l', ⟨k, u⟩, rfl⟩
  · right
    refine ⟨fun c hc => by simp at hc, ?_⟩
    unfold plugBackward
    simp only [hmem]
    exact if_neg fun hcond => hcond.1 rfl
  · have h' : Laid s (l' ++ ⟨k, u⟩ :: ⟨n, false⟩ :: r) := by simpa using h
    have hk : sizeofStructMem ≤ k := h.header_le ⟨k, u⟩ (by simp)
    have hkpos : 0 < k := Nat.lt_of_lt_of_le (by decide) hk
    have hprev := h'.heapMem_eq
    have hplace : total (l' ++ [(⟨k, u⟩ : Block)]) = total l' + k := by simp
    rw [lastPlace_concat, Nat.zero_add, hplace] at hmem
    rw [hplace]
    cases u with
    | true =>
      right
      refine ⟨fun c hc => by simp at hc; rw [← hc], ?_⟩
      unfold plugBackward
      simp only [hmem, hprev]
      exact if_neg fun hcond => absurd hcond.2 (by decide)
    | false =>
      left
      refine ⟨k, l', rfl, ?_, h'.merge⟩
      -- a free block in front is the reason why this one is not the lowest
      have hlow : s.lfree < total l' + k := by
        rw [hlfree, firstFree_append_of_free ⟨⟨k, false⟩, by simp, rfl⟩, ← hplace]
        refine firstFree_lt_total (fun b hb => ?_) ⟨⟨k, false⟩, by simp, rfl⟩
        exact Nat.lt_of_lt_of_le (by decide)
          (h.header_le b (List.mem_append_left _ (List.mem_append_left _ hb)))
      have hkeep : heapMem (setNext s.ram (total l') (total l' + k + n)) (total l' + k) =
          heapMem s.ram (total l' + k) := (heapMem_set_of_apart (Or.inl (by omega))).2.2.1
      unfold plugBackward merged
      simp only [hmem, hprev, hkeep]
      rw [if_pos ⟨by omega, rfl⟩, if_neg (by omega), Nat.add_assoc]

theorem userByte_release {i : Nat} : UserByte sizeofStructMem i 0 (release n r l) ↔
    UserByte sizeofStructMem i 0 (l ++ joinNext n r) := by
  rw [userByte_iff, userByte_iff, usedPlaces_release, usedPlaces_append, usedPlaces_joinNext]

/-- Seen from the users, the joined block is the released one and nothing else. -/
theorem userByte_joined {i : Nat} (h : UserByte sizeofStructMem i 0 (release n r l)) :
    UserByte sizeofStructMem i 0 (l ++ ⟨n, false⟩ :: r) := by
  rw [userByte_iff, usedPlaces_release] at h
  rw [userByte_iff, usedPlaces_append]
  exact h

/-- Joining with the next block leaves the lowest free one where it was. -/
theorem firstFree_append_joinNext :
    firstFree (l ++ joinNext n r) = firstFree (l ++ ⟨n, false⟩ :: r) := by
  rcases allUsed_or_exists_free l with hall | hfree
  · rw [firstFree_append_of_used hall, firstFree_append_of_used hall, firstFree_joinNext]
    rfl
  · rw [firstFree_append_of_free hfree, firstFree_append_of_free hfree]

/-- `plug_holes` releases the block. -/
theorem plugHoles_spec (h : Laid s (l ++ ⟨n, false⟩ :: r))
    (hlfree : s.lfree = firstFree (l ++ ⟨n, false⟩ :: r)) :
    ∃ ram, plugHoles s (total l) = { s with ram } ∧ Laid { s with ram } (release n r l) ∧
      ∀ i, UserByte sizeofStructMem i 0 (release n r l) → ram i = s.ram i := by
  have hle : s.lfree ≤ total l := by
    rw [hlfree]
    rcases allUsed_or_exists_free l with hall | hfree
    · rw [firstFree_append_of_used hall]
      exact Nat.le_refl _
    · rw [firstFree_append_of_free hfree]
      exact firstFree_le_total l
  obtain ⟨ram, hforward, hlaid, hbytes⟩ := plugForward_spec h hle
  obtain ⟨k, r', hjoin⟩ : ∃ k r', joinNext n r = ⟨k, false⟩ :: r' := by
    rcases joinNext_eq n r with ⟨m, r', -, hj⟩ | ⟨-, hj⟩ <;> exact ⟨_, _, hj⟩
  have hlfree' : s.lfree = firstFree (l ++ ⟨k, false⟩ :: r') := by
    rw [← hjoin, firstFree_append_joinNext, hlfree]
  unfold plugHoles
  rw [hforward]
  rw [hjoin] at hlaid
  rcases plugBackward_spec hlaid hlfree' with ⟨j, l', rfl, hback, hlaid'⟩ | ⟨hlast, hback⟩
  · have hrelease : release n r (l' ++ [⟨j, false⟩]) = l' ++ ⟨j + k, false⟩ :: r' := by
      rw [release_concat_free, joinNext_add hjoin]
    refine ⟨_, hback, ?_, fun i hi => ?_⟩
    · rw [hrelease]
      exact hlaid'
    · have hj : sizeofStructMem ≤ j := hlaid.header_le ⟨j, false⟩ (by simp)
      rw [← hbytes i (userByte_release.mp hi)]
      rw [hrelease] at hi
      exact merged_of_outside (by omega) (userByte_gap hi)
  · have hrelease : release n r l = l ++ ⟨k, false⟩ :: r' := by
      rw [release_of_used hlast, hjoin]
    refine ⟨ram, hback, ?_, fun i hi => hbytes i (userByte_release.mp hi)⟩
    rw [hrelease]
    exact hlaid

end Edits

end HpmSdk.Rtt
