import HpmSdk.Rtt.SmallMemAlloc

set_option autoImplicit false

/-!
# `rt_free` and `rt_realloc` on the list of blocks

A freed block is joined with its free neighbours.  A block that shrinks gives its rest back, and
one that stays as large is not touched; every other `rt_realloc` is a `rt_malloc`, a copy and a
`rt_free`.
-/

namespace HpmSdk.Rtt

open Foundation Foundation.Blocks

section Free

variable {s : SmallMem} {l r : List Block} {n k j fuel newsize : Nat}

theorem Holds.sizes_pos {bs : List Block} (h : Holds s bs) : ∀ b ∈ bs, 0 < b.size := by
  intro b hb
  exact Nat.lt_of_lt_of_le (by decide) (h.laid.sizes b (List.mem_append_left _ hb)).1

/-- A place inside the heap. -/
theorem Holds.place_lt (h : Holds s (l ++ ⟨n, true⟩ :: r)) :
    sizeofStructMem < n ∧ total l + n ≤ s.heapEnd ∧ s.heapEnd < 2 ^ 32 := by
  have hn : 16 ≤ n := (h.laid.sizes ⟨n, true⟩ (by simp)).1
  have htotal := h.laid.total
  have hend := h.laid.heapEnd
  have hbound := h.laid.bound
  have hstruct : sizeofStructMem = 12 := rfl
  simp only [total_append, total_cons, total_nil] at htotal
  omega

/-- `plug_holes` on a heap that is in order apart from the neighbours of one free block. -/
theorem holds_plugHoles {t : SmallMem} (hlaid : Laid t (l ++ ⟨n, false⟩ :: r))
    (hlarge : minSizeAligned ≤ t.memSizeAligned) (hspaced : Spaced (l ++ ⟨n, true⟩ :: r))
    (hlfree : t.lfree = firstFree (l ++ ⟨n, false⟩ :: r))
    (hused : t.usedMem = usedTotal l + usedTotal r) (hmax : t.usedMem ≤ t.maxMem)
    (haligned : 4 ∣ t.heapPtr) :
    Holds (plugHoles t (total l)) (release n r l) ∧
      Keeps t (plugHoles t (total l)) (release n r l) := by
  obtain ⟨ram, hplug, hlaid', hbytes⟩ := plugHoles_spec hlaid hlfree
  rw [hplug]
  refine ⟨⟨hlaid', hlarge, spaced_release hspaced, ?_, ?_, hmax, haligned⟩, rfl, rfl, rfl, hbytes⟩
  · rw [firstFree_release]
    exact hlfree
  · rw [usedTotal_release]
    exact hused

/-! ## `rt_free` -/

/-- The variables of `rt_free` before `plug_holes`. -/
def unmarked (s : SmallMem) (mem n : Nat) : SmallMem :=
  { s with
    ram := setMagic (setUsed s.ram mem 0) mem heapMagic
    lfree := if mem < s.lfree then mem else s.lfree
    usedMem := s.usedMem - n }

/-- `rt_free` marks the block free and joins it with its neighbours. -/
theorem rtFree_eq (h : Holds s (l ++ ⟨n, true⟩ :: r)) :
    rtFree s (s.heapPtr + total l + sizeofStructMem) =
      plugHoles (unmarked s (total l) n) (total l) := by
  obtain ⟨hn, hend, hlt⟩ := h.place_lt
  have hstruct : sizeofStructMem = 12 := rfl
  have hnull : rtNull = 0 := rfl
  have hplace : s.heapPtr + total l + sizeofStructMem - sizeofStructMem - s.heapPtr = total l := by
    omega
  have hnext : (heapMem (setMagic (setUsed s.ram (total l) 0) (total l) heapMagic)
      (total l)).next = total l + n := by
    rw [heapMem_setMagic, heapMem_setUsed, h.laid.heapMem_eq]
  have hused := h.usedMem
  have hle := usedTotal_le_total (l ++ ⟨n, true⟩ :: r)
  have htotal := h.laid.total
  simp only [usedTotal_append, usedTotal_cons, total_append, total_cons, total_nil, if_true]
    at hused hle htotal
  have hsize : subMod 32 (total l + n) (total l) = n := by
    rw [subMod_eq (by omega) (by omega), Nat.add_sub_cancel_left]
  rw [rtFree, if_neg (by omega), if_neg (by omega)]
  dsimp only
  rw [hplace, hnext, hsize, subMod_eq (by omega) (by omega)]
  rfl

/-- **`rt_free` is the release of the block in the list**, and keeps the bytes of all used blocks.
-/
theorem rtFree_spec (h : Holds s (l ++ ⟨n, true⟩ :: r)) :
    Holds (rtFree s (s.heapPtr + total l + sizeofStructMem)) (release n r l) ∧
      Keeps s (rtFree s (s.heapPtr + total l + sizeofStructMem)) (release n r l) := by
  obtain ⟨hn, -, -⟩ := h.place_lt
  have hpos : ∀ b ∈ l, 0 < b.size := fun b hb => h.sizes_pos b (List.mem_append_left _ hb)
  have hmark := h.laid.mark false
  have hlaid : Laid (unmarked s (total l) n) (l ++ ⟨n, false⟩ :: r) :=
    ⟨hmark.bound, hmark.heapEnd, hmark.total, hmark.low, trivial, hmark.endMem, hmark.sizes⟩
  have hused := h.usedMem
  simp only [usedTotal_append, usedTotal_cons, if_true] at hused
  have hcount : (unmarked s (total l) n).usedMem = usedTotal l + usedTotal r := by
    show s.usedMem - n = _
    omega
  have hlfree : (unmarked s (total l) n).lfree = firstFree (l ++ ⟨n, false⟩ :: r) := by
    rw [firstFree_freed hpos (by omega), ← h.lfree]
    rfl
  obtain ⟨hholds, hkeeps⟩ := holds_plugHoles hlaid h.large h.spaced hlfree hcount
    (Nat.le_trans (Nat.sub_le _ _) h.maxMem) h.aligned
  rw [rtFree_eq h]
  refine ⟨hholds, hkeeps.heapPtr, hkeeps.heapEnd, hkeeps.memSizeAligned, fun i hi => ?_⟩
  rw [hkeeps.bytes i hi]
  have hgap := userByte_gap (userByte_joined hi)
  show setMagic (setUsed s.ram (total l) 0) (total l) heapMagic i = s.ram i
  rw [(set_of_outside (by omega)).1, (set_of_outside (by omega)).2.1]

/-! ## `rt_realloc` -/

/-- The variables of `shrinkBlock` before `plug_holes`. -/
def shrunk (s : SmallMem) (ram : Buf) (ptr2 n : Nat) : SmallMem :=
  { s with
    ram
    usedMem := s.usedMem - n
    lfree := if ptr2 < s.lfree then ptr2 else s.lfree }

/-- The block is cut in two, and the second part is free.  Only the `struct heap_mem` of both parts
and of the block behind them are written. -/
theorem shrinkBlock_eq (h : Holds s (l ++ ⟨k + j, true⟩ :: r)) (hk : SizeOk k) (hj : SizeOk j) :
    ∃ ram, shrinkBlock s (total l) (k + j - sizeofStructMem) (k - sizeofStructMem) =
        plugHoles (shrunk s ram (total l + k) j) (total l + k) ∧
      Laid (shrunk s ram (total l + k) j) (l ++ ⟨k, true⟩ :: ⟨j, false⟩ :: r) ∧
      ∀ i, UserByte sizeofStructMem i 0 (l ++ ⟨k, true⟩ :: ⟨j, false⟩ :: r) → ram i = s.ram i := by
  have hstruct : sizeofStructMem = 12 := rfl
  have hklarge := hk.1
  have hused := h.usedMem
  have hle := usedTotal_le_total (l ++ ⟨k + j, true⟩ :: r)
  have htotal := h.laid.total
  obtain ⟨-, -, hlt⟩ := h.place_lt
  simp only [usedTotal_append, usedTotal_cons, total_append, total_cons, total_nil, if_true]
    at hused hle htotal
  have hcounted : Laid { s with usedMem := s.usedMem - j } (l ++ ⟨k + j, true⟩ :: r) :=
    ⟨h.laid.bound, h.laid.heapEnd, h.laid.total, h.laid.low, trivial, h.laid.endMem, h.laid.sizes⟩
  obtain ⟨q, hinsert⟩ := hcounted.insertMem hk hj
  obtain ⟨ram, hlink, hlaid, hbytes⟩ := linkBack_spec hinsert
  refine ⟨ram, ?_, ?_, fun i hi => ?_⟩
  · unfold shrinkBlock
    dsimp only
    rw [show k + j - sizeofStructMem - (k - sizeofStructMem) = j by omega,
      show total l + sizeofStructMem + (k - sizeofStructMem) = total l + k by omega,
      subMod_eq (by omega) (by omega), hlink]
    rfl
  · exact ⟨hlaid.bound, hlaid.heapEnd, hlaid.total, hlaid.low, trivial, hlaid.endMem, hlaid.sizes⟩
  · obtain ⟨hmem, hnew⟩ := userByte_split hi
    rw [hbytes i (by omega)]
    exact insertMem_of_outside hmem (by omega)

/-- Both parts of a used block count as used until the second is released. -/
theorem spaced_split (h : Spaced (l ++ ⟨n, true⟩ :: r)) :
    Spaced (l ++ [⟨k, true⟩] ++ ⟨j, true⟩ :: r) := by
  obtain ⟨hl, hr⟩ := spaced_append_cons.mp h
  have htail := (spaced_cons.mp hr).2
  rw [List.append_assoc, List.singleton_append]
  refine spaced_append_cons.mpr ⟨spaced_concat.mpr ⟨(spaced_concat.mp hl).1, ?_⟩, ?_⟩
  · exact fun c _ => Or.inr rfl
  · exact spaced_cons.mpr ⟨fun c _ => Or.inl rfl, spaced_cons.mpr ⟨fun c _ => Or.inl rfl, htail⟩⟩

theorem firstFree_split :
    firstFree (l ++ [⟨k, true⟩] ++ ⟨j, true⟩ :: r) = firstFree (l ++ ⟨k + j, true⟩ :: r) := by
  rw [List.append_assoc]
  rcases allUsed_or_exists_free l with hall | hfree
  · rw [firstFree_append_of_used hall, firstFree_append_of_used hall]
    simp [firstFree, Nat.add_assoc]
  · rw [firstFree_append_of_free hfree, firstFree_append_of_free hfree]

/-- The second part is joined with what is behind it only. -/
theorem release_split : release j r (l ++ [⟨k, true⟩]) = l ++ ⟨k, true⟩ :: joinNext j r := by
  rw [release_of_used (fun c hc => by simp at hc; rw [← hc]), List.append_assoc,
    List.singleton_append]

/-- `rt_realloc` shrinks a block where the rest makes a block of its own. -/
theorem shrinkBlock_spec (h : Holds s (l ++ ⟨k + j, true⟩ :: r)) (hk : SizeOk k) (hj : SizeOk j) :
    Holds (shrinkBlock s (total l) (k + j - sizeofStructMem) (k - sizeofStructMem))
        (l ++ ⟨k, true⟩ :: joinNext j r) ∧
      Keeps s (shrinkBlock s (total l) (k + j - sizeofStructMem) (k - sizeofStructMem))
        (l ++ ⟨k, true⟩ :: joinNext j r) := by
  have hklarge := hk.1
  have hjlarge := hj.1
  have hpos : ∀ b ∈ l ++ [⟨k, true⟩], 0 < b.size := by
    intro b hb
    rcases List.mem_append.mp hb with hb | hb
    · exact h.sizes_pos b (List.mem_append_left _ hb)
    · rw [List.mem_singleton.mp hb]
      dsimp only
      omega
  have hplace : total (l ++ [(⟨k, true⟩ : Block)]) = total l + k := by simp
  have hlist : l ++ ⟨k, true⟩ :: ⟨j, false⟩ :: r = l ++ [⟨k, true⟩] ++ ⟨j, false⟩ :: r := by simp
  obtain ⟨ram, heq, hlaid, hbytes⟩ := shrinkBlock_eq h hk hj
  have hlfree : (shrunk s ram (total l + k) j).lfree =
      firstFree (l ++ [⟨k, true⟩] ++ ⟨j, false⟩ :: r) := by
    rw [firstFree_freed hpos (by omega), firstFree_split, ← h.lfree, hplace]
    rfl
  have hcount : (shrunk s ram (total l + k) j).usedMem =
      usedTotal (l ++ [⟨k, true⟩]) + usedTotal r := by
    have hused := h.usedMem
    show s.usedMem - j = _
    simp only [usedTotal_append, usedTotal_cons, usedTotal_nil, if_true] at hused ⊢
    omega
  obtain ⟨hholds, hkeeps⟩ := holds_plugHoles (t := shrunk s ram (total l + k) j) (hlist ▸ hlaid)
    h.large (spaced_split h.spaced) hlfree hcount (Nat.le_trans (Nat.sub_le _ _) h.maxMem) h.aligned
  rw [release_split, hplace] at hholds hkeeps
  rw [heq]
  refine ⟨hholds, hkeeps.heapPtr, hkeeps.heapEnd, hkeeps.memSizeAligned, fun i hi => ?_⟩
  rw [hkeeps.bytes i hi]
  refine hbytes i ?_
  rw [userByte_iff, usedPlaces_append, usedPlaces, usedPlaces_joinNext] at hi
  rw [userByte_iff, usedPlaces_append]
  exact hi

/-- What `rt_realloc` does with a block: refuse, keep, shrink, or move it. -/
theorem rtRealloc_eq (h : Holds s (l ++ ⟨n, true⟩ :: r)) (hpos : rtAlign newsize ≠ 0) :
    rtRealloc fuel s (s.heapPtr + total l + sizeofStructMem) newsize =
      if s.memSizeAligned < rtAlign newsize then some (rtNull, s)
      else if n - sizeofStructMem = rtAlign newsize then
        some (s.heapPtr + total l + sizeofStructMem, s)
      else if rtAlign newsize + sizeofStructMem + minSize < n - sizeofStructMem then
        some (s.heapPtr + total l + sizeofStructMem,
          shrinkBlock s (total l) (n - sizeofStructMem) (rtAlign newsize))
      else (rtMalloc fuel s (rtAlign newsize)).map fun (nmem, t) =>
        if nmem ≠ rtNull then
          let ram := t.ram.copy (nmem - t.heapPtr)
            (t.ram.drop (s.heapPtr + total l + sizeofStructMem - t.heapPtr))
            (min (n - sizeofStructMem) (rtAlign newsize))
          (nmem, rtFree { t with ram } (s.heapPtr + total l + sizeofStructMem))
        else (nmem, t) := by
  obtain ⟨hn, hend, hlt⟩ := h.place_lt
  have hstruct : sizeofStructMem = 12 := rfl
  have hnull : rtNull = 0 := rfl
  have hplace : s.heapPtr + total l + sizeofStructMem - sizeofStructMem - s.heapPtr = total l := by
    omega
  have hmin : (if n - sizeofStructMem < rtAlign newsize then n - sizeofStructMem
      else rtAlign newsize) = min (n - sizeofStructMem) (rtAlign newsize) := by
    split <;> omega
  rw [rtRealloc]
  dsimp only
  rw [hplace, userSize_eq h.laid, if_neg hpos]
  simp only [hmin]
  by_cases hbig : s.memSizeAligned < rtAlign newsize
  · rw [if_pos hbig, if_pos hbig]
  · rw [if_neg hbig, if_neg hbig, if_neg (by omega), if_neg (by omega)]

end Free

end HpmSdk.Rtt
