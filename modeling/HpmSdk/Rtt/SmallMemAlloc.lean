import HpmSdk.Rtt.SmallMemOps

set_option autoImplicit false

/-!
# `rt_malloc` on the list of blocks

The search starts at the lowest free block and stops short of the end of the heap.  It takes the
first block that is large enough, and it finds none exactly where there is none, apart from a
last block that would be filled to its last byte.

The list is first cut at the block that is found, and then the parts of `rt_malloc` are taken one
behind the other: the cut, the marks, the count and the lowest free block.
-/

namespace HpmSdk.Rtt

open Foundation Foundation.Blocks

/-- The heap stands for the blocks between two calls. -/
structure Holds (s : SmallMem) (bs : List Block) : Prop where
  laid : Laid s bs
  large : minSizeAligned ≤ s.memSizeAligned
  spaced : Spaced bs
  lfree : s.lfree = firstFree bs
  usedMem : s.usedMem = usedTotal bs
  maxMem : s.usedMem ≤ s.maxMem
  aligned : 4 ∣ s.heapPtr

/-- A call leaves the place of the heap and the bytes of the used blocks alone. -/
structure Keeps (s t : SmallMem) (bs : List Block) : Prop where
  heapPtr : t.heapPtr = s.heapPtr
  heapEnd : t.heapEnd = s.heapEnd
  memSizeAligned : t.memSizeAligned = s.memSizeAligned
  bytes : ∀ i, UserByte sizeofStructMem i 0 bs → t.ram i = s.ram i

/-! ## The search -/

/-- The search of `rt_malloc` on the list. -/
def search (limit size : Nat) : Nat → List Block → Option Nat
  | _, [] => none
  | a, b :: bs =>
    if a < limit then
      if b.used = false ∧ size + sizeofStructMem ≤ b.size then some a
      else search limit size (a + b.size) bs
    else none

/-- A block that the search can take: one that is large enough, and larger where it is the
last one. -/
def Available (size : Nat) (bs : List Block) : Prop :=
  ∃ l n r, bs = l ++ ⟨n, false⟩ :: r ∧ size + sizeofStructMem ≤ n ∧
    (r = [] → size + sizeofStructMem < n)

section Search

variable {limit size a p : Nat} {l r bs : List Block}

/-- The search ends at its limit. -/
theorem search_of_le (h : limit ≤ a) : search limit size a bs = none := by
  cases bs with
  | nil => rfl
  | cons b bs => exact if_neg (Nat.not_lt.mpr h)

/-- Used blocks are passed over. -/
theorem search_append_of_used (h : ∀ b ∈ l, b.used = true) :
    search limit size a (l ++ r) = search limit size (a + total l) r := by
  induction l generalizing a with
  | nil => rfl
  | cons b l ih =>
    have hb : b.used = true := h b List.mem_cons_self
    rw [List.cons_append, search, total_cons, ← Nat.add_assoc]
    by_cases ha : a < limit
    · rw [if_pos ha, if_neg (fun hfree => by rw [hb] at hfree; cases hfree.1)]
      exact ih fun c hc => h c (List.mem_cons_of_mem b hc)
    · rw [if_neg ha, search_of_le (by omega)]

/-- What the search finds is the first block that is large enough. -/
theorem search_eq_some (h : search limit size a bs = some p) :
    ∃ l n r, bs = l ++ ⟨n, false⟩ :: r ∧ p = a + total l ∧ size + sizeofStructMem ≤ n ∧
      p < limit ∧ ∀ b ∈ l, b.used = true ∨ b.size < size + sizeofStructMem := by
  induction bs generalizing a with
  | nil => cases h
  | cons b bs ih =>
    rw [search] at h
    split at h
    case isFalse => cases h
    case isTrue hlt =>
      split at h
      case isTrue hfit =>
        obtain ⟨n, u⟩ := b
        obtain ⟨rfl, hn⟩ := hfit
        cases h
        exact ⟨[], n, bs, rfl, rfl, hn, hlt, by simp⟩
      case isFalse hfit =>
        obtain ⟨l, n, r, rfl, hp, hn, hlt', hfirst⟩ := ih h
        refine ⟨b :: l, n, r, rfl, by rw [hp, total_cons, Nat.add_assoc], hn, hlt', ?_⟩
        intro c hc
        rcases List.mem_cons.mp hc with rfl | hc
        · cases hused : c.used with
          | true => exact Or.inl rfl
          | false => exact Or.inr (Nat.not_le.mp fun hle => hfit ⟨hused, hle⟩)
        · exact hfirst c hc

/-- Where the search finds nothing, no block is large enough, or only one that ends where the
search does. -/
theorem search_eq_none (h : search limit size a bs = none) {n : Nat}
    (hbs : bs = l ++ ⟨n, false⟩ :: r) (hn : size + sizeofStructMem ≤ n) :
    limit ≤ a + total l := by
  induction l generalizing a bs with
  | nil =>
    subst hbs
    rw [List.nil_append, search] at h
    split at h
    case isTrue => rw [if_pos ⟨rfl, hn⟩] at h; cases h
    case isFalse hge => rw [total_nil]; omega
  | cons b l ih =>
    subst hbs
    rw [List.cons_append, search] at h
    rw [total_cons, ← Nat.add_assoc]
    split at h
    case isTrue hlt =>
      split at h
      case isTrue => cases h
      case isFalse => exact ih h rfl
    case isFalse hge => omega

end Search

section Loops

variable {s : SmallMem} {l r bs : List Block} {size fuel : Nat}

/-- The loop of `rt_malloc` is the search. -/
theorem findFit_eq (hsize : size ≤ s.memSizeAligned) : ∀ {r l : List Block} {fuel : Nat},
    Laid s (l ++ r) → r.length < fuel → findFit s size fuel (total l) =
      some (search (s.memSizeAligned - size) size (total l) r)
  | [], l, fuel + 1, h, _ => by
    have hlimit : subMod 32 s.memSizeAligned size = s.memSizeAligned - size :=
      subMod_eq (by have := h.bound; omega) hsize
    have htotal := h.total
    rw [List.append_nil, total_nil, h.heapEnd] at htotal
    rw [findFit, hlimit, if_neg (by omega)]
    rfl
  | ⟨n, u⟩ :: r, l, fuel + 1, h, hfuel => by
    have hlimit : subMod 32 s.memSizeAligned size = s.memSizeAligned - size :=
      subMod_eq (by have := h.bound; omega) hsize
    have hmem := h.heapMem_eq
    have hn : sizeofStructMem ≤ n := h.header_le ⟨n, u⟩ (by simp)
    have hnext : total l + n = total (l ++ [⟨n, u⟩]) := by simp
    have hrest : findFit s size fuel (total l + n) =
        some (search (s.memSizeAligned - size) size (total l + n) r) := by
      rw [hnext]
      exact findFit_eq hsize (by simpa using h) (Nat.lt_of_succ_lt_succ hfuel)
    have hfit : ((heapMem s.ram (total l)).used = 0 ∧ size ≤ userSize s.ram (total l)) ↔
        (u = false ∧ size + sizeofStructMem ≤ n) := by
      rw [userSize_eq h, hmem]
      cases u
      · simp only [Bool.toNat_false, true_and]
        omega
      · simp
    rw [findFit, search, hlimit]
    by_cases hlt : total l < s.memSizeAligned - size
    · rw [if_pos hlt, if_pos hlt]
      by_cases htake : u = false ∧ size + sizeofStructMem ≤ n
      · rw [if_pos (hfit.mpr htake), if_pos htake]
      · rw [if_neg (mt hfit.mp htake), if_neg htake, hmem]
        exact hrest
    · rw [if_neg hlt, if_neg hlt]

/-- The loop that moves `lfree` on finds the lowest free block. -/
theorem nextFree_eq : ∀ {r l : List Block} {fuel : Nat}, Laid s (l ++ r) → r.length < fuel →
    nextFree s fuel (total l) = some (total l + firstFree r)
  | [], l, fuel + 1, h, _ => by
    have htotal := h.total
    rw [List.append_nil, total_nil] at htotal
    rw [nextFree, if_neg (fun hcond => hcond.2 (by omega))]
    rfl
  | ⟨n, u⟩ :: r, l, fuel + 1, h, hfuel => by
    have hmem := h.heapMem_eq
    have hn : sizeofStructMem ≤ n := h.header_le ⟨n, u⟩ (by simp)
    have hpos : 0 < n := Nat.lt_of_lt_of_le (by decide) hn
    have htotal := h.total
    simp only [total_append, total_cons, total_nil] at htotal
    rw [nextFree]
    simp only [hmem]
    cases u with
    | false =>
      rw [if_neg (fun hcond => hcond.1 rfl)]
      rfl
    | true =>
      have hnext : total l + n = total (l ++ [⟨n, true⟩]) := by simp
      rw [if_pos ⟨by decide, by omega⟩, hnext,
        nextFree_eq (by simpa using h) (Nat.lt_of_succ_lt_succ hfuel), ← hnext, Nat.add_assoc]
      rfl

/-- The number of blocks that the heap has room for. -/
theorem Laid.length_le (h : Laid s bs) : 16 * bs.length ≤ s.memSizeAligned + sizeofStructMem := by
  have hsum : ∀ bs : List Block, (∀ b ∈ bs, SizeOk b.size) → 16 * bs.length ≤ total bs := by
    intro bs
    induction bs with
    | nil => exact fun _ => Nat.le_refl 0
    | cons b bs ih =>
      intro hall
      have hb := (hall b List.mem_cons_self).1
      have hrest := ih fun c hc => hall c (List.mem_cons_of_mem b hc)
      rw [List.length_cons, total_cons]
      omega
  have htotal := h.total
  rw [total_nil, Nat.add_zero, h.heapEnd] at htotal
  rw [← htotal]
  exact hsum bs fun b hb => h.sizes b (by simpa using hb)

/-- The blocks in front of the lowest free one. -/
theorem exists_firstFree (bs : List Block) : ∃ l r, bs = l ++ r ∧ (∀ b ∈ l, b.used = true) ∧
    total l = firstFree bs := by
  induction bs with
  | nil => exact ⟨[], [], rfl, by simp, rfl⟩
  | cons b bs ih =>
    cases hb : b.used with
    | false => exact ⟨[], b :: bs, rfl, by simp, by rw [firstFree, hb]; rfl⟩
    | true =>
      obtain ⟨l, r, rfl, hall, htotal⟩ := ih
      refine ⟨b :: l, r, rfl, fun c hc => ?_, by rw [firstFree, hb, if_pos rfl, total_cons, htotal]⟩
      rcases List.mem_cons.mp hc with rfl | hc
      · exact hb
      · exact hall c hc

end Loops

/-! ## `rt_malloc` -/

/-- The size that `rt_malloc` looks for. -/
def requestSize (size : Nat) : Nat :=
  if rtAlign size < minSizeAligned then minSizeAligned else rtAlign size

/-- `RT_ALIGN` rounds up to a multiple of 4, where the sum does not wrap. -/
theorem rtAlign_eq {size : Nat} (h : size + 3 < 2 ^ 32) : rtAlign size = (size + 3) / 4 * 4 := by
  rw [rtAlign, addMod_eq h]

theorem four_dvd_rtAlign (size : Nat) : 4 ∣ rtAlign size := Nat.dvd_mul_left 4 _

/-- So there is room for what was asked for. -/
theorem le_rtAlign {size : Nat} (h : size + 3 < 2 ^ 32) : size ≤ rtAlign size := by
  rw [rtAlign_eq h]
  omega

theorem four_dvd_requestSize (size : Nat) : 4 ∣ requestSize size := by
  unfold requestSize
  split
  · decide
  · exact four_dvd_rtAlign size

/-- What is searched for is the smallest size of a block or the aligned size, whichever is larger.
-/
theorem le_requestSize (size : Nat) : minSizeAligned ≤ requestSize size ∧
    rtAlign size ≤ requestSize size := by
  unfold requestSize
  split <;> omega

section Malloc

variable {s : SmallMem} {bs : List Block} {size fuel : Nat}

/-- A block that is large enough has room for its header as well. -/
theorem Available.le (h : Available size bs) : size + sizeofStructMem ≤ total bs := by
  obtain ⟨l, n, r, rfl, hn, -⟩ := h
  simp only [total_append, total_cons]
  omega

/-- The search from the lowest free block on finds the first block that is large enough, or
there is none. -/
theorem findFit_spec (h : Holds s bs) (hfuel : s.memSizeAligned ≤ fuel)
    (hsize : size ≤ s.memSizeAligned) :
    (¬ Available size bs ∧ findFit s size fuel s.lfree = some none) ∨
      ∃ l n r, bs = l ++ ⟨n, false⟩ :: r ∧ size + sizeofStructMem ≤ n ∧ Available size bs ∧
        (∀ b ∈ l, b.used = true ∨ b.size < size + sizeofStructMem) ∧
        findFit s size fuel s.lfree = some (some (total l)) := by
  obtain ⟨u, v, rfl, hused, hplace⟩ := exists_firstFree bs
  have hlength := h.laid.length_le
  have hlarge := h.large
  have hmin : minSizeAligned = 12 := rfl
  have hstruct : sizeofStructMem = 12 := rfl
  have htotal := h.laid.total
  rw [total_nil, Nat.add_zero, h.laid.heapEnd] at htotal
  rw [List.length_append] at hlength
  have hfind : findFit s size fuel (total u) = _ := findFit_eq hsize h.laid (by omega)
  have hsearch : search (s.memSizeAligned - size) size (total u) v =
      search (s.memSizeAligned - size) size 0 (u ++ v) := by
    rw [search_append_of_used hused, Nat.zero_add]
  rw [h.lfree, ← hplace, hfind, hsearch]
  cases hres : search (s.memSizeAligned - size) size 0 (u ++ v) with
  | none =>
    left
    refine ⟨?_, rfl⟩
    rintro ⟨l, n, r, hbs, hn, hlast⟩
    have hlimit := search_eq_none hres hbs hn
    rw [hbs, total_append, total_cons] at htotal
    dsimp only at htotal
    cases r with
    | nil =>
      have hlt := hlast rfl
      rw [total_nil] at htotal
      omega
    | cons b r =>
      have hb : 16 ≤ b.size := (h.laid.sizes b (by rw [hbs]; simp)).1
      rw [total_cons] at htotal
      omega
  | some p =>
    right
    obtain ⟨l, n, r, hbs, hp, hn, hlimit, hfirst⟩ := search_eq_some hres
    refine ⟨l, n, r, hbs, hn, ⟨l, n, r, hbs, hn, ?_⟩, hfirst, by rw [hp, Nat.zero_add]⟩
    rintro rfl
    rw [hbs, total_append, total_cons, total_nil] at htotal
    dsimp only at htotal
    omega

/-- The lowest free block behind an allocation. -/
theorem firstFree_carve {l r : List Block} {n k : Nat} :
    firstFree (l ++ carve leastRest n k ++ r) =
      if total l = firstFree (l ++ ⟨n, false⟩ :: r) ∧ ∀ b ∈ l, b.used = true then
        total l + firstFree (carve leastRest n k ++ r)
      else firstFree (l ++ ⟨n, false⟩ :: r) := by
  rw [List.append_assoc]
  rcases allUsed_or_exists_free l with hall | hfree
  · rw [firstFree_append_of_used hall, firstFree_append_of_used hall, if_pos ⟨rfl, hall⟩]
  · rw [firstFree_append_of_free hfree, firstFree_append_of_free hfree, if_neg]
    rintro ⟨-, hall⟩
    obtain ⟨b, hb, hbfree⟩ := hfree
    rw [hall b hb] at hbfree
    cases hbfree

section Taken

variable {l r : List Block} {n k : Nat} {ram : Buf}

/-- The heap behind an allocation, once `lfree` is the lowest free block again. -/
theorem Holds.take {lfree : Nat} (h : Holds s (l ++ ⟨n, false⟩ :: r))
    (hlaid : Laid { s with ram } (l ++ carve leastRest n k ++ r))
    (hbytes : ∀ i, UserByte sizeofStructMem i 0 (l ++ carve leastRest n k ++ r) → ram i = s.ram i)
    (hlfree : lfree = firstFree (l ++ carve leastRest n k ++ r)) :
    Holds { counted s ram (given leastRest n k) with lfree } (l ++ carve leastRest n k ++ r) ∧
      Keeps s { counted s ram (given leastRest n k) with lfree }
        (l ++ carve leastRest n k ++ r) := by
  have husedMem : s.usedMem + given leastRest n k = usedTotal (l ++ carve leastRest n k ++ r) := by
    rw [h.usedMem]
    simp only [usedTotal_append, usedTotal_carve, usedTotal_cons, Bool.false_eq_true, if_false]
    omega
  refine ⟨⟨?_, h.large, spaced_carve leastRest k h.spaced, hlfree, husedMem, Nat.le_max_right _ _,
    h.aligned⟩, rfl, rfl, rfl, hbytes⟩
  exact ⟨hlaid.bound, hlaid.heapEnd, hlaid.total, hlaid.low, trivial, hlaid.endMem, hlaid.sizes⟩

/-- The blocks in front of the lowest free one are used. -/
theorem Holds.used_below (h : Holds s (l ++ ⟨n, false⟩ :: r)) (hlow : total l = s.lfree) :
    ∀ b ∈ l, b.used = true := by
  rcases allUsed_or_exists_free l with hall | hfree
  · exact hall
  · have hlt := firstFree_lt_total (fun b hb => Nat.lt_of_lt_of_le (by decide)
      (h.laid.header_le b (List.mem_append_left _ (List.mem_append_left _ hb)))) hfree
    rw [h.lfree, firstFree_append_of_free hfree] at hlow
    omega

/-- Where the lowest free block was taken, `lfree` moves on to the next one. -/
theorem nextFree_taken (h : Holds s (l ++ ⟨n, false⟩ :: r)) (hfuel : s.memSizeAligned ≤ fuel)
    (hlaid : Laid { s with ram } (l ++ carve leastRest n k ++ r)) (hlow : total l = s.lfree) :
    nextFree (counted s ram (given leastRest n k)) fuel (total l) =
      some (firstFree (l ++ carve leastRest n k ++ r)) := by
  have hlength := hlaid.length_le
  have hlarge := h.large
  have hmin : minSizeAligned = 12 := rfl
  have hstruct : sizeofStructMem = 12 := rfl
  rw [firstFree_carve, if_pos ⟨hlow.trans h.lfree, h.used_below hlow⟩]
  rw [List.append_assoc] at hlaid
  refine nextFree_eq ?_ ?_
  · exact ⟨hlaid.bound, hlaid.heapEnd, hlaid.total, hlaid.low, trivial, hlaid.endMem, hlaid.sizes⟩
  · simp only [List.length_append] at hlength ⊢
    omega

/-- Where another one was taken, `lfree` is still the lowest free block. -/
theorem firstFree_taken (h : Holds s (l ++ ⟨n, false⟩ :: r)) (hlow : total l ≠ s.lfree) :
    s.lfree = firstFree (l ++ carve leastRest n k ++ r) := by
  rw [firstFree_carve, if_neg, h.lfree]
  rintro ⟨hplace, -⟩
  exact hlow (hplace.trans h.lfree.symm)

end Taken

/-- `rt_malloc` gives the first block that is large enough, or `RT_NULL` where there is none.  The
search is one over the list; the block that it finds is cut or taken whole; and `lfree` moves on
only if it was that block. -/
theorem rtMalloc_spec (h : Holds s bs) (hfuel : s.memSizeAligned ≤ fuel) (hpos : 0 < size) :
    (¬ Available (requestSize size) bs ∧ rtMalloc fuel s size = some (rtNull, s)) ∨
      ∃ l n r t, bs = l ++ ⟨n, false⟩ :: r ∧ requestSize size + sizeofStructMem ≤ n ∧
        Available (requestSize size) bs ∧
        (∀ b ∈ l, b.used = true ∨ b.size < requestSize size + sizeofStructMem) ∧
        rtMalloc fuel s size = some (s.heapPtr + total l + sizeofStructMem, t) ∧
        Holds t (l ++ carve leastRest n (requestSize size + sizeofStructMem) ++ r) ∧
        Keeps s t (l ++ carve leastRest n (requestSize size + sizeofStructMem) ++ r) := by
  have htotal := h.laid.total
  rw [total_nil, Nat.add_zero, h.laid.heapEnd] at htotal
  have hreq := le_requestSize size
  have hsizedef : (if rtAlign size < minSizeAligned then minSizeAligned else rtAlign size) =
      requestSize size := rfl
  rw [rtMalloc, if_neg (by omega)]
  dsimp only
  rw [hsizedef]
  by_cases hbig : s.memSizeAligned < rtAlign size
  · left
    refine ⟨fun hav => ?_, if_pos hbig⟩
    have := hav.le
    omega
  rw [if_neg hbig]
  have hle : requestSize size ≤ s.memSizeAligned := by
    have := h.large
    unfold requestSize
    split <;> omega
  rcases findFit_spec h hfuel hle with ⟨hnone, hfind⟩ | ⟨l, n, r, rfl, hn, hav, hfirst, hfind⟩
  · left
    rw [hfind]
    exact ⟨hnone, rfl⟩
  right
  obtain ⟨ram, htake, hlaid, hbytes⟩ :=
    takeBlock_spec h.laid h.usedMem hreq.1 (four_dvd_requestSize size) hn
  rw [hfind]
  dsimp only
  rw [htake]
  by_cases hlow : total l = s.lfree
  · have hnext := nextFree_taken h hfuel hlaid hlow
    refine ⟨l, n, r, _, rfl, hn, hav, hfirst, ?_, h.take hlaid hbytes rfl⟩
    rw [if_pos (show total l = (counted s ram _).lfree from hlow),
      show (counted s ram (given leastRest n (requestSize size + sizeofStructMem))).lfree =
        total l from hlow.symm, hnext]
    rfl
  · refine ⟨l, n, r, _, rfl, hn, hav, hfirst, ?_, h.take hlaid hbytes (firstFree_taken h hlow)⟩
    rw [if_neg (show ¬ total l = (counted s ram _).lfree from hlow)]
    rfl

end Malloc

end HpmSdk.Rtt
