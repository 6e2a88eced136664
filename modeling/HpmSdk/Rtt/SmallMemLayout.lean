import HpmSdk.Foundation.Blocks
import HpmSdk.Rtt.SmallMem

set_option autoImplicit false

/-!
# The blocks that the bytes of the heap stand for

A stretch of the heap is tiled by a list of blocks where a `struct heap_mem` stands in front of
each of them and links it to its neighbours.  The allocator edits a few bytes at a time; in
between, the link back at one seam may be wrong, and everything else holds.
-/

namespace HpmSdk.Rtt

open Foundation Foundation.Blocks

/-! ## The fields -/

section Fields

variable (ram : Buf) (a v : Nat)

@[simp] theorem heapMem_setMagic : heapMem (setMagic ram a v) a =
    { heapMem ram a with magic := v % 2 ^ 16 } := by
  unfold setMagic heapMem
  rw [leVal_storeLe_self, leVal_storeLe_of_apart, leVal_storeLe_of_apart, leVal_storeLe_of_apart]
  · rfl
  all_goals omega

@[simp] theorem heapMem_setUsed : heapMem (setUsed ram a v) a =
    { heapMem ram a with used := v % 2 ^ 16 } := by
  unfold setUsed heapMem
  rw [leVal_storeLe_self, leVal_storeLe_of_apart, leVal_storeLe_of_apart, leVal_storeLe_of_apart]
  · rfl
  all_goals omega

@[simp] theorem heapMem_setNext : heapMem (setNext ram a v) a =
    { heapMem ram a with next := v % 2 ^ 32 } := by
  unfold setNext heapMem
  rw [leVal_storeLe_self, leVal_storeLe_of_apart, leVal_storeLe_of_apart, leVal_storeLe_of_apart]
  · rfl
  all_goals omega

@[simp] theorem heapMem_setPrev : heapMem (setPrev ram a v) a =
    { heapMem ram a with prev := v % 2 ^ 32 } := by
  unfold setPrev heapMem
  rw [leVal_storeLe_self, leVal_storeLe_of_apart, leVal_storeLe_of_apart, leVal_storeLe_of_apart]
  · rfl
  all_goals omega

variable {ram a v}

/-- What is read of a header depends on its twelve bytes only. -/
theorem heapMem_congr {ram' : Buf} (h : ∀ i, a ≤ i → i < a + sizeofStructMem → ram' i = ram i) :
    heapMem ram' a = heapMem ram a := by
  have hfield : ∀ o n, o + n ≤ 12 → leVal ram' (a + o) n = leVal ram (a + o) n := by
    intro o n ho
    apply leVal_congr
    intro k hk
    exact h _ (by omega) (by unfold sizeofStructMem; omega)
  unfold heapMem
  rw [hfield 2 2 (by omega), hfield 4 4 (by omega), hfield 8 4 (by omega),
    show leVal ram' a 2 = leVal ram a 2 from hfield 0 2 (by omega)]

/-- A store to a field leaves the bytes outside the `struct heap_mem` alone. -/
theorem set_of_outside {i : Nat} (h : i < a ∨ a + sizeofStructMem ≤ i) :
    setMagic ram a v i = ram i ∧ setUsed ram a v i = ram i ∧ setNext ram a v i = ram i ∧
      setPrev ram a v i = ram i := by
  unfold sizeofStructMem at h
  refine ⟨?_, ?_, ?_, ?_⟩ <;> exact storeLe_of_outside _ _ _ (by omega)

/-- A store to one header leaves those that lie apart from it. -/
theorem heapMem_set_of_apart {c : Nat} (h : a + sizeofStructMem ≤ c ∨ c + sizeofStructMem ≤ a) :
    heapMem (setMagic ram a v) c = heapMem ram c ∧ heapMem (setUsed ram a v) c = heapMem ram c ∧
      heapMem (setNext ram a v) c = heapMem ram c ∧ heapMem (setPrev ram a v) c = heapMem ram c := by
  unfold sizeofStructMem at h
  have hout : ∀ i, c ≤ i → i < c + sizeofStructMem → i < a ∨ a + sizeofStructMem ≤ i := by
    unfold sizeofStructMem
    omega
  refine ⟨?_, ?_, ?_, ?_⟩ <;> apply heapMem_congr <;> intro i hlo hhi
  · exact (set_of_outside (hout i hlo hhi)).1
  · exact (set_of_outside (hout i hlo hhi)).2.1
  · exact (set_of_outside (hout i hlo hhi)).2.2.1
  · exact (set_of_outside (hout i hlo hhi)).2.2.2

end Fields

/-! ## Tilings -/

/-- From place `a` on there are blocks, each with its links; `prev` is the link back of the
first one. -/
def Tiles (ram : Buf) : Nat → Nat → List Block → Prop
  | _, _, [] => True
  | prev, a, b :: bs =>
    heapMem ram a = ⟨heapMagic, b.used.toNat, a + b.size, prev⟩ ∧ Tiles ram a (a + b.size) bs

/-- The place of the last block of a tiling, the link back of the block that follows. -/
def lastPlace : Nat → Nat → List Block → Nat
  | prev, _, [] => prev
  | _, a, b :: bs => lastPlace a (a + b.size) bs

theorem lastPlace_concat (prev a : Nat) (l : List Block) (b : Block) :
    lastPlace prev a (l ++ [b]) = a + total l := by
  induction l generalizing prev a with
  | nil => rfl
  | cons c l ih => rw [List.cons_append, lastPlace, ih, total_cons, Nat.add_assoc]

theorem lastPlace_le {prev a : Nat} (h : prev ≤ a) (l : List Block) :
    lastPlace prev a l ≤ a + total l := by
  induction l generalizing prev a with
  | nil => exact h
  | cons b l ih =>
    rw [lastPlace, total_cons, ← Nat.add_assoc]
    exact ih (Nat.le_add_right a b.size)

section Tiles

variable {ram ram' : Buf} {prev a : Nat} {l r bs : List Block}

/-- A tiling is one of its first part and one of the rest, linked back to the last block of the
first. -/
theorem tiles_append : Tiles ram prev a (l ++ r) ↔
    Tiles ram prev a l ∧ Tiles ram (lastPlace prev a l) (a + total l) r := by
  induction l generalizing prev a with
  | nil => simp [Tiles, lastPlace]
  | cons b l ih =>
    rw [List.cons_append, Tiles, Tiles, ih, lastPlace, total_cons, Nat.add_assoc, and_assoc]

/-- A tiling depends on the bytes of its stretch only. -/
theorem Tiles.congr (hsize : ∀ b ∈ bs, sizeofStructMem ≤ b.size)
    (h : ∀ i, a ≤ i → i < a + total bs → ram' i = ram i) (ht : Tiles ram prev a bs) :
    Tiles ram' prev a bs := by
  induction bs generalizing prev a with
  | nil => trivial
  | cons b bs ih =>
    rw [total_cons] at h
    have hb := hsize b List.mem_cons_self
    constructor
    · rw [heapMem_congr fun i hlo hhi => h i hlo (by omega)]
      exact ht.1
    · refine ih (fun c hc => hsize c (List.mem_cons_of_mem b hc)) (fun i hlo hhi => ?_) ht.2
      exact h i (by omega) (by omega)

/-- A store to the link back of the first block. -/
theorem Tiles.setPrev (hsize : ∀ b ∈ bs, sizeofStructMem ≤ b.size) {v : Nat} (hv : v < 2 ^ 32)
    (ht : Tiles ram prev a bs) : Tiles (setPrev ram a v) v a bs := by
  cases bs with
  | nil => trivial
  | cons b bs =>
    have hb := hsize b List.mem_cons_self
    constructor
    · rw [heapMem_setPrev, ht.1, Nat.mod_eq_of_lt hv]
    · refine ht.2.congr (fun c hc => hsize c (List.mem_cons_of_mem b hc)) fun i hlo _ => ?_
      exact (set_of_outside (Or.inr (by omega))).2.2.2

end Tiles

/-! ## The heap with one seam -/

/-- The size that every block has: room for the `struct heap_mem` and at least one word. -/
def SizeOk (n : Nat) : Prop := 16 ≤ n ∧ 4 ∣ n

theorem SizeOk.add {m n : Nat} (hm : SizeOk m) (hn : SizeOk n) : SizeOk (m + n) :=
  ⟨Nat.le_trans hm.1 (Nat.le_add_right m n), Nat.dvd_add hm.2 hn.2⟩

/-- The heap is tiled by the blocks `l` and behind them by the blocks `r`, of which the first
one has `q` as its link back. -/
structure Gapped (s : SmallMem) (l : List Block) (q : Nat) (r : List Block) : Prop where
  bound : s.memSizeAligned + 24 ≤ 2 ^ 32
  heapEnd : s.heapEnd = s.memSizeAligned + sizeofStructMem
  total : total l + total r = s.heapEnd
  low : Tiles s.ram 0 0 l
  high : Tiles s.ram q (Blocks.total l) r
  endMem : (heapMem s.ram s.heapEnd).used = 1
  sizes : ∀ b ∈ l ++ r, SizeOk b.size

/-- The heap is tiled by the blocks. -/
def Laid (s : SmallMem) (bs : List Block) : Prop := Gapped s bs 0 []

/-- A heap that is laid out has the right link back at every seam. -/
theorem laid_append {s : SmallMem} {l r : List Block} :
    Laid s (l ++ r) ↔ Gapped s l (lastPlace 0 0 l) r := by
  constructor
  · intro h
    have htiles := tiles_append.mp h.low
    rw [Nat.zero_add] at htiles
    refine ⟨h.bound, h.heapEnd, ?_, htiles.1, htiles.2, h.endMem, ?_⟩
    · rw [← h.total, total_append, total_nil, Nat.add_zero]
    · exact fun b hb => h.sizes b (by simpa using hb)
  · intro h
    refine ⟨h.bound, h.heapEnd, ?_, tiles_append.mpr ⟨h.low, ?_⟩, trivial, h.endMem, ?_⟩
    · rw [← h.total, total_append, total_nil, Nat.add_zero]
    · rw [Nat.zero_add]
      exact h.high
    · exact fun b hb => h.sizes b (by simpa using hb)

namespace Gapped

variable {s : SmallMem} {l m r : List Block} {q : Nat}

theorem header_le (h : Gapped s l q r) : ∀ b ∈ l ++ r, sizeofStructMem ≤ b.size := by
  intro b hb
  exact Nat.le_trans (by decide) (h.sizes b hb).1

theorem total_lt (h : Gapped s l q r) : Blocks.total l < 2 ^ 32 - 11 := by
  have hbound := h.bound
  have hend := h.heapEnd
  have htotal := h.total
  unfold sizeofStructMem at hend
  omega

/-- An edit of the bytes of the last blocks in front of the seam. -/
theorem rewrite {ram' : Buf} {m' : List Block} (h : Gapped s (l ++ m) q r)
    (hout : ∀ i, i < Blocks.total l ∨ Blocks.total l + Blocks.total m ≤ i → ram' i = s.ram i)
    (htotal : Blocks.total m' = Blocks.total m) (hsizes : ∀ b ∈ m', SizeOk b.size)
    (htiles : Tiles ram' (lastPlace 0 0 l) (Blocks.total l) m') :
    Gapped { s with ram := ram' } (l ++ m') q r := by
  have hheader := h.header_le
  have hlow := tiles_append.mp h.low
  have hend := h.total
  rw [total_append] at hend
  refine ⟨h.bound, h.heapEnd, ?_, tiles_append.mpr ⟨?_, ?_⟩, ?_, ?_, ?_⟩
  · rw [total_append, htotal]
    exact hend
  · exact hlow.1.congr (fun b hb => hheader b (by simp [hb])) fun i _ hi => hout i (by omega)
  · rw [Nat.zero_add]
    exact htiles
  · have hhigh := h.high
    rw [total_append] at hhigh ⊢
    rw [htotal]
    exact hhigh.congr (fun b hb => hheader b (by simp [hb])) fun i hi _ => hout i (by omega)
  · show (heapMem ram' s.heapEnd).used = 1
    rw [heapMem_congr fun i hi _ => hout i (by omega)]
    exact h.endMem
  · intro b hb
    rcases List.mem_append.mp hb with hb | hb
    · rcases List.mem_append.mp hb with hb | hb
      · exact h.sizes b (by simp [hb])
      · exact hsizes b hb
    · exact h.sizes b (by simp [hb])

/-- A store to the link back at the seam. -/
theorem setPrev (h : Gapped s l q r) {v : Nat} (hv : v < 2 ^ 32) :
    Gapped { s with ram := setPrev s.ram (Blocks.total l) v } l v r := by
  have hheader := h.header_le
  have hend := h.total
  refine ⟨h.bound, h.heapEnd, h.total, ?_, ?_, ?_, h.sizes⟩
  · refine h.low.congr (fun b hb => hheader b (by simp [hb])) fun i _ hi => ?_
    exact (set_of_outside (Or.inl (by omega))).2.2.2
  · exact h.high.setPrev (fun b hb => hheader b (by simp [hb])) hv
  · show (heapMem (Rtt.setPrev s.ram (Blocks.total l) v) s.heapEnd).used = 1
    cases r with
    | nil =>
      have hplace : s.heapEnd = Blocks.total l := hend.symm
      have := h.endMem
      rw [hplace] at this ⊢
      rw [heapMem_setPrev]
      exact this
    | cons b r =>
      have hb := hheader b (by simp)
      rw [total_cons] at hend
      rw [(heapMem_set_of_apart (Or.inl (by omega))).2.2.2]
      exact h.endMem

end Gapped

/-- An edit of the bytes of some blocks. -/
theorem Laid.rewrite {s : SmallMem} {l m m' r : List Block} {ram' : Buf} (h : Laid s (l ++ m ++ r))
    (hout : ∀ i, i < total l ∨ total l + total m ≤ i → ram' i = s.ram i)
    (hlast : lastPlace 0 0 (l ++ m') = lastPlace 0 0 (l ++ m))
    (htotal : total m' = total m) (hsizes : ∀ b ∈ m', SizeOk b.size)
    (htiles : Tiles ram' (lastPlace 0 0 l) (total l) m') :
    Laid { s with ram := ram' } (l ++ m' ++ r) := by
  rw [laid_append] at h ⊢
  rw [hlast]
  exact h.rewrite hout htotal hsizes htiles

/-- The `struct heap_mem` of a block. -/
theorem Laid.heapMem_eq {s : SmallMem} {l r : List Block} {b : Block} (h : Laid s (l ++ b :: r)) :
    heapMem s.ram (total l) = ⟨heapMagic, b.used.toNat, total l + b.size, lastPlace 0 0 l⟩ := by
  have := (laid_append.mp h).high
  exact this.1

end HpmSdk.Rtt
