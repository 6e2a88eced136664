import Mathlib.Data.List.Chain
import Mathlib.Algebra.BigOperators.Group.List.Basic

set_option autoImplicit false

/-!
# Foundation: a heap as the list of its blocks

An area is cut into blocks that follow one another, each of them used or free.  An allocation
cuts a free block, a release joins a block with its free neighbours.  This module has the lists
only: sizes, places, the lowest free block, and that no two free blocks are neighbours.
-/

namespace HpmSdk.Foundation

/-- One block of an area: its size, and whether somebody owns it. -/
structure Block where
  size : Nat
  used : Bool
  deriving DecidableEq, Repr

namespace Blocks

/-- The size of the area that the blocks make up. -/
def total : List Block → Nat
  | [] => 0
  | b :: bs => b.size + total bs

/-- The size of the used blocks. -/
def usedTotal : List Block → Nat
  | [] => 0
  | b :: bs => (if b.used then b.size else 0) + usedTotal bs

/-- The place of the lowest free block, the end of the area where there is none. -/
def firstFree : List Block → Nat
  | [] => 0
  | b :: bs => if b.used then b.size + firstFree bs else 0

/-- Of two neighbours one is used. -/
def Spaced (bs : List Block) : Prop := bs.IsChain fun b c => b.used = true ∨ c.used = true

/-- A byte of a used block, behind the `hdr` bytes that the block starts with. -/
def UserByte (hdr i : Nat) : Nat → List Block → Prop
  | _, [] => False
  | a, b :: bs => (b.used = true ∧ a + hdr ≤ i ∧ i < a + b.size) ∨ UserByte hdr i (a + b.size) bs

/-- The used blocks with their places, from the lowest one on. -/
def usedPlaces : Nat → List Block → List (Nat × Nat)
  | _, [] => []
  | a, b :: bs => (if b.used then [(a, b.size)] else []) ++ usedPlaces (a + b.size) bs

@[simp] theorem total_nil : total [] = 0 := rfl
@[simp] theorem total_cons (b : Block) (bs : List Block) : total (b :: bs) = b.size + total bs := rfl
@[simp] theorem usedTotal_nil : usedTotal [] = 0 := rfl
@[simp] theorem usedTotal_cons (b : Block) (bs : List Block) :
    usedTotal (b :: bs) = (if b.used then b.size else 0) + usedTotal bs := rfl

@[simp] theorem total_append (l r : List Block) : total (l ++ r) = total l + total r := by
  induction l with
  | nil => simp
  | cons b l ih => simp [ih, Nat.add_assoc]

@[simp] theorem usedTotal_append (l r : List Block) :
    usedTotal (l ++ r) = usedTotal l + usedTotal r := by
  induction l with
  | nil => simp
  | cons b l ih => simp [ih, Nat.add_assoc]

theorem usedTotal_le_total (bs : List Block) : usedTotal bs ≤ total bs := by
  induction bs with
  | nil => exact Nat.le_refl 0
  | cons b bs ih =>
    rw [usedTotal_cons, total_cons]
    split <;> omega

/-! ## The lowest free block -/

theorem firstFree_le_total (bs : List Block) : firstFree bs ≤ total bs := by
  induction bs with
  | nil => exact Nat.le_refl 0
  | cons b bs ih =>
    rw [firstFree, total_cons]
    split <;> omega

/-- Behind used blocks only, the lowest free block is that of the rest. -/
theorem firstFree_append_of_used {l : List Block} (h : ∀ b ∈ l, b.used = true) (r : List Block) :
    firstFree (l ++ r) = total l + firstFree r := by
  induction l with
  | nil => simp
  | cons b l ih =>
    rw [List.cons_append, firstFree, if_pos (h b List.mem_cons_self),
      ih fun c hc => h c (List.mem_cons_of_mem b hc), total_cons, Nat.add_assoc]

/-- The lowest free block is in the first part if that has one. -/
theorem firstFree_append_of_free {l : List Block} (h : ∃ b ∈ l, b.used = false) (r : List Block) :
    firstFree (l ++ r) = firstFree l := by
  induction l with
  | nil => simp at h
  | cons b l ih =>
    rw [List.cons_append, firstFree, firstFree]
    cases hb : b.used with
    | false => rfl
    | true =>
      obtain ⟨c, hc, hfree⟩ := h
      rcases List.mem_cons.mp hc with rfl | hc
      · rw [hb] at hfree
        cases hfree
      · rw [ih ⟨c, hc, hfree⟩]

theorem firstFree_lt_total {l : List Block} (hpos : ∀ b ∈ l, 0 < b.size)
    (h : ∃ b ∈ l, b.used = false) : firstFree l < total l := by
  induction l with
  | nil => simp at h
  | cons b l ih =>
    rw [firstFree, total_cons]
    cases hb : b.used with
    | false => exact Nat.lt_of_lt_of_le (hpos b List.mem_cons_self) (Nat.le_add_right _ _)
    | true =>
      obtain ⟨c, hc, hfree⟩ := h
      rcases List.mem_cons.mp hc with rfl | hc
      · rw [hb] at hfree
        cases hfree
      · exact Nat.add_lt_add_left
          (ih (fun d hd => hpos d (List.mem_cons_of_mem b hd)) ⟨c, hc, hfree⟩) _

/-- A list has a free block or is used throughout. -/
theorem allUsed_or_exists_free (l : List Block) :
    (∀ b ∈ l, b.used = true) ∨ ∃ b ∈ l, b.used = false := by
  rcases Classical.em (∀ b ∈ l, b.used = true) with h | h
  · exact Or.inl h
  · simp only [not_forall, Bool.not_eq_true, exists_prop] at h
    exact Or.inr h

/-- Freeing a block makes it the lowest free one unless a lower one is free. -/
theorem firstFree_freed {l : List Block} (hpos : ∀ b ∈ l, 0 < b.size) {n : Nat} (hn : 0 < n)
    (r : List Block) : firstFree (l ++ ⟨n, false⟩ :: r) =
      if total l < firstFree (l ++ ⟨n, true⟩ :: r) then total l
      else firstFree (l ++ ⟨n, true⟩ :: r) := by
  rcases allUsed_or_exists_free l with h | h
  · rw [firstFree_append_of_used h, firstFree_append_of_used h, if_pos]
    · rfl
    · exact Nat.lt_add_of_pos_right (Nat.add_pos_left hn _)
  · have hlt := firstFree_lt_total hpos h
    rw [firstFree_append_of_free h, firstFree_append_of_free h, if_neg (by omega)]

/-! ## Places -/

theorem usedPlaces_append (a : Nat) (l r : List Block) :
    usedPlaces a (l ++ r) = usedPlaces a l ++ usedPlaces (a + total l) r := by
  induction l generalizing a with
  | nil => rfl
  | cons b l ih =>
    rw [List.cons_append, usedPlaces, usedPlaces, ih, total_cons, List.append_assoc, Nat.add_assoc]

/-- A used block lies in the area, and its place is where the blocks in front of it end. -/
theorem mem_usedPlaces_iff {a : Nat} {bs : List Block} {x : Nat × Nat} :
    x ∈ usedPlaces a bs ↔ ∃ l r, bs = l ++ ⟨x.2, true⟩ :: r ∧ x.1 = a + total l := by
  induction bs generalizing a with
  | nil => simp [usedPlaces]
  | cons b bs ih =>
    rw [usedPlaces, List.mem_append, ih]
    constructor
    · rintro (h | ⟨l, r, hbs, hx⟩)
      · cases hb : b.used with
        | false => simp [hb] at h
        | true =>
          have hx : x = (a, b.size) := by simpa [hb] using h
          refine ⟨[], bs, ?_, by rw [hx]; rfl⟩
          rw [hx, List.nil_append, ← hb]
      · exact ⟨b :: l, r, by rw [hbs]; rfl, by rw [hx, total_cons, Nat.add_assoc]⟩
    · rintro ⟨l, r, hbs, hx⟩
      cases l with
      | nil =>
        left
        obtain ⟨rfl, -⟩ := List.cons.inj hbs
        rw [if_pos rfl, List.mem_singleton]
        exact Prod.ext hx rfl
      | cons c l =>
        right
        obtain ⟨rfl, hrest⟩ := List.cons.inj hbs
        exact ⟨l, r, hrest, by rw [hx, total_cons, Nat.add_assoc]⟩

/-- A used block lies within the area. -/
theorem le_of_mem_usedPlaces {a : Nat} {bs : List Block} {x : Nat × Nat}
    (h : x ∈ usedPlaces a bs) : a ≤ x.1 ∧ x.1 + x.2 ≤ a + total bs := by
  obtain ⟨l, r, rfl, hx⟩ := mem_usedPlaces_iff.mp h
  rw [total_append, total_cons, hx]
  constructor
  · exact Nat.le_add_right a _
  · show a + total l + x.2 ≤ a + (total l + (x.2 + total r))
    omega

/-- The used blocks follow one another. -/
theorem pairwise_usedPlaces (a : Nat) (bs : List Block) :
    (usedPlaces a bs).Pairwise fun x y => x.1 + x.2 ≤ y.1 := by
  induction bs generalizing a with
  | nil => exact List.Pairwise.nil
  | cons b bs ih =>
    rw [usedPlaces]
    cases b.used with
    | false => exact ih (a + b.size)
    | true =>
      refine List.pairwise_cons.mpr ⟨fun y hy => ?_, ih (a + b.size)⟩
      exact (le_of_mem_usedPlaces hy).1

/-! ## User bytes -/

section UserByte

variable {hdr i : Nat}

theorem userByte_append (a : Nat) (l r : List Block) :
    UserByte hdr i a (l ++ r) ↔ UserByte hdr i a l ∨ UserByte hdr i (a + total l) r := by
  induction l generalizing a with
  | nil => simp [UserByte]
  | cons b l ih => rw [List.cons_append, UserByte, UserByte, ih, total_cons, Nat.add_assoc, or_assoc]

theorem userByte_bounds {a : Nat} {bs : List Block} (h : UserByte hdr i a bs) :
    a + hdr ≤ i ∧ i < a + total bs := by
  induction bs generalizing a with
  | nil => exact h.elim
  | cons b bs ih =>
    rw [total_cons]
    rcases h with ⟨-, hlo, hhi⟩ | h
    · omega
    · have hrest := ih h
      omega

/-- The bytes of users are those behind the header of a used block. -/
theorem userByte_iff {a : Nat} {bs : List Block} :
    UserByte hdr i a bs ↔ ∃ x ∈ usedPlaces a bs, x.1 + hdr ≤ i ∧ i < x.1 + x.2 := by
  induction bs generalizing a with
  | nil => simp [UserByte, usedPlaces]
  | cons b bs ih =>
    rw [UserByte, ih, usedPlaces]
    cases b.used <;> simp

end UserByte

/-! ## Neighbours -/

/-- Whether free blocks are neighbours is a matter of the two parts that share a block. -/
theorem spaced_append_cons {l r : List Block} {b : Block} : Spaced (l ++ b :: r) ↔
    Spaced (l ++ [b]) ∧ Spaced (b :: r) := by
  unfold Spaced
  exact List.isChain_split

theorem spaced_concat {l : List Block} {b : Block} : Spaced (l ++ [b]) ↔
    Spaced l ∧ ∀ c ∈ l.getLast?, c.used = true ∨ b.used = true := by
  unfold Spaced
  rw [List.isChain_append]
  simp

theorem spaced_cons {r : List Block} {b : Block} : Spaced (b :: r) ↔
    (∀ c ∈ r.head?, b.used = true ∨ c.used = true) ∧ Spaced r := by
  unfold Spaced
  exact List.isChain_cons

/-! ## Allocation -/

/-- A free block of `m` bytes gives `n` of them, the rest stays a free block where it is at
least `least` bytes long. -/
def carve (least m n : Nat) : List Block :=
  if n + least ≤ m then [⟨n, true⟩, ⟨m - n, false⟩] else [⟨m, true⟩]

/-- The size of the used block that an allocation leaves. -/
def given (least m n : Nat) : Nat := if n + least ≤ m then n else m

@[simp] theorem total_carve (least m n : Nat) : total (carve least m n) = m := by
  unfold carve
  split <;> simp
  omega

@[simp] theorem usedTotal_carve (least m n : Nat) :
    usedTotal (carve least m n) = given least m n := by
  unfold carve given
  split <;> simp

/-- Cutting a block gives one used block at its start. -/
theorem usedPlaces_carve (least m n a : Nat) :
    usedPlaces a (carve least m n) = [(a, given least m n)] := by
  unfold carve given
  split <;> simp [usedPlaces]

theorem le_given (least : Nat) {m n : Nat} (h : n ≤ m) : n ≤ given least m n := by
  unfold given
  split <;> omega

/-- A cut leaves its rest behind a used block, so that it makes no two free neighbours. -/
theorem spaced_carve {l r : List Block} {m : Nat} (least n : Nat)
    (h : Spaced (l ++ ⟨m, false⟩ :: r)) : Spaced (l ++ carve least m n ++ r) := by
  obtain ⟨hl, hr⟩ := spaced_append_cons.mp h
  obtain ⟨hhead, htail⟩ := spaced_cons.mp hr
  have hleft : ∀ k, Spaced (l ++ [⟨k, true⟩]) := fun k =>
    spaced_concat.mpr ⟨(spaced_concat.mp hl).1, fun c _ => Or.inr rfl⟩
  rw [List.append_assoc]
  unfold carve
  split
  · refine spaced_append_cons.mpr ⟨hleft n, spaced_cons.mpr ⟨fun c _ => Or.inl rfl, ?_⟩⟩
    exact spaced_cons.mpr ⟨hhead, htail⟩
  · refine spaced_append_cons.mpr ⟨hleft m, spaced_cons.mpr ⟨fun c _ => Or.inl rfl, htail⟩⟩

/-! ## Release -/

/-- A free block of `n` bytes in front of others takes in a free one behind it. -/
def joinNext (n : Nat) : List Block → List Block
  | ⟨m, false⟩ :: r => ⟨n + m, false⟩ :: r
  | r => ⟨n, false⟩ :: r

/-- A block of `n` bytes between others becomes free and is joined with its free neighbours. -/
def release (n : Nat) (r : List Block) : List Block → List Block
  | [] => joinNext n r
  | [⟨m, false⟩] => joinNext (m + n) r
  | b :: l => b :: release n r l

/-- Joining takes in the next block where that is free, and nothing otherwise. -/
theorem joinNext_eq (n : Nat) (r : List Block) :
    (∃ m r', r = ⟨m, false⟩ :: r' ∧ joinNext n r = ⟨n + m, false⟩ :: r') ∨
      ((∀ c ∈ r.head?, c.used = true) ∧ joinNext n r = ⟨n, false⟩ :: r) := by
  match r with
  | [] => exact Or.inr ⟨fun c hc => by simp at hc, rfl⟩
  | ⟨m, false⟩ :: r' => exact Or.inl ⟨m, r', rfl, rfl⟩
  | ⟨m, true⟩ :: r' => exact Or.inr ⟨fun c hc => by simp at hc; rw [← hc], rfl⟩

/-- A release joins with the last block in front of it, or leaves the blocks there alone. -/
theorem release_eq (n : Nat) (r l : List Block) :
    (∃ m l', l = l' ++ [⟨m, false⟩] ∧ release n r l = l' ++ joinNext (m + n) r) ∨
      ((∀ c ∈ l.getLast?, c.used = true) ∧ release n r l = l ++ joinNext n r) := by
  match l with
  | [] => exact Or.inr ⟨fun c hc => by simp at hc, rfl⟩
  | [⟨m, false⟩] => exact Or.inl ⟨m, [], rfl, rfl⟩
  | [⟨m, true⟩] => exact Or.inr ⟨fun c hc => by simp at hc; rw [← hc], rfl⟩
  | b :: c :: l =>
    have hstep : release n r (b :: c :: l) = b :: release n r (c :: l) := by
      obtain ⟨s, u⟩ := b
      cases u <;> rfl
    rcases release_eq n r (c :: l) with ⟨m, l', hl, hrel⟩ | ⟨hlast, hrel⟩
    · exact Or.inl ⟨m, b :: l', by rw [hl]; rfl, by rw [hstep, hrel]; rfl⟩
    · exact Or.inr ⟨fun d hd => hlast d (by simpa using hd), by rw [hstep, hrel]; rfl⟩

/-- Where the block in front is free, the released one is joined with it and with the next one. -/
theorem release_concat_free (n m : Nat) (r l : List Block) :
    release n r (l ++ [⟨m, false⟩]) = l ++ joinNext (m + n) r := by
  rcases release_eq n r (l ++ [⟨m, false⟩]) with ⟨k, l', hl, h⟩ | ⟨hlast, -⟩
  · obtain ⟨rfl, hb⟩ := List.append_inj' hl rfl
    cases hb
    exact h
  · have hfree : false = true := hlast ⟨m, false⟩ (by simp)
    cases hfree

/-- Where the block in front is used, the released one is joined with the next one only. -/
theorem release_of_used {n : Nat} {r l : List Block} (h : ∀ c ∈ l.getLast?, c.used = true) :
    release n r l = l ++ joinNext n r := by
  rcases release_eq n r l with ⟨m, l', rfl, -⟩ | ⟨-, hrel⟩
  · have hfree : false = true := h ⟨m, false⟩ (by simp)
    cases hfree
  · exact hrel

/-- A free block in front takes the joined one in. -/
theorem joinNext_add {n k : Nat} {r s : List Block} (h : joinNext n r = ⟨k, false⟩ :: s) (m : Nat) :
    joinNext (m + n) r = ⟨m + k, false⟩ :: s := by
  rcases joinNext_eq n r with ⟨j, r', rfl, hj⟩ | ⟨hhead, hj⟩
  · obtain ⟨hk, rfl⟩ := List.cons.inj (hj.symm.trans h)
    cases hk
    exact congrArg (fun i => (⟨i, false⟩ : Block) :: r') (Nat.add_assoc m n j)
  · obtain ⟨hk, rfl⟩ := List.cons.inj (hj.symm.trans h)
    cases hk
    rcases joinNext_eq (m + n) r with ⟨j, r', rfl, -⟩ | ⟨-, hj'⟩
    · cases hhead ⟨j, false⟩ rfl
    · exact hj'

@[simp] theorem total_joinNext (n : Nat) (r : List Block) : total (joinNext n r) = n + total r := by
  rcases joinNext_eq n r with ⟨m, r', rfl, h⟩ | ⟨-, h⟩ <;> simp [h, Nat.add_assoc]

@[simp] theorem usedTotal_joinNext (n : Nat) (r : List Block) :
    usedTotal (joinNext n r) = usedTotal r := by
  rcases joinNext_eq n r with ⟨m, r', rfl, h⟩ | ⟨-, h⟩ <;> simp [h]

theorem usedPlaces_joinNext (n a : Nat) (r : List Block) :
    usedPlaces a (joinNext n r) = usedPlaces (a + n) r := by
  rcases joinNext_eq n r with ⟨m, r', rfl, h⟩ | ⟨-, h⟩ <;> simp [h, usedPlaces, Nat.add_assoc]

/-- The joined block is itself free. -/
theorem firstFree_joinNext (n : Nat) (r : List Block) : firstFree (joinNext n r) = 0 := by
  rcases joinNext_eq n r with ⟨m, r', rfl, h⟩ | ⟨-, h⟩ <;> rw [h] <;> rfl

/-- Joining makes no two free neighbours. -/
theorem spaced_joinNext {n : Nat} {r : List Block} (h : Spaced r) : Spaced (joinNext n r) := by
  rcases joinNext_eq n r with ⟨m, r', rfl, hjoin⟩ | ⟨hhead, hjoin⟩ <;> rw [hjoin]
  · obtain ⟨hnext, hrest⟩ := spaced_cons.mp h
    exact spaced_cons.mpr ⟨hnext, hrest⟩
  · exact spaced_cons.mpr ⟨fun c hc => Or.inr (hhead c hc), h⟩

variable (n : Nat) (l r : List Block)

@[simp] theorem total_release : total (release n r l) = total l + (n + total r) := by
  rcases release_eq n r l with ⟨m, l', rfl, h⟩ | ⟨-, h⟩ <;> simp [h, Nat.add_assoc]

@[simp] theorem usedTotal_release : usedTotal (release n r l) = usedTotal l + usedTotal r := by
  rcases release_eq n r l with ⟨m, l', rfl, h⟩ | ⟨-, h⟩ <;> simp [h]

/-- A release leaves every other used block where it was. -/
theorem usedPlaces_release (a : Nat) : usedPlaces a (release n r l) =
    usedPlaces a l ++ usedPlaces (a + total l + n) r := by
  rcases release_eq n r l with ⟨m, l', rfl, h⟩ | ⟨-, h⟩
  · rw [h, usedPlaces_append, usedPlaces_append, usedPlaces_joinNext]
    simp [usedPlaces, Nat.add_assoc]
  · rw [h, usedPlaces_append, usedPlaces_joinNext]

/-- For the lowest free block it makes no difference whether free neighbours are joined. -/
theorem firstFree_release : firstFree (release n r l) = firstFree (l ++ ⟨n, false⟩ :: r) := by
  have hzero : ∀ k s, firstFree (⟨k, false⟩ :: s) = 0 := fun _ _ => rfl
  rcases release_eq n r l with ⟨m, l', rfl, h⟩ | ⟨-, h⟩
  · rw [h, List.append_assoc, List.singleton_append]
    rcases allUsed_or_exists_free l' with hall | hfree
    · rw [firstFree_append_of_used hall, firstFree_append_of_used hall, firstFree_joinNext, hzero]
    · rw [firstFree_append_of_free hfree, firstFree_append_of_free hfree]
  · rw [h]
    rcases allUsed_or_exists_free l with hall | hfree
    · rw [firstFree_append_of_used hall, firstFree_append_of_used hall, firstFree_joinNext, hzero]
    · rw [firstFree_append_of_free hfree, firstFree_append_of_free hfree]

variable {n l r}

/-- Released blocks are joined with their free neighbours, so that no two are left. -/
theorem spaced_release (h : Spaced (l ++ ⟨n, true⟩ :: r)) : Spaced (release n r l) := by
  obtain ⟨hl, hr⟩ := spaced_append_cons.mp h
  have hright : ∀ k, Spaced (joinNext k r) := fun k => spaced_joinNext (spaced_cons.mp hr).2
  -- the block that results is free, whatever it was joined with
  have hglue : ∀ {k : Nat} {s : List Block}, Spaced s → (∀ c ∈ s.getLast?, c.used = true) →
      Spaced (s ++ joinNext k r) := by
    intro k s hs hlast
    obtain ⟨j, s', hjoin⟩ : ∃ j s', joinNext k r = ⟨j, false⟩ :: s' := by
      rcases joinNext_eq k r with ⟨m, r', -, hj⟩ | ⟨-, hj⟩ <;> exact ⟨_, _, hj⟩
    have hk := hright k
    rw [hjoin] at hk ⊢
    exact spaced_append_cons.mpr
      ⟨spaced_concat.mpr ⟨hs, fun c hc => Or.inl (hlast c hc)⟩, hk⟩
  rcases release_eq n r l with ⟨m, l', rfl, hrel⟩ | ⟨hlast, hrel⟩ <;> rw [hrel]
  · have hl' := spaced_concat.mp (spaced_concat.mp hl).1
    refine hglue hl'.1 fun c hc => ?_
    exact (hl'.2 c hc).resolve_right Bool.false_ne_true
  · exact hglue (spaced_concat.mp hl).1 hlast

end Blocks

end HpmSdk.Foundation
