import HpmSdk.Foundation.Run
import HpmSdk.Rtt.SmallMemOwners

set_option autoImplicit false

/-!
# Runs of the heap

The users of the heap allocate, write, resize and free blocks in any order.  Every critical
section of `mem.c` is one call here; a `rt_realloc` that moves a block may also be read as the
`malloc`, the writes and the `free` that it consists of, with calls of others in between.  A user
only hands back pointers that it was given, and only writes inside the size that it asked for.
-/

namespace HpmSdk.Rtt

open Foundation Foundation.Blocks

section Realloc

variable {s t : SmallMem} {la lb : List Live} {v : Live} {fuel size q : Nat}

/-- A live block holds what its owner stored. -/
theorem Owned.bytes (h : Owned s (la ++ v :: lb)) :
    s.ram.toList (v.ptr - s.heapPtr) v.data.length = v.data := by
  obtain ⟨l, n, r, xa, xb, hholds, hv, -⟩ := h.split
  have hplace : v.ptr - s.heapPtr = total l + sizeofStructMem := by
    rw [hv.ptr]
    omega
  rw [hplace]
  exact hv.bytes

/-- An owner that counts on fewer bytes. -/
theorem Owned.relabel {d : List UInt8} (h : Owned s (la ++ v :: lb))
    (hlen : d.length ≤ v.data.length) (hd : s.ram.toList (v.ptr - s.heapPtr) d.length = d) :
    Owned s (la ++ ⟨v.ptr, d⟩ :: lb) := by
  obtain ⟨l, n, r, xa, xb, hholds, hv, hperm, ha, hb⟩ := h.split
  have hplace : v.ptr - s.heapPtr = total l + sizeofStructMem := by
    rw [hv.ptr]
    omega
  have hroom := hv.room
  have hplaces : usedPlaces 0 (l ++ ⟨n, true⟩ :: r) =
      usedPlaces 0 l ++ (total l, n) :: usedPlaces (total l + n) r := by
    rw [usedPlaces_append, Nat.zero_add]
    rfl
  rw [hplace] at hd
  exact Owned.join hholds hplaces hperm ha hb ⟨hv.ptr, by dsimp only at hroom ⊢; omega, hd⟩

/-- The bytes behind a resize: the old ones as far as they go, whatever is there behind them. -/
theorem toList_resized {b c : Buf} {off off' : Nat} {data : List UInt8}
    (hc : c.toList off' data.length = data)
    (h : ∀ i < min data.length size, b (off + i) = c (off' + i)) :
    b.toList off size = data.take size ++ b.toList (off + data.length) (size - data.length) := by
  have htake : b.toList off (min data.length size) = data.take size := by
    rw [Buf.toList_congr h]
    rcases Nat.le_total data.length size with hle | hle
    · rw [Nat.min_eq_left hle, hc, List.take_of_length_le hle]
    · have hsplit := hc
      obtain ⟨k, hk⟩ := Nat.exists_eq_add_of_le hle
      rw [hk, Buf.toList_add] at hsplit
      rw [Nat.min_eq_right hle]
      conv_rhs => rw [← hsplit]
      rw [List.take_left' (Buf.length_toList c off' size)]
  rcases Nat.le_total data.length size with hle | hle
  · rw [← htake, Nat.min_eq_left hle, ← Buf.toList_add, Nat.add_sub_cancel' hle]
  · rw [← htake, Nat.min_eq_right hle, Nat.sub_eq_zero_of_le hle, Buf.toList_zero, List.append_nil]

/-- What a user has behind `rt_realloc`. -/
def resized (t : SmallMem) (q size : Nat) (data : List UInt8) : List UInt8 :=
  data.take size ++ t.ram.toList (q - t.heapPtr + data.length) (size - data.length)

theorem length_resized (data : List UInt8) : (resized t q size data).length = size := by
  rw [resized, List.length_append, List.length_take, Buf.length_toList]
  omega

/-- A block that stays where it is. -/
theorem owns_resized {x : Nat × Nat} {n : Nat} (hv : Owns s v x) (hptr : t.heapPtr = s.heapPtr)
    (hroom : size + sizeofStructMem ≤ n)
    (hbytes : ∀ i, x.1 + sizeofStructMem ≤ i → i < x.1 + min x.2 n → t.ram i = s.ram i) :
    Owns t ⟨v.ptr, resized t v.ptr size v.data⟩ (x.1, n) := by
  have hplace : v.ptr - t.heapPtr = x.1 + sizeofStructMem := by
    rw [hv.ptr, hptr]
    omega
  have hlen := hv.room
  refine ⟨by rw [hptr]; exact hv.ptr, by rw [length_resized]; exact hroom, ?_⟩
  rw [length_resized, resized, hplace]
  exact toList_resized hv.bytes fun i hi => hbytes _ (by omega) (by omega)

/-- A resize to 0 is a free. -/
theorem rtRealloc_zero {rmem : Nat} :
    rtRealloc fuel s rmem 0 = some (rtNull, rtFree s rmem) := by
  have halign : rtAlign 0 = 0 := rfl
  rw [rtRealloc]
  dsimp only
  rw [halign, if_neg (Nat.not_lt_zero _), if_pos rfl]

/-- A block that shrinks keeps the bytes that its owner still has room for. -/
theorem Owned.shrink {l r : List Block} {n : Nat} {xa xb : List (Nat × Nat)}
    (hholds : Holds s (l ++ ⟨n, true⟩ :: r)) (hv : Owns s v (total l, n))
    (hperm : (xa ++ xb).Perm (usedPlaces 0 l ++ usedPlaces (total l + n) r))
    (ha : List.Forall₂ (Owns s) la xa) (hb : List.Forall₂ (Owns s) lb xb)
    (hsize : size + 3 < 2 ^ 32) (hpos : 0 < size)
    (hshrink : rtAlign size + sizeofStructMem + minSize < n - sizeofStructMem) :
    let t := shrinkBlock s (total l) (n - sizeofStructMem) (rtAlign size)
    t.heapPtr = s.heapPtr ∧ t.memSizeAligned = s.memSizeAligned ∧
      Owned t (la ++ ⟨v.ptr, resized t v.ptr size v.data⟩ :: lb) := by
  have hstruct : sizeofStructMem = 12 := rfl
  have hmin : minSize = 12 := rfl
  have halign := le_rtAlign hsize
  have halign4 := four_dvd_rtAlign size
  obtain ⟨j, rfl⟩ : ∃ j, n = rtAlign size + sizeofStructMem + j :=
    Nat.exists_eq_add_of_le (by omega)
  have hn : SizeOk (rtAlign size + sizeofStructMem + j) := hholds.laid.sizes ⟨_, true⟩ (by simp)
  have hk : SizeOk (rtAlign size + sizeofStructMem) := ⟨by omega, Nat.dvd_add halign4 (by decide)⟩
  have hj : SizeOk j := ⟨by omega, (Nat.dvd_add_right hk.2).mp hn.2⟩
  obtain ⟨hnew, hkeeps⟩ := shrinkBlock_spec hholds hk hj
  rw [Nat.add_sub_cancel] at hnew hkeeps
  have hplaces : usedPlaces 0 (l ++ ⟨rtAlign size + sizeofStructMem, true⟩ :: joinNext j r) =
      usedPlaces 0 l ++ (total l, rtAlign size + sizeofStructMem) ::
        usedPlaces (total l + (rtAlign size + sizeofStructMem + j)) r := by
    rw [usedPlaces_append, Nat.zero_add, usedPlaces, usedPlaces_joinNext, Nat.add_assoc]
    rfl
  have hmem : ∀ x ∈ xa ++ xb, x ∈ usedPlaces 0
      (l ++ ⟨rtAlign size + sizeofStructMem, true⟩ :: joinNext j r) := by
    intro x hx
    rw [hplaces]
    rcases List.mem_append.mp (hperm.mem_iff.mp hx) with hx | hx
    · exact List.mem_append_left _ hx
    · exact List.mem_append_right _ (List.mem_cons_of_mem _ hx)
  refine ⟨hkeeps.heapPtr, hkeeps.memSizeAligned, Owned.join hnew hplaces hperm ?_ ?_
    (owns_resized hv hkeeps.heapPtr (by omega) fun i hlo hhi => hkeeps.bytes i ?_)⟩
  · exact forall₂_owns_keeps ha hkeeps fun x hx => hmem x (List.mem_append_left _ hx)
  · exact forall₂_owns_keeps hb hkeeps fun x hx => hmem x (List.mem_append_right _ hx)
  · refine userByte_iff.mpr ⟨(total l, rtAlign size + sizeofStructMem), ?_, hlo, ?_⟩
    · rw [hplaces]
      simp
    · dsimp only at hhi ⊢
      omega

/-- `rt_free` leaves the variables of the heap that no call changes. -/
theorem Owned.free_keeps (h : Owned s (la ++ v :: lb)) :
    (rtFree s v.ptr).heapPtr = s.heapPtr ∧
      (rtFree s v.ptr).memSizeAligned = s.memSizeAligned := by
  obtain ⟨l, n, r, _, _, hholds, hv, -⟩ := h.split
  have hkeeps := (rtFree_spec hholds).2
  rw [← hv.ptr] at hkeeps
  exact ⟨hkeeps.heapPtr, hkeeps.memSizeAligned⟩

/-- The bytes of a block are copied to a new one, and the old one is released. -/
theorem Owned.move {u : SmallMem} {p n : Nat}
    (hu : Owned u (la ++ v :: lb ++ [⟨p, u.ram.toList (p - u.heapPtr) (rtAlign size)⟩]))
    (hroom : v.data.length + sizeofStructMem ≤ n) (hsize : size + 3 < 2 ^ 32) :
    let ram := u.ram.copy (p - u.heapPtr) (u.ram.drop (v.ptr - u.heapPtr))
      (min (n - sizeofStructMem) (rtAlign size))
    let t := rtFree { u with ram } v.ptr
    t.heapPtr = u.heapPtr ∧ t.memSizeAligned = u.memSizeAligned ∧
      Owned t (la ++ ⟨p, resized t p size v.data⟩ :: lb) := by
  intro ram t
  have halign := le_rtAlign hsize
  have hcopied := hu.store ram fun i hi => by
    rw [Buf.length_toList] at hi
    show Buf.copy _ _ _ _ i = u.ram i
    rw [Buf.copy, if_neg (by dsimp only at hi; omega)]
  rw [Buf.length_toList, List.append_assoc, List.cons_append] at hcopied
  have hvu : u.ram.toList (v.ptr - u.heapPtr) v.data.length = v.data := by
    rw [List.append_assoc, List.cons_append] at hu
    exact hu.bytes
  have hfreed : Owned t _ := hcopied.free
  have hkeeps : t.heapPtr = u.heapPtr ∧ t.memSizeAligned = u.memSizeAligned := hcopied.free_keeps
  rw [← List.append_assoc] at hfreed
  have hkept := hfreed.bytes
  rw [Buf.length_toList, hkeeps.1] at hkept
  have hresized : t.ram.toList (p - u.heapPtr) size = resized t p size v.data := by
    rw [resized, hkeeps.1]
    refine toList_resized hvu fun i hi => ?_
    -- the byte was copied, and `rt_free` left it alone
    have hread := congrArg (fun d => d.getD i 0) hkept
    dsimp only at hread
    rw [Buf.getD_toList _ _ (by omega), Buf.getD_toList _ _ (by omega)] at hread
    rw [hread]
    show Buf.copy _ _ _ _ _ = _
    rw [Buf.copy, if_pos (by omega), Buf.drop, Nat.add_sub_cancel_left]
  have hrelabel := hfreed.relabel (d := resized t p size v.data)
    (by rw [length_resized, Buf.length_toList]; exact halign)
    (by rw [length_resized, hkeeps.1]; exact hresized)
  refine ⟨hkeeps.1, hkeeps.2, hrelabel.perm ?_⟩
  rw [List.append_assoc]
  exact (List.perm_append_singleton _ lb).symm.append_left la

/-- `rt_realloc` leaves everything alone, or gives a block with the old bytes in it. -/
theorem Owned.realloc (h : Owned s (la ++ v :: lb)) (hfuel : s.memSizeAligned ≤ fuel)
    (hpos : 0 < size) (hsize : size + 3 < 2 ^ 32) :
    ∃ q t, rtRealloc fuel s v.ptr size = some (q, t) ∧
      t.heapPtr = s.heapPtr ∧ t.memSizeAligned = s.memSizeAligned ∧
      ((q = rtNull ∧ t = s) ∨
        (q ≠ rtNull ∧ Owned t (la ++ ⟨q, resized t q size v.data⟩ :: lb))) := by
  have howned := h
  obtain ⟨l, n, r, xa, xb, hholds, hv, hperm, ha, hb⟩ := h.split
  have hstruct : sizeofStructMem = 12 := rfl
  have hnull : rtNull = 0 := rfl
  have halign := le_rtAlign hsize
  have hptr := hv.ptr
  dsimp only at hptr
  rw [hptr, rtRealloc_eq hholds (by omega), ← hptr]
  split
  case isTrue => exact ⟨rtNull, s, rfl, rfl, rfl, Or.inl ⟨rfl, rfl⟩⟩
  case isFalse hbig =>
  split
  case isTrue hsame =>
    have hplaces : usedPlaces 0 (l ++ ⟨n, true⟩ :: r) =
        usedPlaces 0 l ++ (total l, n) :: usedPlaces (total l + n) r := by
      rw [usedPlaces_append, Nat.zero_add]
      rfl
    refine ⟨v.ptr, s, rfl, rfl, rfl, Or.inr ⟨by omega, ?_⟩⟩
    exact Owned.join hholds hplaces hperm ha hb
      (owns_resized hv rfl (by omega) fun _ _ _ => rfl)
  case isFalse =>
  split
  case isTrue hshrink =>
    obtain ⟨hhp, hmsa, hshrunk⟩ := Owned.shrink hholds hv hperm ha hb hsize hpos hshrink
    exact ⟨v.ptr, _, rfl, hhp, hmsa, Or.inr ⟨by omega, hshrunk⟩⟩
  case isFalse hgrow =>
    obtain ⟨p, u, hmalloc⟩ : ∃ p u, rtMalloc fuel s (rtAlign size) = some (p, u) := by
      rcases rtMalloc_spec hholds hfuel (show 0 < rtAlign size by omega) with
        ⟨-, heq⟩ | ⟨_, _, _, _, -, -, -, -, heq, -⟩ <;> exact ⟨_, _, heq⟩
    have hbound := hholds.laid.bound
    rw [hmalloc, Option.map_some]
    dsimp only
    rcases howned.alloc hfuel (by omega) hmalloc with ⟨hp, rfl⟩ | ⟨hp, hhp, hmsa, hu⟩
    · rw [if_neg (not_not.mpr hp)]
      exact ⟨p, u, rfl, rfl, rfl, Or.inl ⟨hp, rfl⟩⟩
    · rw [if_pos hp]
      obtain ⟨hhp', hmsa', hmoved⟩ := hu.move hv.room hsize
      exact ⟨p, _, rfl, hhp'.trans hhp, hmsa'.trans hmsa, Or.inr ⟨hp, hmoved⟩⟩

end Realloc

/-! ## The users -/

/-- The heap with the live blocks of its users. -/
structure HeapUsers where
  heap : SmallMem
  live : List Live

/-- The calls of the users; a live block is named by its place in the list. -/
inductive HeapCall where
  | malloc (size : Nat)
  | calloc (count size : Nat)
  | realloc (i size : Nat)
  | free (i : Nat)
  | write (i off : Nat) (byte : UInt8)
  deriving DecidableEq

/-- A pointer that is not `RT_NULL` is a new live block. -/
def grant (live : List Live) (p : Nat) (data : List UInt8) : List Live :=
  if p = rtNull then live else live ++ [⟨p, data⟩]

/-- One call.  Refused are an unknown block, a store outside the size asked for, and a size that
`RT_ALIGN` wraps. -/
def heapStep (fuel : Nat) (c : HeapUsers) : HeapCall → Option HeapUsers
  | .malloc size =>
    if size + 3 < 2 ^ 32 then
      (rtMalloc fuel c.heap size).map fun (p, t) =>
        ⟨t, grant c.live p (t.ram.toList (p - t.heapPtr) size)⟩
    else none
  | .calloc count size =>
    if count * size + 3 < 2 ^ 32 then
      (rtCalloc fuel c.heap count size).map fun (p, t) =>
        ⟨t, grant c.live p (List.replicate (count * size) 0)⟩
    else none
  | .realloc i size =>
    if size + 3 < 2 ^ 32 then
      c.live[i]?.bind fun v => (rtRealloc fuel c.heap v.ptr size).map fun (q, t) =>
        if size = 0 then ⟨t, c.live.eraseIdx i⟩
        else if q = rtNull then ⟨t, c.live⟩
        else ⟨t, c.live.set i ⟨q, resized t q size v.data⟩⟩
    else none
  | .free i => c.live[i]?.map fun v => ⟨rtFree c.heap v.ptr, c.live.eraseIdx i⟩
  | .write i off byte =>
    c.live[i]?.bind fun v =>
      if off < v.data.length then
        some ⟨{ c.heap with ram := c.heap.ram.set (v.ptr - c.heap.heapPtr + off) byte },
          c.live.set i ⟨v.ptr, v.data.set off byte⟩⟩
      else none

section Steps

variable {c c' : HeapUsers} {fuel : Nat} {s t : SmallMem} {live : List Live}

theorem exists_of_getElem? {i : Nat} {v : Live} (h : live[i]? = some v) :
    ∃ la lb, live = la ++ v :: lb ∧ live.eraseIdx i = la ++ lb ∧
      ∀ w, live.set i w = la ++ w :: lb := by
  obtain ⟨hi, hv⟩ := List.getElem?_eq_some_iff.mp h
  refine ⟨live.take i, live.drop (i + 1), ?_, List.eraseIdx_eq_take_drop_succ _ _, fun w => ?_⟩
  · rw [← hv, ← List.drop_eq_getElem_cons hi, List.take_append_drop]
  · rw [List.set_eq_take_append_cons_drop, if_pos hi]

theorem grant_of_ne {p : Nat} (h : p ≠ rtNull) (data : List UInt8) :
    grant live p data = live ++ [⟨p, data⟩] := if_neg h

/-- Zeroes that `rt_calloc` leaves. -/
theorem toList_fill (b : Buf) (off n : Nat) (v : UInt8) :
    (b.fill off v n).toList off n = List.replicate n v := by
  refine List.ext_getElem (by simp) fun i hi _ => ?_
  rw [Buf.length_toList] at hi
  simp [Buf.toList, Buf.fill, hi]

/-- A cleared block holds zeros. -/
theorem Owned.calloc {count size p : Nat} (h : Owned s live) (hfuel : s.memSizeAligned ≤ fuel)
    (hsize : count * size + 3 < 2 ^ 32) (hrun : rtCalloc fuel s count size = some (p, t)) :
    t.heapPtr = s.heapPtr ∧ t.memSizeAligned = s.memSizeAligned ∧
      Owned t (grant live p (List.replicate (count * size) 0)) := by
  have hbytes : count * size % 2 ^ 32 = count * size := Nat.mod_eq_of_lt (by omega)
  rw [rtCalloc] at hrun
  dsimp only at hrun
  rw [hbytes] at hrun
  obtain ⟨⟨q, u⟩, hmalloc, heq⟩ := Option.map_eq_some_iff.mp hrun
  rcases h.alloc hfuel hsize hmalloc with ⟨rfl, rfl⟩ | ⟨hq, hhp, hmsa, hu⟩
  · rw [if_neg (not_not.mpr rfl)] at heq
    cases heq
    exact ⟨rfl, rfl, h⟩
  · rw [if_pos hq] at heq
    obtain ⟨rfl, rfl⟩ := Prod.mk.inj heq
    refine ⟨hhp, hmsa, ?_⟩
    have hstore := hu.store (u.ram.fill (q - u.heapPtr) 0 (count * size))
      fun i hi => by
        rw [Buf.length_toList] at hi
        rw [Buf.fill, if_neg (by dsimp only at hi; omega)]
    rw [Buf.length_toList, toList_fill] at hstore
    rw [grant_of_ne hq]
    exact hstore

/-- A write inside a block is seen in it, and in no other one. -/
theorem Owned.write {la lb : List Live} {v : Live} {off : Nat} (h : Owned s (la ++ v :: lb))
    (hoff : off < v.data.length) (byte : UInt8) :
    Owned { s with ram := s.ram.set (v.ptr - s.heapPtr + off) byte }
      (la ++ ⟨v.ptr, v.data.set off byte⟩ :: lb) := by
  have hstore := h.store (s.ram.set (v.ptr - s.heapPtr + off) byte)
    fun i hi => Buf.set_of_ne byte (by omega)
  have hdata : (s.ram.set (v.ptr - s.heapPtr + off) byte).toList (v.ptr - s.heapPtr)
      v.data.length = v.data.set off byte := by
    refine List.ext_getElem (by simp) fun i hi _ => ?_
    rw [Buf.length_toList] at hi
    have hold := congrArg (fun d => d.getD i 0) h.bytes
    rw [Buf.getD_toList _ _ hi] at hold
    rw [List.getElem_set]
    simp only [Buf.toList, List.getElem_map, List.getElem_range]
    by_cases hio : off = i
    · rw [if_pos hio, hio, Buf.set_self]
    · rw [if_neg hio, Buf.set_of_ne byte (by omega), hold]
      simp [List.getD_eq_getElem?_getD, hi]
  rw [hdata] at hstore
  exact hstore

/-- The heap belongs to its users, and it does not move. -/
structure HeapInv (s : SmallMem) (c : HeapUsers) : Prop where
  owned : Owned c.heap c.live
  heapPtr : c.heap.heapPtr = s.heapPtr
  memSizeAligned : c.heap.memSizeAligned = s.memSizeAligned

theorem HeapInv.free {i : Nat} {v : Live} (h : HeapInv s c) (hv : c.live[i]? = some v) :
    HeapInv s ⟨rtFree c.heap v.ptr, c.live.eraseIdx i⟩ := by
  obtain ⟨la, lb, hlive, herase, -⟩ := exists_of_getElem? hv
  have howned := h.owned
  rw [hlive] at howned
  obtain ⟨l, n, r, _, _, hholds, howns, -⟩ := howned.split
  have hkeeps := (rtFree_spec hholds).2
  rw [← howns.ptr] at hkeeps
  refine ⟨?_, hkeeps.heapPtr.trans h.heapPtr, hkeeps.memSizeAligned.trans h.memSizeAligned⟩
  rw [herase]
  exact howned.free

/-- One call keeps the order of the heap. -/
theorem heapStep_inv (hfuel : s.memSizeAligned ≤ fuel) (a : HeapCall) (h : HeapInv s c)
    (hstep : heapStep fuel c a = some c') : HeapInv s c' := by
  obtain ⟨howned, hptr, hmsa⟩ := h
  rw [← hmsa] at hfuel
  cases a with
  | malloc size =>
    rw [heapStep] at hstep
    split at hstep
    case isFalse => cases hstep
    case isTrue hsize =>
      obtain ⟨⟨p, t⟩, hmalloc, rfl⟩ := Option.map_eq_some_iff.mp hstep
      rcases howned.alloc hfuel hsize hmalloc with ⟨rfl, rfl⟩ | ⟨hp, hhp, hm, hnew⟩
      · exact ⟨howned, hptr, hmsa⟩
      · rw [← grant_of_ne hp] at hnew
        exact ⟨hnew, hhp.trans hptr, hm.trans hmsa⟩
  | calloc count size =>
    rw [heapStep] at hstep
    split at hstep
    case isFalse => cases hstep
    case isTrue hsize =>
      obtain ⟨⟨p, t⟩, hcalloc, rfl⟩ := Option.map_eq_some_iff.mp hstep
      obtain ⟨hhp, hm, hnew⟩ := howned.calloc hfuel hsize hcalloc
      exact ⟨hnew, hhp.trans hptr, hm.trans hmsa⟩
  | free i =>
    obtain ⟨v, hv, rfl⟩ := Option.map_eq_some_iff.mp hstep
    exact HeapInv.free ⟨howned, hptr, hmsa⟩ hv
  | write i off byte =>
    obtain ⟨v, hv, hstep⟩ := Option.bind_eq_some_iff.mp hstep
    obtain ⟨la, lb, hlive, -, hset⟩ := exists_of_getElem? hv
    split at hstep
    case isFalse => cases hstep
    case isTrue hoff =>
      cases hstep
      refine ⟨?_, hptr, hmsa⟩
      rw [hlive] at howned
      rw [hset]
      exact howned.write hoff byte
  | realloc i size =>
    rw [heapStep] at hstep
    split at hstep
    case isFalse => cases hstep
    case isTrue hsize =>
      obtain ⟨v, hv, hstep⟩ := Option.bind_eq_some_iff.mp hstep
      obtain ⟨⟨q, t⟩, hrealloc, heq⟩ := Option.map_eq_some_iff.mp hstep
      dsimp only at heq
      rcases Nat.eq_zero_or_pos size with rfl | hpos
      · rw [rtRealloc_zero] at hrealloc
        obtain ⟨rfl, rfl⟩ := Prod.mk.inj (Option.some.inj hrealloc)
        rw [if_pos rfl] at heq
        rw [← heq]
        exact HeapInv.free ⟨howned, hptr, hmsa⟩ hv
      · obtain ⟨la, lb, hlive, -, hset⟩ := exists_of_getElem? hv
        rw [hlive] at howned
        obtain ⟨q', t', hrun, hhp, hm, hres⟩ := howned.realloc hfuel hpos hsize
        obtain ⟨rfl, rfl⟩ := Prod.mk.inj (Option.some.inj (hrun.symm.trans hrealloc))
        rw [if_neg (by omega)] at heq
        rcases hres with ⟨hq, rfl⟩ | ⟨hq, hnew⟩
        · rw [if_pos hq] at heq
          rw [← heq]
          exact ⟨by rw [hlive]; exact howned, hptr, hmsa⟩
        · rw [if_neg hq] at heq
          rw [← heq]
          exact ⟨by rw [hset]; exact hnew, hhp.trans hptr, hm.trans hmsa⟩

/-- What an initialised heap is. -/
theorem rtSystemHeapInit_holds {ram : Buf} {beginAddr endAddr : Nat}
    (hinit : rtSystemHeapInit ram beginAddr endAddr = some s) (hend : endAddr < 2 ^ 32)
    (hlarge : minSizeAligned ≤ s.memSizeAligned) :
    Holds s [⟨s.memSizeAligned + sizeofStructMem, false⟩] := by
  have hstruct : sizeofStructMem = 12 := rfl
  have hmin : minSizeAligned = 12 := rfl
  rw [rtSystemHeapInit] at hinit
  dsimp only at hinit
  split at hinit
  case isFalse => cases hinit
  case isTrue hroom =>
    obtain ⟨n, hn⟩ : ∃ n, n = rtAlignDown endAddr - rtAlign beginAddr - 2 * sizeofStructMem :=
      ⟨_, rfl⟩
    have hdown : rtAlignDown endAddr ≤ endAddr := Nat.div_mul_le_self _ 4
    have h4 : 4 ∣ n := by
      rw [hn]
      exact Nat.dvd_sub (Nat.dvd_sub (Nat.dvd_mul_left 4 _) (Nat.dvd_mul_left 4 _)) (by decide)
    rw [← hn] at hinit
    cases hinit
    dsimp only at hlarge ⊢
    have hapart : 0 + sizeofStructMem ≤ n + sizeofStructMem ∨
        n + sizeofStructMem + sizeofStructMem ≤ 0 := Or.inl (by omega)
    refine ⟨⟨?_, rfl, by simp, ⟨?_, trivial⟩, trivial, ?_, ?_⟩, hlarge, List.isChain_singleton _,
      rfl, rfl, Nat.le_refl 0, Nat.dvd_mul_left 4 _⟩
    · show n + 24 ≤ 2 ^ 32
      omega
    · dsimp only
      rw [(heapMem_set_of_apart hapart.symm).2.2.2, (heapMem_set_of_apart hapart.symm).2.2.1,
        (heapMem_set_of_apart hapart.symm).2.1, (heapMem_set_of_apart hapart.symm).1,
        heapMem_setUsed, heapMem_setPrev, heapMem_setNext, heapMem_setMagic,
        Nat.mod_eq_of_lt (show n + sizeofStructMem < 2 ^ 32 by omega), Nat.zero_add]
      rfl
    · dsimp only
      rw [heapMem_setPrev, heapMem_setNext, heapMem_setUsed]
      rfl
    · intro b hb
      rw [List.append_nil, List.mem_singleton] at hb
      subst hb
      exact ⟨by dsimp only; omega, Nat.dvd_add h4 (by decide)⟩

/-- Every run keeps `HeapInv`: each call does, and the heap starts with one free block. -/
theorem heapRun_inv {ram : Buf} {beginAddr endAddr : Nat}
    (hinit : rtSystemHeapInit ram beginAddr endAddr = some s) (hend : endAddr < 2 ^ 32)
    (hlarge : minSizeAligned ≤ s.memSizeAligned)
    (hfuel : s.memSizeAligned ≤ fuel) (calls : List HeapCall)
    (hrun : run (heapStep fuel) ⟨s, []⟩ calls = some c) : HeapInv s c := by
  have hholds := rtSystemHeapInit_holds hinit hend hlarge
  refine run_invariant (P := HeapInv s) (fun c a c' hc => heapStep_inv hfuel a hc) calls _ c ?_ hrun
  exact ⟨⟨_, [], hholds, by simp [usedPlaces], .nil⟩, rfl, rfl⟩

end Steps

end HpmSdk.Rtt
