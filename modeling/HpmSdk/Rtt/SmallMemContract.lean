import HpmSdk.Rtt.SmallMemRuns

set_option autoImplicit false

/-!
# What the users of the heap can count on

After any sequence of calls on an initialised heap: live blocks do not touch one another or the
links of the heap, and hold what their owners stored; every call returns; an allocation fails
only where no block is large enough; and what was freed becomes one block again.

Each of these is read off the invariant of the runs, `HeapInv`, which the module before has carried
to every state.
-/

namespace HpmSdk.Rtt

open Foundation Foundation.Blocks

/-! ## Isolation -/

/-- The live blocks have their bytes to themselves. -/
structure Isolated (c : HeapUsers) : Prop where
  intact : ∀ v ∈ c.live, c.heap.ram.toList (v.ptr - c.heap.heapPtr) v.data.length = v.data
  inside : ∀ v ∈ c.live, c.heap.heapPtr + sizeofStructMem ≤ v.ptr ∧
    v.ptr + v.data.length ≤ c.heap.heapPtr + c.heap.heapEnd
  aligned : ∀ v ∈ c.live, 4 ∣ v.ptr
  apart : c.live.Pairwise fun v w =>
    v.ptr + v.data.length + sizeofStructMem ≤ w.ptr ∨ w.ptr + w.data.length + sizeofStructMem ≤ v.ptr

section Isolation

variable {s : SmallMem} {c : HeapUsers} {live : List Live} {xs : List (Nat × Nat)}
variable {ram : Buf} {beginAddr endAddr fuel : Nat}

/-- Every live block has a used block of the heap. -/
theorem exists_place (h : List.Forall₂ (Owns s) live xs) {v : Live} (hv : v ∈ live) :
    ∃ x ∈ xs, Owns s v x := by
  induction h with
  | nil => cases hv
  | cons hx _ ih =>
    rcases List.mem_cons.mp hv with rfl | hv
    · exact ⟨_, List.mem_cons_self, hx⟩
    · obtain ⟨x, hmem, hown⟩ := ih hv
      exact ⟨x, List.mem_cons_of_mem _ hmem, hown⟩

/-- What holds of any two used blocks holds of any two live ones. -/
theorem pairwise_owns {R : Nat × Nat → Nat × Nat → Prop} {Q : Live → Live → Prop}
    (hRQ : ∀ {v w x y}, Owns s v x → Owns s w y → R x y → Q v w)
    (h : List.Forall₂ (Owns s) live xs) (hxs : xs.Pairwise R) : live.Pairwise Q := by
  induction h with
  | nil => exact List.Pairwise.nil
  | cons hx hrest ih =>
    obtain ⟨hfirst, htail⟩ := List.pairwise_cons.mp hxs
    refine List.pairwise_cons.mpr ⟨fun w hw => ?_, ih htail⟩
    obtain ⟨y, hy, hown⟩ := exists_place hrest hw
    exact hRQ hx hown (hfirst y hy)

/-- A heap in which every live block has its own used block isolates them. -/
theorem Owned.isolated (h : Owned c.heap c.live) : Isolated c := by
  obtain ⟨bs, xs, hholds, hxs, hall⟩ := h
  have hplace : ∀ v ∈ c.live, ∃ x ∈ usedPlaces 0 bs, Owns c.heap v x := by
    intro v hv
    obtain ⟨x, hx, hown⟩ := exists_place hall hv
    exact ⟨x, hxs.mem_iff.mp hx, hown⟩
  refine ⟨fun v hv => ?_, fun v hv => ?_, fun v hv => ?_, ?_⟩
  · obtain ⟨x, -, hown⟩ := hplace v hv
    rw [show v.ptr - c.heap.heapPtr = x.1 + sizeofStructMem by rw [hown.ptr]; omega]
    exact hown.bytes
  · obtain ⟨x, hx, hown⟩ := hplace v hv
    have hle := (le_of_mem_usedPlaces hx).2
    have htotal := hholds.laid.total
    have hptr := hown.ptr
    have hroom := hown.room
    rw [total_nil] at htotal
    omega
  · obtain ⟨x, hx, hown⟩ := hplace v hv
    obtain ⟨l, r, rfl, hx1⟩ := mem_usedPlaces_iff.mp hx
    have hl : 4 ∣ total l := by
      have hsum : ∀ m : List Block, (∀ b ∈ m, 4 ∣ b.size) → 4 ∣ total m := by
        intro m
        induction m with
        | nil => exact fun _ => Nat.dvd_zero 4
        | cons b m ih =>
          intro hm
          exact Nat.dvd_add (hm b List.mem_cons_self) (ih fun d hd => hm d (List.mem_cons_of_mem b hd))
      refine hsum l fun b hb => (hholds.laid.sizes b ?_).2
      exact List.mem_append_left _ (List.mem_append_left _ hb)
    rw [hown.ptr, hx1, Nat.zero_add]
    exact Nat.dvd_add (Nat.dvd_add hholds.aligned hl) (by decide)
  · have hdisjoint : xs.Pairwise fun x y => x.1 + x.2 ≤ y.1 ∨ y.1 + y.2 ≤ x.1 := by
      refine (hxs.pairwise_iff fun {x y} hxy => hxy.symm).mpr ?_
      exact (pairwise_usedPlaces 0 bs).imp Or.inl
    refine pairwise_owns (fun {v w x y} hv hw hxy => ?_) hall hdisjoint
    have hvptr := hv.ptr
    have hwptr := hw.ptr
    have hvroom := hv.room
    have hwroom := hw.room
    omega

/-- After any calls the live blocks are apart and hold what their owners stored.

Every live block has a used block of the heap to itself (`Owned`), with room for what was asked
for.  The calls move the links and the blocks' states only through the list of blocks, and no call
writes a byte of a used block but those of `rt_calloc` and of the copy in `rt_realloc`, into the
block that it gives out.  The sizes that `RT_ALIGN` or the product of `rt_calloc` wraps are
refused by `heapStep`: they get less than was asked for. -/
theorem heap_isolated (hinit : rtSystemHeapInit ram beginAddr endAddr = some s)
    (hend : endAddr < 2 ^ 32) (hlarge : minSizeAligned ≤ s.memSizeAligned)
    (hfuel : s.memSizeAligned ≤ fuel) (calls : List HeapCall)
    (hrun : run (heapStep fuel) ⟨s, []⟩ calls = some c) : Isolated c :=
  (heapRun_inv hinit hend hlarge hfuel calls hrun).owned.isolated

end Isolation

/-- A heap of 96 bytes for user data, and calls that split, resize, move and join blocks. -/
def demoInit : Option SmallMem := rtSystemHeapInit (fun _ => 0xaa) 0x1001 0x107f

def demoCalls : List HeapCall :=
  [.malloc 10, .malloc 5, .write 0 9 7, .realloc 0 30, .write 1 4 3, .free 1, .calloc 2 6]

theorem heap_isolated_demo : ∃ s c, demoInit = some s ∧
    run (heapStep 128) ⟨s, []⟩ demoCalls = some c ∧ Isolated c := by
  have hinit : demoInit = some (demoInit.get (by decide)) := by simp
  have hrun := Option.some_get (x := run (heapStep 128) ⟨demoInit.get (by decide), []⟩ demoCalls)
    (by decide +kernel)
  refine ⟨_, _, hinit, hrun.symm, ?_⟩
  exact heap_isolated hinit (by decide) (by decide) (by decide) demoCalls hrun.symm

/-! ## Every call returns -/

/-- What a user must keep to. -/
def HeapCall.Ok (live : List Live) : HeapCall → Prop
  | .malloc size => size + 3 < 2 ^ 32
  | .calloc count size => count * size + 3 < 2 ^ 32
  | .realloc i size => i < live.length ∧ size + 3 < 2 ^ 32
  | .free i => i < live.length
  | .write i off _ => ∃ v, live[i]? = some v ∧ off < v.data.length

section Contract

variable {s : SmallMem} {c : HeapUsers} {ram : Buf} {beginAddr endAddr fuel : Nat}

/-- A search over a list of blocks ends, as each of them is one pass. -/
theorem exists_rtMalloc {bs : List Block} (size : Nat) (h : Holds s bs)
    (hfuel : s.memSizeAligned ≤ fuel) : ∃ p t, rtMalloc fuel s size = some (p, t) := by
  rcases Nat.eq_zero_or_pos size with rfl | hpos
  · exact ⟨rtNull, s, rfl⟩
  · rcases rtMalloc_spec h hfuel hpos with ⟨-, heq⟩ | ⟨_, _, _, _, -, -, -, -, heq, -⟩ <;>
      exact ⟨_, _, heq⟩

/-- The loops of the allocator end, whatever was allocated and freed before, on a heap that can
hold one block.

The search walks the list of blocks from the lowest free one, and each step goes at least one
`struct heap_mem` further, so there are fewer steps than bytes.  A heap below the least size of a
block is left out: the difference that bounds the search wraps there. -/
theorem heap_calls_return (hinit : rtSystemHeapInit ram beginAddr endAddr = some s)
    (hend : endAddr < 2 ^ 32) (hlarge : minSizeAligned ≤ s.memSizeAligned)
    (hfuel : s.memSizeAligned ≤ fuel) (calls : List HeapCall)
    (hrun : run (heapStep fuel) ⟨s, []⟩ calls = some c) (a : HeapCall) :
    (∃ c', heapStep fuel c a = some c') ↔ a.Ok c.live := by
  have hinv := heapRun_inv hinit hend hlarge hfuel calls hrun
  obtain ⟨bs, xs, hholds, -⟩ := hinv.owned
  rw [← hinv.memSizeAligned] at hfuel
  cases a with
  | malloc size =>
    obtain ⟨p, t, hmalloc⟩ := exists_rtMalloc size hholds hfuel
    rw [HeapCall.Ok, heapStep]
    by_cases hsize : size + 3 < 2 ^ 32
    · rw [if_pos hsize, hmalloc]
      exact iff_of_true ⟨_, rfl⟩ hsize
    · rw [if_neg hsize]
      exact iff_of_false (by simp) hsize
  | calloc count size =>
    obtain ⟨p, t, hmalloc⟩ := exists_rtMalloc (count * size % 2 ^ 32) hholds hfuel
    rw [HeapCall.Ok, heapStep, rtCalloc]
    dsimp only
    by_cases hsize : count * size + 3 < 2 ^ 32
    · rw [if_pos hsize, hmalloc]
      exact iff_of_true ⟨_, rfl⟩ hsize
    · rw [if_neg hsize]
      exact iff_of_false (by simp) hsize
  | free i =>
    rw [HeapCall.Ok, heapStep]
    simp only [Option.map_eq_some_iff]
    constructor
    · rintro ⟨-, v, hv, -⟩
      exact (List.getElem?_eq_some_iff.mp hv).1
    · intro hi
      exact ⟨_, c.live[i], List.getElem?_eq_getElem hi, rfl⟩
  | write i off byte =>
    rw [HeapCall.Ok, heapStep]
    simp only [Option.bind_eq_some_iff]
    constructor
    · rintro ⟨c', v, hv, hstep⟩
      split at hstep
      case isTrue hoff => exact ⟨v, hv, hoff⟩
      case isFalse => cases hstep
    · rintro ⟨v, hv, hoff⟩
      exact ⟨_, v, hv, if_pos hoff⟩
  | realloc i size =>
    rw [HeapCall.Ok, heapStep]
    by_cases hsize : size + 3 < 2 ^ 32
    · rw [if_pos hsize]
      simp only [Option.bind_eq_some_iff, Option.map_eq_some_iff]
      constructor
      · rintro ⟨-, v, hv, -⟩
        exact ⟨(List.getElem?_eq_some_iff.mp hv).1, hsize⟩
      · rintro ⟨hi, -⟩
        obtain ⟨la, lb, hlive, -⟩ := exists_of_getElem? (List.getElem?_eq_getElem hi)
        obtain ⟨q, t, hrealloc⟩ : ∃ q t, rtRealloc fuel c.heap c.live[i].ptr size = some (q, t) := by
          rcases Nat.eq_zero_or_pos size with rfl | hpos
          · exact ⟨rtNull, _, rtRealloc_zero⟩
          · have howned := hinv.owned
            rw [hlive] at howned
            obtain ⟨q, t, hrun, -⟩ := howned.realloc hfuel hpos hsize
            exact ⟨q, t, hrun⟩
        exact ⟨_, c.live[i], List.getElem?_eq_getElem hi, _, hrealloc, rfl⟩
    · rw [if_neg hsize]
      exact iff_of_false (by simp) fun h => hsize h.2

theorem heap_calls_return_demo : ∃ s c, demoInit = some s ∧
    run (heapStep 128) ⟨s, []⟩ demoCalls = some c ∧
    ((∃ c', heapStep 128 c (.realloc 0 60) = some c') ↔ 0 < c.live.length ∧ 60 + 3 < 2 ^ 32) := by
  have hinit : demoInit = some (demoInit.get (by decide)) := by simp
  have hrun := Option.some_get (x := run (heapStep 128) ⟨demoInit.get (by decide), []⟩ demoCalls)
    (by decide +kernel)
  refine ⟨_, _, hinit, hrun.symm, ?_⟩
  exact heap_calls_return hinit (by decide) (by decide) (by decide) demoCalls hrun.symm
    (.realloc 0 60)

/-! ## When an allocation fails -/

/-- An allocation gives the lowest free block that is large enough, and `RT_NULL` where there is
none; a last block that would be filled to the end is not taken.

The search starts at `lfree` and not at the first block.  That is the lowest free block in every
reachable state, so everything in front of it is used and nothing is missed.  The loop ends in
front of the place from which a block of the size would reach the end of the heap exactly, and
this is the exception. -/
theorem rtMalloc_first_fit (hinit : rtSystemHeapInit ram beginAddr endAddr = some s)
    (hend : endAddr < 2 ^ 32) (hlarge : minSizeAligned ≤ s.memSizeAligned)
    (hfuel : s.memSizeAligned ≤ fuel) (calls : List HeapCall)
    (hrun : run (heapStep fuel) ⟨s, []⟩ calls = some c) :
    ∃ bs, Laid c.heap bs ∧ ∀ size, 0 < size →
      ((∃ t, rtMalloc fuel c.heap size = some (rtNull, t)) ↔ ¬ Available (requestSize size) bs) ∧
      ∀ p t, rtMalloc fuel c.heap size = some (p, t) → p ≠ rtNull →
        ∃ l n r, bs = l ++ ⟨n, false⟩ :: r ∧ p = c.heap.heapPtr + total l + sizeofStructMem ∧
          requestSize size + sizeofStructMem ≤ n ∧
          ∀ b ∈ l, b.used = true ∨ b.size < requestSize size + sizeofStructMem := by
  obtain ⟨⟨bs, xs, hholds, -⟩, -, hmsa⟩ := heapRun_inv hinit hend hlarge hfuel calls hrun
  rw [← hmsa] at hfuel
  have hstruct : sizeofStructMem = 12 := rfl
  have hnull : rtNull = 0 := rfl
  refine ⟨bs, hholds.laid, fun size hpos => ?_⟩
  rcases rtMalloc_spec hholds hfuel hpos with
    ⟨hnone, heq⟩ | ⟨l, n, r, t, hbs, hn, hav, hfirst, heq, -, -⟩
  · rw [heq]
    refine ⟨iff_of_true ⟨_, rfl⟩ hnone, fun p t hp hne => ?_⟩
    cases hp
    exact absurd rfl hne
  · rw [heq]
    refine ⟨iff_of_false ?_ (not_not.mpr hav), fun p u hp _ => ?_⟩
    · rintro ⟨u, hu⟩
      have hp := (Prod.mk.inj (Option.some.inj hu)).1
      omega
    · cases hp
      exact ⟨l, n, r, hbs, rfl, hn, hfirst⟩

theorem rtMalloc_first_fit_demo : ∃ s c, demoInit = some s ∧
    run (heapStep 128) ⟨s, []⟩ demoCalls = some c ∧ ∃ bs, Laid c.heap bs ∧
      ((∃ t, rtMalloc 128 c.heap 40 = some (rtNull, t)) ↔ ¬ Available (requestSize 40) bs) := by
  have hinit : demoInit = some (demoInit.get (by decide)) := by simp
  have hrun := Option.some_get (x := run (heapStep 128) ⟨demoInit.get (by decide), []⟩ demoCalls)
    (by decide +kernel)
  obtain ⟨bs, hlaid, hall⟩ :=
    rtMalloc_first_fit hinit (by decide) (by decide) (by decide) demoCalls hrun.symm
  exact ⟨_, _, hinit, hrun.symm, bs, hlaid, (hall 40 (by decide)).1⟩

/-! ## What is used, and what comes back -/

/-- A heap without used blocks and without free neighbours is one block. -/
theorem total_of_free {bs : List Block} (hfree : ∀ b ∈ bs, b.used = false) (hspaced : Spaced bs) :
    bs.length ≤ 1 := by
  match bs with
  | [] => exact Nat.zero_le 1
  | [_] => exact Nat.le_refl 1
  | b :: c :: bs =>
    have hpair := (spaced_cons.mp hspaced).1 c rfl
    rw [hfree b (by simp), hfree c (by simp)] at hpair
    simp at hpair

/-- `used_mem` is the size of the used blocks, one for each live block, and at most `max_mem`.
Two free blocks are never neighbours; when everything was freed the heap is one free block.

An allocation takes one free block and leaves at most one, in its place.  A release joins its
block with a free neighbour on either side, so that none is left beside it.  Once no block is
used, a list without two free neighbours is a list of one. -/
theorem heap_accounts (hinit : rtSystemHeapInit ram beginAddr endAddr = some s)
    (hend : endAddr < 2 ^ 32) (hlarge : minSizeAligned ≤ s.memSizeAligned)
    (hfuel : s.memSizeAligned ≤ fuel) (calls : List HeapCall)
    (hrun : run (heapStep fuel) ⟨s, []⟩ calls = some c) :
    ∃ bs, Laid c.heap bs ∧ Spaced bs ∧ c.heap.lfree = firstFree bs ∧
      c.heap.usedMem = usedTotal bs ∧ c.heap.usedMem ≤ c.heap.maxMem ∧
      (usedPlaces 0 bs).length = c.live.length ∧
      (c.live = [] → bs = [⟨s.memSizeAligned + sizeofStructMem, false⟩] ∧ c.heap.usedMem = 0 ∧
        c.heap.lfree = 0) := by
  obtain ⟨⟨bs, xs, hholds, hxs, hall⟩, -, hmsa⟩ := heapRun_inv hinit hend hlarge hfuel calls hrun
  refine ⟨bs, hholds.laid, hholds.spaced, hholds.lfree, hholds.usedMem, hholds.maxMem, ?_, ?_⟩
  · rw [← hxs.length_eq, hall.length_eq]
  · intro hlive
    rw [hlive] at hall
    cases hall
    have hnone : usedPlaces 0 bs = [] := List.Perm.nil_eq hxs |>.symm
    have hfree : ∀ b ∈ bs, b.used = false := by
      intro b hb
      obtain ⟨l, r, rfl⟩ := List.append_of_mem hb
      obtain ⟨n, u⟩ := b
      cases u with
      | false => rfl
      | true =>
        have hmem : (0 + total l, n) ∈ usedPlaces 0 (l ++ ⟨n, true⟩ :: r) :=
          mem_usedPlaces_iff.mpr ⟨l, r, rfl, rfl⟩
        rw [hnone] at hmem
        cases hmem
    have htotal := hholds.laid.total
    rw [total_nil, Nat.add_zero, hholds.laid.heapEnd, hmsa] at htotal
    have hlength := total_of_free hfree hholds.spaced
    obtain ⟨b, rfl⟩ : ∃ b, bs = [b] := by
      rw [← List.length_eq_one_iff]
      have hne : bs ≠ [] := by
        rintro rfl
        rw [total_nil] at htotal
        have hstruct : sizeofStructMem = 12 := rfl
        omega
      have hpos := List.length_pos_iff.mpr hne
      omega
    have hb : b = ⟨s.memSizeAligned + sizeofStructMem, false⟩ := by
      obtain ⟨n, u⟩ := b
      have hu : u = false := hfree ⟨n, u⟩ (List.mem_singleton.mpr rfl)
      rw [total_cons, total_nil, Nat.add_zero] at htotal
      rw [hu, ← htotal]
    subst hb
    exact ⟨rfl, hholds.usedMem, hholds.lfree⟩

/-- Three blocks, freed in another order than they were given out. -/
def demoFrees : List HeapCall := [.malloc 10, .malloc 20, .malloc 5, .free 1, .free 0, .free 0]

theorem heap_accounts_demo : ∃ s c, demoInit = some s ∧
    run (heapStep 128) ⟨s, []⟩ demoFrees = some c ∧ c.live = [] ∧ c.heap.maxMem = 80 ∧
      c.heap.usedMem = 0 ∧ c.heap.lfree = 0 := by
  have hinit : demoInit = some (demoInit.get (by decide)) := by simp
  have hrun := Option.some_get (x := run (heapStep 128) ⟨demoInit.get (by decide), []⟩ demoFrees)
    (by decide +kernel)
  obtain ⟨bs, -, -, -, -, -, -, hwhole⟩ :=
    heap_accounts hinit (by decide) (by decide) (by decide) demoFrees hrun.symm
  have hlive : ((run (heapStep 128) ⟨demoInit.get (by decide), []⟩ demoFrees).get
      (by decide +kernel)).live = [] := by decide +kernel
  exact ⟨_, _, hinit, hrun.symm, hlive, by decide +kernel, (hwhole hlive).2⟩

end Contract

end HpmSdk.Rtt
