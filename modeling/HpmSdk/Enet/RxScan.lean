import HpmSdk.Enet.RxRing

set_option autoImplicit false

namespace HpmSdk.Enet

open HpmSdk.Foundation

/-! ## The DMA -/

/-- A slot that the DMA owns is the next one only while the ring is not full. -/
theorem RxInv.room {w : RxWorld} (h : RxInv w) (hown : (w.slot w.filled.length).own = true) :
    w.filled.length < w.taken + w.rx.cfg.count := by
  rcases Nat.lt_or_ge w.filled.length (w.taken + w.rx.cfg.count) with hlt | hge
  · exact hlt
  · -- a full ring: the slot is that of the oldest segment
    exfalso
    have hpos := h.count_pos
    have hlen : w.filled.length = w.taken + w.rx.cfg.count := Nat.le_antisymm h.window hge
    have hseg : w.filled[w.taken]? = some w.filled[w.taken] :=
      List.getElem?_eq_getElem (by omega)
    have hcpu := (h.cpu w.taken _ (Nat.le_refl _) hseg).1
    have hsame : w.slot w.filled.length = w.slot w.taken := by
      rw [RxWorld.slot, RxWorld.slot, hlen, Nat.add_mod_right]
    rw [hsame, hcpu] at hown
    exact Bool.noConfusion hown

theorem getElem?_snoc_cases {α : Type} {l : List α} {x y : α} {p : Nat}
    (h : (l ++ [x])[p]? = some y) : (p < l.length ∧ l[p]? = some y) ∨ (p = l.length ∧ y = x) := by
  have hlen := (List.getElem?_eq_some_iff.mp h).1
  rw [List.getElem?_append] at h
  split at h
  · rename_i hp
    exact Or.inl ⟨hp, h⟩
  · rename_i hp
    rw [List.length_append, List.length_singleton] at hlen
    obtain rfl : p = l.length := by omega
    rw [Nat.sub_self] at h
    exact Or.inr ⟨rfl, (Option.some.inj h).symm⟩

/-- Storing a segment keeps the invariant. -/
theorem RxInv.dma_step {w w' : RxWorld} {ls : Bool} {fl : BitVec 14} (h : RxInv w)
    (hstep : w.dma ls fl = some w') : RxInv w' := by
  unfold RxWorld.dma at hstep
  split at hstep
  · rename_i hguard
    obtain ⟨hown, hfl, hopen⟩ := hguard
    have hroom := h.room hown
    cases hstep
    have hscanned := h.scanned
    rw [w.scanned_eq] at hscanned
    have htake : ∀ (n : Nat) (seg : RxSeg), n ≤ w.filled.length →
        (w.filled ++ [seg]).take n = w.filled.take n := fun n seg hn =>
      List.take_append_of_le_length hn
    refine ⟨h.count_pos, h.count_lt, fun i hi => ?_, fun i hi => ?_, h.cur, ?_, ?_, ?_, ?_, ?_,
      h.first, ?_, ?_, ?_, ?_⟩
    · rw [(w.store_links _ i).1]
      exact h.next i hi
    · rw [(w.store_links _ i).2]
      exact h.buffer i hi
    · rw [RxWorld.store_filled, List.length_append]
      exact Nat.le_trans h.scanned (Nat.le_add_right _ _)
    · rw [RxWorld.store_filled, List.length_append]
      exact hroom
    · intro p sg hp hsg
      rcases getElem?_snoc_cases hsg with ⟨hlt, hold⟩ | ⟨rfl, rfl⟩
      · rw [RxWorld.store_taken] at hp
        rw [w.store_slot_of_ne _ (Ring.slot_ne hp (by omega) (by omega) hroom (Nat.ne_of_lt hlt))]
        exact h.cpu p sg hp hold
      · rw [w.store_slot_self]
        exact ⟨rfl, rfl, rfl, rfl⟩
    · intro p hp hpN
      rw [RxWorld.store_filled, List.length_append, List.length_singleton] at hp
      simp only [RxWorld.store_taken, RxWorld.store_cfg] at hpN
      rw [w.store_slot_of_ne _ (Ring.slot_ne (by omega) hpN (by omega) hroom (by omega))]
      exact h.dma p (by omega) hpN
    · simp only [RxWorld.store_scanned, RxWorld.store_info, RxWorld.store_filled,
        htake _ _ h.scanned]
      exact h.open_scanned
    · intro p sg hsg
      rcases getElem?_snoc_cases hsg with ⟨hlt, hold⟩ | ⟨rfl, rfl⟩
      · rw [RxWorld.store_filled, htake _ _ (Nat.le_of_lt hlt)]
        exact h.flags p sg hold
      · rw [RxWorld.store_filled, htake _ _ (Nat.le_refl _), List.take_length]
    · rw [RxWorld.store_filled, openSegs_snoc, RxWorld.store_cfg]
      cases ls with
      | true => exact h.count_pos
      | false => exact hopen rfl
    · intro sg hsg hlast
      rcases List.mem_append.mp hsg with hold | hnew
      · exact h.lens sg hold hlast
      · rw [List.mem_singleton.mp hnew] at hlast ⊢
        exact hfl hlast
    · simp only [RxWorld.store_scanned, RxWorld.store_cfg, RxWorld.store_filled,
        RxWorld.store_reports, htake _ _ h.scanned]
      exact h.reported
  · cases hstep

/-! ## The cursor -/

/-- The state with another cursor and frame information. -/
def EnetRx.scanTo (r : EnetRx) (cur : Nat) (info : EnetRxFrameInfo) : EnetRx :=
  { r with cur := cur, info := info }

namespace RxWorld

/-- The world after a scan step inside a frame. -/
def scanOpen (w : RxWorld) (ls : Option Nat) : RxWorld :=
  { w with
    rx := w.rx.scanTo ((w.scanned + 1) % w.rx.cfg.count)
      ⟨some (w.taken % w.rx.cfg.count), ls, w.rx.info.segCount + 1⟩ }

@[simp] theorem scanOpen_scanned (w : RxWorld) (ls : Option Nat) :
    (w.scanOpen ls).scanned = w.scanned + 1 := (Nat.add_assoc _ _ _).symm

end RxWorld

/-- The cursor is at the slot of the first segment that was not scanned. -/
theorem RxInv.curDesc_eq {w : RxWorld} (h : RxInv w) : w.rx.curDesc = w.slot w.scanned := by
  rw [EnetRx.curDesc, h.cur]
  rfl

/-- Following a link goes one slot on. -/
theorem RxInv.next_slot {w : RxWorld} (h : RxInv w) (p : Nat) :
    (w.slot p).nextDesc = (p + 1) % w.rx.cfg.count := by
  rw [RxWorld.slot, h.next _ (Nat.mod_lt p h.count_pos), Ring.succ_slot]

/-- Between frames the cursor is on the first segment not taken. -/
theorem RxInv.cur_first {w : RxWorld} (h : RxInv w) (h0 : w.rx.info.segCount = 0) :
    w.rx.cur = w.taken % w.rx.cfg.count := by
  rw [h.cur, w.scanned_eq, h0, Nat.add_zero]

/-- Behind the last segment the ring belongs to the DMA. -/
theorem RxInv.own_end {w : RxWorld} (h : RxInv w) (hend : w.filled[w.scanned]? = none) :
    w.rx.curDesc.own = true := by
  have hlen := List.getElem?_eq_none_iff.mp hend
  have hshort := h.short
  have hscanned := h.scanned
  have heq : w.scanned = w.filled.length := Nat.le_antisymm hscanned hlen
  have hopen := h.open_scanned
  rw [heq, List.take_length] at hopen
  rw [w.scanned_eq] at heq
  rw [h.curDesc_eq]
  exact h.dma _ hlen (by omega)

/-- A frame never has more segments than there are descriptors, as each of them is in its own one.
-/
theorem RxInv.segCount_lt {w : RxWorld} (h : RxInv w) {seg : RxSeg}
    (hseg : w.filled[w.scanned]? = some seg) : w.rx.info.segCount < w.rx.cfg.count := by
  have hlt := (List.getElem?_eq_some_iff.mp hseg).1
  have hwindow := h.window
  rw [w.scanned_eq] at hlt
  omega

/-- The descriptor under the cursor holds the next segment. -/
theorem RxInv.at_cursor {w : RxWorld} (h : RxInv w) {seg : RxSeg}
    (hseg : w.filled[w.scanned]? = some seg) :
    w.rx.curDesc.own = false ∧ w.rx.curDesc.fs = decide (w.rx.info.segCount = 0) ∧
      w.rx.curDesc.ls = seg.ls ∧ w.rx.curDesc.fl = seg.fl ∧
      w.rx.curDesc.nextDesc = (w.scanned + 1) % w.rx.cfg.count := by
  obtain ⟨hown, hfs, hls, hfl⟩ := h.cpu _ seg (Nat.le_add_right _ _) hseg
  have hflags := h.flags _ seg hseg
  rw [h.open_scanned] at hflags
  rw [h.curDesc_eq]
  exact ⟨hown, hfs.trans hflags, hls, hfl, h.next_slot _⟩

/-- The length that the scan takes from the last segment is that of the frame without its CRC. -/
theorem RxInv.frameLength_eq {w : RxWorld} (h : RxInv w) {seg : RxSeg}
    (hseg : w.filled[w.scanned]? = some seg) (hls : seg.ls = true) :
    w.rx.curDesc.frameLength = seg.fl.toNat - 4 := by
  have hge := h.lens seg (List.mem_of_getElem? hseg) hls
  have hlt : seg.fl.toNat < 2 ^ 14 := seg.fl.isLt
  rw [EnetRxDesc.frameLength, (h.at_cursor hseg).2.2.2.1,
    show seg.fl.toNat + 2 ^ 32 - 4 = seg.fl.toNat - 4 + 2 ^ 32 by omega, Nat.add_mod_right,
    Nat.mod_eq_of_lt (by omega)]

/-! ## One descriptor -/

section OneDescriptor

variable {w : RxWorld} {seg : RxSeg}

/-- A pass over a segment that is not the last of its frame. -/
theorem RxInv.pass_open (h : RxInv w) (hseg : w.filled[w.scanned]? = some seg)
    (hls : seg.ls = false) :
    enetScanPass w.rx = .go (w.rx.scanTo ((w.scanned + 1) % w.rx.cfg.count)
      ⟨some (w.taken % w.rx.cfg.count), w.rx.info.lsRxDesc, w.rx.info.segCount + 1⟩) := by
  obtain ⟨-, hfs, hls', -, hnext⟩ := h.at_cursor hseg
  have hcount := h.segCount_lt hseg
  have hlt := h.count_lt
  unfold enetScanPass
  simp only [hls', hls, hnext]
  rcases Nat.eq_zero_or_pos w.rx.info.segCount with h0 | hpos
  · -- the first segment
    rw [if_pos ⟨by rw [hfs, h0]; rfl, trivial⟩, h0, h.cur_first h0]
    rfl
  · have hfs' : w.rx.curDesc.fs = false := by
      rw [hfs]
      exact decide_eq_false (by omega)
    rw [if_neg (by rw [hfs']; simp), if_pos ⟨trivial, hfs'⟩, ← h.first hpos,
      Nat.mod_eq_of_lt (by omega : w.rx.info.segCount + 1 < 2 ^ 32)]
    rfl

/-- A pass over the last segment of a frame. -/
theorem RxInv.pass_last (h : RxInv w) (hseg : w.filled[w.scanned]? = some seg)
    (hls : seg.ls = true) :
    enetScanPass w.rx =
      .found (rxReport w.rx.cfg w.taken (w.rx.info.segCount + 1) seg.fl).frame
        (w.rx.scanTo ((w.scanned + 1) % w.rx.cfg.count)
          ⟨some (w.taken % w.rx.cfg.count), some w.rx.cur, w.rx.info.segCount + 1⟩) := by
  obtain ⟨-, -, hls', -, hnext⟩ := h.at_cursor hseg
  have hcount := h.segCount_lt hseg
  have hlt := h.count_lt
  have hbuf := h.buffer _ (Nat.mod_lt w.taken h.count_pos)
  unfold enetScanPass
  simp only [hls', hls, hnext, h.frameLength_eq hseg hls]
  rw [if_neg (by simp), if_neg (by simp),
    Nat.mod_eq_of_lt (by omega : w.rx.info.segCount + 1 < 2 ^ 32)]
  rcases Nat.eq_zero_or_pos w.rx.info.segCount with h0 | hpos
  · -- a frame of one segment
    have hcur := h.cur_first h0
    rw [if_neg (by omega), if_pos (by omega)]
    simp only [EnetRx.curDesc, hcur, hbuf]
    rfl
  · rw [if_pos (by omega), if_neg (by omega), h.first hpos]
    simp only [hbuf]
    rfl

/-- Polling a segment that is not the last of its frame. -/
theorem RxInv.check_open (h : RxInv w) (hseg : w.filled[w.scanned]? = some seg)
    (hls : seg.ls = false) :
    ∃ ls, enetCheckReceivedFrame w.rx = (0, w.rx.scanTo ((w.scanned + 1) % w.rx.cfg.count)
      ⟨some (w.taken % w.rx.cfg.count), ls, w.rx.info.segCount + 1⟩) := by
  obtain ⟨hown, hfs, hls', -, hnext⟩ := h.at_cursor hseg
  have hcount := h.segCount_lt hseg
  have hlt := h.count_lt
  unfold enetCheckReceivedFrame
  simp only [hls', hls, hnext, hown]
  rw [if_neg (by simp)]
  rcases Nat.eq_zero_or_pos w.rx.info.segCount with h0 | hpos
  · refine ⟨none, ?_⟩
    rw [if_pos ⟨trivial, by rw [hfs, h0]; rfl, trivial⟩, h0, h.cur_first h0]
    rfl
  · have hfs' : w.rx.curDesc.fs = false := by
      rw [hfs]
      exact decide_eq_false (by omega)
    refine ⟨w.rx.info.lsRxDesc, ?_⟩
    rw [if_neg (by rw [hfs']; simp), if_pos ⟨trivial, hfs', trivial⟩, ← h.first hpos,
      Nat.mod_eq_of_lt (by omega : w.rx.info.segCount + 1 < 2 ^ 32)]
    rfl

/-- Polling the last segment of a frame, and getting the frame. -/
theorem RxInv.check_last (h : RxInv w) (hseg : w.filled[w.scanned]? = some seg)
    (hls : seg.ls = true) :
    (enetCheckReceivedFrame w.rx).1 = 1 ∧
      enetGetReceivedFrame (enetCheckReceivedFrame w.rx).2 =
        some ((rxReport w.rx.cfg w.taken (w.rx.info.segCount + 1) seg.fl).frame,
          w.rx.scanTo ((w.scanned + 1) % w.rx.cfg.count)
            ⟨some (w.taken % w.rx.cfg.count), some w.rx.cur, w.rx.info.segCount + 1⟩) := by
  obtain ⟨hown, -, hls', -, hnext⟩ := h.at_cursor hseg
  have hcount := h.segCount_lt hseg
  have hlt := h.count_lt
  have hbuf := h.buffer _ (Nat.mod_lt w.taken h.count_pos)
  have hlen := h.frameLength_eq hseg hls
  have hfirst : (if w.rx.info.segCount + 1 = 1 then some w.rx.cur else w.rx.info.fsRxDesc) =
      some (w.taken % w.rx.cfg.count) := by
    rcases Nat.eq_zero_or_pos w.rx.info.segCount with h0 | hpos
    · rw [if_pos (by omega), h.cur_first h0]
    · rw [if_neg (by omega), h.first hpos]
  have hcheck : enetCheckReceivedFrame w.rx = (1, w.rx.scanTo w.rx.cur
      ⟨some (w.taken % w.rx.cfg.count), some w.rx.cur, w.rx.info.segCount + 1⟩) := by
    unfold enetCheckReceivedFrame
    simp only [hls', hls, hown]
    rw [if_pos ⟨trivial, trivial⟩, Nat.mod_eq_of_lt (by omega : w.rx.info.segCount + 1 < 2 ^ 32),
      hfirst]
    rfl
  rw [hcheck]
  refine ⟨rfl, ?_⟩
  have hcur : (w.rx.scanTo w.rx.cur ⟨some (w.taken % w.rx.cfg.count), some w.rx.cur,
      w.rx.info.segCount + 1⟩).curDesc = w.rx.curDesc := rfl
  simp only [enetGetReceivedFrame, EnetRx.next, hcur, hlen, hnext]
  simp only [EnetRx.scanTo, Option.map_some, hbuf]
  rfl

/-- The invariant after a segment that is not the last of its frame. -/
theorem RxInv.scan_open (h : RxInv w) (hseg : w.filled[w.scanned]? = some seg)
    (hls : seg.ls = false) (ls : Option Nat) : RxInv (w.scanOpen ls) := by
  have hlt := (List.getElem?_eq_some_iff.mp hseg).1
  have htake : w.filled.take (w.taken + (w.rx.info.segCount + 1)) =
      w.filled.take w.scanned ++ [seg] := by
    rw [← Nat.add_assoc, ← w.scanned_eq, List.take_add_one, hseg]
    rfl
  have hopen : openSegs (w.filled.take (w.taken + (w.rx.info.segCount + 1))) =
      w.rx.info.segCount + 1 := by
    rw [htake, openSegs_snoc, h.open_scanned, hls]
    rfl
  refine ⟨h.count_pos, h.count_lt, h.next, h.buffer, ?_, ?_, h.window, h.cpu, h.dma, hopen,
    fun _ => rfl, h.flags, h.short, h.lens, ?_⟩
  · exact congrArg (· % w.rx.cfg.count) (Nat.add_assoc _ _ _)
  · change w.scanned + 1 ≤ w.filled.length
    exact hlt
  · change completedFrames w.rx.cfg 0 0
      (w.filled.take (w.taken + (w.rx.info.segCount + 1))) = w.reports
    have hnone : ∀ pos n, completedFrames w.rx.cfg pos n [seg] = [] := by
      intro pos n
      simp [completedFrames, hls]
    rw [htake, completedFrames_append, h.reported, hnone, List.append_nil]

end OneDescriptor

/-! ## Giving descriptors back -/

section Release

@[simp] theorem enetReleaseRxDescs_cur (n : Nat) : ∀ (r : EnetRx) (i : Nat),
    (enetReleaseRxDescs r i n).cur = r.cur := by
  induction n with
  | zero => exact fun _ _ => rfl
  | succ n ih => exact fun r i => ih _ _

@[simp] theorem enetReleaseRxDescs_cfg (n : Nat) : ∀ (r : EnetRx) (i : Nat),
    (enetReleaseRxDescs r i n).cfg = r.cfg := by
  induction n with
  | zero => exact fun _ _ => rfl
  | succ n ih => exact fun r i => ih _ _

/-- Only own bits change, and only from clear to set. -/
theorem enetReleaseRxDescs_kept (n : Nat) : ∀ (r : EnetRx) (i j : Nat),
    (enetReleaseRxDescs r i n).tab j = r.tab j ∨
      (enetReleaseRxDescs r i n).tab j = { r.tab j with own := true } := by
  induction n with
  | zero => exact fun _ _ _ => Or.inl rfl
  | succ n ih =>
    intro r i j
    have hset : (r.setDesc i { r.tab i with own := true }).tab j = r.tab j ∨
        (r.setDesc i { r.tab i with own := true }).tab j = { r.tab j with own := true } := by
      by_cases hj : j = i
      · subst hj
        exact Or.inr (if_pos rfl)
      · exact Or.inl (if_neg hj)
    rw [enetReleaseRxDescs]
    rcases ih (r.setDesc i { r.tab i with own := true }) _ j with hrest | hrest
    · rw [hrest]
      exact hset
    · rw [hrest]
      rcases hset with hset | hset <;> rw [hset] <;> exact Or.inr rfl

/-- Giving descriptors back changes neither their links nor their buffers. -/
theorem enetReleaseRxDescs_links (n : Nat) (r : EnetRx) (i j : Nat) :
    ((enetReleaseRxDescs r i n).tab j).nextDesc = (r.tab j).nextDesc ∧
      ((enetReleaseRxDescs r i n).tab j).buffer1 = (r.tab j).buffer1 := by
  rcases enetReleaseRxDescs_kept n r i j with h | h <;> rw [h] <;> exact ⟨rfl, rfl⟩

/-- A set own bit stays set. -/
theorem enetReleaseRxDescs_own_mono (n : Nat) (r : EnetRx) (i j : Nat)
    (hown : (r.tab j).own = true) : ((enetReleaseRxDescs r i n).tab j).own = true := by
  rcases enetReleaseRxDescs_kept n r i j with h | h
  · rwa [h]
  · rw [h]

/-- The loop walks the links and sets own bits. -/
theorem enetReleaseRxDescs_tab (n : Nat) : ∀ (r : EnetRx) (i k : Nat),
    (enetReleaseRxDescs r i n).tab =
      (Ring.walk EnetRxDesc.nextDesc (fun _ d => { d with own := true }) n k r.tab i).1 := by
  induction n with
  | zero => exact fun _ _ _ => rfl
  | succ n ih => exact fun r i k => ih _ _ (k + 1)

/-- On a ring the descriptors of `n` positions from `p` on go to the DMA, and no
other descriptor changes. -/
theorem enetReleaseRxDescs_spec {N n : Nat} {r : EnetRx}
    (hlinked : Ring.Linked EnetRxDesc.nextDesc N r.tab) (hN : 0 < N) (hn : n ≤ N) (p : Nat) :
    (∀ q, p ≤ q → q < p + n →
      (enetReleaseRxDescs r (p % N) n).tab (q % N) = { r.tab (q % N) with own := true }) ∧
    ∀ i, (∀ q, p ≤ q → q < p + n → q % N ≠ i) →
      (enetReleaseRxDescs r (p % N) n).tab i = r.tab i := by
  obtain ⟨-, hin, hout⟩ := Ring.walk_spec (f := fun _ d => { d with own := true })
    (fun _ _ => rfl) n 0 r.tab p hlinked hN hn
  rw [enetReleaseRxDescs_tab n r (p % N) 0]
  refine ⟨fun q hq hqn => ?_, fun i hi => hout i fun j hj => hi (p + j) (by omega) (by omega)⟩
  obtain ⟨j, rfl⟩ := Nat.exists_eq_add_of_le hq
  exact hin j (by omega)

end Release

section TakeLast

variable {w : RxWorld} {seg : RxSeg} {ls : Option Nat}

/-- The state of a scan behind the last segment of a frame. -/
def RxWorld.scanLast (w : RxWorld) (ls : Option Nat) : EnetRx :=
  w.rx.scanTo ((w.scanned + 1) % w.rx.cfg.count)
    ⟨some (w.taken % w.rx.cfg.count), ls, w.rx.info.segCount + 1⟩

/-- The world behind a scan that finds the frame that `seg` completes. -/
def RxWorld.takeLast (w : RxWorld) (seg : RxSeg) (ls : Option Nat) : RxWorld :=
  w.take (rxReport w.rx.cfg w.taken (w.rx.info.segCount + 1) seg.fl).frame (w.scanLast ls)

theorem takeLast_taken : (w.takeLast seg ls).taken = w.scanned + 1 := (Nat.add_assoc _ _ _).symm

theorem takeLast_scanned : (w.takeLast seg ls).scanned = w.scanned + 1 := by
  change (w.takeLast seg ls).taken = w.scanned + 1
  exact takeLast_taken

theorem takeLast_cfg : (w.takeLast seg ls).rx.cfg = w.rx.cfg := enetReleaseRxDescs_cfg _ _ _

theorem takeLast_reports : (w.takeLast seg ls).reports =
    w.reports ++ [rxReport w.rx.cfg w.taken (w.rx.info.segCount + 1) seg.fl] := by
  change w.reports ++ [⟨_, _, _⟩] = _
  rw [rxReport, ← Nat.add_assoc, ← w.scanned_eq]
  rfl

/-- The descriptors of the frame go to the DMA, and no other descriptor changes. -/
theorem RxInv.takeLast_tab (h : RxInv w) (hseg : w.filled[w.scanned]? = some seg) :
    (∀ q, w.taken ≤ q → q < w.scanned + 1 →
      ((w.takeLast seg ls).rx.tab (q % w.rx.cfg.count)).own = true) ∧
    ∀ i, (∀ q, w.taken ≤ q → q < w.scanned + 1 → q % w.rx.cfg.count ≠ i) →
      (w.takeLast seg ls).rx.tab i = w.rx.tab i := by
  obtain ⟨hin, hout⟩ := enetReleaseRxDescs_spec (r := w.scanLast ls) h.next h.count_pos
    (h.segCount_lt hseg) w.taken
  refine ⟨fun q hq hqn => ?_, fun i hi => hout i fun q hq hqn => hi q hq ?_⟩
  · rw [w.scanned_eq] at hqn
    exact congrArg EnetRxDesc.own (hin q hq (by omega))
  · rw [w.scanned_eq]
    omega

/-- Segments behind the frame are in the descriptors that they were in. -/
theorem RxInv.takeLast_slot (h : RxInv w) (hseg : w.filled[w.scanned]? = some seg) {p : Nat}
    {sg : RxSeg} (hp : w.scanned + 1 ≤ p) (hsg : w.filled[p]? = some sg) :
    (w.takeLast seg ls).slot p = w.slot p := by
  have hlt := (List.getElem?_eq_some_iff.mp hsg).1
  have hwindow := h.window
  rw [w.scanned_eq] at hp
  rw [RxWorld.slot, takeLast_cfg, (h.takeLast_tab hseg).2, RxWorld.slot]
  intro q hq hqn
  rw [w.scanned_eq] at hqn
  exact Ring.slot_ne hq (by omega) (by omega : w.taken ≤ p) (by omega) (by omega)

/-- The DMA has one round of descriptors from the end of the frame on, less the segments there. -/
theorem RxInv.takeLast_dma (h : RxInv w) (hseg : w.filled[w.scanned]? = some seg) {p : Nat}
    (hp : w.filled.length ≤ p) (hpN : p < w.scanned + 1 + w.rx.cfg.count) :
    ((w.takeLast seg ls).slot p).own = true := by
  have hlt := (List.getElem?_eq_some_iff.mp hseg).1
  have hcount := h.segCount_lt hseg
  rw [w.scanned_eq] at hlt hpN
  rw [RxWorld.slot, takeLast_cfg]
  rcases Nat.lt_or_ge p (w.taken + w.rx.cfg.count) with hold | hnew
  · exact enetReleaseRxDescs_own_mono _ _ _ _ (h.dma p hp hold)
  · -- a position one round behind a released one
    have hq : p % w.rx.cfg.count = (p - w.rx.cfg.count) % w.rx.cfg.count := by
      rw [← Nat.add_mod_right (p - w.rx.cfg.count), Nat.sub_add_cancel (by omega)]
    rw [hq]
    refine (h.takeLast_tab hseg).1 _ (by omega) ?_
    rw [w.scanned_eq]
    omega

theorem take_scanned_succ (hseg : w.filled[w.scanned]? = some seg) :
    w.filled.take (w.scanned + 1) = w.filled.take w.scanned ++ [seg] := by
  rw [List.take_add_one, hseg]
  rfl

/-- The frame is the next one that the segments complete. -/
theorem RxInv.takeLast_reported (h : RxInv w) (hseg : w.filled[w.scanned]? = some seg)
    (hls : seg.ls = true) :
    completedFrames w.rx.cfg 0 0 (w.filled.take (w.scanned + 1)) = (w.takeLast seg ls).reports := by
  have hone : completedFrames w.rx.cfg (0 + 0 + (w.filled.take w.scanned).length -
      w.rx.info.segCount) w.rx.info.segCount [seg] =
      [rxReport w.rx.cfg w.taken (w.rx.info.segCount + 1) seg.fl] := by
    rw [List.length_take, Nat.min_eq_left h.scanned, Nat.zero_add, w.scanned_eq,
      Nat.add_sub_cancel]
    simp [completedFrames, hls]
  have hopen : openFrom 0 (w.filled.take w.scanned) = w.rx.info.segCount := h.open_scanned
  rw [takeLast_reports, take_scanned_succ hseg, completedFrames_append, h.reported, hopen, hone]

/-- The frame that the segment under the cursor completes is taken. -/
theorem RxInv.take_last (h : RxInv w) (hseg : w.filled[w.scanned]? = some seg)
    (hls : seg.ls = true) (ls : Option Nat) : RxInv (w.takeLast seg ls) := by
  have hlinks := enetReleaseRxDescs_links (w.rx.info.segCount + 1) (w.scanLast ls)
    (w.taken % w.rx.cfg.count)
  have hfilled : (w.takeLast seg ls).filled = w.filled := rfl
  have hlt := (List.getElem?_eq_some_iff.mp hseg).1
  have hwindow := h.window
  constructor
  case count_pos =>
    rw [takeLast_cfg]
    exact h.count_pos
  case count_lt =>
    rw [takeLast_cfg]
    exact h.count_lt
  case next =>
    intro i hi
    rw [takeLast_cfg] at hi ⊢
    exact (hlinks i).1.trans (h.next i hi)
  case buffer =>
    intro i hi
    rw [takeLast_cfg] at hi ⊢
    exact (hlinks i).2.trans (h.buffer i hi)
  case cur =>
    rw [takeLast_scanned, takeLast_cfg]
    exact enetReleaseRxDescs_cur _ _ _
  case scanned =>
    rw [takeLast_scanned]
    exact hlt
  case window =>
    rw [hfilled, takeLast_taken, takeLast_cfg, w.scanned_eq]
    omega
  case cpu =>
    intro p sg hp hsg
    rw [takeLast_taken] at hp
    rw [h.takeLast_slot hseg hp hsg]
    exact h.cpu p sg (by rw [w.scanned_eq] at hp; omega) hsg
  case dma =>
    intro p hp hpN
    rw [takeLast_taken, takeLast_cfg] at hpN
    exact h.takeLast_dma hseg hp hpN
  case open_scanned =>
    rw [hfilled, takeLast_scanned, take_scanned_succ hseg, openSegs_snoc, hls]
    rfl
  case first =>
    intro hpos
    exact absurd hpos (Nat.lt_irrefl 0)
  case flags => exact h.flags
  case short =>
    rw [takeLast_cfg]
    exact h.short
  case lens => exact h.lens
  case reported =>
    rw [takeLast_cfg, hfilled, takeLast_scanned]
    exact h.takeLast_reported hseg hls

end TakeLast

/-! ## Whole scans -/

namespace RxWorld

/-- The state of a scan that stops behind the last segment. -/
def scanEnd (w : RxWorld) (ls : Option Nat) : EnetRx :=
  w.rx.scanTo (w.filled.length % w.rx.cfg.count)
    ⟨if w.filled.length = w.taken then w.rx.info.fsRxDesc else some (w.taken % w.rx.cfg.count), ls,
      w.filled.length - w.taken⟩

/-- The state of a scan that finds a frame. -/
def scanFound (w : RxWorld) (f : RxReport) (ls : Option Nat) : EnetRx :=
  w.rx.scanTo f.cur ⟨f.frame.rxDesc, ls, f.segCount⟩

/-- What a scan comes to: the oldest completed frame, or the zero frame when
none is complete. -/
def ScanOutcome (w : RxWorld) (ls : Option Nat) (frame : EnetFrame) (r : EnetRx) : Prop :=
  match w.pending with
  | [] => frame = EnetFrame.zero ∧ r = w.scanEnd ls
  | f :: _ => frame = f.frame ∧ r = w.scanFound f ls

/-- What a scan comes to does not depend on where in a frame it starts. -/
theorem ScanOutcome.of_open {w : RxWorld} {ls ls' : Option Nat} {frame : EnetFrame} {r : EnetRx}
    (hne : w.filled.length ≠ w.taken) (h : (w.scanOpen ls').ScanOutcome ls frame r) :
    w.ScanOutcome ls frame r := by
  have hpending : (w.scanOpen ls').pending = w.pending := rfl
  have hend : (w.scanOpen ls').scanEnd ls = w.scanEnd ls := by
    unfold scanEnd
    rw [if_neg hne]
    exact congrArg (fun fs => EnetRx.scanTo _ _ ⟨fs, _, _⟩) (if_neg hne)
  unfold ScanOutcome at h ⊢
  rw [hpending, hend] at h
  exact h

end RxWorld

section WholeScans

variable {w : RxWorld}

/-- Behind the last segment nothing is pending and a scan changes nothing. -/
theorem RxInv.outcome_end (h : RxInv w) (hend : w.filled[w.scanned]? = none) :
    w.ScanOutcome w.rx.info.lsRxDesc EnetFrame.zero w.rx := by
  have hlen := List.getElem?_eq_none_iff.mp hend
  have heq : w.filled.length = w.scanned := Nat.le_antisymm hlen h.scanned
  have hpending : w.pending = [] := by
    rw [h.pending_eq, List.drop_eq_nil_of_le hlen, completedFrames]
  unfold RxWorld.ScanOutcome
  rw [hpending]
  refine ⟨rfl, ?_⟩
  unfold RxWorld.scanEnd
  have hfirst : (if w.scanned = w.taken then w.rx.info.fsRxDesc
      else some (w.taken % w.rx.cfg.count)) = w.rx.info.fsRxDesc := by
    split
    · rfl
    · rename_i hne
      rw [w.scanned_eq] at hne
      exact (h.first (by omega)).symm
  rw [heq, ← h.cur, hfirst, w.scanned_eq, Nat.add_sub_cancel_left]
  rfl

/-- The last segment of a frame makes it the oldest completed one. -/
theorem RxInv.outcome_last (h : RxInv w) {seg : RxSeg} (hseg : w.filled[w.scanned]? = some seg)
    (hls : seg.ls = true) (ls : Option Nat) :
    w.ScanOutcome ls (rxReport w.rx.cfg w.taken (w.rx.info.segCount + 1) seg.fl).frame
      (w.rx.scanTo ((w.scanned + 1) % w.rx.cfg.count)
        ⟨some (w.taken % w.rx.cfg.count), ls, w.rx.info.segCount + 1⟩) := by
  obtain ⟨hlt, hget⟩ := List.getElem?_eq_some_iff.mp hseg
  have hpending : w.pending = rxReport w.rx.cfg w.taken (w.rx.info.segCount + 1) seg.fl ::
      completedFrames w.rx.cfg (w.taken + (w.rx.info.segCount + 1)) 0
        (w.filled.drop (w.scanned + 1)) := by
    rw [h.pending_eq, List.drop_eq_getElem_cons hlt, hget, completedFrames, if_pos hls]
  unfold RxWorld.ScanOutcome
  rw [hpending]
  refine ⟨rfl, ?_⟩
  unfold RxWorld.scanFound
  rw [w.scanned_eq, Nat.add_assoc]
  rfl

end WholeScans

end HpmSdk.Enet
