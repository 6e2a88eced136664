import HpmSdk.Enet.EthRxFrames

set_option autoImplicit false

/-!
# ENET: what is delivered is what was stored

The invariant of the ring is carried over to the bytes: the buffers of the segments that are not
taken hold the bytes of the frames, so the oldest frame can be copied out of them.

`EthRxInv` is kept by the DMA, which stores behind everything that is pending, and by every call
that delivers its frame; the run follows by the rule for runs.
-/

namespace HpmSdk.Enet

open HpmSdk.Foundation

/-! ## Reports on stored frames -/

/-- The reports on frames given by their bytes, the first of which starts at position `pos`. -/
def ethRxReports (cfg : EnetBuffConfig) : Nat → List (List (List UInt8)) → List RxReport
  | _, [] => []
  | pos, segs :: rest =>
    rxReport cfg pos segs.length (BitVec.ofNat 14 segs.flatten.length) ::
      ethRxReports cfg (pos + segs.length) rest

section Reports

variable (cfg : EnetBuffConfig)

/-- Reports go on behind the segments of the frames before. -/
theorem ethRxReports_append (b : List (List (List UInt8))) :
    ∀ (a : List (List (List UInt8))) (pos : Nat), ethRxReports cfg pos (a ++ b) =
      ethRxReports cfg pos a ++ ethRxReports cfg (pos + (a.map List.length).sum) b := by
  intro a
  induction a with
  | nil =>
    intro pos
    rfl
  | cons segs a ih =>
    intro pos
    rw [List.cons_append, ethRxReports, ih, ethRxReports, List.map_cons, List.sum_cons,
      List.cons_append, Nat.add_assoc]

@[simp] theorem length_ethRxReports : ∀ (frames : List (List (List UInt8))) (pos : Nat),
    (ethRxReports cfg pos frames).length = frames.length
  | [], _ => rfl
  | _ :: rest, _ => congrArg Nat.succ (length_ethRxReports rest _)

theorem segCount_ethRxReports : ∀ (frames : List (List (List UInt8))) (pos : Nat),
    (ethRxReports cfg pos frames).map RxReport.segCount = frames.map List.length
  | [], _ => rfl
  | segs :: rest, _ => congrArg (segs.length :: ·) (segCount_ethRxReports rest _)

end Reports

/-! ## The invariant -/

/-- The bytes of the segments that are not taken lie in their buffers. -/
structure EthRxInv (w : EthRxWorld) : Prop where
  ring : RxInv w.ring
  size : w.ring.rx.cfg.size = enetRxBuffSize
  fits : w.ring.rx.cfg.buffer + w.ring.rx.cfg.count * w.ring.rx.cfg.size ≤ 2 ^ 32
  open_part : w.part.length = openSegs w.ring.filled
  full : ∀ seg ∈ w.part, seg.length = enetRxBuffSize
  filled : ∀ segs ∈ w.frames, EthRxFilled segs ∧ segs.flatten.length < 2 ^ 14
  completed : completedFrames w.ring.rx.cfg 0 0 w.ring.filled = ethRxReports w.ring.rx.cfg 0 w.frames
  stored : w.stored.length = w.ring.filled.length
  short : ∀ seg ∈ w.stored, seg.length ≤ enetRxBuffSize
  holds : ∀ p seg, w.ring.taken ≤ p → w.stored[p]? = some seg →
    EthRxHolds w.mem (w.ring.slot p).buffer1 seg
  exact : ∀ d ∈ w.deliveries, d.Exact
  /-- The deliveries are the frames that were reported, one for each. -/
  delivered : w.deliveries.map EthRxDelivery.frame =
    (w.frames.take w.ring.reports.length).map some

/-- The buffers lie one behind the other. -/
theorem RxInv.slot_buffer {w : RxWorld} (h : RxInv w)
    (hfits : w.rx.cfg.buffer + w.rx.cfg.count * w.rx.cfg.size ≤ 2 ^ 32) (hsize : 0 < w.rx.cfg.size)
    (p : Nat) : (w.slot p).buffer1 =
      w.rx.cfg.buffer + p % w.rx.cfg.count * w.rx.cfg.size := by
  have hslot : p % w.rx.cfg.count < w.rx.cfg.count := Nat.mod_lt p h.count_pos
  have hlt : p % w.rx.cfg.count * w.rx.cfg.size < w.rx.cfg.count * w.rx.cfg.size :=
    Nat.mul_lt_mul_of_pos_right hslot hsize
  rw [RxWorld.slot, h.buffer _ hslot]
  exact Nat.mod_eq_of_lt (by omega)

/-- A copy leaves a segment that lies apart as it is. -/
theorem EthRxHolds.copy {mem : Buf} {a o n : Nat} {seg : List UInt8} (h : EthRxHolds mem a seg)
    (src : Buf) (hapart : a + seg.length ≤ o ∨ o + n ≤ a) :
    EthRxHolds (mem.copy o src n) a seg := by
  refine Eq.trans (Buf.toList_congr ?_) h
  intro i hi
  unfold Buf.copy
  rw [if_neg (by omega)]

/-- Different buffers lie apart. -/
theorem EthRxInv.buffers_apart {w : EthRxWorld} (h : EthRxInv w) {p q : Nat}
    (hne : p % w.ring.rx.cfg.count ≠ q % w.ring.rx.cfg.count) :
    (w.ring.slot p).buffer1 + enetRxBuffSize ≤ (w.ring.slot q).buffer1 ∨
      (w.ring.slot q).buffer1 + enetRxBuffSize ≤ (w.ring.slot p).buffer1 := by
  have hsize : 0 < w.ring.rx.cfg.size := by
    rw [h.size]
    exact enetRxBuffSize_pos
  have hmul : ∀ i j, i < j → i * enetRxBuffSize + enetRxBuffSize ≤ j * enetRxBuffSize := by
    intro i j hij
    rw [← Nat.succ_mul]
    exact Nat.mul_le_mul_right _ hij
  rw [h.ring.slot_buffer h.fits hsize, h.ring.slot_buffer h.fits hsize, h.size]
  rcases Nat.lt_or_gt_of_ne hne with hlt | hgt
  · have hle := hmul _ _ hlt
    exact Or.inl (by omega)
  · have hle := hmul _ _ hgt
    exact Or.inr (by omega)

/-- Behind the set-up of the ring nothing is stored and nothing was reported. -/
theorem EthRxInv.start (r : EnetRx) (mem : Buf) (hpos : 0 < r.cfg.count)
    (hlt : r.cfg.count < 2 ^ 32) (hseg : r.info.segCount = 0) (hsize : r.cfg.size = enetRxBuffSize)
    (hfits : r.cfg.buffer + r.cfg.count * r.cfg.size ≤ 2 ^ 32) :
    EthRxInv (EthRxWorld.start r mem) := by
  have hcfg : (RxWorld.start r).rx.cfg = r.cfg :=
    (enetDmaRxDescChainInitLoop_spec { r with cur := 0 } r.cfg.count).2.2.1
  have hring : (EthRxWorld.start r mem).ring = RxWorld.start r := rfl
  constructor
  case ring => exact RxInv.start r hpos hlt hseg
  case size => rwa [hring, hcfg]
  case fits => rwa [hring, hcfg]
  case open_part => rfl
  case full =>
    intro seg h
    cases h
  case filled =>
    intro segs h
    cases h
  case completed => rfl
  case stored => rfl
  case short =>
    intro seg h
    cases h
  case holds =>
    intro p seg _ h
    cases h
  case exact =>
    intro d h
    cases h
  case delivered => rfl

/-! ## Storing a segment -/

/-- The DMA adds the bytes of the segment to what was stored. -/
theorem EthRxWorld.storeBytes_stored (w : EthRxWorld) (ls : Bool) (data : List UInt8)
    (ring : RxWorld) : (w.storeBytes ls data ring).stored = w.stored ++ [data] := by
  unfold EthRxWorld.stored EthRxWorld.storeBytes
  cases ls
  · simp only [Bool.false_eq_true, if_false, List.append_assoc]
  · simp only [if_true, List.flatten_append, List.flatten_singleton, List.append_nil,
      List.append_assoc]

/-- The frames that were stored have the positions in front of the frame that is being stored. -/
theorem EthRxInv.frames_length {w : EthRxWorld} (h : EthRxInv w) :
    (w.frames.map List.length).sum = w.ring.filled.length - openSegs w.ring.filled := by
  have hstored := h.stored
  rw [EthRxWorld.stored, List.length_append, List.length_flatten, h.open_part] at hstored
  omega

theorem EthRxInv.reports_le {w : EthRxWorld} (h : EthRxInv w) :
    w.ring.reports.length ≤ w.frames.length := by
  have hle := h.ring.conserved.done.1.length_le
  rwa [h.completed, length_ethRxReports] at hle

/-- The frame that a last segment completes. -/
theorem EthRxInv.completed_last {w : EthRxWorld} (h : EthRxInv w) {fs : Bool} {fl : BitVec 14}
    {data : List UInt8} (hfl : fl.toNat = (w.part ++ [data]).flatten.length) :
    completedFrames w.ring.rx.cfg 0 0 (w.ring.filled ++ [⟨fs, true, fl⟩]) =
      ethRxReports w.ring.rx.cfg 0 (w.frames ++ [w.part ++ [data]]) := by
  have hlength := h.frames_length
  have hopen : openFrom 0 w.ring.filled = openSegs w.ring.filled := rfl
  rw [completedFrames_append, h.completed, ethRxReports_append, hopen]
  simp only [completedFrames, ethRxReports, if_true, Nat.zero_add, hlength, ← hfl,
    List.length_append, List.length_singleton, h.open_part, BitVec.ofNat_toNat, BitVec.setWidth_eq]

/-- The buffers hold the segments that are not taken and the one that is being stored. -/
theorem EthRxInv.store_holds {w : EthRxWorld} (h : EthRxInv w) (data : List UInt8)
    (hroom : w.ring.filled.length < w.ring.taken + w.ring.rx.cfg.count)
    (hdata : data.length ≤ enetRxBuffSize) (p : Nat) (seg : List UInt8) (hp : w.ring.taken ≤ p)
    (hseg : (w.stored ++ [data])[p]? = some seg) :
    EthRxHolds (w.mem.copy (w.ring.slot w.ring.filled.length).buffer1 (Buf.ofList data) data.length)
      (w.ring.slot p).buffer1 seg := by
  rcases getElem?_snoc_cases hseg with ⟨hlt, hold⟩ | ⟨rfl, rfl⟩
  · rw [h.stored] at hlt
    have hshort := h.short seg (List.mem_of_getElem? hold)
    have hne := Ring.slot_ne hp (Nat.lt_trans hlt hroom)
      (Nat.le_trans hp (Nat.le_of_lt hlt)) hroom (Nat.ne_of_lt hlt)
    apply (h.holds p seg hp hold).copy
    rcases h.buffers_apart hne with hapart | hapart
    · exact Or.inl (by omega)
    · exact Or.inr (by omega)
  · rw [h.stored, EthRxHolds, Buf.toList_copy_self, Buf.toList_ofList]

/-- Storing a segment into a buffer that is free. -/
theorem EthRxInv.store {w : EthRxWorld} {ls : Bool} {fl : BitVec 14} {data : List UInt8}
    (h : EthRxInv w) (hfills : w.Fills ls fl data)
    (hroom : w.ring.filled.length < w.ring.taken + w.ring.rx.cfg.count)
    (hring : RxInv (w.ring.store ⟨decide (openSegs w.ring.filled = 0), ls, fl⟩)) :
    EthRxInv (w.storeBytes ls data
      (w.ring.store ⟨decide (openSegs w.ring.filled = 0), ls, fl⟩)) := by
  obtain ⟨hdata, hfull, hlength⟩ := hfills
  have hstored := w.storeBytes_stored ls data
    (w.ring.store ⟨decide (openSegs w.ring.filled = 0), ls, fl⟩)
  constructor
  case ring => exact hring
  case size => exact h.size
  case fits => exact h.fits
  case open_part =>
    simp only [EthRxWorld.storeBytes, RxWorld.store_filled, openSegs_snoc]
    cases ls
    · simp only [Bool.false_eq_true, if_false, List.length_append, List.length_singleton,
        h.open_part]
    · rfl
  case full =>
    intro seg hseg
    cases ls with
    | true => cases hseg
    | false =>
      rcases List.mem_append.mp hseg with hold | hnew
      · exact h.full seg hold
      · rw [List.mem_singleton.mp hnew]
        exact hfull rfl
  case filled =>
    intro segs hsegs
    cases ls with
    | false => exact h.filled segs hsegs
    | true =>
      rcases List.mem_append.mp hsegs with hold | hnew
      · exact h.filled segs hold
      · rw [List.mem_singleton.mp hnew]
        refine ⟨⟨w.part, data, rfl, h.full, hdata⟩, ?_⟩
        rw [← hlength rfl]
        exact fl.isLt
  case completed =>
    cases ls with
    | true => exact h.completed_last (hlength rfl)
    | false =>
      have hnone := completedFrames_append w.ring.rx.cfg
        [⟨decide (openSegs w.ring.filled = 0), false, fl⟩] w.ring.filled 0 0
      simp only [completedFrames, Bool.false_eq_true, if_false, List.append_nil] at hnone
      exact hnone.trans h.completed
  case stored =>
    change _ = (w.ring.filled ++ [_]).length
    rw [hstored, List.length_append, List.length_append, h.stored, List.length_singleton,
      List.length_singleton]
  case short =>
    intro seg hseg
    rw [hstored] at hseg
    rcases List.mem_append.mp hseg with hold | hnew
    · exact h.short seg hold
    · rwa [List.mem_singleton.mp hnew]
  case holds =>
    intro p seg hp hseg
    rw [hstored] at hseg
    have hbuffer : ((w.ring.store ⟨decide (openSegs w.ring.filled = 0), ls, fl⟩).slot p).buffer1 =
        (w.ring.slot p).buffer1 := (w.ring.store_links _ _).2
    have hholds := h.store_holds data hroom hdata p seg hp hseg
    rw [← hbuffer] at hholds
    exact hholds
  case exact => exact h.exact
  case delivered =>
    refine h.delivered.trans (congrArg (List.map some) ?_)
    cases ls with
    | false => rfl
    | true => exact (List.take_append_of_le_length h.reports_le).symm

/-- The DMA stores behind the segments that are there, in a buffer that no pending segment has. -/
theorem EthRxInv.dma_step {w w' : EthRxWorld} {ls : Bool} {fl : BitVec 14} {data : List UInt8}
    (h : EthRxInv w) (hstep : w.step (.dma ls fl data) = some w') : EthRxInv w' := by
  simp only [EthRxWorld.step] at hstep
  split at hstep
  · rename_i hfills
    obtain ⟨ring', hdma, rfl⟩ := Option.map_eq_some_iff.mp hstep
    have hring := h.ring.dma_step hdma
    unfold RxWorld.dma at hdma
    split at hdma
    · rename_i hmay
      cases hdma
      exact h.store hfills (h.ring.room hmay.1) hring
    · cases hdma
  · cases hstep

/-! ## Taking a frame -/

/-- Taking what a scan gave keeps the ring's configuration and the segments. -/
theorem RxWorld.ScanOutcome.take_kept {w : RxWorld} {ls : Option Nat} {frame : EnetFrame}
    {r : EnetRx} (h : w.ScanOutcome ls frame r) :
    (w.take frame r).rx.cfg = w.rx.cfg ∧ (w.take frame r).filled = w.filled ∧
      w.taken ≤ (w.take frame r).taken := by
  have hcfg : r.cfg = w.rx.cfg := by
    unfold RxWorld.ScanOutcome at h
    split at h
    · rw [h.2]
      rfl
    · rw [h.2]
      rfl
  unfold RxWorld.take
  cases frame.rxDesc with
  | none => exact ⟨hcfg, rfl, Nat.le_refl _⟩
  | some i => exact ⟨(enetReleaseRxDescs_cfg _ _ _).trans hcfg, rfl, Nat.le_add_right _ _⟩

/-- The number of segments that were taken is that of the frames that were reported. -/
theorem EthRxInv.taken_eq {w : EthRxWorld} (h : EthRxInv w) :
    w.ring.taken = ((w.frames.take w.ring.reports.length).map List.length).sum := by
  obtain ⟨hpre, htaken⟩ := h.ring.conserved.done
  have hreports := List.prefix_iff_eq_take.mp hpre
  rw [h.completed] at hreports
  rw [htaken, hreports, List.map_take, segCount_ethRxReports, ← List.map_take, List.length_take,
    length_ethRxReports]
  by_cases hle : w.ring.reports.length ≤ w.frames.length
  · rw [Nat.min_eq_left hle]
  · rw [Nat.min_eq_right (by omega), List.take_of_length_le (Nat.le_refl _),
      List.take_of_length_le (by omega)]

/-- The frame whose turn it is has the position of the first segment that is not taken, and its
report is the one that the ring has pending. -/
theorem EthRxInv.pending_eq {w : EthRxWorld} (h : EthRxInv w) :
    w.ring.pending =
      ethRxReports w.ring.rx.cfg w.ring.taken (w.frames.drop w.ring.reports.length) := by
  have hsplit : ethRxReports w.ring.rx.cfg 0 w.frames =
      ethRxReports w.ring.rx.cfg 0 (w.frames.take w.ring.reports.length) ++
        ethRxReports w.ring.rx.cfg w.ring.taken (w.frames.drop w.ring.reports.length) := by
    conv_lhs => rw [← List.take_append_drop w.ring.reports.length w.frames]
    rw [ethRxReports_append, Nat.zero_add, ← h.taken_eq]
  rw [RxWorld.pending, h.completed, hsplit, List.drop_left']
  rw [length_ethRxReports, List.length_take, Nat.min_eq_left h.reports_le]

/-- Its segments lie in the buffers from there on. -/
theorem EthRxInv.holds_frame {w : EthRxWorld} (h : EthRxInv w) {segs : List (List UInt8)}
    {rest : List (List (List UInt8))} (hdrop : w.frames.drop w.ring.reports.length = segs :: rest)
    (u : Nat) (seg : List UInt8) (hseg : segs[u]? = some seg) :
    EthRxHolds w.mem (w.ring.slot (w.ring.taken + u)).buffer1 seg := by
  apply h.holds _ _ (Nat.le_add_right _ _)
  have hframes : w.frames = w.frames.take w.ring.reports.length ++ segs :: rest := by
    rw [← hdrop, List.take_append_drop]
  have hu : u < segs.length := (List.getElem?_eq_some_iff.mp hseg).1
  have hstored : w.stored = (w.frames.take w.ring.reports.length).flatten ++
      (segs ++ (rest.flatten ++ w.part)) := by
    rw [EthRxWorld.stored]
    conv_lhs => rw [hframes]
    rw [List.flatten_append, List.flatten_cons, List.append_assoc, List.append_assoc]
  rw [hstored, h.taken_eq, ← List.length_flatten, List.getElem?_append_right (Nat.le_add_right _ _),
    Nat.add_sub_cancel_left, List.getElem?_append_left hu, hseg]

/-- The copy starts in the buffer of its first segment. -/
theorem EthRxWorld.start_at (w : EthRxWorld) :
    EthRxAt w.ring.rx.tab (fun u => (w.ring.taken + u) % w.ring.rx.cfg.count)
      ⟨w.ring.taken % w.ring.rx.cfg.count,
        (w.ring.rx.tab (w.ring.taken % w.ring.rx.cfg.count)).buffer1, 0⟩ 0 0 where
  desc := rfl
  buffer := rfl
  offset := Nat.zero_le _
  pos := (Nat.add_zero _).trans (Nat.zero_mul _)

/-- The oldest frame copied into a chain of its length is an exact delivery. -/
theorem EthRxInv.delivery_exact {w : EthRxWorld} (h : EthRxInv w) {segs : List (List UInt8)}
    {rest : List (List (List UInt8))} (hdrop : w.frames.drop w.ring.reports.length = segs :: rest)
    {lens : List Nat} (hlens : lens.sum = segs.flatten.length - 4) :
    (w.delivery ⟨lens, ethRxCopyChain w.ring.rx.tab
      ⟨w.ring.taken % w.ring.rx.cfg.count,
        (w.ring.rx.tab (w.ring.taken % w.ring.rx.cfg.count)).buffer1, 0⟩ lens⟩).Exact := by
  have hmem : segs ∈ w.frames := by
    apply List.mem_of_mem_drop
    rw [hdrop]
    exact List.mem_cons_self
  obtain ⟨hfilled, -⟩ := h.filled segs hmem
  have hnext : ∀ t, (w.ring.rx.tab ((w.ring.taken + t) % w.ring.rx.cfg.count)).nextDesc =
      (w.ring.taken + (t + 1)) % w.ring.rx.cfg.count := fun t => h.ring.next_slot (w.ring.taken + t)
  have hexact := ethRxCopyChain_exact hnext hfilled (h.holds_frame hdrop) w.start_at
    (hlens.trans_le (Nat.sub_le _ _))
  rw [hlens] at hexact
  refine ⟨segs, ?_, ?_⟩
  · change w.frames[w.ring.reports.length]? = some segs
    rw [← List.head?_drop, hdrop, List.head?_cons]
  · unfold EthRxWorld.delivery
    dsimp only
    rw [← h.taken_eq]
    exact hexact

/-- What a call that delivers what it finds hands over is an exact delivery. -/
theorem EthRxInv.rx_exact {w : EthRxWorld} {pbufAlloc : Option (List Nat)} (h : EthRxInv w)
    (hok : w.Delivers (.rx pbufAlloc)) (halloc : w.AllocFits pbufAlloc) {pbufs : EthRxPbufs}
    {rx : EnetRx} (hrx : rtHpmEthRx w.ring.rx pbufAlloc = some (some pbufs, rx)) :
    (w.delivery pbufs).Exact := by
  obtain ⟨-, frame, r, pbufs', rx', hscan, -, -, hrun, -, -, hspec⟩ := h.ring.rtHpmEthRx_spec hok
  rw [hrx] at hrun
  cases hrun
  obtain ⟨f, fs, i, lens, hpending, rfl, hdesc, rfl, hlen, hlt, rfl⟩ := hspec pbufs rfl
  have hframes := h.pending_eq
  rw [hpending] at hframes
  cases hdrop : w.frames.drop w.ring.reports.length with
  | nil =>
    rw [hdrop] at hframes
    cases hframes
  | cons segs rest =>
    rw [hdrop, ethRxReports] at hframes
    obtain ⟨rfl, -⟩ := List.cons.inj hframes
    have hmem : segs ∈ w.frames := by
      apply List.mem_of_mem_drop
      rw [hdrop]
      exact List.mem_cons_self
    have hbytes := (h.filled segs hmem).2
    have hlength : (rxReport w.ring.rx.cfg w.ring.taken segs.length
        (BitVec.ofNat 14 segs.flatten.length)).frame.length = segs.flatten.length - 4 := by
      change (BitVec.ofNat 14 segs.flatten.length).toNat - 4 = _
      rw [BitVec.toNat_ofNat, Nat.mod_eq_of_lt hbytes]
    have hlens : lens.sum = segs.flatten.length - 4 := by
      rw [← hlength, ← Nat.mod_eq_of_lt hlt]
      exact halloc _ hscan lens rfl (by rwa [Nat.mod_eq_of_lt hlt])
    cases hdesc
    have hbuffer := h.ring.buffer _ (Nat.mod_lt w.ring.taken h.ring.count_pos)
    have hexact := h.delivery_exact hdrop hlens
    rw [hbuffer] at hexact
    exact hexact

/-- Taking what a scan gave and handing over exact deliveries. -/
theorem EthRxInv.take {w : EthRxWorld} {ls : Option Nat} {frame : EnetFrame} {r : EnetRx}
    (h : EthRxInv w) (hout : w.ring.ScanOutcome ls frame r) (hring : RxInv (w.ring.take frame r))
    {ds : List EthRxDelivery} (hds : ∀ d ∈ ds, d.Exact) (hturn : ds.map EthRxDelivery.frame =
      frame.rxDesc.toList.map fun _ => w.frames[w.ring.reports.length]?) :
    EthRxInv { w with ring := w.ring.take frame r, deliveries := w.deliveries ++ ds } := by
  obtain ⟨hcfg, hfilled, htaken⟩ := hout.take_kept
  have hfits : (w.ring.take frame r).rx.cfg.buffer +
      (w.ring.take frame r).rx.cfg.count * (w.ring.take frame r).rx.cfg.size ≤ 2 ^ 32 := by
    rw [hcfg]
    exact h.fits
  have hsize : 0 < w.ring.rx.cfg.size := by
    rw [h.size]
    exact enetRxBuffSize_pos
  constructor
  case ring => exact hring
  case size => exact (congrArg _ hcfg).trans h.size
  case fits => exact hfits
  case open_part => exact h.open_part.trans (congrArg openSegs hfilled).symm
  case full => exact h.full
  case filled => exact h.filled
  case completed =>
    dsimp only
    rw [hcfg, hfilled]
    exact h.completed
  case stored => exact h.stored.trans (congrArg List.length hfilled).symm
  case short => exact h.short
  case holds =>
    intro p seg hp hseg
    have hbuffer : ((w.ring.take frame r).slot p).buffer1 = (w.ring.slot p).buffer1 := by
      rw [hring.slot_buffer hfits (by rwa [hcfg]), h.ring.slot_buffer h.fits hsize, hcfg]
    dsimp only
    rw [hbuffer]
    exact h.holds p seg (Nat.le_trans htaken hp) hseg
  case exact =>
    intro d hd
    rcases List.mem_append.mp hd with hold | hnew
    · exact h.exact d hold
    · exact hds d hnew
  case delivered =>
    dsimp only
    rw [List.map_append, h.delivered, hturn]
    unfold RxWorld.take
    cases hdesc : frame.rxDesc with
    | none => exact List.append_nil _
    | some i =>
      rw [hdesc] at hturn
      obtain ⟨d, rfl, hd⟩ := List.map_eq_singleton_iff.mp hturn
      obtain ⟨segs, hsegs, -⟩ := hds d (List.mem_singleton_self d)
      have hframe : w.frames[w.ring.reports.length]? = some segs := hd.symm.trans hsegs
      dsimp only
      rw [List.length_append, List.length_singleton, List.take_add_one, hframe, List.map_append]
      rfl

/-- A call that delivers its frame copies the oldest one that was not taken. -/
theorem EthRxInv.rx_step {w w' : EthRxWorld} {pbufAlloc : Option (List Nat)} (h : EthRxInv w)
    (hok : w.Delivers (.rx pbufAlloc)) (hstep : w.step (.rx pbufAlloc) = some w') :
    EthRxInv w' := by
  simp only [EthRxWorld.step] at hstep
  split at hstep
  · rename_i halloc
    obtain ⟨ls, frame, r, pbufs, rx, hscan, hout, hinv, hrx, hfinish, hsome, -⟩ :=
      h.ring.rtHpmEthRx_spec hok
    rw [hrx, Option.bind_some, RxWorld.ethStep, hrx, hscan, Option.bind_some, Option.map_some,
      Option.map_some, hfinish, Option.some.injEq] at hstep
    subst hstep
    refine h.take hout hinv (fun d hd => ?_) ?_
    · cases pbufs with
      | none => cases hd
      | some pbufs =>
        rw [List.mem_singleton.mp hd]
        exact h.rx_exact hok halloc hrx
    · cases pbufs <;> cases hdesc : frame.rxDesc <;> rw [hdesc] at hsome <;>
        first | rfl | exact Bool.noConfusion hsome
  · cases hstep

/-! ## Runs -/

/-- From a ring just set up, with whatever the DMA stores and whenever `rt_hpm_eth_rx` is called:
while every call delivers what it finds, the deliveries are the first of the stored frames, in
order and each once, and each is exactly its frame.  The ring's invariant says which segments wait
and in which descriptors, so a scan reports the oldest frame that waits; that its bytes are still
in the buffers is kept because the DMA stores only into descriptors behind those that wait. -/
theorem ethRx_delivers_exactly (r : EnetRx) (mem : Buf) (acts : List EthRxEvent) {w : EthRxWorld}
    (hpos : 0 < r.cfg.count) (hlt : r.cfg.count < 2 ^ 32) (hseg : r.info.segCount = 0)
    (hsize : r.cfg.size = enetRxBuffSize)
    (hfits : r.cfg.buffer + r.cfg.count * r.cfg.size ≤ 2 ^ 32)
    (hdelivers : Along EthRxWorld.step EthRxWorld.Delivers (EthRxWorld.start r mem) acts)
    (hrun : run EthRxWorld.step (EthRxWorld.start r mem) acts = some w) :
    w.deliveries.map EthRxDelivery.frame = (w.frames.take w.deliveries.length).map some ∧
      ∀ d ∈ w.deliveries, d.Exact := by
  have hstep : ∀ (w : EthRxWorld) (a : EthRxEvent) (w' : EthRxWorld), EthRxInv w → w.Delivers a →
      w.step a = some w' → EthRxInv w' := by
    intro w a w' h hok hstep
    cases a with
    | dma ls fl data => exact h.dma_step hstep
    | rx pbufAlloc => exact h.rx_step hok hstep
  have hinv := run_invariant_along hstep acts _ w
    (EthRxInv.start r mem hpos hlt hseg hsize hfits) hdelivers hrun
  have hcount : w.deliveries.length = w.ring.reports.length := by
    have hlength := congrArg List.length hinv.delivered
    rwa [List.length_map, List.length_map, List.length_take,
      Nat.min_eq_left hinv.reports_le] at hlength
  rw [hcount]
  exact ⟨hinv.delivered, hinv.exact⟩

/-- A frame in a chain of two pbufs, and one behind it. -/
theorem ethRx_delivers_exactly_two : ∃ w,
    run EthRxWorld.step (EthRxWorld.start rxTwoSlots fun _ => 0)
      [.dma true 64 (List.replicate 64 1), .rx (some [20, 40]), .dma true 6 (List.replicate 6 2),
        .rx (some [2])] = some w ∧
    w.deliveries.length = 2 ∧
    w.deliveries.map EthRxDelivery.frame = (w.frames.take w.deliveries.length).map some ∧
    ∀ d ∈ w.deliveries, d.Exact :=
  ⟨_, rfl, rfl, ethRx_delivers_exactly rxTwoSlots (fun _ => 0)
    [.dma true 64 (List.replicate 64 1), .rx (some [20, 40]), .dma true 6 (List.replicate 6 2),
      .rx (some [2])] (by decide) (by decide) rfl rfl (by decide) (by decide) rfl⟩

end HpmSdk.Enet
