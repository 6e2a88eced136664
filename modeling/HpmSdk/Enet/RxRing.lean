import HpmSdk.Enet.Rx
import HpmSdk.Foundation.Ring

set_option autoImplicit false

/-!
# ENET: the receive ring between the DMA and the CPU

The DMA stores the segments of frames in ring order into descriptors it owns;
the CPU scans them in the same order, takes whole frames and gives their
descriptors back.  A world keeps the history of segments, how many of them
belong to frames already taken and what was reported; `RxInv` ties the
descriptors, the cursor and the segment count to it.

The invariant is about absolute positions of segments.  A position has its slot in the ring, and
within a window of one ring two positions never share one (`Foundation.Ring`).
-/

namespace HpmSdk.Enet

open HpmSdk.Foundation

/-! ## Segments and frames -/

/-- What the DMA writes back with a segment. -/
structure RxSeg where
  fs : Bool
  ls : Bool
  fl : BitVec 14
  deriving DecidableEq, Repr

/-- How many segments of an unfinished frame a history ends with, when it
starts behind `n` of them. -/
def openFrom (n : Nat) (segs : List RxSeg) : Nat :=
  segs.foldl (fun n seg => if seg.ls then 0 else n + 1) n

/-- How many segments of an unfinished frame a history ends with. -/
def openSegs (segs : List RxSeg) : Nat := openFrom 0 segs

/-- A segment that ends its frame leaves none open; any other one is one more. -/
theorem openSegs_snoc (segs : List RxSeg) (seg : RxSeg) :
    openSegs (segs ++ [seg]) = if seg.ls then 0 else openSegs segs + 1 := by
  rw [openSegs, openFrom, List.foldl_append]
  rfl

/-- What is to be reported about a frame: the frame, its number of segments and
where the cursor is left. -/
structure RxReport where
  frame : EnetFrame
  segCount : Nat
  cur : Nat
  deriving DecidableEq, Repr

/-- The report on a frame of `segs` segments from position `pos` on, whose last
segment gives the length `fl`. -/
def rxReport (cfg : EnetBuffConfig) (pos segs : Nat) (fl : BitVec 14) : RxReport where
  frame :=
    { length := fl.toNat - 4
      buffer := (cfg.buffer + pos % cfg.count * cfg.size) % 2 ^ 32
      rxDesc := some (pos % cfg.count) }
  segCount := segs
  cur := (pos + segs) % cfg.count

/-- The frames that a history completes, the first of which starts at position
`pos` and has `segs` segments already. -/
def completedFrames (cfg : EnetBuffConfig) : Nat → Nat → List RxSeg → List RxReport
  | _, _, [] => []
  | pos, segs, seg :: rest =>
    if seg.ls then
      rxReport cfg pos (segs + 1) seg.fl :: completedFrames cfg (pos + (segs + 1)) 0 rest
    else completedFrames cfg pos (segs + 1) rest

/-- The frames of a history are those of a first part, then those of the rest,
which starts in the frame the first part leaves open. -/
theorem completedFrames_append (cfg : EnetBuffConfig) (b : List RxSeg) :
    ∀ (a : List RxSeg) (pos n : Nat),
    completedFrames cfg pos n (a ++ b) = completedFrames cfg pos n a ++
      completedFrames cfg (pos + n + a.length - openFrom n a) (openFrom n a) b := by
  intro a
  induction a with
  | nil =>
    intro pos n
    simp [completedFrames, openFrom]
  | cons seg a ih =>
    intro pos n
    rw [List.cons_append, completedFrames, completedFrames]
    split
    · rename_i hls
      have hopen : openFrom n (seg :: a) = openFrom 0 a := by simp [openFrom, hls]
      rw [ih, List.cons_append, hopen, List.length_cons]
      congr 3
      omega
    · rename_i hls
      have hopen : openFrom n (seg :: a) = openFrom (n + 1) a := by simp [openFrom, hls]
      rw [ih, hopen, List.length_cons]
      congr 2
      omega

theorem completedFrames_mem (cfg : EnetBuffConfig) : ∀ (segs : List RxSeg) (pos n : Nat),
    ∀ f ∈ completedFrames cfg pos n segs, ∃ p k fl, f = rxReport cfg p k fl := by
  intro segs
  induction segs with
  | nil =>
    intro pos n f hf
    cases hf
  | cons seg rest ih =>
    intro pos n f hf
    rw [completedFrames] at hf
    split at hf
    · rcases List.mem_cons.mp hf with rfl | hf
      · exact ⟨_, _, _, rfl⟩
      · exact ih _ _ f hf
    · exact ih _ _ f hf

/-- Every segment is in a completed frame or in the frame left open. -/
theorem completedFrames_segs (cfg : EnetBuffConfig) : ∀ (segs : List RxSeg) (pos n : Nat),
    ((completedFrames cfg pos n segs).map RxReport.segCount).sum + openFrom n segs =
      n + segs.length := by
  intro segs
  induction segs with
  | nil =>
    intro pos n
    simp [completedFrames, openFrom]
  | cons seg rest ih =>
    intro pos n
    rw [completedFrames, List.length_cons]
    split
    · rename_i hls
      have hopen : openFrom n (seg :: rest) = openFrom 0 rest := by simp [openFrom, hls]
      have hrest := ih (pos + (n + 1)) 0
      rw [hopen, List.map_cons, List.sum_cons]
      change n + 1 + _ + _ = _
      omega
    · rename_i hls
      have hopen : openFrom n (seg :: rest) = openFrom (n + 1) rest := by simp [openFrom, hls]
      have hrest := ih pos (n + 1)
      rw [hopen, hrest]
      omega

/-! ## Worlds -/

/-- The driver's state with what happened so far. -/
structure RxWorld where
  rx : EnetRx
  /-- Every segment the DMA has stored, oldest first. -/
  filled : List RxSeg
  /-- How many of them belong to frames that were taken. -/
  taken : Nat
  reports : List RxReport

namespace RxWorld

/-- How many segments the CPU has scanned: the position of the cursor. -/
def scanned (w : RxWorld) : Nat := w.taken + w.rx.info.segCount

theorem scanned_eq (w : RxWorld) : w.scanned = w.taken + w.rx.info.segCount := rfl

/-- The descriptor a segment position uses. -/
def slot (w : RxWorld) (p : Nat) : EnetRxDesc := w.rx.tab (p % w.rx.cfg.count)

/-- The write-back of a segment. -/
def writeBack (d : EnetRxDesc) (seg : RxSeg) : EnetRxDesc :=
  { d with own := false, fs := seg.fs, ls := seg.ls, fl := seg.fl }

/-- The world with one segment more. -/
def store (w : RxWorld) (seg : RxSeg) : RxWorld :=
  { w with
    rx := w.rx.setDesc (w.filled.length % w.rx.cfg.count) (writeBack (w.slot w.filled.length) seg)
    filled := w.filled ++ [seg] }

@[simp] theorem store_filled (w : RxWorld) (seg : RxSeg) :
    (w.store seg).filled = w.filled ++ [seg] := rfl

@[simp] theorem store_taken (w : RxWorld) (seg : RxSeg) : (w.store seg).taken = w.taken := rfl

@[simp] theorem store_reports (w : RxWorld) (seg : RxSeg) :
    (w.store seg).reports = w.reports := rfl

@[simp] theorem store_info (w : RxWorld) (seg : RxSeg) : (w.store seg).rx.info = w.rx.info := rfl

@[simp] theorem store_cur (w : RxWorld) (seg : RxSeg) : (w.store seg).rx.cur = w.rx.cur := rfl

@[simp] theorem store_scanned (w : RxWorld) (seg : RxSeg) :
    (w.store seg).scanned = w.scanned := rfl

@[simp] theorem store_cfg (w : RxWorld) (seg : RxSeg) : (w.store seg).rx.cfg = w.rx.cfg := rfl

theorem store_slot_self (w : RxWorld) (seg : RxSeg) :
    (w.store seg).slot w.filled.length = writeBack (w.slot w.filled.length) seg := if_pos rfl

theorem store_slot_of_ne (w : RxWorld) (seg : RxSeg) {p : Nat}
    (h : p % w.rx.cfg.count ≠ w.filled.length % w.rx.cfg.count) : (w.store seg).slot p = w.slot p :=
  if_neg h

/-- The links and the buffers are never written back. -/
theorem store_links (w : RxWorld) (seg : RxSeg) (i : Nat) :
    ((w.store seg).rx.tab i).nextDesc = (w.rx.tab i).nextDesc ∧
      ((w.store seg).rx.tab i).buffer1 = (w.rx.tab i).buffer1 := by
  by_cases h : i = w.filled.length % w.rx.cfg.count
  · subst h
    have hself : (w.store seg).rx.tab (w.filled.length % w.rx.cfg.count) =
        writeBack (w.slot w.filled.length) seg := if_pos rfl
    rw [hself]
    exact ⟨rfl, rfl⟩
  · have hother : (w.store seg).rx.tab i = w.rx.tab i := if_neg h
    rw [hother]
    exact ⟨rfl, rfl⟩

/-- When the DMA can store a segment: it owns the next descriptor of the ring,
the length in the last segment of a frame counts the four bytes of the CRC, and
a frame has at most as many segments as the ring. -/
def MayStore (w : RxWorld) (ls : Bool) (fl : BitVec 14) : Prop :=
  (w.slot w.filled.length).own = true ∧ (ls = true → 4 ≤ fl.toNat) ∧
    (ls = false → openSegs w.filled + 1 < w.rx.cfg.count)

instance (w : RxWorld) (ls : Bool) (fl : BitVec 14) : Decidable (w.MayStore ls fl) :=
  inferInstanceAs (Decidable (_ ∧ _ ∧ _))

/-- The DMA stores a segment, with the first-segment flag where a frame starts. -/
def dma (w : RxWorld) (ls : Bool) (fl : BitVec 14) : Option RxWorld :=
  if w.MayStore ls fl then some (w.store ⟨decide (openSegs w.filled = 0), ls, fl⟩) else none

/-- The caller takes the frame a scanner gave it: it gives the descriptors back
and clears the segment count. -/
def take (w : RxWorld) (frame : EnetFrame) (r : EnetRx) : RxWorld :=
  match frame.rxDesc with
  | none => { w with rx := r }
  | some i =>
    { w with
      rx := enetReleaseFrame r i
      taken := w.taken + r.info.segCount
      reports := w.reports ++ [⟨frame, r.info.segCount, r.cur⟩] }

/-- The world after `enet_dma_rx_desc_chain_init`. -/
def start (r : EnetRx) : RxWorld where
  rx := enetDmaRxDescChainInit r
  filled := []
  taken := 0
  reports := []

end RxWorld

/-! ## The invariant -/

/-- What holds in every state of the ring. -/
structure RxInv (w : RxWorld) : Prop where
  count_pos : 0 < w.rx.cfg.count
  count_lt : w.rx.cfg.count < 2 ^ 32
  next : Ring.Linked EnetRxDesc.nextDesc w.rx.cfg.count w.rx.tab
  buffer : ∀ i < w.rx.cfg.count,
    (w.rx.tab i).buffer1 = (w.rx.cfg.buffer + i * w.rx.cfg.size) % 2 ^ 32
  /-- The cursor is behind the segments scanned. -/
  cur : w.rx.cur = w.scanned % w.rx.cfg.count
  scanned : w.scanned ≤ w.filled.length
  window : w.filled.length ≤ w.taken + w.rx.cfg.count
  /-- Segments not yet taken are in descriptors of the CPU. -/
  cpu : ∀ p seg, w.taken ≤ p → w.filled[p]? = some seg →
    (w.slot p).own = false ∧ (w.slot p).fs = seg.fs ∧ (w.slot p).ls = seg.ls ∧
      (w.slot p).fl = seg.fl
  /-- Every other descriptor belongs to the DMA. -/
  dma : ∀ p, w.filled.length ≤ p → p < w.taken + w.rx.cfg.count → (w.slot p).own = true
  /-- The segments scanned belong to one unfinished frame. -/
  open_scanned : openSegs (w.filled.take w.scanned) = w.rx.info.segCount
  first : 0 < w.rx.info.segCount → w.rx.info.fsRxDesc = some (w.taken % w.rx.cfg.count)
  flags : ∀ p seg, w.filled[p]? = some seg → seg.fs = decide (openSegs (w.filled.take p) = 0)
  short : openSegs w.filled < w.rx.cfg.count
  lens : ∀ seg ∈ w.filled, seg.ls = true → 4 ≤ seg.fl.toNat
  /-- The frames reported are those the segments scanned complete. -/
  reported : completedFrames w.rx.cfg 0 0 (w.filled.take w.scanned) = w.reports

/-- The completed frames that have not been reported. -/
def RxWorld.pending (w : RxWorld) : List RxReport :=
  (completedFrames w.rx.cfg 0 0 w.filled).drop w.reports.length

/-- The completed frames are those reported, then those the segments not yet
scanned complete. -/
theorem RxInv.completed_eq {w : RxWorld} (h : RxInv w) :
    completedFrames w.rx.cfg 0 0 w.filled = w.reports ++
      completedFrames w.rx.cfg w.taken w.rx.info.segCount (w.filled.drop w.scanned) := by
  have hsplit := completedFrames_append w.rx.cfg (w.filled.drop w.scanned)
    (w.filled.take w.scanned) 0 0
  have hopen : openFrom 0 (w.filled.take w.scanned) = w.rx.info.segCount := h.open_scanned
  rw [List.take_append_drop, h.reported, hopen, List.length_take, Nat.min_eq_left h.scanned,
    Nat.zero_add, w.scanned_eq, Nat.add_sub_cancel] at hsplit
  exact hsplit

/-- The frames that are pending are those completed among the segments that were not scanned, with
the ones scanned already in front. -/
theorem RxInv.pending_eq {w : RxWorld} (h : RxInv w) :
    w.pending =
      completedFrames w.rx.cfg w.taken w.rx.info.segCount (w.filled.drop w.scanned) := by
  rw [RxWorld.pending, h.completed_eq, List.drop_left]

/-! ## Setting up -/

/-- The loop gives each descriptor to the DMA, with its buffer, and links it to the next one; the
last one is linked to the first. -/
theorem enetDmaRxDescChainInitLoop_spec (r : EnetRx) : ∀ n,
    (enetDmaRxDescChainInitLoop r n).cur = r.cur ∧
    (enetDmaRxDescChainInitLoop r n).info = r.info ∧
    (enetDmaRxDescChainInitLoop r n).cfg = r.cfg ∧
    ∀ i < n, ((enetDmaRxDescChainInitLoop r n).tab i).own = true ∧
      ((enetDmaRxDescChainInitLoop r n).tab i).buffer1 = (r.cfg.buffer + i * r.cfg.size) % 2 ^ 32 ∧
      ((enetDmaRxDescChainInitLoop r n).tab i).nextDesc =
        if i < r.cfg.count - 1 then i + 1 else 0 := by
  intro n
  induction n with
  | zero => exact ⟨rfl, rfl, rfl, fun i hi => absurd hi (Nat.not_lt_zero i)⟩
  | succ n ih =>
    obtain ⟨hcur, hinfo, hcfg, htab⟩ := ih
    refine ⟨hcur, hinfo, hcfg, fun i hi => ?_⟩
    simp only [enetDmaRxDescChainInitLoop, EnetRx.setDesc]
    by_cases hin : i = n
    · subst hin
      simp only [Ring.set_self, hcfg]
      exact ⟨trivial, trivial, trivial⟩
    · rw [Ring.set_of_ne _ _ hin]
      exact htab i (by omega)

/-- The ring as it is set up satisfies the invariant. -/
theorem RxInv.start (r : EnetRx) (hpos : 0 < r.cfg.count) (hlt : r.cfg.count < 2 ^ 32)
    (hseg : r.info.segCount = 0) : RxInv (RxWorld.start r) := by
  set r' := enetDmaRxDescChainInit r with hr'
  obtain ⟨hcur, hinfo, hcfg, htab⟩ : r'.cur = 0 ∧ r'.info = r.info ∧ r'.cfg = r.cfg ∧
      ∀ i < r.cfg.count, (r'.tab i).own = true ∧
        (r'.tab i).buffer1 = (r.cfg.buffer + i * r.cfg.size) % 2 ^ 32 ∧
        (r'.tab i).nextDesc = if i < r.cfg.count - 1 then i + 1 else 0 :=
    enetDmaRxDescChainInitLoop_spec { r with cur := 0 } r.cfg.count
  have hrx : (RxWorld.start r).rx = r' := rfl
  have hseg' : r'.info.segCount = 0 := by rw [hinfo]; exact hseg
  have hlen : (RxWorld.start r).filled = [] := rfl
  have htaken : (RxWorld.start r).taken = 0 := rfl
  constructor
  case count_pos =>
    rwa [hrx, hcfg]
  case count_lt =>
    rwa [hrx, hcfg]
  case next =>
    intro i hi
    rw [hrx, hcfg] at *
    rw [(htab i hi).2.2]
    by_cases hlast : i < r.cfg.count - 1
    · rw [if_pos hlast, Nat.mod_eq_of_lt (by omega)]
    · rw [if_neg hlast, show i + 1 = r.cfg.count by omega, Nat.mod_self]
  case buffer =>
    intro i hi
    rw [hrx, hcfg] at hi
    rw [hrx, hcfg, (htab i hi).2.1]
  case cur =>
    rw [RxWorld.scanned_eq, hrx, hcur, hseg', htaken]
    rfl
  case scanned =>
    rw [RxWorld.scanned_eq, hrx, hseg']
    exact Nat.le_refl _
  case window =>
    rw [hlen]
    exact Nat.zero_le _
  case cpu =>
    intro p seg _ hp
    rw [hlen] at hp
    cases hp
  case dma =>
    intro p _ hp
    rw [htaken, hrx, Nat.zero_add, hcfg] at hp
    rw [RxWorld.slot, hrx, hcfg, Nat.mod_eq_of_lt hp]
    exact (htab p hp).1
  case open_scanned =>
    rw [hrx, hseg', hlen, List.take_nil]
    rfl
  case first =>
    intro hc
    rw [hrx, hseg'] at hc
    exact absurd hc (Nat.lt_irrefl 0)
  case flags =>
    intro p seg hp
    rw [hlen] at hp
    cases hp
  case short =>
    rw [hlen, hrx, hcfg]
    exact hpos
  case lens =>
    intro seg hs
    rw [hlen] at hs
    cases hs
  case reported =>
    rw [hlen]
    simp [completedFrames, RxWorld.start]

end HpmSdk.Enet
