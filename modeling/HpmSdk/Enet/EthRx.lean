import HpmSdk.Enet.RxScanners

set_option autoImplicit false

/-!
# ENET: receiving a frame into a pbuf chain (`rt_hpm_eth_rx`)

The device driver scans for a frame, copies it into a chain of pbufs and gives
the descriptors back.  `pbuf_alloc` is an input of a call: the lengths of the
pbufs of the chain, or `none` when it fails.

Conservation is a matter of the ring alone: `RxInv` is kept by every call that delivers, and a call
that reports a frame without copying it is the only one that does not.
-/

namespace HpmSdk.Enet

open HpmSdk.Foundation

/-! ## The code -/

/-- `ENET_RX_BUFF_SIZE`. -/
def enetRxBuffSize : Nat := 1524

/-- Where the copy stands in the frame: `dma_rx_desc`, `buffer` and `buffer_offset`. -/
structure EthRxPos where
  dmaRxDesc : Nat
  buffer : Nat
  bufferOffset : Nat
  deriving DecidableEq, Repr

/-- One `SMEMCPY` into the payload of a pbuf. -/
structure EthRxCopy where
  payloadOffset : Nat
  src : Nat
  len : Nat
  deriving DecidableEq, Repr

/-- The copies into one pbuf, with `bytesLeftToCopy` bytes left of it. -/
def ethRxCopyPbuf (tab : Nat → EnetRxDesc) (s : EthRxPos) (payloadOffset bytesLeftToCopy : Nat) :
    List EthRxCopy × EthRxPos :=
  if enetRxBuffSize < bytesLeftToCopy + s.bufferOffset then
    let room := enetRxBuffSize - s.bufferOffset
    let dmaRxDesc := (tab s.dmaRxDesc).nextDesc
    let rest := ethRxCopyPbuf tab ⟨dmaRxDesc, (tab dmaRxDesc).buffer1, 0⟩ (payloadOffset + room)
      (bytesLeftToCopy - room)
    (⟨payloadOffset, s.buffer + s.bufferOffset, room⟩ :: rest.1, rest.2)
  else
    ([⟨payloadOffset, s.buffer + s.bufferOffset, bytesLeftToCopy⟩],
      { s with bufferOffset := s.bufferOffset + bytesLeftToCopy })
termination_by bytesLeftToCopy + s.bufferOffset
decreasing_by
  unfold enetRxBuffSize at *
  omega

/-- `for (q = p; q != NULL; q = q->next)`. -/
def ethRxCopyChain (tab : Nat → EnetRxDesc) (s : EthRxPos) : List Nat → List (List EthRxCopy)
  | [] => []
  | len :: rest =>
    let c := ethRxCopyPbuf tab s 0 len
    c.1 :: ethRxCopyChain tab c.2 rest

/-- The pbuf chain that is returned: the lengths and what was copied. -/
structure EthRxPbufs where
  lens : List Nat
  copies : List (List EthRxCopy)
  deriving DecidableEq, Repr

/-- `rt_hpm_eth_rx`. -/
def rtHpmEthRx (r : EnetRx) (pbufAlloc : Option (List Nat)) :
    Option (Option EthRxPbufs × EnetRx) :=
  (enetGetReceivedFrameInterrupt r r.cfg.count).bind fun s =>
    let len := s.1.length % 2 ^ 16
    match if 0 < len then pbufAlloc else none with
    | none => some (none, s.2)
    | some lens =>
      s.1.rxDesc.map fun i =>
        (some ⟨lens, ethRxCopyChain s.2.tab ⟨i, s.1.buffer, 0⟩ lens⟩, enetReleaseFrame s.2 i)

/-! ## Runs -/

/-- What can happen next. -/
inductive EthRxAct where
  /-- The DMA stores a segment. -/
  | dma (ls : Bool) (fl : BitVec 14)
  /-- `rt_hpm_eth_rx`, with what its allocation gives. -/
  | rx (pbufAlloc : Option (List Nat))
  deriving DecidableEq, Repr

namespace RxWorld

/-- The driver is done with what a scan gave, delivered or dropped, and left the
state `rx`. -/
def finish (w : RxWorld) (frame : EnetFrame) (r rx : EnetRx) : RxWorld :=
  match frame.rxDesc with
  | none => { w with rx := rx }
  | some _ =>
    { w with
      rx := rx
      taken := w.taken + r.info.segCount
      reports := w.reports ++ [⟨frame, r.info.segCount, r.cur⟩] }

def ethStep (w : RxWorld) : EthRxAct → Option RxWorld
  | .dma ls fl => w.dma ls fl
  | .rx pbufAlloc =>
    (rtHpmEthRx w.rx pbufAlloc).bind fun out =>
      (enetGetReceivedFrameInterrupt w.rx w.rx.cfg.count).map fun s => w.finish s.1 s.2 out.2

/-- A call delivers what it finds: no frame is complete, or the oldest one is not
empty and its allocation succeeds. -/
def Delivers (w : RxWorld) : EthRxAct → Prop
  | .dma _ _ => True
  | .rx pbufAlloc => ∀ f ∈ w.pending.head?, 0 < f.frame.length ∧ pbufAlloc.isSome = true

instance (w : RxWorld) : ∀ a, Decidable (w.Delivers a)
  | .dma _ _ => inferInstanceAs (Decidable True)
  | .rx pbufAlloc =>
    inferInstanceAs (Decidable
      (∀ f ∈ w.pending.head?, 0 < f.frame.length ∧ pbufAlloc.isSome = true))

end RxWorld

/-! ## Conservation -/

/-- No descriptor is lost. -/
structure RxConserved (w : RxWorld) : Prop where
  /-- What was delivered or dropped are the first of the completed frames. -/
  done : w.reports <+: completedFrames w.rx.cfg 0 0 w.filled ∧
    w.taken = (w.reports.map RxReport.segCount).sum
  /-- Their descriptors belong to the DMA until it has stored into them again. -/
  returned : ∀ p < w.taken, w.filled.length ≤ p + w.rx.cfg.count → (w.slot p).own = true
  /-- The CPU owns exactly the descriptors of the other segments. -/
  owner : ∀ i < w.rx.cfg.count, (w.rx.tab i).own = false ↔
    ∃ p, w.taken ≤ p ∧ p < w.filled.length ∧ p % w.rx.cfg.count = i
  /-- With the cursor between frames the segment count is 0. -/
  idle : w.rx.cur = w.taken % w.rx.cfg.count → w.rx.info.segCount = 0

/-- A ring that is right has lost nothing: the CPU owns the descriptors of the segments that were
not taken, and no others. -/
theorem RxInv.conserved {w : RxWorld} (h : RxInv w) : RxConserved w := by
  have hscanned := h.scanned
  have hshort := h.short
  rw [w.scanned_eq] at hscanned
  have hreturned : ∀ p < w.taken, w.filled.length ≤ p + w.rx.cfg.count →
      (w.slot p).own = true := by
    intro p hp hlen
    have hslot : w.slot p = w.slot (p + w.rx.cfg.count) := by
      rw [RxWorld.slot, RxWorld.slot, Nat.add_mod_right]
    rw [hslot]
    exact h.dma _ hlen (by omega)
  refine ⟨⟨?_, ?_⟩, hreturned, fun i hi => ⟨fun hown => ?_, ?_⟩, fun hcur => ?_⟩
  · rw [h.completed_eq]
    exact List.prefix_append _ _
  · have hsegs := completedFrames_segs w.rx.cfg (w.filled.take w.scanned) 0 0
    have hopen : openFrom 0 (w.filled.take w.scanned) = w.rx.info.segCount := h.open_scanned
    rw [h.reported, hopen, List.length_take, Nat.min_eq_left h.scanned, w.scanned_eq] at hsegs
    omega
  · obtain ⟨p, hp, hpN, rfl⟩ := Ring.exists_pos w.taken hi
    rcases Nat.lt_or_ge p w.filled.length with hlt | hge
    · exact ⟨p, hp, hlt, rfl⟩
    · exact absurd (h.dma p hge hpN) (by rw [RxWorld.slot, hown]; exact Bool.noConfusion)
  · rintro ⟨p, hp, hlt, rfl⟩
    exact (h.cpu p _ hp (List.getElem?_eq_getElem hlt)).1
  · -- fewer segments than the ring has descriptors are scanned and not taken
    have hle : w.rx.info.segCount < w.rx.cfg.count := by
      rcases Nat.lt_or_ge w.rx.info.segCount w.rx.cfg.count with hlt | hge
      · exact hlt
      · have hwindow := h.window
        have hopen := h.open_scanned
        have hall : w.scanned = w.filled.length := by
          rw [w.scanned_eq]
          omega
        rw [hall, List.take_length] at hopen
        omega
    rw [h.cur, w.scanned_eq] at hcur
    have hpos := Ring.pos_inj (Nat.le_add_right _ _) (by omega) (Nat.le_refl _)
      (Nat.lt_add_of_pos_right h.count_pos) hcur
    omega

/-! ## One call -/

/-- A call that delivers what it finds does as the caller of the scanner should: it returns nothing
where no frame is complete, and else the oldest frame copied into the chain. -/
theorem RxInv.rtHpmEthRx_spec {w : RxWorld} (h : RxInv w) {pbufAlloc : Option (List Nat)}
    (hok : w.Delivers (.rx pbufAlloc)) : ∃ ls frame r pbufs rx,
      enetGetReceivedFrameInterrupt w.rx w.rx.cfg.count = some (frame, r) ∧
      w.ScanOutcome ls frame r ∧ RxInv (w.take frame r) ∧
      rtHpmEthRx w.rx pbufAlloc = some (pbufs, rx) ∧ w.finish frame r rx = w.take frame r ∧
      pbufs.isSome = frame.rxDesc.isSome ∧ ∀ out ∈ pbufs, ∃ f rest i lens,
        w.pending = f :: rest ∧ frame = f.frame ∧ f.frame.rxDesc = some i ∧
        pbufAlloc = some lens ∧ 0 < f.frame.length ∧ f.frame.length < 2 ^ 16 ∧
        out = ⟨lens, ethRxCopyChain w.rx.tab ⟨i, f.frame.buffer, 0⟩ lens⟩ := by
  obtain ⟨ls, frame, r, hscan, hout, hinv⟩ := h.scanLoop _ w h.enough
  have hcases := hout
  unfold RxWorld.ScanOutcome at hcases
  unfold rtHpmEthRx
  rw [enetGetReceivedFrameInterrupt, hscan]
  cases hp : w.pending with
  | nil =>
    rw [hp] at hcases
    obtain ⟨rfl, rfl⟩ := hcases
    refine ⟨ls, _, _, none, _, rfl, hout, hinv, rfl, rfl, rfl, fun out hsome => ?_⟩
    cases hsome
  | cons f rest =>
    rw [hp] at hcases
    obtain ⟨rfl, rfl⟩ := hcases
    obtain ⟨hlen, halloc⟩ := hok f (by rw [hp]; rfl)
    have hmem : f ∈ w.pending := by
      rw [hp]
      exact List.mem_cons_self
    obtain ⟨pos, segs, fl, rfl⟩ := completedFrames_mem _ _ _ _ f (List.mem_of_mem_drop hmem)
    obtain ⟨lens, rfl⟩ := Option.isSome_iff_exists.mp halloc
    have hfl : fl.toNat < 2 ^ 14 := fl.isLt
    have hlt : (rxReport w.rx.cfg pos segs fl).frame.length < 2 ^ 16 := by
      change fl.toNat - 4 < 2 ^ 16
      omega
    simp only [Option.bind_some, Nat.mod_eq_of_lt hlt, if_pos hlen]
    refine ⟨ls, _, _, _, _, rfl, hout, hinv, rfl, rfl, rfl, fun out hsome => ?_⟩
    exact ⟨_, rest, _, lens, rfl, rfl, rfl, rfl, hlen, hlt, (Option.some.inj hsome).symm⟩

/-- A call that delivers what it finds, or finds nothing, keeps the ring right. -/
theorem RxInv.eth_step {w w' : RxWorld} {a : EthRxAct} (h : RxInv w) (hok : w.Delivers a)
    (hstep : w.ethStep a = some w') : RxInv w' := by
  cases a with
  | dma ls fl => exact h.dma_step hstep
  | rx pbufAlloc =>
    obtain ⟨ls, frame, r, pbufs, rx, hscan, -, hinv, hrx, hfinish, -⟩ := h.rtHpmEthRx_spec hok
    rw [RxWorld.ethStep, hrx, hscan] at hstep
    cases hstep
    rw [← hfinish] at hinv
    exact hinv

/-! ## Runs that deliver, and one that does not -/

/-- While every call delivers what it finds, no descriptor is lost.

The invariant of the ring says which descriptors hold segments, which belong to the DMA and where
the cursor is.  A call that delivers gives back as many descriptors as the scan counted, which are
those of the frame.  A call that returns early leaves them where they are, behind the cursor, and
nothing comes back for them: that is why the condition cannot be dropped. -/
theorem rtHpmEthRx_conserves (r : EnetRx) (acts : List EthRxAct) {w : RxWorld}
    (hpos : 0 < r.cfg.count) (hlt : r.cfg.count < 2 ^ 32) (hseg : r.info.segCount = 0)
    (hdelivers : Along RxWorld.ethStep RxWorld.Delivers (RxWorld.start r) acts)
    (hrun : run RxWorld.ethStep (RxWorld.start r) acts = some w) : RxConserved w :=
  (run_invariant_along (fun _ _ _ h hok hstep => RxInv.eth_step h hok hstep) acts _ w
    (RxInv.start r hpos hlt hseg) hdelivers hrun).conserved

/-- A frame of two segments and one of one segment around a ring of two descriptors,
with a call in mid-frame whose allocation would fail. -/
theorem rtHpmEthRx_conserves_wrapped : ∃ w,
    run RxWorld.ethStep (RxWorld.start rxTwoSlots)
      [.dma false 0, .rx none, .dma true 1600, .rx (some [1596]), .dma true 64] = some w ∧
    RxConserved w :=
  ⟨_, rfl, rtHpmEthRx_conserves rxTwoSlots
    [.dma false 0, .rx none, .dma true 1600, .rx (some [1596]), .dma true 64]
    (by decide) (by decide) rfl (by decide) rfl⟩

/-- One frame whose allocation fails keeps its descriptor for good. -/
theorem rtHpmEthRx_leaks : ¬ ∀ (r : EnetRx) (acts : List EthRxAct) (w : RxWorld),
    0 < r.cfg.count → r.cfg.count < 2 ^ 32 → r.info.segCount = 0 →
      run RxWorld.ethStep (RxWorld.start r) acts = some w → RxConserved w := by
  intro h
  have hlost := (h rxTwoSlots [.dma true 64, .rx none] _ (by decide) (by decide) rfl rfl).returned
    0 (by decide) (by decide)
  exact absurd hlost (by decide)

end HpmSdk.Enet
