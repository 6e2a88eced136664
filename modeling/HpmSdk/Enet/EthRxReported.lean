import HpmSdk.Enet.EthRxCopy

set_option autoImplicit false

/-!
# ENET: the copy of a frame as it is reported

A report of `enet_get_received_frame_interrupt` names a first descriptor, a number of descriptors
from there on and a length.  The frame that it reports are the bytes in the buffers of these
descriptors, as many as the last one counts.  Where every segment but the last fills its buffer,
the frame is one string of bytes that the walk of the copy goes along, so what
`rt_hpm_eth_rx` hands over is that string less its CRC, however the pbufs cut it.
-/

namespace HpmSdk.Enet

open HpmSdk.Foundation

/-! ## The bytes of a frame -/

/-- A buffer holds a segment. -/
def EthRxHolds (mem : Buf) (a : Nat) (seg : List UInt8) : Prop :=
  mem.toList a seg.length = seg

/-- All segments of a frame but the last fill their buffers. -/
def EthRxFilled (segs : List (List UInt8)) : Prop :=
  ∃ part data, segs = part ++ [data] ∧ (∀ seg ∈ part, seg.length = enetRxBuffSize) ∧
    data.length ≤ enetRxBuffSize

/-- Full segments have so many bytes each. -/
theorem length_flatten_of_full : ∀ {part : List (List UInt8)},
    (∀ seg ∈ part, seg.length = enetRxBuffSize) →
      part.flatten.length = part.length * enetRxBuffSize
  | [], _ => by simp
  | seg :: part, h => by
    have hseg : seg.length = enetRxBuffSize := h seg List.mem_cons_self
    have hpart := length_flatten_of_full fun s hs => h s (List.mem_cons_of_mem _ hs)
    rw [List.flatten_cons, List.length_append, List.length_cons, Nat.add_mul, hseg, hpart]
    omega

/-- A frame in filled segments fits into their buffers. -/
theorem EthRxFilled.length_le {segs : List (List UInt8)} (h : EthRxFilled segs) :
    0 < segs.length ∧ segs.flatten.length ≤ segs.length * enetRxBuffSize := by
  obtain ⟨part, data, rfl, hpart, hdata⟩ := h
  rw [List.flatten_append, List.length_append, List.length_append, length_flatten_of_full hpart,
    List.flatten_singleton, List.length_singleton, Nat.add_mul]
  omega

/-- The first segment, then the bytes of the others. -/
theorem ethRxFrameBuf_add (mem : Buf) (buffers : Nat → Nat) (i : Nat) :
    ethRxFrameBuf mem buffers (enetRxBuffSize + i) =
      ethRxFrameBuf mem (fun u => buffers (u + 1)) i := by
  unfold ethRxFrameBuf
  rw [Nat.add_div_left i enetRxBuffSize_pos, Nat.add_mod_left]

/-- Where the buffers hold the segments of a frame, its bytes can be read one after another. -/
theorem ethRxFrameBuf_flatten (mem : Buf) (data : List UInt8)
    (hdata : data.length ≤ enetRxBuffSize) : ∀ (part : List (List UInt8)) (buffers : Nat → Nat),
    (∀ seg ∈ part, seg.length = enetRxBuffSize) →
    (∀ u seg, (part ++ [data])[u]? = some seg → EthRxHolds mem (buffers u) seg) →
      (ethRxFrameBuf mem buffers).toList 0 (part ++ [data]).flatten.length =
        (part ++ [data]).flatten := by
  have hbuffer : ∀ (buffers : Nat → Nat) (seg : List UInt8), seg.length ≤ enetRxBuffSize →
      EthRxHolds mem (buffers 0) seg → (ethRxFrameBuf mem buffers).toList 0 seg.length = seg := by
    intro buffers seg hseg hholds
    refine Eq.trans (Buf.toList_congr ?_) hholds
    intro i hi
    have hzero := ethRxFrameBuf_segment mem buffers (t := 0) (Nat.lt_of_lt_of_le hi hseg)
    rwa [Nat.zero_mul] at hzero
  intro part
  induction part with
  | nil =>
    intro buffers _ hholds
    rw [List.nil_append, List.flatten_singleton]
    exact hbuffer buffers data hdata (hholds 0 data rfl)
  | cons seg part ih =>
    intro buffers hfull hholds
    have hseg : seg.length = enetRxBuffSize := hfull seg List.mem_cons_self
    have hrest := ih (fun u => buffers (u + 1)) (fun s hs => hfull s (List.mem_cons_of_mem _ hs))
      (fun u s hs => hholds (u + 1) s hs)
    rw [List.cons_append, List.flatten_cons, List.length_append, Buf.toList_add,
      hbuffer buffers seg (Nat.le_of_eq hseg) (hholds 0 seg rfl)]
    refine congrArg (seg ++ ·) (Eq.trans (Buf.toList_congr ?_) hrest)
    intro i _
    rw [Nat.zero_add, Nat.zero_add, hseg]
    exact ethRxFrameBuf_add mem buffers i

theorem EthRxFilled.toList {segs : List (List UInt8)} (h : EthRxFilled segs) {mem : Buf}
    {buffers : Nat → Nat}
    (hholds : ∀ u seg, segs[u]? = some seg → EthRxHolds mem (buffers u) seg) {m : Nat}
    (hm : m ≤ segs.flatten.length) :
    (ethRxFrameBuf mem buffers).toList 0 m = segs.flatten.take m := by
  obtain ⟨part, data, rfl, hpart, hdata⟩ := h
  have hall := ethRxFrameBuf_flatten mem data hdata part buffers hpart hholds
  rw [← Nat.add_sub_cancel' hm, Buf.toList_add] at hall
  rw [← hall, List.take_left' (Buf.length_toList _ _ _)]

/-! ## An exact copy -/

/-- The pbufs are a copy of the first `length` bytes of a frame whose segments lie at `buffers`:
whatever the pbufs held, their payloads are these bytes; nothing is written behind the end of a
pbuf, and what is read lies in the buffers of the frame's descriptors. -/
structure EthRxExact (mem : Buf) (buffers : Nat → Nat) (segs : List (List UInt8)) (length : Nat)
    (out : EthRxPbufs) : Prop where
  payloads : ∀ pbufs : List (Nat × Buf), pbufs.map Prod.fst = out.lens →
    ethRxPayloads mem pbufs out.copies = segs.flatten.take length
  writes : EthRxWritesWithin out.lens out.copies
  reads : ∀ cs ∈ out.copies, ∀ c ∈ cs, ∃ u < segs.length,
    buffers u ≤ c.src ∧ c.src + c.len ≤ buffers u + enetRxBuffSize

/-- A chain that is copied from the first descriptor of a frame on, and is no longer than the
frame, is an exact copy. -/
theorem ethRxCopyChain_exact {tab : Nat → EnetRxDesc} {ix : Nat → Nat}
    (hnext : ∀ t, (tab (ix t)).nextDesc = ix (t + 1)) {mem : Buf} {segs : List (List UInt8)}
    (hfilled : EthRxFilled segs)
    (hholds : ∀ u seg, segs[u]? = some seg → EthRxHolds mem (tab (ix u)).buffer1 seg)
    {s : EthRxPos} (hat : EthRxAt tab ix s 0 0) {lens : List Nat}
    (hlens : lens.sum ≤ segs.flatten.length) :
    EthRxExact mem (fun u => (tab (ix u)).buffer1) segs lens.sum
      ⟨lens, ethRxCopyChain tab s lens⟩ := by
  have hspec : ∀ pbufs : List (Nat × Buf), pbufs.map Prod.fst = lens → _ := fun pbufs hpbufs =>
    hpbufs ▸ ethRxCopyChain_spec hnext pbufs s 0 0 hat
  obtain ⟨-, hwrites, hreads⟩ := hspec (lens.map fun len => (len, fun _ => 0))
    (by rw [List.map_map]; exact List.map_id lens)
  obtain ⟨hpos, hle⟩ := hfilled.length_le
  constructor
  case payloads =>
    intro pbufs hpbufs
    exact ((hspec pbufs hpbufs).1 mem).trans (hfilled.toList hholds hlens)
  case writes => exact hwrites
  case reads =>
    intro cs hcs c hc
    obtain ⟨u, hread, hu⟩ := hreads cs hcs c hc
    refine ⟨u, ?_, hread⟩
    rcases hu with rfl | hu
    · exact hpos
    · rw [Nat.zero_add] at hu
      exact Nat.lt_of_mul_lt_mul_right (a := enetRxBuffSize) (by omega)

/-! ## What a scan reports -/

/-- The descriptor that follows `t` times behind the first one. -/
def ethRxDesc (tab : Nat → EnetRxDesc) (first : Nat) : Nat → Nat
  | 0 => first
  | t + 1 => (tab (ethRxDesc tab first t)).nextDesc

/-- A report, in the state that the scan leaves, on a frame given by its segments: they lie in
the buffers of `seg_count` descriptors from the first one on, each but the last fills its
buffer, and the length in the last descriptor counts all bytes of the frame, of which the CRC
is four. -/
structure EthRxReported (mem : Buf) (r : EnetRx) (frame : EnetFrame) (first : Nat)
    (segs : List (List UInt8)) : Prop where
  rxDesc : frame.rxDesc = some first
  segCount : r.info.segCount = segs.length
  filled : EthRxFilled segs
  holds : ∀ u seg, segs[u]? = some seg →
    EthRxHolds mem (r.tab (ethRxDesc r.tab first u)).buffer1 seg
  counted : ∀ l ∈ r.info.lsRxDesc, (r.tab l).fl.toNat = segs.flatten.length
  crc : 4 ≤ segs.flatten.length

/-- What a pass of the scan that ends with a frame leaves. -/
theorem enetScanPass_found {r r' : EnetRx} {frame : EnetFrame} {first : Nat}
    (h : enetScanPass r = .found frame r') (hfirst : frame.rxDesc = some first)
    (hcount : r'.info.segCount ≠ 0) :
    frame.buffer = (r'.tab first).buffer1 ∧
      ∃ l, r'.info.lsRxDesc = some l ∧ frame.length = (r'.tab l).frameLength := by
  unfold enetScanPass at h
  dsimp only at h
  split at h
  · exact nomatch h
  split at h
  · exact nomatch h
  split at h
  · -- a frame of several segments lies where its first descriptor was kept
    split at h
    · exact nomatch h
    · obtain ⟨rfl, rfl⟩ := ScanPass.found.inj h
      obtain rfl := Option.some.inj hfirst
      exact ⟨rfl, r.cur, rfl, rfl⟩
  · rename_i hseveral
    obtain ⟨rfl, rfl⟩ := ScanPass.found.inj h
    have hone : (r.info.segCount + 1) % 2 ^ 32 = 1 := by
      dsimp only at hcount
      omega
    dsimp only at hfirst
    rw [if_pos hone] at hfirst
    obtain rfl := Option.some.inj hfirst
    exact ⟨rfl, r.cur, rfl, rfl⟩

/-- A scan that reports a frame reports the buffer of its first descriptor and the length that
its last descriptor counts. -/
theorem enetScanLoop_found {r' : EnetRx} {frame : EnetFrame} {first : Nat}
    (hfirst : frame.rxDesc = some first) (hcount : r'.info.segCount ≠ 0) :
    ∀ (n : Nat) (r : EnetRx), enetScanLoop r n = some (frame, r') →
      frame.buffer = (r'.tab first).buffer1 ∧
        ∃ l, r'.info.lsRxDesc = some l ∧ frame.length = (r'.tab l).frameLength := by
  intro n
  induction n with
  | zero =>
    intro r h
    obtain ⟨rfl, rfl⟩ := Prod.mk.inj (Option.some.inj h)
    exact nomatch hfirst
  | succ n ih =>
    intro r h
    unfold enetScanLoop at h
    split at h
    · split at h
      · exact ih _ h
      · rename_i found left hpass
        obtain ⟨rfl, rfl⟩ := Prod.mk.inj (Option.some.inj h)
        exact enetScanPass_found hpass hfirst hcount
      · exact nomatch h
    · obtain ⟨rfl, rfl⟩ := Prod.mk.inj (Option.some.inj h)
      exact nomatch hfirst

/-- The length of a report is that of the frame less its CRC. -/
theorem EthRxReported.scanned {mem : Buf} {r r' : EnetRx} {frame : EnetFrame} {first : Nat}
    {segs : List (List UInt8)} (h : EthRxReported mem r' frame first segs)
    (hscan : enetGetReceivedFrameInterrupt r r.cfg.count = some (frame, r')) :
    frame.buffer = (r'.tab first).buffer1 ∧ frame.length = segs.flatten.length - 4 ∧
      frame.length < 2 ^ 16 := by
  have hcount : r'.info.segCount ≠ 0 := by
    have hpos := h.filled.length_le.1
    rw [h.segCount]
    omega
  obtain ⟨hbuffer, l, hlast, hlength⟩ := enetScanLoop_found h.rxDesc hcount _ _ hscan
  have hbytes := h.counted l hlast
  have hcrc := h.crc
  have hfl := (r'.tab l).fl.isLt
  rw [EnetRxDesc.frameLength, hbytes] at hlength
  refine ⟨hbuffer, ?_, ?_⟩ <;> omega

/-! ## What a call hands over -/

/-- Whatever state the ring is in and wherever the scan comes to a report: if every segment of
the reported frame but the last fills its buffer, the call hands over an exact copy of the first
`length` bytes of the frame, for every chain of pbufs of that length.  The bytes of the frame and
the payloads of the chain are two ways to cut one string, and the walk of the copy stays in
step with both. -/
theorem rtHpmEthRx_copies {r r' : EnetRx} {frame : EnetFrame} {mem : Buf} {first : Nat}
    {segs : List (List UInt8)} {pbufAlloc : Option (List Nat)}
    (hscan : enetGetReceivedFrameInterrupt r r.cfg.count = some (frame, r'))
    (hframe : EthRxReported mem r' frame first segs)
    (hlens : ∀ lens ∈ pbufAlloc, lens.sum = frame.length) :
    frame.length = segs.flatten.length - 4 ∧
    ∃ pbufs rx, rtHpmEthRx r pbufAlloc = some (pbufs, rx) ∧
      (pbufs.isSome = true ↔ 0 < frame.length ∧ pbufAlloc.isSome = true) ∧
      ∀ out ∈ pbufs, pbufAlloc = some out.lens ∧
        EthRxExact mem (fun u => (r'.tab (ethRxDesc r'.tab first u)).buffer1) segs frame.length
          out := by
  obtain ⟨hbuffer, hlength, hlt⟩ := hframe.scanned hscan
  refine ⟨hlength, ?_⟩
  unfold rtHpmEthRx
  rw [hscan, Option.bind_some]
  dsimp only
  rw [Nat.mod_eq_of_lt hlt]
  by_cases hpos : 0 < frame.length
  · rw [if_pos hpos]
    cases pbufAlloc with
    | none =>
      refine ⟨none, r', rfl, iff_of_false Bool.false_ne_true fun h => ?_, nofun⟩
      exact Bool.false_ne_true h.2
    | some lens =>
      rw [hframe.rxDesc]
      refine ⟨_, _, rfl, iff_of_true rfl ⟨hpos, rfl⟩, fun out hout => ?_⟩
      obtain rfl := Option.some.inj hout
      have hsum : lens.sum = frame.length := hlens lens rfl
      have hat : EthRxAt r'.tab (ethRxDesc r'.tab first) ⟨first, frame.buffer, 0⟩ 0 0 :=
        ⟨rfl, hbuffer, Nat.zero_le _, (Nat.add_zero _).trans (Nat.zero_mul _)⟩
      have hle : lens.sum ≤ segs.flatten.length := by omega
      have hexact := ethRxCopyChain_exact (fun _ => rfl) hframe.filled hframe.holds hat hle
      rw [hsum] at hexact
      exact ⟨rfl, hexact⟩
  · rw [if_neg hpos]
    exact ⟨none, r', rfl, iff_of_false Bool.false_ne_true fun h => hpos h.1, nofun⟩

/-- A ring of two descriptors that holds a frame of 1600 bytes. -/
def rxTwoSegments : EnetRx :=
  (((RxWorld.start rxTwoSlots).store ⟨true, false, 0⟩).store ⟨false, true, 1600⟩).rx

/-- A memory of different bytes. -/
def rxMemory : Buf := UInt8.ofNat

/-- The frame: the first buffer is full, and the second one holds 72 bytes and the CRC. -/
def rxTwoSegmentsFrame : List (List UInt8) := [rxMemory.toList 4096 1524, rxMemory.toList 5620 76]

theorem length_rxTwoSegmentsFrame : rxTwoSegmentsFrame.flatten.length = 1600 := by
  unfold rxTwoSegmentsFrame
  rw [List.flatten_cons, List.flatten_cons, List.flatten_nil, List.append_nil, List.length_append,
    Buf.length_toList, Buf.length_toList]

theorem rxTwoSegmentsFrame_filled : EthRxFilled rxTwoSegmentsFrame := by
  refine ⟨[rxMemory.toList 4096 1524], rxMemory.toList 5620 76, rfl, fun seg hseg => ?_, ?_⟩
  · rw [List.mem_singleton.mp hseg, Buf.length_toList]
    rfl
  · rw [Buf.length_toList]
    decide

theorem getElem?_pair {α : Type} {x y z : α} : ∀ {u : Nat}, [x, y][u]? = some z →
    u = 0 ∧ z = x ∨ u = 1 ∧ z = y
  | 0, h => Or.inl ⟨rfl, (Option.some.inj h).symm⟩
  | 1, h => Or.inr ⟨rfl, (Option.some.inj h).symm⟩
  | _ + 2, h => nomatch h

theorem rxTwoSegmentsFrame_holds (u : Nat) (seg : List UInt8)
    (h : rxTwoSegmentsFrame[u]? = some seg) :
    EthRxHolds rxMemory (rxTwoSegments.tab (ethRxDesc rxTwoSegments.tab 0 u)).buffer1 seg := by
  have hheld : ∀ a n, EthRxHolds rxMemory a (rxMemory.toList a n) := fun a n => by
    unfold EthRxHolds
    rw [Buf.length_toList]
  have hfirst : (rxTwoSegments.tab (ethRxDesc rxTwoSegments.tab 0 0)).buffer1 = 4096 := rfl
  have hsecond : (rxTwoSegments.tab (ethRxDesc rxTwoSegments.tab 0 1)).buffer1 = 5620 := rfl
  unfold rxTwoSegmentsFrame at h
  rcases getElem?_pair h with ⟨hu, hseg⟩ | ⟨hu, hseg⟩
  · rw [hu, hseg, hfirst]
    exact hheld 4096 1524
  · rw [hu, hseg, hsecond]
    exact hheld 5620 76

/-- What the scan reports of it. -/
theorem rxTwoSegments_scanned : ∃ r',
    enetGetReceivedFrameInterrupt rxTwoSegments 2 = some (⟨1596, 4096, some 0⟩, r') ∧
    r'.tab = rxTwoSegments.tab ∧ r'.info.segCount = 2 ∧ r'.info.lsRxDesc = some 1 :=
  ⟨_, rfl, rfl, rfl, rfl⟩

/-- The frame in a chain of three pbufs, one of which is empty and the last of which reaches over
the end of the first buffer. -/
theorem rtHpmEthRx_copies_two : ∃ pbufs rx,
    rtHpmEthRx rxTwoSegments (some [1000, 0, 596]) = some (pbufs, rx) ∧ pbufs.isSome = true ∧
    ∀ out ∈ pbufs, out.lens = [1000, 0, 596] ∧
      EthRxExact rxMemory (fun u => (rxTwoSegments.tab (ethRxDesc rxTwoSegments.tab 0 u)).buffer1)
        rxTwoSegmentsFrame 1596 out := by
  obtain ⟨r', hscan, htab, hcount, hlast⟩ := rxTwoSegments_scanned
  have hlens : ∀ lens ∈ some [1000, 0, 596], lens.sum = 1596 := fun lens hlens => by
    rw [← Option.some.inj hlens]
    rfl
  have hframe : EthRxReported rxMemory r' ⟨1596, 4096, some 0⟩ 0 rxTwoSegmentsFrame := by
    constructor
    case rxDesc => rfl
    case segCount => exact hcount
    case filled => exact rxTwoSegmentsFrame_filled
    case holds =>
      rw [htab]
      exact rxTwoSegmentsFrame_holds
    case counted =>
      intro l hl
      rw [hlast] at hl
      rw [htab, ← Option.some.inj hl, length_rxTwoSegmentsFrame]
      rfl
    case crc =>
      rw [length_rxTwoSegmentsFrame]
      decide
  obtain ⟨-, pbufs, rx, hcall, hsome, hexact⟩ := rtHpmEthRx_copies hscan hframe hlens
  refine ⟨pbufs, rx, hcall, hsome.mpr (by decide), fun out hout => ?_⟩
  obtain ⟨hout, hcopied⟩ := hexact out hout
  rw [htab] at hcopied
  exact ⟨(Option.some.inj hout).symm, hcopied⟩

end HpmSdk.Enet
