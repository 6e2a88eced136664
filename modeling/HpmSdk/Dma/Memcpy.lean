import HpmSdk.Dma.SetupSizes

set_option autoImplicit false

/-!
# DMA: the copy that `dma_start_memcpy` programs

The burst length is a power of two to which addresses and size are aligned; it is split into a
width and a number of words, and the checks of `dma_setup_channel` all follow.

`DmaMemcpyChecked` has what the checks establish, and everything else is read off it.  The addresses
that the channel moves are unfolded by the width and the number of words, and come out byte by byte.
-/

namespace HpmSdk.Dma

open HpmSdk.Foundation

/-! ## The request -/

/-- `DMA_NUM_TRANSFER_PER_BURST_1024T`, the largest exponent of a burst. -/
def dmaNumTransferPerBurst1024t : Nat := 10

/-- `do { .. burst_size--; } while (burst_size > 0)`, with a signed exponent. -/
def dmaMemcpyBurstLoop (src : BitVec 32) (width : Nat) (burstSize : Int) : Int :=
  if src &&& ((dmaBit width <<< burstSize.toNat) - 1) = 0 then burstSize
  else if 0 < burstSize - 1 then dmaMemcpyBurstLoop src width (burstSize - 1)
  else burstSize - 1
termination_by burstSize.toNat
decreasing_by omega

/-- `dma_default_channel_config`. -/
def dmaDefaultChannelConfig (ch : DmaChannelConfig) : DmaChannelConfig :=
  { ch with
    priority := 0
    dmaMode := 0
    srcBurstSize := 0
    srcAddrCtrl := 0
    dstAddrCtrl := 0
    interruptMask := 0
    linkedPtr := 0 }

/-- `dma_start_memcpy` up to the call of `dma_setup_channel`. -/
def dmaMemcpyRequest (dst src size burstLenInByte : BitVec 32) :
    Except DmaStat DmaChannelConfig :=
  let config := dmaDefaultChannelConfig ⟨0, 0, 0, 0, 0, 0, 0, 0, 0, 0, 0, 0⟩
  if burstLenInByte = 0 ∨ burstLenInByte = 1 ∨ size < burstLenInByte ∨
      dmaBit dmaSocTransferWidthMax <<< dmaNumTransferPerBurst1024t < burstLenInByte then
    .error .invalidArgument
  else
    let count := countSetBits burstLenInByte
    if 1 < count ∨ burstLenInByte &&& 0x1 ≠ 0 then .error .invalidArgument
    else if size &&& (burstLenInByte - 1) ≠ 0 ∨ dst &&& (burstLenInByte - 1) ≠ 0 ∨
        src &&& (burstLenInByte - 1) ≠ 0 then .error .alignmentError
    else
      let burstSize : Int := getFirstSetBitFromLsb burstLenInByte
      let width := dmaMemcpyWidth dst src size burstLenInByte
      let burstSize := dmaMemcpyBurstLoop src width (burstSize - width)
      .ok { config with
        srcWidth := BitVec.ofNat 8 width
        dstWidth := BitVec.ofNat 8 width
        srcAddr := src
        dstAddr := dst
        sizeInByte := size
        srcBurstSize := BitVec.ofInt 8 burstSize }

/-! ## What a channel moves -/

/-- How an address goes on behind a word, as `SRCADDRCTRL` and `DSTADDRCTRL` give it. -/
inductive DmaAddrCtrl where
  | increment
  | decrement
  | fixed
  | reserved
  deriving DecidableEq, Repr

/-- The value of a field for an address. -/
def dmaAddrCtrl (code : BitVec 32) : DmaAddrCtrl :=
  if code = 0 then .increment
  else if code = 1 then .decrement
  else if code = 2 then .fixed
  else .reserved

/-- The address of byte `k` of a transfer in words of so many bytes. -/
def dmaByteAddress (addrCtrl : DmaAddrCtrl) (base : BitVec 32) (bytes k : Nat) :
    Option (BitVec 32) :=
  match addrCtrl with
  | .increment => some (base + BitVec.ofNat 32 k)
  | .decrement => some (base - BitVec.ofNat 32 (k / bytes * bytes) + BitVec.ofNat 32 (k % bytes))
  | .fixed => some (base + BitVec.ofNat 32 (k % bytes))
  | .reserved => none

/-- The bytes that a channel moves, each with the address that it is read from and the address
that it is written to: `TRANSIZE` words of the source. -/
def dmaMoves (regs : DmaChctrl) : List (Option (BitVec 32) × Option (BitVec 32)) :=
  let srcBytes := 2 ^ ((⟨21, 3⟩ : RegField).get regs.ctrl).toNat
  let dstBytes := 2 ^ ((⟨18, 3⟩ : RegField).get regs.ctrl).toNat
  let srcCtrl := dmaAddrCtrl ((⟨14, 2⟩ : RegField).get regs.ctrl)
  let dstCtrl := dmaAddrCtrl ((⟨12, 2⟩ : RegField).get regs.ctrl)
  (List.range (regs.transize.toNat * srcBytes)).map fun k =>
    (dmaByteAddress srcCtrl regs.srcaddr srcBytes k, dmaByteAddress dstCtrl regs.dstaddr dstBytes k)

/-! ## The burst length -/

/-- A word with one bit at most has all its bits in one place. -/
theorem countSetBits_le_one {v : BitVec 32} (h : ¬ 1 < countSetBits v) {i j : Nat}
    (hi : v.getLsbD i = true) (hj : v.getLsbD j = true) : i = j := by
  have hlt : ∀ b, v.getLsbD b = true → b < 32 := by
    intro b hb
    by_contra hge
    rw [BitVec.getLsbD_of_ge v b (Nat.not_lt.mp hge)] at hb
    cases hb
  have hmem : ∀ b, v.getLsbD b = true → b ∈ (List.range 32).filter fun i => v.getLsbD i := by
    intro b hb
    exact List.mem_filter.mpr ⟨List.mem_range.mpr (hlt b hb), hb⟩
  unfold countSetBits at h
  have hi' := hmem i hi
  have hj' := hmem j hj
  generalize (List.range 32).filter (fun i => v.getLsbD i) = bits at h hi' hj'
  match bits, h, hi', hj' with
  | [b], _, hi', hj' => rw [List.mem_singleton.mp hi', List.mem_singleton.mp hj']
  | _ :: _ :: _, h, _, _ =>
    simp only [List.length_cons] at h
    omega

/-- A number with one bit is a power of two, and the first bit is its exponent. -/
theorem exists_eq_dmaBit {v : BitVec 32} (h0 : v ≠ 0) (hone : ¬ 1 < countSetBits v) :
    ∃ i, i < 32 ∧ v = dmaBit i ∧ getFirstSetBitFromLsb v = i := by
  have hbit : ∃ i, i < 32 ∧ v.getLsbD i = true := by
    by_contra hnone
    refine h0 (BitVec.eq_of_getLsbD_eq ?_)
    intro i hi
    change v.getLsbD i = (0#32).getLsbD i
    rw [BitVec.getLsbD_zero]
    exact Bool.eq_false_iff.mpr fun hv => hnone ⟨i, hi, hv⟩
  obtain ⟨i, hi, hv⟩ := hbit
  refine ⟨i, hi, ?_, ?_⟩
  · refine BitVec.eq_of_getLsbD_eq ?_
    intro j _
    rw [dmaBit, show 1#32 <<< i = (1 : BitVec 32) <<< i from rfl, getLsbD_one_shiftLeft hi]
    by_cases hij : i = j
    · rw [← hij, hv, decide_eq_true rfl]
    · rw [decide_eq_false hij]
      exact Bool.eq_false_iff.mpr fun hj => hij (countSetBits_le_one hone hv hj)
  · unfold getFirstSetBitFromLsb
    cases hfind : (List.range 32).find? fun i => v.getLsbD i with
    | none => exact absurd hv (List.find?_eq_none.mp hfind i (List.mem_range.mpr hi))
    | some j => exact countSetBits_le_one hone (List.find?_some hfind) hv

/-! ## The width and the burst -/

/-- What the checks of `dma_start_memcpy` say: a burst is `2 ^ i` bytes long. -/
structure DmaMemcpyChecked (dst src size burstLen : BitVec 32) (i : Nat) : Prop where
  pos : 1 ≤ i
  le : i ≤ 13
  eq : burstLen = dmaBit i
  first : getFirstSetBitFromLsb burstLen = i
  size_ge : ¬ size < burstLen
  size : 2 ^ i ∣ size.toNat
  dst : 2 ^ i ∣ dst.toNat
  src : 2 ^ i ∣ src.toNat

/-- The width of a copy in bursts of `2 ^ i` bytes. -/
def dmaWidthOf (i : Nat) : Nat := min i dmaSocTransferWidthMax

section Request

variable {dst src size burstLen : BitVec 32} {i : Nat}

theorem and_dmaBit_sub_one_of_lt (v : BitVec 32) {w : Nat} (hw : w < 32) :
    v &&& (dmaBit w - 1) = 0 ↔ 2 ^ w ∣ v.toNat := and_mask_eq_zero_iff_dvd v hw

/-- The checks, passed or not. -/
theorem dmaMemcpyChecked_of (hlen : ¬ (burstLen = 0 ∨ burstLen = 1 ∨ size < burstLen ∨
      0x2000 < burstLen))
    (hone : ¬ (1 < countSetBits burstLen ∨ burstLen &&& 1 ≠ 0))
    (halign : ¬ (size &&& (burstLen - 1) ≠ 0 ∨ dst &&& (burstLen - 1) ≠ 0 ∨
      src &&& (burstLen - 1) ≠ 0)) : ∃ i, DmaMemcpyChecked dst src size burstLen i := by
  simp only [not_or, not_not] at hlen hone halign
  obtain ⟨i, hi, heq, hfirst⟩ := exists_eq_dmaBit hlen.1 hone.1
  have hle : i ≤ 13 := by
    by_contra hgt
    have hpow : 2 ^ 14 ≤ 2 ^ i := Nat.pow_le_pow_right Nat.two_pos (by omega)
    have hmax : ¬ 0x2000 < burstLen.toNat := hlen.2.2.2
    rw [heq, dmaBit, toNat_one_shiftLeft hi] at hmax
    omega
  have hpos : 1 ≤ i := by
    rcases Nat.eq_zero_or_pos i with hzero | hpos
    · rw [hzero] at heq
      exact absurd heq hlen.2.1
    · exact hpos
  obtain ⟨hsize, hdst, hsrc⟩ := halign
  rw [heq] at hsize hdst hsrc
  exact ⟨i, hpos, hle, heq, hfirst, hlen.2.2.1, (and_dmaBit_sub_one_of_lt _ hi).mp hsize,
    (and_dmaBit_sub_one_of_lt _ hi).mp hdst, (and_dmaBit_sub_one_of_lt _ hi).mp hsrc⟩

namespace DmaMemcpyChecked

theorem lt (h : DmaMemcpyChecked dst src size burstLen i) : i < 32 :=
  Nat.lt_of_le_of_lt h.le (by decide)

theorem toNat (h : DmaMemcpyChecked dst src size burstLen i) : burstLen.toNat = 2 ^ i := by
  rw [h.eq]
  exact toNat_one_shiftLeft h.lt

/-- The alignment that the loop over the widths asks for is that of the burst length. -/
theorem aligned_iff (h : DmaMemcpyChecked dst src size burstLen i) {w : Nat} (hw : w < 32) :
    (burstLen &&& (dmaBit w - 1) = 0 ∧ dst &&& (dmaBit w - 1) = 0 ∧ src &&& (dmaBit w - 1) = 0 ∧
      size &&& (dmaBit w - 1) = 0) ↔ w ≤ i := by
  rw [and_dmaBit_sub_one_of_lt _ hw, and_dmaBit_sub_one_of_lt _ hw, and_dmaBit_sub_one_of_lt _ hw,
    and_dmaBit_sub_one_of_lt _ hw, h.toNat]
  constructor
  · intro hall
    exact (Nat.pow_dvd_pow_iff_le_right Nat.one_lt_two).mp hall.1
  · intro hle
    have hpow : 2 ^ w ∣ 2 ^ i := Nat.pow_dvd_pow 2 hle
    exact ⟨hpow, hpow.trans h.dst, hpow.trans h.src, hpow.trans h.size⟩

/-- The width is the burst length, or the widest transfer where that is less. -/
theorem width_eq (h : DmaMemcpyChecked dst src size burstLen i) :
    dmaMemcpyWidth dst src size burstLen = dmaWidthOf i := by
  have hpos := h.pos
  have hthree := h.aligned_iff (w := 3) (by decide)
  have htwo := h.aligned_iff (w := 2) (by decide)
  unfold dmaMemcpyWidth dmaWidthOf dmaSocTransferWidthMax
  simp only [List.find?_cons, List.find?_nil, hthree, htwo]
  by_cases h3 : 3 ≤ i
  · rw [decide_eq_true h3, Nat.min_eq_right h3]
    rfl
  · rw [decide_eq_false h3]
    by_cases h2 : 2 ≤ i
    · rw [decide_eq_true h2]
      change 2 = min i 3
      omega
    · rw [decide_eq_false h2]
      change 1 = min i 3
      omega

theorem dmaWidthOf_le (i : Nat) : dmaWidthOf i ≤ i := Nat.min_le_left _ _

/-- A burst of words is the burst that was asked for. -/
theorem dmaBit_shiftLeft (i : Nat) : dmaBit (dmaWidthOf i) <<< (i - dmaWidthOf i) = dmaBit i := by
  unfold dmaBit
  rw [← BitVec.shiftLeft_add, Nat.add_sub_cancel' (dmaWidthOf_le i)]

/-- The source is aligned to the burst, so the check of the channel lets it pass. -/
theorem src_burst (h : DmaMemcpyChecked dst src size burstLen i) :
    src &&& ((dmaBit (dmaWidthOf i) <<< (i - dmaWidthOf i)) - 1) = 0 := by
  rw [dmaBit_shiftLeft]
  exact (and_dmaBit_sub_one_of_lt _ h.lt).mpr h.src

/-- The destination is aligned to the burst as well. -/
theorem dst_burst (h : DmaMemcpyChecked dst src size burstLen i) :
    dst &&& ((dmaBit (dmaWidthOf i) <<< (i - dmaWidthOf i)) - 1) = 0 := by
  rw [dmaBit_shiftLeft]
  exact (and_dmaBit_sub_one_of_lt _ h.lt).mpr h.dst

/-- The loop over the bursts ends at once. -/
theorem burstLoop_eq (h : DmaMemcpyChecked dst src size burstLen i) :
    dmaMemcpyBurstLoop src (dmaWidthOf i) (i - dmaWidthOf i) = ((i - dmaWidthOf i : Nat) : Int) := by
  rw [← Int.ofNat_sub (dmaWidthOf_le i), dmaMemcpyBurstLoop, Int.toNat_natCast]
  exact if_pos h.src_burst

/-- The number of words in a burst is what is left of the burst length. -/
theorem burst_eq (h : DmaMemcpyChecked dst src size burstLen i) :
    dmaMemcpyBurst src (dmaWidthOf i) (i - dmaWidthOf i) = i - dmaWidthOf i := by
  have hburst := h.src_burst
  generalize i - dmaWidthOf i = burst at hburst ⊢
  cases burst with
  | zero => rfl
  | succ burst =>
    unfold dmaMemcpyBurst
    exact if_pos hburst

end DmaMemcpyChecked

/-- The configuration of a copy in bursts of `2 ^ i` bytes. -/
def dmaMemcpyOf (dst src size : BitVec 32) (i : Nat) : DmaChannelConfig where
  priority := 0
  srcBurstSize := BitVec.ofNat 8 (i - dmaWidthOf i)
  dmaMode := 0
  srcWidth := BitVec.ofNat 8 (dmaWidthOf i)
  dstWidth := BitVec.ofNat 8 (dmaWidthOf i)
  srcAddrCtrl := 0
  dstAddrCtrl := 0
  interruptMask := 0
  srcAddr := src
  dstAddr := dst
  linkedPtr := 0
  sizeInByte := size

/-- The two ways to write the request agree. -/
theorem dmaMemcpyRequest_eq_config (dst src size burstLen : BitVec 32) :
    dmaMemcpyRequest dst src size burstLen = dmaMemcpyConfig dst src size burstLen := by
  have hmax : dmaBit dmaSocTransferWidthMax <<< dmaNumTransferPerBurst1024t = 0x2000 := by decide
  unfold dmaMemcpyRequest dmaMemcpyConfig
  rw [hmax]
  dsimp only
  split
  · rfl
  · rename_i hlen
    split
    · rfl
    · rename_i hone
      split
      · rfl
      · rename_i halign
        obtain ⟨i, h⟩ := dmaMemcpyChecked_of hlen hone halign
        rw [h.width_eq, h.first, h.burstLoop_eq, h.burst_eq, BitVec.ofInt_natCast]
        rfl

/-- A request that is not rejected. -/
theorem dmaMemcpyRequest_ok {config : DmaChannelConfig}
    (h : dmaMemcpyRequest dst src size burstLen = .ok config) :
    ∃ i, DmaMemcpyChecked dst src size burstLen i ∧ config = dmaMemcpyOf dst src size i := by
  rw [dmaMemcpyRequest_eq_config] at h
  unfold dmaMemcpyConfig at h
  split at h
  · cases h
  · rename_i hlen
    split at h
    · cases h
    · rename_i hone
      split at h
      · cases h
      · rename_i halign
        obtain ⟨i, hchecked⟩ := dmaMemcpyChecked_of hlen hone halign
        refine ⟨i, hchecked, ?_⟩
        dsimp only at h
        rw [hchecked.width_eq, hchecked.first, hchecked.burst_eq] at h
        exact (Except.ok.inj h).symm

end Request

/-! ## The checks of the channel -/

section Config

variable {dst src size burstLen : BitVec 32} {i : Nat}

theorem dmaWidthOf_le_max (i : Nat) : dmaWidthOf i ≤ dmaSocTransferWidthMax := Nat.min_le_right _ _

theorem dmaMemcpyOf_width (i : Nat) : (BitVec.ofNat 8 (dmaWidthOf i)).toNat = dmaWidthOf i := by
  have hmax : dmaWidthOf i ≤ 3 := dmaWidthOf_le_max i
  rw [BitVec.toNat_ofNat]
  exact Nat.mod_eq_of_lt (by omega)

theorem dmaMemcpyOf_burst (h : DmaMemcpyChecked dst src size burstLen i) :
    (BitVec.ofNat 8 (i - dmaWidthOf i)).toNat = i - dmaWidthOf i := by
  have hle := h.le
  rw [BitVec.toNat_ofNat]
  exact Nat.mod_eq_of_lt (by omega)

/-- A burst has no more words than the field has room for. -/
theorem DmaMemcpyChecked.burst_le (h : DmaMemcpyChecked dst src size burstLen i) :
    i - dmaWidthOf i ≤ dmaNumTransferPerBurst1024t := by
  have hle := h.le
  unfold dmaWidthOf dmaSocTransferWidthMax dmaNumTransferPerBurst1024t
  omega

/-- A copy passes every check of a channel. -/
theorem DmaMemcpyChecked.check (h : DmaMemcpyChecked dst src size burstLen i) :
    (dmaMemcpyOf dst src size i).check = .success := by
  have hwidth := dmaMemcpyOf_width i
  have hburst := dmaMemcpyOf_burst h
  have hmax := dmaWidthOf_le_max i
  have hpow : 2 ^ dmaWidthOf i ∣ 2 ^ i := Nat.pow_dvd_pow 2 (DmaMemcpyChecked.dmaWidthOf_le i)
  apply dmaCheck_success_iff.mpr
  constructor <;>
    simp only [dmaMemcpyOf, DmaChannelConfig.srcBytes, DmaChannelConfig.dstBytes, hwidth, hburst]
  case srcWidth | dstWidth => exact hmax
  case size => exact hpow.trans h.size
  case src => exact hpow.trans h.src
  case srcBurst => exact h.src_burst
  case dst => exact hpow.trans h.dst
  case dstBurst => exact h.dst_burst
  case widths => exact Nat.dvd_refl _
  case burst =>
    rw [DmaMemcpyChecked.dmaBit_shiftLeft, and_dmaBit_sub_one _ hmax, dmaBit,
      toNat_one_shiftLeft h.lt]
    exact hpow
  case linked => exact Nat.dvd_zero _

end Config

/-! ## The bytes -/

/-- The fields of `CTRL` with their values. -/
def dmaCtrlFields (ch : DmaChannelConfig) (num : DmaChannel) : List (RegField × BitVec 32) := [
  (⟨29, 1⟩, ch.priority.setWidth 32),
  (⟨24, 4⟩, ch.srcBurstSize.setWidth 32),
  (⟨21, 3⟩, ch.srcWidth.setWidth 32),
  (⟨18, 3⟩, ch.dstWidth.setWidth 32),
  (⟨17, 1⟩, ch.dmaMode.setWidth 32),
  (⟨14, 2⟩, ch.srcAddrCtrl.setWidth 32),
  (⟨12, 2⟩, ch.dstAddrCtrl.setWidth 32),
  (⟨8, 4⟩, BitVec.ofNat 32 num),
  (⟨0, 1⟩, 1)]

/-- Without masked interrupts the control word is the sum of its fields. -/
theorem dmaCtrl_eq_sets {ch : DmaChannelConfig} (h : ch.interruptMask = 0) (num : DmaChannel) :
    ch.ctrl num = RegField.sets (dmaCtrlFields ch num) := by
  have hmask : ch.interruptMask.setWidth 32 = 0#32 := by
    rw [h]
    decide
  have henable : (⟨0, 1⟩ : RegField).mask 32 = (⟨0, 1⟩ : RegField).set 1 := by decide
  unfold DmaChannelConfig.ctrl dmaCtrlFields
  simp only [RegField.sets, hmask, henable, BitVec.or_zero, BitVec.or_assoc]

/-- The fields of the control word do not overlap. -/
theorem dmaCtrlFields_apart (ch : DmaChannelConfig) (num : DmaChannel) :
    ((dmaCtrlFields ch num).map Prod.fst).Pairwise RegField.Apart :=
  show List.Pairwise RegField.Apart
    [⟨29, 1⟩, ⟨24, 4⟩, ⟨21, 3⟩, ⟨18, 3⟩, ⟨17, 1⟩, ⟨14, 2⟩, ⟨12, 2⟩, ⟨8, 4⟩, ⟨0, 1⟩] by decide

section Ctrl

variable {ch : DmaChannelConfig} {f : RegField} {x : BitVec 32}

/-- Reading a field of `CTRL` that holds its value. -/
theorem get_dmaCtrl (h : ch.interruptMask = 0) (num : DmaChannel)
    (hmem : (f, x) ∈ dmaCtrlFields ch num) (hf : f.first + f.width ≤ 32)
    (hx : x.toNat < 2 ^ f.width) : f.get (ch.ctrl num) = x := by
  rw [dmaCtrl_eq_sets h num]
  exact RegField.get_sets_of_lt (dmaCtrlFields_apart ch num) hmem hf hx

end Ctrl

/-- What is asked of a request for a copy that is accepted. -/
structure DmaMemcpyCopies (dst src size burstLen : BitVec 32) (config : DmaChannelConfig) :
    Prop where
  check : config.check = .success
  burst : config.srcBurstSize.toNat ≤ dmaNumTransferPerBurst1024t
  bytes : 2 ^ config.srcWidth.toNat * 2 ^ config.srcBurstSize.toNat ≤ burstLen.toNat
  moves : ∀ ptr num ends, dmaMoves ((dmaSetupChannel ptr num config ends).2.chctrl num) =
    (List.range size.toNat).map fun k =>
      (some (src + BitVec.ofNat 32 k), some (dst + BitVec.ofNat 32 k))

section Copies

variable {dst src size burstLen : BitVec 32} {i : Nat}

/-- The channel moves byte `k` of the source to byte `k` of the destination. -/
theorem DmaMemcpyChecked.moves (h : DmaMemcpyChecked dst src size burstLen i) (ptr : DmaBase)
    (num : DmaChannel) (ends : List (DmaChannel × DmaEnd)) :
    dmaMoves ((dmaSetupChannel ptr num (dmaMemcpyOf dst src size i) ends).2.chctrl num) =
      (List.range size.toNat).map fun k =>
        (some (src + BitVec.ofNat 32 k), some (dst + BitVec.ofNat 32 k)) := by
  have hmax := dmaWidthOf_le_max i
  have hwidth : ((BitVec.ofNat 8 (dmaWidthOf i)).setWidth 32).toNat = dmaWidthOf i := by
    rw [BitVec.toNat_setWidth, dmaMemcpyOf_width]
    exact Nat.mod_eq_of_lt (Nat.lt_of_le_of_lt hmax (by decide))
  have hlt : ((BitVec.ofNat 8 (dmaWidthOf i)).setWidth 32).toNat < 2 ^ 3 := by
    rw [hwidth]
    exact Nat.lt_of_le_of_lt hmax (by decide)
  have hsrcWidth : (⟨21, 3⟩ : RegField).get ((dmaMemcpyOf dst src size i).ctrl num) =
      (BitVec.ofNat 8 (dmaWidthOf i)).setWidth 32 :=
    get_dmaCtrl rfl num (by simp [dmaCtrlFields, dmaMemcpyOf]) (by decide) hlt
  have hsrcCtrl : (⟨14, 2⟩ : RegField).get ((dmaMemcpyOf dst src size i).ctrl num) = 0 :=
    get_dmaCtrl rfl num (by simp [dmaCtrlFields, dmaMemcpyOf]) (by decide) (by decide)
  have hdstCtrl : (⟨12, 2⟩ : RegField).get ((dmaMemcpyOf dst src size i).ctrl num) = 0 :=
    get_dmaCtrl rfl num (by simp [dmaCtrlFields, dmaMemcpyOf]) (by decide) (by decide)
  have hsize : (size >>> dmaWidthOf i).toNat * 2 ^ dmaWidthOf i = size.toNat := by
    rw [BitVec.toNat_ushiftRight, Nat.shiftRight_eq_div_pow]
    exact Nat.div_mul_cancel ((Nat.pow_dvd_pow 2 (dmaWidthOf_le i)).trans h.size)
  rw [dmaSetupChannel_chctrl h.check, Function.update_self]
  unfold dmaMoves
  dsimp only
  rw [hsrcWidth, hsrcCtrl, hdstCtrl, hwidth]
  change List.map _ (List.range ((size >>> (BitVec.ofNat 8 (dmaWidthOf i)).toNat).toNat *
    2 ^ dmaWidthOf i)) = _
  rw [dmaMemcpyOf_width, hsize]
  rfl

/-- **A copy that is accepted passes the checks of the channel, its burst is no longer than what
was asked for, and the channel moves exactly the bytes of the request.**

A burst is refused unless it is a power of two that divides both addresses and the size.  Its
exponent is split into that of a word and that of the words of a burst, so the word divides
everything too, which is what the channel's checks ask for, and the words that are programmed are
the whole size. -/
theorem dmaMemcpyRequest_copies {config : DmaChannelConfig}
    (h : dmaMemcpyRequest dst src size burstLen = .ok config) :
    DmaMemcpyCopies dst src size burstLen config := by
  obtain ⟨i, hchecked, rfl⟩ := dmaMemcpyRequest_ok h
  have hburst : (dmaMemcpyOf dst src size i).srcBurstSize.toNat = i - dmaWidthOf i :=
    dmaMemcpyOf_burst hchecked
  have hwidth : (dmaMemcpyOf dst src size i).srcWidth.toNat = dmaWidthOf i := dmaMemcpyOf_width i
  refine ⟨hchecked.check, ?_, ?_, hchecked.moves⟩
  · rw [hburst]
    exact hchecked.burst_le
  · rw [hburst, hwidth, ← Nat.pow_add, hchecked.toNat,
      Nat.add_sub_cancel' (DmaMemcpyChecked.dmaWidthOf_le i)]

end Copies

/-- Four kilobytes in bursts of 16 bytes. -/
theorem dmaMemcpyRequest_copies_bursts : ∃ config,
    dmaMemcpyRequest 0x90000 0x80000 0x1000 16 = .ok config ∧
      DmaMemcpyCopies 0x90000 0x80000 0x1000 16 config := by
  have h : dmaMemcpyRequest 0x90000 0x80000 0x1000 16 =
      .ok ⟨0, 1, 0, 3, 3, 0, 0, 0, 0x80000, 0x90000, 0, 0x1000⟩ :=
    (dmaMemcpyRequest_eq_config _ _ _ _).trans rfl
  exact ⟨_, h, dmaMemcpyRequest_copies h⟩

end HpmSdk.Dma
