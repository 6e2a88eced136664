import HpmSdk.Dma.Channels
import HpmSdk.Foundation.Aligned

set_option autoImplicit false

/-!
# DMA: what a channel that is set up transfers

The size of a transfer is checked against the width of the destination and programmed in words of
the source, which may be wider.

The rest of a size that is no multiple of the wider source is not moved, and this is the only way in
which a channel that is set up can miss its size.
-/

namespace HpmSdk.Dma

open HpmSdk.Foundation

/-! ## The contract -/

/-- Addresses, linked-list pointer and size of a channel that is set up. -/
structure DmaSetUp (ch : DmaChannelConfig) (regs : DmaChctrl) : Prop where
  src : 2 ^ ch.srcWidth.toNat ∣ ch.srcAddr.toNat
  dst : 2 ^ ch.dstWidth.toNat ∣ ch.dstAddr.toNat
  linked : 8 ∣ ch.linkedPtr.toNat
  size : regs.transize.toNat * 2 ^ ch.srcWidth.toNat = ch.sizeInByte.toNat
  words : 2 ^ ch.dstWidth.toNat ∣ regs.transize.toNat * 2 ^ ch.srcWidth.toNat

/-- What is asked of a call: on success the channel is set up for exactly the bytes that were
asked for, and a configuration that is rejected changes no register. -/
def DmaSetsUp (ptr : DmaBase) (num : DmaChannel) (ch : DmaChannelConfig)
    (ends : List (DmaChannel × DmaEnd)) : Prop :=
  ((dmaSetupChannel ptr num ch ends).1 = .success →
      DmaSetUp ch ((dmaSetupChannel ptr num ch ends).2.chctrl num)) ∧
    ((dmaSetupChannel ptr num ch ends).1 = .invalidArgument ∨
      (dmaSetupChannel ptr num ch ends).1 = .alignmentError →
        (dmaSetupChannel ptr num ch ends).2 = ptr)

/-! ## The checks -/

section Check

variable {ch : DmaChannelConfig}

theorem dmaBit_toNat {w : Nat} (hw : w ≤ dmaSocTransferWidthMax) : (dmaBit w).toNat = 2 ^ w :=
  toNat_one_shiftLeft (Nat.lt_of_le_of_lt hw (by decide))

/-- The mask below a width tests whether the width divides. -/
theorem and_dmaBit_sub_one (v : BitVec 32) {w : Nat} (hw : w ≤ dmaSocTransferWidthMax) :
    v &&& (dmaBit w - 1) = 0 ↔ 2 ^ w ∣ v.toNat :=
  and_mask_eq_zero_iff_dvd v (Nat.lt_of_le_of_lt hw (by decide))

/-- What the checks of an accepted configuration say. -/
structure DmaChecked (ch : DmaChannelConfig) : Prop where
  srcWidth : ch.srcWidth.toNat ≤ dmaSocTransferWidthMax
  dstWidth : ch.dstWidth.toNat ≤ dmaSocTransferWidthMax
  size : 2 ^ ch.dstWidth.toNat ∣ ch.sizeInByte.toNat
  src : 2 ^ ch.srcWidth.toNat ∣ ch.srcAddr.toNat
  srcBurst : ch.srcAddr &&& ((ch.srcBytes <<< ch.srcBurstSize.toNat) - 1) = 0
  dst : 2 ^ ch.dstWidth.toNat ∣ ch.dstAddr.toNat
  dstBurst : ch.dstAddr &&& ((ch.dstBytes <<< ch.srcBurstSize.toNat) - 1) = 0
  widths : 2 ^ ch.dstWidth.toNat ∣ 2 ^ ch.srcWidth.toNat
  burst : (ch.srcBytes <<< ch.srcBurstSize.toNat) &&& (ch.dstBytes - 1) = 0
  linked : 8 ∣ ch.linkedPtr.toNat

/-- What the checks of a channel let pass: the size is a multiple of the width of the destination
only. -/
theorem dmaCheck_success_iff : ch.check = .success ↔ DmaChecked ch := by
  have hthree : ch.linkedPtr &&& 0x7 = 0 ↔ 2 ^ 3 ∣ ch.linkedPtr.toNat :=
    and_dmaBit_sub_one ch.linkedPtr (w := 3) (by decide)
  constructor
  · intro h
    unfold DmaChannelConfig.check at h
    split at h
    · cases h
    · rename_i hwidths
      split at h
      · cases h
      · rename_i hchecks
        simp only [not_or, not_not, Nat.not_lt] at hwidths hchecks
        obtain ⟨hsize, hsrc, hsrcBurst, hdst, hdstBurst, hboth, hburst, hlinked⟩ := hchecks
        refine ⟨hwidths.2, hwidths.1, (and_dmaBit_sub_one _ hwidths.1).mp hsize,
          (and_dmaBit_sub_one _ hwidths.2).mp hsrc, hsrcBurst,
          (and_dmaBit_sub_one _ hwidths.1).mp hdst, hdstBurst, ?_, hburst, hthree.mp hlinked⟩
        rw [← dmaBit_toNat hwidths.2]
        exact (and_dmaBit_sub_one _ hwidths.1).mp hboth
  · intro h
    unfold DmaChannelConfig.check
    have hboth : ch.srcBytes &&& (ch.dstBytes - 1) = 0 := by
      apply (and_dmaBit_sub_one _ h.dstWidth).mpr
      rw [DmaChannelConfig.srcBytes, dmaBit_toNat h.srcWidth]
      exact h.widths
    rw [if_neg, if_neg]
    · simp only [not_or, not_not]
      exact ⟨(and_dmaBit_sub_one _ h.dstWidth).mpr h.size,
        (and_dmaBit_sub_one _ h.srcWidth).mpr h.src, h.srcBurst,
        (and_dmaBit_sub_one _ h.dstWidth).mpr h.dst, h.dstBurst, hboth, h.burst,
        hthree.mpr h.linked⟩
    · simp only [not_or, Nat.not_lt]
      exact ⟨h.dstWidth, h.srcWidth⟩

end Check

/-! ## One call -/

theorem chctrl_finishAll (ptr : DmaBase) (ends : List (DmaChannel × DmaEnd)) :
    (ptr.finishAll ends).chctrl = ptr.chctrl := by
  unfold DmaBase.finishAll
  induction ends generalizing ptr with
  | nil => rfl
  | cons e ends ih =>
    rw [List.foldl_cons, ih]
    unfold DmaBase.finish
    split <;> rfl

section Call

variable {ch : DmaChannelConfig}

/-- The registers of a channel that is accepted. -/
theorem dmaSetupChannel_chctrl (hcheck : ch.check = .success) (ptr : DmaBase) (num : DmaChannel)
    (ends : List (DmaChannel × DmaEnd)) :
    (dmaSetupChannel ptr num ch ends).2.chctrl = Function.update ptr.chctrl num {
      ctrl := ch.ctrl num
      transize := ch.sizeInByte >>> ch.srcWidth.toNat
      srcaddr := ch.srcAddr
      dstaddr := ch.dstAddr
      llpointer := (⟨3, 29⟩ : RegField).set (ch.linkedPtr >>> 3) } := by
  unfold dmaSetupChannel
  rw [if_neg (not_not.mpr hcheck)]
  exact chctrl_finishAll _ _

/-- A channel that is accepted runs, as long as the hardware does nothing. -/
theorem dmaSetupChannel_success (hcheck : ch.check = .success) (ptr : DmaBase)
    (num : DmaChannel) : (dmaSetupChannel ptr num ch []).1 = .success := by
  unfold dmaSetupChannel
  rw [if_neg (not_not.mpr hcheck)]
  have hnum : num.val < 32 := Nat.lt_trans num.isLt (by decide)
  have hrun : ((dmaSetupWrites ptr num ch).finishAll []).Running num := by
    change (ptr.chen ||| dmaBit num).getLsbD num = true
    rw [BitVec.getLsbD_or, dmaBit, show 1#32 <<< num.val = (1 : BitVec 32) <<< num.val from rfl,
      getLsbD_one_shiftLeft hnum, decide_eq_true rfl, Bool.or_true]
  have hchen : ((dmaSetupWrites ptr num ch).finishAll []).chen ≠ 0 := by
    intro hzero
    unfold DmaBase.Running at hrun
    rw [hzero] at hrun
    exact Bool.false_ne_true ((BitVec.getLsbD_zero).symm.trans hrun)
  exact if_neg (not_or.mpr ⟨hchen, not_not.mpr hrun⟩)

/-- The size of a channel is exactly that of the request where it is a number of source words. -/
theorem dmaTransize_iff :
    (ch.sizeInByte >>> ch.srcWidth.toNat).toNat * 2 ^ ch.srcWidth.toNat = ch.sizeInByte.toNat ↔
      2 ^ ch.srcWidth.toNat ∣ ch.sizeInByte.toNat := by
  rw [BitVec.toNat_ushiftRight, Nat.shiftRight_eq_div_pow]
  constructor
  · intro h
    exact Dvd.intro_left _ h
  · intro h
    exact Nat.div_mul_cancel h

/-- A size that is a multiple of the width of the source is programmed without a rest. -/
theorem dmaSetsUp_of_dvd
    (h : ch.check = .success → 2 ^ ch.srcWidth.toNat ∣ ch.sizeInByte.toNat) (ptr : DmaBase)
    (num : DmaChannel) (ends : List (DmaChannel × DmaEnd)) : DmaSetsUp ptr num ch ends := by
  by_cases hcheck : ch.check = .success
  · have hchecked := dmaCheck_success_iff.mp hcheck
    have hregs := congrFun (dmaSetupChannel_chctrl hcheck ptr num ends) num
    rw [Function.update_self] at hregs
    have hsize := dmaTransize_iff.mpr (h hcheck)
    constructor
    · intro _
      rw [hregs]
      exact ⟨hchecked.src, hchecked.dst, hchecked.linked, hsize, hsize ▸ hchecked.size⟩
    · intro hstat
      unfold dmaSetupChannel at hstat
      rw [if_neg (not_not.mpr hcheck)] at hstat
      dsimp only at hstat
      split at hstat <;> rcases hstat with hstat | hstat <;> cases hstat
  · have hrejected : dmaSetupChannel ptr num ch ends = (ch.check, ptr) := if_pos hcheck
    unfold DmaSetsUp
    rw [hrejected]
    exact ⟨fun hstat => absurd hstat hcheck, fun _ => rfl⟩

/-- A channel is always set up for exactly the bytes that were asked for if and only if the size
of an accepted configuration is a number of source words.

The size that is programmed counts words of the source and is the size in bytes shifted by its
width, so it is exact for a multiple of that width.  The checks ask for a multiple of the
destination's width only, and let the source's be the wider one. -/
theorem dmaSetsUp_iff (ch : DmaChannelConfig) :
    (∀ ptr num ends, DmaSetsUp ptr num ch ends) ↔
      (ch.check = .success → 2 ^ ch.srcWidth.toNat ∣ ch.sizeInByte.toNat) := by
  refine ⟨?_, dmaSetsUp_of_dvd⟩
  intro h hcheck
  let ptr : DmaBase := ⟨0, 0, fun _ => ⟨0, 0, 0, 0, 0⟩, []⟩
  have hset := (h ptr ⟨0, by decide⟩ []).1 (dmaSetupChannel_success hcheck _ _)
  have hsize := hset.size
  rw [congrFun (dmaSetupChannel_chctrl hcheck _ _ _) _, Function.update_self] at hsize
  exact dmaTransize_iff.mp hsize

end Call

/-- Five bytes are read as words and written as bytes: one word is programmed. -/
theorem dmaSetsUp_words : ¬ ∀ (ch : DmaChannelConfig) (ptr : DmaBase) (num : DmaChannel)
    (ends : List (DmaChannel × DmaEnd)), DmaSetsUp ptr num ch ends := by
  intro h
  have hset := (h ⟨0, 0, 0, 2, 0, 0, 0, 0, 0x80000, 0x90000, 0, 5⟩
    ⟨0, 0, fun _ => ⟨0, 0, 0, 0, 0⟩, []⟩ ⟨0, by decide⟩ []).1 (by decide)
  have hsize := hset.size
  revert hsize
  decide

end HpmSdk.Dma
