import HpmSdk.Foundation.Aligned
import HpmSdk.Sd.Card

set_option autoImplicit false

/-!
# SD cards: the decoded CSD against the register

The fields of the register at their positions, what the card structure is to hold
after a long response was received and decoded into a cleared structure, and the
registers for which it does.

Every field is first read as a number of the register, by its first bit and its width; what is
computed of the fields can then only go wrong by overflow or by an assignment that is missing.
-/

namespace HpmSdk.Sd

open HpmSdk.Foundation HpmSdk.Sdxc

/-! ## The register -/

/-- The field of `width` bits at bit `first` of the register. -/
def csdField (csd : BitVec 128) (first width : Nat) : Nat := field first width csd.toNat

/-- `CSD_STRUCTURE`: 0 for version 1.0 and 1 for version 2.0. -/
def csdVersion (csd : BitVec 128) : Nat := csdField csd 126 2

/-- The capacity in bytes. -/
def csdCapacity (csd : BitVec 128) : Nat :=
  if csdVersion csd = 0 then
    (csdField csd 62 12 + 1) * 2 ^ (csdField csd 47 3 + 2) * 2 ^ csdField csd 80 4
  else (csdField csd 48 22 + 1) * (512 * 1024)

/-- The rate that `TRAN_SPEED` stands for, in bit/s. -/
def csdMaxFreq (csd : BitVec 128) : Nat :=
  if csdField csd 96 3 < 4 then
    10 ^ (csdField csd 96 3 + 4) * (timeValueList.getD (csdField csd 99 4) 0).toNat
  else 0

/-! ## The contract -/

/-- The fields that both versions have. -/
structure CsdCommon (csd : BitVec 128) (c : SdCsd) : Prop where
  csdStructure : c.csdStructure.toNat = csdVersion csd
  dataReadAccessTime1 : c.dataReadAccessTime1.toNat = csdField csd 112 8
  dataReadAccessTime2 : c.dataReadAccessTime2.toNat = csdField csd 104 8
  transferSpeed : c.transferSpeed.toNat = csdField csd 96 8
  cardCommandClass : c.cardCommandClass.toNat = csdField csd 84 12
  readBlockLen : c.readBlockLen.toNat = csdField csd 80 4
  supportReadBlockPartial : c.supportReadBlockPartial = true ↔ csdField csd 79 1 = 1
  supportWriteBlockMisalignment : c.supportWriteBlockMisalignment = true ↔ csdField csd 78 1 = 1
  supportReadBlockMisalignment : c.supportReadBlockMisalignment = true ↔ csdField csd 77 1 = 1
  isDsrImplemented : c.isDsrImplemented = true ↔ csdField csd 76 1 = 1
  isEraseBlockEnabled : c.isEraseBlockEnabled = true ↔ csdField csd 46 1 = 1
  eraseSectorSize : c.eraseSectorSize.toNat = (csdField csd 39 7 + 1) * 512
  writeProtectGroupSize : c.writeProtectGroupSize.toNat = (csdField csd 32 7 + 1) * 512
  writeSpeedFactor : c.writeSpeedFactor.toNat = csdField csd 26 3
  maxWriteBlockLen : c.maxWriteBlockLen.toNat = 2 ^ csdField csd 22 4
  supportWriteBlockPartial : c.supportWriteBlockPartial = true ↔ csdField csd 21 1 = 1
  supportFileFormatGroup : c.supportFileFormatGroup = true ↔ csdField csd 15 1 = 1
  supportCopy : c.supportCopy = true ↔ csdField csd 14 1 = 1
  supportPermanentWriteProtect : c.supportPermanentWriteProtect = true ↔ csdField csd 13 1 = 1
  supportTemporaryWriteProtect : c.supportTemporaryWriteProtect = true ↔ csdField csd 12 1 = 1
  fileFormat : c.fileFormat.toNat = csdField csd 10 2

/-- The fields of version 1.0. -/
structure CsdV1 (csd : BitVec 128) (c : SdCsd) : Prop where
  deviceSize : c.deviceSize.toNat = csdField csd 62 12
  readCurrentVddMin : c.readCurrentVddMin.toNat = csdField csd 59 3
  readCurrentVddMax : c.readCurrentVddMax.toNat = csdField csd 56 3
  writeCurrentVddMin : c.writeCurrentVddMin.toNat = csdField csd 53 3
  writeCurrentVddMax : c.writeCurrentVddMax.toNat = csdField csd 50 3
  deviceSizeMultiplier : c.deviceSizeMultiplier.toNat = csdField csd 47 3

/-- The fields of version 2.0. -/
structure CsdV2 (csd : BitVec 128) (c : SdCsd) : Prop where
  deviceSize : c.deviceSize.toNat = csdField csd 48 22
  supportSdxc : c.supportSdxc = true ↔ 0xFFFF ≤ csdField csd 48 22

/-- No product of 32 bits wraps on the way to the number of blocks. -/
def CsdFits (csd : BitVec 128) : Prop :=
  if csdVersion csd = 0 then
    (csdField csd 62 12 + 1) * 2 ^ (csdField csd 47 3 + 2) < 2 ^ 32 ∧
      (csdField csd 80 4 ≠ 9 → csdCapacity csd < 2 ^ 32)
  else (csdField csd 48 22 + 1) * 1024 < 2 ^ 32

/-- The number of blocks and the number of bytes are the capacity. -/
structure CsdCapacity (csd : BitVec 128) (card : SdCard) : Prop where
  blocks : card.blockCount.toNat * card.blockSize.toNat = csdCapacity csd
  size : card.cardSizeInBytes.toNat = csdCapacity csd
  fits : CsdFits csd

/-- The card structure holds the register. -/
structure CsdDecoded (csd : BitVec 128) (card : SdCard) : Prop where
  common : CsdCommon csd card.csd
  writeProtectGroupEnabled : card.csd.isWriteProtectionGroupEnabled = true ↔ csdField csd 31 1 = 1
  v1 : csdVersion csd = 0 → CsdV1 csd card.csd
  v2 : csdVersion csd = 1 → CsdV2 csd card.csd
  maxFreq : card.maxFreq.toNat = csdMaxFreq csd
  capacity : CsdCapacity csd card

/-- What `sd_send_csd` leaves in a cleared structure when the response registers
hold the register without its last byte. -/
def sdReceiveCsd (csd : BitVec 128) (autoCmd12 : Bool) : SdCard :=
  sdDecodeCsd SdCard.zero (sdxcReceiveCmdResponse (Words4.ofRegister (csd >>> 8)) autoCmd12
    ⟨.r2, 0, Words4.zero, 0⟩).2.response

/-! ## Reading the register -/

/-- The words that are decoded. -/
def csdWords (csd : BitVec 128) : Words4 := Words4.ofRegister (csd >>> 8 <<< 8)

/-- The response is received without its last byte and moved up, so that decoding sees the register
itself but for that byte. -/
theorem sdReceiveCsd_eq (csd : BitVec 128) (autoCmd12 : Bool) :
    sdReceiveCsd csd autoCmd12 = sdDecodeCsd SdCard.zero (csdWords csd) := by
  unfold sdReceiveCsd
  rw [(sdxcReceiveCmdResponse_r2 csd autoCmd12 rfl).2]
  rfl

section Words

variable (csd : BitVec 128) {first width : Nat}

/-- A field of a word is a field of the register. -/
theorem csdWords_field (k : Nat) (hk : 8 ≤ k + first) (hin : first + width ≤ 32)
    (hword : k + 32 ≤ 128) :
    field first width ((csd >>> 8 <<< 8).extractLsb' k 32).toNat =
      csdField csd (k + first) width := by
  rw [field_extractLsb' k hin, field_cleared 8 hk (by omega)]
  rfl

theorem csdWords_w0 (hk : 8 ≤ first) (hin : first + width ≤ 32) :
    field first width (csdWords csd).w0.toNat = csdField csd first width := by
  have hfield := csdWords_field csd 0 (by omega) hin (by decide)
  rwa [Nat.zero_add] at hfield

theorem csdWords_w1 (hin : first + width ≤ 32) :
    field first width (csdWords csd).w1.toNat = csdField csd (32 + first) width :=
  csdWords_field csd 32 (by omega) hin (by decide)

theorem csdWords_w2 (hin : first + width ≤ 32) :
    field first width (csdWords csd).w2.toNat = csdField csd (64 + first) width :=
  csdWords_field csd 64 (by omega) hin (by decide)

theorem csdWords_w3 (hin : first + width ≤ 32) :
    field first width (csdWords csd).w3.toNat = csdField csd (96 + first) width :=
  csdWords_field csd 96 (by omega) hin (by decide)

end Words

/-! ## The fields that both versions have -/

theorem flag_iff {p : Prop} [Decidable p] : (if p then true else false) = true ↔ p := by
  split
  · rename_i hp
    exact iff_of_true rfl hp
  · rename_i hp
    exact iff_of_false Bool.false_ne_true hp

section Common

variable (csd : BitVec 128)

/-- A flag in the lowest word. -/
theorem flag_w0 (first : Nat) {mask : BitVec 32} (hmask : mask.toNat = fieldMask first 1)
    (hfirst : 8 ≤ first) (hin : first + 1 ≤ 32) :
    (if (((csdWords csd).w0 &&& mask) >>> first).setWidth 8 ≠ (0 : BitVec 8) then true
      else false) = true ↔ csdField csd first 1 = 1 := by
  rw [flag_iff, maskShift_setWidth_ne_zero_iff hmask (by decide), csdWords_w0 csd hfirst hin]

/-- A flag in the second word. -/
theorem flag_w1 (first : Nat) {mask : BitVec 32} (hmask : mask.toNat = fieldMask first 1)
    (hin : first + 1 ≤ 32) :
    (if (((csdWords csd).w1 &&& mask) >>> first).setWidth 8 ≠ (0 : BitVec 8) then true
      else false) = true ↔ csdField csd (32 + first) 1 = 1 := by
  rw [flag_iff, maskShift_setWidth_ne_zero_iff hmask (by decide), csdWords_w1 csd hin]

/-- A flag in the third word. -/
theorem flag_w2 (first : Nat) {mask : BitVec 32} (hmask : mask.toNat = fieldMask first 1)
    (hin : first + 1 ≤ 32) :
    (if (csdWords csd).w2 &&& mask ≠ 0 then true else false) = true ↔
      csdField csd (64 + first) 1 = 1 := by
  rw [flag_iff, mask_ne_zero_iff hmask, csdWords_w2 csd hin]

/-- A count of seven bits, as a number of bytes. -/
theorem blocks_toNat {x : BitVec 32} {n : Nat} (hx : x.toNat = n) (hn : n < 2 ^ 7) :
    ((1 + x) * sdmmcBlockSizeDefault).toNat = (n + 1) * 512 := by
  have hone : (1 : BitVec 32).toNat = 1 := rfl
  have hsize : sdmmcBlockSizeDefault.toNat = 512 := rfl
  rw [BitVec.toNat_mul, BitVec.toNat_add, hone, hsize, hx]
  omega

/-- The exponent of the block length. -/
theorem csdReadBlockLen :
    ((((csdWords csd).w2 &&& 0xF0000) >>> 16).setWidth 8 |>.setWidth 32).toNat =
      csdField csd 80 4 := by
  have hfield : ((((csdWords csd).w2 &&& 0xF0000) >>> 16).setWidth 8).toNat = csdField csd 80 4 :=
    (maskShift_setWidth_toNat rfl (by decide)).trans (csdWords_w2 csd (by decide))
  have hlt : csdField csd 80 4 < 2 ^ 4 := field_lt _ _ _
  rw [BitVec.toNat_setWidth, hfield]
  exact Nat.mod_eq_of_lt (by omega)

theorem csdMaxWriteBlockLen :
    ((1 : BitVec 32) <<< (((csdWords csd).w0 &&& 0x3C00000) >>> 22).toNat).toNat =
      2 ^ csdField csd 22 4 := by
  have hfield : (((csdWords csd).w0 &&& 0x3C00000) >>> 22).toNat = csdField csd 22 4 :=
    (maskShift_toNat rfl).trans (csdWords_w0 csd (by decide) (by decide))
  have hlt : csdField csd 22 4 < 2 ^ 4 := field_lt _ _ _
  rw [hfield]
  exact toNat_one_shiftLeft (by omega)

/-- Whatever is decoded for the capacity, the other fields are those of the register. -/
theorem sdDecodeCsd_common (size : BitVec 32) (rmin rmax wmin wmax mult : BitVec 8) (sdxc : Bool) :
    CsdCommon csd (sdDecodeCsdTail
      { sdDecodeCsdHead SdCsd.zero (csdWords csd) with
        deviceSize := size, readCurrentVddMin := rmin, readCurrentVddMax := rmax,
        writeCurrentVddMin := wmin, writeCurrentVddMax := wmax, deviceSizeMultiplier := mult,
        supportSdxc := sdxc } sdmmcBlockSizeDefault (csdWords csd)) where
  csdStructure := (maskShift_setWidth_toNat rfl (by decide)).trans (csdWords_w3 csd (by decide))
  dataReadAccessTime1 :=
    (maskShift_setWidth_toNat rfl (by decide)).trans (csdWords_w3 csd (by decide))
  dataReadAccessTime2 :=
    (maskShift_setWidth_toNat rfl (by decide)).trans (csdWords_w3 csd (by decide))
  transferSpeed := (mask_setWidth_toNat rfl (by decide)).trans (csdWords_w3 csd (by decide))
  cardCommandClass :=
    (maskShift_setWidth_toNat rfl (by decide)).trans (csdWords_w2 csd (by decide))
  readBlockLen := csdReadBlockLen csd
  supportReadBlockPartial := flag_w2 csd 15 rfl (by decide)
  supportWriteBlockMisalignment := flag_w2 csd 14 rfl (by decide)
  supportReadBlockMisalignment := flag_w2 csd 13 rfl (by decide)
  isDsrImplemented := flag_w2 csd 12 rfl (by decide)
  isEraseBlockEnabled := flag_w1 csd 14 rfl (by decide)
  eraseSectorSize := blocks_toNat
    ((maskShift_toNat rfl).trans (csdWords_w1 csd (by decide))) (field_lt _ _ _)
  writeProtectGroupSize := blocks_toNat
    ((mask_toNat rfl).trans (csdWords_w1 csd (by decide))) (field_lt _ _ _)
  writeSpeedFactor :=
    (maskShift_setWidth_toNat rfl (by decide)).trans (csdWords_w0 csd (by decide) (by decide))
  maxWriteBlockLen := csdMaxWriteBlockLen csd
  supportWriteBlockPartial := flag_w0 csd 21 rfl (by decide) (by decide)
  supportFileFormatGroup := flag_w0 csd 15 rfl (by decide) (by decide)
  supportCopy := flag_w0 csd 14 rfl (by decide) (by decide)
  supportPermanentWriteProtect := flag_w0 csd 13 rfl (by decide) (by decide)
  supportTemporaryWriteProtect := flag_w0 csd 12 rfl (by decide) (by decide)
  fileFormat :=
    (maskShift_setWidth_toNat rfl (by decide)).trans (csdWords_w0 csd (by decide) (by decide))

/-- The rate, from its unit and its value. -/
theorem sdMaxFreq_toNat : (sdMaxFreq (csdWords csd)).toNat = csdMaxFreq csd := by
  have htable : ∀ (u : Fin 8) (t : Fin 16),
      (bitrateUnitList.getD u 0 / 10 * timeValueList.getD t 0).toNat =
        if u.val < 4 then 10 ^ (u.val + 4) * (timeValueList.getD t 0).toNat else 0 := by decide
  have hspeed : ((csdWords csd).w3 &&& 0xFF).toNat = csdField csd 96 8 :=
    (mask_toNat rfl).trans (csdWords_w3 csd (by decide))
  have hunit : ((csdWords csd).w3 &&& 0xFF &&& 0x7).toNat = csdField csd 96 3 := by
    have hmask : ((csdWords csd).w3 &&& 0xFF &&& 0x7).toNat = field 0 3 (csdField csd 96 8) :=
      (mask_toNat rfl).trans (congrArg (field 0 3) hspeed)
    rw [hmask]
    exact field_field 0 (by decide) _
  have hvalue : (((csdWords csd).w3 &&& 0xFF) >>> 3 &&& 0xF).toNat = csdField csd 99 4 := by
    have hmask : (((csdWords csd).w3 &&& 0xFF) >>> 3 &&& 0xF).toNat =
        field 0 4 (((csdWords csd).w3 &&& 0xFF) >>> 3).toNat := mask_toNat rfl
    rw [hmask, BitVec.toNat_ushiftRight, hspeed, field_shiftRight]
    exact field_field 3 (by decide) _
  have hunitLt : csdField csd 96 3 < 2 ^ 3 := field_lt _ _ _
  have hvalueLt : csdField csd 99 4 < 2 ^ 4 := field_lt _ _ _
  unfold sdMaxFreq csdMaxFreq
  dsimp only
  rw [hunit, hvalue]
  exact htable ⟨_, hunitLt⟩ ⟨_, hvalueLt⟩

end Common

/-! ## Version 1.0 -/

section V1

variable (csd : BitVec 128)

/-- The fields that version 1.0 decodes. -/
def csdV1 (csd : SdCsd) (raw : Words4) : SdCsd :=
  { csd with
    deviceSize := ((raw.w2 &&& 0x3FF) <<< 2) ||| ((raw.w1 &&& 0xC0000000) >>> 30)
    readCurrentVddMin := ((raw.w1 &&& 0x38000000) >>> 27).setWidth 8
    readCurrentVddMax := ((raw.w1 &&& 0x7000000) >>> 24).setWidth 8
    writeCurrentVddMin := ((raw.w1 &&& 0xE00000) >>> 20).setWidth 8
    writeCurrentVddMax := ((raw.w1 &&& 0x1C0000) >>> 18).setWidth 8
    deviceSizeMultiplier := ((raw.w1 &&& 0x38000) >>> 15).setWidth 8 }

theorem sdDecodeCsdV1_csd (card : SdCard) (raw : Words4) :
    (sdDecodeCsdV1 card raw).csd = csdV1 card.csd raw := by
  unfold sdDecodeCsdV1
  dsimp only
  split <;> rfl

/-- Blocks of another size are converted, so the size of a block is always the default. -/
theorem sdDecodeCsdV1_blockSize (card : SdCard) (raw : Words4) :
    (sdDecodeCsdV1 card raw).blockSize = sdmmcBlockSizeDefault := by
  unfold sdDecodeCsdV1
  dsimp only
  split
  · rfl
  · rename_i hsize
    exact not_not.mp hsize

/-- Cards with blocks of the default size: the capacity in bytes is not assigned. -/
theorem sdDecodeCsdV1_of_default {card : SdCard} {raw : Words4}
    (h : (1 : BitVec 32) <<< card.csd.readBlockLen.toNat = sdmmcBlockSizeDefault) :
    sdDecodeCsdV1 card raw =
      { card with
        csd := csdV1 card.csd raw
        blockCount := ((csdV1 card.csd raw).deviceSize + 1) <<<
          ((csdV1 card.csd raw).deviceSizeMultiplier.toNat + 2)
        blockSize := (1 : BitVec 32) <<< (csdV1 card.csd raw).readBlockLen.toNat } :=
  if_neg (not_not_intro h)

/-- Cards with blocks of another size: the capacity in bytes is the number of blocks. -/
theorem sdDecodeCsdV1_of_other {card : SdCard} {raw : Words4}
    (h : (1 : BitVec 32) <<< card.csd.readBlockLen.toNat ≠ sdmmcBlockSizeDefault) :
    sdDecodeCsdV1 card raw =
      { card with
        csd := csdV1 card.csd raw
        blockCount := (((csdV1 card.csd raw).deviceSize + 1) <<<
            ((csdV1 card.csd raw).deviceSizeMultiplier.toNat + 2)) *
          ((1 : BitVec 32) <<< (csdV1 card.csd raw).readBlockLen.toNat) / sdmmcBlockSizeDefault
        blockSize := sdmmcBlockSizeDefault
        cardSizeInBytes := (((csdV1 card.csd raw).deviceSize + 1) *
          ((1 : BitVec 32) <<<
            ((csdV1 card.csd raw).deviceSizeMultiplier.toNat + 2))).setWidth 64 } :=
  if_pos h

theorem csdV1_deviceSize (c : SdCsd) :
    (csdV1 c (csdWords csd)).deviceSize.toNat = csdField csd 62 12 := by
  have hhigh : ((csdWords csd).w2 &&& 0x3FF).toNat = csdField csd 64 10 :=
    (mask_toNat rfl).trans (csdWords_w2 csd (by decide))
  have hlow : (((csdWords csd).w1 &&& 0xC0000000) >>> 30).toNat = csdField csd 62 2 :=
    (maskShift_toNat rfl).trans (csdWords_w1 csd (by decide))
  have hhighLt : csdField csd 64 10 < 2 ^ 10 := field_lt _ _ _
  have hlowLt : csdField csd 62 2 < 2 ^ 2 := field_lt _ _ _
  have hsplit : csdField csd 62 12 = csdField csd 64 10 * 2 ^ 2 + csdField csd 62 2 :=
    field_append 62 2 10 _
  rw [hsplit, ← hhigh, ← hlow]
  exact shiftLeft_or_toNat (by omega) (by omega)

/-- The field is shifted by a bit too little. -/
theorem csdV1_writeCurrentVddMin (c : SdCsd) :
    (csdV1 c (csdWords csd)).writeCurrentVddMin.toNat = 2 * csdField csd 53 3 := by
  have hmask : (0xE00000 : BitVec 32).toNat = fieldMask 21 3 := rfl
  have hfield : field 21 3 (csdWords csd).w1.toNat = csdField csd 53 3 :=
    csdWords_w1 csd (by decide)
  have hlt : csdField csd 53 3 < 2 ^ 3 := field_lt _ _ _
  unfold csdV1
  dsimp only
  rw [BitVec.toNat_setWidth, BitVec.toNat_ushiftRight, BitVec.toNat_and, hmask, and_fieldMask,
    hfield, Nat.shiftRight_eq_div_pow]
  omega

/-- The fields of version 1 are read as they are, but for one that is shifted by a bit too little.
-/
theorem csdV1_iff (c : SdCsd) :
    CsdV1 csd (csdV1 c (csdWords csd)) ↔ csdField csd 53 3 = 0 := by
  constructor
  · intro h
    have hmin := h.writeCurrentVddMin
    rw [csdV1_writeCurrentVddMin] at hmin
    omega
  · intro h
    refine ⟨csdV1_deviceSize csd c, ?_, ?_, ?_, ?_, ?_⟩
    · exact (maskShift_setWidth_toNat rfl (by decide)).trans (csdWords_w1 csd (by decide))
    · exact (maskShift_setWidth_toNat rfl (by decide)).trans (csdWords_w1 csd (by decide))
    · rw [csdV1_writeCurrentVddMin, h]
    · exact (maskShift_setWidth_toNat rfl (by decide)).trans (csdWords_w1 csd (by decide))
    · exact (maskShift_setWidth_toNat rfl (by decide)).trans (csdWords_w1 csd (by decide))

/-- The number of blocks of version 1.0, in blocks of the card. -/
def csdV1Blocks (csd : BitVec 128) : Nat :=
  (csdField csd 62 12 + 1) * 2 ^ (csdField csd 47 3 + 2)

/-- The number of blocks is at most `2 ^ 21`. -/
theorem csdV1Blocks_le : 0 < csdV1Blocks csd ∧ csdV1Blocks csd ≤ 2 ^ 21 := by
  have hsize : csdField csd 62 12 < 2 ^ 12 := field_lt _ _ _
  have hmult : csdField csd 47 3 < 2 ^ 3 := field_lt _ _ _
  have hpow : 2 ^ (csdField csd 47 3 + 2) ≤ 2 ^ 9 := Nat.pow_le_pow_right (by decide) (by omega)
  unfold csdV1Blocks
  refine ⟨Nat.mul_pos (Nat.succ_pos _) (Nat.two_pow_pos _), ?_⟩
  calc (csdField csd 62 12 + 1) * 2 ^ (csdField csd 47 3 + 2)
      ≤ 2 ^ 12 * 2 ^ 9 := Nat.mul_le_mul hsize hpow
    _ = 2 ^ 21 := by decide

section Capacity

variable {csd} {card : SdCard} (hlen : card.csd.readBlockLen.toNat = csdField csd 80 4)

theorem csdV1_size :
    ((csdV1 card.csd (csdWords csd)).deviceSize + 1).toNat = csdField csd 62 12 + 1 := by
  have hsize : csdField csd 62 12 < 2 ^ 12 := field_lt _ _ _
  have hone : (1 : BitVec 32).toNat = 1 := rfl
  rw [BitVec.toNat_add, csdV1_deviceSize, hone]
  omega

theorem csdV1_shift :
    (csdV1 card.csd (csdWords csd)).deviceSizeMultiplier.toNat + 2 = csdField csd 47 3 + 2 :=
  congrArg (· + 2)
    ((maskShift_setWidth_toNat rfl (by decide)).trans (csdWords_w1 csd (by decide)))

/-- The product of size and multiplier, by shifts, is the number of blocks. -/
theorem csdV1_blockCount :
    (((csdV1 card.csd (csdWords csd)).deviceSize + 1) <<<
      ((csdV1 card.csd (csdWords csd)).deviceSizeMultiplier.toNat + 2)).toNat =
        csdV1Blocks csd := by
  have hle := csdV1Blocks_le csd
  rw [csdV1_shift, BitVec.toNat_shiftLeft, csdV1_size, Nat.shiftLeft_eq]
  exact Nat.mod_eq_of_lt (by unfold csdV1Blocks at hle; omega)

include hlen in
theorem csdV1_blockSize :
    ((1 : BitVec 32) <<< (csdV1 card.csd (csdWords csd)).readBlockLen.toNat).toNat =
      2 ^ csdField csd 80 4 := by
  have hlt : csdField csd 80 4 < 2 ^ 4 := field_lt _ _ _
  have hsame : (csdV1 card.csd (csdWords csd)).readBlockLen.toNat = csdField csd 80 4 := hlen
  rw [hsame]
  exact toNat_one_shiftLeft (by omega)

include hlen in
/-- Blocks of 512 bytes are the exponent 9. -/
theorem csdV1_default_iff :
    ((1 : BitVec 32) <<< (csdV1 card.csd (csdWords csd)).readBlockLen.toNat) =
      sdmmcBlockSizeDefault ↔ csdField csd 80 4 = 9 := by
  have hsize : sdmmcBlockSizeDefault.toNat = 2 ^ 9 := rfl
  rw [← BitVec.toNat_inj, csdV1_blockSize hlen, hsize]
  exact Nat.pow_right_inj (by decide : 1 < 2)

include hlen in
/-- With blocks of 512 bytes the size in bytes is not written. -/
theorem sdDecodeCsdV1_default (hr : csdField csd 80 4 = 9) :
    (sdDecodeCsdV1 card (csdWords csd)).blockCount.toNat = csdV1Blocks csd ∧
      (sdDecodeCsdV1 card (csdWords csd)).cardSizeInBytes = card.cardSizeInBytes := by
  rw [sdDecodeCsdV1_of_default ((csdV1_default_iff hlen).mpr hr)]
  exact ⟨csdV1_blockCount, rfl⟩

include hlen in
/-- With other blocks the size in bytes is that in blocks, and the product of the count may wrap. -/
theorem sdDecodeCsdV1_other (hr : csdField csd 80 4 ≠ 9) :
    (sdDecodeCsdV1 card (csdWords csd)).blockCount.toNat =
        csdV1Blocks csd * 2 ^ csdField csd 80 4 % 2 ^ 32 / 512 ∧
      (sdDecodeCsdV1 card (csdWords csd)).cardSizeInBytes.toNat = csdV1Blocks csd := by
  have hle := csdV1Blocks_le csd
  have hmult : csdField csd 47 3 < 2 ^ 3 := field_lt _ _ _
  rw [sdDecodeCsdV1_of_other fun h => hr ((csdV1_default_iff hlen).mp h)]
  refine ⟨?_, ?_⟩
  · rw [BitVec.toNat_udiv, BitVec.toNat_mul, csdV1_blockCount, csdV1_blockSize hlen]
    rfl
  · have hpow : ((1 : BitVec 32) <<< (csdField csd 47 3 + 2)).toNat = 2 ^ (csdField csd 47 3 + 2) :=
      toNat_one_shiftLeft (by omega)
    rw [BitVec.toNat_setWidth, BitVec.toNat_mul, csdV1_size, csdV1_shift, hpow]
    change csdV1Blocks csd % 2 ^ 32 % 2 ^ 64 = _
    omega

include hlen in
/-- The capacity of version 1.0 comes out right only for blocks of one byte. -/
theorem csdV1_capacity_iff (hversion : csdVersion csd = 0) (hcleared : card.cardSizeInBytes = 0) :
    CsdCapacity csd (sdDecodeCsdV1 card (csdWords csd)) ↔
      csdField csd 80 4 = 0 ∧ 512 ∣ csdCapacity csd := by
  have hle := csdV1Blocks_le csd
  have hcap : csdCapacity csd = csdV1Blocks csd * 2 ^ csdField csd 80 4 := if_pos hversion
  have hfits : CsdFits csd ↔ csdV1Blocks csd < 2 ^ 32 ∧
      (csdField csd 80 4 ≠ 9 → csdCapacity csd < 2 ^ 32) := by
    unfold CsdFits
    rw [if_pos hversion]
    rfl
  have hblock : (sdDecodeCsdV1 card (csdWords csd)).blockSize.toNat = 512 :=
    congrArg BitVec.toNat (sdDecodeCsdV1_blockSize card _)
  by_cases hr : csdField csd 80 4 = 9
  · obtain ⟨-, hsize⟩ := sdDecodeCsdV1_default hlen hr
    refine iff_of_false (fun h => ?_) fun h => absurd (hr.symm.trans h.1) (by decide)
    have hzero := h.size
    rw [hsize, hcleared, hcap, hr] at hzero
    have hpos : 0 = csdV1Blocks csd * 2 ^ 9 := hzero
    omega
  · obtain ⟨hcount, hsize⟩ := sdDecodeCsdV1_other hlen hr
    constructor
    · intro h
      have hblocks := h.blocks
      have hbytes := h.size
      rw [hcount, hblock] at hblocks
      rw [hsize, hcap] at hbytes
      have hone : csdV1Blocks csd * 2 ^ csdField csd 80 4 = csdV1Blocks csd * 1 :=
        hbytes.symm.trans (Nat.mul_one _).symm
      have hpow := (Nat.eq_of_mul_eq_mul_left hle.1 hone).trans (Nat.pow_zero 2).symm
      exact ⟨(Nat.pow_right_inj (by decide : 1 < 2)).mp hpow,
        ⟨_, hblocks.symm.trans (Nat.mul_comm _ _)⟩⟩
    · rintro ⟨hzero, hdvd⟩
      rw [hzero, Nat.pow_zero, Nat.mul_one] at hcap
      rw [hcap] at hdvd
      refine ⟨?_, ?_, hfits.mpr ⟨by omega, fun _ => by omega⟩⟩
      · rw [hcount, hblock, hcap, hzero, Nat.pow_zero, Nat.mul_one, Nat.mod_eq_of_lt (by omega)]
        exact Nat.div_mul_cancel hdvd
      · rw [hsize, hcap]

end Capacity

end V1

/-! ## Version 2.0 -/

section V2

variable (csd : BitVec 128) {card : SdCard}

/-- The device size of version 2 lies in two words. -/
theorem csdV2_deviceSize :
    ((((csdWords csd).w2 &&& 0x3F) <<< 16) ||| (((csdWords csd).w1 &&& 0xFFFF0000) >>> 16)).toNat =
      csdField csd 48 22 := by
  have hhigh : ((csdWords csd).w2 &&& 0x3F).toNat = csdField csd 64 6 :=
    (mask_toNat rfl).trans (csdWords_w2 csd (by decide))
  have hlow : (((csdWords csd).w1 &&& 0xFFFF0000) >>> 16).toNat = csdField csd 48 16 :=
    (maskShift_toNat rfl).trans (csdWords_w1 csd (by decide))
  have hhighLt : csdField csd 64 6 < 2 ^ 6 := field_lt _ _ _
  have hlowLt : csdField csd 48 16 < 2 ^ 16 := field_lt _ _ _
  have hsplit : csdField csd 48 22 = csdField csd 64 6 * 2 ^ 16 + csdField csd 48 16 :=
    field_append 48 16 6 _
  rw [hsplit, ← hhigh, ← hlow]
  exact shiftLeft_or_toNat (by omega) (by omega)

theorem csdV2_size :
    ((((csdWords csd).w2 &&& 0x3F) <<< 16 ||| ((csdWords csd).w1 &&& 0xFFFF0000) >>> 16) + 1).toNat =
      csdField csd 48 22 + 1 := by
  have hlt : csdField csd 48 22 < 2 ^ 22 := field_lt _ _ _
  have hone : (1 : BitVec 32).toNat = 1 := rfl
  rw [BitVec.toNat_add, csdV2_deviceSize, hone]
  omega

/-- The fields of version 2 are read as they are. -/
theorem sdDecodeCsdV2_v2 (hcleared : card.csd.supportSdxc = false) :
    CsdV2 csd (sdDecodeCsdV2 card (csdWords csd)).csd := by
  refine ⟨csdV2_deviceSize csd, ?_⟩
  unfold sdDecodeCsdV2
  dsimp only
  rw [hcleared, flag_iff, BitVec.le_def, csdV2_deviceSize]
  rfl

/-- The capacity of version 2.0 comes out right but for the largest. -/
theorem csdV2_capacity_iff (hversion : csdVersion csd ≠ 0) :
    CsdCapacity csd (sdDecodeCsdV2 card (csdWords csd)) ↔
      csdField csd 48 22 ≠ 2 ^ 22 - 1 := by
  have hlt : csdField csd 48 22 < 2 ^ 22 := field_lt _ _ _
  have hcap : csdCapacity csd = (csdField csd 48 22 + 1) * (512 * 1024) := if_neg hversion
  have hfits : CsdFits csd ↔ (csdField csd 48 22 + 1) * 1024 < 2 ^ 32 := by
    unfold CsdFits
    rw [if_neg hversion]
  have hcount : (sdDecodeCsdV2 card (csdWords csd)).blockCount.toNat =
      (csdField csd 48 22 + 1) * 1024 % 2 ^ 32 := by
    unfold sdDecodeCsdV2
    dsimp only
    rw [BitVec.toNat_mul, csdV2_size]
    rfl
  have hbytes : (sdDecodeCsdV2 card (csdWords csd)).cardSizeInBytes.toNat =
      (csdField csd 48 22 + 1) * 512 * 1024 := by
    unfold sdDecodeCsdV2
    dsimp only
    rw [BitVec.toNat_mul, BitVec.toNat_mul, BitVec.toNat_setWidth, csdV2_size]
    change (csdField csd 48 22 + 1) % 2 ^ 64 * 512 % 2 ^ 64 * 1024 % 2 ^ 64 = _
    omega
  have hsize : (sdDecodeCsdV2 card (csdWords csd)).blockSize.toNat = 512 := rfl
  constructor
  · intro h
    have hwrap := hfits.mp h.fits
    omega
  · intro h
    refine ⟨?_, ?_, hfits.mpr (by omega)⟩
    · rw [hcount, hsize, hcap]
      omega
    · rw [hbytes, hcap]
      omega

end V2

/-! ## The whole register -/

section Decoded

variable (csd : BitVec 128)

/-- The version is in the two upper bits. -/
theorem csdWords_structure :
    (sdDecodeCsdHead SdCsd.zero (csdWords csd)).csdStructure.toNat = csdVersion csd :=
  (maskShift_setWidth_toNat rfl (by decide)).trans (csdWords_w3 csd (by decide))

/-- The flag is read through a cast that loses it. -/
theorem sdDecodeCsdTail_writeProtectGroup (c : SdCsd) (blockSize : BitVec 32) (raw : Words4) :
    (sdDecodeCsdTail c blockSize raw).isWriteProtectionGroupEnabled =
      c.isWriteProtectionGroupEnabled := by
  have hmask : (0x80000000 : BitVec 32).toNat = fieldMask 31 1 := rfl
  have hzero : (raw.w0 &&& 0x80000000).setWidth 8 = (0 : BitVec 8) := by
    refine BitVec.eq_of_toNat_eq ?_
    rw [BitVec.toNat_setWidth, BitVec.toNat_and, hmask, and_fieldMask]
    change field 31 1 raw.w0.toNat * 2 ^ 31 % 2 ^ 8 = 0
    omega
  exact if_neg (not_not_intro hzero)

/-- A cleared structure once the fields in front of the capacity are decoded. -/
def csdHeadCard (csd : BitVec 128) : SdCard :=
  { SdCard.zero with csd := sdDecodeCsdHead SdCsd.zero (csdWords csd) }

/-- Decoding a register of version 1. -/
theorem sdDecodeCsd_v1 (hversion : csdVersion csd = 0) :
    sdDecodeCsd SdCard.zero (csdWords csd) =
      { sdDecodeCsdV1 (csdHeadCard csd) (csdWords csd) with
        csd := sdDecodeCsdTail (csdV1 (csdHeadCard csd).csd (csdWords csd)) sdmmcBlockSizeDefault
          (csdWords csd)
        maxFreq := sdMaxFreq (csdWords csd) } := by
  have hzero : (sdDecodeCsdHead SdCsd.zero (csdWords csd)).csdStructure = 0 :=
    BitVec.eq_of_toNat_eq ((csdWords_structure csd).trans hversion)
  unfold sdDecodeCsd csdHeadCard
  dsimp only
  rw [show SdCard.zero.csd = SdCsd.zero from rfl, if_pos hzero, sdDecodeCsdV1_csd,
    sdDecodeCsdV1_blockSize]

/-- Decoding a register of version 2. -/
theorem sdDecodeCsd_v2 (hversion : csdVersion csd = 1) :
    sdDecodeCsd SdCard.zero (csdWords csd) =
      { sdDecodeCsdV2 (csdHeadCard csd) (csdWords csd) with
        csd := sdDecodeCsdTail (sdDecodeCsdV2 (csdHeadCard csd) (csdWords csd)).csd
          sdmmcBlockSizeDefault (csdWords csd)
        maxFreq := sdMaxFreq (csdWords csd) } := by
  have hone : (sdDecodeCsdHead SdCsd.zero (csdWords csd)).csdStructure = 1 :=
    BitVec.eq_of_toNat_eq ((csdWords_structure csd).trans hversion)
  have hne : ¬ (sdDecodeCsdHead SdCsd.zero (csdWords csd)).csdStructure = 0 := by
    rw [hone]
    decide
  unfold sdDecodeCsd
  dsimp only
  rw [show SdCard.zero.csd = SdCsd.zero from rfl, if_neg hne, if_pos hone]
  rfl

/-- The registers that are decoded faithfully. -/
def CsdFaithful (csd : BitVec 128) : Prop :=
  csdField csd 31 1 = 0 ∧
    if csdVersion csd = 0 then
      csdField csd 53 3 = 0 ∧ csdField csd 80 4 = 0 ∧ 512 ∣ csdCapacity csd
    else csdField csd 48 22 ≠ 2 ^ 22 - 1

instance (csd : BitVec 128) : Decidable (CsdFaithful csd) := by
  unfold CsdFaithful
  exact inferInstance

/-- The flag of the write protection groups is right where it is clear. -/
theorem writeProtectGroup_iff (c : SdCsd) (blockSize : BitVec 32)
    (hclear : c.isWriteProtectionGroupEnabled = false) :
    ((sdDecodeCsdTail c blockSize (csdWords csd)).isWriteProtectionGroupEnabled = true ↔
      csdField csd 31 1 = 1) ↔ csdField csd 31 1 = 0 := by
  have hlt : csdField csd 31 1 < 2 ^ 1 := field_lt _ _ _
  rw [sdDecodeCsdTail_writeProtectGroup, hclear]
  constructor
  · intro h
    have hne : csdField csd 31 1 ≠ 1 := fun h₁ => Bool.false_ne_true (h.mpr h₁)
    omega
  · intro h
    exact iff_of_false Bool.false_ne_true (by omega)

/-- What stands behind the capacity does not touch its fields. -/
theorem csdV1_tail {c : SdCsd} {blockSize : BitVec 32} {raw : Words4} :
    CsdV1 csd (sdDecodeCsdTail c blockSize raw) ↔ CsdV1 csd c :=
  ⟨fun h => ⟨h.1, h.2, h.3, h.4, h.5, h.6⟩, fun h => ⟨h.1, h.2, h.3, h.4, h.5, h.6⟩⟩

/-- A register of version 1 is decoded faithfully exactly under the condition. -/
theorem csdDecoded_v1_iff (hversion : csdVersion csd = 0) :
    CsdDecoded csd (sdDecodeCsd SdCard.zero (csdWords csd)) ↔ CsdFaithful csd := by
  have hfaithful : CsdFaithful csd ↔ csdField csd 31 1 = 0 ∧
      csdField csd 53 3 = 0 ∧ csdField csd 80 4 = 0 ∧ 512 ∣ csdCapacity csd := by
    unfold CsdFaithful
    rw [if_pos hversion]
  rw [hfaithful, sdDecodeCsd_v1 csd hversion]
  have hcapacity : CsdCapacity csd (sdDecodeCsdV1 (csdHeadCard csd) (csdWords csd)) ↔ _ :=
    csdV1_capacity_iff (csdReadBlockLen csd) hversion rfl
  constructor
  · intro h
    have hcap := hcapacity.mp ⟨h.capacity.blocks, h.capacity.size, h.capacity.fits⟩
    exact ⟨(writeProtectGroup_iff csd _ _ rfl).mp h.writeProtectGroupEnabled,
      (csdV1_iff csd _).mp ((csdV1_tail csd).mp (h.v1 hversion)), hcap⟩
  · rintro ⟨hgroup, hmin, hcap⟩
    have hright := hcapacity.mpr hcap
    exact {
      common := sdDecodeCsd_common csd _ _ _ _ _ _ false
      writeProtectGroupEnabled := (writeProtectGroup_iff csd _ _ rfl).mpr hgroup
      v1 := fun _ => (csdV1_tail csd).mpr ((csdV1_iff csd _).mpr hmin)
      v2 := fun h => absurd (hversion.symm.trans h) (by decide)
      maxFreq := sdMaxFreq_toNat csd
      capacity := ⟨hright.blocks, hright.size, hright.fits⟩ }

/-- And so is one of version 2, where only the size is left of it. -/
theorem csdDecoded_v2_iff (hversion : csdVersion csd = 1) :
    CsdDecoded csd (sdDecodeCsd SdCard.zero (csdWords csd)) ↔ CsdFaithful csd := by
  have hne : csdVersion csd ≠ 0 := by omega
  have hfaithful : CsdFaithful csd ↔
      csdField csd 31 1 = 0 ∧ csdField csd 48 22 ≠ 2 ^ 22 - 1 := by
    unfold CsdFaithful
    rw [if_neg hne]
  rw [hfaithful, sdDecodeCsd_v2 csd hversion]
  have hcapacity : CsdCapacity csd (sdDecodeCsdV2 (csdHeadCard csd) (csdWords csd)) ↔ _ :=
    csdV2_capacity_iff csd hne
  constructor
  · intro h
    exact ⟨(writeProtectGroup_iff csd _ _ rfl).mp h.writeProtectGroupEnabled,
      hcapacity.mp ⟨h.capacity.blocks, h.capacity.size, h.capacity.fits⟩⟩
  · rintro ⟨hgroup, hcap⟩
    have hright := hcapacity.mpr hcap
    have hfields : CsdV2 csd (sdDecodeCsdV2 (csdHeadCard csd) (csdWords csd)).csd :=
      sdDecodeCsdV2_v2 csd rfl
    exact {
      common := sdDecodeCsd_common csd _ _ _ _ _ _ _
      writeProtectGroupEnabled := (writeProtectGroup_iff csd _ _ rfl).mpr hgroup
      v1 := fun h => absurd h hne
      v2 := fun _ => ⟨hfields.deviceSize, hfields.supportSdxc⟩
      maxFreq := sdMaxFreq_toNat csd
      capacity := ⟨hright.blocks, hright.size, hright.fits⟩ }

/-- Exactly the registers of version 1.0 and 2.0 that the card structure holds after they were
received and decoded.

Each field of the structure is a shift of a mask, and most of them are the field of the register
for every value.  The ones that are not, a flag that a cast makes zero and a current shifted one
bit short, are right where they are zero.  The capacity is computed in 32 bits, with a factor left
out for version 1.0: what remains of the condition is where that comes out right. -/
theorem csdDecoded_iff (autoCmd12 : Bool) (hversion : csdVersion csd ≤ 1) :
    CsdDecoded csd (sdReceiveCsd csd autoCmd12) ↔ CsdFaithful csd := by
  rw [sdReceiveCsd_eq]
  rcases Nat.le_one_iff_eq_zero_or_eq_one.mp hversion with hv1 | hv2
  · exact csdDecoded_v1_iff csd hv1
  · exact csdDecoded_v2_iff csd hv2

/-- A card of version 2.0 with 0xE740 as `C_SIZE`. -/
theorem csdDecoded_iff_sdhc :
    CsdDecoded 0x400E00325B590000E7407F800A404055
      (sdReceiveCsd 0x400E00325B590000E7407F800A404055 false) :=
  (csdDecoded_iff _ false (by decide)).mpr (by decide)

/-- A card of version 1.0 with blocks of 512 bytes, one with blocks of 1024 bytes, and
the largest one of version 2.0. -/
theorem csdDecoded_fails :
    ¬ CsdDecoded 0x002600325F5983C0BADFCF9F92404055
        (sdReceiveCsd 0x002600325F5983C0BADFCF9F92404055 false) ∧
      ¬ CsdDecoded 0x002600325F5A83C00ADF8F9F12804055
        (sdReceiveCsd 0x002600325F5A83C00ADF8F9F12804055 false) ∧
      ¬ CsdDecoded 0x400E00325B59003FFFFF7F800A404055
        (sdReceiveCsd 0x400E00325B59003FFFFF7F800A404055 false) := by
  refine ⟨?_, ?_, ?_⟩
  · rw [sdReceiveCsd_eq, csdDecoded_v1_iff _ (by decide)]
    decide
  · rw [sdReceiveCsd_eq, csdDecoded_v1_iff _ (by decide)]
    decide
  · rw [sdReceiveCsd_eq, csdDecoded_v2_iff _ (by decide)]
    decide

end Decoded

end HpmSdk.Sd
