import HpmSdk.Sdxc.Command

set_option autoImplicit false

/-!
# SD cards: the registers CSD and SCR (`hpm_sdmmc_sd.c`)

The card structure and the two functions that decode the registers into it.  A
flag is set where its bit is, and otherwise left as it was.
-/

namespace HpmSdk.Sd

open HpmSdk.Sdxc

/-! ## Data -/

/-- `sd_csd_t`. -/
structure SdCsd where
  csdStructure : BitVec 8
  dataReadAccessTime1 : BitVec 8
  dataReadAccessTime2 : BitVec 8
  transferSpeed : BitVec 8
  cardCommandClass : BitVec 16
  supportReadBlockPartial : Bool
  supportWriteBlockMisalignment : Bool
  supportReadBlockMisalignment : Bool
  isDsrImplemented : Bool
  supportSdxc : Bool
  isEraseBlockEnabled : Bool
  isWriteProtectionGroupEnabled : Bool
  supportWriteBlockPartial : Bool
  supportFileFormatGroup : Bool
  supportCopy : Bool
  supportPermanentWriteProtect : Bool
  supportTemporaryWriteProtect : Bool
  readCurrentVddMin : BitVec 8
  readCurrentVddMax : BitVec 8
  writeCurrentVddMin : BitVec 8
  writeCurrentVddMax : BitVec 8
  deviceSizeMultiplier : BitVec 8
  writeSpeedFactor : BitVec 8
  fileFormat : BitVec 8
  deviceSize : BitVec 32
  readBlockLen : BitVec 32
  eraseSectorSize : BitVec 32
  maxWriteBlockLen : BitVec 32
  writeProtectGroupSize : BitVec 32
  deriving DecidableEq, Repr

/-- After `memset(.., 0, ..)`. -/
def SdCsd.zero : SdCsd where
  csdStructure := 0
  dataReadAccessTime1 := 0
  dataReadAccessTime2 := 0
  transferSpeed := 0
  cardCommandClass := 0
  supportReadBlockPartial := false
  supportWriteBlockMisalignment := false
  supportReadBlockMisalignment := false
  isDsrImplemented := false
  supportSdxc := false
  isEraseBlockEnabled := false
  isWriteProtectionGroupEnabled := false
  supportWriteBlockPartial := false
  supportFileFormatGroup := false
  supportCopy := false
  supportPermanentWriteProtect := false
  supportTemporaryWriteProtect := false
  readCurrentVddMin := 0
  readCurrentVddMax := 0
  writeCurrentVddMin := 0
  writeCurrentVddMax := 0
  deviceSizeMultiplier := 0
  writeSpeedFactor := 0
  fileFormat := 0
  deviceSize := 0
  readBlockLen := 0
  eraseSectorSize := 0
  maxWriteBlockLen := 0
  writeProtectGroupSize := 0

/-- `sd_scr_t`. -/
structure SdScr where
  word0 : BitVec 32
  word1 : BitVec 32
  deriving DecidableEq, Repr

namespace SdScr

def supportCmd20 (scr : SdScr) : Bool := scr.word1.getLsbD 0

def supportCmd23 (scr : SdScr) : Bool := scr.word1.getLsbD 1

def sdBusWidths (scr : SdScr) : BitVec 4 := scr.word1.extractLsb' 16 4

end SdScr

/-- `sd_flags_t`. -/
structure SdFlags where
  supportSpeedClassControlCmd : Bool
  supportSetBlockCountCmd : Bool
  support4bitWidth : Bool
  deriving DecidableEq, Repr

/-- `sd_card_t`, as far as the two registers are decoded into it. -/
structure SdCard where
  csd : SdCsd
  scr : SdScr
  sdFlags : SdFlags
  blockCount : BitVec 32
  blockSize : BitVec 32
  maxFreq : BitVec 32
  cardSizeInBytes : BitVec 64
  deriving DecidableEq, Repr

/-- After `memset(.., 0, ..)`. -/
def SdCard.zero : SdCard := ⟨SdCsd.zero, ⟨0, 0⟩, ⟨false, false, false⟩, 0, 0, 0, 0⟩

/-- `SDMMC_BLOCK_SIZE_DEFAULT`. -/
def sdmmcBlockSizeDefault : BitVec 32 := 512

/-- `SPEED_1Kbps`. -/
def speed1Kbps : BitVec 32 := 1000

/-- `SPEED_1Mbps`. -/
def speed1Mbps : BitVec 32 := 1000 * 1000

/-! ## `sd_decode_csd` -/

/-- The fields that stand in front of the capacity. -/
def sdDecodeCsdHead (csd : SdCsd) (raw : Words4) : SdCsd :=
  { csd with
    csdStructure := ((raw.w3 &&& 0xC0000000) >>> 30).setWidth 8
    dataReadAccessTime1 := ((raw.w3 &&& 0xFF0000) >>> 16).setWidth 8
    dataReadAccessTime2 := ((raw.w3 &&& 0xFF00) >>> 8).setWidth 8
    transferSpeed := (raw.w3 &&& 0xFF).setWidth 8
    cardCommandClass := ((raw.w2 &&& 0xFFF00000) >>> 20).setWidth 16
    readBlockLen := (((raw.w2 &&& 0xF0000) >>> 16).setWidth 8).setWidth 32
    supportReadBlockPartial := if raw.w2 &&& 0x8000 ≠ 0 then true else csd.supportReadBlockPartial
    supportWriteBlockMisalignment :=
      if raw.w2 &&& 0x4000 ≠ 0 then true else csd.supportWriteBlockMisalignment
    supportReadBlockMisalignment :=
      if raw.w2 &&& 0x2000 ≠ 0 then true else csd.supportReadBlockMisalignment
    isDsrImplemented := if raw.w2 &&& 0x1000 ≠ 0 then true else csd.isDsrImplemented }

/-- The capacity of structure version 1.0. -/
def sdDecodeCsdV1 (card : SdCard) (raw : Words4) : SdCard :=
  let csd : SdCsd := { card.csd with
    deviceSize := ((raw.w2 &&& 0x3FF) <<< 2) ||| ((raw.w1 &&& 0xC0000000) >>> 30)
    readCurrentVddMin := ((raw.w1 &&& 0x38000000) >>> 27).setWidth 8
    readCurrentVddMax := ((raw.w1 &&& 0x7000000) >>> 24).setWidth 8
    writeCurrentVddMin := ((raw.w1 &&& 0xE00000) >>> 20).setWidth 8
    writeCurrentVddMax := ((raw.w1 &&& 0x1C0000) >>> 18).setWidth 8
    deviceSizeMultiplier := ((raw.w1 &&& 0x38000) >>> 15).setWidth 8 }
  let size : BitVec 32 := csd.deviceSize + 1
  let shift := csd.deviceSizeMultiplier.toNat + 2
  let blockCount := size <<< shift
  let blockSize : BitVec 32 := 1 <<< csd.readBlockLen.toNat
  if blockSize ≠ sdmmcBlockSizeDefault then
    { card with
      csd := csd
      blockCount := blockCount * blockSize / sdmmcBlockSizeDefault
      blockSize := sdmmcBlockSizeDefault
      cardSizeInBytes := (size * (1 <<< shift)).setWidth 64 }
  else { card with csd := csd, blockCount := blockCount, blockSize := blockSize }

/-- The capacity of structure version 2.0. -/
def sdDecodeCsdV2 (card : SdCard) (raw : Words4) : SdCard :=
  let deviceSize := ((raw.w2 &&& 0x3F) <<< 16) ||| ((raw.w1 &&& 0xFFFF0000) >>> 16)
  { card with
    csd := { card.csd with
      deviceSize := deviceSize
      supportSdxc := if 0xFFFF ≤ deviceSize then true else card.csd.supportSdxc }
    blockSize := sdmmcBlockSizeDefault
    blockCount := (deviceSize + 1) * 1024
    cardSizeInBytes := (deviceSize + 1).setWidth 64 * 512 * 1024 }

/-- The fields that stand behind the capacity. -/
def sdDecodeCsdTail (csd : SdCsd) (blockSize : BitVec 32) (raw : Words4) : SdCsd :=
  { csd with
    isEraseBlockEnabled :=
      if ((raw.w1 &&& 0x4000) >>> 14).setWidth 8 ≠ (0 : BitVec 8) then true
      else csd.isEraseBlockEnabled
    eraseSectorSize := (1 + ((raw.w1 &&& 0x3F80) >>> 7)) * blockSize
    writeProtectGroupSize := (1 + (raw.w1 &&& 0x7F)) * blockSize
    isWriteProtectionGroupEnabled :=
      -- the cast keeps the low byte
      if (raw.w0 &&& 0x80000000).setWidth 8 ≠ (0 : BitVec 8) then true
      else csd.isWriteProtectionGroupEnabled
    writeSpeedFactor := ((raw.w0 &&& 0x1C000000) >>> 26).setWidth 8
    maxWriteBlockLen := (1 : BitVec 32) <<< ((raw.w0 &&& 0x3C00000) >>> 22).toNat
    supportWriteBlockPartial :=
      if ((raw.w0 &&& 0x200000) >>> 21).setWidth 8 ≠ (0 : BitVec 8) then true
      else csd.supportWriteBlockPartial
    supportFileFormatGroup :=
      if ((raw.w0 &&& 0x8000) >>> 15).setWidth 8 ≠ (0 : BitVec 8) then true
      else csd.supportFileFormatGroup
    supportCopy :=
      if ((raw.w0 &&& 0x4000) >>> 14).setWidth 8 ≠ (0 : BitVec 8) then true else csd.supportCopy
    supportPermanentWriteProtect :=
      if ((raw.w0 &&& 0x2000) >>> 13).setWidth 8 ≠ (0 : BitVec 8) then true
      else csd.supportPermanentWriteProtect
    supportTemporaryWriteProtect :=
      if ((raw.w0 &&& 0x1000) >>> 12).setWidth 8 ≠ (0 : BitVec 8) then true
      else csd.supportTemporaryWriteProtect
    fileFormat := ((raw.w0 &&& 0xC00) >>> 10).setWidth 8 }

/-- `bitrate_unit_list`. -/
def bitrateUnitList : List (BitVec 32) :=
  [100 * speed1Kbps, speed1Mbps, 10 * speed1Mbps, 100 * speed1Mbps, 0, 0, 0, 0]

/-- `time_value_list`. -/
def timeValueList : List (BitVec 32) :=
  [0, 10, 12, 13, 15, 20, 25, 30, 35, 40, 45, 50, 55, 60, 70, 80]

/-- `max_freq` from the field `TRAN_SPEED`. -/
def sdMaxFreq (raw : Words4) : BitVec 32 :=
  let tranSpeed := raw.w3 &&& 0xFF
  let bitrateUnit := tranSpeed &&& 0x7
  let timeValue := (tranSpeed >>> 3) &&& 0xF
  bitrateUnitList.getD bitrateUnit.toNat 0 / 10 * timeValueList.getD timeValue.toNat 0

/-- `sd_decode_csd`. -/
def sdDecodeCsd (card : SdCard) (raw : Words4) : SdCard :=
  let card := { card with csd := sdDecodeCsdHead card.csd raw }
  let card :=
    if card.csd.csdStructure = 0 then sdDecodeCsdV1 card raw
    else if card.csd.csdStructure = 1 then sdDecodeCsdV2 card raw
    else card
  { card with csd := sdDecodeCsdTail card.csd card.blockSize raw, maxFreq := sdMaxFreq raw }

/-! ## `sd_decode_scr` -/

/-- `sd_decode_scr`. -/
def sdDecodeScr (card : SdCard) (raw0 raw1 : BitVec 32) : SdCard :=
  let scr : SdScr := ⟨raw0, raw1⟩
  { card with
    scr := scr
    sdFlags :=
      { support4bitWidth :=
          if scr.sdBusWidths &&& 0x04 ≠ 0 then true else card.sdFlags.support4bitWidth
        supportSpeedClassControlCmd :=
          if scr.supportCmd20 then true else card.sdFlags.supportSpeedClassControlCmd
        supportSetBlockCountCmd :=
          if scr.supportCmd23 then true else card.sdFlags.supportSetBlockCountCmd } }

end HpmSdk.Sd
