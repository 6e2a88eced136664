import HpmSdk.Foundation.Bits

set_option autoImplicit false

/-!
# SDXC: ADMA2 descriptor tables (`hpm_sdxc_drv.c`)

The descriptors of `sdxc_adma2_descriptor_t` and `sdxc_set_adma2_desc`, which cuts
a buffer into pieces and writes one descriptor for each.  A descriptor is two
words, its attributes and its address; every word written is kept in a list, also
one that lies outside the table.
-/

namespace HpmSdk.Sdxc

/-! ## Status codes -/

/-- `hpm_stat_t`: the codes of the SDXC driver and of the SD/MMC library. -/
inductive SdxcStat where
  | success
  | fail
  | invalidArgument
  | sdxcError
  | sdxcSendCmdFailed
  | sdxcCmdTimeoutError
  | sdxcCmdCrcError
  | sdxcCmdEndBitError
  | sdxcCmdIndexError
  | sdxcDataTimeoutError
  | sdxcDataCrcError
  | sdxcDataEndBitError
  | sdxcAutoCmdError
  | sdxcAdmaError
  | sdxcTuningError
  | sdxcResponseError
  | sdxcBootAckError
  | sdxcTransferDataFailed
  | sdxcDmaAddrUnaligned
  | sdxcBusy
  | sdxcRetuningRequest
  | sdxcAutocmdCmd12NotExec
  | sdxcAutocmdCmdTimeoutError
  | sdxcAutocmdCmdCrcError
  | sdxcAutocmdEndBitError
  | sdxcAutocmdCmdIndexError
  | sdxcAutocmdCmdResponseError
  | sdxcAutocmdCmdNotIssuedAutoCmd12
  deriving DecidableEq, Repr, Inhabited

/-! ## Descriptors -/

/-- `sdxc_adma2_descriptor_t`. -/
structure SdxcAdma2Descriptor where
  valid : Bool
  isEnd : Bool
  interrupt : Bool
  act : BitVec 3
  lenUpper : BitVec 10
  lenLower : BitVec 16
  addr : BitVec 32
  deriving DecidableEq, Repr

namespace SdxcAdma2Descriptor

/-- `len_attr |= flags`. -/
def orLenAttr (d : SdxcAdma2Descriptor) (flags : BitVec 32) : SdxcAdma2Descriptor :=
  { d with
    valid := d.valid || flags.getLsbD 0
    isEnd := d.isEnd || flags.getLsbD 1
    interrupt := d.interrupt || flags.getLsbD 2
    act := d.act ||| flags.extractLsb' 3 3
    lenUpper := d.lenUpper ||| flags.extractLsb' 6 10
    lenLower := d.lenLower ||| flags.extractLsb' 16 16 }

/-- The length that the controller reads. -/
def length (d : SdxcAdma2Descriptor) : Nat := d.lenUpper.toNat * 2 ^ 16 + d.lenLower.toNat

end SdxcAdma2Descriptor

/-- `SDXC_ADMA2_DESC_VALID_FLAG`. -/
def sdxcAdma2DescValidFlag : BitVec 32 := 1 <<< 0

/-- `SDXC_ADMA2_DESC_END_FLAG`. -/
def sdxcAdma2DescEndFlag : BitVec 32 := 1 <<< 1

/-- `SDXC_ADMA2_DESC_TYPE_TRANS`, a value of the field `act`. -/
def sdxcAdma2DescTypeTrans : BitVec 32 := 4

/-- `sdxc_adma_desc_multi_flag`; any other value is taken for
`sdxc_adma_desc_single_flag`. -/
def sdxcAdmaDescMultiFlag : BitVec 32 := 1

/-- `SDXC_DMA_MAX_XFER_LEN_16BIT`, as it is defined. -/
def sdxcDmaMaxXferLen16bit : Nat := 2 ^ 26 - 4

/-! ## Tables -/

/-- The memory at a table: its descriptors by their index, and the words written,
of which `2 * i` and `2 * i + 1` are those of descriptor `i`. -/
structure Adma2Table where
  desc : Nat → SdxcAdma2Descriptor
  written : List Nat

namespace Adma2Table

/-- Write both words of a descriptor. -/
def store (t : Adma2Table) (i : Nat) (d : SdxcAdma2Descriptor) : Adma2Table where
  desc := fun k => if k = i then d else t.desc k
  written := t.written ++ [2 * i + 1, 2 * i]

/-- `adma2_desc[i].len_attr |= flags`. -/
def orLenAttr (t : Adma2Table) (i : Nat) (flags : BitVec 32) : Adma2Table where
  desc := fun k => if k = i then (t.desc i).orLenAttr flags else t.desc k
  written := t.written ++ [2 * i]

end Adma2Table

/-! ## `sdxc_set_adma2_desc` -/

/-- `data_bytes += data_bytes % sizeof(uint32_t)`. -/
def adma2DataBytes (dataBytes : BitVec 32) : BitVec 32 := dataBytes + dataBytes % 4

/-- The length of the piece that the next descriptor is for. -/
def adma2DmaBufLen (dataBytes : BitVec 32) : BitVec 32 :=
  if sdxcDmaMaxXferLen16bit < dataBytes.toNat then BitVec.ofNat 32 sdxcDmaMaxXferLen16bit
  else if dataBytes = 0 then 4
  else dataBytes

/-- The descriptor formatted in one pass; `bootDummy` is `&s_sdxc_boot_dummy`. -/
def adma2Entry (bootDummy data dataBytes : BitVec 32) : SdxcAdma2Descriptor :=
  let d : SdxcAdma2Descriptor :=
    { valid := false, isEnd := false, interrupt := false, act := 0, lenUpper := 0,
      lenLower := (adma2DmaBufLen dataBytes).setWidth 16,
      addr := if dataBytes = 0 then bootDummy else data }
  let d := d.orLenAttr sdxcAdma2DescValidFlag
  if dataBytes ≠ 0 then { d with act := sdxcAdma2DescTypeTrans.setWidth 3 } else d

/-- The loop over so many descriptors from `i` on. -/
def adma2Loop (bootDummy : BitVec 32) :
    Nat → Nat → BitVec 32 → BitVec 32 → Adma2Table → Adma2Table
  | 0, _, _, _, t => t
  | n + 1, i, data, dataBytes, t =>
    let len := adma2DmaBufLen dataBytes
    adma2Loop bootDummy n (i + 1) (data + len)
      (if dataBytes ≠ 0 then dataBytes - len else dataBytes)
      (t.store i (adma2Entry bootDummy data dataBytes))

/-- `max_entries`; the product wraps. -/
def adma2MaxEntries (admaTableWords : BitVec 32) : Nat := (admaTableWords * 4).toNat / 8

/-- `start_idx`: in multi mode the first descriptor that is not valid. -/
def adma2StartIdx (t : Adma2Table) (maxEntries : Nat) (flags : BitVec 32) : Nat :=
  if flags = sdxcAdmaDescMultiFlag then
    ((List.range maxEntries).find? fun i => !(t.desc i).valid).getD maxEntries
  else 0

/-- `min_entries`; in multi mode there is one dummy entry more. -/
def adma2MinEntries (dataBytes flags : BitVec 32) : Nat :=
  let dataBytes := (adma2DataBytes dataBytes).toNat
  dataBytes / sdxcDmaMaxXferLen16bit + (if dataBytes % sdxcDmaMaxXferLen16bit ≠ 0 then 1 else 0)
    + if flags = sdxcAdmaDescMultiFlag then 1 else 0

/-- `sdxc_set_adma2_desc`. -/
def sdxcSetAdma2Desc (bootDummy : BitVec 32) (t : Adma2Table) (admaTbl admaTableWords dataBuf
    dataBytes flags : BitVec 32) : SdxcStat × Adma2Table :=
  if admaTbl = 0 ∨ dataBuf = 0 then (.invalidArgument, t)
  else if dataBuf % 4 ≠ 0 then (.sdxcDmaAddrUnaligned, t)
  else
    let startIdx := adma2StartIdx t (adma2MaxEntries admaTableWords) flags
    let minEntries := adma2MinEntries dataBytes flags
    if adma2MaxEntries admaTableWords < minEntries + startIdx then (.invalidArgument, t)
    else
      let t := adma2Loop bootDummy minEntries startIdx dataBuf (adma2DataBytes dataBytes) t
      let i := BitVec.ofNat 32 (minEntries + startIdx)
      if flags = sdxcAdmaDescMultiFlag then
        (.success, t.orLenAttr (i + 1).toNat sdxcAdma2DescTypeTrans)
      else (.success, t.orLenAttr (i - 1).toNat sdxcAdma2DescEndFlag)

end HpmSdk.Sdxc
