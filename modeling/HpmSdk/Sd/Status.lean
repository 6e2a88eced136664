import HpmSdk.Foundation.Reverse
import HpmSdk.Sd.Init

set_option autoImplicit false

/-!
# SD cards: the SD status (`hpm_sdmmc_sd.c`)

`sd_read_status` reads a block of 512 bits that comes with its most significant byte first, turns
the words and the bytes of each word around, and decodes the block by a union with bit fields.
-/

namespace HpmSdk.Sd

open HpmSdk.Foundation

/-! ## Turning around -/

/-- A byte of a word in memory. -/
def wordBytes (word : BitVec 32) (i : Nat) : BitVec 8 := word.extractLsb' (8 * i) 8

/-- The word of four bytes in memory. -/
def bytesWord (bytes : Nat → BitVec 8) : BitVec 32 := bytes 3 ++ bytes 2 ++ bytes 1 ++ bytes 0

/-- `sd_be2le`, by its loop. -/
def sdBe2leLoop (be : BitVec 32) : BitVec 32 := bytesWord (swapEnds 4 (wordBytes be) 2)

/-- `sd_convert_data_endian`, by its loops. -/
def sdConvertDataEndianLoop (word : Nat → BitVec 32) (wordCount : Nat) : Nat → BitVec 32 :=
  let word := swapEnds wordCount word (wordCount / 2)
  fun i => if i < wordCount then sdBe2leLoop (word i) else word i

/-! ## Data -/

/-- The struct of `sd_raw_status_t`, without what has no name. -/
structure SdRawStatus where
  uhsAuSize : BitVec 4
  uhsSpeedGrade : BitVec 4
  eraseOffset : BitVec 2
  eraseTimeout : BitVec 6
  eraseSize : BitVec 16
  auSize : BitVec 4
  performanceMove : BitVec 8
  speedClass : BitVec 8
  sizeOfProtectedArea : BitVec 32
  sdCardType : BitVec 16
  securedMode : BitVec 1
  dataBusWidth : BitVec 2
  deriving DecidableEq, Repr

/-- The union: a unit of 64 bits behind twelve words, a word, and a unit of 32 bits, each filled
from its lowest bit on. -/
def SdRawStatus.ofWords (statusWords : Nat → BitVec 32) : SdRawStatus :=
  let unit : BitVec 64 := statusWords 13 ++ statusWords 12
  { uhsAuSize := unit.extractLsb' 8 4
    uhsSpeedGrade := unit.extractLsb' 12 4
    eraseOffset := unit.extractLsb' 16 2
    eraseTimeout := unit.extractLsb' 18 6
    eraseSize := unit.extractLsb' 24 16
    auSize := unit.extractLsb' 44 4
    performanceMove := unit.extractLsb' 48 8
    speedClass := unit.extractLsb' 56 8
    sizeOfProtectedArea := statusWords 14
    sdCardType := (statusWords 15).extractLsb' 0 16
    securedMode := (statusWords 15).extractLsb' 29 1
    dataBusWidth := (statusWords 15).extractLsb' 30 2 }

/-- `sd_status_t`. -/
structure SdStatus where
  busWidth : BitVec 8
  secureMode : BitVec 8
  cardType : BitVec 16
  protectedSize : BitVec 32
  speedClass : BitVec 8
  performanceMove : BitVec 8
  uhsSpeedGrade : BitVec 8
  eraseOffset : BitVec 8
  auSize : BitVec 32
  eraseTimeout : BitVec 32
  eraseSize : BitVec 32
  uhsAuSize : BitVec 32
  deriving DecidableEq, Repr

/-- After `memset(.., 0, ..)`. -/
def SdStatus.zero : SdStatus := ⟨0, 0, 0, 0, 0, 0, 0, 0, 0, 0, 0, 0⟩

/-- `sd_card_t`, as far as `sd_read_status` uses it, and the commands that were issued. -/
structure SdStatusSession where
  relativeAddr : BitVec 16
  status : SdStatus
  log : List SdIssued
  deriving DecidableEq, Repr

/-! ## The functions -/

/-- The `switch` on `speed_class`. -/
def sdSpeedClassOf (speedClass : BitVec 8) : BitVec 8 :=
  match speedClass.toNat with
  | 0 => 0
  | 1 => 2
  | 2 => 4
  | 3 => 6
  | 4 => 10
  | _ => 0

/-- `sd_decode_status`. -/
def sdDecodeStatus (status : SdStatus) (rawStatus : Nat → BitVec 32) : SdStatus :=
  let raw := SdRawStatus.ofWords rawStatus
  { status with
    busWidth := raw.dataBusWidth.setWidth 8
    secureMode := raw.securedMode.setWidth 8
    cardType := raw.sdCardType
    protectedSize := raw.sizeOfProtectedArea
    speedClass := sdSpeedClassOf raw.speedClass
    performanceMove := raw.performanceMove
    auSize := 0x4000 <<< raw.auSize.toNat
    eraseSize := raw.auSize.setWidth 32 * raw.eraseSize.setWidth 32
    uhsAuSize := 0x4000 <<< raw.uhsAuSize.toNat
    eraseTimeout := raw.eraseTimeout.setWidth 32
    uhsSpeedGrade := raw.uhsSpeedGrade.setWidth 8 }

def sdAcmdSdStatus : BitVec 32 := 13

/-- The card answers the next command of a session. -/
def sdStatusCommand (replies : Nat → SdInitReply) (cmdIndex cmdArgument : BitVec 32)
    (data : Option SdmmcData) (s : SdStatusSession) : HpmStatus × SdStatusSession :=
  let reply := replies s.log.length
  (reply.status, { s with log := s.log ++ [⟨cmdIndex, cmdArgument, data, reply.status⟩] })

/-- `sd_read_status`; the argument is that of the command in front, and the address of the buffer
of the host is left out. -/
def sdReadStatus (replies : Nat → SdInitReply) (s : SdStatusSession) :
    HpmStatus × SdStatusSession :=
  let rca := s.relativeAddr.setWidth 32 <<< 16
  let (status, s) := sdStatusCommand replies sdmmcCmdAppCmd rca none s
  if status ≠ statusSuccess then (status, s)
  else
    let buffer := (replies s.log.length).data
    let (status, s) := sdStatusCommand replies sdAcmdSdStatus rca (some ⟨64, 1, 0, 0⟩) s
    if status ≠ statusSuccess then (status, s)
    else
      (status, { s with status := sdDecodeStatus s.status (sdConvertDataEndianLoop buffer 16) })

/-! ## Turning around, as a whole -/

/-- The loop reverses the bytes of a word. -/
theorem sdBe2leLoop_eq (be : BitVec 32) : sdBe2leLoop be = sdBe2le be := by
  have hbyte : ∀ {i : Nat}, i < 4 → swapEnds 4 (wordBytes be) 2 i = wordBytes be (3 - i) :=
    fun hi => swapEnds_half (wordBytes be) hi
  unfold sdBe2leLoop bytesWord
  rw [hbyte (by decide), hbyte (by decide), hbyte (by decide), hbyte (by decide)]
  rfl

/-- A word that is turned around has the bytes of the word at the other end. -/
theorem sdConvertDataEndianLoop_apply (word : Nat → BitVec 32) {wordCount i : Nat}
    (hi : i < wordCount) :
    sdConvertDataEndianLoop word wordCount i = sdBe2le (word (wordCount - 1 - i)) := by
  unfold sdConvertDataEndianLoop
  rw [if_pos hi, sdBe2leLoop_eq, swapEnds_half word hi]

/-- What the loops leave of the words is what `sdConvertDataEndian` makes of them. -/
theorem sdConvertDataEndianLoop_eq (word : Nat → BitVec 32) (wordCount : Nat) :
    (List.range wordCount).map (sdConvertDataEndianLoop word wordCount) =
      sdConvertDataEndian ((List.range wordCount).map word) := by
  unfold sdConvertDataEndian
  apply List.ext_getElem
  · simp only [List.length_map, List.length_range, List.length_reverse]
  · intro i hi _
    have hlt : i < wordCount := by simpa using hi
    simp only [List.getElem_map, List.getElem_range, List.getElem_reverse, List.length_map,
      List.length_range]
    exact sdConvertDataEndianLoop_apply word hlt

/-! ## Failures -/

/-- A command that fails leaves the decoded status as it was. -/
theorem sdReadStatus_failed {replies : Nat → SdInitReply} {s : SdStatusSession}
    (h : (sdReadStatus replies s).1 ≠ statusSuccess) :
    (sdReadStatus replies s).2.status = s.status := by
  unfold sdReadStatus at h ⊢
  dsimp only [sdStatusCommand] at h ⊢
  split at h
  · next happ => rw [if_pos happ]
  · next happ =>
    rw [if_neg happ]
    split at h
    · next hread => rw [if_pos hread]
    · next hread => exact absurd h hread

end HpmSdk.Sd
