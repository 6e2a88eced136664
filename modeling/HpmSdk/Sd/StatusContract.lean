import HpmSdk.Foundation.Bits
import HpmSdk.Sd.Status

set_option autoImplicit false

/-!
# SD cards: the SD status against the block

Every field is taken from its place in the block but one, which is not taken at all.  The size of
an allocation unit is twice what its code stands for, or more, and the size of an erasure is
counted in codes.

The block is reversed word by word, so that a field of it is found where the specification numbers
it.
-/

namespace HpmSdk.Sd

open HpmSdk.Foundation

/-! ## The block -/

/-- The field of `width` bits at bit `first` of the block. -/
def sdStatusField (block : BitVec 512) (first width : Nat) : Nat := field first width block.toNat

/-- The bytes in their order on the line. -/
def sdStatusByte (block : BitVec 512) (k : Nat) : BitVec 8 := block.extractLsb' (8 * (63 - k)) 8

/-- The words of the buffer of the host. -/
def sdStatusBuffer (block : BitVec 512) (j : Nat) : BitVec 32 :=
  bytesWord fun i => sdStatusByte block (4 * j + i)

/-- What `SPEED_CLASS` stands for. -/
def sdSpeedClasses : List Nat := [0, 2, 4, 6, 10]

/-- What `AU_SIZE` stands for, from 1 on, in units of 16 KB. -/
def sdAuUnits : List Nat := [1, 2, 4, 8, 16, 32, 64, 128, 256, 512, 768, 1024, 1536, 2048, 4096]

/-- The size in bytes that `AU_SIZE` stands for; zero is not defined. -/
def sdAuBytes (code : Nat) : Option Nat :=
  if code = 0 then none else sdAuUnits[code - 1]?.map (16 * 1024 * ·)

/-- The size in bytes that `UHS_AU_SIZE` stands for; the codes below that of 1 MB are not used. -/
def sdUhsAuBytes (code : Nat) : Option Nat := if code < 7 then none else sdAuBytes code

/-! ## The contract -/

/-- The card answers both commands, and sends the block. -/
structure SdStatusSent (replies : Nat → SdInitReply) (s : SdStatusSession) (block : BitVec 512) :
    Prop where
  app : (replies s.log.length).status = statusSuccess
  read : (replies (s.log.length + 1)).status = statusSuccess
  data : ∀ j < 16, (replies (s.log.length + 1)).data j = sdStatusBuffer block j

/-- What is asked: each field holds what is in the block, or what that stands for, where it stands
for something. -/
structure SdStatusRight (block : BitVec 512) (status : SdStatus) : Prop where
  busWidth : status.busWidth.toNat = sdStatusField block 510 2
  secureMode : status.secureMode.toNat = sdStatusField block 509 1
  cardType : status.cardType.toNat = sdStatusField block 480 16
  protectedSize : status.protectedSize.toNat = sdStatusField block 448 32
  speedClass : ∀ n ∈ sdSpeedClasses[sdStatusField block 440 8]?, status.speedClass.toNat = n
  performanceMove : status.performanceMove.toNat = sdStatusField block 432 8
  auSize : ∀ n ∈ sdAuBytes (sdStatusField block 428 4), status.auSize.toNat = n
  eraseSize : ∀ n ∈ sdAuBytes (sdStatusField block 428 4),
    status.eraseSize.toNat = sdStatusField block 408 16 * n
  eraseTimeout : status.eraseTimeout.toNat = sdStatusField block 402 6
  eraseOffset : status.eraseOffset.toNat = sdStatusField block 400 2
  uhsSpeedGrade : status.uhsSpeedGrade.toNat = sdStatusField block 396 4
  uhsAuSize : ∀ n ∈ sdUhsAuBytes (sdStatusField block 392 4), status.uhsAuSize.toNat = n

/-! ## The words -/

/-- A word and its bytes determine each other. -/
theorem wordBytes_bytesWord (bytes : Nat → BitVec 8) {i : Nat} (hi : i < 4) :
    wordBytes (bytesWord bytes) i = bytes i := by
  unfold wordBytes bytesWord
  match i, hi with
  | 0, _ => exact BitVec.extractLsb'_append_eq_right
  | 1, _ =>
    rw [BitVec.extractLsb'_append_eq_of_le (by decide)]
    exact BitVec.extractLsb'_append_eq_right
  | 2, _ =>
    rw [BitVec.extractLsb'_append_eq_of_le (by decide),
      BitVec.extractLsb'_append_eq_of_le (by decide)]
    exact BitVec.extractLsb'_append_eq_right
  | 3, _ =>
    rw [BitVec.extractLsb'_append_eq_of_le (by decide),
      BitVec.extractLsb'_append_eq_of_le (by decide),
      BitVec.extractLsb'_append_eq_of_le (by decide)]
    exact BitVec.extractLsb'_eq_self

/-- Reversing the bytes of a word that came most significant first gives its value. -/
theorem sdBe2le_bytesWord (bytes : Nat → BitVec 8) :
    sdBe2le (bytesWord bytes) = bytes 0 ++ bytes 1 ++ bytes 2 ++ bytes 3 := by
  have hbyte : ∀ {i : Nat}, i < 4 → (bytesWord bytes).extractLsb' (8 * i) 8 = bytes i :=
    fun hi => wordBytes_bytesWord bytes hi
  unfold sdBe2le
  rw [← hbyte (show 0 < 4 by decide), ← hbyte (show 1 < 4 by decide),
    ← hbyte (show 2 < 4 by decide), ← hbyte (show 3 < 4 by decide)]

/-- Adjacent bytes are a word. -/
theorem bytes_append {n : Nat} (x : BitVec n) (first : Nat) :
    x.extractLsb' (first + 24) 8 ++ x.extractLsb' (first + 16) 8 ++ x.extractLsb' (first + 8) 8 ++
      x.extractLsb' first 8 = x.extractLsb' first 32 := by
  have happend : ∀ {a b m k : Nat}, b = a + k →
      x.extractLsb' b m ++ x.extractLsb' a k = x.extractLsb' a (m + k) :=
    fun h => BitVec.extractLsb'_append_extractLsb'_eq_extractLsb' h
  rw [happend (show first + 24 = first + 16 + 8 from rfl),
    happend (show first + 16 = first + 8 + 8 from rfl),
    happend (show first + 8 = first + 8 from rfl)]

/-- A part of a part is a part. -/
theorem extractLsb'_part {m first start width n : Nat} {x : BitVec m} (h : start + width ≤ n) :
    (x.extractLsb' first n).extractLsb' start width = x.extractLsb' (first + start) width := by
  refine BitVec.eq_of_getLsbD_eq fun i hi => ?_
  have hlt : start + i < n := (Nat.add_lt_add_left hi start).trans_le h
  simp only [BitVec.getLsbD_extractLsb', hi, hlt, decide_true, Bool.true_and, Nat.add_assoc]

/-- Turned around, the buffer is the block. -/
theorem sdStatusBuffer_converted {block : BitVec 512} {buffer : Nat → BitVec 32}
    (hdata : ∀ j < 16, buffer j = sdStatusBuffer block j) {i : Nat} (hi : i < 16) :
    sdConvertDataEndianLoop buffer 16 i = block.extractLsb' (32 * i) 32 := by
  have hplace : ∀ k, k < 4 → 8 * (63 - (4 * (16 - 1 - i) + k)) = 32 * i + 8 * (3 - k) :=
    fun k hk => by omega
  rw [sdConvertDataEndianLoop_apply buffer hi, hdata _ (by omega), ← bytes_append]
  unfold sdStatusBuffer
  rw [sdBe2le_bytesWord]
  unfold sdStatusByte
  rw [hplace 0 (by decide), hplace 1 (by decide), hplace 2 (by decide), hplace 3 (by decide)]
  rfl

/-! ## The fields -/

section Fields

variable {block : BitVec 512} {statusWords : Nat → BitVec 32}

/-- A field of the block of 512 bits is read as the specification numbers it. -/
theorem toNat_blockField (first width : Nat) :
    (block.extractLsb' first width).toNat = sdStatusField block first width := by
  unfold sdStatusField field
  rw [BitVec.extractLsb'_toNat, Nat.shiftRight_eq_div_pow]

/-- Each bit field is a field of the block. -/
theorem SdRawStatus.ofWords_eq
    (h : ∀ i < 16, statusWords i = block.extractLsb' (32 * i) 32) :
    SdRawStatus.ofWords statusWords =
      { uhsAuSize := block.extractLsb' 392 4
        uhsSpeedGrade := block.extractLsb' 396 4
        eraseOffset := block.extractLsb' 400 2
        eraseTimeout := block.extractLsb' 402 6
        eraseSize := block.extractLsb' 408 16
        auSize := block.extractLsb' 428 4
        performanceMove := block.extractLsb' 432 8
        speedClass := block.extractLsb' 440 8
        sizeOfProtectedArea := block.extractLsb' 448 32
        sdCardType := block.extractLsb' 480 16
        securedMode := block.extractLsb' 509 1
        dataBusWidth := block.extractLsb' 510 2 } := by
  have hunit : statusWords 13 ++ statusWords 12 = block.extractLsb' 384 64 := by
    rw [h 13 (by decide), h 12 (by decide)]
    exact BitVec.extractLsb'_append_extractLsb'_eq_extractLsb' rfl
  have hpart : ∀ {first width n : Nat} (start : Nat), start + width ≤ n →
      (block.extractLsb' first n).extractLsb' start width =
        block.extractLsb' (first + start) width :=
    fun _ hle => extractLsb'_part hle
  unfold SdRawStatus.ofWords
  rw [hunit, h 14 (by decide), h 15 (by decide)]
  dsimp only
  rw [hpart 8 (by decide), hpart 12 (by decide), hpart 16 (by decide), hpart 18 (by decide),
    hpart 24 (by decide), hpart 44 (by decide), hpart 48 (by decide), hpart 56 (by decide),
    hpart 0 (by decide), hpart 29 (by decide), hpart 30 (by decide)]

end Fields

/-! ## What the codes stand for -/

/-- The codes of the speed classes. -/
theorem toNat_sdSpeedClassOf {code : BitVec 8} {n : Nat} (h : n ∈ sdSpeedClasses[code.toNat]?) :
    (sdSpeedClassOf code).toNat = n := by
  unfold sdSpeedClassOf
  generalize code.toNat = c at h ⊢
  match c with
  | 0 => exact Option.some.inj h
  | 1 => exact Option.some.inj h
  | 2 => exact Option.some.inj h
  | 3 => exact Option.some.inj h
  | 4 => exact Option.some.inj h
  | c + 5 =>
    have hnone : sdSpeedClasses[c + 5]? = none := List.getElem?_eq_none (Nat.le_add_left 5 c)
    rw [hnone] at h
    cases h

/-- The size that is computed is not the one that a code stands for. -/
theorem auSize_right_iff (code : BitVec 4) :
    (∀ n ∈ sdAuBytes code.toNat, ((0x4000 : BitVec 32) <<< code.toNat).toNat = n) ↔
      code.toNat = 0 := by
  revert code
  decide

/-- The size of an allocation unit for UHS is right only for the codes that are not used. -/
theorem uhsAuSize_right_iff (code : BitVec 4) :
    (∀ n ∈ sdUhsAuBytes code.toNat, ((0x4000 : BitVec 32) <<< code.toNat).toNat = n) ↔
      code.toNat ≤ 6 := by
  revert code
  decide

/-! ## The status -/

section Status

variable {replies : Nat → SdInitReply} {s : SdStatusSession} {block : BitVec 512}

/-- What is decoded where both commands succeed. -/
theorem SdStatusSent.status_eq (h : SdStatusSent replies s block) :
    (sdReadStatus replies s).2.status =
      { s.status with
        busWidth := (block.extractLsb' 510 2).setWidth 8
        secureMode := (block.extractLsb' 509 1).setWidth 8
        cardType := block.extractLsb' 480 16
        protectedSize := block.extractLsb' 448 32
        speedClass := sdSpeedClassOf (block.extractLsb' 440 8)
        performanceMove := block.extractLsb' 432 8
        auSize := 0x4000 <<< (block.extractLsb' 428 4).toNat
        eraseSize := (block.extractLsb' 428 4).setWidth 32 * (block.extractLsb' 408 16).setWidth 32
        uhsAuSize := 0x4000 <<< (block.extractLsb' 392 4).toNat
        eraseTimeout := (block.extractLsb' 402 6).setWidth 32
        uhsSpeedGrade := (block.extractLsb' 396 4).setWidth 8 } := by
  have hlength : ∀ e : SdIssued, (s.log ++ [e]).length = s.log.length + 1 := fun e =>
    List.length_append
  have hwords := SdRawStatus.ofWords_eq fun i hi => sdStatusBuffer_converted h.data hi
  unfold sdReadStatus
  dsimp only [sdStatusCommand]
  rw [if_neg (not_not.mpr h.app), hlength, if_neg (not_not.mpr h.read)]
  dsimp only
  unfold sdDecodeStatus
  rw [hwords]

/-- **The decoded status is right if and only if neither code of an allocation unit stands for a
size, and the erase offset is the one that was there before.**

The words and their bytes are turned round so that each field of the union is the field of the
block.  The sizes of the allocation units are powers of two shifted one too far, so they are right
for no code that stands for a size; the erase size is computed from the same code; and the erase
offset is never assigned. -/
theorem sdReadStatus_right_iff (h : SdStatusSent replies s block) :
    SdStatusRight block (sdReadStatus replies s).2.status ↔
      sdStatusField block 428 4 = 0 ∧ sdStatusField block 392 4 ≤ 6 ∧
        s.status.eraseOffset.toNat = sdStatusField block 400 2 := by
  have hwide : ∀ {m : Nat} {first width : Nat}, width ≤ m →
      ((block.extractLsb' first width).setWidth m).toNat = sdStatusField block first width :=
    fun hle => (BitVec.toNat_setWidth_of_le hle).trans (toNat_blockField _ _)
  rw [h.status_eq, ← toNat_blockField 428 4, ← toNat_blockField 392 4,
    ← auSize_right_iff, ← uhsAuSize_right_iff]
  constructor
  · intro hright
    have hau := hright.auSize
    have huhs := hright.uhsAuSize
    rw [← toNat_blockField] at hau huhs
    exact ⟨hau, huhs, hright.eraseOffset⟩
  · rintro ⟨hau, huhs, hoffset⟩
    have hnone : sdAuBytes (sdStatusField block 428 4) = none := by
      rw [← toNat_blockField, (auSize_right_iff _).mp hau]
      rfl
    constructor
    · exact hwide (by decide)
    · exact hwide (by decide)
    · exact toNat_blockField ..
    · exact toNat_blockField ..
    · intro n hn
      rw [← toNat_blockField] at hn
      exact toNat_sdSpeedClassOf hn
    · exact toNat_blockField ..
    · rw [← toNat_blockField]
      exact hau
    · intro n hn
      rw [hnone] at hn
      cases hn
    · exact hwide (by decide)
    · exact hoffset
    · exact hwide (by decide)
    · rw [← toNat_blockField]
      exact huhs

end Status

/-- A card in 4-bit mode that gives no size of an allocation unit. -/
def plainBlock : BitVec 512 := 2 <<< 510

/-- A card whose allocation units have 4 MB. -/
def fourMegabyteBlock : BitVec 512 := 9 <<< 428

/-- A session with a card that answers every command, and sends a block where it sends data. -/
def blockReplies (block : BitVec 512) (_ : Nat) : SdInitReply :=
  ⟨statusSuccess, Sdxc.Words4.zero, sdStatusBuffer block⟩

def freshStatusSession : SdStatusSession := ⟨1, SdStatus.zero, []⟩

/-- The block arrives as it was sent. -/
theorem blockReplies_sent (block : BitVec 512) (s : SdStatusSession) :
    SdStatusSent (blockReplies block) s block :=
  ⟨rfl, rfl, fun _ _ => rfl⟩

theorem sdReadStatus_right_plain : SdStatusRight plainBlock
    (sdReadStatus (blockReplies plainBlock) freshStatusSession).2.status :=
  (sdReadStatus_right_iff (blockReplies_sent plainBlock freshStatusSession)).mpr (by decide +kernel)

/-- A size of 4 MB is decoded as 8 MB. -/
theorem sdReadStatus_doubles : ¬ ∀ (replies : Nat → SdInitReply) (s : SdStatusSession)
    (block : BitVec 512), SdStatusSent replies s block →
      SdStatusRight block (sdReadStatus replies s).2.status := by
  intro h
  have hsent := blockReplies_sent fourMegabyteBlock freshStatusSession
  have hright := (h _ _ _ hsent).auSize
  have hcode : sdStatusField fourMegabyteBlock 428 4 = 9 := by
    rw [← toNat_blockField]
    decide +kernel
  have hsize := hright (4 * 1024 * 1024)
  rw [hcode, hsent.status_eq] at hsize
  dsimp only at hsize
  rw [toNat_blockField, hcode] at hsize
  exact absurd (hsize rfl) (by decide)

end HpmSdk.Sd
