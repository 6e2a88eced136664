import HpmSdk.Sd.Csd

set_option autoImplicit false

/-!
# SD cards: decoding into a used card structure

Flags are only ever set, and some numbers are assigned for some versions of the CSD
only.  Decoding the registers of a card into the structure of another one is the
same as into a cleared structure exactly where none of that shows.

A card structure is split into its flags, which are only ever set, and everything else, which is
written or not by the version of the second card.
-/

namespace HpmSdk.Sd

open HpmSdk.Foundation HpmSdk.Sdxc

/-! ## Registers and decoding -/

/-- The registers of a card, as they are handed to the two functions. -/
structure SdRegisters where
  csd : Words4
  scr0 : BitVec 32
  scr1 : BitVec 32
  deriving DecidableEq, Repr

/-- Decode the CSD and the SCR, as `sd_card_init` does. -/
def sdDecode (card : SdCard) (r : SdRegisters) : SdCard :=
  sdDecodeScr (sdDecodeCsd card r.csd) r.scr0 r.scr1

namespace SdRegisters

/-- `csd_structure`. -/
def version (r : SdRegisters) : BitVec 8 := ((r.csd.w3 &&& 0xC0000000) >>> 30).setWidth 8

/-- `device_size` of version 2.0. -/
def deviceSizeV2 (r : SdRegisters) : BitVec 32 :=
  ((r.csd.w2 &&& 0x3F) <<< 16) ||| ((r.csd.w1 &&& 0xFFFF0000) >>> 16)

/-- Whether the blocks of the card have the default size, where `READ_BL_LEN` says so. -/
def DefaultBlocks (r : SdRegisters) : Prop :=
  (1 : BitVec 32) <<< (((r.csd.w2 &&& 0xF0000) >>> 16).setWidth 8 |>.setWidth 32).toNat =
    sdmmcBlockSizeDefault

instance (r : SdRegisters) : Decidable r.DefaultBlocks := inferInstanceAs (Decidable (_ = _))

/-- The flags that the registers set, in the order of `SdCard.flags`. -/
def flags (r : SdRegisters) : List Bool :=
  [r.csd.w2 &&& 0x8000 ≠ 0, r.csd.w2 &&& 0x4000 ≠ 0, r.csd.w2 &&& 0x2000 ≠ 0,
    r.csd.w2 &&& 0x1000 ≠ 0, r.version = 1 ∧ 0xFFFF ≤ r.deviceSizeV2,
    ((r.csd.w1 &&& 0x4000) >>> 14).setWidth 8 ≠ (0 : BitVec 8),
    (r.csd.w0 &&& 0x80000000).setWidth 8 ≠ (0 : BitVec 8),
    ((r.csd.w0 &&& 0x200000) >>> 21).setWidth 8 ≠ (0 : BitVec 8),
    ((r.csd.w0 &&& 0x8000) >>> 15).setWidth 8 ≠ (0 : BitVec 8),
    ((r.csd.w0 &&& 0x4000) >>> 14).setWidth 8 ≠ (0 : BitVec 8),
    ((r.csd.w0 &&& 0x2000) >>> 13).setWidth 8 ≠ (0 : BitVec 8),
    ((r.csd.w0 &&& 0x1000) >>> 12).setWidth 8 ≠ (0 : BitVec 8),
    (SdScr.mk r.scr0 r.scr1).supportCmd20 = true, (SdScr.mk r.scr0 r.scr1).supportCmd23 = true,
    (SdScr.mk r.scr0 r.scr1).sdBusWidths &&& 0x04 ≠ 0]

/-- The numbers that only version 1.0 has. -/
def v1Numbers (r : SdRegisters) : List (BitVec 8) :=
  [((r.csd.w1 &&& 0x38000000) >>> 27).setWidth 8, ((r.csd.w1 &&& 0x7000000) >>> 24).setWidth 8,
    ((r.csd.w1 &&& 0xE00000) >>> 20).setWidth 8, ((r.csd.w1 &&& 0x1C0000) >>> 18).setWidth 8,
    ((r.csd.w1 &&& 0x38000) >>> 15).setWidth 8]

end SdRegisters

namespace SdCard

/-- All flags of the structure. -/
def flags (c : SdCard) : List Bool :=
  [c.csd.supportReadBlockPartial, c.csd.supportWriteBlockMisalignment,
    c.csd.supportReadBlockMisalignment, c.csd.isDsrImplemented, c.csd.supportSdxc,
    c.csd.isEraseBlockEnabled, c.csd.isWriteProtectionGroupEnabled,
    c.csd.supportWriteBlockPartial, c.csd.supportFileFormatGroup, c.csd.supportCopy,
    c.csd.supportPermanentWriteProtect, c.csd.supportTemporaryWriteProtect,
    c.sdFlags.supportSpeedClassControlCmd, c.sdFlags.supportSetBlockCountCmd,
    c.sdFlags.support4bitWidth]

/-- The numbers that only version 1.0 assigns. -/
def v1Numbers (c : SdCard) : List (BitVec 8) :=
  [c.csd.readCurrentVddMin, c.csd.readCurrentVddMax, c.csd.writeCurrentVddMin,
    c.csd.writeCurrentVddMax, c.csd.deviceSizeMultiplier]

/-- The capacity, which is not assigned for every version. -/
def capacity (c : SdCard) : List (BitVec 32) := [c.csd.deviceSize, c.blockCount, c.blockSize]

end SdCard

/-- Nothing of the first card shows after the second one was decoded. -/
structure NoTrace (a b : SdRegisters) : Prop where
  flags : ∀ p ∈ a.flags.zip b.flags, p.1 = true → p.2 = true
  v1Numbers : b.version = 0 ∨ a.version ≠ 0 ∨ ∀ x ∈ a.v1Numbers, x = 0
  unsupported : b.version = 0 ∨ b.version = 1 ∨ (a.version ≠ 0 ∧ a.version ≠ 1)
  size : b.version = 0 → b.DefaultBlocks →
    (a.version = 0 ∧ a.DefaultBlocks) ∨ (a.version ≠ 0 ∧ a.version ≠ 1)

/-! ## Flags -/

theorem ite_true_eq_or (p : Prop) [Decidable p] (x : Bool) :
    (if p then true else x) = (decide p || x) := by
  split <;> simp_all

section Cases

variable (card : SdCard) (r : SdRegisters)

/-- The card once the fields in front of the capacity are decoded. -/
def sdHead : SdCard := { card with csd := sdDecodeCsdHead card.csd r.csd }

/-- Both registers, for a card of version 1. -/
theorem sdDecode_v1 (h : r.version = 0) :
    sdDecode card r = sdDecodeScr
      { sdDecodeCsdV1 (sdHead card r) r.csd with
        csd := sdDecodeCsdTail (csdV1 (sdHead card r).csd r.csd) sdmmcBlockSizeDefault r.csd
        maxFreq := sdMaxFreq r.csd } r.scr0 r.scr1 := by
  have hzero : (sdDecodeCsdHead card.csd r.csd).csdStructure = 0 := h
  unfold sdDecode sdDecodeCsd sdHead
  dsimp only
  rw [if_pos hzero, sdDecodeCsdV1_csd, sdDecodeCsdV1_blockSize]

/-- Both registers, for a card of version 2. -/
theorem sdDecode_v2 (h : r.version = 1) :
    sdDecode card r = sdDecodeScr
      { sdDecodeCsdV2 (sdHead card r) r.csd with
        csd := sdDecodeCsdTail (sdDecodeCsdV2 (sdHead card r) r.csd).csd sdmmcBlockSizeDefault r.csd
        maxFreq := sdMaxFreq r.csd } r.scr0 r.scr1 := by
  have hone : (sdDecodeCsdHead card.csd r.csd).csdStructure = 1 := h
  have hne : ¬ (sdDecodeCsdHead card.csd r.csd).csdStructure = 0 := by
    rw [hone]
    decide
  unfold sdDecode sdDecodeCsd sdHead
  dsimp only
  rw [if_neg hne, if_pos hone]
  rfl

/-- Both registers, where the version is neither: the head and the tail of the CSD are still
decoded. -/
theorem sdDecode_other (h₀ : r.version ≠ 0) (h₁ : r.version ≠ 1) :
    sdDecode card r = sdDecodeScr
      { sdHead card r with
        csd := sdDecodeCsdTail (sdHead card r).csd card.blockSize r.csd
        maxFreq := sdMaxFreq r.csd } r.scr0 r.scr1 := by
  have hne₀ : ¬ (sdDecodeCsdHead card.csd r.csd).csdStructure = 0 := h₀
  have hne₁ : ¬ (sdDecodeCsdHead card.csd r.csd).csdStructure = 1 := h₁
  unfold sdDecode sdDecodeCsd sdHead
  dsimp only
  rw [if_neg hne₀, if_neg hne₁]

theorem sdDecodeCsdV1_sdFlags (raw : Words4) :
    (sdDecodeCsdV1 card raw).sdFlags = card.sdFlags := by
  unfold sdDecodeCsdV1
  dsimp only
  split <;> rfl

/-- Every flag is kept or set. -/
theorem sdDecode_flags :
    (sdDecode card r).flags = List.zipWith (· || ·) r.flags card.flags := by
  unfold SdRegisters.flags SdCard.flags
  simp only [List.zipWith_cons_cons, List.zipWith_nil_left, ← ite_true_eq_or]
  by_cases h₀ : r.version = 0
  · have hsdxc : ¬ (r.version = 1 ∧ 0xFFFF ≤ r.deviceSizeV2) := by
      rw [h₀]
      exact fun h => absurd h.1 (by decide)
    rw [sdDecode_v1 card r h₀, if_neg hsdxc]
    simp only [sdDecodeScr, sdDecodeCsdV1_sdFlags]
    rfl
  by_cases h₁ : r.version = 1
  · have hsdxc : (r.version = 1 ∧ 0xFFFF ≤ r.deviceSizeV2) ↔ 0xFFFF ≤ r.deviceSizeV2 :=
      and_iff_right h₁
    simp only [hsdxc]
    rw [sdDecode_v2 card r h₁]
    rfl
  · have hsdxc : ¬ (r.version = 1 ∧ 0xFFFF ≤ r.deviceSizeV2) := fun h => h₁ h.1
    rw [sdDecode_other card r h₀ h₁, if_neg hsdxc]
    rfl

end Cases

/-! ## Everything else -/

/-- The structure with all flags cleared. -/
def SdCard.withoutFlags (c : SdCard) : SdCard :=
  { c with
    csd := { c.csd with
      supportReadBlockPartial := false
      supportWriteBlockMisalignment := false
      supportReadBlockMisalignment := false
      isDsrImplemented := false
      supportSdxc := false
      isEraseBlockEnabled := false
      isWriteProtectionGroupEnabled := false
      supportWriteBlockPartial := false
      supportFileFormatGroup := false
      supportCopy := false
      supportPermanentWriteProtect := false
      supportTemporaryWriteProtect := false }
    sdFlags := ⟨false, false, false⟩ }

theorem withoutFlags_v1Numbers (c : SdCard) : c.withoutFlags.v1Numbers = c.v1Numbers := rfl

theorem withoutFlags_capacity (c : SdCard) : c.withoutFlags.capacity = c.capacity := rfl

theorem withoutFlags_cardSizeInBytes (c : SdCard) :
    c.withoutFlags.cardSizeInBytes = c.cardSizeInBytes := rfl

/-- A card structure is its flags and everything else. -/
theorem SdCard.eq_iff {c d : SdCard} :
    c = d ↔ c.flags = d.flags ∧ c.withoutFlags = d.withoutFlags := by
  refine ⟨fun h => h ▸ ⟨rfl, rfl⟩, fun ⟨hflags, hrest⟩ => ?_⟩
  obtain ⟨csd, scr, sdFlags, _, _, _, _⟩ := c
  obtain ⟨csd', scr', sdFlags', _, _, _, _⟩ := d
  cases csd
  cases csd'
  cases sdFlags
  cases sdFlags'
  simp_all [SdCard.flags, SdCard.withoutFlags]

/-- Nothing that decoding leaves in place is set. -/
structure Unmarked (card : SdCard) (r : SdRegisters) : Prop where
  v1Numbers : r.version ≠ 0 → ∀ x ∈ card.v1Numbers, x = 0
  capacity : r.version ≠ 0 → r.version ≠ 1 → ∀ x ∈ card.capacity, x = 0
  size : (r.version = 0 ∧ r.DefaultBlocks) ∨ (r.version ≠ 0 ∧ r.version ≠ 1) →
    card.cardSizeInBytes = 0

section Rest

variable (card : SdCard) (r : SdRegisters)

/-- What decoding makes of everything else, by what was there before. -/
theorem withoutFlags_v1 (h : r.version = 0) :
    (sdDecode card r).withoutFlags =
      { (sdDecode SdCard.zero r).withoutFlags with
        cardSizeInBytes := if r.DefaultBlocks then card.cardSizeInBytes
          else (sdDecode SdCard.zero r).cardSizeInBytes } := by
  rw [sdDecode_v1 card r h, sdDecode_v1 SdCard.zero r h]
  split
  · rename_i hblocks
    have hsame : ∀ c : SdCard, (1 : BitVec 32) <<< (sdHead c r).csd.readBlockLen.toNat =
        sdmmcBlockSizeDefault := fun _ => hblocks
    rw [sdDecodeCsdV1_of_default (hsame card), sdDecodeCsdV1_of_default (hsame SdCard.zero)]
    rfl
  · rename_i hblocks
    have hsame : ∀ c : SdCard, (1 : BitVec 32) <<< (sdHead c r).csd.readBlockLen.toNat ≠
        sdmmcBlockSizeDefault := fun _ => hblocks
    rw [sdDecodeCsdV1_of_other (hsame card), sdDecodeCsdV1_of_other (hsame SdCard.zero)]
    rfl

/-- The same for version 2. -/
theorem withoutFlags_v2 (h : r.version = 1) :
    (sdDecode card r).withoutFlags =
      { (sdDecode SdCard.zero r).withoutFlags with
        csd := { (sdDecode SdCard.zero r).withoutFlags.csd with
          readCurrentVddMin := card.csd.readCurrentVddMin
          readCurrentVddMax := card.csd.readCurrentVddMax
          writeCurrentVddMin := card.csd.writeCurrentVddMin
          writeCurrentVddMax := card.csd.writeCurrentVddMax
          deviceSizeMultiplier := card.csd.deviceSizeMultiplier } } := by
  rw [sdDecode_v2 card r h, sdDecode_v2 SdCard.zero r h]
  rfl

/-- The same for neither version. -/
theorem withoutFlags_other (h₀ : r.version ≠ 0) (h₁ : r.version ≠ 1) :
    (sdDecode card r).withoutFlags =
      { (sdDecode SdCard.zero r).withoutFlags with
        csd := { (sdDecode SdCard.zero r).withoutFlags.csd with
          readCurrentVddMin := card.csd.readCurrentVddMin
          readCurrentVddMax := card.csd.readCurrentVddMax
          writeCurrentVddMin := card.csd.writeCurrentVddMin
          writeCurrentVddMax := card.csd.writeCurrentVddMax
          deviceSizeMultiplier := card.csd.deviceSizeMultiplier
          deviceSize := card.csd.deviceSize
          eraseSectorSize := (1 + ((r.csd.w1 &&& 0x3F80) >>> 7)) * card.blockSize
          writeProtectGroupSize := (1 + (r.csd.w1 &&& 0x7F)) * card.blockSize }
        blockCount := card.blockCount
        blockSize := card.blockSize
        cardSizeInBytes := card.cardSizeInBytes } := by
  rw [sdDecode_other card r h₀ h₁, sdDecode_other SdCard.zero r h₀ h₁]
  rfl

/-- The numbers of version 1 are written for version 1 only. -/
theorem v1Numbers_kept (h : r.version ≠ 0) :
    (sdDecode card r).v1Numbers = card.v1Numbers := by
  by_cases h₁ : r.version = 1
  · rw [sdDecode_v2 card r h₁]
    rfl
  · rw [sdDecode_other card r h h₁]
    rfl

/-- The capacity is written for the two versions only. -/
theorem capacity_kept (h₀ : r.version ≠ 0) (h₁ : r.version ≠ 1) :
    (sdDecode card r).capacity = card.capacity := by
  rw [sdDecode_other card r h₀ h₁]
  rfl

/-- The size in bytes is not written for blocks of 512 bytes. -/
theorem size_kept
    (h : (r.version = 0 ∧ r.DefaultBlocks) ∨ (r.version ≠ 0 ∧ r.version ≠ 1)) :
    (sdDecode card r).cardSizeInBytes = card.cardSizeInBytes := by
  rcases h with ⟨h₀, hblocks⟩ | ⟨h₀, h₁⟩
  · have hsame : (1 : BitVec 32) <<< (sdHead card r).csd.readBlockLen.toNat =
        sdmmcBlockSizeDefault := hblocks
    rw [sdDecode_v1 card r h₀, sdDecodeCsdV1_of_default hsame]
    rfl
  · rw [sdDecode_other card r h₀ h₁]
    rfl

variable {card r}

theorem forall_zero_of_eq {n : Nat} {xs : List (BitVec n)} (k : Nat)
    (h : xs = List.replicate k 0) : ∀ x ∈ xs, x = 0 := by
  rw [h]
  exact fun x hx => List.eq_of_mem_replicate hx

/-- Apart from the flags, decoding gives the same as into a cleared structure exactly
where it leaves nothing in place. -/
theorem withoutFlags_eq_iff :
    (sdDecode card r).withoutFlags = (sdDecode SdCard.zero r).withoutFlags ↔ Unmarked card r := by
  constructor
  · intro h
    refine ⟨fun h₀ => ?_, fun h₀ h₁ => ?_, fun hsize => ?_⟩
    · have hnumbers : (sdDecode card r).withoutFlags.v1Numbers =
          (sdDecode SdCard.zero r).withoutFlags.v1Numbers := congrArg SdCard.v1Numbers h
      rw [withoutFlags_v1Numbers, withoutFlags_v1Numbers, v1Numbers_kept card r h₀,
        v1Numbers_kept SdCard.zero r h₀] at hnumbers
      exact forall_zero_of_eq 5 hnumbers
    · have hcapacity : (sdDecode card r).withoutFlags.capacity =
          (sdDecode SdCard.zero r).withoutFlags.capacity := congrArg SdCard.capacity h
      rw [withoutFlags_capacity, withoutFlags_capacity, capacity_kept card r h₀ h₁,
        capacity_kept SdCard.zero r h₀ h₁] at hcapacity
      exact forall_zero_of_eq 3 hcapacity
    · have hbytes : (sdDecode card r).withoutFlags.cardSizeInBytes =
          (sdDecode SdCard.zero r).withoutFlags.cardSizeInBytes :=
        congrArg SdCard.cardSizeInBytes h
      rw [withoutFlags_cardSizeInBytes, withoutFlags_cardSizeInBytes, size_kept card r hsize,
        size_kept SdCard.zero r hsize] at hbytes
      exact hbytes
  · intro h
    by_cases h₀ : r.version = 0
    · refine (withoutFlags_v1 card r h₀).trans (Eq.trans ?_ (withoutFlags_v1 SdCard.zero r h₀).symm)
      split
      · rename_i hblocks
        rw [h.size (Or.inl ⟨h₀, hblocks⟩)]
        rfl
      · rfl
    have hnumbers := h.v1Numbers h₀
    simp only [SdCard.v1Numbers, List.forall_mem_cons, List.not_mem_nil, false_imp_iff,
      implies_true, and_true] at hnumbers
    obtain ⟨hrmin, hrmax, hwmin, hwmax, hmult⟩ := hnumbers
    by_cases h₁ : r.version = 1
    · refine (withoutFlags_v2 card r h₁).trans (Eq.trans ?_ (withoutFlags_v2 SdCard.zero r h₁).symm)
      rw [hrmin, hrmax, hwmin, hwmax, hmult]
      rfl
    · have hcapacity := h.capacity h₀ h₁
      simp only [SdCard.capacity, List.forall_mem_cons, List.not_mem_nil, false_imp_iff,
        implies_true, and_true] at hcapacity
      obtain ⟨hdevice, hcount, hblock⟩ := hcapacity
      refine (withoutFlags_other card r h₀ h₁).trans
        (Eq.trans ?_ (withoutFlags_other SdCard.zero r h₀ h₁).symm)
      rw [hrmin, hrmax, hwmin, hwmax, hmult, hdevice, hcount, hblock,
        h.size (Or.inr ⟨h₀, h₁⟩)]
      rfl

end Rest

/-! ## What the first card leaves -/

/-- The flags of the used structure are covered exactly where no flag is added. -/
theorem zipWith_or_eq_iff : ∀ (bs as : List Bool), as.length = bs.length →
    (List.zipWith (· || ·) bs as = bs ↔ ∀ p ∈ as.zip bs, p.1 = true → p.2 = true)
  | [], [], _ => by simp
  | b :: bs, a :: as, h => by
    have ih := zipWith_or_eq_iff bs as (Nat.succ.inj h)
    rw [List.zipWith_cons_cons, List.cons_eq_cons, ih, List.zip_cons_cons, List.forall_mem_cons]
    refine and_congr_left fun _ => ?_
    cases a <;> cases b <;> decide

section Used

variable (a b : SdRegisters)

/-- Into a cleared structure exactly the flags of the registers are decoded. -/
theorem sdDecode_zero_flags : (sdDecode SdCard.zero a).flags = a.flags := by
  rw [sdDecode_flags]
  unfold SdRegisters.flags
  simp only [SdCard.flags, SdCard.zero, SdCsd.zero, List.zipWith_cons_cons, List.zipWith_nil_left,
    Bool.or_false]

/-- No flag is left over exactly if each flag of the first card is one of the second. -/
theorem flags_eq_iff :
    (sdDecode (sdDecode SdCard.zero a) b).flags = (sdDecode SdCard.zero b).flags ↔
      ∀ p ∈ a.flags.zip b.flags, p.1 = true → p.2 = true := by
  rw [sdDecode_flags, sdDecode_zero_flags, sdDecode_zero_flags]
  exact zipWith_or_eq_iff _ _ rfl

/-- The numbers of version 1.0 after the first card. -/
theorem sdDecode_zero_v1Numbers : (∀ x ∈ (sdDecode SdCard.zero a).v1Numbers, x = 0) ↔
    a.version ≠ 0 ∨ ∀ x ∈ a.v1Numbers, x = 0 := by
  by_cases h₀ : a.version = 0
  · have hnumbers : (sdDecode SdCard.zero a).v1Numbers = a.v1Numbers := by
      rw [sdDecode_v1 SdCard.zero a h₀]
      rfl
    rw [hnumbers]
    exact ⟨Or.inr, fun h => h.resolve_left (not_not_intro h₀)⟩
  · refine iff_of_true ?_ (Or.inl h₀)
    rw [v1Numbers_kept SdCard.zero a h₀]
    exact forall_zero_of_eq 5 rfl

/-- A supported version leaves the size of a block. -/
theorem sdDecode_zero_capacity : (∀ x ∈ (sdDecode SdCard.zero a).capacity, x = 0) ↔
    a.version ≠ 0 ∧ a.version ≠ 1 := by
  have hblock : (sdDecode SdCard.zero a).blockSize = sdmmcBlockSizeDefault →
      ¬ ∀ x ∈ (sdDecode SdCard.zero a).capacity, x = 0 := fun hsize h => by
    have hmem : sdmmcBlockSizeDefault ∈ (sdDecode SdCard.zero a).capacity := by
      rw [← hsize]
      exact List.mem_of_getLast? rfl
    exact absurd (h _ hmem) (by decide)
  by_cases h₀ : a.version = 0
  · refine iff_of_false (hblock ?_) fun h => h.1 h₀
    rw [sdDecode_v1 SdCard.zero a h₀]
    exact sdDecodeCsdV1_blockSize (sdHead SdCard.zero a) a.csd
  by_cases h₁ : a.version = 1
  · refine iff_of_false (hblock ?_) fun h => h.2 h₁
    rw [sdDecode_v2 SdCard.zero a h₁]
    rfl
  · refine iff_of_true ?_ ⟨h₀, h₁⟩
    rw [capacity_kept SdCard.zero a h₀ h₁]
    exact forall_zero_of_eq 3 rfl

/-- The device size fits its field. -/
theorem csdV1_deviceSize_lt (csd : SdCsd) (raw : Words4) :
    (csdV1 csd raw).deviceSize.toNat < 2 ^ 12 := by
  have hhigh : (raw.w2 &&& 0x3FF).toNat = field 0 10 raw.w2.toNat := mask_toNat rfl
  have hlow : ((raw.w1 &&& 0xC0000000) >>> 30).toNat = field 30 2 raw.w1.toNat :=
    maskShift_toNat rfl
  have hhighLt : field 0 10 raw.w2.toNat < 2 ^ 10 := field_lt _ _ _
  have hlowLt : field 30 2 raw.w1.toNat < 2 ^ 2 := field_lt _ _ _
  have hsplit : (csdV1 csd raw).deviceSize.toNat =
      (raw.w2 &&& 0x3FF).toNat * 2 ^ 2 + ((raw.w1 &&& 0xC0000000) >>> 30).toNat :=
    shiftLeft_or_toNat (by omega) (by omega)
  omega

theorem csdV1_multiplier_lt (csd : SdCsd) (raw : Words4) :
    (csdV1 csd raw).deviceSizeMultiplier.toNat < 2 ^ 3 := by
  have hfield : (csdV1 csd raw).deviceSizeMultiplier.toNat = field 15 3 raw.w1.toNat :=
    maskShift_setWidth_toNat rfl (by decide)
  rw [hfield]
  exact field_lt _ _ _

/-- The device size fits its field. -/
theorem deviceSizeV2_lt : a.deviceSizeV2.toNat < 2 ^ 22 := by
  have hhigh : (a.csd.w2 &&& 0x3F).toNat = field 0 6 a.csd.w2.toNat := mask_toNat rfl
  have hlow : ((a.csd.w1 &&& 0xFFFF0000) >>> 16).toNat = field 16 16 a.csd.w1.toNat :=
    maskShift_toNat rfl
  have hhighLt : field 0 6 a.csd.w2.toNat < 2 ^ 6 := field_lt _ _ _
  have hlowLt : field 16 16 a.csd.w1.toNat < 2 ^ 16 := field_lt _ _ _
  have hsplit : a.deviceSizeV2.toNat = (a.csd.w2 &&& 0x3F).toNat * 2 ^ 16 +
      ((a.csd.w1 &&& 0xFFFF0000) >>> 16).toNat :=
    shiftLeft_or_toNat (by omega) (by omega)
  omega

/-- Where version 1.0 assigns a size, it is not zero. -/
theorem sdDecodeCsdV1_size_ne_zero {card : SdCard} {raw : Words4}
    (h : (1 : BitVec 32) <<< card.csd.readBlockLen.toNat ≠ sdmmcBlockSizeDefault) :
    (sdDecodeCsdV1 card raw).cardSizeInBytes ≠ 0 := by
  have hsize := csdV1_deviceSize_lt card.csd raw
  have hmult := csdV1_multiplier_lt card.csd raw
  have hone : (1 : BitVec 32).toNat = 1 := rfl
  have hpow : 2 ^ ((csdV1 card.csd raw).deviceSizeMultiplier.toNat + 2) ≤ 2 ^ 9 :=
    Nat.pow_le_pow_right (by decide) (by omega)
  have hpos := Nat.two_pow_pos ((csdV1 card.csd raw).deviceSizeMultiplier.toNat + 2)
  have hproduct : ((csdV1 card.csd raw).deviceSize.toNat + 1) *
      2 ^ ((csdV1 card.csd raw).deviceSizeMultiplier.toNat + 2) ≤ 2 ^ 12 * 2 ^ 9 :=
    Nat.mul_le_mul hsize hpow
  have hproductPos : 0 < ((csdV1 card.csd raw).deviceSize.toNat + 1) *
      2 ^ ((csdV1 card.csd raw).deviceSizeMultiplier.toNat + 2) :=
    Nat.mul_pos (Nat.succ_pos _) hpos
  have hplus : ((csdV1 card.csd raw).deviceSize + 1).toNat =
      (csdV1 card.csd raw).deviceSize.toNat + 1 := by
    rw [BitVec.toNat_add, hone]
    omega
  have hshift : ((1 : BitVec 32) <<<
      ((csdV1 card.csd raw).deviceSizeMultiplier.toNat + 2)).toNat =
        2 ^ ((csdV1 card.csd raw).deviceSizeMultiplier.toNat + 2) :=
    toNat_one_shiftLeft (by omega)
  rw [sdDecodeCsdV1_of_other h, ne_eq, ← BitVec.toNat_inj, BitVec.toNat_setWidth,
    BitVec.toNat_mul, hplus, hshift]
  change ¬ _ = 0
  omega

/-- The size of version 2 is never 0, so it is always seen to be written. -/
theorem sdDecodeCsdV2_size_ne_zero (card : SdCard) :
    (sdDecodeCsdV2 card a.csd).cardSizeInBytes ≠ 0 := by
  have hlt := deviceSizeV2_lt a
  have hone : (1 : BitVec 32).toNat = 1 := rfl
  have hplus : (a.deviceSizeV2 + 1).toNat = a.deviceSizeV2.toNat + 1 := by
    rw [BitVec.toNat_add, hone]
    omega
  change (a.deviceSizeV2 + 1).setWidth 64 * 512 * 1024 ≠ 0
  rw [ne_eq, ← BitVec.toNat_inj, BitVec.toNat_mul, BitVec.toNat_mul, BitVec.toNat_setWidth, hplus]
  change ¬ (a.deviceSizeV2.toNat + 1) % 2 ^ 64 * 512 % 2 ^ 64 * 1024 % 2 ^ 64 = 0
  omega

/-- Decoding leaves no size only where it assigns none. -/
theorem sdDecode_zero_size : (sdDecode SdCard.zero a).cardSizeInBytes = 0 ↔
    (a.version = 0 ∧ a.DefaultBlocks) ∨ (a.version ≠ 0 ∧ a.version ≠ 1) := by
  refine ⟨fun hzero => ?_, fun h => size_kept SdCard.zero a h⟩
  by_cases h₀ : a.version = 0
  · refine Or.inl ⟨h₀, ?_⟩
    by_contra hblocks
    have hother : (1 : BitVec 32) <<< (sdHead SdCard.zero a).csd.readBlockLen.toNat ≠
        sdmmcBlockSizeDefault := hblocks
    rw [sdDecode_v1 SdCard.zero a h₀] at hzero
    exact sdDecodeCsdV1_size_ne_zero hother hzero
  · refine Or.inr ⟨h₀, fun h₁ => ?_⟩
    rw [sdDecode_v2 SdCard.zero a h₁] at hzero
    exact sdDecodeCsdV2_size_ne_zero a (sdHead SdCard.zero a) hzero

/-- The first card shows in nothing but what is listed. -/
theorem unmarked_iff : Unmarked (sdDecode SdCard.zero a) b ↔
    (b.version = 0 ∨ a.version ≠ 0 ∨ ∀ x ∈ a.v1Numbers, x = 0) ∧
      (b.version = 0 ∨ b.version = 1 ∨ (a.version ≠ 0 ∧ a.version ≠ 1)) ∧
      (b.version = 0 → b.DefaultBlocks →
        (a.version = 0 ∧ a.DefaultBlocks) ∨ (a.version ≠ 0 ∧ a.version ≠ 1)) := by
  constructor
  · intro h
    refine ⟨?_, ?_, fun h₀ hblocks => ?_⟩
    · exact or_iff_not_imp_left.mpr fun h₀ => (sdDecode_zero_v1Numbers a).mp (h.v1Numbers h₀)
    · refine or_iff_not_imp_left.mpr fun h₀ => or_iff_not_imp_left.mpr fun h₁ => ?_
      exact (sdDecode_zero_capacity a).mp (h.capacity h₀ h₁)
    · exact (sdDecode_zero_size a).mp (h.size (Or.inl ⟨h₀, hblocks⟩))
  · rintro ⟨hnumbers, hunsupported, hsize⟩
    refine ⟨fun h₀ => ?_, fun h₀ h₁ => ?_, fun h => ?_⟩
    · exact (sdDecode_zero_v1Numbers a).mpr (hnumbers.resolve_left h₀)
    · exact (sdDecode_zero_capacity a).mpr ((hunsupported.resolve_left h₀).resolve_left h₁)
    · refine (sdDecode_zero_size a).mpr ?_
      rcases h with ⟨h₀, hblocks⟩ | ⟨h₀, h₁⟩
      · exact hsize h₀ hblocks
      · exact Or.inr ((hunsupported.resolve_left h₀).resolve_left h₁)

/-- Nothing of the first card is left over exactly if no flag is, and no number that the second one
does not write. -/
theorem noTrace_iff : NoTrace a b ↔
    (∀ p ∈ a.flags.zip b.flags, p.1 = true → p.2 = true) ∧
      Unmarked (sdDecode SdCard.zero a) b := by
  rw [unmarked_iff]
  exact ⟨fun h => ⟨h.flags, h.v1Numbers, h.unsupported, h.size⟩,
    fun ⟨hflags, hnumbers, hunsupported, hsize⟩ => ⟨hflags, hnumbers, hunsupported, hsize⟩⟩

/-- Exactly the pairs of cards of which the second one is decoded into the structure of the first
one as into a cleared one.

The decoders write each field unconditionally, set a flag only where the register has it, or write
a field in one version only.  The first kind never shows the first card; the second shows it where
it has a flag that the second card lacks; and the third where the second card is of a version that
leaves the field alone. -/
theorem sdDecode_reuse_iff :
    sdDecode (sdDecode SdCard.zero a) b = sdDecode SdCard.zero b ↔ NoTrace a b := by
  rw [SdCard.eq_iff, flags_eq_iff, withoutFlags_eq_iff, noTrace_iff]

/-- The first card supports CMD23 and the second one, which differs in nothing else,
does not; the first one is of version 1.0 and the second one of version 2.0. -/
theorem sdDecode_reuse_differs :
    (sdDecode (sdDecode SdCard.zero ⟨⟨0x0A404055, 0xE7407F80, 0x5B590000, 0x400E0032⟩, 0,
          0x02058002⟩)
        ⟨⟨0x0A404055, 0xE7407F80, 0x5B590000, 0x400E0032⟩, 0, 0x02058000⟩ ≠
      sdDecode SdCard.zero
        ⟨⟨0x0A404055, 0xE7407F80, 0x5B590000, 0x400E0032⟩, 0, 0x02058000⟩) ∧
      sdDecode (sdDecode SdCard.zero ⟨⟨0x92404055, 0xBADFCF9F, 0x5F5983C0, 0x00260032⟩, 0,
          0x02058000⟩)
        ⟨⟨0x0A404055, 0xE7407F80, 0x5B590000, 0x400E0032⟩, 0, 0x02058000⟩ ≠
      sdDecode SdCard.zero
        ⟨⟨0x0A404055, 0xE7407F80, 0x5B590000, 0x400E0032⟩, 0, 0x02058000⟩ := by
  decide

end Used

end HpmSdk.Sd
