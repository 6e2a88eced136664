import HpmSdk.Sdp.Ccm
import HpmSdk.Sdp.CcmSpec
import Mathlib.Data.List.GetD
import Mathlib.Tactic.IntervalCases

set_option autoImplicit false

/-!
# SDP: the blocks the CCM driver formats

What `uint32_to_be`, `aes_ccm_format_b0`, `aes_ccm_format_ctr0` and the code
that builds `B1` leave in their buffers, byte by byte, and where that is the
formatting of the standard: `B0` when the input length fits its field, `B1`
when the associated data has the short length prefix, the counter always.

The blocks are compared byte by byte, with the bytes counted from the front.
-/

namespace HpmSdk.Sdp

open HpmSdk.Foundation

/-! ## `uint32_to_be` -/

/-- The loop that writes a number counts its bytes from the last one. -/
theorem beIndex_eq {off len i : Nat} (hi : i < off + len) (hlt : off + len < 2 ^ 32) :
    beIndex off len i = off + len - 1 - i := by
  unfold beIndex
  rcases Nat.lt_or_ge i len with h | h
  · rw [show len + 2 ^ 32 - 1 - i = (len - 1 - i) + 2 ^ 32 by omega, Nat.add_mod_right,
      Nat.mod_eq_of_lt (by omega : len - 1 - i < 2 ^ 32), Nat.mod_eq_of_lt (by omega)]
    omega
  · rw [Nat.mod_eq_of_lt (by omega : len + 2 ^ 32 - 1 - i < 2 ^ 32),
      show off + (len + 2 ^ 32 - 1 - i) = (off + len - 1 - i) + 2 ^ 32 by omega,
      Nat.add_mod_right, Nat.mod_eq_of_lt (by omega)]

theorem ofNat_and_255 (n : Nat) : UInt8.ofNat (n &&& 0xFF) = UInt8.ofNat n := by
  apply UInt8.toNat_inj.mp
  rw [UInt8.toNat_ofNat', UInt8.toNat_ofNat', show (0xFF : Nat) = 2 ^ 8 - 1 by rfl,
    Nat.and_two_pow_sub_one_eq_mod, Nat.mod_mod]

/-- Every byte the loop leaves behind: the digits of `num` go downwards from
position `off + len - 1 - i`, as many as `num` has. -/
theorem uint32ToBeLoop_apply {off len : Nat} (hlt : off + len < 2 ^ 32) :
    ∀ (num : Nat) (dst : Buf) (i : Nat), num < 256 ^ (off + len - i) → ∀ k,
      uint32ToBeLoop dst off len num i k =
        if k + i < off + len ∧ 256 ^ (off + len - 1 - i - k) ≤ num then
          UInt8.ofNat (num / 256 ^ (off + len - 1 - i - k))
        else dst k := by
  intro num
  induction num using Nat.strongRecOn with
  | ind num ih =>
    intro dst i hnum k
    rw [uint32ToBeLoop]
    rcases Nat.eq_zero_or_pos num with rfl | hpos
    · rw [if_neg (Nat.lt_irrefl 0), if_neg]
      rintro ⟨_, h⟩
      exact absurd h (Nat.not_le.mpr (Nat.pow_pos (by decide)))
    · have hi : i < off + len := by
        by_contra hge
        rw [show off + len - i = 0 by omega] at hnum
        omega
      have hdiv : num >>> 8 = num / 256 := Nat.shiftRight_eq_div_pow num 8
      have hsmall : num / 256 < 256 ^ (off + len - (i + 1)) := by
        rw [show off + len - i = off + len - (i + 1) + 1 by omega, pow_succ] at hnum
        exact Nat.div_lt_of_lt_mul (by rwa [Nat.mul_comm])
      rw [if_pos hpos, hdiv, ih _ (Nat.div_lt_self hpos (by decide)) _ _ hsmall,
        beIndex_eq hi hlt, ofNat_and_255]
      rcases Nat.lt_trichotomy (k + i + 1) (off + len) with hk | hk | hk
      · -- a higher digit, written by a later pass
        have he : off + len - 1 - i - k = off + len - 1 - (i + 1) - k + 1 := by omega
        have hle : 256 ^ (off + len - 1 - (i + 1) - k) ≤ num / 256 ↔
            256 ^ (off + len - 1 - i - k) ≤ num := by
          rw [he, pow_succ, Nat.le_div_iff_mul_le (by decide)]
        rw [Buf.set_of_ne _ (by omega), Nat.div_div_eq_div_mul, ← pow_succ', ← he]
        simp only [hle, show k + (i + 1) < off + len by omega, show k + i < off + len by omega]
      · -- the digit this pass writes
        have hk' : k = off + len - 1 - i := by omega
        rw [if_neg (by omega), if_pos ⟨by omega, by
          rw [show off + len - 1 - i - k = 0 by omega]; exact hpos⟩, hk', Buf.set_self,
          Nat.sub_self, pow_zero, Nat.div_one]
      · rw [if_neg (by omega), if_neg (by omega), Buf.set_of_ne _ (by omega)]

/-- `uint32_to_be` writes the digits of `num` so that the last one is the last
of the `len` bytes; digits that do not fit go in front of the field. -/
theorem uint32ToBe_apply (dst : Buf) {off len num : Nat} (hlt : off + len < 2 ^ 32)
    (hnum : num < 256 ^ (off + len)) (k : Nat) :
    uint32ToBe dst off len num k =
      if k < off + len ∧ (off ≤ k ∨ 256 ^ (off + len - 1 - k) ≤ num) then
        UInt8.ofNat (num / 256 ^ (off + len - 1 - k))
      else dst k := by
  rw [uint32ToBe, uint32ToBeLoop_apply hlt num _ 0 hnum]
  simp only [Nat.add_zero, Nat.sub_zero]
  by_cases hk : k < off + len
  · by_cases hle : 256 ^ (off + len - 1 - k) ≤ num
    · rw [if_pos ⟨hk, hle⟩, if_pos ⟨hk, Or.inr hle⟩]
    · rw [if_neg (fun h => hle h.2)]
      by_cases hoff : off ≤ k
      · rw [if_pos ⟨hk, Or.inl hoff⟩, Nat.div_eq_of_lt (Nat.not_le.mp hle)]
        simp [Buf.fill, hoff, hk]
      · rw [if_neg (by tauto)]
        simp [Buf.fill, hoff]
  · rw [if_neg (fun h => hk h.1), if_neg (fun h => hk h.1)]
    simp [Buf.fill, hk]

/-! ## The formatted blocks -/

/-- The width of the length is what the nonce leaves. -/
theorem ccm_q_toNat {ivLen : Nat} (hle : ivLen ≤ 13) :
    (15 - UInt8.ofNat ivLen : UInt8).toNat = 15 - ivLen := by
  interval_cases ivLen <;> rfl

/-- The flags byte as the code puts it together. -/
def ccmFlags (ivLen macLen aadLen : Nat) : UInt8 :=
  (0 : UInt8) ||| (if 0 < aadLen then (1 : UInt8) <<< 6 else 0) |||
    UInt8.ofNat (((macLen - 2) / 2) <<< 3) |||
    (15 - UInt8.ofNat ivLen - 1)

/-- The flags of the first block are those of the standard. -/
theorem ccmFlags_eq {ivLen macLen : Nat} (aadLen : Nat) (hiv : 7 ≤ ivLen ∧ ivLen ≤ 13)
    (hmac : 4 ≤ macLen ∧ macLen ≤ 16) (heven : macLen % 2 = 0) :
    ccmFlags ivLen macLen aadLen = Ccm.b0Flags (decide (0 < aadLen)) macLen (15 - ivLen) := by
  obtain ⟨h7, h13⟩ := hiv
  obtain ⟨t, rfl⟩ : ∃ t, macLen = 2 * t := ⟨macLen / 2, by omega⟩
  have h2 : 2 ≤ t := by omega
  have h8 : t ≤ 8 := by omega
  unfold ccmFlags Ccm.b0Flags
  by_cases ha : 0 < aadLen <;> simp only [ha] <;>
    interval_cases ivLen <;> interval_cases t <;> decide

/-- The sixteen bytes of `B0` as the code leaves them. -/
theorem aesCcmFormatB0_apply (block iv : Buf) {ivLen inputLen : Nat} (macLen aadLen : Nat)
    (hiv : 7 ≤ ivLen ∧ ivLen ≤ 13) (hlen : inputLen < 2 ^ 32) (k : Nat) :
    aesCcmFormatB0 block iv ivLen macLen aadLen inputLen k =
      if k < 16 ∧ (1 + ivLen ≤ k ∨ 256 ^ (15 - k) ≤ inputLen) then
        UInt8.ofNat (inputLen / 256 ^ (15 - k))
      else if k = 0 then ccmFlags ivLen macLen aadLen
      else if k ≤ ivLen then iv (k - 1)
      else block k := by
  have hq := ccm_q_toNat hiv.2
  have hsum : 1 + ivLen + (15 - ivLen) = 16 := by omega
  have hpow : inputLen < 256 ^ (1 + ivLen + (15 - ivLen)) := by
    rw [hsum]
    exact Nat.lt_of_lt_of_le hlen (by norm_num)
  rw [aesCcmFormatB0]
  simp only [hq]
  rw [uint32ToBe_apply _ (by omega) hpow, hsum, show 16 - 1 - k = 15 - k by omega]
  congr 1
  unfold Buf.copy Buf.set
  rcases Nat.eq_zero_or_pos k with rfl | hk
  · simp [ccmFlags]
  · by_cases hle : k ≤ ivLen
    · rw [if_pos ⟨hk, by omega⟩, if_neg (by omega : k ≠ 0), if_pos hle]
    · rw [if_neg (by omega), if_neg (by omega : k ≠ 0), if_neg (by omega : k ≠ 0), if_neg hle]

/-- The block `B0` of a call. -/
def ccmB0 (iv : Buf) (ivLen macLen aadLen inputLen : Nat) : Block :=
  Block.ofBuf (aesCcmFormatB0 (fun _ => 0) iv ivLen macLen aadLen inputLen) 0

/-- What the buffer held before does not matter. -/
theorem ofBuf_aesCcmFormatB0 (block iv : Buf) {ivLen inputLen : Nat} (macLen aadLen : Nat)
    (hiv : 7 ≤ ivLen ∧ ivLen ≤ 13) (hlen : inputLen < 2 ^ 32) :
    Block.ofBuf (aesCcmFormatB0 block iv ivLen macLen aadLen inputLen) 0 =
      ccmB0 iv ivLen macLen aadLen inputLen := by
  refine Block.ofBuf_congr fun k hk => ?_
  rw [Nat.zero_add, aesCcmFormatB0_apply _ _ _ _ hiv hlen, aesCcmFormatB0_apply _ _ _ _ hiv hlen]
  by_cases hle : k ≤ ivLen
  · simp only [hle, if_true]
  · rw [if_pos ⟨hk, Or.inl (by omega)⟩, if_pos ⟨hk, Or.inl (by omega)⟩]

/-- The bytes of a block that consists of a flags byte, a nonce and a number. -/
theorem pad_header (f : UInt8) (iv : Buf) {ivLen : Nat} (n : Nat) (hiv : ivLen ≤ 15) (i : Fin 16) :
    Block.pad (f :: (iv.toList 0 ivLen ++ beBytes (15 - ivLen) n)) i =
      if i.val = 0 then f
      else if i.val ≤ ivLen then iv (i.val - 1)
      else UInt8.ofNat (n / 256 ^ (15 - i.val)) := by
  obtain ⟨i, hi⟩ := i
  cases i with
  | zero => simp [Block.pad, Block.ofBuf, Buf.ofList]
  | succ i =>
    have hpad : Block.pad (f :: (iv.toList 0 ivLen ++ beBytes (15 - ivLen) n)) ⟨i + 1, hi⟩ =
        (iv.toList 0 ivLen ++ beBytes (15 - ivLen) n).getD i 0 := by
      simp [Block.pad, Block.ofBuf, Buf.ofList]
    rw [hpad, if_neg (Nat.succ_ne_zero i)]
    rcases Nat.lt_or_ge i ivLen with h | h
    · rw [if_pos (show i + 1 ≤ ivLen from h), List.getD_append _ _ _ _ (by simpa using h),
        Buf.getD_toList _ _ h, Nat.zero_add]
      rfl
    · rw [if_neg (by simp only; omega), List.getD_append_right _ _ _ _ (by simpa using h),
        Buf.length_toList, getD_beBytes _ (by omega)]
      congr 3
      simp only
      omega

/-- `B0` is the one of the standard when the input length fits its field. -/
theorem ccmB0_eq {c : CcmArgs} {aad payload : List UInt8} (hiv : 7 ≤ c.ivLen ∧ c.ivLen ≤ 13)
    (hmac : 4 ≤ c.tagLen ∧ c.tagLen ≤ 16) (heven : c.tagLen % 2 = 0) (hlen : c.inputLen < 2 ^ 32)
    (hfit : c.inputLen < 256 ^ (15 - c.ivLen)) (haad : aad.length = c.aadLen)
    (hpay : payload.length = c.inputLen) :
    ccmB0 c.iv c.ivLen c.tagLen c.aadLen c.inputLen =
      Ccm.b0 (c.iv.toList 0 c.ivLen) aad payload c.tagLen := by
  have hadata : decide (0 < c.aadLen) = !aad.isEmpty := by
    rw [← haad]
    cases aad <;> simp
  funext i
  rw [ccmB0, Block.ofBuf, Nat.zero_add, aesCcmFormatB0_apply _ _ _ _ hiv hlen,
    ccmFlags_eq _ hiv hmac heven, hadata, Ccm.b0, Ccm.q, Buf.length_toList, hpay,
    pad_header _ _ _ (by omega)]
  by_cases hi : 1 + c.ivLen ≤ i.val
  · rw [if_pos ⟨i.isLt, Or.inl hi⟩, if_neg (by omega), if_neg (by omega)]
  · -- in front of the field nothing is written
    have hbig : ¬ 256 ^ (15 - i.val) ≤ c.inputLen := by
      have : 256 ^ (15 - c.ivLen) ≤ 256 ^ (15 - i.val) :=
        Nat.pow_le_pow_right (by decide) (by omega)
      omega
    rw [if_neg (by tauto)]
    by_cases h0 : i.val = 0
    · simp only [h0, if_true]
    · rw [if_neg h0, if_neg h0, if_pos (by omega), if_pos (by omega)]

/-- The counter block `Ctr0` of a call. -/
def ccmCtr0 (iv : Buf) (ivLen : Nat) : Block :=
  Block.ofBuf (aesCcmFormatCtr0 (fun _ => 0) iv ivLen) 0

/-- The counter block, byte by byte. -/
theorem aesCcmFormatCtr0_apply (ctr iv : Buf) {ivLen : Nat} (hiv : ivLen ≤ 13) {k : Nat}
    (hk : k < 16) : aesCcmFormatCtr0 ctr iv ivLen k =
      if k = 0 then UInt8.ofNat (14 - ivLen) else if k ≤ ivLen then iv (k - 1) else 0 := by
  have hq : (15 - UInt8.ofNat ivLen - 1 : UInt8) = UInt8.ofNat (14 - ivLen) := by
    interval_cases ivLen <;> rfl
  unfold aesCcmFormatCtr0 Buf.copy Buf.set Buf.fill
  simp only [hq]
  rcases Nat.eq_zero_or_pos k with rfl | hpos
  · simp
  · by_cases hle : k ≤ ivLen
    · rw [if_pos ⟨hpos, by omega⟩, if_neg (by omega : k ≠ 0), if_pos hle]
    · rw [if_neg (by omega), if_neg (by omega : k ≠ 0), if_neg (by omega : k ≠ 0), if_neg hle,
        if_pos ⟨Nat.zero_le k, by omega⟩]

/-- The driver writes its counter block where it reads it from. -/
theorem ofBuf_aesCcmFormatCtr0 (ctr iv : Buf) {ivLen : Nat} (hiv : ivLen ≤ 13) :
    Block.ofBuf (aesCcmFormatCtr0 ctr iv ivLen) 0 = ccmCtr0 iv ivLen := by
  refine Block.ofBuf_congr fun k hk => ?_
  rw [Nat.zero_add, aesCcmFormatCtr0_apply _ _ hiv hk, aesCcmFormatCtr0_apply _ _ hiv hk]

/-- The counter block is that of the standard, with count 0. -/
theorem ccmCtr0_eq (iv : Buf) {ivLen : Nat} (hiv : ivLen ≤ 13) :
    ccmCtr0 iv ivLen = Ccm.ctrBlock (iv.toList 0 ivLen) 0 := by
  funext i
  rw [ccmCtr0, Block.ofBuf, Nat.zero_add, aesCcmFormatCtr0_apply _ _ hiv i.isLt, Ccm.ctrBlock,
    Ccm.q, Buf.length_toList, pad_header _ _ _ (by omega), Nat.zero_div,
    show 15 - ivLen - 1 = 14 - ivLen by omega]
  rfl

/-- Counting blocks as a number: the low bytes of a counter block of the
standard are the nonce and then the block number. -/
theorem low120_ctrBlock (iv : Buf) {ivLen j : Nat} (hiv : ivLen ≤ 13)
    (hj : j < 256 ^ (15 - ivLen)) :
    (Ccm.ctrBlock (iv.toList 0 ivLen) j).low120 = beVal iv 0 ivLen * 256 ^ (15 - ivLen) + j := by
  have happ : ∀ k < 15, (Ccm.ctrBlock (iv.toList 0 ivLen) j).toBuf (1 + k) =
      if k < ivLen then iv k else UInt8.ofNat (j / 256 ^ (14 - k)) := by
    intro k hk
    rw [Block.toBuf_apply _ (by omega), Ccm.ctrBlock, Ccm.q, Buf.length_toList,
      pad_header _ _ _ (by omega)]
    rw [if_neg (by simp only; omega)]
    by_cases h : k < ivLen
    · rw [if_pos (by simp only; omega), if_pos h, Nat.add_sub_cancel_left]
    · rw [if_neg (by simp only; omega), if_neg h]
      congr 3
      simp only
      omega
  have hhead : beVal (Ccm.ctrBlock (iv.toList 0 ivLen) j).toBuf 1 ivLen = beVal iv 0 ivLen := by
    refine beVal_congr fun k hk => ?_
    rw [happ k (by omega), if_pos hk, Nat.zero_add]
  have htail : beVal (Ccm.ctrBlock (iv.toList 0 ivLen) j).toBuf (1 + ivLen) (15 - ivLen) = j := by
    rw [beVal_of_digits (n := j), Nat.mod_eq_of_lt hj]
    intro i hi
    rw [Nat.add_assoc, happ _ (by omega), if_neg (by omega)]
    congr 3
    omega
  have hsplit := beVal_add (Ccm.ctrBlock (iv.toList 0 ivLen) j).toBuf 1 ivLen (15 - ivLen)
  rw [hhead, htail, show ivLen + (15 - ivLen) = 15 by omega] at hsplit
  exact hsplit

/-- The counter of the code runs through the counter blocks of the standard. -/
theorem iterate_incBn_ctrBlock (iv : Buf) {ivLen j : Nat} (hiv : ivLen ≤ 13)
    (hj : j < 256 ^ (15 - ivLen)) :
    Block.incBn^[j] (Ccm.ctrBlock (iv.toList 0 ivLen) 0) = Ccm.ctrBlock (iv.toList 0 ivLen) j := by
  obtain ⟨h0, hlow⟩ := (Ccm.ctrBlock (iv.toList 0 ivLen) 0).iterate_incBn j
  have hlt := (Ccm.ctrBlock (iv.toList 0 ivLen) j).low120_lt
  refine Block.ext_low120 ?_ ?_
  · rw [h0, Ccm.ctrBlock, Ccm.ctrBlock, Ccm.q, Buf.length_toList, pad_header _ _ _ (by omega),
      pad_header _ _ _ (by omega)]
    rfl
  · rw [low120_ctrBlock iv hiv hj] at hlt ⊢
    rw [hlow, low120_ctrBlock iv hiv (Nat.pow_pos (by decide)), Nat.add_zero, Nat.mod_eq_of_lt hlt]

/-- A loaded block is the zero-padded piece of its source. -/
theorem ofBuf_aesCcmLoadBlock (b src : Buf) (off : Nat) {n : Nat} (hn : n ≤ 16) :
    Block.ofBuf (aesCcmLoadBlock b src off n) 0 = Block.pad (src.toList off n) := by
  funext i
  have hi := i.isLt
  rw [Block.pad, Block.ofBuf, Block.ofBuf, Nat.zero_add, aesCcmLoadBlock, Buf.ofList]
  rcases Nat.lt_or_ge i.val n with h | h
  · rw [Buf.getD_toList _ _ h]
    split
    · simp [Buf.fill, Buf.copy, Buf.drop, h, Nat.not_le.mpr h]
    · simp [Buf.copy, Buf.drop, h]
  · rw [if_pos (by omega), List.getD_eq_default _ _ (by rwa [Buf.length_toList])]
    simp [Buf.fill, h, show i.val < n + (16 - n) by omega]

/-- The bytes of associated data that `B1` takes. -/
def ccmB1Len (aadLen : Nat) : Nat := if aadLen < 0xFF00 then min aadLen 14 else 10

/-- The block `B1` of a call. -/
def ccmB1 (aad : Buf) (aadLen : Nat) : Block :=
  Block.ofBuf (aesCcmFormatB1 (fun _ => 0) aad aadLen).1 0

theorem aesCcmFormatB1_len (b aad : Buf) (aadLen : Nat) :
    (aesCcmFormatB1 b aad aadLen).2 = ccmB1Len aadLen := by
  unfold aesCcmFormatB1 ccmB1Len
  simp only [show 2 ^ 16 - 2 ^ 8 = 0xFF00 by rfl]
  split <;> rfl

/-- The short form: two length bytes, then at most fourteen of data. -/
theorem ofBuf_aesCcmFormatB1_short (b aad : Buf) {aadLen : Nat} (h : aadLen < 0xFF00) :
    Block.ofBuf (aesCcmFormatB1 b aad aadLen).1 0 =
      Block.pad (beBytes 2 aadLen ++ aad.toList 0 (min aadLen 14)) := by
  funext i
  have hi := i.isLt
  rw [aesCcmFormatB1, if_pos (show aadLen < 2 ^ 16 - 2 ^ 8 from h), Block.pad, Block.ofBuf,
    Block.ofBuf, Nat.zero_add, Buf.ofList]
  simp only
  rw [Buf.copy, uint32ToBe_apply _ (by decide) (by omega : aadLen < 256 ^ (0 + 2))]
  rcases Nat.lt_or_ge i.val 2 with h2 | h2
  · rw [if_neg (by omega), if_pos ⟨by omega, Or.inl (Nat.zero_le _)⟩,
      List.getD_append _ _ _ _ (by simpa using h2), getD_beBytes _ h2]
  · rw [List.getD_append_right _ _ _ _ (by simpa using h2), length_beBytes]
    rcases Nat.lt_or_ge i.val (2 + min aadLen 14) with h14 | h14
    · rw [if_pos ⟨h2, h14⟩, Buf.getD_toList _ _ (by omega), Nat.zero_add]
    · rw [if_neg (by omega), if_neg (by omega), List.getD_eq_default _ _ (by
        rw [Buf.length_toList]; omega)]
      simp [Buf.fill, hi]

/-- The long form: the marker, ten bytes of data and four zeros; no length. -/
theorem aesCcmFormatB1_long (b aad : Buf) {aadLen : Nat} (h : 0xFF00 ≤ aadLen) {k : Nat}
    (hk : k < 16) : (aesCcmFormatB1 b aad aadLen).1 k =
      if k = 0 then 0xFF else if k = 1 then 0xFE else if k < 12 then aad (k - 2) else 0 := by
  rw [aesCcmFormatB1, if_neg (show ¬ aadLen < 2 ^ 16 - 2 ^ 8 from Nat.not_lt.mpr h)]
  simp only
  rw [Buf.copy, uint32ToBe_apply _ (by decide) (by norm_num)]
  rcases Nat.lt_or_ge k 2 with h2 | h2
  · rw [if_neg (by omega), if_neg (by simp; omega)]
    interval_cases k <;> rfl
  · rw [if_neg (by omega : k ≠ 0), if_neg (by omega : k ≠ 1)]
    rcases Nat.lt_or_ge k 12 with h12 | h12
    · rw [if_pos ⟨h2, by omega⟩, if_pos h12]
    · rw [if_neg (by omega), if_neg (by omega), if_neg (Nat.not_lt.mpr h12)]
      simp [Buf.set, Buf.fill, hk, show k ≠ 0 by omega, show k ≠ 1 by omega]

/-- The driver writes the block of the associated data where it reads it from. -/
theorem ofBuf_aesCcmFormatB1 (b aad : Buf) (aadLen : Nat) :
    Block.ofBuf (aesCcmFormatB1 b aad aadLen).1 0 = ccmB1 aad aadLen := by
  rcases Nat.lt_or_ge aadLen 0xFF00 with h | h
  · rw [ccmB1, ofBuf_aesCcmFormatB1_short _ _ h, ofBuf_aesCcmFormatB1_short _ _ h]
  · refine Block.ofBuf_congr fun k hk => ?_
    rw [Nat.zero_add, aesCcmFormatB1_long _ _ h hk, aesCcmFormatB1_long _ _ h hk]

end HpmSdk.Sdp
