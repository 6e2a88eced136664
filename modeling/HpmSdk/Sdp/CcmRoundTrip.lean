import HpmSdk.Sdp.CcmRun

set_option autoImplicit false

/-!
# SDP: CCM decryption undoes encryption

Encryption and decryption take their blocks through the CBC-MAC and through
counter mode in opposite orders, over buffers that may coincide.  Both end with
the same tag over the same plaintext, so a ciphertext with its tag is opened
again, and a tag that differs anywhere is refused.  This needs no bound on any
length.
-/

namespace HpmSdk.Sdp

open HpmSdk.Foundation

/-! ## Comparing tags -/

/-- The loop ors the differences up, and ends in 0 exactly if there are none. -/
theorem sdpConstantTimeCmpLoop_eq_zero (dst src : Buf) : ∀ (len i : Nat) (result : UInt8),
    sdpConstantTimeCmpLoop dst src i result len = 0 ↔
      result = 0 ∧ ∀ k < len, dst (i + k) = src (i + k) := by
  intro len
  induction len with
  | zero =>
    intro i result
    simp [sdpConstantTimeCmpLoop]
  | succ len ih =>
    intro i result
    have hor : (result ||| (dst i ^^^ src i) = 0) ↔ result = 0 ∧ dst i = src i := by
      rw [UInt8.or_eq_zero_iff, UInt8.xor_eq_zero_iff]
    rw [sdpConstantTimeCmpLoop, ih, hor, and_assoc]
    refine and_congr_right fun _ => ?_
    constructor
    · rintro ⟨h0, hrest⟩ k hk
      cases k with
      | zero => exact h0
      | succ k =>
        have := hrest k (by omega)
        rwa [show i + (k + 1) = i + 1 + k by omega]
    · intro h
      refine ⟨h 0 (by omega), fun k hk => ?_⟩
      have := h (k + 1) (by omega)
      rwa [show i + 1 + k = i + (k + 1) by omega]

/-- The comparison is zero exactly on equal bytes. -/
theorem sdpConstantTimeCmp_eq_zero (dst src : Buf) (len : Nat) :
    sdpConstantTimeCmp dst src len = 0 ↔ ∀ k < len, dst k = src k := by
  rw [sdpConstantTimeCmp, sdpConstantTimeCmpLoop_eq_zero]
  simp

/-- Verification after a computation that went through. -/
theorem sdpAesCcmDecryptVerify_eq {σ : Type} (hw : SdpHw σ) (s : SdpState σ) (c : CcmArgs)
    (given : Buf) (h : (aesCcmAuthCrypt hw .decrypt s c fun _ => 0).status = .success) :
    sdpAesCcmDecryptVerify hw s c given =
      (if ∀ k < c.tagLen, (aesCcmAuthCrypt hw .decrypt s c fun _ => 0).tag k = given k then .success
        else .sdpErrorInvalidMac,
        (aesCcmAuthCrypt hw .decrypt s c fun _ => 0).state) := by
  unfold sdpAesCcmDecryptVerify
  simp only [h, ne_eq, not_true_eq_false, if_false, sdpConstantTimeCmp_eq_zero, ite_not]
  split <;> rfl

/-! ## The two directions -/

variable (aes : SdpAesKey → SdpAesOp → Block → Block)

/-- The tag decryption recomputes. -/
def CcmCall.recomputed (c : CcmCall) (s : SdpState Unit) : Buf :=
  (aesCcmAuthCrypt (.ofCipher aes) .decrypt s c.toCcmArgs fun _ => 0).tag

/-- Verifying decrypts and then compares the tag that comes out with the one that is given. -/
theorem CcmCall.verify_eq (c : CcmCall) (s : SdpState Unit) (given : Buf) :
    c.verify aes s given =
      (if ∀ k < c.tagLen, c.recomputed aes s k = given k then .success else .sdpErrorInvalidMac,
        (aesCcmAuthCrypt (.ofCipher aes) .decrypt s c.toCcmArgs fun _ => 0).state) :=
  sdpAesCcmDecryptVerify_eq _ s c.toCcmArgs given
    (aesCcmAuthCrypt_done aes .decrypt s c fun _ => 0).status

/-- And it leaves what decrypting leaves. -/
theorem CcmCall.verify_done (c : CcmCall) (s : SdpState Unit) (given : Buf) :
    CcmDone .decrypt (s.cipher aes) c.toCcmArgs s
      ⟨.success, (c.verify aes s given).2, c.recomputed aes s⟩ := by
  have hdone := aesCcmAuthCrypt_done aes .decrypt s c fun _ => 0
  rw [CcmCall.verify_eq]
  exact ⟨rfl, hdone.stream, hdone.tag, hdone.frame, hdone.key⟩

/-! ## The tag depends on the bytes given, not on where they lie -/

/-- Stretches are equal exactly if their bytes are. -/
theorem toList_eq_iff {b c : Buf} {off off' n : Nat} :
    b.toList off n = c.toList off' n ↔ ∀ i < n, b (off + i) = c (off' + i) := by
  constructor
  · intro h i hi
    rw [← Buf.getD_toList b off hi, h, Buf.getD_toList c off' hi]
  · exact Buf.toList_congr

/-- The first block depends on the nonce and the lengths only. -/
theorem ccmB0_congr {iv iv' : Buf} {ivLen inputLen : Nat} (macLen aadLen : Nat)
    (hiv : 7 ≤ ivLen ∧ ivLen ≤ 13) (hlen : inputLen < 2 ^ 32)
    (h : ∀ k < ivLen, iv' k = iv k) :
    ccmB0 iv' ivLen macLen aadLen inputLen = ccmB0 iv ivLen macLen aadLen inputLen := by
  refine Block.ofBuf_congr fun k hk => ?_
  rw [Nat.zero_add, aesCcmFormatB0_apply _ _ _ _ hiv hlen, aesCcmFormatB0_apply _ _ _ _ hiv hlen]
  by_cases h0 : k = 0
  · simp only [h0, if_true]
  · by_cases hle : k ≤ ivLen
    · rw [h (k - 1) (by omega)]
    · simp only [hle, if_false]

/-- The blocks of the associated data depend on its bytes only. -/
theorem ccmAadBlocks_congr {aad aad' : Buf} {aadLen : Nat} (h : ∀ k < aadLen, aad' k = aad k) :
    ccmAadBlocks aad' aadLen = ccmAadBlocks aad aadLen := by
  have hlist : aad'.toList 0 aadLen = aad.toList 0 aadLen := by
    refine Buf.toList_congr fun k hk => ?_
    rw [Nat.zero_add]
    exact h k hk
  rcases Nat.lt_or_ge aadLen 0xFF00 with hlt | hge
  · rw [ccmAadBlocks_short _ hlt, ccmAadBlocks_short _ hlt, hlist]
  · have hb1 : ccmB1 aad' aadLen = ccmB1 aad aadLen := by
      refine Block.ofBuf_congr fun k hk => ?_
      rw [Nat.zero_add, aesCcmFormatB1_long _ _ hge hk, aesCcmFormatB1_long _ _ hge hk,
        h (k - 2) (by omega)]
    have hrest : ∀ off, aad'.toList off (aadLen - off) = aad.toList off (aadLen - off) := fun off =>
      Buf.toList_congr fun k hk => h _ (by omega)
    rw [ccmAadBlocks, ccmAadBlocks, hb1, hrest]

/-- Two calls under one nonce, associated data and lengths. -/
structure CcmSameHeader (c d : CcmCall) : Prop where
  nonce : d.nonce = c.nonce
  adata : d.adata = c.adata
  inputLen : d.inputLen = c.inputLen
  tagLen : d.tagLen = c.tagLen

theorem CcmSameHeader.ivLen {c d : CcmCall} (h : CcmSameHeader c d) : d.ivLen = c.ivLen := by
  have := congrArg List.length h.nonce
  simpa [CcmArgs.nonce] using this

theorem CcmSameHeader.aadLen {c d : CcmCall} (h : CcmSameHeader c d) : d.aadLen = c.aadLen := by
  have := congrArg List.length h.adata
  simpa [CcmArgs.adata] using this

theorem CcmSameHeader.ctr0 {c d : CcmCall} (h : CcmSameHeader c d) :
    ccmCtr0 d.iv d.ivLen = ccmCtr0 c.iv c.ivLen := by
  rw [ccmCtr0_eq _ d.accepted.iv_le, ccmCtr0_eq _ c.accepted.iv_le]
  exact congrArg (Ccm.ctrBlock · 0) h.nonce

/-- Calls with one header make one tag of the same plaintext. -/
theorem CcmSameHeader.tag_eq {c d : CcmCall} (h : CcmSameHeader c d) (E : Block → Block)
    (plain : List UInt8) : ccmTag E d.toCcmArgs plain = ccmTag E c.toCcmArgs plain := by
  have hiv : ∀ k < c.ivLen, d.iv k = c.iv k := by
    have hn := h.nonce
    rw [CcmArgs.nonce, CcmArgs.nonce, h.ivLen, toList_eq_iff] at hn
    simpa using hn
  have haad : ∀ k < c.aadLen, d.aad k = c.aad k := by
    have ha := h.adata
    rw [CcmArgs.adata, CcmArgs.adata, h.aadLen, toList_eq_iff] at ha
    simpa using ha
  have hb0 := ccmB0_congr c.tagLen c.aadLen ⟨c.accepted.iv_ge, c.accepted.iv_le⟩ c.inputLen_lt hiv
  rw [ccmTag, ccmTag, ccmMac, ccmMac, h.ctr0, h.tagLen, h.inputLen, h.aadLen, h.ivLen, hb0,
    ccmAadBlocks_congr haad]

/-! ## The round trip -/

/-- In state `s₂`, under the same key, `d` and `given` present what `c` made of
state `s`. -/
structure CcmHandedOn (c d : CcmCall) (s s₂ : SdpState Unit) (tag given : Buf) : Prop where
  header : CcmSameHeader c d
  key : s₂.key = s.key
  input : s₂.mem.load d.input d.inputLen = (c.generate aes s tag).state.mem.load c.output c.inputLen
  given : ∀ k < c.tagLen, given k = (c.generate aes s tag).tag k

/-- The same call on other buffers. -/
def CcmCall.move (c : CcmCall) (input output : Ptr SdpObj)
    (h : CcmBuffers input output c.inputLen) : CcmCall where
  toCcmArgs := { c.toCcmArgs with input := input, output := output }
  accepted :=
    have hacc := c.accepted
    ⟨hacc.tag_even, hacc.tag_ge, hacc.tag_le, hacc.iv_ge, hacc.iv_le⟩
  inputLen_lt := c.inputLen_lt
  aadLen_lt := c.aadLen_lt
  buffers := h

/-- The call on the plaintext that a decryption has left in its output. -/
def CcmCall.again (c : CcmCall) : CcmCall :=
  c.move c.output c.output ⟨c.buffers.dst_user, c.buffers.dst_user, Ptr.SameOrApart.refl _ _⟩

/-- What encryption and decryption promise each other. -/
structure CcmRoundTrip (c : CcmCall) (s : SdpState Unit) : Prop where
  /-- What `c` produced is opened and gives back the plaintext. -/
  opens : ∀ (d : CcmCall) (s₂ : SdpState Unit) (tag given : Buf),
    CcmHandedOn aes c d s s₂ tag given →
    (c.generate aes s tag).status = .success ∧ (d.verify aes s₂ given).1 = .success ∧
      (d.verify aes s₂ given).2.mem.load d.output d.inputLen = s.mem.load c.input c.inputLen
  /-- Whatever `c` finds as ciphertext, a tag with one wrong byte is refused. -/
  refuses : ∀ given : Buf, (∃ i < c.tagLen, given i ≠ c.recomputed aes s i) →
    (c.verify aes s given).1 = .sdpErrorInvalidMac
  /-- The recomputed tag is the one encryption gives the plaintext found. -/
  recomputes : ∀ (given tag : Buf), ∀ i < c.tagLen, c.recomputed aes s i =
    (c.again.generate aes (c.verify aes s given).2 tag).tag i

/-- Decryption yields the plaintext whatever the tag. -/
theorem CcmHandedOn.plain {c d : CcmCall} {s s₂ : SdpState Unit} {tag given : Buf}
    (h : CcmHandedOn aes c d s s₂ tag given) :
    (d.verify aes s₂ given).2.mem.load d.output d.inputLen = s.mem.load c.input c.inputLen := by
  have hc := c.generate_done aes s tag
  have hd := d.verify_done aes s₂ given
  have hE : s₂.cipher aes = s.cipher aes := cipher_congr aes h.key
  have hlen := h.header.inputLen
  rw [hlen]
  refine Buf.toList_congr fun i hi => ?_
  have hin := h.input
  rw [hlen, Mem.load, Mem.load, toList_eq_iff, d.buffers.src_user, c.buffers.dst_user] at hin
  rw [d.buffers.dst_user, c.buffers.src_user, hd.stream i (by omega), hin i hi, hc.stream i hi, hE,
    h.header.ctr0, UInt8.xor_assoc, UInt8.xor_self, UInt8.xor_zero]

/-- The round trip holds for every call, state and cipher.

The counters depend on the nonce alone, so decryption undoes encryption.  Both directions take the
same header and the same plaintext through the CBC-MAC, though in opposite orders, so the tag that
is computed again is the one that encryption gave, and the comparison at the end looks at every
byte of it.  The buffers may coincide, as each block is read before it is written. -/
theorem sdpAesCcm_roundTrip (c : CcmCall) (s : SdpState Unit) : CcmRoundTrip aes c s := by
  refine ⟨fun d s₂ tag given h => ?_, fun given h => ?_, fun given tag i hi => ?_⟩
  · have hc := c.generate_done aes s tag
    have hd := d.verify_done aes s₂ given
    have hE : s₂.cipher aes = s.cipher aes := cipher_congr aes h.key
    have htag : (d.recomputed aes s₂).toList 0 d.tagLen =
        (c.generate aes s tag).tag.toList 0 d.tagLen := by
      rw [hd.tag, hE, h.header.tag_eq, h.header.tagLen, hc.tag]
      exact congrArg _ h.plain
    rw [toList_eq_iff] at htag
    refine ⟨hc.status, ?_, h.plain⟩
    rw [CcmCall.verify_eq, if_pos]
    intro k hk
    have := htag k hk
    rw [Nat.zero_add] at this
    rw [this, h.given k (by rw [← h.header.tagLen]; exact hk)]
  · obtain ⟨i, hi, hne⟩ := h
    rw [CcmCall.verify_eq, if_neg]
    exact fun hall => hne (hall i hi).symm
  · have hc := c.verify_done aes s given
    have hg := c.again.generate_done aes (c.verify aes s given).2 tag
    have hE : (c.verify aes s given).2.cipher aes = s.cipher aes := cipher_congr aes hc.key
    have htag : (c.recomputed aes s).toList 0 c.tagLen =
        (c.again.generate aes (c.verify aes s given).2 tag).tag.toList 0 c.tagLen := by
      have hsame : CcmSameHeader c c.again := ⟨rfl, rfl, rfl, rfl⟩
      have hg' := hg.tag
      rw [hsame.tag_eq, hE, hsame.tagLen] at hg'
      rw [hg', hc.tag]
      rfl
    rw [toList_eq_iff] at htag
    have := htag i hi
    rwa [Nat.zero_add] at this

/-- The call that takes the output of `c` back to its input. -/
def CcmCall.reverse (c : CcmCall) : CcmCall :=
  c.move c.output c.input ⟨c.buffers.dst_user, c.buffers.src_user, c.buffers.same.symm⟩

/-- Decrypting at once, into the buffer the plaintext came from. -/
theorem CcmHandedOn.reverse (c : CcmCall) (s : SdpState Unit) (tag : Buf) :
    CcmHandedOn aes c c.reverse s (c.generate aes s tag).state tag (c.generate aes s tag).tag where
  header := ⟨rfl, rfl, rfl, rfl⟩
  key := (c.generate_done aes s tag).key
  input := rfl
  given _ _ := rfl

end HpmSdk.Sdp
