import HpmSdk.Sdp.CcmRun

set_option autoImplicit false

/-!
# SDP: CCM encryption against the standard

`sdp_aes_ccm_generate_encrypt` computes the CCM of SP 800-38C when the
associated data has the short length prefix and the input length fits its
field, and only then: the long prefix leaves the length out, and an input that
is too long is accepted, its length running into the nonce of `B0`.

Each part of the tag and of the stream is that of the standard as long as the lengths fit their
fields, which the driver does not check.
-/

namespace HpmSdk.Sdp

open HpmSdk.Foundation

/-! ## The key stream -/

/-- Byte `i` of a concatenation of blocks. -/
theorem getElem?_flatMap_blocks (f : Nat → Block) (m i : Nat) :
    ((List.range m).flatMap fun j => (f j).toList)[i]? =
      if i < 16 * m then some ((f (i / 16)).toBuf (i % 16)) else none := by
  induction m with
  | zero => simp
  | succ m ih =>
    have hlen : ((List.range m).flatMap fun j => (f j).toList).length = 16 * m := by
      rw [List.length_flatMap]
      simp [List.map_const', Nat.mul_comm]
    rw [List.range_succ, List.flatMap_append, List.flatMap_singleton]
    rcases Nat.lt_or_ge i (16 * m) with h | h
    · rw [List.getElem?_append_left (by rwa [hlen]), ih, if_pos h, if_pos (by omega)]
    · rw [List.getElem?_append_right (by rwa [hlen]), hlen]
      rcases Nat.lt_or_ge i (16 * (m + 1)) with h' | h'
      · rw [if_pos h', show i / 16 = m by omega, show i % 16 = i - 16 * m by omega]
        simp [Block.toList, Buf.toList, show i - 16 * m < 16 by omega]
      · rw [if_neg (by omega), List.getElem?_eq_none]
        rw [Block.length_toList]
        omega

/-- Bytes that are the payload under consecutive counter blocks are the
ciphertext of the standard. -/
theorem toList_eq_ciphertext (E : Block → Block) (nonce payload : List UInt8) (b : Buf) (off : Nat)
    (h : ∀ i < payload.length, b (off + i) = payload.getD i 0 ^^^
      (E (Ccm.ctrBlock nonce (i / 16 + 1))).toBuf (i % 16)) :
    b.toList off payload.length = Ccm.ciphertext E nonce payload := by
  refine List.ext_getElem? fun i => ?_
  rw [Ccm.ciphertext, List.getElem?_zipWith,
    getElem?_flatMap_blocks (fun j => E (Ccm.ctrBlock nonce (j + 1)))]
  rcases Nat.lt_or_ge i payload.length with hi | hi
  · rw [if_pos (by omega), List.getElem?_eq_getElem hi]
    have hb := h i hi
    rw [List.getD_eq_getElem _ _ hi] at hb
    simp [Buf.toList, hi, hb]
  · rw [List.getElem?_eq_none (by rwa [Buf.length_toList]), List.getElem?_eq_none hi]

/-! ## The contract -/

variable (aes : SdpAesKey → SdpAesOp → Block → Block)

/-- The input length fits the `q = 15 - iv_len` bytes `B0` has for it. -/
def CcmArgs.Fits (c : CcmArgs) : Prop := c.inputLen < 256 ^ (15 - c.ivLen)

/-- What `sdp_aes_ccm_generate_encrypt` is for. -/
structure CcmConforms (c : CcmCall) (s : SdpState Unit) : Prop where
  /-- Ciphertext and tag are those of the standard, under every cipher. -/
  exact : c.Fits → ∀ (aes : SdpAesKey → SdpAesOp → Block → Block) (tag : Buf),
    (c.generate aes s tag).status = .success ∧
    (c.generate aes s tag).state.mem.load c.output c.inputLen =
      Ccm.ciphertext (s.cipher aes) c.nonce (c.payload s) ∧
    (c.generate aes s tag).tag.toList 0 c.tagLen =
      Ccm.tag (s.cipher aes) c.nonce c.adata (c.payload s) c.tagLen
  /-- An input whose length does not fit is rejected. -/
  rejects : ¬ c.Fits → ∀ (aes : SdpAesKey → SdpAesOp → Block → Block) (tag : Buf),
    (c.generate aes s tag).status ≠ .success
  /-- The length of `B0` stays inside its field. -/
  inside : ∀ (block : Buf) (k : Nat), k < 1 + c.ivLen ∨ 16 ≤ k →
    uint32ToBe block (1 + c.ivLen) (15 - c.ivLen) c.inputLen k = block k

/-! ## Short associated data -/

/-- A block of zeros changes nothing. -/
theorem xor_zero_block (b : Block) : Block.xor (fun _ => 0) b = b := by
  funext i
  simp [Block.xor]

/-- The first block of the driver is that of the standard, where the lengths fit it. -/
theorem CcmCall.b0_eq {c : CcmCall} {payload : List UInt8} (hfit : c.Fits)
    (hpay : payload.length = c.inputLen) :
    ccmB0 c.iv c.ivLen c.tagLen c.aadLen c.inputLen =
      Ccm.b0 c.nonce c.adata payload c.tagLen := by
  obtain ⟨heven, htge, htle, hige, hile⟩ := c.accepted
  exact ccmB0_eq ⟨hige, hile⟩ ⟨htge, htle⟩ heven c.inputLen_lt hfit (Buf.length_toList _ _ _) hpay

/-- The tag of the code is the tag of the standard once the blocks agree. -/
theorem ccmTag_eq (E : Block → Block) {c : CcmCall} {payload : List UInt8} (hfit : c.Fits)
    (hpay : payload.length = c.inputLen)
    (haad : ccmAadBlocks c.aad c.aadLen =
      Ccm.padBlocks (Ccm.encodeAadLen c.aadLen ++ c.aad.toList 0 c.aadLen)) :
    ccmTag E c.toCcmArgs payload = Ccm.tag E c.nonce c.adata payload c.tagLen := by
  have hacc := c.accepted
  have hlen : c.adata.length = c.aadLen := Buf.length_toList _ _ _
  rw [ccmTag, ccmMac, CcmCall.b0_eq hfit hpay, haad, ccmCtr0_eq _ hacc.iv_le, Ccm.tag, Ccm.cbcMac,
    Ccm.blocks, hlen,
    Ccm.macFrom_cons, xor_zero_block]
  rfl

/-- And the output is the ciphertext of the standard. -/
theorem ccm_ciphertext_eq {c : CcmCall} {s : SdpState Unit} {r : CcmResult Unit} (hfit : c.Fits)
    (h : CcmDone .encrypt (s.cipher aes) c.toCcmArgs s r) :
    r.state.mem.load c.output c.inputLen =
      Ccm.ciphertext (s.cipher aes) c.nonce (c.payload s) := by
  have hacc := c.accepted
  have hlen : (c.payload s).length = c.inputLen := Mem.length_load _ _ _
  have hcipher := toList_eq_ciphertext (s.cipher aes) c.nonce (c.payload s) (r.state.mem .user)
    c.output.off fun i hi => by
      rw [hlen] at hi
      have hj : i / 16 + 1 < 256 ^ (15 - c.ivLen) := by
        have : 256 ^ 2 ≤ 256 ^ (15 - c.ivLen) :=
          Nat.pow_le_pow_right (by decide) (by have := hacc.iv_le; omega)
        have hfit' : c.inputLen < 256 ^ (15 - c.ivLen) := hfit
        omega
      rw [h.stream i hi, ccmCtr0_eq _ hacc.iv_le, iterate_incBn_ctrBlock _ hacc.iv_le hj,
        CcmArgs.payload, Mem.load, Buf.getD_toList _ _ hi, c.buffers.src_user]
      rfl
  rw [hlen] at hcipher
  rw [Mem.load, c.buffers.dst_user]
  exact hcipher

/-! ## Long associated data -/

/-- The cipher that spreads byte `j` of its input. -/
def spread (j : Fin 16) : Block → Block := fun b _ => b j

/-- Under `spread j` the chaining value keeps byte `j` of every block apart. -/
theorem macFrom_spread_inj (j : Fin 16) (bs : List Block) : ∀ {u v : Block},
    (Ccm.macFrom (spread j) (spread j u) bs) 0 = (Ccm.macFrom (spread j) (spread j v) bs) 0 →
      u j = v j := by
  induction bs with
  | nil => intro u v h; exact h
  | cons b bs ih =>
    intro u v h
    have hxor : u j ^^^ b j = v j ^^^ b j := ih h
    have hcancel := congrArg (· ^^^ b j) hxor
    simpa [UInt8.xor_assoc] using hcancel

/-- The first block of the standard and the one of the code always differ when
the associated data is long: the code has no length. -/
theorem ccmB1_long_ne (aad : Buf) {aadLen : Nat} (h : 0xFF00 ≤ aadLen) (hlt : aadLen < 2 ^ 32) :
    ccmB1 aad aadLen ≠ Block.pad (0xFF :: 0xFE :: beBytes 4 aadLen ++ aad.toList 0 10) := by
  intro heq
  have hcode : ∀ {k : Nat} (hk : k < 16), ccmB1 aad aadLen ⟨k, hk⟩ =
      if k = 0 then 0xFF else if k = 1 then 0xFE else if k < 12 then aad (k - 2) else 0 := by
    intro k hk
    rw [ccmB1, Block.ofBuf, Nat.zero_add]
    exact aesCcmFormatB1_long _ aad h hk
  have hat : ∀ k : Fin 16, ccmB1 aad aadLen k =
      Block.pad (0xFF :: 0xFE :: beBytes 4 aadLen ++ aad.toList 0 10) k := fun k => congrFun heq k
  -- the data reappears four bytes later in the standard's block, up to the zeros
  have h0 : aad 0 = 0 := by
    have h4 : aad 4 = aad 0 := (hcode (by decide)).symm.trans (hat 6)
    have h8 : aad 8 = aad 4 := (hcode (by decide)).symm.trans (hat 10)
    have hz : (0 : UInt8) = aad 8 := (hcode (by decide)).symm.trans (hat 14)
    rw [← h4, ← h8, ← hz]
  have h1 : aad 1 = 0 := by
    have h5 : aad 5 = aad 1 := (hcode (by decide)).symm.trans (hat 7)
    have h9 : aad 9 = aad 5 := (hcode (by decide)).symm.trans (hat 11)
    have hz : (0 : UInt8) = aad 9 := (hcode (by decide)).symm.trans (hat 15)
    rw [← h5, ← h9, ← hz]
  have h2 : aad 2 = 0 := by
    have h6 : aad 6 = aad 2 := (hcode (by decide)).symm.trans (hat 8)
    have hz : (0 : UInt8) = aad 6 := (hcode (by decide)).symm.trans (hat 12)
    rw [← h6, ← hz]
  have h3 : aad 3 = 0 := by
    have h7 : aad 7 = aad 3 := (hcode (by decide)).symm.trans (hat 9)
    have hz : (0 : UInt8) = aad 7 := (hcode (by decide)).symm.trans (hat 13)
    rw [← h7, ← hz]
  -- so all four length bytes would be zero
  have hdigit : ∀ {e : Nat} {x : UInt8}, x = 0 → x = UInt8.ofNat (aadLen / 256 ^ e) →
      aadLen / 256 ^ e % 256 = 0 := by
    intro e x hx hd
    have := congrArg UInt8.toNat (hd.symm.trans hx)
    rwa [UInt8.toNat_ofNat'] at this
  have d3 : aadLen / 256 ^ 3 % 256 = 0 :=
    hdigit h0 ((hcode (by decide : 2 < 16)).symm.trans (hat 2))
  have d2 : aadLen / 256 ^ 2 % 256 = 0 :=
    hdigit h1 ((hcode (by decide : 3 < 16)).symm.trans (hat 3))
  have d1 : aadLen / 256 ^ 1 % 256 = 0 :=
    hdigit h2 ((hcode (by decide : 4 < 16)).symm.trans (hat 4))
  have d0 : aadLen / 256 ^ 0 % 256 = 0 :=
    hdigit h3 ((hcode (by decide : 5 < 16)).symm.trans (hat 5))
  omega

/-! ## Exactly when the code conforms -/

/-- Every length is accepted, so a conforming call is one whose length fits. -/
theorem CcmConforms.fits {c : CcmCall} {s : SdpState Unit} (h : CcmConforms c s) : c.Fits := by
  by_contra hfit
  exact h.rejects hfit (fun _ _ b => b) (fun _ => 0) (c.generate_done _ s _).status

/-- Long associated data shows in the first byte of the tag under some cipher. -/
theorem CcmConforms.short {c : CcmCall} {s : SdpState Unit} (h : CcmConforms c s) :
    c.aadLen < 0xFF00 := by
  by_contra hlong
  have hge : 0xFF00 ≤ c.aadLen := Nat.not_lt.mp hlong
  have hfit := h.fits
  have hacc := c.accepted
  obtain ⟨j, hj⟩ := Function.ne_iff.mp (ccmB1_long_ne c.aad hge c.aadLen_lt)
  refine hj ?_
  set E := spread j with hE
  have hdone := c.generate_done (fun _ _ => E) s (fun _ => 0)
  obtain ⟨-, -, htag⟩ := h.exact hfit (fun _ _ => E) (fun _ => 0)
  rw [hdone.tag] at htag
  set payload := c.payload s with hpayload
  have hplen : payload.length = c.inputLen := Mem.length_load _ _ _
  have halen : c.adata.length = c.aadLen := Buf.length_toList _ _ _
  -- both tags are masked with the same block, so the chaining values agree at byte 0
  have hmac : (ccmMac E c.toCcmArgs payload) 0 =
      (Ccm.cbcMac E (Ccm.blocks c.nonce c.adata payload c.tagLen)) 0 := by
    have hpos : 0 < c.tagLen := by
      have := hacc.tag_ge
      omega
    have hhead : ∀ b : Block, (b.toList.take c.tagLen).head? = some (b 0) := by
      intro b
      obtain ⟨t, ht⟩ := Nat.exists_eq_add_of_le' hpos
      rw [ht]
      rfl
    have h0 := congrArg List.head? htag
    rw [ccmTag, Ccm.tag, hhead, hhead] at h0
    have hx : (ccmMac E c.toCcmArgs payload) 0 ^^^ E (ccmCtr0 c.iv c.ivLen) 0 =
        (Ccm.cbcMac E (Ccm.blocks c.nonce c.adata payload c.tagLen)) 0 ^^^
          E (Ccm.ctrBlock c.nonce 0) 0 := Option.some.inj h0
    rw [ccmCtr0_eq _ hacc.iv_le] at hx
    have hcancel := congrArg (· ^^^ E (Ccm.ctrBlock c.nonce 0) 0) hx
    simpa [UInt8.xor_assoc, CcmArgs.nonce] using hcancel
  have hcode : ccmAadBlocks c.aad c.aadLen =
      ccmB1 c.aad c.aadLen :: Ccm.padBlocks (c.aad.toList 10 (c.aadLen - 10)) := by
    rw [ccmAadBlocks, if_pos (by omega), ccmB1Len, if_neg hlong]
  have hspec : Ccm.padBlocks (Ccm.encodeAadLen c.aadLen ++ c.adata) =
      Block.pad (0xFF :: 0xFE :: beBytes 4 c.aadLen ++ c.aad.toList 0 10) ::
        Ccm.padBlocks (c.aad.toList 10 (c.aadLen - 10)) := by
    rw [Ccm.encodeAadLen, if_neg (by omega : c.aadLen ≠ 0), if_neg hlong, CcmArgs.adata,
      Ccm.padBlocks_prefix _ c.aad 0 (k := 10) (by simp) (by simp) (by simp; omega), Nat.zero_add]
  rw [ccmMac, CcmCall.b0_eq hfit hplen, hcode, Ccm.cbcMac, Ccm.blocks, halen, hspec,
    Ccm.macFrom_cons, xor_zero_block,
    List.cons_append, List.cons_append, Ccm.macFrom_cons, Ccm.macFrom_cons] at hmac
  have hfirst := macFrom_spread_inj j _ hmac
  have hcancel := congrArg (E (Ccm.b0 c.nonce c.adata payload c.tagLen) j ^^^ ·) hfirst
  simpa [Block.xor, ← UInt8.xor_assoc] using hcancel

/-- The code conforms exactly when the associated data is shorter than `0xFF00` bytes and the
input length fits its field.

From `0xFF00` on the length is to follow its marker in four bytes; the code writes a zero there
and the data over it, so that other blocks are authenticated.  A length that does not fit is
accepted, and its high digits run into the nonce.  Below both bounds `B0`, the blocks of the
associated data and the counter blocks are those of the standard, and CBC-MAC and counter mode
over equal blocks end alike. -/
theorem ccmConforms_iff (c : CcmCall) (s : SdpState Unit) :
    CcmConforms c s ↔ c.aadLen < 0xFF00 ∧ c.inputLen < 256 ^ (15 - c.ivLen) := by
  constructor
  · intro h
    exact ⟨h.short, h.fits⟩
  · rintro ⟨hshort, hfit⟩
    refine ⟨fun _ aes tag => ?_, fun hno => absurd hfit hno, fun block k hk => ?_⟩
    · have hdone := c.generate_done aes s tag
      refine ⟨hdone.status, ccm_ciphertext_eq aes hfit hdone, ?_⟩
      rw [hdone.tag]
      exact ccmTag_eq _ hfit (Mem.length_load _ _ _) (ccmAadBlocks_short _ hshort)
    · have hacc := c.accepted
      have hge := hacc.iv_ge
      have hle := hacc.iv_le
      have hsum : 1 + c.ivLen + (15 - c.ivLen) = 16 := by omega
      rw [uint32ToBe_apply _ (by omega) (by
        rw [hsum]; exact Nat.lt_of_lt_of_le c.inputLen_lt (by norm_num)), hsum, if_neg]
      rintro ⟨hk16, hor⟩
      have hpow : 256 ^ (15 - c.ivLen) ≤ 256 ^ (16 - 1 - k) :=
        Nat.pow_le_pow_right (by decide) (by omega)
      omega

/-! ## The two defects -/

/-- A call on zero bytes with a 13-byte nonce, in place. -/
def ccmZeroCall (inputLen aadLen : Nat) (hi : inputLen < 2 ^ 32) (ha : aadLen < 2 ^ 32) :
    CcmCall where
  inputLen := inputLen
  iv := fun _ => 0
  ivLen := 13
  aad := fun _ => 0
  aadLen := aadLen
  input := ⟨.user, 0⟩
  output := ⟨.user, 0⟩
  tagLen := 16
  accepted := ⟨by simp, by simp, by simp, by simp, by simp⟩
  inputLen_lt := hi
  aadLen_lt := ha
  buffers := ⟨rfl, rfl, Ptr.SameOrApart.refl _ _⟩

def ccmZeroState : SdpState Unit where
  hw := ()
  keyIdx := 0
  keyBits := .keybits128
  mem _ _ := 0
  issued := []

/-- `0xFF00` bytes of associated data get another tag than the standard's, and
65536 bytes of input under a 13-byte nonce are accepted. -/
theorem ccm_lengths_mishandled :
    ¬ CcmConforms (ccmZeroCall 0 0xFF00 (by decide) (by decide)) ccmZeroState ∧
      ¬ CcmConforms (ccmZeroCall 65536 0 (by decide) (by decide)) ccmZeroState := by
  refine ⟨fun h => ?_, fun h => ?_⟩
  · exact absurd h.short (by simp [ccmZeroCall])
  · exact absurd h.fits (by simp [CcmArgs.Fits, ccmZeroCall])

end HpmSdk.Sdp
