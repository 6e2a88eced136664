import HpmSdk.Sdp.CcmFormat

set_option autoImplicit false

/-!
# SDP: a run of the CCM driver over the engine of a block cipher

Each phase of `aes_ccm_auth_crypt` is described by what it leaves behind: the
chaining value in `y`, the counter in `ctr` and the caller's output.  The loops
are cut block by block, and runs in sequence compose.  The result, `CcmDone`,
holds of encryption and decryption, whatever the lengths.

`CcmMacDone` and `CcmPayloadDone` say what a stretch of the call has absorbed and what it has
written; they are composed as the call goes on.
-/

namespace HpmSdk.Sdp

open HpmSdk.Foundation

/-! ## Authenticated blocks -/

/-- The blocks `bs` have been added to the CBC-MAC in `y`; nothing but `b` and
`y` has changed. -/
structure CcmMacDone (E : Block → Block) (bs : List Block) (s s' : SdpState Unit) : Prop where
  mac : blockAt s'.mem ⟨.buf1, 0⟩ = Ccm.macFrom E (blockAt s.mem ⟨.buf1, 0⟩) bs
  frame : ∀ o, o ≠ .buf0 → o ≠ .buf1 → s'.mem o = s.mem o
  key : s'.key = s.key

theorem CcmMacDone.nil (E : Block → Block) (s : SdpState Unit) : CcmMacDone E [] s s where
  mac := rfl
  frame _ _ _ := rfl
  key := rfl

/-- Absorbing blocks one list behind the other is absorbing both lists. -/
theorem CcmMacDone.append {E : Block → Block} {bs cs : List Block} {s s₁ s₂ : SdpState Unit}
    (h₁ : CcmMacDone E bs s s₁) (h₂ : CcmMacDone E cs s₁ s₂) : CcmMacDone E (bs ++ cs) s s₂ where
  mac := by rw [h₂.mac, h₁.mac, Ccm.macFrom_append]
  frame o h0 h1 := by rw [h₂.frame o h0 h1, h₁.frame o h0 h1]
  key := h₂.key.trans h₁.key

section OfCipher

variable (aes : SdpAesKey → SdpAesOp → Block → Block)

theorem cipher_congr {s s' : SdpState Unit} (h : s'.key = s.key) : s'.cipher aes = s.cipher aes :=
  congrArg (fun k => aes k .encrypt) h

/-- The CBC operation over whatever block is in `b`. -/
theorem aesCcmMac_done (s : SdpState Unit) {b : Block} (f : Buf → Buf)
    (hb : Block.ofBuf (f (s.mem .buf0)) 0 = b) :
    CcmMacDone (s.cipher aes) [b] s (aesCcmMac (.ofCipher aes) (s.modify .buf0 f)) := by
  have hy : blockAt (s.modify .buf0 f).mem ⟨.buf1, 0⟩ = blockAt s.mem ⟨.buf1, 0⟩ := by
    rw [blockAt, SdpState.modify_mem, Mem.modify_of_ne _ _ (by decide)]
    rfl
  have hb' : blockAt (s.modify .buf0 f).mem ⟨.buf0, 0⟩ = b := by
    rw [blockAt, SdpState.modify_mem, Mem.modify_self]
    exact hb
  unfold aesCcmMac
  rw [sdpAesCryptCbc_ofCipher, hy, hb', cipher_congr aes (SdpState.modify_key s .buf0 f)]
  refine ⟨blockAt_storeBlock _ _ _, fun o h0 h1 => ?_, rfl⟩
  exact (storeBlock_of_ne _ _ h1).trans (Mem.modify_of_ne _ _ h0)

/-- One block is absorbed, padded with zeros. -/
theorem aesCcmMacBlock_done (s : SdpState Unit) (src : Buf) (off : Nat) {n : Nat} (hn : n ≤ 16) :
    CcmMacDone (s.cipher aes) [Block.pad (src.toList off n)] s
      (aesCcmMacBlock (.ofCipher aes) s src off n) :=
  aesCcmMac_done aes s _ (ofBuf_aesCcmLoadBlock _ src off hn)

/-- A stretch is its first sixteen bytes, or as many as there are, and the rest. -/
theorem padBlocks_toList (b : Buf) (off : Nat) {n : Nat} (hn : 0 < n) :
    Ccm.padBlocks (b.toList off n) = Block.pad (b.toList off (min n 16)) ::
      Ccm.padBlocks (b.toList (off + min n 16) (n - min n 16)) :=
  Ccm.padBlocks_prefix [] b off (by decide) (by simpa using hn) rfl

/-- The loop absorbs the associated data behind its first block. -/
theorem aesCcmAadLoop_done (aad : Buf) : ∀ (n off : Nat) (s : SdpState Unit),
    CcmMacDone (s.cipher aes) (Ccm.padBlocks (aad.toList off n)) s
      (aesCcmAadLoop (.ofCipher aes) s aad off n) := by
  intro n
  induction n using Nat.strongRecOn with
  | ind n ih =>
    intro off s
    rw [aesCcmAadLoop]
    rcases Nat.eq_zero_or_pos n with rfl | hpos
    · rw [if_neg (Nat.lt_irrefl 0), Buf.toList_zero, Ccm.padBlocks_nil]
      exact CcmMacDone.nil _ _
    · rw [if_pos hpos, padBlocks_toList aad off hpos]
      have hblock := aesCcmMacBlock_done aes s aad off (n := min n 16) (by omega)
      have hrest := ih (n - min n 16) (by omega) (off + min n 16)
        (aesCcmMacBlock (.ofCipher aes) s aad off (min n 16))
      rw [cipher_congr aes hblock.key] at hrest
      exact hblock.append hrest

/-- The blocks the code makes of the associated data. -/
def ccmAadBlocks (aad : Buf) (aadLen : Nat) : List Block :=
  if 0 < aadLen then
    ccmB1 aad aadLen ::
      Ccm.padBlocks (aad.toList (ccmB1Len aadLen) (aadLen - ccmB1Len aadLen))
  else []

/-- Short associated data is cut as the standard does. -/
theorem ccmAadBlocks_short (aad : Buf) {aadLen : Nat} (h : aadLen < 0xFF00) :
    ccmAadBlocks aad aadLen =
      Ccm.padBlocks (Ccm.encodeAadLen aadLen ++ aad.toList 0 aadLen) := by
  unfold ccmAadBlocks Ccm.encodeAadLen
  rcases Nat.eq_zero_or_pos aadLen with rfl | hpos
  · rw [if_neg (Nat.lt_irrefl 0), if_pos rfl, Buf.toList_zero, List.append_nil, Ccm.padBlocks_nil]
  · rw [if_pos hpos, if_neg (by omega : aadLen ≠ 0), if_pos h,
      Ccm.padBlocks_prefix (beBytes 2 aadLen) aad 0 (k := ccmB1Len aadLen) (by simp) (by simp)
        (by rw [ccmB1Len, if_pos h, length_beBytes]),
      ccmB1, ofBuf_aesCcmFormatB1_short _ _ h, ccmB1Len, if_pos h, Nat.zero_add]

/-- The associated data is absorbed, with its length in front. -/
theorem aesCcmAad_done (s : SdpState Unit) (aad : Buf) (aadLen : Nat) :
    CcmMacDone (s.cipher aes) (ccmAadBlocks aad aadLen) s
      (aesCcmAad (.ofCipher aes) s aad aadLen) := by
  unfold aesCcmAad ccmAadBlocks
  split
  · have hfirst := aesCcmMac_done aes s (fun _ => (aesCcmFormatB1 (s.mem .buf0) aad aadLen).1)
      (ofBuf_aesCcmFormatB1 _ aad aadLen)
    have hrest := aesCcmAadLoop_done aes aad (aadLen - ccmB1Len aadLen) (ccmB1Len aadLen)
      (aesCcmMac (.ofCipher aes)
        (s.modify .buf0 fun _ => (aesCcmFormatB1 (s.mem .buf0) aad aadLen).1))
    rw [cipher_congr aes hfirst.key] at hrest
    simp only [aesCcmFormatB1_len]
    exact hfirst.append hrest
  · exact CcmMacDone.nil _ _

end OfCipher

/-! ## The payload -/

/-- Input and output lie in the caller's memory and are one buffer or disjoint. -/
structure CcmBuffers (src dst : Ptr SdpObj) (n : Nat) : Prop where
  src_user : src.obj = .user
  dst_user : dst.obj = .user
  same : Ptr.SameOrApart src dst n

/-- What is left of two buffers that do not overlap badly does not either. -/
theorem CcmBuffers.drop {src dst : Ptr SdpObj} {n k : Nat} (h : CcmBuffers src dst n)
    (hk : k ≤ n) : CcmBuffers (src.add k) (dst.add k) (n - k) :=
  ⟨h.src_user, h.dst_user, h.same.drop hk⟩

theorem CcmBuffers.ctrArgs {src dst : Ptr SdpObj} {n : Nat} (h : CcmBuffers src dst n) :
    CtrArgs ⟨.buf2, 0⟩ src dst n where
  nonce_ne := by decide
  input_ne := by rw [h.src_user]; decide
  output_ne := by rw [h.dst_user]; decide
  same := h.same
  nonce_input ho := by rw [h.src_user] at ho; exact absurd ho (by decide)
  nonce_output ho := by rw [h.dst_user] at ho; exact absurd ho (by decide)

/-- The plaintext of a run: what encryption reads, what decryption writes. -/
def ccmPlain (op : SdpAesOp) (s s' : SdpState Unit) (src dst : Ptr SdpObj) (n : Nat) :
    List UInt8 :=
  match op with
  | .encrypt => s.mem.load src n
  | .decrypt => s'.mem.load dst n

/-- `n` bytes of payload have gone through counter mode from the counter in
`ctr`, and their plaintext through the CBC-MAC in `y`. -/
structure CcmPayloadDone (op : SdpAesOp) (E : Block → Block) (src dst : Ptr SdpObj) (n : Nat)
    (s s' : SdpState Unit) : Prop where
  stream : ∀ i < n, s'.mem .user (dst.off + i) = s.mem .user (src.off + i) ^^^
    (E (Block.incBn^[i / 16] (blockAt s.mem ⟨.buf2, 0⟩))).toBuf (i % 16)
  mac : blockAt s'.mem ⟨.buf1, 0⟩ = Ccm.macFrom E (blockAt s.mem ⟨.buf1, 0⟩)
    (Ccm.padBlocks (ccmPlain op s s' src dst n))
  counter : blockAt s'.mem ⟨.buf2, 0⟩ = Block.incBn^[(n + 15) / 16] (blockAt s.mem ⟨.buf2, 0⟩)
  frame : ∀ k, k < dst.off ∨ dst.off + n ≤ k → s'.mem .user k = s.mem .user k
  key : s'.key = s.key

theorem CcmPayloadDone.nil (op : SdpAesOp) (E : Block → Block) (src dst : Ptr SdpObj)
    (s : SdpState Unit) : CcmPayloadDone op E src dst 0 s s where
  stream i hi := absurd hi (Nat.not_lt_zero i)
  mac := by
    have h : Ccm.padBlocks (ccmPlain op s s src dst 0) = [] := by
      cases op <;> exact Ccm.padBlocks_nil
    rw [h, Ccm.macFrom_nil]
  counter := rfl
  frame _ _ := rfl
  key := rfl

/-- A whole block, then the rest. -/
theorem CcmPayloadDone.cons {op : SdpAesOp} {E : Block → Block} {src dst : Ptr SdpObj} {n : Nat}
    {s s₁ s₂ : SdpState Unit} (hbuf : CcmBuffers src dst (16 + n))
    (h₁ : CcmPayloadDone op E src dst 16 s s₁)
    (h₂ : CcmPayloadDone op E (src.add 16) (dst.add 16) n s₁ s₂) :
    CcmPayloadDone op E src dst (16 + n) s s₂ := by
  -- the second run leaves the first block of output alone
  have hout : ∀ i < 16, s₂.mem .user (dst.off + i) = s₁.mem .user (dst.off + i) := by
    intro i hi
    exact h₂.frame _ (Or.inl (by rw [Ptr.add_off]; omega))
  -- the first run leaves the rest of the input alone
  have hin : ∀ i < n, s₁.mem .user (src.off + 16 + i) = s.mem .user (src.off + 16 + i) := by
    intro i hi
    refine h₁.frame _ ?_
    rcases hbuf.same with heq | hap
    · subst heq
      omega
    · have := hap (by rw [hbuf.src_user, hbuf.dst_user])
      omega
  refine ⟨fun i hi => ?_, ?_, ?_, fun k hk => ?_, h₂.key.trans h₁.key⟩
  · rcases Nat.lt_or_ge i 16 with h | h
    · rw [hout i h, h₁.stream i h]
    · obtain ⟨j, rfl⟩ := Nat.exists_eq_add_of_le h
      have hj := h₂.stream j (by omega)
      simp only [Ptr.add_off] at hj
      rw [← Nat.add_assoc, hj, hin j (by omega), h₁.counter, ← Function.iterate_add_apply,
        show (16 + j) / 16 = j / 16 + (16 + 15) / 16 by omega,
        show (16 + j) % 16 = j % 16 by omega, Nat.add_assoc]
  · have hsplit : Ccm.padBlocks (ccmPlain op s s₂ src dst (16 + n)) =
        Ccm.padBlocks (ccmPlain op s s₁ src dst 16) ++
          Ccm.padBlocks (ccmPlain op s₁ s₂ (src.add 16) (dst.add 16) n) := by
      cases op with
      | encrypt =>
        have hrest : s₁.mem.load (src.add 16) n = s.mem.load (src.add 16) n := by
          refine Mem.load_congr fun i hi => ?_
          rw [Ptr.add_obj, Ptr.add_off, hbuf.src_user]
          exact hin i hi
        simp only [ccmPlain]
        rw [hrest, Mem.load_add, Ccm.padBlocks_append_of_full (Mem.length_load _ _ _),
          Ccm.padBlocks_of_le (l := s.mem.load src 16) (by rw [Mem.length_load]; decide)
            (by rw [Mem.length_load])]
        rfl
      | decrypt =>
        have hfirst : s₂.mem.load dst 16 = s₁.mem.load dst 16 := by
          refine Mem.load_congr fun i hi => ?_
          rw [hbuf.dst_user]
          exact hout i hi
        simp only [ccmPlain]
        rw [Mem.load_add, hfirst, Ccm.padBlocks_append_of_full (Mem.length_load _ _ _),
          Ccm.padBlocks_of_le (l := s₁.mem.load dst 16) (by rw [Mem.length_load]; decide)
            (by rw [Mem.length_load])]
        rfl
    rw [h₂.mac, h₁.mac, hsplit, Ccm.macFrom_append]
  · rw [h₂.counter, h₁.counter, ← Function.iterate_add_apply,
      show (16 + n + 15) / 16 = (n + 15) / 16 + (16 + 15) / 16 by omega]
  · rw [h₂.frame k (by rw [Ptr.add_off]; omega), h₁.frame k (by omega)]

section OfCipher

variable (aes : SdpAesKey → SdpAesOp → Block → Block)

/-- One pass of the loop body. -/
def ccmPayloadStep {σ : Type} (hw : SdpHw σ) (op : SdpAesOp) (s : SdpState σ)
    (src dst : Ptr SdpObj) (n : Nat) : SdpState σ :=
  let s := if op = .encrypt then aesCcmMacBlock hw s (s.mem src.obj) src.off n else s
  let s := (sdpAesCryptCtr hw s ⟨.buf2, 0⟩ src dst n).2
  if op = .decrypt then aesCcmMacBlock hw s (s.mem dst.obj) dst.off n else s

theorem aesCcmPayloadLoop_zero {σ : Type} (hw : SdpHw σ) (op : SdpAesOp) (s : SdpState σ)
    (src dst : Ptr SdpObj) : aesCcmPayloadLoop hw op s src dst 0 = s := by
  rw [aesCcmPayloadLoop]
  exact if_neg (Nat.lt_irrefl 0)

/-- A round of the loop over the payload takes sixteen bytes, or what is left. -/
theorem aesCcmPayloadLoop_pos {σ : Type} (hw : SdpHw σ) (op : SdpAesOp) (s : SdpState σ)
    (src dst : Ptr SdpObj) {n : Nat} (hn : 0 < n) :
    aesCcmPayloadLoop hw op s src dst n =
      aesCcmPayloadLoop hw op (ccmPayloadStep hw op s src dst (min n 16)) (src.add (min n 16))
        (dst.add (min n 16)) (n - min n 16) := by
  rw [aesCcmPayloadLoop]
  exact if_pos hn

/-- One block of counter mode leaves `y` alone. -/
theorem CtrDone.blockAt_buf1 {E : Block → Block} {src dst : Ptr SdpObj} {n : Nat}
    {s s' : SdpState Unit} (h : CtrDone E ⟨.buf2, 0⟩ src dst n s s') (hdst : dst.obj = .user) :
    blockAt s'.mem ⟨.buf1, 0⟩ = blockAt s.mem ⟨.buf1, 0⟩ := by
  refine Block.ofBuf_congr fun i _ => h.frame _ _ ⟨by decide, ?_, ?_⟩
  · rw [hdst]
    exact fun hc => absurd hc.1 (by decide)
  · exact fun hc => absurd hc.1 (by decide)

/-- Enciphering a piece leaves the bytes behind its output. -/
theorem CtrDone.user_frame {E : Block → Block} {src dst : Ptr SdpObj} {n : Nat}
    {s s' : SdpState Unit} (h : CtrDone E ⟨.buf2, 0⟩ src dst n s s') {k : Nat}
    (hk : k < dst.off ∨ dst.off + n ≤ k) : s'.mem .user k = s.mem .user k := by
  refine h.frame _ _ ⟨by decide, ?_, ?_⟩
  · rintro ⟨_, h1, h2⟩
    omega
  · exact fun hc => absurd hc.1 (by decide)

/-- A pass does its block, in either order of authentication and counter mode. -/
theorem ccmPayloadStep_done (op : SdpAesOp) (s : SdpState Unit) {src dst : Ptr SdpObj} {n : Nat}
    (hbuf : CcmBuffers src dst n) (hpos : 0 < n) (hle : n ≤ 16) :
    CcmPayloadDone op (s.cipher aes) src dst n s
      (ccmPayloadStep (.ofCipher aes) op s src dst n) := by
  have hone : (n + 15) / 16 = 1 := by omega
  cases op with
  | encrypt =>
    have hmac := aesCcmMacBlock_done aes s (s.mem src.obj) src.off hle
    set s₁ := aesCcmMacBlock (.ofCipher aes) s (s.mem src.obj) src.off n with hs₁
    have hctr := (sdpAesCryptCtrLoop_done aes n s₁ .invalidArgument hbuf.ctrArgs).2
    rw [cipher_congr aes hmac.key] at hctr
    have huser : s₁.mem .user = s.mem .user := hmac.frame _ (by decide) (by decide)
    have hbuf2 : blockAt s₁.mem ⟨.buf2, 0⟩ = blockAt s.mem ⟨.buf2, 0⟩ := by
      rw [blockAt, hmac.frame _ (by decide) (by decide)]
      rfl
    refine ⟨fun i hi => ?_, ?_, ?_, fun k hk => ?_, hctr.key.trans hmac.key⟩
    · have hi' := hctr.stream i hi
      rw [hbuf.dst_user, hbuf.src_user, huser, hbuf2] at hi'
      exact hi'
    · have hplain : Ccm.padBlocks (s.mem.load src n) = [Block.pad (s.mem.load src n)] :=
        Ccm.padBlocks_of_le (by rwa [Mem.length_load]) (by rwa [Mem.length_load])
      simp only [ccmPlain]
      rw [hplain]
      exact (hctr.blockAt_buf1 hbuf.dst_user).trans hmac.mac
    · exact hctr.counter.trans (congrArg _ hbuf2)
    · rw [← huser]
      exact hctr.user_frame hk
  | decrypt =>
    have hctr := (sdpAesCryptCtrLoop_done aes n s .invalidArgument hbuf.ctrArgs).2
    set s₁ := (sdpAesCryptCtrLoop (.ofCipher aes) s ⟨.buf2, 0⟩ src dst n .invalidArgument).2
      with hs₁
    have hmac := aesCcmMacBlock_done aes s₁ (s₁.mem dst.obj) dst.off hle
    rw [cipher_congr aes hctr.key] at hmac
    set s₂ := aesCcmMacBlock (.ofCipher aes) s₁ (s₁.mem dst.obj) dst.off n with hs₂
    have hstep : ccmPayloadStep (.ofCipher aes) .decrypt s src dst n = s₂ := rfl
    have huser : s₂.mem .user = s₁.mem .user := hmac.frame _ (by decide) (by decide)
    rw [hstep]
    refine ⟨fun i hi => ?_, ?_, ?_, fun k hk => ?_, hmac.key.trans hctr.key⟩
    · have hi' := hctr.stream i hi
      rw [hbuf.dst_user, hbuf.src_user] at hi'
      rw [huser]
      exact hi'
    · have hload : s₂.mem.load dst n = s₁.mem.load dst n := by
        refine Mem.load_congr fun i _ => ?_
        rw [hbuf.dst_user, huser]
      have hplain : Ccm.padBlocks (s₁.mem.load dst n) = [Block.pad (s₁.mem.load dst n)] :=
        Ccm.padBlocks_of_le (by rwa [Mem.length_load]) (by rwa [Mem.length_load])
      simp only [ccmPlain]
      rw [hload, hplain, ← hctr.blockAt_buf1 hbuf.dst_user]
      exact hmac.mac
    · rw [blockAt, hmac.frame _ (by decide) (by decide)]
      exact hctr.counter
    · rw [huser]
      exact hctr.user_frame hk

/-- The payload loop runs to its end, whatever the length. -/
theorem aesCcmPayloadLoop_done (op : SdpAesOp) : ∀ (n : Nat) (s : SdpState Unit)
    (src dst : Ptr SdpObj), CcmBuffers src dst n →
    CcmPayloadDone op (s.cipher aes) src dst n s
      (aesCcmPayloadLoop (.ofCipher aes) op s src dst n) := by
  intro n
  induction n using Nat.strongRecOn with
  | ind n ih =>
    intro s src dst hbuf
    rcases Nat.eq_zero_or_pos n with rfl | hpos
    · rw [aesCcmPayloadLoop_zero]
      exact CcmPayloadDone.nil _ _ _ _ _
    · rw [aesCcmPayloadLoop_pos _ _ _ _ _ hpos]
      rcases Nat.lt_or_ge n 16 with hlt | hge
      · -- the last, partial block
        rw [Nat.min_eq_left (Nat.le_of_lt hlt), Nat.sub_self, aesCcmPayloadLoop_zero]
        exact ccmPayloadStep_done aes op s hbuf hpos (Nat.le_of_lt hlt)
      · obtain ⟨m, rfl⟩ := Nat.exists_eq_add_of_le hge
        have hfirst : CcmBuffers src dst 16 :=
          ⟨hbuf.src_user, hbuf.dst_user, hbuf.same.imp id fun hap ho => by
            have := hap ho
            omega⟩
        have hstep := ccmPayloadStep_done aes op s hfirst (by decide) (Nat.le_refl 16)
        have hdrop := hbuf.drop (Nat.le_add_right 16 m)
        rw [Nat.add_sub_cancel_left] at hdrop
        have hrest := ih m (by omega) (ccmPayloadStep (.ofCipher aes) op s src dst 16) _ _ hdrop
        rw [cipher_congr aes hstep.key] at hrest
        rw [Nat.min_eq_right hge, Nat.add_sub_cancel_left]
        exact CcmPayloadDone.cons hbuf hstep hrest

end OfCipher

/-! ## The whole call -/

/-- The lengths `aes_ccm_auth_crypt` goes on with. -/
structure CcmArgs.Accepted (c : CcmArgs) : Prop where
  tag_even : c.tagLen % 2 = 0
  tag_ge : 4 ≤ c.tagLen
  tag_le : c.tagLen ≤ 16
  iv_ge : 7 ≤ c.ivLen
  iv_le : c.ivLen ≤ 13

/-- What the checks let pass are the lengths of the standard, as far as the driver looks. -/
theorem CcmArgs.rejected_eq_false_iff (c : CcmArgs) : c.rejected = false ↔ c.Accepted := by
  unfold CcmArgs.rejected
  rw [Bool.or_eq_false_iff, decide_eq_false_iff_not, decide_eq_false_iff_not]
  constructor
  · intro h
    exact ⟨by omega, by omega, by omega, by omega, by omega⟩
  · rintro ⟨h1, h2, h3, h4, h5⟩
    omega

/-- A call whose lengths are accepted and fit a `uint32_t`, on buffers of the
caller that coincide or are disjoint. -/
structure CcmCall extends CcmArgs where
  accepted : toCcmArgs.Accepted
  inputLen_lt : inputLen < 2 ^ 32
  aadLen_lt : aadLen < 2 ^ 32
  buffers : CcmBuffers input output inputLen

/-- The nonce, the associated data and the payload of a call. -/
def CcmArgs.nonce (c : CcmArgs) : List UInt8 := c.iv.toList 0 c.ivLen
def CcmArgs.adata (c : CcmArgs) : List UInt8 := c.aad.toList 0 c.aadLen
def CcmArgs.payload (c : CcmArgs) (s : SdpState Unit) : List UInt8 :=
  s.mem.load c.input c.inputLen

/-- The CBC-MAC the code computes over a plaintext. -/
def ccmMac (E : Block → Block) (c : CcmArgs) (plain : List UInt8) : Block :=
  Ccm.macFrom E (E (ccmB0 c.iv c.ivLen c.tagLen c.aadLen c.inputLen))
    (ccmAadBlocks c.aad c.aadLen ++ Ccm.padBlocks plain)

/-- The tag the code computes over a plaintext. -/
def ccmTag (E : Block → Block) (c : CcmArgs) (plain : List UInt8) : List UInt8 :=
  (Block.xor (ccmMac E c plain) (E (ccmCtr0 c.iv c.ivLen))).toList.take c.tagLen

/-- What an accepted call does. -/
structure CcmDone (op : SdpAesOp) (E : Block → Block) (c : CcmArgs) (s : SdpState Unit)
    (r : CcmResult Unit) : Prop where
  status : r.status = .success
  stream : ∀ i < c.inputLen, r.state.mem .user (c.output.off + i) =
    s.mem .user (c.input.off + i) ^^^
      (E (Block.incBn^[i / 16 + 1] (ccmCtr0 c.iv c.ivLen))).toBuf (i % 16)
  tag : r.tag.toList 0 c.tagLen = ccmTag E c (ccmPlain op s r.state c.input c.output c.inputLen)
  frame : ∀ k, k < c.output.off ∨ c.output.off + c.inputLen ≤ k →
    r.state.mem .user k = s.mem .user k
  key : r.state.key = s.key

/-- `aes_ccm_auth_crypt` up to the payload loop. -/
def ccmHeader {σ : Type} (hw : SdpHw σ) (s : SdpState σ) (c : CcmArgs) : SdpState σ :=
  let s := s.modify .buf0 fun b => aesCcmFormatB0 b c.iv c.ivLen c.tagLen c.aadLen c.inputLen
  let s := (sdpAesCryptEcb hw s .encrypt ⟨.buf0, 0⟩ ⟨.buf1, 0⟩).2
  let s := aesCcmAad hw s c.aad c.aadLen
  s.modify .buf2 fun b => sdpIncrementBn (aesCcmFormatCtr0 b c.iv c.ivLen) 0 16

/-- `aes_ccm_auth_crypt` from the payload loop on. -/
def ccmFinish {σ : Type} (hw : SdpHw σ) (s : SdpState σ) (c : CcmArgs) (tag : Buf) : CcmResult σ :=
  let s := s.modify .buf2 fun b => aesCcmFormatCtr0 b c.iv c.ivLen
  let s := (sdpAesCryptCtr hw s ⟨.buf2, 0⟩ ⟨.buf1, 0⟩ ⟨.buf0, 0⟩ 16).2
  let tag := tag.copy 0 (s.mem .buf0) c.tagLen
  let s := s.modify .buf0 fun b => b.fill 0 0 16
  let s := s.modify .buf1 fun b => b.fill 0 0 16
  let s := s.modify .buf2 fun b => b.fill 0 0 16
  ⟨.success, s, tag⟩

/-- A call that is accepted is its header, its payload and its tag. -/
theorem aesCcmAuthCrypt_accepted {σ : Type} (hw : SdpHw σ) (op : SdpAesOp) (s : SdpState σ)
    {c : CcmArgs} (tag : Buf) (h : c.rejected = false) :
    aesCcmAuthCrypt hw op s c tag =
      ccmFinish hw
        (aesCcmPayloadLoop hw op (ccmHeader hw s c) c.input c.output c.inputLen) c tag := by
  unfold aesCcmAuthCrypt
  rw [h]
  rfl

section OfCipher

variable (aes : SdpAesKey → SdpAesOp → Block → Block)

/-- Before the payload: `Y` covers `B0` and the associated data, the counter is
at `Ctr1`, and the caller's memory is untouched. -/
theorem ccmHeader_done (s : SdpState Unit) {c : CcmArgs} (hacc : c.Accepted)
    (hlen : c.inputLen < 2 ^ 32) :
    blockAt (ccmHeader (.ofCipher aes) s c).mem ⟨.buf1, 0⟩ =
        Ccm.macFrom (s.cipher aes)
          (s.cipher aes (ccmB0 c.iv c.ivLen c.tagLen c.aadLen c.inputLen))
          (ccmAadBlocks c.aad c.aadLen) ∧
      blockAt (ccmHeader (.ofCipher aes) s c).mem ⟨.buf2, 0⟩ = (ccmCtr0 c.iv c.ivLen).incBn ∧
      (ccmHeader (.ofCipher aes) s c).mem .user = s.mem .user ∧
      (ccmHeader (.ofCipher aes) s c).key = s.key := by
  set f := fun b => aesCcmFormatB0 b c.iv c.ivLen c.tagLen c.aadLen c.inputLen with hf
  have hb0 : blockAt (s.modify .buf0 f).mem ⟨.buf0, 0⟩ =
      ccmB0 c.iv c.ivLen c.tagLen c.aadLen c.inputLen := by
    rw [blockAt, SdpState.modify_mem, Mem.modify_self]
    exact ofBuf_aesCcmFormatB0 _ _ _ _ ⟨hacc.iv_ge, hacc.iv_le⟩ hlen
  have hecb := sdpAesCryptEcb_ofCipher aes (s.modify .buf0 f) ⟨.buf0, 0⟩ ⟨.buf1, 0⟩
  rw [hb0, cipher_congr aes (SdpState.modify_key s .buf0 f)] at hecb
  set s₂ := (sdpAesCryptEcb (.ofCipher aes) (s.modify .buf0 f) .encrypt ⟨.buf0, 0⟩ ⟨.buf1, 0⟩).2
    with hs₂
  have hkey : s₂.key = s.key := by
    rw [hs₂, hecb]
    rfl
  have hmem : s₂.mem = storeBlock (s.modify .buf0 f).mem ⟨.buf1, 0⟩
      (s.cipher aes (ccmB0 c.iv c.ivLen c.tagLen c.aadLen c.inputLen)) := by
    rw [hs₂, hecb]
  have haad := aesCcmAad_done aes s₂ c.aad c.aadLen
  rw [cipher_congr aes hkey] at haad
  have hheader : ccmHeader (.ofCipher aes) s c =
      (aesCcmAad (.ofCipher aes) s₂ c.aad c.aadLen).modify .buf2 fun b =>
        sdpIncrementBn (aesCcmFormatCtr0 b c.iv c.ivLen) 0 16 := rfl
  refine ⟨?_, ?_, ?_, ?_⟩
  · rw [hheader, blockAt, SdpState.modify_mem, Mem.modify_of_ne _ _ (by decide)]
    refine haad.mac.trans ?_
    rw [hmem, blockAt_storeBlock]
  · rw [hheader, blockAt, SdpState.modify_mem, Mem.modify_self,
      ← ofBuf_aesCcmFormatCtr0 _ c.iv hacc.iv_le]
    exact Block.ofBuf_sdpIncrementBn _ 0
  · rw [hheader, SdpState.modify_mem, Mem.modify_of_ne _ _ (by decide),
      haad.frame _ (by decide) (by decide), hmem, storeBlock_of_ne _ _ (by decide),
      SdpState.modify_mem, Mem.modify_of_ne _ _ (by decide)]
  · rw [hheader, SdpState.modify_key, haad.key, hkey]

/-- After the payload: the tag is `Y` under `E(Ctr0)`. -/
theorem ccmFinish_done (s : SdpState Unit) {c : CcmArgs} (tag : Buf) (hacc : c.Accepted) :
    (ccmFinish (.ofCipher aes) s c tag).status = .success ∧
      (ccmFinish (.ofCipher aes) s c tag).tag.toList 0 c.tagLen =
        (Block.xor (blockAt s.mem ⟨.buf1, 0⟩)
          (s.cipher aes (ccmCtr0 c.iv c.ivLen))).toList.take c.tagLen ∧
      (ccmFinish (.ofCipher aes) s c tag).state.mem .user = s.mem .user ∧
      (ccmFinish (.ofCipher aes) s c tag).state.key = s.key := by
  set s₁ := s.modify .buf2 fun b => aesCcmFormatCtr0 b c.iv c.ivLen with hs₁
  have hargs : CtrArgs ⟨.buf2, 0⟩ ⟨.buf1, 0⟩ ⟨.buf0, 0⟩ 16 :=
    { nonce_ne := by decide
      input_ne := by decide
      output_ne := by decide
      same := Or.inr fun ho => absurd ho (by decide)
      nonce_input := fun ho => absurd ho (by decide)
      nonce_output := fun ho => absurd ho (by decide) }
  have hctr := (sdpAesCryptCtrLoop_done aes 16 s₁ .invalidArgument hargs).2
  rw [cipher_congr aes (SdpState.modify_key s .buf2 _)] at hctr
  have hc0 : blockAt s₁.mem ⟨.buf2, 0⟩ = ccmCtr0 c.iv c.ivLen := by
    rw [blockAt, hs₁, SdpState.modify_mem, Mem.modify_self]
    exact ofBuf_aesCcmFormatCtr0 _ c.iv hacc.iv_le
  have hother : ∀ {o : SdpObj}, o ≠ .buf2 → s₁.mem o = s.mem o := by
    intro o ho
    rw [hs₁, SdpState.modify_mem, Mem.modify_of_ne _ _ ho]
  set s₂ := (sdpAesCryptCtrLoop (.ofCipher aes) s₁ ⟨.buf2, 0⟩ ⟨.buf1, 0⟩ ⟨.buf0, 0⟩ 16
    .invalidArgument).2 with hs₂
  refine ⟨rfl, ?_, ?_, ?_⟩
  · have hle := hacc.tag_le
    have htag : (ccmFinish (.ofCipher aes) s c tag).tag = tag.copy 0 (s₂.mem .buf0) c.tagLen := rfl
    have hfull : (Block.xor (blockAt s.mem ⟨.buf1, 0⟩)
        (s.cipher aes (ccmCtr0 c.iv c.ivLen))).toList.take c.tagLen =
        (Block.xor (blockAt s.mem ⟨.buf1, 0⟩)
          (s.cipher aes (ccmCtr0 c.iv c.ivLen))).toBuf.toList 0 c.tagLen := by
      rw [Block.toList, show 16 = c.tagLen + (16 - c.tagLen) by omega, Buf.toList_add,
        List.take_left' (Buf.length_toList _ _ _)]
    rw [htag, hfull]
    refine Buf.toList_congr fun i hi => ?_
    have hi16 : i < 16 := by omega
    have hstream := hctr.stream i hi16
    simp only [Nat.zero_add] at hstream
    rw [hc0, Nat.div_eq_of_lt hi16, Nat.mod_eq_of_lt hi16, Function.iterate_zero_apply,
      hother (by decide)] at hstream
    rw [Nat.zero_add, Buf.copy, if_pos ⟨Nat.zero_le i, by omega⟩, Nat.sub_zero, hstream,
      Block.toBuf_apply _ hi16, Block.toBuf_apply _ hi16]
    simp [Block.xor, blockAt, Block.ofBuf]
  · have hrest : s₂.mem .user = s₁.mem .user := by
      funext k
      exact hctr.frame _ _ ⟨by decide, fun hc => absurd hc.1 (by decide),
        fun hc => absurd hc.1 (by decide)⟩
    have hwipe : (ccmFinish (.ofCipher aes) s c tag).state = ((s₂.modify .buf0 fun b =>
        b.fill 0 0 16).modify .buf1 fun b => b.fill 0 0 16).modify .buf2 fun b =>
          b.fill 0 0 16 := rfl
    rw [hwipe]
    simp only [SdpState.modify_mem]
    rw [Mem.modify_of_ne _ _ (by decide), Mem.modify_of_ne _ _ (by decide),
      Mem.modify_of_ne _ _ (by decide), hrest, hother (by decide)]
  · exact hctr.key.trans (SdpState.modify_key s .buf2 _)

/-- An accepted call of any lengths does what `CcmDone` says. -/
theorem aesCcmAuthCrypt_done (op : SdpAesOp) (s : SdpState Unit) (c : CcmCall) (tag : Buf) :
    CcmDone op (s.cipher aes) c.toCcmArgs s
      (aesCcmAuthCrypt (.ofCipher aes) op s c.toCcmArgs tag) := by
  rw [aesCcmAuthCrypt_accepted _ _ _ _ (c.rejected_eq_false_iff.mpr c.accepted)]
  obtain ⟨hy, hctr, huser, hkey⟩ := ccmHeader_done aes s c.accepted c.inputLen_lt
  set s₁ := ccmHeader (.ofCipher aes) s c.toCcmArgs with hs₁
  have hpay := aesCcmPayloadLoop_done aes op c.inputLen s₁ c.input c.output c.buffers
  rw [cipher_congr aes hkey] at hpay
  set s₂ := aesCcmPayloadLoop (.ofCipher aes) op s₁ c.input c.output c.inputLen with hs₂
  obtain ⟨hstatus, htag, huser', hkey'⟩ := ccmFinish_done aes s₂ tag c.accepted
  have hkey₂ : s₂.key = s.key := hpay.key.trans hkey
  refine ⟨hstatus, fun i hi => ?_, ?_, fun k hk => ?_, hkey'.trans hkey₂⟩
  · rw [huser', hpay.stream i hi, huser, hctr, ← Function.iterate_succ_apply]
  · have hplain : ccmPlain op s
        (ccmFinish (.ofCipher aes) s₂ c.toCcmArgs tag).state c.input c.output c.inputLen =
        ccmPlain op s₁ s₂ c.input c.output c.inputLen := by
      cases op with
      | encrypt => exact Mem.load_congr fun i _ => by rw [c.buffers.src_user, huser]
      | decrypt => exact Mem.load_congr fun i _ => by rw [c.buffers.dst_user, huser']
    rw [htag, cipher_congr aes hkey₂, hpay.mac, hy, hplain, ← Ccm.macFrom_append]
    rfl
  · rw [huser', hpay.frame k hk, huser]

/-- `sdp_aes_ccm_generate_encrypt` over the engine of a block cipher. -/
def CcmCall.generate (c : CcmCall) (s : SdpState Unit) (tag : Buf) : CcmResult Unit :=
  sdpAesCcmGenerateEncrypt (.ofCipher aes) s c.toCcmArgs tag

/-- `sdp_aes_ccm_decrypt_verify` over the engine of a block cipher. -/
def CcmCall.verify (c : CcmCall) (s : SdpState Unit) (tag : Buf) : HpmStat × SdpState Unit :=
  sdpAesCcmDecryptVerify (.ofCipher aes) s c.toCcmArgs tag

/-- What a call of the encryption has done, when it returns. -/
theorem CcmCall.generate_done (c : CcmCall) (s : SdpState Unit) (tag : Buf) :
    CcmDone .encrypt (s.cipher aes) c.toCcmArgs s (c.generate aes s tag) :=
  aesCcmAuthCrypt_done aes .encrypt s c tag

end OfCipher

end HpmSdk.Sdp
