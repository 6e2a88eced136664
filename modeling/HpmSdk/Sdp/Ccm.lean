import HpmSdk.Sdp.Ctr

set_option autoImplicit false

/-!
# SDP: the CCM driver (`aes_ccm_auth_crypt` and its callers)

The functions of `hpm_sdp_drv.c` as they stand.  `b`, `y` and `ctr` are the
context's `buf0`, `buf1` and `buf2`.  The nonce, the associated data and the
tag to verify are `const` buffers that the call does not write, so they are
plain byte functions; input and output are pointers, which may coincide.  The
statuses of the hardware operations are dropped, as in the source.
-/

namespace HpmSdk.Sdp

open HpmSdk.Foundation

/-! ## Encodings -/

/-- `dst[len - 1 - i]` for `dst` at offset `off`: the index is a `uint32_t`, and
so is the address. -/
def beIndex (off len i : Nat) : Nat := (off + (len + 2 ^ 32 - 1 - i) % 2 ^ 32) % 2 ^ 32

/-- The `while (num > 0)` loop of `uint32_to_be`.  Nothing stops it after `len`
bytes. -/
def uint32ToBeLoop (dst : Buf) (off len num i : Nat) : Buf :=
  if 0 < num then
    uint32ToBeLoop (dst.set (beIndex off len i) (UInt8.ofNat (num &&& 0xFF))) off len (num >>> 8)
      (i + 1)
  else dst
termination_by num
decreasing_by rw [Nat.shiftRight_eq_div_pow]; exact Nat.div_lt_self (by omega) (by decide)

/-- `uint32_to_be(&dst[off], len, num)`. -/
def uint32ToBe (dst : Buf) (off len num : Nat) : Buf :=
  uint32ToBeLoop (dst.fill off 0 len) off len num 0

/-- `aes_ccm_format_b0`. -/
def aesCcmFormatB0 (block iv : Buf) (ivLen macLen aadLen inputLen : Nat) : Buf :=
  let q : UInt8 := 15 - UInt8.ofNat ivLen
  let flags : UInt8 := 0
  let flags := flags ||| (if 0 < aadLen then (1 : UInt8) <<< 6 else 0)
  let flags := flags ||| UInt8.ofNat (((macLen - 2) / 2) <<< 3)
  let flags := flags ||| (q - 1)
  let block := block.set 0 flags
  let block := block.copy 1 iv ivLen
  uint32ToBe block (1 + ivLen) q.toNat inputLen

/-- `aes_ccm_format_ctr0`. -/
def aesCcmFormatCtr0 (ctr iv : Buf) (ivLen : Nat) : Buf :=
  let q : UInt8 := 15 - UInt8.ofNat ivLen
  let ctr := ctr.fill 0 0 16
  let ctr := ctr.set 0 (ctr 0 ||| (q - 1))
  ctr.copy 1 iv ivLen

/-- The block `B1` in `b`: the length prefix and the first bytes of the
associated data, and how many of them it took.  The long form encodes
`calc_len`, which is still 0, and copies over the place of the length. -/
def aesCcmFormatB1 (b aad : Buf) (aadLen : Nat) : Buf × Nat :=
  let calcLen := 0
  let b := b.fill 0 0 16
  if aadLen < 2 ^ 16 - 2 ^ 8 then
    let b := uint32ToBe b 0 2 aadLen
    let calcLen := min aadLen 14
    (b.copy 2 aad calcLen, calcLen)
  else
    let b := b.set 0 0xFF
    let b := b.set 1 0xFE
    let b := uint32ToBe b 6 4 calcLen
    let calcLen := 10
    (b.copy 2 aad calcLen, calcLen)

/-- `memcpy(b, src, calc_len)`, the rest of the block zeroed. -/
def aesCcmLoadBlock (b src : Buf) (off calcLen : Nat) : Buf :=
  let b := b.copy 0 (src.drop off) calcLen
  if calcLen < 16 then b.fill calcLen 0 (16 - calcLen) else b

/-! ## The call -/

/-- What the two entry points are given. -/
structure CcmArgs where
  inputLen : Nat
  iv : Buf
  ivLen : Nat
  aad : Buf
  aadLen : Nat
  input : Ptr SdpObj
  output : Ptr SdpObj
  tagLen : Nat

/-- What `aes_ccm_auth_crypt` leaves behind: its status, the state and the
contents of the `tag` buffer. -/
structure CcmResult (σ : Type) where
  status : HpmStat
  state : SdpState σ
  tag : Buf

variable {σ : Type}

/-- Replace the contents of one buffer of the context. -/
def SdpState.modify (s : SdpState σ) (o : SdpObj) (f : Buf → Buf) : SdpState σ :=
  { s with mem := s.mem.modify o f }

@[simp] theorem SdpState.modify_mem (s : SdpState σ) (o : SdpObj) (f : Buf → Buf) :
    (s.modify o f).mem = s.mem.modify o f := rfl

@[simp] theorem SdpState.modify_key (s : SdpState σ) (o : SdpObj) (f : Buf → Buf) :
    (s.modify o f).key = s.key := rfl

/-- `Y(i) = CIPHk(B(i) ^ Y(i-1))`, the status of the operation dropped. -/
def aesCcmMac (hw : SdpHw σ) (s : SdpState σ) : SdpState σ :=
  (sdpAesCryptCbc hw s .encrypt ⟨.buf1, 0⟩ ⟨.buf0, 0⟩ ⟨.buf1, 0⟩).2

/-- Load a block into `b` and authenticate it. -/
def aesCcmMacBlock (hw : SdpHw σ) (s : SdpState σ) (src : Buf) (off calcLen : Nat) : SdpState σ :=
  aesCcmMac hw (s.modify .buf0 fun b => aesCcmLoadBlock b src off calcLen)

/-- The `while (remaining_len > 0U)` loop over the associated data. -/
def aesCcmAadLoop (hw : SdpHw σ) (s : SdpState σ) (aad : Buf) (off remainingLen : Nat) :
    SdpState σ :=
  if 0 < remainingLen then
    let calcLen := min remainingLen 16
    aesCcmAadLoop hw (aesCcmMacBlock hw s aad off calcLen) aad (off + calcLen)
      (remainingLen - calcLen)
  else s
termination_by remainingLen
decreasing_by omega

/-- The `if (aad_len > 0U)` part. -/
def aesCcmAad (hw : SdpHw σ) (s : SdpState σ) (aad : Buf) (aadLen : Nat) : SdpState σ :=
  if 0 < aadLen then
    let (b, calcLen) := aesCcmFormatB1 (s.mem .buf0) aad aadLen
    let s := s.modify .buf0 fun _ => b
    aesCcmAadLoop hw (aesCcmMac hw s) aad calcLen (aadLen - calcLen)
  else s

/-- The `while (remaining_len > 0U)` loop over the payload: encryption
authenticates a block before it goes through counter mode, decryption after. -/
def aesCcmPayloadLoop (hw : SdpHw σ) (op : SdpAesOp) (s : SdpState σ) (src dst : Ptr SdpObj)
    (remainingLen : Nat) : SdpState σ :=
  if 0 < remainingLen then
    let calcLen := min remainingLen 16
    let s := if op = .encrypt then aesCcmMacBlock hw s (s.mem src.obj) src.off calcLen else s
    let s := (sdpAesCryptCtr hw s ⟨.buf2, 0⟩ src dst calcLen).2
    let s := if op = .decrypt then aesCcmMacBlock hw s (s.mem dst.obj) dst.off calcLen else s
    aesCcmPayloadLoop hw op s (src.add calcLen) (dst.add calcLen) (remainingLen - calcLen)
  else s
termination_by remainingLen
decreasing_by omega

/-- The argument checks of `aes_ccm_auth_crypt` on pointers that are not `NULL`. -/
def CcmArgs.rejected (c : CcmArgs) : Bool :=
  decide (c.tagLen % 2 ≠ 0 ∨ c.tagLen / 2 < 2 ∨ 8 < c.tagLen / 2) ||
    decide (c.ivLen < 7 ∨ 13 < c.ivLen)

/-- `aes_ccm_auth_crypt`.  The block counter `i` of the source is never read. -/
def aesCcmAuthCrypt (hw : SdpHw σ) (op : SdpAesOp) (s : SdpState σ) (c : CcmArgs) (tag : Buf) :
    CcmResult σ :=
  if c.rejected then ⟨.invalidArgument, s, tag⟩
  else
    -- format B0, calculate Y0
    let s := s.modify .buf0 fun b => aesCcmFormatB0 b c.iv c.ivLen c.tagLen c.aadLen c.inputLen
    let s := (sdpAesCryptEcb hw s .encrypt ⟨.buf0, 0⟩ ⟨.buf1, 0⟩).2
    let s := aesCcmAad hw s c.aad c.aadLen
    -- encryption and decryption start from CTR1
    let s := s.modify .buf2 fun b => sdpIncrementBn (aesCcmFormatCtr0 b c.iv c.ivLen) 0 16
    let s := aesCcmPayloadLoop hw op s c.input c.output c.inputLen
    -- mask the MAC with CTR0
    let s := s.modify .buf2 fun b => aesCcmFormatCtr0 b c.iv c.ivLen
    let s := (sdpAesCryptCtr hw s ⟨.buf2, 0⟩ ⟨.buf1, 0⟩ ⟨.buf0, 0⟩ 16).2
    let tag := tag.copy 0 (s.mem .buf0) c.tagLen
    -- wipe out temporary data
    let s := s.modify .buf0 fun b => b.fill 0 0 16
    let s := s.modify .buf1 fun b => b.fill 0 0 16
    let s := s.modify .buf2 fun b => b.fill 0 0 16
    ⟨.success, s, tag⟩

/-- `sdp_aes_ccm_generate_encrypt`. -/
def sdpAesCcmGenerateEncrypt (hw : SdpHw σ) (s : SdpState σ) (c : CcmArgs) (tag : Buf) :
    CcmResult σ :=
  aesCcmAuthCrypt hw .encrypt s c tag

/-- The `while (len-- > 0U)` loop of `sdp_constant_time_cmp` from byte `i` on. -/
def sdpConstantTimeCmpLoop (dst src : Buf) (i : Nat) (result : UInt8) : Nat → UInt8
  | 0 => result
  | len + 1 => sdpConstantTimeCmpLoop dst src (i + 1) (result ||| (dst i ^^^ src i)) len

/-- `sdp_constant_time_cmp`. -/
def sdpConstantTimeCmp (dst src : Buf) (len : Nat) : UInt8 :=
  sdpConstantTimeCmpLoop dst src 0 0 len

/-- `sdp_aes_ccm_decrypt_verify`.  What the local `calc_mac` holds before the
call is never read. -/
def sdpAesCcmDecryptVerify (hw : SdpHw σ) (s : SdpState σ) (c : CcmArgs) (tag : Buf) :
    HpmStat × SdpState σ :=
  let calcMac : Buf := fun _ => 0
  let r := aesCcmAuthCrypt hw .decrypt s c calcMac
  if r.status ≠ .success then (r.status, r.state)
  else if sdpConstantTimeCmp r.tag tag c.tagLen ≠ 0 then (.sdpErrorInvalidMac, r.state)
  else (.success, r.state)

end HpmSdk.Sdp
