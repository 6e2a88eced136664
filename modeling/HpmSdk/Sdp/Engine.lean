import HpmSdk.Common
import HpmSdk.Foundation.Memory

set_option autoImplicit false

/-!
# SDP: the security engine and its single-packet AES operations

The driver starts the engine on one packet and polls `STA` until the packet is
done (`sdp_wait_done`).  What the engine does is not in the repository, so the
model takes it as a parameter `SdpHw`: a state, and for each started packet the
last `STA` reading and the sixteen bytes it leaves at the destination.  Nothing
is assumed about an engine in general; `SdpHw.ofCipher` is the engine that
always succeeds and computes ECB and CBC of a block cipher.
-/

namespace HpmSdk.Sdp

open HpmSdk.Foundation

/-- A 16-byte AES block. -/
abbrev Block : Type := Fin 16 → UInt8

namespace Block

/-- Byte-wise exclusive or. -/
def xor (a b : Block) : Block := fun i => a i ^^^ b i

/-- The block at the start of a buffer. -/
def ofBuf (b : Buf) (off : Nat) : Block := fun i => b (off + i)

/-- The buffer that holds a block at offset 0. -/
def toBuf (a : Block) : Buf := fun i => if h : i < 16 then a ⟨i, h⟩ else 0

/-- The first 16 bytes of a list, padded with zeros. -/
def pad (l : List UInt8) : Block := ofBuf (Buf.ofList l) 0

/-- The bytes of a block. -/
def toList (a : Block) : List UInt8 := a.toBuf.toList 0 16

/-- A block depends on its sixteen bytes only. -/
theorem ofBuf_congr {b c : Buf} {off off' : Nat} (h : ∀ i < 16, b (off + i) = c (off' + i)) :
    ofBuf b off = ofBuf c off' := by
  funext i
  exact h i i.isLt

@[simp] theorem length_toList (a : Block) : a.toList.length = 16 := by simp [toList]

theorem toBuf_apply (a : Block) {i : Nat} (h : i < 16) : a.toBuf i = a ⟨i, h⟩ := by
  simp [toBuf, h]

end Block

/-- `sdp_aes_op_t`. -/
inductive SdpAesOp where
  | encrypt
  | decrypt
  deriving DecidableEq, Repr, Inhabited

/-- `sdp_aes_key_bits_t`. -/
inductive SdpAesKeyBits where
  | keybits128
  | keybits256
  deriving DecidableEq, Repr, Inhabited

/-- The fields of `MODCTRL` the AES operations program. -/
structure SdpModctrl where
  /-- `AESALG`: 256-bit key. -/
  aesalg : Bool
  /-- `AESKS`: the key slot, a six-bit field. -/
  aesks : BitVec 6
  /-- `AESDIR`. -/
  aesdir : SdpAesOp
  /-- `ASEMOD`: CBC instead of ECB. -/
  asemod : Bool
  deriving DecidableEq, Repr

/-- What the engine leaves behind when a packet is done. -/
structure SdpDone (σ : Type) where
  state : σ
  /-- The reading of `STA` that ended the poll. -/
  sta : BitVec 32
  /-- The bytes at the destination address. -/
  dst : Block

/-- A security engine: its behaviour on one 16-byte packet, given `MODCTRL`,
`CIPHIV` and the source bytes. -/
structure SdpHw (σ : Type) where
  exec : σ → SdpModctrl → Block → Block → SdpDone σ

/-- The objects the AES functions work on: the caller's memory and the four
buffers of `sdp_aes_ctx_t`. -/
inductive SdpObj where
  | user
  | buf0
  | buf1
  | buf2
  | buf3
  deriving DecidableEq, Repr

/-- The state an AES call acts on: `sdp_aes_ctx_t`, memory and the engine. -/
structure SdpState (σ : Type) where
  hw : σ
  keyIdx : BitVec 8
  keyBits : SdpAesKeyBits
  mem : Mem SdpObj
  /-- The status of every packet started so far, oldest first. -/
  issued : List HpmStat

/-! ## Waiting for a packet -/

def SDP_STA_ERRSET_MASK : BitVec 32 := 0x20
def SDP_STA_ERRPKT_MASK : BitVec 32 := 0x10
def SDP_STA_ERRSRC_MASK : BitVec 32 := 0x8
def SDP_STA_ERRDST_MASK : BitVec 32 := 0x4
def SDP_STA_ERRHAS_MASK : BitVec 32 := 0x2
def SDP_STA_ERRCHAIN_MASK : BitVec 32 := 0x1
def SDP_STA_PKTCNT0_MASK : BitVec 32 := 0x20000

/-- `sdp_wait_done`: every reading overwrites the status of the one before, so
only the reading with `PKTCNT0` set, which ends the poll, counts. -/
def sdpWaitDone (sta : BitVec 32) : HpmStat :=
  if sta &&& SDP_STA_ERRSET_MASK ≠ 0 then .sdpErrorSetup
  else if sta &&& SDP_STA_ERRPKT_MASK ≠ 0 then .sdpErrorPacket
  else if sta &&& SDP_STA_ERRSRC_MASK ≠ 0 then .sdpErrorSrc
  else if sta &&& SDP_STA_ERRDST_MASK ≠ 0 then .sdpErrorDst
  else if sta &&& SDP_STA_ERRHAS_MASK ≠ 0 then .sdpErrorHash
  else if sta &&& SDP_STA_ERRCHAIN_MASK ≠ 0 then .sdpErrorChain
  else .success

theorem sdpWaitDone_pktcnt0 : sdpWaitDone SDP_STA_PKTCNT0_MASK = .success := by decide

/-! ## One packet -/

/-- The sixteen bytes at a pointer. -/
def blockAt (m : Mem SdpObj) (p : Ptr SdpObj) : Block := Block.ofBuf (m p.obj) p.off

/-- Store sixteen bytes at a pointer. -/
def storeBlock (m : Mem SdpObj) (p : Ptr SdpObj) (b : Block) : Mem SdpObj :=
  m.modify p.obj fun buf => buf.copy p.off b.toBuf 16

@[simp] theorem blockAt_storeBlock (m : Mem SdpObj) (p : Ptr SdpObj) (b : Block) :
    blockAt (storeBlock m p b) p = b := by
  funext i
  have hi : p.off ≤ p.off + i.val ∧ p.off + i.val < p.off + 16 := by omega
  simp [blockAt, storeBlock, Block.ofBuf, Buf.copy, hi, Block.toBuf]

/-- A store of a block, byte by byte. -/
theorem storeBlock_apply (m : Mem SdpObj) (p : Ptr SdpObj) (b : Block) (o : SdpObj) (k : Nat) :
    storeBlock m p b o k =
      if o = p.obj ∧ p.off ≤ k ∧ k < p.off + 16 then b.toBuf (k - p.off) else m o k := by
  by_cases ho : o = p.obj
  · subst ho
    simp [storeBlock, Buf.copy]
  · simp [storeBlock, Mem.modify_of_ne m _ ho, ho]

/-- A store to one object leaves the others. -/
theorem storeBlock_of_ne (m : Mem SdpObj) {p : Ptr SdpObj} (b : Block) {o : SdpObj}
    (h : o ≠ p.obj) : storeBlock m p b o = m o :=
  Mem.modify_of_ne m _ h

/-- Store sixteen bytes and keep everything else. -/
def SdpState.setBlock {σ : Type} (s : SdpState σ) (p : Ptr SdpObj) (b : Block) : SdpState σ :=
  { s with mem := storeBlock s.mem p b }

@[simp] theorem SdpState.setBlock_mem {σ : Type} (s : SdpState σ) (p : Ptr SdpObj) (b : Block) :
    (s.setBlock p b).mem = storeBlock s.mem p b := rfl

variable {σ : Type}

/-- `MODCTRL` as `sdp_aes_crypt_ecb` and `sdp_aes_crypt_cbc` program it. -/
def aesModctrl (s : SdpState σ) (op : SdpAesOp) (cbc : Bool) : SdpModctrl :=
  { aesalg := decide (s.keyBits ≠ .keybits128)
    aesks := s.keyIdx.setWidth 6
    aesdir := op
    asemod := cbc }

/-- Start one packet and wait for it. -/
def runPacket (hw : SdpHw σ) (s : SdpState σ) (op : SdpAesOp) (cbc : Bool) (iv : Block)
    (input output : Ptr SdpObj) : HpmStat × SdpState σ :=
  let done := hw.exec s.hw (aesModctrl s op cbc) iv (blockAt s.mem input)
  let status := sdpWaitDone done.sta
  (status, { s with
    hw := done.state
    mem := storeBlock s.mem output done.dst
    issued := s.issued ++ [status] })

/-- `sdp_aes_crypt_ecb` on 16 bytes, the length every caller in the driver
passes.  ECB packets do not set `CIPHIV`. -/
def sdpAesCryptEcb (hw : SdpHw σ) (s : SdpState σ) (op : SdpAesOp)
    (input output : Ptr SdpObj) : HpmStat × SdpState σ :=
  runPacket hw s op false (fun _ => 0) input output

/-- `sdp_aes_crypt_cbc` on 16 bytes. -/
def sdpAesCryptCbc (hw : SdpHw σ) (s : SdpState σ) (op : SdpAesOp) (iv input output : Ptr SdpObj) :
    HpmStat × SdpState σ :=
  runPacket hw s op true (blockAt s.mem iv) input output

/-! ## The engine of a block cipher -/

/-- The key an AES packet selects. -/
structure SdpAesKey where
  aesalg : Bool
  aesks : BitVec 6
  deriving DecidableEq, Repr

/-- The engine that never fails and computes ECB and CBC of the keyed block
cipher `aes`. -/
def SdpHw.ofCipher (aes : SdpAesKey → SdpAesOp → Block → Block) : SdpHw Unit where
  exec _ mc iv x :=
    let f := aes ⟨mc.aesalg, mc.aesks⟩ mc.aesdir
    { state := ()
      sta := SDP_STA_PKTCNT0_MASK
      dst := if mc.asemod then
          match mc.aesdir with
          | .encrypt => f (Block.xor iv x)
          | .decrypt => Block.xor (f x) iv
        else f x }

/-- The key of a context. -/
def SdpState.key (s : SdpState σ) : SdpAesKey :=
  ⟨decide (s.keyBits ≠ .keybits128), s.keyIdx.setWidth 6⟩

end HpmSdk.Sdp
