import HpmSdk.Sdp.Engine

set_option autoImplicit false

/-!
# SDP: streaming hashes (`sdp_hash_init`, `sdp_hash_update`, `sdp_hash_finish`)

The driver keeps up to one 64-byte block of the message in its context and
hands the rest to the engine, one packet at a time.  What the engine does with
a packet is a parameter; the model logs every packet that is started.

The context holds what is left of a block from one call to the next, and the size of the message.
-/

namespace HpmSdk.Sdp

open HpmSdk.Foundation

/-! ## The engine -/

/-- `sdp_hash_alg_t`. -/
inductive SdpHashAlg where
  | sha1
  | crc32
  | sha256
  deriving DecidableEq, Repr, Inhabited

/-- A hash packet: `MODCTRL.HASALG`, the `HASHINIT` and `HASHFINISH` bits of
`PKT_CTRL`, and the bytes at `src_addr`. -/
structure SdpHashPacket where
  alg : SdpHashAlg
  hashInit : Bool
  hashFinish : Bool
  data : List UInt8
  deriving DecidableEq, Repr

/-- What a hash engine does with a packet, and its `HASWRD` registers. -/
structure SdpHashHw (σ : Type) where
  /-- The next state and the reading of `STA` that ended the poll. -/
  exec : σ → SdpHashPacket → σ × BitVec 32
  haswrd : σ → Nat → UInt32

/-! ## The context -/

def HASH_BLOCK_SIZE : Nat := 64

/-- `sdp_hash_alg_state_t`. -/
inductive SdpHashAlgState where
  | hashInit
  | hashUpdate
  deriving DecidableEq, Repr, Inhabited

/-- `sdp_hash_internal_ctx_t`. -/
structure SdpHashInternalCtx where
  block : Buf
  blkSize : Nat
  fullMsgSize : Nat
  runningHash : Nat → UInt32
  alg : SdpHashAlg
  state : SdpHashAlgState
  hashInit : Bool
  hashFinish : Bool

/-- The state a hash call acts on. -/
structure SdpHashState (σ : Type) where
  hw : σ
  /-- `SDPCR.HASDIS`, a read-only bit. -/
  hasdis : Bool
  ctx : SdpHashInternalCtx
  /-- Every packet started so far, oldest first. -/
  packets : List SdpHashPacket

variable {σ : Type}

/-- Write the carry buffer of the context. -/
def SdpHashState.setCarry (s : SdpHashState σ) (block : Buf) (blkSize : Nat) : SdpHashState σ :=
  { s with ctx := { s.ctx with block := block, blkSize := blkSize } }

@[simp] theorem SdpHashState.setCarry_block (s : SdpHashState σ) (b : Buf) (n : Nat) :
    (s.setCarry b n).ctx.block = b := rfl

@[simp] theorem SdpHashState.setCarry_blkSize (s : SdpHashState σ) (b : Buf) (n : Nat) :
    (s.setCarry b n).ctx.blkSize = n := rfl

@[simp] theorem SdpHashState.setCarry_state (s : SdpHashState σ) (b : Buf) (n : Nat) :
    (s.setCarry b n).ctx.state = s.ctx.state := rfl

/-- `full_msg_size += length`. -/
def SdpHashState.addMsgSize (s : SdpHashState σ) (length : Nat) : SdpHashState σ :=
  { s with ctx := { s.ctx with fullMsgSize := (s.ctx.fullMsgSize + length) % 2 ^ 32 } }

@[simp] theorem SdpHashState.addMsgSize_block (s : SdpHashState σ) (n : Nat) :
    (s.addMsgSize n).ctx.block = s.ctx.block := rfl

@[simp] theorem SdpHashState.addMsgSize_blkSize (s : SdpHashState σ) (n : Nat) :
    (s.addMsgSize n).ctx.blkSize = s.ctx.blkSize := rfl

/-! ## The code -/

/-- `sdp_hash_init`. -/
def sdpHashInit (s : SdpHashState σ) (alg : SdpHashAlg) : HpmStat × SdpHashState σ :=
  if s.hasdis then (.sdpNoHashSupport, s)
  else
    let ctx : SdpHashInternalCtx :=
      { block := fun _ => 0
        blkSize := 0
        fullMsgSize := 0
        runningHash := fun _ => 0
        alg := alg
        state := .hashInit
        hashInit := false
        hashFinish := false }
    (.success, { s with ctx := ctx })

/-- `sdp_hash_internal_engine_init`. -/
def sdpHashInternalEngineInit (s : SdpHashState σ) : SdpHashState σ :=
  { s with ctx := { s.ctx with hashInit := true, hashFinish := false } }

/-- `sdp_hash_internal_update` on the `msgSize` bytes at `msg`. -/
def sdpHashInternalUpdate (hw : SdpHashHw σ) (s : SdpHashState σ) (msg : Buf) (msgSize : Nat) :
    HpmStat × SdpHashState σ :=
  let packet : SdpHashPacket :=
    { alg := s.ctx.alg
      hashInit := s.ctx.hashInit
      hashFinish := s.ctx.hashFinish
      data := msg.toList 0 msgSize }
  let done := hw.exec s.hw packet
  (sdpWaitDone done.2, { s with
    hw := done.1
    ctx := { s.ctx with hashInit := false, hashFinish := false }
    packets := s.packets ++ [packet] })

/-- `sdp_hash_process_message` after the carry buffer is empty: all full blocks
go to the engine, the rest into the buffer. -/
def sdpHashProcessBlocks (hw : SdpHashHw σ) (s : SdpHashState σ) (msg : Buf) (msgSize : Nat)
    (status : HpmStat) : HpmStat × SdpHashState σ :=
  let keep := fun (s : SdpHashState σ) (msg : Buf) (msgSize : Nat) =>
    s.setCarry (s.ctx.block.copy 0 msg msgSize) msgSize
  let fullBlkSize := (msgSize >>> 6) <<< 6
  if 0 < fullBlkSize then
    let r := sdpHashInternalUpdate hw s msg fullBlkSize
    if r.1 ≠ .success then r
    else (r.1, keep r.2 (msg.drop fullBlkSize) (msgSize - fullBlkSize))
  else (status, keep s msg msgSize)

/-- `sdp_hash_process_message`.  Its `status` starts out uninitialised. -/
def sdpHashProcessMessage (hw : SdpHashHw σ) (s : SdpHashState σ) (msg : Buf) (msgSize : Nat)
    (uninit : HpmStat) : HpmStat × SdpHashState σ :=
  if 0 < s.ctx.blkSize then
    let sizeToCopy := HASH_BLOCK_SIZE - s.ctx.blkSize
    let s := s.setCarry (s.ctx.block.copy s.ctx.blkSize msg sizeToCopy) s.ctx.blkSize
    let r := sdpHashInternalUpdate hw s s.ctx.block HASH_BLOCK_SIZE
    if r.1 ≠ .success then r
    else sdpHashProcessBlocks hw r.2 (msg.drop sizeToCopy) (msgSize - sizeToCopy) r.1
  else sdpHashProcessBlocks hw s msg msgSize uninit

/-- The `if (ctx_internal->state != sdp_state_hash_update)` of `sdp_hash_update`. -/
def sdpHashEngineOpen (s : SdpHashState σ) : SdpHashState σ :=
  if s.ctx.state ≠ .hashUpdate then
    let s := sdpHashInternalEngineInit s
    { s with ctx := { s.ctx with state := .hashUpdate } }
  else s

/-- `sdp_hash_update`. -/
def sdpHashUpdate (hw : SdpHashHw σ) (s : SdpHashState σ) (data : Buf) (length : Nat)
    (uninit : HpmStat) : HpmStat × SdpHashState σ :=
  if length = 0 then (.success, s)
  else
    let s := s.addMsgSize length
    if (s.ctx.blkSize + length) % 2 ^ 32 ≤ HASH_BLOCK_SIZE then
      (.success, s.setCarry (s.ctx.block.copy s.ctx.blkSize data length)
        ((s.ctx.blkSize + length) % 2 ^ 32))
    else sdpHashProcessMessage hw (sdpHashEngineOpen s) data length uninit

/-- `sdp_hash_finalize`. -/
def sdpHashFinalize (hw : SdpHashHw σ) (s : SdpHashState σ) : HpmStat × SdpHashState σ :=
  let s := { s with ctx := { s.ctx with hashFinish := true } }
  sdpHashInternalUpdate hw s s.ctx.block s.ctx.blkSize

/-- The bytes of an array of words on a little-endian core. -/
def wordBytes (w : Nat → UInt32) : Buf := fun i =>
  (w (i / 4) >>> UInt32.ofNat (8 * (i % 4))).toUInt8

/-- The digest sizes of `sdp_hash_finish`. -/
def SdpHashAlg.copyBytes : SdpHashAlg → Nat
  | .crc32 => 4
  | .sha1 => 20
  | .sha256 => 32

/-- The words of `HASWRD` that `sdp_hash_finish` copies, over the old ones. -/
def copyHaswrd (haswrd running : Nat → UInt32) (n : Nat) : Nat → UInt32 :=
  fun i => if i < n then haswrd i else running i

/-- `sdp_hash_finish`, with the contents of `digest`. -/
def sdpHashFinish (hw : SdpHashHw σ) (s : SdpHashState σ) (digest : Buf) :
    HpmStat × SdpHashState σ × Buf :=
  let s := if s.ctx.state = .hashInit then sdpHashInternalEngineInit s else s
  let r := sdpHashFinalize hw s
  if r.1 ≠ .success then (r.1, r.2, digest)
  else
    let copyBytes := r.2.ctx.alg.copyBytes
    let running := copyHaswrd (hw.haswrd r.2.hw) r.2.ctx.runningHash (copyBytes / 4)
    (r.1, { r.2 with ctx := { r.2.ctx with runningHash := running } },
      digest.copy 0 (wordBytes running) copyBytes)

/-- A sequence of `sdp_hash_update` calls, one for each piece. -/
def sdpHashUpdates (hw : SdpHashHw σ) (uninit : HpmStat) :
    SdpHashState σ → List (List UInt8) → List HpmStat × SdpHashState σ
  | s, [] => ([], s)
  | s, piece :: pieces =>
    let r := sdpHashUpdate hw s (Buf.ofList piece) piece.length uninit
    let rs := sdpHashUpdates hw uninit r.2 pieces
    (r.1 :: rs.1, rs.2)

end HpmSdk.Sdp
