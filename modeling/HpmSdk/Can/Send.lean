import HpmSdk.Can.Receive

set_option autoImplicit false

/-!
# CAN: sending (`hpm_can_drv.c`)

The secondary transmit buffer is a FIFO of frames behind a window `TBUF`; at every access
the bus may have sent the oldest frame.  `can_send_message_blocking` gives up after so many
polls and leaves its frame in the buffer.
-/

namespace HpmSdk.Can

open HpmSdk.Foundation

/-! ## The transmit buffer and the bus -/

/-- `can_transmit_buf_t`, and a slot of the buffer: 18 words. -/
abbrev CanTxWords : Type := Fin 18 → BitVec 32

/-- What the controller and the bus do on their own. -/
structure CanBus where
  /-- The slots of the buffer. -/
  depth : Nat
  depth_pos : 0 < depth
  /-- Whether the bus is ready for a frame at a time. -/
  sends : Nat → Bool
  /-- What is left in the slot that is selected at a time. -/
  stale : Nat → CanTxWords

/-- The secondary transmit buffer. -/
structure CanTx where
  slot : CanTxWords
  stb : List CanTxWords
  tsone : Bool
  sent : List CanTxWords
  time : Nat

namespace CanTx

variable (bus : CanBus) (s : CanTx)

/-- Before an access the bus may take the oldest frame, if one is requested. -/
def tick : CanTx :=
  match s.stb with
  | frame :: rest =>
    if s.tsone ∧ bus.sends s.time then
      { s with
        stb := rest
        tsone := false
        sent := s.sent ++ [frame]
        time := s.time + 1 }
    else { s with time := s.time + 1 }
  | [] => { s with time := s.time + 1 }

/-- A write to `TBUF`; it is ignored where no slot is free. -/
def writeTbuf (i : Fin 18) (v : BitVec 32) : CanTx :=
  let s := s.tick bus
  if s.stb.length < bus.depth then { s with slot := Function.update s.slot i v } else s

/-- A write to `CMD_STA_CMD_CTRL` without effect on the frames. -/
def writeCtrl : CanTx := s.tick bus

/-- `CMD_STA_CMD_CTRL |= TSNEXT | TSONE`. -/
def writeTsnextTsone : CanTx :=
  let s := s.tick bus
  if s.stb.length < bus.depth then
    { s with
      slot := bus.stale s.time
      stb := s.stb ++ [s.slot]
      tsone := true }
  else { s with tsone := true }

/-- `TSSTAT`. -/
def tsstat : BitVec 32 :=
  if s.stb.length = 0 then 0
  else if bus.depth ≤ s.stb.length then 3
  else if 2 * s.stb.length ≤ bus.depth then 1
  else 2

end CanTx

/-! ## `can_send_message_blocking` -/

/-- `CAN_TIMEOUT_CNT`. -/
def canTimeoutCnt : Nat := 0xFFFFFF

/-- `CAN_STB_IS_EMPTY`. -/
def canStbIsEmpty : BitVec 32 := 0
/-- `CAN_STB_IS_FULL`. -/
def canStbIsFull : BitVec 32 := 3

/-- The words of `message->buffer` behind the first two, so many of them. -/
def canFillWords (bus : CanBus) (message : CanTxWords) : Nat → CanTx → CanTx
  | 0, s => s
  | i + 1, s =>
    let s := canFillWords bus message i s
    -- A DLC stands for at most 16 words.
    if h : 2 + i < 18 then s.writeTbuf bus ⟨2 + i, h⟩ (message ⟨2 + i, h⟩) else s

/-- The words of a frame that carry data. -/
def canTxDataWords (message : CanTxWords) : Nat :=
  canGetDataWordsFromDlc (canDlcField.get (message 1))

/-- `can_fill_tx_buffer`. -/
def canFillTxBuffer (bus : CanBus) (message : CanTxWords) (s : CanTx) : CanTx :=
  let s := s.writeTbuf bus 0 (message 0)
  let s := s.writeTbuf bus 1 (message 1)
  canFillWords bus message (canTxDataWords message) s

/-- `while (waits) { timeout_cnt--; if (timeout_cnt <= 0) { status = status_timeout; break; } }` -/
def canPoll (bus : CanBus) (waits : CanTx → Bool) : Nat → CanTx → CanStat × CanTx
  | 0, s => (.timeout, s)
  | timeoutCnt + 1, s =>
    let s := s.tick bus
    if waits s then canPoll bus waits timeoutCnt s else (.success, s)

/-- `can_send_message_blocking`. -/
def canSendMessageBlocking (bus : CanBus) (message : CanTxWords) (s : CanTx) : CanStat × CanTx :=
  let s := s.writeCtrl bus
  let s := canFillTxBuffer bus message s
  let (status, s) := canPoll bus (fun s => s.tsstat bus = canStbIsFull) canTimeoutCnt s
  if status ≠ .success then (status, s)
  else
    let s := s.writeTsnextTsone bus
    canPoll bus (fun s => s.tsstat bus ≠ canStbIsEmpty) canTimeoutCnt s

/-! ## The contract -/

/-- What happens: a message is sent, or nothing for a moment. -/
inductive CanTxAction where
  | send (message : CanTxWords)
  | idle

/-- The buffer, and the calls so far with their status. -/
structure CanTxRun where
  tx : CanTx
  calls : List (CanTxWords × CanStat)

/-- One action. -/
def canTxStep (bus : CanBus) (s : CanTxRun) : CanTxAction → Option CanTxRun
  | .send message =>
    let r := canSendMessageBlocking bus message s.tx
    some ⟨r.2, s.calls ++ [(message, r.1)]⟩
  | .idle => some { s with tx := s.tx.tick bus }

/-- An empty buffer. -/
def CanTxRun.start (slot : CanTxWords) : CanTxRun := ⟨⟨slot, [], false, [], 0⟩, []⟩

/-- A frame on the bus carries a message. -/
def CanCarries (frame message : CanTxWords) : Prop :=
  ∀ i : Fin 18, i.val < 2 + canTxDataWords message → frame i = message i

/-- The messages of the calls that returned success, in order. -/
def CanTxRun.succeeded (s : CanTxRun) : List CanTxWords :=
  (s.calls.filter fun call => call.2 = .success).map Prod.fst

/-- What is asked of a state: on the bus were exactly the messages of the calls that returned
success, and where a call returned a timeout no frame is left that will be sent. -/
structure CanTxRun.Kept (s : CanTxRun) : Prop where
  transmitted : List.Forall₂ CanCarries s.tx.sent s.succeeded
  nothingLeft : (∃ call ∈ s.calls, call.2 ≠ .success) → s.tx.stb = []

/-- Every state of a run is as asked. -/
def CanTxKept (bus : CanBus) (slot : CanTxWords) (acts : List CanTxAction) : Prop :=
  Along (canTxStep bus) (fun s act => ∀ s' ∈ canTxStep bus s act, s'.Kept)
    (CanTxRun.start slot) acts

/-- The accesses of a call before it waits for its frame. -/
def canSendAccesses (message : CanTxWords) : Nat := 5 + canTxDataWords message

/-- The bus is ready for the frame of a call while the call polls. -/
def CanTxServed (bus : CanBus) (s : CanTxRun) : CanTxAction → Prop
  | .send message =>
    ∃ polls < canTimeoutCnt, bus.sends (s.tx.time + canSendAccesses message + polls) = true
  | .idle => True

end HpmSdk.Can
