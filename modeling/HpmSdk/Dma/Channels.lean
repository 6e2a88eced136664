import HpmSdk.Foundation.Registers
import HpmSdk.Foundation.Run
import Mathlib.Logic.Function.Basic

set_option autoImplicit false

/-!
# DMA: channels and their status (`hpm_dma_drv.c`, `hpm_dma_drv.h`)

The channels share one status register, whose bits are cleared by writing a one.  Setting up
a channel and checking it both write bits of every channel.
-/

namespace HpmSdk.Dma

open HpmSdk.Foundation

/-- The `hpm_stat_t` values of the DMA driver. -/
inductive DmaStat where
  | success
  | fail
  | invalidArgument
  | transferDone
  | transferError
  | transferAbort
  | transferOngoing
  | alignmentError
  deriving DecidableEq, Repr

/-! ## The controller -/

/-- A channel, by its number. -/
abbrev DmaChannel : Type := Fin 8

/-- How a transfer ends. -/
inductive DmaEnd where
  | error
  | abort
  | tc
  deriving DecidableEq, Repr

/-- `DMA_STATUS_ERROR_SHIFT`, `DMA_STATUS_ABORT_SHIFT`, `DMA_STATUS_TC_SHIFT`. -/
def DmaEnd.shift : DmaEnd → Nat
  | .error => 0
  | .abort => 8
  | .tc => 16

/-- The number of the status bit of an end, `DMA_STATUS_.._SHIFT + ch_index`. -/
def dmaIndex (e : DmaChannel × DmaEnd) : Nat := e.2.shift + e.1

/-- `1 << n`; a shift by 32 or more, which C leaves open, gives 0. -/
def dmaBit (n : Nat) : BitVec 32 := 1#32 <<< n

/-- `CHCTRL`. -/
structure DmaChctrl where
  ctrl : BitVec 32
  transize : BitVec 32
  srcaddr : BitVec 32
  dstaddr : BitVec 32
  llpointer : BitVec 32

/-- `DMA_Type`, with the ends of transfers so far. -/
structure DmaBase where
  intstatus : BitVec 32
  chen : BitVec 32
  chctrl : DmaChannel → DmaChctrl
  ended : List (DmaChannel × DmaEnd)

namespace DmaBase

variable (ptr : DmaBase)

/-- The channel has a transfer under way. -/
def Running (ch : DmaChannel) : Prop := ptr.chen.getLsbD ch = true

instance (ch : DmaChannel) : Decidable (ptr.Running ch) := inferInstanceAs (Decidable (_ = true))

/-- The status bit of an end. -/
def pending (e : DmaChannel × DmaEnd) : Bool := ptr.intstatus.getLsbD (dmaIndex e)

/-- The hardware ends a transfer, if there is one. -/
def finish (e : DmaChannel × DmaEnd) : DmaBase :=
  if ptr.Running e.1 then
    { ptr with
      intstatus := ptr.intstatus ||| dmaBit (dmaIndex e)
      chen := ptr.chen &&& ~~~dmaBit e.1
      ended := ptr.ended ++ [e] }
  else ptr

/-- What the hardware does between two accesses. -/
def finishAll (ends : List (DmaChannel × DmaEnd)) : DmaBase := ends.foldl finish ptr

/-- A write to `INTSTATUS`. -/
def writeIntstatus (v : BitVec 32) : DmaBase := { ptr with intstatus := ptr.intstatus &&& ~~~v }

end DmaBase

/-! ## `dma_setup_channel` -/

/-- `DMA_SOC_TRANSFER_WIDTH_MAX`. -/
def dmaSocTransferWidthMax : Nat := 3

/-- `dma_channel_config_t`. -/
structure DmaChannelConfig where
  priority : BitVec 8
  srcBurstSize : BitVec 8
  dmaMode : BitVec 8
  srcWidth : BitVec 8
  dstWidth : BitVec 8
  srcAddrCtrl : BitVec 8
  dstAddrCtrl : BitVec 8
  interruptMask : BitVec 16
  srcAddr : BitVec 32
  dstAddr : BitVec 32
  linkedPtr : BitVec 32
  sizeInByte : BitVec 32

namespace DmaChannelConfig

variable (ch : DmaChannelConfig)

/-- The bytes of a source word. -/
def srcBytes : BitVec 32 := dmaBit ch.srcWidth.toNat

/-- The bytes of a destination word. -/
def dstBytes : BitVec 32 := dmaBit ch.dstWidth.toNat

/-- The checks of `dma_setup_channel`. -/
def check : DmaStat :=
  if dmaSocTransferWidthMax < ch.dstWidth.toNat ∨ dmaSocTransferWidthMax < ch.srcWidth.toNat then
    .invalidArgument
  else if ch.sizeInByte &&& (ch.dstBytes - 1) ≠ 0 ∨
      ch.srcAddr &&& (ch.srcBytes - 1) ≠ 0 ∨
      ch.srcAddr &&& ((ch.srcBytes <<< ch.srcBurstSize.toNat) - 1) ≠ 0 ∨
      ch.dstAddr &&& (ch.dstBytes - 1) ≠ 0 ∨
      ch.dstAddr &&& ((ch.dstBytes <<< ch.srcBurstSize.toNat) - 1) ≠ 0 ∨
      ch.srcBytes &&& (ch.dstBytes - 1) ≠ 0 ∨
      (ch.srcBytes <<< ch.srcBurstSize.toNat) &&& (ch.dstBytes - 1) ≠ 0 ∨
      ch.linkedPtr &&& 0x7 ≠ 0 then .alignmentError
  else .success

/-- The value for `CTRL`. -/
def ctrl (num : DmaChannel) : BitVec 32 :=
  (⟨29, 1⟩ : RegField).set (ch.priority.setWidth 32) |||
    (⟨24, 4⟩ : RegField).set (ch.srcBurstSize.setWidth 32) |||
    (⟨21, 3⟩ : RegField).set (ch.srcWidth.setWidth 32) |||
    (⟨18, 3⟩ : RegField).set (ch.dstWidth.setWidth 32) |||
    (⟨17, 1⟩ : RegField).set (ch.dmaMode.setWidth 32) |||
    (⟨14, 2⟩ : RegField).set (ch.srcAddrCtrl.setWidth 32) |||
    (⟨12, 2⟩ : RegField).set (ch.dstAddrCtrl.setWidth 32) |||
    (⟨8, 4⟩ : RegField).set (BitVec.ofNat 32 num) ||| ch.interruptMask.setWidth 32 |||
    (⟨0, 1⟩ : RegField).mask 32

end DmaChannelConfig

/-- The writes of `dma_setup_channel`; enabling the channel starts the transfer. -/
def dmaSetupWrites (ptr : DmaBase) (num : DmaChannel) (ch : DmaChannelConfig) : DmaBase :=
  let ptr := ptr.writeIntstatus 0xFFFFFFFF
  { ptr with
    chctrl := Function.update ptr.chctrl num {
      ctrl := ch.ctrl num
      transize := ch.sizeInByte >>> ch.srcWidth.toNat
      srcaddr := ch.srcAddr
      dstaddr := ch.dstAddr
      llpointer := (⟨3, 29⟩ : RegField).set (ch.linkedPtr >>> 3) }
    chen := ptr.chen ||| dmaBit num }

/-- `dma_setup_channel`, with what the hardware does before `CHEN` is read. -/
def dmaSetupChannel (ptr : DmaBase) (num : DmaChannel) (ch : DmaChannelConfig)
    (ends : List (DmaChannel × DmaEnd)) : DmaStat × DmaBase :=
  if ch.check ≠ .success then (ch.check, ptr)
  else
    let ptr := (dmaSetupWrites ptr num ch).finishAll ends
    (if ptr.chen = 0 ∨ ¬ ptr.Running num then .fail else .success, ptr)

/-! ## `dma_start_memcpy` -/

/-- `count_set_bits`. -/
def countSetBits (value : BitVec 32) : Nat :=
  ((List.range 32).filter fun i => value.getLsbD i).length

/-- `get_first_set_bit_from_lsb` of a number that is not 0. -/
def getFirstSetBitFromLsb (value : BitVec 32) : Nat :=
  ((List.range 32).find? fun i => value.getLsbD i).getD 32

/-- The widest width above that of a half word for which everything is aligned. -/
def dmaMemcpyWidth (dst src size burstLen : BitVec 32) : Nat :=
  ([3, 2].find? fun width =>
    burstLen &&& (dmaBit width - 1) = 0 ∧ dst &&& (dmaBit width - 1) = 0 ∧
      src &&& (dmaBit width - 1) = 0 ∧ size &&& (dmaBit width - 1) = 0).getD 1

/-- The loop that lowers `burst_size` until the source is aligned. -/
def dmaMemcpyBurst (src : BitVec 32) (width : Nat) : Nat → Nat
  | 0 => 0
  | burstSize + 1 =>
    if src &&& ((dmaBit width <<< (burstSize + 1)) - 1) = 0 then burstSize + 1
    else dmaMemcpyBurst src width burstSize

/-- The configuration of `dma_start_memcpy`, or its error; a burst has at least the bytes of a
word of the width that is chosen. -/
def dmaMemcpyConfig (dst src size burstLen : BitVec 32) : Except DmaStat DmaChannelConfig :=
  if burstLen = 0 ∨ burstLen = 1 ∨ size < burstLen ∨ 0x2000 < burstLen then .error .invalidArgument
  else if 1 < countSetBits burstLen ∨ burstLen &&& 1 ≠ 0 then .error .invalidArgument
  else if size &&& (burstLen - 1) ≠ 0 ∨ dst &&& (burstLen - 1) ≠ 0 ∨ src &&& (burstLen - 1) ≠ 0 then
    .error .alignmentError
  else
    let width := dmaMemcpyWidth dst src size burstLen
    let burstSize := dmaMemcpyBurst src width (getFirstSetBitFromLsb burstLen - width)
    .ok {
      priority := 0
      srcBurstSize := BitVec.ofNat 8 burstSize
      dmaMode := 0
      srcWidth := BitVec.ofNat 8 width
      dstWidth := BitVec.ofNat 8 width
      srcAddrCtrl := 0
      dstAddrCtrl := 0
      interruptMask := 0
      srcAddr := src
      dstAddr := dst
      linkedPtr := 0
      sizeInByte := size }

/-- `dma_start_memcpy`. -/
def dmaStartMemcpy (ptr : DmaBase) (num : DmaChannel) (dst src size burstLen : BitVec 32)
    (ends : List (DmaChannel × DmaEnd)) : DmaStat × DmaBase :=
  match dmaMemcpyConfig dst src size burstLen with
  | .error stat => (stat, ptr)
  | .ok config => dmaSetupChannel ptr num config ends

/-! ## `dma_check_transfer_status` -/

/-- `dma_check_transfer_status`, with what the hardware does between its two accesses. -/
def dmaCheckTransferStatus (ptr : DmaBase) (num : DmaChannel)
    (ends : List (DmaChannel × DmaEnd)) : DmaStat × DmaBase :=
  let tmp := ptr.intstatus
  let ptr := (ptr.finishAll ends).writeIntstatus tmp
  if tmp &&& dmaBit (dmaIndex (num, .tc)) ≠ 0 then (.transferDone, ptr)
  else if tmp &&& dmaBit (dmaIndex (num, .error)) ≠ 0 then (.transferError, ptr)
  else if tmp &&& dmaBit (dmaIndex (num, .abort)) ≠ 0 then (.transferAbort, ptr)
  else (.transferOngoing, ptr)

/-! ## The contract -/

/-- What the driver is asked to do, and what the hardware does meanwhile or on its own. -/
inductive DmaAction where
  | setup (num : DmaChannel) (ch : DmaChannelConfig) (ends : List (DmaChannel × DmaEnd))
  | memcpy (num : DmaChannel) (dst src size burstLen : BitVec 32)
      (ends : List (DmaChannel × DmaEnd))
  | check (num : DmaChannel) (ends : List (DmaChannel × DmaEnd))
  | hardware (e : DmaChannel × DmaEnd)

/-- The end that a status reports. -/
def DmaStat.reports (num : DmaChannel) : DmaStat → Option (DmaChannel × DmaEnd)
  | .transferDone => some (num, .tc)
  | .transferError => some (num, .error)
  | .transferAbort => some (num, .abort)
  | _ => none

/-- The controller, and the ends that were reported. -/
structure DmaRun where
  ptr : DmaBase
  reported : List (DmaChannel × DmaEnd)

/-- One action. -/
def dmaStep (s : DmaRun) : DmaAction → Option DmaRun
  | .setup num ch ends => some { s with ptr := (dmaSetupChannel s.ptr num ch ends).2 }
  | .memcpy num dst src size burstLen ends =>
    some { s with ptr := (dmaStartMemcpy s.ptr num dst src size burstLen ends).2 }
  | .check num ends =>
    let r := dmaCheckTransferStatus s.ptr num ends
    some ⟨r.2, s.reported ++ (r.1.reports num).toList⟩
  | .hardware e => some { s with ptr := s.ptr.finish e }

/-- No transfer under way and no status. -/
def DmaRun.start (chctrl : DmaChannel → DmaChctrl) : DmaRun := ⟨⟨0, 0, chctrl, []⟩, []⟩

/-- What is asked of a state: every end of a transfer was reported once or is still to be. -/
def DmaRun.Kept (s : DmaRun) : Prop :=
  ∀ e, s.ptr.ended.count e = s.reported.count e + (s.ptr.pending e).toNat

/-- Every state of a run is as asked. -/
def DmaReports (chctrl : DmaChannel → DmaChctrl) (acts : List DmaAction) : Prop :=
  Along dmaStep (fun s act => ∀ s' ∈ dmaStep s act, s'.Kept) (DmaRun.start chctrl) acts

/-- Nothing is to be reported. -/
def DmaBase.Quiet (ptr : DmaBase) : Prop := ∀ e, ptr.pending e = false

/-- Channels are set up where nothing is to be reported, and checked where nothing is to be
reported of another channel. -/
def DmaMeets (s : DmaRun) : DmaAction → Prop
  | .setup _ ch _ => ch.check = .success → s.ptr.Quiet
  | .memcpy _ dst src size burstLen _ =>
    ∀ config, dmaMemcpyConfig dst src size burstLen = .ok config → config.check = .success →
      s.ptr.Quiet
  | .check num _ => ∀ e, s.ptr.pending e = true → e.1 = num
  | .hardware _ => True

end HpmSdk.Dma
