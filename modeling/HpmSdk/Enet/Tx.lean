import HpmSdk.Enet.Rx

set_option autoImplicit false

/-!
# ENET: the transmit descriptors (`hpm_enet_drv.c`)

The transmit half of `enet_desc_t`, the set-up of its ring and
`enet_prepare_transmission_descriptors`, which hands the descriptors of a frame
to the DMA.  The bit fields that no function here writes are left out.
-/

namespace HpmSdk.Enet

open HpmSdk.Foundation

/-! ## Data -/

/-- `enet_tx_desc_t`. -/
structure EnetTxDesc where
  own : Bool
  fs : Bool
  ls : Bool
  /-- Disable the CRC. -/
  dc : Bool
  /-- Disable the padding. -/
  dp : Bool
  crcr : Bool
  tch : Bool
  saic : BitVec 3
  tbs1 : BitVec 13
  buffer1 : Nat
  nextDesc : Nat
  deriving DecidableEq, Repr

/-- The transmit half of `enet_desc_t` with the poll demand register. -/
structure EnetTx where
  tab : Nat → EnetTxDesc
  cur : Nat
  cfg : EnetBuffConfig
  dmaTxPollDemand : Nat

namespace EnetTx

/-- Write one descriptor. -/
def setDesc (t : EnetTx) (i : Nat) (d : EnetTxDesc) : EnetTx :=
  { t with tab := Ring.set t.tab i d }

/-- The descriptor at a position of the ring. -/
def slot (t : EnetTx) (p : Nat) : EnetTxDesc := t.tab (p % t.cfg.count)

end EnetTx

/-- `ENET_ERROR` and `ENET_SUCCESS`. -/
inductive EnetStatus where
  | error
  | success
  deriving DecidableEq, Repr

/-- `ENET_DMATxDesc_TBS1`. -/
def enetDmaTxDescTbs1 : Nat := 0x1FFF

/-- The value of the 13-bit field `tbs1` for a size. -/
def tbs1Of (size : Nat) : BitVec 13 := BitVec.ofNat 13 (size &&& enetDmaTxDescTbs1)

/-! ## Setting up the ring -/

/-- The loop of `enet_dma_tx_desc_chain_init` over the first `n` descriptors. -/
def enetDmaTxDescChainInitLoop (t : EnetTx) : Nat → EnetTx
  | 0 => t
  | i + 1 =>
    let t := enetDmaTxDescChainInitLoop t i
    t.setDesc i { t.tab i with
      tch := true
      buffer1 := (t.cfg.buffer + i * t.cfg.size) % 2 ^ 32
      nextDesc := if i < t.cfg.count - 1 then i + 1 else 0 }

/-- `enet_dma_tx_desc_chain_init`. -/
def enetDmaTxDescChainInit (t : EnetTx) : EnetTx :=
  enetDmaTxDescChainInitLoop { t with cur := 0 } t.cfg.count

/-! ## Handing a frame over -/

/-- How many buffers `enet_prepare_transmission_descriptors` counts. -/
def txBufCount (frameLength txBuffSize : Nat) : Nat :=
  if txBuffSize < frameLength then
    if frameLength % txBuffSize ≠ 0 then frameLength / txBuffSize + 1 else frameLength / txBuffSize
  else 1

/-- The descriptor of a frame in one buffer. -/
def EnetTxDesc.whole (d : EnetTxDesc) (frameLength : Nat) : EnetTxDesc :=
  { d with
    own := true, fs := true, ls := true, dc := true, dp := false, crcr := false, saic := 2
    tbs1 := tbs1Of frameLength }

/-- Descriptor `i` of a frame in `bufCount` buffers. -/
def EnetTxDesc.segment (bufCount frameLength txBuffSize i : Nat) (d : EnetTxDesc) : EnetTxDesc :=
  let d := { d with fs := decide (i = 0), ls := false, tbs1 := tbs1Of txBuffSize }
  if i = bufCount - 1 then
    { d with own := true, ls := true, tbs1 := tbs1Of (frameLength - (bufCount - 1) * txBuffSize) }
  else d

/-- The loop over the buffers of a frame, at descriptor `desc` with `n` left and
`i` done: the table and `dma_tx_desc`. -/
def enetTxSegmentLoop (bufCount frameLength txBuffSize : Nat) :
    Nat → Nat → (Nat → EnetTxDesc) → Nat → (Nat → EnetTxDesc) × Nat
  | 0, _, tab, desc => (tab, desc)
  | n + 1, i, tab, desc =>
    let tab := Ring.set tab desc ((tab desc).segment bufCount frameLength txBuffSize i)
    enetTxSegmentLoop bufCount frameLength txBuffSize n (i + 1) tab (tab desc).nextDesc

/-- `enet_prepare_transmission_descriptors`. -/
def enetPrepareTransmissionDescriptors (t : EnetTx) (frameLength txBuffSize : Nat) :
    EnetStatus × EnetTx :=
  if txBuffSize = 0 then (.error, t)
  else
    let bufCount := txBufCount frameLength txBuffSize
    if bufCount = 1 then
      (.success,
        { t with
          tab := Ring.set t.tab t.cur ((t.tab t.cur).whole frameLength)
          cur := (t.tab t.cur).nextDesc
          dmaTxPollDemand := 1 })
    else
      let s := enetTxSegmentLoop bufCount frameLength txBuffSize bufCount 0 t.tab t.cur
      (.success, { t with tab := s.1, cur := s.2, dmaTxPollDemand := 0 })

end HpmSdk.Enet
