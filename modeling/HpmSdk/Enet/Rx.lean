import HpmSdk.Foundation.Ring

set_option autoImplicit false

/-!
# ENET: the receive descriptors (`hpm_enet_drv.c`, `drv_enet.c`)

The receive half of `enet_desc_t` and the functions that work on it.  A pointer
to a descriptor is its index in the table; `NULL` is `none`, and a function that
would read through `NULL` gives `none`.  The bit fields of `rdes0` and `rdes1`
that no function here looks at are left out.
-/

namespace HpmSdk.Enet

open HpmSdk.Foundation

/-! ## Data -/

/-- `enet_rx_desc_t`. -/
structure EnetRxDesc where
  own : Bool
  fs : Bool
  ls : Bool
  /-- Frame length, valid in the last descriptor of a frame. -/
  fl : BitVec 14
  rch : Bool
  rbs1 : BitVec 13
  buffer1 : Nat
  nextDesc : Nat
  deriving DecidableEq, Repr

/-- `enet_rx_frame_info_t`. -/
structure EnetRxFrameInfo where
  fsRxDesc : Option Nat
  lsRxDesc : Option Nat
  segCount : Nat
  deriving DecidableEq, Repr

/-- `enet_frame_t`. -/
structure EnetFrame where
  length : Nat
  buffer : Nat
  rxDesc : Option Nat
  deriving DecidableEq, Repr

/-- `enet_buff_config_t`. -/
structure EnetBuffConfig where
  buffer : Nat
  count : Nat
  size : Nat
  deriving DecidableEq, Repr

/-- The receive half of `enet_desc_t`: the descriptor table, the current
descriptor, the frame being scanned and `rx_buff_cfg`. -/
structure EnetRx where
  tab : Nat → EnetRxDesc
  cur : Nat
  info : EnetRxFrameInfo
  cfg : EnetBuffConfig

namespace EnetRx

/-- Write one descriptor. -/
def setDesc (r : EnetRx) (i : Nat) (d : EnetRxDesc) : EnetRx :=
  { r with tab := Ring.set r.tab i d }

/-- The current descriptor. -/
def curDesc (r : EnetRx) : EnetRxDesc := r.tab r.cur

/-- `*parent_rx_desc_list_cur = rx_desc_list_cur->rdes3_bm.next_desc`. -/
def next (r : EnetRx) : EnetRx := { r with cur := r.curDesc.nextDesc }

end EnetRx

/-! ## Setting up the ring -/

/-- The loop of `enet_dma_rx_desc_chain_init` over the first `n` descriptors. -/
def enetDmaRxDescChainInitLoop (r : EnetRx) : Nat → EnetRx
  | 0 => r
  | i + 1 =>
    let r := enetDmaRxDescChainInitLoop r i
    r.setDesc i { r.tab i with
      own := true
      rch := true
      rbs1 := BitVec.ofNat 13 r.cfg.size
      buffer1 := (r.cfg.buffer + i * r.cfg.size) % 2 ^ 32
      nextDesc := if i < r.cfg.count - 1 then i + 1 else 0 }

/-- `enet_dma_rx_desc_chain_init`. -/
def enetDmaRxDescChainInit (r : EnetRx) : EnetRx :=
  enetDmaRxDescChainInitLoop { r with cur := 0 } r.cfg.count

/-! ## Polling -/

/-- `rdes0_bm.fl - 4` in a `uint32_t`. -/
def EnetRxDesc.frameLength (d : EnetRxDesc) : Nat := (d.fl.toNat + 2 ^ 32 - 4) % 2 ^ 32

/-- `enet_check_received_frame`. -/
def enetCheckReceivedFrame (r : EnetRx) : Nat × EnetRx :=
  let d := r.curDesc
  if d.own = false ∧ d.ls = true then
    let segCount := (r.info.segCount + 1) % 2 ^ 32
    let fs := if segCount = 1 then some r.cur else r.info.fsRxDesc
    (1, { r with info := { fsRxDesc := fs, lsRxDesc := some r.cur, segCount := segCount } })
  else if d.own = false ∧ d.fs = true ∧ d.ls = false then
    (0, { r with
      info := { fsRxDesc := some r.cur, lsRxDesc := none, segCount := 1 }
      cur := d.nextDesc })
  else if d.own = false ∧ d.fs = false ∧ d.ls = false then
    (0, { r with
      info := { r.info with segCount := (r.info.segCount + 1) % 2 ^ 32 }
      cur := d.nextDesc })
  else (0, r)

/-- `enet_get_received_frame`. -/
def enetGetReceivedFrame (r : EnetRx) : Option (EnetFrame × EnetRx) :=
  r.info.fsRxDesc.map fun fs =>
    ({ length := r.curDesc.frameLength, buffer := (r.tab fs).buffer1, rxDesc := some fs }, r.next)

/-! ## Scanning -/

/-- `enet_frame_t frame = {0, 0, 0}`. -/
def EnetFrame.zero : EnetFrame := { length := 0, buffer := 0, rxDesc := none }

/-- What one pass of the scan loop comes to. -/
inductive ScanPass where
  | go (r : EnetRx)
  | found (frame : EnetFrame) (r : EnetRx)
  | fault

/-- The body of the loop of `enet_get_received_frame_interrupt`. -/
def enetScanPass (r : EnetRx) : ScanPass :=
  let d := r.curDesc
  if d.fs = true ∧ d.ls = false then
    .go { r with
      info := { r.info with fsRxDesc := some r.cur, segCount := 1 }
      cur := d.nextDesc }
  else if d.ls = false ∧ d.fs = false then
    .go { r with
      info := { r.info with segCount := (r.info.segCount + 1) % 2 ^ 32 }
      cur := d.nextDesc }
  else
    let segCount := (r.info.segCount + 1) % 2 ^ 32
    let fs := if segCount = 1 then some r.cur else r.info.fsRxDesc
    let r' := { r with
      info := { fsRxDesc := fs, lsRxDesc := some r.cur, segCount := segCount }
      cur := d.nextDesc }
    if 1 < segCount then
      match fs with
      | none => .fault
      | some i =>
        .found { length := d.frameLength, buffer := (r.tab i).buffer1, rxDesc := some i } r'
    else .found { length := d.frameLength, buffer := d.buffer1, rxDesc := fs } r'

/-- The `while` loop, with `n` passes left before `rx_desc_count` is reached. -/
def enetScanLoop (r : EnetRx) : Nat → Option (EnetFrame × EnetRx)
  | 0 => some (EnetFrame.zero, r)
  | n + 1 =>
    if r.curDesc.own = false then
      match enetScanPass r with
      | .go r => enetScanLoop r n
      | .found frame r => some (frame, r)
      | .fault => none
    else some (EnetFrame.zero, r)

/-- `enet_get_received_frame_interrupt`. -/
def enetGetReceivedFrameInterrupt (r : EnetRx) (rxDescCount : Nat) : Option (EnetFrame × EnetRx) :=
  enetScanLoop r rxDescCount

/-! ## Giving descriptors back -/

/-- `for (i = 0; i < seg_count; i++)`: set the own bit of `n` descriptors from
`dmaRxDesc` on. -/
def enetReleaseRxDescs (r : EnetRx) (dmaRxDesc : Nat) : Nat → EnetRx
  | 0 => r
  | n + 1 =>
    let r := r.setDesc dmaRxDesc { r.tab dmaRxDesc with own := true }
    enetReleaseRxDescs r (r.tab dmaRxDesc).nextDesc n

/-- The end of `rt_hpm_eth_rx`: release the descriptors of a frame and clear
`seg_count`. -/
def enetReleaseFrame (r : EnetRx) (rxDesc : Nat) : EnetRx :=
  let r := enetReleaseRxDescs r rxDesc r.info.segCount
  { r with info := { r.info with segCount := 0 } }

end HpmSdk.Enet
