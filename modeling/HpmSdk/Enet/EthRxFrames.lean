import HpmSdk.Enet.EthRxReported

set_option autoImplicit false

/-!
# ENET: the frames that are stored and the frames that are delivered

The DMA fills the buffers of the ring with the bytes of frames, every segment but the last with as
many as a buffer has; `rt_hpm_eth_rx` copies what it finds.  Every delivery should be the frame
whose turn it is, less its CRC.

The condition on a run is that no call so far has found a frame and dropped it.
-/

namespace HpmSdk.Enet

open HpmSdk.Foundation

/-! ## Worlds -/

/-- A delivery: the frame whose turn it was, with the position of its first segment, and what the
driver did: the pbufs, and the memory and the buffers that they were copied from. -/
structure EthRxDelivery where
  frame : Option (List (List UInt8))
  first : Nat
  pbufs : EthRxPbufs
  mem : Buf
  buffers : Nat → Nat

/-- The ring with the bytes in its buffers. -/
structure EthRxWorld where
  ring : RxWorld
  mem : Buf
  /-- The segments of the frame that is being stored. -/
  part : List (List UInt8)
  /-- The frames that were stored, by segments, oldest first. -/
  frames : List (List (List UInt8))
  deliveries : List EthRxDelivery

/-- What can happen next. -/
inductive EthRxEvent where
  /-- The DMA stores a segment with these bytes. -/
  | dma (ls : Bool) (fl : BitVec 14) (data : List UInt8)
  /-- `rt_hpm_eth_rx`, with what its allocation gives. -/
  | rx (pbufAlloc : Option (List Nat))
  deriving DecidableEq, Repr

namespace EthRxWorld

/-- Every segment, oldest first. -/
def stored (w : EthRxWorld) : List (List UInt8) := w.frames.flatten ++ w.part

/-- A segment that is not the last one of its frame fills its buffer, and the length in the last
one counts all bytes of the frame. -/
def Fills (w : EthRxWorld) (ls : Bool) (fl : BitVec 14) (data : List UInt8) : Prop :=
  data.length ≤ enetRxBuffSize ∧ (ls = false → data.length = enetRxBuffSize) ∧
    (ls = true → fl.toNat = (w.part ++ [data]).flatten.length)

instance (w : EthRxWorld) (ls : Bool) (fl : BitVec 14) (data : List UInt8) :
    Decidable (w.Fills ls fl data) :=
  inferInstanceAs (Decidable (_ ∧ _ ∧ _))

/-- `pbuf_alloc` gives a chain for the length that it is asked for. -/
def AllocFits (w : EthRxWorld) (pbufAlloc : Option (List Nat)) : Prop :=
  ∀ s ∈ enetGetReceivedFrameInterrupt w.ring.rx w.ring.rx.cfg.count, ∀ lens ∈ pbufAlloc,
    0 < s.1.length % 2 ^ 16 → lens.sum = s.1.length % 2 ^ 16

instance (w : EthRxWorld) (pbufAlloc : Option (List Nat)) : Decidable (w.AllocFits pbufAlloc) :=
  inferInstanceAs (Decidable (∀ s ∈ _, ∀ lens ∈ pbufAlloc, _))

/-- The world with one segment more. -/
def storeBytes (w : EthRxWorld) (ls : Bool) (data : List UInt8) (ring : RxWorld) : EthRxWorld :=
  { w with
    ring := ring
    mem := w.mem.copy (w.ring.slot w.ring.filled.length).buffer1 (Buf.ofList data) data.length
    part := if ls then [] else w.part ++ [data]
    frames := if ls then w.frames ++ [w.part ++ [data]] else w.frames }

/-- The delivery of pbufs: it is the turn of the frame behind those that were reported. -/
def delivery (w : EthRxWorld) (pbufs : EthRxPbufs) : EthRxDelivery where
  frame := w.frames[w.ring.reports.length]?
  first := ((w.frames.take w.ring.reports.length).map List.length).sum
  pbufs := pbufs
  mem := w.mem
  buffers := fun p => (w.ring.slot p).buffer1

def step (w : EthRxWorld) : EthRxEvent → Option EthRxWorld
  | .dma ls fl data =>
    if w.Fills ls fl data then (w.ring.dma ls fl).map fun ring => w.storeBytes ls data ring
    else none
  | .rx pbufAlloc =>
    if w.AllocFits pbufAlloc then
      (rtHpmEthRx w.ring.rx pbufAlloc).bind fun out =>
        (w.ring.ethStep (.rx pbufAlloc)).map fun ring =>
          { w with ring := ring, deliveries := w.deliveries ++ (out.1.map w.delivery).toList }
    else none

/-- The world with the ring just set up. -/
def start (r : EnetRx) (mem : Buf) : EthRxWorld where
  ring := RxWorld.start r
  mem := mem
  part := []
  frames := []
  deliveries := []

/-- A call delivers what it finds. -/
def Delivers (w : EthRxWorld) : EthRxEvent → Prop
  | .dma _ _ _ => True
  | .rx pbufAlloc => w.ring.Delivers (.rx pbufAlloc)

instance (w : EthRxWorld) : ∀ a, Decidable (w.Delivers a)
  | .dma _ _ _ => inferInstanceAs (Decidable True)
  | .rx pbufAlloc => inferInstanceAs (Decidable (w.ring.Delivers (.rx pbufAlloc)))

end EthRxWorld

/-! ## The contract -/

/-- What is asked of a delivery: the pbufs are a copy of the frame whose turn it is, less its
CRC. -/
def EthRxDelivery.Exact (d : EthRxDelivery) : Prop :=
  ∃ segs, d.frame = some segs ∧
    EthRxExact d.mem (fun u => d.buffers (d.first + u)) segs (segs.flatten.length - 4) d.pbufs

end HpmSdk.Enet
