import HpmSdk.Foundation.History
import HpmSdk.Foundation.Registers
import Mathlib.Logic.Function.Basic

set_option autoImplicit false

/-!
# USB device: the endpoint control registers (`hpm_usb_drv.c`)

`ENDPTCTRL` of an endpoint holds the fields of both of its directions.  The functions for an
endpoint read the register, or bits into it or clear some, and write it back.
-/

namespace HpmSdk.Usb

open HpmSdk.Foundation

/-! ## Registers -/

/-- `USB_SOC_DCD_MAX_ENDPOINT_COUNT`. -/
abbrev usbSocDcdMaxEndpointCount : Nat := 8

/-- `ENDPTCTRL_STALL`. -/
def endptctrlStall : BitVec 32 := 1 <<< 0

/-- `ENDPTCTRL_TYPE`. -/
def endptctrlType : BitVec 32 := 1 <<< 2

/-- `ENDPTCTRL_TOGGLE_RESET`. -/
def endptctrlToggleReset : BitVec 32 := 1 <<< 6

/-- `ENDPTCTRL_ENABLE`. -/
def endptctrlEnable : BitVec 32 := 1 <<< 7

/-- `USB_ENDPTCTRL_TXR` and `USB_ENDPTCTRL_RXR`, which read as zero. -/
def usbEndptctrlToggles : BitVec 32 := 0x400040

/-- `USB_ENDPTCTRL_TXT`. -/
def usbEndptctrlTxt : RegField := ⟨18, 2⟩

/-- `USB_ENDPTCTRL_RXT`. -/
def usbEndptctrlRxt : RegField := ⟨2, 2⟩

/-- `usb_xfer_type_t`. -/
inductive UsbXferType where
  | control
  | isochronous
  | bulk
  | interrupt
  deriving DecidableEq, Repr

/-- The number of a transfer type. -/
def UsbXferType.code : UsbXferType → BitVec 32
  | control => 0
  | isochronous => 1
  | bulk => 2
  | interrupt => 3

/-- An endpoint other than the control endpoint, and a direction: `true` is IN. -/
structure UsbDcdEp where
  num : Fin usbSocDcdMaxEndpointCount
  dir : Bool
  pos : num.val ≠ 0
  deriving DecidableEq, Repr

/-- An `ep_addr` of such an endpoint. -/
structure UsbDcdAddr where
  addr : BitVec 8
  pos : (addr &&& 0x0f).toNat ≠ 0
  lt : (addr &&& 0x0f).toNat < usbSocDcdMaxEndpointCount
  deriving DecidableEq, Repr

/-- `ep_addr & 0x0f` and `(ep_addr & 0x80) >> 7`. -/
def UsbDcdAddr.ep (a : UsbDcdAddr) : UsbDcdEp :=
  ⟨⟨(a.addr &&& 0x0f).toNat, a.lt⟩, decide ((a.addr &&& 0x80) >>> 7 ≠ 0), a.pos⟩

/-- `dir ? 16 : 0`. -/
def UsbDcdEp.shift (ep : UsbDcdEp) : Nat := if ep.dir then 16 else 0

/-! ## The functions -/

/-- The registers, and what was written to `ENDPTFLUSH`, for which endpoint. -/
structure UsbDcdRegs where
  endptctrl : Fin usbSocDcdMaxEndpointCount → BitVec 32
  flushes : List (Option UsbDcdEp × BitVec 32)

/-- The registers behind a reset of the controller. -/
def UsbDcdRegs.init : UsbDcdRegs := ⟨fun _ => 0, []⟩

namespace UsbDcdRegs

variable (r : UsbDcdRegs) (ep : UsbDcdEp)

/-- A write to `ENDPTCTRL`. -/
def write (v : BitVec 32) : UsbDcdRegs :=
  { r with endptctrl := Function.update r.endptctrl ep.num (v &&& ~~~usbEndptctrlToggles) }

/-- `ENDPTCTRL |= mask << (dir ? 16 : 0)`. -/
def orShifted (mask : BitVec 32) : UsbDcdRegs :=
  r.write ep (r.endptctrl ep.num ||| mask <<< ep.shift)

/-- `ENDPTCTRL &= ~(mask << (dir ? 16 : 0))`. -/
def clearShifted (mask : BitVec 32) : UsbDcdRegs :=
  r.write ep (r.endptctrl ep.num &&& ~~~(mask <<< ep.shift))

end UsbDcdRegs

section Functions

variable (r : UsbDcdRegs) (ep : UsbDcdEp)

/-- `usb_dcd_bus_reset`. -/
def usbDcdBusReset : UsbDcdRegs where
  endptctrl := fun n =>
    if n.val = 0 then r.endptctrl n
    else usbEndptctrlTxt.set UsbXferType.bulk.code ||| usbEndptctrlRxt.set UsbXferType.bulk.code
  flushes := r.flushes ++ [(none, 0xffffffff)]

/-- `usb_dcd_edpt_open`. -/
def usbDcdEdptOpen (xfer : UsbXferType) : UsbDcdRegs :=
  r.orShifted ep (xfer.code <<< 2 ||| endptctrlEnable ||| endptctrlToggleReset)

/-- `usb_dcd_edpt_stall`. -/
def usbDcdEdptStall : UsbDcdRegs := r.orShifted ep endptctrlStall

/-- `usb_dcd_edpt_clear_stall`. -/
def usbDcdEdptClearStall : UsbDcdRegs :=
  (r.orShifted ep endptctrlToggleReset).clearShifted ep endptctrlStall

/-- The bits that `usb_dcd_edpt_close` flushes. -/
def usbDcdPrimebit : BitVec 32 := 1 <<< ep.num.val + BitVec.ofNat 32 ep.shift

/-- `usb_dcd_edpt_close`, where the endpoint is flushed so many times more until `ENDPTSTAT` is
clear.  Every flush is over before the next one, so that `ENDPTFLUSH` reads as zero. -/
def usbDcdEdptClose (more : Nat) : UsbDcdRegs :=
  UsbDcdRegs.clearShifted
    { r with flushes := r.flushes ++ List.replicate (more + 1) (some ep, usbDcdPrimebit ep) } ep
    (endptctrlType ||| endptctrlEnable ||| endptctrlStall)

end Functions

/-- A call of one of the functions. -/
inductive UsbDcdCall where
  | busReset
  | open' (addr : UsbDcdAddr) (xfer : UsbXferType)
  | stall (addr : UsbDcdAddr)
  | clearStall (addr : UsbDcdAddr)
  | close (addr : UsbDcdAddr) (more : Nat)
  deriving DecidableEq, Repr

/-- The registers behind a call. -/
def UsbDcdCall.step (r : UsbDcdRegs) : UsbDcdCall → UsbDcdRegs
  | busReset => usbDcdBusReset r
  | open' addr xfer => usbDcdEdptOpen r addr.ep xfer
  | stall addr => usbDcdEdptStall r addr.ep
  | clearStall addr => usbDcdEdptClearStall r addr.ep
  | close addr more => usbDcdEdptClose r addr.ep more

/-- The endpoint and direction of a call. -/
def UsbDcdCall.ep : UsbDcdCall → Option UsbDcdEp
  | busReset => none
  | open' addr _ | stall addr | clearStall addr | close addr _ => some addr.ep

/-! ## The contract -/

/-- The fields of a direction. -/
inductive UsbDcdField where
  | stall
  | type
  | inhibit
  | enable
  deriving DecidableEq, Repr

/-- Where a field is. -/
def UsbDcdField.at (dir : Bool) (f : UsbDcdField) : RegField :=
  let shift := if dir then 16 else 0
  match f with
  | stall => ⟨shift, 1⟩
  | type => ⟨shift + 2, 2⟩
  | inhibit => ⟨shift + 5, 1⟩
  | enable => ⟨shift + 7, 1⟩

/-- A field of an endpoint and direction. -/
def UsbDcdRegs.field (r : UsbDcdRegs) (ep : UsbDcdEp) (f : UsbDcdField) : BitVec 32 :=
  (f.at ep.dir).get (r.endptctrl ep.num)

/-- What a call says of an endpoint being open: with a type, or not. -/
def UsbDcdCall.opens (ep : UsbDcdEp) : UsbDcdCall → Option (Option UsbXferType)
  | busReset => some none
  | open' addr xfer => if addr.ep = ep then some (some xfer) else none
  | close addr _ => if addr.ep = ep then some none else none
  | stall _ | clearStall _ => none

/-- What a call says of an endpoint being stalled. -/
def UsbDcdCall.stalls (ep : UsbDcdEp) : UsbDcdCall → Option Bool
  | busReset => some false
  | stall addr => if addr.ep = ep then some true else none
  | clearStall addr | close addr _ => if addr.ep = ep then some false else none
  | open' _ _ => none

/-- The type of the last open of an endpoint behind its last close and the last reset. -/
def usbDcdOpened (ep : UsbDcdEp) (calls : List UsbDcdCall) : Option UsbXferType :=
  (lastSome (UsbDcdCall.opens ep) calls).getD none

/-- An endpoint was stalled behind its last clear and close and the last reset. -/
def usbDcdStalled (ep : UsbDcdEp) (calls : List UsbDcdCall) : Bool :=
  (lastSome (UsbDcdCall.stalls ep) calls).getD false

/-- The registers behind a sequence of calls. -/
def usbDcdRun (calls : List UsbDcdCall) : UsbDcdRegs :=
  calls.foldl UsbDcdCall.step UsbDcdRegs.init

/-- What is asked of a sequence: an endpoint is enabled where it is open, with the type of its
last open, and stalled where it was stalled last; the last call has changed no field of another
endpoint or direction; and what was flushed for an endpoint is its own bit. -/
structure UsbDcdHolds (calls : List UsbDcdCall) : Prop where
  enabled : ∀ ep, (usbDcdRun calls).field ep .enable =
    if (usbDcdOpened ep calls).isSome then 1 else 0
  typed : ∀ ep, ∀ xfer ∈ usbDcdOpened ep calls, (usbDcdRun calls).field ep .type = xfer.code
  stalled : ∀ ep, (usbDcdRun calls).field ep .stall = if usbDcdStalled ep calls then 1 else 0
  others : ∀ before call ep, calls = before ++ [call] → call.ep = some ep → ∀ ep' f, ep' ≠ ep →
    (usbDcdRun calls).field ep' f = (usbDcdRun before).field ep' f
  flushed : ∀ ep bits, (some ep, bits) ∈ (usbDcdRun calls).flushes →
    bits = 1 <<< (ep.num.val + ep.shift)

/-- When a call does what is asked of it: an endpoint is opened where the type in its register
has no bit that the new type lacks, and an endpoint that is closed is an OUT endpoint. -/
def UsbDcdCall.Fits (r : UsbDcdRegs) : UsbDcdCall → Prop
  | open' addr xfer => r.field addr.ep .type &&& ~~~xfer.code = 0
  | close addr _ => addr.ep.dir = false
  | busReset | stall _ | clearStall _ => True

end HpmSdk.Usb
