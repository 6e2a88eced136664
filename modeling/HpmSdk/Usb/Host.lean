import Mathlib.Data.Fintype.Sum
import Mathlib.Tactic.DeriveFintype
import Mathlib.Tactic.Ring

set_option autoImplicit false

/-!
# USB host: the schedule lists (`hpm_usb_host.c`)

The queue heads of `hcd_data_t`, the lists they are linked into and the functions
that set the lists up, open an endpoint and close a device.  A link holds the
system address of a queue head and every use of it maps the address back, so a
link is kept as the queue head it refers to; `NULL` is `none`, and what would go
through `NULL` or beyond an array gives `none`.  The transfer descriptors and the
fields that only transfers use are left out.  The addresses themselves are in
`Usb.Placed`.
-/

namespace HpmSdk.Usb

/-! ## Data -/

/-- `USB_HCD_MAX_CONNECTED_DEVICES`. -/
abbrev usbHcdMaxConnectedDevices : Nat := 5

/-- `USB_HCD_PERIODIC_ARR_COUNT`. -/
abbrev usbHcdPeriodicArrCount : Nat := 4

/-- `USB_SOC_HCD_MAX_ENDPOINT_COUNT`. -/
abbrev usbSocHcdMaxEndpointCount : Nat := 8

/-- `USB_HOST_FRAMELIST_SIZE`. -/
abbrev usbHostFramelistSize : Nat := 8

scoped instance (priority := high) : NeZero (usbHcdMaxConnectedDevices + 1) := ⟨Nat.succ_ne_zero _⟩

scoped instance (priority := high) : NeZero usbHcdPeriodicArrCount := ⟨Nat.succ_ne_zero _⟩

scoped instance (priority := high) : NeZero usbSocHcdMaxEndpointCount := ⟨Nat.succ_ne_zero _⟩

/-- The queue heads of `hcd_data_t`. -/
inductive UsbNode where
  | control (i : Fin (usbHcdMaxConnectedDevices + 1))
  | period (i : Fin usbHcdPeriodicArrCount)
  | pool (i : Fin usbSocHcdMaxEndpointCount)
  deriving DecidableEq, Repr, Fintype

/-- `usb_host_qhd_async_head`: the control queue head of device 0. -/
abbrev usbHostQhdAsyncHead : UsbNode := .control 0

/-- The index of `period_1ms`. -/
abbrev usbPeriod1ms : Fin usbHcdPeriodicArrCount := 0

/-- `hcd_link_t`, without its type. -/
structure UsbLink where
  address : Option UsbNode
  terminate : Bool
  deriving DecidableEq, Repr

/-- A link to a queue head. -/
def UsbLink.to (n : UsbNode) : UsbLink := ⟨some n, false⟩

/-- `hcd_qhd_t`. -/
structure UsbQhd where
  next : UsbLink
  devAddr : BitVec 7
  epNumber : BitVec 4
  intSmask : BitVec 8
  used : Bool
  removing : Bool
  /-- `usb_pid_in`. -/
  pidIn : Bool
  intervalMs : BitVec 8
  deriving DecidableEq, Repr

/-- After `memset(.., 0, ..)`. -/
def UsbQhd.zero : UsbQhd := ⟨⟨none, false⟩, 0, 0, 0, false, false, false, 0⟩

/-- `usb_speed_t`. -/
inductive UsbSpeed where
  | full
  | low
  | high
  deriving DecidableEq, Repr

/-- The transfer types of `bmAttributes.xfer`. -/
inductive UsbXfer where
  | control
  | isochronous
  | bulk
  | interrupt
  deriving DecidableEq, Repr

/-- `usb_desc_endpoint_t`. -/
structure UsbDescEndpoint where
  bEndpointAddress : BitVec 8
  xfer : UsbXfer
  bInterval : BitVec 8
  deriving DecidableEq, Repr

/-- The queue heads and the frame list of `hcd_data_t`. -/
structure UsbHost where
  qhd : UsbNode → UsbQhd
  framelist : Fin usbHostFramelistSize → UsbLink

namespace UsbHost

def setQhd (h : UsbHost) (n : UsbNode) (q : UsbQhd) : UsbHost :=
  { h with qhd := fun k => if k = n then q else h.qhd k }

def setNext (h : UsbHost) (n : UsbNode) (l : UsbLink) : UsbHost :=
  h.setQhd n { h.qhd n with next := l }

section Set

variable (h : UsbHost) {n k : UsbNode} (q : UsbQhd) (l : UsbLink)

@[simp] theorem setQhd_self : (h.setQhd n q).qhd n = q := if_pos rfl

theorem setQhd_of_ne (hk : k ≠ n) : (h.setQhd n q).qhd k = h.qhd k := if_neg hk

@[simp] theorem setNext_next : ((h.setNext n l).qhd n).next = l :=
  congrArg UsbQhd.next (setQhd_self h _)

/-- Linking one queue head leaves the links of the others. -/
theorem setNext_of_ne (hk : k ≠ n) : (h.setNext n l).qhd k = h.qhd k := setQhd_of_ne h _ hk

@[simp] theorem setNext_devAddr : ((h.setNext n l).qhd k).devAddr = (h.qhd k).devAddr := by
  by_cases hk : k = n
  · subst hk
    rw [setNext, setQhd_self]
  · rw [setNext_of_ne h l hk]

end Set

end UsbHost

/-! ## Lists -/

/-- `usb_host_list_insert`. -/
def usbHostListInsert (h : UsbHost) (current new : UsbNode) : UsbHost :=
  let h := h.setNext new (h.qhd current).next
  h.setNext current (UsbLink.to new)

/-- `usb_host_list_insert` on an entry of the frame list. -/
def usbHostFramelistInsert (h : UsbHost) (current : Fin usbHostFramelistSize) (new : UsbNode) :
    UsbHost :=
  let h := h.setNext new (h.framelist current)
  { h with framelist := fun i => if i = current then UsbLink.to new else h.framelist i }

/-- Mark a queue head that was taken out: one of a periodic list is free, one of
the asynchronous list waits for the async advance. -/
def UsbQhd.release (q : UsbQhd) : UsbQhd :=
  if q.intSmask ≠ 0 then { q with used := false } else { q with removing := true }

@[simp] theorem UsbQhd.release_devAddr (q : UsbQhd) : q.release.devAddr = q.devAddr := by
  unfold UsbQhd.release
  split <;> rfl

/-- Take `qhd` out behind `prev` and leave it linked to the list head. -/
def usbHostUnlink (h : UsbHost) (listHead prev qhd : UsbNode) : UsbHost :=
  let h := h.setNext prev (h.qhd qhd).next
  let h := h.setNext qhd (UsbLink.to listHead)
  h.setQhd qhd (h.qhd qhd).release

/-- The loop of `usb_host_list_remove_qhd_by_addr` from `prev` on, for at most so
many passes; the queue heads it goes through are added to `seen`. -/
def usbHostListRemoveLoop (listHead : UsbNode) (devAddr : BitVec 8) :
    Nat → UsbHost → Option UsbNode → List UsbNode → Option (UsbHost × List UsbNode)
  | 0, _, _, _ => none
  | _ + 1, _, none, _ => none
  | n + 1, h, some prev, seen =>
    let link := (h.qhd prev).next
    if link.terminate = true ∨ link.address = some listHead then some (h, seen ++ [prev])
    else
      match link.address with
      | none => none
      | some qhd =>
        if (h.qhd qhd).devAddr.setWidth 8 = devAddr then
          let h := usbHostUnlink h listHead prev qhd
          usbHostListRemoveLoop listHead devAddr n h (h.qhd prev).next.address
            (seen ++ [prev, qhd])
        else usbHostListRemoveLoop listHead devAddr n h (some qhd) (seen ++ [prev, qhd])

/-- `usb_host_list_remove_qhd_by_addr`. -/
def usbHostListRemoveQhdByAddr (passes : Nat) (devAddr : BitVec 8) (s : UsbHost × List UsbNode)
    (listHead : UsbNode) : Option (UsbHost × List UsbNode) :=
  usbHostListRemoveLoop listHead devAddr passes s.1 (some listHead) s.2

/-- `usb_host_device_close`, with at most so many passes of each loop. -/
def usbHostDeviceClose (passes : Nat) (h : UsbHost) (devAddr : BitVec 8) :
    Option (UsbHost × List UsbNode) :=
  if devAddr = 0 then some (h, [])
  else
    (usbHostListRemoveQhdByAddr passes devAddr (h, []) usbHostQhdAsyncHead).bind fun s =>
      ([0, 1, 2, 3] : List (Fin usbHcdPeriodicArrCount)).foldlM
        (fun s i => usbHostListRemoveQhdByAddr passes devAddr s (.period i)) s

/-! ## Queue heads -/

/-- `usb_host_qhd_find_free`. -/
def usbHostQhdFindFree (h : UsbHost) : Option UsbNode :=
  ((List.finRange usbSocHcdMaxEndpointCount).find? fun i => !(h.qhd (.pool i)).used).map .pool

/-- The part of `usb_host_qhd_init` that schedules interrupt endpoints; `none`
where the interval is refused. -/
def usbHostQhdInitInterval (q : UsbQhd) (speed : UsbSpeed) (interval : Nat) : Option UsbQhd :=
  if speed = .high then
    if 16 < interval then none
    else if interval < 4 then
      some { q with
        intervalMs := 0
        intSmask := if interval = 1 then 0b11111111 else if interval = 2 then 0b10101010
          else 0b01000100 }
    else
      some { q with
        intervalMs := BitVec.ofNat 8 (min (1 <<< (interval - 4)) 255)
        intSmask := BitVec.ofNat 8 (1 <<< (interval % 8)) }
  else if interval = 0 then none
  else some { q with intSmask := 1, intervalMs := BitVec.ofNat 8 interval }

/-- `usb_host_qhd_init`. -/
def usbHostQhdInit (q : UsbQhd) (devAddr : BitVec 8) (speed : UsbSpeed) (desc : UsbDescEndpoint) :
    Bool × UsbQhd :=
  let q := if devAddr ≠ 0 then UsbQhd.zero else q
  let q := { q with
    devAddr := devAddr.setWidth 7
    epNumber := (desc.bEndpointAddress &&& 0x7F).setWidth 4 }
  let scheduled :=
    if desc.xfer = .interrupt then usbHostQhdInitInterval q speed desc.bInterval.toNat
    else some { q with intSmask := 0 }
  match scheduled with
  | none => (false, q)
  | some q =>
    (true, { q with
      used := true, removing := false, pidIn := decide (desc.bEndpointAddress &&& 0x80 ≠ 0) })

/-- `usb_log2`: how often a value can be halved. -/
def usbLog2 (value : Nat) : Nat := Nat.log2 value

/-- `usb_host_get_period_head`. -/
def usbHostGetPeriodHead (intervalMs : BitVec 8) : UsbNode :=
  .period (Fin.ofNat usbHcdPeriodicArrCount (usbLog2 (min usbHostFramelistSize intervalMs.toNat)))

/-- The queue head that `usb_host_edpt_open` takes. -/
def usbHostOpenQhd (h : UsbHost) (devAddr : BitVec 8) (desc : UsbDescEndpoint) : Option UsbNode :=
  if desc.bEndpointAddress = 0 then
    if hlt : devAddr.toNat < usbHcdMaxConnectedDevices + 1 then some (.control ⟨devAddr.toNat, hlt⟩)
    else none
  else usbHostQhdFindFree h

/-- The list that `usb_host_edpt_open` inserts into. -/
def usbHostOpenHead (xfer : UsbXfer) (intervalMs : BitVec 8) : UsbNode :=
  if xfer = .interrupt then usbHostGetPeriodHead intervalMs else usbHostQhdAsyncHead

/-- `usb_host_edpt_open`. -/
def usbHostEdptOpen (h : UsbHost) (devAddr : BitVec 8) (speed : UsbSpeed)
    (desc : UsbDescEndpoint) : Option (Bool × UsbHost) :=
  if desc.xfer = .isochronous then some (false, h)
  else
    (usbHostOpenQhd h devAddr desc).map fun n =>
      let q := (usbHostQhdInit (h.qhd n) devAddr speed desc).2
      let h := h.setQhd n q
      (true, usbHostListInsert h (usbHostOpenHead desc.xfer q.intervalMs) n)

/-! ## Setting up -/

/-- `usb_host_init_async_list`. -/
def usbHostInitAsyncList (h : UsbHost) : UsbHost :=
  h.setQhd usbHostQhdAsyncHead { UsbQhd.zero with next := UsbLink.to usbHostQhdAsyncHead }

/-- `usb_host_init_periodic_list`. -/
def usbHostInitPeriodicList (h : UsbHost) : UsbHost :=
  let h := ([0, 1, 2, 3] : List (Fin usbHcdPeriodicArrCount)).foldl
    (fun h i => h.setQhd (.period i) { h.qhd (.period i) with intSmask := 1 }) h
  let h := { h with framelist := fun _ => UsbLink.to (.period usbPeriod1ms) }
  let h := ([0, 2, 4, 6] : List (Fin usbHostFramelistSize)).foldl
    (fun h i => usbHostFramelistInsert h i (.period 1)) h
  let h := ([1, 5] : List (Fin usbHostFramelistSize)).foldl
    (fun h i => usbHostFramelistInsert h i (.period 2)) h
  let h := usbHostFramelistInsert h 3 (.period 3)
  h.setNext (.period usbPeriod1ms) { (h.qhd (.period usbPeriod1ms)).next with terminate := true }

/-- `usb_host_init`. -/
def usbHostInit : UsbHost :=
  usbHostInitPeriodicList (usbHostInitAsyncList
    { qhd := fun _ => UsbQhd.zero, framelist := fun _ => ⟨none, false⟩ })

/-! ## The interrupt that frees queue heads -/

/-- `async_advance_isr` (`hcd_hpm.c`), with `HCD_MAX_ENDPOINT` the size of the pool. -/
def asyncAdvanceIsr (h : UsbHost) : UsbHost :=
  (List.finRange usbSocHcdMaxEndpointCount).foldl
    (fun h i =>
      if (h.qhd (.pool i)).removing then
        h.setQhd (.pool i) { h.qhd (.pool i) with removing := false, used := false }
      else h) h

end HpmSdk.Usb
