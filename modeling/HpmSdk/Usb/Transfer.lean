import HpmSdk.Usb.Qtd

set_option autoImplicit false

/-!
# USB: submitting transfers

The functions that give a transfer to the controller: those of the host
(`hpm_usb_host.c`), which queue descriptors at a queue head, and the one of the
device (`hpm_usb_device.c`), which has one descriptor for each endpoint.  What goes
through `NULL` or beyond an array gives `none`.
-/

namespace HpmSdk.Usb

open HpmSdk.Soc

/-! ## Endpoint addresses -/

/-- `usb_edpt_number`. -/
def usbEdptNumber (addr : BitVec 8) : BitVec 8 := addr &&& 0x7F

/-- `usb_edpt_dir`, true for `usb_dir_in`. -/
def usbEdptDirIn (addr : BitVec 8) : Bool := decide (addr &&& 0x80 ≠ 0)

/-- `usb_edpt_addr`. -/
def usbEdptAddr (num : BitVec 4) (dirIn : Bool) : BitVec 8 :=
  num.setWidth 8 ||| if dirIn then 0x80 else 0

/-! ## Data of the host -/

/-- The fields of `hcd_qhd_t` that transfers use. -/
structure UsbQueue where
  /-- `qtd_overlay`. -/
  overlay : UsbQtd
  totalXferredBytes : BitVec 16
  /-- `p_qtd_list_head`. -/
  listHead : Option UsbQtdNode
  /-- `p_qtd_list_tail`. -/
  listTail : Option UsbQtdNode

/-- After `memset(.., 0, ..)`. -/
def UsbQueue.zero : UsbQueue := ⟨UsbQtd.zero, 0, none, none⟩

/-- `hcd_data_t`. -/
structure UsbHcd where
  host : UsbHost
  queue : UsbNode → UsbQueue
  qtd : UsbQtdNode → UsbQtd

namespace UsbHcd

def setQueue (h : UsbHcd) (n : UsbNode) (q : UsbQueue) : UsbHcd :=
  { h with queue := fun k => if k = n then q else h.queue k }

def setQtd (h : UsbHcd) (t : UsbQtdNode) (q : UsbQtd) : UsbHcd :=
  { h with qtd := fun k => if k = t then q else h.qtd k }

section Set

variable (h : UsbHcd) {n m : UsbNode} {t u : UsbQtdNode} (q : UsbQueue) (d : UsbQtd)

@[simp] theorem setQueue_self : (h.setQueue n q).queue n = q := if_pos rfl

theorem setQueue_of_ne (hm : m ≠ n) : (h.setQueue n q).queue m = h.queue m := if_neg hm

@[simp] theorem setQueue_qtd : (h.setQueue n q).qtd = h.qtd := rfl

@[simp] theorem setQueue_host : (h.setQueue n q).host = h.host := rfl

@[simp] theorem setQtd_self : (h.setQtd t d).qtd t = d := if_pos rfl

theorem setQtd_of_ne (hu : u ≠ t) : (h.setQtd t d).qtd u = h.qtd u := if_neg hu

@[simp] theorem setQtd_queue : (h.setQtd t d).queue = h.queue := rfl

@[simp] theorem setQtd_host : (h.setQtd t d).host = h.host := rfl

end Set

end UsbHcd

/-! ## Finding queue heads and descriptors -/

/-- `usb_host_qhd_control`. -/
def usbHostQhdControl (devAddr : BitVec 8) : Option UsbNode :=
  if hlt : devAddr.toNat < usbHcdMaxConnectedDevices + 1 then some (.control ⟨devAddr.toNat, hlt⟩)
  else none

/-- `usb_host_qtd_control`. -/
def usbHostQtdControl (devAddr : BitVec 8) : Option UsbQtdNode :=
  if hlt : devAddr.toNat < usbHcdMaxConnectedDevices + 1 then some (.control ⟨devAddr.toNat, hlt⟩)
  else none

/-- `usb_host_qhd_get_from_addr`; whether the queue head is used does not matter. -/
def usbHostQhdGetFromAddr (h : UsbHost) (devAddr epAddr : BitVec 8) : Option UsbNode :=
  ((List.finRange usbSocHcdMaxEndpointCount).find? fun i =>
    decide ((h.qhd (.pool i)).devAddr.setWidth 8 = devAddr ∧
      epAddr = usbEdptAddr (h.qhd (.pool i)).epNumber (h.qhd (.pool i)).pidIn)).map .pool

/-- `usb_host_qtd_find_free`. -/
def usbHostQtdFindFree (h : UsbHcd) : Option UsbQtdNode :=
  ((List.finRange usbSocHcdMaxXferEndpointCount).find? fun i => !(h.qtd (.pool i)).used).map .pool

/-! ## Queues -/

/-- `usb_host_qtd_insert_to_qhd`. -/
def usbHostQtdInsertToQhd (h : UsbHcd) (n : UsbNode) (new : UsbQtdNode) : Option UsbHcd :=
  if (h.queue n).listHead = none then
    some (h.setQueue n { h.queue n with listHead := some new, listTail := some new })
  else
    (h.queue n).listTail.map fun tail =>
      (h.setQtd tail { h.qtd tail with next := ⟨some new, false⟩ }).setQueue n
        { h.queue n with listTail := some new }

/-- `p_qhd->p_qtd_list_tail->int_on_complete = 1`. -/
def usbHostTailIoc (h : UsbHcd) (n : UsbNode) : Option UsbHcd :=
  (h.queue n).listTail.map fun tail => h.setQtd tail { h.qtd tail with intOnComplete := true }

/-- Attach the head of the queue to the overlay, which starts the transfer. -/
def usbHostAttach (h : UsbHcd) (n : UsbNode) : UsbHcd :=
  h.setQueue n
    { h.queue n with overlay := { (h.queue n).overlay with next := ⟨(h.queue n).listHead, false⟩ } }

/-- Where the controller finds a buffer; `NULL` stays `NULL`. -/
def usbBufferAddress (core : HpmCore) (buffer : BitVec 32) : BitVec 32 :=
  if buffer ≠ 0 then coreLocalMemToSysAddress core buffer else buffer

/-- The `pid` of the descriptors of a queue head in the pool. -/
def UsbQhd.pid (q : UsbQhd) : UsbPid := if q.pidIn then .input else .out

/-- Make a descriptor of the control endpoint the only one of its queue. -/
def usbHostControlXfer (h : UsbHcd) (n : UsbNode) (t : UsbQtdNode) (d : UsbQtd) : UsbHcd :=
  usbHostAttach ((h.setQtd t d).setQueue n
    { h.queue n with listHead := some t, listTail := some t }) n

/-! ## Transfers of the host -/

/-- `usb_host_edpt_xfer`; `mcu` is `USB_HOST_MCU_CORE`. -/
def usbHostEdptXfer (mcu : HpmCore) (h : UsbHcd) (devAddr epAddr : BitVec 8) (buffer : BitVec 32)
    (buflen : BitVec 16) : Option (Bool × UsbHcd) :=
  let buffer := usbBufferAddress mcu buffer
  if usbEdptNumber epAddr = 0 then
    (usbHostQhdControl devAddr).bind fun n =>
      (usbHostQtdControl devAddr).map fun t =>
        (true, usbHostControlXfer h n t { usbHostQtdInit buffer buflen with
          dataToggle := true, pid := if usbEdptDirIn epAddr then .input else .out,
          intOnComplete := true })
  else
    match usbHostQhdGetFromAddr h.host devAddr epAddr, usbHostQtdFindFree h with
    | some n, some t =>
      let h := h.setQtd t { usbHostQtdInit buffer buflen with pid := (h.host.qhd n).pid }
      (usbHostQtdInsertToQhd h n t).bind fun h =>
        (usbHostTailIoc h n).map fun h => (true, usbHostAttach h n)
    | _, _ => some (false, h)

/-- `USB_SETUP_PACKET_LEN`. -/
def usbSetupPacketLen : BitVec 16 := 8

/-- `usb_host_setup_send`. -/
def usbHostSetupSend (mcu : HpmCore) (h : UsbHcd) (devAddr : BitVec 8) (setupPacket : BitVec 32) :
    Option (Bool × UsbHcd) :=
  (usbHostQhdControl devAddr).bind fun n =>
    (usbHostQtdControl devAddr).map fun t =>
      (true, usbHostControlXfer h n t
        { usbHostQtdInit (usbBufferAddress mcu setupPacket) usbSetupPacketLen with
          pid := .setup, intOnComplete := true })

/-- `usb_host_pipe_queue_xfer`: the buffer is taken as it is. -/
def usbHostPipeQueueXfer (h : UsbHcd) (devAddr epAddr : BitVec 8) (buffer : BitVec 32)
    (totalBytes : BitVec 16) : Option (Bool × UsbHcd) :=
  match usbHostQhdGetFromAddr h.host devAddr epAddr, usbHostQtdFindFree h with
  | some n, some t =>
    let h := h.setQtd t { usbHostQtdInit buffer totalBytes with pid := (h.host.qhd n).pid }
    (usbHostQtdInsertToQhd h n t).map fun h => (true, h)
  | _, _ => some (false, h)

/-- `usb_host_pipe_xfer`. -/
def usbHostPipeXfer (h : UsbHcd) (devAddr epAddr : BitVec 8) (buffer : BitVec 32)
    (totalBytes : BitVec 16) (intOnComplete : Bool) : Option (Bool × UsbHcd) :=
  (usbHostPipeQueueXfer h devAddr epAddr buffer totalBytes).bind fun r =>
    match r, usbHostQhdGetFromAddr h.host devAddr epAddr with
    | (true, h), some n =>
      (if intOnComplete then usbHostTailIoc h n else some h).map fun h => (true, usbHostAttach h n)
    | (_, h), _ => some (false, h)

/-! ## Transfers of the device -/

/-- `USB_SOC_DCD_MAX_QTD_COUNT`. -/
abbrev usbSocDcdMaxQtdCount : Nat := 16

/-- `dcd_data_t`: the descriptors, and the links of the overlays to them. -/
structure DcdData where
  qtd : Fin usbSocDcdMaxQtdCount → DcdQtd
  overlayNext : Fin usbSocDcdMaxQtdCount → Option (Fin usbSocDcdMaxQtdCount)

/-- The index of an endpoint address. -/
def usbDeviceEpIdx (epAddr : BitVec 8) : Nat :=
  2 * (epAddr &&& 0x0F).toNat + ((epAddr &&& 0x80) >>> 7).toNat

/-- `usb_device_edpt_xfer`, once the setup packet is out of the way. -/
def usbDeviceEdptXfer (d : DcdData) (epAddr : BitVec 8) (buffer : BitVec 32)
    (totalBytes : BitVec 16) : Option (Bool × DcdData) :=
  if hlt : usbDeviceEpIdx epAddr < usbSocDcdMaxQtdCount then
    let i : Fin usbSocDcdMaxQtdCount := ⟨usbDeviceEpIdx epAddr, hlt⟩
    let qtd := { usbQtdInit (usbBufferAddress .core0 buffer) totalBytes with intOnComplete := true }
    some (true, {
      qtd := fun k => if k = i then qtd else d.qtd k
      overlayNext := fun k => if k = i then some i else d.overlayNext k })
  else none

end HpmSdk.Usb
