import HpmSdk.Foundation.History
import HpmSdk.Usb.DcdEndpoints
import HpmSdk.Usb.Transfer

set_option autoImplicit false

/-!
# USB device: two root ports (`dcd_hpm.c`, `hpm_usb_device.c`)

Each root port has a controller with registers of its own.  The queue heads and the transfer
descriptors are in one object, `_dcd_data`, to which `dcd_init` points the handle of every port.

What the application is told are events; a transfer that ends between the two accesses of a handler
comes late.
-/

namespace HpmSdk.Usb

open HpmSdk.Foundation HpmSdk.Soc

/-! ## Data -/

/-- `USB_SOC_MAX_COUNT`. -/
def usbSocMaxCount : BitVec 8 := 2

/-- `USB_SOS_DCD_MAX_QHD_COUNT` and `USB_SOC_DCD_MAX_QTD_COUNT`. -/
abbrev usbSosDcdMaxQhdCount : Nat := usbSocDcdMaxEndpointCount * 2

/-- An `ep_idx`. -/
abbrev DcdEpIdx : Type := Fin usbSosDcdMaxQhdCount

/-- The root ports that have a controller. -/
inductive UsbRhport where
  | usb0
  | usb1
  deriving DecidableEq, Repr

/-- The other port. -/
def UsbRhport.other : UsbRhport → UsbRhport
  | usb0 => usb1
  | usb1 => usb0

/-- The port with a number: the index into `_dcd_controller`. -/
def UsbRhport.ofNumber (rhport : BitVec 8) : Option UsbRhport :=
  if rhport = 0 then some usb0 else if rhport = 1 then some usb1 else none

/-- `dcd_qtd_t`, with the status bits. -/
structure DcdQtdRam extends DcdQtd where
  xactErr : Bool
  bufferErr : Bool
  halted : Bool

/-- `dcd_qhd_t`, without the words that only the controller uses. -/
structure DcdQhd where
  intOnSetup : Bool
  maxPacketSize : BitVec 11
  zeroLengthTermination : Bool
  /-- `qtd_overlay.next`. -/
  next : BitVec 32
  setupRequest : BitVec 64
  deriving DecidableEq, Repr

/-- `dcd_data_t`, with the queue heads. -/
structure DcdRam where
  qhd : DcdEpIdx → DcdQhd
  qtd : DcdEpIdx → DcdQtdRam

/-- After `memset(.., 0, ..)`. -/
def DcdQtdRam.zero : DcdQtdRam := ⟨⟨0, false, false, 0, 0, fun _ => 0⟩, false, false, false⟩

/-- After `memset(.., 0, ..)`. -/
def DcdQhd.zero : DcdQhd := ⟨false, 0, false, 0, 0⟩

/-- After `memset(.., 0, ..)`. -/
def DcdRam.zero : DcdRam := ⟨fun _ => .zero, fun _ => .zero⟩

/-- What the build decides: where `_dcd_data` lies, and `CFG_TUD_ENDPOINT0_SIZE`. -/
structure DcdConfig where
  dataAddress : BitVec 32
  endpoint0Size : BitVec 16

/-- The system address of a transfer descriptor: behind 16 heads of 64 bytes. -/
def DcdConfig.qtdAddress (cfg : DcdConfig) (i : DcdEpIdx) : BitVec 32 :=
  coreLocalMemToSysAddress .core0 (cfg.dataAddress + 1024 + 32 * BitVec.ofNat 32 i.val)

/-! ## Registers -/

/-- The registers of the controller of a port, and its `usb_device_handle`. -/
structure DcdPort where
  /-- `dcd_init` has set the handle. -/
  handle : Bool
  /-- `ENDPTLISTADDR` is the address of the queue heads; else it is zero. -/
  endptlistaddr : Bool
  /-- `USBCMD_RS`. -/
  run : Bool
  usbintr : BitVec 32
  endptsetupstat : BitVec 32
  /-- The endpoints that are primed. -/
  endptstat : BitVec 32
  endptcomplete : BitVec 32
  deriving DecidableEq, Repr

/-- A controller behind the reset of the chip. -/
def DcdPort.init : DcdPort := ⟨false, false, false, 0, 0, 0, 0⟩

/-- `USBINTR_UE | USBINTR_UEE | USBINTR_PCE | USBINTR_URE`. -/
def dcdIntMask : BitVec 32 := 0x47

/-- `intr_usb`. -/
def intrUsb : BitVec 32 := 1 <<< 0

/-- `intr_port_change`. -/
def intrPortChange : BitVec 32 := 1 <<< 2

/-- `intr_reset`. -/
def intrReset : BitVec 32 := 1 <<< 6

/-- `intr_sof`. -/
def intrSof : BitVec 32 := 1 <<< 7

/-- `intr_suspend`. -/
def intrSuspend : BitVec 32 := 1 <<< 8

/-- `ep_idx2bit`. -/
def epIdx2bit (i : DcdEpIdx) : Nat := i.val / 2 + if i.val % 2 ≠ 0 then 16 else 0

/-- `ep_addr & 0x0f`. -/
def dcdEpNum (addr : BitVec 8) : Nat := (addr &&& 0x0f).toNat

/-- `(ep_addr & 0x80) >> 7`. -/
def dcdEpDir (addr : BitVec 8) : Nat := ((addr &&& 0x80) >>> 7).toNat

theorem dcdEpDir_lt (addr : BitVec 8) : dcdEpDir addr < 2 := by
  unfold dcdEpDir
  rw [BitVec.toNat_ushiftRight, Nat.shiftRight_eq_div_pow]
  have hlt := (addr &&& 0x80).isLt
  omega

/-- The index of an endpoint that the controller has. -/
def dcdEpIdx (addr : BitVec 8) (h : dcdEpNum addr < usbSocDcdMaxEndpointCount) : DcdEpIdx :=
  ⟨usbDeviceEpIdx addr, by
    have hdir := dcdEpDir_lt addr
    unfold dcdEpNum at h
    unfold dcdEpDir at hdir
    unfold usbDeviceEpIdx usbSosDcdMaxQhdCount
    omega⟩

/-- An `ep_addr` of an endpoint that the controller has. -/
structure DcdEpAddr where
  addr : BitVec 8
  lt : dcdEpNum addr < usbSocDcdMaxEndpointCount
  deriving DecidableEq, Repr

/-- The index of an endpoint. -/
def DcdEpAddr.idx (a : DcdEpAddr) : DcdEpIdx := dcdEpIdx a.addr a.lt

/-- The control endpoint: its OUT direction. -/
def dcdEp0Out : DcdEpIdx := ⟨0, by decide⟩

/-- The control endpoint: its IN direction. -/
def dcdEp0In : DcdEpIdx := ⟨1, by decide⟩

/-! ## Events -/

/-- The event of a transfer that is complete. -/
structure DcdCompletion where
  rhport : UsbRhport
  epAddr : BitVec 8
  xferredBytes : BitVec 32
  result : XferResult
  deriving DecidableEq, Repr

/-- `dcd_event_t`. -/
inductive DcdEvent where
  | busReset (rhport : UsbRhport) (speed : BitVec 8)
  | suspend (rhport : UsbRhport)
  | unplugged (rhport : UsbRhport)
  | plugged (rhport : UsbRhport) (speed : BitVec 8)
  | setupReceived (rhport : UsbRhport) (setup : BitVec 64)
  | xferComplete (completion : DcdCompletion)
  | sof (rhport : UsbRhport)
  deriving DecidableEq, Repr

/-- The completion that an event reports. -/
def DcdEvent.completion : DcdEvent → Option DcdCompletion
  | xferComplete completion => some completion
  | _ => none

/-- The shared data, the ports, and the events that the stack was told. -/
structure DcdSystem where
  data : DcdRam
  port : UsbRhport → DcdPort
  events : List DcdEvent

namespace DcdSystem

/-- Before the first call, with anything in the RAM. -/
def start (data : DcdRam) : DcdSystem := ⟨data, fun _ => .init, []⟩

variable (s : DcdSystem) (p : UsbRhport)

/-- Accesses to the registers of a port. -/
def setPort (r : DcdPort) : DcdSystem := { s with port := Function.update s.port p r }

/-- Writes to the data that the handles point to. -/
def setData (d : DcdRam) : DcdSystem := { s with data := d }

/-- `dcd_event_handler`. -/
def emit (es : List DcdEvent) : DcdSystem := { s with events := s.events ++ es }

/-- What `usb_device_handle[rhport].dcd_data` points to. -/
def dcdData : Option DcdRam := if (s.port p).handle then some s.data else none

/-- The completions that were reported. -/
def completions : List DcdCompletion := s.events.filterMap DcdEvent.completion

end DcdSystem

/-! ## The controller -/

/-- What a controller leaves in a descriptor when it is done with it. -/
structure DcdFinish where
  idx : DcdEpIdx
  remaining : BitVec 15
  xactErr : Bool
  bufferErr : Bool
  halted : Bool
  deriving DecidableEq, Repr

/-- The controller works on an endpoint. -/
def DcdPort.canFinish (r : DcdPort) (i : DcdEpIdx) : Bool :=
  r.endptlistaddr && r.run && r.endptstat.getLsbD (epIdx2bit i)

/-- The registers when an endpoint is done. -/
def DcdPort.finish (r : DcdPort) (i : DcdEpIdx) : DcdPort :=
  { r with
    endptstat := r.endptstat &&& ~~~((1 : BitVec 32) <<< epIdx2bit i)
    endptcomplete := r.endptcomplete ||| (1 : BitVec 32) <<< epIdx2bit i }

/-- The token that is written back. -/
def DcdQtdRam.finish (q : DcdQtdRam) (f : DcdFinish) : DcdQtdRam :=
  { q with
    active := false, totalBytes := f.remaining
    xactErr := f.xactErr, bufferErr := f.bufferErr, halted := f.halted }

namespace DcdSystem

variable (s : DcdSystem) (p : UsbRhport)

/-- A controller is done with the descriptor of an endpoint that was primed. -/
def finish (f : DcdFinish) : DcdSystem :=
  if (s.port p).canFinish f.idx then
    (s.setPort p ((s.port p).finish f.idx)).setData
      { s.data with qtd := Function.update s.data.qtd f.idx ((s.data.qtd f.idx).finish f) }
  else s

/-- A setup packet arrives. -/
def setupPacket (request : BitVec 64) : DcdSystem :=
  if (s.port p).endptlistaddr && (s.port p).run then
    (s.setPort p
      { s.port p with endptsetupstat := (s.port p).endptsetupstat ||| 1 }).setData
      { s.data with
        qhd := Function.update s.data.qhd dcdEp0Out
          { s.data.qhd dcdEp0Out with setupRequest := request } }
  else s

end DcdSystem

/-! ## The driver -/

section Driver

variable (cfg : DcdConfig) (s : DcdSystem) (p : UsbRhport)

/-- `usb_qtd_init`, behind its `memset`. -/
def dcdQtdInit (dataPtr : BitVec 32) (totalBytes : BitVec 16) : DcdQtdRam :=
  { usbQtdInit dataPtr totalBytes with xactErr := false, bufferErr := false, halted := false }

/-- The queue head of an endpoint that is opened. -/
def dcdQhdOpen (maxPacketSize : BitVec 16) : DcdQhd :=
  { DcdQhd.zero with
    zeroLengthTermination := true
    maxPacketSize := maxPacketSize.setWidth 11
    next := usbSocDcdQtdNextInvalid }

/-- The data behind a bus reset. -/
def dcdRamReset : DcdRam where
  qhd := fun i =>
    if i = dcdEp0Out then { dcdQhdOpen cfg.endpoint0Size with intOnSetup := true }
    else if i = dcdEp0In then dcdQhdOpen cfg.endpoint0Size
    else .zero
  qtd := fun _ => .zero

/-- `usb_device_bus_reset`: every endpoint is flushed. -/
def dcdBusReset : DcdSystem :=
  (s.setPort p { s.port p with endptsetupstat := 0, endptstat := 0, endptcomplete := 0 }).setData
    (dcdRamReset cfg)

/-- `usb_device_init`: the data is cleared, the controller is reset and started. -/
def usbDeviceInit : DcdSystem :=
  (s.setPort p
    { handle := true, endptlistaddr := true, run := true
      usbintr := (s.port p).usbintr ||| dcdIntMask
      endptsetupstat := 0, endptstat := 0, endptcomplete := 0 }).setData .zero

/-- `dcd_init`.  The number 2 passes the check: the handle and the controller that it takes are
behind their arrays, and the handle points to the same data. -/
def dcdInit (rhport : BitVec 8) : Bool × DcdSystem :=
  if rhport > usbSocMaxCount then (false, s)
  else
    match UsbRhport.ofNumber rhport with
    | some p => (true, usbDeviceInit s p)
    | none => (true, s.setData .zero)

/-- `usb_device_deinit`.  The controller is reset, so that nothing is left to be flushed. -/
def usbDeviceDeinit : DcdSystem :=
  (s.setPort p { DcdPort.init with handle := (s.port p).handle }).setData .zero

/-- `usb_device_edpt_open`.  `ENDPTCTRL` is not read here. -/
def dcdEdptOpen (xfer : UsbXferType) (addr : BitVec 8) (maxPacketSize : BitVec 16) :
    Bool × DcdSystem :=
  if xfer = .isochronous then (false, s)
  else if h : dcdEpNum addr < usbSocDcdMaxEndpointCount then
    (true, s.setData
      { s.data with
        qhd := Function.update s.data.qhd (dcdEpIdx addr h) (dcdQhdOpen maxPacketSize) })
  else (false, s)

/-- The data behind the submission of a transfer. -/
def dcdRamXfer (d : DcdRam) (i : DcdEpIdx) (buffer : BitVec 32) (totalBytes : BitVec 16) :
    DcdRam where
  qhd := Function.update d.qhd i { d.qhd i with next := cfg.qtdAddress i }
  qtd := Function.update d.qtd i
    { dcdQtdInit (usbBufferAddress .core0 buffer) totalBytes
      with intOnComplete := true }

/-- The descriptors behind a submission are those of `usbDeviceEdptXfer`, which knows no queue
heads. -/
theorem dcdRamXfer_qtd (d : DcdRam) (d' : DcdData) (addr : DcdEpAddr) (buffer : BitVec 32)
    (totalBytes : BitVec 16) (h : ∀ k, d'.qtd k = (d.qtd k).toDcdQtd) :
    ∃ d'', usbDeviceEdptXfer d' addr.addr buffer totalBytes = some (true, d'') ∧
      ∀ k, d''.qtd k = ((dcdRamXfer cfg d addr.idx buffer totalBytes).qtd k).toDcdQtd := by
  refine ⟨_, dif_pos addr.idx.isLt, fun k => ?_⟩
  dsimp only [dcdRamXfer]
  by_cases hk : k = addr.idx
  · rw [hk, Function.update_self]
    exact if_pos rfl
  · rw [Function.update_of_ne hk, ← h]
    exact if_neg hk

/-- A transfer of an endpoint does not wait: on the control endpoint no setup packet is
pending. -/
def DcdPort.canSubmit (r : DcdPort) (i : DcdEpIdx) : Bool :=
  r.handle && !(decide (i.val / 2 = 0) && r.endptsetupstat.getLsbD 0)

/-- `usb_device_edpt_xfer`, at the end of its wait. -/
def dcdEdptXfer (i : DcdEpIdx) (buffer : BitVec 32) (totalBytes : BitVec 16) : DcdSystem :=
  if (s.port p).canSubmit i then
    (s.setPort p
      { s.port p with
        endptstat := (s.port p).endptstat ||| (1 : BitVec 32) <<< epIdx2bit i }).setData
      (dcdRamXfer cfg s.data i buffer totalBytes)
  else s

/-- `usb_dcd_edpt_close`, of which the endpoints that it flushes are seen here. -/
def dcdEdptClose (addr : BitVec 8) : DcdSystem :=
  s.setPort p
    { s.port p with
      endptstat := (s.port p).endptstat &&&
        ~~~((1 : BitVec 32) <<< dcdEpNum addr + if dcdEpDir addr ≠ 0 then 16 else 0) }

/-! ## The interrupt -/

/-- What a handler finds: `USBSTS`, the state of the port, and the endpoints that the controller
is done with between the read of `ENDPTCOMPLETE` and the write that clears it. -/
structure DcdLine where
  status : BitVec 32
  speed : BitVec 8
  suspended : Bool
  addressed : Bool
  connected : Bool
  resetting : Bool
  late : List DcdFinish
  deriving DecidableEq, Repr

/-- The result that a descriptor tells. -/
def DcdQtdRam.result (q : DcdQtdRam) : XferResult :=
  if q.halted then .stalled else if q.xactErr || q.bufferErr then .failed else .success

/-- `(ep_idx/2) | ((ep_idx & 0x01) ? TUSB_DIR_IN_MASK : 0)`. -/
def dcdEpAddrOf (i : DcdEpIdx) : BitVec 8 :=
  BitVec.ofNat 8 (i.val / 2) ||| if i.val % 2 ≠ 0 then 0x80 else 0

/-- The event of an endpoint. -/
def DcdQtdRam.completion (q : DcdQtdRam) (p : UsbRhport) (i : DcdEpIdx) : DcdCompletion where
  rhport := p
  epAddr := dcdEpAddrOf i
  xferredBytes := q.expectedBytes.setWidth 32 - q.totalBytes.setWidth 32
  result := q.result

/-- The loop over the endpoints. -/
def dcdCompletions (d : DcdRam) (complete : BitVec 32) : List DcdCompletion :=
  (List.finRange usbSosDcdMaxQhdCount).filterMap fun i =>
    if complete.getLsbD (epIdx2bit i) then some ((d.qtd i).completion p i) else none

variable (intStatus : BitVec 32) (line : DcdLine)

/-- The branch of `intr_reset`. -/
def dcdIntReset : DcdSystem :=
  if intStatus &&& intrReset ≠ 0 then
    (dcdBusReset cfg s p).emit [.busReset p line.speed]
  else s

/-- The branches of `intr_suspend` and `intr_port_change`. -/
def dcdIntSignals : List DcdEvent :=
  (if intStatus &&& intrSuspend ≠ 0 && line.suspended && line.addressed then [.suspend p] else []) ++
    if intStatus &&& intrPortChange ≠ 0 then
      if !line.connected then [.unplugged p]
      else if !line.resetting then [.plugged p line.speed] else []
    else []

/-- A setup packet is acknowledged and reported. -/
def dcdIntSetup : DcdSystem :=
  if (s.port p).endptsetupstat ≠ 0 then
    (s.setPort p { s.port p with endptsetupstat := 0 }).emit
      [.setupReceived p (s.data.qhd dcdEp0Out).setupRequest]
  else s

/-- The branch of `intr_usb`.  A bit of `ENDPTCOMPLETE` is cleared by writing it, and the mask is
ored into what is read. -/
def dcdIntUsb : DcdSystem :=
  if intStatus &&& intrUsb ≠ 0 then
    let complete := (s.port p).endptcomplete
    let s := line.late.foldl (fun s f => s.finish p f) s
    let s := s.setPort p
      { s.port p with
        endptcomplete := (s.port p).endptcomplete &&& ~~~((s.port p).endptcomplete ||| complete) }
    let s := dcdIntSetup s p
    s.emit ((dcdCompletions p s.data complete).map .xferComplete)
  else s

/-- `dcd_int_handler`. -/
def dcdIntHandler : DcdSystem :=
  let intStatus := line.status &&& (s.port p).usbintr
  if intStatus = 0 then s
  else
    let s := dcdIntReset cfg s p intStatus line
    let s := s.emit (dcdIntSignals p intStatus line)
    let s := dcdIntUsb s p intStatus line
    s.emit (if intStatus &&& intrSof ≠ 0 then [.sof p] else [])

end Driver

/-! ## Runs -/

/-- A call of the driver, an interrupt, or what a controller does. -/
inductive DcdStep where
  | init (rhport : BitVec 8)
  | deinit (p : UsbRhport)
  | connect (p : UsbRhport)
  | disconnect (p : UsbRhport)
  | setAddress (p : UsbRhport)
  | edptOpen (p : UsbRhport) (xfer : UsbXferType) (addr : BitVec 8) (maxPacketSize : BitVec 16)
  | edptXfer (p : UsbRhport) (addr : DcdEpAddr) (buffer : BitVec 32) (totalBytes : BitVec 16)
  | edptStall (p : UsbRhport) (addr : DcdEpAddr)
  | edptClearStall (p : UsbRhport) (addr : DcdEpAddr)
  | edptClose (p : UsbRhport) (addr : DcdEpAddr)
  | interrupt (p : UsbRhport) (line : DcdLine)
  | finish (p : UsbRhport) (f : DcdFinish)
  | setup (p : UsbRhport) (request : BitVec 64)
  deriving DecidableEq, Repr

/-- The port of a step. -/
def DcdStep.port : DcdStep → Option UsbRhport
  | init rhport => UsbRhport.ofNumber rhport
  | deinit p | connect p | disconnect p | setAddress p | edptOpen p _ _ _ | edptXfer p _ _ _
  | edptStall p _ | edptClearStall p _ | edptClose p _ | interrupt p _ | finish p _
  | setup p _ => some p

/-- The step is one of a controller. -/
def DcdStep.ofController : DcdStep → Bool
  | finish _ _ | setup _ _ => true
  | _ => false

/-- A step.  A call that goes through a handle that no `dcd_init` has set is not made. -/
def dcdStep (cfg : DcdConfig) (s : DcdSystem) : DcdStep → DcdSystem
  | .init rhport => (dcdInit s rhport).2
  | .deinit p => if (s.port p).handle then usbDeviceDeinit s p else s
  | .connect p => if (s.port p).handle then s.setPort p { s.port p with run := true } else s
  | .disconnect p => if (s.port p).handle then s.setPort p { s.port p with run := false } else s
  | .setAddress p => dcdEdptXfer cfg s p dcdEp0In 0 0
  | .edptOpen p xfer addr maxPacketSize =>
    if (s.port p).handle then (dcdEdptOpen s xfer addr maxPacketSize).2 else s
  | .edptXfer p addr buffer totalBytes => dcdEdptXfer cfg s p addr.idx buffer totalBytes
  | .edptStall _ _ | .edptClearStall _ _ => s
  | .edptClose p addr => if (s.port p).handle then dcdEdptClose s p addr.addr else s
  | .interrupt p line => dcdIntHandler cfg s p line
  | .finish p f => s.finish p f
  | .setup p request => s.setupPacket p request

end HpmSdk.Usb
