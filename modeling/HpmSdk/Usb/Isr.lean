import HpmSdk.Usb.HostOpen

set_option autoImplicit false

/-!
# USB host: completion and error interrupts (`hcd_hpm.c`)

What the interrupts do with the queues of transfer descriptors, what the controller does
with a descriptor, and the functions that set a queue up and clear a stall.  The
interrupts return what they freed and reported, in order; a pointer is followed where it
leads, so `none` is `NULL`, an index beyond an array, or a loop that does not end.
-/

namespace HpmSdk.Usb

/-! ## Events -/

/-- What `hcd_event_xfer_complete` is called with; the bytes are counted in 16 bits. -/
structure UsbEvent where
  devAddr : BitVec 7
  epAddr : BitVec 8
  bytes : BitVec 16
  result : XferResult
  deriving DecidableEq, Repr

/-- What an interrupt does that others see: a descriptor of a queue head is free again, or
an event is reported for a queue head. -/
inductive UsbTrace where
  | freed (n : UsbNode) (t : UsbQtdNode)
  | event (n : UsbNode) (e : UsbEvent)
  deriving DecidableEq, Repr

/-! ## Completion -/

/-- `usb_host_qtd_remove_1st_from_qhd`. -/
def usbHostQtdRemove1stFromQhd (h : UsbHcd) (n : UsbNode) : Option UsbHcd :=
  if (h.queue n).listHead = (h.queue n).listTail then
    some (h.setQueue n { h.queue n with listHead := none, listTail := none })
  else
    (h.queue n).listHead.map fun t =>
      h.setQueue n { h.queue n with listHead := (h.qtd t).next.address }

/-- The bytes of a descriptor are added to those of its queue head, and it is free. -/
def usbHostCollect (h : UsbHcd) (n : UsbNode) (t : UsbQtdNode) : UsbHcd :=
  let total := (h.queue n).totalXferredBytes +
    ((h.qtd t).expectedBytes - (h.qtd t).totalBytes.setWidth 16)
  (h.setQueue n { h.queue n with totalXferredBytes := total }).setQtd t
    { h.qtd t with used := false }

/-- The event for a queue head. -/
def usbHostEvent (h : UsbHcd) (n : UsbNode) (result : XferResult) : UsbEvent where
  devAddr := (h.host.qhd n).devAddr
  epAddr := usbEdptAddr (h.host.qhd n).epNumber ((h.queue n).overlay.pid = .input)
  bytes := (h.queue n).totalXferredBytes
  result := result

/-- `p_qhd->total_xferred_bytes = 0`. -/
def usbHostClearTotal (h : UsbHcd) (n : UsbNode) : UsbHcd :=
  h.setQueue n { h.queue n with totalXferredBytes := 0 }

/-- The passes that a loop over a queue is followed for: it has fewer descriptors. -/
abbrev usbQueuePasses : Nat := 23

/-- The passes that a loop over a list is followed for: it has fewer queue heads. -/
abbrev usbListPasses : Nat := 19

/-- The loop of `qhd_xfer_complete_isr`, for at most so many passes. -/
def qhdXferCompleteLoop : Nat → UsbHcd → UsbNode → Option (UsbHcd × List UsbTrace)
  | 0, _, _ => none
  | k + 1, h, n =>
    match (h.queue n).listHead with
    | none => some (h, [])
    | some t =>
      if (h.qtd t).active then some (h, [])
      else
        let isIoc := (h.qtd t).intOnComplete
        (usbHostQtdRemove1stFromQhd (usbHostCollect h n t) n).bind fun h =>
          if isIoc then
            (qhdXferCompleteLoop k (usbHostClearTotal h n) n).map fun r =>
              (r.1, .freed n t :: .event n (usbHostEvent h n .success) :: r.2)
          else (qhdXferCompleteLoop k h n).map fun r => (r.1, .freed n t :: r.2)

/-- `qhd_xfer_complete_isr`. -/
def qhdXferCompleteIsr (h : UsbHcd) (n : UsbNode) : Option (UsbHcd × List UsbTrace) :=
  qhdXferCompleteLoop usbQueuePasses h n

/-- A queue head that is halted is left to the error interrupt. -/
def qhdXferCompleteUnlessHalted (h : UsbHcd) (n : UsbNode) : Option (UsbHcd × List UsbTrace) :=
  if (h.queue n).overlay.halted then some (h, []) else qhdXferCompleteIsr h n

/-! ## Errors -/

/-- `usb_host_qhd_has_xact_error`. -/
def usbHostQhdHasXactError (q : UsbQueue) : Bool :=
  q.overlay.bufferErr || q.overlay.babbleErr || q.overlay.xactErr

/-- The queue heads that the error interrupt acts on; device 0 cannot stall. -/
def UsbHcd.ReportsError (h : UsbHcd) (n : UsbNode) : Prop :=
  ((h.host.qhd n).devAddr ≠ 0 ∧ (h.queue n).overlay.halted = true) ∨
    usbHostQhdHasXactError (h.queue n) = true

instance (h : UsbHcd) (n : UsbNode) : Decidable (h.ReportsError n) :=
  inferInstanceAs (Decidable (_ ∨ _))

/-- What the error interrupt does for a control endpoint, which cannot be halted. -/
def usbHostClearControl (h : UsbHcd) (n : UsbNode) : Option UsbHcd :=
  let q := h.queue n
  let overlay := { q.overlay with next := { q.overlay.next with terminate := true }, halted := false }
  let h := h.setQueue n { q with listHead := none, listTail := none, overlay := overlay }
  (usbHostQtdControl ((h.host.qhd n).devAddr.setWidth 8)).map fun setup =>
    h.setQtd setup { h.qtd setup with used := false }

/-- `qhd_xfer_error_isr`. -/
def qhdXferErrorIsr (h : UsbHcd) (n : UsbNode) : Option (UsbHcd × List UsbTrace) :=
  if h.ReportsError n then
    let errorEvent : XferResult := if usbHostQhdHasXactError (h.queue n) then .failed else .stalled
    (h.queue n).listHead.bind fun t =>
      (usbHostQtdRemove1stFromQhd (usbHostCollect h n t) n).bind fun h =>
        (if (h.host.qhd n).epNumber = 0 then usbHostClearControl h n else some h).map fun h =>
          (usbHostClearTotal h n, [.freed n t, .event n (usbHostEvent h n errorEvent)])
  else some (h, [])

/-! ## Going through the lists -/

/-- The loop over the asynchronous list from `n` on. -/
def usbAsyncLoop (isr : UsbHcd → UsbNode → Option (UsbHcd × List UsbTrace)) :
    Nat → UsbHcd → UsbNode → Option (UsbHcd × List UsbTrace)
  | 0, _, _ => none
  | k + 1, h, n =>
    (isr h n).bind fun r =>
      match (r.1.host.qhd n).next.address with
      | none => none
      | some m =>
        if m = usbHostQhdAsyncHead then some r
        else (usbAsyncLoop isr k r.1 m).map fun r' => (r'.1, r.2 ++ r'.2)

/-- `async_list_xfer_complete_isr`. -/
def asyncListXferCompleteIsr (h : UsbHcd) : Option (UsbHcd × List UsbTrace) :=
  usbAsyncLoop qhdXferCompleteUnlessHalted usbListPasses h usbHostQhdAsyncHead

/-- The loop over a periodic list from the link `item` on; `limit` is what happens when
no passes are left. -/
def usbPeriodLoop (isr : UsbHcd → UsbNode → Option (UsbHcd × List UsbTrace))
    (limit : UsbHcd → Option (UsbHcd × List UsbTrace)) (i : Fin usbHcdPeriodicArrCount) :
    Nat → UsbHcd → UsbLink → Option (UsbHcd × List UsbTrace)
  | 0, h, _ => limit h
  | k + 1, h, item =>
    if item.terminate = true ∨ (i ≠ usbPeriod1ms ∧ item.address = some (.period usbPeriod1ms)) then
      some (h, [])
    else
      item.address.bind fun n =>
        (isr h n).bind fun r =>
          (usbPeriodLoop isr limit i k r.1 (r.1.host.qhd n).next).map fun r' => (r'.1, r.2 ++ r'.2)

/-- The `max_loop` of `period_list_xfer_complete_isr`; `usb_max_itd` is 4 and
`usb_max_sitd` is 16. -/
def TusbConfig.maxLoop (cfg : TusbConfig) : Nat := (cfg.hcdMaxEndpoint + 4 + 16) * cfg.hostDeviceMax

/-- `period_list_xfer_complete_isr` for the interval of `2 ^ i` ms. -/
def periodListXferCompleteIsr (cfg : TusbConfig) (h : UsbHcd) (i : Fin usbHcdPeriodicArrCount) :
    Option (UsbHcd × List UsbTrace) :=
  usbPeriodLoop qhdXferCompleteUnlessHalted (fun h => some (h, [])) i cfg.maxLoop h
    (h.host.qhd (.period i)).next

/-- The periodic part of `xfer_error_isr`. -/
def periodListXferErrorIsr (h : UsbHcd) (i : Fin usbHcdPeriodicArrCount) :
    Option (UsbHcd × List UsbTrace) :=
  usbPeriodLoop qhdXferErrorIsr (fun _ => none) i usbListPasses h (h.host.qhd (.period i)).next

/-- `xfer_error_isr`. -/
def xferErrorIsr (h : UsbHcd) : Option (UsbHcd × List UsbTrace) :=
  (usbAsyncLoop qhdXferErrorIsr usbListPasses h usbHostQhdAsyncHead).bind fun r =>
    (List.finRange usbHcdPeriodicArrCount).foldlM
      (fun r i => (periodListXferErrorIsr r.1 i).map fun r' => (r'.1, r.2 ++ r'.2)) r

/-! ## Endpoints -/

/-- `usb_host_edpt_clear_stall`. -/
def usbHostEdptClearStall (h : UsbHcd) (devAddr epAddr : BitVec 8) : Option (Bool × UsbHcd) :=
  (usbHostQhdGetFromAddr h.host devAddr epAddr).map fun n =>
    (true, h.setQueue n
      { h.queue n with overlay := { (h.queue n).overlay with halted := false } })

/-- What `usb_host_qhd_init` does with the queue; where the interval is refused only the
first part. -/
def usbHostQueueInit (q : UsbQueue) (devAddr : BitVec 8) (speed : UsbSpeed)
    (desc : UsbDescEndpoint) : UsbQueue :=
  let q := if devAddr ≠ 0 then UsbQueue.zero else q
  if desc.IntervalOk speed then
    let ping := desc.xfer = .bulk ∧ speed = .high ∧ usbEdptDirIn desc.bEndpointAddress = false
    { q with
      listHead := none
      listTail := none
      overlay := { q.overlay with
        halted := false
        next := { q.overlay.next with terminate := true }
        pingErr := if ping then true else q.overlay.pingErr } }
  else q

/-- `usb_host_edpt_open`. -/
def usbHcdEdptOpen (h : UsbHcd) (devAddr : BitVec 8) (speed : UsbSpeed) (desc : UsbDescEndpoint) :
    Option (Bool × UsbHcd) :=
  (usbHostEdptOpen h.host devAddr speed desc).map fun r =>
    match usbHostOpenQhd h.host devAddr desc with
    | some n =>
      if r.1 then
        (true, { h with host := r.2 }.setQueue n (usbHostQueueInit (h.queue n) devAddr speed desc))
      else (false, h)
    | none => (r.1, { h with host := r.2 })

/-- `hcd_data_t` after `usb_host_init`. -/
def usbHcdInit : UsbHcd where
  host := usbHostInit
  queue := fun n =>
    match n with
    | .control i => if i = 0 then { UsbQueue.zero with overlay := { UsbQtd.zero with
        halted := true, next := ⟨none, true⟩ } } else UsbQueue.zero
    | .period _ => { UsbQueue.zero with overlay := { UsbQtd.zero with halted := true } }
    | .pool _ => UsbQueue.zero
  qtd := fun _ => UsbQtd.zero

/-! ## The controller -/

/-- How a descriptor ends: with all or some of its bytes moved, a stall, or an error. -/
inductive UsbEnd where
  | done
  | stall
  | xact
  | babble
  | buffer
  deriving DecidableEq, Repr

/-- The first descriptor of a queue that is still active, from `t` on. -/
def usbFirstActive (h : UsbHcd) : Nat → Option UsbQtdNode → Option UsbQtdNode
  | k + 1, some t =>
    if (h.qtd t).active then some t else usbFirstActive h k (h.qtd t).next.address
  | _, _ => none

/-- What the controller writes back to a descriptor. -/
def UsbQtd.ended (q : UsbQtd) (left : BitVec 15) (how : UsbEnd) : UsbQtd :=
  { q with
    active := false
    totalBytes := left
    halted := decide (how ≠ .done)
    xactErr := decide (how = .xact)
    babbleErr := decide (how = .babble)
    bufferErr := decide (how = .buffer) }

/-- The controller ends the first active descriptor of a queue that is not halted, with so
many bytes left; the overlay shows what it wrote back. -/
def usbHcComplete (h : UsbHcd) (n : UsbNode) (left : BitVec 15) (how : UsbEnd) :
    Option (UsbQtdNode × UsbHcd) :=
  if (h.queue n).overlay.halted then none
  else
    (usbFirstActive h usbQueuePasses (h.queue n).listHead).bind fun t =>
      if (h.qtd t).totalBytes < left then none
      else
        let q := (h.qtd t).ended left how
        some (t, (h.setQtd t q).setQueue n { h.queue n with overlay := q })

end HpmSdk.Usb
