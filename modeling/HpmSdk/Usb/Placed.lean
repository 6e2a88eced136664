import HpmSdk.Usb.Placement
import HpmSdk.Usb.Xfers

set_option autoImplicit false

/-!
# USB host: the driver on addresses (`hpm_usb_host.c`, `hcd_hpm.c`)

The functions of the driver on `hcd_data_t` with its address fields as words, for a place.  A
pointer that is taken out of a field is followed to the object at that address, mapped back or
not as the source has it; what leads to no object gives `none`.  An object that the source takes
by its name or by its index in an array is kept as such.
-/

namespace HpmSdk.Usb

open HpmSdk.Foundation HpmSdk.Soc

/-! ## Memory -/

/-- `hcd_data_t` with its address fields as words.  The links of `hcd` say what the words are
meant to lead to; nothing is decided by them.  `given` is the buffer that a descriptor was filled
for, as the caller passed it, and its length. -/
structure UsbMem where
  hcd : UsbHcd
  words : UsbWords
  regs : UsbListRegs
  given : UsbQtdNode → BitVec 32 × BitVec 16

namespace UsbWords

open Function

def setNext (w : UsbWords) (n : UsbNode) (v : BitVec 32) : UsbWords :=
  { w with next := update w.next n v }

def setOverlay (w : UsbWords) (n : UsbNode) (v : BitVec 32) : UsbWords :=
  { w with overlayNext := update w.overlayNext n v }

/-- Set the two pointers of a queue. -/
def setQueue (w : UsbWords) (n : UsbNode) (head tail : BitVec 32) : UsbWords :=
  { w with listHead := update w.listHead n head, listTail := update w.listTail n tail }

def setQtdNext (w : UsbWords) (t : UsbQtdNode) (v : BitVec 32) : UsbWords :=
  { w with qtdNext := update w.qtdNext t v }

end UsbWords

namespace Placed

variable (P : UsbPlace)

/-! ## Lists -/

/-- `usb_host_list_insert`. -/
def usbHostListInsert (m : UsbMem) (current new : UsbNode) : UsbMem :=
  { m with
    hcd := { m.hcd with host := Usb.usbHostListInsert m.hcd.host current new }
    words := (m.words.setNext new (m.words.next current)).setNext current
      (P.sys (P.node new) ||| usbQhdTyp) }

/-- `usb_host_list_insert` on an entry of the frame list. -/
def usbHostFramelistInsert (m : UsbMem) (current : Fin usbHostFramelistSize) (new : UsbNode) :
    UsbMem :=
  { m with
    hcd := { m.hcd with host := Usb.usbHostFramelistInsert m.hcd.host current new }
    words := { m.words.setNext new (m.words.framelist current) with
      framelist := Function.update m.words.framelist current (P.sys (P.node new) ||| usbQhdTyp) } }

/-- Take `qhd` out behind `prev` and leave it linked to the list head. -/
def usbHostUnlink (m : UsbMem) (listHead prev qhd : UsbNode) : UsbMem :=
  { m with
    hcd := { m.hcd with host := Usb.usbHostUnlink m.hcd.host listHead prev qhd }
    words := (m.words.setNext prev (m.words.next qhd)).setNext qhd
      (P.sys (P.node listHead) ||| usbQhdTyp) }

/-- The loop of `usb_host_list_remove_qhd_by_addr` from the pointer `prev` on. -/
def usbHostListRemoveLoop (listHead : UsbNode) (devAddr : BitVec 8) :
    Nat → UsbMem → BitVec 32 → List UsbNode → Option (UsbMem × List UsbNode)
  | 0, _, _, _ => none
  | k + 1, m, prev, seen =>
    (P.nodeAt prev).bind fun p =>
      let next := m.words.next p
      if usbLinkTerminates next = true ∨ P.back (usbHostAlign32 next) = P.node listHead then
        some (m, seen ++ [p])
      else
        (P.nodeAt (P.back (usbHostAlign32 next))).bind fun qhd =>
          if (m.hcd.host.qhd qhd).devAddr.setWidth 8 = devAddr then
            let m := usbHostUnlink P m listHead p qhd
            usbHostListRemoveLoop listHead devAddr k m (P.back (usbHostAlign32 (m.words.next p)))
              (seen ++ [p, qhd])
          else
            usbHostListRemoveLoop listHead devAddr k m (P.back (usbHostAlign32 next))
              (seen ++ [p, qhd])

/-- `usb_host_list_remove_qhd_by_addr`. -/
def usbHostListRemoveQhdByAddr (passes : Nat) (devAddr : BitVec 8) (s : UsbMem × List UsbNode)
    (listHead : UsbNode) : Option (UsbMem × List UsbNode) :=
  usbHostListRemoveLoop P listHead devAddr passes s.1 (P.node listHead) s.2

/-- `usb_host_device_close`. -/
def usbHostDeviceClose (passes : Nat) (m : UsbMem) (devAddr : BitVec 8) :
    Option (UsbMem × List UsbNode) :=
  if devAddr = 0 then some (m, [])
  else
    (usbHostListRemoveQhdByAddr P passes devAddr (m, []) usbHostQhdAsyncHead).bind fun s =>
      ([0, 1, 2, 3] : List (Fin usbHcdPeriodicArrCount)).foldlM
        (fun s i => usbHostListRemoveQhdByAddr P passes devAddr s (.period i)) s

/-! ## Opening an endpoint -/

/-- `usb_host_qhd_init`: `memset` unless it is the head of the asynchronous list, and, where the
interval is not refused, an empty queue and a terminated overlay. -/
def usbHostQhdInit (m : UsbMem) (n : UsbNode) (devAddr : BitVec 8) (speed : UsbSpeed)
    (desc : UsbDescEndpoint) : UsbMem :=
  let words :=
    if devAddr ≠ 0 then ((m.words.setNext n 0).setOverlay n 0).setQueue n 0 0 else m.words
  let words :=
    if desc.IntervalOk speed then (words.setOverlay n (words.overlayNext n ||| 1)).setQueue n 0 0
    else words
  let qhd := (Usb.usbHostQhdInit (m.hcd.host.qhd n) devAddr speed desc).2
  let hcd := { m.hcd with host := m.hcd.host.setQhd n qhd }
  { m with
    hcd := hcd.setQueue n (usbHostQueueInit (m.hcd.queue n) devAddr speed desc)
    words := words }

/-- `usb_host_edpt_open`. -/
def usbHostEdptOpen (m : UsbMem) (devAddr : BitVec 8) (speed : UsbSpeed)
    (desc : UsbDescEndpoint) : Option (Bool × UsbMem) :=
  if desc.xfer = .isochronous then some (false, m)
  else
    (usbHostOpenQhd m.hcd.host devAddr desc).map fun n =>
      let m := usbHostQhdInit m n devAddr speed desc
      (true, usbHostListInsert P m (usbHostOpenHead desc.xfer (m.hcd.host.qhd n).intervalMs) n)

/-! ## Transfers -/

/-- `usb_host_qtd_init`, and the fields that are set behind it: the links are terminated. -/
def usbHostQtdFill (m : UsbMem) (t : UsbQtdNode) (given : BitVec 32) (length : BitVec 16)
    (d : UsbQtd) : UsbMem :=
  { m with
    hcd := m.hcd.setQtd t d
    words := m.words.setQtdNext t 1
    given := Function.update m.given t (given, length) }

/-- `usb_host_qtd_insert_to_qhd`: the next link of the tail gets the pointer as it is. -/
def usbHostQtdInsertToQhd (m : UsbMem) (n : UsbNode) (new : UsbQtdNode) : Option UsbMem :=
  if m.words.listHead n = 0 then
    some { m with
      hcd := m.hcd.setQueue n { m.hcd.queue n with listHead := some new, listTail := some new }
      words := m.words.setQueue n (P.qtd new) (P.qtd new) }
  else
    (P.qtdAt (m.words.listTail n)).map fun tail =>
      { m with
        hcd := (m.hcd.setQtd tail { m.hcd.qtd tail with next := ⟨some new, false⟩ }).setQueue n
          { m.hcd.queue n with listTail := some new }
        words := (m.words.setQtdNext tail (P.qtd new)).setQueue n (m.words.listHead n)
          (P.qtd new) }

/-- `p_qhd->p_qtd_list_tail->int_on_complete = 1`. -/
def usbHostTailIoc (m : UsbMem) (n : UsbNode) : Option UsbMem :=
  (P.qtdAt (m.words.listTail n)).map fun tail =>
    { m with hcd := m.hcd.setQtd tail { m.hcd.qtd tail with intOnComplete := true } }

/-- Attach the head of the queue to the overlay. -/
def usbHostAttach (m : UsbMem) (n : UsbNode) : UsbMem :=
  { m with
    hcd := Usb.usbHostAttach m.hcd n
    words := m.words.setOverlay n (P.sys (m.words.listHead n)) }

/-- Make a descriptor of the control endpoint the only one of its queue. -/
def usbHostControlXfer (m : UsbMem) (n : UsbNode) (t : UsbQtdNode) (given : BitVec 32)
    (length : BitVec 16) (d : UsbQtd) : UsbMem :=
  let m := usbHostQtdFill m t given length d
  usbHostAttach P { m with
    hcd := m.hcd.setQueue n { m.hcd.queue n with listHead := some t, listTail := some t }
    words := m.words.setQueue n (P.qtd t) (P.qtd t) } n

/-- `usb_host_edpt_xfer`. -/
def usbHostEdptXfer (m : UsbMem) (devAddr epAddr : BitVec 8) (buffer : BitVec 32)
    (buflen : BitVec 16) : Option (Bool × UsbMem) :=
  let address := usbBufferAddress P.core buffer
  if usbEdptNumber epAddr = 0 then
    (usbHostQhdControl devAddr).bind fun n =>
      (usbHostQtdControl devAddr).map fun t =>
        (true, usbHostControlXfer P m n t buffer buflen { usbHostQtdInit address buflen with
          dataToggle := true, pid := if usbEdptDirIn epAddr then .input else .out,
          intOnComplete := true })
  else
    match usbHostQhdGetFromAddr m.hcd.host devAddr epAddr, usbHostQtdFindFree m.hcd with
    | some n, some t =>
      let m := usbHostQtdFill m t buffer buflen
        { usbHostQtdInit address buflen with pid := (m.hcd.host.qhd n).pid }
      (usbHostQtdInsertToQhd P m n t).bind fun m =>
        (usbHostTailIoc P m n).map fun m => (true, usbHostAttach P m n)
    | _, _ => some (false, m)

/-- `usb_host_setup_send`. -/
def usbHostSetupSend (m : UsbMem) (devAddr : BitVec 8) (setupPacket : BitVec 32) :
    Option (Bool × UsbMem) :=
  (usbHostQhdControl devAddr).bind fun n =>
    (usbHostQtdControl devAddr).map fun t =>
      (true, usbHostControlXfer P m n t setupPacket usbSetupPacketLen
        { usbHostQtdInit (usbBufferAddress P.core setupPacket) usbSetupPacketLen with
          pid := .setup, intOnComplete := true })

/-- `usb_host_pipe_queue_xfer`: the buffer is taken as it is. -/
def usbHostPipeQueueXfer (m : UsbMem) (devAddr epAddr : BitVec 8) (buffer : BitVec 32)
    (totalBytes : BitVec 16) : Option (Bool × UsbMem) :=
  match usbHostQhdGetFromAddr m.hcd.host devAddr epAddr, usbHostQtdFindFree m.hcd with
  | some n, some t =>
    let m := usbHostQtdFill m t buffer totalBytes
      { usbHostQtdInit buffer totalBytes with pid := (m.hcd.host.qhd n).pid }
    (usbHostQtdInsertToQhd P m n t).map fun m => (true, m)
  | _, _ => some (false, m)

/-- `usb_host_pipe_xfer`. -/
def usbHostPipeXfer (m : UsbMem) (devAddr epAddr : BitVec 8) (buffer : BitVec 32)
    (totalBytes : BitVec 16) (intOnComplete : Bool) : Option (Bool × UsbMem) :=
  (usbHostPipeQueueXfer P m devAddr epAddr buffer totalBytes).bind fun r =>
    match r, usbHostQhdGetFromAddr m.hcd.host devAddr epAddr with
    | (true, m), some n =>
      (if intOnComplete then usbHostTailIoc P m n else some m).map fun m =>
        (true, usbHostAttach P m n)
    | (_, m), _ => some (false, m)

/-! ## Interrupts -/

/-- `usb_host_qtd_remove_1st_from_qhd`: the next link is taken for a pointer as it is. -/
def usbHostQtdRemove1stFromQhd (m : UsbMem) (n : UsbNode) : Option UsbMem :=
  if m.words.listHead n = m.words.listTail n then
    some { m with
      hcd := m.hcd.setQueue n { m.hcd.queue n with listHead := none, listTail := none }
      words := m.words.setQueue n 0 0 }
  else
    (P.qtdAt (m.words.listHead n)).map fun t =>
      { m with
        hcd := m.hcd.setQueue n { m.hcd.queue n with listHead := (m.hcd.qtd t).next.address }
        words := m.words.setQueue n (usbHostAlign32 (m.words.qtdNext t)) (m.words.listTail n) }

/-- The loop of `qhd_xfer_complete_isr`. -/
def qhdXferCompleteLoop : Nat → UsbMem → UsbNode → Option (UsbMem × List UsbTrace)
  | 0, _, _ => none
  | k + 1, m, n =>
    if m.words.listHead n = 0 then some (m, [])
    else
      (P.qtdAt (m.words.listHead n)).bind fun t =>
        if (m.hcd.qtd t).active then some (m, [])
        else
          let isIoc := (m.hcd.qtd t).intOnComplete
          (usbHostQtdRemove1stFromQhd P { m with hcd := usbHostCollect m.hcd n t } n).bind fun m =>
            if isIoc then
              (qhdXferCompleteLoop k { m with hcd := usbHostClearTotal m.hcd n } n).map fun r =>
                (r.1, .freed n t :: .event n (usbHostEvent m.hcd n .success) :: r.2)
            else (qhdXferCompleteLoop k m n).map fun r => (r.1, .freed n t :: r.2)

/-- A queue head that is halted is left to the error interrupt. -/
def qhdXferCompleteUnlessHalted (m : UsbMem) (n : UsbNode) : Option (UsbMem × List UsbTrace) :=
  if (m.hcd.queue n).overlay.halted then some (m, [])
  else qhdXferCompleteLoop P usbQueuePasses m n

/-- What the error interrupt does for a control endpoint, which cannot be halted. -/
def usbHostClearControl (m : UsbMem) (n : UsbNode) : Option UsbMem :=
  (Usb.usbHostClearControl m.hcd n).map fun hcd =>
    { m with
      hcd := hcd
      words := (m.words.setQueue n 0 0).setOverlay n (m.words.overlayNext n ||| 1) }

/-- `qhd_xfer_error_isr`. -/
def qhdXferErrorIsr (m : UsbMem) (n : UsbNode) : Option (UsbMem × List UsbTrace) :=
  if m.hcd.ReportsError n then
    let errorEvent : XferResult :=
      if usbHostQhdHasXactError (m.hcd.queue n) then .failed else .stalled
    (P.qtdAt (m.words.listHead n)).bind fun t =>
      (usbHostQtdRemove1stFromQhd P { m with hcd := usbHostCollect m.hcd n t } n).bind fun m =>
        (if (m.hcd.host.qhd n).epNumber = 0 then usbHostClearControl m n else some m).map fun m =>
          ({ m with hcd := usbHostClearTotal m.hcd n },
            [.freed n t, .event n (usbHostEvent m.hcd n errorEvent)])
  else some (m, [])

/-- The loop over the asynchronous list from the pointer `qhd` on. -/
def usbAsyncLoop (isr : UsbMem → UsbNode → Option (UsbMem × List UsbTrace)) :
    Nat → UsbMem → BitVec 32 → Option (UsbMem × List UsbTrace)
  | 0, _, _ => none
  | k + 1, m, qhd =>
    (P.nodeAt qhd).bind fun n =>
      (isr m n).bind fun r =>
        let next := P.back (usbHostAlign32 (r.1.words.next n))
        if next = P.node usbHostQhdAsyncHead then some r
        else (usbAsyncLoop isr k r.1 next).map fun r' => (r'.1, r.2 ++ r'.2)

/-- `async_list_xfer_complete_isr`. -/
def asyncListXferCompleteIsr (m : UsbMem) : Option (UsbMem × List UsbTrace) :=
  usbAsyncLoop P (qhdXferCompleteUnlessHalted P) usbListPasses m (P.node usbHostQhdAsyncHead)

/-- The loop over a periodic list from the link `item` on: the queue head is taken from the link
as it is, and `follow` says how the pointer to the next link is. -/
def usbPeriodLoop (isr : UsbMem → UsbNode → Option (UsbMem × List UsbTrace))
    (limit : UsbMem → Option (UsbMem × List UsbTrace)) (follow : BitVec 32 → BitVec 32)
    (i : Fin usbHcdPeriodicArrCount) :
    Nat → UsbMem → BitVec 32 → Option (UsbMem × List UsbTrace)
  | 0, m, _ => limit m
  | k + 1, m, item =>
    if usbLinkTerminates item = true ∨
        (i ≠ usbPeriod1ms ∧ P.node (.period usbPeriod1ms) = usbHostAlign32 item) then
      some (m, [])
    else
      (P.nodeAt (usbHostAlign32 item)).bind fun n =>
        (isr m n).bind fun r =>
          (P.nodeAt (follow (usbHostAlign32 item))).bind fun p =>
            (usbPeriodLoop isr limit follow i k r.1 (r.1.words.next p)).map fun r' =>
              (r'.1, r.2 ++ r'.2)

/-- `period_list_xfer_complete_isr`: `usb_host_list_next` is followed as it is. -/
def periodListXferCompleteIsr (cfg : TusbConfig) (m : UsbMem) (i : Fin usbHcdPeriodicArrCount) :
    Option (UsbMem × List UsbTrace) :=
  usbPeriodLoop P (qhdXferCompleteUnlessHalted P) (fun m => some (m, [])) id i cfg.maxLoop m
    (m.words.next (.period i))

/-- The periodic part of `xfer_error_isr`: `usb_host_list_next` is mapped back. -/
def periodListXferErrorIsr (m : UsbMem) (i : Fin usbHcdPeriodicArrCount) :
    Option (UsbMem × List UsbTrace) :=
  usbPeriodLoop P (qhdXferErrorIsr P) (fun _ => none) P.back i usbListPasses m
    (m.words.next (.period i))

/-- `xfer_error_isr`. -/
def xferErrorIsr (m : UsbMem) : Option (UsbMem × List UsbTrace) :=
  (usbAsyncLoop P (qhdXferErrorIsr P) usbListPasses m (P.node usbHostQhdAsyncHead)).bind fun r =>
    (List.finRange usbHcdPeriodicArrCount).foldlM
      (fun r i => (periodListXferErrorIsr P r.1 i).map fun r' => (r'.1, r.2 ++ r'.2)) r

/-! ## The controller -/

/-- The first descriptor that is still active, from a system address on. -/
def usbFirstActive (m : UsbMem) : Nat → BitVec 32 → Option UsbQtdNode
  | 0, _ => none
  | k + 1, a =>
    (P.qtdAtSys a).bind fun t =>
      if (m.hcd.qtd t).active then some t
      else usbFirstActive m k (usbHostAlign32 (m.words.qtdNext t))

/-- The controller ends a descriptor that it comes to through the links, and the overlay becomes
what it is. -/
def usbHcComplete (m : UsbMem) (n : UsbNode) (left : BitVec 15) (how : UsbEnd) : Option UsbMem :=
  if (m.hcd.queue n).overlay.halted then none
  else
    (usbFirstActive P m usbQueuePasses (P.sys (m.words.listHead n))).bind fun t =>
      if (m.hcd.qtd t).totalBytes < left then none
      else
        let q := (m.hcd.qtd t).ended left how
        some { m with
          hcd := (m.hcd.setQtd t q).setQueue n { m.hcd.queue n with overlay := q }
          words := m.words.setOverlay n (m.words.qtdNext t) }

/-! ## Setting up -/

/-- The queue of a queue head that the controller is to leave alone. -/
def usbHaltedQueue (next : UsbQtdLink) : UsbQueue :=
  { UsbQueue.zero with overlay := { UsbQtd.zero with halted := true, next := next } }

/-- After `memset(.., 0, ..)`; the registers are not touched. -/
def usbMemZero (regs : UsbListRegs) : UsbMem where
  hcd := {
    host := { qhd := fun _ => UsbQhd.zero, framelist := fun _ => ⟨none, false⟩ }
    queue := fun _ => UsbQueue.zero
    qtd := fun _ => UsbQtd.zero }
  words := ⟨fun _ => 0, fun _ => 0, fun _ => 0, fun _ => 0, fun _ => 0, fun _ => 0⟩
  regs := regs
  given := fun _ => (0, 0)

/-- `usb_host_init_async_list`. -/
def usbHostInitAsyncList (m : UsbMem) : UsbMem :=
  let asyncHead := P.sys (P.node usbHostQhdAsyncHead)
  { m with
    hcd :=
      { m.hcd with host := Usb.usbHostInitAsyncList m.hcd.host }.setQueue usbHostQhdAsyncHead
        (usbHaltedQueue ⟨none, true⟩)
    words := ((m.words.setNext usbHostQhdAsyncHead (asyncHead ||| usbQhdTyp)).setOverlay
      usbHostQhdAsyncHead 1).setQueue usbHostQhdAsyncHead 0 0
    regs := { m.regs with asyncListAddr := asyncHead } }

/-- The dummy nodes of the polling intervals. -/
def usbHostPeriodHeads (m : UsbMem) : UsbMem :=
  ([0, 1, 2, 3] : List (Fin usbHcdPeriodicArrCount)).foldl
    (fun m i =>
      let q := { m.hcd.host.qhd (.period i) with intSmask := 1 }
      let queue := m.hcd.queue (.period i)
      let hcd := { m.hcd with host := m.hcd.host.setQhd (.period i) q }
      { m with
        hcd := hcd.setQueue (.period i)
          { queue with overlay := { queue.overlay with halted := true } } })
    m

/-- All entries of the frame list lead to the head of the 1 ms list. -/
def usbHostFramelistClear (m : UsbMem) : UsbMem :=
  { m with
    hcd := {
      m.hcd with
      host := { m.hcd.host with framelist := fun _ => UsbLink.to (.period usbPeriod1ms) } }
    words := { m.words with
      framelist := fun _ => P.sys (P.node (.period usbPeriod1ms)) ||| usbQhdTyp } }

/-- `usb_host_init_periodic_list`. -/
def usbHostInitPeriodicList (m : UsbMem) : UsbMem :=
  let m := usbHostFramelistClear P (usbHostPeriodHeads m)
  let m := ([0, 2, 4, 6] : List (Fin usbHostFramelistSize)).foldl
    (fun m i => usbHostFramelistInsert P m i (.period 1)) m
  let m := ([1, 5] : List (Fin usbHostFramelistSize)).foldl
    (fun m i => usbHostFramelistInsert P m i (.period 2)) m
  let m := usbHostFramelistInsert P m 3 (.period 3)
  let next := { (m.hcd.host.qhd (.period usbPeriod1ms)).next with terminate := true }
  { m with
    hcd := { m.hcd with host := m.hcd.host.setNext (.period usbPeriod1ms) next }
    words := m.words.setNext (.period usbPeriod1ms) (m.words.next (.period usbPeriod1ms) ||| 1)
    regs := { m.regs with periodicListBase := P.sys (P.address 0) } }

/-- `usb_host_init`. -/
def usbHostInit (regs : UsbListRegs) : UsbMem :=
  usbHostInitPeriodicList P (usbHostInitAsyncList P (usbMemZero regs))

end Placed

end HpmSdk.Usb
