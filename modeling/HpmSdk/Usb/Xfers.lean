import HpmSdk.Usb.Isr

set_option autoImplicit false

/-!
# USB host: transfers and their ledger

The host beside a ledger of what was submitted, moved, returned and reported; what is
asked of every state and of the interrupts, and the actions for which that is as it
should be.
-/

namespace HpmSdk.Usb

open HpmSdk.Foundation HpmSdk.Soc

/-! ## The ledger -/

/-- The result that an end is to be reported with. -/
def UsbEnd.result : UsbEnd → XferResult
  | .done => .success
  | .stall => .stalled
  | .xact | .babble | .buffer => .failed

/-- What happened so far: the queues of submitted descriptors, how often a descriptor was
submitted and returned, the bytes that the controller moved for it, the bytes of the
descriptors that were removed from a queue since its last event, the ends with a stall or an
error and the reports of them, and the events with the bytes that they should show. -/
structure UsbLedger where
  queue : UsbNode → List UsbQtdNode
  submitted : UsbQtdNode → Nat
  returned : UsbQtdNode → Nat
  moved : UsbQtdNode → Nat
  since : UsbNode → Nat
  failed : UsbNode → XferResult → Nat
  reported : UsbNode → XferResult → Nat
  events : List (UsbEvent × Nat)

namespace UsbLedger

/-- Nothing happened. -/
def empty : UsbLedger where
  queue := fun _ => []
  submitted := fun _ => 0
  returned := fun _ => 0
  moved := fun _ => 0
  since := fun _ => 0
  failed := fun _ _ => 0
  reported := fun _ _ => 0
  events := []

/-- A descriptor is submitted to a queue head. -/
def submit (l : UsbLedger) (n : UsbNode) (t : UsbQtdNode) : UsbLedger :=
  { l with
    queue := Function.update l.queue n (l.queue n ++ [t])
    submitted := Function.update l.submitted t (l.submitted t + 1)
    moved := Function.update l.moved t 0 }

/-- The controller ends a descriptor of a queue head. -/
def move (l : UsbLedger) (n : UsbNode) (t : UsbQtdNode) (bytes : Nat) (how : UsbEnd) :
    UsbLedger :=
  { l with
    moved := Function.update l.moved t (l.moved t + bytes)
    failed := Function.update l.failed n
      (Function.update (l.failed n) how.result (l.failed n how.result + 1)) }

/-- The oldest descriptor of a queue head is returned. -/
def free (l : UsbLedger) (n : UsbNode) (t : UsbQtdNode) : UsbLedger :=
  { l with
    queue := Function.update l.queue n (l.queue n).tail
    returned := Function.update l.returned t (l.returned t + 1)
    since := Function.update l.since n (l.since n + l.moved t) }

/-- An event is reported for a queue head. -/
def report (l : UsbLedger) (n : UsbNode) (e : UsbEvent) : UsbLedger :=
  { l with
    since := Function.update l.since n 0
    reported := Function.update l.reported n
      (Function.update (l.reported n) e.result (l.reported n e.result + 1))
    events := l.events ++ [(e, l.since n)] }

section Fields

variable (l : UsbLedger) (n : UsbNode) (t : UsbQtdNode) (e : UsbEvent)

theorem free_queue : (l.free n t).queue = Function.update l.queue n (l.queue n).tail := rfl

theorem free_since : (l.free n t).since = Function.update l.since n (l.since n + l.moved t) := rfl

theorem report_since : (l.report n e).since = Function.update l.since n 0 := rfl

end Fields

/-- A queue head is set up for an endpoint; that of device 0 is not cleared. -/
def setUp (l : UsbLedger) (n : UsbNode) (devAddr : BitVec 8) : UsbLedger :=
  { l with since := Function.update l.since n (if devAddr ≠ 0 then 0 else l.since n) }

/-- What an interrupt did. -/
def record (l : UsbLedger) : List UsbTrace → UsbLedger
  | [] => l
  | .freed n t :: log => (l.free n t).record log
  | .event n e :: log => (l.report n e).record log

/-- A longer record is written entry by entry. -/
theorem record_append (l : UsbLedger) (log log' : List UsbTrace) :
    l.record (log ++ log') = (l.record log).record log' := by
  induction log generalizing l with
  | nil => rfl
  | cons e log ih =>
    cases e with
    | freed n t => exact ih _
    | event n e => exact ih _

end UsbLedger

/-! ## Runs -/

/-- The host and the ledger. -/
structure UsbXfers where
  hcd : UsbHcd
  ledger : UsbLedger

/-- What can happen next: the calls of the driver, what the controller does, and the
interrupts, in any order. -/
inductive UsbXferAct where
  | edptOpen (devAddr : BitVec 8) (speed : UsbSpeed) (desc : UsbDescEndpoint)
  | deviceClose (devAddr : BitVec 8) (passes : Nat)
  | asyncAdvance
  | edptXfer (devAddr epAddr : BitVec 8) (buffer : BitVec 32) (buflen : BitVec 16)
  | setupSend (devAddr : BitVec 8) (setupPacket : BitVec 32)
  | pipeQueueXfer (devAddr epAddr : BitVec 8) (buffer : BitVec 32) (totalBytes : BitVec 16)
  | pipeXfer (devAddr epAddr : BitVec 8) (buffer : BitVec 32) (totalBytes : BitVec 16)
      (intOnComplete : Bool)
  | complete (n : UsbNode) (left : BitVec 15) (how : UsbEnd)
  | completionIsr (c : UsbList)
  | errorIsr
  | clearStall (devAddr epAddr : BitVec 8)
  deriving DecidableEq, Repr

/-- `async_list_xfer_complete_isr` or `period_list_xfer_complete_isr`. -/
def usbCompletionIsr (cfg : TusbConfig) (h : UsbHcd) : UsbList → Option (UsbHcd × List UsbTrace)
  | .async => asyncListXferCompleteIsr h
  | .period i => periodListXferCompleteIsr cfg h i

/-- The queue head and the descriptor of a transfer on the control endpoint. -/
def usbControlTarget (devAddr : BitVec 8) : Option (UsbNode × UsbQtdNode) :=
  (usbHostQhdControl devAddr).bind fun n => (usbHostQtdControl devAddr).map fun t => (n, t)

/-- The queue head and the descriptor of a transfer on another endpoint. -/
def usbPipeTarget (h : UsbHcd) (devAddr epAddr : BitVec 8) : Option (UsbNode × UsbQtdNode) :=
  (usbHostQhdGetFromAddr h.host devAddr epAddr).bind fun n =>
    (usbHostQtdFindFree h).map fun t => (n, t)

/-- Those of `usb_host_edpt_xfer`. -/
def usbEdptTarget (h : UsbHcd) (devAddr epAddr : BitVec 8) : Option (UsbNode × UsbQtdNode) :=
  if usbEdptNumber epAddr = 0 then usbControlTarget devAddr else usbPipeTarget h devAddr epAddr

namespace UsbXfers

/-- After `usb_host_init`. -/
def init : UsbXfers := ⟨usbHcdInit, .empty⟩

/-- The state behind a call that submits a descriptor, or refuses. -/
def submitted (s : UsbXfers) (target : Option (UsbNode × UsbQtdNode)) (r : Bool × UsbHcd) :
    UsbXfers :=
  match r.1, target with
  | true, some p => ⟨r.2, s.ledger.submit p.1 p.2⟩
  | _, _ => ⟨r.2, s.ledger⟩

/-- The state behind an interrupt. -/
def interrupted (s : UsbXfers) (r : UsbHcd × List UsbTrace) : UsbXfers :=
  ⟨r.1, s.ledger.record r.2⟩

def step (mcu : HpmCore) (cfg : TusbConfig) (s : UsbXfers) : UsbXferAct → Option UsbXfers
  | .edptOpen devAddr speed desc =>
    (usbHcdEdptOpen s.hcd devAddr speed desc).map fun r =>
      match r.1, usbHostOpenQhd s.hcd.host devAddr desc with
      | true, some n => ⟨r.2, s.ledger.setUp n devAddr⟩
      | _, _ => ⟨r.2, s.ledger⟩
  | .deviceClose devAddr passes =>
    (usbHostDeviceClose passes s.hcd.host devAddr).map fun r =>
      ⟨{ s.hcd with host := r.1 }, s.ledger⟩
  | .asyncAdvance =>
    (asyncAdvanceIsrFor cfg s.hcd.host).map fun host => ⟨{ s.hcd with host := host }, s.ledger⟩
  | .edptXfer devAddr epAddr buffer buflen =>
    (usbHostEdptXfer mcu s.hcd devAddr epAddr buffer buflen).map
      (s.submitted (usbEdptTarget s.hcd devAddr epAddr))
  | .setupSend devAddr setupPacket =>
    (usbHostSetupSend mcu s.hcd devAddr setupPacket).map (s.submitted (usbControlTarget devAddr))
  | .pipeQueueXfer devAddr epAddr buffer totalBytes =>
    (usbHostPipeQueueXfer s.hcd devAddr epAddr buffer totalBytes).map
      (s.submitted (usbPipeTarget s.hcd devAddr epAddr))
  | .pipeXfer devAddr epAddr buffer totalBytes intOnComplete =>
    (usbHostPipeXfer s.hcd devAddr epAddr buffer totalBytes intOnComplete).map
      (s.submitted (usbPipeTarget s.hcd devAddr epAddr))
  | .complete n left how =>
    (usbHcComplete s.hcd n left how).map fun r =>
      ⟨r.2, s.ledger.move n r.1 ((s.hcd.qtd r.1).totalBytes.toNat - left.toNat) how⟩
  | .completionIsr c => (usbCompletionIsr cfg s.hcd c).map s.interrupted
  | .errorIsr => (xferErrorIsr s.hcd).map s.interrupted
  | .clearStall devAddr epAddr =>
    (usbHostEdptClearStall s.hcd devAddr epAddr).map fun r => ⟨r.2, s.ledger⟩

end UsbXfers

/-! ## The contract -/

/-- The linked lists of descriptors are the queues: their heads and tails, the links in
between, the descriptors in use, and no descriptor twice. -/
structure UsbFifo (h : UsbHcd) (q : UsbNode → List UsbQtdNode) : Prop where
  head : ∀ n, (h.queue n).listHead = (q n).head?
  tail : ∀ n, (h.queue n).listTail = (q n).getLast?
  links : ∀ n, (q n).IsChain fun t u => (h.qtd t).next.address = some u
  used : ∀ t, (h.qtd t).used = true ↔ ∃ n, t ∈ q n
  nodup : ∀ n, (q n).Nodup
  apart : ∀ n m, n ≠ m → List.Disjoint (q n) (q m)

/-- The overlay or a descriptor shows an error. -/
def UsbQtd.hasError (q : UsbQtd) : Bool := q.bufferErr || q.babbleErr || q.xactErr

/-- The result that a halted descriptor is to be reported with. -/
def UsbQtd.result (q : UsbQtd) : XferResult := if q.hasError then .failed else .stalled

namespace UsbXfers

/-- A stall or an error is still to be reported. -/
def Pending (s : UsbXfers) (n : UsbNode) (r : XferResult) : Prop :=
  ∃ t ∈ s.ledger.queue n, (s.hcd.qtd t).halted = true ∧ (s.hcd.qtd t).result = r

instance (s : UsbXfers) (n : UsbNode) (r : XferResult) : Decidable (s.Pending n r) :=
  inferInstanceAs (Decidable (∃ t ∈ _, _))

/-- What is asked of every state: the queues are well formed, every submitted descriptor is
in a queue or was returned once, the events show the bytes moved, and every stall or error
was reported once or is still to be reported. -/
structure Kept (s : UsbXfers) : Prop where
  fifo : UsbFifo s.hcd s.ledger.queue
  conserved : ∀ t, s.ledger.submitted t =
    s.ledger.returned t + if ∃ n, t ∈ s.ledger.queue n then 1 else 0
  bytes : ∀ p ∈ s.ledger.events, p.1.bytes.toNat = p.2
  failures : ∀ n r, r ≠ .success →
    s.ledger.failed n r = s.ledger.reported n r + if s.Pending n r then 1 else 0

/-- The queue heads that an interrupt goes through for a list. -/
def visited (h : UsbHost) : UsbList → List UsbNode
  | .async => usbHostQhdAsyncHead :: h.members .async
  | .period i => h.members (.period i)

/-- What is asked of the interrupts: they end without going through `NULL`, the one about
completion returns all completed descriptors, and the one about errors reports all. -/
def Meets (cfg : TusbConfig) (s : UsbXfers) : UsbXferAct → Prop
  | .completionIsr c => ∃ r, usbCompletionIsr cfg s.hcd c = some r ∧
      ∀ n ∈ visited s.hcd.host c, (s.hcd.queue n).overlay.halted = false →
        ∀ t ∈ (r.1.queue n).listHead, (r.1.qtd t).active = true
  | .errorIsr => ∃ r, xferErrorIsr s.hcd = some r ∧
      ∀ c, ∀ n ∈ visited s.hcd.host c, ∀ result, ¬ (s.interrupted r).Pending n result
  | .asyncAdvance => asyncAdvanceIsrFor cfg s.hcd.host ≠ none
  | _ => True

end UsbXfers

/-! ## The actions that keep it -/

/-- The bytes that a descriptor adds to those of its queue head. -/
def UsbQtd.bytes (q : UsbQtd) : Nat := q.expectedBytes.toNat - q.totalBytes.toNat

/-- The bytes between two events stay below `2 ^ 16`, for the completed descriptors at the
front of a queue. -/
def UsbCounts (h : UsbHcd) : Nat → List UsbQtdNode → Prop
  | _, [] => True
  | total, t :: ts =>
    (h.qtd t).active = true ∨ (total + (h.qtd t).bytes < 2 ^ 16 ∧
      UsbCounts h (if (h.qtd t).intOnComplete then 0 else total + (h.qtd t).bytes) ts)

instance decidableUsbCounts (h : UsbHcd) : ∀ (ts : List UsbQtdNode) (total : Nat),
    Decidable (UsbCounts h total ts)
  | [], _ => inferInstanceAs (Decidable True)
  | _ :: ts, _ =>
    have _ := decidableUsbCounts h ts
    inferInstanceAs (Decidable (_ ∨ (_ ∧ UsbCounts h _ ts)))

namespace UsbXfers

/-- A transfer goes to a queue head that is linked, with less than `2 ^ 15` bytes; one on the
control endpoint only when there is no other. -/
def Takes (s : UsbXfers) (length : BitVec 16) : UsbNode → Prop
  | .control i => s.hcd.host.Linked (.control i) ∧ (s.hcd.queue (.control i)).listHead = none ∧
      length.toNat < 2 ^ 15
  | n => s.hcd.host.Linked n ∧ length.toNat < 2 ^ 15

instance (s : UsbXfers) (length : BitVec 16) : ∀ n, Decidable (s.Takes length n)
  | .control _ => inferInstanceAs (Decidable (_ ∧ _ ∧ _))
  | .period _ => inferInstanceAs (Decidable (_ ∧ _))
  | .pool _ => inferInstanceAs (Decidable (_ ∧ _))

/-- The error interrupt finds on a queue head what it reports: it acts where the first
descriptor is the one that halted, and on every queue head with one that did. -/
def ReportsHead (s : UsbXfers) (n : UsbNode) : Prop :=
  (s.hcd.ReportsError n → ∃ t ∈ (s.hcd.queue n).listHead, (s.hcd.qtd t).halted = true ∧
    (s.hcd.queue n).totalXferredBytes.toNat + (s.hcd.qtd t).bytes < 2 ^ 16) ∧
  ∀ t ∈ s.ledger.queue n, (s.hcd.qtd t).halted = true → s.hcd.ReportsError n

instance (s : UsbXfers) (n : UsbNode) : Decidable (s.ReportsHead n) :=
  inferInstanceAs (Decidable (_ ∧ _))

/-- The actions for which the contract is kept. -/
def Regular (cfg : TusbConfig) (s : UsbXfers) : UsbXferAct → Prop
  | .edptOpen devAddr speed desc => s.hcd.host.Serves devAddr speed desc ∧
      (desc.xfer ≠ .isochronous →
        (desc.bEndpointAddress = 0 ∨ desc.bEndpointAddress &&& 0x0F ≠ 0) ∧
          ∀ n ∈ usbHostOpenQhd s.hcd.host devAddr desc, (s.hcd.queue n).listHead = none)
  | .deviceClose devAddr _ => devAddr = 0 ∨ ∀ n, s.hcd.host.Linked n →
      s.hcd.host.owned devAddr n = true → (s.hcd.queue n).listHead = none
  | .asyncAdvance => cfg.hcdMaxEndpoint ≤ usbSocHcdMaxEndpointCount
  | .edptXfer devAddr epAddr _ buflen =>
      ∀ p ∈ usbEdptTarget s.hcd devAddr epAddr, s.Takes buflen p.1
  | .setupSend devAddr _ => ∀ p ∈ usbControlTarget devAddr, s.Takes usbSetupPacketLen p.1
  | .pipeQueueXfer devAddr epAddr _ totalBytes | .pipeXfer devAddr epAddr _ totalBytes _ =>
      ∀ p ∈ usbPipeTarget s.hcd devAddr epAddr, s.Takes totalBytes p.1
  | .complete _ _ _ => True
  | .completionIsr c => ∀ n ∈ visited s.hcd.host c, (s.hcd.queue n).overlay.halted = false →
      UsbCounts s.hcd (s.hcd.queue n).totalXferredBytes.toNat (s.ledger.queue n)
  | .errorIsr => ∀ c ∈ UsbList.all, ∀ n ∈ visited s.hcd.host c, s.ReportsHead n
  | .clearStall devAddr epAddr => ∀ n ∈ usbHostQhdGetFromAddr s.hcd.host devAddr epAddr,
      ∀ t ∈ s.ledger.queue n, (s.hcd.qtd t).halted = false

instance (cfg : TusbConfig) (s : UsbXfers) : ∀ a, Decidable (s.Regular cfg a)
  | .edptOpen _ _ _ => inferInstanceAs (Decidable (_ ∧ _))
  | .deviceClose devAddr _ => inferInstanceAs (Decidable (devAddr = 0 ∨ ∀ n,
      s.hcd.host.Linked n → s.hcd.host.owned devAddr n = true → (s.hcd.queue n).listHead = none))
  | .asyncAdvance => inferInstanceAs (Decidable (_ ≤ _))
  | .edptXfer devAddr epAddr _ buflen =>
    inferInstanceAs (Decidable (∀ p ∈ usbEdptTarget s.hcd devAddr epAddr, s.Takes buflen p.1))
  | .setupSend devAddr _ =>
    inferInstanceAs (Decidable (∀ p ∈ usbControlTarget devAddr, s.Takes usbSetupPacketLen p.1))
  | .pipeQueueXfer devAddr epAddr _ totalBytes | .pipeXfer devAddr epAddr _ totalBytes _ =>
    inferInstanceAs (Decidable (∀ p ∈ usbPipeTarget s.hcd devAddr epAddr, s.Takes totalBytes p.1))
  | .complete _ _ _ => inferInstanceAs (Decidable True)
  | .completionIsr c => inferInstanceAs (Decidable (∀ n ∈ visited s.hcd.host c,
      (s.hcd.queue n).overlay.halted = false →
        UsbCounts s.hcd (s.hcd.queue n).totalXferredBytes.toNat (s.ledger.queue n)))
  | .errorIsr => inferInstanceAs (Decidable (∀ c ∈ UsbList.all, ∀ n ∈ visited s.hcd.host c,
      s.ReportsHead n))
  | .clearStall devAddr epAddr => inferInstanceAs (Decidable
      (∀ n ∈ usbHostQhdGetFromAddr s.hcd.host devAddr epAddr,
        ∀ t ∈ s.ledger.queue n, (s.hcd.qtd t).halted = false))

end UsbXfers

end HpmSdk.Usb
