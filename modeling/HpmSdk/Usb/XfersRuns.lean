import HpmSdk.Usb.XfersEndpoints
import HpmSdk.Usb.XfersVisit

set_option autoImplicit false

/-!
# USB host: runs of transfers

Transfers are submitted, the controller ends descriptors, and the interrupts, the stall
clears and the closes come in any order.  While every action is regular the queues stay
well formed and everything is returned and reported once.

The ledger is only there to state this: no function of the driver reads it.
-/

namespace HpmSdk.Usb

open HpmSdk.Foundation HpmSdk.Soc

/-! ## The invariant along a run -/

/-- The invariant says what is asked of every state. -/
theorem UsbXfers.Inv.kept {s : UsbXfers} (hs : s.Inv) : s.Kept :=
  ⟨hs.queues.fifo, hs.queues.conserved, hs.queues.bytes, hs.failures⟩

theorem usbHostInit_inv : UsbHostInv usbHostInit := by
  have hinit : UsbOpens.Inv ⟨usbHostInit, []⟩ := UsbOpens.init_inv
  have hmembers : usbHostInit.members = fun _ => [] := usbHostInit_sched.members_eq
  refine ⟨hinit, by decide, fun i hi => ?_, fun i hi => ?_⟩
  · have hhead : i = 0 := by
      obtain ⟨c, hc⟩ | ⟨c, hc⟩ := UsbHost.linked_iff.mp hi
      · cases c with
        | async => exact UsbNode.control.inj hc
        | period j => cases hc
      · rw [hmembers] at hc
        exact absurd hc List.not_mem_nil
    rw [hhead]
    rfl
  · obtain ⟨c, hc⟩ := UsbHost.linked_pool.mp hi
    rw [hmembers] at hc
    exact absurd hc List.not_mem_nil

/-- Behind the set-up the queues are empty. -/
theorem UsbXfers.init_inv : UsbXfers.init.Inv := by
  have hqueue : ∀ n, (usbHcdInit.queue n).listHead = none ∧ (usbHcdInit.queue n).listTail = none ∧
      (usbHcdInit.queue n).totalXferredBytes = 0 := by
    decide
  have hnone : ∀ n t, t ∉ UsbLedger.empty.queue n := fun _ _ => List.not_mem_nil
  refine ⟨usbHostInit_inv, fun n hn => absurd rfl hn,
    ⟨⟨fun n => (hqueue n).1, fun n => (hqueue n).2.1, fun _ => List.IsChain.nil, fun t => ?_,
      fun _ => List.nodup_nil, fun _ _ _ _ ht => absurd ht List.not_mem_nil⟩,
      fun _ _ ht => (nomatch ht), fun n t ht => absurd ht (hnone n t), fun t => ?_,
      fun _ hp => absurd hp List.not_mem_nil, fun n => ?_, fun n t ht => absurd ht (hnone n t),
      fun n t ht => absurd ht (hnone n t), fun n t ht => absurd ht (hnone n t)⟩, fun n r _ => ?_⟩
  · exact iff_of_false Bool.false_ne_true fun ⟨n, hn⟩ => hnone n t hn
  · have hout : ¬ ∃ n, t ∈ UsbLedger.empty.queue n := fun ⟨n, hn⟩ => hnone n t hn
    have hcount : 0 = 0 + if ∃ n, t ∈ UsbLedger.empty.queue n then 1 else 0 := by
      rw [if_neg hout]
    exact hcount
  · exact congrArg BitVec.toNat (hqueue n).2.2
  · have hout : ¬ (UsbXfers.mk usbHcdInit .empty).Pending n r := fun ⟨t, ht, _⟩ => hnone n t ht
    have hcount : 0 = 0 + if (UsbXfers.mk usbHcdInit .empty).Pending n r then 1 else 0 := by
      rw [if_neg hout]
    exact hcount

/-- Every regular action keeps the invariant, by the lemma of its kind. -/
theorem UsbXfers.Inv.step {mcu : HpmCore} {cfg : TusbConfig} {s s' : UsbXfers} {a : UsbXferAct}
    (hs : s.Inv) (hok : s.Regular cfg a) (hstep : s.step mcu cfg a = some s') : s'.Inv := by
  cases a with
  | edptOpen devAddr speed desc => exact hs.edptOpen hok hstep
  | deviceClose devAddr passes =>
    obtain ⟨r, hr, rfl⟩ := Option.map_eq_some_iff.mp hstep
    exact hs.deviceClose hok hr
  | asyncAdvance =>
    obtain ⟨host, hr, rfl⟩ := Option.map_eq_some_iff.mp hstep
    obtain ⟨host', hr', hinv⟩ := hs.asyncAdvance hok
    obtain rfl := Option.some.inj (hr'.symm.trans hr)
    exact hinv
  | edptXfer devAddr epAddr buffer buflen =>
    obtain ⟨r, hr, rfl⟩ := Option.map_eq_some_iff.mp hstep
    exact hs.edptXfer hok hr
  | setupSend devAddr setupPacket =>
    obtain ⟨r, hr, rfl⟩ := Option.map_eq_some_iff.mp hstep
    exact hs.setupSend hok hr
  | pipeQueueXfer devAddr epAddr buffer totalBytes =>
    obtain ⟨r, hr, rfl⟩ := Option.map_eq_some_iff.mp hstep
    exact hs.pipeQueueXfer hok hr
  | pipeXfer devAddr epAddr buffer totalBytes intOnComplete =>
    obtain ⟨r, hr, rfl⟩ := Option.map_eq_some_iff.mp hstep
    exact hs.pipeXfer hok hr
  | complete n left how =>
    obtain ⟨r, hr, rfl⟩ := Option.map_eq_some_iff.mp hstep
    exact hs.complete hr
  | completionIsr c =>
    obtain ⟨r, hr, rfl⟩ := Option.map_eq_some_iff.mp hstep
    obtain ⟨r', hr', hinv, -⟩ := hs.completionIsr cfg c hok
    obtain rfl := Option.some.inj (hr'.symm.trans hr)
    exact hinv
  | errorIsr =>
    obtain ⟨r, hr, rfl⟩ := Option.map_eq_some_iff.mp hstep
    obtain ⟨r', hr', hinv, -⟩ := hs.errorIsr hok
    obtain rfl := Option.some.inj (hr'.symm.trans hr)
    exact hinv
  | clearStall devAddr epAddr =>
    obtain ⟨r, hr, rfl⟩ := Option.map_eq_some_iff.mp hstep
    exact hs.clearStall hok hr

/-- And does what is asked of it. -/
theorem UsbXfers.Inv.meets {cfg : TusbConfig} {s : UsbXfers} {a : UsbXferAct} (hs : s.Inv)
    (hok : s.Regular cfg a) : s.Meets cfg a := by
  cases a with
  | completionIsr c =>
    obtain ⟨r, hr, -, hdone⟩ := hs.completionIsr cfg c hok
    exact ⟨r, hr, hdone⟩
  | errorIsr =>
    obtain ⟨r, hr, -, hdone⟩ := hs.errorIsr hok
    exact ⟨r, hr, hdone⟩
  | asyncAdvance =>
    obtain ⟨host, hr, -⟩ := hs.asyncAdvance hok
    exact Option.ne_none_iff_exists'.mpr ⟨host, hr⟩
  | edptOpen _ _ _ | deviceClose _ _ | edptXfer _ _ _ _ | setupSend _ _ | pipeQueueXfer _ _ _ _
  | pipeXfer _ _ _ _ _ | complete _ _ _ | clearStall _ _ => trivial

/-- In every run of regular actions the queues stay well formed, every descriptor is returned and
every stall and error reported once, the events show the bytes moved, and the interrupts do what
they should.

The invariant gives each queue head in use a queue of its own descriptors in the order of their
submission, of which the completed ones come first.  The two completion interrupts take
descriptors from the front while they are done, and the error interrupt takes the one that halted,
so each leaves a shorter queue of the same kind.  `Regular` leaves out the actions that the
invariant does not survive, such as clearing a queue with descriptors in it, or a length that does
not fit its field. -/
theorem usbHostXfers_kept (mcu : HpmCore) (cfg : TusbConfig) (acts : List UsbXferAct)
    (hregular : Along (UsbXfers.step mcu cfg) (UsbXfers.Regular cfg) UsbXfers.init acts) :
    Along (UsbXfers.step mcu cfg) (UsbXfers.Meets cfg) UsbXfers.init acts ∧
      ∀ s, run (UsbXfers.step mcu cfg) UsbXfers.init acts = some s → s.Kept :=
  ⟨along_of_invariant (P := UsbXfers.Inv) (fun _ _ _ hs hok hstep => hs.step hok hstep)
      (fun _ _ hs hok => hs.meets hok) acts _ UsbXfers.init_inv hregular,
    fun s hrun => (run_invariant_along (P := UsbXfers.Inv)
      (fun _ _ _ hs hok hstep => hs.step hok hstep) acts _ s UsbXfers.init_inv hregular hrun).kept⟩

/-- A device with a control, a bulk and an interrupt endpoint: a request with its data, two
bulk descriptors of which the second one stalls, an interrupt transfer, and the close. -/
def usbTransfers : List UsbXferAct :=
  [.edptOpen 1 .high ⟨0, .control, 0⟩, .setupSend 1 0x20000, .complete (.control 1) 0 .done,
    .completionIsr .async, .edptXfer 1 0x80 0x20100 18, .complete (.control 1) 2 .done,
    .completionIsr .async, .edptOpen 1 .high ⟨0x81, .bulk, 0⟩,
    .edptOpen 1 .full ⟨0x82, .interrupt, 8⟩, .pipeQueueXfer 1 0x81 0x30000 512,
    .pipeXfer 1 0x81 0x30200 512 true, .complete (.pool 0) 0 .done, .completionIsr .async,
    .complete (.pool 0) 512 .stall, .completionIsr (.period 3), .errorIsr, .clearStall 1 0x81,
    .edptXfer 1 0x82 0x20200 8, .complete (.pool 1) 0 .done, .completionIsr (.period 3),
    .deviceClose 1 20, .asyncAdvance]

theorem usbHostXfers_kept_transfers :
    Along (UsbXfers.step .core0 tusbMscOnly) (UsbXfers.Meets tusbMscOnly) UsbXfers.init
        usbTransfers ∧
      ∀ s, run (UsbXfers.step .core0 tusbMscOnly) UsbXfers.init usbTransfers = some s → s.Kept :=
  usbHostXfers_kept .core0 tusbMscOnly usbTransfers (by decide +kernel)

/-- A stall was reported, and not cleared yet. -/
def usbStallReported : List UsbXferAct :=
  [.edptOpen 1 .high ⟨0x81, .bulk, 0⟩, .edptXfer 1 0x81 0x20000 512,
    .complete (.pool 0) 512 .stall, .errorIsr]

/-- One descriptor is completed and the next one stalls before an interrupt. -/
def usbDoneThenStall : List UsbXferAct :=
  [.edptOpen 1 .high ⟨0x81, .bulk, 0⟩, .pipeQueueXfer 1 0x81 0x20000 512,
    .edptXfer 1 0x81 0x20200 512, .complete (.pool 0) 0 .done, .complete (.pool 0) 512 .stall,
    .errorIsr]

/-- A device is closed with a transfer in flight, and opened again. -/
def usbClosedBusy : List UsbXferAct :=
  [.edptOpen 1 .high ⟨0x81, .bulk, 0⟩, .edptXfer 1 0x81 0x20000 512, .deviceClose 1 20,
    .asyncAdvance, .edptOpen 1 .high ⟨0x81, .bulk, 0⟩]

/-- A setup packet is sent while one is in flight. -/
def usbSetupTwice : List UsbXferAct :=
  [.edptOpen 1 .high ⟨0, .control, 0⟩, .setupSend 1 0x20000, .setupSend 1 0x20000]

/-- A transfer of as many bytes as the descriptor counts modulo. -/
def usbLongXfer : List UsbXferAct :=
  [.edptOpen 1 .high ⟨0x81, .bulk, 0⟩, .edptXfer 1 0x81 0x20000 0x8000,
    .complete (.pool 0) 0 .done, .completionIsr .async]

/-- The error interrupt goes through `NULL` while a reported stall is not cleared; it takes a
completed descriptor for the one that stalled; a close loses the descriptors in flight; a
setup packet takes the place of another one; a long transfer shows bytes that were not moved. -/
theorem usbHostXfers_broken :
    (∃ s, run (UsbXfers.step .core0 tusbMscOnly) UsbXfers.init usbStallReported = some s ∧
      ¬ s.Meets tusbMscOnly .errorIsr) ∧
      ∀ acts ∈ [usbDoneThenStall, usbClosedBusy, usbSetupTwice, usbLongXfer],
        ∃ s, run (UsbXfers.step .core0 tusbMscOnly) UsbXfers.init acts = some s ∧ ¬ s.Kept := by
  refine ⟨⟨_, rfl, ?_⟩, ?_⟩
  · rintro ⟨r, hr, -⟩
    have hsome := Option.isSome_of_eq_some hr
    exact absurd hsome (by decide +kernel)
  · simp only [List.forall_mem_cons]
    refine ⟨⟨_, rfl, fun hkept => ?_⟩, ⟨_, rfl, fun hkept => ?_⟩, ⟨_, rfl, fun hkept => ?_⟩,
      ⟨_, rfl, fun hkept => ?_⟩, fun _ h => absurd h List.not_mem_nil⟩
    · exact absurd (hkept.failures (.pool 0) .stalled (by decide)) (by decide +kernel)
    · exact absurd (hkept.fifo.head (.pool 0)) (by decide +kernel)
    · exact absurd (hkept.fifo.nodup (.control 1)) (by decide +kernel)
    · exact absurd hkept.bytes (by decide +kernel)

end HpmSdk.Usb
