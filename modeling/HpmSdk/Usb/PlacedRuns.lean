import HpmSdk.Usb.PlacedIsr
import HpmSdk.Usb.TransferRange
import HpmSdk.Usb.XfersRuns
import Mathlib.Tactic.FinCases

set_option autoImplicit false

/-!
# USB host: runs in memory

The calls of the driver, what the controller does, and the interrupts, in any order and for any
place of `hcd_data_t`.  While every call is one that the mapping is right for, every link leads to
what it means, for the controller and for the driver.

`Filled` says what the descriptors hold, and `Leads` what the links hold; a call keeps both under
the condition of its kind.
-/

namespace HpmSdk.Usb

open HpmSdk.Foundation HpmSdk.Soc

/-! ## Descriptors behind the calls -/

/-- The page pointers of every descriptor are made from the system address of its buffer, and
where the addresses of `hcd_data_t` differ no descriptor is linked to another one. -/
structure UsbMem.Filled (P : UsbPlace) (m : UsbMem) : Prop where
  pages : ∀ t, (m.hcd.qtd t).buffer =
    usbPagePointers usbSocHcdQtdBufferCount (usbBufferAddress P.core (m.given t).1)
  chain : P.InDlm → Placed.Unchained m.hcd

namespace Placed

variable {P : UsbPlace} {m : UsbMem} {h : UsbHcd}

section Filled

variable {h' : UsbHcd} {n : UsbNode} {t : UsbQtdNode} {d : UsbQtd} {buffer : BitVec 32}
  {length : BitVec 16}

/-- What is filled stays so where no descriptor is filled anew. -/
theorem filled_same (hm : (m.put P h).Filled P) (hsame : SameFilled h h') :
    (m.put P h').Filled P := by
  refine ⟨fun t => ?_, fun hlocal => (hm.chain hlocal).of_filled hsame⟩
  exact (hsame t).2.trans (hm.pages t)

/-- A descriptor that is filled has the address of its buffer. -/
theorem filled_fill (hm : (m.put P h).Filled P) (hd : d.next = ⟨none, true⟩)
    (hbuffer : d.buffer =
      usbPagePointers usbSocHcdQtdBufferCount (usbBufferAddress P.core buffer)) :
    ((m.give t buffer length).put P (h.setQtd t d)).Filled P := by
  refine ⟨fun u => ?_, fun hlocal u => ?_⟩
  · have hold : (h.qtd u).buffer = usbPagePointers usbSocHcdQtdBufferCount
        (usbBufferAddress P.core (m.given u).1) := hm.pages u
    unfold UsbMem.put UsbMem.give
    dsimp only
    by_cases hu : u = t
    · rw [hu, UsbHcd.setQtd_self, Function.update_self]
      exact hbuffer
    · rw [UsbHcd.setQtd_of_ne _ _ hu, Function.update_of_ne hu]
      exact hold
  · by_cases hu : u = t
    · have hself : ((h.setQtd t d).qtd u).next = ⟨none, true⟩ := by
        rw [hu, UsbHcd.setQtd_self]
        exact hd
      exact congrArg UsbQtdLink.address hself
    · have hother : ((h.setQtd t d).qtd u).next = (h.qtd u).next := by
        rw [UsbHcd.setQtd_of_ne _ _ hu]
      exact (congrArg UsbQtdLink.address hother).trans (hm.chain hlocal u)

/-- A descriptor that is linked keeps what it was filled with. -/
theorem filled_insert (hm : (m.put P h).Filled P) (hplace : P.InDlm → (h.queue n).listHead = none)
    (hr : Usb.usbHostQtdInsertToQhd h n t = some h') : (m.put P h').Filled P := by
  have hranges := usbHostQtdInsertToQhd_ranges hr
  refine ⟨fun u => (hranges u).1.trans (hm.pages u), fun hlocal => ?_⟩
  unfold Usb.usbHostQtdInsertToQhd at hr
  rw [if_pos (hplace hlocal)] at hr
  cases hr
  exact hm.chain hlocal

theorem usbHostTailIoc_filled (hr : Usb.usbHostTailIoc h n = some h') : SameFilled h h' := by
  obtain ⟨tail, -, rfl⟩ := Option.map_eq_some_iff.mp hr
  exact sameFilled_setQtd rfl rfl

variable {devAddr epAddr : BitVec 8} {r : Bool × UsbHcd}

/-- A transfer to an endpoint fills its descriptor. -/
theorem usbHostEdptXfer_filled (hm : (m.put P h).Filled P)
    (hplace : usbEdptNumber epAddr ≠ 0 → QueueFree P h (usbPipeTarget h devAddr epAddr))
    (hr : Usb.usbHostEdptXfer P.core h devAddr epAddr buffer length = some r) :
    ((m.gives r.1 (usbEdptTarget h devAddr epAddr) buffer length).put P r.2).Filled P := by
  unfold Usb.usbHostEdptXfer at hr
  unfold usbEdptTarget
  dsimp only at hr
  split at hr
  · next hcontrol =>
    obtain ⟨n, hn, hr⟩ := Option.bind_eq_some_iff.mp hr
    obtain ⟨t, ht, rfl⟩ := Option.map_eq_some_iff.mp hr
    rw [if_pos hcontrol, usbControlTarget_eq hn ht]
    exact filled_same (filled_fill hm rfl rfl) (SameFilled.refl _)
  · next hcontrol =>
    rw [if_neg hcontrol]
    split at hr
    · next n t hn ht =>
      obtain ⟨h₁, hins, hr⟩ := Option.bind_eq_some_iff.mp hr
      obtain ⟨h₂, hioc, rfl⟩ := Option.map_eq_some_iff.mp hr
      have htarget := usbPipeTarget_eq hn ht
      rw [htarget]
      have hqueued := filled_insert (m := m.give t buffer length)
        (filled_fill hm (d := { usbHostQtdInit (usbBufferAddress P.core buffer) length with
          pid := (h.host.qhd n).pid }) rfl rfl)
        (fun hlocal => hplace hcontrol hlocal (n, t) htarget) hins
      exact filled_same (filled_same hqueued (usbHostTailIoc_filled hioc)) (SameFilled.refl _)
    · cases hr
      exact hm

/-- A set-up packet fills its descriptor. -/
theorem usbHostSetupSend_filled (hm : (m.put P h).Filled P) {setupPacket : BitVec 32}
    (hr : Usb.usbHostSetupSend P.core h devAddr setupPacket = some r) :
    ((m.gives r.1 (usbControlTarget devAddr) setupPacket usbSetupPacketLen).put P r.2).Filled
      P := by
  obtain ⟨n, hn, hr⟩ := Option.bind_eq_some_iff.mp hr
  obtain ⟨t, ht, rfl⟩ := Option.map_eq_some_iff.mp hr
  rw [usbControlTarget_eq hn ht]
  exact filled_same (filled_fill hm rfl rfl) (SameFilled.refl _)

/-- A call on a pipe, for a buffer that needs no mapping or is not taken. -/
def PipeFree (P : UsbPlace) (h : UsbHcd) (target : Option (UsbNode × UsbQtdNode))
    (buffer : BitVec 32) : Prop :=
  QueueFree P h target ∧ (target ≠ none → buffer = 0 ∨ ¬ LocalAddress buffer)

theorem usbHostPipeQueueXfer_filled (hm : (m.put P h).Filled P)
    (hplace : PipeFree P h (usbPipeTarget h devAddr epAddr) buffer)
    (hr : Usb.usbHostPipeQueueXfer h devAddr epAddr buffer length = some r) :
    ((m.gives r.1 (usbPipeTarget h devAddr epAddr) buffer length).put P r.2).Filled P := by
  unfold Usb.usbHostPipeQueueXfer at hr
  split at hr
  · next n t hn ht =>
    obtain ⟨h₁, hins, rfl⟩ := Option.map_eq_some_iff.mp hr
    have htarget := usbPipeTarget_eq hn ht
    have haddress : usbBufferAddress P.core buffer = buffer :=
      usbBufferAddress_eq_self_iff.mpr (hplace.2 (htarget ▸ Option.some_ne_none _))
    rw [htarget]
    refine filled_insert (m := m.give t buffer length)
      (filled_fill hm (d := { usbHostQtdInit buffer length with
        pid := (h.host.qhd n).pid }) rfl ?_)
      (fun hlocal => hplace.1 hlocal (n, t) htarget) hins
    rw [haddress]
    rfl
  · cases hr
    exact hm

/-- A transfer to a pipe fills its descriptor, and the buffer is not mapped. -/
theorem usbHostPipeXfer_filled (hm : (m.put P h).Filled P) {intOnComplete : Bool}
    (hplace : PipeFree P h (usbPipeTarget h devAddr epAddr) buffer)
    (hr : Usb.usbHostPipeXfer h devAddr epAddr buffer length intOnComplete = some r) :
    ((m.gives r.1 (usbPipeTarget h devAddr epAddr) buffer length).put P r.2).Filled P := by
  obtain ⟨⟨ok, h₁⟩, hqueue, hr⟩ := Option.bind_eq_some_iff.mp hr
  have hqueued := usbHostPipeQueueXfer_filled hm hplace hqueue
  cases ok with
  | false =>
    cases hr
    exact hqueued
  | true =>
    obtain ⟨n, hn, -⟩ := usbHostPipeQueueXfer_head hqueue
    rw [hn] at hr
    obtain ⟨h₂, hioc, rfl⟩ := Option.map_eq_some_iff.mp hr
    have hlast : SameFilled h₁ h₂ := by
      split at hioc
      · exact usbHostTailIoc_filled hioc
      · cases hioc
        exact SameFilled.refl _
    exact filled_same (filled_same hqueued hlast) (SameFilled.refl _)

end Filled

/-! ## Setting up -/

/-- The words lead to what the links mean. -/
def Leads (P : UsbPlace) (m : UsbMem) : Prop := m.words = P.words m.hcd

/-- Words that are those of the objects lead to them. -/
theorem Leads.put (P : UsbPlace) (m : UsbMem) (h : UsbHcd) : Leads P (m.put P h) := rfl

theorem Leads.eq_put (hm : Leads P m) : m = m.put P m.hcd := by
  unfold Leads at hm
  unfold UsbMem.put
  rw [← hm]

theorem Leads.framelistInsert (hm : Leads P m) (current : Fin usbHostFramelistSize)
    (new : UsbNode) : Leads P (usbHostFramelistInsert P m current new) := by
  rw [hm.eq_put, usbHostFramelistInsert_put]
  exact Leads.put ..

/-- Filling the frame list leads to the heads. -/
theorem Leads.framelistInserts (new : UsbNode) : ∀ (is : List (Fin usbHostFramelistSize))
    {m : UsbMem}, Leads P m → Leads P (is.foldl (fun m i => usbHostFramelistInsert P m i new) m)
  | [], _, hm => hm
  | i :: is, _, hm => Leads.framelistInserts new is (hm.framelistInsert i new)

theorem Leads.initAsyncList (hm : Leads P m) : Leads P (usbHostInitAsyncList P m) := by
  have hterm : P.qtdLink ⟨none, true⟩ = 1 := BitVec.zero_or
  unfold Leads at hm ⊢
  unfold usbHostInitAsyncList Usb.usbHostInitAsyncList
  dsimp only
  rw [UsbPlace.words_setQueue, UsbPlace.words_setQhd, ← hm]
  dsimp only
  rw [UsbPlace.link_to]
  unfold usbHaltedQueue
  dsimp only
  rw [hterm]
  rfl

theorem Leads.periodHeads (hm : Leads P m) : Leads P (usbHostPeriodHeads m) := by
  unfold usbHostPeriodHeads
  generalize ([0, 1, 2, 3] : List (Fin usbHcdPeriodicArrCount)) = is
  induction is generalizing m with
  | nil => exact hm
  | cons i is ih =>
    refine ih ?_
    unfold Leads at hm ⊢
    dsimp only
    rw [UsbPlace.words_setQueue_same, UsbPlace.words_setQhd_same, hm]
    all_goals rfl

theorem Leads.framelistClear (hm : Leads P m) : Leads P (usbHostFramelistClear P m) := by
  unfold Leads at hm ⊢
  unfold usbHostFramelistClear
  rw [hm]
  have hlink : P.toNode (.period usbPeriod1ms) = P.link (UsbLink.to (.period usbPeriod1ms)) :=
    (UsbPlace.link_to _).symm
  exact congrArg (fun v => { P.words m.hcd with framelist := fun _ => v }) hlink

/-- And so do the periodic lists behind the set-up. -/
theorem Leads.initPeriodicList (hm : Leads P m) : Leads P (usbHostInitPeriodicList P m) := by
  have hlists : Leads P (usbHostFramelistInsert P (([1, 5] : List (Fin usbHostFramelistSize)).foldl
      (fun m i => usbHostFramelistInsert P m i (.period 2))
      (([0, 2, 4, 6] : List (Fin usbHostFramelistSize)).foldl
        (fun m i => usbHostFramelistInsert P m i (.period 1))
        (usbHostFramelistClear P (usbHostPeriodHeads m)))) 3 (.period 3)) :=
    (Leads.framelistInserts _ _ (Leads.framelistInserts _ _
      hm.periodHeads.framelistClear)).framelistInsert _ _
  unfold usbHostInitPeriodicList
  dsimp only
  generalize usbHostFramelistInsert P _ 3 _ = m' at hlists ⊢
  unfold Leads at hlists ⊢
  dsimp only
  rw [UsbPlace.words_setNext, UsbPlace.link_terminated, hlists]
  rfl

theorem Leads.zero (regs : UsbListRegs) : Leads P (usbMemZero regs) := by
  have hlink : P.link ⟨none, false⟩ = 0 := BitVec.or_zero
  have hqtd : P.qtdLink ⟨none, false⟩ = 0 := BitVec.or_zero
  unfold Leads usbMemZero UsbPlace.words UsbQhd.zero UsbQueue.zero UsbQtd.zero
  dsimp only
  rw [hlink, hqtd]
  rfl

/-- What `usb_host_init` sets up is what is meant. -/
theorem usbHostInit_hcd (regs : UsbListRegs) : (usbHostInit P regs).hcd = usbHcdInit := by
  have hqueue : (usbHostInit P regs).hcd.queue = usbHcdInit.queue := by
    funext n
    cases n with
    | control i => fin_cases i <;> rfl
    | period i => fin_cases i <;> rfl
    | pool i => rfl
  have hhost : (usbHostInit P regs).hcd.host = usbHcdInit.host := rfl
  have hqtd : (usbHostInit P regs).hcd.qtd = usbHcdInit.qtd := rfl
  calc (usbHostInit P regs).hcd
      = ⟨(usbHostInit P regs).hcd.host, (usbHostInit P regs).hcd.queue,
          (usbHostInit P regs).hcd.qtd⟩ := rfl
    _ = usbHcdInit := by rw [hqueue, hhost, hqtd]

end Placed

/-! ## Calls -/

/-- What a call does to the objects, with every link followed to what it means. -/
def usbHcdCall (mcu : HpmCore) (cfg : TusbConfig) (h : UsbHcd) :
    UsbXferAct → Option (UsbHcd × List UsbTrace)
  | .edptOpen devAddr speed desc => (usbHcdEdptOpen h devAddr speed desc).map fun r => (r.2, [])
  | .deviceClose devAddr passes =>
    (usbHostDeviceClose passes h.host devAddr).map fun r => ({ h with host := r.1 }, [])
  | .asyncAdvance =>
    (asyncAdvanceIsrFor cfg h.host).map fun host => ({ h with host := host }, [])
  | .edptXfer devAddr epAddr buffer buflen =>
    (usbHostEdptXfer mcu h devAddr epAddr buffer buflen).map fun r => (r.2, [])
  | .setupSend devAddr setupPacket =>
    (usbHostSetupSend mcu h devAddr setupPacket).map fun r => (r.2, [])
  | .pipeQueueXfer devAddr epAddr buffer totalBytes =>
    (usbHostPipeQueueXfer h devAddr epAddr buffer totalBytes).map fun r => (r.2, [])
  | .pipeXfer devAddr epAddr buffer totalBytes intOnComplete =>
    (usbHostPipeXfer h devAddr epAddr buffer totalBytes intOnComplete).map fun r => (r.2, [])
  | .complete n left how => (usbHcComplete h n left how).map fun r => (r.2, [])
  | .completionIsr c => usbCompletionIsr cfg h c
  | .errorIsr => xferErrorIsr h
  | .clearStall devAddr epAddr => (usbHostEdptClearStall h devAddr epAddr).map fun r => (r.2, [])

/-- These are the steps of a run of transfers. -/
theorem UsbXfers.step_hcd (mcu : HpmCore) (cfg : TusbConfig) (s : UsbXfers) (a : UsbXferAct) :
    (s.step mcu cfg a).map UsbXfers.hcd = (usbHcdCall mcu cfg s.hcd a).map Prod.fst := by
  have hsubmitted : ∀ (target : Option (UsbNode × UsbQtdNode)) (r : Bool × UsbHcd),
      (s.submitted target r).hcd = r.2 := by
    intro target r
    unfold UsbXfers.submitted
    split <;> rfl
  cases a with
  | edptOpen =>
    unfold UsbXfers.step usbHcdCall
    rw [Option.map_map, Option.map_map]
    refine Option.map_congr fun r _ => ?_
    dsimp only [Function.comp]
    split <;> rfl
  | edptXfer | setupSend | pipeQueueXfer | pipeXfer =>
    unfold UsbXfers.step usbHcdCall
    rw [Option.map_map, Option.map_map]
    exact Option.map_congr fun r _ => hsubmitted _ r
  | deviceClose | asyncAdvance | complete | clearStall =>
    unfold UsbXfers.step usbHcdCall
    rw [Option.map_map, Option.map_map]
    rfl
  | completionIsr | errorIsr =>
    unfold UsbXfers.step usbHcdCall
    rw [Option.map_map]
    rfl

namespace Placed

variable {P : UsbPlace} {m : UsbMem} {h : UsbHcd}

/-- `async_list_xfer_complete_isr` or `period_list_xfer_complete_isr`. -/
def usbCompletionIsr (P : UsbPlace) (cfg : TusbConfig) (m : UsbMem) :
    UsbList → Option (UsbMem × List UsbTrace)
  | .async => asyncListXferCompleteIsr P m
  | .period i => periodListXferCompleteIsr P cfg m i

/-- What a call does to the memory. -/
def call (P : UsbPlace) (cfg : TusbConfig) (m : UsbMem) :
    UsbXferAct → Option (UsbMem × List UsbTrace)
  | .edptOpen devAddr speed desc =>
    (usbHostEdptOpen P m devAddr speed desc).map fun r => (r.2, [])
  | .deviceClose devAddr passes => (usbHostDeviceClose P passes m devAddr).map fun r => (r.1, [])
  | .asyncAdvance => (asyncAdvanceIsrFor cfg m.hcd.host).map fun host =>
    ({ m with hcd := { m.hcd with host := host } }, [])
  | .edptXfer devAddr epAddr buffer buflen =>
    (usbHostEdptXfer P m devAddr epAddr buffer buflen).map fun r => (r.2, [])
  | .setupSend devAddr setupPacket =>
    (usbHostSetupSend P m devAddr setupPacket).map fun r => (r.2, [])
  | .pipeQueueXfer devAddr epAddr buffer totalBytes =>
    (usbHostPipeQueueXfer P m devAddr epAddr buffer totalBytes).map fun r => (r.2, [])
  | .pipeXfer devAddr epAddr buffer totalBytes intOnComplete =>
    (usbHostPipeXfer P m devAddr epAddr buffer totalBytes intOnComplete).map fun r => (r.2, [])
  | .complete n left how => (usbHcComplete P m n left how).map fun m => (m, [])
  | .completionIsr c => usbCompletionIsr P cfg m c
  | .errorIsr => xferErrorIsr P m
  | .clearStall devAddr epAddr => (usbHostEdptClearStall m.hcd devAddr epAddr).map fun r =>
    ({ m with hcd := r.2 }, [])

end Placed

namespace UsbMem

/-! ## The contract -/

/-- A buffer lies in the ILM, in the DLM or outside of both. -/
def InOneRam (buffer : BitVec 32) (length : BitVec 16) : Prop :=
  buffer.toNat + length.toNat ≤ 0x40000 ∨
    0x40000 ≤ buffer.toNat ∧ buffer.toNat + length.toNat ≤ 0x80000 ∨
    0x80000 ≤ buffer.toNat ∧ buffer.toNat + length.toNat ≤ 0xC0000 ∨
    0xC0000 ≤ buffer.toNat ∧ buffer.toNat + length.toNat ≤ 2 ^ 32

instance (buffer : BitVec 32) (length : BitVec 16) : Decidable (InOneRam buffer length) :=
  inferInstanceAs (Decidable (_ ∨ _ ∨ _ ∨ _))

/-- What is asked of every state: every link that the controller follows is the system address of
what it means, every pointer of the driver the local one, and the page pointers of a descriptor
are the system addresses of its buffer. -/
structure Right (P : UsbPlace) (m : UsbMem) : Prop where
  links : m.words = P.words m.hcd
  lists : m.regs = ⟨P.sys (P.node usbHostQhdAsyncHead), P.sys (P.address 0)⟩
  pages : ∀ t, (m.given t).1 ≠ 0 → InOneRam (m.given t).1 (m.given t).2 →
    ∀ k : Fin usbSocHcdQtdBufferCount, k.val = 0 ∨ TouchesPage (m.given t).1 (m.given t).2 k →
      (m.hcd.qtd t).buffer k = P.sys (BitVec.ofNat 32 (pageAddress (m.given t).1 k))

/-- What is asked of every call: it goes through, and does what it does to the objects where every
link is followed to what it means. -/
def Meets (P : UsbPlace) (cfg : TusbConfig) (m : UsbMem) (a : UsbXferAct) : Prop :=
  ∀ r, usbHcdCall P.core cfg m.hcd a = some r →
    ∃ m', Placed.call P cfg m a = some (m', r.2) ∧ m'.hcd = r.1

/-- A call that does not go through `NULL` or beyond an array by what the links mean. -/
def step (P : UsbPlace) (cfg : TusbConfig) (m : UsbMem) (a : UsbXferAct) : Option UsbMem :=
  (usbHcdCall P.core cfg m.hcd a).bind fun _ => (Placed.call P cfg m a).map Prod.fst

/-- After `usb_host_init`. -/
def init (P : UsbPlace) : UsbMem := Placed.usbHostInit P ⟨0, 0⟩

/-- The calls that keep the contract.  In the DLM a descriptor may only go to an empty queue, and
the periodic lists must not be gone through; the pipe functions need a buffer that is not local;
and what maps back needs the DLM or core 0. -/
def Regular (P : UsbPlace) (m : UsbMem) : UsbXferAct → Prop
  | .edptXfer devAddr epAddr _ _ =>
      usbEdptNumber epAddr ≠ 0 → Placed.QueueFree P m.hcd (usbPipeTarget m.hcd devAddr epAddr)
  | .pipeQueueXfer devAddr epAddr buffer _ | .pipeXfer devAddr epAddr buffer _ _ =>
      Placed.PipeFree P m.hcd (usbPipeTarget m.hcd devAddr epAddr) buffer
  | .deviceClose devAddr _ => devAddr = 0 ∨ P.MapsBack
  | .completionIsr .async => P.MapsBack
  | .completionIsr (.period i) =>
      P.InDlm → (m.hcd.host.qhd (.period i)).next.terminate = true
  | .errorIsr => P.MapsBack ∧ ¬ P.InDlm
  | .edptOpen _ _ _ | .asyncAdvance | .setupSend _ _ | .complete _ _ _ | .clearStall _ _ => True

instance (P : UsbPlace) (m : UsbMem) : ∀ a, Decidable (m.Regular P a)
  | .edptXfer devAddr epAddr _ _ => inferInstanceAs (Decidable (usbEdptNumber epAddr ≠ 0 →
      P.InDlm → ∀ p ∈ usbPipeTarget m.hcd devAddr epAddr, (m.hcd.queue p.1).listHead = none))
  | .pipeQueueXfer devAddr epAddr buffer _ | .pipeXfer devAddr epAddr buffer _ _ =>
    inferInstanceAs (Decidable ((P.InDlm → ∀ p ∈ usbPipeTarget m.hcd devAddr epAddr,
      (m.hcd.queue p.1).listHead = none) ∧
        (usbPipeTarget m.hcd devAddr epAddr ≠ none → buffer = 0 ∨ ¬ LocalAddress buffer)))
  | .deviceClose devAddr _ => inferInstanceAs (Decidable (devAddr = 0 ∨ P.MapsBack))
  | .completionIsr .async => inferInstanceAs (Decidable P.MapsBack)
  | .completionIsr (.period i) => inferInstanceAs (Decidable
      (P.InDlm → (m.hcd.host.qhd (.period i)).next.terminate = true))
  | .errorIsr => inferInstanceAs (Decidable (P.MapsBack ∧ ¬ P.InDlm))
  | .edptOpen _ _ _ | .asyncAdvance | .setupSend _ _ | .complete _ _ _ | .clearStall _ _ =>
    inferInstanceAs (Decidable True)

/-! ## The invariant -/

/-- What the calls keep. -/
structure Inv (P : UsbPlace) (m : UsbMem) : Prop where
  leads : Placed.Leads P m
  lists : m.regs = ⟨P.sys (P.node usbHostQhdAsyncHead), P.sys (P.address 0)⟩
  filled : m.Filled P

variable {P : UsbPlace} {m : UsbMem}

/-- Behind the set-up every word leads to what it means. -/
theorem init_inv (P : UsbPlace) : (init P).Inv P := by
  refine ⟨(Placed.Leads.zero ⟨0, 0⟩).initAsyncList.initPeriodicList, rfl, fun t => ?_,
    fun _ t => ?_⟩
  · unfold init
    rw [Placed.usbHostInit_hcd]
    funext k
    exact (if_neg fun h => h rfl).symm
  · unfold init
    rw [Placed.usbHostInit_hcd]
    rfl

theorem gives_regs (m : UsbMem) (ok : Bool) (target : Option (UsbNode × UsbQtdNode))
    (given : BitVec 32) (length : BitVec 16) : (m.gives ok target given length).regs = m.regs := by
  unfold gives
  split <;> rfl

/-- A call that fills its descriptors keeps the invariant. -/
theorem Inv.put {m' : UsbMem} {h : UsbHcd} (hm : m.Inv P) (hregs : m'.regs = m.regs)
    (hfilled : (m'.put P h).Filled P) : (m'.put P h).Inv P :=
  ⟨rfl, hregs.trans hm.lists, hfilled⟩

theorem usbHcdEdptOpen_qtd {h : UsbHcd} {devAddr : BitVec 8} {speed : UsbSpeed}
    {desc : UsbDescEndpoint} {r : Bool × UsbHcd}
    (hr : usbHcdEdptOpen h devAddr speed desc = some r) : r.2.qtd = h.qtd := by
  obtain ⟨r', -, rfl⟩ := Option.map_eq_some_iff.mp hr
  split
  · split <;> rfl
  · rfl

/-- A regular call goes through, does what is meant, and keeps the invariant. -/
theorem Inv.call {cfg : TusbConfig} {a : UsbXferAct} {r : UsbHcd × List UsbTrace} (hm : m.Inv P)
    (hok : m.Regular P a) (hr : usbHcdCall P.core cfg m.hcd a = some r) :
    ∃ m', Placed.call P cfg m a = some (m', r.2) ∧ m'.hcd = r.1 ∧ m'.Inv P := by
  have hput : m = m.put P m.hcd := hm.leads.eq_put
  have hfilled : (m.put P m.hcd).Filled P := hput ▸ hm.filled
  have hkeeps : ∀ h', Placed.SameFilled m.hcd h' → (m.put P h').Inv P := fun h' hsame =>
    hm.put rfl (Placed.filled_same hfilled hsame)
  cases a with
  | edptOpen devAddr speed desc =>
    obtain ⟨r', hr', rfl⟩ := Option.map_eq_some_iff.mp hr
    have hcall := Placed.usbHostEdptOpen_put (P := P) (m := m) hr'
    rw [← hput] at hcall
    refine ⟨_, congrArg (Option.map _) hcall, rfl, hkeeps _ fun t => ?_⟩
    rw [usbHcdEdptOpen_qtd hr']
    exact ⟨rfl, rfl⟩
  | deviceClose devAddr passes =>
    obtain ⟨r', hr', rfl⟩ := Option.map_eq_some_iff.mp hr
    have hcall := Placed.usbHostDeviceClose_put (P := P) (m := m) hok hr'
    rw [← hput] at hcall
    exact ⟨_, congrArg (Option.map _) hcall, rfl, hkeeps _ (Placed.SameFilled.refl _)⟩
  | asyncAdvance =>
    obtain ⟨host, hr', rfl⟩ := Option.map_eq_some_iff.mp hr
    have hwords : m.words = P.words { m.hcd with host := host } :=
      hm.leads.trans (Placed.words_asyncAdvance hr').symm
    refine ⟨_, congrArg (Option.map _) hr', rfl, ?_⟩
    exact ⟨hwords, hm.lists, hm.filled.pages, hm.filled.chain⟩
  | edptXfer devAddr epAddr buffer buflen =>
    obtain ⟨r', hr', rfl⟩ := Option.map_eq_some_iff.mp hr
    have hcall := Placed.usbHostEdptXfer_put (m := m) hok hr'
    rw [← hput] at hcall
    exact ⟨_, congrArg (Option.map _) hcall, rfl, hm.put (gives_regs ..)
      (Placed.usbHostEdptXfer_filled hfilled hok hr')⟩
  | setupSend devAddr setupPacket =>
    obtain ⟨r', hr', rfl⟩ := Option.map_eq_some_iff.mp hr
    have hcall := Placed.usbHostSetupSend_put (m := m) hr'
    rw [← hput] at hcall
    exact ⟨_, congrArg (Option.map _) hcall, rfl, hm.put (gives_regs ..)
      (Placed.usbHostSetupSend_filled hfilled hr')⟩
  | pipeQueueXfer devAddr epAddr buffer totalBytes =>
    obtain ⟨r', hr', rfl⟩ := Option.map_eq_some_iff.mp hr
    have hcall := Placed.usbHostPipeQueueXfer_put (m := m) hok.1 hr'
    rw [← hput] at hcall
    exact ⟨_, congrArg (Option.map _) hcall, rfl, hm.put (gives_regs ..)
      (Placed.usbHostPipeQueueXfer_filled hfilled hok hr')⟩
  | pipeXfer devAddr epAddr buffer totalBytes intOnComplete =>
    obtain ⟨r', hr', rfl⟩ := Option.map_eq_some_iff.mp hr
    have hcall := Placed.usbHostPipeXfer_put (m := m) hok.1 hr'
    rw [← hput] at hcall
    exact ⟨_, congrArg (Option.map _) hcall, rfl, hm.put (gives_regs ..)
      (Placed.usbHostPipeXfer_filled hfilled hok hr')⟩
  | complete n left how =>
    obtain ⟨r', hr', rfl⟩ := Option.map_eq_some_iff.mp hr
    obtain ⟨hcall, hsame⟩ := Placed.usbHcComplete_put (P := P) (m := m) hr'
    rw [← hput] at hcall
    exact ⟨_, congrArg (Option.map _) hcall, rfl, hkeeps _ hsame⟩
  | completionIsr c =>
    have hsame := Placed.usbCompletionIsr_filled hr
    have hcall : Placed.call P cfg (m.put P m.hcd) (.completionIsr c) =
        some (m.put P r.1, r.2) := by
      cases c with
      | async => exact Placed.asyncListXferCompleteIsr_put hok hm.filled.chain hr
      | period i => exact Placed.periodListXferCompleteIsr_put hok hr
    rw [← hput] at hcall
    exact ⟨_, hcall, rfl, hkeeps _ hsame⟩
  | errorIsr =>
    have hcall := Placed.xferErrorIsr_put (m := m) (hok.1.resolve_left hok.2) hok.2 hr
    rw [← hput] at hcall
    exact ⟨_, hcall, rfl, hkeeps _ (Placed.xferErrorIsr_filled hr)⟩
  | clearStall devAddr epAddr =>
    obtain ⟨r', hr', rfl⟩ := Option.map_eq_some_iff.mp hr
    have hwords : m.words = P.words r'.2 := hm.leads.trans (Placed.words_clearStall hr').symm
    have hqtd : r'.2.qtd = m.hcd.qtd := by
      obtain ⟨n, -, rfl⟩ := Option.map_eq_some_iff.mp hr'
      rfl
    refine ⟨_, congrArg (Option.map _) hr', rfl, hwords, hm.lists, fun t => ?_, fun hlocal t => ?_⟩
    · exact (congrArg (fun qtd => (qtd t).buffer) hqtd).trans (hm.filled.pages t)
    · exact (congrArg (fun qtd => (qtd t).next.address) hqtd).trans (hm.filled.chain hlocal t)

/-! ## Pages -/

/-- Mapping moves whole pages of a window. -/
theorem sys_toNat_of_local {a : BitVec 32} (h : LocalAddress a) : (P.sys a).toNat + 0x40000 =
    aliasBase P.core + a.toNat + if AddressInIlm a then 0x40000 else 0 := by
  have hval := coreLocalMem_toNat P.core h
  have hbase := aliasBase_eq P.core
  unfold UsbPlace.sys
  rw [hval]
  split <;> omega

/-- The page that a transfer goes on in lies in the same RAM as its buffer. -/
theorem pageAddress_inRam {buffer : BitVec 32} {length : BitVec 16}
    (hram : InOneRam buffer length) {k : Nat} (hk : k = 0 ∨ TouchesPage buffer length k) :
    (pageAddress buffer k < 0x40000 ↔ buffer.toNat < 0x40000) ∧
      (0x80000 ≤ pageAddress buffer k ∧ pageAddress buffer k < 0xC0000 ↔
        0x80000 ≤ buffer.toNat ∧ buffer.toNat < 0xC0000) := by
  unfold TouchesPage at hk
  unfold InOneRam at hram
  unfold pageAddress
  split <;> omega

/-- The page pointers made from the system address of a buffer are the system addresses of its
pages. -/
theorem usbPagePointer_sys {buffer : BitVec 32} {length : BitVec 16}
    (hram : InOneRam buffer length) {k : Nat} (hk : k = 0 ∨ TouchesPage buffer length k) :
    usbPagePointer (P.sys buffer) k = P.sys (BitVec.ofNat 32 (pageAddress buffer k)) := by
  obtain ⟨hilm, hdlm⟩ := pageAddress_inRam hram hk
  have hspace : buffer.toNat + length.toNat ≤ 2 ^ 32 := by
    unfold InOneRam at hram
    omega
  have hpage : (BitVec.ofNat 32 (pageAddress buffer k)).toNat = pageAddress buffer k :=
    (BitVec.toNat_ofNat _ _).trans (Nat.mod_eq_of_lt (pageAddress_lt hspace hk))
  have hilm' : AddressInIlm (BitVec.ofNat 32 (pageAddress buffer k)) ↔ AddressInIlm buffer := by
    rw [addressInIlm_iff, addressInIlm_iff, hpage]
    exact hilm
  have hdlm' : AddressInDlm (BitVec.ofNat 32 (pageAddress buffer k)) ↔ AddressInDlm buffer := by
    rw [addressInDlm_iff, addressInDlm_iff, hpage]
    exact hdlm
  have hlocal' : LocalAddress (BitVec.ofNat 32 (pageAddress buffer k)) ↔ LocalAddress buffer :=
    or_congr hilm' hdlm'
  apply BitVec.eq_of_toNat_eq
  rw [usbPagePointer_toNat]
  by_cases hlocal : LocalAddress buffer
  · have hsys := sys_toNat_of_local (P := P) hlocal
    have hsys' := sys_toNat_of_local (P := P) (hlocal'.mpr hlocal)
    have hbase := aliasBase_eq P.core
    simp only [hilm', hpage] at hsys'
    have hshift : pageAddress (P.sys buffer) k + 0x40000 = aliasBase P.core +
        pageAddress buffer k + if AddressInIlm buffer then 0x40000 else 0 := by
      unfold pageAddress at hpage ⊢
      split at hsys <;> split <;> omega
    rw [Nat.mod_eq_of_lt] <;> omega
  · have hsys : P.sys buffer = buffer := coreLocalMemToSysAddress_of_not_local hlocal
    have hsys' : P.sys (BitVec.ofNat 32 (pageAddress buffer k)) =
        BitVec.ofNat 32 (pageAddress buffer k) :=
      coreLocalMemToSysAddress_of_not_local (mt hlocal'.mp hlocal)
    rw [hsys, hsys', BitVec.toNat_ofNat]

/-- The invariant says what is asked of every state. -/
theorem Inv.right (hm : m.Inv P) : m.Right P := by
  refine ⟨hm.leads, hm.lists, fun t hgiven hram k hk => ?_⟩
  have hsys : P.sys (m.given t).1 ≠ 0 := by
    intro hzero
    by_cases hlocal : LocalAddress (m.given t).1
    · have hval := sys_toNat_of_local (P := P) hlocal
      have hbase := aliasBase_eq P.core
      rw [hzero] at hval
      change 0 + 0x40000 = _ at hval
      omega
    · have hself : P.sys (m.given t).1 = (m.given t).1 :=
        coreLocalMemToSysAddress_of_not_local hlocal
      exact hgiven (hself.symm.trans hzero)
  have haddress : usbBufferAddress P.core (m.given t).1 = P.sys (m.given t).1 := if_pos hgiven
  rw [hm.filled.pages t, haddress, ← usbPagePointer_sys hram hk]
  exact if_pos hsys

/-- Every regular step keeps the invariant. -/
theorem Inv.step {cfg : TusbConfig} {a : UsbXferAct} {m' : UsbMem} (hm : m.Inv P)
    (hok : m.Regular P a) (hstep : m.step P cfg a = some m') : m'.Inv P := by
  obtain ⟨r, hr, hcall⟩ := Option.bind_eq_some_iff.mp hstep
  obtain ⟨m₁, h₁, -, hinv⟩ := hm.call hok hr
  rw [h₁] at hcall
  cases hcall
  exact hinv

/-- Wherever `hcd_data_t` lies, in every run of regular calls every link leads to what it means,
for the controller and for the driver, and so do the page pointers.

What the memory holds is compared with the lists of the host driver by a relation (`Inv`) that
says of each word which address stands for which queue head or descriptor, as the controller reads
it or as the driver follows it.  Each call writes words through the address maps, and keeps the
relation where the map it uses, or leaves out, is the identity on what is written. -/
theorem usbHostAddresses_right (P : UsbPlace) (cfg : TusbConfig) (acts : List UsbXferAct)
    (hregular : Along (step P cfg) (Regular P) (init P) acts) :
    Along (step P cfg) (Meets P cfg) (init P) acts ∧
      ∀ m, run (step P cfg) (init P) acts = some m → m.Right P :=
  ⟨along_of_invariant (P := Inv P) (fun _ _ _ hm hok hstep => hm.step hok hstep)
      (fun _ _ hm hok _ hr => (hm.call hok hr).imp fun _ h => ⟨h.1, h.2.1⟩) acts _ (init_inv P)
      hregular,
    fun m hrun => (run_invariant_along (P := Inv P)
      (fun _ _ _ hm hok hstep => hm.step hok hstep) acts _ m (init_inv P) hregular hrun).right⟩

/-- In system RAM, on core 0. -/
def systemPlace : UsbPlace := ⟨.core0, 0x1080000, by decide, Or.inr (by decide)⟩

/-- In the DLM of core 0. -/
def dlmPlace : UsbPlace := ⟨.core0, 0x80000, by decide, Or.inl (by decide)⟩

/-- In system RAM, on core 1. -/
def core1Place : UsbPlace := ⟨.core1, 0x1080000, by decide, Or.inr (by decide)⟩

/-- A device with a control, a bulk and an interrupt endpoint, with two descriptors in flight, a
stall, and the close. -/
def systemTransfers : List UsbXferAct :=
  [.edptOpen 1 .high ⟨0, .control, 0⟩, .setupSend 1 0x81000, .complete (.control 1) 0 .done,
    .completionIsr .async, .edptOpen 1 .high ⟨0x81, .bulk, 0⟩,
    .edptOpen 1 .full ⟨0x82, .interrupt, 8⟩, .pipeQueueXfer 1 0x81 0x1100000 512,
    .pipeXfer 1 0x81 0x1100200 512 true, .complete (.pool 0) 0 .done, .completionIsr .async,
    .complete (.pool 0) 512 .stall, .completionIsr (.period 3), .errorIsr, .clearStall 1 0x81,
    .edptXfer 1 0x82 0x82000 8, .complete (.pool 1) 0 .done, .completionIsr (.period 3),
    .deviceClose 1 20, .asyncAdvance]

/-- The same in the DLM, one descriptor after another and without the periodic lists. -/
def dlmTransfers : List UsbXferAct :=
  [.edptOpen 1 .high ⟨0, .control, 0⟩, .setupSend 1 0x81000, .complete (.control 1) 0 .done,
    .completionIsr .async, .edptOpen 1 .high ⟨0x81, .bulk, 0⟩, .pipeXfer 1 0x81 0x1100000 512 true,
    .complete (.pool 0) 0 .done, .completionIsr .async, .edptXfer 1 0x81 0x82000 512,
    .complete (.pool 0) 0 .done, .completionIsr .async, .deviceClose 1 20, .asyncAdvance]

theorem usbHostAddresses_right_transfers :
    (Along (step systemPlace tusbMscOnly) (Meets systemPlace tusbMscOnly) (init systemPlace)
        systemTransfers ∧
      ∀ m, run (step systemPlace tusbMscOnly) (init systemPlace) systemTransfers = some m →
        m.Right systemPlace) ∧
    Along (step dlmPlace tusbMscOnly) (Meets dlmPlace tusbMscOnly) (init dlmPlace) dlmTransfers ∧
      ∀ m, run (step dlmPlace tusbMscOnly) (init dlmPlace) dlmTransfers = some m →
        m.Right dlmPlace :=
  ⟨usbHostAddresses_right systemPlace tusbMscOnly systemTransfers (by decide +kernel),
    usbHostAddresses_right dlmPlace tusbMscOnly dlmTransfers (by decide +kernel)⟩

/-- Two descriptors for one endpoint. -/
def twoTransfers : List UsbXferAct :=
  [.edptOpen 1 .high ⟨0x81, .bulk, 0⟩, .edptXfer 1 0x81 0x1100000 512,
    .edptXfer 1 0x81 0x1100200 512]

/-- A transfer from a buffer in the DLM. -/
def localBuffer : List UsbXferAct :=
  [.edptOpen 1 .high ⟨0x81, .bulk, 0⟩, .pipeXfer 1 0x81 0x82000 512 true]

/-- With `hcd_data_t` in the DLM the second descriptor is linked by its local address, and the
interrupts about the periodic lists and about errors follow system addresses as they are; a buffer
in the DLM goes to a pipe as it is; and on core 1 a system address that needs no mapping is mapped
back to another one. -/
theorem usbHostAddresses_broken :
    (∃ m, run (step dlmPlace tusbMscOnly) (init dlmPlace) twoTransfers = some m ∧
        ¬ m.Right dlmPlace) ∧
      (∃ m, run (step systemPlace tusbMscOnly) (init systemPlace) localBuffer = some m ∧
        ¬ m.Right systemPlace) ∧
      ¬ (init dlmPlace).Meets dlmPlace tusbMscOnly (.completionIsr (.period 1)) ∧
      ¬ (init dlmPlace).Meets dlmPlace tusbMscOnly .errorIsr ∧
      ¬ (init core1Place).Meets core1Place tusbMscOnly (.completionIsr .async) := by
  have hstuck : ∀ {P : UsbPlace} {a : UsbXferAct} {m : UsbMem},
      (usbHcdCall P.core tusbMscOnly m.hcd a).isSome = true →
      (Placed.call P tusbMscOnly m a).isNone = true → ¬ m.Meets P tusbMscOnly a := by
    intro P a m hmeant hnone hmeets
    obtain ⟨r, hr⟩ := Option.isSome_iff_exists.mp hmeant
    obtain ⟨m', hcall, -⟩ := hmeets r hr
    rw [hcall] at hnone
    cases hnone
  refine ⟨?_, ?_, hstuck (by decide +kernel) (by decide +kernel),
    hstuck (by decide +kernel) (by decide +kernel), hstuck (by decide +kernel) (by decide +kernel)⟩
  · have hlink : (run (step dlmPlace tusbMscOnly) (init dlmPlace) twoTransfers).map
        (fun m => (m.words.qtdNext (.pool 0), (dlmPlace.words m.hcd).qtdNext (.pool 0))) =
          some (0x80580, 0x1040580) := by
      decide +kernel
    obtain ⟨m, hrun, hlink⟩ := Option.map_eq_some_iff.mp hlink
    refine ⟨m, hrun, fun hright => ?_⟩
    rw [← hright.links, Prod.mk.injEq] at hlink
    exact absurd (hlink.1.symm.trans hlink.2) (by decide)
  · have hpage : (run (step systemPlace tusbMscOnly) (init systemPlace) localBuffer).map
        (fun m => (m.given (.pool 0), (m.hcd.qtd (.pool 0)).buffer 0)) =
          some ((0x82000, 512), 0x82000) := by
      decide +kernel
    obtain ⟨m, hrun, hpage⟩ := Option.map_eq_some_iff.mp hpage
    rw [Prod.mk.injEq] at hpage
    obtain ⟨hgiven, hpage⟩ := hpage
    refine ⟨m, hrun, fun hright => ?_⟩
    have hmapped := hright.pages (.pool 0)
    rw [hgiven] at hmapped
    have hsys := hmapped (by decide) (by decide) 0 (Or.inl rfl)
    exact absurd (hpage.symm.trans hsys) (by decide)

end UsbMem

end HpmSdk.Usb
