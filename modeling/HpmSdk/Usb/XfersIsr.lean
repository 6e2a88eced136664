import HpmSdk.Usb.XfersQueue
import HpmSdk.Usb.HostOpenRuns

set_option autoImplicit false

/-!
# USB host: the interrupts keep the queues

What an interrupt does on one queue head, and then on all queue heads of the lists that
it goes through.

`UsbOnly` says that what is done is about one queue head; it is composed over the loop.
-/

namespace HpmSdk.Usb

open HpmSdk.Foundation

/-! ## The invariant -/

/-- The queue heads of the schedule that the error interrupt can tell apart: those of
control endpoints are of their device, the others of no control endpoint. -/
structure UsbHostInv (h : UsbHost) : Prop where
  opens : UsbOpens.Inv ⟨h, []⟩
  control : ∀ i, (h.qhd (.control i)).epNumber = 0
  device : ∀ i, h.Linked (.control i) → (h.qhd (.control i)).devAddr.toNat = i.val
  pool : ∀ i, h.Linked (.pool i) → (h.qhd (.pool i)).epNumber ≠ 0

/-- What every action keeps. -/
structure UsbXfers.Inv (s : UsbXfers) : Prop where
  host : UsbHostInv s.hcd.host
  linked : ∀ n, s.ledger.queue n ≠ [] → s.hcd.host.Linked n
  queues : UsbQueues s.hcd s.ledger
  failures : UsbFailures s.hcd s.ledger

/-- Only one queue head and its descriptors changed. -/
structure UsbOnly (n : UsbNode) (s s' : UsbXfers) : Prop where
  host : s'.hcd.host = s.hcd.host
  queue : ∀ m, m ≠ n → s'.hcd.queue m = s.hcd.queue m
  members : ∀ m, m ≠ n → s'.ledger.queue m = s.ledger.queue m
  qtd : ∀ m, m ≠ n → ∀ t ∈ s.ledger.queue m, s'.hcd.qtd t = s.hcd.qtd t
  sub : ∀ t ∈ s'.ledger.queue n, t ∈ s.ledger.queue n

theorem UsbOnly.refl (n : UsbNode) (s : UsbXfers) : UsbOnly n s s :=
  ⟨rfl, fun _ _ => rfl, fun _ _ => rfl, fun _ _ _ _ => rfl, fun _ ht => ht⟩

/-- Two things done about one queue head are one. -/
theorem UsbOnly.trans {n : UsbNode} {s₁ s₂ s₃ : UsbXfers} (h₁ : UsbOnly n s₁ s₂)
    (h₂ : UsbOnly n s₂ s₃) : UsbOnly n s₁ s₃ := by
  refine ⟨h₂.host.trans h₁.host, fun m hm => (h₂.queue m hm).trans (h₁.queue m hm),
    fun m hm => (h₂.members m hm).trans (h₁.members m hm), fun m hm t ht => ?_,
    fun t ht => h₁.sub t (h₂.sub t ht)⟩
  refine (h₂.qtd m hm t ?_).trans (h₁.qtd m hm t ht)
  rwa [h₁.members m hm]

/-- Such a change keeps the rest of the invariant. -/
theorem UsbXfers.Inv.only {n : UsbNode} {s s' : UsbXfers} (hs : s.Inv) (hn : UsbOnly n s s')
    (hq : UsbQueues s'.hcd s'.ledger) (hf : UsbFailures s'.hcd s'.ledger) : s'.Inv := by
  refine ⟨hn.host ▸ hs.host, fun m hm => ?_, hq, hf⟩
  rw [hn.host]
  refine hs.linked m fun hnil => hm ?_
  by_cases hmn : m = n
  · subst hmn
    refine List.eq_nil_iff_forall_not_mem.mpr fun t ht => ?_
    have hold := hn.sub t ht
    rw [hnil] at hold
    exact List.not_mem_nil hold
  · rw [hn.members m hmn, hnil]

/-! ## Completion -/

section Completion

variable {h : UsbHcd} {l : UsbLedger} {n : UsbNode} {t : UsbQtdNode} {ts : List UsbQtdNode}

/-- Taking the first descriptor out is about its queue head only. -/
theorem UsbOnly.popped (hf : UsbFifo h l.queue) (hn : l.queue n = t :: ts) :
    UsbOnly n ⟨h, l⟩ ⟨usbHostPopped h n t ts, l.free n t⟩ := by
  refine ⟨rfl, fun m hm => usbHostPopped_queue_of_ne hm, fun m hm => Function.update_of_ne hm _ _,
    fun m hm u hu => ?_, fun u hu => ?_⟩
  · dsimp only
    rw [usbHostPopped_qtd]
    have hut : u ≠ t := by
      rintro rfl
      exact hf.apart m n hm hu (hn ▸ List.mem_cons_self)
    rw [if_neg hut]
  · exact mem_of_mem_tail hu

/-- So is a report. -/
theorem UsbOnly.reported (e : UsbEvent) :
    UsbOnly n ⟨h, l⟩ ⟨usbHostClearTotal h n, l.report n e⟩ :=
  ⟨rfl, fun _ hm => UsbHcd.setQueue_of_ne h _ hm, fun _ _ => rfl, fun _ _ _ _ => rfl,
    fun _ ht => ht⟩

/-- What is pending is told by the queues and the descriptors. -/
theorem UsbXfers.pending_congr (s s' : UsbXfers) {m : UsbNode}
    (hmem : ∀ u, u ∈ s'.ledger.queue m ∧ (s'.hcd.qtd u).halted = true ↔
      u ∈ s.ledger.queue m ∧ (s.hcd.qtd u).halted = true)
    (hresult : ∀ u ∈ s.ledger.queue m, (s'.hcd.qtd u).result = (s.hcd.qtd u).result)
    (r : XferResult) : s'.Pending m r ↔ s.Pending m r := by
  constructor
  · rintro ⟨u, hu, hhalt, hr⟩
    obtain ⟨hold, hhalt'⟩ := (hmem u).mp ⟨hu, hhalt⟩
    exact ⟨u, hold, hhalt', (hresult u hold).symm.trans hr⟩
  · rintro ⟨u, hu, hhalt, hr⟩
    obtain ⟨hnew, hhalt'⟩ := (hmem u).mpr ⟨hu, hhalt⟩
    exact ⟨u, hnew, hhalt', (hresult u hu).trans hr⟩

/-- A descriptor that did not halt leaves everything as it was to be reported. -/
theorem UsbFailures.popped (hf : UsbFailures h l) (hn : l.queue n = t :: ts)
    (hhalt : (h.qtd t).halted = false) :
    UsbFailures (usbHostPopped h n t ts) (l.free n t) := by
  intro m r hr
  have hpending := UsbXfers.pending_congr ⟨h, l⟩ ⟨usbHostPopped h n t ts, l.free n t⟩ (m := m)
    (fun u => ?_) (fun u hu => ?_) r
  · rw [show (l.free n t).failed m r = l.failed m r from rfl, hf m r hr]
    simp only [hpending]
    rfl
  · dsimp only
    rw [usbHostPopped_qtd]
    refine and_congr_left fun hu => ⟨mem_of_mem_tail, fun hin => ?_⟩
    rw [UsbLedger.free_queue]
    by_cases hm : m = n
    · subst hm
      rw [Function.update_self, hn]
      rw [hn] at hin
      refine (List.mem_cons.mp hin).resolve_left fun hut => ?_
      rw [hut, hhalt] at hu
      exact Bool.false_ne_true hu
    · rw [Function.update_of_ne hm]
      exact hin
  · dsimp only
    rw [usbHostPopped_qtd]
    rfl

/-- Reporting a success counts for no failure. -/
theorem UsbFailures.reported (hf : UsbFailures h l) {e : UsbEvent} (he : e.result = .success) :
    UsbFailures (usbHostClearTotal h n) (l.report n e) := by
  intro m r hr
  have hcount : (l.report n e).reported m r = l.reported m r := by
    unfold UsbLedger.report
    dsimp only
    by_cases hm : m = n
    · subst hm
      rw [Function.update_self, Function.update_of_ne (he ▸ hr)]
    · rw [Function.update_of_ne hm]
  rw [hcount]
  exact hf m r hr

/-- The counting looks at what freeing a descriptor does not change. -/
theorem UsbCounts.congr {h' : UsbHcd} : ∀ {ts : List UsbQtdNode} {total : Nat},
    UsbCounts h total ts →
      (∀ u ∈ ts, (h'.qtd u).active = (h.qtd u).active ∧ (h'.qtd u).bytes = (h.qtd u).bytes ∧
        (h'.qtd u).intOnComplete = (h.qtd u).intOnComplete) → UsbCounts h' total ts
  | [], _, _, _ => trivial
  | t :: ts, total, hcounts, hsame => by
    obtain ⟨hactive, hbytes, hioc⟩ := hsame t List.mem_cons_self
    unfold UsbCounts at hcounts ⊢
    rw [hactive, hbytes, hioc]
    refine hcounts.imp_right fun hrest => ⟨hrest.1, ?_⟩
    exact hrest.2.congr fun u hu => hsame u (List.mem_cons_of_mem _ hu)

/-- The loop of the completion interrupt on one queue head: it returns the completed
descriptors and reports where it is to. -/
theorem UsbQueues.completeLoop : ∀ (ts : List UsbQtdNode) {h : UsbHcd} {l : UsbLedger} {k : Nat},
    UsbQueues h l → UsbFailures h l → l.queue n = ts → ts.length < k →
      (∀ t ∈ ts, (h.qtd t).halted = false) → UsbCounts h (l.since n) ts →
      ∃ r, qhdXferCompleteLoop k h n = some r ∧ UsbQueues r.1 (l.record r.2) ∧
        UsbFailures r.1 (l.record r.2) ∧ UsbOnly n ⟨h, l⟩ ⟨r.1, l.record r.2⟩ ∧
        (∀ t ∈ (r.1.queue n).listHead, (r.1.qtd t).active = true) ∧
        (r.1.queue n).overlay = (h.queue n).overlay := by
  intro ts
  induction ts with
  | nil =>
    intro h l k hq hf hn hk _ _
    obtain ⟨k, rfl⟩ := Nat.exists_eq_succ_of_ne_zero (Nat.ne_of_gt hk)
    have hhead := hq.fifo.head n
    rw [hn] at hhead
    refine ⟨(h, []), ?_, hq, hf, UsbOnly.refl _ _, fun t ht => ?_, rfl⟩
    · unfold qhdXferCompleteLoop
      rw [hhead]
      rfl
    · dsimp only at ht
      rw [hhead] at ht
      exact nomatch ht
  | cons t ts ih =>
    intro h l k hq hf hn hk hhalt hcounts
    obtain ⟨k, rfl⟩ := Nat.exists_eq_succ_of_ne_zero (Nat.ne_of_gt (Nat.zero_lt_of_lt hk))
    have hk' : ts.length < k := Nat.lt_of_succ_lt_succ hk
    have hhead : (h.queue n).listHead = some t := by
      rw [hq.fifo.head n, hn, List.head?_cons]
    by_cases hactive : (h.qtd t).active = true
    · refine ⟨(h, []), ?_, hq, hf, UsbOnly.refl _ _, fun u hu => ?_, rfl⟩
      · unfold qhdXferCompleteLoop
        rw [hhead]
        exact if_pos hactive
      · dsimp only at hu ⊢
        rw [hhead] at hu
        rw [← Option.some.inj hu]
        exact hactive
    · obtain ⟨hsum, hrest⟩ := hcounts.resolve_left hactive
      have hqp := hq.popped hn hsum
      have hfp := hf.popped hn (hhalt t List.mem_cons_self)
      have honly := UsbOnly.popped hq.fifo hn
      have hnp : (l.free n t).queue n = ts := by
        rw [UsbLedger.free_queue, Function.update_self, hn, List.tail_cons]
      have hhaltp : ∀ u ∈ ts, ((usbHostPopped h n t ts).qtd u).halted = false := fun u hu => by
        rw [usbHostPopped_qtd]
        exact hhalt u (List.mem_cons_of_mem _ hu)
      have hcountsp : UsbCounts (usbHostPopped h n t ts)
          (if (h.qtd t).intOnComplete then 0 else l.since n + (h.qtd t).bytes) ts := by
        refine hrest.congr fun u _ => ?_
        rw [usbHostPopped_qtd]
        exact ⟨rfl, rfl, rfl⟩
      have hoverlay : ((usbHostPopped h n t ts).queue n).overlay = (h.queue n).overlay := by
        rw [usbHostPopped_queue]
      by_cases hioc : (h.qtd t).intOnComplete = true
      · rw [if_pos hioc] at hcountsp
        obtain ⟨r, hrun, hq', hf', honly', hdone, hover'⟩ := ih
          (hqp.reported (e := usbHostEvent (usbHostPopped h n t ts) n .success) rfl)
          (hfp.reported rfl) hnp hk' hhaltp (by
            rw [UsbLedger.report_since, Function.update_self]
            exact hcountsp.congr fun u _ => ⟨rfl, rfl, rfl⟩)
        refine ⟨(r.1, .freed n t :: .event n (usbHostEvent (usbHostPopped h n t ts) n .success) ::
          r.2), ?_, hq', hf', (honly.trans (UsbOnly.reported _)).trans honly', hdone, ?_⟩
        · unfold qhdXferCompleteLoop
          rw [hhead]
          dsimp only
          rw [if_neg hactive, hq.fifo.remove1st hn, Option.bind_some, if_pos hioc, hrun]
          rfl
        · refine hover'.trans (Eq.trans ?_ hoverlay)
          unfold usbHostClearTotal
          rw [UsbHcd.setQueue_self]
      · rw [if_neg hioc] at hcountsp
        obtain ⟨r, hrun, hq', hf', honly', hdone, hover'⟩ := ih hqp hfp hnp hk' hhaltp (by
          rw [UsbLedger.free_since, Function.update_self, ← hq.bytes_eq (hn ▸ List.mem_cons_self)]
          exact hcountsp)
        refine ⟨(r.1, .freed n t :: r.2), ?_, hq', hf', honly.trans honly', hdone,
          hover'.trans hoverlay⟩
        unfold qhdXferCompleteLoop
        rw [hhead]
        dsimp only
        rw [if_neg hactive, hq.fifo.remove1st hn, Option.bind_some, if_neg hioc, hrun]
        rfl

/-- A queue has fewer descriptors than passes that its loop is followed for. -/
theorem UsbFifo.length_lt (hf : UsbFifo h l.queue) (n : UsbNode) :
    (l.queue n).length < usbQueuePasses :=
  Nat.lt_succ_of_le (hf.nodup n).length_le_card

/-- The completion interrupt on one queue head, which is left alone where it is halted. -/
theorem UsbXfers.Inv.completion {s : UsbXfers} (hs : s.Inv)
    (hcounts : (s.hcd.queue n).overlay.halted = false →
      UsbCounts s.hcd (s.hcd.queue n).totalXferredBytes.toNat (s.ledger.queue n)) :
    ∃ r, qhdXferCompleteUnlessHalted s.hcd n = some r ∧ (s.interrupted r).Inv ∧
      UsbOnly n s (s.interrupted r) ∧ ((s.hcd.queue n).overlay.halted = false →
        ∀ t ∈ (r.1.queue n).listHead, (r.1.qtd t).active = true) := by
  by_cases hhalted : (s.hcd.queue n).overlay.halted = true
  · refine ⟨(s.hcd, []), if_pos hhalted, hs, UsbOnly.refl n s, fun hrun => ?_⟩
    exact absurd (hhalted.symm.trans hrun) Bool.noConfusion
  · have hrunning := Bool.eq_false_iff.mpr hhalted
    have hcounts := hcounts hrunning
    rw [hs.queues.total] at hcounts
    have hlen := hs.queues.fifo.length_lt n
    obtain ⟨r, hrun, hq, hf, honly, hdone, -⟩ := UsbQueues.completeLoop (s.ledger.queue n)
      hs.queues hs.failures rfl hlen (fun t ht => Bool.eq_false_iff.mpr fun hhalt =>
        hhalted (hs.queues.halted n t ht hhalt).1) hcounts
    exact ⟨r, (if_neg hhalted).trans hrun, hs.only honly hq hf, honly, fun _ => hdone⟩

end Completion

/-! ## Errors -/

section Errors

variable {s : UsbXfers} {n : UsbNode} {t : UsbQtdNode} {ts : List UsbQtdNode}

/-- Where the endpoint has number 0, the descriptor is the one of the control endpoint of
the device, and it is alone. -/
theorem UsbXfers.Inv.controlQueue (hs : s.Inv) (hn : s.ledger.queue n = t :: ts)
    (hep : (s.hcd.host.qhd n).epNumber = 0) :
    ts = [] ∧ usbHostQtdControl ((s.hcd.host.qhd n).devAddr.setWidth 8) = some t := by
  have hlinked : s.hcd.host.Linked n := hs.linked n fun hnil => by
    rw [hn] at hnil
    exact List.cons_ne_nil _ _ hnil
  have hown := hs.queues.owner n
  have hnodup := hs.queues.fifo.nodup n
  rw [hn] at hown hnodup
  cases n with
  | control i =>
    have ht : t = .control i := hown t List.mem_cons_self
    have hdev := hs.host.device i hlinked
    have hwidth : ((s.hcd.host.qhd (.control i)).devAddr.setWidth 8).toNat = i.val := by
      rw [BitVec.toNat_setWidth, hdev]
      exact Nat.mod_eq_of_lt (Nat.lt_trans i.isLt (by decide))
    refine ⟨List.eq_nil_iff_forall_not_mem.mpr fun u hu => ?_, ?_⟩
    · have hut : u = t := (hown u (List.mem_cons_of_mem _ hu)).trans ht.symm
      exact (List.nodup_cons.mp hnodup).1 (hut ▸ hu)
    · have hlt : ((s.hcd.host.qhd (.control i)).devAddr.setWidth 8).toNat <
          usbHcdMaxConnectedDevices + 1 := hwidth ▸ i.isLt
      unfold usbHostQtdControl
      rw [dif_pos hlt, ht]
      exact congrArg (fun k => some (UsbQtdNode.control k)) (Fin.ext hwidth)
  | pool i => exact absurd hep (hs.host.pool i hlinked)
  | period i => exact absurd (hown t List.mem_cons_self) not_false

/-- The queue of a control endpoint behind an error. -/
def UsbQueue.cleared (q : UsbQueue) : UsbQueue :=
  { q with
    listHead := none
    listTail := none
    overlay := { q.overlay with
      next := { q.overlay.next with terminate := true }
      halted := false } }

/-- Clearing a control endpoint whose queue is empty, and whose descriptor is free, changes
the overlay only. -/
theorem usbHostClearControl_some {p : UsbHcd}
    (hcontrol : usbHostQtdControl ((p.host.qhd n).devAddr.setWidth 8) = some t)
    (hhead : (p.queue n).listHead = none) (htail : (p.queue n).listTail = none)
    (hused : (p.qtd t).used = false) :
    usbHostClearControl p n = some (p.setQueue n (p.queue n).cleared) ∧
      p.SameQueues (p.setQueue n (p.queue n).cleared) := by
  have hqtd : (p.setQueue n (p.queue n).cleared).setQtd t { p.qtd t with used := false } =
      p.setQueue n (p.queue n).cleared := by
    refine congrArg (UsbHcd.mk p.host _) (funext fun u => ?_)
    by_cases hu : u = t
    · subst hu
      refine (if_pos rfl).trans ?_
      rw [← hused]
    · exact if_neg hu
  have hqueue : ∀ m, (p.setQueue n (p.queue n).cleared).queue m =
      if m = n then (p.queue n).cleared else p.queue m := fun _ => rfl
  refine ⟨?_, ⟨fun m => ?_, fun m => ?_, fun m => ?_, fun _ => rfl, fun _ => rfl, fun _ => rfl,
    fun _ => rfl, fun _ => rfl, fun _ => rfl⟩⟩
  · have hrun : usbHostClearControl p n =
        (usbHostQtdControl ((p.host.qhd n).devAddr.setWidth 8)).map fun setup =>
          (p.setQueue n (p.queue n).cleared).setQtd setup { p.qtd setup with used := false } := rfl
    rw [hrun, hcontrol, Option.map_some, hqtd]
  · rw [hqueue]
    split
    · rename_i hm
      rw [hm]
      exact hhead.symm
    · rfl
  · rw [hqueue]
    split
    · rename_i hm
      rw [hm]
      exact htail.symm
    · rfl
  · rw [hqueue]
    split
    · rename_i hm
      rw [hm]
      rfl
    · rfl

/-- What the error interrupt does behind the removal: nothing, or it clears the control
endpoint, whose queue is empty by then. -/
theorem UsbXfers.Inv.clearControl (hs : s.Inv) (hn : s.ledger.queue n = t :: ts)
    (hq : UsbQueues (usbHostPopped s.hcd n t ts) (s.ledger.free n t)) :
    ∃ h, (if ((usbHostPopped s.hcd n t ts).host.qhd n).epNumber = 0 then
        usbHostClearControl (usbHostPopped s.hcd n t ts) n
      else some (usbHostPopped s.hcd n t ts)) = some h ∧
      UsbQueues h (s.ledger.free n t) ∧ (usbHostPopped s.hcd n t ts).SameQueues h ∧
      UsbOnly n ⟨usbHostPopped s.hcd n t ts, s.ledger.free n t⟩ ⟨h, s.ledger.free n t⟩ := by
  have hempty : ts = [] → ∀ m, ∀ u ∈ (s.ledger.free n t).queue m, m ≠ n := by
    rintro rfl m u hu rfl
    rw [UsbLedger.free_queue, Function.update_self, hn, List.tail_cons] at hu
    exact List.not_mem_nil hu
  have hhead : ((usbHostPopped s.hcd n t ts).queue n).listHead = ts.head? := by
    rw [usbHostPopped_queue]
  have htail : ((usbHostPopped s.hcd n t ts).queue n).listTail = ts.getLast? := by
    rw [usbHostPopped_queue]
  have hused : ((usbHostPopped s.hcd n t ts).qtd t).used = false := by
    rw [usbHostPopped_qtd]
    exact if_pos rfl
  by_cases hep : (s.hcd.host.qhd n).epNumber = 0
  · obtain ⟨rfl, hcontrol⟩ := hs.controlQueue hn hep
    have hempty := hempty rfl
    have hhost : (usbHostPopped s.hcd n t []).host = s.hcd.host := rfl
    rw [← hhost] at hep hcontrol
    generalize usbHostPopped s.hcd n t [] = p at *
    obtain ⟨hclear, hsame⟩ := usbHostClearControl_some hcontrol hhead htail hused
    refine ⟨_, (if_pos hep).trans hclear, hq.congr hsame fun m u hu _ => ?_, hsame,
      ⟨rfl, fun m hm => UsbHcd.setQueue_of_ne p _ hm, fun _ _ => rfl, fun _ _ _ _ => rfl,
        fun _ hu => hu⟩⟩
    rw [UsbHcd.setQueue_of_ne p _ (hempty m u hu)]
    exact ⟨rfl, rfl⟩
  · exact ⟨_, if_neg hep, hq, UsbHcd.SameQueues.refl _, UsbOnly.refl _ _⟩

/-- What is pending on the other queue heads stays. -/
theorem UsbOnly.pending {s' : UsbXfers} (hn : UsbOnly n s s') {m : UsbNode} (hm : m ≠ n)
    (r : XferResult) : s'.Pending m r ↔ s.Pending m r := by
  unfold UsbXfers.Pending
  rw [hn.members m hm]
  refine exists_congr fun u => and_congr_right fun hu => ?_
  rw [hn.qtd m hm u hu]

/-- The report of what is pending on a queue head settles it. -/
theorem UsbFailures.settled {s' : UsbXfers} {result : XferResult}
    (hf : UsbFailures s.hcd s.ledger) (hn : UsbOnly n s s')
    (hfailed : s'.ledger.failed = s.ledger.failed)
    (hreported : s'.ledger.reported = Function.update s.ledger.reported n
      (Function.update (s.ledger.reported n) result (s.ledger.reported n result + 1)))
    (hwas : ∀ r, s.Pending n r ↔ r = result) (hgone : ∀ r, ¬ s'.Pending n r) :
    UsbFailures s'.hcd s'.ledger := by
  intro m r hr
  have hold : s.ledger.failed m r =
      s.ledger.reported m r + if s.Pending m r then 1 else 0 := hf m r hr
  have hnew : (if (UsbXfers.mk s'.hcd s'.ledger).Pending m r then 1 else 0) =
      if s'.Pending m r then 1 else 0 := rfl
  rw [hfailed, hreported, hold, hnew]
  by_cases hm : m = n
  · subst hm
    rw [Function.update_self, if_neg (hgone r), Nat.add_zero]
    by_cases hres : r = result
    · rw [if_pos ((hwas r).mpr hres), hres, Function.update_self]
    · rw [if_neg fun hp => hres ((hwas r).mp hp), Function.update_of_ne hres, Nat.add_zero]
  · rw [Function.update_of_ne hm]
    simp only [hn.pending hm]

/-- The error interrupt on one queue head reports what is pending there. -/
theorem UsbXfers.Inv.error (hs : s.Inv) (hrep : s.ReportsHead n) :
    ∃ r, qhdXferErrorIsr s.hcd n = some r ∧ (s.interrupted r).Inv ∧
      UsbOnly n s (s.interrupted r) ∧ ∀ res, ¬ (s.interrupted r).Pending n res := by
  by_cases hreports : s.hcd.ReportsError n
  · obtain ⟨t, ht, hhalt, hsum⟩ := hrep.1 hreports
    have hhead := hs.queues.fifo.head n
    have htn : (s.ledger.queue n).head? = some t := hhead.symm.trans ht
    obtain ⟨ts, hn⟩ := List.head?_eq_some_iff.mp htn
    rw [hs.queues.total n] at hsum
    have hqp := hs.queues.popped hn hsum
    obtain ⟨h, hclear, hq, hsame, honly⟩ := hs.clearControl hn hqp
    have honly := (UsbOnly.popped hs.queues.fifo hn).trans honly
    have hmem : t ∈ s.ledger.queue n := hn ▸ List.mem_cons_self
    -- the overlay shows how the descriptor ended
    have hresult : (if usbHostQhdHasXactError (s.hcd.queue n) then XferResult.failed
        else .stalled) = (s.hcd.qtd t).result := by
      have hshows := (hs.queues.halted n t hmem hhalt).2
      unfold UsbQtd.result
      rw [← hshows]
      rfl
    have hrun : qhdXferErrorIsr s.hcd n = some (usbHostClearTotal h n,
        [.freed n t, .event n (usbHostEvent h n (s.hcd.qtd t).result)]) := by
      unfold qhdXferErrorIsr
      rw [if_pos hreports, ht, Option.bind_some, hs.queues.fifo.remove1st hn, Option.bind_some,
        hclear, Option.map_some, hresult]
    have hqr := hq.reported (e := usbHostEvent h n (s.hcd.qtd t).result) rfl
    have honly := honly.trans (UsbOnly.reported (usbHostEvent h n (s.hcd.qtd t).result))
    have hgone : ∀ u ∈ ts, (h.qtd u).halted = false := fun u hu => by
      rw [hsame.halted, usbHostPopped_qtd]
      refine Bool.eq_false_iff.mpr fun huh => ?_
      have hnodup := hs.queues.fifo.nodup n
      rw [hn] at hnodup
      have hut := hs.queues.one n u (hn ▸ List.mem_cons_of_mem t hu) t hmem huh hhalt
      exact (List.nodup_cons.mp hnodup).1 (hut ▸ hu)
    have hpending : ∀ res, ¬ (UsbXfers.mk (usbHostClearTotal h n)
        ((s.ledger.free n t).report n (usbHostEvent h n (s.hcd.qtd t).result))).Pending n res := by
      rintro res ⟨u, hu, huh, -⟩
      have hu : u ∈ Function.update s.ledger.queue n (s.ledger.queue n).tail n := hu
      rw [Function.update_self, hn, List.tail_cons] at hu
      have huh : (h.qtd u).halted = true := huh
      rw [hgone u hu] at huh
      exact Bool.false_ne_true huh
    refine ⟨_, hrun, hs.only honly hqr ?_, honly, hpending⟩
    refine hs.failures.settled honly rfl rfl (fun r => ⟨?_, ?_⟩) hpending
    · rintro ⟨u, hu, huh, rfl⟩
      rw [hs.queues.one n u hu t hmem huh hhalt]
      rfl
    · rintro rfl
      exact ⟨t, hmem, hhalt, rfl⟩
  · refine ⟨(s.hcd, []), if_neg hreports, hs, UsbOnly.refl n s, fun res => ?_⟩
    rintro ⟨t, ht, hhalt, -⟩
    exact hreports (hrep.2 t ht hhalt)

end Errors

end HpmSdk.Usb
