import HpmSdk.Usb.XfersSteps

set_option autoImplicit false

/-!
# USB host: endpoints and the queues

Setting up a queue head whose queue is empty, closing a device whose queues are empty, the
async advance and clearing a stall that was reported keep the queues.

None of them touches a descriptor that is in a queue, so that only the marks of the pool have to be
looked at.
-/

namespace HpmSdk.Usb

open HpmSdk.Foundation HpmSdk.Soc

variable {s : UsbXfers} {n : UsbNode} {devAddr : BitVec 8}

/-! ## Stalls -/

/-- Clearing a stall that is not still to be reported. -/
theorem UsbXfers.Inv.clearStall (hs : s.Inv) {epAddr : BitVec 8} {r : Bool × UsbHcd}
    (hok : ∀ n ∈ usbHostQhdGetFromAddr s.hcd.host devAddr epAddr,
      ∀ t ∈ s.ledger.queue n, (s.hcd.qtd t).halted = false)
    (hr : usbHostEdptClearStall s.hcd devAddr epAddr = some r) :
    UsbXfers.Inv ⟨r.2, s.ledger⟩ := by
  unfold usbHostEdptClearStall at hr
  obtain ⟨n, hn, rfl⟩ := Option.map_eq_some_iff.mp hr
  have hqueue : ∀ m, (s.hcd.setQueue n { s.hcd.queue n with
      overlay := { (s.hcd.queue n).overlay with halted := false } }).queue m =
        { s.hcd.queue m with overlay := { (s.hcd.queue m).overlay with
          halted := if m = n then false else (s.hcd.queue m).overlay.halted } } := by
    intro m
    by_cases hm : m = n
    · subst hm
      rw [UsbHcd.setQueue_self, if_pos rfl]
    · rw [UsbHcd.setQueue_of_ne _ _ hm, if_neg hm]
  refine hs.congr rfl ⟨fun m => ?_, fun m => ?_, fun m => ?_, fun _ => rfl, fun _ => rfl,
    fun _ => rfl, fun _ => rfl, fun _ => rfl, fun _ => rfl⟩ fun m t ht hhalt => ?_
  · rw [hqueue]
  · rw [hqueue]
  · rw [hqueue]
  · have hm : m ≠ n := by
      rintro rfl
      rw [hok m hn t ht] at hhalt
      exact Bool.noConfusion hhalt
    rw [UsbHcd.setQueue_of_ne _ _ hm]
    exact ⟨rfl, rfl⟩

/-! ## Other lists -/

/-- A change of the lists that keeps the queue heads with a descriptor in them. -/
theorem UsbXfers.Inv.rehost (hs : s.Inv) {host : UsbHost} (hhost : UsbHostInv host)
    (hlinked : ∀ m, s.ledger.queue m ≠ [] → s.hcd.host.Linked m → host.Linked m) :
    UsbXfers.Inv ⟨{ s.hcd with host := host }, s.ledger⟩ := by
  have hsame : s.hcd.SameQueues { s.hcd with host := host } :=
    ⟨fun _ => rfl, fun _ => rfl, fun _ => rfl, fun _ => rfl, fun _ => rfl, fun _ => rfl,
      fun _ => rfl, fun _ => rfl, fun _ => rfl⟩
  exact ⟨hhost, fun m hm => hlinked m hm (hs.linked m hm),
    hs.queues.congr hsame fun _ _ _ _ => ⟨rfl, rfl⟩, hs.failures.congr hsame⟩

/-- Queue heads may leave the lists. -/
theorem UsbHostInv.of_same {h h' : UsbHost} (hs : UsbHostInv h) (hopens : UsbOpens.Inv ⟨h', []⟩)
    (hsame : ∀ k, (h.qhd k).SameFor (h'.qhd k)) (hlinked : ∀ k, h'.Linked k → h.Linked k) :
    UsbHostInv h' := by
  refine ⟨hopens, fun i => ?_, fun i hi => ?_, fun i hi => ?_⟩
  · rw [(hsame _).2.1]
    exact hs.control i
  · rw [(hsame _).1]
    exact hs.device i (hlinked _ hi)
  · rw [(hsame _).2.1]
    exact hs.pool i (hlinked _ hi)

/-- A linked queue head is the head of a list or a member. -/
theorem UsbHost.linked_iff {h : UsbHost} {k : UsbNode} :
    h.Linked k ↔ (∃ c : UsbList, k = c.head) ∨ InList h.members k := by
  constructor
  · rintro ⟨c, -, hc⟩
    exact (List.mem_cons.mp hc).imp (fun hk => ⟨c, hk⟩) fun hmem => ⟨c, hmem⟩
  · rintro (⟨c, rfl⟩ | ⟨c, hc⟩)
    · exact ⟨c, UsbList.mem_all c, List.mem_cons_self⟩
    · exact ⟨c, UsbList.mem_all c, List.mem_cons_of_mem _ hc⟩

/-- The async advance frees queue heads whose queues are empty. -/
theorem UsbXfers.Inv.asyncAdvance (hs : s.Inv) {cfg : TusbConfig}
    (hmax : cfg.hcdMaxEndpoint ≤ usbSocHcdMaxEndpointCount) :
    ∃ host, asyncAdvanceIsrFor cfg s.hcd.host = some host ∧
      UsbXfers.Inv ⟨{ s.hcd with host := host }, s.ledger⟩ := by
  obtain ⟨host, hrun, hopens⟩ := hs.host.opens.advance_step hmax
  obtain ⟨host', hrun', hqhd⟩ := asyncAdvanceIsrFor_some s.hcd.host hmax
  obtain rfl := Option.some.inj (hrun.symm.trans hrun')
  obtain ⟨hmembers, -, hsame⟩ := Sched.advanced hs.host.opens.sched hqhd
  have hlinked : ∀ k, host.Linked k ↔ s.hcd.host.Linked k := fun k => by
    unfold UsbHost.Linked
    rw [hmembers]
  exact ⟨host, hrun, hs.rehost (hs.host.of_same hopens hsame fun k => (hlinked k).mp)
    fun m _ => (hlinked m).mpr⟩

/-- A close of a device whose queues are empty. -/
theorem UsbXfers.Inv.deviceClose (hs : s.Inv) {passes : Nat} {r : UsbHost × List UsbNode}
    (hok : devAddr = 0 ∨ ∀ n, s.hcd.host.Linked n →
      s.hcd.host.owned devAddr n = true → (s.hcd.queue n).listHead = none)
    (hr : usbHostDeviceClose passes s.hcd.host devAddr = some r) :
    UsbXfers.Inv ⟨{ s.hcd with host := r.1 }, s.ledger⟩ := by
  obtain ⟨hsched, hswept⟩ := Sched.close_swept hs.host.opens.sched hr
  have hopens : UsbOpens.Inv ⟨r.1, []⟩ := hs.host.opens.close_step hr
  refine hs.rehost (hs.host.of_same hopens hswept.sameFor fun k hk => ?_) fun m hm hlinked => ?_
  · rw [UsbHost.linked_iff] at hk ⊢
    exact hk.imp_right hswept.inList
  · rcases hok with rfl | hempty
    · have hrun : usbHostDeviceClose passes s.hcd.host 0 = some (s.hcd.host, []) := if_pos rfl
      rw [hrun] at hr
      cases hr
      exact hlinked
    · have hlinked' := hlinked
      rw [UsbHost.linked_iff] at hlinked ⊢
      refine hlinked.imp_right fun hin => ?_
      by_contra hout
      have hnone := hempty m hlinked' (hswept.gone m hin hout).1
      rw [hs.queues.fifo.head m] at hnone
      exact hm (List.head?_eq_none_iff.mp hnone)

/-! ## Opens -/

section Open

variable {h : UsbHost} {speed : UsbSpeed} {desc : UsbDescEndpoint}

/-- Which queue heads an open takes. -/
theorem usbHostOpenQhd_cases (hn : usbHostOpenQhd h devAddr desc = some n) :
    (∃ i, n = .control i ∧ desc.bEndpointAddress = 0 ∧ devAddr.toNat = i.val) ∨
      ∃ i, n = .pool i ∧ desc.bEndpointAddress ≠ 0 := by
  unfold usbHostOpenQhd at hn
  split at hn
  · rename_i hep
    split at hn
    · cases hn
      exact Or.inl ⟨_, rfl, hep, rfl⟩
    · cases hn
  · rename_i hep
    obtain ⟨i, hi, -⟩ := usbHostQhdFindFree_eq_some.mp hn
    exact Or.inr ⟨i, hi, hep⟩

/-- An endpoint address whose number is not 0 keeps it in the queue head. -/
theorem usbEdptNumber_ne_zero : ∀ epAddr : BitVec 8, epAddr &&& 0x0F ≠ 0 →
    (epAddr &&& 0x7F).setWidth 4 ≠ 0 := by
  decide +kernel

/-- An open that takes a new queue head keeps the lists right. -/
theorem UsbHostInv.opened (hs : UsbHostInv h) (hint : desc.IntervalOk speed)
    (hn : usbHostOpenQhd h devAddr desc = some n) (hnew : h.TakesNew devAddr desc n)
    (hep : desc.bEndpointAddress = 0 ∨ desc.bEndpointAddress &&& 0x0F ≠ 0) :
    UsbHostInv (usbHostOpened h devAddr speed desc n) ∧
      ∀ k, h.Linked k → (usbHostOpened h devAddr speed desc n).Linked k := by
  obtain ⟨hadds, -⟩ := hs.opens.adds speed hn hnew
  have hfor := @usbHostOpened_isFor h devAddr _ _ n hint
  have hopens := hs.opens.opened_step hint hn hnew
  have hother : ∀ k, k ≠ n → (h.qhd k).SameFor
      ((usbHostOpened h devAddr speed desc n).qhd k) := fun k hk => (usbHostOpened_of_ne hk).sameFor
  have hlinked : ∀ k, k ≠ n → (usbHostOpened h devAddr speed desc n).Linked k → h.Linked k := by
    intro k hk hin
    rw [UsbHost.linked_iff] at hin ⊢
    exact hin.imp_right fun hmem => (hadds.new k hmem).resolve_left hk
  have hcases := usbHostOpenQhd_cases hn
  refine ⟨⟨⟨hopens.sched, hopens.linked, hopens.removing, fun o ho => absurd ho List.not_mem_nil⟩,
    fun i => ?_, fun i hi => ?_, fun i hi => ?_⟩, fun k hk => ?_⟩
  · by_cases hin : UsbNode.control i = n
    · obtain ⟨j, -, hzero, -⟩ | ⟨j, hj, -⟩ := hcases
      · rw [hin, hfor.epNumber, hzero]
        rfl
      · exact nomatch hin.trans hj
    · rw [(hother _ hin).2.1]
      exact hs.control i
  · by_cases hin : UsbNode.control i = n
    · obtain ⟨j, hj, -, hdev⟩ | ⟨j, hj, -⟩ := hcases
      · obtain rfl := UsbNode.control.inj (hin.trans hj)
        rw [hin, hfor.devAddr, BitVec.toNat_setWidth, hdev]
        exact Nat.mod_eq_of_lt (Nat.lt_trans i.isLt (by decide))
      · exact nomatch hin.trans hj
    · rw [(hother _ hin).1]
      exact hs.device i (hlinked _ hin hi)
  · by_cases hin : UsbNode.pool i = n
    · obtain ⟨j, hj, -⟩ | ⟨j, -, hne⟩ := hcases
      · exact nomatch hin.trans hj
      · rw [hin, hfor.epNumber]
        exact usbEdptNumber_ne_zero _ (hep.resolve_left hne)
    · rw [(hother _ hin).2.1]
      exact hs.pool i (hlinked _ hin hi)
  · by_cases hkn : k = n
    · rw [hkn]
      exact hadds.linked
    · rw [UsbHost.linked_iff] at hk ⊢
      refine hk.imp_right fun ⟨c, hc⟩ => ⟨c, ?_⟩
      have hmem := (List.mem_erase_of_ne hkn).mpr hc
      rw [← hadds.lists c] at hmem
      exact List.mem_of_mem_erase hmem

/-- Setting up the queue of a queue head leaves it empty. -/
theorem usbHostQueueInit_empty (q : UsbQueue) (hint : desc.IntervalOk speed) :
    (usbHostQueueInit q devAddr speed desc).listHead = none ∧
      (usbHostQueueInit q devAddr speed desc).listTail = none ∧
      (usbHostQueueInit q devAddr speed desc).totalXferredBytes =
        if devAddr ≠ 0 then 0 else q.totalXferredBytes := by
  unfold usbHostQueueInit
  dsimp only
  rw [if_pos hint]
  refine ⟨rfl, rfl, ?_⟩
  split <;> rfl

/-- Setting up the queue of a queue head without a descriptor. -/
theorem UsbQueues.setUp {h : UsbHcd} {l : UsbLedger} (hq : UsbQueues h l) (host : UsbHost)
    (hempty : l.queue n = []) (hint : desc.IntervalOk speed) :
    UsbQueues ({ h with host := host }.setQueue n
      (usbHostQueueInit (h.queue n) devAddr speed desc)) (l.setUp n devAddr) := by
  obtain ⟨hhead, htail, htotal⟩ := @usbHostQueueInit_empty devAddr _ _ (h.queue n) hint
  generalize usbHostQueueInit (h.queue n) devAddr speed desc = q at hhead htail htotal ⊢
  have hqueue : ∀ m, (UsbHcd.setQueue { h with host := host } n q).queue m =
      if m = n then q else h.queue m := fun _ => rfl
  refine ⟨⟨fun m => ?_, fun m => ?_, hq.fifo.links, hq.fifo.used, hq.fifo.nodup, hq.fifo.apart⟩,
    hq.ends, hq.owner, hq.conserved, hq.bytes, fun m => ?_, hq.left, fun m t ht hhalt => ?_, hq.one⟩
  · rw [hqueue]
    split
    · rename_i hm
      subst hm
      have hnil : (l.setUp m devAddr).queue m = [] := hempty
      rw [hnil, hhead]
      rfl
    · exact hq.fifo.head m
  · rw [hqueue]
    split
    · rename_i hm
      subst hm
      have hnil : (l.setUp m devAddr).queue m = [] := hempty
      rw [hnil, htail]
      rfl
    · exact hq.fifo.tail m
  · unfold UsbLedger.setUp
    dsimp only
    rw [hqueue]
    split
    · rename_i hm
      subst hm
      rw [htotal, Function.update_self]
      split
      · rfl
      · exact hq.total m
    · rename_i hm
      rw [Function.update_of_ne hm]
      exact hq.total m
  · have hm : m ≠ n := by
      rintro rfl
      have ht : t ∈ l.queue m := ht
      rw [hempty] at ht
      exact List.not_mem_nil ht
    rw [hqueue, if_neg hm]
    exact hq.halted m t ht hhalt

/-- An open that is refused, or takes a new queue head without a descriptor. -/
theorem UsbXfers.Inv.edptOpen (hs : s.Inv) {mcu : HpmCore} {cfg : TusbConfig} {s' : UsbXfers}
    (hok : s.Regular cfg (.edptOpen devAddr speed desc))
    (hstep : s.step mcu cfg (.edptOpen devAddr speed desc) = some s') : s'.Inv := by
  obtain ⟨hserves, hqueue⟩ := hok
  obtain ⟨r, hr, rfl⟩ := Option.map_eq_some_iff.mp hstep
  unfold usbHcdEdptOpen at hr
  obtain ⟨r', hr', hr⟩ := Option.map_eq_some_iff.mp hr
  by_cases hiso : desc.xfer = .isochronous
  · have hrun : usbHostEdptOpen s.hcd.host devAddr speed desc = some (false, s.hcd.host) :=
      if_pos hiso
    obtain rfl := Option.some.inj (hr'.symm.trans hrun)
    have hsame : r = (false, s.hcd) := by
      rw [← hr]
      cases usbHostOpenQhd s.hcd.host devAddr desc <;> rfl
    rw [hsame]
    exact hs
  · obtain ⟨hint, hsome, hnew⟩ := hserves.resolve_left hiso
    obtain ⟨hep, hnone⟩ := hqueue hiso
    obtain ⟨n, hn⟩ := Option.isSome_iff_exists.mp hsome
    obtain rfl := Option.some.inj (hr'.symm.trans (usbHostEdptOpen_of_some hiso hn))
    rw [hn] at hr
    obtain rfl := hr
    dsimp only
    rw [hn]
    obtain ⟨hhost, hlinked⟩ := hs.host.opened hint hn (hnew n hn) hep
    have hempty : s.ledger.queue n = [] := by
      have hhead := hnone n hn
      rw [hs.queues.fifo.head n] at hhead
      exact List.head?_eq_none_iff.mp hhead
    exact ⟨hhost, fun m hm => hlinked m (hs.linked m hm), hs.queues.setUp _ hempty hint,
      hs.failures⟩

end Open

end HpmSdk.Usb
