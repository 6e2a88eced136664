import HpmSdk.Usb.XfersIsr

set_option autoImplicit false

/-!
# USB host: the driver and the controller keep the queues

Submitting a transfer appends a descriptor that is in no queue, the controller ends the
first one that is active, and the calls that set endpoints up, clear a stall and close a
device leave the queues of the others alone.

Where nothing of a queue is touched the invariant carries over by `Inv.congr`.
-/

namespace HpmSdk.Usb

open HpmSdk.Foundation HpmSdk.Soc

variable {s : UsbXfers} {n : UsbNode} {t : UsbQtdNode} {d : UsbQtd}

/-! ## Submitting a descriptor -/

/-- The invariant depends on the queues and the state of their heads only. -/
theorem UsbXfers.Inv.congr {h' : UsbHcd} (hs : s.Inv) (hhost : h'.host = s.hcd.host)
    (hsame : s.hcd.SameQueues h')
    (hoverlay : ∀ n, ∀ t ∈ s.ledger.queue n, (s.hcd.qtd t).halted = true →
      (h'.queue n).overlay.halted = (s.hcd.queue n).overlay.halted ∧
        (h'.queue n).overlay.hasError = (s.hcd.queue n).overlay.hasError) :
    UsbXfers.Inv ⟨h', s.ledger⟩ := by
  refine ⟨?_, fun m hm => ?_, hs.queues.congr hsame hoverlay, hs.failures.congr hsame⟩
  · dsimp only
    rw [hhost]
    exact hs.host
  · dsimp only
    rw [hhost]
    exact hs.linked m hm

/-- A descriptor that a transfer fills in. -/
structure UsbQtd.Fresh (d : UsbQtd) : Prop where
  used : d.used = true
  ends : d.next.address = none
  running : d.halted = false
  length : d.expectedBytes.toNat = d.totalBytes.toNat

/-- A length below `2 ^ 15` fits into the descriptor. -/
theorem usbHostQtdInit_fresh (buffer : BitVec 32) {length : BitVec 16}
    (hlen : length.toNat < 2 ^ 15) : (usbHostQtdInit buffer length).Fresh := by
  refine ⟨rfl, rfl, rfl, ?_⟩
  have htotal : (usbHostQtdInit buffer length).totalBytes.toNat = length.toNat := by
    refine (BitVec.toNat_setWidth 15 length).trans ?_
    exact Nat.mod_eq_of_lt hlen
  exact htotal.symm

/-- The queue of a linked queue head takes a descriptor that is in no queue. -/
theorem UsbXfers.Inv.submit (hs : s.Inv) (hlinked : s.hcd.host.Linked n) (hown : n.Owns t)
    (ht : ∀ m, t ∉ s.ledger.queue m) (hd : d.Fresh) :
    UsbXfers.Inv ⟨usbHostAppended s.hcd n t d (s.ledger.queue n), s.ledger.submit n t⟩ := by
  refine ⟨hs.host, fun m hm => ?_,
    hs.queues.appended hown ht hd.used hd.ends hd.running hd.length,
    hs.failures.appended ht hd.running⟩
  by_cases hmn : m = n
  · rw [hmn]
    exact hlinked
  · refine hs.linked m fun hnil => hm ?_
    exact (Function.update_of_ne hmn _ _).trans hnil

/-- Setting the interrupt on completion of the last descriptor. -/
theorem usbHostTailIoc_same {h : UsbHcd} (ht : (h.queue n).listTail = some t) :
    ∃ h', usbHostTailIoc h n = some h' ∧ h'.host = h.host ∧ h'.queue = h.queue ∧
      h.SameQueues h' := by
  have hrun : usbHostTailIoc h n = some (h.setQtd t { h.qtd t with intOnComplete := true }) := by
    unfold usbHostTailIoc
    rw [ht, Option.map_some]
  have hqtd : ∀ u, (h.setQtd t { h.qtd t with intOnComplete := true }).qtd u =
      { h.qtd u with intOnComplete := if u = t then true else (h.qtd u).intOnComplete } := by
    intro u
    by_cases hu : u = t
    · subst hu
      rw [UsbHcd.setQtd_self, if_pos rfl]
    · rw [UsbHcd.setQtd_of_ne _ _ hu, if_neg hu]
  refine ⟨_, hrun, rfl, rfl, fun _ => rfl, fun _ => rfl, fun _ => rfl, fun u => ?_, fun u => ?_,
    fun u => ?_, fun u => ?_, fun u => ?_, fun u => ?_⟩
  · rw [hqtd]
  · rw [hqtd]
  · rw [hqtd]
  · rw [hqtd]
  · rw [hqtd]
  · rw [hqtd]
    rfl

/-- Attaching the queue changes the link of the overlay. -/
theorem usbHostAttach_queue (h : UsbHcd) (m : UsbNode) : (usbHostAttach h n).queue m =
    { h.queue m with overlay := { (h.queue m).overlay with
      next := if m = n then ⟨(h.queue n).listHead, false⟩ else (h.queue m).overlay.next } } := by
  unfold usbHostAttach
  by_cases hm : m = n
  · subst hm
    rw [UsbHcd.setQueue_self, if_pos rfl]
  · rw [UsbHcd.setQueue_of_ne _ _ hm, if_neg hm]

/-- The controller takes up the first descriptor. -/
theorem UsbXfers.Inv.attach (hs : s.Inv) (n : UsbNode) :
    UsbXfers.Inv ⟨usbHostAttach s.hcd n, s.ledger⟩ := by
  have hqueue := usbHostAttach_queue (n := n) s.hcd
  refine hs.congr rfl ⟨fun m => ?_, fun m => ?_, fun m => ?_, fun _ => rfl, fun _ => rfl,
    fun _ => rfl, fun _ => rfl, fun _ => rfl, fun _ => rfl⟩ fun m _ _ _ => ?_
  · rw [hqueue]
  · rw [hqueue]
  · rw [hqueue]
  · rw [hqueue]
    exact ⟨rfl, rfl⟩

/-! ## Transfers on a control endpoint -/

theorem usbControlTarget_eq_some {devAddr : BitVec 8} {p : UsbNode × UsbQtdNode}
    (hp : usbControlTarget devAddr = some p) :
    ∃ i, p = (.control i, .control i) ∧ usbHostQhdControl devAddr = some (.control i) ∧
      usbHostQtdControl devAddr = some (.control i) := by
  unfold usbControlTarget at hp
  obtain ⟨n, hn, hp⟩ := Option.bind_eq_some_iff.mp hp
  obtain ⟨t, ht, rfl⟩ := Option.map_eq_some_iff.mp hp
  unfold usbHostQhdControl at hn
  unfold usbHostQtdControl at ht
  split at hn
  · rename_i hlt
    rw [dif_pos hlt] at ht
    obtain rfl := Option.some.inj hn
    obtain rfl := Option.some.inj ht
    refine ⟨⟨devAddr.toNat, hlt⟩, rfl, ?_, ?_⟩
    · exact dif_pos hlt
    · exact dif_pos hlt
  · cases hn

/-- A transfer on a control endpoint without another one. -/
theorem UsbXfers.Inv.control (hs : s.Inv) {i : Fin (usbHcdMaxConnectedDevices + 1)}
    {length : BitVec 16} (htakes : s.Takes length (.control i)) (hd : d.Fresh) :
    UsbXfers.Inv ⟨usbHostControlXfer s.hcd (.control i) (.control i) d,
      s.ledger.submit (.control i) (.control i)⟩ := by
  obtain ⟨hlinked, hnone, -⟩ := htakes
  have hempty : s.ledger.queue (.control i) = [] := by
    rw [hs.queues.fifo.head] at hnone
    exact List.head?_eq_none_iff.mp hnone
  have hfree : ∀ m, UsbQtdNode.control i ∉ s.ledger.queue m := by
    intro m hm
    have howns := hs.queues.owner m _ hm
    cases m with
    | control j =>
      obtain rfl := UsbQtdNode.control.inj howns
      rw [hempty] at hm
      exact List.not_mem_nil hm
    | pool j =>
      obtain ⟨k, hk⟩ := howns
      cases hk
    | period j => exact howns
  have hinsert := hs.queues.fifo.insert (n := .control i) (d := d) hfree
  have hqueue : usbHostQtdInsertToQhd (s.hcd.setQtd (.control i) d) (.control i) (.control i) =
      some ((s.hcd.setQtd (.control i) d).setQueue (.control i)
        { s.hcd.queue (.control i) with
          listHead := some (.control i), listTail := some (.control i) }) := if_pos hnone
  rw [hqueue] at hinsert
  have hsub := (hs.submit hlinked rfl hfree hd).attach (.control i)
  dsimp only at hsub
  rw [← Option.some.inj hinsert] at hsub
  exact hsub

/-! ## Transfers on the other endpoints -/

theorem usbPipeTarget_of_some {h : UsbHcd} {devAddr epAddr : BitVec 8}
    (hn : usbHostQhdGetFromAddr h.host devAddr epAddr = some n)
    (ht : usbHostQtdFindFree h = some t) : usbPipeTarget h devAddr epAddr = some (n, t) := by
  unfold usbPipeTarget
  rw [hn, ht]
  rfl

/-- A queue head of the pool with a free descriptor takes it. -/
theorem UsbXfers.Inv.pipe (hs : s.Inv) {devAddr epAddr : BitVec 8} {length : BitVec 16}
    (hn : usbHostQhdGetFromAddr s.hcd.host devAddr epAddr = some n)
    (ht : usbHostQtdFindFree s.hcd = some t) (htakes : s.Takes length n) (hd : d.Fresh) :
    usbHostQtdInsertToQhd (s.hcd.setQtd t d) n t =
        some (usbHostAppended s.hcd n t d (s.ledger.queue n)) ∧
      UsbXfers.Inv ⟨usbHostAppended s.hcd n t d (s.ledger.queue n), s.ledger.submit n t⟩ := by
  unfold usbHostQhdGetFromAddr at hn
  obtain ⟨i, -, rfl⟩ := Option.map_eq_some_iff.mp hn
  unfold usbHostQtdFindFree at ht
  obtain ⟨j, hj, rfl⟩ := Option.map_eq_some_iff.mp ht
  have hunused : (s.hcd.qtd (.pool j)).used = false := by
    have hfound := List.find?_some hj
    exact (Bool.not_eq_true' _).mp hfound
  have hfree : ∀ m, UsbQtdNode.pool j ∉ s.ledger.queue m := fun m hm => by
    rw [(hs.queues.fifo.used _).mpr ⟨m, hm⟩] at hunused
    exact Bool.noConfusion hunused
  exact ⟨hs.queues.fifo.insert hfree, hs.submit htakes.1 ⟨j, rfl⟩ hfree hd⟩

/-- The last descriptor is the new one, with an interrupt on completion if it is to have one. -/
theorem UsbXfers.Inv.pipeAttach (ioc : Bool)
    (hs : UsbXfers.Inv ⟨usbHostAppended s.hcd n t d (s.ledger.queue n), s.ledger.submit n t⟩) :
    ∃ h, (if ioc then usbHostTailIoc (usbHostAppended s.hcd n t d (s.ledger.queue n)) n
        else some (usbHostAppended s.hcd n t d (s.ledger.queue n))) = some h ∧
      UsbXfers.Inv ⟨usbHostAttach h n, s.ledger.submit n t⟩ := by
  cases ioc with
  | true =>
    have htail : ((usbHostAppended s.hcd n t d (s.ledger.queue n)).queue n).listTail = some t := by
      rw [usbHostAppended_queue]
    obtain ⟨h, hrun, hhost, hqueue, hsame⟩ := usbHostTailIoc_same htail
    have hioc : UsbXfers.Inv ⟨h, s.ledger.submit n t⟩ := hs.congr hhost hsame fun m _ _ _ => by
      rw [hqueue]
      exact ⟨rfl, rfl⟩
    exact ⟨h, hrun, hioc.attach n⟩
  | false => exact ⟨_, rfl, hs.attach n⟩

/-! ## The calls that submit -/

section Calls

variable {devAddr epAddr : BitVec 8} {r : Bool × UsbHcd}

/-- A refused call changes nothing. -/
theorem UsbXfers.submitted_refused (target : Option (UsbNode × UsbQtdNode)) :
    s.submitted target (false, s.hcd) = s := rfl

theorem UsbXfers.submitted_some (p : UsbNode × UsbQtdNode) (h : UsbHcd) :
    s.submitted (some p) (true, h) = ⟨h, s.ledger.submit p.1 p.2⟩ := rfl

/-- A call on the control endpoint. -/
theorem UsbXfers.Inv.controlCall (hs : s.Inv) {length : BitVec 16}
    (hok : ∀ p ∈ usbControlTarget devAddr, s.Takes length p.1) (hd : length.toNat < 2 ^ 15 → d.Fresh)
    (hr : ((usbHostQhdControl devAddr).bind fun n => (usbHostQtdControl devAddr).map fun t =>
      (true, usbHostControlXfer s.hcd n t d)) = some r) :
    (s.submitted (usbControlTarget devAddr) r).Inv := by
  obtain ⟨n, hn, hr⟩ := Option.bind_eq_some_iff.mp hr
  obtain ⟨t, ht, rfl⟩ := Option.map_eq_some_iff.mp hr
  have htarget : usbControlTarget devAddr = some (n, t) := by
    unfold usbControlTarget
    rw [hn, ht]
    rfl
  obtain ⟨i, hi, -, -⟩ := usbControlTarget_eq_some htarget
  have htakes := hok _ htarget
  rw [htarget, UsbXfers.submitted_some]
  cases hi
  exact hs.control htakes (hd htakes.2.2)

/-- A set-up packet is appended to the control queue. -/
theorem UsbXfers.Inv.setupSend (hs : s.Inv) {mcu : HpmCore} {setupPacket : BitVec 32}
    (hok : ∀ p ∈ usbControlTarget devAddr, s.Takes usbSetupPacketLen p.1)
    (hr : usbHostSetupSend mcu s.hcd devAddr setupPacket = some r) :
    (s.submitted (usbControlTarget devAddr) r).Inv := by
  refine hs.controlCall hok (fun hlen => ?_) hr
  have hd := usbHostQtdInit_fresh (usbBufferAddress mcu setupPacket) hlen
  exact ⟨hd.used, hd.ends, hd.running, hd.length⟩

/-- A length that a queue head of the pool takes. -/
theorem UsbXfers.Takes.length {length : BitVec 16} (h : s.Takes length n) :
    length.toNat < 2 ^ 15 := by
  cases n with
  | control i => exact h.2.2
  | period i => exact h.2
  | pool i => exact h.2

/-- What a transfer on another endpoint fills in. -/
theorem usbPipeQtd_fresh (s : UsbXfers) (n : UsbNode) (buffer : BitVec 32) {length : BitVec 16}
    (hlen : length.toNat < 2 ^ 15) :
    UsbQtd.Fresh { usbHostQtdInit buffer length with pid := (s.hcd.host.qhd n).pid } := by
  have hd := usbHostQtdInit_fresh buffer hlen
  exact ⟨hd.used, hd.ends, hd.running, hd.length⟩

/-- A transfer to an endpoint is appended to its queue. -/
theorem UsbXfers.Inv.edptXfer (hs : s.Inv) {mcu : HpmCore} {buffer : BitVec 32}
    {buflen : BitVec 16} (hok : ∀ p ∈ usbEdptTarget s.hcd devAddr epAddr, s.Takes buflen p.1)
    (hr : usbHostEdptXfer mcu s.hcd devAddr epAddr buffer buflen = some r) :
    (s.submitted (usbEdptTarget s.hcd devAddr epAddr) r).Inv := by
  unfold usbEdptTarget at hok ⊢
  unfold usbHostEdptXfer at hr
  dsimp only at hr
  split at hr
  · rename_i hep
    rw [if_pos hep] at hok ⊢
    refine hs.controlCall hok (fun hlen => ?_) hr
    have hd := usbHostQtdInit_fresh (usbBufferAddress mcu buffer) hlen
    exact ⟨hd.used, hd.ends, hd.running, hd.length⟩
  · rename_i hep
    rw [if_neg hep] at hok ⊢
    split at hr
    · rename_i n t hn ht
      have htarget := usbPipeTarget_of_some hn ht
      have htakes := hok _ htarget
      obtain ⟨hinsert, hinv⟩ := hs.pipe hn ht htakes
        (usbPipeQtd_fresh s n (usbBufferAddress mcu buffer) htakes.length)
      obtain ⟨h, hioc, hattach⟩ := hinv.pipeAttach true
      obtain ⟨h₁, hh₁, hr⟩ := Option.bind_eq_some_iff.mp hr
      obtain rfl := Option.some.inj (hh₁.symm.trans hinsert)
      obtain ⟨h₂, hh₂, rfl⟩ := Option.map_eq_some_iff.mp hr
      obtain rfl := Option.some.inj (hh₂.symm.trans hioc)
      rw [htarget, UsbXfers.submitted_some]
      exact hattach
    · cases hr
      rw [UsbXfers.submitted_refused]
      exact hs

/-- A refused `usb_host_pipe_queue_xfer` leaves the data as they are, and another one takes
the descriptor into the queue. -/
theorem UsbXfers.Inv.pipeQueue (hs : s.Inv) {buffer : BitVec 32} {totalBytes : BitVec 16}
    (hok : ∀ p ∈ usbPipeTarget s.hcd devAddr epAddr, s.Takes totalBytes p.1)
    (hr : usbHostPipeQueueXfer s.hcd devAddr epAddr buffer totalBytes = some r) :
    r = (false, s.hcd) ∨ ∃ n t d, usbHostQhdGetFromAddr s.hcd.host devAddr epAddr = some n ∧
      usbPipeTarget s.hcd devAddr epAddr = some (n, t) ∧
      r = (true, usbHostAppended s.hcd n t d (s.ledger.queue n)) ∧
      UsbXfers.Inv ⟨usbHostAppended s.hcd n t d (s.ledger.queue n), s.ledger.submit n t⟩ := by
  unfold usbHostPipeQueueXfer at hr
  split at hr
  · rename_i n t hn ht
    have htarget := usbPipeTarget_of_some hn ht
    have htakes := hok _ htarget
    obtain ⟨hinsert, hinv⟩ := hs.pipe hn ht htakes (usbPipeQtd_fresh s n buffer htakes.length)
    obtain ⟨h₁, hh₁, rfl⟩ := Option.map_eq_some_iff.mp hr
    obtain rfl := Option.some.inj (hh₁.symm.trans hinsert)
    exact Or.inr ⟨n, t, _, hn, htarget, rfl, hinv⟩
  · cases hr
    exact Or.inl rfl

/-- A transfer that is queued is appended. -/
theorem UsbXfers.Inv.pipeQueueXfer (hs : s.Inv) {buffer : BitVec 32} {totalBytes : BitVec 16}
    (hok : ∀ p ∈ usbPipeTarget s.hcd devAddr epAddr, s.Takes totalBytes p.1)
    (hr : usbHostPipeQueueXfer s.hcd devAddr epAddr buffer totalBytes = some r) :
    (s.submitted (usbPipeTarget s.hcd devAddr epAddr) r).Inv := by
  obtain rfl | ⟨n, t, d, -, htarget, rfl, hinv⟩ := hs.pipeQueue hok hr
  · rw [UsbXfers.submitted_refused]
    exact hs
  · rw [htarget, UsbXfers.submitted_some]
    exact hinv

/-- A transfer that is started is appended as well. -/
theorem UsbXfers.Inv.pipeXfer (hs : s.Inv) {buffer : BitVec 32} {totalBytes : BitVec 16}
    {intOnComplete : Bool} (hok : ∀ p ∈ usbPipeTarget s.hcd devAddr epAddr, s.Takes totalBytes p.1)
    (hr : usbHostPipeXfer s.hcd devAddr epAddr buffer totalBytes intOnComplete = some r) :
    (s.submitted (usbPipeTarget s.hcd devAddr epAddr) r).Inv := by
  unfold usbHostPipeXfer at hr
  obtain ⟨q, hq, hr⟩ := Option.bind_eq_some_iff.mp hr
  obtain rfl | ⟨n, t, d, hn, htarget, rfl, hinv⟩ := hs.pipeQueue hok hq
  · cases hr
    rw [UsbXfers.submitted_refused]
    exact hs
  · obtain ⟨h, hioc, hattach⟩ := hinv.pipeAttach intOnComplete
    rw [hn] at hr
    dsimp only at hr
    obtain ⟨h₂, hh₂, rfl⟩ := Option.map_eq_some_iff.mp hr
    obtain rfl := Option.some.inj (hh₂.symm.trans hioc)
    rw [htarget, UsbXfers.submitted_some]
    exact hattach

end Calls

/-! ## The controller -/

/-- What is found active is a member of the queue. -/
theorem usbFirstActive_mem {h : UsbHcd} : ∀ (k : Nat) (ts : List UsbQtdNode),
    ts.IsChain (fun t u => (h.qtd t).next.address = some u) →
      (∀ t ∈ ts.getLast?, (h.qtd t).next.address = none) →
      usbFirstActive h k ts.head? = some t → t ∈ ts
  | 0, _, _, _, hr => nomatch hr
  | _ + 1, [], _, _, hr => nomatch hr
  | k + 1, u :: ts, hlinks, hends, hr => by
    rw [List.head?_cons, usbFirstActive] at hr
    split at hr
    · cases hr
      exact List.mem_cons_self
    · refine List.mem_cons_of_mem u ?_
      cases ts with
      | nil =>
        have hnone : (h.qtd u).next.address = none := hends u rfl
        rw [hnone] at hr
        cases k <;> cases hr
      | cons v ts =>
        obtain ⟨hlink, hlinks⟩ := List.isChain_cons_cons.mp hlinks
        rw [hlink] at hr
        refine usbFirstActive_mem k (v :: ts) hlinks (fun w hw => hends w ?_) hr
        rw [List.getLast?_cons_cons]
        exact hw

/-- The descriptor that the controller ended, in a queue that was not halted. -/
structure UsbHcEnds (s : UsbXfers) (n : UsbNode) (left : BitVec 15) (how : UsbEnd)
    (r : UsbQtdNode × UsbHcd) : Prop where
  running : (s.hcd.queue n).overlay.halted = false
  mem : r.1 ∈ s.ledger.queue n
  left_le : left ≤ (s.hcd.qtd r.1).totalBytes
  host : r.2.host = s.hcd.host
  qtd : ∀ u, r.2.qtd u = if u = r.1 then (s.hcd.qtd r.1).ended left how else s.hcd.qtd u
  queue : ∀ m, r.2.queue m = if m = n then
    { s.hcd.queue n with overlay := (s.hcd.qtd r.1).ended left how } else s.hcd.queue m

/-- The controller ends the first descriptor that is active. -/
theorem UsbXfers.Inv.hcEnds (hs : s.Inv) {left : BitVec 15} {how : UsbEnd}
    {r : UsbQtdNode × UsbHcd} (hr : usbHcComplete s.hcd n left how = some r) :
    UsbHcEnds s n left how r := by
  unfold usbHcComplete at hr
  split at hr
  · cases hr
  · rename_i hrunning
    obtain ⟨t, ht, hr⟩ := Option.bind_eq_some_iff.mp hr
    rw [hs.queues.fifo.head n] at ht
    have hmem := usbFirstActive_mem _ _ (hs.queues.fifo.links n) (hs.queues.ends n) ht
    split at hr
    · cases hr
    · rename_i hle
      cases hr
      exact ⟨Bool.eq_false_iff.mpr hrunning, hmem, BitVec.not_lt.mp hle, rfl, fun _ => rfl,
        fun _ => rfl⟩

/-- How a descriptor ended shows in it. -/
theorem UsbQtd.ended_result (q : UsbQtd) (left : BitVec 15) {how : UsbEnd} (hhow : how ≠ .done) :
    (q.ended left how).result = how.result := by
  cases how with
  | done => exact absurd rfl hhow
  | stall => rfl
  | xact => rfl
  | babble => rfl
  | buffer => rfl

section Ends

variable {left : BitVec 15} {how : UsbEnd} {r : UsbQtdNode × UsbHcd}

/-- No other descriptor of the queue is halted. -/
theorem UsbXfers.Inv.ended_running (hs : s.Inv) (he : UsbHcEnds s n left how r) {u : UsbQtdNode}
    (hu : u ∈ s.ledger.queue n) : (s.hcd.qtd u).halted = false := by
  refine Bool.eq_false_iff.mpr fun hhalt => ?_
  have hshows := (hs.queues.halted n u hu hhalt).1
  exact Bool.noConfusion (he.running.symm.trans hshows)

/-- The fields that link the queues stay. -/
theorem UsbHcEnds.links (he : UsbHcEnds s n left how r) (u : UsbQtdNode) :
    (r.2.qtd u).next = (s.hcd.qtd u).next ∧ (r.2.qtd u).used = (s.hcd.qtd u).used ∧
      (r.2.qtd u).expectedBytes = (s.hcd.qtd u).expectedBytes := by
  rw [he.qtd]
  split
  · rename_i hu
    rw [hu]
    exact ⟨rfl, rfl, rfl⟩
  · exact ⟨rfl, rfl, rfl⟩

/-- And moves no descriptor between queues. -/
theorem UsbHcEnds.lists (he : UsbHcEnds s n left how r) (m : UsbNode) :
    (r.2.queue m).listHead = (s.hcd.queue m).listHead ∧
      (r.2.queue m).listTail = (s.hcd.queue m).listTail ∧
      (r.2.queue m).totalXferredBytes = (s.hcd.queue m).totalXferredBytes := by
  rw [he.queue]
  split
  · rename_i hm
    rw [hm]
    exact ⟨rfl, rfl, rfl⟩
  · exact ⟨rfl, rfl, rfl⟩

/-- What is still to be reported behind it. -/
theorem UsbHcEnds.halted_iff (hs : s.Inv) (he : UsbHcEnds s n left how r) {m : UsbNode}
    {u : UsbQtdNode} (hu : u ∈ s.ledger.queue m) : (r.2.qtd u).halted = true ↔
      (u = r.1 ∧ how ≠ .done) ∨ (m ≠ n ∧ (s.hcd.qtd u).halted = true) := by
  rw [he.qtd]
  by_cases hut : u = r.1
  · rw [if_pos hut]
    have hmn : m = n := hs.queues.unique hu (hut ▸ he.mem)
    have hended : ((s.hcd.qtd r.1).ended left how).halted = true ↔ how ≠ .done := decide_eq_true_iff
    rw [hended]
    exact ⟨fun h => Or.inl ⟨hut, h⟩, fun h => (h.resolve_right fun hc => hc.1 hmn).2⟩
  · rw [if_neg hut]
    refine ⟨fun h => Or.inr ⟨?_, h⟩, fun h => (h.resolve_left fun hc => hut hc.1).2⟩
    rintro rfl
    rw [hs.ended_running he hu] at h
    exact Bool.noConfusion h

/-- What the descriptor says is what the ledger says. -/
theorem UsbXfers.Inv.ended_queues (hs : s.Inv) (he : UsbHcEnds s n left how r) :
    UsbQueues r.2 (s.ledger.move n r.1
      ((s.hcd.qtd r.1).totalBytes.toNat - left.toNat) how) := by
  have hq := hs.queues
  refine ⟨⟨fun m => (he.lists m).1.trans (hq.fifo.head m),
    fun m => (he.lists m).2.1.trans (hq.fifo.tail m), fun m => (hq.fifo.links m).imp fun a b hab => ?_,
    fun u => ?_, hq.fifo.nodup, hq.fifo.apart⟩, fun m u hu => ?_, hq.owner, hq.conserved, hq.bytes,
    fun m => ?_, fun m u hu => ?_, fun m u hu hhalt => ?_, fun m u hu v hv huh hvh => ?_⟩
  · rw [(he.links a).1]
    exact hab
  · rw [(he.links u).2.1]
    exact hq.fifo.used u
  · rw [(he.links u).1]
    exact hq.ends m u hu
  · rw [(he.lists m).2.2]
    exact hq.total m
  · have hleft := hq.left m u hu
    rw [(he.links u).2.2, he.qtd]
    unfold UsbLedger.move
    dsimp only
    by_cases hut : u = r.1
    · have hle := BitVec.le_def.mp he.left_le
      have htotal : ((s.hcd.qtd r.1).ended left how).totalBytes = left := rfl
      rw [if_pos hut, htotal, hut, Function.update_self]
      rw [hut] at hleft
      omega
    · rw [if_neg hut, Function.update_of_ne hut]
      exact hleft
  · rcases (he.halted_iff hs hu).mp hhalt with ⟨rfl, hhow⟩ | ⟨hmn, hold⟩
    · obtain rfl := hq.unique hu he.mem
      rw [he.queue, if_pos rfl, he.qtd, if_pos rfl]
      exact ⟨decide_eq_true hhow, rfl⟩
    · have hut : u ≠ r.1 := fun hut => hmn (hq.unique hu (hut ▸ he.mem))
      rw [he.queue, if_neg hmn, he.qtd, if_neg hut]
      exact hq.halted m u hu hold
  · rcases (he.halted_iff hs hu).mp huh with ⟨rfl, -⟩ | ⟨hmn, hold⟩
    · rcases (he.halted_iff hs hv).mp hvh with ⟨rfl, -⟩ | ⟨hmn, -⟩
      · rfl
      · exact absurd (hq.unique hu he.mem) hmn
    · rcases (he.halted_iff hs hv).mp hvh with ⟨rfl, -⟩ | ⟨-, hold'⟩
      · exact absurd (hq.unique hv he.mem) hmn
      · exact hq.one m u hu v hv hold hold'

/-- A failure is in front of its queue. -/
theorem UsbXfers.Inv.ended_failures (hs : s.Inv) (he : UsbHcEnds s n left how r) :
    UsbFailures r.2 (s.ledger.move n r.1
      ((s.hcd.qtd r.1).totalBytes.toNat - left.toNat) how) := by
  intro m res hres
  have hpending : (UsbXfers.mk r.2 (s.ledger.move n r.1
      ((s.hcd.qtd r.1).totalBytes.toNat - left.toNat) how)).Pending m res ↔
        (m = n ∧ how ≠ .done ∧ how.result = res) ∨ (m ≠ n ∧ s.Pending m res) := by
    constructor
    · rintro ⟨u, hu, hhalt, hresult⟩
      rcases (he.halted_iff hs hu).mp hhalt with ⟨rfl, hhow⟩ | ⟨hmn, hold⟩
      · refine Or.inl ⟨hs.queues.unique hu he.mem, hhow, ?_⟩
        rw [← UsbQtd.ended_result (s.hcd.qtd r.1) left hhow, ← hresult]
        dsimp only
        rw [he.qtd, if_pos rfl]
      · have hut : u ≠ r.1 := fun hut => hmn (hs.queues.unique hu (hut ▸ he.mem))
        refine Or.inr ⟨hmn, u, hu, hold, ?_⟩
        rw [← hresult]
        dsimp only
        rw [he.qtd, if_neg hut]
    · rintro (⟨rfl, hhow, hresult⟩ | ⟨hmn, u, hu, hold, hresult⟩)
      · refine ⟨r.1, he.mem, (he.halted_iff hs he.mem).mpr (Or.inl ⟨rfl, hhow⟩), ?_⟩
        dsimp only
        rw [he.qtd, if_pos rfl]
        exact (UsbQtd.ended_result _ left hhow).trans hresult
      · have hut : u ≠ r.1 := fun hut => hmn (hs.queues.unique hu (hut ▸ he.mem))
        refine ⟨u, hu, (he.halted_iff hs hu).mpr (Or.inr ⟨hmn, hold⟩), ?_⟩
        dsimp only
        rw [he.qtd, if_neg hut]
        exact hresult
  have hold := hs.failures m res hres
  unfold UsbLedger.move at hpending ⊢
  dsimp only
  by_cases hm : m = n
  · subst hm
    have hnone : ¬ (UsbXfers.mk s.hcd s.ledger).Pending m res := by
      rintro ⟨u, hu, hhalt, -⟩
      have hu : u ∈ s.ledger.queue m := hu
      have hrun := hs.ended_running he hu
      exact Bool.noConfusion (hrun.symm.trans hhalt)
    rw [if_neg hnone, Nat.add_zero] at hold
    rw [Function.update_self]
    by_cases hr : res = how.result
    · have hhow : how ≠ .done := by
        rintro rfl
        exact hres hr
      rw [if_pos (hpending.mpr (Or.inl ⟨rfl, hhow, hr.symm⟩)), hr, Function.update_self, ← hr, hold]
    · rw [Function.update_of_ne hr, if_neg fun hp => ?_, Nat.add_zero]
      · exact hold
      · rcases hpending.mp hp with ⟨-, -, h⟩ | ⟨h, -⟩
        · exact hr h.symm
        · exact h rfl
  · rw [Function.update_of_ne hm, hold]
    simp only [hpending, hm, false_and, false_or, ne_eq, not_false_eq_true, true_and]

end Ends

/-- The controller ends a descriptor. -/
theorem UsbXfers.Inv.complete (hs : s.Inv) {left : BitVec 15} {how : UsbEnd}
    {r : UsbQtdNode × UsbHcd} (hr : usbHcComplete s.hcd n left how = some r) :
    UsbXfers.Inv ⟨r.2, s.ledger.move n r.1
      ((s.hcd.qtd r.1).totalBytes.toNat - left.toNat) how⟩ := by
  have he := hs.hcEnds hr
  refine ⟨?_, fun m hm => ?_, hs.ended_queues he, hs.ended_failures he⟩
  · dsimp only
    rw [he.host]
    exact hs.host
  · dsimp only
    rw [he.host]
    exact hs.linked m hm

end HpmSdk.Usb
