import HpmSdk.Usb.XfersIsr

set_option autoImplicit false

/-!
# USB host: interrupts over the lists

The loops of the interrupts go through the queue heads of well-formed lists once each, and
what one pass does for its queue head the other passes leave.

`usbVisit` visits a list of queue heads, and each loop is shown to be one visit.
-/

namespace HpmSdk.Usb

open HpmSdk.Foundation

/-! ## Passes -/

/-- One pass for each queue head. -/
def usbVisit (isr : UsbHcd → UsbNode → Option (UsbHcd × List UsbTrace)) :
    UsbHcd → List UsbNode → Option (UsbHcd × List UsbTrace)
  | h, [] => some (h, [])
  | h, n :: ns => (isr h n).bind fun r => (usbVisit isr r.1 ns).map fun r' => (r'.1, r.2 ++ r'.2)

/-- An interrupt links no queue head elsewhere. -/
def KeepsHost (isr : UsbHcd → UsbNode → Option (UsbHcd × List UsbTrace)) : Prop :=
  ∀ h n r, isr h n = some r → r.1.host = h.host

section Host

theorem usbHostQtdRemove1stFromQhd_host {h h' : UsbHcd} {n : UsbNode}
    (hr : usbHostQtdRemove1stFromQhd h n = some h') : h'.host = h.host := by
  unfold usbHostQtdRemove1stFromQhd at hr
  split at hr
  · cases hr
    rfl
  · obtain ⟨t, -, rfl⟩ := Option.map_eq_some_iff.mp hr
    rfl

/-- An interrupt changes no list. -/
theorem qhdXferCompleteLoop_host : ∀ (k : Nat) {h : UsbHcd} {n : UsbNode}
    {r : UsbHcd × List UsbTrace}, qhdXferCompleteLoop k h n = some r → r.1.host = h.host
  | 0, _, _, _, hr => nomatch hr
  | k + 1, h, n, r, hr => by
    unfold qhdXferCompleteLoop at hr
    split at hr
    · cases hr
      rfl
    · split at hr
      · cases hr
        rfl
      · obtain ⟨mid, hmid, hr⟩ := Option.bind_eq_some_iff.mp hr
        have hhost : mid.host = h.host := (usbHostQtdRemove1stFromQhd_host hmid :)
        split at hr
        · obtain ⟨r', hr', rfl⟩ := Option.map_eq_some_iff.mp hr
          exact (qhdXferCompleteLoop_host k hr').trans hhost
        · obtain ⟨r', hr', rfl⟩ := Option.map_eq_some_iff.mp hr
          exact (qhdXferCompleteLoop_host k hr').trans hhost

theorem qhdXferCompleteUnlessHalted_host : KeepsHost qhdXferCompleteUnlessHalted := by
  intro h n r hr
  unfold qhdXferCompleteUnlessHalted at hr
  split at hr
  · cases hr
    rfl
  · exact qhdXferCompleteLoop_host usbQueuePasses hr

theorem qhdXferErrorIsr_host : KeepsHost qhdXferErrorIsr := by
  intro h n r hr
  unfold qhdXferErrorIsr at hr
  split at hr
  · obtain ⟨t, -, hr⟩ := Option.bind_eq_some_iff.mp hr
    obtain ⟨mid, hmid, hr⟩ := Option.bind_eq_some_iff.mp hr
    obtain ⟨last, hlast, rfl⟩ := Option.map_eq_some_iff.mp hr
    have hhost : mid.host = h.host := (usbHostQtdRemove1stFromQhd_host hmid :)
    refine Eq.trans ?_ hhost
    split at hlast
    · obtain ⟨setup, -, rfl⟩ := Option.map_eq_some_iff.mp hlast
      rfl
    · cases hlast
      rfl
  · cases hr
    rfl

end Host

/-! ## The loops are passes -/

section Loops

variable {isr : UsbHcd → UsbNode → Option (UsbHcd × List UsbTrace)}

/-- And neither do the interrupts over several queue heads. -/
theorem usbVisit_host (hisr : KeepsHost isr) : ∀ (ns : List UsbNode) {h : UsbHcd}
    {r : UsbHcd × List UsbTrace}, usbVisit isr h ns = some r → r.1.host = h.host
  | [], _, _, hr => by
    cases hr
    rfl
  | n :: ns, h, r, hr => by
    obtain ⟨mid, hmid, hr⟩ := Option.bind_eq_some_iff.mp hr
    obtain ⟨r', hr', rfl⟩ := Option.map_eq_some_iff.mp hr
    exact (usbVisit_host hisr ns hr').trans (hisr h n mid hmid)

/-- Visiting two lists is visiting one behind the other. -/
theorem usbVisit_append : ∀ (ns ms : List UsbNode) (h : UsbHcd),
    usbVisit isr h (ns ++ ms) = (usbVisit isr h ns).bind fun r =>
      (usbVisit isr r.1 ms).map fun r' => (r'.1, r.2 ++ r'.2)
  | [], ms, h => by
    change usbVisit isr h ms = (usbVisit isr h ms).map fun r' => (r'.1, [] ++ r'.2)
    exact Option.map_id'.symm
  | n :: ns, ms, h => by
    rw [List.cons_append, usbVisit, usbVisit]
    cases hn : isr h n with
    | none => rfl
    | some mid =>
      rw [Option.bind_some, Option.bind_some, usbVisit_append ns ms]
      cases hns : usbVisit isr mid.1 ns with
      | none => rfl
      | some r =>
        cases hms : usbVisit isr r.1 ms with
        | none =>
          rw [Option.map_some, Option.bind_some, Option.bind_some, hms]
          rfl
        | some r' =>
          rw [Option.map_some, Option.bind_some, Option.bind_some, hms, Option.map_some,
            Option.map_some, Option.map_some, List.append_assoc]

/-- The loop over the asynchronous list passes its head and its members. -/
theorem usbAsyncLoop_eq (hisr : KeepsHost isr) : ∀ (k : Nat) (h : UsbHcd) (n : UsbNode)
    (xs : List UsbNode), Path h.host n xs (UsbLink.to usbHostQhdAsyncHead) →
      usbHostQhdAsyncHead ∉ xs → xs.length < k → usbAsyncLoop isr k h n = usbVisit isr h (n :: xs)
  | 0, _, _, _, _, _, hlt => absurd hlt (Nat.not_lt_zero _)
  | k + 1, h, n, xs, hp, hnot, hlt => by
    rw [usbAsyncLoop, usbVisit]
    cases hn : isr h n with
    | none => rfl
    | some r =>
      have hhost : r.1.host = h.host := hisr h n r hn
      rw [Option.bind_some, Option.bind_some, hhost]
      cases xs with
      | nil =>
        have hnext : (h.host.qhd n).next = UsbLink.to usbHostQhdAsyncHead := hp
        rw [hnext, usbVisit, Option.map_some, List.append_nil]
        exact if_pos rfl
      | cons x xs =>
        have hx : x ≠ usbHostQhdAsyncHead := fun hc => hnot (hc ▸ List.mem_cons_self)
        have hpath : Path r.1.host x xs (UsbLink.to usbHostQhdAsyncHead) := hhost.symm ▸ hp.2
        rw [hp.1, ← usbAsyncLoop_eq hisr k r.1 x xs hpath
          (fun hmem => hnot (List.mem_cons_of_mem x hmem)) (Nat.lt_of_succ_lt_succ hlt)]
        exact if_neg hx

/-- The loop over a periodic list passes its members. -/
theorem usbPeriodLoop_eq (hisr : KeepsHost isr)
    (limit : UsbHcd → Option (UsbHcd × List UsbTrace)) (i : Fin usbHcdPeriodicArrCount) :
    ∀ (k : Nat) (h : UsbHcd) (n : UsbNode) (xs : List UsbNode),
      Path h.host n xs (UsbList.period i).tail → .period usbPeriod1ms ∉ xs → xs.length < k →
      usbPeriodLoop isr limit i k h (h.host.qhd n).next = usbVisit isr h xs
  | 0, _, _, _, _, _, hlt => absurd hlt (Nat.not_lt_zero _)
  | k + 1, h, n, xs, hp, hnot, hlt => by
    rw [usbPeriodLoop]
    cases xs with
    | nil =>
      have hnext : (h.host.qhd n).next = (UsbList.period i).tail := hp
      have hstop : (UsbList.period i).tail.terminate = true ∨
          (i ≠ usbPeriod1ms ∧ (UsbList.period i).tail.address = some (.period usbPeriod1ms)) := by
        unfold UsbList.tail
        dsimp only
        split
        · exact Or.inl rfl
        · rename_i hi
          exact Or.inr ⟨hi, rfl⟩
      rw [hnext, if_pos hstop]
      rfl
    | cons x xs =>
      have hx : x ≠ .period usbPeriod1ms := fun hc => hnot (hc ▸ List.mem_cons_self)
      have hgo : ¬ ((UsbLink.to x).terminate = true ∨
          (i ≠ usbPeriod1ms ∧ (UsbLink.to x).address = some (.period usbPeriod1ms))) := by
        rintro (hterm | ⟨-, haddr⟩)
        · exact Bool.false_ne_true hterm
        · exact hx (Option.some.inj haddr)
      rw [hp.1, if_neg hgo, UsbLink.to, Option.bind_some, usbVisit]
      cases hn : isr h x with
      | none => rfl
      | some r =>
        have hhost : r.1.host = h.host := hisr h x r hn
        have hpath : Path r.1.host x xs (UsbList.period i).tail := hhost.symm ▸ hp.2
        rw [Option.bind_some, Option.bind_some, usbPeriodLoop_eq hisr limit i k r.1 x xs hpath
          (fun hmem => hnot (List.mem_cons_of_mem x hmem)) (Nat.lt_of_succ_lt_succ hlt)]

variable {h : UsbHcd}

/-- A list has fewer members than passes that its loop is followed for. -/
theorem Sched.members_length_lt (hs : Sched h.host h.host.members) (c : UsbList) :
    (h.host.members c).length + 1 < usbListPasses := by
  have hcard : (c.head :: h.host.members c).length ≤ Fintype.card UsbNode :=
    (hs.nodup c).length_le_card
  exact Nat.lt_succ_of_le hcard

/-- The loop over the asynchronous list visits its members once. -/
theorem usbAsyncLoop_visit (hs : Sched h.host h.host.members) (hisr : KeepsHost isr) :
    usbAsyncLoop isr usbListPasses h usbHostQhdAsyncHead =
      usbVisit isr h (UsbXfers.visited h.host .async) :=
  usbAsyncLoop_eq hisr _ _ _ _ (hs.path .async) (hs.head_not_mem .async .async)
    (Nat.lt_of_succ_lt (hs.members_length_lt .async))

/-- The loop over a periodic list visits its members, and then goes on as its end tells. -/
theorem usbPeriodLoop_visit (hs : Sched h.host h.host.members) (hisr : KeepsHost isr)
    (limit : UsbHcd → Option (UsbHcd × List UsbTrace)) (i : Fin usbHcdPeriodicArrCount) {k : Nat}
    (hk : (h.host.members (.period i)).length < k) :
    usbPeriodLoop isr limit i k h (h.host.qhd (.period i)).next =
      usbVisit isr h (UsbXfers.visited h.host (.period i)) :=
  usbPeriodLoop_eq hisr limit i _ _ _ _ (hs.path (.period i))
    (hs.head_not_mem (.period usbPeriod1ms) (.period i)) hk

/-- The configuration lets the loop over a periodic list reach its end. -/
theorem TusbConfig.lt_maxLoop (cfg : TusbConfig) (hs : Sched h.host h.host.members) (c : UsbList) :
    (h.host.members c).length < cfg.maxLoop := by
  have hlen := hs.members_length_lt c
  have hmax : usbListPasses ≤ cfg.hcdMaxEndpoint + 4 + 16 := by
    unfold usbListPasses
    omega
  calc (h.host.members c).length < usbListPasses := Nat.lt_of_succ_lt hlen
    _ ≤ cfg.hcdMaxEndpoint + 4 + 16 := hmax
    _ ≤ cfg.maxLoop := Nat.le_mul_of_pos_right _ cfg.hostDeviceMax_pos

/-- The completion interrupt of a list. -/
theorem usbCompletionIsr_visit (cfg : TusbConfig) (hs : Sched h.host h.host.members)
    (c : UsbList) : usbCompletionIsr cfg h c =
      usbVisit qhdXferCompleteUnlessHalted h (UsbXfers.visited h.host c) := by
  cases c with
  | async => exact usbAsyncLoop_visit hs qhdXferCompleteUnlessHalted_host
  | period i =>
    exact usbPeriodLoop_visit hs qhdXferCompleteUnlessHalted_host _ i (cfg.lt_maxLoop hs _)

/-- The queue heads that the error interrupt goes through. -/
def usbAllVisited (h : UsbHost) : List UsbNode := UsbList.all.flatMap (UsbXfers.visited h)

theorem periodListXferErrorIsr_fold : ∀ (is : List (Fin usbHcdPeriodicArrCount))
    (r : UsbHcd × List UsbTrace), r.1.host = h.host → Sched h.host h.host.members →
      is.foldlM (fun r i => (periodListXferErrorIsr r.1 i).map fun r' => (r'.1, r.2 ++ r'.2)) r =
        (usbVisit qhdXferErrorIsr r.1
          ((is.map .period).flatMap (UsbXfers.visited h.host))).map fun r' => (r'.1, r.2 ++ r'.2)
  | [], r, _, _ => by
    change some r = some (r.1, r.2 ++ [])
    rw [List.append_nil]
  | i :: is, r, hhost, hs => by
    have hsr : Sched r.1.host r.1.host.members := hhost.symm ▸ hs
    have hpass : periodListXferErrorIsr r.1 i =
        usbVisit qhdXferErrorIsr r.1 (UsbXfers.visited h.host (.period i)) := by
      rw [← hhost]
      exact usbPeriodLoop_visit hsr qhdXferErrorIsr_host _ i
        (Nat.lt_of_succ_lt (hsr.members_length_lt _))
    rw [List.foldlM_cons, hpass, List.map_cons, List.flatMap_cons, usbVisit_append]
    cases hr : usbVisit qhdXferErrorIsr r.1 (UsbXfers.visited h.host (.period i)) with
    | none => rfl
    | some mid =>
      have hmid : mid.1.host = h.host := (usbVisit_host qhdXferErrorIsr_host _ hr).trans hhost
      rw [Option.map_some, Option.bind_some]
      refine (periodListXferErrorIsr_fold is (mid.1, r.2 ++ mid.2) hmid hs).trans ?_
      cases usbVisit qhdXferErrorIsr mid.1 ((is.map .period).flatMap (UsbXfers.visited h.host)) with
      | none => rfl
      | some last =>
        rw [Option.map_some, Option.map_some, Option.map_some, List.append_assoc]

/-- The error interrupt goes through the asynchronous list, then the periodic ones. -/
theorem xferErrorIsr_visit (hs : Sched h.host h.host.members) :
    xferErrorIsr h = usbVisit qhdXferErrorIsr h (usbAllVisited h.host) := by
  unfold xferErrorIsr usbAllVisited UsbList.all
  rw [usbAsyncLoop_visit hs qhdXferErrorIsr_host, List.flatMap_cons, usbVisit_append]
  cases hr : usbVisit qhdXferErrorIsr h (UsbXfers.visited h.host .async) with
  | none => rfl
  | some r =>
    rw [Option.bind_some, Option.bind_some]
    exact periodListXferErrorIsr_fold _ r (usbVisit_host qhdXferErrorIsr_host _ hr) hs

/-- The lists share no queue head. -/
theorem Sched.allVisited_nodup (hs : Sched h.host h.host.members) :
    (usbAllVisited h.host).Nodup := by
  have hsub : ∀ c, (UsbXfers.visited h.host c).Sublist (c.head :: h.host.members c) := fun c => by
    cases c with
    | async => exact List.Sublist.refl _
    | period i => exact List.sublist_cons_self _ _
  have hlists : UsbList.all.Nodup := by decide
  refine List.nodup_flatMap.mpr ⟨fun c _ => (hs.nodup c).sublist (hsub c), ?_⟩
  refine hlists.imp fun {c c'} hne x hx hx' => ?_
  exact hs.apart c c' hne ((hsub c).subset hx) ((hsub c').subset hx')

end Loops

/-! ## What the passes leave -/

section Visit

variable {isr : UsbHcd → UsbNode → Option (UsbHcd × List UsbTrace)}
variable {Ready Done : UsbXfers → UsbNode → Prop}

/-- What a pass needs and leaves for its queue head, the passes for other queue heads keep. -/
def UsbFramed (P : UsbXfers → UsbNode → Prop) : Prop :=
  ∀ (s s' : UsbXfers) (n m : UsbNode), s.Inv → UsbOnly n s s' → m ≠ n → P s m → P s' m

/-- What interrupts freed and reported adds up. -/
theorem UsbXfers.interrupted_append (s : UsbXfers) (r r' : UsbHcd × List UsbTrace) :
    (s.interrupted r).interrupted r' = s.interrupted (r'.1, r.2 ++ r'.2) :=
  congrArg (UsbXfers.mk r'.1) (s.ledger.record_append r.2 r'.2).symm

/-- From one pass to all. -/
theorem UsbXfers.Inv.visit (hready : UsbFramed Ready) (hdone : UsbFramed Done)
    (hisr : ∀ (s : UsbXfers) (n : UsbNode), s.Inv → Ready s n → ∃ r, isr s.hcd n = some r ∧
      (s.interrupted r).Inv ∧ UsbOnly n s (s.interrupted r) ∧ Done (s.interrupted r) n) :
    ∀ (ns : List UsbNode) (s : UsbXfers), s.Inv → ns.Nodup → (∀ n ∈ ns, Ready s n) →
      ∃ r, usbVisit isr s.hcd ns = some r ∧ (s.interrupted r).Inv ∧
        (∀ n ∈ ns, Done (s.interrupted r) n) ∧ ∀ n, n ∉ ns → Done s n → Done (s.interrupted r) n
  | [], s, hs, _, _ =>
    ⟨(s.hcd, []), rfl, hs, fun _ hn => absurd hn List.not_mem_nil, fun _ _ hd => hd⟩
  | n :: ns, s, hs, hnodup, hall => by
    obtain ⟨hn, hns⟩ := List.nodup_cons.mp hnodup
    obtain ⟨r, hrun, hinv, honly, hthis⟩ := hisr s n hs (hall n List.mem_cons_self)
    obtain ⟨r', hrest, hinv', hthose, hkept⟩ := UsbXfers.Inv.visit hready hdone hisr ns
      (s.interrupted r) hinv hns fun m hm =>
        hready s _ n m hs honly (fun hmn => hn (hmn ▸ hm)) (hall m (List.mem_cons_of_mem n hm))
    rw [UsbXfers.interrupted_append] at hinv' hthose hkept
    have hlast : usbVisit isr r.1 ns = some r' := hrest
    refine ⟨(r'.1, r.2 ++ r'.2), ?_, hinv', fun m hm => ?_, fun m hm hd => ?_⟩
    · rw [usbVisit, hrun, Option.bind_some, hlast, Option.map_some]
    · rcases List.mem_cons.mp hm with rfl | hm
      · exact hkept m hn hthis
      · exact hthose m hm
    · have hmn : m ≠ n := fun hmn => hm (hmn ▸ List.mem_cons_self)
      exact hkept m (fun hmem => hm (List.mem_cons_of_mem n hmem))
        (hdone s _ n m hs honly hmn hd)

end Visit

/-! ## The interrupts -/

section Interrupts

variable {s : UsbXfers}

theorem UsbXfers.Inv.sched (hs : s.Inv) : Sched s.hcd.host s.hcd.host.members :=
  hs.host.opens.sched

/-- The first descriptor of a queue is a member. -/
theorem UsbXfers.Inv.head_mem (hs : s.Inv) {n : UsbNode} {t : UsbQtdNode}
    (ht : t ∈ (s.hcd.queue n).listHead) : t ∈ s.ledger.queue n := by
  rw [hs.queues.fifo.head n] at ht
  exact List.mem_of_head? ht

/-- What is reported is the state of the queue head that was visited. -/
theorem UsbFramed.reportsHead : UsbFramed UsbXfers.ReportsHead := by
  intro s s' n m hs hn hm hrep
  have hreports : s'.hcd.ReportsError m ↔ s.hcd.ReportsError m := by
    unfold UsbHcd.ReportsError
    rw [hn.host, hn.queue m hm]
  refine ⟨fun hr => ?_, fun t ht hhalt => ?_⟩
  · obtain ⟨t, ht, hhalt, hsum⟩ := hrep.1 (hreports.mp hr)
    refine ⟨t, ?_, ?_, ?_⟩
    · rw [hn.queue m hm]
      exact ht
    · rw [hn.qtd m hm t (hs.head_mem ht)]
      exact hhalt
    · rw [hn.queue m hm, hn.qtd m hm t (hs.head_mem ht)]
      exact hsum
  · rw [hn.members m hm] at ht
    rw [hn.qtd m hm t ht] at hhalt
    exact hreports.mpr (hrep.2 t ht hhalt)

/-- The error interrupt reports what is pending on all queue heads. -/
theorem UsbXfers.Inv.errorIsr (hs : s.Inv)
    (hok : ∀ c ∈ UsbList.all, ∀ n ∈ visited s.hcd.host c, s.ReportsHead n) :
    ∃ r, xferErrorIsr s.hcd = some r ∧ (s.interrupted r).Inv ∧
      ∀ c, ∀ n ∈ visited s.hcd.host c, ∀ result, ¬ (s.interrupted r).Pending n result := by
  have hsettled : UsbFramed fun s n => ∀ result, ¬ s.Pending n result :=
    fun s s' n m _ hn hm hpend result hp => hpend result ((hn.pending hm result).mp hp)
  obtain ⟨r, hrun, hinv, hdone, -⟩ := UsbXfers.Inv.visit UsbFramed.reportsHead hsettled
    (fun s n hs hrep => hs.error hrep) (usbAllVisited s.hcd.host) s hs hs.sched.allVisited_nodup
    fun n hn => by
      obtain ⟨c, hc, hnc⟩ := List.mem_flatMap.mp hn
      exact hok c hc n hnc
  refine ⟨r, (xferErrorIsr_visit hs.sched).trans hrun, hinv, fun c n hn => hdone n ?_⟩
  exact List.mem_flatMap.mpr ⟨c, UsbList.mem_all c, hn⟩

/-- What a pass of the completion interrupt needs; the overlay is as it was before. -/
def UsbXfers.Counts (s₀ s : UsbXfers) (n : UsbNode) : Prop :=
  (s.hcd.queue n).overlay.halted = (s₀.hcd.queue n).overlay.halted ∧
    ((s.hcd.queue n).overlay.halted = false →
      UsbCounts s.hcd (s.hcd.queue n).totalXferredBytes.toNat (s.ledger.queue n))

theorem UsbFramed.counts (s₀ : UsbXfers) : UsbFramed (UsbXfers.Counts s₀) := by
  rintro s s' n m - hn hm ⟨hover, hcounts⟩
  unfold UsbXfers.Counts
  rw [hn.queue m hm, hn.members m hm]
  refine ⟨hover, fun hrun => (hcounts hrun).congr fun t ht => ?_⟩
  rw [hn.qtd m hm t ht]
  exact ⟨rfl, rfl, rfl⟩

theorem UsbFramed.active (s₀ : UsbXfers) : UsbFramed fun s n =>
    (s₀.hcd.queue n).overlay.halted = false →
      ∀ t ∈ (s.hcd.queue n).listHead, (s.hcd.qtd t).active = true := by
  intro s s' n m hs hn hm hactive hrun t ht
  rw [hn.queue m hm] at ht
  rw [hn.qtd m hm t (hs.head_mem ht)]
  exact hactive hrun t ht

/-- The completion interrupt returns the completed descriptors of all queue heads of a
list that are not halted. -/
theorem UsbXfers.Inv.completionIsr (hs : s.Inv) (cfg : TusbConfig) (c : UsbList)
    (hok : ∀ n ∈ visited s.hcd.host c, (s.hcd.queue n).overlay.halted = false →
      UsbCounts s.hcd (s.hcd.queue n).totalXferredBytes.toNat (s.ledger.queue n)) :
    ∃ r, usbCompletionIsr cfg s.hcd c = some r ∧ (s.interrupted r).Inv ∧
      ∀ n ∈ visited s.hcd.host c, (s.hcd.queue n).overlay.halted = false →
        ∀ t ∈ (r.1.queue n).listHead, (r.1.qtd t).active = true := by
  have hnodup : (visited s.hcd.host c).Nodup := by
    cases c with
    | async => exact hs.sched.nodup .async
    | period i => exact (List.nodup_cons.mp (hs.sched.nodup (.period i))).2
  obtain ⟨r, hrun, hinv, hdone, -⟩ := UsbXfers.Inv.visit (UsbFramed.counts s) (UsbFramed.active s)
    (fun s' n hs' hready => by
      obtain ⟨r, hr, hinv, honly, hactive⟩ := hs'.completion hready.2
      exact ⟨r, hr, hinv, honly, fun hrunning => hactive (hready.1.trans hrunning)⟩)
    (visited s.hcd.host c) s hs hnodup fun n hn => ⟨rfl, hok n hn⟩
  exact ⟨r, (usbCompletionIsr_visit cfg hs.sched c).trans hrun, hinv, hdone⟩

end Interrupts

end HpmSdk.Usb
