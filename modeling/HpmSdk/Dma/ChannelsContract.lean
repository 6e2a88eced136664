import HpmSdk.Dma.Channels
import Mathlib.Data.List.Count

set_option autoImplicit false

/-!
# DMA: when every end of a transfer is reported

Each action keeps the balance of ends, reports and status bits except for the bits that it
clears and does not report: all of them for a set-up, and those of the other channels for a
check.

The balance is counted for each end of each channel by itself, which is why the bits have to lie
apart (`dmaIndex_inj`).  A run keeps it if and only if each of its actions does.
-/

namespace HpmSdk.Dma

open HpmSdk.Foundation

/-! ## Bits -/

theorem getLsbD_dmaBit {n : Nat} (hn : n < 32) (i : Nat) : (dmaBit n).getLsbD i = decide (n = i) :=
  getLsbD_one_shiftLeft hn i

theorem dmaIndex_lt (e : DmaChannel × DmaEnd) : dmaIndex e < 32 := by
  obtain ⟨ch, stop⟩ := e
  have := ch.isLt
  cases stop <;> simp only [dmaIndex, DmaEnd.shift] <;> omega

/-- Every end of every channel has a bit of its own. -/
theorem dmaIndex_inj {e e' : DmaChannel × DmaEnd} : dmaIndex e = dmaIndex e' ↔ e = e' := by
  refine ⟨fun h => ?_, fun h => h ▸ rfl⟩
  obtain ⟨ch, stop⟩ := e
  obtain ⟨ch', stop'⟩ := e'
  have := ch.isLt
  have := ch'.isLt
  have hstop : stop = stop' := by
    cases stop <;> cases stop' <;> simp only [dmaIndex, DmaEnd.shift, reduceCtorEq] at h ⊢ <;> omega
  subst hstop
  have hch : (ch : Nat) = ch' := Nat.add_left_cancel h
  rw [Fin.eq_of_val_eq hch]

/-! ## The hardware -/

namespace DmaBase

/-- A channel with a transfer under way has nothing to be reported, and no channel has two
ends to be reported. -/
structure Sound (ptr : DmaBase) : Prop where
  running : ∀ e, ptr.Running e.1 → ptr.pending e = false
  single : ∀ ch stop stop', ptr.pending (ch, stop) = true → ptr.pending (ch, stop') = true →
    stop = stop'

variable {ptr : DmaBase}

/-- The end of a transfer sets its bit. -/
theorem pending_finish (ptr : DmaBase) (e e' : DmaChannel × DmaEnd) :
    (ptr.finish e).pending e' = (ptr.pending e' || decide (ptr.Running e.1 ∧ e' = e)) := by
  unfold finish
  by_cases hrun : ptr.Running e.1
  · have hbit : (dmaBit (dmaIndex e)).getLsbD (dmaIndex e') = decide (e' = e) := by
      rw [getLsbD_dmaBit (dmaIndex_lt e)]
      exact decide_eq_decide.mpr (dmaIndex_inj.trans eq_comm)
    rw [if_pos hrun]
    simp only [pending, BitVec.getLsbD_or, hbit, hrun, true_and]
  · rw [if_neg hrun]
    simp only [hrun, false_and, decide_false, Bool.or_false]

/-- The end of a transfer stops its channel, and no other one. -/
theorem running_finish (ptr : DmaBase) (e : DmaChannel × DmaEnd) (ch : DmaChannel) :
    (ptr.finish e).Running ch ↔ ptr.Running ch ∧ ch ≠ e.1 := by
  unfold finish
  by_cases hrun : ptr.Running e.1
  · have hlt : ∀ ch : DmaChannel, (ch : Nat) < 32 := fun ch => Nat.lt_trans ch.isLt (by decide)
    have hbit : (dmaBit e.1).getLsbD ch = decide (ch = e.1) := by
      rw [getLsbD_dmaBit (hlt e.1)]
      exact decide_eq_decide.mpr (Fin.val_inj.trans eq_comm)
    rw [if_pos hrun]
    simp only [Running, BitVec.getLsbD_and, BitVec.getLsbD_not, hbit, hlt,
      decide_true, Bool.true_and, Bool.and_eq_true, Bool.not_eq_true', decide_eq_false_iff_not,
      ne_eq]
  · rw [if_neg hrun]
    exact ⟨fun h => ⟨h, fun heq => hrun (heq ▸ h)⟩, And.left⟩

theorem Sound.finish (h : ptr.Sound) (e : DmaChannel × DmaEnd) : (ptr.finish e).Sound where
  running e' hrun := by
    obtain ⟨hrun', hne⟩ := (running_finish ptr e e'.1).mp hrun
    rw [pending_finish, h.running e' hrun', Bool.false_or, decide_eq_false_iff_not]
    exact fun heq => hne (congrArg Prod.fst heq.2)
  single ch stop stop' hp hp' := by
    have hold : ∀ stop, ptr.Running ch → ptr.pending (ch, stop) ≠ true :=
      fun stop hrun hpending => Bool.false_ne_true ((h.running (ch, stop) hrun).symm.trans hpending)
    rw [pending_finish, Bool.or_eq_true, decide_eq_true_iff] at hp hp'
    rcases hp with hp | ⟨hrun, rfl⟩
    · rcases hp' with hp' | ⟨hrun, rfl⟩
      · exact h.single ch stop stop' hp hp'
      · exact absurd hp (hold stop hrun)
    · rcases hp' with hp' | ⟨-, heq⟩
      · exact absurd hp' (hold stop' hrun)
      · exact (congrArg Prod.snd heq).symm

/-- The ends that the hardware adds are to be reported. -/
theorem Sound.count_finish (h : ptr.Sound) (e e' : DmaChannel × DmaEnd) :
    (ptr.finish e).ended.count e' + (ptr.pending e').toNat =
      ptr.ended.count e' + ((ptr.finish e).pending e').toNat := by
  rw [pending_finish]
  unfold DmaBase.finish
  by_cases hrun : ptr.Running e.1
  · rw [if_pos hrun]
    simp only [List.count_append, hrun, true_and]
    by_cases heq : e' = e
    · subst heq
      simp [h.running e' hrun]
    · have hne : ¬ e = e' := fun h => heq h.symm
      simp [heq, hne]
  · simp [hrun]

/-- However many transfers end, for each kind the number of ends goes up with its bit. -/
theorem Sound.finishAll (h : ptr.Sound) (ends : List (DmaChannel × DmaEnd)) :
    (ptr.finishAll ends).Sound ∧ ∀ e,
      (ptr.finishAll ends).ended.count e + (ptr.pending e).toNat =
          ptr.ended.count e + ((ptr.finishAll ends).pending e).toNat ∧
        (ptr.pending e = true → (ptr.finishAll ends).pending e = true) := by
  induction ends generalizing ptr with
  | nil => exact ⟨h, fun e => ⟨rfl, id⟩⟩
  | cons e₁ ends ih =>
    obtain ⟨hsound, hrest⟩ := ih (h.finish e₁)
    refine ⟨hsound, fun e => ?_⟩
    obtain ⟨hcount, hstay⟩ := hrest e
    have hfirst := h.count_finish e₁ e
    refine ⟨?_, fun hp => hstay ?_⟩
    · show ((ptr.finish e₁).finishAll ends).ended.count e + (ptr.pending e).toNat =
        ptr.ended.count e + (((ptr.finish e₁).finishAll ends).pending e).toNat
      omega
    · rw [pending_finish, hp, Bool.true_or]

/-! ## Writing the status -/

/-- Writing the status clears the bits that are written. -/
theorem pending_writeIntstatus (ptr : DmaBase) (v : BitVec 32) (e : DmaChannel × DmaEnd) :
    (ptr.writeIntstatus v).pending e = (ptr.pending e && !v.getLsbD (dmaIndex e)) := by
  simp only [writeIntstatus, pending, BitVec.getLsbD_and, BitVec.getLsbD_not, dmaIndex_lt,
    decide_true, Bool.true_and]

/-- Clearing bits starts no channel. -/
theorem Sound.writeIntstatus (h : ptr.Sound) (v : BitVec 32) : (ptr.writeIntstatus v).Sound where
  running e hrun := by
    rw [pending_writeIntstatus, h.running e hrun, Bool.false_and]
  single ch stop stop' hp hp' := by
    rw [pending_writeIntstatus, Bool.and_eq_true] at hp hp'
    exact h.single ch stop stop' hp.1 hp'.1

end DmaBase

/-! ## The operations -/

section Operations

variable {ptr : DmaBase}

/-- Setting up a channel leaves no status. -/
theorem dmaSetupWrites_pending (ptr : DmaBase) (num : DmaChannel) (ch : DmaChannelConfig)
    (e : DmaChannel × DmaEnd) : (dmaSetupWrites ptr num ch).pending e = false := by
  have hall : (0xFFFFFFFF#32).getLsbD (dmaIndex e) = true := by
    have hones : 0xFFFFFFFF#32 = BitVec.allOnes 32 := by decide
    rw [hones, BitVec.getLsbD_allOnes]
    exact decide_eq_true (dmaIndex_lt e)
  have hwrite := DmaBase.pending_writeIntstatus ptr 0xFFFFFFFF#32 e
  rw [hall, Bool.not_true, Bool.and_false] at hwrite
  exact hwrite

theorem dmaSetupWrites_sound (ptr : DmaBase) (num : DmaChannel) (ch : DmaChannelConfig) :
    (dmaSetupWrites ptr num ch).Sound where
  running e _ := dmaSetupWrites_pending ptr num ch e
  single ch' stop _ hp _ := absurd hp (by rw [dmaSetupWrites_pending]; exact Bool.false_ne_true)

/-- Behind a set-up that goes through only what ended since is to be reported. -/
theorem dmaSetupChannel_count (num : DmaChannel) {ch : DmaChannelConfig}
    (hcheck : ch.check = .success) (ends : List (DmaChannel × DmaEnd)) :
    (dmaSetupChannel ptr num ch ends).2.Sound ∧ ∀ e,
      (dmaSetupChannel ptr num ch ends).2.ended.count e =
        ptr.ended.count e + ((dmaSetupChannel ptr num ch ends).2.pending e).toNat := by
  have hptr : (dmaSetupChannel ptr num ch ends).2 = (dmaSetupWrites ptr num ch).finishAll ends := by
    unfold dmaSetupChannel
    rw [if_neg (not_not.mpr hcheck)]
  obtain ⟨hsound, hcount⟩ := (dmaSetupWrites_sound ptr num ch).finishAll ends
  rw [hptr]
  refine ⟨hsound, fun e => ?_⟩
  have h := (hcount e).1
  rw [dmaSetupWrites_pending] at h
  exact h

/-- What ends between the two accesses keeps its bit; the write clears every bit that was read. -/
theorem dmaCheckTransferStatus_ptr (num : DmaChannel) (ends : List (DmaChannel × DmaEnd)) :
    (dmaCheckTransferStatus ptr num ends).2 =
      (ptr.finishAll ends).writeIntstatus ptr.intstatus := by
  unfold dmaCheckTransferStatus
  simp only
  split
  · rfl
  · split
    · rfl
    · split <;> rfl

/-- Behind a check, of what was to be reported before it nothing is. -/
theorem dmaCheckTransferStatus_count (hsound : ptr.Sound) (num : DmaChannel)
    (ends : List (DmaChannel × DmaEnd)) :
    (dmaCheckTransferStatus ptr num ends).2.Sound ∧ ∀ e,
      (dmaCheckTransferStatus ptr num ends).2.ended.count e =
        ptr.ended.count e + ((dmaCheckTransferStatus ptr num ends).2.pending e).toNat := by
  obtain ⟨hall, hcount⟩ := hsound.finishAll ends
  rw [dmaCheckTransferStatus_ptr]
  refine ⟨hall.writeIntstatus _, fun e => ?_⟩
  obtain ⟨hbalance, hstay⟩ := hcount e
  rw [DmaBase.pending_writeIntstatus]
  show (ptr.finishAll ends).ended.count e = _
  cases hp : ptr.pending e with
  | true =>
    have hbit : ptr.intstatus.getLsbD (dmaIndex e) = true := hp
    rw [hp, hstay hp] at hbalance
    rw [hbit, Bool.not_true, Bool.and_false]
    exact Nat.add_right_cancel hbalance
  | false =>
    have hbit : ptr.intstatus.getLsbD (dmaIndex e) = false := hp
    rw [hp] at hbalance
    rw [hbit, Bool.not_false, Bool.and_true]
    exact hbalance

/-- The end that a check reports is one that is to be reported, and it reports one if it can. -/
theorem dmaCheckTransferStatus_cases (num : DmaChannel) (ends : List (DmaChannel × DmaEnd)) :
    (∃ stop, (dmaCheckTransferStatus ptr num ends).1.reports num = some (num, stop) ∧
        ptr.pending (num, stop) = true) ∨
      (dmaCheckTransferStatus ptr num ends).1.reports num = none ∧
        ∀ stop, ptr.pending (num, stop) = false := by
  have hbit : ∀ stop, ptr.intstatus &&& dmaBit (dmaIndex (num, stop)) ≠ 0 ↔
      ptr.pending (num, stop) = true := fun stop => and_one_shiftLeft_ne_zero (dmaIndex_lt _) _
  unfold dmaCheckTransferStatus
  simp only [hbit]
  by_cases htc : ptr.pending (num, .tc) = true
  · exact Or.inl ⟨.tc, by rw [if_pos htc]; rfl, htc⟩
  · by_cases herror : ptr.pending (num, .error) = true
    · exact Or.inl ⟨.error, by rw [if_neg htc, if_pos herror]; rfl, herror⟩
    · by_cases habort : ptr.pending (num, .abort) = true
      · exact Or.inl ⟨.abort, by rw [if_neg htc, if_neg herror, if_pos habort]; rfl, habort⟩
      · refine Or.inr ⟨by rw [if_neg htc, if_neg herror, if_neg habort]; rfl, fun stop => ?_⟩
        cases stop
        · exact Bool.eq_false_iff.mpr herror
        · exact Bool.eq_false_iff.mpr habort
        · exact Bool.eq_false_iff.mpr htc

/-- A check reports what is to be reported of its channel. -/
theorem dmaCheckTransferStatus_reports (hsound : ptr.Sound) (num : DmaChannel)
    (ends : List (DmaChannel × DmaEnd)) (e : DmaChannel × DmaEnd) :
    ((dmaCheckTransferStatus ptr num ends).1.reports num).toList.count e =
      (decide (e.1 = num) && ptr.pending e).toNat := by
  rcases @dmaCheckTransferStatus_cases ptr num ends with ⟨stop, hreport, hp⟩ | ⟨hreport, hp⟩
  · rw [hreport, Option.toList_some, List.count_singleton]
    by_cases heq : (num, stop) = e
    · subst heq
      simp [hp]
    · have hother : (decide (e.1 = num) && ptr.pending e) = false := by
        obtain ⟨ch, stop'⟩ := e
        by_contra hboth
        rw [Bool.not_eq_false, Bool.and_eq_true, decide_eq_true_iff] at hboth
        obtain ⟨rfl, hp'⟩ := hboth
        exact heq (Prod.ext rfl (hsound.single _ _ _ hp hp'))
      rw [hother]
      simp [heq]
  · obtain ⟨ch, stop⟩ := e
    by_cases hch : ch = num
    · subst hch
      simp [hreport, hp]
    · simp [hreport, hch]

end Operations

/-! ## Runs -/

/-- Setting up a channel keeps the balance exactly where nothing is to be reported. -/
theorem kept_setup_iff {s : DmaRun} (hsound : s.ptr.Sound) (hkept : s.Kept) (num : DmaChannel)
    (ch : DmaChannelConfig) (ends : List (DmaChannel × DmaEnd)) :
    (dmaSetupChannel s.ptr num ch ends).2.Sound ∧
      (DmaRun.Kept { s with ptr := (dmaSetupChannel s.ptr num ch ends).2 } ↔
        (ch.check = .success → s.ptr.Quiet)) := by
  by_cases hcheck : ch.check = .success
  · obtain ⟨hsound', hcount⟩ := @dmaSetupChannel_count s.ptr num _ hcheck ends
    refine ⟨hsound', fun h _ e => ?_, fun h e => ?_⟩
    · have hafter : (dmaSetupChannel s.ptr num ch ends).2.ended.count e =
          s.reported.count e + ((dmaSetupChannel s.ptr num ch ends).2.pending e).toNat := h e
      have hended := hcount e
      have hbefore := hkept e
      exact Bool.toNat_eq_zero.mp (by omega)
    · have hbefore := hkept e
      rw [h hcheck e] at hbefore
      show (dmaSetupChannel s.ptr num ch ends).2.ended.count e = _
      rw [hcount e, hbefore]
      rfl
  · have hptr : (dmaSetupChannel s.ptr num ch ends).2 = s.ptr := by
      unfold dmaSetupChannel
      rw [if_pos hcheck]
    rw [hptr]
    exact ⟨hsound, fun _ h => absurd h hcheck, fun _ => hkept⟩

/-- A check keeps the balance exactly where nothing is to be reported of another channel. -/
theorem kept_check_iff {s : DmaRun} (hsound : s.ptr.Sound) (hkept : s.Kept) (num : DmaChannel)
    (ends : List (DmaChannel × DmaEnd)) :
    (dmaCheckTransferStatus s.ptr num ends).2.Sound ∧
      (DmaRun.Kept ⟨(dmaCheckTransferStatus s.ptr num ends).2,
          s.reported ++ ((dmaCheckTransferStatus s.ptr num ends).1.reports num).toList⟩ ↔
        ∀ e, s.ptr.pending e = true → e.1 = num) := by
  obtain ⟨hsound', hcount⟩ := dmaCheckTransferStatus_count hsound num ends
  refine ⟨hsound', ?_⟩
  -- the balance of an end, once what was reported is counted
  have hbalance : ∀ e, (dmaCheckTransferStatus s.ptr num ends).2.ended.count e =
        (s.reported ++ ((dmaCheckTransferStatus s.ptr num ends).1.reports num).toList).count e +
          ((dmaCheckTransferStatus s.ptr num ends).2.pending e).toNat ↔
      (s.ptr.pending e).toNat = (decide (e.1 = num) && s.ptr.pending e).toNat := by
    intro e
    have hended := hcount e
    have hbefore := hkept e
    rw [List.count_append, dmaCheckTransferStatus_reports hsound num ends e]
    omega
  refine (forall_congr' hbalance).trans (forall_congr' fun e => ?_)
  cases s.ptr.pending e with
  | true => by_cases hch : e.1 = num <;> simp [hch]
  | false => simp

/-- What the hardware does keeps the balance. -/
theorem kept_hardware {s : DmaRun} (hsound : s.ptr.Sound) (hkept : s.Kept)
    (e : DmaChannel × DmaEnd) : DmaRun.Kept { s with ptr := s.ptr.finish e } := by
  intro e'
  have hended := hsound.count_finish e e'
  have hbefore := hkept e'
  show (s.ptr.finish e).ended.count e' =
    s.reported.count e' + ((s.ptr.finish e).pending e').toNat
  omega

/-- What an action does to the balance. -/
theorem kept_step_iff {s : DmaRun} (hsound : s.ptr.Sound) (hkept : s.Kept) (act : DmaAction) :
    ∃ s', dmaStep s act = some s' ∧ s'.ptr.Sound ∧ (s'.Kept ↔ DmaMeets s act) := by
  cases act with
  | setup num ch ends => exact ⟨_, rfl, kept_setup_iff hsound hkept num ch ends⟩
  | memcpy num dst src size burstLen ends =>
    refine ⟨_, rfl, ?_⟩
    unfold dmaStartMemcpy
    cases hconfig : dmaMemcpyConfig dst src size burstLen with
    | error stat =>
      refine ⟨hsound, fun _ => ?_, fun _ => hkept⟩
      intro config heq
      cases hconfig.symm.trans heq
    | ok config =>
      obtain ⟨hsound', hiff⟩ := kept_setup_iff hsound hkept num config ends
      refine ⟨hsound', hiff.trans ⟨fun h config' heq => ?_, fun h => h config hconfig⟩⟩
      cases hconfig.symm.trans heq
      exact h
  | check num ends => exact ⟨_, rfl, kept_check_iff hsound hkept num ends⟩
  | hardware e =>
    exact ⟨_, rfl, hsound.finish e, fun _ => trivial, fun _ => kept_hardware hsound hkept e⟩

theorem DmaRun.start_sound (chctrl : DmaChannel → DmaChctrl) :
    (DmaRun.start chctrl).ptr.Sound where
  running _ _ := BitVec.getLsbD_zero
  single _ _ _ h _ := absurd (BitVec.getLsbD_zero.symm.trans h) Bool.false_ne_true

/-- At the start nothing has ended and nothing was reported. -/
theorem DmaRun.start_kept (chctrl : DmaChannel → DmaChctrl) : (DmaRun.start chctrl).Kept := by
  intro e
  have hnone : (DmaRun.start chctrl).ptr.pending e = false := BitVec.getLsbD_zero
  rw [hnone]
  rfl

/-- **In a run every end of a transfer is reported once exactly where channels are set up when
nothing is to be reported, and checked when nothing is to be reported of another channel.**

The status register is cleared by writing ones.  A check writes back everything that it read, and
a set-up writes ones everywhere, so either loses what is pending of other channels; what it
returns for its own channel is right.  One step meets the contract exactly under the condition, in
every state whose pending bits are the ends that were not reported, and the step lemma carries
that along the run. -/
theorem dmaReports_iff (chctrl : DmaChannel → DmaChctrl) (acts : List DmaAction) :
    DmaReports chctrl acts ↔ Along dmaStep DmaMeets (DmaRun.start chctrl) acts := by
  have hok : ∀ (s : DmaRun) (act : DmaAction), s.ptr.Sound ∧ s.Kept →
      ((∀ s' ∈ dmaStep s act, s'.Kept) ↔ DmaMeets s act) := by
    rintro s act ⟨hsound, hkept⟩
    obtain ⟨s₁, hstep, -, hiff⟩ := kept_step_iff hsound hkept act
    rw [hstep]
    exact ⟨fun h => hiff.mp (h s₁ rfl), fun h s' hs' => Option.some.inj hs' ▸ hiff.mpr h⟩
  refine along_congr (fun s act s' hs hnext hs' => ?_) hok acts _
    ⟨DmaRun.start_sound chctrl, DmaRun.start_kept chctrl⟩
  obtain ⟨s₁, hstep, hsound, -⟩ := kept_step_iff hs.1 hs.2 act
  cases Option.some.inj (hstep.symm.trans hs')
  exact ⟨hsound, hnext _ hs'⟩

/-- A configuration for one word from `srcAddr` to `dstAddr`. -/
def dmaWordConfig (srcAddr dstAddr : BitVec 32) : DmaChannelConfig where
  priority := 0
  srcBurstSize := 0
  dmaMode := 0
  srcWidth := 2
  dstWidth := 2
  srcAddrCtrl := 0
  dstAddrCtrl := 0
  interruptMask := 0
  srcAddr := srcAddr
  dstAddr := dstAddr
  linkedPtr := 0
  sizeInByte := 4

/-- Channels 0 and 1 are set up, both transfers complete, and channel 1 is checked: the end of
channel 0 is not reported any more. -/
theorem dmaReports_lost : ¬ ∀ chctrl acts, DmaReports chctrl acts := by
  intro h
  have hkept := h (fun _ => ⟨0, 0, 0, 0, 0⟩) [
    .setup 0 (dmaWordConfig 0x80000 0x90000) [], .setup 1 (dmaWordConfig 0x81000 0x91000) [],
    .hardware (0, .tc), .hardware (1, .tc), .check 1 []]
  have hlost := (hkept.2 _ rfl).2 _ rfl |>.2 _ rfl |>.2 _ rfl |>.1 _ rfl (0, .tc)
  revert hlost
  decide

end HpmSdk.Dma
