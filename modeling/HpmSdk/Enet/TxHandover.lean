import HpmSdk.Enet.Tx
import Mathlib.Algebra.Order.Floor.Div
import Mathlib.Algebra.BigOperators.Intervals

set_option autoImplicit false

/-!
# ENET: what `enet_prepare_transmission_descriptors` hands over

On a chained ring the descriptors of a frame get the right flags and sizes and
the cursor moves behind them, also when the frame takes more than one.  Their
own bits are all set only when the frame fits into one buffer, and a frame that
needs more descriptors than the ring has is not refused.

One lemma describes the walk over the descriptors of a frame; which of them carry the own bit
follows from where the last one is.
-/

namespace HpmSdk.Enet

open HpmSdk.Foundation

/-! ## Chained rings -/

/-- The ring that `enet_dma_tx_desc_chain_init` builds, with the cursor anywhere on it. -/
structure TxChained (t : EnetTx) : Prop where
  count_pos : 0 < t.cfg.count
  cur_lt : t.cur < t.cfg.count
  linked : Ring.Linked EnetTxDesc.nextDesc t.cfg.count t.tab

theorem enetDmaTxDescChainInitLoop_spec (t : EnetTx) : ∀ n,
    (enetDmaTxDescChainInitLoop t n).cur = t.cur ∧
    (enetDmaTxDescChainInitLoop t n).cfg = t.cfg ∧
    ∀ i < n, ((enetDmaTxDescChainInitLoop t n).tab i).nextDesc =
      if i < t.cfg.count - 1 then i + 1 else 0 := by
  intro n
  induction n with
  | zero => exact ⟨rfl, rfl, fun i hi => absurd hi (Nat.not_lt_zero i)⟩
  | succ n ih =>
    obtain ⟨hcur, hcfg, htab⟩ := ih
    refine ⟨hcur, hcfg, fun i hi => ?_⟩
    simp only [enetDmaTxDescChainInitLoop, EnetTx.setDesc]
    by_cases hin : i = n
    · subst hin
      rw [Ring.set_self, hcfg]
    · rw [Ring.set_of_ne _ _ hin]
      exact htab i (by omega)

/-- The set-up links the descriptors to a ring. -/
theorem enetDmaTxDescChainInit_chained (t : EnetTx) (hpos : 0 < t.cfg.count) :
    TxChained (enetDmaTxDescChainInit t) := by
  obtain ⟨hcur, hcfg, htab⟩ := enetDmaTxDescChainInitLoop_spec { t with cur := 0 } t.cfg.count
  refine ⟨?_, ?_, fun i hi => ?_⟩
  · exact hcfg ▸ hpos
  · exact hcur ▸ hcfg ▸ hpos
  · have hi' : i < t.cfg.count := lt_of_lt_of_eq hi (congrArg EnetBuffConfig.count hcfg)
    refine (htab i hi').trans ?_
    unfold enetDmaTxDescChainInit
    rw [hcfg]
    change (if i < t.cfg.count - 1 then i + 1 else 0) = (i + 1) % t.cfg.count
    split
    · rw [Nat.mod_eq_of_lt (by omega)]
    · rw [show i + 1 = t.cfg.count by omega, Nat.mod_self]

/-! ## Counting buffers -/

/-- A size that fits the field is kept. -/
theorem tbs1Of_toNat {size : Nat} (h : size ≤ enetDmaTxDescTbs1) : (tbs1Of size).toNat = size := by
  have hmask : size &&& enetDmaTxDescTbs1 = size % 2 ^ 13 := Nat.and_two_pow_sub_one_eq_mod size 13
  have hlt : size < 2 ^ 13 := Nat.lt_of_le_of_lt h (by decide)
  rw [tbs1Of, hmask, Nat.mod_eq_of_lt hlt, BitVec.toNat_ofNat, Nat.mod_eq_of_lt hlt]

/-- The buffers counted are the fewest that hold the frame. -/
theorem txBufCount_eq {frameLength txBuffSize : Nat} (hlen : 0 < frameLength)
    (hsize : 0 < txBuffSize) : txBufCount frameLength txBuffSize = frameLength ⌈/⌉ txBuffSize := by
  have hdiv := Nat.div_add_mod frameLength txBuffSize
  have hmod := Nat.mod_lt frameLength hsize
  rw [Nat.ceilDiv_eq_add_pred_div, txBufCount]
  split
  · split
    · symm
      rw [Nat.div_eq_iff hsize, Nat.add_mul, Nat.mul_comm (frameLength / txBuffSize)]
      omega
    · symm
      rw [Nat.div_eq_iff hsize, Nat.mul_comm (frameLength / txBuffSize)]
      omega
  · symm
    rw [Nat.div_eq_iff hsize]
    omega

/-- The quotient rounded up is the number of buffers that the frame needs, and no more. -/
theorem txBufCount_spec {frameLength txBuffSize : Nat} (hlen : 0 < frameLength)
    (hsize : 0 < txBuffSize) : ∃ m, frameLength ⌈/⌉ txBuffSize = m + 1 ∧
      m * txBuffSize < frameLength ∧ frameLength ≤ (m + 1) * txBuffSize := by
  have hle := le_smul_ceilDiv (b := frameLength) hsize
  rw [smul_eq_mul, Nat.mul_comm] at hle
  cases hm : frameLength ⌈/⌉ txBuffSize with
  | zero =>
    rw [hm] at hle
    omega
  | succ m =>
    rw [hm] at hle
    refine ⟨m, rfl, ?_, hle⟩
    rcases Nat.lt_or_ge (m * txBuffSize) frameLength with hlt | hge
    · exact hlt
    · have hcontra := (ceilDiv_le_iff_le_mul hsize).mpr (Nat.mul_comm m _ ▸ hge)
      omega

/-! ## What a call programs -/

/-- The descriptors of a frame from the current one on are programmed for it. -/
structure TxProgrammed (t t' : EnetTx) (frameLength txBuffSize : Nat) : Prop where
  first : ∀ k < frameLength ⌈/⌉ txBuffSize, (t'.slot (t.cur + k)).fs = true ↔ k = 0
  last : ∀ k < frameLength ⌈/⌉ txBuffSize,
    (t'.slot (t.cur + k)).ls = true ↔ k + 1 = frameLength ⌈/⌉ txBuffSize
  size : ∀ k < frameLength ⌈/⌉ txBuffSize, (t'.slot (t.cur + k)).tbs1.toNat ≤ txBuffSize
  total : ∑ k ∈ Finset.range (frameLength ⌈/⌉ txBuffSize), (t'.slot (t.cur + k)).tbs1.toNat =
    frameLength
  cursor : t'.cur = (t.cur + frameLength ⌈/⌉ txBuffSize) % t.cfg.count
  others : ∀ i, (∀ k < frameLength ⌈/⌉ txBuffSize, (t.cur + k) % t.cfg.count ≠ i) →
    t'.tab i = t.tab i

/-- They are all handed over to the DMA as well. -/
structure TxHandedOver (t t' : EnetTx) (frameLength txBuffSize : Nat) : Prop
    extends TxProgrammed t t' frameLength txBuffSize where
  own : ∀ k < frameLength ⌈/⌉ txBuffSize, (t'.slot (t.cur + k)).own = true

/-- The loop walks the links. -/
theorem enetTxSegmentLoop_eq (bufCount frameLength txBuffSize n : Nat) :
    ∀ (i : Nat) (tab : Nat → EnetTxDesc) (desc : Nat),
      enetTxSegmentLoop bufCount frameLength txBuffSize n i tab desc =
        Ring.walk EnetTxDesc.nextDesc
          (fun i d => d.segment bufCount frameLength txBuffSize i) n i tab desc := by
  induction n with
  | zero => exact fun _ _ _ => rfl
  | succ n ih => exact fun i tab desc => ih _ _ _

section Segment

variable (bufCount frameLength txBuffSize i : Nat) (d : EnetTxDesc)

@[simp] theorem segment_fs :
    (d.segment bufCount frameLength txBuffSize i).fs = decide (i = 0) := by
  unfold EnetTxDesc.segment
  split <;> rfl

@[simp] theorem segment_ls :
    (d.segment bufCount frameLength txBuffSize i).ls = decide (i = bufCount - 1) := by
  unfold EnetTxDesc.segment
  split
  · rename_i h
    exact (decide_eq_true h).symm
  · rename_i h
    exact (decide_eq_false h).symm

@[simp] theorem segment_own :
    (d.segment bufCount frameLength txBuffSize i).own = (decide (i = bufCount - 1) || d.own) := by
  unfold EnetTxDesc.segment
  split <;> simp [*]

@[simp] theorem segment_tbs1 :
    (d.segment bufCount frameLength txBuffSize i).tbs1 =
      tbs1Of (if i = bufCount - 1 then frameLength - (bufCount - 1) * txBuffSize
        else txBuffSize) := by
  unfold EnetTxDesc.segment
  split <;> rfl

/-- Links and buffers stay. -/
@[simp] theorem segment_nextDesc :
    (d.segment bufCount frameLength txBuffSize i).nextDesc = d.nextDesc := by
  unfold EnetTxDesc.segment
  split <;> rfl

end Segment

/-- The sizes programmed add up to the frame. -/
theorem sum_segment_sizes {m frameLength txBuffSize : Nat} (hlt : m * txBuffSize < frameLength) :
    ∑ k ∈ Finset.range (m + 1), (if k = m then frameLength - m * txBuffSize else txBuffSize) =
      frameLength := by
  rw [Finset.sum_range_succ, if_pos rfl]
  have hsame : ∑ k ∈ Finset.range m, (if k = m then frameLength - m * txBuffSize else txBuffSize) =
      ∑ _k ∈ Finset.range m, txBuffSize :=
    Finset.sum_congr rfl fun k hk => if_neg (Nat.ne_of_lt (Finset.mem_range.mp hk))
  rw [hsame, Finset.sum_const, Finset.card_range, smul_eq_mul]
  omega

section Prepare

variable {t : EnetTx} {frameLength txBuffSize : Nat}

/-- A frame in one buffer: its descriptor is programmed and handed over. -/
theorem TxChained.prepare_whole (h : TxChained t) (hlen : 0 < frameLength)
    (hle : frameLength ≤ txBuffSize) (hmask : txBuffSize ≤ enetDmaTxDescTbs1) :
    ∃ t', enetPrepareTransmissionDescriptors t frameLength txBuffSize = (.success, t') ∧
      t'.cfg = t.cfg ∧ TxHandedOver t t' frameLength txBuffSize := by
  have hsize : 0 < txBuffSize := Nat.lt_of_lt_of_le hlen hle
  have hcount : txBufCount frameLength txBuffSize = 1 := if_neg (Nat.not_lt.mpr hle)
  have hn : frameLength ⌈/⌉ txBuffSize = 1 := by rw [← txBufCount_eq hlen hsize, hcount]
  have hcur : t.cur % t.cfg.count = t.cur := Nat.mod_eq_of_lt h.cur_lt
  unfold enetPrepareTransmissionDescriptors
  simp only [Nat.ne_of_gt hsize, if_false, hcount, if_true]
  refine ⟨_, rfl, rfl, ⟨?_, ?_, ?_, ?_, ?_, ?_⟩, ?_⟩ <;>
    simp only [hn, Nat.lt_one_iff, EnetTx.slot, forall_eq, Nat.add_zero, hcur, Ring.set_self,
      EnetTxDesc.whole, Finset.sum_range_one]
  · rw [tbs1Of_toNat (Nat.le_trans hle hmask)]
    exact hle
  · exact tbs1Of_toNat (Nat.le_trans hle hmask)
  · exact h.linked _ h.cur_lt
  · exact fun i hi => Ring.set_of_ne _ _ (Ne.symm hi)

/-- A frame in several buffers: its descriptors are programmed, but only the own
bit of the last one is set. -/
theorem TxChained.prepare_segments (h : TxChained t) (hlt : txBuffSize < frameLength)
    (hsize : 0 < txBuffSize) (hmask : txBuffSize ≤ enetDmaTxDescTbs1)
    (hn : frameLength ⌈/⌉ txBuffSize ≤ t.cfg.count) :
    ∃ t', enetPrepareTransmissionDescriptors t frameLength txBuffSize = (.success, t') ∧
      t'.cfg = t.cfg ∧ TxProgrammed t t' frameLength txBuffSize ∧
      ∀ k < frameLength ⌈/⌉ txBuffSize, (t'.slot (t.cur + k)).own =
        (decide (k + 1 = frameLength ⌈/⌉ txBuffSize) || (t.slot (t.cur + k)).own) := by
  have hlen : 0 < frameLength := Nat.lt_trans hsize hlt
  have hcount := txBufCount_eq hlen hsize
  obtain ⟨m, hm, hlow, hhigh⟩ := txBufCount_spec hlen hsize
  have hcur : t.cur % t.cfg.count = t.cur := Nat.mod_eq_of_lt h.cur_lt
  have hm0 : m ≠ 0 := by
    rintro rfl
    omega
  obtain ⟨hend, hin, hout⟩ := Ring.walk_spec
    (f := fun i d => d.segment (m + 1) frameLength txBuffSize i)
    (fun _ _ => segment_nextDesc _ _ _ _ _) (m + 1) 0 t.tab t.cur h.linked h.count_pos
    (hm ▸ hn)
  rw [hcur] at hend hin hout
  unfold enetPrepareTransmissionDescriptors
  simp only [Nat.ne_of_gt hsize, if_false, hcount, hm, Nat.add_eq_right, hm0,
    enetTxSegmentLoop_eq]
  have hsizes : ∀ k < m + 1, ((tbs1Of (if k = m then frameLength - m * txBuffSize
      else txBuffSize)).toNat) = if k = m then frameLength - m * txBuffSize else txBuffSize := by
    intro k _
    apply tbs1Of_toNat
    split
    · rw [Nat.add_mul] at hhigh
      omega
    · exact hmask
  refine ⟨_, rfl, rfl, ⟨?_, ?_, ?_, ?_, ?_, ?_⟩, ?_⟩
  all_goals simp only [hm, EnetTx.slot]
  · intro k hk
    rw [hin k hk, segment_fs, Nat.zero_add, decide_eq_true_iff]
  · intro k hk
    rw [hin k hk, segment_ls, Nat.zero_add, decide_eq_true_iff]
    omega
  · intro k hk
    rw [hin k hk, segment_tbs1, Nat.zero_add, Nat.add_sub_cancel, hsizes k hk]
    split
    · rw [Nat.add_mul] at hhigh
      omega
    · exact Nat.le_refl _
  · refine (Finset.sum_congr rfl fun k hk => ?_).trans (sum_segment_sizes hlow)
    have hk' := Finset.mem_range.mp hk
    rw [hin k hk', segment_tbs1, Nat.zero_add, Nat.add_sub_cancel, hsizes k hk']
  · exact hend
  · exact hout
  · intro k hk
    rw [hin k hk, segment_own, Nat.zero_add]
    congr 2
    apply propext
    omega

/-- With a buffer size no call is refused. -/
theorem enetPrepare_succeeds (t : EnetTx) (frameLength : Nat) (hsize : txBuffSize ≠ 0) :
    ∃ t', enetPrepareTransmissionDescriptors t frameLength txBuffSize = (.success, t') := by
  unfold enetPrepareTransmissionDescriptors
  rw [if_neg hsize]
  dsimp only
  split <;> exact ⟨_, rfl⟩

end Prepare

/-! ## The contract -/

/-- A call on a chained ring whose descriptors for the frame, if it has that many,
belong to the CPU. -/
structure TxCall where
  tx : EnetTx
  frameLength : Nat
  txBuffSize : Nat
  chained : TxChained tx
  length_pos : 0 < frameLength
  length_lt : frameLength < 2 ^ 16
  size_le : txBuffSize ≤ enetDmaTxDescTbs1
  cpu : frameLength ⌈/⌉ txBuffSize ≤ tx.cfg.count →
    ∀ k < frameLength ⌈/⌉ txBuffSize, (tx.slot (tx.cur + k)).own = false

/-- A success has handed over a frame that fits the ring; an error changes no
descriptor and leaves the cursor. -/
def TxContract (c : TxCall) : Prop :=
  match enetPrepareTransmissionDescriptors c.tx c.frameLength c.txBuffSize with
  | (.success, t) => c.frameLength ⌈/⌉ c.txBuffSize ≤ c.tx.cfg.count ∧
      TxHandedOver c.tx t c.frameLength c.txBuffSize
  | (.error, t) => t.tab = c.tx.tab ∧ t.cur = c.tx.cur

/-- The contract is met exactly by the calls without a buffer size and by those whose frame fits
into one buffer.

A call without a buffer size is refused, and one buffer is filled and handed over whole.  With
several buffers the own bit is set in the last descriptor only, so the first one stays with the
CPU although it was to be handed over. -/
theorem txContract_iff (c : TxCall) :
    TxContract c ↔ c.txBuffSize = 0 ∨ c.frameLength ≤ c.txBuffSize := by
  unfold TxContract
  rcases Nat.eq_zero_or_pos c.txBuffSize with h0 | hsize
  · refine iff_of_true ?_ (Or.inl h0)
    unfold enetPrepareTransmissionDescriptors
    rw [if_pos h0]
    exact ⟨rfl, rfl⟩
  rcases Nat.lt_or_ge c.txBuffSize c.frameLength with hlt | hle
  · refine iff_of_false (fun hc => ?_) (by omega)
    obtain ⟨m, hm, hlow, hhigh⟩ := txBufCount_spec c.length_pos hsize
    have hm0 : 0 < m := by
      rcases Nat.eq_zero_or_pos m with rfl | hpos
      · omega
      · exact hpos
    obtain ⟨t', ht'⟩ := enetPrepare_succeeds c.tx c.frameLength (Nat.ne_of_gt hsize)
    rw [ht'] at hc
    obtain ⟨hn, hhanded⟩ := hc
    -- the first descriptor is left with the CPU
    obtain ⟨t'', ht'', -, -, hown⟩ := c.chained.prepare_segments hlt hsize c.size_le hn
    rw [ht''] at ht'
    cases ht'
    have hfirst := hown 0 (by omega)
    rw [hhanded.own 0 (by omega), c.cpu hn 0 (by omega), hm] at hfirst
    have hm1 : (0 + 1 = m + 1) = False := eq_false (by omega)
    simp only [hm1, decide_false, Bool.or_false] at hfirst
    exact Bool.noConfusion hfirst
  · refine iff_of_true ?_ (Or.inr hle)
    obtain ⟨t', ht', -, hhanded⟩ := c.chained.prepare_whole c.length_pos hle c.size_le
    have hn : c.frameLength ⌈/⌉ c.txBuffSize ≤ c.tx.cfg.count := by
      refine Nat.le_trans ((ceilDiv_le_iff_le_mul hsize).mpr ?_) c.chained.count_pos
      rwa [Nat.mul_one]
    rw [ht']
    exact ⟨hn, hhanded⟩

/-! ## Two calls that break it -/

/-- A ring of two descriptors just set up, all of the CPU. -/
def txTwoSlots : EnetTx :=
  enetDmaTxDescChainInit
    { tab := fun _ => ⟨false, false, false, false, false, false, false, 0, 0, 0, 0⟩
      cur := 0
      cfg := ⟨4096, 2, 1524⟩
      dmaTxPollDemand := 0 }

/-- A frame of two buffers. -/
def txTwoBuffers : TxCall where
  tx := txTwoSlots
  frameLength := 3000
  txBuffSize := 1524
  chained := enetDmaTxDescChainInit_chained _ (by decide)
  length_pos := by decide
  length_lt := by decide
  size_le := by decide
  cpu := by decide

/-- A frame of three buffers. -/
def txThreeBuffers : TxCall where
  tx := txTwoSlots
  frameLength := 4000
  txBuffSize := 1524
  chained := enetDmaTxDescChainInit_chained _ (by decide)
  length_pos := by decide
  length_lt := by decide
  size_le := by decide
  cpu := by decide

/-- Two buffers: the first descriptor stays with the CPU.  Three buffers on a ring
of two: the call succeeds. -/
theorem txContract_broken : ¬ TxContract txTwoBuffers ∧ ¬ TxContract txThreeBuffers :=
  ⟨fun h => absurd (h.2.own 0 (by decide)) (by decide), fun h => absurd h.1 (by decide)⟩

end HpmSdk.Enet
