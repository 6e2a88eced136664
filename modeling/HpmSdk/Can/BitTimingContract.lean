import HpmSdk.Can.BitTiming

set_option autoImplicit false

/-!
# CAN: which bit timings are found

The prescaler is searched upwards and never compared with the width of its field.  The
timing that is programmed fits exactly where a prescaler of at most 256 leaves time quanta
that the segments can take.

The invariant of the search is that no smaller prescaler leaves a timing that fits; it ends at the
first one that does, or behind the last that could.
-/

namespace HpmSdk.Can

open HpmSdk.Foundation

/-! ## The split of the time quanta -/

theorem u32_of_lt {x : Nat} (h : x < 2 ^ 32) : u32 x = x := Nat.mod_eq_of_lt h

theorem u32_lt (x : Nat) : u32 x < 2 ^ 32 := Nat.mod_lt _ (by decide)

/-- Segment 2 is cut to its limit, and what is cut off goes to segment 1. -/
theorem canLimitSeg2_spec (limit : Nat) (seg1 seg2 : Nat) (h : seg1 + seg2 < 2 ^ 32) :
    (canLimitSeg2 limit seg1 seg2).1 + (canLimitSeg2 limit seg1 seg2).2 = seg1 + seg2 ∧
      (canLimitSeg2 limit seg1 seg2).2 ≤ limit := by
  induction seg2 generalizing seg1 with
  | zero => exact ⟨rfl, Nat.zero_le _⟩
  | succ seg2 ih =>
    unfold canLimitSeg2
    split
    · have hstep : u32 (seg1 + 1) = seg1 + 1 := u32_of_lt (by omega)
      rw [hstep]
      have := ih (seg1 + 1) (by omega)
      omega
    · exact ⟨rfl, by omega⟩

/-- The sample point is moved to 75 percent or behind. -/
theorem canMoveSamplePoint_spec {tq : Nat} (h0 : 0 < tq) (hlt : tq * 100 < 2 ^ 32)
    (seg1 seg2 : Nat) (h : seg1 + seg2 = tq) :
    ∃ a b, canMoveSamplePoint tq seg1 seg2 = some (a, b) ∧ a + b = tq ∧ b ≤ seg2 ∧
      75 * tq ≤ 100 * a := by
  have hpoint : ∀ a, a ≤ tq → (u32 (a * 100) / tq < 75 ↔ ¬ 75 * tq ≤ 100 * a) := by
    intro a ha
    have hprod : u32 (a * 100) = a * 100 := u32_of_lt (by omega)
    rw [hprod, Nat.div_lt_iff_lt_mul h0]
    omega
  induction seg2 generalizing seg1 with
  | zero =>
    have hend : ¬ u32 (seg1 * 100) / tq < 75 := by
      rw [hpoint seg1 (by omega)]
      omega
    exact ⟨seg1, 0, by simp only [canMoveSamplePoint, if_neg hend], h, Nat.le_refl _, by omega⟩
  | succ seg2 ih =>
    unfold canMoveSamplePoint
    split
    · have hstep : u32 (seg1 + 1) = seg1 + 1 := u32_of_lt (by omega)
      rw [hstep]
      obtain ⟨a, b, heq, hsum, hle, hsample⟩ := ih (seg1 + 1) (by omega)
      exact ⟨a, b, heq, hsum, Nat.le_succ_of_le hle, hsample⟩
    · rename_i hstop
      rw [hpoint seg1 (by omega), not_not] at hstop
      exact ⟨seg1, seg2 + 1, rfl, h, Nat.le_refl _, hstop⟩

/-- The split gives away all time quanta, keeps the second segment within its bound and puts the
sample point at three quarters or later. -/
theorem canSplitTq_spec (tbl : CanBitTimingTable) {tq : Nat} (h0 : 0 < tq)
    (hdiff : tbl.minDiffSeg1MinusSeg2 ≤ tq) (hlt : tq * 100 < 2 ^ 32) :
    ∃ a b, canSplitTq tbl tq = some (a, b) ∧ a + b = tq ∧ b ≤ tbl.seg2Max ∧
      75 * tq ≤ 100 * a := by
  unfold canSplitTq
  rw [if_neg (Nat.not_lt.mpr hdiff), if_neg (Nat.ne_of_gt h0)]
  generalize hseg2 : (tq - tbl.minDiffSeg1MinusSeg2) / 2 = seg2
  have hle : seg2 ≤ tq := by omega
  obtain ⟨hsum, hmax⟩ := canLimitSeg2_spec tbl.seg2Max (tq - seg2) seg2 (by omega)
  obtain ⟨a, b, heq, hab, hb, hsample⟩ := canMoveSamplePoint_spec h0 hlt
    (canLimitSeg2 tbl.seg2Max (tq - seg2) seg2).1 (canLimitSeg2 tbl.seg2Max (tq - seg2) seg2).2
    (by omega)
  exact ⟨a, b, heq, hab, Nat.le_trans hb hmax, hsample⟩

/-! ## The time quanta that the segments can take -/

namespace CanBitTimingTable

/-- The most time quanta that the segments can take with the sample point at 75 percent. -/
def fitMax (tbl : CanBitTimingTable) : Nat :=
  min (tbl.seg1Max + tbl.seg2Max) (tbl.seg1Max * 100 / 75)

/-- The first number of clock cycles in a bit that is too large for every prescaler. -/
def cyclesEnd (tbl : CanBitTimingTable) : Nat := 256 * (tbl.fitMax + 1)

end CanBitTimingTable

/-- What the rows of the table have in common. -/
structure CanBitTimingTable.Regular (tbl : CanBitTimingTable) : Prop where
  tqMin : tbl.tqMin = 8
  tqMax : tbl.tqMax = tbl.seg1Max + tbl.seg2Max
  fit : 22 ≤ tbl.fitMax
  small : tbl.tqMax < 128
  seg1Min : tbl.seg1Min = 2
  seg2Min : tbl.seg2Min = 1
  sjwMin : tbl.sjwMin = 1
  sjwMax : 1 ≤ tbl.sjwMax
  diff : tbl.minDiffSeg1MinusSeg2 ≤ 8

namespace CanBitTimingTable.Regular

variable {tbl : CanBitTimingTable} (hr : tbl.Regular)
include hr

theorem fitMax_le : tbl.fitMax ≤ tbl.tqMax := by
  rw [hr.tqMax]
  exact Nat.min_le_left _ _

/-- The largest number of time quanta is about twice the least one, or more. -/
theorem bound : 2 * tbl.tqMin ≤ tbl.tqMax + 1 := by
  have := hr.fit
  have := hr.fitMax_le
  rw [hr.tqMin]
  omega

/-- A split within the limits of the segments is a timing that fits. -/
theorem fits {cycles prescaler seg1 seg2 : Nat} (hsum : seg1 + seg2 = cycles / prescaler)
    (htq : 8 ≤ cycles / prescaler) (hseg2 : seg2 ≤ tbl.seg2Max)
    (hfit : tbl.seg2Min ≤ seg2 ∧ seg1 ≤ tbl.seg1Max)
    (hsample : 75 * (cycles / prescaler) ≤ 100 * seg1) :
    CanTiming.Fits tbl cycles
      ⟨prescaler, seg1, seg2, min tbl.sjwMax (u32 (seg2 + 1) / 2)⟩ where
  quanta := hsum.symm
  tq := by
    show tbl.tqMin ≤ seg1 + seg2 ∧ seg1 + seg2 ≤ tbl.tqMax
    have := hr.tqMin
    have := hr.tqMax
    exact ⟨by omega, by omega⟩
  seg1 := by
    show tbl.seg1Min ≤ seg1 ∧ seg1 ≤ tbl.seg1Max
    have := hr.seg1Min
    exact ⟨by omega, hfit.2⟩
  seg2 := ⟨hfit.1, hseg2⟩
  sjw := by
    have := hr.seg2Min
    have := hr.small
    have := hr.tqMax
    have hnext : u32 (seg2 + 1) = seg2 + 1 := u32_of_lt (by omega)
    refine ⟨?_, Nat.min_le_left _ _⟩
    rw [hr.sjwMin, hnext]
    exact Nat.le_min.mpr ⟨hr.sjwMax, by omega⟩
  samplePoint := by
    rw [hsum]
    exact hsample

end CanBitTimingTable.Regular

/-- Each of the tables of the driver is regular, so that what follows is said of all of them. -/
theorem sCanBitTimingTbl_regular (option : CanBitTimingOption) :
    (sCanBitTimingTbl option).Regular := by
  cases option <;> constructor <;> decide

/-- Every number of time quanta up to the largest is split within the limits. -/
theorem canSplitTq_fits (option : CanBitTimingOption) :
    ∀ tq < (sCanBitTimingTbl option).fitMax + 1, 8 ≤ tq →
      ∀ segs ∈ canSplitTq (sCanBitTimingTbl option) tq,
        (sCanBitTimingTbl option).seg2Min ≤ segs.2 ∧
          segs.1 ≤ (sCanBitTimingTbl option).seg1Max := by
  cases option <;> decide +kernel

/-- A timing that fits has no more time quanta than the segments can take. -/
theorem CanTiming.Fits.le_fitMax {tbl : CanBitTimingTable} {cycles : Nat} {t : CanTiming}
    (h : t.Fits tbl cycles) : cycles / t.prescaler ≤ tbl.fitMax := by
  rw [h.quanta]
  refine Nat.le_min.mpr ⟨Nat.add_le_add h.seg1.2 h.seg2.2, ?_⟩
  rw [Nat.le_div_iff_mul_le (by decide : 0 < 75)]
  have := h.samplePoint
  have := h.seg1.2
  omega

/-! ## The search -/

/-- What `find_closest_prescaler` finds: it goes up, and never gives up. -/
theorem findClosestPrescaler_le {cycles maxTq minTq : Nat} (htq : 2 * minTq ≤ maxTq + 1)
    (passes start : Nat) (hstart : start < 2 ^ 32) {prescaler : Nat}
    (h : findClosestPrescaler cycles maxTq minTq passes start = some prescaler) :
    0 < prescaler ∧ start ≤ prescaler := by
  induction passes generalizing start with
  | zero => exact nomatch h
  | succ k ih =>
    unfold findClosestPrescaler at h
    by_cases h0 : start = 0
    · rw [if_pos h0] at h
      exact nomatch h
    · rw [if_neg h0] at h
      by_cases hmax : maxTq < cycles / start
      · rw [if_pos hmax] at h
        by_cases h1 : u32 (start + 1) = 0
        · simp only [h1, if_true] at h
          exact nomatch h
        · have hstep : start + 1 < 2 ^ 32 := by
            unfold u32 at h1
            omega
          have hnext : u32 (start + 1) = start + 1 := u32_of_lt hstep
          have hlt : ¬ cycles / (start + 1) < minTq := by
            rw [Nat.not_lt, Nat.le_div_iff_mul_le (Nat.succ_pos _)]
            calc minTq * (start + 1) ≤ minTq * (2 * start) :=
                  Nat.mul_le_mul_left _ (by omega)
              _ = 2 * minTq * start := by rw [← Nat.mul_assoc, Nat.mul_comm minTq 2]
              _ ≤ (maxTq + 1) * start := Nat.mul_le_mul_right _ htq
              _ ≤ cycles := (Nat.le_div_iff_mul_le (Nat.pos_of_ne_zero h0)).mp hmax
          simp only [hnext, Nat.succ_ne_zero, hlt, if_false] at h
          split at h
          · cases h
            omega
          · have := ih (start + 1) hstep h
            omega
      · rw [if_neg hmax] at h
        cases h
        omega

/-- The search never ends without a timing. -/
theorem canSearch_ne_none {tbl : CanBitTimingTable} (hr : tbl.Regular) {cycles : Nat}
    (passes k start : Nat) (hstart : start < 2 ^ 32) :
    canSearch tbl cycles passes k start ≠ some none := by
  induction k generalizing start with
  | zero => exact nofun
  | succ k ih =>
    unfold canSearch
    intro h
    obtain ⟨prescaler, hfind, h⟩ := Option.bind_eq_some_iff.mp h
    obtain ⟨hpos, hle⟩ := findClosestPrescaler_le hr.bound passes start hstart hfind
    rw [if_neg (Nat.not_lt.mpr hle), if_neg (Nat.ne_of_gt hpos)] at h
    obtain ⟨segs, -, h⟩ := Option.bind_eq_some_iff.mp h
    split at h
    · exact nomatch h
    · exact ih _ (u32_lt _) h

/-- Where a prescaler leaves enough time quanta and not too many, no more than it is found. -/
theorem findClosestPrescaler_reaches {cycles maxTq minTq last : Nat}
    (hmin : minTq ≤ cycles / last) (hmax : cycles / last ≤ maxTq) (hlast : last < 2 ^ 32)
    (passes start : Nat) (h0 : 0 < start) (hle : start ≤ last) (hpasses : last < start + passes) :
    ∃ prescaler, findClosestPrescaler cycles maxTq minTq passes start = some prescaler ∧
      start ≤ prescaler ∧ prescaler ≤ last := by
  induction passes generalizing start with
  | zero => omega
  | succ k ih =>
    unfold findClosestPrescaler
    rw [if_neg (Nat.ne_of_gt h0)]
    by_cases hfew : maxTq < cycles / start
    · have hne : start ≠ last := fun heq => by
        rw [heq] at hfew
        omega
      have hnext : u32 (start + 1) = start + 1 := u32_of_lt (by omega)
      have htq : ¬ cycles / (start + 1) < minTq := by
        have : cycles / last ≤ cycles / (start + 1) :=
          Nat.div_le_div_left (by omega) (Nat.succ_pos _)
        omega
      rw [if_pos hfew]
      simp only [hnext, Nat.succ_ne_zero, htq, if_false]
      split
      · exact ⟨start + 1, rfl, by omega, by omega⟩
      · obtain ⟨prescaler, hfind, hge, hle'⟩ := ih (start + 1) (Nat.succ_pos _) (by omega) (by omega)
        exact ⟨prescaler, hfind, by omega, hle'⟩
    · rw [if_neg hfew]
      exact ⟨start, rfl, Nat.le_refl _, hle⟩

/-- Where a prescaler leaves time quanta that the segments can take, a timing is found, with
no larger prescaler. -/
theorem canSearch_fits (option : CanBitTimingOption) {cycles last : Nat}
    (hmin : 8 ≤ cycles / last) (hmax : cycles / last ≤ (sCanBitTimingTbl option).fitMax)
    (hcycles : cycles * 100 < 2 ^ 32) (hlast : last + 1 < 2 ^ 32)
    (passes k start : Nat) (h0 : 0 < start) (hle : start ≤ last) (hpasses : last < passes)
    (hk : last < start + k) :
    ∃ t, canSearch (sCanBitTimingTbl option) cycles passes k start = some (some t) ∧
      t.Fits (sCanBitTimingTbl option) cycles ∧ 0 < t.prescaler ∧ t.prescaler ≤ last := by
  have hr := sCanBitTimingTbl_regular option
  have hsplit := canSplitTq_fits option
  generalize sCanBitTimingTbl option = tbl at hmax hr hsplit ⊢
  induction k generalizing start with
  | zero => omega
  | succ k ih =>
    unfold canSearch
    obtain ⟨prescaler, hfind, hge, hle'⟩ := findClosestPrescaler_reaches
      (hr.tqMin ▸ hmin) (Nat.le_trans hmax hr.fitMax_le) (by omega) passes start h0 hle (by omega)
    have hpos : 0 < prescaler := by omega
    rw [hfind]
    simp only [Option.bind_some]
    rw [if_neg (Nat.not_lt.mpr hge), if_neg (Nat.ne_of_gt hpos)]
    have htq : 8 ≤ cycles / prescaler :=
      Nat.le_trans hmin (Nat.div_le_div_left hle' hpos)
    have hself : cycles / prescaler ≤ cycles := Nat.div_le_self _ _
    obtain ⟨seg1, seg2, hsegs, hsum, hseg2, hsample⟩ := @canSplitTq_spec tbl
      (cycles / prescaler) (by omega) (Nat.le_trans hr.diff htq) (by omega)
    rw [hsegs]
    simp only [Option.bind_some]
    by_cases hfit : tbl.seg2Min ≤ seg2 ∧ seg1 ≤ tbl.seg1Max
    · rw [if_pos hfit]
      refine ⟨_, rfl, ?_, hpos, hle'⟩
      exact hr.fits hsum htq hseg2 hfit hsample
    · rw [if_neg hfit]
      have hne : prescaler ≠ last := fun heq => by
        subst heq
        exact hfit (hsplit _ (Nat.lt_succ_of_le hmax) hmin _ hsegs)
      have hnext : u32 (prescaler + 1) = prescaler + 1 := u32_of_lt (by omega)
      rw [hnext]
      exact ih (prescaler + 1) (Nat.succ_pos _) (by omega) (by omega)

/-! ## The register -/

/-- The fields of a timing register. -/
structure CanPrescLayout (presc seg1 seg2 sjw : RegField) : Prop where
  within : ∀ f ∈ [presc, seg1, seg2, sjw], f.first + f.width ≤ 32
  apart : [presc, seg1, seg2, sjw].Pairwise RegField.Apart

/-- A timing whose numbers fit their fields is read back. -/
theorem canPrescValue_read {presc seg1 seg2 sjw : RegField}
    (hl : CanPrescLayout presc seg1 seg2 sjw) {t : CanTiming}
    (hpresc : 1 ≤ t.prescaler ∧ t.prescaler ≤ 2 ^ presc.width)
    (hseg1 : 2 ≤ t.seg1 ∧ t.seg1 < 2 ^ seg1.width + 2)
    (hseg2 : 1 ≤ t.seg2 ∧ t.seg2 ≤ 2 ^ seg2.width)
    (hsjw : 1 ≤ t.sjw ∧ t.sjw ≤ 2 ^ sjw.width) :
    ∃ v, canPrescValue presc seg1 seg2 sjw t = some v ∧
      (presc.get v).toNat + 1 = t.prescaler ∧ (seg1.get v).toNat + 2 = t.seg1 ∧
      (seg2.get v).toNat + 1 = t.seg2 ∧ (sjw.get v).toNat + 1 = t.sjw := by
  obtain ⟨hwithin, hapart⟩ := hl
  simp only [List.forall_mem_cons, List.pairwise_cons, List.not_mem_nil, IsEmpty.forall_iff,
    implies_true, and_true, List.Pairwise.nil] at hwithin hapart
  obtain ⟨⟨h12, h13, h14⟩, ⟨h23, h24⟩, h34⟩ := hapart
  obtain ⟨w1, w2, w3, w4⟩ := hwithin
  have hfield : ∀ (f : RegField) (x : Nat), f.first + f.width ≤ 32 → x < 2 ^ f.width →
      (f.get (f.set (BitVec.ofNat 32 x))).toNat = x := by
    intro f x hw hx
    have hpow : 2 ^ f.width ≤ 2 ^ 32 := Nat.pow_le_pow_right Nat.two_pos (by omega)
    rw [RegField.get_set_toNat _ hw, BitVec.toNat_ofNat,
      Nat.mod_eq_of_lt (Nat.lt_of_lt_of_le hx hpow), Nat.mod_eq_of_lt hx]
  refine ⟨_, if_neg (by omega), ?_⟩
  simp only [RegField.get_or, RegField.get_set_of_apart _ h12, RegField.get_set_of_apart _ h13,
    RegField.get_set_of_apart _ h14, RegField.get_set_of_apart _ h23,
    RegField.get_set_of_apart _ h24, RegField.get_set_of_apart _ h34,
    RegField.get_set_of_apart _ h12.symm, RegField.get_set_of_apart _ h13.symm,
    RegField.get_set_of_apart _ h14.symm, RegField.get_set_of_apart _ h23.symm,
    RegField.get_set_of_apart _ h24.symm, RegField.get_set_of_apart _ h34.symm,
    BitVec.or_zero, BitVec.zero_or]
  rw [hfield _ _ w1 (by omega), hfield _ _ w2 (by omega), hfield _ _ w3 (by omega),
    hfield _ _ w4 (by omega)]
  omega

theorem canSPresc_layout :
    CanPrescLayout canSPrescSPresc canSPrescSSeg1 canSPrescSSeg2 canSPrescSSjw :=
  ⟨by decide, by decide⟩

theorem canFPresc_layout :
    CanPrescLayout canFPrescFPresc canFPrescFSeg1 canFPrescFSeg2 canFPrescFSjw :=
  ⟨by decide, by decide⟩

/-- What is written for a timing with a prescaler of at most 256 is that timing. -/
theorem canWriteTiming_read (option : CanBitTimingOption) (base : CanBase) {cycles : Nat}
    {t : CanTiming} (h : t.Fits (sCanBitTimingTbl option) cycles) (h0 : 0 < t.prescaler)
    (hlt : t.prescaler ≤ 256) :
    ∃ base', canWriteTiming option base t = some base' ∧ canReadTiming option base' = t := by
  cases option with
  | can20 =>
    obtain ⟨v, hv, h1, h2, h3, h4⟩ := canPrescValue_read canSPresc_layout (t := t) ⟨h0, hlt⟩
      ⟨h.seg1.1, Nat.lt_of_le_of_lt h.seg1.2 (by decide)⟩
      ⟨h.seg2.1, Nat.le_trans h.seg2.2 (by decide)⟩ ⟨h.sjw.1, Nat.le_trans h.sjw.2 (by decide)⟩
    exact ⟨{ base with sPresc := v }, by simp only [canWriteTiming, hv, Option.map_some],
      by simp only [canReadTiming, h1, h2, h3, h4]⟩
  | canfdNorminal =>
    obtain ⟨v, hv, h1, h2, h3, h4⟩ := canPrescValue_read canSPresc_layout (t := t) ⟨h0, hlt⟩
      ⟨h.seg1.1, Nat.lt_of_le_of_lt h.seg1.2 (by decide)⟩
      ⟨h.seg2.1, Nat.le_trans h.seg2.2 (by decide)⟩ ⟨h.sjw.1, Nat.le_trans h.sjw.2 (by decide)⟩
    exact ⟨{ base with sPresc := v }, by simp only [canWriteTiming, hv, Option.map_some],
      by simp only [canReadTiming, h1, h2, h3, h4]⟩
  | canfdData =>
    obtain ⟨v, hv, h1, h2, h3, h4⟩ := canPrescValue_read canFPresc_layout (t := t) ⟨h0, hlt⟩
      ⟨h.seg1.1, Nat.lt_of_le_of_lt h.seg1.2 (by decide)⟩
      ⟨h.seg2.1, Nat.le_trans h.seg2.2 (by decide)⟩ ⟨h.sjw.1, Nat.le_trans h.sjw.2 (by decide)⟩
    exact ⟨{ base with fPresc := v }, by simp only [canWriteTiming, hv, Option.map_some],
      by simp only [canReadTiming, h1, h2, h3, h4]⟩

/-- Whatever is programmed, the prescaler that is read back is from 1 to 256. -/
theorem canReadTiming_prescaler_le (option : CanBitTimingOption) (base : CanBase) :
    0 < (canReadTiming option base).prescaler ∧ (canReadTiming option base).prescaler ≤ 256 := by
  cases option with
  | can20 => exact ⟨Nat.succ_pos _, RegField.get_lt (f := canSPrescSPresc) _ (by decide)⟩
  | canfdNorminal => exact ⟨Nat.succ_pos _, RegField.get_lt (f := canSPrescSPresc) _ (by decide)⟩
  | canfdData => exact ⟨Nat.succ_pos _, RegField.get_lt (f := canFPrescFPresc) _ (by decide)⟩

/-! ## The contract -/

section Contract

variable (passes : Nat) (base : CanBase) (option : CanBitTimingOption)
  {srcClkFreq baudrate : BitVec 32}

/-- Fewer cycles in a bit than `MIN_TQ_MUL_PRESCALE` are refused. -/
theorem canSetBitTiming_refused
    (h : baudrate = 0 ∨ srcClkFreq.toNat / baudrate.toNat < minTqMulPrescale) :
    canSetBitTiming passes base option srcClkFreq baudrate = some (.invalidArgument, base) := by
  simp only [canSetBitTiming, if_pos h]

/-- Behind its check the function is the search, and the search decides the status. -/
theorem canSetBitTiming_eq
    (h : ¬ (baudrate = 0 ∨ srcClkFreq.toNat / baudrate.toNat < minTqMulPrescale)) :
    canSetBitTiming passes base option srcClkFreq baudrate =
      (canSearch (sCanBitTimingTbl option) (srcClkFreq.toNat / baudrate.toNat) passes passes 1).bind
        fun
        | none => some (.invalidArgument, base)
        | some t => (canWriteTiming option base t).map fun base => (.success, base) := by
  have hmin : ¬ srcClkFreq.toNat / baudrate.toNat < (sCanBitTimingTbl option).tqMin := by
    have := (not_or.mp h).2
    rw [(sCanBitTimingTbl_regular option).tqMin]
    unfold minTqMulPrescale at this
    omega
  unfold canSetBitTiming
  rw [if_neg h]
  exact if_neg hmin

/-- A call that is not refused at once never returns an error. -/
theorem canSetBitTiming_success {status : CanStat} {base' : CanBase}
    (h : ¬ (baudrate = 0 ∨ srcClkFreq.toNat / baudrate.toNat < minTqMulPrescale))
    (hrun : canSetBitTiming passes base option srcClkFreq baudrate = some (status, base')) :
    status = .success := by
  rw [canSetBitTiming_eq passes base option h] at hrun
  obtain ⟨found, hsearch, hrun⟩ := Option.bind_eq_some_iff.mp hrun
  cases found with
  | none =>
    exact absurd hsearch
      (canSearch_ne_none (sCanBitTimingTbl_regular option) passes passes 1 (by decide))
  | some t =>
    obtain ⟨base₁, -, heq⟩ := Option.map_eq_some_iff.mp hrun
    exact (congrArg Prod.fst heq).symm

end Contract

/-- The smallest prescaler that leaves fewer time quanta than a bound, but at least about half
of them. -/
theorem exists_prescaler {cycles bound : Nat} (h0 : 0 < bound) (hlt : cycles < 256 * bound)
    (hmin : 10 ≤ cycles) : ∃ last, 0 < last ∧ last ≤ 256 ∧ cycles / last < bound ∧
      min 10 (bound / 2) ≤ cycles / last := by
  have hdiv : bound * (cycles / bound) ≤ cycles := Nat.mul_div_le cycles bound
  refine ⟨cycles / bound + 1, Nat.succ_pos _, ?_, ?_, ?_⟩
  · exact (Nat.div_lt_iff_lt_mul h0).mpr hlt
  · rw [Nat.div_lt_iff_lt_mul (Nat.succ_pos _)]
    exact Nat.lt_mul_div_succ cycles h0
  · by_cases hsmall : cycles < bound
    · rw [Nat.div_eq_of_lt hsmall, Nat.div_one]
      exact Nat.le_trans (Nat.min_le_left _ _) hmin
    · have hone : 1 ≤ cycles / bound := (Nat.le_div_iff_mul_le h0).mpr (by omega)
      refine Nat.le_trans (Nat.min_le_right _ _) ((Nat.le_div_iff_mul_le (Nat.succ_pos _)).mpr ?_)
      calc bound / 2 * (cycles / bound + 1)
          ≤ bound / 2 * (2 * (cycles / bound)) := Nat.mul_le_mul_left _ (by omega)
        _ = bound / 2 * 2 * (cycles / bound) := (Nat.mul_assoc _ _ _).symm
        _ ≤ bound * (cycles / bound) := Nat.mul_le_mul_right _ (Nat.div_mul_le_self _ _)
        _ ≤ cycles := hdiv

/-- A bit with more cycles is set with a prescaler that its register does not hold. -/
theorem not_canSetsBitTiming (option : CanBitTimingOption) {srcClkFreq baudrate : BitVec 32}
    (hbaud : baudrate ≠ 0)
    (hcycles : (sCanBitTimingTbl option).cyclesEnd ≤ srcClkFreq.toNat / baudrate.toNat) :
    ¬ CanSetsBitTiming option srcClkFreq baudrate := by
  intro h
  have hfit := (sCanBitTimingTbl_regular option).fit
  unfold CanBitTimingTable.cyclesEnd at hcycles
  obtain ⟨passes, status, base', hrun, hfits, -⟩ := h default
  have hsuccess := canSetBitTiming_success passes _ option
    (not_or.mpr ⟨hbaud, by unfold minTqMulPrescale; omega⟩) hrun
  obtain ⟨hpos, h256⟩ := canReadTiming_prescaler_le option base'
  have hfew := (Nat.div_lt_iff_lt_mul hpos).mp
    (Nat.lt_add_one_of_le (hfits hsuccess).le_fitMax)
  have hprod := Nat.mul_le_mul_left ((sCanBitTimingTbl option).fitMax + 1) h256
  omega

/-- Where some prescaler of at most 256 leaves few enough time quanta, the timing is set. -/
theorem canSetsBitTiming_of_lt (option : CanBitTimingOption) {srcClkFreq baudrate : BitVec 32}
    (hcycles : srcClkFreq.toNat / baudrate.toNat < (sCanBitTimingTbl option).cyclesEnd) :
    CanSetsBitTiming option srcClkFreq baudrate := by
  intro base
  have hr := sCanBitTimingTbl_regular option
  have hfit := hr.fit
  have hcut := hr.fitMax_le
  have hsmall := hr.small
  by_cases hrefused : baudrate = 0 ∨ srcClkFreq.toNat / baudrate.toNat < minTqMulPrescale
  · exact ⟨0, _, base, canSetBitTiming_refused 0 base option hrefused, nofun, fun _ => rfl⟩
  · have hten := (not_or.mp hrefused).2
    unfold CanBitTimingTable.cyclesEnd at hcycles
    unfold minTqMulPrescale at hten
    obtain ⟨last, hpos, hlast, hlt, hge⟩ :=
      exists_prescaler (by omega) hcycles (Nat.not_lt.mp hten)
    obtain ⟨t, hsearch, hfits, h0, hle⟩ := @canSearch_fits option _ last (by omega)
      (Nat.le_of_lt_succ hlt) (by omega) (by omega) 300 300 1 Nat.one_pos (by omega) (by omega)
      (by omega)
    obtain ⟨base', hwrite, hread⟩ := canWriteTiming_read option base hfits h0 (by omega)
    refine ⟨300, .success, base', ?_, fun _ => hread ▸ hfits, fun hne => absurd rfl hne⟩
    rw [canSetBitTiming_eq 300 base option hrefused, hsearch]
    simp only [Option.bind_some, hwrite, Option.map_some]

/-- **A bit timing is set as asked exactly where a prescaler of at most 256 leaves time quanta
that the segments can take.**

The search goes upwards through the prescalers and ends at the first one that leaves few enough
time quanta, so it ends at one of at most 256 exactly where there is one.  Then the values fit
their fields.  Beyond that it goes on, and what it finds is cut to the field. -/
theorem canSetBitTiming_iff (option : CanBitTimingOption) (srcClkFreq baudrate : BitVec 32) :
    CanSetsBitTiming option srcClkFreq baudrate ↔
      baudrate = 0 ∨ srcClkFreq.toNat / baudrate.toNat < (sCanBitTimingTbl option).cyclesEnd := by
  constructor
  · intro h
    by_contra hlarge
    obtain ⟨hbaud, hcycles⟩ := not_or.mp hlarge
    exact not_canSetsBitTiming option hbaud (Nat.not_lt.mp hcycles) h
  · rintro (rfl | hcycles)
    · refine canSetsBitTiming_of_lt option ?_
      have hfit := (sCanBitTimingTbl_regular option).fit
      unfold CanBitTimingTable.cyclesEnd
      simp only [BitVec.ofNat_eq_ofNat, BitVec.toNat_ofNat, Nat.zero_mod, Nat.div_zero]
      omega
    · exact canSetsBitTiming_of_lt option hcycles

/-- A prescaler of 271 is cut to 15. -/
theorem canSetBitTiming_cut :
    ((canSetBitTiming 300 default .can20 80000000 4000).map fun r =>
        (r.1, canReadTiming .can20 r.2)) = some (.success, ⟨15, 65, 8, 4⟩) ∧
      ¬ CanSetsBitTiming .can20 80000000 4000 :=
  ⟨by decide +kernel, not_canSetsBitTiming .can20 (by decide) (by decide)⟩

end HpmSdk.Can
