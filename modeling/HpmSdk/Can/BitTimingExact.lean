import HpmSdk.Can.BitTimingContract

set_option autoImplicit false

/-!
# CAN: when the bit rate is the one that was asked for

The search takes the smallest prescaler that leaves few enough time quanta, and never looks
whether it divides the clock cycles of a bit.

So the rate is exact where the least prescaler divides the cycles; a larger one that would divide
them is not taken.
-/

namespace HpmSdk.Can

open HpmSdk.Foundation

/-! ## The contract -/

/-- A bit of so many clock cycles can be cut exactly: by a prescaler of at most 256 into time
quanta, and these into segments within the limits with the sample point at 75 to 87.5 percent. -/
def CanExactSplit (tbl : CanBitTimingTable) (cycles : Nat) : Prop :=
  ∃ prescaler seg1 seg2, (1 ≤ prescaler ∧ prescaler ≤ 256) ∧ prescaler * (seg1 + seg2) = cycles ∧
    (tbl.tqMin ≤ seg1 + seg2 ∧ seg1 + seg2 ≤ tbl.tqMax) ∧
    (tbl.seg1Min ≤ seg1 ∧ seg1 ≤ tbl.seg1Max) ∧ (tbl.seg2Min ≤ seg2 ∧ seg2 ≤ tbl.seg2Max) ∧
    75 * (seg1 + seg2) ≤ 100 * seg1 ∧ 1000 * seg1 ≤ 875 * (seg1 + seg2)

/-- What is asked of a call: where the source clock is a multiple of the baud rate and the bit can
be cut exactly, the call succeeds and the timing in the register has exactly its cycles. -/
def CanSetsExactly (option : CanBitTimingOption) (srcClkFreq baudrate : BitVec 32) : Prop :=
  baudrate ≠ 0 → baudrate.toNat ∣ srcClkFreq.toNat →
    CanExactSplit (sCanBitTimingTbl option) (srcClkFreq.toNat / baudrate.toNat) →
      ∀ base, ∃ enough, ∀ passes, enough ≤ passes → ∃ base',
        canSetBitTiming passes base option srcClkFreq baudrate = some (.success, base') ∧
          (canReadTiming option base').prescaler *
            ((canReadTiming option base').seg1 + (canReadTiming option base').seg2) =
              srcClkFreq.toNat / baudrate.toNat

/-- The smallest prescaler that leaves time quanta that the segments can take. -/
def CanBitTimingTable.leastPrescaler (tbl : CanBitTimingTable) (cycles : Nat) : Nat :=
  cycles / (tbl.fitMax + 1) + 1

/-! ## The prescaler that is found -/

section Least

variable (tbl : CanBitTimingTable) {cycles prescaler : Nat}

/-- The least prescaler is the first that leaves few enough time quanta. -/
theorem CanBitTimingTable.leastPrescaler_le_iff (hpos : 0 < prescaler) :
    tbl.leastPrescaler cycles ≤ prescaler ↔ cycles / prescaler ≤ tbl.fitMax := by
  have hswap : cycles < prescaler * (tbl.fitMax + 1) ↔ cycles < (tbl.fitMax + 1) * prescaler := by
    rw [Nat.mul_comm]
  rw [CanBitTimingTable.leastPrescaler, Nat.succ_le_iff, Nat.div_lt_iff_lt_mul (Nat.succ_pos _),
    hswap, ← Nat.div_lt_iff_lt_mul hpos, Nat.lt_succ_iff]

/-- A bit that can be cut exactly has a prescaler of at most 256 that leaves few enough quanta. -/
theorem CanExactSplit.leastPrescaler_le {tbl : CanBitTimingTable} (h : CanExactSplit tbl cycles) :
    tbl.leastPrescaler cycles ≤ 256 := by
  obtain ⟨prescaler, seg1, seg2, ⟨hpos, hle⟩, rfl, -, ⟨-, hseg1⟩, ⟨-, hseg2⟩, hsample, -⟩ := h
  refine Nat.le_trans ((tbl.leastPrescaler_le_iff hpos).mpr ?_) hle
  rw [Nat.mul_div_cancel_left _ hpos]
  refine Nat.le_min.mpr ⟨Nat.add_le_add hseg1 hseg2, ?_⟩
  rw [Nat.le_div_iff_mul_le (by decide : 0 < 75)]
  omega

end Least

/-- The search finds the smallest prescaler. -/
theorem canSearch_least (option : CanBitTimingOption) {cycles : Nat} (hten : 10 ≤ cycles)
    (hle : (sCanBitTimingTbl option).leastPrescaler cycles ≤ 256) {passes : Nat}
    (hpasses : 300 ≤ passes) :
    ∃ t, canSearch (sCanBitTimingTbl option) cycles passes passes 1 = some (some t) ∧
      t.Fits (sCanBitTimingTbl option) cycles ∧
      t.prescaler = (sCanBitTimingTbl option).leastPrescaler cycles := by
  have hr := sCanBitTimingTbl_regular option
  have hfit := hr.fit
  have hcut := hr.fitMax_le
  have hsmall := hr.small
  have hpos : 0 < (sCanBitTimingTbl option).leastPrescaler cycles := Nat.succ_pos _
  have hmax := ((sCanBitTimingTbl option).leastPrescaler_le_iff hpos).mp (Nat.le_refl _)
  have hcycles : cycles < 256 * ((sCanBitTimingTbl option).fitMax + 1) :=
    (Nat.div_lt_iff_lt_mul (Nat.succ_pos _)).mp hle
  have hmin : 8 ≤ cycles / (sCanBitTimingTbl option).leastPrescaler cycles := by
    obtain ⟨last, hlast, -, hlt, hge⟩ :=
      exists_prescaler (Nat.succ_pos (sCanBitTimingTbl option).fitMax) hcycles hten
    have hleast := ((sCanBitTimingTbl option).leastPrescaler_le_iff hlast).mpr
      (Nat.le_of_lt_succ hlt)
    have hmono : cycles / last ≤ cycles / (sCanBitTimingTbl option).leastPrescaler cycles :=
      Nat.div_le_div_left hleast hpos
    omega
  obtain ⟨t, hsearch, hfits, h0, hlast⟩ := @canSearch_fits option _
    ((sCanBitTimingTbl option).leastPrescaler cycles) hmin hmax (by omega) (by omega) passes passes
    1 Nat.one_pos hpos (by omega) (by omega)
  exact ⟨t, hsearch, hfits, Nat.le_antisymm hlast
    (((sCanBitTimingTbl option).leastPrescaler_le_iff h0).mpr hfits.le_fitMax)⟩

/-- A call that is not refused succeeds, and the register holds the smallest prescaler with the
quanta that it leaves. -/
theorem canSetBitTiming_least (option : CanBitTimingOption) {srcClkFreq baudrate : BitVec 32}
    (hbaud : baudrate ≠ 0) (hten : minTqMulPrescale ≤ srcClkFreq.toNat / baudrate.toNat)
    (hle : (sCanBitTimingTbl option).leastPrescaler (srcClkFreq.toNat / baudrate.toNat) ≤ 256)
    (base : CanBase) {passes : Nat} (hpasses : 300 ≤ passes) :
    ∃ base', canSetBitTiming passes base option srcClkFreq baudrate = some (.success, base') ∧
      (canReadTiming option base').prescaler =
        (sCanBitTimingTbl option).leastPrescaler (srcClkFreq.toNat / baudrate.toNat) ∧
      (canReadTiming option base').seg1 + (canReadTiming option base').seg2 =
        srcClkFreq.toNat / baudrate.toNat /
          (sCanBitTimingTbl option).leastPrescaler (srcClkFreq.toNat / baudrate.toNat) := by
  obtain ⟨t, hsearch, hfits, hleast⟩ := canSearch_least option hten hle hpasses
  have hpos : 0 < t.prescaler := by
    rw [hleast]
    exact Nat.succ_pos _
  obtain ⟨base', hwrite, hread⟩ := canWriteTiming_read option base hfits hpos (hleast.trans_le hle)
  refine ⟨base', ?_, ?_, ?_⟩
  · rw [canSetBitTiming_eq passes base option (not_or.mpr ⟨hbaud, Nat.not_lt.mpr hten⟩), hsearch]
    simp only [Option.bind_some, hwrite, Option.map_some]
  · rw [hread, hleast]
  · rw [hread, ← hfits.quanta, hleast]

/-! ## Exact bit rates -/

/-- A bit rate that is set exactly has a smallest prescaler that divides its cycles. -/
theorem CanSetsExactly.leastPrescaler_dvd {option : CanBitTimingOption}
    {srcClkFreq baudrate : BitVec 32} (h : CanSetsExactly option srcClkFreq baudrate)
    (hbaud : baudrate ≠ 0) (hdvd : baudrate.toNat ∣ srcClkFreq.toNat)
    (hsplit : CanExactSplit (sCanBitTimingTbl option) (srcClkFreq.toNat / baudrate.toNat)) :
    minTqMulPrescale ≤ srcClkFreq.toNat / baudrate.toNat ∧
      (sCanBitTimingTbl option).leastPrescaler (srcClkFreq.toNat / baudrate.toNat) ∣
        srcClkFreq.toNat / baudrate.toNat := by
  obtain ⟨enough, h⟩ := h hbaud hdvd hsplit default
  obtain ⟨base', hrun, hexact⟩ := h (max enough 300) (Nat.le_max_left _ _)
  have hten : minTqMulPrescale ≤ srcClkFreq.toNat / baudrate.toNat := by
    by_contra hfew
    rw [canSetBitTiming_refused _ _ _ (Or.inr (Nat.not_le.mp hfew))] at hrun
    cases hrun
  obtain ⟨base'', hrun', hprescaler, hquanta⟩ := canSetBitTiming_least option hbaud hten
    hsplit.leastPrescaler_le default (Nat.le_max_right enough 300)
  rw [hrun'] at hrun
  cases hrun
  rw [hprescaler, hquanta] at hexact
  exact ⟨hten, Dvd.intro _ hexact⟩

/-- The bit rate is exact where it can be exactly if a bit has at least ten clock cycles and the
smallest prescaler that leaves few enough time quanta divides them.

The search takes the first prescaler that leaves few enough time quanta, without a look at what
the division leaves; only behind a step to the next one is the product compared.  So the smallest
of them decides, even where a larger one would divide.  Bits of eight and nine cycles are refused
by a constant. -/
theorem canSetsExactly_iff (option : CanBitTimingOption) (srcClkFreq baudrate : BitVec 32) :
    CanSetsExactly option srcClkFreq baudrate ↔
      (baudrate ≠ 0 → baudrate.toNat ∣ srcClkFreq.toNat →
        CanExactSplit (sCanBitTimingTbl option) (srcClkFreq.toNat / baudrate.toNat) →
          minTqMulPrescale ≤ srcClkFreq.toNat / baudrate.toNat ∧
            (sCanBitTimingTbl option).leastPrescaler (srcClkFreq.toNat / baudrate.toNat) ∣
              srcClkFreq.toNat / baudrate.toNat) := by
  constructor
  · intro h hbaud hdvd hsplit
    exact h.leastPrescaler_dvd hbaud hdvd hsplit
  · intro h hbaud hdvd hsplit base
    obtain ⟨hten, hleast⟩ := h hbaud hdvd hsplit
    refine ⟨300, ?_⟩
    intro passes hpasses
    obtain ⟨base', hrun, hprescaler, hquanta⟩ :=
      canSetBitTiming_least option hbaud hten hsplit.leastPrescaler_le base hpasses
    refine ⟨base', hrun, ?_⟩
    rw [hprescaler, hquanta]
    exact Nat.mul_div_cancel' hleast

/-- With a clock of 80 MHz, 500 kbit/s are set as 53 quanta of three cycles; forty quanta of four
cycles would be exact. -/
theorem canSetsExactly_500k :
    ((canSetBitTiming 300 default .can20 80000000 500000).map fun r =>
        (r.1, canReadTiming .can20 r.2)) = some (.success, ⟨3, 45, 8, 4⟩) ∧
      ¬ CanSetsExactly .can20 80000000 500000 := by
  refine ⟨by decide +kernel, ?_⟩
  intro h
  have hdvd := (h.leastPrescaler_dvd (by decide) (by decide) ⟨4, 32, 8, by decide⟩).2
  revert hdvd
  decide

end HpmSdk.Can
