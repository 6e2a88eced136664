import HpmSdk.Foundation.Ticks
import HpmSdk.I2c.Setup

set_option autoImplicit false

/-!
# I2C: the clocks for which the timing is right

Nothing is asked of the clock.  For a slow one the controller adds more periods than a time has, for
a fast one the fields are too narrow, and in between the times are right.

`I2cFits` is the condition on the period of the clock.  It implies that the period is small, so the
three modes are finitely many cases, which are decided.
-/

namespace HpmSdk.I2c

open HpmSdk.Foundation

/-! ## The periods of a time -/

section Units

/-- A time that does not wrap has a period to be counted in. -/
theorem I2cNoWrap.period_ne_zero {period total : Nat} (h : I2cNoWrap period total) :
    period ≠ 0 := by
  rintro rfl
  have hfilter := h.filter
  rw [Nat.div_zero] at hfilter
  exact absurd hfilter (by decide)

/-- The periods that the controller adds make up for the ones that are taken off. -/
theorem i2cUnits_add {period total : Nat} (h : I2cNoWrap period total) :
    2 + (2 + 50 / period + i2cUnits period total) = total / period := by
  have hdiv : (total - 2 * period) / period = total / period - 2 := by
    rw [Nat.mul_comm]
    exact Nat.sub_mul_div total period 2
  have hfilter := h.filter
  have hspikes := h.spikes
  unfold i2cUnits
  omega

variable {period total : BitVec 32} {tSp : BitVec 16}

/-- Where nothing goes below zero, the formula over words is the one over the natural numbers. -/
theorem i2cUnits_toNat (h : I2cNoWrap period.toNat total.toNat)
    (hsp : tSp.toNat = 50 / period.toNat) :
    ((total - 2 * period).smtUDiv period - 2 - tSp.setWidth 32).toNat =
      i2cUnits period.toNat total.toNat := by
  have hne : period ≠ 0#32 := fun hzero => h.period_ne_zero (congrArg BitVec.toNat hzero)
  have hadded := h.added
  have hfilter := h.filter
  have hspikes := h.spikes
  have htotal := total.isLt
  have hdouble : (2 * period).toNat = 2 * period.toNat := by
    rw [BitVec.toNat_mul]
    change 2 * period.toNat % 2 ^ 32 = _
    exact Nat.mod_eq_of_lt (by omega)
  have hsub : (total - 2 * period).toNat = total.toNat - 2 * period.toNat := by
    rw [BitVec.toNat_sub_of_le (BitVec.le_def.mpr (hdouble ▸ hadded)), hdouble]
  have hquotient : ((total - 2 * period).smtUDiv period).toNat =
      (total.toNat - 2 * period.toNat) / period.toNat := by
    rw [toNat_smtUDiv hne, hsub]
  have htwo : ((total - 2 * period).smtUDiv period - 2).toNat =
      (total.toNat - 2 * period.toNat) / period.toNat - 2 := by
    rw [BitVec.toNat_sub_of_le (BitVec.le_def.mpr (hquotient ▸ hfilter)), hquotient]
    rfl
  have hwide : (tSp.setWidth 32).toNat = 50 / period.toNat :=
    (BitVec.toNat_setWidth_of_le (by decide)).trans hsp
  rw [BitVec.toNat_sub_of_le (BitVec.le_def.mpr (by rw [htwo, hwide]; exact hspikes)), htwo, hwide]
  rfl

end Units

/-! ## The fields -/

/-- Nothing goes below zero, and every value is one of its field. -/
structure I2cFits (period tHigh tLow : Nat) : Prop where
  noWrap : ∀ total ∈ [250, 300, tHigh, tLow], I2cNoWrap period total
  tSp : 50 / period < 2 ^ 3
  tSudat : i2cUnits period 250 < 2 ^ 5
  tHddat : i2cUnits period 300 < 2 ^ 5
  tSclhi : max (i2cUnits period tHigh) (i2cUnits period tLow) < 2 ^ 9

instance (period total : Nat) : Decidable (I2cNoWrap period total) :=
  decidable_of_iff (2 * period ≤ total ∧ 2 ≤ (total - 2 * period) / period ∧
      50 / period ≤ (total - 2 * period) / period - 2)
    ⟨fun h => ⟨h.1, h.2.1, h.2.2⟩, fun h => ⟨h.added, h.filter, h.spikes⟩⟩

instance (period tHigh tLow : Nat) : Decidable (I2cFits period tHigh tLow) :=
  decidable_of_iff ((∀ total ∈ [250, 300, tHigh, tLow], I2cNoWrap period total) ∧
      50 / period < 2 ^ 3 ∧ i2cUnits period 250 < 2 ^ 5 ∧ i2cUnits period 300 < 2 ^ 5 ∧
      max (i2cUnits period tHigh) (i2cUnits period tLow) < 2 ^ 9)
    ⟨fun h => ⟨h.1, h.2.1, h.2.2.1, h.2.2.2.1, h.2.2.2.2⟩,
      fun h => ⟨h.noWrap, h.tSp, h.tSudat, h.tHddat, h.tSclhi⟩⟩

section Registers

variable {srcClkInHz : BitVec 32} {config : I2cConfig} {ptr : I2cRegs} {times : BitVec 32 × BitVec 32}

/-- The timing of a mode. -/
def i2cTimingOf (srcClkInHz : BitVec 32) (times : BitVec 32 × BitVec 32) : I2cTiming :=
  let tSp := (i2cSp srcClkInHz).setWidth 16
  { tHigh := times.1
    tLow := times.2
    tSp := tSp
    tSudat := (i2cDataUnits srcClkInHz 250 tSp).setWidth 16
    tHddat := (i2cDataUnits srcClkInHz 300 tSp).setWidth 16
    tSclhiMin1 := (i2cSclUnits srcClkInHz times.1 tSp).setWidth 16
    tSclhiMin2 := ((i2cSclUnits srcClkInHz times.2 tSp).smtUDiv
      (hpmI2cDrvDefaultSclRatio.setWidth 32)).setWidth 16
    tSclratio := hpmI2cDrvDefaultSclRatio }

/-- The registers of a master whose mode is supported. -/
theorem i2cInitMaster_of_times (hmode : i2cModeTimes config.i2cMode = some times) :
    i2cInitMaster ptr srcClkInHz config = (true, { i2cReset ptr with
      tpm := (⟨0, 5⟩ : RegField).set hpmI2cDrvDefaultTpm
      setup := RegField.sets (i2cSetupFields (i2cTimingOf srcClkInHz times) config) |||
        (i2cSetupIicen.mask 32 ||| i2cSetupMaster.mask 32) }) := by
  unfold i2cInitMaster i2cConfigureTiming
  rw [hmode]
  rfl

/-- Reading a field of `SETUP` that holds its value. -/
theorem get_i2cSetup {timing : I2cTiming} {f : RegField} {x : BitVec 32}
    (hmem : (f, x) ∈ i2cSetupFields timing config) (hiicen : f.Apart i2cSetupIicen)
    (hmaster : f.Apart i2cSetupMaster) (hf : f.first + f.width ≤ 32) (hx : x.toNat < 2 ^ f.width) :
    f.get (RegField.sets (i2cSetupFields timing config) |||
      (i2cSetupIicen.mask 32 ||| i2cSetupMaster.mask 32)) = x := by
  have happart : List.Pairwise RegField.Apart [i2cSetupTSp, i2cSetupTSudat, i2cSetupTHddat,
    i2cSetupTSclradio, i2cSetupTSclhi, i2cSetupAddressing] := by decide
  rw [RegField.get_or, RegField.get_or, RegField.get_mask_of_apart hiicen,
    RegField.get_mask_of_apart hmaster, BitVec.or_zero, BitVec.or_zero]
  refine RegField.get_sets_of_lt ?_ hmem hf hx
  exact happart

end Registers

/-! ## The values -/

section Values

variable {srcClkInHz : BitVec 32} {config : I2cConfig} {ptr : I2cRegs} {times : BitVec 32 × BitVec 32}

theorem i2cClk_ne_zero (h : i2cPeriod srcClkInHz ≠ 0) : srcClkInHz ≠ 0#32 := by
  rintro rfl
  exact h rfl

/-- The period of the clock in nanoseconds, rounded down. -/
theorem periodInNs_toNat (h : i2cPeriod srcClkInHz ≠ 0) :
    (periodInNs srcClkInHz).toNat = i2cPeriod srcClkInHz := toNat_smtUDiv (i2cClk_ne_zero h)

theorem periodInNs_ne_zero (h : i2cPeriod srcClkInHz ≠ 0) : periodInNs srcClkInHz ≠ 0#32 :=
  fun hzero => h ((periodInNs_toNat h).symm.trans (congrArg BitVec.toNat hzero))

/-- The filter takes the periods of 50 ns, rounded down. -/
theorem i2cSp_toNat (h : i2cPeriod srcClkInHz ≠ 0) :
    ((i2cSp srcClkInHz).setWidth 16).toNat = 50 / i2cPeriod srcClkInHz := by
  have hone : (hpmI2cDrvDefaultTpm + 1).toNat = 1 := by decide
  have hle : 50 / i2cPeriod srcClkInHz ≤ 50 := Nat.div_le_self _ _
  rw [BitVec.toNat_setWidth, i2cSp, BitVec.toNat_udiv, hone, Nat.div_one,
    toNat_smtUDiv (periodInNs_ne_zero h), periodInNs_toNat h]
  exact Nat.mod_eq_of_lt (Nat.lt_of_le_of_lt hle (by decide))

/-- Dividing by the multiplier changes nothing. -/
theorem i2cSclUnits_eq (total : BitVec 32) (tSp : BitVec 16) :
    i2cSclUnits srcClkInHz total tSp = i2cDataUnits srcClkInHz total tSp := by
  have hone : hpmI2cDrvDefaultTpm + 1 = 1#32 := by decide
  unfold i2cSclUnits i2cDataUnits
  rw [hone, BitVec.udiv_one]

/-- The units of a time, in words, where the subtraction does not wrap. -/
theorem i2cDataUnits_toNat (total : BitVec 32) {bound : Nat}
    (h : I2cNoWrap (i2cPeriod srcClkInHz) total.toNat)
    (hlt : i2cUnits (i2cPeriod srcClkInHz) total.toNat < bound) (hbound : bound ≤ 2 ^ 16) :
    ((i2cDataUnits srcClkInHz total ((i2cSp srcClkInHz).setWidth 16)).setWidth 16).toNat =
      i2cUnits (i2cPeriod srcClkInHz) total.toNat := by
  have hperiod := periodInNs_toNat h.period_ne_zero
  have hsp := i2cSp_toNat h.period_ne_zero
  rw [← hperiod] at h hsp
  rw [BitVec.toNat_setWidth, i2cDataUnits, i2cUnits_toNat h hsp, hperiod]
  exact Nat.mod_eq_of_lt (Nat.lt_of_lt_of_le hlt hbound)

/-- The high time is the larger of its two lower bounds. -/
theorem I2cTiming.sclhi_toNat (timing : I2cTiming) :
    timing.sclhi.toNat = max timing.tSclhiMin1.toNat timing.tSclhiMin2.toNat := by
  unfold I2cTiming.sclhi
  split
  · rename_i hlt
    exact (Nat.max_eq_left (Nat.le_of_lt hlt)).symm
  · rename_i hge
    exact (Nat.max_eq_right (Nat.le_of_not_lt hge)).symm

/-- The values of a timing where everything fits. -/
structure I2cExact (period tHigh tLow : Nat) (timing : I2cTiming) : Prop where
  tSp : timing.tSp.toNat = 50 / period
  tSudat : timing.tSudat.toNat = i2cUnits period 250
  tHddat : timing.tHddat.toNat = i2cUnits period 300
  tSclratio : timing.tSclratio = 1
  sclhi : timing.sclhi.toNat = max (i2cUnits period tHigh) (i2cUnits period tLow)

/-- Where everything fits the timing is what it should be, number by number. -/
theorem i2cTimingOf_exact (h : I2cFits (i2cPeriod srcClkInHz) times.1.toNat times.2.toNat) :
    I2cExact (i2cPeriod srcClkInHz) times.1.toNat times.2.toNat (i2cTimingOf srcClkInHz times) := by
  have hnoWrap := h.noWrap
  simp only [List.forall_mem_cons, List.not_mem_nil, false_imp_iff, implies_true, and_true]
    at hnoWrap
  obtain ⟨hsudat, hhddat, hhigh, hlow⟩ := hnoWrap
  obtain ⟨hltHigh, hltLow⟩ := Nat.max_lt.mp h.tSclhi
  have hratio : (hpmI2cDrvDefaultSclRatio.setWidth 32 : BitVec 32) = 1#32 := by decide
  have hone : ∀ v : BitVec 32, v.smtUDiv 1#32 = v := by
    intro v
    rw [BitVec.smtUDiv_eq, if_neg (by decide), BitVec.udiv_one]
  constructor
  · exact i2cSp_toNat hsudat.period_ne_zero
  · exact i2cDataUnits_toNat 250 hsudat h.tSudat (by decide)
  · exact i2cDataUnits_toNat 300 hhddat h.tHddat (by decide)
  · rfl
  · rw [I2cTiming.sclhi_toNat, i2cTimingOf]
    dsimp only
    rw [hratio, hone, i2cSclUnits_eq, i2cSclUnits_eq, i2cDataUnits_toNat _ hhigh hltHigh (by decide),
      i2cDataUnits_toNat _ hlow hltLow (by decide)]

/-- What the registers hold where everything fits. -/
structure I2cHolds (period tHigh tLow : Nat) (regs : I2cRegs) : Prop where
  tpm : ((⟨0, 5⟩ : RegField).get regs.tpm).toNat = 0
  tSp : (i2cSetupTSp.get regs.setup).toNat = 50 / period
  tSudat : (i2cSetupTSudat.get regs.setup).toNat = i2cUnits period 250
  tHddat : (i2cSetupTHddat.get regs.setup).toNat = i2cUnits period 300
  tSclradio : (i2cSetupTSclradio.get regs.setup).toNat = 0
  tSclhi : (i2cSetupTSclhi.get regs.setup).toNat = max (i2cUnits period tHigh) (i2cUnits period tLow)

theorem i2cHolds_of_fits (hmode : i2cModeTimes config.i2cMode = some times)
    (h : I2cFits (i2cPeriod srcClkInHz) times.1.toNat times.2.toNat) :
    I2cHolds (i2cPeriod srcClkInHz) times.1.toNat times.2.toNat
      (i2cInitMaster ptr srcClkInHz config).2 := by
  have hexact := i2cTimingOf_exact h
  rw [i2cInitMaster_of_times hmode]
  generalize i2cTimingOf srcClkInHz times = timing at hexact ⊢
  have hwide : ∀ v : BitVec 16, (v.setWidth 32).toNat = v.toNat := fun _ =>
    BitVec.toNat_setWidth_of_le (by decide)
  have htSp := (hwide timing.tSp).trans hexact.tSp
  have htSudat := (hwide timing.tSudat).trans hexact.tSudat
  have htHddat := (hwide timing.tHddat).trans hexact.tHddat
  have htSclhi := (hwide timing.sclhi).trans hexact.sclhi
  have hratio : (timing.tSclratio.setWidth 32 - 1 : BitVec 32) = 0#32 := by
    rw [hexact.tSclratio]
    decide
  constructor <;> dsimp only
  · decide
  · rw [get_i2cSetup (by simp [i2cSetupFields]) (by decide) (by decide) (by decide)
      (htSp ▸ h.tSp), htSp]
  · rw [get_i2cSetup (by simp [i2cSetupFields]) (by decide) (by decide) (by decide)
      (htSudat ▸ h.tSudat), htSudat]
  · rw [get_i2cSetup (by simp [i2cSetupFields]) (by decide) (by decide) (by decide)
      (htHddat ▸ h.tHddat), htHddat]
  · rw [get_i2cSetup (x := timing.tSclratio.setWidth 32 - 1) (by simp [i2cSetupFields]) (by decide)
      (by decide) (by decide) (by rw [hratio]; decide), hratio]
    rfl
  · rw [get_i2cSetup (by simp [i2cSetupFields]) (by decide) (by decide) (by decide)
      (htSclhi ▸ h.tSclhi), htSclhi]

end Values

/-! ## The times -/

section Times

variable {srcClkInHz tHigh tLow : BitVec 32} {regs : I2cRegs}

/-- The periods for a time, and more units of it, are not less than the truncated ones. -/
theorem le_i2cPeriods (h : I2cHolds (i2cPeriod srcClkInHz) tHigh.toNat tLow.toNat regs)
    {total units : Nat} (hnoWrap : I2cNoWrap (i2cPeriod srcClkInHz) total)
    (hunits : i2cUnits (i2cPeriod srcClkInHz) total ≤ units) :
    total / i2cPeriod srcClkInHz ≤ i2cPeriods regs units := by
  unfold i2cPeriods
  rw [h.tpm, h.tSp, ← i2cUnits_add hnoWrap]
  omega

theorem i2cExceeds_of_le (hperiod : i2cPeriod srcClkInHz ≠ 0) {periods total : Nat}
    (hle : total / i2cPeriod srcClkInHz ≤ periods) : I2cExceeds srcClkInHz periods total := by
  have hfreq : 0 < srcClkInHz.toNat := BitVec.toNat_pos_of_ne_zero (i2cClk_ne_zero hperiod)
  exact Nat.lt_of_lt_of_le (ticks_last hfreq hperiod total)
    (Nat.mul_le_mul_left _ (Nat.succ_le_succ hle))

theorem I2cExceeds.lasts {periods total : Nat} (h : I2cExceeds srcClkInHz periods total) :
    I2cLasts srcClkInHz periods total := Nat.le_of_lt h

theorem i2cTimed_of_holds (hfits : I2cFits (i2cPeriod srcClkInHz) tHigh.toNat tLow.toNat)
    (h : I2cHolds (i2cPeriod srcClkInHz) tHigh.toNat tLow.toNat regs) :
    I2cTimed srcClkInHz tHigh tLow regs := by
  have hnoWrap := hfits.noWrap
  simp only [List.forall_mem_cons, List.not_mem_nil, false_imp_iff, implies_true, and_true]
    at hnoWrap
  obtain ⟨hsudat, hhddat, hhigh, hlow⟩ := hnoWrap
  have hperiod := hsudat.period_ne_zero
  constructor
  · intro hzero
    have hdiv : (1000000000 / srcClkInHz).toNat = i2cPeriod srcClkInHz := BitVec.toNat_udiv
    exact hperiod (hdiv.symm.trans (congrArg BitVec.toNat hzero))
  · exact hfits.noWrap
  · exact h.tSp
  · exact h.tSudat
  · exact h.tHddat
  · exact h.tSclhi
  · apply i2cExceeds_of_le hperiod
    apply le_i2cPeriods h hhigh
    rw [h.tSclhi]
    exact Nat.le_max_left _ _
  · apply i2cExceeds_of_le hperiod
    apply le_i2cPeriods h hlow
    rw [h.tSclhi, h.tSclradio, Nat.zero_add, Nat.mul_one]
    exact Nat.le_max_right _ _
  · apply I2cExceeds.lasts
    exact i2cExceeds_of_le hperiod (le_i2cPeriods h hsudat h.tSudat.ge)
  · apply I2cExceeds.lasts
    exact i2cExceeds_of_le hperiod (le_i2cPeriods h hhddat h.tHddat.ge)

/-- A timing that is right is one in which everything fits. -/
theorem i2cFits_of_timed (h : I2cTimed srcClkInHz tHigh tLow regs) :
    I2cFits (i2cPeriod srcClkInHz) tHigh.toNat tLow.toNat where
  noWrap := h.noWrap
  tSp := h.tSp ▸ RegField.get_lt (f := i2cSetupTSp) regs.setup (by decide)
  tSudat := h.tSudat ▸ RegField.get_lt (f := i2cSetupTSudat) regs.setup (by decide)
  tHddat := h.tHddat ▸ RegField.get_lt (f := i2cSetupTHddat) regs.setup (by decide)
  tSclhi := h.tSclhi ▸ RegField.get_lt (f := i2cSetupTSclhi) regs.setup (by decide)

end Times

/-! ## The clocks -/

/-- The truncated period is one of 7 to 62 nanoseconds, and of at least 10 in the normal mode. -/
structure I2cClockFits (srcClkInHz : BitVec 32) (i2cMode : BitVec 8) : Prop where
  min : 7 ≤ i2cPeriod srcClkInHz
  max : i2cPeriod srcClkInHz ≤ 62
  normal : i2cMode = 0 → 10 ≤ i2cPeriod srcClkInHz

/-- The periods from 7 to 62 ns are the only ones that can fit. -/
theorem i2cFits_bounds {period tHigh tLow : Nat} (h : I2cFits period tHigh tLow) :
    7 ≤ period ∧ period ≤ 62 := by
  have hsudat := h.noWrap 250 List.mem_cons_self
  have hpos := Nat.pos_of_ne_zero hsudat.period_ne_zero
  constructor
  · have hsp := (Nat.div_lt_iff_lt_mul hpos).mp h.tSp
    omega
  · have hfilter := (Nat.le_div_iff_mul_le hpos).mp hsudat.filter
    omega

theorem i2cFits_fast : ∀ period < 63, 7 ≤ period → I2cFits period 600 1300 := by decide

theorem i2cFits_fastPlus : ∀ period < 63, 7 ≤ period → I2cFits period 260 500 := by decide

theorem i2cFits_normal : ∀ period < 63, 10 ≤ period → I2cFits period 4000 4700 := by decide

theorem i2cFits_normal_min : ∀ period < 10, ¬ I2cFits period 4000 4700 := by decide

section Clocks

variable {srcClkInHz : BitVec 32} {config : I2cConfig} {ptr : I2cRegs} {times : BitVec 32 × BitVec 32}

/-- For the times of a mode everything fits exactly where the clock does. -/
theorem i2cFits_iff {i2cMode : BitVec 8} (hmode : i2cModeTimes i2cMode = some times) :
    I2cFits (i2cPeriod srcClkInHz) times.1.toNat times.2.toNat ↔
      I2cClockFits srcClkInHz i2cMode := by
  unfold i2cModeTimes at hmode
  constructor
  · intro h
    obtain ⟨hmin, hmax⟩ := i2cFits_bounds h
    refine ⟨hmin, hmax, ?_⟩
    rintro rfl
    rw [if_neg (by decide), if_neg (by decide), if_pos rfl] at hmode
    cases Option.some.inj hmode
    exact Nat.le_of_not_lt fun hlt => i2cFits_normal_min _ hlt h
  · intro h
    have hlt : i2cPeriod srcClkInHz < 63 := Nat.lt_succ_of_le h.max
    split at hmode
    · cases Option.some.inj hmode
      exact i2cFits_fast _ hlt h.min
    · split at hmode
      · cases Option.some.inj hmode
        exact i2cFits_fastPlus _ hlt h.min
      · split at hmode
        · cases Option.some.inj hmode
          exact i2cFits_normal _ hlt (h.normal ‹_›)
        · cases hmode

/-- **The timing of a master is right if and only if its mode is not supported or its clock
fits.**

The fields are computed from the times of the mode and the period of the clock by divisions and
subtractions that nothing bounds.  The clock comes in through its period only, and for each mode
nothing wraps and every field holds its value exactly for the periods of one interval. -/
theorem i2cInitialised_iff (ptr : I2cRegs) (srcClkInHz : BitVec 32) (config : I2cConfig) :
    I2cInitialised ptr srcClkInHz config ↔
      (i2cModeTimes config.i2cMode ≠ none → I2cClockFits srcClkInHz config.i2cMode) := by
  unfold I2cInitialised
  cases hmode : i2cModeTimes config.i2cMode with
  | none =>
    refine iff_of_true ?_ ?_
    · intro _ times htimes
      cases htimes
    · intro hne
      exact absurd rfl hne
  | some times =>
    have hstat : (i2cInitMaster ptr srcClkInHz config).1 = true := by
      rw [i2cInitMaster_of_times hmode]
    rw [← i2cFits_iff hmode]
    constructor
    · intro h _
      exact i2cFits_of_timed (h hstat times rfl)
    · intro h _ times' htimes
      cases htimes
      have hfits := h (Option.some_ne_none times)
      exact i2cTimed_of_holds hfits (i2cHolds_of_fits hmode hfits)

end Clocks

/-- At 10 MHz the 250 ns of the setup time are less than the periods that the controller adds. -/
theorem i2cInitialised_slow : ¬ ∀ (ptr : I2cRegs) (srcClkInHz : BitVec 32) (config : I2cConfig),
    srcClkInHz ≠ 0 → I2cInitialised ptr srcClkInHz config := by
  intro h
  have htimed := h ⟨0, 0, 0, 0⟩ 10000000 ⟨false, 1⟩ (by decide) rfl (600, 1300) rfl
  have hbounds := (i2cFits_bounds (i2cFits_of_timed htimed)).2
  revert hbounds
  decide

end HpmSdk.I2c
