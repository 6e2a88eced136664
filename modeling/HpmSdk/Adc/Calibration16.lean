import HpmSdk.Common
import HpmSdk.Foundation.Integers
import HpmSdk.Foundation.Registers
import Mathlib.Algebra.BigOperators.Intervals
import Mathlib.Tactic.Ring

set_option autoImplicit false

/-!
# ADC16: calibration (`hpm_adc16_drv.c`)

`adc16_do_calibration` adds up the 34 parameter registers over four rounds, takes the offset out of
the sums, makes prefix sums of them in place and a conversion factor of their total, and writes
both back.  The array is unsigned and the first parameter signed.  The readings of a round are
those behind the wait for its end, which the model leaves out; a division by 0 is `none`.

What the integers of the computation are is written down first, and every word is shown to stand for
its integer; the range of each then tells whether the word reads as it.
-/

namespace HpmSdk.Adc

open HpmSdk.Foundation

/-! ## The registers -/

/-- `ADC16_CONV_CFG1_CLOCK_DIVIDER`. -/
def adc16ConvCfg1ClockDivider : RegField := ⟨0, 4⟩

/-- `ADC16_ADC_CFG0_ADC_AHB_EN`. -/
def adc16AdcCfg0AdcAhbEn : RegField := ⟨29, 1⟩

/-- `ADC16_ANA_CTRL0_ADC_CLK_ON`. -/
def adc16AnaCtrl0AdcClkOn : RegField := ⟨12, 1⟩

/-- `ADC16_ANA_CTRL0_STARTCAL`. -/
def adc16AnaCtrl0Startcal : RegField := ⟨2, 1⟩

/-- `ADC16_ADC16_CONFIG0_REG_EN`. -/
def adc16Config0RegEn : RegField := ⟨24, 1⟩

/-- `ADC16_ADC16_CONFIG0_BANDGAP_EN`. -/
def adc16Config0BandgapEn : RegField := ⟨23, 1⟩

/-- `ADC16_ADC16_CONFIG0_CAL_AVG_CFG`. -/
def adc16Config0CalAvgCfg : RegField := ⟨20, 3⟩

/-- `ADC16_ADC16_CONFIG0_CONV_PARAM`. -/
def adc16Config0ConvParam : RegField := ⟨0, 14⟩

/-- `ADC16_CALI_REG_LEN`. -/
def adc16CaliRegLen : Nat := 34

/-- The registers of `ADC16_Type` that the calibration writes. -/
structure Adc16CalRegs where
  convCfg1 : BitVec 32
  adcCfg0 : BitVec 32
  anaCtrl0 : BitVec 32
  adc16Params : Fin adc16CaliRegLen → BitVec 16
  adc16Config0 : BitVec 32
  deriving Inhabited

/-- What a round reads from a parameter register. -/
abbrev Adc16Readings := Nat → Nat → BitVec 16

namespace Adc16CalRegs

variable (regs : Adc16CalRegs)

/-- The divider of the clock is written beside the other fields of its register. -/
def writeClockDivider (clkDiv : BitVec 32) : Adc16CalRegs :=
  { regs with
    convCfg1 := regs.convCfg1 &&& ~~~adc16ConvCfg1ClockDivider.mask 32 |||
      adc16ConvCfg1ClockDivider.set clkDiv }

/-- The clock of the converter is enabled. -/
def enableClock : Adc16CalRegs :=
  { regs with anaCtrl0 := regs.anaCtrl0 ||| adc16AnaCtrl0AdcClkOn.mask 32 }

/-- The clock of the converter is disabled. -/
def disableClock : Adc16CalRegs :=
  { regs with anaCtrl0 := regs.anaCtrl0 &&& ~~~adc16AnaCtrl0AdcClkOn.mask 32 }

/-- A round is started. -/
def startCal : Adc16CalRegs :=
  { regs with
    anaCtrl0 := (regs.anaCtrl0 ||| adc16AnaCtrl0Startcal.mask 32) &&&
      ~~~adc16AnaCtrl0Startcal.mask 32 }

/-- The settings before the rounds. -/
def beginCal : Adc16CalRegs :=
  let clkDivTemp := adc16ConvCfg1ClockDivider.get regs.convCfg1
  let regs := (regs.writeClockDivider 1).enableClock
  let config0 := regs.adc16Config0 |||
    (adc16Config0RegEn.mask 32 ||| adc16Config0BandgapEn.mask 32)
  let regs := { regs with
    adc16Config0 := config0 &&& ~~~adc16Config0CalAvgCfg.mask 32 ||| adc16Config0CalAvgCfg.set 5
    adcCfg0 := regs.adcCfg0 ||| adc16AdcCfg0AdcAhbEn.mask 32 }
  regs.disableClock.writeClockDivider clkDivTemp

/-- The parameters and the factor are written. -/
def endCal (params : Nat → BitVec 32) (param32 : BitVec 32) : Adc16CalRegs :=
  let clkDivTemp := adc16ConvCfg1ClockDivider.get regs.convCfg1
  let regs := regs.enableClock.writeClockDivider 1
  let temp := regs.adc16Config0 &&&
    ~~~(adc16Config0CalAvgCfg.mask 32 ||| adc16Config0ConvParam.mask 32)
  let regs := { regs with
    adc16Params := fun i => (params i).setWidth 16
    adc16Config0 := temp ||| (adc16Config0RegEn.mask 32 ||| adc16Config0BandgapEn.mask 32 |||
      adc16Config0CalAvgCfg.mask 32 ||| adc16Config0ConvParam.set param32) }
  (regs.writeClockDivider clkDivTemp).disableClock

end Adc16CalRegs

/-! ## The parameters -/

/-- `adc16_params` behind the four rounds. -/
def adc16Accumulate (readings : Adc16Readings) : Nat → BitVec 32 :=
  (List.range 4).foldl (fun params j => fun i => params i + (readings j i).setWidth 32)
    (fun _ => 0)

/-- An iteration of the loop of prefix sums, for the entry `i + 1`. -/
def adc16PrefixStep (params : Nat → BitVec 32) (i : Nat) : Nat → BitVec 32 :=
  Function.update params (i + 1) (params 32 + params (i + 1) - params 33 + params i)

/-- `param01`, whose bits are those of the difference. -/
def adc16Param01 (readings : Adc16Readings) : BitVec 32 :=
  adc16Accumulate readings 32 - (adc16Accumulate readings 33 - 0x800)

/-- `adc16_params` before the loop of prefix sums. -/
def adc16Offsets (readings : Adc16Readings) : Nat → BitVec 32 :=
  let params := adc16Accumulate readings
  let params := Function.update params 33 (params 33 - 0x800)
  let params := Function.update params 32 (params 0 - params 33)
  Function.update params 0 0

/-- `adc16_params` with the prefix sums. -/
def adc16Params (readings : Adc16Readings) : Nat → BitVec 32 :=
  (List.range (adc16CaliRegLen - 3)).foldl adc16PrefixStep (adc16Offsets readings)

/-- The sum whose upper bits are `param02`. -/
def adc16ParamSum (readings : Adc16Readings) : BitVec 32 :=
  adc16Param01 readings + adc16Params readings 31 + adc16Params readings 32

/-- `param02`. -/
def adc16Param02 (readings : Adc16Readings) : BitVec 32 := adc16ParamSum readings >>> 6

/-- What `param64` is divided by. -/
def adc16Divisor (readings : Adc16Readings) : BitVec 32 := 0x20000 - adc16Param02 readings / 2

/-- `param32`: the product and the quotient are in 64 bits. -/
def adc16Param32 (readings : Adc16Readings) : BitVec 32 :=
  (0x10000 * (adc16Param02 readings).setWidth 64 /
    (adc16Divisor readings).setWidth 64).setWidth 32

/-- `adc16_do_calibration`. -/
def adc16DoCalibration (readings : Adc16Readings) (regs : Adc16CalRegs) :
    Option (HpmStat × Adc16CalRegs) :=
  let regs := regs.beginCal.startCal.startCal.startCal.startCal
  if adc16Divisor readings = 0 then none
  else
    some (.success,
      regs.endCal (fun i => adc16Params readings i >>> 6) (adc16Param32 readings))

/-! ## The contract -/

section Exact

variable (readings : Adc16Readings)

/-- The sum of a parameter over the rounds. -/
def adc16Total (i : Nat) : Int := ∑ j ∈ Finset.range 4, ((readings j i).toNat : Int)

/-- The offset of a sum. -/
def adc16Offset : Int := adc16Total readings 33 - 0x800

/-- What each entry of the prefix sums has beside its own reading. -/
def adc16Bias : Int := adc16Total readings 0 - 2 * adc16Offset readings

/-- The prefix sum of the first `i` parameters behind the one at 0. -/
def adc16PrefixSum (i : Nat) : Int :=
  ∑ k ∈ Finset.range i, adc16Total readings (k + 1) + i * adc16Bias readings

/-- The total that the factor is made of. -/
def adc16Sum : Int :=
  adc16Total readings 32 + adc16Total readings 0 - 2 * adc16Offset readings +
    adc16PrefixSum readings 31

end Exact

/-- What is asked of a calibration: nothing is divided by 0, each value that is kept on the way is
the one that it stands for, and so are the parameters and the factor in their registers. -/
structure Adc16CalibrationMeets (readings : Adc16Readings) (regs : Adc16CalRegs) : Prop where
  returns : (adc16DoCalibration readings regs).isSome
  offset : ((adc16Params readings 33).toNat : Int) = adc16Offset readings
  param01 : (adc16Param01 readings).toInt = adc16Total readings 32 - adc16Offset readings
  param32 : ((adc16Params readings 32).toNat : Int) =
    adc16Total readings 0 - adc16Offset readings
  prefixes : ∀ i < 32, ((adc16Params readings i).toNat : Int) = adc16PrefixSum readings i
  sum : ((adc16ParamSum readings).toNat : Int) = adc16Sum readings
  divisor : ((adc16Divisor readings).toNat : Int) = 0x20000 - adc16Sum readings / 64 / 2
  params : ∀ stat regs', adc16DoCalibration readings regs = some (stat, regs') →
    ∀ i : Fin adc16CaliRegLen, (regs'.adc16Params i).toNat = (adc16Params readings i).toNat / 64
  factor : ∀ stat regs', adc16DoCalibration readings regs = some (stat, regs') →
    ((adc16Config0ConvParam.get regs'.adc16Config0).toNat : Int) =
      0x10000 * (adc16Sum readings / 64) / (0x20000 - adc16Sum readings / 64 / 2)

/-- The readings that come out right: the offset is between 0 and the sum of the first parameter,
no prefix sum is negative or needs more than 22 bits, and neither is the total negative or as large
as would need a factor of 15 bits. -/
structure Adc16ReadingsFit (readings : Adc16Readings) : Prop where
  offset : 0 ≤ adc16Offset readings
  first : adc16Offset readings ≤ adc16Total readings 0
  prefixes : ∀ i < 32, 0 ≤ adc16PrefixSum readings i ∧ adc16PrefixSum readings i < 2 ^ 22
  sum : 0 ≤ adc16Sum readings ∧ adc16Sum readings < 29128 * 64

/-! ## What the values stand for -/

section Values

variable {readings : Adc16Readings}

/-- Four readings of 16 bits are far from the bounds of an `int32_t`. -/
theorem adc16Total_bounds (readings : Adc16Readings) (i : Nat) :
    0 ≤ adc16Total readings i ∧ adc16Total readings i ≤ 4 * 65535 := by
  unfold adc16Total
  simp only [Finset.sum_range_succ, Finset.sum_range_zero]
  have h0 := (readings 0 i).isLt
  have h1 := (readings 1 i).isLt
  have h2 := (readings 2 i).isLt
  have h3 := (readings 3 i).isLt
  omega

/-- The array holds the totals. -/
theorem adc16Accumulate_standsFor (i : Nat) :
    StandsFor (adc16Accumulate readings i) (adc16Total readings i) := by
  have hreading : ∀ j, StandsFor ((readings j i).setWidth 32) (readings j i).toNat := fun j =>
    (standsFor_toNat _).congr
      (congrArg Nat.cast (BitVec.toNat_setWidth_of_le (show 16 ≤ 32 by decide)))
  unfold adc16Total
  simp only [Finset.sum_range_succ, Finset.sum_range_zero]
  exact (((standsFor_zero.add (hreading 0)).add (hreading 1)).add (hreading 2)).add (hreading 3)

/-- The offset, which may be negative, is stood for by an unsigned entry. -/
theorem adc16Accumulate_offset :
    StandsFor (adc16Accumulate readings 33 - 0x800) (adc16Offset readings) :=
  (adc16Accumulate_standsFor 33).sub (standsFor_toNat 0x800)

/-- The array before the loop, by its entries. -/
theorem adc16Offsets_standsFor (readings : Adc16Readings) :
    StandsFor (adc16Offsets readings 0) 0 ∧
      (∀ i, 0 < i → i < 32 → StandsFor (adc16Offsets readings i) (adc16Total readings i)) ∧
      StandsFor (adc16Offsets readings 32) (adc16Total readings 0 - adc16Offset readings) ∧
      StandsFor (adc16Offsets readings 33) (adc16Offset readings) := by
  unfold adc16Offsets
  refine ⟨?_, fun i hi hlt => ?_, ?_, ?_⟩
  · rw [Function.update_self]
    exact standsFor_zero
  · rw [Function.update_of_ne hi.ne', Function.update_of_ne hlt.ne,
      Function.update_of_ne (hlt.trans (by decide)).ne]
    exact adc16Accumulate_standsFor i
  · rw [Function.update_of_ne (by decide), Function.update_self,
      Function.update_of_ne (show (0 : Nat) ≠ 33 by decide), Function.update_self]
    exact (adc16Accumulate_standsFor 0).sub adc16Accumulate_offset
  · rw [Function.update_of_ne (by decide), Function.update_of_ne (by decide),
      Function.update_self]
    exact adc16Accumulate_offset

/-- One round of the prefix sums, on integers. -/
theorem adc16PrefixSum_succ (i : Nat) :
    adc16Total readings 0 - adc16Offset readings + adc16Total readings (i + 1) -
        adc16Offset readings + adc16PrefixSum readings i =
      adc16PrefixSum readings (i + 1) := by
  unfold adc16PrefixSum adc16Bias
  rw [Finset.sum_range_succ]
  push_cast
  ring

/-- Behind `k` iterations the entries up to `k` are prefix sums and the others as before. -/
theorem adc16PrefixLoop_standsFor : ∀ k ≤ 31,
    (∀ i ≤ k, StandsFor ((List.range k).foldl adc16PrefixStep (adc16Offsets readings) i)
        (adc16PrefixSum readings i)) ∧
      ∀ i, k < i → (List.range k).foldl adc16PrefixStep (adc16Offsets readings) i =
        adc16Offsets readings i
  | 0, _ => by
    refine ⟨fun i hi => ?_, fun _ _ => rfl⟩
    obtain rfl : i = 0 := Nat.le_zero.mp hi
    exact (adc16Offsets_standsFor readings).1.congr (by simp [adc16PrefixSum])
  | k + 1, hk => by
    obtain ⟨hdone, hrest⟩ := adc16PrefixLoop_standsFor k (by omega)
    obtain ⟨-, htotal, hfirst, hoffset⟩ := adc16Offsets_standsFor readings
    rw [List.range_succ, List.foldl_append]
    generalize (List.range k).foldl adc16PrefixStep (adc16Offsets readings) = params
      at hdone hrest ⊢
    show (∀ i ≤ k + 1, StandsFor (adc16PrefixStep params k i) _) ∧
      ∀ i, k + 1 < i → adc16PrefixStep params k i = _
    unfold adc16PrefixStep
    rw [hrest 32 (by omega), hrest 33 (by omega), hrest (k + 1) (by omega)]
    refine ⟨fun i hi => ?_, fun i hi => ?_⟩
    · rcases hi.eq_or_lt with rfl | hlt
      · rw [Function.update_self]
        have hentry := htotal (k + 1) (by omega) (by omega)
        exact (((hfirst.add hentry).sub hoffset).add (hdone k le_rfl)).congr
          (adc16PrefixSum_succ k)
      · rw [Function.update_of_ne hlt.ne]
        exact hdone i (Nat.le_of_lt_succ hlt)
    · rw [Function.update_of_ne hi.ne', hrest i (by omega)]

/-- Behind the loops each entry stands for the prefix sum up to it. -/
theorem adc16Params_sums {i : Nat} (hi : i < 32) :
    StandsFor (adc16Params readings i) (adc16PrefixSum readings i) :=
  (adc16PrefixLoop_standsFor 31 le_rfl).1 i (Nat.le_of_lt_succ hi)

theorem adc16Params_first : StandsFor (adc16Params readings 32)
    (adc16Total readings 0 - adc16Offset readings) := by
  show StandsFor ((List.range 31).foldl adc16PrefixStep (adc16Offsets readings) 32) _
  rw [(adc16PrefixLoop_standsFor 31 le_rfl).2 32 (by decide)]
  exact (adc16Offsets_standsFor readings).2.2.1

theorem adc16Params_offset : StandsFor (adc16Params readings 33) (adc16Offset readings) := by
  show StandsFor ((List.range 31).foldl adc16PrefixStep (adc16Offsets readings) 33) _
  rw [(adc16PrefixLoop_standsFor 31 le_rfl).2 33 (by decide)]
  exact (adc16Offsets_standsFor readings).2.2.2

/-- The signed parameter stands for the last total without its offset. -/
theorem adc16Param01_standsFor : StandsFor (adc16Param01 readings)
    (adc16Total readings 32 - adc16Offset readings) :=
  (adc16Accumulate_standsFor 32).sub adc16Accumulate_offset

/-- The total that the conversion factor is divided by. -/
theorem adc16ParamSum_standsFor : StandsFor (adc16ParamSum readings) (adc16Sum readings) := by
  refine ((adc16Param01_standsFor.add (adc16Params_sums (by decide))).add
    adc16Params_first).congr ?_
  unfold adc16Sum
  ring

end Values

/-! ## What is written -/

section Written

variable {readings : Adc16Readings} {regs regs' : Adc16CalRegs} {stat : HpmStat}

/-- The factor as it is read back. -/
theorem convParam_endCal (params : Nat → BitVec 32) (param32 : BitVec 32) :
    (adc16Config0ConvParam.get (regs.endCal params param32).adc16Config0).toNat =
      param32.toNat % 2 ^ adc16Config0ConvParam.width := by
  have hzero : ∀ temp : BitVec 32, adc16Config0ConvParam.get
      (temp &&& ~~~(adc16Config0CalAvgCfg.mask 32 ||| adc16Config0ConvParam.mask 32)) = 0#32 := by
    intro temp
    rw [BitVec.not_or, ← BitVec.and_assoc, RegField.get_clear]
  show (adc16Config0ConvParam.get (_ ||| (_ ||| _ ||| _ ||| _))).toNat = _
  rw [RegField.get_or, hzero, RegField.get_or, RegField.get_or, RegField.get_or,
    RegField.get_mask_of_apart (show adc16Config0ConvParam.Apart adc16Config0RegEn by decide),
    RegField.get_mask_of_apart (show adc16Config0ConvParam.Apart adc16Config0BandgapEn by decide),
    RegField.get_mask_of_apart (show adc16Config0ConvParam.Apart adc16Config0CalAvgCfg by decide)]
  simp only [BitVec.zero_or]
  exact RegField.get_set_toNat _ (by decide)

/-- A calibration that has a result does not divide by 0 and ends with the writes. -/
theorem adc16DoCalibration_eq_some (h : adc16DoCalibration readings regs = some (stat, regs')) :
    adc16Divisor readings ≠ 0 ∧ ∃ regs₀ : Adc16CalRegs,
      regs' = regs₀.endCal (fun i => adc16Params readings i >>> 6) (adc16Param32 readings) := by
  unfold adc16DoCalibration at h
  dsimp only at h
  by_cases hzero : adc16Divisor readings = 0
  · rw [if_pos hzero] at h
    cases h
  · rw [if_neg hzero] at h
    obtain ⟨-, rfl⟩ := Prod.mk.inj (Option.some.inj h)
    exact ⟨hzero, _, rfl⟩

end Written

/-! ## When a calibration is right -/

section Meets

variable {readings : Adc16Readings} {regs : Adc16CalRegs}

/-- The readings of a calibration that is right. -/
theorem Adc16CalibrationMeets.fits (h : Adc16CalibrationMeets readings regs) :
    Adc16ReadingsFit readings := by
  obtain ⟨⟨stat, regs'⟩, hrun⟩ := Option.isSome_iff_exists.mp h.returns
  have hdivisor : 0 < adc16Divisor readings := by
    have hne := (adc16DoCalibration_eq_some hrun).1
    exact BitVec.toNat_pos_of_ne_zero hne
  have hfirst := (adc16Params_first.toNat_eq_iff.mp h.param32).1
  have hsum := (adc16ParamSum_standsFor.toNat_eq_iff.mp h.sum).1
  refine ⟨(adc16Params_offset.toNat_eq_iff.mp h.offset).1, by omega, fun i hi => ?_, hsum, ?_⟩
  · have hword := h.params stat regs' hrun ⟨i, hi.trans (by decide)⟩
    have hlt := (regs'.adc16Params ⟨i, hi.trans (by decide)⟩).isLt
    have hvalue := h.prefixes i hi
    dsimp only at hword
    omega
  · have hpos : 0 < 0x20000 - adc16Sum readings / 64 / 2 := by
      rw [← h.divisor]
      exact Int.natCast_pos.mpr hdivisor
    have hlt : (adc16Config0ConvParam.get regs'.adc16Config0).toNat < 16384 :=
      RegField.get_lt _ (by decide)
    have hfactor := h.factor stat regs' hrun
    have hquotient : 0x10000 * (adc16Sum readings / 64) /
        (0x20000 - adc16Sum readings / 64 / 2) < 16384 := by
      rw [← hfactor]
      exact Int.ofNat_lt.mpr hlt
    rw [Int.ediv_lt_iff_lt_mul hpos] at hquotient
    omega

/-- Every entry of the array fits its register behind the shift. -/
theorem Adc16ReadingsFit.params_lt (h : Adc16ReadingsFit readings) :
    ∀ i < adc16CaliRegLen, (adc16Params readings i).toNat < 2 ^ 22 := by
  intro i hi
  have hi' : i < 34 := hi
  have hzero := (adc16Total_bounds readings 0).2
  have hoffset := h.offset
  have hfirst := h.first
  rcases Nat.lt_or_ge i 32 with hlt | hge
  · obtain ⟨hpos, hsmall⟩ := h.prefixes i hlt
    have hvalue := (adc16Params_sums hlt).toNat_eq_iff.mpr ⟨hpos, by omega⟩
    omega
  · obtain rfl | rfl : i = 32 ∨ i = 33 := by omega
    · have hvalue := (@adc16Params_first readings).toNat_eq_iff.mpr ⟨by omega, by omega⟩
      omega
    · have hvalue := (@adc16Params_offset readings).toNat_eq_iff.mpr ⟨by omega, by omega⟩
      omega

/-- The divisor and the factor of a total that is in range. -/
theorem adc16Factor_of_sum {sum : Nat} (hsum : (adc16ParamSum readings).toNat = sum)
    (hlt : sum < 29128 * 64) :
    (adc16Divisor readings).toNat = 0x20000 - sum / 64 / 2 ∧
      (adc16Param32 readings).toNat = 0x10000 * (sum / 64) / (0x20000 - sum / 64 / 2) ∧
      (adc16Param32 readings).toNat < 2 ^ adc16Config0ConvParam.width := by
  have hparam02 : (adc16Param02 readings).toNat = sum / 64 := by
    unfold adc16Param02
    rw [BitVec.toNat_ushiftRight, hsum, Nat.shiftRight_eq_div_pow]
  have hhalf : (adc16Param02 readings / 2).toNat = sum / 64 / 2 := by
    rw [BitVec.toNat_udiv, hparam02]
    rfl
  have hdivisor : (adc16Divisor readings).toNat = 0x20000 - sum / 64 / 2 := by
    have hle : adc16Param02 readings / 2 ≤ 0x20000 := by
      rw [BitVec.le_def, hhalf]
      show sum / 64 / 2 ≤ 0x20000
      omega
    unfold adc16Divisor
    rw [BitVec.toNat_sub_of_le hle, hhalf]
    rfl
  have hpos : 0 < 0x20000 - sum / 64 / 2 := by omega
  have hquotient : 0x10000 * (sum / 64) / (0x20000 - sum / 64 / 2) < 16384 := by
    rw [Nat.div_lt_iff_lt_mul hpos]
    omega
  have hfactor : (adc16Param32 readings).toNat =
      0x10000 * (sum / 64) / (0x20000 - sum / 64 / 2) := by
    have hproduct : (0x10000 * (adc16Param02 readings).setWidth 64).toNat =
        0x10000 * (sum / 64) := by
      rw [BitVec.toNat_mul, BitVec.toNat_setWidth_of_le (by decide), hparam02]
      refine Nat.mod_eq_of_lt ?_
      show 0x10000 * (sum / 64) < 2 ^ 64
      omega
    unfold adc16Param32
    rw [BitVec.toNat_setWidth, BitVec.toNat_udiv, hproduct,
      BitVec.toNat_setWidth_of_le (by decide), hdivisor]
    exact Nat.mod_eq_of_lt (hquotient.trans (by decide))
  exact ⟨hdivisor, hfactor, hfactor ▸ hquotient⟩

/-- Readings that fit are calibrated right. -/
theorem Adc16ReadingsFit.meets (h : Adc16ReadingsFit readings) :
    Adc16CalibrationMeets readings regs := by
  have hzero := (adc16Total_bounds readings 0).2
  have hlast := adc16Total_bounds readings 32
  have hoffset := h.offset
  have hfirst := h.first
  obtain ⟨hsumPos, hsumLt⟩ := h.sum
  have hsum := adc16ParamSum_standsFor.toNat_eq_iff.mpr ⟨hsumPos, by omega⟩
  have hword : (adc16ParamSum readings).toNat < 29128 * 64 := by omega
  obtain ⟨hdivisor, hfactor, hsmall⟩ := adc16Factor_of_sum rfl hword
  have hne : adc16Divisor readings ≠ 0 := by
    intro hzero
    rw [hzero] at hdivisor
    have hval : (0 : BitVec 32).toNat = 0 := rfl
    omega
  refine {
    returns := ?_
    offset := adc16Params_offset.toNat_eq_iff.mpr ⟨hoffset, by omega⟩
    param01 := adc16Param01_standsFor.toInt_eq (by decide) (by omega) (by omega)
    param32 := adc16Params_first.toNat_eq_iff.mpr ⟨by omega, by omega⟩
    prefixes := fun i hi => ?_
    sum := hsum
    divisor := ?_
    params := fun stat regs' hrun i => ?_
    factor := fun stat regs' hrun => ?_ }
  · unfold adc16DoCalibration
    dsimp only
    rw [if_neg hne]
    rfl
  · obtain ⟨hpos, hlt⟩ := h.prefixes i hi
    exact (adc16Params_sums hi).toNat_eq_iff.mpr ⟨hpos, by omega⟩
  · rw [hdivisor]
    omega
  · obtain ⟨-, regs₀, rfl⟩ := adc16DoCalibration_eq_some hrun
    have hlt := h.params_lt i i.isLt
    show ((adc16Params readings i >>> 6).setWidth 16).toNat = _
    rw [BitVec.toNat_setWidth, BitVec.toNat_ushiftRight, Nat.shiftRight_eq_div_pow]
    exact Nat.mod_eq_of_lt (by omega)
  · obtain ⟨-, regs₀, rfl⟩ := adc16DoCalibration_eq_some hrun
    have hsub : ((0x20000 - (adc16ParamSum readings).toNat / 64 / 2 : Nat) : Int) =
        0x20000 - adc16Sum readings / 64 / 2 := by omega
    rw [convParam_endCal, Nat.mod_eq_of_lt hsmall, hfactor, Int.natCast_ediv, hsub, ← hsum]
    rfl

end Meets

/-- A calibration is right exactly for the readings that fit.

The parameters are sums of differences with an offset that is itself a reading, in 32 bits and
without a check.  As numbers they are prefix sums over the readings; the fields hold them, and the
divisor of the last one is not zero, exactly where these sums stay in the ranges that
`Adc16ReadingsFit` lists. -/
theorem adc16CalibrationMeets_iff (readings : Adc16Readings) (regs : Adc16CalRegs) :
    Adc16CalibrationMeets readings regs ↔ Adc16ReadingsFit readings :=
  ⟨fun h => h.fits, fun h => h.meets⟩

/-- Registers that read as 0 have a negative offset; full readings of the first 32 parameters and
none of the offset divide by 0. -/
theorem adc16CalibrationMeets_broken :
    ¬ Adc16CalibrationMeets (fun _ _ => 0) default ∧
      adc16DoCalibration
        (fun _ i => if i < 32 then 0xFFFF else if i = 32 then 0x803F else 0) default = none := by
  constructor
  · exact fun h => absurd h.fits.offset (by decide)
  · have hzero : adc16Divisor
        (fun _ i => if i < 32 then 0xFFFF else if i = 32 then 0x803F else 0) = 0 := by decide
    unfold adc16DoCalibration
    rw [hzero]
    rfl

end HpmSdk.Adc
