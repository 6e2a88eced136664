import HpmSdk.Common
import HpmSdk.Foundation.Registers
import HpmSdk.Foundation.While

set_option autoImplicit false

/-!
# ADC12: initialisation and calibration (`hpm_adc12_drv.c`)

A calibration is started and polled a number of times.  The counter goes one down behind each poll
that finds the converter busy, and once more, below 0, behind the poll that ends the loop; only a
counter of 0 is taken for a timeout.  `adc12_init` calibrates twice and looks at neither status.
The readings of `ANA_STATUS` are a stream, and a run has the number of those it took.

A call is brought to the first poll at which the converter is idle: `FirstFails` names it, and the
status and what is left of the counter follow from whether it is before the limit.
-/

namespace HpmSdk.Adc

open HpmSdk.Foundation

/-! ## The registers -/

/-- `ADC12_SAMPLE_CFG_DIFF_SEL`. -/
def sampleCfgDiffSel : RegField := ⟨12, 1⟩

/-- `ADC12_SAMPLE_CFG_SAMPLE_CLOCK_NUMBER_SHIFT`. -/
def sampleCfgSampleClockNumberShift : RegField := ⟨9, 3⟩

/-- `ADC12_SAMPLE_CFG_SAMPLE_CLOCK_NUMBER`. -/
def sampleCfgSampleClockNumber : RegField := ⟨0, 9⟩

/-- `ADC12_CONV_CFG1_CONVERT_CLOCK_NUMBER`. -/
def convCfg1ConvertClockNumber : RegField := ⟨4, 5⟩

/-- `ADC12_CONV_CFG1_CLOCK_DIVIDER`. -/
def convCfg1ClockDivider : RegField := ⟨0, 4⟩

/-- `ADC12_ADC_CFG0_SEL_SYNC_AHB`. -/
def adcCfg0SelSyncAhb : RegField := ⟨31, 1⟩

/-- `ADC12_ADC_CFG0_ADC_AHB_EN`. -/
def adcCfg0AdcAhbEn : RegField := ⟨29, 1⟩

/-- `ADC12_BUF_CFG0_WAIT_DIS`. -/
def bufCfg0WaitDis : RegField := ⟨0, 1⟩

/-- `ADC12_PRD_CFG_PRD_THSHD_CFG_THSHDH`. -/
def prdThshdCfgThshdh : RegField := ⟨16, 16⟩

/-- `ADC12_PRD_CFG_PRD_THSHD_CFG_THSHDL`. -/
def prdThshdCfgThshdl : RegField := ⟨0, 16⟩

/-- `ADC12_ANA_CTRL0_CAL_VAL_DIFF`. -/
def anaCtrl0CalValDiff : RegField := ⟨24, 7⟩

/-- `ADC12_ANA_CTRL0_CAL_VAL_SE`. -/
def anaCtrl0CalValSe : RegField := ⟨16, 7⟩

/-- `ADC12_ANA_CTRL0_REARM_EN`. -/
def anaCtrl0RearmEn : RegField := ⟨14, 1⟩

/-- `ADC12_ANA_CTRL0_ENLDO`. -/
def anaCtrl0Enldo : RegField := ⟨6, 1⟩

/-- `ADC12_ANA_CTRL0_ENADC`. -/
def anaCtrl0Enadc : RegField := ⟨5, 1⟩

/-- `ADC12_ANA_CTRL0_RESETADC`. -/
def anaCtrl0Resetadc : RegField := ⟨4, 1⟩

/-- `ADC12_ANA_CTRL0_RESETCAL`. -/
def anaCtrl0Resetcal : RegField := ⟨3, 1⟩

/-- `ADC12_ANA_CTRL0_STARTCAL`. -/
def anaCtrl0Startcal : RegField := ⟨2, 1⟩

/-- `ADC12_ANA_CTRL1_SELRES`. -/
def anaCtrl1Selres : RegField := ⟨6, 2⟩

/-- `ADC12_ANA_STATUS_CALON`. -/
def anaStatusCalon : RegField := ⟨7, 1⟩

/-- `ADC12_ANA_STATUS_CAL_OUT`. -/
def anaStatusCalOut : RegField := ⟨0, 7⟩

/-- The channels: `ADC12_SAMPLE_CFG_CHN0` to `ADC12_SAMPLE_CFG_CHN18`. -/
def adc12Channels : Nat := 19

/-- The registers of `ADC12_Type` that the initialisation writes. -/
structure Adc12Regs where
  bufCfg0 : BitVec 32
  prdThshdCfg : Fin adc12Channels → BitVec 32
  sampleCfg : Fin adc12Channels → BitVec 32
  convCfg1 : BitVec 32
  adcCfg0 : BitVec 32
  anaCtrl0 : BitVec 32
  anaCtrl1 : BitVec 32
  deriving Inhabited

/-- The registers, and the number of readings of `ANA_STATUS` so far. -/
structure Adc12Run where
  regs : Adc12Regs
  reads : Nat

/-- `ADC12_CALIBRATION_WAITING_LOOP_CNT`. -/
def adc12CalibrationWaitingLoopCnt : Nat := 10

/-- `ADC12_CLOCK_CLK_DIV`. -/
def adc12ClockClkDiv : BitVec 32 := 2

/-- `adc12_sample_signal_single_ended`. -/
def adc12SampleSignalSingleEnded : BitVec 32 := 0

/-- `adc12_sample_signal_differential`. -/
def adc12SampleSignalDifferential : BitVec 32 := 1

/-- `adc12_res_12_bits`. -/
def adc12Res12Bits : BitVec 8 := 3

/-- `adc12_conv_mode_oneshot`. -/
def adc12ConvModeOneshot : BitVec 8 := 0

/-- `adc12_config_t`. -/
structure Adc12Config where
  ch : BitVec 8
  diffSel : BitVec 8
  res : BitVec 8
  sampleCycleShift : BitVec 8
  convMode : BitVec 8
  waitDis : BitVec 8
  thshdh : BitVec 16
  thshdl : BitVec 16
  sampleCycle : BitVec 32
  adcClkDiv : BitVec 32
  selSyncAhb : Bool
  adcAhbEn : Bool

/-! ## A calibration -/

/-- A reading of `ANA_STATUS` with the calibration on. -/
def Adc12Busy (status : BitVec 32) : Prop := anaStatusCalon.get status ≠ 0

instance (status : BitVec 32) : Decidable (Adc12Busy status) := inferInstanceAs (Decidable (_ ≠ _))

/-- `while (CALON && loop_cnt--)`: the counter behind the loop, and the number of readings. -/
def adc12Poll (status : Nat → BitVec 32) : (loopCnt reads : Nat) → BitVec 32 × Nat
  | 0, reads =>
    -- a poll that is busy at a counter of 0 ends the loop too, and takes 1 from the counter
    (if Adc12Busy (status reads) then 0 - 1 else 0, reads + 1)
  | n + 1, reads =>
    if Adc12Busy (status reads) then adc12Poll status n (reads + 1)
    else (BitVec.ofNat 32 (n + 1), reads + 1)

namespace Adc12Regs

variable (regs : Adc12Regs)

/-- The signal is selected and a calibration started. -/
def startCalibration (diffSel : BitVec 32) : Adc12Regs :=
  let a := regs.anaCtrl0 ||| anaCtrl0Resetcal.mask 32
  let a := a &&& ~~~(anaCtrl0Resetcal.mask 32 ||| anaCtrl0Resetadc.mask 32)
  let a := a ||| anaCtrl0Startcal.mask 32
  let a := a &&& ~~~anaCtrl0Startcal.mask 32
  { regs with
    sampleCfg := Function.update regs.sampleCfg ⟨0, by decide⟩ (sampleCfgDiffSel.set diffSel)
    anaCtrl0 := a ||| anaCtrl0RearmEn.mask 32 }

/-- The result of a calibration is stored. -/
def storeCalOut (diffSel calOut : BitVec 32) : Adc12Regs :=
  { regs with
    anaCtrl0 := if diffSel = adc12SampleSignalSingleEnded then
        regs.anaCtrl0 &&& ~~~anaCtrl0CalValSe.mask 32 ||| anaCtrl0CalValSe.set calOut
      else regs.anaCtrl0 &&& ~~~anaCtrl0CalValDiff.mask 32 ||| anaCtrl0CalValDiff.set calOut }

/-- The divider of the clock is written beside the other fields of its register. -/
def writeClockDivider (adcClkDiv : BitVec 32) : Adc12Regs :=
  { regs with
    convCfg1 := regs.convCfg1 &&& ~~~convCfg1ClockDivider.mask 32 |||
      convCfg1ClockDivider.set adcClkDiv }

end Adc12Regs

/-- `adc12_do_calibration`. -/
def adc12DoCalibration (status : Nat → BitVec 32) (s : Adc12Run) (diffSel : BitVec 32) :
    HpmStat × Adc12Run :=
  if diffSel > adc12SampleSignalDifferential then (.invalidArgument, s)
  else
    let regs := s.regs.startCalibration diffSel
    let poll := adc12Poll status adc12CalibrationWaitingLoopCnt s.reads
    if poll.1 = 0 then (.timeout, ⟨regs, poll.2⟩)
    else
      (.success, ⟨regs.storeCalOut diffSel (anaStatusCalOut.get (status poll.2)), poll.2 + 1⟩)

/-! ## The initialisation -/

namespace Adc12Regs

variable (regs : Adc12Regs) (config : Adc12Config)

/-- The settings before the calibrations, for a channel of the converter. -/
def writeSettings (ch : Fin adc12Channels) : Adc12Regs :=
  { regs with
    convCfg1 := convCfg1ConvertClockNumber.set (2 * config.res.setWidth 32 + 7) |||
      convCfg1ClockDivider.set config.adcClkDiv
    adcCfg0 := adcCfg0SelSyncAhb.set ((BitVec.ofBool config.selSyncAhb).setWidth 32) |||
      adcCfg0AdcAhbEn.set ((BitVec.ofBool config.adcAhbEn).setWidth 32)
    bufCfg0 := if config.convMode = adc12ConvModeOneshot then
      bufCfg0WaitDis.set (config.waitDis.setWidth 32) else regs.bufCfg0
    prdThshdCfg := Function.update regs.prdThshdCfg ch
      (prdThshdCfgThshdh.set (config.thshdh.setWidth 32) |||
        prdThshdCfgThshdl.set (config.thshdl.setWidth 32))
    anaCtrl0 := regs.anaCtrl0 ||| anaCtrl0Enldo.mask 32 }

/-- A divider that the calibration cannot do with is one up for its time. -/
def beginCalibrations : Adc12Regs :=
  let regs := if config.adcClkDiv = adc12ClockClkDiv then
    regs.writeClockDivider (config.adcClkDiv + 1) else regs
  { regs with anaCtrl0 := regs.anaCtrl0 ||| anaCtrl0Enadc.mask 32 }

/-- The divider is restored, and the sampling of the channel set. -/
def endCalibrations (ch : Fin adc12Channels) : Adc12Regs :=
  let regs := if config.adcClkDiv = adc12ClockClkDiv then
    regs.writeClockDivider config.adcClkDiv else regs
  { regs with
    sampleCfg := Function.update regs.sampleCfg ch
      (sampleCfgDiffSel.set (config.diffSel.setWidth 32) |||
        sampleCfgSampleClockNumberShift.set (config.sampleCycleShift.setWidth 32) |||
        sampleCfgSampleClockNumber.set config.sampleCycle) }

end Adc12Regs

/-- `adc12_init`. -/
def adc12Init (status : Nat → BitVec 32) (s : Adc12Run) (config : Adc12Config) :
    HpmStat × Adc12Run :=
  if hch : config.ch.toNat < adc12Channels then
    if config.res > adc12Res12Bits then (.invalidArgument, s)
    else
      let regs := { s.regs with
        anaCtrl1 := s.regs.anaCtrl1 &&& ~~~anaCtrl1Selres.mask 32 |||
          anaCtrl1Selres.set (config.res.setWidth 32) }
      if config.adcClkDiv > convCfg1ClockDivider.mask 32 then
        (.invalidArgument, { s with regs := regs })
      else
        let regs := (regs.writeSettings config ⟨config.ch.toNat, hch⟩).beginCalibrations config
        let single := (adc12DoCalibration status { s with regs := regs }
          adc12SampleSignalSingleEnded).2
        let differential := (adc12DoCalibration status single adc12SampleSignalDifferential).2
        (.success, { differential with
          regs := differential.regs.endCalibrations config ⟨config.ch.toNat, hch⟩ })
  else (.invalidArgument, s)

/-! ## The contract -/

/-- The calibration is found finished within the polls from a reading on. -/
def Adc12Finishes (status : Nat → BitVec 32) (reads : Nat) : Prop :=
  ∃ k < adc12CalibrationWaitingLoopCnt, ¬ Adc12Busy (status (reads + k))

/-- What is asked of a calibration of a signal that there is: the status is a timeout exactly where
it is not found finished, and then neither calibration value is stored. -/
structure Adc12CalibrationMeets (status : Nat → BitVec 32) (s : Adc12Run) (diffSel : BitVec 32) :
    Prop where
  timeout : diffSel ≤ adc12SampleSignalDifferential →
    ((adc12DoCalibration status s diffSel).1 = .timeout ↔ ¬ Adc12Finishes status s.reads)
  single : (adc12DoCalibration status s diffSel).1 = .timeout →
    anaCtrl0CalValSe.get (adc12DoCalibration status s diffSel).2.regs.anaCtrl0 =
      anaCtrl0CalValSe.get s.regs.anaCtrl0
  differential : (adc12DoCalibration status s diffSel).1 = .timeout →
    anaCtrl0CalValDiff.get (adc12DoCalibration status s diffSel).2.regs.anaCtrl0 =
      anaCtrl0CalValDiff.get s.regs.anaCtrl0

/-- What is asked of an initialisation: it succeeds only where both calibrations, the second one
from the readings that the first one leaves, are found finished; and the divider is the one of the
configuration behind it, or the one before where the configuration is rejected. -/
structure Adc12InitMeets (status : Nat → BitVec 32) (s : Adc12Run) (config : Adc12Config) :
    Prop where
  calibrated : (adc12Init status s config).1 = .success →
    Adc12Finishes status s.reads ∧ Adc12Finishes status
      (adc12DoCalibration status s adc12SampleSignalSingleEnded).2.reads
  restored : (adc12Init status s config).1 ≠ .invalidArgument →
    convCfg1ClockDivider.get (adc12Init status s config).2.regs.convCfg1 = config.adcClkDiv
  kept : (adc12Init status s config).1 = .invalidArgument →
    (adc12Init status s config).2.regs.convCfg1 = s.regs.convCfg1

/-- The configurations that the initialisation rejects. -/
def Adc12Config.Rejected (config : Adc12Config) : Prop :=
  adc12Channels ≤ config.ch.toNat ∨ config.res > adc12Res12Bits ∨
    config.adcClkDiv > convCfg1ClockDivider.mask 32

instance (config : Adc12Config) : Decidable config.Rejected :=
  inferInstanceAs (Decidable (_ ∨ _))

/-- Both calibrations are finished in the stream: the first one at the poll `k`, which one reading
of its result follows. -/
def Adc12BothFinish (status : Nat → BitVec 32) (reads : Nat) : Prop :=
  ∃ k < adc12CalibrationWaitingLoopCnt,
    FirstFails (fun m => Adc12Busy (status (reads + m))) k ∧ Adc12Finishes status (reads + k + 2)

/-! ## Polling -/

section Poll

variable {status : Nat → BitVec 32} {s : Adc12Run} {diffSel : BitVec 32} {config : Adc12Config}

/-- The counter behind a poll that finds the calibration finished. -/
theorem adc12Poll_of_firstFails : ∀ {n k reads : Nat}, k ≤ n →
    FirstFails (fun m => Adc12Busy (status (reads + m))) k →
      adc12Poll status n reads = (BitVec.ofNat 32 (n - k), reads + k + 1)
  | 0, k, reads, hk, h => by
    obtain rfl : k = 0 := Nat.le_zero.mp hk
    have hidle : ¬ Adc12Busy (status reads) := h.1
    rw [adc12Poll, if_neg hidle]
    rfl
  | n + 1, 0, reads, _, h => by
    have hidle : ¬ Adc12Busy (status reads) := h.1
    rw [adc12Poll, if_neg hidle]
    rfl
  | n + 1, k + 1, reads, hk, h => by
    have hrest := (firstFails_succ_iff
      (q := fun m => Adc12Busy (status (reads + 1 + m)))
      (fun m => by rw [show reads + (m + 1) = reads + 1 + m by omega])).mp h
    have hbusy : Adc12Busy (status reads) := hrest.1
    rw [adc12Poll, if_pos hbusy, adc12Poll_of_firstFails (Nat.le_of_succ_le_succ hk) hrest.2]
    rw [show n + 1 - (k + 1) = n - k by omega,
      show reads + 1 + k + 1 = reads + (k + 1) + 1 by omega]

/-- The counter behind a loop that never finds it finished. -/
theorem adc12Poll_of_busy : ∀ {n reads : Nat},
    (∀ m ≤ n, Adc12Busy (status (reads + m))) →
      adc12Poll status n reads = (0 - 1, reads + n + 1)
  | 0, reads, h => by
    have hbusy : Adc12Busy (status reads) := h 0 le_rfl
    rw [adc12Poll, if_pos hbusy]
  | n + 1, reads, h => by
    have hbusy : Adc12Busy (status reads) := h 0 (Nat.zero_le _)
    rw [adc12Poll, if_pos hbusy, adc12Poll_of_busy fun m hm => ?_]
    · exact Prod.ext rfl (by dsimp only; omega)
    · rw [show reads + 1 + m = reads + (m + 1) by omega]
      exact h (m + 1) (Nat.succ_le_succ hm)

/-- A converter that is idle at a poll before the limit has finished. -/
theorem finishes_of_firstFails {reads k : Nat} (hk : k < adc12CalibrationWaitingLoopCnt)
    (h : FirstFails (fun m => Adc12Busy (status (reads + m))) k) : Adc12Finishes status reads :=
  ⟨k, hk, h.1⟩

/-- A converter that is busy at each of the polls permitted has not finished, although the counter
is below 0 then and no timeout is seen. -/
theorem not_finishes_of_firstFails {reads k : Nat} (hk : adc12CalibrationWaitingLoopCnt ≤ k)
    (h : FirstFails (fun m => Adc12Busy (status (reads + m))) k) :
    ¬ Adc12Finishes status reads :=
  fun ⟨m, hm, hidle⟩ => hidle (h.2 m (hm.trans_le hk))

/-- A calibration that a poll finds finished while the counter is above 0. -/
theorem adc12DoCalibration_of_firstFails {k : Nat} (hsel : diffSel ≤ adc12SampleSignalDifferential)
    (hk : k < adc12CalibrationWaitingLoopCnt)
    (h : FirstFails (fun m => Adc12Busy (status (s.reads + m))) k) :
    (adc12DoCalibration status s diffSel).1 = .success ∧
      (adc12DoCalibration status s diffSel).2.reads = s.reads + k + 2 := by
  have hcnt : BitVec.ofNat 32 (adc12CalibrationWaitingLoopCnt - k) ≠ 0 := by
    have hlt : k < 10 := hk
    intro hzero
    have htoNat := congrArg BitVec.toNat hzero
    rw [BitVec.toNat_ofNat, show BitVec.toNat (0 : BitVec 32) = 0 from rfl] at htoNat
    unfold adc12CalibrationWaitingLoopCnt at htoNat
    omega
  unfold adc12DoCalibration
  rw [if_neg (BitVec.not_lt.mpr hsel), adc12Poll_of_firstFails hk.le h]
  dsimp only
  rw [if_neg hcnt]
  exact ⟨rfl, rfl⟩

/-- One that the last poll finds finished. -/
theorem adc12DoCalibration_of_last (hsel : diffSel ≤ adc12SampleSignalDifferential)
    (h : FirstFails (fun m => Adc12Busy (status (s.reads + m))) adc12CalibrationWaitingLoopCnt) :
    (adc12DoCalibration status s diffSel).1 = .timeout ∧
      (adc12DoCalibration status s diffSel).2.regs = s.regs.startCalibration diffSel := by
  unfold adc12DoCalibration
  rw [if_neg (BitVec.not_lt.mpr hsel), adc12Poll_of_firstFails le_rfl h, Nat.sub_self]
  exact ⟨rfl, rfl⟩

/-- One that no poll finds finished is not a timeout. -/
theorem adc12DoCalibration_of_busy (hsel : diffSel ≤ adc12SampleSignalDifferential)
    (h : ∀ m ≤ adc12CalibrationWaitingLoopCnt, Adc12Busy (status (s.reads + m))) :
    (adc12DoCalibration status s diffSel).1 = .success := by
  unfold adc12DoCalibration
  rw [if_neg (BitVec.not_lt.mpr hsel), adc12Poll_of_busy h]
  rfl

/-- The calibration values are beside the bits that start a calibration. -/
theorem startCalibration_calVal {f : RegField} (hcal : f.Apart anaCtrl0Resetcal)
    (hadc : f.Apart anaCtrl0Resetadc) (hstart : f.Apart anaCtrl0Startcal)
    (hrearm : f.Apart anaCtrl0RearmEn) (regs : Adc12Regs) :
    f.get (regs.startCalibration diffSel).anaCtrl0 = f.get regs.anaCtrl0 := by
  unfold Adc12Regs.startCalibration
  dsimp only
  rw [RegField.get_or, RegField.get_mask_of_apart hrearm, BitVec.or_zero,
    RegField.get_clear_of_apart _ hstart, RegField.get_or, RegField.get_mask_of_apart hstart,
    BitVec.or_zero, RegField.get_and_not_of_get_eq_zero, RegField.get_or,
    RegField.get_mask_of_apart hcal, BitVec.or_zero]
  rw [RegField.get_or, RegField.get_mask_of_apart hcal, RegField.get_mask_of_apart hadc,
    BitVec.or_zero]

/-- No calibration touches the divider. -/
theorem adc12DoCalibration_convCfg1 :
    (adc12DoCalibration status s diffSel).2.regs.convCfg1 = s.regs.convCfg1 := by
  unfold adc12DoCalibration
  dsimp only
  split
  · rfl
  · split <;> rfl

end Poll

/-! ## When a calibration is right -/

section Meets

variable {status : Nat → BitVec 32} {s : Adc12Run} {diffSel : BitVec 32} {config : Adc12Config}

/-- A calibration whose status is right where it is no timeout. -/
theorem calibrationMeets_of_finishes
    (hsuccess : (adc12DoCalibration status s diffSel).1 = .success)
    (hfinishes : Adc12Finishes status s.reads) : Adc12CalibrationMeets status s diffSel := by
  have hne : (adc12DoCalibration status s diffSel).1 ≠ .timeout := by
    rw [hsuccess]
    decide
  exact ⟨fun _ => iff_of_false hne (not_not.mpr hfinishes), fun h => absurd h hne,
    fun h => absurd h hne⟩

/-- A calibration is right where one of the readings up to the last poll finds it finished. -/
theorem calibrationMeets_iff : Adc12CalibrationMeets status s diffSel ↔
    diffSel > adc12SampleSignalDifferential ∨
      ∃ k ≤ adc12CalibrationWaitingLoopCnt, ¬ Adc12Busy (status (s.reads + k)) := by
  by_cases hsel : diffSel > adc12SampleSignalDifferential
  · have hrefused : adc12DoCalibration status s diffSel = (.invalidArgument, s) := if_pos hsel
    refine iff_of_true ⟨fun hle => absurd hsel (BitVec.not_lt.mpr hle), fun h => ?_, fun h => ?_⟩
      (.inl hsel)
    · rw [hrefused]
    · rw [hrefused]
  · have hle : diffSel ≤ adc12SampleSignalDifferential := BitVec.not_lt.mp hsel
    rw [or_iff_right hsel]
    rcases firstFails_or_forall (fun m => Adc12Busy (status (s.reads + m)))
      adc12CalibrationWaitingLoopCnt with ⟨k, hk, hfirst⟩ | hbusy
    · refine iff_of_true ?_ ⟨k, hk, hfirst.1⟩
      rcases hk.eq_or_lt with rfl | hlt
      · obtain ⟨htimeout, hregs⟩ := adc12DoCalibration_of_last hle hfirst
        have hnot := not_finishes_of_firstFails le_rfl hfirst
        refine ⟨fun _ => iff_of_true htimeout hnot, fun _ => ?_, fun _ => ?_⟩
        · rw [hregs]
          exact startCalibration_calVal (by decide) (by decide) (by decide) (by decide) _
        · rw [hregs]
          exact startCalibration_calVal (by decide) (by decide) (by decide) (by decide) _
      · exact calibrationMeets_of_finishes (adc12DoCalibration_of_firstFails hle hlt hfirst).1
          (finishes_of_firstFails hlt hfirst)
    · refine iff_of_false (fun h => ?_) fun ⟨k, hk, hidle⟩ => hidle (hbusy k hk)
      have htimeout := (h.timeout hle).mpr fun ⟨k, hk, hidle⟩ => hidle (hbusy k hk.le)
      rw [adc12DoCalibration_of_busy hle hbusy] at htimeout
      cases htimeout

/-- Both calibrations are finished where the first one is, and the second one is behind it. -/
theorem bothFinish_iff : Adc12BothFinish status s.reads ↔
    Adc12Finishes status s.reads ∧ Adc12Finishes status
      (adc12DoCalibration status s adc12SampleSignalSingleEnded).2.reads := by
  have hle : adc12SampleSignalSingleEnded ≤ adc12SampleSignalDifferential := by decide
  constructor
  · rintro ⟨k, hk, hfirst, hsecond⟩
    rw [(adc12DoCalibration_of_firstFails hle hk hfirst).2]
    exact ⟨finishes_of_firstFails hk hfirst, hsecond⟩
  · rintro ⟨⟨m, hm, hidle⟩, hsecond⟩
    rcases firstFails_or_forall (fun m => Adc12Busy (status (s.reads + m))) m with
      ⟨k, hk, hfirst⟩ | hbusy
    · have hlt := hk.trans_lt hm
      rw [(adc12DoCalibration_of_firstFails hle hlt hfirst).2] at hsecond
      exact ⟨k, hlt, hfirst, hsecond⟩
    · exact absurd (hbusy m le_rfl) hidle

/-- A rejected configuration leaves the divider. -/
theorem adc12Init_of_refused (status : Nat → BitVec 32) (s : Adc12Run) (h : config.Rejected) :
    (adc12Init status s config).1 = .invalidArgument ∧
      (adc12Init status s config).2.regs.convCfg1 = s.regs.convCfg1 := by
  unfold adc12Init
  by_cases hch : config.ch.toNat < adc12Channels
  · rw [dif_pos hch]
    by_cases hres : config.res > adc12Res12Bits
    · rw [if_pos hres]
      exact ⟨rfl, rfl⟩
    · have hdiv : config.adcClkDiv > convCfg1ClockDivider.mask 32 :=
        (h.resolve_left hch.not_ge).resolve_left hres
      rw [if_neg hres, if_pos hdiv]
      exact ⟨rfl, rfl⟩
  · rw [dif_neg hch]
    exact ⟨rfl, rfl⟩

/-- The register of the divider behind a store into it. -/
theorem get_writeClockDivider (regs : Adc12Regs) {adcClkDiv : BitVec 32}
    (hdiv : adcClkDiv.toNat < 2 ^ convCfg1ClockDivider.width) :
    convCfg1ClockDivider.get (regs.writeClockDivider adcClkDiv).convCfg1 = adcClkDiv := by
  refine BitVec.eq_of_toNat_eq ?_
  unfold Adc12Regs.writeClockDivider
  rw [RegField.get_store _ _ (by decide)]
  exact Nat.mod_eq_of_lt hdiv

/-- The settings have the divider, and the calibrations keep one that they can do with. -/
theorem get_settings (regs : Adc12Regs) (ch : Fin adc12Channels)
    (hdiv : config.adcClkDiv.toNat < 2 ^ convCfg1ClockDivider.width)
    (hne : config.adcClkDiv ≠ adc12ClockClkDiv) :
    convCfg1ClockDivider.get ((regs.writeSettings config ch).beginCalibrations config).convCfg1 =
      config.adcClkDiv := by
  unfold Adc12Regs.beginCalibrations
  rw [if_neg hne]
  unfold Adc12Regs.writeSettings
  dsimp only
  rw [RegField.get_or, RegField.get_set_of_apart _ (by decide), BitVec.zero_or]
  exact RegField.get_set_of_lt _ (by decide) hdiv

/-- The end of the calibrations stores a divider that was changed for them. -/
theorem get_endCalibrations (regs : Adc12Regs) (ch : Fin adc12Channels)
    (hdiv : config.adcClkDiv.toNat < 2 ^ convCfg1ClockDivider.width)
    (hkept : config.adcClkDiv ≠ adc12ClockClkDiv →
      convCfg1ClockDivider.get regs.convCfg1 = config.adcClkDiv) :
    convCfg1ClockDivider.get (regs.endCalibrations config ch).convCfg1 = config.adcClkDiv := by
  unfold Adc12Regs.endCalibrations
  by_cases htwo : config.adcClkDiv = adc12ClockClkDiv
  · rw [if_pos htwo]
    exact get_writeClockDivider regs hdiv
  · rw [if_neg htwo]
    exact hkept htwo

/-- An accepted one reports success and restores the divider. -/
theorem adc12Init_of_not_refused (status : Nat → BitVec 32) (s : Adc12Run)
    (h : ¬ config.Rejected) :
    (adc12Init status s config).1 = .success ∧
      convCfg1ClockDivider.get (adc12Init status s config).2.regs.convCfg1 =
        config.adcClkDiv := by
  unfold Adc12Config.Rejected at h
  push Not at h
  obtain ⟨hch, hres, hdiv⟩ := h
  have hlt : config.adcClkDiv.toNat < 2 ^ convCfg1ClockDivider.width :=
    Nat.lt_succ_of_le (BitVec.not_lt.mp hdiv)
  unfold adc12Init
  rw [dif_pos hch, if_neg hres, if_neg hdiv]
  refine ⟨rfl, get_endCalibrations _ _ hlt fun hne => ?_⟩
  rw [adc12DoCalibration_convCfg1, adc12DoCalibration_convCfg1]
  exact get_settings _ _ hlt hne

/-- An initialisation is right where it is rejected or both calibrations are finished. -/
theorem initMeets_iff : Adc12InitMeets status s config ↔
    config.Rejected ∨ Adc12BothFinish status s.reads := by
  by_cases hrefused : config.Rejected
  · obtain ⟨hstat, hkept⟩ := adc12Init_of_refused status s hrefused
    refine iff_of_true ⟨fun h => ?_, fun h => absurd hstat h, fun _ => hkept⟩ (.inl hrefused)
    rw [hstat] at h
    cases h
  · obtain ⟨hstat, hrestored⟩ := adc12Init_of_not_refused status s hrefused
    rw [or_iff_right hrefused, bothFinish_iff]
    refine ⟨fun h => h.calibrated hstat, fun h => ⟨fun _ => h, fun _ => hrestored, fun hbad => ?_⟩⟩
    rw [hstat] at hbad
    cases hbad

end Meets

/-- When a calibration and an initialisation are right.

The loop decrements its counter once more when it ends at zero, so the test for zero behind it
finds a counter that has wrapped, and a calibration that did not finish counts as one that did.
It is right where one of the readings the loop makes shows the end.  The initialisation makes two
calibrations and looks at neither result, so both have to finish. -/
theorem adc12Calibrates_iff (status : Nat → BitVec 32) (s : Adc12Run) (diffSel : BitVec 32)
    (config : Adc12Config) :
    (Adc12CalibrationMeets status s diffSel ↔
        diffSel > adc12SampleSignalDifferential ∨
          ∃ k ≤ adc12CalibrationWaitingLoopCnt, ¬ Adc12Busy (status (s.reads + k))) ∧
      (Adc12InitMeets status s config ↔
        config.Rejected ∨ Adc12BothFinish status s.reads) :=
  ⟨calibrationMeets_iff, initMeets_iff⟩

/-- A converter that stays busy is reported as calibrated, with the value that it shows. -/
theorem adc12Calibrates_broken :
    (adc12DoCalibration (fun _ => 0xD5) ⟨default, 0⟩ 0).1 = .success ∧
      ¬ Adc12CalibrationMeets (fun _ => 0xD5) ⟨default, 0⟩ 0 ∧
      ¬ Adc12InitMeets (fun _ => 0xD5) ⟨default, 0⟩
        ⟨0, 0, 3, 0, 0, 0, 0, 0, 10, 1, true, false⟩ := by
  have hbusy : Adc12Busy 0xD5 := by decide
  have hnot : ¬ Adc12Finishes (fun _ => 0xD5) 0 := fun ⟨_, _, hidle⟩ => hidle hbusy
  have hsuccess : (adc12DoCalibration (fun _ => 0xD5) ⟨default, 0⟩ 0).1 = .success := by decide
  refine ⟨hsuccess, fun h => ?_, fun h => hnot (h.calibrated rfl).1⟩
  have htimeout := (h.timeout (by decide)).mpr hnot
  rw [hsuccess] at htimeout
  cases htimeout

end HpmSdk.Adc
