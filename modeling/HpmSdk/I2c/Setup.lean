import HpmSdk.Foundation.Registers

set_option autoImplicit false

/-!
# I2C: the timing of a master (`hpm_i2c_drv.c`)

The times of a mode are converted to clock periods, less what the controller adds by itself.
-/

namespace HpmSdk.I2c

open HpmSdk.Foundation

/-! ## `i2c_configure_timing` -/

/-- `HPM_I2C_DRV_DEFAULT_TPM`. -/
def hpmI2cDrvDefaultTpm : BitVec 32 := 0

/-- `HPM_I2C_DRV_DEFAULT_SCL_RATIO`. -/
def hpmI2cDrvDefaultSclRatio : BitVec 16 := 1

/-- `period_in_ns`; the core divides by zero to the largest number. -/
def periodInNs (freq : BitVec 32) : BitVec 32 := (1000000000#32).smtUDiv freq

/-- `i2c_timing_t`. -/
structure I2cTiming where
  tHigh : BitVec 32
  tLow : BitVec 32
  tSp : BitVec 16
  tSudat : BitVec 16
  tHddat : BitVec 16
  tSclhiMin1 : BitVec 16
  tSclhiMin2 : BitVec 16
  tSclratio : BitVec 16

/-- `t_high` and `t_low` of `i2c_mode_normal`, `i2c_mode_fast` and `i2c_mode_fast_plus`. -/
def i2cModeTimes (i2cMode : BitVec 8) : Option (BitVec 32 × BitVec 32) :=
  if i2cMode = 1 then some (600, 1300)
  else if i2cMode = 2 then some (260, 500)
  else if i2cMode = 0 then some (4000, 4700)
  else none

/-- The value for `t_sp`. -/
def i2cSp (srcClkInHz : BitVec 32) : BitVec 32 :=
  (50#32).smtUDiv (periodInNs srcClkInHz) / (hpmI2cDrvDefaultTpm + 1)

/-- The clock periods for a data time, behind the spikes that are suppressed. -/
def i2cDataUnits (srcClkInHz total : BitVec 32) (tSp : BitVec 16) : BitVec 32 :=
  (total - 2 * periodInNs srcClkInHz).smtUDiv (periodInNs srcClkInHz) - 2 - tSp.setWidth 32

/-- The clock periods for a time of `SCL`, behind the spikes that are suppressed. -/
def i2cSclUnits (srcClkInHz total : BitVec 32) (tSp : BitVec 16) : BitVec 32 :=
  ((total - 2 * periodInNs srcClkInHz) / (hpmI2cDrvDefaultTpm + 1)).smtUDiv
    (periodInNs srcClkInHz) - 2 - tSp.setWidth 32

/-- `i2c_configure_timing`; `none` is `status_i2c_not_supported`. -/
def i2cConfigureTiming (srcClkInHz : BitVec 32) (i2cMode : BitVec 8) (timing : I2cTiming) :
    Option I2cTiming :=
  (i2cModeTimes i2cMode).map fun times =>
    let tSp := (i2cSp srcClkInHz).setWidth 16
    { timing with
      tHigh := times.1
      tLow := times.2
      tSp := tSp
      tSudat := (i2cDataUnits srcClkInHz 250 tSp).setWidth 16
      tHddat := (i2cDataUnits srcClkInHz 300 tSp).setWidth 16
      tSclhiMin1 := (i2cSclUnits srcClkInHz times.1 tSp).setWidth 16
      tSclhiMin2 :=
        ((i2cSclUnits srcClkInHz times.2 tSp).smtUDiv (timing.tSclratio.setWidth 32)).setWidth 16 }

/-! ## `i2c_init_master` -/

/-- The registers of the controller that the driver sets up. -/
structure I2cRegs where
  ctrl : BitVec 32
  cmd : BitVec 32
  setup : BitVec 32
  tpm : BitVec 32

/-- `i2c_config_t`. -/
structure I2cConfig where
  is10bitAddressing : Bool
  i2cMode : BitVec 8

/-- `I2C_SETUP_T_SP`. -/
def i2cSetupTSp : RegField := ⟨21, 3⟩

/-- `I2C_SETUP_T_SUDAT`. -/
def i2cSetupTSudat : RegField := ⟨24, 5⟩

/-- `I2C_SETUP_T_HDDAT`. -/
def i2cSetupTHddat : RegField := ⟨16, 5⟩

/-- `I2C_SETUP_T_SCLRADIO`. -/
def i2cSetupTSclradio : RegField := ⟨13, 1⟩

/-- `I2C_SETUP_T_SCLHI`. -/
def i2cSetupTSclhi : RegField := ⟨4, 9⟩

/-- `I2C_SETUP_ADDRESSING`. -/
def i2cSetupAddressing : RegField := ⟨1, 1⟩

/-- `I2C_SETUP_IICEN`. -/
def i2cSetupIicen : RegField := ⟨0, 1⟩

/-- `I2C_SETUP_MASTER`. -/
def i2cSetupMaster : RegField := ⟨2, 1⟩

/-- `i2c_reset`; `I2C_CMD_RESET` is 5. -/
def i2cReset (ptr : I2cRegs) : I2cRegs :=
  { ptr with
    ctrl := 0
    cmd := 5
    setup := ptr.setup &&& ~~~i2cSetupIicen.mask 32 }

/-- The value of `MAX(timing.t_sclhi_min1, timing.t_sclhi_min2)`. -/
def I2cTiming.sclhi (timing : I2cTiming) : BitVec 16 :=
  if timing.tSclhiMin2 < timing.tSclhiMin1 then timing.tSclhiMin1 else timing.tSclhiMin2

/-- The fields of `SETUP` with their values. -/
def i2cSetupFields (timing : I2cTiming) (config : I2cConfig) : List (RegField × BitVec 32) := [
  (i2cSetupTSp, timing.tSp.setWidth 32),
  (i2cSetupTSudat, timing.tSudat.setWidth 32),
  (i2cSetupTHddat, timing.tHddat.setWidth 32),
  (i2cSetupTSclradio, timing.tSclratio.setWidth 32 - 1),
  (i2cSetupTSclhi, timing.sclhi.setWidth 32),
  (i2cSetupAddressing, if config.is10bitAddressing then 1 else 0)]

/-- `i2c_init_master`: whether it succeeds, and the registers. -/
def i2cInitMaster (ptr : I2cRegs) (srcClkInHz : BitVec 32) (config : I2cConfig) :
    Bool × I2cRegs :=
  let ptr := i2cReset ptr
  match i2cConfigureTiming srcClkInHz config.i2cMode
      ⟨0, 0, 0, 0, 0, 0, 0, hpmI2cDrvDefaultSclRatio⟩ with
  | none => (false, ptr)
  | some timing => (true, { ptr with
      tpm := (⟨0, 5⟩ : RegField).set hpmI2cDrvDefaultTpm
      setup := RegField.sets (i2cSetupFields timing config) |||
        (i2cSetupIicen.mask 32 ||| i2cSetupMaster.mask 32) })

/-! ## The contract -/

/-- The truncated period of the clock, in nanoseconds. -/
def i2cPeriod (srcClkInHz : BitVec 32) : Nat := 1000000000 / srcClkInHz.toNat

/-- The periods for a time, by the formulas of the code over the natural numbers. -/
def i2cUnits (period total : Nat) : Nat := (total - 2 * period) / period - 2 - 50 / period

/-- No subtraction for a time goes below zero. -/
structure I2cNoWrap (period total : Nat) : Prop where
  added : 2 * period ≤ total
  filter : 2 ≤ (total - 2 * period) / period
  spikes : 50 / period ≤ (total - 2 * period) / period - 2

/-- Clock periods last as long as a time, within one period. -/
def I2cLasts (srcClkInHz : BitVec 32) (periods total : Nat) : Prop :=
  total * srcClkInHz.toNat ≤ 1000000000 * (periods + 1)

/-- Clock periods last longer than a time, within one period. -/
def I2cExceeds (srcClkInHz : BitVec 32) (periods total : Nat) : Prop :=
  total * srcClkInHz.toNat < 1000000000 * (periods + 1)

/-- The periods of a time by the formulas of the registers. -/
def i2cPeriods (regs : I2cRegs) (units : Nat) : Nat :=
  2 + (2 + (i2cSetupTSp.get regs.setup).toNat + units) *
    (((⟨0, 5⟩ : RegField).get regs.tpm).toNat + 1)

/-- What is asked of the registers for the times of a mode: no division by zero, no subtraction
below zero, no field cut, and the times within a period. -/
structure I2cTimed (srcClkInHz tHigh tLow : BitVec 32) (regs : I2cRegs) : Prop where
  divisor : 1000000000 / srcClkInHz ≠ 0
  noWrap : ∀ total ∈ [250, 300, tHigh.toNat, tLow.toNat], I2cNoWrap (i2cPeriod srcClkInHz) total
  tSp : (i2cSetupTSp.get regs.setup).toNat = 50 / i2cPeriod srcClkInHz
  tSudat : (i2cSetupTSudat.get regs.setup).toNat = i2cUnits (i2cPeriod srcClkInHz) 250
  tHddat : (i2cSetupTHddat.get regs.setup).toNat = i2cUnits (i2cPeriod srcClkInHz) 300
  tSclhi : (i2cSetupTSclhi.get regs.setup).toNat =
    max (i2cUnits (i2cPeriod srcClkInHz) tHigh.toNat) (i2cUnits (i2cPeriod srcClkInHz) tLow.toNat)
  high : I2cExceeds srcClkInHz
    (i2cPeriods regs (i2cSetupTSclhi.get regs.setup).toNat) tHigh.toNat
  low : I2cExceeds srcClkInHz (i2cPeriods regs ((i2cSetupTSclhi.get regs.setup).toNat *
    ((i2cSetupTSclradio.get regs.setup).toNat + 1))) tLow.toNat
  setupTime : I2cLasts srcClkInHz (i2cPeriods regs (i2cSetupTSudat.get regs.setup).toNat) 250
  holdTime : I2cLasts srcClkInHz (i2cPeriods regs (i2cSetupTHddat.get regs.setup).toNat) 300

/-- What is asked of a master that is initialised. -/
def I2cInitialised (ptr : I2cRegs) (srcClkInHz : BitVec 32) (config : I2cConfig) : Prop :=
  (i2cInitMaster ptr srcClkInHz config).1 = true →
    ∀ times ∈ i2cModeTimes config.i2cMode,
      I2cTimed srcClkInHz times.1 times.2 (i2cInitMaster ptr srcClkInHz config).2

end HpmSdk.I2c
