import HpmSdk.Foundation.Dividers
import HpmSdk.Foundation.Registers

set_option autoImplicit false

/-!
# I2S: the configuration of a transfer (`hpm_i2s_drv.c`, `hpm_i2s_drv.h`)

`i2s_config_tx`, `i2s_config_rx` and `i2s_config_transfer` divide the master clock down to the
bit clock; the first does not look at the configuration before.  A division by zero is `none`.
-/

namespace HpmSdk.I2s

open HpmSdk.Foundation

/-- The `hpm_stat_t` values of the I2S driver. -/
inductive I2sStat where
  | success
  | invalidArgument
  deriving DecidableEq, Repr

/-! ## The registers -/

/-- `I2S_CFGR_BCLK_GATEOFF`. -/
def cfgrBclkGateoff : RegField := ⟨30, 1⟩

/-- `I2S_CFGR_BCLK_DIV`. -/
def cfgrBclkDiv : RegField := ⟨21, 9⟩

/-- `I2S_CFGR_CH_MAX`. -/
def cfgrChMax : RegField := ⟨6, 5⟩

/-- `I2S_CFGR_TDM_EN`. -/
def cfgrTdmEn : RegField := ⟨5, 1⟩

/-- `I2S_CFGR_STD`. -/
def cfgrStd : RegField := ⟨3, 2⟩

/-- `I2S_CFGR_DATSIZ`. -/
def cfgrDatsiz : RegField := ⟨1, 2⟩

/-- `I2S_CFGR_CHSIZ`. -/
def cfgrChsiz : RegField := ⟨0, 1⟩

/-- `I2S_CTRL_TX_EN`. -/
def ctrlTxEn : RegField := ⟨5, 4⟩

/-- `I2S_CTRL_RX_EN`. -/
def ctrlRxEn : RegField := ⟨1, 4⟩

/-- `I2S_CTRL_I2S_EN`. -/
def ctrlI2sEn : RegField := ⟨0, 1⟩

/-- The registers of `I2S_Type` that a configuration writes; `slots` are the words from `RXDSLOT`
on, with `TXDSLOT` behind the four of them. -/
structure I2sRegs where
  ctrl : BitVec 32
  cfgr : BitVec 32
  slots : Nat → BitVec 32

namespace I2sRegs

variable (regs : I2sRegs)

/-- `i2s_gate_bclk`. -/
def gateBclk : I2sRegs := { regs with cfgr := regs.cfgr ||| cfgrBclkGateoff.mask 32 }

/-- `i2s_ungate_bclk`. -/
def ungateBclk : I2sRegs := { regs with cfgr := regs.cfgr &&& ~~~cfgrBclkGateoff.mask 32 }

/-- `i2s_disable`. -/
def disable : I2sRegs := { regs with ctrl := regs.ctrl &&& ~~~ctrlI2sEn.mask 32 }

/-- `RXDSLOT[line] = mask`. -/
def writeRxdslot (line : BitVec 8) (mask : BitVec 32) : I2sRegs :=
  { regs with slots := Function.update regs.slots line.toNat mask }

/-- `TXDSLOT[line] = mask`. -/
def writeTxdslot (line : BitVec 8) (mask : BitVec 32) : I2sRegs :=
  { regs with slots := Function.update regs.slots (4 + line.toNat) mask }

end I2sRegs

/-! ## The functions -/

/-- `i2s_transfer_config_t`. -/
structure I2sTransferConfig where
  sampleRate : BitVec 32
  enableTdmMode : Bool
  channelNumPerFrame : BitVec 8
  channelLength : BitVec 8
  audioDepth : BitVec 8
  protocol : BitVec 8
  dataLine : BitVec 8
  channelSlotMask : BitVec 32

namespace I2sTransferConfig

variable (config : I2sTransferConfig)

/-- `bclk_freq_in_hz`: the bits of a channel are 16, 24 or 32 for a depth of 0, 1 or 2. -/
def bclkFreqInHz : BitVec 32 :=
  config.sampleRate * (config.audioDepth.setWidth 32 <<< 3 + 16#32) *
    config.channelNumPerFrame.setWidth 32

/-- The check of `i2s_config_rx` and `i2s_config_transfer`. -/
def NotValid : Prop :=
  2 < config.audioDepth.toNat ∨ config.sampleRate = 0 ∨ config.channelNumPerFrame = 0 ∨
    16 < config.channelNumPerFrame.toNat

instance : Decidable config.NotValid := inferInstanceAs (Decidable (_ ∨ _))

/-- `bclk_div` when it is written: a quotient that is not exact goes one up. -/
def bclkDiv (mclkInHz : BitVec 32) : BitVec 32 :=
  let bclkDiv := mclkInHz / config.bclkFreqInHz
  if bclkDiv * config.bclkFreqInHz < mclkInHz then bclkDiv + 1 else bclkDiv

/-- The quotient does not fit the field. -/
def TooLarge (mclkInHz : BitVec 32) : Prop :=
  (cfgrBclkDiv.mask 32 >>> cfgrBclkDiv.first) < mclkInHz / config.bclkFreqInHz

instance (mclkInHz : BitVec 32) : Decidable (config.TooLarge mclkInHz) :=
  inferInstanceAs (Decidable (_ < _))

end I2sTransferConfig

/-- `i2s_config_cfgr`. -/
def i2sConfigCfgr (regs : I2sRegs) (bclkDiv : BitVec 32) (config : I2sTransferConfig) : I2sRegs :=
  { regs.gateBclk with
    cfgr := RegField.sets [
      (cfgrBclkDiv, bclkDiv),
      (cfgrTdmEn, (BitVec.ofBool config.enableTdmMode).setWidth 32),
      (cfgrChMax, config.channelNumPerFrame.setWidth 32),
      (cfgrStd, config.protocol.setWidth 32),
      (cfgrDatsiz, config.audioDepth.setWidth 32),
      (cfgrChsiz, config.channelLength.setWidth 32)] }.ungateBclk

/-- The end of `i2s_config_tx`: the slots of the data line, and the line enabled. -/
def I2sRegs.startTx (regs : I2sRegs) (config : I2sTransferConfig) : I2sRegs :=
  let regs := if config.channelSlotMask ≠ 0 then
    regs.writeTxdslot config.dataLine config.channelSlotMask else regs
  { regs with
    ctrl := regs.ctrl &&& ~~~ctrlTxEn.mask 32 |||
      ctrlTxEn.set (1 <<< config.dataLine.toNat) ||| ctrlI2sEn.mask 32 }

/-- The end of `i2s_config_rx`. -/
def I2sRegs.startRx (regs : I2sRegs) (config : I2sTransferConfig) : I2sRegs :=
  let regs := if config.channelSlotMask ≠ 0 then
    regs.writeRxdslot config.dataLine config.channelSlotMask else regs
  { regs with
    ctrl := regs.ctrl &&& ~~~ctrlRxEn.mask 32 |||
      ctrlRxEn.set (1 <<< config.dataLine.toNat) ||| ctrlI2sEn.mask 32 }

/-- The end of `i2s_config_transfer`: both directions use the same line. -/
def I2sRegs.startTransfer (regs : I2sRegs) (config : I2sTransferConfig) : I2sRegs :=
  let regs := if config.channelSlotMask ≠ 0 then
    (regs.writeRxdslot config.dataLine config.channelSlotMask).writeTxdslot config.dataLine
      config.channelSlotMask else regs
  { regs with
    ctrl := regs.ctrl &&& ~~~(ctrlRxEn.mask 32 ||| ctrlTxEn.mask 32) |||
      ctrlRxEn.set (1 <<< config.dataLine.toNat) |||
      ctrlTxEn.set (1 <<< config.dataLine.toNat) ||| ctrlI2sEn.mask 32 }

/-- `i2s_config_tx`. -/
def i2sConfigTx (regs : I2sRegs) (mclkInHz : BitVec 32) (config : I2sTransferConfig) :
    Option (I2sStat × I2sRegs) :=
  if config.bclkFreqInHz = 0 then none
  else if config.TooLarge mclkInHz then some (.invalidArgument, regs)
  else
    some (.success,
      (i2sConfigCfgr regs.disable (config.bclkDiv mclkInHz) config).startTx config)

/-- The body of `i2s_config_rx` and `i2s_config_transfer`, by their end. -/
def i2sConfigChecked (start : I2sRegs → I2sTransferConfig → I2sRegs) (regs : I2sRegs)
    (mclkInHz : BitVec 32) (config : I2sTransferConfig) : Option (I2sStat × I2sRegs) :=
  if config.NotValid then some (.invalidArgument, regs)
  else if config.bclkFreqInHz = 0 then none
  else if mclkInHz / config.bclkFreqInHz = 0 ∨ config.TooLarge mclkInHz then
    some (.invalidArgument, regs)
  else
    some (.success,
      start (i2sConfigCfgr regs.disable (config.bclkDiv mclkInHz) config) config)

/-- `i2s_config_rx`. -/
def i2sConfigRx : I2sRegs → BitVec 32 → I2sTransferConfig → Option (I2sStat × I2sRegs) :=
  i2sConfigChecked I2sRegs.startRx

/-- `i2s_config_transfer`. -/
def i2sConfigTransfer : I2sRegs → BitVec 32 → I2sTransferConfig → Option (I2sStat × I2sRegs) :=
  i2sConfigChecked I2sRegs.startTransfer

/-! ## The contract -/

namespace I2sTransferConfig

variable (config : I2sTransferConfig)

/-- The channels that are sent in a second. -/
def channelRate : Nat := config.sampleRate.toNat * config.channelNumPerFrame.toNat

/-- The bits that the functions count for a channel: those of a sample. -/
def sampleBits : Nat := config.audioDepth.toNat * 8 + 16

/-- The bits of a channel: `CHSIZ` has a meaning where `DATSIZ` selects samples of 16 bits, else the
hardware fixes the length to 32. -/
def channelBits : Nat :=
  if config.audioDepth.toNat % 4 = 0 ∧ config.channelLength.toNat % 2 = 0 then 16 else 32

/-- The product that the functions compute, as a number. -/
def product : Nat := config.channelRate * config.sampleBits

/-- The bit clock that is asked for. -/
def bitClock : Nat := config.channelRate * config.channelBits

end I2sTransferConfig

/-- The divider that is written fits its field, and is the least one whose bit clock does not
exceed what is asked for. -/
structure I2sDividerRight (mclkInHz : BitVec 32) (config : I2sTransferConfig) (regs : I2sRegs) :
    Prop where
  fits : (config.bclkDiv mclkInHz).toNat < 2 ^ cfgrBclkDiv.width
  held : cfgrBclkDiv.get regs.cfgr = config.bclkDiv mclkInHz
  least : IsLeast {d | 0 < d ∧ rate mclkInHz.toNat d ≤ config.bitClock}
    (config.bclkDiv mclkInHz).toNat

/-- What is asked of a call, by its result: it divides by no zero, a success has the right divider,
and an error changes no register. -/
def I2sCallRight (regs : I2sRegs) (mclkInHz : BitVec 32) (config : I2sTransferConfig)
    (result : Option (I2sStat × I2sRegs)) : Prop :=
  ∃ stat regs', result = some (stat, regs') ∧
    (stat = .success → I2sDividerRight mclkInHz config regs') ∧ (stat ≠ .success → regs' = regs)

/-- What is asked of the three functions. -/
structure I2sConfigRight (regs : I2sRegs) (mclkInHz : BitVec 32) (config : I2sTransferConfig) :
    Prop where
  noOverflow : config.product < 2 ^ 32
  tx : I2sCallRight regs mclkInHz config (i2sConfigTx regs mclkInHz config)
  rx : I2sCallRight regs mclkInHz config (i2sConfigRx regs mclkInHz config)
  transfer : I2sCallRight regs mclkInHz config (i2sConfigTransfer regs mclkInHz config)
  alikeRx : (i2sConfigTx regs mclkInHz config).map Prod.fst =
    (i2sConfigRx regs mclkInHz config).map Prod.fst
  alikeTransfer : (i2sConfigTx regs mclkInHz config).map Prod.fst =
    (i2sConfigTransfer regs mclkInHz config).map Prod.fst

/-- The clocks for which it does not matter that a sample is taken for its channel: the sample fills
it, or the clock is the product, or the samples have 24 bits and a divider of two or three is the
least one for both lengths. -/
def I2sSlotsMatch (mclkInHz : BitVec 32) (config : I2sTransferConfig) : Prop :=
  config.channelBits = config.sampleBits ∨ mclkInHz.toNat = config.product ∨
    config.audioDepth.toNat = 1 ∧
      (32 * config.channelRate < mclkInHz.toNat ∧ mclkInHz.toNat ≤ 48 * config.channelRate ∨
        64 * config.channelRate < mclkInHz.toNat ∧ mclkInHz.toNat ≤ 72 * config.channelRate)

instance (mclkInHz : BitVec 32) (config : I2sTransferConfig) :
    Decidable (I2sSlotsMatch mclkInHz config) := inferInstanceAs (Decidable (_ ∨ _ ∨ _ ∧ (_ ∨ _)))

/-- The configurations that are met: the product is not zero and fits, and the clock is out of
reach of the divider, or the configuration is valid, a divider of 1 to 511 is enough and it is
the one for the channel's bits. -/
def I2sConfigMet (mclkInHz : BitVec 32) (config : I2sTransferConfig) : Prop :=
  0 < config.product ∧ config.product < 2 ^ 32 ∧
    (512 * config.product ≤ mclkInHz.toNat ∨
      ¬ config.NotValid ∧ config.product ≤ mclkInHz.toNat ∧
        mclkInHz.toNat ≤ 511 * config.product ∧ I2sSlotsMatch mclkInHz config)

end HpmSdk.I2s
