import HpmSdk.Can.BitTiming
import HpmSdk.Foundation.Updates

set_option autoImplicit false

/-!
# CAN: acceptance filters and `can_init` (`hpm_can_drv.c`)

The code and the mask of a filter are reached through one window, and the filters share
one register of enable bits.
-/

namespace HpmSdk.Can

open HpmSdk.Foundation

/-! ## Register fields -/

/-- `CAN_CMD_STA_CMD_CTRL_SACK`. -/
def canCtrlSack : RegField := ⟨31, 1⟩
/-- `CAN_CMD_STA_CMD_CTRL_TTTBM`. -/
def canCtrlTttbm : RegField := ⟨20, 1⟩
/-- `CAN_CMD_STA_CMD_CTRL_RESET`. -/
def canCtrlReset : RegField := ⟨7, 1⟩
/-- `CAN_CMD_STA_CMD_CTRL_LBME`. -/
def canCtrlLbme : RegField := ⟨6, 1⟩
/-- `CAN_CMD_STA_CMD_CTRL_LBMI`. -/
def canCtrlLbmi : RegField := ⟨5, 1⟩
/-- `CAN_CMD_STA_CMD_CTRL_TPSS`. -/
def canCtrlTpss : RegField := ⟨4, 1⟩
/-- `CAN_CMD_STA_CMD_CTRL_TSSS`. -/
def canCtrlTsss : RegField := ⟨3, 1⟩
/-- `CAN_ACFCTRL_SELMASK`. -/
def canAcfctrlSelmask : RegField := ⟨5, 1⟩
/-- `CAN_ACFCTRL_ACFADR`. -/
def canAcfctrlAcfadr : RegField := ⟨0, 4⟩
/-- `CAN_ACF_AIDEE`. -/
def canAcfAidee : RegField := ⟨30, 1⟩
/-- `CAN_ACF_AIDE`. -/
def canAcfAide : RegField := ⟨29, 1⟩
/-- `CAN_ACF_CODE_MASK`. -/
def canAcfCodeMask : RegField := ⟨0, 29⟩
/-- `CAN_TTCFG_TTEN`. -/
def canTtcfgTten : RegField := ⟨0, 1⟩

/-! ## A filter -/

/-- `can_filter_mode_t`. -/
inductive CanFilterMode where
  | bothFrames
  | standardFrames
  | extendedFrames
  deriving DecidableEq, Repr

/-- `can_filter_config_t`. -/
structure CanFilterConfig where
  index : BitVec 16
  mode : CanFilterMode
  enable : Bool
  code : BitVec 32
  mask : BitVec 32
  deriving DecidableEq, Repr

/-- The filter that `ACFCTRL` selects. -/
def CanBase.acfAdr (base : CanBase) : Fin canFilterCount :=
  Fin.ofNat canFilterCount (canAcfctrlAcfadr.get base.acfctrl).toNat

/-- A write to `ACF`. -/
def CanBase.writeAcf (base : CanBase) (v : BitVec 32) : CanBase :=
  if canAcfctrlSelmask.get base.acfctrl = 1 then
    { base with acfMask := Function.update base.acfMask base.acfAdr v }
  else
    { base with acfCode := Function.update base.acfCode base.acfAdr v }

/-- The acceptance mask with the kind of frames. -/
def CanFilterConfig.acfValue (config : CanFilterConfig) : BitVec 32 :=
  match config.mode with
  | .standardFrames => canAcfCodeMask.set config.mask ||| canAcfAidee.mask 32
  | .extendedFrames =>
    canAcfCodeMask.set config.mask ||| (canAcfAidee.mask 32 ||| canAcfAide.mask 32)
  | .bothFrames => canAcfCodeMask.set config.mask

/-- `can_set_filter`; a shift by 32 bits or more, which C leaves open, gives 0. -/
def canSetFilter (base : CanBase) (config : CanFilterConfig) : CanBase :=
  let adr := canAcfctrlAcfadr.set (config.index.setWidth 8)
  let base := CanBase.writeAcf { base with acfctrl := adr } (canAcfCodeMask.set config.code)
  let base := CanBase.writeAcf { base with acfctrl := canAcfctrlSelmask.mask 8 ||| adr }
    config.acfValue
  let bit := 1#32 <<< config.index.toNat
  if config.enable then { base with acfEn := bit.setWidth 16 }
  else { base with acfEn := base.acfEn &&& (~~~bit).setWidth 16 }

/-! ## `can_init` -/

/-- `can_loopback_mode_t`. -/
inductive CanLoopbackMode where
  | none
  | internal
  | external
  deriving DecidableEq, Repr

/-- `can_config_t`. -/
structure CanConfig where
  baudrate : BitVec 32
  baudrateFd : BitVec 32
  loopbackMode : CanLoopbackMode
  enableCanfd : Bool
  enableSelfAck : Bool
  disableReTransmissionForPtb : Bool
  disableReTransmissionForStb : Bool
  filterList : List CanFilterConfig

/-- `can_get_default_config`. -/
def canGetDefaultConfig : CanConfig :=
  ⟨1000000, 0, .none, false, false, false, false, []⟩

/-- Setting or clearing a bit of `CMD_STA_CMD_CTRL`. -/
def CanBase.ctrl (base : CanBase) (bit : RegField) (enable : Bool) : CanBase :=
  { base with
    cmdStaCmdCtrl :=
      if enable then base.cmdStaCmdCtrl ||| bit.mask 32 else base.cmdStaCmdCtrl &&& ~~~bit.mask 32 }

/-- `can_reset`. -/
def canReset (base : CanBase) (enable : Bool) : CanBase := base.ctrl canCtrlReset enable

/-- `can_enable_self_ack`. -/
def canEnableSelfAck (base : CanBase) (enable : Bool) : CanBase := base.ctrl canCtrlSack enable

/-- `can_set_loopback_mode`. -/
def canSetLoopbackMode (base : CanBase) (mode : CanLoopbackMode) : CanBase :=
  let cfgStat := base.cmdStaCmdCtrl &&& ~~~(canCtrlLbme.mask 32 ||| canCtrlLbmi.mask 32)
  match mode with
  | .internal => { base with cmdStaCmdCtrl := cfgStat ||| canCtrlLbmi.mask 32 }
  | .external => { base with cmdStaCmdCtrl := cfgStat ||| canCtrlLbme.mask 32 }
  | .none => { base with cmdStaCmdCtrl := cfgStat }

/-- `can_disable_tx_rx_irq`. -/
def canDisableTxRxIrq (base : CanBase) (mask : BitVec 8) : CanBase :=
  { base with rtie := base.rtie &&& ~~~mask }

/-- `can_disable_error_irq`. -/
def canDisableErrorIrq (base : CanBase) (mask : BitVec 8) : CanBase :=
  { base with errint := base.errint &&& ~~~mask }

/-- `can_init` before the bit timings. -/
def canInitHead (base : CanBase) : CanBase :=
  let base := canReset base true
  let base := { base with ttcfg := base.ttcfg &&& ~~~canTtcfgTten.mask 8 }
  base.ctrl canCtrlTttbm false

/-- The bit timings of `can_init`. -/
def canInitBitTiming (passes : Nat) (base : CanBase) (config : CanConfig)
    (srcClkFreq : BitVec 32) : Option (CanStat × CanBase) :=
  if config.enableCanfd then
    (canSetBitTiming passes base .canfdNorminal srcClkFreq config.baudrate).bind fun r =>
      if r.1 ≠ .success then some r
      else canSetBitTiming passes r.2 .canfdData srcClkFreq config.baudrateFd
  else canSetBitTiming passes base .can20 srcClkFreq config.baudrate

/-- `can_init` behind the bit timings. -/
def canInitTail (base : CanBase) (config : CanConfig) : CanBase :=
  let base := base.ctrl canCtrlTpss config.disableReTransmissionForPtb
  let base := base.ctrl canCtrlTsss config.disableReTransmissionForStb
  let base := canEnableSelfAck base config.enableSelfAck
  let base := config.filterList.foldl canSetFilter base
  let base := canReset base false
  let base := canSetLoopbackMode base config.loopbackMode
  let base := canDisableTxRxIrq base 0xFF
  canDisableErrorIrq base 0xFF

/-- `can_init`, with at most so many passes of the loops of the bit timing. -/
def canInit (passes : Nat) (base : CanBase) (config : CanConfig) (srcClkFreq : BitVec 32) :
    Option (CanStat × CanBase) :=
  if srcClkFreq = 0 ∨ 16 < config.filterList.length then some (.invalidArgument, base)
  else
    (canInitBitTiming passes (canInitHead base) config srcClkFreq).map fun r =>
      if r.1 ≠ .success then r else (.success, canInitTail r.2 config)

/-! ## The contract -/

/-- A list of filters that `can_init` accepts, with different indices. -/
structure CanFilterList where
  filters : List CanFilterConfig
  short : filters.length ≤ 16
  distinct : (filters.map CanFilterConfig.index).Nodup

/-- The registers of the filters are the same. -/
structure CanBase.SameFilters (base base' : CanBase) : Prop where
  acfEn : base'.acfEn = base.acfEn
  acfCode : base'.acfCode = base.acfCode
  acfMask : base'.acfMask = base.acfMask

/-- Of the filters that a list names, those enabled in it are enabled, and each filter has
its code and its mask. -/
structure CanFiltersSet (l : List CanFilterConfig) (base : CanBase) : Prop where
  enabled : ∀ i : Fin canFilterCount, (∃ c ∈ l, c.index.toNat = i) →
    (base.acfEn.getLsbD i = true ↔ ∃ c ∈ l, c.index.toNat = i ∧ c.enable = true)
  registers : ∀ c ∈ l, ∃ i : Fin canFilterCount, c.index.toNat = i ∧
    base.acfCode i = canAcfCodeMask.set c.code ∧ base.acfMask i = c.acfValue

/-- What is asked of `can_init` for a list: where it succeeds the filters are set, and so does
it, with the same filters, for the list in another order. -/
def CanInitSetsFilters (l : CanFilterList) : Prop :=
  ∀ passes base config srcClkFreq base', config.filterList = l.filters →
    canInit passes base config srcClkFreq = some (.success, base') →
    CanFiltersSet l.filters base' ∧
      ∀ l', l.filters.Perm l' → ∃ base'',
        canInit passes base { config with filterList := l' } srcClkFreq =
          some (.success, base'') ∧ base'.SameFilters base''

end HpmSdk.Can
