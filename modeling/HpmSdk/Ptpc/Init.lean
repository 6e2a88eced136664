import HpmSdk.Common
import HpmSdk.Foundation.Registers
import HpmSdk.Foundation.Ticks

set_option autoImplicit false

/-!
# PTPC: the step of a timer (`hpm_ptpc_drv.c`, `hpm_ptpc_drv.h`)

`ptpc_init` programs what a timer adds at each tick of its clock: the period in nanoseconds, or in
units of 446 picoseconds.  The step is computed in 32 bits and kept in 8, and only the 8 bits are
checked not to be 0.  A timer behind the two that there are has no result, which is `none`.

The function is split into its three outcomes (`ptpcInit_cases`), and for a timer that is set up the
step is right if it fits eight bits.
-/

namespace HpmSdk.Ptpc

open HpmSdk.Foundation

/-! ## The registers -/

/-- `PTPC_PTPC_CTRL0_SUBSEC_DIGITAL_ROLLOVER`. -/
def ctrl0SubsecDigitalRollover : RegField := ⟨9, 1⟩

/-- `PTPC_PTPC_CTRL0_CAPT_SNAP_KEEP`. -/
def ctrl0CaptSnapKeep : RegField := ⟨8, 1⟩

/-- `PTPC_PTPC_CTRL0_CAPT_SNAP_POS_EN`. -/
def ctrl0CaptSnapPosEn : RegField := ⟨7, 1⟩

/-- `PTPC_PTPC_CTRL0_CAPT_SNAP_NEG_EN`. -/
def ctrl0CaptSnapNegEn : RegField := ⟨6, 1⟩

/-- `PTPC_PTPC_CTRL0_FINE_COARSE_SEL`. -/
def ctrl0FineCoarseSel : RegField := ⟨1, 1⟩

/-- `PTPC_PTPC_CTRL0_TIMER_ENABLE`. -/
def ctrl0TimerEnable : RegField := ⟨0, 1⟩

/-- `PTPC_PTPC_CTRL1_SS_INCR`. -/
def ctrl1SsIncr : RegField := ⟨0, 8⟩

/-- `PTPC_SOC_TIMER_MAX_COUNT`, the length of `PTPC[2]`. -/
def ptpcSocTimerMaxCount : Nat := 2

/-- The registers of a timer that `ptpc_init` writes. -/
structure PtpcTimer where
  ctrl0 : BitVec 32
  ctrl1 : BitVec 32
  deriving Inhabited

/-- `PTPC` of `PTPC_Type`. -/
abbrev PtpcRegs := Fin ptpcSocTimerMaxCount → PtpcTimer

namespace PtpcTimer

variable (timer : PtpcTimer)

/-- `ptpc_disable_timer`. -/
def disable : PtpcTimer := { timer with ctrl0 := timer.ctrl0 &&& ~~~ctrl0TimerEnable.mask 32 }

/-- `ptpc_enable_timer`. -/
def enable : PtpcTimer := { timer with ctrl0 := timer.ctrl0 ||| ctrl0TimerEnable.mask 32 }

/-- `ptpc_set_ns_counter_step`. -/
def setNsCounterStep (nsStep : BitVec 32) : PtpcTimer :=
  { timer with ctrl1 := ctrl1SsIncr.set nsStep }

end PtpcTimer

/-! ## The functions -/

/-- `ptpc_ns_counter_rollover_type_t`. -/
inductive PtpcRollover where
  | binary
  | digital
  deriving DecidableEq, Repr

/-- The value of an enumerator. -/
def PtpcRollover.code : PtpcRollover → BitVec 32
  | .binary => 0
  | .digital => 1

/-- `ptpc_config_t`; a trigger is the bits of its edges. -/
structure PtpcConfig where
  captureTrigger : BitVec 32
  nsRolloverMode : PtpcRollover
  coarseIncrement : Bool
  captureKeep : Bool
  srcFrequency : BitVec 32

/-- `ptpc_get_default_config`. -/
def ptpcGetDefaultConfig : PtpcConfig := ⟨0, .digital, false, true, 0⟩

/-- `PTPC_SS_INCR_UINT_AT_BIN_MODE_IN_PS`. -/
def ptpcSsIncrUintAtBinModeInPs : BitVec 32 := 446

namespace PtpcConfig

variable (config : PtpcConfig)

/-- `ss_incr`. -/
def ssIncr : BitVec 8 :=
  match config.nsRolloverMode with
  | .digital => (1000000000 / config.srcFrequency).setWidth 8
  | .binary =>
    (1000000000 / config.srcFrequency * 1000 / ptpcSsIncrUintAtBinModeInPs).setWidth 8

/-- `CTRL0` of a timer that is set up, before it is enabled. -/
def ctrl0 : BitVec 32 :=
  ctrl0SubsecDigitalRollover.set config.nsRolloverMode.code |||
    ctrl0CaptSnapKeep.set ((BitVec.ofBool config.captureKeep).setWidth 32) |||
    ctrl0FineCoarseSel.set ((BitVec.ofBool config.coarseIncrement).setWidth 32) |||
    config.captureTrigger &&&
      ((ctrl0CaptSnapPosEn.mask 32 ||| ctrl0CaptSnapNegEn.mask 32) >>> ctrl0CaptSnapNegEn.first) <<<
        ctrl0CaptSnapNegEn.first

/-- A timer that is set up. -/
def setUp (timer : PtpcTimer) : PtpcTimer :=
  ({ timer.disable with ctrl0 := config.ctrl0 }.setNsCounterStep
    (config.ssIncr.setWidth 32)).enable

end PtpcConfig

/-- `ptpc_init`, for a pointer that may be null. -/
def ptpcInit (regs : PtpcRegs) (index : BitVec 8) : Option PtpcConfig → Option (HpmStat × PtpcRegs)
  | none => some (.invalidArgument, regs)
  | some config =>
    if index.toNat > ptpcSocTimerMaxCount ∨ config.srcFrequency = 0 then
      some (.invalidArgument, regs)
    else if config.ssIncr = 0 then some (.invalidArgument, regs)
    else if h : index.toNat < ptpcSocTimerMaxCount then
      some (.success, Function.update regs ⟨index.toNat, h⟩
        (config.setUp (regs ⟨index.toNat, h⟩)))
    else none

/-! ## The contract -/

namespace PtpcConfig

variable (config : PtpcConfig)

/-- The period of the clock: in nanoseconds, or in units of 446 picoseconds, rounded down. -/
def step : Nat :=
  match config.nsRolloverMode with
  | .digital => 1000000000 / config.srcFrequency.toNat
  | .binary => 1000000000 * 1000 / (config.srcFrequency.toNat * 446)

/-- The frequencies whose step is kept: the whole nanoseconds of the period fit 8 bits in their
unit, and what the period lost in them does not reach the next unit. -/
def StepFits : Prop :=
  match config.nsRolloverMode with
  | .digital => 1000000000 / config.srcFrequency.toNat < 2 ^ ctrl1SsIncr.width
  | .binary => 1000000000 / config.srcFrequency.toNat * 1000 < 2 ^ ctrl1SsIncr.width * 446 ∧
      1000000000 / config.srcFrequency.toNat * 1000 % 446 +
        1000000000 % config.srcFrequency.toNat * 1000 / config.srcFrequency.toNat < 446

/-- The frequencies whose step is 0 in 8 bits. -/
def StepVanishes : Prop :=
  match config.nsRolloverMode with
  | .digital => 1000000000 / config.srcFrequency.toNat % 2 ^ ctrl1SsIncr.width = 0
  | .binary =>
    1000000000 / config.srcFrequency.toNat * 1000 % 2 ^ 32 / 446 % 2 ^ ctrl1SsIncr.width = 0

/-- The requests that are rejected. -/
def Refused (index : BitVec 8) : Prop :=
  ptpcSocTimerMaxCount < index.toNat ∨ config.srcFrequency = 0 ∨ config.StepVanishes

end PtpcConfig

/-- What is asked of an initialisation: it has a result; an accepted request is for a timer that
there is, which has the step of the clock; and a rejected one leaves the registers. -/
structure PtpcInitMeets (regs : PtpcRegs) (index : BitVec 8) (config : PtpcConfig) : Prop where
  returns : (ptpcInit regs index (some config)).isSome
  accepted : ∀ regs', ptpcInit regs index (some config) = some (.success, regs') →
    ∃ h : index.toNat < ptpcSocTimerMaxCount, 0 < config.step ∧
      (ctrl1SsIncr.get (regs' ⟨index.toNat, h⟩).ctrl1).toNat = config.step
  rejected : ∀ stat regs', ptpcInit regs index (some config) = some (stat, regs') →
    stat ≠ .success → regs' = regs

/-! ## The step -/

section Step

variable {config : PtpcConfig}

/-- The step that is kept, for a clock in digital mode. -/
theorem ssIncr_digital (hmode : config.nsRolloverMode = .digital) :
    config.ssIncr.toNat = 1000000000 / config.srcFrequency.toNat % 2 ^ ctrl1SsIncr.width := by
  unfold PtpcConfig.ssIncr
  rw [hmode]
  dsimp only
  rw [BitVec.toNat_setWidth, BitVec.toNat_udiv]
  rfl

/-- The step that is kept, for a clock in binary mode. -/
theorem ssIncr_binary (hmode : config.nsRolloverMode = .binary) :
    config.ssIncr.toNat =
      1000000000 / config.srcFrequency.toNat * 1000 % 2 ^ 32 / 446 % 2 ^ ctrl1SsIncr.width := by
  unfold PtpcConfig.ssIncr
  rw [hmode]
  dsimp only
  rw [BitVec.toNat_setWidth, BitVec.toNat_udiv, BitVec.toNat_mul, BitVec.toNat_udiv]
  rfl

/-- The eight bits are 0 exactly where the check sees a step that vanishes. -/
theorem ssIncr_eq_zero_iff : config.ssIncr = 0 ↔ config.StepVanishes := by
  rw [← BitVec.toNat_inj]
  unfold PtpcConfig.StepVanishes
  cases hmode : config.nsRolloverMode with
  | digital => rw [ssIncr_digital hmode]; rfl
  | binary => rw [ssIncr_binary hmode]; rfl

/-- The step that is kept is the one of the clock exactly where it fits. -/
theorem ssIncr_eq_step_iff (hfreq : config.srcFrequency ≠ 0) :
    config.ssIncr.toNat = config.step ↔ config.StepFits := by
  have hpos := BitVec.toNat_pos_of_ne_zero hfreq
  have hlt : config.ssIncr.toNat < 2 ^ ctrl1SsIncr.width := config.ssIncr.isLt
  unfold PtpcConfig.step PtpcConfig.StepFits
  cases hmode : config.nsRolloverMode with
  | digital =>
    dsimp only
    rw [ssIncr_digital hmode] at hlt ⊢
    exact ⟨fun heq => heq ▸ hlt, Nat.mod_eq_of_lt⟩
  | binary =>
    have hunits := @truncated_units_iff 1000000000 config.srcFrequency.toNat 1000 446 hpos
      (by decide)
    have hle : 1000000000 / config.srcFrequency.toNat * 1000 / 446 ≤
        1000000000 * 1000 / (config.srcFrequency.toNat * 446) := by
      rw [← Nat.div_div_eq_div_mul]
      refine Nat.div_le_div_right ((Nat.le_div_iff_mul_le hpos).mpr ?_)
      rw [Nat.mul_right_comm]
      exact Nat.mul_le_mul_right _ (Nat.div_mul_le_self _ _)
    -- a product with few units does not wrap
    have hword : 1000000000 / config.srcFrequency.toNat * 1000 / 446 < 2 ^ ctrl1SsIncr.width →
        1000000000 / config.srcFrequency.toNat * 1000 < 2 ^ 32 := fun hsmall =>
      ((Nat.div_lt_iff_lt_mul (by decide)).mp hsmall).trans (by decide)
    dsimp only
    rw [ssIncr_binary hmode] at hlt ⊢
    rw [← Nat.div_lt_iff_lt_mul (show 0 < 446 by decide), ← hunits]
    constructor
    · intro heq
      have hsmall : 1000000000 / config.srcFrequency.toNat * 1000 / 446 < 2 ^ ctrl1SsIncr.width :=
        hle.trans_lt (heq ▸ hlt)
      rw [Nat.mod_eq_of_lt (hword hsmall), Nat.mod_eq_of_lt hsmall] at heq
      exact ⟨hsmall, heq⟩
    · rintro ⟨hsmall, heq⟩
      rw [Nat.mod_eq_of_lt (hword hsmall), Nat.mod_eq_of_lt hsmall]
      exact heq

/-- The field of the step behind an initialisation. -/
theorem setUp_ssIncr (timer : PtpcTimer) :
    (ctrl1SsIncr.get (config.setUp timer).ctrl1).toNat = config.ssIncr.toNat := by
  have hlt : config.ssIncr.toNat < 2 ^ ctrl1SsIncr.width := config.ssIncr.isLt
  show (ctrl1SsIncr.get (ctrl1SsIncr.set (config.ssIncr.setWidth 32))).toNat = _
  rw [RegField.get_set_toNat _ (by decide), BitVec.toNat_setWidth_of_le (by decide)]
  exact Nat.mod_eq_of_lt hlt

end Step

/-! ## When an initialisation is right -/

/-- The ways an initialisation ends. -/
theorem ptpcInit_cases (regs : PtpcRegs) (index : BitVec 8) (config : PtpcConfig) :
    config.Refused index ∧ ptpcInit regs index (some config) = some (.invalidArgument, regs) ∨
      ¬ config.Refused index ∧
        (¬ index.toNat < ptpcSocTimerMaxCount ∧ ptpcInit regs index (some config) = none ∨
          ∃ h : index.toNat < ptpcSocTimerMaxCount, ptpcInit regs index (some config) =
            some (.success, Function.update regs ⟨index.toNat, h⟩
              (config.setUp (regs ⟨index.toNat, h⟩)))) := by
  unfold ptpcInit PtpcConfig.Refused
  dsimp only
  by_cases hfirst : index.toNat > ptpcSocTimerMaxCount ∨ config.srcFrequency = 0
  · rw [if_pos hfirst]
    exact .inl ⟨or_assoc.mp (.inl hfirst), rfl⟩
  · rw [if_neg hfirst]
    by_cases hzero : config.ssIncr = 0
    · rw [if_pos hzero]
      exact .inl ⟨.inr (.inr (ssIncr_eq_zero_iff.mp hzero)), rfl⟩
    · rw [if_neg hzero]
      refine .inr ⟨fun h => ?_, ?_⟩
      · rcases or_assoc.mpr h with hargs | hvanishes
        · exact hfirst hargs
        · exact hzero (ssIncr_eq_zero_iff.mpr hvanishes)
      · by_cases hindex : index.toNat < ptpcSocTimerMaxCount
        · rw [dif_pos hindex]
          exact .inr ⟨hindex, rfl⟩
        · rw [dif_neg hindex]
          exact .inl ⟨hindex, rfl⟩

/-- An initialisation is right where it is rejected, or for a timer that there is and a frequency
whose step fits.

The step is computed from the period in whole nanoseconds and kept in eight bits, of which only
zero is refused.  It is the exact one where nothing is cut, and, in binary mode, where the part of
a nanosecond that was dropped does not reach the next unit.  The bound on the index lets the
number of the timers itself pass. -/
theorem ptpcInitMeets_iff (regs : PtpcRegs) (index : BitVec 8) (config : PtpcConfig) :
    PtpcInitMeets regs index config ↔
      config.Refused index ∨ index.toNat < ptpcSocTimerMaxCount ∧ config.StepFits := by
  rcases ptpcInit_cases regs index config with
    ⟨href, heq⟩ | ⟨hnot, ⟨hindex, heq⟩ | ⟨hindex, heq⟩⟩
  · refine iff_of_true ⟨by rw [heq]; rfl, fun regs' hr => ?_, fun stat regs' hr _ => ?_⟩
      (.inl href)
    · rw [heq] at hr
      cases hr
    · rw [heq] at hr
      cases hr
      rfl
  · refine iff_of_false (fun h => ?_) fun h => ?_
    · have hreturns := h.returns
      rw [heq] at hreturns
      exact Bool.false_ne_true hreturns
    · exact h.elim hnot fun hfits => hindex hfits.1
  · have hfreq : config.srcFrequency ≠ 0 := fun hzero => hnot (.inr (.inl hzero))
    rw [or_iff_right hnot, ← ssIncr_eq_step_iff hfreq]
    constructor
    · intro h
      obtain ⟨_, -, hstep⟩ := h.accepted _ heq
      rw [Function.update_self, setUp_ssIncr] at hstep
      exact ⟨hindex, hstep⟩
    · rintro ⟨-, hstep⟩
      have hne : config.ssIncr ≠ 0 := fun hzero =>
        hnot (.inr (.inr (ssIncr_eq_zero_iff.mp hzero)))
      refine ⟨by rw [heq]; rfl, fun regs' hr => ?_, fun stat regs' hr hbad => ?_⟩
      · obtain rfl := (Prod.mk.inj (Option.some.inj (heq.symm.trans hr))).2
        refine ⟨hindex, ?_, ?_⟩
        · rw [← hstep]
          exact BitVec.toNat_pos_of_ne_zero hne
        · rw [Function.update_self, setUp_ssIncr]
          exact hstep
      · obtain rfl := (Prod.mk.inj (Option.some.inj (heq.symm.trans hr))).1
        exact absurd rfl hbad

/-- A clock of 3 MHz has a period of 333 nanoseconds, and gets a step of 77; the index 2 names no
timer. -/
theorem ptpcInitMeets_broken :
    (⟨0, .digital, false, true, 3000000⟩ : PtpcConfig).ssIncr = 77 ∧
      ¬ PtpcInitMeets default 0 ⟨0, .digital, false, true, 3000000⟩ ∧
      ¬ PtpcInitMeets default 2 ⟨0, .digital, false, true, 50000000⟩ := by
  refine ⟨by decide, fun h => ?_, fun h => absurd h.returns (by decide)⟩
  obtain ⟨_, -, hstep⟩ := h.accepted _ rfl
  rw [Function.update_self, setUp_ssIncr] at hstep
  exact absurd hstep (by decide)

end HpmSdk.Ptpc
