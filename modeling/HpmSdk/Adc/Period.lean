import HpmSdk.Common
import HpmSdk.Foundation.Registers

set_option autoImplicit false

/-!
# ADC16: the periodic mode (`hpm_adc16_drv.c`)

`adc16_set_period_config` programs the ticks of a prescaled clock between two conversions of a
channel.  The period comes in milliseconds in a `uint8_t`, and is divided by 1000 before it is
multiplied by the frequency.  A write beyond the words of `PRD_CFG` has no result.

A configuration is right or wrong by one comparison: the ticks that are programmed with those that
the period asks for.
-/

namespace HpmSdk.Adc

open HpmSdk.Foundation

/-- The words of `PRD_CFG`. -/
def adc16PrdCfgWords : Nat := 8

/-- `ADC16_PRD_CFG_PRD_CFG_PRESCALE`. -/
def prdCfgPrescale : RegField := ⟨8, 5⟩

/-- `ADC16_PRD_CFG_PRD_CFG_PRD`. -/
def prdCfgPrd : RegField := ⟨0, 8⟩

/-- `adc16_prd_config_t`. -/
structure Adc16PrdConfig where
  clkSrcInHz : BitVec 32
  ch : BitVec 8
  prescale : BitVec 8
  periodMs : BitVec 8

/-- `PRD_CFG[..].PRD_CFG` of `ADC16_Type`. -/
abbrev Adc16PrdRegs := Fin adc16PrdCfgWords → BitVec 32

namespace Adc16PrdConfig

variable (config : Adc16PrdConfig)

/-- `prd_freq`. -/
def prdFreq : BitVec 32 := config.clkSrcInHz / (config.prescale.setWidth 32 + 1)

/-- `prd_reload_value`. -/
def prdReloadValue : BitVec 32 := config.periodMs.setWidth 32 / 1000 * config.prdFreq

/-- The word of the channel after a call. -/
def programmed (word : BitVec 32) : BitVec 32 :=
  let word := word &&& ~~~prdCfgPrescale.mask 32 |||
    prdCfgPrescale.set (config.prescale.setWidth 32)
  if config.prdReloadValue ≠ 0 then
    word &&& ~~~prdCfgPrd.mask 32 ||| prdCfgPrd.set config.prdReloadValue
  else word

end Adc16PrdConfig

/-- `adc16_set_period_config`. -/
def adc16SetPeriodConfig (regs : Adc16PrdRegs) (config : Adc16PrdConfig) :
    Option (HpmStat × Adc16PrdRegs) :=
  if (prdCfgPrescale.mask 32 >>> prdCfgPrescale.first) < config.prescale.setWidth 32 then
    some (.invalidArgument, regs)
  else if h : config.ch.toNat < adc16PrdCfgWords then
    some (.success, Function.update regs ⟨config.ch.toNat, h⟩
      (config.programmed (regs ⟨config.ch.toNat, h⟩)))
  else none

/-! ## The contract -/

/-- Reload values whose ticks last a period, within one of them. -/
structure Adc16Lasts (config : Adc16PrdConfig) (reload : Nat) : Prop where
  clock : 0 < config.clkSrcInHz.toNat
  le : reload * (config.prescale.toNat + 1) * 1000 ≤
    config.periodMs.toNat * config.clkSrcInHz.toNat + (config.prescale.toNat + 1) * 1000
  ge : config.periodMs.toNat * config.clkSrcInHz.toNat ≤
    reload * (config.prescale.toNat + 1) * 1000 + (config.prescale.toNat + 1) * 1000

/-- A channel whose reload value is not 0 and lasts the period. -/
def Adc16Holds (config : Adc16PrdConfig) (regs : Adc16PrdRegs) : Prop :=
  ∃ h : config.ch.toNat < adc16PrdCfgWords,
    0 < (prdCfgPrd.get (regs ⟨config.ch.toNat, h⟩)).toNat ∧
      Adc16Lasts config (prdCfgPrd.get (regs ⟨config.ch.toNat, h⟩)).toNat

/-- What is asked of a request: it has a result; an accepted one leaves a reload value that is not 0
and lasts the period; and a rejected one leaves the words. -/
structure Adc16PeriodMeets (regs : Adc16PrdRegs) (config : Adc16PrdConfig) : Prop where
  returns : (adc16SetPeriodConfig regs config).isSome
  accepted : ∀ regs', adc16SetPeriodConfig regs config = some (.success, regs') →
    Adc16Holds config regs'
  rejected : ∀ stat regs', adc16SetPeriodConfig regs config = some (stat, regs') →
    stat ≠ .success → regs' = regs

/-! ## What is programmed -/

section Programmed

variable {config : Adc16PrdConfig} {regs regs' : Adc16PrdRegs} {stat : HpmStat}

/-- A period that fits its type has no whole second in it. -/
theorem prdReloadValue_eq_zero : config.prdReloadValue = 0 := by
  have hseconds : config.periodMs.setWidth 32 / 1000 = 0#32 := by
    refine BitVec.eq_of_toNat_eq ?_
    rw [BitVec.toNat_udiv, BitVec.toNat_setWidth_of_le (by decide)]
    exact Nat.div_eq_of_lt (config.periodMs.isLt.trans (by decide))
  unfold Adc16PrdConfig.prdReloadValue
  rw [hseconds]
  exact BitVec.zero_mul

/-- No call programs a reload value. -/
theorem prd_programmed (word : BitVec 32) :
    prdCfgPrd.get (config.programmed word) = prdCfgPrd.get word := by
  unfold Adc16PrdConfig.programmed
  rw [if_neg (not_not.mpr prdReloadValue_eq_zero)]
  exact RegField.get_store_of_apart _ _ (by decide)

/-- The check of the prescaler refuses exactly what its field cannot hold. -/
theorem prescale_rejected_iff :
    (prdCfgPrescale.mask 32 >>> prdCfgPrescale.first) < config.prescale.setWidth 32 ↔
      2 ^ prdCfgPrescale.width ≤ config.prescale.toNat := by
  rw [BitVec.lt_def, BitVec.toNat_setWidth_of_le (by decide)]
  exact Nat.lt_iff_add_one_le

/-- The calls that are rejected. -/
theorem adc16SetPeriodConfig_rejected (h : 2 ^ prdCfgPrescale.width ≤ config.prescale.toNat) :
    adc16SetPeriodConfig regs config = some (.invalidArgument, regs) :=
  if_pos (prescale_rejected_iff.mpr h)

/-- An accepted call leaves the reload values. -/
theorem holds_update (h : config.ch.toNat < adc16PrdCfgWords) :
    Adc16Holds config (Function.update regs ⟨config.ch.toNat, h⟩
        (config.programmed (regs ⟨config.ch.toNat, h⟩))) ↔ Adc16Holds config regs := by
  unfold Adc16Holds
  rw [exists_prop_of_true h, exists_prop_of_true h, Function.update_self, prd_programmed]

/-- The ways another call ends. -/
theorem adc16SetPeriodConfig_accepted (regs : Adc16PrdRegs)
    (h : config.prescale.toNat < 2 ^ prdCfgPrescale.width) :
    adc16PrdCfgWords ≤ config.ch.toNat ∧ adc16SetPeriodConfig regs config = none ∨
      ∃ hch : config.ch.toNat < adc16PrdCfgWords, adc16SetPeriodConfig regs config =
        some (.success, Function.update regs ⟨config.ch.toNat, hch⟩
          (config.programmed (regs ⟨config.ch.toNat, hch⟩))) := by
  unfold adc16SetPeriodConfig
  rw [if_neg fun hrejected => h.not_ge (prescale_rejected_iff.mp hrejected)]
  by_cases hch : config.ch.toNat < adc16PrdCfgWords
  · rw [dif_pos hch]
    exact .inr ⟨hch, rfl⟩
  · rw [dif_neg hch]
    exact .inl ⟨Nat.le_of_not_lt hch, rfl⟩

end Programmed

/-- A request is right exactly where it is rejected for its prescaler, or the channel has the
period before the call.

The period is divided by 1000 in whole numbers before it is multiplied by the frequency, and an
8-bit number of milliseconds gives 0.  The reload value is then 0 too, and the branch that stores
it is not taken: an accepted call leaves the field as it was. -/
theorem adc16PeriodMeets_iff (regs : Adc16PrdRegs) (config : Adc16PrdConfig) :
    Adc16PeriodMeets regs config ↔
      2 ^ prdCfgPrescale.width ≤ config.prescale.toNat ∨ Adc16Holds config regs := by
  rcases Nat.lt_or_ge config.prescale.toNat (2 ^ prdCfgPrescale.width) with hlt | hge
  · rw [or_iff_right hlt.not_ge]
    rcases adc16SetPeriodConfig_accepted regs hlt with ⟨hout, hnone⟩ | ⟨hch, hsome⟩
    · refine iff_of_false (fun h => ?_) fun ⟨hch, _⟩ => hch.not_ge hout
      have hreturns := h.returns
      rw [hnone] at hreturns
      exact Bool.false_ne_true hreturns
    · constructor
      · intro h
        exact (holds_update hch).mp (h.accepted _ hsome)
      · intro h
        refine ⟨?_, fun regs' hr => ?_, fun stat regs' hr hne => ?_⟩
        · rw [hsome]
          rfl
        · rw [hsome] at hr
          cases hr
          exact (holds_update hch).mpr h
        · rw [hsome] at hr
          cases hr
          exact absurd rfl hne
  · have hrejected : adc16SetPeriodConfig regs config = some (.invalidArgument, regs) :=
      adc16SetPeriodConfig_rejected hge
    refine iff_of_true ⟨?_, fun regs' hr => ?_, fun stat regs' hr _ => ?_⟩ (.inl hge)
    · rw [hrejected]
      rfl
    · rw [hrejected] at hr
      cases hr
    · rw [hrejected] at hr
      cases hr
      rfl

/-- 100 milliseconds are 100 ticks of 32 kHz divided by 32; they are reported as set, and the
channel stays without a period. -/
theorem adc16PeriodMeets_broken :
    Adc16Lasts ⟨32000, 3, 31, 100⟩ 100 ∧
      (∃ regs', adc16SetPeriodConfig (fun _ => 0) ⟨32000, 3, 31, 100⟩ = some (.success, regs') ∧
        prdCfgPrd.get (regs' ⟨3, by decide⟩) = 0) ∧
      ¬ Adc16PeriodMeets (fun _ => 0) ⟨32000, 3, 31, 100⟩ := by
  refine ⟨⟨by decide, by decide, by decide⟩, ⟨_, rfl, by decide⟩, fun h => ?_⟩
  obtain ⟨_, hpos, -⟩ := h.accepted _ rfl
  rw [Function.update_self, prd_programmed] at hpos
  exact Nat.lt_irrefl 0 hpos

end HpmSdk.Adc
