import HpmSdk.Foundation.Registers
import Mathlib.Logic.Function.Basic

set_option autoImplicit false

/-!
# PLLs in integer mode (`hpm_pllctl_drv.c`, `hpm_pllctl_drv.h`)

A PLL divides the reference by `refdiv`, multiplies it by `fbdiv` and divides the result by
`postdiv1`.  Divisions by zero are `none`.
-/

namespace HpmSdk.Pllctl

open HpmSdk.Foundation

/-- The `hpm_stat_t` values of the PLL driver. -/
inductive PllctlStat where
  | success
  | invalidArgument
  | outOfRange
  deriving DecidableEq, Repr

/-! ## Constants -/

/-- `PLLCTL_SOC_PLL_REFCLK_FREQ`. -/
def pllctlSocPllRefclkFreq : Nat := 24000000

/-- `PLLCTL_PLL_VCO_FREQ_MIN`. -/
def pllctlPllVcoFreqMin : Nat := 375000000

/-- `PLLCTL_PLL_VCO_FREQ_MAX`. -/
def pllctlPllVcoFreqMax : Nat := 2200000000

/-- `PLLCTL_INT_PLL_MAX_FBDIV`. -/
def pllctlIntPllMaxFbdiv : Nat := 2400

/-- `PLLCTL_INT_PLL_MIN_FBDIV`. -/
def pllctlIntPllMinFbdiv : Nat := 16

/-- `PLLCTL_PLL_MAX_REFDIV`. -/
def pllctlPllMaxRefdiv : Nat := 63

/-- `PLLCTL_PLL_MIN_REFDIV`. -/
def pllctlPllMinRefdiv : Nat := 1

/-- `PLLCTL_INT_PLL_MIN_REF`. -/
def pllctlIntPllMinRef : Nat := 1000000

/-! ## The registers -/

/-- `PLLCTL_PLL_CFG0_REFDIV`. -/
def cfg0Refdiv : RegField := ⟨24, 6⟩

/-- `PLLCTL_PLL_CFG0_POSTDIV1`. -/
def cfg0Postdiv1 : RegField := ⟨20, 3⟩

/-- `PLLCTL_PLL_CFG0_DSMPD`: integer mode. -/
def cfg0Dsmpd : RegField := ⟨3, 1⟩

/-- `PLLCTL_PLL_CFG1_PLLCTRL_HW_EN`. -/
def cfg1PllctrlHwEn : RegField := ⟨31, 1⟩

/-- `PLLCTL_PLL_CFG1_CLKEN_SW`. -/
def cfg1ClkenSw : RegField := ⟨26, 1⟩

/-- `PLLCTL_PLL_CFG1_PLLPD_SW`: powered down. -/
def cfg1PllpdSw : RegField := ⟨25, 1⟩

/-- `PLLCTL_PLL_CFG2_FBDIV_INT`. -/
def cfg2FbdivInt : RegField := ⟨0, 12⟩

/-- `PLLCTL_PLL_FREQ_FRAC`. -/
def freqFrac : RegField := ⟨8, 24⟩

/-- `PLLCTL_PLL_FREQ_FBDIV_FRAC`. -/
def freqFbdivFrac : RegField := ⟨0, 8⟩

/-- The registers of one PLL. -/
structure PllRegs where
  cfg0 : BitVec 32
  cfg1 : BitVec 32
  cfg2 : BitVec 32
  freq : BitVec 32
  div0 : BitVec 32
  div1 : BitVec 32

namespace PllRegs

variable (regs : PllRegs)

def refdiv : Nat := (cfg0Refdiv.get regs.cfg0).toNat

def postdiv : Nat := (cfg0Postdiv1.get regs.cfg0).toNat

def fbdiv : Nat := (cfg2FbdivInt.get regs.cfg2).toNat

/-- `pllctl_pll_powerdown`. -/
def powerdown : PllRegs :=
  { regs with
    cfg1 := regs.cfg1 &&& ~~~(cfg1PllctrlHwEn.mask 32 ||| cfg1ClkenSw.mask 32) |||
      cfg1PllpdSw.mask 32 }

/-- `pllctl_pll_poweron`. -/
def poweron : PllRegs :=
  let cfg := regs.cfg1
  if cfg &&& cfg1PllpdSw.mask 32 = 0 then regs
  else
    let cfg1 := if cfg &&& cfg1PllctrlHwEn.mask 32 ≠ 0 then
      cfg &&& ~~~cfg1PllctrlHwEn.mask 32 else cfg
    let cfg1 := cfg1 &&& ~~~cfg1PllpdSw.mask 32
    { regs with cfg1 := cfg1 ||| cfg1PllctrlHwEn.mask 32 }

end PllRegs

/-- `PLLCTL_Type`. -/
abbrev PllctlBase : Type := Fin 5 → PllRegs

/-! ## `pllctl_init_int_pll_with_freq` -/

/-- `freq / (PLLCTL_SOC_PLL_REFCLK_FREQ / (refdiv * postdiv))`. -/
def pllctlFbdiv (freq refdiv postdiv : Nat) : Option Nat :=
  if refdiv * postdiv = 0 then none
  else
    let ref := pllctlSocPllRefclkFreq / (refdiv * postdiv)
    if ref = 0 then none else some (freq / ref)

/-- The loop that lowers `refdiv`, from its value at the start of a pass. -/
def pllctlLowerRefdiv (freq postdiv : Nat) : Nat → Option (Nat × Nat)
  | 0 => none
  | refdiv + 1 => do
    let fbdiv ← pllctlFbdiv freq (refdiv + 1) postdiv
    if pllctlIntPllMaxFbdiv < fbdiv then
      if pllctlPllMinRefdiv < refdiv then pllctlLowerRefdiv freq postdiv refdiv
      else some (refdiv, fbdiv)
    else some (refdiv + 1, fbdiv)

/-- The loop that raises `refdiv`. -/
def pllctlRaiseRefdiv (freq postdiv refdiv : Nat) : Option (Nat × Nat) := do
  let fbdiv ← pllctlFbdiv freq refdiv postdiv
  if fbdiv < pllctlIntPllMinFbdiv then
    if refdiv + 1 < pllctlPllMaxRefdiv then pllctlRaiseRefdiv freq postdiv (refdiv + 1)
    else some (refdiv + 1, fbdiv)
  else some (refdiv, fbdiv)
termination_by pllctlPllMaxRefdiv - refdiv

/-- The dividers for a request, from the ones in the register. -/
def pllctlDividers (freq refdiv postdiv : Nat) : Option (Nat × Nat) := do
  let fbdiv ← pllctlFbdiv freq refdiv postdiv
  if pllctlIntPllMaxFbdiv < fbdiv then pllctlLowerRefdiv freq postdiv (refdiv - 1)
  else if fbdiv < pllctlIntPllMinFbdiv then pllctlRaiseRefdiv freq postdiv (refdiv + 1)
  else some (refdiv, fbdiv)

/-- The check of the dividers. -/
def PllctlOutOfRange (refdiv fbdiv : Nat) : Prop :=
  pllctlPllMaxRefdiv < refdiv ∨ refdiv < pllctlPllMinRefdiv ∨ pllctlIntPllMaxFbdiv < fbdiv ∨
    fbdiv < pllctlIntPllMinFbdiv ∨ pllctlSocPllRefclkFreq / refdiv < pllctlIntPllMinRef

instance (refdiv fbdiv : Nat) : Decidable (PllctlOutOfRange refdiv fbdiv) :=
  inferInstanceAs (Decidable (_ ∨ _))

/-- The writes for the dividers. -/
def PllRegs.program (regs : PllRegs) (refdiv fbdiv : Nat) : PllRegs :=
  let regs := if regs.cfg0 &&& cfg0Dsmpd.mask 32 = 0 then
      { regs.powerdown with cfg0 := regs.cfg0 ||| cfg0Dsmpd.mask 32 }
    else regs
  let regs := if regs.refdiv ≠ refdiv then
      { regs.powerdown with
        cfg0 := regs.cfg0 &&& ~~~cfg0Refdiv.mask 32 ||| cfg0Refdiv.set (BitVec.ofNat 32 refdiv) }
    else regs
  let regs := { regs with
    cfg2 := regs.cfg2 &&& ~~~cfg2FbdivInt.mask 32 ||| cfg2FbdivInt.set (BitVec.ofNat 32 fbdiv) }
  regs.poweron

/-- `pllctl_init_int_pll_with_freq`. -/
def pllctlInitIntPllWithFreq (ptr : PllctlBase) (pll : Fin 5) (freqInHz : BitVec 32) :
    Option (PllctlStat × PllctlBase) :=
  if freqInHz.toNat < pllctlPllVcoFreqMin ∨ pllctlPllVcoFreqMax < freqInHz.toNat then
    some (.invalidArgument, ptr)
  else do
    let (refdiv, fbdiv) ← pllctlDividers freqInHz.toNat (ptr pll).refdiv (ptr pll).postdiv
    if PllctlOutOfRange refdiv fbdiv then some (.outOfRange, ptr)
    else some (.success, Function.update ptr pll ((ptr pll).program refdiv fbdiv))

/-! ## `pllctl_get_pll_freq_in_hz` -/

/-- `pllctl_get_pll_freq_in_hz`; `fracFreq` is `refclk * (fbdiv + ((double) frac / (1 << 24)))`. -/
def pllctlGetPllFreqInHz (fracFreq : Nat → BitVec 32 → BitVec 32 → BitVec 32) (ptr : PllctlBase)
    (pll : Fin 5) : Option (BitVec 32) :=
  let regs := ptr pll
  if regs.cfg1 &&& cfg1PllpdSw.mask 32 ≠ 0 then some 0
  else if regs.refdiv * regs.postdiv = 0 then none
  else
    let refclk := pllctlSocPllRefclkFreq / (regs.refdiv * regs.postdiv)
    if regs.cfg0 &&& cfg0Dsmpd.mask 32 ≠ 0 then some (BitVec.ofNat 32 (refclk * regs.fbdiv))
    else some (fracFreq refclk (freqFbdivFrac.get regs.freq) (freqFrac.get regs.freq))

/-! ## The contract -/

/-- The dividers of a PLL: in their ranges, and `Fref / refdiv * fbdiv` in that of the VCO. -/
structure PllRegs.Safe (regs : PllRegs) : Prop where
  refdiv : 1 ≤ regs.refdiv ∧ regs.refdiv ≤ 63
  fbdiv : 16 ≤ regs.fbdiv ∧ regs.fbdiv ≤ 2400
  vcoMin : pllctlPllVcoFreqMin * regs.refdiv ≤ pllctlSocPllRefclkFreq * regs.fbdiv
  vcoMax : pllctlSocPllRefclkFreq * regs.fbdiv ≤ pllctlPllVcoFreqMax * regs.refdiv

/-- The frequency is not above the request, and less than one reference step below it. -/
def PllctlAccurate (fracFreq : Nat → BitVec 32 → BitVec 32 → BitVec 32) (ptr : PllctlBase)
    (pll : Fin 5) (freqInHz : BitVec 32) : Prop :=
  ∃ hz, pllctlGetPllFreqInHz fracFreq ptr pll = some hz ∧ hz.toNat ≤ freqInHz.toNat ∧
    freqInHz.toNat <
      hz.toNat + pllctlSocPllRefclkFreq / ((ptr pll).refdiv * (ptr pll).postdiv)

/-- What is asked of a call: it returns, with the PLL as requested or with an error and no
change. -/
def PllctlInitMeets (fracFreq : Nat → BitVec 32 → BitVec 32 → BitVec 32) (ptr : PllctlBase)
    (pll : Fin 5) (freqInHz : BitVec 32) : Prop :=
  ∃ stat ptr', pllctlInitIntPllWithFreq ptr pll freqInHz = some (stat, ptr') ∧
    (stat ≠ .success → ptr' = ptr) ∧
    (stat = .success → (ptr' pll).Safe ∧ PllctlAccurate fracFreq ptr' pll freqInHz)

/-- The request is refused, or the dividers in the register keep the VCO in its range: with
`refdiv` at most 24 the feedback divider is at least `15.625 * refdiv` and at most
`91.67 * refdiv`, and above 24 no divider is found. -/
def PllctlInRange (freq refdiv postdiv : Nat) : Prop :=
  (freq < pllctlPllVcoFreqMin ∨ pllctlPllVcoFreqMax < freq) ∨
    (refdiv ≤ 24 ∧
      (375 * refdiv + 23) / 24 * (pllctlSocPllRefclkFreq / (refdiv * postdiv)) ≤ freq ∧
      freq < (2200 * refdiv / 24 + 1) * (pllctlSocPllRefclkFreq / (refdiv * postdiv))) ∨
    (24 < refdiv ∧ freq < 2401 * (pllctlSocPllRefclkFreq / (25 * postdiv)))

end HpmSdk.Pllctl
