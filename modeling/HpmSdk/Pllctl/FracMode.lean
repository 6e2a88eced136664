import HpmSdk.Foundation.FixedPoint
import HpmSdk.Pllctl.IntMode

set_option autoImplicit false

/-!
# PLLs in fraction mode (`hpm_pllctl_drv.c`)

The feedback divider has a fraction of 24 bits.  The computations in `double` are exact; what C
leaves undefined, a division by zero and a number that does not fit the type it is converted to,
is `none`.
-/

namespace HpmSdk.Pllctl

open HpmSdk.Foundation

/-! ## Constants and registers -/

/-- `PLLCTL_FRAC_PLL_MAX_FBDIV`. -/
def pllctlFracPllMaxFbdiv : Nat := 240

/-- `PLLCTL_FRAC_PLL_MIN_FBDIV`. -/
def pllctlFracPllMinFbdiv : Nat := 20

/-- `PLLCTL_FRAC_PLL_MIN_REF`. -/
def pllctlFracPllMinRef : Nat := 10000000

/-- `PLLCTL_PLL_CFG0_SS_RSTPTR`. -/
def cfg0SsRstptr : RegField := ⟨31, 1⟩

/-- `PLLCTL_PLL_CFG0_SS_RESET`. -/
def cfg0SsReset : RegField := ⟨6, 1⟩

/-- `PLLCTL_PLL_CFG0_SS_DISABLE_SSCG`. -/
def cfg0SsDisableSscg : RegField := ⟨5, 1⟩

namespace PllRegs

variable (regs : PllRegs)

/-- `PLLCTL_PLL_FREQ_FBDIV_FRAC_GET`. -/
def fbdivFrac : Nat := (freqFbdivFrac.get regs.freq).toNat

/-- `PLLCTL_PLL_FREQ_FRAC_GET`. -/
def frac : Nat := (freqFrac.get regs.freq).toNat

/-- `pllctl_pll_ss_disable`. -/
def ssDisable : PllRegs :=
  let regs := { regs with cfg0 := regs.cfg0 ||| (cfg0SsRstptr.mask 32 ||| cfg0SsReset.mask 32) }
  { regs with cfg0 := regs.cfg0 ||| cfg0SsDisableSscg.mask 32 }

end PllRegs

/-! ## `pllctl_init_frac_pll_with_freq` -/

/-- The loop that lowers `refdiv`, from its value at the start of a pass. -/
def pllctlLowerRefdivFrac (freq postdiv : Nat) : Nat → Option (Nat × Nat)
  | 0 => none
  | refdiv + 1 => do
    let fbdiv ← pllctlFbdiv freq (refdiv + 1) postdiv
    if pllctlFracPllMaxFbdiv < fbdiv then
      if pllctlPllMinRefdiv < refdiv then pllctlLowerRefdivFrac freq postdiv refdiv
      else some (refdiv, fbdiv)
    else some (refdiv + 1, fbdiv)

/-- The loop that raises `refdiv`. -/
def pllctlRaiseRefdivFrac (freq postdiv refdiv : Nat) : Option (Nat × Nat) := do
  let fbdiv ← pllctlFbdiv freq refdiv postdiv
  if fbdiv < pllctlFracPllMinFbdiv then
    if refdiv + 1 < pllctlPllMaxRefdiv then pllctlRaiseRefdivFrac freq postdiv (refdiv + 1)
    else some (refdiv + 1, fbdiv)
  else some (refdiv, fbdiv)
termination_by pllctlPllMaxRefdiv - refdiv

/-- `(freq / postdiv) / (PLLCTL_SOC_PLL_REFCLK_FREQ / refdiv)`, the first estimate. -/
def pllctlFracEstimate (freq refdiv postdiv : Nat) : Option Nat :=
  if refdiv = 0 ∨ postdiv = 0 then none
  else
    let ref := pllctlSocPllRefclkFreq / refdiv
    if ref = 0 then none else some (freq / postdiv / ref)

/-- The dividers for a request, from the ones in the register. -/
def pllctlDividersFrac (freq refdiv postdiv : Nat) : Option (Nat × Nat) := do
  let fbdiv ← pllctlFracEstimate freq refdiv postdiv
  if pllctlFracPllMaxFbdiv < fbdiv then pllctlLowerRefdivFrac freq postdiv (refdiv - 1)
  else if fbdiv < pllctlFracPllMinFbdiv then pllctlRaiseRefdivFrac freq postdiv (refdiv + 1)
  else some (refdiv, fbdiv)

/-- The check of the dividers. -/
def PllctlOutOfRangeFrac (refdiv fbdiv : Nat) : Prop :=
  pllctlPllMaxRefdiv < refdiv ∨ refdiv < pllctlPllMinRefdiv ∨ pllctlFracPllMaxFbdiv < fbdiv ∨
    fbdiv < pllctlFracPllMinFbdiv ∨ pllctlSocPllRefclkFreq / refdiv < pllctlFracPllMinRef

instance (refdiv fbdiv : Nat) : Decidable (PllctlOutOfRangeFrac refdiv fbdiv) :=
  inferInstanceAs (Decidable (_ ∨ _))

/-- The conversion of a `double` to `uint32_t`, which drops the fraction. -/
def doubleToUint32 (x : ℚ) : Option Nat := if -1 < x ∧ x < 2 ^ 32 then some ⌊x⌋₊ else none

/-- What is written for a request. -/
structure PllctlFracSetting where
  refdiv : Nat
  fbdiv : Nat
  frac : Nat
  deriving DecidableEq

/-- `fbdiv` and `frac` behind the check. -/
def pllctlFracValues (freq refdiv postdiv : Nat) : Option PllctlFracSetting := do
  let div : ℚ := freq / pllctlSocPllRefclkFreq * (refdiv * postdiv : Nat)
  let fbdiv ← pllctlFbdiv freq refdiv postdiv
  let frac ← doubleToUint32 ((div - fbdiv) * (2 ^ 24 : Nat))
  some ⟨refdiv, fbdiv, frac⟩

/-- What is written for a request that is in range; `some none` is a request out of range. -/
def pllctlFracSetting (freq refdiv postdiv : Nat) : Option (Option PllctlFracSetting) := do
  let (refdiv, fbdiv) ← pllctlDividersFrac freq refdiv postdiv
  if PllctlOutOfRangeFrac refdiv fbdiv then some none
  else (pllctlFracValues freq refdiv postdiv).map some

/-- The writes for a setting. -/
def PllRegs.programFrac (regs : PllRegs) (setting : PllctlFracSetting) : PllRegs :=
  let regs := regs.powerdown
  let regs := { regs with
    cfg0 := regs.cfg0 &&& ~~~(cfg0Refdiv.mask 32 ||| cfg0Dsmpd.mask 32) |||
      cfg0Refdiv.set (BitVec.ofNat 32 setting.refdiv) }
  let regs := regs.ssDisable
  let regs := { regs with
    freq := regs.freq &&& ~~~(freqFrac.mask 32 ||| freqFbdivFrac.mask 32) |||
      freqFbdivFrac.set (BitVec.ofNat 32 setting.fbdiv) |||
      freqFrac.set (BitVec.ofNat 32 setting.frac) }
  regs.poweron

/-- `pllctl_init_frac_pll_with_freq`. -/
def pllctlInitFracPllWithFreq (ptr : PllctlBase) (pll : Fin 5) (freqInHz : BitVec 32) :
    Option (PllctlStat × PllctlBase) :=
  if freqInHz.toNat < pllctlPllVcoFreqMin ∨ pllctlPllVcoFreqMax < freqInHz.toNat then
    some (.invalidArgument, ptr)
  else do
    match ← pllctlFracSetting freqInHz.toNat (ptr pll).refdiv (ptr pll).postdiv with
    | none => some (.outOfRange, ptr)
    | some setting => some (.success, Function.update ptr pll ((ptr pll).programFrac setting))

/-! ## The frequency that is read back -/

/-- `refclk * (fbdiv + ((double) frac / (1 << 24)))`, in the 32 bits of the result. -/
def pllctlFracFreq (refclk : Nat) (fbdiv frac : BitVec 32) : BitVec 32 :=
  BitVec.ofNat 32 ⌊(refclk : ℚ) * (fbdiv.toNat + frac.toNat / 2 ^ 24)⌋₊

/-! ## The contract -/

/-- What is asked of a PLL that was set up: dividers in their ranges and fields, and the frequency
that is read back is the request, down to one hertz for each unit that the truncated reference
is multiplied by. -/
structure PllctlFracRight (ptr : PllctlBase) (pll : Fin 5) (freqInHz : BitVec 32)
    (setting : PllctlFracSetting) : Prop where
  fbdiv : 20 ≤ setting.fbdiv ∧ setting.fbdiv ≤ 240
  fbdivFits : setting.fbdiv < 2 ^ freqFbdivFrac.width
  frac : setting.frac < 2 ^ 24
  fbdivHeld : (ptr pll).fbdivFrac = setting.fbdiv
  fracHeld : (ptr pll).frac = setting.frac
  accurate : ∃ hz, pllctlGetPllFreqInHz pllctlFracFreq ptr pll = some hz ∧
    hz.toNat ≤ freqInHz.toNat ∧ freqInHz.toNat ≤ hz.toNat + setting.fbdiv

/-- What is asked of a call: it returns, with the PLL as requested or with an error and no
change. -/
def PllctlFracMeets (ptr : PllctlBase) (pll : Fin 5) (freqInHz : BitVec 32) : Prop :=
  ∃ stat ptr', pllctlInitFracPllWithFreq ptr pll freqInHz = some (stat, ptr') ∧
    (stat ≠ .success → ptr' = ptr) ∧
    (stat = .success → ∃ setting,
      pllctlFracSetting freqInHz.toNat (ptr pll).refdiv (ptr pll).postdiv = some (some setting) ∧
      PllctlFracRight ptr' pll freqInHz setting)

/-- The requests that go wrong: with a reference divider of 1 or 2 the estimate is in range and the
divider that is written is not, or from 1 and a post divider of 7 the search ends at 2, and the
quotient by the truncated reference of 1714285 Hz is above the exact one. -/
def PllctlFracWrong (freq refdiv postdiv : Nat) : Prop :=
  (refdiv ≤ 2 ∧ 20 ≤ freq / postdiv / (pllctlSocPllRefclkFreq / refdiv) ∧
      240 < freq / (pllctlSocPllRefclkFreq / (refdiv * postdiv))) ∨
    (refdiv = 1 ∧ postdiv = 7 ∧ freq / 1714285 ≤ 240 ∧ 7 * freq < 12000000 * (freq / 1714285))

instance (freq refdiv postdiv : Nat) : Decidable (PllctlFracWrong freq refdiv postdiv) :=
  inferInstanceAs (Decidable (_ ∨ _))

end HpmSdk.Pllctl
