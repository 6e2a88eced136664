import HpmSdk.Pllctl.FracModeContract
import Mathlib.Data.Nat.Cast.Order.Field

set_option autoImplicit false

/-!
# PLLs: the setters (`hpm_pllctl_drv.h`, `hpm_pllctl_drv.c`)

The setters of the feedback dividers store one less than they are given; the reader multiplies
the reference by what is stored.

What is read is then one step short, whatever the arguments are.
-/

namespace HpmSdk.Pllctl

open HpmSdk.Foundation

/-! ## The setters -/

/-- `pll > (PLLCTL_SOC_PLL_MAX_COUNT - 1)` is refused; the other numbers are indices. -/
def pllctlIndex (pll : Nat) : Option (Fin 5) := if h : pll < 5 then some ⟨pll, h⟩ else none

/-- `min_ref`: by the mode of the PLL. -/
def PllRegs.minRef (regs : PllRegs) : Nat :=
  if regs.cfg0 &&& cfg0Dsmpd.mask 32 ≠ 0 then pllctlIntPllMinRef else pllctlFracPllMinRef

/-- `pllctl_set_refdiv`. -/
def pllctlSetRefdiv (ptr : PllctlBase) (pll : Nat) (div : BitVec 8) : PllctlStat × PllctlBase :=
  match pllctlIndex pll with
  | none => (.invalidArgument, ptr)
  | some i =>
    if div = 0 ∨ 63 < div.toNat then (.invalidArgument, ptr)
    else if pllctlSocPllRefclkFreq / div.toNat < (ptr i).minRef then (.outOfRange, ptr)
    else if (ptr i).refdiv ≠ div.toNat then
      (.success, Function.update ptr i
        { (ptr i).powerdown with
          cfg0 := (ptr i).cfg0 &&& ~~~cfg0Refdiv.mask 32 ||| cfg0Refdiv.set (div.setWidth 32) })
    else (.success, ptr)

/-- `pllctl_set_postdiv1`. -/
def pllctlSetPostdiv1 (ptr : PllctlBase) (pll : Nat) (div : BitVec 8) : PllctlStat × PllctlBase :=
  match pllctlIndex pll with
  | none => (.invalidArgument, ptr)
  | some i =>
    if div = 0 ∨ 7 < div.toNat then (.invalidArgument, ptr)
    else
      (.success, Function.update ptr i
        { ptr i with
          cfg0 := (ptr i).cfg0 &&& ~~~cfg0Postdiv1.mask 32 |||
            cfg0Postdiv1.set (div.setWidth 32) })

/-- `pllctl_set_fbdiv_int`; `fbdiv - 1` is compared as an unsigned number. -/
def pllctlSetFbdivInt (ptr : PllctlBase) (pll : Nat) (fbdiv : BitVec 16) :
    PllctlStat × PllctlBase :=
  match pllctlIndex pll with
  | none => (.invalidArgument, ptr)
  | some i =>
    if 0xfff < fbdiv.setWidth 32 - 1#32 then (.invalidArgument, ptr)
    else
      (.success, Function.update ptr i
        { ptr i with
          cfg2 := (ptr i).cfg2 &&& ~~~cfg2FbdivInt.mask 32 |||
            cfg2FbdivInt.set (fbdiv.setWidth 32 - 1#32) })

/-- `pllctl_set_fbdiv_frac`. -/
def pllctlSetFbdivFrac (ptr : PllctlBase) (pll : Nat) (fbdiv : BitVec 16) :
    PllctlStat × PllctlBase :=
  match pllctlIndex pll with
  | none => (.invalidArgument, ptr)
  | some i =>
    if 0xff < fbdiv.setWidth 32 - 1#32 then (.invalidArgument, ptr)
    else
      (.success, Function.update ptr i
        { ptr i with
          freq := (ptr i).freq &&& ~~~freqFbdivFrac.mask 32 |||
            freqFbdivFrac.set (fbdiv.setWidth 32 - 1#32) })

/-- `pllctl_set_frac`. -/
def pllctlSetFrac (ptr : PllctlBase) (pll : Nat) (frac : BitVec 32) : PllctlStat × PllctlBase :=
  match pllctlIndex pll with
  | none => (.invalidArgument, ptr)
  | some i =>
    if 0xffffff < frac then (.invalidArgument, ptr)
    else
      (.success, Function.update ptr i
        { ptr i with
          freq := (ptr i).freq &&& ~~~freqFrac.mask 32 ||| freqFrac.set frac })

/-! ## The contract -/

/-- A feedback divider for one of the modes. -/
inductive PllFeedback where
  | intMode (fbdiv : BitVec 16)
  | fracMode (fbdiv : BitVec 16) (frac : BitVec 32)

/-- What a setter that succeeds makes of the PLLs. -/
def accepted (r : PllctlStat × PllctlBase) : Option PllctlBase :=
  if r.1 = .success then some r.2 else none

/-- Setting the feedback divider, where the setters accept it. -/
def PllFeedback.set (feedback : PllFeedback) (ptr : PllctlBase) (pll : Fin 5) : Option PllctlBase :=
  match feedback with
  | .intMode fbdiv => accepted (pllctlSetFbdivInt ptr pll fbdiv)
  | .fracMode fbdiv frac => do
    let ptr ← accepted (pllctlSetFbdivFrac ptr pll fbdiv)
    accepted (pllctlSetFrac ptr pll frac)

/-- The multiplier of the documented formulas, `fbdiv` and `fbdiv + frac/2^24`. -/
def PllFeedback.multiplier : PllFeedback → ℚ
  | .intMode fbdiv => fbdiv.toNat
  | .fracMode fbdiv frac => fbdiv.toNat + frac.toNat / 2 ^ 24

/-- A PLL in the mode of the divider. -/
def PllFeedback.Mode (regs : PllRegs) : PllFeedback → Prop
  | .intMode _ => cfg0Dsmpd.get regs.cfg0 ≠ 0#32
  | .fracMode _ _ => cfg0Dsmpd.get regs.cfg0 = 0#32

/-- A PLL that is powered on, with dividers that the setters accept. -/
structure PllReady (ptr : PllctlBase) (pll : Fin 5) : Prop where
  on : cfg1PllpdSw.get (ptr pll).cfg1 = 0#32
  refdiv : (pllctlSetRefdiv ptr pll (BitVec.ofNat 8 (ptr pll).refdiv)).1 = .success
  postdiv : (pllctlSetPostdiv1 ptr pll (BitVec.ofNat 8 (ptr pll).postdiv)).1 = .success

/-- The frequency that is read is that of the documented formula, `Fref/refdiv * multiplier /
postdiv1`, up to what a truncated reference loses for each unit of the multiplier and the
truncated result. -/
def PllReads (ptr : PllctlBase) (pll : Fin 5) (multiplier : ℚ) : Prop :=
  ∃ hz, pllctlGetPllFreqInHz pllctlFracFreq ptr pll = some hz ∧
    |(hz.toNat : ℚ) -
      pllctlSocPllRefclkFreq / (ptr pll).refdiv * multiplier / (ptr pll).postdiv| ≤ multiplier + 1

/-! ## What the setters store -/

section Stored

variable {ptr ptr' : PllctlBase} {pll : Fin 5}

theorem pllctlIndex_val (pll : Fin 5) : pllctlIndex pll = some pll :=
  dif_pos pll.isLt

/-- A setter that succeeds has written the registers of its PLL. -/
theorem accepted_setter {p : Prop} [Decidable p] {regs : PllRegs} :
    accepted (if p then (.invalidArgument, ptr) else (.success, Function.update ptr pll regs)) =
      some ptr' ↔ ¬ p ∧ Function.update ptr pll regs = ptr' := by
  split
  · next h =>
    refine iff_of_false (fun heq => ?_) fun hand => hand.1 h
    cases heq
  · next h => exact Option.some_inj.trans (and_iff_right h).symm

/-- One less than a divider that is accepted. -/
theorem toNat_fbdiv_sub {fbdiv : BitVec 16} {max : BitVec 32} (hmax : max.toNat ≤ 0xfff)
    (h : ¬ max < fbdiv.setWidth 32 - 1#32) :
    1 ≤ fbdiv.toNat ∧ (fbdiv.setWidth 32 - 1#32).toNat = fbdiv.toNat - 1 ∧
      fbdiv.toNat - 1 ≤ max.toNat := by
  have hle : (fbdiv.setWidth 32 - 1#32).toNat ≤ max.toNat := Nat.not_lt.mp h
  have hlt := fbdiv.isLt
  rw [BitVec.toNat_sub, BitVec.toNat_setWidth] at hle ⊢
  change (2 ^ 32 - 1 + fbdiv.toNat % 2 ^ 32) % 2 ^ 32 ≤ _ at hle
  change _ ∧ (2 ^ 32 - 1 + fbdiv.toNat % 2 ^ 32) % 2 ^ 32 = _ ∧ _
  omega

/-- A call that is accepted stores one less than its argument. -/
theorem pllctlSetFbdivInt_spec {fbdiv : BitVec 16}
    (h : accepted (pllctlSetFbdivInt ptr pll fbdiv) = some ptr') :
    (ptr' pll).cfg0 = (ptr pll).cfg0 ∧ (ptr' pll).cfg1 = (ptr pll).cfg1 ∧
      1 ≤ fbdiv.toNat ∧ fbdiv.toNat ≤ 4096 ∧ (ptr' pll).fbdiv = fbdiv.toNat - 1 := by
  unfold pllctlSetFbdivInt at h
  rw [pllctlIndex_val] at h
  obtain ⟨hrange, rfl⟩ := accepted_setter.mp h
  obtain ⟨hmin, hsub, hmax⟩ := toNat_fbdiv_sub (by decide) hrange
  have hmax : fbdiv.toNat - 1 ≤ 0xfff := hmax
  rw [Function.update_self]
  refine ⟨rfl, rfl, hmin, by omega, ?_⟩
  unfold PllRegs.fbdiv
  rw [RegField.get_store _ _ (by decide), hsub]
  exact Nat.mod_eq_of_lt (Nat.lt_succ_of_le hmax)

/-- The same for the divider of the fraction mode. -/
theorem pllctlSetFbdivFrac_spec {fbdiv : BitVec 16}
    (h : accepted (pllctlSetFbdivFrac ptr pll fbdiv) = some ptr') :
    (ptr' pll).cfg0 = (ptr pll).cfg0 ∧ (ptr' pll).cfg1 = (ptr pll).cfg1 ∧
      1 ≤ fbdiv.toNat ∧ fbdiv.toNat ≤ 256 ∧ (ptr' pll).fbdivFrac = fbdiv.toNat - 1 := by
  unfold pllctlSetFbdivFrac at h
  rw [pllctlIndex_val] at h
  obtain ⟨hrange, rfl⟩ := accepted_setter.mp h
  obtain ⟨hmin, hsub, hmax⟩ := toNat_fbdiv_sub (by decide) hrange
  have hmax : fbdiv.toNat - 1 ≤ 0xff := hmax
  rw [Function.update_self]
  refine ⟨rfl, rfl, hmin, by omega, ?_⟩
  unfold PllRegs.fbdivFrac
  rw [RegField.get_store _ _ (by decide), hsub]
  exact Nat.mod_eq_of_lt (Nat.lt_succ_of_le hmax)

/-- The fraction is stored as it is. -/
theorem pllctlSetFrac_spec {frac : BitVec 32}
    (h : accepted (pllctlSetFrac ptr pll frac) = some ptr') :
    (ptr' pll).cfg0 = (ptr pll).cfg0 ∧ (ptr' pll).cfg1 = (ptr pll).cfg1 ∧
      (ptr' pll).fbdivFrac = (ptr pll).fbdivFrac ∧ frac.toNat < 2 ^ 24 ∧
      (ptr' pll).frac = frac.toNat := by
  unfold pllctlSetFrac at h
  rw [pllctlIndex_val] at h
  obtain ⟨hrange, rfl⟩ := accepted_setter.mp h
  have hlt : frac.toNat < 2 ^ 24 := Nat.lt_succ_of_le (Nat.not_lt.mp hrange)
  rw [Function.update_self]
  refine ⟨rfl, rfl, ?_, hlt, ?_⟩
  · exact congrArg BitVec.toNat (RegField.get_store_of_apart _ _ (by decide))
  · unfold PllRegs.frac
    rw [RegField.get_store _ _ (by decide)]
    exact Nat.mod_eq_of_lt hlt

end Stored

/-! ## What is read back -/

section Read

variable {ptr ptr' : PllctlBase} {pll : Fin 5}

/-- A product with one unit too few is further off than the truncations are. -/
theorem not_pllReads {multiplier : ℚ} (hr : 0 < (ptr pll).refdiv) (hp : 0 < (ptr pll).postdiv)
    (hmin : 0 ≤ multiplier) (hmax : multiplier ≤ 4096)
    (hget : ∀ hz, pllctlGetPllFreqInHz pllctlFracFreq ptr pll = some hz →
      (hz.toNat : ℚ) ≤ refStep (ptr pll).refdiv (ptr pll).postdiv * (multiplier - 1)) :
    ¬ PllReads ptr pll multiplier := by
  rintro ⟨hz, hread, hnear⟩
  have hstep : 54421 ≤ refStep (ptr pll).refdiv (ptr pll).postdiv := by
    have hmul : (ptr pll).refdiv * (ptr pll).postdiv ≤ 63 * 7 :=
      Nat.mul_le_mul (ptr pll).refdiv_le (ptr pll).postdiv_le
    calc 54421 = pllctlSocPllRefclkFreq / (63 * 7) := rfl
      _ ≤ refStep (ptr pll).refdiv (ptr pll).postdiv :=
          Nat.div_le_div_left hmul (Nat.mul_pos hr hp)
  have hcast : (54421 : ℚ) ≤ refStep (ptr pll).refdiv (ptr pll).postdiv := by exact_mod_cast hstep
  have hformula : (refStep (ptr pll).refdiv (ptr pll).postdiv : ℚ) * multiplier ≤
      pllctlSocPllRefclkFreq / (ptr pll).refdiv * multiplier / (ptr pll).postdiv := by
    have href : (refStep (ptr pll).refdiv (ptr pll).postdiv : ℚ) ≤
        pllctlSocPllRefclkFreq / ((ptr pll).refdiv * (ptr pll).postdiv : Nat) := Nat.cast_div_le
    calc (refStep (ptr pll).refdiv (ptr pll).postdiv : ℚ) * multiplier
        ≤ pllctlSocPllRefclkFreq / ((ptr pll).refdiv * (ptr pll).postdiv : Nat) * multiplier :=
          mul_le_mul_of_nonneg_right href hmin
      _ = _ := by
          rw [Nat.cast_mul, ← div_div, div_mul_eq_mul_div]
  have hlow := (abs_le.mp hnear).1
  have hhz := hget hz hread
  linarith

/-- The reader multiplies by what is stored, so it reads at most one step less. -/
theorem pllctlGet_int_le {fbdiv : Nat} (hmin : 1 ≤ fbdiv)
    (hmode : cfg0Dsmpd.get (ptr pll).cfg0 ≠ 0#32) (hheld : (ptr pll).fbdiv = fbdiv - 1)
    {hz : BitVec 32} (h : pllctlGetPllFreqInHz pllctlFracFreq ptr pll = some hz)
    (hon : cfg1PllpdSw.get (ptr pll).cfg1 = 0#32) :
    (hz.toNat : ℚ) ≤ refStep (ptr pll).refdiv (ptr pll).postdiv * ((fbdiv : ℚ) - 1) := by
  have hon : (ptr pll).cfg1 &&& cfg1PllpdSw.mask 32 = 0 := (RegField.and_mask_eq_zero _).mpr hon
  have hmode : (ptr pll).cfg0 &&& cfg0Dsmpd.mask 32 ≠ 0 :=
    fun hzero => hmode ((RegField.and_mask_eq_zero _).mp hzero)
  unfold pllctlGetPllFreqInHz at h
  simp only [ne_eq, hon, not_true, if_false, hmode, not_false_iff, if_true, hheld] at h
  split at h
  · cases h
  · cases h
    rw [BitVec.toNat_ofNat, ← Nat.cast_pred hmin]
    exact_mod_cast Nat.mod_le _ _

/-- In fraction mode it reads at most one step less, with the fraction. -/
theorem pllctlGet_frac_le {fbdiv : Nat} (hmin : 1 ≤ fbdiv)
    (hmode : cfg0Dsmpd.get (ptr pll).cfg0 = 0#32) (hheld : (ptr pll).fbdivFrac = fbdiv - 1)
    {hz : BitVec 32} (h : pllctlGetPllFreqInHz pllctlFracFreq ptr pll = some hz)
    (hon : cfg1PllpdSw.get (ptr pll).cfg1 = 0#32) :
    (hz.toNat : ℚ) ≤ refStep (ptr pll).refdiv (ptr pll).postdiv *
      ((fbdiv : ℚ) + (ptr pll).frac / 2 ^ 24 - 1) := by
  have hon : (ptr pll).cfg1 &&& cfg1PllpdSw.mask 32 = 0 := (RegField.and_mask_eq_zero _).mpr hon
  have hmode : (ptr pll).cfg0 &&& cfg0Dsmpd.mask 32 = 0 := (RegField.and_mask_eq_zero _).mpr hmode
  unfold PllRegs.fbdivFrac at hheld
  unfold pllctlGetPllFreqInHz at h
  simp only [ne_eq, hon, not_true, if_false, hmode] at h
  split at h
  · cases h
  · cases h
    unfold pllctlFracFreq
    rw [BitVec.toNat_ofNat, hheld, Nat.cast_pred hmin, ← sub_add_eq_add_sub]
    refine (Nat.cast_le.mpr (Nat.mod_le _ _)).trans (Nat.floor_le ?_)
    apply mul_nonneg (Nat.cast_nonneg _)
    apply add_nonneg
    · rw [sub_nonneg]
      exact_mod_cast hmin
    · exact div_nonneg (Nat.cast_nonneg _) (by norm_num)

end Read

/-! ## The contract -/

theorem PllReady.refdiv_pos {ptr : PllctlBase} {pll : Fin 5} (h : PllReady ptr pll) :
    0 < (ptr pll).refdiv := by
  have hstat := h.refdiv
  apply Nat.pos_of_ne_zero
  intro hzero
  unfold pllctlSetRefdiv at hstat
  rw [pllctlIndex_val, hzero] at hstat
  cases hstat

theorem PllReady.postdiv_pos {ptr : PllctlBase} {pll : Fin 5} (h : PllReady ptr pll) :
    0 < (ptr pll).postdiv := by
  have hstat := h.postdiv
  apply Nat.pos_of_ne_zero
  intro hzero
  unfold pllctlSetPostdiv1 at hstat
  rw [pllctlIndex_val, hzero] at hstat
  cases hstat

/-- Whatever is set, the frequency that is read back is not that of the formula.

The setters store the divider less one, and the reader multiplies by what is stored: the result is
one reference step short.  A step is more than what the rounding of the reader and of the fraction
can make up for, for every divider, so this holds whatever the dividers and the fraction are. -/
theorem pllFeedback_never_reads (feedback : PllFeedback) (ptr : PllctlBase) (pll : Fin 5)
    {ptr' : PllctlBase} (hready : PllReady ptr pll) (hmode : feedback.Mode (ptr pll))
    (hset : feedback.set ptr pll = some ptr') : ¬ PllReads ptr' pll feedback.multiplier := by
  have hrefdiv := hready.refdiv_pos
  have hpostdiv := hready.postdiv_pos
  have hon := hready.on
  cases feedback with
  | intMode fbdiv =>
    obtain ⟨hcfg0, hcfg1, hmin, hmax, hheld⟩ := pllctlSetFbdivInt_spec hset
    have hmode : cfg0Dsmpd.get (ptr pll).cfg0 ≠ 0#32 := hmode
    unfold PllRegs.refdiv at hrefdiv
    unfold PllRegs.postdiv at hpostdiv
    rw [← hcfg0] at hrefdiv hpostdiv hmode
    rw [← hcfg1] at hon
    have hmax : (fbdiv.toNat : ℚ) ≤ 4096 := by exact_mod_cast hmax
    refine not_pllReads hrefdiv hpostdiv (Nat.cast_nonneg _) hmax ?_
    exact fun hz h => pllctlGet_int_le hmin hmode hheld h hon
  | fracMode fbdiv frac =>
    obtain ⟨ptr₁, hfbdiv, hfrac⟩ := Option.bind_eq_some_iff.mp hset
    obtain ⟨hcfg0, hcfg1, hmin, hmax, hheld⟩ := pllctlSetFbdivFrac_spec hfbdiv
    obtain ⟨hcfg0', hcfg1', hkept, hlt, hfrac⟩ := pllctlSetFrac_spec hfrac
    have hmode : cfg0Dsmpd.get (ptr pll).cfg0 = 0#32 := hmode
    unfold PllRegs.refdiv at hrefdiv
    unfold PllRegs.postdiv at hpostdiv
    rw [← hcfg0, ← hcfg0'] at hrefdiv hpostdiv hmode
    rw [← hcfg1, ← hcfg1'] at hon
    have hpart : (frac.toNat : ℚ) / 2 ^ 24 ≤ 1 := by
      rw [div_le_one (by norm_num)]
      exact_mod_cast hlt.le
    have hmax : (fbdiv.toNat : ℚ) ≤ 256 := by exact_mod_cast hmax
    have hnonneg : (0 : ℚ) ≤ frac.toNat / 2 ^ 24 := div_nonneg (Nat.cast_nonneg _) (by norm_num)
    refine not_pllReads hrefdiv hpostdiv (add_nonneg (Nat.cast_nonneg _) hnonneg) ?_ ?_
    · change (fbdiv.toNat : ℚ) + frac.toNat / 2 ^ 24 ≤ 4096
      linarith
    · intro hz h
      have hle := pllctlGet_frac_le hmin hmode (hkept.trans hheld) h hon
      rw [hfrac] at hle
      exact hle

/-- A PLL in integer mode, undivided, set to 25 times the reference. -/
theorem pllFeedback_never_reads_undivided :
    ¬ PllReads (pllctlSetFbdivInt (pllctlWithCfg0 0x1100008) 0 25).2 0 25 :=
  pllFeedback_never_reads (.intMode 25) (pllctlWithCfg0 0x1100008) 0
    ⟨by decide, by decide, by decide⟩ (by decide : cfg0Dsmpd.get 0x1100008#32 ≠ 0#32) rfl

/-- The same PLL reads 576 MHz, where 25 times 24 MHz are 600 MHz. -/
theorem pllFeedback_reads_less : ¬ ∀ (feedback : PllFeedback) (ptr : PllctlBase) (pll : Fin 5)
    (ptr' : PllctlBase), PllReady ptr pll → feedback.Mode (ptr pll) →
      feedback.set ptr pll = some ptr' → PllReads ptr' pll feedback.multiplier := by
  intro h
  obtain ⟨hz, hread, hnear⟩ := h (.intMode 25) (pllctlWithCfg0 0x1100008) 0
    (pllctlSetFbdivInt (pllctlWithCfg0 0x1100008) 0 25).2 ⟨by decide, by decide, by decide⟩
    (by decide : cfg0Dsmpd.get 0x1100008#32 ≠ 0#32) rfl
  obtain rfl : 576000000#32 = hz := Option.some.inj hread
  have hrefdiv : ((pllctlSetFbdivInt (pllctlWithCfg0 0x1100008) 0 25).2 0).refdiv = 1 := rfl
  have hpostdiv : ((pllctlSetFbdivInt (pllctlWithCfg0 0x1100008) 0 25).2 0).postdiv = 1 := rfl
  have hmult : (PllFeedback.intMode 25).multiplier = (25 : Nat) := rfl
  have hlow := (abs_le.mp hnear).1
  rw [hrefdiv, hpostdiv, hmult] at hlow
  unfold pllctlSocPllRefclkFreq at hlow
  norm_num at hlow

end HpmSdk.Pllctl
