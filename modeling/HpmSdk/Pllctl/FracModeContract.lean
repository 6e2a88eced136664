import HpmSdk.Pllctl.FracMode
import HpmSdk.Pllctl.IntModeContract

set_option autoImplicit false

/-!
# PLLs in fraction mode: when the fraction is one

A search that ends in range ends at a reference divider of 1 or 2.  The quotient that is written
is then at least 20; what can go wrong is that it is above 240, or above the exact quotient.

What the search ends with is named by `FracFound`, and the rest of the call is a computation from
there.
-/

namespace HpmSdk.Pllctl

open HpmSdk.Foundation

/-! ## The search -/

section Search

variable {freq refdiv postdiv : Nat}

/-- The first estimate. -/
def fracEstimate (freq refdiv postdiv : Nat) : Nat :=
  freq / postdiv / (pllctlSocPllRefclkFreq / refdiv)

/-- The computation in `double` is the exact quotient, rounded down. -/
theorem pllctlFracEstimate_eq (hr : 0 < refdiv ∧ refdiv ≤ 63) (hp : 0 < postdiv) :
    pllctlFracEstimate freq refdiv postdiv = some (fracEstimate freq refdiv postdiv) := by
  have hzero : ¬ (refdiv = 0 ∨ postdiv = 0) := by omega
  have href : pllctlSocPllRefclkFreq / refdiv ≠ 0 :=
    (Nat.div_pos (hr.2.trans (by decide)) hr.1).ne'
  unfold pllctlFracEstimate
  rw [if_neg hzero]
  exact if_neg href

/-- The loop that lowers `refdiv` ends at a divider that fits, or with one that does not. -/
theorem pllctlLowerRefdivFrac_spec (hp : 0 < postdiv ∧ postdiv ≤ 7) (n : Nat)
    (hn : 2 ≤ n ∧ n ≤ 63) : ∃ refdiv fbdiv,
    pllctlLowerRefdivFrac freq postdiv n = some (refdiv, fbdiv) ∧
      (240 < fbdiv ∨ 2 ≤ refdiv ∧ fbdiv = freq / refStep refdiv postdiv) := by
  induction n with
  | zero => exact absurd hn.1 (by decide)
  | succ n ih =>
    unfold pllctlLowerRefdivFrac
    rw [pllctlFbdiv_eq ⟨by omega, hn.2⟩ hp]
    simp only [Option.bind_eq_bind, Option.bind_some]
    by_cases hover : pllctlFracPllMaxFbdiv < freq / refStep (n + 1) postdiv
    · rw [if_pos hover]
      by_cases hmore : pllctlPllMinRefdiv < n
      · rw [if_pos hmore]
        exact ih ⟨hmore, by omega⟩
      · rw [if_neg hmore]
        exact ⟨n, _, rfl, .inl hover⟩
    · rw [if_neg hover]
      exact ⟨n + 1, _, rfl, .inr ⟨hn.1, rfl⟩⟩

/-- Where a search ends that ends in range. -/
inductive FracFound (freq refdiv postdiv : Nat) : Nat → Prop where
  | same : refdiv ≤ 2 → 20 ≤ fracEstimate freq refdiv postdiv →
    FracFound freq refdiv postdiv refdiv
  | lower : 2 < refdiv → 240 < fracEstimate freq refdiv postdiv →
    freq / refStep 2 postdiv ≤ 240 → FracFound freq refdiv postdiv 2
  | raise : refdiv = 1 → fracEstimate freq refdiv postdiv < 20 →
    freq / refStep 2 postdiv ≤ 240 → FracFound freq refdiv postdiv 2

/-- Above 2 the reference is too slow. -/
theorem pllctlOutOfRangeFrac_of_lt {fbdiv : Nat} (h : 2 < refdiv) :
    PllctlOutOfRangeFrac refdiv fbdiv := by
  refine .inr (.inr (.inr (.inr ?_)))
  rw [Nat.div_lt_iff_lt_mul (by omega)]
  unfold pllctlSocPllRefclkFreq pllctlFracPllMinRef
  omega

/-- A quotient above 240 is out of range. -/
theorem pllctlOutOfRangeFrac_of_over {fbdiv : Nat} (h : 240 < fbdiv) :
    PllctlOutOfRangeFrac refdiv fbdiv :=
  .inr (.inr (.inl h))

/-- Small dividers do not make the quotient small. -/
theorem fracEstimate_le (hfreq : freq ≤ pllctlPllVcoFreqMax) (hr : 0 < refdiv ∧ refdiv ≤ 2) :
    fracEstimate freq refdiv postdiv ≤ 240 := by
  have href : pllctlSocPllRefclkFreq / 2 ≤ pllctlSocPllRefclkFreq / refdiv :=
    Nat.div_le_div_left hr.2 hr.1
  calc fracEstimate freq refdiv postdiv
      ≤ freq / (pllctlSocPllRefclkFreq / refdiv) := Nat.div_le_div_right (Nat.div_le_self _ _)
    _ ≤ pllctlPllVcoFreqMax / (pllctlSocPllRefclkFreq / 2) :=
        Nat.div_le_div hfreq href (by decide)
    _ ≤ 240 := by decide

/-- From a reference divider of 2 on the quotient is at least 20. -/
theorem quotient_two_le (hfreq : pllctlPllVcoFreqMin ≤ freq) (hr : 2 ≤ refdiv ∧ refdiv ≤ 63)
    (hp : 0 < postdiv ∧ postdiv ≤ 7) : 20 ≤ freq / refStep refdiv postdiv := by
  have hmul : 2 ≤ refdiv * postdiv := hr.1.trans (Nat.le_mul_of_pos_right _ hp.1)
  have hstep : refStep refdiv postdiv ≤ 12000000 := Nat.div_le_div_left hmul Nat.two_pos
  calc 20 ≤ pllctlPllVcoFreqMin / 12000000 := by decide
    _ ≤ freq / refStep refdiv postdiv :=
        Nat.div_le_div hfreq hstep (refStep_pos ⟨by omega, hr.2⟩ hp).ne'

/-- Only small dividers make the estimate small. -/
theorem lt_of_fracEstimate_lt (hfreq : pllctlPllVcoFreqMin ≤ freq)
    (hr : 0 < refdiv ∧ refdiv ≤ 63) (hp : 0 < postdiv ∧ postdiv ≤ 7)
    (h : fracEstimate freq refdiv postdiv < 20) : refdiv < 63 := by
  by_contra hlast
  have hlast : refdiv = 63 := by omega
  have hquot : pllctlPllVcoFreqMin / 7 ≤ freq / postdiv := Nat.div_le_div hfreq hp.2 hp.1.ne'
  have hest : pllctlPllVcoFreqMin / 7 / (pllctlSocPllRefclkFreq / 63) ≤
      fracEstimate freq refdiv postdiv := by
    unfold fracEstimate
    rw [hlast]
    exact Nat.div_le_div_right hquot
  exact absurd (hest.trans_lt h) (by decide)

/-- An estimate in range ends the search. -/
theorem pllctlDividersFrac_same (hr : 0 < refdiv ∧ refdiv ≤ 63) (hp : 0 < postdiv)
    (hmin : 20 ≤ fracEstimate freq refdiv postdiv) (hmax : fracEstimate freq refdiv postdiv ≤ 240) :
    pllctlDividersFrac freq refdiv postdiv =
      some (refdiv, fracEstimate freq refdiv postdiv) := by
  unfold pllctlDividersFrac
  rw [pllctlFracEstimate_eq hr hp]
  simp only [Option.bind_eq_bind, Option.bind_some]
  rw [if_neg (show ¬ pllctlFracPllMaxFbdiv < _ from Nat.not_lt.mpr hmax),
    if_neg (show ¬ _ < pllctlFracPllMinFbdiv from Nat.not_lt.mpr hmin)]

/-- A small estimate goes one divider up. -/
theorem pllctlDividersFrac_raise (hfreq : pllctlPllVcoFreqMin ≤ freq)
    (hr : 0 < refdiv ∧ refdiv ≤ 63) (hp : 0 < postdiv ∧ postdiv ≤ 7)
    (h : fracEstimate freq refdiv postdiv < 20) :
    pllctlDividersFrac freq refdiv postdiv =
      some (refdiv + 1, freq / refStep (refdiv + 1) postdiv) := by
  have hlt := lt_of_fracEstimate_lt hfreq hr hp h
  have hmin : ¬ freq / refStep (refdiv + 1) postdiv < pllctlFracPllMinFbdiv :=
    Nat.not_lt.mpr (quotient_two_le hfreq ⟨by omega, by omega⟩ hp)
  have hmax : ¬ pllctlFracPllMaxFbdiv < fracEstimate freq refdiv postdiv :=
    Nat.not_lt.mpr (h.le.trans (by decide))
  unfold pllctlDividersFrac
  rw [pllctlFracEstimate_eq hr hp.1]
  simp only [Option.bind_eq_bind, Option.bind_some]
  rw [if_neg hmax, if_pos (show _ < pllctlFracPllMinFbdiv from h), pllctlRaiseRefdivFrac,
    pllctlFbdiv_eq ⟨by omega, by omega⟩ hp]
  simp only [Option.bind_eq_bind, Option.bind_some]
  rw [if_neg hmin]

/-- The search returns, out of range or with a divider of 1 or 2. -/
theorem pllctlDividersFrac_spec
    (hfreq : pllctlPllVcoFreqMin ≤ freq ∧ freq ≤ pllctlPllVcoFreqMax)
    (hr : 0 < refdiv ∧ refdiv ≤ 63) (hp : 0 < postdiv ∧ postdiv ≤ 7) : ∃ refdiv' fbdiv',
    pllctlDividersFrac freq refdiv postdiv = some (refdiv', fbdiv') ∧
      (PllctlOutOfRangeFrac refdiv' fbdiv' ∨
        ¬ PllctlOutOfRangeFrac refdiv' fbdiv' ∧ FracFound freq refdiv postdiv refdiv') := by
  by_cases hunder : fracEstimate freq refdiv postdiv < 20
  · refine ⟨_, _, pllctlDividersFrac_raise hfreq.1 hr hp hunder, ?_⟩
    rw [or_iff_not_imp_left]
    intro hin
    have hfits := Nat.not_lt.mp fun h => hin (pllctlOutOfRangeFrac_of_over h)
    have hslow : refdiv + 1 ≤ 2 := Nat.not_lt.mp fun h => hin (pllctlOutOfRangeFrac_of_lt h)
    obtain rfl : refdiv = 1 := by omega
    exact ⟨hin, .raise rfl hunder hfits⟩
  by_cases hover : 240 < fracEstimate freq refdiv postdiv
  · have hlarge : 2 < refdiv := by
      by_contra hsmall
      exact absurd (fracEstimate_le hfreq.2 ⟨hr.1, Nat.not_lt.mp hsmall⟩) (Nat.not_le.mpr hover)
    obtain ⟨refdiv', fbdiv', heq, hfound⟩ :=
      @pllctlLowerRefdivFrac_spec freq postdiv hp (refdiv - 1) ⟨by omega, by omega⟩
    refine ⟨refdiv', fbdiv', ?_, ?_⟩
    · unfold pllctlDividersFrac
      rw [pllctlFracEstimate_eq hr hp.1]
      simp only [Option.bind_eq_bind, Option.bind_some]
      rw [if_pos (show pllctlFracPllMaxFbdiv < _ from hover), heq]
    · rw [or_iff_not_imp_left]
      intro hin
      have hfits : fbdiv' ≤ 240 := Nat.not_lt.mp fun h => hin (pllctlOutOfRangeFrac_of_over h)
      have hslow : refdiv' ≤ 2 := Nat.not_lt.mp fun h => hin (pllctlOutOfRangeFrac_of_lt h)
      obtain ⟨hmin, hquot⟩ := hfound.resolve_left (Nat.not_lt.mpr hfits)
      obtain rfl : refdiv' = 2 := le_antisymm hslow hmin
      exact ⟨hin, .lower hlarge hover (hquot ▸ hfits)⟩
  · refine ⟨_, _, pllctlDividersFrac_same hr hp.1 (Nat.not_lt.mp hunder) (Nat.not_lt.mp hover), ?_⟩
    rw [or_iff_not_imp_left]
    intro hin
    have hslow : refdiv ≤ 2 := Nat.not_lt.mp fun h => hin (pllctlOutOfRangeFrac_of_lt h)
    exact ⟨hin, .same hslow (Nat.not_lt.mp hunder)⟩

/-- A small divider with a quotient in range passes the check. -/
theorem not_pllctlOutOfRangeFrac {fbdiv : Nat} (hr : 0 < refdiv ∧ refdiv ≤ 2)
    (hf : 20 ≤ fbdiv ∧ fbdiv ≤ 240) : ¬ PllctlOutOfRangeFrac refdiv fbdiv := by
  have href : pllctlSocPllRefclkFreq / 2 ≤ pllctlSocPllRefclkFreq / refdiv :=
    Nat.div_le_div_left hr.2 hr.1
  unfold PllctlOutOfRangeFrac pllctlPllMaxRefdiv pllctlPllMinRefdiv pllctlFracPllMaxFbdiv
    pllctlFracPllMinFbdiv pllctlFracPllMinRef
  unfold pllctlSocPllRefclkFreq at href ⊢
  omega

/-- A request that goes wrong is not refused. -/
theorem not_outOfRange_of_wrong {refdiv' fbdiv' : Nat}
    (hfreq : pllctlPllVcoFreqMin ≤ freq ∧ freq ≤ pllctlPllVcoFreqMax)
    (hr : 0 < refdiv ∧ refdiv ≤ 63) (hp : 0 < postdiv ∧ postdiv ≤ 7)
    (heq : pllctlDividersFrac freq refdiv postdiv = some (refdiv', fbdiv'))
    (hwrong : PllctlFracWrong freq refdiv postdiv) : ¬ PllctlOutOfRangeFrac refdiv' fbdiv' := by
  rcases hwrong with ⟨hle, hest, -⟩ | ⟨rfl, rfl, hfits, -⟩
  · have hmax := @fracEstimate_le freq refdiv postdiv hfreq.2 ⟨hr.1, hle⟩
    rw [pllctlDividersFrac_same hr hp.1 hest hmax] at heq
    cases heq
    exact not_pllctlOutOfRangeFrac ⟨hr.1, hle⟩ ⟨hest, hmax⟩
  · have hunder : fracEstimate freq 1 7 < 20 := by
      unfold fracEstimate pllctlSocPllRefclkFreq
      unfold pllctlPllVcoFreqMax at hfreq
      omega
    rw [pllctlDividersFrac_raise hfreq.1 hr hp hunder] at heq
    cases heq
    exact not_pllctlOutOfRangeFrac (by decide) ⟨quotient_two_le hfreq.1 (by decide) hp, hfits⟩

/-- So the search does not go beyond 2. -/
theorem FracFound.refdiv_le {refdiv' : Nat} (h : FracFound freq refdiv postdiv refdiv')
    (hr : 0 < refdiv) : 0 < refdiv' ∧ refdiv' ≤ 2 := by
  cases h with
  | same hle => exact ⟨hr, hle⟩
  | lower => decide
  | raise => decide

end Search

/-! ## The quotient -/

/-- Behind small dividers the reference is exact, but for a post divider of 7. -/
theorem refStep_exact : ∀ refdiv < 3, ∀ postdiv < 7, 0 < refdiv → 0 < postdiv →
    refStep refdiv postdiv * (refdiv * postdiv) = pllctlSocPllRefclkFreq := by
  decide

/-- The quotient that is written is above the exact one. -/
def QuotientOver (freq refdiv postdiv : Nat) : Prop :=
  freq * (refdiv * postdiv) < freq / refStep refdiv postdiv * pllctlSocPllRefclkFreq

section Quotient

variable {freq refdiv postdiv refdiv' : Nat}

/-- The quotient is above the exact one only for a post divider of 7. -/
theorem not_quotientOver (hr : 0 < refdiv ∧ refdiv ≤ 2) (hp : 0 < postdiv ∧ postdiv ≤ 6) :
    ¬ QuotientOver freq refdiv postdiv := by
  unfold QuotientOver
  rw [not_lt]
  calc freq / refStep refdiv postdiv * pllctlSocPllRefclkFreq
      = freq / refStep refdiv postdiv * refStep refdiv postdiv * (refdiv * postdiv) := by
        rw [← refStep_exact refdiv (by omega) postdiv (by omega) hr.1 hp.1, Nat.mul_assoc]
    _ ≤ freq * (refdiv * postdiv) := Nat.mul_le_mul_right _ (Nat.div_mul_le_self _ _)

/-- With a reference divider of 2 and a post divider of 7 both sides are even. -/
theorem quotientOver_seven :
    QuotientOver freq 2 7 ↔ 7 * freq < 12000000 * (freq / 1714285) := by
  have hstep : refStep 2 7 = 1714285 := rfl
  unfold QuotientOver pllctlSocPllRefclkFreq
  rw [hstep]
  omega

/-- The quotient can be above the exact one only with these dividers. -/
theorem FracFound.of_over (h : FracFound freq refdiv postdiv refdiv')
    (hfreq : freq ≤ pllctlPllVcoFreqMax) (hr : 0 < refdiv) (hp : 0 < postdiv ∧ postdiv ≤ 7)
    (hover : QuotientOver freq refdiv' postdiv) : refdiv' = 2 ∧ postdiv = 7 := by
  have hrange := h.refdiv_le hr
  have hseven : postdiv = 7 := by
    by_contra hne
    exact not_quotientOver hrange ⟨hp.1, by omega⟩ hover
  refine ⟨?_, hseven⟩
  subst hseven
  cases h with
  | same hle hest =>
    by_contra hne
    obtain rfl : refdiv = 1 := by omega
    unfold fracEstimate pllctlSocPllRefclkFreq at hest
    unfold pllctlPllVcoFreqMax at hfreq
    omega
  | lower => rfl
  | raise => rfl

/-- A search that ends in range goes wrong where the quotient that is written is above 240 or
above the exact one. -/
theorem FracFound.wrong_iff (h : FracFound freq refdiv postdiv refdiv')
    (hfreq : freq ≤ pllctlPllVcoFreqMax) (hr : 0 < refdiv ∧ refdiv ≤ 63)
    (hp : 0 < postdiv ∧ postdiv ≤ 7) :
    PllctlFracWrong freq refdiv postdiv ↔
      240 < freq / refStep refdiv' postdiv ∨ QuotientOver freq refdiv' postdiv := by
  have hof := h.of_over hfreq hr.1 hp
  have hstep : refStep 2 7 = 1714285 := rfl
  unfold PllctlFracWrong
  cases h with
  | same hle hest =>
    have hover : QuotientOver freq refdiv postdiv → 240 < freq / refStep refdiv postdiv := by
      intro hquot
      obtain ⟨rfl, rfl⟩ := hof hquot
      rw [hstep]
      unfold fracEstimate pllctlSocPllRefclkFreq at hest
      omega
    rw [or_iff_left_of_imp hover]
    constructor
    · rintro (⟨-, -, hw⟩ | ⟨rfl, rfl, -, -⟩)
      · exact hw
      · unfold fracEstimate pllctlSocPllRefclkFreq at hest
        unfold pllctlPllVcoFreqMax at hfreq
        omega
    · exact fun hw => .inl ⟨hle, hest, hw⟩
  | lower hlt hest hfits =>
    refine iff_of_false (by omega) ?_
    rintro (hlarge | hquot)
    · exact absurd hfits (Nat.not_le.mpr hlarge)
    · obtain rfl := (hof hquot).2
      have href : pllctlSocPllRefclkFreq / 63 ≤ pllctlSocPllRefclkFreq / refdiv :=
        Nat.div_le_div_left hr.2 hr.1
      have hest : 240 < freq / 7 / (pllctlSocPllRefclkFreq / 63) :=
        hest.trans_le (Nat.div_le_div_left href (by decide))
      rw [hstep] at hfits
      unfold pllctlSocPllRefclkFreq at hest
      omega
  | raise hone hest hfits =>
    subst hone
    constructor
    · rintro (⟨-, hmin, -⟩ | ⟨-, rfl, -, hw⟩)
      · exact absurd hest (Nat.not_lt.mpr hmin)
      · exact .inr (quotientOver_seven.mpr hw)
    · rintro (hlarge | hquot)
      · exact absurd hfits (Nat.not_le.mpr hlarge)
      · obtain rfl := (hof hquot).2
        rw [hstep] at hfits
        exact .inr ⟨rfl, rfl, hfits, quotientOver_seven.mp hquot⟩

/-- The quotient that is written is not below 20. -/
theorem FracFound.min_le (h : FracFound freq refdiv postdiv refdiv')
    (hfreq : pllctlPllVcoFreqMin ≤ freq) (hr : 0 < refdiv ∧ refdiv ≤ 63)
    (hp : 0 < postdiv ∧ postdiv ≤ 7) : 20 ≤ freq / refStep refdiv' postdiv := by
  cases h with
  | same hle hest =>
    calc 20 ≤ freq / postdiv / (pllctlSocPllRefclkFreq / refdiv) := hest
      _ ≤ freq / (pllctlSocPllRefclkFreq / refdiv) := Nat.div_le_div_right (Nat.div_le_self _ _)
      _ ≤ freq / refStep refdiv postdiv :=
          Nat.div_le_div_left
            (Nat.div_le_div_left (Nat.le_mul_of_pos_right _ hp.1) hr.1)
            (refStep_pos hr hp)
  | lower => exact quotient_two_le hfreq (by decide) hp
  | raise => exact quotient_two_le hfreq (by decide) hp

/-! ## The values that are written -/

/-- The multiplier of the truncated reference, in units of the fraction. -/
def fracMultiplier (freq refdiv postdiv : Nat) : Nat :=
  fixedPoint pllctlSocPllRefclkFreq (refdiv * postdiv) freq (2 ^ 24)

/-- A quotient above the exact one leaves a negative fraction, which is not converted. -/
theorem pllctlFracValues_of_over (h : QuotientOver freq 2 7) :
    pllctlFracValues freq 2 7 = none := by
  have hgap : freq * 14 + 2 ≤ freq / 1714285 * 24000000 := by
    have hover := quotientOver_seven.mp h
    omega
  have hstep : refStep 2 7 = 1714285 := rfl
  have hneg : ((freq : ℚ) / pllctlSocPllRefclkFreq * (2 * 7 : Nat) - (freq / 1714285 : Nat)) *
      (2 ^ 24 : Nat) ≤ -1 := by
    have hcast : (freq : ℚ) * 14 + 2 ≤ (freq / 1714285 : Nat) * 24000000 := by exact_mod_cast hgap
    unfold pllctlSocPllRefclkFreq
    push_cast
    linarith
  unfold pllctlFracValues doubleToUint32
  rw [pllctlFbdiv_eq (by decide) (by decide), hstep]
  simp only [Option.bind_eq_bind, Option.bind_some]
  rw [if_neg fun hrange => absurd hneg (not_le.mpr hrange.1)]
  rfl

/-- A quotient that is not above the exact one is the whole part of the multiplier, and the
fraction is the rest. -/
theorem pllctlFracValues_of_not_over (hr : 0 < refdiv ∧ refdiv ≤ 63)
    (hp : 0 < postdiv ∧ postdiv ≤ 7) (h : ¬ QuotientOver freq refdiv postdiv) :
    ∃ frac, pllctlFracValues freq refdiv postdiv =
        some ⟨refdiv, freq / refStep refdiv postdiv, frac⟩ ∧ frac < 2 ^ 24 ∧
      freq / refStep refdiv postdiv * 2 ^ 24 + frac = fracMultiplier freq refdiv postdiv := by
  have hle := Nat.not_lt.mp h
  have hclk : 0 < pllctlSocPllRefclkFreq := by decide
  have hfixed := @fixedPoint_eq _ _ _ (2 ^ 24) _ hclk hle
  have hlt : freq * (refdiv * postdiv) <
      (freq / refStep refdiv postdiv + 1) * pllctlSocPllRefclkFreq :=
    lt_succ_quotient (refStep_pos hr hp) (Nat.div_mul_le_self _ _) hclk
  have hbound := @fixedPoint_lt _ _ _ (2 ^ 24) _ hclk (by decide) hlt
  generalize hx : ((freq : ℚ) / pllctlSocPllRefclkFreq * (refdiv * postdiv : Nat) -
    (freq / refStep refdiv postdiv : Nat)) * (2 ^ 24 : Nat) = x at hfixed
  have hnonneg : 0 ≤ x := by
    have hcast : ((freq / refStep refdiv postdiv : Nat) : ℚ) * pllctlSocPllRefclkFreq ≤
        freq * (refdiv * postdiv : Nat) := by
      exact_mod_cast hle
    rw [← hx]
    apply mul_nonneg _ (Nat.cast_nonneg _)
    rw [sub_nonneg, div_mul_eq_mul_div, le_div_iff₀ (Nat.cast_pos.mpr hclk)]
    exact hcast
  have hfrac : ⌊x⌋₊ < 2 ^ 24 := by omega
  have hsmall : x < 2 ^ 32 := by
    have hlt24 : x < (2 ^ 24 : Nat) := (Nat.floor_lt hnonneg).mp hfrac
    refine hlt24.trans ?_
    norm_num
  refine ⟨⌊x⌋₊, ?_, hfrac, hfixed.symm⟩
  unfold pllctlFracValues doubleToUint32
  rw [pllctlFbdiv_eq hr hp]
  simp only [Option.bind_eq_bind, Option.bind_some, hx]
  rw [if_pos ⟨by linarith, hsmall⟩]
  rfl

end Quotient

/-! ## The registers -/

/-- `CFG0` with another reference divider, in fraction mode. -/
theorem cfg0_frac (v : BitVec 32) {refdiv : Nat} (hr : refdiv ≤ 63) :
    (cfg0Refdiv.get (v &&& ~~~(cfg0Refdiv.mask 32 ||| cfg0Dsmpd.mask 32) |||
        cfg0Refdiv.set (BitVec.ofNat 32 refdiv))).toNat = refdiv ∧
      cfg0Dsmpd.get (v &&& ~~~(cfg0Refdiv.mask 32 ||| cfg0Dsmpd.mask 32) |||
        cfg0Refdiv.set (BitVec.ofNat 32 refdiv)) = 0#32 ∧
      cfg0Postdiv1.get (v &&& ~~~(cfg0Refdiv.mask 32 ||| cfg0Dsmpd.mask 32) |||
        cfg0Refdiv.set (BitVec.ofNat 32 refdiv)) = cfg0Postdiv1.get v := by
  rw [BitVec.not_or, ← BitVec.and_assoc]
  refine ⟨?_, ?_, ?_⟩
  · rw [RegField.get_or, RegField.get_clear_of_apart _ (by decide), RegField.get_clear,
      BitVec.zero_or, RegField.get_set_toNat _ (by decide), BitVec.toNat_ofNat]
    show refdiv % 2 ^ 32 % 2 ^ 6 = refdiv
    omega
  · rw [RegField.get_or, RegField.get_clear, RegField.get_set_of_apart _ (by decide),
      BitVec.or_zero]
  · rw [RegField.get_or, RegField.get_clear_of_apart _ (by decide),
      RegField.get_clear_of_apart _ (by decide), RegField.get_set_of_apart _ (by decide),
      BitVec.or_zero]

/-- `FREQ` with another divider and fraction. -/
theorem freq_frac (v : BitVec 32) {fbdiv frac : Nat} (hf : fbdiv ≤ 240) (hfrac : frac < 2 ^ 24) :
    (freqFbdivFrac.get (v &&& ~~~(freqFrac.mask 32 ||| freqFbdivFrac.mask 32) |||
        freqFbdivFrac.set (BitVec.ofNat 32 fbdiv) |||
        freqFrac.set (BitVec.ofNat 32 frac))).toNat = fbdiv ∧
      (freqFrac.get (v &&& ~~~(freqFrac.mask 32 ||| freqFbdivFrac.mask 32) |||
        freqFbdivFrac.set (BitVec.ofNat 32 fbdiv) |||
        freqFrac.set (BitVec.ofNat 32 frac))).toNat = frac := by
  rw [BitVec.not_or, ← BitVec.and_assoc]
  constructor
  · have hother : freqFbdivFrac.get (freqFrac.set (BitVec.ofNat 32 frac)) = 0#32 :=
      RegField.get_set_of_apart _ (by decide)
    rw [RegField.get_or, RegField.get_or, RegField.get_clear, BitVec.zero_or, hother,
      BitVec.or_zero, RegField.get_set_toNat _ (by decide), BitVec.toNat_ofNat]
    show fbdiv % 2 ^ 32 % 2 ^ 8 = fbdiv
    omega
  · rw [RegField.get_or, RegField.get_or, RegField.get_clear_of_apart _ (by decide),
      RegField.get_clear, RegField.get_set_of_apart _ (by decide), BitVec.zero_or,
      BitVec.zero_or, RegField.get_set_toNat _ (by decide), BitVec.toNat_ofNat]
    show frac % 2 ^ 32 % 2 ^ 24 = frac
    omega

namespace PllRegs

variable (regs : PllRegs)

theorem poweron_freq : regs.poweron.freq = regs.freq := by
  simp only [poweron]
  split <;> rfl

/-- Disabling the spread spectrum leaves the other fields of `CFG0`. -/
theorem ssDisable_get {f : RegField} (hrst : f.Apart cfg0SsRstptr) (hreset : f.Apart cfg0SsReset)
    (hdis : f.Apart cfg0SsDisableSscg) : f.get regs.ssDisable.cfg0 = f.get regs.cfg0 := by
  unfold ssDisable
  dsimp only
  rw [RegField.get_or, RegField.get_or, RegField.get_or, RegField.get_mask_of_apart hrst,
    RegField.get_mask_of_apart hreset, RegField.get_mask_of_apart hdis]
  rw [BitVec.or_zero, BitVec.or_zero, BitVec.or_zero]

/-- What the writes leave: the setting, in fraction mode and powered on. -/
theorem programFrac_fields {setting : PllctlFracSetting} (hr : setting.refdiv ≤ 63)
    (hf : setting.fbdiv ≤ 240) (hfrac : setting.frac < 2 ^ 24) :
    (regs.programFrac setting).refdiv = setting.refdiv ∧
      (regs.programFrac setting).postdiv = regs.postdiv ∧
      cfg0Dsmpd.get (regs.programFrac setting).cfg0 = 0#32 ∧
      (regs.programFrac setting).fbdivFrac = setting.fbdiv ∧
      (regs.programFrac setting).frac = setting.frac ∧
      cfg1PllpdSw.get (regs.programFrac setting).cfg1 = 0#32 := by
  obtain ⟨hrefdiv, hdsmpd, hpostdiv⟩ := cfg0_frac regs.cfg0 hr
  obtain ⟨hfbdiv, hheld⟩ := freq_frac regs.freq hf hfrac
  unfold programFrac
  refine ⟨?_, ?_, ?_, ?_, ?_, poweron_pllpdSw _⟩
  · unfold refdiv
    rw [poweron_cfg0]
    exact (congrArg BitVec.toNat (ssDisable_get _ (by decide) (by decide) (by decide))).trans
      hrefdiv
  · unfold postdiv
    rw [poweron_cfg0]
    exact congrArg BitVec.toNat
      ((ssDisable_get _ (by decide) (by decide) (by decide)).trans hpostdiv)
  · rw [poweron_cfg0]
    exact (ssDisable_get _ (by decide) (by decide) (by decide)).trans hdsmpd
  · unfold fbdivFrac
    rw [poweron_freq]
    exact hfbdiv
  · unfold frac
    rw [poweron_freq]
    exact hheld

end PllRegs

/-! ## The frequency that is read back -/

/-- The result of the product in `double`. -/
theorem pllctlFracFreq_eq (refclk : Nat) (fbdiv frac : BitVec 32) :
    pllctlFracFreq refclk fbdiv frac =
      BitVec.ofNat 32 (refclk * (fbdiv.toNat * 2 ^ 24 + frac.toNat) / 2 ^ 24) := by
  have hexact : (refclk : ℚ) * (fbdiv.toNat + frac.toNat / 2 ^ 24) =
      (refclk * (fbdiv.toNat * 2 ^ 24 + frac.toNat) : ℕ) / (2 ^ 24 : ℕ) := by
    push_cast
    ring
  unfold pllctlFracFreq
  rw [hexact, Nat.floor_div_eq_div]

section Accurate

variable {freq refdiv postdiv frac : Nat}

/-- The product with the multiplier is below the request by at most one hertz for each whole
unit of it. -/
theorem freq_le_product (hr : 0 < refdiv ∧ refdiv ≤ 2)
    (hp : 0 < postdiv ∧ postdiv ≤ 7) (hquot : 20 ≤ freq / refStep refdiv postdiv)
    (hfrac : frac < 2 ^ 24)
    (hmul : freq / refStep refdiv postdiv * 2 ^ 24 + frac = fracMultiplier freq refdiv postdiv) :
    freq ≤ refStep refdiv postdiv * fracMultiplier freq refdiv postdiv / 2 ^ 24 +
      freq / refStep refdiv postdiv := by
  have hlack : freq * (refdiv * postdiv) * 2 ^ 24 < refdiv * postdiv *
        ((refStep refdiv postdiv * fracMultiplier freq refdiv postdiv / 2 ^ 24 + 1) * 2 ^ 24 +
          refStep refdiv postdiv) +
      pllctlSocPllRefclkFreq % (refdiv * postdiv) * (fracMultiplier freq refdiv postdiv + 1) :=
    freq_lt_mul_fixedPoint (by decide) (by decide)
  have hstep : refStep refdiv postdiv ≤ 24000000 := Nat.div_le_self _ _
  generalize fracMultiplier freq refdiv postdiv = x at hmul hlack ⊢
  generalize freq / refStep refdiv postdiv = fbdiv at hquot hmul ⊢
  generalize refStep refdiv postdiv * x / 2 ^ 24 = hz at hlack ⊢
  by_cases hseven : postdiv = 7
  · subst hseven
    rcases show refdiv = 1 ∨ refdiv = 2 by omega with rfl | rfl
    · have hrest : pllctlSocPllRefclkFreq % (1 * 7) = 3 := rfl
      rw [hrest] at hlack
      omega
    · have hrest : pllctlSocPllRefclkFreq % (2 * 7) = 10 := rfl
      rw [hrest] at hlack
      omega
  · have hexact := refStep_exact refdiv (by omega) postdiv (by omega) hr.1 hp.1
    have hrest : pllctlSocPllRefclkFreq % (refdiv * postdiv) = 0 := by
      rw [← hexact]
      exact Nat.mul_mod_left _ _
    rw [hrest, Nat.zero_mul, Nat.add_zero, Nat.mul_comm freq, Nat.mul_assoc] at hlack
    have hlt := Nat.lt_of_mul_lt_mul_left hlack
    omega

/-- What is read back behind the writes. -/
theorem pllctlGetPllFreqInHz_programFrac {ptr : PllctlBase} {pll : Fin 5}
    {setting : PllctlFracSetting} (hr : 0 < setting.refdiv ∧ setting.refdiv ≤ 63)
    (hp : 0 < (ptr pll).postdiv) (hf : setting.fbdiv ≤ 240) (hfrac : setting.frac < 2 ^ 24) :
    pllctlGetPllFreqInHz pllctlFracFreq
        (Function.update ptr pll ((ptr pll).programFrac setting)) pll =
      some (BitVec.ofNat 32 (refStep setting.refdiv (ptr pll).postdiv *
        (setting.fbdiv * 2 ^ 24 + setting.frac) / 2 ^ 24)) := by
  obtain ⟨hrefdiv, hpostdiv, hdsmpd, hfbdiv, hheld, hpower⟩ :=
    (ptr pll).programFrac_fields hr.2 hf hfrac
  have hon : ((ptr pll).programFrac setting).cfg1 &&& cfg1PllpdSw.mask 32 = 0 :=
    (RegField.and_mask_eq_zero _).mpr hpower
  have hmode : ((ptr pll).programFrac setting).cfg0 &&& cfg0Dsmpd.mask 32 = 0 :=
    (RegField.and_mask_eq_zero _).mpr hdsmpd
  have hne : ¬ setting.refdiv * (ptr pll).postdiv = 0 := (Nat.mul_pos hr.1 hp).ne'
  unfold PllRegs.fbdivFrac at hfbdiv
  unfold PllRegs.frac at hheld
  unfold pllctlGetPllFreqInHz
  rw [Function.update_self]
  simp only [ne_eq, hon, not_true, if_false, hrefdiv, hpostdiv, hne, hmode]
  rw [pllctlFracFreq_eq, hfbdiv, hheld, refStep]

end Accurate

/-! ## The call -/

section Call

variable {ptr : PllctlBase} {pll : Fin 5} {freqInHz : BitVec 32} {refdiv : Nat}

/-- A quotient in range that is not above the exact one is set up as requested. -/
theorem pllctlFracRight_program {frac : Nat} (hr : 0 < refdiv ∧ refdiv ≤ 2)
    (hp : 0 < (ptr pll).postdiv)
    (hquot : 20 ≤ freqInHz.toNat / refStep refdiv (ptr pll).postdiv ∧
      freqInHz.toNat / refStep refdiv (ptr pll).postdiv ≤ 240) (hfrac : frac < 2 ^ 24)
    (hmul : freqInHz.toNat / refStep refdiv (ptr pll).postdiv * 2 ^ 24 + frac =
      fracMultiplier freqInHz.toNat refdiv (ptr pll).postdiv) :
    PllctlFracRight (Function.update ptr pll ((ptr pll).programFrac
        ⟨refdiv, freqInHz.toNat / refStep refdiv (ptr pll).postdiv, frac⟩)) pll freqInHz
      ⟨refdiv, freqInHz.toNat / refStep refdiv (ptr pll).postdiv, frac⟩ := by
  have hr63 : 0 < refdiv ∧ refdiv ≤ 63 := ⟨hr.1, by omega⟩
  have hp7 : 0 < (ptr pll).postdiv ∧ (ptr pll).postdiv ≤ 7 := ⟨hp, (ptr pll).postdiv_le⟩
  obtain ⟨-, -, -, hfbdiv, hheld, -⟩ := @PllRegs.programFrac_fields (ptr pll)
    ⟨refdiv, freqInHz.toNat / refStep refdiv (ptr pll).postdiv, frac⟩ hr63.2 hquot.2 hfrac
  have hget := @pllctlGetPllFreqInHz_programFrac ptr pll
    ⟨refdiv, freqInHz.toNat / refStep refdiv (ptr pll).postdiv, frac⟩ hr63 hp hquot.2 hfrac
  have hle : refStep refdiv (ptr pll).postdiv *
      fracMultiplier freqInHz.toNat refdiv (ptr pll).postdiv / 2 ^ 24 ≤ freqInHz.toNat :=
    mul_fixedPoint_le (by decide) (Nat.mul_pos hr.1 hp)
  have hlack := freq_le_product hr hp7 hquot.1 hfrac hmul
  rw [← hmul] at hle hlack
  have hcut := Nat.mod_eq_of_lt (hle.trans_lt freqInHz.isLt)
  refine ⟨hquot, hquot.2.trans_lt (by decide), hfrac, ?_, ?_, _, hget, ?_, ?_⟩
  · rw [Function.update_self]
    exact hfbdiv
  · rw [Function.update_self]
    exact hheld
  · rw [BitVec.toNat_ofNat, hcut]
    exact hle
  · rw [BitVec.toNat_ofNat, hcut]
    exact hlack

/-- What a call comes to where the search ends in range. -/
theorem pllctlFracMeets_found
    (hfreq : pllctlPllVcoFreqMin ≤ freqInHz.toNat ∧ freqInHz.toNat ≤ pllctlPllVcoFreqMax)
    (hr : 0 < (ptr pll).refdiv ∧ (ptr pll).refdiv ≤ 63)
    (hp : 0 < (ptr pll).postdiv ∧ (ptr pll).postdiv ≤ 7)
    (hsetting : pllctlFracSetting freqInHz.toNat (ptr pll).refdiv (ptr pll).postdiv =
      (pllctlFracValues freqInHz.toNat refdiv (ptr pll).postdiv).map some)
    (hfound : FracFound freqInHz.toNat (ptr pll).refdiv (ptr pll).postdiv refdiv) :
    PllctlFracMeets ptr pll freqInHz ↔
      ¬ (240 < freqInHz.toNat / refStep refdiv (ptr pll).postdiv ∨
        QuotientOver freqInHz.toNat refdiv (ptr pll).postdiv) := by
  have hvalid : ¬ (freqInHz.toNat < pllctlPllVcoFreqMin ∨ pllctlPllVcoFreqMax < freqInHz.toNat) :=
    not_or.mpr ⟨Nat.not_lt.mpr hfreq.1, Nat.not_lt.mpr hfreq.2⟩
  have hrange := hfound.refdiv_le hr.1
  have hr63 : 0 < refdiv ∧ refdiv ≤ 63 := ⟨hrange.1, by omega⟩
  unfold PllctlFracMeets pllctlInitFracPllWithFreq
  rw [if_neg hvalid, hsetting]
  by_cases hover : QuotientOver freqInHz.toNat refdiv (ptr pll).postdiv
  · refine iff_of_false ?_ (not_not.mpr (.inr hover))
    rintro ⟨stat, ptr', hinit, -, -⟩
    obtain ⟨rfl, hseven⟩ := hfound.of_over hfreq.2 hr.1 hp hover
    rw [hseven] at hover hinit
    rw [pllctlFracValues_of_over hover] at hinit
    cases hinit
  · obtain ⟨frac, hvalues, hfrac, hmul⟩ := pllctlFracValues_of_not_over hr63 hp hover
    rw [hvalues, or_iff_left hover, Nat.not_lt]
    constructor
    · rintro ⟨stat, ptr', hinit, -, hok⟩
      cases hinit
      obtain ⟨setting, hsome, hright⟩ := hok rfl
      cases hsome
      exact hright.fbdiv.2
    · intro hmax
      refine ⟨_, _, rfl, fun hne => absurd rfl hne, fun _ => ⟨_, rfl, ?_⟩⟩
      exact pllctlFracRight_program hrange hp.1
        ⟨hfound.min_le hfreq.1 hr hp, hmax⟩ hfrac hmul

end Call

/-- With dividers that are not zero the call does what is asked exactly where the request is
refused for its frequency, or does not go wrong.

The search ends at a reference divider for which a quotient of the rounded frequencies is in its
range (`pllctlDividersFrac_spec`), and what is written is another quotient, by the product of the
dividers.  The two differ by the rounding only, so the second leaves the range, or exceeds the
exact one, for the few small dividers that `PllctlFracWrong` names. -/
theorem pllctlFracMeets_iff (ptr : PllctlBase) (pll : Fin 5) (freqInHz : BitVec 32)
    (hrefdiv : (ptr pll).refdiv ≠ 0) (hpostdiv : (ptr pll).postdiv ≠ 0) :
    PllctlFracMeets ptr pll freqInHz ↔
      (freqInHz.toNat < pllctlPllVcoFreqMin ∨ pllctlPllVcoFreqMax < freqInHz.toNat) ∨
        ¬ PllctlFracWrong freqInHz.toNat (ptr pll).refdiv (ptr pll).postdiv := by
  have hr : 0 < (ptr pll).refdiv ∧ (ptr pll).refdiv ≤ 63 :=
    ⟨Nat.pos_of_ne_zero hrefdiv, (ptr pll).refdiv_le⟩
  have hp : 0 < (ptr pll).postdiv ∧ (ptr pll).postdiv ≤ 7 :=
    ⟨Nat.pos_of_ne_zero hpostdiv, (ptr pll).postdiv_le⟩
  by_cases hvalid : freqInHz.toNat < pllctlPllVcoFreqMin ∨ pllctlPllVcoFreqMax < freqInHz.toNat
  · refine iff_of_true ⟨.invalidArgument, ptr, ?_, fun _ => rfl, nofun⟩ (.inl hvalid)
    unfold pllctlInitFracPllWithFreq
    rw [if_pos hvalid]
  · rw [or_iff_right hvalid]
    have hfreq : pllctlPllVcoFreqMin ≤ freqInHz.toNat ∧ freqInHz.toNat ≤ pllctlPllVcoFreqMax := by
      omega
    obtain ⟨refdiv, fbdiv, heq, hend⟩ := pllctlDividersFrac_spec hfreq hr hp
    rcases hend with hout | ⟨hin, hfound⟩
    · refine iff_of_true ⟨.outOfRange, ptr, ?_, fun _ => rfl, nofun⟩
        fun hwrong => not_outOfRange_of_wrong hfreq hr hp heq hwrong hout
      unfold pllctlInitFracPllWithFreq pllctlFracSetting
      rw [if_neg hvalid, heq]
      simp only [Option.bind_eq_bind, Option.bind_some]
      rw [if_pos hout]
      rfl
    · rw [hfound.wrong_iff hfreq.2 hr hp]
      apply pllctlFracMeets_found hfreq hr hp _ hfound
      unfold pllctlFracSetting
      rw [heq]
      simp only [Option.bind_eq_bind, Option.bind_some]
      rw [if_neg hin]

/-- With both dividers 1 a request of 648 MHz is met. -/
theorem pllctlFracMeets_undivided : PllctlFracMeets (pllctlWithCfg0 0x1100000) 0 648000000 :=
  (pllctlFracMeets_iff (pllctlWithCfg0 0x1100000) 0 648000000 (by decide) (by decide)).mpr
    (.inr (by decide))

/-- With a post divider of 3 a request of 2 GHz has a feedback divider of 250 written. -/
theorem pllctlFracMeets_too_large :
    ¬ ∀ (ptr : PllctlBase) pll freqInHz, (ptr pll).refdiv ≠ 0 → (ptr pll).postdiv ≠ 0 →
      PllctlFracMeets ptr pll freqInHz := by
  intro h
  have hmeets := h (pllctlWithCfg0 0x1300000) 0 2000000000 (by decide) (by decide)
  have hsetting : pllctlFracSetting (2000000000#32).toNat (pllctlWithCfg0 0x1300000 0).refdiv
      (pllctlWithCfg0 0x1300000 0).postdiv =
      (pllctlFracValues (2000000000#32).toNat 1 (pllctlWithCfg0 0x1300000 0).postdiv).map some :=
    rfl
  have hfound : FracFound (2000000000#32).toNat (pllctlWithCfg0 0x1300000 0).refdiv
      (pllctlWithCfg0 0x1300000 0).postdiv 1 :=
    .same (by decide) (by decide)
  have hright := (pllctlFracMeets_found (by decide) (by decide) (by decide) hsetting hfound).mp
    hmeets
  exact hright (.inl (by decide))

end HpmSdk.Pllctl
