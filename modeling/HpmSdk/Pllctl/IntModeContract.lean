import HpmSdk.Pllctl.IntMode

set_option autoImplicit false

/-!
# PLLs in integer mode: when the VCO stays in its range

The search ends with the quotient of the request by the reference step, so that the output
is as requested.  The range that is checked is that of the output, and the VCO runs at the
output times the post divider.

`Found` names the reference divider that the search ends with.  The bounds of the request keep it,
and the quotient, within their fields, so that nothing but the range of the VCO can go wrong.
-/

namespace HpmSdk.Pllctl

open HpmSdk.Foundation

/-- The reference behind both dividers. -/
def refStep (refdiv postdiv : Nat) : Nat := pllctlSocPllRefclkFreq / (refdiv * postdiv)

/-! ## The step -/

section Step

variable {freq refdiv refdiv' postdiv : Nat}

/-- A larger reference divider makes a smaller step. -/
theorem refStep_le (h : refdiv ≤ refdiv') (hr : 0 < refdiv) (hp : 0 < postdiv) :
    refStep refdiv' postdiv ≤ refStep refdiv postdiv :=
  Nat.div_le_div_left (Nat.mul_le_mul_right postdiv h) (Nat.mul_pos hr hp)

theorem refStep_pos (hr : 0 < refdiv ∧ refdiv ≤ 63) (hp : 0 < postdiv ∧ postdiv ≤ 7) :
    0 < refStep refdiv postdiv := by
  refine Nat.div_pos ?_ (Nat.mul_pos hr.1 hp.1)
  calc refdiv * postdiv ≤ 63 * 7 := Nat.mul_le_mul hr.2 hp.2
    _ ≤ pllctlSocPllRefclkFreq := by decide

/-- The step behind small dividers. -/
theorem le_refStep_two (hr : 0 < refdiv ∧ refdiv ≤ 2) (hp : 0 < postdiv ∧ postdiv ≤ 7) :
    1714285 ≤ refStep refdiv postdiv := by
  refine (Nat.le_div_iff_mul_le (Nat.mul_pos hr.1 hp.1)).mpr ?_
  calc 1714285 * (refdiv * postdiv) ≤ 1714285 * (2 * 7) :=
        Nat.mul_le_mul_left _ (Nat.mul_le_mul hr.2 hp.2)
    _ ≤ pllctlSocPllRefclkFreq := by decide

/-- The quotient is that of the request by the step, rounded down. -/
theorem pllctlFbdiv_eq (hr : 0 < refdiv ∧ refdiv ≤ 63) (hp : 0 < postdiv ∧ postdiv ≤ 7) :
    pllctlFbdiv freq refdiv postdiv = some (freq / refStep refdiv postdiv) := by
  have hne : refdiv * postdiv ≠ 0 := Nat.ne_of_gt (Nat.mul_pos hr.1 hp.1)
  have hstep : pllctlSocPllRefclkFreq / (refdiv * postdiv) ≠ 0 := Nat.ne_of_gt (refStep_pos hr hp)
  unfold pllctlFbdiv
  rw [if_neg hne]
  simp only [if_neg hstep, refStep]

/-- A larger reference divider asks for a larger feedback divider. -/
theorem quotient_le (h : refdiv ≤ refdiv') (hr : 0 < refdiv) (hr' : refdiv' ≤ 63)
    (hp : 0 < postdiv ∧ postdiv ≤ 7) :
    freq / refStep refdiv postdiv ≤ freq / refStep refdiv' postdiv :=
  Nat.div_le_div_left (refStep_le h hr hp.1) (refStep_pos ⟨by omega, hr'⟩ hp)

/-- Only the undivided reference is too fast for a request in range. -/
theorem quotient_lt_min (hfreq : pllctlPllVcoFreqMin ≤ freq) (hr : 0 < refdiv ∧ refdiv ≤ 63)
    (hp : 0 < postdiv ∧ postdiv ≤ 7) (h : freq / refStep refdiv postdiv < 16) :
    (refdiv = 1 ∧ postdiv = 1) ∧ freq < 384000000 := by
  rw [Nat.div_lt_iff_lt_mul (refStep_pos hr hp)] at h
  by_cases hone : refdiv * postdiv = 1
  · have hstep : refStep refdiv postdiv = 24000000 := by
      unfold refStep
      rw [hone]
      rfl
    rw [hstep] at h
    exact ⟨⟨Nat.eq_one_of_mul_eq_one_right hone, Nat.eq_one_of_mul_eq_one_left hone⟩, by omega⟩
  · have hpos := Nat.mul_pos hr.1 hp.1
    have hstep : refStep refdiv postdiv ≤ 12000000 :=
      Nat.div_le_div_left (show 2 ≤ refdiv * postdiv by omega) Nat.two_pos
    unfold pllctlPllVcoFreqMin at hfreq
    omega

end Step

/-! ## The search -/

section Search

variable {freq postdiv : Nat}

/-- The loop that lowers `refdiv` finds the largest divider that fits. -/
theorem pllctlLowerRefdiv_spec (hfreq : freq ≤ pllctlPllVcoFreqMax)
    (hp : 0 < postdiv ∧ postdiv ≤ 7) (n : Nat) (hn : 0 < n ∧ n ≤ 63) :
    ∃ refdiv, (0 < refdiv ∧ refdiv ≤ n) ∧
      pllctlLowerRefdiv freq postdiv n = some (refdiv, freq / refStep refdiv postdiv) ∧
      freq / refStep refdiv postdiv ≤ 2400 ∧
      (refdiv < n → 2400 < freq / refStep (refdiv + 1) postdiv) := by
  induction n with
  | zero => exact absurd hn.1 (Nat.lt_irrefl 0)
  | succ n ih =>
    unfold pllctlLowerRefdiv
    rw [pllctlFbdiv_eq hn hp]
    simp only [Option.bind_eq_bind, Option.bind_some]
    by_cases hfits : freq / refStep (n + 1) postdiv ≤ 2400
    · rw [if_neg (show ¬ pllctlIntPllMaxFbdiv < _ from Nat.not_lt.mpr hfits)]
      exact ⟨n + 1, ⟨hn.1, Nat.le_refl _⟩, rfl, hfits, fun h => absurd h (Nat.lt_irrefl _)⟩
    · have hlarge : 1 < n := by
        by_contra hsmall
        have hstep := @le_refStep_two (n + 1) postdiv ⟨hn.1, by omega⟩ hp
        refine hfits (Nat.le_trans (Nat.div_le_div_left hstep (by decide)) ?_)
        unfold pllctlPllVcoFreqMax at hfreq
        omega
      rw [if_pos (show pllctlIntPllMaxFbdiv < _ from Nat.lt_of_not_le hfits),
        if_pos (show pllctlPllMinRefdiv < n from hlarge)]
      obtain ⟨refdiv, hrefdiv, heq, hle, hnext⟩ := ih ⟨by omega, by omega⟩
      refine ⟨refdiv, ⟨hrefdiv.1, by omega⟩, heq, hle, fun _ => ?_⟩
      by_cases hlast : refdiv = n
      · subst hlast
        exact Nat.lt_of_not_le hfits
      · exact hnext (by omega)

/-- A low request raises the reference divider. -/
theorem pllctlRaiseRefdiv_two (hfreq : pllctlPllVcoFreqMin ≤ freq) (hlt : freq < 384000000) :
    pllctlRaiseRefdiv freq 1 2 = some (2, 31) := by
  have hquot : freq / refStep 2 1 = 31 := by
    unfold pllctlPllVcoFreqMin at hfreq
    show freq / 12000000 = 31
    omega
  unfold pllctlRaiseRefdiv
  rw [pllctlFbdiv_eq (by decide) (by decide), hquot]
  rfl

/-- Where the search ends: at the divider it starts from, below it at the largest one that
fits, or at 2. -/
inductive Found (freq refdiv postdiv : Nat) : Nat → Prop where
  | same : freq / refStep refdiv postdiv ≤ 2400 → Found freq refdiv postdiv refdiv
  | lower (refdiv' : Nat) : refdiv' < refdiv → freq / refStep refdiv' postdiv ≤ 2400 →
    2400 < freq / refStep (refdiv' + 1) postdiv → Found freq refdiv postdiv refdiv'
  | raise : refdiv = 1 → postdiv = 1 → freq < 384000000 → Found freq refdiv postdiv 2

/-- The search ends in range, with the quotient of the request by the step. -/
theorem pllctlDividers_spec {refdiv : Nat}
    (hfreq : pllctlPllVcoFreqMin ≤ freq ∧ freq ≤ pllctlPllVcoFreqMax)
    (hr : 0 < refdiv ∧ refdiv ≤ 63) (hp : 0 < postdiv ∧ postdiv ≤ 7) :
    ∃ refdiv', Found freq refdiv postdiv refdiv' ∧ (0 < refdiv' ∧ refdiv' ≤ 63) ∧
      pllctlDividers freq refdiv postdiv = some (refdiv', freq / refStep refdiv' postdiv) ∧
      16 ≤ freq / refStep refdiv' postdiv ∧ freq / refStep refdiv' postdiv ≤ 2400 := by
  unfold pllctlDividers
  rw [pllctlFbdiv_eq hr hp]
  simp only [Option.bind_eq_bind, Option.bind_some]
  by_cases hmax : 2400 < freq / refStep refdiv postdiv
  · have hlarge : 1 < refdiv := by
      by_contra hsmall
      have hstep := @le_refStep_two refdiv postdiv ⟨hr.1, by omega⟩ hp
      have hquot := Nat.div_le_div_left (a := freq) hstep (by decide)
      unfold pllctlPllVcoFreqMax at hfreq
      omega
    obtain ⟨refdiv', hrefdiv', heq, hle, hnext⟩ :=
      pllctlLowerRefdiv_spec hfreq.2 hp (refdiv - 1) ⟨by omega, by omega⟩
    have hover : 2400 < freq / refStep (refdiv' + 1) postdiv := by
      by_cases hlast : refdiv' = refdiv - 1
      · rwa [hlast, Nat.sub_add_cancel hr.1]
      · exact hnext (by omega)
    have hmin : 16 ≤ freq / refStep refdiv' postdiv := by
      by_contra hsmall
      obtain ⟨⟨rfl, rfl⟩, hlt⟩ :=
        quotient_lt_min hfreq.1 ⟨hrefdiv'.1, by omega⟩ hp (Nat.lt_of_not_le hsmall)
      have hstep : refStep (1 + 1) 1 = 12000000 := rfl
      rw [hstep] at hover
      omega
    rw [if_pos (show pllctlIntPllMaxFbdiv < _ from hmax)]
    exact ⟨refdiv', .lower refdiv' (by omega) hle hover, ⟨hrefdiv'.1, by omega⟩, heq, hmin, hle⟩
  · rw [if_neg (show ¬ pllctlIntPllMaxFbdiv < _ from hmax)]
    by_cases hmin : freq / refStep refdiv postdiv < 16
    · obtain ⟨⟨rfl, rfl⟩, hlt⟩ := quotient_lt_min hfreq.1 hr hp hmin
      have hquot : freq / refStep 2 1 = 31 := by
        unfold pllctlPllVcoFreqMin at hfreq
        show freq / 12000000 = 31
        omega
      rw [if_pos (show _ < pllctlIntPllMinFbdiv from hmin), pllctlRaiseRefdiv_two hfreq.1 hlt]
      refine ⟨2, .raise rfl rfl hlt, by decide, ?_⟩
      rw [hquot]
      exact ⟨rfl, by decide, by decide⟩
    · rw [if_neg (show ¬ _ < pllctlIntPllMinFbdiv from hmin)]
      exact ⟨refdiv, .same (Nat.not_lt.mp hmax), hr, rfl, Nat.not_lt.mp hmin, Nat.not_lt.mp hmax⟩

end Search

/-! ## The registers -/

namespace PllRegs

variable (regs : PllRegs)

theorem poweron_cfg0 : regs.poweron.cfg0 = regs.cfg0 := by
  simp only [poweron]
  split <;> rfl

theorem poweron_refdiv : regs.poweron.refdiv = regs.refdiv := by
  unfold refdiv
  rw [poweron_cfg0]

theorem poweron_postdiv : regs.poweron.postdiv = regs.postdiv := by
  unfold postdiv
  rw [poweron_cfg0]

theorem poweron_cfg2 : regs.poweron.cfg2 = regs.cfg2 := by
  simp only [poweron]
  split <;> rfl

theorem poweron_pllpdSw : cfg1PllpdSw.get regs.poweron.cfg1 = 0#32 := by
  simp only [poweron]
  split
  · next hpd => exact (RegField.and_mask_eq_zero _).mp hpd
  · rw [RegField.get_or, RegField.get_clear, RegField.get_mask_of_apart (by decide), BitVec.or_self]

end PllRegs

/-- `CFG0` in integer mode. -/
theorem cfg0_dsmpd (v : BitVec 32) :
    cfg0Dsmpd.get (v ||| cfg0Dsmpd.mask 32) ≠ 0#32 ∧
      cfg0Refdiv.get (v ||| cfg0Dsmpd.mask 32) = cfg0Refdiv.get v ∧
      cfg0Postdiv1.get (v ||| cfg0Dsmpd.mask 32) = cfg0Postdiv1.get v := by
  refine ⟨fun h => ?_, ?_, ?_⟩
  · rw [RegField.get_or, BitVec.or_eq_zero_iff] at h
    exact absurd h.2 (by decide)
  · rw [RegField.get_or, RegField.get_mask_of_apart (by decide), BitVec.or_zero]
  · rw [RegField.get_or, RegField.get_mask_of_apart (by decide), BitVec.or_zero]

/-- `CFG0` with another reference divider. -/
theorem cfg0_refdiv (v : BitVec 32) {refdiv : Nat} (hr : refdiv ≤ 63) :
    (cfg0Refdiv.get (v &&& ~~~cfg0Refdiv.mask 32 |||
        cfg0Refdiv.set (BitVec.ofNat 32 refdiv))).toNat = refdiv ∧
      cfg0Dsmpd.get (v &&& ~~~cfg0Refdiv.mask 32 |||
        cfg0Refdiv.set (BitVec.ofNat 32 refdiv)) = cfg0Dsmpd.get v ∧
      cfg0Postdiv1.get (v &&& ~~~cfg0Refdiv.mask 32 |||
        cfg0Refdiv.set (BitVec.ofNat 32 refdiv)) = cfg0Postdiv1.get v := by
  refine ⟨?_, ?_, ?_⟩
  · rw [RegField.get_store _ _ (by decide), BitVec.toNat_ofNat]
    show refdiv % 2 ^ 32 % 2 ^ 6 = refdiv
    omega
  · exact RegField.get_store_of_apart _ _ (by decide)
  · exact RegField.get_store_of_apart _ _ (by decide)

/-- The feedback divider is read back from its field. -/
theorem cfg2_fbdiv (v : BitVec 32) {fbdiv : Nat} (hf : fbdiv ≤ 2400) :
    (cfg2FbdivInt.get (v &&& ~~~cfg2FbdivInt.mask 32 |||
      cfg2FbdivInt.set (BitVec.ofNat 32 fbdiv))).toNat = fbdiv := by
  rw [RegField.get_store _ _ (by decide), BitVec.toNat_ofNat]
  show fbdiv % 2 ^ 32 % 2 ^ 12 = fbdiv
  omega

/-- What the writes leave in `CFG0`: the divider that was found and integer mode. -/
theorem PllRegs.program_cfg0 (regs : PllRegs) {refdiv : Nat} (fbdiv : Nat) (hr : refdiv ≤ 63) :
    (regs.program refdiv fbdiv).refdiv = refdiv ∧
      (regs.program refdiv fbdiv).postdiv = regs.postdiv ∧
      cfg0Dsmpd.get (regs.program refdiv fbdiv).cfg0 ≠ 0#32 := by
  -- the first write
  obtain ⟨regs₁, hregs₁, hint, hrefdiv, hpostdiv⟩ : ∃ regs₁,
      (if regs.cfg0 &&& cfg0Dsmpd.mask 32 = 0 then
        { regs.powerdown with cfg0 := regs.cfg0 ||| cfg0Dsmpd.mask 32 } else regs) = regs₁ ∧
      cfg0Dsmpd.get regs₁.cfg0 ≠ 0#32 ∧ regs₁.refdiv = regs.refdiv ∧
      regs₁.postdiv = regs.postdiv := by
    refine ⟨_, rfl, ?_⟩
    split
    · obtain ⟨hint, hrefdiv, hpostdiv⟩ := cfg0_dsmpd regs.cfg0
      exact ⟨hint, congrArg BitVec.toNat hrefdiv, congrArg BitVec.toNat hpostdiv⟩
    · next hint => exact ⟨fun h => hint ((RegField.and_mask_eq_zero _).mpr h), rfl, rfl⟩
  unfold program
  simp only [hregs₁, poweron_refdiv, poweron_postdiv, poweron_cfg0]
  by_cases hsame : regs₁.refdiv ≠ refdiv
  · obtain ⟨hrefdiv', hint', hpostdiv'⟩ := cfg0_refdiv regs₁.cfg0 hr
    simp only [if_pos hsame]
    exact ⟨hrefdiv', (congrArg BitVec.toNat hpostdiv').trans hpostdiv, hint' ▸ hint⟩
  · simp only [if_neg hsame]
    exact ⟨not_not.mp hsame, hpostdiv, hint⟩

/-- What is programmed is the quotient that was found. -/
theorem PllRegs.program_fbdiv (regs : PllRegs) (refdiv : Nat) {fbdiv : Nat} (hf : fbdiv ≤ 2400) :
    (regs.program refdiv fbdiv).fbdiv = fbdiv := by
  simp only [program, PllRegs.fbdiv, poweron_cfg2]
  exact cfg2_fbdiv _ hf

/-- Behind the programming the PLL has power. -/
theorem PllRegs.program_pllpdSw (regs : PllRegs) (refdiv fbdiv : Nat) :
    cfg1PllpdSw.get (regs.program refdiv fbdiv).cfg1 = 0#32 := by
  simp only [program]
  exact poweron_pllpdSw _

theorem PllRegs.postdiv_le (regs : PllRegs) : regs.postdiv ≤ 7 :=
  Nat.le_of_lt_succ (RegField.get_lt (f := cfg0Postdiv1) regs.cfg0 (by decide))

theorem PllRegs.refdiv_le (regs : PllRegs) : regs.refdiv ≤ 63 :=
  Nat.le_of_lt_succ (RegField.get_lt (f := cfg0Refdiv) regs.cfg0 (by decide))

/-! ## The call -/

section Call

variable {ptr : PllctlBase} {pll : Fin 5} {freqInHz : BitVec 32} {refdiv fbdiv : Nat}

/-- The dividers that are found are refused exactly where the reference gets too slow. -/
theorem pllctlOutOfRange_iff (hr : 0 < refdiv ∧ refdiv ≤ 63) (hf : 16 ≤ fbdiv ∧ fbdiv ≤ 2400) :
    PllctlOutOfRange refdiv fbdiv ↔ 24 < refdiv := by
  have hslow : pllctlSocPllRefclkFreq / refdiv < pllctlIntPllMinRef ↔ 24 < refdiv := by
    rw [Nat.div_lt_iff_lt_mul hr.1]
    unfold pllctlSocPllRefclkFreq pllctlIntPllMinRef
    omega
  unfold PllctlOutOfRange pllctlPllMaxRefdiv pllctlPllMinRefdiv pllctlIntPllMaxFbdiv
    pllctlIntPllMinFbdiv
  rw [hslow]
  omega

/-- Behind a call the frequency is the request, down to one step. -/
theorem pllctlAccurate_program (fracFreq : Nat → BitVec 32 → BitVec 32 → BitVec 32)
    (hr : 0 < refdiv ∧ refdiv ≤ 63) (hp : 0 < (ptr pll).postdiv)
    (hf : freqInHz.toNat / refStep refdiv (ptr pll).postdiv ≤ 2400) :
    PllctlAccurate fracFreq
      (Function.update ptr pll ((ptr pll).program refdiv
        (freqInHz.toNat / refStep refdiv (ptr pll).postdiv))) pll freqInHz := by
  obtain ⟨hrefdiv, hpostdiv, hint⟩ := (ptr pll).program_cfg0
    (freqInHz.toNat / refStep refdiv (ptr pll).postdiv) hr.2
  have hfbdiv := (ptr pll).program_fbdiv refdiv hf
  have hpower := (ptr pll).program_pllpdSw refdiv
    (freqInHz.toNat / refStep refdiv (ptr pll).postdiv)
  generalize hregs : (ptr pll).program refdiv
    (freqInHz.toNat / refStep refdiv (ptr pll).postdiv) = regs at *
  have hstep := refStep_pos hr ⟨hp, (ptr pll).postdiv_le⟩
  have hle := Nat.mul_div_le freqInHz.toNat (refStep refdiv (ptr pll).postdiv)
  have hnext := Nat.lt_mul_div_succ freqInHz.toNat hstep
  have hne : ¬ refdiv * (ptr pll).postdiv = 0 := Nat.ne_of_gt (Nat.mul_pos hr.1 hp)
  have hmul : (BitVec.ofNat 32 (refStep refdiv (ptr pll).postdiv *
      (freqInHz.toNat / refStep refdiv (ptr pll).postdiv))).toNat =
        refStep refdiv (ptr pll).postdiv *
          (freqInHz.toNat / refStep refdiv (ptr pll).postdiv) := by
    rw [BitVec.toNat_ofNat]
    exact Nat.mod_eq_of_lt (Nat.lt_of_le_of_lt hle freqInHz.isLt)
  refine ⟨_, ?_, Nat.le_trans (Nat.le_of_eq hmul) hle, ?_⟩
  · unfold pllctlGetPllFreqInHz
    rw [Function.update_self]
    have hon : regs.cfg1 &&& cfg1PllpdSw.mask 32 = 0 := (RegField.and_mask_eq_zero _).mpr hpower
    have hmode : ¬ regs.cfg0 &&& cfg0Dsmpd.mask 32 = 0 :=
      fun h => hint ((RegField.and_mask_eq_zero _).mp h)
    simp only [ne_eq, hon, not_true, if_false, hrefdiv, hpostdiv, hne, hmode, not_false_iff,
      if_true, hfbdiv, refStep]
  · rw [Function.update_self, hmul, hrefdiv, hpostdiv, ← refStep]
    exact hnext

/-- The dividers keep the VCO in its range for the requests between two multiples of the
step. -/
theorem safe_program_iff (hr : 0 < refdiv ∧ refdiv ≤ 24) (hp : 0 < (ptr pll).postdiv)
    (hf : 16 ≤ freqInHz.toNat / refStep refdiv (ptr pll).postdiv ∧
      freqInHz.toNat / refStep refdiv (ptr pll).postdiv ≤ 2400) :
    ((ptr pll).program refdiv (freqInHz.toNat / refStep refdiv (ptr pll).postdiv)).Safe ↔
      (375 * refdiv + 23) / 24 * refStep refdiv (ptr pll).postdiv ≤ freqInHz.toNat ∧
        freqInHz.toNat < (2200 * refdiv / 24 + 1) * refStep refdiv (ptr pll).postdiv := by
  have hr63 : refdiv ≤ 63 := by omega
  have hstep := refStep_pos ⟨hr.1, hr63⟩ ⟨hp, (ptr pll).postdiv_le⟩
  obtain ⟨hrefdiv, -, -⟩ := (ptr pll).program_cfg0
    (freqInHz.toNat / refStep refdiv (ptr pll).postdiv) hr63
  have hfbdiv := (ptr pll).program_fbdiv refdiv hf.2
  rw [← Nat.le_div_iff_mul_le hstep, ← Nat.div_lt_iff_lt_mul hstep]
  have hvco : ∀ f, (pllctlPllVcoFreqMin * refdiv ≤ pllctlSocPllRefclkFreq * f ↔
      (375 * refdiv + 23) / 24 ≤ f) ∧
      (pllctlSocPllRefclkFreq * f ≤ pllctlPllVcoFreqMax * refdiv ↔ f < 2200 * refdiv / 24 + 1) := by
    intro f
    unfold pllctlPllVcoFreqMin pllctlSocPllRefclkFreq pllctlPllVcoFreqMax
    omega
  rw [← (hvco _).1, ← (hvco _).2]
  constructor
  · intro hsafe
    have hmin := hsafe.vcoMin
    have hmax := hsafe.vcoMax
    rw [hrefdiv, hfbdiv] at hmin hmax
    exact ⟨hmin, hmax⟩
  · rintro ⟨hmin, hmax⟩
    exact ⟨by omega, by omega, by rwa [hrefdiv, hfbdiv], by rwa [hrefdiv, hfbdiv]⟩

/-- What a call comes to for a request in range. -/
theorem pllctlInitMeets_found (fracFreq : Nat → BitVec 32 → BitVec 32 → BitVec 32)
    (hfreq : pllctlPllVcoFreqMin ≤ freqInHz.toNat ∧ freqInHz.toNat ≤ pllctlPllVcoFreqMax)
    (hp : 0 < (ptr pll).postdiv) (hr : 0 < refdiv ∧ refdiv ≤ 63)
    (hfound : pllctlDividers freqInHz.toNat (ptr pll).refdiv (ptr pll).postdiv =
      some (refdiv, freqInHz.toNat / refStep refdiv (ptr pll).postdiv))
    (hf : 16 ≤ freqInHz.toNat / refStep refdiv (ptr pll).postdiv ∧
      freqInHz.toNat / refStep refdiv (ptr pll).postdiv ≤ 2400) :
    PllctlInitMeets fracFreq ptr pll freqInHz ↔ 24 < refdiv ∨
      (375 * refdiv + 23) / 24 * refStep refdiv (ptr pll).postdiv ≤ freqInHz.toNat ∧
        freqInHz.toNat < (2200 * refdiv / 24 + 1) * refStep refdiv (ptr pll).postdiv := by
  have hvalid : ¬ (freqInHz.toNat < pllctlPllVcoFreqMin ∨ pllctlPllVcoFreqMax < freqInHz.toNat) := by
    omega
  unfold PllctlInitMeets pllctlInitIntPllWithFreq
  simp only [if_neg hvalid, hfound, Option.bind_eq_bind, Option.bind_some,
    pllctlOutOfRange_iff hr hf]
  by_cases hslow : 24 < refdiv
  · simp only [hslow, if_true, true_or, iff_true]
    exact ⟨.outOfRange, ptr, rfl, fun _ => rfl, nofun⟩
  · have hsafe := @safe_program_iff ptr pll freqInHz refdiv
      ⟨hr.1, Nat.not_lt.mp hslow⟩ hp hf
    simp only [hslow, if_false, false_or]
    rw [← hsafe]
    constructor
    · rintro ⟨stat, ptr', heq, -, hok⟩
      cases heq
      have hregs := (hok rfl).1
      rwa [Function.update_self] at hregs
    · intro h
      refine ⟨.success, _, rfl, nofun, fun _ => ⟨?_, pllctlAccurate_program fracFreq hr hp hf.2⟩⟩
      rwa [Function.update_self]

end Call

/-- Where the search has gone down to a `refdiv` of at most 24, the VCO is above its range. -/
theorem lower_too_fast : ∀ refdiv < 25, ∀ postdiv < 8, 0 < refdiv → 0 < postdiv →
    (2200 * refdiv / 24 + 1) * refStep refdiv postdiv ≤ 2401 * refStep (refdiv + 1) postdiv := by
  decide

/-- **With dividers that are not zero the call does what is asked exactly where the request is
refused or the dividers in the register keep the VCO in its range.**

The range is tested on the frequency asked for, which is the VCO divided by the post divider.  The
divider that is written is the frequency over the reference step, rounded down, with the reference
divider of the register, a lower one where that quotient is too large, or 2 in place of 1 where it
is too small (`pllctlDividers_spec`).  So whether the VCO is in its range can be read off the
request and the register. -/
theorem pllctlInitMeets_iff (fracFreq : Nat → BitVec 32 → BitVec 32 → BitVec 32)
    (ptr : PllctlBase) (pll : Fin 5) (freqInHz : BitVec 32) (hrefdiv : (ptr pll).refdiv ≠ 0)
    (hpostdiv : (ptr pll).postdiv ≠ 0) :
    PllctlInitMeets fracFreq ptr pll freqInHz ↔
      PllctlInRange freqInHz.toNat (ptr pll).refdiv (ptr pll).postdiv := by
  unfold PllctlInRange
  by_cases hvalid : freqInHz.toNat < pllctlPllVcoFreqMin ∨ pllctlPllVcoFreqMax < freqInHz.toNat
  · refine ⟨fun _ => Or.inl hvalid, fun _ => ⟨.invalidArgument, ptr, ?_, fun _ => rfl, nofun⟩⟩
    unfold pllctlInitIntPllWithFreq
    rw [if_pos hvalid]
  have hfreq : pllctlPllVcoFreqMin ≤ freqInHz.toNat ∧ freqInHz.toNat ≤ pllctlPllVcoFreqMax := by
    omega
  have hr : 0 < (ptr pll).refdiv ∧ (ptr pll).refdiv ≤ 63 :=
    ⟨Nat.pos_of_ne_zero hrefdiv, (ptr pll).refdiv_le⟩
  have hp : 0 < (ptr pll).postdiv ∧ (ptr pll).postdiv ≤ 7 :=
    ⟨Nat.pos_of_ne_zero hpostdiv, (ptr pll).postdiv_le⟩
  obtain ⟨refdiv, hfound, hrange, heq, hf⟩ := pllctlDividers_spec hfreq hr hp
  rw [pllctlInitMeets_found fracFreq hfreq hp.1 hrange heq hf]
  have hstep : ∀ k, pllctlSocPllRefclkFreq / (k * (ptr pll).postdiv) =
    refStep k (ptr pll).postdiv := fun _ => rfl
  simp only [hvalid, false_or, hstep]
  -- up to 24 a divider is found for the dividers of the register
  have hfits : ∀ k, 0 < k ∧ k ≤ 63 → (freqInHz.toNat / refStep k (ptr pll).postdiv ≤ 2400 ↔
      freqInHz.toNat < 2401 * refStep k (ptr pll).postdiv) := fun k hk => by
    rw [← Nat.div_lt_iff_lt_mul (refStep_pos hk hp), Nat.lt_succ_iff]
  cases hfound with
  | same hle =>
    by_cases hslow : 24 < (ptr pll).refdiv
    · have hlt := (hfits 25 (by decide)).mp
        (Nat.le_trans (quotient_le (by omega) (by decide) hr.2 hp) hle)
      exact iff_of_true (Or.inl hslow) (Or.inr ⟨hslow, hlt⟩)
    · simp only [hslow, false_or, false_and, or_false, Nat.not_lt.mp hslow, true_and]
  | lower _ hlt hle hnext =>
    by_cases hslow : 24 < refdiv
    · have hlt25 := (hfits 25 (by decide)).mp
        (Nat.le_trans (quotient_le (by omega) (by decide) hrange.2 hp) hle)
      exact iff_of_true (Or.inl hslow) (Or.inr ⟨by omega, hlt25⟩)
    · have hfast := lower_too_fast refdiv (by omega) _ (by omega) hrange.1 hp.1
      have hover : 2401 * refStep (refdiv + 1) (ptr pll).postdiv ≤ freqInHz.toNat :=
        Nat.not_lt.mp fun h => absurd ((hfits _ (by omega)).mpr h) (Nat.not_le.mpr hnext)
      refine iff_of_false (by omega) ?_
      rintro (⟨hfast24, -, hbelow⟩ | ⟨hslow24, hbelow⟩)
      · have hquot := @quotient_le freqInHz.toNat _ _ _
          (show refdiv + 1 ≤ (ptr pll).refdiv by omega) (by omega) hr.2 hp
        have hover' : 2401 * refStep (ptr pll).refdiv (ptr pll).postdiv ≤ freqInHz.toNat :=
          Nat.not_lt.mp fun h => absurd ((hfits _ hr).mpr h) (by omega)
        have hmul : (2200 * (ptr pll).refdiv / 24 + 1) * refStep (ptr pll).refdiv (ptr pll).postdiv ≤
            2401 * refStep (ptr pll).refdiv (ptr pll).postdiv :=
          Nat.mul_le_mul_right _ (by omega)
        omega
      · have hquot := @quotient_le freqInHz.toNat _ _ _ (show refdiv + 1 ≤ 25 by omega)
          (by omega) (by decide) hp
        exact absurd ((hfits 25 (by decide)).mpr hbelow) (by omega)
  | raise hone hpost hsmall =>
    have hstep1 : refStep 1 1 = 24000000 := rfl
    have hstep2 : refStep 2 1 = 12000000 := rfl
    rw [hone, hpost, hstep1, hstep2]
    omega

/-- PLLs in integer mode with a value of `CFG0` and all other registers 0. -/
def pllctlWithCfg0 (cfg0 : BitVec 32) : PllctlBase := fun _ => ⟨cfg0, 0, 0, 0, 0, 0⟩

/-- With both dividers 1 a request of 648 MHz is met. -/
theorem pllctlInitMeets_undivided :
    PllctlInitMeets (fun _ _ _ => 0) (pllctlWithCfg0 0x1100008) 0 648000000 :=
  (pllctlInitMeets_iff _ (pllctlWithCfg0 0x1100008) 0 648000000 (by decide) (by decide)).mpr
    (Or.inr (Or.inl (by decide)))

/-- With a post divider of 2 a request of 2.2 GHz has the VCO run at 4.392 GHz. -/
theorem pllctlInitMeets_overclocked :
    ¬ ∀ fracFreq (ptr : PllctlBase) pll freqInHz, (ptr pll).refdiv ≠ 0 → (ptr pll).postdiv ≠ 0 →
      PllctlInitMeets fracFreq ptr pll freqInHz := by
  intro h
  have hmeets := h (fun _ _ _ => 0) (pllctlWithCfg0 0x1200008) 0 2200000000 (by decide) (by decide)
  have hfound : pllctlDividers (2200000000#32).toNat (pllctlWithCfg0 0x1200008 0).refdiv
      (pllctlWithCfg0 0x1200008 0).postdiv =
      some (1, (2200000000#32).toNat / refStep 1 (pllctlWithCfg0 0x1200008 0).postdiv) := by
    decide
  have hrange := (pllctlInitMeets_found _ (by decide) (by decide) (by decide) hfound
    (by decide)).mp hmeets
  revert hrange
  decide

end HpmSdk.Pllctl
