import HpmSdk.Foundation.Registers
import HpmSdk.Foundation.Stretch
import HpmSdk.Sdxc.Transfer
import Mathlib.Logic.Function.Basic

set_option autoImplicit false

/-!
# SDXC: software tuning (`hpm_sdxc_drv.c`)

`sdxc_perform_software_tuning` tries the center phase codes one after another and selects the
middle between the first and the last one that passed.  What `INT_STAT` reads behind the tuning
command at a code is a parameter; the clock and the resets between two codes are left out.

`TuningInv` says which codes were tried and which of them passed, so that what is selected is a
matter of the list of windows.
-/

namespace HpmSdk.Sdxc

open HpmSdk.Foundation

/-- The `hpm_stat_t` values of the tuning. -/
inductive SdxcTuningStat where
  | success
  | tuningFailed
  deriving DecidableEq, Repr

/-- `SDXC_AUTO_TUNING_STAT_CENTER_PH_CODE`. -/
def autoTuningStatCenterPhCode : RegField := ⟨0, 8⟩

/-! ## One code -/

/-- The wait for the data or an error: the number of reads of `INT_STAT` behind `k`. -/
def sdxcTuningWait (intStat : Nat → BitVec 32) : (timeoutCnt k : Nat) → Nat
  | 0, k => k
  | timeoutCnt + 1, k =>
    if IsBitmaskSet (intStat k) (intStatBufRdReady ||| intStatErrInterrupt) then k + 1
    else sdxcTuningWait intStat timeoutCnt (k + 1)

/-- A code passes if the data is there in the read behind the wait. -/
def sdxcTuningPasses (intStat : Nat → BitVec 32) : Bool :=
  decide (IsBitmaskSet (intStat (sdxcTuningWait intStat 0xFFFFF 0)) intStatBufRdReady)

/-! ## The loop over the codes -/

/-- `AUTO_TUNING_STAT`, `center_phase_codes_valid`, and the codes that were in the field when a
tuning command was sent. -/
structure SdxcTuning where
  autoTuningStat : BitVec 32
  centerPhaseCodesValid : Nat → Bool
  tried : List (BitVec 8)

/-- The size of `center_phase_codes_valid`. -/
def centerPhaseCodesSize : Nat := 255

namespace SdxcTuning

variable (s : SdxcTuning)

/-- The code in effect. -/
def code : BitVec 8 := (autoTuningStatCenterPhCode.get s.autoTuningStat).setWidth 8

/-- `sdxc_set_center_phase_code`. -/
def setCenterPhaseCode (value : BitVec 32) : SdxcTuning :=
  { s with
    autoTuningStat := s.autoTuningStat &&& ~~~autoTuningStatCenterPhCode.mask 32 |||
      autoTuningStatCenterPhCode.set value }

/-- One pass, with the outcomes of the codes; `none` is an index behind the table. -/
def pass (passes : BitVec 8 → Bool) (tuningCclkSel : Nat) : Option SdxcTuning :=
  let s := { s with tried := s.tried ++ [s.code] }
  if passes s.code = true ∧ centerPhaseCodesSize ≤ tuningCclkSel then none
  else
    let s := if passes s.code then
      { s with
        centerPhaseCodesValid := Function.update s.centerPhaseCodesValid tuningCclkSel true }
      else s
    some (s.setCenterPhaseCode (BitVec.ofNat 32 (tuningCclkSel + 1)))

end SdxcTuning

/-- `SDXC_AUTO_TUNING_STAT_CENTER_PH_CODE_GET` of the mask. -/
def centerPhCodeMax : Nat :=
  (autoTuningStatCenterPhCode.get (autoTuningStatCenterPhCode.mask 32)).toNat

/-- `do { .. } while (tuning_cclk_sel < ..)`. -/
def sdxcTuningLoop (passes : BitVec 8 → Bool) (tuningCclkSel : Nat) (s : SdxcTuning) :
    Option SdxcTuning :=
  match s.pass passes tuningCclkSel with
  | none => none
  | some s =>
    if tuningCclkSel + 1 < centerPhCodeMax then sdxcTuningLoop passes (tuningCclkSel + 1) s
    else some s
termination_by centerPhCodeMax - tuningCclkSel

/-! ## The selection -/

/-- `first_window_idx`. -/
def firstWindowIdx (valid : Nat → Bool) : Option Nat :=
  (List.range centerPhaseCodesSize).find? valid

/-- `last_window_idx`. -/
def lastWindowIdx (valid : Nat → Bool) : Option Nat :=
  (List.range centerPhaseCodesSize).reverse.find? valid

/-- The end of `sdxc_perform_software_tuning`. -/
def SdxcTuning.select (s : SdxcTuning) : SdxcTuningStat × SdxcTuning :=
  match firstWindowIdx s.centerPhaseCodesValid, lastWindowIdx s.centerPhaseCodesValid with
  | some first, some last =>
    (.success, s.setCenterPhaseCode (BitVec.ofNat 32 ((first + last) / 2)))
  | _, _ => (.tuningFailed, s)

/-- `sdxc_perform_software_tuning`, from a value of `AUTO_TUNING_STAT`. -/
def sdxcPerformSoftwareTuning (intStat : BitVec 8 → Nat → BitVec 32) (autoTuningStat : BitVec 32) :
    Option (SdxcTuningStat × SdxcTuning) :=
  let s : SdxcTuning := ⟨autoTuningStat, fun _ => false, []⟩
  (sdxcTuningLoop (fun code => sdxcTuningPasses (intStat code)) 0 (s.setCenterPhaseCode 0)).map
    SdxcTuning.select

/-! ## The contract -/

/-- The code with a number passes. -/
def CodePasses (passes : BitVec 8 → Bool) (i : Nat) : Prop :=
  i < 256 ∧ passes (BitVec.ofNat 8 i) = true

/-- What is asked of the tuning for the outcomes of all codes: no index is outside the table, every
code is tried, a success is some code that passed, and the one selected passes and is the middle
of a longest stretch of them. -/
def SdxcTuningRight (passes : BitVec 8 → Bool) (result : Option (SdxcTuningStat × SdxcTuning)) :
    Prop :=
  ∃ stat s, result = some (stat, s) ∧
    (∀ code, code ∈ s.tried) ∧
    (stat = .success ↔ ∃ code, passes code = true) ∧
    (stat = .success → passes s.code = true ∧ ∃ lo hi,
      LongestStretch (CodePasses passes) lo hi ∧
        (s.code.toNat = (lo + hi) / 2 ∨ s.code.toNat = (lo + hi + 1) / 2))

/-! ## The loop -/

section Loop

variable {passes : BitVec 8 → Bool} {s s' : SdxcTuning} {sel : Nat}

/-- The phase code is kept in eight bits. -/
theorem code_setCenterPhaseCode (s : SdxcTuning) (i : Nat) :
    (s.setCenterPhaseCode (BitVec.ofNat 32 i)).code = BitVec.ofNat 8 i := by
  unfold SdxcTuning.setCenterPhaseCode SdxcTuning.code
  dsimp only
  apply BitVec.eq_of_toNat_eq
  rw [BitVec.toNat_setWidth, RegField.get_store _ _ (by decide), BitVec.toNat_ofNat,
    BitVec.toNat_ofNat]
  change i % 2 ^ 32 % 2 ^ 8 % 2 ^ 8 = i % 2 ^ 8
  omega

/-- Before the pass of a code: it is in the field, and the ones below it were tried and their
outcomes noted. -/
structure TuningInv (passes : BitVec 8 → Bool) (sel : Nat) (s : SdxcTuning) : Prop where
  code : s.code = BitVec.ofNat 8 sel
  tried : s.tried = (List.range sel).map (BitVec.ofNat 8)
  valid : ∀ i, s.centerPhaseCodesValid i = (decide (i < sel) && passes (BitVec.ofNat 8 i))

/-- Before the first code none was tried. -/
theorem TuningInv.start (autoTuningStat : BitVec 32) : TuningInv passes 0
    ((SdxcTuning.mk autoTuningStat (fun _ => false) []).setCenterPhaseCode 0) :=
  ⟨code_setCenterPhaseCode _ 0, rfl, fun _ => rfl⟩

/-- What a pass at a code within the table leaves. -/
theorem pass_eq (hcode : s.code = BitVec.ofNat 8 sel) (hsel : sel < 255) :
    s.pass passes sel = some (SdxcTuning.setCenterPhaseCode
      { s with
        centerPhaseCodesValid := if passes (BitVec.ofNat 8 sel) then
          Function.update s.centerPhaseCodesValid sel true else s.centerPhaseCodesValid
        tried := s.tried ++ [BitVec.ofNat 8 sel] } (BitVec.ofNat 32 (sel + 1))) := by
  have hin : ¬ centerPhaseCodesSize ≤ sel := Nat.not_le.mpr hsel
  have hcode' : ({ s with tried := s.tried ++ [s.code] } : SdxcTuning).code =
      BitVec.ofNat 8 sel := hcode
  unfold SdxcTuning.pass
  dsimp only
  rw [hcode', if_neg fun hout => hin hout.2, hcode]
  split <;> rfl

/-- Each pass tries one code and notes whether it passed. -/
theorem TuningInv.pass (h : TuningInv passes sel s) (hsel : sel < 255) :
    ∃ s', s.pass passes sel = some s' ∧ TuningInv passes (sel + 1) s' := by
  refine ⟨_, pass_eq h.code hsel, code_setCenterPhaseCode _ _, ?_, fun i => ?_⟩
  · change s.tried ++ [BitVec.ofNat 8 sel] = _
    rw [List.range_succ, List.map_append, List.map_singleton, ← h.tried]
  · change (if passes (BitVec.ofNat 8 sel) then
      Function.update s.centerPhaseCodesValid sel true else s.centerPhaseCodesValid) i = _
    by_cases hi : i = sel
    · subst hi
      rw [decide_eq_true (Nat.lt_succ_self i), Bool.true_and]
      cases hpass : passes (BitVec.ofNat 8 i) with
      | true => rw [if_pos rfl, Function.update_self]
      | false =>
        rw [if_neg Bool.false_ne_true, h.valid, hpass, Bool.and_false]
    · have hlt : decide (i < sel + 1) = decide (i < sel) := decide_eq_decide.mpr (by omega)
      rw [hlt, ← h.valid]
      split
      · rw [Function.update_of_ne hi]
      · rfl

/-- The loop goes through the codes up to the last but one. -/
theorem TuningInv.loop (passes : BitVec 8 → Bool) (n : Nat) : ∀ {sel : Nat} {s : SdxcTuning},
    sel + n = 254 → TuningInv passes sel s →
    ∃ s', sdxcTuningLoop passes sel s = some s' ∧ TuningInv passes 255 s' := by
  have hmax : centerPhCodeMax = 255 := rfl
  induction n with
  | zero =>
    intro sel s hsel h
    obtain ⟨s₁, hpass, hinv⟩ := h.pass (by omega)
    obtain rfl : sel = 254 := hsel
    unfold sdxcTuningLoop
    rw [hpass, hmax]
    exact ⟨s₁, rfl, hinv⟩
  | succ n ih =>
    intro sel s hsel h
    obtain ⟨s₁, hpass, hinv⟩ := h.pass (by omega)
    unfold sdxcTuningLoop
    rw [hpass, hmax]
    dsimp only
    rw [if_pos (by omega)]
    exact ih (by omega) hinv

end Loop

/-! ## The selection -/

section Select

variable {passes : BitVec 8 → Bool} {s : SdxcTuning}

/-- A code that was tried passes. -/
theorem TuningInv.valid_iff (h : TuningInv passes 255 s) (i : Nat) :
    s.centerPhaseCodesValid i = true ↔ i < 255 ∧ passes (BitVec.ofNat 8 i) = true := by
  rw [h.valid, Bool.and_eq_true, decide_eq_true_iff]

/-- There is no first window exactly if no code passed. -/
theorem firstWindowIdx_eq_none {valid : Nat → Bool} :
    firstWindowIdx valid = none ↔ ∀ i < 255, valid i = false := by
  unfold firstWindowIdx
  rw [List.find?_eq_none]
  simp only [List.mem_range, Bool.not_eq_true]
  rfl

/-- There is no last window exactly if no code passed. -/
theorem lastWindowIdx_eq_none {valid : Nat → Bool} :
    lastWindowIdx valid = none ↔ ∀ i < 255, valid i = false := by
  unfold lastWindowIdx
  rw [List.find?_eq_none]
  simp only [List.mem_reverse, List.mem_range, Bool.not_eq_true]
  rfl

/-- Either no code that was tried passes, or the middle between the first and the last one that
does is selected. -/
theorem TuningInv.select_cases (h : TuningInv passes 255 s) :
    ((∀ i < 255, passes (BitVec.ofNat 8 i) = false) ∧ s.select = (.tuningFailed, s)) ∨
      ∃ first last, (first < 255 ∧ passes (BitVec.ofNat 8 first) = true) ∧
        (last < 255 ∧ passes (BitVec.ofNat 8 last) = true) ∧
        (∀ i < 255, passes (BitVec.ofNat 8 i) = true → first ≤ i ∧ i ≤ last) ∧
        s.select = (.success, s.setCenterPhaseCode (BitVec.ofNat 32 ((first + last) / 2))) := by
  unfold SdxcTuning.select
  cases hfirst : firstWindowIdx s.centerPhaseCodesValid with
  | none =>
    refine .inl ⟨fun i hi => ?_, rfl⟩
    have hvalid := firstWindowIdx_eq_none.mp hfirst i hi
    rwa [h.valid, decide_eq_true hi, Bool.true_and] at hvalid
  | some first =>
    obtain ⟨hf, hflt, hmin⟩ := find?_range_first hfirst
    cases hlast : lastWindowIdx s.centerPhaseCodesValid with
    | none =>
      have hvalid := lastWindowIdx_eq_none.mp hlast first hflt
      rw [hf] at hvalid
      cases hvalid
    | some last =>
      obtain ⟨hl, -, hmax⟩ := find?_reverse_range_last hlast
      refine .inr ⟨first, last, (h.valid_iff _).mp hf, (h.valid_iff _).mp hl, ?_, rfl⟩
      intro i hi hpass
      have hvalid := (h.valid_iff i).mpr ⟨hi, hpass⟩
      exact ⟨hmin i hi hvalid, hmax i hi hvalid⟩

/-- The tuning succeeds if a code that was tried passes. -/
theorem TuningInv.select_success_iff (h : TuningInv passes 255 s) :
    s.select.1 = .success ↔ ∃ i < 255, passes (BitVec.ofNat 8 i) = true := by
  rcases h.select_cases with ⟨hnone, heq⟩ | ⟨first, last, hfirst, -, -, heq⟩
  · rw [heq]
    refine iff_of_false nofun ?_
    rintro ⟨i, hi, hpass⟩
    rw [hnone i hi] at hpass
    cases hpass
  · rw [heq]
    exact iff_of_true rfl ⟨first, hfirst⟩

/-- Where the codes that pass among those tried are consecutive, they are the longest stretch of
them and their middle is selected. -/
theorem TuningInv.select_middle (h : TuningInv passes 255 s) {lo hi : Nat} (hle : lo ≤ hi)
    (hpasses : ∀ i, (i < 255 ∧ passes (BitVec.ofNat 8 i) = true) ↔ i ∈ Set.Icc lo hi) :
    s.select.1 = .success ∧ s.select.2.code = BitVec.ofNat 8 ((lo + hi) / 2) ∧
      LongestStretch (fun i => i < 255 ∧ passes (BitVec.ofNat 8 i) = true) lo hi ∧
      passes s.select.2.code = true := by
  have hlo := (hpasses lo).mpr ⟨le_rfl, hle⟩
  have hhi := (hpasses hi).mpr ⟨hle, le_rfl⟩
  have hlongest := longestStretch_of_forall_iff hle hpasses
  rcases h.select_cases with ⟨hnone, -⟩ | ⟨first, last, hfirst, hlast, hends, heq⟩
  · rw [hnone lo hlo.1] at hlo
    cases hlo.2
  · obtain rfl : first = lo :=
      le_antisymm (hends lo hlo.1 hlo.2).1 ((hpasses first).mp hfirst).1
    obtain rfl : last = hi :=
      le_antisymm ((hpasses last).mp hlast).2 (hends hi hhi.1 hhi.2).2
    rw [heq]
    have hcode := code_setCenterPhaseCode s ((first + last) / 2)
    exact ⟨rfl, hcode, hlongest, hcode ▸ hlongest.1.middle.2⟩

end Select

/-! ## The contract -/

/-- Selecting tries no further code. -/
theorem select_tried (s : SdxcTuning) : s.select.2.tried = s.tried := by
  unfold SdxcTuning.select
  split <;> rfl

/-- What the loop makes of the outcomes. -/
theorem sdxcPerformSoftwareTuning_eq (intStat : BitVec 8 → Nat → BitVec 32)
    (autoTuningStat : BitVec 32) :
    ∃ s, sdxcPerformSoftwareTuning intStat autoTuningStat = some s.select ∧
      TuningInv (fun code => sdxcTuningPasses (intStat code)) 255 s := by
  obtain ⟨s, hloop, hinv⟩ := TuningInv.loop (fun code => sdxcTuningPasses (intStat code)) 254 rfl
    (.start autoTuningStat)
  refine ⟨s, ?_, hinv⟩
  unfold sdxcPerformSoftwareTuning
  dsimp only
  rw [hloop, Option.map_some]

/-- Whatever the codes do, the last one the field can hold is not tried.

The loop invariant says that the codes tried are the numbers below the loop's counter, in order,
and the loop ends at 255.  What is selected behind it does not matter for this. -/
theorem sdxcPerformSoftwareTuning_never (intStat : BitVec 8 → Nat → BitVec 32)
    (autoTuningStat : BitVec 32) :
    ¬ SdxcTuningRight (fun code => sdxcTuningPasses (intStat code))
      (sdxcPerformSoftwareTuning intStat autoTuningStat) := by
  obtain ⟨s, heq, hinv⟩ := sdxcPerformSoftwareTuning_eq intStat autoTuningStat
  rintro ⟨stat, s', hsome, htried, -, -⟩
  rw [heq, Option.some.injEq] at hsome
  have hmem : (255 : BitVec 8) ∈ s.select.2.tried := by
    rw [hsome]
    exact htried 255
  rw [select_tried, hinv.tried, List.mem_map] at hmem
  obtain ⟨i, hi, hcode⟩ := hmem
  have hlt := List.mem_range.mp hi
  have hnat : i % 2 ^ 8 = 255 := congrArg BitVec.toNat hcode
  omega

/-- The codes that pass are 10 to 20 and 100 to 120. -/
def inTwoWindows (code : BitVec 8) : Bool :=
  decide (10 ≤ code.toNat ∧ code.toNat ≤ 20 ∨ 100 ≤ code.toNat ∧ code.toNat ≤ 120)

/-- What `INT_STAT` reads: the data, or an error. -/
def twoWindows (code : BitVec 8) (_ : Nat) : BitVec 32 :=
  if inTwoWindows code then intStatBufRdReady else intStatErrInterrupt

theorem sdxcTuningPasses_twoWindows (code : BitVec 8) :
    sdxcTuningPasses (twoWindows code) = inTwoWindows code := by
  cases h : inTwoWindows code with
  | true =>
    have hread : twoWindows code = fun _ => intStatBufRdReady := by
      funext k
      unfold twoWindows
      rw [h, if_pos rfl]
    rw [hread]
    rfl
  | false =>
    have hread : twoWindows code = fun _ => intStatErrInterrupt := by
      funext k
      unfold twoWindows
      rw [h, if_neg Bool.false_ne_true]
    rw [hread]
    rfl

/-- Of two windows the code between them is selected, which does not pass. -/
theorem sdxcPerformSoftwareTuning_between : ¬ ∀ (intStat : BitVec 8 → Nat → BitVec 32)
    (autoTuningStat : BitVec 32), SdxcTuningRight (fun code => sdxcTuningPasses (intStat code))
      (sdxcPerformSoftwareTuning intStat autoTuningStat) := by
  intro h
  obtain ⟨s, heq, hinv⟩ := sdxcPerformSoftwareTuning_eq twoWindows 0
  obtain ⟨stat, s', hsome, -, -, hselected⟩ := h twoWindows 0
  rw [heq, Option.some.injEq] at hsome
  rcases hinv.select_cases with ⟨hnone, -⟩ | ⟨first, last, hfirst, hlast, hends, hselect⟩
  · have hten := hnone 10 (by decide)
    rw [sdxcTuningPasses_twoWindows] at hten
    cases hten
  · have hmin := (hends 10 (by decide) (by rw [sdxcTuningPasses_twoWindows]; rfl)).1
    have hmax := (hends 120 (by decide) (by rw [sdxcTuningPasses_twoWindows]; rfl)).2
    rw [sdxcTuningPasses_twoWindows, inTwoWindows, decide_eq_true_iff, BitVec.toNat_ofNat]
      at hfirst hlast
    obtain rfl : first = 10 := by omega
    obtain rfl : last = 120 := by omega
    rw [hselect] at hsome
    cases hsome
    have hpass := (hselected rfl).1
    rw [code_setCenterPhaseCode] at hpass
    exact absurd ((sdxcTuningPasses_twoWindows _).symm.trans hpass) (by decide)

end HpmSdk.Sdxc
