import HpmSdk.Dram.ConfigRun
import HpmSdk.Foundation.Ticks

set_option autoImplicit false

/-!
# DRAM: the timings of a configuration

A time is converted to cycles by rounding down twice, which the registers make up for by a cycle of
their own.  What is not looked at is whether the cycles fit the field, and whether the clock has a
whole nanosecond for a cycle.

Each field of the two registers is an instance of one description, `DramTiming`, so that one lemma
answers for all of them.
-/

namespace HpmSdk.Dram

open HpmSdk.Foundation

/-! ## The contract -/

/-- A timing of the memory: its nanoseconds, and the field that its cycles are written to, which may
count prescaled periods. -/
structure DramTiming where
  ns : DramSdramConfig → BitVec 8
  field : RegField
  prescaled : Bool

/-- The timings of `SDRCTRL1`. -/
def dramSdrctrl1Timings : List DramTiming := [
  ⟨DramSdramConfig.prechargeToActInNs, ⟨0, 4⟩, false⟩,
  ⟨DramSdramConfig.actToRwInNs, ⟨4, 4⟩, false⟩,
  ⟨DramSdramConfig.refreshRecoverInNs, ⟨8, 5⟩, false⟩,
  ⟨DramSdramConfig.writeRecoverInNs, ⟨13, 3⟩, false⟩,
  ⟨DramSdramConfig.ckeOffInNs, ⟨16, 4⟩, false⟩,
  ⟨DramSdramConfig.actToPrechargeInNs, ⟨20, 4⟩, false⟩]

/-- The timings of `SDRCTRL2`. -/
def dramSdrctrl2Timings : List DramTiming := [
  ⟨DramSdramConfig.selfRefreshRecoverInNs, ⟨0, 8⟩, false⟩,
  ⟨DramSdramConfig.refreshToRefreshInNs, ⟨8, 8⟩, false⟩,
  ⟨DramSdramConfig.actToActInNs, ⟨16, 8⟩, false⟩,
  ⟨DramSdramConfig.idleTimeoutInNs, ⟨24, 8⟩, true⟩]

/-- The count of periods that a field stands for: 0 is the largest one. -/
def dramCount (v : BitVec 32) : Nat := if v = 0 then 256 else v.toNat

/-- The clock cycles of a prescaled period. -/
def dramPeriod (r : DramSdrctrl) : Nat := dramCount ((⟨8, 8⟩ : RegField).get r.sdrctrl3) * 16

/-- The clock cycles between two refreshes. -/
def dramRefresh (r : DramSdrctrl) : Nat :=
  dramCount ((⟨16, 8⟩ : RegField).get r.sdrctrl3) * dramPeriod r

/-- The clock cycles that a value of the field promises. -/
def DramTiming.promised (t : DramTiming) (r : DramSdrctrl) (v : BitVec 32) : Nat :=
  if t.prescaled then dramCount v * dramPeriod r else v.toNat + 1

/-- What is asked of a timing in a register: its cycles fit, and last at least as long as asked. -/
structure DramTiming.Met (t : DramTiming) (clkInHz : BitVec 32) (config : DramSdramConfig)
    (r : DramSdrctrl) (reg : BitVec 32) : Prop where
  fits : t.field.get reg = DramSdramConfig.cycles clkInHz (t.ns config)
  lasts : (t.ns config).toNat * clkInHz.toNat ≤ 1000000000 * t.promised r (t.field.get reg)

/-- What is asked of the control registers. -/
structure DramTimed (clkInHz : BitVec 32) (config : DramSdramConfig) (r : DramSdrctrl) :
    Prop where
  perCycle : 1000000000 / clkInHz ≠ 0
  count : config.refreshCount ≠ 0
  product : clkInHz.toNat / 1000 * config.refreshInMs.toNat < 2 ^ 32
  sdrctrl1 : ∀ t ∈ dramSdrctrl1Timings, t.Met clkInHz config r r.sdrctrl1
  sdrctrl2 : ∀ t ∈ dramSdrctrl2Timings, t.Met clkInHz config r r.sdrctrl2
  positive : 0 < dramRefresh r
  refresh : dramRefresh r * (1000 * config.refreshCount.toNat) ≤
    config.refreshInMs.toNat * clkInHz.toNat

/-- What is asked of a configuration that is accepted. -/
def DramTimely (hw : DramHw) (ptr : DramBase) (clkInHz : BitVec 32) (config : DramSdramConfig) :
    Prop :=
  config.Accepted clkInHz → DramTimed clkInHz config (dramConfigSdram hw ptr clkInHz config).2.sdrctrl

/-! ## Cycles -/

section Cycles

variable (clkInHz : BitVec 32)

/-- The truncated nanoseconds of a cycle. -/
def dramNsPerCycle : Nat := 1000000000 / clkInHz.toNat

variable {clkInHz}

theorem dramNsPerCycle_toNat (hclk : clkInHz ≠ 0#32) :
    ((1000000000#32).smtUDiv clkInHz).toNat = dramNsPerCycle clkInHz := toNat_smtUDiv hclk

/-- The cycles of a time: the quotient rounded down, and 1 for a time of less than a cycle. -/
theorem cycles_toNat (hclk : clkInHz ≠ 0#32) (hper : dramNsPerCycle clkInHz ≠ 0) (ns : BitVec 8) :
    (DramSdramConfig.cycles clkInHz ns).toNat =
      if ns.toNat < dramNsPerCycle clkInHz then 1 else ns.toNat / dramNsPerCycle clkInHz := by
  have hns : (ns.setWidth 32).toNat = ns.toNat := BitVec.toNat_setWidth_of_le (by decide)
  have hne : (1000000000#32).smtUDiv clkInHz ≠ 0#32 := by
    intro hzero
    rw [← dramNsPerCycle_toNat hclk, hzero] at hper
    exact hper rfl
  unfold DramSdramConfig.cycles ns2cycle
  dsimp only
  simp only [BitVec.lt_def, dramNsPerCycle_toNat hclk, hns]
  split
  · rfl
  · rw [toNat_smtUDiv hne, dramNsPerCycle_toNat hclk, hns]

/-- At more than 1 GHz a cycle has no whole nanosecond, and the number of cycles is the largest. -/
theorem cycles_of_zero (hclk : clkInHz ≠ 0#32) (hper : dramNsPerCycle clkInHz = 0) (ns : BitVec 8) :
    (DramSdramConfig.cycles clkInHz ns).toNat = 2 ^ 32 - 1 := by
  have hzero : (1000000000#32).smtUDiv clkInHz = 0#32 := by
    refine BitVec.eq_of_toNat_eq ?_
    rw [dramNsPerCycle_toNat hclk, hper]
    rfl
  unfold DramSdramConfig.cycles ns2cycle
  dsimp only
  rw [hzero, if_neg BitVec.not_lt_zero, BitVec.smtUDiv_zero, BitVec.toNat_allOnes]

/-- Cycles fit a field where their nanoseconds do. -/
theorem cycles_lt_iff (hclk : clkInHz ≠ 0#32) (ns : BitVec 8) {width : Nat} (hpos : 0 < width)
    (hle : width ≤ 8) : (DramSdramConfig.cycles clkInHz ns).toNat < 2 ^ width ↔
      ns.toNat < 2 ^ width * dramNsPerCycle clkInHz := by
  have hone : 1 < 2 ^ width := Nat.one_lt_two_pow (Nat.ne_of_gt hpos)
  rcases Nat.eq_zero_or_pos (dramNsPerCycle clkInHz) with hper | hper
  · have hpow : 2 ^ width ≤ 2 ^ 8 := Nat.pow_le_pow_right Nat.two_pos hle
    rw [cycles_of_zero hclk hper, hper, Nat.mul_zero]
    exact iff_of_false (by omega) (Nat.not_lt_zero _)
  · rw [cycles_toNat hclk (Nat.ne_of_gt hper)]
    split
    · rename_i hlt
      refine iff_of_true hone (Nat.lt_of_lt_of_le hlt ?_)
      exact Nat.le_mul_of_pos_left _ (Nat.two_pow_pos width)
    · exact Nat.div_lt_iff_lt_mul hper

/-- The cycles and one more last as long as asked. -/
theorem cycles_lasts (hclk : clkInHz ≠ 0#32) (hper : dramNsPerCycle clkInHz ≠ 0) (ns : BitVec 8) :
    ns.toNat * clkInHz.toNat ≤
      1000000000 * ((DramSdramConfig.cycles clkInHz ns).toNat + 1) := by
  have hfreq : 0 < clkInHz.toNat := BitVec.toNat_pos_of_ne_zero hclk
  have hle : ns.toNat / dramNsPerCycle clkInHz ≤ (DramSdramConfig.cycles clkInHz ns).toNat := by
    rw [cycles_toNat hclk hper]
    split
    · rename_i hlt
      rw [Nat.div_eq_of_lt hlt]
      exact Nat.zero_le 1
    · exact Nat.le_refl _
  exact Nat.le_trans (Nat.le_of_lt (ticks_last hfreq hper ns.toNat))
    (Nat.mul_le_mul_left _ (Nat.succ_le_succ hle))

theorem cycles_pos (hclk : clkInHz ≠ 0#32) (hper : dramNsPerCycle clkInHz ≠ 0) (ns : BitVec 8) :
    0 < (DramSdramConfig.cycles clkInHz ns).toNat := by
  rw [cycles_toNat hclk hper]
  split
  · exact Nat.one_pos
  · rename_i hge
    exact Nat.div_pos (Nat.le_of_not_lt hge) (Nat.pos_of_ne_zero hper)

end Cycles

/-! ## Configurations that are accepted -/

section Accepted

variable {clkInHz : BitVec 32} {config : DramSdramConfig}

theorem dramPrescalerMax_toNat : dramPrescalerMax.toNat = 256 := rfl

/-- A prescaler of 0 means 256. -/
theorem prescalerOf_toNat (config : DramSdramConfig) :
    0 < config.prescalerOf.toNat ∧ config.prescalerOf.toNat ≤ 256 := by
  have hlt := config.prescaler.isLt
  unfold DramSdramConfig.prescalerOf
  split
  · exact ⟨by decide, by decide⟩
  · rename_i hne
    have hpos : config.prescaler.toNat ≠ 0 := fun h => hne (BitVec.eq_of_toNat_eq h)
    rw [BitVec.toNat_setWidth]
    omega

theorem prescalerOf_shiftLeft (config : DramSdramConfig) :
    (config.prescalerOf <<< 4).toNat = config.prescalerOf.toNat * 16 := by
  have hle := (prescalerOf_toNat config).2
  rw [BitVec.toNat_shiftLeft, Nat.shiftLeft_eq]
  exact Nat.mod_eq_of_lt (by omega)

/-- The divisor of the refresh is never 0. -/
theorem prescalerOf_shiftLeft_ne_zero : config.prescalerOf <<< 4 ≠ 0#32 := by
  intro hzero
  have hpos := (prescalerOf_toNat config).1
  have hval := prescalerOf_shiftLeft config
  rw [hzero] at hval
  change 0 = _ at hval
  omega

/-- The product of the refresh computation never wraps. -/
theorem refreshProduct_lt (clkInHz : BitVec 32) (config : DramSdramConfig) :
    clkInHz.toNat / 1000 * config.refreshInMs.toNat < 2 ^ 32 := by
  have hclk := clkInHz.isLt
  have hms := config.refreshInMs.isLt
  calc clkInHz.toNat / 1000 * config.refreshInMs.toNat ≤ 4294967 * 255 :=
        Nat.mul_le_mul (by omega) (by omega)
    _ < 2 ^ 32 := by decide

/-- A count of zero is rejected, although only behind the division by it. -/
theorem refreshCount_ne_zero (h : config.Accepted clkInHz) : config.refreshCount ≠ 0#32 := by
  intro hzero
  have hbound := prescalerOf_toNat config
  apply h
  refine Or.inr (Or.inr (Or.inr ?_))
  rw [DramSdramConfig.refreshCycle, hzero, BitVec.smtUDiv_zero, BitVec.lt_def,
    toNat_smtUDiv prescalerOf_shiftLeft_ne_zero, prescalerOf_shiftLeft, BitVec.toNat_allOnes,
    dramPrescalerMax_toNat]
  apply Nat.lt_of_lt_of_le (m := (2 ^ 32 - 1) / (256 * 16)) (by decide)
  exact Nat.div_le_div_left (Nat.mul_le_mul_right 16 hbound.2) (by omega)

/-- The refresh period, with the divisions in the order of the source. -/
theorem refreshCycle_toNat (hcount : config.refreshCount ≠ 0#32) :
    (config.refreshCycle clkInHz).toNat =
      clkInHz.toNat / 1000 * config.refreshInMs.toNat / config.refreshCount.toNat /
        (config.prescalerOf.toNat * 16) := by
  have hms : (config.refreshInMs.setWidth 32).toNat = config.refreshInMs.toNat :=
    BitVec.toNat_setWidth_of_le (by decide)
  have hkhz : (clkInHz / 1000).toNat = clkInHz.toNat / 1000 := BitVec.toNat_udiv
  rw [DramSdramConfig.refreshCycle, toNat_smtUDiv prescalerOf_shiftLeft_ne_zero,
    toNat_smtUDiv hcount, BitVec.toNat_mul, hkhz, hms, prescalerOf_shiftLeft,
    Nat.mod_eq_of_lt (refreshProduct_lt clkInHz config)]

/-- What accepting a configuration says about the refresh cycle. -/
theorem refreshCycle_of_accepted (h : config.Accepted clkInHz) :
    0 < (config.refreshCycle clkInHz).toNat ∧ (config.refreshCycle clkInHz).toNat ≤ 256 := by
  unfold DramSdramConfig.Accepted at h
  simp only [not_or, BitVec.lt_def, dramPrescalerMax_toNat] at h
  obtain ⟨-, -, hne, hle⟩ := h
  exact ⟨BitVec.toNat_pos_of_ne_zero hne, Nat.le_of_not_lt hle⟩

/-- A clock that is accepted is not zero. -/
theorem clkInHz_ne_zero (h : config.Accepted clkInHz) : clkInHz ≠ 0#32 := by
  intro hzero
  have hpos := (refreshCycle_of_accepted h).1
  rw [refreshCycle_toNat (refreshCount_ne_zero h), hzero] at hpos
  simp at hpos

end Accepted

/-! ## The registers -/

section Registers

variable {clkInHz : BitVec 32} {config : DramSdramConfig}

/-- 256 is written as 0 and means 256 again. -/
theorem wrapped_spec {n : BitVec 32} (hpos : 0 < n.toNat) (hle : n.toNat ≤ 256) :
    (DramSdramConfig.wrapped n).toNat < 2 ^ 8 ∧ dramCount (DramSdramConfig.wrapped n) = n.toNat := by
  unfold DramSdramConfig.wrapped dramCount
  split
  · rename_i heq
    rw [heq]
    exact ⟨by decide, by decide⟩
  · rename_i hne
    have hne' : n.toNat ≠ 256 := fun h => hne (BitVec.eq_of_toNat_eq h)
    have hzero : n ≠ 0 := fun h => by
      rw [h] at hpos
      exact absurd hpos (by decide)
    rw [if_neg hzero]
    exact ⟨by omega, rfl⟩

/-- A field of `SDRCTRL3` that holds its value does so also with refreshing enabled. -/
theorem get_sdrctrl3 {f : RegField} {x : BitVec 32} (hren : f.Apart ⟨0, 1⟩)
    (hmem : (f, x) ∈ [
      ((⟨8, 8⟩ : RegField), DramSdramConfig.wrapped config.prescalerOf),
      (⟨16, 8⟩, DramSdramConfig.wrapped (config.refreshCycle clkInHz)),
      (⟨24, 8⟩, DramSdramConfig.wrapped (config.refreshCycle clkInHz)),
      (⟨1, 3⟩, config.autoRefreshCountInOneBurst.setWidth 32 - 1)])
    (hf : f.first + f.width ≤ 32) (hx : x.toNat < 2 ^ f.width) :
    f.get (config.sdrctrl clkInHz).refreshing.sdrctrl3 = x := by
  have happart : List.Pairwise RegField.Apart [⟨8, 8⟩, ⟨16, 8⟩, ⟨24, 8⟩, ⟨1, 3⟩] := by decide
  unfold DramSdrctrl.refreshing
  dsimp only
  rw [RegField.get_or, RegField.get_mask_of_apart hren, BitVec.or_zero]
  refine RegField.get_sets_of_lt ?_ hmem hf hx
  exact happart

/-- The prescaler that the controller uses is the one that was meant. -/
theorem dramPeriod_eq : dramPeriod (config.sdrctrl clkInHz).refreshing =
    config.prescalerOf.toNat * 16 := by
  obtain ⟨hpos, hle⟩ := prescalerOf_toNat config
  obtain ⟨hlt, hcount⟩ := wrapped_spec hpos hle
  unfold dramPeriod
  rw [get_sdrctrl3 (by decide) List.mem_cons_self (by decide) hlt, hcount]

theorem dramRefresh_eq (h : config.Accepted clkInHz) :
    dramRefresh (config.sdrctrl clkInHz).refreshing =
      (config.refreshCycle clkInHz).toNat * (config.prescalerOf.toNat * 16) := by
  obtain ⟨hpos, hle⟩ := refreshCycle_of_accepted h
  obtain ⟨hlt, hcount⟩ := wrapped_spec hpos hle
  unfold dramRefresh
  rw [get_sdrctrl3 (by decide) (List.mem_cons_of_mem _ List.mem_cons_self) (by decide) hlt, hcount,
    dramPeriod_eq]

/-- The refresh interval is at most the one that was asked for. -/
theorem dramRefresh_le (h : config.Accepted clkInHz) :
    dramRefresh (config.sdrctrl clkInHz).refreshing * (1000 * config.refreshCount.toNat) ≤
      config.refreshInMs.toNat * clkInHz.toNat := by
  rw [dramRefresh_eq h, refreshCycle_toNat (refreshCount_ne_zero h)]
  generalize hproduct : clkInHz.toNat / 1000 * config.refreshInMs.toNat = product
  generalize config.prescalerOf.toNat * 16 = period
  calc product / config.refreshCount.toNat / period * period * (1000 * config.refreshCount.toNat)
      ≤ product / config.refreshCount.toNat * (1000 * config.refreshCount.toNat) :=
        Nat.mul_le_mul_right _ (Nat.div_mul_le_self _ _)
    _ = product / config.refreshCount.toNat * config.refreshCount.toNat * 1000 := by ring
    _ ≤ product * 1000 := Nat.mul_le_mul_right _ (Nat.div_mul_le_self _ _)
    _ = config.refreshInMs.toNat * (clkInHz.toNat / 1000 * 1000) := by
        rw [← hproduct]
        ring
    _ ≤ config.refreshInMs.toNat * clkInHz.toNat :=
        Nat.mul_le_mul_left _ (Nat.div_mul_le_self _ _)

end Registers

/-! ## The timings -/

/-- A field that lies in a register and is not wider than eight bits. -/
def DramFieldOk (f : RegField) : Prop := 0 < f.width ∧ f.width ≤ 8 ∧ f.first + f.width ≤ 32

instance : DecidablePred DramFieldOk := fun _ => inferInstanceAs (Decidable (_ ∧ _))

/-- Every field lies within its register. -/
theorem dramTimings_ok : ∀ t ∈ dramSdrctrl1Timings ++ dramSdrctrl2Timings, DramFieldOk t.field :=
  List.forall_mem_map.mp (show ∀ f ∈ ([⟨0, 4⟩, ⟨4, 4⟩, ⟨8, 5⟩, ⟨13, 3⟩, ⟨16, 4⟩, ⟨20, 4⟩, ⟨0, 8⟩,
    ⟨8, 8⟩, ⟨16, 8⟩, ⟨24, 8⟩] : List RegField), DramFieldOk f by decide)

/-- The timings of the first register do not overlap. -/
theorem dramSdrctrl1Timings_apart :
    (dramSdrctrl1Timings.map DramTiming.field).Pairwise RegField.Apart :=
  show List.Pairwise RegField.Apart [⟨0, 4⟩, ⟨4, 4⟩, ⟨8, 5⟩, ⟨13, 3⟩, ⟨16, 4⟩, ⟨20, 4⟩] by decide

/-- The timings of the second register do not overlap. -/
theorem dramSdrctrl2Timings_apart :
    (dramSdrctrl2Timings.map DramTiming.field).Pairwise RegField.Apart :=
  show List.Pairwise RegField.Apart [⟨0, 8⟩, ⟨8, 8⟩, ⟨16, 8⟩, ⟨24, 8⟩] by decide

section Timings

variable {clkInHz : BitVec 32} {config : DramSdramConfig} {t : DramTiming}

/-- The fields of some timings with their values. -/
def dramTimingFields (clkInHz : BitVec 32) (config : DramSdramConfig) (timings : List DramTiming) :
    List (RegField × BitVec 32) :=
  timings.map fun t => (t.field, DramSdramConfig.cycles clkInHz (t.ns config))

theorem sdrctrl1_eq_sets : (config.sdrctrl clkInHz).refreshing.sdrctrl1 =
    RegField.sets (dramTimingFields clkInHz config dramSdrctrl1Timings) := rfl

theorem sdrctrl2_eq_sets : (config.sdrctrl clkInHz).refreshing.sdrctrl2 =
    RegField.sets (dramTimingFields clkInHz config dramSdrctrl2Timings) := rfl

/-- A timing is read back cut to its field, whatever the other ones are. -/
theorem get_dramTiming {timings : List DramTiming}
    (happart : (timings.map DramTiming.field).Pairwise RegField.Apart) (ht : t ∈ timings) :
    t.field.get (RegField.sets (dramTimingFields clkInHz config timings)) =
      t.field.get (t.field.set (DramSdramConfig.cycles clkInHz (t.ns config))) := by
  refine RegField.get_sets_of_mem ?_ (List.mem_map_of_mem ht)
  rw [dramTimingFields, List.map_map]
  exact happart

/-- The cycles of a timing and one more are at most what its field promises. -/
theorem cycles_lt_promised (hpos : 0 < (DramSdramConfig.cycles clkInHz (t.ns config)).toNat) :
    (DramSdramConfig.cycles clkInHz (t.ns config)).toNat + 1 ≤
      t.promised (config.sdrctrl clkInHz).refreshing
        (DramSdramConfig.cycles clkInHz (t.ns config)) := by
  generalize DramSdramConfig.cycles clkInHz (t.ns config) = n at hpos ⊢
  have hne : n ≠ 0 := fun h => by
    rw [h] at hpos
    exact absurd hpos (by decide)
  have hprescaler := (prescalerOf_toNat config).1
  unfold DramTiming.promised dramCount
  rw [dramPeriod_eq, if_neg hne]
  split
  · calc n.toNat + 1 ≤ n.toNat * 16 := by omega
      _ ≤ n.toNat * (config.prescalerOf.toNat * 16) := Nat.mul_le_mul_left _ (by omega)
  · exact Nat.le_refl _

/-- A timing is met exactly where its nanoseconds fit its field. -/
theorem dramTiming_met_iff (hclk : clkInHz ≠ 0#32) (hfield : DramFieldOk t.field) {reg : BitVec 32}
    (hreg : t.field.get reg =
      t.field.get (t.field.set (DramSdramConfig.cycles clkInHz (t.ns config)))) :
    t.Met clkInHz config (config.sdrctrl clkInHz).refreshing reg ↔
      (t.ns config).toNat < 2 ^ t.field.width * dramNsPerCycle clkInHz := by
  obtain ⟨hwidth, hle, hfirst⟩ := hfield
  rw [← cycles_lt_iff hclk (t.ns config) hwidth hle]
  constructor
  · intro h
    have hfits := congrArg BitVec.toNat (hreg.symm.trans h.fits)
    rw [RegField.get_set_toNat _ hfirst] at hfits
    rw [← hfits]
    exact Nat.mod_lt _ (Nat.two_pow_pos _)
  · intro hlt
    have hper : dramNsPerCycle clkInHz ≠ 0 := by
      intro hzero
      rw [cycles_lt_iff hclk (t.ns config) hwidth hle, hzero] at hlt
      exact Nat.not_lt_zero _ hlt
    have hvalue := hreg.trans (RegField.get_set_of_lt _ hfirst hlt)
    refine ⟨hvalue, ?_⟩
    rw [hvalue]
    refine Nat.le_trans (cycles_lasts hclk hper (t.ns config)) (Nat.mul_le_mul_left _ ?_)
    exact cycles_lt_promised (cycles_pos hclk hper (t.ns config))

/-- The timings of one register, behind a configuration. -/
theorem sdrctrl1_met_iff (hclk : clkInHz ≠ 0) (ht : t ∈ dramSdrctrl1Timings) :
    t.Met clkInHz config (config.sdrctrl clkInHz).refreshing
        (config.sdrctrl clkInHz).refreshing.sdrctrl1 ↔
      (t.ns config).toNat < 2 ^ t.field.width * dramNsPerCycle clkInHz := by
  rw [sdrctrl1_eq_sets]
  exact dramTiming_met_iff hclk (dramTimings_ok t (List.mem_append_left _ ht))
    (get_dramTiming dramSdrctrl1Timings_apart ht)

theorem sdrctrl2_met_iff (hclk : clkInHz ≠ 0) (ht : t ∈ dramSdrctrl2Timings) :
    t.Met clkInHz config (config.sdrctrl clkInHz).refreshing
        (config.sdrctrl clkInHz).refreshing.sdrctrl2 ↔
      (t.ns config).toNat < 2 ^ t.field.width * dramNsPerCycle clkInHz := by
  rw [sdrctrl2_eq_sets]
  exact dramTiming_met_iff hclk (dramTimings_ok t (List.mem_append_right _ ht))
    (get_dramTiming dramSdrctrl2Timings_apart ht)

/-- Every timing takes fewer nanoseconds than its field has truncated cycles. -/
def DramTimingsFit (clkInHz : BitVec 32) (config : DramSdramConfig) : Prop :=
  ∀ t ∈ dramSdrctrl1Timings ++ dramSdrctrl2Timings,
    (t.ns config).toNat < 2 ^ t.field.width * (1000000000 / clkInHz.toNat)

/-- **A configuration that is accepted is timely if and only if every timing fits its field at the
clock.**

A time is rounded down to cycles and the register counts one cycle more, so what fits its field
lasts long enough; what does not fit is cut, and is then shorter than what was asked for.  The
fields lie apart in the two registers, so each timing can be looked at by itself.  A clock beyond
1 GHz has a cycle of 0 ns, with which nothing fits. -/
theorem dramTimely_iff (hw : DramHw) (ptr : DramBase) (clkInHz : BitVec 32)
    (config : DramSdramConfig) : DramTimely hw ptr clkInHz config ↔
      (config.Accepted clkInHz → DramTimingsFit clkInHz config) := by
  refine forall_congr' ?_
  intro h
  have hclk := clkInHz_ne_zero h
  rw [(dramConfigSdram_of_accepted hw ptr h).sdrctrl]
  constructor
  · intro htimed t ht
    rcases List.mem_append.mp ht with ht | ht
    · exact (sdrctrl1_met_iff hclk ht).mp (htimed.sdrctrl1 t ht)
    · exact (sdrctrl2_met_iff hclk ht).mp (htimed.sdrctrl2 t ht)
  · intro hfits
    have hper : dramNsPerCycle clkInHz ≠ 0 := by
      intro hzero
      have hfit := hfits _ (List.mem_append_left _ List.mem_cons_self)
      change _ < _ * dramNsPerCycle clkInHz at hfit
      rw [hzero] at hfit
      exact Nat.not_lt_zero _ hfit
    have hpositive : 0 < dramRefresh (config.sdrctrl clkInHz).refreshing := by
      rw [dramRefresh_eq h]
      have hprescaler := (prescalerOf_toNat config).1
      exact Nat.mul_pos (refreshCycle_of_accepted h).1 (by omega)
    refine ⟨?_, refreshCount_ne_zero h, refreshProduct_lt clkInHz config, ?_, ?_, hpositive,
      dramRefresh_le h⟩
    · intro hzero
      have hdiv : (1000000000 / clkInHz).toNat = dramNsPerCycle clkInHz := BitVec.toNat_udiv
      rw [hzero] at hdiv
      exact hper hdiv.symm
    · intro t ht
      exact (sdrctrl1_met_iff hclk ht).mpr (hfits t (List.mem_append_left _ ht))
    · intro t ht
      exact (sdrctrl2_met_iff hclk ht).mpr (hfits t (List.mem_append_right _ ht))

end Timings

/-- At 400 MHz the 42 ns from activating to precharging take 21 cycles, of which 5 are written. -/
theorem dramTimely_truncated : ¬ ∀ (hw : DramHw) (ptr : DramBase) (clkInHz : BitVec 32)
    (config : DramSdramConfig), clkInHz ≠ 0 → DramTimely hw ptr clkInHz config := by
  intro h
  let hw : DramHw := fun _ => ⟨fun _ => 1, 0⟩
  let ptr : DramBase := ⟨fun _ => 0, ⟨0, 0, 0, 0⟩, 0, 0, 0, 0, 0, [], []⟩
  let t : DramTiming := ⟨DramSdramConfig.actToPrechargeInNs, ⟨20, 4⟩, false⟩
  have ht : t ∈ dramSdrctrl1Timings := by
    simp only [dramSdrctrl1Timings, t, List.mem_cons, true_or, or_true]
  have haccepted : dramBoardConfig.Accepted 400000000 := by decide
  have htimed := h hw ptr 400000000 dramBoardConfig (by decide) haccepted
  rw [(dramConfigSdram_of_accepted hw ptr haccepted).sdrctrl] at htimed
  have hfits := (dramTiming_met_iff (by decide) (by decide)
    (get_dramTiming dramSdrctrl1Timings_apart ht)).mp (htimed.sdrctrl1 t ht)
  revert hfits
  decide

end HpmSdk.Dram
