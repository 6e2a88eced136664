import HpmSdk.Can.BitTimingContract
import HpmSdk.Can.Filter

set_option autoImplicit false

/-!
# CAN: which lists of filters are set

The window keeps the codes and masks apart.  Enabling a filter writes the whole register of
enable bits, so that only the filter enabled last stays enabled.

The codes and masks of a list are the writes of `Foundation.Updates`, of which every one is found
again where the indices differ.  The enable bits are not: behind the list there is one at most.
-/

namespace HpmSdk.Can

open HpmSdk.Foundation

/-! ## The window -/

namespace CanFilterConfig

/-- The filter that the window shows for an index. -/
def slot (c : CanFilterConfig) : Fin canFilterCount :=
  Fin.ofNat canFilterCount (canAcfctrlAcfadr.get (canAcfctrlAcfadr.set (c.index.setWidth 8))).toNat

theorem slot_val (c : CanFilterConfig) : (c.slot : Nat) = c.index.toNat % 16 := by
  have hget : (canAcfctrlAcfadr.get (canAcfctrlAcfadr.set (c.index.setWidth 8))).toNat =
      (c.index.setWidth 8).toNat % 2 ^ 4 := RegField.get_set_toNat (f := canAcfctrlAcfadr) _ (by decide)
  unfold slot
  rw [Fin.val_ofNat, hget, BitVec.toNat_setWidth]
  unfold canFilterCount
  omega

theorem slot_of_lt {c : CanFilterConfig} (h : c.index.toNat < canFilterCount) :
    (c.slot : Nat) = c.index.toNat := by
  rw [slot_val]
  exact Nat.mod_eq_of_lt h

/-- The enable bit of an index. -/
def bit (c : CanFilterConfig) : BitVec 16 := (1#32 <<< c.index.toNat).setWidth 16

/-- The enable bit of a filter is that of its index, and no bit for an index beyond the filters. -/
theorem getLsbD_bit (c : CanFilterConfig) (i : Fin canFilterCount) :
    c.bit.getLsbD i = decide (c.index.toNat = i) := by
  have hi := i.isLt
  unfold canFilterCount at hi
  unfold bit
  rw [BitVec.getLsbD_setWidth, BitVec.getLsbD_shiftLeft, BitVec.getLsbD_one]
  by_cases heq : c.index.toNat = i
  · have h32 : (i : Nat) < 32 := by omega
    simp [heq, hi, h32]
  · by_cases hlt : (i : Nat) < c.index.toNat
    · simp [heq, hlt]
    · have hsub : ¬ (i : Nat) - c.index.toNat = 0 := by omega
      simp [heq, hsub]

end CanFilterConfig

section Window

variable (base : CanBase) (c : CanFilterConfig)

/-- The first write goes to the code of the filter, and the second one to its mask. -/
theorem canSetFilter_eq : canSetFilter base c =
    { base with
      acfctrl := canAcfctrlSelmask.mask 8 ||| canAcfctrlAcfadr.set (c.index.setWidth 8)
      acfCode := Function.update base.acfCode c.slot (canAcfCodeMask.set c.code)
      acfMask := Function.update base.acfMask c.slot c.acfValue
      acfEn :=
        if c.enable then c.bit
        else base.acfEn &&& (~~~(1#32 <<< c.index.toNat)).setWidth 16 } := by
  have hcode : canAcfctrlSelmask.get (canAcfctrlAcfadr.set (c.index.setWidth 8)) ≠ 1 := by
    rw [RegField.get_set_of_apart _ (by decide)]
    decide
  have hmask : canAcfctrlSelmask.get
      (canAcfctrlSelmask.mask 8 ||| canAcfctrlAcfadr.set (c.index.setWidth 8)) = 1 := by
    rw [RegField.get_or, RegField.get_set_of_apart _ (by decide)]
    decide
  have hadr : canAcfctrlAcfadr.get
      (canAcfctrlSelmask.mask 8 ||| canAcfctrlAcfadr.set (c.index.setWidth 8)) =
      canAcfctrlAcfadr.get (canAcfctrlAcfadr.set (c.index.setWidth 8)) := by
    have hapart : canAcfctrlAcfadr.get (canAcfctrlSelmask.mask 8) = 0#8 := by decide
    rw [RegField.get_or, hapart, BitVec.zero_or]
  unfold canSetFilter CanBase.writeAcf CanBase.acfAdr
  simp only [if_neg hcode, if_pos hmask, hadr]
  split <;> rfl

/-! ## The whole list -/

variable (l : List CanFilterConfig)

/-- The codes behind a list of filters: each one is written to its slot. -/
theorem foldl_canSetFilter_acfCode : (l.foldl canSetFilter base).acfCode =
    writeAll CanFilterConfig.slot (fun c => canAcfCodeMask.set c.code) base.acfCode l := by
  induction l generalizing base with
  | nil => rfl
  | cons c l ih =>
    rw [List.foldl_cons, ih, canSetFilter_eq]
    rfl

/-- The masks behind a list of filters: each one is written to its slot. -/
theorem foldl_canSetFilter_acfMask : (l.foldl canSetFilter base).acfMask =
    writeAll CanFilterConfig.slot CanFilterConfig.acfValue base.acfMask l := by
  induction l generalizing base with
  | nil => rfl
  | cons c l ih =>
    rw [List.foldl_cons, ih, canSetFilter_eq]
    rfl

end Window

/-! ## The enable bits -/

section Enable

variable {base : CanBase} {l : List CanFilterConfig}

/-- Enabling a filter writes the register of enable bits anew, with one bit. -/
theorem canSetFilter_enabled {c : CanFilterConfig} (h : c.enable = true) :
    (canSetFilter base c).acfEn = c.bit := by
  rw [canSetFilter_eq]
  exact if_pos h

/-- Disabling a filter clears its own bit only. -/
theorem canSetFilter_disabled {c : CanFilterConfig} (h : c.enable = false)
    (i : Fin canFilterCount) : (canSetFilter base c).acfEn.getLsbD i =
      (base.acfEn.getLsbD i && !decide (c.index.toNat = i)) := by
  have hi : (i : Nat) < 16 := i.isLt
  have hbit := c.getLsbD_bit i
  unfold CanFilterConfig.bit at hbit
  rw [BitVec.getLsbD_setWidth] at hbit
  have h32 : (i : Nat) < 32 := by omega
  rw [canSetFilter_eq]
  simp only [h, Bool.false_eq_true, if_false, BitVec.getLsbD_and, BitVec.getLsbD_setWidth,
    BitVec.getLsbD_not, hi, h32, decide_true, Bool.true_and] at hbit ⊢
  rw [hbit]

/-- Filters that are not enabled lose their bits, and no other bit changes. -/
theorem foldl_canSetFilter_disabled (h : ∀ c ∈ l, c.enable = false) (i : Fin canFilterCount) :
    (l.foldl canSetFilter base).acfEn.getLsbD i = true ↔
      base.acfEn.getLsbD i = true ∧ ∀ c ∈ l, c.index.toNat ≠ i := by
  induction l generalizing base with
  | nil => simp
  | cons c l ih =>
    rw [List.forall_mem_cons] at h
    rw [List.foldl_cons, ih h.2, canSetFilter_disabled h.1, List.forall_mem_cons]
    simp [and_assoc]

/-- Where one filter is enabled, its bit is the only one that is set. -/
theorem foldl_canSetFilter_enabled (hd : (l.map CanFilterConfig.index).Nodup)
    {c : CanFilterConfig} (hc : c ∈ l) (he : c.enable = true)
    (hother : ∀ c' ∈ l, c'.enable = true → c' = c) (i : Fin canFilterCount) :
    (l.foldl canSetFilter base).acfEn.getLsbD i = true ↔ c.index.toNat = i := by
  obtain ⟨front, back, rfl⟩ := List.append_of_mem hc
  have hback : ∀ c' ∈ back, c'.index ≠ c.index := by
    rw [List.map_append, List.nodup_append, List.map_cons, List.nodup_cons] at hd
    exact fun c' hc' heq => hd.2.1.1 (heq ▸ List.mem_map_of_mem hc')
  have hoff : ∀ c' ∈ back, c'.enable = false := by
    intro c' hc'
    by_contra hon
    have heq := hother c' (by simp [hc']) (by simpa using hon)
    exact hback c' hc' (heq ▸ rfl)
  rw [List.foldl_append, List.foldl_cons, foldl_canSetFilter_disabled hoff,
    canSetFilter_enabled he, c.getLsbD_bit, decide_eq_true_iff]
  refine and_iff_left_of_imp fun heq c' hc' heq' => hback c' hc' ?_
  exact BitVec.eq_of_toNat_eq (heq'.trans heq.symm)

/-- At most one of the filters is enabled. -/
def CanOneEnabled (en : BitVec 16) : Prop :=
  ∀ i j : Fin canFilterCount, en.getLsbD i = true → en.getLsbD j = true → i = j

/-- Behind an enabled filter there is one bit at most, and a disabled one adds none. -/
theorem canSetFilter_one {c : CanFilterConfig}
    (h : c.enable = true ∨ CanOneEnabled base.acfEn) :
    CanOneEnabled (canSetFilter base c).acfEn := by
  intro i j hi hj
  cases he : c.enable with
  | true =>
    rw [canSetFilter_enabled he, c.getLsbD_bit, decide_eq_true_iff] at hi hj
    exact Fin.eq_of_val_eq (hi.symm.trans hj)
  | false =>
    rw [canSetFilter_disabled he, Bool.and_eq_true] at hi hj
    have hone := h.resolve_left (by simp [he])
    exact hone i j hi.1 hj.1

/-- Behind one that is enabled no two filters are. -/
theorem foldl_canSetFilter_one {c : CanFilterConfig} (hc : c ∈ l) (he : c.enable = true) :
    CanOneEnabled (l.foldl canSetFilter base).acfEn := by
  have hrun : ∀ (back : List CanFilterConfig) (base : CanBase), CanOneEnabled base.acfEn →
      CanOneEnabled (back.foldl canSetFilter base).acfEn := by
    intro back
    induction back with
    | nil => exact fun _ h => h
    | cons c back ih => exact fun _ h => ih _ (canSetFilter_one (Or.inr h))
  obtain ⟨front, back, rfl⟩ := List.append_of_mem hc
  rw [List.foldl_append, List.foldl_cons]
  exact hrun back _ (canSetFilter_one (Or.inl he))

end Enable

/-! ## `can_init` -/

namespace CanBase.SameFilters

theorem symm {a b : CanBase} (h : a.SameFilters b) : b.SameFilters a :=
  ⟨h.acfEn.symm, h.acfCode.symm, h.acfMask.symm⟩

theorem trans {a b c : CanBase} (h : a.SameFilters b) (h' : b.SameFilters c) :
    a.SameFilters c :=
  ⟨h'.acfEn.trans h.acfEn, h'.acfCode.trans h.acfCode, h'.acfMask.trans h.acfMask⟩

end CanBase.SameFilters

/-- Setting filters reads no register but theirs. -/
theorem CanBase.SameFilters.foldl {base base' : CanBase} (h : base.SameFilters base')
    (l : List CanFilterConfig) :
    (l.foldl canSetFilter base).SameFilters (l.foldl canSetFilter base') := by
  induction l generalizing base base' with
  | nil => exact h
  | cons c l ih =>
    refine ih ?_
    rw [canSetFilter_eq, canSetFilter_eq]
    exact ⟨by simp only [h.acfEn], by simp only [h.acfCode], by simp only [h.acfMask]⟩

theorem CanBase.ctrl_sameFilters (base : CanBase) (bit : RegField) (enable : Bool) :
    base.SameFilters (base.ctrl bit enable) := ⟨rfl, rfl, rfl⟩

/-- The loopback mode has nothing to do with filters. -/
theorem canSetLoopbackMode_sameFilters (base : CanBase) (mode : CanLoopbackMode) :
    base.SameFilters (canSetLoopbackMode base mode) := by
  cases mode <;> exact ⟨rfl, rfl, rfl⟩

/-- Behind the bit timings `can_init` sets the filters of its list. -/
theorem canInitTail_sameFilters (base : CanBase) (config : CanConfig) :
    (config.filterList.foldl canSetFilter base).SameFilters (canInitTail base config) := by
  have hbefore := (base.ctrl_sameFilters canCtrlTpss config.disableReTransmissionForPtb).trans
    ((CanBase.ctrl_sameFilters _ canCtrlTsss config.disableReTransmissionForStb).trans
      (CanBase.ctrl_sameFilters _ canCtrlSack config.enableSelfAck))
  have hbehind := fun base : CanBase => (base.ctrl_sameFilters canCtrlReset false).trans
    (canSetLoopbackMode_sameFilters _ config.loopbackMode)
  exact (hbefore.foldl config.filterList).trans ((hbehind _).trans ⟨rfl, rfl, rfl⟩)

/-- Where `can_init` succeeds, it does so for every list of that length. -/
theorem canInit_success {passes : Nat} {base base' : CanBase} {config : CanConfig}
    {srcClkFreq : BitVec 32}
    (h : canInit passes base config srcClkFreq = some (.success, base')) :
    ∃ base₁, base' = canInitTail base₁ config ∧
      ∀ l', l'.length = config.filterList.length →
        canInit passes base { config with filterList := l' } srcClkFreq =
          some (.success, canInitTail base₁ { config with filterList := l' }) := by
  unfold canInit at h
  split at h
  · exact nomatch h
  · rename_i hok
    obtain ⟨⟨status, base₁⟩, htiming, h⟩ := Option.map_eq_some_iff.mp h
    have hstatus : status = .success := by
      by_contra hne
      simp only [ne_eq, hne, not_false_eq_true, if_true] at h
      exact hne (congrArg Prod.fst h)
    subst hstatus
    refine ⟨base₁, ?_, fun l' hl => ?_⟩
    · simpa using (congrArg Prod.snd h).symm
    · unfold canInit
      rw [hl, if_neg hok]
      have htiming' := htiming
      simp only [canInitBitTiming] at htiming' ⊢
      rw [htiming']
      rfl

/-! ## The contract -/

/-- Every index of a list names a filter, and at most one of the filters is enabled. -/
def CanFilterList.OneEnabled (l : CanFilterList) : Prop :=
  (∀ c ∈ l.filters, c.index.toNat < canFilterCount) ∧
    ∀ c ∈ l.filters, ∀ c' ∈ l.filters, c.enable = true → c'.enable = true → c = c'

namespace CanFilterList

variable {l : CanFilterList}

theorem slot_nodup (h : ∀ c ∈ l.filters, c.index.toNat < canFilterCount) :
    (l.filters.map CanFilterConfig.slot).Nodup := by
  have hinj := List.inj_on_of_nodup_map l.distinct
  refine List.Nodup.map_on (fun c hc c' hc' heq => hinj hc hc' ?_) (List.Nodup.of_map _ l.distinct)
  have hval := congrArg Fin.val heq
  rw [CanFilterConfig.slot_of_lt (h c hc), CanFilterConfig.slot_of_lt (h c' hc')] at hval
  exact BitVec.eq_of_toNat_eq hval

/-- The enable bits behind the list, for a filter that it names. -/
theorem OneEnabled.foldl_acfEn (h : l.OneEnabled) {l' : List CanFilterConfig}
    (hp : l.filters.Perm l') (base : CanBase) (i : Fin canFilterCount) :
    (l'.foldl canSetFilter base).acfEn.getLsbD i = true ↔
      (∃ c ∈ l.filters, c.enable = true ∧ c.index.toNat = i) ∨
        (∀ c ∈ l.filters, c.enable = false ∧ c.index.toNat ≠ i) ∧
          base.acfEn.getLsbD i = true := by
  by_cases hany : ∃ c ∈ l.filters, c.enable = true
  · obtain ⟨c, hc, he⟩ := hany
    have hone : ∀ c' ∈ l.filters, c'.enable = true → c' = c :=
      fun c' hc' he' => h.2 c' hc' c hc he' he
    have hd' : (l'.map CanFilterConfig.index).Nodup := (hp.map _).nodup_iff.mp l.distinct
    rw [foldl_canSetFilter_enabled hd' (hp.subset hc) he
      fun c' hc' he' => hone c' (hp.mem_iff.mpr hc') he']
    constructor
    · exact fun heq => Or.inl ⟨c, hc, he, heq⟩
    · rintro (⟨c', hc', he', heq⟩ | ⟨hoff, -⟩)
      · rw [← hone c' hc' he']
        exact heq
      · exact absurd he (by simp [(hoff c hc).1])
  · have hoff : ∀ c ∈ l.filters, c.enable = false :=
      fun c hc => by simpa using fun he => hany ⟨c, hc, he⟩
    rw [foldl_canSetFilter_disabled fun c hc => hoff c (hp.mem_iff.mpr hc)]
    constructor
    · exact fun ⟨hbit, hne⟩ =>
        Or.inr ⟨fun c hc => ⟨hoff c hc, hne c (hp.subset hc)⟩, hbit⟩
    · rintro (⟨c, hc, he, -⟩ | ⟨hall, hbit⟩)
      · exact absurd ⟨c, hc, he⟩ hany
      · exact ⟨hbit, fun c hc => (hall c (hp.mem_iff.mpr hc)).2⟩

/-- A list in which only the last filter may be enabled ends up in the registers as it is. -/
theorem OneEnabled.filtersSet (h : l.OneEnabled) {base base' : CanBase}
    (hbase : (l.filters.foldl canSetFilter base).SameFilters base') :
    CanFiltersSet l.filters base' where
  enabled i hi := by
    rw [hbase.acfEn, h.foldl_acfEn (.refl _)]
    constructor
    · rintro (⟨c, hc, he, heq⟩ | ⟨hall, -⟩)
      · exact ⟨c, hc, heq, he⟩
      · obtain ⟨c, hc, heq⟩ := hi
        exact absurd heq (hall c hc).2
    · exact fun ⟨c, hc, heq, he⟩ => Or.inl ⟨c, hc, he, heq⟩
  registers c hc := by
    refine ⟨c.slot, (CanFilterConfig.slot_of_lt (h.1 c hc)).symm, ?_, ?_⟩
    · rw [hbase.acfCode, foldl_canSetFilter_acfCode, writeAll_of_mem (slot_nodup h.1) hc]
    · rw [hbase.acfMask, foldl_canSetFilter_acfMask, writeAll_of_mem (slot_nodup h.1) hc]

/-- The order of such a list does not matter. -/
theorem OneEnabled.perm (h : l.OneEnabled) {l' : List CanFilterConfig} (hp : l.filters.Perm l')
    (base : CanBase) :
    (l.filters.foldl canSetFilter base).SameFilters (l'.foldl canSetFilter base) where
  acfEn := by
    refine BitVec.eq_of_getLsbD_eq fun i hi => Bool.eq_iff_iff.mpr ?_
    exact (h.foldl_acfEn hp base ⟨i, hi⟩).trans (h.foldl_acfEn (.refl _) base ⟨i, hi⟩).symm
  acfCode := by
    rw [foldl_canSetFilter_acfCode, foldl_canSetFilter_acfCode, writeAll_perm (slot_nodup h.1) hp]
  acfMask := by
    rw [foldl_canSetFilter_acfMask, foldl_canSetFilter_acfMask, writeAll_perm (slot_nodup h.1) hp]

/-- A list whose filters are set has no second one that is enabled. -/
theorem oneEnabled_of_filtersSet {base base' : CanBase}
    (hbase : (l.filters.foldl canSetFilter base).SameFilters base')
    (hset : CanFiltersSet l.filters base') : l.OneEnabled := by
  have hlt : ∀ c ∈ l.filters, c.index.toNat < canFilterCount := fun c hc => by
    obtain ⟨i, hi, -⟩ := hset.registers c hc
    rw [hi]
    exact i.isLt
  refine ⟨hlt, fun c hc c' hc' he he' => ?_⟩
  have hbit : ∀ d ∈ l.filters, ∀ (hd : d.enable = true),
      (l.filters.foldl canSetFilter base).acfEn.getLsbD d.index.toNat = true := by
    intro d hd he
    rw [← hbase.acfEn]
    exact (hset.enabled ⟨d.index.toNat, hlt d hd⟩ ⟨d, hd, rfl⟩).mpr ⟨d, hd, rfl, he⟩
  have heq := foldl_canSetFilter_one hc he ⟨c.index.toNat, hlt c hc⟩ ⟨c'.index.toNat, hlt c' hc'⟩
    (hbit c hc he) (hbit c' hc' he')
  exact List.inj_on_of_nodup_map l.distinct hc hc' (BitVec.eq_of_toNat_eq (Fin.mk.inj heq))

end CanFilterList

/-- On a clock of 80 MHz the default configuration is accepted with every short list. -/
theorem canInit_default {l : List CanFilterConfig} (h : l.length ≤ 16) :
    ∃ passes base', canInit passes default { canGetDefaultConfig with filterList := l } 80000000 =
      some (.success, base') := by
  obtain ⟨passes, status, base', hrun, -⟩ := @canSetsBitTiming_of_lt .can20
    80000000 1000000 (by decide) (canInitHead default)
  have hstatus := canSetBitTiming_success passes (canInitHead default) .can20 (by decide) hrun
  subst hstatus
  refine ⟨passes, canInitTail base' { canGetDefaultConfig with filterList := l }, ?_⟩
  have hok : ¬ ((80000000 : BitVec 32) = 0 ∨ 16 < l.length) :=
    not_or.mpr ⟨by decide, Nat.not_lt.mpr h⟩
  have htiming : canInitBitTiming passes (canInitHead default)
      { canGetDefaultConfig with filterList := l } 80000000 = some (.success, base') := by
    simp only [canInitBitTiming, canGetDefaultConfig, Bool.false_eq_true, if_false]
    exact hrun
  simp only [canInit, if_neg hok, htiming]
  rfl

/-- Where the list ends up in the registers, it has one enabled filter at most, as there is one bit
at most. -/
theorem oneEnabled_of_initSetsFilters {l : CanFilterList} (h : CanInitSetsFilters l) :
    l.OneEnabled := by
  obtain ⟨passes, base', hrun⟩ := canInit_default l.short
  obtain ⟨hset, -⟩ := h passes default _ _ base' rfl hrun
  obtain ⟨base₁, rfl, -⟩ := canInit_success hrun
  exact CanFilterList.oneEnabled_of_filtersSet
    (canInitTail_sameFilters base₁ { canGetDefaultConfig with filterList := l.filters }) hset

/-- **The filters of a list are set, in every order, exactly where each index names a filter and
at most one of them is enabled.**

Code and mask of a filter are written through the index and do not meet those of another one.  The
enable bits are one register, which an enabled filter overwrites: the last one in the list wins,
so two of them are never both enabled behind the loop, and one is in whatever order the list
comes. -/
theorem canInitSetsFilters_iff (l : CanFilterList) : CanInitSetsFilters l ↔ l.OneEnabled := by
  refine ⟨oneEnabled_of_initSetsFilters, fun h passes base config srcClkFreq base' hl hrun => ?_⟩
  obtain ⟨base₁, rfl, hany⟩ := canInit_success hrun
  have htail := canInitTail_sameFilters base₁ config
  rw [hl] at htail hany
  refine ⟨h.filtersSet htail, fun l' hp => ⟨_, hany l' hp.length_eq.symm, ?_⟩⟩
  have htail' := canInitTail_sameFilters base₁ { config with filterList := l' }
  exact htail.symm.trans ((h.perm hp base₁).trans htail')

/-- Two filters, both enabled. -/
def canTwoFilters : CanFilterList where
  filters := [⟨0, .standardFrames, true, 0x100, 0⟩, ⟨1, .standardFrames, true, 0x200, 0⟩]
  short := by decide
  distinct := by decide

/-- The first of two filters that are enabled is lost. -/
theorem canInitSetsFilters_lost :
    ((canTwoFilters.filters.foldl canSetFilter default).acfEn = 0b10#16) ∧
      ¬ CanInitSetsFilters canTwoFilters := by
  refine ⟨by decide +kernel, fun h => ?_⟩
  obtain ⟨-, hone⟩ := oneEnabled_of_initSetsFilters h
  exact absurd hone (by decide)

end HpmSdk.Can
