import HpmSdk.Clock.Source

set_option autoImplicit false

/-!
# Clock sources: what the setters do

Each setter writes one register.  What is read of another clock is the same behind the write
unless the clock comes from the node that is written, or is an I2S clock, whose frequency is
read from the wrong table.

So for each group there is one lemma on the clock that is set and one on the clocks that are not,
and the contract of all setters follows by the group of the name.
-/

namespace HpmSdk.Clock

open HpmSdk.Foundation HpmSdk.Pllctl

/-! ## Encodings -/

section Encoding

variable {srcGrp index index' : Nat}

theorem makeClkSrc_eq (h : index < 16) : makeClkSrc srcGrp index = srcGrp * 16 + index := by
  unfold makeClkSrc
  rw [← Nat.shiftLeft_add_eq_or_of_lt (show index < 2 ^ 4 from h), Nat.shiftLeft_eq]

/-- Two sources of a group are the same exactly if their indices are. -/
theorem makeClkSrc_inj (h : index < 16) (h' : index' < 16) :
    makeClkSrc srcGrp index = makeClkSrc srcGrp index' ↔ index = index' := by
  rw [makeClkSrc_eq h, makeClkSrc_eq h', Nat.add_left_cancel_iff]

/-- The index of a source is read back from it. -/
theorem clkSrcIndex_makeClkSrc (h : index < 16) : clkSrcIndex (makeClkSrc srcGrp index) = index := by
  have hmod : (srcGrp * 16 + index) &&& 0x0F = (srcGrp * 16 + index) % 16 :=
    Nat.and_two_pow_sub_one_eq_mod _ 4
  unfold clkSrcIndex
  rw [makeClkSrc_eq h, hmod]
  omega

/-- The setters refuse the first and the last source of a group of four. -/
theorem makeClkSrc_refused_iff (hindex : index < 4) :
    makeClkSrc srcGrp index ≤ srcGrp * 16 ∨ srcGrp * 16 + 3 ≤ makeClkSrc srcGrp index ↔
      ¬ (index = 1 ∨ index = 2) := by
  rw [makeClkSrc_eq (Nat.lt_trans hindex (by decide))]
  omega

end Encoding

/-- A source that the ADC clocks have is one of the four of its group. -/
theorem mem_sources_adc {src : Nat} (h : src ∈ ClkSrcGroup.adc.sources) :
    ∃ index < 4, src = makeClkSrc 1 index := by
  obtain ⟨index, hindex, rfl⟩ := List.mem_map.mp h
  exact ⟨index, List.mem_range.mp hindex, rfl⟩

/-- A source that the I2S clocks have is one of the four of its group. -/
theorem mem_sources_i2s {src : Nat} (h : src ∈ ClkSrcGroup.i2s.sources) :
    ∃ index < 4, src = makeClkSrc 2 index := by
  obtain ⟨index, hindex, rfl⟩ := List.mem_map.mp h
  exact ⟨index, List.mem_range.mp hindex, rfl⟩

theorem mem_sources_wdg {src : Nat} (h : src ∈ ClkSrcGroup.wdg.sources) :
    src = clkWdgSrcAhb0 ∨ src = clkWdgSrcOsc32k := by
  obtain ⟨index, hindex, rfl⟩ := List.mem_map.mp h
  have hlt := List.mem_range.mp hindex
  have hcases : index = 0 ∨ index = 1 := by omega
  rcases hcases with rfl | rfl
  · exact Or.inl rfl
  · exact Or.inr rfl

theorem mem_sources_common {src : Nat} (h : src ∈ ClkSrcGroup.common.sources) : src < 9 := by
  obtain ⟨index, hindex, rfl⟩ := List.mem_map.mp h
  have hlt := List.mem_range.mp hindex
  rw [makeClkSrc_eq (by omega)]
  omega

/-! ## Other clocks -/

section Frames

variable (fracFreq : Nat → BitVec 32 → BitVec 32 → BitVec 32) (regs : ClockRegs) (v : BitVec 32)
  {i : Nat} {other : ClockName}

theorem ClockRegs.adcMux_setAdcclk_of_ne {k : Nat} (h : k ≠ i) :
    (regs.setAdcclk i v).adcMux k = regs.adcMux k := by
  have hreg : (regs.setAdcclk i v).adcclk k = regs.adcclk k := Function.update_of_ne h _ _
  unfold adcMux
  rw [hreg]

theorem ClockRegs.i2sMux_setI2sclk_of_ne {k : Nat} (h : k ≠ i) :
    (regs.setI2sclk i v).i2sMux k = regs.i2sMux k := by
  have hreg : (regs.setI2sclk i v).i2sclk k = regs.i2sclk k := Function.update_of_ne h _ _
  unfold i2sMux
  rw [hreg]

/-- Writing one node leaves the frequency of every other one. -/
theorem getFrequencyForIpInCommonGroup_setClock {k : Nat} (h : k ≠ i) :
    getFrequencyForIpInCommonGroup fracFreq (regs.setClock i v) k =
      getFrequencyForIpInCommonGroup fracFreq regs k := by
  have hclock : (regs.setClock i v).clock k = regs.clock k := Function.update_of_ne h _ _
  unfold getFrequencyForIpInCommonGroup ClockRegs.clockDiv ClockRegs.clockMux
  rw [hclock]
  rfl

/-- Selecting the source of an ADC does not show in another clock. -/
theorem others_setAdcclk (h : other.group = .adc → other.node ≠ i) :
    clockGetSource (regs.setAdcclk i v) other = clockGetSource regs other ∧
      clockGetFrequency fracFreq (regs.setAdcclk i v) other =
        clockGetFrequency fracFreq regs other := by
  obtain ⟨group, node, valid⟩ := other
  cases group with
  | adc =>
    have hmux := regs.adcMux_setAdcclk_of_ne v (h rfl)
    unfold clockGetSource clockGetFrequency getFrequencyForI2sOrAdc
    simp only [hmux]
    exact ⟨trivial, rfl⟩
  | _ => exact ⟨rfl, rfl⟩

/-- Selecting a source for one I2S clock leaves the others. -/
theorem others_setI2sclk (h : other.group = .i2s → other.node ≠ i) :
    clockGetSource (regs.setI2sclk i v) other = clockGetSource regs other ∧
      clockGetFrequency fracFreq (regs.setI2sclk i v) other =
        clockGetFrequency fracFreq regs other := by
  obtain ⟨group, node, valid⟩ := other
  cases group with
  | i2s =>
    have hmux := regs.i2sMux_setI2sclk_of_ne v (h rfl)
    unfold clockGetSource clockGetFrequency getFrequencyForI2sOrAdc
    simp only [hmux]
    exact ⟨trivial, rfl⟩
  | _ => exact ⟨rfl, rfl⟩

theorem ClockRegs.clockMux_setClock_of_ne {k : Nat} (h : k ≠ i) :
    (regs.setClock i v).clockMux k = regs.clockMux k := by
  have hreg : (regs.setClock i v).clock k = regs.clock k := Function.update_of_ne h _ _
  unfold clockMux
  rw [hreg]

/-- The source of a clock that does not come from the node stays. -/
theorem source_setClock (h : other.origin regs ≠ some i) :
    clockGetSource (regs.setClock i v) other = clockGetSource regs other := by
  obtain ⟨group, node, valid⟩ := other
  have hmux : ∀ k, some k ≠ some i → makeClkSrc 0 ((regs.setClock i v).clockMux k) =
      makeClkSrc 0 (regs.clockMux k) := fun k hk =>
    congrArg (makeClkSrc 0) (regs.clockMux_setClock_of_ne v fun heq => hk (congrArg some heq))
  cases group with
  | common => exact hmux node h
  | ahb => exact hmux clockNodeAhb0 h
  | axi0 => exact hmux clockNodeAxi0 h
  | axi1 => exact hmux clockNodeAxi1 h
  | axi2 => exact hmux clockNodeAxi2 h
  | cpu0 => exact hmux clockNodeCpu0 h
  | cpu1 => exact hmux clockNodeCpu1 h
  | _ => rfl

/-- The frequency of a node that is looked up. -/
def nodeFrequency : Option Nat → Option (BitVec 32)
  | some node => getFrequencyForIpInCommonGroup fracFreq regs node
  | none => some 0

/-- The clocks of ADC and I2S run at the frequency of a node of the ADC table. -/
theorem getFrequencyForI2sOrAdc_adc (hi : i < 4) :
    getFrequencyForI2sOrAdc fracFreq regs .adc i =
      nodeFrequency fracFreq regs sAdcClkMuxNode[regs.adcMux i]? := by
  have hmux : (if i < 4 then some (regs.adcMux i) else none) = some (regs.adcMux i) := if_pos hi
  exact congrArg (fun mux => nodeFrequency fracFreq regs (mux.bind fun mux =>
    sAdcClkMuxNode[mux]?)) hmux

/-- The frequency of an I2S clock is looked up in the table of the ADC clocks. -/
theorem getFrequencyForI2sOrAdc_i2s (hi : i < 4) :
    getFrequencyForI2sOrAdc fracFreq regs .i2s i =
      nodeFrequency fracFreq regs sAdcClkMuxNode[regs.i2sMux i]? := by
  have hmux : (if i < 4 then some (regs.i2sMux i) else none) = some (regs.i2sMux i) := if_pos hi
  exact congrArg (fun mux => nodeFrequency fracFreq regs (mux.bind fun mux =>
    sAdcClkMuxNode[mux]?)) hmux

/-- A clock whose node is not written keeps its frequency. -/
theorem nodeFrequency_setClock {node : Option Nat} (h : node ≠ some i) :
    nodeFrequency fracFreq (regs.setClock i v) node = nodeFrequency fracFreq regs node := by
  cases node with
  | none => rfl
  | some k =>
    exact getFrequencyForIpInCommonGroup_setClock fracFreq regs v fun heq => h (congrArg some heq)

/-- The frequency of a clock that does not come from the node stays, where no I2S clock has
the place of the node in the table of the ADC. -/
theorem frequency_setClock (h : other.origin regs ≠ some i)
    (hi2s : other.group = .i2s → sAdcClkMuxNode[regs.i2sMux other.node]? ≠ some i) :
    clockGetFrequency fracFreq (regs.setClock i v) other = clockGetFrequency fracFreq regs other := by
  obtain ⟨group, node, valid⟩ := other
  have hip : ∀ k, some k ≠ some i → getFrequencyForIpInCommonGroup fracFreq (regs.setClock i v) k =
      getFrequencyForIpInCommonGroup fracFreq regs k := fun k hk =>
    getFrequencyForIpInCommonGroup_setClock fracFreq regs v fun heq => hk (congrArg some heq)
  cases group with
  | common => exact hip node h
  | adc =>
    have hnode : node < 4 := valid
    show getFrequencyForI2sOrAdc fracFreq (regs.setClock i v) .adc node =
      getFrequencyForI2sOrAdc fracFreq regs .adc node
    rw [getFrequencyForI2sOrAdc_adc fracFreq (regs.setClock i v) hnode,
      getFrequencyForI2sOrAdc_adc fracFreq regs hnode]
    exact nodeFrequency_setClock fracFreq regs v h
  | i2s =>
    have hnode : node < 4 := valid
    show getFrequencyForI2sOrAdc fracFreq (regs.setClock i v) .i2s node =
      getFrequencyForI2sOrAdc fracFreq regs .i2s node
    rw [getFrequencyForI2sOrAdc_i2s fracFreq (regs.setClock i v) hnode,
      getFrequencyForI2sOrAdc_i2s fracFreq regs hnode]
    exact nodeFrequency_setClock fracFreq regs v (hi2s rfl)
  | wdg =>
    show getFrequencyForWdg fracFreq (regs.setClock i v) node =
      getFrequencyForWdg fracFreq regs node
    unfold getFrequencyForWdg
    by_cases hsel : regs.wdgClksel node = 0
    · have hsel' : (regs.setClock i v).wdgClksel node = 0 := hsel
      rw [if_pos hsel, if_pos hsel']
      refine hip clockNodeAhb0 fun heq => h ?_
      show (if regs.wdgClksel node = 0 then some clockNodeAhb0 else none) = some i
      rw [if_pos hsel, heq]
    · have hsel' : ¬ (regs.setClock i v).wdgClksel node = 0 := hsel
      rw [if_neg hsel, if_neg hsel']
  | ahb => exact hip clockNodeAhb0 h
  | axi0 => exact hip clockNodeAxi0 h
  | axi1 => exact hip clockNodeAxi1 h
  | axi2 => exact hip clockNodeAxi2 h
  | cpu0 => exact hip clockNodeCpu0 h
  | cpu1 => exact hip clockNodeCpu1 h
  | _ => rfl

end Frames

/-! ## The clock itself -/

section Own

variable (fracFreq : Nat → BitVec 32 → BitVec 32 → BitVec 32) (regs : ClockRegs)

/-- A node behind `sysctl_config_clock`. -/
theorem sysctlConfigClock_spec {node src : Nat} {div : BitVec 32} (hnode : node < 67)
    (hsrc : src < 8) (hdiv : 1 ≤ div.toNat ∧ div.toNat ≤ 256) :
    ∃ v, sysctlConfigClock regs node src div = regs.setClock node v ∧
      (regs.setClock node v).clockMux node = src ∧
      (regs.setClock node v).clockDiv node = div.toNat - 1 := by
  unfold sysctlConfigClock
  rw [if_neg (show ¬ clockNodeAdcI2sStart ≤ node from Nat.not_le.mpr hnode),
    if_neg (show ¬ clockSourceGeneralSourceEnd ≤ src from Nat.not_le.mpr hsrc)]
  refine ⟨_, rfl, ?_, ?_⟩
  · unfold ClockRegs.clockMux ClockRegs.setClock
    simp only [Function.update_self]
    rw [BitVec.not_or, ← BitVec.and_assoc, RegField.get_or, RegField.get_or,
      RegField.get_clear_of_apart _ (by decide), RegField.get_clear, BitVec.zero_or,
      RegField.get_set_of_apart (g := sysctlClockDiv) _ (by decide), BitVec.or_zero,
      RegField.get_set_toNat _ (by decide), BitVec.toNat_ofNat]
    show src % 2 ^ 32 % 2 ^ 4 = src
    omega
  · unfold ClockRegs.clockDiv ClockRegs.setClock
    simp only [Function.update_self]
    rw [BitVec.not_or, ← BitVec.and_assoc, RegField.get_or, RegField.get_or,
      RegField.get_clear, BitVec.zero_or,
      RegField.get_set_of_apart (g := sysctlClockMux) _ (by decide), BitVec.zero_or,
      RegField.get_set_toNat _ (by decide), BitVec.toNat_sub_of_le (by bv_omega)]
    show (div.toNat - 1) % 2 ^ 8 = div.toNat - 1
    omega

/-- A node that reads back its source and its divider has the frequency that they make. -/
theorem getFrequencyForIpInCommonGroup_of_config {node src : Nat} {div v : BitVec 32}
    (hnode : node < 67) (hdiv : 1 ≤ div.toNat)
    (hsrc : (regs.setClock node v).clockMux node = src)
    (hdiv' : (regs.setClock node v).clockDiv node = div.toNat - 1) :
    getFrequencyForIpInCommonGroup fracFreq (regs.setClock node v) node =
      (getFrequencyForSource fracFreq regs src).map (· / div) := by
  have hend : node < clockNodeEnd := Nat.lt_trans hnode (by decide)
  have hone : BitVec.ofNat 32 (1 + (div.toNat - 1)) = div := by
    rw [Nat.add_sub_cancel' hdiv, BitVec.ofNat_toNat, BitVec.setWidth_eq]
  unfold getFrequencyForIpInCommonGroup
  rw [if_pos hend, hsrc, hdiv']
  simp only [hone]
  show (getFrequencyForSource fracFreq regs src).bind (fun freq => some (freq / div)) = _
  cases getFrequencyForSource fracFreq regs src <;> rfl

/-- The selection is what it was, with the bits of the new one. -/
theorem mux_select (v : BitVec 32) {index : Nat} (hindex : index < 4) :
    (sysctlAdcclkMux.get (v &&& sysctlAdcclkMux.mask 32 |||
      sysctlAdcclkMux.set (BitVec.ofNat 32 index))).toNat =
        (sysctlAdcclkMux.get v).toNat ||| index := by
  rw [RegField.get_or, RegField.get_and_mask, BitVec.toNat_or, RegField.get_set_toNat _ (by decide),
    BitVec.toNat_ofNat]
  refine congrArg _ ?_
  show index % 2 ^ 32 % 2 ^ 3 = index
  omega

/-- The selected index is ored into the multiplexer. -/
theorem ClockRegs.adcMux_select {i index : Nat} (hindex : index < 4) :
    (regs.setAdcclk i (regs.adcclk i &&& sysctlAdcclkMux.mask 32 |||
      sysctlAdcclkMux.set (BitVec.ofNat 32 index))).adcMux i = regs.adcMux i ||| index := by
  unfold adcMux setAdcclk
  simp only [Function.update_self]
  exact mux_select _ hindex

/-- The selected index is ored into the multiplexer. -/
theorem ClockRegs.i2sMux_select {i index : Nat} (hindex : index < 4) :
    (regs.setI2sclk i (regs.i2sclk i &&& sysctlAdcclkMux.mask 32 |||
      sysctlAdcclkMux.set (BitVec.ofNat 32 index))).i2sMux i = regs.i2sMux i ||| index := by
  unfold i2sMux setI2sclk
  simp only [Function.update_self]
  exact mux_select _ hindex

theorem ClockRegs.adcMux_lt (i : Nat) : regs.adcMux i < 8 :=
  RegField.get_lt (f := sysctlAdcclkMux) _ (by decide)

theorem ClockRegs.i2sMux_lt (i : Nat) : regs.i2sMux i < 8 :=
  RegField.get_lt (f := sysctlAdcclkMux) _ (by decide)

end Own

/-- The bits of a selection are those of the new one where it was the new one or 0. -/
theorem select_eq_iff : ∀ mux < 8, ∀ index, index = 1 ∨ index = 2 →
    (mux ||| index = index ↔ mux = 0 ∨ mux = index) := by
  rintro mux hmux index (rfl | rfl)
  · revert mux
    decide
  · revert mux
    decide

/-! ## The calls -/

/-- Two clocks of a group have different nodes. -/
theorem ClockName.node_ne {name other : ClockName} (h : other ≠ name)
    (hgroup : other.group = name.group) : other.node ≠ name.node := by
  obtain ⟨group, node, valid⟩ := name
  obtain ⟨group', node', valid'⟩ := other
  rintro rfl
  cases hgroup
  exact h rfl

section Calls

variable (fracFreq : Nat → BitVec 32 → BitVec 32 → BitVec 32) (regs : ClockRegs)

variable {fracFreq} {regs} {call : ClockCall}

/-- A call that is refused. -/
theorem clockMeets_refused_iff {stat : ClkStat} (hrun : call.run regs = (stat, regs))
    (hstat : stat ≠ .success) : ClockMeets fracFreq regs call ↔ ¬ call.Accepted := by
  have hstat' : (call.run regs).1 ≠ .success := by rwa [hrun]
  constructor
  · exact fun h haccepted => hstat' (h.accepted haccepted)
  · intro h
    exact {
      source := fun h => absurd h hstat'
      frequency := fun h => absurd h hstat'
      others := fun h => absurd h hstat'
      unchanged := fun _ => congrArg Prod.snd hrun
      accepted := fun haccepted => absurd haccepted h }

/-- A call that goes through. -/
theorem clockMeets_success_iff {regs' : ClockRegs} (hrun : call.run regs = (.success, regs')) :
    ClockMeets fracFreq regs call ↔
      clockGetSource regs' call.name = call.src ∧
      clockGetFrequency fracFreq regs' call.name = call.frequency fracFreq regs' ∧
      ∀ other, call.name.Independent regs other →
        clockGetSource regs' other = clockGetSource regs other ∧
          clockGetFrequency fracFreq regs' other = clockGetFrequency fracFreq regs other := by
  have hstat : (call.run regs).1 = .success := congrArg Prod.fst hrun
  have hregs : (call.run regs).2 = regs' := congrArg Prod.snd hrun
  subst hregs
  exact ⟨fun h => ⟨h.source hstat, h.frequency hstat, h.others hstat⟩,
    fun ⟨hsource, hfrequency, hothers⟩ => ⟨fun _ => hsource, fun _ => hfrequency, fun _ => hothers,
      fun h => absurd hstat h, fun _ => hstat⟩⟩

variable (fracFreq) (regs)

/-- The check of the source is by value, and accepts the indices 1 and 2. -/
theorem clockSetAdcSource_eq {name : ClockName} (hgroup : name.group = .adc) {index : Nat}
    (hindex : index < 4) : clockSetAdcSource regs name (makeClkSrc 1 index) =
      if index = 1 ∨ index = 2 then
        (.success, regs.setAdcclk name.node (regs.adcclk name.node &&& sysctlAdcclkMux.mask 32 |||
          sysctlAdcclkMux.set (BitVec.ofNat 32 index)))
      else (.srcInvalid, regs) := by
  have hnode : name.node < 4 := Nat.lt_of_lt_of_eq name.valid (by rw [hgroup]; rfl)
  have hname : ¬ (name.group ≠ .adc ∨ 4 ≤ name.node) := by
    rintro (h | h)
    · exact h hgroup
    · omega
  have hsrc : makeClkSrc 1 index ≤ clkAdcSrcAhb0 ∨ clkAdcSrcAna2 ≤ makeClkSrc 1 index ↔
      ¬ (index = 1 ∨ index = 2) := makeClkSrc_refused_iff hindex
  unfold clockSetAdcSource
  rw [if_neg hname, clkSrcIndex_makeClkSrc (by omega)]
  by_cases hmiddle : index = 1 ∨ index = 2
  · rw [if_neg fun h => hsrc.mp h hmiddle, if_pos hmiddle]
  · rw [if_pos (hsrc.mpr hmiddle), if_neg hmiddle]

/-- The check of the source is by value, and accepts the indices 1 and 2. -/
theorem clockSetI2sSource_eq {name : ClockName} (hgroup : name.group = .i2s) {index : Nat}
    (hindex : index < 4) : clockSetI2sSource regs name (makeClkSrc 2 index) =
      if index = 1 ∨ index = 2 then
        (.success, regs.setI2sclk name.node (regs.i2sclk name.node &&& sysctlAdcclkMux.mask 32 |||
          sysctlAdcclkMux.set (BitVec.ofNat 32 index)))
      else (.srcInvalid, regs) := by
  have hnode : name.node < 4 := Nat.lt_of_lt_of_eq name.valid (by rw [hgroup]; rfl)
  have hname : ¬ (name.group ≠ .i2s ∨ 4 ≤ name.node) := by
    rintro (h | h)
    · exact h hgroup
    · omega
  have hsrc : makeClkSrc 2 index ≤ clkI2sSrcAhb0 ∨ clkI2sSrcAud2 ≤ makeClkSrc 2 index ↔
      ¬ (index = 1 ∨ index = 2) := makeClkSrc_refused_iff hindex
  unfold clockSetI2sSource
  rw [if_neg hname, clkSrcIndex_makeClkSrc (by omega)]
  by_cases hmiddle : index = 1 ∨ index = 2
  · rw [if_neg fun h => hsrc.mp h hmiddle, if_pos hmiddle]
  · rw [if_pos (hsrc.mpr hmiddle), if_neg hmiddle]

/-- Selecting the source of an ADC. -/
theorem clockMeets_adc_iff {name : ClockName} (hgroup : name.group = .adc) {index : Nat}
    (hindex : index < 4) : ClockMeets fracFreq regs (.adc name (makeClkSrc 1 index)) ↔
      (index = 1 ∨ index = 2) ∧ (regs.adcMux name.node = 0 ∨ regs.adcMux name.node = index) := by
  have hnode : name.node < 4 := Nat.lt_of_lt_of_eq name.valid (by rw [hgroup]; rfl)
  have hrun : ClockCall.run regs (.adc name (makeClkSrc 1 index)) = _ :=
    clockSetAdcSource_eq regs hgroup hindex
  by_cases hmiddle : index = 1 ∨ index = 2
  · rw [if_pos hmiddle] at hrun
    have hlt := regs.adcMux_lt name.node
    have hmux := regs.adcMux_select (i := name.node) hindex
    have hor : regs.adcMux name.node ||| index < 16 :=
      Nat.lt_trans (Nat.or_lt_two_pow (n := 3) hlt (by omega)) (by decide)
    rw [clockMeets_success_iff hrun, ← select_eq_iff _ hlt index hmiddle]
    generalize regs.adcclk name.node &&& sysctlAdcclkMux.mask 32 |||
      sysctlAdcclkMux.set (BitVec.ofNat 32 index) = v at hmux ⊢
    have hsource : clockGetSource (regs.setAdcclk name.node v) name =
        makeClkSrc 1 (regs.adcMux name.node ||| index) := by
      unfold clockGetSource
      simp only [hgroup, hnode, if_true, hmux]
    constructor
    · rintro ⟨h, -, -⟩
      exact ⟨hmiddle, (makeClkSrc_inj hor (by omega)).mp (hsource.symm.trans h)⟩
    · rintro ⟨-, hsame⟩
      refine ⟨hsource.trans (congrArg _ hsame), ?_, fun other hother => ?_⟩
      · have hfrequency : clockGetFrequency fracFreq (regs.setAdcclk name.node v) name =
            getFrequencyForI2sOrAdc fracFreq (regs.setAdcclk name.node v) .adc name.node := by
          unfold clockGetFrequency
          simp only [hgroup]
        refine hfrequency.trans ?_
        rw [getFrequencyForI2sOrAdc_adc _ _ hnode, hmux, hsame]
        unfold ClockCall.frequency
        simp only [clkSrcIndex_makeClkSrc (show index < 16 by omega)]
        rcases hmiddle with rfl | rfl <;> rfl
      · exact others_setAdcclk fracFreq regs v fun hadc =>
          ClockName.node_ne hother.1 (hadc.trans hgroup.symm)
  · rw [if_neg hmiddle] at hrun
    rw [clockMeets_refused_iff hrun nofun]
    exact iff_of_false (fun h => h hgroup) fun h => hmiddle h.1

/-- Selecting the source of an I2S clock. -/
theorem clockMeets_i2s_iff {name : ClockName} (hgroup : name.group = .i2s) {index : Nat}
    (hindex : index < 4) : ClockMeets fracFreq regs (.i2s name (makeClkSrc 2 index)) ↔
      (index = 1 ∨ index = 2) ∧
        (regs.i2sMux name.node = 0 ∨ regs.i2sMux name.node = index) ∧
        sAdcClkMuxNode[index]?.bind (getFrequencyForIpInCommonGroup fracFreq regs) =
          sI2sClkMuxNode[index]?.bind (getFrequencyForIpInCommonGroup fracFreq regs) := by
  have hnode : name.node < 4 := Nat.lt_of_lt_of_eq name.valid (by rw [hgroup]; rfl)
  have hrun : ClockCall.run regs (.i2s name (makeClkSrc 2 index)) = _ :=
    clockSetI2sSource_eq regs hgroup hindex
  by_cases hmiddle : index = 1 ∨ index = 2
  · rw [if_pos hmiddle] at hrun
    have hlt := regs.i2sMux_lt name.node
    have hmux := regs.i2sMux_select (i := name.node) hindex
    have hor : regs.i2sMux name.node ||| index < 16 :=
      Nat.lt_trans (Nat.or_lt_two_pow (n := 3) hlt (by omega)) (by decide)
    rw [clockMeets_success_iff hrun, ← select_eq_iff _ hlt index hmiddle]
    generalize regs.i2sclk name.node &&& sysctlAdcclkMux.mask 32 |||
      sysctlAdcclkMux.set (BitVec.ofNat 32 index) = v at hmux ⊢
    have hsource : clockGetSource (regs.setI2sclk name.node v) name =
        makeClkSrc 2 (regs.i2sMux name.node ||| index) := by
      unfold clockGetSource
      simp only [hgroup, hnode, if_true, hmux]
    -- What is read is the frequency of the node in the table of the ADC.
    have hfrequency : regs.i2sMux name.node ||| index = index →
        clockGetFrequency fracFreq (regs.setI2sclk name.node v) name =
          sAdcClkMuxNode[index]?.bind (getFrequencyForIpInCommonGroup fracFreq regs) := by
      intro hsame
      have heq : clockGetFrequency fracFreq (regs.setI2sclk name.node v) name =
          getFrequencyForI2sOrAdc fracFreq (regs.setI2sclk name.node v) .i2s name.node := by
        unfold clockGetFrequency
        simp only [hgroup]
      rw [heq, getFrequencyForI2sOrAdc_i2s _ _ hnode, hmux, hsame]
      rcases hmiddle with rfl | rfl <;> rfl
    have hasked : ClockCall.frequency fracFreq (regs.setI2sclk name.node v)
        (.i2s name (makeClkSrc 2 index)) =
          sI2sClkMuxNode[index]?.bind (getFrequencyForIpInCommonGroup fracFreq regs) := by
      unfold ClockCall.frequency
      simp only [clkSrcIndex_makeClkSrc (show index < 16 by omega)]
      rfl
    rw [hasked]
    constructor
    · rintro ⟨h, hfreq, -⟩
      have hsame := (makeClkSrc_inj hor (by omega)).mp (hsource.symm.trans h)
      exact ⟨hmiddle, hsame, (hfrequency hsame).symm.trans hfreq⟩
    · rintro ⟨-, hsame, hfreq⟩
      refine ⟨hsource.trans (congrArg _ hsame), (hfrequency hsame).trans hfreq,
        fun other hother => ?_⟩
      exact others_setI2sclk fracFreq regs v fun hi2s =>
        ClockName.node_ne hother.1 (hi2s.trans hgroup.symm)
  · rw [if_neg hmiddle] at hrun
    rw [clockMeets_refused_iff hrun nofun]
    exact iff_of_false (fun h => h hgroup) fun h => hmiddle h.1

/-- The source of a watchdog is never read back. -/
theorem not_clockMeets_wdg {name : ClockName} (hgroup : name.group = .wdg) {src : Nat}
    (hsrc : src = clkWdgSrcAhb0 ∨ src = clkWdgSrcOsc32k) (div : BitVec 32) :
    ¬ ClockMeets fracFreq regs (.divider name src div) := by
  have hnode : name.node < 4 := Nat.lt_of_lt_of_eq name.valid (by rw [hgroup]; rfl)
  have hread : ∀ v, clockGetSource (regs.setWdgCtrl name.node v) name =
      makeClkSrc 3 (if (wdgCtrlClksel.get v).toNat = 0 then 1 else 0) := by
    intro v
    have hreg : (regs.setWdgCtrl name.node v).wdgCtrl name.node = v := Function.update_self _ _ _
    unfold clockGetSource ClockRegs.wdgClksel
    simp only [hgroup, hnode, if_true, hreg]
  rcases hsrc with rfl | rfl
  · have hrun : ClockCall.run regs (.divider name clkWdgSrcAhb0 div) = (.success,
        regs.setWdgCtrl name.node (regs.wdgCtrl name.node &&& ~~~wdgCtrlClksel.mask 32)) := by
      show clockSetSourceDivider regs name clkWdgSrcAhb0 div = _
      unfold clockSetSourceDivider
      simp only [hgroup, hnode, if_true]
    rw [clockMeets_success_iff hrun]
    rintro ⟨h, -, -⟩
    have h' := (hread _).symm.trans h
    rw [RegField.get_clear] at h'
    have hread' : makeClkSrc 3 1 = clkWdgSrcAhb0 := h'
    exact absurd hread' (by decide)
  · have hrun : ClockCall.run regs (.divider name clkWdgSrcOsc32k div) = (.success,
        regs.setWdgCtrl name.node (regs.wdgCtrl name.node ||| wdgCtrlClksel.mask 32)) := by
      have hother : ¬ clkWdgSrcOsc32k = clkWdgSrcAhb0 := by decide
      show clockSetSourceDivider regs name clkWdgSrcOsc32k div = _
      unfold clockSetSourceDivider
      simp only [hgroup, hnode, hother, if_true, if_false]
    rw [clockMeets_success_iff hrun]
    rintro ⟨h, -, -⟩
    have h' := (hread _).symm.trans h
    have hset : ¬ (wdgCtrlClksel.get (regs.wdgCtrl name.node ||| wdgCtrlClksel.mask 32)).toNat = 0 := by
      intro hzero
      have hor := BitVec.eq_of_toNat_eq (show _ = (0#32).toNat from hzero)
      rw [RegField.get_or, BitVec.or_eq_zero_iff] at hor
      exact absurd hor.2 (by decide)
    rw [if_neg hset] at h'
    have hread' : makeClkSrc 3 0 = clkWdgSrcOsc32k := h'
    exact absurd hread' (by decide)

/-- The 32 kHz source is not configured, and not reported. -/
theorem not_clockMeets_osc32k {name : ClockName} (hgroup : name.group = .common)
    {div : BitVec 32} (hdiv : 1 ≤ div.toNat ∧ div.toNat ≤ 256) :
    ¬ ClockMeets fracFreq regs (.divider name clkSrcOsc32k div) := by
  have hnode : name.node < 67 := Nat.lt_of_lt_of_eq name.valid (by rw [hgroup]; rfl)
  have hvalid : ¬ (div.toNat < 1 ∨ 256 < div.toNat) := by omega
  have hrun : ClockCall.run regs (.divider name clkSrcOsc32k div) = (.success, regs) := by
    have hsrc : clockSourceGeneralSourceEnd ≤ clkSrcOsc32k := by decide
    show clockSetSourceDivider regs name clkSrcOsc32k div = _
    unfold clockSetSourceDivider sysctlConfigClock
    simp only [hgroup, hvalid, if_false, hsrc, if_true, ite_self]
  have hlt : regs.clockMux name.node < 16 := RegField.get_lt (f := sysctlClockMux) _ (by decide)
  rw [clockMeets_success_iff hrun]
  rintro ⟨hsource, hfrequency, -⟩
  have hmux : regs.clockMux name.node = 8 := by
    have h : makeClkSrc 0 (regs.clockMux name.node) = makeClkSrc 0 8 := by
      unfold clockGetSource ClockCall.name ClockCall.src at hsource
      simp only [hgroup] at hsource
      exact hsource
    exact (makeClkSrc_inj hlt (by decide)).mp h
  have hzero : getFrequencyForIpInCommonGroup fracFreq regs name.node = some 0 := by
    have hend : name.node < clockNodeEnd := Nat.lt_trans hnode (by decide)
    unfold getFrequencyForIpInCommonGroup
    rw [if_pos hend, hmux]
    exact congrArg some BitVec.zero_udiv
  have hasked : some (0 : BitVec 32) = some (freq32KHz / div) := by
    have hwdg : ¬ name.group = .wdg := by rw [hgroup]; exact nofun
    unfold clockGetFrequency ClockCall.name ClockCall.frequency at hfrequency
    simp only [hgroup, hzero, reduceCtorEq, if_false, if_true] at hfrequency
    exact hfrequency
  have hnat := congrArg BitVec.toNat (Option.some.inj hasked)
  rw [BitVec.toNat_udiv] at hnat
  have hpos : 0 < freq32KHz.toNat / div.toNat :=
    Nat.div_pos (Nat.le_trans hdiv.2 (by decide)) hdiv.1
  exact absurd hnat.symm (Nat.ne_of_gt hpos)

/-- Behind the first place the two tables differ. -/
theorem muxNode_ne : ∀ mux < 8, mux ≠ 0 → sAdcClkMuxNode[mux]? ≠ none →
    sI2sClkMuxNode[mux]? ≠ sAdcClkMuxNode[mux]? := by
  decide

/-- Configuring a node. -/
theorem clockMeets_common_iff {name : ClockName} (hgroup : name.group = .common) {src : Nat}
    (hsrc : src < 8) {div : BitVec 32} (hdiv : 1 ≤ div.toNat ∧ div.toNat ≤ 256) :
    ClockMeets fracFreq regs (.divider name src div) ↔
      ∀ instance' < 4, regs.i2sMux instance' ≠ 0 →
        sAdcClkMuxNode[regs.i2sMux instance']? = some name.node →
          (getFrequencyForSource fracFreq regs src).map (· / div) =
            getFrequencyForIpInCommonGroup fracFreq regs name.node := by
  have hnode : name.node < 67 := Nat.lt_of_lt_of_eq name.valid (by rw [hgroup]; rfl)
  have hvalid : ¬ (div.toNat < 1 ∨ 256 < div.toNat) := by omega
  obtain ⟨v, hconfig, hmux, hdivider⟩ := sysctlConfigClock_spec regs hnode hsrc hdiv
  have hrun : ClockCall.run regs (.divider name src div) =
      (.success, regs.setClock name.node v) := by
    show clockSetSourceDivider regs name src div = _
    unfold clockSetSourceDivider
    simp only [hgroup, hvalid, if_false, hconfig]
  have hown := getFrequencyForIpInCommonGroup_of_config fracFreq regs hnode hdiv.1 hmux hdivider
  have hi2s : ∀ other : ClockName, other.group = .i2s →
      sAdcClkMuxNode[regs.i2sMux other.node]? = some name.node →
        clockGetFrequency fracFreq (regs.setClock name.node v) other =
            (getFrequencyForSource fracFreq regs src).map (· / div) ∧
          clockGetFrequency fracFreq regs other =
            getFrequencyForIpInCommonGroup fracFreq regs name.node := by
    intro other hother hat
    have hlt : other.node < 4 := Nat.lt_of_lt_of_eq other.valid (by rw [hother]; rfl)
    have hat' : sAdcClkMuxNode[(regs.setClock name.node v).i2sMux other.node]? = some name.node := hat
    unfold clockGetFrequency
    simp only [hother]
    rw [getFrequencyForI2sOrAdc_i2s _ _ hlt, getFrequencyForI2sOrAdc_i2s _ _ hlt, hat, hat']
    exact ⟨hown, rfl⟩
  rw [clockMeets_success_iff hrun]
  constructor
  · rintro ⟨-, -, hothers⟩ instance' hinstance hne hat
    have hindependent : name.Independent regs ⟨.i2s, instance', hinstance⟩ := by
      refine ⟨fun heq => ?_, fun _ => ?_⟩
      · rw [← heq] at hgroup
        exact nomatch hgroup
      · rw [← hat]
        exact muxNode_ne _ (regs.i2sMux_lt instance') hne (by rw [hat]; exact nofun)
    obtain ⟨hafter, hbefore⟩ := hi2s ⟨.i2s, instance', hinstance⟩ rfl hat
    exact hafter.symm.trans ((hothers _ hindependent).2.trans hbefore)
  · intro h
    refine ⟨?_, ?_, fun other hother => ⟨source_setClock regs v (hother.2 hgroup), ?_⟩⟩
    · unfold clockGetSource ClockCall.name ClockCall.src
      simp only [hgroup]
      rw [hmux, makeClkSrc_eq (by omega), Nat.zero_mul, Nat.zero_add]
    · have hindex : clkSrcIndex src = src := by
        have hencoded := @clkSrcIndex_makeClkSrc 0 src (by omega)
        rwa [makeClkSrc_eq (by omega), Nat.zero_mul, Nat.zero_add] at hencoded
      have hother : ¬ src = clkSrcOsc32k := Nat.ne_of_lt hsrc
      unfold clockGetFrequency ClockCall.name ClockCall.frequency
      simp only [hgroup, reduceCtorEq, if_false, hother, hindex]
      exact hown
    · by_cases hshared : other.group = .i2s ∧
          sAdcClkMuxNode[regs.i2sMux other.node]? = some name.node
      · obtain ⟨hafter, hbefore⟩ := hi2s other hshared.1 hshared.2
        have hlt : other.node < 4 := Nat.lt_of_lt_of_eq other.valid (by rw [hshared.1]; rfl)
        have hne : regs.i2sMux other.node ≠ 0 := by
          intro hzero
          refine hother.2 hgroup ?_
          have hat := hshared.2
          unfold ClockName.origin
          rw [hzero] at hat
          simp only [hshared.1, hzero]
          exact hat
        rw [hafter, hbefore]
        exact h _ hlt hne hshared.2
      · exact frequency_setClock fracFreq regs v (hother.2 hgroup)
          fun hi2s' hat => hshared ⟨hi2s', hat⟩

/-- ADC and I2S clocks have no divider. -/
theorem clockMeets_unsupported {name : ClockName} (hgroup : name.group = .adc ∨ name.group = .i2s)
    (src : Nat) (div : BitVec 32) : ClockMeets fracFreq regs (.divider name src div) := by
  have hrun : ClockCall.run regs (.divider name src div) = (.operationUnsupported, regs) := by
    show clockSetSourceDivider regs name src div = _
    unfold clockSetSourceDivider
    rcases hgroup with h | h <;> simp only [h]
  rw [clockMeets_refused_iff hrun nofun]
  rintro (⟨h, -⟩ | h)
  · rcases hgroup with h' | h' <;> exact nomatch h'.symm.trans h
  · rcases hgroup with h' | h' <;> exact nomatch h'.symm.trans h

end Calls

/-! ## The contract -/

/-- **The setters do what is asked exactly in the calls of `ClockHolds`.**

Each group of clocks has its own slip: the setters of the ADC and I2S clocks refuse the first and
the last source and combine the selection with the old one; the frequency of an I2S clock is
looked up in the table of the ADC clocks; a watchdog's selection is read as the opposite of what
is written.  The sources of a group are finitely many, and for each of them the condition is what
the slip leaves. -/
theorem clockMeets_iff (fracFreq : Nat → BitVec 32 → BitVec 32 → BitVec 32) (regs : ClockRegs)
    (call : ClockCall) (hsrc : call.src ∈ call.name.group.sources) :
    ClockMeets fracFreq regs call ↔ ClockHolds fracFreq regs call := by
  cases call with
  | adc name src =>
    by_cases hgroup : name.group = .adc
    · have hmem : src ∈ name.group.sources := hsrc
      rw [hgroup] at hmem
      obtain ⟨index, hindex, rfl⟩ := mem_sources_adc hmem
      rw [clockMeets_adc_iff fracFreq regs hgroup hindex]
      simp only [ClockHolds, clkSrcIndex_makeClkSrc (show index < 16 by omega)]
      exact ⟨fun h _ => h, fun h => h hgroup⟩
    · have hrun : ClockCall.run regs (.adc name src) = (.invalid, regs) := by
        show clockSetAdcSource regs name src = _
        unfold clockSetAdcSource
        rw [if_pos (Or.inl hgroup)]
      rw [clockMeets_refused_iff hrun nofun]
      exact iff_of_true hgroup fun h => absurd h hgroup
  | i2s name src =>
    by_cases hgroup : name.group = .i2s
    · have hmem : src ∈ name.group.sources := hsrc
      rw [hgroup] at hmem
      obtain ⟨index, hindex, rfl⟩ := mem_sources_i2s hmem
      rw [clockMeets_i2s_iff fracFreq regs hgroup hindex]
      simp only [ClockHolds, clkSrcIndex_makeClkSrc (show index < 16 by omega)]
      exact ⟨fun h _ => h, fun h => h hgroup⟩
    · have hrun : ClockCall.run regs (.i2s name src) = (.invalid, regs) := by
        show clockSetI2sSource regs name src = _
        unfold clockSetI2sSource
        rw [if_pos (Or.inl hgroup)]
      rw [clockMeets_refused_iff hrun nofun]
      exact iff_of_true hgroup fun h => absurd h hgroup
  | divider name src div =>
    have hmem : src ∈ name.group.sources := hsrc
    simp only [ClockHolds]
    cases hgroup : name.group with
    | common =>
      rw [hgroup] at hmem
      by_cases hdiv : 1 ≤ div.toNat ∧ div.toNat ≤ 256
      · simp only [ne_eq, reduceCtorEq, not_false_iff, true_and, forall_const, hdiv]
        by_cases hosc : src = clkSrcOsc32k
        · subst hosc
          exact iff_of_false (not_clockMeets_osc32k fracFreq regs hgroup hdiv) fun h => h.1 rfl
        · have hlt : src < 8 :=
            Nat.lt_of_le_of_ne (Nat.le_of_lt_succ (mem_sources_common hmem)) hosc
          rw [clockMeets_common_iff fracFreq regs hgroup hlt hdiv]
          exact ⟨fun h => ⟨hosc, h⟩, And.right⟩
      · have hinvalid : div.toNat < 1 ∨ 256 < div.toNat := by omega
        have hrun : ClockCall.run regs (.divider name src div) = (.divInvalid, regs) := by
          show clockSetSourceDivider regs name src div = _
          unfold clockSetSourceDivider
          simp only [hgroup, hinvalid, if_true]
        rw [clockMeets_refused_iff hrun nofun]
        refine iff_of_true ?_ ⟨nofun, fun _ h => absurd h hdiv⟩
        rintro (h | h)
        · exact hdiv h.2
        · exact nomatch hgroup.symm.trans h
    | wdg =>
      rw [hgroup] at hmem
      exact iff_of_false (not_clockMeets_wdg fracFreq regs hgroup (mem_sources_wdg hmem) div)
        fun h => h.1 rfl
    | adc =>
      exact iff_of_true (clockMeets_unsupported fracFreq regs (Or.inl hgroup) src div)
        ⟨nofun, nofun⟩
    | i2s =>
      exact iff_of_true (clockMeets_unsupported fracFreq regs (Or.inr hgroup) src div)
        ⟨nofun, nofun⟩
    | _ =>
      rw [hgroup] at hmem
      exact absurd hmem List.not_mem_nil

/-- Registers that are all 0. -/
def clockReset : ClockRegs := ⟨fun _ => 0, fun _ => 0, fun _ => 0, fun _ => 0, fun _ =>
  ⟨0, 0, 0, 0, 0, 0⟩⟩

/-- Over registers that are all 0 the first ADC can be set to the first of its own sources. -/
theorem clockMeets_adc_reset :
    ClockMeets (fun _ _ _ => 0) clockReset (.adc ⟨.adc, 0, by decide⟩ (makeClkSrc 1 1)) :=
  (clockMeets_iff _ clockReset (.adc ⟨.adc, 0, by decide⟩ (makeClkSrc 1 1)) (by decide)).mpr
    fun _ => by decide

/-- The AHB clock is not accepted as a source of an ADC. -/
theorem clockMeets_adc_ahb0 : ¬ ∀ fracFreq regs (call : ClockCall),
    call.src ∈ call.name.group.sources → ClockMeets fracFreq regs call := by
  intro h
  have haccepted := (h (fun _ _ _ => 0) clockReset
    (.adc ⟨.adc, 0, by decide⟩ clkAdcSrcAhb0) (by decide)).accepted rfl
  revert haccepted
  decide

end HpmSdk.Clock
