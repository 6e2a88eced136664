import HpmSdk.I2s.Config

set_option autoImplicit false

/-!
# I2S: which configurations get their divider

The three functions compute one divider.  They differ in what they refuse before, the divider is
incremented after it was compared with the width of its field, and a sample is taken for the
channel it is sent in, which is longer where samples of 24 bits, or samples of 16 bits in a
channel of 32, are sent.
-/

namespace HpmSdk.I2s

open HpmSdk.Foundation

/-! ## The divider -/

section Divider

variable {config : I2sTransferConfig} {mclkInHz : BitVec 32}

/-- The bit clock in words is the product cut to 32 bits. -/
theorem toNat_bclkFreqInHz (config : I2sTransferConfig) :
    config.bclkFreqInHz.toNat = config.product % 2 ^ 32 := by
  have hdepth : (config.audioDepth.setWidth 32 <<< 3 + 16#32).toNat =
      config.audioDepth.toNat * 8 + 16 := by
    have hlt := config.audioDepth.isLt
    rw [BitVec.toNat_add, BitVec.toNat_shiftLeft, BitVec.toNat_setWidth_of_le (by decide),
      Nat.shiftLeft_eq]
    change (config.audioDepth.toNat * 2 ^ 3 % 2 ^ 32 + 16) % 2 ^ 32 = _
    omega
  unfold I2sTransferConfig.bclkFreqInHz I2sTransferConfig.product I2sTransferConfig.channelRate
    I2sTransferConfig.sampleBits
  rw [BitVec.toNat_mul, BitVec.toNat_mul, hdepth, BitVec.toNat_setWidth_of_le (by decide),
    Nat.mod_mul_mod, Nat.mul_right_comm]

theorem toNat_bclkFreqInHz_of_lt (h : config.product < 2 ^ 32) :
    config.bclkFreqInHz.toNat = config.product :=
  (toNat_bclkFreqInHz config).trans (Nat.mod_eq_of_lt h)

/-- The division is by zero only if the product is zero, as long as that does not wrap. -/
theorem bclkFreqInHz_eq_zero_iff (h : config.product < 2 ^ 32) :
    config.bclkFreqInHz = 0 ↔ config.product = 0 := by
  rw [← toNat_bclkFreqInHz_of_lt h]
  exact BitVec.toNat_inj.symm

theorem toNat_quotient (h : config.product < 2 ^ 32) :
    (mclkInHz / config.bclkFreqInHz).toNat = mclkInHz.toNat / config.product := by
  rw [BitVec.toNat_udiv, toNat_bclkFreqInHz_of_lt h]

/-- The divider that is written is the quotient rounded up. -/
theorem toNat_bclkDiv (hpos : 0 < config.product) (hlt : config.product < 2 ^ 32) :
    (config.bclkDiv mclkInHz).toNat = mclkInHz.toNat ⌈/⌉ config.product := by
  have hquot : (mclkInHz / config.bclkFreqInHz).toNat = mclkInHz.toNat / config.product :=
    toNat_quotient hlt
  have hle : mclkInHz.toNat / config.product * config.product ≤ mclkInHz.toNat :=
    Nat.div_mul_le_self _ _
  have hmul : (mclkInHz / config.bclkFreqInHz * config.bclkFreqInHz).toNat =
      mclkInHz.toNat / config.product * config.product := by
    rw [BitVec.toNat_mul, hquot, toNat_bclkFreqInHz_of_lt hlt]
    exact Nat.mod_eq_of_lt (hle.trans_lt mclkInHz.isLt)
  have hrest : mclkInHz / config.bclkFreqInHz * config.bclkFreqInHz < mclkInHz ↔
      mclkInHz.toNat / config.product * config.product < mclkInHz.toNat := by
    rw [← hmul]
    exact BitVec.lt_def
  unfold I2sTransferConfig.bclkDiv
  rw [ceilDiv_eq hpos]
  dsimp only
  rw [apply_ite BitVec.toNat, BitVec.toNat_add, hquot]
  split
  · next h =>
    have hlt : mclkInHz.toNat / config.product < mclkInHz.toNat :=
      (Nat.le_mul_of_pos_right _ hpos).trans_lt (hrest.mp h)
    have hmclk := mclkInHz.isLt
    have hone : (1 : BitVec 32).toNat = 1 := rfl
    rw [if_pos (hrest.mp h), hone]
    exact Nat.mod_eq_of_lt (by omega)
  · next h => rw [if_neg (mt hrest.mpr h)]

/-- The comparison is of a quotient with the width of the field; in products it is this. -/
theorem tooLarge_iff (hpos : 0 < config.product) (hlt : config.product < 2 ^ 32) :
    config.TooLarge mclkInHz ↔ 512 * config.product ≤ mclkInHz.toNat := by
  rw [← Nat.le_div_iff_mul_le hpos, ← toNat_quotient hlt]
  exact BitVec.lt_def

/-! The channel that is asked for and the sample that the functions count. -/

/-- The validity check leaves three depths, each with its number of bits. -/
theorem audioDepth_of_valid (h : ¬ config.NotValid) :
    0 < config.channelRate ∧ (config.sampleBits = 16 ∧ config.audioDepth.toNat = 0 ∨
      config.sampleBits = 24 ∧ config.audioDepth.toNat = 1 ∨
      config.sampleBits = 32 ∧ config.audioDepth.toNat = 2) := by
  unfold I2sTransferConfig.NotValid at h
  simp only [not_or, Nat.not_lt] at h
  obtain ⟨hdepth, hrate, hchannels, -⟩ := h
  have hne : ∀ {w : Nat} {x : BitVec w}, x ≠ 0 → 0 < x.toNat := fun hx =>
    Nat.pos_of_ne_zero fun hzero => hx (BitVec.eq_of_toNat_eq (hzero.trans BitVec.toNat_zero.symm))
  refine ⟨Nat.mul_pos (hne hrate) (hne hchannels), ?_⟩
  unfold I2sTransferConfig.sampleBits
  omega

/-- A valid configuration has a bit clock. -/
theorem bitClock_pos (h : ¬ config.NotValid) : 0 < config.bitClock := by
  refine Nat.mul_pos (audioDepth_of_valid h).1 ?_
  unfold I2sTransferConfig.channelBits
  split <;> decide

/-- A channel has the bits of its sample, or has 32 where the sample has fewer. -/
theorem channelBits_cases (h : ¬ config.NotValid) :
    config.channelBits = config.sampleBits ∨
      config.channelBits = 32 ∧ (config.sampleBits = 16 ∧ config.audioDepth.toNat = 0 ∨
        config.sampleBits = 24 ∧ config.audioDepth.toNat = 1) := by
  obtain ⟨-, hcases⟩ := audioDepth_of_valid h
  unfold I2sTransferConfig.channelBits
  split <;> omega

/-- A channel of 32 bits for `short` has another least divider for every clock that needs more
than a few: a divider `d + 1` of both lies within `short` and above `d` times 32. -/
theorem ceilDiv_short_iff {clk k short : Nat} (hk : 0 < k) (hshort : 0 < short)
    (hmin : k * short ≤ clk) :
    clk ⌈/⌉ (k * short) = clk ⌈/⌉ (k * 32) ↔
      ∃ d, 32 * d < short * (d + 1) ∧ (short * (k * d) < clk ∧ clk ≤ short * (k * d) + short * k) ∧
        32 * (k * d) < clk ∧ clk ≤ 32 * (k * d) + 32 * k := by
  have hclk : 0 < clk := (Nat.mul_pos hk hshort).trans_le hmin
  have hmul : ∀ n d, k * n * d = n * (k * d) := fun n d => by ring
  rw [ceilDiv_eq_ceilDiv_iff hclk (Nat.mul_pos hk hshort) (Nat.mul_pos hk (by decide))]
  simp only [hmul, Nat.mul_add, Nat.mul_one]
  refine exists_congr fun d => (and_iff_right_of_imp fun h => ?_).symm
  refine Nat.lt_of_mul_lt_mul_left (a := k) ?_
  calc k * (32 * d) = 32 * (k * d) := by ring
    _ < clk := h.2.1
    _ ≤ short * (k * d) + short * k := h.1.2
    _ = k * (short * d + short) := by ring

/-- The divider of the sample's bits is that of the channel's exactly for the clocks for which
the two lengths do not matter: a longer channel has the same least divider only where it
is at most three. -/
theorem ceilDiv_bitClock_iff (hvalid : ¬ config.NotValid)
    (hmin : config.product ≤ mclkInHz.toNat) :
    mclkInHz.toNat ⌈/⌉ config.product = mclkInHz.toNat ⌈/⌉ config.bitClock ↔
      I2sSlotsMatch mclkInHz config := by
  obtain ⟨hrate, -⟩ := audioDepth_of_valid hvalid
  unfold I2sSlotsMatch
  unfold I2sTransferConfig.product at hmin ⊢
  unfold I2sTransferConfig.bitClock
  rcases channelBits_cases hvalid with heq | ⟨hchannel, ⟨hsample, hdepth⟩ | ⟨hsample, hdepth⟩⟩
  · rw [heq]
    exact iff_of_true rfl (Or.inl rfl)
  · rw [hsample] at hmin
    rw [hchannel, hsample, hdepth, ceilDiv_short_iff hrate (by decide) hmin]
    constructor
    · rintro ⟨d, hd, hshort, -⟩
      obtain rfl : d = 0 := by omega
      omega
    · intro h
      exact ⟨0, by omega⟩
  · rw [hsample] at hmin
    rw [hchannel, hsample, hdepth, ceilDiv_short_iff hrate (by decide) hmin]
    constructor
    · rintro ⟨d, hd, hshort, hlong⟩
      obtain rfl | rfl | rfl : d = 0 ∨ d = 1 ∨ d = 2 := by omega
      all_goals omega
    · rintro (h | h | ⟨-, h | h⟩)
      · omega
      · exact ⟨0, by omega⟩
      · exact ⟨1, by omega⟩
      · exact ⟨2, by omega⟩

end Divider

/-! ## The calls -/

section Calls

variable {regs regs' : I2sRegs} {config : I2sTransferConfig} {mclkInHz : BitVec 32}

/-- The divider in `CFGR`. -/
theorem cfgrBclkDiv_i2sConfigCfgr {bclkDiv : BitVec 32} (h : bclkDiv.toNat < 2 ^ 9) :
    cfgrBclkDiv.get (i2sConfigCfgr regs bclkDiv config).cfgr = bclkDiv := by
  unfold i2sConfigCfgr I2sRegs.ungateBclk
  dsimp only
  have hapart : [cfgrBclkDiv, cfgrTdmEn, cfgrChMax, cfgrStd, cfgrDatsiz, cfgrChsiz].Pairwise
      RegField.Apart := by
    decide
  rw [RegField.get_clear_of_apart _ (by decide)]
  exact RegField.get_sets_of_lt hapart List.mem_cons_self (by decide) h

/-- A divider that fits is right wherever `CFGR` is as `i2s_config_cfgr` left it. -/
theorem i2sDividerRight_of_fits (hpos : 0 < config.product) (hlt : config.product < 2 ^ 32)
    (hvalid : ¬ config.NotValid) (hmin : config.product ≤ mclkInHz.toNat)
    (hfits : mclkInHz.toNat ≤ 511 * config.product) (hslots : I2sSlotsMatch mclkInHz config)
    (hcfgr : regs'.cfgr = (i2sConfigCfgr regs (config.bclkDiv mclkInHz) config).cfgr) :
    I2sDividerRight mclkInHz config regs' := by
  have hdiv : (config.bclkDiv mclkInHz).toNat = mclkInHz.toNat ⌈/⌉ config.product :=
    toNat_bclkDiv hpos hlt
  have hceil : mclkInHz.toNat ⌈/⌉ config.product ≤ 511 := by
    rw [ceilDiv_le_iff_le_mul hpos, Nat.mul_comm]
    exact hfits
  have hwidth : (config.bclkDiv mclkInHz).toNat < 2 ^ 9 := by
    rw [hdiv]
    exact Nat.lt_succ_of_le hceil
  refine ⟨hwidth, ?_, ?_⟩
  · rw [hcfgr, cfgrBclkDiv_i2sConfigCfgr hwidth]
  · rw [hdiv, (ceilDiv_bitClock_iff hvalid hmin).mpr hslots]
    exact isLeast_ceilDiv (hpos.trans_le hmin) (bitClock_pos hvalid)

/-- A right divider bounds the clock, and is the one for the channel's bits. -/
theorem I2sDividerRight.met (h : I2sDividerRight mclkInHz config regs')
    (hpos : 0 < config.product) (hlt : config.product < 2 ^ 32) (hvalid : ¬ config.NotValid)
    (hmin : config.product ≤ mclkInHz.toNat) :
    mclkInHz.toNat ≤ 511 * config.product ∧ I2sSlotsMatch mclkInHz config := by
  have hdiv : (config.bclkDiv mclkInHz).toNat = mclkInHz.toNat ⌈/⌉ config.product :=
    toNat_bclkDiv hpos hlt
  have hfits := h.fits
  have hleast := h.least
  rw [hdiv] at hfits hleast
  constructor
  · rw [Nat.mul_comm]
    exact (ceilDiv_le_iff_le_mul hpos).mp (Nat.le_of_lt_succ hfits)
  · refine (ceilDiv_bitClock_iff hvalid hmin).mp (hleast.unique ?_)
    exact isLeast_ceilDiv (hpos.trans_le hmin) (bitClock_pos hvalid)

/-- A call that is refused is right. -/
theorem I2sCallRight.of_refused :
    I2sCallRight regs mclkInHz config (some (.invalidArgument, regs)) :=
  ⟨_, _, rfl, nofun, fun _ => rfl⟩

/-- A call that is accepted is right where the divider is. -/
theorem I2sCallRight.of_accepted (h : I2sDividerRight mclkInHz config regs') :
    I2sCallRight regs mclkInHz config (some (.success, regs')) :=
  ⟨_, _, rfl, fun _ => h, fun hne => absurd rfl hne⟩

theorem startTx_cfgr (regs : I2sRegs) (config : I2sTransferConfig) :
    (regs.startTx config).cfgr = regs.cfgr := by
  unfold I2sRegs.startTx
  dsimp only
  split <;> rfl

theorem startRx_cfgr (regs : I2sRegs) (config : I2sTransferConfig) :
    (regs.startRx config).cfgr = regs.cfgr := by
  unfold I2sRegs.startRx
  dsimp only
  split <;> rfl

theorem startTransfer_cfgr (regs : I2sRegs) (config : I2sTransferConfig) :
    (regs.startTransfer config).cfgr = regs.cfgr := by
  unfold I2sRegs.startTransfer
  dsimp only
  split <;> rfl

/-- `i2s_config_tx` refuses a quotient that is too large, and nothing else. -/
theorem i2sConfigTx_refused (hfreq : config.bclkFreqInHz ≠ 0) (h : config.TooLarge mclkInHz) :
    i2sConfigTx regs mclkInHz config = some (.invalidArgument, regs) := by
  unfold i2sConfigTx
  rw [if_neg hfreq, if_pos h]

/-- Otherwise it programs the quotient, adjusted. -/
theorem i2sConfigTx_accepted (hfreq : config.bclkFreqInHz ≠ 0) (h : ¬ config.TooLarge mclkInHz) :
    ∃ regs', i2sConfigTx regs mclkInHz config = some (.success, regs') ∧
      regs'.cfgr = (i2sConfigCfgr regs.disable (config.bclkDiv mclkInHz) config).cfgr := by
  unfold i2sConfigTx
  rw [if_neg hfreq, if_neg h]
  exact ⟨_, rfl, startTx_cfgr _ _⟩

section Checked

variable {start : I2sRegs → I2sTransferConfig → I2sRegs}

/-- The other two functions refuse a configuration that is not valid, or a quotient of 0, as well.
-/
theorem i2sConfigChecked_refused (h : config.NotValid ∨
      config.bclkFreqInHz ≠ 0 ∧ (mclkInHz / config.bclkFreqInHz = 0 ∨ config.TooLarge mclkInHz)) :
    i2sConfigChecked start regs mclkInHz config = some (.invalidArgument, regs) := by
  unfold i2sConfigChecked
  split
  · rfl
  · next hvalid =>
    obtain ⟨hfreq, hrange⟩ := h.resolve_left hvalid
    rw [if_neg hfreq, if_pos hrange]

/-- Otherwise they program the quotient, adjusted. -/
theorem i2sConfigChecked_accepted (hstart : ∀ regs config, (start regs config).cfgr = regs.cfgr)
    (hvalid : ¬ config.NotValid) (hfreq : config.bclkFreqInHz ≠ 0)
    (hrange : ¬ (mclkInHz / config.bclkFreqInHz = 0 ∨ config.TooLarge mclkInHz)) :
    ∃ regs', i2sConfigChecked start regs mclkInHz config = some (.success, regs') ∧
      regs'.cfgr = (i2sConfigCfgr regs.disable (config.bclkDiv mclkInHz) config).cfgr := by
  unfold i2sConfigChecked
  rw [if_neg hvalid, if_neg hfreq, if_neg hrange]
  exact ⟨_, rfl, hstart _ _⟩

/-- A quotient of zero is a clock below the bit clock. -/
theorem quotient_eq_zero_iff (hpos : 0 < config.product) (hlt : config.product < 2 ^ 32) :
    mclkInHz / config.bclkFreqInHz = 0 ↔ mclkInHz.toNat < config.product := by
  rw [← Nat.div_eq_zero_iff_lt hpos, ← toNat_quotient hlt]
  exact BitVec.toNat_inj.symm

/-- `i2s_config_tx` and a checked function are right, and decide alike, where the configuration is
met. -/
theorem i2sConfigChecked_right (hstart : ∀ regs config, (start regs config).cfgr = regs.cfgr)
    (hmet : I2sConfigMet mclkInHz config) :
    I2sCallRight regs mclkInHz config (i2sConfigTx regs mclkInHz config) ∧
      I2sCallRight regs mclkInHz config (i2sConfigChecked start regs mclkInHz config) ∧
      (i2sConfigTx regs mclkInHz config).map Prod.fst =
        (i2sConfigChecked start regs mclkInHz config).map Prod.fst := by
  obtain ⟨hpos, hlt, hcase⟩ := hmet
  have hfreq : config.bclkFreqInHz ≠ 0 := fun h =>
    hpos.ne' ((bclkFreqInHz_eq_zero_iff hlt).mp h)
  rcases hcase with hlarge | ⟨hvalid, hmin, hmax, hslots⟩
  · have hlarge := (tooLarge_iff hpos hlt).mpr hlarge
    rw [i2sConfigTx_refused hfreq hlarge, i2sConfigChecked_refused (.inr ⟨hfreq, .inr hlarge⟩)]
    exact ⟨.of_refused, .of_refused, rfl⟩
  · have hrange : ¬ (mclkInHz / config.bclkFreqInHz = 0 ∨ config.TooLarge mclkInHz) := by
      rw [quotient_eq_zero_iff hpos hlt, tooLarge_iff hpos hlt]
      omega
    obtain ⟨regs₁, htx, hcfgr₁⟩ :=
      @i2sConfigTx_accepted regs config mclkInHz hfreq fun h => hrange (.inr h)
    obtain ⟨regs₂, hchecked, hcfgr₂⟩ :=
      @i2sConfigChecked_accepted regs config mclkInHz start hstart hvalid hfreq hrange
    rw [htx, hchecked]
    exact ⟨.of_accepted (i2sDividerRight_of_fits hpos hlt hvalid hmin hmax hslots hcfgr₁),
      .of_accepted (i2sDividerRight_of_fits hpos hlt hvalid hmin hmax hslots hcfgr₂), rfl⟩

/-- A call of `i2s_config_tx` that is right, and decides as a checked function does, needs the
configuration met. -/
theorem i2sConfigMet_of_alike (hlt : config.product < 2 ^ 32)
    (htx : I2sCallRight regs mclkInHz config (i2sConfigTx regs mclkInHz config))
    (halike : (i2sConfigTx regs mclkInHz config).map Prod.fst =
      (i2sConfigChecked start regs mclkInHz config).map Prod.fst) :
    I2sConfigMet mclkInHz config := by
  obtain ⟨stat, regs', heq, hright, -⟩ := htx
  have hfreq : config.bclkFreqInHz ≠ 0 := by
    intro hzero
    unfold i2sConfigTx at heq
    rw [if_pos hzero] at heq
    cases heq
  have hpos : 0 < config.product :=
    Nat.pos_of_ne_zero fun h => hfreq ((bclkFreqInHz_eq_zero_iff hlt).mpr h)
  refine ⟨hpos, hlt, ?_⟩
  by_cases hlarge : config.TooLarge mclkInHz
  · exact .inl ((tooLarge_iff hpos hlt).mp hlarge)
  · obtain ⟨regs₁, haccepted, -⟩ := @i2sConfigTx_accepted regs config mclkInHz hfreq hlarge
    rw [haccepted] at heq halike
    cases heq
    -- the checked function does not refuse either
    have hnot : ¬ (config.NotValid ∨ config.bclkFreqInHz ≠ 0 ∧
        (mclkInHz / config.bclkFreqInHz = 0 ∨ config.TooLarge mclkInHz)) := by
      intro hrefused
      rw [i2sConfigChecked_refused hrefused] at halike
      cases halike
    obtain ⟨hvalid, hrange⟩ := not_or.mp hnot
    have hquot : ¬ mclkInHz / config.bclkFreqInHz = 0 := fun h => hrange ⟨hfreq, .inl h⟩
    rw [quotient_eq_zero_iff hpos hlt] at hquot
    exact .inr ⟨hvalid, Nat.not_lt.mp hquot,
      (hright rfl).met hpos hlt hvalid (Nat.not_lt.mp hquot)⟩

end Checked

end Calls

/-! ## The contract -/

/-- The three functions do what is asked of them exactly for the configurations that are met: all
three refuse a clock that is too fast for the field, and what they write is the clock over the
product, rounded up, which is the least divider for the sample's bits and has to be that for
the channel's. -/
theorem i2sConfig_right_iff (regs : I2sRegs) (mclkInHz : BitVec 32) (config : I2sTransferConfig) :
    I2sConfigRight regs mclkInHz config ↔ I2sConfigMet mclkInHz config := by
  constructor
  · intro h
    exact i2sConfigMet_of_alike h.noOverflow h.tx h.alikeRx
  · intro h
    obtain ⟨htx, hrx, halikeRx⟩ := @i2sConfigChecked_right regs config mclkInHz _ startRx_cfgr h
    obtain ⟨-, htransfer, halikeTransfer⟩ :=
      @i2sConfigChecked_right regs config mclkInHz _ startTransfer_cfgr h
    exact ⟨h.2.1, htx, hrx, htransfer, halikeRx, halikeTransfer⟩

/-- A transfer of samples in two channels at 48 kHz, by the code of their depth. -/
def i2sStereo (audioDepth : BitVec 8) : I2sTransferConfig := ⟨48000, false, 2, 1, audioDepth, 0, 0, 3⟩

/-- Samples of 32 bits and a master clock of 1 MHz, below the bit clock: only `i2s_config_tx`
succeeds.  Samples of 24 bits and a master clock of 24.576 MHz: the divider is 11, and 8 is
enough for the 32 bits of a channel. -/
theorem i2sConfig_not_right : ¬ I2sConfigRight ⟨0, 0, fun _ => 0⟩ 1000000 (i2sStereo 2) ∧
    ¬ I2sConfigRight ⟨0, 0, fun _ => 0⟩ 24576000 (i2sStereo 1) := by
  constructor
  · intro h
    exact absurd h.alikeRx (by decide)
  · intro h
    obtain ⟨-, -, hcase⟩ := i2sConfigMet_of_alike h.noOverflow h.tx h.alikeRx
    rcases hcase with hlarge | ⟨-, -, -, hslots⟩
    · exact absurd hlarge (by decide)
    · exact absurd hslots (by decide)

end HpmSdk.I2s
