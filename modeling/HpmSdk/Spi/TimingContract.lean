import HpmSdk.Spi.Timing

set_option autoImplicit false

/-!
# SPI: which requests the timing meets

The divider is the quotient of the clock and twice the request rounded down, less one and cut to
eight bits; the least divider within the request is that quotient rounded up.

The two agree for a quotient that is even, and not beyond what eight bits can hold.
-/

namespace HpmSdk.Spi

open HpmSdk.Foundation

/-! ## The divider in the register -/

/-- The divider is read back from its field. -/
theorem sclkDivOf_spiMasterTimingInit {timing : BitVec 32} {config : SpiTimingConfig}
    (h : config.sclkFreqInHz ≠ 0) :
    sclkDivOf (spiMasterTimingInit timing config).2 = config.sclkDiv := by
  unfold spiMasterTimingInit sclkDivOf
  rw [if_neg h]
  dsimp only
  have hcs : timingSclkDiv.Apart timingCs2sclk := by decide
  have hcsht : timingSclkDiv.Apart timingCsht := by decide
  have hlt : (config.sclkDiv.setWidth 32).toNat < 2 ^ timingSclkDiv.width := by
    rw [BitVec.toNat_setWidth_of_le (by decide)]
    exact config.sclkDiv.isLt
  rw [RegField.get_or, RegField.get_or, RegField.get_set_of_apart _ hcs,
    RegField.get_set_of_apart _ hcsht, BitVec.or_zero, BitVec.zero_or,
    RegField.get_set_of_lt _ (by decide) hlt]
  exact BitVec.setWidth_setWidth_of_le _ (by decide)

/-- Only a request of 0 Hz is refused. -/
theorem spiMasterTimingInit_success_iff {timing : BitVec 32} {config : SpiTimingConfig} :
    (spiMasterTimingInit timing config).1 = .success ↔ config.sclkFreqInHz ≠ 0 := by
  unfold spiMasterTimingInit
  split
  · next h => exact ⟨nofun, fun hne => absurd h hne⟩
  · next h => exact ⟨fun _ => h, fun _ => rfl⟩

/-! ## The divider and the request -/

theorem sclkDivisor_pos (div : BitVec 8) : 0 < sclkDivisor div := by
  unfold sclkDivisor
  split
  · exact Nat.one_pos
  · exact Nat.mul_pos (Nat.succ_pos _) Nat.two_pos

/-- Whether the bus is slow enough, without the division. -/
theorem sclk_le_iff {clkSrc hz : BitVec 32} {div : BitVec 8} :
    sclk clkSrc div ≤ hz.toNat ↔ clkSrc.toNat ≤ hz.toNat * sclkDivisor div :=
  rate_le_iff (sclkDivisor_pos div)

/-- The largest divisor. -/
theorem sclkDivisor_le (div : BitVec 8) : sclkDivisor div ≤ 510 := by
  unfold sclkDivisor
  split
  · decide
  · next h =>
    have hlt := div.isLt
    have hne : div.toNat ≠ 255 := fun heq => h (BitVec.eq_of_toNat_eq heq)
    omega

/-- The half of the quotient of the clock and the request. -/
def sclkHalf (clkSrc hz : BitVec 32) : Nat := clkSrc.toNat / (2 * hz.toNat)

/-- The divider and one more is the quotient, in eight bits. -/
theorem toNat_sclkDiv_add_one {config : SpiTimingConfig}
    (h : config.sclkFreqInHz < config.clkSrcFreqInHz) :
    (config.sclkDiv.toNat + 1) % 256 =
      sclkHalf config.clkSrcFreqInHz config.sclkFreqInHz % 256 := by
  unfold SpiTimingConfig.sclkDiv sclkHalf
  rw [if_pos h, BitVec.toNat_setWidth, BitVec.toNat_sub, BitVec.toNat_udiv, BitVec.toNat_udiv,
    Nat.mul_comm 2, ← Nat.div_div_eq_div_mul]
  change ((2 ^ 32 - 1 + config.clkSrcFreqInHz.toNat / config.sclkFreqInHz.toNat / 2) % 2 ^ 32 %
    2 ^ 8 + 1) % 256 = _
  omega

/-- Above the request, the divisor is twice the half quotient cut to eight bits, or one where
nothing is left of it. -/
theorem sclkDivisor_sclkDiv {config : SpiTimingConfig}
    (h : config.sclkFreqInHz < config.clkSrcFreqInHz) :
    sclkDivisor config.sclkDiv =
      if sclkHalf config.clkSrcFreqInHz config.sclkFreqInHz % 256 = 0 then 1
      else 2 * (sclkHalf config.clkSrcFreqInHz config.sclkFreqInHz % 256) := by
  rw [← toNat_sclkDiv_add_one h]
  have hlt := config.sclkDiv.isLt
  unfold sclkDivisor
  by_cases hmax : config.sclkDiv = 0xff
  · rw [if_pos hmax, hmax]
    rfl
  · have hne : config.sclkDiv.toNat ≠ 255 := fun heq => hmax (BitVec.eq_of_toNat_eq heq)
    have hmod : (config.sclkDiv.toNat + 1) % 256 = config.sclkDiv.toNat + 1 :=
      Nat.mod_eq_of_lt (by omega)
    rw [if_neg hmax, hmod, if_neg (Nat.succ_ne_zero _), Nat.mul_comm]

/-- The requests that the rounded quotient meets. -/
def SclkExact (clkSrc hz : BitVec 32) : Prop :=
  clkSrc ≤ hz ∨ (2 * hz.toNat ∣ clkSrc.toNat ∧ clkSrc.toNat ≤ 510 * hz.toNat)

/-- Twice the request, taken as often as the half quotient says, is not above the clock. -/
theorem mul_sclkHalf_le (clkSrc hz : BitVec 32) :
    2 * hz.toNat * sclkHalf clkSrc hz ≤ clkSrc.toNat :=
  Nat.mul_div_le _ _

/-- A rounded quotient that meets the request was exact. -/
theorem sclkExact_of_le (config : SpiTimingConfig)
    (hle : sclk config.clkSrcFreqInHz config.sclkDiv ≤ config.sclkFreqInHz.toNat) :
    SclkExact config.clkSrcFreqInHz config.sclkFreqInHz := by
  rcases Nat.lt_or_ge config.sclkFreqInHz.toNat config.clkSrcFreqInHz.toNat with hfast | hslow
  · right
    rw [sclk_le_iff] at hle
    have hbound : config.clkSrcFreqInHz.toNat ≤ 510 * config.sclkFreqInHz.toNat := by
      rw [Nat.mul_comm]
      exact hle.trans (Nat.mul_le_mul_left _ (sclkDivisor_le _))
    refine ⟨⟨_, le_antisymm ?_ (mul_sclkHalf_le _ _)⟩, hbound⟩
    rw [sclkDivisor_sclkDiv hfast] at hle
    split at hle
    · rw [Nat.mul_one] at hle
      exact absurd hfast (Nat.not_lt.mpr hle)
    · rw [Nat.mul_left_comm, ← Nat.mul_assoc] at hle
      exact hle.trans (Nat.mul_le_mul_left _ (Nat.mod_le _ _))
  · exact .inl hslow

section Exact

variable {config : SpiTimingConfig}

/-- An exact quotient gives twice the half quotient as the divisor. -/
theorem sclkDivisor_of_dvd (hfast : config.sclkFreqInHz < config.clkSrcFreqInHz)
    (hdvd : 2 * config.sclkFreqInHz.toNat ∣ config.clkSrcFreqInHz.toNat)
    (hbound : config.clkSrcFreqInHz.toNat ≤ 510 * config.sclkFreqInHz.toNat) :
    sclkDivisor config.sclkDiv = 2 * sclkHalf config.clkSrcFreqInHz config.sclkFreqInHz := by
  have hlt : config.sclkFreqInHz.toNat < config.clkSrcFreqInHz.toNat := hfast
  obtain ⟨k, hk⟩ := hdvd
  have hkpos : 0 < k := by
    apply Nat.pos_of_ne_zero
    rintro rfl
    omega
  have hpos : 0 < config.sclkFreqInHz.toNat := by
    apply Nat.pos_of_ne_zero
    intro hzero
    rw [hzero] at hk hlt
    omega
  have hkle : k ≤ 255 := by
    refine Nat.le_of_mul_le_mul_left (c := 2 * config.sclkFreqInHz.toNat) ?_ (by omega)
    omega
  have hhalf : sclkHalf config.clkSrcFreqInHz config.sclkFreqInHz = k := by
    unfold sclkHalf
    rw [hk]
    exact Nat.mul_div_cancel_left k (by omega)
  rw [sclkDivisor_sclkDiv hfast, hhalf, Nat.mod_eq_of_lt (by omega), if_neg hkpos.ne']

/-- A request that the rounded quotient meets gets the fastest SCLK. -/
theorem sclkFastest_of_exact (hreq : config.sclkFreqInHz ≠ 0)
    (h : SclkExact config.clkSrcFreqInHz config.sclkFreqInHz) :
    SclkFastest config.clkSrcFreqInHz config.sclkFreqInHz config.sclkDiv := by
  rcases Nat.lt_or_ge config.sclkFreqInHz.toNat config.clkSrcFreqInHz.toNat with hfast | hslow
  · obtain ⟨hdvd, hbound⟩ := h.resolve_left (BitVec.not_le.mpr hfast)
    have hdivisor := sclkDivisor_of_dvd hfast hdvd hbound
    have hexact : 2 * config.sclkFreqInHz.toNat *
        sclkHalf config.clkSrcFreqInHz config.sclkFreqInHz = config.clkSrcFreqInHz.toNat :=
      Nat.mul_div_cancel' hdvd
    have hpos : 0 < config.sclkFreqInHz.toNat :=
      Nat.pos_of_ne_zero fun heq => hreq (BitVec.eq_of_toNat_eq heq)
    constructor
    · rw [sclk_le_iff, hdivisor, Nat.mul_left_comm, ← Nat.mul_assoc]
      exact hexact.ge
    · intro d hd
      rw [sclk_le_iff, ← hexact, Nat.mul_assoc, Nat.mul_left_comm] at hd
      apply rate_le_rate (sclkDivisor_pos _)
      rw [hdivisor]
      exact Nat.le_of_mul_le_mul_left hd hpos
  · have hone : sclkDivisor config.sclkDiv = 1 := by
      unfold SpiTimingConfig.sclkDiv
      rw [if_neg (BitVec.not_lt.mpr hslow)]
      rfl
    constructor
    · rw [sclk_le_iff, hone, Nat.mul_one]
      exact hslow
    · intro d _
      unfold sclk
      rw [hone]
      exact rate_le_rate Nat.one_pos (sclkDivisor_pos d)

end Exact

/-! ## The bus -/

/-- The request that `hpm_spi_configure` makes: the limit of the device, or the clock where that
is lower. -/
def spiRequest (clkSrc maxHz : BitVec 32) : BitVec 32 := if clkSrc < maxHz then clkSrc else maxHz

/-- The request is never above the maximum of the device. -/
theorem spiRequest_le (clkSrc maxHz : BitVec 32) :
    (spiRequest clkSrc maxHz).toNat ≤ maxHz.toNat := by
  unfold spiRequest
  split
  · next hlt => exact Nat.le_of_lt hlt
  · exact le_rfl

/-- A divider that is exact for the maximum is exact for the request. -/
theorem SclkExact.request {clkSrc maxHz : BitVec 32} (h : SclkExact clkSrc maxHz) :
    SclkExact clkSrc (spiRequest clkSrc maxHz) := by
  unfold spiRequest
  split
  · exact .inl (BitVec.le_refl clkSrc)
  · exact h

/-- A bus that is configured has the timing of the request. -/
theorem hpmSpiConfigure_timing {clkSrc : BitVec 32} {spi : HpmSpi} {cfg : RtSpiConfiguration}
    (h : (hpmSpiConfigure clkSrc spi cfg).1 = .eok) :
    (hpmSpiConfigure clkSrc spi cfg).2.1.timing =
      (spiMasterTimingInit spi.timing ⟨clkSrc, spiRequest clkSrc cfg.maxHz, 3, 11⟩).2 := by
  unfold hpmSpiConfigure at h ⊢
  split at h
  · cases h
  · next hwidth =>
    rw [if_neg hwidth, spiRequest]
    dsimp only [spiMasterGetDefaultTimingConfig]
    split <;> rfl

theorem sclk_zero (div : BitVec 8) : sclk 0 div = 0 := by
  unfold sclk rate
  exact zero_div _

/-- The bus of a device whose limit the rounded quotient meets is not faster than that. -/
theorem hpmSpiConfigure_le {clkSrc : BitVec 32} {spi : HpmSpi} {cfg : RtSpiConfiguration}
    (hmax : cfg.maxHz ≠ 0) (h : SclkExact clkSrc cfg.maxHz)
    (hok : (hpmSpiConfigure clkSrc spi cfg).1 = .eok) :
    sclk clkSrc (sclkDivOf (hpmSpiConfigure clkSrc spi cfg).2.1.timing) ≤ cfg.maxHz.toNat := by
  rw [hpmSpiConfigure_timing hok]
  by_cases hclk : clkSrc = 0
  · rw [hclk, sclk_zero]
    exact Nat.cast_nonneg _
  · have hreq : spiRequest clkSrc cfg.maxHz ≠ 0 := by
      unfold spiRequest
      split
      · exact hclk
      · exact hmax
    let config : SpiTimingConfig := ⟨clkSrc, spiRequest clkSrc cfg.maxHz, 3, 11⟩
    have hconfig : config.sclkFreqInHz ≠ 0 := hreq
    rw [sclkDivOf_spiMasterTimingInit hconfig]
    refine (sclkFastest_of_exact hconfig h.request).le.trans ?_
    exact Nat.cast_le.mpr (spiRequest_le clkSrc cfg.maxHz)

/-! ## The contract -/

/-- The timing is right exactly for requests not below the clock, and for those that divide it an
even number of times, 510 at most.

The divider that is written is half of the quotient less one, rounded down each time, in eight
bits.  A quotient that is not even is rounded to a faster clock than the one asked for, a quotient
of one wraps to the code that stands for the clock itself, and one beyond 510 is cut. -/
theorem spiTiming_right_iff {clkSrc hz : BitVec 32} (hreq : hz ≠ 0) :
    SpiTimingRight clkSrc hz ↔ SclkExact clkSrc hz := by
  constructor
  · intro h
    let config : SpiTimingConfig := ⟨clkSrc, hz, 0, 0⟩
    have hconfig : config.sclkFreqInHz ≠ 0 := hreq
    have hle := (h.accepted 0 config rfl rfl (spiMasterTimingInit_success_iff.mpr hconfig)).le
    rw [sclkDivOf_spiMasterTimingInit hconfig] at hle
    exact sclkExact_of_le config hle
  · intro h
    refine ⟨?_, ?_, ?_⟩
    · rintro timing config rfl rfl _
      rw [sclkDivOf_spiMasterTimingInit hreq]
      exact sclkFastest_of_exact hreq h
    · rintro timing config rfl rfl hnone _
      exact hnone _ (sclkFastest_of_exact hreq h).le
    · rintro spi cfg rfl hok
      exact hpmSpiConfigure_le hreq h hok

/-- 20 MHz of 80 MHz. -/
theorem spiTiming_right_20MHz :
    SpiTimingRight 80000000 20000000 ↔ SclkExact 80000000 20000000 :=
  spiTiming_right_iff (by decide)

/-- 30 MHz of 80 MHz are asked for, and 40 MHz set up. -/
theorem spiTiming_overclocks : ¬ ∀ clkSrc hz : BitVec 32, hz ≠ 0 → SpiTimingRight clkSrc hz := by
  intro h
  have hle := ((h 80000000 30000000 (by decide)).accepted 0 ⟨80000000, 30000000, 3, 11⟩ rfl rfl
    rfl).le
  rw [sclk_le_iff] at hle
  exact absurd hle (by decide)

end HpmSdk.Spi
