import HpmSdk.Uart.Init

set_option autoImplicit false

/-!
# UART: which requests are initialized

The quotient of clock, baud rate and ratio is cut to the sixteen bits of the latch, and the format
is looked at with the latch already written.

What is asked is then a condition on the quotient: to be a divisor of the latch, and for a format
that is refused to be the one that was there.
-/

namespace HpmSdk.Uart

open HpmSdk.Foundation

/-! ## The latch -/

section Latch

variable {regs : UartRegs}

/-- Behind the write the latch is open. -/
theorem lcrDlab_get_or_mask (lcr : BitVec 32) :
    lcrDlab.get (lcr ||| lcrDlab.mask 32) = 1#32 := by
  have hmask : lcrDlab.get (lcrDlab.mask 32) = 1#32 := by decide
  have hlt : (lcrDlab.get lcr).toNat < 2 ^ 1 := RegField.get_lt lcr (by decide)
  rw [RegField.get_or, hmask]
  rcases Nat.lt_succ_iff_lt_or_eq.mp hlt with hzero | hone
  · have hget : lcrDlab.get lcr = 0#32 := BitVec.eq_of_toNat_eq (Nat.lt_one_iff.mp hzero)
    rw [hget, BitVec.zero_or]
  · have hget : lcrDlab.get lcr = 1#32 := BitVec.eq_of_toNat_eq hone
    rw [hget, BitVec.or_self]

/-- The latch is opened before the divisor is written. -/
theorem uartOpen_open (oscrHolds : BitVec 32 → BitVec 32) (regs : UartRegs) (config : UartConfig) :
    (uartOpen oscrHolds regs config).Open :=
  lcrDlab_get_or_mask _

/-- The low byte and the next one of the divisor go into the halves of an open latch. -/
theorem uartBaud_of_open (h : regs.Open) (tmp : BitVec 32) :
    uartBaud regs tmp =
      { regs with dll := tmp.setWidth 8, dlm := (tmp >>> 8).setWidth 8 } := by
  unfold uartBaud UartRegs.writeThrDll
  rw [if_pos h]
  unfold UartRegs.writeIerDlm
  have hopen : { regs with dll := (dllDll.set (tmp >>> 0)).setWidth 8 }.Open := h
  rw [if_pos hopen]
  have hcut (v : BitVec 32) : (dllDll.set v).setWidth 8 = v.setWidth 8 := by
    apply BitVec.eq_of_toNat_eq
    have hset : (dllDll.set v).toNat = v.toNat % 2 ^ 8 := RegField.set_zero_toNat v 8 (by decide)
    rw [BitVec.toNat_setWidth, BitVec.toNat_setWidth, hset, Nat.mod_mod]
  rw [hcut, show dlmDlm = dllDll from rfl, hcut, BitVec.ushiftRight_zero]

/-- Both halves of the divisor reach the latch, cut to sixteen bits. -/
theorem divisor_uartBaud (h : regs.Open) (tmp : BitVec 32) :
    (uartBaud regs tmp).divisor = tmp.toNat % 65536 := by
  rw [uartBaud_of_open h]
  unfold UartRegs.divisor
  dsimp only
  rw [BitVec.toNat_setWidth, BitVec.toNat_setWidth, BitVec.toNat_ushiftRight,
    Nat.shiftRight_eq_div_pow]
  omega

/-- The halves of two latches are equal where the divisors are. -/
theorem UartRegs.divisor_eq_iff {regs' : UartRegs} :
    regs'.divisor = regs.divisor ↔ regs'.dll = regs.dll ∧ regs'.dlm = regs.dlm := by
  unfold UartRegs.divisor
  rw [← BitVec.toNat_inj, ← BitVec.toNat_inj]
  have hlow := regs.dll.isLt
  have hlow' := regs'.dll.isLt
  omega

end Latch

/-! ## The format -/

/-- The parities that the driver knows. -/
theorem uartParity_isSome (parity : BitVec 8) :
    (uartParity parity).isSome ↔ parity.toNat ≤ 4 := by
  unfold uartParity
  generalize parity.toNat = n
  match n with
  | 0 | 1 | 2 | 3 | 4 => exact iff_of_true rfl (by decide)
  | n + 5 => exact iff_of_false nofun (by omega)

/-- The stop bits that the driver knows; one and a half of them is for five data bits only. -/
theorem uartStopBits_isSome (numOfStopBits wordLength : BitVec 8) :
    (uartStopBits numOfStopBits wordLength).isSome ↔
      numOfStopBits.toNat ≤ 2 ∧ (numOfStopBits.toNat = 2 → wordLength ≠ 0) := by
  unfold uartStopBits
  generalize numOfStopBits.toNat = n
  match n with
  | 0 | 1 => exact iff_of_true rfl ⟨by decide, nofun⟩
  | 2 =>
    by_cases hlen : wordLength.toNat < 1
    · have hzero : wordLength = 0 := BitVec.eq_of_toNat_eq (Nat.lt_one_iff.mp hlen)
      rw [if_pos hlen]
      exact iff_of_false nofun fun h => h.2 rfl hzero
    · rw [if_neg hlen]
      refine iff_of_true rfl ⟨le_rfl, fun _ hzero => hlen ?_⟩
      rw [hzero]
      exact Nat.one_pos
  | n + 3 => exact iff_of_false nofun (by omega)

/-- The formats that are taken are those for which a value of `LCR` is found. -/
theorem uartLcr_isSome (lcr : BitVec 32) (config : UartConfig) :
    (uartLcr lcr config).isSome ↔ UartFormat config := by
  unfold UartFormat
  rw [← uartParity_isSome, ← uartStopBits_isSome]
  unfold uartLcr
  cases uartParity config.parity with
  | none => exact iff_of_false nofun fun h => Bool.false_ne_true h.1
  | some parity =>
    cases uartStopBits config.numOfStopBits config.wordLength with
    | none => exact iff_of_false nofun fun h => Bool.false_ne_true h.2
    | some stop => exact iff_of_true rfl ⟨rfl, rfl⟩

/-- The default format is one of them. -/
theorem uartDefaultConfig_format (config : UartConfig) : UartFormat (uartDefaultConfig config) :=
  ⟨Nat.zero_le 4, Nat.zero_le 2, nofun⟩

/-! ## The divisor -/

theorem uartOsc_pos (oscr : BitVec 32) : 0 < uartOsc oscr := by
  unfold uartOsc
  dsimp only
  split
  · decide
  · split
    · decide
    · omega

theorem uartOsc_lt (oscr : BitVec 32) : uartOsc oscr < 2 ^ 32 := by
  unfold uartOsc
  dsimp only
  split
  · decide
  · split
    · decide
    · exact BitVec.isLt _

/-- The three values divide as numbers do. -/
theorem toNat_quotient (config : UartConfig) {osc : Nat} (hosc : osc < 2 ^ 32) :
    (config.srcFreqInHz / config.baudrate / BitVec.ofNat 32 osc).toNat = config.quotient osc := by
  unfold UartConfig.quotient
  rw [BitVec.toNat_udiv, BitVec.toNat_udiv, BitVec.toNat_ofNat, Nat.mod_eq_of_lt hosc,
    Nat.div_div_eq_div_mul]

/-- A divisor cut to sixteen bits gives the rate where nothing was cut and something is left. -/
theorem uartRate_iff {src baud osc : Nat} (hbaud : 0 < baud) (hosc : 0 < osc) :
    UartRate src baud osc (src / (baud * osc) % 65536) ↔
      1 ≤ src / (baud * osc) ∧ src / (baud * osc) < 65536 := by
  constructor
  · intro h
    have hlt : src / (baud * osc) % 65536 < 65536 := Nat.mod_lt _ (by decide)
    have hpos := h.pos
    rw [h.eq] at hlt hpos
    exact ⟨hpos, hlt⟩
  · rintro ⟨hpos, hlt⟩
    rw [Nat.mod_eq_of_lt hlt]
    exact ⟨hpos, rfl, le_rate_mul_div hosc hpos, rate_mul_succ_div_lt hosc hbaud⟩

/-! ## `uart_init` -/

section Init

variable (oscrHolds : BitVec 32 → BitVec 32) (regs : UartRegs) (config : UartConfig)

/-- The registers when the format is looked at. -/
def uartWritten : UartRegs :=
  uartBaud (uartOpen oscrHolds regs config)
    (config.srcFreqInHz / config.baudrate /
      BitVec.ofNat 32 (uartRatio oscrHolds regs config))

/-- The divisor that is written is the quotient. -/
theorem uartWritten_divisor : (uartWritten oscrHolds regs config).divisor =
    config.quotient (uartRatio oscrHolds regs config) % 65536 := by
  have hlt : uartRatio oscrHolds regs config < 2 ^ 32 := uartOsc_lt _
  unfold uartWritten
  rw [divisor_uartBaud (uartOpen_open oscrHolds regs config), toNat_quotient _ hlt]

/-- What is written before the format is looked at is to be kept only by a latch that was open
and held the divisor. -/
theorem uartKept_uartWritten_iff : UartKept regs (uartWritten oscrHolds regs config) ↔
    regs.Open ∧ regs.divisor = config.quotient (uartRatio oscrHolds regs config) % 65536 := by
  have hdlab : lcrDlab.get (uartWritten oscrHolds regs config).lcr = 1#32 := by
    unfold uartWritten
    rw [uartBaud_of_open (uartOpen_open oscrHolds regs config)]
    exact lcrDlab_get_or_mask _
  rw [← uartWritten_divisor, eq_comm (a := regs.divisor), UartRegs.divisor_eq_iff]
  constructor
  · intro h
    exact ⟨h.dlab.symm.trans hdlab, h.dll, h.dlm⟩
  · rintro ⟨hopen, hdll, hdlm⟩
    refine ⟨hdll, hdlm, ?_, hdlab.trans hopen.symm⟩
    unfold uartWritten
    rw [uartBaud_of_open (uartOpen_open oscrHolds regs config)]
    unfold uartOpen UartRegs.writeIerDlm
    dsimp only
    rw [if_pos hopen]

/-- A format that the driver knows is set. -/
theorem uartInit_of_format {config : UartConfig} (hbaud : config.baudrate ≠ 0)
    (hformat : UartFormat config) : ∃ regs',
    uartInit oscrHolds regs config = some (.success, regs') ∧
      regs'.divisor = config.quotient (uartRatio oscrHolds regs config) % 65536 := by
  obtain ⟨lcr, hlcr⟩ := Option.isSome_iff_exists.mp
    ((uartLcr_isSome (uartWritten oscrHolds regs config).lcr config).mpr hformat)
  have hdiv : ¬ (config.baudrate = 0 ∨ uartOsc (uartOpen oscrHolds regs config).oscr = 0) :=
    not_or.mpr ⟨hbaud, (uartOsc_pos _).ne'⟩
  refine ⟨{ uartWritten oscrHolds regs config with
    lcr := lcr, fcr := uartFcr config, mcr := uartModemConfig config.modemConfig }, ?_,
    uartWritten_divisor oscrHolds regs config⟩
  unfold uartInit
  dsimp only
  rw [if_neg hdiv]
  unfold uartWritten uartRatio at hlcr
  rw [hlcr]
  rfl

/-- A format that it does not know is refused, with the divisor already written. -/
theorem uartInit_of_not_format {config : UartConfig} (hbaud : config.baudrate ≠ 0)
    (hformat : ¬ UartFormat config) :
    uartInit oscrHolds regs config =
      some (.invalidArgument, uartWritten oscrHolds regs config) := by
  have hlcr : uartLcr (uartWritten oscrHolds regs config).lcr config = none := by
    rw [← Option.not_isSome_iff_eq_none, uartLcr_isSome]
    exact hformat
  have hdiv : ¬ (config.baudrate = 0 ∨ uartOsc (uartOpen oscrHolds regs config).oscr = 0) :=
    not_or.mpr ⟨hbaud, (uartOsc_pos _).ne'⟩
  unfold uartInit
  dsimp only
  rw [if_neg hdiv]
  unfold uartWritten uartRatio at hlcr
  rw [hlcr]
  rfl

/-- The requests that are met: a format that is taken needs a quotient of 1 to 65535, one that
is not needs the latch open already, with the divisor in it. -/
def UartMet : Prop :=
  config.baudrate ≠ 0 ∧
    (UartFormat config → 1 ≤ config.quotient (uartRatio oscrHolds regs config) ∧
      config.quotient (uartRatio oscrHolds regs config) < 65536) ∧
    (¬ UartFormat config → regs.Open ∧
      regs.divisor = config.quotient (uartRatio oscrHolds regs config) % 65536)

/-- `uart_init` does what is asked of it exactly for the requests that are met.

The divisor latch is opened and written before the format is looked at.  So a format that is
refused leaves the registers changed, unless the latch was open and held the same divisor.  For a
format that is taken the divisor is the quotient cut to 16 bits, which is a divisor for the rate
where the quotient is one. -/
theorem uartInit_meets_iff :
    UartInitMeets oscrHolds regs config ↔ UartMet oscrHolds regs config := by
  unfold UartInitMeets UartMet
  by_cases hbaud : config.baudrate = 0
  · refine iff_of_false ?_ fun h => h.1 hbaud
    rintro ⟨stat, regs', hinit, -⟩
    unfold uartInit at hinit
    dsimp only at hinit
    rw [if_pos (.inl hbaud)] at hinit
    cases hinit
  · have hpos : 0 < config.baudrate.toNat := BitVec.toNat_pos_of_ne_zero hbaud
    have hratio : 0 < uartRatio oscrHolds regs config := uartOsc_pos _
    by_cases hformat : UartFormat config
    · obtain ⟨regs', hinit, hdivisor⟩ := uartInit_of_format oscrHolds regs hbaud hformat
      rw [hinit]
      constructor
      · rintro ⟨stat, regs'', heq, hrate, -⟩
        cases heq
        have hrate := hrate rfl
        rw [hdivisor] at hrate
        exact ⟨hbaud, fun _ => (uartRate_iff hpos hratio).mp hrate, fun h => absurd hformat h⟩
      · rintro ⟨-, hquot, -⟩
        refine ⟨_, _, rfl, fun _ => ?_, nofun⟩
        rw [hdivisor]
        exact (uartRate_iff hpos hratio).mpr (hquot hformat)
    · rw [uartInit_of_not_format oscrHolds regs hbaud hformat]
      constructor
      · rintro ⟨stat, regs'', heq, -, hkept⟩
        cases heq
        exact ⟨hbaud, fun h => absurd h hformat,
          fun _ => (uartKept_uartWritten_iff oscrHolds regs config).mp (hkept rfl)⟩
      · rintro ⟨-, -, hkept⟩
        exact ⟨_, _, rfl, nofun,
          fun _ => (uartKept_uartWritten_iff oscrHolds regs config).mpr (hkept hformat)⟩

end Init

/-- The registers of a UART that is set up, with the receive interrupt enabled. -/
def uartRunning : UartRegs := ⟨16, 13, 0, 1, 0, 3, 0⟩

/-- Two stop bits with words of five bits are refused with the latch open. -/
theorem uartInit_leaves_open : ¬ ∀ (oscrHolds : BitVec 32 → BitVec 32) (regs : UartRegs)
    (config : UartConfig), UartInitMeets oscrHolds regs config := by
  intro h
  obtain ⟨stat, regs', hinit, -, hkept⟩ := h id uartRunning
    { uartDefaultConfig ⟨24000000, 0, 0, 0, 0, 0, 0, 0, false, false, ⟨false, false, false⟩⟩ with
      numOfStopBits := 2, wordLength := 0 }
  cases hinit
  exact absurd (hkept rfl).dlab (by decide)

end HpmSdk.Uart
