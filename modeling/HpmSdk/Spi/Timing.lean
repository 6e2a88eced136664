import HpmSdk.Foundation.Dividers
import HpmSdk.Foundation.Registers
import HpmSdk.Spi.Transfer

set_option autoImplicit false

/-!
# SPI: the interface timing (`hpm_spi_drv.c`, `drv_spi.c`)

The divider of SCLK, and `hpm_spi_configure`, which sets the bus up for a device.  The clock that
`board_init_spi_clock` reports is a parameter.
-/

namespace HpmSdk.Spi

open HpmSdk.Foundation

/-! ## The registers -/

/-- `SPI_TIMING_CS2SCLK`. -/
def timingCs2sclk : RegField := ⟨12, 2⟩

/-- `SPI_TIMING_CSHT`. -/
def timingCsht : RegField := ⟨8, 4⟩

/-- `SPI_TIMING_SCLK_DIV`. -/
def timingSclkDiv : RegField := ⟨0, 8⟩

/-- `SPI_TRANSFMT_ADDRLEN`. -/
def transfmtAddrlen : RegField := ⟨16, 2⟩

/-- `SPI_TRANSFMT_DATALEN`. -/
def transfmtDatalen : RegField := ⟨8, 5⟩

/-- `SPI_TRANSFMT_DATAMERGE`. -/
def transfmtDatamerge : RegField := ⟨7, 1⟩

/-- `SPI_TRANSFMT_MOSIBIDIR`. -/
def transfmtMosibidir : RegField := ⟨4, 1⟩

/-- `SPI_TRANSFMT_LSB`. -/
def transfmtLsb : RegField := ⟨3, 1⟩

/-- `SPI_TRANSFMT_SLVMODE`. -/
def transfmtSlvmode : RegField := ⟨2, 1⟩

/-- `SPI_TRANSFMT_CPOL`. -/
def transfmtCpol : RegField := ⟨1, 1⟩

/-- `SPI_TRANSFMT_CPHA`. -/
def transfmtCpha : RegField := ⟨0, 1⟩

/-! ## `spi_master_timing_init` -/

/-- `spi_master_timing_config_t`. -/
structure SpiTimingConfig where
  clkSrcFreqInHz : BitVec 32
  sclkFreqInHz : BitVec 32
  cs2sclk : BitVec 8
  csht : BitVec 8

/-- `sclk_div`. -/
def SpiTimingConfig.sclkDiv (config : SpiTimingConfig) : BitVec 8 :=
  if config.sclkFreqInHz < config.clkSrcFreqInHz then
    (config.clkSrcFreqInHz / config.sclkFreqInHz / 2 - 1).setWidth 8
  else 0xff

/-- `spi_master_timing_init`, on `TIMING`. -/
def spiMasterTimingInit (timing : BitVec 32) (config : SpiTimingConfig) : SpiStat × BitVec 32 :=
  if config.sclkFreqInHz = 0 then (.invalidArgument, timing)
  else
    (.success, timingCs2sclk.set (config.cs2sclk.setWidth 32) |||
      timingCsht.set (config.csht.setWidth 32) |||
      timingSclkDiv.set (config.sclkDiv.setWidth 32))

/-! ## `hpm_spi_configure` -/

/-- `spi_format_config_t`. -/
structure SpiFormatConfig where
  addrLenInBytes : BitVec 8
  dataLenInBits : BitVec 8
  dataMerge : Bool
  mosiBidir : Bool
  lsb : Bool
  mode : BitVec 8
  cpol : BitVec 8
  cpha : BitVec 8

/-- `spi_format_init`: the new value of `TRANSFMT`. -/
def spiFormatInit (config : SpiFormatConfig) : BitVec 32 :=
  transfmtAddrlen.set (config.addrLenInBytes.setWidth 32 - 1) |||
    transfmtDatalen.set (config.dataLenInBits.setWidth 32 - 1) |||
    transfmtDatamerge.set ((BitVec.ofBool config.dataMerge).setWidth 32) |||
    transfmtMosibidir.set ((BitVec.ofBool config.mosiBidir).setWidth 32) |||
    transfmtLsb.set ((BitVec.ofBool config.lsb).setWidth 32) |||
    transfmtSlvmode.set (config.mode.setWidth 32) |||
    transfmtCpol.set (config.cpol.setWidth 32) |||
    transfmtCpha.set (config.cpha.setWidth 32)

/-- `spi_master_get_default_timing_config`: 4 half clocks from chip select on, 12 after it. -/
def spiMasterGetDefaultTimingConfig (config : SpiTimingConfig) : SpiTimingConfig :=
  { config with cs2sclk := 3, csht := 11 }

/-- `spi_master_get_default_format_config`. -/
def spiMasterGetDefaultFormatConfig : SpiFormatConfig where
  addrLenInBytes := 1
  dataLenInBits := 32
  dataMerge := false
  mosiBidir := false
  lsb := false
  mode := 0
  cpol := 1
  cpha := 1

/-- `spi_master_get_default_control_config`. -/
def spiMasterGetDefaultControlConfig : SpiControlConfig where
  cmdEnable := false
  addrEnable := false
  transMode := .writeOnly

/-- The `rt_err_t` values of `hpm_spi_configure`. -/
inductive SpiErr where
  | eok
  | einval
  deriving DecidableEq, Repr

/-- `struct rt_spi_configuration`. -/
structure RtSpiConfiguration where
  mode : BitVec 8
  dataWidth : BitVec 8
  maxHz : BitVec 32

/-- `RT_SPI_CPHA`. -/
def rtSpiCpha : BitVec 8 := 1 <<< 0

/-- `RT_SPI_CPOL`. -/
def rtSpiCpol : BitVec 8 := 1 <<< 1

/-- `RT_SPI_MSB`. -/
def rtSpiMsb : BitVec 8 := 1 <<< 2

/-- `RT_SPI_3WIRE`. -/
def rtSpi3wire : BitVec 8 := 1 <<< 6

/-- `struct hpm_spi` with the registers of its `spi_base`. -/
structure HpmSpi where
  timing : BitVec 32
  transfmt : BitVec 32
  controlConfig : SpiControlConfig

/-- `format_config` of `hpm_spi_configure`. -/
def RtSpiConfiguration.format (cfg : RtSpiConfiguration) : SpiFormatConfig :=
  { spiMasterGetDefaultFormatConfig with
    dataLenInBits := cfg.dataWidth
    cpha := if cfg.mode &&& rtSpiCpha ≠ 0 then 1 else 0
    cpol := if cfg.mode &&& rtSpiCpol ≠ 0 then 1 else 0
    lsb := if cfg.mode &&& rtSpiMsb ≠ 0 then false else true
    mosiBidir := if cfg.mode &&& rtSpi3wire ≠ 0 then true else false }

/-- `hpm_spi_configure`: the request is cut to the source clock, and the status of
`spi_master_timing_init` is not looked at. -/
def hpmSpiConfigure (boardInitSpiClock : BitVec 32) (spi : HpmSpi) (cfg : RtSpiConfiguration) :
    SpiErr × HpmSpi × RtSpiConfiguration :=
  if cfg.dataWidth ≠ 8 ∧ cfg.dataWidth ≠ 16 ∧ cfg.dataWidth ≠ 32 then (.einval, spi, cfg)
  else
    let timingConfig := spiMasterGetDefaultTimingConfig ⟨boardInitSpiClock, 0, 0, 0⟩
    let cfg' := if timingConfig.clkSrcFreqInHz < cfg.maxHz then
      { cfg with maxHz := timingConfig.clkSrcFreqInHz } else cfg
    let timingConfig := { timingConfig with sclkFreqInHz := cfg'.maxHz }
    (.eok,
      { timing := (spiMasterTimingInit spi.timing timingConfig).2
        transfmt := spiFormatInit cfg.format
        controlConfig :=
          { spiMasterGetDefaultControlConfig with transMode := .writeReadTogether } },
      cfg')

/-! ## The contract -/

/-- What a divider stands for: `0xFF` is the source clock itself. -/
def sclkDivisor (div : BitVec 8) : Nat := if div = 0xff then 1 else (div.toNat + 1) * 2

/-- SCLK behind a divider. -/
def sclk (clkSrc : BitVec 32) (div : BitVec 8) : ℚ := rate clkSrc.toNat (sclkDivisor div)

/-- The divider in `TIMING`. -/
def sclkDivOf (timing : BitVec 32) : BitVec 8 := (timingSclkDiv.get timing).setWidth 8

/-- SCLK is within a limit, and no divider makes a faster one that is. -/
structure SclkFastest (clkSrc hz : BitVec 32) (div : BitVec 8) : Prop where
  le : sclk clkSrc div ≤ hz.toNat
  fastest : ∀ d, sclk clkSrc d ≤ hz.toNat → sclk clkSrc d ≤ sclk clkSrc div

/-- What is asked for a source clock and a requested frequency: a success has set the fastest
SCLK up to the request, a request that no divider meets is refused, and the bus that
`hpm_spi_configure` sets up for a device is not faster than its `max_hz`. -/
structure SpiTimingRight (clkSrc hz : BitVec 32) : Prop where
  accepted : ∀ timing config, config.clkSrcFreqInHz = clkSrc → config.sclkFreqInHz = hz →
    (spiMasterTimingInit timing config).1 = .success →
    SclkFastest clkSrc hz (sclkDivOf (spiMasterTimingInit timing config).2)
  refused : ∀ timing config, config.clkSrcFreqInHz = clkSrc → config.sclkFreqInHz = hz →
    (∀ div, ¬ sclk clkSrc div ≤ hz.toNat) →
    (spiMasterTimingInit timing config).1 ≠ .success
  bus : ∀ spi cfg, cfg.maxHz = hz → (hpmSpiConfigure clkSrc spi cfg).1 = .eok →
    sclk clkSrc (sclkDivOf (hpmSpiConfigure clkSrc spi cfg).2.1.timing) ≤ hz.toNat

end HpmSdk.Spi
