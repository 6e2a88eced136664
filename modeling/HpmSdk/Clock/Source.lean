import HpmSdk.Pllctl.IntMode

set_option autoImplicit false

/-!
# Clock sources and dividers (`hpm_clock_drv.c`, `hpm_sysctl_drv.c`)

A clock name belongs to a group.  The names of the common group have a node of their own, with a
source and a divider; ADC, I2S and watchdog clocks select one of several nodes; the names of
the other groups follow a fixed node or source.
-/

namespace HpmSdk.Clock

open HpmSdk.Foundation HpmSdk.Pllctl

/-- The `hpm_stat_t` values of the clock driver. -/
inductive ClkStat where
  | success
  | divInvalid
  | srcInvalid
  | invalid
  | operationUnsupported
  | sharedAhb
  | sharedAxi0
  | sharedAxi1
  | sharedAxi2
  | sharedCpu0
  | sharedCpu1
  | fixed
  deriving DecidableEq, Repr

/-! ## Names and sources -/

/-- `CLK_SRC_GROUP_..`. -/
inductive ClkSrcGroup where
  | common
  | adc
  | i2s
  | wdg
  | pmic
  | ahb
  | axi0
  | axi1
  | axi2
  | cpu0
  | cpu1
  | src
  deriving DecidableEq, Repr

/-- The nodes or instances that the clock names of a group have. -/
def ClkSrcGroup.names : ClkSrcGroup → Nat
  | .common => 67
  | .adc => 4
  | .i2s => 4
  | .wdg => 4
  | .pmic => 2
  | .ahb => 13
  | .axi0 => 5
  | .axi1 => 2
  | .axi2 => 2
  | .cpu0 => 1
  | .cpu1 => 1
  | .src => 8

/-- `clock_name_t`, without its resource. -/
structure ClockName where
  group : ClkSrcGroup
  node : Nat
  valid : node < group.names
  deriving DecidableEq

/-- `MAKE_CLK_SRC(src_grp, index)`. -/
def makeClkSrc (srcGrp index : Nat) : Nat := srcGrp <<< 4 ||| index

/-- `GET_CLK_SRC_INDEX(src)`. -/
def clkSrcIndex (src : Nat) : Nat := src &&& 0x0F

def clkSrcOsc32k : Nat := makeClkSrc 0 8

def clkAdcSrcAhb0 : Nat := makeClkSrc 1 0

def clkAdcSrcAna2 : Nat := makeClkSrc 1 3

def clkI2sSrcAhb0 : Nat := makeClkSrc 2 0

def clkI2sSrcAud2 : Nat := makeClkSrc 2 3

def clkWdgSrcAhb0 : Nat := makeClkSrc 3 0

def clkWdgSrcOsc32k : Nat := makeClkSrc 3 1

def clkSrcInvalid : Nat := makeClkSrc 15 15

/-- The enumerators of `clk_src_t` for a group. -/
def ClkSrcGroup.sources : ClkSrcGroup → List Nat
  | .common => (List.range 9).map (makeClkSrc 0)
  | .adc => (List.range 4).map (makeClkSrc 1)
  | .i2s => (List.range 4).map (makeClkSrc 2)
  | .wdg => (List.range 2).map (makeClkSrc 3)
  | _ => []

/-! ## The registers -/

def clockNodeCpu0 : Nat := 0

def clockNodeCpu1 : Nat := 2

def clockNodeAxi0 : Nat := 4

def clockNodeAxi1 : Nat := 5

def clockNodeAxi2 : Nat := 6

def clockNodeAhb0 : Nat := 7

def clockNodeAdcI2sStart : Nat := 67

def clockNodeEnd : Nat := 75

def clockSourceGeneralSourceEnd : Nat := 8

/-- `s_adc_clk_mux_node`: `clock_node_ahb0`, `clock_node_ana0` and on. -/
def sAdcClkMuxNode : List Nat := [7, 48, 49, 50]

/-- `s_i2s_clk_mux_node`: `clock_node_ahb0`, `clock_node_aud0` and on. -/
def sI2sClkMuxNode : List Nat := [7, 51, 52, 53]

/-- `SYSCTL_CLOCK_MUX`. -/
def sysctlClockMux : RegField := ⟨8, 4⟩

/-- `SYSCTL_CLOCK_DIV`. -/
def sysctlClockDiv : RegField := ⟨0, 8⟩

/-- `SYSCTL_ADCCLK_MUX`, `SYSCTL_I2SCLK_MUX`. -/
def sysctlAdcclkMux : RegField := ⟨8, 3⟩

/-- `WDG_CTRL_CLKSEL`. -/
def wdgCtrlClksel : RegField := ⟨1, 1⟩

/-- `PLLCTL_PLL_DIV0_DIV`. -/
def pllctlDiv0Div : RegField := ⟨0, 8⟩

/-- The registers of `HPM_SYSCTL`, the watchdogs and `HPM_PLLCTL`. -/
structure ClockRegs where
  clock : Nat → BitVec 32
  adcclk : Nat → BitVec 32
  i2sclk : Nat → BitVec 32
  wdgCtrl : Nat → BitVec 32
  pllctl : PllctlBase

namespace ClockRegs

variable (regs : ClockRegs)

def clockMux (node : Nat) : Nat := (sysctlClockMux.get (regs.clock node)).toNat

def clockDiv (node : Nat) : Nat := (sysctlClockDiv.get (regs.clock node)).toNat

def adcMux (instance' : Nat) : Nat := (sysctlAdcclkMux.get (regs.adcclk instance')).toNat

def i2sMux (instance' : Nat) : Nat := (sysctlAdcclkMux.get (regs.i2sclk instance')).toNat

def wdgClksel (instance' : Nat) : Nat := (wdgCtrlClksel.get (regs.wdgCtrl instance')).toNat

def setClock (node : Nat) (v : BitVec 32) : ClockRegs :=
  { regs with clock := Function.update regs.clock node v }

def setAdcclk (instance' : Nat) (v : BitVec 32) : ClockRegs :=
  { regs with adcclk := Function.update regs.adcclk instance' v }

def setI2sclk (instance' : Nat) (v : BitVec 32) : ClockRegs :=
  { regs with i2sclk := Function.update regs.i2sclk instance' v }

def setWdgCtrl (instance' : Nat) (v : BitVec 32) : ClockRegs :=
  { regs with wdgCtrl := Function.update regs.wdgCtrl instance' v }

end ClockRegs

/-! ## `clock_get_frequency` -/

/-- `FREQ_PRESET1_OSC0_CLK0`. -/
def freqPreset1Osc0Clk0 : BitVec 32 := 24000000

/-- `FREQ_32KHz`. -/
def freq32KHz : BitVec 32 := 32768

/-- `pllctl_get_div`; of a PLL without dividers `status_invalid_argument`, which is 2. -/
def pllctlGetDiv (ptr : PllctlBase) (pll : Fin 5) (divIndex : Nat) : BitVec 32 :=
  if ¬ (pll = 1 ∨ pll = 2) then 2
  else if divIndex ≠ 0 then pllctlDiv0Div.get (ptr pll).div1 + 1
  else pllctlDiv0Div.get (ptr pll).div0 + 1

section Frequency

variable (fracFreq : Nat → BitVec 32 → BitVec 32 → BitVec 32) (regs : ClockRegs)

/-- The frequency of a PLL behind one of its dividers. -/
def pllDividedFreq (pll : Fin 5) (divIndex : Nat) : Option (BitVec 32) := do
  let div := pllctlGetDiv regs.pllctl pll divIndex
  let freq ← pllctlGetPllFreqInHz fracFreq regs.pllctl pll
  if div = 0 then none else some (freq / div)

/-- `get_frequency_for_source`. -/
def getFrequencyForSource (source : Nat) : Option (BitVec 32) :=
  match source with
  | 0 => some freqPreset1Osc0Clk0
  | 1 => pllctlGetPllFreqInHz fracFreq regs.pllctl 0
  | 2 => pllDividedFreq fracFreq regs 1 0
  | 3 => pllDividedFreq fracFreq regs 1 1
  | 4 => pllDividedFreq fracFreq regs 2 0
  | 5 => pllDividedFreq fracFreq regs 2 1
  | 6 => pllctlGetPllFreqInHz fracFreq regs.pllctl 3
  | 7 => pllctlGetPllFreqInHz fracFreq regs.pllctl 4
  | _ => some 0

/-- `get_frequency_for_ip_in_common_group`. -/
def getFrequencyForIpInCommonGroup (node : Nat) : Option (BitVec 32) :=
  if node < clockNodeEnd then do
    let clkDiv := 1 + regs.clockDiv node
    let freq ← getFrequencyForSource fracFreq regs (regs.clockMux node)
    some (freq / BitVec.ofNat 32 clkDiv)
  else some 0

/-- `get_frequency_for_i2s_or_adc`, for one of the groups `adc` and `i2s`. -/
def getFrequencyForI2sOrAdc (clkSrcType : ClkSrcGroup) (instance' : Nat) :
    Option (BitVec 32) :=
  let muxInReg :=
    if clkSrcType = .adc then
      if instance' < 4 then some (regs.adcMux instance') else none
    else
      if instance' < 4 then some (regs.i2sMux instance') else none
  -- both groups look the node up in the table of the ADC
  match muxInReg.bind fun mux => sAdcClkMuxNode[mux]? with
  | some node => getFrequencyForIpInCommonGroup fracFreq regs node
  | none => some 0

/-- `get_frequency_for_wdg`. -/
def getFrequencyForWdg (instance' : Nat) : Option (BitVec 32) :=
  if regs.wdgClksel instance' = 0 then getFrequencyForIpInCommonGroup fracFreq regs clockNodeAhb0
  else some freq32KHz

/-- `clock_get_frequency`. -/
def clockGetFrequency (name : ClockName) : Option (BitVec 32) :=
  match name.group with
  | .common => getFrequencyForIpInCommonGroup fracFreq regs name.node
  | .adc => getFrequencyForI2sOrAdc fracFreq regs .adc name.node
  | .i2s => getFrequencyForI2sOrAdc fracFreq regs .i2s name.node
  | .wdg => getFrequencyForWdg fracFreq regs name.node
  | .pmic => some freqPreset1Osc0Clk0
  | .ahb => getFrequencyForIpInCommonGroup fracFreq regs clockNodeAhb0
  | .axi0 => getFrequencyForIpInCommonGroup fracFreq regs clockNodeAxi0
  | .axi1 => getFrequencyForIpInCommonGroup fracFreq regs clockNodeAxi1
  | .axi2 => getFrequencyForIpInCommonGroup fracFreq regs clockNodeAxi2
  | .cpu0 => getFrequencyForIpInCommonGroup fracFreq regs clockNodeCpu0
  | .cpu1 => getFrequencyForIpInCommonGroup fracFreq regs clockNodeCpu1
  | .src => getFrequencyForSource fracFreq regs name.node

end Frequency

/-! ## `clock_get_source` -/

/-- `clock_get_source`. -/
def clockGetSource (regs : ClockRegs) (name : ClockName) : Nat :=
  match name.group with
  | .common => makeClkSrc 0 (regs.clockMux name.node)
  | .adc => if name.node < 4 then makeClkSrc 1 (regs.adcMux name.node) else clkSrcInvalid
  | .i2s => if name.node < 4 then makeClkSrc 2 (regs.i2sMux name.node) else clkSrcInvalid
  | .wdg =>
    if name.node < 4 then makeClkSrc 3 (if regs.wdgClksel name.node = 0 then 1 else 0)
    else clkSrcInvalid
  | .pmic => makeClkSrc 0 0
  | .ahb => makeClkSrc 0 (regs.clockMux clockNodeAhb0)
  | .axi0 => makeClkSrc 0 (regs.clockMux clockNodeAxi0)
  | .axi1 => makeClkSrc 0 (regs.clockMux clockNodeAxi1)
  | .axi2 => makeClkSrc 0 (regs.clockMux clockNodeAxi2)
  | .cpu0 => makeClkSrc 0 (regs.clockMux clockNodeCpu0)
  | .cpu1 => makeClkSrc 0 (regs.clockMux clockNodeCpu1)
  | .src => clkSrcInvalid

/-! ## The setters -/

/-- `sysctl_config_clock`; its wait for the switch to end changes no register. -/
def sysctlConfigClock (regs : ClockRegs) (node source : Nat) (divideBy : BitVec 32) : ClockRegs :=
  if clockNodeAdcI2sStart ≤ node then regs
  else if clockSourceGeneralSourceEnd ≤ source then regs
  else regs.setClock node
    (regs.clock node &&& ~~~(sysctlClockMux.mask 32 ||| sysctlClockDiv.mask 32) |||
      (sysctlClockMux.set (BitVec.ofNat 32 source) ||| sysctlClockDiv.set (divideBy - 1)))

/-- `clock_set_adc_source`. -/
def clockSetAdcSource (regs : ClockRegs) (name : ClockName) (src : Nat) : ClkStat × ClockRegs :=
  if name.group ≠ .adc ∨ 4 ≤ name.node then (.invalid, regs)
  else if src ≤ clkAdcSrcAhb0 ∨ clkAdcSrcAna2 ≤ src then (.srcInvalid, regs)
  else (.success, regs.setAdcclk name.node
    (regs.adcclk name.node &&& sysctlAdcclkMux.mask 32 |||
      sysctlAdcclkMux.set (BitVec.ofNat 32 (clkSrcIndex src))))

/-- `clock_set_i2s_source`. -/
def clockSetI2sSource (regs : ClockRegs) (name : ClockName) (src : Nat) : ClkStat × ClockRegs :=
  if name.group ≠ .i2s ∨ 4 ≤ name.node then (.invalid, regs)
  else if src ≤ clkI2sSrcAhb0 ∨ clkI2sSrcAud2 ≤ src then (.srcInvalid, regs)
  else (.success, regs.setI2sclk name.node
    (regs.i2sclk name.node &&& sysctlAdcclkMux.mask 32 |||
      sysctlAdcclkMux.set (BitVec.ofNat 32 (clkSrcIndex src))))

/-- `clock_set_source_divider`. -/
def clockSetSourceDivider (regs : ClockRegs) (name : ClockName) (src : Nat) (div : BitVec 32) :
    ClkStat × ClockRegs :=
  match name.group with
  | .common =>
    if div.toNat < 1 ∨ 256 < div.toNat then (.divInvalid, regs)
    -- the status of `sysctl_config_clock` is dropped
    else (.success, sysctlConfigClock regs name.node src div)
  | .adc => (.operationUnsupported, regs)
  | .i2s => (.operationUnsupported, regs)
  | .wdg =>
    if name.node < 4 then
      if src = clkWdgSrcAhb0 then
        (.success,
          regs.setWdgCtrl name.node (regs.wdgCtrl name.node &&& ~~~wdgCtrlClksel.mask 32))
      else if src = clkWdgSrcOsc32k then
        (.success, regs.setWdgCtrl name.node (regs.wdgCtrl name.node ||| wdgCtrlClksel.mask 32))
      else (.srcInvalid, regs)
    else (.success, regs)
  | .pmic => (.fixed, regs)
  | .ahb => (.sharedAhb, regs)
  | .axi0 => (.sharedAxi0, regs)
  | .axi1 => (.sharedAxi1, regs)
  | .axi2 => (.sharedAxi2, regs)
  | .cpu0 => (.sharedCpu0, regs)
  | .cpu1 => (.sharedCpu1, regs)
  | .src => (.operationUnsupported, regs)

/-! ## The contract -/

/-- A call of one of the setters. -/
inductive ClockCall where
  | divider (name : ClockName) (src : Nat) (div : BitVec 32)
  | adc (name : ClockName) (src : Nat)
  | i2s (name : ClockName) (src : Nat)

namespace ClockCall

def name : ClockCall → ClockName
  | divider name _ _ => name
  | adc name _ => name
  | i2s name _ => name

def src : ClockCall → Nat
  | divider _ src _ => src
  | adc _ src => src
  | i2s _ src => src

def run (regs : ClockRegs) : ClockCall → ClkStat × ClockRegs
  | divider name src div => clockSetSourceDivider regs name src div
  | adc name src => clockSetAdcSource regs name src
  | i2s name src => clockSetI2sSource regs name src

/-- The setter is that of the group, and the divider is one the driver documents. -/
def Accepted : ClockCall → Prop
  | divider name _ div =>
    (name.group = .common ∧ 1 ≤ div.toNat ∧ div.toNat ≤ 256) ∨ name.group = .wdg
  | adc name _ => name.group = .adc
  | i2s name _ => name.group = .i2s

/-- The frequency that is asked for: that of the source behind the divider, or that of the
node that is selected. -/
def frequency (fracFreq : Nat → BitVec 32 → BitVec 32 → BitVec 32) (regs : ClockRegs) :
    ClockCall → Option (BitVec 32)
  | divider name src div =>
    if name.group = .wdg then
      if src = clkWdgSrcOsc32k then some freq32KHz
      else getFrequencyForIpInCommonGroup fracFreq regs clockNodeAhb0
    else if src = clkSrcOsc32k then some (freq32KHz / div)
    else (getFrequencyForSource fracFreq regs (clkSrcIndex src)).map (· / div)
  | adc _ src =>
    sAdcClkMuxNode[clkSrcIndex src]?.bind (getFrequencyForIpInCommonGroup fracFreq regs)
  | i2s _ src =>
    sI2sClkMuxNode[clkSrcIndex src]?.bind (getFrequencyForIpInCommonGroup fracFreq regs)

end ClockCall

/-- The node that a clock comes from, if it comes from one. -/
def ClockName.origin (regs : ClockRegs) (name : ClockName) : Option Nat :=
  match name.group with
  | .common => some name.node
  | .adc => sAdcClkMuxNode[regs.adcMux name.node]?
  | .i2s => sI2sClkMuxNode[regs.i2sMux name.node]?
  | .wdg => if regs.wdgClksel name.node = 0 then some clockNodeAhb0 else none
  | .ahb => some clockNodeAhb0
  | .axi0 => some clockNodeAxi0
  | .axi1 => some clockNodeAxi1
  | .axi2 => some clockNodeAxi2
  | .cpu0 => some clockNodeCpu0
  | .cpu1 => some clockNodeCpu1
  | .pmic => none
  | .src => none

/-- Another clock, which does not come from the node of the first one. -/
def ClockName.Independent (regs : ClockRegs) (name other : ClockName) : Prop :=
  other ≠ name ∧ (name.group = .common → other.origin regs ≠ some name.node)

/-- What is asked of a call. -/
structure ClockMeets (fracFreq : Nat → BitVec 32 → BitVec 32 → BitVec 32) (regs : ClockRegs)
    (call : ClockCall) : Prop where
  source : (call.run regs).1 = .success → clockGetSource (call.run regs).2 call.name = call.src
  frequency : (call.run regs).1 = .success →
    clockGetFrequency fracFreq (call.run regs).2 call.name =
      call.frequency fracFreq (call.run regs).2
  others : (call.run regs).1 = .success → ∀ other, call.name.Independent regs other →
    clockGetSource (call.run regs).2 other = clockGetSource regs other ∧
      clockGetFrequency fracFreq (call.run regs).2 other = clockGetFrequency fracFreq regs other
  unchanged : (call.run regs).1 ≠ .success → (call.run regs).2 = regs
  accepted : call.Accepted → (call.run regs).1 = .success

/-- Where the setters do what is asked: not for watchdogs; for ADC and I2S only to the middle
two sources, over a selection of the same source or of 0, and for I2S where the node of the ADC
table runs at the same frequency; for a node not to the 32 kHz source, and for the nodes of the ADC
table only where no I2S clock selects their place in the table or their frequency stays. -/
def ClockHolds (fracFreq : Nat → BitVec 32 → BitVec 32 → BitVec 32) (regs : ClockRegs) :
    ClockCall → Prop
  | .divider name src div =>
    name.group ≠ .wdg ∧
      (name.group = .common → 1 ≤ div.toNat ∧ div.toNat ≤ 256 → src ≠ clkSrcOsc32k ∧
        ∀ instance' < 4, regs.i2sMux instance' ≠ 0 →
          sAdcClkMuxNode[regs.i2sMux instance']? = some name.node →
            (getFrequencyForSource fracFreq regs src).map (· / div) =
              getFrequencyForIpInCommonGroup fracFreq regs name.node)
  | .adc name src =>
    name.group = .adc → (clkSrcIndex src = 1 ∨ clkSrcIndex src = 2) ∧
      (regs.adcMux name.node = 0 ∨ regs.adcMux name.node = clkSrcIndex src)
  | .i2s name src =>
    name.group = .i2s → (clkSrcIndex src = 1 ∨ clkSrcIndex src = 2) ∧
      (regs.i2sMux name.node = 0 ∨ regs.i2sMux name.node = clkSrcIndex src) ∧
      sAdcClkMuxNode[clkSrcIndex src]?.bind (getFrequencyForIpInCommonGroup fracFreq regs) =
        sI2sClkMuxNode[clkSrcIndex src]?.bind (getFrequencyForIpInCommonGroup fracFreq regs)

end HpmSdk.Clock
