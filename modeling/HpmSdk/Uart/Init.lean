import HpmSdk.Foundation.Dividers
import HpmSdk.Foundation.Registers

set_option autoImplicit false

/-!
# UART: initialization (`hpm_uart_drv.c`)

`DLM` shares its address with `IER`: `DLAB` of `LCR` says which of the two a write reaches.  What
the hardware makes of a value written to `OSCR` is a parameter.

The divisor is written in two halves while the latch is open, and the format behind it.
-/

namespace HpmSdk.Uart

open HpmSdk.Foundation

/-- The `hpm_stat_t` values of the UART driver. -/
inductive UartStat where
  | success
  | invalidArgument
  | timeout
  deriving DecidableEq, Repr

/-! ## The registers -/

/-- `UART_OSCR_OSC`. -/
def oscrOsc : RegField := ⟨0, 5⟩

/-- `UART_DLL_DLL`. -/
def dllDll : RegField := ⟨0, 8⟩

/-- `UART_DLM_DLM`. -/
def dlmDlm : RegField := ⟨0, 8⟩

/-- `UART_LCR_DLAB`: the divisor latch is open. -/
def lcrDlab : RegField := ⟨7, 1⟩

/-- `UART_LCR_SPS`. -/
def lcrSps : RegField := ⟨5, 1⟩

/-- `UART_LCR_EPS`. -/
def lcrEps : RegField := ⟨4, 1⟩

/-- `UART_LCR_PEN`. -/
def lcrPen : RegField := ⟨3, 1⟩

/-- `UART_LCR_STB`. -/
def lcrStb : RegField := ⟨2, 1⟩

/-- `UART_LCR_WLS`. -/
def lcrWls : RegField := ⟨0, 2⟩

/-- `UART_FCR_RFIFOT`. -/
def fcrRfifot : RegField := ⟨6, 2⟩

/-- `UART_FCR_TFIFOT`. -/
def fcrTfifot : RegField := ⟨4, 2⟩

/-- `UART_FCR_TFIFORST`. -/
def fcrTfiforst : RegField := ⟨2, 1⟩

/-- `UART_FCR_RFIFORST`. -/
def fcrRfiforst : RegField := ⟨1, 1⟩

/-- `UART_FCR_FIFOE`. -/
def fcrFifoe : RegField := ⟨0, 1⟩

/-- `UART_MCR_AFE`. -/
def mcrAfe : RegField := ⟨5, 1⟩

/-- `UART_MCR_LOOP`. -/
def mcrLoop : RegField := ⟨4, 1⟩

/-- `UART_MCR_RTS`. -/
def mcrRts : RegField := ⟨1, 1⟩

/-- The registers of `UART_Type` that can be set up. -/
structure UartRegs where
  oscr : BitVec 32
  dll : BitVec 8
  dlm : BitVec 8
  ier : BitVec 32
  fcr : BitVec 32
  lcr : BitVec 32
  mcr : BitVec 32

namespace UartRegs

variable (regs : UartRegs)

/-- The latch is open. -/
def Open : Prop := lcrDlab.get regs.lcr = 1#32

instance : Decidable regs.Open := inferInstanceAs (Decidable (_ = _))

/-- A write to the address of `IER` and `DLM`. -/
def writeIerDlm (v : BitVec 32) : UartRegs :=
  if regs.Open then { regs with dlm := v.setWidth 8 } else { regs with ier := v }

/-- A write to the address of `THR` and `DLL`; with the latch closed the byte is sent. -/
def writeThrDll (v : BitVec 32) : UartRegs :=
  if regs.Open then { regs with dll := v.setWidth 8 } else regs

/-- The divisor in the latch. -/
def divisor : Nat := regs.dlm.toNat * 256 + regs.dll.toNat

end UartRegs

/-! ## `uart_init` -/

/-- `uart_modem_config_t`. -/
structure UartModemConfig where
  autoFlowCtrlEn : Bool
  loopBackEn : Bool
  setRtsHigh : Bool

/-- `uart_config_t`. -/
structure UartConfig where
  srcFreqInHz : BitVec 32
  baudrate : BitVec 32
  numOfStopBits : BitVec 8
  wordLength : BitVec 8
  parity : BitVec 8
  osc : BitVec 8
  txFifoLevel : BitVec 8
  rxFifoLevel : BitVec 8
  dmaEnable : Bool
  fifoEnable : Bool
  modemConfig : UartModemConfig

/-- `uart_default_config`; the source frequency stays. -/
def uartDefaultConfig (config : UartConfig) : UartConfig where
  srcFreqInHz := config.srcFreqInHz
  baudrate := 115200
  wordLength := 3
  parity := 0
  osc := 16
  numOfStopBits := 0
  fifoEnable := true
  rxFifoLevel := 0
  txFifoLevel := 0
  dmaEnable := false
  modemConfig := ⟨false, false, false⟩

/-- The parity bits of `LCR`: none, odd, even, always 1, always 0. -/
def uartParity (parity : BitVec 8) : Option (BitVec 32) :=
  match parity.toNat with
  | 0 => some 0
  | 1 => some (lcrPen.mask 32)
  | 2 => some (lcrPen.mask 32 ||| lcrEps.mask 32)
  | 3 => some (lcrPen.mask 32 ||| lcrSps.mask 32)
  | 4 => some (lcrEps.mask 32 ||| lcrPen.mask 32 ||| lcrSps.mask 32)
  | _ => none

/-- The stop bit of `LCR`: 1, 1.5 and 2 stop bits, the last not with words of 5 bits. -/
def uartStopBits (numOfStopBits wordLength : BitVec 8) : Option (BitVec 32) :=
  match numOfStopBits.toNat with
  | 0 => some 0
  | 1 => some (lcrStb.mask 32)
  | 2 => if wordLength.toNat < 1 then none else some (lcrStb.mask 32)
  | _ => none

/-- `tmp` when `LCR` is written. -/
def uartLcr (lcr : BitVec 32) (config : UartConfig) : Option (BitVec 32) := do
  let tmp := lcr &&& ~~~lcrDlab.mask 32
  let tmp := tmp &&& ~~~(lcrSps.mask 32 ||| lcrEps.mask 32 ||| lcrPen.mask 32)
  let parity ← uartParity config.parity
  let tmp := tmp ||| parity
  let tmp := tmp &&& ~~~(lcrStb.mask 32 ||| lcrWls.mask 32)
  let stop ← uartStopBits config.numOfStopBits config.wordLength
  some ((tmp ||| stop) ||| lcrWls.set (config.wordLength.setWidth 32))

/-- The ratio that the field of `OSCR` stands for. -/
def uartOsc (oscr : BitVec 32) : Nat :=
  let osc := (oscr &&& oscrOsc.mask 32).toNat
  if osc = 0 then 32 else if osc ≤ 8 then 8 else osc

/-- `uart_modem_config`. -/
def uartModemConfig (config : UartModemConfig) : BitVec 32 :=
  mcrAfe.set ((BitVec.ofBool config.autoFlowCtrlEn).setWidth 32) |||
    mcrLoop.set ((BitVec.ofBool config.loopBackEn).setWidth 32) |||
    mcrRts.set ((BitVec.ofBool !config.setRtsHigh).setWidth 32)

/-- The value of `FCR` at the end. -/
def uartFcr (config : UartConfig) : BitVec 32 :=
  if config.fifoEnable then
    fcrTfiforst.mask 32 ||| fcrRfiforst.mask 32 ||| fcrFifoe.mask 32 |||
      fcrTfifot.set (config.txFifoLevel.setWidth 32) |||
      fcrRfifot.set (config.rxFifoLevel.setWidth 32)
  else fcrTfiforst.mask 32 ||| fcrRfiforst.mask 32

/-- Interrupts disabled, the latch opened and the ratio set. -/
def uartOpen (oscrHolds : BitVec 32 → BitVec 32) (regs : UartRegs) (config : UartConfig) :
    UartRegs :=
  let regs := regs.writeIerDlm 0
  { regs with
    lcr := regs.lcr ||| lcrDlab.mask 32
    oscr := oscrHolds
      (regs.oscr &&& ~~~oscrOsc.mask 32 ||| oscrOsc.set (config.osc.setWidth 32)) }

/-- The divisor in the two halves of the latch. -/
def uartBaud (regs : UartRegs) (tmp : BitVec 32) : UartRegs :=
  (regs.writeThrDll (dllDll.set (tmp >>> 0))).writeIerDlm (dlmDlm.set (tmp >>> 8))

/-- `uart_init`; `none` is a division by zero. -/
def uartInit (oscrHolds : BitVec 32 → BitVec 32) (regs : UartRegs) (config : UartConfig) :
    Option (UartStat × UartRegs) :=
  let regs := uartOpen oscrHolds regs config
  let osc := uartOsc regs.oscr
  if config.baudrate = 0 ∨ osc = 0 then none
  else
    let regs := uartBaud regs (config.srcFreqInHz / config.baudrate / BitVec.ofNat 32 osc)
    match uartLcr regs.lcr config with
    | none => some (.invalidArgument, regs)
    | some lcr =>
      some (.success,
        { regs with
          lcr := lcr
          fcr := uartFcr config
          mcr := uartModemConfig config.modemConfig })

/-! ## The contract -/

/-- The ratio in effect behind `uart_init`. -/
def uartRatio (oscrHolds : BitVec 32 → BitVec 32) (regs : UartRegs) (config : UartConfig) : Nat :=
  uartOsc (uartOpen oscrHolds regs config).oscr

/-- The latch holds the divisor for a baud rate, whole, and the rate is less than one divisor
step above it. -/
structure UartRate (src baud osc divisor : Nat) : Prop where
  pos : 0 < divisor
  eq : divisor = src / (baud * osc)
  le : (baud : ℚ) ≤ rate src (osc * divisor)
  step : rate src (osc * (divisor + 1)) < baud

/-- What an error leaves as it was: the latch, the interrupt enables and `DLAB`. -/
structure UartKept (regs regs' : UartRegs) : Prop where
  dll : regs'.dll = regs.dll
  dlm : regs'.dlm = regs.dlm
  ier : regs'.ier = regs.ier
  dlab : lcrDlab.get regs'.lcr = lcrDlab.get regs.lcr

/-- What is asked of `uart_init`. -/
def UartInitMeets (oscrHolds : BitVec 32 → BitVec 32) (regs : UartRegs) (config : UartConfig) :
    Prop :=
  ∃ stat regs', uartInit oscrHolds regs config = some (stat, regs') ∧
    (stat = .success → UartRate config.srcFreqInHz.toNat config.baudrate.toNat
      (uartRatio oscrHolds regs config) regs'.divisor) ∧
    (stat = .invalidArgument → UartKept regs regs')

/-- The line formats that `uart_init` takes. -/
def UartFormat (config : UartConfig) : Prop :=
  config.parity.toNat ≤ 4 ∧ config.numOfStopBits.toNat ≤ 2 ∧
    (config.numOfStopBits.toNat = 2 → config.wordLength ≠ 0)

/-- The divisor of a request. -/
def UartConfig.quotient (config : UartConfig) (osc : Nat) : Nat :=
  config.srcFreqInHz.toNat / (config.baudrate.toNat * osc)

end HpmSdk.Uart
