import Mathlib.Data.List.Basic

set_option autoImplicit false

/-!
# SPI: transfers (`hpm_spi_drv.c`, `drv_spi.c`)

The data phase of a transfer and `hpm_spi_xfer`, which splits a message into transfers of at
most 512 words.  A pointer is a byte address, `none` where it is NULL; the statuses that the
loops poll are a list, and a loop that outlives it gives `none`.
-/

namespace HpmSdk.Spi

/-- The `hpm_stat_t` values of a transfer. -/
inductive SpiStat where
  | success
  | invalidArgument
  deriving DecidableEq, Repr

/-! ## Memory and the data register -/

/-- What a loop sees in one pass: `TXFULL` and `RXEMPTY` of `STATUS`, and `DATA`. -/
structure SpiPoll where
  txFull : Bool
  rxEmpty : Bool
  data : BitVec 32

/-- What happens: the word at an address is sent, a word is stored at one, or chip select is
taken or released. -/
inductive SpiEvent where
  | sent (buff : Nat) (v : BitVec 32)
  | stored (buff : Nat) (v : BitVec 32)
  | cs (take : Bool)
  deriving DecidableEq, Repr

/-- Memory, and what happened so far. -/
structure SpiIo where
  mem : Nat → BitVec 8
  log : List SpiEvent

/-- The bytes of a word in memory, by `datalen`. -/
def spiWordBytes (datalen : Nat) : Nat :=
  if datalen ≤ 7 then 1 else if datalen ≤ 15 then 2 else 4

/-- The bits of a word that count. -/
def spiWordMask (datalen : Nat) : BitVec 32 :=
  if datalen ≤ 30 then (1#32 <<< (datalen + 1)) - 1 else 0xffffffff

/-- The number in so many bytes from an address on, the first byte lowest. -/
def spiLoad (mem : Nat → BitVec 8) (buff : Nat) : Nat → BitVec 32
  | 0 => 0
  | n + 1 => spiLoad mem buff n ||| (mem (buff + n)).setWidth 32 <<< (8 * n)

/-- Storing a number in so many bytes from an address on. -/
def spiStore (mem : Nat → BitVec 8) (buff bytes : Nat) (v : BitVec 32) : Nat → BitVec 8 :=
  fun i => if buff ≤ i ∧ i < buff + bytes then (v >>> (8 * (i - buff))).setWidth 8 else mem i

/-! ## The data phase -/

/-- The variables of a loop of the data phase. -/
structure SpiLoop where
  io : SpiIo
  wbuff : Nat
  rbuff : Nat
  wtransferred : Nat
  rtransferred : Nat

namespace SpiLoop

variable (datalen wsize rsize : Nat) (p : SpiPoll) (s : SpiLoop)

/-- Writing a word into the transmit FIFO, where there is one to write and room for it. -/
def writePart : SpiLoop :=
  if s.wtransferred < wsize ∧ p.txFull = false then
    { s with
      io := { s.io with
        log := s.io.log ++ [.sent s.wbuff
          (spiLoad s.io.mem s.wbuff (spiWordBytes datalen) &&& spiWordMask datalen)] }
      wbuff := s.wbuff + spiWordBytes datalen
      wtransferred := s.wtransferred + 1 }
  else s

/-- Reading a word from the receive FIFO, where one is asked for and there. -/
def readPart : SpiLoop :=
  if s.rtransferred < rsize ∧ p.rxEmpty = false then
    { s with
      io := {
        mem := spiStore s.io.mem s.rbuff (spiWordBytes datalen) (p.data &&& spiWordMask datalen)
        log := s.io.log ++ [.stored s.rbuff (p.data &&& spiWordMask datalen)] }
      rbuff := s.rbuff + spiWordBytes datalen
      rtransferred := s.rtransferred + 1 }
  else s

/-- One pass. -/
def pass : SpiLoop := (s.writePart datalen wsize p).readPart datalen rsize p

/-- There are words left. -/
def Goes : Prop := s.wtransferred < wsize ∨ s.rtransferred < rsize

instance : Decidable (s.Goes wsize rsize) := inferInstanceAs (Decidable (_ ∨ _))

end SpiLoop

/-- The loop of the data phase: it ends when all words are transferred. -/
def spiDataLoop (datalen wsize rsize : Nat) :
    List SpiPoll → SpiLoop → Option (SpiLoop × List SpiPoll)
  | [], s => if s.Goes wsize rsize then none else some (s, [])
  | p :: polls, s =>
    if s.Goes wsize rsize then spiDataLoop datalen wsize rsize polls (s.pass datalen wsize rsize p)
    else some (s, p :: polls)

/-- A data phase that goes through: the loop from its start. -/
def spiDataPhase (datalen wbuff wsize rbuff rsize : Nat) (polls : List SpiPoll) (io : SpiIo) :
    Option (SpiStat × SpiIo × List SpiPoll) :=
  (spiDataLoop datalen wsize rsize polls ⟨io, wbuff, rbuff, 0, 0⟩).map fun r =>
    (.success, r.1.io, r.2)

section Phases

variable (datalen : Nat) (polls : List SpiPoll) (io : SpiIo)

/-- `spi_write_data`. -/
def spiWriteData (buff : Option Nat) (size : Nat) : Option (SpiStat × SpiIo × List SpiPoll) :=
  match buff with
  | some buff =>
    if size = 0 then some (.invalidArgument, io, polls)
    else spiDataPhase datalen buff size 0 0 polls io
  | none => some (.invalidArgument, io, polls)

/-- `spi_read_data`. -/
def spiReadData (buff : Option Nat) (size : Nat) : Option (SpiStat × SpiIo × List SpiPoll) :=
  match buff with
  | some buff =>
    if size = 0 then some (.invalidArgument, io, polls)
    else spiDataPhase datalen 0 0 buff size polls io
  | none => some (.invalidArgument, io, polls)

/-- `spi_write_read_data`. -/
def spiWriteReadData (wbuff : Option Nat) (wsize : Nat) (rbuff : Option Nat) (rsize : Nat) :
    Option (SpiStat × SpiIo × List SpiPoll) :=
  match wbuff, rbuff with
  | some wbuff, some rbuff =>
    if wsize = 0 ∨ rsize = 0 then some (.invalidArgument, io, polls)
    else spiDataPhase datalen wbuff wsize rbuff rsize polls io
  | _, _ => some (.invalidArgument, io, polls)

end Phases

/-! ## `spi_transfer` -/

/-- `spi_trans_mode_t`. -/
inductive SpiTransMode where
  | writeReadTogether
  | writeOnly
  | readOnly
  | writeRead
  | readWrite
  | writeDummyRead
  | readDummyWrite
  | noData
  | dummyWrite
  | dummyRead
  deriving DecidableEq, Repr

/-- `spi_control_config_t` of a master. -/
structure SpiControlConfig where
  cmdEnable : Bool
  addrEnable : Bool
  transMode : SpiTransMode

/-- `spi_no_data` of a master. -/
def spiNoData (config : SpiControlConfig) : SpiStat :=
  if config.cmdEnable = false ∧ config.addrEnable = false then .invalidArgument else .success

/-- `spi_transfer` of a master; the last wait is for the bus to become idle. -/
def spiTransfer (datalen : Nat) (config : SpiControlConfig) (cmd : Option (BitVec 8))
    (addr : Option (BitVec 32)) (wbuff : Option Nat) (wsize : Nat) (rbuff : Option Nat)
    (rsize : Nat) (polls : List SpiPoll) (io : SpiIo) :
    Option (SpiStat × SpiIo × List SpiPoll) :=
  if config.cmdEnable = true ∧ cmd = none then some (.invalidArgument, io, polls)
  else if config.addrEnable = true ∧ addr = none then some (.invalidArgument, io, polls)
  else
    match config.transMode with
    | .writeOnly | .dummyWrite => spiWriteData datalen polls io wbuff wsize
    | .readOnly | .dummyRead => spiReadData datalen polls io rbuff rsize
    | .writeReadTogether | .writeRead | .writeDummyRead | .readWrite | .readDummyWrite =>
      spiWriteReadData datalen polls io wbuff wsize rbuff rsize
    | .noData => some (spiNoData config, io, polls)

/-! ## `hpm_spi_xfer` -/

/-- `struct rt_spi_message`. -/
structure RtSpiMessage where
  sendBuf : Option Nat
  recvBuf : Option Nat
  length : Nat
  csTake : Bool
  csRelease : Bool

/-- The transfer for some words of a message, from where the pointers are. -/
def RtSpiMessage.transfer (msg : RtSpiMessage) (datalen : Nat) (config : SpiControlConfig)
    (txBuf rxBuf : Option Nat) (transferLen : Nat) (polls : List SpiPoll) (io : SpiIo) :
    Option (SpiStat × SpiIo × List SpiPoll) :=
  if msg.sendBuf ≠ none ∧ msg.recvBuf ≠ none then
    spiTransfer datalen { config with transMode := .writeReadTogether } none none
      txBuf transferLen rxBuf transferLen polls io
  else if msg.sendBuf ≠ none then
    spiTransfer datalen { config with transMode := .writeOnly } none none
      txBuf transferLen none 0 polls io
  else
    spiTransfer datalen { config with transMode := .readOnly } none none
      none 0 rxBuf transferLen polls io

/-- The most words of one transfer. -/
def spiChunk : Nat := 512

/-- `while (remaining_size > 0)`; the pointers go on by the number of words. -/
def hpmSpiXferLoop (msg : RtSpiMessage) (datalen : Nat) (config : SpiControlConfig)
    (remaining : Nat) (txBuf rxBuf : Option Nat) (polls : List SpiPoll) (io : SpiIo) :
    Option (SpiStat × SpiIo × List SpiPoll) :=
  if _h : remaining = 0 then some (.success, io, polls)
  else
    let transferLen := min spiChunk remaining
    (msg.transfer datalen config txBuf rxBuf transferLen polls io).bind fun r =>
      if r.1 ≠ .success then some r
      else
        hpmSpiXferLoop msg datalen config (remaining - transferLen) (txBuf.map (· + transferLen))
          (rxBuf.map (· + transferLen)) r.2.2 r.2.1
termination_by remaining
decreasing_by
  unfold spiChunk
  omega

/-- `hpm_spi_xfer`: the length that is returned, memory and what happened. -/
def hpmSpiXfer (datalen : Nat) (config : SpiControlConfig) (csPin : Bool) (msg : RtSpiMessage)
    (polls : List SpiPoll) (mem : Nat → BitVec 8) : Option (Nat × SpiIo) :=
  let taken := if csPin ∧ msg.csTake then [.cs true] else []
  (hpmSpiXferLoop msg datalen config msg.length msg.sendBuf msg.recvBuf polls ⟨mem, taken⟩).map
    fun r =>
      let released := if csPin ∧ msg.csRelease then [.cs false] else []
      (if r.1 = .success then msg.length else 0, { r.2.1 with log := r.2.1.log ++ released })

/-! ## The contract -/

/-- The words that are sent and stored. -/
def SpiEvent.isWord : SpiEvent → Bool
  | .sent _ _ | .stored _ _ => true
  | .cs _ => false

/-- What is asked of a message: a call that returns did what one transfer of all its words
does for some statuses, it returns the length of the message where this succeeds and 0 where
it does not, and it has released chip select at the end where that is asked. -/
def SpiXferMatches (datalen : Nat) (msg : RtSpiMessage) : Prop :=
  ∀ config csPin polls mem length io,
    hpmSpiXfer datalen config csPin msg polls mem = some (length, io) →
    (∃ wholePolls status whole rest,
      msg.transfer datalen config msg.sendBuf msg.recvBuf msg.length wholePolls ⟨mem, []⟩ =
        some (status, whole, rest) ∧
      io.mem = whole.mem ∧ io.log.filter SpiEvent.isWord = whole.log ∧
      length = if status = .success then msg.length else 0) ∧
    (csPin = true → msg.csRelease = true → io.log.getLast? = some (.cs false))

end HpmSdk.Spi
