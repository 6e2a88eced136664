import HpmSdk.Foundation.Bytes
import HpmSdk.Foundation.Registers

set_option autoImplicit false

/-!
# I2C: transfers (`hpm_i2c_drv.c`)

The polled transfers of the I2C controller.  What the driver reads from the controller is
given by a `I2cBus`: `STATUS` at every read, the byte at every read of `DATA`, and `CTRL`
after a transfer.  What it writes is a log of events.
-/

namespace HpmSdk.I2c

open HpmSdk.Foundation

/-! ## Registers -/

/-- `HPM_I2C_DRV_DEFAULT_RETRY_COUNT`. -/
def i2cRetryCount : Nat := 5000

/-- `I2C_SOC_FIFO_SIZE`. -/
def i2cFifoSize : Nat := 4

/-- `I2C_STATUS_CMPL_MASK`. -/
def i2cStatusCmpl : BitVec 32 := 0x200

/-- `I2C_STATUS_ADDRHIT_MASK`. -/
def i2cStatusAddrhit : BitVec 32 := 0x8

/-- `I2C_STATUS_FIFOFULL_MASK`. -/
def i2cStatusFifofull : BitVec 32 := 0x2

/-- `I2C_STATUS_FIFOEMPTY_MASK`. -/
def i2cStatusFifoempty : BitVec 32 := 0x1

/-- `PHASE_START`, `PHASE_STOP`, `PHASE_ADDR` and `PHASE_DATA` of `CTRL`. -/
def i2cCtrlPhases : BitVec 32 := 0x1000 ||| 0x200 ||| 0x800 ||| 0x400

/-- `I2C_CTRL_DIR`. -/
def i2cCtrlDir : RegField := ⟨8, 1⟩

/-- `I2C_CTRL_DATACNT`. -/
def i2cCtrlDatacnt : RegField := ⟨0, 8⟩

/-- `I2C_ADDR_ADDR`. -/
def i2cAddrAddr : RegField := ⟨0, 10⟩

/-- `I2C_DIR_MASTER_WRITE`. -/
def i2cDirMasterWrite : BitVec 32 := 0

/-- `I2C_DIR_MASTER_READ`. -/
def i2cDirMasterRead : BitVec 32 := 1

/-- The commands that are written to `CMD`. -/
inductive I2cCmd where
  | issueDataTransmission
  | clearFifo
  | reset
  deriving DecidableEq, Repr

/-- The `hpm_stat_t` values of a transfer. -/
inductive I2cStat where
  | success
  | fail
  | timeout
  | transmitNotCompleted
  deriving DecidableEq, Repr

/-! ## The controller and the state of the driver -/

/-- What the driver reads: `STATUS` at its `n`-th read, the byte at the `n`-th read of `DATA`,
and `CTRL` where the count of a transfer is read back. -/
structure I2cBus where
  status : Nat → BitVec 32
  data : Nat → UInt8
  ctrl : BitVec 32

/-- An access to a register. -/
inductive I2cEvent where
  | status (v : BitVec 32)
  | setStatus (v : BitVec 32)
  | cmd (c : I2cCmd)
  | ctrl (v : BitVec 32)
  | addr (v : BitVec 32)
  | inten (v : BitVec 32)
  | push (b : UInt8)
  | pop (b : UInt8)
  deriving DecidableEq, Repr

/-- Memory, what happened so far, and how often `STATUS` and `DATA` were read. -/
structure I2cState where
  mem : Buf
  log : List I2cEvent
  polls : Nat
  pops : Nat

namespace I2cState

/-- Something is written. -/
def put (s : I2cState) (e : I2cEvent) : I2cState := { s with log := s.log ++ [e] }

/-- `ptr->STATUS` is read. -/
def poll (bus : I2cBus) (s : I2cState) : I2cState :=
  { s with log := s.log ++ [.status (bus.status s.polls)], polls := s.polls + 1 }

/-- `ptr->STATUS |= mask`. -/
def orStatus (bus : I2cBus) (mask : BitVec 32) (s : I2cState) : I2cState :=
  (s.poll bus).put (.setStatus (bus.status s.polls ||| mask))

/-- `ptr->DATA = *buf`. -/
def push (buf : Nat) (s : I2cState) : I2cState := s.put (.push (s.mem buf))

/-- `*buf = ptr->DATA`. -/
def pop (bus : I2cBus) (buf : Nat) (s : I2cState) : I2cState :=
  { s with
    mem := s.mem.set buf (bus.data s.pops)
    log := s.log ++ [.pop (bus.data s.pops)]
    pops := s.pops + 1 }

end I2cState

/-- `i2c_get_data_count`. -/
def i2cGetDataCount (bus : I2cBus) : BitVec 8 := (i2cCtrlDatacnt.get bus.ctrl).setWidth 8

/-- `CTRL` with all phases. -/
def i2cCtrl (dir count : BitVec 32) : BitVec 32 :=
  i2cCtrlPhases ||| i2cCtrlDir.set dir ||| i2cCtrlDatacnt.set count

/-- `I2C_ADDR_ADDR_SET(device_address)`. -/
def i2cAddr (device : BitVec 16) : BitVec 32 := i2cAddrAddr.set (device.setWidth 32)

/-! ## Loops

A loop gives `retry` at its end. -/

section Loops

variable (bus : I2cBus)

/-- `while (!(ptr->STATUS & I2C_STATUS_CMPL_MASK))`. -/
def i2cWaitCmpl (retry : Nat) (s : I2cState) : Nat × I2cState :=
  if bus.status s.polls &&& i2cStatusCmpl ≠ 0 then (retry, s.poll bus)
  else if i2cRetryCount < retry then (retry, s.poll bus)
  else i2cWaitCmpl (retry + 1) (s.poll bus)
termination_by i2cRetryCount + 1 - retry

/-- `while (left)` around a read of `STATUS`: where the bit `busy` is clear a byte is moved,
with the number of bytes that are left after it. -/
def i2cDataLoop (busy : BitVec 32) (move : Nat → Nat → I2cState → I2cState) :
    Nat → Nat → Nat → I2cState → Nat × I2cState
  | 0, retry, _, s => (retry, s)
  | left + 1, retry, buf, s =>
    if bus.status s.polls &&& busy = 0 then
      i2cDataLoop busy move left 0 (buf + 1) (move buf left (s.poll bus))
    else if i2cRetryCount < retry then (retry, s.poll bus)
    else i2cDataLoop busy move (left + 1) (retry + 1) buf (s.poll bus)
termination_by left retry _ _ => (left, i2cRetryCount + 1 - retry)

/-- `while (left) { ptr->DATA = *(addr++); left--; }`. -/
def i2cPushAddress : Nat → Nat → I2cState → I2cState
  | 0, _, s => s
  | left + 1, addr, s => i2cPushAddress left (addr + 1) (s.push addr)

/-- `while (retry < HPM_I2C_DRV_DEFAULT_RETRY_COUNT)` of `i2c_slave_write`. -/
def i2cSlaveWriteLoop (b : UInt8) (retry : Nat) (s : I2cState) : Nat × I2cState :=
  if retry < i2cRetryCount then
    if bus.status s.polls &&& i2cStatusFifofull = 0 then (retry, (s.poll bus).put (.push b))
    else if i2cRetryCount < retry then (retry, s.poll bus)
    else i2cSlaveWriteLoop b (retry + 1) (s.poll bus)
  else (retry, s)
termination_by i2cRetryCount - retry

/-- The byte of `i2c_master_write`: the transmission is issued after it. -/
def i2cMasterWriteByte (buf _left : Nat) (s : I2cState) : I2cState :=
  (s.push buf).put (.cmd .issueDataTransmission)

/-- The byte of `i2c_master_read`: the transmission is issued again where bytes are left. -/
def i2cMasterReadByte (buf left : Nat) (s : I2cState) : I2cState :=
  if left ≠ 0 then (s.pop bus buf).put (.cmd .issueDataTransmission) else s.pop bus buf

end Loops

/-! ## Transfers -/

section Transfers

variable (bus : I2cBus)

/-- `i2c_master_address_read`. -/
def i2cMasterAddressRead (device : BitVec 16) (addr : Nat) (addrSize : BitVec 8) (buf : Nat)
    (size : BitVec 32) (s : I2cState) : I2cStat × I2cState :=
  let s := s.put (.cmd .reset)
  let s := s.put (.cmd .clearFifo)
  let s := s.put (.ctrl (i2cCtrl i2cDirMasterWrite (addrSize.setWidth 32)))
  let s := s.put (.addr (i2cAddr device))
  let s := i2cPushAddress addrSize.toNat addr s
  let s := s.put (.cmd .issueDataTransmission)
  let r := i2cWaitCmpl bus 0 s
  if i2cRetryCount < r.1 then (.timeout, r.2)
  else
    let s := r.2.put (.cmd .clearFifo)
    let s := s.put (.ctrl (i2cCtrl i2cDirMasterRead size))
    let s := s.put (.cmd .issueDataTransmission)
    let r := i2cDataLoop bus i2cStatusFifoempty (fun buf _ => I2cState.pop bus buf)
      size.toNat 0 buf s
    if i2cRetryCount < r.1 then (.timeout, r.2)
    else
      let r := i2cWaitCmpl bus 0 r.2
      if i2cRetryCount < r.1 then (.timeout, r.2)
      else (.success, r.2.orStatus bus i2cStatusCmpl)

/-- `i2c_master_address_write`. -/
def i2cMasterAddressWrite (device : BitVec 16) (addr : Nat) (addrSize : BitVec 8) (buf : Nat)
    (size : BitVec 32) (s : I2cState) : I2cStat × I2cState :=
  let s := s.put (.cmd .reset)
  let s := s.put (.cmd .clearFifo)
  let s := s.put (.addr (i2cAddr device))
  let s := s.put (.ctrl (i2cCtrl i2cDirMasterWrite (size + addrSize.setWidth 32)))
  let s := i2cPushAddress addrSize.toNat addr s
  let s := s.put (.cmd .issueDataTransmission)
  let r := i2cDataLoop bus i2cStatusFifofull (fun buf _ => I2cState.push buf) size.toNat 0 buf s
  if i2cRetryCount < r.1 then (.timeout, r.2)
  else
    let r := i2cWaitCmpl bus 0 r.2
    if i2cRetryCount < r.1 then (.timeout, r.2)
    else (.success, (r.2.orStatus bus i2cStatusCmpl).put (.cmd .reset))

/-- `i2c_master_read`. -/
def i2cMasterRead (device : BitVec 16) (buf : Nat) (size : BitVec 32) (s : I2cState) :
    I2cStat × I2cState :=
  let s := s.put (.cmd .clearFifo)
  let s := s.put (.addr (i2cAddr device))
  let s := s.put (.ctrl (i2cCtrl i2cDirMasterRead size))
  let s := s.put (.cmd .issueDataTransmission)
  let r := i2cDataLoop bus i2cStatusFifoempty (i2cMasterReadByte bus) size.toNat 0 buf s
  if i2cRetryCount < r.1 then (.timeout, r.2)
  else
    let r := i2cWaitCmpl bus 0 r.2
    if i2cRetryCount < r.1 then (.timeout, r.2)
    else if bus.status r.2.polls &&& i2cStatusAddrhit = 0 then (.fail, r.2.poll bus)
    else
      let s := (r.2.poll bus).orStatus bus (i2cStatusCmpl ||| i2cStatusAddrhit)
      let s := s.put (.inten 0)
      if i2cGetDataCount bus ≠ 0 then (.transmitNotCompleted, s) else (.success, s)

/-- `i2c_master_write`. -/
def i2cMasterWrite (device : BitVec 16) (buf : Nat) (size : BitVec 32) (s : I2cState) :
    I2cStat × I2cState :=
  let s := s.put (.cmd .clearFifo)
  let s := s.put (.addr (i2cAddr device))
  let s := s.put (.ctrl (i2cCtrl i2cDirMasterWrite size))
  let r := i2cDataLoop bus i2cStatusFifofull i2cMasterWriteByte size.toNat 0 buf s
  if i2cRetryCount < r.1 then (.timeout, r.2)
  else
    let r := i2cWaitCmpl bus 0 r.2
    if i2cRetryCount < r.1 then (.timeout, r.2)
    else
      let s := r.2.orStatus bus i2cStatusCmpl
      let s := s.put (.inten 0)
      if i2cGetDataCount bus ≠ 0 then (.transmitNotCompleted, s)
      else (.success, s.put (.cmd .reset))

/-- `i2c_slave_write`. -/
def i2cSlaveWrite (b : UInt8) (s : I2cState) : I2cStat × I2cState :=
  let r := i2cSlaveWriteLoop bus b 0 s
  if i2cRetryCount < r.1 then (.timeout, r.2) else (.success, r.2)

/-- `i2c_slave_read`. -/
def i2cSlaveRead (buf : Nat) (size : BitVec 32) (s : I2cState) : I2cStat × I2cState :=
  let r := i2cDataLoop bus i2cStatusFifoempty (fun buf _ => I2cState.pop bus buf)
    size.toNat 0 buf s
  if i2cRetryCount < r.1 then (.timeout, r.2) else (.success, r.2)

end Transfers

/-! ## Calls and what is asked of them -/

/-- A call of a transfer function; memory addresses are numbers. -/
inductive I2cCall where
  | masterWrite (device : BitVec 16) (buf : Nat) (size : BitVec 32)
  | masterRead (device : BitVec 16) (buf : Nat) (size : BitVec 32)
  | masterAddressWrite (device : BitVec 16) (addr : Nat) (addrSize : BitVec 8) (buf : Nat)
      (size : BitVec 32)
  | masterAddressRead (device : BitVec 16) (addr : Nat) (addrSize : BitVec 8) (buf : Nat)
      (size : BitVec 32)
  | slaveWrite (b : UInt8)
  | slaveRead (buf : Nat) (size : BitVec 32)
  deriving DecidableEq, Repr

namespace I2cCall

/-- The call. -/
def run (bus : I2cBus) (s : I2cState) : I2cCall → I2cStat × I2cState
  | masterWrite device buf size => i2cMasterWrite bus device buf size s
  | masterRead device buf size => i2cMasterRead bus device buf size s
  | masterAddressWrite device addr addrSize buf size =>
    i2cMasterAddressWrite bus device addr addrSize buf size s
  | masterAddressRead device addr addrSize buf size =>
    i2cMasterAddressRead bus device addr addrSize buf size s
  | slaveWrite b => i2cSlaveWrite bus b s
  | slaveRead buf size => i2cSlaveRead bus buf size s

/-- The number of data bytes. -/
def size : I2cCall → Nat
  | masterWrite _ _ size | masterRead _ _ size | masterAddressWrite _ _ _ _ size
  | masterAddressRead _ _ _ _ size | slaveRead _ size => size.toNat
  | slaveWrite _ => 1

/-- The bytes that are to be pushed, of the memory before the call. -/
def toPush (mem : Buf) : I2cCall → List UInt8
  | masterWrite _ buf size => mem.toList buf size.toNat
  | masterAddressWrite _ addr addrSize buf size =>
    mem.toList addr addrSize.toNat ++ mem.toList buf size.toNat
  | masterAddressRead _ addr addrSize _ _ => mem.toList addr addrSize.toNat
  | slaveWrite b => [b]
  | masterRead _ _ _ | slaveRead _ _ => []

/-- The bytes that are to be popped, of the memory after the call. -/
def toPop (mem : Buf) : I2cCall → List UInt8
  | masterRead _ buf size | masterAddressRead _ _ _ buf size | slaveRead buf size =>
    mem.toList buf size.toNat
  | masterWrite _ _ _ | masterAddressWrite _ _ _ _ _ | slaveWrite _ => []

/-- The byte counts of the transactions that the call issues. -/
def counts : I2cCall → List Nat
  | masterWrite _ _ size | masterRead _ _ size => [size.toNat]
  | masterAddressWrite _ _ addrSize _ size => [size.toNat + addrSize.toNat]
  | masterAddressRead _ _ addrSize _ size => [addrSize.toNat, size.toNat]
  | slaveWrite _ | slaveRead _ _ => []

end I2cCall

namespace I2cEvent

/-- The byte that is pushed. -/
def pushed? : I2cEvent → Option UInt8
  | push b => some b
  | _ => none

/-- The byte that is popped. -/
def popped? : I2cEvent → Option UInt8
  | pop b => some b
  | _ => none

/-- The count that is programmed: `DATACNT` of `CTRL`, where 0 means 256 bytes. -/
def count? : I2cEvent → Option Nat
  | ctrl v =>
    some (if i2cCtrlDatacnt.get v = 0 then 256 else (i2cCtrlDatacnt.get v).toNat)
  | _ => none

end I2cEvent

/-- What is known of the FIFO: so many bytes have room in it, and so many are in it. -/
structure I2cFifo where
  room : Nat
  held : Nat
  deriving DecidableEq, Repr

/-- An event and what is known of the FIFO after it: nothing may be pushed where no room is
known, and nothing popped where no byte is known to be there. -/
def I2cFifo.step (f : I2cFifo) : I2cEvent → Option I2cFifo
  | .status v =>
    some ⟨if v &&& i2cStatusFifofull = 0 then max 1 f.room else 0,
      if v &&& i2cStatusFifoempty = 0 then max 1 f.held else 0⟩
  | .cmd .clearFifo | .cmd .reset => some ⟨i2cFifoSize, 0⟩
  | .push _ => if f.room = 0 then none else some ⟨f.room - 1, f.held⟩
  | .pop _ => if f.held = 0 then none else some ⟨f.room, f.held - 1⟩
  | .cmd .issueDataTransmission | .setStatus _ | .ctrl _ | .addr _ | .inten _ => some f

/-- The events one after the other. -/
def I2cFifo.run (f : I2cFifo) (log : List I2cEvent) : Option I2cFifo :=
  log.foldlM I2cFifo.step f

/-- The bytes were transferred: those of the buffers, in order, none into a full FIFO and none
out of an empty one, under the counts that were programmed. -/
structure I2cDelivered (call : I2cCall) (mem : Buf) (s : I2cState) : Prop where
  pushed : s.log.filterMap I2cEvent.pushed? = call.toPush mem
  popped : s.log.filterMap I2cEvent.popped? = call.toPop s.mem
  fifo : (I2cFifo.run ⟨0, 0⟩ s.log).isSome
  counted : s.log.filterMap I2cEvent.count? = call.counts

/-- The most reads of `STATUS` of a call. -/
def i2cPollBound (size : Nat) : Nat := (i2cRetryCount + 2) * (size + 2) + 2

/-- What is asked of a call: it ends after a bounded number of polls, and where it gives
`status_success` the bytes were transferred. -/
def I2cMeets (bus : I2cBus) (mem : Buf) (call : I2cCall) : Prop :=
  let r := call.run bus ⟨mem, [], 0, 0⟩
  r.2.polls ≤ i2cPollBound call.size ∧ (r.1 = .success → I2cDelivered call mem r.2)

/-- The byte counts of a call are within `DATACNT`, and the address is within the FIFO. -/
def I2cCall.Fits : I2cCall → Prop
  | masterWrite _ _ size | masterRead _ _ size => size.toNat ≤ 256
  | masterAddressWrite _ _ addrSize _ size =>
    addrSize.toNat ≤ i2cFifoSize ∧ size.toNat + addrSize.toNat ≤ 256
  | masterAddressRead _ _ addrSize _ size =>
    1 ≤ addrSize.toNat ∧ addrSize.toNat ≤ i2cFifoSize ∧ size.toNat ≤ 256
  | slaveWrite _ => False
  | slaveRead _ _ => True

/-- The FIFO has room at one of the first `HPM_I2C_DRV_DEFAULT_RETRY_COUNT` reads of
`STATUS`. -/
def I2cBus.Drains (bus : I2cBus) : Prop :=
  ∃ i < i2cRetryCount, bus.status i &&& i2cStatusFifofull = 0

end HpmSdk.I2c
