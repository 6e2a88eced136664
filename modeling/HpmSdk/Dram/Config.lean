import HpmSdk.Foundation.Registers
import Mathlib.Logic.Function.Basic

set_option autoImplicit false

/-!
# DRAM: configuring an SDRAM (`hpm_dram_drv.c`, `hpm_dram_drv.h`)

The timings of the memory are converted to cycles and written to fields of registers.  Then the
memory is initialised by commands, each of which is polled for.
-/

namespace HpmSdk.Dram

open HpmSdk.Foundation

/-! ## Status and registers -/

/-- `status_success`. -/
def statusSuccess : BitVec 32 := 0

/-- `status_invalid_argument`. -/
def statusInvalidArgument : BitVec 32 := 2

/-- `status_timeout`. -/
def statusTimeout : BitVec 32 := 3

/-- `status_dram_cmd_err`, code 1 of group 9. -/
def statusDramCmdErr : BitVec 32 := 9 * 1000 + 1

/-- The control registers of the SDRAM. -/
structure DramSdrctrl where
  sdrctrl0 : BitVec 32
  sdrctrl1 : BitVec 32
  sdrctrl2 : BitVec 32
  sdrctrl3 : BitVec 32

/-- `DRAM_Type`: what the driver has written, with the commands that were issued so far and what
was written to `INTR`. -/
structure DramBase where
  br : BitVec 8 → BitVec 32
  sdrctrl : DramSdrctrl
  saddr : BitVec 32
  datsz : BitVec 32
  bytemsk : BitVec 32
  iptx : BitVec 32
  dlycfg : BitVec 32
  ipcmd : List (BitVec 32)
  intr : List (BitVec 32)

/-- What the controller shows behind a command: `INTR` at each poll, and `IPRX`. -/
structure DramReply where
  intr : Nat → BitVec 32
  iprx : BitVec 32

/-- The reply to each command, by the number of commands in front of it. -/
abbrev DramHw : Type := Nat → DramReply

/-! ## Commands -/

/-- `DRAM_INTR_IPCMDERR`. -/
def dramIntrIpcmderr : RegField := ⟨1, 1⟩

/-- `DRAM_INTR_IPCMDDONE`. -/
def dramIntrIpcmddone : RegField := ⟨0, 1⟩

/-- `DRAM_INTR_IPCMDDONE_MASK | DRAM_INTR_IPCMDERR_MASK`. -/
def dramIntrFlags : BitVec 32 := dramIntrIpcmddone.mask 32 ||| dramIntrIpcmderr.mask 32

/-- `HPM_DRAM_DRV_RETRY_COUNT`. -/
def hpmDramDrvRetryCount : Nat := 5000

/-- The loop of `dram_ip_cmd_done`, with `retry` and `intr_status` behind it. -/
def dramPoll (reply : DramReply) (retry : Nat) : Nat × BitVec 32 :=
  if hpmDramDrvRetryCount < retry then (retry, 0)
  else
    let intrStatus := reply.intr retry &&& dramIntrFlags
    if intrStatus = 0 then dramPoll reply (retry + 1) else (retry + 1, intrStatus)
termination_by hpmDramDrvRetryCount + 1 - retry
decreasing_by omega

/-- `dram_ip_cmd_done`. -/
def dramIpCmdDone (reply : DramReply) (ptr : DramBase) : BitVec 32 × DramBase :=
  let r := dramPoll reply 0
  if hpmDramDrvRetryCount < r.1 then (statusTimeout, ptr)
  else
    let ptr := { ptr with intr := ptr.intr ++ [reply.intr r.1 ||| dramIntrFlags] }
    if r.2 &&& dramIntrIpcmderr.mask 32 ≠ 0 then (statusDramCmdErr, ptr) else (statusSuccess, ptr)

/-- `dram_cmd_t`. -/
structure DramCmd where
  opcode : BitVec 32
  data : BitVec 32

/-- `DRAM_CMD_WRITE_FLAG`. -/
def dramCmdWriteFlag : BitVec 32 := 1 <<< 31

/-- `DRAM_CMD_KEY`. -/
def dramCmdKey : BitVec 32 := (⟨16, 16⟩ : RegField).set 0xA55A

/-- `DRAM_CMD_SDRAM_PRECHARGE_ALL`. -/
def dramCmdSdramPrechargeAll : BitVec 32 := 0xF

/-- `DRAM_CMD_SDRAM_AUTO_REFRESH`. -/
def dramCmdSdramAutoRefresh : BitVec 32 := 0xC

/-- `DRAM_CMD_SDRAM_MODE_SET`. -/
def dramCmdSdramModeSet : BitVec 32 := dramCmdWriteFlag ||| 0xA

/-- `dram_make_cmd`. -/
def dramMakeCmd (opcode : BitVec 32) : BitVec 32 := (opcode &&& ~~~dramCmdWriteFlag) ||| dramCmdKey

/-- `dram_is_write_cmd`. -/
def dramIsWriteCmd (opcode : BitVec 32) : Bool :=
  decide (opcode &&& dramCmdWriteFlag = dramCmdWriteFlag)

/-- `dram_issue_ip_cmd`; `hpm_stat_t` is unsigned. -/
def dramIssueIpCmd (hw : DramHw) (ptr : DramBase) (baseAddress : BitVec 32) (cmd : DramCmd) :
    BitVec 32 × DramBase × DramCmd :=
  let reply := hw ptr.ipcmd.length
  let readData := !dramIsWriteCmd cmd.opcode
  let ptr := { ptr with
    saddr := baseAddress
    iptx := if readData then ptr.iptx else cmd.data
    ipcmd := ptr.ipcmd ++ [dramMakeCmd cmd.opcode] }
  let done := dramIpCmdDone reply ptr
  if done.1 < 0 then (statusDramCmdErr, done.2, cmd)
  else (statusSuccess, done.2, if readData then { cmd with data := reply.iprx } else cmd)

/-! ## The configuration -/

/-- `dram_sdram_config_t`, without `cs_mux_pin`, which nothing reads. -/
structure DramSdramConfig where
  baseAddress : BitVec 32
  sizeInByte : BitVec 32
  refreshCount : BitVec 32
  colAddrBits : BitVec 8
  casLatency : BitVec 8
  cs : BitVec 8
  bankNum : BitVec 8
  prescaler : BitVec 8
  portSize : BitVec 8
  burstLenInByte : BitVec 8
  ckeOffInNs : BitVec 8
  actToPrechargeInNs : BitVec 8
  prechargeToActInNs : BitVec 8
  actToRwInNs : BitVec 8
  actToActInNs : BitVec 8
  refreshToRefreshInNs : BitVec 8
  writeRecoverInNs : BitVec 8
  selfRefreshRecoverInNs : BitVec 8
  refreshRecoverInNs : BitVec 8
  refreshInMs : BitVec 8
  idleTimeoutInNs : BitVec 8
  dataWidthInByte : BitVec 8
  autoRefreshCountInOneBurst : BitVec 8
  delayCellValue : BitVec 8

/-- `dram_get_typical_sdram_config`; `HPM_DRAM_DRV_DEFAULT_PRESCALER` is 3. -/
def dramGetTypicalSdramConfig (config : DramSdramConfig) : DramSdramConfig :=
  { config with
    colAddrBits := 3
    casLatency := 3
    bankNum := 0
    prescaler := 3
    burstLenInByte := 8
    autoRefreshCountInOneBurst := 1
    prechargeToActInNs := 20
    actToRwInNs := 20
    refreshRecoverInNs := 70
    writeRecoverInNs := 12
    ckeOffInNs := 42
    actToPrechargeInNs := 42
    selfRefreshRecoverInNs := 70
    refreshToRefreshInNs := 60
    actToActInNs := 12
    idleTimeoutInNs := 6 }

/-- 8192 refreshes in 64 ms of a memory at 0x40000000 with 32 MB, otherwise the typical one. -/
def dramBoardConfig : DramSdramConfig :=
  dramGetTypicalSdramConfig {
    baseAddress := 0x40000000
    sizeInByte := 0x2000000
    refreshCount := 8192
    colAddrBits := 0
    casLatency := 0
    cs := 0
    bankNum := 0
    prescaler := 0
    portSize := 2
    burstLenInByte := 0
    ckeOffInNs := 0
    actToPrechargeInNs := 0
    prechargeToActInNs := 0
    actToRwInNs := 0
    actToActInNs := 0
    refreshToRefreshInNs := 0
    writeRecoverInNs := 0
    selfRefreshRecoverInNs := 0
    refreshRecoverInNs := 0
    refreshInMs := 64
    idleTimeoutInNs := 0
    dataWidthInByte := 4
    autoRefreshCountInOneBurst := 0
    delayCellValue := 29 }

/-- `while (size_in_kb > 1)`. -/
def dramSizeLoop (sizeInKb : Nat) (size : BitVec 8) : BitVec 8 :=
  if 1 < sizeInKb then dramSizeLoop (sizeInKb >>> 1) (size + 1) else size
termination_by sizeInKb
decreasing_by
  rw [Nat.shiftRight_eq_div_pow]
  omega

/-- `dram_convert_actual_size_to_memory_size`. -/
def dramConvertActualSizeToMemorySize (sizeInKb : BitVec 32) : BitVec 8 :=
  if sizeInKb = 4 then 0
  else if 2 * 1 <<< 20 < sizeInKb then 0x1F
  else dramSizeLoop (sizeInKb >>> 3).toNat 1

/-- `DRAM_SDRAM_MAX_BURST_LENGTH_IN_BYTE`. -/
def dramSdramMaxBurstLengthInByte : BitVec 8 := 8

/-- `dram_convert_burst_len`. -/
def dramConvertBurstLen (burstLenInByte : BitVec 8) : BitVec 8 :=
  if burstLenInByte = 0 ∨ dramSdramMaxBurstLengthInByte < burstLenInByte then
    dramSdramMaxBurstLengthInByte + 1
  else if burstLenInByte = 1 ∨ burstLenInByte = 2 ∨ burstLenInByte = 4 then burstLenInByte >>> 1
  else if burstLenInByte = 8 then (burstLenInByte - 1) >>> 1
  else dramSdramMaxBurstLengthInByte + 1

/-- `ns2cycle`; the core divides by zero to the largest number. -/
def ns2cycle (freqInHz ns : BitVec 32) : BitVec 32 :=
  let nsPerCycle := (1000000000#32).smtUDiv freqInHz
  if ns < nsPerCycle then 1 else ns.smtUDiv nsPerCycle

/-- `DRAM_PRESCALER_MAX`. -/
def dramPrescalerMax : BitVec 32 := 256

namespace DramSdramConfig

variable (clkInHz : BitVec 32) (config : DramSdramConfig)

/-- `prescaler`. -/
def prescalerOf : BitVec 32 :=
  if config.prescaler = 0 then dramPrescalerMax else config.prescaler.setWidth 32

/-- `refresh_cycle`. -/
def refreshCycle : BitVec 32 :=
  (((clkInHz / 1000) * config.refreshInMs.setWidth 32).smtUDiv config.refreshCount).smtUDiv
    (config.prescalerOf <<< 4)

/-- `dram_config_sdram` does not reject the configuration. -/
def Accepted : Prop :=
  ¬ (config.prescalerOf = 0 ∨ dramPrescalerMax < config.prescalerOf ∨
    config.refreshCycle clkInHz = 0 ∨ dramPrescalerMax < config.refreshCycle clkInHz)

instance : Decidable (config.Accepted clkInHz) := inferInstanceAs (Decidable (¬ _))

/-- The number of cycles for a time. -/
def cycles (ns : BitVec 8) : BitVec 32 := ns2cycle clkInHz (ns.setWidth 32)

/-- The largest number is written as 0. -/
def wrapped (n : BitVec 32) : BitVec 32 := if n = dramPrescalerMax then 0 else n

/-- The control registers, with refreshing still disabled. -/
def sdrctrl : DramSdrctrl where
  sdrctrl0 := RegField.sets [
    (⟨0, 2⟩, config.portSize.setWidth 32),
    (⟨4, 3⟩, (dramConvertBurstLen config.burstLenInByte).setWidth 32),
    (⟨8, 2⟩, config.colAddrBits.setWidth 32),
    (⟨10, 2⟩, config.casLatency.setWidth 32),
    (⟨14, 1⟩, config.bankNum.setWidth 32)]
  sdrctrl1 := RegField.sets [
    (⟨0, 4⟩, cycles clkInHz config.prechargeToActInNs),
    (⟨4, 4⟩, cycles clkInHz config.actToRwInNs),
    (⟨8, 5⟩, cycles clkInHz config.refreshRecoverInNs),
    (⟨13, 3⟩, cycles clkInHz config.writeRecoverInNs),
    (⟨16, 4⟩, cycles clkInHz config.ckeOffInNs),
    (⟨20, 4⟩, cycles clkInHz config.actToPrechargeInNs)]
  sdrctrl2 := RegField.sets [
    (⟨0, 8⟩, cycles clkInHz config.selfRefreshRecoverInNs),
    (⟨8, 8⟩, cycles clkInHz config.refreshToRefreshInNs),
    (⟨16, 8⟩, cycles clkInHz config.actToActInNs),
    (⟨24, 8⟩, cycles clkInHz config.idleTimeoutInNs)]
  sdrctrl3 := RegField.sets [
    (⟨8, 8⟩, wrapped config.prescalerOf),
    (⟨16, 8⟩, wrapped (config.refreshCycle clkInHz)),
    (⟨24, 8⟩, wrapped (config.refreshCycle clkInHz)),
    (⟨1, 3⟩, config.autoRefreshCountInOneBurst.setWidth 32 - 1)]

end DramSdramConfig

/-- `dram_config_delay_cell`. -/
def dramConfigDelayCell (ptr : DramBase) (delayCellValue : BitVec 32) : DramBase :=
  { ptr with
    dlycfg := (⟨1, 5⟩ : RegField).set delayCellValue ||| (⟨0, 1⟩ : RegField).mask 32 |||
      (⟨13, 1⟩ : RegField).mask 32 }

/-- `if (status_success != err) { return err; }`. -/
def dramThen (r : BitVec 32 × DramBase × DramCmd)
    (next : DramBase → DramCmd → BitVec 32 × DramBase) : BitVec 32 × DramBase :=
  if statusSuccess ≠ r.1 then (r.1, r.2.1) else next r.2.1 r.2.2

/-- The commands of `dram_config_sdram`. -/
def dramInitSdram (hw : DramHw) (ptr : DramBase) (config : DramSdramConfig) :
    BitVec 32 × DramBase :=
  let issue := fun ptr cmd => dramIssueIpCmd hw ptr config.baseAddress cmd
  dramThen (issue ptr ⟨dramCmdSdramPrechargeAll, 0⟩) fun ptr cmd =>
  dramThen (issue ptr { cmd with opcode := dramCmdSdramAutoRefresh }) fun ptr cmd =>
  dramThen (issue ptr cmd) fun ptr cmd =>
  let ptr := dramConfigDelayCell { ptr with
    datsz := (⟨0, 3⟩ : RegField).set (config.dataWidthInByte.setWidth 32 &&& 0x3)
    bytemsk := 0 } (config.delayCellValue.setWidth 32)
  dramThen (issue ptr { cmd with opcode := dramCmdSdramPrechargeAll, data := 0 }) fun ptr cmd =>
  dramThen (issue ptr { cmd with opcode := dramCmdSdramAutoRefresh }) fun ptr cmd =>
  dramThen (issue ptr cmd) fun ptr cmd =>
  dramThen (issue ptr { cmd with
    opcode := dramCmdSdramModeSet
    data := (dramConvertBurstLen config.burstLenInByte).setWidth 32 |||
      config.casLatency.setWidth 32 <<< 4 }) fun ptr _ =>
  (statusSuccess, { ptr with
    sdrctrl := { ptr.sdrctrl with
      sdrctrl3 := ptr.sdrctrl.sdrctrl3 ||| (⟨0, 1⟩ : RegField).mask 32 } })

/-- `dram_config_sdram`. -/
def dramConfigSdram (hw : DramHw) (ptr : DramBase) (clkInHz : BitVec 32)
    (config : DramSdramConfig) : BitVec 32 × DramBase :=
  if ¬ config.Accepted clkInHz then (statusInvalidArgument, ptr)
  else dramInitSdram hw { ptr with
    br := Function.update ptr.br config.cs
      ((⟨12, 20⟩ : RegField).set (config.baseAddress >>> 12) |||
        (⟨1, 5⟩ : RegField).set
          ((dramConvertActualSizeToMemorySize (config.sizeInByte >>> 10)).setWidth 32) |||
        (⟨0, 1⟩ : RegField).mask 32)
    sdrctrl := config.sdrctrl clkInHz
    datsz := (⟨0, 3⟩ : RegField).set (config.dataWidthInByte.setWidth 32 &&& 0x3)
    bytemsk := 0 } config

end HpmSdk.Dram
