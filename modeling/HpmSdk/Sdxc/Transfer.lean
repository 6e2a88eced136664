import HpmSdk.Sdxc.Command

set_option autoImplicit false

/-!
# SDXC: blocking transfers (`hpm_sdxc_drv.c`)

`sdxc_transfer_blocking` and what it calls.  The interrupt status is an input: a
list for each of the places where it is read, which ends where the controller
shows nothing more.  What the driver reads, writes and starts is kept in a log.
-/

namespace HpmSdk.Sdxc

/-! ## Registers -/

/-- `IS_HPM_BITMASK_SET`. -/
def IsBitmaskSet (val mask : BitVec 32) : Prop := val &&& mask ≠ 0

instance (val mask : BitVec 32) : Decidable (IsBitmaskSet val mask) :=
  inferInstanceAs (Decidable (_ ≠ _))

/-! A mask of a value that is put together from others is read from its parts: the parts that
keep the bits of the mask, and not those that clear them. -/

/-- A bit of a mask is set in a word that is ored if it is in one of the two. -/
theorem isBitmaskSet_or {a b mask : BitVec 32} :
    IsBitmaskSet (a ||| b) mask ↔ IsBitmaskSet a mask ∨ IsBitmaskSet b mask := by
  unfold IsBitmaskSet
  rw [BitVec.and_or_distrib_right, ne_eq, BitVec.ofNat_eq_ofNat, BitVec.or_eq_zero_iff,
    not_and_or]

/-- A mask apart from what is added under a condition. -/
theorem isBitmaskSet_ite_or {a b mask : BitVec 32} {c : Prop} [Decidable c]
    (h : ¬ IsBitmaskSet b mask) :
    IsBitmaskSet (if c then a ||| b else a) mask ↔ IsBitmaskSet a mask := by
  split
  · exact isBitmaskSet_or.trans (or_iff_left h)
  · exact Iff.rfl

/-- Keeping bits that a mask is among changes nothing for it. -/
theorem isBitmaskSet_and_inside (a : BitVec 32) {kept mask : BitVec 32}
    (h : kept &&& mask = mask) : IsBitmaskSet (a &&& kept) mask ↔ IsBitmaskSet a mask := by
  unfold IsBitmaskSet
  rw [BitVec.and_assoc, h]

/-- Of bits that are masked out none is set. -/
theorem not_isBitmaskSet_and_outside (a : BitVec 32) {kept mask : BitVec 32}
    (h : kept &&& mask = 0) : ¬ IsBitmaskSet (a &&& kept) mask := by
  unfold IsBitmaskSet
  rw [BitVec.and_assoc, h]
  exact not_not_intro BitVec.and_zero

/-- Bits of `INT_STAT`. -/
def intStatCmdComplete : BitVec 32 := 0x1
def intStatXferComplete : BitVec 32 := 0x2
def intStatBufWrReady : BitVec 32 := 0x10
def intStatBufRdReady : BitVec 32 := 0x20
def intStatReTuneEvent : BitVec 32 := 0x1000
def intStatErrInterrupt : BitVec 32 := 0x8000
def intStatCmdToutErr : BitVec 32 := 0x10000
def intStatCmdCrcErr : BitVec 32 := 0x20000
def intStatCmdEndBitErr : BitVec 32 := 0x40000
def intStatCmdIdxErr : BitVec 32 := 0x80000
def intStatDataToutErr : BitVec 32 := 0x100000
def intStatDataCrcErr : BitVec 32 := 0x200000
def intStatDataEndBitErr : BitVec 32 := 0x400000
def intStatAutoCmdErr : BitVec 32 := 0x1000000
def intStatAdmaErr : BitVec 32 := 0x2000000
def intStatTuningErr : BitVec 32 := 0x4000000
def intStatRespErr : BitVec 32 := 0x8000000
def intStatBootAckErr : BitVec 32 := 0x10000000

/-- `SDXC_STS_CMD_ERR`. -/
def sdxcStsCmdErr : BitVec 32 :=
  intStatCmdToutErr ||| intStatCmdCrcErr ||| intStatCmdEndBitErr ||| intStatCmdIdxErr |||
    intStatAutoCmdErr

/-- `SDXC_STS_DATA_ERR`. -/
def sdxcStsDataErr : BitVec 32 := intStatDataToutErr ||| intStatDataCrcErr ||| intStatDataEndBitErr

/-- `SDXC_STS_ERROR`. -/
def sdxcStsError : BitVec 32 := intStatErrInterrupt ||| sdxcStsCmdErr ||| sdxcStsDataErr

/-- Fields of `CMD_XFER`. -/
def cmdXferCmdIndexMask : BitVec 32 := 0x3F000000
def cmdXferCmdTypeMask : BitVec 32 := 0xC00000
def cmdXferDataPresentSelMask : BitVec 32 := 0x200000
def cmdXferCmdIdxChkEnableMask : BitVec 32 := 0x100000
def cmdXferCmdCrcChkEnableMask : BitVec 32 := 0x80000
def cmdXferRespTypeSelectMask : BitVec 32 := 0x30000
def cmdXferRespIntDisableMask : BitVec 32 := 0x100
def cmdXferRespErrChkEnableMask : BitVec 32 := 0x80
def cmdXferRespTypeMask : BitVec 32 := 0x40
def cmdXferMultiBlkSelMask : BitVec 32 := 0x20
def cmdXferDataXferDirMask : BitVec 32 := 0x10
def cmdXferAutoCmdEnableMask : BitVec 32 := 0xC
def cmdXferBlockCountEnableMask : BitVec 32 := 0x2
def cmdXferDmaEnableMask : BitVec 32 := 0x1

/-- Fields of other registers. -/
def pstateCmdInhibitMask : BitVec 32 := 0x1
def pstateDatInhibitMask : BitVec 32 := 0x2
def protCtrlDmaSelMask : BitVec 32 := 0x18
def blkAttrXferBlockSizeMask : BitVec 32 := 0xFFF
def blkAttrBlockCntMask : BitVec 32 := 0xFFFF0000

/-- The transfer flags of `sdxc_set_transfer_config`. -/
def sdxcCmdOnly : BitVec 32 := 1 <<< 0
def sdxcCmdAndTxData : BitVec 32 := 1 <<< 1
def sdxcCmdAndRxData : BitVec 32 := 1 <<< 2
def sdxcDataWithAutoCmd12 : BitVec 32 := 1 <<< 3
def sdxcDataWithAutoCmd23 : BitVec 32 := 1 <<< 4
def sdxcBootData : BitVec 32 := 1 <<< 5
def sdxcBootDataContinuous : BitVec 32 := 1 <<< 6

/-! ## Data -/

/-- `sdxc_command_type_t`. -/
inductive SdxcCommandType where
  | normalCmd
  | suspendCmd
  | resumeCmd
  | abortCmd
  | empty
  deriving DecidableEq, Repr

/-- `sdxc_command_t`. -/
structure SdxcXferCommand extends SdxcCommand where
  cmdIndex : BitVec 32
  cmdArgument : BitVec 32
  cmdFlags : BitVec 32
  cmdType : SdxcCommandType
  deriving DecidableEq, Repr

/-- The values of `data_type`. -/
inductive SdxcDataType where
  | normal
  | tuning
  | boot
  | bootContinuous
  deriving DecidableEq, Repr

/-- `sdxc_data_t`; a pointer is zero for `NULL`. -/
structure SdxcData where
  enableAutoCmd12 : Bool
  enableAutoCmd23 : Bool
  enableIgnoreError : Bool
  dataType : SdxcDataType
  blockSize : BitVec 32
  blockCnt : BitVec 32
  rxData : BitVec 32
  txData : BitVec 32
  deriving DecidableEq, Repr

/-- `sdxc_dma_type_t`. -/
inductive SdxcDmaType where
  | sdma
  | adma2
  | adma2Or3
  | nodma
  deriving DecidableEq, Repr

/-- The value of a DMA type. -/
def SdxcDmaType.sel : SdxcDmaType → BitVec 32
  | .sdma => 0
  | .adma2 => 2
  | .adma2Or3 => 3
  | .nodma => 0xF

/-- `sdxc_adma_config_t`. -/
structure SdxcAdmaConfig where
  dmaType : SdxcDmaType
  admaTable : BitVec 32
  admaTableWords : BitVec 32
  deriving DecidableEq, Repr

/-- The registers that a transfer starts from. -/
structure SdxcProgram where
  dmaSel : BitVec 32
  admaSysAddr : BitVec 32
  blkAttr : BitVec 32
  sdmasa : BitVec 32
  cmdXfer : BitVec 32
  deriving DecidableEq, Repr

/-- What the driver does with the controller. -/
inductive SdxcEvent where
  | intStat (v : BitVec 32)
  | command (program : SdxcProgram)
  | admaSysAddr (v : BitVec 32)
  | portRead (word : Nat)
  | portWrite (word : Nat)
  | bootDummy
  deriving DecidableEq, Repr

/-- `SDXC_Type`, but for the interrupt status. -/
structure SdxcBase where
  pstate : BitVec 32
  protCtrl : BitVec 32
  admaSysAddr : BitVec 32
  blkAttr : BitVec 32
  sdmasa : BitVec 32
  cmdArg : BitVec 32
  cmdXfer : BitVec 32
  acHostCtrl : BitVec 32
  resp : Words4
  log : List SdxcEvent
  deriving DecidableEq, Repr

namespace SdxcBase

def record (b : SdxcBase) (e : SdxcEvent) : SdxcBase := { b with log := b.log ++ [e] }

/-- `SDXC_PROT_CTRL_DMA_SEL_GET`. -/
def dmaSel (b : SdxcBase) : BitVec 32 := (b.protCtrl &&& protCtrlDmaSelMask) >>> 3

def program (b : SdxcBase) : SdxcProgram :=
  ⟨b.dmaSel, b.admaSysAddr, b.blkAttr, b.sdmasa, b.cmdXfer⟩

def setAdmaSysAddr (b : SdxcBase) (v : BitVec 32) : SdxcBase :=
  { b with admaSysAddr := v }.record (.admaSysAddr v)

end SdxcBase

/-! ## DMA configuration -/

/-- `sdxc_set_dma_config`. -/
def sdxcSetDmaConfig (cfg : SdxcAdmaConfig) (dataAddr : BitVec 32) (b : SdxcBase) :
    SdxcStat × SdxcBase :=
  if cfg.dmaType = .sdma ∧ dataAddr % 4 ≠ 0 then (.sdxcDmaAddrUnaligned, b)
  else
    let b := b.setAdmaSysAddr (if cfg.dmaType = .sdma then dataAddr else cfg.admaTable)
    (.success,
      { b with protCtrl :=
          (b.protCtrl &&& ~~~protCtrlDmaSelMask) |||
            ((cfg.dmaType.sel <<< 3) &&& protCtrlDmaSelMask) })

/-- The descriptors that a DMA type asks for; `t` is the memory at `adma_table`. -/
def sdxcSetTable (bootDummy : BitVec 32) (cfg : SdxcAdmaConfig) (addr bytes flags : BitVec 32)
    (t : Adma2Table) : SdxcStat × Adma2Table :=
  match cfg.dmaType with
  | .sdma => (.success, t)
  | .adma2 => sdxcSetAdma2Desc bootDummy t cfg.admaTable cfg.admaTableWords addr bytes flags
  | .adma2Or3 => (.fail, t)
  | .nodma => (.invalidArgument, t)

/-- `sdxc_set_adma_table_config`. -/
def sdxcSetAdmaTableConfig (bootDummy : BitVec 32) (cfg : SdxcAdmaConfig) (data : SdxcData)
    (flags : BitVec 32) (t : Adma2Table) (b : SdxcBase) : SdxcStat × Adma2Table × SdxcBase :=
  let bootDummyOffset : BitVec 32 := if data.dataType = .bootContinuous then 4 else 0
  let addr := if data.rxData = 0 then data.txData else data.rxData
  let addr := addr + bootDummyOffset
  let bytes := data.blockSize * data.blockCnt - bootDummyOffset
  let (status, t) := sdxcSetTable bootDummy cfg addr bytes flags t
  if status = .success ∧ data.dataType ≠ .bootContinuous then
    let (status, b) := sdxcSetDmaConfig cfg addr b
    (status, t, b)
  else (status, t, b)

/-! ## The command -/

/-- `sdxc_set_transfer_config`: the status and the new flags. -/
def sdxcSetTransferConfig (xferFlags blockSize blockCnt : BitVec 32) (b : SdxcBase) :
    SdxcStat × BitVec 32 × SdxcBase :=
  let flags := b.cmdXfer &&& ~~~(cmdXferMultiBlkSelMask ||| cmdXferBlockCountEnableMask |||
    cmdXferDataPresentSelMask ||| cmdXferDataXferDirMask ||| cmdXferAutoCmdEnableMask |||
    cmdXferRespTypeSelectMask)
  if IsBitmaskSet b.pstate pstateCmdInhibitMask then (.sdxcBusy, 0, b)
  else if IsBitmaskSet xferFlags sdxcBootDataContinuous then (.success, 0, b)
  else if IsBitmaskSet b.pstate pstateDatInhibitMask then (.sdxcBusy, 0, b)
  else if (blkAttrBlockCntMask >>> 16) < blockCnt then (.invalidArgument, 0, b)
  else
    let flags :=
      if IsBitmaskSet xferFlags sdxcCmdAndRxData then flags ||| cmdXferDataXferDirMask else flags
    let flags :=
      if 1 < blockCnt then
        let flags := flags ||| cmdXferMultiBlkSelMask ||| cmdXferBlockCountEnableMask
        if IsBitmaskSet xferFlags sdxcDataWithAutoCmd12 then flags ||| (1 <<< 2) else flags
      else flags
    let flags :=
      if IsBitmaskSet xferFlags sdxcDataWithAutoCmd23 then flags ||| (2 <<< 2) else flags
    if ¬ IsBitmaskSet xferFlags sdxcBootData then
      (.success, flags, { b with blkAttr := blockSize, sdmasa := blockCnt })
    else
      (.success, flags ||| cmdXferMultiBlkSelMask ||| cmdXferBlockCountEnableMask, b)

/-- The flags that follow from the response type. -/
def sdxcRespFlags : SdxcDevResp → BitVec 32
  | .r1 | .r5 | .r6 | .r7 =>
    (2 <<< 16) ||| cmdXferCmdCrcChkEnableMask ||| cmdXferCmdIdxChkEnableMask
  | .r1b | .r5b => (3 <<< 16) ||| cmdXferCmdCrcChkEnableMask ||| cmdXferCmdIdxChkEnableMask
  | .r2 => (1 <<< 16) ||| cmdXferCmdCrcChkEnableMask
  | .r3 | .r4 => 2 <<< 16
  | .none => 0

/-- The flags of `sdxc_send_command`: those of the command and what its response asks for. -/
def sdxcSendFlags (cmd : SdxcXferCommand) (b : SdxcBase) : BitVec 32 :=
  let flags := cmd.cmdFlags
  let flags :=
    if ¬ IsBitmaskSet b.pstate pstateCmdInhibitMask ∧ cmd.cmdType ≠ .empty then
      let flags := flags ||| sdxcRespFlags cmd.respType
      if IsBitmaskSet flags cmdXferRespErrChkEnableMask then flags ||| cmdXferRespIntDisableMask
      else flags
    else flags
  if cmd.cmdType = .abortCmd then flags ||| (1 <<< 22) else flags

/-- The flags that `sdxc_send_command` puts into `CMD_XFER`: `BLOCK_COUNT_ENABLE` is not
one of them. -/
def sdxcSentMask : BitVec 32 :=
  cmdXferCmdTypeMask ||| cmdXferCmdCrcChkEnableMask ||| cmdXferCmdIdxChkEnableMask |||
    cmdXferRespTypeSelectMask ||| cmdXferDataPresentSelMask ||| cmdXferDmaEnableMask |||
    cmdXferDataXferDirMask ||| cmdXferAutoCmdEnableMask ||| cmdXferMultiBlkSelMask |||
    cmdXferRespTypeMask ||| cmdXferRespErrChkEnableMask

/-- What `sdxc_send_command` clears in `CMD_XFER` before. -/
def sdxcClearedMask : BitVec 32 :=
  cmdXferCmdIndexMask ||| cmdXferCmdTypeMask ||| cmdXferCmdCrcChkEnableMask |||
    cmdXferCmdIdxChkEnableMask ||| cmdXferRespTypeSelectMask ||| cmdXferDataPresentSelMask |||
    cmdXferAutoCmdEnableMask ||| cmdXferDataXferDirMask ||| cmdXferDmaEnableMask |||
    cmdXferMultiBlkSelMask ||| cmdXferBlockCountEnableMask

/-- `CMD_XFER` as `sdxc_send_command` writes it. -/
def sdxcCmdXfer (cmd : SdxcXferCommand) (b : SdxcBase) : BitVec 32 :=
  let cmdXfer := b.cmdXfer &&& ~~~sdxcClearedMask
  let cmdXfer := cmdXfer ||| ((cmd.cmdIndex <<< 24) &&& cmdXferCmdIndexMask) |||
    (sdxcSendFlags cmd b &&& sdxcSentMask)
  if SdxcDmaType.sel .adma2 ≤ b.dmaSel then cmdXfer &&& ~~~cmdXferBlockCountEnableMask
  else cmdXfer

/-- `sdxc_send_command`: writing `CMD_XFER` starts the transfer. -/
def sdxcSendCommand (cmd : SdxcXferCommand) (b : SdxcBase) : SdxcBase :=
  let b := { b with cmdArg := cmd.cmdArgument, cmdXfer := sdxcCmdXfer cmd b }
  b.record (.command b.program)

/-- The first status of a list whose bit is set. -/
def firstStatus (v : BitVec 32) : List (BitVec 32 × SdxcStat) → SdxcStat → SdxcStat
  | [], default => default
  | (mask, status) :: rest, default =>
    if IsBitmaskSet v mask then status else firstStatus v rest default

/-- The status of an error interrupt. -/
def sdxcErrorStatus (acHostCtrl v : BitVec 32) : SdxcStat :=
  let autoCmd := firstStatus (acHostCtrl &&& 0xFFFF)
    [(0x1, .sdxcAutocmdCmd12NotExec), (0x2, .sdxcAutocmdCmdTimeoutError),
      (0x4, .sdxcAutocmdCmdCrcError), (0x10, .sdxcAutocmdCmdIndexError),
      (0x8, .sdxcAutocmdEndBitError), (0x20, .sdxcAutocmdCmdResponseError),
      (0x80, .sdxcAutocmdCmdNotIssuedAutoCmd12)] .sdxcAutoCmdError
  firstStatus v
    [(intStatCmdToutErr, .sdxcCmdTimeoutError), (intStatCmdCrcErr, .sdxcCmdCrcError),
      (intStatCmdEndBitErr, .sdxcCmdEndBitError), (intStatCmdIdxErr, .sdxcCmdIndexError),
      (intStatDataToutErr, .sdxcDataTimeoutError), (intStatDataCrcErr, .sdxcDataCrcError),
      (intStatDataEndBitErr, .sdxcDataEndBitError), (intStatAutoCmdErr, autoCmd),
      (intStatAdmaErr, .sdxcAdmaError), (intStatTuningErr, .sdxcTuningError),
      (intStatRespErr, .sdxcResponseError), (intStatBootAckErr, .sdxcBootAckError)] .sdxcError

/-- The loop of `sdxc_wait_cmd_done`. -/
def sdxcWaitCmdDoneLoop : List (BitVec 32) → SdxcBase → Option (SdxcStat × SdxcBase)
  | [], _ => none
  | v :: rest, b =>
    let b := b.record (.intStat v)
    if IsBitmaskSet v sdxcStsError then some (sdxcErrorStatus b.acHostCtrl v, b)
    else if IsBitmaskSet v intStatCmdComplete then some (.success, b)
    else sdxcWaitCmdDoneLoop rest b

/-- `sdxc_wait_cmd_done`. -/
def sdxcWaitCmdDone (stat : List (BitVec 32)) (cmd : SdxcXferCommand) (pollingCmdDone : Bool)
    (b : SdxcBase) : Option (SdxcStat × SdxcXferCommand × SdxcBase) :=
  if pollingCmdDone then
    (sdxcWaitCmdDoneLoop stat b).map fun (status, b) =>
      if status = .success then
        let (status, received) := sdxcReceiveCmdResponse b.resp
          ((b.cmdXfer &&& cmdXferAutoCmdEnableMask) >>> 2 = 1) cmd.toSdxcCommand
        (status, { cmd with toSdxcCommand := received }, b)
      else (status, cmd, b)
  else some (.success, cmd, b)

/-! ## The data port -/

/-- The block size rounded up to words, as the functions of the port store it. -/
def SdxcData.roundBlockSize (data : SdxcData) : SdxcData :=
  if data.blockSize % 4 ≠ 0 then { data with blockSize := data.blockSize + (4 - data.blockSize % 4) }
  else data

/-- `total_words`. -/
def SdxcData.totalWords (data : SdxcData) : Nat := (data.blockSize * data.blockCnt / 4).toNat

/-- `sdxc_read_data_port` and `sdxc_write_data_port`: all words of the transfer, from
the given one on. -/
def sdxcDataPort (port : Nat → SdxcEvent) (data : SdxcData) (transferredWords : Nat)
    (b : SdxcBase) : Nat × SdxcData × SdxcBase :=
  if ¬ IsBitmaskSet b.cmdXfer cmdXferDmaEnableMask then
    let data := data.roundBlockSize
    (transferredWords + data.totalWords, data,
      { b with log := b.log ++ (List.range' transferredWords data.totalWords).map port })
  else (transferredWords, data, b)

/-- `sdxc_read_data_port`. -/
def sdxcReadDataPort := sdxcDataPort .portRead

/-- `sdxc_write_data_port`. -/
def sdxcWriteDataPort := sdxcDataPort .portWrite

/-- The two loops of `sdxc_read_by_data_port_blocking`. -/
def sdxcReadByDataPortLoop (totalWords : Nat) : List (BitVec 32) → Nat → SdxcData → SdxcBase →
    Option (SdxcStat × SdxcData × SdxcBase)
  | [], transferred, data, b => if totalWords ≤ transferred then some (.success, data, b) else none
  | v :: rest, transferred, data, b =>
    if totalWords ≤ transferred then some (.success, data, b)
    else
      let b := b.record (.intStat v)
      if ¬ IsBitmaskSet v (intStatBufRdReady ||| sdxcStsDataErr ||| intStatTuningErr) then
        sdxcReadByDataPortLoop totalWords rest transferred data b
      else if data.dataType = .tuning ∧ IsBitmaskSet v intStatBufRdReady then
        some (.success, data, b)
      else if IsBitmaskSet v intStatTuningErr then some (.sdxcTuningError, data, b)
      else if IsBitmaskSet v sdxcStsDataErr ∧ data.enableIgnoreError = false then
        some (.fail, data, b)
      else
        let (transferred, data, b) := sdxcReadDataPort data transferred b
        sdxcReadByDataPortLoop totalWords rest transferred data b

/-- The two loops of `sdxc_write_by_data_port_blocking`. -/
def sdxcWriteByDataPortLoop (totalWords : Nat) : List (BitVec 32) → Nat → SdxcData → SdxcBase →
    Option (SdxcStat × SdxcData × SdxcBase)
  | [], transferred, data, b => if totalWords ≤ transferred then some (.success, data, b) else none
  | v :: rest, transferred, data, b =>
    if totalWords ≤ transferred then some (.success, data, b)
    else
      let b := b.record (.intStat v)
      if ¬ IsBitmaskSet v (intStatBufWrReady ||| sdxcStsDataErr ||| intStatTuningErr) then
        sdxcWriteByDataPortLoop totalWords rest transferred data b
      else if IsBitmaskSet v intStatTuningErr then some (.sdxcTuningError, data, b)
      else if IsBitmaskSet v sdxcStsDataErr ∧ data.enableIgnoreError = false then
        some (.fail, data, b)
      else
        let (transferred, data, b) := sdxcWriteDataPort data transferred b
        sdxcWriteByDataPortLoop totalWords rest transferred data b

/-- `sdxc_read_by_data_port_blocking`. -/
def sdxcReadByDataPortBlocking (stat : List (BitVec 32)) (data : SdxcData) (b : SdxcBase) :
    Option (SdxcStat × SdxcData × SdxcBase) :=
  sdxcReadByDataPortLoop data.roundBlockSize.totalWords stat 0 data.roundBlockSize b

/-- `sdxc_write_by_data_port_blocking`. -/
def sdxcWriteByDataPortBlocking (stat : List (BitVec 32)) (data : SdxcData) (b : SdxcBase) :
    Option (SdxcStat × SdxcData × SdxcBase) :=
  sdxcWriteByDataPortLoop data.roundBlockSize.totalWords stat 0 data.roundBlockSize b

/-! ## The data phase -/

/-- The statuses that end the wait for a DMA transfer. -/
def sdxcDmaStatusFlags : BitVec 32 := intStatXferComplete ||| sdxcStsError

/-- The wait for a DMA transfer: the last status. -/
def sdxcTransferDataLoop (blockSize : BitVec 32) :
    List (BitVec 32) → SdxcBase → Option (BitVec 32 × SdxcBase)
  | [], _ => none
  | v :: rest, b =>
    let b := b.record (.intStat v)
    let b :=
      if b.dmaSel = SdxcDmaType.sel .sdma then b.setAdmaSysAddr (b.admaSysAddr + blockSize) else b
    if IsBitmaskSet v sdxcDmaStatusFlags then some (v, b) else sdxcTransferDataLoop blockSize rest b

/-- The status that a DMA transfer is reported with. -/
def sdxcDmaStatus (ignoreError : Bool) (v : BitVec 32) : SdxcStat :=
  if IsBitmaskSet v intStatTuningErr then .sdxcTransferDataFailed
  else if IsBitmaskSet v (sdxcStsDataErr ||| intStatAdmaErr) ∧
      (ignoreError = false ∨ IsBitmaskSet v intStatDataToutErr) then .sdxcTransferDataFailed
  else .success

/-- `sdxc_transfer_data_blocking`. -/
def sdxcTransferDataBlocking (stat : List (BitVec 32)) (data : SdxcData) (enableDma : Bool)
    (b : SdxcBase) : Option (SdxcStat × SdxcData × SdxcBase) :=
  if enableDma then
    (sdxcTransferDataLoop data.blockSize stat b).map fun (v, b) =>
      let status := sdxcDmaStatus data.enableIgnoreError v
      let b := if data.dataType = .bootContinuous ∧ status = .success then b.record .bootDummy else b
      (status, data, b)
  else if data.rxData ≠ 0 then sdxcReadByDataPortBlocking stat data b
  else sdxcWriteByDataPortBlocking stat data b

/-! ## `sdxc_transfer_blocking` -/

/-- The interrupt status where it is read: on entry, for the command and for the data. -/
structure SdxcIntStat where
  entry : BitVec 32
  command : List (BitVec 32)
  data : List (BitVec 32)
  deriving DecidableEq, Repr

/-- What a call leaves. -/
structure SdxcXfer where
  cmd : SdxcXferCommand
  data : Option SdxcData
  table : Adma2Table
  base : SdxcBase

/-- How a call ends, if it does. -/
inductive SdxcOutcome where
  | waiting
  | nullDereference
  | returned (status : SdxcStat) (xfer : SdxcXfer)

/-- `xfer_flags` of a transfer with data. -/
def sdxcXferFlags (data : SdxcData) : BitVec 32 :=
  (if data.enableAutoCmd12 then sdxcDataWithAutoCmd12 else 0) |||
    (if data.enableAutoCmd23 then sdxcDataWithAutoCmd23 else 0) |||
    (if data.txData ≠ 0 then sdxcCmdAndTxData else 0) |||
    (if data.rxData ≠ 0 then sdxcCmdAndRxData else 0) |||
    (if data.dataType = .boot then sdxcBootData else 0) |||
    (if data.dataType = .bootContinuous then sdxcBootDataContinuous else 0)

/-- The rest of the call once the DMA is set up. -/
def sdxcTransferIssue (stat : SdxcIntStat) (xferFlags blockSize blockCnt : BitVec 32)
    (enableDma : Bool) (x : SdxcXfer) : SdxcOutcome :=
  let (status, newXferFlags, base) := sdxcSetTransferConfig xferFlags blockSize blockCnt x.base
  if status ≠ .success then .returned status { x with base := base }
  else
    let cmd := { x.cmd with cmdFlags := x.cmd.cmdFlags ||| newXferFlags }
    let base := sdxcSendCommand cmd base
    let pollingCmdDone := match x.data with
      | none => true
      | some data => data.dataType = .normal
    match sdxcWaitCmdDone stat.command cmd pollingCmdDone base with
    | none => .waiting
    | some (status, cmd, base) =>
      if status ≠ .success then
        .returned .sdxcSendCmdFailed { x with cmd := cmd, base := base }
      else
        match x.data with
        | none => .returned status { x with cmd := cmd, base := base }
        | some data =>
          match sdxcTransferDataBlocking stat.data data enableDma base with
          | none => .waiting
          | some (status, data, base) =>
            .returned status { x with cmd := cmd, data := some data, base := base }

/-- Set up the DMA if there is a configuration and the transfer is no tuning. -/
def sdxcSetUpDma (bootDummy : BitVec 32) (dmaConfig : Option SdxcAdmaConfig) (data : SdxcData)
    (t : Adma2Table) (b : SdxcBase) : SdxcStat × Adma2Table × SdxcBase :=
  let flags : BitVec 32 :=
    if data.dataType = .boot ∨ data.dataType = .bootContinuous then sdxcAdmaDescMultiFlag else 0
  match dmaConfig with
  | some cfg =>
    if data.dataType = .tuning then (.success, t, b)
    else sdxcSetAdmaTableConfig bootDummy cfg data flags t b
  | none => (.success, t, b)

/-- `sdxc_transfer_blocking`; `enable_dma` is never cleared. -/
def sdxcTransferBlocking (bootDummy : BitVec 32) (stat : SdxcIntStat)
    (dmaConfig : Option SdxcAdmaConfig) (x : SdxcXfer) : SdxcOutcome :=
  if IsBitmaskSet stat.entry intStatReTuneEvent then .returned .sdxcRetuningRequest x
  else
    match x.data with
    | none => sdxcTransferIssue stat sdxcCmdOnly 0 0 true x
    | some data =>
      let (status, table, base) := sdxcSetUpDma bootDummy dmaConfig data x.table x.base
      if status ≠ .success then .returned status { x with table := table, base := base }
      else
        let cmdFlags := x.cmd.cmdFlags ||| cmdXferDataPresentSelMask
        match dmaConfig with
        | none => .nullDereference
        | some cfg =>
          let cmdFlags :=
            if cfg.dmaType ≠ .nodma then cmdFlags ||| cmdXferDmaEnableMask else cmdFlags
          sdxcTransferIssue stat (sdxcXferFlags data) data.blockSize data.blockCnt true
            { x with cmd := { x.cmd with cmdFlags := cmdFlags }, table := table, base := base }

end HpmSdk.Sdxc
