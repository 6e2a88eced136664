import HpmSdk.Sdxc.Adma2Contract
import HpmSdk.Sdxc.Transfer

set_option autoImplicit false

/-!
# SDXC: what a blocking transfer is to move

Data requests, the contract on a call, and the requests and interrupt statuses for
which it is kept.

The command register with its flags is part of what the DMA is programmed to do, as are the block
count and the addresses; a log of events is compared with that.
-/

namespace HpmSdk.Sdxc

/-! ## The contract -/

/-- A request to read or write the blocks of a buffer. -/
structure SdxcRequest where
  blockSize : BitVec 32
  blockCnt : BitVec 32
  buffer : BitVec 32
  read : Bool
  autoCmd12 : Bool
  autoCmd23 : Bool
  ignoreError : Bool
  present : buffer ≠ 0

namespace SdxcRequest

/-- The structure that is handed to the driver. -/
def data (r : SdxcRequest) : SdxcData where
  enableAutoCmd12 := r.autoCmd12
  enableAutoCmd23 := r.autoCmd23
  enableIgnoreError := r.ignoreError
  dataType := .normal
  blockSize := r.blockSize
  blockCnt := r.blockCnt
  rxData := if r.read then r.buffer else 0
  txData := if r.read then 0 else r.buffer

/-- The words of the data, each block rounded up. -/
def words (r : SdxcRequest) : Nat := (r.blockSize.toNat + 3) / 4 * r.blockCnt.toNat

/-- The access of the data port for a word. -/
def portEvent (r : SdxcRequest) (word : Nat) : SdxcEvent :=
  if r.read then .portRead word else .portWrite word

/-- The interrupt that tells that the port is ready for a block. -/
def readyMask (r : SdxcRequest) : BitVec 32 :=
  if r.read then intStatBufRdReady else intStatBufWrReady

end SdxcRequest

/-- The word of an access of the data port. -/
def SdxcEvent.port : SdxcEvent → Option Nat
  | .portRead word | .portWrite word => some word
  | _ => none

/-- Whether an event is an interrupt status with one of the bits. -/
def SdxcEvent.shows (mask : BitVec 32) : SdxcEvent → Bool
  | .intStat v => IsBitmaskSet v mask
  | _ => false

/-- The descriptors of a table describe so many bytes from the buffer on. -/
structure Adma2Covers (buffer : BitVec 32) (bytes : Nat) (t : Adma2Table) : Prop where
  valid : ∀ d ∈ t.transfers, d.valid = true
  ranges : Consecutive buffer t.transfers
  total : (t.transfers.map SdxcAdma2Descriptor.length).sum = bytes
  last : ∃ ds d, t.added = ds ++ [d] ∧ d.isEnd = true ∧ ∀ d' ∈ ds, d'.isEnd = false

/-- The DMA is programmed for exactly the words of the request, in the direction of the
request.  Several blocks are selected as such.  Without descriptors it is the block count
that ends them, and a block count that is not enabled is an infinite transfer; with
descriptors the count is not used. -/
structure SdxcProgrammed (r : SdxcRequest) (admaTable : BitVec 32) (t : Adma2Table)
    (p : SdxcProgram) : Prop where
  blockSize : p.blkAttr &&& blkAttrXferBlockSizeMask = r.blockSize
  blockCnt : p.sdmasa = r.blockCnt
  dataPresent : IsBitmaskSet p.cmdXfer cmdXferDataPresentSelMask
  dmaEnable : IsBitmaskSet p.cmdXfer cmdXferDmaEnableMask
  direction : IsBitmaskSet p.cmdXfer cmdXferDataXferDirMask ↔ r.read = true
  several : 1 < r.blockCnt.toNat → IsBitmaskSet p.cmdXfer cmdXferMultiBlkSelMask
  range :
    (p.dmaSel = SdxcDmaType.sel .sdma ∧ p.admaSysAddr = r.buffer ∧
        r.blockSize.toNat * r.blockCnt.toNat = 4 * r.words ∧
        (IsBitmaskSet p.cmdXfer cmdXferMultiBlkSelMask →
          IsBitmaskSet p.cmdXfer cmdXferBlockCountEnableMask)) ∨
      (p.dmaSel = SdxcDmaType.sel .adma2 ∧ p.admaSysAddr = admaTable ∧
        Adma2Covers r.buffer (4 * r.words) t ∧
        ¬ IsBitmaskSet p.cmdXfer cmdXferBlockCountEnableMask)

/-- Moved by the DMA: from the command to the end of the transfer it keeps the program. -/
def SdxcDmaMoved (r : SdxcRequest) (admaTable : BitVec 32) (t : Adma2Table)
    (log : List SdxcEvent) : Prop :=
  ∃ before p wait v behind, log = before ++ .command p :: (wait ++ .intStat v :: behind) ∧
    (∀ a, SdxcEvent.admaSysAddr a ∉ wait) ∧ IsBitmaskSet v intStatXferComplete ∧
      SdxcProgrammed r admaTable t p

/-- Moved through the data port, word by word. -/
def SdxcPortMoved (r : SdxcRequest) (log : List SdxcEvent) : Prop :=
  log.filter (fun e => e.port.isSome) = (List.range r.words).map r.portEvent

/-- Every access of the data port comes behind the ready event for its block. -/
def SdxcPortReady (r : SdxcRequest) (log : List SdxcEvent) : Prop :=
  ∀ before e behind word, log = before ++ e :: behind → e.port = some word →
    word / ((r.blockSize.toNat + 3) / 4) < (before.filter (SdxcEvent.shows r.readyMask)).length

/-- What is asked of the end of a call. -/
def SdxcMeets (r : SdxcRequest) (admaTable : BitVec 32) : SdxcOutcome → Prop
  | .waiting => True
  | .nullDereference => False
  | .returned status x =>
    (status = .success →
      SdxcDmaMoved r admaTable x.table x.base.log ∨ SdxcPortMoved r x.base.log) ∧
    SdxcPortReady r x.base.log ∧ x.data.map SdxcData.blockSize = some r.blockSize

/-- A request is served for every controller, every interrupt status up to the data phase,
and every command with the given flags: the driver adds its own to those that the command
has on entry. -/
def SdxcTransferContract (bootDummy : BitVec 32) (r : SdxcRequest) (cmdFlags : BitVec 32)
    (dmaConfig : Option SdxcAdmaConfig) (desc : Nat → SdxcAdma2Descriptor)
    (stat : List (BitVec 32)) : Prop :=
  ∀ entry command cmd (base : SdxcBase), cmd.cmdFlags = cmdFlags →
    SdxcMeets r ((dmaConfig.map SdxcAdmaConfig.admaTable).getD 0)
      (sdxcTransferBlocking bootDummy ⟨entry, command, stat⟩ dmaConfig
        ⟨cmd, some r.data, ⟨desc, []⟩, { base with log := [] }⟩)

/-! ## The requests that are served -/

/-- The status that ends the data phase. -/
def sdxcLastStatus (stat : List (BitVec 32)) : Option (BitVec 32) :=
  stat.find? fun v => IsBitmaskSet v sdxcDmaStatusFlags

/-- The DMA configuration is refused. -/
def SdxcDmaRefused (r : SdxcRequest) (desc : Nat → SdxcAdma2Descriptor) (cfg : SdxcAdmaConfig) :
    Prop :=
  match cfg.dmaType with
  | .sdma => r.buffer % 4 ≠ 0
  | .adma2 => Adma2Refused desc cfg.admaTable cfg.admaTableWords r.buffer
      (r.blockSize * r.blockCnt) 0
  | .adma2Or3 => True
  | .nodma => True

/-- The transfer completes, with a program that fits the request. -/
structure SdxcCompletes (r : SdxcRequest) (cmdFlags : BitVec 32) (dmaType : SdxcDmaType)
    (stat : List (BitVec 32)) : Prop where
  complete : ∃ v ∈ sdxcLastStatus stat, IsBitmaskSet v intStatXferComplete
  blockSize : r.blockSize.toNat < 4096
  direction : r.read = false → ¬ IsBitmaskSet cmdFlags cmdXferDataXferDirMask
  sdma : dmaType = .sdma → (r.blockSize.toNat % 4 = 0 ∧ r.blockCnt.toNat ≤ 1 ∧
    ¬ IsBitmaskSet cmdFlags cmdXferMultiBlkSelMask) ∧ stat.head? = sdxcLastStatus stat
  adma2 : dmaType = .adma2 → r.blockSize.toNat * r.blockCnt.toNat % 2 = 0 ∧
    r.blockSize.toNat * r.blockCnt.toNat ≤ 65532 ∧
      roundUp4 (r.blockSize.toNat * r.blockCnt.toNat) = 4 * r.words

/-- There is a configuration, and the call fails before or in the data phase, or there is
nothing to move, or the transfer completes as it should. -/
def SdxcFaithful (r : SdxcRequest) (cmdFlags : BitVec 32) (dmaConfig : Option SdxcAdmaConfig)
    (desc : Nat → SdxcAdma2Descriptor) (stat : List (BitVec 32)) : Prop :=
  ∃ cfg, dmaConfig = some cfg ∧
    (SdxcDmaRefused r desc cfg ∨ 65535 < r.blockCnt.toNat ∨
      (∀ v ∈ sdxcLastStatus stat, sdxcDmaStatus r.ignoreError v ≠ .success) ∨
      r.words = 0 ∨ SdxcCompletes r cmdFlags cfg.dmaType stat)

/-! ## Setting up -/

section SetUp

variable {bootDummy : BitVec 32} {r : SdxcRequest} {cfg : SdxcAdmaConfig}
  {desc : Nat → SdxcAdma2Descriptor} {b : SdxcBase}

/-- The buffer is the one that is given. -/
theorem SdxcRequest.data_buffer (r : SdxcRequest) :
    (if r.data.rxData = 0 then r.data.txData else r.data.rxData) = r.buffer := by
  unfold SdxcRequest.data
  cases r.read
  · rfl
  · exact if_neg r.present

/-- The field of the register that selects the DMA. -/
theorem dmaSel_set (protCtrl : BitVec 32) {dmaType : SdxcDmaType} (h : dmaType ≠ .nodma) :
    ((((protCtrl &&& ~~~protCtrlDmaSelMask) |||
        ((dmaType.sel <<< 3) &&& protCtrlDmaSelMask)) &&& protCtrlDmaSelMask) >>> 3) =
      dmaType.sel := by
  have hfield : ((protCtrl &&& ~~~protCtrlDmaSelMask) |||
      ((dmaType.sel <<< 3) &&& protCtrlDmaSelMask)) &&& protCtrlDmaSelMask =
        (dmaType.sel <<< 3) &&& protCtrlDmaSelMask := by
    ext i hi
    simp only [BitVec.getElem_and, BitVec.getElem_or, BitVec.getElem_not]
    cases protCtrlDmaSelMask[i] <;> simp
  rw [hfield]
  cases dmaType with
  | nodma => exact absurd rfl h
  | _ => decide

/-- What setting up the DMA leaves when it is not refused. -/
structure SdxcReady (r : SdxcRequest) (cfg : SdxcAdmaConfig) (b b' : SdxcBase) : Prop where
  dmaSel : b'.dmaSel = cfg.dmaType.sel
  admaSysAddr : b'.admaSysAddr = if cfg.dmaType = .sdma then r.buffer else cfg.admaTable
  log : b'.log = b.log ++ [.admaSysAddr b'.admaSysAddr]
  pstate : b'.pstate = b.pstate
  sel : cfg.dmaType = .sdma ∨ cfg.dmaType = .adma2

/-- Setting up for a request: the table first, then the registers. -/
theorem sdxcSetUpDma_request (t : Adma2Table) :
    sdxcSetUpDma bootDummy (some cfg) r.data t b =
      let (status, t) := sdxcSetTable bootDummy cfg r.buffer (r.blockSize * r.blockCnt) 0 t
      if status = .success then
        let (status, b) := sdxcSetDmaConfig cfg r.buffer b
        (status, t, b)
      else (status, t, b) := by
  have hnormal : r.data.dataType = .normal := rfl
  have hadd : r.buffer + 0 = r.buffer := BitVec.add_zero _
  have hsub : r.blockSize * r.blockCnt - 0 = r.blockSize * r.blockCnt := BitVec.sub_zero _
  have hbytes : r.data.blockSize * r.data.blockCnt = r.blockSize * r.blockCnt := rfl
  unfold sdxcSetUpDma sdxcSetAdmaTableConfig
  simp only [SdxcRequest.data_buffer, hnormal, hbytes, reduceCtorEq, or_self, if_false, hadd, hsub,
    ne_eq, not_false_eq_true, and_true]

variable (bootDummy b) in
/-- A set-up of the DMA that is refused writes no register. -/
theorem sdxcSetUpDma_refused (h : SdxcDmaRefused r desc cfg) :
    ∃ status t, status ≠ .success ∧
      sdxcSetUpDma bootDummy (some cfg) r.data ⟨desc, []⟩ b = (status, t, b) := by
  rw [sdxcSetUpDma_request]
  unfold SdxcDmaRefused at h
  unfold sdxcSetTable sdxcSetDmaConfig
  cases hcfg : cfg.dmaType with
  | sdma =>
    rw [hcfg] at h
    exact ⟨_, _, SdxcStat.noConfusion, (if_pos rfl).trans (by rw [if_pos ⟨rfl, h⟩])⟩
  | adma2 =>
    rw [hcfg] at h
    obtain ⟨status, hstatus, hcall⟩ := sdxcSetAdma2Desc_of_refused bootDummy h
    dsimp only
    rw [hcall]
    exact ⟨status, _, hstatus, if_neg hstatus⟩
  | adma2Or3 => exact ⟨_, _, SdxcStat.noConfusion, if_neg SdxcStat.noConfusion⟩
  | nodma => exact ⟨_, _, SdxcStat.noConfusion, if_neg SdxcStat.noConfusion⟩

variable (bootDummy b) in
/-- A set-up that is accepted leaves the DMA at the buffer, or at a table of it. -/
theorem sdxcSetUpDma_ready (hok : ¬ SdxcDmaRefused r desc cfg) :
    ∃ t b', sdxcSetUpDma bootDummy (some cfg) r.data ⟨desc, []⟩ b = (.success, t, b') ∧
      SdxcReady r cfg b b' ∧ (cfg.dmaType = .adma2 →
        t = adma2Table bootDummy desc cfg.admaTableWords r.buffer (r.blockSize * r.blockCnt) 0) := by
  rw [sdxcSetUpDma_request]
  unfold SdxcDmaRefused at hok
  unfold sdxcSetTable sdxcSetDmaConfig
  cases hcfg : cfg.dmaType with
  | sdma =>
    rw [hcfg] at hok
    refine ⟨_, _, (if_pos rfl).trans (by rw [if_neg fun h => hok h.2]), ?_, SdxcDmaType.noConfusion⟩
    refine ⟨?_, by rw [hcfg]; rfl, rfl, rfl, Or.inl hcfg⟩
    rw [hcfg]
    exact dmaSel_set b.protCtrl SdxcDmaType.noConfusion
  | adma2 =>
    rw [hcfg] at hok
    dsimp only
    rw [sdxcSetAdma2Desc_of_not_refused bootDummy hok]
    refine ⟨_, _, (if_pos rfl).trans (by rw [if_neg fun h => SdxcDmaType.noConfusion h.1]), ?_,
      fun _ => rfl⟩
    refine ⟨?_, by rw [hcfg]; rfl, rfl, rfl, Or.inr hcfg⟩
    rw [hcfg]
    exact dmaSel_set b.protCtrl SdxcDmaType.noConfusion
  | adma2Or3 =>
    rw [hcfg] at hok
    exact absurd trivial hok
  | nodma =>
    rw [hcfg] at hok
    exact absurd trivial hok

end SetUp

/-! ## The phases of a call -/

section Phases

variable {r : SdxcRequest} {b : SdxcBase}

/-- A request is no boot transfer, and its direction is in the flags. -/
theorem sdxcXferFlags_request (r : SdxcRequest) :
    ¬ IsBitmaskSet (sdxcXferFlags r.data) sdxcBootDataContinuous ∧
      ¬ IsBitmaskSet (sdxcXferFlags r.data) sdxcBootData ∧
      (IsBitmaskSet (sdxcXferFlags r.data) sdxcCmdAndRxData ↔ r.read = true) := by
  have hdata : sdxcXferFlags r.data =
      (if r.autoCmd12 then sdxcDataWithAutoCmd12 else 0) |||
        (if r.autoCmd23 then sdxcDataWithAutoCmd23 else 0) |||
        (if r.read then 0 else sdxcCmdAndTxData) ||| (if r.read then sdxcCmdAndRxData else 0) |||
        0 ||| 0 := by
    have hpresent : r.buffer ≠ 0#32 := r.present
    unfold sdxcXferFlags SdxcRequest.data
    cases r.read
    · simp [hpresent]
    · simp [hpresent]
  rw [hdata]
  cases r.autoCmd12 <;> cases r.autoCmd23 <;> cases r.read <;> decide

theorem blockCnt_lt_iff : (blkAttrBlockCntMask >>> 16) < r.blockCnt ↔ 65535 < r.blockCnt.toNat :=
  BitVec.lt_def

/-- The direction and the number of blocks that a configuration asks for: its other flags
lie beside these bits. -/
theorem sdxcConfigFlags_iff {flags : BitVec 32} (read several auto12 auto23 : Prop)
    [Decidable read] [Decidable several] [Decidable auto12] [Decidable auto23]
    (hdir : ¬ IsBitmaskSet flags cmdXferDataXferDirMask)
    (hmulti : ¬ IsBitmaskSet flags cmdXferMultiBlkSelMask) :
    let flags := if read then flags ||| cmdXferDataXferDirMask else flags
    let flags :=
      if several then
        let flags := flags ||| cmdXferMultiBlkSelMask ||| cmdXferBlockCountEnableMask
        if auto12 then flags ||| (1 <<< 2) else flags
      else flags
    let flags := if auto23 then flags ||| (2 <<< 2) else flags
    (IsBitmaskSet flags cmdXferDataXferDirMask ↔ read) ∧
      (IsBitmaskSet flags cmdXferMultiBlkSelMask ↔ several) := by
  dsimp only
  rw [isBitmaskSet_ite_or (by decide), isBitmaskSet_ite_or (by decide)]
  constructor
  · have hadded : IsBitmaskSet (if read then flags ||| cmdXferDataXferDirMask else flags)
        cmdXferDataXferDirMask ↔ read := by
      split
      · rename_i hread
        exact iff_of_true (isBitmaskSet_or.mpr (Or.inr (by decide))) hread
      · rename_i hread
        exact iff_of_false hdir hread
    split
    · rw [isBitmaskSet_ite_or (by decide), isBitmaskSet_or, isBitmaskSet_or,
        or_iff_left (by decide), or_iff_left (by decide)]
      exact hadded
    · exact hadded
  · split
    · rename_i hseveral
      rw [isBitmaskSet_ite_or (by decide), isBitmaskSet_or, isBitmaskSet_or]
      exact iff_of_true (Or.inl (Or.inr (by decide))) hseveral
    · rename_i hseveral
      rw [isBitmaskSet_ite_or (by decide)]
      exact iff_of_false hmulti hseveral

/-- The bits that are cleared before a command are all those of a transfer. -/
theorem sdxcConfigCleared :
    ~~~(cmdXferMultiBlkSelMask ||| cmdXferBlockCountEnableMask ||| cmdXferDataPresentSelMask |||
        cmdXferDataXferDirMask ||| cmdXferAutoCmdEnableMask ||| cmdXferRespTypeSelectMask) &&&
          cmdXferDataXferDirMask = 0 ∧
      ~~~(cmdXferMultiBlkSelMask ||| cmdXferBlockCountEnableMask ||| cmdXferDataPresentSelMask |||
        cmdXferDataXferDirMask ||| cmdXferAutoCmdEnableMask ||| cmdXferRespTypeSelectMask) &&&
          cmdXferMultiBlkSelMask = 0 := by
  decide

/-- What the transfer configuration accepts, and what it programs. -/
theorem sdxcSetTransferConfig_request (r : SdxcRequest) (b : SdxcBase) :
    let result := sdxcSetTransferConfig (sdxcXferFlags r.data) r.blockSize r.blockCnt b
    (result.1 ≠ .success ∧ result.2.2 = b ∧
        (b.pstate = 0 → 65535 < r.blockCnt.toNat)) ∨
      (result.1 = .success ∧ r.blockCnt.toNat ≤ 65535 ∧
        result.2.2 = { b with blkAttr := r.blockSize, sdmasa := r.blockCnt } ∧
        (IsBitmaskSet result.2.1 cmdXferDataXferDirMask ↔ r.read = true) ∧
        (IsBitmaskSet result.2.1 cmdXferMultiBlkSelMask ↔ 1 < r.blockCnt.toNat)) := by
  obtain ⟨hcontinuous, hboot, hread⟩ := sdxcXferFlags_request r
  have hclear : ∀ mask, b.pstate = 0 → ¬ IsBitmaskSet b.pstate mask := fun mask hzero hset => by
    rw [hzero] at hset
    exact hset BitVec.zero_and
  unfold sdxcSetTransferConfig
  dsimp only
  rw [if_neg hcontinuous, if_pos hboot]
  split
  · rename_i hbusy
    exact Or.inl ⟨SdxcStat.noConfusion, rfl, fun hzero => absurd hbusy (hclear _ hzero)⟩
  split
  · rename_i hbusy
    exact Or.inl ⟨SdxcStat.noConfusion, rfl, fun hzero => absurd hbusy (hclear _ hzero)⟩
  split
  · rename_i hcount
    exact Or.inl ⟨SdxcStat.noConfusion, rfl, fun _ => blockCnt_lt_iff.mp hcount⟩
  · rename_i hcount
    obtain ⟨hdir, hmulti⟩ := sdxcConfigFlags_iff
      (IsBitmaskSet (sdxcXferFlags r.data) sdxcCmdAndRxData) (1 < r.blockCnt)
      (IsBitmaskSet (sdxcXferFlags r.data) sdxcDataWithAutoCmd12)
      (IsBitmaskSet (sdxcXferFlags r.data) sdxcDataWithAutoCmd23)
      (not_isBitmaskSet_and_outside b.cmdXfer sdxcConfigCleared.1)
      (not_isBitmaskSet_and_outside b.cmdXfer sdxcConfigCleared.2)
    exact Or.inr ⟨rfl, Nat.not_lt.mp fun h => hcount (blockCnt_lt_iff.mpr h), rfl,
      hdir.trans hread, hmulti.trans BitVec.lt_def⟩

/-- Waiting for the command only reads the status. -/
theorem sdxcWaitCmdDoneLoop_log : ∀ (stat : List (BitVec 32)) (b : SdxcBase) (status : SdxcStat)
    (b' : SdxcBase), sdxcWaitCmdDoneLoop stat b = some (status, b') →
      ∃ vs : List (BitVec 32), b' = { b with log := b.log ++ vs.map SdxcEvent.intStat }
  | [], _, _, _, h => nomatch h
  | v :: rest, b, status, b', h => by
    unfold sdxcWaitCmdDoneLoop at h
    dsimp only at h
    split at h
    · obtain ⟨-, rfl⟩ := Prod.mk.inj (Option.some.inj h)
      exact ⟨[v], rfl⟩
    split at h
    · obtain ⟨-, rfl⟩ := Prod.mk.inj (Option.some.inj h)
      exact ⟨[v], rfl⟩
    · obtain ⟨vs, hvs⟩ := sdxcWaitCmdDoneLoop_log rest _ status b' h
      refine ⟨v :: vs, hvs.trans ?_⟩
      unfold SdxcBase.record
      rw [List.append_assoc]
      rfl

/-- Waiting for the command only reads the status. -/
theorem sdxcWaitCmdDone_log {stat : List (BitVec 32)} {cmd cmd' : SdxcXferCommand} {polling : Bool}
    {status : SdxcStat} {b' : SdxcBase}
    (h : sdxcWaitCmdDone stat cmd polling b = some (status, cmd', b')) :
    ∃ vs : List (BitVec 32), b' = { b with log := b.log ++ vs.map SdxcEvent.intStat } := by
  unfold sdxcWaitCmdDone at h
  split at h
  · obtain ⟨⟨first, mid⟩, hloop, hrest⟩ := Option.map_eq_some_iff.mp h
    obtain ⟨vs, rfl⟩ := sdxcWaitCmdDoneLoop_log stat b first mid hloop
    refine ⟨vs, ?_⟩
    dsimp only at hrest
    split at hrest
    · exact (congrArg (·.2.2) hrest).symm
    · exact (congrArg (·.2.2) hrest).symm
  · obtain rfl := congrArg (·.2.2) (Option.some.inj h)
    exact ⟨[], by rw [List.map_nil, List.append_nil]⟩

/-- What the data phase does: it reads the status, and for SDMA writes the address each
time. -/
def sdxcDataEvents (sdma : Bool) (blockSize : BitVec 32) :
    BitVec 32 → List (BitVec 32) → List SdxcEvent
  | _, [] => []
  | addr, v :: rest =>
    .intStat v :: ((if sdma then [.admaSysAddr (addr + blockSize)] else []) ++
      if IsBitmaskSet v sdxcDmaStatusFlags then []
      else sdxcDataEvents sdma blockSize (addr + blockSize) rest)

/-- Waiting for the data reads the status and, for SDMA, writes the address of each next boundary.
-/
theorem sdxcTransferDataLoop_events (blockSize : BitVec 32) : ∀ (stat : List (BitVec 32))
    (b : SdxcBase) (addr : BitVec 32), (b.dmaSel = SdxcDmaType.sel .sdma → addr = b.admaSysAddr) →
      (sdxcTransferDataLoop blockSize stat b).map Prod.fst = sdxcLastStatus stat ∧
        ∀ r ∈ sdxcTransferDataLoop blockSize stat b, r.2.log = b.log ++
          sdxcDataEvents (b.dmaSel = SdxcDmaType.sel .sdma) blockSize addr stat
  | [], _, _, _ => ⟨rfl, fun _ h => nomatch h⟩
  | v :: rest, b, addr, haddr => by
    unfold sdxcTransferDataLoop sdxcLastStatus sdxcDataEvents
    rw [List.find?_cons]
    by_cases hsdma : b.dmaSel = SdxcDmaType.sel .sdma
    · have hrecord : (b.record (.intStat v)).dmaSel = SdxcDmaType.sel .sdma := hsdma
      rw [haddr hsdma]
      simp only [hsdma, hrecord, decide_true, if_true]
      by_cases hend : IsBitmaskSet v sdxcDmaStatusFlags
      · simp only [hend, if_true, decide_true]
        refine ⟨rfl, fun r hr => ?_⟩
        obtain rfl := Option.some.inj hr
        exact List.append_assoc _ _ _
      · simp only [hend, if_false, decide_false]
        obtain ⟨hstatus, hlog⟩ := sdxcTransferDataLoop_events blockSize rest
          ((b.record (.intStat v)).setAdmaSysAddr (b.admaSysAddr + blockSize))
          (b.admaSysAddr + blockSize) fun _ => rfl
        refine ⟨hstatus, fun r hr => (hlog r hr).trans ?_⟩
        have hkept : ((b.record (.intStat v)).setAdmaSysAddr
            (b.admaSysAddr + blockSize)).dmaSel = SdxcDmaType.sel .sdma := hsdma
        rw [decide_eq_true hkept]
        exact (List.append_assoc _ _ _).trans (List.append_assoc _ _ _)
    · have hrecord : ¬ (b.record (.intStat v)).dmaSel = SdxcDmaType.sel .sdma := hsdma
      simp only [hsdma, hrecord, decide_false, if_false, Bool.false_eq_true, List.nil_append]
      by_cases hend : IsBitmaskSet v sdxcDmaStatusFlags
      · simp only [hend, if_true, decide_true]
        refine ⟨rfl, fun r hr => ?_⟩
        obtain rfl := Option.some.inj hr
        rfl
      · simp only [hend, if_false, decide_false]
        obtain ⟨hstatus, hlog⟩ := sdxcTransferDataLoop_events blockSize rest
          (b.record (.intStat v)) (addr + blockSize) fun h => absurd h hrecord
        refine ⟨hstatus, fun r hr => (hlog r hr).trans ?_⟩
        rw [decide_eq_false hrecord]
        exact List.append_assoc _ _ _

/-- A wait that ends has read a status that shows an end. -/
theorem sdxcTransferDataLoop_some {blockSize v : BitVec 32} {stat : List (BitVec 32)}
    {b' : SdxcBase} (h : sdxcTransferDataLoop blockSize stat b = some (v, b')) :
    sdxcLastStatus stat = some v ∧ b'.log = b.log ++
      sdxcDataEvents (b.dmaSel = SdxcDmaType.sel .sdma) blockSize b.admaSysAddr stat := by
  obtain ⟨hlast, hlog⟩ :=
    sdxcTransferDataLoop_events blockSize stat b b.admaSysAddr fun _ => rfl
  rw [h] at hlast
  exact ⟨hlast.symm, hlog _ h⟩

/-- The bits of `CMD_XFER` that say what is transferred. -/
inductive SdxcTransferMask : BitVec 32 → Prop where
  | dataPresentSel : SdxcTransferMask cmdXferDataPresentSelMask
  | dmaEnable : SdxcTransferMask cmdXferDmaEnableMask
  | dataXferDir : SdxcTransferMask cmdXferDataXferDirMask
  | multiBlkSel : SdxcTransferMask cmdXferMultiBlkSelMask

/-- What is added for the response and for an abort lies beside the bits of the transfer. -/
theorem sdxcSendFlags_iff (cmd : SdxcXferCommand) (b : SdxcBase) {mask : BitVec 32}
    (hmask : SdxcTransferMask mask) :
    IsBitmaskSet (sdxcSendFlags cmd b) mask ↔ IsBitmaskSet cmd.cmdFlags mask := by
  have hresp : ¬ IsBitmaskSet (sdxcRespFlags cmd.respType) mask := by
    cases hmask <;> cases cmd.respType <;> decide
  have hdisable : ¬ IsBitmaskSet cmdXferRespIntDisableMask mask := by
    cases hmask <;> decide
  have habort : ¬ IsBitmaskSet (1 <<< 22) mask := by
    cases hmask <;> decide
  unfold sdxcSendFlags
  dsimp only
  rw [isBitmaskSet_ite_or habort]
  split
  · rw [isBitmaskSet_ite_or hdisable, isBitmaskSet_or]
    exact or_iff_left hresp
  · exact Iff.rfl

/-- `CMD_XFER` takes the bits of the transfer from the command. -/
theorem sdxcCmdXfer_iff (cmd : SdxcXferCommand) (b : SdxcBase) {mask : BitVec 32}
    (hmask : SdxcTransferMask mask) :
    IsBitmaskSet (sdxcCmdXfer cmd b) mask ↔ IsBitmaskSet cmd.cmdFlags mask := by
  have hcleared : ~~~sdxcClearedMask &&& mask = 0 := by cases hmask <;> decide
  have hindex : cmdXferCmdIndexMask &&& mask = 0 := by cases hmask <;> decide
  have hsent : sdxcSentMask &&& mask = mask := by cases hmask <;> decide
  have hcount : ~~~cmdXferBlockCountEnableMask &&& mask = mask := by cases hmask <;> decide
  have hflags : IsBitmaskSet (b.cmdXfer &&& ~~~sdxcClearedMask |||
      ((cmd.cmdIndex <<< 24) &&& cmdXferCmdIndexMask) ||| (sdxcSendFlags cmd b &&& sdxcSentMask))
        mask ↔ IsBitmaskSet cmd.cmdFlags mask := by
    rw [isBitmaskSet_or, isBitmaskSet_or,
      or_iff_right (not_or_intro (not_isBitmaskSet_and_outside _ hcleared)
        (not_isBitmaskSet_and_outside _ hindex)),
      isBitmaskSet_and_inside _ hsent]
    exact sdxcSendFlags_iff cmd b hmask
  unfold sdxcCmdXfer
  dsimp only
  split
  · exact (isBitmaskSet_and_inside _ hcount).trans hflags
  · exact hflags

/-- The block count is never enabled: `sdxc_set_transfer_config` asks for it, and
`sdxc_send_command` clears it in `CMD_XFER` and leaves it out of what it puts in. -/
theorem sdxcCmdXfer_uncounted (cmd : SdxcXferCommand) (b : SdxcBase) :
    ¬ IsBitmaskSet (sdxcCmdXfer cmd b) cmdXferBlockCountEnableMask := by
  unfold sdxcCmdXfer
  dsimp only
  split
  · exact not_isBitmaskSet_and_outside _ (by decide)
  · rw [isBitmaskSet_or, isBitmaskSet_or]
    exact not_or_intro (not_or_intro (not_isBitmaskSet_and_outside _ (by decide))
      (not_isBitmaskSet_and_outside _ (by decide))) (not_isBitmaskSet_and_outside _ (by decide))

/-- Sending a command writes three registers and logs what they hold. -/
theorem sdxcSendCommand_eq (cmd : SdxcXferCommand) (b : SdxcBase) :
    ∃ cmdArg, sdxcSendCommand cmd b = { b with
      cmdArg := cmdArg
      cmdXfer := sdxcCmdXfer cmd b
      log := b.log ++
        [.command ⟨b.dmaSel, b.admaSysAddr, b.blkAttr, b.sdmasa, sdxcCmdXfer cmd b⟩] } :=
  ⟨_, rfl⟩

/-- What `CMD_XFER` says of a request whose command came with the given flags: the driver's
own flags are added to them, so a direction or a number of blocks that they still hold from
an earlier call stays. -/
structure SdxcSelects (r : SdxcRequest) (cmdFlags cmdXfer : BitVec 32) : Prop where
  dataPresent : IsBitmaskSet cmdXfer cmdXferDataPresentSelMask
  dmaEnable : IsBitmaskSet cmdXfer cmdXferDmaEnableMask
  direction : IsBitmaskSet cmdXfer cmdXferDataXferDirMask ↔
    IsBitmaskSet cmdFlags cmdXferDataXferDirMask ∨ r.read = true
  several : IsBitmaskSet cmdXfer cmdXferMultiBlkSelMask ↔
    IsBitmaskSet cmdFlags cmdXferMultiBlkSelMask ∨ 1 < r.blockCnt.toNat
  uncounted : ¬ IsBitmaskSet cmdXfer cmdXferBlockCountEnableMask

/-- The flags of the command when it is issued. -/
theorem sdxcSelects_of_flags {cmdFlags config : BitVec 32} (cmd : SdxcXferCommand) (b : SdxcBase)
    (hflags : cmd.cmdFlags =
      cmdFlags ||| cmdXferDataPresentSelMask ||| cmdXferDmaEnableMask ||| config)
    (hread : IsBitmaskSet config cmdXferDataXferDirMask ↔ r.read = true)
    (hseveral : IsBitmaskSet config cmdXferMultiBlkSelMask ↔ 1 < r.blockCnt.toNat) :
    SdxcSelects r cmdFlags (sdxcCmdXfer cmd b) where
  dataPresent := by
    rw [sdxcCmdXfer_iff cmd b .dataPresentSel, hflags]
    simp only [isBitmaskSet_or]
    exact Or.inl (Or.inl (Or.inr (by decide)))
  dmaEnable := by
    rw [sdxcCmdXfer_iff cmd b .dmaEnable, hflags]
    simp only [isBitmaskSet_or]
    exact Or.inl (Or.inr (by decide))
  direction := by
    have hbeside : ¬ IsBitmaskSet cmdXferDataPresentSelMask cmdXferDataXferDirMask ∧
        ¬ IsBitmaskSet cmdXferDmaEnableMask cmdXferDataXferDirMask := by decide
    rw [sdxcCmdXfer_iff cmd b .dataXferDir, hflags]
    simp only [isBitmaskSet_or, hread, hbeside, or_false]
  several := by
    have hbeside : ¬ IsBitmaskSet cmdXferDataPresentSelMask cmdXferMultiBlkSelMask ∧
        ¬ IsBitmaskSet cmdXferDmaEnableMask cmdXferMultiBlkSelMask := by decide
    rw [sdxcCmdXfer_iff cmd b .multiBlkSel, hflags]
    simp only [isBitmaskSet_or, hseveral, hbeside, or_false]
  uncounted := sdxcCmdXfer_uncounted cmd b

end Phases

/-! ## A whole call -/

section Call

variable {bootDummy : BitVec 32} {r : SdxcRequest} {cfg : SdxcAdmaConfig}
  {desc : Nat → SdxcAdma2Descriptor}

/-- The log of a call that got through to the data phase. -/
def sdxcCallLog (r : SdxcRequest) (cfg : SdxcAdmaConfig) (cmdXfer : BitVec 32)
    (command stat : List (BitVec 32)) : List SdxcEvent :=
  let addr := if cfg.dmaType = .sdma then r.buffer else cfg.admaTable
  .admaSysAddr addr :: .command ⟨cfg.dmaType.sel, addr, r.blockSize, r.blockCnt, cmdXfer⟩ ::
    (command.map SdxcEvent.intStat ++ sdxcDataEvents (cfg.dmaType = .sdma) r.blockSize addr stat)

/-- A call that ended with success. -/
structure SdxcDone (bootDummy : BitVec 32) (r : SdxcRequest) (cmdFlags : BitVec 32)
    (cfg : SdxcAdmaConfig) (desc : Nat → SdxcAdma2Descriptor) (stat : List (BitVec 32))
    (x : SdxcXfer) : Prop where
  accepted : ¬ SdxcDmaRefused r desc cfg
  blockCnt : r.blockCnt.toNat ≤ 65535
  status : ∃ v ∈ sdxcLastStatus stat, sdxcDmaStatus r.ignoreError v = .success
  sel : cfg.dmaType = .sdma ∨ cfg.dmaType = .adma2
  table : cfg.dmaType = .adma2 →
    x.table = adma2Table bootDummy desc cfg.admaTableWords r.buffer (r.blockSize * r.blockCnt) 0
  log : ∃ cmdXfer command, SdxcSelects r cmdFlags cmdXfer ∧
    x.base.log = sdxcCallLog r cfg cmdXfer command stat

/-- No access of the data port. -/
def SdxcNoPort (log : List SdxcEvent) : Prop := ∀ e ∈ log, e.port = none

/-- Stretches of a log that move no word by the data port move none together. -/
theorem SdxcNoPort.append {xs ys : List SdxcEvent} (hx : SdxcNoPort xs) (hy : SdxcNoPort ys) :
    SdxcNoPort (xs ++ ys) :=
  fun e he => (List.mem_append.mp he).elim (hx e) (hy e)

theorem SdxcNoPort.intStat (vs : List (BitVec 32)) : SdxcNoPort (vs.map SdxcEvent.intStat) := by
  intro e he
  obtain ⟨v, -, rfl⟩ := List.mem_map.mp he
  rfl

theorem SdxcNoPort.single {e : SdxcEvent} (h : e.port = none) : SdxcNoPort [e] := by
  intro e' he
  rw [List.mem_singleton.mp he, h]

/-- A wait for the data moves no word by the data port. -/
theorem SdxcNoPort.dataEvents (sdma : Bool) (blockSize : BitVec 32) :
    ∀ (stat : List (BitVec 32)) (addr : BitVec 32),
      SdxcNoPort (sdxcDataEvents sdma blockSize addr stat)
  | [], _ => fun _ h => absurd h List.not_mem_nil
  | v :: rest, addr => by
    have hrest := dataEvents sdma blockSize rest (addr + blockSize)
    refine List.forall_mem_cons.mpr ⟨rfl, SdxcNoPort.append ?_ ?_⟩
    · cases sdma
      · exact fun _ h => absurd h List.not_mem_nil
      · exact SdxcNoPort.single rfl
    · split
      · exact fun _ h => absurd h List.not_mem_nil
      · exact hrest

/-- The rest of a call with the DMA set up. -/
theorem sdxcTransferIssue_returned {stat : SdxcIntStat} {x y : SdxcXfer} {status : SdxcStat}
    {cmdFlags : BitVec 32} (hdata : x.data = some r.data) (hport : SdxcNoPort x.base.log)
    (hflags : x.cmd.cmdFlags = cmdFlags ||| cmdXferDataPresentSelMask ||| cmdXferDmaEnableMask)
    (h : sdxcTransferIssue stat (sdxcXferFlags r.data) r.blockSize r.blockCnt true x =
      .returned status y) :
    y.data = some r.data ∧ SdxcNoPort y.base.log ∧ (status = .success →
      r.blockCnt.toNat ≤ 65535 ∧
        (∃ v ∈ sdxcLastStatus stat.data, sdxcDmaStatus r.ignoreError v = .success) ∧
        y.table = x.table ∧ ∃ (cmdXfer : BitVec 32) (command : List (BitVec 32)),
          SdxcSelects r cmdFlags cmdXfer ∧ y.base.log = x.base.log ++
          [.command ⟨x.base.dmaSel, x.base.admaSysAddr, r.blockSize, r.blockCnt, cmdXfer⟩] ++
          (command.map SdxcEvent.intStat ++ sdxcDataEvents
            (x.base.dmaSel = SdxcDmaType.sel .sdma) r.blockSize x.base.admaSysAddr stat.data)) := by
  unfold sdxcTransferIssue at h
  have hconfig := sdxcSetTransferConfig_request r x.base
  dsimp only at hconfig h
  rcases hconfig with ⟨hfails, hbase, -⟩ | ⟨hok, hcount, hbase, hread, hseveral⟩
  · rw [if_pos hfails] at h
    obtain ⟨rfl, rfl⟩ := SdxcOutcome.returned.inj h
    refine ⟨hdata, ?_, fun hs => absurd hs hfails⟩
    rw [hbase]
    exact hport
  · rw [if_neg (not_not_intro hok), hbase] at h
    obtain ⟨cmdArg, hsend⟩ := sdxcSendCommand_eq
      { x.cmd with cmdFlags := x.cmd.cmdFlags ||| (sdxcSetTransferConfig (sdxcXferFlags r.data)
        r.blockSize r.blockCnt x.base).2.1 }
      { x.base with blkAttr := r.blockSize, sdmasa := r.blockCnt }
    have hselects := sdxcSelects_of_flags
      { x.cmd with cmdFlags := x.cmd.cmdFlags ||| (sdxcSetTransferConfig
        (sdxcXferFlags r.data) r.blockSize r.blockCnt x.base).2.1 }
      { x.base with blkAttr := r.blockSize, sdmasa := r.blockCnt }
      (congrArg (· ||| _) hflags) hread hseveral
    rw [hsend] at h
    generalize sdxcCmdXfer _ _ = cmdXfer at h hselects
    split at h
    · exact nomatch h
    rename_i waited waitStatus cmd mid hwait
    obtain ⟨command, rfl⟩ := sdxcWaitCmdDone_log hwait
    have hwaited : SdxcNoPort ((x.base.log ++ [SdxcEvent.command
        ⟨x.base.dmaSel, x.base.admaSysAddr, r.blockSize, r.blockCnt, cmdXfer⟩]) ++
          command.map SdxcEvent.intStat) :=
      (hport.append (SdxcNoPort.single rfl)).append (SdxcNoPort.intStat command)
    split at h
    · rename_i hcommand
      obtain ⟨rfl, rfl⟩ := SdxcOutcome.returned.inj h
      exact ⟨hdata, hwaited, SdxcStat.noConfusion⟩
    rw [hdata] at h
    dsimp only at h
    split at h
    · exact nomatch h
    rename_i blocking dataStatus data base hblocking
    obtain ⟨rfl, rfl⟩ := SdxcOutcome.returned.inj h
    obtain ⟨⟨v, last⟩, hloop, hresult⟩ := Option.map_eq_some_iff.mp hblocking
    obtain ⟨hlast, hlog⟩ := sdxcTransferDataLoop_some hloop
    have hnormal : ¬ (r.data.dataType = .bootContinuous ∧
        sdxcDmaStatus r.data.enableIgnoreError v = .success) := fun h => SdxcDataType.noConfusion h.1
    dsimp only at hresult
    rw [if_neg hnormal] at hresult
    obtain ⟨hreported, hresult⟩ := Prod.mk.inj hresult
    obtain ⟨rfl, rfl⟩ := Prod.mk.inj hresult
    refine ⟨rfl, ?_, fun hs => ⟨hcount, ⟨v, hlast, hreported.trans hs⟩, rfl, cmdXfer,
      command, hselects, ?_⟩⟩
    · rw [hlog]
      exact hwaited.append (SdxcNoPort.dataEvents _ _ _ _)
    · exact hlog.trans (List.append_assoc _ _ _)

/-- How a call for a request ends. -/
theorem sdxcTransferBlocking_returned {stat : SdxcIntStat} {cmd : SdxcXferCommand}
    {base : SdxcBase} {y : SdxcXfer} {status : SdxcStat}
    (h : sdxcTransferBlocking bootDummy stat (some cfg)
      ⟨cmd, some r.data, ⟨desc, []⟩, { base with log := [] }⟩ = .returned status y) :
    y.data = some r.data ∧ SdxcNoPort y.base.log ∧
      (status = .success → SdxcDone bootDummy r cmd.cmdFlags cfg desc stat.data y) := by
  have hnone : SdxcNoPort [] := fun _ h => absurd h List.not_mem_nil
  unfold sdxcTransferBlocking at h
  split at h
  · obtain ⟨rfl, rfl⟩ := SdxcOutcome.returned.inj h
    exact ⟨rfl, hnone, SdxcStat.noConfusion⟩
  dsimp only at h
  by_cases hrefused : SdxcDmaRefused r desc cfg
  · obtain ⟨first, t, hfirst, hsetUp⟩ :=
      sdxcSetUpDma_refused bootDummy { base with log := [] } hrefused
    rw [hsetUp] at h
    dsimp only at h
    rw [if_pos hfirst] at h
    obtain ⟨rfl, rfl⟩ := SdxcOutcome.returned.inj h
    exact ⟨rfl, hnone, fun hs => absurd hs hfirst⟩
  · obtain ⟨t, b, hsetUp, hready, htable⟩ :=
      sdxcSetUpDma_ready bootDummy { base with log := [] } hrefused
    rw [hsetUp] at h
    dsimp only at h
    rw [if_neg (not_not_intro rfl)] at h
    have hport : SdxcNoPort b.log := by
      rw [hready.log]
      exact SdxcNoPort.single rfl
    have hdma : cfg.dmaType ≠ .nodma := fun hnodma => by
      rcases hready.sel with hsel | hsel <;> exact nomatch hsel.symm.trans hnodma
    rw [if_pos hdma] at h
    obtain ⟨hdata, hports, hsuccess⟩ := sdxcTransferIssue_returned rfl hport rfl h
    refine ⟨hdata, hports, fun hs => ?_⟩
    obtain ⟨hcount, hstatus, htab, cmdXfer, command, hselects, hlog⟩ := hsuccess hs
    refine ⟨hrefused, hcount, hstatus, hready.sel, fun hadma => htab.trans (htable hadma),
      cmdXfer, command, hselects, ?_⟩
    have hsdma : decide (cfg.dmaType.sel = SdxcDmaType.sel .sdma) =
        decide (cfg.dmaType = .sdma) := by
      cases cfg.dmaType <;> rfl
    rw [hlog, hready.log, hready.dmaSel, hready.admaSysAddr, hsdma]
    rfl

/-- A controller that is not busy. -/
def sdxcIdleBase : SdxcBase := ⟨0, 0, 0, 0, 0, 0, 0, 0, Words4.zero, []⟩

/-- A command without a response. -/
def sdxcPlainCommand : SdxcXferCommand :=
  { respType := .none, respErrorFlags := 0, response := Words4.zero, autoCmdResp := 0,
    cmdIndex := 0, cmdArgument := 0, cmdFlags := 0, cmdType := .normalCmd }

/-- A call on an idle controller whose command completes at once. -/
def sdxcPlainCall (bootDummy : BitVec 32) (r : SdxcRequest) (cmdFlags : BitVec 32)
    (dmaConfig : Option SdxcAdmaConfig) (desc : Nat → SdxcAdma2Descriptor)
    (stat : List (BitVec 32)) : SdxcOutcome :=
  sdxcTransferBlocking bootDummy ⟨0, [intStatCmdComplete], stat⟩ dmaConfig
    ⟨{ sdxcPlainCommand with cmdFlags := cmdFlags }, some r.data, ⟨desc, []⟩,
      { sdxcIdleBase with log := [] }⟩

/-- A command without a response is done when the controller says so. -/
theorem sdxcWaitCmdDone_plain {cmd : SdxcXferCommand} {b : SdxcBase}
    (hresp : cmd.respType = .none) (hflags : cmd.respErrorFlags = 0) :
    sdxcWaitCmdDone [intStatCmdComplete] cmd true b =
      some (.success, cmd, b.record (.intStat intStatCmdComplete)) := by
  have hloop : sdxcWaitCmdDoneLoop [intStatCmdComplete] b =
      some (.success, b.record (.intStat intStatCmdComplete)) := by
    unfold sdxcWaitCmdDoneLoop
    rw [if_neg (by decide), if_pos (by decide)]
  have hreceived : ∀ resp autoCmd12,
      sdxcReceiveCmdResponse resp autoCmd12 cmd.toSdxcCommand =
        (.success, cmd.toSdxcCommand) := fun resp auto => by
    unfold sdxcReceiveCmdResponse
    dsimp only
    rw [if_neg (not_not_intro hresp), if_neg fun h => h.1 hflags]
  unfold sdxcWaitCmdDone
  rw [if_pos rfl, hloop, Option.map_some]
  dsimp only
  rw [if_pos rfl, hreceived]

/-- A data phase that ends without an error is a success. -/
theorem sdxcTransferDataBlocking_success {stat : List (BitVec 32)} {v : BitVec 32}
    (hlast : sdxcLastStatus stat = some v)
    (hstatus : sdxcDmaStatus r.ignoreError v = .success) (b : SdxcBase) :
    ∃ b', sdxcTransferDataBlocking stat r.data true b = some (.success, r.data, b') ∧
      b'.log = b.log ++
        sdxcDataEvents (b.dmaSel = SdxcDmaType.sel .sdma) r.blockSize b.admaSysAddr stat := by
  obtain ⟨hend, hlog⟩ :=
    sdxcTransferDataLoop_events r.blockSize stat b b.admaSysAddr fun _ => rfl
  rw [hlast] at hend
  obtain ⟨⟨v', b'⟩, hloop, rfl⟩ := Option.map_eq_some_iff.mp hend
  have hrun : sdxcTransferDataLoop r.data.blockSize stat b = some (v', b') := hloop
  have hreported : sdxcDmaStatus r.data.enableIgnoreError v' = .success := hstatus
  have hnormal : ¬ (r.data.dataType = .bootContinuous ∧
      SdxcStat.success = .success) := fun h => SdxcDataType.noConfusion h.1
  refine ⟨b', ?_, hlog _ hloop⟩
  unfold sdxcTransferDataBlocking
  rw [if_pos rfl, hrun, Option.map_some]
  dsimp only
  rw [hreported, if_neg hnormal]

/-- A command and a data phase that both succeed are a transfer that does. -/
theorem sdxcTransferIssue_success (stat : SdxcIntStat) {x : SdxcXfer} {v cmdFlags : BitVec 32}
    (hdata : x.data = some r.data)
    (hflagged : x.cmd.cmdFlags = cmdFlags ||| cmdXferDataPresentSelMask ||| cmdXferDmaEnableMask)
    (hresp : x.cmd.respType = .none)
    (hflags : x.cmd.respErrorFlags = 0) (hidle : x.base.pstate = 0)
    (hcommand : stat.command = [intStatCmdComplete]) (hcount : r.blockCnt.toNat ≤ 65535)
    (hlast : sdxcLastStatus stat.data = some v)
    (hstatus : sdxcDmaStatus r.ignoreError v = .success) :
    ∃ y cmdXfer, sdxcTransferIssue stat (sdxcXferFlags r.data) r.blockSize r.blockCnt true x =
        .returned .success y ∧ SdxcSelects r cmdFlags cmdXfer ∧
      y.base.log = x.base.log ++
        [.command ⟨x.base.dmaSel, x.base.admaSysAddr, r.blockSize, r.blockCnt, cmdXfer⟩] ++
        ([SdxcEvent.intStat intStatCmdComplete] ++ sdxcDataEvents
          (x.base.dmaSel = SdxcDmaType.sel .sdma) r.blockSize x.base.admaSysAddr stat.data) := by
  unfold sdxcTransferIssue
  have hconfig := sdxcSetTransferConfig_request r x.base
  dsimp only at hconfig ⊢
  obtain ⟨hok, -, hbase, hread, hseveral⟩ := hconfig.resolve_left fun h => by
    have hlarge := h.2.2 hidle
    omega
  rw [if_neg (not_not_intro hok), hbase, hcommand, hdata]
  obtain ⟨cmdArg, hsend⟩ := sdxcSendCommand_eq
    { x.cmd with cmdFlags := x.cmd.cmdFlags ||| (sdxcSetTransferConfig (sdxcXferFlags r.data)
      r.blockSize r.blockCnt x.base).2.1 }
    { x.base with blkAttr := r.blockSize, sdmasa := r.blockCnt }
  have hselects := sdxcSelects_of_flags
    { x.cmd with cmdFlags := x.cmd.cmdFlags ||| (sdxcSetTransferConfig
      (sdxcXferFlags r.data) r.blockSize r.blockCnt x.base).2.1 }
    { x.base with blkAttr := r.blockSize, sdmasa := r.blockCnt }
    (congrArg (· ||| _) hflagged) hread hseveral
  have hpolling : decide (r.data.dataType = SdxcDataType.normal) = true := rfl
  rw [hsend]
  generalize sdxcCmdXfer _ _ = cmdXfer at hselects ⊢
  dsimp only
  rw [hpolling]
  rw [sdxcWaitCmdDone_plain (by exact hresp) (by exact hflags)]
  dsimp only
  rw [if_neg (not_not_intro rfl)]
  generalize hmid : SdxcBase.record _ _ = mid
  obtain ⟨b', hblocking, hlog⟩ := sdxcTransferDataBlocking_success hlast hstatus mid
  rw [hblocking]
  refine ⟨_, cmdXfer, rfl, hselects, hlog.trans ?_⟩
  rw [← hmid]
  exact List.append_assoc _ _ _

/-- Where nothing is in the way, a call ends with success. -/
theorem sdxcPlainCall_success {stat : List (BitVec 32)} {v : BitVec 32} (cmdFlags : BitVec 32)
    (haccepted : ¬ SdxcDmaRefused r desc cfg) (hcount : r.blockCnt.toNat ≤ 65535)
    (hlast : sdxcLastStatus stat = some v)
    (hstatus : sdxcDmaStatus r.ignoreError v = .success) :
    ∃ y cmdXfer, sdxcPlainCall bootDummy r cmdFlags (some cfg) desc stat = .returned .success y ∧
      SdxcSelects r cmdFlags cmdXfer ∧
      y.base.log = sdxcCallLog r cfg cmdXfer [intStatCmdComplete] stat := by
  obtain ⟨t, b, hsetUp, hready, -⟩ :=
    sdxcSetUpDma_ready bootDummy { sdxcIdleBase with log := [] } haccepted
  have hsdma : decide (cfg.dmaType.sel = SdxcDmaType.sel .sdma) =
      decide (cfg.dmaType = .sdma) := by
    cases cfg.dmaType <;> rfl
  have hdma : cfg.dmaType ≠ .nodma := fun hnodma => by
    rcases hready.sel with hsel | hsel <;> exact nomatch hsel.symm.trans hnodma
  unfold sdxcPlainCall sdxcTransferBlocking
  dsimp only
  rw [if_neg (by decide), hsetUp]
  dsimp only
  rw [if_neg (not_not_intro rfl), if_pos hdma]
  generalize hx : SdxcXfer.mk _ _ _ _ = x
  have hbase : x.base = b := by rw [← hx]
  have hcmd : x.cmd.toSdxcCommand = sdxcPlainCommand.toSdxcCommand := by rw [← hx]
  obtain ⟨y, cmdXfer, hy, hselects, hlog⟩ := sdxcTransferIssue_success (r := r) (x := x)
    ⟨0, [intStatCmdComplete], stat⟩ (by rw [← hx]) (by rw [← hx]) (congrArg SdxcCommand.respType hcmd)
    (congrArg SdxcCommand.respErrorFlags hcmd) (by rw [hbase]; exact hready.pstate) rfl hcount
    hlast hstatus
  refine ⟨y, cmdXfer, hy, hselects, hlog.trans ?_⟩
  rw [hbase, hready.log, hready.dmaSel, hready.admaSysAddr, hsdma]
  rfl

end Call

end HpmSdk.Sdxc
