import HpmSdk.Sd.Card
import HpmSdk.Soc.Misc

set_option autoImplicit false

/-!
# SD cards: reading and writing blocks (`hpm_sdmmc_sd.c`)

The two functions and the commands that they issue.  The command, the data and the
transfer structure belong to the host and are shared by all commands; what is not
set again keeps its value.
-/

namespace HpmSdk.Sd

open HpmSdk.Sdxc HpmSdk.Soc

/-! ## Data -/

/-- `hpm_stat_t`. -/
abbrev HpmStatus := BitVec 32

/-- `status_success`. -/
def statusSuccess : HpmStatus := 0

/-- `sdmmchost_cmd_t`, as far as these functions set it. -/
structure SdmmcCmd where
  cmdIndex : BitVec 32
  cmdArgument : BitVec 32
  respType : SdxcDevResp
  deriving DecidableEq, Repr

/-- `sdmmchost_data_t`; a pointer is zero for `NULL`. -/
structure SdmmcData where
  blockSize : BitVec 32
  blockCnt : BitVec 32
  rxData : BitVec 32
  txData : BitVec 32
  deriving DecidableEq, Repr

/-- `sdmmc_host_t`; `xferData` tells that `xfer.data` points to `data`. -/
structure SdmmcHost where
  cmd : SdmmcCmd
  data : SdmmcData
  xferData : Bool
  deriving DecidableEq, Repr

def SdmmcCmd.zero : SdmmcCmd := ⟨0, 0, .none⟩

def SdmmcData.zero : SdmmcData := ⟨0, 0, 0, 0⟩

/-- `sd_card_t`, as far as these functions read it.  `highCapacity` is
`ocr.card_capacity_status`, which none of them reads. -/
structure SdBlockCard where
  relativeAddr : BitVec 16
  supportSetBlockCountCmd : Bool
  highCapacity : Bool
  deriving DecidableEq, Repr

/-- A command on the line, the data that went with it and how it ended. -/
structure SdIssued where
  cmdIndex : BitVec 32
  cmdArgument : BitVec 32
  data : Option SdmmcData
  status : HpmStatus
  deriving DecidableEq, Repr

/-- The host and the card status, and the commands that were issued. -/
structure SdSession where
  host : SdmmcHost
  r1Status : BitVec 32
  commands : Nat
  polls : Nat
  log : List SdIssued
  deriving DecidableEq, Repr

/-- How a CMD13 ends, and the status that the card answers with. -/
structure SdReply where
  status : HpmStatus
  response : BitVec 32
  deriving DecidableEq, Repr

/-- What comes from the card: how the commands other than CMD13 end, in their order,
and for each time that the status is polled what the card answers, where a list that
ends while the card is busy is a card that stays so. -/
structure SdLine where
  replies : Nat → HpmStatus
  polls : Nat → List SdReply

/-! ## Commands -/

def sdmmcCmdSendStatus : BitVec 32 := 13
def sdmmcCmdReadSingleBlock : BitVec 32 := 17
def sdmmcCmdReadMultipleBlock : BitVec 32 := 18
def sdmmcCmdSetBlockCount : BitVec 32 := 23
def sdmmcCmdWriteSingleBlock : BitVec 32 := 24
def sdmmcCmdWriteMultipleBlock : BitVec 32 := 25

/-- `sdmmc_state_program`. -/
def sdmmcStateProgram : BitVec 32 := 7

def SdSession.setCmd (s : SdSession) (cmd : SdmmcCmd) : SdSession :=
  { s with host := { s.host with cmd := cmd } }

/-- The command of the host goes over the line. -/
def SdSession.issue (s : SdSession) (data : Option SdmmcData) (status : HpmStatus) : SdSession :=
  { s with log := s.log ++ [⟨s.host.cmd.cmdIndex, s.host.cmd.cmdArgument, data, status⟩] }

/-- `sdmmchost_send_command`. -/
def sdmmchostSendCommand (line : SdLine) (s : SdSession) : HpmStatus × SdSession :=
  (line.replies s.commands,
    { s.issue none (line.replies s.commands) with commands := s.commands + 1 })

/-- `sdmmchost_transfer`. -/
def sdmmchostTransfer (line : SdLine) (s : SdSession) : HpmStatus × SdSession :=
  if s.host.xferData then
    (line.replies s.commands,
      { s.issue (some s.host.data) (line.replies s.commands) with commands := s.commands + 1 })
  else sdmmchostSendCommand line s

/-- `sdmmc_set_block_count`. -/
def sdmmcSetBlockCount (line : SdLine) (blockCount : BitVec 32) (s : SdSession) :
    HpmStatus × SdSession :=
  sdmmchostSendCommand line (s.setCmd ⟨sdmmcCmdSetBlockCount, blockCount, .r1⟩)

/-- `sd_send_card_status`. -/
def sdSendCardStatus (card : SdBlockCard) (reply : SdReply) (s : SdSession) :
    HpmStatus × SdSession :=
  let s := s.setCmd ⟨sdmmcCmdSendStatus, card.relativeAddr.setWidth 32 <<< 16, .r1⟩
  let s := s.issue none reply.status
  if reply.status ≠ statusSuccess then (reply.status, s)
  else (reply.status, { s with r1Status := reply.response })

/-- `ready_for_data`. -/
def readyForData (r1Status : BitVec 32) : Bool := r1Status.getLsbD 8

/-- The test of the polling loop. -/
def SdBusy (r1Status : BitVec 32) : Prop :=
  r1Status = sdmmcStateProgram ∨ readyForData r1Status = false

instance (r1Status : BitVec 32) : Decidable (SdBusy r1Status) :=
  inferInstanceAs (Decidable (_ ∨ _))

/-- The loop of `sd_polling_card_status_busy`, which has no limit. -/
def sdPollingCardStatusBusyLoop (card : SdBlockCard) :
    List SdReply → SdSession → Option (HpmStatus × SdSession)
  | [], _ => none
  | reply :: replies, s =>
    let (status, s) := sdSendCardStatus card reply s
    if SdBusy s.r1Status then sdPollingCardStatusBusyLoop card replies s else some (status, s)

/-- `sd_polling_card_status_busy`. -/
def sdPollingCardStatusBusy (line : SdLine) (card : SdBlockCard) (s : SdSession) :
    Option (HpmStatus × SdSession) :=
  sdPollingCardStatusBusyLoop card (line.polls s.polls) { s with polls := s.polls + 1 }

/-! ## `sd_read_blocks` and `sd_write_blocks` -/

/-- `sdmmc_get_sys_addr`. -/
def sdmmcGetSysAddr (core : HpmCore) (addr : BitVec 32) : BitVec 32 :=
  coreLocalMemToSysAddress core addr

/-- What the two functions differ in. -/
inductive SdAccess where
  | read
  | write
  deriving DecidableEq, Repr

namespace SdAccess

/-- The command for one block. -/
def single : SdAccess → BitVec 32
  | read => sdmmcCmdReadSingleBlock
  | write => sdmmcCmdWriteSingleBlock

/-- The command for several blocks. -/
def multiple : SdAccess → BitVec 32
  | read => sdmmcCmdReadMultipleBlock
  | write => sdmmcCmdWriteMultipleBlock

end SdAccess

/-- The data of a command for `n` blocks. -/
def SdmmcData.setBlocks (data : SdmmcData) (access : SdAccess) (n : Nat) (addr : BitVec 32) :
    SdmmcData :=
  let data := { data with blockSize := sdmmcBlockSizeDefault, blockCnt := BitVec.ofNat 32 n }
  match access with
  | .read => { data with rxData := addr }
  | .write => { data with txData := addr }

/-- The blocks of one pass: up to 64 where CMD23 is supported. -/
def sdPassBlocks (card : SdBlockCard) (blockCount : Nat) : Nat :=
  if card.supportSetBlockCountCmd then if 64 ≤ blockCount then 64 else blockCount else 1

section Blocks

variable (line : SdLine) (core : HpmCore) (card : SdBlockCard) (access : SdAccess)

/-- Set up the data command and transfer. -/
def sdDataCommand (cmdIndex : BitVec 32) (n : Nat) (startBlock buffer : BitVec 32)
    (s : SdSession) : HpmStatus × SdSession :=
  let cmd : SdmmcCmd :=
    { s.host.cmd with cmdIndex := cmdIndex, respType := .r1, cmdArgument := startBlock }
  let data := s.host.data.setBlocks access n (sdmmcGetSysAddr core buffer)
  sdmmchostTransfer line { s with host := ⟨cmd, data, true⟩ }

/-- The commands of one pass of a loop. -/
def sdBlocksPass (n : Nat) (startBlock buffer : BitVec 32) (s : SdSession) :
    HpmStatus × SdSession :=
  if card.supportSetBlockCountCmd then
    let (status, s) := sdmmcSetBlockCount line (BitVec.ofNat 32 n) s
    if status ≠ statusSuccess then (status, s)
    else sdDataCommand line core access access.multiple n startBlock buffer s
  else sdDataCommand line core access access.single n startBlock buffer s

/-- The status is polled after every command that writes; its result is not used. -/
def sdPassPoll (s : SdSession) : Option SdSession :=
  match access with
  | .read => some s
  | .write => (sdPollingCardStatusBusy line card s).map Prod.snd

/-- The loop over the blocks that are left; a pass takes one of them at least. -/
def sdBlocksLoop : Nat → HpmStatus → BitVec 32 → BitVec 32 → Nat → SdSession →
    Option (HpmStatus × SdSession)
  | 0, _, _, _, _, _ => none
  | fuel + 1, status, startBlock, buffer, blockCount, s =>
    if blockCount = 0 then some (status, s)
    else
      let n := sdPassBlocks card blockCount
      let (status, s) := sdBlocksPass line core card access n startBlock buffer s
      if status ≠ statusSuccess then some (status, s)
      else
        (sdPassPoll line card access s).bind fun s =>
          sdBlocksLoop fuel status (startBlock + BitVec.ofNat 32 n)
            (buffer + sdmmcBlockSizeDefault * BitVec.ofNat 32 n) (blockCount - n) s

/-- `memset` of the three structures. -/
def SdSession.clear (s : SdSession) : SdSession :=
  { s with host := ⟨SdmmcCmd.zero, SdmmcData.zero, false⟩ }

/-- The two functions: `status` is the variable as it is before any command. -/
def sdBlocks (status : HpmStatus) (buffer startBlock blockCount : BitVec 32) (s : SdSession) :
    Option (HpmStatus × SdSession) :=
  (sdPassPoll line card access s.clear).bind fun s =>
    sdBlocksLoop line core card access (blockCount.toNat + 1) status startBlock buffer
      blockCount.toNat s

/-- `sd_read_blocks`. -/
def sdReadBlocks := sdBlocks line core card .read

/-- `sd_write_blocks`. -/
def sdWriteBlocks := sdBlocks line core card .write

end Blocks

end HpmSdk.Sd
