import HpmSdk.Sd.Blocks

set_option autoImplicit false

/-!
# SD cards: bringing a card up (`hpm_sdmmc_sd.c`)

`sd_card_init` and the functions that issue its commands.  The card answers the commands in their
order; the loop that waits for the card to be powered up is run for a number of rounds.
-/

namespace HpmSdk.Sd

open HpmSdk.Sdxc

/-! ## Data -/

/-- `status_invalid_argument`. -/
def statusInvalidArgument : HpmStatus := 2

/-- `status_sdmmc_card_not_support`. -/
def statusSdmmcCardNotSupport : HpmStatus := 500 * 1000

/-- `sdmmc_operation_voltage_t`. -/
inductive SdmmcOperationVoltage where
  | v1v8
  | v3v0
  | v3v3
  deriving DecidableEq, Repr

/-- How a command ends, the response that is received, and the words that come into the buffer
where it reads data. -/
structure SdInitReply where
  status : HpmStatus
  response : Words4
  data : Nat → BitVec 32

/-- `sd_card_t`, as far as `sd_card_init` uses it; `registers` is what CSD and SCR are decoded
into, and `sfs` the words of the function status. -/
structure SdInitCard where
  relativeAddr : BitVec 16
  cidWord0 : BitVec 32
  cidWord1 : BitVec 32
  ocr : BitVec 32
  registers : SdCard
  sfs : List (BitVec 32)
  operationVoltage : SdmmcOperationVoltage
  deriving DecidableEq, Repr

/-- The card, the response in the command of the host, the bus width and the clock of the
controller, and the commands that were issued. -/
structure SdInitSession where
  card : SdInitCard
  response : Words4
  busWidth : BitVec 32
  clock : BitVec 32
  commands : Nat
  log : List SdIssued
  deriving DecidableEq, Repr

/-! ## Commands -/

def sdmmcCmdGoIdleState : BitVec 32 := 0
def sdmmcCmdSelectCard : BitVec 32 := 7
def sdmmcCmdSetBlockLength : BitVec 32 := 16
def sdmmcCmdAppCmd : BitVec 32 := 55
def sdCmdAllSendCid : BitVec 32 := 2
def sdCmdSendRelativeAddr : BitVec 32 := 3
def sdCmdSwitch : BitVec 32 := 6
def sdCmdSendIfCond : BitVec 32 := 8
def sdCmdSendCsd : BitVec 32 := 9
def sdAcmdSetBusWidth : BitVec 32 := 6
def sdAcmdSdSendOpCond : BitVec 32 := 41
def sdAcmdSendScr : BitVec 32 := 51

def sdxcBusWidth1bit : BitVec 32 := 0
def sdmmcBusWidth1bit : BitVec 32 := 0
def sdmmcBusWidth4bit : BitVec 32 := 1
def sdmmcClock400Khz : BitVec 32 := 400000
def sdClock25Mhz : BitVec 32 := 25000000
def sdClock50Mhz : BitVec 32 := 50000000

def sdSwitchFunctionModeSet : BitVec 32 := 1
def sdSwitchFunctionGroupAccessMode : BitVec 32 := 1
def sdTimingSdr25Highspeed : BitVec 32 := 1

/-- `switching_to_1v8_accepted`. -/
def switchingTo1v8Accepted (ocr : BitVec 32) : Bool := ocr.getLsbD 24

/-- `card_power_up_status`. -/
def cardPowerUpStatus (ocr : BitVec 32) : Bool := ocr.getLsbD 31

/-- `sd_be2le`. -/
def sdBe2le (be : BitVec 32) : BitVec 32 :=
  be.extractLsb' 0 8 ++ be.extractLsb' 8 8 ++ be.extractLsb' 16 8 ++ be.extractLsb' 24 8

/-- `sd_convert_data_endian`. -/
def sdConvertDataEndian (words : List (BitVec 32)) : List (BitVec 32) :=
  words.reverse.map sdBe2le

/-- The address of the card as an argument. -/
def SdInitCard.rcaArgument (card : SdInitCard) : BitVec 32 :=
  card.relativeAddr.setWidth 32 <<< 16

/-- The status that `sd_send_if_cond` returns. -/
def sdIfCondStatus (reply : SdInitReply) : HpmStatus :=
  if reply.status ≠ statusSuccess then reply.status
  else if reply.response.w0 &&& 0xFF ≠ 0xAA then statusSdmmcCardNotSupport
  else statusSuccess

/-- The argument of CMD6. -/
def sdSwitchArgument (mode group number : BitVec 32) : BitVec 32 :=
  (mode <<< 31) ||| (0x00FFFFFF &&& ~~~((0xF : BitVec 32) <<< ((group - 1) * 4).toNat)) |||
    (number <<< ((group - 1) * 4).toNat)

/-- `HPM_BREAK_IF(status != status_success)` and what stands behind it. -/
def hpmBreakIf (r : HpmStatus × SdInitSession)
    (next : SdInitSession → HpmStatus × SdInitSession) : HpmStatus × SdInitSession :=
  if r.1 ≠ statusSuccess then r else next r.2

section Init

variable (support1v8 : Bool) (replies : Nat → SdInitReply)

/-- The card answers the next command. -/
def sdInitCommand (cmdIndex cmdArgument : BitVec 32) (data : Option SdmmcData)
    (s : SdInitSession) : HpmStatus × SdInitSession :=
  let reply := replies s.commands
  (reply.status,
    { s with
      response := reply.response
      commands := s.commands + 1
      log := s.log ++ [⟨cmdIndex, cmdArgument, data, reply.status⟩] })

/-- `sdmmc_go_idle_state`. -/
def sdmmcGoIdleState (s : SdInitSession) : HpmStatus × SdInitSession :=
  sdInitCommand replies sdmmcCmdGoIdleState 0 none s

/-- `sdmmc_send_application_command`. -/
def sdmmcSendApplicationCommand (s : SdInitSession) : HpmStatus × SdInitSession :=
  sdInitCommand replies sdmmcCmdAppCmd s.card.rcaArgument none s

/-- `sdmmc_set_block_size`. -/
def sdmmcSetBlockSize (blockSize : BitVec 32) (s : SdInitSession) : HpmStatus × SdInitSession :=
  sdInitCommand replies sdmmcCmdSetBlockLength blockSize none s

/-- `sd_send_if_cond`. -/
def sdSendIfCond (s : SdInitSession) : HpmStatus × SdInitSession :=
  let reply := replies s.commands
  (sdIfCondStatus reply, (sdInitCommand replies sdCmdSendIfCond 0x1aa none s).2)

/-- `sd_switch_voltage`. -/
def sdSwitchVoltage (s : SdInitSession) : HpmStatus × SdInitSession :=
  sdInitCommand replies sdCmdSwitch 0 none s

/-- `sd_app_cmd_send_cond_op`. -/
def sdAppCmdSendCondOp (ocr : BitVec 32) (s : SdInitSession) : HpmStatus × SdInitSession :=
  hpmBreakIf (sdmmcSendApplicationCommand replies s) fun s =>
    sdInitCommand replies sdAcmdSdSendOpCond ocr none s

/-- `sd_all_send_cid`. -/
def sdAllSendCid (s : SdInitSession) : HpmStatus × SdInitSession :=
  hpmBreakIf (sdInitCommand replies sdCmdAllSendCid 0 none s) fun s =>
    (statusSuccess,
      { s with card := { s.card with cidWord0 := s.response.w0, cidWord1 := s.response.w1 } })

/-- `sd_send_rca`. -/
def sdSendRca (s : SdInitSession) : HpmStatus × SdInitSession :=
  hpmBreakIf (sdInitCommand replies sdCmdSendRelativeAddr 0 none s) fun s =>
    (statusSuccess,
      { s with card := { s.card with relativeAddr := (s.response.w0 >>> 16).setWidth 16 } })

/-- `sd_send_csd`. -/
def sdSendCsd (s : SdInitSession) : HpmStatus × SdInitSession :=
  hpmBreakIf (sdInitCommand replies sdCmdSendCsd s.card.rcaArgument none s) fun s =>
    (statusSuccess,
      { s with card := { s.card with registers := sdDecodeCsd s.card.registers s.response } })

/-- `sd_select_card`, with `is_selected`. -/
def sdSelectCard (s : SdInitSession) : HpmStatus × SdInitSession :=
  sdInitCommand replies sdmmcCmdSelectCard s.card.rcaArgument none s

/-- `sd_send_scr`; the buffer is that of the host, so its address is left out. -/
def sdSendScr (s : SdInitSession) : HpmStatus × SdInitSession :=
  hpmBreakIf (sdmmcSendApplicationCommand replies s) fun s =>
    let words := (replies s.commands).data
    hpmBreakIf (sdInitCommand replies sdAcmdSendScr 0 (some ⟨8, 1, 0, 0⟩) s) fun s =>
      let scr := sdConvertDataEndian [words 0, words 1]
      (statusSuccess,
        { s with card :=
          { s.card with registers := sdDecodeScr s.card.registers (scr.getD 0 0) (scr.getD 1 0) } })

/-- `sd_set_bus_width`. -/
def sdSetBusWidth (busWidth : BitVec 32) (s : SdInitSession) : HpmStatus × SdInitSession :=
  hpmBreakIf (sdmmcSendApplicationCommand replies s) fun s =>
    if busWidth = sdmmcBusWidth1bit then sdInitCommand replies sdAcmdSetBusWidth 0 none s
    else if busWidth = sdmmcBusWidth4bit then sdInitCommand replies sdAcmdSetBusWidth 2 none s
    else (statusInvalidArgument, s)

/-- `sd_switch_function`. -/
def sdSwitchFunction (mode group number : BitVec 32) (s : SdInitSession) :
    HpmStatus × SdInitSession :=
  if 6 < group ∨ group < 1 ∨ 15 < number then (statusInvalidArgument, s)
  else
    let words := (replies s.commands).data
    hpmBreakIf (sdInitCommand replies sdCmdSwitch (sdSwitchArgument mode group number)
        (some ⟨64, 1, 0, 0⟩) s) fun s =>
      (statusSuccess,
        { s with card :=
          { s.card with sfs := sdConvertDataEndian ((List.range 16).map words) } })

/-- `sd_set_bus_timing`. -/
def sdSetBusTiming (s : SdInitSession) : HpmStatus × SdInitSession :=
  hpmBreakIf (sdSwitchFunction replies sdSwitchFunctionModeSet sdSwitchFunctionGroupAccessMode
      sdTimingSdr25Highspeed s) fun s =>
    (statusSuccess, { s with clock := sdClock50Mhz })

/-! ## `sd_probe_bus_voltage` -/

/-- The conditions that the host offers. -/
def sdHostOcr : BitVec 32 := if support1v8 then 0x41ff8000 else 0x40ff8000

/-- The loop that waits for the card, which has no limit: without a status it is still waiting.
It gives the conditions that were received last. -/
def sdOpCondLoop : Nat → BitVec 32 → SdInitSession → Option HpmStatus × BitVec 32 × SdInitSession
  | 0, recvOcr, s => (none, recvOcr, s)
  | rounds + 1, recvOcr, s =>
    let r := sdAppCmdSendCondOp replies (sdHostOcr support1v8) s
    -- the break leaves this loop only
    if r.1 ≠ statusSuccess then (some r.1, recvOcr, r.2)
    else if cardPowerUpStatus r.2.response.w0 then (some r.1, r.2.response.w0, r.2)
    else sdOpCondLoop rounds r.2.response.w0 r.2

/-- What follows the loop. -/
def sdProbeVoltage (status : HpmStatus) (recvOcr : BitVec 32) (s : SdInitSession) :
    HpmStatus × SdInitSession :=
  let s := { s with card := { s.card with ocr := recvOcr } }
  let voltage := fun s : SdInitSession =>
    { s with card := { s.card with
      operationVoltage := if support1v8 then SdmmcOperationVoltage.v1v8 else .v3v3 } }
  if support1v8 && switchingTo1v8Accepted recvOcr then
    hpmBreakIf (sdSwitchVoltage replies s) fun s => (statusSuccess, voltage s)
  else (status, voltage s)

/-- From the first ACMD41 on. -/
def sdProbeOpCond (rounds : Nat) (s : SdInitSession) : Option HpmStatus × SdInitSession :=
  let r := sdAppCmdSendCondOp replies (sdHostOcr support1v8) s
  if r.1 ≠ statusSuccess then (some r.1, r.2)
  else
    match sdOpCondLoop support1v8 replies rounds r.2.response.w0 r.2 with
    | (none, _, s) => (none, s)
    | (some status, recvOcr, s) =>
      let r := sdProbeVoltage support1v8 replies status recvOcr s
      (some r.1, r.2)

/-- `sd_probe_bus_voltage`. -/
def sdProbeBusVoltage (rounds : Nat) (s : SdInitSession) : Option HpmStatus × SdInitSession :=
  let idle := sdmmcGoIdleState replies s
  if idle.1 ≠ statusSuccess then (some idle.1, idle.2)
  else
    let cond := sdSendIfCond replies idle.2
    if cond.1 = statusSdmmcCardNotSupport then
      let idle := sdmmcGoIdleState replies cond.2
      if idle.1 ≠ statusSuccess then (some idle.1, idle.2)
      else sdProbeOpCond support1v8 replies rounds idle.2
    else sdProbeOpCond support1v8 replies rounds cond.2

/-! ## `sd_card_init` -/

/-- The bus width, where the card supports four bits. -/
def sdWiden (s : SdInitSession) : HpmStatus × SdInitSession :=
  if s.card.registers.sdFlags.support4bitWidth then
    hpmBreakIf (sdSetBusWidth replies sdmmcBusWidth4bit s) fun s =>
      (statusSuccess, { s with busWidth := sdmmcBusWidth4bit })
  else (statusSuccess, s)

/-- From the bus width on. -/
def sdConfigure (s : SdInitSession) : HpmStatus × SdInitSession :=
  hpmBreakIf (sdWiden replies s) fun s =>
    hpmBreakIf (sdmmcSetBlockSize replies sdmmcBlockSizeDefault s) fun s =>
      sdSetBusTiming replies s

/-- From the selection on: the statuses of the selection and of the SCR are not looked at. -/
def sdSelected (s : SdInitSession) : HpmStatus × SdInitSession :=
  let s := (sdSelectCard replies s).2
  let s := { s with clock := sdClock25Mhz }
  sdConfigure replies (sdSendScr replies s).2

/-- From the CID on. -/
def sdIdentify (s : SdInitSession) : HpmStatus × SdInitSession :=
  hpmBreakIf (sdAllSendCid replies s) fun s =>
    hpmBreakIf (sdSendRca replies s) fun s =>
      hpmBreakIf (sdSendCsd replies s) fun s => sdSelected replies s

/-- `sd_card_init`; without a status the card is still waited for. -/
def sdCardInit (rounds : Nat) (s : SdInitSession) : Option HpmStatus × SdInitSession :=
  let s := { s with busWidth := sdxcBusWidth1bit, clock := sdmmcClock400Khz }
  match sdProbeBusVoltage support1v8 replies rounds s with
  | (none, s) => (none, s)
  | (some status, s) =>
    if status ≠ statusSuccess then (some status, s)
    else
      let r := sdIdentify replies s
      (some r.1, r.2)

end Init

end HpmSdk.Sd
