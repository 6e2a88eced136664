import HpmSdk.Sd.BlocksContract

set_option autoImplicit false

/-!
# SD cards: waiting for a card that is busy (`hpm_sdmmc_sd.c`)

`sd_polling_card_status_busy` polls without a limit, looks at the bit for being ready only, as a
word with that bit is never the number of the programming state, and its result is dropped by
`sd_write_blocks` and `sd_erase_blocks`.

`SdEnds` says at which answer the polling ends and what is true there; the three functions are then
compared with what they return.
-/

namespace HpmSdk.Sd

open HpmSdk.Sdxc HpmSdk.Soc

/-! ## `sd_erase_blocks` -/

def sdCmdEraseStart : BitVec 32 := 32
def sdCmdEraseEnd : BitVec 32 := 33
def sdmmcCmdErase : BitVec 32 := 38

/-- `sd_erase_blocks`. -/
def sdEraseBlocks (line : SdLine) (card : SdBlockCard) (startBlock blockCount : BitVec 32)
    (s : SdSession) : Option (HpmStatus × SdSession) :=
  (sdPollingCardStatusBusy line card (s.setCmd SdmmcCmd.zero)).bind fun (_, s) =>
    let (status, s) := sdmmchostSendCommand line
      (s.setCmd { s.host.cmd with
        cmdIndex := sdCmdEraseStart, cmdArgument := startBlock, respType := .r1 })
    if status ≠ statusSuccess then some (status, s)
    else
      let (status, s) := sdmmchostSendCommand line
        (s.setCmd { s.host.cmd with
          cmdIndex := sdCmdEraseEnd, cmdArgument := startBlock + blockCount - 1 })
      if status ≠ statusSuccess then some (status, s)
      else
        let (status, s) := sdmmchostSendCommand line
          (s.setCmd { s.host.cmd with
            cmdIndex := sdmmcCmdErase, cmdArgument := 0xFF, respType := .r1b })
        if status ≠ statusSuccess then some (status, s)
        else (sdPollingCardStatusBusy line card s).map fun (_, s) => (status, s)

/-! ## The contract -/

/-- `current_state`. -/
def currentState (r1Status : BitVec 32) : BitVec 32 := (r1Status.extractLsb' 9 4).setWidth 32

/-- The last command was a CMD13 that succeeded, and the card is ready and not programming. -/
def SdIdle (s : SdSession) : Prop :=
  ∃ e, s.log.getLast? = some e ∧ e.cmdIndex = sdmmcCmdSendStatus ∧ e.status = statusSuccess ∧
    currentState s.r1Status ≠ sdmmcStateProgram ∧ readyForData s.r1Status = true

/-- A call of one of the functions.  The replies to the polling are a stream; `unset` is the
variable `status` as it is before any command. -/
inductive SdBusyCall where
  | polling (replies : Nat → SdReply) (timeoutMs : BitVec 32)
  | write (line : SdLine) (core : HpmCore) (unset : HpmStatus)
      (buffer startBlock blockCount : BitVec 32)
  | erase (line : SdLine) (startBlock blockCount : BitVec 32)

/-- The first replies of a stream. -/
def sdFirstReplies (replies : Nat → SdReply) (n : Nat) : List SdReply :=
  (List.range n).map replies

/-- What is asked: polling comes to its end within `timeout_ms` delays, which is one status command
more, and gives success only where the card is idle; and the other two give success only where
the card is idle. -/
def SdBusyCall.Holds (card : SdBlockCard) (s : SdSession) : SdBusyCall → Prop
  | polling replies timeoutMs =>
    ∃ status s', sdPollingCardStatusBusyLoop card
        (sdFirstReplies replies (timeoutMs.toNat + 1)) s = some (status, s') ∧
      (status = statusSuccess → SdIdle s')
  | write line core unset buffer startBlock blockCount =>
    ∀ s', sdWriteBlocks line core card unset buffer startBlock blockCount s =
      some (statusSuccess, s') → SdIdle s'
  | erase line startBlock blockCount =>
    ∀ s', sdEraseBlocks line card startBlock blockCount s = some (statusSuccess, s') → SdIdle s'

/-- The first of the replies behind which the last status word that was received has the bit for
being ready is there and is as asked; `ready` is the bit in the word from before. -/
def SdEnds (P : SdReply → Prop) : Bool → List SdReply → Prop
  | _, [] => False
  | ready, reply :: replies =>
    let ready := if reply.status = statusSuccess then readyForData reply.response else ready
    if ready then P reply else SdEnds P ready replies

/-- A reply that is no failure and not in the programming state. -/
def SdReply.Idle (reply : SdReply) : Prop :=
  reply.status = statusSuccess ∧ currentState reply.response ≠ sdmmcStateProgram

/-- The commands from one on succeed. -/
def SdLine.Succeeds (line : SdLine) (first n : Nat) : Prop :=
  ∀ i < n, line.replies (first + i) = statusSuccess

/-- The pollings from one on, of a card that was ready before, come to their end. -/
def SdLine.Returns (line : SdLine) (first n : Nat) : Prop :=
  ∀ i < n, SdEnds (fun _ => True) true (line.polls (first + i))

/-- The commands of a pass. -/
def sdPassCommands (card : SdBlockCard) : Nat := if card.supportSetBlockCountCmd then 2 else 1

/-- When a call does what is asked: the reply that ends the polling comes in time and is a failure
or not in the programming state; where the other two come to their end with success, the reply
that ends their last polling is no failure and not in the programming state. -/
def SdBusyCall.Fits (card : SdBlockCard) (s : SdSession) : SdBusyCall → Prop
  | polling replies timeoutMs =>
    SdEnds (fun reply => reply.status = statusSuccess → reply.Idle) (readyForData s.r1Status)
      (sdFirstReplies replies (timeoutMs.toNat + 1))
  | write line _ unset _ _ blockCount =>
    SdEnds (fun _ => True) (readyForData s.r1Status) (line.polls s.polls) →
      if blockCount = 0 then
        unset = statusSuccess →
          SdEnds SdReply.Idle (readyForData s.r1Status) (line.polls s.polls)
      else
        line.Succeeds s.commands (sdPasses card blockCount.toNat * sdPassCommands card) →
          line.Returns (s.polls + 1) (sdPasses card blockCount.toNat) →
            SdEnds SdReply.Idle true (line.polls (s.polls + sdPasses card blockCount.toNat))
  | erase line _ _ =>
    SdEnds (fun _ => True) (readyForData s.r1Status) (line.polls s.polls) →
      line.Succeeds s.commands 3 →
        line.Returns (s.polls + 1) 1 → SdEnds SdReply.Idle true (line.polls (s.polls + 1))

/-! ## Polling -/

/-- The number of the programming state does not have the bit for being ready. -/
theorem sdBusy_iff (r1Status : BitVec 32) : SdBusy r1Status ↔ readyForData r1Status = false := by
  constructor
  · rintro (hstate | hready)
    · rw [hstate]
      decide
    · exact hready
  · exact Or.inr

/-- How a polling that comes to its end ended. -/
structure SdPollEnd (card : SdBlockCard) (replies : List SdReply) (s : SdSession)
    (result : HpmStatus) (s' : SdSession) (reply : SdReply) : Prop where
  status : reply.status = result
  ready : readyForData s'.r1Status = true
  word : result = statusSuccess → s'.r1Status = reply.response
  last : s'.log.getLast? = some ⟨sdmmcCmdSendStatus, card.relativeAddr.setWidth 32 <<< 16, none,
    result⟩
  commands : s'.commands = s.commands
  polls : s'.polls = s.polls
  ends : ∀ P : SdReply → Prop, SdEnds P (readyForData s.r1Status) replies ↔ P reply

section Polling

variable {card : SdBlockCard}

variable (card) in
/-- The bit for being ready is that of the last answer that came. -/
theorem sdSendCardStatus_ready (reply : SdReply) (s : SdSession) :
    readyForData (sdSendCardStatus card reply s).2.r1Status =
      if reply.status = statusSuccess then readyForData reply.response
      else readyForData s.r1Status := by
  unfold sdSendCardStatus
  dsimp only
  by_cases hok : reply.status = statusSuccess
  · rw [if_neg (not_not_intro hok), if_pos hok]
  · rw [if_pos hok, if_neg hok]
    rfl

variable (card) in
/-- One status command of the loop. -/
theorem sdSendCardStatus_spec (reply : SdReply) (s : SdSession) :
    ∃ s', sdSendCardStatus card reply s = (reply.status, s') ∧
      (reply.status = statusSuccess → s'.r1Status = reply.response) ∧
      s'.log.getLast? = some ⟨sdmmcCmdSendStatus, card.relativeAddr.setWidth 32 <<< 16, none,
        reply.status⟩ ∧ s'.commands = s.commands ∧ s'.polls = s.polls := by
  unfold sdSendCardStatus
  dsimp only
  by_cases hok : reply.status = statusSuccess
  · rw [if_neg (not_not_intro hok)]
    exact ⟨_, rfl, fun _ => rfl, List.getLast?_concat, rfl, rfl⟩
  · rw [if_pos hok]
    exact ⟨_, rfl, fun h => absurd h hok, List.getLast?_concat, rfl, rfl⟩

/-- The polling ends at this answer, or goes on with the next ones. -/
theorem SdEnds.cons_iff {P : SdReply → Prop} {ready ready' : Bool} {reply : SdReply}
    {replies : List SdReply}
    (h : ready' = if reply.status = statusSuccess then readyForData reply.response else ready) :
    SdEnds P ready (reply :: replies) ↔
      if ready' = true then P reply else SdEnds P ready' replies := by
  rw [h]
  rfl

theorem SdEnds.mono {P Q : SdReply → Prop} (hPQ : ∀ reply, P reply → Q reply) :
    ∀ {replies : List SdReply} {ready : Bool}, SdEnds P ready replies → SdEnds Q ready replies := by
  intro replies
  induction replies with
  | nil => exact id
  | cons reply replies ih =>
    intro ready h
    rw [SdEnds.cons_iff rfl] at h ⊢
    by_cases hready : (if reply.status = statusSuccess then readyForData reply.response
        else ready) = true
    · rw [if_pos hready] at h ⊢
      exact hPQ reply h
    · rw [if_neg hready] at h ⊢
      exact ih h

/-- The loop ends behind the first answer that is ready. -/
theorem sdPollingLoop_spec : ∀ (replies : List SdReply) (s s' : SdSession) (status : HpmStatus),
    sdPollingCardStatusBusyLoop card replies s = some (status, s') →
      ∃ reply, SdPollEnd card replies s status s' reply := by
  intro replies
  induction replies with
  | nil =>
    intro s s' status h
    cases h
  | cons reply replies ih =>
    intro s s' status h
    obtain ⟨mid, hsend, hword, hlast, hcommands, hpolls⟩ :=
      sdSendCardStatus_spec card reply s
    have hready := sdSendCardStatus_ready card reply s
    rw [hsend] at hready
    unfold sdPollingCardStatusBusyLoop at h
    rw [hsend] at h
    dsimp only at h hready
    cases hmid : readyForData mid.r1Status with
    | false =>
      rw [if_pos ((sdBusy_iff _).mpr hmid)] at h
      obtain ⟨last, hend⟩ := ih mid s' status h
      refine ⟨last, ⟨hend.status, hend.ready, hend.word, hend.last,
        hend.commands.trans hcommands, hend.polls.trans hpolls, fun P => ?_⟩⟩
      rw [SdEnds.cons_iff hready, hmid, ← hend.ends P, hmid]
      exact Iff.rfl
    | true =>
      have hidle : ¬ SdBusy mid.r1Status := fun hbusy => by
        rw [(sdBusy_iff _).mp hbusy] at hmid
        cases hmid
      rw [if_neg hidle] at h
      obtain ⟨hstatus, hs⟩ := Prod.mk.inj (Option.some.inj h)
      rw [← hs, ← hstatus]
      refine ⟨reply, ⟨rfl, hmid, hword, hlast, hcommands, hpolls, fun P => ?_⟩⟩
      rw [SdEnds.cons_iff hready, hmid]
      exact Iff.rfl

variable (card) in
/-- Polling comes to its end where a reply ends it. -/
theorem sdPollingLoop_returns : ∀ (replies : List SdReply) (s : SdSession),
    SdEnds (fun _ => True) (readyForData s.r1Status) replies →
      ∃ status s', sdPollingCardStatusBusyLoop card replies s = some (status, s') := by
  intro replies
  induction replies with
  | nil => exact fun _ h => h.elim
  | cons reply replies ih =>
    intro s h
    obtain ⟨mid, hsend, -⟩ := sdSendCardStatus_spec card reply s
    have hready := sdSendCardStatus_ready card reply s
    rw [hsend] at hready
    unfold sdPollingCardStatusBusyLoop
    rw [hsend]
    dsimp only at hready ⊢
    by_cases hbusy : SdBusy mid.r1Status
    · rw [if_pos hbusy]
      rw [SdEnds.cons_iff hready, (sdBusy_iff _).mp hbusy] at h
      refine ih mid ?_
      rw [(sdBusy_iff _).mp hbusy]
      exact h
    · rw [if_neg hbusy]
      exact ⟨_, _, rfl⟩

/-- The card is idle then if that answer says so. -/
theorem SdPollEnd.idle_iff {replies : List SdReply} {s s' : SdSession} {status : HpmStatus}
    {reply : SdReply} (h : SdPollEnd card replies s status s' reply) :
    SdIdle s' ↔ SdEnds SdReply.Idle (readyForData s.r1Status) replies := by
  rw [h.ends]
  unfold SdReply.Idle
  rw [h.status]
  constructor
  · rintro ⟨e, hlast, -, hstatus, hstate, -⟩
    have heq : e.status = status := by
      rw [← Option.some.inj (h.last.symm.trans hlast)]
    refine ⟨heq.symm.trans hstatus, ?_⟩
    rw [← h.word (heq.symm.trans hstatus)]
    exact hstate
  · rintro ⟨hstatus, hstate⟩
    refine ⟨_, h.last, rfl, hstatus, ?_, h.ready⟩
    rw [h.word hstatus]
    exact hstate

end Polling

/-! ## One polling of the other two -/

section Polls

variable {line : SdLine} {card : SdBlockCard}

/-- A polling whose result is dropped: how it leaves the session. -/
structure SdPollKept (line : SdLine) (s s' : SdSession) : Prop where
  ready : readyForData s'.r1Status = true
  commands : s'.commands = s.commands
  polls : s'.polls = s.polls + 1
  idle : SdIdle s' ↔ SdEnds SdReply.Idle (readyForData s.r1Status) (line.polls s.polls)

/-- Polling takes the answers of one poll, and ends. -/
theorem sdPollingCardStatusBusy_spec {s s' : SdSession} {status : HpmStatus}
    (h : sdPollingCardStatusBusy line card s = some (status, s')) :
    SdPollKept line s s' ∧
      SdEnds (fun _ => True) (readyForData s.r1Status) (line.polls s.polls) := by
  obtain ⟨reply, hend⟩ := sdPollingLoop_spec (line.polls s.polls) _ s' status h
  exact ⟨⟨hend.ready, hend.commands, hend.polls, hend.idle_iff⟩, (hend.ends _).mpr trivial⟩

variable (card) in
/-- It ends where an answer is ready at some time. -/
theorem sdPollingCardStatusBusy_returns (s : SdSession)
    (h : SdEnds (fun _ => True) (readyForData s.r1Status) (line.polls s.polls)) :
    ∃ status s', sdPollingCardStatusBusy line card s = some (status, s') :=
  sdPollingLoop_returns card (line.polls s.polls) _ h

end Polls

/-- What holds of `n + 1` numbers from one on. -/
theorem forall_from_succ {P : Nat → Prop} {first n : Nat} :
    (∀ i < n + 1, P (first + i)) ↔ P first ∧ ∀ i < n, P (first + 1 + i) := by
  constructor
  · intro h
    refine ⟨h 0 (Nat.succ_pos n), fun i hi => ?_⟩
    have hnext := h (i + 1) (Nat.succ_lt_succ hi)
    rwa [show first + 1 + i = first + (i + 1) by omega]
  · rintro ⟨hfirst, hrest⟩ i hi
    cases i with
    | zero => exact hfirst
    | succ i =>
      have hnext := hrest i (Nat.lt_of_succ_lt_succ hi)
      rwa [show first + (i + 1) = first + 1 + i by omega]

theorem SdLine.succeeds_succ {line : SdLine} {first n : Nat} :
    line.Succeeds first (n + 1) ↔
      line.replies first = statusSuccess ∧ line.Succeeds (first + 1) n :=
  forall_from_succ (P := fun i => line.replies i = statusSuccess)

theorem SdLine.returns_succ {line : SdLine} {first n : Nat} :
    line.Returns first (n + 1) ↔
      SdEnds (fun _ => True) true (line.polls first) ∧ line.Returns (first + 1) n :=
  forall_from_succ (P := fun i => SdEnds (fun _ => True) true (line.polls i))

/-- Commands after commands. -/
theorem SdLine.succeeds_add {line : SdLine} {first m n : Nat} :
    line.Succeeds first (m + n) ↔ line.Succeeds first m ∧ line.Succeeds (first + m) n := by
  induction m generalizing first with
  | zero =>
    rw [Nat.zero_add]
    exact ⟨fun h => ⟨fun i hi => absurd hi (Nat.not_lt_zero i), h⟩, fun h => h.2⟩
  | succ m ih =>
    rw [show m + 1 + n = m + n + 1 by omega, succeeds_succ, ih, succeeds_succ,
      show first + (m + 1) = first + 1 + m by omega, and_assoc]

/-! ## `sd_erase_blocks` -/

section Erase

variable {line : SdLine} {card : SdBlockCard} {s s₀ : SdSession} {status₀ : HpmStatus}
  (startBlock blockCount : BitVec 32)

theorem sdmmchostSendCommand_spec (line : SdLine) (s : SdSession) (cmd : SdmmcCmd) :
    ∃ s', sdmmchostSendCommand line (s.setCmd cmd) = (line.replies s.commands, s') ∧
      s'.commands = s.commands + 1 ∧ s'.r1Status = s.r1Status ∧ s'.polls = s.polls :=
  ⟨_, rfl, rfl, rfl, rfl⟩

/-- Behind the first polling: the three commands succeed and the card is polled once more, or one
of them fails and its status is given. -/
theorem sdEraseBlocks_cases
    (hpoll : sdPollingCardStatusBusy line card (s.setCmd SdmmcCmd.zero) = some (status₀, s₀)) :
    (line.Succeeds s₀.commands 3 ∧ ∃ s₁, s₁.r1Status = s₀.r1Status ∧ s₁.polls = s₀.polls ∧
        sdEraseBlocks line card startBlock blockCount s =
          (sdPollingCardStatusBusy line card s₁).map fun r => (statusSuccess, r.2)) ∨
      (¬ line.Succeeds s₀.commands 3 ∧ ∃ status s', status ≠ statusSuccess ∧
        sdEraseBlocks line card startBlock blockCount s = some (status, s')) := by
  unfold sdEraseBlocks
  rw [hpoll, Option.bind_some, SdLine.succeeds_succ, SdLine.succeeds_succ, SdLine.succeeds_succ]
  dsimp only
  obtain ⟨s₁, h₁, hcommands₁, hword₁, hpolls₁⟩ := sdmmchostSendCommand_spec line s₀
    { s₀.host.cmd with cmdIndex := sdCmdEraseStart, cmdArgument := startBlock, respType := .r1 }
  rw [h₁]
  dsimp only
  by_cases hok₁ : line.replies s₀.commands = statusSuccess
  · rw [if_neg (not_not_intro hok₁)]
    obtain ⟨s₂, h₂, hcommands₂, hword₂, hpolls₂⟩ := sdmmchostSendCommand_spec line s₁
      { s₁.host.cmd with
        cmdIndex := sdCmdEraseEnd, cmdArgument := startBlock + blockCount - 1 }
    rw [h₂, hcommands₁]
    dsimp only
    by_cases hok₂ : line.replies (s₀.commands + 1) = statusSuccess
    · rw [if_neg (not_not_intro hok₂)]
      obtain ⟨s₃, h₃, -, hword₃, hpolls₃⟩ := sdmmchostSendCommand_spec line s₂
        { s₂.host.cmd with cmdIndex := sdmmcCmdErase, cmdArgument := 0xFF, respType := .r1b }
      rw [h₃, hcommands₂, hcommands₁]
      dsimp only
      by_cases hok₃ : line.replies (s₀.commands + 1 + 1) = statusSuccess
      · rw [if_neg (not_not_intro hok₃), hok₃]
        refine Or.inl ⟨⟨hok₁, hok₂, rfl, fun i hi => absurd hi (Nat.not_lt_zero i)⟩, s₃,
          hword₃.trans (hword₂.trans hword₁), hpolls₃.trans (hpolls₂.trans hpolls₁), rfl⟩
      · rw [if_pos hok₃]
        exact Or.inr ⟨fun h => hok₃ h.2.2.1, _, _, hok₃, rfl⟩
    · rw [if_pos hok₂]
      exact Or.inr ⟨fun h => hok₂ h.2.1, _, _, hok₂, rfl⟩
  · rw [if_pos hok₁]
    exact Or.inr ⟨fun h => hok₁ h.1, _, _, hok₁, rfl⟩

/-- `sd_erase_blocks` does what is asked exactly if its last polling ends well. -/
theorem sdEraseBlocks_holds_iff (card : SdBlockCard) (s : SdSession) (line : SdLine)
    (startBlock blockCount : BitVec 32) :
    (SdBusyCall.erase line startBlock blockCount).Holds card s ↔
      (SdBusyCall.erase line startBlock blockCount).Fits card s := by
  constructor
  · intro h hfirst hcommands hreturns
    obtain ⟨status₀, s₀, hpoll⟩ := sdPollingCardStatusBusy_returns card
      (s.setCmd SdmmcCmd.zero) hfirst
    obtain ⟨hkept, -⟩ := sdPollingCardStatusBusy_spec hpoll
    have hcommands₀ : s₀.commands = s.commands := hkept.commands
    have hpolls₀ : s₀.polls = s.polls + 1 := hkept.polls
    rcases sdEraseBlocks_cases startBlock blockCount hpoll with
      ⟨-, s₁, hword, hpolls, herase⟩ | ⟨hfails, -⟩
    · have hlast := hreturns 0 Nat.one_pos
      rw [Nat.add_zero, ← hpolls₀, ← hpolls, ← hkept.ready, ← hword] at hlast
      obtain ⟨status₁, s', hpoll₁⟩ := sdPollingCardStatusBusy_returns card _ hlast
      rw [hpoll₁] at herase
      obtain ⟨hkept₁, -⟩ := sdPollingCardStatusBusy_spec hpoll₁
      have hidle := hkept₁.idle.mp (h s' herase)
      rwa [hword, hkept.ready, hpolls, hpolls₀] at hidle
    · rw [hcommands₀] at hfails
      exact absurd hcommands hfails
  · intro h s' herase
    obtain ⟨⟨status₀, s₀⟩, hpoll, -⟩ := Option.bind_eq_some_iff.mp herase
    obtain ⟨hkept, hfirst⟩ := sdPollingCardStatusBusy_spec hpoll
    have hcommands₀ : s₀.commands = s.commands := hkept.commands
    have hpolls₀ : s₀.polls = s.polls + 1 := hkept.polls
    rcases sdEraseBlocks_cases startBlock blockCount hpoll with
      ⟨hcommands, s₁, hword, hpolls, heq⟩ | ⟨-, status, s'', hfails, heq⟩
    · rw [herase] at heq
      obtain ⟨⟨status₁, s₂⟩, hpoll₁, hs'⟩ := Option.map_eq_some_iff.mp heq.symm
      obtain ⟨-, hs'⟩ := Prod.mk.inj hs'
      obtain ⟨hkept₁, hlast⟩ := sdPollingCardStatusBusy_spec hpoll₁
      rw [hword, hkept.ready, hpolls, hpolls₀] at hlast
      rw [hcommands₀] at hcommands
      rw [← hs', hkept₁.idle, hword, hkept.ready, hpolls, hpolls₀]
      refine h hfirst hcommands fun i hi => ?_
      rwa [Nat.lt_one_iff.mp hi]
    · rw [herase] at heq
      exact absurd (Prod.mk.inj (Option.some.inj heq)).1.symm hfails

end Erase

/-! ## `sd_write_blocks` -/

section Write

variable {line : SdLine} {core : HpmCore} {card : SdBlockCard}

variable (line core) in
/-- One data command. -/
theorem sdDataCommand_session (access : SdAccess) (cmdIndex : BitVec 32) (n : Nat)
    (startBlock buffer : BitVec 32) (s : SdSession) :
    ∃ s', sdDataCommand line core access cmdIndex n startBlock buffer s =
        (line.replies s.commands, s') ∧
      s'.commands = s.commands + 1 ∧ s'.r1Status = s.r1Status ∧ s'.polls = s.polls :=
  ⟨_, rfl, rfl, rfl, rfl⟩

variable (line) in
/-- The commands of a pass: they succeed, and the polling is next, or one of them fails. -/
theorem sdBlocksPass_cases (access : SdAccess) (n : Nat) (startBlock buffer : BitVec 32)
    (s : SdSession) :
    (line.Succeeds s.commands (sdPassCommands card) ∧ ∃ s',
        sdBlocksPass line core card access n startBlock buffer s = (statusSuccess, s') ∧
        s'.commands = s.commands + sdPassCommands card ∧ s'.r1Status = s.r1Status ∧
        s'.polls = s.polls) ∨
      (¬ line.Succeeds s.commands (sdPassCommands card) ∧
        (sdBlocksPass line core card access n startBlock buffer s).1 ≠ statusSuccess) := by
  unfold sdBlocksPass sdPassCommands
  cases card.supportSetBlockCountCmd with
  | false =>
    obtain ⟨s', hdata, hkept⟩ :=
      sdDataCommand_session line core access access.single n startBlock buffer s
    rw [if_neg Bool.false_ne_true, if_neg Bool.false_ne_true, hdata, SdLine.succeeds_succ]
    by_cases hok : line.replies s.commands = statusSuccess
    · rw [hok]
      exact Or.inl ⟨⟨rfl, fun i hi => absurd hi (Nat.not_lt_zero i)⟩, s', rfl, hkept⟩
    · exact Or.inr ⟨fun h => hok h.1, hok⟩
  | true =>
    obtain ⟨s₁, hcount, hcommands, hword, hpolls⟩ := sdmmchostSendCommand_spec line s
      ⟨sdmmcCmdSetBlockCount, BitVec.ofNat 32 n, .r1⟩
    obtain ⟨s', hdata, hcommands', hword', hpolls'⟩ := sdDataCommand_session line core access
      access.multiple n startBlock buffer s₁
    unfold sdmmcSetBlockCount
    rw [if_pos rfl, if_pos rfl, hcount, SdLine.succeeds_succ, SdLine.succeeds_succ]
    dsimp only
    by_cases hok : line.replies s.commands = statusSuccess
    · rw [if_neg (not_not_intro hok), hdata, hcommands]
      by_cases hok' : line.replies (s.commands + 1) = statusSuccess
      · rw [hok']
        exact Or.inl ⟨⟨hok, rfl, fun i hi => absurd hi (Nat.not_lt_zero i)⟩, s', rfl,
          by rw [hcommands', hcommands], hword'.trans hword, hpolls'.trans hpolls⟩
      · exact Or.inr ⟨fun h => hok' h.2.1, hok'⟩
    · rw [if_pos hok]
      exact Or.inr ⟨fun h => hok h.1, hok⟩

/-- The polling behind a pass. -/
theorem sdPassPoll_write {s s' : SdSession} :
    sdPassPoll line card .write s = some s' ↔
      ∃ status, sdPollingCardStatusBusy line card s = some (status, s') := by
  constructor
  · intro h
    obtain ⟨⟨status, s''⟩, hpoll, hs'⟩ := Option.map_eq_some_iff.mp h
    rw [← hs']
    exact ⟨status, hpoll⟩
  · rintro ⟨status, hpoll⟩
    exact Option.map_eq_some_iff.mpr ⟨_, hpoll, rfl⟩

variable (line core card) in
/-- The passes of the loop all succeed and their pollings come to their end, exactly if the loop
ends with success; and then the last polling says whether the card is idle. -/
theorem sdBlocksLoop_session : ∀ (fuel blockCount : Nat) (startBlock buffer : BitVec 32)
    (s : SdSession), blockCount < fuel → readyForData s.r1Status = true →
      (line.Succeeds s.commands (sdPasses card blockCount * sdPassCommands card) ∧
          line.Returns s.polls (sdPasses card blockCount) ↔
        ∃ s', sdBlocksLoop line core card .write fuel statusSuccess startBlock buffer blockCount s =
          some (statusSuccess, s')) ∧
      ∀ s', sdBlocksLoop line core card .write fuel statusSuccess startBlock buffer blockCount s =
          some (statusSuccess, s') →
        (SdIdle s' ↔
          if sdPasses card blockCount = 0 then SdIdle s
          else SdEnds SdReply.Idle true
            (line.polls (s.polls + (sdPasses card blockCount - 1)))) := by
  intro fuel
  induction fuel with
  | zero => exact fun _ _ _ _ h => absurd h (Nat.not_lt_zero _)
  | succ fuel ih =>
    intro blockCount startBlock buffer s hfuel hready
    by_cases hcount : blockCount = 0
    · rw [hcount, sdPasses_zero, sdBlocksLoop_zero, Nat.zero_mul]
      refine ⟨iff_of_true ⟨fun i hi => absurd hi (Nat.not_lt_zero i),
        fun i hi => absurd hi (Nat.not_lt_zero i)⟩ ⟨s, rfl⟩, fun s' hs' => ?_⟩
      rw [if_pos rfl, (Prod.mk.inj (Option.some.inj hs')).2]
    have hn := sdPassBlocks_pos card hcount
    have hsplit : (1 + sdPasses card (blockCount - sdPassBlocks card blockCount)) *
        sdPassCommands card = sdPassCommands card +
          sdPasses card (blockCount - sdPassBlocks card blockCount) * sdPassCommands card := by
      rw [Nat.add_mul, Nat.one_mul]
    rw [sdPasses_pass hcount, hsplit, SdLine.succeeds_add, Nat.add_comm 1, SdLine.returns_succ,
      sdBlocksLoop_pass hcount]
    dsimp only
    rcases sdBlocksPass_cases line .write (sdPassBlocks card blockCount) startBlock buffer s with
      ⟨hcommands, s₁, hpass, hcommands₁, hword₁, hpolls₁⟩ | ⟨hcommands, hpass⟩
    · rw [hpass]
      dsimp only
      rw [if_neg (not_not_intro rfl)]
      by_cases hends : SdEnds (fun _ => True) true (line.polls s.polls)
      · have hends₁ : SdEnds (fun _ => True) (readyForData s₁.r1Status) (line.polls s₁.polls) := by
          rw [hword₁, hready, hpolls₁]
          exact hends
        obtain ⟨status, mid, hpoll⟩ := sdPollingCardStatusBusy_returns card s₁ hends₁
        obtain ⟨hkept, -⟩ := sdPollingCardStatusBusy_spec hpoll
        have hcommandsMid := hkept.commands.trans hcommands₁
        have hpollsMid : mid.polls = s.polls + 1 := by rw [hkept.polls, hpolls₁]
        have hidleMid := hkept.idle
        rw [hword₁, hready, hpolls₁] at hidleMid
        rw [sdPassPoll_write.mpr ⟨status, hpoll⟩, Option.bind_some]
        obtain ⟨hreturns, hidle⟩ := ih (blockCount - sdPassBlocks card blockCount)
          (startBlock + BitVec.ofNat 32 (sdPassBlocks card blockCount))
          (buffer + sdmmcBlockSizeDefault * BitVec.ofNat 32 (sdPassBlocks card blockCount)) mid
          (by omega) hkept.ready
        rw [hcommandsMid, hpollsMid] at hreturns
        refine ⟨⟨fun h => hreturns.mp ⟨h.1.2, h.2.2⟩, fun h => ?_⟩, fun s' hs' => ?_⟩
        · obtain ⟨hrest, hpollsRest⟩ := hreturns.mpr h
          exact ⟨⟨hcommands, hrest⟩, hends, hpollsRest⟩
        · rw [hidle s' hs', if_neg (Nat.succ_ne_zero _), Nat.add_sub_cancel, hpollsMid]
          by_cases hlast : sdPasses card (blockCount - sdPassBlocks card blockCount) = 0
          · rw [if_pos hlast, hlast, hidleMid, Nat.add_zero]
          · rw [if_neg hlast]
            rw [show s.polls + 1 +
                (sdPasses card (blockCount - sdPassBlocks card blockCount) - 1) =
              s.polls + sdPasses card (blockCount - sdPassBlocks card blockCount) by omega]
      · -- the card is never ready again
        have hnone : sdPassPoll line card .write s₁ = none := by
          refine Option.eq_none_iff_forall_ne_some.mpr fun s' hs' => ?_
          obtain ⟨status, hpoll⟩ := sdPassPoll_write.mp hs'
          have hends₁ := (sdPollingCardStatusBusy_spec hpoll).2
          rw [hword₁, hready, hpolls₁] at hends₁
          exact hends hends₁
        rw [hnone, Option.bind_none]
        refine ⟨iff_of_false (fun h => hends h.2.1) fun ⟨s', hs'⟩ => ?_, fun s' hs' => ?_⟩
        · cases hs'
        · cases hs'
    · rw [if_pos hpass]
      refine ⟨iff_of_false (fun h => hcommands h.1.1) fun ⟨s', hs'⟩ => ?_, fun s' hs' => ?_⟩
      · exact hpass (congrArg Prod.fst (Option.some.inj hs'))
      · exact absurd (congrArg Prod.fst (Option.some.inj hs')) hpass

/-- The variable `status` is set by the first pass. -/
theorem sdBlocksLoop_unset {blockCount : Nat} (h : blockCount ≠ 0) (fuel : Nat)
    (status status' : HpmStatus) (startBlock buffer : BitVec 32) (s : SdSession) :
    sdBlocksLoop line core card .write (fuel + 1) status startBlock buffer blockCount s =
      sdBlocksLoop line core card .write (fuel + 1) status' startBlock buffer blockCount s :=
  (sdBlocksLoop_pass h fuel status startBlock buffer s).trans
    (sdBlocksLoop_pass h fuel status' startBlock buffer s).symm

end Write

section Calls

variable (card : SdBlockCard) (s : SdSession) (line : SdLine) (core : HpmCore) (unset : HpmStatus)
  (buffer startBlock blockCount : BitVec 32)

/-- Without blocks there is the first polling only. -/
theorem sdWriteBlocks_zero_iff :
    (SdBusyCall.write line core unset buffer startBlock 0).Holds card s ↔
      (SdBusyCall.write line core unset buffer startBlock 0).Fits card s := by
  unfold SdBusyCall.Holds SdBusyCall.Fits sdWriteBlocks sdBlocks
  dsimp only
  rw [if_pos rfl]
  constructor
  · intro h hfirst hunset
    obtain ⟨status, s₀, hpoll⟩ := sdPollingCardStatusBusy_returns card s.clear hfirst
    obtain ⟨hkept, -⟩ := sdPollingCardStatusBusy_spec hpoll
    refine hkept.idle.mp (h s₀ ?_)
    rw [sdPassPoll_write.mpr ⟨status, hpoll⟩, hunset]
    rfl
  · intro h s' hs'
    obtain ⟨s₀, hpass, hrest⟩ := Option.bind_eq_some_iff.mp hs'
    obtain ⟨status, hpoll⟩ := sdPassPoll_write.mp hpass
    obtain ⟨hkept, hfirst⟩ := sdPollingCardStatusBusy_spec hpoll
    obtain ⟨hunset, hs₀⟩ := Prod.mk.inj (Option.some.inj hrest)
    rw [← hs₀]
    exact hkept.idle.mpr (h hfirst hunset)

/-- A write of at least one block: right exactly in the runs that the condition names. -/
theorem sdWriteBlocks_pos_iff (hcount : blockCount ≠ 0) :
    (SdBusyCall.write line core unset buffer startBlock blockCount).Holds card s ↔
      (SdBusyCall.write line core unset buffer startBlock blockCount).Fits card s := by
  have hcount' : blockCount.toNat ≠ 0 := fun h => hcount (BitVec.eq_of_toNat_eq h)
  have hpasses : sdPasses card blockCount.toNat ≠ 0 := by
    rw [sdPasses_pass hcount']
    omega
  unfold SdBusyCall.Holds SdBusyCall.Fits sdWriteBlocks sdBlocks
  dsimp only
  rw [if_neg hcount]
  constructor
  · intro h hfirst hcommands hreturns
    obtain ⟨status, s₀, hpoll⟩ := sdPollingCardStatusBusy_returns card s.clear hfirst
    obtain ⟨hkept, -⟩ := sdPollingCardStatusBusy_spec hpoll
    have hcommands₀ : s₀.commands = s.commands := hkept.commands
    have hpolls₀ : s₀.polls = s.polls + 1 := hkept.polls
    obtain ⟨hloop, hidle⟩ := sdBlocksLoop_session line core card
      (blockCount.toNat + 1) blockCount.toNat startBlock buffer s₀ (Nat.lt_succ_self _) hkept.ready
    rw [hcommands₀, hpolls₀] at hloop
    obtain ⟨s', hs'⟩ := hloop.mp ⟨hcommands, hreturns⟩
    have hlast := (hidle s' hs').mp (h s' (by
      rw [sdPassPoll_write.mpr ⟨status, hpoll⟩, Option.bind_some,
        sdBlocksLoop_unset hcount' _ unset statusSuccess]
      exact hs'))
    rwa [if_neg hpasses, hpolls₀, Nat.add_assoc, Nat.add_sub_cancel' (Nat.pos_of_ne_zero hpasses)]
      at hlast
  · intro h s' hs'
    obtain ⟨s₀, hpass, hrest⟩ := Option.bind_eq_some_iff.mp hs'
    obtain ⟨status, hpoll⟩ := sdPassPoll_write.mp hpass
    obtain ⟨hkept, hfirst⟩ := sdPollingCardStatusBusy_spec hpoll
    have hcommands₀ : s₀.commands = s.commands := hkept.commands
    have hpolls₀ : s₀.polls = s.polls + 1 := hkept.polls
    rw [sdBlocksLoop_unset hcount' _ unset statusSuccess] at hrest
    obtain ⟨hloop, hidle⟩ := sdBlocksLoop_session line core card
      (blockCount.toNat + 1) blockCount.toNat startBlock buffer s₀ (Nat.lt_succ_self _) hkept.ready
    obtain ⟨hcommands, hreturns⟩ := hloop.mpr ⟨s', hrest⟩
    rw [hcommands₀] at hcommands
    rw [hpolls₀] at hreturns
    rw [hidle s' hrest, if_neg hpasses, hpolls₀, Nat.add_assoc,
      Nat.add_sub_cancel' (Nat.pos_of_ne_zero hpasses)]
    exact h hfirst hcommands hreturns

/-- Polling by itself: right exactly where the state agrees with the bit. -/
theorem sdPolling_holds_iff (replies : Nat → SdReply) (timeoutMs : BitVec 32) :
    (SdBusyCall.polling replies timeoutMs).Holds card s ↔
      (SdBusyCall.polling replies timeoutMs).Fits card s := by
  unfold SdBusyCall.Holds SdBusyCall.Fits
  dsimp only
  constructor
  · rintro ⟨status, s', hloop, hidle⟩
    obtain ⟨reply, hend⟩ := sdPollingLoop_spec _ s s' status hloop
    rw [hend.ends]
    intro hok
    exact (hend.ends _).mp (hend.idle_iff.mp (hidle (hend.status.symm.trans hok)))
  · intro h
    obtain ⟨status, s', hloop⟩ := sdPollingLoop_returns card _ s (h.mono fun _ _ => trivial)
    obtain ⟨reply, hend⟩ := sdPollingLoop_spec _ s s' status hloop
    refine ⟨status, s', hloop, fun hok => hend.idle_iff.mpr ((hend.ends _).mpr ?_)⟩
    exact (hend.ends _).mp h (hend.status.trans hok)

/-- A call does what is asked exactly if it fits.

The polling ends where the last status word has `ready_for_data` set, and nowhere else: the time
limit is not used, and the test for the programming state is never true.  So a polling is right
where such a word comes in time and with a state that may end it.  The calls that write and erase
drop its result, and so need that the last status command succeeded. -/
theorem sdBusyCall_holds_iff (card : SdBlockCard) (s : SdSession) (call : SdBusyCall) :
    call.Holds card s ↔ call.Fits card s := by
  cases call with
  | polling replies timeoutMs => exact sdPolling_holds_iff card s replies timeoutMs
  | write line core unset buffer startBlock blockCount =>
    by_cases hcount : blockCount = 0
    · rw [hcount]
      exact sdWriteBlocks_zero_iff card s line core unset buffer startBlock
    · exact sdWriteBlocks_pos_iff card s line core unset buffer startBlock blockCount hcount
  | erase line startBlock blockCount =>
    exact sdEraseBlocks_holds_iff card s line startBlock blockCount

/-- A card that answers with the bit for being ready in the programming state is taken for idle
behind the first command. -/
theorem sdBusyCall_programming :
    ¬ (SdBusyCall.polling (fun _ => ⟨statusSuccess, 0xF00⟩) 3).Holds ⟨1, false, true⟩
      (sdSession ⟨SdmmcCmd.zero, SdmmcData.zero, false⟩ 0) := by
  rintro ⟨status, s', hloop, hidle⟩
  have hpoll : sdPollingCardStatusBusyLoop ⟨1, false, true⟩
      (sdFirstReplies (fun _ => ⟨statusSuccess, 0xF00⟩) 4)
      (sdSession ⟨SdmmcCmd.zero, SdmmcData.zero, false⟩ 0) =
        some (statusSuccess, ⟨⟨⟨13, 0x10000, .r1⟩, SdmmcData.zero, false⟩, 0xF00, 0, 0,
          [⟨13, 0x10000, none, statusSuccess⟩]⟩) := by decide
  obtain ⟨hstatus, hs'⟩ := Prod.mk.inj (Option.some.inj (hpoll.symm.trans hloop))
  obtain ⟨-, -, -, -, hstate, -⟩ := hidle hstatus.symm
  rw [← hs'] at hstate
  exact hstate (by decide)

end Calls

end HpmSdk.Sd
