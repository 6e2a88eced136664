import HpmSdk.Sd.Blocks

set_option autoImplicit false

/-!
# SD cards: what the block functions are to do

The blocks that the commands move, the contract on a call, and the calls that keep
it.

What a log of commands moves is a function of its commands: of the index, the argument, the count of
the data structure and the count that a CMD23 in front has told.  Each pass of the loop then has one
specification, and its outcome says either that its blocks are moved or that it failed.
-/

namespace HpmSdk.Sd

open HpmSdk.Sdxc HpmSdk.Soc

/-! ## The contract -/

/-- One block moved between the card and a system address. -/
structure SdBlockMove where
  write : Bool
  cardByte : Nat
  address : BitVec 32
  deriving DecidableEq, Repr

/-- The byte of the card that a command argument stands for. -/
def sdFirstByte (card : SdBlockCard) (argument : BitVec 32) : Nat :=
  if card.highCapacity then argument.toNat * 512 else argument.toNat

/-- The buffer of a transfer; `rx_data` goes first. -/
def SdmmcData.buffer (data : SdmmcData) : BitVec 32 :=
  if data.rxData ≠ 0 then data.rxData else data.txData

/-- The host moves data to the card if there is no buffer to read into. -/
def SdmmcData.access (data : SdmmcData) : SdAccess := if data.rxData ≠ 0 then .read else .write

/-- The direction in which a command makes the card move data: CMD17 and CMD18 read, CMD24 and
CMD25 write. -/
def SdIssued.access (e : SdIssued) : Option SdAccess :=
  if e.cmdIndex = SdAccess.single .read ∨ e.cmdIndex = SdAccess.multiple .read then some .read
  else if e.cmdIndex = SdAccess.single .write ∨ e.cmdIndex = SdAccess.multiple .write then
    some .write
  else none

/-- The number of blocks that the card moves: one with CMD17 and CMD24, and with CMD18 and CMD25 as
many as the CMD23 right before told it. -/
def SdIssued.cardBlocks (told : Option (BitVec 32)) (e : SdIssued) : Option Nat :=
  if e.cmdIndex = SdAccess.single .read ∨ e.cmdIndex = SdAccess.single .write then some 1
  else told.map BitVec.toNat

/-- What a CMD23 tells for the command behind it. -/
def SdIssued.tells (e : SdIssued) : Option (BitVec 32) :=
  if e.cmdIndex = sdmmcCmdSetBlockCount then some e.cmdArgument else none

/-- The blocks that a command moves, where the card and the host agree: both move data or none of
them does, and then both in one direction and as many blocks of 512 bytes. -/
def SdIssued.moves (card : SdBlockCard) (told : Option (BitVec 32)) (e : SdIssued) :
    Option (List SdBlockMove) :=
  match e.access, e.data with
  | none, none => some []
  | some access, some data =>
    if data.access = access ∧ e.cardBlocks told = some data.blockCnt.toNat ∧
        data.blockSize = sdmmcBlockSizeDefault then
      some ((List.range data.blockCnt.toNat).map fun j =>
        ⟨access = .write, sdFirstByte card e.cmdArgument + j * 512,
          data.buffer + BitVec.ofNat 32 (j * 512)⟩)
    else none
  | _, _ => none

/-- The blocks that commands move, behind what the last command told. -/
def sdMovesFrom (card : SdBlockCard) :
    Option (BitVec 32) → List SdIssued → Option (List SdBlockMove)
  | _, [] => some []
  | told, e :: log =>
    (e.moves card told).bind fun moves => (sdMovesFrom card e.tells log).map (moves ++ ·)

def sdMoves (card : SdBlockCard) (log : List SdIssued) : Option (List SdBlockMove) :=
  sdMovesFrom card none log

/-- The blocks from `start` on, one after another, and the places of the buffer. -/
def sdExpectedMoves (core : HpmCore) (access : SdAccess) (buffer : BitVec 32)
    (start count : Nat) : List SdBlockMove :=
  (List.range count).map fun i =>
    ⟨access = .write, (start + i) * 512,
      sdmmcGetSysAddr core buffer + BitVec.ofNat 32 (i * 512)⟩

/-- All blocks and success if no command fails; and nothing behind the first command
that fails. -/
structure SdBlocksMeets (card : SdBlockCard) (expected : List SdBlockMove) (status : HpmStatus)
    (log : List SdIssued) : Prop where
  finished : (∀ e ∈ log, e.status = statusSuccess) →
    status = statusSuccess ∧ sdMoves card log = some expected
  failed : ∀ before e behind, log = before ++ e :: behind →
    (∀ x ∈ before, x.status = statusSuccess) → e.status ≠ statusSuccess →
      status = e.status ∧ ∀ x ∈ behind, x.data = none

/-- Before the first command. -/
def sdSession (host : SdmmcHost) (r1Status : BitVec 32) : SdSession := ⟨host, r1Status, 0, 0, []⟩

/-- A card that is ready and takes every command. -/
def sdIdealLine : SdLine := ⟨fun _ => statusSuccess, fun _ => [⟨statusSuccess, 0x100⟩]⟩

/-- What a call moves on such a card. -/
def sdEffect (core : HpmCore) (card : SdBlockCard) (access : SdAccess)
    (buffer startBlock blockCount : BitVec 32) : Option (List SdBlockMove) :=
  match sdBlocks sdIdealLine core card access statusSuccess buffer startBlock blockCount
      (sdSession ⟨SdmmcCmd.zero, SdmmcData.zero, false⟩ 0) with
  | none => none
  | some (_, s) => sdMoves card s.log

/-- A call keeps its promise for whatever the commands other than CMD13 return, and both
strategies have one effect. -/
structure SdBlocksContract (core : HpmCore) (card : SdBlockCard) (access : SdAccess)
    (buffer startBlock blockCount : BitVec 32) (polls : Nat → List SdReply) : Prop where
  returns : ∀ replies host r1Status unset, ∃ status s,
    sdBlocks ⟨replies, polls⟩ core card access unset buffer startBlock blockCount
        (sdSession host r1Status) = some (status, s) ∧
      SdBlocksMeets card (sdExpectedMoves core access buffer startBlock.toNat blockCount.toNat)
        status s.log
  sameEffect : sdEffect core { card with supportSetBlockCountCmd := true } access buffer
      startBlock blockCount =
    sdEffect core { card with supportSetBlockCountCmd := false } access buffer startBlock blockCount

/-! ## The calls that keep it -/

/-- The status is polled with success until the card is ready. -/
def SdAnswered : List SdReply → Prop
  | [] => False
  | reply :: replies =>
    reply.status = statusSuccess ∧ (SdBusy reply.response → SdAnswered replies)

instance decidableSdAnswered : ∀ replies, Decidable (SdAnswered replies)
  | [] => inferInstanceAs (Decidable False)
  | reply :: replies =>
    have _ := decidableSdAnswered replies
    inferInstanceAs (Decidable (reply.status = statusSuccess ∧
      (SdBusy reply.response → SdAnswered replies)))

/-- The number of data commands. -/
def sdPasses (card : SdBlockCard) (blockCount : Nat) : Nat :=
  if card.supportSetBlockCountCmd then (blockCount + 63) / 64 else blockCount

/-- The argument is right: for a card that is addressed by bytes only for its first
block. -/
def SdAddressed (card : SdBlockCard) (startBlock : BitVec 32) (blockCount : Nat) : Prop :=
  if card.highCapacity then startBlock.toNat + blockCount ≤ 2 ^ 32
  else startBlock = 0 ∧ blockCount = 1

instance (card : SdBlockCard) (startBlock : BitVec 32) (blockCount : Nat) :
    Decidable (SdAddressed card startBlock blockCount) := by
  unfold SdAddressed
  exact inferInstance

/-- The buffer lies in one memory: its system addresses follow each other. -/
def SdOneMemory (core : HpmCore) (buffer : BitVec 32) (blockCount : Nat) : Prop :=
  ∀ i < blockCount, sdmmcGetSysAddr core (buffer + BitVec.ofNat 32 (i * 512)) =
    sdmmcGetSysAddr core buffer + BitVec.ofNat 32 (i * 512)

structure SdBlocksFaithful (core : HpmCore) (card : SdBlockCard) (access : SdAccess)
    (buffer startBlock blockCount : BitVec 32) (polls : Nat → List SdReply) : Prop where
  pos : 0 < blockCount.toNat
  addressed : SdAddressed card startBlock blockCount.toNat
  memory : SdOneMemory core buffer blockCount.toNat
  polls : access = .write → ∀ p ≤ sdPasses card blockCount.toNat, SdAnswered (polls p)

/-! ## Moves -/

section Commands

variable {e : SdIssued} {access : SdAccess}

/-- Both commands of a direction move data in that direction. -/
theorem SdIssued.access_eq (h : e.cmdIndex = access.single ∨ e.cmdIndex = access.multiple) :
    e.access = some access := by
  unfold SdIssued.access
  cases access with
  | read => exact if_pos h
  | write =>
    have hother : ¬ (e.cmdIndex = SdAccess.single .read ∨ e.cmdIndex = SdAccess.multiple .read) := by
      rcases h with h | h
      · rw [h]
        decide
      · rw [h]
        decide
    rw [if_neg hother]
    exact if_pos h

/-- The command for one block needs no count. -/
theorem SdIssued.cardBlocks_single (h : e.cmdIndex = access.single) (told : Option (BitVec 32)) :
    e.cardBlocks told = some 1 := by
  refine if_pos ?_
  cases access with
  | read => exact Or.inl h
  | write => exact Or.inr h

/-- The command for several blocks moves as many as it was told. -/
theorem SdIssued.cardBlocks_multiple (h : e.cmdIndex = access.multiple) (told : Option (BitVec 32)) :
    e.cardBlocks told = told.map BitVec.toNat := by
  refine if_neg ?_
  rw [h]
  cases access <;> decide

end Commands

section Moves

variable (core : HpmCore) (card : SdBlockCard) (access : SdAccess)

/-- Commands move these blocks, whatever was told before them. -/
def SdMoved (log : List SdIssued) (moves : List SdBlockMove) : Prop :=
  ∀ told, sdMovesFrom card told log = some moves

variable {card} in
/-- What two parts of a log move, the log moves. -/
theorem SdMoved.append {xs ys : List SdIssued} {first behind : List SdBlockMove}
    (h : SdMoved card xs first) (hys : SdMoved card ys behind) :
    SdMoved card (xs ++ ys) (first ++ behind) := by
  intro told
  have hxs := h told
  clear h
  induction xs generalizing told first with
  | nil =>
    obtain rfl := Option.some.inj hxs
    exact hys told
  | cons e xs ih =>
    obtain ⟨moves, hmoves, hrest⟩ := Option.bind_eq_some_iff.mp hxs
    obtain ⟨more, hmore, rfl⟩ := Option.map_eq_some_iff.mp hrest
    rw [List.append_assoc]
    exact Option.bind_eq_some_iff.mpr
      ⟨moves, hmoves, Option.map_eq_some_iff.mpr ⟨_, ih e.tells hmore, rfl⟩⟩

/-- A command without data. -/
def SdIssued.Plain (e : SdIssued) : Prop := e.data = none ∧ e.access = none

/-- Commands that are not about blocks move none. -/
theorem SdMoved.plain {log : List SdIssued} (h : ∀ e ∈ log, e.Plain) : SdMoved card log [] := by
  intro told
  induction log generalizing told with
  | nil => rfl
  | cons e log ih =>
    obtain ⟨hdata, haccess⟩ := h e List.mem_cons_self
    have hmoves : e.moves card told = some [] := by
      unfold SdIssued.moves
      rw [hdata, haccess]
    refine Option.bind_eq_some_iff.mpr ⟨[], hmoves, Option.map_eq_some_iff.mpr ⟨[], ?_, rfl⟩⟩
    exact ih (fun x hx => h x (List.mem_cons_of_mem e hx)) e.tells

variable {card} in
/-- One command moves what it says, whatever count it was told. -/
theorem SdMoved.single {e : SdIssued} {moves : List SdBlockMove}
    (h : ∀ told, e.moves card told = some moves) : SdMoved card [e] moves := fun told =>
  Option.bind_eq_some_iff.mpr ⟨moves, h told, congrArg some (List.append_nil moves)⟩

/-- A CMD23 and the command behind it. -/
theorem SdMoved.told {e e' : SdIssued} {moves : List SdBlockMove} (he : e.Plain)
    (h : e'.moves card e.tells = some moves) : SdMoved card [e, e'] moves := by
  intro told
  have hfirst : e.moves card told = some [] := by
    unfold SdIssued.moves
    rw [he.1, he.2]
  refine Option.bind_eq_some_iff.mpr ⟨[], hfirst, Option.map_eq_some_iff.mpr ⟨moves, ?_, rfl⟩⟩
  exact Option.bind_eq_some_iff.mpr ⟨moves, h, congrArg some (List.append_nil moves)⟩

/-- The blocks of one data command. -/
def sdPassMoves (n : Nat) (startBlock buffer : BitVec 32) : List SdBlockMove :=
  (List.range n).map fun j =>
    ⟨access = .write, sdFirstByte card startBlock + j * 512,
      sdmmcGetSysAddr core buffer + BitVec.ofNat 32 (j * 512)⟩

/-- The blocks of the loop when nothing fails. -/
def sdLoopMoves : Nat → BitVec 32 → BitVec 32 → Nat → List SdBlockMove
  | 0, _, _, _ => []
  | fuel + 1, startBlock, buffer, blockCount =>
    if blockCount = 0 then []
    else
      sdPassMoves core card access (sdPassBlocks card blockCount) startBlock buffer ++
        sdLoopMoves fuel (startBlock + BitVec.ofNat 32 (sdPassBlocks card blockCount))
          (buffer + sdmmcBlockSizeDefault * BitVec.ofNat 32 (sdPassBlocks card blockCount))
          (blockCount - sdPassBlocks card blockCount)

/-- A system address is never `NULL`. -/
theorem sdmmcGetSysAddr_ne_zero (a : BitVec 32) : sdmmcGetSysAddr core a ≠ 0 := by
  intro hzero
  unfold sdmmcGetSysAddr at hzero
  by_cases hlocal : LocalAddress a
  · have halias := systemAlias_of_local core hlocal
    have hbase := aliasBase_eq core
    rw [hzero, systemAlias_iff] at halias
    have hlow : aliasBase core ≤ 0 := halias.1
    omega
  · rw [coreLocalMemToSysAddress_of_not_local hlocal] at hzero
    refine hlocal (Or.inl ?_)
    rw [hzero]
    decide

/-- A pass takes some of the blocks that are left, at most 64. -/
theorem sdPassBlocks_pos {blockCount : Nat} (h : blockCount ≠ 0) :
    0 < sdPassBlocks card blockCount ∧ sdPassBlocks card blockCount ≤ blockCount ∧
      sdPassBlocks card blockCount ≤ 64 := by
  unfold sdPassBlocks
  split
  · split <;> omega
  · omega

variable {card} in
/-- A card without CMD23 is given one block in a pass. -/
theorem sdPassBlocks_single {blockCount : Nat} (h : card.supportSetBlockCountCmd = false) :
    sdPassBlocks card blockCount = 1 := by
  unfold sdPassBlocks
  rw [h]
  rfl

/-- The structure of the other direction stays cleared. -/
def SdDataClear (s : SdSession) : Prop := access = .write → s.host.data.rxData = 0

theorem setBlocks_blockCnt (data : SdmmcData) {n : Nat} (h : n ≤ 64) (addr : BitVec 32) :
    (data.setBlocks access n addr).blockCnt.toNat = n := by
  have hcount : (BitVec.ofNat 32 n).toNat = n := Nat.mod_eq_of_lt (by omega)
  cases access <;> exact hcount

/-- The data that a pass hands to the host. -/
theorem setBlocks_buffer {access : SdAccess} {s : SdSession} (h : SdDataClear access s) (n : Nat)
    (buffer : BitVec 32) :
    (s.host.data.setBlocks access n (sdmmcGetSysAddr core buffer)).buffer =
      sdmmcGetSysAddr core buffer := by
  cases access with
  | read => exact if_pos (sdmmcGetSysAddr_ne_zero core buffer)
  | write => exact if_neg (not_not_intro (h rfl))

/-- The shared data structure is set to the direction of the call, if nothing of an earlier one is
left in it. -/
theorem setBlocks_access {access : SdAccess} {s : SdSession} (h : SdDataClear access s) (n : Nat)
    (buffer : BitVec 32) :
    (s.host.data.setBlocks access n (sdmmcGetSysAddr core buffer)).access = access := by
  cases access with
  | read => exact if_pos (sdmmcGetSysAddr_ne_zero core buffer)
  | write => exact if_neg (not_not_intro (h rfl))

end Moves

/-! ## One pass -/

/-- What came to the log, how it ended, and what was moved if it ended well. -/
inductive SdOutcome (card : SdBlockCard) (moves : List SdBlockMove) :
    List SdIssued → HpmStatus → Prop where
  | done {added : List SdIssued} (success : ∀ e ∈ added, e.status = statusSuccess)
      (moved : SdMoved card added moves) : SdOutcome card moves added statusSuccess
  | stopped {before : List SdIssued} {e : SdIssued}
      (success : ∀ x ∈ before, x.status = statusSuccess) (fails : e.status ≠ statusSuccess) :
      SdOutcome card moves (before ++ [e]) e.status

namespace SdOutcome

variable {card : SdBlockCard} {moves first : List SdBlockMove} {added before : List SdIssued}
  {status : HpmStatus}

/-- What succeeded before adds its blocks in front. -/
theorem prepend (hbefore : ∀ e ∈ before, e.status = statusSuccess)
    (hfirst : SdMoved card before first) (h : SdOutcome card moves added status) :
    SdOutcome card (first ++ moves) (before ++ added) status := by
  cases h with
  | done success moved =>
    refine .done (fun e he => ?_) (hfirst.append moved)
    exact (List.mem_append.mp he).elim (hbefore e) (success e)
  | @stopped ok e success fails =>
    rw [← List.append_assoc]
    refine .stopped (fun x hx => ?_) fails
    exact (List.mem_append.mp hx).elim (hbefore x) (success x)

theorem of_done (h : SdOutcome card moves added status) (hstatus : status = statusSuccess) :
    (∀ e ∈ added, e.status = statusSuccess) ∧ SdMoved card added moves := by
  cases h with
  | done success moved => exact ⟨success, moved⟩
  | stopped _ fails => exact absurd hstatus fails

/-- A call that has stopped is right about what was moved before. -/
theorem of_stopped (h : SdOutcome card moves added status) (hstatus : status ≠ statusSuccess) :
    SdOutcome card first added status := by
  cases h with
  | done => exact absurd rfl hstatus
  | stopped success fails => exact .stopped success fails

/-- Either way the call meets what is expected of it. -/
theorem meets (h : SdOutcome card moves added status) : SdBlocksMeets card moves status added := by
  cases h with
  | done success moved =>
    refine ⟨fun _ => ⟨rfl, moved none⟩, fun ok e behind hlog _ he => ?_⟩
    exact absurd (success e (by rw [hlog]; exact List.mem_append_cons_self)) he
  | @stopped ok e success fails =>
    refine ⟨fun hall => absurd (hall e (List.mem_append_right _ (List.mem_singleton_self e))) fails,
      fun ok' e' behind hlog _ he' => ?_⟩
    have hlast : e' = e ∧ behind = [] := by
      rcases List.append_eq_append_iff.mp hlog with ⟨rest, -, hrest⟩ | ⟨rest, hrest, hbehind⟩
      · -- the list of one element holds nothing in front of the failing command
        cases rest with
        | nil =>
          obtain ⟨he, hnil⟩ := List.cons.inj hrest
          exact ⟨he.symm, hnil.symm⟩
        | cons x rest => exact absurd (List.cons.inj hrest).2.symm (by simp)
      · cases rest with
        | nil =>
          obtain ⟨he, hnil⟩ := List.cons.inj hbehind
          exact ⟨he, hnil⟩
        | cons x rest =>
          have hx : x = e' := (List.cons.inj hbehind).1.symm
          have hmem : e' ∈ ok := by
            rw [hrest, ← hx]
            exact List.mem_append_cons_self
          exact absurd (success e' hmem) he'
    rw [hlast.1, hlast.2]
    exact ⟨rfl, fun x hx => absurd hx List.not_mem_nil⟩

end SdOutcome

section Pass

variable {line : SdLine} {core : HpmCore} {card : SdBlockCard} {access : SdAccess}

/-- What a pass leaves alone. -/
structure SdPassKeeps (access : SdAccess) (s s' : SdSession) : Prop where
  clear : SdDataClear access s'
  polls : s'.polls = s.polls

variable (line core card) in
/-- The command of a pass, with the index for its direction and its number of blocks. -/
theorem sdDataCommand_spec (startBlock buffer : BitVec 32) {cmdIndex : BitVec 32} {n : Nat}
    {s : SdSession} (hclear : SdDataClear access s) (hn : n ≤ 64) :
    ∃ e, (sdDataCommand line core access cmdIndex n startBlock buffer s).2.log = s.log ++ [e] ∧
      (sdDataCommand line core access cmdIndex n startBlock buffer s).1 = e.status ∧
      e.status = line.replies s.commands ∧
      (∀ told, cmdIndex = access.single ∧ n = 1 ∨
          cmdIndex = access.multiple ∧ told = some (BitVec.ofNat 32 n) →
        e.moves card told = some (sdPassMoves core card access n startBlock buffer)) ∧
      SdPassKeeps access s (sdDataCommand line core access cmdIndex n startBlock buffer s).2 := by
  refine ⟨_, rfl, rfl, rfl, fun told hindex => ?_, fun hwrite => ?_, rfl⟩
  · have hcnt := setBlocks_blockCnt access s.host.data hn (sdmmcGetSysAddr core buffer)
    have hagree := setBlocks_access core hclear n buffer
    have hsize : (s.host.data.setBlocks access n (sdmmcGetSysAddr core buffer)).blockSize =
        sdmmcBlockSizeDefault := by
      cases access <;> rfl
    generalize hdata : s.host.data.setBlocks access n (sdmmcGetSysAddr core buffer) = data
      at hcnt hagree hsize
    have hbuffer : data.buffer = sdmmcGetSysAddr core buffer := by
      rw [← hdata, setBlocks_buffer core hclear]
    let e : SdIssued := ⟨cmdIndex, startBlock, some data, line.replies s.commands⟩
    have haccess : e.access = some access :=
      SdIssued.access_eq (hindex.imp (fun h => h.1) fun h => h.1)
    have hblocks : e.cardBlocks told = some data.blockCnt.toNat := by
      rw [hcnt]
      rcases hindex with ⟨hindex, rfl⟩ | ⟨hindex, rfl⟩
      · exact SdIssued.cardBlocks_single hindex told
      · rw [SdIssued.cardBlocks_multiple hindex]
        exact congrArg some (Nat.mod_eq_of_lt (by omega))
    show e.moves card told = _
    unfold SdIssued.moves
    rw [haccess]
    dsimp only [e]
    rw [if_pos ⟨hagree, hblocks, hsize⟩, hcnt, hbuffer]
    rfl
  · subst hwrite
    exact hclear rfl

/-- The first command fails. -/
theorem SdOutcome.fails {e : SdIssued} (moves : List SdBlockMove)
    (h : e.status ≠ statusSuccess) : SdOutcome card moves [e] e.status := by
  rw [← List.nil_append [e]]
  exact .stopped (fun x hx => absurd hx List.not_mem_nil) h

/-- A command behind others that succeeded, however it ends. -/
theorem SdOutcome.last {before : List SdIssued} {e : SdIssued} {moves : List SdBlockMove}
    (hbefore : ∀ x ∈ before, x.status = statusSuccess) (hmoves : SdMoved card (before ++ [e]) moves) :
    SdOutcome card moves (before ++ [e]) e.status := by
  by_cases he : e.status = statusSuccess
  · rw [he]
    refine .done (fun x hx => ?_) hmoves
    rcases List.mem_append.mp hx with hx | hx
    · exact hbefore x hx
    · rw [List.mem_singleton.mp hx, he]
  · exact .stopped hbefore he

variable (line core card) in
/-- One pass: CMD23 with the count where there are several blocks, and then the command that moves
them; either of the two may fail. -/
theorem sdBlocksPass_spec (startBlock buffer : BitVec 32) {n : Nat} {s : SdSession}
    (hclear : SdDataClear access s) (hn : n ≤ 64)
    (hone : card.supportSetBlockCountCmd = false → n = 1) :
    ∃ added, (sdBlocksPass line core card access n startBlock buffer s).2.log = s.log ++ added ∧
      SdOutcome card (sdPassMoves core card access n startBlock buffer) added
        (sdBlocksPass line core card access n startBlock buffer s).1 ∧
      SdPassKeeps access s (sdBlocksPass line core card access n startBlock buffer s).2 ∧
      ((∀ k, line.replies k = statusSuccess) →
        (sdBlocksPass line core card access n startBlock buffer s).1 = statusSuccess) := by
  unfold sdBlocksPass
  split
  · obtain ⟨hlog, hstatus⟩ : _ ∧ _ :=
      ⟨(rfl : (sdmmcSetBlockCount line (BitVec.ofNat 32 n) s).2.log = s.log ++
        [⟨sdmmcCmdSetBlockCount, BitVec.ofNat 32 n, none, line.replies s.commands⟩]),
        (rfl : (sdmmcSetBlockCount line (BitVec.ofNat 32 n) s).1 = line.replies s.commands)⟩
    have hkept : SdDataClear access (sdmmcSetBlockCount line (BitVec.ofNat 32 n) s).2 := hclear
    dsimp only
    split
    · rename_i hfails
      refine ⟨_, hlog, ?_, ⟨hkept, rfl⟩, fun hzero => absurd (hstatus.trans (hzero _)) hfails⟩
      exact SdOutcome.fails _ hfails
    · rename_i hok
      obtain ⟨e, hdata, hresult, hreply, hmoves, hkeeps⟩ :=
        sdDataCommand_spec line core card startBlock buffer hkept hn
      refine ⟨_, hdata.trans ((congrArg (· ++ [e]) hlog).trans (List.append_assoc _ _ _)), ?_,
        ⟨hkeeps.clear, hkeeps.polls⟩, fun hzero => hresult.trans (hreply.trans (hzero _))⟩
      rw [hresult]
      refine SdOutcome.last (fun x hx => ?_)
        (SdMoved.told card ⟨rfl, rfl⟩ (hmoves _ (Or.inr ⟨rfl, rfl⟩)))
      rw [List.mem_singleton.mp hx]
      exact not_not.mp hok
  · rename_i hsupport
    have hone := hone (Bool.eq_false_iff.mpr hsupport)
    obtain ⟨e, hdata, hresult, hreply, hmoves, hkeeps⟩ :=
      sdDataCommand_spec line core card startBlock buffer hclear hn
    refine ⟨_, hdata, ?_, hkeeps, fun hzero => hresult.trans (hreply.trans (hzero _))⟩
    rw [hresult, ← List.nil_append [e]]
    exact SdOutcome.last (fun x hx => absurd hx List.not_mem_nil)
      (SdMoved.single fun told => hmoves told (Or.inl ⟨rfl, hone⟩))

/-! ## Polling -/

/-- What polling adds to the log: no command that moves data, and successes exactly if the card
answered. -/
structure SdPolled (access : SdAccess) (answered : Prop) (s s' : SdSession)
    (added : List SdIssued) : Prop where
  log : s'.log = s.log ++ added
  plain : ∀ e ∈ added, e.Plain
  clear : SdDataClear access s → SdDataClear access s'
  success : (∀ e ∈ added, e.status = statusSuccess) ↔ answered

/-- A command without data before the polling that goes on. -/
theorem SdPolled.cons {answered answered' : Prop} {s s₁ s' : SdSession} {added : List SdIssued}
    {e : SdIssued} (h : SdPolled access answered s₁ s' added) (hlog : s₁.log = s.log ++ [e])
    (hplain : e.Plain) (hclear : SdDataClear access s → SdDataClear access s₁)
    (hanswered : e.status = statusSuccess ∧ answered ↔ answered') :
    SdPolled access answered' s s' (e :: added) where
  log := by rw [h.log, hlog, List.append_assoc, List.singleton_append]
  plain := List.forall_mem_cons.mpr ⟨hplain, h.plain⟩
  clear := fun hbefore => h.clear (hclear hbefore)
  success := by rw [List.forall_mem_cons, h.success, hanswered]

variable (access) in
/-- Polling the card adds commands that move nothing. -/
theorem sdPollingCardStatusBusyLoop_spec : ∀ (replies : List SdReply) (s s' : SdSession)
    (status : HpmStatus), sdPollingCardStatusBusyLoop card replies s = some (status, s') →
      s'.polls = s.polls ∧ ∃ added, SdPolled access (SdAnswered replies) s s' added
  | [], _, _, _, h => nomatch h
  | reply :: replies, s, s', status, h => by
    unfold sdPollingCardStatusBusyLoop sdSendCardStatus at h
    unfold SdAnswered
    dsimp only at h
    by_cases hreply : reply.status = statusSuccess
    · rw [if_neg (not_not_intro hreply)] at h
      by_cases hbusy : SdBusy reply.response
      · rw [if_pos hbusy] at h
        obtain ⟨hpolls, added, hpolled⟩ :=
          sdPollingCardStatusBusyLoop_spec replies _ s' status h
        refine ⟨hpolls, _, hpolled.cons rfl ⟨rfl, rfl⟩ id ?_⟩
        exact and_congr_right fun _ => ⟨fun h _ => h, fun h => h hbusy⟩
      · rw [if_neg hbusy] at h
        obtain ⟨-, rfl⟩ := Prod.mk.inj (Option.some.inj h)
        refine ⟨rfl, _, rfl, fun e he => ?_, id, ?_⟩
        · rw [List.mem_singleton.mp he]
          exact ⟨rfl, rfl⟩
        · rw [List.forall_mem_singleton]
          exact (and_iff_left fun h => absurd h hbusy).symm
    · rw [if_pos hreply] at h
      have hfails : ¬ (reply.status = statusSuccess ∧
          (SdBusy reply.response → SdAnswered replies)) := fun h => hreply h.1
      split at h
      · obtain ⟨hpolls, added, hpolled⟩ :=
          sdPollingCardStatusBusyLoop_spec replies _ s' status h
        refine ⟨hpolls, _, hpolled.cons rfl ⟨rfl, rfl⟩ id ?_⟩
        exact iff_of_false (fun hall => hreply hall.1) hfails
      · obtain ⟨-, rfl⟩ := Prod.mk.inj (Option.some.inj h)
        refine ⟨rfl, _, rfl, fun e he => ?_, id, ?_⟩
        · rw [List.mem_singleton.mp he]
          exact ⟨rfl, rfl⟩
        · exact iff_of_false (fun hall => hreply (hall _ List.mem_cons_self)) hfails

variable (card) in
/-- And it returns where the card answers at some time. -/
theorem sdPollingCardStatusBusyLoop_returns : ∀ (replies : List SdReply) (s : SdSession),
    SdAnswered replies → ∃ r, sdPollingCardStatusBusyLoop card replies s = some r
  | [], _, h => h.elim
  | reply :: replies, s, ⟨hreply, hrest⟩ => by
    unfold sdPollingCardStatusBusyLoop sdSendCardStatus
    dsimp only
    rw [if_neg (not_not_intro hreply)]
    by_cases hbusy : SdBusy reply.response
    · rw [if_pos hbusy]
      exact sdPollingCardStatusBusyLoop_returns replies _ (hrest hbusy)
    · rw [if_neg hbusy]
      exact ⟨_, rfl⟩

/-- Only a write polls. -/
theorem sdPassPoll_spec {s s' : SdSession} (h : sdPassPoll line card access s = some s') :
    (access = .write → s'.polls = s.polls + 1) ∧ ∃ added,
      SdPolled access (access = .write → SdAnswered (line.polls s.polls)) s s' added := by
  cases access with
  | read =>
    obtain rfl := Option.some.inj h
    refine ⟨fun hwrite => (nomatch hwrite), [], (List.append_nil _).symm,
      fun e he => absurd he List.not_mem_nil, id, ?_⟩
    exact iff_of_true (fun e he => absurd he List.not_mem_nil) fun hwrite => nomatch hwrite
  | write =>
    obtain ⟨⟨status, mid⟩, hpoll, rfl⟩ := Option.map_eq_some_iff.mp h
    obtain ⟨hpolls, added, hpolled⟩ :=
      sdPollingCardStatusBusyLoop_spec .write (line.polls s.polls) _ mid status hpoll
    refine ⟨fun _ => hpolls, added, hpolled.log, hpolled.plain, hpolled.clear, ?_⟩
    rw [hpolled.success]
    exact ⟨fun h _ => h, fun h => h rfl⟩

variable (card) in
theorem sdPassPoll_returns {s : SdSession}
    (h : access = .write → SdAnswered (line.polls s.polls)) :
    ∃ s', sdPassPoll line card access s = some s' := by
  cases access with
  | read => exact ⟨s, rfl⟩
  | write =>
    obtain ⟨r, hr⟩ := sdPollingCardStatusBusyLoop_returns card (line.polls s.polls)
      { s with polls := s.polls + 1 } (h rfl)
    exact ⟨r.2, Option.map_eq_some_iff.mpr ⟨r, hr, rfl⟩⟩

end Pass

/-! ## The loop -/

section Loop

variable {line : SdLine} {core : HpmCore} {card : SdBlockCard} {access : SdAccess}

theorem sdPasses_zero : sdPasses card 0 = 0 := by
  unfold sdPasses
  split <;> rfl

/-- A pass takes one of the data commands. -/
theorem sdPasses_pass {blockCount : Nat} (h : blockCount ≠ 0) :
    sdPasses card blockCount = 1 + sdPasses card (blockCount - sdPassBlocks card blockCount) := by
  unfold sdPasses sdPassBlocks
  split
  · split <;> omega
  · omega

/-- The polls of the passes that are left end with the card ready. -/
def SdPollsAnswered (line : SdLine) (access : SdAccess) (first passes : Nat) : Prop :=
  access = .write → ∀ p, first ≤ p → p < first + passes → SdAnswered (line.polls p)

/-- The polls of the passes are those of the first pass and those of the rest. -/
theorem SdPollsAnswered.succ {first passes next : Nat} (hnext : access = .write → next = first + 1) :
    SdPollsAnswered line access first (1 + passes) ↔
      (access = .write → SdAnswered (line.polls first)) ∧
        SdPollsAnswered line access next passes := by
  constructor
  · intro h
    refine ⟨fun hwrite => h hwrite first (Nat.le_refl _) (by omega), fun hwrite p hp hlt => ?_⟩
    have hnext := hnext hwrite
    exact h hwrite p (by omega) (by omega)
  · rintro ⟨hfirst, hrest⟩ hwrite p hp hlt
    have hnext := hnext hwrite
    rcases Nat.eq_or_lt_of_le hp with rfl | hp
    · exact hfirst hwrite
    · exact hrest hwrite p (by omega) (by omega)

theorem sdBlocksLoop_zero (fuel : Nat) (status : HpmStatus) (startBlock buffer : BitVec 32)
    (s : SdSession) :
    sdBlocksLoop line core card access (fuel + 1) status startBlock buffer 0 s =
      some (status, s) := rfl

/-- The loop is one pass and then, if that was right, the loop behind it. -/
theorem sdBlocksLoop_pass {blockCount : Nat} (h : blockCount ≠ 0) (fuel : Nat)
    (status : HpmStatus) (startBlock buffer : BitVec 32) (s : SdSession) :
    sdBlocksLoop line core card access (fuel + 1) status startBlock buffer blockCount s =
      let pass := sdBlocksPass line core card access (sdPassBlocks card blockCount) startBlock
        buffer s
      if pass.1 ≠ statusSuccess then some pass
      else (sdPassPoll line card access pass.2).bind fun s =>
        sdBlocksLoop line core card access fuel pass.1
          (startBlock + BitVec.ofNat 32 (sdPassBlocks card blockCount))
          (buffer + sdmmcBlockSizeDefault * BitVec.ofNat 32 (sdPassBlocks card blockCount))
          (blockCount - sdPassBlocks card blockCount) s :=
  if_neg h

/-- When the polls are answered, the loop ends, and well or at the command that fails. -/
theorem sdBlocksLoop_outcome : ∀ (fuel : Nat) (status : HpmStatus) (startBlock buffer : BitVec 32)
    (blockCount : Nat) (s : SdSession), blockCount < fuel →
      (blockCount = 0 → status = statusSuccess) → SdDataClear access s →
      SdPollsAnswered line access s.polls (sdPasses card blockCount) →
        ∃ status' s' added,
          sdBlocksLoop line core card access fuel status startBlock buffer blockCount s =
            some (status', s') ∧ s'.log = s.log ++ added ∧
          SdOutcome card (sdLoopMoves core card access fuel startBlock buffer blockCount) added
            status' := by
  intro fuel
  induction fuel with
  | zero => exact fun _ _ _ _ _ h => absurd h (Nat.not_lt_zero _)
  | succ fuel ih =>
    intro status startBlock buffer blockCount s hfuel hstatus hclear hpolls
    by_cases hcount : blockCount = 0
    · subst hcount
      rw [hstatus rfl]
      exact ⟨_, s, [], sdBlocksLoop_zero .., (List.append_nil _).symm,
        .done (fun e he => absurd he List.not_mem_nil) fun _ => rfl⟩
    have hn := sdPassBlocks_pos card hcount
    have hmoves : sdLoopMoves core card access (fuel + 1) startBlock buffer blockCount = _ :=
      if_neg hcount
    rw [sdBlocksLoop_pass hcount, hmoves]
    obtain ⟨added, hlog, houtcome, hkeeps, -⟩ := sdBlocksPass_spec line core card startBlock
      buffer hclear hn.2.2 sdPassBlocks_single
    dsimp only
    split
    · rename_i hfails
      exact ⟨_, _, added, rfl, hlog, houtcome.of_stopped hfails⟩
    · rename_i hok
      have hsuccess := not_not.mp hok
      obtain ⟨hpass, hmoved⟩ := houtcome.of_done hsuccess
      rw [sdPasses_pass hcount, ← hkeeps.polls] at hpolls
      obtain ⟨mid, hmid⟩ :=
        sdPassPoll_returns card ((SdPollsAnswered.succ fun _ => rfl).mp hpolls).1
      obtain ⟨hnext, polled, hpolled⟩ := sdPassPoll_spec hmid
      obtain ⟨hanswered, hrest⟩ := (SdPollsAnswered.succ hnext).mp hpolls
      obtain ⟨status', s', rest, hloop, hend, htail⟩ := ih _ _ _ _ mid (by omega)
        (fun _ => hsuccess) (hpolled.clear hkeeps.clear) hrest
      refine ⟨status', s', (added ++ polled) ++ rest, ?_, ?_, ?_⟩
      · rw [hmid]
        exact hloop
      · rw [hend, hpolled.log, hlog, List.append_assoc, List.append_assoc, List.append_assoc]
      · refine SdOutcome.prepend (fun e he => ?_) ?_ htail
        · exact (List.mem_append.mp he).elim (hpass e) (hpolled.success.mpr hanswered e)
        · have hboth := hmoved.append (SdMoved.plain card hpolled.plain)
          rwa [List.append_nil] at hboth

/-- When no other command fails, the loop ends with success, and the polls were answered
if none of them failed. -/
theorem sdBlocksLoop_answered (hzero : ∀ k, line.replies k = statusSuccess) :
    ∀ (fuel : Nat) (status : HpmStatus) (startBlock buffer : BitVec 32) (blockCount : Nat)
      (s s' : SdSession) (status' : HpmStatus),
      (blockCount = 0 → status = statusSuccess) → SdDataClear access s →
      sdBlocksLoop line core card access fuel status startBlock buffer blockCount s =
          some (status', s') →
        status' = statusSuccess ∧ ∃ added, s'.log = s.log ++ added ∧
          ((∀ e ∈ added, e.status = statusSuccess) →
            SdPollsAnswered line access s.polls (sdPasses card blockCount)) := by
  intro fuel
  induction fuel with
  | zero => exact fun _ _ _ _ _ _ _ _ _ h => nomatch h
  | succ fuel ih =>
    intro status startBlock buffer blockCount s s' status' hstatus hclear hloop
    by_cases hcount : blockCount = 0
    · subst hcount
      rw [sdBlocksLoop_zero] at hloop
      obtain ⟨rfl, rfl⟩ := Prod.mk.inj (Option.some.inj hloop)
      refine ⟨hstatus rfl, [], (List.append_nil _).symm, fun _ _ p hp hlt => ?_⟩
      rw [sdPasses_zero] at hlt
      omega
    have hn := sdPassBlocks_pos card hcount
    obtain ⟨added, hlog, houtcome, hkeeps, hreplies⟩ := sdBlocksPass_spec line core card
      startBlock buffer hclear hn.2.2 sdPassBlocks_single
    have hok := hreplies hzero
    rw [sdBlocksLoop_pass hcount] at hloop
    dsimp only at hloop
    rw [if_neg (not_not_intro hok)] at hloop
    obtain ⟨mid, hmid, hrest⟩ := Option.bind_eq_some_iff.mp hloop
    obtain ⟨hnext, polled, hpolled⟩ := sdPassPoll_spec hmid
    obtain ⟨hsuccess, rest, hend, htail⟩ := ih _ _ _ _ mid s' status' (fun _ => hok)
      (hpolled.clear hkeeps.clear) hrest
    refine ⟨hsuccess, (added ++ polled) ++ rest, ?_, fun hall => ?_⟩
    · rw [hend, hpolled.log, hlog, List.append_assoc, List.append_assoc, List.append_assoc]
    · rw [List.forall_mem_append, List.forall_mem_append] at hall
      rw [sdPasses_pass hcount, ← hkeeps.polls]
      exact (SdPollsAnswered.succ hnext).mpr ⟨hpolled.success.mp hall.1.2, htail hall.2⟩

end Loop

end HpmSdk.Sd
