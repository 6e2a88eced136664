import HpmSdk.Sd.BlocksContract

set_option autoImplicit false

/-!
# SD cards: the calls that move the blocks they are to move

The blocks that the loop moves where nothing fails, and the calls that keep the
contract.

The condition is shown to be enough by following the passes, and to be needed by the run in which
every command succeeds.
-/

namespace HpmSdk.Sd

open HpmSdk.Sdxc HpmSdk.Soc

/-! ## The moves of the loop -/

section LoopMoves

variable (core : HpmCore) (card : SdBlockCard) (access : SdAccess)

/-- The buffer goes on by as many bytes as were moved. -/
theorem bufferStep (buffer : BitVec 32) (n i : Nat) :
    buffer + sdmmcBlockSizeDefault * BitVec.ofNat 32 n + BitVec.ofNat 32 (i * 512) =
      buffer + BitVec.ofNat 32 ((n + i) * 512) := by
  have hstep : sdmmcBlockSizeDefault * BitVec.ofNat 32 n = BitVec.ofNat 32 (n * 512) := by
    rw [Nat.mul_comm, BitVec.ofNat_mul]
    rfl
  rw [hstep, BitVec.add_assoc, ← BitVec.ofNat_add, ← Nat.add_mul]

variable {core card} in
/-- The first blocks are those of the first command. -/
theorem sdPassMoves_eq {startBlock : BitVec 32} {buffer : BitVec 32} {n count : Nat}
    (haddressed : SdAddressed card startBlock count) (hn : n ≤ count) :
    sdPassMoves core card access n startBlock buffer =
      sdExpectedMoves core access buffer startBlock.toNat n := by
  refine List.map_congr_left fun j hj => ?_
  have hj := List.mem_range.mp hj
  have hbyte : sdFirstByte card startBlock + j * 512 = (startBlock.toNat + j) * 512 := by
    unfold sdFirstByte
    unfold SdAddressed at haddressed
    split
    · omega
    · rename_i hbytes
      rw [if_neg hbytes] at haddressed
      rw [haddressed.1]
      have hfirst : j = 0 := by omega
      rw [hfirst]
      rfl
  rw [hbyte]

/-- Where the arguments are right, the loop moves the blocks that are expected. -/
theorem sdLoopMoves_eq : ∀ (fuel : Nat) (startBlock buffer : BitVec 32) (count : Nat),
    count < fuel → (count ≠ 0 → SdAddressed card startBlock count) →
      SdOneMemory core buffer count →
        sdLoopMoves core card access fuel startBlock buffer count =
          sdExpectedMoves core access buffer startBlock.toNat count := by
  intro fuel
  induction fuel with
  | zero => exact fun _ _ _ h => absurd h (Nat.not_lt_zero _)
  | succ fuel ih =>
    intro startBlock buffer count hfuel haddressed hmemory
    by_cases hcount : count = 0
    · subst hcount
      rfl
    obtain ⟨hpos, hle, -⟩ := sdPassBlocks_pos card hcount
    have haddressed := haddressed hcount
    have hmoves : sdLoopMoves core card access (fuel + 1) startBlock buffer count = _ :=
      if_neg hcount
    generalize sdPassBlocks card count = n at hpos hle hmoves
    have hsplit : count = n + (count - n) := by omega
    have hstart : count - n ≠ 0 → SdAddressed card (startBlock + BitVec.ofNat 32 n) (count - n) ∧
        (startBlock + BitVec.ofNat 32 n).toNat = startBlock.toNat + n := fun hleft => by
      unfold SdAddressed at haddressed ⊢
      split at haddressed
      · rename_i hblocks
        have hnext : (startBlock + BitVec.ofNat 32 n).toNat = startBlock.toNat + n := by
          rw [BitVec.toNat_add, BitVec.toNat_ofNat]
          omega
        rw [if_pos hblocks, hnext]
        omega
      · omega
    have hshift : ∀ i < count - n,
        sdmmcGetSysAddr core (buffer + sdmmcBlockSizeDefault * BitVec.ofNat 32 n +
            BitVec.ofNat 32 (i * 512)) =
          sdmmcGetSysAddr core buffer + BitVec.ofNat 32 ((n + i) * 512) := fun i hi => by
      rw [bufferStep]
      exact hmemory (n + i) (by omega)
    have hhead : 0 < count - n →
        sdmmcGetSysAddr core (buffer + sdmmcBlockSizeDefault * BitVec.ofNat 32 n) =
          sdmmcGetSysAddr core buffer + BitVec.ofNat 32 (n * 512) := fun hleft => by
      have hzero := hshift 0 hleft
      rwa [Nat.zero_mul, BitVec.add_zero, Nat.add_zero] at hzero
    have hrest := ih (startBlock + BitVec.ofNat 32 n)
      (buffer + sdmmcBlockSizeDefault * BitVec.ofNat 32 n) (count - n) (by omega)
      (fun hleft => (hstart hleft).1) fun i hi => by
        rw [hshift i hi, hhead (by omega), BitVec.add_assoc, ← BitVec.ofNat_add, Nat.add_mul]
    rw [hmoves, hrest, sdPassMoves_eq access haddressed hle]
    -- the blocks that are left follow those of the pass
    have hrange : List.range count = List.range n ++ (List.range (count - n)).map (n + ·) := by
      rw [← List.range_add, ← hsplit]
    unfold sdExpectedMoves
    rw [hrange, List.map_append, List.map_map]
    refine congrArg _ (List.map_congr_left fun i hi => ?_)
    have hi := List.mem_range.mp hi
    dsimp only [Function.comp]
    rw [(hstart (by omega)).2, hhead (by omega), BitVec.add_assoc, ← BitVec.ofNat_add,
      ← Nat.add_mul, Nat.add_assoc]

/-- Block by block, every argument and every place of the buffer is computed anew. -/
theorem sdLoopMoves_single : ∀ (fuel : Nat) (startBlock buffer : BitVec 32) (count : Nat),
    count < fuel →
      sdLoopMoves core { card with supportSetBlockCountCmd := false } access fuel startBlock buffer
          count =
        (List.range count).map fun i => ⟨access = .write,
          sdFirstByte card (startBlock + BitVec.ofNat 32 i),
          sdmmcGetSysAddr core (buffer + BitVec.ofNat 32 (i * 512))⟩ := by
  intro fuel
  induction fuel with
  | zero => exact fun _ _ _ h => absurd h (Nat.not_lt_zero _)
  | succ fuel ih =>
    intro startBlock buffer count hfuel
    cases count with
    | zero => rfl
    | succ count =>
      have hone : sdPassBlocks { card with supportSetBlockCountCmd := false } (count + 1) = 1 := rfl
      have hmoves : sdLoopMoves core { card with supportSetBlockCountCmd := false } access
        (fuel + 1) startBlock buffer (count + 1) = _ := if_neg (Nat.succ_ne_zero count)
      rw [hmoves, hone, ih _ _ _ (by omega), List.range_succ_eq_map, List.map_cons, List.map_map]
      refine congrArg₂ List.cons ?_ (List.map_congr_left fun i _ => ?_)
      · change SdBlockMove.mk _ (sdFirstByte card startBlock + 0) (_ + 0#32) =
          SdBlockMove.mk _ (sdFirstByte card (startBlock + 0#32))
            (sdmmcGetSysAddr core (buffer + 0#32))
        rw [BitVec.add_zero, BitVec.add_zero, BitVec.add_zero, Nat.add_zero]
      · dsimp only [Function.comp]
        rw [bufferStep, BitVec.add_assoc, ← BitVec.ofNat_add, Nat.add_comm 1 i]

end LoopMoves

/-! ## The calls -/

section Calls

variable {line : SdLine} {core : HpmCore} {card : SdBlockCard} {access : SdAccess}
  {unset : HpmStatus} {buffer startBlock blockCount : BitVec 32} {host : SdmmcHost}
  {r1Status : BitVec 32}

/-- The structure is cleared at the start of a call. -/
theorem clear_dataClear : SdDataClear access (sdSession host r1Status).clear := fun _ => rfl

variable (line core buffer startBlock host r1Status) in
/-- A call returns, and its outcome is one of the two: the blocks are moved, or a command has
failed. -/
theorem sdBlocks_outcome (hunset : blockCount.toNat = 0 → unset = statusSuccess)
    (hpolls : access = .write → ∀ p ≤ sdPasses card blockCount.toNat, SdAnswered (line.polls p)) :
    ∃ status s, sdBlocks line core card access unset buffer startBlock blockCount
        (sdSession host r1Status) = some (status, s) ∧
      SdOutcome card (sdLoopMoves core card access (blockCount.toNat + 1) startBlock buffer
        blockCount.toNat) s.log status := by
  have hall : SdPollsAnswered line access 0 (1 + sdPasses card blockCount.toNat) :=
    fun hwrite p _ hp => hpolls hwrite p (by omega)
  obtain ⟨mid, hmid⟩ := sdPassPoll_returns card
    (s := (sdSession host r1Status).clear) ((SdPollsAnswered.succ fun _ => rfl).mp hall).1
  obtain ⟨hnext, polled, hpolled⟩ := sdPassPoll_spec hmid
  obtain ⟨hanswered, hrest⟩ := (SdPollsAnswered.succ hnext).mp hall
  obtain ⟨status, s, added, hloop, hlog, houtcome⟩ := sdBlocksLoop_outcome _ unset startBlock
    buffer _ mid (Nat.lt_succ_self _) hunset (hpolled.clear clear_dataClear) hrest
  refine ⟨status, s, ?_, ?_⟩
  · unfold sdBlocks
    rw [hmid]
    exact hloop
  · rw [hlog, hpolled.log]
    exact houtcome.prepend (hpolled.success.mpr hanswered) (SdMoved.plain card hpolled.plain)

/-- Where every command succeeds a call that returns has succeeded, and the polls of its passes were
answered. -/
theorem sdBlocks_answered (hzero : ∀ k, line.replies k = statusSuccess)
    (hunset : blockCount.toNat = 0 → unset = statusSuccess) {status : HpmStatus} {s : SdSession}
    (hreturns : sdBlocks line core card access unset buffer startBlock blockCount
      (sdSession host r1Status) = some (status, s)) :
    status = statusSuccess ∧ ((∀ e ∈ s.log, e.status = statusSuccess) → access = .write →
      ∀ p ≤ sdPasses card blockCount.toNat, SdAnswered (line.polls p)) := by
  obtain ⟨mid, hmid, hloop⟩ := Option.bind_eq_some_iff.mp hreturns
  obtain ⟨hnext, polled, hpolled⟩ := sdPassPoll_spec hmid
  obtain ⟨hsuccess, added, hlog, htail⟩ := sdBlocksLoop_answered hzero _ unset startBlock buffer _
    mid s status hunset (hpolled.clear clear_dataClear) hloop
  refine ⟨hsuccess, fun hall hwrite p hp => ?_⟩
  rw [hlog, hpolled.log] at hall
  have hpolledAll := fun e he => hall e (List.mem_append_left _ (List.mem_append_right _ he))
  have haddedAll := fun e he => hall e (List.mem_append_right _ he)
  have hanswered : SdPollsAnswered line access 0 (1 + sdPasses card blockCount.toNat) :=
    (SdPollsAnswered.succ hnext).mpr ⟨hpolled.success.mp hpolledAll, htail haddedAll⟩
  exact hanswered hwrite p (Nat.zero_le _) (by omega)

/-- What is moved when nothing fails is what the loop moves. -/
theorem sdEffect_eq : sdEffect core card access buffer startBlock blockCount =
    some (sdLoopMoves core card access (blockCount.toNat + 1) startBlock buffer
      blockCount.toNat) := by
  have hready : ∀ p ≤ sdPasses card blockCount.toNat, SdAnswered (sdIdealLine.polls p) :=
    fun _ _ => ⟨rfl, by decide⟩
  obtain ⟨status, s, hrun, houtcome⟩ := sdBlocks_outcome sdIdealLine core buffer startBlock
    ⟨SdmmcCmd.zero, SdmmcData.zero, false⟩ 0 (fun _ => rfl) fun _ => hready
  have hstatus := (sdBlocks_answered (fun _ => rfl) (fun _ => rfl) hrun).1
  unfold sdEffect
  rw [hrun]
  exact (houtcome.of_done hstatus).2 none

/-- A call that ends with success has no command that failed. -/
theorem SdBlocksMeets.all_success {expected : List SdBlockMove} {log : List SdIssued}
    (h : SdBlocksMeets card expected statusSuccess log) : ∀ e ∈ log, e.status = statusSuccess := by
  by_contra hall
  have hfind : log.find? (fun e => e.status ≠ statusSuccess) ≠ none := by
    simpa using hall
  obtain ⟨e, he⟩ := Option.ne_none_iff_exists'.mp hfind
  obtain ⟨hfails, before, behind, hlog, hbefore⟩ := List.find?_eq_some_iff_append.mp he
  have hfails : e.status ≠ statusSuccess := by simpa using hfails
  refine hfails (h.failed before e behind hlog (fun x hx => ?_) hfails).1.symm
  simpa using hbefore x hx

/-- The condition is enough. -/
theorem SdBlocksFaithful.contract {polls : Nat → List SdReply}
    (h : SdBlocksFaithful core card access buffer startBlock blockCount polls) :
    SdBlocksContract core card access buffer startBlock blockCount polls := by
  have hmoves : ∀ flag, sdLoopMoves core { card with supportSetBlockCountCmd := flag } access
      (blockCount.toNat + 1) startBlock buffer blockCount.toNat =
        sdExpectedMoves core access buffer startBlock.toNat blockCount.toNat := fun flag =>
    sdLoopMoves_eq core _ access _ startBlock buffer _ (Nat.lt_succ_self _)
      (fun _ => h.addressed) h.memory
  refine ⟨fun replies host r1Status unset => ?_, ?_⟩
  · obtain ⟨status, s, hrun, houtcome⟩ := sdBlocks_outcome ⟨replies, polls⟩ core buffer startBlock
      host r1Status (fun hzero => absurd hzero (Nat.ne_of_gt h.pos)) h.polls
    rw [hmoves card.supportSetBlockCountCmd] at houtcome
    exact ⟨status, s, hrun, houtcome.meets⟩
  · rw [sdEffect_eq, sdEffect_eq, hmoves, hmoves]

/-- The arguments of the single blocks are right only where all of them are. -/
theorem SdAddressed.of_blocks {count : Nat} (hpos : 0 < count)
    (h : ∀ i < count, sdFirstByte card (startBlock + BitVec.ofNat 32 i) =
      (startBlock.toNat + i) * 512) : SdAddressed card startBlock count := by
  unfold sdFirstByte at h
  unfold SdAddressed
  split
  · rename_i hblocks
    have hlast := h (count - 1) (by omega)
    rw [if_pos hblocks, BitVec.toNat_add, BitVec.toNat_ofNat] at hlast
    omega
  · rename_i hbytes
    simp only [if_neg hbytes, BitVec.toNat_add, BitVec.toNat_ofNat] at h
    have hfirst := h 0 hpos
    have hzero : startBlock.toNat = 0 := by omega
    refine ⟨BitVec.eq_of_toNat_eq hzero, ?_⟩
    by_contra hcount
    have hsecond := h 1 (by omega)
    rw [hzero] at hsecond
    omega

section Necessary

variable {polls : Nat → List SdReply}
  (h : SdBlocksContract core card access buffer startBlock blockCount polls)
include h

/-- Without blocks the status is the one that the variable happened to hold. -/
theorem SdBlocksContract.pos : 0 < blockCount.toNat := by
  by_contra hzero
  have hcount : blockCount.toNat = 0 := by omega
  have hrun : ∀ unset, sdBlocks ⟨fun _ => statusSuccess, polls⟩ core card access unset buffer
      startBlock blockCount (sdSession ⟨SdmmcCmd.zero, SdmmcData.zero, false⟩ 0) =
        (sdPassPoll ⟨fun _ => statusSuccess, polls⟩ card access
          (sdSession ⟨SdmmcCmd.zero, SdmmcData.zero, false⟩ 0).clear).bind
            fun s => some (unset, s) := fun unset => by
    unfold sdBlocks
    rw [hcount]
    rfl
  obtain ⟨status, s, hreturns, hmeets⟩ :=
    h.returns (fun _ => statusSuccess) ⟨SdmmcCmd.zero, SdmmcData.zero, false⟩ 0 statusSuccess
  obtain ⟨status₁, s₁, hreturns₁, hmeets₁⟩ :=
    h.returns (fun _ => statusSuccess) ⟨SdmmcCmd.zero, SdmmcData.zero, false⟩ 0 1
  rw [hrun] at hreturns hreturns₁
  obtain ⟨mid, hmid, hstatus⟩ := Option.bind_eq_some_iff.mp hreturns
  obtain ⟨rfl, rfl⟩ := Prod.mk.inj (Option.some.inj hstatus)
  rw [hmid] at hreturns₁
  obtain ⟨rfl, rfl⟩ := Prod.mk.inj (Option.some.inj hreturns₁)
  exact absurd (hmeets₁.finished hmeets.all_success).1 (by decide)

/-- And the contract asks for it: each part of the condition that is not met has an answer of the
card for which the call goes wrong. -/
theorem SdBlocksContract.faithful :
    SdBlocksFaithful core card access buffer startBlock blockCount polls := by
  have hpos := h.pos
  have hunset : blockCount.toNat = 0 → statusSuccess = statusSuccess := fun _ => rfl
  obtain ⟨status, s, hreturns, hmeets⟩ :=
    h.returns (fun _ => statusSuccess) ⟨SdmmcCmd.zero, SdmmcData.zero, false⟩ 0 statusSuccess
  obtain ⟨rfl, hpolls⟩ := sdBlocks_answered (fun _ => rfl) hunset hreturns
  have hpolls := hpolls hmeets.all_success
  obtain ⟨status₁, s₁, hrun, houtcome⟩ := sdBlocks_outcome ⟨fun _ => statusSuccess, polls⟩ core
    buffer startBlock ⟨SdmmcCmd.zero, SdmmcData.zero, false⟩ 0 hunset hpolls
  obtain ⟨rfl, rfl⟩ := Prod.mk.inj (Option.some.inj (hreturns.symm.trans hrun))
  have hcard := Option.some.inj
    (((houtcome.of_done rfl).2 none).symm.trans (hmeets.finished hmeets.all_success).2)
  -- whichever way the card goes, the blocks one by one are the expected ones too
  have hsingle : sdLoopMoves core { card with supportSetBlockCountCmd := false } access
      (blockCount.toNat + 1) startBlock buffer blockCount.toNat =
        sdExpectedMoves core access buffer startBlock.toNat blockCount.toNat := by
    have hsame := h.sameEffect
    rw [sdEffect_eq, sdEffect_eq] at hsame
    have hsame := Option.some.inj hsame
    cases hflag : card.supportSetBlockCountCmd with
    | false => rwa [← hflag]
    | true =>
      rw [← hsame, ← hflag]
      exact hcard
  rw [sdLoopMoves_single core card access _ startBlock buffer _ (Nat.lt_succ_self _)] at hsingle
  have hblock : ∀ i < blockCount.toNat,
      sdFirstByte card (startBlock + BitVec.ofNat 32 i) = (startBlock.toNat + i) * 512 ∧
        sdmmcGetSysAddr core (buffer + BitVec.ofNat 32 (i * 512)) =
          sdmmcGetSysAddr core buffer + BitVec.ofNat 32 (i * 512) := fun i hi => by
    have hmove := List.map_inj_left.mp hsingle i (List.mem_range.mpr hi)
    exact ⟨congrArg SdBlockMove.cardByte hmove, congrArg SdBlockMove.address hmove⟩
  exact ⟨hpos, SdAddressed.of_blocks hpos fun i hi => (hblock i hi).1,
    fun i hi => (hblock i hi).2, hpolls⟩

end Necessary

end Calls

end HpmSdk.Sd
