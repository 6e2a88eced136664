import HpmSdk.Sdxc.TransferContract

set_option autoImplicit false

/-!
# SDXC: when a blocking transfer moves what it reports

The end of the data phase, the program that the DMA runs with, and the requests for
which the contract is kept.

Both directions follow the call through the set-up, the command and the data phase; where the
condition fails there is a run of the controller that shows it.
-/

namespace HpmSdk.Sdxc

/-! ## The program and the end of the transfer -/

section Moved

variable {bootDummy : BitVec 32} {r : SdxcRequest} {cmdFlags : BitVec 32} {cfg : SdxcAdmaConfig}
  {desc : Nat → SdxcAdma2Descriptor} {stat : List (BitVec 32)}

/-- A transfer that is complete is among the ends that are waited for. -/
theorem isBitmaskSet_complete {v : BitVec 32} (h : IsBitmaskSet v intStatXferComplete) :
    IsBitmaskSet v sdxcDmaStatusFlags := by
  intro hzero
  refine h ?_
  have hmask : sdxcDmaStatusFlags &&& intStatXferComplete = intStatXferComplete := by decide
  rw [← hmask, ← BitVec.and_assoc, hzero]
  exact BitVec.zero_and

/-- Events in which the end of the transfer shows before an address is written. -/
def SdxcShowsEnd (events : List SdxcEvent) : Prop :=
  ∃ wait v behind, events = wait ++ SdxcEvent.intStat v :: behind ∧
    (∀ a, SdxcEvent.admaSysAddr a ∉ wait) ∧ IsBitmaskSet v intStatXferComplete

theorem not_sdxcShowsEnd_nil : ¬ SdxcShowsEnd [] := by
  rintro ⟨wait, v, behind, h, -⟩
  exact absurd h.symm (List.append_ne_nil_of_right_ne_nil _ (List.cons_ne_nil _ _))

/-- Behind a write of the address it is too late. -/
theorem not_sdxcShowsEnd_admaSysAddr (a : BitVec 32) (events : List SdxcEvent) :
    ¬ SdxcShowsEnd (.admaSysAddr a :: events) := by
  rintro ⟨wait, v, behind, h, hwait, -⟩
  cases wait with
  | nil => exact SdxcEvent.noConfusion (List.cons.inj h).1
  | cons e wait =>
    obtain rfl := (List.cons.inj h).1
    exact hwait a List.mem_cons_self

/-- A status shows the end itself, or leaves it to those behind it. -/
theorem sdxcShowsEnd_intStat_iff {v : BitVec 32} {events : List SdxcEvent} :
    SdxcShowsEnd (.intStat v :: events) ↔
      IsBitmaskSet v intStatXferComplete ∨ SdxcShowsEnd events := by
  constructor
  · rintro ⟨wait, v', behind, h, hwait, hcomplete⟩
    cases wait with
    | nil =>
      obtain ⟨hv, -⟩ := List.cons.inj h
      exact Or.inl (SdxcEvent.intStat.inj hv ▸ hcomplete)
    | cons e wait =>
      exact Or.inr ⟨wait, v', behind, (List.cons.inj h).2,
        fun a ha => hwait a (List.mem_cons_of_mem _ ha), hcomplete⟩
  · rintro (hcomplete | ⟨wait, v', behind, h, hwait, hcomplete⟩)
    · exact ⟨[], v, events, rfl, fun _ h => absurd h List.not_mem_nil, hcomplete⟩
    · refine ⟨.intStat v :: wait, v', behind, congrArg _ h, fun a ha => ?_, hcomplete⟩
      exact hwait a ((List.mem_cons.mp ha).resolve_left SdxcEvent.noConfusion)

/-- The wait for the data shows the end of the transfer before the address is written
exactly where the last status shows it, and with SDMA where it is the first one. -/
theorem sdxcDataEvents_complete (sdma : Bool) (blockSize : BitVec 32) :
    ∀ (stat : List (BitVec 32)) (addr : BitVec 32),
      SdxcShowsEnd (sdxcDataEvents sdma blockSize addr stat) ↔
      (∃ v ∈ sdxcLastStatus stat, IsBitmaskSet v intStatXferComplete) ∧
        (sdma = true → stat.head? = sdxcLastStatus stat) := by
  intro stat
  induction stat with
  | nil =>
    intro addr
    refine iff_of_false not_sdxcShowsEnd_nil ?_
    rintro ⟨⟨v, hv, -⟩, -⟩
    exact Option.not_mem_none v hv
  | cons v rest ih =>
    intro addr
    have hrest := ih (addr + blockSize)
    unfold sdxcDataEvents sdxcLastStatus
    rw [sdxcShowsEnd_intStat_iff, List.find?_cons, List.head?_cons]
    by_cases hend : IsBitmaskSet v sdxcDmaStatusFlags
    · -- the first status is the last one
      have hbehind : ¬ SdxcShowsEnd
          (if sdma = true then [SdxcEvent.admaSysAddr (addr + blockSize)] else []) := by
        split
        · exact not_sdxcShowsEnd_admaSysAddr _ _
        · exact not_sdxcShowsEnd_nil
      simp only [hend, decide_true, if_true, List.append_nil, hbehind, or_false]
      constructor
      · exact fun hcomplete => ⟨⟨v, rfl, hcomplete⟩, fun _ => trivial⟩
      · rintro ⟨⟨v', hv', hcomplete⟩, -⟩
        rwa [Option.some.inj hv']
    · have hnot : ¬ IsBitmaskSet v intStatXferComplete := fun h => hend (isBitmaskSet_complete h)
      simp only [hend, decide_false, if_false, hnot, false_or]
      cases sdma with
      | false =>
        simp only [Bool.false_eq_true, if_false, List.nil_append, false_imp_iff, and_true] at hrest ⊢
        exact hrest
      | true =>
        refine iff_of_false (not_sdxcShowsEnd_admaSysAddr _ _) ?_
        rintro ⟨⟨v', hv', hcomplete⟩, hhead⟩
        have hfirst : some v = some v' := (hhead rfl).trans hv'
        exact hnot ((Option.some.inj hfirst) ▸ hcomplete)

/-- The table describes the words of the request. -/
theorem adma2Covers_iff (hok : ¬ Adma2Refused desc cfg.admaTable cfg.admaTableWords r.buffer
      (r.blockSize * r.blockCnt) 0) (hsize : r.blockSize.toNat < 4096)
    (hcount : r.blockCnt.toNat ≤ 65535) (hwords : r.words ≠ 0) :
    Adma2Covers r.buffer (4 * r.words)
        (adma2Table bootDummy desc cfg.admaTableWords r.buffer (r.blockSize * r.blockCnt) 0) ↔
      r.blockSize.toNat * r.blockCnt.toNat % 2 = 0 ∧
        r.blockSize.toNat * r.blockCnt.toNat ≤ 65532 ∧
          roundUp4 (r.blockSize.toNat * r.blockCnt.toNat) = 4 * r.words := by
  have hbytes : (r.blockSize * r.blockCnt).toNat = r.blockSize.toNat * r.blockCnt.toNat := by
    rw [BitVec.toNat_mul]
    refine Nat.mod_eq_of_lt (Nat.lt_of_le_of_lt (Nat.mul_le_mul (Nat.le_of_lt hsize) hcount) ?_)
    decide
  have hle : r.blockSize.toNat * r.blockCnt.toNat ≤ 4 * r.words := by
    unfold SdxcRequest.words
    rw [← Nat.mul_assoc]
    exact Nat.mul_le_mul_right _ (by omega)
  have hsmall : r.blockSize.toNat * r.blockCnt.toNat ≤ 4096 * 65535 :=
    Nat.mul_le_mul (Nat.le_of_lt hsize) hcount
  have hpos : 0 < r.blockSize.toNat * r.blockCnt.toNat := by
    refine Nat.pos_of_ne_zero fun hzero => hwords ?_
    unfold SdxcRequest.words
    rcases Nat.mul_eq_zero.mp hzero with h | h
    · rw [h, Nat.zero_add, Nat.div_eq_of_lt (by decide), Nat.zero_mul]
    · rw [h, Nat.mul_zero]
  have hvalue := adma2DataBytes_toNat (r.blockSize * r.blockCnt)
  rw [hbytes] at hvalue
  have hflags : (0 : BitVec 32) ≠ sdxcAdmaDescMultiFlag := by decide
  constructor
  · intro h
    have hsum := (adma2Table_total bootDummy).symm.trans h.total
    have hne : (adma2DataBytes (r.blockSize * r.blockCnt)).toNat ≠ 0 := by omega
    obtain ⟨n, hn⟩ := adma2MinEntries_pos 0 hne
    rw [hn] at hsum
    unfold roundUp4
    rcases Nat.lt_or_ge (adma2DataBytes (r.blockSize * r.blockCnt)).toNat (2 ^ 16) with hshort | hlong
    · rw [adma2Sum_short bootDummy n hshort] at hsum
      omega
    · have hmissing := adma2Sum_long bootDummy r.buffer n hlong
      omega
  · rintro ⟨heven, hshort, hround⟩
    have hencodes : Adma2Encodes desc cfg.admaTableWords (r.blockSize * r.blockCnt) 0 := by
      refine ⟨hbytes.symm ▸ heven, hbytes.symm ▸ hshort, ?_⟩
      rw [if_neg hflags]
      intro hzero
      rw [hzero] at hbytes
      have hnone : 0 = r.blockSize.toNat * r.blockCnt.toNat := hbytes
      omega
    have hdescribes := hencodes.describes bootDummy hok
    refine ⟨hdescribes.valid, hdescribes.ranges, hdescribes.total.trans ?_, hdescribes.last hflags⟩
    rw [hbytes, hround]

/-- The blocks that the controller counts are those of the request. -/
theorem blockSize_masked_iff :
    r.blockSize &&& blkAttrXferBlockSizeMask = r.blockSize ↔ r.blockSize.toNat < 4096 := by
  have hmask : blkAttrXferBlockSizeMask.toNat = 2 ^ 12 - 1 := rfl
  rw [← BitVec.toNat_inj, BitVec.toNat_and, hmask, Nat.and_two_pow_sub_one_eq_mod]
  exact Nat.mod_eq_iff_lt (by decide)

/-- Blocks of whole words are as many bytes as their words. -/
theorem blockSize_words_iff (hwords : r.words ≠ 0) :
    r.blockSize.toNat * r.blockCnt.toNat = 4 * r.words ↔ r.blockSize.toNat % 4 = 0 := by
  have hcount : 0 < r.blockCnt.toNat := by
    refine Nat.pos_of_ne_zero fun hzero => hwords ?_
    unfold SdxcRequest.words
    rw [hzero, Nat.mul_zero]
  have hwhole : r.blockSize.toNat * r.blockCnt.toNat = 4 * r.words ↔
      r.blockSize.toNat = 4 * ((r.blockSize.toNat + 3) / 4) := by
    unfold SdxcRequest.words
    rw [← Nat.mul_assoc]
    exact Nat.mul_left_inj (Nat.ne_of_gt hcount)
  rw [hwhole]
  omega

/-- The program of the call. -/
def sdxcCallProgram (r : SdxcRequest) (cfg : SdxcAdmaConfig) (cmdXfer : BitVec 32) : SdxcProgram :=
  ⟨cfg.dmaType.sel, if cfg.dmaType = .sdma then r.buffer else cfg.admaTable, r.blockSize,
    r.blockCnt, cmdXfer⟩

/-- The direction of the transfer is the one of the request, unless the command came with the
bit of a read and the request is a write. -/
theorem SdxcSelects.direction_iff {cmdXfer : BitVec 32} (h : SdxcSelects r cmdFlags cmdXfer) :
    (IsBitmaskSet cmdXfer cmdXferDataXferDirMask ↔ r.read = true) ↔
      (r.read = false → ¬ IsBitmaskSet cmdFlags cmdXferDataXferDirMask) := by
  rw [h.direction]
  cases r.read <;> simp

/-- Blocks that are not counted are a transfer without an end if several are selected. -/
theorem SdxcSelects.counted_iff {cmdXfer : BitVec 32} (h : SdxcSelects r cmdFlags cmdXfer) :
    (IsBitmaskSet cmdXfer cmdXferMultiBlkSelMask →
        IsBitmaskSet cmdXfer cmdXferBlockCountEnableMask) ↔
      r.blockCnt.toNat ≤ 1 ∧ ¬ IsBitmaskSet cmdFlags cmdXferMultiBlkSelMask := by
  rw [iff_false_intro h.uncounted, imp_false, h.several, not_or, Nat.not_lt, and_comm]

/-- A program that is accepted fits the request. -/
theorem sdxcProgrammed_iff {t : Adma2Table} {cmdXfer : BitVec 32}
    (haccepted : ¬ SdxcDmaRefused r desc cfg) (hselects : SdxcSelects r cmdFlags cmdXfer)
    (hcount : r.blockCnt.toNat ≤ 65535) (hwords : r.words ≠ 0)
    (hsel : cfg.dmaType = .sdma ∨ cfg.dmaType = .adma2)
    (htable : cfg.dmaType = .adma2 →
      t = adma2Table bootDummy desc cfg.admaTableWords r.buffer (r.blockSize * r.blockCnt) 0) :
    SdxcProgrammed r cfg.admaTable t (sdxcCallProgram r cfg cmdXfer) ↔
      r.blockSize.toNat < 4096 ∧
        (r.read = false → ¬ IsBitmaskSet cmdFlags cmdXferDataXferDirMask) ∧
        (cfg.dmaType = .sdma → r.blockSize.toNat % 4 = 0 ∧ r.blockCnt.toNat ≤ 1 ∧
          ¬ IsBitmaskSet cmdFlags cmdXferMultiBlkSelMask) ∧
        (cfg.dmaType = .adma2 → r.blockSize.toNat * r.blockCnt.toNat % 2 = 0 ∧
          r.blockSize.toNat * r.blockCnt.toNat ≤ 65532 ∧
            roundUp4 (r.blockSize.toNat * r.blockCnt.toNat) = 4 * r.words) := by
  have hne : SdxcDmaType.sel .sdma ≠ SdxcDmaType.sel .adma2 := by decide
  have hseveral := fun h : 1 < r.blockCnt.toNat => hselects.several.mpr (Or.inr h)
  unfold SdxcDmaRefused at haccepted
  unfold sdxcCallProgram
  rcases hsel with hsel | hsel
  · rw [hsel]
    constructor
    · intro h
      refine ⟨blockSize_masked_iff.mp h.blockSize, hselects.direction_iff.mp h.direction,
        fun _ => ?_, SdxcDmaType.noConfusion⟩
      rcases h.range with ⟨-, -, hbytes, hcounted⟩ | ⟨hother, -⟩
      · exact ⟨(blockSize_words_iff hwords).mp hbytes, hselects.counted_iff.mp hcounted⟩
      · exact absurd (show SdxcDmaType.sel .sdma = SdxcDmaType.sel .adma2 from hother) hne
    · rintro ⟨hsize, hdirection, hsdma, -⟩
      have haddr : (if SdxcDmaType.sdma = .sdma then r.buffer else cfg.admaTable) = r.buffer :=
        if_pos rfl
      obtain ⟨hwhole, hcounted⟩ := hsdma rfl
      exact ⟨blockSize_masked_iff.mpr hsize, rfl, hselects.dataPresent, hselects.dmaEnable,
        hselects.direction_iff.mpr hdirection, hseveral, Or.inl ⟨rfl, haddr,
          (blockSize_words_iff hwords).mpr hwhole, hselects.counted_iff.mpr hcounted⟩⟩
  · rw [hsel] at haccepted
    obtain rfl := htable hsel
    rw [hsel]
    constructor
    · intro h
      have hsize := blockSize_masked_iff.mp h.blockSize
      refine ⟨hsize, hselects.direction_iff.mp h.direction, SdxcDmaType.noConfusion, fun _ => ?_⟩
      rcases h.range with ⟨hother, -⟩ | ⟨-, -, hcovers, -⟩
      · exact absurd (show SdxcDmaType.sel .adma2 = SdxcDmaType.sel .sdma from hother) hne.symm
      · exact (adma2Covers_iff haccepted hsize hcount hwords).mp hcovers
    · rintro ⟨hsize, hdirection, -, hadma⟩
      have haddr : (if SdxcDmaType.adma2 = .sdma then r.buffer else cfg.admaTable) =
          cfg.admaTable := if_neg SdxcDmaType.noConfusion
      exact ⟨blockSize_masked_iff.mpr hsize, rfl, hselects.dataPresent, hselects.dmaEnable,
        hselects.direction_iff.mpr hdirection, hseveral, Or.inr ⟨rfl, haddr,
          (adma2Covers_iff haccepted hsize hcount hwords).mpr (hadma rfl), hselects.uncounted⟩⟩

/-- No command goes out while the data is waited for. -/
theorem command_not_mem_dataEvents (sdma : Bool) (blockSize : BitVec 32) (p : SdxcProgram) :
    ∀ (stat : List (BitVec 32)) (addr : BitVec 32),
      SdxcEvent.command p ∉ sdxcDataEvents sdma blockSize addr stat
  | [], _ => List.not_mem_nil
  | v :: rest, addr => by
    have hrest := command_not_mem_dataEvents sdma blockSize p rest (addr + blockSize)
    intro hmem
    rcases List.mem_append.mp ((List.mem_cons.mp hmem).resolve_left SdxcEvent.noConfusion)
      with hmem | hmem
    · cases sdma
      · exact absurd hmem List.not_mem_nil
      · exact nomatch List.mem_singleton.mp hmem
    · split at hmem
      · exact absurd hmem List.not_mem_nil
      · exact hrest hmem

/-- A transfer that completes is moved by the DMA. -/
theorem SdxcDone.moved {x : SdxcXfer} (h : SdxcDone bootDummy r cmdFlags cfg desc stat x)
    (hwords : r.words ≠ 0) (hcompletes : SdxcCompletes r cmdFlags cfg.dmaType stat) :
    SdxcDmaMoved r cfg.admaTable x.table x.base.log := by
  obtain ⟨cmdXfer, command, hselects, hlog⟩ := h.log
  obtain ⟨wait, v, behind, hevents, hwait, hcomplete⟩ :=
    (sdxcDataEvents_complete (cfg.dmaType = .sdma) r.blockSize stat
      (if cfg.dmaType = .sdma then r.buffer else cfg.admaTable)).mpr
      ⟨hcompletes.complete, fun hsdma => (hcompletes.sdma (of_decide_eq_true hsdma)).2⟩
  have hprogrammed := (sdxcProgrammed_iff h.accepted hselects h.blockCnt hwords h.sel h.table).mpr
    ⟨hcompletes.blockSize, hcompletes.direction, fun hsdma => (hcompletes.sdma hsdma).1,
      hcompletes.adma2⟩
  refine ⟨[.admaSysAddr (if cfg.dmaType = .sdma then r.buffer else cfg.admaTable)],
    sdxcCallProgram r cfg cmdXfer, command.map SdxcEvent.intStat ++ wait, v, behind, ?_,
    fun a ha => ?_, hcomplete, hprogrammed⟩
  · rw [hlog, List.append_assoc, ← hevents]
    rfl
  · rcases List.mem_append.mp ha with ha | ha
    · obtain ⟨v, -, hv⟩ := List.mem_map.mp ha
      exact nomatch hv
    · exact hwait a ha

/-- If the DMA moved the data of a call whose command showed nothing of it, the transfer
completed. -/
theorem SdxcDone.completes {x : SdxcXfer} {cmdXfer : BitVec 32}
    (h : SdxcDone bootDummy r cmdFlags cfg desc stat x) (hwords : r.words ≠ 0)
    (hselects : SdxcSelects r cmdFlags cmdXfer)
    (hlog : x.base.log = sdxcCallLog r cfg cmdXfer [intStatCmdComplete] stat)
    (hmoved : SdxcDmaMoved r cfg.admaTable x.table x.base.log) :
    SdxcCompletes r cmdFlags cfg.dmaType stat := by
  obtain ⟨before, p, wait, v, behind, hsplit, hwait, hcomplete, hprogrammed⟩ := hmoved
  rw [hlog] at hsplit
  -- the call issues one command, so the program is the one of that command
  obtain ⟨rfl, hevents⟩ : p = sdxcCallProgram r cfg cmdXfer ∧
      SdxcEvent.intStat intStatCmdComplete :: sdxcDataEvents (cfg.dmaType = .sdma) r.blockSize
        (if cfg.dmaType = .sdma then r.buffer else cfg.admaTable) stat =
          wait ++ .intStat v :: behind := by
    cases before with
    | nil => exact nomatch (List.cons.inj hsplit).1
    | cons e before =>
      have hsplit := (List.cons.inj hsplit).2
      cases before with
      | nil =>
        obtain ⟨hp, hrest⟩ := List.cons.inj hsplit
        exact ⟨(SdxcEvent.command.inj hp).symm, hrest⟩
      | cons e' before =>
        have hmem : SdxcEvent.command p ∈ SdxcEvent.intStat intStatCmdComplete ::
            sdxcDataEvents (cfg.dmaType = .sdma) r.blockSize
              (if cfg.dmaType = .sdma then r.buffer else cfg.admaTable) stat := by
          refine (congrArg (SdxcEvent.command p ∈ ·) (List.cons.inj hsplit).2).mpr ?_
          exact List.mem_append_right _ List.mem_cons_self
        exact absurd ((List.mem_cons.mp hmem).resolve_left SdxcEvent.noConfusion)
          (command_not_mem_dataEvents _ _ _ _ _)
  obtain ⟨hsize, hdirection, hsdma, hadma⟩ :=
    (sdxcProgrammed_iff h.accepted hselects h.blockCnt hwords h.sel h.table).mp hprogrammed
  -- the status that ended the wait for the command does not show the end of the transfer
  have hshows := sdxcShowsEnd_intStat_iff.mp ⟨wait, v, behind, hevents, hwait, hcomplete⟩
  obtain ⟨hlast, hhead⟩ := (sdxcDataEvents_complete (cfg.dmaType = .sdma) r.blockSize stat
    (if cfg.dmaType = .sdma then r.buffer else cfg.admaTable)).mp (hshows.resolve_left (by decide))
  exact ⟨hlast, hsize, hdirection, fun h => ⟨hsdma h, hhead (decide_eq_true h)⟩, hadma⟩

end Moved

/-! ## The contract of a call -/

section Contract

variable {bootDummy : BitVec 32} {r : SdxcRequest} {cmdFlags : BitVec 32} {cfg : SdxcAdmaConfig}
  {desc : Nat → SdxcAdma2Descriptor} {stat : List (BitVec 32)}

/-- Behind the checks no pointer is followed that is not there. -/
theorem sdxcTransferIssue_ne_null (stat : SdxcIntStat) (xferFlags blockSize blockCnt : BitVec 32)
    (enableDma : Bool) (x : SdxcXfer) :
    sdxcTransferIssue stat xferFlags blockSize blockCnt enableDma x ≠ .nullDereference := by
  unfold sdxcTransferIssue
  dsimp only
  split
  · exact SdxcOutcome.noConfusion
  split
  · exact SdxcOutcome.noConfusion
  split
  · exact SdxcOutcome.noConfusion
  split
  · exact SdxcOutcome.noConfusion
  split <;> exact SdxcOutcome.noConfusion

/-- A configuration that is there is not dereferenced as `NULL`. -/
theorem sdxcTransferBlocking_ne_null (stat : SdxcIntStat) (x : SdxcXfer) :
    sdxcTransferBlocking bootDummy stat (some cfg) x ≠ .nullDereference := by
  unfold sdxcTransferBlocking
  split
  · exact SdxcOutcome.noConfusion
  split
  · exact sdxcTransferIssue_ne_null _ _ _ _ _ _
  dsimp only
  split
  · exact SdxcOutcome.noConfusion
  · exact sdxcTransferIssue_ne_null _ _ _ _ _ _

/-- Without an access of the data port every access is ready, and no words are moved. -/
theorem SdxcNoPort.ready {log : List SdxcEvent} (h : SdxcNoPort log) : SdxcPortReady r log := by
  intro before e behind word hlog hport
  have hnone : e.port = none := h e (hlog ▸ List.mem_append_right _ List.mem_cons_self)
  rw [hnone] at hport
  exact nomatch hport

/-- A log that moves no word by the data port has no event of it. -/
theorem SdxcNoPort.filter {log : List SdxcEvent} (h : SdxcNoPort log) :
    log.filter (fun e => e.port.isSome) = [] := by
  refine List.filter_eq_nil_iff.mpr fun e he => ?_
  rw [h e he]
  exact Bool.false_ne_true

/-- So a request is moved by it only if it is for no words. -/
theorem SdxcNoPort.moved_iff {log : List SdxcEvent} (h : SdxcNoPort log) :
    SdxcPortMoved r log ↔ r.words = 0 := by
  unfold SdxcPortMoved
  rw [h.filter]
  constructor
  · intro hnil
    have hlength := congrArg List.length hnil
    simpa using hlength.symm
  · intro hzero
    rw [hzero]
    rfl

/-- A call that was done moved the data if there is nothing to move or it completes. -/
theorem SdxcDone.meets {x : SdxcXfer} (h : SdxcDone bootDummy r cmdFlags cfg desc stat x)
    (hport : SdxcNoPort x.base.log)
    (hserved : r.words = 0 ∨ SdxcCompletes r cmdFlags cfg.dmaType stat) :
    SdxcDmaMoved r cfg.admaTable x.table x.base.log ∨ SdxcPortMoved r x.base.log := by
  by_cases hwords : r.words = 0
  · exact Or.inr (hport.moved_iff.mpr hwords)
  · exact Or.inl (h.moved hwords (hserved.resolve_left hwords))

/-- A request that is served is served for every controller. -/
theorem SdxcFaithful.contract {dmaConfig : Option SdxcAdmaConfig}
    (h : SdxcFaithful r cmdFlags dmaConfig desc stat) :
    SdxcTransferContract bootDummy r cmdFlags dmaConfig desc stat := by
  obtain ⟨cfg, rfl, hserved⟩ := h
  rintro entry command cmd base rfl
  cases hend : sdxcTransferBlocking bootDummy ⟨entry, command, stat⟩ (some cfg)
      ⟨cmd, some r.data, ⟨desc, []⟩, { base with log := [] }⟩ with
  | waiting => trivial
  | nullDereference => exact absurd hend (sdxcTransferBlocking_ne_null _ _)
  | returned status x =>
    obtain ⟨hdata, hport, hdone⟩ := sdxcTransferBlocking_returned hend
    refine ⟨fun hs => ?_, hport.ready, congrArg (Option.map SdxcData.blockSize) hdata⟩
    have hdone := hdone hs
    refine hdone.meets hport ?_
    rcases hserved with hrefused | hcount | hfails | hserved
    · exact absurd hrefused hdone.accepted
    · exact absurd hdone.blockCnt (Nat.not_le.mpr hcount)
    · obtain ⟨v, hv, hstatus⟩ := hdone.status
      exact absurd hstatus (hfails v hv)
    · exact hserved

/-- If the plain call keeps the contract, the request is served. -/
theorem SdxcTransferContract.faithful {dmaConfig : Option SdxcAdmaConfig}
    (h : SdxcTransferContract bootDummy r cmdFlags dmaConfig desc stat) :
    SdxcFaithful r cmdFlags dmaConfig desc stat := by
  have hplain := h 0 [intStatCmdComplete] { sdxcPlainCommand with cmdFlags := cmdFlags }
    sdxcIdleBase rfl
  cases dmaConfig with
  | none =>
    -- the set-up is skipped, and the type of the DMA is read from the missing configuration
    have hnull : sdxcTransferBlocking bootDummy ⟨0, [intStatCmdComplete], stat⟩ none
        ⟨{ sdxcPlainCommand with cmdFlags := cmdFlags }, some r.data, ⟨desc, []⟩,
          { sdxcIdleBase with log := [] }⟩ = .nullDereference := by
      have hentry : ¬ IsBitmaskSet 0 intStatReTuneEvent := by decide
      exact if_neg hentry
    rw [hnull] at hplain
    exact hplain.elim
  | some cfg =>
    refine ⟨cfg, rfl, ?_⟩
    by_contra hnot
    simp only [not_or] at hnot
    obtain ⟨haccepted, hcount, hfails, hwords, hcompletes⟩ := hnot
    obtain ⟨v, hlast, hstatus⟩ : ∃ v, sdxcLastStatus stat = some v ∧
        sdxcDmaStatus r.ignoreError v = .success := by
      by_contra hnone
      exact hfails fun v hv hs => hnone ⟨v, hv, hs⟩
    obtain ⟨y, cmdXfer, hy, hselects, hlog⟩ := @sdxcPlainCall_success bootDummy _ _ _ _ _
      cmdFlags haccepted (Nat.not_lt.mp hcount) hlast hstatus
    obtain ⟨-, hport, hdone⟩ := sdxcTransferBlocking_returned hy
    have hend : SdxcMeets r cfg.admaTable (.returned .success y) := hy ▸ hplain
    rcases hend.1 rfl with hmoved | hmoved
    · exact hcompletes ((hdone rfl).completes hwords hselects hlog hmoved)
    · exact hwords (hport.moved_iff.mp hmoved)

/-- A blocking transfer moves what it reports exactly for the requests that are served.
A call that returns with success has written one command, and behind it only the statuses
that it reads and, with simple DMA, the address for each of them: so its log determines the
program and whether the engine kept it until the controller showed the end.  Where that is not
so, an idle controller whose command completes at once is one on which the call fails. -/
theorem sdxcTransfer_iff (bootDummy : BitVec 32) (r : SdxcRequest) (cmdFlags : BitVec 32)
    (dmaConfig : Option SdxcAdmaConfig) (desc : Nat → SdxcAdma2Descriptor)
    (stat : List (BitVec 32)) :
    SdxcTransferContract bootDummy r cmdFlags dmaConfig desc stat ↔
      SdxcFaithful r cmdFlags dmaConfig desc stat :=
  ⟨SdxcTransferContract.faithful, SdxcFaithful.contract⟩

/-- Blocks of a card and a buffer in memory. -/
def sdxcBlocks (read : Bool) (blockCnt : BitVec 32) : SdxcRequest where
  blockSize := 512
  blockCnt := blockCnt
  buffer := 0x01000000
  read := read
  autoCmd12 := false
  autoCmd23 := false
  ignoreError := false
  present := by decide

/-- Simple DMA. -/
def sdxcSdma : SdxcAdmaConfig := ⟨.sdma, 0, 0⟩

/-- A request for blocks over simple DMA that is served is a transfer that completes. -/
theorem SdxcFaithful.completes {read : Bool} {blockCnt : BitVec 32}
    (h : SdxcFaithful (sdxcBlocks read blockCnt) cmdFlags (some sdxcSdma) desc stat)
    (hcount : blockCnt.toNat ≤ 65535) (hwords : (sdxcBlocks read blockCnt).words ≠ 0)
    (hsuccess : ∃ v ∈ sdxcLastStatus stat, sdxcDmaStatus false v = .success) :
    SdxcCompletes (sdxcBlocks read blockCnt) cmdFlags .sdma stat := by
  obtain ⟨cfg, hcfg, hserved⟩ := h
  obtain rfl := Option.some.inj hcfg
  rcases hserved with hrefused | hlarge | hfails | hnone | hcompletes
  · exact absurd (show (0x01000000 : BitVec 32) % 4 = 0 by decide) hrefused
  · exact absurd hcount (Nat.not_le.mpr hlarge)
  · obtain ⟨v, hv, hs⟩ := hsuccess
    exact absurd hs (hfails v hv)
  · exact absurd hnone hwords
  · exact hcompletes

/-- Three requests over simple DMA, each accepted and reported as done.  One block whose end
is shown at the second status: by then the address that the DMA works on has been written.
Two blocks that complete at once: the block count was not enabled.  The write of a block with
a command that was used for a read before: it still has the direction of the read. -/
theorem sdxcTransfer_broken :
    ¬ SdxcTransferContract 0 (sdxcBlocks true 1) 0 (some sdxcSdma) adma2Blank
        [0, intStatXferComplete] ∧
      ¬ SdxcTransferContract 0 (sdxcBlocks true 2) 0 (some sdxcSdma) adma2Blank
        [intStatXferComplete] ∧
      ¬ SdxcTransferContract 0 (sdxcBlocks false 1) 0x200011 (some sdxcSdma) adma2Blank
        [intStatXferComplete] := by
  refine ⟨fun h => ?_, fun h => ?_, fun h => ?_⟩
  · have hcompletes := h.faithful.completes (by decide) (by decide)
      ⟨intStatXferComplete, rfl, by decide⟩
    exact absurd (hcompletes.sdma rfl).2 (by decide)
  · have hcompletes := h.faithful.completes (by decide) (by decide)
      ⟨intStatXferComplete, rfl, by decide⟩
    exact absurd (hcompletes.sdma rfl).1.2.1 (by decide)
  · have hcompletes := h.faithful.completes (by decide) (by decide)
      ⟨intStatXferComplete, rfl, by decide⟩
    exact absurd (by decide) (hcompletes.direction rfl)

end Contract

end HpmSdk.Sdxc
