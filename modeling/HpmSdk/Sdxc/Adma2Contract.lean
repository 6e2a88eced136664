import HpmSdk.Sdxc.Adma2

set_option autoImplicit false

/-!
# SDXC: what an ADMA2 table describes

The contract of `sdxc_set_adma2_desc` and the inputs that it holds for.  The length
of a descriptor is written to its lower 16 bits only, so a piece has to be shorter
than 64 KiB although pieces of up to 64 MiB are made.

The table is followed entry by entry: where each piece starts, how many bytes its descriptor
transfers, and where the last one is.
-/

namespace HpmSdk.Sdxc

/-! ## The contract -/

namespace Adma2Table

/-- The descriptors whose address was written, in order. -/
def added (t : Adma2Table) : List SdxcAdma2Descriptor :=
  (t.written.filterMap fun w => if w % 2 = 1 then some (w / 2) else none).map t.desc

/-- Those of them that transfer data. -/
def transfers (t : Adma2Table) : List SdxcAdma2Descriptor :=
  t.added.filter fun d => d.act = sdxcAdma2DescTypeTrans.setWidth 3

end Adma2Table

/-- Each descriptor starts where the one before it ends. -/
def Consecutive : BitVec 32 → List SdxcAdma2Descriptor → Prop
  | _, [] => True
  | a, d :: ds => d.addr = a ∧ Consecutive (a + BitVec.ofNat 32 d.length) ds

/-- Rounded up to whole words. -/
def roundUp4 (n : Nat) : Nat := (n + 3) / 4 * 4

/-- What the descriptors of a successful call are to be. -/
structure Adma2Describes (admaTableWords dataBuf dataBytes flags : BitVec 32) (t : Adma2Table) :
    Prop where
  inside : ∀ w ∈ t.written, w < admaTableWords.toNat
  valid : ∀ d ∈ t.transfers, d.valid = true
  ranges : Consecutive dataBuf t.transfers
  total : (t.transfers.map SdxcAdma2Descriptor.length).sum = roundUp4 dataBytes.toNat
  last : flags ≠ sdxcAdmaDescMultiFlag →
    ∃ ds d, t.added = ds ++ [d] ∧ d.isEnd = true ∧ ∀ d' ∈ ds, d'.isEnd = false

/-- What a call is to do with a table. -/
structure Adma2Contract (desc : Nat → SdxcAdma2Descriptor)
    (admaTableWords dataBuf dataBytes flags : BitVec 32) (r : SdxcStat × Adma2Table) : Prop where
  done : r.1 = .success → Adma2Describes admaTableWords dataBuf dataBytes flags r.2
  /-- A table without room for the pieces is refused. -/
  small : admaTableWords.toNat <
      2 * (adma2StartIdx ⟨desc, []⟩ (adma2MaxEntries admaTableWords) flags +
        (roundUp4 dataBytes.toNat + sdxcDmaMaxXferLen16bit - 1) / sdxcDmaMaxXferLen16bit) →
    r.1 ≠ .success
  refused : r.1 ≠ .success → ∀ w ∈ r.2.written, w < admaTableWords.toNat

/-! ## The loop -/

/-- The descriptors that the loop writes. -/
def adma2Entries (bootDummy : BitVec 32) : Nat → BitVec 32 → BitVec 32 → List SdxcAdma2Descriptor
  | 0, _, _ => []
  | n + 1, data, dataBytes =>
    adma2Entry bootDummy data dataBytes ::
      adma2Entries bootDummy n (data + adma2DmaBufLen dataBytes)
        (if dataBytes ≠ 0 then dataBytes - adma2DmaBufLen dataBytes else dataBytes)

section Loop

variable (bootDummy : BitVec 32)

/-- What the loop leaves in the table. -/
theorem adma2Loop_spec (n : Nat) : ∀ (i : Nat) (data dataBytes : BitVec 32) (t : Adma2Table),
    (List.range' i n).map (adma2Loop bootDummy n i data dataBytes t).desc =
        adma2Entries bootDummy n data dataBytes ∧
      (adma2Loop bootDummy n i data dataBytes t).written =
        t.written ++ (List.range' i n).flatMap (fun k => [2 * k + 1, 2 * k]) ∧
      ∀ k < i, (adma2Loop bootDummy n i data dataBytes t).desc k = t.desc k := by
  induction n with
  | zero => exact fun i data dataBytes t => ⟨rfl, (List.append_nil _).symm, fun k _ => rfl⟩
  | succ n ih =>
    intro i data dataBytes t
    obtain ⟨hentries, hwritten, hframe⟩ := ih (i + 1) (data + adma2DmaBufLen dataBytes)
      (if dataBytes ≠ 0 then dataBytes - adma2DmaBufLen dataBytes else dataBytes)
      (t.store i (adma2Entry bootDummy data dataBytes))
    refine ⟨?_, ?_, fun k hk => ?_⟩
    · rw [List.range'_succ, List.map_cons]
      refine List.cons_eq_cons.mpr ⟨?_, hentries⟩
      exact (hframe i (Nat.lt_succ_self i)).trans (if_pos rfl)
    · refine hwritten.trans ?_
      rw [List.range'_succ, List.flatMap_cons, ← List.append_assoc]
      rfl
    · exact (hframe k (Nat.lt_succ_of_lt hk)).trans (if_neg (Nat.ne_of_lt hk))

end Loop

/-! ## What the last write changes -/

theorem SdxcAdma2Descriptor.orLenAttr_end (d : SdxcAdma2Descriptor) :
    d.orLenAttr sdxcAdma2DescEndFlag = { d with isEnd := true } := by
  unfold SdxcAdma2Descriptor.orLenAttr
  congr 1
  · exact Bool.or_false _
  · exact Bool.or_true _
  · exact Bool.or_false _
  · exact BitVec.or_zero
  · exact BitVec.or_zero
  · exact BitVec.or_zero

/-- The type of a descriptor as a flag of `len_attr` is the interrupt flag. -/
theorem SdxcAdma2Descriptor.orLenAttr_typeTrans (d : SdxcAdma2Descriptor) :
    d.orLenAttr sdxcAdma2DescTypeTrans = { d with interrupt := true } := by
  unfold SdxcAdma2Descriptor.orLenAttr
  congr 1
  · exact Bool.or_false _
  · exact Bool.or_false _
  · exact Bool.or_true _
  · exact BitVec.or_zero
  · exact BitVec.or_zero
  · exact BitVec.or_zero

/-- How many bytes a descriptor transfers. -/
def SdxcAdma2Descriptor.transferred (d : SdxcAdma2Descriptor) : Nat :=
  if d.act = sdxcAdma2DescTypeTrans.setWidth 3 then d.length else 0

theorem sum_filter_length (ds : List SdxcAdma2Descriptor) :
    ((ds.filter fun d => d.act = sdxcAdma2DescTypeTrans.setWidth 3).map
      SdxcAdma2Descriptor.length).sum = (ds.map SdxcAdma2Descriptor.transferred).sum := by
  induction ds with
  | nil => rfl
  | cons d ds ih =>
    rw [List.map_cons, List.sum_cons, ← ih, SdxcAdma2Descriptor.transferred, List.filter_cons]
    split <;> simp_all

/-! ## What the pieces add up to -/

section Pieces

variable (bootDummy : BitVec 32) {data dataBytes : BitVec 32}

/-- An entry of the table, field by field. -/
theorem adma2Entry_eq :
    adma2Entry bootDummy data dataBytes =
      { valid := true, isEnd := false, interrupt := false,
        act := if dataBytes ≠ 0 then sdxcAdma2DescTypeTrans.setWidth 3 else 0, lenUpper := 0,
        lenLower := (adma2DmaBufLen dataBytes).setWidth 16,
        addr := if dataBytes = 0 then bootDummy else data } := by
  have hzero : (0 : BitVec 16) ||| sdxcAdma2DescValidFlag.extractLsb' 16 16 = 0 := rfl
  have hlower : (adma2DmaBufLen dataBytes).setWidth 16 |||
      sdxcAdma2DescValidFlag.extractLsb' 16 16 = (adma2DmaBufLen dataBytes).setWidth 16 :=
    BitVec.or_zero
  unfold adma2Entry SdxcAdma2Descriptor.orLenAttr
  dsimp only
  rw [hlower]
  split <;> rfl

theorem adma2Entry_valid : (adma2Entry bootDummy data dataBytes).valid = true := by
  rw [adma2Entry_eq]

theorem adma2Entry_act :
    (adma2Entry bootDummy data dataBytes).act =
      if dataBytes ≠ 0 then sdxcAdma2DescTypeTrans.setWidth 3 else 0 := by
  rw [adma2Entry_eq]

theorem adma2Entry_addr :
    (adma2Entry bootDummy data dataBytes).addr = if dataBytes = 0 then bootDummy else data := by
  rw [adma2Entry_eq]

/-- What is left is one piece if it is small enough. -/
theorem adma2DmaBufLen_of_le (hpos : dataBytes ≠ 0)
    (hle : dataBytes.toNat ≤ sdxcDmaMaxXferLen16bit) : adma2DmaBufLen dataBytes = dataBytes := by
  unfold adma2DmaBufLen
  rw [if_neg (Nat.not_lt.mpr hle), if_neg hpos]

/-- And otherwise the largest piece that there is. -/
theorem adma2DmaBufLen_of_lt (hlt : sdxcDmaMaxXferLen16bit < dataBytes.toNat) :
    (adma2DmaBufLen dataBytes).toNat = sdxcDmaMaxXferLen16bit := by
  unfold adma2DmaBufLen
  rw [if_pos hlt]
  rfl

theorem adma2DmaBufLen_le (hpos : dataBytes ≠ 0) :
    (adma2DmaBufLen dataBytes).toNat ≤ dataBytes.toNat := by
  rcases Nat.lt_or_ge sdxcDmaMaxXferLen16bit dataBytes.toNat with hlt | hle
  · rw [adma2DmaBufLen_of_lt hlt]
    exact Nat.le_of_lt hlt
  · exact Nat.le_of_eq (congrArg BitVec.toNat (adma2DmaBufLen_of_le hpos hle))

/-- An entry transfers its length cut to sixteen bits. -/
theorem transferred_adma2Entry :
    (adma2Entry bootDummy data dataBytes).transferred =
      if dataBytes = 0 then 0 else (adma2DmaBufLen dataBytes).toNat % 2 ^ 16 := by
  rw [adma2Entry_eq]
  unfold SdxcAdma2Descriptor.transferred SdxcAdma2Descriptor.length
  dsimp only
  by_cases hzero : dataBytes = 0
  · subst hzero
    rfl
  · refine Eq.trans ?_ (if_neg hzero).symm
    rw [if_pos hzero, if_pos rfl, BitVec.toNat_setWidth]
    exact (congrArg (· + _) (Nat.zero_mul _)).trans (Nat.zero_add _)

/-- The bytes that the entries transfer. -/
def adma2Sum (n : Nat) (data dataBytes : BitVec 32) : Nat :=
  ((adma2Entries bootDummy n data dataBytes).map SdxcAdma2Descriptor.transferred).sum

/-- The bytes of the entries: those of the first one and those behind it. -/
theorem adma2Sum_succ (n : Nat) (hpos : dataBytes ≠ 0) :
    adma2Sum bootDummy (n + 1) data dataBytes =
      (adma2DmaBufLen dataBytes).toNat % 2 ^ 16 +
        adma2Sum bootDummy n (data + adma2DmaBufLen dataBytes)
          (dataBytes - adma2DmaBufLen dataBytes) := by
  unfold adma2Sum
  rw [adma2Entries, List.map_cons, List.sum_cons, transferred_adma2Entry, if_neg hpos, if_pos hpos]

/-- Nothing is left, nothing is transferred. -/
theorem adma2Sum_zero (n : Nat) : ∀ data, adma2Sum bootDummy n data 0 = 0 := by
  induction n with
  | zero => exact fun data => rfl
  | succ n ih =>
    intro data
    unfold adma2Sum
    rw [adma2Entries, List.map_cons, List.sum_cons, transferred_adma2Entry, if_pos rfl, Nat.zero_add]
    exact ih _

/-- No more is transferred than there is. -/
theorem adma2Sum_le (n : Nat) : ∀ data dataBytes,
    adma2Sum bootDummy n data dataBytes ≤ dataBytes.toNat := by
  induction n with
  | zero => exact fun data dataBytes => Nat.zero_le _
  | succ n ih =>
    intro data dataBytes
    by_cases hzero : dataBytes = 0
    · subst hzero
      rw [adma2Sum_zero]
      exact Nat.zero_le _
    · have hlen := adma2DmaBufLen_le hzero
      have hrest := ih (data + adma2DmaBufLen dataBytes) (dataBytes - adma2DmaBufLen dataBytes)
      rw [BitVec.toNat_sub_of_le (BitVec.le_def.mpr hlen)] at hrest
      rw [adma2Sum_succ bootDummy n hzero]
      have hmod := Nat.mod_le (adma2DmaBufLen dataBytes).toNat (2 ^ 16)
      omega

variable (data) in
/-- The first piece of 64 KiB or more is encoded short. -/
theorem adma2Sum_long (n : Nat) (hlong : 2 ^ 16 ≤ dataBytes.toNat) :
    adma2Sum bootDummy (n + 1) data dataBytes + 2 ^ 16 ≤ dataBytes.toNat := by
  have hzero : dataBytes ≠ 0 := by
    rintro rfl
    exact absurd hlong (by decide)
  have hlen := adma2DmaBufLen_le hzero
  have hge : 2 ^ 16 ≤ (adma2DmaBufLen dataBytes).toNat := by
    rcases Nat.lt_or_ge sdxcDmaMaxXferLen16bit dataBytes.toNat with hlt | hle
    · rw [adma2DmaBufLen_of_lt hlt]
      decide
    · rw [adma2DmaBufLen_of_le hzero hle]
      exact hlong
  have hrest := adma2Sum_le bootDummy n (data + adma2DmaBufLen dataBytes)
    (dataBytes - adma2DmaBufLen dataBytes)
  rw [BitVec.toNat_sub_of_le (BitVec.le_def.mpr hlen)] at hrest
  rw [adma2Sum_succ bootDummy n hzero]
  omega

/-- A single piece below 64 KiB is encoded in full. -/
theorem adma2Sum_short (n : Nat) (hshort : dataBytes.toNat < 2 ^ 16) :
    adma2Sum bootDummy (n + 1) data dataBytes = dataBytes.toNat := by
  by_cases hzero : dataBytes = 0
  · subst hzero
    exact adma2Sum_zero bootDummy (n + 1) data
  · have hle : dataBytes.toNat ≤ sdxcDmaMaxXferLen16bit :=
      Nat.le_of_lt (Nat.lt_of_lt_of_le hshort (by decide))
    have hrest : dataBytes - dataBytes = 0 := BitVec.sub_self _
    rw [adma2Sum_succ bootDummy n hzero, adma2DmaBufLen_of_le hzero hle, hrest, adma2Sum_zero,
      Nat.mod_eq_of_lt hshort, Nat.add_zero]


/-- Once all is described, the descriptors that follow transfer nothing. -/
theorem adma2Entries_zero (n : Nat) : ∀ data,
    (adma2Entries bootDummy n data 0).filter
      (fun d => d.act = sdxcAdma2DescTypeTrans.setWidth 3) = [] := by
  induction n with
  | zero => exact fun data => rfl
  | succ n ih =>
    intro data
    have hnot : ¬ (decide ((adma2Entry bootDummy data 0).act =
        sdxcAdma2DescTypeTrans.setWidth 3) = true) := by
      rw [adma2Entry_act]
      decide
    rw [adma2Entries, List.filter_cons, if_neg hnot]
    exact ih _

/-- A length below 64 KiB has at most one descriptor that transfers. -/
theorem adma2Entries_short (n : Nat) (hshort : dataBytes.toNat < 2 ^ 16) :
    (adma2Entries bootDummy (n + 1) data dataBytes).filter
        (fun d => d.act = sdxcAdma2DescTypeTrans.setWidth 3) =
      if dataBytes = 0 then [] else [adma2Entry bootDummy data dataBytes] := by
  split
  · rename_i hzero
    subst hzero
    exact adma2Entries_zero bootDummy (n + 1) data
  · rename_i hzero
    have hle : dataBytes.toNat ≤ sdxcDmaMaxXferLen16bit :=
      Nat.le_of_lt (Nat.lt_of_lt_of_le hshort (by decide))
    have hact : (adma2Entry bootDummy data dataBytes).act =
        sdxcAdma2DescTypeTrans.setWidth 3 := (adma2Entry_act bootDummy).trans (if_pos hzero)
    have hrest : dataBytes - dataBytes = 0 := BitVec.sub_self _
    rw [adma2Entries, List.filter_cons, if_pos (decide_eq_true hact), if_pos hzero,
      adma2DmaBufLen_of_le hzero hle, hrest, adma2Entries_zero]

end Pieces

/-- The flags of the last write. -/
def adma2LastFlag (flags : BitVec 32) : BitVec 32 :=
  if flags = sdxcAdmaDescMultiFlag then sdxcAdma2DescTypeTrans else sdxcAdma2DescEndFlag

/-- The flags of the last entry change nothing of its length. -/
theorem transferred_orLenAttr (d : SdxcAdma2Descriptor) (flags : BitVec 32) :
    (d.orLenAttr (adma2LastFlag flags)).transferred = d.transferred := by
  unfold adma2LastFlag
  split
  · rw [SdxcAdma2Descriptor.orLenAttr_typeTrans]
    rfl
  · rw [SdxcAdma2Descriptor.orLenAttr_end]
    rfl

/-- The descriptor that the last write goes to. -/
def adma2LastIdx (entries : Nat) (flags : BitVec 32) : Nat :=
  if flags = sdxcAdmaDescMultiFlag then (BitVec.ofNat 32 entries + 1).toNat
  else (BitVec.ofNat 32 entries - 1).toNat

/-- The table after a call that is not refused. -/
def adma2Table (bootDummy : BitVec 32) (desc : Nat → SdxcAdma2Descriptor)
    (admaTableWords dataBuf dataBytes flags : BitVec 32) : Adma2Table :=
  let startIdx := adma2StartIdx ⟨desc, []⟩ (adma2MaxEntries admaTableWords) flags
  let minEntries := adma2MinEntries dataBytes flags
  (adma2Loop bootDummy minEntries startIdx dataBuf (adma2DataBytes dataBytes) ⟨desc, []⟩).orLenAttr
    (adma2LastIdx (minEntries + startIdx) flags) (adma2LastFlag flags)

/-- A call that is refused: a pointer is null or unaligned, or the table has no room. -/
def Adma2Refused (desc : Nat → SdxcAdma2Descriptor)
    (admaTbl admaTableWords dataBuf dataBytes flags : BitVec 32) : Prop :=
  admaTbl = 0 ∨ dataBuf = 0 ∨ dataBuf % 4 ≠ 0 ∨
    adma2MaxEntries admaTableWords < adma2MinEntries dataBytes flags +
      adma2StartIdx ⟨desc, []⟩ (adma2MaxEntries admaTableWords) flags

section Call

variable (bootDummy : BitVec 32) {desc : Nat → SdxcAdma2Descriptor}
  {admaTbl admaTableWords dataBuf dataBytes flags : BitVec 32}

/-- A call that is refused writes no descriptor. -/
theorem sdxcSetAdma2Desc_of_refused
    (h : Adma2Refused desc admaTbl admaTableWords dataBuf dataBytes flags) :
    ∃ s, s ≠ SdxcStat.success ∧ sdxcSetAdma2Desc bootDummy ⟨desc, []⟩ admaTbl admaTableWords dataBuf
      dataBytes flags = (s, ⟨desc, []⟩) := by
  unfold sdxcSetAdma2Desc
  split
  · exact ⟨_, SdxcStat.noConfusion, rfl⟩
  · rename_i hnull
    split
    · exact ⟨_, SdxcStat.noConfusion, rfl⟩
    · rename_i halign
      have hroom := ((h.resolve_left fun h => hnull (Or.inl h)).resolve_left
        fun h => hnull (Or.inr h)).resolve_left halign
      rw [if_pos hroom]
      exact ⟨_, SdxcStat.noConfusion, rfl⟩

/-- A call that is accepted writes the table. -/
theorem sdxcSetAdma2Desc_of_not_refused
    (h : ¬ Adma2Refused desc admaTbl admaTableWords dataBuf dataBytes flags) :
    sdxcSetAdma2Desc bootDummy ⟨desc, []⟩ admaTbl admaTableWords dataBuf dataBytes flags =
      (.success, adma2Table bootDummy desc admaTableWords dataBuf dataBytes flags) := by
  obtain ⟨htbl, hbuf, halign, hroom⟩ := by simpa only [Adma2Refused, not_or] using h
  unfold sdxcSetAdma2Desc adma2Table adma2LastIdx adma2LastFlag
  rw [if_neg (not_or.mpr ⟨htbl, hbuf⟩), if_neg halign, if_neg hroom]
  split <;> rfl

omit bootDummy in
/-- A descriptor is found by its address, the odd one of its words. -/
theorem filterMap_words (ks : List Nat) :
    (ks.flatMap fun k => [2 * k + 1, 2 * k]).filterMap
      (fun w => if w % 2 = 1 then some (w / 2) else none) = ks := by
  induction ks with
  | nil => rfl
  | cons k ks ih =>
    have hodd : (2 * k + 1) % 2 = 1 := by omega
    have hhalf : (2 * k + 1) / 2 = k := by omega
    have heven : (2 * k) % 2 ≠ 1 := by omega
    rw [List.flatMap_cons, List.filterMap_append, ih, List.filterMap_cons, if_pos hodd, hhalf,
      List.filterMap_cons, if_neg heven]
    rfl

/-- The added descriptors are those of the loop, but for the last write. -/
theorem adma2Table_added :
    (adma2Table bootDummy desc admaTableWords dataBuf dataBytes flags).added =
      (List.range' (adma2StartIdx ⟨desc, []⟩ (adma2MaxEntries admaTableWords) flags)
        (adma2MinEntries dataBytes flags)).map
          (adma2Table bootDummy desc admaTableWords dataBuf dataBytes flags).desc := by
  have hwritten := (adma2Loop_spec bootDummy (adma2MinEntries dataBytes flags)
    (adma2StartIdx ⟨desc, []⟩ (adma2MaxEntries admaTableWords) flags) dataBuf
    (adma2DataBytes dataBytes) ⟨desc, []⟩).2.1
  unfold Adma2Table.added
  refine congrArg (List.map _) ?_
  unfold adma2Table Adma2Table.orLenAttr
  dsimp only
  rw [hwritten]
  rw [List.nil_append, List.filterMap_append, filterMap_words]
  have hlast : (2 * adma2LastIdx (adma2MinEntries dataBytes flags +
      adma2StartIdx ⟨desc, []⟩ (adma2MaxEntries admaTableWords) flags) flags) % 2 ≠ 1 := by omega
  rw [List.filterMap_cons, if_neg hlast]
  exact List.append_nil _

/-- A descriptor of the table: from the loop, or what was there. -/
theorem adma2Table_desc (k : Nat) :
    (adma2Table bootDummy desc admaTableWords dataBuf dataBytes flags).desc k =
      let t := adma2Loop bootDummy (adma2MinEntries dataBytes flags)
        (adma2StartIdx ⟨desc, []⟩ (adma2MaxEntries admaTableWords) flags) dataBuf
        (adma2DataBytes dataBytes) ⟨desc, []⟩
      if k = adma2LastIdx (adma2MinEntries dataBytes flags +
          adma2StartIdx ⟨desc, []⟩ (adma2MaxEntries admaTableWords) flags) flags then
        (t.desc k).orLenAttr (adma2LastFlag flags)
      else t.desc k := by
  unfold adma2Table Adma2Table.orLenAttr
  dsimp only
  split
  · rename_i hk
    rw [hk]
  · rfl

/-- The transferring descriptors add up to the lengths of the pieces. -/
theorem adma2Table_total :
    ((adma2Table bootDummy desc admaTableWords dataBuf dataBytes flags).transfers.map
        SdxcAdma2Descriptor.length).sum =
      adma2Sum bootDummy (adma2MinEntries dataBytes flags) dataBuf (adma2DataBytes dataBytes) := by
  have hentries := (adma2Loop_spec bootDummy (adma2MinEntries dataBytes flags)
    (adma2StartIdx ⟨desc, []⟩ (adma2MaxEntries admaTableWords) flags) dataBuf
    (adma2DataBytes dataBytes) ⟨desc, []⟩).1
  unfold Adma2Table.transfers adma2Sum
  rw [sum_filter_length, adma2Table_added, ← hentries, List.map_map, List.map_map]
  refine congrArg List.sum (List.map_congr_left fun k _ => ?_)
  change ((adma2Table bootDummy desc admaTableWords dataBuf dataBytes flags).desc k).transferred = _
  rw [adma2Table_desc]
  dsimp only
  split
  · exact transferred_orLenAttr _ flags
  · rfl

end Call

/-! ## The inputs that are encoded in full -/

section Inputs

variable {dataBytes flags admaTableWords : BitVec 32}

/-- The length is not rounded up to a multiple of 4; its remainder is added to it. -/
theorem adma2DataBytes_toNat (dataBytes : BitVec 32) :
    (adma2DataBytes dataBytes).toNat = (dataBytes.toNat + dataBytes.toNat % 4) % 2 ^ 32 := by
  unfold adma2DataBytes
  rw [BitVec.toNat_add, BitVec.toNat_umod]
  rfl

variable (flags) in
/-- Some data needs an entry. -/
theorem adma2MinEntries_pos (h : (adma2DataBytes dataBytes).toNat ≠ 0) :
    ∃ n, adma2MinEntries dataBytes flags = n + 1 := by
  refine Nat.exists_eq_add_one.mpr ?_
  unfold adma2MinEntries
  dsimp only
  have hmax : sdxcDmaMaxXferLen16bit = 67108860 := rfl
  rw [hmax]
  split <;> omega

/-- The pieces add up to the data rounded up to words only for even lengths below
64 KiB. -/
theorem adma2Sum_eq_iff (bootDummy data : BitVec 32) :
    adma2Sum bootDummy (adma2MinEntries dataBytes flags) data (adma2DataBytes dataBytes) =
        roundUp4 dataBytes.toNat ↔
      dataBytes.toNat % 2 = 0 ∧ dataBytes.toNat ≤ 65532 := by
  have hvalue := adma2DataBytes_toNat dataBytes
  have hlt := dataBytes.isLt
  unfold roundUp4
  rcases Nat.lt_or_ge (adma2DataBytes dataBytes).toNat (2 ^ 16) with hshort | hlong
  · have hsum : adma2Sum bootDummy (adma2MinEntries dataBytes flags) data
        (adma2DataBytes dataBytes) = (adma2DataBytes dataBytes).toNat := by
      by_cases hzero : (adma2DataBytes dataBytes).toNat = 0
      · have hz : adma2DataBytes dataBytes = 0 := BitVec.eq_of_toNat_eq hzero
        rw [hz]
        exact adma2Sum_zero bootDummy _ data
      · obtain ⟨n, hn⟩ := adma2MinEntries_pos flags hzero
        rw [hn]
        exact adma2Sum_short bootDummy n hshort
    rw [hsum]
    omega
  · have hne : (adma2DataBytes dataBytes).toNat ≠ 0 := by omega
    obtain ⟨n, hn⟩ := adma2MinEntries_pos flags hne
    have hsum := adma2Sum_long bootDummy data n hlong
    rw [hn]
    omega

theorem adma2MaxEntries_le (admaTableWords : BitVec 32) :
    2 * adma2MaxEntries admaTableWords ≤ admaTableWords.toNat := by
  unfold adma2MaxEntries
  rw [BitVec.toNat_mul]
  have hmod := Nat.mod_le (admaTableWords.toNat * 4) (2 ^ 32)
  change 2 * (admaTableWords.toNat * 4 % 2 ^ 32 / 8) ≤ _
  omega

end Inputs

/-- An even length below 64 KiB; a single transfer is not empty, and behind the
descriptors of a multi transfer there is room for one word. -/
def Adma2Encodes (desc : Nat → SdxcAdma2Descriptor) (admaTableWords dataBytes flags : BitVec 32) :
    Prop :=
  dataBytes.toNat % 2 = 0 ∧ dataBytes.toNat ≤ 65532 ∧
    if flags = sdxcAdmaDescMultiFlag then
      2 * (adma2MinEntries dataBytes flags +
        adma2StartIdx ⟨desc, []⟩ (adma2MaxEntries admaTableWords) flags + 1) < admaTableWords.toNat
    else dataBytes ≠ 0

/-! ## When the contract is met -/

section Contract

variable (bootDummy : BitVec 32) {desc : Nat → SdxcAdma2Descriptor}
  {admaTbl admaTableWords dataBuf dataBytes flags : BitVec 32}

/-- A call that is not refused has room for its descriptors. -/
theorem entries_le_of_not_refused
    (h : ¬ Adma2Refused desc admaTbl admaTableWords dataBuf dataBytes flags) :
    2 * (adma2MinEntries dataBytes flags +
      adma2StartIdx ⟨desc, []⟩ (adma2MaxEntries admaTableWords) flags) ≤ admaTableWords.toNat := by
  obtain ⟨-, -, -, hroom⟩ := by simpa only [Adma2Refused, not_or] using h
  have hmax := adma2MaxEntries_le admaTableWords
  omega

/-- Where the last write goes. -/
theorem last_mem_written :
    2 * adma2LastIdx (adma2MinEntries dataBytes flags +
        adma2StartIdx ⟨desc, []⟩ (adma2MaxEntries admaTableWords) flags) flags ∈
      (adma2Table bootDummy desc admaTableWords dataBuf dataBytes flags).written :=
  List.mem_append_right _ List.mem_cons_self

theorem adma2MinEntries_zero (hflags : flags ≠ sdxcAdmaDescMultiFlag) :
    adma2MinEntries 0 flags = 0 := by
  unfold adma2MinEntries
  dsimp only
  rw [if_neg hflags]
  rfl

theorem adma2StartIdx_single {t : Adma2Table} {maxEntries : Nat}
    (hflags : flags ≠ sdxcAdmaDescMultiFlag) : adma2StartIdx t maxEntries flags = 0 :=
  if_neg hflags

/-- Where entries are appended the last one is one behind the number of them. -/
theorem adma2LastIdx_multi {entries : Nat} (hflags : flags = sdxcAdmaDescMultiFlag)
    (hlt : entries + 1 < 2 ^ 32) : adma2LastIdx entries flags = entries + 1 := by
  unfold adma2LastIdx
  rw [if_pos hflags, BitVec.toNat_add, BitVec.toNat_ofNat]
  change (entries % 2 ^ 32 + 1) % 2 ^ 32 = _
  omega

/-- A table that describes the data was asked for an even length below 64 KiB and
has room for the last write. -/
theorem Adma2Describes.encodes
    (hok : ¬ Adma2Refused desc admaTbl admaTableWords dataBuf dataBytes flags)
    (h : Adma2Describes admaTableWords dataBuf dataBytes flags
      (adma2Table bootDummy desc admaTableWords dataBuf dataBytes flags)) :
    Adma2Encodes desc admaTableWords dataBytes flags := by
  obtain ⟨heven, hle⟩ := (adma2Sum_eq_iff bootDummy dataBuf).mp
    ((adma2Table_total bootDummy).symm.trans h.total)
  refine ⟨heven, hle, ?_⟩
  have hlast := h.inside _ (last_mem_written bootDummy)
  have hroom := entries_le_of_not_refused hok
  have hwords := admaTableWords.isLt
  split
  · rename_i hflags
    rwa [adma2LastIdx_multi hflags (by omega)] at hlast
  · rename_i hflags
    rintro rfl
    rw [adma2MinEntries_zero hflags, adma2StartIdx_single hflags, adma2LastIdx,
      if_neg hflags] at hlast
    -- descriptor -1 is the last one of the address space
    have hvalue : (BitVec.ofNat 32 (0 + 0) - 1).toNat = 2 ^ 32 - 1 := rfl
    rw [hvalue] at hlast
    omega

/-- Where there is one table it is the last of them. -/
theorem adma2LastIdx_single {entries : Nat} (hflags : flags ≠ sdxcAdmaDescMultiFlag)
    (hpos : 0 < entries) (hlt : entries < 2 ^ 32) :
    adma2LastIdx entries flags = entries - 1 := by
  have hone : (1 : BitVec 32).toNat = 1 := rfl
  unfold adma2LastIdx
  rw [if_neg hflags, BitVec.toNat_sub, BitVec.toNat_ofNat, hone]
  omega

/-- Every word that is written lies in the table. -/
theorem Adma2Encodes.inside
    (hok : ¬ Adma2Refused desc admaTbl admaTableWords dataBuf dataBytes flags)
    (h : Adma2Encodes desc admaTableWords dataBytes flags) :
    ∀ w ∈ (adma2Table bootDummy desc admaTableWords dataBuf dataBytes flags).written,
      w < admaTableWords.toNat := by
  obtain ⟨heven, hle, hcase⟩ := h
  have hroom := entries_le_of_not_refused hok
  have hwords := admaTableWords.isLt
  intro w hw
  have hwritten := (adma2Loop_spec bootDummy (adma2MinEntries dataBytes flags)
    (adma2StartIdx ⟨desc, []⟩ (adma2MaxEntries admaTableWords) flags) dataBuf
    (adma2DataBytes dataBytes) ⟨desc, []⟩).2.1
  unfold adma2Table Adma2Table.orLenAttr at hw
  dsimp only at hw
  rw [hwritten, List.nil_append] at hw
  rcases List.mem_append.mp hw with hw | hw
  · obtain ⟨k, hk, hw⟩ := List.mem_flatMap.mp hw
    have hkr := List.mem_range'_1.mp hk
    have hwk : w = 2 * k + 1 ∨ w = 2 * k := by simpa using hw
    omega
  · rw [List.mem_singleton] at hw
    subst hw
    split at hcase
    · rename_i hflags
      rwa [adma2LastIdx_multi hflags (by omega)]
    · rename_i hflags
      have hvalue := adma2DataBytes_toNat dataBytes
      have hpos : dataBytes.toNat ≠ 0 := fun hz => hcase (BitVec.eq_of_toNat_eq hz)
      have hne : (adma2DataBytes dataBytes).toNat ≠ 0 := by omega
      obtain ⟨n, hn⟩ := adma2MinEntries_pos flags hne
      rw [adma2LastIdx_single hflags (by omega) (by omega)]
      omega

/-- In multi mode the last write does not go to an added descriptor. -/
theorem adma2Table_added_multi (hflags : flags = sdxcAdmaDescMultiFlag)
    (hlt : adma2MinEntries dataBytes flags +
      adma2StartIdx ⟨desc, []⟩ (adma2MaxEntries admaTableWords) flags + 1 < 2 ^ 32) :
    (adma2Table bootDummy desc admaTableWords dataBuf dataBytes flags).added =
      adma2Entries bootDummy (adma2MinEntries dataBytes flags) dataBuf
        (adma2DataBytes dataBytes) := by
  rw [adma2Table_added, ← (adma2Loop_spec bootDummy _
    (adma2StartIdx ⟨desc, []⟩ (adma2MaxEntries admaTableWords) flags) _ _ ⟨desc, []⟩).1]
  refine List.map_congr_left fun k hk => ?_
  have hkr := List.mem_range'_1.mp hk
  rw [adma2Table_desc, adma2LastIdx_multi hflags hlt]
  dsimp only
  rw [if_neg (by omega)]

/-- A single transfer below 64 KiB adds one descriptor, the end. -/
theorem adma2Table_added_single (hflags : flags ≠ sdxcAdmaDescMultiFlag)
    (hentries : adma2MinEntries dataBytes flags = 1) :
    (adma2Table bootDummy desc admaTableWords dataBuf dataBytes flags).added =
      [{ adma2Entry bootDummy dataBuf (adma2DataBytes dataBytes) with isEnd := true }] := by
  have hfirst := (adma2Loop_spec bootDummy 1 0 dataBuf (adma2DataBytes dataBytes) ⟨desc, []⟩).1
  rw [adma2Table_added, adma2StartIdx_single hflags, hentries, List.range'_one, List.map_cons,
    List.map_nil, adma2Table_desc, adma2StartIdx_single hflags, hentries,
    adma2LastIdx_single hflags Nat.one_pos (by decide)]
  dsimp only
  rw [if_pos rfl, adma2LastFlag, if_neg hflags, SdxcAdma2Descriptor.orLenAttr_end]
  rw [List.range'_one, List.map_cons, List.map_nil, adma2Entries, adma2Entries] at hfirst
  rw [List.head_eq_of_cons_eq hfirst]

variable (dataBytes) in
theorem adma2MinEntries_multi (hflags : flags = sdxcAdmaDescMultiFlag) :
    ∃ n, adma2MinEntries dataBytes flags = n + 1 := by
  unfold adma2MinEntries
  exact ⟨_, congrArg (_ + ·) (if_pos hflags)⟩

/-- A length below 64 KiB needs one entry. -/
theorem adma2MinEntries_single (hflags : flags ≠ sdxcAdmaDescMultiFlag)
    (hpos : (adma2DataBytes dataBytes).toNat ≠ 0)
    (hshort : (adma2DataBytes dataBytes).toNat < 2 ^ 16) : adma2MinEntries dataBytes flags = 1 := by
  have hmax : sdxcDmaMaxXferLen16bit = 67108860 := rfl
  unfold adma2MinEntries
  dsimp only
  rw [if_neg hflags, hmax]
  split <;> omega

/-- At most one descriptor transfers, and it starts at the buffer. -/
theorem Adma2Encodes.transfers
    (hok : ¬ Adma2Refused desc admaTbl admaTableWords dataBuf dataBytes flags)
    (h : Adma2Encodes desc admaTableWords dataBytes flags) :
    let t := adma2Table bootDummy desc admaTableWords dataBuf dataBytes flags
    t.transfers = [] ∨ ∃ d, t.transfers = [d] ∧ d.valid = true ∧ d.addr = dataBuf := by
  obtain ⟨heven, hle, hcase⟩ := h
  have hvalue := adma2DataBytes_toNat dataBytes
  have hroom := entries_le_of_not_refused hok
  have hwords := admaTableWords.isLt
  have hshort : (adma2DataBytes dataBytes).toNat < 2 ^ 16 := by omega
  dsimp only
  unfold Adma2Table.transfers
  split at hcase
  · rename_i hflags
    obtain ⟨n, hn⟩ := adma2MinEntries_multi dataBytes hflags
    rw [adma2Table_added_multi bootDummy hflags (by omega), hn,
      adma2Entries_short bootDummy n hshort]
    split
    · exact Or.inl rfl
    · rename_i hpos
      exact Or.inr ⟨_, rfl, adma2Entry_valid bootDummy,
        (adma2Entry_addr bootDummy).trans (if_neg hpos)⟩
  · rename_i hflags
    have hne : (adma2DataBytes dataBytes).toNat ≠ 0 := by
      have hpos : dataBytes.toNat ≠ 0 := fun hz => hcase (BitVec.eq_of_toNat_eq hz)
      omega
    have hpos : adma2DataBytes dataBytes ≠ 0 := fun hz => hne (congrArg BitVec.toNat hz)
    rw [adma2Table_added_single bootDummy hflags (adma2MinEntries_single hflags hne hshort)]
    refine Or.inr ⟨{ adma2Entry bootDummy dataBuf (adma2DataBytes dataBytes) with isEnd := true },
      ?_, adma2Entry_valid bootDummy, (adma2Entry_addr bootDummy).trans (if_neg hpos)⟩
    rw [List.filter_cons, if_pos (decide_eq_true ((adma2Entry_act bootDummy).trans (if_pos hpos)))]
    rfl

/-- An even length below 64 KiB is described in full. -/
theorem Adma2Encodes.describes
    (hok : ¬ Adma2Refused desc admaTbl admaTableWords dataBuf dataBytes flags)
    (h : Adma2Encodes desc admaTableWords dataBytes flags) :
    Adma2Describes admaTableWords dataBuf dataBytes flags
      (adma2Table bootDummy desc admaTableWords dataBuf dataBytes flags) := by
  have htransfers := Adma2Encodes.transfers bootDummy hok h
  dsimp only at htransfers
  refine ⟨Adma2Encodes.inside bootDummy hok h, ?_, ?_, ?_, fun hflags => ?_⟩
  · rcases htransfers with hnone | ⟨d, hone, hvalid, -⟩
    · rw [hnone]
      exact fun d hd => absurd hd List.not_mem_nil
    · rw [hone]
      exact fun d' hd => (List.mem_singleton.mp hd) ▸ hvalid
  · rcases htransfers with hnone | ⟨d, hone, -, haddr⟩
    · rw [hnone]
      exact trivial
    · rw [hone]
      exact ⟨haddr, trivial⟩
  · exact (adma2Table_total bootDummy).trans
      ((adma2Sum_eq_iff bootDummy dataBuf).mpr ⟨h.1, h.2.1⟩)
  · obtain ⟨heven, hle, hcase⟩ := h
    have hvalue := adma2DataBytes_toNat dataBytes
    rw [if_neg hflags] at hcase
    have hpos : dataBytes.toNat ≠ 0 := fun hz => hcase (BitVec.eq_of_toNat_eq hz)
    refine ⟨[], _, adma2Table_added_single bootDummy hflags
      (adma2MinEntries_single hflags (by omega) (by omega)), rfl, ?_⟩
    exact fun d hd => absurd hd List.not_mem_nil

/-- A table that encodes a transfer has an entry. -/
theorem Adma2Encodes.minEntries_pos (h : Adma2Encodes desc admaTableWords dataBytes flags) :
    0 < adma2MinEntries dataBytes flags := by
  obtain ⟨heven, hle, hcase⟩ := h
  split at hcase
  · rename_i hflags
    obtain ⟨n, hn⟩ := adma2MinEntries_multi dataBytes hflags
    omega
  · have hvalue := adma2DataBytes_toNat dataBytes
    have hpos : dataBytes.toNat ≠ 0 := fun hz => hcase (BitVec.eq_of_toNat_eq hz)
    have hne : (adma2DataBytes dataBytes).toNat ≠ 0 := by omega
    obtain ⟨n, hn⟩ := adma2MinEntries_pos flags hne
    omega

/-- Exactly the inputs for which a call meets its contract: those that are refused, and those that
are encoded.

A table is encoded right where the length is even, since then the rounding of the code is one to a
multiple of four, and below the limit of a single entry, so that no piece is cut to its low 16
bits; where there is an entry to put the end flag into; and where the last write, two entries
behind, is still in the table. -/
theorem adma2Contract_iff (desc : Nat → SdxcAdma2Descriptor)
    (admaTbl admaTableWords dataBuf dataBytes flags : BitVec 32) :
    Adma2Contract desc admaTableWords dataBuf dataBytes flags
        (sdxcSetAdma2Desc bootDummy ⟨desc, []⟩ admaTbl admaTableWords dataBuf dataBytes flags) ↔
      Adma2Refused desc admaTbl admaTableWords dataBuf dataBytes flags ∨
        Adma2Encodes desc admaTableWords dataBytes flags := by
  by_cases hok : Adma2Refused desc admaTbl admaTableWords dataBuf dataBytes flags
  · refine iff_of_true ?_ (Or.inl hok)
    obtain ⟨s, hs, hcall⟩ := sdxcSetAdma2Desc_of_refused bootDummy hok
    rw [hcall]
    exact ⟨fun h => absurd h hs, fun _ => hs, fun _ w hw => absurd hw List.not_mem_nil⟩
  · rw [sdxcSetAdma2Desc_of_not_refused bootDummy hok]
    constructor
    · intro h
      exact Or.inr ((h.done rfl).encodes bootDummy hok)
    · intro h
      have hencodes := h.resolve_left hok
      refine ⟨fun _ => hencodes.describes bootDummy hok, fun hsmall => ?_,
        fun h => absurd rfl h⟩
      have hroom := entries_le_of_not_refused hok
      have hpos := hencodes.minEntries_pos
      have hle := hencodes.2.1
      have hmax : sdxcDmaMaxXferLen16bit = 67108860 := rfl
      unfold roundUp4 at hsmall
      rw [hmax] at hsmall
      omega

end Contract

/-- Empty descriptors. -/
def adma2Blank : Nat → SdxcAdma2Descriptor := fun _ => ⟨false, false, false, 0, 0, 0, 0⟩

/-- A length of 1, of 65536 and of 0, and a multi transfer into a table of two
descriptors. -/
theorem adma2Contract_broken :
    let call := fun words dataBytes flags =>
      sdxcSetAdma2Desc 0x1000 ⟨adma2Blank, []⟩ 0x2000 words 0x40000000 dataBytes flags
    ¬ Adma2Contract adma2Blank 4 0x40000000 1 0 (call 4 1 0) ∧
      ¬ Adma2Contract adma2Blank 4 0x40000000 65536 0 (call 4 65536 0) ∧
      ¬ Adma2Contract adma2Blank 4 0x40000000 0 0 (call 4 0 0) ∧
      ¬ Adma2Contract adma2Blank 4 0x40000000 4 sdxcAdmaDescMultiFlag
        (call 4 4 sdxcAdmaDescMultiFlag) := by
  refine ⟨fun h => ?_, fun h => ?_, fun h => ?_, fun h => ?_⟩
  · exact absurd (h.done rfl).total (by decide)
  · exact absurd (h.done rfl).total (by decide)
  · exact absurd (h.done rfl).inside (by decide)
  · exact absurd (h.done rfl).inside (by decide)

end HpmSdk.Sdxc
