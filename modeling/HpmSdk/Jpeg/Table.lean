import HpmSdk.Common
import HpmSdk.Foundation.Aligned
import HpmSdk.Foundation.LittleEndian
import HpmSdk.Foundation.Registers

set_option autoImplicit false

/-!
# JPEG: tables (`hpm_jpeg_drv.c`, `hpm_jpeg_drv.h`)

`jpeg_fill_table` writes the entries of a table through `BUFDATA`.  The kind of a table has the
width and the number of its entries in it.  Each entry is read as a word of four bytes, whatever
its width is, and masked.  A run has the words that were written and the offsets that were read.

The entries that are read beyond the table are the last ones, where an entry is shorter than a word.
-/

namespace HpmSdk.Jpeg

open HpmSdk.Foundation

/-- `JPEG_BUFADDR_ADDR`. -/
def bufaddrAddr : RegField := ⟨0, 32⟩

/-- `jpeg_table_t`. -/
inductive JpegTable where
  | qmem
  | huffenc
  | huffmin
  | huffbase
  | huffsymb
  deriving DecidableEq, Repr

namespace JpegTable

/-- The value of an enumerator. -/
def code : JpegTable → BitVec 32
  | .qmem => 0x201002
  | .huffenc => 0x201803
  | .huffmin => 0x400104
  | .huffbase => 0x200405
  | .huffsymb => 0x101506

variable (table : JpegTable)

/-- `JPEG_TABLE_WIDTH`. -/
def width : BitVec 32 := (table.code &&& 0xF00000) >>> 20

/-- `JPEG_TABLE_LENGTH`. -/
def length : BitVec 32 := (table.code &&& 0xFFFF0) >>> 4

/-- `JPEG_TABLE_TYPE`. -/
def type : BitVec 32 := table.code &&& 0xF

end JpegTable

/-- `JPEG_TABLE_VALUE_MASK`. -/
def jpegTableValueMask (width : BitVec 32) : BitVec 32 :=
  if width = 4 then 0xFFFFFFFF else 1#32 <<< (width <<< 3).toNat - 1#32

/-- `BUFADDR`, the words that were written to `BUFDATA`, and the offsets of the bytes of the data
that were read. -/
structure JpegTableRun where
  bufaddr : BitVec 32
  bufdata : List (BitVec 32)
  reads : List Nat

/-- The offset of an entry in the data. -/
def jpegEntryOffset (width : BitVec 32) (i : Nat) : Nat := (BitVec.ofNat 32 i * width).toNat

/-- The word that is written for an entry: `*p`, masked. -/
def jpegEntry (data : Buf) (width : BitVec 32) (i : Nat) : BitVec 32 :=
  bufaddrAddr.set
    (BitVec.ofNat 32 (leVal data (jpegEntryOffset width i) 4) &&& jpegTableValueMask width)

/-- The bytes that are read for an entry. -/
def jpegEntryReads (width : BitVec 32) (i : Nat) : List Nat :=
  (List.range 4).map fun k => jpegEntryOffset width i + k

/-- An iteration of the loop. -/
def jpegFillStep (data : Buf) (width : BitVec 32) (s : JpegTableRun) (i : Nat) : JpegTableRun :=
  { s with
    bufdata := s.bufdata ++ [jpegEntry data width i]
    reads := s.reads ++ jpegEntryReads width i }

/-- `jpeg_fill_table`. -/
def jpegFillTable (s : JpegTableRun) (table : JpegTable) (data : Buf) (count : BitVec 32) :
    HpmStat × JpegTableRun :=
  if table.length ≠ count then (.invalidArgument, s)
  else (.success, (List.range count.toNat).foldl (jpegFillStep data table.width)
    { s with bufaddr := table.type <<< 28 })

/-! ## The contract -/

/-- What is asked of a call: where it succeeds, it has written the little-endian values of the
entries to the buffer of the table, and read no byte behind the array of `count * width`; and a
count that is wrong is rejected before anything is written. -/
structure JpegFillMeets (s : JpegTableRun) (table : JpegTable) (data : Buf) (count : BitVec 32) :
    Prop where
  addressed : (jpegFillTable s table data count).1 = .success →
    (jpegFillTable s table data count).2.bufaddr = table.type <<< 28
  written : (jpegFillTable s table data count).1 = .success →
    (jpegFillTable s table data count).2.bufdata =
      s.bufdata ++ (List.range count.toNat).map fun i =>
        BitVec.ofNat 32 (leVal data (i * table.width.toNat) table.width.toNat)
  within : (jpegFillTable s table data count).1 = .success →
    ∃ reads, (jpegFillTable s table data count).2.reads = s.reads ++ reads ∧
      ∀ offset ∈ reads, offset < count.toNat * table.width.toNat
  rejected : count ≠ table.length → jpegFillTable s table data count = (.invalidArgument, s)

/-! ## The loop -/

section Loop

variable {data : Buf} {width : BitVec 32}

/-- The loop writes an entry after the other and reads what belongs to each. -/
theorem foldl_jpegFillStep (l : List Nat) (s : JpegTableRun) :
    l.foldl (jpegFillStep data width) s =
      ⟨s.bufaddr, s.bufdata ++ l.map (jpegEntry data width),
        s.reads ++ l.flatMap (jpegEntryReads width)⟩ := by
  induction l generalizing s with
  | nil => simp
  | cons i l ih =>
    rw [List.foldl_cons, ih]
    unfold jpegFillStep
    rw [List.map_cons, List.flatMap_cons, List.append_assoc, List.append_assoc]
    rfl

end Loop

/-! ## The entries -/

section Entries

variable {table : JpegTable} {data : Buf} {i : Nat}

/-- The widths of the kinds, and what their masks keep. -/
theorem width_spec : ∀ table : JpegTable,
    (table.width.toNat = 1 ∨ table.width.toNat = 2 ∨ table.width.toNat = 4) ∧
      (jpegTableValueMask table.width).toNat = 2 ^ (8 * table.width.toNat) - 1 ∧
      0 < table.length.toNat ∧ table.length.toNat * table.width.toNat < 2 ^ 32 := by
  intro table
  cases table <;> decide

/-- One table alone has entries of four bytes. -/
theorem width_eq_four_iff : ∀ table : JpegTable, table.width.toNat = 4 ↔ table = .huffmin := by
  intro table
  cases table <;> decide

/-- Entry `i` starts so many widths behind the start of the data. -/
theorem jpegEntryOffset_eq (hi : i < table.length.toNat) :
    jpegEntryOffset table.width i = i * table.width.toNat := by
  obtain ⟨hwidth, -, -, hlt⟩ := width_spec table
  have hpos : 0 < table.width.toNat := by omega
  have hmul : i * table.width.toNat < 2 ^ 32 :=
    (Nat.mul_lt_mul_of_pos_right hi hpos).trans hlt
  have hword : i < 2 ^ 32 := (Nat.le_mul_of_pos_right i hpos).trans_lt hmul
  unfold jpegEntryOffset
  rw [BitVec.toNat_mul, BitVec.toNat_ofNat, Nat.mod_eq_of_lt hword, Nat.mod_eq_of_lt hmul]

/-- What is written for an entry is its value. -/
theorem jpegEntry_eq (hi : i < table.length.toNat) : jpegEntry data table.width i =
    BitVec.ofNat 32 (leVal data (i * table.width.toNat) table.width.toNat) := by
  obtain ⟨hwidth, hmask, -⟩ := width_spec table
  have hword : leVal data (i * table.width.toNat) 4 < 2 ^ 32 := leVal_lt _ _ 4
  have hcut : leVal data (i * table.width.toNat) 4 % 256 ^ table.width.toNat =
      leVal data (i * table.width.toNat) table.width.toNat := by
    have h := leVal_mod data (i * table.width.toNat) table.width.toNat (4 - table.width.toNat)
    rwa [Nat.add_sub_cancel' (by omega)] at h
  have hpow : 256 ^ table.width.toNat = 2 ^ (8 * table.width.toNat) := by
    rw [Nat.pow_mul]
  refine BitVec.eq_of_toNat_eq ?_
  unfold jpegEntry bufaddrAddr
  rw [RegField.set_zero_toNat _ 32 le_rfl, Nat.mod_eq_of_lt (BitVec.isLt _),
    jpegEntryOffset_eq hi, BitVec.toNat_and, hmask, Nat.and_two_pow_sub_one_eq_mod, ← hpow,
    BitVec.toNat_ofNat, Nat.mod_eq_of_lt hword, hcut, BitVec.toNat_ofNat, ← hcut]
  exact (Nat.mod_eq_of_lt ((Nat.mod_le _ _).trans_lt hword)).symm

/-- The reads of an entry reach three bytes behind its first one. -/
theorem mem_jpegEntryReads (hi : i < table.length.toNat) {offset : Nat} :
    offset ∈ jpegEntryReads table.width i ↔
      i * table.width.toNat ≤ offset ∧ offset < i * table.width.toNat + 4 := by
  unfold jpegEntryReads
  rw [jpegEntryOffset_eq hi, List.mem_map]
  constructor
  · rintro ⟨k, hk, rfl⟩
    have hlt := List.mem_range.mp hk
    omega
  · rintro ⟨hge, hlt⟩
    exact ⟨offset - i * table.width.toNat, List.mem_range.mpr (by omega), by omega⟩

/-- The last byte that is read for the last entry. -/
theorem last_read_mem (table : JpegTable) :
    (table.length.toNat - 1) * table.width.toNat + 3 ∈
      (List.range table.length.toNat).flatMap (jpegEntryReads table.width) := by
  obtain ⟨-, -, hpos, -⟩ := width_spec table
  have hlast : table.length.toNat - 1 < table.length.toNat := Nat.sub_lt hpos Nat.one_pos
  exact List.mem_flatMap.mpr ⟨_, List.mem_range.mpr hlast,
    (mem_jpegEntryReads hlast).mpr ⟨Nat.le_add_right _ _, by omega⟩⟩

/-- The reads of all entries stay in the array exactly where the entries are words. -/
theorem reads_within_iff :
    (∀ offset ∈ (List.range table.length.toNat).flatMap (jpegEntryReads table.width),
        offset < table.length.toNat * table.width.toNat) ↔ table = .huffmin := by
  obtain ⟨hwidth, -, hpos, -⟩ := width_spec table
  rw [← width_eq_four_iff]
  constructor
  · intro h
    have hlt := h _ (last_read_mem table)
    have hsplit : (table.length.toNat - 1) * table.width.toNat + table.width.toNat =
        table.length.toNat * table.width.toNat := by
      rw [← Nat.succ_mul, Nat.succ_eq_add_one, Nat.sub_add_cancel hpos]
    omega
  · intro hfour offset hmem
    obtain ⟨i, hi, hread⟩ := List.mem_flatMap.mp hmem
    have hin := List.mem_range.mp hi
    have hlt := ((mem_jpegEntryReads hin).mp hread).2
    rw [hfour] at hlt ⊢
    omega

end Entries

/-! ## When a call is right -/

/-- A call with the count of the table. -/
theorem jpegFillTable_length (s : JpegTableRun) (table : JpegTable) (data : Buf) :
    jpegFillTable s table data table.length =
      (.success, ⟨table.type <<< 28,
        s.bufdata ++ (List.range table.length.toNat).map (jpegEntry data table.width),
        s.reads ++ (List.range table.length.toNat).flatMap (jpegEntryReads table.width)⟩) := by
  unfold jpegFillTable
  rw [if_neg (not_not.mpr rfl), foldl_jpegFillStep]

/-- A call is right where it is rejected, or the table is the one whose entries are words.

Every entry is loaded as four bytes and masked to its width, so what is written is right.  What is
read reaches behind the last entry by the bytes that the entries are short of a word, which is
none for one table only. -/
theorem jpegFillMeets_iff (s : JpegTableRun) (table : JpegTable) (data : Buf)
    (count : BitVec 32) :
    JpegFillMeets s table data count ↔ count ≠ table.length ∨ table = .huffmin := by
  by_cases hcount : count = table.length
  · subst hcount
    have hcall := jpegFillTable_length s table data
    rw [or_iff_right (not_not.mpr rfl), ← reads_within_iff]
    constructor
    · intro h
      obtain ⟨reads, heq, hwithin⟩ := h.within (by rw [hcall])
      rw [hcall] at heq
      rwa [← List.append_cancel_left heq] at hwithin
    · intro h
      refine ⟨fun _ => ?_, fun _ => ?_, fun _ => ⟨_, ?_, h⟩, fun hne => absurd rfl hne⟩
      · rw [hcall]
      · rw [hcall]
        refine congrArg (s.bufdata ++ ·) (List.map_congr_left fun i hi => ?_)
        exact jpegEntry_eq (List.mem_range.mp hi)
      · rw [hcall]
  · have hcall : jpegFillTable s table data count = (.invalidArgument, s) :=
      if_pos (Ne.symm hcount)
    refine iff_of_true ⟨fun h => ?_, fun h => ?_, fun h => ?_, fun _ => hcall⟩ (.inl hcount)
    all_goals
      rw [hcall] at h
      cases h

/-- The 336 bytes of the Huffman symbols are read up to three bytes behind the last one. -/
theorem jpegFillMeets_broken :
    338 ∈ (jpegFillTable ⟨0, [], []⟩ .huffsymb (fun _ => 0) 336).2.reads ∧
      ¬ JpegFillMeets ⟨0, [], []⟩ .huffsymb (fun _ => 0) 336 := by
  have hlength : (336 : BitVec 32) = JpegTable.huffsymb.length := rfl
  have hmem : 338 ∈ (jpegFillTable ⟨0, [], []⟩ .huffsymb (fun _ => 0) 336).2.reads := by
    rw [hlength, jpegFillTable_length]
    exact List.mem_append_right _ (last_read_mem .huffsymb)
  refine ⟨hmem, fun h => ?_⟩
  obtain ⟨reads, heq, hwithin⟩ := h.within (by rw [hlength, jpegFillTable_length])
  rw [heq] at hmem
  exact absurd (hwithin 338 hmem) (by decide)

end HpmSdk.Jpeg
