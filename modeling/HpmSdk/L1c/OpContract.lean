import HpmSdk.Foundation.Aligned
import HpmSdk.Foundation.Ring
import HpmSdk.L1c.Op

set_option autoImplicit false

/-!
# L1C: which lines a range operation touches

Both loops command lines one behind the other from the one of the address, so that only their
number matters: the length in lines and one more, which is right only for a range that begins in
one line and ends in the last of these.

The number of rounds is named by `FirstFails`, and the right number is unique, so that each of the
two loops is one equation in the address and the size.
-/

namespace HpmSdk.L1c

open HpmSdk.Foundation

/-- The six functions are one loop with the code of the command. -/
theorem l1cMaintain_eq (cmd : L1cCctlCmd) (fuel : Nat) (csr : L1cCsr) (address size : BitVec 32) :
    cmd.maintain fuel csr address size = l1cOp fuel csr cmd.code address size := by
  cases cmd <;> rfl

/-! ## Lines -/

section Lines

variable (address size : BitVec 32)

/-- The loops start at the line of the address. -/
theorem l1cAligned_toNat : (l1cAligned address).toNat = address.toNat / 64 * 64 := by
  have hmask : (hpmL1cCachelineSize - 1 : BitVec 32) = 1#32 <<< 6 - 1#32 := by decide
  rw [l1cAligned, hmask, toNat_and_not_mask address (by decide)]
  rfl

/-- The line of the `j`-th command. -/
theorem l1cLine_aligned (j : Nat) :
    l1cLine (l1cAligned address + BitVec.ofNat 32 (64 * j)) = (address.toNat / 64 + j) % 2 ^ 26 := by
  have hline : hpmL1cCachelineSize.toNat = 64 := rfl
  unfold l1cLine
  rw [hline, BitVec.toNat_add, l1cAligned_toNat, BitVec.toNat_ofNat]
  omega

/-- The lines of a range. -/
def l1cLines : Nat := if size.toNat = 0 then 0 else (address.toNat % 64 + size.toNat - 1) / 64 + 1

/-- The lines of a range are consecutive, from that of the address on. -/
theorem l1cOverlaps_iff (line : Nat) : L1cOverlaps address size line ↔
    ∃ j < l1cLines address size, (address.toNat / 64 + j) % 2 ^ 26 = line := by
  have hline : ∀ k, l1cLine (address + BitVec.ofNat 32 k) =
      (address.toNat / 64 + (address.toNat % 64 + k) / 64) % 2 ^ 26 := by
    intro k
    have hsize : hpmL1cCachelineSize.toNat = 64 := rfl
    unfold l1cLine
    rw [hsize, BitVec.toNat_add, BitVec.toNat_ofNat]
    omega
  unfold L1cOverlaps l1cLines
  constructor
  · rintro ⟨k, hk, rfl⟩
    refine ⟨(address.toNat % 64 + k) / 64, ?_, (hline k).symm⟩
    rw [if_neg (by omega)]
    exact Nat.lt_succ_of_le (Nat.div_le_div_right (by omega))
  · rintro ⟨j, hj, rfl⟩
    split at hj
    · exact absurd hj (Nat.not_lt_zero j)
    · refine ⟨64 * j - address.toNat % 64, by omega, ?_⟩
      rw [hline]
      congr 2
      omega

end Lines

/-! ## The commands -/

/-- `n` commands on lines one behind the other. -/
def l1cIssued (opcode : BitVec 8) (base : BitVec 32) (n : Nat) : List (BitVec 8 × BitVec 32) :=
  (List.range n).map fun j => (opcode, base + BitVec.ofNat 32 (64 * j))

/-- One round more is one command more, a line further. -/
theorem l1cIssued_succ (opcode : BitVec 8) (base : BitVec 32) (n : Nat) :
    l1cIssued opcode base (n + 1) =
      l1cIssued opcode base n ++ [(opcode, base + BitVec.ofNat 32 (64 * n))] := by
  unfold l1cIssued
  rw [List.range_succ, List.map_append]
  rfl

/-- The address of the line behind the `n`-th one. -/
theorem l1cNext_eq (base : BitVec 32) (n : Nat) :
    base + BitVec.ofNat 32 (64 * n) + hpmL1cCachelineSize = base + BitVec.ofNat 32 (64 * (n + 1)) := by
  have hsize : hpmL1cCachelineSize = BitVec.ofNat 32 64 := rfl
  rw [hsize, BitVec.add_assoc, ← BitVec.ofNat_add]
  rfl

section Loops

variable {csr : L1cCsr} {opcode : BitVec 8} {address size : BitVec 32}

/-- The control unit behind `n` rounds of the loop for an address register that goes on. -/
theorem l1cAutoBody_iterate (opcode : BitVec 8) (address : BitVec 32) (hauto : csr.AutoIncrement)
    (n : Nat) :
    (l1cAutoBody opcode)^[n] ⟨csr.cctlAddress address, 0⟩ =
      ⟨⟨csr.mmscCfg, address + BitVec.ofNat 32 (64 * n),
          csr.commands ++ l1cIssued opcode address n⟩,
        if n = 0 then 0 else address + BitVec.ofNat 32 (64 * n)⟩ := by
  induction n with
  | zero =>
    have hzero : address + BitVec.ofNat 32 (64 * 0) = address := BitVec.add_zero address
    rw [hzero]
    simp [L1cCsr.cctlAddress, l1cIssued]
  | succ n ih =>
    rw [Function.iterate_succ_apply', ih]
    have hcfg : csr.mmscCfg &&& cctlVersion ≠ 0 := hauto
    simp only [l1cAutoBody, L1cCsr.cctlCmd, L1cCsr.AutoIncrement, hcfg, ne_eq, not_false_eq_true,
      if_true, l1cNext_eq, l1cIssued_succ, List.append_assoc, Nat.succ_ne_zero, if_false]

/-- The control unit behind `n` rounds of the loop with an address for each command. -/
theorem l1cEachBody_iterate (opcode : BitVec 8) (address : BitVec 32)
    (heach : ¬ csr.AutoIncrement) (n : Nat) :
    ∃ begin, (l1cEachBody opcode address)^[n] ⟨csr, 0, 0⟩ =
      ⟨⟨csr.mmscCfg, begin, csr.commands ++ l1cIssued opcode address n⟩,
        BitVec.ofNat 32 n, BitVec.ofNat 32 (64 * n)⟩ := by
  induction n with
  | zero =>
    refine ⟨csr.mcctlbeginaddr, ?_⟩
    simp [l1cIssued]
  | succ n ih =>
    obtain ⟨begin, ih⟩ := ih
    have hcfg : ¬ csr.mmscCfg &&& cctlVersion ≠ 0 := heach
    have hmul : BitVec.ofNat 32 n * hpmL1cCachelineSize = BitVec.ofNat 32 (64 * n) := by
      have hsize : hpmL1cCachelineSize = BitVec.ofNat 32 64 := rfl
      rw [hsize, ← BitVec.ofNat_mul, Nat.mul_comm]
    have htmp : BitVec.ofNat 32 (64 * n) + hpmL1cCachelineSize = BitVec.ofNat 32 (64 * (n + 1)) := by
      have hnext := l1cNext_eq 0#32 n
      rwa [BitVec.zero_add, BitVec.zero_add] at hnext
    refine ⟨address + BitVec.ofNat 32 (64 * n), ?_⟩
    rw [Function.iterate_succ_apply', ih]
    simp only [l1cEachBody, L1cCsr.cctlAddressCmd, L1cCsr.cctlAddress, L1cCsr.cctlCmd,
      L1cCsr.AutoIncrement, hcfg, if_false, hmul, htmp, l1cIssued_succ, List.append_assoc]
    rw [BitVec.ofNat_add]
    rfl

/-- The lines of `n` commands are those of the range. -/
def L1cExact (address size : BitVec 32) (n : Nat) : Prop :=
  min n (2 ^ 26) = min (l1cLines address size) (2 ^ 26)

/-- Consecutive lines are those of the range exactly if there are as many of them. -/
theorem l1cIssued_exact_iff (n : Nat) :
    (∀ line, (∃ c ∈ l1cIssued opcode (l1cAligned address) n, l1cLine c.2 = line) ↔
      L1cOverlaps address size line) ↔ L1cExact address size n := by
  rw [L1cExact, ← Ring.slots_iff (T := address.toNat / 64) (Nat.two_pow_pos 26)]
  apply forall_congr'
  intro line
  have hissued : (∃ c ∈ l1cIssued opcode (l1cAligned address) n, l1cLine c.2 = line) ↔
      ∃ j < n, (address.toNat / 64 + j) % 2 ^ 26 = line := by
    constructor
    · rintro ⟨c, hc, rfl⟩
      obtain ⟨j, hj, rfl⟩ := List.mem_map.mp hc
      exact ⟨j, List.mem_range.mp hj, (l1cLine_aligned address j).symm⟩
    · rintro ⟨j, hj, rfl⟩
      exact ⟨_, List.mem_map_of_mem (List.mem_range.mpr hj), l1cLine_aligned address j⟩
  rw [hissued, l1cOverlaps_iff]

/-- What is asked of a call, once its loop is known to give commands on one line behind the
other. -/
theorem l1cTouches_iff {cmd : L1cCctlCmd} {exits : Nat → Prop} (after : Nat → L1cCsr)
    (hop : ∀ csr', (∃ fuel, l1cOp fuel csr cmd.code address size = some csr') ↔
      ∃ n, exits n ∧ csr' = after n)
    (hafter : ∀ n, (after n).commands =
      csr.commands ++ l1cIssued cmd.code (l1cAligned address) n) :
    L1cTouches csr cmd address size ↔ ∃ n, exits n ∧ L1cExact address size n := by
  unfold L1cTouches
  simp only [l1cMaintain_eq]
  constructor
  · rintro ⟨fuel, csr', hrun, issued, hcommands, -, hlines⟩
    obtain ⟨n, hexits, rfl⟩ := (hop csr').mp ⟨fuel, hrun⟩
    rw [hafter] at hcommands
    rw [← List.append_cancel_left hcommands] at hlines
    exact ⟨n, hexits, (l1cIssued_exact_iff n).mp hlines⟩
  · rintro ⟨n, hexits, hexact⟩
    obtain ⟨fuel, hrun⟩ := (hop _).mpr ⟨n, hexits, rfl⟩
    refine ⟨fuel, _, hrun, _, hafter n, ?_, (l1cIssued_exact_iff n).mpr hexact⟩
    intro c hc
    obtain ⟨j, -, rfl⟩ := List.mem_map.mp hc
    rfl

/-- Behind `n` commands with an address each the loop goes on. -/
def L1cEachMore (size : BitVec 32) (n : Nat) : Prop :=
  64 * n % 2 ^ 32 < (size.toNat + 64) % 2 ^ 32

/-- Behind `n` commands the loop for an address register that goes on does so. -/
def L1cAutoMore (address size : BitVec 32) (n : Nat) : Prop :=
  (if n = 0 then 0 else (address.toNat / 64 * 64 + 64 * n) % 2 ^ 32) <
    (address.toNat / 64 * 64 + size.toNat + 64) % 2 ^ 32

instance : DecidablePred (L1cEachMore size) := fun _ => inferInstanceAs (Decidable (_ < _))

instance : DecidablePred (L1cAutoMore address size) := fun _ => inferInstanceAs (Decidable (_ < _))

/-- With an address for each command the number of rounds is all that matters. -/
theorem l1cTouches_each_iff {cmd : L1cCctlCmd} (heach : ¬ csr.AutoIncrement) :
    L1cTouches csr cmd address size ↔
      ∃ n, FirstFails (L1cEachMore size) n ∧ L1cExact address size n := by
  let body := l1cEachBody cmd.code (l1cAligned address)
  have hbody := l1cEachBody_iterate cmd.code (l1cAligned address) heach
  have hguard : ∀ n, l1cEachGuard (size + hpmL1cCachelineSize) (body^[n] ⟨csr, 0, 0⟩) =
      decide (L1cEachMore size n) := by
    intro n
    obtain ⟨begin, hafter⟩ := hbody n
    rw [hafter, l1cEachGuard, decide_eq_decide, BitVec.lt_def, BitVec.toNat_ofNat, BitVec.toNat_add]
    rfl
  refine l1cTouches_iff (fun n => (body^[n] ⟨csr, 0, 0⟩).csr) ?_ ?_
  · intro csr'
    unfold l1cOp
    simp only [heach, if_false]
    rw [whileFuel_map_iff]
    exact exists_congr fun n => and_congr_left' (whileExits_iff hguard)
  · intro n
    obtain ⟨begin, hafter⟩ := hbody n
    exact congrArg (fun s => s.csr.commands) hafter

/-- With an address register that goes on by itself the number of rounds is all that matters as
well. -/
theorem l1cTouches_auto_iff {cmd : L1cCctlCmd} (hauto : csr.AutoIncrement) :
    L1cTouches csr cmd address size ↔
      ∃ n, FirstFails (L1cAutoMore address size) n ∧ L1cExact address size n := by
  let body := l1cAutoBody cmd.code
  let start : L1cAutoLoop := ⟨csr.cctlAddress (l1cAligned address), 0⟩
  have hbody := l1cAutoBody_iterate cmd.code (l1cAligned address) hauto
  have hguard : ∀ n, l1cAutoGuard (l1cAligned address) (size + hpmL1cCachelineSize)
      (body^[n] start) = decide (L1cAutoMore address size n) := by
    intro n
    have hline : hpmL1cCachelineSize.toNat = 64 := rfl
    have hend : (l1cAligned address + (size + hpmL1cCachelineSize)).toNat =
        (address.toNat / 64 * 64 + size.toNat + 64) % 2 ^ 32 := by
      rw [BitVec.toNat_add, BitVec.toNat_add, l1cAligned_toNat, hline, Nat.add_mod_mod,
        Nat.add_assoc]
    rw [hbody n, l1cAutoGuard, decide_eq_decide, BitVec.lt_def, hend, L1cAutoMore]
    cases n with
    | zero => rfl
    | succ n =>
      rw [if_neg (Nat.succ_ne_zero n), if_neg (Nat.succ_ne_zero n), BitVec.toNat_add,
        l1cAligned_toNat, BitVec.toNat_ofNat, Nat.add_mod_mod]
  refine l1cTouches_iff (fun n => (body^[n] start).csr) ?_ ?_
  · intro csr'
    unfold l1cOp
    simp only [hauto, if_true]
    rw [whileFuel_map_iff]
    exact exists_congr fun n => and_congr_left' (whileExits_iff hguard)
  · intro n
    exact congrArg (fun s => s.csr.commands) (hbody n)

end Loops

/-! ## How many commands -/

section Counts

variable {address size : BitVec 32}

/-- The number of commands is that of the lines where the range ends in one line more than its
length takes. -/
theorem l1cExact_iff (address : BitVec 32) (hsize : size.toNat + 64 ≤ 2 ^ 32) :
    L1cExact address size ((size.toNat + 127) / 64) ↔
      64 ≤ address.toNat % 64 + (size.toNat - 1) % 64 := by
  unfold L1cExact l1cLines
  split
  · omega
  · omega

/-- One round too many is right exactly where the range ends a line later than its length tells, and
the comparison does not wrap. -/
theorem l1cEach_exact_iff : (∃ n, FirstFails (L1cEachMore size) n ∧ L1cExact address size n) ↔
    64 ≤ address.toNat % 64 + (size.toNat - 1) % 64 ∧ size.toNat + 128 ≤ 2 ^ 32 := by
  have hlt := size.isLt
  rcases Nat.lt_or_ge (2 ^ 32) (size.toNat + 128) with hlong | hshort
  · -- the counter wraps before it reaches the size, or the size itself has wrapped
    refine iff_of_false ?_ (fun h => Nat.not_le.mpr hlong h.2)
    rintro ⟨n, hfails, hexact⟩
    have hone : n ≤ 1 := by
      by_contra hgt
      have hmore := hfails.2 1 (Nat.not_le.mp hgt)
      have hnever := hfails.1
      unfold L1cEachMore at hmore hnever
      omega
    unfold L1cExact l1cLines at hexact
    split at hexact <;> omega
  · have hfails : FirstFails (L1cEachMore size) ((size.toNat + 127) / 64) := by
      constructor
      · unfold L1cEachMore
        omega
      · intro m hm
        unfold L1cEachMore
        omega
    rw [← l1cExact_iff address (by omega)]
    constructor
    · rintro ⟨n, hn, hexact⟩
      rw [hn.eq hfails] at hexact
      exact ⟨hexact, hshort⟩
    · intro h
      exact ⟨_, hfails, h.1⟩

/-- The loop for an address register that goes on. -/
theorem l1cAuto_exact_iff (hpos : 0 < size.toNat) :
    (∃ n, FirstFails (L1cAutoMore address size) n ∧ L1cExact address size n) ↔
      64 ≤ address.toNat % 64 + (size.toNat - 1) % 64 ∧
        (address.toNat / 64 * 64 + size.toNat + 128 ≤ 2 ^ 32 ∨
          address.toNat / 64 * 64 + 64 = 2 ^ 32 ∧ size.toNat + 64 ≤ 2 ^ 32) := by
  have hlt := size.isLt
  have haddress := address.isLt
  by_cases hfit : address.toNat / 64 * 64 + size.toNat + 128 ≤ 2 ^ 32 ∨
      address.toNat / 64 * 64 + 64 = 2 ^ 32 ∧ size.toNat + 64 ≤ 2 ^ 32
  · have hfails : FirstFails (L1cAutoMore address size) ((size.toNat + 127) / 64) := by
      constructor
      · unfold L1cAutoMore
        rw [if_neg (by omega)]
        omega
      · intro m hm
        unfold L1cAutoMore
        split <;> omega
    rw [← l1cExact_iff address (by omega)]
    constructor
    · rintro ⟨n, hn, hexact⟩
      rw [hn.eq hfails] at hexact
      exact ⟨hexact, hfit⟩
    · intro h
      exact ⟨_, hfails, h.1⟩
  · -- the end of the range has wrapped, or is never reached
    refine iff_of_false ?_ (fun h => hfit h.2)
    rintro ⟨n, hfails, hexact⟩
    have hone : n ≤ 1 := by
      by_contra hgt
      have hmore := hfails.2 1 (Nat.not_le.mp hgt)
      have hnever := hfails.1
      unfold L1cAutoMore at hmore hnever
      rw [if_neg (by omega)] at hmore hnever
      omega
    unfold L1cExact l1cLines at hexact
    rw [if_neg (by omega)] at hexact
    obtain ⟨hnever, hmore⟩ := hfails
    unfold L1cAutoMore at hnever hmore
    cases n with
    | zero =>
      rw [if_pos rfl] at hnever
      omega
    | succ n =>
      have hfirst := hmore 0 (Nat.succ_pos n)
      rw [if_pos rfl] at hfirst
      rw [if_neg (Nat.succ_ne_zero n)] at hnever
      omega

end Counts

/-! ## The operations -/

/-- The range ends in one line more than its length takes, and neither counter wraps. -/
structure L1cFits (address size : BitVec 32) : Prop where
  line : 64 ≤ address.toNat % 64 + (size.toNat - 1) % 64
  length : size.toNat + 128 ≤ 2 ^ 32
  top : address.toNat / 64 * 64 + size.toNat + 128 ≤ 2 ^ 32 ∨ address.toNat / 64 * 64 + 64 = 2 ^ 32

/-- **In both versions of the control unit a range operation touches the lines of its range and no
other ones if and only if the range fits.**

The size is extended by a whole line whatever was taken off the address, so the lines are right
where the range ends one line further than its length alone takes.  The two versions count
differently, one by addresses and one by sizes, and part only at the top of the address space;
each has its own exact condition, and the range fits where both hold. -/
theorem l1cTouches_all_iff (cmd : L1cCctlCmd) (address size : BitVec 32) :
    (∀ csr, L1cTouches csr cmd address size) ↔ L1cFits address size := by
  constructor
  · intro h
    have heach : ¬ L1cCsr.AutoIncrement ⟨0, 0, []⟩ := by decide
    have hauto : L1cCsr.AutoIncrement ⟨cctlVersion, 0, []⟩ := by decide
    obtain ⟨hline, hlength⟩ := l1cEach_exact_iff.mp ((l1cTouches_each_iff heach).mp (h _))
    have hpos : 0 < size.toNat := by omega
    obtain ⟨-, htop⟩ := (l1cAuto_exact_iff hpos).mp ((l1cTouches_auto_iff hauto).mp (h _))
    exact ⟨hline, hlength, htop.imp_right And.left⟩
  · intro h csr
    by_cases hauto : csr.AutoIncrement
    · have hline := h.line
      have hlength := h.length
      refine (l1cTouches_auto_iff hauto).mpr ((l1cAuto_exact_iff (by omega)).mpr ⟨hline, ?_⟩)
      exact h.top.imp_right fun htop => ⟨htop, by omega⟩
    · exact (l1cTouches_each_iff hauto).mpr (l1cEach_exact_iff.mpr ⟨h.line, h.length⟩)

/-- Invalidating one line also invalidates the next one. -/
theorem l1cTouches_neighbour : ¬ ∀ (csr : L1cCsr) (cmd : L1cCctlCmd) (address size : BitVec 32),
    size ≠ 0 → L1cTouches csr cmd address size := by
  intro h
  have heach : ¬ L1cCsr.AutoIncrement ⟨0, 0, []⟩ := by decide
  have htouches := h ⟨0, 0, []⟩ .l1dVaInval 0x80000 64 (by decide)
  have hfits := (l1cEach_exact_iff.mp ((l1cTouches_each_iff heach).mp htouches)).1
  revert hfits
  decide

end HpmSdk.L1c
