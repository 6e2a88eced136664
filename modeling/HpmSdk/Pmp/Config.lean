import Mathlib.Logic.Function.Basic

set_option autoImplicit false

/-!
# PMP and PMA entries (`hpm_pmp_drv.c`, `hpm_pmp_drv.h`)

An entry has an address register of its own and a byte of one of four configuration
registers, once for the access rights (PMP) and once for the memory attributes (PMA).
-/

namespace HpmSdk.Pmp

/-- The `hpm_stat_t` values of the PMP driver. -/
inductive PmpStat where
  | success
  | invalidArgument
  deriving DecidableEq, Repr

/-! ## The registers -/

/-- The control and status registers, by their numbers. -/
abbrev Csrs : Type := Nat → BitVec 32

/-- Access rights or memory attributes. -/
inductive PmpUnit where
  | pmp
  | pma
  deriving DecidableEq, Repr

/-- `CSR_PMPCFGn`, `CSR_PMACFGn`. -/
def csrCfg : PmpUnit → Nat → Nat
  | .pmp, n => 0x3A0 + n
  | .pma, n => 0xBC0 + n

/-- `CSR_PMPADDRn`, `CSR_PMAADDRn`. -/
def csrAddr : PmpUnit → Nat → Nat
  | .pmp, n => 0x3B0 + n
  | .pma, n => 0xBD0 + n

/-- `read_csr`. -/
def readCsr (csrs : Csrs) (csrNum : Nat) : BitVec 32 := csrs csrNum

/-- `write_csr`. -/
def writeCsr (csrs : Csrs) (csrNum : Nat) (v : BitVec 32) : Csrs := Function.update csrs csrNum v

/-! ## The switches -/

/-- The configuration register of a case label. -/
def cfgCase : Nat → Option Nat
  | 0 => some 0
  | 1 => some 1
  | 2 => some 2
  | 3 => some 3
  | _ => none

/-- The address register of a case label; the label of the fifteenth register is 16. -/
def addrCase : Nat → Option Nat
  | 0 => some 0
  | 1 => some 1
  | 2 => some 2
  | 3 => some 3
  | 4 => some 4
  | 5 => some 5
  | 6 => some 6
  | 7 => some 7
  | 8 => some 8
  | 9 => some 9
  | 10 => some 10
  | 11 => some 11
  | 12 => some 12
  | 13 => some 13
  | 16 => some 14
  | 15 => some 15
  | _ => none

section Switches

variable (u : PmpUnit) (csrs : Csrs)

def readCfg (idx : Nat) : BitVec 32 :=
  match cfgCase idx with
  | some n => readCsr csrs (csrCfg u n)
  | none => 0

def writeCfg (value : BitVec 32) (idx : Nat) : Csrs :=
  match cfgCase idx with
  | some n => writeCsr csrs (csrCfg u n) value
  | none => csrs

def readAddr (idx : Nat) : BitVec 32 :=
  match addrCase idx with
  | some n => readCsr csrs (csrAddr u n)
  | none => 0

def writeAddr (value : BitVec 32) (idx : Nat) : Csrs :=
  match addrCase idx with
  | some n => writeCsr csrs (csrAddr u n) value
  | none => csrs

end Switches

def readPmpCfg : Csrs → Nat → BitVec 32 := readCfg .pmp

def readPmaCfg : Csrs → Nat → BitVec 32 := readCfg .pma

def writePmpCfg : Csrs → BitVec 32 → Nat → Csrs := writeCfg .pmp

def writePmaCfg : Csrs → BitVec 32 → Nat → Csrs := writeCfg .pma

def writePmpAddr : Csrs → BitVec 32 → Nat → Csrs := writeAddr .pmp

def writePmaAddr : Csrs → BitVec 32 → Nat → Csrs := writeAddr .pma

def readPmpAddr : Csrs → Nat → BitVec 32 := readAddr .pmp

def readPmaAddr : Csrs → Nat → BitVec 32 := readAddr .pma

/-! ## `pmp_config` -/

/-- `pmp_entry_t`. -/
structure PmpEntry where
  pmpCfg : BitVec 8
  pmpAddr : BitVec 32
  pmaCfg : BitVec 8
  pmaAddr : BitVec 32

/-- A configuration register with the byte at `offset` replaced. -/
def putCfg (cfg : BitVec 32) (offset : Nat) (val : BitVec 8) : BitVec 32 :=
  cfg &&& ~~~(0xFF#32 <<< offset) ||| val.setWidth 32 <<< offset

/-- The body of the loop for entry `i`. -/
def pmpConfigEntry (csrs : Csrs) (entry : PmpEntry) (i : Nat) : Csrs :=
  let idx := i / 4
  let offset := (i * 8) &&& 0x1F
  let pmpCfg := putCfg (readPmpCfg csrs idx) offset entry.pmpCfg
  let pmaCfg := putCfg (readPmaCfg csrs idx) offset entry.pmaCfg
  let csrs := writePmpAddr csrs entry.pmpAddr i
  let csrs := writePmaAddr csrs entry.pmaAddr i
  let csrs := writePmaCfg csrs pmaCfg idx
  writePmpCfg csrs pmpCfg idx

/-- The first `i` passes of the loop. -/
def pmpConfigLoop (csrs : Csrs) (entry : Nat → PmpEntry) : Nat → Csrs
  | 0 => csrs
  | i + 1 => pmpConfigEntry (pmpConfigLoop csrs entry i) (entry i) i

/-- `pmp_config`; `entry` is `none` for `NULL`. -/
def pmpConfig (csrs : Csrs) (entry : Option (Nat → PmpEntry)) (numOfEntries : BitVec 32) :
    PmpStat × Csrs :=
  match entry with
  | none => (.invalidArgument, csrs)
  | some entry =>
    if numOfEntries.toNat < 1 ∨ 15 < numOfEntries.toNat then (.invalidArgument, csrs)
    else (.success, pmpConfigLoop csrs entry numOfEntries.toNat)

/-! ## The contract -/

/-- Byte `i` of the configuration registers. -/
def cfgByte (csrs : Csrs) (u : PmpUnit) (i : Nat) : BitVec 8 :=
  (csrs (csrCfg u (i / 4))).extractLsb' (8 * (i % 4)) 8

def PmpEntry.cfg (e : PmpEntry) : PmpUnit → BitVec 8
  | .pmp => e.pmpCfg
  | .pma => e.pmaCfg

def PmpEntry.addr (e : PmpEntry) : PmpUnit → BitVec 32
  | .pmp => e.pmpAddr
  | .pma => e.pmaAddr

/-- The first `n` entries are those of the list, the others as before. -/
structure PmpHolds (csrs csrs' : Csrs) (entry : Nat → PmpEntry) (n : Nat) : Prop where
  addr : ∀ u, ∀ i < 16,
    csrs' (csrAddr u i) = if i < n then (entry i).addr u else csrs (csrAddr u i)
  cfg : ∀ u, ∀ i < 16, cfgByte csrs' u i = if i < n then (entry i).cfg u else cfgByte csrs u i

/-- Where `pmp_config` succeeds the registers hold the list. -/
def PmpConfigures (csrs : Csrs) (entry : Option (Nat → PmpEntry)) (numOfEntries : BitVec 32) :
    Prop :=
  ∀ list ∈ entry, ∀ csrs', pmpConfig csrs entry numOfEntries = (.success, csrs') →
    PmpHolds csrs csrs' list numOfEntries.toNat

end HpmSdk.Pmp
