import HpmSdk.Foundation.While

set_option autoImplicit false

/-!
# L1C: cache maintenance by address (`hpm_l1c_drv.c`, `hpm_l1c_drv.h`)

A range is maintained line by line.  In the newer version of the control unit the address register
goes on by itself, in the older one each command is given an address.
-/

namespace HpmSdk.L1c

open HpmSdk.Foundation

/-- `HPM_L1C_CACHELINE_SIZE`. -/
def hpmL1cCachelineSize : BitVec 32 := 64

/-- `CCTL_VERSION`. -/
def cctlVersion : BitVec 32 := 3 <<< 18

/-! ## The control unit -/

/-- `CSR_MMSC_CFG`, `CSR_MCCTLBEGINADDR`, and the commands so far with their addresses. -/
structure L1cCsr where
  mmscCfg : BitVec 32
  mcctlbeginaddr : BitVec 32
  commands : List (BitVec 8 × BitVec 32)

namespace L1cCsr

variable (csr : L1cCsr)

/-- The address register goes on by itself. -/
def AutoIncrement : Prop := csr.mmscCfg &&& cctlVersion ≠ 0

instance : Decidable csr.AutoIncrement := inferInstanceAs (Decidable (_ ≠ _))

/-- `l1c_cctl_address`. -/
def cctlAddress (address : BitVec 32) : L1cCsr := { csr with mcctlbeginaddr := address }

/-- `l1c_cctl_cmd`: a command on the line of the address register. -/
def cctlCmd (cmd : BitVec 8) : L1cCsr :=
  { csr with
    mcctlbeginaddr :=
      if csr.AutoIncrement then csr.mcctlbeginaddr + hpmL1cCachelineSize else csr.mcctlbeginaddr
    commands := csr.commands ++ [(cmd, csr.mcctlbeginaddr)] }

/-- `l1c_cctl_address_cmd`. -/
def cctlAddressCmd (cmd : BitVec 8) (address : BitVec 32) : L1cCsr :=
  (csr.cctlAddress address).cctlCmd cmd

end L1cCsr

/-! ## `l1c_op` -/

/-- The variables of the loop for an address register that goes on by itself. -/
structure L1cAutoLoop where
  csr : L1cCsr
  nextAddress : BitVec 32

/-- `while (next_address < (address + size))`. -/
def l1cAutoGuard (address size : BitVec 32) (s : L1cAutoLoop) : Bool :=
  decide (s.nextAddress < address + size)

/-- The body of that loop. -/
def l1cAutoBody (opcode : BitVec 8) (s : L1cAutoLoop) : L1cAutoLoop :=
  let csr := s.csr.cctlCmd opcode
  ⟨csr, csr.mcctlbeginaddr⟩

/-- The variables of the loop with an address for each command. -/
structure L1cEachLoop where
  csr : L1cCsr
  i : BitVec 32
  tmp : BitVec 32

/-- `tmp < size`. -/
def l1cEachGuard (size : BitVec 32) (s : L1cEachLoop) : Bool := decide (s.tmp < size)

/-- The body of that loop. -/
def l1cEachBody (opcode : BitVec 8) (address : BitVec 32) (s : L1cEachLoop) : L1cEachLoop where
  csr := s.csr.cctlAddressCmd opcode (address + s.i * hpmL1cCachelineSize)
  i := s.i + 1
  tmp := s.tmp + hpmL1cCachelineSize

/-- `address &= ~(HPM_L1C_CACHELINE_SIZE - 1)`. -/
def l1cAligned (address : BitVec 32) : BitVec 32 := address &&& ~~~(hpmL1cCachelineSize - 1)

/-- `l1c_op`, given up when the fuel runs out. -/
def l1cOp (fuel : Nat) (csr : L1cCsr) (opcode : BitVec 8) (address size : BitVec 32) :
    Option L1cCsr :=
  let address := l1cAligned address
  let size := size + hpmL1cCachelineSize
  if csr.AutoIncrement then
    (whileFuel (l1cAutoGuard address size) (l1cAutoBody opcode) fuel
      ⟨csr.cctlAddress address, 0⟩).map L1cAutoLoop.csr
  else
    (whileFuel (l1cEachGuard size) (l1cEachBody opcode address) fuel
      ⟨csr, 0, 0⟩).map L1cEachLoop.csr

/-- `HPM_L1C_CCTL_CMD_L1D_VA_..` and `HPM_L1C_CCTL_CMD_L1I_VA_..`. -/
inductive L1cCctlCmd where
  | l1dVaInval
  | l1dVaWb
  | l1dVaWbinval
  | l1dVaLock
  | l1iVaInval
  | l1iVaLock
  deriving DecidableEq, Repr

/-- The code of a command. -/
def L1cCctlCmd.code : L1cCctlCmd → BitVec 8
  | .l1dVaInval => 0
  | .l1dVaWb => 1
  | .l1dVaWbinval => 2
  | .l1dVaLock => 3
  | .l1iVaInval => 8
  | .l1iVaLock => 11

/-- `l1c_dc_fill_lock`. -/
def l1cDcFillLock (fuel : Nat) (csr : L1cCsr) (address size : BitVec 32) : Option L1cCsr :=
  l1cOp fuel csr L1cCctlCmd.l1dVaLock.code address size

/-- `l1c_dc_invalidate`. -/
def l1cDcInvalidate (fuel : Nat) (csr : L1cCsr) (address size : BitVec 32) : Option L1cCsr :=
  l1cOp fuel csr L1cCctlCmd.l1dVaInval.code address size

/-- `l1c_dc_writeback`. -/
def l1cDcWriteback (fuel : Nat) (csr : L1cCsr) (address size : BitVec 32) : Option L1cCsr :=
  l1cOp fuel csr L1cCctlCmd.l1dVaWb.code address size

/-- `l1c_dc_flush`. -/
def l1cDcFlush (fuel : Nat) (csr : L1cCsr) (address size : BitVec 32) : Option L1cCsr :=
  l1cOp fuel csr L1cCctlCmd.l1dVaWbinval.code address size

/-- `l1c_ic_invalidate`. -/
def l1cIcInvalidate (fuel : Nat) (csr : L1cCsr) (address size : BitVec 32) : Option L1cCsr :=
  l1cOp fuel csr L1cCctlCmd.l1iVaInval.code address size

/-- `l1c_ic_fill_lock`. -/
def l1cIcFillLock (fuel : Nat) (csr : L1cCsr) (address size : BitVec 32) : Option L1cCsr :=
  l1cOp fuel csr L1cCctlCmd.l1iVaLock.code address size

/-- The operation on a range that gives a command. -/
def L1cCctlCmd.maintain : L1cCctlCmd → Nat → L1cCsr → BitVec 32 → BitVec 32 → Option L1cCsr
  | .l1dVaInval => l1cDcInvalidate
  | .l1dVaWb => l1cDcWriteback
  | .l1dVaWbinval => l1cDcFlush
  | .l1dVaLock => l1cDcFillLock
  | .l1iVaInval => l1cIcInvalidate
  | .l1iVaLock => l1cIcFillLock

/-! ## The contract -/

/-- The number of the line of an address. -/
def l1cLine (address : BitVec 32) : Nat := address.toNat / hpmL1cCachelineSize.toNat

/-- A line has a byte of the range. -/
def L1cOverlaps (address size : BitVec 32) (line : Nat) : Prop :=
  ∃ k < size.toNat, l1cLine (address + BitVec.ofNat 32 k) = line

/-- What is asked of a call: it ends, and has given its command on every line that overlaps the
range and on no other one. -/
def L1cTouches (csr : L1cCsr) (cmd : L1cCctlCmd) (address size : BitVec 32) : Prop :=
  ∃ fuel csr', cmd.maintain fuel csr address size = some csr' ∧
    ∃ issued, csr'.commands = csr.commands ++ issued ∧ (∀ c ∈ issued, c.1 = cmd.code) ∧
      ∀ line, (∃ c ∈ issued, l1cLine c.2 = line) ↔ L1cOverlaps address size line

end HpmSdk.L1c
