import Mathlib.Logic.Basic
import Mathlib.Tactic.Common
import Mathlib.Tactic.Ring

set_option autoImplicit false

/-!
# Local and system addresses (`hpm_misc.h`)

Each core sees its own ILM and DLM at fixed local addresses; other bus masters
reach the same RAM at system addresses.  The two maps of the header, the contract
that they are inverse to each other, and the addresses that it holds for.

The windows become intervals of numbers, and the two maps additions and subtractions of a constant
on them.
-/

namespace HpmSdk.Soc

/-! ## The code -/

/-- `core_id`. -/
inductive HpmCore where
  | core0
  | core1
  deriving DecidableEq, Repr

def ilmLocalBase : BitVec 32 := 0x0
def ilmSizeInByte : BitVec 32 := 0x40000
def dlmLocalBase : BitVec 32 := 0x80000
def dlmSizeInByte : BitVec 32 := 0x40000
def core0IlmSystemBase : BitVec 32 := 0x1000000
def core0DlmSystemBase : BitVec 32 := 0x1040000
def core1IlmSystemBase : BitVec 32 := 0x1180000
def core1DlmSystemBase : BitVec 32 := 0x11C0000

/-- An address lies in the window of the given base and size. -/
def InWindow (base size a : BitVec 32) : Prop := base ≤ a ∧ a < base + size

instance (base size a : BitVec 32) : Decidable (InWindow base size a) :=
  inferInstanceAs (Decidable (_ ∧ _))

/-- `ADDRESS_IN_ILM`. -/
abbrev AddressInIlm (a : BitVec 32) : Prop := InWindow ilmLocalBase ilmSizeInByte a

/-- `ADDRESS_IN_DLM`. -/
abbrev AddressInDlm (a : BitVec 32) : Prop := InWindow dlmLocalBase dlmSizeInByte a

/-- `ADDRESS_IN_CORE0_DLM_SYSTEM`. -/
abbrev AddressInCore0DlmSystem (a : BitVec 32) : Prop :=
  InWindow core0DlmSystemBase dlmSizeInByte a

/-- `DLM_TO_SYSTEM`. -/
def dlmToSystem (a : BitVec 32) : BitVec 32 := core0DlmSystemBase + a - dlmLocalBase

/-- `ILM_TO_SYSTEM`. -/
def ilmToSystem (a : BitVec 32) : BitVec 32 := core0IlmSystemBase + a - ilmLocalBase

/-- `SYSTEM_TO_DLM`. -/
def systemToDlm (a : BitVec 32) : BitVec 32 := a - core0DlmSystemBase + dlmLocalBase

/-- What `core_id == HPM_CORE1` adds and takes off. -/
def coreOffset : HpmCore → BitVec 32
  | .core0 => 0
  | .core1 => core1IlmSystemBase - core0IlmSystemBase

/-- `core_local_mem_to_sys_address`. -/
def coreLocalMemToSysAddress (core : HpmCore) (a : BitVec 32) : BitVec 32 :=
  if AddressInIlm a then ilmToSystem a + coreOffset core
  else if AddressInDlm a then dlmToSystem a + coreOffset core
  else a

/-- `sys_address_to_core_local_mem`: the offset of core 1 comes off every address. -/
def sysAddressToCoreLocalMem (core : HpmCore) (a : BitVec 32) : BitVec 32 :=
  let a := a - coreOffset core
  if AddressInCore0DlmSystem a then systemToDlm a else a

/-! ## Windows and aliases -/

/-- An address of the local ILM or DLM. -/
def LocalAddress (a : BitVec 32) : Prop := AddressInIlm a ∨ AddressInDlm a

/-- A system address of the ILM or DLM of a core. -/
def SystemAlias : HpmCore → BitVec 32 → Prop
  | .core0, a => InWindow core0IlmSystemBase ilmSizeInByte a ∨
      InWindow core0DlmSystemBase dlmSizeInByte a
  | .core1, a => InWindow core1IlmSystemBase ilmSizeInByte a ∨
      InWindow core1DlmSystemBase dlmSizeInByte a

instance (a : BitVec 32) : Decidable (LocalAddress a) := inferInstanceAs (Decidable (_ ∨ _))

instance (core : HpmCore) (a : BitVec 32) : Decidable (SystemAlias core a) := by
  cases core <;> exact inferInstanceAs (Decidable (_ ∨ _))

/-! ## The maps on numbers -/

section Numbers

variable {a : BitVec 32}

/-- A window that does not wrap, as an interval. -/
theorem inWindow_iff {base size : BitVec 32} (h : base.toNat + size.toNat < 2 ^ 32) :
    InWindow base size a ↔ base.toNat ≤ a.toNat ∧ a.toNat < base.toNat + size.toNat := by
  unfold InWindow
  rw [BitVec.le_def, BitVec.lt_def, BitVec.toNat_add, Nat.mod_eq_of_lt h]

theorem addressInIlm_iff : AddressInIlm a ↔ a.toNat < 0x40000 := by
  refine (inWindow_iff (by decide)).trans ⟨fun h => h.2, fun h => ⟨Nat.zero_le _, h⟩⟩

theorem addressInDlm_iff : AddressInDlm a ↔ 0x80000 ≤ a.toNat ∧ a.toNat < 0xC0000 :=
  inWindow_iff (by decide)

theorem addressInCore0DlmSystem_iff :
    AddressInCore0DlmSystem a ↔ 0x1040000 ≤ a.toNat ∧ a.toNat < 0x1080000 :=
  inWindow_iff (by decide)

/-- The first system address of a core's ILM; its DLM follows. -/
def aliasBase : HpmCore → Nat
  | .core0 => 0x1000000
  | .core1 => 0x1180000

/-- Two windows that follow each other are one. -/
theorem inWindow_or_iff {ilm dlm : BitVec 32} (hilm : ilm.toNat + 0x40000 = dlm.toNat)
    (hdlm : dlm.toNat + 0x40000 < 2 ^ 32) :
    InWindow ilm ilmSizeInByte a ∨ InWindow dlm dlmSizeInByte a ↔
      ilm.toNat ≤ a.toNat ∧ a.toNat < ilm.toNat + 0x80000 := by
  have hsize : ilmSizeInByte.toNat = 0x40000 := rfl
  have hsize' : dlmSizeInByte.toNat = 0x40000 := rfl
  rw [inWindow_iff (by omega), inWindow_iff (by omega), hsize, hsize']
  omega

/-- The system addresses of the local memories of a core. -/
theorem systemAlias_iff {core : HpmCore} :
    SystemAlias core a ↔ aliasBase core ≤ a.toNat ∧ a.toNat < aliasBase core + 0x80000 := by
  cases core
  · exact inWindow_or_iff (by decide) (by decide)
  · exact inWindow_or_iff (by decide) (by decide)

theorem coreOffset_toNat (core : HpmCore) :
    (coreOffset core).toNat = aliasBase core - 0x1000000 := by
  cases core <;> rfl

theorem aliasBase_eq (core : HpmCore) : aliasBase core = 0x1000000 ∨ aliasBase core = 0x1180000 := by
  cases core
  · exact Or.inl rfl
  · exact Or.inr rfl

/-- The system address of a local address, as a number. -/
theorem coreLocalMem_toNat (core : HpmCore) (h : LocalAddress a) :
    (coreLocalMemToSysAddress core a).toNat =
      aliasBase core + a.toNat - if AddressInIlm a then 0 else 0x40000 := by
  have hoff := coreOffset_toNat core
  have hbase := aliasBase_eq core
  unfold coreLocalMemToSysAddress
  by_cases hilm : AddressInIlm a
  · rw [if_pos hilm, if_pos hilm]
    rw [addressInIlm_iff] at hilm
    rw [BitVec.toNat_add, hoff, ilmToSystem, core0IlmSystemBase, ilmLocalBase]
    bv_omega
  · have hdlm := h.resolve_left hilm
    rw [if_neg hilm, if_neg hilm, if_pos hdlm]
    rw [addressInDlm_iff] at hdlm
    rw [BitVec.toNat_add, hoff, dlmToSystem, core0DlmSystemBase, dlmLocalBase]
    bv_omega

end Numbers

/-! ## What the maps do -/

section Maps

variable {core : HpmCore} {a : BitVec 32}

/-- An address outside of the local memories is not changed. -/
theorem coreLocalMemToSysAddress_of_not_local (h : ¬ LocalAddress a) :
    coreLocalMemToSysAddress core a = a := by
  unfold coreLocalMemToSysAddress
  rw [if_neg fun hilm => h (Or.inl hilm), if_neg fun hdlm => h (Or.inr hdlm)]

/-- A local address is not an alias. -/
theorem not_systemAlias_of_local (h : LocalAddress a) : ¬ SystemAlias core a := by
  have hbase := aliasBase_eq core
  rw [LocalAddress, addressInIlm_iff, addressInDlm_iff] at h
  rw [systemAlias_iff]
  omega

theorem not_ilm_of_dlm (h : AddressInDlm a) : ¬ AddressInIlm a := by
  rw [addressInDlm_iff] at h
  rw [addressInIlm_iff]
  omega

variable (core) in
/-- A local address is taken to a system alias of the same core. -/
theorem systemAlias_of_local (h : LocalAddress a) :
    SystemAlias core (coreLocalMemToSysAddress core a) := by
  rw [systemAlias_iff, coreLocalMem_toNat core h]
  rcases h with h | h
  · rw [if_pos h]
    rw [addressInIlm_iff] at h
    omega
  · rw [if_neg (not_ilm_of_dlm h)]
    rw [addressInDlm_iff] at h
    omega

/-- The way back from the alias of a DLM address. -/
theorem sysAddress_roundTrip_dlm (h : AddressInDlm a) :
    sysAddressToCoreLocalMem core (coreLocalMemToSysAddress core a) = a := by
  have hsys : coreLocalMemToSysAddress core a = dlmToSystem a + coreOffset core := by
    unfold coreLocalMemToSysAddress
    rw [if_neg (not_ilm_of_dlm h), if_pos h]
  have hin : AddressInCore0DlmSystem (dlmToSystem a) := by
    rw [addressInDlm_iff] at h
    rw [addressInCore0DlmSystem_iff, dlmToSystem, core0DlmSystemBase, dlmLocalBase]
    bv_omega
  unfold sysAddressToCoreLocalMem
  rw [hsys, BitVec.add_sub_cancel]
  dsimp only
  rw [if_pos hin, systemToDlm, dlmToSystem]
  bv_omega

/-- The alias of an ILM address is not mapped back. -/
theorem sysAddress_roundTrip_ilm (h : AddressInIlm a) :
    sysAddressToCoreLocalMem core (coreLocalMemToSysAddress core a) = ilmToSystem a := by
  have hsys : coreLocalMemToSysAddress core a = ilmToSystem a + coreOffset core := if_pos h
  have hout : ¬ AddressInCore0DlmSystem (ilmToSystem a) := by
    rw [addressInIlm_iff] at h
    rw [addressInCore0DlmSystem_iff, ilmToSystem, core0IlmSystemBase, ilmLocalBase]
    bv_omega
  unfold sysAddressToCoreLocalMem
  rw [hsys, BitVec.add_sub_cancel]
  exact if_neg hout

/-- An ILM address is always changed. -/
theorem ilmToSystem_ne (a : BitVec 32) : ilmToSystem a ≠ a := by
  unfold ilmToSystem core0IlmSystemBase ilmLocalBase
  bv_omega

/-- Outside the aliases only the offset of the core comes off. -/
theorem sysAddressToCoreLocalMem_of_not_alias (h : ¬ SystemAlias core a) :
    sysAddressToCoreLocalMem core a = a - coreOffset core := by
  have hout : ¬ AddressInCore0DlmSystem (a - coreOffset core) := by
    have hoff := coreOffset_toNat core
    have hbase := aliasBase_eq core
    rw [systemAlias_iff] at h
    rw [addressInCore0DlmSystem_iff, BitVec.toNat_sub, hoff]
    omega
  unfold sysAddressToCoreLocalMem
  exact if_neg hout

/-- On core 0 there is no offset, so only the ILM is lost. -/
theorem sysAddress_roundTrip_core0 (h : ¬ AddressInIlm a)
    (hwhere : LocalAddress a ∨ ¬ SystemAlias .core0 a) :
    sysAddressToCoreLocalMem .core0 (coreLocalMemToSysAddress .core0 a) = a := by
  by_cases hlocal : LocalAddress a
  · exact sysAddress_roundTrip_dlm (hlocal.resolve_left h)
  · have halias := hwhere.resolve_left hlocal
    rw [coreLocalMemToSysAddress_of_not_local hlocal,
      sysAddressToCoreLocalMem_of_not_alias halias]
    exact BitVec.sub_zero a

/-- Taking the offset away changes nothing for core 0 only. -/
theorem sub_coreOffset_eq_iff (core : HpmCore) (a : BitVec 32) :
    a - coreOffset core = a ↔ core = .core0 := by
  cases core with
  | core0 => exact ⟨fun _ => rfl, fun _ => BitVec.sub_zero a⟩
  | core1 =>
    refine ⟨fun h => ?_, fun h => HpmCore.noConfusion h⟩
    unfold coreOffset core1IlmSystemBase core0IlmSystemBase at h
    bv_omega

/-- The system addresses of the two cores are apart. -/
theorem eq_of_aliasBase_overlap {core' : HpmCore} {n : Nat}
    (h' : aliasBase core' ≤ n ∧ n < aliasBase core' + 0x80000)
    (h : aliasBase core ≤ n ∧ n < aliasBase core + 0x80000) : core' = core := by
  cases core <;> cases core' <;> simp only [aliasBase] at h h' <;>
    first
      | rfl
      | omega

/-- The local windows of the two cores have different aliases throughout. -/
theorem coreLocalMemToSysAddress_inj {core' : HpmCore} {a' : BitVec 32} (h : LocalAddress a)
    (h' : LocalAddress a')
    (heq : coreLocalMemToSysAddress core' a' = coreLocalMemToSysAddress core a) :
    core' = core ∧ a' = a := by
  have hrange := systemAlias_iff.mp (systemAlias_of_local core h)
  have hrange' := systemAlias_iff.mp (systemAlias_of_local core' h')
  rw [heq] at hrange'
  have hcore : core' = core := eq_of_aliasBase_overlap hrange' hrange
  subst hcore
  refine ⟨rfl, BitVec.eq_of_toNat_eq ?_⟩
  have hval := congrArg BitVec.toNat heq
  rw [coreLocalMem_toNat core' h, coreLocalMem_toNat core' h'] at hval
  have hbase := aliasBase_eq core'
  rw [LocalAddress, addressInIlm_iff, addressInDlm_iff] at h h'
  simp only [addressInIlm_iff] at hval
  split at hval <;> split at hval <;> omega

end Maps

/-! ## The contract -/

/-- What the two maps are for, at one address of one core. -/
structure AddressMaps (core : HpmCore) (a : BitVec 32) : Prop where
  /-- The way to the system address and back. -/
  inverse : LocalAddress a ∨ ¬ SystemAlias core a →
    sysAddressToCoreLocalMem core (coreLocalMemToSysAddress core a) = a
  /-- Other addresses are left alone. -/
  identity : ¬ LocalAddress a → ¬ SystemAlias core a →
    coreLocalMemToSysAddress core a = a ∧ sysAddressToCoreLocalMem core a = a
  /-- No other local address of either core has the same system address. -/
  injective : LocalAddress a → ∀ core' a', LocalAddress a' →
    coreLocalMemToSysAddress core' a' = coreLocalMemToSysAddress core a → core' = core ∧ a' = a

/-- The maps do their work on DLM addresses, and on core 0 everywhere but in the ILM.

Only the DLM is tested for on the way back, so no ILM address comes back; and the offset of a core
is taken off before that test, so that on core 1 every address that is no alias comes back moved
by it.  On core 0 the offset is zero. -/
theorem addressMaps_iff (core : HpmCore) (a : BitVec 32) :
    AddressMaps core a ↔
      AddressInDlm a ∨ SystemAlias core a ∨ (core = .core0 ∧ ¬ AddressInIlm a) := by
  constructor
  · intro h
    by_cases hdlm : AddressInDlm a
    · exact Or.inl hdlm
    by_cases halias : SystemAlias core a
    · exact Or.inr (Or.inl halias)
    have hilm : ¬ AddressInIlm a := by
      intro hilm
      have hinv := h.inverse (Or.inl (Or.inl hilm))
      rw [sysAddress_roundTrip_ilm hilm] at hinv
      exact ilmToSystem_ne a hinv
    refine Or.inr (Or.inr ⟨?_, hilm⟩)
    have hid := (h.identity (fun hl => hl.elim hilm hdlm) halias).2
    rw [sysAddressToCoreLocalMem_of_not_alias halias] at hid
    exact (sub_coreOffset_eq_iff core a).mp hid
  · intro h
    refine ⟨fun hwhere => ?_, fun hlocal halias => ?_, fun hlocal core' a' hlocal' heq =>
      coreLocalMemToSysAddress_inj hlocal hlocal' heq⟩
    · rcases h with h | h | ⟨rfl, h⟩
      · exact sysAddress_roundTrip_dlm h
      · exact absurd h (hwhere.elim not_systemAlias_of_local id)
      · exact sysAddress_roundTrip_core0 h hwhere
    · have hdlm : ¬ AddressInDlm a := fun h => hlocal (Or.inr h)
      obtain ⟨rfl, -⟩ := (h.resolve_left hdlm).resolve_left halias
      refine ⟨coreLocalMemToSysAddress_of_not_local hlocal, ?_⟩
      rw [sysAddressToCoreLocalMem_of_not_alias halias]
      exact BitVec.sub_zero a

/-- The ILM of core 0 is not mapped back, and core 1 loses every other address. -/
theorem addressMaps_fails :
    ¬ AddressMaps .core0 0x100 ∧ ¬ AddressMaps .core1 0x100 ∧ ¬ AddressMaps .core1 0x40000000 := by
  refine ⟨fun h => ?_, fun h => ?_, fun h => ?_⟩
  · exact absurd (h.inverse (Or.inl (by decide))) (by decide)
  · exact absurd (h.inverse (Or.inl (by decide))) (by decide)
  · exact absurd (h.inverse (Or.inr (by decide))) (by decide)

end HpmSdk.Soc
