import HpmSdk.Foundation.Aligned
import HpmSdk.Foundation.Updates
import HpmSdk.Usb.Transfer

set_option autoImplicit false

/-!
# USB host: where `hcd_data_t` lies (`hpm_usb_host.c`, `hpm_misc.h`)

The objects of `hcd_data_t` have a local address, which the driver uses, and a system address,
which the controller uses.  In the DLM of a core the two differ.  Here are the addresses of the
objects for a place, what is found at an address, and the words that a link field holds when it
leads to the object that it means.
-/

namespace HpmSdk.Usb

open HpmSdk.Foundation HpmSdk.Soc

/-! ## Where the objects lie -/

/-- The core that runs the driver, `USB_HOST_MCU_CORE`, and the address of `_hcd_data`: it is
aligned to `USB_SOC_DCD_DATA_RAM_ADDRESS_ALIGNMENT`, and in the DLM of the core or in RAM that is
not local to it. -/
structure UsbPlace where
  core : HpmCore
  base : BitVec 32
  aligned : base.toNat % 2048 = 0
  ram : AddressInDlm base ∨ ¬ LocalAddress base ∧ ¬ SystemAlias core base

/-- The offset of a queue head in `hcd_data_t`; a queue head has 64 bytes, a descriptor 32, and
the frame list comes first. -/
def UsbNode.offset : UsbNode → Nat
  | .period i => 32 + 64 * i
  | .control i => 288 + 96 * i
  | .pool i => 864 + 64 * i

/-- The offset of a transfer descriptor. -/
def UsbQtdNode.offset : UsbQtdNode → Nat
  | .control i => 288 + 96 * i + 64
  | .pool i => 1376 + 32 * i

/-- The queue heads lie at different offsets. -/
theorem UsbNode.offset_injective : ∀ n m : UsbNode, n.offset = m.offset → n = m := by
  decide

/-- The descriptors lie at different offsets. -/
theorem UsbQtdNode.offset_injective : ∀ t u : UsbQtdNode, t.offset = u.offset → t = u := by
  decide

/-- A queue head lies in the block and is aligned to 32 bytes. -/
theorem UsbNode.offset_lt : ∀ n : UsbNode, n.offset < 2048 ∧ n.offset % 32 = 0 := by
  decide

theorem UsbQtdNode.offset_lt : ∀ t : UsbQtdNode, t.offset < 2048 ∧ t.offset % 32 = 0 := by
  decide

/-- All queue heads. -/
def usbNodes : List UsbNode :=
  (List.finRange _).map .control ++ (List.finRange _).map .period ++ (List.finRange _).map .pool

/-- All transfer descriptors. -/
def usbQtdNodes : List UsbQtdNode :=
  (List.finRange _).map .control ++ (List.finRange _).map .pool

theorem mem_usbNodes (n : UsbNode) : n ∈ usbNodes := by
  cases n <;> simp [usbNodes]

theorem mem_usbQtdNodes (t : UsbQtdNode) : t ∈ usbQtdNodes := by
  cases t <;> simp [usbQtdNodes]

namespace UsbPlace

variable (P : UsbPlace)

/-- The address of what lies at an offset. -/
def address (offset : Nat) : BitVec 32 := P.base + BitVec.ofNat 32 offset

/-- `core_local_mem_to_sys_address`. -/
def sys (a : BitVec 32) : BitVec 32 := coreLocalMemToSysAddress P.core a

/-- `sys_address_to_core_local_mem`. -/
def back (a : BitVec 32) : BitVec 32 := sysAddressToCoreLocalMem P.core a

/-- The pointer to a queue head. -/
def node (n : UsbNode) : BitVec 32 := P.address n.offset

/-- The pointer to a transfer descriptor. -/
def qtd (t : UsbQtdNode) : BitVec 32 := P.address t.offset

/-- The queue head that a pointer leads to. -/
def nodeAt (a : BitVec 32) : Option UsbNode := usbNodes.find? fun n => decide (P.node n = a)

/-- The transfer descriptor that a pointer leads to. -/
def qtdAt (a : BitVec 32) : Option UsbQtdNode :=
  usbQtdNodes.find? fun t => decide (P.qtd t = a)

/-- The transfer descriptor that the controller finds at an address. -/
def qtdAtSys (a : BitVec 32) : Option UsbQtdNode :=
  usbQtdNodes.find? fun t => decide (P.sys (P.qtd t) = a)

/-- The local and the system addresses of `hcd_data_t` differ. -/
abbrev InDlm : Prop := AddressInDlm P.base

/-- System addresses are mapped back to what they came from: the offset of core 1 comes off
every address, so that only those of the DLM come back there. -/
def MapsBack : Prop := P.InDlm ∨ P.core = .core0

instance : Decidable P.InDlm := inferInstanceAs (Decidable (_ ∧ _))

instance : Decidable P.MapsBack := inferInstanceAs (Decidable (_ ∨ _))

/-! ## Addresses -/

section Address

variable {P} {o o' : Nat}

/-- An object lies within the placed structure, without wrapping. -/
theorem address_toNat (ho : o < 2048) :
    (P.address o).toNat = P.base.toNat + o := by
  have halign := P.aligned
  have hlt := P.base.isLt
  unfold address
  rw [BitVec.toNat_add, BitVec.toNat_ofNat]
  omega

theorem address_inDlm_iff (ho : o < 2048) :
    AddressInDlm (P.address o) ↔ P.InDlm := by
  have halign := P.aligned
  unfold InDlm
  rw [addressInDlm_iff, addressInDlm_iff, address_toNat ho]
  omega

/-- Its address is a local one exactly if the structure is in the DLM. -/
theorem address_local_iff (ho : o < 2048) :
    LocalAddress (P.address o) ↔ P.InDlm := by
  have halign := P.aligned
  have hram := P.ram
  unfold LocalAddress at hram ⊢
  rw [addressInIlm_iff, addressInDlm_iff] at hram
  rw [addressInIlm_iff, address_inDlm_iff ho, address_toNat ho]
  unfold InDlm
  rw [addressInDlm_iff]
  omega

theorem not_systemAlias_address (hsys : ¬ P.InDlm) (ho : o < 2048) :
    ¬ SystemAlias P.core (P.address o) := by
  have halign := P.aligned
  have hbase := aliasBase_eq P.core
  have halias := (P.ram.resolve_left hsys).2
  rw [systemAlias_iff] at halias ⊢
  rw [address_toNat ho]
  omega

/-- Outside of the DLM the two addresses are the same. -/
theorem sys_eq_self (hsys : ¬ P.InDlm) (ho : o < 2048) :
    P.sys (P.address o) = P.address o :=
  coreLocalMemToSysAddress_of_not_local (mt (address_local_iff ho).mp hsys)

/-- A system address has the low bits of the local one. -/
theorem sys_mod (ho : o < 2048) :
    (P.sys (P.address o)).toNat % 32 = o % 32 := by
  have halign := P.aligned
  by_cases hlocal : P.InDlm
  · have hdlm := (address_inDlm_iff ho).mpr hlocal
    have hbase := aliasBase_eq P.core
    unfold sys
    rw [coreLocalMem_toNat P.core (Or.inr hdlm), if_neg (not_ilm_of_dlm hdlm), address_toNat ho]
    rw [addressInDlm_iff, address_toNat ho] at hdlm
    omega
  · rw [sys_eq_self hlocal ho, address_toNat ho]
    omega

/-- Where the map back is right a system address leads to the local one. -/
theorem back_sys (hback : P.MapsBack) (ho : o < 2048) :
    P.back (P.sys (P.address o)) = P.address o := by
  unfold back sys
  rcases hback with hlocal | hcore
  · exact sysAddress_roundTrip_dlm ((address_inDlm_iff ho).mpr hlocal)
  · by_cases hlocal : P.InDlm
    · exact sysAddress_roundTrip_dlm ((address_inDlm_iff ho).mpr hlocal)
    · have hnot := mt (address_local_iff ho).mp hlocal
      have halias := not_systemAlias_address hlocal ho
      rw [hcore] at halias ⊢
      exact sysAddress_roundTrip_core0 (fun h => hnot (Or.inl h)) (Or.inr halias)

theorem address_inj (ho : o < 2048)
    (ho' : o' < 2048) (h : P.address o = P.address o') : o = o' := by
  have hval := congrArg BitVec.toNat h
  rw [address_toNat ho, address_toNat ho'] at hval
  omega

theorem sys_inj (ho : o < 2048)
    (ho' : o' < 2048)
    (h : P.sys (P.address o) = P.sys (P.address o')) : o = o' := by
  by_cases hlocal : P.InDlm
  · have hdlm := (address_inDlm_iff ho).mpr hlocal
    have hdlm' := (address_inDlm_iff ho').mpr hlocal
    exact address_inj ho ho' (coreLocalMemToSysAddress_inj (Or.inr hdlm') (Or.inr hdlm) h).2
  · rw [sys_eq_self hlocal ho, sys_eq_self hlocal ho'] at h
    exact address_inj ho ho' h

end Address

/-! ## Objects -/

section Objects

variable {P}

/-- Different queue heads have different addresses. -/
theorem node_inj {n m : UsbNode} (h : P.node n = P.node m) : n = m :=
  UsbNode.offset_injective n m (address_inj n.offset_lt.1 m.offset_lt.1 h)

/-- Different descriptors have different addresses. -/
theorem qtd_inj {t u : UsbQtdNode} (h : P.qtd t = P.qtd u) : t = u :=
  UsbQtdNode.offset_injective t u (address_inj t.offset_lt.1 u.offset_lt.1 h)

theorem nodeAt_node (n : UsbNode) : P.nodeAt (P.node n) = some n :=
  find?_key (fun _ _ => node_inj) (mem_usbNodes n)

theorem qtdAt_qtd (t : UsbQtdNode) : P.qtdAt (P.qtd t) = some t :=
  find?_key (fun _ _ => qtd_inj) (mem_usbQtdNodes t)

theorem qtdAtSys_sys (t : UsbQtdNode) : P.qtdAtSys (P.sys (P.qtd t)) = some t := by
  refine find?_key (κ := BitVec 32) (fun u v h => ?_) (mem_usbQtdNodes t)
  exact UsbQtdNode.offset_injective u v (sys_inj u.offset_lt.1 v.offset_lt.1 h)

theorem qtd_ne_zero (t : UsbQtdNode) : P.qtd t ≠ 0 := by
  intro h
  have hval : (P.qtd t).toNat = 0 := congrArg BitVec.toNat h
  have hlow : ¬ AddressInIlm P.base := fun hilm => P.ram.elim (fun hdlm => not_ilm_of_dlm hdlm hilm)
    fun hnot => hnot.1 (Or.inl hilm)
  rw [addressInIlm_iff] at hlow
  unfold qtd at hval
  rw [address_toNat t.offset_lt.1] at hval
  omega

end Objects

end UsbPlace

/-! ## Words -/

/-- `usb_host_align32`. -/
def usbHostAlign32 (value : BitVec 32) : BitVec 32 := value &&& 0xFFFFFFE0

/-- The bit field `terminate` of a link. -/
def usbLinkTerminates (word : BitVec 32) : Bool := decide (word &&& 1 ≠ 0)

/-- `usb_qtype_qhd << USB_QHD_TYP_SHIFT`. -/
def usbQhdTyp : BitVec 32 := 1 <<< 1

/-- The address fields of `hcd_data_t`. -/
structure UsbWords where
  framelist : Fin usbHostFramelistSize → BitVec 32
  next : UsbNode → BitVec 32
  /-- `qtd_overlay.next`. -/
  overlayNext : UsbNode → BitVec 32
  /-- `p_qtd_list_head`. -/
  listHead : UsbNode → BitVec 32
  /-- `p_qtd_list_tail`. -/
  listTail : UsbNode → BitVec 32
  qtdNext : UsbQtdNode → BitVec 32

/-- The two registers that point to the lists. -/
structure UsbListRegs where
  asyncListAddr : BitVec 32
  periodicListBase : BitVec 32

namespace UsbPlace

variable (P : UsbPlace)

/-- The word of a link to a queue head: the system address, and the type. -/
def toNode (n : UsbNode) : BitVec 32 := P.sys (P.node n) ||| usbQhdTyp

/-- The word of a link that means a queue head. -/
def link (l : UsbLink) : BitVec 32 :=
  l.address.elim 0 P.toNode ||| if l.terminate then 1 else 0

/-- The word of a link that means a transfer descriptor: the system address. -/
def qtdLink (l : UsbQtdLink) : BitVec 32 :=
  l.address.elim 0 (fun t => P.sys (P.qtd t)) ||| if l.terminate then 1 else 0

/-- A pointer of the driver: the local address. -/
def pointer (t : Option UsbQtdNode) : BitVec 32 := t.elim 0 P.qtd

/-- The words for links that mean what those of a state do: system addresses in the fields that
the controller follows, local ones in the fields of the driver. -/
def words (h : UsbHcd) : UsbWords where
  framelist i := P.link (h.host.framelist i)
  next n := P.link (h.host.qhd n).next
  overlayNext n := P.qtdLink (h.queue n).overlay.next
  listHead n := P.pointer (h.queue n).listHead
  listTail n := P.pointer (h.queue n).listTail
  qtdNext t := P.qtdLink (h.qtd t).next

section Words

variable {P} {l : UsbLink} {k : UsbQtdLink}

theorem link_to (n : UsbNode) : P.link (UsbLink.to n) = P.toNode n := BitVec.or_zero

/-- The terminate bit is ored in. -/
theorem link_terminated (l : UsbLink) : P.link { l with terminate := true } = P.link l ||| 1 := by
  unfold link
  rw [BitVec.or_assoc]
  cases l.terminate <;> rfl

theorem qtdLink_terminated (k : UsbQtdLink) :
    P.qtdLink { k with terminate := true } = P.qtdLink k ||| 1 := by
  unfold qtdLink
  rw [BitVec.or_assoc]
  cases k.terminate <;> rfl

theorem qtdLink_to (t : UsbQtdNode) : P.qtdLink ⟨some t, false⟩ = P.sys (P.qtd t) :=
  BitVec.or_zero

/-- The system address of an aligned object leaves room for the type and the terminator. -/
theorem sys_aligned {o : Nat} (ho : o < 2048 ∧ o % 32 = 0) :
    P.sys (P.address o) &&& 31#32 = 0#32 :=
  (and_mask_eq_zero_iff_dvd (k := 5) _ (by decide)).mpr
    (Nat.dvd_of_mod_eq_zero ((sys_mod ho.1).trans ho.2))

/-- The five lower bits of an address are free. -/
theorem node_aligned (n : UsbNode) : P.sys (P.node n) &&& 31#32 = 0#32 := sys_aligned n.offset_lt

theorem qtd_aligned (t : UsbQtdNode) : P.sys (P.qtd t) &&& 31#32 = 0#32 := sys_aligned t.offset_lt

/-- So the address is read back without the bits of the link. -/
theorem align32_link {n : UsbNode} (hl : l.address = some n) :
    usbHostAlign32 (P.link l) = P.sys (P.node n) := by
  unfold usbHostAlign32 link toNode
  rw [hl, Option.elim_some, BitVec.or_assoc]
  refine or_tag_and_not_mask (node_aligned n) ?_
  cases l.terminate <;> decide

/-- And so is the terminate bit. -/
theorem terminates_link (l : UsbLink) : usbLinkTerminates (P.link l) = l.terminate := by
  unfold usbLinkTerminates link toNode
  cases l.address with
  | none =>
    rw [Option.elim_none]
    cases l.terminate <;> decide
  | some n =>
    rw [Option.elim_some, BitVec.or_assoc, or_tag_and (node_aligned n) (by decide)]
    cases l.terminate <;> decide

theorem align32_qtdLink {t : UsbQtdNode} (hk : k.address = some t) :
    usbHostAlign32 (P.qtdLink k) = P.sys (P.qtd t) := by
  unfold usbHostAlign32 qtdLink
  rw [hk, Option.elim_some]
  refine or_tag_and_not_mask (qtd_aligned t) ?_
  cases k.terminate <;> decide

theorem align32_qtdLink_none (hk : k.address = none) : usbHostAlign32 (P.qtdLink k) = 0 := by
  unfold usbHostAlign32 qtdLink
  rw [hk, Option.elim_none]
  cases k.terminate <;> decide

/-- `NULL` is the address of no descriptor. -/
theorem pointer_eq_zero_iff {t : Option UsbQtdNode} : P.pointer t = 0 ↔ t = none := by
  cases t with
  | none => exact iff_of_true rfl rfl
  | some t => exact iff_of_false (qtd_ne_zero t) (Option.some_ne_none t)

theorem pointer_inj {t u : Option UsbQtdNode} : P.pointer t = P.pointer u ↔ t = u := by
  refine ⟨fun h => ?_, congrArg P.pointer⟩
  cases t with
  | none => exact (pointer_eq_zero_iff.mp h.symm).symm
  | some t =>
    cases u with
    | none => exact pointer_eq_zero_iff.mp h
    | some u => exact congrArg some (qtd_inj h)

end Words

end UsbPlace

end HpmSdk.Usb
