import HpmSdk.Foundation.Bits
import HpmSdk.Soc.Misc
import HpmSdk.Usb.Host

set_option autoImplicit false

/-!
# USB: queue transfer descriptors

The descriptors of the device and of the host, how `usb_qtd_init` and
`usb_host_qtd_init` fill them, and which byte range a descriptor describes: the
controller takes the first page pointer as an address and the others as the pages
that the transfer goes on in.
-/

namespace HpmSdk.Usb

open HpmSdk.Foundation HpmSdk.Soc

/-! ## Page pointers -/

/-- `USB_SOC_HCD_QTD_BUFFER_COUNT`. -/
abbrev usbSocHcdQtdBufferCount : Nat := 5

/-- `USB_SOC_DCD_QHD_BUFFER_COUNT`. -/
abbrev usbSocDcdQhdBufferCount : Nat := 5

/-- `usb_host_align4k`. -/
def usbHostAlign4k (value : BitVec 32) : BitVec 32 := value &&& 0xFFFFF000

/-- What the loop over the page pointers leaves in `buffer[k]`. -/
def usbPagePointer (buffer : BitVec 32) : Nat → BitVec 32
  | 0 => buffer
  | k + 1 => usbHostAlign4k (usbPagePointer buffer k) + 4096

/-- The page pointers of a descriptor that was cleared before; without a buffer
they stay so. -/
def usbPagePointers (n : Nat) (buffer : BitVec 32) : Fin n → BitVec 32 :=
  fun k => if buffer ≠ 0 then usbPagePointer buffer k else 0

/-! ## Results -/

/-- `xfer_result_t`. -/
inductive XferResult where
  | success
  | failed
  | stalled
  deriving DecidableEq, Repr

/-! ## Descriptors of the device -/

/-- `dcd_qtd_t`, without the status bits that only the controller sets. -/
structure DcdQtd where
  next : BitVec 32
  active : Bool
  intOnComplete : Bool
  totalBytes : BitVec 15
  expectedBytes : BitVec 16
  buffer : Fin usbSocDcdQhdBufferCount → BitVec 32

/-- `USB_SOC_DCD_QTD_NEXT_INVALID`. -/
def usbSocDcdQtdNextInvalid : BitVec 32 := 1

/-- `usb_qtd_init`. -/
def usbQtdInit (dataPtr : BitVec 32) (totalBytes : BitVec 16) : DcdQtd where
  next := usbSocDcdQtdNextInvalid
  active := true
  intOnComplete := false
  totalBytes := totalBytes.setWidth 15
  expectedBytes := totalBytes
  buffer := usbPagePointers usbSocDcdQhdBufferCount dataPtr

/-! ## Descriptors of the host -/

/-- `USB_SOC_HCD_MAX_XFER_ENDPOINT_COUNT`. -/
abbrev usbSocHcdMaxXferEndpointCount : Nat := usbSocHcdMaxEndpointCount * 2

/-- The transfer descriptors of `hcd_data_t`. -/
inductive UsbQtdNode where
  | control (i : Fin (usbHcdMaxConnectedDevices + 1))
  | pool (i : Fin usbSocHcdMaxXferEndpointCount)
  deriving DecidableEq, Repr, Fintype

/-- `hcd_link_t`, where it links transfer descriptors. -/
structure UsbQtdLink where
  address : Option UsbQtdNode
  terminate : Bool
  deriving DecidableEq, Repr

/-- `usb_pid_t`. -/
inductive UsbPid where
  | out
  | input
  | setup
  deriving DecidableEq, Repr

/-- `hcd_qtd_t`, without the alternate link, which is always terminated. -/
structure UsbQtd where
  next : UsbQtdLink
  used : Bool
  expectedBytes : BitVec 16
  pingErr : Bool
  xactErr : Bool
  babbleErr : Bool
  bufferErr : Bool
  halted : Bool
  active : Bool
  pid : UsbPid
  errCount : BitVec 2
  intOnComplete : Bool
  totalBytes : BitVec 15
  dataToggle : Bool
  buffer : Fin usbSocHcdQtdBufferCount → BitVec 32

/-- After `memset(.., 0, ..)`. -/
def UsbQtd.zero : UsbQtd where
  next := ⟨none, false⟩
  used := false
  expectedBytes := 0
  pingErr := false
  xactErr := false
  babbleErr := false
  bufferErr := false
  halted := false
  active := false
  pid := .out
  errCount := 0
  intOnComplete := false
  totalBytes := 0
  dataToggle := false
  buffer := fun _ => 0

/-- `usb_host_qtd_init`. -/
def usbHostQtdInit (buffer : BitVec 32) (totalBytes : BitVec 16) : UsbQtd :=
  { UsbQtd.zero with
    used := true
    next := ⟨none, true⟩
    active := true
    errCount := 3
    dataToggle := false
    totalBytes := totalBytes.setWidth 15
    expectedBytes := totalBytes
    buffer := usbPagePointers usbSocHcdQtdBufferCount buffer }

/-! ## What a descriptor describes -/

/-- The transfer goes on in the `k`-th page behind the one it starts in. -/
def TouchesPage (buffer : BitVec 32) (length : BitVec 16) (k : Nat) : Prop :=
  4096 * k < buffer.toNat % 4096 + length.toNat

/-- The buffer itself, then the starts of the pages that follow it. -/
def pageAddress (buffer : BitVec 32) (k : Nat) : Nat :=
  if k = 0 then buffer.toNat else 4096 * (buffer.toNat / 4096 + k)

/-- A descriptor describes the bytes of `[buffer, buffer + length)`. -/
structure DescribesRange {n : Nat} (pages : Fin n → BitVec 32) (totalBytes : BitVec 15)
    (buffer : BitVec 32) (length : BitVec 16) : Prop where
  total : totalBytes.toNat = length.toNat
  page : ∀ k : Fin n, k.val = 0 ∨ TouchesPage buffer length k →
    (pages k).toNat = pageAddress buffer k
  covers : ∀ k, TouchesPage buffer length k → k < n

/-- The range lies in the address space and in the pages that a descriptor can
point to; a null pointer comes with no further page. -/
def FitsPages (n : Nat) (buffer : BitVec 32) (length : BitVec 16) : Prop :=
  buffer.toNat % 4096 + length.toNat ≤ 4096 * n ∧ buffer.toNat + length.toNat ≤ 2 ^ 32 ∧
    (buffer = 0 → length.toNat ≤ 4096)

instance (n : Nat) (buffer : BitVec 32) (length : BitVec 16) :
    Decidable (FitsPages n buffer length) :=
  inferInstanceAs (Decidable (_ ∧ _ ∧ _))

section Pages

variable {n : Nat} {buffer : BitVec 32} {length : BitVec 16}

/-- Aligning rounds down to a page. -/
theorem usbHostAlign4k_toNat (value : BitVec 32) :
    (usbHostAlign4k value).toNat = 4096 * (value.toNat / 4096) := by
  have hmask : (0xFFFFF000 : BitVec 32).toNat = fieldMask 12 20 := rfl
  unfold usbHostAlign4k
  rw [BitVec.toNat_and, hmask, and_fieldMask, field_of_lt value.isLt]
  exact Nat.mul_comm _ _

/-- The pointers go through the pages in order, modulo the address space. -/
theorem usbPagePointer_toNat (buffer : BitVec 32) (k : Nat) :
    (usbPagePointer buffer k).toNat = pageAddress buffer k % 2 ^ 32 := by
  induction k with
  | zero => exact (Nat.mod_eq_of_lt buffer.isLt).symm
  | succ k ih =>
    have hstep : (usbPagePointer buffer (k + 1)).toNat =
        (4096 * ((usbPagePointer buffer k).toNat / 4096) + 4096) % 2 ^ 32 := by
      rw [usbPagePointer, BitVec.toNat_add, usbHostAlign4k_toNat]
      rfl
    rw [hstep, ih]
    unfold pageAddress
    rw [if_neg (Nat.succ_ne_zero k)]
    split <;> omega

/-- The pages of a buffer that does not wrap do not either. -/
theorem pageAddress_lt (hfits : buffer.toNat + length.toNat ≤ 2 ^ 32) {k : Nat}
    (hk : k = 0 ∨ TouchesPage buffer length k) : pageAddress buffer k < 2 ^ 32 := by
  have hlt := buffer.isLt
  unfold TouchesPage at hk
  unfold pageAddress
  split <;> omega

/-- The page behind the end of the address space cannot be pointed to. -/
theorem DescribesRange.in_space {pages : Fin n → BitVec 32} {totalBytes : BitVec 15}
    (h : DescribesRange pages totalBytes buffer length) :
    buffer.toNat + length.toNat ≤ 2 ^ 32 := by
  by_contra hout
  have hlt := buffer.isLt
  have htouch : TouchesPage buffer length (2 ^ 20 - buffer.toNat / 4096) := by
    unfold TouchesPage
    omega
  have hpage := h.page ⟨_, h.covers _ htouch⟩ (Or.inr htouch)
  have hvalue : pageAddress buffer (2 ^ 20 - buffer.toNat / 4096) = 2 ^ 32 := by
    unfold pageAddress
    rw [if_neg (by omega)]
    omega
  rw [hvalue] at hpage
  exact absurd hpage (Nat.ne_of_lt (BitVec.isLt _))

/-- The pointers that the two `init` functions leave describe the range where it fits. -/
theorem describesRange_iff (hn : 4096 * n < 2 ^ 15) :
    DescribesRange (usbPagePointers n buffer) (length.setWidth 15) buffer length ↔
      FitsPages n buffer length := by
  constructor
  · intro h
    refine ⟨?_, h.in_space, fun hnull => ?_⟩
    · by_contra hout
      exact absurd (h.covers n (Nat.lt_of_not_le hout)) (Nat.lt_irrefl n)
    · by_contra hlong
      have htouch : TouchesPage buffer length 1 := by
        unfold TouchesPage
        omega
      have hpage := h.page ⟨1, h.covers 1 htouch⟩ (Or.inr htouch)
      have hzero : usbPagePointers n buffer ⟨1, h.covers 1 htouch⟩ = 0 :=
        if_neg (not_not_intro hnull)
      rw [hzero] at hpage
      have hpos : 0 < pageAddress buffer 1 := by
        unfold pageAddress
        rw [if_neg Nat.one_ne_zero]
        omega
      exact absurd hpage.symm (Nat.ne_of_gt hpos)
  · rintro ⟨hpages, hspace, hnull⟩
    refine ⟨?_, fun k hk => ?_, fun k hk => ?_⟩
    · rw [BitVec.toNat_setWidth]
      exact Nat.mod_eq_of_lt (by omega)
    · unfold usbPagePointers
      split
      · rw [usbPagePointer_toNat, Nat.mod_eq_of_lt (pageAddress_lt hspace hk)]
      · rename_i hzero
        have hz : buffer = 0 := not_not.mp hzero
        have hfirst : k.val = 0 := by
          have hlen := hnull hz
          subst hz
          refine hk.elim id fun htouch => ?_
          change 4096 * k.val < 0 + length.toNat at htouch
          omega
        rw [hfirst, hz]
        rfl
    · unfold TouchesPage at hk
      omega

/-- Where the controller finds byte `i` of a transfer: the offset of the first
pointer runs on through the pages. -/
def controllerByte (pages : Fin n → BitVec 32) (offset i : Nat) : Option Nat :=
  if h : (offset + i) / 4096 < n then
    some (4096 * ((pages ⟨(offset + i) / 4096, h⟩).toNat / 4096) + (offset + i) % 4096)
  else none

/-- The bytes that a descriptor leads the controller to are those of the buffer. -/
theorem DescribesRange.byte {pages : Fin n → BitVec 32} {totalBytes : BitVec 15}
    (h : DescribesRange pages totalBytes buffer length) {i : Nat} (hi : i < totalBytes.toNat) :
    controllerByte pages (buffer.toNat % 4096) i = some (buffer.toNat + i) := by
  rw [h.total] at hi
  have htouch : TouchesPage buffer length ((buffer.toNat % 4096 + i) / 4096) := by
    unfold TouchesPage
    omega
  have hlt := h.covers _ htouch
  unfold controllerByte
  rw [dif_pos hlt, h.page ⟨_, hlt⟩ (Or.inr htouch)]
  refine congrArg some ?_
  unfold pageAddress
  split <;> dsimp only at * <;> omega

end Pages

end HpmSdk.Usb
