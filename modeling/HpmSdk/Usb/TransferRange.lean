import HpmSdk.Usb.Transfer

set_option autoImplicit false

/-!
# USB: the range that a submitted transfer describes

A descriptor has five page pointers and fifteen bits for the length, and nothing
is refused or split: the three functions describe the range they are given where
it fits, and `usb_host_pipe_xfer` only where the buffer needs no mapping.

The pages of a descriptor describe a range exactly if it fits them, which is shown once for all
three.
-/

namespace HpmSdk.Usb

open HpmSdk.Soc

/-! ## Addresses of buffers -/

section Address

variable {core : HpmCore} {buffer : BitVec 32}

/-- An address is mapped to itself exactly if it is not a local one. -/
theorem coreLocalMemToSysAddress_eq_self_iff :
    coreLocalMemToSysAddress core buffer = buffer ↔ ¬ LocalAddress buffer := by
  refine ⟨fun heq hlocal => ?_, coreLocalMemToSysAddress_of_not_local⟩
  have halias := systemAlias_of_local core hlocal
  rw [heq] at halias
  exact not_systemAlias_of_local hlocal halias

theorem usbBufferAddress_eq_self_iff :
    usbBufferAddress core buffer = buffer ↔ buffer = 0 ∨ ¬ LocalAddress buffer := by
  unfold usbBufferAddress
  split
  · rename_i hnull
    rw [coreLocalMemToSysAddress_eq_self_iff]
    exact (or_iff_right hnull).symm
  · rename_i hnull
    exact iff_of_true rfl (Or.inl (not_not.mp hnull))

end Address

/-! ## The range of a filled descriptor -/

/-- Pointers made from the buffer as it is describe the range at its system address
only where that is the same. -/
theorem describesRange_unmapped_iff {n : Nat} (hpos : 0 < n) (hn : 4096 * n < 2 ^ 15)
    {buffer sys : BitVec 32} {length : BitVec 16} :
    DescribesRange (usbPagePointers n buffer) (length.setWidth 15) sys length ↔
      FitsPages n sys length ∧ sys = buffer := by
  constructor
  · intro h
    have hfirst : usbPagePointers n buffer ⟨0, hpos⟩ = buffer := by
      unfold usbPagePointers
      split
      · rfl
      · rename_i hnull
        exact (not_not.mp hnull).symm
    have hsys : sys = buffer := by
      have hpage := h.page ⟨0, hpos⟩ (Or.inl rfl)
      rw [hfirst] at hpage
      exact BitVec.eq_of_toNat_eq hpage.symm
    subst hsys
    exact ⟨(describesRange_iff hn).mp h, rfl⟩
  · rintro ⟨hfits, rfl⟩
    exact (describesRange_iff hn).mpr hfits

/-! ## Queueing leaves the descriptors' ranges alone -/

section Range

variable {h h' : UsbHcd} {n : UsbNode}

/-- Two states agree on what the descriptors describe. -/
def SameRanges (h h' : UsbHcd) : Prop :=
  ∀ t, (h'.qtd t).buffer = (h.qtd t).buffer ∧ (h'.qtd t).totalBytes = (h.qtd t).totalBytes

theorem sameRanges_setQtd {t : UsbQtdNode} {d : UsbQtd} (hbuffer : d.buffer = (h.qtd t).buffer)
    (htotal : d.totalBytes = (h.qtd t).totalBytes) : SameRanges h (h.setQtd t d) := by
  intro u
  by_cases hu : u = t
  · subst hu
    rw [UsbHcd.setQtd_self]
    exact ⟨hbuffer, htotal⟩
  · rw [UsbHcd.setQtd_of_ne _ _ hu]
    exact ⟨rfl, rfl⟩

/-- Ranges that are kept twice are kept. -/
theorem SameRanges.trans {h'' : UsbHcd} (h₁ : SameRanges h h') (h₂ : SameRanges h' h'') :
    SameRanges h h'' :=
  fun t => ⟨(h₂ t).1.trans (h₁ t).1, (h₂ t).2.trans (h₁ t).2⟩

/-- Linking a descriptor changes no range. -/
theorem usbHostQtdInsertToQhd_ranges {new : UsbQtdNode}
    (hr : usbHostQtdInsertToQhd h n new = some h') : SameRanges h h' := by
  unfold usbHostQtdInsertToQhd at hr
  split at hr
  · cases hr
    exact fun _ => ⟨rfl, rfl⟩
  · obtain ⟨tail, -, rfl⟩ := Option.map_eq_some_iff.mp hr
    have hset : SameRanges h
        (h.setQtd tail { h.qtd tail with next := ⟨some new, false⟩ }) := sameRanges_setQtd rfl rfl
    exact hset

theorem usbHostTailIoc_ranges (hr : usbHostTailIoc h n = some h') : SameRanges h h' := by
  unfold usbHostTailIoc at hr
  obtain ⟨tail, -, rfl⟩ := Option.map_eq_some_iff.mp hr
  exact sameRanges_setQtd rfl rfl

end Range

/-! ## The three functions -/

/-- The descriptor that `usb_host_edpt_xfer` fills. -/
def usbHostEdptXferQtd (h : UsbHcd) (devAddr epAddr : BitVec 8) : Option UsbQtdNode :=
  if usbEdptNumber epAddr = 0 then usbHostQtdControl devAddr else usbHostQtdFindFree h

/-- A descriptor of the state describes a range. -/
def UsbHcd.Describes (h : UsbHcd) (t : UsbQtdNode) (buffer : BitVec 32) (length : BitVec 16) :
    Prop :=
  DescribesRange (h.qtd t).buffer (h.qtd t).totalBytes buffer length

section Functions

variable {h h' : UsbHcd} {devAddr epAddr : BitVec 8} {buffer : BitVec 32} {length : BitVec 16}

/-- A transfer to an endpoint: right exactly if the mapped range fits the pages of a descriptor. -/
theorem usbHostEdptXfer_describes_iff {mcu : HpmCore}
    (hr : usbHostEdptXfer mcu h devAddr epAddr buffer length = some (true, h')) :
    ∃ t, usbHostEdptXferQtd h devAddr epAddr = some t ∧
      (h'.Describes t (usbBufferAddress mcu buffer) length ↔
        FitsPages usbSocHcdQtdBufferCount (usbBufferAddress mcu buffer) length) := by
  unfold usbHostEdptXfer at hr
  unfold usbHostEdptXferQtd
  dsimp only at hr
  split at hr
  · rename_i hcontrol
    obtain ⟨n, -, hr⟩ := Option.bind_eq_some_iff.mp hr
    obtain ⟨t, ht, hr⟩ := Option.map_eq_some_iff.mp hr
    cases hr
    refine ⟨t, by rw [if_pos hcontrol, ht], ?_⟩
    unfold UsbHcd.Describes usbHostControlXfer usbHostAttach
    rw [UsbHcd.setQueue_qtd, UsbHcd.setQueue_qtd, UsbHcd.setQtd_self]
    exact describesRange_iff (by decide)
  · rename_i hcontrol
    split at hr
    · rename_i n t hn ht
      obtain ⟨h₁, hins, hr⟩ := Option.bind_eq_some_iff.mp hr
      obtain ⟨h₂, htail, hr⟩ := Option.map_eq_some_iff.mp hr
      cases hr
      refine ⟨t, by rw [if_neg hcontrol, ht], ?_⟩
      have hsame := (usbHostQtdInsertToQhd_ranges hins).trans (usbHostTailIoc_ranges htail) t
      unfold UsbHcd.Describes usbHostAttach
      rw [UsbHcd.setQueue_qtd, hsame.1, hsame.2, UsbHcd.setQtd_self]
      exact describesRange_iff (by decide)
    · cases hr

/-- A transfer to a pipe: right exactly if, besides, the buffer needs no mapping. -/
theorem usbHostPipeXfer_describes_iff (mcu : HpmCore) {intOnComplete : Bool}
    (hr : usbHostPipeXfer h devAddr epAddr buffer length intOnComplete = some (true, h')) :
    ∃ t, usbHostQtdFindFree h = some t ∧
      (h'.Describes t (usbBufferAddress mcu buffer) length ↔
        FitsPages usbSocHcdQtdBufferCount (usbBufferAddress mcu buffer) length ∧
          (buffer = 0 ∨ ¬ LocalAddress buffer)) := by
  unfold usbHostPipeXfer at hr
  obtain ⟨⟨b, h₁⟩, hqueue, hr⟩ := Option.bind_eq_some_iff.mp hr
  split at hr
  · rename_i n h₂ m heq hm
    cases heq
    obtain ⟨h₃, hioc, hr⟩ := Option.map_eq_some_iff.mp hr
    cases hr
    unfold usbHostPipeQueueXfer at hqueue
    split at hqueue
    · rename_i n' t hn ht
      obtain ⟨h₄, hins, hqueue⟩ := Option.map_eq_some_iff.mp hqueue
      cases hqueue
      have hlast : SameRanges h₁ h₃ := by
        split at hioc
        · exact usbHostTailIoc_ranges hioc
        · cases hioc
          exact fun _ => ⟨rfl, rfl⟩
      have hsame := (usbHostQtdInsertToQhd_ranges hins).trans hlast t
      refine ⟨t, ht, ?_⟩
      unfold UsbHcd.Describes usbHostAttach
      rw [UsbHcd.setQueue_qtd, hsame.1, hsame.2, UsbHcd.setQtd_self,
        ← usbBufferAddress_eq_self_iff]
      exact describesRange_unmapped_iff (by decide) (by decide)
    · cases hqueue
  · cases hr

/-- A transfer of the device: right exactly if the mapped range fits the pages of a descriptor. -/
theorem usbDeviceEdptXfer_describes_iff {d d' : DcdData}
    (hr : usbDeviceEdptXfer d epAddr buffer length = some (true, d')) :
    ∃ i : Fin usbSocDcdMaxQtdCount, i.val = usbDeviceEpIdx epAddr ∧
      (DescribesRange (d'.qtd i).buffer (d'.qtd i).totalBytes (usbBufferAddress .core0 buffer)
          length ↔
        FitsPages usbSocDcdQhdBufferCount (usbBufferAddress .core0 buffer) length) := by
  unfold usbDeviceEdptXfer at hr
  split at hr
  · rename_i hlt
    cases hr
    refine ⟨⟨_, hlt⟩, rfl, ?_⟩
    dsimp only
    rw [if_pos rfl]
    exact describesRange_iff (by decide)
  · cases hr

end Functions

/-- Exactly where the descriptors of the three functions describe their range.

A descriptor has five page pointers and 15 bits of length, and nothing is split: the offset in the
first page and the length together have to fit, and then they fit the 15 bits too.  The pointers
follow each other by pages from the address that was stored, so the one function that does not map
its buffer needs a buffer that mapping leaves alone. -/
theorem usbXfer_describes_iff (mcu : HpmCore) (devAddr epAddr : BitVec 8) (buffer : BitVec 32)
    (length : BitVec 16) :
    (∀ d d', usbDeviceEdptXfer d epAddr buffer length = some (true, d') →
      ∃ i : Fin usbSocDcdMaxQtdCount, i.val = usbDeviceEpIdx epAddr ∧
        (DescribesRange (d'.qtd i).buffer (d'.qtd i).totalBytes (usbBufferAddress .core0 buffer)
            length ↔
          FitsPages usbSocDcdQhdBufferCount (usbBufferAddress .core0 buffer) length)) ∧
    (∀ h h', usbHostEdptXfer mcu h devAddr epAddr buffer length = some (true, h') →
      ∃ t, usbHostEdptXferQtd h devAddr epAddr = some t ∧
        (h'.Describes t (usbBufferAddress mcu buffer) length ↔
          FitsPages usbSocHcdQtdBufferCount (usbBufferAddress mcu buffer) length)) ∧
    ∀ h h' intOnComplete,
      usbHostPipeXfer h devAddr epAddr buffer length intOnComplete = some (true, h') →
      ∃ t, usbHostQtdFindFree h = some t ∧
        (h'.Describes t (usbBufferAddress mcu buffer) length ↔
          FitsPages usbSocHcdQtdBufferCount (usbBufferAddress mcu buffer) length ∧
            (buffer = 0 ∨ ¬ LocalAddress buffer)) :=
  ⟨fun _ _ hr => usbDeviceEdptXfer_describes_iff hr,
    fun _ _ hr => usbHostEdptXfer_describes_iff hr,
    fun _ _ _ hr => usbHostPipeXfer_describes_iff mcu hr⟩

/-- A host with one bulk endpoint of device 1 and no transfer. -/
def usbOneEndpoint : UsbHcd where
  host := ((usbHostEdptOpen usbHostInit 1 .high ⟨0x81, .bulk, 0⟩).map Prod.snd).getD usbHostInit
  queue := fun _ => UsbQueue.zero
  qtd := fun _ => UsbQtd.zero

/-- A device with no transfer. -/
def dcdDataZero : DcdData where
  qtd := fun _ => usbQtdInit 0 0
  overlayNext := fun _ => none

theorem usbXfer_describes_iff_fits :
    (∃ d' i, usbDeviceEdptXfer dcdDataZero 0x81 0x40000010 0x4000 = some (true, d') ∧
      DescribesRange (d'.qtd i).buffer (d'.qtd i).totalBytes 0x40000010 0x4000) ∧
    (∃ h' t, usbHostEdptXfer .core0 usbOneEndpoint 1 0x81 0x40000010 0x4000 = some (true, h') ∧
      h'.Describes t 0x40000010 0x4000) ∧
    ∃ h' t, usbHostPipeXfer usbOneEndpoint 1 0x81 0x40000010 0x4000 true = some (true, h') ∧
      h'.Describes t 0x40000010 0x4000 := by
  obtain ⟨hdevice, hhost, hpipe⟩ := usbXfer_describes_iff .core0 1 0x81 0x40000010 0x4000
  obtain ⟨i, -, hi⟩ := hdevice dcdDataZero _ rfl
  obtain ⟨t, -, ht⟩ := hhost usbOneEndpoint _ rfl
  obtain ⟨t', -, ht'⟩ := hpipe usbOneEndpoint _ true rfl
  exact ⟨⟨_, i, rfl, hi.mpr (by decide)⟩, ⟨_, t, rfl, ht.mpr (by decide)⟩,
    ⟨_, t', rfl, ht'.mpr (by decide)⟩⟩

/-- 20480 bytes from an odd address reach into a sixth page; 32768 bytes leave a
length of zero; a buffer in the local RAM of core 0 goes out as a local address. -/
theorem usbXfer_describes_short :
    (∃ d', usbDeviceEdptXfer dcdDataZero 0x81 0x40000001 0x5000 = some (true, d') ∧
      ∃ i, i.val = usbDeviceEpIdx 0x81 ∧
        ¬ DescribesRange (d'.qtd i).buffer (d'.qtd i).totalBytes 0x40000001 0x5000) ∧
    (∃ h' t, usbHostEdptXfer .core0 usbOneEndpoint 1 0x81 0x40000000 0x8000 = some (true, h') ∧
      usbHostEdptXferQtd usbOneEndpoint 1 0x81 = some t ∧ ¬ h'.Describes t 0x40000000 0x8000) ∧
    ∃ h' t, usbHostPipeXfer usbOneEndpoint 1 0x81 0x80000 8 true = some (true, h') ∧
      usbHostQtdFindFree usbOneEndpoint = some t ∧
      ¬ h'.Describes t (usbBufferAddress .core0 0x80000) 8 := by
  obtain ⟨d', hdevice⟩ : ∃ d',
      usbDeviceEdptXfer dcdDataZero 0x81 0x40000001 0x5000 = some (true, d') := ⟨_, rfl⟩
  obtain ⟨h', hhost⟩ : ∃ h',
      usbHostEdptXfer .core0 usbOneEndpoint 1 0x81 0x40000000 0x8000 = some (true, h') := ⟨_, rfl⟩
  obtain ⟨h'', hpipe⟩ : ∃ h'',
      usbHostPipeXfer usbOneEndpoint 1 0x81 0x80000 8 true = some (true, h'') := ⟨_, rfl⟩
  obtain ⟨i, hi, hdeviceIff⟩ := usbDeviceEdptXfer_describes_iff hdevice
  obtain ⟨t, ht, hhostIff⟩ := usbHostEdptXfer_describes_iff hhost
  obtain ⟨t', ht', hpipeIff⟩ := usbHostPipeXfer_describes_iff .core0 hpipe
  exact ⟨⟨d', hdevice, i, hi, fun h => absurd (hdeviceIff.mp h) (by decide)⟩,
    ⟨h', t, hhost, ht, fun h => absurd (hhostIff.mp h) (by decide)⟩,
    h'', t', hpipe, ht', fun h => absurd (hpipeIff.mp h) (by decide)⟩

end HpmSdk.Usb
