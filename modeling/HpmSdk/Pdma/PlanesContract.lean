import HpmSdk.Pdma.Planes

set_option autoImplicit false

/-!
# PDMA: what the registers of a plane depend on

The registers of a plane should come from its own configuration.  The assertion on the formats
reads through both pointers where one of them may be null, and the pitch of the destination
plane is taken from the width and the format of the source plane.

The four cases of which planes are given are treated one by one; what a plane owns is one lemma for
the source and one for the destination.
-/

namespace HpmSdk.Pdma

open HpmSdk.Foundation

/-! ## The contract -/

/-- The bytes of a row of a plane. -/
def PdmaPlaneConfig.byteLength (plane : PdmaPlaneConfig) : Nat :=
  plane.width.toNat * (displayGetPixelSizeInByte plane.pixelFormat).toNat

/-- Registers that come from a plane's own configuration: its pitch, or the bytes of its row. -/
structure PdmaOwn (plane : PdmaPlaneConfig) (ps : PdmaPs) : Prop where
  regs : ∃ pitch, ps = pdmaPsRegs plane pitch
  pitch : ps.pitch.toNat =
    if plane.pitch = 0 then plane.byteLength else plane.pitch.toNat

/-- Registers of a plane behind a call: its own, or those that were there where it has no
configuration. -/
def PdmaOwnOrKept (plane : Option PdmaPlaneConfig) (before after : PdmaPs) : Prop :=
  match plane with
  | some plane => PdmaOwn plane after
  | none => after = before

/-- What is asked of a call: it reads through no null pointer, and where it passes its
assertions the registers of each plane are its own. -/
structure PdmaPlanesOwn (r : PdmaPlaneRegs) (planeSrc planeDst : Option PdmaPlaneConfig)
    (yuv2rgb : Option DisplayYuv2rgbCoef) : Prop where
  noNull : pdmaConfigPlanes r planeSrc planeDst yuv2rgb ≠ .error .nullDereference
  src : ∀ r', pdmaConfigPlanes r planeSrc planeDst yuv2rgb = .ok r' →
    PdmaOwnOrKept planeSrc r.src r'.src
  dst : ∀ r', pdmaConfigPlanes r planeSrc planeDst yuv2rgb = .ok r' →
    PdmaOwnOrKept planeDst r.dst r'.dst

/-- A plane that is converted comes with the coefficients. -/
def PdmaColorspaceFits (plane : Option PdmaPlaneConfig) (yuv2rgb : Option DisplayYuv2rgbCoef) :
    Prop :=
  ∀ plane' ∈ plane, plane'.bypassColorspaceConversion = true ∨ yuv2rgb.isSome = true

/-- Two YUV planes have the same format. -/
def PdmaFormatsFit (src dst : PdmaPlaneConfig) : Prop :=
  displayPixelFormatIsYuvFormat src.pixelFormat = true →
    displayPixelFormatIsYuvFormat dst.pixelFormat = true → src.pixelFormat = dst.pixelFormat

/-- The source plane's pitch, or the bytes of its row in the field of the register. -/
def PdmaSrcPitchFits (src : PdmaPlaneConfig) : Prop := src.pitch = 0 → src.byteLength < 2 ^ 16

/-- When a call does what is asked of it: a plane alone is the source plane and no YUV plane; with
both, the destination plane has a pitch or its row is as long as that of the source plane. -/
def PdmaPlanesFit (planeSrc planeDst : Option PdmaPlaneConfig)
    (yuv2rgb : Option DisplayYuv2rgbCoef) : Prop :=
  PdmaColorspaceFits planeSrc yuv2rgb → PdmaColorspaceFits planeDst yuv2rgb →
    match planeSrc, planeDst with
    | none, none => True
    | none, some _ => False
    | some src, none =>
      displayPixelFormatIsYuvFormat src.pixelFormat = false ∧ PdmaSrcPitchFits src
    | some src, some dst =>
      PdmaFormatsFit src dst →
        PdmaSrcPitchFits src ∧ (dst.pitch = 0 → src.byteLength % 2 ^ 16 = dst.byteLength)

/-! ## Pitches -/

theorem half_toNat (x : BitVec 16) : (half x).toNat = x.toNat :=
  BitVec.toNat_setWidth_of_le (by decide)

/-- The bytes of a row, which do not wrap. -/
theorem pitchLength_toNat (plane : PdmaPlaneConfig) :
    (displayGetPitchLengthInByte plane.pixelFormat (half plane.width)).toNat =
      plane.byteLength := by
  unfold displayGetPitchLengthInByte PdmaPlaneConfig.byteLength displayGetPixelSizeInByte
  have hsize : (displayGetPixelSizeInBit plane.pixelFormat >>> 3).toNat < 2 ^ 8 := BitVec.isLt _
  have hlt : plane.width.toNat * (displayGetPixelSizeInBit plane.pixelFormat >>> 3).toNat <
      2 ^ 32 := by
    calc plane.width.toNat * (displayGetPixelSizeInBit plane.pixelFormat >>> 3).toNat
        ≤ 2 ^ 16 * 2 ^ 8 :=
          Nat.mul_le_mul (Nat.le_of_lt plane.width.isLt) (Nat.le_of_lt hsize)
      _ < 2 ^ 32 := by decide
  rw [BitVec.toNat_mul, half_toNat, BitVec.toNat_setWidth,
    Nat.mod_eq_of_lt (Nat.lt_trans hsize (by decide)), Nat.mod_eq_of_lt hlt]

/-- The registers are a plane's own exactly if the pitch is. -/
theorem pdmaOwn_pdmaPsRegs_iff {plane : PdmaPlaneConfig} {pitch : BitVec 32} :
    PdmaOwn plane (pdmaPsRegs plane pitch) ↔
      pitch.toNat % 2 ^ 16 = if plane.pitch = 0 then plane.byteLength else plane.pitch.toNat := by
  have hset : (pdmaPsRegs plane pitch).pitch.toNat = pitch.toNat % 2 ^ 16 :=
    RegField.set_zero_toNat _ 16 (by decide)
  rw [← hset]
  exact ⟨fun h => h.pitch, fun h => ⟨⟨pitch, rfl⟩, h⟩⟩

/-- Two sets of registers that are a plane's own are the same. -/
theorem PdmaOwn.unique {plane : PdmaPlaneConfig} {ps ps' : PdmaPs} (h : PdmaOwn plane ps)
    (h' : PdmaOwn plane ps') : ps = ps' := by
  obtain ⟨pitch, rfl⟩ := h.regs
  obtain ⟨pitch', rfl⟩ := h'.regs
  have hpitch : (pdmaPsRegs plane pitch).pitch = (pdmaPsRegs plane pitch').pitch :=
    BitVec.eq_of_toNat_eq (h.pitch.trans h'.pitch.symm)
  unfold pdmaPsRegs at hpitch ⊢
  rw [PdmaPs.mk.injEq]
  exact ⟨rfl, rfl, hpitch, rfl, rfl, rfl, rfl, rfl, rfl⟩

/-- The source plane has its own pitch if that fits the field. -/
theorem pdmaOwn_src_iff (src : PdmaPlaneConfig) :
    PdmaOwn src (pdmaPsRegs src (pdmaSrcPitch src)) ↔ PdmaSrcPitchFits src := by
  rw [pdmaOwn_pdmaPsRegs_iff]
  unfold pdmaSrcPitch PdmaSrcPitchFits
  by_cases hpitch : src.pitch = 0
  · rw [if_pos hpitch, if_pos hpitch, pitchLength_toNat]
    constructor
    · intro h _
      rw [← h]
      exact Nat.mod_lt _ (by decide)
    · intro h
      exact Nat.mod_eq_of_lt (h hpitch)
  · rw [if_neg hpitch, if_neg hpitch, half_toNat]
    exact iff_of_true (Nat.mod_eq_of_lt src.pitch.isLt) fun h => absurd h hpitch

/-- What the destination plane gets where there is a source plane. -/
def pdmaDstPitchOf (src dst : PdmaPlaneConfig) : BitVec 32 :=
  if dst.pitch = 0 then displayGetPitchLengthInByte src.pixelFormat (half src.width)
  else half dst.pitch

/-- With both planes given the pitch of the destination comes from the width and the format of the
source. -/
theorem pdmaDstPitch_some (src dst : PdmaPlaneConfig) :
    pdmaDstPitch (some src) dst = .ok (pdmaDstPitchOf src dst) := by
  unfold pdmaDstPitch pdmaDstPitchOf
  split <;> rfl

/-- So it is the destination's own one where it was given, or where both planes have rows of one
length. -/
theorem pdmaOwn_dst_iff (src dst : PdmaPlaneConfig) :
    PdmaOwn dst (pdmaPsRegs dst (pdmaDstPitchOf src dst)) ↔
      (dst.pitch = 0 → src.byteLength % 2 ^ 16 = dst.byteLength) := by
  rw [pdmaOwn_pdmaPsRegs_iff]
  unfold pdmaDstPitchOf
  by_cases hpitch : dst.pitch = 0
  · rw [if_pos hpitch, if_pos hpitch, pitchLength_toNat]
    exact ⟨fun h _ => h, fun h => h hpitch⟩
  · rw [if_neg hpitch, if_neg hpitch, half_toNat]
    exact iff_of_true (Nat.mod_eq_of_lt dst.pitch.isLt) fun h => absurd h hpitch

/-! ## The four kinds of calls -/

section Calls

variable (r : PdmaPlaneRegs) {src dst : PdmaPlaneConfig}
  {planeSrc planeDst : Option PdmaPlaneConfig} {yuv2rgb : Option DisplayYuv2rgbCoef}

/-- The assertion on the conversion holds or fails, and reads what is there. -/
theorem pdmaAssertColorspace_eq (plane : Option PdmaPlaneConfig) :
    (PdmaColorspaceFits plane yuv2rgb ∧ pdmaAssertColorspace plane yuv2rgb = .ok ()) ∨
      (¬ PdmaColorspaceFits plane yuv2rgb ∧
        pdmaAssertColorspace plane yuv2rgb = .error .assertion) := by
  cases plane with
  | none => exact Or.inl ⟨fun _ h => absurd h (Option.not_mem_none _), rfl⟩
  | some plane =>
    unfold PdmaColorspaceFits pdmaAssertColorspace pdmaAssert
    by_cases h : plane.bypassColorspaceConversion = true ∨ yuv2rgb.isSome = true
    · refine Or.inl ⟨fun plane' hmem => ?_, if_pos (Bool.or_eq_true_iff.mpr h)⟩
      rw [← Option.some.inj hmem]
      exact h
    · exact Or.inr ⟨fun hall => h (hall plane rfl), if_neg (mt Bool.or_eq_true_iff.mp h)⟩

theorem pdmaAssertColorspace_ok {plane : Option PdmaPlaneConfig}
    (h : PdmaColorspaceFits plane yuv2rgb) : pdmaAssertColorspace plane yuv2rgb = .ok () :=
  ((pdmaAssertColorspace_eq plane).resolve_right fun hneg => hneg.1 h).2

/-- A call stops at the assertions on the colour space where one of the planes does not come with
what it needs. -/
theorem pdmaConfigPlanes_colorspace
    (h : ¬ (PdmaColorspaceFits planeSrc yuv2rgb ∧ PdmaColorspaceFits planeDst yuv2rgb)) :
    pdmaConfigPlanes r planeSrc planeDst yuv2rgb = .error .assertion := by
  unfold pdmaConfigPlanes
  cases hnull : planeSrc.isSome || planeDst.isSome with
  | false => rfl
  | true =>
    rcases pdmaAssertColorspace_eq planeSrc with ⟨hsrc, heq⟩ | ⟨_, heq⟩
    · rcases pdmaAssertColorspace_eq planeDst with ⟨hdst, _⟩ | ⟨_, heq'⟩
      · exact absurd ⟨hsrc, hdst⟩ h
      · rw [heq, heq']
        rfl
    · rw [heq]
      rfl

/-- Behind the assertions on the colour space comes the one on the formats. -/
theorem pdmaConfigPlanes_formats (hnull : (planeSrc.isSome || planeDst.isSome) = true)
    (hsrc : PdmaColorspaceFits planeSrc yuv2rgb) (hdst : PdmaColorspaceFits planeDst yuv2rgb)
    {fault : PdmaFault} (h : pdmaAssertFormats planeSrc planeDst = .error fault) :
    pdmaConfigPlanes r planeSrc planeDst yuv2rgb = .error fault := by
  unfold pdmaConfigPlanes
  rw [pdmaAssertColorspace_ok hsrc, pdmaAssertColorspace_ok hdst, hnull, if_pos rfl, h]
  rfl

/-- A call that passes its assertions writes the registers of the planes that are configured. -/
theorem pdmaConfigPlanes_ok (hnull : (planeSrc.isSome || planeDst.isSome) = true)
    (hsrc : PdmaColorspaceFits planeSrc yuv2rgb) (hdst : PdmaColorspaceFits planeDst yuv2rgb)
    (h : pdmaAssertFormats planeSrc planeDst = .ok ()) (pitch : BitVec 32)
    (hpitch : ∀ dst ∈ planeDst, pdmaDstPitch planeSrc dst = .ok pitch) :
    ∃ r', pdmaConfigPlanes r planeSrc planeDst yuv2rgb = .ok r' ∧
      r'.src = (planeSrc.map fun src => pdmaPsRegs src (pdmaSrcPitch src)).getD r.src ∧
      r'.dst = (planeDst.map fun dst => pdmaPsRegs dst pitch).getD r.dst := by
  unfold pdmaConfigPlanes
  rw [pdmaAssertColorspace_ok hsrc, pdmaAssertColorspace_ok hdst, hnull, if_pos rfl, h]
  cases planeSrc <;> cases planeDst <;> cases yuv2rgb
  all_goals first
    | exact ⟨_, rfl, rfl, rfl⟩
    | simp only [hpitch _ rfl]
      exact ⟨_, rfl, rfl, rfl⟩

/-! ## The contract, one kind of call after the other -/

/-- A call that is stopped by an assertion does what is asked. -/
theorem PdmaPlanesOwn.of_assertion
    (h : pdmaConfigPlanes r planeSrc planeDst yuv2rgb = .error .assertion) :
    PdmaPlanesOwn r planeSrc planeDst yuv2rgb := by
  constructor
  · intro hnull
    rw [h] at hnull
    exact absurd (Except.error.inj hnull) (by decide)
  all_goals
    intro r' hok
    rw [h] at hok
    cases hok

/-- A call that reads through `NULL` does not program anything. -/
theorem PdmaPlanesOwn.of_null
    (h : pdmaConfigPlanes r planeSrc planeDst yuv2rgb = .error .nullDereference) :
    ¬ PdmaPlanesOwn r planeSrc planeDst yuv2rgb := fun hown => hown.noNull h

/-- A call that comes to its end does what is asked where both planes are as asked. -/
theorem pdmaPlanesOwn_ok_iff {r' : PdmaPlaneRegs}
    (h : pdmaConfigPlanes r planeSrc planeDst yuv2rgb = .ok r') :
    PdmaPlanesOwn r planeSrc planeDst yuv2rgb ↔
      PdmaOwnOrKept planeSrc r.src r'.src ∧ PdmaOwnOrKept planeDst r.dst r'.dst := by
  constructor
  · intro hown
    exact ⟨hown.src r' h, hown.dst r' h⟩
  · rintro ⟨hsrc, hdst⟩
    constructor
    · intro hnull
      rw [h] at hnull
      cases hnull
    · intro r'' hok
      rw [h] at hok
      rw [← Except.ok.inj hok]
      exact hsrc
    · intro r'' hok
      rw [h] at hok
      rw [← Except.ok.inj hok]
      exact hdst

/-- The destination plane alone is read through the null pointer of the source plane. -/
theorem pdmaPlanesOwn_dst (hdst : PdmaColorspaceFits (some dst) yuv2rgb) :
    ¬ PdmaPlanesOwn r none (some dst) yuv2rgb :=
  PdmaPlanesOwn.of_null r
    (pdmaConfigPlanes_formats r rfl (fun _ h => absurd h (Option.not_mem_none _)) hdst rfl)

/-- The source plane alone is compared with the null pointer where it is a YUV plane. -/
theorem pdmaPlanesOwn_src_iff (hsrc : PdmaColorspaceFits (some src) yuv2rgb) :
    PdmaPlanesOwn r (some src) none yuv2rgb ↔
      displayPixelFormatIsYuvFormat src.pixelFormat = false ∧ PdmaSrcPitchFits src := by
  have hdst : PdmaColorspaceFits none yuv2rgb := fun _ h => absurd h (Option.not_mem_none _)
  cases hyuv : displayPixelFormatIsYuvFormat src.pixelFormat with
  | true =>
    have hformats : pdmaAssertFormats (some src) none = .error .nullDereference := by
      show (if displayPixelFormatIsYuvFormat src.pixelFormat then _ else _) = _
      rw [hyuv]
      rfl
    refine iff_of_false (PdmaPlanesOwn.of_null r ?_) fun h => absurd h.1 (by decide)
    exact pdmaConfigPlanes_formats r rfl hsrc hdst hformats
  | false =>
    have hformats : pdmaAssertFormats (some src) none = .ok () := by
      show (if displayPixelFormatIsYuvFormat src.pixelFormat then _ else _) = _
      rw [hyuv]
      rfl
    obtain ⟨r', hok, hrsrc, hrdst⟩ := pdmaConfigPlanes_ok r rfl hsrc hdst hformats 0
      fun _ h => absurd h (Option.not_mem_none _)
    rw [pdmaPlanesOwn_ok_iff r hok, hrsrc, hrdst]
    show PdmaOwn src _ ∧ r.dst = r.dst ↔ _
    rw [← pdmaOwn_src_iff]
    exact ⟨fun h => ⟨rfl, h.1⟩, fun h => ⟨h.2, rfl⟩⟩

/-- With both planes given the assertion on the formats holds or fails as it should. -/
theorem pdmaAssertFormats_both (src dst : PdmaPlaneConfig) :
    (PdmaFormatsFit src dst ∧ pdmaAssertFormats (some src) (some dst) = .ok ()) ∨
      (¬ PdmaFormatsFit src dst ∧ pdmaAssertFormats (some src) (some dst) = .error .assertion) := by
  have heq : pdmaAssertFormats (some src) (some dst) =
      if displayPixelFormatIsYuvFormat src.pixelFormat then
        pdmaAssert (!displayPixelFormatIsYuvFormat dst.pixelFormat
          || src.pixelFormat == dst.pixelFormat)
      else .ok () := rfl
  unfold PdmaFormatsFit
  rw [heq]
  cases hsrc : displayPixelFormatIsYuvFormat src.pixelFormat with
  | false => exact Or.inl ⟨fun h => absurd h (by decide), rfl⟩
  | true =>
    cases hdst : displayPixelFormatIsYuvFormat dst.pixelFormat with
    | false => exact Or.inl ⟨fun _ h => absurd h (by decide), rfl⟩
    | true =>
      by_cases hformat : src.pixelFormat = dst.pixelFormat
      · exact Or.inl ⟨fun _ _ => hformat, by simp [pdmaAssert, hformat]⟩
      · exact Or.inr ⟨fun h => hformat (h rfl rfl), by simp [pdmaAssert, hformat]⟩

/-- With both planes, the destination plane's pitch decides. -/
theorem pdmaPlanesOwn_both_iff (hsrc : PdmaColorspaceFits (some src) yuv2rgb)
    (hdst : PdmaColorspaceFits (some dst) yuv2rgb) :
    PdmaPlanesOwn r (some src) (some dst) yuv2rgb ↔
      (PdmaFormatsFit src dst →
        PdmaSrcPitchFits src ∧ (dst.pitch = 0 → src.byteLength % 2 ^ 16 = dst.byteLength)) := by
  rcases pdmaAssertFormats_both src dst with ⟨hfit, hformats⟩ | ⟨hfit, hformats⟩
  · have hpitch : ∀ dst' ∈ some dst,
        pdmaDstPitch (some src) dst' = .ok (pdmaDstPitchOf src dst) := by
      intro dst' hmem
      rw [← Option.some.inj hmem]
      exact pdmaDstPitch_some src dst
    obtain ⟨r', hok, hrsrc, hrdst⟩ := pdmaConfigPlanes_ok r rfl hsrc hdst hformats _ hpitch
    rw [pdmaPlanesOwn_ok_iff r hok, hrsrc, hrdst]
    show PdmaOwn src _ ∧ PdmaOwn dst _ ↔ _
    rw [← pdmaOwn_src_iff, ← pdmaOwn_dst_iff]
    exact ⟨fun h _ => h, fun h => h hfit⟩
  · refine iff_of_true (PdmaPlanesOwn.of_assertion r ?_) fun h => absurd h hfit
    exact pdmaConfigPlanes_formats r rfl hsrc hdst hformats

/-- A call does what is asked exactly if the planes fit.

The registers of a plane are written from its own configuration but for the pitch of a destination
without one, which is computed from the source plane: it is right where both rows have the same
length, and where there is no source plane it reads through a null pointer.  The check of the
formats looks at both planes where it should look at those that there are. -/
theorem pdmaPlanesOwn_iff (r : PdmaPlaneRegs) (planeSrc planeDst : Option PdmaPlaneConfig)
    (yuv2rgb : Option DisplayYuv2rgbCoef) :
    PdmaPlanesOwn r planeSrc planeDst yuv2rgb ↔ PdmaPlanesFit planeSrc planeDst yuv2rgb := by
  unfold PdmaPlanesFit
  by_cases hfits : PdmaColorspaceFits planeSrc yuv2rgb ∧ PdmaColorspaceFits planeDst yuv2rgb
  · obtain ⟨hsrc, hdst⟩ := hfits
    refine Iff.trans ?_ ⟨fun h _ _ => h, fun h => h hsrc hdst⟩
    cases planeSrc with
    | none =>
      cases planeDst with
      | none => exact iff_of_true (PdmaPlanesOwn.of_assertion r rfl) trivial
      | some dst => exact iff_of_false (pdmaPlanesOwn_dst r hdst) id
    | some src =>
      cases planeDst with
      | none => exact pdmaPlanesOwn_src_iff r hsrc
      | some dst => exact pdmaPlanesOwn_both_iff r hsrc hdst
  · refine iff_of_true (PdmaPlanesOwn.of_assertion r (pdmaConfigPlanes_colorspace r hfits)) ?_
    intro hsrc hdst
    exact absurd ⟨hsrc, hdst⟩ hfits

end Calls

/-- A destination plane of 50 pixels of two bytes beside a source plane of 100 pixels of four
bytes gets a pitch of 400 in place of 100. -/
theorem pdmaPlanesOwn_pitch :
    ¬ PdmaPlanesOwn ⟨⟨0, 0, 0, 0, 0, 0, 0, 0, 0⟩, ⟨0, 0, 0, 0, 0, 0, 0, 0, 0⟩, 0, 0, 0⟩
      (some { pdmaGetDefaultPlaneConfig .argb8888 with width := 100, height := 10 })
      (some { pdmaGetDefaultPlaneConfig .rgb565 with width := 50, height := 10 }) none := by
  intro h
  have hown : PdmaOwn _ _ := h.dst _ rfl
  exact absurd hown.pitch (by decide)

/-! ## Two calls -/

section TwoCalls

variable {r₁ r₂ r₁' r₂' : PdmaPlaneRegs} {other₁ other₂ : Option PdmaPlaneConfig}
  {plane : PdmaPlaneConfig} {yuv2rgb₁ yuv2rgb₂ : Option DisplayYuv2rgbCoef}

/-- Calls that do what is asked give the same destination plane the same registers, whatever
they say of the source plane. -/
theorem PdmaPlanesOwn.dst_eq (h₁ : PdmaPlanesOwn r₁ other₁ (some plane) yuv2rgb₁)
    (h₂ : PdmaPlanesOwn r₂ other₂ (some plane) yuv2rgb₂)
    (hok₁ : pdmaConfigPlanes r₁ other₁ (some plane) yuv2rgb₁ = .ok r₁')
    (hok₂ : pdmaConfigPlanes r₂ other₂ (some plane) yuv2rgb₂ = .ok r₂') : r₁'.dst = r₂'.dst := by
  have hown₁ : PdmaOwn plane r₁'.dst := h₁.dst r₁' hok₁
  have hown₂ : PdmaOwn plane r₂'.dst := h₂.dst r₂' hok₂
  exact hown₁.unique hown₂

/-- And the other way round. -/
theorem PdmaPlanesOwn.src_eq (h₁ : PdmaPlanesOwn r₁ (some plane) other₁ yuv2rgb₁)
    (h₂ : PdmaPlanesOwn r₂ (some plane) other₂ yuv2rgb₂)
    (hok₁ : pdmaConfigPlanes r₁ (some plane) other₁ yuv2rgb₁ = .ok r₁')
    (hok₂ : pdmaConfigPlanes r₂ (some plane) other₂ yuv2rgb₂ = .ok r₂') : r₁'.src = r₂'.src := by
  have hown₁ : PdmaOwn plane r₁'.src := h₁.src r₁' hok₁
  have hown₂ : PdmaOwn plane r₂'.src := h₂.src r₂' hok₂
  exact hown₁.unique hown₂

end TwoCalls

end HpmSdk.Pdma
