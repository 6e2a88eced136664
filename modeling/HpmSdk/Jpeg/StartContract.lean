import HpmSdk.Jpeg.Start

set_option autoImplicit false

/-!
# JPEG: the sizes of a job

The check of the size is by remainders: it lets a size of 0 pass, and the format behind the table.
The bytes of an image and of a line go into fields of 16 bits, which the check does not know.

Each number that is computed has a lemma with its exact value; where one may wrap, or be cut by its
field, is then read off.
-/

namespace HpmSdk.Jpeg

open HpmSdk.Foundation

/-! ## The contract -/

namespace JpegSampling

variable (sampling : JpegSampling)

/-- The pixels of a macro block. -/
def blockPixels : Nat := sampling.hy.toNat * 8 * (sampling.vy.toNat * 8)

/-- The bytes of a macro block: 64 for each of its blocks. -/
def blockBytes : Nat :=
  (sampling.hy.toNat * sampling.vy.toNat + 2 * sampling.hc.toNat * sampling.vc.toNat) * 64

end JpegSampling

/-- The bytes of a pixel. -/
def jpegPixelBytes (pixelFormat : BitVec 8) : Nat :=
  if pixelFormat = jpegPixelFormatArgb8888 then 4 else 2

/-- What is asked of an accepted job, with the DMA register of the side that has the pixels. -/
structure JpegProgrammed (config : JpegJobConfig) (pixelFormat : BitVec 8) (ctrl0 : BitVec 32)
    (regs : JpegRegs) (sampling : JpegSampling) : Prop where
  format : jpegSupportedSampling[config.jpegFormat.toNat]? = some sampling
  width : 0 < config.widthInPixel.toNat
  height : 0 < config.heightInPixel.toNat
  count : (config.macroBlockCount sampling).toNat * sampling.blockPixels =
    config.widthInPixel.toNat * config.heightInPixel.toNat
  nmcu : (imgreg2Nmcu.get regs.imgreg2).toNat + 1 = (config.macroBlockCount sampling).toNat
  computed : (config.totalBytes sampling).toNat =
    (config.macroBlockCount sampling).toNat * sampling.blockBytes
  total : dmaCtrl0Ttlen.get ctrl0 = config.totalBytes sampling
  output : dmaCtrl0Ttlen.get regs.outdmaCtrl0 = config.totalBytes sampling
  pitchComputed : (config.pitch pixelFormat).toNat =
    config.widthInPixel.toNat * jpegPixelBytes pixelFormat
  pitch : dmaCtrl0Pitch.get ctrl0 = config.pitch pixelFormat

/-- What is asked of the start of a job: it has a result, what it accepts is programmed, and what
it rejects leaves the registers. -/
structure JpegStartMeets (regs : JpegRegs) (config : JpegJobConfig) (pixelFormat : BitVec 8)
    (ctrl0 : JpegRegs → BitVec 32) (r : Option (HpmStat × JpegRegs)) : Prop where
  returns : r.isSome
  accepted : ∀ regs', r = some (.success, regs') →
    ∃ sampling, JpegProgrammed config pixelFormat (ctrl0 regs') regs' sampling
  rejected : ∀ stat regs', r = some (stat, regs') → stat ≠ .success → regs' = regs

namespace JpegJobConfig

variable (config : JpegJobConfig) (pixelFormat : BitVec 8) (sampling : JpegSampling)

/-- The image is whole macro blocks. -/
def Aligned : Prop :=
  config.widthInPixel.toNat % (sampling.hy.toNat * 8) = 0 ∧
    config.heightInPixel.toNat % (sampling.vy.toNat * 8) = 0

instance : Decidable (config.Aligned sampling) := inferInstanceAs (Decidable (_ ∧ _))

/-- The image has pixels, and the bytes of it and of a line fit 16 bits. -/
def ImageFits : Prop :=
  0 < config.widthInPixel.toNat ∧ 0 < config.heightInPixel.toNat ∧
    config.widthInPixel.toNat * config.heightInPixel.toNat *
        (sampling.hy.toNat * sampling.vy.toNat + 2 * sampling.hc.toNat * sampling.vc.toNat) <
      2 ^ dmaCtrl0Ttlen.width * (sampling.hy.toNat * sampling.vy.toNat) ∧
    config.widthInPixel.toNat * jpegPixelBytes pixelFormat < 2 ^ dmaCtrl0Pitch.width

instance : Decidable (config.ImageFits pixelFormat sampling) :=
  inferInstanceAs (Decidable (_ ∧ _ ∧ _ ∧ _))

/-- The jobs that are right: the format is beyond the one behind the table, or it is in the table
and the image is not whole macro blocks or fits. -/
def JobFits : Prop :=
  jpegSupportedSampling.length < config.jpegFormat.toNat ∨
    ∃ sampling, jpegSupportedSampling[config.jpegFormat.toNat]? = some sampling ∧
      (config.Aligned sampling → config.ImageFits pixelFormat sampling)

end JpegJobConfig

/-! ## Macro blocks -/

section Sampling

variable {sampling : JpegSampling}

/-- The samplings have one or two blocks in each direction, and their bytes do not overflow. -/
theorem sampling_bounds : ∀ sampling ∈ jpegSupportedSampling,
    (0 < sampling.hy.toNat ∧ 0 < sampling.vy.toNat) ∧
      sampling.macroBlockBytes.toNat = sampling.blockBytes := by
  decide

theorem setWidth_eight (x : BitVec 2) : (x.setWidth 32 * 8).toNat = x.toNat * 8 := by
  revert x
  decide

theorem setWidth_shift (x : BitVec 2) : (x.setWidth 32 <<< 3).toNat = x.toNat * 8 := by
  revert x
  decide

/-- The sizes of a pixel, in bytes. -/
theorem jpegGetPixelSize_toNat (pixelFormat : BitVec 8) :
    (jpegGetPixelSize pixelFormat).toNat = jpegPixelBytes pixelFormat := by
  unfold jpegGetPixelSize jpegPixelBytes
  rw [apply_ite BitVec.toNat]
  rfl

theorem jpegPixelBytes_le (pixelFormat : BitVec 8) : jpegPixelBytes pixelFormat ≤ 4 := by
  unfold jpegPixelBytes
  split <;> decide

end Sampling

namespace JpegJobConfig

variable {config : JpegJobConfig} {sampling : JpegSampling}

theorem width_toNat : config.width.toNat = config.widthInPixel.toNat :=
  BitVec.toNat_setWidth_of_le (by decide)

theorem height_toNat : config.height.toNat = config.heightInPixel.toNat :=
  BitVec.toNat_setWidth_of_le (by decide)

/-- The rows and columns of macro blocks are below `2 ^ 13`. -/
theorem blocks_lt (x : BitVec 16) {n : Nat} (hn : 0 < n) : x.toNat / (n * 8) < 2 ^ 13 := by
  rw [Nat.div_lt_iff_lt_mul (by omega)]
  have hx := x.isLt
  have h8 : 8 ≤ n * 8 := by omega
  calc x.toNat < 2 ^ 13 * 8 := hx
    _ ≤ 2 ^ 13 * (n * 8) := Nat.mul_le_mul_left _ h8

/-- The rows times the columns. -/
theorem macroBlockCount_toNat (hmem : sampling ∈ jpegSupportedSampling) :
    (config.macroBlockCount sampling).toNat =
        config.widthInPixel.toNat / (sampling.hy.toNat * 8) *
          (config.heightInPixel.toNat / (sampling.vy.toNat * 8)) ∧
      (config.macroBlockCount sampling).toNat < 2 ^ 26 := by
  obtain ⟨⟨hhy, hvy⟩, -⟩ := sampling_bounds sampling hmem
  have hlt : config.widthInPixel.toNat / (sampling.hy.toNat * 8) *
      (config.heightInPixel.toNat / (sampling.vy.toNat * 8)) < 2 ^ 13 * 2 ^ 13 :=
    Nat.mul_lt_mul'' (blocks_lt _ hhy) (blocks_lt _ hvy)
  have heq : (config.macroBlockCount sampling).toNat =
      config.widthInPixel.toNat / (sampling.hy.toNat * 8) *
        (config.heightInPixel.toNat / (sampling.vy.toNat * 8)) := by
    unfold macroBlockCount jpegCalculateMacroBlockCount
    rw [BitVec.toNat_mul, BitVec.toNat_udiv, BitVec.toNat_udiv, setWidth_shift, setWidth_shift,
      width_toNat, height_toNat]
    exact Nat.mod_eq_of_lt (hlt.trans (by decide))
  exact ⟨heq, heq ▸ hlt⟩

/-- The pixels of whole macro blocks are those of the image. -/
theorem count_mul_blockPixels (hmem : sampling ∈ jpegSupportedSampling)
    (haligned : config.Aligned sampling) :
    (config.macroBlockCount sampling).toNat * sampling.blockPixels =
      config.widthInPixel.toNat * config.heightInPixel.toNat := by
  have hw := Nat.div_mul_cancel (Nat.dvd_of_mod_eq_zero haligned.1)
  have hh := Nat.div_mul_cancel (Nat.dvd_of_mod_eq_zero haligned.2)
  rw [(macroBlockCount_toNat hmem).1, JpegSampling.blockPixels, Nat.mul_mul_mul_comm, hw, hh]

/-- The bytes of the image, by its pixels. -/
theorem total_lt_iff (hmem : sampling ∈ jpegSupportedSampling)
    (haligned : config.Aligned sampling) (n : Nat) :
    (config.macroBlockCount sampling).toNat * sampling.blockBytes < n ↔
      config.widthInPixel.toNat * config.heightInPixel.toNat *
          (sampling.hy.toNat * sampling.vy.toNat + 2 * sampling.hc.toNat * sampling.vc.toNat) <
        n * (sampling.hy.toNat * sampling.vy.toNat) := by
  obtain ⟨⟨hhy, hvy⟩, -⟩ := sampling_bounds sampling hmem
  have hblocks : 0 < sampling.hy.toNat * sampling.vy.toNat := Nat.mul_pos hhy hvy
  have hpixels : sampling.blockPixels = 64 * (sampling.hy.toNat * sampling.vy.toNat) := by
    unfold JpegSampling.blockPixels
    ring
  rw [← count_mul_blockPixels hmem haligned, hpixels, ← Nat.mul_lt_mul_right hblocks]
  unfold JpegSampling.blockBytes
  refine iff_of_eq (congrArg (· < _) ?_)
  ring

/-- An image with pixels has a macro block. -/
theorem count_pos (hmem : sampling ∈ jpegSupportedSampling) (haligned : config.Aligned sampling)
    (hw : 0 < config.widthInPixel.toNat) (hh : 0 < config.heightInPixel.toNat) :
    0 < (config.macroBlockCount sampling).toNat := by
  have hcount := count_mul_blockPixels hmem haligned
  have hpixels := Nat.mul_pos hw hh
  rw [← hcount] at hpixels
  exact Nat.pos_of_mul_pos_right hpixels

/-- A line never wraps: it has at most four bytes for each of its pixels. -/
theorem pitch_toNat (pixelFormat : BitVec 8) : (config.pitch pixelFormat).toNat =
    config.widthInPixel.toNat * jpegPixelBytes pixelFormat := by
  unfold pitch
  rw [BitVec.toNat_mul, width_toNat, jpegGetPixelSize_toNat]
  refine Nat.mod_eq_of_lt ?_
  have hw := config.widthInPixel.isLt
  have hle := Nat.mul_le_mul hw.le (jpegPixelBytes_le pixelFormat)
  omega

/-- The bytes of all macro blocks, cut to 32 bits. -/
theorem totalBytes_toNat (hmem : sampling ∈ jpegSupportedSampling) :
    (config.totalBytes sampling).toNat =
      (config.macroBlockCount sampling).toNat * sampling.blockBytes % 2 ^ 32 := by
  unfold totalBytes
  rw [BitVec.toNat_mul, (sampling_bounds sampling hmem).2]

end JpegJobConfig

/-! ## The fields -/

section Fields

/-- The two fields of the DMA register do not see each other. -/
theorem get_ctrl0 (total pitch : BitVec 32) :
    dmaCtrl0Ttlen.get (dmaCtrl0Ttlen.set total ||| dmaCtrl0Pitch.set pitch) =
        dmaCtrl0Ttlen.get (dmaCtrl0Ttlen.set total) ∧
      dmaCtrl0Pitch.get (dmaCtrl0Ttlen.set total ||| dmaCtrl0Pitch.set pitch) =
        dmaCtrl0Pitch.get (dmaCtrl0Pitch.set pitch) := by
  constructor
  · rw [RegField.get_or, RegField.get_set_of_apart pitch (by decide), BitVec.or_zero]
  · rw [RegField.get_or, RegField.get_set_of_apart total (by decide), BitVec.zero_or]

/-- A count that is not 0 goes into its field less 1. -/
theorem nmcu_of_pos {count : BitVec 32} (hpos : 0 < count.toNat) (hlt : count.toNat < 2 ^ 26) :
    (imgreg2Nmcu.get (imgreg2Nmcu.set (count - 1))).toNat + 1 = count.toNat := by
  have hone : (1 : BitVec 32) ≤ count := hpos
  have hsub : (count - 1).toNat = count.toNat - 1 := BitVec.toNat_sub_of_le hone
  rw [RegField.get_set_toNat _ (by decide), hsub, Nat.mod_eq_of_lt]
  · exact Nat.sub_add_cancel hpos
  · exact (Nat.sub_le _ _).trans_lt hlt

end Fields

/-! ## When a job is right -/

section Start

variable {regs : JpegRegs} {config : JpegJobConfig} {pixelFormat : BitVec 8}
  {ctrl0 : JpegRegs → BitVec 32} {write : JpegSampling → JpegRegs} {sampling : JpegSampling}

/-- The check of the size says whether the image is whole macro blocks. -/
theorem jpegIsValidSize_of_some
    (hsome : jpegSupportedSampling[config.jpegFormat.toNat]? = some sampling) :
    jpegIsValidSize config.jpegFormat config.width config.height =
      some (decide (config.Aligned sampling)) := by
  have hlt : config.jpegFormat.toNat < jpegSupportedSampling.length :=
    (List.getElem?_eq_some_iff.mp hsome).1
  unfold jpegIsValidSize
  rw [if_neg hlt.le.not_gt, hsome, Option.map_some]
  refine congrArg some (decide_eq_decide.mpr ?_)
  unfold JpegJobConfig.Aligned
  rw [← BitVec.toNat_inj, ← BitVec.toNat_inj, BitVec.toNat_umod, BitVec.toNat_umod,
    setWidth_eight, setWidth_eight, JpegJobConfig.width_toNat, JpegJobConfig.height_toNat]
  rfl

/-- The ways a start ends. -/
theorem jpegStart_cases (write : JpegSampling → JpegRegs) (regs : JpegRegs)
    (config : JpegJobConfig) :
    jpegSupportedSampling.length < config.jpegFormat.toNat ∧
        jpegStart write regs config = some (.invalidArgument, regs) ∨
      config.jpegFormat.toNat = jpegSupportedSampling.length ∧
        jpegStart write regs config = none ∨
      ∃ sampling, jpegSupportedSampling[config.jpegFormat.toNat]? = some sampling ∧
        jpegStart write regs config =
          if config.Aligned sampling then some (.success, write sampling)
          else some (.invalidArgument, regs) := by
  unfold jpegStart
  rcases lt_trichotomy config.jpegFormat.toNat jpegSupportedSampling.length with hlt | heq | hgt
  · have hsome := List.getElem?_eq_getElem hlt
    refine .inr (.inr ⟨_, hsome, ?_⟩)
    rw [jpegIsValidSize_of_some hsome, Option.bind_some, hsome, Option.map_some]
    simp only [decide_eq_true_eq]
  · refine .inr (.inl ⟨heq, ?_⟩)
    unfold jpegIsValidSize
    rw [if_neg heq.le.not_gt, List.getElem?_eq_none heq.ge]
    rfl
  · refine .inl ⟨hgt, ?_⟩
    unfold jpegIsValidSize
    rw [if_pos hgt]
    rfl

/-- What an accepted image needs to be programmed. -/
theorem jpegProgrammed_iff
    (hsome : jpegSupportedSampling[config.jpegFormat.toNat]? = some sampling)
    (haligned : config.Aligned sampling)
    (hnmcu : regs.imgreg2 = imgreg2Nmcu.set (config.macroBlockCount sampling - 1))
    (hctrl0 : ctrl0 regs = dmaCtrl0Ttlen.set (config.totalBytes sampling) |||
      dmaCtrl0Pitch.set (config.pitch pixelFormat))
    (hout : dmaCtrl0Ttlen.get regs.outdmaCtrl0 =
      dmaCtrl0Ttlen.get (dmaCtrl0Ttlen.set (config.totalBytes sampling))) :
    (∃ sampling, JpegProgrammed config pixelFormat (ctrl0 regs) regs sampling) ↔
      config.ImageFits pixelFormat sampling := by
  have hmem : sampling ∈ jpegSupportedSampling := List.mem_of_getElem? hsome
  have htotal := config.totalBytes_toNat hmem
  have hlt := JpegJobConfig.total_lt_iff hmem haligned (2 ^ dmaCtrl0Ttlen.width)
  obtain ⟨hgetTotal, hgetPitch⟩ :=
    get_ctrl0 (config.totalBytes sampling) (config.pitch pixelFormat)
  rw [hctrl0]
  constructor
  · rintro ⟨sampling', h⟩
    obtain rfl : sampling = sampling' := Option.some.inj (hsome.symm.trans h.format)
    refine ⟨h.width, h.height, hlt.mp ?_, ?_⟩
    · rw [← h.computed]
      exact (RegField.get_set_eq_iff _ (by decide)).mp (hgetTotal.symm.trans h.total)
    · rw [← h.pitchComputed]
      exact (RegField.get_set_eq_iff _ (by decide)).mp (hgetPitch.symm.trans h.pitch)
  · rintro ⟨hw, hh, htotalLt, hpitchLt⟩
    have hsmall := hlt.mpr htotalLt
    have hcomputed : (config.totalBytes sampling).toNat =
        (config.macroBlockCount sampling).toNat * sampling.blockBytes :=
      htotal.trans (Nat.mod_eq_of_lt (hsmall.trans (by decide)))
    have hfits : dmaCtrl0Ttlen.get (dmaCtrl0Ttlen.set (config.totalBytes sampling)) =
        config.totalBytes sampling :=
      (RegField.get_set_eq_iff _ (by decide)).mpr (hcomputed ▸ hsmall)
    have hpitch : (config.pitch pixelFormat).toNat =
        config.widthInPixel.toNat * jpegPixelBytes pixelFormat :=
      JpegJobConfig.pitch_toNat pixelFormat
    exact ⟨sampling, {
      format := hsome
      width := hw
      height := hh
      count := JpegJobConfig.count_mul_blockPixels hmem haligned
      nmcu := by
        rw [hnmcu]
        exact nmcu_of_pos (JpegJobConfig.count_pos hmem haligned hw hh)
          (JpegJobConfig.macroBlockCount_toNat hmem).2
      computed := hcomputed
      total := hgetTotal.trans hfits
      output := hout.trans hfits
      pitchComputed := hpitch
      pitch := hgetPitch.trans ((RegField.get_set_eq_iff _ (by decide)).mpr (hpitch ▸ hpitchLt)) }⟩

/-- A job that is rejected leaves the registers. -/
theorem jpegStartMeets_rejected :
    JpegStartMeets regs config pixelFormat ctrl0 (some (.invalidArgument, regs)) := by
  refine ⟨rfl, fun regs' hr => ?_, fun stat regs' hr _ => ?_⟩
  · cases hr
  · cases hr
    rfl

/-- What a format of the table asks of a job. -/
theorem jobFits_iff
    (hsome : jpegSupportedSampling[config.jpegFormat.toNat]? = some sampling) :
    config.JobFits pixelFormat ↔
      (config.Aligned sampling → config.ImageFits pixelFormat sampling) := by
  have hin : config.jpegFormat.toNat < jpegSupportedSampling.length :=
    (List.getElem?_eq_some_iff.mp hsome).1
  constructor
  · rintro (hgt | ⟨sampling', hsome', h⟩)
    · exact absurd hgt hin.le.not_gt
    · exact Option.some.inj (hsome.symm.trans hsome') ▸ h
  · exact fun h => .inr ⟨sampling, hsome, h⟩

/-- When a start is right, for what it programs. -/
theorem jpegStart_meets_iff
    (hnmcu : ∀ sampling, (write sampling).imgreg2 =
      imgreg2Nmcu.set (config.macroBlockCount sampling - 1))
    (hctrl0 : ∀ sampling, ctrl0 (write sampling) =
      dmaCtrl0Ttlen.set (config.totalBytes sampling) |||
        dmaCtrl0Pitch.set (config.pitch pixelFormat))
    (hout : ∀ sampling, dmaCtrl0Ttlen.get (write sampling).outdmaCtrl0 =
      dmaCtrl0Ttlen.get (dmaCtrl0Ttlen.set (config.totalBytes sampling))) :
    JpegStartMeets regs config pixelFormat ctrl0 (jpegStart write regs config) ↔
      config.JobFits pixelFormat := by
  rcases jpegStart_cases write regs config with
    ⟨hgt, heq⟩ | ⟨hlen, heq⟩ | ⟨sampling, hsome, heq⟩
  · rw [heq]
    exact iff_of_true jpegStartMeets_rejected (.inl hgt)
  · -- the entry behind the table
    rw [heq]
    refine iff_of_false (fun h => Bool.false_ne_true h.returns) ?_
    rintro (hgt | ⟨sampling, hsome, -⟩)
    · exact hgt.ne hlen.symm
    · exact (List.getElem?_eq_some_iff.mp hsome).1.ne hlen
  · rw [heq, jobFits_iff hsome]
    by_cases haligned : config.Aligned sampling
    · rw [if_pos haligned, ← jpegProgrammed_iff hsome haligned (hnmcu sampling) (hctrl0 sampling)
        (hout sampling)]
      constructor
      · exact fun h _ => h.accepted _ rfl
      · intro h
        refine ⟨rfl, fun regs' hr => ?_, fun stat regs' hr hne => ?_⟩
        · cases hr
          exact h haligned
        · cases hr
          exact absurd rfl hne
    · rw [if_neg haligned]
      exact iff_of_true jpegStartMeets_rejected fun h => absurd h haligned

end Start

/-- An encoding and a decoding are right for the same jobs, but for the format of the pixels.

Both set the same registers up from the same size and sampling, and differ in which side the
pixels are on.  A job is right where its format is in the table, it has macro blocks, and the
number of bytes and the pitch are not cut by their 16-bit fields; no check of the code asks for
any of these but the multiple of the macro block. -/
theorem jpegStartMeets_iff (regs : JpegRegs) (config : JpegJobConfig) (length : BitVec 32) :
    (JpegStartMeets regs config config.inPixelFormat JpegRegs.indmaCtrl0
        (jpegStartEncode regs config) ↔ config.JobFits config.inPixelFormat) ∧
      (JpegStartMeets regs config config.outPixelFormat JpegRegs.outdmaCtrl0
        (jpegStartDecode regs config length) ↔ config.JobFits config.outPixelFormat) := by
  constructor
  · exact jpegStart_meets_iff (fun _ => rfl) (fun _ => rfl) fun _ => rfl
  · refine jpegStart_meets_iff (fun _ => rfl) (fun _ => rfl) fun sampling => ?_
    exact (get_ctrl0 _ _).1

/-- A format of 5 is looked up behind the table, an image without lines is started, and 256 by 256
pixels in 4:4:4, 196608 bytes, are programmed with a length of 0. -/
theorem jpegStartMeets_broken :
    ¬ JpegStartMeets default ⟨5, 1, 0, 0, false, false, 16, 16, 0, 0⟩ 1 JpegRegs.indmaCtrl0
        (jpegStartEncode default ⟨5, 1, 0, 0, false, false, 16, 16, 0, 0⟩) ∧
      ¬ JpegStartMeets default ⟨0, 1, 0, 0, false, false, 16, 0, 0, 0⟩ 1 JpegRegs.indmaCtrl0
        (jpegStartEncode default ⟨0, 1, 0, 0, false, false, 16, 0, 0, 0⟩) ∧
      ¬ JpegStartMeets default ⟨3, 0, 2, 0, false, false, 256, 256, 0, 0⟩ 2 JpegRegs.outdmaCtrl0
        (jpegStartDecode default ⟨3, 0, 2, 0, false, false, 256, 256, 0, 0⟩ 100) := by
  refine ⟨fun h => ?_, fun h => ?_, fun h => ?_⟩
  · exact absurd h.returns (by decide)
  · obtain ⟨_, hprogrammed⟩ := h.accepted _ rfl
    exact absurd hprogrammed.height (by decide)
  · obtain ⟨sampling, hprogrammed⟩ := h.accepted _ rfl
    obtain rfl := Option.some.inj (hprogrammed.format)
    exact absurd hprogrammed.total (by decide)

end HpmSdk.Jpeg
