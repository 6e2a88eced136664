import HpmSdk.Foundation.Window
import HpmSdk.Pdma.Output
import HpmSdk.Pdma.PlanesContract

set_option autoImplicit false

/-!
# PDMA: where blit, scale, flip and rotate read and write

The check of the arguments adds the width and the column in 32 bits, takes the width before a
rotation or a scaling, and asks for a bit of the width that says nothing of it being even.  It
does not look at the width of the source, and the fields of the registers are narrower than the
arguments.

Each of the three windows is an instance of `Foundation.Window`, so that a call is safe if and only
if each of its windows has its place or no pixel.
-/

namespace HpmSdk.Pdma

open HpmSdk.Foundation

/-! ## What is programmed -/

/-- The bytes of a pixel, by the field that names its format. -/
def pdmaFormatSize (format : BitVec 32) : Nat := if format = 0 then 4 else 2

/-- The window that a plane reads. -/
def PdmaPs.window (ps : PdmaPs) : Window where
  base := ps.buf.toNat
  pitch := ps.pitch.toNat
  width := (pdmaPsOrgWidth.get ps.org).toNat
  height := (pdmaPsOrgHight.get ps.org).toNat
  size := pdmaFormatSize (pdmaPsCtrlFormat.get ps.ctrl)

/-- The window that is written. -/
def PdmaOutRegs.window (r : PdmaOutRegs) : Window where
  base := r.outBuf.toNat
  pitch := r.outPitch.toNat
  width := (pdmaOutX.get r.outLrc).toNat
  height := (pdmaOutY.get r.outLrc).toNat
  size := pdmaFormatSize (pdmaOutCtrlFormat.get r.outCtrl)

/-! ## The contract -/

/-- A call of one of the functions. -/
inductive PdmaCall where
  | blit (a : PdmaArgs)
  | flipRotate (a : PdmaArgs) (flip : PdmaFlip) (rotate : PdmaRotate)
  | scale (a : PdmaArgs) (targetWidth targetHeight : BitVec 32)
  deriving DecidableEq, Repr

/-- The arguments that the functions share. -/
def PdmaCall.args : PdmaCall → PdmaArgs
  | blit a | flipRotate a _ _ | scale a _ _ => a

/-- The size of what is written. -/
def PdmaCall.size : PdmaCall → BitVec 32 × BitVec 32
  | blit a => (a.width, a.height)
  | flipRotate a _ rotate => pdmaRotatedSize a rotate
  | scale _ targetWidth targetHeight => (targetWidth, targetHeight)

/-- What a call gives. -/
def PdmaCall.run (r : PdmaRegs) : PdmaCall → Option (Except PdmaFault PdmaRegs)
  | blit a => pdmaBlit r a
  | flipRotate a flip rotate => pdmaFlipRotate r a flip rotate
  | scale a targetWidth targetHeight => pdmaScale r a targetWidth targetHeight

/-- The destination and the source of a call. -/
def PdmaArgs.dstImage (a : PdmaArgs) : Image :=
  ⟨a.dst.toNat, a.dstWidth.toNat, (displayGetPixelSizeInByte a.format).toNat⟩

def PdmaArgs.srcImage (a : PdmaArgs) : Image :=
  ⟨a.src.toNat, a.srcWidth.toNat, (displayGetPixelSizeInByte a.format).toNat⟩

/-- What is asked of the registers: row `j` of the window that is written is in row `y + j` of
the destination, from column `x` on; row `j` of the window that is read is in row `j` of the
source; and both windows of a YUV format have an even width. -/
structure PdmaSafe (a : PdmaArgs) (r : PdmaRegs) : Prop where
  dest : r.out.window.Within a.dstImage a.x.toNat a.y.toNat
  source : r.planes.src.window.Within a.srcImage 0 0
  even : displayPixelFormatIsYuvFormat a.format = true →
    r.planes.src.window.width % 2 = 0 ∧ r.out.window.width % 2 = 0

/-- A call is safe: it gives `status_invalid_argument`, or programs registers that are safe. -/
def PdmaCall.Safe (r : PdmaRegs) (call : PdmaCall) : Prop :=
  call.run r = none ∨ ∃ r', call.run r = some (.ok r') ∧ PdmaSafe call.args r'

/-- When a window has its place in an image: the pixels have a size, the address of the first
pixel has 32 bits, the row ends before the image's row, and where there is a second row the
image's row is shorter than 2^16 bytes. -/
structure PdmaFits (image : Image) (x y width height : Nat) : Prop where
  size : image.size ≠ 0
  base : image.base + (y * image.rowWidth + x) * image.size < 2 ^ 32
  width : x + width ≤ image.rowWidth
  pitch : 2 ≤ height → image.rowWidth * image.size < 2 ^ 16

/-- When a call is safe: both windows, cut to the 14 bits of their sizes, have no pixels or fit,
and the widths of a YUV format are even. -/
structure PdmaCall.Fits (call : PdmaCall) : Prop where
  dest : call.size.1.toNat % 2 ^ 14 ≠ 0 → call.size.2.toNat % 2 ^ 14 ≠ 0 →
    PdmaFits call.args.dstImage call.args.x.toNat call.args.y.toNat
      (call.size.1.toNat % 2 ^ 14) (call.size.2.toNat % 2 ^ 14)
  source : call.args.width.toNat % 2 ^ 14 ≠ 0 → call.args.height.toNat % 2 ^ 14 ≠ 0 →
    PdmaFits call.args.srcImage 0 0
      (call.args.width.toNat % 2 ^ 14) (call.args.height.toNat % 2 ^ 14)
  even : displayPixelFormatIsYuvFormat call.args.format = true →
    call.args.width.toNat % 2 = 0 ∧ call.size.1.toNat % 2 = 0

/-! ## Fields -/

/-- The bytes between two rows in the register for rows of `n` bytes. -/
structure PdmaRowPitch (pitch n : Nat) : Prop where
  lt : pitch < 2 ^ 16
  eq : n % 2 ^ 16 ≠ 0 → pitch = n % 2 ^ 16

theorem PdmaRowPitch.le {pitch n : Nat} (h : PdmaRowPitch pitch n) (hpos : 0 < n) : pitch ≤ n := by
  by_cases hzero : n % 2 ^ 16 = 0
  · have hlt := h.lt
    omega
  · rw [h.eq hzero]
    exact Nat.mod_le _ _

/-- The pitch is that of a row exactly if a row is not cut by the field. -/
theorem PdmaRowPitch.eq_iff {pitch n : Nat} (h : PdmaRowPitch pitch n) (hpos : 0 < n) :
    pitch = n ↔ n < 2 ^ 16 := by
  constructor
  · intro heq
    rw [← heq]
    exact h.lt
  · intro hlt
    rw [h.eq (by omega)]
    exact Nat.mod_eq_of_lt hlt

/-- A pitch of rows of an image, or another one where it is 0 in 16 bits. -/
theorem pdmaRowPitch (format : DisplayPixelFormat) (rowWidth other : BitVec 32) :
    PdmaRowPitch
      ((RegField.mk 0 16).set
        (if (displayGetPitchLengthInByte format rowWidth).setWidth 16 = 0 then other
          else half ((displayGetPitchLengthInByte format rowWidth).setWidth 16))).toNat
      (rowWidth.toNat * (displayGetPixelSizeInByte format).toNat) := by
  have hlength : ((displayGetPitchLengthInByte format rowWidth).setWidth 16).toNat =
      rowWidth.toNat * (displayGetPixelSizeInByte format).toNat % 2 ^ 16 := by
    unfold displayGetPitchLengthInByte displayGetPixelSizeInByte
    have hsize : (displayGetPixelSizeInBit format >>> 3).toNat < 2 ^ 32 :=
      Nat.lt_trans (BitVec.isLt _) (by decide)
    rw [BitVec.toNat_setWidth, BitVec.toNat_mul, BitVec.toNat_setWidth, Nat.mod_eq_of_lt hsize,
      Nat.mod_mod_of_dvd _ (by decide)]
  constructor
  · rw [RegField.set_zero_toNat _ 16 (by decide)]
    exact Nat.mod_lt _ (by decide)
  · intro hne
    have hne' : (displayGetPitchLengthInByte format rowWidth).setWidth 16 ≠ 0 := by
      intro h
      rw [h] at hlength
      exact hne hlength.symm
    rw [if_neg hne', RegField.set_zero_toNat _ 16 (by decide), half_toNat, hlength,
      Nat.mod_mod]

theorem half_setWidth_toNat (x : BitVec 32) : (half (x.setWidth 16)).toNat = x.toNat % 2 ^ 16 := by
  rw [half_toNat, BitVec.toNat_setWidth]

/-- The two fields of a corner, or of the size of a plane. -/
theorem get_low_or {low high : RegField} (hapart : low.Apart high) (hlow : low.first + 14 ≤ 32)
    (hwidth : low.width = 14) (x : BitVec 32) (y : BitVec 32) :
    (low.get (low.set (half (x.setWidth 16)) ||| high.set y)).toNat = x.toNat % 2 ^ 14 := by
  rw [RegField.get_or, RegField.get_set_of_apart y hapart, BitVec.or_zero,
    RegField.get_set_toNat _ (by omega), half_setWidth_toNat, hwidth,
    Nat.mod_mod_of_dvd _ (by decide)]

/-- A format fits in its field. -/
theorem get_set_pdmaPixelFormat (format : DisplayPixelFormat) :
    (RegField.mk 0 6).get ((RegField.mk 0 6).set (pdmaPixelFormat format)) =
      pdmaPixelFormat format := by
  cases format <;> decide

theorem pdmaFormatSize_pos (format : BitVec 32) : 0 < pdmaFormatSize format := by
  unfold pdmaFormatSize
  split <;> decide

/-- The pixels in memory have the size of the format where it has one. -/
theorem pdmaFormatSize_eq_iff (format : DisplayPixelFormat) :
    pdmaFormatSize (pdmaPixelFormat format) = (displayGetPixelSizeInByte format).toNat ↔
      (displayGetPixelSizeInByte format).toNat ≠ 0 := by
  cases format <;> decide

/-! ## Windows -/

/-- A window as the functions program it for an image. -/
structure PdmaProgrammed (w : Window) (image : Image) (x y width height : Nat) : Prop where
  size : w.size = image.size ↔ image.size ≠ 0
  sizePos : 0 < w.size
  base : w.base = (image.base + (y * image.rowWidth + x) * image.size) % 2 ^ 32
  width : w.width = width
  height : w.height = height
  pitch : PdmaRowPitch w.pitch (image.rowWidth * image.size)

section Windows

variable {w : Window} {image : Image} {x y width height : Nat}

/-- The window is in its place if and only if its rows are those of the image and end before these
do. -/
theorem PdmaProgrammed.placed_iff (h : PdmaProgrammed w image x y width height)
    (hwidth : width ≠ 0) : w.Placed image x y ↔ PdmaFits image x y width height := by
  constructor
  · intro hplaced
    have hsize := h.size.mp hplaced.size
    have hrow : width ≤ image.rowWidth := by
      have hle := hplaced.width
      rw [h.width] at hle
      omega
    have hpos : 0 < image.rowWidth * image.size := Nat.mul_pos (by omega) (by omega)
    constructor
    · exact hsize
    · rw [← hplaced.base, h.base]
      exact Nat.mod_lt _ (by decide)
    · rw [← h.width]
      exact hplaced.width
    · intro htwo
      rw [← h.height] at htwo
      exact (h.pitch.eq_iff hpos).mp (hplaced.pitch htwo)
  · intro hfits
    have hrow := hfits.width
    have hpos : 0 < image.rowWidth * image.size :=
      Nat.mul_pos (by omega) (Nat.pos_of_ne_zero hfits.size)
    constructor
    · exact h.size.mpr hfits.size
    · rw [h.base]
      exact Nat.mod_eq_of_lt hfits.base
    · rw [h.width]
      exact hrow
    · intro htwo
      rw [h.height] at htwo
      exact (h.pitch.eq_iff hpos).mpr (hfits.pitch htwo)

/-- A window is within its image exactly if it has no pixels or fits. -/
theorem PdmaProgrammed.within_iff (h : PdmaProgrammed w image x y width height) :
    w.Within image x y ↔ (width ≠ 0 → height ≠ 0 → PdmaFits image x y width height) := by
  have hpitch : w.size = image.size → 0 < image.rowWidth →
      w.pitch ≤ image.rowWidth * image.size := fun hsize hrow =>
    h.pitch.le (Nat.mul_pos hrow (Nat.pos_of_ne_zero (h.size.mp hsize)))
  have hbase : w.base ≤ image.base + (y * image.rowWidth + x) * image.size := by
    rw [h.base]
    exact Nat.mod_le _ _
  rw [Window.within_iff h.sizePos hbase hpitch]
  unfold Window.Empty
  rw [h.width, h.height]
  constructor
  · intro hplaced hwidth hheight
    exact (h.placed_iff hwidth).mp (hplaced fun hempty => hempty.elim hwidth hheight)
  · intro hfits hempty
    have hwidth : width ≠ 0 := fun hzero => hempty (Or.inl hzero)
    have hheight : height ≠ 0 := fun hzero => hempty (Or.inr hzero)
    exact (h.placed_iff hwidth).mpr (hfits hwidth hheight)

end Windows

/-! ## The registers behind a call -/

section Registers

variable (a : PdmaArgs)

/-- The format of the output is read back from the control register. -/
theorem get_pdmaOutCtrlFormat (config : PdmaOutputConfig) :
    pdmaOutCtrlFormat.get (pdmaConfigOutput config).outCtrl =
      pdmaPixelFormat config.pixelFormat := by
  unfold pdmaConfigOutput
  dsimp only
  simp (disch := decide) only [RegField.get_or, RegField.get_set_of_apart, BitVec.zero_or]
  exact get_set_pdmaPixelFormat config.pixelFormat

/-- The format of a plane is read back from its control register. -/
theorem get_pdmaPsCtrlFormat (plane : PdmaPlaneConfig) (pitch : BitVec 32) :
    pdmaPsCtrlFormat.get (pdmaPsRegs plane pitch).ctrl = pdmaPixelFormat plane.pixelFormat := by
  unfold pdmaPsRegs
  dsimp only
  simp (disch := decide) only [RegField.get_or, RegField.get_set_of_apart, BitVec.zero_or]
  exact get_set_pdmaPixelFormat plane.pixelFormat

theorem set_all_toNat (x : BitVec 32) : ((RegField.mk 0 32).set x).toNat = x.toNat := by
  rw [RegField.set_zero_toNat _ 32 (Nat.le_refl _)]
  exact Nat.mod_eq_of_lt x.isLt

/-- The address of the first pixel, in 32 bits. -/
theorem PdmaArgs.buffer_toNat : a.buffer.toNat =
    (a.dstImage.base + (a.y.toNat * a.dstImage.rowWidth + a.x.toNat) * a.dstImage.size) %
      2 ^ 32 := by
  have hsize : (displayGetPixelSizeInByte a.format).toNat < 2 ^ 32 :=
    Nat.lt_trans (BitVec.isLt _) (by decide)
  unfold buffer dstImage
  simp only [BitVec.toNat_add, BitVec.toNat_mul, BitVec.toNat_setWidth,
    Nat.mod_eq_of_lt hsize, Nat.mod_add_mod, Nat.add_mod_mod, Nat.mod_mul_mod]

/-- What the functions fill in the output's configuration. -/
structure PdmaArgs.IsOutput (config : PdmaOutputConfig) (width height : BitVec 32) : Prop where
  buffer : config.buffer = a.buffer
  format : config.pixelFormat = a.format
  width : config.width = width.setWidth 16
  height : config.height = height.setWidth 16
  pitch : config.pitch = (displayGetPitchLengthInByte a.format a.dstWidth).setWidth 16

/-- What the functions fill in the source plane's configuration. -/
structure PdmaArgs.IsPlaneSrc (plane : PdmaPlaneConfig) : Prop where
  buffer : plane.buffer = a.src
  format : plane.pixelFormat = a.format
  width : plane.width = a.width.setWidth 16
  height : plane.height = a.height.setWidth 16
  pitch : plane.pitch = (displayGetPitchLengthInByte a.format a.srcWidth).setWidth 16

variable {a}

/-- What the output is programmed with. -/
theorem PdmaArgs.IsOutput.programmed {config : PdmaOutputConfig} {width height : BitVec 32}
    (h : a.IsOutput config width height) :
    PdmaProgrammed (pdmaConfigOutput config).window a.dstImage a.x.toNat a.y.toNat
      (width.toNat % 2 ^ 14) (height.toNat % 2 ^ 14) := by
  have hsize : (pdmaConfigOutput config).window.size =
      pdmaFormatSize (pdmaPixelFormat a.format) := by
    show pdmaFormatSize (pdmaOutCtrlFormat.get _) = _
    rw [get_pdmaOutCtrlFormat, h.format]
  constructor
  · rw [hsize]
    exact pdmaFormatSize_eq_iff a.format
  · rw [hsize]
    exact pdmaFormatSize_pos _
  · show ((RegField.mk 0 32).set config.buffer).toNat = _
    rw [set_all_toNat, h.buffer, a.buffer_toNat]
  · show (pdmaOutX.get (pdmaOutX.set (half config.width) ||| pdmaOutY.set _)).toNat = _
    rw [h.width, get_low_or (by decide) (by decide) rfl]
  · show (pdmaOutY.get (pdmaOutX.set _ ||| pdmaOutY.set (half config.height))).toNat = _
    rw [h.height, BitVec.or_comm, get_low_or (by decide) (by decide) rfl]
  · show PdmaRowPitch ((RegField.mk 0 16).set (pdmaOutputPitch config)).toNat _
    unfold pdmaOutputPitch
    rw [h.pitch]
    exact pdmaRowPitch a.format a.dstWidth _

/-- What the source plane is programmed with. -/
theorem PdmaArgs.IsPlaneSrc.programmed {plane : PdmaPlaneConfig} (h : a.IsPlaneSrc plane) :
    PdmaProgrammed (pdmaPsRegs plane (pdmaSrcPitch plane)).window a.srcImage 0 0
      (a.width.toNat % 2 ^ 14) (a.height.toNat % 2 ^ 14) := by
  have hsize : (pdmaPsRegs plane (pdmaSrcPitch plane)).window.size =
      pdmaFormatSize (pdmaPixelFormat a.format) := by
    show pdmaFormatSize (pdmaPsCtrlFormat.get _) = _
    rw [get_pdmaPsCtrlFormat, h.format]
  constructor
  · rw [hsize]
    exact pdmaFormatSize_eq_iff a.format
  · rw [hsize]
    exact pdmaFormatSize_pos _
  · show ((RegField.mk 0 32).set plane.buffer).toNat = (a.src.toNat + _) % 2 ^ 32
    rw [set_all_toNat, h.buffer, Nat.zero_mul, Nat.add_zero, Nat.zero_mul, Nat.add_zero,
      Nat.mod_eq_of_lt a.src.isLt]
  · show (pdmaPsOrgWidth.get
      (pdmaPsOrgHight.set _ ||| pdmaPsOrgWidth.set (half plane.width))).toNat = _
    rw [h.width, BitVec.or_comm, get_low_or (by decide) (by decide) rfl]
  · show (pdmaPsOrgHight.get
      (pdmaPsOrgHight.set (half plane.height) ||| pdmaPsOrgWidth.set _)).toNat = _
    rw [h.height, get_low_or (by decide) (by decide) rfl]
  · show PdmaRowPitch ((RegField.mk 0 16).set (pdmaSrcPitch plane)).toNat _
    unfold pdmaSrcPitch
    rw [h.pitch]
    exact pdmaRowPitch a.format a.srcWidth _

/-- Two planes of one format pass the assertions, as the coefficients are there. -/
theorem pdmaTransfer_ok (r : PdmaRegs) {planeSrc planeDst : PdmaPlaneConfig}
    {output : PdmaOutputConfig} {width height : BitVec 32} (hsrc : a.IsPlaneSrc planeSrc)
    (hdst : planeDst.pixelFormat = a.format) (hout : a.IsOutput output width height) :
    ∃ r', pdmaTransfer r a planeSrc planeDst output = .ok r' ∧
      PdmaProgrammed r'.planes.src.window a.srcImage 0 0
        (a.width.toNat % 2 ^ 14) (a.height.toNat % 2 ^ 14) ∧
      PdmaProgrammed r'.out.window a.dstImage a.x.toNat a.y.toNat
        (width.toNat % 2 ^ 14) (height.toNat % 2 ^ 14) := by
  have hformats : pdmaAssertFormats (some planeSrc) (some planeDst) = .ok () :=
    ((pdmaAssertFormats_both planeSrc planeDst).resolve_right
      fun h => h.1 fun _ _ => hsrc.format.trans hdst.symm).2
  have hpitch : ∀ dst ∈ some planeDst,
      pdmaDstPitch (some planeSrc) dst = .ok (pdmaDstPitchOf planeSrc planeDst) := by
    intro dst hmem
    rw [← Option.some.inj hmem]
    exact pdmaDstPitch_some planeSrc planeDst
  have hcoef : ∀ plane, PdmaColorspaceFits plane (some (pdmaGetDefaultYuv2rgbCoefConfig a.format)) :=
    fun _ _ _ => Or.inr rfl
  obtain ⟨planes, hok, hplane, -⟩ :=
    pdmaConfigPlanes_ok r.planes rfl (hcoef _) (hcoef _) hformats _ hpitch
  unfold pdmaTransfer
  refine ⟨_, congrArg (Except.bind · _) hok, ?_, hout.programmed⟩
  show PdmaProgrammed planes.src.window _ _ _ _ _
  rw [hplane]
  exact hsrc.programmed

/-- What a call programs: the source plane, and the output with the size of the call. -/
structure PdmaCall.Programs (call : PdmaCall) (r : PdmaRegs) : Prop where
  source : PdmaProgrammed r.planes.src.window call.args.srcImage 0 0
    (call.args.width.toNat % 2 ^ 14) (call.args.height.toNat % 2 ^ 14)
  dest : PdmaProgrammed r.out.window call.args.dstImage call.args.x.toNat call.args.y.toNat
    (call.size.1.toNat % 2 ^ 14) (call.size.2.toNat % 2 ^ 14)

/-- A call that fills its configurations from its arguments programs the windows that these
describe. -/
theorem PdmaCall.programs_of_transfer {r : PdmaRegs} {call : PdmaCall}
    {planeSrc planeDst : PdmaPlaneConfig} {output : PdmaOutputConfig}
    (hrun : call.run r = some (pdmaTransfer r call.args planeSrc planeDst output))
    (hsrc : call.args.IsPlaneSrc planeSrc) (hdst : planeDst.pixelFormat = call.args.format)
    (hout : call.args.IsOutput output call.size.1 call.size.2) :
    ∃ r', call.run r = some (.ok r') ∧ call.Programs r' := by
  obtain ⟨r', hok, hsource, hdest⟩ := pdmaTransfer_ok r hsrc hdst hout
  exact ⟨r', hrun.trans (congrArg some hok), hsource, hdest⟩

/-- A call that is not refused comes to its end. -/
theorem PdmaCall.run_ok (r : PdmaRegs) (call : PdmaCall)
    (h : pdmaInvalidArgument call.args = false) :
    ∃ r', call.run r = some (.ok r') ∧ call.Programs r' := by
  have hvalid := Bool.eq_false_iff.mp h
  cases call with
  | blit a =>
    exact programs_of_transfer (if_neg hvalid) ⟨rfl, rfl, rfl, rfl, rfl⟩ rfl
      ⟨rfl, rfl, rfl, rfl, rfl⟩
  | flipRotate a flip rotate =>
    exact programs_of_transfer (if_neg hvalid) ⟨rfl, rfl, rfl, rfl, rfl⟩ rfl
      ⟨rfl, rfl, rfl, rfl, rfl⟩
  | scale a targetWidth targetHeight =>
    exact programs_of_transfer (if_neg hvalid) ⟨rfl, rfl, rfl, rfl, rfl⟩ rfl
      ⟨rfl, rfl, rfl, rfl, rfl⟩

/-- A call whose arguments are refused writes nothing. -/
theorem PdmaCall.run_refused (r : PdmaRegs) (call : PdmaCall)
    (h : pdmaInvalidArgument call.args = true) : call.run r = none := by
  cases call <;> exact if_pos h

end Registers

/-! ## The contract -/

theorem mod_two_pow_even_iff (n : Nat) : n % 2 ^ 14 % 2 = 0 ↔ n % 2 = 0 := by
  rw [Nat.mod_mod_of_dvd _ (by decide)]

/-- The registers that a call programs are safe exactly if the call fits. -/
theorem PdmaCall.Programs.safe_iff {call : PdmaCall} {r : PdmaRegs} (h : call.Programs r) :
    PdmaSafe call.args r ↔ call.Fits := by
  constructor
  · intro hsafe
    refine ⟨h.dest.within_iff.mp hsafe.dest, h.source.within_iff.mp hsafe.source, fun hyuv => ?_⟩
    obtain ⟨hsource, hdest⟩ := hsafe.even hyuv
    rw [h.source.width] at hsource
    rw [h.dest.width] at hdest
    exact ⟨(mod_two_pow_even_iff _).mp hsource, (mod_two_pow_even_iff _).mp hdest⟩
  · intro hfits
    refine ⟨h.dest.within_iff.mpr hfits.dest, h.source.within_iff.mpr hfits.source,
      fun hyuv => ?_⟩
    obtain ⟨hsource, hdest⟩ := hfits.even hyuv
    rw [h.source.width, h.dest.width]
    exact ⟨(mod_two_pow_even_iff _).mpr hsource, (mod_two_pow_even_iff _).mpr hdest⟩

/-- A call is safe exactly if it is refused or fits.

A call that is not refused programs its output window and its source plane from the arguments as
they are (`PdmaCall.Programs`), with offsets in 32 bits, pitches cut to 16 and sizes to 14.  The
pixels that the engine then writes and reads are in the two images exactly where these cuts lose
nothing and the rows are as wide as the images allow; the guard compares the width before the
rotation or the scaling. -/
theorem pdmaCallSafe_iff (r : PdmaRegs) (call : PdmaCall) :
    call.Safe r ↔ (pdmaInvalidArgument call.args = false → call.Fits) := by
  cases hinvalid : pdmaInvalidArgument call.args with
  | true =>
    exact iff_of_true (Or.inl (call.run_refused r hinvalid)) fun h => absurd h (by decide)
  | false =>
    obtain ⟨r', hrun, hprograms⟩ := call.run_ok r hinvalid
    unfold PdmaCall.Safe
    rw [hrun]
    constructor
    · rintro (hnone | ⟨r'', heq, hsafe⟩) -
      · cases hnone
      · rw [← Except.ok.inj (Option.some.inj heq)] at hsafe
        exact hprograms.safe_iff.mp hsafe
    · intro hfits
      exact Or.inr ⟨r', rfl, hprograms.safe_iff.mpr (hfits rfl)⟩

/-- Registers that are all zero. -/
def pdmaRegsZero : PdmaRegs :=
  ⟨0, ⟨⟨0, 0, 0, 0, 0, 0, 0, 0, 0⟩, ⟨0, 0, 0, 0, 0, 0, 0, 0, 0⟩, 0, 0, 0⟩,
    ⟨0, 0, 0, 0, 0, 0, 0, 0, 0, 0, 0, 0, 0⟩⟩

/-- An image of 10 by 100 pixels that is rotated by 90 degrees is written from column 85 of a
destination of 100 columns: 100 columns are written where there are 15. -/
theorem pdmaCallSafe_rotate :
    ¬ (PdmaCall.flipRotate ⟨0x1000, 100, 0x80000, 10, 85, 0, 10, 100, 255, .argb8888⟩
      .none .degree90).Safe pdmaRegsZero := by
  rintro (hnone | ⟨r', hrun, hsafe⟩)
  · exact absurd hnone (by decide)
  · rw [← Except.ok.inj (Option.some.inj hrun)] at hsafe
    obtain ⟨column, hle, hlt, heq⟩ := hsafe.dest 15 0 (by decide) (by decide)
    have haddr : 0x1000 + (0 * 100 + column) * 4 = 0x1000 + 85 * 4 + 15 * 4 :=
      (congrArg Pixel.addr heq).symm
    have hlt : column < 100 := hlt
    omega

end HpmSdk.Pdma
