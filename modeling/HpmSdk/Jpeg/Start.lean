import HpmSdk.Common
import HpmSdk.Foundation.Registers
import Mathlib.Data.Fin.VecNotation

set_option autoImplicit false

/-!
# JPEG: the start of a job (`hpm_jpeg_drv.c`, `hpm_jpeg_drv.h`)

`jpeg_start_encode` and `jpeg_start_decode` check the size of an image by the sampling of its
format, count the macro blocks and program the two DMAs and the codec.  A format that reads the
word behind the table of samplings has no result, which is `none`.
-/

namespace HpmSdk.Jpeg

open HpmSdk.Foundation

/-! ## The registers -/

/-- `JPEG_INDMA_MISC_MAX_OT`. -/
def indmaMiscMaxOt : RegField := ⟨15, 4⟩

/-- `JPEG_INDMA_MISC_PACK_DIR`. -/
def indmaMiscPackDir : RegField := ⟨12, 2⟩

/-- `JPEG_INDMA_MISC_IN_DMA_ID`. -/
def indmaMiscInDmaId : RegField := ⟨4, 3⟩

/-- `JPEG_INDMA_MISC_IN_DMA_REQ`. -/
def indmaMiscInDmaReq : RegField := ⟨3, 1⟩

/-- `JPEG_INDMA_MISC_INDMA2D`. -/
def indmaMiscIndma2d : RegField := ⟨2, 1⟩

/-- `JPEG_INDMA_CTRL0_TTLEN`, `JPEG_OUTDMA_CTRL0_TTLEN`. -/
def dmaCtrl0Ttlen : RegField := ⟨16, 16⟩

/-- `JPEG_INDMA_CTRL0_PITCH`, `JPEG_OUTDMA_CTRL0_PITCH`. -/
def dmaCtrl0Pitch : RegField := ⟨0, 16⟩

/-- `JPEG_INDMABASE_ADDR`, `JPEG_OUTDMABASE_ADDR`. -/
def dmabaseAddr : RegField := ⟨0, 32⟩

/-- `JPEG_INXT_CMD_ADDR`, `JPEG_ONXT_CMD_ADDR`. -/
def nxtCmdAddr : RegField := ⟨2, 30⟩

/-- `JPEG_INXT_CMD_OP_VALID`, `JPEG_ONXT_CMD_OP_VALID`. -/
def nxtCmdOpValid : RegField := ⟨1, 1⟩

/-- `JPEG_OUTDMA_MISC_PACK_DIR`. -/
def outdmaMiscPackDir : RegField := ⟨12, 2⟩

/-- `JPEG_OUTDMA_MISC_EN_OUTCNT`. -/
def outdmaMiscEnOutcnt : RegField := ⟨11, 1⟩

/-- `JPEG_OUTDMA_MISC_INI_OUTCNT`. -/
def outdmaMiscIniOutcnt : RegField := ⟨10, 1⟩

/-- `JPEG_OUTDMA_MISC_ADD_ODMA_ENDINGS`. -/
def outdmaMiscAddOdmaEndings : RegField := ⟨9, 1⟩

/-- `JPEG_OUTDMA_MISC_OUT_DMA_ID`. -/
def outdmaMiscOutDmaId : RegField := ⟨4, 1⟩

/-- `JPEG_OUTDMA_MISC_OUT_DMA_REQ`. -/
def outdmaMiscOutDmaReq : RegField := ⟨3, 1⟩

/-- `JPEG_OUTDMA_MISC_OUTDMA2D`. -/
def outdmaMiscOutdma2d : RegField := ⟨2, 1⟩

/-- `JPEG_OUTDMA_CTRL1_ROWLEN`. -/
def outdmaCtrl1Rowlen : RegField := ⟨0, 16⟩

/-- `JPEG_CFG_CFG_IPATH_SEL`. -/
def cfgIpathSel : RegField := ⟨20, 2⟩

/-- `JPEG_CFG_CFG_OPATH_SEL`. -/
def cfgOpathSel : RegField := ⟨7, 2⟩

/-- `JPEG_CFG_JDATA_FORMAT`. -/
def cfgJdataFormat : RegField := ⟨4, 3⟩

/-- `JPEG_CFG_START`. -/
def cfgStart : RegField := ⟨2, 1⟩

/-- `JPEG_CFG_MODE`. -/
def cfgMode : RegField := ⟨1, 1⟩

/-- `JPEG_CFG_JPEG_EN`. -/
def cfgJpegEn : RegField := ⟨0, 1⟩

/-- `JPEG_CSC_COEF0_YCBCR_MODE`, `JPEG_RGB2YUV_COEF0_YCBCR_MODE`. -/
def coef0YcbcrMode : RegField := ⟨31, 1⟩

/-- `JPEG_CSC_COEF0_ENABLE`, `JPEG_RGB2YUV_COEF0_ENABLE`. -/
def coef0Enable : RegField := ⟨30, 1⟩

/-- `JPEG_RGB2YUV_COEF0_C0`. -/
def coef0C0 : RegField := ⟨18, 11⟩

/-- `JPEG_RGB2YUV_COEF0_UV_OFFSET`. -/
def coef0UvOffset : RegField := ⟨9, 9⟩

/-- `JPEG_RGB2YUV_COEF0_Y_OFFSET`. -/
def coef0YOffset : RegField := ⟨0, 9⟩

/-- The coefficient in the upper half of `RGB2YUV_COEF1` to `RGB2YUV_COEF4`: `C1`, `C2`, `C6`
and `C8`. -/
def coefHigh : RegField := ⟨16, 11⟩

/-- The one in the lower half: `C4`, `C3`, `C5` and `C7`. -/
def coefLow : RegField := ⟨0, 11⟩

/-- `JPEG_IMGREG1_RE`. -/
def imgreg1Re : RegField := ⟨2, 1⟩

/-- `JPEG_IMGREG1_NCOL`. -/
def imgreg1Ncol : RegField := ⟨0, 2⟩

/-- `JPEG_IMGREG2_NMCU`. -/
def imgreg2Nmcu : RegField := ⟨0, 26⟩

/-- `JPEG_IMGREG3_NRST`. -/
def imgreg3Nrst : RegField := ⟨0, 16⟩

/-- `JPEG_IMGREG_NBLOCK`. -/
def imgregNblock : RegField := ⟨4, 4⟩

/-- `JPEG_IMGREG_QT`. -/
def imgregQt : RegField := ⟨2, 2⟩

/-- `JPEG_IMGREG_HA`. -/
def imgregHa : RegField := ⟨1, 1⟩

/-- `JPEG_IMGREG_HD`. -/
def imgregHd : RegField := ⟨0, 1⟩

/-- The registers of `JPEG_Type` that the start of a job writes. -/
structure JpegRegs where
  indmaMisc : BitVec 32
  indmabase : BitVec 32
  indmaCtrl0 : BitVec 32
  inxtCmd : BitVec 32
  outdmaMisc : BitVec 32
  outdmabase : BitVec 32
  outdmaCtrl0 : BitVec 32
  outdmaCtrl1 : BitVec 32
  onxtCmd : BitVec 32
  cfg : BitVec 32
  width : BitVec 32
  height : BitVec 32
  cscCoef : Fin 3 → BitVec 32
  rgb2yuvCoef : Fin 5 → BitVec 32
  imgreg1 : BitVec 32
  imgreg2 : BitVec 32
  imgreg3 : BitVec 32
  imgreg : Fin 4 → BitVec 32
  deriving Inhabited

/-! ## The configuration -/

/-- `jpeg_job_config_t`. -/
structure JpegJobConfig where
  jpegFormat : BitVec 8
  inPixelFormat : BitVec 8
  outPixelFormat : BitVec 8
  byteOrder : BitVec 8
  enableCsc : Bool
  enableYcbcr : Bool
  widthInPixel : BitVec 16
  heightInPixel : BitVec 16
  inBuffer : BitVec 32
  outBuffer : BitVec 32

/-- `jpeg_sampling_t`: four fields of two bits. -/
structure JpegSampling where
  hy : BitVec 2
  vy : BitVec 2
  hc : BitVec 2
  vc : BitVec 2
  deriving DecidableEq, Repr

/-- `jpeg_supported_sampling`. -/
def jpegSupportedSampling : List JpegSampling :=
  [⟨2, 2, 1, 1⟩, ⟨2, 1, 1, 1⟩, ⟨1, 2, 1, 1⟩, ⟨1, 1, 1, 1⟩, ⟨1, 1, 0, 0⟩]

/-- `JPEG_SUPPORTED_FORMAT_400`. -/
def jpegSupportedFormat400 : BitVec 8 := 4

/-- `JPEG_PIXEL_FORMAT_ARGB8888`. -/
def jpegPixelFormatArgb8888 : BitVec 8 := 1

/-- `jpeg_get_pixel_size`. -/
def jpegGetPixelSize (pixelFormat : BitVec 8) : BitVec 32 :=
  if pixelFormat = jpegPixelFormatArgb8888 then 4 else 2

namespace JpegSampling

variable (sampling : JpegSampling)

/-- `hy * vy` as an `int`. -/
def lumaBlocks : BitVec 32 := sampling.hy.setWidth 32 * sampling.vy.setWidth 32

/-- `hc * vc`. -/
def chromaBlocks : BitVec 32 := sampling.hc.setWidth 32 * sampling.vc.setWidth 32

/-- `macro_block_bytes`. -/
def macroBlockBytes : BitVec 32 :=
  (sampling.lumaBlocks + 2 * sampling.hc.setWidth 32 * sampling.vc.setWidth 32) <<< 6

end JpegSampling

/-- `jpeg_is_valid_size`.  The check lets the length of the table itself pass. -/
def jpegIsValidSize (format : BitVec 8) (width height : BitVec 32) : Option Bool :=
  if format.toNat > jpegSupportedSampling.length then some false
  else jpegSupportedSampling[format.toNat]?.map fun sampling =>
    decide (width % (sampling.hy.setWidth 32 * 8) = 0 ∧
      height % (sampling.vy.setWidth 32 * 8) = 0)

/-- `jpeg_calculate_macro_block_count`. -/
def jpegCalculateMacroBlockCount (width height : BitVec 32) (sampling : JpegSampling) :
    BitVec 32 :=
  (width / (sampling.hy.setWidth 32 <<< 3)) * (height / (sampling.vy.setWidth 32 <<< 3))

namespace JpegJobConfig

variable (config : JpegJobConfig)

/-- `width_in_pixel`, widened. -/
def width : BitVec 32 := config.widthInPixel.setWidth 32

/-- `height_in_pixel`, widened. -/
def height : BitVec 32 := config.heightInPixel.setWidth 32

/-- `macro_block_count`. -/
def macroBlockCount (sampling : JpegSampling) : BitVec 32 :=
  jpegCalculateMacroBlockCount config.width config.height sampling

/-- `total_bytes`. -/
def totalBytes (sampling : JpegSampling) : BitVec 32 :=
  config.macroBlockCount sampling * sampling.macroBlockBytes

/-- The pitch of the side with pixels. -/
def pitch (pixelFormat : BitVec 8) : BitVec 32 := config.width * jpegGetPixelSize pixelFormat

end JpegJobConfig

/-! ## What is programmed -/

/-- `jpeg_config_interal_regs`; `sampling` is the entry of the table for `format`. -/
def jpegConfigInteralRegs (regs : JpegRegs) (macroBlockCount : BitVec 32) (format : BitVec 8)
    (sampling : JpegSampling) : JpegRegs :=
  let chroma := imgregNblock.set (sampling.chromaBlocks - 1) ||| imgregQt.set 1 |||
    imgregHa.set 1 ||| imgregHd.set 1
  { regs with
    imgreg1 := if format = jpegSupportedFormat400 then imgreg1Re.mask 32
      else imgreg1Re.mask 32 ||| imgreg1Ncol.set 2
    imgreg2 := imgreg2Nmcu.set (macroBlockCount - 1)
    imgreg3 := imgreg3Nrst.set 1
    imgreg := ![imgregNblock.set (sampling.lumaBlocks - 1),
      if format = jpegSupportedFormat400 then 0 else chroma,
      if format = jpegSupportedFormat400 then 0 else chroma,
      0] }

/-- The size of the image less 1, as both functions write it. -/
def JpegRegs.writeSize (regs : JpegRegs) (config : JpegJobConfig) : JpegRegs :=
  { regs with width := config.width - 1, height := config.height - 1 }

/-- A word of `RGB2YUV_COEF1` to `RGB2YUV_COEF4`. -/
def rgb2yuvCoefPair (high low : BitVec 32) : BitVec 32 := coefHigh.set high ||| coefLow.set low

/-- The coefficients of an encoding; without the conversion only the first word is written. -/
def JpegRegs.writeRgb2yuv (regs : JpegRegs) (config : JpegJobConfig) : JpegRegs :=
  { regs with
    rgb2yuvCoef :=
      if config.enableCsc then
        if config.enableYcbcr then
          ![coef0C0.set 0x42 ||| coef0UvOffset.set 0x80 ||| coef0YOffset.set 0x10 |||
              coef0Enable.mask 32 ||| coef0YcbcrMode.mask 32,
            rgb2yuvCoefPair 0x81 0x7B5, rgb2yuvCoefPair 0x19 0x7DA,
            rgb2yuvCoefPair 0x70 0x70, rgb2yuvCoefPair 0x7EE 0x7A2]
        else
          ![coef0C0.set 0x4D ||| coef0UvOffset.set 0 ||| coef0YOffset.set 0 |||
              coef0YcbcrMode.mask 32 ||| coef0Enable.mask 32,
            rgb2yuvCoefPair 0x96 0x7B6, rgb2yuvCoefPair 0x1D 0x7DA,
            rgb2yuvCoefPair 0x9D 0x70, rgb2yuvCoefPair 0x7E6 0x77C]
      else fun k => if k.val = 0 then 0x04030000 else regs.rgb2yuvCoef k }

/-- The input side of an encoding, which reads pixels. -/
def JpegRegs.writeEncodeInput (regs : JpegRegs) (config : JpegJobConfig)
    (sampling : JpegSampling) : JpegRegs :=
  { regs with
    indmaMisc := indmaMiscInDmaId.set 0 |||
      indmaMiscPackDir.set (config.byteOrder.setWidth 32) ||| indmaMiscMaxOt.set 4 |||
      indmaMiscIndma2d.mask 32 ||| indmaMiscInDmaReq.mask 32
    indmaCtrl0 := dmaCtrl0Ttlen.set (config.totalBytes sampling) |||
      dmaCtrl0Pitch.set (config.pitch config.inPixelFormat)
    indmabase := dmabaseAddr.set config.inBuffer
    inxtCmd := nxtCmdAddr.set 5 ||| nxtCmdOpValid.mask 32 }

/-- The output side of an encoding. -/
def JpegRegs.writeEncodeOutput (regs : JpegRegs) (config : JpegJobConfig)
    (sampling : JpegSampling) : JpegRegs :=
  { regs with
    outdmaMisc := outdmaMiscEnOutcnt.mask 32 ||| outdmaMiscIniOutcnt.mask 32 |||
      outdmaMiscOutDmaId.set 1 ||| outdmaMiscOutDmaReq.mask 32 |||
      outdmaMiscAddOdmaEndings.mask 32
    outdmabase := dmabaseAddr.set config.outBuffer
    outdmaCtrl0 := dmaCtrl0Ttlen.set (config.totalBytes sampling)
    outdmaCtrl1 := outdmaCtrl1Rowlen.set 2
    onxtCmd := nxtCmdAddr.set 5 ||| nxtCmdOpValid.mask 32 }

/-- The input side of a decoding, `length` bytes of a stream. -/
def JpegRegs.writeDecodeInput (regs : JpegRegs) (config : JpegJobConfig) (length : BitVec 32) :
    JpegRegs :=
  { regs with
    indmaMisc := indmaMiscInDmaId.set 1 ||| indmaMiscInDmaReq.mask 32
    indmabase := dmabaseAddr.set config.inBuffer
    indmaCtrl0 := dmaCtrl0Ttlen.set length
    inxtCmd := nxtCmdAddr.set 0x14 ||| nxtCmdOpValid.mask 32 }

/-- The output side of a decoding, which writes pixels. -/
def JpegRegs.writeDecodeOutput (regs : JpegRegs) (config : JpegJobConfig)
    (sampling : JpegSampling) : JpegRegs :=
  { regs with
    outdmaMisc := outdmaMiscEnOutcnt.mask 32 ||| outdmaMiscOutDmaId.set 0 |||
      outdmaMiscPackDir.set (config.byteOrder.setWidth 32) ||| outdmaMiscIniOutcnt.mask 32 |||
      outdmaMiscOutDmaReq.mask 32 ||| outdmaMiscOutdma2d.mask 32
    outdmabase := dmabaseAddr.set config.outBuffer
    outdmaCtrl0 := dmaCtrl0Ttlen.set (config.totalBytes sampling) |||
      dmaCtrl0Pitch.set (config.pitch config.outPixelFormat)
    outdmaCtrl1 := outdmaCtrl1Rowlen.set 2
    onxtCmd := nxtCmdAddr.set 0x14 ||| nxtCmdOpValid.mask 32 }

/-- The registers after an accepted encoding. -/
def jpegEncodeRegs (regs : JpegRegs) (config : JpegJobConfig) (sampling : JpegSampling) :
    JpegRegs :=
  let regs := (regs.writeEncodeInput config sampling).writeEncodeOutput config sampling
  let regs := jpegConfigInteralRegs regs (config.macroBlockCount sampling) config.jpegFormat
    sampling
  { (regs.writeSize config).writeRgb2yuv config with
    cfg := cfgIpathSel.set (config.inPixelFormat.setWidth 32) |||
      cfgJdataFormat.set (config.jpegFormat.setWidth 32) ||| cfgJpegEn.mask 32 |||
      cfgStart.mask 32 }

/-- The registers after an accepted decoding. -/
def jpegDecodeRegs (regs : JpegRegs) (config : JpegJobConfig) (length : BitVec 32)
    (sampling : JpegSampling) : JpegRegs :=
  let regs := (regs.writeDecodeInput config length).writeDecodeOutput config sampling
  let regs := jpegConfigInteralRegs regs (config.macroBlockCount sampling) config.jpegFormat
    sampling
  { regs.writeSize config with
    cscCoef := ![0x04AB01F0 |||
        coef0YcbcrMode.set ((BitVec.ofBool config.enableYcbcr).setWidth 32) |||
        coef0Enable.set ((BitVec.ofBool config.enableCsc).setWidth 32),
      0x01980204, 0x0730079C]
    cfg := cfgOpathSel.set (config.outPixelFormat.setWidth 32) |||
      cfgJdataFormat.set (config.jpegFormat.setWidth 32) ||| cfgJpegEn.mask 32 |||
      cfgStart.mask 32 ||| cfgMode.mask 32 }

/-- The check of the two functions and the table entry they go on with. -/
def jpegStart (write : JpegSampling → JpegRegs) (regs : JpegRegs) (config : JpegJobConfig) :
    Option (HpmStat × JpegRegs) :=
  (jpegIsValidSize config.jpegFormat config.width config.height).bind fun valid =>
    if valid then
      jpegSupportedSampling[config.jpegFormat.toNat]?.map fun sampling =>
        (.success, write sampling)
    else some (.invalidArgument, regs)

/-- `jpeg_start_encode`. -/
def jpegStartEncode (regs : JpegRegs) (config : JpegJobConfig) : Option (HpmStat × JpegRegs) :=
  jpegStart (jpegEncodeRegs regs config) regs config

/-- `jpeg_start_decode`. -/
def jpegStartDecode (regs : JpegRegs) (config : JpegJobConfig) (length : BitVec 32) :
    Option (HpmStat × JpegRegs) :=
  jpegStart (jpegDecodeRegs regs config length) regs config

end HpmSdk.Jpeg
