import HpmSdk.Pdma.Ctrl
import HpmSdk.Pdma.Planes

set_option autoImplicit false

/-!
# PDMA: blit, scale, flip and rotate (`hpm_pdma_drv.c`)

The three functions check their arguments in the same way, fill in the configurations and
program the planes and the output.  The wait for the end of the transfer is left out: it reads
`STAT` only and gives no `status_invalid_argument`.
-/

namespace HpmSdk.Pdma

open HpmSdk.Foundation

/-! ## Configurations -/

/-- `display_rgb2yuv_config_t`. -/
structure DisplayRgb2yuvConfig where
  enable : Bool
  ycbcrMode : Bool
  c0 : BitVec 16
  c1 : BitVec 16
  c2 : BitVec 16
  c3 : BitVec 16
  c4 : BitVec 16
  c5 : BitVec 16
  c6 : BitVec 16
  c7 : BitVec 16
  c8 : BitVec 16
  uvOffset : BitVec 16
  yOffset : BitVec 16
  deriving DecidableEq, Repr

/-- A plane of the output. -/
structure PdmaOutputPlane where
  x : BitVec 16
  y : BitVec 16
  width : BitVec 16
  height : BitVec 16
  deriving DecidableEq, Repr

/-- `pdma_output_config_t`. -/
structure PdmaOutputConfig where
  alphablend : DisplayAlphablendOption
  pixelFormat : DisplayPixelFormat
  rgb2yuvConfig : DisplayRgb2yuvConfig
  buffer : BitVec 32
  planeSrc : PdmaOutputPlane
  planeDst : PdmaOutputPlane
  width : BitVec 16
  height : BitVec 16
  pitch : BitVec 16
  deriving DecidableEq, Repr

/-- `pdma_config_t`. -/
structure PdmaConfig where
  byteorder : DisplayByteorder
  blockSize : PdmaBlocksize
  enablePlane : PdmaPlane
  deriving DecidableEq, Repr

/-- `pdma_get_default_config`. -/
def pdmaGetDefaultConfig (pixelFormat : DisplayPixelFormat) : PdmaConfig where
  blockSize := .blocksize16x16
  enablePlane := .src
  byteorder := if displayPixelFormatIsYuvFormat pixelFormat then .a0a1a2a3 else .a3a2a1a0

/-- `pdma_get_default_yuv2rgb_coef_config`. -/
def pdmaGetDefaultYuv2rgbCoefConfig : DisplayPixelFormat → DisplayYuv2rgbCoef
  | .yuv422 => ⟨0x100, 0x123, 0x76B, 0x79C, 0x208, 0, 0⟩
  | .ycbcr422 => ⟨0x12A, 0x198, 0x730, 0x79C, 0x204, 0x180, 0x1F0⟩
  | .argb8888 | .rgb565 | .rgb555 | .rgb444 | .gbr422 => ⟨0, 0, 0, 0, 0, 0, 0⟩

/-- The conversion in `pdma_get_default_output_config`. -/
def pdmaGetDefaultRgb2yuvConfig : DisplayPixelFormat → DisplayRgb2yuvConfig
  | .yuv422 =>
    ⟨true, false, 0x4D, 0x96, 0x1D, 0x7DA, 0x7B6, 0x70, 0x9D, 0x77C, 0x7E6, 0, 0⟩
  | .ycbcr422 =>
    ⟨true, true, 0x42, 0x81, 0x19, 0x7DA, 0x7B5, 0x70, 0x70, 0x7A2, 0x7EE, 0x80, 0x10⟩
  | .argb8888 | .rgb565 | .rgb555 | .rgb444 | .gbr422 =>
    ⟨false, false, 0, 0, 0, 0, 0, 0, 0, 0, 0, 0, 0⟩

/-- `pdma_get_default_output_config`. -/
def pdmaGetDefaultOutputConfig (pixelFormat : DisplayPixelFormat) : PdmaOutputConfig where
  alphablend := ⟨0, 0, .invalid, .invalid, .plus⟩
  pixelFormat := pixelFormat
  buffer := 0
  planeSrc := ⟨0, 0, 0, 0⟩
  planeDst := ⟨0, 0, 0, 0⟩
  width := 0
  height := 0
  pitch := 0
  rgb2yuvConfig := pdmaGetDefaultRgb2yuvConfig pixelFormat

/-! ## Registers -/

/-- The registers of the output. -/
structure PdmaOutRegs where
  outCtrl : BitVec 32
  outBuf : BitVec 32
  outPitch : BitVec 32
  outLrc : BitVec 32
  srcUlc : BitVec 32
  srcLrc : BitVec 32
  dstUlc : BitVec 32
  dstLrc : BitVec 32
  rgb2yuvCoef0 : BitVec 32
  rgb2yuvCoef1 : BitVec 32
  rgb2yuvCoef2 : BitVec 32
  rgb2yuvCoef3 : BitVec 32
  rgb2yuvCoef4 : BitVec 32
  deriving DecidableEq, Repr

structure PdmaRegs where
  ctrl : BitVec 32
  planes : PdmaPlaneRegs
  out : PdmaOutRegs
  deriving DecidableEq, Repr

/-- `PDMA_CTRL_PACK_DIR`. -/
def pdmaCtrlPackDir : RegField := ⟨13, 2⟩
/-- `PDMA_CTRL_PDMA_EN_MASK`. -/
def pdmaCtrlPdmaEn : BitVec 32 := 0x1
/-- `PDMA_OUT_CTRL_DSTALPHA`. -/
def pdmaOutCtrlDstalpha : RegField := ⟨24, 8⟩
/-- `PDMA_OUT_CTRL_SRCALPHA`. -/
def pdmaOutCtrlSrcalpha : RegField := ⟨16, 8⟩
/-- `PDMA_OUT_CTRL_DSTALPHA_OP`. -/
def pdmaOutCtrlDstalphaOp : RegField := ⟨14, 2⟩
/-- `PDMA_OUT_CTRL_SRCALPHA_OP`. -/
def pdmaOutCtrlSrcalphaOp : RegField := ⟨12, 2⟩
/-- `PDMA_OUT_CTRL_ABLEND_MODE`. -/
def pdmaOutCtrlAblendMode : RegField := ⟨8, 4⟩
/-- `PDMA_OUT_CTRL_FORMAT`. -/
def pdmaOutCtrlFormat : RegField := ⟨0, 6⟩
/-- `PDMA_OUT_BUF_ADDR`. -/
def pdmaOutBufAddr : RegField := ⟨0, 32⟩
/-- `PDMA_OUT_PITCH_BYTELEN`. -/
def pdmaOutPitchBytelen : RegField := ⟨0, 16⟩
/-- The X of `PDMA_OUT_LRC`, `PDMA_OUT_PS_ULC` and `PDMA_OUT_PS_LRC`. -/
def pdmaOutX : RegField := ⟨0, 14⟩
/-- The Y of `PDMA_OUT_LRC`, `PDMA_OUT_PS_ULC` and `PDMA_OUT_PS_LRC`. -/
def pdmaOutY : RegField := ⟨16, 14⟩
/-- `PDMA_RGB2YUV_COEF0_YCBCR_MODE`. -/
def pdmaRgb2yuvCoef0YcbcrMode : RegField := ⟨31, 1⟩
/-- `PDMA_RGB2YUV_COEF0_ENABLE`. -/
def pdmaRgb2yuvCoef0Enable : RegField := ⟨30, 1⟩
/-- `PDMA_RGB2YUV_COEF0_C0`. -/
def pdmaRgb2yuvCoef0C0 : RegField := ⟨18, 11⟩
/-- `PDMA_RGB2YUV_COEF0_UV_OFFSET`. -/
def pdmaRgb2yuvCoef0UvOffset : RegField := ⟨9, 9⟩
/-- `PDMA_RGB2YUV_COEF0_Y_OFFSET`. -/
def pdmaRgb2yuvCoef0YOffset : RegField := ⟨0, 9⟩
/-- The upper coefficient of `PDMA_RGB2YUV_COEF1` to `PDMA_RGB2YUV_COEF4`. -/
def pdmaRgb2yuvCoefHigh : RegField := ⟨16, 11⟩
/-- The lower coefficient of `PDMA_RGB2YUV_COEF1` to `PDMA_RGB2YUV_COEF4`. -/
def pdmaRgb2yuvCoefLow : RegField := ⟨0, 11⟩

/-! ## Programming the registers -/

/-- `pdma_init`, which writes `CTRL` as a whole behind `pdma_stop`. -/
def pdmaInit (r : PdmaRegs) (config : PdmaConfig) : PdmaRegs :=
  let mask := pdmaPlaneMask config.enablePlane
    ||| if config.blockSize = .blocksize16x16 then pdmaCtrlBs16 else 0
  { r with ctrl := pdmaCtrlPackDir.set config.byteorder.code ||| mask }

/-- `pdma_start`. -/
def pdmaStart (r : PdmaRegs) : PdmaRegs := { r with ctrl := r.ctrl ||| pdmaCtrlPdmaEn }

/-- The pitch in `pdma_config_output`. -/
def pdmaOutputPitch (config : PdmaOutputConfig) : BitVec 32 :=
  if config.pitch = 0 then displayGetPitchLengthInByte config.pixelFormat (half config.width)
  else half config.pitch

/-- A corner: `X_SET(x) | Y_SET(y)`. -/
def pdmaCorner (x y : BitVec 16) : BitVec 32 := pdmaOutX.set (half x) ||| pdmaOutY.set (half y)

/-- Two coefficients of a conversion. -/
def pdmaRgb2yuvPair (high low : BitVec 16) : BitVec 32 :=
  pdmaRgb2yuvCoefHigh.set (half high) ||| pdmaRgb2yuvCoefLow.set (half low)

/-- `pdma_config_output`. -/
def pdmaConfigOutput (config : PdmaOutputConfig) : PdmaOutRegs where
  outBuf := pdmaOutBufAddr.set config.buffer
  outPitch := pdmaOutPitchBytelen.set (pdmaOutputPitch config)
  outLrc := pdmaCorner config.width config.height
  srcUlc := pdmaCorner config.planeSrc.x config.planeSrc.y
  srcLrc := pdmaCorner config.planeSrc.width config.planeSrc.height
  dstUlc := pdmaCorner config.planeDst.x config.planeDst.y
  dstLrc := pdmaCorner config.planeDst.width config.planeDst.height
  outCtrl := pdmaOutCtrlDstalpha.set (config.alphablend.dstAlpha.setWidth 32)
    ||| pdmaOutCtrlSrcalpha.set (config.alphablend.srcAlpha.setWidth 32)
    ||| pdmaOutCtrlDstalphaOp.set config.alphablend.dstAlphaOp.code
    ||| pdmaOutCtrlSrcalphaOp.set config.alphablend.srcAlphaOp.code
    ||| pdmaOutCtrlAblendMode.set config.alphablend.mode.code
    ||| pdmaOutCtrlFormat.set (pdmaPixelFormat config.pixelFormat)
  rgb2yuvCoef0 := pdmaRgb2yuvCoef0Enable.set (flag config.rgb2yuvConfig.enable)
    ||| pdmaRgb2yuvCoef0YcbcrMode.set (flag config.rgb2yuvConfig.ycbcrMode)
    ||| pdmaRgb2yuvCoef0C0.set (half config.rgb2yuvConfig.c0)
    ||| pdmaRgb2yuvCoef0UvOffset.set (half config.rgb2yuvConfig.uvOffset)
    ||| pdmaRgb2yuvCoef0YOffset.set (half config.rgb2yuvConfig.yOffset)
  rgb2yuvCoef1 := pdmaRgb2yuvPair config.rgb2yuvConfig.c1 config.rgb2yuvConfig.c4
  rgb2yuvCoef2 := pdmaRgb2yuvPair config.rgb2yuvConfig.c2 config.rgb2yuvConfig.c3
  rgb2yuvCoef3 := pdmaRgb2yuvPair config.rgb2yuvConfig.c6 config.rgb2yuvConfig.c5
  rgb2yuvCoef4 := pdmaRgb2yuvPair config.rgb2yuvConfig.c8 config.rgb2yuvConfig.c7

/-! ## The functions -/

/-- The arguments that the functions share. -/
structure PdmaArgs where
  dst : BitVec 32
  dstWidth : BitVec 32
  src : BitVec 32
  srcWidth : BitVec 32
  x : BitVec 32
  y : BitVec 32
  width : BitVec 32
  height : BitVec 32
  alpha : BitVec 8
  format : DisplayPixelFormat
  deriving DecidableEq, Repr

/-- When the functions give `status_invalid_argument`. -/
def pdmaInvalidArgument (a : PdmaArgs) : Bool :=
  decide (a.width + a.x > a.dstWidth)
    || (displayPixelFormatIsYuvFormat a.format && decide (a.width &&& 2 ≠ 0))
    || !(decide (a.width > 8) || decide (a.height > 8))

/-- `dst + (y * dst_width + x) * display_get_pixel_size_in_byte(format)`. -/
def PdmaArgs.buffer (a : PdmaArgs) : BitVec 32 :=
  a.dst + (a.y * a.dstWidth + a.x) * (displayGetPixelSizeInByte a.format).setWidth 32

/-- What the functions do with their configurations. -/
def pdmaTransfer (r : PdmaRegs) (a : PdmaArgs) (planeSrc planeDst : PdmaPlaneConfig)
    (output : PdmaOutputConfig) : Except PdmaFault PdmaRegs := do
  let config := { pdmaGetDefaultConfig a.format with
    enablePlane := .both
    blockSize := if a.width ≤ 16 then .blocksize8x8 else .blocksize16x16 }
  let r := pdmaInit r config
  let planes ← pdmaConfigPlanes r.planes (some planeSrc) (some planeDst)
    (some (pdmaGetDefaultYuv2rgbCoefConfig a.format))
  return pdmaStart { r with planes := planes, out := pdmaConfigOutput output }

/-- The part of the output's configuration that the functions share. -/
def PdmaArgs.output (a : PdmaArgs) (width height : BitVec 32) : PdmaOutputConfig :=
  { pdmaGetDefaultOutputConfig a.format with
    buffer := a.buffer
    alphablend := ⟨0, a.alpha, .invalid, .override, .srcOver⟩
    planeSrc := ⟨0, 0, width.setWidth 16, height.setWidth 16⟩
    width := width.setWidth 16
    height := height.setWidth 16
    pitch := (displayGetPitchLengthInByte a.format a.dstWidth).setWidth 16 }

/-- The part of the source plane's configuration that the functions share. -/
def PdmaArgs.planeSrc (a : PdmaArgs) : PdmaPlaneConfig :=
  { pdmaGetDefaultPlaneConfig a.format with
    buffer := a.src
    width := a.width.setWidth 16
    height := a.height.setWidth 16
    pitch := (displayGetPitchLengthInByte a.format a.srcWidth).setWidth 16 }

/-- The destination plane of `pdma_blit` and `pdma_scale`. -/
def PdmaArgs.planeDst (a : PdmaArgs) : PdmaPlaneConfig :=
  { pdmaGetDefaultPlaneConfig a.format with
    buffer := a.buffer
    width := a.width.setWidth 16
    height := a.height.setWidth 16
    pitch := (displayGetPitchLengthInByte a.format a.dstWidth).setWidth 16 }

/-- The size of the output of `pdma_flip_rotate`. -/
def pdmaRotatedSize (a : PdmaArgs) (rotate : PdmaRotate) : BitVec 32 × BitVec 32 :=
  if rotate = .degree90 ∨ rotate = .degree270 then (a.height, a.width) else (a.width, a.height)

/-- `pdma_flip_rotate`; `none` is `status_invalid_argument`. -/
def pdmaFlipRotate (r : PdmaRegs) (a : PdmaArgs) (flip : PdmaFlip) (rotate : PdmaRotate) :
    Option (Except PdmaFault PdmaRegs) :=
  if pdmaInvalidArgument a then none
  else
    let planeSrc := { a.planeSrc with flip := flip, rotate := rotate }
    let planeDst := { pdmaGetDefaultPlaneConfig a.format with
      buffer := a.src
      height := 1
      width := 1
      pitch := (displayGetPitchLengthInByte a.format a.dstWidth).setWidth 16 }
    let size := pdmaRotatedSize a rotate
    some (pdmaTransfer r a planeSrc planeDst (a.output size.1 size.2))

/-- `pdma_blit`; `none` is `status_invalid_argument`. -/
def pdmaBlit (r : PdmaRegs) (a : PdmaArgs) : Option (Except PdmaFault PdmaRegs) :=
  if pdmaInvalidArgument a then none
  else
    let planeSrc := { a.planeSrc with background := 0x00FFFFFF }
    let output := { a.output a.width a.height with
      planeDst := ⟨0, 0, a.width.setWidth 16, a.height.setWidth 16⟩ }
    some (pdmaTransfer r a planeSrc a.planeDst output)

/-- `pdma_calculate_scale`: a decimation and a scale.  A division by 0 gives all ones, as the
core has it. -/
def pdmaCalculateScale (t targetT : BitVec 32) : PdmaDecimation × BitVec 32 :=
  let tmp := ((t <<< 12).smtUDiv targetT) >>> 12
  if tmp > 16 then (.by8, 2)
  else
    let dec : PdmaDecimation :=
      if tmp > 8 then .by8 else if tmp > 4 then .by4 else if tmp > 2 then .by2 else .by1
    (dec, ((t >>> dec.code.toNat) <<< 12).smtUDiv targetT)

/-- `pdma_scale`; `none` is `status_invalid_argument`. -/
def pdmaScale (r : PdmaRegs) (a : PdmaArgs) (targetWidth targetHeight : BitVec 32) :
    Option (Except PdmaFault PdmaRegs) :=
  if pdmaInvalidArgument a then none
  else
    let scaleX := pdmaCalculateScale a.width targetWidth
    let scaleY := pdmaCalculateScale a.height targetHeight
    let planeSrc := { a.planeSrc with
      xScale := scaleX.2.setWidth 16
      xDec := scaleX.1
      yScale := scaleY.2.setWidth 16
      yDec := scaleY.1
      background := 0x00FFFFFF }
    let output := { a.output targetWidth targetHeight with
      planeDst := ⟨0, 0, targetWidth.setWidth 16, targetHeight.setWidth 16⟩ }
    some (pdmaTransfer r a planeSrc a.planeDst output)

end HpmSdk.Pdma
