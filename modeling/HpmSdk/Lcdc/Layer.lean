import HpmSdk.DisplayCommon

set_option autoImplicit false

/-!
# LCDC: the layers (`hpm_lcdc_drv.c`)

`lcdc_config_layer` writes the registers of a layer.  The control register is not written anew:
some of its fields are masked out of what it holds and the values of the call are ored in.
-/

namespace HpmSdk.Lcdc

open HpmSdk.Foundation

/-! ## Configurations -/

/-- `hpm_stat_t`, as far as the layers return it. -/
inductive LcdcStat where
  | success
  | lcdcLayerNotSupported
  deriving DecidableEq, Repr

/-- `display_yuv2rgb_config_t`. -/
structure DisplayYuv2rgbConfig where
  enable : Bool
  ycbcrMode : Bool
  yuv2rgbCoef : DisplayYuv2rgbCoef
  deriving DecidableEq, Repr

/-- `lcdc_layer_max_bytes_per_transfer_t`. -/
inductive LcdcLayerMaxBytes where
  | bytes64
  | bytes128
  | bytes256
  | bytes512
  | bytes1024
  deriving DecidableEq, Repr

def LcdcLayerMaxBytes.code : LcdcLayerMaxBytes → BitVec 32
  | bytes64 => 0
  | bytes128 => 1
  | bytes256 => 2
  | bytes512 => 3
  | bytes1024 => 4

/-- `lcdc_layer_config_t`. -/
structure LcdcLayerConfig where
  maxOt : BitVec 8
  byteorder : DisplayByteorder
  yuv : DisplayYuvFormat
  pixelFormat : DisplayPixelFormat
  alphablend : DisplayAlphablendOption
  cscConfig : DisplayYuv2rgbConfig
  maxBytes : LcdcLayerMaxBytes
  height : BitVec 16
  width : BitVec 16
  positionX : BitVec 16
  positionY : BitVec 16
  background : BitVec 32
  buffer : BitVec 32
  deriving DecidableEq, Repr

/-- `lcdc_pixel_format`. -/
def lcdcPixelFormat : DisplayPixelFormat → BitVec 32
  | .argb8888 => 9
  | .rgb565 => 4
  | .yuv422 => 7
  | .ycbcr422 => 7
  | .rgb555 | .rgb444 | .gbr422 => 9

/-- `lcdc_byteorder`. -/
def lcdcByteorder : DisplayByteorder → BitVec 8
  | .a3a2a1a0 => 0
  | .a0a1a2a3 => 1
  | .a2a3a0a1 | .a1a0a3a2 => 0

/-- `lcdc_get_default_layer_config`, where what it does not set is as before. -/
def lcdcGetDefaultLayerConfig (layer : LcdcLayerConfig) (pixelFormat : DisplayPixelFormat) :
    LcdcLayerConfig :=
  { layer with
    maxBytes := .bytes64
    maxOt := 0
    byteorder := .a3a2a1a0
    yuv := if displayPixelFormatIsYuvFormat pixelFormat then .mode422Y1u1y2v1
      else .mode422U1y1v1y2
    pixelFormat := pixelFormat
    alphablend := ⟨0, 0, .invalid, .invalid, .clear⟩
    cscConfig := match pixelFormat with
      | .yuv422 => ⟨true, false, ⟨0x100, 0x123, 0x76B, 0x79C, 0x208, 0, 0⟩⟩
      | .ycbcr422 => ⟨true, true, ⟨0x12A, 0x198, 0x730, 0x79C, 0x204, 0x180, 0x1F0⟩⟩
      | .argb8888 | .rgb565 | .rgb555 | .rgb444 | .gbr422 => ⟨false, false, ⟨0, 0, 0, 0, 0, 0, 0⟩⟩ }

/-! ## Registers -/

/-- `LCDC_SOC_MAX_LAYER_COUNT`. -/
def lcdcSocMaxLayerCount : Nat := 8

/-- The number of a layer. -/
abbrev LcdcLayerIndex : Type := Fin lcdcSocMaxLayerCount

/-- `LCDC_SOC_LAYER_SUPPORTS_CSC`. -/
def lcdcSocLayerSupportsCsc (x : LcdcLayerIndex) : Bool := decide (x.val < 2)

/-- `LCDC_SOC_LAYER_SUPPORTS_YUV`. -/
def lcdcSocLayerSupportsYuv (x : LcdcLayerIndex) : Bool := decide (x.val < 2)

/-- The registers of a layer. -/
structure LcdcLayerRegs where
  layctrl : BitVec 32
  alphas : BitVec 32
  laysize : BitVec 32
  laypos : BitVec 32
  start0 : BitVec 32
  linecfg : BitVec 32
  bgCl : BitVec 32
  cscCoef0 : BitVec 32
  cscCoef1 : BitVec 32
  cscCoef2 : BitVec 32
  deriving DecidableEq, Repr

/-- The registers of the layers. -/
abbrev LcdcLayers : Type := LcdcLayerIndex → LcdcLayerRegs

/-- `LCDC_LAYER_LAYCTRL_PACK_DIR`. -/
def lcdcLayctrlPackDir : RegField := ⟨19, 1⟩
/-- `LCDC_LAYER_LAYCTRL_SHADOW_LOAD_EN`. -/
def lcdcLayctrlShadowLoadEn : RegField := ⟨16, 1⟩
/-- `LCDC_LAYER_LAYCTRL_YUV_FORMAT`. -/
def lcdcLayctrlYuvFormat : RegField := ⟨14, 2⟩
/-- `LCDC_LAYER_LAYCTRL_PIXFORMAT`. -/
def lcdcLayctrlPixformat : RegField := ⟨10, 4⟩
/-- `LCDC_LAYER_LAYCTRL_LOCALPHA_OP`. -/
def lcdcLayctrlLocalphaOp : RegField := ⟨8, 2⟩
/-- `LCDC_LAYER_LAYCTRL_INALPHA_OP`. -/
def lcdcLayctrlInalphaOp : RegField := ⟨6, 2⟩
/-- `LCDC_LAYER_LAYCTRL_AB_MODE`. -/
def lcdcLayctrlAbMode : RegField := ⟨2, 4⟩
/-- `LCDC_LAYER_LAYCTRL_EN`. -/
def lcdcLayctrlEn : RegField := ⟨0, 1⟩
/-- `LCDC_LAYER_ALPHAS_LOCD`. -/
def lcdcAlphasLocd : RegField := ⟨8, 8⟩
/-- `LCDC_LAYER_ALPHAS_IND`. -/
def lcdcAlphasInd : RegField := ⟨0, 8⟩
/-- `LCDC_LAYER_LAYSIZE_HEIGHT`. -/
def lcdcLaysizeHeight : RegField := ⟨16, 12⟩
/-- `LCDC_LAYER_LAYSIZE_WIDTH`. -/
def lcdcLaysizeWidth : RegField := ⟨0, 12⟩
/-- `LCDC_LAYER_LAYPOS_Y`. -/
def lcdcLayposY : RegField := ⟨16, 16⟩
/-- `LCDC_LAYER_LAYPOS_X`. -/
def lcdcLayposX : RegField := ⟨0, 16⟩
/-- `LCDC_LAYER_START0_ADDR0`. -/
def lcdcStart0Addr0 : RegField := ⟨0, 32⟩
/-- `LCDC_LAYER_LINECFG_MPT_SIZE`. -/
def lcdcLinecfgMptSize : RegField := ⟨29, 3⟩
/-- `LCDC_LAYER_LINECFG_MAX_OT`. -/
def lcdcLinecfgMaxOt : RegField := ⟨21, 3⟩
/-- `LCDC_LAYER_LINECFG_PITCH`. -/
def lcdcLinecfgPitch : RegField := ⟨0, 16⟩
/-- `LCDC_LAYER_BG_CL_ARGB`. -/
def lcdcBgClArgb : RegField := ⟨0, 32⟩
/-- `LCDC_LAYER_CSC_COEF0_YCBCR_MODE`. -/
def lcdcCscCoef0YcbcrMode : RegField := ⟨31, 1⟩
/-- `LCDC_LAYER_CSC_COEF0_ENABLE`. -/
def lcdcCscCoef0Enable : RegField := ⟨30, 1⟩
/-- `LCDC_LAYER_CSC_COEF0_C0`. -/
def lcdcCscCoef0C0 : RegField := ⟨18, 11⟩
/-- `LCDC_LAYER_CSC_COEF0_UV_OFFSET`. -/
def lcdcCscCoef0UvOffset : RegField := ⟨9, 9⟩
/-- `LCDC_LAYER_CSC_COEF0_Y_OFFSET`. -/
def lcdcCscCoef0YOffset : RegField := ⟨0, 9⟩
/-- `LCDC_LAYER_CSC_COEF1_C1` and `LCDC_LAYER_CSC_COEF2_C2`. -/
def lcdcCscCoefHigh : RegField := ⟨16, 11⟩
/-- `LCDC_LAYER_CSC_COEF1_C4` and `LCDC_LAYER_CSC_COEF2_C3`. -/
def lcdcCscCoefLow : RegField := ⟨0, 11⟩

/-! ## The function -/

/-- The test that rejects a call. -/
def lcdcLayerRejected (layerIndex : LcdcLayerIndex) (layer : LcdcLayerConfig) : Bool :=
  (!lcdcSocLayerSupportsCsc layerIndex && layer.cscConfig.enable)
    || (!lcdcSocLayerSupportsYuv layerIndex && displayPixelFormatIsYuvFormat layer.pixelFormat)

/-- The fields that are masked out of the control register. -/
def lcdcLayctrlMasked : BitVec 32 :=
  lcdcLayctrlPixformat.mask 32
    ||| lcdcLayctrlAbMode.mask 32
    ||| lcdcLayctrlLocalphaOp.mask 32
    ||| lcdcLayctrlInalphaOp.mask 32
    ||| lcdcLayctrlYuvFormat.mask 32

/-- The control register behind a call. -/
def lcdcLayctrlOf (ctrl : BitVec 32) (layer : LcdcLayerConfig) (enableLayer : Bool) :
    BitVec 32 :=
  -- bit 18 is reserved but has to be set
  let ctrl := ctrl ||| ((1 : BitVec 32) <<< 18)
  let byteorder := lcdcByteorder layer.byteorder
  let format := lcdcPixelFormat layer.pixelFormat
  let ctrl := (ctrl &&& ~~~lcdcLayctrlMasked)
    ||| lcdcLayctrlPackDir.set (byteorder.setWidth 32)
    ||| lcdcLayctrlPixformat.set format
    ||| lcdcLayctrlAbMode.set layer.alphablend.mode.code
    ||| lcdcLayctrlLocalphaOp.set layer.alphablend.srcAlphaOp.code
    ||| lcdcLayctrlInalphaOp.set layer.alphablend.dstAlphaOp.code
    ||| lcdcLayctrlYuvFormat.set layer.yuv.code
  let ctrl := if enableLayer then ctrl ||| lcdcLayctrlEn.mask 32 else ctrl
  ctrl ||| lcdcLayctrlShadowLoadEn.mask 32

/-- The registers of a layer behind a call that is not rejected. -/
def lcdcLayerRegsOf (ctrl : BitVec 32) (layer : LcdcLayerConfig) (enableLayer : Bool) :
    LcdcLayerRegs where
  laysize := lcdcLaysizeHeight.set (half layer.height) ||| lcdcLaysizeWidth.set (half layer.width)
  laypos := lcdcLayposX.set (half layer.positionX) ||| lcdcLayposY.set (half layer.positionY)
  start0 := lcdcStart0Addr0.set layer.buffer
  alphas := lcdcAlphasLocd.set (layer.alphablend.srcAlpha.setWidth 32)
    ||| lcdcAlphasInd.set (layer.alphablend.dstAlpha.setWidth 32)
  linecfg := lcdcLinecfgMptSize.set layer.maxBytes.code
    ||| lcdcLinecfgMaxOt.set (layer.maxOt.setWidth 32)
    ||| lcdcLinecfgPitch.set (displayGetPitchLengthInByte layer.pixelFormat (half layer.width))
  bgCl := lcdcBgClArgb.set layer.background
  cscCoef0 := lcdcCscCoef0Enable.set (flag layer.cscConfig.enable)
    ||| lcdcCscCoef0YcbcrMode.set (flag layer.cscConfig.ycbcrMode)
    ||| lcdcCscCoef0C0.set (half layer.cscConfig.yuv2rgbCoef.c0)
    ||| lcdcCscCoef0UvOffset.set (half layer.cscConfig.yuv2rgbCoef.uvOffset)
    ||| lcdcCscCoef0YOffset.set (half layer.cscConfig.yuv2rgbCoef.yOffset)
  cscCoef1 := lcdcCscCoefHigh.set (half layer.cscConfig.yuv2rgbCoef.c1)
    ||| lcdcCscCoefLow.set (half layer.cscConfig.yuv2rgbCoef.c4)
  cscCoef2 := lcdcCscCoefHigh.set (half layer.cscConfig.yuv2rgbCoef.c2)
    ||| lcdcCscCoefLow.set (half layer.cscConfig.yuv2rgbCoef.c3)
  layctrl := lcdcLayctrlOf ctrl layer enableLayer

/-- `lcdc_config_layer`. -/
def lcdcConfigLayer (regs : LcdcLayers) (layerIndex : LcdcLayerIndex) (layer : LcdcLayerConfig)
    (enableLayer : Bool) : LcdcStat × LcdcLayers :=
  let ctrl := (regs layerIndex).layctrl
  if lcdcLayerRejected layerIndex layer then (.lcdcLayerNotSupported, regs)
  else (.success, Function.update regs layerIndex (lcdcLayerRegsOf ctrl layer enableLayer))

/-- `LCDC_SOC_MAX_CSC_LAYER_COUNT`. -/
def lcdcSocMaxCscLayerCount : Nat := 2

/-- The two loops of `lcdc_reset_register_values`. -/
def lcdcResetRegisterValues (regs : LcdcLayers) : LcdcLayers :=
  let regs : LcdcLayers := fun i =>
    { regs i with
      layctrl := 0, alphas := 0, laysize := 0, laypos := 0, start0 := 0, linecfg := 0, bgCl := 0 }
  fun i =>
    if i.val < lcdcSocMaxCscLayerCount then
      { regs i with cscCoef0 := 0, cscCoef1 := 0, cscCoef2 := 0 }
    else regs i

end HpmSdk.Lcdc
