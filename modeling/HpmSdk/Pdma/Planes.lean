import HpmSdk.DisplayCommon

set_option autoImplicit false

/-!
# PDMA: the planes (`hpm_pdma_drv.c`)

`pdma_config_planes` takes a configuration of the source plane, of the destination plane or of
both and writes the registers of the planes.
-/

namespace HpmSdk.Pdma

open HpmSdk.Foundation

/-! ## Pixel formats -/

/-- `pdma_pixel_format`. -/
def pdmaPixelFormat : DisplayPixelFormat → BitVec 32
  | .rgb565 => 0xE
  | .argb8888 => 0
  | .yuv422 => 0x13
  | .ycbcr422 => 0x13
  | .rgb555 | .rgb444 | .gbr422 => 0

/-! ## Configurations -/

/-- `pdma_flip_t`. -/
inductive PdmaFlip where
  | none
  | horizontal
  | vertical
  | both
  deriving DecidableEq, Repr

def PdmaFlip.code : PdmaFlip → BitVec 32
  | none => 0
  | horizontal => 1
  | vertical => 2
  | both => 3

/-- `pdma_rotate_t`. -/
inductive PdmaRotate where
  | degree0
  | degree90
  | degree180
  | degree270
  deriving DecidableEq, Repr

def PdmaRotate.code : PdmaRotate → BitVec 32
  | degree0 => 0
  | degree90 => 1
  | degree180 => 2
  | degree270 => 3

/-- `pdma_decimation_t`. -/
inductive PdmaDecimation where
  | by1
  | by2
  | by4
  | by8
  deriving DecidableEq, Repr

def PdmaDecimation.code : PdmaDecimation → BitVec 32
  | by1 => 0
  | by2 => 1
  | by4 => 2
  | by8 => 3

/-- `pdma_plane_config_t`. -/
structure PdmaPlaneConfig where
  swapByte3Byte1 : Bool
  useBackgroundAsClear : Bool
  ycbcrMode : Bool
  bypassColorspaceConversion : Bool
  byteSwap : Bool
  byteorder : DisplayByteorder
  flip : PdmaFlip
  rotate : PdmaRotate
  xDec : PdmaDecimation
  yDec : PdmaDecimation
  pixelFormat : DisplayPixelFormat
  buffer : BitVec 32
  background : BitVec 32
  colorkeyHigh : BitVec 32
  colorkeyLow : BitVec 32
  xScale : BitVec 16
  yScale : BitVec 16
  pitch : BitVec 16
  xOffset : BitVec 16
  yOffset : BitVec 16
  width : BitVec 16
  height : BitVec 16
  deriving DecidableEq, Repr

/-- `PDMA_MAKE_SCALE_SET`. -/
def pdmaMakeScaleSet (integer fractional : BitVec 16) : BitVec 16 :=
  (integer &&& 0x3) <<< 12 ||| (fractional &&& 0xFFF)

/-- `pdma_get_default_plane_config`. -/
def pdmaGetDefaultPlaneConfig (pixelFormat : DisplayPixelFormat) : PdmaPlaneConfig where
  swapByte3Byte1 := false
  byteorder := .a3a2a1a0
  useBackgroundAsClear := true
  flip := .none
  rotate := .degree0
  xDec := .by1
  yDec := .by1
  byteSwap := false
  pixelFormat := pixelFormat
  buffer := 0
  background := 0xFFFFFFFF
  xScale := pdmaMakeScaleSet 1 0
  yScale := pdmaMakeScaleSet 1 0
  xOffset := 0
  yOffset := 0
  colorkeyHigh := 0
  colorkeyLow := 0xFFFFFF
  width := 0
  height := 0
  pitch := 0
  ycbcrMode := pixelFormat == .ycbcr422
  bypassColorspaceConversion := !displayPixelFormatIsYuvFormat pixelFormat

/-! ## Registers -/

/-- The registers of a plane. -/
structure PdmaPs where
  ctrl : BitVec 32
  buf : BitVec 32
  pitch : BitVec 32
  bkgd : BitVec 32
  scale : BitVec 32
  offset : BitVec 32
  clrkeyLow : BitVec 32
  clrkeyHigh : BitVec 32
  org : BitVec 32
  deriving DecidableEq, Repr

/-- The registers of both planes and of the conversion they share. -/
structure PdmaPlaneRegs where
  src : PdmaPs
  dst : PdmaPs
  yuv2rgbCoef0 : BitVec 32
  yuv2rgbCoef1 : BitVec 32
  yuv2rgbCoef2 : BitVec 32
  deriving DecidableEq, Repr

/-- `PDMA_PS_CTRL_INB13_SWAP`. -/
def pdmaPsCtrlInb13Swap : RegField := ⟨20, 1⟩
/-- `PDMA_PS_CTRL_PACK_DIR`. -/
def pdmaPsCtrlPackDir : RegField := ⟨18, 2⟩
/-- `PDMA_PS_CTRL_BKGCL4CLR`. -/
def pdmaPsCtrlBkgcl4clr : RegField := ⟨17, 1⟩
/-- `PDMA_PS_CTRL_YCBCR_MODE`. -/
def pdmaPsCtrlYcbcrMode : RegField := ⟨16, 1⟩
/-- `PDMA_PS_CTRL_BYPASS`. -/
def pdmaPsCtrlBypass : RegField := ⟨15, 1⟩
/-- `PDMA_PS_CTRL_HFLIP` and `PDMA_PS_CTRL_VFLIP`, which stand side by side. -/
def pdmaPsCtrlFlip : RegField := ⟨13, 2⟩
/-- `PDMA_PS_CTRL_ROTATE`. -/
def pdmaPsCtrlRotate : RegField := ⟨11, 2⟩
/-- `PDMA_PS_CTRL_DECY`. -/
def pdmaPsCtrlDecy : RegField := ⟨9, 2⟩
/-- `PDMA_PS_CTRL_DECX`. -/
def pdmaPsCtrlDecx : RegField := ⟨7, 2⟩
/-- `PDMA_PS_CTRL_HW_BYTE_SWAP`. -/
def pdmaPsCtrlHwByteSwap : RegField := ⟨6, 1⟩
/-- `PDMA_PS_CTRL_FORMAT`. -/
def pdmaPsCtrlFormat : RegField := ⟨0, 6⟩
/-- `PDMA_PS_BUF_ADDR`. -/
def pdmaPsBufAddr : RegField := ⟨0, 32⟩
/-- `PDMA_PS_PITCH_BYTELEN`. -/
def pdmaPsPitchBytelen : RegField := ⟨0, 16⟩
/-- `PDMA_PS_BKGD_COLOR`. -/
def pdmaPsBkgdColor : RegField := ⟨0, 32⟩
/-- `PDMA_PS_SCALE_Y`. -/
def pdmaPsScaleY : RegField := ⟨16, 15⟩
/-- `PDMA_PS_SCALE_X`. -/
def pdmaPsScaleX : RegField := ⟨0, 15⟩
/-- `PDMA_PS_OFFSET_Y`. -/
def pdmaPsOffsetY : RegField := ⟨16, 12⟩
/-- `PDMA_PS_OFFSET_X`. -/
def pdmaPsOffsetX : RegField := ⟨0, 12⟩
/-- `PDMA_PS_CLRKEY_LOW_LIMIT` and `PDMA_PS_CLRKEY_HIGH_LIMIT`. -/
def pdmaPsClrkeyLimit : RegField := ⟨0, 24⟩
/-- `PDMA_PS_ORG_HIGHT`. -/
def pdmaPsOrgHight : RegField := ⟨16, 14⟩
/-- `PDMA_PS_ORG_WIDTH`. -/
def pdmaPsOrgWidth : RegField := ⟨0, 14⟩
/-- `PDMA_YUV2RGB_COEF0_C0`. -/
def pdmaYuv2rgbCoef0C0 : RegField := ⟨18, 11⟩
/-- `PDMA_YUV2RGB_COEF0_UV_OFFSET`. -/
def pdmaYuv2rgbCoef0UvOffset : RegField := ⟨9, 9⟩
/-- `PDMA_YUV2RGB_COEF0_Y_OFFSET`. -/
def pdmaYuv2rgbCoef0YOffset : RegField := ⟨0, 9⟩
/-- `PDMA_YUV2RGB_COEF1_C1` and `PDMA_YUV2RGB_COEF2_C2`. -/
def pdmaYuv2rgbCoefHigh : RegField := ⟨16, 11⟩
/-- `PDMA_YUV2RGB_COEF1_C4` and `PDMA_YUV2RGB_COEF2_C3`. -/
def pdmaYuv2rgbCoefLow : RegField := ⟨0, 11⟩

/-! ## The function -/

/-- The registers of a plane that is configured, with its pitch. -/
def pdmaPsRegs (plane : PdmaPlaneConfig) (pitch : BitVec 32) : PdmaPs where
  buf := pdmaPsBufAddr.set plane.buffer
  pitch := pdmaPsPitchBytelen.set pitch
  bkgd := pdmaPsBkgdColor.set plane.background
  scale := pdmaPsScaleX.set (half plane.xScale) ||| pdmaPsScaleY.set (half plane.yScale)
  offset := pdmaPsOffsetX.set (half plane.xOffset) ||| pdmaPsOffsetY.set (half plane.yOffset)
  clrkeyLow := pdmaPsClrkeyLimit.set plane.colorkeyLow
  clrkeyHigh := pdmaPsClrkeyLimit.set plane.colorkeyHigh
  org := pdmaPsOrgHight.set (half plane.height) ||| pdmaPsOrgWidth.set (half plane.width)
  ctrl := pdmaPsCtrlInb13Swap.set (flag plane.swapByte3Byte1)
    ||| pdmaPsCtrlPackDir.set plane.byteorder.code
    ||| pdmaPsCtrlBkgcl4clr.set (flag plane.useBackgroundAsClear)
    ||| pdmaPsCtrlYcbcrMode.set (flag plane.ycbcrMode)
    ||| pdmaPsCtrlBypass.set (flag plane.bypassColorspaceConversion)
    ||| pdmaPsCtrlFlip.set plane.flip.code
    ||| pdmaPsCtrlRotate.set plane.rotate.code
    ||| pdmaPsCtrlDecy.set plane.yDec.code
    ||| pdmaPsCtrlDecx.set plane.xDec.code
    ||| pdmaPsCtrlHwByteSwap.set (flag plane.byteSwap)
    ||| pdmaPsCtrlFormat.set (pdmaPixelFormat plane.pixelFormat)

/-- The registers of the conversion. -/
def pdmaYuv2rgbRegs (r : PdmaPlaneRegs) (coef : DisplayYuv2rgbCoef) : PdmaPlaneRegs :=
  { r with
    yuv2rgbCoef0 := pdmaYuv2rgbCoef0C0.set (half coef.c0)
      ||| pdmaYuv2rgbCoef0UvOffset.set (half coef.uvOffset)
      ||| pdmaYuv2rgbCoef0YOffset.set (half coef.yOffset)
    yuv2rgbCoef1 := pdmaYuv2rgbCoefHigh.set (half coef.c1)
      ||| pdmaYuv2rgbCoefLow.set (half coef.c4)
    yuv2rgbCoef2 := pdmaYuv2rgbCoefHigh.set (half coef.c2)
      ||| pdmaYuv2rgbCoefLow.set (half coef.c3) }

/-- How a call stops. -/
inductive PdmaFault where
  | assertion
  | nullDereference
  deriving DecidableEq, Repr

/-- `assert`. -/
def pdmaAssert (b : Bool) : Except PdmaFault Unit := if b then .ok () else .error .assertion

/-- A member of what a pointer points to is read. -/
def pdmaDeref {α : Type} : Option α → Except PdmaFault α
  | some x => .ok x
  | none => .error .nullDereference

/-- The assertion on a plane that is not null. -/
def pdmaAssertColorspace (plane : Option PdmaPlaneConfig) (yuv2rgb : Option DisplayYuv2rgbCoef) :
    Except PdmaFault Unit :=
  match plane with
  | none => .ok ()
  | some plane => pdmaAssert (plane.bypassColorspaceConversion || yuv2rgb.isSome)

/-- `!(is_yuv(src) && is_yuv(dst)) || (src format == dst format)`, from left to right. -/
def pdmaAssertFormats (planeSrc planeDst : Option PdmaPlaneConfig) : Except PdmaFault Unit := do
  let src ← pdmaDeref planeSrc
  if displayPixelFormatIsYuvFormat src.pixelFormat then
    let dst ← pdmaDeref planeDst
    pdmaAssert (!displayPixelFormatIsYuvFormat dst.pixelFormat
      || src.pixelFormat == dst.pixelFormat)

/-- The pitch of the source plane. -/
def pdmaSrcPitch (src : PdmaPlaneConfig) : BitVec 32 :=
  if src.pitch = 0 then displayGetPitchLengthInByte src.pixelFormat (half src.width)
  else half src.pitch

/-- The pitch of the destination plane, which is taken from the source plane where it is 0. -/
def pdmaDstPitch (planeSrc : Option PdmaPlaneConfig) (dst : PdmaPlaneConfig) :
    Except PdmaFault (BitVec 32) :=
  if dst.pitch = 0 then do
    let src ← pdmaDeref planeSrc
    return displayGetPitchLengthInByte src.pixelFormat (half src.width)
  else return half dst.pitch

/-- `pdma_config_planes`. -/
def pdmaConfigPlanes (r : PdmaPlaneRegs) (planeSrc planeDst : Option PdmaPlaneConfig)
    (yuv2rgb : Option DisplayYuv2rgbCoef) : Except PdmaFault PdmaPlaneRegs := do
  pdmaAssert (planeSrc.isSome || planeDst.isSome)
  pdmaAssertColorspace planeSrc yuv2rgb
  pdmaAssertColorspace planeDst yuv2rgb
  if planeSrc.isSome || planeDst.isSome then
    pdmaAssertFormats planeSrc planeDst
  let r := match planeSrc with
    | none => r
    | some src => { r with src := pdmaPsRegs src (pdmaSrcPitch src) }
  let r ← match planeDst with
    | none => pure r
    | some dst => do
      let pitch ← pdmaDstPitch planeSrc dst
      pure { r with dst := pdmaPsRegs dst pitch }
  match yuv2rgb with
  | none => return r
  | some coef => return pdmaYuv2rgbRegs r coef

end HpmSdk.Pdma
