import HpmSdk.Foundation.Registers

set_option autoImplicit false

/-!
# Pixels (`hpm_display_common.h`)

The types that the PDMA and the LCDC share: the formats of a pixel with their sizes, the order of
its bytes, the coefficients of a conversion, and how two pixels are blended.  A `code` is the
value of the enumeration in the source.
-/

namespace HpmSdk

/-! ## Formats -/

/-- `display_pixel_format_t`. -/
inductive DisplayPixelFormat where
  | argb8888
  | rgb565
  | rgb555
  | rgb444
  | gbr422
  | yuv422
  | ycbcr422
  deriving DecidableEq, Repr

/-- `display_get_pixel_size_in_bit`. -/
def displayGetPixelSizeInBit : DisplayPixelFormat → BitVec 8
  | .argb8888 => 32
  | .rgb565 => 16
  | .yuv422 => 16
  | .ycbcr422 => 16
  | .rgb555 | .rgb444 | .gbr422 => 0

/-- `display_pixel_format_is_yuv_format`. -/
def displayPixelFormatIsYuvFormat : DisplayPixelFormat → Bool
  | .yuv422 => true
  | .ycbcr422 => true
  | .argb8888 | .rgb565 | .rgb555 | .rgb444 | .gbr422 => false

/-- `display_get_pixel_size_in_byte`. -/
def displayGetPixelSizeInByte (format : DisplayPixelFormat) : BitVec 8 :=
  displayGetPixelSizeInBit format >>> 3

/-- `display_get_pitch_length_in_byte`. -/
def displayGetPitchLengthInByte (format : DisplayPixelFormat) (widthInPixel : BitVec 32) :
    BitVec 32 :=
  widthInPixel * (displayGetPixelSizeInBit format >>> 3).setWidth 32

/-- `display_byteorder_t`. -/
inductive DisplayByteorder where
  | a3a2a1a0
  | a2a3a0a1
  | a1a0a3a2
  | a0a1a2a3
  deriving DecidableEq, Repr

def DisplayByteorder.code : DisplayByteorder → BitVec 32
  | a3a2a1a0 => 0
  | a2a3a0a1 => 1
  | a1a0a3a2 => 2
  | a0a1a2a3 => 3

/-- `display_yuv_format_t`. -/
inductive DisplayYuvFormat where
  | mode422U1y1v1y2
  | mode422V1y1u1y2
  | mode422Y1u1y2v1
  | mode422Y1v1y2u1
  deriving DecidableEq, Repr

def DisplayYuvFormat.code : DisplayYuvFormat → BitVec 32
  | mode422U1y1v1y2 => 0
  | mode422V1y1u1y2 => 1
  | mode422Y1u1y2v1 => 2
  | mode422Y1v1y2u1 => 3

/-- `display_yuv2rgb_coef_t`. -/
structure DisplayYuv2rgbCoef where
  c0 : BitVec 16
  c1 : BitVec 16
  c2 : BitVec 16
  c3 : BitVec 16
  c4 : BitVec 16
  uvOffset : BitVec 16
  yOffset : BitVec 16
  deriving DecidableEq, Repr

/-! ## Alpha blending -/

/-- `display_alpha_op_t`. -/
inductive DisplayAlphaOp where
  | invalid
  | override
  | scale
  deriving DecidableEq, Repr

def DisplayAlphaOp.code : DisplayAlphaOp → BitVec 32
  | invalid => 0
  | override => 1
  | scale => 2

/-- `display_alphablend_mode_t`. -/
inductive DisplayAlphablendMode where
  | clear
  | src
  | dst
  | srcOver
  | dstOver
  | srcIn
  | dstIn
  | srcOut
  | dstOut
  | srcAtTop
  | dstAtTop
  | xor
  | plus
  | modulate
  | srcOrg
  | dstOrg
  deriving DecidableEq, Repr

def DisplayAlphablendMode.code : DisplayAlphablendMode → BitVec 32
  | clear => 0
  | src => 1
  | dst => 2
  | srcOver => 3
  | dstOver => 4
  | srcIn => 5
  | dstIn => 6
  | srcOut => 7
  | dstOut => 8
  | srcAtTop => 9
  | dstAtTop => 10
  | xor => 11
  | plus => 12
  | modulate => 13
  | srcOrg => 14
  | dstOrg => 15

/-- `display_alphablend_option_t`. -/
structure DisplayAlphablendOption where
  dstAlpha : BitVec 8
  srcAlpha : BitVec 8
  dstAlphaOp : DisplayAlphaOp
  srcAlphaOp : DisplayAlphaOp
  mode : DisplayAlphablendMode
  deriving DecidableEq, Repr

/-! ## Values of register fields -/

/-- `(uint32_t)(x)` of a flag. -/
def flag (b : Bool) : BitVec 32 := if b then 1 else 0

/-- `(uint32_t)(x)` of a half word. -/
def half (x : BitVec 16) : BitVec 32 := x.setWidth 32

end HpmSdk
