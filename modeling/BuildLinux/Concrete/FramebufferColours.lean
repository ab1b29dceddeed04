/-
The colours of driver/drm/testcamera: the macros of Framebuffer.h, and the two
conversions from YUV in Framebuffer.cxx.

Both conversions compute the same three channels and differ in how they pack
them, so that the 16-bit colour of a pixel is the reduction of its 24-bit one.
-/

import Mathlib.Tactic.IntervalCases

namespace BuildLinux.Concrete.FramebufferColours

abbrev Byte := BitVec 8

theorem widen_injective {narrow wide : Nat} (fits : narrow ≤ wide) {left right : BitVec narrow} :
    left.setWidth wide = right.setWidth wide ↔ left = right := by
  constructor
  · intro same
    have narrowed := congrArg (BitVec.setWidth narrow) same
    rwa [BitVec.setWidth_setWidth_of_le _ fits, BitVec.setWidth_setWidth_of_le _ fits,
      BitVec.setWidth_eq, BitVec.setWidth_eq] at narrowed
  · exact congrArg _

/-- `MAKERGB`. -/
def makeRgb (r g b : Byte) : BitVec 32 :=
  (r.setWidth 32 <<< 16) ||| (g.setWidth 32 <<< 8) ||| b.setWidth 32

/-- `MAKERGB565`. -/
def makeRgb565 (r g b : Byte) : BitVec 16 :=
  ((r.setWidth 16 >>> 3) <<< 11) ||| ((g.setWidth 16 >>> 2) <<< 5) ||| (b.setWidth 16 >>> 3)

/-- `RGB_TO_RGB565`. -/
def rgbToRgb565 (c : BitVec 32) : BitVec 16 :=
  ((((c &&& 0xff0000) >>> 19) <<< 11) ||| (((c &&& 0xff00) >>> 10) <<< 5) |||
    ((c &&& 0xff) >>> 3)).setWidth 16

def clampByte (channel : Int) : Byte :=
  if channel < 0 then 0 else if 255 < channel then 255 else BitVec.ofInt 8 channel

/-- A byte as the `int` that it is promoted to. -/
def asInt (byte : Byte) : Int := byte.toNat

def redOf (y v : Byte) : Byte := clampByte ((asInt y * 256 + 359 * (asInt v - 128)) / 256)

def greenOf (y u v : Byte) : Byte :=
  clampByte ((asInt y * 256 - 88 * (asInt u - 128) - 183 * (asInt v - 128)) / 256)

def blueOf (y u : Byte) : Byte := clampByte ((asInt y * 256 + 454 * (asInt u - 128)) / 256)

def yuv2rgb (y u v : Byte) : BitVec 32 := makeRgb (redOf y v) (greenOf y u v) (blueOf y u)

def yuv2rgb565 (y u v : Byte) : BitVec 16 := makeRgb565 (redOf y v) (greenOf y u v) (blueOf y u)

theorem rgbToRgb565_makeRgb (r g b : Byte) : rgbToRgb565 (makeRgb r g b) = makeRgb565 r g b := by
  apply BitVec.eq_of_getLsbD_eq
  intro index inRange
  simp only [rgbToRgb565, makeRgb, makeRgb565, BitVec.getLsbD_setWidth, BitVec.getLsbD_or,
    BitVec.getLsbD_shiftLeft, BitVec.getLsbD_and, BitVec.getLsbD_ushiftRight]
  interval_cases index <;> simp

theorem rgbToRgb565_yuv2rgb (y u v : Byte) : rgbToRgb565 (yuv2rgb y u v) = yuv2rgb565 y u v :=
  rgbToRgb565_makeRgb _ _ _

end BuildLinux.Concrete.FramebufferColours
