/-
driver/v4l2/video2lcd/display/fb.c: FBDeviceInit, FBShowPixel and FBCleanScreen.

The drawing functions are translated to their return value and the stores they
make, whose offsets are addresses.  What the kernel reports is an input, and
`unsigned int` arithmetic wraps.  An `int` that would overflow has no result.
-/

import BuildLinux.ByteStores
import BuildLinux.Concrete.DispManager

namespace BuildLinux.Concrete.FbDevice

open ByteStores
open DispManager (DispOpr)
open DisplayPipeline (IsInt)
open PixelConvert (littleEndian reduceRgb32)

def word (value : Nat) : Nat := value % 2 ^ 32

/-- An `int` where an `unsigned int` is expected. -/
def unsigned (value : Int) : Nat := (value % 2 ^ 32).toNat

/-- An `unsigned int` where an `int` is expected. -/
def signed (value : Nat) : Int := if value < 2 ^ 31 then value else (value : Int) - 2 ^ 32

structure FbVarScreeninfo where
  xres : Nat
  yres : Nat
  bits_per_pixel : Nat
  deriving DecidableEq, Repr

structure FbFixScreeninfo where
  line_length : Nat
  deriving DecidableEq, Repr

structure FbState where
  g_tFBVar : FbVarScreeninfo
  g_tFBFix : FbFixScreeninfo
  g_pucFBMem : Nat
  g_dwScreenSize : Nat
  g_dwLineWidth : Nat
  g_dwPixelWidth : Nat
  g_tFBOpr : DispOpr
  deriving DecidableEq, Repr

/-- What the calls into the kernel give; a failing `open` makes both `ioctl`s fail. -/
structure Kernel where
  vscreeninfo : Option FbVarScreeninfo
  fscreeninfo : Option FbFixScreeninfo
  mmap : Option Nat

def mapFailed (wordBits : Nat) : Nat := 2 ^ wordBits - 1

def fbDeviceInit (wordBits : Nat) (kernel : Kernel) (before : FbState) : Int × FbState :=
  match kernel.vscreeninfo with
  | none => (-1, before)
  | some var =>
      match kernel.fscreeninfo with
      | none => (-1, { before with g_tFBVar := var })
      | some fix =>
          -- No pointer is below 0, so that the test behind mmap never fails.
          let g_pucFBMem := kernel.mmap.getD (mapFailed wordBits)
          let lineBits := word (var.xres * var.bits_per_pixel)
          (0,
            { g_tFBVar := var
              g_tFBFix := fix
              g_pucFBMem := g_pucFBMem
              g_dwScreenSize := word (var.xres * var.yres * var.bits_per_pixel) / 8
              g_dwLineWidth := lineBits / 8
              g_dwPixelWidth := var.bits_per_pixel / 8
              g_tFBOpr :=
                { iXres := signed var.xres
                  iYres := signed var.yres
                  iBpp := signed var.bits_per_pixel
                  iLineWidth := signed (lineBits / 8)
                  pucDispMem := g_pucFBMem } })

/-- The colour as it is stored: 8 bits of it, packed to 565, or whole. -/
def pixelBytes (bits_per_pixel : Nat) (dwColor : BitVec 32) : Option (List Byte) :=
  match bits_per_pixel with
  | 8 => some [dwColor.setWidth 8]
  | 16 => some (littleEndian 2 (reduceRgb32 dwColor))
  | 32 => some (littleEndian 4 dwColor)
  | _ => none

def fbShowPixel (state : FbState) (iX iY : Int) (dwColor : BitVec 32) : Int × List Store :=
  if unsigned iX ≥ state.g_tFBVar.xres ∨ unsigned iY ≥ state.g_tFBVar.yres then (-1, [])
  else
    let pucFB := state.g_pucFBMem + word (state.g_dwLineWidth * unsigned iY) +
      word (state.g_dwPixelWidth * unsigned iX)
    match pixelBytes state.g_tFBVar.bits_per_pixel dwColor with
    | some bytes => (0, [{ offset := pucFB, bytes := bytes }])
    | none => (-1, [])

/-- `while (i < size) { *p = element; p++; i += sizeof(element); }`, with at most
`fuel` rounds. -/
def fillLoop (element : List Byte) (size : Int) : Nat → Int → Nat → Option (List Store)
  | 0, _, _ => some []
  | fuel + 1, i, pointer =>
      if i < size then
        if IsInt (i + element.length) then
          (fillLoop element size fuel (i + element.length) (pointer + element.length)).map
            fun stores => { offset := pointer, bytes := element } :: stores
        else none
      else some []

def memset (pointer : Nat) (dwColor : BitVec 32) (size : Nat) : Store where
  offset := pointer
  bytes := List.replicate size (dwColor.setWidth 8)

def fbCleanScreen (state : FbState) (dwBackColor : BitVec 32) : Option (Int × List Store) :=
  let size := state.g_dwScreenSize
  match state.g_tFBVar.bits_per_pixel with
  | 8 => some (0, [memset state.g_pucFBMem dwBackColor size])
  | 16 =>
      (fillLoop (littleEndian 2 (reduceRgb32 dwBackColor)) size size 0 state.g_pucFBMem).map
        fun stores => (0, stores)
  | 32 =>
      (fillLoop (littleEndian 4 dwBackColor) size size 0 state.g_pucFBMem).map
        fun stores => (0, stores)
  | _ => some (-1, [])

/-! ### Numbers and depths that make no difference -/

theorem word_small {value : Nat} (small : value < 2 ^ 32) : word value = value :=
  Nat.mod_eq_of_lt small

theorem signed_small {value : Nat} (small : value < 2 ^ 31) : signed value = value := if_pos small

theorem unsigned_natCast {value : Nat} (small : value < 2 ^ 32) : unsigned (value : Int) = value := by
  unfold unsigned
  omega

section Depth

variable {bits_per_pixel : Nat}
  (depth : bits_per_pixel = 8 ∨ bits_per_pixel = 16 ∨ bits_per_pixel = 32)

include depth

theorem wholeBytes : 8 ∣ bits_per_pixel ∧ 0 < bits_per_pixel / 8 := by
  rcases depth with rfl | rfl | rfl
  · decide
  · decide
  · decide

theorem pixelBytes_depth (dwColor : BitVec 32) :
    ∃ bytes, pixelBytes bits_per_pixel dwColor = some bytes ∧
      bytes.length = bits_per_pixel / 8 := by
  rcases depth with rfl | rfl | rfl
  · exact ⟨_, rfl, rfl⟩
  · exact ⟨_, rfl, rfl⟩
  · exact ⟨_, rfl, rfl⟩

end Depth

theorem fbShowPixel_onScreen {state : FbState} {x y : Nat} {dwColor : BitVec 32}
    {bytes : List Byte} (inLine : x < state.g_tFBVar.xres) (inHeight : y < state.g_tFBVar.yres)
    (smallX : x < 2 ^ 32) (smallY : y < 2 ^ 32) (row : y * state.g_dwLineWidth < 2 ^ 32)
    (column : x * state.g_dwPixelWidth < 2 ^ 32)
    (isBytes : pixelBytes state.g_tFBVar.bits_per_pixel dwColor = some bytes) :
    fbShowPixel state x y dwColor =
      (0, [{ offset := state.g_pucFBMem + y * state.g_dwLineWidth + x * state.g_dwPixelWidth
             bytes := bytes }]) := by
  have onScreen : ¬(unsigned x ≥ state.g_tFBVar.xres ∨ unsigned y ≥ state.g_tFBVar.yres) := by
    rw [unsigned_natCast smallX, unsigned_natCast smallY]
    omega
  unfold fbShowPixel
  rw [if_neg onScreen, unsigned_natCast smallX, unsigned_natCast smallY,
    Nat.mul_comm state.g_dwLineWidth, Nat.mul_comm state.g_dwPixelWidth, word_small row,
    word_small column, isBytes]

end BuildLinux.Concrete.FbDevice
