/-
Where the pixels of the frame buffer land: FBDeviceInit and FBShowPixel of
driver/v4l2/video2lcd/display/fb.c, GetVideoBufForDisplay and PicMerge.

The hardware scans a line every `line_length` bytes, which the program reads and
never uses.  The exact condition says for which reports of the kernel this makes
no difference.
-/

import BuildLinux.Concrete.FbDevice
import BuildLinux.Concrete.PictureMerging

namespace BuildLinux.Concrete.FbGeometry

open DispManager (VideoBuf getVideoBufForDisplay)
open DisplayPipeline (IsInt PixelDatas)
open FbDevice (FbFixScreeninfo FbState FbVarScreeninfo Kernel fbDeviceInit fbShowPixel
  fbShowPixel_onScreen pixelBytes pixelBytes_depth signed signed_small unsigned unsigned_natCast
  wholeBytes word word_small)
open PictureMerging (copyLoop copyLoop_row picMerge pixelPointer)

def reports (var : FbVarScreeninfo) (fix : FbFixScreeninfo) (mmap : Option Nat) : Kernel where
  vscreeninfo := some var
  fscreeninfo := some fix
  mmap := mmap

structure Describes (buf : VideoBuf) (picture : PixelDatas) : Prop where
  iWidth : (picture.iWidth : Int) = buf.iWidth
  iHeight : (picture.iHeight : Int) = buf.iHeight
  iBpp : (picture.iBpp : Int) = buf.iBpp
  iLineBytes : (picture.iLineBytes : Int) = buf.iLineBytes

/-- Every row that `PicMerge` copies to the display lies on a line of the hardware. -/
def MergesToLines (var : FbVarScreeninfo) (fix : FbFixScreeninfo) (buf : VideoBuf) : Prop :=
  ∀ small big iX iY copies, Describes buf big → picMerge iX iY small big = some (0, copies) →
    ∀ (row : Nat) copy, copies[row]? = some copy →
      copy.destination = (iY + row) * fix.line_length + (iX * var.bits_per_pixel).tdiv 8

/-- What the hardware asks of the drawing functions; `x` and `y` are `int`s. -/
structure PixelsLand (var : FbVarScreeninfo) (fix : FbFixScreeninfo) (mmap : Option Nat)
    (state : FbState) : Prop where
  pixels : ∀ x y : Nat, x < var.xres → y < var.yres → x < 2 ^ 31 → y < 2 ^ 31 → ∀ dwColor,
    ∃ base bytes, mmap = some base ∧ pixelBytes var.bits_per_pixel dwColor = some bytes ∧
      fbShowPixel state x y dwColor =
        (0, [{ offset := base + (y * fix.line_length + x * var.bits_per_pixel / 8)
               bytes := bytes }]) ∧
      y * fix.line_length + x * var.bits_per_pixel / 8 + var.bits_per_pixel / 8 ≤
        state.g_dwScreenSize
  outside : ∀ iX iY : Int, IsInt iX → IsInt iY →
    ¬(0 ≤ iX ∧ iX < var.xres ∧ 0 ≤ iY ∧ iY < var.yres) → ∀ dwColor,
      fbShowPixel state iX iY dwColor = (-1, [])
  buffer : ∃ buf, getVideoBufForDisplay (some state.g_tFBOpr) = some buf ∧
    buf.iLineBytes = fix.line_length ∧ MergesToLines var fix buf

/-- The lines are not padded and the products of the sizes do not wrap; and the
frame buffer is mapped, unless the screen has no pixels. -/
structure GeometrySafe (var : FbVarScreeninfo) (fix : FbFixScreeninfo) (mmap : Option Nat) : Prop where
  pitch : fix.line_length = var.xres * var.bits_per_pixel / 8
  lineBits : var.xres * var.bits_per_pixel < 2 ^ 32
  screen : var.xres = 0 ∨ var.yres = 0 ∨
    var.xres * var.yres * var.bits_per_pixel < 2 ^ 32 ∧ mmap ≠ none

theorem unsigned_negative {value : Int} (isInt : IsInt value) (negative : value < 0) :
    2 ^ 31 ≤ unsigned value := by
  unfold IsInt at isInt
  unfold unsigned
  omega

def initialised (wordBits : Nat) (var : FbVarScreeninfo) (fix : FbFixScreeninfo)
    (mmap : Option Nat) (before : FbState) : FbState :=
  (fbDeviceInit wordBits (reports var fix mmap) before).2

section Geometry

variable (wordBits : Nat) {var : FbVarScreeninfo} {fix : FbFixScreeninfo} {mmap : Option Nat}
  (before : FbState)
  (depth : var.bits_per_pixel = 8 ∨ var.bits_per_pixel = 16 ∨ var.bits_per_pixel = 32)

include depth

theorem bytesOf (columns : Nat) :
    columns * var.bits_per_pixel / 8 = columns * (var.bits_per_pixel / 8) :=
  DisplayPipeline.lineBytes_whole (wholeBytes depth).1 columns

theorem screenBits : var.xres * var.yres * var.bits_per_pixel =
    8 * (var.yres * (var.xres * (var.bits_per_pixel / 8))) := by
  obtain ⟨size, isSize⟩ := (wholeBytes depth).1
  rw [isSize, Nat.mul_div_cancel_left size (by decide)]
  ring

theorem lineBits_eq : var.xres * var.bits_per_pixel =
    8 * (var.xres * (var.bits_per_pixel / 8)) := by
  obtain ⟨size, isSize⟩ := (wholeBytes depth).1
  rw [isSize, Nat.mul_div_cancel_left size (by decide)]
  ring

omit depth in
theorem pixel_inScreen {x y : Nat} (inLine : x < var.xres) (inHeight : y < var.yres) (size : Nat) :
    y * (var.xres * size) + x * size + size ≤ var.yres * (var.xres * size) := by
  have column := DisplayPipeline.pixel_inLine inLine size
  have row := DisplayPipeline.pixel_inLine inHeight (var.xres * size)
  omega

omit depth in
theorem picMerge_copies {iX iY : Int} {small big : PixelDatas} {copies : List PictureMerging.Copy}
    (accepted : picMerge iX iY small big = some (0, copies)) :
    copies = copyLoop small.iLineBytes small.iLineBytes big.iLineBytes small.iHeight 0
      (pixelPointer big iX iY) := by
  unfold picMerge at accepted
  split at accepted
  · cases accepted
  · split at accepted
    · cases accepted
      rfl
    · cases accepted

section Safe

variable (safe : GeometrySafe var fix mmap)

include safe

theorem safe_pixels {x y : Nat} (inLine : x < var.xres) (inHeight : y < var.yres)
    (dwColor : BitVec 32) :
    ∃ base bytes, mmap = some base ∧ pixelBytes var.bits_per_pixel dwColor = some bytes ∧
      fbShowPixel (initialised wordBits var fix mmap before) x y dwColor =
        (0, [{ offset := base + (y * fix.line_length + x * var.bits_per_pixel / 8)
               bytes := bytes }]) ∧
      y * fix.line_length + x * var.bits_per_pixel / 8 + var.bits_per_pixel / 8 ≤
        (initialised wordBits var fix mmap before).g_dwScreenSize := by
  obtain ⟨pitch, lineBits, screen⟩ := safe
  obtain ⟨bytes, isBytes, _⟩ := pixelBytes_depth depth dwColor
  have deep := (wholeBytes depth).2
  obtain ⟨small, mapped⟩ : var.xres * var.yres * var.bits_per_pixel < 2 ^ 32 ∧ mmap ≠ none := by
    rcases screen with noColumns | noRows | screen
    · omega
    · omega
    · exact screen
  obtain ⟨base, isBase⟩ := Option.ne_none_iff_exists'.mp mapped
  have inScreen := pixel_inScreen inLine inHeight (var.bits_per_pixel / 8)
  have total := screenBits depth
  rw [pitch, bytesOf depth, bytesOf depth]
  refine ⟨base, bytes, isBase, isBytes, ?_, ?_⟩
  · have column : x ≤ x * (var.bits_per_pixel / 8) := Nat.le_mul_of_pos_right x deep
    have row : y ≤ y * (var.xres * (var.bits_per_pixel / 8)) :=
      Nat.le_mul_of_pos_right y (Nat.mul_pos (by omega) deep)
    have lineWidth : (initialised wordBits var fix mmap before).g_dwLineWidth =
        var.xres * (var.bits_per_pixel / 8) := by
      change word (var.xres * var.bits_per_pixel) / 8 = _
      rw [word_small lineBits, bytesOf depth]
    have inRow : y * (initialised wordBits var fix mmap before).g_dwLineWidth < 2 ^ 32 := by
      rw [lineWidth]
      omega
    have inColumn : x * (var.bits_per_pixel / 8) < 2 ^ 32 := by omega
    have stored := @fbShowPixel_onScreen (initialised wordBits var fix mmap before) x y dwColor
      bytes inLine inHeight (by omega) (by omega) inRow inColumn isBytes
    rw [stored, lineWidth, Nat.add_assoc, isBase]
    rfl
  · change _ ≤ word (var.xres * var.yres * var.bits_per_pixel) / 8
    rw [word_small small, total]
    omega

theorem safe_outside {iX iY : Int} (isX : IsInt iX) (isY : IsInt iY)
    (outside : ¬(0 ≤ iX ∧ iX < var.xres ∧ 0 ≤ iY ∧ iY < var.yres)) (dwColor : BitVec 32) :
    fbShowPixel (initialised wordBits var fix mmap before) iX iY dwColor = (-1, []) := by
  obtain ⟨pitch, lineBits, screen⟩ := safe
  have deep := (wholeBytes depth).2
  have columns : var.xres ≤ var.xres * (var.bits_per_pixel / 8) := Nat.le_mul_of_pos_right _ deep
  have line := lineBits_eq depth
  have refused : unsigned iX ≥ var.xres ∨ unsigned iY ≥ var.yres := by
    rcases lt_or_ge iX 0 with negative | nonneg
    · have wrapped := unsigned_negative isX negative
      omega
    · lift iX to ℕ using nonneg
      rw [unsigned_natCast (show iX < 2 ^ 32 by have := isX.2; omega)]
      rcases Nat.lt_or_ge iX var.xres with inLine | behind
      · right
        rcases lt_or_ge iY 0 with negative | nonneg
        · have wrapped := unsigned_negative isY negative
          rcases screen with noColumns | noRows | ⟨small, _⟩
          · omega
          · omega
          · have rows : var.yres ≤ var.yres * (var.xres * (var.bits_per_pixel / 8)) :=
              Nat.le_mul_of_pos_right _ (Nat.mul_pos (by omega) deep)
            have total := screenBits depth
            omega
        · lift iY to ℕ using nonneg
          rw [unsigned_natCast (show iY < 2 ^ 32 by have := isY.2; omega)]
          omega
      · exact Or.inl behind
  exact if_pos refused

theorem safe_buffer : ∃ buf,
    getVideoBufForDisplay (some (initialised wordBits var fix mmap before).g_tFBOpr) = some buf ∧
      buf.iLineBytes = fix.line_length ∧ MergesToLines var fix buf := by
  obtain ⟨pitch, lineBits, screen⟩ := safe
  have deep := (wholeBytes depth).2
  have line := lineBits_eq depth
  have width : signed (word (var.xres * var.bits_per_pixel) / 8) = fix.line_length := by
    rw [word_small lineBits, signed_small (by omega), pitch]
  have total : IsInt (signed (word (var.xres * var.bits_per_pixel) / 8) * signed var.yres) := by
    rw [width, pitch, bytesOf depth]
    rcases Nat.eq_zero_or_pos (var.xres * (var.bits_per_pixel / 8)) with empty | some
    · rw [empty, Int.natCast_zero, Int.zero_mul]
      decide
    · rcases screen with noColumns | noRows | ⟨small, _⟩
      · rw [noColumns, Nat.zero_mul] at some
        exact absurd some (Nat.lt_irrefl 0)
      · rw [noRows, signed_small (by decide), Int.natCast_zero, Int.mul_zero]
        decide
      · have screenTotal := screenBits depth
        have rows : var.yres ≤ var.yres * (var.xres * (var.bits_per_pixel / 8)) :=
          Nat.le_mul_of_pos_right _ some
        rw [signed_small (by omega), ← Int.natCast_mul, Nat.mul_comm]
        unfold IsInt
        omega
  have depthInt : signed var.bits_per_pixel = var.bits_per_pixel := signed_small (by omega)
  refine ⟨_, if_pos total, width, ?_⟩
  intro small big iX iY copies describes accepted row copy isRow
  rw [picMerge_copies accepted] at isRow
  have lineBytes : (big.iLineBytes : Int) = fix.line_length := describes.iLineBytes.trans width
  have iBpp : (big.iBpp : Int) = var.bits_per_pixel := describes.iBpp.trans depthInt
  rw [copyLoop_row isRow, pixelPointer, lineBytes, iBpp]
  ring

end Safe

theorem land_safe (pitch : var.xres * var.bits_per_pixel / 8 ≤ fix.line_length)
    (land : PixelsLand var fix mmap (initialised wordBits var fix mmap before)) :
    GeometrySafe var fix mmap := by
  have deep := (wholeBytes depth).2
  have line := lineBits_eq depth
  obtain ⟨buf, isBuf, width, _⟩ := land.buffer
  have lineWidth : buf.iLineBytes = (word (var.xres * var.bits_per_pixel) / 8 : Nat) := by
    unfold getVideoBufForDisplay at isBuf
    rw [Option.bind_some] at isBuf
    split at isBuf
    · cases isBuf
      exact signed_small (by unfold word; omega)
    · cases isBuf
  have same : word (var.xres * var.bits_per_pixel) / 8 = fix.line_length :=
    Int.natCast_inj.mp (lineWidth.symm.trans width)
  unfold word at same
  have lineBits : var.xres * var.bits_per_pixel < 2 ^ 32 := by omega
  refine ⟨?_, lineBits, ?_⟩
  · rw [Nat.mod_eq_of_lt lineBits] at same
    exact same.symm
  · rcases Nat.eq_zero_or_pos var.xres with noColumns | wide
    · exact Or.inl noColumns
    rcases Nat.eq_zero_or_pos var.yres with noRows | high
    · exact Or.inr (Or.inl noRows)
    have lineBytes : fix.line_length = var.xres * (var.bits_per_pixel / 8) := by
      rw [Nat.mod_eq_of_lt lineBits, bytesOf depth] at same
      exact same.symm
    refine Or.inr (Or.inr ⟨?_, ?_⟩)
    · -- The last pixel that an int can name ends inside the screen.
      have lastColumn : (var.xres - 1) * (var.bits_per_pixel / 8) + var.bits_per_pixel / 8 =
          var.xres * (var.bits_per_pixel / 8) := by
        rw [← Nat.succ_mul]
        congr 1
        omega
      have some : 0 < var.xres * (var.bits_per_pixel / 8) := Nat.mul_pos wide deep
      have columns : var.xres ≤ var.xres * (var.bits_per_pixel / 8) :=
        Nat.le_mul_of_pos_right _ deep
      have ends {y : Nat} (inHeight : y < var.yres) (isInt : y < 2 ^ 31) :
          y * (var.xres * (var.bits_per_pixel / 8)) + var.xres * (var.bits_per_pixel / 8) ≤
            8 * (var.yres * (var.xres * (var.bits_per_pixel / 8))) % 2 ^ 32 / 8 := by
        obtain ⟨_, _, _, _, _, inScreen⟩ :=
          land.pixels (var.xres - 1) y (by omega) inHeight (by omega) isInt 0
        rw [lineBytes, bytesOf depth, Nat.add_assoc, lastColumn] at inScreen
        rw [← screenBits depth]
        exact inScreen
      rw [screenBits depth]
      rcases Nat.lt_or_ge (2 ^ 31) var.yres with tall | short
      · have last := ends (show 2 ^ 31 - 1 < var.yres by omega) (by decide)
        omega
      · have last := ends (show var.yres - 1 < var.yres by omega) (by omega)
        rw [← Nat.succ_mul, show (var.yres - 1).succ = var.yres by omega] at last
        omega
    · obtain ⟨base, _, isBase, _⟩ := land.pixels 0 0 wide high (by decide) (by decide) 0
      rw [isBase]
      exact Option.some_ne_none base

/-- The pixels land where the hardware scans them exactly for these reports. -/
theorem pixels_land_iff (pitch : var.xres * var.bits_per_pixel / 8 ≤ fix.line_length) :
    ((fbDeviceInit wordBits (reports var fix mmap) before).1 = 0 →
        PixelsLand var fix mmap (fbDeviceInit wordBits (reports var fix mmap) before).2) ↔
      GeometrySafe var fix mmap := by
  constructor
  · exact fun land => land_safe wordBits before depth pitch (land rfl)
  · intro safe _
    constructor
    · exact fun x y inLine inHeight _ _ => safe_pixels wordBits before depth safe inLine inHeight
    · exact fun iX iY isX isY => safe_outside wordBits before depth safe isX isY
    · exact safe_buffer wordBits before depth safe

end Geometry

def smallVar : FbVarScreeninfo where
  xres := 3
  yres := 2
  bits_per_pixel := 16

def zeroState : FbState where
  g_tFBVar := { xres := 0, yres := 0, bits_per_pixel := 0 }
  g_tFBFix := { line_length := 0 }
  g_pucFBMem := 0
  g_dwScreenSize := 0
  g_dwLineWidth := 0
  g_dwPixelWidth := 0
  g_tFBOpr := { iXres := 0, iYres := 0, iBpp := 0, iLineWidth := 0, pucDispMem := 0 }

theorem unpadded_lands :
    PixelsLand smallVar { line_length := 6 } (some 4096)
      (fbDeviceInit 64 (reports smallVar { line_length := 6 } (some 4096)) zeroState).2 :=
  (pixels_land_iff 64 zeroState (Or.inr (Or.inl rfl)) (by decide)).mpr
    ⟨by decide, by decide, Or.inr (Or.inr ⟨by decide, Option.some_ne_none 4096⟩)⟩ rfl

/-- Where a line is scanned every eight bytes, the second row begins in the first. -/
theorem padded_missed :
    (fbDeviceInit 64 (reports smallVar { line_length := 8 } (some 4096)) zeroState).1 = 0 ∧
    (fbShowPixel (fbDeviceInit 64 (reports smallVar { line_length := 8 } (some 4096)) zeroState).2
      0 1 0).2.map ByteStores.Store.offset = [4096 + 6] ∧
    ¬PixelsLand smallVar { line_length := 8 } (some 4096)
      (fbDeviceInit 64 (reports smallVar { line_length := 8 } (some 4096)) zeroState).2 := by
  refine ⟨rfl, by decide, fun land => ?_⟩
  obtain ⟨buf, isBuf, width, _⟩ := land.buffer
  cases isBuf
  exact absurd width (by decide)

end BuildLinux.Concrete.FbGeometry
