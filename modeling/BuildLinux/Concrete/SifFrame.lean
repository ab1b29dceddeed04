/-
VideoGetSifRgbFrame of driver/drm/testcamera/video.cxx: a quarter of a 640x480
YUYV frame as RGB pixels of 32 or 16 bits.

The two depths are two loop nests.  The one for 32 bits reads the frame from its
first row on, the one for 16 bits from its last but one upwards.  A pixel of the
output takes the bytes at 0, 1 and 3 behind its read pointer.  The loops run when
a frame was dequeued.
-/

import BuildLinux.PointerWalk
import BuildLinux.Concrete.DisplayPipeline
import BuildLinux.Concrete.FramebufferColours

namespace BuildLinux.Concrete.SifFrame

open FramebufferColours PointerWalk
open DisplayPipeline (IsInt)

/-- `pRGB` in pixels behind the output, `puyvy` in bytes behind the frame. -/
structure Cursor where
  pRGB : Int
  puyvy : Int
  deriving DecidableEq, Repr

/-- A pixel that is written, with where its colour is read. -/
structure Pixel where
  target : Int
  source : Int
  deriving DecidableEq, Repr

def Cursor.pixel (here : Cursor) : Pixel where
  target := here.pRGB
  source := here.puyvy

/-! ### The loops for 32 bits -/

def stepPixel32 (bFlip : Bool) (here : Cursor) : Cursor where
  pRGB := if bFlip then here.pRGB + 240 else here.pRGB + 1
  puyvy := here.puyvy + 4

def turnRow32 (bFlip : Bool) (vwidth nWidth : Int) (here : Cursor) : Cursor :=
  let pRGB := here.pRGB + (nWidth - 320)
  { pRGB := if bFlip then pRGB - (320 * 240 - 1) else pRGB
    puyvy := here.puyvy + vwidth * 2 }

/-! ### The loops for 16 bits -/

def startCursor16 (bFlip : Bool) (vwidth vheight : Int) : Cursor where
  pRGB := 0
  puyvy := if bFlip then (vwidth * (vheight - 1) - 1) * 2 else vwidth * (vheight - 2) * 2

def stepPixel16 (bFlip : Bool) (here : Cursor) : Cursor :=
  if bFlip then { pRGB := here.pRGB + 240, puyvy := here.puyvy - 4 }
  else { pRGB := here.pRGB + 1, puyvy := here.puyvy + 4 }

def turnRow16 (bFlip : Bool) (vwidth nWidth : Int) (here : Cursor) : Cursor :=
  if bFlip then
    { pRGB := here.pRGB - (nWidth * 240 - 1), puyvy := here.puyvy - vwidth * 2 }
  else { pRGB := here.pRGB + (nWidth - 320), puyvy := here.puyvy - vwidth * 3 * 2 }

/-- Turning a row of the flipped picture of 16 bits multiplies the width. -/
def WidthFits (bFlip : Bool) (nWidth : Int) : Prop :=
  bFlip = true → IsInt (nWidth * 240) ∧ IsInt (nWidth * 240 - 1)

instance (bFlip : Bool) (nWidth : Int) : Decidable (WidthFits bFlip nWidth) := by
  unfold WidthFits
  infer_instance

/-- The pixels in their order, for the capture size of the program. -/
def videoGetSifRgbFrame (bFlip : Bool) (nWidth nBps : Int) : Option (List Pixel) :=
  let vwidth : Int := 640
  let vheight : Int := 480
  let nWidth := if nWidth = 0 then 320 else nWidth
  if nBps = 32 then
    some (walk (stepPixel32 bFlip) (turnRow32 bFlip vwidth nWidth) Cursor.pixel 320 240
      { pRGB := 0, puyvy := 0 })
  else if WidthFits bFlip nWidth then
    some (walk (stepPixel16 bFlip) (turnRow16 bFlip vwidth nWidth) Cursor.pixel 320 240
      (startCursor16 bFlip vwidth vheight))
  else none

/-! ### What the pixels are -/

/-- The bytes that a pixel reads lie in the frame. -/
def ReadsInside (pixels : List Pixel) : Prop :=
  ∀ pixel ∈ pixels, 0 ≤ pixel.source ∧ pixel.source + 3 < 640 * 480 * 2

def colour32 (frame : Int → Byte) (puyvy : Int) : BitVec 32 :=
  yuv2rgb (frame puyvy) (frame (puyvy + 1)) (frame (puyvy + 3))

def colour16 (frame : Int → Byte) (puyvy : Int) : BitVec 16 :=
  yuv2rgb565 (frame puyvy) (frame (puyvy + 1)) (frame (puyvy + 3))

section Rendering

variable {value : Type}

/-- The output behind the loops, where a read at an offset gives a colour. -/
def rendered (colour : Int → value) (output : Int → value) (pixels : List Pixel) : Int → value :=
  applyWrites output (pixels.map fun pixel => (pixel.target, colour pixel.source))

theorem rendered_of_mem {pixels : List Pixel} (distinct : (pixels.map Pixel.target).Nodup)
    {pixel : Pixel} (member : pixel ∈ pixels) (colour output : Int → value) :
    rendered colour output pixels pixel.target = colour pixel.source := by
  have addresses :
      ((pixels.map fun pixel => (pixel.target, colour pixel.source)).map Prod.fst).Nodup := by
    rwa [List.map_map]
  exact applyWrites_of_mem addresses (List.mem_map_of_mem member)

end Rendering

/-! ### The pointers in closed form -/

def cursor32 (bFlip : Bool) (nWidth : Int) (row col : Nat) : Cursor where
  pRGB := if bFlip then col * 240 + row * (nWidth - 319) else row * nWidth + col
  puyvy := 2560 * row + 4 * col

def cursor16 (bFlip : Bool) (nWidth : Int) (row col : Nat) : Cursor :=
  if bFlip then
    { pRGB := col * 240 + row * (76801 - 240 * nWidth), puyvy := 613118 - 2560 * row - 4 * col }
  else { pRGB := row * nWidth + col, puyvy := 611840 - 2560 * row + 4 * col }

/-- The pixel of a row and a column of the loops. -/
def pixelAt (bFlip : Bool) (nWidth nBps : Int) (row col : Nat) : Pixel :=
  if nBps = 32 then (cursor32 bFlip nWidth row col).pixel
  else (cursor16 bFlip nWidth row col).pixel

theorem walk32_eq_grid (bFlip : Bool) (nWidth : Int) :
    walk (stepPixel32 bFlip) (turnRow32 bFlip 640 nWidth) Cursor.pixel 320 240
        { pRGB := 0, puyvy := 0 } =
      grid 240 320 fun row col => (cursor32 bFlip nWidth row col).pixel := by
  have start : ({ pRGB := 0, puyvy := 0 } : Cursor) = cursor32 bFlip nWidth 0 0 := by
    cases bFlip <;> simp [cursor32]
  rw [start]
  refine walk_eq_grid (fun row col => ?_) (fun row => ?_) 240
  · cases bFlip <;> simp only [stepPixel32, cursor32, if_true, Bool.false_eq_true, if_false,
      Cursor.mk.injEq] <;> constructor <;> push_cast <;> ring
  · cases bFlip <;> simp only [turnRow32, cursor32, if_true, Bool.false_eq_true, if_false,
      Cursor.mk.injEq] <;> constructor <;> push_cast <;> ring

theorem walk16_eq_grid (bFlip : Bool) (nWidth : Int) :
    walk (stepPixel16 bFlip) (turnRow16 bFlip 640 nWidth) Cursor.pixel 320 240
        (startCursor16 bFlip 640 480) =
      grid 240 320 fun row col => (cursor16 bFlip nWidth row col).pixel := by
  have start : startCursor16 bFlip 640 480 = cursor16 bFlip nWidth 0 0 := by
    cases bFlip <;> simp [startCursor16, cursor16]
  rw [start]
  refine walk_eq_grid (fun row col => ?_) (fun row => ?_) 240
  · cases bFlip <;> simp only [stepPixel16, cursor16, if_true, Bool.false_eq_true, if_false,
      Cursor.mk.injEq] <;> constructor <;> push_cast <;> ring
  · cases bFlip <;> simp only [turnRow16, cursor16, if_true, Bool.false_eq_true, if_false,
      Cursor.mk.injEq] <;> constructor <;> push_cast <;> ring

theorem videoGetSifRgbFrame_eq {bFlip : Bool} {nWidth nBps : Int} (given : nWidth ≠ 0) :
    videoGetSifRgbFrame bFlip nWidth nBps =
      if nBps = 32 ∨ WidthFits bFlip nWidth then
        some (grid 240 320 (pixelAt bFlip nWidth nBps))
      else none := by
  unfold videoGetSifRgbFrame
  dsimp only
  rw [if_neg given, walk32_eq_grid, walk16_eq_grid]
  by_cases deep : nBps = 32
  · rw [if_pos deep, if_pos (Or.inl deep)]
    unfold pixelAt
    simp only [if_pos deep]
  · unfold pixelAt
    simp only [deep, false_or, if_false]

/-- Every read lies in the frame, at both depths and in both orientations. -/
theorem reads_inside (bFlip : Bool) (nWidth nBps : Int) :
    ReadsInside (grid 240 320 (pixelAt bFlip nWidth nBps)) := by
  intro pixel member
  obtain ⟨row, inRows, col, inCols, rfl⟩ := mem_grid.mp member
  unfold pixelAt
  split
  · change 0 ≤ 2560 * (row : Int) + 4 * col ∧ 2560 * (row : Int) + 4 * col + 3 < _
    omega
  · cases bFlip with
    | true =>
        change 0 ≤ 613118 - 2560 * (row : Int) - 4 * col ∧
          613118 - 2560 * (row : Int) - 4 * col + 3 < _
        omega
    | false =>
        change 0 ≤ 611840 - 2560 * (row : Int) + 4 * col ∧
          611840 - 2560 * (row : Int) + 4 * col + 3 < _
        omega

/-! ### The picture that is not flipped -/

theorem upright_target (nWidth nBps : Int) (row col : Nat) :
    (pixelAt false nWidth nBps row col).target = (row : Int) * nWidth + col := by
  unfold pixelAt
  split <;> rfl

theorem upright_targets_nodup {nWidth : Int} (wide : 320 ≤ nWidth) (nBps : Int) :
    ((grid 240 320 (pixelAt false nWidth nBps)).map Pixel.target).Nodup := by
  rw [grid_map]
  refine grid_nodup fun row _ col inCols row' _ col' inCols' same => ?_
  rw [upright_target, upright_target] at same
  exact pitch_injective (by omega) (by omega) same

/-- What the output holds in a row and a column of the picture. -/
theorem upright_pixel {value : Type} {nWidth : Int} (wide : 320 ≤ nWidth) (nBps : Int)
    (colour output : Int → value) {row col : Nat} (inRows : row < 240) (inCols : col < 320) :
    rendered colour output (grid 240 320 (pixelAt false nWidth nBps)) (row * nWidth + col) =
      colour (if nBps = 32 then 2560 * row + 4 * col else 611840 - 2560 * row + 4 * col) := by
  have written := rendered_of_mem (upright_targets_nodup wide nBps)
    (mem_grid.mpr ⟨row, inRows, col, inCols, rfl⟩) colour output
  unfold pixelAt at written ⊢
  by_cases deep : nBps = 32
  · simp only [if_pos deep] at written ⊢
    exact written
  · simp only [if_neg deep] at written ⊢
    exact written

/-- At every place the output of 16 bits packs the pixel of the output of 32 bits. -/
def SamePicture (frame : Int → Byte) (nWidth : Int) : Prop :=
  ∃ wide narrow, videoGetSifRgbFrame false nWidth 32 = some wide ∧
    videoGetSifRgbFrame false nWidth 16 = some narrow ∧
    ReadsInside wide ∧ ReadsInside narrow ∧
    ∀ output32 output16, ∀ row : Nat, row < 240 → ∀ col : Nat, col < 320 →
      rendered (colour16 frame) output16 narrow (row * nWidth + col) =
        rgbToRgb565 (rendered (colour32 frame) output32 wide (row * nWidth + col))

theorem upright_some {nWidth : Int} (wide : 320 ≤ nWidth) (nBps : Int) :
    videoGetSifRgbFrame false nWidth nBps = some (grid 240 320 (pixelAt false nWidth nBps)) := by
  rw [videoGetSifRgbFrame_eq (by omega)]
  exact if_pos (Or.inr fun impossible => (nomatch impossible))

/-- The two outputs in terms of the frame. -/
theorem samePicture_bytes {frame : Int → Byte} {nWidth : Int} (wide : 320 ≤ nWidth) :
    SamePicture frame nWidth ↔
      ∀ row : Nat, row < 240 → ∀ col : Nat, col < 320 →
        colour16 frame (611840 - 2560 * row + 4 * col) = colour16 frame (2560 * row + 4 * col) := by
  have places : ∀ (output32 : Int → BitVec 32) (output16 : Int → BitVec 16) (row col : Nat),
      row < 240 → col < 320 →
      (rendered (colour16 frame) output16 (grid 240 320 (pixelAt false nWidth 16))
          (row * nWidth + col) =
        rgbToRgb565 (rendered (colour32 frame) output32
          (grid 240 320 (pixelAt false nWidth 32)) (row * nWidth + col)) ↔
      colour16 frame (611840 - 2560 * row + 4 * col) =
        colour16 frame (2560 * row + 4 * col)) := by
    intro output32 output16 row col inRows inCols
    rw [upright_pixel wide 16 _ _ inRows inCols, upright_pixel wide 32 _ _ inRows inCols,
      if_neg (by decide), if_pos rfl, colour32, rgbToRgb565_yuv2rgb]
    exact Iff.rfl
  constructor
  · rintro ⟨deep, narrow, isDeep, isNarrow, _, _, same⟩ row inRows col inCols
    rw [upright_some wide] at isDeep isNarrow
    obtain rfl := Option.some.inj isDeep
    obtain rfl := Option.some.inj isNarrow
    exact (places (fun _ => 0) (fun _ => 0) row col inRows inCols).mp
      (same (fun _ => 0) (fun _ => 0) row inRows col inCols)
  · intro same
    refine ⟨_, _, upright_some wide 32, upright_some wide 16, reads_inside false nWidth 32,
      reads_inside false nWidth 16, ?_⟩
    intro output32 output16 row inRows col inCols
    exact (places output32 output16 row col inRows inCols).mpr (same row inRows col inCols)

/-- The loops for 16 bits read the rows in the other order: both depths show the
same picture where it is its own mirror image. -/
theorem same_picture_iff {frame : Int → Byte} {nWidth : Int} (wide : 320 ≤ nWidth) :
    SamePicture frame nWidth ↔
      ∀ row : Nat, row < 240 → ∀ col : Nat, col < 320 →
        colour16 frame (1280 * (478 - 2 * row) + 4 * col) =
          colour16 frame (1280 * (2 * row) + 4 * col) := by
  rw [samePicture_bytes wide]
  refine forall₂_congr fun row _ => forall₂_congr fun col _ => ?_
  have bottom : 611840 - 2560 * (row : Int) + 4 * col = 1280 * (478 - 2 * row) + 4 * col := by
    ring
  have top : 2560 * (row : Int) + 4 * col = 1280 * (2 * row) + 4 * col := by ring
  rw [bottom, top]

/-- A white band across the middle of a black frame. -/
def band (offset : Int) : Byte :=
  if offset % 2 = 1 then 128 else if 1280 * 160 ≤ offset ∧ offset < 1280 * 319 then 255 else 0

theorem band_mirrored {row col byte : Int} (inCols : 0 ≤ col ∧ col < 320)
    (inPixel : 0 ≤ byte ∧ byte < 4) :
    band (1280 * (478 - 2 * row) + 4 * col + byte) = band (1280 * (2 * row) + 4 * col + byte) :=
  if_congr (by omega) rfl (if_congr (by omega) rfl rfl)

theorem same_picture_band : SamePicture band 320 := by
  refine (same_picture_iff (by decide)).mpr fun row _ col inCols => ?_
  have columns : (0 : Int) ≤ col ∧ (col : Int) < 320 := by omega
  have luma := @band_mirrored row col 0 columns (by decide)
  rw [Int.add_zero, Int.add_zero] at luma
  unfold colour16
  rw [luma, band_mirrored columns (by decide), band_mirrored columns (by decide)]

/-- A white upper half above a black lower half. -/
def halves (offset : Int) : Byte :=
  if offset % 2 = 1 then 128 else if offset < 1280 * 240 then 255 else 0

theorem halves_inverted : ¬SamePicture halves 320 := by
  intro same
  have corner := (samePicture_bytes (by decide)).mp same 0 (by decide) 0 (by decide)
  exact absurd corner (by decide)

end BuildLinux.Concrete.SifFrame
