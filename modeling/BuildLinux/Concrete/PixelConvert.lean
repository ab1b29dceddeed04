/-
The converters of driver/v4l2/video2lcd/convert: YUYV, RGB565 and decoded JPEG
rows to the pixels of the display.

Each packing loop is translated with its own pointers and element widths.  What
they all compute is one picture: pixel by pixel the colour of the frame, stored
as 0x00RRGGBB or packed to 565.  The sizes are `int`s, so a picture of 2^31 bytes
or more has no converted one.
-/

import BuildLinux.ByteStores
import Mathlib.Tactic.IntervalCases

namespace BuildLinux.Concrete.PixelConvert

open ByteStores

/-- `iPixelFormat` of the display: `V4L2_PIX_FMT_RGB565` or `V4L2_PIX_FMT_RGB32`. -/
inductive Depth where
  | rgb565
  | rgb32
  deriving DecidableEq, Repr

def Depth.iBpp : Depth → Nat
  | .rgb565 => 16
  | .rgb32 => 32

def Depth.pixelBytes : Depth → Nat
  | .rgb565 => 2
  | .rgb32 => 4

def littleEndian (count : Nat) (color : BitVec 32) : List Byte :=
  (List.range count).map fun index => (color >>> (8 * index)).setWidth 8

/-! ### yuv2rgb.c -/

/-- `R_FROMYV`, `G_FROMYUV` and `B_FROMYU` of color.c. -/
structure ColorTables where
  rFromYv : Byte → Byte → Byte
  gFromYuv : Byte → Byte → Byte → Byte
  bFromYu : Byte → Byte → Byte

def packRgb565 (r g b : Byte) : BitVec 32 :=
  ((r.setWidth 32 >>> 3) <<< 11) ||| ((g.setWidth 32 >>> 2) <<< 5) ||| (b.setWidth 32 >>> 3)

def packRgb32 (r g b : Byte) : BitVec 32 :=
  (r.setWidth 32 <<< 16) ||| (g.setWidth 32 <<< 8) ||| b.setWidth 32

def lowByte (color : BitVec 32) : Byte := (color &&& 0xff#32).setWidth 8

def nextByte (color : BitVec 32) : Byte := ((color >>> 8) &&& 0xff#32).setWidth 8

def pyuv422torgb565Loop (tables : ColorTables) (input_ptr : Nat → Byte) :
    Nat → Nat → Nat → List Store
  | 0, _, _ => []
  | i + 1, buff, output_pt =>
      let y := input_ptr buff
      let u := input_ptr (buff + 1)
      let y1 := input_ptr (buff + 2)
      let v := input_ptr (buff + 3)
      let color := packRgb565 (tables.rFromYv y v) (tables.gFromYuv y u v) (tables.bFromYu y u)
      let color1 :=
        packRgb565 (tables.rFromYv y1 v) (tables.gFromYuv y1 u v) (tables.bFromYu y1 u)
      { offset := output_pt, bytes := [lowByte color] } ::
        { offset := output_pt + 1, bytes := [nextByte color] } ::
        { offset := output_pt + 2, bytes := [lowByte color1] } ::
        { offset := output_pt + 3, bytes := [nextByte color1] } ::
        pyuv422torgb565Loop tables input_ptr i (buff + 4) (output_pt + 4)

def pyuv422torgb565 (tables : ColorTables) (input_ptr : Nat → Byte)
    (image_width image_height : Nat) : List Store :=
  pyuv422torgb565Loop tables input_ptr (image_width * image_height % 2 ^ 32 / 2) 0 0

def pyuv422torgb32Loop (tables : ColorTables) (input_ptr : Nat → Byte) :
    Nat → Nat → Nat → List Store
  | 0, _, _ => []
  | i + 1, buff, output_pt =>
      let y := input_ptr buff
      let u := input_ptr (buff + 1)
      let y1 := input_ptr (buff + 2)
      let v := input_ptr (buff + 3)
      let color := packRgb32 (tables.rFromYv y v) (tables.gFromYuv y u v) (tables.bFromYu y u)
      let color1 :=
        packRgb32 (tables.rFromYv y1 v) (tables.gFromYuv y1 u v) (tables.bFromYu y1 u)
      { offset := output_pt, bytes := littleEndian 4 color } ::
        { offset := output_pt + 4, bytes := littleEndian 4 color1 } ::
        pyuv422torgb32Loop tables input_ptr i (buff + 4) (output_pt + 8)

def pyuv422torgb32 (tables : ColorTables) (input_ptr : Nat → Byte)
    (image_width image_height : Nat) : List Store :=
  pyuv422torgb32Loop tables input_ptr (image_width * image_height % 2 ^ 32 / 2) 0 0

/-! ### rgb2rgb.c -/

/-- `pwSrc[index]`, a little-endian halfword. -/
def halfword (datas : Nat → Byte) (index : Nat) : BitVec 32 :=
  (datas (2 * index + 1) ++ datas (2 * index)).setWidth 32

def expandRgb565 (color : BitVec 32) : BitVec 32 :=
  let r := color >>> 11
  let g := (color >>> 5) &&& 0x3f#32
  let b := color &&& 0x1f#32
  ((r <<< 3) <<< 16) ||| ((g <<< 2) <<< 8) ||| (b <<< 3)

def rgb2RgbRow (datas : Nat → Byte) : Nat → Nat → Nat → List Store
  | 0, _, _ => []
  | x + 1, pwSrc, pdwDest =>
      { offset := pdwDest, bytes := littleEndian 4 (expandRgb565 (halfword datas pwSrc)) } ::
        rgb2RgbRow datas x (pwSrc + 1) (pdwDest + 4)

def rgb2RgbRows (datas : Nat → Byte) (iWidth : Nat) : Nat → Nat → Nat → List Store
  | 0, _, _ => []
  | y + 1, pwSrc, pdwDest =>
      rgb2RgbRow datas iWidth pwSrc pdwDest ++
        rgb2RgbRows datas iWidth y (pwSrc + iWidth) (pdwDest + 4 * iWidth)

/-- The copy of `iTotalBytes` when both formats are 565, else the pixel loop. -/
def rgb2RgbConvert (datas : Nat → Byte) (iWidth iHeight : Nat) : Depth → List Store
  | .rgb565 =>
      [{ offset := 0, bytes := (List.range (iWidth * 16 / 8 * iHeight)).map datas }]
  | .rgb32 => rgb2RgbRows datas iWidth iHeight 0 0

/-! ### mjpeg2rgb.c -/

def covertPixels (iDstBpp : Nat) (pudSrcDatas : Nat → Byte) : Nat → Nat → Nat → List Store
  | 0, _, _ => []
  | i + 1, pos, pudDstDatas =>
      let dwRed := pudSrcDatas pos
      let dwGreen := pudSrcDatas (pos + 1)
      let dwBlue := pudSrcDatas (pos + 2)
      if iDstBpp = 32 then
        { offset := pudDstDatas, bytes := littleEndian 4 (packRgb32 dwRed dwGreen dwBlue) } ::
          covertPixels iDstBpp pudSrcDatas i (pos + 3) (pudDstDatas + 4)
      else if iDstBpp = 16 then
        { offset := pudDstDatas, bytes := littleEndian 2 (packRgb565 dwRed dwGreen dwBlue) } ::
          covertPixels iDstBpp pudSrcDatas i (pos + 3) (pudDstDatas + 2)
      else covertPixels iDstBpp pudSrcDatas i (pos + 3) pudDstDatas

def covertOneLine (iWidth iSrcBpp iDstBpp : Nat) (pudSrcDatas : Nat → Byte)
    (pudDstDatas : Nat) : Int × List Store :=
  if iSrcBpp ≠ 24 then (-1, [])
  else if iDstBpp = 24 then
    (0, [{ offset := pudDstDatas, bytes := (List.range (iWidth * 3)).map pudSrcDatas }])
  else (0, covertPixels iDstBpp pudSrcDatas iWidth 0 pudDstDatas)

/-- The loop over `count` more scanlines from `output_scanline`. -/
def mjpegScanlines (scanlines : Nat → Nat → Byte) (iWidth iBpp : Nat) :
    Nat → Nat → Nat → List Store
  | 0, _, _ => []
  | count + 1, output_scanline, pucDest =>
      (covertOneLine iWidth 24 iBpp (scanlines output_scanline) pucDest).2 ++
        mjpegScanlines scanlines iWidth iBpp count (output_scanline + 1)
          (pucDest + iWidth * iBpp / 8)

/-! ### Frames -/

inductive CameraDatas where
  | yuyv (bytes : Nat → Byte)
  | rgb565 (bytes : Nat → Byte)
  | jpeg (scanlines : Nat → Nat → Byte)

structure CameraFrame where
  iWidth : Nat
  iHeight : Nat
  datas : CameraDatas

def CameraFrame.lineBytes (frame : CameraFrame) (depth : Depth) : Nat :=
  frame.iWidth * depth.iBpp / 8

def CameraFrame.totalBytes (frame : CameraFrame) (depth : Depth) : Nat :=
  frame.lineBytes depth * frame.iHeight

/-- `iWidth * iBpp` and `iLineBytes * iHeight` are values of an `int`. -/
def CameraFrame.SizesDefined (frame : CameraFrame) (depth : Depth) : Prop :=
  frame.iWidth * depth.iBpp < 2 ^ 31 ∧ frame.totalBytes depth < 2 ^ 31

instance (frame : CameraFrame) (depth : Depth) : Decidable (frame.SizesDefined depth) :=
  inferInstanceAs (Decidable (_ ∧ _))

/-- The stores into the buffer of the converted picture. -/
def convertStores (tables : ColorTables) (frame : CameraFrame) (depth : Depth) : List Store :=
  match frame.datas with
  | .yuyv bytes =>
      match depth with
      | .rgb565 => pyuv422torgb565 tables bytes frame.iWidth frame.iHeight
      | .rgb32 => pyuv422torgb32 tables bytes frame.iWidth frame.iHeight
  | .rgb565 bytes => rgb2RgbConvert bytes frame.iWidth frame.iHeight depth
  | .jpeg scanlines => mjpegScanlines scanlines frame.iWidth depth.iBpp frame.iHeight 0 0

/-- `Convert`, from the sizes on; none where one of them is no `int`. -/
def convert (tables : ColorTables) (frame : CameraFrame) (depth : Depth) : Option (List Store) :=
  if frame.SizesDefined depth then some (convertStores tables frame depth) else none

def CameraFrame.EvenPixels (frame : CameraFrame) : Prop :=
  match frame.datas with
  | .yuyv _ => 2 ∣ frame.iWidth * frame.iHeight
  | .rgb565 _ => True
  | .jpeg _ => True

/-! ### Reduction to 565 as in `FBShowPixel` and `ClearVideoMem` -/

def reduceRgb32 (dwColor : BitVec 32) : BitVec 32 :=
  let iRed := (dwColor >>> (16 + 3)) &&& 0x1f#32
  let iGreen := (dwColor >>> (8 + 2)) &&& 0x3f#32
  let iBlue := (dwColor >>> 3) &&& 0x1f#32
  (iRed <<< 11) ||| (iGreen <<< 5) ||| iBlue

def reducePicture : List Byte → List Byte
  | b0 :: b1 :: b2 :: b3 :: rest =>
      littleEndian 2 (reduceRgb32 (b3 ++ (b2 ++ (b1 ++ b0)))) ++ reducePicture rest
  | _ => []

/-! ### The picture of a frame -/

def yuyvColour (tables : ColorTables) (bytes : Nat → Byte) (place : Nat) : BitVec 32 :=
  let pair := 4 * (place / 2)
  let y := bytes (pair + 2 * (place % 2))
  let u := bytes (pair + 1)
  let v := bytes (pair + 3)
  packRgb32 (tables.rFromYv y v) (tables.gFromYuv y u v) (tables.bFromYu y u)

def rgb565Colour (bytes : Nat → Byte) (place : Nat) : BitVec 32 :=
  expandRgb565 (halfword bytes place)

def scanlineColour (scanline : Nat → Byte) (x : Nat) : BitVec 32 :=
  packRgb32 (scanline (3 * x)) (scanline (3 * x + 1)) (scanline (3 * x + 2))

/-- The colour 0x00RRGGBB of pixel `(x, y)`. -/
def CameraFrame.colour (tables : ColorTables) (frame : CameraFrame) (x y : Nat) : BitVec 32 :=
  match frame.datas with
  | .yuyv bytes => yuyvColour tables bytes (y * frame.iWidth + x)
  | .rgb565 bytes => rgb565Colour bytes (y * frame.iWidth + x)
  | .jpeg scanlines => scanlineColour (scanlines y) x

def colourBytes (depth : Depth) (color : BitVec 32) : List Byte :=
  match depth with
  | .rgb565 => littleEndian 2 (reduceRgb32 color)
  | .rgb32 => littleEndian 4 color

def pictureBytes (depth : Depth) (colour : Nat → BitVec 32) (start count : Nat) : List Byte :=
  (List.range' start count).flatMap fun place => colourBytes depth (colour place)

/-- The stores put `count` pixels from the place `start` on, one after the other. -/
def Draws (depth : Depth) (colour : Nat → BitVec 32) (start count : Nat)
    (stores : List Store) : Prop :=
  Contiguous (start * depth.pixelBytes) stores ∧
    contents stores = pictureBytes depth colour start count

theorem colourBytes_length (depth : Depth) (color : BitVec 32) :
    (colourBytes depth color).length = depth.pixelBytes := by
  cases depth <;> rfl

theorem pictureBytes_length (depth : Depth) (colour : Nat → BitVec 32) (start count : Nat) :
    (pictureBytes depth colour start count).length = count * depth.pixelBytes := by
  rw [pictureBytes, flatMap_length fun place => colourBytes_length depth (colour place),
    List.length_range']

theorem Draws.nothing (depth : Depth) (colour : Nat → BitVec 32) (start : Nat) :
    Draws depth colour start 0 [] :=
  ⟨trivial, rfl⟩

theorem Draws.append {depth : Depth} {colour : Nat → BitVec 32} {start first second : Nat}
    {left right : List Store} (drawn : Draws depth colour start first left)
    (more : Draws depth colour (start + first) second right) :
    Draws depth colour start (first + second) (left ++ right) := by
  constructor
  · refine contiguous_append drawn.1 ?_
    rw [drawn.2, pictureBytes_length, ← Nat.add_mul]
    exact more.1
  · rw [contents_append, drawn.2, more.2, pictureBytes, pictureBytes, pictureBytes,
      ← List.flatMap_append, List.range'_append_1]

theorem Draws.pixel (depth : Depth) (colour : Nat → BitVec 32) (start : Nat) :
    Draws depth colour start 1
      [{ offset := start * depth.pixelBytes, bytes := colourBytes depth (colour start) }] :=
  ⟨⟨rfl, trivial⟩, rfl⟩

/-! ### Colours bit by bit -/

theorem reduce_packRgb32 (r g b : Byte) : reduceRgb32 (packRgb32 r g b) = packRgb565 r g b := by
  apply BitVec.eq_of_getLsbD_eq
  intro index inRange
  simp only [reduceRgb32, packRgb32, packRgb565, BitVec.getLsbD_setWidth, BitVec.getLsbD_or,
    BitVec.getLsbD_shiftLeft, BitVec.getLsbD_and, BitVec.getLsbD_ushiftRight]
  interval_cases index <;> simp

theorem reduce_expandRgb565 (datas : Nat → Byte) (index : Nat) :
    reduceRgb32 (expandRgb565 (halfword datas index)) = halfword datas index := by
  apply BitVec.eq_of_getLsbD_eq
  intro index inRange
  simp only [reduceRgb32, expandRgb565, halfword, BitVec.getLsbD_setWidth, BitVec.getLsbD_or,
    BitVec.getLsbD_shiftLeft, BitVec.getLsbD_and, BitVec.getLsbD_ushiftRight]
  interval_cases index <;> simp

theorem littleEndian_two (color : BitVec 32) :
    littleEndian 2 color = [lowByte color, nextByte color] := by
  have low : (color >>> (8 * 0)).setWidth 8 = lowByte color := by
    apply BitVec.eq_of_getLsbD_eq
    intro index inRange
    simp only [lowByte, BitVec.getLsbD_setWidth, BitVec.getLsbD_and, BitVec.getLsbD_ushiftRight]
    interval_cases index <;> simp
  have next : (color >>> (8 * 1)).setWidth 8 = nextByte color := by
    apply BitVec.eq_of_getLsbD_eq
    intro index inRange
    simp only [nextByte, BitVec.getLsbD_setWidth, BitVec.getLsbD_and, BitVec.getLsbD_ushiftRight]
    interval_cases index <;> simp
  exact congrArg₂ (fun first second => [first, second]) low next

theorem littleEndian_word (color : BitVec 32) :
    ∃ b0 b1 b2 b3, littleEndian 4 color = [b0, b1, b2, b3] ∧
      b3 ++ (b2 ++ (b1 ++ b0)) = color := by
  refine ⟨_, _, _, _, rfl, ?_⟩
  apply BitVec.eq_of_getLsbD_eq
  intro index inRange
  simp only [BitVec.getLsbD_append, BitVec.getLsbD_setWidth, BitVec.getLsbD_ushiftRight]
  interval_cases index <;> simp

theorem littleEndian_halfword (datas : Nat → Byte) (index : Nat) :
    littleEndian 2 (halfword datas index) = [datas (2 * index), datas (2 * index + 1)] := by
  have low : (halfword datas index >>> (8 * 0)).setWidth 8 = datas (2 * index) := by
    apply BitVec.eq_of_getLsbD_eq
    intro index inRange
    simp only [halfword, BitVec.getLsbD_setWidth, BitVec.getLsbD_ushiftRight,
      BitVec.getLsbD_append]
    interval_cases index <;> simp
  have next : (halfword datas index >>> (8 * 1)).setWidth 8 = datas (2 * index + 1) := by
    apply BitVec.eq_of_getLsbD_eq
    intro index inRange
    simp only [halfword, BitVec.getLsbD_setWidth, BitVec.getLsbD_ushiftRight,
      BitVec.getLsbD_append]
    interval_cases index <;> simp
  exact congrArg₂ (fun first second => [first, second]) low next

theorem reducePicture_pictureBytes (colour : Nat → BitVec 32) (start count : Nat) :
    reducePicture (pictureBytes .rgb32 colour start count) =
      pictureBytes .rgb565 colour start count := by
  induction count generalizing start with
  | zero => rfl
  | succ count ih =>
      obtain ⟨b0, b1, b2, b3, bytes, word⟩ := littleEndian_word (colour start)
      have wide : pictureBytes .rgb32 colour start (count + 1) =
          b0 :: b1 :: b2 :: b3 :: pictureBytes .rgb32 colour (start + 1) count := by
        rw [pictureBytes, List.range'_succ, List.flatMap_cons]
        change littleEndian 4 (colour start) ++ _ = _
        rw [bytes]
        rfl
      rw [wide, reducePicture, word, ih]
      rfl

/-! ### What each loop draws -/

theorem yuyvColour_first (tables : ColorTables) (bytes : Nat → Byte) (pair : Nat) :
    yuyvColour tables bytes (2 * pair) =
      packRgb32 (tables.rFromYv (bytes (4 * pair)) (bytes (4 * pair + 3)))
        (tables.gFromYuv (bytes (4 * pair)) (bytes (4 * pair + 1)) (bytes (4 * pair + 3)))
        (tables.bFromYu (bytes (4 * pair)) (bytes (4 * pair + 1))) := by
  have half : 2 * pair / 2 = pair := by omega
  have even : 2 * pair % 2 = 0 := by omega
  rw [yuyvColour, half, even, Nat.mul_zero, Nat.add_zero]

theorem yuyvColour_second (tables : ColorTables) (bytes : Nat → Byte) (pair : Nat) :
    yuyvColour tables bytes (2 * pair + 1) =
      packRgb32 (tables.rFromYv (bytes (4 * pair + 2)) (bytes (4 * pair + 3)))
        (tables.gFromYuv (bytes (4 * pair + 2)) (bytes (4 * pair + 1)) (bytes (4 * pair + 3)))
        (tables.bFromYu (bytes (4 * pair + 2)) (bytes (4 * pair + 1))) := by
  have half : (2 * pair + 1) / 2 = pair := by omega
  have odd : (2 * pair + 1) % 2 = 1 := by omega
  rw [yuyvColour, half, odd]

theorem Draws.two {depth : Depth} {colour : Nat → BitVec 32} {start count : Nat}
    (pair : List Store) {rest : List Store}
    (contiguous : Contiguous (start * depth.pixelBytes) pair)
    (drawn : contents pair =
      colourBytes depth (colour start) ++ colourBytes depth (colour (start + 1)))
    (more : Draws depth colour (start + 2) count rest) :
    Draws depth colour start (2 + count) (pair ++ rest) := by
  refine Draws.append ⟨contiguous, ?_⟩ more
  rw [drawn]
  change _ = _ ++ (_ ++ [])
  rw [List.append_nil]

theorem pyuv422torgb565Loop_draws (tables : ColorTables) (bytes : Nat → Byte) (size pair : Nat) :
    Draws .rgb565 (yuyvColour tables bytes) (2 * pair) (2 * size)
      (pyuv422torgb565Loop tables bytes size (4 * pair) (4 * pair)) := by
  induction size generalizing pair with
  | zero => exact Draws.nothing _ _ _
  | succ size ih =>
      have later := ih (pair + 1)
      have place : 2 * pair * 2 = 4 * pair := by omega
      rw [show 2 * (size + 1) = 2 + 2 * size by omega]
      refine Draws.two [_, _, _, _] ?_ ?_ later
      · exact ⟨place.symm, congrArg (· + 1) place.symm, congrArg (· + 2) place.symm,
          congrArg (· + 3) place.symm, trivial⟩
      · rw [yuyvColour_first, yuyvColour_second, colourBytes, colourBytes, reduce_packRgb32,
          reduce_packRgb32, littleEndian_two, littleEndian_two]
        rfl

theorem pyuv422torgb32Loop_draws (tables : ColorTables) (bytes : Nat → Byte) (size pair : Nat) :
    Draws .rgb32 (yuyvColour tables bytes) (2 * pair) (2 * size)
      (pyuv422torgb32Loop tables bytes size (4 * pair) (8 * pair)) := by
  induction size generalizing pair with
  | zero => exact Draws.nothing _ _ _
  | succ size ih =>
      have later := ih (pair + 1)
      have place : 2 * pair * 4 = 8 * pair := by omega
      rw [show 2 * (size + 1) = 2 + 2 * size by omega]
      refine Draws.two [_, _] ?_ ?_ later
      · exact ⟨place.symm, congrArg (· + 4) place.symm, trivial⟩
      · rw [yuyvColour_first, yuyvColour_second]
        rfl

theorem rgb2RgbRow_draws (datas : Nat → Byte) (count start : Nat) :
    Draws .rgb32 (rgb565Colour datas) start count
      (rgb2RgbRow datas count start (start * 4)) := by
  induction count generalizing start with
  | zero => exact Draws.nothing _ _ _
  | succ count ih =>
      have later := ih (start + 1)
      rw [Nat.add_mul] at later
      have drawn := Draws.append (Draws.pixel .rgb32 (rgb565Colour datas) start) later
      rw [Nat.add_comm 1 count] at drawn
      exact drawn

theorem rgb2RgbRows_draws (datas : Nat → Byte) (iWidth rows start : Nat) :
    Draws .rgb32 (rgb565Colour datas) start (rows * iWidth)
      (rgb2RgbRows datas iWidth rows start (start * 4)) := by
  induction rows generalizing start with
  | zero =>
      rw [Nat.zero_mul]
      exact Draws.nothing _ _ _
  | succ rows ih =>
      have later := ih (start + iWidth)
      rw [Nat.add_mul, Nat.mul_comm iWidth 4] at later
      rw [Nat.succ_mul, Nat.add_comm (rows * iWidth)]
      exact Draws.append (rgb2RgbRow_draws datas iWidth start) later

theorem rgb565_pictureBytes (datas : Nat → Byte) (start count : Nat) :
    pictureBytes .rgb565 (rgb565Colour datas) start count =
      (List.range' (2 * start) (2 * count)).map datas := by
  induction count generalizing start with
  | zero => rfl
  | succ count ih =>
      rw [pictureBytes, List.range'_succ, List.flatMap_cons, colourBytes, rgb565Colour,
        reduce_expandRgb565, littleEndian_halfword]
      rw [show 2 * (count + 1) = 2 * count + 1 + 1 by omega, List.range'_succ, List.range'_succ]
      have later := ih (start + 1)
      rw [show 2 * (start + 1) = 2 * start + 1 + 1 by omega] at later
      rw [List.map_cons, List.map_cons, ← later]
      rfl

theorem rgb2RgbConvert_draws (datas : Nat → Byte) (iWidth iHeight : Nat) (depth : Depth) :
    Draws depth (rgb565Colour datas) 0 (iHeight * iWidth)
      (rgb2RgbConvert datas iWidth iHeight depth) := by
  cases depth with
  | rgb32 =>
      have drawn := rgb2RgbRows_draws datas iWidth iHeight 0
      rw [Nat.zero_mul] at drawn
      exact drawn
  | rgb565 =>
      refine ⟨⟨rfl, trivial⟩, ?_⟩
      have total : iWidth * 16 / 8 * iHeight = 2 * (iHeight * iWidth) := by
        rw [show iWidth * 16 / 8 = 2 * iWidth by omega, Nat.mul_assoc, Nat.mul_comm iWidth]
      rw [rgb565_pictureBytes, ← total, Nat.mul_zero, ← List.range_eq_range']
      exact List.append_nil _

theorem covertPixels_draws (scanline : Nat → Byte) (depth : Depth) (base count start : Nat) :
    Draws depth (fun place => scanlineColour scanline (place - base)) (base + start) count
      (covertPixels depth.iBpp scanline count (3 * start)
        ((base + start) * depth.pixelBytes)) := by
  induction count generalizing start with
  | zero => exact Draws.nothing _ _ _
  | succ count ih =>
      have later := ih (start + 1)
      have first := Draws.pixel depth (fun place => scanlineColour scanline (place - base))
        (base + start)
      rw [Nat.add_sub_cancel_left] at first
      rw [← Nat.add_assoc, Nat.succ_mul (base + start), Nat.mul_succ 3] at later
      have drawn := Draws.append first later
      rw [Nat.add_comm 1 count] at drawn
      cases depth with
      | rgb32 => exact drawn
      | rgb565 =>
          rw [colourBytes, scanlineColour, reduce_packRgb32] at drawn
          exact drawn

theorem Draws.congr {depth : Depth} {colour other : Nat → BitVec 32} {start count : Nat}
    {stores : List Store} (drawn : Draws depth colour start count stores)
    (same : ∀ place, start ≤ place → place < start + count → colour place = other place) :
    Draws depth other start count stores := by
  refine ⟨drawn.1, drawn.2.trans ?_⟩
  unfold pictureBytes
  refine List.flatMap_congr fun place member => ?_
  obtain ⟨above, below⟩ := List.mem_range'_1.mp member
  rw [same place above below]

theorem covertOneLine_stores (scanline : Nat → Byte) (iWidth : Nat) (depth : Depth)
    (pucDest : Nat) :
    covertOneLine iWidth 24 depth.iBpp scanline pucDest =
      (0, covertPixels depth.iBpp scanline iWidth 0 pucDest) := by
  cases depth <;> rfl

theorem mjpegScanlines_draws (scanlines : Nat → Nat → Byte) (iWidth : Nat) (depth : Depth)
    (count scanline : Nat) :
    Draws depth (fun place => scanlineColour (scanlines (place / iWidth)) (place % iWidth))
      (scanline * iWidth) (count * iWidth)
      (mjpegScanlines scanlines iWidth depth.iBpp count scanline
        (scanline * iWidth * depth.pixelBytes)) := by
  induction count generalizing scanline with
  | zero =>
      rw [Nat.zero_mul]
      exact Draws.nothing _ _ _
  | succ count ih =>
      have later := ih (scanline + 1)
      have line := covertPixels_draws (scanlines scanline) depth (scanline * iWidth) iWidth 0
      have lineBytes : iWidth * depth.iBpp / 8 = iWidth * depth.pixelBytes := by
        cases depth
        · change iWidth * 16 / 8 = iWidth * 2
          omega
        · change iWidth * 32 / 8 = iWidth * 4
          omega
      rw [mjpegScanlines, covertOneLine_stores, lineBytes, Nat.succ_mul, Nat.add_comm (_ * _) iWidth]
      rw [Nat.succ_mul, Nat.add_mul] at later
      refine Draws.append (line.congr fun place above below => ?_) later
      rw [Nat.add_zero] at above below
      obtain ⟨x, rfl⟩ := Nat.exists_eq_add_of_le above
      have inLine : x < iWidth := Nat.lt_of_add_lt_add_left below
      have positive : 0 < iWidth := Nat.lt_of_le_of_lt (Nat.zero_le x) inLine
      rw [Nat.add_sub_cancel_left, Nat.add_comm, Nat.add_mul_div_right _ _ positive,
        Nat.div_eq_of_lt inLine, Nat.zero_add, Nat.add_mul_mod_self_right, Nat.mod_eq_of_lt inLine]

/-- Every converter draws the picture of its frame. -/
theorem convertStores_draws (tables : ColorTables) (frame : CameraFrame)
    (even : frame.EvenPixels) (depth : Depth) (small : frame.iWidth * frame.iHeight < 2 ^ 32) :
    Draws depth (fun place => frame.colour tables (place % frame.iWidth) (place / frame.iWidth)) 0
      (frame.iHeight * frame.iWidth) (convertStores tables frame depth) := by
  obtain ⟨iWidth, iHeight, datas⟩ := frame
  have places (place : Nat) : place / iWidth * iWidth + place % iWidth = place := by
    rw [Nat.mul_comm]
    exact Nat.div_add_mod place iWidth
  cases datas with
  | yuyv bytes =>
      have halves : iHeight * iWidth = 2 * (iWidth * iHeight % 2 ^ 32 / 2) := by
        rw [Nat.mod_eq_of_lt small, Nat.mul_comm, Nat.mul_div_cancel' even]
      have same : ∀ place, yuyvColour tables bytes place =
          yuyvColour tables bytes (place / iWidth * iWidth + place % iWidth) := fun place => by
        rw [places]
      change Draws depth _ 0 (iHeight * iWidth) _
      rw [halves]
      cases depth with
      | rgb565 =>
          exact (pyuv422torgb565Loop_draws tables bytes _ 0).congr fun place _ _ => same place
      | rgb32 =>
          exact (pyuv422torgb32Loop_draws tables bytes _ 0).congr fun place _ _ => same place
  | rgb565 bytes =>
      refine (rgb2RgbConvert_draws bytes iWidth iHeight depth).congr fun place _ _ => ?_
      change rgb565Colour bytes place =
        rgb565Colour bytes (place / iWidth * iWidth + place % iWidth)
      rw [places]
  | jpeg scanlines =>
      have drawn := mjpegScanlines_draws scanlines iWidth depth iHeight 0
      rw [Nat.zero_mul, Nat.zero_mul] at drawn
      exact drawn

/-! ### Both depths of one frame -/

theorem lineBytes_pixels (frame : CameraFrame) (depth : Depth) :
    frame.lineBytes depth = frame.iWidth * depth.pixelBytes := by
  cases depth
  · change frame.iWidth * 16 / 8 = frame.iWidth * 2
    omega
  · change frame.iWidth * 32 / 8 = frame.iWidth * 4
    omega

theorem totalBytes_pixels (frame : CameraFrame) (depth : Depth) :
    frame.totalBytes depth = frame.iHeight * frame.iWidth * depth.pixelBytes := by
  rw [CameraFrame.totalBytes, lineBytes_pixels, Nat.mul_comm, Nat.mul_assoc]

theorem Draws.within {depth : Depth} {colour : Nat → BitVec 32} {count : Nat}
    {stores : List Store} (drawn : Draws depth colour 0 count stores) :
    ∀ store ∈ stores, store.finish ≤ count * depth.pixelBytes := by
  intro store member
  have finish := ((contiguous_ascending drawn.1).within store member).2
  rw [drawn.2, pictureBytes_length, Nat.zero_mul, Nat.zero_add] at finish
  exact finish

/-- An odd pixel at the end of a YUYV frame is left out, never stored behind the picture. -/
theorem convertStores_within (tables : ColorTables) (frame : CameraFrame) (depth : Depth) :
    ∀ store ∈ convertStores tables frame depth, store.finish ≤ frame.totalBytes depth := by
  obtain ⟨iWidth, iHeight, datas⟩ := frame
  intro store member
  rw [totalBytes_pixels]
  cases datas with
  | yuyv bytes =>
      have pairs : 2 * (iWidth * iHeight % 2 ^ 32 / 2) ≤ iHeight * iWidth := by
        rw [Nat.mul_comm iHeight]
        exact (Nat.mul_div_le _ 2).trans (Nat.mod_le _ _)
      refine le_trans ?_ (Nat.mul_le_mul_right depth.pixelBytes pairs)
      cases depth with
      | rgb565 => exact (pyuv422torgb565Loop_draws tables bytes _ 0).within store member
      | rgb32 => exact (pyuv422torgb32Loop_draws tables bytes _ 0).within store member
  | rgb565 bytes => exact (rgb2RgbConvert_draws bytes iWidth iHeight depth).within store member
  | jpeg scanlines =>
      have drawn := mjpegScanlines_draws scanlines iWidth depth iHeight 0
      rw [Nat.zero_mul, Nat.zero_mul] at drawn
      exact drawn.within store member

/-- Every byte of the picture is stored once, and every pixel has the colour of its own place in
the frame. -/
structure Converts (tables : ColorTables) (frame : CameraFrame) (depth : Depth)
    (garbage : Nat → Byte) (out : Block) : Prop where
  stored : ∃ stores, convert tables frame depth = some stores ∧
    applyStores (allocate garbage (frame.totalBytes depth)) stores = some out ∧
    positions stores = List.range (frame.totalBytes depth)
  pixels : ∀ x y, x < frame.iWidth → y < frame.iHeight →
    readBytes out (y * frame.lineBytes depth + x * depth.pixelBytes) depth.pixelBytes =
      some (colourBytes depth (frame.colour tables x y))

theorem pixels_small {frame : CameraFrame} {depth : Depth} (defined : frame.SizesDefined depth) :
    frame.iWidth * frame.iHeight < 2 ^ 32 := by
  have total := defined.2
  rw [totalBytes_pixels, Nat.mul_comm frame.iHeight] at total
  have deep : 0 < depth.pixelBytes := by cases depth <;> decide
  have pixels := Nat.le_mul_of_pos_right (frame.iWidth * frame.iHeight) deep
  omega

section Converted

variable {tables : ColorTables} {frame : CameraFrame} (even : frame.EvenPixels) {depth : Depth}
  (defined : frame.SizesDefined depth)

include even defined

/-- The stores fill the allocation with the picture. -/
theorem convertStores_fill (garbage : Nat → Byte) :
    applyStores (allocate garbage (frame.totalBytes depth)) (convertStores tables frame depth) =
        some (contents (convertStores tables frame depth)) ∧
      positions (convertStores tables frame depth) = List.range (frame.totalBytes depth) := by
  have drawn := convertStores_draws tables frame even depth (pixels_small defined)
  have filled : (contents (convertStores tables frame depth)).length = frame.totalBytes depth := by
    rw [drawn.2, pictureBytes_length, totalBytes_pixels]
  have fromStart : Contiguous 0 (convertStores tables frame depth) := by
    have contiguous := drawn.1
    rw [Nat.zero_mul] at contiguous
    exact contiguous
  constructor
  · exact applyStores_fill fromStart (by rw [allocate_length, filled])
  · rw [contiguous_positions fromStart, filled, List.range_eq_range']

theorem converted_pixel {x y : Nat} (inWidth : x < frame.iWidth) (inHeight : y < frame.iHeight) :
    readBytes (contents (convertStores tables frame depth))
        (y * frame.lineBytes depth + x * depth.pixelBytes) depth.pixelBytes =
      some (colourBytes depth (frame.colour tables x y)) := by
  have drawn := convertStores_draws tables frame even depth (pixels_small defined)
  have positive : 0 < frame.iWidth := Nat.lt_of_le_of_lt (Nat.zero_le x) inWidth
  have inPicture : y * frame.iWidth + x < frame.iHeight * frame.iWidth := by
    have rows := Nat.mul_le_mul_right frame.iWidth (Nat.succ_le_of_lt inHeight)
    rw [Nat.succ_mul] at rows
    omega
  have column : (y * frame.iWidth + x) % frame.iWidth = x := by
    rw [Nat.add_comm, Nat.add_mul_mod_self_right, Nat.mod_eq_of_lt inWidth]
  have row : (y * frame.iWidth + x) / frame.iWidth = y := by
    rw [Nat.add_comm, Nat.add_mul_div_right _ _ positive, Nat.div_eq_of_lt inWidth,
      Nat.zero_add]
  have place : y * frame.lineBytes depth + x * depth.pixelBytes =
      (y * frame.iWidth + x) * depth.pixelBytes := by
    rw [lineBytes_pixels, Nat.add_mul, Nat.mul_assoc]
  have found : (List.range' 0 (frame.iHeight * frame.iWidth))[y * frame.iWidth + x]? =
      some (y * frame.iWidth + x) := by
    rw [← List.range_eq_range', List.getElem?_range inPicture]
  have read := readBytes_piece (fun place => colourBytes_length depth
    (frame.colour tables (place % frame.iWidth) (place / frame.iWidth))) found []
  rw [List.append_nil, column, row] at read
  rw [drawn.2, place]
  exact read

theorem converts (garbage : Nat → Byte) :
    Converts tables frame depth garbage (contents (convertStores tables frame depth)) where
  stored := ⟨_, if_pos defined, convertStores_fill even defined garbage⟩
  pixels _ _ inWidth inHeight := converted_pixel even defined inWidth inHeight

end Converted

theorem Converts.unique {tables : ColorTables} {frame : CameraFrame} (even : frame.EvenPixels)
    {depth : Depth} {garbage : Nat → Byte} {out : Block}
    (isOut : Converts tables frame depth garbage out) :
    frame.SizesDefined depth ∧ out = contents (convertStores tables frame depth) := by
  obtain ⟨stores, isStores, applied, _⟩ := isOut.stored
  obtain ⟨defined, same⟩ := Option.ite_none_right_eq_some.mp isStores
  cases same
  exact ⟨defined, Option.some.inj
    (applied.symm.trans (convertStores_fill even defined garbage).1)⟩

/-- A frame is converted exactly if its sizes are `int`s at the depth, and the 565 picture is the
32-bit picture reduced. -/
theorem conversion_depth_independent (tables : ColorTables) (frame : CameraFrame)
    (even : frame.EvenPixels) :
    (∀ depth garbage, (∃ out, Converts tables frame depth garbage out) ↔
      frame.SizesDefined depth) ∧
    ∀ (garbage : Depth → Nat → Byte) wide narrow,
      Converts tables frame .rgb32 (garbage .rgb32) wide →
      Converts tables frame .rgb565 (garbage .rgb565) narrow → reducePicture wide = narrow := by
  refine ⟨fun depth garbage => ⟨?_, fun defined => ⟨_, converts even defined garbage⟩⟩, ?_⟩
  · rintro ⟨out, isOut⟩
    exact (isOut.unique even).1
  · intro garbage wide narrow isWide isNarrow
    obtain ⟨wideDefined, rfl⟩ := isWide.unique even
    obtain ⟨narrowDefined, rfl⟩ := isNarrow.unique even
    rw [(convertStores_draws tables frame even .rgb32 (pixels_small wideDefined)).2,
      (convertStores_draws tables frame even .rgb565 (pixels_small narrowDefined)).2,
      reducePicture_pictureBytes]

def plainTables : ColorTables where
  rFromYv y _ := y
  gFromYuv y _ _ := y
  bFromYu y _ := y

def twoPixels : CameraFrame where
  iWidth := 2
  iHeight := 1
  datas := .yuyv fun place => BitVec.ofNat 8 (80 * place)

theorem conversion_twoPixels :
    twoPixels.EvenPixels ∧ ∃ wide narrow,
      Converts plainTables twoPixels .rgb32 (fun _ => 0) wide ∧
        Converts plainTables twoPixels .rgb565 (fun _ => 0) narrow ∧
        reducePicture wide = narrow := by
  have even : twoPixels.EvenPixels := ⟨1, rfl⟩
  obtain ⟨converted, reduced⟩ := conversion_depth_independent plainTables twoPixels even
  obtain ⟨wide, isWide⟩ := (converted .rgb32 fun _ => 0).mpr (by decide)
  obtain ⟨narrow, isNarrow⟩ := (converted .rgb565 fun _ => 0).mpr (by decide)
  exact ⟨even, wide, narrow, isWide, isNarrow, reduced (fun _ _ => 0) wide narrow isWide isNarrow⟩

/-- A frame of 2^32 pixels, whose `unsigned int` count is 0. -/
def uncountedFrame : CameraFrame where
  iWidth := 65536
  iHeight := 65536
  datas := .yuyv fun _ => 0

/-- The loops store nothing of it, and its sizes are no `int`s. -/
theorem uncounted_unconverted :
    (∀ depth, convertStores plainTables uncountedFrame depth = []) ∧
      ¬∀ tables frame, CameraFrame.EvenPixels frame → ∀ depth garbage,
        ∃ out, Converts tables frame depth garbage out := by
  refine ⟨fun depth => ?_, fun every => ?_⟩
  · cases depth <;> rfl
  · obtain ⟨_, isOut⟩ := every plainTables uncountedFrame ⟨2 ^ 31, rfl⟩ .rgb32 fun _ => 0
    obtain ⟨stores, isStores, _⟩ := isOut.stored
    exact absurd (Option.ite_none_right_eq_some.mp isStores).1 (by decide)

end BuildLinux.Concrete.PixelConvert
