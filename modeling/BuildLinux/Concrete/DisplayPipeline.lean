/-
From a converted frame to the frame buffer: the fit, the centring and the merge
of driver/v4l2/video2lcd/main.c with PicZoom and PicMerge.

Every access is checked against its buffer, so that a result at all says that
the accesses were in bounds.  Sizes and offsets are exact, as they are while
they fit an `int`.  The arithmetic of the ratio `k` is a parameter; the exact
one is that of the rationals.
-/

import BuildLinux.ByteStores
import Mathlib.Data.Rat.Floor

namespace BuildLinux.Concrete.DisplayPipeline

open ByteStores

/-- The values of an `int`. -/
def IsInt (value : Int) : Prop := -2 ^ 31 ≤ value ∧ value < 2 ^ 31

instance (value : Int) : Decidable (IsInt value) :=
  inferInstanceAs (Decidable (_ ∧ _))

structure PictureSize where
  iWidth : Nat
  iHeight : Nat
  iBpp : Nat
  iLineBytes : Nat
  iTotalBytes : Nat

structure PixelDatas extends PictureSize where
  aucPixelDatas : Block

/-- The sizes of whole lines, as the code has them as long as the products are `int`s. -/
def PictureSize.sized (iWidth iHeight iBpp : Nat) : PictureSize where
  iWidth := iWidth
  iHeight := iHeight
  iBpp := iBpp
  iLineBytes := iWidth * iBpp / 8
  iTotalBytes := iWidth * iBpp / 8 * iHeight

/-- `k = (float)iHeight / iWidth`, `iLcdWidth * k` and `iLcdHeigt / k`. -/
structure Ratios where
  ratio : Type
  divide : Nat → Nat → ratio
  times : Nat → ratio → Nat
  quotient : Nat → ratio → Nat

def exactRatios : Ratios where
  ratio := ℚ
  divide iHeight iWidth := (iHeight : ℚ) / (iWidth : ℚ)
  times length k := ⌊(length : ℚ) * k⌋₊
  quotient length k := ⌊(length : ℚ) / k⌋₊

/-! ### zoom.c -/

def zoomRow (origin zoom : PixelDatas) (pdwSrcXTable : List Nat) (y : Nat) :
    Option (List Store) :=
  let dwPixelBytes := origin.iBpp / 8
  let dwSrcY := y * origin.iHeight / zoom.iHeight
  let pucDest := y * zoom.iLineBytes
  let pucSrc := dwSrcY * origin.iLineBytes
  eachStores (List.range zoom.iWidth) fun x =>
    (pdwSrcXTable[x]?).bind fun srcX =>
      (readBytes origin.aucPixelDatas (pucSrc + srcX * dwPixelBytes) dwPixelBytes).map fun bytes =>
        [{ offset := pucDest + x * dwPixelBytes, bytes := bytes }]

def picZoom (origin zoom : PixelDatas) : Option (Int × PixelDatas) :=
  if origin.iBpp ≠ zoom.iBpp then some (-1, zoom)
  else
    let pdwSrcXTable := (List.range zoom.iWidth).map fun x => x * origin.iWidth / zoom.iWidth
    (eachStores (List.range zoom.iHeight) (zoomRow origin zoom pdwSrcXTable)).bind fun stores =>
      (applyStores zoom.aucPixelDatas stores).map fun datas =>
        (0, { zoom with aucPixelDatas := datas })

/-! ### merge.c -/

def mergeRow (small big : PixelDatas) (pucDst : Int) (i : Nat) : Option (List Store) :=
  let destination := pucDst + i * big.iLineBytes
  (readBytes small.aucPixelDatas (i * small.iLineBytes) small.iLineBytes).bind fun bytes =>
    if destination < 0 then none else some [{ offset := destination.toNat, bytes := bytes }]

def picMerge (iX iY : Int) (small big : PixelDatas) : Option (Int × PixelDatas) :=
  if small.iWidth > big.iWidth ∨ small.iHeight > big.iHeight ∨ small.iBpp ≠ big.iBpp then
    some (-1, big)
  else
    let pucDst := iY * big.iLineBytes + (iX * big.iBpp).tdiv 8
    (eachStores (List.range small.iHeight) (mergeRow small big pucDst)).bind fun stores =>
      (applyStores big.aucPixelDatas stores).map fun datas =>
        (0, { big with aucPixelDatas := datas })

/-! ### main.c -/

def zoomSize (arithmetic : Ratios) (iWidth iHeight iLcdWidth iLcdHeigt : Nat) : Nat × Nat :=
  let k := arithmetic.divide iHeight iWidth
  if arithmetic.times iLcdWidth k > iLcdHeigt then (arithmetic.quotient iLcdHeigt k, iLcdHeigt)
  else (iLcdWidth, arithmetic.times iLcdWidth k)

def ZoomNeeded (iWidth iHeight iLcdWidth iLcdHeigt : Nat) : Prop :=
  iWidth > iLcdWidth ∨ iHeight > iLcdHeigt

instance (iWidth iHeight iLcdWidth iLcdHeigt : Nat) :
    Decidable (ZoomNeeded iWidth iHeight iLcdWidth iLcdHeigt) :=
  inferInstanceAs (Decidable (_ ∨ _))

/-- The buffer of `tZoomBuf`: allocated if there is none yet. -/
def zoomTarget (tZoomBuf : Option Block) (garbage : Nat → Byte) (size : PictureSize) :
    PixelDatas where
  toPictureSize := size
  aucPixelDatas := tZoomBuf.getD (allocate garbage size.iTotalBytes)

/-- The picture handed to `PicMerge`. -/
def fitPicture (arithmetic : Ratios) (lcd : PixelDatas) (tZoomBuf : Option Block)
    (garbage : Nat → Byte) (cur : PixelDatas) : Option PixelDatas :=
  if ZoomNeeded cur.iWidth cur.iHeight lcd.iWidth lcd.iHeight then
    let target := zoomSize arithmetic cur.iWidth cur.iHeight lcd.iWidth lcd.iHeight
    let size := PictureSize.sized target.1 target.2 lcd.iBpp
    (picZoom cur (zoomTarget tZoomBuf garbage size)).map Prod.snd
  else some cur

structure Shown where
  picture : PixelDatas
  iTopLeftX : Int
  iTopLeftY : Int
  merged : Int
  tFrameBuf : PixelDatas

def showFrame (arithmetic : Ratios) (tFrameBuf : PixelDatas) (tZoomBuf : Option Block)
    (garbage : Nat → Byte) (cur : PixelDatas) : Option Shown :=
  (fitPicture arithmetic tFrameBuf tZoomBuf garbage cur).bind fun picture =>
    let iTopLeftX := ((tFrameBuf.iWidth : Int) - picture.iWidth).tdiv 2
    let iTopLeftY := ((tFrameBuf.iHeight : Int) - picture.iHeight).tdiv 2
    (picMerge iTopLeftX iTopLeftY picture tFrameBuf).map fun result =>
      { picture := picture
        iTopLeftX := iTopLeftX
        iTopLeftY := iTopLeftY
        merged := result.1
        tFrameBuf := result.2 }

/-! ### The fitted size -/

theorem times_exact (length iHeight iWidth : Nat) :
    exactRatios.times length (exactRatios.divide iHeight iWidth) = length * iHeight / iWidth := by
  change ⌊(length : ℚ) * ((iHeight : ℚ) / (iWidth : ℚ))⌋₊ = _
  rw [← mul_div_assoc, ← Nat.cast_mul]
  exact Rat.natFloor_natCast_div_natCast _ _

theorem quotient_exact (length iHeight iWidth : Nat) :
    exactRatios.quotient length (exactRatios.divide iHeight iWidth) = length * iWidth / iHeight := by
  change ⌊(length : ℚ) / ((iHeight : ℚ) / (iWidth : ℚ))⌋₊ = _
  rw [div_div_eq_mul_div, ← Nat.cast_mul]
  exact Rat.natFloor_natCast_div_natCast _ _

theorem zoomSize_fits {iWidth iHeight : Nat} (wide : 1 ≤ iWidth) (high : 1 ≤ iHeight)
    (iLcdWidth iLcdHeigt : Nat) :
    (zoomSize exactRatios iWidth iHeight iLcdWidth iLcdHeigt).1 ≤ iLcdWidth ∧
      (zoomSize exactRatios iWidth iHeight iLcdWidth iLcdHeigt).2 ≤ iLcdHeigt := by
  simp only [zoomSize, times_exact, quotient_exact]
  by_cases tooHigh : iLcdWidth * iHeight / iWidth > iLcdHeigt
  · rw [if_pos tooHigh]
    refine ⟨?_, Nat.le_refl _⟩
    -- The width limited by the height is below the width of the display.
    have rounded : (iLcdHeigt + 1) * iWidth ≤ iLcdWidth * iHeight :=
      (Nat.le_div_iff_mul_le wide).mp tooHigh
    rw [Nat.succ_mul] at rounded
    have product : iLcdHeigt * iWidth ≤ iLcdWidth * iHeight := by omega
    exact (Nat.div_le_div_right product).trans (Nat.mul_div_cancel _ high).le
  · rw [if_neg tooHigh]
    exact ⟨Nat.le_refl _, Nat.le_of_not_lt tooHigh⟩

/-! ### Pictures in their buffers -/

def PixelDatas.pixelBytes (picture : PixelDatas) : Nat := picture.iBpp / 8

def PixelDatas.pixelOffset (picture : PixelDatas) (x y : Nat) : Nat :=
  y * picture.iLineBytes + x * picture.pixelBytes

/-- Lines of whole pixels, all of them inside the buffer. -/
structure PixelDatas.Holds (picture : PixelDatas) : Prop where
  lineBytes : picture.iLineBytes = picture.iWidth * picture.pixelBytes
  inBuffer : picture.iHeight * picture.iLineBytes ≤ picture.aucPixelDatas.length

/-- Lines that have room for their pixels, all of them inside the buffer. -/
structure PixelDatas.Lines (picture : PixelDatas) : Prop where
  lineBytes : picture.iWidth * picture.pixelBytes ≤ picture.iLineBytes
  inBuffer : picture.iHeight * picture.iLineBytes ≤ picture.aucPixelDatas.length

theorem PixelDatas.Holds.lines {picture : PixelDatas} (holds : picture.Holds) : picture.Lines :=
  ⟨holds.lineBytes.ge, holds.inBuffer⟩

theorem lineBytes_whole {iBpp : Nat} (whole : 8 ∣ iBpp) (iWidth : Nat) :
    iWidth * iBpp / 8 = iWidth * (iBpp / 8) :=
  Nat.mul_div_assoc iWidth whole

theorem pixel_inLine {x iWidth : Nat} (inWidth : x < iWidth) (size : Nat) :
    x * size + size ≤ iWidth * size := by
  have lines := Nat.mul_le_mul_right size (Nat.succ_le_of_lt inWidth)
  rw [Nat.succ_mul] at lines
  exact lines

theorem PixelDatas.Lines.pixel {picture : PixelDatas} (lines : picture.Lines) {x y : Nat}
    (inWidth : x < picture.iWidth) (inHeight : y < picture.iHeight) :
    picture.pixelOffset x y + picture.pixelBytes ≤ picture.aucPixelDatas.length := by
  have line := (pixel_inLine inWidth picture.pixelBytes).trans lines.lineBytes
  have below := pixel_inLine inHeight picture.iLineBytes
  have buffer := lines.inBuffer
  unfold PixelDatas.pixelOffset
  omega

theorem scaled_inRange {place size target : Nat} (inTarget : place < target) (nonempty : 1 ≤ size) :
    place * size / target < size := by
  apply Nat.div_lt_of_lt_mul
  exact Nat.mul_lt_mul_of_pos_right inTarget nonempty

/-! ### The scaler -/

def zoomStore (origin zoom : PixelDatas) (x y : Nat) : Store where
  offset := zoom.pixelOffset x y
  bytes := (origin.aucPixelDatas.drop (origin.pixelOffset (x * origin.iWidth / zoom.iWidth)
    (y * origin.iHeight / zoom.iHeight))).take origin.pixelBytes

def zoomStores (origin zoom : PixelDatas) : List Store :=
  (List.range zoom.iHeight).flatMap fun y =>
    (List.range zoom.iWidth).flatMap fun x => [zoomStore origin zoom x y]

section Zoom

variable {origin zoom : PixelDatas} (originLines : origin.Lines) (zoomLines : zoom.Lines)
  (sameDepth : origin.iBpp = zoom.iBpp) (wide : 1 ≤ origin.iWidth) (high : 1 ≤ origin.iHeight)

include originLines sameDepth wide high

theorem zoomStore_read {x y : Nat} (inWidth : x < zoom.iWidth) (inHeight : y < zoom.iHeight) :
    readBytes origin.aucPixelDatas (origin.pixelOffset (x * origin.iWidth / zoom.iWidth)
      (y * origin.iHeight / zoom.iHeight)) origin.pixelBytes = some (zoomStore origin zoom x y).bytes ∧
      (zoomStore origin zoom x y).bytes.length = zoom.pixelBytes := by
  have within := originLines.pixel (scaled_inRange inWidth wide) (scaled_inRange inHeight high)
  refine ⟨readBytes_within within, ?_⟩
  rw [zoomStore, List.length_take, List.length_drop, Nat.min_eq_left (by omega)]
  exact congrArg (· / 8) sameDepth

theorem zoomRow_stores {y : Nat} (inHeight : y < zoom.iHeight) :
    zoomRow origin zoom ((List.range zoom.iWidth).map fun x => x * origin.iWidth / zoom.iWidth) y =
      some ((List.range zoom.iWidth).flatMap fun x => [zoomStore origin zoom x y]) := by
  refine eachStores_some _ (fun x => [zoomStore origin zoom x y]) fun x member => ?_
  have inWidth := List.mem_range.mp member
  obtain ⟨read, _⟩ := zoomStore_read originLines sameDepth wide high inWidth inHeight
  rw [List.getElem?_map, List.getElem?_range inWidth, Option.map_some, Option.bind_some]
  change (readBytes origin.aucPixelDatas (origin.pixelOffset _ _) origin.pixelBytes).map _ = _
  rw [read, Option.map_some]
  have place : zoom.pixelOffset x y = y * zoom.iLineBytes + x * (origin.iBpp / 8) := by
    rw [PixelDatas.pixelOffset, PixelDatas.pixelBytes, sameDepth]
  rw [← place]
  rfl

include zoomLines

/-- The scaler's pointer only advances, over the padding of the lines too. -/
theorem zoomStores_ascending :
    Ascending 0 (zoom.iHeight * zoom.iLineBytes) (zoomStores origin zoom) := by
  have lines := ascending_range
    (fun y => (List.range zoom.iWidth).flatMap fun x => [zoomStore origin zoom x y])
    (fun y => y * zoom.iLineBytes) zoom.iHeight fun y inHeight => by
      have line := ascending_range (fun x => [zoomStore origin zoom x y])
        (fun x => zoom.pixelOffset x y) zoom.iWidth fun x inWidth => by
          obtain ⟨_, size⟩ := zoomStore_read originLines sameDepth wide high inWidth inHeight
          refine ⟨Nat.le_refl _, ?_⟩
          change zoom.pixelOffset x y + (zoomStore origin zoom x y).bytes.length ≤ _
          rw [size, PixelDatas.pixelOffset, PixelDatas.pixelOffset, Nat.succ_mul, Nat.add_assoc]
      have start : zoom.pixelOffset 0 y = y * zoom.iLineBytes := by
        rw [PixelDatas.pixelOffset, Nat.zero_mul, Nat.add_zero]
      have finish : zoom.pixelOffset zoom.iWidth y ≤ (y + 1) * zoom.iLineBytes := by
        rw [PixelDatas.pixelOffset, Nat.succ_mul]
        exact Nat.add_le_add_left zoomLines.lineBytes _
      rw [start] at line
      have padding : Ascending (zoom.pixelOffset zoom.iWidth y) ((y + 1) * zoom.iLineBytes) [] :=
        finish
      have whole := line.append padding
      rw [List.append_nil] at whole
      exact whole
  rw [Nat.zero_mul] at lines
  exact lines

theorem picZoom_spec :
    ∃ datas, picZoom origin zoom = some (0, { zoom with aucPixelDatas := datas }) ∧
      datas.length = zoom.aucPixelDatas.length ∧
      (∀ x y, x < zoom.iWidth → y < zoom.iHeight → ∀ index, index < zoom.pixelBytes →
        datas[zoom.pixelOffset x y + index]? =
          origin.aucPixelDatas[origin.pixelOffset (x * origin.iWidth / zoom.iWidth)
            (y * origin.iHeight / zoom.iHeight) + index]?) ∧
      ∀ position, (∀ x y, x < zoom.iWidth → y < zoom.iHeight →
          position < zoom.pixelOffset x y ∨ zoom.pixelOffset x y + zoom.pixelBytes ≤ position) →
        datas[position]? = zoom.aucPixelDatas[position]? := by
  have ascending := zoomStores_ascending originLines zoomLines sameDepth wide high
  have rows := eachStores_some (List.range zoom.iHeight)
    (fun y => (List.range zoom.iWidth).flatMap fun x => [zoomStore origin zoom x y])
    fun y member => zoomRow_stores originLines sameDepth wide high (List.mem_range.mp member)
  obtain ⟨datas, applied⟩ := applyStores_within fun store member =>
    (ascending.within store member).2.trans zoomLines.inBuffer
  refine ⟨datas, ?_, applyStores_length applied, ?_, ?_⟩
  · rw [picZoom, if_neg (not_not.mpr sameDepth)]
    change (eachStores _ fun y => zoomRow origin zoom _ y).bind _ = _
    rw [rows]
    change (applyStores zoom.aucPixelDatas (zoomStores origin zoom)).map _ = _
    rw [applied]
    rfl
  · intro x y inWidth inHeight index inPixel
    obtain ⟨_, length⟩ := zoomStore_read originLines sameDepth wide high inWidth inHeight
    have member : zoomStore origin zoom x y ∈ zoomStores origin zoom :=
      List.mem_flatMap.mpr ⟨y, List.mem_range.mpr inHeight,
        List.mem_flatMap.mpr ⟨x, List.mem_range.mpr inWidth, List.mem_singleton.mpr rfl⟩⟩
    have covered := applyStores_covered applied ascending.apart member index
      (by rw [length]; exact inPixel)
    have inOrigin : index < origin.pixelBytes :=
      Nat.lt_of_lt_of_eq inPixel (congrArg (· / 8) sameDepth.symm)
    refine covered.trans ?_
    change (List.take _ _)[index]? = _
    rw [List.getElem?_take_of_lt inOrigin, List.getElem?_drop]
  · intro position outside
    refine applyStores_untouched applied position fun store member => ?_
    obtain ⟨y, inRows, inRow⟩ := List.mem_flatMap.mp member
    obtain ⟨x, inColumns, isStore⟩ := List.mem_flatMap.mp inRow
    have inHeight := List.mem_range.mp inRows
    have inWidth := List.mem_range.mp inColumns
    obtain ⟨_, length⟩ := zoomStore_read originLines sameDepth wide high inWidth inHeight
    rw [List.mem_singleton.mp isStore, Store.finish, length]
    exact outside x y inWidth inHeight

end Zoom

/-! ### The merge -/

def mergeStore (small big : PixelDatas) (iX iY i : Nat) : Store where
  offset := big.pixelOffset iX (iY + i)
  bytes := (small.aucPixelDatas.drop (i * small.iLineBytes)).take small.iLineBytes

theorem mergeRow_store {small big : PixelDatas} (smallHolds : small.Holds) (whole : 8 ∣ big.iBpp)
    (iX iY : Nat) {i : Nat} (inHeight : i < small.iHeight) :
    mergeRow small big ((iY : Int) * big.iLineBytes + ((iX : Int) * big.iBpp).tdiv 8) i =
      some [mergeStore small big iX iY i] := by
  have within := (pixel_inLine inHeight small.iLineBytes).trans smallHolds.inBuffer
  have column : ((iX : Int) * big.iBpp).tdiv 8 = ((iX * big.pixelBytes : Nat) : Int) := by
    rw [← Int.natCast_mul]
    change Int.tdiv _ ((8 : Nat) : Int) = _
    rw [← Int.ofNat_tdiv, lineBytes_whole whole]
    rfl
  have destination : (iY : Int) * big.iLineBytes + ((iX * big.pixelBytes : Nat) : Int) +
      (i : Int) * big.iLineBytes = ((big.pixelOffset iX (iY + i) : Nat) : Int) := by
    rw [PixelDatas.pixelOffset, Nat.add_mul]
    push_cast
    ring
  rw [mergeRow, column, destination, readBytes_within within, Option.bind_some,
    if_neg (Int.not_lt.mpr (Int.natCast_nonneg _)), Int.toNat_natCast]
  rfl

theorem pixelOffset_row (picture : PixelDatas) (x y row : Nat) :
    picture.pixelOffset x (y + row) = picture.pixelOffset x y + row * picture.iLineBytes := by
  rw [PixelDatas.pixelOffset, PixelDatas.pixelOffset, Nat.add_mul, Nat.add_right_comm]

/-- The rows of the small picture land on rows of the big one. -/
theorem mergeStores_rows (small big : PixelDatas) (iX iY : Nat) :
    (List.range small.iHeight).map (mergeStore small big iX iY) =
      rowStores small.aucPixelDatas small.iLineBytes small.iLineBytes big.iLineBytes small.iHeight
        0 (big.pixelOffset iX iY) := by
  rw [rowStores_eq_map]
  refine List.map_congr_left fun row _ => ?_
  rw [mergeStore, pixelOffset_row, Nat.zero_add]

theorem picMerge_spec {small big : PixelDatas} (smallHolds : small.Holds) (bigHolds : big.Holds)
    (sameDepth : small.iBpp = big.iBpp) (whole : 8 ∣ big.iBpp) {iX iY : Nat}
    (right : iX + small.iWidth ≤ big.iWidth) (bottom : iY + small.iHeight ≤ big.iHeight) :
    ∃ datas, picMerge iX iY small big = some (0, { big with aucPixelDatas := datas }) ∧
      datas.length = big.aucPixelDatas.length ∧
      (∀ i index, i < small.iHeight → index < small.iLineBytes →
        datas[big.pixelOffset iX (iY + i) + index]? =
          small.aucPixelDatas[i * small.iLineBytes + index]?) ∧
      ∀ position, (∀ i, i < small.iHeight → position < big.pixelOffset iX (iY + i) ∨
          big.pixelOffset iX (iY + i) + small.iLineBytes ≤ position) →
        datas[position]? = big.aucPixelDatas[position]? := by
  have rows := eachStores_some (List.range small.iHeight)
    (fun i => [mergeStore small big iX iY i])
    fun i member => mergeRow_store smallHolds whole iX iY (List.mem_range.mp member)
  rw [← List.map_eq_flatMap] at rows
  rw [mergeStores_rows] at rows
  have lineBytes : small.iLineBytes = small.iWidth * big.pixelBytes := by
    rw [smallHolds.lineBytes, PixelDatas.pixelBytes, sameDepth]
    rfl
  have columns := Nat.mul_le_mul_right big.pixelBytes right
  rw [Nat.add_mul, ← bigHolds.lineBytes, ← lineBytes] at columns
  have inSmall : ∀ row, row < small.iHeight →
      0 + row * small.iLineBytes + small.iLineBytes ≤ small.aucPixelDatas.length := by
    intro row inRows
    have within := (pixel_inLine inRows small.iLineBytes).trans smallHolds.inBuffer
    omega
  have inBig : ∀ row, row < small.iHeight →
      big.pixelOffset iX iY + row * big.iLineBytes + small.iLineBytes ≤
        big.aucPixelDatas.length := by
    intro row inRows
    have lines := Nat.mul_le_mul_right big.iLineBytes (show iY + row + 1 ≤ big.iHeight by omega)
    have buffer := lines.trans bigHolds.inBuffer
    rw [Nat.succ_mul] at buffer
    rw [← pixelOffset_row, PixelDatas.pixelOffset]
    omega
  obtain ⟨datas, applied, length, copied, untouched⟩ :=
    rowStores_spec inSmall ((Nat.le_add_left _ _).trans columns) inBig
  refine ⟨datas, ?_, length, ?_, ?_⟩
  · have accepted : ¬(small.iWidth > big.iWidth ∨ small.iHeight > big.iHeight ∨
        small.iBpp ≠ big.iBpp) := by
      rintro (tooWide | tooHigh | otherDepth)
      · omega
      · omega
      · exact otherDepth sameDepth
    rw [picMerge, if_neg accepted]
    change (eachStores _ fun i => mergeRow small big _ i).bind _ = _
    rw [rows, Option.bind_some, applied]
    rfl
  · intro i index inHeight inLine
    have row := copied i index inHeight inLine
    rw [← pixelOffset_row, Nat.zero_add] at row
    exact row
  · intro position outside
    refine untouched position fun row inRows => ?_
    rw [← pixelOffset_row]
    exact outside row inRows

/-! ### From the frame to the display -/

def PixelDatas.pixel (picture : PixelDatas) (x y : Nat) : Option (List Byte) :=
  readBytes picture.aucPixelDatas (picture.pixelOffset x y) picture.pixelBytes

def zoomPictureSize (arithmetic : Ratios) (lcd cur : PixelDatas) : PictureSize :=
  let target := zoomSize arithmetic cur.iWidth cur.iHeight lcd.iWidth lcd.iHeight
  PictureSize.sized target.1 target.2 lcd.iBpp

/-- A zoom buffer left by an earlier frame is large enough for this one. -/
def ZoomRoom (arithmetic : Ratios) (lcd cur : PixelDatas) (tZoomBuf : Option Block) : Prop :=
  ∀ buffer, tZoomBuf = some buffer →
    (zoomPictureSize arithmetic lcd cur).iTotalBytes ≤ buffer.length

/-- The margins on both sides differ by at most one. -/
def Centred (margin : Int) (size whole : Nat) : Prop :=
  0 ≤ margin ∧ margin ≤ whole - size - margin ∧ whole - size - margin ≤ margin + 1

theorem zoomTarget_holds {size : PictureSize} {iWidth iHeight iBpp : Nat}
    (isSize : size = PictureSize.sized iWidth iHeight iBpp) (whole : 8 ∣ iBpp)
    {tZoomBuf : Option Block} (garbage : Nat → Byte)
    (room : ∀ buffer, tZoomBuf = some buffer → size.iTotalBytes ≤ buffer.length) :
    (zoomTarget tZoomBuf garbage size).Holds := by
  subst isSize
  constructor
  · exact lineBytes_whole whole iWidth
  · change iHeight * (iWidth * iBpp / 8) ≤ (tZoomBuf.getD _).length
    rw [Nat.mul_comm]
    cases tZoomBuf with
    | none => exact (allocate_length garbage _).ge
    | some buffer => exact room buffer rfl

theorem margin_half {size whole : Nat} (fits : size ≤ whole) :
    ((whole : Int) - size).tdiv 2 = (((whole - size) / 2 : Nat) : Int) := by
  rw [← Int.natCast_sub fits]
  exact (Int.ofNat_tdiv (whole - size) 2).symm

theorem margin_centred {size whole : Nat} (fits : size ≤ whole) :
    Centred (((whole - size) / 2 : Nat) : Int) size whole := by
  unfold Centred
  omega

/-- A byte outside every pixel of a row is outside the row. -/
theorem outside_row {picture : PixelDatas} {iX y width position : Nat}
    (outside : ∀ x, x < width → position < picture.pixelOffset (iX + x) y ∨
      picture.pixelOffset (iX + x) y + picture.pixelBytes ≤ position) :
    position < picture.pixelOffset iX y ∨
      picture.pixelOffset iX y + width * picture.pixelBytes ≤ position := by
  by_contra inside
  obtain ⟨notBefore, notBehind⟩ := not_or.mp inside
  have start := Nat.le_of_not_lt notBefore
  have inRow : position - picture.pixelOffset iX y < width * picture.pixelBytes := by omega
  have positive : 0 < picture.pixelBytes := Nat.pos_of_mul_pos_left (Nat.zero_lt_of_lt inRow)
  have inWidth := (Nat.div_lt_iff_lt_mul positive).mpr inRow
  have place (x : Nat) : picture.pixelOffset (iX + x) y =
      picture.pixelOffset iX y + x * picture.pixelBytes := by
    rw [PixelDatas.pixelOffset, PixelDatas.pixelOffset, Nat.add_mul, Nat.add_assoc]
  have below := Nat.div_mul_le_self (position - picture.pixelOffset iX y) picture.pixelBytes
  have above := Nat.lt_div_mul_add positive (a := position - picture.pixelOffset iX y)
  rcases outside _ inWidth with before | behind
  · rw [place] at before
    omega
  · rw [place] at behind
    omega

section Show

variable {lcd cur : PixelDatas} (lcdHolds : lcd.Holds) (curHolds : cur.Holds)
  (sameDepth : cur.iBpp = lcd.iBpp) (whole : 8 ∣ lcd.iBpp)
  (wide : 1 ≤ cur.iWidth) (high : 1 ≤ cur.iHeight) {tZoomBuf : Option Block}
  (room : ZoomRoom exactRatios lcd cur tZoomBuf) (garbage : Nat → Byte)

include curHolds sameDepth whole wide high room

theorem fitPicture_spec :
    ∃ picture, fitPicture exactRatios lcd tZoomBuf garbage cur = some picture ∧
      picture.Holds ∧ picture.iBpp = lcd.iBpp ∧
      picture.iWidth ≤ lcd.iWidth ∧ picture.iHeight ≤ lcd.iHeight ∧
      (picture.iWidth = cur.iWidth ∧ picture.iHeight = cur.iHeight ↔
        cur.iWidth ≤ lcd.iWidth ∧ cur.iHeight ≤ lcd.iHeight) ∧
      ∀ x y, x < picture.iWidth → y < picture.iHeight → ∀ index, index < picture.pixelBytes →
        picture.aucPixelDatas[picture.pixelOffset x y + index]? =
          cur.aucPixelDatas[cur.pixelOffset (x * cur.iWidth / picture.iWidth)
            (y * cur.iHeight / picture.iHeight) + index]? := by
  unfold fitPicture
  by_cases zoomed : ZoomNeeded cur.iWidth cur.iHeight lcd.iWidth lcd.iHeight
  · rw [if_pos zoomed]
    have targetHolds := zoomTarget_holds rfl whole garbage room
    obtain ⟨datas, scaled, length, pixels, _⟩ :=
      picZoom_spec curHolds.lines targetHolds.lines sameDepth wide high
    obtain ⟨fitsWidth, fitsHeight⟩ := zoomSize_fits wide high lcd.iWidth lcd.iHeight
    refine ⟨_, congrArg (Option.map Prod.snd) scaled, ?_, rfl, fitsWidth, fitsHeight, ?_, pixels⟩
    · refine ⟨targetHolds.lineBytes, ?_⟩
      change _ ≤ datas.length
      rw [length]
      exact targetHolds.inBuffer
    · -- A picture that has to be zoomed cannot keep a size that does not fit.
      constructor
      · rintro ⟨sameWidth, sameHeight⟩
        exact ⟨sameWidth ▸ fitsWidth, sameHeight ▸ fitsHeight⟩
      · rintro ⟨inWidth, inHeight⟩
        rcases zoomed with tooWide | tooHigh
        · exact absurd inWidth (Nat.not_le.mpr tooWide)
        · exact absurd inHeight (Nat.not_le.mpr tooHigh)
  · rw [if_neg zoomed]
    obtain ⟨inWidth, inHeight⟩ := not_or.mp zoomed
    refine ⟨cur, rfl, curHolds, sameDepth, Nat.le_of_not_lt inWidth, Nat.le_of_not_lt inHeight,
      ?_, ?_⟩
    · exact ⟨fun _ => ⟨Nat.le_of_not_lt inWidth, Nat.le_of_not_lt inHeight⟩,
        fun _ => ⟨rfl, rfl⟩⟩
    · intro x y _ _ index _
      rw [Nat.mul_div_cancel x wide, Nat.mul_div_cancel y high]

include lcdHolds

theorem frame_shown :
    ∃ shown, showFrame exactRatios lcd tZoomBuf garbage cur = some shown ∧
      shown.picture.iWidth ≤ lcd.iWidth ∧ shown.picture.iHeight ≤ lcd.iHeight ∧
      (shown.picture.iWidth = cur.iWidth ∧ shown.picture.iHeight = cur.iHeight ↔
        cur.iWidth ≤ lcd.iWidth ∧ cur.iHeight ≤ lcd.iHeight) ∧
      Centred shown.iTopLeftX shown.picture.iWidth lcd.iWidth ∧
      Centred shown.iTopLeftY shown.picture.iHeight lcd.iHeight ∧
      shown.merged = 0 ∧
      (∀ x y, x < shown.picture.iWidth → y < shown.picture.iHeight →
        ∃ bytes, shown.tFrameBuf.pixel (shown.iTopLeftX.toNat + x) (shown.iTopLeftY.toNat + y) =
            some bytes ∧
          cur.pixel (x * cur.iWidth / shown.picture.iWidth)
            (y * cur.iHeight / shown.picture.iHeight) = some bytes) ∧
      ∀ position, (∀ x y, x < shown.picture.iWidth → y < shown.picture.iHeight →
          position < lcd.pixelOffset (shown.iTopLeftX.toNat + x) (shown.iTopLeftY.toNat + y) ∨
          lcd.pixelOffset (shown.iTopLeftX.toNat + x) (shown.iTopLeftY.toNat + y) +
            lcd.pixelBytes ≤ position) →
        shown.tFrameBuf.aucPixelDatas[position]? = lcd.aucPixelDatas[position]? := by
  obtain ⟨picture, fitted, holds, depth, fitsWidth, fitsHeight, keeps, scaled⟩ :=
    fitPicture_spec curHolds sameDepth whole wide high room garbage
  have right : (lcd.iWidth - picture.iWidth) / 2 + picture.iWidth ≤ lcd.iWidth := by omega
  have bottom : (lcd.iHeight - picture.iHeight) / 2 + picture.iHeight ≤ lcd.iHeight := by omega
  obtain ⟨datas, merged, length, rows, untouched⟩ :=
    picMerge_spec holds lcdHolds depth whole right bottom
  have pixelBytes : picture.pixelBytes = lcd.pixelBytes := congrArg (· / 8) depth
  have curBytes : cur.pixelBytes = lcd.pixelBytes := congrArg (· / 8) sameDepth
  have lineBytes : picture.iLineBytes = picture.iWidth * lcd.pixelBytes := by
    rw [holds.lineBytes, pixelBytes]
  have displayed : ∀ x y, x < picture.iWidth → y < picture.iHeight →
      ∃ bytes, PixelDatas.pixel { lcd with aucPixelDatas := datas }
          ((lcd.iWidth - picture.iWidth) / 2 + x) ((lcd.iHeight - picture.iHeight) / 2 + y) =
          some bytes ∧
        cur.pixel (x * cur.iWidth / picture.iWidth) (y * cur.iHeight / picture.iHeight) =
          some bytes := by
    intro x y inWidth inHeight
    have inCur := curHolds.lines.pixel (scaled_inRange inWidth wide) (scaled_inRange inHeight high)
    have inLcd := lcdHolds.lines.pixel (Nat.lt_of_lt_of_le (Nat.add_lt_add_left inWidth _) right)
      (Nat.lt_of_lt_of_le (Nat.add_lt_add_left inHeight _) bottom)
    rw [← length] at inLcd
    refine ⟨_, ?_, readBytes_within inCur⟩
    rw [← readBytes_within inCur, curBytes]
    rw [curBytes] at inCur
    refine readBytes_congr inLcd inCur fun index inPixel => ?_
    change index < lcd.pixelBytes at inPixel
    have inLine : x * lcd.pixelBytes + index < picture.iLineBytes := by
      have line := pixel_inLine inWidth lcd.pixelBytes
      rw [← lineBytes] at line
      omega
    have fromRow := rows y (x * lcd.pixelBytes + index) inHeight inLine
    have fromZoom := scaled x y inWidth inHeight index (by rw [pixelBytes]; exact inPixel)
    rw [PixelDatas.pixelOffset, pixelBytes, Nat.add_assoc] at fromZoom
    have place : lcd.pixelOffset ((lcd.iWidth - picture.iWidth) / 2 + x)
        ((lcd.iHeight - picture.iHeight) / 2 + y) + index =
        lcd.pixelOffset ((lcd.iWidth - picture.iWidth) / 2)
          ((lcd.iHeight - picture.iHeight) / 2 + y) + (x * lcd.pixelBytes + index) := by
      rw [PixelDatas.pixelOffset, PixelDatas.pixelOffset, Nat.add_mul _ x]
      omega
    change datas[lcd.pixelOffset _ _ + index]? = _
    rw [place]
    exact fromRow.trans fromZoom
  let shown : Shown :=
    { picture := picture
      iTopLeftX := (((lcd.iWidth - picture.iWidth) / 2 : Nat) : Int)
      iTopLeftY := (((lcd.iHeight - picture.iHeight) / 2 : Nat) : Int)
      merged := 0
      tFrameBuf := { lcd with aucPixelDatas := datas } }
  refine ⟨shown, ?_, fitsWidth, fitsHeight, keeps, margin_centred fitsWidth,
    margin_centred fitsHeight, rfl, displayed, ?_⟩
  · rw [showFrame, fitted, Option.bind_some, margin_half fitsWidth, margin_half fitsHeight]
    change (picMerge _ _ picture lcd).map _ = _
    rw [merged]
    rfl
  · intro position outside
    refine untouched position fun y inHeight => ?_
    rw [lineBytes]
    exact outside_row fun x inWidth => outside x y inWidth inHeight

end Show

def wideFrame : PixelDatas where
  toPictureSize := PictureSize.sized 4 2 8
  aucPixelDatas := [1, 2, 3, 4, 5, 6, 7, 8]

def squareLcd : PixelDatas where
  toPictureSize := PictureSize.sized 2 2 8
  aucPixelDatas := [0, 0, 0, 0]

theorem wideFrame_shown :
    wideFrame.Holds ∧ squareLcd.Holds ∧ ZoomRoom exactRatios squareLcd wideFrame none ∧
      ∃ shown, showFrame exactRatios squareLcd none (fun _ => 0) wideFrame = some shown ∧
        shown.picture.iWidth ≤ 2 ∧ shown.merged = 0 := by
  have frameHolds : wideFrame.Holds := ⟨rfl, by decide⟩
  have lcdHolds : squareLcd.Holds := ⟨rfl, by decide⟩
  have room : ZoomRoom exactRatios squareLcd wideFrame none := fun buffer absent => by cases absent
  obtain ⟨shown, result, fitsWidth, _, _, _, _, merged, _⟩ :=
    frame_shown lcdHolds frameHolds rfl (by decide) (by decide) (by decide) room fun _ => 0
  exact ⟨frameHolds, lcdHolds, room, shown, result, fitsWidth, merged⟩

end BuildLinux.Concrete.DisplayPipeline
