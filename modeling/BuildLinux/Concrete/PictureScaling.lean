/-
PicZoom of driver/v4l2/video2lcd/render/operation/zoom.c on pictures with padded
lines, with its `unsigned long` arithmetic and the allocation that may fail.

Products wrap at the width of a word.  As long as those of the sizes do not, the
function is the exact one of the display pipeline.  Offsets into a buffer are
exact: a buffer lies in memory.
-/

import BuildLinux.Concrete.DisplayPipeline

namespace BuildLinux.Concrete.PictureScaling

open ByteStores
open DisplayPipeline (PixelDatas)

/-- A product of two `unsigned long`s. -/
def unsignedLong (wordBits value : Nat) : Nat := value % 2 ^ wordBits

def srcXTable (wordBits : Nat) (origin zoom : PixelDatas) : List Nat :=
  (List.range zoom.iWidth).map fun x => unsignedLong wordBits (x * origin.iWidth) / zoom.iWidth

def zoomRow (wordBits : Nat) (origin zoom : PixelDatas) (pdwSrcXTable : List Nat) (y : Nat) :
    Option (List Store) :=
  let dwPixelBytes := origin.iBpp / 8
  let dwSrcY := unsignedLong wordBits (y * origin.iHeight) / zoom.iHeight
  let pucDest := y * zoom.iLineBytes
  let pucSrc := dwSrcY * origin.iLineBytes
  eachStores (List.range zoom.iWidth) fun x =>
    (pdwSrcXTable[x]?).bind fun srcX =>
      (readBytes origin.aucPixelDatas (pucSrc + srcX * dwPixelBytes) dwPixelBytes).map fun bytes =>
        [{ offset := pucDest + x * dwPixelBytes, bytes := bytes }]

/-- `allocated` tells whether the table gets its memory. -/
def picZoom (wordBits : Nat) (allocated : Bool) (origin zoom : PixelDatas) :
    Option (Int × PixelDatas) :=
  if origin.iBpp ≠ zoom.iBpp then some (-1, zoom)
  else if !allocated then some (-1, zoom)
  else
    let pdwSrcXTable := srcXTable wordBits origin zoom
    (eachStores (List.range zoom.iHeight) (zoomRow wordBits origin zoom pdwSrcXTable)).bind
      fun stores =>
        (applyStores zoom.aucPixelDatas stores).map fun datas =>
          (0, { zoom with aucPixelDatas := datas })

/-- Lines with room for the pixels of a row, and a buffer with room for the lines. -/
structure Consistent (picture : PixelDatas) : Prop where
  lineBytes : picture.iWidth * picture.iBpp / 8 ≤ picture.iLineBytes
  inBuffer : picture.iLineBytes * picture.iHeight ≤ picture.aucPixelDatas.length

structure NonEmpty (picture : PixelDatas) : Prop where
  wide : 1 ≤ picture.iWidth
  high : 1 ≤ picture.iHeight

theorem Consistent.lines {picture : PixelDatas} (consistent : Consistent picture)
    (whole : 8 ∣ picture.iBpp) : picture.Lines := by
  constructor
  · change picture.iWidth * (picture.iBpp / 8) ≤ _
    rw [← DisplayPipeline.lineBytes_whole whole]
    exact consistent.lineBytes
  · rw [Nat.mul_comm]
    exact consistent.inBuffer

theorem unsignedLong_exact {wordBits place size target : Nat} (word : 31 ≤ wordBits)
    (product : target * size < 2 ^ 31) (inTarget : place < target) :
    unsignedLong wordBits (place * size) = place * size := by
  apply Nat.mod_eq_of_lt
  exact (Nat.mul_le_mul_right size inTarget.le).trans_lt
    (product.trans_le (Nat.pow_le_pow_right (by omega) word))

section Exact

variable {wordBits : Nat} (word : 31 ≤ wordBits) {origin zoom : PixelDatas}
  (columns : zoom.iWidth * origin.iWidth < 2 ^ 31) (rows : zoom.iHeight * origin.iHeight < 2 ^ 31)

include word columns in
theorem srcXTable_exact : srcXTable wordBits origin zoom =
    (List.range zoom.iWidth).map fun x => x * origin.iWidth / zoom.iWidth := by
  refine List.map_congr_left fun x member => ?_
  rw [unsignedLong_exact word columns (List.mem_range.mp member)]

include word columns rows

/-- While the products of the sizes fit 31 bits nothing wraps. -/
theorem picZoom_exact : picZoom wordBits true origin zoom = DisplayPipeline.picZoom origin zoom := by
  unfold picZoom DisplayPipeline.picZoom
  by_cases otherDepth : origin.iBpp ≠ zoom.iBpp
  · rw [if_pos otherDepth, if_pos otherDepth]
  · rw [if_neg otherDepth, if_neg otherDepth, if_neg (by decide), srcXTable_exact word columns]
    dsimp only
    congr 1
    refine eachStores_congr _ fun y member => ?_
    unfold zoomRow DisplayPipeline.zoomRow
    rw [unsignedLong_exact word rows (List.mem_range.mp member)]

end Exact

theorem picZoom_refused (wordBits : Nat) {allocated : Bool} {origin zoom : PixelDatas}
    (refused : origin.iBpp ≠ zoom.iBpp ∨ allocated = false) :
    picZoom wordBits allocated origin zoom = some (-1, zoom) := by
  unfold picZoom
  rcases refused with otherDepth | none
  · exact if_pos otherDepth
  · rw [none]
    exact ite_self _

section Nearest

variable {wordBits : Nat} (word : 31 ≤ wordBits) {origin zoom : PixelDatas}
  (whole : 8 ∣ origin.iBpp) (originConsistent : Consistent origin)
  (zoomConsistent : Consistent zoom) (originNonEmpty : NonEmpty origin)
  (columns : zoom.iWidth * origin.iWidth < 2 ^ 31) (rows : zoom.iHeight * origin.iHeight < 2 ^ 31)

include word whole originConsistent zoomConsistent originNonEmpty columns rows

theorem picZoom_samples (sameDepth : origin.iBpp = zoom.iBpp) :
    ∃ datas, picZoom wordBits true origin zoom = some (0, { zoom with aucPixelDatas := datas }) ∧
      datas.length = zoom.aucPixelDatas.length ∧
      (∀ x y, x < zoom.iWidth → y < zoom.iHeight →
        x * origin.iWidth / zoom.iWidth < origin.iWidth ∧
          y * origin.iHeight / zoom.iHeight < origin.iHeight ∧
          ∃ bytes, PixelDatas.pixel { zoom with aucPixelDatas := datas } x y = some bytes ∧
            origin.pixel (x * origin.iWidth / zoom.iWidth) (y * origin.iHeight / zoom.iHeight) =
              some bytes) ∧
      ∀ position, (∀ x y, x < zoom.iWidth → y < zoom.iHeight →
          position < zoom.pixelOffset x y ∨ zoom.pixelOffset x y + zoom.pixelBytes ≤ position) →
        datas[position]? = zoom.aucPixelDatas[position]? := by
  have originLines := originConsistent.lines whole
  have zoomLines := zoomConsistent.lines (sameDepth ▸ whole)
  have pixelBytes : origin.pixelBytes = zoom.pixelBytes := congrArg (· / 8) sameDepth
  obtain ⟨datas, scaled, length, pixels, untouched⟩ := DisplayPipeline.picZoom_spec originLines
    zoomLines sameDepth originNonEmpty.wide originNonEmpty.high
  refine ⟨datas, (picZoom_exact word columns rows).trans scaled, length, ?_, untouched⟩
  intro x y inWidth inHeight
  have column := DisplayPipeline.scaled_inRange inWidth originNonEmpty.wide
  have row := DisplayPipeline.scaled_inRange inHeight originNonEmpty.high
  have inOrigin := originLines.pixel column row
  have inZoom := zoomLines.pixel inWidth inHeight
  rw [← length] at inZoom
  refine ⟨column, row, _, ?_, readBytes_within inOrigin⟩
  rw [← readBytes_within inOrigin]
  rw [pixelBytes] at inOrigin ⊢
  exact readBytes_congr inZoom inOrigin (pixels x y inWidth inHeight)

end Nearest

/-- Two rows of two pixels, each row followed by a byte of padding. -/
def paddedPicture : PixelDatas where
  iWidth := 2
  iHeight := 2
  iBpp := 8
  iLineBytes := 3
  iTotalBytes := 6
  aucPixelDatas := [1, 2, 0, 3, 4, 0]

def widePicture : PixelDatas where
  iWidth := 4
  iHeight := 1
  iBpp := 8
  iLineBytes := 5
  iTotalBytes := 5
  aucPixelDatas := [9, 9, 9, 9, 9]

example : picZoom 64 true paddedPicture widePicture =
    some (0, { widePicture with aucPixelDatas := [1, 1, 2, 2, 9] }) := rfl

end BuildLinux.Concrete.PictureScaling
