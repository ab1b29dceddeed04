/-
PicMerge and PicMergeRegion of driver/v4l2/video2lcd/render/operation/merge.c.

Both guard some of their arguments and then copy rows with `memcpy`.  They are
translated to their return value and the list of these copies, whose offsets
may lie anywhere; a product that is no `int` leaves them undefined.  A pixel is
where its bits are, so that any depth has its pixels.
-/

import BuildLinux.Concrete.PictureScaling
import Mathlib.Tactic.Ring

namespace BuildLinux.Concrete.PictureMerging

open ByteStores
open DisplayPipeline (IsInt PixelDatas)
open PictureScaling (Consistent)

/-- The arguments of one `memcpy` as offsets into the two buffers. -/
structure Copy where
  source : Int
  destination : Int
  count : Int
  deriving DecidableEq, Repr

/-- `for (i = 0; i < rows; i++) { memcpy; pucSrc += ..; pucDst += ..; }` -/
def copyLoop (count srcLine dstLine : Int) : Nat → Int → Int → List Copy
  | 0, _, _ => []
  | rows + 1, pucSrc, pucDst =>
      { source := pucSrc, destination := pucDst, count := count } ::
        copyLoop count srcLine dstLine rows (pucSrc + srcLine) (pucDst + dstLine)

/-- `iY * iLineBytes + iX * iBpp / 8`. -/
def pixelPointer (picture : PixelDatas) (iX iY : Int) : Int :=
  iY * picture.iLineBytes + (iX * picture.iBpp).tdiv 8

/-- The two products of `pixelPointer` can be formed. -/
def PointerDefined (picture : PixelDatas) (iX iY : Int) : Prop :=
  IsInt (iY * picture.iLineBytes) ∧ IsInt (iX * picture.iBpp)

instance (picture : PixelDatas) (iX iY : Int) : Decidable (PointerDefined picture iX iY) :=
  inferInstanceAs (Decidable (_ ∧ _))

def OtherSize (small big : PixelDatas) : Prop :=
  small.iWidth > big.iWidth ∨ small.iHeight > big.iHeight ∨ small.iBpp ≠ big.iBpp

instance (small big : PixelDatas) : Decidable (OtherSize small big) :=
  inferInstanceAs (Decidable (_ ∨ _))

def picMerge (iX iY : Int) (small big : PixelDatas) : Option (Int × List Copy) :=
  if OtherSize small big then some (-1, [])
  else if PointerDefined big iX iY then
    some (0, copyLoop small.iLineBytes small.iLineBytes big.iLineBytes small.iHeight 0
      (pixelPointer big iX iY))
  else none

/-- The arguments of `PicMergeRegion`. -/
structure Region where
  iStartXofNewPic : Int
  iStartYofNewPic : Int
  iStartXofOldPic : Int
  iStartYofOldPic : Int
  iWidth : Int
  iHeight : Int
  deriving DecidableEq, Repr

def StartsOutside (region : Region) (new old : PixelDatas) : Prop :=
  (region.iStartXofNewPic < 0 ∨ region.iStartXofNewPic ≥ new.iWidth) ∨
    (region.iStartYofNewPic < 0 ∨ region.iStartYofNewPic ≥ new.iHeight) ∨
    (region.iStartXofOldPic < 0 ∨ region.iStartXofOldPic ≥ old.iWidth) ∨
    (region.iStartYofOldPic < 0 ∨ region.iStartYofOldPic ≥ old.iHeight)

instance (region : Region) (new old : PixelDatas) : Decidable (StartsOutside region new old) :=
  inferInstanceAs (Decidable (_ ∨ _))

def picMergeRegion (region : Region) (new old : PixelDatas) : Option (Int × List Copy) :=
  if IsInt (region.iWidth * new.iBpp) then
    let iLineBytesCpy := (region.iWidth * new.iBpp).tdiv 8
    if StartsOutside region new old then some (-1, [])
    else if PointerDefined new region.iStartXofNewPic region.iStartYofNewPic ∧
        PointerDefined old region.iStartXofOldPic region.iStartYofOldPic then
      some (0, copyLoop iLineBytesCpy new.iLineBytes old.iLineBytes region.iHeight.toNat
        (pixelPointer new region.iStartXofNewPic region.iStartYofNewPic)
        (pixelPointer old region.iStartXofOldPic region.iStartYofOldPic))
    else none
  else none

/-! ### What the copies do -/

/-- None where an access leaves its buffer; a negative count is a `size_t`
beyond every buffer.  Nothing is touched by a copy of no bytes. -/
def memcpy (source destination : Block) (copy : Copy) : Option Block :=
  if copy.count = 0 then some destination
  else if copy.source < 0 ∨ copy.destination < 0 ∨ copy.count < 0 then none
  else
    (readBytes source copy.source.toNat copy.count.toNat).bind fun bytes =>
      applyStore destination { offset := copy.destination.toNat, bytes := bytes }

def memcpys (source : Block) : Block → List Copy → Option Block
  | destination, [] => some destination
  | destination, copy :: rest =>
      (memcpy source destination copy).bind fun after => memcpys source after rest

/-- The copies put the bit `source` of their source to `destination`. -/
def Moves (copies : List Copy) (destination source : Int) : Prop :=
  ∃ copy ∈ copies, ∃ bit : Int, 0 ≤ bit ∧ bit < 8 * copy.count ∧
    destination = 8 * copy.destination + bit ∧ source = 8 * copy.source + bit

def bitAt (block : Block) (position : Int) : Option Bool :=
  if position < 0 then none
  else (block[position.toNat / 8]?).map fun byte => byte.getLsbD (position.toNat % 8)

/-! ### Pixels and rectangles -/

/-- Where the bit of a pixel lies. -/
def pixelBit (picture : PixelDatas) (x y bit : Int) : Int :=
  8 * (y * picture.iLineBytes) + x * picture.iBpp + bit

def IsPixelBit (picture : PixelDatas) (position : Int) : Prop :=
  ∃ x y bit : Int, 0 ≤ x ∧ x < picture.iWidth ∧ 0 ≤ y ∧ y < picture.iHeight ∧
    0 ≤ bit ∧ bit < picture.iBpp ∧ position = pixelBit picture x y bit

/-- A bit of the destination rectangle and the bit of the pixel that belongs there. -/
def Corresponds (region : Region) (new old : PixelDatas) (destination source : Int) : Prop :=
  ∃ i j bit : Int, 0 ≤ i ∧ i < region.iWidth ∧ 0 ≤ j ∧ j < region.iHeight ∧
    0 ≤ bit ∧ bit < old.iBpp ∧
    destination = pixelBit old (region.iStartXofOldPic + i) (region.iStartYofOldPic + j) bit ∧
    source = pixelBit new (region.iStartXofNewPic + i) (region.iStartYofNewPic + j) bit

/-- The rectangle consists of pixels of the picture. -/
structure Within (iStartX iStartY iWidth iHeight : Int) (picture : PixelDatas) : Prop where
  left : 0 ≤ iStartX
  top : 0 ≤ iStartY
  right : iStartX + iWidth ≤ picture.iWidth
  bottom : iStartY + iHeight ≤ picture.iHeight

def InNew (region : Region) (new : PixelDatas) : Prop :=
  Within region.iStartXofNewPic region.iStartYofNewPic region.iWidth region.iHeight new

def InOld (region : Region) (old : PixelDatas) : Prop :=
  Within region.iStartXofOldPic region.iStartYofOldPic region.iWidth region.iHeight old

/-- The copies change the rectangle of the old picture to that of the new one:
all of it and nothing else, without an access outside the pictures. -/
structure Merged (region : Region) (new old : PixelDatas) (copies : List Copy) : Prop where
  rectangle : 0 < region.iWidth → 0 < region.iHeight →
    InNew region new ∧ InOld region old ∧ new.iBpp = old.iBpp
  counts : ∀ copy ∈ copies, 0 ≤ copy.count
  reads : ∀ destination source, Moves copies destination source → IsPixelBit new source
  writes : ∀ destination source, Moves copies destination source → IsPixelBit old destination
  exact : ∀ destination source, Moves copies destination source ↔
    Corresponds region new old destination source
  memory : ∃ datas, memcpys new.aucPixelDatas old.aucPixelDatas copies = some datas ∧
    (∀ destination source, Corresponds region new old destination source →
      bitAt datas destination = bitAt new.aucPixelDatas source) ∧
    ∀ destination, (∀ source, ¬Corresponds region new old destination source) →
      bitAt datas destination = bitAt old.aucPixelDatas destination

/-- Refused without a change, or merged. -/
def MergesExactly (region : Region) (new old : PixelDatas)
    (result : Option (Int × List Copy)) : Prop :=
  result = some (-1, []) ∨ ∃ copies, result = some (0, copies) ∧ Merged region new old copies

/-- The whole small picture, to be put at a place of the big one. -/
def wholeRegion (iX iY : Int) (small : PixelDatas) : Region where
  iStartXofNewPic := 0
  iStartYofNewPic := 0
  iStartXofOldPic := iX
  iStartYofOldPic := iY
  iWidth := small.iWidth
  iHeight := small.iHeight

/-! ### When they stay inside -/

/-- `PicMerge` refuses; or its products are `int`s, and there are no rows, or the
lines of the small picture have no padding and it lies in the big one at the
beginning of a byte. -/
def MergeFits (iX iY : Int) (small big : PixelDatas) : Prop :=
  OtherSize small big ∨
    PointerDefined big iX iY ∧
      (small.iHeight = 0 ∨
        8 * small.iLineBytes = small.iWidth * small.iBpp ∧
          (small.iWidth = 0 ∨ InOld (wholeRegion iX iY small) big ∧ (8 : Int) ∣ iX * big.iBpp))

/-- `PicMergeRegion` refuses; or its products are `int`s, and there are no rows,
or no bytes in them, or the rectangle is one of pixels in both pictures, with
one depth, and of whole bytes. -/
def RegionFits (region : Region) (new old : PixelDatas) : Prop :=
  IsInt (region.iWidth * new.iBpp) ∧
    (StartsOutside region new old ∨
      (PointerDefined new region.iStartXofNewPic region.iStartYofNewPic ∧
          PointerDefined old region.iStartXofOldPic region.iStartYofOldPic) ∧
        (region.iHeight ≤ 0 ∨
          region.iWidth ≤ 0 ∧ -8 < region.iWidth * new.iBpp ∨
          0 < region.iWidth ∧ InNew region new ∧ InOld region old ∧ new.iBpp = old.iBpp ∧
            (8 : Int) ∣ region.iWidth * new.iBpp ∧ (8 : Int) ∣ region.iStartXofNewPic * new.iBpp ∧
            (8 : Int) ∣ region.iStartXofOldPic * old.iBpp))

/-! ### Copies row by row -/

theorem copyLoop_eq_map (count srcLine dstLine : Int) (rows : Nat) (pucSrc pucDst : Int) :
    copyLoop count srcLine dstLine rows pucSrc pucDst =
      (List.range rows).map fun row =>
        { source := pucSrc + row * srcLine
          destination := pucDst + row * dstLine
          count := count } := by
  induction rows generalizing pucSrc pucDst with
  | zero => rfl
  | succ rows ih =>
      have next (start line : Int) (row : Nat) :
          start + line + row * line = start + ((row + 1 : Nat) : Int) * line := by
        push_cast
        ring
      rw [copyLoop, ih, List.range_succ_eq_map, List.map_cons, List.map_map]
      congr 1
      · simp
      · refine List.map_congr_left fun row _ => ?_
        dsimp only [Function.comp]
        rw [next, next]

theorem mem_copyLoop {count srcLine dstLine : Int} {rows : Nat} {pucSrc pucDst : Int} {copy : Copy} :
    copy ∈ copyLoop count srcLine dstLine rows pucSrc pucDst ↔
      ∃ row : Nat, row < rows ∧ copy = ⟨pucSrc + row * srcLine, pucDst + row * dstLine, count⟩ := by
  rw [copyLoop_eq_map, List.mem_map]
  refine exists_congr fun row => and_congr List.mem_range ?_
  exact eq_comm

/-- The copy of one row. -/
theorem copyLoop_row {count srcLine dstLine : Int} {rows : Nat} {pucSrc pucDst : Int} {row : Nat}
    {copy : Copy}
    (isRow : (copyLoop count srcLine dstLine rows pucSrc pucDst)[row]? = some copy) :
    copy.destination = pucDst + row * dstLine := by
  rw [copyLoop_eq_map, List.getElem?_map] at isRow
  obtain ⟨index, inRange, rfl⟩ := Option.map_eq_some_iff.mp isRow
  obtain ⟨_, isIndex⟩ := List.getElem?_eq_some_iff.mp inRange
  rw [List.getElem_range] at isIndex
  rw [isIndex]

/-- Rows of bits in two pictures. -/
structure BitRows where
  rows : Nat
  bits : Int
  srcLine : Nat
  dstLine : Nat
  source : Int
  destination : Int

def BitRows.Has (block : BitRows) (destination source : Int) : Prop :=
  ∃ row : Nat, row < block.rows ∧ ∃ bit : Int, 0 ≤ bit ∧ bit < block.bits ∧
    destination = block.destination + 8 * (row * block.dstLine : Nat) + bit ∧
    source = block.source + 8 * (row * block.srcLine : Nat) + bit

/-- Rows among other rows start no earlier and end no later. -/
theorem BitRows.among {block other : BitRows}
    (among : ∀ destination source, block.Has destination source → other.Has destination source)
    (sameRows : block.rows = other.rows) (sameLine : block.dstLine = other.dstLine)
    (some : 0 < block.rows) (wide : 0 < block.bits) :
    other.destination ≤ block.destination ∧ other.source ≤ block.source ∧
      block.destination + block.bits ≤ other.destination + other.bits := by
  have first : block.Has block.destination block.source :=
    ⟨0, some, 0, le_refl 0, wide, by simp, by simp⟩
  obtain ⟨row, _, bit, nonneg, _, isDestination, isSource⟩ := among _ _ first
  refine ⟨by omega, by omega, ?_⟩
  have last : block.Has
      (block.destination + 8 * ((block.rows - 1) * block.dstLine : Nat) + (block.bits - 1))
      (block.source + 8 * ((block.rows - 1) * block.srcLine : Nat) + (block.bits - 1)) :=
    ⟨block.rows - 1, Nat.sub_lt some Nat.one_pos, block.bits - 1, by omega, by omega, rfl, rfl⟩
  obtain ⟨lastRow, inRows, lastBit, _, below, isLast, _⟩ := among _ _ last
  have lines := Nat.mul_le_mul_right other.dstLine (show lastRow ≤ block.rows - 1 by omega)
  rw [sameLine] at isLast
  omega

def copiedRows (count : Int) (srcLine dstLine rows : Nat) (pucSrc pucDst : Int) : BitRows where
  rows := rows
  bits := 8 * count
  srcLine := srcLine
  dstLine := dstLine
  source := 8 * pucSrc
  destination := 8 * pucDst

theorem moves_copyLoop {count : Int} {srcLine dstLine rows : Nat}
    {pucSrc pucDst destination source : Int} :
    Moves (copyLoop count srcLine dstLine rows pucSrc pucDst) destination source ↔
      (copiedRows count srcLine dstLine rows pucSrc pucDst).Has destination source := by
  have shift (start : Int) (row line : Nat) (bit : Int) :
      8 * (start + row * line) + bit = 8 * start + 8 * (row * line : Nat) + bit := by
    push_cast
    ring
  constructor
  · rintro ⟨copy, member, bit, first, last, rfl, rfl⟩
    obtain ⟨row, below, rfl⟩ := mem_copyLoop.mp member
    exact ⟨row, below, bit, first, last, shift _ _ _ _, shift _ _ _ _⟩
  · rintro ⟨row, below, bit, first, last, rfl, rfl⟩
    exact ⟨_, mem_copyLoop.mpr ⟨row, below, rfl⟩, bit, first, last, (shift _ _ _ _).symm,
      (shift _ _ _ _).symm⟩

def rectangleRows (region : Region) (new old : PixelDatas) : BitRows where
  rows := region.iHeight.toNat
  bits := region.iWidth * old.iBpp
  srcLine := new.iLineBytes
  dstLine := old.iLineBytes
  source := pixelBit new region.iStartXofNewPic region.iStartYofNewPic 0
  destination := pixelBit old region.iStartXofOldPic region.iStartYofOldPic 0

theorem pixelBit_row (picture : PixelDatas) (x y i : Int) (row : Nat) (bit : Int) :
    pixelBit picture (x + i) (y + row) bit =
      pixelBit picture x y 0 + 8 * (row * picture.iLineBytes : Nat) + (i * picture.iBpp + bit) := by
  unfold pixelBit
  push_cast
  ring

/-- The bits of a row of the rectangle follow one another. -/
theorem corresponds_rows {region : Region} {new old : PixelDatas} (sameDepth : new.iBpp = old.iBpp)
    {destination source : Int} :
    Corresponds region new old destination source ↔
      (rectangleRows region new old).Has destination source := by
  constructor
  · rintro ⟨i, j, bit, left, right, top, bottom, first, last, rfl, rfl⟩
    lift j to ℕ using top
    refine ⟨j, Int.lt_toNat.mpr bottom, i * old.iBpp + bit, ?_, ?_, pixelBit_row old _ _ i j bit, ?_⟩
    · have start := Int.mul_nonneg left (Int.natCast_nonneg old.iBpp)
      omega
    · have line := Int.mul_le_mul_of_nonneg_right (show i + 1 ≤ region.iWidth by omega)
        (Int.natCast_nonneg old.iBpp)
      rw [Int.add_mul, Int.one_mul] at line
      change _ < region.iWidth * old.iBpp
      omega
    · rw [pixelBit_row, sameDepth]
      rfl
  · rintro ⟨row, below, bit, first, last, rfl, rfl⟩
    change bit < region.iWidth * old.iBpp at last
    have deep : 0 < (old.iBpp : Int) := by
      rcases Nat.eq_zero_or_pos old.iBpp with none | some
      · rw [none] at last
        omega
      · exact Int.natCast_pos.mpr some
    have split := Int.mul_ediv_add_emod bit old.iBpp
    rw [Int.mul_comm] at split
    refine ⟨bit / (old.iBpp : Int), (row : Int), bit % (old.iBpp : Int),
      Int.ediv_nonneg first deep.le, Int.ediv_lt_of_lt_mul deep last, Int.natCast_nonneg row,
      Int.lt_toNat.mp below, Int.emod_nonneg bit deep.ne', Int.emod_lt_of_pos bit deep, ?_, ?_⟩
    · rw [pixelBit_row, split]
      rfl
    · rw [pixelBit_row, sameDepth, split]
      rfl

theorem corresponds_empty {region : Region} {new old : PixelDatas}
    (empty : region.iWidth ≤ 0 ∨ region.iHeight ≤ 0 ∨ old.iBpp = 0) (destination source : Int) :
    ¬Corresponds region new old destination source := by
  rintro ⟨i, j, bit, left, right, top, bottom, _⟩
  omega

/-! ### What is in memory after them -/

theorem memcpy_store {source destination : Block} {here there count : Nat} (some : 0 < count)
    (inSource : here + count ≤ source.length) :
    memcpy source destination ⟨here, there, count⟩ =
      applyStore destination { offset := there, bytes := (source.drop here).take count } := by
  have bytes : (count : Int) ≠ 0 := Int.natCast_ne_zero.mpr some.ne'
  have inside : ¬((here : Int) < 0 ∨ (there : Int) < 0 ∨ (count : Int) < 0) := by omega
  rw [memcpy, if_neg bytes, if_neg inside]
  simp only [Int.toNat_natCast]
  rw [readBytes_within inSource, Option.bind_some]

/-- Rows that lie in the source are copied as its stores. -/
theorem memcpys_rows {source : Block} {count line stride rows here there : Nat} (some : 0 < count)
    (inSource : ∀ row, row < rows → here + row * line + count ≤ source.length)
    (destination : Block) :
    memcpys source destination (copyLoop count line stride rows here there) =
      applyStores destination (rowStores source count line stride rows here there) := by
  induction rows generalizing here there destination with
  | zero => rfl
  | succ rows ih =>
      have first := inSource 0 (Nat.succ_pos rows)
      rw [Nat.zero_mul, Nat.add_zero] at first
      have later : ∀ row, row < rows → here + line + row * line + count ≤ source.length := by
        intro row below
        have next := inSource (row + 1) (Nat.succ_lt_succ below)
        rw [Nat.succ_mul] at next
        omega
      have rest := @ih (here + line) (there + stride) later
      push_cast at rest
      rw [copyLoop, memcpys, memcpy_store some first, rowStores, applyStores]
      simp only [rest]

theorem memcpys_nothing {source destination : Block} {copies : List Copy}
    (nothing : ∀ copy ∈ copies, copy.count = 0) :
    memcpys source destination copies = some destination := by
  induction copies with
  | nil => rfl
  | cons copy rest ih =>
      obtain ⟨first, later⟩ := List.forall_mem_cons.mp nothing
      rw [memcpys, memcpy, if_pos first, Option.bind_some, ih later]

theorem bitAt_byte (block : Block) (byte bit : Nat) :
    bitAt block (8 * (byte : Int) + bit) =
      (block[byte + bit / 8]?).map fun value => value.getLsbD (bit % 8) := by
  have nonneg : ¬8 * (byte : Int) + bit < 0 := by omega
  have position : (8 * (byte : Int) + bit).toNat = 8 * byte + bit := by omega
  rw [bitAt, if_neg nonneg, position, Nat.mul_add_div (by decide), Nat.mul_add_mod]

/-! Bits of a block `datas` whose rows were copied byte by byte. -/

section Rows

variable {count line stride rows here there : Nat} {source datas : Block}

theorem copied_bits
    (copied : ∀ row index, row < rows → index < count →
      datas[there + row * stride + index]? = source[here + row * line + index]?)
    {destinationBit sourceBit : Int}
    (moved : Moves (copyLoop count line stride rows here there) destinationBit sourceBit) :
    bitAt datas destinationBit = bitAt source sourceBit := by
  obtain ⟨row, below, bit, first, last, rfl, rfl⟩ := moves_copyLoop.mp moved
  lift bit to ℕ using first
  change (bit : Int) < 8 * count at last
  have byte := copied row (bit / 8) below (by omega)
  change bitAt datas (8 * (there : Int) + 8 * (row * stride : Nat) + bit) =
    bitAt source (8 * (here : Int) + 8 * (row * line : Nat) + bit)
  rw [← Int.mul_add, ← Int.mul_add, ← Int.natCast_add, ← Int.natCast_add, bitAt_byte, bitAt_byte,
    byte]

theorem untouched_bits {destination : Block}
    (untouched : ∀ position, (∀ row, row < rows → position < there + row * stride ∨
      there + row * stride + count ≤ position) → datas[position]? = destination[position]?)
    {destinationBit : Int} (outside : ∀ sourceBit,
      ¬Moves (copyLoop count line stride rows here there) destinationBit sourceBit) :
    bitAt datas destinationBit = bitAt destination destinationBit := by
  by_cases before : destinationBit < 0
  · rw [bitAt, bitAt, if_pos before, if_pos before]
  · lift destinationBit to ℕ using by omega
    have outsideRows : ∀ row, row < rows → destinationBit / 8 < there + row * stride ∨
        there + row * stride + count ≤ destinationBit / 8 := by
      intro row below
      by_contra inRow
      -- The bit would be one of the copied row.
      refine outside _ (moves_copyLoop.mpr
        ⟨row, below, destinationBit - 8 * (there + row * stride : Nat), ?_, ?_, ?_, rfl⟩)
      · omega
      · change _ < 8 * (count : Int)
        omega
      · change (destinationBit : Int) = 8 * (there : Int) + 8 * (row * stride : Nat) + _
        omega
    rw [bitAt, bitAt, if_neg before, if_neg before, Int.toNat_natCast,
      untouched (destinationBit / 8) outsideRows]

end Rows

theorem pixelBit_nonneg (picture : PixelDatas) {x y : Int} (left : 0 ≤ x) (top : 0 ≤ y) :
    0 ≤ pixelBit picture x y 0 := by
  have column := Int.mul_nonneg left (Int.natCast_nonneg picture.iBpp)
  have line := Int.mul_nonneg top (Int.natCast_nonneg picture.iLineBytes)
  unfold pixelBit
  omega

/-- The rows of a rectangle of pixels lie in the buffer, each on its own line. -/
theorem row_inside {picture : PixelDatas} (consistent : Consistent picture)
    {x y iWidth iHeight : Int} (inPicture : Within x y iWidth iHeight picture) {start count : Nat}
    (aligned : 8 * (start : Int) = pixelBit picture x y 0)
    (whole : 8 * (count : Int) = iWidth * picture.iBpp) :
    count ≤ picture.iLineBytes ∧ ∀ row : Nat, (row : Int) < iHeight →
      start + row * picture.iLineBytes + count ≤ picture.aucPixelDatas.length := by
  have columns := Int.mul_le_mul_of_nonneg_right inPicture.right (Int.natCast_nonneg picture.iBpp)
  have skipped := Int.mul_nonneg inPicture.left (Int.natCast_nonneg picture.iBpp)
  rw [Int.add_mul] at columns
  have line := consistent.lineBytes
  have product : ((picture.iWidth * picture.iBpp : Nat) : Int) = picture.iWidth * picture.iBpp :=
    Int.natCast_mul _ _
  unfold pixelBit at aligned
  constructor
  · omega
  · intro row below
    have bottom := inPicture.bottom
    have lines := Int.mul_le_mul_of_nonneg_right (show y + row + 1 ≤ picture.iHeight by omega)
      (Int.natCast_nonneg picture.iLineBytes)
    rw [Int.add_mul, Int.add_mul, Int.one_mul] at lines
    have buffer := consistent.inBuffer
    rw [Nat.mul_comm] at buffer
    zify at buffer line ⊢
    omega

theorem corresponds_pixels {region : Region} {new old : PixelDatas} (inNew : InNew region new)
    (inOld : InOld region old) (sameDepth : new.iBpp = old.iBpp) {destination source : Int}
    (corresponds : Corresponds region new old destination source) :
    IsPixelBit old destination ∧ IsPixelBit new source := by
  obtain ⟨newLeft, newTop, newRight, newBottom⟩ := inNew
  obtain ⟨oldLeft, oldTop, oldRight, oldBottom⟩ := inOld
  obtain ⟨i, j, bit, left, right, top, bottom, first, last, isDestination, isSource⟩ := corresponds
  constructor
  · exact ⟨_, _, bit, by omega, by omega, by omega, by omega, first, last, isDestination⟩
  · exact ⟨_, _, bit, by omega, by omega, by omega, by omega, first, by omega, isSource⟩

section Merge

variable {region : Region} {new old : PixelDatas} {count pucSrc pucDst : Int}

/-- Copies of no bytes merge a rectangle without bits. -/
theorem merged_nothing {copies : List Copy} (nothing : ∀ copy ∈ copies, copy.count = 0)
    (empty : ∀ destination source, ¬Corresponds region new old destination source)
    (rectangle : 0 < region.iWidth → 0 < region.iHeight →
      InNew region new ∧ InOld region old ∧ new.iBpp = old.iBpp) :
    Merged region new old copies := by
  have still : ∀ destination source, ¬Moves copies destination source := by
    rintro destination source ⟨copy, member, bit, first, last, _⟩
    rw [nothing copy member] at last
    omega
  exact {
    rectangle := rectangle
    counts := fun copy member => (nothing copy member).ge
    reads := fun destination source moved => (still destination source moved).elim
    writes := fun destination source moved => (still destination source moved).elim
    exact := fun destination source => iff_of_false (still _ _) (empty _ _)
    memory := ⟨old.aucPixelDatas, memcpys_nothing nothing,
      fun destination source corresponds => (empty _ _ corresponds).elim, fun _ _ => rfl⟩ }

/-- Copies that start at the first bit of the rectangle and are as long as its
rows merge it. -/
theorem merged_aligned (newConsistent : Consistent new) (oldConsistent : Consistent old)
    (inNew : InNew region new) (inOld : InOld region old) (sameDepth : new.iBpp = old.iBpp)
    (whole : 8 * count = region.iWidth * old.iBpp) (some : 0 < count)
    (source : 8 * pucSrc = pixelBit new region.iStartXofNewPic region.iStartYofNewPic 0)
    (destination : 8 * pucDst = pixelBit old region.iStartXofOldPic region.iStartYofOldPic 0) :
    Merged region new old
      (copyLoop count new.iLineBytes old.iLineBytes region.iHeight.toNat pucSrc pucDst) := by
  have rows : copiedRows count new.iLineBytes old.iLineBytes region.iHeight.toNat pucSrc pucDst =
      rectangleRows region new old := by
    unfold copiedRows rectangleRows
    rw [whole, source, destination]
  have exact (destination source : Int) : Moves (copyLoop count new.iLineBytes old.iLineBytes
      region.iHeight.toNat pucSrc pucDst) destination source ↔
        Corresponds region new old destination source := by
    rw [moves_copyLoop, rows, corresponds_rows sameDepth]
  have sourceStart := pixelBit_nonneg new inNew.left inNew.top
  have destinationStart := pixelBit_nonneg old inOld.left inOld.top
  lift count to ℕ using some.le
  lift pucSrc to ℕ using by omega
  lift pucDst to ℕ using by omega
  have bytes : 0 < count := Int.natCast_pos.mp some
  obtain ⟨_, inSource⟩ := row_inside newConsistent inNew source (sameDepth ▸ whole)
  obtain ⟨narrow, inDestination⟩ := row_inside oldConsistent inOld destination whole
  obtain ⟨datas, applied, _, copied, untouched⟩ := rowStores_spec
    (fun row below => inSource row (Int.lt_toNat.mp below)) narrow
    (fun row below => inDestination row (Int.lt_toNat.mp below))
  refine {
    rectangle := fun _ _ => ⟨inNew, inOld, sameDepth⟩
    counts := ?_
    reads := ?_
    writes := ?_
    exact := exact
    memory := ⟨datas, ?_, ?_, ?_⟩ }
  · intro copy member
    obtain ⟨row, _, rfl⟩ := mem_copyLoop.mp member
    exact some.le
  · intro destination source moved
    exact (corresponds_pixels inNew inOld sameDepth ((exact destination source).mp moved)).2
  · intro destination source moved
    exact (corresponds_pixels inNew inOld sameDepth ((exact destination source).mp moved)).1
  · rw [memcpys_rows bytes fun row below => inSource row (Int.lt_toNat.mp below), applied]
  · intro destination source corresponds
    exact copied_bits copied ((exact destination source).mpr corresponds)
  · intro destination outside
    exact untouched_bits untouched fun source moved =>
      outside source ((exact destination source).mp moved)

theorem count_of_empty {srcLine dstLine rows : Nat} (some : 0 < rows)
    (merged : Merged region new old (copyLoop count srcLine dstLine rows pucSrc pucDst))
    (empty : ∀ destination source, ¬Corresponds region new old destination source) : count = 0 := by
  have nonneg : 0 ≤ count := merged.counts _ (mem_copyLoop.mpr ⟨0, some, rfl⟩)
  by_contra bytes
  refine empty _ _ ((merged.exact _ _).mp (moves_copyLoop.mpr
    ⟨0, some, 0, le_refl 0, ?_, rfl, rfl⟩))
  change (0 : Int) < 8 * count
  omega

/-- Merging copies start at the first bit of the rectangle and are as long as its rows. -/
theorem aligned_of_merged (wide : 0 < region.iWidth) (high : 0 < region.iHeight)
    (merged : Merged region new old
      (copyLoop count new.iLineBytes old.iLineBytes region.iHeight.toNat pucSrc pucDst)) :
    8 * count = region.iWidth * old.iBpp ∧ (0 < old.iBpp →
      8 * pucSrc = pixelBit new region.iStartXofNewPic region.iStartYofNewPic 0 ∧
        8 * pucDst = pixelBit old region.iStartXofOldPic region.iStartYofOldPic 0) := by
  obtain ⟨_, _, sameDepth⟩ := merged.rectangle wide high
  have rows : 0 < region.iHeight.toNat := by omega
  have same (destination source : Int) :
      (copiedRows count new.iLineBytes old.iLineBytes region.iHeight.toNat pucSrc pucDst).Has
          destination source ↔ (rectangleRows region new old).Has destination source := by
    rw [← moves_copyLoop, merged.exact, corresponds_rows sameDepth]
  rcases Nat.eq_zero_or_pos old.iBpp with noBits | deep
  · have empty := count_of_empty rows merged (corresponds_empty (Or.inr (Or.inr noBits)))
    rw [empty, noBits]
    exact ⟨by omega, fun deep => absurd deep (Nat.lt_irrefl 0)⟩
  · have bits : 0 < region.iWidth * old.iBpp := Int.mul_pos wide (Int.natCast_pos.mpr deep)
    have some : 0 < 8 * count := by
      obtain ⟨row, _, bit, first, last, _⟩ := (same _ _).mpr
        ⟨0, rows, 0, le_refl 0, bits, rfl, rfl⟩
      change bit < 8 * count at last
      omega
    obtain ⟨later, laterSource, ends⟩ := BitRows.among
      (fun destination source => (same destination source).mp) rfl rfl rows some
    obtain ⟨earlier, earlierSource, begins⟩ := BitRows.among
      (fun destination source => (same destination source).mpr) rfl rfl rows bits
    change pixelBit old _ _ 0 ≤ 8 * pucDst at later
    change pixelBit new _ _ 0 ≤ 8 * pucSrc at laterSource
    change 8 * pucDst + 8 * count ≤ pixelBit old _ _ 0 + region.iWidth * old.iBpp at ends
    change 8 * pucDst ≤ pixelBit old _ _ 0 at earlier
    change 8 * pucSrc ≤ pixelBit new _ _ 0 at earlierSource
    change pixelBit old _ _ 0 + region.iWidth * old.iBpp ≤ 8 * pucDst + 8 * count at begins
    exact ⟨by omega, fun _ => ⟨by omega, by omega⟩⟩

/-- The exact arguments with which copies merge. -/
theorem merged_copyLoop_iff (newConsistent : Consistent new) (oldConsistent : Consistent old) :
    Merged region new old
        (copyLoop count new.iLineBytes old.iLineBytes region.iHeight.toNat pucSrc pucDst) ↔
      region.iHeight ≤ 0 ∨ region.iWidth ≤ 0 ∧ count = 0 ∨
        0 < region.iWidth ∧ InNew region new ∧ InOld region old ∧ new.iBpp = old.iBpp ∧
          8 * count = region.iWidth * old.iBpp ∧ (0 < old.iBpp →
            8 * pucSrc = pixelBit new region.iStartXofNewPic region.iStartYofNewPic 0 ∧
              8 * pucDst = pixelBit old region.iStartXofOldPic region.iStartYofOldPic 0) := by
  constructor
  · intro merged
    rcases lt_or_ge 0 region.iHeight with high | noRows
    · rcases lt_or_ge 0 region.iWidth with wide | noColumns
      · obtain ⟨inNew, inOld, sameDepth⟩ := merged.rectangle wide high
        exact Or.inr (Or.inr ⟨wide, inNew, inOld, sameDepth, aligned_of_merged wide high merged⟩)
      · exact Or.inr (Or.inl ⟨noColumns, count_of_empty (Int.lt_toNat.mpr high) merged
          (corresponds_empty (Or.inl noColumns))⟩)
    · exact Or.inl noRows
  · have noBytes (isZero : count = 0) : ∀ copy ∈ copyLoop count new.iLineBytes old.iLineBytes
        region.iHeight.toNat pucSrc pucDst, copy.count = 0 := by
      intro copy member
      obtain ⟨row, _, rfl⟩ := mem_copyLoop.mp member
      exact isZero
    rintro (noRows | ⟨noColumns, isZero⟩ | ⟨wide, inNew, inOld, sameDepth, whole, aligned⟩)
    · rw [Int.toNat_of_nonpos noRows]
      exact merged_nothing (fun copy member => nomatch member)
        (corresponds_empty (Or.inr (Or.inl noRows)))
        fun _ high => absurd high (Int.not_lt.mpr noRows)
    · exact merged_nothing (noBytes isZero) (corresponds_empty (Or.inl noColumns))
        fun wide _ => absurd wide (Int.not_lt.mpr noColumns)
    · rcases Nat.eq_zero_or_pos old.iBpp with noBits | deep
      · rw [noBits] at whole
        exact merged_nothing (noBytes (by omega)) (corresponds_empty (Or.inr (Or.inr noBits)))
          fun _ _ => ⟨inNew, inOld, sameDepth⟩
      · have bits := Int.mul_pos wide (Int.natCast_pos.mpr deep)
        exact merged_aligned newConsistent oldConsistent inNew inOld sameDepth whole (by omega)
          (aligned deep).1 (aligned deep).2

end Merge

/-! ### The two functions -/

theorem pointer_aligned (picture : PixelDatas) (x y : Int) :
    8 * pixelPointer picture x y = pixelBit picture x y 0 ↔ (8 : Int) ∣ x * picture.iBpp := by
  unfold pixelPointer pixelBit
  constructor
  · intro same
    exact ⟨(x * picture.iBpp).tdiv 8, by omega⟩
  · intro whole
    have column := Int.mul_tdiv_cancel' whole
    omega

theorem tdiv_zero_iff {bits : Int} (nonpos : bits ≤ 0) : bits.tdiv 8 = 0 ↔ -8 < bits := by
  obtain ⟨size, rfl⟩ : ∃ size : Nat, bits = -(size : Int) := ⟨(-bits).toNat, by omega⟩
  rw [Int.neg_tdiv]
  change -((size : Int).tdiv ((8 : Nat) : Int)) = 0 ↔ _
  rw [← Int.ofNat_tdiv]
  omega

theorem inNew_whole (iX iY : Int) (small : PixelDatas) : InNew (wholeRegion iX iY small) small :=
  ⟨le_refl 0, le_refl 0, (Int.zero_add _).le, (Int.zero_add _).le⟩

theorem mergesExactly_accepted {region : Region} {new old : PixelDatas} {copies : List Copy} :
    MergesExactly region new old (some (0, copies)) ↔ Merged region new old copies := by
  constructor
  · rintro (refused | ⟨others, accepted, merged⟩)
    · cases refused
    · cases accepted
      exact merged
  · exact fun merged => Or.inr ⟨copies, rfl, merged⟩

theorem not_mergesExactly_undefined {region : Region} {new old : PixelDatas} :
    ¬MergesExactly region new old none := by
  rintro (refused | ⟨copies, accepted, _⟩)
  · cases refused
  · cases accepted

section Functions

variable {new old : PixelDatas} (newConsistent : Consistent new) (oldConsistent : Consistent old)

include newConsistent oldConsistent

theorem picMerge_accepted_iff (iX iY : Int) (sameDepth : new.iBpp = old.iBpp) :
    Merged (wholeRegion iX iY new) new old (copyLoop new.iLineBytes new.iLineBytes old.iLineBytes
        new.iHeight 0 (pixelPointer old iX iY)) ↔
      new.iHeight = 0 ∨ 8 * new.iLineBytes = new.iWidth * new.iBpp ∧
        (new.iWidth = 0 ∨ InOld (wholeRegion iX iY new) old ∧ (8 : Int) ∣ iX * old.iBpp) := by
  change Merged (wholeRegion iX iY new) new old (copyLoop new.iLineBytes new.iLineBytes
    old.iLineBytes (wholeRegion iX iY new).iHeight.toNat 0 (pixelPointer old iX iY)) ↔ _
  rw [merged_copyLoop_iff newConsistent oldConsistent]
  change (new.iHeight : Int) ≤ 0 ∨ (new.iWidth : Int) ≤ 0 ∧ (new.iLineBytes : Int) = 0 ∨
    0 < (new.iWidth : Int) ∧ _ ∧ _ ∧ _ ∧ 8 * (new.iLineBytes : Int) = new.iWidth * old.iBpp ∧
      (0 < old.iBpp → 8 * 0 = pixelBit new 0 0 0 ∧
        8 * pixelPointer old iX iY = pixelBit old iX iY 0) ↔ _
  have start : 8 * 0 = pixelBit new 0 0 0 := by simp [pixelBit]
  rw [pointer_aligned, ← sameDepth]
  constructor
  · rintro (noRows | ⟨noColumns, noBytes⟩ | ⟨_, _, inOld, _, whole, aligned⟩)
    · left
      omega
    · have noWidth : new.iWidth = 0 := by omega
      have noLine : new.iLineBytes = 0 := by omega
      rw [noWidth, noLine]
      right
      simp
    · refine Or.inr ⟨by exact_mod_cast whole, Or.inr ⟨inOld, ?_⟩⟩
      rcases Nat.eq_zero_or_pos new.iBpp with noBits | deep
      · rw [noBits]
        simp
      · exact (aligned deep).2
  · rintro (noRows | ⟨whole, noColumns | ⟨inOld, aligned⟩⟩)
    · left
      omega
    · rw [noColumns, Nat.zero_mul] at whole
      right
      left
      omega
    · rcases Nat.eq_zero_or_pos new.iWidth with noColumns | wide
      · rw [noColumns, Nat.zero_mul] at whole
        right
        left
        omega
      · exact Or.inr (Or.inr ⟨Int.natCast_pos.mpr wide, inNew_whole iX iY new, inOld, rfl,
          by exact_mod_cast whole, fun _ => ⟨start, aligned⟩⟩)

theorem picMerge_exactly_iff (iX iY : Int) :
    MergesExactly (wholeRegion iX iY new) new old (picMerge iX iY new old) ↔
      MergeFits iX iY new old := by
  unfold MergeFits picMerge
  by_cases other : OtherSize new old
  · rw [if_pos other]
    exact iff_of_true (Or.inl rfl) (Or.inl other)
  · have sameDepth : new.iBpp = old.iBpp := by
      by_contra otherDepth
      exact other (Or.inr (Or.inr otherDepth))
    rw [if_neg other, or_iff_right other]
    by_cases defined : PointerDefined old iX iY
    · rw [if_pos defined, and_iff_right defined, mergesExactly_accepted,
        picMerge_accepted_iff newConsistent oldConsistent iX iY sameDepth]
    · rw [if_neg defined]
      exact iff_of_false not_mergesExactly_undefined fun fits => defined fits.1

theorem picMergeRegion_accepted_iff (region : Region) :
    Merged region new old (copyLoop ((region.iWidth * new.iBpp).tdiv 8) new.iLineBytes
        old.iLineBytes region.iHeight.toNat
        (pixelPointer new region.iStartXofNewPic region.iStartYofNewPic)
        (pixelPointer old region.iStartXofOldPic region.iStartYofOldPic)) ↔
      region.iHeight ≤ 0 ∨ region.iWidth ≤ 0 ∧ -8 < region.iWidth * new.iBpp ∨
        0 < region.iWidth ∧ InNew region new ∧ InOld region old ∧ new.iBpp = old.iBpp ∧
          (8 : Int) ∣ region.iWidth * new.iBpp ∧ (8 : Int) ∣ region.iStartXofNewPic * new.iBpp ∧
          (8 : Int) ∣ region.iStartXofOldPic * old.iBpp := by
  rw [merged_copyLoop_iff newConsistent oldConsistent, pointer_aligned, pointer_aligned]
  refine or_congr Iff.rfl (or_congr ?_ ?_)
  · refine and_congr_right fun noColumns => tdiv_zero_iff ?_
    exact Int.mul_nonpos_of_nonpos_of_nonneg noColumns (Int.natCast_nonneg new.iBpp)
  · refine and_congr_right fun _ => and_congr_right fun _ => and_congr_right fun _ =>
      and_congr_right fun sameDepth => ?_
    rw [← sameDepth]
    refine and_congr ⟨fun same => ⟨_, same.symm⟩, Int.mul_tdiv_cancel'⟩ ⟨fun aligned => ?_, fun
      aligned _ => aligned⟩
    rcases Nat.eq_zero_or_pos new.iBpp with noBits | deep
    · rw [noBits]
      simp
    · exact aligned deep

theorem picMergeRegion_exactly_iff (region : Region) :
    MergesExactly region new old (picMergeRegion region new old) ↔ RegionFits region new old := by
  unfold RegionFits picMergeRegion
  by_cases lineDefined : IsInt (region.iWidth * new.iBpp)
  · rw [if_pos lineDefined, and_iff_right lineDefined]
    dsimp only
    by_cases outside : StartsOutside region new old
    · rw [if_pos outside]
      exact iff_of_true (Or.inl rfl) (Or.inl outside)
    · rw [if_neg outside, or_iff_right outside]
      by_cases defined : PointerDefined new region.iStartXofNewPic region.iStartYofNewPic ∧
          PointerDefined old region.iStartXofOldPic region.iStartYofOldPic
      · rw [if_pos defined, and_iff_right defined, mergesExactly_accepted,
          picMergeRegion_accepted_iff newConsistent oldConsistent]
      · rw [if_neg defined]
        exact iff_of_false not_mergesExactly_undefined fun fits => defined fits.1
  · rw [if_neg lineDefined]
    exact iff_of_false not_mergesExactly_undefined fun fits => lineDefined fits.1

/-- The two functions stay inside the pictures exactly where they refuse or fit. -/
theorem merging_inside_iff :
    (∀ iX iY, MergesExactly (wholeRegion iX iY new) new old (picMerge iX iY new old) ↔
      MergeFits iX iY new old) ∧
    ∀ region, MergesExactly region new old (picMergeRegion region new old) ↔
      RegionFits region new old :=
  ⟨picMerge_exactly_iff newConsistent oldConsistent,
    picMergeRegion_exactly_iff newConsistent oldConsistent⟩

end Functions

/-- Four rows of four bytes. -/
def squarePicture : PixelDatas where
  iWidth := 4
  iHeight := 4
  iBpp := 8
  iLineBytes := 4
  iTotalBytes := 16
  aucPixelDatas := List.replicate 16 0

/-- One row of two bytes and one of padding. -/
def paddedRow : PixelDatas where
  iWidth := 2
  iHeight := 1
  iBpp := 8
  iLineBytes := 3
  iTotalBytes := 3
  aucPixelDatas := [1, 2, 0]

theorem square_consistent : Consistent squarePicture := by
  constructor <;> decide

theorem paddedRow_consistent : Consistent paddedRow := by
  constructor <;> decide

/-- A part of the row at the lower right corner. -/
def cornerRegion (iWidth : Int) : Region where
  iStartXofNewPic := 0
  iStartYofNewPic := 0
  iStartXofOldPic := 3
  iStartYofOldPic := 3
  iWidth := iWidth
  iHeight := 1

theorem corner_merged :
    MergesExactly (cornerRegion 1) paddedRow squarePicture
      (picMergeRegion (cornerRegion 1) paddedRow squarePicture) ∧
    ¬MergesExactly (wholeRegion 0 0 paddedRow) paddedRow squarePicture
      (picMerge 0 0 paddedRow squarePicture) := by
  obtain ⟨whole, part⟩ := merging_inside_iff paddedRow_consistent square_consistent
  constructor
  · refine (part _).mpr ⟨by decide, Or.inr ⟨by decide, Or.inr (Or.inr ?_)⟩⟩
    exact ⟨by decide, by constructor <;> decide, by constructor <;> decide, rfl, by decide,
      by decide, by decide⟩
  · rw [whole]
    rintro (other | ⟨_, noRows | ⟨padding, _⟩⟩)
    · exact absurd other (by decide)
    · exact absurd noRows (by decide)
    · exact absurd padding (by decide)

/-- A picture put left of the big one, and a rectangle beyond its last column:
both are copied. -/
theorem overhang_copied :
    Consistent paddedRow ∧ Consistent squarePicture ∧
    picMerge (-1) 0 paddedRow squarePicture = some (0, [⟨0, -1, 3⟩]) ∧
    ¬MergesExactly (wholeRegion (-1) 0 paddedRow) paddedRow squarePicture
      (picMerge (-1) 0 paddedRow squarePicture) ∧
    picMergeRegion (cornerRegion 2) paddedRow squarePicture = some (0, [⟨0, 15, 2⟩]) ∧
    ¬MergesExactly (cornerRegion 2) paddedRow squarePicture
      (picMergeRegion (cornerRegion 2) paddedRow squarePicture) := by
  refine ⟨paddedRow_consistent, square_consistent, by decide, ?_, by decide, ?_⟩
  · rintro (refused | ⟨copies, _, merged⟩)
    · exact absurd refused (by decide)
    · have inBig := (merged.rectangle (by decide) (by decide)).2.1
      exact absurd inBig.left (by decide)
  · rintro (refused | ⟨copies, _, merged⟩)
    · exact absurd refused (by decide)
    · have inBig := (merged.rectangle (by decide) (by decide)).2.1
      exact absurd inBig.right (by decide)

end BuildLinux.Concrete.PictureMerging
