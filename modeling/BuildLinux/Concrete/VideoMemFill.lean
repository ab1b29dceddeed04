/-
ClearVideoMem and ClearVideoMemRegion of driver/v4l2/video2lcd/display/disp_manager.c
beside the pixel-by-pixel drawing of fb.c.

Each is translated to the stores it makes into a memory whose offsets are
addresses.  A pointer that is stepped through `unsigned int` wraps at 2^32, and
an `int` that would overflow has no result.  All of them fill a region with one
element, so that what they leave in memory is decided by the region alone.
-/

import BuildLinux.Concrete.FbDevice

namespace BuildLinux.Concrete.VideoMemFill

open ByteStores
open DisplayPipeline (IsInt)
open FbDevice (FbState fbCleanScreen fbShowPixel fbShowPixel_onScreen fillLoop memset pixelBytes
  pixelBytes_depth wholeBytes word)
open PixelConvert (littleEndian reduceRgb32)

/-- `T_PixelDatas` with the address of its pixels. -/
structure MemPicture where
  iWidth : Nat
  iHeight : Nat
  iBpp : Nat
  iLineBytes : Nat
  iTotalBytes : Int
  aucPixelDatas : Nat

structure Layout where
  iTopLeftX : Int
  iTopLeftY : Int
  iBotRightX : Int
  iBotRightY : Int
  deriving DecidableEq, Repr

def clearVideoMem (picture : MemPicture) (dwColor : BitVec 32) : Option (List Store) :=
  let iTotalBytes := picture.iTotalBytes
  match picture.iBpp with
  | 8 =>
      if iTotalBytes < 0 then none
      else some [memset picture.aucPixelDatas dwColor iTotalBytes.toNat]
  | 16 =>
      fillLoop (littleEndian 2 (reduceRgb32 dwColor)) iTotalBytes iTotalBytes.toNat 0
        picture.aucPixelDatas
  | 32 => fillLoop (littleEndian 4 dwColor) iTotalBytes iTotalBytes.toNat 0 picture.aucPixelDatas
  | _ => some []

/-- `for (iY ..) { line; pointer = next pointer; }` -/
def clearRows (line : Nat → List Store) (next : Nat → Nat) : Nat → Nat → List Store
  | 0, _ => []
  | rows + 1, pointer => line pointer ++ clearRows line next rows (next pointer)

/-- `(unsigned int)pointer + iLineBytes`. -/
def nextLine (picture : MemPicture) (pointer : Nat) : Nat := word (word pointer + picture.iLineBytes)

/-- The products, the differences and the counters of the function are values of an `int`. -/
def RegionDefined (picture : MemPicture) (layout : Layout) : Prop :=
  IsInt (layout.iTopLeftY * picture.iLineBytes) ∧ IsInt (layout.iTopLeftX * picture.iBpp) ∧
    IsInt (layout.iBotRightX - layout.iTopLeftX) ∧
    IsInt (layout.iBotRightX - layout.iTopLeftX + 1) ∧
    IsInt ((layout.iBotRightX - layout.iTopLeftX + 1) * picture.iBpp) ∧
    IsInt (layout.iBotRightY + 1)

instance (picture : MemPicture) (layout : Layout) : Decidable (RegionDefined picture layout) :=
  inferInstanceAs (Decidable (_ ∧ _))

def clearVideoMemRegion (picture : MemPicture) (layout : Layout) (dwColor : BitVec 32) :
    Option (List Store) :=
  let pucVM : Int := picture.aucPixelDatas + layout.iTopLeftY * picture.iLineBytes +
    (layout.iTopLeftX * picture.iBpp).tdiv 8
  let iLineBytesClear : Int :=
    ((layout.iBotRightX - layout.iTopLeftX + 1) * picture.iBpp).tdiv 8
  let rows := (layout.iBotRightY - layout.iTopLeftY + 1).toNat
  let columns := (layout.iBotRightX - layout.iTopLeftX + 1).toNat
  if ¬RegionDefined picture layout ∨ pucVM < 0 then none
  else
    match picture.iBpp with
    | 8 =>
        if 0 < rows ∧ iLineBytesClear < 0 then none
        else
          some (clearRows (fun pointer => [memset pointer dwColor iLineBytesClear.toNat])
            (· + picture.iLineBytes) rows pucVM.toNat)
    | 16 =>
        some (clearRows (tiles (littleEndian 2 (reduceRgb32 dwColor)) columns) (nextLine picture)
          rows pucVM.toNat)
    | 32 =>
        some (clearRows (tiles (littleEndian 4 dwColor) columns) (nextLine picture) rows
          pucVM.toNat)
    | _ => some []

/-! ### Pictures, rectangles and pixels -/

def MemPicture.finish (picture : MemPicture) : Nat :=
  picture.aucPixelDatas + picture.iLineBytes * picture.iHeight

/-- Lines of whole pixels of 8, 16 or 32 bits from an address below 2^32 on, with sizes that are
`int`s. -/
structure Held (picture : MemPicture) : Prop where
  depth : picture.iBpp = 8 ∨ picture.iBpp = 16 ∨ picture.iBpp = 32
  line : picture.iLineBytes = picture.iWidth * picture.iBpp / 8
  total : picture.iTotalBytes = (picture.iLineBytes * picture.iHeight : Nat)
  address : picture.aucPixelDatas < 2 ^ 32
  iWidth : picture.iWidth < 2 ^ 31
  iHeight : picture.iHeight < 2 ^ 31
  iLineBytes : picture.iLineBytes < 2 ^ 31
  iTotalBytes : picture.iTotalBytes < 2 ^ 31

/-- The bits of a line are an `int` too, and where the rows are stepped through `unsigned int` the
picture ends below 2^32. -/
structure Bounded (picture : MemPicture) : Prop where
  lineBits : picture.iWidth * picture.iBpp < 2 ^ 31
  low : picture.iBpp = 8 ∨ picture.finish ≤ 2 ^ 32

/-- The picture is what the functions of fb.c draw to. -/
structure Drawn (state : FbState) (picture : MemPicture) : Prop where
  xres : state.g_tFBVar.xres = picture.iWidth
  yres : state.g_tFBVar.yres = picture.iHeight
  bits_per_pixel : state.g_tFBVar.bits_per_pixel = picture.iBpp
  memory : state.g_pucFBMem = picture.aucPixelDatas
  lineWidth : state.g_dwLineWidth = picture.iLineBytes
  pixelWidth : state.g_dwPixelWidth = picture.iBpp / 8
  screenSize : (state.g_dwScreenSize : Int) = picture.iTotalBytes

def Layout.Has (layout : Layout) (iX iY : Int) : Prop :=
  layout.iTopLeftX ≤ iX ∧ iX ≤ layout.iBotRightX ∧ layout.iTopLeftY ≤ iY ∧ iY ≤ layout.iBotRightY

structure Layout.Inside (layout : Layout) (picture : MemPicture) : Prop where
  left : 0 ≤ layout.iTopLeftX
  top : 0 ≤ layout.iTopLeftY
  columns : layout.iTopLeftX ≤ layout.iBotRightX
  rows : layout.iTopLeftY ≤ layout.iBotRightY
  right : layout.iBotRightX < picture.iWidth
  bottom : layout.iBotRightY < picture.iHeight

def fullLayout (picture : MemPicture) : Layout where
  iTopLeftX := 0
  iTopLeftY := 0
  iBotRightX := (picture.iWidth : Int) - 1
  iBotRightY := (picture.iHeight : Int) - 1

def MemPicture.pixelAddress (picture : MemPicture) (x y : Nat) : Nat :=
  picture.aucPixelDatas + y * picture.iLineBytes + x * (picture.iBpp / 8)

def InRectangle (picture : MemPicture) (layout : Layout) (position : Nat) : Prop :=
  ∃ x y : Nat, layout.Has x y ∧ picture.pixelAddress x y ≤ position ∧
    position < picture.pixelAddress x y + picture.iBpp / 8

def clearedRegion (picture : MemPicture) (layout : Layout) (dwColor : BitVec 32) (memory : Block) :
    Option Block :=
  (clearVideoMemRegion picture layout dwColor).bind (applyStores memory)

def showPixels (state : FbState) (dwColor : BitVec 32) (pixels : List (Int × Int)) : List Store :=
  pixels.flatMap fun pixel => (fbShowPixel state pixel.1 pixel.2 dwColor).2

/-! ### Where the pixels are -/

section Picture

variable {picture : MemPicture} (held : Held picture)

include held

theorem Held.whole : 8 ∣ picture.iBpp ∧ 0 < picture.iBpp / 8 := wholeBytes held.depth

theorem Held.lineBytes : picture.iLineBytes = picture.iWidth * (picture.iBpp / 8) := by
  rw [held.line]
  exact DisplayPipeline.lineBytes_whole held.whole.1 _

theorem Held.pixels_inside {x y columns : Nat} (inLine : x + columns ≤ picture.iWidth)
    (inHeight : y < picture.iHeight) :
    picture.pixelAddress x y + columns * (picture.iBpp / 8) ≤ picture.finish := by
  have line := Nat.mul_le_mul_right (picture.iBpp / 8) inLine
  have lines := Nat.mul_le_mul_right picture.iLineBytes (Nat.succ_le_of_lt inHeight)
  rw [Nat.add_mul, ← held.lineBytes] at line
  rw [Nat.succ_mul, Nat.mul_comm picture.iHeight] at lines
  unfold MemPicture.pixelAddress MemPicture.finish
  omega

theorem Held.aligned (x y : Nat) : picture.aucPixelDatas ≤ picture.pixelAddress x y ∧
    picture.iBpp / 8 ∣ picture.pixelAddress x y - picture.aucPixelDatas := by
  unfold MemPicture.pixelAddress
  refine ⟨by omega, ?_⟩
  rw [Nat.add_assoc, Nat.add_sub_cancel_left, held.lineBytes, ← Nat.mul_assoc, ← Nat.add_mul]
  exact Nat.dvd_mul_left _ _

theorem Held.size : picture.iLineBytes * picture.iHeight < 2 ^ 31 := by
  have total := held.iTotalBytes
  rw [held.total] at total
  exact_mod_cast total

theorem Held.bytes (count : Nat) :
    ((count : Int) * picture.iBpp).tdiv 8 = ((count * (picture.iBpp / 8) : Nat) : Int) := by
  have bits : (count : Int) * picture.iBpp = ((count * (picture.iBpp / 8) : Nat) : Int) * 8 :=
    calc
      (count : Int) * picture.iBpp = count * ((picture.iBpp / 8 * 8 : Nat) : Int) := by
        rw [Nat.div_mul_cancel held.whole.1]
      _ = ((count * (picture.iBpp / 8) : Nat) : Int) * 8 := by
        rw [Int.natCast_mul, Int.natCast_mul, Int.mul_assoc]
        rfl
  rw [bits]
  exact Int.mul_tdiv_cancel _ (by decide)

end Picture

theorem MemPicture.pixelAddress_row (picture : MemPicture) (x y row : Nat) :
    picture.pixelAddress x (y + row) = picture.pixelAddress x y + row * picture.iLineBytes := by
  unfold MemPicture.pixelAddress
  rw [Nat.add_mul]
  omega

theorem MemPicture.pixelAddress_column (picture : MemPicture) (x y column : Nat) :
    picture.pixelAddress (x + column) y =
      picture.pixelAddress x y + column * (picture.iBpp / 8) := by
  unfold MemPicture.pixelAddress
  rw [Nat.add_mul]
  omega

/-- A rectangle by its first pixel and its size; it may be without rows or columns. -/
def rectangle (left top columns rows : Nat) : Layout where
  iTopLeftX := left
  iTopLeftY := top
  iBotRightX := (left : Int) + columns - 1
  iBotRightY := (top : Int) + rows - 1

theorem Held.regionDefined {picture : MemPicture} (held : Held picture) (bounded : Bounded picture)
    {left top columns rows : Nat} (right : left + columns ≤ picture.iWidth)
    (bottom : top + rows ≤ picture.iHeight) :
    RegionDefined picture (rectangle left top columns rows) := by
  have width := held.iWidth
  have height := held.iHeight
  have size := held.size
  have lineBits := bounded.lineBits
  have row := Nat.mul_le_mul_right picture.iLineBytes (show top ≤ picture.iHeight by omega)
  have column := Nat.mul_le_mul_right picture.iBpp (show left ≤ picture.iWidth by omega)
  have run := Nat.mul_le_mul_right picture.iBpp (show columns ≤ picture.iWidth by omega)
  rw [Nat.mul_comm picture.iHeight] at row
  have wide : (left : Int) + columns - 1 - left = (columns : Int) - 1 := by omega
  have count : (columns : Int) - 1 + 1 = columns := by omega
  unfold RegionDefined rectangle
  dsimp only
  rw [wide, count, ← Int.natCast_mul, ← Int.natCast_mul, ← Int.natCast_mul]
  unfold IsInt
  omega

theorem Layout.Inside.rectangle {layout : Layout} {picture : MemPicture}
    (inside : layout.Inside picture) :
    ∃ left top columns rows, layout = rectangle left top columns rows ∧ 0 < columns ∧
      left + columns ≤ picture.iWidth ∧ top + rows ≤ picture.iHeight := by
  obtain ⟨iTopLeftX, iTopLeftY, iBotRightX, iBotRightY⟩ := layout
  obtain ⟨left, top, columns, rows, right, bottom⟩ := inside
  dsimp only at left top columns rows right bottom
  refine ⟨iTopLeftX.toNat, iTopLeftY.toNat, (iBotRightX - iTopLeftX + 1).toNat,
    (iBotRightY - iTopLeftY + 1).toNat, ?_, by omega, by omega, by omega⟩
  unfold VideoMemFill.rectangle
  congr 1 <;> omega

theorem fullLayout_rectangle (picture : MemPicture) :
    fullLayout picture = rectangle 0 0 picture.iWidth picture.iHeight := by
  unfold fullLayout rectangle
  congr 1 <;> omega

theorem run_element {start count size position : Nat} (deep : 0 < size) (fromStart : start ≤ position)
    (toEnd : position < start + count * size) :
    ∃ index, index < count ∧ start + index * size ≤ position ∧
      position < start + index * size + size := by
  obtain ⟨offset, rfl⟩ := Nat.exists_eq_add_of_le fromStart
  have place : offset < count * size := by omega
  have split := Nat.div_add_mod' offset size
  have rest := Nat.mod_lt offset deep
  refine ⟨offset / size, Nat.div_lt_of_lt_mul (Nat.mul_comm count size ▸ place), ?_, ?_⟩
  · omega
  · omega

theorem inRectangle_rows {picture : MemPicture} (deep : 0 < picture.iBpp / 8)
    (left top columns rows position : Nat) :
    InRectangle picture (rectangle left top columns rows) position ↔
      ∃ row ∈ List.range rows, picture.pixelAddress left top + row * picture.iLineBytes ≤ position ∧
        position < picture.pixelAddress left top + row * picture.iLineBytes +
          columns * (picture.iBpp / 8) := by
  constructor
  · rintro ⟨x, y, ⟨fromLeft, toRight, fromTop, toBottom⟩, start, finish⟩
    change (left : Int) ≤ x at fromLeft
    change (x : Int) ≤ left + columns - 1 at toRight
    change (top : Int) ≤ y at fromTop
    change (y : Int) ≤ top + rows - 1 at toBottom
    obtain ⟨column, rfl⟩ := Nat.exists_eq_add_of_le (show left ≤ x by omega)
    obtain ⟨row, rfl⟩ := Nat.exists_eq_add_of_le (show top ≤ y by omega)
    rw [picture.pixelAddress_column, picture.pixelAddress_row] at start finish
    have within := Nat.mul_le_mul_right (picture.iBpp / 8) (show column + 1 ≤ columns by omega)
    rw [Nat.succ_mul] at within
    exact ⟨row, List.mem_range.mpr (by omega), by omega, by omega⟩
  · rintro ⟨row, inRows, start, finish⟩
    have below := List.mem_range.mp inRows
    obtain ⟨column, inColumns, first, last⟩ := run_element deep start finish
    refine ⟨left + column, top + row, ⟨?_, ?_, ?_, ?_⟩, ?_, ?_⟩
    · change (left : Int) ≤ (left + column : Nat)
      omega
    · change ((left + column : Nat) : Int) ≤ (left : Int) + columns - 1
      omega
    · change (top : Int) ≤ (top + row : Nat)
      omega
    · change ((top + row : Nat) : Int) ≤ (top : Int) + rows - 1
      omega
    · rw [picture.pixelAddress_column, picture.pixelAddress_row]
      exact first
    · rw [picture.pixelAddress_column, picture.pixelAddress_row]
      exact last

/-! ### The loops -/

theorem clearRows_flatMap {line : Nat → List Store} {next : Nat → Nat} {stride rows pointer : Nat}
    (advances : ∀ row, row + 1 < rows →
      next (pointer + row * stride) = pointer + (row + 1) * stride) :
    clearRows line next rows pointer =
      (List.range rows).flatMap fun row => line (pointer + row * stride) := by
  induction rows generalizing pointer with
  | zero => rfl
  | succ rows ih =>
      have shift (row : Nat) : pointer + stride + row * stride = pointer + (row + 1) * stride := by
        rw [Nat.succ_mul]
        omega
      rw [clearRows, List.range_succ_eq_map, List.flatMap_cons, List.flatMap_map, Nat.zero_mul,
        Nat.add_zero]
      congr 1
      cases rows with
      | zero => rfl
      | succ rows =>
          have first := advances 0 (by omega)
          rw [Nat.zero_mul, Nat.add_zero, Nat.zero_add, Nat.one_mul] at first
          rw [first, ih fun row below => ?_]
          · simp only [shift]
          · rw [shift, shift]
            exact advances (row + 1) (by omega)

theorem fillLoop_tiles {element : List Byte} (nonempty : 0 < element.length)
    {size fuel count i : Nat} (pointer : Nat) (whole : size = i + count * element.length)
    (enough : count ≤ fuel) (isInt : size < 2 ^ 31) :
    fillLoop element size fuel i pointer = some (tiles element count pointer) := by
  induction fuel generalizing count i pointer with
  | zero =>
      rw [Nat.le_zero.mp enough]
      rfl
  | succ fuel ih =>
      cases count with
      | zero =>
          rw [fillLoop, if_neg (by omega)]
          rfl
      | succ count =>
          rw [Nat.succ_mul] at whole
          have later := @ih count (i + element.length) (pointer + element.length) (by omega)
            (by omega)
          have counted : IsInt ((i : Int) + element.length) := by
            unfold IsInt
            omega
          rw [fillLoop, if_pos (by omega), if_pos counted, tiles_succ]
          rw [Nat.cast_add] at later
          rw [later]
          rfl

/-- The next row begins in front of the end of its line, so that no address wraps. -/
theorem nextLine_row {picture : MemPicture} (held : Held picture) (low : picture.finish ≤ 2 ^ 32)
    {left top row : Nat} (right : left ≤ picture.iWidth)
    (start : left < picture.iWidth ∨ picture.iWidth = 0)
    (inHeight : top + (row + 1) < picture.iHeight) :
    nextLine picture (picture.pixelAddress left top + row * picture.iLineBytes) =
      picture.pixelAddress left top + (row + 1) * picture.iLineBytes := by
  have below : picture.pixelAddress left top + (row + 1) * picture.iLineBytes < 2 ^ 32 := by
    rw [← picture.pixelAddress_row]
    have address := held.address
    rcases start with inLine | empty
    · have inside := held.pixels_inside (show left + 1 ≤ picture.iWidth from inLine) inHeight
      have deep := held.whole.2
      rw [Nat.one_mul] at inside
      omega
    · have line := held.lineBytes
      rw [empty, Nat.zero_mul] at line
      unfold MemPicture.pixelAddress
      rw [line, show left = 0 by omega, Nat.zero_mul, Nat.mul_zero]
      exact address
  have same : (row + 1) * picture.iLineBytes = row * picture.iLineBytes + picture.iLineBytes :=
    Nat.succ_mul _ _
  unfold nextLine word
  rw [Nat.mod_eq_of_lt (by omega), Nat.mod_eq_of_lt (by omega), same, Nat.add_assoc]

/-! ### What each of them fills -/

section Fill

variable {picture : MemPicture} (held : Held picture) {dwColor : BitVec 32} {element : List Byte}
  (isElement : pixelBytes picture.iBpp dwColor = some element)
  (size : element.length = picture.iBpp / 8)

include held isElement size

theorem row_fills {line : Nat → List Store} {columns : Nat}
    (isLine : picture.iBpp = 8 ∧ line = (fun pointer => [memset pointer dwColor columns]) ∨
      line = tiles element columns) (x y : Nat) :
    Fills (tiled element picture.aucPixelDatas) (line (picture.pixelAddress x y))
        (fun position => picture.pixelAddress x y ≤ position ∧
          position < picture.pixelAddress x y + columns * (picture.iBpp / 8)) ∧
      ∀ store ∈ line (picture.pixelAddress x y),
        store.finish ≤ picture.pixelAddress x y + columns * (picture.iBpp / 8) := by
  obtain ⟨behind, aligned⟩ := held.aligned x y
  rcases isLine with ⟨depth, rfl⟩ | rfl
  · rw [depth] at isElement ⊢
    obtain rfl := Option.some.inj isElement
    refine ⟨replicate_fills (dwColor.setWidth 8) picture.aucPixelDatas _ _, fun store member => ?_⟩
    rw [List.mem_singleton.mp member, Store.finish, memset, List.length_replicate, Nat.mul_one]
  · rw [← size] at aligned ⊢
    exact ⟨tiles_fills columns behind aligned,
      fun store member => ((tiles_ascending element columns _).within store member).2⟩

theorem rows_fill {line : Nat → List Store} {left top columns rows : Nat}
    (isLine : picture.iBpp = 8 ∧ line = (fun pointer => [memset pointer dwColor columns]) ∨
      line = tiles element columns) (right : left + columns ≤ picture.iWidth)
    (bottom : top + rows ≤ picture.iHeight) :
    let stores := (List.range rows).flatMap fun row =>
      line (picture.pixelAddress left top + row * picture.iLineBytes)
    Fills (tiled element picture.aucPixelDatas) stores
        (InRectangle picture (rectangle left top columns rows)) ∧
      ∀ store ∈ stores, store.finish ≤ picture.finish := by
  dsimp only
  constructor
  · refine (fills_flatMap (List.range rows) fun row _ => ?_).congr fun position =>
      (inRectangle_rows held.whole.2 left top columns rows position).symm
    rw [← picture.pixelAddress_row]
    exact (row_fills held isElement size isLine left (top + row)).1
  · intro store member
    obtain ⟨row, inRows, inRow⟩ := List.mem_flatMap.mp member
    have below := List.mem_range.mp inRows
    rw [← picture.pixelAddress_row] at inRow
    have inLine := (row_fills held isElement size isLine left (top + row)).2 store inRow
    exact inLine.trans (held.pixels_inside right (by omega))

/-- The region function fills the rectangle, and stays inside the picture. -/
theorem clearVideoMemRegion_fills (bounded : Bounded picture) {left top columns rows : Nat}
    (right : left + columns ≤ picture.iWidth) (bottom : top + rows ≤ picture.iHeight)
    (start : left < picture.iWidth ∨ picture.iWidth = 0) :
    ∃ stores, clearVideoMemRegion picture (rectangle left top columns rows) dwColor = some stores ∧
      Fills (tiled element picture.aucPixelDatas) stores
        (InRectangle picture (rectangle left top columns rows)) ∧
      ∀ store ∈ stores, store.finish ≤ picture.finish := by
  have pucVM : (picture.aucPixelDatas : Int) + (top : Int) * picture.iLineBytes +
      ((left : Int) * picture.iBpp).tdiv 8 = (picture.pixelAddress left top : Int) := by
    rw [held.bytes]
    unfold MemPicture.pixelAddress
    push_cast
    rfl
  have width : (left : Int) + columns - 1 - left + 1 = columns := by omega
  have height : (top : Int) + rows - 1 - top + 1 = rows := by omega
  have advances (low : picture.finish ≤ 2 ^ 32) (row : Nat) (below : row + 1 < rows) :
      nextLine picture (picture.pixelAddress left top + row * picture.iLineBytes) =
        picture.pixelAddress left top + (row + 1) * picture.iLineBytes :=
    nextLine_row held low (by omega) start (by omega)
  have defined : ¬(¬RegionDefined picture (rectangle left top columns rows) ∨
      (picture.pixelAddress left top : Int) < 0) := by
    rintro (undefinedInts | negative)
    · exact undefinedInts (held.regionDefined bounded right bottom)
    · exact Int.not_lt.mpr (Int.natCast_nonneg _) negative
  unfold rectangle at defined
  unfold clearVideoMemRegion rectangle
  dsimp only
  rw [pucVM, width, height, held.bytes, if_neg defined, Int.toNat_natCast, Int.toNat_natCast,
    Int.toNat_natCast, Int.toNat_natCast]
  have stepped {other : List Byte} (isOther : pixelBytes picture.iBpp dwColor = some other)
      (low : picture.finish ≤ 2 ^ 32) :
      ∃ stores, some (clearRows (tiles other columns) (nextLine picture) rows
          (picture.pixelAddress left top)) = some stores ∧
        Fills (tiled element picture.aucPixelDatas) stores
          (InRectangle picture (rectangle left top columns rows)) ∧
        ∀ store ∈ stores, store.finish ≤ picture.finish := by
    rw [clearRows_flatMap (advances low), Option.some.inj (isOther.symm.trans isElement)]
    exact ⟨_, rfl, rows_fill held isElement size (Or.inr rfl) right bottom⟩
  rcases held.depth with depth | depth | depth
  · obtain ⟨fills, within⟩ := rows_fill held isElement size (Or.inl ⟨depth, rfl⟩) right bottom
    refine ⟨_, ?_, fills, within⟩
    have oneByte : columns * (8 / 8) = columns := Nat.mul_one columns
    have nonneg : ¬(0 < rows ∧ (columns : Int) < 0) := fun both => by omega
    rw [depth, oneByte, if_neg nonneg]
    refine congrArg some (clearRows_flatMap fun row _ => ?_)
    rw [Nat.succ_mul, Nat.add_assoc]
  · have low := bounded.low.resolve_left (by rw [depth]; decide)
    rw [depth] at stepped ⊢
    exact stepped rfl low
  · have low := bounded.low.resolve_left (by rw [depth]; decide)
    rw [depth] at stepped ⊢
    exact stepped rfl low

omit size in
theorem fbShowPixel_store {state : FbState} (drawn : Drawn state picture) {x y : Nat}
    (inLine : x < picture.iWidth) (inHeight : y < picture.iHeight) :
    fbShowPixel state x y dwColor =
      (0, [{ offset := picture.pixelAddress x y, bytes := element }]) := by
  have inside := held.pixels_inside (show x + 1 ≤ picture.iWidth from inLine) inHeight
  have size := held.size
  have width := held.iWidth
  have height := held.iHeight
  unfold MemPicture.pixelAddress MemPicture.finish at inside
  unfold MemPicture.pixelAddress
  have isBytes : pixelBytes state.g_tFBVar.bits_per_pixel dwColor = some element := by
    rw [drawn.bits_per_pixel]
    exact isElement
  have inRow : y * state.g_dwLineWidth < 2 ^ 32 := by
    rw [drawn.lineWidth]
    omega
  have inColumn : x * state.g_dwPixelWidth < 2 ^ 32 := by
    rw [drawn.pixelWidth]
    omega
  rw [fbShowPixel_onScreen (drawn.xres ▸ inLine) (drawn.yres ▸ inHeight) (by omega) (by omega)
    inRow inColumn isBytes, drawn.memory, drawn.lineWidth, drawn.pixelWidth]

theorem showPixels_fills {state : FbState} (drawn : Drawn state picture)
    {pixels : List (Int × Int)} (inPicture : ∀ pixel ∈ pixels, 0 ≤ pixel.1 ∧
      pixel.1 < picture.iWidth ∧ 0 ≤ pixel.2 ∧ pixel.2 < picture.iHeight) :
    Fills (tiled element picture.aucPixelDatas) (showPixels state dwColor pixels)
        (fun position => ∃ pixel ∈ pixels,
          picture.pixelAddress pixel.1.toNat pixel.2.toNat ≤ position ∧
            position < picture.pixelAddress pixel.1.toNat pixel.2.toNat + picture.iBpp / 8) ∧
      (∀ store ∈ showPixels state dwColor pixels,
        store.finish ≤ picture.finish) ∧
      ∀ pixel ∈ pixels, (fbShowPixel state pixel.1 pixel.2 dwColor).1 = 0 := by
  have stored : ∀ pixel ∈ pixels, fbShowPixel state pixel.1 pixel.2 dwColor =
      (0, [{ offset := picture.pixelAddress pixel.1.toNat pixel.2.toNat, bytes := element }]) := by
    intro pixel member
    obtain ⟨left, right, top, bottom⟩ := inPicture pixel member
    have same := fbShowPixel_store held isElement drawn
      (show pixel.1.toNat < picture.iWidth by omega) (show pixel.2.toNat < picture.iHeight by omega)
    rw [Int.toNat_of_nonneg left, Int.toNat_of_nonneg top] at same
    exact same
  refine ⟨fills_flatMap pixels fun pixel member => ?_, fun store member => ?_,
    fun pixel member => congrArg Prod.fst (stored pixel member)⟩
  · obtain ⟨behind, aligned⟩ := held.aligned pixel.1.toNat pixel.2.toNat
    rw [stored pixel member, ← size] at *
    exact fills_store fun index inElement => tiled_aligned behind aligned inElement
  · obtain ⟨pixel, inPixels, inPixel⟩ := List.mem_flatMap.mp member
    obtain ⟨left, right, top, bottom⟩ := inPicture pixel inPixels
    have inside := held.pixels_inside (show pixel.1.toNat + 1 ≤ picture.iWidth by omega)
      (show pixel.2.toNat < picture.iHeight by omega)
    rw [stored pixel inPixels] at inPixel
    rw [List.mem_singleton.mp inPixel, Store.finish, size]
    rw [Nat.one_mul] at inside
    exact inside

theorem clearVideoMem_fills :
    ∃ stores, clearVideoMem picture dwColor = some stores ∧
      Fills (tiled element picture.aucPixelDatas) stores
        (fun position => picture.aucPixelDatas ≤ position ∧ position < picture.finish) ∧
      ∀ store ∈ stores, store.finish ≤ picture.finish := by
  have small := held.size
  have pixels : picture.iLineBytes * picture.iHeight =
      picture.iWidth * picture.iHeight * element.length := by
    rw [held.lineBytes, size, Nat.mul_right_comm]
  have deep : 0 < element.length := size ▸ held.whole.2
  have enough : picture.iWidth * picture.iHeight ≤ picture.iLineBytes * picture.iHeight := by
    rw [pixels]
    exact Nat.le_mul_of_pos_right _ deep
  have isTiles {other : List Byte} (isOther : pixelBytes picture.iBpp dwColor = some other) :
      fillLoop other (picture.iLineBytes * picture.iHeight : Nat)
          (picture.iLineBytes * picture.iHeight) 0 picture.aucPixelDatas =
        some (tiles element (picture.iWidth * picture.iHeight) picture.aucPixelDatas) := by
    rw [Option.some.inj (isOther.symm.trans isElement)]
    exact fillLoop_tiles deep _ (by rw [Nat.zero_add]; exact pixels) enough small
  have isAligned : element.length ∣ picture.aucPixelDatas - picture.aucPixelDatas := by
    rw [Nat.sub_self]
    exact Nat.dvd_zero _
  have tilesFill := tiles_fills (picture.iWidth * picture.iHeight) (Nat.le_refl _) isAligned
  have tilesWithin := tiles_ascending element (picture.iWidth * picture.iHeight)
    picture.aucPixelDatas
  rw [← pixels] at tilesFill tilesWithin
  have nonneg : ¬((picture.iLineBytes * picture.iHeight : Nat) : Int) < 0 :=
    Int.not_lt.mpr (Int.natCast_nonneg _)
  unfold clearVideoMem
  dsimp only
  rw [held.total, Int.toNat_natCast]
  rcases held.depth with depth | depth | depth
  · rw [depth] at isElement ⊢
    obtain rfl := Option.some.inj isElement
    refine ⟨_, if_neg nonneg,
      (replicate_fills (dwColor.setWidth 8) _ _ _).congr fun position => ?_,
      fun store member => ?_⟩
    · rw [List.length_singleton, Nat.mul_one]
      rfl
    · rw [List.mem_singleton.mp member, Store.finish, memset, List.length_replicate]
      rfl
  · rw [depth] at isTiles ⊢
    exact ⟨_, isTiles rfl, tilesFill, fun store member => (tilesWithin.within store member).2⟩
  · rw [depth] at isTiles ⊢
    exact ⟨_, isTiles rfl, tilesFill, fun store member => (tilesWithin.within store member).2⟩

end Fill

theorem inRectangle_full {picture : MemPicture} (held : Held picture) (position : Nat) :
    InRectangle picture (fullLayout picture) position ↔
      picture.aucPixelDatas ≤ position ∧ position < picture.finish := by
  have first : picture.pixelAddress 0 0 = picture.aucPixelDatas := by
    simp [MemPicture.pixelAddress]
  rw [fullLayout_rectangle, inRectangle_rows held.whole.2, first, ← held.lineBytes,
    MemPicture.finish, Nat.mul_comm picture.iLineBytes]
  constructor
  · rintro ⟨row, inRows, start, finish⟩
    have lines := Nat.mul_le_mul_right picture.iLineBytes
      (Nat.succ_le_of_lt (List.mem_range.mp inRows))
    rw [Nat.succ_mul] at lines
    omega
  · rintro ⟨start, finish⟩
    rcases Nat.eq_zero_or_pos picture.iLineBytes with empty | deep
    · rw [empty] at finish
      omega
    · obtain ⟨row, inRows, inRow⟩ := run_element deep start finish
      exact ⟨row, List.mem_range.mpr inRows, inRow⟩

theorem fbCleanScreen_clearVideoMem {picture : MemPicture} (held : Held picture) {state : FbState}
    (drawn : Drawn state picture) (dwColor : BitVec 32) :
    fbCleanScreen state dwColor =
      (clearVideoMem picture dwColor).map fun stores => (0, stores) := by
  have size : picture.iTotalBytes.toNat = state.g_dwScreenSize := by
    rw [← drawn.screenSize, Int.toNat_natCast]
  have nonneg : ¬(state.g_dwScreenSize : Int) < 0 := Int.not_lt.mpr (Int.natCast_nonneg _)
  unfold fbCleanScreen clearVideoMem
  dsimp only
  rw [drawn.bits_per_pixel, size, ← drawn.screenSize, drawn.memory]
  rcases held.depth with depth | depth | depth
  · rw [depth]
    change some _ = Option.map _ (if (state.g_dwScreenSize : Int) < 0 then none else some _)
    rw [if_neg nonneg]
    rfl
  · rw [depth]
    rfl
  · rw [depth]
    rfl

theorem inRectangle_pixels {picture : MemPicture} {layout : Layout} {pixels : List (Int × Int)}
    (exactly : ∀ iX iY, (iX, iY) ∈ pixels ↔ layout.Has iX iY) (left : 0 ≤ layout.iTopLeftX)
    (top : 0 ≤ layout.iTopLeftY) (position : Nat) :
    (∃ pixel ∈ pixels, picture.pixelAddress pixel.1.toNat pixel.2.toNat ≤ position ∧
        position < picture.pixelAddress pixel.1.toNat pixel.2.toNat + picture.iBpp / 8) ↔
      InRectangle picture layout position := by
  constructor
  · rintro ⟨⟨iX, iY⟩, member, inPixel⟩
    have has := (exactly iX iY).mp member
    lift iX to ℕ using left.trans has.1
    lift iY to ℕ using top.trans has.2.2.1
    exact ⟨iX, iY, has, inPixel⟩
  · rintro ⟨x, y, has, inPixel⟩
    exact ⟨(x, y), (exactly x y).mpr has, inPixel⟩

section Memory

variable {picture : MemPicture} (held : Held picture) {state : FbState}
  (drawn : Drawn state picture) {memory : Block}
  (inMemory : picture.finish ≤ memory.length) (dwColor : BitVec 32) (bounded : Bounded picture)

include held drawn inMemory bounded

theorem clearedRegion_drawn {layout : Layout} (inside : layout.Inside picture) :
    ∃ after, clearedRegion picture layout dwColor memory = some after ∧
      (∀ pixels : List (Int × Int), (∀ iX iY, (iX, iY) ∈ pixels ↔ layout.Has iX iY) →
        (∀ pixel ∈ pixels, (fbShowPixel state pixel.1 pixel.2 dwColor).1 = 0) ∧
          applyStores memory (showPixels state dwColor pixels) = some after) ∧
      ∀ position, ¬InRectangle picture layout position → after[position]? = memory[position]? := by
  obtain ⟨element, isElement, size⟩ := pixelBytes_depth held.depth dwColor
  obtain ⟨left, top, columns, rows, isRectangle, wide, right, bottom⟩ := inside.rectangle
  obtain ⟨stores, isRegion, fills, within⟩ :=
    clearVideoMemRegion_fills held isElement size bounded right bottom (Or.inl (by omega))
  rw [← isRectangle] at isRegion fills
  obtain ⟨after, applied⟩ := applyStores_within fun store member =>
    (within store member).trans inMemory
  refine ⟨after, ?_, fun pixels exactly => ?_, fun position => fills.untouched applied⟩
  · unfold clearedRegion
    rw [isRegion]
    exact applied
  · obtain ⟨pixelFills, pixelWithin, succeed⟩ :=
      showPixels_fills held isElement size drawn fun pixel member => by
        obtain ⟨fromLeft, toRight, fromTop, toBottom⟩ := (exactly pixel.1 pixel.2).mp member
        exact ⟨inside.left.trans fromLeft, toRight.trans_lt inside.right,
          inside.top.trans fromTop, toBottom.trans_lt inside.bottom⟩
    have sameRegion := pixelFills.congr (inRectangle_pixels exactly inside.left inside.top)
    obtain ⟨other, drawnAfter⟩ := applyStores_within fun store member =>
      (pixelWithin store member).trans inMemory
    rw [fills.same sameRegion applied drawnAfter]
    exact ⟨succeed, drawnAfter⟩

theorem clearedRegion_full :
    ∃ after, clearedRegion picture (fullLayout picture) dwColor memory = some after ∧
      (∃ stores, clearVideoMem picture dwColor = some stores ∧
        applyStores memory stores = some after) ∧
      ∃ stores, fbCleanScreen state dwColor = some (0, stores) ∧
        applyStores memory stores = some after := by
  obtain ⟨element, isElement, size⟩ := pixelBytes_depth held.depth dwColor
  obtain ⟨stores, isRegion, fills, within⟩ := clearVideoMemRegion_fills held isElement size bounded
    (show 0 + picture.iWidth ≤ picture.iWidth from (Nat.zero_add _).le)
    (show 0 + picture.iHeight ≤ picture.iHeight from (Nat.zero_add _).le)
    (Nat.eq_zero_or_pos _).symm
  rw [← fullLayout_rectangle] at isRegion fills
  obtain ⟨after, applied⟩ := applyStores_within fun store member =>
    (within store member).trans inMemory
  obtain ⟨whole, isWhole, wholeFills, wholeWithin⟩ := clearVideoMem_fills held isElement size
  have sameRegion := wholeFills.congr fun position => (inRectangle_full held position).symm
  obtain ⟨other, cleared⟩ := applyStores_within fun store member =>
    (wholeWithin store member).trans inMemory
  have same := fills.same sameRegion applied cleared
  refine ⟨after, ?_, ⟨whole, isWhole, same ▸ cleared⟩, whole, ?_, same ▸ cleared⟩
  · unfold clearedRegion
    rw [isRegion]
    exact applied
  · rw [fbCleanScreen_clearVideoMem held drawn, isWhole]
    rfl

end Memory

/-- What the fast fills leave in memory is what drawing pixel by pixel leaves. -/
structure FillsAsDrawn (state : FbState) (picture : MemPicture) (memory : Block)
    (dwColor : BitVec 32) : Prop where
  region : ∀ layout : Layout, layout.Inside picture →
    ∃ after, clearedRegion picture layout dwColor memory = some after ∧
      (∀ pixels : List (Int × Int), (∀ iX iY, (iX, iY) ∈ pixels ↔ layout.Has iX iY) →
        (∀ pixel ∈ pixels, (fbShowPixel state pixel.1 pixel.2 dwColor).1 = 0) ∧
          applyStores memory (showPixels state dwColor pixels) = some after) ∧
      ∀ position, ¬InRectangle picture layout position → after[position]? = memory[position]?
  whole : ∃ after, clearedRegion picture (fullLayout picture) dwColor memory = some after ∧
    (∃ stores, clearVideoMem picture dwColor = some stores ∧
      applyStores memory stores = some after) ∧
    ∃ stores, fbCleanScreen state dwColor = some (0, stores) ∧
      applyStores memory stores = some after

/-- Fast fills are pixel-by-pixel drawing, for every region and for everything, where no `int`
overflows and no row is behind 2^32. -/
theorem clearing_is_drawing {picture : MemPicture} (held : Held picture)
    (bounded : Bounded picture) {state : FbState} (drawn : Drawn state picture) {memory : Block}
    (inMemory : picture.finish ≤ memory.length) (dwColor : BitVec 32) :
    FillsAsDrawn state picture memory dwColor where
  region _ inside := clearedRegion_drawn held drawn inMemory dwColor bounded inside
  whole := clearedRegion_full held drawn inMemory dwColor bounded

def smallPicture : MemPicture where
  iWidth := 2
  iHeight := 2
  iBpp := 16
  iLineBytes := 4
  iTotalBytes := 8
  aucPixelDatas := 4

def smallState : FbState where
  g_tFBVar := { xres := 2, yres := 2, bits_per_pixel := 16 }
  g_tFBFix := { line_length := 4 }
  g_pucFBMem := 4
  g_dwScreenSize := 8
  g_dwLineWidth := 4
  g_dwPixelWidth := 2
  g_tFBOpr := { iXres := 2, iYres := 2, iBpp := 16, iLineWidth := 4, pucDispMem := 4 }

/-- The right column in red, which is 0xf800. -/
theorem right_column_red :
    clearedRegion smallPicture { iTopLeftX := 1, iTopLeftY := 0, iBotRightX := 1, iBotRightY := 1 }
        0xff0000#32 (List.replicate 12 0) =
      some [0, 0, 0, 0, 0, 0, 0x00, 0xf8, 0, 0, 0x00, 0xf8] ∧
    FillsAsDrawn smallState smallPicture (List.replicate 12 0) 0xff0000#32 := by
  have held : Held smallPicture := by constructor <;> decide
  have bounded : Bounded smallPicture := by constructor <;> decide
  have drawn : Drawn smallState smallPicture := by constructor <;> rfl
  exact ⟨by decide, clearing_is_drawing held bounded drawn (by decide) 0xff0000#32⟩

/-- The small picture with its second row from address 2^32 on. -/
def highPicture : MemPicture := { smallPicture with aucPixelDatas := 2 ^ 32 - 4 }

def highState : FbState := { smallState with g_pucFBMem := 2 ^ 32 - 4 }

theorem highPicture_stores :
    clearVideoMemRegion highPicture (fullLayout highPicture) 0xff0000#32 =
      some (tiles [0x00, 0xf8] 2 (2 ^ 32 - 4) ++ tiles [0x00, 0xf8] 2 0) := rfl

/-- One row of 2^28 pixels of 8 bits: every field is an `int`, and the bits of a row are not. -/
def longPicture : MemPicture where
  iWidth := 2 ^ 28
  iHeight := 1
  iBpp := 8
  iLineBytes := 2 ^ 28
  iTotalBytes := 2 ^ 28
  aucPixelDatas := 0

/-- Without the bounds a row is stored elsewhere, or the region function has no result. -/
theorem high_row_elsewhere :
    (¬∀ (picture : MemPicture) (state : FbState) (memory : Block) (dwColor : BitVec 32),
      Held picture → Drawn state picture → picture.finish ≤ memory.length →
        FillsAsDrawn state picture memory dwColor) ∧
    Held longPicture ∧
      clearVideoMemRegion longPicture (fullLayout longPicture) 0xff0000#32 = none := by
  refine ⟨fun every => ?_, by constructor <;> decide, by decide⟩
  have held : Held highPicture := by constructor <;> decide
  have drawn : Drawn highState highPicture := by constructor <;> rfl
  have inMemory : highPicture.finish ≤ (List.replicate (2 ^ 32 + 4) (0 : Byte)).length := by
    rw [List.length_replicate]
    decide
  have fills := every highPicture highState _ 0xff0000#32 held drawn inMemory
  have inside : (fullLayout highPicture).Inside highPicture := by constructor <;> decide
  obtain ⟨after, cleared, _, untouched⟩ := fills.region _ inside
  have outside : ¬InRectangle highPicture (fullLayout highPicture) 1 := by
    rw [inRectangle_full held]
    decide
  unfold clearedRegion at cleared
  rw [highPicture_stores, Option.bind_some] at cleared
  have row (pointer : Nat) (even : 2 ∣ pointer) :=
    @tiles_fills [0x00, 0xf8] 0 2 pointer (Nat.zero_le _) even
  have stored := ((row (2 ^ 32 - 4) (by norm_num)).append (row 0 (Nat.dvd_zero 2))).applied cleared
    (show _ ∨ 0 ≤ 1 ∧ 1 < 0 + 2 * 2 from Or.inr (by decide))
  rw [untouched 1 outside, List.getElem?_replicate_of_lt (by decide)] at stored
  exact absurd stored (by decide)

end BuildLinux.Concrete.VideoMemFill
