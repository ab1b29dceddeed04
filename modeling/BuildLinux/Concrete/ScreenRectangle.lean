/-
InvalidateScreen(left, top, right, bottom, nMemMap) of
driver/drm/testcamera/Framebuffer.cxx: a rectangle of a buffer is copied to the
frame on the display.

Rectangles that miss the screen are rejected first, and the others clamped.  A
right or bottom edge of 0 stands for the last column or row there, though it is
also an edge of its own.
-/

import BuildLinux.Concrete.FramebufferDrawing
import BuildLinux.Concrete.PictureMerging

namespace BuildLinux.Concrete.ScreenRectangle

open ByteStores TransitionSystem
open Framebuffer FramebufferPanning FramebufferDrawing
open PictureMerging (Copy copyLoop memcpys memcpys_rows memcpy_store)

/-- `if(left<0) left=0;`, for both directions. -/
def clampStart (start : Int) : Int := if start < 0 then 0 else start

/-- `if(right <= 0 || right>=nMaxWidth) right=nMaxWidth-1;`, for both directions. -/
def clampEnd (finish nMax : Int) : Int := if finish ≤ 0 ∨ finish ≥ nMax then nMax - 1 else finish

def Rejected (nMaxWidth nMaxHeight left top right bottom : Int) : Prop :=
  left ≥ nMaxWidth ∨ right < 0 ∨ left > right ∨ top ≥ nMaxHeight ∨ bottom < 0 ∨ top > bottom

instance (nMaxWidth nMaxHeight left top right bottom : Int) :
    Decidable (Rejected nMaxWidth nMaxHeight left top right bottom) :=
  inferInstanceAs (Decidable (_ ∨ _))

/-- The copies, whose offsets count from the start of either buffer. -/
def copies (screen : Geometry) (left top right bottom : Int) : List Copy :=
  let nMaxWidth : Int := screen.m_nVirtualWidth
  let nMaxHeight : Int := screen.m_nVirtualHeight
  let nLineLength : Int := screen.m_nLineLength
  if Rejected nMaxWidth nMaxHeight left top right bottom then []
  else
    let left := clampStart left
    let right := clampEnd right nMaxWidth
    let top := clampStart top
    let bottom := clampEnd bottom nMaxHeight
    let width := right - left + 1
    let height := bottom - top + 1
    let widthbytes := width * screen.m_nBytesPerPixel
    let start := (screen.m_nVirtualY + top) * nLineLength + left * screen.m_nBytesPerPixel
    if width = screen.m_nPhysicalWidth then
      [{ source := start, destination := start, count := height * nLineLength }]
    else copyLoop widthbytes nLineLength nLineLength height.toNat start start

/-- Nothing is accessed where nothing is copied. -/
def invalidateRectangle (screen : Geometry) (left top right bottom nMemMap : Int)
    (display : Display Block) : Option (Display Block) :=
  let pSrc := virtualMem display.fb nMemMap
  let moves := copies screen left top right bottom
  match display.fb.m_pMem with
  | none =>
      if pSrc = .null ∨ display.fb.m_nDispMemNo * display.fb.m_nMemSize = 0 ∨ moves = [] then
        some display
      else none
  | some k =>
      let pDst := Pointer.frame k display.fb.m_nDispMemNo
      if pSrc = .null ∨ pSrc = pDst ∨ moves = [] then some display
      else
        (load display pSrc).bind fun source =>
          (load display pDst).bind fun shown =>
            (memcpys source shown moves).bind fun after => store pDst after display

/-! ### The visible part -/

/-- A pixel of the screen in the inclusive rectangle. -/
def InRectangle (left top right bottom : Int) (x y : Nat) : Prop :=
  (left ≤ x ∧ x ≤ right) ∧ top ≤ y ∧ y ≤ bottom

/-- The pixels of an area become those of the source, and no others change. -/
structure CopiesArea (info : ScreenInfo) (area : Nat → Nat → Prop) (source before after : Block) :
    Prop where
  inside : ∀ x < info.xres, ∀ y < info.yres, area x y →
    pixel info after x y = pixel info source x y
  outside : ∀ x < info.xres, ∀ y < info.yres, ¬area x y →
    pixel info after x y = pixel info before x y

/-- One copy of whole lines does what the copies of the lines do. -/
def SameCopies (info : ScreenInfo) : Prop :=
  ∀ (source before : Block) (top height : Nat), source.length = info.memSize →
    before.length = info.memSize → top + height ≤ info.yres →
      let line := (geometry info).m_nLineLength
      memcpys source before [⟨(top * line : Nat), (top * line : Nat), (height * line : Nat)⟩] =
        memcpys source before (copyLoop line line line height (top * line : Nat) (top * line : Nat))

/-- The call returns with the visible part of the rectangle copied to the frame
on the display and with nothing else changed. -/
structure InvalidatesVisible (info : ScreenInfo) (fb : CFramebuffer)
    (left top right bottom nMemMap : Int) : Prop where
  copied : ∀ (contents : Contents info) source,
    load (contents.display fb) (virtualMem fb nMemMap) = some source → ∃ shown : Block,
      invalidateRectangle (geometry info) left top right bottom nMemMap (contents.display fb) =
          some { contents.display fb with
            frames := Function.update contents.frames fb.m_nDispMemNo shown } ∧
        shown.length = info.memSize ∧
        CopiesArea info (InRectangle left top right bottom) source
          (contents.frames fb.m_nDispMemNo) shown
  ways : SameCopies info

/-! ### The two ways of copying -/

section Copying

variable {info : ScreenInfo} {source before : Block}

theorem bytesPerPixel_pos (info : ScreenInfo) : 0 < (geometry info).m_nBytesPerPixel :=
  Nat.pos_of_mul_pos_left (Nat.pos_of_mul_pos_right info.sized)

theorem lineLength_pos (info : ScreenInfo) : 0 < (geometry info).m_nLineLength :=
  Nat.pos_of_mul_pos_right info.sized

theorem memSize_lines (info : ScreenInfo) :
    info.memSize = info.yres * (geometry info).m_nLineLength :=
  Nat.mul_comm _ _

theorem sameCopies (info : ScreenInfo) : SameCopies info := by
  intro source before top height sourceSize beforeSize bottom line
  have inside : top * line + height * line ≤ info.memSize := by
    rw [← Nat.add_mul, memSize_lines]
    exact Nat.mul_le_mul_right line bottom
  rcases Nat.eq_zero_or_pos height with rfl | some
  · rw [Nat.zero_mul]
    rfl
  · have rowsInside : ∀ row, row < height → top * line + row * line + line ≤ source.length := by
      intro row below
      have lines := Nat.mul_le_mul_right line (Nat.succ_le_of_lt below)
      rw [Nat.succ_mul] at lines
      omega
    have whole : 0 < height * line := Nat.mul_pos some (lineLength_pos info)
    have inSource : top * line + height * line ≤ source.length := by omega
    obtain ⟨contiguous, inOne⟩ := @rowStores_contiguous source line height (top * line)
      (top * line) inSource
    let piece := Store.mk (top * line) ((source.drop (top * line)).take (height * line))
    have size : piece.bytes.length = height * line := by
      rw [List.length_take, List.length_drop, Nat.min_eq_left (by omega)]
    have single : Contiguous (top * line) [piece] := ⟨rfl, trivial⟩
    have inPiece : contents [piece] = piece.bytes := List.append_nil _
    calc
      memcpys source before [⟨(top * line : Nat), (top * line : Nat), (height * line : Nat)⟩]
          = applyStores before [piece] := by
            rw [memcpys, memcpy_store whole inSource]
            rfl
      _ = applyStores before (rowStores source line line line height (top * line) (top * line)) :=
            (applyStores_same contiguous single (inOne.trans inPiece.symm)
              (by rw [inPiece, size]; omega)).symm
      _ = _ := (memcpys_rows (lineLength_pos info) rowsInside before).symm

/-- Where the byte of a pixel lies among the copied rows. -/
theorem pixel_row (info : ScreenInfo) {left top x y i : Nat} (fromLeft : left ≤ x)
    (fromTop : top ≤ y) :
    y * (geometry info).m_nLineLength + x * (geometry info).m_nBytesPerPixel + i =
      top * (geometry info).m_nLineLength + left * (geometry info).m_nBytesPerPixel +
        (y - top) * (geometry info).m_nLineLength +
          ((x - left) * (geometry info).m_nBytesPerPixel + i) := by
  obtain ⟨col, rfl⟩ := Nat.exists_eq_add_of_le fromLeft
  obtain ⟨row, rfl⟩ := Nat.exists_eq_add_of_le fromTop
  rw [Nat.add_sub_cancel_left, Nat.add_sub_cancel_left, Nat.add_mul, Nat.add_mul]
  omega

/-- Positions of pixels are ordered by their row, then by their column. -/
theorem pixel_before (info : ScreenInfo) {x y x' y' : Nat} (inLine : x < info.xres)
    (earlier : y < y' ∨ y = y' ∧ x < x') :
    y * (geometry info).m_nLineLength + (x + 1) * (geometry info).m_nBytesPerPixel ≤
      y' * (geometry info).m_nLineLength + x' * (geometry info).m_nBytesPerPixel := by
  rcases earlier with above | ⟨rfl, before⟩
  · have line : (x + 1) * (geometry info).m_nBytesPerPixel ≤ (geometry info).m_nLineLength :=
      Nat.mul_le_mul_right _ inLine
    have rows := Nat.mul_le_mul_right (geometry info).m_nLineLength (Nat.succ_le_of_lt above)
    rw [Nat.succ_mul] at rows
    omega
  · exact Nat.add_le_add_left (Nat.mul_le_mul_right _ before) _

theorem pixel_inside (info : ScreenInfo) {x y : Nat} (inLine : x < info.xres)
    (inHeight : y < info.yres) :
    y * (geometry info).m_nLineLength + (x + 1) * (geometry info).m_nBytesPerPixel ≤
      info.memSize := by
  have last := @pixel_before info x y 0 info.yres inLine (Or.inl inHeight)
  rw [Nat.zero_mul, Nat.add_zero, ← memSize_lines] at last
  exact last

/-- The loop over the rows copies a rectangle of the screen. -/
theorem copyLoop_area (sourceSize : source.length = info.memSize)
    (beforeSize : before.length = info.memSize) {left top width height : Nat} (wide : 0 < width)
    (right : left + width ≤ info.xres) (bottom : top + height ≤ info.yres) :
    let line := (geometry info).m_nLineLength
    let size := (geometry info).m_nBytesPerPixel
    ∃ after, memcpys source before (copyLoop (width * size : Nat) line line height
          (top * line + left * size : Nat) (top * line + left * size : Nat)) = some after ∧
      after.length = info.memSize ∧
      CopiesArea info (fun x y => (left ≤ x ∧ x < left + width) ∧ top ≤ y ∧ y < top + height)
        source before after := by
  intro line size
  have deep : 0 < size := bytesPerPixel_pos info
  have startRow (row : Nat) : top * line + left * size + row * line =
      (top + row) * line + left * size := by
    rw [Nat.add_mul]
    omega
  have lastRow (row : Nat) : top * line + left * size + row * line + width * size =
      (top + row) * line + (left + width - 1 + 1) * size := by
    rw [startRow, Nat.sub_add_cancel (by omega), Nat.add_assoc, ← Nat.add_mul]
  have pixelEnd (x y : Nat) : y * line + x * size + size = y * line + (x + 1) * size := by
    rw [Nat.succ_mul, Nat.add_assoc]
  have rowsInside : ∀ row, row < height →
      top * line + left * size + row * line + width * size ≤ info.memSize := by
    intro row below
    rw [lastRow]
    exact pixel_inside info (by omega) (by omega)
  have narrow : width * size ≤ line := Nat.mul_le_mul_right size (by omega)
  have inSource : ∀ row, row < height →
      top * line + left * size + row * line + width * size ≤ source.length := by
    rwa [sourceSize]
  obtain ⟨after, applied, length, copied, untouched⟩ :=
    rowStores_spec inSource narrow (by rwa [beforeSize])
  have pixelInside {x y : Nat} (inLine : x < info.xres) (inHeight : y < info.yres) :
      y * line + x * size + size ≤ info.memSize := by
    rw [pixelEnd]
    exact pixel_inside info inLine inHeight
  refine ⟨after, (memcpys_rows (Nat.mul_pos wide deep) inSource before).trans applied,
    length.trans beforeSize, ?_, ?_⟩
  · rintro x inLine y inHeight ⟨⟨fromLeft, toRight⟩, fromTop, toBottom⟩
    have last := pixelInside inLine inHeight
    change readBytes after (y * line + x * size) size = readBytes source (y * line + x * size) size
    refine readBytes_congr (by omega) (by omega) fun i inPixel => ?_
    have place : y * line + x * size + i = _ := pixel_row info fromLeft fromTop
    rw [place]
    refine copied (y - top) ((x - left) * size + i) (by omega) ?_
    have cols := Nat.mul_le_mul_right size (show x - left + 1 ≤ width by omega)
    rw [Nat.succ_mul] at cols
    omega
  · intro x inLine y inHeight outside
    have last := pixelInside inLine inHeight
    change readBytes after (y * line + x * size) size = readBytes before (y * line + x * size) size
    refine readBytes_congr (by omega) (by omega) fun i inPixel => untouched _ fun row below => ?_
    have here := pixelEnd x y
    by_cases early : y < top + row ∨ y = top + row ∧ x < left
    · have order : y * line + (x + 1) * size ≤ (top + row) * line + left * size :=
        pixel_before info inLine early
      rw [startRow]
      omega
    · have order : (top + row) * line + (left + width - 1 + 1) * size ≤ y * line + x * size :=
        pixel_before info (by omega) (by omega)
      rw [lastRow]
      omega

/-! ### Clamping -/

/-- A pixel of the screen that the clamped edges take in. -/
def InClamped (left top right bottom : Int) (x y : Nat) : Prop :=
  (left ≤ x ∧ (right = 0 ∨ x ≤ right)) ∧ top ≤ y ∧ (bottom = 0 ∨ y ≤ bottom)

/-- The clamped edges of one direction are the first and the last of some
columns of the screen. -/
theorem clamp_span {start finish : Int} {count : Nat} (some : 0 < count) (begins : start < count)
    (ends : 0 ≤ finish) (ordered : start ≤ finish) :
    ∃ first size : Nat, clampStart start = first ∧ clampEnd finish count = first + size - 1 ∧
      0 < size ∧ first + size ≤ count ∧
        ∀ x < count, first ≤ x ∧ x < first + size ↔ start ≤ x ∧ (finish = 0 ∨ x ≤ finish) := by
  have first : clampStart start = max start 0 := by
    unfold clampStart
    split <;> omega
  have last : clampEnd finish count = if finish = 0 then (count : Int) - 1
      else min finish (count - 1) := by
    unfold clampEnd
    split <;> split <;> omega
  rw [first, last]
  by_cases zero : finish = 0
  · rw [if_pos zero]
    exact ⟨(max start 0).toNat, (count - max start 0).toNat, by omega, by omega, by omega,
      by omega, fun x inside => by omega⟩
  · rw [if_neg zero]
    exact ⟨(max start 0).toNat, (min finish (count - 1) - max start 0 + 1).toNat, by omega,
      by omega, by omega, by omega, fun x inside => by omega⟩

theorem CopiesArea.congr {area other : Nat → Nat → Prop} {after : Block}
    (copied : CopiesArea info area source before after)
    (same : ∀ x < info.xres, ∀ y < info.yres, area x y ↔ other x y) :
    CopiesArea info other source before after where
  inside x inLine y inHeight inOther :=
    copied.inside x inLine y inHeight ((same x inLine y inHeight).mpr inOther)
  outside x inLine y inHeight outside :=
    copied.outside x inLine y inHeight fun inArea => outside ((same x inLine y inHeight).mp inArea)

/-- What the copies do to a frame, on either way. -/
theorem memcpys_copies (sourceSize : source.length = info.memSize)
    (beforeSize : before.length = info.memSize) {left top right bottom : Int}
    (accepted : ¬Rejected info.xres info.yres left top right bottom) :
    ∃ after, memcpys source before (copies (geometry info) left top right bottom) = some after ∧
      after.length = info.memSize ∧
      CopiesArea info (InClamped left top right bottom) source before after := by
  have edges := accepted
  unfold Rejected at edges
  obtain ⟨x0, width, isLeft, isRight, wide, inLine, columns⟩ :=
    @clamp_span left right info.xres info.width_pos (by omega) (by omega) (by omega)
  obtain ⟨y0, height, isTop, isBottom, _, inHeight, rows⟩ :=
    @clamp_span top bottom info.yres info.height_pos (by omega) (by omega) (by omega)
  let line := (geometry info).m_nLineLength
  let size := (geometry info).m_nBytesPerPixel
  obtain ⟨after, copied, length, area⟩ :=
    copyLoop_area sourceSize beforeSize wide inLine inHeight
  have isCopies : memcpys source before (copies (geometry info) left top right bottom) =
      memcpys source before (copyLoop (width * size : Nat) line line height
        (y0 * line + x0 * size : Nat) (y0 * line + x0 * size : Nat)) := by
    have columns' : (x0 + width - 1 - x0 + 1 : Int) = width := by omega
    have rows' : (y0 + height - 1 - y0 + 1 : Int) = height := by omega
    have start : ((0 : Nat) + y0 : Int) * line + x0 * size = (y0 * line + x0 * size : Nat) := by
      push_cast
      rw [Int.zero_add]
    unfold copies
    simp only [geometry_virtualWidth, geometry_virtualHeight, geometry_physicalWidth,
      geometry_virtualY, if_neg accepted, isLeft, isRight, isTop, isBottom, columns', rows',
      Int.toNat_natCast]
    change memcpys source before (if _ then [⟨((0 : Nat) + y0 : Int) * line + x0 * size,
      ((0 : Nat) + y0 : Int) * line + x0 * size, height * line⟩]
      else copyLoop (width * size) line line height (((0 : Nat) + y0 : Int) * line + x0 * size)
        (((0 : Nat) + y0 : Int) * line + x0 * size)) = _
    rw [start, Int.natCast_mul width]
    split
    · next whole =>
        obtain rfl : x0 = 0 := by omega
        have isLine : width * size = line := by
          rw [show width = info.xres by omega]
          rfl
        have ways := sameCopies info source before y0 height sourceSize beforeSize inHeight
        rw [Nat.zero_mul, Nat.add_zero, ← Int.natCast_mul, ← Int.natCast_mul, isLine]
        exact ways
    · rfl
  refine ⟨after, isCopies.trans copied, length, area.congr fun x inX y inY => ?_⟩
  exact and_congr (columns x inX) (rows y inY)

end Copying

/-! ### Which pixels are taken -/

section Edges

variable {info : ScreenInfo} {left top right bottom : Int}

/-- An edge of 0 that is not the last column or row of the screen. -/
def EdgeTaken (info : ScreenInfo) (right bottom : Int) : Prop :=
  right = 0 ∧ 1 < info.xres ∨ bottom = 0 ∧ 1 < info.yres

theorem rejected_outside (rejected : Rejected info.xres info.yres left top right bottom) {x y : Nat}
    (inLine : x < info.xres) (inHeight : y < info.yres) :
    ¬InRectangle left top right bottom x y := by
  rintro ⟨⟨fromLeft, toRight⟩, fromTop, toBottom⟩
  unfold Rejected at rejected
  omega

theorem clamped_exact (edges : ¬EdgeTaken info right bottom) {x y : Nat} (inLine : x < info.xres)
    (inHeight : y < info.yres) :
    InClamped left top right bottom x y ↔ InRectangle left top right bottom x y := by
  unfold EdgeTaken at edges
  unfold InClamped InRectangle
  omega

/-- An edge of 0 takes in a pixel beside the rectangle. -/
theorem clamped_beyond (accepted : ¬Rejected info.xres info.yres left top right bottom)
    (edge : EdgeTaken info right bottom) : ∃ x < info.xres, ∃ y < info.yres,
      InClamped left top right bottom x y ∧ ¬InRectangle left top right bottom x y := by
  have columns := info.width_pos
  have rows := info.height_pos
  unfold Rejected at accepted
  unfold InClamped InRectangle
  rcases edge with ⟨zero, wide⟩ | ⟨zero, high⟩
  · exact ⟨info.xres - 1, by omega, (max 0 top).toNat, by omega, by omega, by omega⟩
  · exact ⟨(max 0 left).toNat, by omega, info.yres - 1, by omega, by omega, by omega⟩

end Edges

/-! ### The call -/

section Call

variable {info : ScreenInfo} {fb : CFramebuffer} {left top right bottom nMemMap : Int} {k : Nat}

/-- No buffer, or the one on the display. -/
def Idle (fb : CFramebuffer) (nMemMap : Int) : Prop :=
  virtualMem fb nMemMap = .null ∨
    ∃ k, fb.m_pMem = some k ∧ virtualMem fb nMemMap = .frame k fb.m_nDispMemNo

/-- The call puts the copied frame on the display. -/
theorem invalidateRectangle_copies (contents : Contents info) (isMapped : fb.m_pMem = some k)
    (displayed : accessible fb (.frame k fb.m_nDispMemNo) = true) (busy : ¬Idle fb nMemMap)
    {source after : Block}
    (loaded : load (contents.display fb) (virtualMem fb nMemMap) = some source)
    (moved : memcpys source (contents.frames fb.m_nDispMemNo)
      (copies (geometry info) left top right bottom) = some after) :
    invalidateRectangle (geometry info) left top right bottom nMemMap (contents.display fb) =
      some { contents.display fb with
        frames := Function.update contents.frames fb.m_nDispMemNo after } := by
  obtain ⟨present, apart⟩ := not_or.mp busy
  have other : virtualMem fb nMemMap ≠ .frame k fb.m_nDispMemNo := fun same =>
    apart ⟨k, isMapped, same⟩
  have isShown : load (contents.display fb) (.frame k fb.m_nDispMemNo) =
      some (contents.frames fb.m_nDispMemNo) := if_pos displayed
  unfold invalidateRectangle
  dsimp only
  rw [show (contents.display fb).fb = fb from rfl, isMapped]
  dsimp only
  by_cases nothing : copies (geometry info) left top right bottom = []
  · rw [nothing] at moved
    cases moved
    rw [if_pos (Or.inr (Or.inr nothing)), Function.update_eq_self]
    rfl
  · rw [if_neg (not_or.mpr ⟨present, not_or.mpr ⟨other, nothing⟩⟩), loaded, Option.bind_some,
      isShown, Option.bind_some, moved, Option.bind_some]
    exact if_pos displayed

theorem invalidateRectangle_idle (contents : Contents info) (isMapped : fb.m_pMem = some k)
    (same : virtualMem fb nMemMap = .frame k fb.m_nDispMemNo) :
    invalidateRectangle (geometry info) left top right bottom nMemMap (contents.display fb) =
      some { contents.display fb with
        frames := Function.update contents.frames fb.m_nDispMemNo
          (contents.frames fb.m_nDispMemNo) } := by
  unfold invalidateRectangle
  dsimp only
  rw [show (contents.display fb).fb = fb from rfl, isMapped]
  dsimp only
  rw [if_pos (Or.inr (Or.inl same)), Function.update_eq_self]
  rfl

theorem visible_of_exact (isMapped : fb.m_pMem = some k)
    (displayed : accessible fb (.frame k fb.m_nDispMemNo) = true)
    (exact : Idle fb nMemMap ∨ Rejected info.xres info.yres left top right bottom ∨
      ¬EdgeTaken info right bottom) :
    InvalidatesVisible info fb left top right bottom nMemMap := by
  refine ⟨fun contents source loaded => ?_, sameCopies info⟩
  have sourceSize := contents.load_length loaded
  have shownSize := contents.frameSize fb.m_nDispMemNo
  by_cases idle : Idle fb nMemMap
  · have same : virtualMem fb nMemMap = .frame k fb.m_nDispMemNo := by
      rcases idle with missing | ⟨l, mapped, same⟩
      · rw [missing] at loaded
        cases loaded
      · rw [isMapped] at mapped
        rw [same, Option.some.inj mapped]
    have isShown : load (contents.display fb) (.frame k fb.m_nDispMemNo) =
        some (contents.frames fb.m_nDispMemNo) := if_pos displayed
    rw [same, isShown] at loaded
    obtain rfl := Option.some.inj loaded
    exact ⟨_, invalidateRectangle_idle contents isMapped same, shownSize,
      fun _ _ _ _ _ => rfl, fun _ _ _ _ _ => rfl⟩
  · by_cases rejected : Rejected info.xres info.yres left top right bottom
    · have nothing : copies (geometry info) left top right bottom = [] := if_pos rejected
      refine ⟨_, invalidateRectangle_copies contents isMapped displayed idle loaded
        (by rw [nothing]; rfl), shownSize, fun x inLine y inHeight inside => ?_,
        fun _ _ _ _ _ => rfl⟩
      exact absurd inside (rejected_outside rejected inLine inHeight)
    · have edges := (exact.resolve_left idle).resolve_left rejected
      obtain ⟨after, moved, length, area⟩ := memcpys_copies sourceSize shownSize rejected
      exact ⟨after, invalidateRectangle_copies contents isMapped displayed idle loaded moved,
        length, area.congr fun x inLine y inHeight => clamped_exact edges inLine inHeight⟩

/-- A buffer full of one byte. -/
def uniform (info : ScreenInfo) (byte : Byte) : Block :=
  (List.replicate (info.yres * info.xres)
    (List.replicate (geometry info).m_nBytesPerPixel byte)).flatten

theorem uniform_length (info : ScreenInfo) (byte : Byte) :
    (uniform info byte).length = info.memSize := by
  unfold uniform
  rw [flatten_replicate_length, List.length_replicate, memSize_pixels]
  rfl

theorem uniform_pixel (byte : Byte) {x y : Nat} (inLine : x < info.xres)
    (inHeight : y < info.yres) : pixel info (uniform info byte) x y =
      some (List.replicate (geometry info).m_nBytesPerPixel byte) :=
  pixel_laid List.length_replicate inLine inHeight

/-- The frame on the display is black and everything else white. -/
def contrast (info : ScreenInfo) (shown : Nat) : Contents info where
  frames j := if j = shown then uniform info 0 else uniform info 255
  blocks _ := uniform info 255
  frameSize j := by split <;> exact uniform_length info _
  blockSize _ := uniform_length info 255

theorem contrast_white
    (reached : virtualMem fb nMemMap ≠ .null → accessible fb (virtualMem fb nMemMap) = true)
    (busy : ¬Idle fb nMemMap) :
    load ((contrast info fb.m_nDispMemNo).display fb) (virtualMem fb nMemMap) =
      some (uniform info 255) := by
  obtain ⟨present, apart⟩ := not_or.mp busy
  have inMemory := reached present
  unfold load
  rw [show ((contrast info fb.m_nDispMemNo).display fb).fb = fb from rfl, if_pos inMemory]
  cases pointer : virtualMem fb nMemMap with
  | null => exact absurd pointer present
  | frame l j =>
      rw [pointer] at inMemory
      have mapped := (of_decide_eq_true inMemory).1
      have other : j ≠ fb.m_nDispMemNo := by
        rintro rfl
        exact apart ⟨l, mapped, pointer⟩
      exact congrArg some (if_neg other)
  | block b => rfl

theorem exact_of_visible (isMapped : fb.m_pMem = some k)
    (displayed : accessible fb (.frame k fb.m_nDispMemNo) = true)
    (reached : virtualMem fb nMemMap ≠ .null → accessible fb (virtualMem fb nMemMap) = true)
    (visible : InvalidatesVisible info fb left top right bottom nMemMap) :
    Idle fb nMemMap ∨ Rejected info.xres info.yres left top right bottom ∨
      ¬EdgeTaken info right bottom := by
  by_contra wrong
  obtain ⟨busy, wrong⟩ := not_or.mp wrong
  obtain ⟨accepted, edge⟩ := not_or.mp wrong
  let contents := contrast info fb.m_nDispMemNo
  have loaded : load (contents.display fb) (virtualMem fb nMemMap) = some (uniform info 255) :=
    contrast_white reached busy
  obtain ⟨shown, returned, _, area⟩ := visible.copied contents _ loaded
  obtain ⟨after, moved, _, clamped⟩ := memcpys_copies (uniform_length info 255)
    (contents.frameSize fb.m_nDispMemNo) accepted
  rw [invalidateRectangle_copies contents isMapped displayed busy loaded moved] at returned
  have same : after = shown := by
    have frames := congrArg (fun display : Display Block => display.frames fb.m_nDispMemNo)
      (Option.some.inj returned)
    simpa only [Function.update_self] using frames
  obtain ⟨x, inLine, y, inHeight, taken, beyond⟩ := clamped_beyond accepted (not_not.mp edge)
  have white := clamped.inside x inLine y inHeight taken
  have black := area.outside x inLine y inHeight beyond
  have isBlack : contents.frames fb.m_nDispMemNo = uniform info 0 := if_pos rfl
  rw [uniform_pixel 255 inLine inHeight] at white
  rw [isBlack, uniform_pixel 0 inLine inHeight, ← same, white] at black
  rcases (List.replicate_inj.mp (Option.some.inj black)).2 with flat | equal
  · exact absurd flat (bytesPerPixel_pos info).ne'
  · exact absurd equal (by decide)

end Call

/-- In every reachable state of an open framebuffer the visible part is copied
unless an edge of 0 stands for the far one. -/
theorem invalidate_exact_iff {screen : Screen} {picture : Type} {blank : picture}
    {history : List (Action picture)} {display : Display picture}
    (run : Runs (displaySystem screen blank) history display) (opened : display.fb.m_fd = true)
    (left top right bottom nMemMap : Int) :
    InvalidatesVisible screen.info display.fb left top right bottom nMemMap ↔
      Idle display.fb nMemMap ∨
        Rejected screen.info.xres screen.info.yres left top right bottom ∨
        ¬EdgeTaken screen.info right bottom := by
  obtain ⟨sound, isFramed⟩ := runs_framed run
  have framed := isFramed opened
  obtain ⟨k, isMapped, _⟩ := sound.mapped opened
  have displayed : accessible display.fb (.frame k display.fb.m_nDispMemNo) = true :=
    decide_eq_true ⟨isMapped, framed.inside framed.displayed⟩
  exact ⟨exact_of_visible isMapped displayed (buffer_accessible sound framed opened),
    visible_of_exact isMapped displayed⟩

/-! ### A screen of two by two pixels -/

def squareScreen : Screen where
  info := { xres := 2, yres := 2, bits_per_pixel := 32, smem_len := 16, sized := Nat.succ_pos 15 }
  room := Nat.le_refl 16

def squareDisplay : Display Nat :=
  openDisplay 0 none { panning true with info := squareScreen.info } dark

theorem squareDisplay_runs : Runs (displaySystem squareScreen 0)
    [.openBuffer none { panning true with info := squareScreen.info }] squareDisplay := by
  have begun : Runs (displaySystem squareScreen 0) [] dark := Runs.start rfl
  exact Runs.next begun ⟨rfl, rfl⟩

theorem lower_row_copied : InvalidatesVisible squareScreen.info squareDisplay.fb 0 1 1 1 1 :=
  (invalidate_exact_iff squareDisplay_runs (by decide) 0 1 1 1 1).mpr
    (Or.inr (Or.inr (by unfold EdgeTaken; decide)))

/-- The left column alone takes the right one with it. -/
theorem left_column_too_wide :
    ¬InvalidatesVisible squareScreen.info squareDisplay.fb 0 0 0 1 1 := by
  intro visible
  obtain ⟨sound, isFramed⟩ := runs_framed squareDisplay_runs
  have framed := isFramed (by decide)
  have exact := exact_of_visible rfl (decide_eq_true ⟨rfl, framed.inside framed.displayed⟩)
    (buffer_accessible sound framed (by decide)) visible
  rcases exact with (missing | ⟨k, mapped, same⟩) | rejected | edges
  · revert missing
    decide
  · cases mapped
    revert same
    decide
  · revert rejected
    decide
  · exact edges (Or.inl ⟨rfl, by decide⟩)

end BuildLinux.Concrete.ScreenRectangle
