/-
ClearDevice of driver/drm/testcamera/Framebuffer.cxx: one colour in all pixels
of a buffer.

Up to 8 bits, and at 24 bits for a grey colour, whole rows are set to the low
byte; 16 bits are stored word by word and the others byte by byte.  The test
for grey compares the truth value of R = G with B, so that it takes other
colours for grey.
-/

import BuildLinux.ByteStores
import BuildLinux.Concrete.FramebufferColours
import BuildLinux.Concrete.FramebufferPanning

namespace BuildLinux.Concrete.FramebufferDrawing

open ByteStores TransitionSystem
open Framebuffer FramebufferPanning
open FramebufferColours (rgbToRgb565 widen_injective)

/-! ### The screen -/

/-- The members with the size of the screen. -/
structure Geometry where
  m_nPhysicalWidth : Nat
  m_nPhysicalHeight : Nat
  m_nVirtualX : Nat
  m_nVirtualY : Nat
  m_nVirtualWidth : Nat
  m_nVirtualHeight : Nat
  m_nDepth : Nat
  m_nBytesPerPixel : Nat
  m_nLineLength : Nat

/-- As `Open` sets them. -/
def geometry (info : ScreenInfo) : Geometry where
  m_nPhysicalWidth := info.xres
  m_nPhysicalHeight := info.yres
  m_nVirtualX := 0
  m_nVirtualY := 0
  m_nVirtualWidth := info.xres
  m_nVirtualHeight := info.yres
  m_nDepth := info.bits_per_pixel
  m_nBytesPerPixel := (info.bits_per_pixel + 7) / 8
  m_nLineLength := info.xres * ((info.bits_per_pixel + 7) / 8)

@[simp] theorem geometry_virtualWidth (info : ScreenInfo) :
    (geometry info).m_nVirtualWidth = info.xres := rfl

@[simp] theorem geometry_virtualHeight (info : ScreenInfo) :
    (geometry info).m_nVirtualHeight = info.yres := rfl

@[simp] theorem geometry_physicalWidth (info : ScreenInfo) :
    (geometry info).m_nPhysicalWidth = info.xres := rfl

@[simp] theorem geometry_virtualY (info : ScreenInfo) : (geometry info).m_nVirtualY = 0 := rfl

/-- The bytes of the pixel in a column and a row of a buffer. -/
def pixel (info : ScreenInfo) (buffer : Block) (x y : Nat) : Option (List Byte) :=
  readBytes buffer (y * (geometry info).m_nLineLength + x * (geometry info).m_nBytesPerPixel)
    (geometry info).m_nBytesPerPixel

/-- What the frames of the device and the blocks of the heap hold: a frame each. -/
structure Contents (info : ScreenInfo) where
  frames : Nat → Block
  blocks : Nat → Block
  frameSize : ∀ j, (frames j).length = info.memSize
  blockSize : ∀ b, (blocks b).length = info.memSize

def Contents.display {info : ScreenInfo} (contents : Contents info) (fb : CFramebuffer) :
    Display Block where
  fb := fb
  frames := contents.frames
  blocks := contents.blocks

/-! ### ClearDevice -/

def blueByte (bgcolor : BitVec 32) : Byte := bgcolor.setWidth 8

def greenByte (bgcolor : BitVec 32) : Byte := (bgcolor >>> 8).setWidth 8

def redByte (bgcolor : BitVec 32) : Byte := (bgcolor >>> 16).setWidth 8

/-- `((bgcolor & 0xFF0000)>>16)==((bgcolor & 0xFF00)>>8)==(bgcolor & 0x00FF)`. -/
def looksGrey (bgcolor : BitVec 32) : Bool :=
  (if (bgcolor &&& 0xff0000) >>> 16 = (bgcolor &&& 0xff00) >>> 8 then 1#32 else 0#32) ==
    bgcolor &&& 0xff

/-- The bytes of a `WORD` in memory. -/
def wordBytes (bc : BitVec 16) : List Byte := [bc.setWidth 8, (bc >>> 8).setWidth 8]

/-- `*pDstMem++=b; *pDstMem++=g; *pDstMem++=r;` and the alpha byte. -/
def pixelStores (nDepth : Nat) (b g r : Byte) (pDstMem : Nat) : List Store :=
  [{ offset := pDstMem, bytes := [b] }, { offset := pDstMem + 1, bytes := [g] },
    { offset := pDstMem + 2, bytes := [r] }] ++
    if nDepth = 32 then [{ offset := pDstMem + 3, bytes := [0] }] else []

/-- How far a pixel of `pixelStores` advances the pointer. -/
def pixelAdvance (nDepth : Nat) : Nat := if nDepth = 32 then 4 else 3

def clearStores (screen : Geometry) (bgcolor : BitVec 32) : List Store :=
  let nWidth := screen.m_nVirtualWidth
  let nHeight := screen.m_nVirtualHeight
  let nLineLen := screen.m_nLineLength
  let pDstMem := screen.m_nVirtualY * nLineLen + screen.m_nVirtualX * screen.m_nBytesPerPixel
  let bgcolor := if screen.m_nDepth = 4 then bgcolor + (bgcolor <<< 4) else bgcolor
  if screen.m_nDepth ≤ 8 ∨ screen.m_nDepth = 24 ∧ looksGrey bgcolor then
    eachRow
      (fun pDstMem =>
        [{ offset := pDstMem
           bytes := List.replicate nLineLen ((bgcolor &&& 0xff).setWidth 8) }])
      nLineLen nHeight pDstMem
  else if screen.m_nDepth = 16 then
    eachRow (tiles (wordBytes (rgbToRgb565 bgcolor)) nWidth) nLineLen nHeight pDstMem
  else
    -- The pointer has passed the pixels of a row when the rest of the line is added.
    eachRow
      (eachRow
        (pixelStores screen.m_nDepth (blueByte bgcolor) (greenByte bgcolor) (redByte bgcolor))
        (pixelAdvance screen.m_nDepth) nWidth)
      (nWidth * pixelAdvance screen.m_nDepth + nLineLen - nWidth * screen.m_nBytesPerPixel)
      nHeight pDstMem

def clearDevice (screen : Geometry) (bgcolor : BitVec 32) (nMemMap : Int)
    (display : Display Block) : Option (Display Block) :=
  let pDstMem := virtualMem display.fb nMemMap
  if pDstMem = .null then some display
  else
    (load display pDstMem).bind fun before =>
      (applyStores before (clearStores screen bgcolor)).bind fun after =>
        store pDstMem after display

/-! ### The requested colour -/

/-- The bytes of a pixel of the colour at the depths that have one. -/
def encoded (nDepth : Nat) (bgcolor : BitVec 32) : List Byte :=
  match nDepth with
  | 8 => [blueByte bgcolor]
  | 16 => wordBytes (rgbToRgb565 bgcolor)
  | 24 => [blueByte bgcolor, greenByte bgcolor, redByte bgcolor]
  | 32 => [blueByte bgcolor, greenByte bgcolor, redByte bgcolor, 0]
  | _ => []

def Depths (nDepth : Nat) : Prop := nDepth = 8 ∨ nDepth = 16 ∨ nDepth = 24 ∨ nDepth = 32

/-- The call returns with the colour in every pixel of its buffer and with
nothing else changed. -/
def ClearsTo (info : ScreenInfo) (fb : CFramebuffer) (bgcolor : BitVec 32) (nMemMap : Int) : Prop :=
  virtualMem fb nMemMap ≠ .null → ∀ contents : Contents info, ∃ painted after,
    clearDevice (geometry info) bgcolor nMemMap (contents.display fb) = some after ∧
      store (virtualMem fb nMemMap) painted (contents.display fb) = some after ∧
      painted.length = info.memSize ∧
      ∀ x < info.xres, ∀ y < info.yres,
        pixel info painted x y = some (encoded info.bits_per_pixel bgcolor)

/-- A colour that is no grey and that the test takes for one. -/
def MistakenGrey (bgcolor : BitVec 32) : Prop :=
  redByte bgcolor = greenByte bgcolor ∧ blueByte bgcolor = 1 ∧ redByte bgcolor ≠ 1 ∨
    redByte bgcolor ≠ greenByte bgcolor ∧ blueByte bgcolor = 0

/-! ### The test for grey -/

theorem ones_bit (index : Nat) : (0xff#32).getLsbD index = decide (index < 8) := by
  rw [show 0xff#32 = (BitVec.allOnes 8).setWidth 32 by decide, BitVec.getLsbD_setWidth,
    BitVec.getLsbD_allOnes]
  by_cases low : index < 8
  · rw [decide_eq_true low, decide_eq_true (show index < 32 by omega), Bool.true_and]
  · rw [decide_eq_false low, Bool.and_false]

/-- Masking a byte of a word in place is taking it out. -/
theorem masked_byte (word : BitVec 32) {shift : Nat} (inWord : shift ≤ 24) :
    (word &&& (0xff#32 <<< shift)) >>> shift = ((word >>> shift).setWidth 8).setWidth 32 := by
  apply BitVec.eq_of_getLsbD_eq
  intro index inRange
  simp only [BitVec.getLsbD_ushiftRight, BitVec.getLsbD_and, BitVec.getLsbD_shiftLeft,
    BitVec.getLsbD_setWidth, Nat.add_sub_cancel_left, ones_bit, inRange, decide_true, Bool.true_and]
  by_cases low : index < 8
  · have inside : shift + index < 32 := by omega
    have behind : ¬shift + index < shift := by omega
    simp only [low, inside, behind, decide_true, decide_false, Bool.not_false, Bool.and_true,
      Bool.true_and]
  · simp only [low, decide_false, Bool.and_false, Bool.false_and]

theorem red_masked (bgcolor : BitVec 32) :
    (bgcolor &&& 0xff0000) >>> 16 = (redByte bgcolor).setWidth 32 :=
  @masked_byte bgcolor 16 (by decide)

theorem green_masked (bgcolor : BitVec 32) :
    (bgcolor &&& 0xff00) >>> 8 = (greenByte bgcolor).setWidth 32 :=
  @masked_byte bgcolor 8 (by decide)

theorem blue_masked (bgcolor : BitVec 32) : bgcolor &&& 0xff = (blueByte bgcolor).setWidth 32 := by
  have masked := @masked_byte bgcolor 0 (by decide)
  rwa [BitVec.shiftLeft_zero, BitVec.ushiftRight_zero, BitVec.ushiftRight_zero] at masked

theorem low_byte (bgcolor : BitVec 32) : (bgcolor &&& 0xff).setWidth 8 = blueByte bgcolor := by
  rw [blue_masked, BitVec.setWidth_setWidth_of_le _ (by decide), BitVec.setWidth_eq]

/-- The truth value of R = G is compared with B. -/
theorem looksGrey_iff (bgcolor : BitVec 32) :
    looksGrey bgcolor = true ↔
      if redByte bgcolor = greenByte bgcolor then blueByte bgcolor = 1
      else blueByte bgcolor = 0 := by
  unfold looksGrey
  rw [red_masked, green_masked, blue_masked, beq_iff_eq, eq_comm]
  simp only [widen_injective (show 8 ≤ 32 by decide)]
  by_cases same : redByte bgcolor = greenByte bgcolor
  · rw [if_pos same, if_pos same]
    exact @widen_injective 8 32 (by decide) (blueByte bgcolor) 1
  · rw [if_neg same, if_neg same]
    exact @widen_injective 8 32 (by decide) (blueByte bgcolor) 0

/-! ### What is laid in the buffer -/

/-- What a pixel holds afterwards: the low byte only, where the test says grey. -/
def laidPixel (nDepth : Nat) (bgcolor : BitVec 32) : List Byte :=
  if nDepth = 24 ∧ looksGrey bgcolor then List.replicate 3 (blueByte bgcolor)
  else encoded nDepth bgcolor

theorem memset_lays (byte : Byte) (size width height : Nat) :
    Lays (List.replicate size byte) (height * width) 0
      (eachRow
        (fun pointer => [{ offset := pointer, bytes := List.replicate (width * size) byte }])
        (width * size) height 0) := by
  refine eachRow_lays (fun pointer => lays_store ?_ pointer) ?_ height 0
  · rw [List.flatten_replicate_replicate]
  · rw [List.length_replicate]

theorem words_lay (bc : BitVec 16) (width height : Nat) :
    Lays (wordBytes bc) (height * width) 0
      (eachRow (tiles (wordBytes bc) width) (width * 2) height 0) :=
  eachRow_lays (fun pointer => tiles_lays _ width pointer) rfl height 0

/-- The inner loop advances by whole pixels, so that nothing of a line is left. -/
theorem pixels_lay {nDepth : Nat} {b g r : Byte} {element : List Byte}
    (one : ∀ pointer, Lays element 1 pointer (pixelStores nDepth b g r pointer))
    (size : element.length = pixelAdvance nDepth) (width height : Nat) :
    Lays element (height * width) 0
      (eachRow (eachRow (pixelStores nDepth b g r) (pixelAdvance nDepth) width)
        (width * pixelAdvance nDepth + width * pixelAdvance nDepth -
          width * pixelAdvance nDepth) height 0) := by
  refine eachRow_lays (fun pointer => ?_) ?_ height 0
  · have row := eachRow_lays one (by rw [size, Nat.one_mul]) width pointer
    rwa [Nat.mul_one] at row
  · rw [size, Nat.add_sub_cancel]

theorem pixelStores_three (b g r : Byte) (pointer : Nat) :
    Lays [b, g, r] 1 pointer (pixelStores 24 b g r pointer) :=
  ⟨⟨rfl, rfl, rfl, trivial⟩, rfl⟩

theorem pixelStores_four (b g r : Byte) (pointer : Nat) :
    Lays [b, g, r, 0] 1 pointer (pixelStores 32 b g r pointer) :=
  ⟨⟨rfl, rfl, rfl, rfl, trivial⟩, rfl⟩

theorem clearStores_lay (info : ScreenInfo) (depth : Depths info.bits_per_pixel)
    (bgcolor : BitVec 32) :
    Lays (laidPixel info.bits_per_pixel bgcolor) (info.yres * info.xres) 0
      (clearStores (geometry info) bgcolor) := by
  obtain ⟨xres, yres, bits_per_pixel, smem_len, sized⟩ := info
  change Depths bits_per_pixel at depth
  have notFour : bits_per_pixel ≠ 4 := by
    unfold Depths at depth
    omega
  unfold clearStores geometry laidPixel
  dsimp only
  rw [Nat.zero_mul, Nat.zero_mul, if_neg notFour, low_byte]
  rcases depth with rfl | rfl | rfl | rfl
  · exact memset_lays (blueByte bgcolor) 1 xres yres
  · exact words_lay (rgbToRgb565 bgcolor) xres yres
  · cases grey : looksGrey bgcolor with
    | true => exact memset_lays (blueByte bgcolor) 3 xres yres
    | false => exact pixels_lay (pixelStores_three _ _ _) rfl xres yres
  · exact pixels_lay (pixelStores_four _ _ _) rfl xres yres

theorem laidPixel_length {nDepth : Nat} (depth : Depths nDepth) (bgcolor : BitVec 32) :
    (laidPixel nDepth bgcolor).length = (nDepth + 7) / 8 := by
  unfold laidPixel
  rcases depth with rfl | rfl | rfl | rfl
  · rfl
  · rfl
  · split <;> rfl
  · rfl

theorem memSize_pixels (info : ScreenInfo) :
    info.memSize = info.yres * info.xres * ((info.bits_per_pixel + 7) / 8) := by
  rw [ScreenInfo.memSize, Nat.mul_right_comm, Nat.mul_comm info.xres]

/-- A buffer that is laid with one element has it in every pixel. -/
theorem pixel_laid {info : ScreenInfo} {element : List Byte}
    (size : element.length = (geometry info).m_nBytesPerPixel) {x y : Nat} (inLine : x < info.xres)
    (inHeight : y < info.yres) :
    pixel info (List.replicate (info.yres * info.xres) element).flatten x y = some element := by
  have place : y * info.xres + x < info.yres * info.xres := by
    have lines := Nat.mul_le_mul_right info.xres (Nat.succ_le_of_lt inHeight)
    rw [Nat.succ_mul] at lines
    omega
  have laid := readBytes_laid element place
  have isPlace : y * (geometry info).m_nLineLength + x * (geometry info).m_nBytesPerPixel =
      (y * info.xres + x) * element.length := by
    rw [size, Nat.add_mul, Nat.mul_assoc]
    rfl
  unfold pixel
  rw [isPlace, ← size]
  exact laid

/-! ### The call -/

section Call

variable {info : ScreenInfo} {fb : CFramebuffer} {nMemMap : Int} {bgcolor : BitVec 32}
  {pointer : Pointer}

theorem Contents.load_accessible (contents : Contents info)
    (reached : accessible fb pointer = true) :
    ∃ before, load (contents.display fb) pointer = some before ∧
      before.length = info.memSize := by
  unfold load
  rw [show (contents.display fb).fb = fb from rfl, if_pos reached]
  cases pointer with
  | null => cases reached
  | frame k j => exact ⟨_, rfl, contents.frameSize j⟩
  | block b => exact ⟨_, rfl, contents.blockSize b⟩

theorem Contents.load_length (contents : Contents info) {source : Block}
    (loaded : load (contents.display fb) pointer = some source) : source.length = info.memSize := by
  have reached : accessible fb pointer = true := by
    unfold load at loaded
    exact (Option.ite_none_right_eq_some.mp loaded).1
  obtain ⟨before, isBefore, size⟩ := contents.load_accessible reached
  rw [loaded] at isBefore
  rw [Option.some.inj isBefore, size]

theorem store_accessible {display : Display Block} (reached : accessible display.fb pointer = true)
    (content : Block) : ∃ after, store pointer content display = some after := by
  unfold store
  rw [if_pos reached]
  cases pointer with
  | null => cases reached
  | frame k j => exact ⟨_, rfl⟩
  | block b => exact ⟨_, rfl⟩

theorem store_injective {display after : Display Block} {left right : Block}
    (first : store pointer left display = some after)
    (second : store pointer right display = some after) : left = right := by
  unfold store at first second
  obtain ⟨_, first⟩ := Option.ite_none_right_eq_some.mp first
  obtain ⟨_, second⟩ := Option.ite_none_right_eq_some.mp second
  have same := first.trans second.symm
  cases pointer with
  | null => cases first
  | frame k j =>
      have frames := congrArg (fun display : Display Block => display.frames j)
        (Option.some.inj same)
      simpa only [Function.update_self] using frames
  | block b =>
      have blocks := congrArg (fun display : Display Block => display.blocks b)
        (Option.some.inj same)
      simpa only [Function.update_self] using blocks

/-- The call replaces the buffer, whatever it held. -/
theorem clearDevice_stores (depth : Depths info.bits_per_pixel) (contents : Contents info)
    (reached : accessible fb (virtualMem fb nMemMap) = true) :
    clearDevice (geometry info) bgcolor nMemMap (contents.display fb) =
      store (virtualMem fb nMemMap)
        (List.replicate (info.yres * info.xres) (laidPixel info.bits_per_pixel bgcolor)).flatten
        (contents.display fb) := by
  have present : virtualMem fb nMemMap ≠ .null := by
    intro missing
    rw [missing] at reached
    cases reached
  obtain ⟨before, loaded, size⟩ := contents.load_accessible reached
  have exact : before.length =
      info.yres * info.xres * (laidPixel info.bits_per_pixel bgcolor).length := by
    rw [size, laidPixel_length depth, memSize_pixels]
  unfold clearDevice
  dsimp only
  rw [show (contents.display fb).fb = fb from rfl, if_neg present, loaded, Option.bind_some,
    (clearStores_lay info depth bgcolor).applied exact, Option.bind_some]

/-- The test says grey of a colour whose three bytes are not the same. -/
theorem mistakenGrey_iff : MistakenGrey bgcolor ↔
    looksGrey bgcolor = true ∧
      ¬(greenByte bgcolor = blueByte bgcolor ∧ redByte bgcolor = blueByte bgcolor) := by
  rw [looksGrey_iff]
  unfold MistakenGrey
  by_cases same : redByte bgcolor = greenByte bgcolor
  · rw [if_pos same]
    constructor
    · rintro (⟨_, one, red⟩ | ⟨different, _⟩)
      · refine ⟨one, fun equal => red ?_⟩
        rw [equal.2, one]
      · exact absurd same different
    · rintro ⟨one, unequal⟩
      refine Or.inl ⟨same, one, fun red => unequal ?_⟩
      rw [← same, red, one]
      exact ⟨rfl, rfl⟩
  · rw [if_neg same]
    constructor
    · rintro (⟨equal, _⟩ | ⟨_, zero⟩)
      · exact absurd equal same
      · exact ⟨zero, fun equal => same (equal.2.trans equal.1.symm)⟩
    · rintro ⟨zero, _⟩
      exact Or.inr ⟨same, zero⟩

theorem laidPixel_right_iff (nDepth : Nat) :
    laidPixel nDepth bgcolor = encoded nDepth bgcolor ↔ ¬(nDepth = 24 ∧ MistakenGrey bgcolor) := by
  rw [mistakenGrey_iff]
  unfold laidPixel
  by_cases grey : nDepth = 24 ∧ looksGrey bgcolor
  · obtain ⟨rfl, grey⟩ := grey
    rw [if_pos ⟨rfl, grey⟩]
    change [blueByte bgcolor, blueByte bgcolor, blueByte bgcolor] =
      [blueByte bgcolor, greenByte bgcolor, redByte bgcolor] ↔ _
    simp only [List.cons.injEq, and_true, true_and, grey, not_not]
    exact and_congr eq_comm eq_comm
  · rw [if_neg grey]
    exact iff_of_true rfl fun mistaken => grey ⟨mistaken.1, mistaken.2.1⟩

/-- With a buffer that can be accessed the colour decides. -/
theorem clearsTo_iff (depth : Depths info.bits_per_pixel)
    (reached : virtualMem fb nMemMap ≠ .null → accessible fb (virtualMem fb nMemMap) = true) :
    ClearsTo info fb bgcolor nMemMap ↔
      virtualMem fb nMemMap = .null ∨ ¬(info.bits_per_pixel = 24 ∧ MistakenGrey bgcolor) := by
  have size := laidPixel_length depth bgcolor
  rw [← laidPixel_right_iff]
  constructor
  · intro clears
    by_cases missing : virtualMem fb nMemMap = .null
    · exact Or.inl missing
    · let blank : Contents info :=
        ⟨fun _ => List.replicate info.memSize 0, fun _ => List.replicate info.memSize 0,
          fun _ => List.length_replicate, fun _ => List.length_replicate⟩
      obtain ⟨painted, after, returned, stored, _, pixels⟩ := clears missing blank
      rw [clearDevice_stores depth blank (reached missing)] at returned
      obtain rfl := store_injective returned stored
      have corner := pixels 0 info.width_pos 0 info.height_pos
      rw [pixel_laid size info.width_pos info.height_pos] at corner
      exact Or.inr (Option.some.inj corner)
  · rintro (missing | right) present contents
    · exact absurd missing present
    · obtain ⟨after, stored⟩ := @store_accessible _ (contents.display fb) (reached present)
        (List.replicate (info.yres * info.xres) (laidPixel info.bits_per_pixel bgcolor)).flatten
      refine ⟨_, after, (clearDevice_stores depth contents (reached present)).trans stored, stored,
        ?_, fun x inLine y inHeight => ?_⟩
      · rw [flatten_replicate_length, size, memSize_pixels]
      · rw [pixel_laid size inLine inHeight, right]

end Call

/-- In every reachable state of an open framebuffer, at the four depths. -/
theorem clear_paints_iff {screen : Screen} {picture : Type} {blank : picture}
    {history : List (Action picture)} {display : Display picture}
    (run : Runs (displaySystem screen blank) history display) (opened : display.fb.m_fd = true)
    (depth : Depths screen.info.bits_per_pixel) (bgcolor : BitVec 32) (nMemMap : Int) :
    ClearsTo screen.info display.fb bgcolor nMemMap ↔
      virtualMem display.fb nMemMap = .null ∨
        ¬(screen.info.bits_per_pixel = 24 ∧ MistakenGrey bgcolor) := by
  obtain ⟨sound, framed⟩ := runs_framed run
  exact clearsTo_iff depth (buffer_accessible sound (framed opened) opened)

/-! ### A screen of one pixel -/

def deepScreen : Screen where
  info := { xres := 1, yres := 1, bits_per_pixel := 24, smem_len := 3, sized := Nat.succ_pos 2 }
  room := Nat.le_refl 3

/-- An instance whose every call succeeds. -/
def deepDisplay : Display Nat :=
  openDisplay 0 none { panning true with info := deepScreen.info } dark

theorem deepDisplay_runs : Runs (displaySystem deepScreen 0)
    [.openBuffer none { panning true with info := deepScreen.info }] deepDisplay := by
  have begun : Runs (displaySystem deepScreen 0) [] dark := Runs.start rfl
  exact Runs.next begun ⟨rfl, rfl⟩

theorem clear_paints_grey : ClearsTo deepScreen.info deepDisplay.fb 0x808080 0 :=
  (clear_paints_iff deepDisplay_runs (by decide) (Or.inr (Or.inr (Or.inl rfl))) 0x808080 0).mpr
    (Or.inr fun mistaken => absurd mistaken.2 (by unfold MistakenGrey; decide))

/-- Red is taken for grey and becomes black. -/
theorem red_becomes_black : ¬ClearsTo deepScreen.info deepDisplay.fb 0xff0000 0 := by
  obtain ⟨sound, framed⟩ := runs_framed deepDisplay_runs
  rw [clearsTo_iff (Or.inr (Or.inr (Or.inl rfl)))
    (buffer_accessible sound (framed (by decide)) (by decide))]
  rintro (missing | right)
  · revert missing
    decide
  · exact right ⟨rfl, Or.inr (by decide)⟩

end BuildLinux.Concrete.FramebufferDrawing
