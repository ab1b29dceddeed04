/-
The rotation of the frame buffers in main of driver/drm/testcamera/main.cxx.

The program asks for a number of buffers, fills pScreen with them, and lets
VideoGetSifRgbFrame write one after the other.  The number is clamped to ten,
where pScreen has four entries; the offset into a buffer counts two bytes for
each pixel.  Clearing and showing a buffer leave the members that are read here.
-/

import BuildLinux.Concrete.FramebufferPanning
import BuildLinux.Concrete.SifRotation

namespace BuildLinux.Concrete.FrameRotation

open PointerWalk TransitionSystem
open Framebuffer FramebufferPanning
open SifFrame SifRotation
open DisplayPipeline (IsInt)

/-! ### The members behind the accessors -/

structure Members where
  m_nVirtualWidth : Int
  m_nVirtualHeight : Int
  m_nDepth : Int
  m_bFlip : Bool

def Members.screenWidth (fb : Members) : Int :=
  if fb.m_bFlip = false then fb.m_nVirtualWidth else fb.m_nVirtualHeight

def Members.screenHeight (fb : Members) : Int :=
  if fb.m_bFlip = false then fb.m_nVirtualHeight else fb.m_nVirtualWidth

def Members.flip (bFlip : Bool) (fb : Members) : Members := { fb with m_bFlip := bFlip }

/-- The size of the screen as `Open` finds it, if the sizes fit an int. -/
def openMembers (answers : OpenAnswers) : Option Members :=
  if openDevice answers.opens "/dev/fb".toList && answers.fscreeninfo && answers.vscreeninfo then
    if IsInt (answers.info.bits_per_pixel + 7) ∧ IsInt answers.info.memSize then
      some
        { m_nVirtualWidth := answers.info.xres
          m_nVirtualHeight := answers.info.yres
          m_nDepth := answers.info.bits_per_pixel
          m_bFlip := false }
    else none
  else some { m_nVirtualWidth := 0, m_nVirtualHeight := 0, m_nDepth := 0, m_bFlip := false }

/-! ### Before the loop -/

/-- The framebuffer behind its constructor. -/
def constructed (answers : OpenAnswers) : CFramebuffer := (openBuffer none answers untouched).1

/-- The number of frames, from the value of the argument. -/
def frameNum (argument : Option Int) : Int :=
  let nFrameNum := argument.getD 0
  if 10 < nFrameNum then 10 else nFrameNum

/-- `pScreen[nFrameNo] = fb.GetVirtualMemory(nFrameNo)`; the array has four entries. -/
def screenLoop (fb : CFramebuffer) :
    List (Fin 11) → (Fin 4 → Pointer) → Option (Fin 4 → Pointer)
  | [], pScreen => some pScreen
  | nFrameNo :: later, pScreen =>
      if inside : (nFrameNo : Nat) < 4 then
        screenLoop fb later
          (Function.update pScreen ⟨nFrameNo, inside⟩ (fb.m_pVirtualMem nFrameNo))
      else none

def centred (first second : Int) : Option Int :=
  let rows := (first - 240).tdiv 2 * second
  let start := rows + (second - 320).tdiv 2
  if IsInt rows ∧ IsInt start ∧ IsInt (start * 2) then some (start * 2) else none

def screenOffset (bFlip : Bool) (fb : Members) : Option Int :=
  if bFlip then centred fb.screenWidth fb.screenHeight
  else centred fb.screenHeight fb.screenWidth

/-- The variables that the capture loop only reads. -/
structure Rotation where
  fb : CFramebuffer
  members : Members
  bFlip : Bool
  nFrameNum : Int
  pScreen : Fin 4 → Pointer
  nScreenOffset : Int

/-- The program up to the capture loop; the second mallocs are those of its own
`ExtendVirtualMem`. -/
def enterCapture (argument : Option Int) (answers : OpenAnswers) (mallocs : Mallocs) :
    Option Rotation := do
  let nFrameNum := frameNum argument
  let fb := constructed answers
  let opened ← openMembers answers
  let bFlip := decide (opened.screenHeight = 272)
  let members := if bFlip then opened.flip true else opened
  let extended := if fb.m_fd then extendVirtualMem nFrameNum mallocs fb else fb
  let pScreen ←
    if fb.m_fd then
      screenLoop extended ((List.finRange 11).take nFrameNum.toNat) (fun _ => .null)
    else some fun _ => .null
  let nScreenOffset ← screenOffset bFlip members
  pure
    { fb := extended
      members := members
      bFlip := bFlip
      nFrameNum := nFrameNum
      pScreen := pScreen
      nScreenOffset := nScreenOffset }

/-! ### The capture loop -/

/-- The number of the next frame, if a picture came. -/
def captureStep (rotation : Rotation) (pFrame : Bool) (nFrameNo : Int) : Option Int :=
  if pFrame then
    if rotation.nFrameNum = 0 then none else some ((nFrameNo + 1).tmod rotation.nFrameNum)
  else some nFrameNo

def captureSystem (rotation : Rotation) : System Int Bool where
  Initial nFrameNo := nFrameNo = 0
  Step before pFrame after := captureStep rotation pFrame before = some after

def Rotation.nWidth (rotation : Rotation) : Int :=
  if rotation.bFlip then rotation.members.screenHeight else rotation.members.screenWidth

/-! ### What an iteration needs -/

/-- The bytes of one frame buffer; the mapping may end before its first frame does. -/
def bufferLength (fb : CFramebuffer) : Pointer → Nat
  | .null => 0
  | .frame _ j => min fb.m_nMemSize (fb.smem_len - j * fb.m_nMemSize)
  | .block _ => fb.m_nMemSize

def pixelSize (nBps : Int) : Int := if nBps = 32 then 4 else 2

/-- Every pixel that is written at the offset lies in the buffer. -/
def WritesInside (rotation : Rotation) (pointer : Pointer) : Prop :=
  ∃ pixels,
    videoGetSifRgbFrame (!rotation.bFlip) rotation.nWidth rotation.members.m_nDepth = some pixels ∧
      ∀ pixel ∈ pixels,
        0 ≤ rotation.nScreenOffset + pixelSize rotation.members.m_nDepth * pixel.target ∧
          rotation.nScreenOffset + pixelSize rotation.members.m_nDepth * pixel.target +
              pixelSize rotation.members.m_nDepth ≤
            bufferLength rotation.fb pointer

structure IterationSafe (rotation : Rotation) (nFrameNo : Int) : Prop where
  divides : rotation.nFrameNum ≠ 0
  entry : ∃ i : Fin 4, nFrameNo = i ∧ rotation.pScreen i ≠ .null ∧
    WritesInside rotation (rotation.pScreen i)

/-- The program comes to its capture loop, whose every iteration is safe. -/
def RotationSafe (argument : Option Int) (answers : OpenAnswers) (mallocs : Mallocs) : Prop :=
  ∃ rotation, enterCapture argument answers mallocs = some rotation ∧
    ∀ history nFrameNo, Runs (captureSystem rotation) history nFrameNo →
      IterationSafe rotation nFrameNo

/-! ### The buffers -/

theorem mem_first {count : Nat} {i : Fin 11} :
    i ∈ (List.finRange 11).take count ↔ (i : Nat) < count := by
  rw [List.mem_take_iff_getElem]
  constructor
  · rintro ⟨place, inside, here⟩
    rw [List.getElem_finRange] at here
    rw [← here]
    exact (lt_min_iff.mp inside).1
  · intro early
    exact ⟨i, lt_min early (by rw [List.length_finRange]; exact i.isLt), List.getElem_finRange _⟩

def widen (i : Fin 4) : Fin 11 := i.castLE (by decide)

/-- The loop fills the entries that it is asked for, all of them in the array. -/
theorem screenLoop_iff (fb : CFramebuffer) {indices : List (Fin 11)}
    {pScreen filled : Fin 4 → Pointer} :
    screenLoop fb indices pScreen = some filled ↔
      (∀ i ∈ indices, (i : Nat) < 4) ∧
        ∀ j, (widen j ∈ indices → filled j = fb.m_pVirtualMem (widen j)) ∧
          (widen j ∉ indices → filled j = pScreen j) := by
  induction indices generalizing pScreen with
  | nil =>
      constructor
      · intro filled
        obtain rfl := Option.some.inj filled
        exact ⟨nofun, fun j => ⟨nofun, fun _ => rfl⟩⟩
      · rintro ⟨_, same⟩
        exact congrArg some (funext fun j => ((same j).2 nofun).symm)
  | cons i later ih =>
      unfold screenLoop
      rw [List.forall_mem_cons]
      by_cases inside : (i : Nat) < 4
      · rw [dif_pos inside, ih, and_iff_right inside]
        refine and_congr_right fun _ => forall_congr' fun j => ?_
        rw [List.mem_cons]
        by_cases here : j = ⟨i, inside⟩
        · subst here
          rw [Function.update_self, show widen ⟨i, inside⟩ = i from rfl,
            Classical.imp_and_neg_imp_iff]
          exact ⟨fun same => ⟨fun _ => same, fun other => absurd (Or.inl rfl) other⟩,
            fun both => both.1 (Or.inl rfl)⟩
        · have other : widen j ≠ i := by
            intro same
            have value : (widen j : Nat) = i := by rw [same]
            exact here (Fin.ext value)
          rw [Function.update_of_ne here, or_iff_right other]
      · rw [dif_neg inside]
        exact ⟨nofun, fun all => absurd all.1.1 inside⟩

/-- The entries behind the loop: the first buffers, nothing behind them. -/
def screens (fb : CFramebuffer) (nFrameNum : Int) (i : Fin 4) : Pointer :=
  if (i : Int) < nFrameNum then fb.m_pVirtualMem (widen i) else .null

theorem screens_present {fb : CFramebuffer} {nFrameNum : Int} {i : Fin 4}
    (early : (i : Int) < nFrameNum) : screens fb nFrameNum i = fb.m_pVirtualMem (widen i) :=
  if_pos early

theorem screenLoop_first (fb : CFramebuffer) {nFrameNum : Int} {filled : Fin 4 → Pointer} :
    screenLoop fb ((List.finRange 11).take nFrameNum.toNat) (fun _ => .null) = some filled ↔
      nFrameNum ≤ 4 ∧ filled = screens fb nFrameNum := by
  have inArray : (∀ i ∈ (List.finRange 11).take nFrameNum.toNat, (i : Nat) < 4) ↔
      nFrameNum ≤ 4 := by
    constructor
    · intro inArray
      by_contra many
      exact absurd (inArray 4 (mem_first.mpr (by change 4 < _; omega))) (by decide)
    · intro few i member
      have early := mem_first.mp member
      omega
  have early (j : Fin 4) :
      widen j ∈ (List.finRange 11).take nFrameNum.toNat ↔ (j : Int) < nFrameNum := by
    rw [mem_first]
    change (j : Nat) < _ ↔ _
    omega
  rw [screenLoop_iff, inArray]
  simp only [early]
  refine and_congr_right fun _ => ⟨fun entries => funext fun j => ?_, ?_⟩
  · unfold screens
    split
    · next present => exact (entries j).1 present
    · next missing => exact (entries j).2 missing
  · rintro rfl j
    exact ⟨fun present => if_pos present, fun missing => if_neg missing⟩

/-! ### The runs of the loop -/

/-- The number of the next frame stays below the number of frames. -/
theorem runs_below {rotation : Rotation} (positive : 0 < rotation.nFrameNum) {history : List Bool}
    {nFrameNo : Int} (run : Runs (captureSystem rotation) history nFrameNo) :
    0 ≤ nFrameNo ∧ nFrameNo < rotation.nFrameNum := by
  apply run.invariant fun _ nFrameNo => 0 ≤ nFrameNo ∧ nFrameNo < rotation.nFrameNum
  · rintro _ rfl
    exact ⟨Int.le_refl 0, positive⟩
  · intro _ before pFrame after _ below step
    change captureStep rotation pFrame before = some after at step
    unfold captureStep at step
    cases pFrame with
    | true =>
        rw [if_pos rfl, if_neg (by omega)] at step
        cases step
        exact ⟨Int.tmod_nonneg _ (by omega), Int.tmod_lt_of_pos _ positive⟩
    | false =>
        cases step
        exact below

/-- As many pictures come to every frame. -/
theorem runs_reach {rotation : Rotation} (i : Nat) (below : (i : Int) < rotation.nFrameNum) :
    ∃ history, Runs (captureSystem rotation) history i := by
  induction i with
  | zero => exact ⟨[], Runs.start rfl⟩
  | succ i ih =>
      obtain ⟨history, run⟩ := ih (by omega)
      refine ⟨true :: history, Runs.next run ?_⟩
      change captureStep rotation true i = some _
      unfold captureStep
      rw [if_pos rfl, if_neg (by omega), Int.tmod_eq_of_lt (by omega) (by omega)]
      rfl

/-! ### An open screen -/

section Opened

variable {argument : Option Int} {answers : OpenAnswers} {mallocs : Mallocs}
  {pScreen : Fin 4 → Pointer} {nScreenOffset : Int}

theorem constructed_open (answers : OpenAnswers) :
    (constructed answers).m_fd = answers.works "/dev/fb".toList := by
  unfold constructed
  cases works : answers.works "/dev/fb".toList with
  | true =>
      obtain ⟨pointers, count, result⟩ := @openBuffer_works untouched none answers rfl works
      rw [result]
      rfl
  | false =>
      obtain ⟨members, num, size, smem_len, result⟩ :=
        @openBuffer_fails untouched none answers rfl works
      rw [result]
      rfl

/-- The variables of the loop on an open screen of this size. -/
def rotationOf (argument : Option Int) (answers : OpenAnswers) (mallocs : Mallocs)
    (pScreen : Fin 4 → Pointer) (nScreenOffset : Int) : Rotation where
  fb := extendVirtualMem (frameNum argument) mallocs (constructed answers)
  members :=
    { m_nVirtualWidth := answers.info.xres
      m_nVirtualHeight := answers.info.yres
      m_nDepth := answers.info.bits_per_pixel
      m_bFlip := decide (answers.info.yres = 272) }
  bFlip := decide (answers.info.yres = 272)
  nFrameNum := frameNum argument
  pScreen := pScreen
  nScreenOffset := nScreenOffset

theorem rotationOf_nWidth :
    (rotationOf argument answers mallocs pScreen nScreenOffset).nWidth = answers.info.xres := by
  unfold Rotation.nWidth rotationOf Members.screenWidth Members.screenHeight
  by_cases tall : answers.info.yres = 272
  · simp only [tall, decide_true, if_true, Bool.true_eq_false, if_false]
  · simp only [tall, decide_false, Bool.false_eq_true, if_false, if_true]

/-- Either orientation centres the picture in the screen as it lies in memory. -/
theorem enterCapture_works (works : answers.works "/dev/fb".toList = true)
    (depthFits : IsInt (answers.info.bits_per_pixel + 7)) (sizeFits : IsInt answers.info.memSize) :
    enterCapture argument answers mallocs =
      (screenLoop (extendVirtualMem (frameNum argument) mallocs (constructed answers))
        ((List.finRange 11).take (frameNum argument).toNat) fun _ => .null).bind fun pScreen =>
          (centred answers.info.yres answers.info.xres).map
            (rotationOf argument answers mallocs pScreen) := by
  have isOpen := (constructed_open answers).trans works
  unfold OpenAnswers.works at works
  rw [Bool.and_eq_true] at works
  unfold enterCapture openMembers rotationOf
  rw [if_pos works.1, if_pos ⟨depthFits, sizeFits⟩]
  simp only [isOpen, if_true, Option.bind_eq_bind, Option.bind_some, screenOffset,
    Members.screenWidth, Members.screenHeight, Members.flip]
  by_cases tall : answers.info.yres = 272
  · simp [tall, Option.map_eq_bind]
  · have notTall : ¬(answers.info.yres : Int) = 272 := by omega
    simp [tall, notTall, Option.map_eq_bind]

/-! ### The pixels in the buffer -/

/-- What a row and a column of the picture add to the address, in bytes. -/
def rowBytes (info : ScreenInfo) : Int :=
  pixelSize info.bits_per_pixel *
    if info.yres = 272 then (info.xres : Int) else rowShift info.xres info.bits_per_pixel

def colBytes (info : ScreenInfo) : Int :=
  pixelSize info.bits_per_pixel * if info.yres = 272 then 1 else 240

/-- The bytes from the lowest to the highest pixel lie in so many bytes. -/
structure BytesFit (info : ScreenInfo) (nScreenOffset : Int) (length : Nat) : Prop where
  low : 0 ≤ nScreenOffset + min 0 (239 * rowBytes info)
  high : nScreenOffset + max 0 (239 * rowBytes info) + 319 * colBytes info +
    pixelSize info.bits_per_pixel ≤ length

theorem target_bytes (info : ScreenInfo) (row col : Nat) :
    pixelSize info.bits_per_pixel *
        (pixelAt (!decide (info.yres = 272)) info.xres info.bits_per_pixel row col).target =
      row * rowBytes info + col * colBytes info := by
  unfold rowBytes colBytes
  by_cases tall : info.yres = 272
  · rw [decide_eq_true tall, Bool.not_true, upright_target, if_pos tall, if_pos tall]
    ring
  · rw [decide_eq_false tall, Bool.not_false, flipped_target, if_neg tall, if_neg tall]
    ring

theorem colBytes_nonneg (info : ScreenInfo) : 0 ≤ colBytes info := by
  unfold colBytes pixelSize
  split <;> split <;> decide

theorem bytesFit_iff (info : ScreenInfo) (nScreenOffset : Int) (length : Nat) :
    BytesFit info nScreenOffset length ↔
      ∀ row : Nat, row < 240 → ∀ col : Nat, col < 320 →
        0 ≤ nScreenOffset + (row * rowBytes info + col * colBytes info) ∧
          nScreenOffset + (row * rowBytes info + col * colBytes info) +
            pixelSize info.bits_per_pixel ≤ length := by
  have nonneg := colBytes_nonneg info
  have corners := @corners_iff (-nScreenOffset)
    (length - pixelSize info.bits_per_pixel - nScreenOffset) (rowBytes info) (colBytes info) 239 319
  constructor
  · rintro ⟨low, high⟩ row inRows col inCols
    have inside := corners.mpr (by push_cast; omega) row (by omega) col (by omega)
    omega
  · intro inside
    have bounds := corners.mp fun row inRows col inCols => by
      have here := inside row (by omega) col (by omega)
      omega
    push_cast at bounds
    exact ⟨by omega, by omega⟩

theorem writesInside_iff (pointer : Pointer) :
    WritesInside (rotationOf argument answers mallocs pScreen nScreenOffset) pointer ↔
      ((answers.info.bits_per_pixel : Int) = 32 ∨
          WidthFits (!decide (answers.info.yres = 272)) answers.info.xres) ∧
        BytesFit answers.info nScreenOffset
          (bufferLength (extendVirtualMem (frameNum argument) mallocs (constructed answers))
            pointer) := by
  have given : (answers.info.xres : Int) ≠ 0 := by
    have wide := answers.info.width_pos
    omega
  unfold WritesInside
  rw [rotationOf_nWidth]
  change (∃ pixels, videoGetSifRgbFrame (!decide (answers.info.yres = 272)) answers.info.xres
    answers.info.bits_per_pixel = some pixels ∧ ∀ pixel ∈ pixels,
      0 ≤ nScreenOffset + pixelSize answers.info.bits_per_pixel * pixel.target ∧
        nScreenOffset + pixelSize answers.info.bits_per_pixel * pixel.target +
          pixelSize answers.info.bits_per_pixel ≤ _) ↔ _
  rw [videoGetSifRgbFrame_eq given, bytesFit_iff]
  constructor
  · rintro ⟨pixels, written, inside⟩
    obtain ⟨fits, written⟩ := Option.ite_none_right_eq_some.mp written
    obtain rfl := Option.some.inj written
    refine ⟨fits, fun row inRows col inCols => ?_⟩
    rw [← target_bytes]
    exact inside _ (mem_grid.mpr ⟨row, inRows, col, inCols, rfl⟩)
  · rintro ⟨fits, inside⟩
    refine ⟨_, if_pos fits, fun pixel member => ?_⟩
    obtain ⟨row, inRows, col, inCols, rfl⟩ := mem_grid.mp member
    rw [target_bytes]
    exact inside row inRows col inCols

/-! ### The int arithmetic -/

/-- The offset of the centred picture: two bytes for each pixel. -/
def screenStart (info : ScreenInfo) : Int :=
  (((info.yres : Int) - 240).tdiv 2 * info.xres + ((info.xres : Int) - 320).tdiv 2) * 2

theorem half_bounds (value : Int) :
    value - 1 ≤ 2 * value.tdiv 2 ∧ 2 * value.tdiv 2 ≤ value + 1 := by
  have parts := Int.mul_tdiv_add_tmod value 2
  have below := Int.tmod_lt_of_pos value (show (0 : Int) < 2 by decide)
  have above := Int.lt_tmod_of_pos value (show (0 : Int) < 2 by decide)
  omega

theorem area_le (info : ScreenInfo) : (info.yres : Int) * info.xres ≤ info.memSize := by
  have area : info.xres * 1 * info.yres ≤ info.memSize :=
    Nat.mul_le_mul_right _ (Nat.mul_le_mul_left _
      (Nat.pos_of_mul_pos_left (Nat.pos_of_mul_pos_right info.sized)))
  rw [Nat.mul_one, Nat.mul_comm] at area
  exact_mod_cast area

/-- Where the start is not negative, no product leaves the range of int. -/
theorem centred_fits {info : ScreenInfo} (sizeFits : IsInt info.memSize)
    (nonneg : 0 ≤ screenStart info) : centred info.yres info.xres = some (screenStart info) := by
  have wide := info.width_pos
  have area := area_le info
  have heightHalf := half_bounds (info.yres - 240)
  have widthHalf := half_bounds (info.xres - 320)
  unfold centred
  dsimp only
  refine if_pos ?_
  unfold screenStart at nonneg
  unfold IsInt at sizeFits ⊢
  generalize ((info.yres : Int) - 240).tdiv 2 = half at nonneg heightHalf ⊢
  have above : 0 ≤ half := by
    by_contra negative
    have rows : half * info.xres ≤ -1 * info.xres :=
      Int.mul_le_mul_of_nonneg_right (by omega) (by omega)
    omega
  have rowsNonneg : 0 ≤ half * info.xres := Int.mul_nonneg above (by omega)
  have rowsBound : 2 * half * info.xres ≤ (info.yres - 240 + 1) * info.xres :=
    Int.mul_le_mul_of_nonneg_right heightHalf.2 (by omega)
  rw [Int.mul_assoc, Int.add_mul, Int.sub_mul] at rowsBound
  omega

theorem widthFits_of_low {info : ScreenInfo} (sizeFits : IsInt info.memSize)
    (low : 0 ≤ screenStart info + min 0 (239 * rowBytes info)) :
    (info.bits_per_pixel : Int) = 32 ∨ WidthFits (!decide (info.yres = 272)) info.xres := by
  by_cases deep : (info.bits_per_pixel : Int) = 32
  · exact Or.inl deep
  · refine Or.inr fun flipped => ?_
    have notTall : info.yres ≠ 272 := by simpa using flipped
    have started := centred_fits sizeFits (by omega : 0 ≤ screenStart info)
    obtain ⟨⟨_, _, startFits⟩, isStart⟩ := Option.ite_none_right_eq_some.mp started
    rw [Option.some.inj isStart] at startFits
    unfold rowBytes pixelSize rowShift at low
    rw [if_neg notTall, if_neg deep, if_neg deep] at low
    unfold IsInt at startFits ⊢
    omega

/-! ### The lengths of the buffers -/

/-- Every buffer is as long as a frame, but for the first one of a short mapping. -/
theorem buffer_lengths (works : answers.works "/dev/fb".toList = true) (nFrameNum : Int) :
    let fb := extendVirtualMem nFrameNum mallocs (constructed answers)
    bufferLength fb (fb.m_pVirtualMem 0) = min answers.info.memSize answers.info.smem_len ∧
      ∀ i, fb.m_pVirtualMem i ≠ .null →
        min answers.info.memSize answers.info.smem_len ≤
          bufferLength fb (fb.m_pVirtualMem i) := by
  intro fb
  have sound : Sound fb :=
    extendVirtualMem_sound nFrameNum mallocs (openBuffer_sound none answers untouched_sound)
  have isOpen : fb.m_fd = true := by
    rw [extendVirtualMem_fd, constructed_open, works]
  have framed : Framed answers.info fb :=
    (@openBuffer_framed untouched none answers rfl works).extend nFrameNum mallocs
  obtain ⟨k, _, front⟩ := sound.mapped isOpen
  constructor
  · rw [front 0 (Or.inl rfl)]
    change min fb.m_nMemSize (fb.smem_len - 0 * fb.m_nMemSize) = _
    rw [framed.size, framed.length, Nat.zero_mul, Nat.sub_zero]
  · intro i present
    cases pointer : fb.m_pVirtualMem i with
    | null => exact absurd pointer present
    | block b =>
        change _ ≤ fb.m_nMemSize
        rw [framed.size]
        exact Nat.min_le_left _ _
    | frame l j =>
        have inFront := sound.frames i l j pointer
        obtain ⟨_, rfl⟩ := Pointer.frame.inj ((front i inFront).symm.trans pointer)
        change _ ≤ min fb.m_nMemSize (fb.smem_len - i * fb.m_nMemSize)
        rw [framed.size, framed.length]
        rcases Nat.eq_zero_or_pos (i : Nat) with first | later
        · rw [first, Nat.zero_mul, Nat.sub_zero]
        · have early : (i : Nat) + 1 ≤ answers.info.smem_len / answers.info.memSize := by
            rcases inFront with rfl | early
            · exact absurd later (Nat.lt_irrefl 0)
            · have few := framed.few
              omega
          have sized : 0 < answers.info.memSize := answers.info.sized
          have room := (Nat.le_div_iff_mul_le sized).mp early
          rw [Nat.add_mul, Nat.one_mul] at room
          exact Nat.le_trans (Nat.min_le_left _ _) (le_min (Nat.le_refl _) (by omega))

/-! ### When the rotation is safe -/

/-- The device opens with sizes that fit an int; one to four frames are asked
for, each of which the device has or malloc gives; and the picture at its offset
fits the screen. -/
structure Prepared (argument : Option Int) (answers : OpenAnswers) (mallocs : Mallocs) : Prop where
  works : answers.works "/dev/fb".toList = true
  depthFits : IsInt (answers.info.bits_per_pixel + 7)
  sizeFits : IsInt answers.info.memSize
  number : 1 ≤ argument.getD 0 ∧ argument.getD 0 ≤ 4
  buffers : ∀ i : Fin 11, (i : Int) < argument.getD 0 →
    (constructed answers).m_pVirtualMem i ≠ .null ∨ mallocs i = true
  fits : BytesFit answers.info (screenStart answers.info)
    (min answers.info.memSize answers.info.smem_len)

theorem enterCapture_closed {rotation : Rotation} (closed : answers.works "/dev/fb".toList = false)
    (entered : enterCapture argument answers mallocs = some rotation) (i : Fin 4) :
    rotation.pScreen i = .null := by
  have isClosed := (constructed_open answers).trans closed
  unfold enterCapture at entered
  simp only [isClosed, Bool.false_eq_true, if_false, Option.bind_eq_bind, Option.bind_some,
    Option.bind_eq_some_iff] at entered
  obtain ⟨opened, _, nScreenOffset, _, entered⟩ := entered
  obtain rfl := Option.some.inj entered
  rfl

theorem enterCapture_fits {rotation : Rotation} (works : answers.works "/dev/fb".toList = true)
    (entered : enterCapture argument answers mallocs = some rotation) :
    IsInt (answers.info.bits_per_pixel + 7) ∧ IsInt answers.info.memSize := by
  unfold OpenAnswers.works at works
  rw [Bool.and_eq_true] at works
  unfold enterCapture at entered
  obtain ⟨opened, isOpened, _⟩ := Option.bind_eq_some_iff.mp entered
  unfold openMembers at isOpened
  rw [if_pos works.1] at isOpened
  exact (Option.ite_none_right_eq_some.mp isOpened).1

theorem extended_present (works : answers.works "/dev/fb".toList = true) {nFrameNum : Int}
    (few : nFrameNum ≤ 10) :
    (∀ i : Fin 11, (i : Int) < nFrameNum →
      (extendVirtualMem nFrameNum mallocs (constructed answers)).m_pVirtualMem i ≠ .null) ↔
      ∀ i : Fin 11, (i : Int) < nFrameNum →
        (constructed answers).m_pVirtualMem i ≠ .null ∨ mallocs i = true := by
  have isOpen := (constructed_open answers).trans works
  have requested (i : Fin 11) :
      i ∈ (List.finRange 11).take (min nFrameNum 10).toNat ↔ (i : Int) < nFrameNum := by
    rw [mem_first]
    omega
  have present := extendLoop_present mallocs ((List.finRange 11).take (min nFrameNum 10).toNat)
    (constructed answers)
  simp only [requested] at present
  unfold extendVirtualMem
  rw [if_neg (by rw [isOpen]; nofun)]
  exact present

theorem frameNum_eq (argument : Option Int) : frameNum argument = min (argument.getD 0) 10 := by
  unfold frameNum
  dsimp only
  split <;> omega

theorem BytesFit.longer {info : ScreenInfo} {length more : Nat}
    (fits : BytesFit info nScreenOffset length) (longer : length ≤ more) :
    BytesFit info nScreenOffset more :=
  ⟨fits.low, Int.le_trans fits.high (Int.ofNat_le.mpr longer)⟩

theorem Prepared.safe (prepared : Prepared argument answers mallocs) :
    RotationSafe argument answers mallocs := by
  obtain ⟨works, depthFits, sizeFits, ⟨some, few⟩, buffers, fits⟩ := prepared
  have clamped := frameNum_eq argument
  have asked : frameNum argument = argument.getD 0 := by omega
  let fb := extendVirtualMem (frameNum argument) mallocs (constructed answers)
  have present : ∀ i : Fin 11, (i : Int) < frameNum argument → fb.m_pVirtualMem i ≠ .null := by
    apply (extended_present works (by omega)).mpr
    rw [asked]
    exact buffers
  have filled := (screenLoop_first fb).mpr ⟨(by omega : frameNum argument ≤ 4), rfl⟩
  have nonneg : 0 ≤ screenStart answers.info := by
    have low := fits.low
    omega
  refine ⟨rotationOf argument answers mallocs (screens fb (frameNum argument))
    (screenStart answers.info), ?_, ?_⟩
  · rw [enterCapture_works works depthFits sizeFits, filled, Option.bind_some,
      centred_fits sizeFits nonneg]
    rfl
  · intro history nFrameNo run
    have below : 0 ≤ nFrameNo ∧ nFrameNo < frameNum argument :=
      runs_below (by change 0 < frameNum argument; omega) run
    obtain ⟨i, rfl⟩ := Int.eq_ofNat_of_zero_le below.1
    have inArray : i < 4 := by omega
    have buffer := present (widen ⟨i, inArray⟩) below.2
    constructor
    · change frameNum argument ≠ 0
      omega
    · refine ⟨⟨i, inArray⟩, rfl, ?_, ?_⟩
      · change screens fb (frameNum argument) ⟨i, inArray⟩ ≠ .null
        rw [screens_present below.2]
        exact buffer
      · change WritesInside _ (screens fb (frameNum argument) ⟨i, inArray⟩)
        rw [writesInside_iff, screens_present below.2]
        exact ⟨widthFits_of_low sizeFits fits.low,
          fits.longer ((buffer_lengths works _).2 _ buffer)⟩

/-- The first iteration needs the first buffer and tells the size; every buffer
is reached by a run. -/
theorem RotationSafe.prepared (safe : RotationSafe argument answers mallocs) :
    Prepared argument answers mallocs := by
  obtain ⟨rotation, entered, safe⟩ := safe
  have first := safe [] 0 (Runs.start rfl)
  cases works : answers.works "/dev/fb".toList with
  | false =>
      obtain ⟨i, _, present, _⟩ := first.entry
      exact absurd (enterCapture_closed works entered i) present
  | true =>
      obtain ⟨depthFits, sizeFits⟩ := enterCapture_fits works entered
      rw [enterCapture_works works depthFits sizeFits] at entered
      obtain ⟨pScreen, filled, entered⟩ := Option.bind_eq_some_iff.mp entered
      obtain ⟨nScreenOffset, started, rfl⟩ := Option.map_eq_some_iff.mp entered
      obtain ⟨few, rfl⟩ := (screenLoop_first _).mp filled
      have isStart : nScreenOffset = screenStart answers.info :=
        (Option.some.inj (Option.ite_none_right_eq_some.mp started).2).symm
      obtain ⟨i, isFirst, present, inside⟩ := first.entry
      obtain rfl : i = 0 := Fin.ext (by omega)
      have some : 0 < frameNum argument := by
        by_contra none
        exact present (if_neg none)
      have clamped := frameNum_eq argument
      have asked : frameNum argument = argument.getD 0 := by omega
      change WritesInside _ (screens _ (frameNum argument) 0) at inside
      rw [screens_present some, writesInside_iff] at inside
      have fits := inside.2
      rw [show widen 0 = 0 from rfl, (buffer_lengths works _).1, isStart] at fits
      refine ⟨works, depthFits, sizeFits, ⟨by omega, by omega⟩, ?_, fits⟩
      rw [← asked]
      refine (extended_present works (by omega)).mp fun i early missing => ?_
      obtain ⟨history, run⟩ := @runs_reach (rotationOf argument answers mallocs _ nScreenOffset)
        i early
      obtain ⟨j, same, held, _⟩ := (safe history i run).entry
      obtain rfl : i = widen j := Fin.ext (by change (i : Nat) = j; omega)
      exact held ((screens_present early).trans missing)

theorem rotation_safe_iff (argument : Option Int) (answers : OpenAnswers) (mallocs : Mallocs) :
    RotationSafe argument answers mallocs ↔ Prepared argument answers mallocs :=
  ⟨RotationSafe.prepared, Prepared.safe⟩

end Opened

/-! ### A screen of 480x272 pixels -/

/-- Two frames of 16 bits; every call succeeds. -/
def wideScreen : OpenAnswers where
  opens _ := true
  fscreeninfo := true
  vscreeninfo := true
  info := { xres := 480, yres := 272, bits_per_pixel := 16, smem_len := 522240, sized := by decide }
  mmap := true
  pan _ := true
  mallocs _ := true

theorem rotation_safe_wide : RotationSafe (some 2) wideScreen fun _ => true :=
  (rotation_safe_iff (some 2) wideScreen fun _ => true).mpr
    ⟨by decide, by decide, by decide, by decide, fun _ _ => Or.inr rfl, by decide, by decide⟩

/-- Without an argument no frame is asked for. -/
theorem no_frames_unsafe : ¬RotationSafe none wideScreen fun _ => true := by
  intro safe
  exact absurd safe.prepared.number.1 (by decide)

end BuildLinux.Concrete.FrameRotation
