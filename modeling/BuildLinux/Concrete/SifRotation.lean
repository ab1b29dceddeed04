/-
The flipped picture of VideoGetSifRgbFrame against its picture turned by 90
degrees.

The 32-bit loop writes down the columns but reads forwards, so that the picture
is transposed and not turned.  The 16-bit loop reads backwards from two bytes
behind a pixel, where the second luma and the chroma of two pixels lie.  Both
step 240 pixels from a row of the turned picture to the next, whatever the width
of the screen, and correct the pointer behind a column with that width.  On a
screen the turned picture is therefore never shown; in a buffer of rows of 240
pixels the correction is right for a width of 320 only.
-/

import BuildLinux.Concrete.SifFrame

namespace BuildLinux.Concrete.SifRotation

open FramebufferColours PointerWalk SifFrame
open DisplayPipeline (IsInt)

/-- A pixel of either depth. -/
def pixelColour (nBps : Int) (frame : Int → Byte) (puyvy : Int) : BitVec 32 :=
  if nBps = 32 then colour32 frame puyvy else (colour16 frame puyvy).setWidth 32

/-- Which pixel of the 320x240 picture is in row `y` and column `x` of the turned one. -/
def turnedFrom (clockwise : Bool) (y x : Nat) : Nat × Nat :=
  if clockwise then (239 - x, y) else (x, 319 - y)

/-- The flipped output has rows at this pitch and is the other one turned. -/
structure ShowsTurned (colour : Int → BitVec 32) (clockwise : Bool) (pitch nWidth : Int)
    (upright flipped : List Pixel) : Prop where
  reads : ReadsInside flipped
  writes : ∀ pixel ∈ flipped, 0 ≤ pixel.target ∧ pixel.target < nWidth * 320
  only : ∀ pixel ∈ flipped, ∃ y : Nat, y < 320 ∧ ∃ x : Nat, x < 240 ∧
    pixel.target = y * pitch + x
  once : ∀ y : Nat, y < 320 → ∀ x : Nat, x < 240 →
    (flipped.map Pixel.target).count (y * pitch + x) = 1
  colours : ∀ output uprightOutput, ∀ y : Nat, y < 320 → ∀ x : Nat, x < 240 →
    rendered colour output flipped (y * pitch + x) =
      rendered colour uprightOutput upright
        ((turnedFrom clockwise y x).1 * nWidth + (turnedFrom clockwise y x).2)

def RotatesAt (frame : Int → Byte) (nWidth nBps pitch : Int) : Prop :=
  ∃ upright flipped, videoGetSifRgbFrame false nWidth nBps = some upright ∧
    videoGetSifRgbFrame true nWidth nBps = some flipped ∧
    ∃ clockwise, ShowsTurned (pixelColour nBps frame) clockwise pitch nWidth upright flipped

/-- Both outputs are pictures on a screen of `nWidth` columns. -/
def FlipRotates (frame : Int → Byte) (nWidth nBps : Int) : Prop :=
  RotatesAt frame nWidth nBps nWidth

/-- What the flipped loops add from a row to the next. -/
def rowShift (nWidth nBps : Int) : Int :=
  if nBps = 32 then nWidth - 319 else 76801 - 240 * nWidth

theorem flipped_target (nWidth nBps : Int) (row col : Nat) :
    (pixelAt true nWidth nBps row col).target = (col : Int) * 240 + row * rowShift nWidth nBps := by
  unfold pixelAt rowShift
  split <;> rfl

def flippedSource (nBps : Int) (row col : Nat) : Int :=
  if nBps = 32 then 2560 * row + 4 * col else 613118 - 2560 * row - 4 * col

theorem flipped_source (nWidth nBps : Int) (row col : Nat) :
    (pixelAt true nWidth nBps row col).source = flippedSource nBps row col := by
  unfold pixelAt flippedSource
  split <;> rfl

/-! ### On a screen -/

/-- The second pixel goes to column 240 of the first row. -/
theorem second_pixel_beside {nWidth : Int} (wide : 320 ≤ nWidth) (nBps : Int) (y x : Nat)
    (inCols : x < 240) : (pixelAt true nWidth nBps 0 1).target ≠ y * nWidth + x := by
  rw [flipped_target]
  rcases Nat.eq_zero_or_pos y with rfl | later
  · push_cast
    omega
  · have below : 1 * nWidth ≤ (y : Int) * nWidth :=
      Int.mul_le_mul_of_nonneg_right (by omega) (by omega)
    push_cast
    omega

theorem not_showsTurned {nWidth nBps : Int} (wide : 320 ≤ nWidth) {colour : Int → BitVec 32}
    {clockwise : Bool} {upright : List Pixel} :
    ¬ShowsTurned colour clockwise nWidth nWidth upright
      (grid 240 320 (pixelAt true nWidth nBps)) := by
  intro shown
  obtain ⟨y, _, x, inCols, place⟩ :=
    shown.only _ (mem_grid.mpr ⟨0, by decide, 1, by decide, rfl⟩)
  exact second_pixel_beside wide nBps y x inCols place

/-! ### At another pitch -/

section Width

variable {colour : Int → BitVec 32} {clockwise : Bool} {pitch nWidth nBps : Int}
  {upright : List Pixel}

/-- The second pixel of the first row has to be written. -/
theorem width_of_shown (wide : 320 ≤ nWidth)
    (shown : ShowsTurned colour clockwise pitch nWidth upright
      (grid 240 320 (pixelAt true nWidth nBps))) : nWidth = 320 := by
  by_cases deep : nBps = 32
  · have once := shown.once 0 (by decide) 1 (by decide)
    have member : ((0 : Nat) : Int) * pitch + ((1 : Nat) : Int) ∈
        (grid 240 320 (pixelAt true nWidth nBps)).map Pixel.target := by
      rw [← List.count_pos_iff, once]
      exact Nat.one_pos
    obtain ⟨pixel, inGrid, isSecond⟩ := List.mem_map.mp member
    obtain ⟨row, _, col, _, rfl⟩ := mem_grid.mp inGrid
    rw [flipped_target, rowShift, if_pos deep] at isSecond
    rcases Nat.eq_zero_or_pos row with rfl | later
    · push_cast at isSecond
      omega
    · have atLeast : 1 * (nWidth - 319) ≤ (row : Int) * (nWidth - 319) :=
        Int.mul_le_mul_of_nonneg_right (by omega) (by omega)
      push_cast at isSecond
      omega
  · have lowest := (shown.writes _ (mem_grid.mpr ⟨1, by decide, 0, by decide, rfl⟩)).1
    rw [flipped_target, rowShift, if_neg deep] at lowest
    push_cast at lowest
    omega

/-- At this width the flipped loops write every pixel of 320 rows of 240. -/
theorem target_320 (nBps : Int) (row col : Nat) :
    (pixelAt true 320 nBps row col).target = (col : Int) * 240 + row := by
  rw [flipped_target, rowShift]
  split <;> ring

theorem targets_nodup (nBps : Int) :
    ((grid 240 320 (pixelAt true 320 nBps)).map Pixel.target).Nodup := by
  rw [grid_map]
  refine grid_nodup fun row inRows col _ row' inRows' col' _ same => ?_
  rw [target_320, target_320] at same
  have places := pitch_injective (by omega) (by omega) same
  exact ⟨places.2, places.1⟩

theorem pitch_of_shown
    (shown : ShowsTurned colour clockwise pitch 320 upright
      (grid 240 320 (pixelAt true 320 nBps))) : pitch = 240 := by
  have bounded : ∀ y : Nat, y < 320 → ∀ x : Nat, x < 240 → (y : Int) * pitch + x < 76800 := by
    intro y inRows x inCols
    have member : (y : Int) * pitch + x ∈
        (grid 240 320 (pixelAt true 320 nBps)).map Pixel.target := by
      rw [← List.count_pos_iff, shown.once y inRows x inCols]
      exact Nat.one_pos
    obtain ⟨pixel, inGrid, isPlace⟩ := List.mem_map.mp member
    obtain ⟨row, inRows', col, inCols', rfl⟩ := mem_grid.mp inGrid
    rw [target_320] at isPlace
    omega
  have highest := bounded 319 (by decide) 239 (by decide)
  push_cast at highest
  obtain ⟨y, inRows, x, inCols, isLast⟩ :=
    shown.only _ (mem_grid.mpr ⟨239, by decide, 319, by decide, rfl⟩)
  rw [target_320] at isLast
  push_cast at isLast
  by_contra different
  have small : pitch ≤ 239 := by omega
  have below : (y : Int) * pitch ≤ (y : Int) * 239 :=
    Int.mul_le_mul_of_nonneg_left small (by omega)
  omega

end Width

/-! ### The colours -/

/-- The colours agree where the flipped loops read them and where they have to come from. -/
def ColoursTurn (frame : Int → Byte) (nBps : Int) (clockwise : Bool) : Prop :=
  ∀ y : Nat, y < 320 → ∀ x : Nat, x < 240 →
    pixelColour nBps frame (flippedSource nBps x y) =
      pixelColour nBps frame
        (if nBps = 32 then
          2560 * (turnedFrom clockwise y x).1 + 4 * (turnedFrom clockwise y x).2
        else 611840 - 2560 * (turnedFrom clockwise y x).1 + 4 * (turnedFrom clockwise y x).2)

theorem turnedFrom_inside (clockwise : Bool) {y x : Nat} (inRows : y < 320) (inCols : x < 240) :
    (turnedFrom clockwise y x).1 < 240 ∧ (turnedFrom clockwise y x).2 < 320 := by
  cases clockwise with
  | true => exact ⟨by change 239 - x < 240; omega, inRows⟩
  | false => exact ⟨inCols, by change 319 - y < 320; omega⟩

theorem flipped_pixel (nBps : Int) (colour output : Int → BitVec 32) {y x : Nat}
    (inRows : y < 320) (inCols : x < 240) :
    rendered colour output (grid 240 320 (pixelAt true 320 nBps)) (y * 240 + x) =
      colour (flippedSource nBps x y) := by
  have written := rendered_of_mem (targets_nodup nBps)
    (mem_grid.mpr ⟨x, inCols, y, inRows, rfl⟩) colour output
  rw [target_320, flipped_source] at written
  exact written

theorem shown_320_iff (frame : Int → Byte) (nBps : Int) (clockwise : Bool) :
    ShowsTurned (pixelColour nBps frame) clockwise 240 320
        (grid 240 320 (pixelAt false 320 nBps)) (grid 240 320 (pixelAt true 320 nBps)) ↔
      ColoursTurn frame nBps clockwise := by
  have place : ∀ (output uprightOutput : Int → BitVec 32) (y x : Nat), y < 320 → x < 240 →
      (rendered (pixelColour nBps frame) output (grid 240 320 (pixelAt true 320 nBps))
          (y * 240 + x) =
        rendered (pixelColour nBps frame) uprightOutput (grid 240 320 (pixelAt false 320 nBps))
          ((turnedFrom clockwise y x).1 * 320 + (turnedFrom clockwise y x).2) ↔
      pixelColour nBps frame (flippedSource nBps x y) =
        pixelColour nBps frame
          (if nBps = 32 then
            2560 * (turnedFrom clockwise y x).1 + 4 * (turnedFrom clockwise y x).2
          else
            611840 - 2560 * (turnedFrom clockwise y x).1 + 4 * (turnedFrom clockwise y x).2)) := by
    intro output uprightOutput y x inRows inCols
    obtain ⟨inUpright, inUprightCols⟩ := turnedFrom_inside clockwise inRows inCols
    rw [flipped_pixel nBps _ _ inRows inCols,
      upright_pixel (by decide) nBps _ _ inUpright inUprightCols]
  constructor
  · intro shown y inRows x inCols
    exact (place (fun _ => 0) (fun _ => 0) y x inRows inCols).mp
      (shown.colours (fun _ => 0) (fun _ => 0) y inRows x inCols)
  · intro turn
    constructor
    · exact reads_inside true 320 nBps
    · intro pixel member
      obtain ⟨row, inRows, col, inCols, rfl⟩ := mem_grid.mp member
      rw [target_320]
      omega
    · intro pixel member
      obtain ⟨row, inRows, col, inCols, rfl⟩ := mem_grid.mp member
      exact ⟨col, inCols, row, inRows, target_320 nBps row col⟩
    · intro y inRows x inCols
      exact count_one (targets_nodup nBps) (List.mem_map.mpr ⟨_,
        mem_grid.mpr ⟨x, inCols, y, inRows, rfl⟩, target_320 nBps x y⟩)
    · intro output uprightOutput y inRows x inCols
      exact (place output uprightOutput y x inRows inCols).mpr (turn y inRows x inCols)

/-- The sampled rows or the sampled columns read the same from both ends. -/
def MirrorImage (frame : Int → Byte) : Prop :=
  (∀ row : Nat, row < 240 → ∀ col : Nat, col < 320 →
    colour32 frame (2560 * row + 4 * col) = colour32 frame (2560 * (239 - row) + 4 * col)) ∨
  ∀ row : Nat, row < 240 → ∀ col : Nat, col < 320 →
    colour32 frame (2560 * row + 4 * col) = colour32 frame (2560 * row + 4 * (319 - col))

/-- Reading two bytes late gives the colours of the picture turned one way or the other. -/
def ShiftInvisible (frame : Int → Byte) : Prop :=
  (∀ row : Nat, row < 240 → ∀ col : Nat, col < 320 →
    colour16 frame (613118 - 2560 * row - 4 * col) = colour16 frame (2560 * row + 4 * col)) ∨
  ∀ row : Nat, row < 240 → ∀ col : Nat, col < 320 →
    colour16 frame (613118 - 2560 * row - 4 * col) =
      colour16 frame (613116 - 2560 * row - 4 * col)

theorem coloursTurn_deep (frame : Int → Byte) :
    (∃ clockwise, ColoursTurn frame 32 clockwise) ↔ MirrorImage frame := by
  rw [Bool.exists_bool, Or.comm]
  refine or_congr ?_ ?_
  · constructor
    · intro turn row inRows col inCols
      have same := turn col inCols row inRows
      simp only [pixelColour, flippedSource, turnedFrom, if_true,
        Nat.cast_sub (show row ≤ 239 by omega)] at same
      exact same
    · intro mirror y inRows x inCols
      have same := mirror x inCols y inRows
      simp only [pixelColour, flippedSource, turnedFrom, if_true,
        Nat.cast_sub (show x ≤ 239 by omega)]
      exact same
  · constructor
    · intro turn row inRows col inCols
      have same := turn col inCols row inRows
      simp only [pixelColour, flippedSource, turnedFrom, if_true, Bool.false_eq_true, if_false,
        Nat.cast_sub (show col ≤ 319 by omega)] at same
      exact same
    · intro mirror y inRows x inCols
      have same := mirror x inCols y inRows
      simp only [pixelColour, flippedSource, turnedFrom, if_true, Bool.false_eq_true, if_false,
        Nat.cast_sub (show y ≤ 319 by omega)]
      exact same

theorem coloursTurn_shallow (frame : Int → Byte) {nBps : Int} (shallow : nBps ≠ 32) :
    (∃ clockwise, ColoursTurn frame nBps clockwise) ↔ ShiftInvisible frame := by
  rw [Bool.exists_bool, Or.comm]
  refine or_congr ?_ ?_
  · have source : ∀ x y : Nat, x < 240 →
        611840 - 2560 * ((239 - x : Nat) : Int) + 4 * (y : Int) = 2560 * x + 4 * y := by omega
    constructor
    · intro turn row inRows col inCols
      have same := turn col inCols row inRows
      simp only [pixelColour, flippedSource, turnedFrom, if_neg shallow, if_true,
        source row col inRows] at same
      exact (widen_injective (by decide)).mp same
    · intro shift y inRows x inCols
      have same := shift x inCols y inRows
      simp only [pixelColour, flippedSource, turnedFrom, if_neg shallow, if_true,
        source x y inCols]
      exact (widen_injective (by decide)).mpr same
  · have source : ∀ x y : Nat, y < 320 →
        611840 - 2560 * (x : Int) + 4 * ((319 - y : Nat) : Int) = 613116 - 2560 * x - 4 * y := by
      omega
    constructor
    · intro turn row inRows col inCols
      have same := turn col inCols row inRows
      simp only [pixelColour, flippedSource, turnedFrom, if_neg shallow, Bool.false_eq_true,
        if_false, source row col inCols] at same
      exact (widen_injective (by decide)).mp same
    · intro shift y inRows x inCols
      have same := shift x inCols y inRows
      simp only [pixelColour, flippedSource, turnedFrom, if_neg shallow, Bool.false_eq_true,
        if_false, source x y inRows]
      exact (widen_injective (by decide)).mpr same

/-! ### Every frame and width -/

/-- The two outputs are those of the closed forms, where the flipped one is defined. -/
theorem rotatesAt_grids {frame : Int → Byte} {nWidth nBps pitch : Int} (wide : 320 ≤ nWidth) :
    RotatesAt frame nWidth nBps pitch ↔
      (nBps = 32 ∨ WidthFits true nWidth) ∧
        ∃ clockwise, ShowsTurned (pixelColour nBps frame) clockwise pitch nWidth
          (grid 240 320 (pixelAt false nWidth nBps)) (grid 240 320 (pixelAt true nWidth nBps)) := by
  unfold RotatesAt
  constructor
  · rintro ⟨upright, flipped, isUpright, isFlipped, shown⟩
    rw [upright_some wide] at isUpright
    rw [videoGetSifRgbFrame_eq (by omega)] at isFlipped
    obtain ⟨fits, isFlipped⟩ := Option.ite_none_right_eq_some.mp isFlipped
    obtain rfl := Option.some.inj isUpright
    obtain rfl := Option.some.inj isFlipped
    exact ⟨fits, shown⟩
  · rintro ⟨fits, shown⟩
    refine ⟨_, _, upright_some wide nBps, ?_, shown⟩
    rw [videoGetSifRgbFrame_eq (by omega), if_pos fits]

/-- On a screen of any width main passes, no frame is turned at either depth. -/
theorem flip_never_rotates (frame : Int → Byte) {nWidth : Int} (wide : 320 ≤ nWidth)
    (nBps : Int) : ¬FlipRotates frame nWidth nBps := by
  intro rotates
  obtain ⟨_, clockwise, shown⟩ := (rotatesAt_grids wide).mp rotates
  exact not_showsTurned wide shown

theorem flip_never_rotates_screen : ¬FlipRotates halves 640 16 :=
  flip_never_rotates halves (by decide) 16

/-- A grey picture of 32 bits on a screen 480 pixels wide. -/
theorem wide_screen_skews : ¬FlipRotates (fun _ => 128) 480 32 := by
  intro rotates
  obtain ⟨_, clockwise, shown⟩ := (rotatesAt_grids (by decide)).mp rotates
  exact not_showsTurned (by decide) shown

/-- Which frames the flipped loops turn when the output is a buffer of its own. -/
theorem rotates_packed_iff (frame : Int → Byte) {nWidth : Int} (wide : 320 ≤ nWidth)
    (nBps : Int) :
    (∃ pitch, RotatesAt frame nWidth nBps pitch) ↔
      nWidth = 320 ∧ if nBps = 32 then MirrorImage frame else ShiftInvisible frame := by
  have colours : (∃ clockwise, ColoursTurn frame nBps clockwise) ↔
      if nBps = 32 then MirrorImage frame else ShiftInvisible frame := by
    by_cases deep : nBps = 32
    · subst deep
      rw [if_pos rfl]
      exact coloursTurn_deep frame
    · rw [if_neg deep]
      exact coloursTurn_shallow frame deep
  rw [← colours]
  constructor
  · rintro ⟨pitch, rotates⟩
    obtain ⟨_, clockwise, shown⟩ := (rotatesAt_grids wide).mp rotates
    obtain rfl := width_of_shown wide shown
    obtain rfl := pitch_of_shown shown
    exact ⟨rfl, clockwise, (shown_320_iff frame nBps clockwise).mp shown⟩
  · rintro ⟨rfl, clockwise, turn⟩
    exact ⟨240, (rotatesAt_grids (by decide)).mpr ⟨Or.inr fun _ => by decide, clockwise,
      (shown_320_iff frame nBps clockwise).mpr turn⟩⟩

end BuildLinux.Concrete.SifRotation
