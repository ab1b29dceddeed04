/-
VideoGetD1YFrame of driver/drm/testcamera/video.cxx: the luma picture of a YUYV
frame, upside down or turned.

Both orientations are one loop nest.  Behind each row the turned picture moves
its write pointer back by the picture but one byte; the other one moves its read
pointer back by two pictures, where two rows would do.  The loops run when a
frame was dequeued; offsets count from the start of that frame and of the output.
-/

import BuildLinux.PointerWalk
import BuildLinux.Concrete.DisplayPipeline

namespace BuildLinux.Concrete.LumaFrame

open PointerWalk
open DisplayPipeline (IsInt)

/-- `pY` and `pYuv` as offsets. -/
structure Cursor where
  pY : Int
  pYuv : Int
  deriving DecidableEq, Repr

/-- `*pY = *pYuv` at the offsets. -/
structure Move where
  target : Int
  source : Int
  deriving DecidableEq, Repr

def Cursor.move (here : Cursor) : Move where
  target := here.pY
  source := here.pYuv

/-- Behind each pixel. -/
def stepPixel (bFlip : Bool) (vheight : Int) (here : Cursor) : Cursor :=
  if bFlip then { pY := here.pY + vheight, pYuv := here.pYuv - 2 }
  else { pY := here.pY + 1, pYuv := here.pYuv + 2 }

/-- Behind each row. -/
def turnRow (bFlip : Bool) (vwidth vheight : Int) (here : Cursor) : Cursor :=
  if bFlip then { here with pY := here.pY - (vwidth * vheight - 1) }
  else { here with pYuv := here.pYuv - vwidth * vheight * 2 * 2 }

def startCursor (bFlip : Bool) (vwidth vheight : Int) : Cursor where
  pY := 0
  pYuv := if bFlip then (vwidth * vheight - 1) * 2 else vwidth * (vheight - 1) * 2

/-- The products that the loops compute are ints. -/
def ProductsFit (bFlip : Bool) (vwidth vheight : Int) : Prop :=
  if bFlip then IsInt (vwidth * vheight) ∧ IsInt ((vwidth * vheight - 1) * 2)
  else
    IsInt (vwidth * (vheight - 1)) ∧ IsInt (vwidth * (vheight - 1) * 2) ∧
      IsInt (vwidth * vheight) ∧ IsInt (vwidth * vheight * 2) ∧ IsInt (vwidth * vheight * 2 * 2)

instance (bFlip : Bool) (vwidth vheight : Int) : Decidable (ProductsFit bFlip vwidth vheight) := by
  unfold ProductsFit
  infer_instance

/-- The moves in their order; nothing is defined where a product overflows. -/
def videoGetD1YFrame (bFlip : Bool) (vwidth vheight : Nat) : Option (List Move) :=
  if ProductsFit bFlip vwidth vheight then
    some
      (walk (stepPixel bFlip vheight) (turnRow bFlip vwidth vheight) Cursor.move vwidth vheight
        (startCursor bFlip vwidth vheight))
  else none

/-- The output behind the moves. -/
def moved (frame output : Int → BitVec 8) (moves : List Move) : Int → BitVec 8 :=
  applyWrites output (moves.map fun move => (move.target, frame move.source))

/-! ### The picture -/

/-- `N(row j, col i)`: the luma of the source pixel in row `vh - 1 - j` and column `i`. -/
def uprightLuma (frame : Int → BitVec 8) (vwidth vheight j i : Nat) : BitVec 8 :=
  frame (2 * (((vheight : Int) - 1 - j) * vwidth + i))

/-- The moves make the picture: `N` itself, or `F(row i, col j) = N(row j, col vw - 1 - i)`. -/
structure MakesPicture (bFlip : Bool) (vwidth vheight : Nat) (moves : List Move) : Prop where
  reads : ∀ move ∈ moves, 0 ≤ move.source ∧ move.source < 2 * ((vwidth : Int) * vheight)
  writes : ∀ move ∈ moves, 0 ≤ move.target ∧ move.target < (vwidth : Int) * vheight
  once : ∀ target : Int, 0 ≤ target → target < (vwidth : Int) * vheight →
    (moves.map Move.target).count target = 1
  picture : ∀ frame output, ∀ j < vheight, ∀ i < vwidth,
    if bFlip then
      moved frame output moves (i * vheight + j) =
        uprightLuma frame vwidth vheight j (vwidth - 1 - i)
    else moved frame output moves (j * vwidth + i) = uprightLuma frame vwidth vheight j i

def LumaExtracted (bFlip : Bool) (vwidth vheight : Nat) : Prop :=
  ∃ moves, videoGetD1YFrame bFlip vwidth vheight = some moves ∧
    MakesPicture bFlip vwidth vheight moves

/-! ### The pointers in closed form -/

/-- The pointers at a row and a column. -/
def cursorAt (bFlip : Bool) (vwidth vheight : Int) (row col : Nat) : Cursor :=
  if bFlip then
    { pY := col * vheight + row
      pYuv := (vwidth * vheight - 1 - (row * vwidth + col)) * 2 }
  else
    { pY := row * vwidth + col
      pYuv := vwidth * (vheight - 1) * 2 - row * (vwidth * vheight * 2 * 2 - vwidth * 2) + col * 2 }

theorem moves_eq_grid (bFlip : Bool) (vwidth vheight : Nat) :
    walk (stepPixel bFlip vheight) (turnRow bFlip vwidth vheight) Cursor.move vwidth vheight
        (startCursor bFlip vwidth vheight) =
      grid vheight vwidth fun row col => (cursorAt bFlip vwidth vheight row col).move := by
  have start : startCursor bFlip vwidth vheight = cursorAt bFlip vwidth vheight 0 0 := by
    cases bFlip <;> simp [startCursor, cursorAt]
  rw [start]
  refine walk_eq_grid (fun row col => ?_) (fun row => ?_) vheight
  · cases bFlip <;> simp only [stepPixel, cursorAt, if_true, Bool.false_eq_true, if_false,
      Cursor.mk.injEq] <;> constructor <;> push_cast <;> ring
  · cases bFlip <;> simp only [turnRow, cursorAt, if_true, Bool.false_eq_true, if_false,
      Cursor.mk.injEq] <;> constructor <;> push_cast <;> ring

theorem moved_of_mem {moves : List Move} (distinct : (moves.map Move.target).Nodup)
    {move : Move} (member : move ∈ moves) (frame output : Int → BitVec 8) :
    moved frame output moves move.target = frame move.source := by
  have addresses : ((moves.map fun move => (move.target, frame move.source)).map Prod.fst).Nodup :=
    by rwa [List.map_map]
  exact applyWrites_of_mem addresses (List.mem_map_of_mem member)

/-! ### The turned picture -/

section Turned

variable {vwidth vheight : Nat}

theorem turned_target (row col : Nat) :
    (cursorAt true vwidth vheight row col).move.target = (col : Int) * vheight + row := rfl

theorem turned_source (row col : Nat) :
    (cursorAt true vwidth vheight row col).move.source =
      ((vwidth : Int) * vheight - 1 - ((row : Int) * vwidth + col)) * 2 := rfl

theorem turned_targets_nodup :
    ((grid vheight vwidth fun row col => (cursorAt true vwidth vheight row col).move).map
      Move.target).Nodup := by
  rw [grid_map]
  refine grid_nodup fun row inRows col _ row' inRows' col' _ same => ?_
  have places := pitch_injective (by omega) (by omega) same
  exact ⟨places.2, places.1⟩

theorem turned_picture :
    MakesPicture true vwidth vheight
      (grid vheight vwidth fun row col => (cursorAt true vwidth vheight row col).move) := by
  constructor
  · intro move member
    obtain ⟨row, inRows, col, inCols, rfl⟩ := mem_grid.mp member
    have bounds := pitch_bounds inRows (show (col : Int) < vwidth by omega)
    rw [turned_source, Int.mul_comm (vwidth : Int)]
    omega
  · intro move member
    obtain ⟨row, inRows, col, inCols, rfl⟩ := mem_grid.mp member
    rw [turned_target]
    exact pitch_bounds inCols (by omega)
  · intro target nonneg below
    refine count_one turned_targets_nodup ?_
    obtain ⟨col, inCols, row, inRows, rfl⟩ := pitch_surjective nonneg below
    exact List.mem_map.mpr ⟨_, mem_grid.mpr ⟨row, inRows, col, inCols, rfl⟩, rfl⟩
  · intro frame output j inRows i inCols
    rw [if_pos rfl]
    refine (moved_of_mem turned_targets_nodup
      (mem_grid.mpr ⟨j, inRows, i, inCols, rfl⟩) frame output).trans (congrArg frame ?_)
    rw [turned_source]
    push_cast [Nat.sub_sub, Nat.cast_sub (show 1 + i ≤ vwidth by omega)]
    ring

end Turned

/-! ### The upright picture -/

section Upright

variable {vwidth vheight : Nat}

theorem upright_target (row col : Nat) :
    (cursorAt false vwidth vheight row col).move.target = (row : Int) * vwidth + col := rfl

theorem upright_source (row col : Nat) :
    (cursorAt false vwidth vheight row col).move.source =
      (vwidth : Int) * ((vheight : Int) - 1) * 2 -
        row * ((vwidth : Int) * vheight * 2 * 2 - (vwidth : Int) * 2) + (col : Int) * 2 := rfl

/-- With two rows the second is read in front of the frame. -/
theorem upright_reads_outside (wide : 1 ≤ vwidth) (rows : 2 ≤ vheight) :
    ¬MakesPicture false vwidth vheight
      (grid vheight vwidth fun row col => (cursorAt false vwidth vheight row col).move) := by
  intro makes
  have read := (makes.reads _ (mem_grid.mpr ⟨1, rows, 0, wide, rfl⟩)).1
  have pixels : 0 < (vwidth : Int) * vheight := Int.mul_pos (by omega) (by omega)
  rw [upright_source] at read
  have before : (vwidth : Int) * ((vheight : Int) - 1) * 2 -
      ((1 : Nat) : Int) * ((vwidth : Int) * vheight * 2 * 2 - (vwidth : Int) * 2) +
        ((0 : Nat) : Int) * 2 = -(2 * ((vwidth : Int) * vheight)) := by
    push_cast
    ring
  omega

theorem upright_row (vwidth : Nat) :
    MakesPicture false vwidth 1
      (grid 1 vwidth fun row col => (cursorAt false vwidth (1 : Nat) row col).move) := by
  have targets : ((grid 1 vwidth fun row col =>
      (cursorAt false vwidth (1 : Nat) row col).move).map Move.target).Nodup := by
    rw [grid_map]
    refine grid_nodup fun row _ col inCols row' _ col' inCols' same => ?_
    exact pitch_injective (by omega) (by omega) same
  have source : ∀ col : Nat, (cursorAt false vwidth (1 : Nat) 0 col).move.source = 2 * col := by
    intro col
    rw [upright_source]
    push_cast
    ring
  constructor
  · intro move member
    obtain ⟨row, inRows, col, inCols, rfl⟩ := mem_grid.mp member
    obtain rfl : row = 0 := by omega
    rw [source]
    omega
  · intro move member
    obtain ⟨row, inRows, col, inCols, rfl⟩ := mem_grid.mp member
    have bounds := pitch_bounds inRows (show (col : Int) < vwidth by omega)
    rw [upright_target, Int.mul_comm (vwidth : Int)]
    exact bounds
  · intro target nonneg below
    refine count_one targets ?_
    rw [Int.mul_comm] at below
    obtain ⟨row, inRows, col, inCols, rfl⟩ := pitch_surjective nonneg below
    exact List.mem_map.mpr ⟨_, mem_grid.mpr ⟨row, inRows, col, inCols, rfl⟩, rfl⟩
  · intro frame output j inRows i inCols
    rw [if_neg Bool.false_ne_true]
    obtain rfl : j = 0 := by omega
    refine (moved_of_mem targets (mem_grid.mpr ⟨0, inRows, i, inCols, rfl⟩) frame output).trans
      (congrArg frame ?_)
    rw [source]
    push_cast
    ring

end Upright

/-! ### Every size -/

theorem productsFit_turned {vwidth vheight : Nat} (wide : 1 ≤ vwidth) (high : 1 ≤ vheight) :
    ProductsFit true vwidth vheight ↔ IsInt (((vwidth : Int) * vheight - 1) * 2) := by
  have pixels : 0 < (vwidth : Int) * vheight := Int.mul_pos (by omega) (by omega)
  unfold ProductsFit IsInt
  rw [if_pos rfl]
  omega

theorem productsFit_row (vwidth : Nat) :
    ProductsFit false vwidth (1 : Nat) ↔ IsInt ((vwidth : Int) * 2 * 2) := by
  unfold ProductsFit IsInt
  rw [if_neg Bool.false_ne_true]
  push_cast
  omega

/-- The turned picture is right at every size; the upright one only as a single row. -/
theorem luma_extracted_iff {vwidth vheight : Nat} (wide : 1 ≤ vwidth) (high : 1 ≤ vheight)
    (bFlip : Bool) :
    LumaExtracted bFlip vwidth vheight ↔
      if bFlip then IsInt (((vwidth : Int) * vheight - 1) * 2)
      else vheight = 1 ∧ IsInt ((vwidth : Int) * 2 * 2) := by
  have runs : LumaExtracted bFlip vwidth vheight ↔
      ProductsFit bFlip vwidth vheight ∧ MakesPicture bFlip vwidth vheight
        (grid vheight vwidth fun row col => (cursorAt bFlip vwidth vheight row col).move) := by
    unfold LumaExtracted videoGetD1YFrame
    rw [moves_eq_grid]
    constructor
    · rintro ⟨moves, isRun, makes⟩
      obtain ⟨fits, rfl⟩ := Option.ite_none_right_eq_some.mp isRun |>.imp_right Option.some.inj
      exact ⟨fits, makes⟩
    · rintro ⟨fits, makes⟩
      exact ⟨_, if_pos fits, makes⟩
  rw [runs]
  cases bFlip with
  | true =>
      rw [if_pos rfl, productsFit_turned wide high]
      exact ⟨fun both => both.1, fun fits => ⟨fits, turned_picture⟩⟩
  | false =>
      rw [if_neg Bool.false_ne_true]
      constructor
      · rintro ⟨fits, makes⟩
        have single : vheight = 1 := by
          by_contra several
          exact upright_reads_outside wide (by omega) makes
        subst single
        exact ⟨rfl, (productsFit_row vwidth).mp fits⟩
      · rintro ⟨rfl, fits⟩
        exact ⟨(productsFit_row vwidth).mpr fits, upright_row vwidth⟩

theorem luma_extracted_vga : LumaExtracted true 640 480 :=
  (luma_extracted_iff (by decide) (by decide) true).mpr (by decide)

/-- A capture of 640x480 with `bFlip` false. -/
theorem luma_vga_upright : ¬LumaExtracted false 640 480 := by
  rintro ⟨moves, isRun, makes⟩
  unfold videoGetD1YFrame at isRun
  rw [moves_eq_grid] at isRun
  obtain ⟨_, rfl⟩ := Option.ite_none_right_eq_some.mp isRun |>.imp_right Option.some.inj
  exact upright_reads_outside (by decide) (by decide) makes

end BuildLinux.Concrete.LumaFrame
