/-
Two nested loops that move pointers with a step after each item and a turn
after each row.

A loop nest visits the places of a rectangle row by row as soon as one formula
for the pointers agrees with the step and with the turn.  What such a loop
writes to a memory is then read off the formula: where no place is written
twice, each holds what was written there.
-/

import Mathlib.Algebra.Order.Ring.Int
import Mathlib.Data.List.Nodup
import Mathlib.Data.List.ProdSigma
import Mathlib.Tactic.Common
import Mathlib.Tactic.Ring

namespace BuildLinux.PointerWalk

variable {state item other : Type}

/-- The items of one row and the pointers behind it. -/
def walkRow (step : state → state) (visit : state → item) : Nat → state → List item × state
  | 0, here => ([], here)
  | cols + 1, here =>
      let rest := walkRow step visit cols (step here)
      (visit here :: rest.1, rest.2)

def walk (step turn : state → state) (visit : state → item) (cols : Nat) :
    Nat → state → List item
  | 0, _ => []
  | rows + 1, here =>
      let row := walkRow step visit cols here
      row.1 ++ walk step turn visit cols rows (turn row.2)

/-! ### The places of a rectangle -/

def grid (rows cols : Nat) (place : Nat → Nat → item) : List item :=
  ((List.range rows).product (List.range cols)).map fun spot => place spot.1 spot.2

theorem mem_grid {rows cols : Nat} {place : Nat → Nat → item} {found : item} :
    found ∈ grid rows cols place ↔ ∃ row < rows, ∃ col < cols, found = place row col := by
  unfold grid
  rw [List.mem_map]
  constructor
  · rintro ⟨⟨row, col⟩, member, rfl⟩
    obtain ⟨inRows, inCols⟩ := List.mem_product.mp member
    exact ⟨row, List.mem_range.mp inRows, col, List.mem_range.mp inCols, rfl⟩
  · rintro ⟨row, inRows, col, inCols, rfl⟩
    exact ⟨(row, col), List.mem_product.mpr ⟨List.mem_range.mpr inRows, List.mem_range.mpr inCols⟩,
      rfl⟩

theorem grid_map (rows cols : Nat) (place : Nat → Nat → item) (view : item → other) :
    (grid rows cols place).map view = grid rows cols fun row col => view (place row col) := by
  unfold grid
  rw [List.map_map]
  rfl

theorem grid_nodup {rows cols : Nat} {place : Nat → Nat → item}
    (distinct : ∀ row < rows, ∀ col < cols, ∀ row' < rows, ∀ col' < cols,
      place row col = place row' col' → row = row' ∧ col = col') :
    (grid rows cols place).Nodup := by
  refine List.Nodup.map_on ?_ (List.nodup_range.product List.nodup_range)
  rintro ⟨row, col⟩ member ⟨row', col'⟩ member' same
  obtain ⟨inRows, inCols⟩ := List.mem_product.mp member
  obtain ⟨inRows', inCols'⟩ := List.mem_product.mp member'
  obtain ⟨sameRow, sameCol⟩ := distinct row (List.mem_range.mp inRows) col
    (List.mem_range.mp inCols) row' (List.mem_range.mp inRows') col' (List.mem_range.mp inCols')
    same
  exact Prod.ext sameRow sameCol

/-! ### The loops visit the rectangle -/

section Formula

variable {step turn : state → state} {visit : state → item} {place : Nat → Nat → state}
  {cols : Nat}

theorem walkRow_eq (steps : ∀ row col, step (place row col) = place row (col + 1))
    (row count col : Nat) :
    walkRow step visit count (place row col) =
      ((List.range' col count).map fun spot => visit (place row spot),
        place row (col + count)) := by
  induction count generalizing col with
  | zero => rfl
  | succ count ih =>
      rw [walkRow, steps, ih, List.range'_succ, List.map_cons, Nat.add_right_comm, Nat.add_assoc]

theorem walk_from (steps : ∀ row col, step (place row col) = place row (col + 1))
    (turns : ∀ row, turn (place row cols) = place (row + 1) 0) (rows row : Nat) :
    walk step turn visit cols rows (place row 0) =
      (List.range' row rows).flatMap fun spot =>
        (List.range cols).map fun col => visit (place spot col) := by
  induction rows generalizing row with
  | zero => rfl
  | succ rows ih =>
      rw [walk, walkRow_eq steps, Nat.zero_add, turns, ih, List.range'_succ, List.flatMap_cons,
        List.range_eq_range']

/-- A formula that agrees with the step and the turn gives every visit. -/
theorem walk_eq_grid (steps : ∀ row col, step (place row col) = place row (col + 1))
    (turns : ∀ row, turn (place row cols) = place (row + 1) 0) (rows : Nat) :
    walk step turn visit cols rows (place 0 0) =
      grid rows cols fun row col => visit (place row col) := by
  rw [walk_from steps turns, ← List.range_eq_range']
  unfold grid
  rw [List.product.eq_1, List.map_flatMap]
  refine List.flatMap_congr fun row _ => ?_
  rw [List.map_map]
  rfl

end Formula

/-! ### What is written -/

section Memory

variable {value : Type}

def applyWrites (memory : Int → value) (writes : List (Int × value)) : Int → value :=
  writes.foldl (fun before write => Function.update before write.1 write.2) memory

theorem applyWrites_of_not_mem {memory : Int → value} {writes : List (Int × value)} {address : Int}
    (unwritten : address ∉ writes.map Prod.fst) :
    applyWrites memory writes address = memory address := by
  induction writes generalizing memory with
  | nil => rfl
  | cons write rest ih =>
      rw [List.map_cons, List.mem_cons, not_or] at unwritten
      exact (ih unwritten.2).trans (Function.update_of_ne unwritten.1 _ _)

theorem applyWrites_of_mem {memory : Int → value} {writes : List (Int × value)}
    (distinct : (writes.map Prod.fst).Nodup) {write : Int × value} (member : write ∈ writes) :
    applyWrites memory writes write.1 = write.2 := by
  induction writes generalizing memory with
  | nil => cases member
  | cons first rest ih =>
      obtain ⟨fresh, restDistinct⟩ := List.nodup_cons.mp distinct
      rcases List.mem_cons.mp member with rfl | later
      · exact (applyWrites_of_not_mem fresh).trans (Function.update_self _ _ _)
      · exact ih restDistinct later

end Memory

/-! ### Rows at a pitch -/

/-- Positions in rows of at most `pitch` items are different for different places. -/
theorem pitch_injective {pitch : Int} {row col row' col' : Nat} (inRow : (col : Int) < pitch)
    (inRow' : (col' : Int) < pitch)
    (same : (row : Int) * pitch + col = (row' : Int) * pitch + col') :
    row = row' ∧ col = col' := by
  have positive : 0 < pitch := by omega
  have rowOf : ∀ {r c : Nat}, (c : Int) < pitch → ((r : Int) * pitch + c) / pitch = r := by
    intro r c below
    rw [Int.add_comm, Int.add_mul_ediv_right _ _ (by omega),
      Int.ediv_eq_zero_of_lt (by omega) below, Int.zero_add]
  have sameRow : row = row' := by
    have rows := congrArg (· / pitch) same
    rw [rowOf inRow, rowOf inRow'] at rows
    exact Int.ofNat_inj.mp rows
  subst sameRow
  exact ⟨rfl, by omega⟩

theorem pitch_bounds {pitch : Int} {rows row col : Nat} (inRows : row < rows)
    (inRow : (col : Int) < pitch) :
    0 ≤ (row : Int) * pitch + col ∧ (row : Int) * pitch + col < rows * pitch := by
  have nonneg : 0 ≤ (row : Int) * pitch := Int.mul_nonneg (by omega) (by omega)
  have next : ((row : Int) + 1) * pitch ≤ rows * pitch :=
    Int.mul_le_mul_of_nonneg_right (by omega) (by omega)
  rw [Int.add_mul, Int.one_mul] at next
  omega

/-- Every position of whole rows is that of a place. -/
theorem pitch_surjective {pitch rows : Nat} {position : Int} (nonneg : 0 ≤ position)
    (below : position < (rows : Int) * pitch) :
    ∃ row < rows, ∃ col < pitch, position = (row : Int) * pitch + col := by
  obtain ⟨place, rfl⟩ := Int.eq_ofNat_of_zero_le nonneg
  have inside : place < rows * pitch := by exact_mod_cast below
  have positive : 0 < pitch := Nat.pos_of_mul_pos_left (by omega : 0 < rows * pitch)
  refine ⟨place / pitch, Nat.div_lt_of_lt_mul (by rwa [Nat.mul_comm]), place % pitch,
    Nat.mod_lt place positive, ?_⟩
  have split := Nat.div_add_mod place pitch
  rw [Nat.mul_comm] at split
  exact_mod_cast split.symm

/-- The multiples up to some count lie between zero and the last one. -/
theorem multiple_bounds (step : Int) {count last : Nat} (upTo : count ≤ last) :
    min 0 ((last : Int) * step) ≤ (count : Int) * step ∧
      (count : Int) * step ≤ max 0 ((last : Int) * step) := by
  rcases Int.le_total 0 step with up | down
  · have nonneg : 0 ≤ (count : Int) * step := Int.mul_nonneg (by omega) up
    have below : (count : Int) * step ≤ last * step :=
      Int.mul_le_mul_of_nonneg_right (by omega) up
    omega
  · have nonpos : (count : Int) * step ≤ 0 :=
      Int.mul_nonpos_of_nonneg_of_nonpos (by omega) down
    have above : (last : Int) * step ≤ count * step :=
      Int.mul_le_mul_of_nonpos_right (by omega) down
    omega

/-- A rectangle of places at steps of a row and of a column lies between two
bounds if its extreme corners do. -/
theorem corners_iff {low high rowStep colStep : Int} {lastRow lastCol : Nat} :
    (∀ row ≤ lastRow, ∀ col ≤ lastCol,
      low ≤ (row : Int) * rowStep + col * colStep ∧
        (row : Int) * rowStep + col * colStep ≤ high) ↔
      low ≤ min 0 (lastRow * rowStep) + min 0 (lastCol * colStep) ∧
        max 0 (lastRow * rowStep) + max 0 (lastCol * colStep) ≤ high := by
  constructor
  · intro inside
    have origin := inside 0 (Nat.zero_le _) 0 (Nat.zero_le _)
    have below := inside lastRow (Nat.le_refl _) 0 (Nat.zero_le _)
    have beside := inside 0 (Nat.zero_le _) lastCol (Nat.le_refl _)
    have opposite := inside lastRow (Nat.le_refl _) lastCol (Nat.le_refl _)
    rw [Nat.cast_zero, Int.zero_mul] at origin below beside
    omega
  · rintro ⟨above, below⟩ row inRows col inCols
    have rows := multiple_bounds rowStep inRows
    have cols := multiple_bounds colStep inCols
    omega

/-- A list without duplicates that has all positions of a range counts each once. -/
theorem count_one {positions : List Int} (distinct : positions.Nodup) {position : Int}
    (member : position ∈ positions) : positions.count position = 1 :=
  List.nodup_iff_count_eq_one.mp distinct position member

end BuildLinux.PointerWalk
