/-
Linear feedback shift registers of arbitrary width and polynomial.

The register is reduced one shift at a time, and message bits enter at its top
cell.  Feeding is linear over exclusive or, a shift loses nothing when the
polynomial has a constant term, and a short window of bits acts as one preload
of the register.  Burst and parity detection follow for error words of any
length.  Nothing here fixes a width, a polynomial or a message format.
-/

import Mathlib.Algebra.Field.ZMod
import Mathlib.Algebra.BigOperators.Fin
import Mathlib.Logic.Function.Iterate

namespace BuildLinux.ShiftRegister

variable {n : Nat}

/-- One shift towards the top cell, reduced when the top cell leaves. -/
def shift (poly register : BitVec (n + 1)) : BitVec (n + 1) :=
  if register.msb then (register <<< 1) ^^^ poly else register <<< 1

def top (bit : Bool) : BitVec (n + 1) :=
  if bit then BitVec.twoPow (n + 1) n else 0

/-- One message bit enters at the top, then the register is shifted. -/
def feed (poly register : BitVec (n + 1)) (bit : Bool) : BitVec (n + 1) :=
  shift poly (register ^^^ top bit)

def feedAll (poly register : BitVec (n + 1)) (bits : List Bool) : BitVec (n + 1) :=
  bits.foldl (feed poly) register

/-- The register preloaded with a word of bits, the first one in the top cell. -/
def load : List Bool → BitVec (n + 1)
  | [] => 0
  | bit :: rest => top bit ^^^ (load rest >>> 1)

/-! ### Linearity -/

theorem shift_xor (poly left right : BitVec (n + 1)) :
    shift poly (left ^^^ right) = shift poly left ^^^ shift poly right := by
  unfold shift
  rw [BitVec.msb_xor]
  cases left.msb <;> cases right.msb <;>
    simp only [Bool.xor_self, Bool.xor_false, Bool.false_xor, if_true, if_false,
      Bool.false_eq_true, BitVec.shiftLeft_xor_distrib]
  · rw [BitVec.xor_assoc]
  · rw [BitVec.xor_assoc, BitVec.xor_assoc, BitVec.xor_comm poly]
  · rw [BitVec.xor_comm (right <<< 1), ← BitVec.xor_assoc,
      BitVec.xor_assoc (left <<< 1), BitVec.xor_self, BitVec.xor_zero]

@[simp] theorem shift_zero (poly : BitVec (n + 1)) : shift poly 0 = 0 := by
  simp [shift]

theorem shifts_zero (poly : BitVec (n + 1)) (count : Nat) :
    (shift poly)^[count] 0 = 0 :=
  Function.iterate_fixed (shift_zero poly) count

theorem top_xor (left right : Bool) :
    (top (left ^^ right) : BitVec (n + 1)) = top left ^^^ top right := by
  cases left <;> cases right <;> simp [top]

theorem feed_xor (poly left right : BitVec (n + 1)) (leftBit rightBit : Bool) :
    feed poly (left ^^^ right) (leftBit ^^ rightBit) =
      feed poly left leftBit ^^^ feed poly right rightBit := by
  have regroup : left ^^^ right ^^^ (top leftBit ^^^ top rightBit) =
      (left ^^^ top leftBit) ^^^ (right ^^^ top rightBit) := by
    ac_rfl
  unfold feed
  rw [top_xor, regroup, shift_xor]

theorem feedAll_xor (poly left right : BitVec (n + 1)) (leftBits rightBits : List Bool)
    (sameLength : leftBits.length = rightBits.length) :
    feedAll poly (left ^^^ right) (List.zipWith (· ^^ ·) leftBits rightBits) =
      feedAll poly left leftBits ^^^ feedAll poly right rightBits := by
  induction leftBits generalizing left right rightBits with
  | nil =>
      cases rightBits with
      | nil => rfl
      | cons bit rest => cases sameLength
  | cons leftBit leftRest ih =>
      cases rightBits with
      | nil => cases sameLength
      | cons rightBit rightRest =>
          have tailLength : leftRest.length = rightRest.length := Nat.succ.inj sameLength
          have tail := ih (feed poly left leftBit) (feed poly right rightBit) rightRest tailLength
          simpa only [feedAll, List.zipWith_cons_cons, List.foldl_cons, feed_xor] using tail

theorem feedAll_append (poly register : BitVec (n + 1)) (first second : List Bool) :
    feedAll poly register (first ++ second) =
      feedAll poly (feedAll poly register first) second :=
  List.foldl_append

theorem feedAll_zeros (poly register : BitVec (n + 1)) (count : Nat) :
    feedAll poly register (List.replicate count false) = (shift poly)^[count] register := by
  induction count generalizing register with
  | zero => rfl
  | succ count ih =>
      have step : feed poly register false = shift poly register := by
        simp [feed, top]
      rw [List.replicate_succ, Function.iterate_succ_apply, ← ih]
      change feedAll poly (feed poly register false) _ = _
      rw [step]

/-! ### A shift loses nothing -/

/-- The constant term reaches the bottom cell exactly when the top cell left. -/
theorem shift_eq_zero (poly register : BitVec (n + 1)) (constantTerm : poly.getLsbD 0 = true)
    (vanishes : shift poly register = 0) : register = 0 := by
  have bottom : (shift poly register).getLsbD 0 = register.msb := by
    unfold shift
    cases register.msb <;> simp [constantTerm]
  have noTop : register.msb = false := by
    rw [← bottom, vanishes]
    exact BitVec.getLsbD_zero
  have shifted : register <<< 1 = 0 := by
    simpa [shift, noTop] using vanishes
  apply BitVec.eq_of_getLsbD_eq
  intro index inRange
  change register.getLsbD index = (0#(n + 1)).getLsbD index
  rw [BitVec.getLsbD_zero]
  by_cases isTop : index = n
  · rw [isTop]
    simpa [BitVec.msb_eq_getLsbD_last] using noTop
  · have moved := congrArg (fun word => word.getLsbD (index + 1)) shifted
    have below : index + 1 < n + 1 := by omega
    change (register <<< 1).getLsbD (index + 1) = (0#(n + 1)).getLsbD (index + 1) at moved
    rw [BitVec.getLsbD_shiftLeft, BitVec.getLsbD_zero] at moved
    simpa only [below, decide_true, Bool.true_and, Nat.not_lt.mpr (Nat.le_add_left 1 index),
      decide_false, Bool.not_false, Nat.add_sub_cancel] using moved

theorem shift_injective (poly : BitVec (n + 1)) (constantTerm : poly.getLsbD 0 = true) :
    Function.Injective (shift poly) := by
  intro left right same
  have difference : shift poly (left ^^^ right) = 0 := by
    rw [shift_xor, same]
    exact BitVec.xor_self
  exact BitVec.xor_eq_zero_iff.mp (shift_eq_zero poly _ constantTerm difference)

theorem shifts_ne_zero (poly register : BitVec (n + 1)) (constantTerm : poly.getLsbD 0 = true)
    (count : Nat) (nonzero : register ≠ 0) : (shift poly)^[count] register ≠ 0 := by
  intro vanishes
  rw [← shifts_zero poly count] at vanishes
  exact nonzero ((shift_injective poly constantTerm).iterate count vanishes)

/-! ### A window of bits is one preload -/

theorem top_getLsbD (bit : Bool) (index : Nat) :
    (top bit : BitVec (n + 1)).getLsbD index = (bit && decide (index = n)) := by
  cases bit with
  | false =>
      change (0#(n + 1)).getLsbD index = _
      simp
  | true =>
      change (BitVec.twoPow (n + 1) n).getLsbD index = _
      simp [BitVec.getLsbD_twoPow, eq_comm]

theorem load_getLsbD (bits : List Bool) (position : Nat) (inRange : position ≤ n) :
    (load bits : BitVec (n + 1)).getLsbD (n - position) = bits.getD position false := by
  induction bits generalizing position with
  | nil =>
      change (0#(n + 1)).getLsbD (n - position) = _
      simp
  | cons bit rest ih =>
      unfold load
      rw [BitVec.getLsbD_xor, top_getLsbD, BitVec.getLsbD_ushiftRight]
      cases position with
      | zero =>
          have outside : (load rest : BitVec (n + 1)).getLsbD (1 + (n - 0)) = false :=
            BitVec.getLsbD_of_ge _ _ (by omega)
          rw [outside]
          simp
      | succ position =>
          have lower : n - (position + 1) ≠ n := by omega
          have cell : 1 + (n - (position + 1)) = n - position := by omega
          rw [cell, ih position (by omega)]
          simp [lower]

theorem load_ne_zero (bits : List Bool) (fits : bits.length ≤ n + 1) (some : true ∈ bits) :
    (load bits : BitVec (n + 1)) ≠ 0 := by
  intro vanishes
  obtain ⟨position, inBits, isSet⟩ := List.mem_iff_getElem.mp some
  have cell := load_getLsbD (n := n) bits position (by omega)
  rw [vanishes, List.getD_eq_getElem?_getD, List.getElem?_eq_getElem inBits, isSet] at cell
  rw [show (0 : BitVec (n + 1)).getLsbD _ = false from BitVec.getLsbD_zero] at cell
  cases cell

private theorem shift_moved_load (poly : BitVec (n + 1)) (bits : List Bool)
    (room : bits.length ≤ n) :
    shift poly ((load bits : BitVec (n + 1)) >>> 1) = load bits := by
  have noTop : ((load bits : BitVec (n + 1)) >>> 1).msb = false := by
    simp [BitVec.msb_eq_getLsbD_last]
  have bottom : (load bits : BitVec (n + 1)).getLsbD 0 = false := by
    have cell := load_getLsbD (n := n) bits n (Nat.le_refl n)
    rw [Nat.sub_self, List.getD_eq_getElem?_getD, List.getElem?_eq_none room] at cell
    exact cell
  unfold shift
  rw [noTop]
  apply BitVec.eq_of_getLsbD_eq
  intro index inRange
  cases index with
  | zero => simpa using bottom.symm
  | succ index =>
      change (((load bits : BitVec (n + 1)) >>> 1) <<< 1).getLsbD (index + 1) = _
      rw [BitVec.getLsbD_shiftLeft, BitVec.getLsbD_ushiftRight]
      simp only [inRange, decide_true, Bool.true_and, Nat.not_lt.mpr (Nat.le_add_left 1 index),
        decide_false, Bool.not_false, Nat.add_sub_cancel, Nat.add_comm 1 index]

theorem feedAll_load (poly register : BitVec (n + 1)) (bits : List Bool)
    (fits : bits.length ≤ n + 1) :
    feedAll poly register bits = (shift poly)^[bits.length] (register ^^^ load bits) := by
  induction bits generalizing register with
  | nil =>
      change register = register ^^^ 0#(n + 1)
      rw [BitVec.xor_zero]
  | cons bit rest ih =>
      have room : rest.length ≤ n := Nat.le_of_succ_le_succ fits
      have preload : shift poly (register ^^^ load (bit :: rest)) =
          feed poly register bit ^^^ load rest := by
        rw [load, feed, ← BitVec.xor_assoc, shift_xor, shift_moved_load poly rest room]
      rw [List.length_cons, Function.iterate_succ_apply, preload,
        ← ih (feed poly register bit) (by omega)]
      rfl

theorem load_append (first second : List Bool) :
    (load (first ++ second) : BitVec (n + 1)) = load first ^^^ (load second >>> first.length) := by
  induction first with
  | nil =>
      change load second = 0#(n + 1) ^^^ (load second >>> 0)
      simp
  | cons bit rest ih =>
      change top bit ^^^ (load (rest ++ second) >>> 1) =
        (top bit ^^^ (load rest >>> 1)) ^^^ (load second >>> (rest.length + 1))
      rw [ih, BitVec.ushiftRight_xor_distrib, BitVec.shiftRight_add, BitVec.xor_assoc]

/-- The register is emptied by its own contents and by no other word. -/
theorem feedAll_eq_zero_iff (poly register : BitVec (n + 1))
    (constantTerm : poly.getLsbD 0 = true) (bits : List Bool) (fits : bits.length ≤ n + 1) :
    feedAll poly register bits = 0 ↔ register = load bits := by
  rw [feedAll_load poly register bits fits]
  constructor
  · intro vanishes
    rw [← shifts_zero poly bits.length] at vanishes
    exact BitVec.xor_eq_zero_iff.mp ((shift_injective poly constantTerm).iterate _ vanishes)
  · intro same
    rw [same, BitVec.xor_self]
    exact shifts_zero poly bits.length

/-! ### Bursts -/

def BurstWithin (size : Nat) (bits : List Bool) : Prop :=
  ∃ start, ∀ position, bits[position]? = some true →
    start ≤ position ∧ position < start + size

private theorem eq_replicate_false (bits : List Bool) (clear : ∀ bit ∈ bits, bit = false) :
    bits = List.replicate bits.length false :=
  List.eq_replicate_iff.mpr ⟨rfl, clear⟩

/-- A burst no wider than the register never cancels, whatever follows it. -/
theorem feedAll_burst_ne_zero (poly : BitVec (n + 1)) (constantTerm : poly.getLsbD 0 = true)
    (bits : List Bool) (burst : BurstWithin (n + 1) bits) (some : true ∈ bits) :
    feedAll poly 0 bits ≠ 0 := by
  -- The bits outside the window are clear and only shift; the window is a preload.
  obtain ⟨start, bounded⟩ := burst
  let window := (bits.drop start).take (n + 1)
  let later := (bits.drop start).drop (n + 1)
  have split : bits = bits.take start ++ (window ++ later) := by
    rw [List.take_append_drop, List.take_append_drop]
  have before : ∀ bit ∈ bits.take start, bit = false := by
    intro bit member
    obtain ⟨position, inside, value⟩ := List.mem_iff_getElem.mp member
    rw [List.length_take] at inside
    rw [List.getElem_take] at value
    cases bit with
    | false => rfl
    | true =>
        have placed := bounded position (by rw [List.getElem?_eq_getElem (by omega), value])
        omega
  have after : ∀ bit ∈ later, bit = false := by
    intro bit member
    obtain ⟨position, inside, value⟩ := List.mem_iff_getElem.mp member
    simp only [later, List.length_drop] at inside
    simp only [later, List.getElem_drop] at value
    cases bit with
    | false => rfl
    | true =>
        have placed := bounded (start + (n + 1 + position))
          (by rw [List.getElem?_eq_getElem (by omega), value])
        omega
  have inWindow : true ∈ window := by
    rw [split, List.mem_append, List.mem_append] at some
    rcases some with early | within | late
    · cases before true early
    · exact within
    · cases after true late
  have fits : window.length ≤ n + 1 := List.length_take_le _ _
  rw [split, feedAll_append, feedAll_append, eq_replicate_false _ before, feedAll_zeros,
    shifts_zero, eq_replicate_false _ after, feedAll_zeros,
    feedAll_load poly 0 window fits, ← Function.iterate_add_apply]
  apply shifts_ne_zero poly _ constantTerm
  change 0#(n + 1) ^^^ load window ≠ 0
  rw [BitVec.zero_xor]
  exact load_ne_zero window fits inWindow

/-! ### Parity -/

/-- The sum of all cells over the field of two elements. -/
def parity {width : Nat} (register : BitVec width) : ZMod 2 :=
  ∑ index : Fin width, if register.getLsbD index then 1 else 0

theorem parity_xor {width : Nat} (left right : BitVec width) :
    parity (left ^^^ right) = parity left + parity right := by
  unfold parity
  rw [← Finset.sum_add_distrib]
  apply Finset.sum_congr rfl
  intro index _member
  rw [BitVec.getLsbD_xor]
  cases left.getLsbD index <;> cases right.getLsbD index <;> decide

theorem parity_zero {width : Nat} : parity (0 : BitVec width) = 0 := by
  apply Finset.sum_eq_zero
  intro index _member
  change (if (0 : BitVec width).getLsbD index then (1 : ZMod 2) else 0) = 0
  simp

theorem parity_top (bit : Bool) :
    parity (top bit : BitVec (n + 1)) = if bit then 1 else 0 := by
  have lower (index : Fin n) : (top bit : BitVec (n + 1)).getLsbD index.castSucc = false := by
    have different : index.val ≠ n := Nat.ne_of_lt index.isLt
    rw [top_getLsbD, Fin.val_castSucc, decide_eq_false different, Bool.and_false]
  have highest : (top bit : BitVec (n + 1)).getLsbD (Fin.last n) = bit := by
    rw [top_getLsbD, Fin.val_last, decide_eq_true rfl, Bool.and_true]
  unfold parity
  rw [Fin.sum_univ_castSucc, highest]
  simp only [lower, Bool.false_eq_true, if_false, Finset.sum_const_zero, zero_add]

private theorem parity_shiftLeft (register : BitVec (n + 1)) :
    parity (register <<< 1) + (if register.msb then 1 else 0) = parity register := by
  have moved (index : Fin n) :
      (register <<< 1).getLsbD index.succ = register.getLsbD index.castSucc := by
    have inRange : index.val + 1 < n + 1 := Nat.succ_lt_succ index.isLt
    simp [inRange]
  unfold parity
  rw [Fin.sum_univ_succ, Fin.sum_univ_castSucc]
  simp only [moved]
  simp [BitVec.msb_eq_getLsbD_last]

/-- A polynomial with an even number of terms, its leading one included, keeps
the parity of the register: it is divisible by `x + 1`. -/
theorem parity_shift (poly register : BitVec (n + 1)) (evenTerms : parity poly = 1) :
    parity (shift poly register) = parity register := by
  have kept := parity_shiftLeft register
  unfold shift
  cases topCell : register.msb with
  | false =>
      rw [topCell] at kept
      simpa using kept
  | true =>
      rw [topCell] at kept
      simp only [if_true] at kept ⊢
      rw [parity_xor, evenTerms]
      exact kept

theorem parity_feedAll (poly register : BitVec (n + 1)) (evenTerms : parity poly = 1)
    (bits : List Bool) :
    parity (feedAll poly register bits) = parity register + (bits.count true : ZMod 2) := by
  induction bits generalizing register with
  | nil => simp [feedAll]
  | cons bit rest ih =>
      change parity (feedAll poly (feed poly register bit) rest) = _
      rw [ih, feed, parity_shift poly _ evenTerms, parity_xor, parity_top]
      cases bit with
      | false => simp
      | true =>
          rw [List.count_cons_self, Nat.cast_succ, if_pos rfl, add_assoc, add_comm 1]

theorem feedAll_odd_ne_zero (poly : BitVec (n + 1)) (evenTerms : parity poly = 1)
    (bits : List Bool) (odd : Odd (bits.count true)) : feedAll poly 0 bits ≠ 0 := by
  intro vanishes
  have balance := parity_feedAll poly 0 evenTerms bits
  rw [vanishes, parity_zero, zero_add] at balance
  have even : Even (bits.count true) := (ZMod.natCast_eq_zero_iff_even).mp balance.symm
  exact (Nat.not_even_iff_odd.mpr odd) even

end BuildLinux.ShiftRegister
