/-
Decimal numbers as `printf` writes them, and the order of texts built of them.

Fields of a fixed width put one behind another are ordered like the lists of
their values.  A number that is wider than its field takes the room it needs.
-/

import BuildLinux.CStrings
import Mathlib.Data.List.Lex
import Mathlib.Tactic.IntervalCases

namespace BuildLinux.DecimalText

open CStrings

/-! ### Lists behind each other -/

theorem append_lt_append_iff {item : Type} [LT item] {left right : List item}
    (same : left.length = right.length) (leftRest rightRest : List item) :
    left ++ leftRest < right ++ rightRest ↔ left < right ∨ left = right ∧ leftRest < rightRest := by
  induction left generalizing right with
  | nil =>
      rw [List.length_nil] at same
      rw [List.eq_nil_of_length_eq_zero same.symm, List.nil_append, List.nil_append]
      exact ⟨fun less => Or.inr ⟨rfl, less⟩,
        fun less => less.elim (fun none => absurd none (List.not_lt_nil _)) And.right⟩
  | cons first others ih =>
      cases right with
      | nil => cases same
      | cons head tail =>
          rw [List.length_cons, List.length_cons, Nat.succ_inj] at same
          rw [List.cons_append, List.cons_append, List.cons_lt_cons_iff, List.cons_lt_cons_iff,
            ih same, List.cons.injEq]
          constructor
          · rintro (less | ⟨sameHead, less | ⟨sameTail, less⟩⟩)
            · exact Or.inl (Or.inl less)
            · exact Or.inl (Or.inr ⟨sameHead, less⟩)
            · exact Or.inr ⟨⟨sameHead, sameTail⟩, less⟩
          · rintro ((less | ⟨sameHead, less⟩) | ⟨⟨sameHead, sameTail⟩, less⟩)
            · exact Or.inl less
            · exact Or.inr ⟨sameHead, Or.inl less⟩
            · exact Or.inr ⟨sameHead, Or.inr ⟨sameTail, less⟩⟩

theorem append_lt_append_left_iff {item : Type} [LT item]
    [Std.Irrefl (α := item) (· < ·)] (front left right : List item) :
    front ++ left < front ++ right ↔ left < right := by
  rw [append_lt_append_iff rfl]
  exact ⟨fun less => less.elim (fun itself => absurd itself (List.lt_irrefl front)) And.right,
    fun less => Or.inr ⟨rfl, less⟩⟩

/-! ### The last digits of a number -/

/-- The last `width` digits. -/
def lastDigits : Nat → Nat → CString
  | 0, _ => []
  | width + 1, value => lastDigits width (value / 10) ++ [Nat.digitChar (value % 10)]

theorem lastDigits_length (width value : Nat) : (lastDigits width value).length = width := by
  induction width generalizing value with
  | zero => rfl
  | succ width ih => rw [lastDigits, List.length_append, ih, List.length_singleton]

theorem lastDigits_zero (width : Nat) : lastDigits width 0 = List.replicate width '0' := by
  induction width with
  | zero => rfl
  | succ width ih =>
      rw [lastDigits, Nat.zero_div, ih, List.replicate_succ']
      rfl

theorem digitChar_lt_iff {left right : Nat} (leftDigit : left < 10) (rightDigit : right < 10) :
    Nat.digitChar left < Nat.digitChar right ↔ left < right := by
  interval_cases left <;> interval_cases right <;> decide

theorem digitChar_inj {left right : Nat} (leftDigit : left < 10) (rightDigit : right < 10)
    (same : Nat.digitChar left = Nat.digitChar right) : left = right := by
  have values := congrArg Char.toNat same
  rw [Nat.toNat_digitChar_of_lt_ten leftDigit, Nat.toNat_digitChar_of_lt_ten rightDigit] at values
  omega

theorem lastDigits_inj {width left right : Nat} (leftFits : left < 10 ^ width)
    (rightFits : right < 10 ^ width) (same : lastDigits width left = lastDigits width right) :
    left = right := by
  induction width generalizing left right with
  | zero => omega
  | succ width ih =>
      obtain ⟨front, last⟩ := List.append_inj' same rfl
      rw [Nat.pow_succ] at leftFits rightFits
      have quotients := ih (Nat.div_lt_of_lt_mul (by omega)) (Nat.div_lt_of_lt_mul (by omega)) front
      have remainders := digitChar_inj (Nat.mod_lt _ (by omega)) (Nat.mod_lt _ (by omega))
        (List.singleton_inj.mp last)
      omega

theorem lastDigits_lt_iff {width left right : Nat} (leftFits : left < 10 ^ width)
    (rightFits : right < 10 ^ width) :
    lastDigits width left < lastDigits width right ↔ left < right := by
  induction width generalizing left right with
  | zero => exact ⟨fun none => absurd none (List.not_lt_nil _), fun less => by omega⟩
  | succ width ih =>
      rw [Nat.pow_succ] at leftFits rightFits
      have leftQuotient : left / 10 < 10 ^ width := Nat.div_lt_of_lt_mul (by omega)
      have rightQuotient : right / 10 < 10 ^ width := Nat.div_lt_of_lt_mul (by omega)
      have sameQuotient : lastDigits width (left / 10) = lastDigits width (right / 10) ↔
          left / 10 = right / 10 :=
        ⟨lastDigits_inj leftQuotient rightQuotient, congrArg (lastDigits width)⟩
      rw [lastDigits, lastDigits,
        append_lt_append_iff (by rw [lastDigits_length, lastDigits_length]),
        ih leftQuotient rightQuotient, sameQuotient, List.cons_lt_cons_iff,
        digitChar_lt_iff (Nat.mod_lt _ (by omega)) (Nat.mod_lt _ (by omega))]
      constructor
      · rintro (less | ⟨same, less | ⟨_, none⟩⟩)
        · omega
        · omega
        · exact absurd none (List.not_lt_nil _)
      · intro less
        by_cases same : left / 10 = right / 10
        · exact Or.inr ⟨same, Or.inl (by omega)⟩
        · exact Or.inl (by omega)

/-! ### Numbers in their fields -/

/-- A number with zeros in front of it up to the width. -/
def zeroPadded (width value : Nat) : CString :=
  List.replicate (width - (Nat.toDigits 10 value).length) '0' ++ Nat.toDigits 10 value

theorem zeroPadded_eq_lastDigits {width value : Nat} (positive : 0 < width)
    (fits : value < 10 ^ width) : zeroPadded width value = lastDigits width value := by
  induction width generalizing value with
  | zero => exact absurd positive (Nat.lt_irrefl 0)
  | succ width ih =>
      unfold zeroPadded
      rw [Nat.toDigits_eq_if (by omega)]
      by_cases single : value < 10
      · rw [if_pos single, lastDigits, Nat.div_eq_of_lt single, Nat.mod_eq_of_lt single,
          lastDigits_zero]
        rfl
      · rw [if_neg single, List.length_append, List.length_singleton, Nat.add_sub_add_right,
          ← List.append_assoc]
        rw [Nat.pow_succ] at fits
        have several : 0 < width := by
          rcases Nat.eq_zero_or_pos width with none | some
          · rw [none] at fits
            omega
          · exact some
        have front : zeroPadded width (value / 10) = lastDigits width (value / 10) :=
          ih several (Nat.div_lt_of_lt_mul (by omega))
        unfold zeroPadded at front
        rw [front]
        rfl

theorem toDigits_fits (value : Nat) : value < 10 ^ (Nat.toDigits 10 value).length :=
  (Nat.length_toDigits_le_iff (by omega) Nat.length_toDigits_pos).mp (Nat.le_refl _)

/-- The text of a number is its last digits, as many as the text is long. -/
theorem zeroPadded_wide (width value : Nat) :
    value < 10 ^ (zeroPadded width value).length ∧
      zeroPadded width value = lastDigits (zeroPadded width value).length value := by
  have length : (zeroPadded width value).length = max width (Nat.toDigits 10 value).length := by
    rw [zeroPadded, List.length_append, List.length_replicate]
    omega
  have positive := Nat.length_toDigits_pos (b := 10) (n := value)
  have fits : value < 10 ^ max width (Nat.toDigits 10 value).length :=
    Nat.lt_of_lt_of_le (toDigits_fits value) (Nat.pow_le_pow_right (by omega) (by omega))
  rw [length]
  refine ⟨fits, ?_⟩
  rw [← zeroPadded_eq_lastDigits (by omega) fits, zeroPadded, zeroPadded]
  congr 2
  omega

theorem zeroPadded_injective {width left right : Nat}
    (same : zeroPadded width left = zeroPadded width right) : left = right := by
  obtain ⟨leftFits, leftDigits⟩ := zeroPadded_wide width left
  obtain ⟨rightFits, rightDigits⟩ := zeroPadded_wide width right
  rw [← same] at rightFits rightDigits
  exact lastDigits_inj leftFits rightFits (leftDigits.symm.trans rightDigits)

/-- A number that is longer than `width` fills the next width without zeros. -/
theorem zeroPadded_filled {width value : Nat} (positive : 0 < width) (long : 10 ^ width ≤ value) :
    zeroPadded 0 value = zeroPadded (width + 1) value := by
  have longer : ¬(Nat.toDigits 10 value).length ≤ width := by
    rw [Nat.length_toDigits_le_iff (by omega) positive]
    exact Nat.not_lt.mpr long
  rw [zeroPadded, zeroPadded]
  congr 2
  omega

theorem zeroPadded_digits (width value : Nat) :
    ∀ letter ∈ zeroPadded width value, letter.isDigit = true := by
  intro letter member
  rcases List.mem_append.mp member with padding | digit
  · rw [List.eq_of_mem_replicate padding]
    rfl
  · exact Nat.isDigit_of_mem_toDigits (by omega) (by omega) digit

/-- `%0<width>d`; the sign of a negative number stands before the zeros. -/
def printD (width : Nat) (value : Int) : CString :=
  if value < 0 then '-' :: zeroPadded (width - 1) value.natAbs else zeroPadded width value.toNat

theorem printD_natural (width : Nat) {value : Int} (natural : 0 ≤ value) :
    printD width value = zeroPadded width value.toNat :=
  if_neg (Int.not_lt.mpr natural)

theorem printD_injective {width : Nat} {left right : Int} (leftNatural : 0 ≤ left)
    (rightNatural : 0 ≤ right) (same : printD width left = printD width right) : left = right := by
  rw [printD_natural width leftNatural, printD_natural width rightNatural] at same
  have values := zeroPadded_injective same
  omega

/-! ### Fields of fixed width -/

/-- A number that fills a field of the width exactly, whatever width it is printed with. -/
structure Field where
  width : Nat
  value : Int

structure Field.Fits (field : Field) : Prop where
  positive : 0 < field.width
  natural : 0 ≤ field.value
  below : field.value < 10 ^ field.width

def Field.text (field : Field) : CString := printD field.width field.value

theorem Field.Fits.text_eq {field : Field} (fits : field.Fits) :
    field.text = lastDigits field.width field.value.toNat ∧
      field.value.toNat < 10 ^ field.width := by
  have below : field.value.toNat < 10 ^ field.width := by
    have bound := fits.below
    have natural := Int.toNat_of_nonneg fits.natural
    rw [← natural] at bound
    exact_mod_cast bound
  refine ⟨?_, below⟩
  rw [Field.text, printD_natural _ fits.natural, zeroPadded_eq_lastDigits fits.positive below]

theorem Field.Fits.length {field : Field} (fits : field.Fits) : field.text.length = field.width := by
  rw [fits.text_eq.1, lastDigits_length]

theorem Field.Fits.digits {field : Field} (fits : field.Fits) :
    ∀ letter ∈ field.text, letter.isDigit = true := by
  rw [Field.text, printD_natural _ fits.natural]
  exact zeroPadded_digits _ _

def fieldsText (fields : List Field) : CString := fields.flatMap Field.text

theorem fieldsText_length {fields : List Field} (fits : ∀ field ∈ fields, field.Fits) :
    (fieldsText fields).length = (fields.map Field.width).sum := by
  induction fields with
  | nil => rfl
  | cons field rest ih =>
      obtain ⟨first, later⟩ := List.forall_mem_cons.mp fits
      rw [fieldsText, List.flatMap_cons, List.length_append, first.length, List.map_cons,
        List.sum_cons, ← ih later]
      rfl

theorem fieldsText_digits {fields : List Field} (fits : ∀ field ∈ fields, field.Fits) :
    ∀ letter ∈ fieldsText fields, letter.isDigit = true := by
  intro letter member
  obtain ⟨field, inFields, inText⟩ := List.mem_flatMap.mp member
  exact (fits field inFields).digits letter inText

/-- Fields of the same widths are ordered like the lists of their values. -/
theorem fieldsText_lt_iff {left right : List Field} (leftFits : ∀ field ∈ left, field.Fits)
    (rightFits : ∀ field ∈ right, field.Fits)
    (widths : left.map Field.width = right.map Field.width) :
    (fieldsText left < fieldsText right ↔ left.map Field.value < right.map Field.value) ∧
      (fieldsText left = fieldsText right ↔ left.map Field.value = right.map Field.value) := by
  induction left generalizing right with
  | nil =>
      rw [List.map_nil, eq_comm, List.map_eq_nil_iff] at widths
      subst widths
      exact ⟨⟨fun none => absurd none (List.not_lt_nil _), fun none => absurd none (List.not_lt_nil _)⟩,
        ⟨fun _ => rfl, fun _ => rfl⟩⟩
  | cons field rest ih =>
      cases right with
      | nil => cases widths
      | cons other more =>
          obtain ⟨fieldFits, restFits⟩ := List.forall_mem_cons.mp leftFits
          obtain ⟨otherFits, moreFits⟩ := List.forall_mem_cons.mp rightFits
          obtain ⟨sameWidth, sameWidths⟩ := List.cons.inj widths
          obtain ⟨less, same⟩ := ih restFits moreFits sameWidths
          have sameLength : field.text.length = other.text.length := by
            rw [fieldFits.length, otherFits.length, sameWidth]
          obtain ⟨fieldText, fieldBelow⟩ := fieldFits.text_eq
          obtain ⟨otherText, otherBelow⟩ := otherFits.text_eq
          rw [← sameWidth] at otherText otherBelow
          have fieldNatural := fieldFits.natural
          have otherNatural := otherFits.natural
          have textLess : field.text < other.text ↔ field.value < other.value := by
            rw [fieldText, otherText, lastDigits_lt_iff fieldBelow otherBelow]
            omega
          have textSame : field.text = other.text ↔ field.value = other.value := by
            rw [fieldText, otherText]
            refine ⟨fun equal => ?_, fun equal => by rw [equal]⟩
            have values := lastDigits_inj fieldBelow otherBelow equal
            omega
          rw [fieldsText, fieldsText, List.flatMap_cons, List.flatMap_cons, List.map_cons,
            List.map_cons, List.cons.injEq, List.cons_lt_cons_iff,
            append_lt_append_iff sameLength, textLess, textSame]
          refine ⟨or_congr_right (and_congr_right fun _ => less), ?_⟩
          constructor
          · intro equal
            obtain ⟨first, later⟩ := List.append_inj equal sameLength
            exact ⟨textSame.mp first, same.mp later⟩
          · rintro ⟨first, later⟩
            rw [textSame.mpr first]
            exact congrArg (other.text ++ ·) (same.mpr later)

end BuildLinux.DecimalText
