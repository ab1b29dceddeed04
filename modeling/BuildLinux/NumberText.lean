/-
Numbers as `strtoll` reads them, and as `printf` writes them.

A text is read up to the first character that is no digit of the base; what is
out of the range of a `long long` is read as the bound of the range, and marked.
What was printed is read back.
-/

import BuildLinux.CStrings
import Mathlib.Data.List.TakeWhile
import Mathlib.Tactic.IntervalCases

namespace BuildLinux.NumberText

open CStrings

/-! ### Digits -/

def isspace (letter : Char) : Bool :=
  letter == ' ' || decide ('\t' ≤ letter ∧ letter ≤ '\r')

/-- The value of a digit, and 36 for a character that is none. -/
def digitOf (letter : Char) : Nat :=
  if '0' ≤ letter ∧ letter ≤ '9' then letter.toNat - 48
  else if 'a' ≤ letter ∧ letter ≤ 'z' then letter.toNat - 87
  else if 'A' ≤ letter ∧ letter ≤ 'Z' then letter.toNat - 55
  else 36

def isDigitOf (base : Nat) (letter : Char) : Bool := decide (digitOf letter < base)

def valueOf (base : Nat) (digits : CString) : Nat :=
  digits.foldl (fun value letter => value * base + digitOf letter) 0

theorem digitOf_digitChar {value : Nat} (below : value < 16) :
    digitOf (Nat.digitChar value) = value := by
  interval_cases value <;> rfl

theorem isDigitOf_digitChar {base value : Nat} (small : base ≤ 16) (below : value < base) :
    isDigitOf base (Nat.digitChar value) = true := by
  unfold isDigitOf
  rw [digitOf_digitChar (by omega)]
  exact decide_eq_true below

theorem toDigits_isDigitOf {base : Nat} (large : 1 < base) (small : base ≤ 16) (value : Nat) :
    ∀ letter ∈ Nat.toDigits base value, isDigitOf base letter = true := by
  induction value using Nat.strongRecOn with
  | ind value ih =>
      intro letter member
      by_cases below : value < base
      · rw [Nat.toDigits_of_lt_base below, List.mem_singleton] at member
        rw [member]
        exact isDigitOf_digitChar small below
      · have reached : base ≤ value := Nat.le_of_not_lt below
        have smaller : value / base < value := Nat.div_lt_self (by omega) large
        rw [Nat.toDigits_of_base_le large reached, List.mem_append, List.mem_singleton] at member
        rcases member with front | last
        · exact ih _ smaller letter front
        · rw [last]
          exact isDigitOf_digitChar small (Nat.mod_lt _ (by omega))

theorem valueOf_concat (base : Nat) (digits : CString) (letter : Char) :
    valueOf base (digits ++ [letter]) = valueOf base digits * base + digitOf letter := by
  unfold valueOf
  rw [List.foldl_append]
  rfl

theorem valueOf_toDigits {base : Nat} (large : 1 < base) (small : base ≤ 16) (value : Nat) :
    valueOf base (Nat.toDigits base value) = value := by
  induction value using Nat.strongRecOn with
  | ind value ih =>
      by_cases below : value < base
      · rw [Nat.toDigits_of_lt_base below]
        change 0 * base + digitOf (Nat.digitChar value) = value
        rw [digitOf_digitChar (by omega), Nat.zero_mul, Nat.zero_add]
      · have reached : base ≤ value := Nat.le_of_not_lt below
        have remainder : value % base < base := Nat.mod_lt _ (by omega)
        rw [Nat.toDigits_of_base_le large reached, valueOf_concat,
          ih _ (Nat.div_lt_self (by omega) large), digitOf_digitChar (by omega)]
        exact Nat.div_add_mod' value base

/-! ### Reading -/

/-- What is read of a text: the sign, the digits' value and the text behind them. -/
structure Scanned where
  negative : Bool
  magnitude : Nat
  rest : CString

def sign : CString → Bool × CString
  | '-' :: rest => (true, rest)
  | '+' :: rest => (false, rest)
  | text => (false, text)

/-- The base, and the text behind the mark of a hexadecimal number. -/
def radix (base : Nat) : CString → Nat × CString
  | '0' :: mark :: digit :: rest =>
      if (base = 0 ∨ base = 16) ∧ (mark = 'x' ∨ mark = 'X') ∧ isDigitOf 16 digit = true then
        (16, digit :: rest)
      else (if base = 0 then 8 else base, '0' :: mark :: digit :: rest)
  | '0' :: rest => (if base = 0 then 8 else base, '0' :: rest)
  | text => (if base = 0 then 10 else base, text)

def scan (base : Nat) (text : CString) : Option Scanned :=
  let signed := sign (text.dropWhile isspace)
  let based := radix base signed.2
  let digits := based.2.takeWhile (isDigitOf based.1)
  if digits = [] then none
  else some ⟨signed.1, valueOf based.1 digits, based.2.dropWhile (isDigitOf based.1)⟩

/-- A result of `strtoll` or `strtoull`: the value, where it ends, and `ERANGE`. -/
structure Parsed where
  value : Int
  tail : CString
  erange : Bool

def Scanned.signedValue (scanned : Scanned) : Int :=
  if scanned.negative then -scanned.magnitude else scanned.magnitude

/-- Without digits the text is left as it is. -/
def strtoll (base : Nat) (text : CString) : Parsed :=
  match scan base text with
  | none => ⟨0, text, false⟩
  | some scanned =>
      if scanned.signedValue < -2 ^ 63 then ⟨-2 ^ 63, scanned.rest, true⟩
      else if 2 ^ 63 ≤ scanned.signedValue then ⟨2 ^ 63 - 1, scanned.rest, true⟩
      else ⟨scanned.signedValue, scanned.rest, false⟩

/-- A negative number is read modulo 2^64. -/
def strtoull (base : Nat) (text : CString) : Parsed :=
  match scan base text with
  | none => ⟨0, text, false⟩
  | some scanned =>
      if 2 ^ 64 ≤ scanned.magnitude then ⟨2 ^ 64 - 1, scanned.rest, true⟩
      else ⟨scanned.signedValue % 2 ^ 64, scanned.rest, false⟩

theorem strtoll_bounds (base : Nat) (text : CString) :
    -2 ^ 63 ≤ (strtoll base text).value ∧ (strtoll base text).value < 2 ^ 63 := by
  unfold strtoll
  cases scan base text with
  | none =>
      dsimp only
      omega
  | some scanned =>
      dsimp only
      split
      · dsimp only
        omega
      · split
        · dsimp only
          omega
        · dsimp only
          omega

/-! ### Printing -/

/-- `%lld` -/
def printLld (value : Int) : CString :=
  if value < 0 then '-' :: Nat.toDigits 10 value.natAbs else Nat.toDigits 10 value.natAbs

/-- `0x%llx` -/
def printHex (value : Int) : CString :=
  '0' :: 'x' :: Nat.toDigits 16 (value % 2 ^ 64).toNat

theorem digit_not_space {letter : Char} (digit : isDigitOf 16 letter = true) :
    isspace letter = false := by
  have below : digitOf letter < 16 := of_decide_eq_true digit
  unfold isspace
  rw [Bool.or_eq_false_iff, beq_eq_false_iff_ne]
  constructor
  · intro blank
    rw [blank] at below
    exact absurd below (by decide)
  · rw [decide_eq_false_iff_not]
    rintro ⟨_, control⟩
    have small : letter.toNat ≤ 13 := control
    have noDigit : digitOf letter = 36 := by
      unfold digitOf
      rw [if_neg, if_neg, if_neg]
      · rintro ⟨upper, _⟩
        have bound : 65 ≤ letter.toNat := upper
        omega
      · rintro ⟨lower, _⟩
        have bound : 97 ≤ letter.toNat := lower
        omega
      · rintro ⟨decimal, _⟩
        have bound : 48 ≤ letter.toNat := decimal
        omega
    omega

theorem digit_no_sign {letter : Char} (digit : isDigitOf 16 letter = true) (rest : CString) :
    sign (letter :: rest) = (false, letter :: rest) := by
  unfold sign
  split
  next first =>
    cases first
    exact absurd digit (by decide)
  next first =>
    cases first
    exact absurd digit (by decide)
  · rfl

theorem radix_ten (text : CString) : radix 10 text = (10, text) := by
  unfold radix
  split
  · rw [if_neg (by omega)]
    rfl
  · rfl
  · rfl

theorem toDigits_cons {base : Nat} (large : 1 < base) (small : base ≤ 16) (value : Nat) :
    ∃ letter rest, Nat.toDigits base value = letter :: rest ∧ isDigitOf 16 letter = true := by
  cases digits : Nat.toDigits base value with
  | nil => exact absurd digits Nat.toDigits_ne_nil
  | cons letter rest =>
      have digit := toDigits_isDigitOf large small value letter
        (by rw [digits]; exact List.mem_cons_self)
      have below : digitOf letter < base := of_decide_eq_true digit
      exact ⟨letter, rest, rfl, decide_eq_true (by omega)⟩

/-- The digits are read to their end. -/
theorem scan_toDigits (body : CString) {base radixBase value : Nat} {text : CString}
    {negative : Bool} (signed : sign (text.dropWhile isspace) = (negative, body))
    (based : radix base body = (radixBase, Nat.toDigits radixBase value))
    (large : 1 < radixBase) (small : radixBase ≤ 16) :
    scan base text = some ⟨negative, value, []⟩ := by
  have all := toDigits_isDigitOf large small value
  unfold scan
  rw [signed]
  dsimp only
  rw [based]
  dsimp only
  rw [List.takeWhile_eq_self_iff.mpr all, List.dropWhile_eq_nil_iff.mpr all,
    valueOf_toDigits large small, if_neg Nat.toDigits_ne_nil]

theorem scan_printLld (value : Int) :
    scan 10 (printLld value) = some ⟨decide (value < 0), value.natAbs, []⟩ := by
  obtain ⟨letter, rest, digits, digit⟩ :=
    toDigits_cons (by decide : 1 < 10) (by decide) value.natAbs
  unfold printLld
  by_cases below : value < 0
  · rw [if_pos below, decide_eq_true below]
    have minus : isspace '-' = false := rfl
    apply scan_toDigits (Nat.toDigits 10 value.natAbs)
    · rw [List.dropWhile_cons_of_neg (by rw [minus]; exact Bool.false_ne_true)]
      rfl
    · exact radix_ten _
    · decide
    · decide
  · rw [if_neg below, decide_eq_false below]
    apply scan_toDigits (Nat.toDigits 10 value.natAbs)
    · rw [digits, List.dropWhile_cons_of_neg
        (by rw [digit_not_space digit]; exact Bool.false_ne_true)]
      exact digit_no_sign digit rest
    · exact radix_ten _
    · decide
    · decide

/-- A printed `long long` is read back. -/
theorem strtoll_printLld {value : Int} (least : -2 ^ 63 ≤ value) (greatest : value < 2 ^ 63) :
    strtoll 10 (printLld value) = ⟨value, [], false⟩ := by
  have signed : (Scanned.mk (decide (value < 0)) value.natAbs []).signedValue = value := by
    unfold Scanned.signedValue
    dsimp only
    split
    next below =>
      have negative : value < 0 := of_decide_eq_true below
      omega
    next above =>
      have natural : ¬value < 0 := fun negative => above (decide_eq_true negative)
      omega
  unfold strtoll
  rw [scan_printLld]
  dsimp only
  rw [signed, if_neg (by omega), if_neg (by omega)]

theorem scan_printHex (value : Int) :
    scan 16 (printHex value) = some ⟨false, (value % 2 ^ 64).toNat, []⟩ := by
  obtain ⟨letter, rest, digits, digit⟩ :=
    toDigits_cons (by decide : 1 < 16) (by decide) (value % 2 ^ 64).toNat
  unfold printHex
  apply scan_toDigits ('0' :: 'x' :: Nat.toDigits 16 (value % 2 ^ 64).toNat)
  · rw [List.dropWhile_cons_of_neg (by decide)]
    rfl
  · rw [digits]
    exact if_pos ⟨Or.inr rfl, Or.inl rfl, digit⟩
  · decide
  · decide

theorem strtoll_printHex {value : Int} (natural : 0 ≤ value) (greatest : value < 2 ^ 63) :
    strtoll 16 (printHex value) = ⟨value, [], false⟩ := by
  have signed : (Scanned.mk false (value % 2 ^ 64).toNat []).signedValue = value := by
    change ((value % 2 ^ 64).toNat : Int) = value
    omega
  unfold strtoll
  rw [scan_printHex]
  dsimp only
  rw [signed, if_neg (by omega), if_neg (by omega)]

end BuildLinux.NumberText
