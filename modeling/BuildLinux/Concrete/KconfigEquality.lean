/-
Equality of expressions up to the order of the operands of `||` and `&&`, and up
to `y` and `n` among them.

Operands that two expressions share are taken out of both, by putting the
neutral constant in their place.  What the two values then have in common is the
same for both, so expressions without a difference have the same value.
-/

import BuildLinux.Concrete.KconfigTransform

namespace BuildLinux.Concrete.KconfigEquality

open KconfigExpr KconfigTransform

variable {entry : Type}

/-! ### Constants among the operands -/

/-- The constant that changes nothing. -/
def neutral : Connective → Tristate
  | .or => .no
  | .and => .yes

/-- The constant that decides. -/
def absorbing : Connective → Tristate
  | .or => .yes
  | .and => .no

def isConstant (value : Tristate) : Expr entry → Bool
  | .symbol .yes => value == .yes
  | .symbol .mod => value == .mod
  | .symbol .no => value == .no
  | _ => false

/-- An expression whose operands are free of `y` and `n`.  For `&&` the test for `n` comes first,
for `||` it comes second; they exclude each other. -/
def withoutConstants (type : Connective) (left right : Expr entry) : Expr entry :=
  if isConstant (absorbing type) left then .symbol (constSymbol (absorbing type))
  else if isConstant (neutral type) left then right
  else if isConstant (absorbing type) right then .symbol (constSymbol (absorbing type))
  else if isConstant (neutral type) right then left
  else .two type left right

def exprEliminateYn : Expr entry → Expr entry
  | .two type left right => withoutConstants type (exprEliminateYn left) (exprEliminateYn right)
  | e => e

/-! ### Shared operands -/

section Shared

variable [DecidableEq entry]

/-- Two operands; constants that stand in both are left for later. -/
def eliminatePair (equal : Expr entry → Expr entry → Bool) (type : Connective)
    (e1 e2 : Expr entry) : Expr entry × Expr entry :=
  if e1 = e2 ∧ (e1 = .symbol .yes ∨ e1 = .symbol .no) then (e1, e2)
  else if equal e1 e2 then
    (.symbol (constSymbol (neutral type)), .symbol (constSymbol (neutral type)))
  else (e1, e2)

/-- One operand against all of the second expression. -/
def eliminateAgainst (equal : Expr entry → Expr entry → Bool) (type : Connective) :
    Expr entry → Expr entry → Expr entry × Expr entry
  | e1, .two connective left right =>
      if connective = type then
        let onLeft := eliminateAgainst equal type e1 left
        let onRight := eliminateAgainst equal type onLeft.1 right
        (onRight.1, .two connective onLeft.2 onRight.2)
      else eliminatePair equal type e1 (.two connective left right)
  | e1, e2 => eliminatePair equal type e1 e2

/-- `__expr_eliminate_eq` -/
def eliminateOperands (equal : Expr entry → Expr entry → Bool) (type : Connective) :
    Expr entry → Expr entry → Expr entry × Expr entry
  | .two connective left right, e2 =>
      if connective = type then
        let onLeft := eliminateOperands equal type left e2
        let onRight := eliminateOperands equal type right onLeft.2
        (.two connective onLeft.1 onRight.1, onRight.2)
      else eliminateAgainst equal type (.two connective left right) e2
  | e1, e2 => eliminateAgainst equal type e1 e2

def connectiveOf : Expr entry → Option Connective
  | .two type _ _ => some type
  | _ => none

def eliminateFor (equal : Expr entry → Expr entry → Bool) :
    Option Connective → Expr entry → Expr entry → Expr entry × Expr entry
  | some type, e1, e2 => eliminateOperands equal type e1 e2
  | none, e1, e2 => (e1, e2)

/-- The operands of the first connective are taken out before those of the second. -/
def eliminateShared (equal : Expr entry → Expr entry → Bool) (e1 e2 : Expr entry) :
    Expr entry × Expr entry :=
  let first := eliminateFor equal (connectiveOf e1) e1 e2
  let second := if connectiveOf first.1 = connectiveOf first.2 then first
    else eliminateFor equal (connectiveOf first.2) first.1 first.2
  (exprEliminateYn second.1, exprEliminateYn second.2)

def sameSymbol : Expr entry → Expr entry → Bool
  | .symbol sym1, .symbol sym2 => decide (sym1 = sym2)
  | _, _ => false

def exprEqWithin : Nat → Expr entry → Expr entry → Bool
  | 0, _, _ => false
  | fuel + 1, e1, e2 =>
      match e1, e2 with
      | .comp type1 left1 right1, .comp type2 left2 right2 =>
          decide (type1 = type2) && (decide (left1 = left2) && decide (right1 = right2))
      | .symbol sym1, .symbol sym2 => decide (sym1 = sym2)
      | .not operand1, .not operand2 => exprEqWithin fuel operand1 operand2
      | .two type1 left1 right1, .two type2 left2 right2 =>
          if type1 = type2 then
            let rest := eliminateShared (exprEqWithin fuel) (.two type1 left1 right1)
              (.two type2 left2 right2)
            sameSymbol rest.1 rest.2
          else false
      | _, _ => false

def size : Expr entry → Nat
  | .symbol _ => 1
  | .not operand => size operand + 1
  | .two _ left right => size left + size right + 1
  | .comp _ _ _ => 1

def exprEq (e1 e2 : Expr entry) : Bool := exprEqWithin (size e1) e1 e2

def exprEliminateEq (e1 e2 : Expr entry) : Expr entry × Expr entry := eliminateShared exprEq e1 e2

end Shared

/-! ### What is taken out -/

section Common

instance (type : Connective) : Std.Commutative type.apply :=
  ⟨by intro left right; cases type <;> cases left <;> cases right <;> rfl⟩

instance (type : Connective) : Std.Associative type.apply :=
  ⟨by intro first second third; cases type <;> cases first <;> cases second <;> cases third <;> rfl⟩

theorem apply_neutral (type : Connective) (value : Tristate) :
    type.apply value (neutral type) = value := by
  cases type <;> cases value <;> rfl

theorem neutral_apply (type : Connective) (value : Tristate) :
    type.apply (neutral type) value = value := by
  cases type <;> cases value <;> rfl

theorem apply_absorbing (type : Connective) (value : Tristate) :
    type.apply value (absorbing type) = absorbing type := by
  cases type <;> cases value <;> rfl

theorem absorbing_apply (type : Connective) (value : Tristate) :
    type.apply (absorbing type) value = absorbing type := by
  cases type <;> cases value <;> rfl

theorem apply_mono (type : Connective) {left right : Tristate} (below : left ≤ right)
    (common : Tristate) : type.apply left common ≤ type.apply right common := by
  revert below
  cases type <;> cases left <;> cases right <;> cases common <;> decide

/-- Two values lose the same operand. -/
def Shared (type : Connective) (value1 value2 rest1 rest2 : Tristate) : Prop :=
  ∃ common, value1 = type.apply rest1 common ∧ value2 = type.apply rest2 common

variable {type : Connective}

theorem shared_nothing (value1 value2 : Tristate) : Shared type value1 value2 value1 value2 :=
  ⟨neutral type, (apply_neutral type value1).symm, (apply_neutral type value2).symm⟩

theorem shared_all (value : Tristate) :
    Shared type value value (neutral type) (neutral type) :=
  ⟨value, (neutral_apply type value).symm, (neutral_apply type value).symm⟩

/-- The first expression against the two halves of the second. -/
theorem shared_second {value1 rest1 last1 left right restLeft restRight : Tristate}
    (onLeft : Shared type value1 left rest1 restLeft)
    (onRight : Shared type rest1 right last1 restRight) :
    Shared type value1 (type.apply left right) last1 (type.apply restLeft restRight) := by
  obtain ⟨common, rfl, rfl⟩ := onLeft
  obtain ⟨other, rfl, rfl⟩ := onRight
  refine ⟨type.apply other common, ?_, ?_⟩
  · ac_rfl
  · ac_rfl

/-- The two halves of the first expression against the second. -/
theorem shared_first {value2 rest2 last2 left right restLeft restRight : Tristate}
    (onLeft : Shared type left value2 restLeft rest2)
    (onRight : Shared type right rest2 restRight last2) :
    Shared type (type.apply left right) value2 (type.apply restLeft restRight) last2 := by
  obtain ⟨common, rfl, rfl⟩ := onLeft
  obtain ⟨other, rfl, rfl⟩ := onRight
  refine ⟨type.apply other common, ?_, ?_⟩
  · ac_rfl
  · ac_rfl

/-- What holds between the rests holds between the values. -/
theorem shared_le {value1 value2 rest1 rest2 : Tristate}
    (shared : Shared type value1 value2 rest1 rest2) (below : rest1 ≤ rest2) :
    value1 ≤ value2 := by
  obtain ⟨common, rfl, rfl⟩ := shared
  exact apply_mono type below common

theorem shared_ge {value1 value2 rest1 rest2 : Tristate}
    (shared : Shared type value1 value2 rest1 rest2) (above : rest2 ≤ rest1) :
    value2 ≤ value1 := by
  obtain ⟨common, rfl, rfl⟩ := shared
  exact apply_mono type above common

theorem shared_eq {value1 value2 rest1 rest2 : Tristate}
    (shared : Shared type value1 value2 rest1 rest2) (same : rest1 = rest2) :
    value1 = value2 := by
  obtain ⟨common, rfl, rfl⟩ := shared
  rw [same]

end Common

/-! ### The values -/

section Values

variable {table : SymbolTable entry} {values : Values entry}

theorem constSymbol_value (value : Tristate) :
    exprCalcValue table values (.symbol (constSymbol value)) = value := by
  cases value <;> rfl

theorem isConstant_iff {value : Tristate} {e : Expr entry} :
    isConstant value e = true ↔ e = .symbol (constSymbol value) := by
  cases e with
  | symbol sym => cases sym <;> cases value <;> simp [isConstant, constSymbol]
  | not operand => cases value <;> simp [isConstant]
  | two type left right => cases value <;> simp [isConstant]
  | comp type left right => cases value <;> simp [isConstant]

theorem withoutConstants_value (type : Connective) (left right : Expr entry) :
    exprCalcValue table values (withoutConstants type left right) =
      type.apply (exprCalcValue table values left) (exprCalcValue table values right) := by
  unfold withoutConstants
  split
  next isLeft =>
    rw [isConstant_iff.mp isLeft, constSymbol_value, absorbing_apply]
  · split
    next isLeft => rw [isConstant_iff.mp isLeft, constSymbol_value, neutral_apply]
    · split
      next isRight => rw [isConstant_iff.mp isRight, constSymbol_value, apply_absorbing]
      · split
        next isRight => rw [isConstant_iff.mp isRight, constSymbol_value, apply_neutral]
        · rfl

theorem eliminateYn_value (e : Expr entry) :
    exprCalcValue table values (exprEliminateYn e) = exprCalcValue table values e := by
  induction e with
  | symbol sym => rfl
  | not operand => rfl
  | comp type left right => rfl
  | two type left right ihLeft ihRight =>
      rw [exprEliminateYn, withoutConstants_value, ihLeft, ihRight]
      rfl

variable [DecidableEq entry]

/-- An equality that only finds expressions of the same value. -/
def Sound (table : SymbolTable entry) (values : Values entry)
    (equal : Expr entry → Expr entry → Bool) : Prop :=
  ∀ e1 e2, equal e1 e2 = true → exprCalcValue table values e1 = exprCalcValue table values e2

/-- The values of two expressions and of what is left of them. -/
abbrev SharedValues (table : SymbolTable entry) (values : Values entry) (type : Connective)
    (e1 e2 : Expr entry) (rest : Expr entry × Expr entry) : Prop :=
  Shared type (exprCalcValue table values e1) (exprCalcValue table values e2)
    (exprCalcValue table values rest.1) (exprCalcValue table values rest.2)

variable {equal : Expr entry → Expr entry → Bool}

theorem eliminatePair_shared (sound : Sound table values equal) (type : Connective)
    (e1 e2 : Expr entry) :
    SharedValues table values type e1 e2 (eliminatePair equal type e1 e2) := by
  unfold eliminatePair
  split
  · exact shared_nothing _ _
  · split
    next same =>
      unfold SharedValues
      rw [sound e1 e2 same, constSymbol_value]
      exact shared_all _
    · exact shared_nothing _ _

theorem eliminateAgainst_shared (sound : Sound table values equal) (type : Connective)
    (e1 e2 : Expr entry) :
    SharedValues table values type e1 e2 (eliminateAgainst equal type e1 e2) := by
  induction e2 generalizing e1 with
  | symbol sym => exact eliminatePair_shared sound type e1 _
  | not operand => exact eliminatePair_shared sound type e1 _
  | comp relation left right => exact eliminatePair_shared sound type e1 _
  | two connective left right ihLeft ihRight =>
      unfold eliminateAgainst
      split
      next same =>
        cases same
        exact shared_second (ihLeft e1) (ihRight _)
      · exact eliminatePair_shared sound type e1 _

theorem eliminateOperands_shared (sound : Sound table values equal) (type : Connective)
    (e1 e2 : Expr entry) :
    SharedValues table values type e1 e2 (eliminateOperands equal type e1 e2) := by
  induction e1 generalizing e2 with
  | symbol sym => exact eliminateAgainst_shared sound type _ e2
  | not operand => exact eliminateAgainst_shared sound type _ e2
  | comp relation left right => exact eliminateAgainst_shared sound type _ e2
  | two connective left right ihLeft ihRight =>
      unfold eliminateOperands
      split
      next same =>
        cases same
        exact shared_first (ihLeft e2) (ihRight _)
      · exact eliminateAgainst_shared sound type _ e2

/-- What holds between the rests of two expressions holds between the expressions. -/
def Reflects (relation : Tristate → Tristate → Prop) (table : SymbolTable entry)
    (values : Values entry) (e1 e2 : Expr entry) (rest : Expr entry × Expr entry) : Prop :=
  relation (exprCalcValue table values rest.1) (exprCalcValue table values rest.2) →
    relation (exprCalcValue table values e1) (exprCalcValue table values e2)

theorem eliminateFor_reflects {relation : Tristate → Tristate → Prop}
    (common : ∀ {type value1 value2 rest1 rest2}, Shared type value1 value2 rest1 rest2 →
      relation rest1 rest2 → relation value1 value2)
    (sound : Sound table values equal) (type : Option Connective) (e1 e2 : Expr entry) :
    Reflects relation table values e1 e2 (eliminateFor equal type e1 e2) := by
  cases type with
  | none => exact id
  | some type => exact common (eliminateOperands_shared sound type e1 e2)

theorem eliminateShared_reflects {relation : Tristate → Tristate → Prop}
    (common : ∀ {type value1 value2 rest1 rest2}, Shared type value1 value2 rest1 rest2 →
      relation rest1 rest2 → relation value1 value2)
    (sound : Sound table values equal) (e1 e2 : Expr entry) :
    Reflects relation table values e1 e2 (eliminateShared equal e1 e2) := by
  intro related
  unfold eliminateShared at related
  dsimp only at related
  rw [eliminateYn_value, eliminateYn_value] at related
  apply eliminateFor_reflects common sound (connectiveOf e1)
  split at related
  · exact related
  · exact eliminateFor_reflects common sound _ _ _ related

theorem sameSymbol_value {e1 e2 : Expr entry} (same : sameSymbol e1 e2 = true) :
    exprCalcValue table values e1 = exprCalcValue table values e2 := by
  unfold sameSymbol at same
  split at same
  · rw [of_decide_eq_true same]
  · cases same

theorem exprEqWithin_sound (fuel : Nat) : Sound table values (exprEqWithin fuel) := by
  induction fuel with
  | zero => exact fun _ _ impossible => absurd impossible Bool.false_ne_true
  | succ fuel ih =>
      intro e1 e2 same
      unfold exprEqWithin at same
      split at same
      · obtain ⟨type, symbols⟩ := Bool.and_eq_true_iff.mp same
        obtain ⟨left, right⟩ := Bool.and_eq_true_iff.mp symbols
        rw [of_decide_eq_true type, of_decide_eq_true left, of_decide_eq_true right]
      · rw [of_decide_eq_true same]
      · exact congrArg Tristate.not (ih _ _ same)
      · split at same
        · exact eliminateShared_reflects shared_eq ih _ _ (sameSymbol_value same)
        · cases same
      · cases same

/-- Equal expressions have the same value, whatever the symbols are. -/
theorem exprEq_sound {e1 e2 : Expr entry} (same : exprEq e1 e2 = true) :
    exprCalcValue table values e1 = exprCalcValue table values e2 :=
  exprEqWithin_sound _ e1 e2 same

/-- What is left of two expressions compares like the expressions. -/
theorem eliminateEq_reflects {relation : Tristate → Tristate → Prop}
    (common : ∀ {type value1 value2 rest1 rest2}, Shared type value1 value2 rest1 rest2 →
      relation rest1 rest2 → relation value1 value2) (e1 e2 : Expr entry) :
    Reflects relation table values e1 e2 (exprEliminateEq e1 e2) :=
  eliminateShared_reflects common (fun _ _ => exprEq_sound) e1 e2

end Values

/-! ### The recursion ends -/

section Ends

theorem size_pos (e : Expr entry) : 1 ≤ size e := by
  cases e <;> simp [size]

variable [DecidableEq entry] {equal again : Expr entry → Expr entry → Bool} {bound : Nat}

theorem eliminatePair_size (type : Connective) (e1 e2 : Expr entry) :
    size (eliminatePair equal type e1 e2).1 ≤ size e1 := by
  unfold eliminatePair
  split
  · exact Nat.le_refl _
  · split
    · exact size_pos e1
    · exact Nat.le_refl _

theorem eliminateAgainst_size (type : Connective) (e1 e2 : Expr entry) :
    size (eliminateAgainst equal type e1 e2).1 ≤ size e1 := by
  induction e2 generalizing e1 with
  | symbol sym => exact eliminatePair_size type e1 _
  | not operand => exact eliminatePair_size type e1 _
  | comp relation left right => exact eliminatePair_size type e1 _
  | two connective left right ihLeft ihRight =>
      unfold eliminateAgainst
      split
      · exact Nat.le_trans (ihRight _) (ihLeft e1)
      · exact eliminatePair_size type e1 _

variable (agree : ∀ e1 e2, size e1 ≤ bound → equal e1 e2 = again e1 e2)

include agree

theorem eliminatePair_agree (type : Connective) {e1 : Expr entry} (small : size e1 ≤ bound)
    (e2 : Expr entry) : eliminatePair equal type e1 e2 = eliminatePair again type e1 e2 := by
  unfold eliminatePair
  rw [agree e1 e2 small]

theorem eliminateAgainst_agree (type : Connective) {e1 : Expr entry} (small : size e1 ≤ bound)
    (e2 : Expr entry) : eliminateAgainst equal type e1 e2 = eliminateAgainst again type e1 e2 := by
  induction e2 generalizing e1 with
  | symbol sym => exact eliminatePair_agree agree type small _
  | not operand => exact eliminatePair_agree agree type small _
  | comp relation left right => exact eliminatePair_agree agree type small _
  | two connective left right ihLeft ihRight =>
      have shrunk : size (eliminateAgainst again type e1 left).1 ≤ bound :=
        Nat.le_trans (eliminateAgainst_size type e1 left) small
      unfold eliminateAgainst
      dsimp only
      rw [ihLeft small, ihRight shrunk, eliminatePair_agree agree type small]

theorem eliminateOperands_agree (type : Connective) {e1 : Expr entry} (small : size e1 ≤ bound)
    (e2 : Expr entry) :
    eliminateOperands equal type e1 e2 = eliminateOperands again type e1 e2 := by
  induction e1 generalizing e2 with
  | symbol sym => exact eliminateAgainst_agree agree type small e2
  | not operand => exact eliminateAgainst_agree agree type small e2
  | comp relation left right => exact eliminateAgainst_agree agree type small e2
  | two connective left right ihLeft ihRight =>
      unfold eliminateOperands
      dsimp only
      simp only [size] at small
      rw [ihLeft (by omega), ihRight (by omega),
        eliminateAgainst_agree agree type (by simp only [size]; omega) e2]

omit agree

theorem eliminateAgainst_connective {type : Connective} {e2 : Expr entry}
    (chain : connectiveOf e2 = some type) (e1 : Expr entry) :
    connectiveOf (eliminateAgainst equal type e1 e2).2 = some type := by
  cases e2 with
  | two connective left right =>
      cases chain
      unfold eliminateAgainst
      rw [if_pos rfl]
      rfl
  | symbol sym => cases chain
  | not operand => cases chain
  | comp relation left right => cases chain

theorem eliminateOperands_connective {type : Connective} {e2 : Expr entry}
    (chain : connectiveOf e2 = some type) (e1 : Expr entry) :
    connectiveOf (eliminateOperands equal type e1 e2).2 = some type := by
  induction e1 generalizing e2 with
  | symbol sym => exact eliminateAgainst_connective chain _
  | not operand => exact eliminateAgainst_connective chain _
  | comp relation left right => exact eliminateAgainst_connective chain _
  | two connective left right ihLeft ihRight =>
      unfold eliminateOperands
      split
      · exact ihRight (ihLeft chain)
      · exact eliminateAgainst_connective chain _

/-- Two chains of the same connective are compared operand by operand. -/
theorem eliminateShared_chains (type : Connective) (left1 right1 left2 right2 : Expr entry) :
    eliminateShared equal (.two type left1 right1) (.two type left2 right2) =
      let rest := eliminateOperands equal type (.two type left1 right1) (.two type left2 right2)
      (exprEliminateYn rest.1, exprEliminateYn rest.2) := by
  have second : connectiveOf (eliminateOperands equal type (.two type left1 right1)
      (.two type left2 right2)).2 = some type := eliminateOperands_connective rfl _
  have first : connectiveOf (eliminateOperands equal type (.two type left1 right1)
      (.two type left2 right2)).1 = some type := by
    unfold eliminateOperands
    rw [if_pos rfl]
    rfl
  exact congrArg (fun rest : Expr entry × Expr entry =>
    (exprEliminateYn rest.1, exprEliminateYn rest.2)) (if_pos (first.trans second.symm))

include agree in
theorem eliminateShared_agree (type : Connective) {left1 right1 : Expr entry}
    (small : size left1 + size right1 ≤ bound) (left2 right2 : Expr entry) :
    eliminateShared equal (.two type left1 right1) (.two type left2 right2) =
      eliminateShared again (.two type left1 right1) (.two type left2 right2) := by
  rw [eliminateShared_chains, eliminateShared_chains]
  -- Both walks start at the two halves, which are within the bound.
  unfold eliminateOperands
  dsimp only
  rw [if_pos rfl, if_pos rfl, eliminateOperands_agree agree type (by omega),
    eliminateOperands_agree agree type (by omega)]

theorem exprEqWithin_succ {fuel : Nat} {e1 : Expr entry} (enough : size e1 ≤ fuel)
    (e2 : Expr entry) : exprEqWithin (fuel + 1) e1 e2 = exprEqWithin fuel e1 e2 := by
  induction fuel generalizing e1 e2 with
  | zero => exact absurd enough (Nat.not_le.mpr (size_pos e1))
  | succ fuel ih =>
      cases e1 with
      | symbol sym => cases e2 <;> rfl
      | comp relation left right => cases e2 <;> rfl
      | not operand =>
          cases e2 with
          | not other => exact ih (Nat.le_of_succ_le_succ enough) other
          | symbol sym => rfl
          | two type left right => rfl
          | comp relation left right => rfl
      | two type left right =>
          cases e2 with
          | symbol sym => rfl
          | not other => rfl
          | comp relation left right => rfl
          | two other left2 right2 =>
              simp only [size] at enough
              change (if type = other then _ else _) = (if type = other then _ else _)
              split
              next same =>
                cases same
                rw [eliminateShared_agree (fun e1 e2 small => ih small e2) type (by omega)]
              · rfl

theorem exprEqWithin_eq {fuel : Nat} {e1 : Expr entry} (enough : size e1 ≤ fuel)
    (e2 : Expr entry) : exprEqWithin fuel e1 e2 = exprEq e1 e2 := by
  induction fuel, enough using Nat.le_induction with
  | base => rfl
  | succ fuel enough ih => exact (exprEqWithin_succ enough e2).trans ih

/-- Copies of two chains are compared by what is left of them. -/
theorem exprEq_two (type1 type2 : Connective) (left1 right1 left2 right2 : Expr entry) :
    exprEq (.two type1 left1 right1) (.two type2 left2 right2) =
      if type1 = type2 then
        let rest := exprEliminateEq (.two type1 left1 right1) (.two type2 left2 right2)
        sameSymbol rest.1 rest.2
      else false := by
  change (if type1 = type2 then _ else _) = _
  split
  next same =>
    cases same
    unfold exprEliminateEq
    dsimp only
    rw [eliminateShared_agree (fun e1 e2 small => exprEqWithin_eq small e2) type1 (Nat.le_refl _)]
  · rfl

end Ends

/-! ### Both directions -/

/-- Taking out what two expressions share hides no difference, and expressions that are found
equal have no difference, whatever the symbols are. -/
theorem eliminateEq_compares [DecidableEq entry] (table : SymbolTable entry)
    (values : Values entry) (e1 e2 : Expr entry) :
    let rest := exprEliminateEq e1 e2
    (exprCalcValue table values rest.1 ≤ exprCalcValue table values rest.2 →
      exprCalcValue table values e1 ≤ exprCalcValue table values e2) ∧
    (exprCalcValue table values rest.2 ≤ exprCalcValue table values rest.1 →
      exprCalcValue table values e2 ≤ exprCalcValue table values e1) ∧
    (exprEq e1 e2 = true → exprCalcValue table values e1 = exprCalcValue table values e2) :=
  ⟨eliminateEq_reflects shared_le e1 e2, eliminateEq_reflects shared_ge e1 e2, exprEq_sound⟩

/-- The driver needs the board, in either place, and a conjunction may be written in two ways. -/
theorem eliminateEq_compares_switches :
    let value := exprCalcValue switchTable switchValues
    let board : Expr Bool := .symbol (.entry false)
    let driver : Expr Bool := .two .and (.symbol (.entry true)) board
    exprEliminateEq driver board = (.symbol (.entry true), .symbol .yes) ∧
      value driver ≤ value board ∧ value driver ≤ value (.two .or board driver) ∧
      value (.two .and (.symbol (.entry true)) (.two .and board (.symbol .yes))) = value driver := by
  intro value board driver
  obtain ⟨below, _, _⟩ := eliminateEq_compares switchTable switchValues driver board
  obtain ⟨_, above, _⟩ := eliminateEq_compares switchTable switchValues
    (.two .or board driver) driver
  obtain ⟨_, _, same⟩ := eliminateEq_compares switchTable switchValues
    (.two .and (.symbol (.entry true)) (.two .and board (.symbol .yes))) driver
  exact ⟨rfl, below (by decide), above (by decide), same (by decide)⟩

end BuildLinux.Concrete.KconfigEquality
