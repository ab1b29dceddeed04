/-
Operands of `||` and `&&` that can be joined to one.

Every pass over a chain joins the pairs it finds and leaves a neutral constant
for each; the next pass starts without the constants.  So passes get smaller
expressions until one of them finds nothing.
-/

import BuildLinux.Concrete.KconfigEquality
import BuildLinux.OperandPairs

namespace BuildLinux.Concrete.KconfigDuplicates

open KconfigExpr KconfigTransform KconfigEquality OperandPairs

variable {entry : Type}

/-! ### Joining two operands -/

/-- The symbol that the first operand is about. -/
def firstSymbol : Expr entry → Option (Symbol entry)
  | .symbol sym => some sym
  | .comp .equal sym _ => some sym
  | .comp .unequal sym _ => some sym
  | .not (.symbol sym) => some sym
  | .not (.comp .equal sym _) => some sym
  | .not (.comp .unequal sym _) => some sym
  | _ => none

/-- The symbol that the second operand is about; it may not be a negated comparison. -/
def secondSymbol : Expr entry → Option (Symbol entry)
  | .symbol sym => some sym
  | .comp .equal sym _ => some sym
  | .comp .unequal sym _ => some sym
  | .not (.symbol sym) => some sym
  | _ => none

def joinSwitchOr (type : SymbolType) (sym : Symbol entry) (e1 e2 : Expr entry) :
    Option (Expr entry) :=
  match type, e1, e2 with
  -- (a='y') || (a='m') -> (a!='n')
  | .tristate, .comp .equal _ .yes, .comp .equal _ .mod => some (.comp .unequal sym .no)
  | .tristate, .comp .equal _ .mod, .comp .equal _ .yes => some (.comp .unequal sym .no)
  -- (a='y') || (a='n') -> (a!='m')
  | .tristate, .comp .equal _ .yes, .comp .equal _ .no => some (.comp .unequal sym .mod)
  | .tristate, .comp .equal _ .no, .comp .equal _ .yes => some (.comp .unequal sym .mod)
  -- (a='m') || (a='n') -> (a!='y')
  | .tristate, .comp .equal _ .mod, .comp .equal _ .no => some (.comp .unequal sym .yes)
  | .tristate, .comp .equal _ .no, .comp .equal _ .mod => some (.comp .unequal sym .yes)
  | .boolean, .not (.symbol _), .symbol _ => some (.symbol .yes)
  | .boolean, .symbol _, .not (.symbol _) => some (.symbol .yes)
  | _, _, _ => none

/-- What all switches have in common. -/
def joinSwitchAnd (sym : Symbol entry) (e1 e2 : Expr entry) : Option (Expr entry) :=
  match e1, e2 with
  -- (a) && (a='y') -> (a='y')
  | .symbol _, .comp .equal _ .yes => some (.comp .equal sym .yes)
  | .comp .equal _ .yes, .symbol _ => some (.comp .equal sym .yes)
  -- (a) && (a!='n') -> (a)
  | .symbol _, .comp .unequal _ .no => some (.symbol sym)
  | .comp .unequal _ .no, .symbol _ => some (.symbol sym)
  -- (a) && (a!='m') -> (a='y')
  | .symbol _, .comp .unequal _ .mod => some (.comp .equal sym .yes)
  | .comp .unequal _ .mod, .symbol _ => some (.comp .equal sym .yes)
  | _, _ => none

section Joins

variable [DecidableEq entry]

def commonSymbol (table : SymbolTable entry) (e1 e2 : Expr entry) : Option (Symbol entry) :=
  match firstSymbol e1, secondSymbol e2 with
  | some sym1, some sym2 =>
      if sym1 ≠ sym2 then none
      else if table.typeOf sym1 ≠ .boolean ∧ table.typeOf sym1 ≠ .tristate then none
      else some sym1
  | _, _ => none

def exprJoinOr (table : SymbolTable entry) (e1 e2 : Expr entry) : Option (Expr entry) :=
  if exprEq e1 e2 then some e1
  else
    match commonSymbol table e1 e2 with
    | some sym => joinSwitchOr (table.typeOf sym) sym e1 e2
    | none => none

/-- (a='b') && (a!='c') -> 'b'='c' ? 'n' : a='b' -/
def joinConstants (table : SymbolTable entry) (sym equal unequal : Symbol entry) :
    Option (Expr entry) :=
  if table.isConst unequal = true ∧ table.isConst equal = true then
    some (if equal ≠ unequal then .comp .equal sym equal else .symbol .no)
  else none

def joinTristateAnd (table : SymbolTable entry) (sym : Symbol entry) (e1 e2 : Expr entry) :
    Option (Expr entry) :=
  match e1, e2 with
  | .comp .equal _ right1, .comp .unequal _ right2 => joinConstants table sym right1 right2
  | .comp .unequal _ right1, .comp .equal _ right2 => joinConstants table sym right2 right1
  -- (a!='y') && (a!='n') -> (a='m')
  | .comp .unequal _ .yes, .comp .unequal _ .no => some (.comp .equal sym .mod)
  | .comp .unequal _ .no, .comp .unequal _ .yes => some (.comp .equal sym .mod)
  -- (a!='y') && (a!='m') -> (a='n')
  | .comp .unequal _ .yes, .comp .unequal _ .mod => some (.comp .equal sym .no)
  | .comp .unequal _ .mod, .comp .unequal _ .yes => some (.comp .equal sym .no)
  -- (a!='m') && (a!='n') -> (a='y'), which the source announces as (a='m')
  | .comp .unequal _ .mod, .comp .unequal _ .no => some (.comp .equal sym .yes)
  | .comp .unequal _ .no, .comp .unequal _ .mod => some (.comp .equal sym .yes)
  | _, _ => none

def exprJoinAnd (table : SymbolTable entry) (e1 e2 : Expr entry) : Option (Expr entry) :=
  if exprEq e1 e2 then some e1
  else
    match commonSymbol table e1 e2 with
    | some sym =>
        match joinSwitchAnd sym e1 e2 with
        | some joined => some joined
        | none =>
            if table.typeOf sym = .tristate then joinTristateAnd table sym e1 e2 else none
    | none => none

def joinOperands (table : SymbolTable entry) : Connective → Expr entry → Expr entry →
    Option (Expr entry)
  | .or => exprJoinOr table
  | .and => exprJoinAnd table

/-! ### Passes -/

/-- The operands of a chain, from left to right. -/
def operands (type : Connective) : Expr entry → List (Expr entry)
  | .two connective left right =>
      if connective = type then operands type left ++ operands type right
      else [.two connective left right]
  | e => [e]

/-- The chain with other operands; the links stay. -/
def withOperands (type : Connective) : Expr entry → List (Expr entry) → Expr entry
  | .two connective left right, others =>
      if connective = type then
        .two connective (withOperands type left (others.take (operands type left).length))
          (withOperands type right (others.drop (operands type left).length))
      else others.headD (.two connective left right)
  | e, others => others.headD e

def leaves : Expr entry → Nat
  | .symbol _ => 1
  | .not operand => leaves operand
  | .two _ left right => leaves left + leaves right
  | .comp _ _ _ => 1

def chainRules (table : SymbolTable entry) (inside : Expr entry → Expr entry × Nat)
    (type : Connective) : Rules (Expr entry) where
  inside := inside
  join := joinOperands table type
  neutral := .symbol (constSymbol (neutral type))

/-- The two pointers of `expr_eliminate_dups1` run over the operands of the chain.  Both are in the
same chain, so what is joined is seen by the rest of the pass. -/
def dups1Within (table : SymbolTable entry) : Nat → Expr entry → Expr entry × Nat
  | fuel + 1, .two type left right =>
      let result := rewrite (chainRules table (dups1Within table fuel) type)
        (operands type (.two type left right))
      (withOperands type (.two type left right) result.1, result.2)
  | _, e => (e, 0)

/-- One pass, with the number of pairs that it joined. -/
def exprEliminateDups1 (table : SymbolTable entry) (e : Expr entry) : Expr entry × Nat :=
  dups1Within table (leaves e) e

def eliminateDupsWithin (table : SymbolTable entry) : Nat → Expr entry → Expr entry
  | 0, e => e
  | fuel + 1, e =>
      let pass := exprEliminateDups1 table e
      if pass.2 = 0 then pass.1 else eliminateDupsWithin table fuel (exprEliminateYn pass.1)

def exprEliminateDups (table : SymbolTable entry) (e : Expr entry) : Expr entry :=
  eliminateDupsWithin table (leaves e) e

end Joins

/-! ### Values -/

section Values

variable {table : SymbolTable entry} {values : Values entry}

theorem constant_text (coherent : Coherent table values) {index : entry}
    (const : table.const index = true) :
    symGetStringValue table values (.entry index) = table.name index := by
  have untyped := table.constUntyped index const
  have noSwitch : ¬(table.type index = .boolean ∨ table.type index = .tristate) := by
    rw [untyped]
    decide
  exact (if_neg noSwitch).trans (coherent.unknown index untyped)

theorem constant_cases {sym : Symbol entry} (const : table.isConst sym = true) :
    (∃ value, sym = constSymbol value) ∨ ∃ index, sym = .entry index ∧ table.const index = true := by
  cases sym with
  | yes => exact Or.inl ⟨.yes, rfl⟩
  | mod => exact Or.inl ⟨.mod, rfl⟩
  | no => exact Or.inl ⟨.no, rfl⟩
  | entry index => exact Or.inr ⟨index, rfl, const⟩

theorem constant_listed {index : entry} (const : table.const index = true) (value : Tristate) :
    table.name index ≠ tristateText value := by
  obtain ⟨notYes, notMod, notNo⟩ := table.constListed index const
  cases value with
  | yes => exact notYes
  | mod => exact notMod
  | no => exact notNo

/-- Different constants have different texts. -/
theorem constants_distinct (coherent : Coherent table values) {left right : Symbol entry}
    (leftConst : table.isConst left = true) (rightConst : table.isConst right = true)
    (same : symGetStringValue table values left = symGetStringValue table values right) :
    left = right := by
  rcases constant_cases leftConst with ⟨value, rfl⟩ | ⟨index, rfl, named⟩
  · rw [constSymbol_text] at same
    rcases constant_cases rightConst with ⟨other, rfl⟩ | ⟨index, rfl, named⟩
    · rw [constSymbol_text] at same
      rw [tristateText_injective same]
    · rw [constant_text coherent named] at same
      exact absurd same.symm (constant_listed named value)
  · rw [constant_text coherent named] at same
    rcases constant_cases rightConst with ⟨value, rfl⟩ | ⟨other, rfl, also⟩
    · rw [constSymbol_text] at same
      exact absurd same (constant_listed named value)
    · rw [constant_text coherent also] at same
      rw [table.constName index other named also same]

theorem joinSwitchOr_value (coherent : Coherent table values) {sym : Symbol entry}
    (switch : IsSwitch table sym) {e1 e2 joined : Expr entry}
    (first : firstSymbol e1 = some sym) (second : secondSymbol e2 = some sym)
    (found : joinSwitchOr (table.typeOf sym) sym e1 e2 = some joined) :
    exprCalcValue table values joined =
      Tristate.or (exprCalcValue table values e1) (exprCalcValue table values e2) := by
  have isYes := equal_const coherent switch .yes
  have isMod := equal_const coherent switch .mod
  have isNo := equal_const coherent switch .no
  have notYes := unequal_const coherent switch .yes
  have notMod := unequal_const coherent switch .mod
  have notNo := unequal_const coherent switch .no
  simp only [constSymbol] at isYes isMod isNo notYes notMod notNo
  unfold joinSwitchOr at found
  split at found <;> cases found <;> cases first <;> cases second
  case h_1 => rw [isYes, isMod, notNo]; cases values.triOf sym <;> rfl
  case h_2 => rw [isYes, isMod, notNo]; cases values.triOf sym <;> rfl
  case h_3 => rw [isYes, isNo, notMod]; cases values.triOf sym <;> rfl
  case h_4 => rw [isYes, isNo, notMod]; cases values.triOf sym <;> rfl
  case h_5 => rw [isMod, isNo, notYes]; cases values.triOf sym <;> rfl
  case h_6 => rw [isMod, isNo, notYes]; cases values.triOf sym <;> rfl
  case h_7 boolean =>
    have decided := boolean_decided coherent boolean
    change Tristate.yes = Tristate.or (values.triOf sym).not (values.triOf sym)
    cases value : values.triOf sym with
    | mod => exact absurd value decided
    | yes => rfl
    | no => rfl
  case h_8 boolean =>
    have decided := boolean_decided coherent boolean
    change Tristate.yes = Tristate.or (values.triOf sym) (values.triOf sym).not
    cases value : values.triOf sym with
    | mod => exact absurd value decided
    | yes => rfl
    | no => rfl

theorem joinSwitchAnd_value (coherent : Coherent table values) {sym : Symbol entry}
    (switch : IsSwitch table sym) {e1 e2 joined : Expr entry}
    (first : firstSymbol e1 = some sym) (second : secondSymbol e2 = some sym)
    (found : joinSwitchAnd sym e1 e2 = some joined) :
    exprCalcValue table values joined =
      Tristate.and (exprCalcValue table values e1) (exprCalcValue table values e2) := by
  have isYes := equal_const coherent switch .yes
  have notMod := unequal_const coherent switch .mod
  have notNo := unequal_const coherent switch .no
  have itself : exprCalcValue table values (.symbol sym) = values.triOf sym := rfl
  simp only [constSymbol] at isYes notMod notNo
  unfold joinSwitchAnd at found
  split at found <;> cases found <;> cases first <;> cases second
  case h_1 => rw [isYes, itself]; cases values.triOf sym <;> rfl
  case h_2 => rw [isYes, itself]; cases values.triOf sym <;> rfl
  case h_3 => rw [notNo, itself]; cases values.triOf sym <;> rfl
  case h_4 => rw [notNo, itself]; cases values.triOf sym <;> rfl
  case h_5 => rw [isYes, notMod, itself]; cases values.triOf sym <;> rfl
  case h_6 => rw [isYes, notMod, itself]; cases values.triOf sym <;> rfl

theorem and_not_same (holds : Bool) :
    Tristate.and (.ofBool holds) (Tristate.ofBool holds).not = .no := by
  cases holds <;> rfl

theorem and_comm (left right : Tristate) : Tristate.and left right = Tristate.and right left := by
  cases left <;> cases right <;> rfl

theorem apply_self (type : Connective) (value : Tristate) : type.apply value value = value := by
  cases type <;> cases value <;> rfl

variable [DecidableEq entry]

theorem commonSymbol_some {e1 e2 : Expr entry} {sym : Symbol entry}
    (common : commonSymbol table e1 e2 = some sym) :
    firstSymbol e1 = some sym ∧ secondSymbol e2 = some sym ∧ IsSwitch table sym := by
  unfold commonSymbol at common
  split at common
  next sym1 sym2 first second =>
    split at common
    · cases common
    next same =>
      split at common
      · cases common
      next switch =>
        cases common
        rw [not_not] at same
        refine ⟨first, same ▸ second, ?_⟩
        unfold IsSwitch
        tauto
  · cases common

theorem joinConstants_value (coherent : Coherent table values) {sym : Symbol entry}
    (switch : IsSwitch table sym) {equal unequal : Symbol entry} {joined : Expr entry}
    (found : joinConstants table sym equal unequal = some joined) :
    exprCalcValue table values joined =
      Tristate.and (exprCalcValue table values (.comp .equal sym equal))
        (exprCalcValue table values (.comp .unequal sym unequal)) := by
  have negation := negated_value table values .equal sym unequal
  change exprCalcValue table values (.comp .unequal sym unequal) = _ at negation
  rw [negation, switch_compared coherent switch, switch_compared coherent switch]
  unfold joinConstants at found
  split at found
  next consts =>
    cases found
    split
    next distinct =>
      rw [switch_compared coherent switch]
      -- A switch that has the one text does not have the other.
      have texts : symGetStringValue table values equal ≠
          symGetStringValue table values unequal :=
        fun same => distinct (constants_distinct coherent consts.2 consts.1 same)
      by_cases matched : tristateText (values.triOf sym) = symGetStringValue table values equal
      · rw [matched, beq_self_eq_true, beq_false_of_ne texts]
        rfl
      · rw [beq_false_of_ne matched]
        cases tristateText (values.triOf sym) == symGetStringValue table values unequal <;> rfl
    next same =>
      rw [not_not] at same
      rw [same, and_not_same]
      rfl
  · cases found

theorem joinTristateAnd_value (coherent : Coherent table values) {sym : Symbol entry}
    (switch : IsSwitch table sym) {e1 e2 joined : Expr entry}
    (first : firstSymbol e1 = some sym) (second : secondSymbol e2 = some sym)
    (found : joinTristateAnd table sym e1 e2 = some joined) :
    exprCalcValue table values joined =
      Tristate.and (exprCalcValue table values e1) (exprCalcValue table values e2) := by
  have isYes := equal_const coherent switch .yes
  have isMod := equal_const coherent switch .mod
  have isNo := equal_const coherent switch .no
  have notYes := unequal_const coherent switch .yes
  have notMod := unequal_const coherent switch .mod
  have notNo := unequal_const coherent switch .no
  simp only [constSymbol] at isYes isMod isNo notYes notMod notNo
  unfold joinTristateAnd at found
  split at found
  case h_1 =>
    cases first
    cases second
    exact joinConstants_value coherent switch found
  case h_2 =>
    cases first
    cases second
    rw [and_comm]
    exact joinConstants_value coherent switch found
  all_goals cases found <;> cases first <;> cases second
  case h_3 => rw [isMod, notYes, notNo]; cases values.triOf sym <;> rfl
  case h_4 => rw [isMod, notYes, notNo]; cases values.triOf sym <;> rfl
  case h_5 => rw [isNo, notYes, notMod]; cases values.triOf sym <;> rfl
  case h_6 => rw [isNo, notYes, notMod]; cases values.triOf sym <;> rfl
  case h_7 => rw [isYes, notMod, notNo]; cases values.triOf sym <;> rfl
  case h_8 => rw [isYes, notMod, notNo]; cases values.triOf sym <;> rfl

/-- What two operands are joined to has their value. -/
theorem joinOperands_value (coherent : Coherent table values) (type : Connective)
    {e1 e2 joined : Expr entry} (found : joinOperands table type e1 e2 = some joined) :
    exprCalcValue table values joined =
      type.apply (exprCalcValue table values e1) (exprCalcValue table values e2) := by
  have equal (same : exprEq e1 e2 = true) : exprCalcValue table values e1 =
      type.apply (exprCalcValue table values e1) (exprCalcValue table values e2) := by
    have values : exprCalcValue table values e1 = exprCalcValue table values e2 :=
      exprEq_sound same
    rw [← values, apply_self]
  cases type with
  | or =>
      change exprJoinOr table e1 e2 = some joined at found
      unfold exprJoinOr at found
      split at found
      next same =>
        cases found
        exact equal same
      · split at found
        next sym common =>
          obtain ⟨first, second, switch⟩ := commonSymbol_some common
          exact joinSwitchOr_value coherent switch first second found
        · cases found
  | and =>
      change exprJoinAnd table e1 e2 = some joined at found
      unfold exprJoinAnd at found
      split at found
      next same =>
        cases found
        exact equal same
      · split at found
        next sym common =>
          obtain ⟨first, second, switch⟩ := commonSymbol_some common
          split at found
          next result joins =>
            cases found
            exact joinSwitchAnd_value coherent switch first second joins
          next =>
            split at found
            · exact joinTristateAnd_value coherent switch first second found
            · cases found
        · cases found

end Values

/-! ### Passes keep the value -/

section Passes

variable {table : SymbolTable entry} {values : Values entry}

theorem apply_assoc (type : Connective) (first second third : Tristate) :
    type.apply (type.apply first second) third = type.apply first (type.apply second third) :=
  Std.Associative.assoc first second third

/-- The operands of a chain put together. -/
abbrev chainValue (table : SymbolTable entry) (values : Values entry) (type : Connective) :
    List (Expr entry) → Tristate :=
  total type.apply (neutral type) (exprCalcValue table values)

theorem chainValue_append (type : Connective) (first second : List (Expr entry)) :
    chainValue table values type (first ++ second) =
      type.apply (chainValue table values type first) (chainValue table values type second) :=
  total_append (apply_assoc type) (neutral_apply type) first second

theorem chainValue_single (type : Connective) (e : Expr entry) :
    chainValue table values type [e] = exprCalcValue table values e :=
  apply_neutral type _

/-- A chain is a link of two chains or one operand. -/
theorem chain_induction (type : Connective) {motive : Expr entry → Prop}
    (link : ∀ left right, motive left → motive right → motive (.two type left right))
    (single : ∀ e, operands type e = [e] → (∀ others, withOperands type e others = others.headD e) →
      motive e) (e : Expr entry) : motive e := by
  induction e with
  | symbol sym => exact single _ rfl fun others => rfl
  | not operand => exact single _ rfl fun others => rfl
  | comp relation left right => exact single _ rfl fun others => rfl
  | two connective left right ihLeft ihRight =>
      by_cases same : connective = type
      · rw [same]
        exact link left right ihLeft ihRight
      · exact single _ (if_neg same) fun others => if_neg same

theorem operands_link (type : Connective) (left right : Expr entry) :
    operands type (.two type left right) = operands type left ++ operands type right :=
  if_pos rfl

theorem withOperands_link (type : Connective) (left right : Expr entry)
    (others : List (Expr entry)) :
    withOperands type (.two type left right) others =
      .two type (withOperands type left (others.take (operands type left).length))
        (withOperands type right (others.drop (operands type left).length)) :=
  if_pos rfl

/-- What is put into the two halves of a link fits there. -/
theorem halves_fit {type : Connective} {left right : Expr entry} {others : List (Expr entry)}
    (fits : others.length = (operands type (.two type left right)).length) :
    (others.take (operands type left).length).length = (operands type left).length ∧
      (others.drop (operands type left).length).length = (operands type right).length := by
  rw [operands_link, List.length_append] at fits
  rw [List.length_take, List.length_drop]
  omega

theorem withOperands_value (type : Connective) (e : Expr entry) {others : List (Expr entry)}
    (fits : others.length = (operands type e).length) :
    exprCalcValue table values (withOperands type e others) =
      chainValue table values type others := by
  induction e using chain_induction type generalizing others with
  | link left right ihLeft ihRight =>
      obtain ⟨leftFits, rightFits⟩ := halves_fit fits
      rw [withOperands_link]
      change type.apply _ _ = _
      rw [ihLeft leftFits, ihRight rightFits, ← chainValue_append, List.take_append_drop]
  | single e alone placed =>
      rw [alone] at fits
      obtain ⟨only, rfl⟩ := List.length_eq_one_iff.mp fits
      rw [placed]
      exact (chainValue_single type only).symm

theorem withOperands_self (type : Connective) (e : Expr entry) :
    withOperands type e (operands type e) = e := by
  induction e using chain_induction type with
  | link left right ihLeft ihRight =>
      rw [withOperands_link, operands_link, List.take_left, List.drop_left, ihLeft, ihRight]
  | single e alone placed =>
      rw [placed, alone]
      rfl

theorem operands_value (type : Connective) (e : Expr entry) :
    chainValue table values type (operands type e) = exprCalcValue table values e := by
  rw [← withOperands_value type e rfl, withOperands_self]

variable [DecidableEq entry]

theorem dups1Within_value (coherent : Coherent table values) (fuel : Nat) (e : Expr entry) :
    exprCalcValue table values (dups1Within table fuel e).1 = exprCalcValue table values e := by
  induction fuel generalizing e with
  | zero => rfl
  | succ fuel ih =>
      cases e with
      | symbol sym => rfl
      | not operand => rfl
      | comp relation left right => rfl
      | two type left right =>
          change exprCalcValue table values (withOperands _ _ _) = _
          rw [withOperands_value _ _ (rewrite_length _ _), ← operands_value type (.two type left right)]
          refine rewrite_total _ (fun visited => ?_) _
          cases visited with
          | joined found =>
              change type.apply (exprCalcValue table values (.symbol _)) _ = _
              rw [constSymbol_value, neutral_apply, joinOperands_value coherent type found]
              exact congrArg (type.apply · _) (ih _)
          | apart none => exact congrArg (type.apply · _) (ih _)

theorem eliminateDupsWithin_value (coherent : Coherent table values) (fuel : Nat) (e : Expr entry) :
    exprCalcValue table values (eliminateDupsWithin table fuel e) =
      exprCalcValue table values e := by
  induction fuel generalizing e with
  | zero => rfl
  | succ fuel ih =>
      have pass : exprCalcValue table values (exprEliminateDups1 table e).1 =
          exprCalcValue table values e := dups1Within_value coherent _ e
      unfold eliminateDupsWithin
      dsimp only
      split
      · exact pass
      · rw [ih, eliminateYn_value, pass]

end Passes

/-! ### Passes end -/

section Ends

theorem leaves_pos (e : Expr entry) : 1 ≤ leaves e := by
  induction e with
  | symbol sym => exact Nat.le_refl 1
  | not operand ih => exact ih
  | comp relation left right => exact Nat.le_refl 1
  | two type left right ihLeft ihRight => exact Nat.le_trans ihLeft (Nat.le_add_right _ _)

theorem leaves_append (first second : List (Expr entry)) :
    total Nat.add 0 leaves (first ++ second) =
      Nat.add (total Nat.add 0 leaves first) (total Nat.add 0 leaves second) :=
  total_append Nat.add_assoc Nat.zero_add first second

theorem withOperands_leaves (type : Connective) (e : Expr entry) {others : List (Expr entry)}
    (fits : others.length = (operands type e).length) :
    leaves (withOperands type e others) = total Nat.add 0 leaves others := by
  induction e using chain_induction type generalizing others with
  | link left right ihLeft ihRight =>
      obtain ⟨leftFits, rightFits⟩ := halves_fit fits
      rw [withOperands_link]
      change Nat.add (leaves _) (leaves _) = _
      rw [ihLeft leftFits, ihRight rightFits,
        ← leaves_append, List.take_append_drop]
  | single e alone placed =>
      rw [alone] at fits
      obtain ⟨only, rfl⟩ := List.length_eq_one_iff.mp fits
      rw [placed]
      rfl

theorem operands_leaves (type : Connective) (e : Expr entry) :
    total Nat.add 0 leaves (operands type e) = leaves e := by
  rw [← withOperands_leaves type e rfl, withOperands_self]

theorem operand_leaves {type : Connective} {e operand : Expr entry}
    (member : operand ∈ operands type e) : leaves operand ≤ leaves e := by
  induction e using chain_induction type with
  | link left right ihLeft ihRight =>
      rw [operands_link] at member
      rcases List.mem_append.mp member with inLeft | inRight
      · exact Nat.le_trans (ihLeft inLeft) (Nat.le_add_right _ _)
      · exact Nat.le_trans (ihRight inRight) (Nat.le_add_left _ _)
  | single e alone placed =>
      rw [alone] at member
      rw [List.mem_singleton.mp member]

/-- Another operand stands beside each one of a link. -/
theorem link_leaves {type : Connective} {left right operand : Expr entry}
    (member : operand ∈ operands type (.two type left right)) :
    leaves operand < leaves (.two type left right) := by
  rw [operands_link] at member
  have leftPos := leaves_pos left
  have rightPos := leaves_pos right
  change _ < leaves left + leaves right
  rcases List.mem_append.mp member with inLeft | inRight
  · have bound := operand_leaves inLeft
    omega
  · have bound := operand_leaves inRight
    omega

def IsNeutral (type : Connective) (e : Expr entry) : Prop :=
  e = .symbol (constSymbol (neutral type))

/-- A neutral constant stands in one of the chains. -/
def Reducible : Expr entry → Prop
  | .two type left right =>
      (IsNeutral type left ∨ Reducible left) ∨ IsNeutral type right ∨ Reducible right
  | _ => False

theorem withOperands_reducible {type : Connective} (e : Expr entry) {others : List (Expr entry)}
    (fits : others.length = (operands type e).length)
    (reducible : ∃ operand ∈ others, IsNeutral type operand ∨ Reducible operand) :
    IsNeutral type (withOperands type e others) ∨ Reducible (withOperands type e others) := by
  induction e using chain_induction type generalizing others with
  | link left right ihLeft ihRight =>
      obtain ⟨leftFits, rightFits⟩ := halves_fit fits
      obtain ⟨operand, member, found⟩ := reducible
      rw [withOperands_link]
      rw [← List.take_append_drop (operands type left).length others] at member
      rcases List.mem_append.mp member with inLeft | inRight
      · exact Or.inr (Or.inl (ihLeft leftFits ⟨operand, inLeft, found⟩))
      · exact Or.inr (Or.inr (ihRight rightFits ⟨operand, inRight, found⟩))
  | single e alone placed =>
      rw [alone] at fits
      obtain ⟨only, rfl⟩ := List.length_eq_one_iff.mp fits
      obtain ⟨operand, member, found⟩ := reducible
      rw [placed]
      exact List.mem_singleton.mp member ▸ found

theorem withoutConstants_leaves (type : Connective) (left right : Expr entry) :
    leaves (withoutConstants type left right) ≤ leaves left + leaves right ∧
      (IsNeutral type left ∨ IsNeutral type right →
        leaves (withoutConstants type left right) < leaves left + leaves right) := by
  have leftPos := leaves_pos left
  have rightPos := leaves_pos right
  unfold withoutConstants
  split
  · simp only [leaves]
    omega
  · split
    · omega
    next notLeft =>
      split
      · simp only [leaves]
        omega
      · split
        · omega
        next notRight =>
          refine ⟨Nat.le_refl _, fun neutral => ?_⟩
          rcases neutral with isLeft | isRight
          · exact absurd (isConstant_iff.mpr isLeft) notLeft
          · exact absurd (isConstant_iff.mpr isRight) notRight

theorem operands_two (type : Connective) (left right : Expr entry) :
    2 ≤ (operands type (.two type left right)).length := by
  have nonempty (e : Expr entry) : 1 ≤ (operands type e).length := by
    induction e using chain_induction type with
    | link left right ihLeft ihRight =>
        rw [operands_link, List.length_append]
        omega
    | single e alone placed =>
        rw [alone]
        exact Nat.le_refl 1
  rw [operands_link, List.length_append]
  exact Nat.add_le_add (nonempty left) (nonempty right)

/-- Each of two or more positions has another one. -/
theorem other_position {count : Nat} (position : Nat) (several : 2 ≤ count) :
    ∃ other, position ≠ other ∧ other < count := by
  by_cases first : position = 0
  · exact ⟨1, by omega, by omega⟩
  · exact ⟨0, first, by omega⟩

/-- Without its constants a reducible expression is smaller. -/
theorem eliminateYn_leaves (e : Expr entry) :
    leaves (exprEliminateYn e) ≤ leaves e ∧
      (Reducible e → leaves (exprEliminateYn e) < leaves e) := by
  induction e with
  | symbol sym => exact ⟨Nat.le_refl _, False.elim⟩
  | not operand => exact ⟨Nat.le_refl _, False.elim⟩
  | comp relation left right => exact ⟨Nat.le_refl _, False.elim⟩
  | two type left right ihLeft ihRight =>
      obtain ⟨bound, strict⟩ :=
        withoutConstants_leaves type (exprEliminateYn left) (exprEliminateYn right)
      have leftBound := ihLeft.1
      have rightBound := ihRight.1
      simp only [exprEliminateYn, leaves]
      refine ⟨by omega, fun reducible => ?_⟩
      rcases reducible with (isLeft | inLeft) | isRight | inRight
      · have smaller := strict (Or.inl (congrArg exprEliminateYn isLeft))
        omega
      · have smaller := ihLeft.2 inLeft
        omega
      · have smaller := strict (Or.inr (congrArg exprEliminateYn isRight))
        omega
      · have smaller := ihRight.2 inRight
        omega

variable [DecidableEq entry] {table : SymbolTable entry}

omit [DecidableEq entry] in
theorem joinSwitchOr_leaf {type : SymbolType} {sym : Symbol entry} {e1 e2 joined : Expr entry}
    (found : joinSwitchOr type sym e1 e2 = some joined) : leaves joined = 1 := by
  unfold joinSwitchOr at found
  split at found <;> cases found <;> rfl

omit [DecidableEq entry] in
theorem joinSwitchAnd_leaf {sym : Symbol entry} {e1 e2 joined : Expr entry}
    (found : joinSwitchAnd sym e1 e2 = some joined) : leaves joined = 1 := by
  unfold joinSwitchAnd at found
  split at found <;> cases found <;> rfl

theorem joinConstants_leaf {sym equal unequal : Symbol entry} {joined : Expr entry}
    (found : joinConstants table sym equal unequal = some joined) : leaves joined = 1 := by
  unfold joinConstants at found
  split at found
  · cases found
    split <;> rfl
  · cases found

theorem joinTristateAnd_leaf {sym : Symbol entry} {e1 e2 joined : Expr entry}
    (found : joinTristateAnd table sym e1 e2 = some joined) : leaves joined = 1 := by
  unfold joinTristateAnd at found
  split at found
  case h_1 => exact joinConstants_leaf found
  case h_2 => exact joinConstants_leaf found
  all_goals cases found <;> rfl

/-- Two operands are joined to the first one or to a leaf. -/
theorem joinOperands_leaves {type : Connective} {e1 e2 joined : Expr entry}
    (found : joinOperands table type e1 e2 = some joined) :
    joined = e1 ∨ leaves joined = 1 := by
  cases type with
  | or =>
      change exprJoinOr table e1 e2 = some joined at found
      unfold exprJoinOr at found
      split at found
      · cases found
        exact Or.inl rfl
      · split at found
        · exact Or.inr (joinSwitchOr_leaf found)
        · cases found
  | and =>
      change exprJoinAnd table e1 e2 = some joined at found
      unfold exprJoinAnd at found
      split at found
      · cases found
        exact Or.inl rfl
      · split at found
        · split at found
          next joins =>
            cases found
            exact Or.inr (joinSwitchAnd_leaf joins)
          · split at found
            · exact Or.inr (joinTristateAnd_leaf found)
            · cases found
        · cases found

theorem visited_leaves {inside : Expr entry → Expr entry × Nat} {type : Connective}
    (shrinks : ∀ e, leaves (inside e).1 ≤ leaves e) {first second left right : Expr entry}
    {done : Nat} (visited : Visited (chainRules table inside type) first second left right done) :
    leaves left ≤ leaves first ∧ leaves left + leaves right ≤ leaves first + leaves second ∧
      (leaves right ≤ leaves first ∨ leaves right ≤ leaves second) := by
  have bound : leaves (inside first).1 ≤ leaves first := shrinks first
  have firstPos := leaves_pos first
  have secondPos := leaves_pos second
  cases visited with
  | joined found =>
      have leaf : leaves (chainRules table inside type).neutral = 1 := rfl
      rw [leaf]
      rcases joinOperands_leaves found with rfl | single
      · change _ ∧ 1 + leaves (inside first).1 ≤ _ ∧ (leaves (inside first).1 ≤ _ ∨ _)
        omega
      · omega
  | apart none =>
      change leaves (inside first).1 ≤ _ ∧ leaves (inside first).1 + _ ≤ _ ∧ _
      omega

theorem dups1Within_leaves (fuel : Nat) (e : Expr entry) :
    leaves (dups1Within table fuel e).1 ≤ leaves e := by
  induction fuel generalizing e with
  | zero => exact Nat.le_refl _
  | succ fuel ih =>
      cases e with
      | symbol sym => exact Nat.le_refl _
      | not operand => exact Nat.le_refl _
      | comp relation left right => exact Nat.le_refl _
      | two type left right =>
          change leaves (withOperands _ _ _) ≤ _
          rw [withOperands_leaves _ _ (rewrite_length _ _),
            ← operands_leaves type (.two type left right)]
          exact rewrite_weight _ (fun visited => (visited_leaves ih visited).2.1) _

/-- A pass that joined nothing changed nothing. -/
theorem dups1Within_rested {fuel : Nat} {e : Expr entry}
    (quiet : (dups1Within table fuel e).2 = 0) : (dups1Within table fuel e).1 = e := by
  induction fuel generalizing e with
  | zero => rfl
  | succ fuel ih =>
      cases e with
      | symbol sym => rfl
      | not operand => rfl
      | comp relation left right => rfl
      | two type left right =>
          change withOperands _ _ _ = _
          rw [(rewrite_idle _ (fun first => ih (e := first)) quiet).1, withOperands_self]

theorem dups1Within_worked {fuel : Nat} {e : Expr entry}
    (worked : (dups1Within table fuel e).2 ≠ 0) : Reducible (dups1Within table fuel e).1 := by
  induction fuel generalizing e with
  | zero => exact absurd rfl worked
  | succ fuel ih =>
      cases e with
      | symbol sym => exact absurd rfl worked
      | not operand => exact absurd rfl worked
      | comp relation left right => exact absurd rfl worked
      | two type left right =>
          have marked := rewrite_marked (chainRules table (dups1Within table fuel) type)
            (fun operand => IsNeutral type operand ∨ Reducible operand) (Or.inl rfl)
            (fun first done => Or.inr (ih (e := first) done)) (fun first => dups1Within_rested) worked
          -- A link is not a constant itself.
          rcases withOperands_reducible _ (rewrite_length _ _) marked with impossible | reducible
          · change withOperands _ _ _ = _ at impossible
            rw [withOperands_link] at impossible
            cases impossible
          · exact reducible

/-- No two operands of a chain can be joined, here and in the operands.  The code does not look
below a negation, so a chain there may have operands that could be joined. -/
inductive Settled (table : SymbolTable entry) : Expr entry → Prop where
  | alone {e : Expr entry} (single : connectiveOf e = none) : Settled table e
  | chain {type : Connective} {left right : Expr entry}
      (inside : ∀ operand ∈ operands type (.two type left right), Settled table operand)
      (apart : ∀ first second : Nat, first ≠ second → ∀ e1 e2,
        (operands type (.two type left right))[first]? = some e1 →
        (operands type (.two type left right))[second]? = some e2 →
        joinOperands table type e1 e2 = none) :
      Settled table (.two type left right)

theorem dups1Within_settled {fuel : Nat} {e : Expr entry} (enough : leaves e ≤ fuel)
    (quiet : (dups1Within table fuel e).2 = 0) : Settled table e := by
  induction fuel generalizing e with
  | zero => exact absurd enough (Nat.not_le.mpr (leaves_pos e))
  | succ fuel ih =>
      cases e with
      | symbol sym => exact Settled.alone rfl
      | not operand => exact Settled.alone rfl
      | comp relation left right => exact Settled.alone rfl
      | two type left right =>
          have idle := (rewrite_idle (chainRules table (dups1Within table fuel) type)
            (fun first => dups1Within_rested) quiet).2
          refine Settled.chain (fun operand member => ?_) ?_
          · obtain ⟨position, inside, rfl⟩ := List.getElem_of_mem member
            obtain ⟨other, distinct, within⟩ := other_position position
              (operands_two type left right)
            have bound := link_leaves member
            exact ih (by omega) (idle position other distinct _ _ (List.getElem?_eq_getElem inside)
              (List.getElem?_eq_getElem within)).1
          · exact fun first second distinct e1 e2 atFirst atSecond =>
              (idle first second distinct e1 e2 atFirst atSecond).2

theorem eliminateDupsWithin_settled {fuel : Nat} {e : Expr entry} (enough : leaves e ≤ fuel) :
    Settled table (eliminateDupsWithin table fuel e) ∧
      leaves (eliminateDupsWithin table fuel e) ≤ leaves e := by
  induction fuel generalizing e with
  | zero => exact absurd enough (Nat.not_le.mpr (leaves_pos e))
  | succ fuel ih =>
      have shrinks : leaves (exprEliminateDups1 table e).1 ≤ leaves e := dups1Within_leaves _ e
      unfold eliminateDupsWithin
      dsimp only
      split
      next quiet =>
        have same : (exprEliminateDups1 table e).1 = e := dups1Within_rested quiet
        rw [same]
        exact ⟨dups1Within_settled (Nat.le_refl _) quiet, Nat.le_refl _⟩
      next worked =>
        have smaller := (eliminateYn_leaves (exprEliminateDups1 table e).1).2
          (dups1Within_worked worked)
        obtain ⟨settled, bound⟩ := ih (e := exprEliminateYn (exprEliminateDups1 table e).1)
          (by omega)
        exact ⟨settled, by omega⟩

/-! ### Without the bounds of the recursion -/

variable (table) in
theorem chain_agree {inside again : Expr entry → Expr entry × Nat} {bound : Nat}
    (shrinks : ∀ e, leaves (inside e).1 ≤ leaves e)
    (agree : ∀ e, leaves e ≤ bound → inside e = again e) (type : Connective)
    {chain : List (Expr entry)} (small : ∀ operand ∈ chain, leaves operand ≤ bound) :
    rewrite (chainRules table inside type) chain = rewrite (chainRules table again type) chain := by
  refine rewrite_agree (chainRules table inside type) (chainRules table again type)
    (fun operand => leaves operand ≤ bound) rfl rfl agree
    (fun visited firstSmall secondSmall => ?_) small
  obtain ⟨leftBound, _, rightBound⟩ := visited_leaves shrinks visited
  omega

theorem dups1Within_succ {fuel : Nat} {e : Expr entry} (enough : leaves e ≤ fuel) :
    dups1Within table (fuel + 1) e = dups1Within table fuel e := by
  induction fuel generalizing e with
  | zero => exact absurd enough (Nat.not_le.mpr (leaves_pos e))
  | succ fuel ih =>
      cases e with
      | symbol sym => rfl
      | not operand => rfl
      | comp relation left right => rfl
      | two type left right =>
          have small : ∀ operand ∈ operands type (.two type left right), leaves operand ≤ fuel :=
            fun operand member => Nat.le_of_lt_succ (Nat.lt_of_lt_of_le (link_leaves member) enough)
          have same := chain_agree table (dups1Within_leaves (fuel + 1)) (fun e bound => ih bound)
            type small
          change (withOperands _ _ (rewrite _ _).1, (rewrite _ _).2) = _
          rw [same]
          rfl

theorem dups1Within_eq {fuel : Nat} {e : Expr entry} (enough : leaves e ≤ fuel) :
    dups1Within table fuel e = exprEliminateDups1 table e := by
  induction fuel, enough using Nat.le_induction with
  | base => rfl
  | succ fuel enough ih => exact (dups1Within_succ enough).trans ih

/-- A pass over a chain makes passes over the operands it visits. -/
theorem exprEliminateDups1_two (type : Connective) (left right : Expr entry) :
    exprEliminateDups1 table (.two type left right) =
      let result := rewrite (chainRules table (exprEliminateDups1 table) type)
        (operands type (.two type left right))
      (withOperands type (.two type left right) result.1, result.2) := by
  have small : ∀ operand ∈ operands type (.two type left right),
      leaves operand ≤ leaves left + leaves right :=
    fun operand member => Nat.le_of_lt (link_leaves member)
  have agree : ∀ e, leaves e ≤ leaves left + leaves right →
      dups1Within table (leaves left + leaves right) e = exprEliminateDups1 table e :=
    fun e bound => dups1Within_eq bound
  have same := chain_agree table (dups1Within_leaves (leaves left + leaves right)) agree type small
  rw [← same, ← dups1Within_eq (Nat.le_succ (leaves left + leaves right))]
  rfl

end Ends

/-- The loop ends with an expression of the same value, which is not larger, and in which no two
operands can be joined. -/
theorem eliminateDups_settles [DecidableEq entry] (table : SymbolTable entry) (e : Expr entry) :
    (∀ values, Coherent table values →
      exprCalcValue table values (exprEliminateDups table e) = exprCalcValue table values e) ∧
      Settled table (exprEliminateDups table e) ∧
      leaves (exprEliminateDups table e) ≤ leaves e :=
  ⟨fun _ coherent => eliminateDupsWithin_value coherent _ e,
    eliminateDupsWithin_settled (Nat.le_refl _)⟩

theorem eliminateDups_settles_switches :
    exprCalcValue switchTable switchValues (exprEliminateDups switchTable
        (.two .and (.symbol (.entry true)) (.two .and (.symbol (.entry false))
          (.comp .unequal (.entry true) .mod)))) = .no ∧
      exprEliminateDups switchTable (.two .and (.symbol (.entry true))
        (.two .and (.symbol (.entry false)) (.comp .unequal (.entry true) .mod))) =
          .two .and (.symbol (.entry false)) (.comp .equal (.entry true) .yes) := by
  obtain ⟨kept, _, _⟩ := eliminateDups_settles switchTable (.two .and (.symbol (.entry true))
    (.two .and (.symbol (.entry false)) (.comp .unequal (.entry true) .mod)))
  exact ⟨kept switchValues switchValues_coherent, rfl⟩

end BuildLinux.Concrete.KconfigDuplicates
