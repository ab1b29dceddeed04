/-
The rewriting of dependencies: comparisons of switches become symbols, and
negations move inwards, until they stand in front of symbols only.

The value stays the same for all values that the calculation can leave.  The
result is in a normal form, which a second rewriting does not change.
-/

import BuildLinux.Concrete.KconfigExpr

namespace BuildLinux.Concrete.KconfigTransform

open CStrings KconfigExpr

variable {entry : Type}

/-! ### Rewriting -/

/-- A comparison of a boolean symbol with a constant.  A boolean that is tested
for 'm' is reported. -/
def transformComp (table : SymbolTable entry) (type : Relation) (left right : Symbol entry) :
    Expr entry :=
  match type with
  | .equal =>
      if table.typeOf left ≠ .boolean then .comp .equal left right
      else
        match right with
        | .no => .not (.symbol left)
        | .mod => .symbol .no
        | .yes => .symbol left
        | .entry index => .comp .equal left (.entry index)
  | .unequal =>
      if table.typeOf left ≠ .boolean then .comp .unequal left right
      else
        match right with
        | .no => .symbol left
        | .mod => .symbol .yes
        | .yes => .not (.symbol left)
        | .entry index => .comp .unequal left (.entry index)
  | other => .comp other left right

def negated : Relation → Relation
  | .equal => .unequal
  | .unequal => .equal
  | .leq => .gth
  | .geq => .lth
  | .lth => .geq
  | .gth => .leq

/-- A negation whose operand is rewritten already; what it becomes is rewritten again. -/
def transformNot (again : Expr entry → Expr entry) : Expr entry → Expr entry
  | .not operand => again operand
  | .comp type left right => .comp (negated type) left right
  | .two .or left right => again (.two .and (.not left) (.not right))
  | .two .and left right => again (.two .or (.not left) (.not right))
  | .symbol .yes => .symbol .no
  | .symbol .mod => .symbol .mod
  | .symbol .no => .symbol .yes
  | .symbol (.entry index) => .not (.symbol (.entry index))

def transformWithin (table : SymbolTable entry) : Nat → Expr entry → Expr entry
  | 0, e => e
  | fuel + 1, e =>
      match e with
      | .symbol sym => .symbol sym
      | .comp type left right => transformComp table type left right
      | .two type left right =>
          .two type (transformWithin table fuel left) (transformWithin table fuel right)
      | .not operand =>
          transformNot (transformWithin table fuel) (transformWithin table fuel operand)

/-- What bounds the depth of the recursion: a negation weighs twice its operand. -/
def weight : Expr entry → Nat
  | .symbol _ => 1
  | .not operand => 2 * weight operand + 1
  | .two _ left right => weight left + weight right + 2
  | .comp _ _ _ => 4

def exprTransform (table : SymbolTable entry) (e : Expr entry) : Expr entry :=
  transformWithin table (weight e) e

/-! ### Comparisons -/

def tristateText : Tristate → CString
  | .no => "n".toList
  | .mod => "m".toList
  | .yes => "y".toList

theorem tristateText_injective {left right : Tristate}
    (same : tristateText left = tristateText right) : left = right := by
  cases left <;> cases right <;> first | rfl | exact absurd same (by decide)

/-- The pointer to a constant. -/
def constSymbol : Tristate → Symbol entry
  | .no => .no
  | .mod => .mod
  | .yes => .yes

theorem constSymbol_text (table : SymbolTable entry) (values : Values entry) (value : Tristate) :
    symGetStringValue table values (constSymbol value) = tristateText value := by
  cases value <;> rfl

/-- A symbol that has one of the values of a tristate. -/
def IsSwitch (table : SymbolTable entry) (sym : Symbol entry) : Prop :=
  table.typeOf sym = .boolean ∨ table.typeOf sym = .tristate

section Values

variable {table : SymbolTable entry} {values : Values entry}

theorem switch_text (coherent : Coherent table values) {sym : Symbol entry}
    (switch : IsSwitch table sym) :
    symGetStringValue table values sym = tristateText (values.triOf sym) := by
  cases sym with
  | yes => rfl
  | mod => rfl
  | no => rfl
  | entry index =>
      have listed : table.type index = .boolean ∨ table.type index = .tristate := switch
      refine (if_pos listed).trans ?_
      change _ = tristateText (values.tri index)
      cases tri : values.tri index with
      | no => rfl
      | yes => rfl
      | mod =>
          have enabled : values.modules ≠ .no := by
            intro disabled
            rcases switch with boolean | tristate
            · exact coherent.boolean index boolean tri
            · exact coherent.tristate index tristate disabled tri
          exact if_neg enabled

/-- Switches are compared as strings. -/
theorem compareValues_switch {type1 type2 : SymbolType} (str1 str2 : CString)
    (switch : type1 = .boolean ∨ type1 = .tristate) :
    compareValues type1 type2 str1 str2 = some (strcmp str1 str2) := by
  unfold compareValues
  rcases switch with rfl | rfl
  · rfl
  · rfl

theorem parsedKind_valid {kind : StringValueKind} (valid : kind ≠ .invalid) (text : CString)
    (parsed : NumberText.Parsed) : (parsedKind kind text parsed).1 ≠ .invalid := by
  unfold parsedKind
  split
  · exact valid
  · exact nofun

theorem parseString_valid (text : CString) {type : SymbolType} (known : type ≠ .other) :
    (exprParseString text type).1 ≠ .invalid := by
  cases type with
  | other => exact absurd rfl known
  | boolean => exact nofun
  | tristate => exact nofun
  | int => exact parsedKind_valid (by decide) _ _
  | hex => exact parsedKind_valid (by decide) _ _
  | string => exact parsedKind_valid (by decide) _ _
  | unknown => exact parsedKind_valid (by decide) _ _

/-- The values of all symbols of the table can be compared. -/
theorem compareValues_some {type1 type2 : SymbolType} (known1 : type1 ≠ .other)
    (known2 : type2 ≠ .other) (str1 str2 : CString) :
    ∃ res, compareValues type1 type2 str1 str2 = some res := by
  have valid1 := parseString_valid str1 known1
  have valid2 := parseString_valid str2 known2
  unfold compareValues
  by_cases numbers : type1 ≠ .string ∨ type2 ≠ .string
  · rw [if_pos numbers]
    dsimp only
    split
    · exact ⟨_, rfl⟩
    · rw [if_neg (not_or.mpr ⟨valid1, valid2⟩)]
      split
      · exact ⟨_, rfl⟩
      · exact ⟨_, rfl⟩
  · rw [if_neg numbers]
    exact ⟨_, rfl⟩

theorem typeOf_known (table : SymbolTable entry) (sym : Symbol entry) :
    table.typeOf sym ≠ .other := by
  cases sym with
  | yes => exact nofun
  | mod => exact nofun
  | no => exact nofun
  | entry index => exact table.noOther index

theorem negated_holds (type : Relation) (res : Ordering) :
    (negated type).holds res = !type.holds res := by
  cases type <;> cases res <;> rfl

theorem not_ofBool (holds : Bool) : (Tristate.ofBool holds).not = Tristate.ofBool (!holds) := by
  cases holds <;> rfl

variable (table values) in
theorem negated_value (type : Relation) (left right : Symbol entry) :
    exprCalcValue table values (.comp (negated type) left right) =
      (exprCalcValue table values (.comp type left right)).not := by
  obtain ⟨res, compared⟩ := compareValues_some (typeOf_known table left) (typeOf_known table right)
    (symGetStringValue table values left) (symGetStringValue table values right)
  unfold exprCalcValue
  rw [compared]
  change Tristate.ofBool ((negated type).holds res) = (Tristate.ofBool (type.holds res)).not
  rw [negated_holds, not_ofBool]

/-- A switch compared with another symbol: the texts are the same or not. -/
theorem switch_compared (coherent : Coherent table values) {left : Symbol entry}
    (switch : IsSwitch table left) (right : Symbol entry) :
    exprCalcValue table values (.comp .equal left right) =
      .ofBool (tristateText (values.triOf left) == symGetStringValue table values right) := by
  unfold exprCalcValue
  rw [compareValues_switch _ _ switch, switch_text coherent switch]
  change Tristate.ofBool (_ == _) = _
  congr 1
  rw [Bool.eq_iff_iff, beq_iff_eq, beq_iff_eq, strcmp_eq_iff]

theorem equal_const (coherent : Coherent table values) {left : Symbol entry}
    (switch : IsSwitch table left) (value : Tristate) :
    exprCalcValue table values (.comp .equal left (constSymbol value)) =
      .ofBool (decide (values.triOf left = value)) := by
  rw [switch_compared coherent switch, constSymbol_text]
  congr 1
  rw [Bool.eq_iff_iff, beq_iff_eq, decide_eq_true_iff]
  exact ⟨tristateText_injective, congrArg tristateText⟩

theorem unequal_const (coherent : Coherent table values) {left : Symbol entry}
    (switch : IsSwitch table left) (value : Tristate) :
    exprCalcValue table values (.comp .unequal left (constSymbol value)) =
      .ofBool (decide (values.triOf left ≠ value)) := by
  have flipped := negated_value table values .equal left (constSymbol value)
  rw [equal_const coherent switch, not_ofBool, ← decide_not] at flipped
  exact flipped

/-! ### The value stays -/

/-- What the tests of a value that is never `m` amount to. -/
theorem decided_value {value : Tristate} (decided : value ≠ .mod) :
    .ofBool (decide (value = .yes)) = value ∧ .ofBool (decide (value = .no)) = value.not ∧
      .ofBool (decide (value ≠ .no)) = value ∧ .ofBool (decide (value ≠ .yes)) = value.not := by
  cases value with
  | mod => exact absurd rfl decided
  | yes => exact ⟨rfl, rfl, rfl, rfl⟩
  | no => exact ⟨rfl, rfl, rfl, rfl⟩

theorem boolean_decided (coherent : Coherent table values) {sym : Symbol entry}
    (boolean : table.typeOf sym = .boolean) : values.triOf sym ≠ .mod := by
  cases sym with
  | entry index => exact coherent.boolean index boolean
  | yes => cases boolean
  | mod => cases boolean
  | no => cases boolean

theorem transformComp_value (coherent : Coherent table values) (type : Relation)
    (left right : Symbol entry) :
    exprCalcValue table values (transformComp table type left right) =
      exprCalcValue table values (.comp type left right) := by
  unfold transformComp
  by_cases boolean : table.typeOf left = .boolean
  · have decided := boolean_decided coherent boolean
    obtain ⟨isYes, isNo, notNo, notYes⟩ := decided_value decided
    have equal := equal_const coherent (Or.inl boolean)
    have unequal := unequal_const coherent (Or.inl boolean)
    split
    · rw [if_neg (not_not.mpr boolean)]
      cases right with
      | no => exact ((equal .no).trans isNo).symm
      | mod => exact ((equal .mod).trans (congrArg _ (decide_eq_false decided))).symm
      | yes => exact ((equal .yes).trans isYes).symm
      | entry index => rfl
    · rw [if_neg (not_not.mpr boolean)]
      cases right with
      | no => exact ((unequal .no).trans notNo).symm
      | mod => exact ((unequal .mod).trans (congrArg _ (decide_eq_true decided))).symm
      | yes => exact ((unequal .yes).trans notYes).symm
      | entry index => rfl
    · rfl
  · split
    · rw [if_pos boolean]
    · rw [if_pos boolean]
    · rfl

/-- The laws of De Morgan. -/
theorem not_apply (left right : Tristate) :
    (Connective.or.apply left right).not = Connective.and.apply left.not right.not ∧
      (Connective.and.apply left right).not = Connective.or.apply left.not right.not := by
  cases left <;> cases right <;> exact ⟨rfl, rfl⟩

theorem not_not_tristate (value : Tristate) : value.not.not = value := by
  cases value <;> rfl

theorem transformNot_value {again : Expr entry → Expr entry}
    (keeps : ∀ e, exprCalcValue table values (again e) = exprCalcValue table values e)
    (operand : Expr entry) :
    exprCalcValue table values (transformNot again operand) =
      (exprCalcValue table values operand).not := by
  cases operand with
  | not inner =>
      refine (keeps inner).trans ?_
      exact (not_not_tristate _).symm
  | comp type left right => exact negated_value table values type left right
  | two type left right =>
      cases type with
      | or => exact (keeps _).trans (not_apply _ _).1.symm
      | and => exact (keeps _).trans (not_apply _ _).2.symm
  | symbol sym =>
      cases sym with
      | yes => rfl
      | mod => rfl
      | no => rfl
      | entry index => rfl

theorem transformWithin_value (coherent : Coherent table values) (fuel : Nat) (e : Expr entry) :
    exprCalcValue table values (transformWithin table fuel e) = exprCalcValue table values e := by
  induction fuel generalizing e with
  | zero => rfl
  | succ fuel ih =>
      cases e with
      | symbol sym => rfl
      | comp type left right => exact transformComp_value coherent type left right
      | two type left right =>
          exact congrArg₂ type.apply (ih left) (ih right)
      | not operand =>
          exact (transformNot_value ih _).trans (congrArg Tristate.not (ih operand))

end Values

/-! ### The recursion ends -/

section Ends

variable {table : SymbolTable entry}

theorem transformComp_weight (type : Relation) (left right : Symbol entry) :
    weight (transformComp table type left right) ≤ 4 := by
  unfold transformComp
  split
  · split
    · exact Nat.le_refl 4
    · cases right <;> simp [weight]
  · split
    · exact Nat.le_refl 4
    · cases right <;> simp [weight]
  · exact Nat.le_refl 4

theorem transformNot_weight {again : Expr entry → Expr entry}
    (shrinks : ∀ e, weight (again e) ≤ weight e) (operand : Expr entry) :
    weight (transformNot again operand) ≤ 2 * weight operand + 1 := by
  cases operand with
  | not inner =>
      have inner := shrinks inner
      simp only [transformNot, weight]
      omega
  | comp type left right => simp [transformNot, weight]
  | two type left right =>
      cases type with
      | or =>
          have rewritten := shrinks (.two .and (.not left) (.not right))
          simp only [transformNot, weight] at rewritten ⊢
          omega
      | and =>
          have rewritten := shrinks (.two .or (.not left) (.not right))
          simp only [transformNot, weight] at rewritten ⊢
          omega
  | symbol sym => cases sym <;> simp [transformNot, weight]

theorem transformWithin_weight (fuel : Nat) (e : Expr entry) :
    weight (transformWithin table fuel e) ≤ weight e := by
  induction fuel generalizing e with
  | zero => exact Nat.le_refl _
  | succ fuel ih =>
      cases e with
      | symbol sym => exact Nat.le_refl _
      | comp type left right => exact transformComp_weight type left right
      | two type left right =>
          exact Nat.add_le_add_right (Nat.add_le_add (ih left) (ih right)) 2
      | not operand =>
          have inside := ih operand
          have outside := transformNot_weight ih (transformWithin table fuel operand)
          simp only [transformWithin, weight] at *
          omega

/-! ### The normal form -/

def IsEquality (type : Relation) : Prop := type = .equal ∨ type = .unequal

/-- Only `=` and `!=` of a boolean symbol with `y`, `m` or `n` are rewritten: `<`, `<=`, `>` and
`>=` of one stay. -/
def Irreducible (table : SymbolTable entry) (type : Relation) (left right : Symbol entry) : Prop :=
  IsEquality type → table.typeOf left = .boolean → ∃ index, right = .entry index

/-- Only symbols are negated, and no comparison can be rewritten. -/
def Normal (table : SymbolTable entry) : Expr entry → Prop
  | .symbol _ => True
  | .not operand => ∃ index, operand = .symbol (.entry index)
  | .two _ left right => Normal table left ∧ Normal table right
  | .comp type left right => Irreducible table type left right

theorem transformComp_fixed {type : Relation} {left right : Symbol entry}
    (irreducible : Irreducible table type left right) :
    transformComp table type left right = .comp type left right := by
  unfold transformComp
  split
  · split
    · rfl
    next boolean =>
      obtain ⟨index, rfl⟩ := irreducible (Or.inl rfl) (not_not.mp boolean)
      rfl
  · split
    · rfl
    next boolean =>
      obtain ⟨index, rfl⟩ := irreducible (Or.inr rfl) (not_not.mp boolean)
      rfl
  · rfl

theorem boolean_entry {sym : Symbol entry} (boolean : table.typeOf sym = .boolean) :
    ∃ index, sym = .entry index := by
  cases sym with
  | entry index => exact ⟨index, rfl⟩
  | yes => cases boolean
  | mod => cases boolean
  | no => cases boolean

theorem negated_symbol_normal {sym : Symbol entry} (boolean : table.typeOf sym = .boolean) :
    Normal table (.not (.symbol sym)) := by
  obtain ⟨index, rfl⟩ := boolean_entry boolean
  exact ⟨index, rfl⟩

theorem transformComp_normal (type : Relation) (left right : Symbol entry) :
    Normal table (transformComp table type left right) := by
  unfold transformComp
  split
  · split
    next other => exact fun _ boolean => absurd boolean other
    next boolean =>
      cases right with
      | no => exact negated_symbol_normal (not_not.mp boolean)
      | mod => trivial
      | yes => trivial
      | entry index => exact fun _ _ => ⟨index, rfl⟩
  · split
    next other => exact fun _ boolean => absurd boolean other
    next boolean =>
      cases right with
      | no => trivial
      | mod => trivial
      | yes => exact negated_symbol_normal (not_not.mp boolean)
      | entry index => exact fun _ _ => ⟨index, rfl⟩
  next notEqual notUnequal =>
    intro equality
    rcases equality with equal | unequal
    · exact absurd equal notEqual
    · exact absurd unequal notUnequal

theorem negated_irreducible {type : Relation} {left right : Symbol entry}
    (irreducible : Irreducible table type left right) :
    Irreducible table (negated type) left right := by
  intro equality
  apply irreducible
  cases type with
  | equal => exact Or.inl rfl
  | unequal => exact Or.inr rfl
  | lth => simp [IsEquality, negated] at equality
  | leq => simp [IsEquality, negated] at equality
  | gth => simp [IsEquality, negated] at equality
  | geq => simp [IsEquality, negated] at equality

theorem transformWithin_normal {fuel : Nat} {e : Expr entry} (enough : weight e ≤ fuel) :
    Normal table (transformWithin table fuel e) := by
  induction fuel generalizing e with
  | zero => cases e <;> exact absurd enough (by simp [weight])
  | succ fuel ih =>
      cases e with
      | symbol sym => trivial
      | comp type left right => exact transformComp_normal type left right
      | two type left right =>
          simp only [weight] at enough
          exact ⟨ih (by omega), ih (by omega)⟩
      | not operand =>
          simp only [weight] at enough
          have normal : Normal table (transformWithin table fuel operand) := ih (by omega)
          have bound : weight (transformWithin table fuel operand) ≤ weight operand :=
            transformWithin_weight fuel operand
          change Normal table
            (transformNot (transformWithin table fuel) (transformWithin table fuel operand))
          -- What the negation becomes weighs less, so it is rewritten to its end.
          cases inside : transformWithin table fuel operand with
          | symbol sym =>
              cases sym with
              | entry index => exact ⟨index, rfl⟩
              | yes => trivial
              | mod => trivial
              | no => trivial
          | comp type left right =>
              rw [inside] at normal
              exact negated_irreducible normal
          | not inner =>
              rw [inside] at bound
              simp only [weight] at bound
              exact ih (by omega)
          | two type left right =>
              rw [inside] at bound
              simp only [weight] at bound
              cases type with
              | or => exact ih (by simp only [weight]; omega)
              | and => exact ih (by simp only [weight]; omega)

theorem transformWithin_fixed {e : Expr entry} (normal : Normal table e) (fuel : Nat) :
    transformWithin table fuel e = e := by
  induction fuel generalizing e with
  | zero => rfl
  | succ fuel ih =>
      cases e with
      | symbol sym => rfl
      | comp type left right => exact transformComp_fixed normal
      | two type left right => exact congrArg₂ (Expr.two type) (ih normal.1) (ih normal.2)
      | not operand =>
          obtain ⟨index, rfl⟩ := normal
          have symbol : Normal table (.symbol (.entry index)) := trivial
          change transformNot _ (transformWithin table fuel (.symbol (.entry index))) = _
          rw [ih symbol]
          rfl

end Ends

/-- Rewriting keeps the value and ends in a normal form, which it leaves alone. -/
theorem transform_normalises (table : SymbolTable entry) (e : Expr entry) :
    (∀ values, Coherent table values →
      exprCalcValue table values (exprTransform table e) = exprCalcValue table values e) ∧
      Normal table (exprTransform table e) ∧
      exprTransform table (exprTransform table e) = exprTransform table e := by
  have normal : Normal table (exprTransform table e) := transformWithin_normal (Nat.le_refl _)
  exact ⟨fun values coherent => transformWithin_value coherent _ e, normal,
    transformWithin_fixed normal _⟩

/-! ### A tristate and a boolean symbol -/

def switchTable : SymbolTable Bool where
  type
    | true => .tristate
    | false => .boolean
  name
    | true => "DRIVER".toList
    | false => "BOARD".toList
  const _ := false
  constUntyped _ impossible := absurd impossible Bool.false_ne_true
  constName _ _ impossible := absurd impossible Bool.false_ne_true
  constListed _ impossible := absurd impossible Bool.false_ne_true
  noOther index := by cases index <;> exact nofun

def switchValues : Values Bool where
  tri
    | true => .mod
    | false => .yes
  val _ := "n".toList
  modules := .yes

theorem switchValues_coherent : Coherent switchTable switchValues where
  boolean index := by cases index <;> exact nofun
  tristate index := by cases index <;> exact nofun
  unknown index := by cases index <;> exact nofun

theorem transform_normalises_switches :
    exprCalcValue switchTable switchValues (exprTransform switchTable
        (.not (.two .or (.comp .equal (.entry false) .no) (.symbol (.entry true))))) = .mod ∧
      exprTransform switchTable
        (.not (.two .or (.comp .equal (.entry false) .no) (.symbol (.entry true)))) =
          .two .and (.symbol (.entry false)) (.not (.symbol (.entry true))) := by
  obtain ⟨kept, _, _⟩ := transform_normalises switchTable
    (.not (.two .or (.comp .equal (.entry false) .no) (.symbol (.entry true))))
  exact ⟨kept switchValues switchValues_coherent, rfl⟩

end BuildLinux.Concrete.KconfigTransform
