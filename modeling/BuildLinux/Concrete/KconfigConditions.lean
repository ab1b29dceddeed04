/-
Questions about dependencies: which symbols they contain, which ones they need,
and when they have a given value.

The answers are about the values: an expression that needs a symbol is `n`
where the symbol is, and the expression for a comparison with `n` or `y` is `y`
or `n` itself, as long as nothing that is negated is `m`.
-/

import BuildLinux.Concrete.KconfigTransform

namespace BuildLinux.Concrete.KconfigConditions

open KconfigExpr KconfigTransform

variable {entry : Type}

/-! ### Symbols of an expression -/

section Symbols

variable [DecidableEq entry]

def exprContainsSymbol (sym : Symbol entry) : Expr entry → Bool
  | .two _ left right => exprContainsSymbol sym left || exprContainsSymbol sym right
  | .symbol other => decide (other = sym)
  | .comp _ left right => decide (left = sym) || decide (right = sym)
  | .not operand => exprContainsSymbol sym operand

/-- Whether the expression is a conjunction that asks for the symbol. -/
def exprDependsSymbol (sym : Symbol entry) : Expr entry → Bool
  | .two .and left right => exprDependsSymbol sym left || exprDependsSymbol sym right
  | .symbol other => decide (other = sym)
  | .comp .equal left right => decide (left = sym) && decide (right = .yes ∨ right = .mod)
  | .comp .unequal left right => decide (left = sym) && decide (right = .no)
  | _ => false

variable {table : SymbolTable entry} {values : Values entry}

/-- What the value of an expression is calculated from. -/
theorem value_of_contained {others : Values entry} (sameModules : others.modules = values.modules)
    {e : Expr entry} (same : ∀ index, exprContainsSymbol (.entry index) e = true →
      others.tri index = values.tri index ∧ others.val index = values.val index) :
    exprCalcValue table others e = exprCalcValue table values e := by
  have text {sym : Symbol entry} (contained : exprContainsSymbol sym e = true) :
      symGetStringValue table others sym = symGetStringValue table values sym := by
    cases sym with
    | yes => rfl
    | mod => rfl
    | no => rfl
    | entry index =>
        obtain ⟨tri, val⟩ := same index contained
        simp only [symGetStringValue, tri, val, sameModules]
  induction e with
  | symbol sym =>
      cases sym with
      | yes => rfl
      | mod => rfl
      | no => rfl
      | entry index => exact (same index (decide_eq_true rfl)).1
  | not operand ih => exact congrArg Tristate.not (ih same text)
  | two type left right ihLeft ihRight =>
      have inLeft {sym : Symbol entry} (contained : exprContainsSymbol sym left = true) :
          exprContainsSymbol sym (.two type left right) = true :=
        Bool.or_eq_true_iff.mpr (Or.inl contained)
      have inRight {sym : Symbol entry} (contained : exprContainsSymbol sym right = true) :
          exprContainsSymbol sym (.two type left right) = true :=
        Bool.or_eq_true_iff.mpr (Or.inr contained)
      exact congrArg₂ type.apply
        (ihLeft (fun index contained => same index (inLeft contained))
          fun contained => text (inLeft contained))
        (ihRight (fun index contained => same index (inRight contained))
          fun contained => text (inRight contained))
  | comp type left right =>
      have leftText : symGetStringValue table others left = symGetStringValue table values left :=
        text (Bool.or_eq_true_iff.mpr (Or.inl (decide_eq_true rfl)))
      have rightText : symGetStringValue table others right =
          symGetStringValue table values right :=
        text (Bool.or_eq_true_iff.mpr (Or.inr (decide_eq_true rfl)))
      unfold exprCalcValue
      rw [leftText, rightText]

theorem and_no {left right : Tristate} :
    Connective.and.apply left right = .no ↔ left = .no ∨ right = .no := by
  cases left <;> cases right <;> decide

theorem or_no {left right : Tristate} :
    Connective.or.apply left right = .no ↔ left = .no ∧ right = .no := by
  cases left <;> cases right <;> decide

theorem or_yes {left right : Tristate} :
    Connective.or.apply left right = .yes ↔ left = .yes ∨ right = .yes := by
  cases left <;> cases right <;> decide

theorem ofBool_no {holds : Bool} : Tristate.ofBool holds = .no ↔ holds = false := by
  cases holds <;> decide

/-- An expression that asks for a switch is `n` where the switch is. -/
theorem no_of_depends (coherent : Coherent table values) {sym : Symbol entry}
    (switch : IsSwitch table sym) (off : values.triOf sym = .no) {e : Expr entry}
    (depends : exprDependsSymbol sym e = true) : exprCalcValue table values e = .no := by
  induction e with
  | symbol other =>
      rw [of_decide_eq_true depends]
      exact off
  | not operand => cases depends
  | two type left right ihLeft ihRight =>
      cases type with
      | or => cases depends
      | and =>
          apply and_no.mpr
          rcases Bool.or_eq_true_iff.mp depends with inLeft | inRight
          · exact Or.inl (ihLeft inLeft)
          · exact Or.inr (ihRight inRight)
  | comp type left right =>
      cases type with
      | equal =>
          obtain ⟨isLeft, isRight⟩ := Bool.and_eq_true_iff.mp depends
          rw [of_decide_eq_true isLeft]
          rcases of_decide_eq_true isRight with rfl | rfl
          · refine (equal_const coherent switch .yes).trans (ofBool_no.mpr ?_)
            rw [off]
            rfl
          · refine (equal_const coherent switch .mod).trans (ofBool_no.mpr ?_)
            rw [off]
            rfl
      | unequal =>
          obtain ⟨isLeft, isRight⟩ := Bool.and_eq_true_iff.mp depends
          rw [of_decide_eq_true isLeft, of_decide_eq_true isRight]
          refine (unequal_const coherent switch .no).trans (ofBool_no.mpr ?_)
          rw [off]
          rfl
      | lth => cases depends
      | leq => cases depends
      | gth => cases depends
      | geq => cases depends

end Symbols

/-! ### Conditions of symbols that are not tristate -/

/-- `FOO!=n` becomes `FOO` where `m` counts as `y`. -/
def exprTransBool (table : SymbolTable entry) : Expr entry → Expr entry
  | .two type left right => .two type (exprTransBool table left) (exprTransBool table right)
  | .not operand => .not (exprTransBool table operand)
  | .comp .unequal left .no =>
      if table.typeOf left = .tristate then .symbol left else .comp .unequal left .no
  | e => e

section Values

variable {table : SymbolTable entry} {values : Values entry}

/-- In a normal form the condition is met as before. -/
theorem transBool_met (coherent : Coherent table values) {e : Expr entry}
    (normal : Normal table e) :
    exprCalcValue table values (exprTransBool table e) = .no ↔
      exprCalcValue table values e = .no := by
  induction e with
  | symbol sym => exact Iff.rfl
  | not operand =>
      obtain ⟨index, rfl⟩ := normal
      exact Iff.rfl
  | two type left right ihLeft ihRight =>
      have inLeft := ihLeft normal.1
      have inRight := ihRight normal.2
      cases type with
      | or => exact or_no.trans ((and_congr inLeft inRight).trans or_no.symm)
      | and => exact and_no.trans ((or_congr inLeft inRight).trans and_no.symm)
  | comp type left right =>
      unfold exprTransBool
      split
      next impossible => cases impossible
      next impossible => cases impossible
      next same =>
        cases same
        split
        next tristate =>
          have value := unequal_const coherent (Or.inr tristate) Tristate.no
          change _ ↔ exprCalcValue table values (.comp .unequal _ (constSymbol .no)) = .no
          rw [value, ofBool_no, decide_eq_false_iff_not, not_not]
          exact Iff.rfl
        next other => exact Iff.rfl
      next => exact Iff.rfl

end Values

/-! ### When an expression has a value -/

/-- An expression for the question whether a condition is, or is not, the constant.  For `m` the
two halves of a conjunction stay what they were. -/
def exprTransCompareWithin (sym : Tristate) : Relation → Expr entry → Expr entry
  | type, .two connective left right =>
      let e1 := exprTransCompareWithin sym .equal left
      let e2 := exprTransCompareWithin sym .equal right
      let e := match sym with
        | .yes => .two connective e1 e2
        | .no => .two (if connective = .and then .or else .and) e1 e2
        | .mod => .two connective left right
      if type = .unequal then .not e else e
  | type, .not operand =>
      exprTransCompareWithin sym (if type = .equal then .unequal else .equal) operand
  | type, .comp relation left right =>
      match sym with
      | .yes =>
          if type = .equal then .comp relation left right else .not (.comp relation left right)
      | .mod => if type = .equal then .symbol .no else .symbol .yes
      | .no =>
          if type = .equal then .not (.comp relation left right) else .comp relation left right
  | type, .symbol left => .comp type left (constSymbol sym)

def exprTransCompare (type : Relation) (sym : Tristate) : Option (Expr entry) → Expr entry
  | none => if type = .unequal then .not (.symbol (constSymbol sym)) else .symbol (constSymbol sym)
  | some e => exprTransCompareWithin sym type e

/-- Symbols that stand for their value are switches or constants. -/
def Switches (table : SymbolTable entry) : Expr entry → Prop
  | .symbol sym => (∃ value, sym = constSymbol value) ∨ IsSwitch table sym
  | .not operand => Switches table operand
  | .two _ left right => Switches table left ∧ Switches table right
  | .comp _ _ _ => True

/-- Nothing that is negated is `m`. -/
def Decided (table : SymbolTable entry) (values : Values entry) : Expr entry → Prop
  | .symbol _ => True
  | .not operand => exprCalcValue table values operand ≠ .mod ∧ Decided table values operand
  | .two _ left right => Decided table values left ∧ Decided table values right
  | .comp _ _ _ => True

/-- The answer to a comparison of a tristate with `y` or `n`. -/
def comparison (type : Relation) (value sym : Tristate) : Tristate :=
  .ofBool (if type = .unequal then decide (value ≠ sym) else decide (value = sym))

section Values

variable {table : SymbolTable entry} {values : Values entry}

theorem constants_compared (value sym : Tristate) {type : Relation} (equality : IsEquality type) :
    exprCalcValue table values (.comp type (constSymbol value) (constSymbol sym)) =
      comparison type value sym := by
  rcases equality with rfl | rfl
  · cases value <;> cases sym <;> rfl
  · cases value <;> cases sym <;> rfl

theorem symbol_compared (coherent : Coherent table values) {left : Symbol entry}
    (switches : Switches table (.symbol left)) (sym : Tristate) {type : Relation}
    (equality : IsEquality type) :
    exprCalcValue table values (.comp type left (constSymbol sym)) =
      comparison type (values.triOf left) sym := by
  rcases switches with ⟨value, rfl⟩ | switch
  · rw [constants_compared value sym equality]
    cases value <;> rfl
  · rcases equality with rfl | rfl
    · exact equal_const coherent switch sym
    · exact unequal_const coherent switch sym

variable (table values) in
theorem comp_decided (type : Relation) (left right : Symbol entry) :
    exprCalcValue table values (.comp type left right) ≠ .mod := by
  obtain ⟨res, compared⟩ := compareValues_some (typeOf_known table left) (typeOf_known table right)
    (symGetStringValue table values left) (symGetStringValue table values right)
  unfold exprCalcValue
  rw [compared]
  change Tristate.ofBool (type.holds res) ≠ .mod
  cases type.holds res <;> decide

/-- `y` needs both halves of a conjunction, `n` one of them; for a disjunction it is the reverse. -/
theorem two_compared (connective : Connective) (left right : Tristate) :
    comparison .equal (connective.apply left right) .yes =
        connective.apply (comparison .equal left .yes) (comparison .equal right .yes) ∧
      comparison .equal (connective.apply left right) .no =
        (if connective = .and then Connective.or else Connective.and).apply
          (comparison .equal left .no) (comparison .equal right .no) := by
  cases connective <;> cases left <;> cases right <;> exact ⟨rfl, rfl⟩

theorem comparison_not (value sym : Tristate) :
    comparison .unequal value sym = (comparison .equal value sym).not := by
  cases value <;> cases sym <;> rfl

/-- The two questions about a decided value and its negation. -/
theorem not_compared {value : Tristate} (decided : value ≠ .mod) {sym : Tristate}
    (constant : sym ≠ .mod) {type : Relation} (equality : IsEquality type) :
    comparison (if type = .equal then .unequal else .equal) value sym =
      comparison type value.not sym := by
  rcases equality with rfl | rfl
  · cases value <;> cases sym <;> first | rfl | exact absurd rfl decided | exact absurd rfl constant
  · cases value <;> cases sym <;> first | rfl | exact absurd rfl decided | exact absurd rfl constant

theorem transCompareWithin_value (coherent : Coherent table values) {sym : Tristate}
    (constant : sym ≠ .mod) {e : Expr entry} (switches : Switches table e)
    (decided : Decided table values e) {type : Relation} (equality : IsEquality type) :
    exprCalcValue table values (exprTransCompareWithin sym type e) =
      comparison type (exprCalcValue table values e) sym := by
  induction e generalizing type with
  | symbol left => exact symbol_compared coherent switches sym equality
  | not operand ih =>
      have flipped : IsEquality (if type = .equal then Relation.unequal else .equal) := by
        rcases equality with rfl | rfl
        · exact Or.inr rfl
        · exact Or.inl rfl
      exact (ih switches decided.2 flipped).trans (not_compared decided.1 constant equality)
  | comp relation left right =>
      have compared := comp_decided table values relation left right
      rcases equality with rfl | rfl
      · cases sym with
        | mod => exact absurd rfl constant
        | yes => exact (decided_value compared).1.symm
        | no => exact (decided_value compared).2.1.symm
      · cases sym with
        | mod => exact absurd rfl constant
        | yes => exact (decided_value compared).2.2.2.symm
        | no => exact (decided_value compared).2.2.1.symm
  | two connective left right ihLeft ihRight =>
      have leftValue := ihLeft switches.1 decided.1 (Or.inl rfl)
      have rightValue := ihRight switches.2 decided.2 (Or.inl rfl)
      obtain ⟨ifYes, ifNo⟩ := two_compared connective
        (exprCalcValue table values left) (exprCalcValue table values right)
      have equal : exprCalcValue table values
          (exprTransCompareWithin sym .equal (.two connective left right)) =
            comparison .equal (exprCalcValue table values (.two connective left right)) sym := by
        cases sym with
        | mod => exact absurd rfl constant
        | yes => exact (congrArg₂ _ leftValue rightValue).trans ifYes.symm
        | no => exact (congrArg₂ _ leftValue rightValue).trans ifNo.symm
      rcases equality with rfl | rfl
      · exact equal
      · exact (congrArg Tristate.not equal).trans (comparison_not _ _).symm

/-- The expression is `y` where the condition compares so with the constant, and `n` elsewhere. -/
theorem transCompare_value (coherent : Coherent table values) {sym : Tristate}
    (constant : sym ≠ .mod) {dep : Option (Expr entry)}
    (switches : ∀ e ∈ dep, Switches table e) (decided : ∀ e ∈ dep, Decided table values e)
    {type : Relation} (equality : IsEquality type) :
    exprCalcValue table values (exprTransCompare type sym dep) =
      comparison type (condition table values dep) sym := by
  cases dep with
  | some e =>
      exact transCompareWithin_value coherent constant (switches e rfl) (decided e rfl) equality
  | none =>
      rcases equality with rfl | rfl
      · cases sym with
        | mod => exact absurd rfl constant
        | yes => rfl
        | no => rfl
      · cases sym with
        | mod => exact absurd rfl constant
        | yes => rfl
        | no => rfl

/-- The two questions about a conjunction that needs a switch which is `n`. -/
theorem depends_asked [DecidableEq entry] (coherent : Coherent table values) {sym : Symbol entry}
    (switch : IsSwitch table sym) (off : values.triOf sym = .no) {e : Expr entry}
    (depends : exprDependsSymbol sym e = true) :
    exprCalcValue table values (exprTransCompareWithin .no .equal e) = .yes ∧
      exprCalcValue table values (exprTransCompareWithin .no .unequal e) = .no := by
  induction e with
  | symbol other =>
      rw [of_decide_eq_true depends]
      refine ⟨(equal_const coherent switch .no).trans ?_,
        (unequal_const coherent switch .no).trans ?_⟩
      · rw [off]
        rfl
      · rw [off]
        rfl
  | not operand => cases depends
  | comp relation left right =>
      have unmet := no_of_depends coherent switch off depends
      exact ⟨congrArg Tristate.not unmet, unmet⟩
  | two connective left right ihLeft ihRight =>
      cases connective with
      | or => cases depends
      | and =>
          have asked : exprCalcValue table values
              (exprTransCompareWithin .no .equal (.two .and left right)) = .yes := by
            apply or_yes.mpr
            rcases Bool.or_eq_true_iff.mp depends with inLeft | inRight
            · exact Or.inl (ihLeft inLeft).1
            · exact Or.inr (ihRight inRight).1
          exact ⟨asked, congrArg Tristate.not asked⟩

end Values

/-! ### A driver of a board -/

/-- The driver is a module, and the board is not chosen. -/
def bareValues : Values Bool :=
  { switchValues with tri := fun driver => if driver then .mod else .no }

theorem bareValues_coherent : Coherent switchTable bareValues where
  boolean index := by cases index <;> exact nofun
  tristate index := by cases index <;> exact nofun
  unknown index := by cases index <;> exact nofun

/-! ### What is asked of a dependency -/

/-- Whether a condition is `y`, is not `y`, is `n` or is not `n` can be asked by an expression.
Whether a condition that needs a switch is met is `n` where the switch is, whatever else it
holds; and without `FOO!=n` it is met as before. -/
theorem conditions_asked [DecidableEq entry] {table : SymbolTable entry} {values : Values entry}
    (coherent : Coherent table values) :
    (∀ dep : Option (Expr entry), (∀ e ∈ dep, Switches table e) →
      (∀ e ∈ dep, Decided table values e) → ∀ type, IsEquality type → ∀ sym, sym ≠ .mod →
        exprCalcValue table values (exprTransCompare type sym dep) =
          comparison type (condition table values dep) sym) ∧
    (∀ e sym, IsSwitch table sym → exprDependsSymbol sym e = true → values.triOf sym = .no →
      exprCalcValue table values (exprTransCompare .unequal .no (some e)) = .no) ∧
    ∀ e, Normal table e →
      (exprCalcValue table values (exprTransBool table e) = .no ↔
        exprCalcValue table values e = .no) := by
  refine ⟨fun dep switches decided type equality sym constant =>
    transCompare_value coherent constant switches decided equality, ?_,
    fun e normal => transBool_met coherent normal⟩
  intro e sym switch depends off
  exact (depends_asked coherent switch off depends).2

theorem conditions_asked_switches :
    exprCalcValue switchTable bareValues (exprTransCompare .unequal .no
        (some (.two .or (.not (.symbol (.entry false))) (.symbol (.entry true))))) = .yes ∧
      exprCalcValue switchTable bareValues (exprTransCompare .unequal .no
        (some (.two .and (.not (.symbol (.entry true))) (.symbol (.entry false))))) = .no ∧
      exprCalcValue switchTable bareValues
        (exprTransBool switchTable (.comp .unequal (.entry true) .no)) ≠ .no := by
  obtain ⟨asked, needed, met⟩ := conditions_asked bareValues_coherent
  refine ⟨asked (some (.two .or (.not (.symbol (.entry false))) (.symbol (.entry true)))) ?_ ?_
    .unequal (Or.inr rfl) .no (by decide),
    needed (.two .and (.not (.symbol (.entry true))) (.symbol (.entry false))) (.entry false)
      (Or.inl rfl) rfl rfl, ?_⟩
  · intro e isDep
    cases Option.mem_def.mp isDep
    exact ⟨Or.inr (Or.inl rfl), Or.inr (Or.inr rfl)⟩
  · intro e isDep
    cases Option.mem_def.mp isDep
    exact ⟨⟨by decide, trivial⟩, trivial⟩
  · have normal : Normal switchTable (.comp .unequal (.entry true) .no) := by
      intro _ boolean
      cases boolean
    exact fun unmet => absurd ((met _ normal).mp unmet) (by decide)

end BuildLinux.Concrete.KconfigConditions
