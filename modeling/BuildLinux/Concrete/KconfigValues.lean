/-
What the values of the symbols are, apart from how they are calculated.

Every symbol has an outcome that is determined by the outcomes of the symbols it
depends on: the equations that a configuration solves.
-/

import BuildLinux.Concrete.KconfigCalculation
import BuildLinux.Concrete.KconfigConditions

namespace BuildLinux.Concrete.KconfigValues

open CStrings NumberText KconfigExpr KconfigConditions KconfigCalculation

variable {entry : Type}

/-! ### Outcomes -/

/-- What is calculated for a symbol. -/
structure Outcome (entry : Type) where
  tri : Tristate
  val : CString
  chosen : Option entry
  visible : Tristate
  dirDep : Tristate
  revDep : Tristate
  implied : Tristate

abbrev Outcomes (entry : Type) := entry → Outcome entry

def Outcomes.values (config : Config entry) (outcomes : Outcomes entry) : Values entry where
  tri index := (outcomes index).tri
  val index := (outcomes index).val
  modules := config.modules

/-- The first property whose condition is met, with the value of the condition. -/
def firstMet {property : Type} (config : Config entry) (values : Values entry) :
    List (property × Option (Expr entry)) → Option (property × Tristate)
  | [] => none
  | prop :: rest =>
      if condition config.table values prop.2 ≠ .no then
        some (prop.1, condition config.table values prop.2)
      else firstMet config values rest

def valueText (values : Values entry) : Symbol entry → CString
  | .yes => "y".toList
  | .mod => "m".toList
  | .no => "n".toList
  | .entry index => values.val index

section Outcomes

variable [DecidableEq entry]

/-- Where the value of the choice is given, and the values of all other symbols. -/
def visibleIn (config : Config entry) (values : Values entry) (choice : Option Tristate)
    (index : entry) : Tristate :=
  wholeVisible config index ((config.prompts index).foldl (fun tri prompt =>
    tri.or (promptVisible config index choice (condition config.table values prompt))) .no)

def directIn (config : Config entry) (values : Values entry) (index : entry) : Tristate :=
  let value := condition config.table values (config.dirDep index)
  if value = .mod then .yes else value

def selectedIn (config : Config entry) (values : Values entry) (index : entry) :
    Option (Expr entry) → Tristate
  | none => .no
  | some e => wholeSelected (typeFor config index .no) (exprCalcValue config.table values e)

/-- The symbols that select, and that imply, do so for symbols outside of choices. -/
def reverseIn (config : Config entry) (values : Values entry) (index : entry) : Tristate :=
  if IsChoiceValue config index then .no else selectedIn config values index (config.revDep index)

def impliedIn (config : Config entry) (values : Values entry) (index : entry) : Tristate :=
  if IsChoiceValue config index then .no
  else
    selectedIn config values index
      (if directIn config values index ≠ .no then config.implied index else none)

/-! ### Choices -/

/-- The values while a choice that is `y` picks one of its own. -/
def picking (values : Values entry) (choice : entry) : Values entry :=
  { values with
    tri := Function.update values.tri choice .yes
    val := Function.update values.val choice "n".toList }

def pickedDefault (config : Config entry) (values : Values entry) (listed : List entry)
    (visible : entry → Tristate) : List (Expr entry × Option (Expr entry)) → Option entry
  | [] => (listed.filter fun value => decide (visible value ≠ .no)).head?
  | prop :: rest =>
      match propSymbol prop.1 with
      | some value =>
          if condition config.table values prop.2 ≠ .no ∧ visible value ≠ .no then some value
          else pickedDefault config values listed visible rest
      | none => pickedDefault config values listed visible rest

/-- The value that a choice picks when it is `y`. -/
def picked (config : Config entry) (user : User config) (values : Values entry) (choice : entry)
    (listed : List entry) : Option entry :=
  let now := picking values choice
  let visible := visibleIn config now (some .yes)
  let fallback := pickedDefault config now listed visible (config.defaults choice)
  match user.chosen choice with
  | some value => if visible value ≠ .no then some value else fallback
  | none => fallback

/-! ### Values -/

def defaultValue (config : Config entry) (values : Values entry) (index : entry) : Tristate :=
  match firstMet config values (config.defaults index) with
  | some (e, visible) => (exprCalcValue config.table values e).and visible
  | none => .no

/-- The value before a choice has looked for one that it can pick. -/
def switchValue (config : Config entry) (user : User config) (defUser : entry → Bool)
    (outcomes : Outcomes entry) (index : entry) (visible revDep implied : Tristate) : Tristate :=
  let values := outcomes.values config
  let final := selectedValue (typeFor config index visible) implied revDep
  if IsChoiceValue config index ∧ visible = .yes then
    .ofBool (decide (∃ choice ∈ config.choiceOf index, (outcomes choice).chosen = some index))
  else if visible ≠ .no ∧ defUser index = true then final ((user.tri index).and visible)
  else if IsChoice config index then final .no
  else if implied ≠ .no then final ((defaultValue config values index).or implied)
  else final (defaultValue config values index)

def textValue (config : Config entry) (user : User config) (defUser : entry → Bool)
    (values : Values entry) (index : entry) (visible : Tristate) : CString :=
  if visible ≠ .no ∧ defUser index = true then user.val index
  else
    match firstMet config values (config.defaults index) with
    | some (.symbol sym, _) => valueText values sym
    | _ => []

def rangeBound (config : Config entry) (values : Values entry) (base : Nat)
    (sym : Symbol entry) : Int :=
  (strtoll ((rangeBase (config.table.typeOf sym)).getD base) (valueText values sym)).value

def limited (low high value : Int) : Option Int :=
  if low ≤ value then if value ≤ high then none else some high else some low

/-- The text within the first range that is met. -/
def rangedText (config : Config entry) (values : Values entry) (index : entry)
    (text : CString) : CString :=
  match rangeBase (config.table.type index) with
  | none => text
  | some base =>
      match firstMet config values (config.ranges index) with
      | none => text
      | some ((left, right), _) =>
          match limited (rangeBound config values base left) (rangeBound config values base right)
              (strtoll base text).value with
          | none => text
          | some bound => printBound (config.table.type index) bound

/-- The outcome of a symbol, from the outcomes of all symbols. -/
def outcome (config : Config entry) (user : User config) (defUser : entry → Bool)
    (outcomes : Outcomes entry) (index : entry) : Outcome entry :=
  let values := outcomes.values config
  let choice := (config.choiceOf index).map fun choice => (outcomes choice).tri
  let visible := visibleIn config values choice index
  let dirDep := if IsChoiceValue config index then .no else directIn config values index
  let revDep := reverseIn config values index
  let implied := impliedIn config values index
  match config.table.type index with
  | .boolean | .tristate =>
      let tri := switchValue config user defUser outcomes index visible revDep implied
      match config.choiceValues index with
      | none => ⟨tri, "n".toList, none, visible, dirDep, revDep, implied⟩
      | some listed =>
          let chosen := if tri = .yes then picked config user values index listed else none
          ⟨if tri = .yes ∧ chosen = none then .no else tri, "n".toList, chosen, visible, dirDep,
            revDep, implied⟩
  | .int | .hex | .string =>
      ⟨.no, rangedText config values index (textValue config user defUser values index visible),
        none, visible, dirDep, revDep, implied⟩
  | .unknown | .other => ⟨.no, config.table.name index, none, .no, .no, .no, .no⟩

/-- The outcomes agree with each other. -/
def Solves (config : Config entry) (user : User config) (defUser : entry → Bool)
    (outcomes : Outcomes entry) : Prop :=
  ∀ index, outcomes index = outcome config user defUser outcomes index

end Outcomes

end BuildLinux.Concrete.KconfigValues
