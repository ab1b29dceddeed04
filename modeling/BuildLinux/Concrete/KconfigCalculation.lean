/-
The calculation of symbol values.

A symbol that is asked for is calculated first, and then marked as valid, so that
it is calculated only once.  A choice calculates which of its values are visible
and picks one of them; the values ask their choice.

`modules` is `modules_val`, the value of `modules_sym`, which is calculated before
all others and is taken not to change while they are.  What only shows that something
changed, and the warning about a selected symbol whose dependencies are not met, are
left out.
-/

import BuildLinux.Concrete.KconfigExpr

namespace BuildLinux.Concrete.KconfigCalculation

open CStrings NumberText KconfigExpr

variable {entry : Type}

/-! ### Kconfig files -/

/-- The symbols with the properties that the menus have left them.  The defaults of a choice are
values of it. -/
structure Config (entry : Type) where
  table : SymbolTable entry
  modulesSym : Option entry
  modules : Tristate
  prompts : entry → List (Option (Expr entry))
  defaults : entry → List (Expr entry × Option (Expr entry))
  ranges : entry → List ((Symbol entry × Symbol entry) × Option (Expr entry))
  dirDep : entry → Option (Expr entry)
  revDep : entry → Option (Expr entry)
  implied : entry → Option (Expr entry)
  choiceValues : entry → Option (List entry)
  choiceOf : entry → Option entry
  auto : entry → Bool
  choiceListed : ∀ choice listed, choiceValues choice = some listed →
    ∀ value, value ∈ listed ↔ choiceOf value = some choice
  choiceNamed : ∀ value choice, choiceOf value = some choice →
    ∃ listed, choiceValues choice = some listed
  choiceSwitch : ∀ choice listed, choiceValues choice = some listed →
    table.type choice = .boolean ∨ table.type choice = .tristate
  choiceApart : ∀ choice listed, choiceValues choice = some listed → choiceOf choice = none
  choiceDefaults : ∀ choice listed, choiceValues choice = some listed →
    ∀ default ∈ defaults choice, ∃ value ∈ listed, default.1 = .symbol (.entry value)

/-- What the user has set: `def[S_DEF_USER]`.  A choice remembers one of its values. -/
structure User (config : Config entry) where
  tri : entry → Tristate
  val : entry → CString
  chosen : entry → Option entry
  chosenListed : ∀ choice value, chosen choice = some value → config.choiceOf value = some choice

/-- What the calculation knows of a symbol.  The `curr.val` of a choice is the value it has
picked. -/
structure Cell (entry : Type) where
  valid : Bool
  tri : Tristate
  val : CString
  chosen : Option entry
  visible : Tristate
  dirDep : Tristate
  revDep : Tristate
  implied : Tristate
  write : Bool
  defUser : Bool

abbrev State (entry : Type) := entry → Cell entry

def State.values (config : Config entry) (state : State entry) : Values entry where
  tri index := (state index).tri
  val index := (state index).val
  modules := config.modules

/-! ### Questions about a symbol -/

def IsChoice (config : Config entry) (index : entry) : Prop := config.choiceValues index ≠ none

instance (config : Config entry) (index : entry) : Decidable (IsChoice config index) :=
  inferInstanceAs (Decidable (config.choiceValues index ≠ none))

def IsChoiceValue (config : Config entry) (index : entry) : Prop := config.choiceOf index ≠ none

section Values

variable [DecidableEq entry]

instance (config : Config entry) (index : entry) : Decidable (IsChoiceValue config index) :=
  inferInstanceAs (Decidable (config.choiceOf index ≠ none))

/-- `sym_get_type` -/
def typeFor (config : Config entry) (index : entry) (visible : Tristate) : SymbolType :=
  if config.table.type index = .tristate then
    if IsChoiceValue config index ∧ visible = .yes then .boolean
    else if config.modules = .no then .boolean
    else .tristate
  else config.table.type index

/-- A tristate value of a choice that is `y` is not visible as `m`. -/
def promptVisible (config : Config entry) (index : entry) (choice : Option Tristate)
    (visible : Tristate) : Tristate :=
  if config.table.type index = .tristate ∧ visible = .mod ∧ choice = some .yes then .no else visible

/-- What is `m` shows all of a symbol that cannot be `m`. -/
def wholeVisible (config : Config entry) (index : entry) (visible : Tristate) : Tristate :=
  if visible = .mod ∧ (config.table.type index ≠ .tristate ∨ config.modules = .no) then .yes
  else visible

/-- What selects a symbol that cannot be `m` selects all of it. -/
def wholeSelected (type : SymbolType) (value : Tristate) : Tristate :=
  if value = .mod ∧ type = .boolean then .yes else value

/-- The end of the calculation of a switch. -/
def selectedValue (type : SymbolType) (implied revDep value : Tristate) : Tristate :=
  let selected := value.or revDep
  if selected = .mod ∧ (type = .boolean ∨ implied = .yes) then .yes else selected

/-! ### Cells -/

def State.change (state : State entry) (index : entry) (change : Cell entry → Cell entry) :
    State entry :=
  Function.update state index (change (state index))

def State.write (state : State entry) (index : entry) : State entry :=
  state.change index fun cell => { cell with write := true }

/-! ### Expressions -/

def calcSymbol (calculate : State entry → entry → State entry) (state : State entry) :
    Symbol entry → State entry
  | .entry index => calculate state index
  | _ => state

/-- `expr_calc_value` -/
def calcExpr (config : Config entry) (calculate : State entry → entry → State entry) :
    State entry → Expr entry → State entry × Tristate
  | state, .symbol sym =>
      let after := calcSymbol calculate state sym
      (after, (after.values config).triOf sym)
  | state, .not operand =>
      let value := calcExpr config calculate state operand
      (value.1, value.2.not)
  | state, .two type left right =>
      let val1 := calcExpr config calculate state left
      let val2 := calcExpr config calculate val1.1 right
      (val2.1, type.apply val1.2 val2.2)
  | state, .comp type left right =>
      let after := calcSymbol calculate (calcSymbol calculate state left) right
      (after, exprCalcValue config.table (after.values config) (.comp type left right))

def calcCondition (config : Config entry) (calculate : State entry → entry → State entry)
    (state : State entry) : Option (Expr entry) → State entry × Tristate
  | none => (state, .yes)
  | some e => calcExpr config calculate state e

/-- `sym_get_default_prop`, `sym_get_range_prop`: the first property whose condition is met. -/
def firstVisible {property : Type} (config : Config entry)
    (calculate : State entry → entry → State entry) :
    State entry → List (property × Option (Expr entry)) →
      State entry × Option (property × Tristate)
  | state, [] => (state, none)
  | state, prop :: rest =>
      let visible := calcCondition config calculate state prop.2
      if visible.2 ≠ .no then (visible.1, some (prop.1, visible.2))
      else firstVisible config calculate visible.1 rest

/-! ### Visibility -/

/-- The `curr.tri` of the choice that a value belongs to. -/
def choiceTri (config : Config entry) (state : State entry) (index : entry) : Option Tristate :=
  (config.choiceOf index).map fun choice => (state choice).tri

def calcPrompts (config : Config entry) (calculate : State entry → entry → State entry)
    (index : entry) :
    State entry → Tristate → List (Option (Expr entry)) → State entry × Tristate
  | state, tri, [] => (state, tri)
  | state, tri, prompt :: rest =>
      let value := calcCondition config calculate state prompt
      let visible := promptVisible config index (choiceTri config value.1 index) value.2
      calcPrompts config calculate index value.1 (tri.or visible) rest

/-- An expression that is `n` where it is missing, for a symbol of this type. -/
def calcSelected (config : Config entry) (calculate : State entry → entry → State entry)
    (state : State entry) (index : entry) : Option (Expr entry) → State entry × Tristate
  | none => (state, .no)
  | some e =>
      let value := calcExpr config calculate state e
      (value.1, wholeSelected (typeFor config index (value.1 index).visible) value.2)

def calcShown (config : Config entry) (calculate : State entry → entry → State entry)
    (state : State entry) (index : entry) : State entry :=
  let prompts := calcPrompts config calculate index state .no (config.prompts index)
  prompts.1.change index fun cell =>
    { cell with visible := wholeVisible config index prompts.2 }

/-- Without a dependency a symbol depends on nothing that is `n`. -/
def calcDirect (config : Config entry) (calculate : State entry → entry → State entry)
    (state : State entry) (index : entry) : State entry :=
  let direct := calcCondition config calculate state (config.dirDep index)
  direct.1.change index fun cell =>
    { cell with dirDep := if direct.2 = .mod then .yes else direct.2 }

def calcReverse (config : Config entry) (calculate : State entry → entry → State entry)
    (state : State entry) (index : entry) : State entry :=
  let reverse := calcSelected config calculate state index (config.revDep index)
  reverse.1.change index fun cell => { cell with revDep := reverse.2 }

/-- Only a symbol whose dependencies are met is implied. -/
def calcImplied (config : Config entry) (calculate : State entry → entry → State entry)
    (state : State entry) (index : entry) : State entry :=
  let weak := calcSelected config calculate state index
    (if (state index).dirDep ≠ .no then config.implied index else none)
  weak.1.change index fun cell => { cell with implied := weak.2 }

/-- `sym_calc_visibility`: for a value of a choice the prompts are all. -/
def calcVisibility (config : Config entry) (calculate : State entry → entry → State entry)
    (state : State entry) (index : entry) : State entry :=
  let shown := calcShown config calculate state index
  if IsChoiceValue config index then shown
  else
    calcImplied config calculate
      (calcReverse config calculate (calcDirect config calculate shown index) index) index

/-! ### Choices -/

/-- The values of a choice whose visibility is not `n`. -/
def visibleValues (state : State entry) (listed : List entry) : List entry :=
  listed.filter fun value => decide ((state value).visible ≠ .no)

/-- The symbol that a property of a choice names. -/
def propSymbol : Expr entry → Option entry
  | .symbol (.entry index) => some index
  | _ => none

/-- The first default of a choice whose symbol is visible. -/
def choiceDefault (config : Config entry) (calculate : State entry → entry → State entry) :
    State entry → List (Expr entry × Option (Expr entry)) → State entry × Option entry
  | state, [] => (state, none)
  | state, prop :: rest =>
      let visible := calcCondition config calculate state prop.2
      match propSymbol prop.1 with
      | some value =>
          if visible.2 ≠ .no ∧ (visible.1 value).visible ≠ .no then (visible.1, some value)
          else choiceDefault config calculate visible.1 rest
      | none => choiceDefault config calculate visible.1 rest

/-- `sym_choice_default` -/
def symChoiceDefault (config : Config entry) (calculate : State entry → entry → State entry)
    (state : State entry) (choice : entry) (listed : List entry) : State entry × Option entry :=
  let found := choiceDefault config calculate state (config.defaults choice)
  match found.2 with
  | some value => (found.1, some value)
  | none => (found.1, (visibleValues found.1 listed).head?)

/-- A choice is new when one of its visible values is new. -/
def calcMembers (config : Config entry) (calculate : State entry → entry → State entry)
    (state : State entry) (choice : entry) (listed : List entry) : State entry :=
  let shown := listed.foldl (calcVisibility config calculate) state
  shown.change choice fun cell =>
    { cell with defUser := cell.defUser &&
        (visibleValues shown listed).all fun value => (shown value).defUser }

def calcFallback (config : Config entry) (calculate : State entry → entry → State entry)
    (state : State entry) (choice : entry) (listed : List entry) : State entry :=
  let found := symChoiceDefault config calculate state choice listed
  found.1.change choice fun cell =>
    { cell with chosen := found.2, tri := if found.2 = none then .no else cell.tri }

/-- `sym_calc_choice` -/
def calcChoice (config : Config entry) (user : User config)
    (calculate : State entry → entry → State entry) (state : State entry) (choice : entry)
    (listed : List entry) : State entry :=
  let asked := calcMembers config calculate state choice listed
  match user.chosen choice with
  | some value =>
      if (asked value).visible ≠ .no then
        asked.change choice fun cell => { cell with chosen := some value }
      else calcFallback config calculate asked choice listed
  | none => calcFallback config calculate asked choice listed

/-! ### Ranges -/

def rangeBase : SymbolType → Option Nat
  | .int => some 10
  | .hex => some 16
  | _ => none

/-- `curr.val` -/
def State.valOf (state : State entry) : Symbol entry → CString
  | .yes => "y".toList
  | .mod => "m".toList
  | .no => "n".toList
  | .entry index => (state index).val

/-- `sym_get_range_val` -/
def rangeVal (config : Config entry) (calculate : State entry → entry → State entry)
    (state : State entry) (sym : Symbol entry) (base : Nat) : State entry × Int :=
  let after := calcSymbol calculate state sym
  (after, (strtoll ((rangeBase (config.table.typeOf sym)).getD base) (after.valOf sym)).value)

/-- The bound that a value violates; the upper one is asked for only above the lower one. -/
def violatedBound (config : Config entry) (calculate : State entry → entry → State entry)
    (state : State entry) (base : Nat) (value : Int) (left right : Symbol entry) :
    State entry × Option Int :=
  let low := rangeVal config calculate state left base
  if low.2 ≤ value then
    let high := rangeVal config calculate low.1 right base
    (high.1, if value ≤ high.2 then none else some high.2)
  else (low.1, some low.2)

def printBound (type : SymbolType) (bound : Int) : CString :=
  if type = .int then printLld bound else printHex bound

/-- `sym_validate_range` -/
def validateRange (config : Config entry) (calculate : State entry → entry → State entry)
    (state : State entry) (index : entry) : State entry :=
  match rangeBase (config.table.type index) with
  | none => state
  | some base =>
      let prop := firstVisible config calculate state (config.ranges index)
      match prop.2 with
      | none => prop.1
      | some ((left, right), _) =>
          let value := (strtoll base (prop.1 index).val).value
          let bound := violatedBound config calculate prop.1 base value left right
          match bound.2 with
          | none => bound.1
          | some limit =>
              bound.1.change index fun cell =>
                { cell with val := printBound (config.table.type index) limit }

/-! ### Values -/

/-- `calc_newval`, with what is known of the symbol then. -/
def finalValue (config : Config entry) (state : State entry) (index : entry) (value : Tristate) :
    State entry × Tristate :=
  let cell := state index
  (state, selectedValue (typeFor config index cell.visible) cell.implied cell.revDep value)

/-- The first default that is met, limited by its condition. -/
def calcDefault (config : Config entry) (calculate : State entry → entry → State entry)
    (state : State entry) (index : entry) : State entry × Tristate :=
  let prop := firstVisible config calculate state (config.defaults index)
  match prop.2 with
  | none => (prop.1, .no)
  | some (e, visible) =>
      let value := calcExpr config calculate (prop.1.write index) e
      (value.1, value.2.and visible)

def calcSwitch (config : Config entry) (user : User config)
    (calculate : State entry → entry → State entry) (state : State entry) (index : entry) :
    State entry × Tristate :=
  let cell := state index
  if IsChoiceValue config index ∧ cell.visible = .yes then
    (state, .ofBool (decide (∃ choice ∈ config.choiceOf index, (state choice).chosen = some index)))
  else if cell.visible ≠ .no ∧ cell.defUser = true then
    finalValue config (state.write index) index ((user.tri index).and cell.visible)
  else
    let shown := if cell.visible ≠ .no ∨ cell.revDep ≠ .no then state.write index else state
    if IsChoice config index then finalValue config shown index .no
    else
      let fallback := calcDefault config calculate shown index
      if (fallback.1 index).implied ≠ .no then
        finalValue config (fallback.1.write index) index
          (fallback.2.or (fallback.1 index).implied)
      else finalValue config fallback.1 index fallback.2

def calcText (config : Config entry) (user : User config)
    (calculate : State entry → entry → State entry) (state : State entry) (index : entry) :
    State entry × CString :=
  let cell := state index
  if cell.visible ≠ .no ∧ cell.defUser = true then (state.write index, user.val index)
  else
    let shown := if cell.visible ≠ .no then state.write index else state
    let prop := firstVisible config calculate shown (config.defaults index)
    match prop.2 with
    | some (.symbol sym, _) =>
        let after := calcSymbol calculate (prop.1.write index) sym
        (after, after.valOf sym)
    | _ => (prop.1, [])

/-- The values of a choice that is written are written where they are visible. -/
def writeValues (state : State entry) (choice : entry) (listed : List entry) : State entry :=
  if (state choice).write = true then
    listed.foldl (fun marked value =>
      if (marked value).visible ≠ .no then marked.write value else marked) state
  else state

def unwrite (config : Config entry) (state : State entry) (index : entry) : State entry :=
  if config.auto index = true then state.change index fun cell => { cell with write := false }
  else state

/-- The start of the calculation: the symbol is valid, and not yet written. -/
def started (config : Config entry) (state : State entry) (index : entry) : State entry :=
  state.change index fun cell =>
    { cell with valid := true, write := cell.write && decide (IsChoiceValue config index) }

/-- A new `curr`, first the one that a recursive call finds. -/
def State.settle (state : State entry) (index : entry) (tri : Tristate) (val : CString) :
    State entry :=
  state.change index fun cell => { cell with tri := tri, val := val, chosen := none }

def calcSwitchSymbol (config : Config entry) (user : User config)
    (calculate : State entry → entry → State entry) (state : State entry) (index : entry) :
    State entry :=
  let shown := (calcVisibility config calculate (started config state index) index).settle index
    .no "n".toList
  let value := calcSwitch config user calculate shown index
  let current := value.1.settle index value.2 "n".toList
  match config.choiceValues index with
  | none => unwrite config current index
  | some listed =>
      let picked := if value.2 = .yes then calcChoice config user calculate current index listed
        else current
      unwrite config (writeValues picked index listed) index

def calcTextSymbol (config : Config entry) (user : User config)
    (calculate : State entry → entry → State entry) (state : State entry) (index : entry) :
    State entry :=
  let shown := (calcVisibility config calculate (started config state index) index).settle index
    .no []
  let value := calcText config user calculate shown index
  unwrite config (validateRange config calculate (value.1.settle index .no value.2) index) index

def symCalcValue (config : Config entry) (user : User config) :
    Nat → State entry → entry → State entry
  | 0, state, _ => state
  | fuel + 1, state, index =>
      if (state index).valid = true then state
      else
        match config.table.type index with
        | .boolean | .tristate => calcSwitchSymbol config user (symCalcValue config user fuel) state index
        | .int | .hex | .string => calcTextSymbol config user (symCalcValue config user fuel) state index
        | .unknown | .other => state.change index fun cell =>
            { cell with valid := true, tri := .no, val := config.table.name index, chosen := none }

end Values

end BuildLinux.Concrete.KconfigCalculation
