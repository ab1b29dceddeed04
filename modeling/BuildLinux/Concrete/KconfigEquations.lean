/-
The equations between the values of symbols.

Symbols that depend on each other in a circle are refused before, so that every
symbol has a rank.  Then there is exactly one solution.
-/

import Mathlib.Data.List.Basic
import BuildLinux.RankedEquations
import BuildLinux.Concrete.KconfigValues

namespace BuildLinux.Concrete.KconfigEquations

open CStrings NumberText RankedEquations KconfigExpr KconfigConditions KconfigCalculation
  KconfigValues

variable {entry : Type}

/-! ### Types -/

/-- Of the other types only the value is calculated. -/
def HasVisibility (config : Config entry) (index : entry) : Prop :=
  config.table.type index ≠ .unknown ∧ config.table.type index ≠ .other

instance (config : Config entry) (index : entry) : Decidable (HasVisibility config index) :=
  inferInstanceAs (Decidable (config.table.type index ≠ .unknown ∧ _))

def IsSwitch (config : Config entry) (index : entry) : Prop :=
  config.table.type index = .boolean ∨ config.table.type index = .tristate

instance (config : Config entry) (index : entry) : Decidable (IsSwitch config index) :=
  inferInstanceAs (Decidable (config.table.type index = .boolean ∨ _))

def IsText (config : Config entry) (index : entry) : Prop :=
  config.table.type index = .int ∨ config.table.type index = .hex ∨
    config.table.type index = .string

theorem IsSwitch.hasVisibility {config : Config entry} {index : entry}
    (isSwitch : IsSwitch config index) : HasVisibility config index := by
  unfold HasVisibility
  rcases isSwitch with same | same <;> rw [same] <;> decide

theorem IsSwitch.not_text {config : Config entry} {index : entry}
    (isSwitch : IsSwitch config index) : ¬IsText config index := by
  unfold IsText
  rcases isSwitch with same | same <;> rw [same] <;> decide

/-- A choice is a switch. -/
theorem IsText.single {config : Config entry} {index : entry} (isText : IsText config index) :
    ¬IsChoice config index := by
  intro isChoice
  obtain ⟨listed, isListed⟩ := Option.ne_none_iff_exists'.mp isChoice
  exact IsSwitch.not_text (config.choiceSwitch index listed isListed) isText

theorem HasVisibility.split {config : Config entry} {index : entry}
    (hasVisibility : HasVisibility config index) : IsSwitch config index ∨ IsText config index := by
  unfold IsSwitch IsText
  cases type : config.table.type index with
  | unknown => exact absurd type hasVisibility.1
  | other => exact absurd type hasVisibility.2
  | boolean => exact Or.inl (Or.inl rfl)
  | tristate => exact Or.inl (Or.inr rfl)
  | int => exact Or.inr (Or.inl rfl)
  | hex => exact Or.inr (Or.inr (Or.inl rfl))
  | string => exact Or.inr (Or.inr (Or.inr rfl))

theorem isChoiceValue_of_owner {config : Config entry} {value choice : entry}
    (belongs : config.choiceOf value = some choice) : IsChoiceValue config value := by
  unfold IsChoiceValue
  rw [belongs]
  exact Option.some_ne_none choice

theorem isChoice_of_values {config : Config entry} {choice : entry} {listed : List entry}
    (isChoice : config.choiceValues choice = some listed) : IsChoice config choice := by
  unfold IsChoice
  rw [isChoice]
  exact Option.some_ne_none listed

theorem owner_switch {config : Config entry} {value choice : entry}
    (belongs : config.choiceOf value = some choice) : IsSwitch config choice := by
  obtain ⟨listed, isChoice⟩ := config.choiceNamed value choice belongs
  exact config.choiceSwitch choice listed isChoice

section Outcomes

variable [DecidableEq entry] {config : Config entry} {user : User config} {defUser : entry → Bool}
  {outcomes : Outcomes entry} {index : entry}

theorem outcome_text (isText : IsText config index) :
    let values := outcomes.values config
    let visible := visibleIn config values ((config.choiceOf index).map values.tri) index
    outcome config user defUser outcomes index =
      ⟨.no, rangedText config values index (textValue config user defUser values index visible),
        none, visible, if IsChoiceValue config index then .no else directIn config values index,
        reverseIn config values index, impliedIn config values index⟩ := by
  unfold outcome
  rcases isText with same | same | same <;> rw [same] <;> rfl

theorem outcome_switch (isSwitch : IsSwitch config index) :
    let values := outcomes.values config
    let visible := visibleIn config values ((config.choiceOf index).map values.tri) index
    let dirDep := if IsChoiceValue config index then .no else directIn config values index
    let revDep := reverseIn config values index
    let implied := impliedIn config values index
    let tri := switchValue config user defUser outcomes index visible revDep implied
    outcome config user defUser outcomes index =
      match config.choiceValues index with
      | none => ⟨tri, "n".toList, none, visible, dirDep, revDep, implied⟩
      | some listed =>
          let chosen := if tri = .yes then picked config user values index listed else none
          ⟨if tri = .yes ∧ chosen = none then .no else tri, "n".toList, chosen, visible, dirDep,
            revDep, implied⟩ := by
  unfold outcome
  rcases isSwitch with same | same <;> rw [same] <;> rfl

theorem outcome_rest (rest : ¬HasVisibility config index) :
    outcome config user defUser outcomes index =
      ⟨.no, config.table.name index, none, .no, .no, .no, .no⟩ := by
  unfold outcome
  cases type : config.table.type index with
  | unknown => rfl
  | other => rfl
  | boolean => exact absurd (by simp [HasVisibility, type]) rest
  | tristate => exact absurd (by simp [HasVisibility, type]) rest
  | int => exact absurd (by simp [HasVisibility, type]) rest
  | hex => exact absurd (by simp [HasVisibility, type]) rest
  | string => exact absurd (by simp [HasVisibility, type]) rest

theorem outcome_visible (hasVisibility : HasVisibility config index) :
    let values := outcomes.values config
    (outcome config user defUser outcomes index).visible =
      visibleIn config values ((config.choiceOf index).map values.tri) index := by
  unfold outcome
  cases type : config.table.type index with
  | unknown => exact absurd type hasVisibility.1
  | other => exact absurd type hasVisibility.2
  | boolean => cases config.choiceValues index <;> rfl
  | tristate => cases config.choiceValues index <;> rfl
  | int => rfl
  | hex => rfl
  | string => rfl

theorem outcome_conditions (hasVisibility : HasVisibility config index) :
    (outcome config user defUser outcomes index).revDep =
        reverseIn config (outcomes.values config) index ∧
      (outcome config user defUser outcomes index).implied =
        impliedIn config (outcomes.values config) index := by
  unfold outcome
  cases type : config.table.type index with
  | unknown => exact absurd type hasVisibility.1
  | other => exact absurd type hasVisibility.2
  | boolean => cases config.choiceValues index <;> exact ⟨rfl, rfl⟩
  | tristate => cases config.choiceValues index <;> exact ⟨rfl, rfl⟩
  | int => exact ⟨rfl, rfl⟩
  | hex => exact ⟨rfl, rfl⟩
  | string => exact ⟨rfl, rfl⟩

end Outcomes

/-- What is still `y` was `y`, and was not reset. -/
theorem reset_yes {tri : Tristate} {nothing : Prop} [Decidable nothing]
    (whole : (if tri = .yes ∧ nothing then .no else tri) = .yes) : tri = .yes ∧ ¬nothing := by
  split at whole
  · cases whole
  · rename_i kept
    exact ⟨whole, fun isNothing => kept ⟨whole, isNothing⟩⟩

theorem reset_mod {tri : Tristate} {nothing : Prop} [Decidable nothing]
    (isMod : (if tri = .yes ∧ nothing then .no else tri) = .mod) : tri = .mod := by
  split at isMod
  · cases isMod
  · exact isMod

/-! ### Ranks -/

/-- The expressions that the value of a symbol is calculated from, but for its prompts. -/
def dependencies (config : Config entry) (index : entry) : List (Expr entry) :=
  (config.dirDep index).toList ++ (config.revDep index).toList ++ (config.implied index).toList ++
    ((config.defaults index).flatMap fun prop =>
      (if IsChoice config index then [] else [prop.1]) ++ prop.2.toList) ++
    ((config.ranges index).flatMap fun prop =>
      [.symbol prop.1.1, .symbol prop.1.2] ++ prop.2.toList)

section Dependencies

variable {config : Config entry} {index : entry}

theorem dirDep_depends {e : Expr entry} (isDep : e ∈ config.dirDep index) :
    e ∈ dependencies config index := by
  simp [dependencies, Option.mem_def.mp isDep]

theorem revDep_depends {e : Expr entry} (isDep : e ∈ config.revDep index) :
    e ∈ dependencies config index := by
  simp [dependencies, Option.mem_def.mp isDep]

theorem implied_depends {e : Expr entry} (isDep : e ∈ config.implied index) :
    e ∈ dependencies config index := by
  simp [dependencies, Option.mem_def.mp isDep]

theorem default_depends {prop : Expr entry × Option (Expr entry)}
    (listed : prop ∈ config.defaults index) {e : Expr entry}
    (within : e ∈ (if IsChoice config index then [] else [prop.1]) ++ prop.2.toList) :
    e ∈ dependencies config index := by
  unfold dependencies
  exact List.mem_append_left _
    (List.mem_append_right _ (List.mem_flatMap.mpr ⟨prop, listed, within⟩))

theorem defaultCondition_depends {prop : Expr entry × Option (Expr entry)}
    (listed : prop ∈ config.defaults index) {e : Expr entry} (isDep : e ∈ prop.2) :
    e ∈ dependencies config index :=
  default_depends listed (List.mem_append_right _ (Option.mem_toList.mpr isDep))

theorem defaultValue_depends {prop : Expr entry × Option (Expr entry)}
    (listed : prop ∈ config.defaults index) (single : ¬IsChoice config index) :
    prop.1 ∈ dependencies config index := by
  refine default_depends listed (List.mem_append_left _ ?_)
  rw [if_neg single]
  exact List.mem_cons_self

theorem range_depends {prop : (Symbol entry × Symbol entry) × Option (Expr entry)}
    (listed : prop ∈ config.ranges index) {e : Expr entry}
    (within : e ∈ [.symbol prop.1.1, .symbol prop.1.2] ++ prop.2.toList) :
    e ∈ dependencies config index := by
  unfold dependencies
  exact List.mem_append_right _ (List.mem_flatMap.mpr ⟨prop, listed, within⟩)

theorem rangeCondition_depends {prop : (Symbol entry × Symbol entry) × Option (Expr entry)}
    (listed : prop ∈ config.ranges index) {e : Expr entry} (isDep : e ∈ prop.2) :
    e ∈ dependencies config index :=
  range_depends listed (List.mem_append_right _ (Option.mem_toList.mpr isDep))

theorem rangeSymbols_depend {prop : (Symbol entry × Symbol entry) × Option (Expr entry)}
    (listed : prop ∈ config.ranges index) :
    .symbol prop.1.1 ∈ dependencies config index ∧ .symbol prop.1.2 ∈ dependencies config index :=
  ⟨range_depends listed (by simp), range_depends listed (by simp)⟩

end Dependencies

/-- The symbol that stands for a value in the order of the calculation. -/
def owner (config : Config entry) (index : entry) : entry := (config.choiceOf index).getD index

/-- Symbols depend on symbols of a lower rank; the prompts of a value ask its choice, and depend on
nothing else that the choice depends on. -/
structure Ranked [DecidableEq entry] (config : Config entry) (rank : entry → Nat) : Prop where
  dependency : ∀ index, ∀ e ∈ dependencies config index, ∀ other,
    exprContainsSymbol (.entry other) e = true → rank other < rank index
  prompt : ∀ index e, some e ∈ config.prompts index → ∀ other,
    exprContainsSymbol (.entry other) e = true →
      config.choiceOf index = some other ∨ rank other < rank (owner config index)
  choice : ∀ value choice, config.choiceOf value = some choice → rank choice < rank value
  asked : ∀ value choice, config.choiceOf value = some choice → config.prompts value ≠ [] ∧
    ∀ prompt ∈ config.prompts value, ∃ e, prompt = some e ∧
      exprContainsSymbol (.entry choice) e = true

/-- The prompts of a symbol are below it. -/
theorem prompt_below [DecidableEq entry] {config : Config entry} {rank : entry → Nat}
    (ranked : Ranked config rank) {index : entry} {prompt : Option (Expr entry)}
    (listed : prompt ∈ config.prompts index) {e : Expr entry} (isPrompt : e ∈ prompt)
    (other : entry) (contained : exprContainsSymbol (.entry other) e = true) :
    rank other < rank index := by
  rcases ranked.prompt index e (isPrompt ▸ listed) other contained with isChoice | below
  · exact ranked.choice index other isChoice
  · unfold owner at below
    cases belongs : config.choiceOf index with
    | none =>
        rw [belongs] at below
        exact below
    | some choice =>
        rw [belongs] at below
        exact Nat.lt_trans below (ranked.choice index choice belongs)

theorem firstMet_mem {property : Type} {config : Config entry} {values : Values entry}
    {props : List (property × Option (Expr entry))} {found : property × Tristate}
    (met : firstMet config values props = some found) : ∃ dep, (found.1, dep) ∈ props := by
  induction props with
  | nil => cases met
  | cons prop rest ih =>
      unfold firstMet at met
      split at met
      · cases met
        exact ⟨prop.2, List.mem_cons_self⟩
      · obtain ⟨dep, listed⟩ := ih met
        exact ⟨dep, List.mem_cons_of_mem prop listed⟩

/-! ### What a value depends on -/

section Equations

variable [DecidableEq entry] {config : Config entry} {rank : entry → Nat}

/-- Two tables of values that agree on the symbols of an expression. -/
def AgreeIn (first second : Values entry) (e : Expr entry) : Prop :=
  ∀ index, exprContainsSymbol (.entry index) e = true →
    first.tri index = second.tri index ∧ first.val index = second.val index

variable {first second : Values entry} (modules : first.modules = second.modules)

include modules

theorem condition_agree {dep : Option (Expr entry)} (agree : ∀ e ∈ dep, AgreeIn first second e) :
    condition config.table first dep = condition config.table second dep := by
  cases dep with
  | none => rfl
  | some e => exact value_of_contained modules (agree e rfl)

theorem firstMet_agree {property : Type} {props : List (property × Option (Expr entry))}
    (agree : ∀ prop ∈ props, ∀ e ∈ prop.2, AgreeIn first second e) :
    firstMet config first props = firstMet config second props := by
  induction props with
  | nil => rfl
  | cons prop rest ih =>
      have same : condition config.table first prop.2 = condition config.table second prop.2 :=
        condition_agree modules (agree prop List.mem_cons_self)
      unfold firstMet
      rw [same, ih fun other listed => agree other (List.mem_cons_of_mem prop listed)]

theorem visibleIn_agree {choice : Option Tristate} {index : entry}
    (agree : ∀ prompt ∈ config.prompts index, ∀ e ∈ prompt, AgreeIn first second e) :
    visibleIn config first choice index = visibleIn config second choice index := by
  unfold visibleIn
  congr 1
  refine List.foldl_ext _ _ _ fun tri prompt listed => ?_
  rw [condition_agree modules (agree prompt listed)]

theorem directIn_agree {index : entry}
    (agree : ∀ e ∈ dependencies config index, AgreeIn first second e) :
    directIn config first index = directIn config second index := by
  unfold directIn
  rw [condition_agree modules fun e isDep => agree e (dirDep_depends isDep)]

theorem selectedIn_agree {index : entry} {dep : Option (Expr entry)}
    (agree : ∀ e ∈ dep, AgreeIn first second e) :
    selectedIn config first index dep = selectedIn config second index dep := by
  cases dep with
  | none => rfl
  | some e =>
      exact congrArg (wholeSelected (typeFor config index .no))
        (value_of_contained modules (agree e rfl))

theorem reverseIn_agree {index : entry}
    (agree : ∀ e ∈ dependencies config index, AgreeIn first second e) :
    reverseIn config first index = reverseIn config second index := by
  unfold reverseIn
  rw [selectedIn_agree modules fun e isDep => agree e (revDep_depends isDep)]

theorem impliedIn_agree {index : entry}
    (agree : ∀ e ∈ dependencies config index, AgreeIn first second e) :
    impliedIn config first index = impliedIn config second index := by
  have implied : ∀ e ∈ (if directIn config second index ≠ .no then config.implied index else none),
      AgreeIn first second e := by
    intro e isDep
    split at isDep
    · exact agree e (implied_depends isDep)
    · cases Option.mem_def.mp isDep
  unfold impliedIn
  rw [directIn_agree modules agree, selectedIn_agree modules implied]

theorem defaultValue_agree {index : entry} (single : ¬IsChoice config index)
    (agree : ∀ e ∈ dependencies config index, AgreeIn first second e) :
    defaultValue config first index = defaultValue config second index := by
  have same : firstMet config first (config.defaults index) =
      firstMet config second (config.defaults index) :=
    firstMet_agree modules fun prop listed e isDep => agree e (defaultCondition_depends listed isDep)
  unfold defaultValue
  rw [same]
  cases met : firstMet config second (config.defaults index) with
  | none => rfl
  | some prop =>
      obtain ⟨dep, listed⟩ := firstMet_mem met
      exact congrArg (Tristate.and · prop.2)
        (value_of_contained modules (agree _ (defaultValue_depends listed single)))

omit modules in
theorem valueText_agree {sym : Symbol entry} (agree : AgreeIn first second (.symbol sym)) :
    valueText first sym = valueText second sym := by
  cases sym with
  | yes => rfl
  | mod => rfl
  | no => rfl
  | entry index => exact (agree index (decide_eq_true rfl)).2

theorem textValue_agree {user : User config} {defUser : entry → Bool} {index : entry}
    {visible : Tristate} (single : ¬IsChoice config index)
    (agree : ∀ e ∈ dependencies config index, AgreeIn first second e) :
    textValue config user defUser first index visible =
      textValue config user defUser second index visible := by
  have same : firstMet config first (config.defaults index) =
      firstMet config second (config.defaults index) :=
    firstMet_agree modules fun prop listed e isDep => agree e (defaultCondition_depends listed isDep)
  unfold textValue
  rw [same]
  cases met : firstMet config second (config.defaults index) with
  | none => rfl
  | some prop =>
      obtain ⟨e, visible⟩ := prop
      obtain ⟨dep, listed⟩ := firstMet_mem met
      cases e with
      | symbol sym =>
          have sameText : valueText first sym = valueText second sym :=
            valueText_agree (agree _ (defaultValue_depends listed single))
          dsimp only
          rw [sameText]
      | not operand => rfl
      | two type left right => rfl
      | comp type left right => rfl

theorem rangedText_agree {index : entry} {text : CString}
    (agree : ∀ e ∈ dependencies config index, AgreeIn first second e) :
    rangedText config first index text = rangedText config second index text := by
  have same : firstMet config first (config.ranges index) =
      firstMet config second (config.ranges index) :=
    firstMet_agree modules fun prop listed e isDep => agree e (rangeCondition_depends listed isDep)
  unfold rangedText
  cases rangeBase (config.table.type index) with
  | none => rfl
  | some base =>
      rw [same]
      cases met : firstMet config second (config.ranges index) with
      | none => rfl
      | some prop =>
          obtain ⟨⟨left, right⟩, visible⟩ := prop
          obtain ⟨dep, listed⟩ := firstMet_mem met
          obtain ⟨dependsLeft, dependsRight⟩ := rangeSymbols_depend listed
          have sameLeft : valueText first left = valueText second left :=
            valueText_agree (agree _ dependsLeft)
          have sameRight : valueText first right = valueText second right :=
            valueText_agree (agree _ dependsRight)
          unfold rangeBound
          dsimp only
          rw [sameLeft, sameRight]

theorem pickedDefault_agree {listed : List entry} {firstVisible secondVisible : entry → Tristate}
    {props : List (Expr entry × Option (Expr entry))} {choice : entry}
    (ofListed : ∀ value ∈ listed, config.choiceOf value = some choice)
    (named : ∀ prop ∈ props, ∃ value ∈ listed, prop.1 = .symbol (.entry value))
    (visible : ∀ value, config.choiceOf value = some choice →
      firstVisible value = secondVisible value)
    (agree : ∀ prop ∈ props, ∀ e ∈ prop.2, AgreeIn first second e) :
    pickedDefault config first listed firstVisible props =
      pickedDefault config second listed secondVisible props := by
  induction props with
  | nil =>
      unfold pickedDefault
      congr 1
      exact List.filter_congr fun value isListed => by rw [visible value (ofListed value isListed)]
  | cons prop rest ih =>
      obtain ⟨value, isListed, names⟩ := named prop List.mem_cons_self
      unfold pickedDefault
      rw [condition_agree modules (agree prop List.mem_cons_self), names,
        ih (fun other member => named other (List.mem_cons_of_mem prop member))
          fun other member => agree other (List.mem_cons_of_mem prop member)]
      unfold propSymbol
      dsimp only
      rw [visible value (ofListed value isListed)]

end Equations

/-! ### Ranked equations -/

section Picking

variable [DecidableEq entry]

theorem picking_other (values : Values entry) {choice other : entry} (different : other ≠ choice) :
    (picking values choice).tri other = values.tri other ∧
      (picking values choice).val other = values.val other :=
  ⟨Function.update_of_ne different _ _, Function.update_of_ne different _ _⟩

theorem picking_choice (values : Values entry) (choice : entry) :
    (picking values choice).tri choice = .yes ∧
      (picking values choice).val choice = "n".toList :=
  ⟨Function.update_self choice _ _, Function.update_self choice _ _⟩

/-- A choice that is `y` sees the values as they are. -/
theorem picking_self {values : Values entry} {choice : entry} (tri : values.tri choice = .yes)
    (val : values.val choice = "n".toList) : picking values choice = values := by
  unfold picking
  rw [← tri, ← val, Function.update_eq_self, Function.update_eq_self]

end Picking

section Ranked

variable [DecidableEq entry] {config : Config entry} {rank : entry → Nat}
  (ranked : Ranked config rank) {first second : Outcomes entry} {index : entry}
  (below : ∀ other, rank other < rank index → first other = second other)

include ranked below

theorem dependencies_agree : ∀ e ∈ dependencies config index,
    AgreeIn (first.values config) (second.values config) e := by
  intro e depends other contained
  have same := below other (ranked.dependency index e depends other contained)
  exact ⟨congrArg Outcome.tri same, congrArg Outcome.val same⟩

theorem prompts_agree : ∀ prompt ∈ config.prompts index, ∀ e ∈ prompt,
    AgreeIn (first.values config) (second.values config) e := by
  intro prompt listed e isPrompt other contained
  have same := below other (prompt_below ranked listed isPrompt other contained)
  exact ⟨congrArg Outcome.tri same, congrArg Outcome.val same⟩

omit ranked in
/-- What is below a choice, and the choice itself, while the choice picks. -/
theorem picking_agree {e : Expr entry} (within : ∀ other,
    exprContainsSymbol (.entry other) e = true → other = index ∨ rank other < rank index) :
    AgreeIn (picking (first.values config) index) (picking (second.values config) index) e := by
  intro other contained
  by_cases isIndex : other = index
  · cases isIndex
    obtain ⟨tri, val⟩ := picking_choice (first.values config) index
    obtain ⟨otherTri, otherVal⟩ := picking_choice (second.values config) index
    exact ⟨tri.trans otherTri.symm, val.trans otherVal.symm⟩
  · have same := below other ((within other contained).resolve_left isIndex)
    obtain ⟨tri, val⟩ := picking_other (first.values config) isIndex
    obtain ⟨otherTri, otherVal⟩ := picking_other (second.values config) isIndex
    exact ⟨tri.trans ((congrArg Outcome.tri same).trans otherTri.symm),
      val.trans ((congrArg Outcome.val same).trans otherVal.symm)⟩

theorem picked_agree (user : User config) {listed : List entry}
    (isChoice : config.choiceValues index = some listed) :
    picked config user (first.values config) index listed =
      picked config user (second.values config) index listed := by
  have modules : (picking (first.values config) index).modules =
      (picking (second.values config) index).modules := rfl
  have ofListed := config.choiceListed index listed isChoice
  have visible : ∀ value, config.choiceOf value = some index →
      visibleIn config (picking (first.values config) index) (some .yes) value =
        visibleIn config (picking (second.values config) index) (some .yes) value := by
    intro value belongs
    refine visibleIn_agree modules fun prompt isListed e isPrompt => picking_agree below ?_
    intro other contained
    rcases ranked.prompt value e (isPrompt ▸ isListed) other contained with isOther | under
    · exact Or.inl (Option.some.inj (isOther.symm.trans belongs))
    · unfold owner at under
      rw [belongs] at under
      exact Or.inr under
  have fallback : pickedDefault config (picking (first.values config) index) listed
      (visibleIn config (picking (first.values config) index) (some .yes)) (config.defaults index) =
        pickedDefault config (picking (second.values config) index) listed
          (visibleIn config (picking (second.values config) index) (some .yes))
          (config.defaults index) :=
    pickedDefault_agree modules (fun value isListed => (ofListed value).mp isListed)
      (config.choiceDefaults index listed isChoice) visible
    fun prop isDefault e isDep => picking_agree below fun other contained =>
      Or.inr (ranked.dependency index e (defaultCondition_depends isDefault isDep) other contained)
  unfold picked
  dsimp only
  rw [fallback]
  cases remembered : user.chosen index with
  | none => rfl
  | some value =>
      dsimp only
      rw [visible value (user.chosenListed index value remembered)]

theorem switchValue_agree (user : User config) (defUser : entry → Bool)
    (visible revDep implied : Tristate) :
    switchValue config user defUser first index visible revDep implied =
      switchValue config user defUser second index visible revDep implied := by
  have modules : (first.values config).modules = (second.values config).modules := rfl
  have chosen : (∃ choice ∈ config.choiceOf index, (first choice).chosen = some index) ↔
      ∃ choice ∈ config.choiceOf index, (second choice).chosen = some index := by
    refine exists_congr fun choice => and_congr_right fun belongs => ?_
    rw [below choice (ranked.choice index choice belongs)]
  unfold switchValue
  dsimp only
  rw [decide_eq_decide.mpr chosen]
  by_cases isChoice : IsChoice config index
  · rw [if_pos isChoice, if_pos isChoice]
  · rw [if_neg isChoice, if_neg isChoice,
      defaultValue_agree modules isChoice (dependencies_agree ranked below)]

theorem outcome_agree (user : User config) (defUser : entry → Bool) :
    outcome config user defUser first index = outcome config user defUser second index := by
  have modules : (first.values config).modules = (second.values config).modules := rfl
  have depends := dependencies_agree ranked below
  have choice : (config.choiceOf index).map (fun choice => (first choice).tri) =
      (config.choiceOf index).map fun choice => (second choice).tri :=
    Option.map_congr fun choice belongs =>
      congrArg Outcome.tri (below choice (ranked.choice index choice belongs))
  have visible (choice : Option Tristate) :
      visibleIn config (first.values config) choice index =
        visibleIn config (second.values config) choice index :=
    visibleIn_agree modules (prompts_agree ranked below)
  have text (isText : IsText config index) (visible : Tristate) :
      rangedText config (first.values config) index
          (textValue config user defUser (first.values config) index visible) =
        rangedText config (second.values config) index
          (textValue config user defUser (second.values config) index visible) := by
    rw [rangedText_agree modules depends, textValue_agree modules isText.single depends]
  unfold outcome
  dsimp only
  rw [choice, visible, directIn_agree modules depends, reverseIn_agree modules depends,
    impliedIn_agree modules depends, switchValue_agree ranked below user defUser]
  cases isChoice : config.choiceValues index with
  | none =>
      cases type : config.table.type index with
      | boolean => rfl
      | tristate => rfl
      | int => rw [text (Or.inl type)]
      | hex => rw [text (Or.inr (Or.inl type))]
      | string => rw [text (Or.inr (Or.inr type))]
      | unknown => rfl
      | other => rfl
  | some listed =>
      have same := picked_agree ranked below user isChoice
      cases type : config.table.type index with
      | boolean =>
          dsimp only
          rw [same]
      | tristate =>
          dsimp only
          rw [same]
      | int => rw [text (Or.inl type)]
      | hex => rw [text (Or.inr (Or.inl type))]
      | string => rw [text (Or.inr (Or.inr type))]
      | unknown => rfl
      | other => rfl

omit below in
theorem outcome_descends (user : User config) (defUser : entry → Bool) :
    Descends rank (outcome config user defUser) :=
  fun _ _ _ below => outcome_agree ranked below user defUser

end Ranked

end BuildLinux.Concrete.KconfigEquations
