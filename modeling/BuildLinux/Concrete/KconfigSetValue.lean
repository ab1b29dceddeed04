/-
The user sets a switch.

A value within the range of a symbol is what is calculated for it from then on, as
long as no choice has become new, and what does not depend on the symbol stays as
it is.  A value of a choice that the user picks becomes the one that is `y`.  Both
are about symbols that `modules_sym` does not depend on: with another `modules_val`
tristates would be calculated in another way.
-/

import BuildLinux.Concrete.KconfigSaved

namespace BuildLinux.Concrete.KconfigSetValue

open CStrings RankedEquations KconfigExpr KconfigCalculation KconfigValues KconfigEquations
  KconfigMemo KconfigSolution KconfigFile KconfigSaved

variable {entry : Type} [DecidableEq entry]

/-! ### Setting a switch -/

def symTristateWithinRange (config : Config entry) (state : State entry) (index : entry)
    (val : Tristate) : Bool :=
  let cell := state index
  let type := typeFor config index cell.visible
  if cell.visible = .no then false
  else if type ≠ .boolean ∧ type ≠ .tristate then false
  else if type = .boolean ∧ val = .mod then false
  else if cell.visible ≤ cell.revDep then false
  else if cell.implied = .yes ∧ val = .mod then false
  else if IsChoiceValue config index ∧ cell.visible = .yes then decide (val = .yes)
  else decide (cell.revDep ≤ val ∧ val ≤ cell.visible)

/-- A value of a choice that becomes `y` is the one that the user has chosen, and neither the
choice nor another of its values that is visible is new. -/
def takeValue (config : Config entry) (user : User config) (state : State entry)
    (index : entry) : User config × State entry :=
  match belongs : config.choiceOf index with
  | none => (user, state)
  | some choice =>
      let settings : Settings config := ⟨user, fun other => (state other).defUser⟩
      let shown := visibleValues state ((config.choiceValues choice).getD [])
      ((settings.choose choice index belongs).user, fun other =>
        { (state other) with
          defUser := (state other).defUser || decide (other = choice ∨ other ∈ shown) })

structure Assigned (config : Config entry) where
  user : User config
  state : State entry
  modules : Tristate

def Assigned.again {config : Config entry} (user : User config) (fuel : Nat)
    (state : State entry) : Assigned config where
  user := user
  state := symClearAllValid config user fuel state
  modules := modulesVal config (symClearAllValid config user fuel state)

def symSetTristateValue (config : Config entry) (user : User config) (fuel : Nat)
    (state : State entry) (index : entry) (val : Tristate) : Option (Assigned config) :=
  if (state index).tri ≠ val ∧ symTristateWithinRange config state index val = false then none
  else
    let flagged := state.change index fun cell => { cell with defUser := true }
    let taken := if val = .yes then takeValue config user flagged index else (user, flagged)
    let set : User config := { taken.1 with tri := Function.update taken.1.tri index val }
    if (state index).tri ≠ val then some (Assigned.again set fuel taken.2)
    else some ⟨set, taken.2, config.modules⟩

/-- `modules_sym` has been calculated, its value is `modules_val`, and it is of a lower rank. -/
structure ModulesBelow (config : Config entry) (rank : entry → Nat) (order : List entry)
    (state : State entry) (bound : Nat) : Prop where
  calculated : ∀ index, config.modulesSym = some index → index ∈ order
  tied : ∀ index, config.modulesSym = some index → (state index).tri = config.modules
  lower : ∀ index, config.modulesSym = some index → rank index < bound

section Setting

variable {config : Config entry} {user others : User config} {defUser flags : entry → Bool}
  {outcomes : Outcomes entry} {index : entry} {state : State entry} {val : Tristate} {fuel : Nat}

theorem outcome_user (tri : user.tri index = others.tri index)
    (text : user.val index = others.val index) (chosen : user.chosen index = others.chosen index)
    (flag : defUser index = flags index) :
    outcome config user defUser outcomes index = outcome config others flags outcomes index := by
  unfold outcome switchValue textValue picked
  simp only [tri, text, chosen, flag]

theorem selectedValue_kept {type : SymbolType} {implied revDep visible : Tristate}
    (whole : type = .boolean → val ≠ .mod) (strong : implied = .yes → val ≠ .mod)
    (above : revDep ≤ val) (below : val ≤ visible) :
    selectedValue type implied revDep (val.and visible) = val := by
  have limited : val.and visible = val := by
    cases val <;> cases visible <;> first | rfl | exact absurd below (by decide)
  have selected : val.or revDep = val := by
    cases val <;> cases revDep <;> first | rfl | exact absurd above (by decide)
  unfold selectedValue
  dsimp only
  rw [limited, selected]
  exact if_neg fun both => both.2.elim (fun type => whole type both.1)
    fun isYes => strong isYes both.1

omit [DecidableEq entry] in
theorem within_bounds (allowed : symTristateWithinRange config state index val = true) :
    (state index).visible ≠ .no ∧ KconfigEquations.IsSwitch config index ∧
      (typeFor config index (state index).visible = .boolean → val ≠ .mod) ∧
      ((state index).implied = .yes → val ≠ .mod) ∧
      (¬(IsChoiceValue config index ∧ (state index).visible = .yes) →
        (state index).revDep ≤ val ∧ val ≤ (state index).visible) := by
  unfold symTristateWithinRange at allowed
  dsimp only at allowed
  split at allowed
  · cases allowed
  next visible =>
    split at allowed
    · cases allowed
    next typed =>
      split at allowed
      · cases allowed
      next whole =>
        split at allowed
        · cases allowed
        · split at allowed
          · cases allowed
          next strong =>
            refine ⟨visible, ?_, fun type isMod => whole ⟨type, isMod⟩,
              fun isYes isMod => strong ⟨isYes, isMod⟩, fun apart => ?_⟩
            · by_contra noSwitch
              refine typed ?_
              have type : typeFor config index (state index).visible = config.table.type index :=
                if_neg fun same => noSwitch (Or.inr same)
              rw [type]
              exact ⟨fun same => noSwitch (Or.inl same), fun same => noSwitch (Or.inr same)⟩
            · rw [if_neg apart, decide_eq_true_iff] at allowed
              exact allowed

theorem set_plain (apart : ¬(IsChoiceValue config index ∧ (state index).visible = .yes))
    (changes : (state index).tri ≠ val)
    (allowed : symTristateWithinRange config state index val = true) :
    symSetTristateValue config user fuel state index val =
      some (Assigned.again { user with tri := Function.update user.tri index val } fuel
        (state.change index fun cell => { cell with defUser := true })) := by
  have untaken : (if val = .yes then takeValue config user
        (state.change index fun cell => { cell with defUser := true }) index
      else (user, state.change index fun cell => { cell with defUser := true })) =
      (user, state.change index fun cell => { cell with defUser := true }) := by
    split
    next isYes =>
      unfold takeValue
      split
      · rfl
      next choice belongs =>
        -- A value that may be `y` is visible as `y`.
        have below := ((within_bounds allowed).2.2.2.2 apart).2
        rw [isYes] at below
        exact absurd ⟨isChoiceValue_of_owner belongs, yes_le below⟩ apart
    next => rfl
  unfold symSetTristateValue
  dsimp only
  rw [if_neg fun both => absurd (allowed.symm.trans both.2) (by decide), untaken, if_pos changes]

theorem flagged_cell (state : State entry) (index other : entry) :
    state.change index (fun cell => { cell with defUser := true }) other =
      { (state other) with defUser := (state other).defUser || decide (other = index) } := by
  by_cases same : other = index
  · rw [same, change_self, decide_eq_true rfl, Bool.or_true]
  · rw [change_other state _ same, decide_eq_false same, Bool.or_false]

omit [DecidableEq entry] in
theorem cleared_again {after : State entry} (apart : ∀ value, IsChoiceValue config value →
      (state value).dirDep = .no ∧ (state value).revDep = .no ∧ (state value).implied = .no)
    (cells : ∀ other, after other = { (state other) with
      valid := false, defUser := flags other }) : Cleared config flags after where
  invalid other := by rw [cells other]
  user other := by rw [cells other]
  apart value isValue := by
    rw [cells value]
    exact apart value isValue

/-- Setting a value of a choice to `y` makes it the chosen one, and the choice is not new. -/
theorem set_chosen (user : User config) (fuel : Nat) {choice : entry}
    (belongs : config.choiceOf index = some choice)
    (changes : (state index).tri ≠ .yes)
    (allowed : symTristateWithinRange config state index .yes = true) :
    ∃ (again : User config) (begun : State entry),
      symSetTristateValue config user fuel state index .yes =
        some (Assigned.again again fuel begun) ∧
      again.tri = Function.update user.tri index .yes ∧ again.val = user.val ∧
      again.chosen = Function.update user.chosen choice (some index) ∧
      (∀ other, begun other = { (state other) with defUser := (begun other).defUser }) ∧
      (begun choice).defUser = true ∧
      ∀ other, other ≠ index → other ≠ choice → config.choiceOf other ≠ some choice →
        (begun other).defUser = (state other).defUser := by
  let flagged := state.change index fun cell => { cell with defUser := true }
  have apart : ∀ other, config.choiceOf other ≠ some choice →
      other ∉ visibleValues flagged ((config.choiceValues choice).getD []) := by
    intro other noValue inShown
    have inListed := (List.mem_filter.mp inShown).1
    cases isChoice : config.choiceValues choice with
    | none =>
        rw [isChoice] at inListed
        exact List.not_mem_nil inListed
    | some listed =>
        rw [isChoice] at inListed
        exact noValue ((config.choiceListed choice listed isChoice other).mp inListed)
  unfold symSetTristateValue
  dsimp only
  rw [if_neg fun both => absurd (allowed.symm.trans both.2) (by decide), if_pos rfl,
    if_pos changes]
  refine ⟨_, _, rfl, ?_⟩
  unfold takeValue
  split
  next single => exact absurd (belongs.symm.trans single) (Option.some_ne_none choice)
  next owner isOwner =>
    cases belongs.symm.trans isOwner
    refine ⟨rfl, rfl, rfl, fun other => ?_, ?_, fun other noIndex noChoice noValue => ?_⟩
    · dsimp only
      rw [flagged_cell]
    · simp
    · dsimp only
      rw [decide_eq_false fun either => either.elim noChoice (apart other noValue), Bool.or_false,
        change_other state _ noIndex]

end Setting

/-! ### Picking a value of a choice -/

section Picking

variable {config : Config entry} {rank : entry → Nat} (ranked : Ranked config rank)
  {user again : User config} {defUser flags : entry → Bool} {outcomes others : Outcomes entry}
  {index choice : entry} (belongs : config.choiceOf index = some choice)
  (isSwitch : KconfigEquations.IsSwitch config index) (solves : Solves config user defUser outcomes)
  (solvesAgain : Solves config again flags others)
  (agree : ∀ other, rank other < rank choice → outcomes other = others other)
  (whole : (outcomes choice).tri = .yes) (visible : (outcomes index).visible = .yes)

include ranked belongs isSwitch solves solvesAgain agree whole visible

theorem choice_chosen (tri : again.tri choice = user.tri choice)
    (chosen : again.chosen choice = some index) (isSet : flags choice = true) :
    (others choice).tri = .yes ∧ (others choice).val = "n".toList ∧
      (others choice).chosen = some index := by
  obtain ⟨members, isChoice⟩ := config.choiceNamed index choice belongs
  have chooses : IsChoice config choice := isChoice_of_values isChoice
  have single := KconfigChoices.choice_single isChoice
  have choiceSwitch : KconfigEquations.IsSwitch config choice :=
    config.choiceSwitch choice members isChoice
  have before := (solves choice).trans (outcome_seen solves choiceSwitch user defUser)
  dsimp only at before
  rw [isChoice] at before
  obtain ⟨wasYes, _⟩ := reset_yes ((congrArg Outcome.tri before).symm.trans whole)
  have val : (outcomes choice).val = "n".toList := congrArg Outcome.val before
  have isYes : switchValue config again flags outcomes choice (outcomes choice).visible
      (outcomes choice).revDep (outcomes choice).implied = .yes := by
    by_cases unseen : (outcomes choice).visible = .no
    · exact (switchValue_unseen (Or.inl unseen)).symm.trans wasYes
    · rw [choiceMode_seen chooses single unseen] at wasYes ⊢
      rw [if_pos isSet, tri]
      split at wasYes
      · exact wasYes
      · refine yes_le (le_trans (le_of_eq wasYes.symm) (selectedValue_mono ?_))
        cases (user.tri choice).and (outcomes choice).visible <;> decide
  have picks : picked config again (outcomes.values config) choice members = some index := by
    have sees := visible_eq solves isSwitch.hasVisibility
    rw [belongs, Option.map_some,
      show (outcomes.values config).tri choice = .yes from whole] at sees
    unfold picked
    dsimp only
    rw [chosen, picking_self whole val]
    dsimp only
    rw [if_pos]
    rw [← sees, visible]
    decide
  have equation := (solvesAgain choice).trans ((outcome_agree ranked
    (fun other lower => (agree other lower).symm) _ _).trans
      (outcome_seen solves choiceSwitch again flags))
  dsimp only at equation
  rw [isChoice] at equation
  dsimp only at equation
  have taken : ¬(Tristate.yes = .yes ∧ some index = none) :=
    fun both => Option.some_ne_none index both.2
  rw [isYes, if_pos rfl, picks, if_neg taken] at equation
  exact ⟨congrArg Outcome.tri equation, congrArg Outcome.val equation,
    congrArg Outcome.chosen equation⟩

/-- The value that has been picked is `y`: it sees only its choice and symbols of a lower rank. -/
theorem value_chosen (choiceTri : (others choice).tri = .yes)
    (choiceVal : (others choice).val = "n".toList)
    (choiceChosen : (others choice).chosen = some index) : (others index).tri = .yes := by
  have isValue := isChoiceValue_of_owner belongs
  obtain ⟨members, isChoice⟩ := config.choiceNamed index choice belongs
  have val : (outcomes choice).val = "n".toList := by
    have before := (solves choice).trans
      (outcome_seen solves (config.choiceSwitch choice members isChoice) user defUser)
    dsimp only at before
    rw [isChoice] at before
    exact congrArg Outcome.val before
  have sameVisible : visibleIn config (outcomes.values config) (some .yes) index =
      visibleIn config (others.values config) (some .yes) index := by
    have modules : (outcomes.values config).modules = (others.values config).modules := rfl
    refine visibleIn_agree modules fun prompt inPrompts e isPrompt other contained => ?_
    rcases ranked.prompt index e (isPrompt ▸ inPrompts) other contained with isOwner | lower
    · cases belongs.symm.trans isOwner
      exact ⟨whole.trans choiceTri.symm, val.trans choiceVal.symm⟩
    · unfold owner at lower
      rw [belongs] at lower
      exact ⟨congrArg Outcome.tri (agree other lower), congrArg Outcome.val (agree other lower)⟩
  have sees := visible_eq solves isSwitch.hasVisibility
  rw [belongs, Option.map_some,
    show (outcomes.values config).tri choice = .yes from whole] at sees
  have seesAgain := visible_eq solvesAgain isSwitch.hasVisibility
  rw [belongs, Option.map_some, show (others.values config).tri choice = .yes from choiceTri,
    ← sameVisible, ← sees, visible] at seesAgain
  have simple : config.choiceValues index = none := by
    cases isOther : config.choiceValues index with
    | none => rfl
    | some listed => exact absurd (config.choiceApart index listed isOther) isValue
  have tri := simple_tri solvesAgain isSwitch simple
  unfold switchValue at tri
  dsimp only at tri
  rw [if_pos ⟨isValue, seesAgain⟩, decide_eq_true ⟨choice, belongs, choiceChosen⟩] at tri
  exact tri

end Picking

/-! ### What is calculated then -/

theorem foldl_cleared {config : Config entry} (user : User config) (fuel : Nat)
    (state : State entry) (later : List entry) :
    later.foldl (symCalcValue config user fuel) (symClearAllValid config user fuel state) =
      (config.modulesSym.toList ++ later).foldl (symCalcValue config user fuel)
        (invalidated state) :=
  List.foldl_append.symm

theorem modulesVal_kept {config : Config entry} {rank : entry → Nat} {order : List entry}
    {state begun : State entry} {bound fuel : Nat} {again : User config}
    {outcomes others : Outcomes entry} (below : ModulesBelow config rank order state bound)
    (settled : ∀ other ∈ order, (state other).tri = (outcomes other).tri)
    (agree : ∀ other, rank other < bound → outcomes other = others other)
    (settles : ∀ later : List entry, ∀ other ∈ later,
      (later.foldl (symCalcValue config again fuel) (invalidated begun) other).tri =
        (others other).tri) :
    modulesVal config (symClearAllValid config again fuel begun) = config.modules := by
  unfold modulesVal symClearAllValid
  cases isModules : config.modulesSym with
  | none => rfl
  | some index =>
      have before := settled index (below.calculated index isModules)
      rw [agree index (below.lower index isModules), below.tied index isModules] at before
      exact (settles [index] index List.mem_cons_self).trans before.symm

/-- What is calculated once the settings have changed: another solution, which is the one before
below a rank. -/
structure Resumed (config : Config entry) (rank : entry → Nat) (bound fuel : Nat)
    (order : List entry) (state begun : State entry) (outcomes : Outcomes entry)
    (again : User config) (flags : entry → Bool) (others : Outcomes entry) : Prop where
  solves : Solves config again flags others
  agree : ∀ other, rank other < bound → outcomes other = others other
  modules : modulesVal config (symClearAllValid config again fuel begun) = config.modules
  settles : ∀ later : List entry, ∀ other ∈ later,
    Settles config other (later.foldl (symCalcValue config again fuel)
      (symClearAllValid config again fuel begun) other) (others other)
  kept : ∀ later : List entry, ∀ other ∈ order, other ∈ later → rank other < bound →
    let after := later.foldl (symCalcValue config again fuel)
      (symClearAllValid config again fuel begun) other
    after.tri = (state other).tri ∧ after.val = (state other).val

theorem calculation_resumes {config : Config entry} {rank : entry → Nat}
    (ranked : Ranked config rank) {fuel : Nat} (within : ∀ index, rank index < fuel)
    {user again : User config} {defUser flags : entry → Bool} {outcomes : Outcomes entry}
    (solves : Solves config user defUser outcomes) {order : List entry} {state begun : State entry}
    (settled : ∀ other ∈ order, Settles config other (state other) (outcomes other)) {bound : Nat}
    (modules : ModulesBelow config rank order state bound)
    (cleared : Cleared config flags (invalidated begun))
    (untouched : ∀ values other, rank other < bound →
      outcome config user defUser values other = outcome config again flags values other) :
    ∃ others, Resumed config rank bound fuel order state begun outcomes again flags others := by
  obtain ⟨others, solvesAgain, settlesAgain⟩ := calculation_settles ranked within again cleared
  have agree := solutions_agree (outcome_descends ranked user defUser) solves solvesAgain untouched
  have settles (later : List entry) (other : entry) (inLater : other ∈ later) :
      Settles config other (later.foldl (symCalcValue config again fuel)
        (symClearAllValid config again fuel begun) other) (others other) := by
    rw [foldl_cleared]
    exact (settlesAgain _ other (List.mem_append_right _ inLater)).2
  refine ⟨others, solvesAgain, agree, ?_, settles, fun later other inOrder inLater lower => ?_⟩
  · exact modulesVal_kept modules (fun other inOrder => (settled other inOrder).tri) agree
      fun later other inLater => (settlesAgain later other inLater).2.tri
  · have before := settled other inOrder
    have after := settles later other inLater
    rw [← agree other lower] at after
    exact ⟨after.tri.trans before.tri.symm, after.val.trans before.val.symm⟩

/-- What the user sets within its range is what is calculated from then on, and no symbol of a lower
rank changes. -/
theorem set_value_kept {config : Config entry} {rank : entry → Nat}
    (ranked : Ranked config rank) {fuel : Nat} (within : ∀ index, rank index < fuel)
    {user : User config} {defUser : entry → Bool} {start state : State entry}
    (cleared : Cleared config defUser start) {order : List entry}
    (reached : state = order.foldl (symCalcValue config user fuel) start)
    {index : entry} (listed : index ∈ order) {val : Tristate}
    (modules : ModulesBelow config rank order state (rank index))
    (known : ∀ other, (state other).defUser = defUser other)
    (single : ¬IsChoice config index)
    (apart : ¬(IsChoiceValue config index ∧ (state index).visible = .yes))
    (changes : (state index).tri ≠ val)
    (allowed : symTristateWithinRange config state index val = true) :
    ∃ after, symSetTristateValue config user fuel state index val = some after ∧
      after.modules = config.modules ∧ ∀ later : List entry, index ∈ later →
        let again := later.foldl (symCalcValue config after.user fuel) after.state
        (again index).tri = val ∧ ∀ other ∈ order, other ∈ later → rank other < rank index →
          (again other).tri = (state other).tri ∧ (again other).val = (state other).val := by
  obtain ⟨visible, isSwitch, whole, strong, bounds⟩ := within_bounds allowed
  obtain ⟨above, below⟩ := bounds apart
  obtain ⟨outcomes, solves, settles⟩ := calculation_settles ranked within user cleared
  have invariant : Invariant config rank defUser (fun _ => False) outcomes fuel state := by
    rw [reached]
    exact (foldl_own ranked user solves within (cleared.invariant (fun _ => False) fuel)).1
  let set : entry → Bool := fun other => defUser other || decide (other = index)
  have isSet : set index = true := by
    unfold set
    rw [decide_eq_true rfl, Bool.or_true]
  have clearedAgain : Cleared config set
      (invalidated (state.change index fun cell => { cell with defUser := true })) :=
    cleared_again invariant.apart fun other => by
      unfold invalidated
      rw [flagged_cell, known other]
  have settled := fun other (inOrder : other ∈ order) => (settles order other inOrder).2
  rw [← reached] at settled
  have untouched (values : Outcomes entry) (other : entry) (lower : rank other < rank index) :
      outcome config user defUser values other =
        outcome config { user with tri := Function.update user.tri index val } set values other := by
    have different : other ≠ index := fun same => absurd (congrArg rank same) (Nat.ne_of_lt lower)
    refine outcome_user (Function.update_of_ne different _ _).symm rfl rfl ?_
    unfold set
    rw [decide_eq_false different, Bool.or_false]
  obtain ⟨others, resumed⟩ :=
    calculation_resumes ranked within solves settled modules clearedAgain untouched
  refine ⟨_, set_plain apart changes allowed, resumed.modules,
    fun later inLater => ⟨?_, resumed.kept later⟩⟩
  obtain ⟨sameVisible, _, sameReverse, sameImplied⟩ :=
    (settled index listed).known isSwitch.hasVisibility
  rw [sameVisible] at visible whole apart below
  rw [sameReverse] at above
  rw [sameImplied] at strong
  have equation := (resumed.solves index).trans ((outcome_agree ranked
    (fun other lower => (resumed.agree other lower).symm) _ set).trans
      (outcome_seen solves isSwitch _ set))
  dsimp only at equation
  rw [not_not.mp single] at equation
  have tri := congrArg Outcome.tri equation
  unfold switchValue at tri
  dsimp only at tri
  rw [if_neg apart, if_pos ⟨visible, isSet⟩,
    Function.update_self, selectedValue_kept whole strong above below] at tri
  exact (resumed.settles later index inLater).tri.trans tri

def boardOrder : List Board := [.modules, .slow, .bus]

def boardCalculated : State Board :=
  boardOrder.foldl (symCalcValue boardConfig boardUser 4) boardState

theorem boardKnown (index : Board) : (boardCalculated index).defUser = boardSet index := by
  cases index <;> rfl

theorem boardModules {bound : Nat} (positive : 0 < bound) :
    ModulesBelow boardConfig boardRank boardOrder boardCalculated bound where
  calculated index isModules := by
    cases isModules
    decide
  tied index isModules := by
    cases isModules
    rfl
  lower index isModules := by
    cases isModules
    exact positive

theorem set_value_kept_board :
    ∃ after, symSetTristateValue boardConfig boardUser 4 boardCalculated .bus .no = some after ∧
      after.modules = .no ∧
      ∀ later : List Board, Board.bus ∈ later → Board.modules ∈ later →
        let again := later.foldl (symCalcValue boardConfig after.user 4) after.state
        (again .bus).tri = .no ∧ (again .modules).tri = .no ∧
          (again .modules).val = "n".toList := by
  have changes : (boardCalculated .bus).tri ≠ .no := by decide
  obtain ⟨after, isAfter, modules, kept⟩ := set_value_kept boardRanked boardRank_lt boardCleared rfl
    (show Board.bus ∈ boardOrder by decide) (boardModules (by decide)) boardKnown
    (not_not_intro rfl) (fun both => both.1 rfl) changes (by decide)
  refine ⟨after, isAfter, modules, fun later busLater modulesLater => ?_⟩
  obtain ⟨set, lower⟩ := kept later busLater
  obtain ⟨tri, val⟩ := lower .modules (by decide) modulesLater (by decide)
  exact ⟨set, tri.trans rfl, val.trans rfl⟩

/-- A value that the user picks in a choice that is `y` is the one that is `y` from then on, and
no symbol of a lower rank than the choice changes. -/
theorem chosen_value_kept {config : Config entry} {rank : entry → Nat}
    (ranked : Ranked config rank) {fuel : Nat} (within : ∀ index, rank index < fuel)
    {user : User config} {defUser : entry → Bool} {start state : State entry}
    (cleared : Cleared config defUser start) {order : List entry}
    (reached : state = order.foldl (symCalcValue config user fuel) start)
    {index choice : entry} (listed : index ∈ order) (belongs : config.choiceOf index = some choice)
    (modules : ModulesBelow config rank order state (rank choice))
    (known : ∀ other, other ≠ choice → (state other).defUser = defUser other)
    (whole : (state choice).tri = .yes) (visible : (state index).visible = .yes)
    (changes : (state index).tri ≠ .yes)
    (allowed : symTristateWithinRange config state index .yes = true) :
    ∃ after, symSetTristateValue config user fuel state index .yes = some after ∧
      after.modules = config.modules ∧ ∀ later : List entry, index ∈ later →
        let again := later.foldl (symCalcValue config after.user fuel) after.state
        (again index).tri = .yes ∧
          (choice ∈ later → (again choice).tri = .yes ∧ (again choice).chosen = some index) ∧
          ∀ other ∈ order, other ∈ later → rank other < rank choice →
            (again other).tri = (state other).tri ∧ (again other).val = (state other).val := by
  obtain ⟨set, begun, isAfter, tri, val, chosen, cells, isSet, unset⟩ :=
    set_chosen user fuel belongs changes allowed
  obtain ⟨outcomes, solves, settles⟩ := calculation_settles ranked within user cleared
  have invariant : Invariant config rank defUser (fun _ => False) outcomes fuel state := by
    rw [reached]
    exact (foldl_own ranked user solves within (cleared.invariant (fun _ => False) fuel)).1
  have clearedAgain : Cleared config (fun other => (begun other).defUser) (invalidated begun) :=
    cleared_again invariant.apart fun other => by
      unfold invalidated
      rw [cells other]
  have settled := fun other (inOrder : other ∈ order) => settles order other inOrder
  rw [← reached] at settled
  have values : ∀ value, config.choiceOf value = some choice → rank choice < rank value :=
    fun value => ranked.choice value choice
  have untouched (outcomes : Outcomes entry) (other : entry) (lower : rank other < rank choice) :
      outcome config user defUser outcomes other =
        outcome config set (fun other => (begun other).defUser) outcomes other := by
    have noIndex : other ≠ index := fun same =>
      absurd (values index belongs) (by rw [← same]; exact Nat.lt_asymm lower)
    have noChoice : other ≠ choice := fun same => absurd (congrArg rank same) (Nat.ne_of_lt lower)
    have noValue : config.choiceOf other ≠ some choice :=
      fun isValue => Nat.lt_asymm lower (values other isValue)
    refine outcome_user ?_ (congrFun val other).symm ?_ ?_
    · rw [tri, Function.update_of_ne noIndex]
    · rw [chosen, Function.update_of_ne noChoice]
    · exact ((unset other noIndex noChoice noValue).trans (known other noChoice)).symm
  obtain ⟨others, resumed⟩ := calculation_resumes ranked within solves
    (fun other inOrder => (settled other inOrder).2) modules clearedAgain untouched
  have isSwitch : KconfigEquations.IsSwitch config index := (within_bounds allowed).2.1
  have choiceSettled := invariant.settled choice (within choice)
    (invariant.choice index choice belongs isSwitch.hasVisibility (within index)
      (settled index listed).1)
  have wholeBefore : (outcomes choice).tri = .yes := choiceSettled.tri.symm.trans whole
  have visibleBefore : (outcomes index).visible = .yes :=
    ((settled index listed).2.known isSwitch.hasVisibility).1.symm.trans visible
  have different : choice ≠ index := fun same =>
    absurd (values index belongs) (by rw [same]; exact Nat.lt_irrefl _)
  obtain ⟨choiceTri, choiceVal, choiceChosen⟩ := choice_chosen ranked belongs isSwitch solves
    resumed.solves resumed.agree wholeBefore visibleBefore
    (by rw [tri, Function.update_of_ne different]) (by rw [chosen, Function.update_self]) isSet
  have triAgain := value_chosen ranked belongs isSwitch solves resumed.solves resumed.agree
    wholeBefore visibleBefore choiceTri choiceVal choiceChosen
  refine ⟨_, isAfter, resumed.modules,
    fun later inLater => ⟨?_, fun choiceLater => ?_, resumed.kept later⟩⟩
  · exact (resumed.settles later index inLater).tri.trans triAgain
  · have again := resumed.settles later choice choiceLater
    exact ⟨again.tri.trans choiceTri, again.chosen.trans choiceChosen⟩

theorem chosen_value_kept_board :
    ∃ after, symSetTristateValue boardConfig boardUser 4 boardCalculated .slow .yes = some after ∧
      after.modules = .no ∧
      ∀ later : List Board, Board.slow ∈ later → Board.speed ∈ later → Board.bus ∈ later →
        let again := later.foldl (symCalcValue boardConfig after.user 4) after.state
        (again .slow).tri = .yes ∧ (again .speed).chosen = some .slow ∧
          (again .bus).tri = .yes := by
  have allowed : symTristateWithinRange boardConfig boardCalculated .slow .yes = true := by decide
  obtain ⟨after, isAfter, modules, kept⟩ := chosen_value_kept boardRanked boardRank_lt boardCleared
    rfl (show Board.slow ∈ boardOrder by decide)
    (show boardConfig.choiceOf .slow = some .speed from rfl) (boardModules (by decide))
    (fun other _ => boardKnown other) rfl rfl (by decide) allowed
  refine ⟨after, isAfter, modules, fun later slowLater speedLater busLater => ?_⟩
  obtain ⟨set, picks, lower⟩ := kept later slowLater
  exact ⟨set, (picks speedLater).2, (lower .bus (by decide) busLater (by decide)).1.trans rfl⟩

end BuildLinux.Concrete.KconfigSetValue
