/-
What holds of calculated values.

The values are those that the simplification of expressions relies on, a selected
symbol is selected, a choice that is `y` has one value that is, and a number is
within its range.
-/

import BuildLinux.Concrete.KconfigSolution

namespace BuildLinux.Concrete.KconfigGuarantees

open CStrings NumberText KconfigExpr KconfigCalculation KconfigValues KconfigEquations KconfigMemo
  KconfigSolution

variable {entry : Type}

/-! ### Switches -/

/-- A symbol that cannot be `m`. -/
def IsWhole (config : Config entry) (index : entry) : Prop :=
  config.table.type index = .boolean ∨
    config.table.type index = .tristate ∧ config.modules = .no

theorem selectedValue_whole {implied revDep value : Tristate} :
    selectedValue .boolean implied revDep value ≠ .mod := by
  unfold selectedValue
  dsimp only
  split
  · decide
  · rename_i other
    exact fun isMod => other ⟨isMod, Or.inl rfl⟩

theorem revDep_le_selectedValue {type : SymbolType} {implied revDep value : Tristate} :
    revDep ≤ selectedValue type implied revDep value := by
  have top (value : Tristate) : value ≤ .yes := by cases value <;> decide
  have above : revDep ≤ value.or revDep := by
    unfold Tristate.or
    split
    · rename_i less
      exact le_of_lt less
    · exact le_refl _
  unfold selectedValue
  dsimp only
  split
  · exact top revDep
  · exact above

/-- A choice that picks nothing becomes `n`. -/
theorem reset_whole {tri : Tristate} {nothing : Prop} [Decidable nothing] (whole : tri ≠ .mod) :
    (if tri = .yes ∧ nothing then .no else tri) ≠ .mod := by
  split
  · decide
  · exact whole

theorem full_of_whole {value : Tristate} (whole : value ≠ .mod) (some : value ≠ .no) :
    value = .yes := by
  cases value with
  | no => exact absurd rfl some
  | mod => exact absurd rfl whole
  | yes => rfl

theorem ofBool_yes {holds : Bool} : Tristate.ofBool holds = .yes ↔ holds = true := by
  cases holds <;> decide

section Solutions

variable [DecidableEq entry] {config : Config entry} {user : User config} {defUser : entry → Bool}
  {outcomes : Outcomes entry} {index : entry}

omit [DecidableEq entry] in
theorem typeFor_whole (whole : IsWhole config index) (visible : Tristate) :
    typeFor config index visible = .boolean := by
  unfold typeFor
  rcases whole with same | ⟨same, modules⟩
  · rw [same]
    rfl
  · rw [if_pos same]
    split
    · rfl
    · rfl

theorem switchValue_whole (whole : IsWhole config index) {visible revDep implied : Tristate} :
    switchValue config user defUser outcomes index visible revDep implied ≠ .mod := by
  unfold switchValue
  dsimp only
  rw [typeFor_whole whole]
  split
  · cases decide (∃ choice ∈ config.choiceOf index, (outcomes choice).chosen = some index) <;> decide
  split
  · exact selectedValue_whole
  split
  · exact selectedValue_whole
  split
  · exact selectedValue_whole
  · exact selectedValue_whole

theorem revDep_le_switchValue (single : ¬IsChoiceValue config index)
    {visible revDep implied : Tristate} :
    revDep ≤ switchValue config user defUser outcomes index visible revDep implied := by
  unfold switchValue
  dsimp only
  rw [if_neg fun both => single both.1]
  split
  · exact revDep_le_selectedValue
  split
  · exact revDep_le_selectedValue
  split
  · exact revDep_le_selectedValue
  · exact revDep_le_selectedValue

variable (solves : Solves config user defUser outcomes)

include solves

theorem solution_whole (whole : IsWhole config index) : (outcomes index).tri ≠ .mod := by
  have isSwitch : KconfigEquations.IsSwitch config index := whole.imp id And.left
  rw [solves index, outcome_switch isSwitch]
  dsimp only
  cases config.choiceValues index with
  | none => exact switchValue_whole whole
  | some listed => exact reset_whole (switchValue_whole whole)

theorem solution_coherent : Coherent config.table (outcomes.values config) where
  boolean index type := solution_whole solves (Or.inl type)
  tristate index type modules := solution_whole solves (Or.inr ⟨type, modules⟩)
  unknown index type := by
    have rest : ¬HasVisibility config index := fun hasVisibility => hasVisibility.1 type
    change (outcomes index).val = _
    rw [solves index, outcome_rest rest]

theorem solution_selected (isSwitch : KconfigEquations.IsSwitch config index)
    (single : ¬IsChoiceValue config index) (simple : ¬IsChoice config index) :
    (outcomes index).revDep ≤ (outcomes index).tri := by
  rw [solves index, outcome_switch isSwitch]
  dsimp only
  rw [show config.choiceValues index = none from not_not.mp simple]
  exact revDep_le_switchValue single

/-! ### Choices -/

omit [DecidableEq entry] solves in
theorem pickedDefault_mem {values : Values entry} {listed : List entry}
    {visible : entry → Tristate} {props : List (Expr entry × Option (Expr entry))}
    (named : ∀ prop ∈ props, ∃ value ∈ listed, prop.1 = .symbol (.entry value)) {value : entry}
    (picks : pickedDefault config values listed visible props = some value) :
    value ∈ listed ∧ visible value ≠ .no := by
  induction props with
  | nil =>
      have member := List.mem_of_head? picks
      obtain ⟨isListed, isVisible⟩ := List.mem_filter.mp member
      exact ⟨isListed, of_decide_eq_true isVisible⟩
  | cons prop rest ih =>
      obtain ⟨other, isListed, names⟩ := named prop List.mem_cons_self
      unfold pickedDefault at picks
      rw [names] at picks
      unfold propSymbol at picks
      dsimp only at picks
      split at picks
      · rename_i met
        cases picks
        exact ⟨isListed, met.2⟩
      · exact ih (fun next member => named next (List.mem_cons_of_mem prop member)) picks

omit solves in
theorem picked_mem {values : Values entry} {listed : List entry}
    (isChoice : config.choiceValues index = some listed) {value : entry}
    (picks : picked config user values index listed = some value) :
    value ∈ listed ∧ visibleIn config (picking values index) (some .yes) value ≠ .no := by
  have fallback (default : pickedDefault config (picking values index) listed
      (visibleIn config (picking values index) (some .yes)) (config.defaults index) = some value) :
      value ∈ listed ∧ visibleIn config (picking values index) (some .yes) value ≠ .no :=
    pickedDefault_mem (config.choiceDefaults index listed isChoice) default
  unfold picked at picks
  dsimp only at picks
  cases remembered : user.chosen index with
  | none =>
      rw [remembered] at picks
      exact fallback picks
  | some chosen =>
      rw [remembered] at picks
      dsimp only at picks
      split at picks
      · rename_i isVisible
        cases picks
        exact ⟨(config.choiceListed index listed isChoice value).mpr
          (user.chosenListed index value remembered), isVisible⟩
      · exact fallback picks

omit [DecidableEq entry] solves in
theorem or_whole {left right : Tristate} (leftWhole : left ≠ .mod) (rightWhole : right ≠ .mod) :
    left.or right ≠ .mod := by
  unfold Tristate.or
  split
  · exact leftWhole
  · exact rightWhole

omit [DecidableEq entry] solves in
theorem promptVisible_whole (type : config.table.type index = .tristate) (visible : Tristate) :
    promptVisible config index (some .yes) visible ≠ .mod := by
  unfold promptVisible
  split
  · decide
  · rename_i other
    exact fun isMod => other ⟨type, isMod, rfl⟩

omit [DecidableEq entry] solves in
/-- Where its choice is `y`, a value is visible or not. -/
theorem visibleIn_whole {values : Values entry} (isSwitch : KconfigEquations.IsSwitch config index) :
    visibleIn config values (some .yes) index ≠ .mod := by
  unfold visibleIn wholeVisible
  split
  · decide
  · rename_i other
    rcases isSwitch with type | type
    · exact fun isMod => other ⟨isMod, Or.inl (by rw [type]; decide)⟩
    · exact List.foldlRecOn (motive := fun tri : Tristate => tri ≠ .mod) _ _ (by decide)
        fun tri whole prompt _ => or_whole whole (promptVisible_whole type _)

/-- A choice that is `y` has picked one of its values that are visible. -/
theorem choice_picks {listed : List entry} (isChoice : config.choiceValues index = some listed)
    (whole : (outcomes index).tri = .yes) :
    ∃ value ∈ listed, (outcomes index).chosen = some value ∧
      visibleIn config (outcomes.values config) (some .yes) value ≠ .no ∧
      ∀ remembered, user.chosen index = some remembered →
        visibleIn config (outcomes.values config) (some .yes) remembered ≠ .no →
          value = remembered := by
  have result := solves index
  rw [outcome_switch (config.choiceSwitch index listed isChoice)] at result
  dsimp only at result
  rw [isChoice] at result
  dsimp only at result
  have val : (outcomes index).val = "n".toList := congrArg Outcome.val result
  have same : picking (outcomes.values config) index = outcomes.values config :=
    picking_self whole val
  have tri := congrArg Outcome.tri result
  have chosen := congrArg Outcome.chosen result
  dsimp only at tri chosen
  rw [whole] at tri
  generalize switchValue config user defUser outcomes index _ _ _ = value at tri chosen
  obtain ⟨before, found⟩ := reset_yes tri.symm
  rw [if_pos before] at chosen found
  cases picks : picked config user (outcomes.values config) index listed with
  | none => exact absurd picks found
  | some value =>
      obtain ⟨isListed, isVisible⟩ := picked_mem isChoice picks
      rw [same] at isVisible
      refine ⟨value, isListed, chosen.trans picks, isVisible, fun remembered isRemembered shown => ?_⟩
      unfold picked at picks
      dsimp only at picks
      rw [isRemembered, same] at picks
      dsimp only at picks
      rw [if_pos shown] at picks
      exact (Option.some.inj picks).symm

/-- Of the visible values of a choice that is `y`, one is `y`: the user's where it is visible. -/
theorem solution_one {listed : List entry} (isChoice : config.choiceValues index = some listed)
    (switches : ∀ value ∈ listed, KconfigEquations.IsSwitch config value)
    (whole : (outcomes index).tri = .yes) :
    ∃ value ∈ listed, (outcomes value).visible ≠ .no ∧
      (∀ other ∈ listed, (outcomes other).visible ≠ .no →
        ((outcomes other).tri = .yes ↔ other = value)) ∧
      ∀ remembered, user.chosen index = some remembered → (outcomes remembered).visible ≠ .no →
        value = remembered := by
  obtain ⟨value, isListed, chosen, isVisible, remembers⟩ := choice_picks solves isChoice whole
  have ofListed := config.choiceListed index listed isChoice
  have member : ∀ other ∈ listed, (outcomes other).visible =
      visibleIn config (outcomes.values config) (some .yes) other ∧
        ((outcomes other).visible ≠ .no → ((outcomes other).tri = .yes ↔ other = value)) := by
    intro other inList
    have belongs := (ofListed other).mp inList
    have simple : config.choiceValues other = none := by
      cases also : config.choiceValues other with
      | none => rfl
      | some others => exact absurd (config.choiceApart other others also) (by rw [belongs]; simp)
    have result := solves other
    rw [outcome_switch (switches other inList)] at result
    dsimp only at result
    rw [simple, belongs] at result
    dsimp only [Option.map_some] at result
    rw [show (outcomes.values config).tri index = .yes from whole] at result
    have visible := congrArg Outcome.visible result
    have tri := congrArg Outcome.tri result
    dsimp only at visible tri
    refine ⟨visible, fun shown => ?_⟩
    have isValue : IsChoiceValue config other := isChoiceValue_of_owner belongs
    rw [visible] at shown
    have full := full_of_whole (visibleIn_whole (switches other inList)) shown
    unfold switchValue at tri
    dsimp only at tri
    rw [if_pos ⟨isValue, full⟩] at tri
    rw [tri, ofBool_yes, decide_eq_true_iff]
    constructor
    · intro ⟨choice, isChoiceOf, picks⟩
      cases belongs.symm.trans isChoiceOf
      exact Option.some.inj (picks.symm.trans chosen)
    · intro same
      exact ⟨index, belongs, same ▸ chosen⟩
  refine ⟨value, isListed, ?_, fun other inList => (member other inList).2,
    fun remembered isRemembered shown => ?_⟩
  · rw [(member value isListed).1]
    exact isVisible
  · have inList := (ofListed remembered).mpr (user.chosenListed index remembered isRemembered)
    rw [(member remembered inList).1] at shown
    exact remembers remembered isRemembered shown

/-! ### Numbers -/

omit [DecidableEq entry] solves in
/-- The limited text of a number is within the limits. -/
theorem limited_within {base : Nat} {type : SymbolType} (based : rangeBase type = some base)
    {low high : Int} (ordered : low ≤ high) (least : -2 ^ 63 ≤ low) (greatest : high < 2 ^ 63)
    (natural : type = .hex → 0 ≤ low) (text : CString) :
    let value := (strtoll base (match limited low high (strtoll base text).value with
      | none => text
      | some bound => printBound type bound)).value
    low ≤ value ∧ value ≤ high := by
  have printed : ∀ bound, low ≤ bound → bound ≤ high →
      (strtoll base (printBound type bound)).value = bound := by
    intro bound above below
    unfold printBound
    cases type with
    | int =>
        cases based
        rw [if_pos rfl, strtoll_printLld (by omega) (by omega)]
    | hex =>
        cases based
        have := natural rfl
        rw [if_neg (by decide), strtoll_printHex (by omega) (by omega)]
    | unknown => cases based
    | boolean => cases based
    | tristate => cases based
    | string => cases based
    | other => cases based
  unfold limited
  by_cases above : low ≤ (strtoll base text).value
  · rw [if_pos above]
    by_cases below : (strtoll base text).value ≤ high
    · rw [if_pos below]
      exact ⟨above, below⟩
    · rw [if_neg below]
      dsimp only
      rw [printed high ordered (le_refl _)]
      exact ⟨ordered, le_refl _⟩
  · rw [if_neg above]
    dsimp only
    rw [printed low (le_refl _) ordered]
    exact ⟨le_refl _, ordered⟩

/-- A number is within the first of its ranges that is met. -/
theorem solution_ranged {base : Nat} (based : rangeBase (config.table.type index) = some base)
    {left right : Symbol entry} {visible : Tristate}
    (met : firstMet config (outcomes.values config) (config.ranges index) =
      some ((left, right), visible)) :
    let low := rangeBound config (outcomes.values config) base left
    let high := rangeBound config (outcomes.values config) base right
    let value := (strtoll base (outcomes index).val).value
    low ≤ high → (config.table.type index = .hex → 0 ≤ low) → low ≤ value ∧ value ≤ high := by
  intro low high value ordered natural
  have isText : IsText config index := by
    unfold IsText
    cases type : config.table.type index with
    | int => exact Or.inl rfl
    | hex => exact Or.inr (Or.inl rfl)
    | string => exact Or.inr (Or.inr rfl)
    | unknown => rw [type] at based; cases based
    | boolean => rw [type] at based; cases based
    | tristate => rw [type] at based; cases based
    | other => rw [type] at based; cases based
  have result := congrArg Outcome.val (solves index)
  rw [outcome_text isText] at result
  dsimp only at result
  unfold rangedText at result
  rw [based, met] at result
  dsimp only at result
  change low ≤ (strtoll base (outcomes index).val).value ∧
    (strtoll base (outcomes index).val).value ≤ high
  rw [result]
  exact limited_within based ordered (strtoll_bounds _ _).1 (strtoll_bounds _ _).2 natural _

end Solutions

/-! ### Every calculation -/

/-- After any calculations: what cannot be `m` is not, what is selected is set, and of the visible
values of a choice that is `y` exactly one is, the user's where it is visible. -/
theorem calculation_keeps [DecidableEq entry] {config : Config entry} {rank : entry → Nat}
    (ranked : Ranked config rank) {fuel : Nat} (within : ∀ index, rank index < fuel)
    (user : User config) {defUser : entry → Bool} {state : State entry}
    (cleared : Cleared config defUser state) (order : List entry) :
    let after := order.foldl (symCalcValue config user fuel) state
    (∀ index ∈ order, IsWhole config index → (after index).tri ≠ .mod) ∧
    (∀ index ∈ order, KconfigEquations.IsSwitch config index → ¬IsChoiceValue config index →
      ¬IsChoice config index → (after index).revDep ≤ (after index).tri) ∧
    ∀ choice ∈ order, ∀ listed, config.choiceValues choice = some listed →
      (∀ value ∈ listed, value ∈ order ∧ KconfigEquations.IsSwitch config value) →
      (after choice).tri = .yes →
      ∃ value ∈ listed, (after value).visible ≠ .no ∧
        (∀ other ∈ listed, (after other).visible ≠ .no →
          ((after other).tri = .yes ↔ other = value)) ∧
        ∀ remembered, user.chosen choice = some remembered → (after remembered).visible ≠ .no →
          value = remembered := by
  intro after
  obtain ⟨outcomes, solves, settles⟩ := calculation_settles ranked within user cleared
  have known : ∀ index ∈ order, KconfigEquations.IsSwitch config index →
      (after index).tri = (outcomes index).tri ∧ (after index).visible = (outcomes index).visible ∧
        (after index).revDep = (outcomes index).revDep := by
    intro index listed isSwitch
    have settled := (settles order index listed).2
    obtain ⟨visible, _, revDep, _⟩ := settled.known isSwitch.hasVisibility
    exact ⟨settled.tri, visible, revDep⟩
  refine ⟨fun index listed whole => ?_, fun index listed isSwitch single simple => ?_,
    fun choice inOrder listed isChoice switches whole => ?_⟩
  · rw [(known index listed (whole.imp id And.left)).1]
    exact solution_whole solves whole
  · obtain ⟨tri, _, revDep⟩ := known index listed isSwitch
    rw [tri, revDep]
    exact solution_selected solves isSwitch single simple
  · have isSwitch := config.choiceSwitch choice listed isChoice
    have visible : ∀ value ∈ listed, (after value).visible = (outcomes value).visible :=
      fun value inList => (known value (switches value inList).1 (switches value inList).2).2.1
    have tri : ∀ value ∈ listed, (after value).tri = (outcomes value).tri :=
      fun value inList => (known value (switches value inList).1 (switches value inList).2).1
    obtain ⟨value, inList, shown, only, remembers⟩ := solution_one solves isChoice
      (fun value inList => (switches value inList).2)
      ((known choice inOrder isSwitch).1.symm.trans whole)
    refine ⟨value, inList, by rw [visible value inList]; exact shown,
      fun other otherIn otherShown => ?_, fun remembered isRemembered isShown => ?_⟩
    · rw [tri other otherIn]
      exact only other otherIn (by rw [← visible other otherIn]; exact otherShown)
    · have otherIn := (config.choiceListed choice listed isChoice remembered).mpr
        (user.chosenListed choice remembered isRemembered)
      exact remembers remembered isRemembered (by rw [← visible remembered otherIn]; exact isShown)

/-- The bus is `y` or `n`, no less than what selects it, and the fast value is the one that is `y`:
the user has chosen it, and it is visible. -/
theorem calculation_keeps_board :
    let after := [Board.slow, .speed, .bus, .fast].foldl (symCalcValue boardConfig boardUser 4)
      boardState
    (after .bus).tri ≠ .mod ∧ (after .bus).revDep ≤ (after .bus).tri ∧
      ∀ other ∈ [Board.fast, .slow], (after other).visible ≠ .no →
        ((after other).tri = .yes ↔ other = .fast) := by
  intro after
  obtain ⟨whole, selected, one⟩ := calculation_keeps boardRanked boardRank_lt boardUser boardCleared
    [.slow, .speed, .bus, .fast]
  obtain ⟨value, listed, _, only, remembers⟩ := one .speed (by decide) [.fast, .slow] rfl
    (fun value listed => by
      rcases List.mem_pair.mp listed with same | same <;> cases same
      · exact ⟨by decide, Or.inl rfl⟩
      · exact ⟨by decide, Or.inl rfl⟩) (by decide)
  have isFast : value = .fast := remembers .fast rfl (by decide)
  refine ⟨whole .bus (by decide) (Or.inl rfl), selected .bus (by decide) (Or.inl rfl) ?_ ?_, ?_⟩
  · exact not_not_intro rfl
  · decide
  · rw [isFast] at only
    exact only

/-- After any calculations a number is within the first of its ranges that is met. -/
theorem calculation_ranges [DecidableEq entry] {config : Config entry} {rank : entry → Nat}
    (ranked : Ranked config rank) {fuel : Nat} (within : ∀ index, rank index < fuel)
    (user : User config) {defUser : entry → Bool} {state : State entry}
    (cleared : Cleared config defUser state) :
    ∃ outcomes, Solves config user defUser outcomes ∧
      ∀ (order : List entry), ∀ index ∈ order, ∀ base left right visible,
        rangeBase (config.table.type index) = some base →
        firstMet config (outcomes.values config) (config.ranges index) =
          some ((left, right), visible) →
        let low := rangeBound config (outcomes.values config) base left
        let high := rangeBound config (outcomes.values config) base right
        let after := order.foldl (symCalcValue config user fuel) state
        let value := (strtoll base (after index).val).value
        low ≤ high → (config.table.type index = .hex → 0 ≤ low) → low ≤ value ∧ value ≤ high := by
  obtain ⟨outcomes, solves, settles⟩ := calculation_settles ranked within user cleared
  refine ⟨outcomes, solves, fun order index listed base left right visible based met => ?_⟩
  intro low high after value ordered natural
  have same : (after index).val = (outcomes index).val := (settles order index listed).2.val
  change low ≤ (strtoll base (after index).val).value ∧ (strtoll base (after index).val).value ≤ high
  rw [same]
  exact solution_ranged solves based met ordered natural

theorem calculation_ranges_board :
    let after := [Board.clock].foldl (symCalcValue boardConfig boardUser 4) boardState
    10 ≤ (strtoll 10 (after .clock).val).value ∧ (strtoll 10 (after .clock).val).value ≤ 200 := by
  obtain ⟨outcomes, solves, ranged⟩ := calculation_ranges boardRanked boardRank_lt boardUser
    boardCleared
  have least : (outcomes .least).val = "10".toList := by rw [solves .least]; rfl
  have most : (outcomes .most).val = "200".toList := by rw [solves .most]; rfl
  have bus : (outcomes .bus).tri = .yes := by rw [solves .bus]; rfl
  have met : firstMet boardConfig (outcomes.values boardConfig) (boardConfig.ranges .clock) =
      some ((.entry .least, .entry .most), .yes) := by
    simp [firstMet, condition, exprCalcValue, Values.triOf, Outcomes.values, boardConfig, bus]
  have low : rangeBound boardConfig (outcomes.values boardConfig) 10 (.entry .least) = 10 := by
    unfold rangeBound
    rw [show valueText (outcomes.values boardConfig) (.entry .least) = "10".toList from least]
    decide
  have high : rangeBound boardConfig (outcomes.values boardConfig) 10 (.entry .most) = 200 := by
    unfold rangeBound
    rw [show valueText (outcomes.values boardConfig) (.entry .most) = "200".toList from most]
    decide
  have limits := ranged [.clock] .clock (List.mem_singleton_self _) 10 _ _ _ rfl met
  rw [low, high] at limits
  exact limits (by decide) (by decide)

end BuildLinux.Concrete.KconfigGuarantees
